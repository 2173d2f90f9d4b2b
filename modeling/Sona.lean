import Sona.Lib.Table
import Sona.Lib.Trace
import Sona.Lib.Shed
import Sona.Lib.Positions
import Sona.Lib.Base64
import Sona.Lib.Json
import Sona.Lib.JsonText
import Sona.Lib.Aead
import Sona.Lib.Fragments
import Sona.Lib.Flat
import Sona.Lib.Delimited
import Sona.Lib.Pinned
import Sona.Lib.Stable
import Sona.Lib.Recent
import Sona.Lib.Prefix
import Sona.Wire
import Sona.Store
import Sona.Calls
import Sona.Challenge
import Sona.Limiter
import Sona.Kt
import Sona.Chain
import Sona.Db
import Sona.Durable
import Sona.Wake
import Sona.Relay
import Sona.Handlers
import Sona.Run
import Sona.Records
import Sona.Sockets
import Sona.Ownership
import Sona.Takeover
import Sona.Isolation
import Sona.Rotation
import Sona.Revocation
import Sona.CallKeys
import Sona.OneTimeKeys
import Sona.CallState
import Sona.Heads
import Sona.Auditor
import Sona.Replay
import Sona.Group
import Sona.Payloads
import Sona.Thread
import Sona.History
import Sona.Media
import Sona.Membership
import Sona.Requests
import Sona.Inbound
import Sona.Epochs
import Sona.Legacy
import Sona.Registry
import Sona.CallStore
import Sona.Reopen
import Sona.Rings
import Sona.Routes
import Sona.Attribution
import Sona.Pins
import Sona.Resolve
import Sona.Fanout
import Sona.Enrolment
import Sona.Edits
import Sona.Leaving
import Sona.Order
import Sona.Chips
import Sona.Contacts
import Sona.GroupFrame
import Sona.Quarantine
import Sona.FirstMessages
import Sona.AddRace
import Sona.Transfers
import Sona.Copies
import Sona.Merge
import Sona.Ratchet
import Sona.Sessions
import Sona.Openings
import Sona.Screening
import Sona.Uploads
import Sona.Drain
import Sona.Budgets
import Sona.Access
import Sona.Arbiter
import Sona.Outbox
import Sona.Cells
import Sona.Capsules
import Sona.QuicWire
import Sona.Padding
import Sona.Renames
import Sona.Receipts
import Sona.CallOutbox
import Sona.Migration
import Sona.OpenMode
import Sona.InviteMeta
import Sona.LeafAudit
import Sona.QuietAudit
import Sona.ChatPayload
import Sona.Frames
import Sona.Delivery
import Sona.Lib.Observe
import Sona.Lib.Jitter
import Sona.Voice
import Sona.GroupCall
import Sona.Lib.Command
import Sona.Vault
import Sona.QuickUnlock
