/-
# Call rooms

`server/src/call.rs`: two anonymous sockets are paired by a random call id. A
room is charged to the client that created it (`roomOwner`, `owned`) and gives
the slot back when it goes, by age (`gc`) or because a leg ends (`leaveRoom`).

The books balance in every run (`rooms_invariant`): `releaseRoom` keeps the
count of each client's rooms (`Books`), and rooms appear and go only together
with their owner's entry. What `leaveRoom` does not do is look whether the leg
that ends is still in the room: a room that was reaped and opened again under
the same id, or a member that was pruned as closed, meets a late leave of the
old leg, which dissolves the room and tells one of the two members that are in
it (`stale_leave`). A leave does what it should exactly when the room is gone
or the leg is one of its members (`leave_ok_iff`).
-/
import Mathlib.Data.List.Induction
import Sona.Lib.Table
import Sona.Lib.Trace

namespace Sona

/-! ### Rooms -/

/-- A room with one member older than this is a call nobody answered. -/
def lonelyRoomTtlSecs : ℕ := 120

/-- No room lives longer. -/
def maxRoomAgeSecs : ℕ := 6 * 3600

/-- The media protocol level the relay advertises. -/
def mediaLevel : ℕ := 2

/-- One anonymous member of a room. Its transport is the environment's: it may
close at any time, and what it is sent is a list of notices. -/
structure Member where
  id : ℕ
deriving DecidableEq, Repr

/-- What a member is sent by the room. -/
inductive Notice
  | peerJoined
  | joined (peers media : ℕ)
  | peerLeft
  | close
deriving DecidableEq, Repr

structure CallRoom where
  createdAt : ℕ
  members : List Member
deriving DecidableEq, Repr

structure CallRooms where
  rooms : Table String CallRoom := ∅
  roomOwner : Table String String := ∅
  owned : Table String ℕ := ∅

/-- The room table with `room` under `callId`. -/
def CallRooms.setRoom (calls : CallRooms) (callId : String) (room : CallRoom) : CallRooms :=
  { calls with rooms := calls.rooms.set callId room }

/-- The two caps of the configuration. -/
structure RoomConfig where
  maxRooms : ℕ
  maxRoomsPerClient : ℕ

/-- `release_room`: a room's slot goes back to whoever created it. -/
def releaseRoom (owner : Table String String) (owned : Table String ℕ) (callId : String) :
    Table String String × Table String ℕ :=
  match owner.get callId with
  | none => (owner, owned)
  | some client =>
    (owner.remove callId,
      match owned.get client with
      | none => owned
      | some n => if n - 1 = 0 then owned.remove client else owned.set client (n - 1))

/-- A room `gc` drops at time `t`. -/
def CallRoom.stale (t : ℕ) (r : CallRoom) : Bool :=
  let lonelyExpired := decide (r.members.length < 2) && decide (t - r.createdAt > lonelyRoomTtlSecs)
  let tooOld := decide (t - r.createdAt > maxRoomAgeSecs)
  lonelyExpired || tooOld

def CallRooms.gc (calls : CallRooms) (t : ℕ) : CallRooms :=
  let dropped := calls.rooms.keys.filter fun id => (calls.rooms.get id).any (·.stale t)
  let (roomOwner, owned) :=
    dropped.foldl (fun p id => releaseRoom p.1 p.2 id) (calls.roomOwner, calls.owned)
  { rooms := calls.rooms.filterMap fun _ r => if r.stale t then none else some r
    roomOwner, owned }

/-- What a join answers: the member id, or a refusal; and who was sent what. -/
structure JoinOutcome where
  id : Option ℕ
  sent : List (ℕ × Notice)
  calls : CallRooms

/-- `join_room`. `closed` says whose transport reads as closed at this moment. -/
def joinRoom (config : RoomConfig) (calls : CallRooms) (callId : String) (member : Member)
    (client : String) (closed : ℕ → Bool) (t : ℕ) : JoinOutcome :=
  let calls := calls.gc t
  let isNew := (calls.rooms.get callId).isNone
  if decide (calls.rooms.size ≥ config.maxRooms) && isNew then ⟨none, [], calls⟩ else
  let held := (calls.owned.get client).getD 0
  if isNew && decide (held ≥ config.maxRoomsPerClient) then ⟨none, [], calls⟩ else
  let calls := if isNew then
      { calls with
        roomOwner := calls.roomOwner.set callId client
        owned := calls.owned.set client (held + 1) }
    else calls
  let room := (calls.rooms.get callId).getD { createdAt := t, members := [] }
  let members := room.members.filter fun m => !closed m.id
  if members.length ≥ 2 then
    ⟨none, [], calls.setRoom callId { room with members }⟩
  else
    ⟨some member.id,
      members.map (fun m => (m.id, .peerJoined)) ++ [(member.id, .joined (members.length + 1) mediaLevel)],
      calls.setRoom callId { room with members := members ++ [member] }⟩

/-- `leave_room`: dissolve the room and tell the peer. -/
def leaveRoom (calls : CallRooms) (callId : String) (myId : ℕ) : List (ℕ × Notice) × CallRooms :=
  let peer := (calls.rooms.get callId).bind fun room => room.members.find? fun m => m.id ≠ myId
  let (roomOwner, owned) := releaseRoom calls.roomOwner calls.owned callId
  let sent := match peer with
    | none => []
    | some peer => [(peer.id, .peerLeft), (peer.id, .close)]
  (sent, { rooms := calls.rooms.remove callId, roomOwner, owned })

/-! ### Runs -/

/-- What happens to the rooms. A join is of a fresh connection, whose member id
is the next of the process-wide counter. -/
inductive RoomEvent
  | join (callId client : String) (closed : ℕ → Bool) (t : ℕ)
  | leave (callId : String) (id : ℕ)
  | gc (t : ℕ)

structure RoomState where
  calls : CallRooms := {}
  nextMemberId : ℕ := 1

def roomStep (config : RoomConfig) (s : RoomState) : RoomEvent → RoomState
  | .join callId client closed t =>
    { calls := (joinRoom config s.calls callId ⟨s.nextMemberId⟩ client closed t).calls
      nextMemberId := s.nextMemberId + 1 }
  | .leave callId id => { s with calls := (leaveRoom s.calls callId id).2 }
  | .gc t => { s with calls := s.calls.gc t }

/-! ### The books -/

/-- The rooms a client is charged for. -/
def chargedTo (owner : Table String String) (client : String) : ℕ :=
  owner.total fun o => if o = client then 1 else 0

/-- `owned` holds the number of rooms charged to each client that has any. -/
def Books (owner : Table String String) (owned : Table String ℕ) : Prop :=
  ∀ c, owned.get c = if chargedTo owner c = 0 then none else some (chargedTo owner c)

theorem Books.getD {owner : Table String String} {owned : Table String ℕ} (h : Books owner owned)
    (c : String) :
    (owned.get c).getD 0 = chargedTo owner c := by
  rw [h c]; split <;> simp_all

theorem releaseRoom_owner (owner : Table String String) (owned : Table String ℕ) (id : String) :
    (releaseRoom owner owned id).1 = owner.remove id := by
  unfold releaseRoom
  cases h : owner.get id with
  | none => exact (Table.remove_of_none _ h).symm
  | some c => rfl

theorem chargedTo_remove_le (owner : Table String String) (id c : String) :
    chargedTo (owner.remove id) c ≤ chargedTo owner c := Table.total_remove_le _ _ _

theorem chargedTo_split {owner : Table String String} {id client : String}
    (h : owner.get id = some client) (c : String) :
    chargedTo owner c = (if client = c then 1 else 0) + chargedTo (owner.remove id) c :=
  Table.total_split _ _ h

/-- A release keeps the books: one room less for its owner, and no one else is
touched. -/
theorem Books.release {owner : Table String String} {owned : Table String ℕ} (h : Books owner owned)
    (id : String) : Books (releaseRoom owner owned id).1 (releaseRoom owner owned id).2 := by
  rw [releaseRoom_owner]
  unfold releaseRoom
  cases ho : owner.get id with
  | none => simpa [Table.remove_of_none _ ho] using h
  | some client =>
    intro c
    have hself := chargedTo_split ho client
    have hc := chargedTo_split ho c
    simp only [if_true] at hself
    have hget : owned.get client = some (1 + chargedTo (owner.remove id) client) := by
      rw [h client, hself, if_neg (by omega)]
    simp only [hget, Nat.add_sub_cancel_left]
    by_cases hcc : c = client
    · subst hcc
      split
      · exact Table.get_remove_self _ _
      · exact Table.get_set_self _ _ _
    · have hsame : chargedTo (owner.remove id) c = chargedTo owner c := by
        rw [hc, if_neg (fun h => hcc h.symm)]; omega
      rw [hsame, ← h c]
      split
      · exact Table.get_remove_ne _ hcc
      · exact Table.get_set_ne _ _ hcc

/-- A creation keeps the books: one room more for its creator. -/
theorem Books.charge {owner : Table String String} {owned : Table String ℕ} (h : Books owner owned)
    {id : String} (hid : owner.get id = none) (client : String) :
    Books (owner.set id client) (owned.set client (chargedTo owner client + 1)) ∧
      ∀ c, chargedTo (owner.set id client) c =
        (if client = c then 1 else 0) + chargedTo owner c := by
  have hcharge : ∀ c, chargedTo (owner.set id client) c =
      (if client = c then 1 else 0) + chargedTo owner c := by
    intro c
    unfold chargedTo
    rw [Table.total_set, Table.remove_of_none _ hid]
  refine ⟨fun c => ?_, hcharge⟩
  rw [Table.get_set, hcharge c]
  by_cases hcc : c = client
  · subst hcc
    rw [if_pos rfl, if_pos rfl, if_neg (by omega), Nat.add_comm]
  · rw [if_neg hcc, if_neg (fun he : client = c => hcc he.symm), Nat.zero_add]
    exact h c

/-- Releasing a list of rooms: the books balance, the owners of the others stay
and no client is charged for more. -/
theorem Books.release_all :
    ∀ (ids : List String) (owner : Table String String) (owned : Table String ℕ),
    Books owner owned →
    let p := ids.foldl (fun p id => releaseRoom p.1 p.2 id) (owner, owned)
    Books p.1 p.2 ∧ (∀ id, p.1.get id = if id ∈ ids then none else owner.get id) ∧
      ∀ c, chargedTo p.1 c ≤ chargedTo owner c
  | [], owner, owned, h => ⟨h, fun id => by simp, fun c => le_refl _⟩
  | id :: ids, owner, owned, h => by
    obtain ⟨h1, h2, h3⟩ := Books.release_all ids _ _ (h.release id)
    refine ⟨h1, fun j => ?_, fun c => (h3 c).trans ?_⟩
    · rw [List.foldl_cons]
      refine (h2 j).trans ?_
      rw [releaseRoom_owner, Table.get_remove]
      by_cases hj : j = id <;> by_cases hm : j ∈ ids <;> simp [hj, hm]
    · rw [releaseRoom_owner]; exact chargedTo_remove_le _ _ _

/-! ### The invariant -/

/-- The number of rooms whose owner is `c`. -/
def CallRooms.roomsOf (calls : CallRooms) (c : String) : ℕ :=
  (calls.rooms.keys.filter fun id => calls.roomOwner.get id == some c).length

structure RoomsOk (config : RoomConfig) (calls : CallRooms) : Prop where
  /-- A room is there exactly when its owner is recorded. -/
  keys : ∀ id, (calls.rooms.get id).isSome ↔ (calls.roomOwner.get id).isSome
  /-- `owned` has a client exactly when it owns rooms, with their number. -/
  owned : ∀ c, calls.owned.get c = if calls.roomsOf c = 0 then none else some (calls.roomsOf c)
  quota : ∀ c, calls.roomsOf c ≤ config.maxRoomsPerClient
  count : calls.rooms.size ≤ config.maxRooms
  members : ∀ id room, calls.rooms.get id = some room →
    1 ≤ room.members.length ∧ room.members.length ≤ 2 ∧ (room.members.map (·.id)).Nodup

/-- The same in the terms the steps preserve: the charges are counted over the
owners' table, and the ids in a room are below the counter. -/
structure RoomsInv (config : RoomConfig) (s : RoomState) : Prop where
  keys : ∀ id, (s.calls.rooms.get id).isSome ↔ (s.calls.roomOwner.get id).isSome
  books : Books s.calls.roomOwner s.calls.owned
  quota : ∀ c, chargedTo s.calls.roomOwner c ≤ config.maxRoomsPerClient
  count : s.calls.rooms.size ≤ config.maxRooms
  members : ∀ id room, s.calls.rooms.get id = some room →
    1 ≤ room.members.length ∧ room.members.length ≤ 2 ∧ (room.members.map (·.id)).Nodup ∧
      ∀ m ∈ room.members, m.id < s.nextMemberId

theorem roomsOf_eq {calls : CallRooms}
    (h : ∀ id, (calls.rooms.get id).isSome ↔ (calls.roomOwner.get id).isSome) (c : String) :
    calls.roomsOf c = chargedTo calls.roomOwner c := by
  have hperm : calls.rooms.keys.Perm calls.roomOwner.keys := by
    refine (List.perm_ext_iff_of_nodup (AList.keys_nodup _) (AList.keys_nodup _)).mpr fun id => ?_
    rw [Table.mem_keys_iff, Table.mem_keys_iff, ← Option.isSome_iff_exists,
      ← Option.isSome_iff_exists]
    exact h id
  unfold CallRooms.roomsOf chargedTo
  have htotal := Table.total_eq_length_filter (fun o => decide (o = c)) calls.roomOwner
  simp only [decide_eq_true_eq] at htotal
  rw [htotal, (hperm.filter _).length_eq]
  congr 1
  refine List.filter_congr fun id _ => ?_
  cases calls.roomOwner.get id <;> simp [Option.any, Bool.beq_eq_decide_eq]

theorem RoomsInv.ok {config : RoomConfig} {s : RoomState} (h : RoomsInv config s) :
    RoomsOk config s.calls where
  keys := h.keys
  owned := fun c => by rw [roomsOf_eq h.keys]; exact h.books c
  quota := fun c => by rw [roomsOf_eq h.keys]; exact h.quota c
  count := h.count
  members := fun id room hr => ⟨(h.members id room hr).1, (h.members id room hr).2.1, (h.members id room hr).2.2.1⟩

theorem roomsInv_init (config : RoomConfig) : RoomsInv config {} where
  keys := fun id => by simp
  books := fun c => by simp [chargedTo]
  quota := fun c => by simp [chargedTo]
  count := by simp [Table.size]
  members := fun id room hr => by simp at hr

theorem RoomsInv.gc {config : RoomConfig} {s : RoomState} (h : RoomsInv config s) (t : ℕ) :
    RoomsInv config { s with calls := s.calls.gc t } := by
  obtain ⟨hb, hget, hle⟩ := Books.release_all
    (s.calls.rooms.keys.filter fun id => (s.calls.rooms.get id).any (·.stale t)) _ _ h.books
  refine ⟨fun id => ?_, hb, fun c => (hle c).trans (h.quota c),
    (Table.size_filterMap_le _ _).trans h.count, fun id room hr => ?_⟩
  · -- a room goes exactly when its owner's entry does
    have hk := h.keys id
    simp only [CallRooms.gc]
    rw [Table.get_filterMap, hget id]
    cases hroom : s.calls.rooms.get id with
    | none =>
      have hnone : s.calls.roomOwner.get id = none := by simpa [hroom] using hk
      simp [hnone]
    | some room =>
      have hsome : (s.calls.roomOwner.get id).isSome = true := by simpa [hroom] using hk
      have hmem : id ∈ s.calls.rooms.keys := (Table.mem_keys_iff _ _).mpr ⟨room, hroom⟩
      cases hst : room.stale t <;> simp [hmem, hroom, hst, hsome]
  · change (s.calls.rooms.filterMap _).get id = some room at hr
    rw [Table.get_filterMap, Option.bind_eq_some_iff] at hr
    obtain ⟨r, hroom, hr⟩ := hr
    simp only [Option.ite_none_left_eq_some, Option.some.injEq] at hr
    exact hr.2 ▸ h.members id r hroom

theorem RoomsInv.leave {config : RoomConfig} {s : RoomState} (h : RoomsInv config s)
    (callId : String) (id : ℕ) :
    RoomsInv config { s with calls := (leaveRoom s.calls callId id).2 } := by
  refine ⟨fun j => ?_, h.books.release callId, fun c => ?_,
    (Table.size_remove_le _ _).trans h.count, fun j room hr => ?_⟩
  · change ((s.calls.rooms.remove callId).get j).isSome ↔ ((releaseRoom _ _ callId).1.get j).isSome
    rw [releaseRoom_owner, Table.get_remove, Table.get_remove]
    split
    · rfl
    · exact h.keys j
  · change chargedTo (releaseRoom _ _ callId).1 c ≤ _
    rw [releaseRoom_owner]
    exact (chargedTo_remove_le _ _ _).trans (h.quota c)
  · change (s.calls.rooms.remove callId).get j = some room at hr
    rw [Table.get_remove] at hr
    split at hr
    · cases hr
    · exact h.members j room hr

/-- What a join can do, after its `gc`: be refused and change at most the members
of a room that was there, or put the newcomer into a room that was there, or
open a new room for it and charge the client. -/
theorem joinRoom_cases (config : RoomConfig) (calls : CallRooms) (callId : String) (member : Member)
    (client : String) (closed : ℕ → Bool) (t : ℕ) :
    let g := calls.gc t
    let r := joinRoom config calls callId member client closed t
    (r.id = none ∧ (r.calls = g ∨ ∃ room, g.rooms.get callId = some room ∧
      2 ≤ (room.members.filter fun m => !closed m.id).length ∧
      r.calls = g.setRoom callId { room with members := room.members.filter fun m => !closed m.id })) ∨
    (r.id = some member.id ∧ ∃ room, g.rooms.get callId = some room ∧
      (room.members.filter fun m => !closed m.id).length < 2 ∧
      r.calls = g.setRoom callId
        { room with members := (room.members.filter fun m => !closed m.id) ++ [member] }) ∨
    (r.id = some member.id ∧ g.rooms.get callId = none ∧ g.rooms.size < config.maxRooms ∧
      (g.owned.get client).getD 0 < config.maxRoomsPerClient ∧
      r.calls = { rooms := g.rooms.set callId { createdAt := t, members := [member] }
                  roomOwner := g.roomOwner.set callId client
                  owned := g.owned.set client ((g.owned.get client).getD 0 + 1) }) := by
  intro g r
  cases hroom : g.rooms.get callId with
  | some room =>
    by_cases hlen : 2 ≤ (room.members.filter fun m => !closed m.id).length
    · refine Or.inl ⟨?_, Or.inr ⟨room, rfl, hlen, ?_⟩⟩ <;>
        simp [r, joinRoom, g, show (calls.gc t).rooms.get callId = some room from hroom, hlen]
    · refine Or.inr (Or.inl ⟨?_, room, rfl, by omega, ?_⟩) <;>
        simp [r, joinRoom, g, show (calls.gc t).rooms.get callId = some room from hroom, hlen]
  | none =>
    by_cases hfull : config.maxRooms ≤ g.rooms.size
    · refine Or.inl ⟨?_, Or.inl ?_⟩ <;>
        simp [r, joinRoom, g, show (calls.gc t).rooms.get callId = none from hroom,
          show config.maxRooms ≤ (calls.gc t).rooms.size from hfull]
    · by_cases hquota : config.maxRoomsPerClient ≤ (g.owned.get client).getD 0
      · refine Or.inl ⟨?_, Or.inl ?_⟩ <;>
          simp [r, joinRoom, g, show (calls.gc t).rooms.get callId = none from hroom,
            show ¬ config.maxRooms ≤ (calls.gc t).rooms.size from hfull,
            show config.maxRoomsPerClient ≤ ((calls.gc t).owned.get client).getD 0 from hquota]
      · refine Or.inr (Or.inr ⟨?_, rfl, by omega, by omega, ?_⟩) <;>
          simp [r, joinRoom, g, CallRooms.setRoom,
            show (calls.gc t).rooms.get callId = none from hroom, show ¬ config.maxRooms ≤
                (calls.gc t).rooms.size from hfull,
            show ¬ config.maxRoomsPerClient ≤ ((calls.gc t).owned.get client).getD 0 from hquota]

/-- Replacing the members of a room that is there by one or two with distinct
ids below the counter keeps the invariant. -/
theorem RoomsInv.set_members {config : RoomConfig} {s : RoomState} (h : RoomsInv config s)
    {callId : String} {room room' : CallRoom} (hroom : s.calls.rooms.get callId = some room)
    (hm : 1 ≤ room'.members.length ∧ room'.members.length ≤ 2 ∧ (room'.members.map (·.id)).Nodup ∧
      ∀ m ∈ room'.members, m.id < s.nextMemberId) :
    RoomsInv config { s with calls := s.calls.setRoom callId room' } := by
  refine ⟨fun j => ?_, h.books, h.quota, ?_, fun j r hr => ?_⟩
  · simp only [CallRooms.setRoom, Table.get_set]
    split
    · rename_i hj; rw [hj, ← h.keys callId, hroom]; simp
    · exact h.keys j
  · change (s.calls.rooms.set callId room').size ≤ _
    rw [Table.size_set_old _ _ hroom]
    exact h.count
  · simp only [CallRooms.setRoom, Table.get_set] at hr
    split at hr
    · cases hr; exact hm
    · exact h.members j r hr

theorem RoomsInv.bump {config : RoomConfig} {s : RoomState} (h : RoomsInv config s) :
    RoomsInv config { s with nextMemberId := s.nextMemberId + 1 } :=
  ⟨h.keys, h.books, h.quota, h.count, fun id room hr =>
    have ⟨h1, h2, h3, h4⟩ := h.members id room hr
    ⟨h1, h2, h3, fun m hm => Nat.lt_succ_of_lt (h4 m hm)⟩⟩

theorem RoomsInv.join {config : RoomConfig} {s : RoomState} (h : RoomsInv config s)
    (callId client : String) (closed : ℕ → Bool) (t : ℕ) :
    RoomsInv config (roomStep config s (.join callId client closed t)) := by
  have hg := h.gc t
  have hb := hg.bump
  have hpruned : ∀ {room : CallRoom}, (s.calls.gc t).rooms.get callId = some room →
      ((room.members.filter fun m => !closed m.id).map (·.id)).Nodup ∧
        ∀ m ∈ room.members.filter fun m => !closed m.id, m.id < s.nextMemberId := by
    intro room hroom
    obtain ⟨-, -, h3, h4⟩ := hg.members callId room hroom
    exact ⟨h3.sublist (List.filter_sublist.map _), fun m hm => h4 m (List.mem_filter.mp hm).1⟩
  simp only [roomStep]
  rcases joinRoom_cases config s.calls callId ⟨s.nextMemberId⟩ client closed t with
    ⟨-, hr | ⟨room, hroom, hlen, hr⟩⟩ | ⟨-, room, hroom, hlen, hr⟩ | ⟨-, hroom, hsize, hquota, hr⟩
  · rw [hr]; exact hb
  · rw [hr]
    obtain ⟨h3, h4⟩ := hpruned hroom
    refine hb.set_members hroom ⟨by simp only; omega, ?_, h3, fun m hm => Nat.lt_succ_of_lt (h4 m hm)⟩
    exact (List.length_filter_le _ _).trans (hg.members callId room hroom).2.1
  · rw [hr]
    obtain ⟨h3, h4⟩ := hpruned hroom
    refine hb.set_members hroom ⟨by simp, by simp only [List.length_append, List.length_singleton]; omega, ?_, ?_⟩
    · rw [List.map_append, List.nodup_append]
      refine ⟨h3, by simp, fun x hx y hy => ?_⟩
      obtain ⟨m, hm, rfl⟩ := List.mem_map.mp hx
      simp only [List.map_cons, List.map_nil, List.mem_singleton] at hy
      have := h4 m hm
      omega
    · intro m hm
      rcases List.mem_append.mp hm with hm | hm
      · exact Nat.lt_succ_of_lt (h4 m hm)
      · rw [List.mem_singleton.mp hm]; exact Nat.lt_succ_self _
  · rw [hr]
    have howner : (s.calls.gc t).roomOwner.get callId = none := by
      have := hg.keys callId
      simp only [hroom, Option.isSome_none, Bool.false_eq_true, false_iff, Bool.not_eq_true,
        Option.isSome_eq_false_iff, Option.isNone_iff_eq_none] at this
      exact this
    have hold : Books (s.calls.gc t).roomOwner (s.calls.gc t).owned := hg.books
    have hle : ∀ c, chargedTo (s.calls.gc t).roomOwner c ≤ config.maxRoomsPerClient := hg.quota
    obtain ⟨hbooks, hcharge⟩ := hold.charge howner client
    rw [hold.getD client] at hquota ⊢
    refine ⟨fun j => ?_, hbooks, fun c => ?_, ?_, fun j r hj => ?_⟩
    · simp only [Table.get_set]
      split
      · simp
      · exact hg.keys j
    · change chargedTo ((s.calls.gc t).roomOwner.set callId client) c ≤ _
      rw [hcharge c]
      have := hle c
      split
      · rename_i hc; subst hc; omega
      · omega
    · change ((s.calls.gc t).rooms.set callId _).size ≤ _
      rw [Table.size_set_new _ _ hroom]
      exact hsize
    · simp only [Table.get_set] at hj
      split at hj
      · cases hj; simp
      · exact hb.members j r hj

theorem RoomsInv.step {config : RoomConfig} {s : RoomState} (h : RoomsInv config s)
    (e : RoomEvent) :
    RoomsInv config (roomStep config s e) := by
  cases e with
  | join callId client closed t => exact h.join callId client closed t
  | leave callId id => exact h.leave callId id
  | gc t => exact h.gc t

theorem roomsInv_run (config : RoomConfig) (es : List RoomEvent) :
    RoomsInv config (Trace.run (roomStep config) {} es) := by
  induction es using List.reverseRecOn with
  | nil => exact roomsInv_init config
  | append_singleton es e ih => rw [Trace.run_snoc]; exact ih.step e

/-- A refused join changes no key of the rooms, no owner and no charge beyond
what its `gc` did. -/
def RefusalKeeps (config : RoomConfig) (calls : CallRooms) : Prop :=
  ∀ callId member client closed t, (joinRoom config calls callId member client closed t).id = none →
    (∀ id, ((joinRoom config calls callId member client closed t).calls.rooms.get id).isSome =
      ((calls.gc t).rooms.get id).isSome) ∧
    (joinRoom config calls callId member client closed t).calls.roomOwner = (calls.gc t).roomOwner ∧
    (joinRoom config calls callId member client closed t).calls.owned = (calls.gc t).owned

theorem refusalKeeps (config : RoomConfig) (calls : CallRooms) : RefusalKeeps config calls := by
  intro callId member client closed t hnone
  rcases joinRoom_cases config calls callId member client closed t with
    ⟨-, hr | ⟨room, hroom, -, hr⟩⟩ | ⟨hid, -⟩ | ⟨hid, -⟩
  · rw [hr]; exact ⟨fun _ => rfl, rfl, rfl⟩
  · rw [hr]
    refine ⟨fun id => ?_, rfl, rfl⟩
    simp only [CallRooms.setRoom, Table.get_set]
    split
    · rename_i h; rw [h, hroom]; rfl
    · rfl
  · rw [hid] at hnone; cases hnone
  · rw [hid] at hnone; cases hnone

/-- **The quota books balance.** After any joins, leaves and collections by any
clients at any times the rooms and their owners have the same keys, `owned`
counts each client's rooms, both caps hold, every room has one or two members
with distinct ids, and a refused join leaves the books as they were. -/
theorem rooms_invariant (config : RoomConfig) (es : List RoomEvent) :
    RoomsOk config (Trace.run (roomStep config) {} es).calls ∧
      RefusalKeeps config (Trace.run (roomStep config) {} es).calls :=
  ⟨(roomsInv_run config es).ok, refusalKeeps config _⟩

/-! ### Leaving -/

/-- The leg `id` is one of the room's current members. -/
def CallRooms.IsMember (calls : CallRooms) (callId : String) (id : ℕ) : Prop :=
  ∃ room, calls.rooms.get callId = some room ∧ id ∈ room.members.map (·.id)

/-- What a leave owes the room: a leg that is not in it changes nothing, and when
the room goes every other member is told and closed. -/
def LeaveOk (calls : CallRooms) (callId : String) (id : ℕ) : Prop :=
  (¬ calls.IsMember callId id → (leaveRoom calls callId id).2 = calls) ∧
  ∀ room, calls.rooms.get callId = some room →
  (leaveRoom calls callId id).2.rooms.get callId = none →
    ∀ m ∈ room.members, m.id ≠ id →
      (m.id, .peerLeft) ∈ (leaveRoom calls callId id).1 ∧
      (m.id, .close) ∈ (leaveRoom calls callId id).1

/-- Every leave of the run does what it owes. -/
def LeavesOk (s : RoomState) : RoomEvent → Prop
  | .leave callId id => LeaveOk s.calls callId id
  | _ => True

/-- Every leave of the run finds its room gone or is by one of its members. -/
def LeavesCurrent (s : RoomState) : RoomEvent → Prop
  | .leave callId id => s.calls.rooms.get callId = none ∨ s.calls.IsMember callId id
  | _ => True

theorem leaveRoom_gone {config : RoomConfig} {s : RoomState} (h : RoomsInv config s)
    {callId : String} {id : ℕ} (hroom : s.calls.rooms.get callId = none) :
    (leaveRoom s.calls callId id).2 = s.calls := by
  have howner : s.calls.roomOwner.get callId = none := by
    have := h.keys callId
    simpa [hroom] using this
  simp [leaveRoom, releaseRoom, howner, Table.remove_of_none _ hroom]

/-- The room has at most one member besides `id`, and the leave finds it. -/
theorem peer_unique {l : List Member} {id : ℕ} {m : Member} (hlen : l.length ≤ 2)
    (hn : (l.map (·.id)).Nodup) (hid : id ∈ l.map (·.id)) (hm : m ∈ l) (hne : m.id ≠ id) :
    l.find? (fun m => m.id ≠ id) = some m := by
  match l, hlen with
  | [], _ => simp at hm
  | [a], _ => simp_all
  | [a, b], _ =>
    simp only [List.map_cons, List.map_nil, List.nodup_cons, List.mem_cons, List.not_mem_nil,
      or_false] at hn hid hm
    rcases hm with rfl | rfl
    · simp [hne]
    · have ha : a.id = id := by
        rcases hid with h | h
        · exact h.symm
        · exact absurd h.symm hne
      simp [ha, hne]

theorem leaveOk_iff {config : RoomConfig} {s : RoomState} (h : RoomsInv config s) (callId : String)
    (id : ℕ) :
    LeaveOk s.calls callId id ↔ s.calls.rooms.get callId = none ∨ s.calls.IsMember callId id := by
  constructor
  · rintro ⟨hsame, -⟩
    by_contra hno
    rw [not_or] at hno
    -- the room is there and the leg is not in it: the leave takes the room away
    have hgone : (leaveRoom s.calls callId id).2.rooms.get callId = none :=
      Table.get_remove_self _ _
    rw [hsame hno.2] at hgone
    exact hno.1 hgone
  · rintro (hgone | hmem)
    · exact ⟨fun _ => leaveRoom_gone h hgone, fun room hroom => by rw [hgone] at hroom; cases hroom⟩
    · refine ⟨fun hno => absurd hmem hno, fun room hroom _ m hm hne => ?_⟩
      obtain ⟨room', hroom', hid⟩ := hmem
      rw [hroom] at hroom'
      cases hroom'
      obtain ⟨-, hlen, hn, -⟩ := h.members callId room hroom
      have hpeer := peer_unique hlen hn hid hm hne
      simp only [ne_eq, decide_not] at hpeer
      simp [leaveRoom, hroom, hpeer]

/-- **When a leave is right.** In every run of joins, leaves and collections,
every leave does what it owes its room if and only if every leave finds its
room gone or is by one of its current members. -/
theorem leave_ok_iff (config : RoomConfig) (es : List RoomEvent) :
    Trace.Along (roomStep config) LeavesOk {} es ↔
    Trace.Along (roomStep config) LeavesCurrent {} es := by
  have hstep : ∀ s e, RoomsInv config s → (LeavesOk s e ↔ LeavesCurrent s e) := by
    intro s e hs
    cases e with
    | leave callId id => exact leaveOk_iff hs callId id
    | join => exact Iff.rfl
    | gc => exact Iff.rfl
  exact ⟨Trace.Along.imp (fun s e hs _ => hs.step e) (fun s e hs h => (hstep s e hs).mp h) (roomsInv_init config),
    Trace.Along.imp (fun s e hs _ => hs.step e) (fun s e hs h => (hstep s e hs).mpr h)
    (roomsInv_init config)⟩

/-- A leg joins a room and waits; the room is reaped by age while its socket is
open, two others open it again under the same id, and then the first leg ends. -/
def staleLeaveRun : List RoomEvent :=
  [.join "0123456789abcdef0123456789abcdef" "first" (fun _ => false) 1000,
    .join "0123456789abcdef0123456789abcdef" "second" (fun _ => false) 1121,
    .join "0123456789abcdef0123456789abcdef" "third" (fun _ => false) 1122,
    .leave "0123456789abcdef0123456789abcdef" 1]

/-- The late leave of leg 1 dissolves the room of legs 2 and 3 and tells only
leg 2: leg 3 is left behind. -/
theorem stale_leave :
    let calls := (Trace.run (roomStep ⟨1024, 64⟩) {} (staleLeaveRun.take 3)).calls
    calls.rooms.get "0123456789abcdef0123456789abcdef" = some ⟨1121, [⟨2⟩, ⟨3⟩]⟩ ∧
      (leaveRoom calls "0123456789abcdef0123456789abcdef" 1).1 = [(2, .peerLeft), (2, .close)] ∧
      (leaveRoom calls "0123456789abcdef0123456789abcdef" 1).2.rooms.get
        "0123456789abcdef0123456789abcdef" = none ∧
      ¬ Trace.Along (roomStep ⟨1024, 64⟩) LeavesOk {} staleLeaveRun := by
  refine ⟨by decide, by decide, by decide, ?_⟩
  rintro ⟨-, -, -, ⟨-, htold⟩, -⟩
  have h3 := htold ⟨1121, [⟨2⟩, ⟨3⟩]⟩ (by decide) (by decide) ⟨3⟩ (by decide) (by decide)
  revert h3
  decide

end Sona
