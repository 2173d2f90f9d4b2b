/-
# Authenticated encryption

A cipher that seals a message under a key, a nonce and associated data, as far
as a program relies on it: what was sealed opens under the same three, and is
longer than the message by a tag of 16 bytes.

Key definitions: `Aead`, `Aead.Opens`.
-/
import Mathlib.Data.List.Basic

/-- A cipher: of a key, a nonce, associated data, and the message or what it was sealed to. -/
structure Aead where
  encrypt : List UInt8 → List UInt8 → List UInt8 → List UInt8 → List UInt8
  decrypt : List UInt8 → List UInt8 → List UInt8 → List UInt8 → Option (List UInt8)

namespace Aead

def tagLen : ℕ := 16

structure Opens (A : Aead) : Prop where
  open_seal : ∀ key nonce aad msg, A.decrypt key nonce aad (A.encrypt key nonce aad msg) = some msg
  length : ∀ key nonce aad msg, (A.encrypt key nonce aad msg).length = msg.length + tagLen

/-- A cipher that marks what it sealed with its nonce and hides nothing. -/
def plain : Aead where
  encrypt _ nonce _ msg := msg ++ (nonce ++ List.replicate tagLen 0).take tagLen
  decrypt _ nonce _ ct :=
    if ct.drop (ct.length - tagLen) = (nonce ++ List.replicate tagLen 0).take tagLen then some (ct.take (ct.length - tagLen))
    else none

theorem plain_opens : plain.Opens where
  open_seal key nonce aad msg := by simp [plain, tagLen]
  length key nonce aad msg := by simp [plain, tagLen]

end Aead
