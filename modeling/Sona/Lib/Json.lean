/-
# JSON values

A JSON value, and how a record is read from one: a field by its name (a record
that has a field twice is refused, fields nobody asks for are ignored), a field
that may be missing, and the values of the plain types. A list whose items are
read back is read back (`Json.readAll_map`).

Key definitions: `Json`, `Json.field`, `Json.optField`, `Json.readAll`.
-/
import Mathlib.Data.List.Basic

inductive Json
  | null
  | bool (b : Bool)
  | num (n : ℕ)
  | str (s : String)
  | arr (items : List Json)
  | obj (fields : List (String × Json))

namespace Json

def asNat : Json → Option ℕ
  | num n => some n
  | _ => none

def asStr : Json → Option String
  | str s => some s
  | _ => none

def asBool : Json → Option Bool
  | bool b => some b
  | _ => none

/-- A string or nothing. -/
def asOptStr : Json → Option (Option String)
  | null => some none
  | str s => some (some s)
  | _ => none

def ofOptStr : Option String → Json
  | none => null
  | some s => str s

def asArr : Json → Option (List Json)
  | arr items => some items
  | _ => none

/-- The field of an object that may be missing; none where it stands twice. -/
def optField (name : String) : Json → Option (Option Json)
  | obj fields =>
    match fields.filter fun f => f.1 = name with
    | [] => some none
    | [f] => some (some f.2)
    | _ => none
  | _ => none

/-- The field of an object that must be there. -/
def field (name : String) (j : Json) : Option Json := (j.optField name).join

@[simp] theorem asNat_num (n : ℕ) : (num n).asNat = some n := rfl

@[simp] theorem asStr_str (s : String) : (str s).asStr = some s := rfl

@[simp] theorem asBool_bool (b : Bool) : (bool b).asBool = some b := rfl

@[simp] theorem asArr_arr (items : List Json) : (arr items).asArr = some items := rfl

@[simp] theorem asOptStr_ofOptStr (o : Option String) : (ofOptStr o).asOptStr = some o := by
  cases o <;> rfl

/-! ### Lists -/

/-- Every item is read; none if one cannot be. -/
def readAll {α : Type} (read : Json → Option α) : List Json → Option (List α)
  | [] => some []
  | j :: js => do
    let a ← read j
    let rest ← readAll read js
    some (a :: rest)

theorem readAll_map {α : Type} {read : Json → Option α} {write : α → Json}
    (h : ∀ a, read (write a) = some a) :
    ∀ as : List α, readAll read (as.map write) = some as
  | [] => rfl
  | a :: as => by
    rw [List.map_cons, readAll, h a, readAll_map h as]
    rfl

end Json
