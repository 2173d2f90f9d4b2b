/-
# Finite tables

A hash map as a program uses one: look a key up, set it, remove it, keep or
rewrite the entries that pass a test, and add a weight up over the values.
A table is Mathlib's association list with distinct keys (`AList`); what is
added here is the rewriting of values (`filterMap`, `modify`), the weight (`total`, of
which the size is the case of weight one) and the lookup lemmas with both
cases in one equation, so that a proof splits on the key and not on the table.

Key definitions: `Table`, `Table.filterMap`, `Table.modify`, `Table.total`, `Table.size`.
Key theorems: `Table.get_set`, `Table.get_remove`, `Table.get_filterMap`,
`Table.get_modify`, `Table.get_orInsert`, `Table.total_set`, `Table.total_split`.
-/
import Mathlib.Data.List.AList
import Mathlib.Algebra.BigOperators.Group.List.Basic
import Mathlib.Algebra.GroupWithZero.Nat

/-- A finite map from `K` to `V`. -/
abbrev Table (K V : Type) := AList fun _ : K => V

namespace Table

variable {K V : Type}

/-- The weight `f` added up over the values. -/
def total (f : V → ℕ) (m : Table K V) : ℕ := (m.entries.map fun e => f e.2).sum

/-- The number of keys. -/
def size (m : Table K V) : ℕ := m.entries.length

theorem size_eq_total (m : Table K V) : m.size = m.total fun _ => 1 := by
  simp [size, total]

@[simp] theorem total_empty (f : V → ℕ) : (∅ : Table K V).total f = 0 := rfl

/-- Every entry goes through `f`: kept with the value `f` gives it, or dropped. -/
def filterMap (f : K → V → Option V) (m : Table K V) : Table K V where
  entries := m.entries.filterMap fun e => (f e.1 e.2).map fun v => ⟨e.1, v⟩
  nodupKeys := by
    have hn := m.nodupKeys
    unfold List.NodupKeys at hn ⊢
    refine hn.sublist ?_
    generalize m.entries = l
    induction l with
    | nil => simp
    | cons e l ih =>
      simp only [List.filterMap_cons, List.keys_cons]
      cases hf : f e.1 e.2 with
      | none => exact ih.trans (List.sublist_cons_self _ _)
      | some v => simpa using ih

/-- Every value goes through `f`: `values_mut`. -/
def mapValues (f : V → V) (m : Table K V) : Table K V := m.filterMap fun _ v => some (f v)

/-- The first entry that passes the test, in the order of the table. -/
def find (m : Table K V) (p : K → V → Bool) : Option (K × V) :=
  (m.entries.find? fun e => p e.1 e.2).map fun e => (e.1, e.2)

theorem size_filterMap_le (f : K → V → Option V) (m : Table K V) : (m.filterMap f).size ≤ m.size :=
  List.length_filterMap_le _ _

/-! ### Looking up -/

variable [DecidableEq K]

/-- The value of `k`, if it has one. -/
def get (m : Table K V) (k : K) : Option V := m.lookup k

/-- `m` with the value of `k` replaced by `v`. -/
def set (m : Table K V) (k : K) (v : V) : Table K V := m.insert k v

/-- `m` without `k`. -/
def remove (m : Table K V) (k : K) : Table K V := m.erase k

/-- `m` with `d` set at `k` unless `k` already has a value. -/
def orInsert (m : Table K V) (k : K) (d : V) : Table K V :=
  if (m.get k).isSome then m else m.set k d

/-- `m` with the value of `k`, if it has one, gone through `f`: `get_mut`. -/
def modify (m : Table K V) (k : K) (f : V → V) : Table K V :=
  m.filterMap fun j v => some (if j = k then f v else v)

theorem get_eq_none {m : Table K V} {k : K} (h : k ∉ m.keys) : m.get k = none :=
  AList.lookup_eq_none.mpr fun hk => h (AList.mem_keys.mp hk)

@[simp] theorem get_empty (k : K) : (∅ : Table K V).get k = none := rfl

theorem get_set (m : Table K V) (k j : K) (v : V) :
    (m.set k v).get j = if j = k then some v else m.get j := by
  by_cases h : j = k
  · subst h; simp [get, set]
  · simp [get, set, h]

@[simp] theorem get_set_self (m : Table K V) (k : K) (v : V) : (m.set k v).get k = some v := by
  simp [get_set]

theorem get_set_ne (m : Table K V) {k j : K} (v : V) (h : j ≠ k) : (m.set k v).get j = m.get j := by
  simp [get_set, h]

theorem get_remove (m : Table K V) (k j : K) :
    (m.remove k).get j = if j = k then none else m.get j := by
  by_cases h : j = k
  · subst h; simp [get, remove]
  · simp [get, remove, h]

@[simp] theorem get_remove_self (m : Table K V) (k : K) : (m.remove k).get k = none := by
  simp [get_remove]

theorem get_remove_ne (m : Table K V) {k j : K} (h : j ≠ k) : (m.remove k).get j = m.get j := by
  simp [get_remove, h]

theorem remove_of_none (m : Table K V) {k : K} (h : m.get k = none) : m.remove k = m := by
  apply AList.ext
  exact List.kerase_of_notMem_keys (AList.lookup_eq_none.mp h)

theorem get_orInsert (m : Table K V) (k j : K) (d : V) :
    (m.orInsert k d).get j = if j = k then some ((m.get k).getD d) else m.get j := by
  unfold orInsert
  cases h : m.get k with
  | none => simp [get_set]
  | some v => by_cases hj : j = k <;> simp [hj, h]

theorem orInsert_of_some (m : Table K V) {k : K} {v : V} (d : V) (h : m.get k = some v) :
    m.orInsert k d = m := by
  simp [orInsert, h]

theorem set_orInsert (m : Table K V) (k : K) (d v : V) : (m.orInsert k d).set k v = m.set k v := by
  unfold orInsert
  split
  · rfl
  · simp [set]

/-- A loop over the entries of another table, each of which changes the value of its key. -/
theorem get_foldl_entries {step : Table K V → K → V → Table K V} {f : Option V → V → V}
    (hstep : ∀ m k v j, (step m k v).get j = if j = k then some (f (m.get k) v) else m.get j)
    (m other : Table K V) (k : K) :
    (other.entries.foldl (fun t e => step t e.1 e.2) m).get k =
      ((other.get k).map (f (m.get k))).or (m.get k) := by
  have hn := other.nodupKeys
  have hget : other.get k = other.entries.dlookup k := rfl
  rw [hget]
  generalize other.entries = l at hn
  induction l generalizing m with
  | nil => simp
  | cons e l ih =>
    obtain ⟨hnot, hl⟩ := List.nodupKeys_cons.mp hn
    obtain ⟨a, v⟩ := e
    rw [List.foldl_cons, ih _ hl, hstep]
    by_cases hk : k = a
    · subst hk
      have hnone : List.dlookup k l = none := List.dlookup_eq_none.mpr hnot
      rw [if_pos rfl, List.dlookup_cons_eq, hnone]
      rfl
    · rw [if_neg hk, List.dlookup_cons_ne _ _ (by simpa using hk)]

/-- `m` with the entries of another table whose keys it does not have. -/
def orInsertAll (m other : Table K V) : Table K V :=
  other.entries.foldl (fun t e => t.orInsert e.1 e.2) m

theorem get_orInsertAll (m other : Table K V) (k : K) :
    (m.orInsertAll other).get k = (m.get k).or (other.get k) := by
  have hstep : ∀ (m : Table K V) (k : K) (v : V) (j : K),
      (m.orInsert k v).get j = if j = k then some ((m.get k).getD v) else m.get j :=
      fun m k v j => get_orInsert m k j v
  have hloop := get_foldl_entries hstep m other k
  unfold orInsertAll
  rw [hloop]
  cases m.get k <;> cases other.get k <;> rfl

theorem get_orInsertAll_of_some {m : Table K V} {k : K} {v : V} (other : Table K V)
    (h : m.get k = some v) :
    (m.orInsertAll other).get k = some v := by
  rw [get_orInsertAll, h]
  rfl

/-- A loop over the entries of another table that sets each of its keys. -/
theorem get_foldl_set (f : Option V → V → V) (m other : Table K V) (k : K) :
    (other.entries.foldl (fun t e => t.set e.1 (f (t.get e.1) e.2)) m).get k =
      ((other.get k).map (f (m.get k))).or (m.get k) :=
  get_foldl_entries (fun m k v j => get_set m k j (f (m.get k) v)) m other k

/-- `m` without the keys `ks`. -/
def removeAll (m : Table K V) (ks : List K) : Table K V := ks.foldl remove m

theorem get_removeAll : ∀ (ks : List K) (m : Table K V) (j : K),
    (m.removeAll ks).get j = if j ∈ ks then none else m.get j
  | [], m, j => by simp [removeAll]
  | k :: ks, m, j => by
    have ih := get_removeAll ks (m.remove k) j
    unfold removeAll at ih ⊢
    rw [List.foldl_cons, ih, get_remove]
    by_cases hk : j = k <;> by_cases hks : j ∈ ks <;> simp [hk, hks]

theorem get_filterMap (f : K → V → Option V) (m : Table K V) (k : K) :
    (m.filterMap f).get k = (m.get k).bind (f k) := by
  have hn := m.nodupKeys
  unfold get AList.lookup filterMap
  simp only
  generalize m.entries = l at hn
  induction l with
  | nil => rfl
  | cons e l ih =>
    obtain ⟨hnot, hl⟩ := List.nodupKeys_cons.mp hn
    have ih := ih hl
    obtain ⟨a, v⟩ := e
    by_cases hk : k = a
    · subst hk
      rw [List.dlookup_cons_eq]
      cases hf : f k v with
      | none =>
        -- the key is gone from the head, and it was nowhere else
        have : List.dlookup k l = none := List.dlookup_eq_none.mpr hnot
        simp [hf, ih, this]
      | some w => simp [hf]
    · rw [List.dlookup_cons_ne _ _ (by simpa using hk)]
      cases hf : f a v with
      | none => simp [hf, ih]
      | some w => simp [hf, List.dlookup_cons_ne _ (⟨a, w⟩ : Sigma fun _ : K => V) hk, ih]

/-- Of the entries only the one at `k` is read. -/
theorem filterMap_entries {W : Type} (f : V → Option W) (m : Table K V) (k : K) :
    (m.entries.filterMap fun e => if e.1 = k then f e.2 else none) = ((m.get k).bind f).toList := by
  have hn := m.nodupKeys
  change _ = ((List.dlookup k m.entries).bind f).toList
  generalize m.entries = l at hn
  induction l with
  | nil => rfl
  | cons e l ih =>
    obtain ⟨hnot, hl⟩ := List.nodupKeys_cons.mp hn
    obtain ⟨j, v⟩ := e
    by_cases hk : j = k
    · subst hk
      have hnone : (l.filterMap fun e => if e.1 = j then f e.2 else none) = [] := by
        rw [List.filterMap_eq_nil_iff]
        intro e he
        have hmem : e.1 ∈ l.keys := List.mem_map_of_mem he
        exact if_neg fun heq : e.1 = j => hnot (heq ▸ hmem)
      rw [List.filterMap_cons, hnone, List.dlookup_cons_eq]
      simp only [if_true, Option.bind_some]
      cases f v <;> rfl
    · have hne : k ≠ j := fun h => hk h.symm
      rw [List.filterMap_cons, if_neg hk, List.dlookup_cons_ne _ _ hne]
      exact ih hl

/-- A table whose entries are all kept as they are is kept. -/
theorem filterMap_eq_self {f : K → V → Option V} {m : Table K V}
    (h : ∀ k v, m.get k = some v → f k v = some v) : m.filterMap f = m := by
  apply AList.ext
  have hentries : ∀ e ∈ m.entries, (f e.1 e.2).map
      (fun v => (⟨e.1, v⟩ : Sigma fun _ : K => V)) = some e := by
    intro e he
    rw [h e.1 e.2 (AList.mem_lookup_iff.mpr he)]
    rfl
  unfold filterMap
  dsimp only
  generalize m.entries = l at hentries
  induction l with
  | nil => rfl
  | cons e l ih =>
    rw [List.filterMap_cons, hentries e List.mem_cons_self]
    dsimp only
    rw [ih fun e he => hentries e (List.mem_cons_of_mem _ he)]

@[simp] theorem get_mapValues (f : V → V) (m : Table K V) (k : K) :
    (m.mapValues f).get k = (m.get k).map f := by
  rw [mapValues, get_filterMap, Option.map_eq_bind]
  rfl

theorem get_modify (m : Table K V) (k j : K) (f : V → V) :
    (m.modify k f).get j = if j = k then (m.get k).map f else m.get j := by
  rw [modify, get_filterMap]
  by_cases h : j = k
  · subst h
    cases m.get j <;> simp
  · cases m.get j <;> simp [h]

theorem modify_id (m : Table K V) (k : K) : m.modify k (fun v => v) = m := by
  apply AList.ext
  simp [modify, filterMap]

/-- Only the value that is there counts. -/
theorem modify_congr {m : Table K V} {k : K} {f g : V → V} (h : ∀ v, m.get k = some v → f v = g v) :
    m.modify k f = m.modify k g := by
  apply AList.ext
  refine List.filterMap_congr fun e he => ?_
  have hget : m.get e.1 = some e.2 := AList.mem_lookup_iff.mpr he
  by_cases hk : e.1 = k
  · rw [hk] at hget
    simp [hk, h e.2 hget]
  · simp [hk]

theorem modify_modify (m : Table K V) (k : K) (f g : V → V) :
    (m.modify k f).modify k g = m.modify k fun v => g (f v) := by
  apply AList.ext
  change List.filterMap _ (List.filterMap _ m.entries) = List.filterMap _ m.entries
  rw [List.filterMap_filterMap]
  refine List.filterMap_congr fun e _ => ?_
  by_cases hk : e.1 = k <;> simp [hk]

/-- Changes of two values, or of one value that commute. -/
theorem modify_comm (m : Table K V) {k k' : K} {f g : V → V} (h : k = k' → ∀ v, g (f v) = f (g v)) :
    (m.modify k f).modify k' g = (m.modify k' g).modify k f := by
  apply AList.ext
  change List.filterMap _ (List.filterMap _ m.entries) =
    List.filterMap _ (List.filterMap _ m.entries)
  rw [List.filterMap_filterMap, List.filterMap_filterMap]
  refine List.filterMap_congr fun e _ => ?_
  by_cases hkk : k = k'
  · by_cases hk : e.1 = k' <;> simp [hkk, hk, h hkk e.2]
  · by_cases hk : e.1 = k
    · simp [hk, hkk]
    · by_cases hk' : e.1 = k' <;> simp [hk, hk', Ne.symm hkk]

/-! ### Searching -/

theorem find_some {m : Table K V} {p : K → V → Bool} {k : K} {v : V} (h : m.find p = some (k, v)) :
    m.get k = some v ∧ p k v = true := by
  obtain ⟨e, he, heq⟩ := Option.map_eq_some_iff.mp h
  obtain ⟨rfl, rfl⟩ : e.1 = k ∧ e.2 = v := by simpa using heq
  have hp := List.find?_some he
  exact ⟨AList.mem_lookup_iff.mpr (List.mem_of_find?_eq_some he), hp⟩

theorem find_none_iff (m : Table K V) (p : K → V → Bool) :
    m.find p = none ↔ ∀ k v, m.get k = some v → p k v = false := by
  unfold find
  rw [Option.map_eq_none_iff, List.find?_eq_none]
  constructor
  · intro h k v hget
    have hmem := AList.mem_lookup_iff.mp hget
    simpa using h ⟨k, v⟩ hmem
  · intro h e he
    have hget : m.get e.1 = some e.2 := AList.mem_lookup_iff.mpr he
    simp [h e.1 e.2 hget]

theorem find_isSome_iff (m : Table K V) (p : K → V → Bool) :
    (m.find p).isSome = true ↔ ∃ k v, m.get k = some v ∧ p k v = true := by
  constructor
  · intro h
    obtain ⟨⟨k, v⟩, he⟩ := Option.isSome_iff_exists.mp h
    exact ⟨k, v, find_some he⟩
  · rintro ⟨k, v, hget, hp⟩
    by_contra hnone
    have hnone : m.find p = none := by simpa using hnone
    have hfalse := (find_none_iff m p).mp hnone k v hget
    rw [hp] at hfalse
    cases hfalse

/-! ### Weights of the updates -/

/-- The entry of a key, and the rest. -/
theorem entries_perm (m : Table K V) {k : K} {v : V} (h : m.get k = some v) :
    m.entries.Perm (⟨k, v⟩ :: (m.remove k).entries) := by
  have hmem : (⟨k, v⟩ : Sigma fun _ : K => V) ∈ m.entries :=
    (AList.mem_lookup_iff (s := m)).mp h
  have hkey : k ∈ m.entries.keys := List.mem_keys_of_mem hmem
  obtain ⟨w, l₁, l₂, hnot, hm, he⟩ := List.exists_of_kerase hkey
  have hw : w = v := by
    have hin : (⟨k, w⟩ : Sigma fun _ : K => V) ∈ m.entries := by rw [hm]; simp
    exact List.NodupKeys.eq_of_mk_mem m.nodupKeys hin hmem
  have hr : (m.remove k).entries = l₁ ++ l₂ := he
  rw [hr, hm, hw]
  exact List.perm_middle

theorem entries_set (m : Table K V) (k : K) (v : V) :
    (m.set k v).entries = ⟨k, v⟩ :: (m.remove k).entries :=
  AList.entries_insert

theorem total_set (f : V → ℕ) (m : Table K V) (k : K) (v : V) :
    (m.set k v).total f = f v + (m.remove k).total f := by
  unfold total
  rw [entries_set, List.map_cons, List.sum_cons]

/-- The weight is that of one entry and of the rest. -/
theorem total_split (f : V → ℕ) (m : Table K V) {k : K} {v : V} (h : m.get k = some v) :
    m.total f = f v + (m.remove k).total f := by
  have hperm := (m.entries_perm h).map fun e => f e.2
  exact hperm.sum_eq.trans List.sum_cons

theorem total_remove_le (f : V → ℕ) (m : Table K V) (k : K) : (m.remove k).total f ≤ m.total f := by
  cases h : m.get k with
  | none => rw [remove_of_none m h]
  | some v => rw [total_split f m h]; omega

omit [DecidableEq K] in
theorem total_filterMap_le (w : V → ℕ) {f : K → V → Option V}
    (hf : ∀ k v v', f k v = some v' → w v' ≤ w v) (m : Table K V) :
    (m.filterMap f).total w ≤ m.total w := by
  unfold total filterMap
  dsimp only
  generalize m.entries = l
  induction l with
  | nil => rfl
  | cons e l ih =>
    rw [List.filterMap_cons]
    cases he : f e.1 e.2 with
    | none =>
      rw [List.map_cons, List.sum_cons]
      exact le_trans ih (Nat.le_add_left _ _)
    | some v =>
      rw [List.map_cons, List.sum_cons]
      exact Nat.add_le_add (hf e.1 e.2 v he) ih

theorem size_set_new (m : Table K V) {k : K} (v : V) (h : m.get k = none) :
    (m.set k v).size = m.size + 1 := by
  rw [size_eq_total, size_eq_total, total_set, remove_of_none m h]; omega

theorem size_set_old (m : Table K V) {k : K} {w : V} (v : V) (h : m.get k = some w) :
    (m.set k v).size = m.size := by
  rw [size_eq_total, size_eq_total, total_set, total_split _ m h]

theorem size_remove_le (m : Table K V) (k : K) : (m.remove k).size ≤ m.size := by
  rw [size_eq_total, size_eq_total]; exact total_remove_le _ m k

theorem size_remove_of_some (m : Table K V) {k : K} {v : V} (h : m.get k = some v) :
    (m.remove k).size + 1 = m.size := by
  have hsplit := total_split (fun _ => 1) m h
  rw [← size_eq_total, ← size_eq_total] at hsplit
  omega

theorem size_set_le (m : Table K V) (k : K) (v : V) : (m.set k v).size ≤ m.size + 1 := by
  cases h : m.get k with
  | none => rw [size_set_new m v h]
  | some w =>
    rw [size_set_old m v h]
    omega

/-! ### Keys -/

theorem mem_keys_iff (m : Table K V) (k : K) : k ∈ m.keys ↔ ∃ v, m.get k = some v := by
  rw [← AList.mem_keys, ← AList.lookup_isSome, Option.isSome_iff_exists]
  rfl

/-- A table whose keys are among another's is no larger. -/
theorem size_le_of_keys {W : Type} {m : Table K V} {m' : Table K W}
    (h : ∀ k v, m.get k = some v → ∃ w, m'.get k = some w) : m.size ≤ m'.size := by
  have hsub : m.keys ⊆ m'.keys := by
    intro k hk
    obtain ⟨v, hv⟩ := (mem_keys_iff m k).mp hk
    exact (mem_keys_iff m' k).mpr (h k v hv)
  have hlen : m.keys.length ≤ m'.keys.length := (List.subperm_of_subset m.nodupKeys hsub).length_le
  have hkeys : ∀ {X : Type} (t : Table K X), t.keys.length = t.size := fun t => List.length_map _
  rw [← hkeys m, ← hkeys m']
  exact hlen

/-- The entries of weight one are the keys whose value passes the test. -/
theorem total_eq_length_filter (p : V → Bool) (m : Table K V) :
    m.total (fun v => if p v then 1 else 0) = (m.keys.filter fun k => (m.get k).any p).length := by
  have hget : ∀ e ∈ m.entries, m.get e.1 = some e.2 := fun e he => AList.mem_lookup_iff.mpr he
  have hkeys : m.keys = m.entries.map (·.1) := rfl
  rw [hkeys, List.filter_map, List.length_map]
  unfold total
  generalize m.entries = l at hget
  induction l with
  | nil => rfl
  | cons e l ih =>
    have he := hget e (by simp)
    have ih := ih fun e he => hget e (by simp [he])
    rw [List.map_cons, List.sum_cons, ih, List.filter_cons]
    cases hp : p e.2 with
    | false => simp [Function.comp, he, hp]
    | true => simp [Function.comp, he, hp]; omega

end Table
