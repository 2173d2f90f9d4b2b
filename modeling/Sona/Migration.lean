/-
# Requests of an older vault

In an older vault a pending request stands under the name that the requester
claimed. When the vault is opened, each such row goes to the key of the requester, with the
name carried in the request (`migrate_requests_to_key_addressing`). A key
that is taken is not given away: then the row stays where it is, and can be
accepted there. The rows are visited in the order of a hash map, so the order is a
parameter here, a permutation of the names of these rows.

What was done to a row stays (`migrateIn_keeps`), so each row is decided by what its
turn finds (`migrateIn_turn`). Where no two of these rows have one key, and none is
named like the key of another, every turn finds what the first one would
(`migrateIn_get_iff`), and the order does not matter. The name is what tells a row that was visited
from one that was not; a row under the empty name is visited by every run
(`empty_name_moves_late`).

Key definitions: `legacyRow`, `legacyNames`, `tagged`, `migrateIn`, `untagged`.
Key theorems: `migrateIn_keeps`, `migrateIn_turn`, `migrateIn_perm`, `migrateIn_get_iff`,
`migration_keeps_requests`.
-/
import Sona.Requests

namespace Sona

open History (migrateRequest)

/-- A pending row of an older vault: no claimed name, and under no key. -/
def legacyRow (name : String) (pin : ContactPin) : Bool :=
  (pin.request.any fun r => r.claimed = "") && name ≠ pin.identityKey && pin.identityKey ≠ ""

def legacyNames (contacts : Table String ContactPin) : List String :=
  (contacts.entries.filter fun e => legacyRow e.1 e.2).map (·.1)

/-- The row with the name it stood under. -/
def tagged (name : String) (pin : ContactPin) : ContactPin :=
  { pin with request := pin.request.map fun r => { r with claimed := name } }

/-- The rows under the names are visited in this order. -/
def migrateIn (order : List String) (contacts : Table String ContactPin) :
    Table String ContactPin :=
  order.foldl migrateRequest contacts

/-- The row but for the name in its request. -/
def untagged (pin : ContactPin) : ContactPin := tagged "" pin

theorem migrate_eq (h : History) :
    h.migrateRequestsToKeyAddressing =
      { h with contacts := migrateIn (legacyNames h.contacts) h.contacts } := rfl

theorem mem_legacyNames {contacts : Table String ContactPin} {name : String} :
    name ∈ legacyNames contacts ↔ ∃ pin, contacts.get name = some pin ∧
    legacyRow name pin = true := by
  unfold legacyNames
  rw [List.mem_map]
  constructor
  · rintro ⟨e, he, rfl⟩
    obtain ⟨hmem, hrow⟩ := List.mem_filter.mp he
    exact ⟨e.2, AList.mem_lookup_iff.mpr hmem, hrow⟩
  · rintro ⟨pin, hget, hrow⟩
    exact ⟨⟨name, pin⟩, List.mem_filter.mpr ⟨AList.mem_lookup_iff.mp hget, hrow⟩, rfl⟩

theorem legacyNames_nodup (contacts : Table String ContactPin) : (legacyNames contacts).Nodup :=
  List.Nodup.sublist (List.filter_sublist.map _) contacts.nodupKeys

theorem legacyRow_iff {name : String} {pin : ContactPin} : legacyRow name pin = true ↔
    (∃ r, pin.request = some r ∧ r.claimed = "") ∧ name ≠ pin.identityKey ∧
    pin.identityKey ≠ "" := by
  unfold legacyRow
  rw [Bool.and_eq_true, Bool.and_eq_true, decide_eq_true_eq, decide_eq_true_eq, and_assoc]
  refine and_congr_left fun _ => ?_
  cases pin.request <;> simp

/-! ### One row -/

section one

variable {contacts : Table String ContactPin} {name : String} {pin : ContactPin}

theorem migrateRequest_of_some (hget : contacts.get name = some pin) :
    migrateRequest contacts name =
    if ((contacts.remove name).get pin.identityKey).isSome then (contacts.remove name).set name (tagged name pin)
    else (contacts.remove name).set pin.identityKey (tagged name pin) := by
  unfold migrateRequest
  rw [hget]
  rfl

theorem migrateRequest_of_none (hget : contacts.get name = none) :
    migrateRequest contacts name = contacts := by
  unfold migrateRequest
  rw [hget]

/-- The row goes to its key, or stays as the key is taken. -/
theorem get_migrateRequest (hget : contacts.get name = some pin) (hne : pin.identityKey ≠ name)
    (k : String) :
    (migrateRequest contacts name).get k =
      if k = (if (contacts.get pin.identityKey).isSome then name else pin.identityKey) then some (tagged name pin)
      else if k = name then none else contacts.get k := by
  have hrest : (contacts.remove name).get pin.identityKey = contacts.get pin.identityKey :=
    Table.get_remove_ne _ hne
  rw [migrateRequest_of_some hget, hrest]
  by_cases htaken : (contacts.get pin.identityKey).isSome = true
  · rw [if_pos htaken, if_pos htaken, Table.get_set, Table.get_remove]
  · rw [if_neg htaken, if_neg htaken, Table.get_set, Table.get_remove]

/-- Another row stays. -/
theorem migrateRequest_keeps {k : String} {v : ContactPin} (hk : k ≠ name)
    (hv : contacts.get k = some v) :
    (migrateRequest contacts name).get k = some v := by
  cases hget : contacts.get name with
  | none => rw [migrateRequest_of_none hget, hv]
  | some pin =>
    have hrest : (contacts.remove name).get k = some v := (Table.get_remove_ne _ hk).trans hv
    rw [migrateRequest_of_some hget]
    split
    · rw [Table.get_set_ne _ _ hk, hrest]
    · rename_i hfree
      have hother : k ≠ pin.identityKey := by
        rintro rfl
        exact hfree (by rw [hrest]; rfl)
      rw [Table.get_set_ne _ _ hother, hrest]

/-- The rows are the same but for a name. -/
theorem migrateRequest_perm (contacts : Table String ContactPin) (name : String) :
    ((migrateRequest contacts name).entries.map fun e => untagged e.2).Perm
      (contacts.entries.map fun e => untagged e.2) := by
  cases hget : contacts.get name with
  | none => rw [migrateRequest_of_none hget]
  | some pin =>
    have htag : untagged (tagged name pin) = untagged pin := by
      unfold untagged tagged
      simp [Option.map_map, Function.comp_def]
    have hsplit := (contacts.entries_perm hget).map fun e => untagged e.2
    have hset : ∀ k, (contacts.remove name).get k = none →
        (((contacts.remove name).set k (tagged name pin)).entries.map fun e => untagged e.2) =
          untagged pin :: (contacts.remove name).entries.map fun e => untagged e.2 := by
      intro k hk
      rw [Table.entries_set, Table.remove_of_none _ hk, List.map_cons, htag]
    rw [migrateRequest_of_some hget]
    split
    · rw [hset name (Table.get_remove_self _ _)]
      exact hsplit.symm
    · rename_i hfree
      rw [hset _ (Option.not_isSome_iff_eq_none.mp hfree)]
      exact hsplit.symm

end one

/-! ### The rows in an order -/

section order

variable {contacts : Table String ContactPin} {order : List String}

theorem migrateIn_append (pre post : List String) (contacts : Table String ContactPin) :
    migrateIn (pre ++ post) contacts = migrateIn post (migrateIn pre contacts) :=
  List.foldl_append ..

/-- **A row that is not visited stays.** -/
theorem migrateIn_keeps {k : String} {v : ContactPin} :
    ∀ (order : List String) {contacts : Table String ContactPin},
    k ∉ order → contacts.get k = some v → (migrateIn order contacts).get k = some v
  | [], _, _, hv => hv
  | name :: order, contacts, hk, hv => by
    have hstep := migrateRequest_keeps (List.ne_of_not_mem_cons hk) hv
    exact migrateIn_keeps order (List.not_mem_of_not_mem_cons hk) hstep

/-- **The rows are the same but for the names**, in every order. -/
theorem migrateIn_perm : ∀ (order : List String) (contacts : Table String ContactPin),
    ((migrateIn order contacts).entries.map fun e => untagged e.2).Perm (contacts.entries.map fun e => untagged e.2)
  | [], _ => List.Perm.refl _
  | name :: order, contacts => (migrateIn_perm order _).trans (migrateRequest_perm contacts name)

/-- The order visits the rows of the older vault, each once. -/
structure Visits (order : List String) (contacts : Table String ContactPin) : Prop where
  nodup : order.Nodup
  mem : ∀ name, name ∈ order ↔ name ∈ legacyNames contacts

theorem Visits.of_perm (h : order.Perm (legacyNames contacts)) : Visits order contacts :=
  ⟨h.nodup_iff.mpr (legacyNames_nodup contacts), fun _ => h.mem_iff⟩

/-- **What a turn finds decides about its row**, whatever comes later. -/
theorem migrateIn_turn (h : Visits order contacts) {pre post : List String} {name : String}
    (horder : order = pre ++ name :: post) {pin : ContactPin}
    (hpin : contacts.get name = some pin) :
    (migrateIn order contacts).get
      (if ((migrateIn pre contacts).get pin.identityKey).isSome then name else pin.identityKey) =
        some (tagged name pin) := by
  have hnodup := h.nodup
  rw [horder] at hnodup
  have hpost : ∀ {n}, n ∈ post → n ∉ pre := fun hn hpre =>
    (List.nodup_append.mp hnodup).2.2 _ hpre _ (List.mem_cons_of_mem name hn) rfl
  have hname : name ∉ pre := fun hpre =>
    (List.nodup_append.mp hnodup).2.2 _ hpre _ List.mem_cons_self rfl
  have hlegacy : ∀ {n}, n ∈ order → ∃ p, contacts.get n = some p ∧ legacyRow n p = true := fun hn =>
    mem_legacyNames.mp ((h.mem _).mp hn)
  obtain ⟨p, hp, hrow⟩ := hlegacy (show name ∈ order by rw [horder]; simp)
  cases hp.symm.trans hpin
  have hturn := get_migrateRequest (migrateIn_keeps pre hname hpin) (legacyRow_iff.mp hrow).2.1.symm
  rw [horder, migrateIn_append]
  refine migrateIn_keeps post ?_ ((hturn _).trans (if_pos rfl))
  -- the rows that are visited later still stand under their names
  split
  · exact (List.nodup_cons.mp (List.nodup_append.mp hnodup).2.1).1
  · rename_i hfree
    intro hin
    obtain ⟨q, hq, -⟩ := hlegacy (show pin.identityKey ∈ order by rw [horder]; simp [hin])
    exact hfree (by rw [migrateIn_keeps pre (hpost hin) hq]; rfl)

/-- A row after a run was there before, or was visited. -/
theorem migrateIn_rows : ∀ (pre : List String), pre.Nodup →
    (∀ n ∈ pre, ∃ p, contacts.get n = some p ∧ legacyRow n p = true) →
    ∀ {k : String} {v : ContactPin},
    (migrateIn pre contacts).get k = some v → (k ∉ pre ∧ contacts.get k = some v) ∨
      ∃ name ∈ pre, ∃ pin, contacts.get name = some pin ∧ v = tagged name pin ∧
      (k = name ∨ k = pin.identityKey) := by
  intro pre
  induction pre using List.reverseRecOn with
  | nil => exact fun _ _ _ _ hv => .inl ⟨List.not_mem_nil, hv⟩
  | append_singleton pre name ih =>
    intro hnodup hlegacy k v hv
    obtain ⟨hnodup, -, hout⟩ := List.nodup_append.mp hnodup
    have hname : name ∉ pre := fun hpre => hout name hpre name List.mem_cons_self rfl
    obtain ⟨pin, hpin, hrow⟩ := hlegacy name (List.mem_append_right _ List.mem_cons_self)
    have hkept := migrateIn_keeps pre hname hpin
    have hstep : migrateIn (pre ++ [name]) contacts =
        migrateRequest (migrateIn pre contacts) name :=
      migrateIn_append pre [name] contacts
    rw [hstep, get_migrateRequest hkept (legacyRow_iff.mp hrow).2.1.symm] at hv
    by_cases hk : k = if ((migrateIn pre contacts).get pin.identityKey).isSome then name else pin.identityKey
    · rw [if_pos hk] at hv
      refine .inr ⟨name, List.mem_append_right _ List.mem_cons_self, pin, hpin,
        (Option.some.inj hv).symm, ?_⟩
      split at hk
      · exact .inl hk
      · exact .inr hk
    · rw [if_neg hk] at hv
      by_cases hkn : k = name
      · rw [if_pos hkn] at hv
        cases hv
      · rw [if_neg hkn] at hv
        rcases ih hnodup (fun n hn => hlegacy n (List.mem_append_left _ hn)) hv with ⟨hout, hv⟩
          | ⟨n, hn, hrest⟩
        · exact .inl ⟨by simp [hout, hkn], hv⟩
        · exact .inr ⟨n, List.mem_append_left _ hn, hrest⟩

/-- A visited row has a claimed name, unless its name was empty. -/
theorem legacyNames_migrateIn (h : Visits order contacts) (hempty : "" ∉ order) :
    legacyNames (migrateIn order contacts) = [] := by
  refine List.eq_nil_iff_forall_not_mem.mpr fun k hk => ?_
  obtain ⟨v, hv, hrow⟩ := mem_legacyNames.mp hk
  have hlegacy : ∀ n ∈ order, ∃ p, contacts.get n = some p ∧ legacyRow n p = true := fun n hn =>
    mem_legacyNames.mp ((h.mem n).mp hn)
  rcases migrateIn_rows order h.nodup hlegacy hv with ⟨hout, hv⟩ | ⟨name, hname, pin, -, rfl, -⟩
  · exact hout ((h.mem k).mpr (mem_legacyNames.mpr ⟨v, hv, hrow⟩))
  · obtain ⟨⟨r, hr, hclaimed⟩, -⟩ := legacyRow_iff.mp hrow
    obtain ⟨r', -, rfl⟩ := Option.map_eq_some_iff.mp hr
    exact hempty (hclaimed ▸ hname)

/-- A row under the name it carries can be accepted. -/
theorem acceptRequest_tagged {h : History} {C : Crypto} {now : ℕ} {name : String} {pin : ContactPin}
    (hget : h.contacts.get name = some (tagged name pin)) (hpending : pin.request.isSome) :
    (h.acceptRequest C now name).1 = true := by
  obtain ⟨r, hr⟩ := Option.isSome_iff_exists.mp hpending
  have hrequest : (tagged name pin).request = some { r with claimed := name } := by
    unfold tagged
    rw [hr]
    rfl
  have hname : History.acceptedName { r with claimed := name } name = name := by
    unfold History.acceptedName
    split <;> rfl
  unfold History.acceptRequest History.promote
  rw [hget]
  dsimp only
  rw [hrequest]
  dsimp only
  rw [hname, if_neg fun h => h.1 rfl]

/-- Where the rows of the older vault have keys of their own, and none is named
like the key of another. -/
structure Unentangled (order : List String) (contacts : Table String ContactPin) : Prop where
  keys : ∀ n ∈ order, ∀ n' ∈ order, ∀ p p', contacts.get n = some p → contacts.get n' = some p' →
    p.identityKey = p'.identityKey → n = n'
  names : ∀ n ∈ order, ∀ n', n' ≠ n → ∀ p', contacts.get n' = some p' → p'.identityKey ≠ n

/-- **Then every turn finds what the first one would.** -/
theorem migrateIn_get_iff (hvisits : Visits order contacts) (hfree : Unentangled order contacts)
    {k : String} {v : ContactPin} :
    (migrateIn order contacts).get k = some v ↔ (k ∉ order ∧ contacts.get k = some v) ∨
      ∃ name ∈ order, ∃ pin, contacts.get name = some pin ∧ v = tagged name pin ∧
        k = if (contacts.get pin.identityKey).isSome then name else pin.identityKey := by
  have hlegacy : ∀ {n}, n ∈ order → ∃ p, contacts.get n = some p ∧ legacyRow n p = true := fun hn =>
    mem_legacyNames.mp ((hvisits.mem _).mp hn)
  have hnodup := hvisits.nodup
  -- the rows in front of an end of the order, of which the whole order is one
  suffices hpre : ∀ pre, pre.Nodup → (∀ n ∈ pre, n ∈ order) →
      ∀ k v, (migrateIn pre contacts).get k = some v ↔
      (k ∉ pre ∧ contacts.get k = some v) ∨
      ∃ name ∈ pre, ∃ pin, contacts.get name = some pin ∧ v = tagged name pin ∧
        k = if (contacts.get pin.identityKey).isSome then name else pin.identityKey from
    hpre order hnodup (fun _ hn => hn) k v
  clear k v hnodup
  intro pre
  induction pre using List.reverseRecOn with
  | nil => simp [migrateIn]
  | append_singleton pre name ih =>
    intro hnodup hsub k v
    obtain ⟨hnodup, -, hout⟩ := List.nodup_append.mp hnodup
    have hname : name ∉ pre := fun hpre => hout name hpre name List.mem_cons_self rfl
    have hin : name ∈ order := hsub name (List.mem_append_right _ List.mem_cons_self)
    have hbefore : ∀ n ∈ pre, n ∈ order := fun n hn => hsub n (List.mem_append_left _ hn)
    obtain ⟨pin, hpin, hrow⟩ := hlegacy hin
    have hne := (legacyRow_iff.mp hrow).2.1
    have hkept := migrateIn_keeps pre hname hpin
    have hkeyOut : pin.identityKey ∉ order := fun h => hfree.names _ h name hne pin hpin rfl
    -- no row in front of it has to do with its name or its key
    have hapart : ∀ n ∈ pre, ∀ p, contacts.get n = some p → (n ≠ name ∧ n ≠ pin.identityKey) ∧
        p.identityKey ≠ name ∧ p.identityKey ≠ pin.identityKey := by
      intro n hn p hp
      have hother : n ≠ name := fun h => hname (h ▸ hn)
      exact ⟨⟨hother, fun h => hkeyOut (h ▸ hbefore n hn)⟩, hfree.names name hin n hother p hp,
        fun h => hother (hfree.keys n (hbefore n hn) name hin p pin hp hpin h)⟩
    have hplace : ∀ n ∈ pre, ∀ p, contacts.get n = some p →
        (if (contacts.get p.identityKey).isSome then n else p.identityKey) ≠ name ∧
          (if (contacts.get p.identityKey).isSome then n else p.identityKey) ≠ pin.identityKey := by
      intro n hn p hp
      obtain ⟨⟨hn1, hn2⟩, hp1, hp2⟩ := hapart n hn p hp
      split
      · exact ⟨hn1, hn2⟩
      · exact ⟨hp1, hp2⟩
    have ih := ih hnodup hbefore
    have hkey : (migrateIn pre contacts).get pin.identityKey = contacts.get pin.identityKey := by
      ext w
      rw [ih]
      constructor
      · rintro (⟨-, hw⟩ | ⟨n, hn, p, hp, -, hk⟩)
        · exact hw
        · exact absurd hk.symm (hplace n hn p hp).2
      · exact fun hw => .inl ⟨fun h => hkeyOut (hbefore _ h), hw⟩
    have hstep : migrateIn (pre ++ [name]) contacts =
        migrateRequest (migrateIn pre contacts) name :=
      migrateIn_append pre [name] contacts
    rw [hstep, get_migrateRequest hkept hne.symm, hkey]
    have hlast : (∃ n ∈ pre ++ [name], ∃ p, contacts.get n = some p ∧ v = tagged n p ∧
          k = if (contacts.get p.identityKey).isSome then n else p.identityKey) ↔
        (∃ n ∈ pre, ∃ p, contacts.get n = some p ∧ v = tagged n p ∧
          k = if (contacts.get p.identityKey).isSome then n else p.identityKey) ∨
        v = tagged name pin ∧ k = if (contacts.get pin.identityKey).isSome then name else pin.identityKey := by
      simp [or_and_right, exists_or, hpin]
    rw [hlast]
    by_cases hk : k = if (contacts.get pin.identityKey).isSome then name else pin.identityKey
    · rw [if_pos hk]
      constructor
      · intro h
        exact .inr (.inr ⟨(Option.some.inj h).symm, hk⟩)
      · rintro (⟨hout, hv⟩ | ⟨n, hn, p, hp, -, hk'⟩ | ⟨rfl, -⟩)
        · rw [hk] at hout hv
          split at hv
          · rename_i htaken
            rw [if_pos htaken] at hout
            exact absurd (List.mem_append_right pre List.mem_cons_self) hout
          · rename_i hvacant
            exact absurd (by rw [hv]; rfl) hvacant
        · rw [hk] at hk'
          have hapart := hplace n hn p hp
          split at hk'
          · exact absurd hk'.symm hapart.1
          · exact absurd hk'.symm hapart.2
        · rfl
    · rw [if_neg hk]
      by_cases hkn : k = name
      · rw [if_pos hkn]
        refine iff_of_false (fun h => by cases h) ?_
        rintro (⟨hout, -⟩ | ⟨n, hn, p, hp, -, hk'⟩ | ⟨-, hk'⟩)
        · exact hout (by rw [hkn]; exact List.mem_append_right pre List.mem_cons_self)
        · exact (hplace n hn p hp).1 (hk'.symm.trans hkn)
        · exact hk hk'
      · rw [if_neg hkn, ih]
        have hout : k ∉ pre ++ [name] ↔ k ∉ pre := by simp [hkn]
        rw [hout, or_iff_left (fun h : v = tagged name pin ∧ _ => hk h.2)]

end order

/-! ### The migration -/

/-- **Opening an older vault loses no request.** In every order the rows are the same but for names,
and the accepted ones stay where they are. A legacy row whose key is free at its turn stands under
its key with its old name as the claimed one; another one is left under its name, and can be
accepted there. Where no legacy row has the empty name, another run changes nothing; where the rows
have keys of their own and none is named like another's key, the order does not matter. -/
theorem migration_keeps_requests (h : History) {order : List String}
    (horder : order.Perm (legacyNames h.contacts)) :
    h.migrateRequestsToKeyAddressing =
      { h with contacts := migrateIn (legacyNames h.contacts) h.contacts } ∧
    ((migrateIn order h.contacts).entries.map fun e => untagged e.2).Perm
      (h.contacts.entries.map fun e => untagged e.2) ∧
    (∀ k pin, h.contacts.get k = some pin → pin.request = none →
      (migrateIn order h.contacts).get k = some pin) ∧
    (∀ pre name post pin, order = pre ++ name :: post → h.contacts.get name = some pin →
      ((migrateIn pre h.contacts).get pin.identityKey = none →
        (migrateIn order h.contacts).get pin.identityKey = some (tagged name pin)) ∧
      ((migrateIn pre h.contacts).get pin.identityKey ≠ none →
        (migrateIn order h.contacts).get name = some (tagged name pin) ∧
        ∀ C now (h' : History), h'.contacts = migrateIn order h.contacts →
        (h'.acceptRequest C now name).1 = true) ∧
      (h.contacts.get pin.identityKey = none →
        (∀ n ∈ order, ∀ p, h.contacts.get n = some p → p.identityKey = pin.identityKey → n = name) →
        (migrateIn order h.contacts).get pin.identityKey = some (tagged name pin))) ∧
    ("" ∉ order → ∀ order', order'.Perm (legacyNames (migrateIn order h.contacts)) →
      migrateIn order' (migrateIn order h.contacts) = migrateIn order h.contacts) ∧
    (Unentangled order h.contacts → ∀ order', order'.Perm (legacyNames h.contacts) → ∀ k,
      (migrateIn order' h.contacts).get k = (migrateIn order h.contacts).get k) := by
  have hvisits := Visits.of_perm horder
  have hlegacy : ∀ n ∈ order, ∃ p, h.contacts.get n = some p ∧ legacyRow n p = true := fun n hn =>
    mem_legacyNames.mp ((hvisits.mem n).mp hn)
  refine ⟨migrate_eq h, migrateIn_perm order h.contacts, fun k pin hget haccepted => ?_,
    fun pre name post pin hsplit hpin => ?_, fun hempty order' horder' => ?_,
    fun hfree order' horder' k => ?_⟩
  · refine migrateIn_keeps order (fun hk => ?_) hget
    obtain ⟨p, hp, hrow⟩ := hlegacy k hk
    cases hp.symm.trans hget
    obtain ⟨⟨r, hr, -⟩, -⟩ := legacyRow_iff.mp hrow
    rw [haccepted] at hr
    cases hr
  · have hturn := migrateIn_turn hvisits hsplit hpin
    have hmoved : (migrateIn pre h.contacts).get pin.identityKey = none →
        (migrateIn order h.contacts).get pin.identityKey = some (tagged name pin) := by
      intro hvacant
      rwa [hvacant, if_neg (by simp)] at hturn
    refine ⟨hmoved, fun htaken => ?_, fun hvacant hown => hmoved ?_⟩
    · rw [if_pos (Option.isSome_iff_ne_none.mpr htaken)] at hturn
      obtain ⟨p, hp, hrow⟩ := hlegacy name (by rw [hsplit]; simp)
      cases hp.symm.trans hpin
      obtain ⟨⟨r, hr, -⟩, -⟩ := legacyRow_iff.mp hrow
      exact ⟨hturn, fun C now h' hcontacts => acceptRequest_tagged (by rw [hcontacts]; exact hturn) (by rw [hr]; rfl)⟩
    · -- nobody else moves to the key
      have hnodup := hvisits.nodup
      rw [hsplit] at hnodup
      obtain ⟨hpre, -, hout⟩ := List.nodup_append.mp hnodup
      refine Option.eq_none_iff_forall_ne_some.mpr fun v hv => ?_
      have hin : ∀ n ∈ pre, n ∈ order := fun n hn => by rw [hsplit]; exact List.mem_append_left _ hn
      rcases migrateIn_rows pre hpre (fun n hn => hlegacy n (hin n hn)) hv with ⟨-, hv⟩
        | ⟨n, hn, p, hp, -, hk | hk⟩
      · rw [hvacant] at hv
        cases hv
      · rw [hk, hp] at hvacant
        cases hvacant
      · exact hout n hn name List.mem_cons_self (hown n (hin n hn) p hp hk.symm)
  · rw [legacyNames_migrateIn hvisits hempty] at horder'
    rw [List.perm_nil.mp horder']
    rfl
  · have hvisits' := Visits.of_perm horder'
    have hsame : ∀ n, n ∈ order' ↔ n ∈ order := fun n => (hvisits'.mem n).trans (hvisits.mem n).symm
    have hfree' : Unentangled order' h.contacts :=
      ⟨fun n hn n' hn' => hfree.keys n ((hsame n).mp hn) n' ((hsame n').mp hn'),
        fun n hn => hfree.names n ((hsame n).mp hn)⟩
    ext v
    rw [migrateIn_get_iff hvisits' hfree', migrateIn_get_iff hvisits hfree]
    simp only [hsame]

/-- Two requests of an older vault, one of them under the empty name. -/
def emptyNameVault : History :=
  { contacts := ((∅ : Table String ContactPin).set "key-a" { identityKey := "key-b", request := some {} }).set ""
      { identityKey := "key-a", request := some {} } }

theorem migration_keeps_requests_vault :
    ((migrateIn (legacyNames emptyNameVault.contacts) emptyNameVault.contacts).entries.map fun e => untagged e.2).Perm
      (emptyNameVault.contacts.entries.map fun e => untagged e.2) :=
  (migration_keeps_requests emptyNameVault (List.Perm.refl _)).2.1

/-- **A row under the empty name moves late**: at the first run its key is
taken, at the second one it is free. -/
theorem empty_name_moves_late :
    emptyNameVault.migrateRequestsToKeyAddressing.migrateRequestsToKeyAddressing ≠
    emptyNameVault.migrateRequestsToKeyAddressing := by
  have hfirst : emptyNameVault.migrateRequestsToKeyAddressing.contacts.get "key-a" = none := by
    decide +kernel
  have hsecond :
      (emptyNameVault.migrateRequestsToKeyAddressing.migrateRequestsToKeyAddressing.contacts.get
      "key-a").isSome = true := by decide +kernel
  intro h
  rw [h, hfirst] at hsecond
  cases hsecond

end Sona
