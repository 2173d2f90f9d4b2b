/-
# JSON records

How the values of a type are written as JSON and read back, a record field by
field: each field has a name, what is written for a value (perhaps nothing) and
what is read for what stands there (perhaps nothing). A codec carries the law
that what it writes it reads back, so a record has the law as soon as the names
of its fields differ (`JsonRecord.codec`), and so has a table of records told
apart by a tag as soon as the tags differ (`readTagged_of_same`).

The law of a record says more: only the fields of its names count, in whatever
order they stand (`Json.optField_perm`), and a field may be missing where
nothing is read as the value that it has (`JsonRecord.Optional`).

Key definitions: `JsonCodec`, `JsonField`, `JsonRecord`, `JsonVariant`, `readTagged`, `Json.sorted`.
-/
import Sona.Lib.Json

variable {α β : Type}

namespace Json

theorem optField_obj (name : String) (fields : List (String × Json)) : optField name (obj fields) =
    match fields.filter fun f => f.1 = name with
    | [] => some none
    | [f] => some (some f.2)
    | _ => none :=
  rfl

/-- Fields of other names do not count. -/
theorem optField_skip {name : String} {fs : List (String × Json)} (h : ∀ f ∈ fs, f.1 ≠ name)
    (gs : List (String × Json)) : optField name (obj (fs ++ gs)) = optField name (obj gs) := by
  have hnone : (fs.filter fun f => f.1 = name) = [] := by
    rw [List.filter_eq_nil_iff]
    intro f hf
    simpa using h f hf
  rw [optField_obj, optField_obj, List.filter_append, hnone, List.nil_append]

theorem optField_drop {name : String} (fs : List (String × Json)) {gs : List (String × Json)}
    (h : ∀ g ∈ gs, g.1 ≠ name) : optField name (obj (fs ++ gs)) = optField name (obj fs) := by
  have hnone : (gs.filter fun g => g.1 = name) = [] := by
    rw [List.filter_eq_nil_iff]
    intro g hg
    simpa using h g hg
  rw [optField_obj, optField_obj, List.filter_append, hnone, List.append_nil]

/-- The order of the fields does not count. -/
theorem optField_perm {name : String} {fs gs : List (String × Json)} (h : fs.Perm gs) :
    optField name (obj fs) = optField name (obj gs) := by
  have hfilter := h.filter fun f => f.1 = name
  rw [optField_obj, optField_obj]
  generalize (fs.filter fun f => f.1 = name) = l at hfilter ⊢
  generalize (gs.filter fun f => f.1 = name) = l' at hfilter ⊢
  match l, l', hfilter with
  | [], l', hfilter => rw [List.nil_perm.mp hfilter]
  | [f], l', hfilter => rw [List.singleton_perm.mp hfilter]
  | f :: f' :: l, [], hfilter => exact absurd hfilter.length_eq (by simp)
  | f :: f' :: l, [g], hfilter => exact absurd hfilter.length_eq (by simp)
  | f :: f' :: l, g :: g' :: l', _ => rfl

/-- Of some of the fields a name has what it had among all, or its field is one
that was left out. -/
theorem optField_sublist {fs gs : List (String × Json)} (h : fs.Sublist gs)
    (hnodup : (gs.map Prod.fst).Nodup) (name : String) :
    optField name (obj fs) = optField name (obj gs) ∨
      optField name (obj fs) = some none ∧ ∃ f ∈ gs, f ∉ fs ∧ f.1 = name := by
  have hfilter := h.filter fun f => f.1 = name
  have hone : ((gs.filter fun f => f.1 = name).map Prod.fst).Nodup :=
    hnodup.sublist (List.filter_sublist.map _)
  have hname : ∀ f ∈ gs.filter (fun f => f.1 = name), f.1 = name :=
    fun f hf => by simpa using (List.mem_filter.mp hf).2
  rw [optField_obj, optField_obj]
  match hgs : gs.filter (fun f => f.1 = name), hfs : fs.filter (fun f => f.1 = name) with
  | [], l =>
    rw [hgs, hfs] at hfilter
    obtain rfl := List.sublist_nil.mp hfilter
    rw [hgs, hfs]
    exact Or.inl rfl
  | [f], [] =>
    have hf : f ∈ gs.filter (fun f => f.1 = name) := hgs ▸ List.mem_singleton_self f
    rw [hfs]
    refine Or.inr ⟨rfl, f, (List.mem_filter.mp hf).1, fun hmem => ?_, hname f hf⟩
    have hmem' : f ∈ fs.filter (fun f => f.1 = name) :=
      List.mem_filter.mpr ⟨hmem, by simp [hname f hf]⟩
    rw [hfs] at hmem'
    exact absurd hmem' List.not_mem_nil
  | [f], f' :: l =>
    rw [hgs, hfs] at hfilter
    have hlen := hfilter.length_le
    obtain rfl : l = [] := List.eq_nil_of_length_eq_zero (by simpa using hlen)
    obtain rfl := List.mem_singleton.mp (hfilter.subset (List.mem_singleton_self f'))
    rw [hgs, hfs]
    exact Or.inl rfl
  | f :: f' :: l, _ =>
    rw [hgs] at hone hname
    have heq : f.1 = f'.1 := (hname f (by simp)).trans (hname f' (by simp)).symm
    simp [heq] at hone

theorem readAll_map_of {read : Json → Option α} {write : α → Json} : ∀ {as : List α},
    (∀ a ∈ as, read (write a) = some a) → readAll read (as.map write) = some as
  | [], _ => rfl
  | a :: as, h => by
    have hrest := readAll_map_of fun b hb => h b (List.mem_cons_of_mem a hb)
    rw [List.map_cons, readAll, h a List.mem_cons_self, hrest]
    rfl

/-! ### Maps -/

mutual

/-- A value whose objects are maps: the fields stand by their names. -/
def sorted : Json → Json
  | arr items => arr (sortedItems items)
  | obj fields => obj ((sortedFields fields).mergeSort fun f g => f.1 ≤ g.1)
  | null => null
  | bool b => bool b
  | num n => num n
  | str s => str s

def sortedItems : List Json → List Json
  | [] => []
  | j :: js => sorted j :: sortedItems js

def sortedFields : List (String × Json) → List (String × Json)
  | [] => []
  | (name, j) :: fields => (name, sorted j) :: sortedFields fields

end

theorem sortedFields_eq_map :
    ∀ fields : List (String × Json), sortedFields fields = fields.map fun f => (f.1, f.2.sorted)
  | [] => by simp [sortedFields]
  | (name, j) :: fields => by simp [sortedFields, sortedFields_eq_map fields]

/-- A field of a map. -/
theorem optField_sorted (name : String) (fields : List (String × Json)) :
    (obj fields).sorted.optField name = ((obj fields).optField name).map fun o => o.map sorted := by
  have hperm := List.mergeSort_perm (fields.map fun f => (f.1, f.2.sorted)) fun f g => f.1 ≤ g.1
  have hfilter : (fields.map fun f => (f.1, f.2.sorted)).filter (fun f => f.1 = name) =
      (fields.filter fun f => f.1 = name).map fun f => (f.1, f.2.sorted) := by
    rw [List.filter_map]
    rfl
  rw [sorted, sortedFields_eq_map, optField_perm hperm, optField_obj, optField_obj, hfilter]
  generalize (fields.filter fun f => f.1 = name) = l
  match l with
  | [] => rfl
  | [f] => rfl
  | f :: g :: l => rfl

/-- A map of plain values has the fields of the object. -/
theorem optField_sorted_of_leaves {fields : List (String × Json)}
    (h : ∀ f ∈ fields, f.2.sorted = f.2) (name : String) :
    (obj fields).sorted.optField name = (obj fields).optField name := by
  have hleaves : sortedFields fields = fields := by
    rw [sortedFields_eq_map]
    exact (List.map_congr_left fun f hf => by rw [h f hf]).trans (List.map_id' fields)
  rw [sorted, hleaves]
  exact optField_perm (List.mergeSort_perm fields _)

end Json

/-! ### Values -/

/-- How a type is written and read. `ok` are the values that the JSON of the type can hold. -/
structure JsonCodec (α : Type) where
  write : α → Json
  read : Json → Option α
  ok : α → Prop
  read_write : ∀ a, ok a → read (write a) = some a

namespace JsonCodec

def str : JsonCodec String where
  write := .str
  read := Json.asStr
  ok _ := True
  read_write _ _ := rfl

def bool : JsonCodec Bool where
  write := .bool
  read := Json.asBool
  ok _ := True
  read_write _ _ := rfl

/-- A number of an unsigned type. -/
def uint (max : ℕ) : JsonCodec ℕ where
  write := .num
  read j := j.asNat.filter (· ≤ max)
  ok n := n ≤ max
  read_write n h := by simp [h]

/-- Texts that stand for values. -/
def text (write : α → String) (read : String → Option α) (h : ∀ a, read (write a) = some a) :
    JsonCodec α where
  write a := .str (write a)
  read j := j.asStr.bind read
  ok _ := True
  read_write a _ := h a

def list (c : JsonCodec α) : JsonCodec (List α) where
  write as := .arr (as.map c.write)
  read j := j.asArr.bind (Json.readAll c.read)
  ok as := ∀ a ∈ as, c.ok a
  read_write _ h := Json.readAll_map_of fun a ha => c.read_write a (h a ha)

/-- A value or `null`; the codec of the value writes no `null` of its own. -/
def option (c : JsonCodec α) (solid : ∀ a, c.write a ≠ .null) : JsonCodec (Option α) where
  write
    | none => .null
    | some a => c.write a
  read
    | .null => some none
    | j => (c.read j).map some
  ok o := ∀ a ∈ o, c.ok a
  read_write o h := by
    cases o with
    | none => rfl
    | some a =>
      have hread := c.read_write a (h a rfl)
      have hsolid := solid a
      cases hw : c.write a with
      | null => exact absurd hw hsolid
      | _ => simpa [hw] using hread

/-- Another type with the same values. -/
def map (c : JsonCodec α) (make : α → β) (parts : β → α) (h : ∀ b, make (parts b) = b) :
    JsonCodec β where
  write b := c.write (parts b)
  read j := (c.read j).map make
  ok b := c.ok (parts b)
  read_write b hb := by simp [c.read_write _ hb, h]

end JsonCodec

/-! ### Fields -/

/-- A field of a record: for a value it may be left out, and it may be missing where it is read. -/
structure JsonField (α : Type) where
  name : String
  write : α → Option Json
  read : Option Json → Option α
  ok : α → Prop
  read_write : ∀ a, ok a → read (write a) = some a

namespace JsonField

/-- A field that must be there. -/
def required (name : String) (c : JsonCodec α) : JsonField α where
  name
  write a := some (c.write a)
  read o := o.bind c.read
  ok := c.ok
  read_write a h := c.read_write a h

/-- A field that is written always and may be missing. -/
def defaulted (name : String) (c : JsonCodec α) (d : α) : JsonField α where
  name
  write a := some (c.write a)
  read
    | none => some d
    | some j => c.read j
  ok := c.ok
  read_write a h := c.read_write a h

/-- A field that is left out for its default. -/
def skipped [DecidableEq α] (name : String) (c : JsonCodec α) (d : α) : JsonField α where
  name
  write a := if a = d then none else some (c.write a)
  read
    | none => some d
    | some j => c.read j
  ok := c.ok
  read_write a h := by
    by_cases hd : a = d
    · simp [hd]
    · simp [hd, c.read_write a h]

end JsonField

/-! ### Records -/

/-- The fields of a record. What is read depends on the fields of these names only, of which the
optional ones may be missing. -/
structure JsonRecord (α : Type) where
  names : List String
  write : α → List (String × Json)
  read : Json → Option α
  ok : α → Prop
  Optional : α → String → Prop
  written : ∀ a, ((write a).map Prod.fst).Sublist names
  optional_mem : ∀ a n, Optional a n → n ∈ names
  read_of : names.Nodup → ∀ a, ok a →
    ∀ j, (∀ n ∈ names, j.optField n = (Json.obj (write a)).optField n ∨
    Optional a n ∧ j.optField n = some none) → read j = some a

namespace JsonRecord

theorem name_mem (r : JsonRecord α) {a : α} {f : String × Json} (hf : f ∈ r.write a) :
    f.1 ∈ r.names :=
  (r.written a).subset (List.mem_map_of_mem hf)

def nil : JsonRecord Unit where
  names := []
  write _ := []
  read _ := some ()
  ok _ := True
  Optional _ _ := False
  written _ := List.Sublist.refl _
  optional_mem _ _ h := h.elim
  read_of _ _ _ _ _ := rfl

def cons (f : JsonField α) (r : JsonRecord β) : JsonRecord (α × β) where
  names := f.name :: r.names
  write p := ((f.write p.1).map fun j => (f.name, j)).toList ++ r.write p.2
  read j := do
    let a ← f.read (← j.optField f.name)
    let b ← r.read j
    some (a, b)
  ok p := f.ok p.1 ∧ r.ok p.2
  Optional p n := n = f.name ∧ f.read none = some p.1 ∨ r.Optional p.2 n
  written p := by
    cases f.write p.1 with
    | none => exact (r.written p.2).trans (List.sublist_cons_self _ _)
    | some j => exact (r.written p.2).cons_cons f.name
  optional_mem p n h := by
    rcases h with ⟨rfl, -⟩ | h
    · exact List.mem_cons_self
    · exact List.mem_cons_of_mem _ (r.optional_mem p.2 n h)
  read_of hnames p hp j hj := by
    obtain ⟨hfresh, hrest⟩ := List.nodup_cons.mp hnames
    have hother : ∀ g ∈ r.write p.2, g.1 ≠ f.name := fun g hg heq => hfresh (heq ▸ r.name_mem hg)
    have hfield : (Json.obj (((f.write p.1).map fun j => (f.name, j)).toList ++ r.write p.2)).optField f.name =
        some (f.write p.1) := by
      rw [Json.optField_drop _ hother, Json.optField_obj]
      cases f.write p.1 <;> simp
    have hread : r.read j = some p.2 := by
      refine r.read_of hrest p.2 hp.2 j fun n hn => ?_
      have hne : n ≠ f.name := fun heq => hfresh (heq ▸ hn)
      have hskip : (Json.obj (((f.write p.1).map fun j => (f.name, j)).toList ++ r.write p.2)).optField n =
          (Json.obj (r.write p.2)).optField n := by
        refine Json.optField_skip (fun g hg heq => hne ?_) _
        simp only [Option.mem_toList, Option.map_eq_some_iff] at hg
        obtain ⟨_, -, rfl⟩ := hg
        exact heq.symm
      rcases hj n (List.mem_cons_of_mem _ hn) with hsame | ⟨⟨heq, -⟩ | hopt, hmissing⟩
      · exact Or.inl (hsame.trans hskip)
      · exact absurd heq hne
      · exact Or.inr ⟨hopt, hmissing⟩
    have hvalue : ∃ o, j.optField f.name = some o ∧ f.read o = some p.1 := by
      rcases hj f.name List.mem_cons_self with hsame | ⟨⟨-, hnone⟩ | hopt, hmissing⟩
      · exact ⟨f.write p.1, hsame.trans hfield, f.read_write p.1 hp.1⟩
      · exact ⟨none, hmissing, hnone⟩
      · exact absurd (r.optional_mem p.2 _ hopt) hfresh
    obtain ⟨o, ho, hvalue⟩ := hvalue
    simp only [ho, hvalue, hread, Option.bind_eq_bind, Option.bind_some]

/-- A record as an object. -/
def codec (r : JsonRecord α) (hnames : r.names.Nodup) : JsonCodec α where
  write a := .obj (r.write a)
  read := r.read
  ok := r.ok
  read_write a h := r.read_of hnames a h _ fun _ _ => Or.inl rfl

end JsonRecord

/-! ### Tagged records -/

/-- A shape of a type: its tag, its fields, and the value they make. -/
structure JsonVariant (τ : Type) where
  tag : String
  {Fields : Type}
  record : JsonRecord Fields
  make : Fields → τ

section tagged

variable {τ : Type} (key : String)

def JsonVariant.write (v : JsonVariant τ) (a : v.Fields) : Json :=
  .obj ((key, .str v.tag) :: v.record.write a)

/-- The first shape that has the tag reads the fields. -/
def readTagged (vs : List (JsonVariant τ)) (j : Json) : Option τ :=
  match (j.field key).bind Json.asStr with
  | none => none
  | some tag =>
    match vs.find? fun v => v.tag = tag with
    | none => none
    | some v => (v.record.read j).map v.make

/-- No two shapes have one tag, and no shape has two fields of one name or one
of the name of the tag. -/
structure TagsDiffer (vs : List (JsonVariant τ)) : Prop where
  tags : (vs.map (·.tag)).Nodup
  names : ∀ v ∈ vs, (key :: v.record.names).Nodup

variable {key} {vs : List (JsonVariant τ)}

theorem find_tag {v : JsonVariant τ} :
    ∀ {vs : List (JsonVariant τ)}, (vs.map (·.tag)).Nodup → v ∈ vs →
    vs.find? (fun w => w.tag = v.tag) = some v
  | w :: vs, hnodup, hv => by
    obtain ⟨hfresh, hrest⟩ := List.nodup_cons.mp hnodup
    rcases List.mem_cons.mp hv with rfl | hv
    · simp
    · have hne : w.tag ≠ v.tag := fun heq => hfresh (List.mem_map.mpr ⟨v, hv, heq.symm⟩)
      rw [List.find?_cons_of_neg (by simpa using hne), find_tag hrest hv]

/-- Another object that says the same: the tag, and the fields but for some
that nothing is read as well for. -/
structure JsonVariant.Same (key : String) (v : JsonVariant τ) (a : v.Fields) (j : Json) : Prop where
  tag : j.field key = some (.str v.tag)
  fields : ∀ n ∈ v.record.names, j.optField n = (Json.obj (v.record.write a)).optField n ∨
    v.record.Optional a n ∧ j.optField n = some none

/-- **A tagged record is read from whatever says the same.** -/
theorem readTagged_of_same (h : TagsDiffer key vs) {v : JsonVariant τ} (hv : v ∈ vs) {a : v.Fields}
    (ha : v.record.ok a) {j : Json} (hj : v.Same key a j) :
    readTagged key vs j = some (v.make a) := by
  have hnames := (List.nodup_cons.mp (h.names v hv)).2
  have hread := v.record.read_of hnames a ha j hj.fields
  unfold readTagged
  simp [hj.tag, find_tag h.tags hv, hread]

/-- The fields may be shuffled, others may be added, and optional ones may be left out. -/
theorem JsonVariant.same_of_perm {v : JsonVariant τ} (hnames : (key :: v.record.names).Nodup)
    {a : v.Fields} {kept added fields : List (String × Json)}
    (hkept : kept.Sublist (v.record.write a))
    (hmissing : ∀ f ∈ v.record.write a, f ∉ kept → v.record.Optional a f.1)
    (hadded : ∀ f ∈ added, f.1 ∉ key :: v.record.names)
    (hperm : fields.Perm ((key, .str v.tag) :: (kept ++ added))) : v.Same key a (.obj fields) := by
  obtain ⟨hkey, hnames⟩ := List.nodup_cons.mp hnames
  have hadd : ∀ n ∈ key :: v.record.names, ∀ f ∈ added, f.1 ≠ n :=
    fun n hn f hf heq => hadded f hf (heq ▸ hn)
  have hcons : (key, Json.str v.tag) :: (kept ++ added) =
      [(key, Json.str v.tag)] ++ (kept ++ added) := rfl
  constructor
  · have hother : ∀ f ∈ kept ++ added, f.1 ≠ key := by
      intro f hf heq
      rcases List.mem_append.mp hf with hf | hf
      · exact hkey (heq ▸ v.record.name_mem (hkept.subset hf))
      · exact hadd key List.mem_cons_self f hf heq
    unfold Json.field
    rw [Json.optField_perm hperm, hcons, Json.optField_drop _ hother]
    simp [Json.optField_obj]
  · intro n hn
    have hne : ∀ f ∈ [(key, Json.str v.tag)], f.1 ≠ n := by
      simp only [List.mem_singleton]
      rintro f rfl rfl
      exact hkey hn
    rw [Json.optField_perm hperm, hcons, Json.optField_skip hne,
      Json.optField_drop _ (hadd n (List.mem_cons_of_mem key hn))]
    rcases Json.optField_sublist hkept (hnames.sublist (v.record.written a)) n with hsame
      | ⟨hnone, f, hf, hout, rfl⟩
    · exact Or.inl hsame
    · exact Or.inr ⟨hmissing f hf hout, hnone⟩

/-- A tagged record is read back. -/
theorem readTagged_write (h : TagsDiffer key vs) {v : JsonVariant τ} (hv : v ∈ vs) {a : v.Fields}
    (ha : v.record.ok a) :
    readTagged key vs (v.write key a) = some (v.make a) := by
  have hsame : v.Same key a (v.write key a) := by
    refine JsonVariant.same_of_perm (h.names v hv) (List.Sublist.refl _)
      (fun f hf hout => absurd hf hout)
      (fun f (hf : f ∈ ([] : List (String × Json))) => absurd hf List.not_mem_nil) ?_
    rw [List.append_nil]
  exact readTagged_of_same h hv ha hsame

end tagged
