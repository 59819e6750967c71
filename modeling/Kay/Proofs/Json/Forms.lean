import Kay.Program.Encoding
import Mathlib.Data.List.Forall2

/-!
# The JSON forms of a tree

Which JSON values a tree can be read from, said by recursion on the tree and without a reader. A
record is an object that holds every field, with whatever else it holds, or the array of its fields
in order; a value of a type with several forms is an object with one field, named for the form; a
form without content is its name, or that name with null.

Forms of records are given by their fields (`FieldForm`), each with the values that it may have. A
reader knows the names of the fields alone and looks at what it finds there. The two meet in
`isRecord_iff` and `isObject_iff`, where finding the values of the fields and having a form for each
of them is the same as being a record of that form.
-/

namespace Kay

namespace Json

/-! ## Records -/

/-- One field of a record: its name, the values that it may have, and whether an object may leave it
out. -/
structure FieldForm where
  name : String
  form : Json → Prop
  omissible : Bool

/-- A field that no object may leave out. -/
abbrev FieldForm.always (name : String) (form : Json → Prop) : FieldForm := ⟨name, form, false⟩

/-- Whether an object with the given fields has one of the field's values under its name, or leaves
the field out where it may. -/
def FieldForm.HeldIn (f : FieldForm) (fields : List (String × Json)) : Prop :=
  match fields.lookup f.name with
  | some v => f.form v
  | none => f.omissible = true

/-- Whether a value is an object that holds the given fields. What else it holds does not matter. -/
def IsObject (fs : List FieldForm) : Json → Prop
  | object fields => ∀ f ∈ fs, f.HeldIn fields
  | _ => False

/-- Whether a value is a record with the given fields: an object that holds them, or the array of
their values in order. -/
def IsRecord (fs : List FieldForm) : Json → Prop
  | array items => List.Forall₂ (fun f v ↦ f.form v) fs items
  | j => IsObject fs j

@[simp]
theorem FieldForm.heldIn_cons (f : FieldForm) (name : String) (v : Json)
    (fields : List (String × Json)) :
    f.HeldIn ((name, v) :: fields) ↔ if f.name = name then f.form v else f.HeldIn fields := by
  rw [HeldIn, HeldIn, List.lookup_cons]
  split_ifs with h
  · rw [beq_iff_eq.mpr h]
  · rw [beq_eq_false_iff_ne.mpr h]

@[simp]
theorem isObject_object {fs : List FieldForm} {fields : List (String × Json)} :
    IsObject fs (.object fields) ↔ ∀ f ∈ fs, f.HeldIn fields := Iff.rfl

@[simp]
theorem isRecord_object {fs : List FieldForm} {fields : List (String × Json)} :
    IsRecord fs (.object fields) ↔ ∀ f ∈ fs, f.HeldIn fields := Iff.rfl

/-- Whether a value is an array whose items have the given forms in order. -/
def IsArray (forms : List (Json → Prop)) : Json → Prop
  | array items => List.Forall₂ (fun form item ↦ form item) forms items
  | _ => False

@[simp]
theorem isArray_map {α : Type} {form : α → Json → Prop} {write : α → Json} {xs : List α} :
    IsArray (xs.map form) (.array (xs.map write)) ↔ ∀ x ∈ xs, form x (write x) := by
  rw [IsArray, List.forall₂_map_left_iff, List.forall₂_map_right_iff, List.forall₂_same]

/-! ## Variants -/

/-- Whether a value is the form of the given name, which has no content. -/
def IsUnit (name : String) (j : Json) : Prop := j = .string name ∨ j = .object [(name, .null)]

/-- Whether a value is the form of the given name, with such a content. -/
def IsVariant (name : String) (content : Json → Prop) (j : Json) : Prop :=
  ∃ c, j = .object [(name, c)] ∧ content c

/-! ## Null

Null is no record and no form with a content. -/

@[simp]
theorem not_isObject_null {fs : List FieldForm} : ¬ IsObject fs .null := id

@[simp]
theorem not_isRecord_null {fs : List FieldForm} : ¬ IsRecord fs .null := id

@[simp]
theorem not_isUnit_null {name : String} : ¬ IsUnit name .null := by simp [IsUnit]

@[simp]
theorem not_isVariant_null {name : String} {content : Json → Prop} :
    ¬ IsVariant name content .null := by
  simp [IsVariant]

/-! ## Records as they are read -/

/-- Whether a reader that knows a field by name treats it as the field does: a field that is left
out is read as null. -/
structure FieldForm.ReadAs (f : FieldForm) (n : FieldName) : Prop where
  name_eq : n.name = f.name
  omissible_iff : f.omissible = true ↔ n.optional = true ∧ f.form .null

theorem FieldForm.readAs_always (name : String) (form : Json → Prop) :
    (FieldForm.always name form).ReadAs (required name) :=
  ⟨rfl, by simp [required]⟩

private theorem FieldForm.ReadAs.heldIn_iff {f : FieldForm} {n : FieldName} (h : f.ReadAs n)
    (fields : List (String × Json)) :
    f.HeldIn fields ↔ ∃ v, field? fields n = some v ∧ f.form v := by
  rw [HeldIn, field?, h.name_eq]
  cases fields.lookup f.name with
  | some v => simp
  | none =>
    dsimp only
    rw [h.omissible_iff]
    split <;> simp_all

section

variable {fs : List FieldForm} {names : List FieldName} {j : Json}

/-- Reading the fields of an object one by one. -/
private theorem forall_heldIn_iff (h : List.Forall₂ FieldForm.ReadAs fs names)
    (fields : List (String × Json)) : (∀ f ∈ fs, f.HeldIn fields) ↔
      ∃ vs, names.mapM (field? fields) = some vs ∧ List.Forall₂ (fun f v ↦ f.form v) fs vs := by
  induction h with
  | nil => simp
  | @cons f n fs names hf _ ih =>
    rw [List.forall_mem_cons, hf.heldIn_iff, ih, List.mapM_cons]
    constructor
    · rintro ⟨⟨v, hv, hform⟩, vs, hvs, hforms⟩
      exact ⟨v :: vs, by simp [hv, hvs], .cons hform hforms⟩
    · rintro ⟨vs, hvs, hforms⟩
      obtain ⟨v, hv, hvs⟩ := Option.bind_eq_some_iff.mp hvs
      obtain ⟨ws, hws, hvs⟩ := Option.bind_eq_some_iff.mp hvs
      obtain rfl := Option.some.inj hvs
      obtain ⟨hform, hforms⟩ := List.forall₂_cons.mp hforms
      exact ⟨⟨v, hv, hform⟩, ws, hws, hforms⟩

theorem isObject_iff (h : List.Forall₂ FieldForm.ReadAs fs names) : IsObject fs j ↔
    ∃ vs, fields? names j = some vs ∧ List.Forall₂ (fun f v ↦ f.form v) fs vs := by
  cases j with
  | object fields => exact forall_heldIn_iff h fields
  | _ => simp [IsObject, fields?]

theorem isRecord_iff (h : List.Forall₂ FieldForm.ReadAs fs names) : IsRecord fs j ↔
    ∃ vs, record? names j = some vs ∧ List.Forall₂ (fun f v ↦ f.form v) fs vs := by
  cases j with
  | array items =>
    rw [IsRecord, record?]
    constructor
    · intro hforms
      exact ⟨items, if_pos (hforms.length_eq.symm.trans h.length_eq), hforms⟩
    · rintro ⟨vs, hvs, hforms⟩
      split at hvs
      · exact Option.some.inj hvs ▸ hforms
      · exact absurd hvs (by simp)
  | object fields => exact isObject_iff (j := .object fields) h
  | _ => simp [IsRecord, IsObject, record?, fields?]

/-- Names of fields that no object may leave out are read as such fields. -/
theorem forall₂_readAs (h : ∀ f ∈ fs, f.omissible = false) :
    List.Forall₂ FieldForm.ReadAs fs (fs.map fun f ↦ required f.name) := by
  rw [List.forall₂_map_right_iff, List.forall₂_same]
  rintro ⟨name, form, omissible⟩ hf
  obtain rfl : omissible = false := h _ hf
  exact FieldForm.readAs_always name form

end

/-- Reading the items of an array one by one. -/
theorem mapM_eq_some_iff_isArray {α : Type} {read : Json → Option α} {form : α → Json → Prop}
    {xs : List α} (h : ∀ x ∈ xs, ∀ j, read j = some x ↔ form x j) {items : List Json} :
    items.mapM read = some xs ↔ IsArray (xs.map form) (.array items) := by
  rw [IsArray]
  induction xs generalizing items with
  | nil => cases items <;> simp [Option.bind_eq_some_iff]
  | cons x xs ih =>
    obtain ⟨hx, hxs⟩ := List.forall_mem_cons.mp h
    cases items with
    | nil => simp
    | cons item items =>
      rw [List.map_cons, List.forall₂_cons, ← hx, ← ih hxs]
      simp [Option.bind_eq_some_iff]

/-! ## Variants as they are read -/

theorem isUnit_iff {name : String} {j : Json} :
    IsUnit name j ↔ j.variant? = some (name, .null) := by
  rw [IsUnit, variant?.eq_def]
  split <;> simp_all

/-- A form with a content that is not null is never the bare name. -/
theorem isVariant_iff {name : String} {content : Json → Prop} {j : Json} (hnull : ¬ content .null) :
    IsVariant name content j ↔ ∃ c, j.variant? = some (name, c) ∧ content c := by
  rw [IsVariant, variant?.eq_def]
  split
  · simp only [reduceCtorEq, false_and, exists_false, Option.some.injEq, Prod.mk.injEq, false_iff,
      not_exists]
    rintro c ⟨⟨-, rfl⟩, hc⟩
    exact hnull hc
  · simp
  · simp_all

/-- A reader takes the forms of a value that it finds under one name alone, and there by their
content. -/
theorem read_iff_isVariant {α : Type} {read : Json → Option α} {x : α} {name : String}
    {content : Json → Prop} (hnull : ¬ content .null)
    (hname : ∀ j, read j = some x → ∃ c, j.variant? = some (name, c))
    (hcontent : ∀ j c, j.variant? = some (name, c) → (read j = some x ↔ content c)) (j : Json) :
    read j = some x ↔ IsVariant name content j := by
  rw [isVariant_iff hnull]
  constructor
  · intro h
    obtain ⟨c, hc⟩ := hname j h
    exact ⟨c, hc, (hcontent j c hc).mp h⟩
  · rintro ⟨c, hc, h⟩
    exact (hcontent j c hc).mpr h

end Json

end Kay
