/-!
# JSON values

Values as data, apart from how they are spelled. An integer is a number written without fraction
and exponent. Any other number is kept by its spelling, since nothing here calculates with it.

The fields of an object are kept in order. Whoever reads an object from text keeps one field for
each name.
-/

namespace Kay

/-- A JSON value. -/
inductive Json where
  | null
  | boolean (b : Bool)
  | integer (n : Int)
  /-- A number that is written with a fraction or an exponent. -/
  | decimal (spelling : String)
  | string (s : String)
  | array (items : List Json)
  | object (fields : List (String × Json))
deriving Repr, Inhabited

namespace Json

/-- Whether a value is null. -/
def isNull : Json → Bool
  | null => true
  | _ => false

/-! ## Records

A record is written as an object that has a field for each name, whatever else it has, or as the
array of the values of all fields in order. -/

/-- The name of a field, and whether it may be missing from an object, where it counts as null. -/
structure FieldName where
  name : String
  optional : Bool := false
deriving DecidableEq, Repr

/-- The value of one field of an object. -/
def field? (fields : List (String × Json)) (f : FieldName) : Option Json :=
  match fields.lookup f.name with
  | some v => some v
  | none => if f.optional then some .null else none

/-- The values of the named fields, in the order of the names. -/
def fields? (names : List FieldName) : Json → Option (List Json)
  | .object fields => names.mapM (field? fields)
  | _ => none

/-- The values of the named fields of a record in either of its two forms. -/
def record? (names : List FieldName) : Json → Option (List Json)
  | .array items => if items.length = names.length then some items else none
  | j => fields? names j

/-! ## Variants

A value of a type with several forms is written as an object whose one field is named for the form
and holds its content. A form without content holds null, or is written as its name alone. -/

/-- The name of the form that a value is written in, and its content. -/
def variant? : Json → Option (String × Json)
  | .string name => some (name, .null)
  | .object [(name, content)] => some (name, content)
  | _ => none

/-! ## Contents are smaller -/

theorem sizeOf_null_lt_object (fields : List (String × Json)) :
    sizeOf Json.null < sizeOf (Json.object fields) := by
  have : 0 < sizeOf fields := by
    cases fields with
    | nil => simp
    | cons f fs => simp only [List.cons.sizeOf_spec]; omega
  simp only [Json.null.sizeOf_spec, Json.object.sizeOf_spec]
  omega

theorem sizeOf_lookup_lt {fields : List (String × Json)} {name : String} {v : Json}
    (h : fields.lookup name = some v) : sizeOf v < sizeOf fields := by
  induction fields with
  | nil => simp at h
  | cons f fields ih =>
    obtain ⟨key, w⟩ := f
    simp only [List.lookup_cons] at h
    simp only [List.cons.sizeOf_spec, Prod.mk.sizeOf_spec]
    split at h
    · simp only [Option.some.injEq] at h
      subst h
      omega
    · have := ih h
      omega

theorem sizeOf_field?_lt {fields : List (String × Json)} {f : FieldName} {v : Json}
    (h : field? fields f = some v) : sizeOf v < sizeOf (Json.object fields) := by
  unfold field? at h
  split at h
  · next w hw =>
    simp only [Option.some.injEq] at h
    subst h
    have := sizeOf_lookup_lt hw
    simp only [Json.object.sizeOf_spec]
    omega
  · split at h
    · simp only [Option.some.injEq] at h
      subst h
      exact sizeOf_null_lt_object fields
    · simp at h

theorem sizeOf_mem_fields?_lt {names : List FieldName} {j v : Json} {vs : List Json}
    (h : fields? names j = some vs) (hv : v ∈ vs) : sizeOf v < sizeOf j := by
  unfold fields? at h
  split at h
  · next fields =>
    induction names generalizing vs with
    | nil => simp at h; simp [h] at hv
    | cons n names ih =>
      rw [List.mapM_cons] at h
      obtain ⟨w, hw, h⟩ := Option.bind_eq_some_iff.1 h
      obtain ⟨ws, hws, h⟩ := Option.bind_eq_some_iff.1 h
      simp only [pure, Option.some.injEq] at h
      subst h
      rcases List.mem_cons.1 hv with rfl | hv
      · exact sizeOf_field?_lt hw
      · exact ih hv hws
  · simp at h

theorem sizeOf_mem_record?_lt {names : List FieldName} {j v : Json} {vs : List Json}
    (h : record? names j = some vs) (hv : v ∈ vs) : sizeOf v < sizeOf j := by
  unfold record? at h
  split at h
  · next items =>
    split at h
    · simp only [Option.some.injEq] at h
      subst h
      have := List.sizeOf_lt_of_mem hv
      simp only [Json.array.sizeOf_spec]
      omega
    · simp at h
  · exact sizeOf_mem_fields?_lt h hv

theorem sizeOf_variant?_lt {j content : Json} {name : String}
    (h : j.variant? = some (name, content)) : sizeOf content < sizeOf j := by
  unfold variant? at h
  split at h
  · next s =>
    simp only [Option.some.injEq, Prod.mk.injEq] at h
    obtain ⟨rfl, rfl⟩ := h
    have : 0 < sizeOf s := by rcases s with ⟨_, _⟩; rw [String.ofByteArray.sizeOf_spec]; omega
    simp only [Json.null.sizeOf_spec, Json.string.sizeOf_spec]
    omega
  · simp only [Option.some.injEq, Prod.mk.injEq] at h
    obtain ⟨rfl, rfl⟩ := h
    simp only [Json.object.sizeOf_spec, List.cons.sizeOf_spec, Prod.mk.sizeOf_spec]
    omega
  · simp at h

end Json

end Kay
