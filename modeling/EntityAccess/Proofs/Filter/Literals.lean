import EntityAccess.Proofs.Filter.Keys
import EntityAccess.Proofs.Number
import EntityAccess.Proofs.Patch.Effects

/-!
# Literals of filters and patches

What a literal becomes when it is bound to a type, it stays.  It comes to a field
in two ways: a patch writes it into the slot of the field, and a filter compares
the field with it.  Both bind it to the type of the field, so one accepts it when
the other does, and a record that was patched with a literal passes the filter on
this literal.  Only NaN is not equal to itself.
-/

namespace EntityAccess

namespace Filter

open List (Forall₂)

variable {type : ScalarType} {op other : Operator} {literal operand result : Value}
  {literals operands items : List Value}

theorem not_bound_list : ¬Bound type (.list items) operand := by
  rintro (_ | ⟨_, coerced⟩)
  rw [type.coerce_eq_error_of_unbound (.inr ⟨items, rfl⟩)] at coerced
  cases coerced

/-- What a literal becomes is bound as it is. -/
theorem Bound.again (bound : Bound type literal operand) : Bound type operand operand := by
  cases bound with
  | null => exact .null
  | value _ coerced =>
      exact bound_of_coerce (ScalarType.coerce_of_kind (ScalarType.kind_of_coerce coerced))

theorem Bound.null_iff (bound : Bound type literal operand) :
    operand = .null ↔ literal = .null := by
  cases bound with
  | null => rfl
  | value present coerced => simp [present, ScalarType.ne_null_of_coerce coerced]

theorem rightUnique_bound : Relator.RightUnique (Bound type) := by
  rintro literal first second (_ | ⟨present, coerced⟩) (_ | ⟨presentToo, coercedToo⟩)
  · rfl
  · exact absurd rfl presentToo
  · exact absurd rfl present
  · exact Except.ok.inj (coerced.symm.trans coercedToo)

/-- A literal that can be bound is the operand of every operator but membership. -/
theorem Bound.operand_iff (bound : Bound type literal operand) :
    Operand type op literal result ↔ op ≠ .isIn ∧ result = operand := by
  constructor
  · rintro (⟨single, boundToo⟩ | _)
    · exact ⟨single, rightUnique_bound boundToo bound⟩
    · exact absurd bound not_bound_list
  · rintro ⟨single, rfl⟩
    exact .single single bound

/-- A list of such literals is the operand of membership alone. -/
theorem operand_list_iff (bound : Forall₂ (Bound type) literals operands) :
    Operand type op (.list literals) result ↔ op = .isIn ∧ result = .list operands := by
  constructor
  · rintro (⟨_, single⟩ | boundToo)
    · exact absurd single not_bound_list
    · exact ⟨rfl, congrArg Value.list (rightUnique_bound.forall₂ boundToo bound)⟩
  · rintro ⟨rfl, rfl⟩
    exact .set bound

theorem forall₂_bound_again (bound : Forall₂ (Bound type) literals operands) :
    Forall₂ (Bound type) operands operands := by
  induction bound with
  | nil => exact .nil
  | cons first _ ih => exact .cons first.again ih

/-- Every operator makes the same of a literal and of what some operator made of it. -/
theorem Operand.operand_iff (bound : Operand type other literal operand) :
    Operand type op operand result ↔ Operand type op literal result := by
  cases bound with
  | single _ bound => exact bound.again.operand_iff.trans bound.operand_iff.symm
  | set bound =>
      exact (operand_list_iff (forall₂_bound_again bound)).trans (operand_list_iff bound).symm

theorem Operand.null_iff (bound : Operand type other literal operand) :
    operand = .null ↔ literal = .null := by
  cases bound with
  | single _ bound => exact bound.null_iff
  | set bound => simp

variable {catalog : Catalog} {shape : Shape} {source : String} {path : Path}
  {predicate : Predicate}

/-- A comparison with a literal is one with what the literal is bound to. -/
theorem compile_operand_iff
    (resolved : catalog.resolve shape source = .ok path) (typed : path.scalar? = some type)
    (bound : Operand type other literal operand) :
    compile catalog shape (.compare source op operand) = .ok predicate ↔
      compile catalog shape (.compare source op literal) = .ok predicate := by
  simp only [compile_path_eq_ok_iff resolved typed, operatorFault?_eq_none_iff, bound.null_iff,
    bound.operand_iff]

end Filter

/--
Coercion is a projection onto the values of a type.  What it gives is of the
kind of the type, is coerced to itself and read as it is from a slot of the type
that it is written to.  Null and lists are refused by every type.  A comparison
is accepted with a literal when it is with the coerced form, which for a list is
that of each element, and becomes the same predicate.
-/
theorem ScalarType.coerce_projects :
    (∀ (type : ScalarType) (literal bound : Value), type.coerce literal = .ok bound →
        bound.kind = type.valueKind ∧ type.coerce bound = .ok bound ∧
          ∀ nullable, Slot.assign? ⟨SlotType.ofScalar type, nullable⟩ bound = some bound) ∧
      (∀ (type : ScalarType) (literal : Value),
        (literal = .null ∨ ∃ items, literal = .list items) →
          type.coerce literal = .error (.mismatch type literal.kind)) ∧
      (∀ catalog shape source path type, Catalog.resolve catalog shape source = .ok path →
        path.scalar? = some type → ∀ op predicate,
          (∀ literal bound, type.coerce literal = .ok bound →
            (Filter.compile catalog shape (.compare source op bound) = .ok predicate ↔
              Filter.compile catalog shape (.compare source op literal) = .ok predicate)) ∧
          ∀ literals bounds, List.Forall₂ (Filter.Bound type) literals bounds →
            (Filter.compile catalog shape (.compare source op (.list bounds)) = .ok predicate ↔
              Filter.compile catalog shape (.compare source op (.list literals)) =
                .ok predicate)) ∧
      ∀ catalog shape source op literal predicate,
        Filter.compile catalog shape (.compare source op literal) = .ok predicate →
          ∃ path type operand, catalog.resolve shape source = .ok path ∧
            path.scalar? = some type ∧ Filter.Operand type op literal operand ∧
            predicate = .compare ⟨path, op, operand⟩ ∧
            Filter.compile catalog shape (.compare source op operand) = .ok predicate := by
  refine ⟨?coerced, fun type literal => type.coerce_eq_error_of_unbound, ?literals, ?accepted⟩
  case coerced =>
    intro type literal bound coerced
    have fits := kind_of_coerce coerced
    exact ⟨fits, coerce_of_kind fits, Slot.holds_of_kind fits⟩
  case literals =>
    intro catalog shape source path type resolved typed op predicate
    constructor
    · intro literal bound coerced
      have operand : Filter.Operand type .equals literal bound :=
        .single nofun (Filter.bound_of_coerce coerced)
      exact Filter.compile_operand_iff resolved typed operand
    · intro literals bounds bound
      exact Filter.compile_operand_iff resolved typed (.set bound)
  case accepted =>
    intro catalog shape source op literal predicate accepted
    obtain ⟨_, comparison, compiled, rfl⟩ := Filter.compileAt_compare_eq_ok_iff.1 accepted
    obtain ⟨path, type, operand, resolved, typed, _, bound, rfl⟩ :=
      Filter.compileComparison_eq_ok_iff.1 compiled
    exact ⟨path, type, operand, resolved, typed, bound, rfl,
      (Filter.compile_operand_iff resolved typed bound).2 accepted⟩

/--
A text becomes a boolean, while NaN and the negative zero stay as they are.  The
age of a person is looked for among null and a whole double as among null and
its integer, and an activity that is written out is that boolean.
-/
theorem ScalarType.coerce_projects_samples :
    let compiled := fun source op literal =>
      Filter.compile Sample.catalog Sample.personShape (.compare source op literal)
    let ages := Value.list [.null, .float ⟨0x4008000000000000⟩]
    (bool.coerce (.text "TRUE") = .ok (.bool true) ∧ bool.coerce (.bool true) = .ok (.bool true) ∧
      Slot.assign? ⟨.bool, true⟩ (.bool true) = some (.bool true)) ∧
    (∀ x ∈ [Binary64.nan, Binary64.negativeZero], float.coerce (.float x) = .ok (.float x) ∧
      Slot.assign? ⟨.float, false⟩ (.float x) = some (.float x)) ∧
    (dateTime.coerce .null = .error (.mismatch .dateTime .null) ∧
      uuid.coerce (.list []) = .error (.mismatch .uuid .list)) ∧
    (∃ predicate, compiled "active" .equals (.text "TRUE") = .ok predicate ∧
      compiled "active" .equals (.bool true) = .ok predicate) ∧
    ∃ predicate, compiled "age" .isIn ages = .ok predicate ∧
      compiled "age" .isIn (.list [.null, .int 3]) = .ok predicate ∧
      ∃ path operand, predicate = .compare ⟨path, .isIn, operand⟩ ∧
        compiled "age" .isIn operand = .ok predicate := by
  obtain ⟨coerced, unbound, literals, accepted⟩ := coerce_projects
  have written : bool.coerce (.text "TRUE") = .ok (.bool true) := rfl
  have three : int.coerce (.float ⟨0x4008000000000000⟩) = .ok (.int 3) := rfl
  have active := literals Sample.catalog Sample.personShape "active" _ .bool rfl rfl .equals
  have age := literals Sample.catalog Sample.personShape "age" _ .int rfl rfl .isIn
  have bound : List.Forall₂ (Filter.Bound .int) [.null, .float ⟨0x4008000000000000⟩]
      [.null, .int 3] := .cons .null (.cons (Filter.bound_of_coerce three) .nil)
  refine ⟨⟨written, ?_, ?_⟩, ?_, ⟨?_, ?_⟩, ⟨_, ?_, rfl⟩, _, ?_, rfl, ?_⟩
  · exact (coerced _ _ _ written).2.1
  · exact (coerced _ _ _ written).2.2 true
  · intro x _
    exact (coerced .float (.float x) (.float x) rfl).2.imp_right fun assigned => assigned false
  · exact unbound _ _ (.inl rfl)
  · exact unbound _ _ (.inr ⟨[], rfl⟩)
  · exact ((active _).1 _ _ written).1 rfl
  · exact ((age _).2 _ _ bound).1 rfl
  · obtain ⟨path, _, operand, _, _, _, same, again⟩ := accepted Sample.catalog
      Sample.personShape "age" .isIn _ _ (((age _).2 _ _ bound).1 rfl)
    exact ⟨path, operand, same, again⟩

/-! ## Patches and filters -/

namespace ScalarType

/-- Binding a literal neither makes nor hides a NaN. -/
theorem Converts.isNaN_eq
    {type : ScalarType} {literal bound : Value} (converts : Converts type literal bound) :
    bound.isNaN = literal.isNaN := by
  cases converts with
  | keep fits => rfl
  | narrow whole => exact (Binary64.isNaN_of_isFinite (Binary64.isFinite_of_toInt64? whole)).symm
  | widen n => exact Binary64.isNaN_of_isFinite (Binary64.isFinite_ofInt64 n)
  | parseBool | parseUuid | parseInstant => rfl

end ScalarType

/-- A value of a type is level with itself unless it is NaN. -/
theorem Value.compare?_self_iff
    {type : ScalarType} {value : Value} (fits : value.kind = type.valueKind) :
    value.compare? value = some .eq ↔ value.isNaN = false := by
  constructor
  · intro level
    cases value with
    | float x =>
        cases number : x.isNaN with
        | false => exact number
        | true => simp [compare?, Binary64.compare?, number] at level
    | null | bool | int | text | list | uuid | dateTime => rfl
  · intro number
    have ranks := ScalarType.ranks_of_kind fits number
    have present := ScalarType.ne_null_of_kind fits
    obtain ⟨order, compares⟩ := ScalarType.exists_compare?_of_ranks ranks ranks present present
    have round := compare?_swap value value
    rw [compares] at round ⊢
    cases order with
    | eq => rfl
    | lt | gt => cases round

namespace Operator

theorem equalTo_self_iff
    {type : ScalarType} {value : Value} (fits : value.kind = type.valueKind) :
    equalTo value value = true ↔ value.isNaN = false := by
  rw [equalTo, Value.isNull_eq_false_iff.2 (ScalarType.ne_null_of_kind fits), Bool.not_false,
    Bool.true_and, beq_iff_eq]
  exact Value.compare?_self_iff fits

variable {type : ScalarType} {literal bound : Value}

/-- A bound literal equals itself unless the literal is NaN. -/
theorem accepts_equals_bound_iff (coerced : type.coerce literal = .ok bound) :
    equals.accepts bound bound = true ↔ literal.isNaN = false := by
  rw [accepts_equals (ScalarType.ne_null_of_coerce coerced),
    equalTo_self_iff (ScalarType.kind_of_coerce coerced),
    (ScalarType.coerce_eq_ok_iff.1 coerced).isNaN_eq]

/-- So it is in the set of itself alone. -/
theorem accepts_isIn_bound_iff (coerced : type.coerce literal = .ok bound) :
    isIn.accepts (.list [bound]) bound = true ↔ literal.isNaN = false := by
  have present := ScalarType.ne_null_of_coerce coerced
  rw [accepts_isIn (List.forall_mem_singleton.2 present), List.any_cons, List.any_nil,
    Bool.or_false, ← accepts_equals present]
  exact accepts_equals_bound_iff coerced

end Operator

namespace Field

variable {field : Field} {type : ScalarType}

theorem exists_scalar_of_isMutable (mutable : field.isMutable = true) :
    ∃ type, field.kind = .scalar type :=
  (isMutable_iff.1 mutable).2.2

/-- A literal that is present is bound to a field as it is bound to the type. -/
theorem coerce_of_present
    (scalar : field.kind = .scalar type) {literal : Value} (present : literal ≠ .null) :
    field.coerce literal = type.coerce literal := by
  simp [coerce, scalar, present]

/-- Null is bound to nullable fields, as it is. -/
theorem coerce_null_eq_ok_iff (scalar : field.kind = .scalar type) {bound : Value} :
    field.coerce .null = .ok bound ↔ field.nullable = true ∧ bound = .null := by
  cases nullable : field.nullable with
  | true => simp [coerce, scalar, Value.isNull, nullable, eq_comm]
  | false => simp [coerce, scalar, Value.isNull, nullable]

end Field

namespace Filter

variable {catalog : Catalog} {shape : Shape} {field : Field} {type : ScalarType}
  {literal : Value} {predicate : Predicate}

/-- A filter for a value is accepted when the value can be bound. -/
theorem compile_equals_eq_ok_iff
    (found : shape.field? field.name = some field) (scalar : field.kind = .scalar type)
    (segment : pathSeparator ∉ field.name.toList) :
    compile catalog shape (.compare field.name .equals literal) = .ok predicate ↔
      ∃ operand, Bound type literal operand ∧
        predicate = .compare ⟨.ofField field, .equals, operand⟩ := by
  have defined : operatorFault? .equals type literal = none :=
    operatorFault?_eq_none_iff.2 ⟨fun _ => rfl, nofun, nofun⟩
  rw [compile_field_eq_ok_iff found scalar segment]
  constructor
  · rintro ⟨_, operand, ⟨_, bound⟩, rfl⟩
    exact ⟨operand, bound, rfl⟩
  · rintro ⟨operand, bound, rfl⟩
    exact ⟨defined, operand, .single nofun bound, rfl⟩

/-- So is a filter for the values of a set with this one element. -/
theorem compile_isIn_singleton_eq_ok_iff
    (found : shape.field? field.name = some field) (scalar : field.kind = .scalar type)
    (segment : pathSeparator ∉ field.name.toList) :
    compile catalog shape (.compare field.name .isIn (.list [literal])) = .ok predicate ↔
      ∃ operand, Bound type literal operand ∧
        predicate = .compare ⟨.ofField field, .isIn, .list [operand]⟩ := by
  rw [compile_field_eq_ok_iff found scalar segment]
  constructor
  · rintro ⟨_, _, ⟨other, _⟩ | ⟨_ | ⟨bound, ⟨⟩⟩⟩, rfl⟩
    · exact absurd rfl other
    · exact ⟨_, bound, rfl⟩
  · rintro ⟨operand, bound, rfl⟩
    exact ⟨rfl, _, .set (.cons bound .nil), rfl⟩

end Filter

namespace Patch

/-- A patch of one entry. -/
def single (name : String) (literal : Value) : Patch :=
  ofList [(name, literal)]

theorem get?_single (name : String) (literal : Value) :
    (single name literal).get? name = some literal := by
  rw [single, ofList, List.foldl_cons, List.foldl_nil, get?_insert, if_pos rfl]

section Single

variable {shape : Shape} {field : Field} {literal bound : Value}

/-- A patch of one mutable field suits a shape when its literal can be bound to the field. -/
theorem suits_single_iff
    (found : shape.field? field.name = some field) (mutable : field.isMutable = true) :
    (single field.name literal).Suits shape ↔ ∃ bound, field.coerce literal = .ok bound := by
  constructor
  · rintro ⟨prepared, done⟩
    obtain ⟨write?, others, here, _, _⟩ :=
      prepareEntries_cons_eq_ok_iff.1 (prepare_eq_ok_iff.1 done).2
    obtain ⟨own, isOwn, ⟨key, _⟩ | ⟨_, bound, coerced, _⟩⟩ := prepareEntry_eq_ok_iff.1 here
    · obtain rfl := Option.some.inj (found.symm.trans isOwn)
      simp [Field.isMutable, key] at mutable
    · obtain rfl := Option.some.inj (found.symm.trans isOwn)
      exact ⟨bound, coerced⟩
  · rintro ⟨bound, coerced⟩
    have entry := prepareEntry_eq_ok_iff.2 ⟨field, found, .inr ⟨mutable, bound, coerced, rfl⟩⟩
    exact ⟨⟨shape.name, [(field.name, bound)]⟩, prepare_eq_ok_iff.2
      ⟨rfl, prepareEntries_cons_eq_ok_iff.2 ⟨_, [], entry, rfl, rfl⟩⟩⟩

variable {catalog : Catalog} {record : Record}

/-- A stored record takes every literal that can be bound, and reads it as it was bound. -/
theorem scalar?_of_apply_single
    (fits : record.Fits (catalog.shape record.type))
    (found : (catalog.shape record.type).field? field.name = some field)
    (mutable : field.isMutable = true) (coerced : field.coerce literal = .ok bound) :
    ((single field.name literal).apply catalog record).1 = .ok () ∧
      ((single field.name literal).apply catalog record).2.scalar? field.name = some bound := by
  obtain ⟨prepared, done⟩ := (suits_single_iff found mutable).2 ⟨bound, coerced⟩
  have given : (single field.name literal).bound? (catalog.shape record.type) field.name =
      some bound := bound?_eq_some_iff.2 ⟨_, _, get?_single _ _, found, mutable, coerced⟩
  obtain ⟨old, isOld⟩ := Record.exists_scalar?_of_stored?
    (fits.stored?_of_admits found (Field.admits_of_coerce coerced))
  rw [apply_eq_rebind fits done, Record.scalar?_rebind, isOld, given]
  exact ⟨rfl, rfl⟩

theorem apply_single_eq_ok_iff
    (fits : record.Fits (catalog.shape record.type))
    (found : (catalog.shape record.type).field? field.name = some field)
    (mutable : field.isMutable = true) :
    ((single field.name literal).apply catalog record).1 = .ok () ↔
      ∃ bound, field.coerce literal = .ok bound := by
  constructor
  · intro applied
    rcases (single field.name literal).apply_eq catalog record with
      ⟨e, _, same⟩ | ⟨prepared, done, _⟩
    · rw [same] at applied
      cases applied
    · exact (suits_single_iff found mutable).1 ⟨prepared, done⟩
  · rintro ⟨bound, coerced⟩
    exact (scalar?_of_apply_single fits found mutable coerced).1

end Single

/--
A stored record takes a literal at a mutable field exactly if a filter that asks
this field for the literal is accepted.  The patched record then passes this
filter, and the filter for the set of the literal, unless the literal is NaN.  A
filter that asks for null is always accepted; a record takes null at its
nullable fields alone, and passes this filter then.
-/
theorem apply_agrees_with_filter
    (catalog : Catalog) {record : Record} (fits : record.Fits (catalog.shape record.type))
    {field : Field} (declared : field ∈ (catalog.shape record.type).fields)
    (mutable : field.isMutable = true) (segment : pathSeparator ∉ field.name.toList)
    (literal : Value) :
    let shape := catalog.shape record.type
    let applied := (single field.name literal).apply catalog record
    let equals := Filter.compile catalog shape (.compare field.name .equals literal)
    let among := Filter.compile catalog shape (.compare field.name .isIn (.list [literal]))
    (literal ≠ .null →
        (applied.1 = .ok () ↔ ∃ predicate, equals = .ok predicate) ∧
          (applied.1 = .ok () → ∃ predicate member, equals = .ok predicate ∧ among = .ok member ∧
            (predicate.matcher.test applied.2 = true ↔ literal.isNaN = false) ∧
            (member.matcher.test applied.2 = true ↔ literal.isNaN = false))) ∧
      (literal = .null →
        (applied.1 = .ok () ↔ field.nullable = true) ∧
          ∃ predicate, equals = .ok predicate ∧
            (applied.1 = .ok () → predicate.matcher.test applied.2 = true)) := by
  intro shape applied equals among
  have found : shape.field? field.name = some field := Shape.field?_eq_some_iff.2 ⟨declared, rfl⟩
  obtain ⟨type, scalar⟩ := Field.exists_scalar_of_isMutable mutable
  have written : applied.1 = .ok () ↔ ∃ bound, field.coerce literal = .ok bound :=
    apply_single_eq_ok_iff fits found mutable
  have reads {bound : Value} (coerced : field.coerce literal = .ok bound) :
      applied.2.scalar? field.name = some bound :=
    (scalar?_of_apply_single fits found mutable coerced).2
  simp only [Predicate.test_matcher_eq]
  constructor
  · intro present
    rw [Field.coerce_of_present scalar present] at written reads
    refine ⟨written.trans ?accepted, fun done => ?passes⟩
    case accepted =>
      constructor
      · rintro ⟨bound, coerced⟩
        exact ⟨_, (Filter.compile_equals_eq_ok_iff found scalar segment).2
          ⟨bound, .value present coerced, rfl⟩⟩
      · rintro ⟨predicate, accepted⟩
        obtain ⟨operand, _ | ⟨_, coerced⟩, _⟩ :=
          (Filter.compile_equals_eq_ok_iff found scalar segment).1 accepted
        · exact absurd rfl present
        · exact ⟨operand, coerced⟩
    case passes =>
      obtain ⟨bound, coerced⟩ := written.1 done
      refine ⟨_, _,
        (Filter.compile_equals_eq_ok_iff found scalar segment).2
          ⟨bound, .value present coerced, rfl⟩,
        (Filter.compile_isIn_singleton_eq_ok_iff found scalar segment).2
          ⟨bound, .value present coerced, rfl⟩, ?_, ?_⟩
      · rw [Predicate.holds_compare_ofField, reads coerced]
        exact Operator.accepts_equals_bound_iff coerced
      · rw [Predicate.holds_compare_ofField, reads coerced]
        exact Operator.accepts_isIn_bound_iff coerced
  · rintro rfl
    simp only [Field.coerce_null_eq_ok_iff scalar] at written reads
    refine ⟨written.trans ⟨fun ⟨_, nullable, _⟩ => nullable, fun nullable => ⟨_, nullable, rfl⟩⟩,
      _, (Filter.compile_equals_eq_ok_iff found scalar segment).2 ⟨.null, .null, rfl⟩,
      fun done => ?_⟩
    obtain ⟨_, nullable, _⟩ := written.1 done
    rw [Predicate.holds_compare_ofField, reads ⟨nullable, rfl⟩]
    rfl

/--
A score is patched with an integer and found by it; a city is neither patched
with a name nor asked for by one; an absent email is found by null.
-/
theorem apply_agrees_with_filter_person :
    let record := Sample.person 1 "Ada" 36
    let applied (name : String) (literal : Value) :=
      (single name literal).apply Sample.catalog record
    let asked (name : String) (literal : Value) :=
      Filter.compile Sample.catalog Sample.personShape (.compare name .equals literal)
    (∀ shape ∈ Sample.shapes, ∀ field ∈ shape.fields, pathSeparator ∉ field.name.toList) ∧
      record.Fits Sample.personShape ∧
      (applied "score" (.int 7)).2.scalar? "score" = some (.float ⟨0x401C000000000000⟩) ∧
      (∃ predicate, asked "score" (.int 7) = .ok predicate ∧
        predicate.matcher.test (applied "score" (.int 7)).2 = true) ∧
      (applied "city_id" (.text "Troy")).1 ≠ .ok () ∧
      (¬ ∃ predicate, asked "city_id" (.text "Troy") = .ok predicate) ∧
      ∃ predicate, asked "email" .null = .ok predicate ∧
        predicate.matcher.test (applied "email" .null).2 = true := by
  intro record applied asked
  have segments : ∀ shape ∈ Sample.shapes, ∀ field ∈ shape.fields,
      pathSeparator ∉ field.name.toList := by decide
  have isSample : Sample.personShape ∈ Sample.shapes := by decide
  have fits : record.Fits (Sample.catalog.shape record.type) := Sample.fits_person 1 "Ada" 36
  have agrees (field : Field) (declared : field ∈ Sample.personShape.fields)
      (mutable : field.isMutable = true) :=
    apply_agrees_with_filter Sample.catalog fits declared mutable
      (segments _ isSample field declared)
  have score := (agrees (.scalar "score" .float) (by decide) rfl (.int 7)).1 nofun
  have city := (agrees (.nullableScalar "city_id" .uuid) (by decide) rfl (.text "Troy")).1 nofun
  have email := (agrees (.nullableScalar "email" .text) (by decide) rfl .null).2 rfl
  obtain ⟨predicate, _, accepted, _, passes, _⟩ := score.2 rfl
  obtain ⟨absent, acceptedNull, passesNull⟩ := email.2
  have refused : (applied "city_id" (.text "Troy")).1 ≠ .ok () := nofun
  exact ⟨segments, fits, rfl, ⟨predicate, accepted, passes.2 rfl⟩, refused,
    fun accepted => refused (city.1.2 accepted), absent, acceptedNull, passesNull rfl⟩

end Patch

end EntityAccess
