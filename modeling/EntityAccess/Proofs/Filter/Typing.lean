import EntityAccess.Proofs.Filter.Meaning
import EntityAccess.Proofs.Record.Reading

/-!
# Typed predicates

Every comparison of an accepted filter ends on a scalar and has a literal that fits
its operator and the type there.  An evaluation that stops as soon as values of
different kinds are compared, or a literal is of no use to its operator, never
stops for such a predicate on a typed record.
-/

namespace EntityAccess

/-- The literal of an accepted comparison fits its operator at a field of the type. -/
def Operator.Fits (type : ScalarType) (literal : Value) : Operator → Prop
  | .equals | .notEquals => type.Optional literal
  | .greaterThan | .greaterOrEqual | .lessThan | .lessOrEqual =>
      type ∈ ScalarType.ordered ∧ literal ≠ .null ∧ literal.kind = type.valueKind
  | .contains | .startsWith | .endsWith => type = .text ∧ literal.kind = .text
  | .isIn => ∃ elements, literal = .list elements ∧ ∀ element ∈ elements, type.Optional element

/-- The comparison is of a scalar behind relations with a literal that fits its type. -/
structure Comparison.WellTyped
    (catalog : Catalog) (shape : Shape) (type : ScalarType) (c : Comparison) : Prop where
  leads : c.path.Leads catalog shape
  scalar : c.path.scalar? = some type
  fits : c.op.Fits type c.literal

namespace Predicate

mutual

/-- The comparisons of a predicate from left to right. -/
def comparisons : Predicate → List Comparison
  | .const _ => []
  | .compare comparison => [comparison]
  | .and children => comparisonsAll children
  | .or children => comparisonsAll children
  | .not child => child.comparisons

def comparisonsAll : List Predicate → List Comparison
  | [] => []
  | child :: rest => child.comparisons ++ comparisonsAll rest

end

/-- All comparisons of a predicate fit the types of their fields. -/
def WellTyped (catalog : Catalog) (shape : Shape) (predicate : Predicate) : Prop :=
  ∀ comparison ∈ predicate.comparisons, ∃ type, comparison.WellTyped catalog shape type

end Predicate

/-! ## Typed evaluation -/

/-- Where a typed evaluation stops. -/
inductive TypeFault where
  /-- A value is compared with a literal of another kind. -/
  | mixedKinds (value literal : Value)
  /-- The part to look for in a text is no text. -/
  | noPart (literal : Value)
  /-- The set of a membership test is no list. -/
  | noSet (literal : Value)

/-- A test of values that may stop. -/
abbrev TypedTest := Value → Except TypeFault Bool

namespace Operator

/-- The order of a value and a literal of the same kind. -/
def typedCompare (literal value : Value) : Except TypeFault (Option Ordering) :=
  if value.kind = literal.kind then .ok (value.compare? literal)
  else .error (.mixedKinds value literal)

/-- An absent value is not compared. -/
def typedEqualTo (literal : Value) : TypedTest := fun value =>
  if value.isNull then .ok false else (typedCompare literal value).map (· == some .eq)

def typedOrdered (accepted : Ordering → Bool) (literal : Value) : TypedTest := fun value =>
  if value.isNull then .ok false else (typedCompare literal value).map (·.any accepted)

/-- Equality with a literal that may be null, which stands for absence. -/
def typedEquals (literal : Value) : TypedTest := fun value =>
  if literal.isNull then .ok value.isNull else typedEqualTo literal value

/-- Prepare the test for a part of a text, which has to be a text. -/
def typedTextual (accepted : String → String → Bool) : Value → Except TypeFault TypedTest
  | .text part => .ok fun
      | .text text => .ok (accepted text part)
      | .null => .ok false
      | value => .error (.mixedKinds value (.text part))
  | literal => .error (.noPart literal)

/-- Prepare the test for membership in a set, which has to be a list. -/
def typedMemberOf : Value → Except TypeFault TypedTest
  | .list elements => .ok fun value =>
      (elements.mapM fun element => typedEquals element value).map (·.any id)
  | literal => .error (.noSet literal)

/-- Prepare the test of an operator against a literal. -/
def typedTest (op : Operator) (literal : Value) : Except TypeFault TypedTest :=
  match op with
  | .equals => .ok (typedEquals literal)
  | .notEquals => .ok fun value => (typedEquals literal value).map (!·)
  | .greaterThan => .ok (typedOrdered (· == .gt) literal)
  | .greaterOrEqual => .ok (typedOrdered (· != .lt) literal)
  | .lessThan => .ok (typedOrdered (· == .lt) literal)
  | .lessOrEqual => .ok (typedOrdered (· != .gt) literal)
  | .contains => typedTextual Search.contains literal
  | .startsWith => typedTextual Search.startsWith literal
  | .endsWith => typedTextual Search.endsWith literal
  | .isIn => typedMemberOf literal

end Operator

/-- Prepare the test of a comparison, then test every value that its path reads. -/
def Comparison.typedHolds (record : Record) (c : Comparison) : Except TypeFault Bool := do
  let test ← c.op.typedTest c.literal
  return (← (c.path.read record).mapM test).any id

namespace Predicate

mutual

/-- Evaluate a predicate with all its parts, unless one of them stops. -/
def typedHolds (record : Record) : Predicate → Except TypeFault Bool
  | .const holds => .ok holds
  | .compare comparison => comparison.typedHolds record
  | .and children => (typedHoldsAll record children).map (·.all id)
  | .or children => (typedHoldsAll record children).map (·.any id)
  | .not child => (child.typedHolds record).map (!·)

def typedHoldsAll (record : Record) : List Predicate → Except TypeFault (List Bool)
  | [] => .ok []
  | child :: rest => do
      let first ← child.typedHolds record
      return first :: (← typedHoldsAll record rest)

end

-- No filter has this predicate: a number is no literal for a text.
example :
    (Predicate.compare ⟨Path.ofField (Field.scalar "name" .text), .equals, .int 1⟩).typedHolds
        (Sample.treeItem 1 "leaf") = .error (.mixedKinds (.text "leaf") (.int 1)) := rfl

end Predicate

namespace Operator

variable {type : ScalarType} {literal value : Value}

/-- A value that is present is compared with a literal of its own kind. -/
theorem typedCompare_eq_ok
    (fits : literal.kind = type.valueKind) (typed : type.Optional value)
    (present : value.isNull = false) :
    typedCompare literal value = .ok (value.compare? literal) := by
  rcases typed with absent | same
  · exact absurd absent (Value.isNull_eq_false_iff.1 present)
  · exact if_pos (same.trans fits.symm)

theorem typedEqualTo_eq_ok
    (fits : literal.kind = type.valueKind) (typed : type.Optional value) :
    typedEqualTo literal value = .ok (equalTo literal value) := by
  rw [typedEqualTo, equalTo]
  cases present : value.isNull with
  | true => rfl
  | false =>
      rw [typedCompare_eq_ok fits typed present]
      rfl

theorem typedOrdered_eq_ok
    (accepted : Ordering → Bool) (fits : literal.kind = type.valueKind)
    (typed : type.Optional value) :
    typedOrdered accepted literal value = .ok (ordered accepted literal value) := by
  rw [typedOrdered, ordered]
  cases present : value.isNull with
  | true => rfl
  | false =>
      rw [typedCompare_eq_ok fits typed present]
      rfl

theorem typedEquals_eq_ok
    (fits : type.Optional literal) (typed : type.Optional value) :
    typedEquals literal value =
      .ok (if literal.isNull then value.isNull else equalTo literal value) := by
  rw [typedEquals]
  cases absent : literal.isNull with
  | true => rfl
  | false =>
      rcases fits with null | kind
      · exact absurd null (Value.isNull_eq_false_iff.1 absent)
      · exact typedEqualTo_eq_ok kind typed

/-- A text field is searched for a text, and reads nothing but texts and null. -/
theorem typedTextual_eq_ok (accepted : String → String → Bool) (fits : literal.kind = .text) :
    ∃ test, typedTextual accepted literal = .ok test ∧
      ∀ value, ScalarType.text.Optional value →
        test value = .ok (textual accepted literal value) := by
  cases literal <;> cases fits
  refine ⟨_, rfl, fun value typed => ?_⟩
  rcases typed with rfl | kind
  · rfl
  · cases value <;> cases kind
    rfl

/-- Each element of a set is compared with values of its own kind. -/
theorem typedMemberOf_eq_ok
    {elements : List Value} (fits : ∀ element ∈ elements, type.Optional element) :
    ∃ test, typedMemberOf (.list elements) = .ok test ∧
      ∀ value, type.Optional value → test value = .ok (memberOf elements value) := by
  refine ⟨_, rfl, fun value typed => ?_⟩
  have answers : (elements.mapM fun element => typedEquals element value) =
      .ok (elements.map fun element =>
        if element.isNull then value.isNull else equalTo element value) :=
    Outcome.mapM_eq_ok_map fun element isElement => typedEquals_eq_ok (fits element isElement) typed
  simp only [answers, Except.map, memberOf, List.any_map]
  rfl

/-- A literal that fits makes a test that answers as the operator at every value of the type. -/
theorem typedTest_eq_ok {op : Operator} (fits : op.Fits type literal) :
    ∃ test, op.typedTest literal = .ok test ∧
      ∀ value, type.Optional value → test value = .ok (op.accepts literal value) := by
  cases op with
  | equals => exact ⟨_, rfl, fun value typed => typedEquals_eq_ok fits typed⟩
  | notEquals =>
      refine ⟨_, rfl, fun value typed => ?_⟩
      rw [typedEquals_eq_ok fits typed, accepts]
      cases literal.isNull <;> rfl
  | greaterThan | greaterOrEqual | lessThan | lessOrEqual =>
      exact ⟨_, rfl, fun value typed => typedOrdered_eq_ok _ fits.2.2 typed⟩
  | contains | startsWith | endsWith =>
      obtain ⟨rfl, text⟩ := fits
      exact typedTextual_eq_ok _ text
  | isIn =>
      obtain ⟨elements, rfl, fitAll⟩ := fits
      exact typedMemberOf_eq_ok fitAll

end Operator

section Records

variable {catalog : Catalog} {shape : Shape} {record : Record}

/-- A comparison that fits tests a typed record without a stop. -/
theorem Comparison.WellTyped.typedHolds_eq
    {c : Comparison} {type : ScalarType} (wellTyped : c.WellTyped catalog shape type)
    (typed : record.Typed catalog shape) : c.typedHolds record = .ok (c.holds record) := by
  obtain ⟨test, prepared, answers⟩ := Operator.typedTest_eq_ok wellTyped.fits
  have tested : (c.path.read record).mapM test =
      .ok ((c.path.read record).map (c.op.accepts c.literal)) :=
    Outcome.mapM_eq_ok_map fun value reads =>
      answers value (Path.kind_of_mem_read wellTyped.leads typed wellTyped.scalar reads)
  rw [Comparison.typedHolds, prepared]
  simp only [bind, Except.bind, tested, pure, Except.pure, holds, List.any_map]
  rfl

namespace Predicate

mutual

/-- A predicate of comparisons that fit is evaluated on a typed record without a stop. -/
theorem typedHolds_eq_of_wellTyped (typed : record.Typed catalog shape) :
    ∀ predicate : Predicate, predicate.WellTyped catalog shape →
      predicate.typedHolds record = .ok (predicate.holds record)
  | .const _, _ => rfl
  | .compare comparison, wellTyped => by
      obtain ⟨type, fits⟩ := wellTyped comparison (List.mem_singleton_self comparison)
      exact fits.typedHolds_eq typed
  | .and children, wellTyped => by
      rw [typedHolds, typedHoldsAll_eq_of_wellTyped typed children wellTyped, holds,
        allHold_eq_all]
      simp only [Except.map, List.all_map]
      rfl
  | .or children, wellTyped => by
      rw [typedHolds, typedHoldsAll_eq_of_wellTyped typed children wellTyped, holds,
        someHolds_eq_any]
      simp only [Except.map, List.any_map]
      rfl
  | .not child, wellTyped => by
      rw [typedHolds, typedHolds_eq_of_wellTyped typed child wellTyped, holds]
      rfl

theorem typedHoldsAll_eq_of_wellTyped (typed : record.Typed catalog shape) :
    ∀ predicates : List Predicate,
      (∀ comparison ∈ comparisonsAll predicates,
        ∃ type, comparison.WellTyped catalog shape type) →
      typedHoldsAll record predicates = .ok (predicates.map fun child => child.holds record)
  | [], _ => rfl
  | child :: rest, wellTyped => by
      obtain ⟨here, after⟩ := List.forall_mem_append.1 wellTyped
      rw [typedHoldsAll, typedHolds_eq_of_wellTyped typed child here,
        typedHoldsAll_eq_of_wellTyped typed rest after]
      rfl

end

end Predicate

/-! ## Accepted filters -/

namespace Filter

/-- A bound literal is null or of the type it is bound to. -/
theorem Bound.optional {type : ScalarType} {literal operand : Value}
    (bound : Bound type literal operand) : type.Optional operand := by
  cases bound with
  | null => exact Or.inl rfl
  | value _ coerced => exact Or.inr (ScalarType.kind_of_coerce coerced)

theorem optional_of_mem_bound
    {type : ScalarType} {literals operands : List Value}
    (bound : List.Forall₂ (Bound type) literals operands) :
    ∀ operand ∈ operands, type.Optional operand := by
  induction bound with
  | nil => exact fun _ none => absurd none List.not_mem_nil
  | cons first _ ih => exact List.forall_mem_cons.2 ⟨first.optional, ih⟩

/-- The operand of a defined operator fits it. -/
theorem Operand.fits
    {op : Operator} {type : ScalarType} {literal operand : Value}
    (operates : Operand type op literal operand)
    (defined : operatorFault? op type literal = none) : op.Fits type operand := by
  obtain ⟨nullable, orderable, textField⟩ := operatorFault?_eq_none_iff.1 defined
  cases operates with
  | @set literals operands bound =>
      exact ⟨operands, rfl, optional_of_mem_bound bound⟩
  | single other bound =>
      -- Only the two equalities take null; for every other operator the operand is of the type.
      have kind (strict : op.acceptsNull = false) : operand.kind = type.valueKind := by
        cases bound with
        | null => exact absurd (nullable rfl) (by simp [strict])
        | value _ coerced => exact ScalarType.kind_of_coerce coerced
      cases op with
      | equals | notEquals => exact bound.optional
      | greaterThan | greaterOrEqual | lessThan | lessOrEqual =>
          exact ⟨ScalarType.isOrdered_iff.1 (orderable rfl), ScalarType.ne_null_of_kind (kind rfl),
            kind rfl⟩
      | contains | startsWith | endsWith =>
          obtain rfl := textField rfl
          exact ⟨rfl, kind rfl⟩
      | isIn => exact absurd rfl other

theorem wellTyped_of_compileComparison
    {path : String} {op : Operator} {literal : Value} {comparison : Comparison}
    (accepted : compileComparison catalog shape path op literal = .ok comparison) :
    ∃ type, comparison.WellTyped catalog shape type := by
  obtain ⟨resolved, type, operand, found, scalar, defined, operates, rfl⟩ :=
    compileComparison_eq_ok_iff.1 accepted
  exact ⟨type, (Catalog.leads_of_resolve found).1, scalar, operates.fits defined⟩

mutual

/-- An accepted node has only comparisons that fit. -/
theorem wellTyped_of_compileAt :
    ∀ (filter : Filter) {depth : Nat} {predicate : Predicate},
      compileAt catalog shape depth filter = .ok predicate → predicate.WellTyped catalog shape
  | .compare path op literal, depth, predicate, accepted => by
      obtain ⟨_, comparison, acceptedLeaf, rfl⟩ := compileAt_compare_eq_ok_iff.1 accepted
      exact List.forall_mem_singleton.2 (wellTyped_of_compileComparison acceptedLeaf)
  | .and children, depth, predicate, accepted => by
      obtain ⟨_, predicates, acceptedAll, rfl⟩ := compileAt_and_eq_ok_iff.1 accepted
      exact wellTyped_of_compileAllAt children acceptedAll
  | .or children, depth, predicate, accepted => by
      obtain ⟨_, predicates, acceptedAll, rfl⟩ := compileAt_or_eq_ok_iff.1 accepted
      exact wellTyped_of_compileAllAt children acceptedAll
  | .not children, depth, predicate, accepted => by
      obtain ⟨_, child, inner, rfl, acceptedChild, rfl⟩ := compileAt_not_eq_ok_iff.1 accepted
      have wellTyped := wellTyped_of_compileAt child acceptedChild
      exact wellTyped

theorem wellTyped_of_compileAllAt :
    ∀ (filters : List Filter) {depth : Nat} {predicates : List Predicate},
      compileAllAt catalog shape depth filters = .ok predicates →
        ∀ comparison ∈ Predicate.comparisonsAll predicates,
          ∃ type, comparison.WellTyped catalog shape type
  | [], depth, predicates, accepted => by
      obtain rfl := Except.ok.inj accepted
      exact fun _ none => absurd none List.not_mem_nil
  | filter :: rest, depth, predicates, accepted => by
      obtain ⟨first, others, acceptedFirst, acceptedRest, rfl⟩ :=
        List.forall₂_cons_left_iff.1 (compileAllAt_eq_ok_iff.1 accepted)
      exact List.forall_mem_append.2 ⟨wellTyped_of_compileAt filter acceptedFirst,
        wellTyped_of_compileAllAt rest (compileAllAt_eq_ok_iff.2 acceptedRest)⟩

end

/--
All comparisons of an accepted filter fit the types of their fields, and on a
typed record the predicate is evaluated without a stop, to the answer of its
matcher.
-/
theorem compile_wellTyped
    {filter : Filter} {predicate : Predicate}
    (accepted : compile catalog shape filter = .ok predicate) :
    (∀ comparison ∈ predicate.comparisons, ∃ type, comparison.WellTyped catalog shape type) ∧
      ∀ record, record.Typed catalog shape →
        predicate.typedHolds record = .ok (predicate.matcher.test record) := by
  have wellTyped := wellTyped_of_compileAt filter accepted
  refine ⟨wellTyped, fun record typed => ?_⟩
  rw [Predicate.test_matcher_eq]
  exact Predicate.typedHolds_eq_of_wellTyped typed predicate wellTyped

/-- The literals for a leaf below an oak are bound to the texts and integers that it reads. -/
theorem compile_wellTyped_leaf :
    let leaf := Sample.withParent (Sample.treeItem 1 "leaf") (Sample.treeItem 9 "oak")
    let filter := Filter.and
      [.compare "parent.name" .startsWith (.text "o"),
        .not [.compare "children.id" .isIn (.list [.null, .float ⟨0x4008000000000000⟩])],
        .compare "parent_id" .greaterThan (.int 3)]
    ∃ predicate, compile Sample.catalog Sample.treeItemShape filter = .ok predicate ∧
      leaf.Typed Sample.catalog Sample.treeItemShape ∧
      predicate.comparisons.map Comparison.literal = [.text "o", .list [.null, .int 3], .int 3] ∧
      (∀ comparison ∈ predicate.comparisons,
        ∃ type, comparison.WellTyped Sample.catalog Sample.treeItemShape type) ∧
      predicate.typedHolds leaf = .ok true := by
  intro leaf filter
  have typed : leaf.Typed Sample.catalog Sample.treeItemShape :=
    (Sample.conforms_withParent ..).typed
  have accepted : compile Sample.catalog Sample.treeItemShape filter = .ok _ := rfl
  obtain ⟨fits, answers⟩ := compile_wellTyped accepted
  exact ⟨_, accepted, typed, rfl, fits, answers leaf typed⟩

end Filter

end Records

end EntityAccess
