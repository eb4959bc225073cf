import EntityAccess.Proofs.Shape.Resolution
import EntityAccess.Proofs.Value.Order

/-!
# Accepted filters

What the checks of a filter ensure.  The path of an accepted comparison ends on a
scalar, its operator is defined there, and its operand is the literal bound to the
type of the field.  An accepted node lies above the depth limit, and its children
are accepted one level below.
-/

namespace EntityAccess

namespace ScalarType

/-- The types on which the ordering operators are defined. -/
def ordered : List ScalarType := [.int, .float, .text, .dateTime]

theorem isOrdered_iff {type : ScalarType} : type.isOrdered = true ↔ type ∈ ordered := by
  cases type <;> decide

end ScalarType

namespace Operator

/-- The operators that ask for an order. -/
def orderings : List Operator := [.greaterThan, .greaterOrEqual, .lessThan, .lessOrEqual]

/-- The operators that look for a part of a text. -/
def substrings : List Operator := [.contains, .startsWith, .endsWith]

theorem isOrdering_iff {op : Operator} : op.isOrdering = true ↔ op ∈ orderings := by
  cases op <;> decide

theorem isTextual_iff {op : Operator} : op.isTextual = true ↔ op ∈ substrings := by
  cases op <;> decide

theorem acceptsNull_iff {op : Operator} :
    op.acceptsNull = true ↔ op = .equals ∨ op = .notEquals := by
  cases op <;> decide

end Operator

namespace Filter

/-- A literal as it is bound to a type, where null stands for itself. -/
inductive Bound (type : ScalarType) : Value → Value → Prop where
  | null : Bound type .null .null
  | value {literal operand : Value} (present : literal ≠ .null)
      (coerced : type.coerce literal = .ok operand) : Bound type literal operand

/-- The operand of an operator for a literal: a set for membership, one value otherwise. -/
inductive Operand (type : ScalarType) : Operator → Value → Value → Prop where
  | single {op : Operator} {literal operand : Value} (other : op ≠ .isIn)
      (bound : Bound type literal operand) : Operand type op literal operand
  | set {literals operands : List Value} (bound : List.Forall₂ (Bound type) literals operands) :
      Operand type .isIn (.list literals) (.list operands)

/-- A literal that can be coerced is not null, so it is bound to its coerced form. -/
theorem bound_of_coerce
    {type : ScalarType} {literal operand : Value} (coerced : type.coerce literal = .ok operand) :
    Bound type literal operand := by
  refine .value ?_ coerced
  rintro rfl
  rw [type.coerce_eq_error_of_unbound (.inl rfl)] at coerced
  cases coerced

theorem bindLiteral_eq_ok_iff
    {path : Path} {type : ScalarType} {literal operand : Value} :
    bindLiteral path type literal = .ok operand ↔ type.coerce literal = .ok operand :=
  Outcome.mapError_eq_ok_iff

/-- An element of a set is bound like a single literal, and null is kept. -/
theorem bindElement_eq_ok_iff
    {path : Path} {type : ScalarType} {literal operand : Value} :
    (if literal.isNull then Except.ok .null else bindLiteral path type literal) = .ok operand ↔
      Bound type literal operand := by
  by_cases absent : literal = .null
  · subst absent
    constructor
    · intro kept
      exact Except.ok.inj kept ▸ .null
    · rintro (_ | ⟨present, _⟩)
      · rfl
      · exact absurd rfl present
  · rw [if_neg (by simpa using absent), bindLiteral_eq_ok_iff]
    constructor
    · exact .value absent
    · rintro (_ | ⟨_, coerced⟩)
      · exact absurd rfl absent
      · exact coerced

theorem bindSet_eq_ok_iff
    {path : Path} {type : ScalarType} {literals operands : List Value} :
    bindSet path type literals = .ok operands ↔ List.Forall₂ (Bound type) literals operands := by
  rw [bindSet, Outcome.mapM_eq_ok_iff]
  simp only [bindElement_eq_ok_iff]

/-- An operator is defined for a type and a literal when none of the three checks objects. -/
theorem operatorFault?_eq_none_iff
    {op : Operator} {type : ScalarType} {literal : Value} :
    operatorFault? op type literal = none ↔
      (literal = .null → op.acceptsNull = true) ∧
        (op.isOrdering = true → type.isOrdered = true) ∧
          (op.isTextual = true → type = .text) := by
  have nullFault : (literal.isNull && !op.acceptsNull) = true ↔
      ¬ (literal = .null → op.acceptsNull = true) := by simp
  have orderFault : (op.isOrdering && !type.isOrdered) = true ↔
      ¬ (op.isOrdering = true → type.isOrdered = true) := by simp
  have textFault : (op.isTextual && type != .text) = true ↔
      ¬ (op.isTextual = true → type = .text) := by simp
  rw [operatorFault?]
  simp only [nullFault, orderFault, textFault]
  split_ifs <;> simp_all

/-- The operand of a defined operator is the literal bound to the type. -/
theorem bindOperand_eq_ok_iff
    {source : String} {path : Path} {op : Operator} {type : ScalarType}
    {literal operand : Value} (defined : operatorFault? op type literal = none) :
    bindOperand source path op type literal = .ok operand ↔ Operand type op literal operand := by
  by_cases absent : literal = .null
  · subst absent
    have other : op ≠ .isIn := by
      rintro rfl
      exact absurd ((operatorFault?_eq_none_iff.1 defined).1 rfl) (by decide)
    constructor
    · intro bound
      exact Except.ok.inj bound ▸ .single other .null
    · rintro (⟨_, _ | ⟨present, _⟩⟩ | _)
      · rfl
      · exact absurd rfl present
  · rw [bindOperand, if_neg (by simpa using absent)]
    by_cases membership : op = .isIn
    · subst membership
      rw [if_pos rfl]
      constructor
      · intro bound
        cases literal with
        | list literals =>
            obtain ⟨operands, boundSet, rfl⟩ := Outcome.map_eq_ok_iff.1 bound
            exact .set (bindSet_eq_ok_iff.1 boundSet)
        | null | bool | int | float | text | uuid | dateTime => cases bound
      · rintro (⟨other, _⟩ | boundSet)
        · exact absurd rfl other
        · exact Outcome.map_eq_ok_iff.2 ⟨_, bindSet_eq_ok_iff.2 boundSet, rfl⟩
    · rw [if_neg membership, bindLiteral_eq_ok_iff]
      constructor
      · exact fun coerced => .single membership (.value absent coerced)
      · rintro (⟨_, _ | ⟨_, coerced⟩⟩ | _)
        · exact absurd rfl absent
        · exact coerced
        · exact absurd rfl membership

/-- The conditions under which a comparison is accepted, and what it becomes. -/
theorem compileComparison_eq_ok_iff
    {catalog : Catalog} {shape : Shape} {source : String} {op : Operator} {literal : Value}
    {comparison : Comparison} :
    compileComparison catalog shape source op literal = .ok comparison ↔
      ∃ path type operand, catalog.resolve shape source = .ok path ∧
        path.scalar? = some type ∧ operatorFault? op type literal = none ∧
          Operand type op literal operand ∧ comparison = ⟨path, op, operand⟩ := by
  rw [compileComparison, Outcome.bind_eq_ok_iff]
  constructor
  · rintro ⟨path, compiled, rest⟩
    have resolved := Outcome.mapError_eq_ok_iff.1 compiled
    cases scalar : path.scalar? with
    | none => simp [scalar] at rest
    | some type =>
        simp only [scalar] at rest
        cases defined : operatorFault? op type literal with
        | some detail => simp [defined] at rest
        | none =>
            simp only [defined, Outcome.bind_eq_ok_iff] at rest
            obtain ⟨operand, bound, done⟩ := rest
            exact ⟨path, type, operand, resolved, scalar, defined,
              (bindOperand_eq_ok_iff defined).1 bound, (Except.ok.inj done).symm⟩
  · rintro ⟨path, type, operand, resolved, scalar, defined, bound, rfl⟩
    refine ⟨path, Outcome.mapError_eq_ok_iff.2 resolved, ?_⟩
    simp only [scalar, defined, Outcome.bind_eq_ok_iff]
    exact ⟨operand, (bindOperand_eq_ok_iff defined).2 bound, rfl⟩

/-! ## Nodes -/

section Nodes

variable {catalog : Catalog} {shape : Shape} {depth : Nat} {predicate : Predicate}

/-- A node that lies too deep is refused, whatever stands in it. -/
theorem limited_eq_ok_iff {outcome : Except CompileError Predicate} :
    (if depthLimit ≤ depth then .error (.tooDeep depthLimit) else outcome) = .ok predicate ↔
      depth < depthLimit ∧ outcome = .ok predicate := by
  split
  · rename_i tooDeep
    simp [Nat.not_lt.2 tooDeep]
  · rename_i fits
    simp [Nat.not_le.1 fits]

theorem compileAt_compare_eq_ok_iff {path : String} {op : Operator} {literal : Value} :
    compileAt catalog shape depth (.compare path op literal) = .ok predicate ↔
      depth < depthLimit ∧ ∃ comparison,
        compileComparison catalog shape path op literal = .ok comparison ∧
          .compare comparison = predicate := by
  rw [compileAt, limited_eq_ok_iff, Outcome.map_eq_ok_iff]

theorem compileAt_and_eq_ok_iff {children : List Filter} :
    compileAt catalog shape depth (.and children) = .ok predicate ↔
      depth < depthLimit ∧ ∃ predicates,
        compileAllAt catalog shape (depth + 1) children = .ok predicates ∧
          .and predicates = predicate := by
  rw [compileAt, limited_eq_ok_iff, Outcome.map_eq_ok_iff]

theorem compileAt_or_eq_ok_iff {children : List Filter} :
    compileAt catalog shape depth (.or children) = .ok predicate ↔
      depth < depthLimit ∧ ∃ predicates,
        compileAllAt catalog shape (depth + 1) children = .ok predicates ∧
          .or predicates = predicate := by
  rw [compileAt, limited_eq_ok_iff, Outcome.map_eq_ok_iff]

/-- A negation is accepted with one child alone. -/
theorem compileAt_not_eq_ok_iff {children : List Filter} :
    compileAt catalog shape depth (.not children) = .ok predicate ↔
      depth < depthLimit ∧ ∃ child inner, children = [child] ∧
        compileAt catalog shape (depth + 1) child = .ok inner ∧ .not inner = predicate := by
  match children with
  | [child] =>
      rw [compileAt, limited_eq_ok_iff, Outcome.map_eq_ok_iff]
      constructor
      · rintro ⟨fits, inner, accepted, same⟩
        exact ⟨fits, child, inner, rfl, accepted, same⟩
      · rintro ⟨fits, _, inner, ⟨⟩, accepted, same⟩
        exact ⟨fits, inner, accepted, same⟩
  | [] => simp [compileAt, limited_eq_ok_iff]
  | first :: second :: others => simp [compileAt, limited_eq_ok_iff]

/-- Children are accepted when each of them is. -/
theorem compileAllAt_eq_ok_iff {filters : List Filter} {predicates : List Predicate} :
    compileAllAt catalog shape depth filters = .ok predicates ↔
      List.Forall₂ (fun filter predicate => compileAt catalog shape depth filter = .ok predicate)
        filters predicates := by
  induction filters generalizing predicates with
  | nil =>
      rw [List.forall₂_nil_left_iff]
      exact ⟨fun done => (Except.ok.inj done).symm, fun empty => empty ▸ rfl⟩
  | cons filter rest ih =>
      rw [compileAllAt, List.forall₂_cons_left_iff]
      simp only [Outcome.bind_eq_ok_iff, ih, pure, Except.pure, Except.ok.injEq]
      constructor
      · rintro ⟨first, accepted, others, acceptedRest, rfl⟩
        exact ⟨first, others, accepted, acceptedRest, rfl⟩
      · rintro ⟨first, others, accepted, acceptedRest, rfl⟩
        exact ⟨first, accepted, others, acceptedRest, rfl⟩

/-- A comparison at the end of a path is accepted when operator and literal suit the type there. -/
theorem compile_path_eq_ok_iff
    {source : String} {path : Path} {type : ScalarType}
    (resolved : catalog.resolve shape source = .ok path) (typed : path.scalar? = some type)
    {op : Operator} {literal : Value} :
    compile catalog shape (.compare source op literal) = .ok predicate ↔
      operatorFault? op type literal = none ∧
        ∃ operand, Operand type op literal operand ∧ predicate = .compare ⟨path, op, operand⟩ := by
  rw [compile, compileAt_compare_eq_ok_iff]
  constructor
  · rintro ⟨_, comparison, accepted, rfl⟩
    obtain ⟨other, declared, operand, found, same, defined, bound, rfl⟩ :=
      compileComparison_eq_ok_iff.1 accepted
    obtain rfl := Except.ok.inj (resolved.symm.trans found)
    obtain rfl := Option.some.inj (typed.symm.trans same)
    exact ⟨defined, operand, bound, rfl⟩
  · rintro ⟨defined, operand, bound, rfl⟩
    exact ⟨by decide, _, compileComparison_eq_ok_iff.2
      ⟨path, type, operand, resolved, typed, defined, bound, rfl⟩, rfl⟩

/-- A comparison of a scalar field is accepted when operator and literal suit the field. -/
theorem compile_field_eq_ok_iff
    {name : String} {field : Field} {type : ScalarType} (found : shape.field? name = some field)
    (scalar : field.kind = .scalar type) (segment : pathSeparator ∉ name.toList) {op : Operator}
    {literal : Value} :
    compile catalog shape (.compare name op literal) = .ok predicate ↔
      operatorFault? op type literal = none ∧
        ∃ operand, Operand type op literal operand ∧
          predicate = .compare ⟨.ofField field, op, operand⟩ :=
  compile_path_eq_ok_iff (Catalog.resolve_of_field? found segment)
    (FieldKind.scalar?_eq_some_iff.2 scalar)

end Nodes

end Filter

end EntityAccess
