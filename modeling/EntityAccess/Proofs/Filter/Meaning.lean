import EntityAccess.Proofs.Filter.Acceptance

/-!
# The meaning of predicates and filters

Folding drops the constants of a predicate and collapses junctions that a child
decides.  The matcher that is left answers about every record as the predicate does
when all its children are asked, and a predicate that comes from a filter as the
filter reads: the operators agree value by value with what they say about the
literal, and the combinators agree child by child.
-/

namespace EntityAccess

/-! ## Folding -/

namespace Folded

/-- The answer of a junction whose children give the listed answers. -/
def joined (identity : Bool) (answers : List Bool) : Bool :=
  if identity then answers.all id else answers.any id

@[simp]
theorem joined_nil (identity : Bool) : joined identity [] = identity := by
  cases identity <;> rfl

@[simp]
theorem joined_singleton (identity answer : Bool) : joined identity [answer] = answer := by
  cases identity <;> cases answer <;> rfl

@[simp]
theorem joined_cons_identity (identity : Bool) (answers : List Bool) :
    joined identity (identity :: answers) = joined identity answers := by
  cases identity <;> simp [joined]

@[simp]
theorem joined_cons_opposite (identity : Bool) (answers : List Bool) :
    joined identity ((!identity) :: answers) = !identity := by
  cases identity <;> simp [joined]

/-- Equal answers after the first child give equal answers of the junction. -/
theorem joined_cons_congr
    {identity : Bool} {left right : List Bool} (answer : Bool)
    (same : joined identity left = joined identity right) :
    joined identity (answer :: left) = joined identity (answer :: right) := by
  cases identity with
  | true => simpa [joined] using congrArg (answer && ·) same
  | false => simpa [joined] using congrArg (answer || ·) same

/-- A junction without tests has a child that decides it. -/
theorem joined_of_tests?_eq_none
    {identity : Bool} {children : List Folded} (record : Record)
    (decided : tests? identity children = none) :
    joined identity (children.map fun child => child.toMatcher.test record) = !identity := by
  induction children with
  | nil => cases decided
  | cons child rest ih =>
      cases child with
      | const answer =>
          by_cases dropped : answer = identity
          · rw [tests?, if_pos dropped] at decided
            subst dropped
            exact (joined_cons_identity _ _).trans (ih decided)
          · have opposite : answer = !identity := Bool.eq_not.2 dropped
            subst opposite
            exact joined_cons_opposite _ _
      | dynamic matcher =>
          have inRest : tests? identity rest = none := by
            simpa [tests?] using decided
          have answered := joined_cons_congr (matcher.test record)
            ((ih inRest).trans (joined_singleton identity (!identity)).symm)
          refine answered.trans ?_
          cases identity <;> cases matcher.test record <;> rfl

/-- The tests that are left answer for all children. -/
theorem joined_of_tests?_eq_some
    {identity : Bool} {children : List Folded} {matchers : List Matcher} (record : Record)
    (left : tests? identity children = .some matchers) :
    joined identity (children.map fun child => child.toMatcher.test record) =
      joined identity (matchers.map fun matcher => matcher.test record) := by
  induction children generalizing matchers with
  | nil =>
      cases left
      rfl
  | cons child rest ih =>
      cases child with
      | const answer =>
          by_cases dropped : answer = identity
          · rw [tests?, if_pos dropped] at left
            subst dropped
            exact (joined_cons_identity _ _).trans (ih left)
          · rw [tests?, if_neg dropped] at left
            cases left
      | dynamic matcher =>
          obtain ⟨others, leftRest, rfl⟩ := Option.map_eq_some_iff.1 left
          exact joined_cons_congr (matcher.test record) (ih leftRest)

/-- A folded junction answers as all its children together. -/
theorem test_junction (identity : Bool) (children : List Folded) (record : Record) :
    (junction identity children).toMatcher.test record =
      joined identity (children.map fun child => child.toMatcher.test record) := by
  cases left : tests? identity children with
  | none =>
      rw [joined_of_tests?_eq_none record left, junction, left]
      rfl
  | some matchers =>
      rw [joined_of_tests?_eq_some record left, junction, left]
      match matchers with
      | [] => exact (joined_nil identity).symm
      | [matcher] => exact (joined_singleton identity _).symm
      | first :: second :: others =>
          cases identity with
          | true => simp [toMatcher, joined]
          | false => simp [toMatcher, joined]

end Folded

namespace Predicate

mutual

/-- Folding a predicate does not change its answers. -/
theorem test_fold (record : Record) :
    ∀ predicate : Predicate, predicate.fold.toMatcher.test record = predicate.holds record
  | .const _ => rfl
  | .compare _ => rfl
  | .not child => by
      rw [fold, Folded.test_toMatcher_negated, test_fold record child, holds]
  | .and children => by
      rw [fold, Folded.test_junction, test_foldAll record children, holds, allHold_eq_all]
      simp [Folded.joined]
  | .or children => by
      rw [fold, Folded.test_junction, test_foldAll record children, holds, someHolds_eq_any]
      simp [Folded.joined]

/-- Folding predicates one by one does not change their answers. -/
theorem test_foldAll (record : Record) :
    ∀ predicates : List Predicate,
      ((foldAll predicates).map fun folded => folded.toMatcher.test record) =
        predicates.map fun predicate => predicate.holds record
  | [] => rfl
  | child :: rest => by
      rw [foldAll, List.map_cons, List.map_cons, test_fold record child, test_foldAll record rest]

end

/-- The matcher of a predicate as a test of its meaning. -/
theorem test_matcher_eq (predicate : Predicate) :
    predicate.matcher.test = fun record => predicate.holds record :=
  funext fun record => test_fold record predicate

end Predicate

/-! ## Operators -/

namespace Value

/-- A value equals a literal: both are null, or neither is and they compare as equal. -/
def Equals (value literal : Value) : Prop :=
  (literal = .null ∧ value = .null) ∨
    (literal ≠ .null ∧ value ≠ .null ∧ value.compare? literal = some .eq)

/-- A value that is present stands in one of the given orders to a literal. -/
def InOrder (value : Value) (orders : List Ordering) (literal : Value) : Prop :=
  value ≠ .null ∧ ∃ order ∈ orders, value.compare? literal = some order

/-- A text stands in a relation to a literal that is a text. -/
def TextInRelation
    (value : Value) (relates : List Char → List Char → Prop) (literal : Value) : Prop :=
  ∃ part text, literal = .text part ∧ value = .text text ∧ relates part.toList text.toList

end Value

namespace Operator

/-- How an operator wants a value to stand to a literal. -/
def Relates (literal value : Value) : Operator → Prop
  | .equals => value.Equals literal
  | .notEquals => ¬ value.Equals literal
  | .greaterThan => value.InOrder [.gt] literal
  | .greaterOrEqual => value.InOrder [.gt, .eq] literal
  | .lessThan => value.InOrder [.lt] literal
  | .lessOrEqual => value.InOrder [.lt, .eq] literal
  | .contains => value.TextInRelation List.IsInfix literal
  | .startsWith => value.TextInRelation List.IsPrefix literal
  | .endsWith => value.TextInRelation List.IsSuffix literal
  | .isIn =>
      (∃ literals, literal = .list literals ∧ ∃ element ∈ literals, value.Equals element) ∨
        (literal.kind ≠ .list ∧ value.Equals literal)

theorem accepts_equals_iff {literal value : Value} :
    accepts .equals literal value = true ↔ value.Equals literal := by
  by_cases absent : literal = .null
  · simp [accepts, Value.Equals, absent]
  · simp [accepts, Value.Equals, equalTo, absent]

theorem accepts_notEquals (literal value : Value) :
    accepts .notEquals literal value = !accepts .equals literal value := by
  simp only [accepts]
  split <;> rfl

theorem ordered_iff
    {accepted : Ordering → Bool} {orders : List Ordering}
    (listed : ∀ order, accepted order = true ↔ order ∈ orders) {literal value : Value} :
    ordered accepted literal value = true ↔ value.InOrder orders literal := by
  simp only [ordered, Value.InOrder, Bool.and_eq_true, Bool.not_eq_true',
    Value.isNull_eq_false_iff, Option.any_eq_true, listed]
  exact and_congr_right fun _ => exists_congr fun _ => and_comm

theorem textual_iff
    {accepted : String → String → Bool} {relates : List Char → List Char → Prop}
    (decides : ∀ text part, accepted text part = true ↔ relates part.toList text.toList)
    {literal value : Value} :
    textual accepted literal value = true ↔ value.TextInRelation relates literal := by
  cases literal with
  | text part => cases value <;> simp [textual, Value.TextInRelation, decides]
  | null | bool | int | float | list | uuid | dateTime => simp [textual, Value.TextInRelation]

theorem memberOf_iff {literals : List Value} {value : Value} :
    memberOf literals value = true ↔ ∃ element ∈ literals, value.Equals element := by
  rw [memberOf, List.any_eq_true]
  exact exists_congr fun element => and_congr_right fun _ => accepts_equals_iff

theorem memberOf_literalSet_iff {literal value : Value} :
    memberOf (literalSet literal) value = true ↔ isIn.Relates literal value := by
  rw [memberOf_iff, Relates]
  cases literal with
  | list literals => simp [literalSet, Value.kind]
  | null | bool | int | float | text | uuid | dateTime => simp [literalSet, Value.kind]

/-- The test of an operator passes the values that stand to the literal as the operator wants. -/
theorem accepts_iff_relates (op : Operator) (literal value : Value) :
    op.accepts literal value = true ↔ op.Relates literal value := by
  cases op with
  | equals => exact accepts_equals_iff
  | notEquals =>
      rw [accepts_notEquals, Bool.not_eq_true', ← Bool.not_eq_true]
      exact not_congr accepts_equals_iff
  | greaterThan | greaterOrEqual | lessThan | lessOrEqual =>
      refine ordered_iff fun order => ?_
      cases order <;> decide
  | contains => exact textual_iff fun _ _ => Search.contains_iff
  | startsWith => exact textual_iff fun _ _ => Search.startsWith_iff
  | endsWith => exact textual_iff fun _ _ => Search.endsWith_iff
  | isIn => exact memberOf_literalSet_iff

end Operator

namespace Predicate

/-- Answers to predicates about a record that are those of a direct evaluation. -/
structure Evaluates (record : Record) (answer : Predicate → Bool) : Prop where
  const : ∀ holds, answer (.const holds) = holds
  compare : ∀ comparison, answer (.compare comparison) = true ↔
    ∃ value ∈ comparison.path.read record, comparison.op.Relates comparison.literal value
  and : ∀ children, answer (.and children) = true ↔ ∀ child ∈ children, answer child = true
  or : ∀ children, answer (.or children) = true ↔ ∃ child ∈ children, answer child = true
  not : ∀ child, answer (.not child) = !answer child

variable {record : Record} {answer : Predicate → Bool}

theorem holds_compare_iff {comparison : Comparison} :
    (Predicate.compare comparison).holds record = true ↔
      ∃ value ∈ comparison.path.read record,
        comparison.op.Relates comparison.literal value := by
  simp only [holds, Comparison.holds, List.any_eq_true, Operator.accepts_iff_relates]

/-- The meaning of predicates is a direct evaluation. -/
theorem evaluates_holds (record : Record) :
    Evaluates record fun predicate => predicate.holds record where
  const _ := rfl
  compare _ := holds_compare_iff
  and children := by rw [holds, allHold_eq_all, List.all_eq_true]
  or children := by rw [holds, someHolds_eq_any, List.any_eq_true]
  not _ := rfl

mutual

/-- There is no other direct evaluation. -/
theorem Evaluates.eq_holds (direct : Evaluates record answer) :
    ∀ predicate : Predicate, answer predicate = predicate.holds record
  | .const holds => direct.const holds
  | .compare comparison => by
      rw [Bool.eq_iff_iff, direct.compare, holds_compare_iff]
  | .not child => by rw [direct.not, direct.eq_holds child, holds]
  | .and children => by
      rw [Bool.eq_iff_iff, direct.and, (evaluates_holds record).and]
      exact forall₂_congr fun child isChild => by rw [direct.eq_holds_of_mem children child isChild]
  | .or children => by
      rw [Bool.eq_iff_iff, direct.or, (evaluates_holds record).or]
      exact exists_congr fun child => and_congr_right fun isChild => by
        rw [direct.eq_holds_of_mem children child isChild]

theorem Evaluates.eq_holds_of_mem (direct : Evaluates record answer) :
    ∀ predicates : List Predicate, ∀ predicate ∈ predicates,
      answer predicate = predicate.holds record
  | [] => List.forall_mem_nil _
  | first :: rest =>
      List.forall_mem_cons.2 ⟨direct.eq_holds first, direct.eq_holds_of_mem rest⟩

end

/--
The answers of the matchers on a record are a direct evaluation of all
predicates, and no other answers are.
-/
theorem evaluates_iff_matcher_test (record : Record) (answer : Predicate → Bool) :
    Evaluates record answer ↔
      ∀ predicate : Predicate, predicate.matcher.test record = answer predicate := by
  simp only [test_matcher_eq]
  constructor
  · intro direct predicate
    exact (direct.eq_holds predicate).symm
  · intro same
    obtain rfl : (fun predicate => predicate.holds record) = answer := funext same
    exact evaluates_holds record

end Predicate

/-! ## Accepted filters -/

namespace Operator

open Value

section Binding

variable {type : ScalarType} {literal operand : Value}

/-- Equality with an operand says what equality with the literal says. -/
theorem equals_operand_iff (bound : Filter.Bound type literal operand) (value : Value) :
    value.Equals operand ↔ value.EqualsLiteral type literal := by
  cases bound with
  | null => simp [Equals, EqualsLiteral]
  | value present coerced =>
      have filled := ScalarType.ne_null_of_coerce coerced
      simp [Equals, EqualsLiteral, filled, present, coerced]

theorem inOrder_operand_iff
    (coerced : type.coerce literal = .ok operand) (orders : List Ordering) (value : Value) :
    value.InOrder orders operand ↔ value.OrderedAgainst orders type literal := by
  simp [InOrder, OrderedAgainst, coerced]

theorem textInRelation_operand_iff
    (coerced : type.coerce literal = .ok operand) (relates : List Char → List Char → Prop)
    (value : Value) :
    value.TextInRelation relates operand ↔ value.TextAgainst relates type literal := by
  simp [TextInRelation, TextAgainst, coerced]

/-- Equality with some operand of a bound set is equality with some literal of the set. -/
theorem exists_equals_operand_iff
    {literals operands : List Value} (bound : List.Forall₂ (Filter.Bound type) literals operands)
    (value : Value) :
    (∃ operand ∈ operands, value.Equals operand) ↔
      ∃ element ∈ literals, value.EqualsLiteral type element := by
  induction bound with
  | nil => simp
  | cons first others ih =>
      rw [List.exists_mem_cons_iff, List.exists_mem_cons_iff, equals_operand_iff first, ih]

/-- The test of a defined operator is what the operator says about the literal. -/
theorem accepts_iff_satisfied
    {op : Operator} (defined : Filter.operatorFault? op type literal = none)
    (bound : Filter.Operand type op literal operand) (value : Value) :
    op.accepts operand value = true ↔ op.Satisfied type literal value := by
  obtain ⟨nullable, _, _⟩ := Filter.operatorFault?_eq_none_iff.1 defined
  rw [accepts_iff_relates]
  cases bound with
  | set boundSet =>
      simp only [Relates, Satisfied, Value.list.injEq, exists_eq_left', Value.kind, ne_eq,
        not_true_eq_false, false_and, or_false, exists_equals_operand_iff boundSet]
  | single other single =>
      -- Only the two equalities take null; for every other operator the literal is coerced.
      have coerced (strict : op.acceptsNull = false) : type.coerce literal = .ok operand := by
        cases single with
        | null => exact absurd (nullable rfl) (by simp [strict])
        | value _ coerced => exact coerced
      cases op with
      | equals => exact equals_operand_iff single value
      | notEquals => exact not_congr (equals_operand_iff single value)
      | greaterThan | greaterOrEqual | lessThan | lessOrEqual =>
          exact inOrder_operand_iff (coerced rfl) _ value
      | contains | startsWith | endsWith =>
          exact textInRelation_operand_iff (coerced rfl) _ value
      | isIn => exact absurd rfl other

end Binding

end Operator

namespace Filter

section Records

variable (catalog : Catalog) (shape : Shape) (record : Record)

/-- A comparison speaks of the values that its path reads and of the type at the end of it. -/
theorem holds_compare_of_resolve
    {path : String} {op : Operator} {literal : Value} {resolved : Path} {type : ScalarType}
    (found : catalog.resolve shape path = .ok resolved) (scalar : resolved.scalar? = some type) :
    Holds catalog shape record (.compare path op literal) ↔
      ∃ value ∈ resolved.read record, op.Satisfied type literal value := by
  simp only [Holds, found, Except.ok.injEq]
  constructor
  · rintro ⟨_, other, rfl, scalarOther, some⟩
    obtain rfl := Option.some.inj (scalar.symm.trans scalarOther)
    exact some
  · intro some
    exact ⟨resolved, type, rfl, scalar, some⟩

/-- An accepted comparison holds when some value at the end of its path satisfies the operator. -/
theorem holds_compileComparison
    {path : String} {op : Operator} {literal : Value} {comparison : Comparison}
    (accepted : compileComparison catalog shape path op literal = .ok comparison) :
    comparison.holds record = true ↔ Holds catalog shape record (.compare path op literal) := by
  obtain ⟨resolved, type, operand, found, scalar, defined, bound, rfl⟩ :=
    compileComparison_eq_ok_iff.1 accepted
  rw [holds_compare_of_resolve catalog shape record found scalar]
  simp only [Comparison.holds, List.any_eq_true, Operator.accepts_iff_satisfied defined bound]

mutual

/-- An accepted node holds as it reads. -/
theorem holds_of_compileAt :
    ∀ (filter : Filter) {depth : Nat} {predicate : Predicate},
      compileAt catalog shape depth filter = .ok predicate →
        (predicate.holds record = true ↔ filter.Holds catalog shape record)
  | .compare path op literal, depth, predicate, accepted => by
      obtain ⟨_, comparison, acceptedLeaf, rfl⟩ := compileAt_compare_eq_ok_iff.1 accepted
      exact holds_compileComparison catalog shape record acceptedLeaf
  | .and children, depth, predicate, accepted => by
      obtain ⟨_, predicates, acceptedAll, rfl⟩ := compileAt_and_eq_ok_iff.1 accepted
      exact (holds_of_compileAllAt children acceptedAll).1
  | .or children, depth, predicate, accepted => by
      obtain ⟨_, predicates, acceptedAll, rfl⟩ := compileAt_or_eq_ok_iff.1 accepted
      exact (holds_of_compileAllAt children acceptedAll).2
  | .not children, depth, predicate, accepted => by
      obtain ⟨_, child, inner, rfl, acceptedChild, rfl⟩ := compileAt_not_eq_ok_iff.1 accepted
      have reads := holds_of_compileAt child acceptedChild
      simp [Predicate.holds, Holds, AllHold, ← reads]

/-- Accepted children hold, all of them or some of them, as they read. -/
theorem holds_of_compileAllAt :
    ∀ (filters : List Filter) {depth : Nat} {predicates : List Predicate},
      compileAllAt catalog shape depth filters = .ok predicates →
        (Predicate.allHold record predicates = true ↔ AllHold catalog shape record filters) ∧
          (Predicate.someHolds record predicates = true ↔
            SomeHolds catalog shape record filters)
  | [], depth, predicates, accepted => by
      obtain rfl := Except.ok.inj accepted
      simp [Predicate.allHold, Predicate.someHolds, AllHold, SomeHolds]
  | filter :: rest, depth, predicates, accepted => by
      obtain ⟨first, others, acceptedFirst, acceptedRest, rfl⟩ :=
        List.forall₂_cons_left_iff.1 (compileAllAt_eq_ok_iff.1 accepted)
      have here := holds_of_compileAt filter acceptedFirst
      have after := holds_of_compileAllAt rest (compileAllAt_eq_ok_iff.2 acceptedRest)
      simp only [Predicate.allHold, Predicate.someHolds, AllHold, SomeHolds, Bool.and_eq_true,
        Bool.or_eq_true]
      exact ⟨and_congr here after.1, or_congr here after.2⟩

end

end Records

/--
The matcher of an accepted filter passes exactly the records that the filter
holds of; an absent filter is accepted and passes every record.
-/
theorem matcher_test_iff_holds (catalog : Catalog) (shape : Shape) (record : Record) :
    (∀ filter predicate, compileOptional catalog shape (some filter) = .ok predicate →
        (predicate.matcher.test record = true ↔ filter.Holds catalog shape record)) ∧
      ∃ predicate, compileOptional catalog shape none = .ok predicate ∧
        predicate.matcher.test record = true := by
  constructor
  · intro filter predicate accepted
    rw [Predicate.test_matcher_eq]
    exact holds_of_compileAt catalog shape record filter accepted
  · refine ⟨Predicate.all, rfl, ?_⟩
    rw [Predicate.test_matcher_eq]
    rfl

/--
An item without a parent, one of whose children has a name with `b` in front,
against a filter through both relations: the matcher passes it, so it has such a
child and its absent parent has neither of the two keys.
-/
theorem matcher_test_iff_holds_treeItem :
    ∃ item filter predicate,
      item = (Sample.treeItem 1 "root").loadMany "children"
        [Sample.treeItem 2 "leaf", Sample.treeItem 3 "bud"] ∧
      filter = Filter.and [.compare "children.name" .startsWith (.text "b"),
        .not [.compare "parent.id" .isIn (.list [.int 1, .float ⟨0x4008000000000000⟩])]] ∧
      compileOptional Sample.catalog Sample.treeItemShape (some filter) = .ok predicate ∧
      predicate.matcher.test item = true ∧
      filter.Holds Sample.catalog Sample.treeItemShape item :=
  ⟨_, _, _, rfl, rfl, rfl, rfl,
    ((matcher_test_iff_holds Sample.catalog Sample.treeItemShape _).1 _ _ rfl).1 rfl⟩

end Filter

end EntityAccess
