import EntityAccess.Proofs.Filter.Faults
import EntityAccess.Proofs.Filter.Meaning
import EntityAccess.Proofs.Record.Reading

/-!
# Laws of operators

Membership in a set is a disjunction of equalities, also in what it is refused for.
An order that includes equality is the strict order or equality, and where a path
reads a single value, inequality is the opposite of equality.
-/

namespace EntityAccess

/-- To stand in an order or be equal is one or the other, if the literal is not null. -/
theorem Value.orderedAgainst_or_equal_iff
    {value literal : Value} {type : ScalarType} (present : literal ≠ .null) (order : Ordering) :
    value.OrderedAgainst [order, .eq] type literal ↔
      value.OrderedAgainst [order] type literal ∨ value.EqualsLiteral type literal := by
  simp only [OrderedAgainst, EqualsLiteral, present, false_and, false_or, ne_eq, not_false_eq_true,
    true_and, List.mem_cons, List.not_mem_nil, or_false, exists_eq_or_imp, exists_eq_left]
  constructor
  · rintro ⟨filled, bound, coerced, inOrder | equal⟩
    · exact Or.inl ⟨filled, bound, coerced, inOrder⟩
    · exact Or.inr ⟨filled, bound, coerced, equal⟩
  · rintro (⟨filled, bound, coerced, inOrder⟩ | ⟨filled, bound, coerced, equal⟩)
    · exact ⟨filled, bound, coerced, Or.inl inOrder⟩
    · exact ⟨filled, bound, coerced, Or.inr equal⟩

namespace Operator

/-- The orders that include equality, each with the strict one. -/
def weakened : List (Operator × Operator) :=
  [(.lessOrEqual, .lessThan), (.greaterOrEqual, .greaterThan)]

variable {weak strict : Operator}

/-- Both orders take single literals that are not null, at the same types. -/
theorem of_mem_weakened (pair : (weak, strict) ∈ weakened) :
    weak ≠ .isIn ∧ strict ≠ .isIn ∧ weak.acceptsNull = false ∧
      ∀ type literal, Filter.operatorFault? strict type literal =
        Filter.operatorFault? weak type literal := by
  simp only [weakened, List.mem_cons, Prod.mk.injEq, List.not_mem_nil, or_false] at pair
  rcases pair with ⟨rfl, rfl⟩ | ⟨rfl, rfl⟩
  · exact ⟨by decide, by decide, rfl, fun _ _ => rfl⟩
  · exact ⟨by decide, by decide, rfl, fun _ _ => rfl⟩

theorem satisfied_weak_iff
    (pair : (weak, strict) ∈ weakened) {type : ScalarType} {literal value : Value}
    (present : literal ≠ .null) :
    weak.Satisfied type literal value ↔
      strict.Satisfied type literal value ∨ equals.Satisfied type literal value := by
  simp only [weakened, List.mem_cons, Prod.mk.injEq, List.not_mem_nil, or_false] at pair
  rcases pair with ⟨rfl, rfl⟩ | ⟨rfl, rfl⟩
  · exact Value.orderedAgainst_or_equal_iff present .lt
  · exact Value.orderedAgainst_or_equal_iff present .gt

end Operator

namespace Filter

/-- What a filter answers about records, or why it is refused. -/
def answers (catalog : Catalog) (shape : Shape) (filter : Filter) :
    Except CompileError (Record → Bool) :=
  (compile catalog shape filter).map Predicate.test

variable {catalog : Catalog} {shape : Shape} {path : String} {literal : Value}

/-- An accepted filter answers as it reads. -/
theorem answer_iff_holds
    {filter : Filter} {answer : Record → Bool}
    (answered : answers catalog shape filter = .ok answer) (record : Record) :
    answer record = true ↔ filter.Holds catalog shape record := by
  obtain ⟨predicate, accepted, rfl⟩ := Outcome.map_eq_ok_iff.1 answered
  rw [Predicate.test, Predicate.test_matcher_eq]
  exact holds_of_compileAt catalog shape record filter accepted

/-- A value is in a set when it is equal to an element. -/
theorem holds_isIn_iff (literals : List Value) (record : Record) :
    (Filter.compare path .isIn (.list literals)).Holds catalog shape record ↔
      (Filter.or (literals.map (.compare path .equals))).Holds catalog shape record := by
  rw [Holds, Holds, someHolds_iff]
  simp only [List.mem_map, exists_exists_and_eq_and, Holds, Operator.Satisfied, Value.list.injEq,
    exists_eq_left']
  constructor
  · rintro ⟨resolved, type, resolves, scalar, value, reads, element, isElement, equal⟩
    exact ⟨element, isElement, resolved, type, resolves, scalar, value, reads, equal⟩
  · rintro ⟨element, isElement, resolved, type, resolves, scalar, value, reads, equal⟩
    exact ⟨resolved, type, resolves, scalar, value, reads, element, isElement, equal⟩

/-- A path that ends on no scalar is refused alike under all operators and literals. -/
theorem refused_or_endsOn (catalog : Catalog) (shape : Shape) (path : String) :
    (∃ e, ∀ op literal, compileComparison catalog shape path op literal = .error e) ∨
      ∃ type, catalog.EndsOn shape path type := by
  cases resolves : catalog.resolve shape path with
  | error e =>
      exact Or.inl ⟨_, fun op literal => compileComparison_eq_error_iff.2 (.unresolved resolves)⟩
  | ok resolved =>
      cases scalar : resolved.scalar? with
      | none =>
          exact Or.inl ⟨_, fun op literal =>
            compileComparison_eq_error_iff.2 (.relation resolves scalar)⟩
      | some type => exact Or.inr ⟨type, resolved, resolves, scalar⟩

/-- Equality is defined for every type and every literal. -/
theorem operatorFault?_equals (type : ScalarType) (literal : Value) :
    operatorFault? .equals type literal = none :=
  operatorFault?_eq_none_iff.2
    ⟨fun _ => rfl, fun ordering => absurd ordering (by decide),
      fun textual => absurd textual (by decide)⟩

/-- Behind a path that is in order, a defined operator is refused for its literal alone. -/
theorem error?_compileComparison
    {resolved : Path} {type : ScalarType} {op : Operator}
    (resolves : catalog.resolve shape path = .ok resolved) (scalar : resolved.scalar? = some type)
    (defined : operatorFault? op type literal = none) :
    Outcome.error? (compileComparison catalog shape path op literal) =
      Outcome.error? (bindOperand path resolved op type literal) := by
  have compiled : catalog.compilePath shape path = .ok resolved :=
    Outcome.mapError_eq_ok_iff.2 resolves
  simp only [compileComparison, compiled, bind, Except.bind, scalar, defined]
  cases bindOperand path resolved op type literal <;> rfl

/-- A set that is not empty is refused as the equalities with its elements are. -/
theorem error?_compileComparison_isIn {literals : List Value} (more : literals ≠ []) :
    Outcome.error? (compileComparison catalog shape path .isIn (.list literals)) =
      Outcome.error? (literals.mapM (compileComparison catalog shape path .equals)) := by
  rcases refused_or_endsOn catalog shape path with ⟨e, refused⟩ | ⟨type, resolved, resolves, scalar⟩
  · obtain ⟨first, rest, rfl⟩ := List.exists_cons_of_ne_nil more
    rw [List.mapM_cons, refused, refused]
    rfl
  · rw [error?_compileComparison resolves scalar rfl]
    change Outcome.error? ((bindSet resolved type literals).map Value.list) = _
    rw [Outcome.error?_map, bindSet]
    refine Outcome.error?_mapM_congr literals fun element => ?_
    rw [error?_compileComparison resolves scalar (operatorFault?_equals type element)]
    rfl

theorem compileAllAt_eq_mapM (depth : Nat) (filters : List Filter) :
    compileAllAt catalog shape depth filters = filters.mapM (compileAt catalog shape depth) := by
  induction filters with
  | nil => rfl
  | cons filter rest ih =>
      rw [compileAllAt, List.mapM_cons, ih]

/-- Membership in a set and the disjunction of its equalities are refused alike. -/
theorem error?_compile_isIn {literals : List Value} (more : literals ≠ []) :
    Outcome.error? (compile catalog shape (.compare path .isIn (.list literals))) =
      Outcome.error? (compile catalog shape (.or (literals.map (.compare path .equals)))) := by
  have shallow : ∀ depth < depthLimit, ∀ op literal,
      Outcome.error? (compileAt catalog shape depth (.compare path op literal)) =
        Outcome.error? (compileComparison catalog shape path op literal) := by
    intro depth fits op literal
    rw [compileAt, if_neg (Nat.not_le.2 fits), Outcome.error?_map]
  rw [compile, compile, shallow 0 (by decide), error?_compileComparison_isIn more]
  conv_rhs => rw [compileAt, if_neg (by decide), Outcome.error?_map, compileAllAt_eq_mapM,
    List.mapM_map]
  exact Outcome.error?_mapM_congr literals fun literal =>
    (shallow 1 (by decide) .equals literal).symm

/-! ## Operators of one comparison -/

/-- An accepted comparison has a scalar at the end of its path, and its operator is defined. -/
theorem defined_of_answers
    {op : Operator} {answer : Record → Bool}
    (answered : answers catalog shape (.compare path op literal) = .ok answer) :
    ∃ resolved type, catalog.resolve shape path = .ok resolved ∧ resolved.scalar? = some type ∧
      operatorFault? op type literal = none ∧ ∃ operand, Operand type op literal operand := by
  obtain ⟨_, accepted, _⟩ := Outcome.map_eq_ok_iff.1 answered
  obtain ⟨_, _, acceptedLeaf, _⟩ := compileAt_compare_eq_ok_iff.1 accepted
  obtain ⟨resolved, type, operand, resolves, scalar, defined, operates, _⟩ :=
    compileComparison_eq_ok_iff.1 acceptedLeaf
  exact ⟨resolved, type, resolves, scalar, defined, operand, operates⟩

/-- A comparison that is accepted is accepted with every other operator that is defined. -/
theorem exists_answers_of_defined
    {op other : Operator} (single : op ≠ .isIn) (singleOther : other ≠ .isIn)
    (defined : ∀ type, operatorFault? op type literal = none →
      operatorFault? other type literal = none)
    {answer : Record → Bool}
    (answered : answers catalog shape (.compare path op literal) = .ok answer) :
    ∃ otherAnswer, answers catalog shape (.compare path other literal) = .ok otherAnswer := by
  obtain ⟨resolved, type, resolves, scalar, opDefined, operand, operates⟩ :=
    defined_of_answers answered
  cases operates with
  | set _ => exact absurd rfl single
  | single _ bound =>
      have accepted := compileComparison_eq_ok_iff.2 ⟨resolved, type, operand, resolves, scalar,
        defined type opDefined, .single singleOther bound, rfl⟩
      have atRoot := compileAt_compare_eq_ok_iff.2 ⟨(by decide : 0 < depthLimit), _, accepted, rfl⟩
      exact ⟨_, Outcome.map_eq_ok_iff.2 ⟨_, atRoot, rfl⟩⟩

section Readings

variable {resolved : Path} {type : ScalarType} {record : Record}

/-- An order that includes equality holds when the strict one or equality does. -/
theorem holds_weak_iff
    (resolves : catalog.resolve shape path = .ok resolved) (scalar : resolved.scalar? = some type)
    {weak strict : Operator} (pair : (weak, strict) ∈ Operator.weakened)
    (present : literal ≠ .null) :
    (Filter.compare path weak literal).Holds catalog shape record ↔
      (Filter.compare path strict literal).Holds catalog shape record ∨
        (Filter.compare path .equals literal).Holds catalog shape record := by
  simp only [holds_compare_of_resolve catalog shape record resolves scalar,
    Operator.satisfied_weak_iff pair present, and_or_left, exists_or]

/-- Where a path reads one value, inequality holds when equality does not. -/
theorem holds_notEquals_iff
    (resolves : catalog.resolve shape path = .ok resolved) (scalar : resolved.scalar? = some type)
    {value : Value} (reads : resolved.read record = [value]) :
    (Filter.compare path .notEquals literal).Holds catalog shape record ↔
      ¬ (Filter.compare path .equals literal).Holds catalog shape record := by
  simp only [holds_compare_of_resolve catalog shape record resolves scalar, reads,
    List.mem_singleton, exists_eq_left, Operator.Satisfied]

end Readings

/--
Membership in a set that is not empty is refused or answered as the disjunction
of its equalities.  An order that includes equality holds when the strict one or
equality does, and all three are accepted when it is.  Where a path reads one
value, inequality is accepted with equality and holds when equality does not.
-/
theorem isIn_weak_notEquals_reduce_to_equals (catalog : Catalog) (shape : Shape) (path : String) :
    (∀ literals, literals ≠ [] →
        answers catalog shape (.compare path .isIn (.list literals)) =
          answers catalog shape (.or (literals.map (.compare path .equals)))) ∧
      (∀ weak strict, (weak, strict) ∈ Operator.weakened → ∀ literal either,
        answers catalog shape (.compare path weak literal) = .ok either →
          ∃ strictly same, answers catalog shape (.compare path strict literal) = .ok strictly ∧
            answers catalog shape (.compare path .equals literal) = .ok same ∧
            ∀ record, either record = (strictly record || same record)) ∧
      ∀ resolved, catalog.resolve shape path = .ok resolved → resolved.isSingleValued = true →
        ∀ literal unequal, answers catalog shape (.compare path .notEquals literal) = .ok unequal →
          ∃ same, answers catalog shape (.compare path .equals literal) = .ok same ∧
            ∀ record, record.Linked catalog shape → unequal record = !same record := by
  refine ⟨fun literals more => ?set, fun weak strict pair literal either weakly => ?order,
    fun resolved resolves single literal unequal differs => ?inequality⟩
  case set =>
    refine Outcome.map_eq_map (error?_compile_isIn more) fun member joined isIn isOr => ?_
    have asMember := answer_iff_holds (Outcome.map_eq_ok_iff.2 ⟨member, isIn, rfl⟩)
    have asJoined := answer_iff_holds (Outcome.map_eq_ok_iff.2 ⟨joined, isOr, rfl⟩)
    exact funext fun record => Bool.eq_iff_iff.2 <|
      (asMember record).trans ((holds_isIn_iff literals record).trans (asJoined record).symm)
  case order =>
    obtain ⟨resolved, type, resolves, scalar, defined, _⟩ := defined_of_answers weakly
    obtain ⟨isSingle, isSingleStrict, needsValue, sameFault⟩ := Operator.of_mem_weakened pair
    have present : literal ≠ .null := fun absent =>
      absurd ((operatorFault?_eq_none_iff.1 defined).1 absent) (by simp [needsValue])
    obtain ⟨strictly, isLess⟩ := exists_answers_of_defined isSingle isSingleStrict
      (fun type => (sameFault type literal).trans) weakly
    obtain ⟨same, isEqual⟩ := exists_answers_of_defined isSingle (by decide)
      (fun type _ => operatorFault?_equals type literal) weakly
    refine ⟨strictly, same, isLess, isEqual, fun record => ?_⟩
    rw [Bool.eq_iff_iff, Bool.or_eq_true, answer_iff_holds weakly, answer_iff_holds isLess,
      answer_iff_holds isEqual]
    exact holds_weak_iff resolves scalar pair present
  case inequality =>
    obtain ⟨_, type, resolvesAgain, scalar, _⟩ := defined_of_answers differs
    obtain rfl := Except.ok.inj (resolves.symm.trans resolvesAgain)
    obtain ⟨same, isEqual⟩ := exists_answers_of_defined (by decide) (by decide)
      (fun type _ => operatorFault?_equals type literal) differs
    refine ⟨same, isEqual, fun record linked => ?_⟩
    have reads := Path.read_of_isSingleValued (Catalog.leads_of_resolve resolves).1 linked single
    rw [Bool.eq_iff_iff, Bool.not_eq_true', ← Bool.not_eq_true, answer_iff_holds differs,
      answer_iff_holds isEqual]
    exact holds_notEquals_iff resolves scalar reads

/-- A leaf under the oak has the oak's number for a parent; a root has none, which is not it. -/
theorem isIn_weak_notEquals_reduce_to_equals_parentId :
    let root := Sample.treeItem 1 "root"
    let leaf := Sample.withParent (Sample.treeItem 2 "leaf") (Sample.treeItem 9 "oak")
    let answersOf := fun op literal =>
      answers Sample.catalog Sample.treeItemShape (.compare "parent.id" op literal)
    answersOf .isIn (.list [.null, .int 9]) =
        answers Sample.catalog Sample.treeItemShape
          (.or ([.null, .int 9].map (.compare "parent.id" .equals))) ∧
      ∃ atMost below same unequal,
        answersOf .lessOrEqual (.int 9) = .ok atMost ∧ answersOf .lessThan (.int 9) = .ok below ∧
          answersOf .equals (.int 9) = .ok same ∧ answersOf .notEquals (.int 9) = .ok unequal ∧
          (∀ record, atMost record = (below record || same record)) ∧
          (atMost leaf, below leaf, same leaf) = (true, false, true) ∧
          unequal leaf = !same leaf ∧ unequal root = !same root ∧
          (unequal leaf, unequal root) = (false, true) := by
  obtain ⟨sets, orders, inequalities⟩ :=
    isIn_weak_notEquals_reduce_to_equals Sample.catalog Sample.treeItemShape "parent.id"
  obtain ⟨below, same, isBelow, isSame, joined⟩ :=
    orders .lessOrEqual .lessThan (by decide) (.int 9) _ rfl
  obtain ⟨equal, isEqual, opposite⟩ := inequalities _ rfl rfl (.int 9) _ rfl
  obtain rfl := Except.ok.inj (isSame.symm.trans isEqual)
  have linkedLeaf := (Sample.conforms_withParent 2 9 "leaf" "oak").linked
  have linkedRoot := (Sample.conforms_treeItem 1 "root").linked
  obtain rfl := Except.ok.inj isBelow
  obtain rfl := Except.ok.inj isSame
  exact ⟨sets [.null, .int 9] (List.cons_ne_nil _ _), _, _, _, _, rfl, rfl, rfl, rfl, joined, rfl,
    opposite _ linkedLeaf, opposite _ linkedRoot, rfl⟩

end Filter

end EntityAccess
