import EntityAccess.Proofs.Filter.Acceptance

/-!
# Faults of filters

A node of a filter has a fault when it nests too deep, when it is a negation of
other than one child, or when it is a comparison that fails a check.  A filter
without faulty nodes is accepted and keeps its form; any other is refused with the
fault of the first faulty node, parents before children and left before right.
-/

namespace EntityAccess

/-- The literal is null or can be bound to the type. -/
def ScalarType.Binds (type : ScalarType) (literal : Value) : Prop :=
  literal = .null ∨ ∃ bound, type.coerce literal = .ok bound

namespace Operator

/-- The operator is defined for the literal at a field of the type. -/
structure Defined (type : ScalarType) (literal : Value) (op : Operator) : Prop where
  nullable : literal = .null → op = .equals ∨ op = .notEquals
  orderable : op ∈ orderings → type ∈ ScalarType.ordered
  searchable : op ∈ substrings → type = .text

/-- Why an operator is not defined; each cause supposes that the ones before do not apply. -/
inductive Undefined (type : ScalarType) (literal : Value) (op : Operator) : String → Prop where
  | null (absent : literal = .null) (strict : ¬ (op = .equals ∨ op = .notEquals)) :
      Undefined type literal op "a null literal is only valid with equals or notEquals"
  | unordered (nullable : literal = .null → op = .equals ∨ op = .notEquals)
      (ordering : op ∈ orderings) (other : type ∉ ScalarType.ordered) :
      Undefined type literal op (type.name ++ " values have no ordering")
  | unsearchable (nullable : literal = .null → op = .equals ∨ op = .notEquals)
      (orderable : op ∈ orderings → type ∈ ScalarType.ordered)
      (search : op ∈ substrings) (other : type ≠ .text) :
      Undefined type literal op (type.name ++ " fields do not support substring matching")

/-- The literal suits the operator at a field of the type: a list for membership. -/
def Binds (type : ScalarType) (literal : Value) (op : Operator) : Prop :=
  if op = .isIn then ∃ elements, literal = .list elements ∧ ∀ element ∈ elements, type.Binds element
  else type.Binds literal

/-- Why a literal does not suit the operator; of several elements the first one counts. -/
inductive Unbound (path : String) (type : ScalarType) (literal : Value) :
    Operator → CompileError → Prop where
  | single {op : Operator} {e : CoercionError} (other : op ≠ .isIn) (present : literal ≠ .null)
      (refused : type.coerce literal = .error e) :
      Unbound path type literal op (.typeMismatch path e.message)
  | noList (kind : literal.kind ≠ .list) :
      Unbound path type literal .isIn
        (.typeMismatch path ("`in` expects a list, found " ++ literal.kind.name))
  | element {before after : List Value} {element : Value} {e : CoercionError}
      (elements : literal = .list (before ++ element :: after))
      (earlier : ∀ element ∈ before, type.Binds element) (present : element ≠ .null)
      (refused : type.coerce element = .error e) :
      Unbound path type literal .isIn (.typeMismatch path e.message)

end Operator

/-- The path of a comparison resolves to a scalar field of the type. -/
def Catalog.EndsOn
    (catalog : Catalog) (shape : Shape) (path : String) (type : ScalarType) : Prop :=
  ∃ resolved, catalog.resolve shape path = .ok resolved ∧ resolved.scalar? = some type

namespace Filter

/-- The comparison passes all checks. -/
def Comparable
    (catalog : Catalog) (shape : Shape) (path : String) (op : Operator) (literal : Value) : Prop :=
  ∃ type, catalog.EndsOn shape path type ∧ op.Defined type literal ∧ op.Binds type literal

/-- The first check that a comparison fails. -/
inductive ComparisonFault
    (catalog : Catalog) (shape : Shape) (path : String) (op : Operator) (literal : Value) :
    CompileError → Prop where
  | unresolved {e : PathError} (fails : catalog.resolve shape path = .error e) :
      ComparisonFault catalog shape path op literal (.unknownField path e.message)
  | relation {resolved : Path} (resolves : catalog.resolve shape path = .ok resolved)
      (other : resolved.scalar? = none) :
      ComparisonFault catalog shape path op literal
        (.unknownField path ("`" ++ resolved.leaf.name ++ "` is a relation, not a scalar field"))
  | operator {type : ScalarType} {detail : String} (ends : catalog.EndsOn shape path type)
      (undefined : op.Undefined type literal detail) :
      ComparisonFault catalog shape path op literal (.invalidOperator path op detail)
  | literal {type : ScalarType} {e : CompileError} (ends : catalog.EndsOn shape path type)
      (defined : op.Defined type literal) (unbound : op.Unbound path type literal e) :
      ComparisonFault catalog shape path op literal e

/-- A node of a filter and its level; the root is at level one. -/
structure Node where
  level : Nat
  filter : Filter

mutual

/-- A node with all nodes below it in pre-order. -/
def nodesAt (level : Nat) : Filter → List Node
  | .compare path op literal => [⟨level, .compare path op literal⟩]
  | .and children => ⟨level, .and children⟩ :: nodesAllAt (level + 1) children
  | .or children => ⟨level, .or children⟩ :: nodesAllAt (level + 1) children
  | .not children => ⟨level, .not children⟩ :: nodesAllAt (level + 1) children

def nodesAllAt (level : Nat) : List Filter → List Node
  | [] => []
  | child :: rest => nodesAt level child ++ nodesAllAt level rest

end

/-- The nodes of a filter, parents before children and left before right. -/
def nodes (filter : Filter) : List Node := nodesAt 1 filter

namespace Node

/-- The node has no fault of its own. -/
def WellFormed (catalog : Catalog) (shape : Shape) (node : Node) : Prop :=
  node.level ≤ 32 ∧
    match node.filter with
    | .compare path op literal => Comparable catalog shape path op literal
    | .and _ => True
    | .or _ => True
    | .not children => children.length = 1

/-- The fault of a node; what stands in a node that is too deep does not matter. -/
inductive Fault (catalog : Catalog) (shape : Shape) : Node → CompileError → Prop where
  | tooDeep {level : Nat} {filter : Filter} (deep : 33 ≤ level) :
      Fault catalog shape ⟨level, filter⟩ (.tooDeep 32)
  | arity {level : Nat} {children : List Filter} (fits : level ≤ 32)
      (other : children.length ≠ 1) :
      Fault catalog shape ⟨level, .not children⟩ (.invalidArity "not" 1 children.length)
  | comparison {level : Nat} {path : String} {op : Operator} {literal : Value} {e : CompileError}
      (fits : level ≤ 32) (fault : ComparisonFault catalog shape path op literal e) :
      Fault catalog shape ⟨level, .compare path op literal⟩ e

end Node

/-- The fault of the first of the nodes that is not well formed. -/
def FirstFault (catalog : Catalog) (shape : Shape) (nodes : List Node) (e : CompileError) : Prop :=
  ∃ before node after, nodes = before ++ node :: after ∧
    (∀ earlier ∈ before, earlier.WellFormed catalog shape) ∧ node.Fault catalog shape e

end Filter

/-- The form of a tree of comparisons, each with the segments of its path and its operator. -/
inductive Outline where
  | const (holds : Bool)
  | compare (path : List String) (op : Operator)
  | and (children : List Outline)
  | or (children : List Outline)
  | not (children : List Outline)

mutual

def Filter.outline : Filter → Outline
  | .compare path op _ => .compare (pathSegments path) op
  | .and children => .and (outlineAll children)
  | .or children => .or (outlineAll children)
  | .not children => .not (outlineAll children)

def Filter.outlineAll : List Filter → List Outline
  | [] => []
  | child :: rest => child.outline :: outlineAll rest

end

mutual

def Predicate.outline : Predicate → Outline
  | .const holds => .const holds
  | .compare comparison => .compare comparison.path.segments comparison.op
  | .and children => .and (outlineAll children)
  | .or children => .or (outlineAll children)
  | .not child => .not [child.outline]

def Predicate.outlineAll : List Predicate → List Outline
  | [] => []
  | child :: rest => child.outline :: outlineAll rest

end

/-! ## Comparisons -/

namespace Filter

variable {type : ScalarType} {op : Operator} {literal : Value}

theorem exists_bound_iff : (∃ operand, Bound type literal operand) ↔ type.Binds literal := by
  constructor
  · rintro ⟨operand, _ | ⟨_, coerced⟩⟩
    · exact Or.inl rfl
    · exact Or.inr ⟨operand, coerced⟩
  · intro binds
    by_cases absent : literal = .null
    · subst absent
      exact ⟨.null, .null⟩
    · obtain ⟨operand, coerced⟩ := binds.resolve_left absent
      exact ⟨operand, .value absent coerced⟩

theorem exists_bound_all_iff {literals : List Value} :
    (∃ operands, List.Forall₂ (Bound type) literals operands) ↔
      ∀ literal ∈ literals, type.Binds literal := by
  induction literals with
  | nil => simp
  | cons first rest ih =>
      rw [List.forall_mem_cons, ← exists_bound_iff, ← ih]
      constructor
      · rintro ⟨_, boundAll⟩
        obtain ⟨operand, operands, bound, boundRest, _⟩ := List.forall₂_cons_left_iff.1 boundAll
        exact ⟨⟨operand, bound⟩, operands, boundRest⟩
      · rintro ⟨⟨operand, bound⟩, operands, boundRest⟩
        exact ⟨operand :: operands, .cons bound boundRest⟩

/-- A literal suits an operator when there is an operand for it. -/
theorem exists_operand_iff :
    (∃ operand, Operand type op literal operand) ↔ op.Binds type literal := by
  rw [Operator.Binds]
  split
  · rename_i membership
    subst membership
    constructor
    · rintro ⟨_, ⟨other, _⟩ | bound⟩
      · exact absurd rfl other
      · exact ⟨_, rfl, exists_bound_all_iff.1 ⟨_, bound⟩⟩
    · rintro ⟨elements, rfl, binds⟩
      obtain ⟨operands, bound⟩ := exists_bound_all_iff.2 binds
      exact ⟨_, .set bound⟩
  · rename_i other
    rw [← exists_bound_iff]
    constructor
    · rintro ⟨operand, ⟨_, bound⟩ | _⟩
      · exact ⟨operand, bound⟩
      · exact absurd rfl other
    · rintro ⟨operand, bound⟩
      exact ⟨operand, .single other bound⟩

theorem operatorFault?_eq_none_iff_defined :
    operatorFault? op type literal = none ↔ op.Defined type literal := by
  rw [operatorFault?_eq_none_iff, Operator.acceptsNull_iff, Operator.isOrdering_iff,
    Operator.isTextual_iff, ScalarType.isOrdered_iff]
  exact ⟨fun ⟨nullable, orderable, searchable⟩ => ⟨nullable, orderable, searchable⟩,
    fun ⟨nullable, orderable, searchable⟩ => ⟨nullable, orderable, searchable⟩⟩

/-- The three checks are made in turn, and the first that objects gives the reason. -/
theorem operatorFault?_eq_some_iff {detail : String} :
    operatorFault? op type literal = some detail ↔ op.Undefined type literal detail := by
  have nullFault : (literal.isNull && !op.acceptsNull) = true ↔
      ¬ (literal = .null → op = .equals ∨ op = .notEquals) := by
    rw [← Operator.acceptsNull_iff]
    simp
  have orderFault : (op.isOrdering && !type.isOrdered) = true ↔
      ¬ (op ∈ Operator.orderings → type ∈ ScalarType.ordered) := by
    rw [← Operator.isOrdering_iff, ← ScalarType.isOrdered_iff]
    simp
  have searchFault : (op.isTextual && type != .text) = true ↔
      ¬ (op ∈ Operator.substrings → type = .text) := by
    rw [← Operator.isTextual_iff]
    simp
  rw [operatorFault?]
  constructor
  · intro fault
    split_ifs at fault with null unordered unsearchable
    · obtain ⟨absent, strict⟩ := Classical.not_imp.1 (nullFault.1 null)
      exact Option.some.inj fault ▸ .null absent strict
    · obtain ⟨ordering, other⟩ := Classical.not_imp.1 (orderFault.1 unordered)
      exact Option.some.inj fault ▸ .unordered (not_not.1 (mt nullFault.2 null)) ordering other
    · obtain ⟨search, other⟩ := Classical.not_imp.1 (searchFault.1 unsearchable)
      exact Option.some.inj fault ▸ .unsearchable (not_not.1 (mt nullFault.2 null))
        (not_not.1 (mt orderFault.2 unordered)) search other
  · rintro (⟨absent, strict⟩ | ⟨nullable, ordering, other⟩ | ⟨nullable, orderable, search, other⟩)
    · rw [if_pos (nullFault.2 (Classical.not_imp.2 ⟨absent, strict⟩))]
    · rw [if_neg (mt nullFault.1 (not_not.2 nullable)),
        if_pos (orderFault.2 (Classical.not_imp.2 ⟨ordering, other⟩))]
    · rw [if_neg (mt nullFault.1 (not_not.2 nullable)),
        if_neg (mt orderFault.1 (not_not.2 orderable)),
        if_pos (searchFault.2 (Classical.not_imp.2 ⟨search, other⟩))]

theorem bindLiteral_eq_error_iff {path : Path} {e : CompileError} :
    bindLiteral path type literal = .error e ↔
      ∃ cause, type.coerce literal = .error cause ∧ .typeMismatch path.toText cause.message = e :=
  Outcome.mapError_eq_error_iff

/-- A set is refused with the first element that is not null and cannot be bound. -/
theorem bindSet_eq_error_iff {path : Path} {literals : List Value} {e : CompileError} :
    bindSet path type literals = .error e ↔
      ∃ before element after cause, literals = before ++ element :: after ∧
        (∀ earlier ∈ before, type.Binds earlier) ∧ element ≠ .null ∧
          type.coerce element = .error cause ∧ .typeMismatch path.toText cause.message = e := by
  rw [bindSet, Outcome.mapM_eq_error_iff, Outcome.FirstError]
  simp only [bindElement_eq_ok_iff, exists_bound_iff]
  refine exists_congr fun before => exists_congr fun element => exists_congr fun after => ?_
  by_cases absent : element = .null
  · simp [absent, Value.isNull]
  · have present : element.isNull = false := Value.isNull_eq_false_iff.2 absent
    rw [present, if_neg Bool.false_ne_true, bindLiteral_eq_error_iff]
    simp [absent]

/-- An operand is refused for the reasons that are listed. -/
theorem bindOperand_eq_error_iff
    {path : Path} {e : CompileError} (defined : op.Defined type literal) :
    bindOperand path.toText path op type literal = .error e ↔
      op.Unbound path.toText type literal e := by
  by_cases absent : literal = .null
  · subst absent
    constructor
    · intro refused
      cases refused
    · rintro (⟨_, present, _⟩ | _ | ⟨elements, _⟩)
      · exact absurd rfl present
      · exact absurd (defined.nullable rfl) (by decide)
      · cases elements
  · rw [bindOperand, if_neg (by simpa using absent)]
    by_cases membership : op = .isIn
    · subst membership
      rw [if_pos rfl]
      cases literal with
      | list literals =>
          change (bindSet path type literals).map Value.list = .error e ↔ _
          rw [Outcome.map_eq_error_iff, bindSet_eq_error_iff]
          constructor
          · rintro ⟨before, element, after, cause, rfl, earlier, present, refused, rfl⟩
            exact .element rfl earlier present refused
          · rintro (⟨other, _⟩ | kind | ⟨elements, earlier, present, refused⟩)
            · exact absurd rfl other
            · exact absurd rfl kind
            · exact ⟨_, _, _, _, Value.list.inj elements, earlier, present, refused, rfl⟩
      | null | bool | int | float | text | uuid | dateTime =>
          constructor
          · intro refused
            exact Except.error.inj refused ▸ .noList (by simp [Value.kind])
          · rintro (⟨other, _⟩ | _ | ⟨elements, _⟩)
            · exact absurd rfl other
            · rfl
            · cases elements
    · rw [if_neg membership, bindLiteral_eq_error_iff]
      constructor
      · rintro ⟨cause, refused, rfl⟩
        exact .single membership absent refused
      · rintro (⟨_, _, refused⟩ | _ | _)
        · exact ⟨_, refused, rfl⟩
        · exact absurd rfl membership
        · exact absurd rfl membership

section Records

variable {catalog : Catalog} {shape : Shape} {path : String} {e : CompileError}

/-- A comparison is accepted when it passes all checks. -/
theorem exists_compileComparison_iff :
    (∃ comparison, compileComparison catalog shape path op literal = .ok comparison) ↔
      Comparable catalog shape path op literal := by
  simp only [compileComparison_eq_ok_iff, operatorFault?_eq_none_iff_defined, Comparable,
    Catalog.EndsOn, ← exists_operand_iff]
  constructor
  · rintro ⟨_, resolved, type, operand, resolves, scalar, defined, operates, rfl⟩
    exact ⟨type, ⟨resolved, resolves, scalar⟩, defined, operand, operates⟩
  · rintro ⟨type, ⟨resolved, resolves, scalar⟩, defined, operand, operates⟩
    exact ⟨_, resolved, type, operand, resolves, scalar, defined, operates, rfl⟩

/-- A comparison is refused with the first check that it fails. -/
theorem compileComparison_eq_error_iff :
    compileComparison catalog shape path op literal = .error e ↔
      ComparisonFault catalog shape path op literal e := by
  rw [compileComparison, Outcome.bind_eq_error_iff]
  simp only [Catalog.compilePath, Outcome.mapError_eq_error_iff, Outcome.mapError_eq_ok_iff]
  constructor
  · rintro (⟨cause, fails, rfl⟩ | ⟨resolved, resolves, refused⟩)
    · rw [CompileError.ofPath, Catalog.path_of_resolve_error fails]
      exact .unresolved fails
    · cases scalar : resolved.scalar? with
      | none =>
          simp only [scalar, Except.error.injEq] at refused
          exact refused ▸ .relation resolves scalar
      | some type =>
          have ends : catalog.EndsOn shape path type := ⟨resolved, resolves, scalar⟩
          simp only [scalar] at refused
          cases fault : operatorFault? op type literal with
          | some detail =>
              simp only [fault, Except.error.injEq] at refused
              exact refused ▸ .operator ends (operatorFault?_eq_some_iff.1 fault)
          | none =>
              have defined := operatorFault?_eq_none_iff_defined.1 fault
              simp only [fault, Outcome.bind_eq_error_iff] at refused
              rcases refused with refused | ⟨_, _, done⟩
              · rw [← Catalog.toText_of_resolve resolves, bindOperand_eq_error_iff defined,
                  Catalog.toText_of_resolve resolves] at refused
                exact .literal ends defined refused
              · cases done
  · rintro (fails | ⟨resolves, other⟩ | ⟨⟨resolved, resolves, scalar⟩, undefined⟩ |
      ⟨⟨resolved, resolves, scalar⟩, defined, unbound⟩)
    · exact Or.inl ⟨_, fails, by rw [CompileError.ofPath, Catalog.path_of_resolve_error fails]⟩
    · exact Or.inr ⟨_, resolves, by simp only [other]⟩
    · exact Or.inr ⟨resolved, resolves, by
        simp only [scalar, operatorFault?_eq_some_iff.2 undefined]⟩
    · rw [← Catalog.toText_of_resolve resolves, ← bindOperand_eq_error_iff defined,
        Catalog.toText_of_resolve resolves] at unbound
      refine Or.inr ⟨resolved, resolves, ?_⟩
      simp only [scalar, operatorFault?_eq_none_iff_defined.2 defined, Outcome.bind_eq_error_iff]
      exact Or.inl unbound

end Records

namespace Node

variable (catalog : Catalog) (shape : Shape)

/-- The fault of a node, if it has one. -/
def fault? (node : Node) : Option CompileError :=
  if depthLimit < node.level then some (.tooDeep depthLimit)
  else
    match node.filter with
    | .compare path op literal =>
        Outcome.error? (compileComparison catalog shape path op literal)
    | .and _ => none
    | .or _ => none
    | .not children =>
        if children.length = 1 then none else some (.invalidArity "not" 1 children.length)

variable {catalog shape}

theorem fault?_eq_none_iff {node : Node} :
    node.fault? catalog shape = none ↔ node.WellFormed catalog shape := by
  obtain ⟨level, filter⟩ := node
  have limited : ¬ depthLimit < level ↔ level ≤ 32 := Nat.not_lt
  rw [fault?, WellFormed, ← limited]
  by_cases deep : depthLimit < level
  · simp [deep]
  · cases filter with
    | compare path op literal =>
        simp [deep, Outcome.error?_eq_none_iff, exists_compileComparison_iff]
    | and children | or children | not children => simp [deep]

theorem fault?_eq_some_iff {node : Node} {e : CompileError} :
    node.fault? catalog shape = some e ↔ node.Fault catalog shape e := by
  obtain ⟨level, filter⟩ := node
  by_cases deep : depthLimit < level
  · rw [fault?, if_pos deep]
    constructor
    · intro fault
      exact Option.some.inj fault ▸ .tooDeep deep
    · rintro (_ | ⟨fits, _⟩ | ⟨fits, _⟩)
      · rfl
      · exact absurd deep (Nat.not_lt.2 fits)
      · exact absurd deep (Nat.not_lt.2 fits)
  · have fits : level ≤ 32 := Nat.not_lt.1 deep
    rw [fault?, if_neg deep]
    cases filter with
    | compare path op literal =>
        change Outcome.error? _ = some e ↔ _
        rw [Outcome.error?_eq_some_iff, compileComparison_eq_error_iff]
        constructor
        · exact .comparison fits
        · rintro (tooDeep | _ | ⟨_, fault⟩)
          · exact absurd tooDeep deep
          · exact fault
    | and children | or children =>
        constructor
        · intro fault
          cases fault
        · rintro (tooDeep | _ | _)
          exact absurd tooDeep deep
    | not children =>
        constructor
        · intro fault
          simp only at fault
          split_ifs at fault with single
          exact Option.some.inj fault ▸ .arity fits single
        · rintro (tooDeep | ⟨_, other⟩ | _)
          · exact absurd tooDeep deep
          · exact if_neg other

end Node

section Trees

variable (catalog : Catalog) (shape : Shape)

/-- Whatever stands in it, a node below the limit is refused. -/
theorem compileAt_of_deep {depth : Nat} (deep : depthLimit ≤ depth) (filter : Filter) :
    compileAt catalog shape depth filter = .error (.tooDeep depthLimit) := by
  unfold compileAt
  exact if_pos deep

theorem findSome?_nodesAt_of_deep {level : Nat} (deep : depthLimit < level) (filter : Filter) :
    (nodesAt level filter).findSome? (Node.fault? catalog shape) = some (.tooDeep depthLimit) := by
  cases filter with
  | compare | and | or | not => rw [nodesAt, List.findSome?_cons, Node.fault?, if_pos deep]

/-- Below a junction that is not too deep, only its children matter. -/
theorem findSome?_cons_of_sound {node : Node} (sound : node.fault? catalog shape = none)
    (below : List Node) :
    (node :: below).findSome? (Node.fault? catalog shape) =
      below.findSome? (Node.fault? catalog shape) := by
  rw [List.findSome?_cons, sound]

mutual

/-- The error of a node is the first fault among it and the nodes below it. -/
theorem error?_compileAt :
    ∀ (filter : Filter) (depth : Nat),
      Outcome.error? (compileAt catalog shape depth filter) =
        (nodesAt (depth + 1) filter).findSome? (Node.fault? catalog shape) := by
  intro filter depth
  by_cases deep : depthLimit ≤ depth
  · rw [compileAt_of_deep catalog shape deep,
      findSome?_nodesAt_of_deep catalog shape (Nat.lt_succ_of_le deep)]
    rfl
  · have fits : ¬ depthLimit < depth + 1 := fun below => deep (Nat.le_of_lt_succ below)
    match filter with
    | .compare path op literal =>
        rw [compileAt, if_neg deep, Outcome.error?_map, nodesAt, List.findSome?_singleton,
          Node.fault?, if_neg fits]
    | .and children =>
        rw [compileAt, if_neg deep, Outcome.error?_map, nodesAt, findSome?_cons_of_sound,
          error?_compileAllAt children (depth + 1)]
        exact if_neg fits
    | .or children =>
        rw [compileAt, if_neg deep, Outcome.error?_map, nodesAt, findSome?_cons_of_sound,
          error?_compileAllAt children (depth + 1)]
        exact if_neg fits
    | .not [child] =>
        rw [compileAt, if_neg deep, Outcome.error?_map, nodesAt, findSome?_cons_of_sound,
          nodesAllAt, nodesAllAt, List.append_nil, error?_compileAt child (depth + 1)]
        exact if_neg fits
    | .not [] =>
        rw [compileAt, if_neg deep, nodesAt, List.findSome?_cons, Node.fault?, if_neg fits]
        · rfl
        · simp
    | .not (first :: second :: others) =>
        rw [compileAt, if_neg deep, nodesAt, List.findSome?_cons, Node.fault?, if_neg fits]
        · simp [Outcome.error?]
        · simp

/-- The error of several nodes is the first fault among them and the nodes below them. -/
theorem error?_compileAllAt :
    ∀ (filters : List Filter) (depth : Nat),
      Outcome.error? (compileAllAt catalog shape depth filters) =
        (nodesAllAt (depth + 1) filters).findSome? (Node.fault? catalog shape)
  | [], _ => rfl
  | filter :: rest, depth => by
      rw [compileAllAt, nodesAllAt, List.findSome?_append, ← error?_compileAt filter depth,
        ← error?_compileAllAt rest depth]
      cases compileAt catalog shape depth filter with
      | error e => rfl
      | ok first => cases compileAllAt catalog shape depth rest <;> rfl

end

mutual

/-- An accepted node keeps its form. -/
theorem outline_of_compileAt :
    ∀ (filter : Filter) {depth : Nat} {predicate : Predicate},
      compileAt catalog shape depth filter = .ok predicate → predicate.outline = filter.outline
  | .compare path op literal, depth, predicate, accepted => by
      obtain ⟨_, comparison, acceptedLeaf, rfl⟩ := compileAt_compare_eq_ok_iff.1 accepted
      obtain ⟨resolved, _, _, resolves, _, _, _, rfl⟩ := compileComparison_eq_ok_iff.1 acceptedLeaf
      rw [Predicate.outline, Filter.outline, (Catalog.leads_of_resolve resolves).2]
  | .and children, depth, predicate, accepted => by
      obtain ⟨_, predicates, acceptedAll, rfl⟩ := compileAt_and_eq_ok_iff.1 accepted
      rw [Predicate.outline, Filter.outline, outlineAll_of_compileAllAt children acceptedAll]
  | .or children, depth, predicate, accepted => by
      obtain ⟨_, predicates, acceptedAll, rfl⟩ := compileAt_or_eq_ok_iff.1 accepted
      rw [Predicate.outline, Filter.outline, outlineAll_of_compileAllAt children acceptedAll]
  | .not children, depth, predicate, accepted => by
      obtain ⟨_, child, inner, rfl, acceptedChild, rfl⟩ := compileAt_not_eq_ok_iff.1 accepted
      rw [Predicate.outline, Filter.outline, outline_of_compileAt child acceptedChild]
      rfl

theorem outlineAll_of_compileAllAt :
    ∀ (filters : List Filter) {depth : Nat} {predicates : List Predicate},
      compileAllAt catalog shape depth filters = .ok predicates →
        Predicate.outlineAll predicates = Filter.outlineAll filters
  | [], depth, predicates, accepted => by
      obtain rfl := Except.ok.inj accepted
      rfl
  | filter :: rest, depth, predicates, accepted => by
      obtain ⟨first, others, acceptedFirst, acceptedRest, rfl⟩ :=
        List.forall₂_cons_left_iff.1 (compileAllAt_eq_ok_iff.1 accepted)
      rw [Predicate.outlineAll, Filter.outlineAll, outline_of_compileAt filter acceptedFirst,
        outlineAll_of_compileAllAt rest (compileAllAt_eq_ok_iff.2 acceptedRest)]

end

/--
A filter is accepted exactly when all its nodes are well formed, and keeps its
form.  It is refused with the fault of the first node that is not.
-/
theorem compile_reports_first_fault (filter : Filter) :
    ((∃ predicate, compile catalog shape filter = .ok predicate) ↔
        ∀ node ∈ filter.nodes, node.WellFormed catalog shape) ∧
      (∀ e, compile catalog shape filter = .error e ↔ FirstFault catalog shape filter.nodes e) ∧
        ∀ predicate, compile catalog shape filter = .ok predicate →
          predicate.outline = filter.outline := by
  have first := error?_compileAt catalog shape filter 0
  refine ⟨?_, fun e => ?_, fun predicate => outline_of_compileAt catalog shape filter⟩
  · rw [compile, ← Outcome.error?_eq_none_iff, first, List.findSome?_eq_none_iff]
    exact forall₂_congr fun node _ => Node.fault?_eq_none_iff
  · rw [compile, ← Outcome.error?_eq_some_iff, first, List.findSome?_eq_some_iff]
    simp only [Node.fault?_eq_some_iff, Node.fault?_eq_none_iff]
    constructor
    · rintro ⟨before, node, after, split, fault, earlier⟩
      exact ⟨before, node, after, split, earlier, fault⟩
    · rintro ⟨before, node, after, split, earlier, fault⟩
      exact ⟨before, node, after, split, fault, earlier⟩

end Trees

/--
A comparison below 31 negations is accepted, below 32 of them it is too deep.  A
negation of two filters is the first fault of a conjunction, before the relation
inside it and the nesting behind it.
-/
theorem compile_reports_first_fault_person :
    let adult := Filter.compare "age" .greaterThan (.int 17)
    let urban := Filter.compare "city" .notEquals .null
    let mixed := Filter.and [adult, .not [urban, adult], Nat.repeat negate 32 adult]
    (∀ node ∈ (Nat.repeat negate 31 adult).nodes,
        node.WellFormed Sample.catalog Sample.personShape) ∧
      (∃ predicate,
        compile Sample.catalog Sample.personShape (Nat.repeat negate 31 adult) = .ok predicate ∧
          predicate.outline = (Nat.repeat negate 31 adult).outline) ∧
      FirstFault Sample.catalog Sample.personShape
        (Nat.repeat negate 32 adult).nodes (.tooDeep 32) ∧
      FirstFault Sample.catalog Sample.personShape mixed.nodes (.invalidArity "not" 1 2) := by
  intro adult urban mixed
  have reports := compile_reports_first_fault Sample.catalog Sample.personShape
  have accepted : ∃ predicate,
      compile Sample.catalog Sample.personShape (Nat.repeat negate 31 adult) = .ok predicate :=
    ⟨_, rfl⟩
  obtain ⟨predicate, done⟩ := accepted
  exact ⟨(reports _).1.1 ⟨predicate, done⟩, ⟨predicate, done, (reports _).2.2 predicate done⟩,
    ((reports _).2.1 _).1 rfl, ((reports _).2.1 _).1 rfl⟩

end Filter

end EntityAccess
