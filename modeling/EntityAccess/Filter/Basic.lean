import EntityAccess.Filter.Predicate

/-!
# Filters

The description of a filter as a client sends it: comparisons of dotted paths with
literals, combined by `and`, `or` and `not`.  Nothing in it is checked; a `not` may
even have any number of children.  A filter becomes a predicate by resolving its
paths and binding its literals to the types of their fields.  What an unchecked
filter says about a record is defined without a predicate in between.
-/

namespace EntityAccess

/-- An unchecked filter. -/
inductive Filter where
  | compare (path : String) (op : Operator) (literal : Value)
  | and (children : List Filter)
  | or (children : List Filter)
  | not (children : List Filter)
  deriving Inhabited

namespace Filter

def negate (child : Filter) : Filter := .not [child]

section Comparisons

variable {α : Type} [ToValue α] (path : String) (literal : α)

def equals : Filter := .compare path .equals (toValue literal)

def notEquals : Filter := .compare path .notEquals (toValue literal)

def greaterThan : Filter := .compare path .greaterThan (toValue literal)

def greaterOrEqual : Filter := .compare path .greaterOrEqual (toValue literal)

def lessThan : Filter := .compare path .lessThan (toValue literal)

def lessOrEqual : Filter := .compare path .lessOrEqual (toValue literal)

end Comparisons

/-- The text at the end of the path has the given part. -/
def contains (path part : String) : Filter := .compare path .contains (.text part)

def startsWith (path part : String) : Filter := .compare path .startsWith (.text part)

def endsWith (path part : String) : Filter := .compare path .endsWith (.text part)

def isIn {α : Type} [ToValue α] (path : String) (literals : List α) : Filter :=
  .compare path .isIn (toValue literals)

end Filter

/-! ## Checking -/

/-- Why a filter, an expansion or an ordering does not fit a shape. -/
inductive CompileError where
  /-- The path does not resolve, or ends on the wrong kind of field. -/
  | unknownField (path detail : String)
  /-- The literal does not fit the type of the field. -/
  | typeMismatch (path detail : String)
  /-- The operator is not defined for the field or the literal. -/
  | invalidOperator (path : String) (op : Operator) (detail : String)
  /-- The combinator has the wrong number of children. -/
  | invalidArity (combinator : String) (expected found : Nat)
  /-- The tree nests deeper than the limit. -/
  | tooDeep (limit : Nat)
  deriving DecidableEq, Repr

namespace CompileError

def message : CompileError → String
  | .unknownField path detail => "unknown field `" ++ path ++ "`: " ++ detail
  | .typeMismatch path detail => "type mismatch on `" ++ path ++ "`: " ++ detail
  | .invalidOperator path op detail =>
      "operator `" ++ op.name ++ "` is invalid on `" ++ path ++ "`: " ++ detail
  | .invalidArity combinator expected found =>
      "`" ++ combinator ++ "` takes exactly " ++ toString expected ++ " child, found " ++
        toString found
  | .tooDeep limit => "filter nesting exceeds the maximum depth of " ++ toString limit

/-- A path that does not resolve is an unknown field. -/
def ofPath (e : PathError) : CompileError :=
  .unknownField e.path e.message

end CompileError

namespace Catalog

def compilePath
    (catalog : Catalog) (shape : Shape) (path : String) : Except CompileError Path :=
  (catalog.resolve shape path).mapError CompileError.ofPath

end Catalog

namespace Filter

def depthLimit : Nat := 32

/-- Bind one literal that is not null to the type at the end of a path. -/
def bindLiteral (path : Path) (type : ScalarType) (literal : Value) : Except CompileError Value :=
  (type.coerce literal).mapError fun e => .typeMismatch path.toText e.message

/-- Bind the literals of a membership test; null stands for absence and is kept. -/
def bindSet (path : Path) (type : ScalarType) (literals : List Value) :
    Except CompileError (List Value) :=
  literals.mapM fun literal =>
    if literal.isNull then .ok .null else bindLiteral path type literal

/-- The reason why an operator is not defined for a field type and a literal, if there is one. -/
def operatorFault? (op : Operator) (type : ScalarType) (literal : Value) : Option String :=
  if literal.isNull && !op.acceptsNull then
    some "a null literal is only valid with equals or notEquals"
  else if op.isOrdering && !type.isOrdered then some (type.name ++ " values have no ordering")
  else if op.isTextual && type != .text then
    some (type.name ++ " fields do not support substring matching")
  else none

/-- The literal of a comparison, bound to the type at the end of its path. -/
def bindOperand
    (source : String) (path : Path) (op : Operator) (type : ScalarType)
    (literal : Value) : Except CompileError Value :=
  if literal.isNull then .ok .null
  else if op = .isIn then
    match literal.asList? with
    | none => .error (.typeMismatch source ("`in` expects a list, found " ++ literal.kind.name))
    | some literals => (bindSet path type literals).map .list
  else bindLiteral path type literal

def compileComparison
    (catalog : Catalog) (shape : Shape) (source : String) (op : Operator)
    (literal : Value) : Except CompileError Comparison := do
  let path ← catalog.compilePath shape source
  match path.scalar? with
  | none =>
      .error (.unknownField source ("`" ++ path.leaf.name ++ "` is a relation, not a scalar field"))
  | some type =>
      match operatorFault? op type literal with
      | some detail => .error (.invalidOperator source op detail)
      | none => return ⟨path, op, ← bindOperand source path op type literal⟩

mutual

/-- Check a node that lies below the given number of levels. -/
def compileAt (catalog : Catalog) (shape : Shape) (depth : Nat) (filter : Filter) :
    Except CompileError Predicate :=
  if depthLimit ≤ depth then .error (.tooDeep depthLimit)
  else
    match filter with
    | .compare path op literal => (compileComparison catalog shape path op literal).map .compare
    | .and children => (compileAllAt catalog shape (depth + 1) children).map .and
    | .or children => (compileAllAt catalog shape (depth + 1) children).map .or
    | .not [child] => (compileAt catalog shape (depth + 1) child).map .not
    | .not children => .error (.invalidArity "not" 1 children.length)

def compileAllAt (catalog : Catalog) (shape : Shape) (depth : Nat) :
    List Filter → Except CompileError (List Predicate)
  | [] => .ok []
  | child :: rest => do
      let first ← compileAt catalog shape depth child
      return first :: (← compileAllAt catalog shape depth rest)

end

def compile (catalog : Catalog) (shape : Shape) (filter : Filter) :
    Except CompileError Predicate :=
  compileAt catalog shape 0 filter

/-- Check an optional filter; an absent one holds of every record. -/
def compileOptional (catalog : Catalog) (shape : Shape) :
    Option Filter → Except CompileError Predicate
  | none => .ok Predicate.all
  | some filter => compile catalog shape filter

end Filter

/-! ## Meaning -/

namespace Value

/--
A value equals a literal at a field of the given type: both are null, or neither
is and the value compares equal to the bound literal.
-/
def EqualsLiteral (value : Value) (type : ScalarType) (literal : Value) : Prop :=
  (literal = .null ∧ value = .null) ∨
    (literal ≠ .null ∧ value ≠ .null ∧
      ∃ bound, type.coerce literal = .ok bound ∧ value.compare? bound = some .eq)

/-- A value that is present stands in one of the given orders to the bound literal. -/
def OrderedAgainst
    (value : Value) (orders : List Ordering) (type : ScalarType) (literal : Value) : Prop :=
  value ≠ .null ∧
    ∃ bound, type.coerce literal = .ok bound ∧
      ∃ order ∈ orders, value.compare? bound = some order

/-- A text stands in a relation to the text that the literal is bound to. -/
def TextAgainst
    (value : Value) (relates : List Char → List Char → Prop) (type : ScalarType)
    (literal : Value) : Prop :=
  ∃ part text, type.coerce literal = .ok (.text part) ∧ value = .text text ∧
    relates part.toList text.toList

end Value

namespace Operator

/-- A value satisfies an operator against a literal at a field of the given type. -/
def Satisfied (type : ScalarType) (literal value : Value) : Operator → Prop
  | .equals => value.EqualsLiteral type literal
  | .notEquals => ¬ value.EqualsLiteral type literal
  | .greaterThan => value.OrderedAgainst [.gt] type literal
  | .greaterOrEqual => value.OrderedAgainst [.gt, .eq] type literal
  | .lessThan => value.OrderedAgainst [.lt] type literal
  | .lessOrEqual => value.OrderedAgainst [.lt, .eq] type literal
  | .contains => value.TextAgainst List.IsInfix type literal
  | .startsWith => value.TextAgainst List.IsPrefix type literal
  | .endsWith => value.TextAgainst List.IsSuffix type literal
  | .isIn => ∃ literals, literal = .list literals ∧
      ∃ element ∈ literals, value.EqualsLiteral type element

end Operator

namespace Filter

mutual

/-- A filter holds of a record of the given shape. -/
def Holds (catalog : Catalog) (shape : Shape) (record : Record) : Filter → Prop
  | .compare path op literal =>
      ∃ resolved type, catalog.resolve shape path = .ok resolved ∧
        resolved.scalar? = some type ∧
        ∃ value ∈ resolved.read record, op.Satisfied type literal value
  | .and children => AllHold catalog shape record children
  | .or children => SomeHolds catalog shape record children
  | .not children => ¬ AllHold catalog shape record children

/-- All filters hold; so it is for an empty list. -/
def AllHold (catalog : Catalog) (shape : Shape) (record : Record) : List Filter → Prop
  | [] => True
  | child :: rest => Holds catalog shape record child ∧ AllHold catalog shape record rest

/-- Some filter holds; not so for an empty list. -/
def SomeHolds (catalog : Catalog) (shape : Shape) (record : Record) : List Filter → Prop
  | [] => False
  | child :: rest => Holds catalog shape record child ∨ SomeHolds catalog shape record rest

end

theorem someHolds_iff
    {catalog : Catalog} {shape : Shape} {record : Record} {children : List Filter} :
    SomeHolds catalog shape record children ↔
      ∃ child ∈ children, Holds catalog shape record child := by
  induction children with
  | nil => simp [SomeHolds]
  | cons child rest ih => simp [SomeHolds, ih]

end Filter

end EntityAccess
