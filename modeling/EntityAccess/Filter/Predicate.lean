import EntityAccess.Record

/-!
# Predicates

A predicate is a filter whose paths are resolved and whose literals are bound to
the types of their fields.  Its meaning on a record is defined here by recursion
on the tree; a comparison holds when some value that its path reads passes the
test of its operator.  For many records a predicate is prepared as a matcher,
which folds constants first: a junction drops the children that cannot change it
and is itself constant when a child decides it.
-/

namespace EntityAccess

/-- The operator between a path and a literal. -/
inductive Operator where
  | equals
  | notEquals
  | greaterThan
  | greaterOrEqual
  | lessThan
  | lessOrEqual
  | contains
  | startsWith
  | endsWith
  | isIn
  deriving DecidableEq, Repr

namespace Operator

def name : Operator → String
  | .equals => "equals"
  | .notEquals => "notEquals"
  | .greaterThan => "greaterThan"
  | .greaterOrEqual => "greaterOrEqual"
  | .lessThan => "lessThan"
  | .lessOrEqual => "lessOrEqual"
  | .contains => "contains"
  | .startsWith => "startsWith"
  | .endsWith => "endsWith"
  | .isIn => "in"

def all : List Operator :=
  [.equals, .notEquals, .greaterThan, .greaterOrEqual, .lessThan, .lessOrEqual, .contains,
    .startsWith, .endsWith, .isIn]

def ofName? (name : String) : Option Operator :=
  all.find? fun op => op.name == name

theorem ofName?_name (op : Operator) : ofName? op.name = some op := by
  cases op <;> decide

/-- Needs a field whose values are ordered. -/
def isOrdering : Operator → Bool
  | .greaterThan | .greaterOrEqual | .lessThan | .lessOrEqual => true
  | _ => false

/-- Needs a text field. -/
def isTextual : Operator → Bool
  | .contains | .startsWith | .endsWith => true
  | _ => false

/-- Takes a null literal. -/
def acceptsNull : Operator → Bool
  | .equals | .notEquals => true
  | _ => false

end Operator

/-! ## Trees -/

/-- A resolved path, an operator and a literal of the path's type. -/
structure Comparison where
  path : Path
  op : Operator
  /-- A list for membership, null for a test of absence. -/
  literal : Value

def Comparison.display (c : Comparison) : String :=
  c.path.toText ++ " " ++ c.op.name ++ " " ++ c.literal.display

inductive Predicate where
  /-- Holds of every record or of none. -/
  | const (holds : Bool)
  | compare (comparison : Comparison)
  | and (children : List Predicate)
  | or (children : List Predicate)
  | not (child : Predicate)

namespace Operator

def equalTo (literal value : Value) : Bool :=
  !value.isNull && value.compare? literal == some .eq

/-- Whether a value is present and stands in an accepted order to a literal. -/
def ordered (accepted : Ordering → Bool) (literal value : Value) : Bool :=
  !value.isNull && (value.compare? literal).any accepted

def textual (accepted : String → String → Bool) : Value → Value → Bool
  | .text part, .text text => accepted text part
  | _, _ => false

/-- Whether a value is in a set of literals, where null stands for absence. -/
def memberOf (literals : List Value) (value : Value) : Bool :=
  literals.any fun literal => if literal.isNull then value.isNull else equalTo literal value

/-- The literals of a membership test; a single literal is a set of one. -/
def literalSet : Value → List Value
  | .list literals => literals
  | literal => [literal]

/-- Whether a value passes the test of the operator against a literal. -/
def accepts (op : Operator) (literal value : Value) : Bool :=
  match op with
  | .equals => if literal.isNull then value.isNull else equalTo literal value
  | .notEquals => if literal.isNull then !value.isNull else !equalTo literal value
  | .greaterThan => ordered (· == .gt) literal value
  | .greaterOrEqual => ordered (· != .lt) literal value
  | .lessThan => ordered (· == .lt) literal value
  | .lessOrEqual => ordered (· != .gt) literal value
  | .contains => textual Search.contains literal value
  | .startsWith => textual Search.startsWith literal value
  | .endsWith => textual Search.endsWith literal value
  | .isIn => memberOf (literalSet literal) value

end Operator

/-- Some value that the path reads passes the test. -/
def Comparison.holds (c : Comparison) (record : Record) : Bool :=
  (c.path.read record).any (c.op.accepts c.literal)

namespace Predicate

def all : Predicate := .const true

def none : Predicate := .const false

/-- Whether the predicate is the constant that holds of every record. -/
def isAll : Predicate → Bool
  | .const holds => holds
  | _ => false

mutual

def holds (record : Record) : Predicate → Bool
  | .const holds => holds
  | .compare comparison => comparison.holds record
  | .and children => allHold record children
  | .or children => someHolds record children
  | .not child => !child.holds record

/-- Whether all predicates hold; true of an empty list. -/
def allHold (record : Record) : List Predicate → Bool
  | [] => true
  | child :: rest => child.holds record && allHold record rest

/-- Whether some predicate holds; false of an empty list. -/
def someHolds (record : Record) : List Predicate → Bool
  | [] => false
  | child :: rest => child.holds record || someHolds record rest

end

theorem allHold_eq_all (record : Record) (children : List Predicate) :
    allHold record children = children.all fun child => child.holds record := by
  induction children with
  | nil => rfl
  | cons child rest ih => simp [allHold, ih]

theorem someHolds_eq_any (record : Record) (children : List Predicate) :
    someHolds record children = children.any fun child => child.holds record := by
  induction children with
  | nil => rfl
  | cons child rest ih => simp [someHolds, ih]

end Predicate

/-! ## Matchers -/

structure Matcher where
  test : Record → Bool

namespace Matcher

def constant (answer : Bool) : Matcher := ⟨fun _ => answer⟩

def negated (m : Matcher) : Matcher := ⟨fun record => !m.test record⟩

def every (ms : List Matcher) : Matcher := ⟨fun record => ms.all fun m => m.test record⟩

def some (ms : List Matcher) : Matcher := ⟨fun record => ms.any fun m => m.test record⟩

@[simp]
theorem test_constant (answer : Bool) (record : Record) :
    (constant answer).test record = answer := rfl

@[simp]
theorem test_negated (m : Matcher) (record : Record) :
    m.negated.test record = !m.test record := rfl

@[simp]
theorem test_every (ms : List Matcher) (record : Record) :
    (every ms).test record = ms.all fun m => m.test record := rfl

@[simp]
theorem test_some (ms : List Matcher) (record : Record) :
    (some ms).test record = ms.any fun m => m.test record := rfl

/-- The inspected form, which shows nothing of the test. -/
def inspect (_ : Matcher) : String := "Matcher(..)"

end Matcher

/-- A predicate after folding: an answer known in advance, or a test to run. -/
inductive Folded where
  | const (answer : Bool)
  | dynamic (matcher : Matcher)

namespace Folded

def toMatcher : Folded → Matcher
  | .const answer => .constant answer
  | .dynamic matcher => matcher

def negated : Folded → Folded
  | .const answer => .const !answer
  | .dynamic matcher => .dynamic matcher.negated

/-- Negation after folding is negation of the test. -/
theorem test_toMatcher_negated (folded : Folded) (record : Record) :
    folded.negated.toMatcher.test record = !folded.toMatcher.test record := by
  cases folded <;> rfl

/--
The tests left of the children of a junction: those equal to the identity are
dropped, and there is no answer if some child is the opposite constant.
-/
def tests? (identity : Bool) : List Folded → Option (List Matcher)
  | [] => .some []
  | .const answer :: rest => if answer = identity then tests? identity rest else none
  | .dynamic matcher :: rest => (tests? identity rest).map (matcher :: ·)

/-- A junction of folded children; conjunctions have the identity true, disjunctions false. -/
def junction (identity : Bool) (children : List Folded) : Folded :=
  match tests? identity children with
  | none => .const !identity
  | .some [] => .const identity
  | .some [matcher] => .dynamic matcher
  | .some matchers => .dynamic (if identity then .every matchers else .some matchers)

end Folded

namespace Predicate

mutual

/-- Fold the constants of a predicate. -/
def fold : Predicate → Folded
  | .const holds => .const holds
  | .compare comparison => .dynamic ⟨comparison.holds⟩
  | .not child => child.fold.negated
  | .and children => .junction true (foldAll children)
  | .or children => .junction false (foldAll children)

def foldAll : List Predicate → List Folded
  | [] => []
  | child :: rest => child.fold :: foldAll rest

end

def matcher (predicate : Predicate) : Matcher :=
  predicate.fold.toMatcher

def test (predicate : Predicate) (record : Record) : Bool :=
  predicate.matcher.test record

end Predicate

namespace Shape

def keyPath (shape : Shape) : Path :=
  Path.ofField shape.keyField

/-- Holds of the records with the given key. -/
def keyIs (shape : Shape) (key : Value) : Predicate :=
  .compare ⟨shape.keyPath, .equals, key⟩

/-- Holds of the records whose key is among the given ones. -/
def keyIn (shape : Shape) : List Value → Predicate
  | [] => Predicate.none
  | [key] => shape.keyIs key
  | keys => .compare ⟨shape.keyPath, .isIn, .list keys⟩

end Shape

end EntityAccess
