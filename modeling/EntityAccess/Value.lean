import EntityAccess.Number
import EntityAccess.Time

/-!
# Values

The dynamically typed values that fields hold and requests carry, identifiers of
128 bits among them.  Two values are the same when they have the same kind and the
same content; numbers of different kinds are never the same, and a NaN is not even
the same as itself.  The order that comparisons and sorting use relates values of
one kind, and integers with doubles after rounding the integer.
-/

namespace EntityAccess

structure Uuid where
  bits : BitVec 128
  deriving DecidableEq, Inhabited, Repr

namespace Uuid

def nil : Uuid := ⟨0⟩

/-- Identifiers are ordered as numbers, which is the order of their written forms. -/
def compare (left right : Uuid) : Ordering :=
  Ord.compare left.bits.toNat right.bits.toNat

/-- The 32 digits, the most significant one first. -/
def hexDigits (u : Uuid) : List Char :=
  (List.range 32).map fun i => Nat.digitChar (u.bits.toNat / Nat.pow 16 (31 - i) % 16)

/-- Insert hyphens after 8, 12, 16 and 20 characters. -/
def group (digits : List Char) : List Char :=
  digits.take 8 ++ '-' :: (digits.drop 8).take 4 ++ '-' :: (digits.drop 12).take 4 ++
    '-' :: (digits.drop 16).take 4 ++ '-' :: digits.drop 20

/-- The canonical form: lower case, in groups. -/
def toText (u : Uuid) : String :=
  String.ofList (group u.hexDigits)

def ofHexDigits? (digits : List Char) : Option Uuid :=
  if digits.length = 32 then (hexValue? digits).map fun n => ⟨BitVec.ofNat 128 n⟩ else none

def ungroup? (text : List Char) : Option (List Char) :=
  let digits := text.filter (· ≠ '-')
  if group digits = text then some digits else none

def ofGroups? (text : List Char) : Option Uuid :=
  (ungroup? text).bind ofHexDigits?

/-- The scheme that may stand before the groups, in any case. -/
def scheme : List Char := "urn:uuid:".toList

/-- Read an identifier in one of its four forms. -/
def parse? (text : String) : Option Uuid :=
  let chars := text.toList
  match chars with
  | '\x7b' :: rest =>
      if rest.getLast? = some '\x7d' then ofGroups? rest.dropLast else none
  | _ =>
      if chars.length = 32 then ofHexDigits? chars
      else if (chars.take scheme.length).map Char.toLower = scheme then
        ofGroups? (chars.drop scheme.length)
      else ofGroups? chars

end Uuid

/-! ## Kinds and sameness -/

inductive Value where
  | null
  | bool (b : Bool)
  | int (n : Int64)
  | float (x : Binary64)
  | text (s : String)
  | list (items : List Value)
  | uuid (u : Uuid)
  | dateTime (t : Instant)
  deriving Inhabited

inductive ValueKind where
  | null
  | bool
  | int
  | float
  | text
  | list
  | uuid
  | dateTime
  deriving DecidableEq, Repr

def ValueKind.name : ValueKind → String
  | .null => "null"
  | .bool => "bool"
  | .int => "int"
  | .float => "float"
  | .text => "text"
  | .list => "list"
  | .uuid => "uuid"
  | .dateTime => "datetime"

namespace Value

def kind : Value → ValueKind
  | .null => .null
  | .bool _ => .bool
  | .int _ => .int
  | .float _ => .float
  | .text _ => .text
  | .list _ => .list
  | .uuid _ => .uuid
  | .dateTime _ => .dateTime

def isNull : Value → Bool
  | .null => true
  | _ => false

def asText? : Value → Option String
  | .text s => some s
  | _ => none

def asInt? : Value → Option Int64
  | .int n => some n
  | _ => none

/-- The number as a double; integers are rounded to the nearest one. -/
def asFloat? : Value → Option Binary64
  | .int n => some (Binary64.ofInt64 n)
  | .float x => some x
  | _ => none

def asBool? : Value → Option Bool
  | .bool b => some b
  | _ => none

def asUuid? : Value → Option Uuid
  | .uuid u => some u
  | _ => none

def asDateTime? : Value → Option Instant
  | .dateTime t => some t
  | _ => none

def asList? : Value → Option (List Value)
  | .list items => some items
  | _ => none

mutual

/-- Same kind and same content. -/
def same : Value → Value → Bool
  | .null, .null => true
  | .bool a, .bool b => a == b
  | .int a, .int b => a == b
  | .float a, .float b => a.same b
  | .text a, .text b => a == b
  | .list a, .list b => sameAll a b
  | .uuid a, .uuid b => a == b
  | .dateTime a, .dateTime b => a == b
  | _, _ => false

/-- Same length and the same value at each position. -/
def sameAll : List Value → List Value → Bool
  | [], [] => true
  | a :: as, b :: bs => a.same b && sameAll as bs
  | _, _ => false

end

instance : BEq Value := ⟨same⟩

/-- The order of two comparable values. -/
def compare? : Value → Value → Option Ordering
  | .null, .null => some .eq
  | .bool a, .bool b => some (compare a b)
  | .int a, .int b => some (compare a.toInt b.toInt)
  | .int a, .float b => (Binary64.ofInt64 a).compare? b
  | .float a, .int b => a.compare? (Binary64.ofInt64 b)
  | .float a, .float b => a.compare? b
  | .text a, .text b => some (compare a b)
  | .uuid a, .uuid b => some (a.compare b)
  | .dateTime a, .dateTime b => some (a.compare b)
  | _, _ => none

end Value

/-- A type whose members can be written as values. -/
class ToValue (α : Type) where
  toValue : α → Value

export ToValue (toValue)

instance : ToValue Value := ⟨id⟩
instance : ToValue Bool := ⟨.bool⟩
instance : ToValue Int64 := ⟨.int⟩
instance : ToValue Int32 := ⟨fun n => .int n.toInt64⟩
instance : ToValue UInt32 := ⟨fun n => .int (Int64.ofNat n.toNat)⟩
instance : ToValue Binary64 := ⟨.float⟩
instance : ToValue String := ⟨.text⟩
instance : ToValue Uuid := ⟨.uuid⟩
instance : ToValue Instant := ⟨.dateTime⟩

instance {α : Type} [ToValue α] : ToValue (Option α) where
  toValue
    | none => .null
    | some a => toValue a

instance {α : Type} [ToValue α] : ToValue (List α) where
  toValue items := .list (items.map toValue)

/-! ## Written forms

The display form stands in messages and in the text of comparisons.  The
inspected form also names the constructor of each value.
-/

namespace Value

/-- Write items between brackets, separated by a comma and a space. -/
def bracketed (items : List String) : String :=
  "[" ++ ", ".intercalate items ++ "]"

mutual

def display : Value → String
  | .null => "null"
  | .bool b => if b then "true" else "false"
  | .int n => toString n.toInt
  | .float x => Binary64.plain.write x
  | .text s => quoted s
  | .list items => bracketed (displayAll items)
  | .uuid u => u.toText
  | .dateTime t => t.toText

def displayAll : List Value → List String
  | [] => []
  | item :: rest => item.display :: displayAll rest

end

/-- A constructor with its content in parentheses. -/
def applied (constructor content : String) : String :=
  constructor ++ "(" ++ content ++ ")"

mutual

def inspect : Value → String
  | .null => "Null"
  | .bool b => applied "Bool" (if b then "true" else "false")
  | .int n => applied "Int" (toString n.toInt)
  | .float x => applied "Float" (Binary64.marked.write x)
  | .text s => applied "Text" (quoted s)
  | .list items => applied "List" (bracketed (inspectAll items))
  | .uuid u => applied "Uuid" u.toText
  | .dateTime t => applied "DateTime" t.toShortText

def inspectAll : List Value → List String
  | [] => []
  | item :: rest => item.inspect :: inspectAll rest

end

end Value

end EntityAccess
