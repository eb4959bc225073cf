import EntityAccess.Number

/-!
# JSON values

The tree of a JSON document.  Whole numbers of up to 64 bits are kept apart
from all other numbers, which are doubles, so that `1` and `1.0` stay distinct.
Parts that are well formed but stand for nothing may be passed over, but not
read.
-/

namespace EntityAccess

/-- A JSON value; the members of an object are kept in order. -/
inductive Json where
  | null
  | bool (b : Bool)
  | integer (n : Int)
  | float (x : Binary64)
  | text (s : String)
  | array (items : List Json)
  | object (members : List (String × Json))
  /-- A part that is well formed but stands for nothing. -/
  | unreadable
  deriving Inhabited

namespace Json

def asText? : Json → Option String
  | .text s => some s
  | _ => none

def asBool? : Json → Option Bool
  | .bool b => some b
  | _ => none

def asArray? : Json → Option (List Json)
  | .array items => some items
  | _ => none

def asObject? : Json → Option (List (String × Json))
  | .object members => some members
  | _ => none

/-- A whole number from 0 to 2^64 - 1. -/
def asCount? : Json → Option Nat
  | .integer n => if 0 ≤ n ∧ n < 0x10000000000000000 then some n.toNat else none
  | _ => none

/-- An array all of whose items can be read. -/
def asArrayOf? {α : Type} (read? : Json → Option α) (json : Json) : Option (List α) :=
  json.asArray?.bind fun items => items.mapM read?

def isNull : Json → Bool
  | .null => true
  | _ => false

/-- Whether it is null or an object without members: inside a filter either is nothing. -/
def isEmpty : Json → Bool
  | .null | .object [] => true
  | _ => false

/--
The name of a member of an enumeration: a text, or the name of the only member
of an object that holds nothing.
-/
def nameOf? (holdsNothing : Json → Bool) : Json → Option String
  | .text name => some name
  | .object [(name, content)] => if holdsNothing content then some name else none
  | _ => none

/-- Read a name as a member of an enumeration. -/
def asNamed? {α : Type} (ofName? : String → Option α) (json : Json) : Option α :=
  (json.nameOf? isNull).bind ofName?

/-- Whether none of the names is that of more than one member. -/
def namedOnce (names : List String) (members : List (String × Json)) : Bool :=
  decide ((members.map Prod.fst).filter names.contains).Nodup

/--
The fields of a structure with the given names.  An object has them as members,
none of them twice, and may have others; an array has them as items in the order
of the names, of which the last may lack.
-/
def fields? (names : List String) : Json → Option (List (String × Json))
  | .object members => if namedOnce names members then some members else none
  | .array items => if items.length ≤ names.length then some (names.zip items) else none
  | _ => none

/-- A field that may be absent or null. -/
def optionalField? {α : Type} (fields : List (String × Json)) (name : String)
    (read? : Json → Option α) : Option (Option α) :=
  match fields.lookup name with
  | none => some none
  | some .null => some none
  | some field => (read? field).map some

/-- A field that may be absent, and then has a value of its own. -/
def fieldOr? {α : Type} (fields : List (String × Json)) (name : String) (absent : α)
    (read? : Json → Option α) : Option α :=
  match fields.lookup name with
  | none => some absent
  | some field => read? field

/-- A field that must be there. -/
def field? {α : Type} (fields : List (String × Json)) (name : String) (read? : Json → Option α) :
    Option α :=
  (fields.lookup name).bind read?

mutual

/-- Whether every part of a document stands for something. -/
def isReadable : Json → Bool
  | .array items => areReadable items
  | .object members => membersAreReadable members
  | .unreadable => false
  | _ => true

def areReadable : List Json → Bool
  | [] => true
  | item :: rest => item.isReadable && areReadable rest

def membersAreReadable : List (String × Json) → Bool
  | [] => true
  | (_, json) :: rest => json.isReadable && membersAreReadable rest

end

end Json

/-! ## Writing

The compact text of a JSON value.  In texts only quotes, backslashes and control
characters are escaped.  Doubles keep a fraction or an exponent, so that they read
back as doubles.  What stands for nothing is written as null.
-/

namespace Json

/-- The characters that are escaped by a backslash and the letter that stands for them. -/
def shortEscapes : List (Char × Char) :=
  [('"', '"'), ('\\', '\\'), ('\x08', 'b'), ('\t', 't'), ('\n', 'n'), ('\x0c', 'f'), ('\r', 'r')]

/-- The escaped form of a character in a text. -/
def escapeChar (c : Char) : List Char :=
  match shortEscapes.lookup c with
  | some letter => ['\\', letter]
  | none =>
      if c.toNat < 0x20 then
        ['\\', 'u', '0', '0', Nat.digitChar (c.toNat / 16), Nat.digitChar (c.toNat % 16)]
      else [c]

def renderText (s : String) : String :=
  String.ofList ('"' :: s.toList.flatMap escapeChar ++ ['"'])

mutual

/-- The compact text of a value. -/
def render : Json → String
  | .null | .unreadable => "null"
  | .bool b => if b then "true" else "false"
  | .integer n => toString n
  | .float x => Binary64.marked.write x
  | .text s => renderText s
  | .array items => "[" ++ ",".intercalate (renderItems items) ++ "]"
  | .object members => "\x7b" ++ ",".intercalate (renderMembers members) ++ "\x7d"

def renderItems : List Json → List String
  | [] => []
  | item :: rest => item.render :: renderItems rest

def renderMembers : List (String × Json) → List String
  | [] => []
  | (name, json) :: rest => (renderText name ++ ":" ++ json.render) :: renderMembers rest

end

end Json

end EntityAccess
