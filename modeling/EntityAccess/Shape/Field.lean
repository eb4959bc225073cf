import EntityAccess.Value

/-!
# Fields

What a record type says about one of its fields: a scalar of some type, or a
relation to records of another type.  A value is bound to the type of a scalar by
coercion: integers widen to doubles, doubles narrow to integers only when they are
integers, and texts are read as booleans, identifiers and instants.  Nothing else
changes its kind.
-/

namespace EntityAccess

/--
The name of a record type.  Types of different scopes may share a name and are
different types all the same; messages show the name alone.
-/
structure TypeName where
  scope : String
  name : String
  deriving DecidableEq, Repr

inductive ScalarType where
  | bool
  | int
  | float
  | text
  | uuid
  | dateTime
  deriving DecidableEq, Repr

namespace ScalarType

def name : ScalarType → String
  | .bool => "bool"
  | .int => "int"
  | .float => "float"
  | .text => "text"
  | .uuid => "uuid"
  | .dateTime => "datetime"

/-- Whether the ordering comparisons are defined on the type. -/
def isOrdered : ScalarType → Bool
  | .int | .float | .text | .dateTime => true
  | .bool | .uuid => false

end ScalarType

/-- How many records a relation leads to. -/
inductive Cardinality where
  | one
  | many
  deriving DecidableEq, Repr

def Cardinality.name : Cardinality → String
  | .one => "one"
  | .many => "many"

/-- What a field holds; a relation names the type of the records it leads to. -/
inductive FieldKind where
  | scalar (type : ScalarType)
  | relation (target : TypeName) (cardinality : Cardinality)
  deriving DecidableEq, Repr

namespace FieldKind

def scalar? : FieldKind → Option ScalarType
  | .scalar type => some type
  | .relation .. => none

def relation? : FieldKind → Option (TypeName × Cardinality)
  | .scalar _ => none
  | .relation target cardinality => some (target, cardinality)

def isRelation : FieldKind → Bool
  | .scalar _ => false
  | .relation .. => true

theorem scalar?_eq_some_iff {kind : FieldKind} {type : ScalarType} :
    kind.scalar? = some type ↔ kind = .scalar type := by
  cases kind <;> simp [scalar?]

end FieldKind

structure Field where
  name : String
  kind : FieldKind
  /-- A scalar accepts null; relations are always optional. -/
  nullable : Bool
  /-- The field is, or is treated as, the identity of the record. -/
  key : Bool
  /-- The field is filtered by but never patched. -/
  readOnly : Bool
  deriving DecidableEq, Repr

namespace Field

def scalar (name : String) (type : ScalarType) : Field where
  name := name
  kind := .scalar type
  nullable := false
  key := false
  readOnly := false

def nullableScalar (name : String) (type : ScalarType) : Field :=
  { scalar name type with nullable := true }

/-- A scalar field that patches may not write. -/
def readOnlyScalar (name : String) (type : ScalarType) : Field :=
  { scalar name type with readOnly := true }

def identity (name : String) (type : ScalarType) : Field :=
  { scalar name type with key := true }

def relation (name : String) (target : TypeName) (cardinality : Cardinality) : Field where
  name := name
  kind := .relation target cardinality
  nullable := true
  key := false
  readOnly := false

def isRelation (field : Field) : Bool :=
  field.kind.isRelation

/-- Whether a patch may write the field. -/
def isMutable (field : Field) : Bool :=
  !field.key && !field.readOnly && !field.isRelation

end Field

/-! ## Coercion -/

inductive CoercionError where
  /-- The kind of the value has no conversion to the type. -/
  | mismatch (expected : ScalarType) (found : ValueKind)
  /-- The text is no literal of the type. -/
  | malformed (expected : ScalarType) (input : String)
  /-- Null for a field that does not accept it. -/
  | notNullable (expected : ScalarType)
  /-- A value for a relation. -/
  | notScalar
  deriving DecidableEq, Repr

def CoercionError.message : CoercionError → String
  | .mismatch expected found => "expected " ++ expected.name ++ ", found " ++ found.name
  | .malformed expected input => "malformed " ++ expected.name ++ " literal: " ++ quoted input
  | .notNullable expected => expected.name ++ " field is not nullable"
  | .notScalar => "relation fields do not accept literal values"

/-- Read a boolean; the case of its letters does not matter. -/
def parseBool? (text : String) : Option Bool :=
  if Search.equalsIgnoringCase text "true" then some true
  else if Search.equalsIgnoringCase text "false" then some false
  else none

namespace ScalarType

/-- Convert a value that is not null to the type. -/
def coerce (type : ScalarType) (value : Value) : Except CoercionError Value :=
  let literal (input : String) : Option Value → Except CoercionError Value
    | some parsed => .ok parsed
    | none => .error (.malformed type input)
  match type, value with
  | .bool, .bool b => .ok (.bool b)
  | .int, .int n => .ok (.int n)
  | .float, .float x => .ok (.float x)
  | .text, .text s => .ok (.text s)
  | .uuid, .uuid u => .ok (.uuid u)
  | .dateTime, .dateTime t => .ok (.dateTime t)
  | .int, .float x =>
      match x.toInt64? with
      | some n => .ok (.int n)
      | none => .error (.mismatch type value.kind)
  | .float, .int n => .ok (.float (Binary64.ofInt64 n))
  | .bool, .text s => literal s ((parseBool? s).map .bool)
  | .uuid, .text s => literal s ((Uuid.parse? s).map .uuid)
  | .dateTime, .text s => literal s ((Instant.parse? s).map .dateTime)
  | _, _ => .error (.mismatch type value.kind)

end ScalarType

namespace Field

/-- Bind a value to the field; null fits exactly the nullable scalars. -/
def coerce (field : Field) (value : Value) : Except CoercionError Value :=
  match field.kind with
  | .relation .. => .error .notScalar
  | .scalar type =>
      if value.isNull then
        if field.nullable then .ok .null else .error (.notNullable type)
      else type.coerce value

end Field

end EntityAccess
