import EntityAccess.Shape.Field

/-!
# Shapes

A shape is the table of fields of one record type: the key first, then the other
fields in the order of their declaration, no name twice.  A catalog gives every
type its shape, so shapes may refer to each other and to themselves.  A dotted path
leads from a record type through relations to a field.
-/

namespace EntityAccess

/-- The fields of one record type. -/
structure Shape where
  type : TypeName
  keyName : String
  keyType : ScalarType
  /-- The fields after the key. -/
  others : List Field
  names_nodup : (keyName :: others.map Field.name).Nodup
  deriving DecidableEq

/-- A second field with the name of an earlier one. -/
structure DuplicateField where
  field : String
  shape : String
  deriving DecidableEq, Repr

def DuplicateField.message (e : DuplicateField) : String :=
  "duplicate field `" ++ e.field ++ "` on `" ++ e.shape ++ "`"

namespace Shape

def name (shape : Shape) : String :=
  shape.type.name

/-- The field that identifies a record. -/
def keyField (shape : Shape) : Field :=
  Field.identity shape.keyName shape.keyType

/-- All fields, the key first. -/
def fields (shape : Shape) : List Field :=
  shape.keyField :: shape.others

def relations (shape : Shape) : List Field :=
  shape.fields.filter Field.isRelation

def scalars (shape : Shape) : List Field :=
  shape.fields.filter fun field => !field.isRelation

/-- The field with exactly this name. -/
def field? (shape : Shape) (name : String) : Option Field :=
  shape.fields.find? fun field => field.name == name

theorem names_fields_nodup (shape : Shape) : (shape.fields.map Field.name).Nodup :=
  shape.names_nodup

theorem field?_eq_none_iff {shape : Shape} {name : String} :
    shape.field? name = none ↔ ∀ field ∈ shape.fields, field.name ≠ name := by
  simp [field?]

theorem find?_name_of_mem
    {field : Field} {fields : List Field}
    (nodup : (fields.map Field.name).Nodup) (mem : field ∈ fields) :
    fields.find? (fun other => other.name == field.name) = some field := by
  induction fields with
  | nil => cases mem
  | cons first rest ih =>
      obtain ⟨fresh, restNodup⟩ := List.nodup_cons.1 nodup
      rcases List.mem_cons.1 mem with rfl | inRest
      · simp
      · have different : first.name ≠ field.name := fun same =>
          fresh (same ▸ List.mem_map_of_mem inRest)
        simpa [List.find?_cons, different] using ih restNodup inRest

/-- A lookup finds every field, since no name stands twice. -/
theorem field?_eq_some_iff {shape : Shape} {name : String} {field : Field} :
    shape.field? name = some field ↔ field ∈ shape.fields ∧ field.name = name := by
  constructor
  · intro found
    exact ⟨List.mem_of_find?_eq_some found, by simpa using List.find?_some found⟩
  · rintro ⟨mem, rfl⟩
    exact find?_name_of_mem shape.names_fields_nodup mem

theorem field?_keyName (shape : Shape) : shape.field? shape.keyName = some shape.keyField := by
  simp [field?, fields, keyField, Field.identity, Field.scalar]

def ofKey (type : TypeName) (keyName : String) (keyType : ScalarType) : Shape where
  type := type
  keyName := keyName
  keyType := keyType
  others := []
  names_nodup := by simp

/-- Add a field at the end; a name that is taken is refused. -/
def push (shape : Shape) (field : Field) : Except DuplicateField Shape :=
  if fresh : field.name ∈ shape.keyName :: shape.others.map Field.name then
    .error ⟨field.name, shape.name⟩
  else
    .ok { shape with
      others := shape.others ++ [field]
      names_nodup := by
        have nodup := shape.names_nodup
        simp only [List.map_append, List.map_cons, List.map_nil, ← List.cons_append]
        refine List.nodup_append.2 ⟨nodup, by simp, ?_⟩
        intro name isOld other isNew same
        rw [List.mem_singleton.1 isNew] at same
        exact fresh (same ▸ isOld) }

/-- Declare a shape by its key and the other fields in order. -/
def declare
    (type : TypeName) (keyName : String) (keyType : ScalarType)
    (others : List Field) : Except DuplicateField Shape :=
  others.foldlM push (ofKey type keyName keyType)

end Shape

structure Catalog where
  shape : TypeName → Shape
  type_shape : ∀ type, (shape type).type = type

namespace Catalog

theorem name_shape (catalog : Catalog) (type : TypeName) :
    (catalog.shape type).name = type.name := by
  rw [Shape.name, catalog.type_shape]

/--
The catalog of the listed shapes, the first of each type; any other type has a
shape with an integer key `id` alone.
-/
def ofShapes (shapes : List Shape) : Catalog where
  shape type :=
    (shapes.find? fun shape => shape.type == type).getD (Shape.ofKey type "id" .int)
  type_shape type := by
    cases found : shapes.find? fun shape => shape.type == type with
    | none => rfl
    | some shape => simpa using List.find?_some found

end Catalog

inductive Declaration where
  | scalar (name : String) (type : ScalarType)
  | nullable (name : String) (type : ScalarType)
  | readOnly (name : String) (type : ScalarType)
  | one (name : String) (target : TypeName)
  | many (name : String) (target : TypeName)
  /-- A field of any kind, made before the call. -/
  | prepared (field : Field)
  deriving DecidableEq, Repr

namespace Declaration

/-- The field that a call adds. -/
def declared : Declaration → Field
  | .scalar name type => .scalar name type
  | .nullable name type => .nullableScalar name type
  | .readOnly name type => .readOnlyScalar name type
  | .one name target => .relation name target .one
  | .many name target => .relation name target .many
  | .prepared field => field

def name (call : Declaration) : String :=
  call.declared.name

end Declaration

/-! ## Paths -/

def pathSeparator : Char := '.'

/-- The segments of a dotted path; a text without a separator is one segment. -/
def pathSegments (path : String) : List String :=
  (path.toList.splitOn pathSeparator).map String.ofList

def joinSegments (segments : List String) : String :=
  String.ofList ([pathSeparator].intercalate (segments.map String.toList))

structure Hop where
  name : String
  cardinality : Cardinality
  deriving DecidableEq, Repr

/-- A resolved path: the relations on the way and the field at the end. -/
structure Path where
  hops : List Hop
  leaf : Field
  deriving DecidableEq

namespace Path

def ofField (field : Field) : Path := ⟨[], field⟩

def after (hop : Hop) (path : Path) : Path :=
  { path with hops := hop :: path.hops }

/-- The names along the path, the field last. -/
def segments (path : Path) : List String :=
  path.hops.map Hop.name ++ [path.leaf.name]

@[simp]
theorem segments_ofField (field : Field) : (ofField field).segments = [field.name] := rfl

@[simp]
theorem segments_after (hop : Hop) (path : Path) :
    (path.after hop).segments = hop.name :: path.segments := rfl

def toText (path : Path) : String :=
  joinSegments path.segments

/-- The scalar type at the end, if the path does not end on a relation. -/
def scalar? (path : Path) : Option ScalarType :=
  path.leaf.kind.scalar?

/-- Whether every relation on the way leads to at most one record. -/
def isSingleValued (path : Path) : Bool :=
  path.hops.all fun hop => hop.cardinality == .one

end Path

/-- Why a path does not resolve; the path is kept in full. -/
inductive PathError where
  /-- A segment names no field of the shape it is looked up in. -/
  | unknownField (path segment shape : String)
  /-- A segment before the last names a scalar. -/
  | notRelation (path segment shape : String)
  deriving DecidableEq, Repr

namespace PathError

def path : PathError → String
  | .unknownField path _ _ => path
  | .notRelation path _ _ => path

def message : PathError → String
  | .unknownField path segment shape =>
      "unknown field `" ++ segment ++ "` in path `" ++ path ++ "` on `" ++ shape ++ "`"
  | .notRelation path segment shape =>
      "`" ++ segment ++ "` in path `" ++ path ++ "` is not a relation of `" ++ shape ++ "`"

end PathError

namespace Catalog

/-- Resolve a segment and those after it against a shape. -/
def resolveFrom
    (catalog : Catalog) (path : String) (shape : Shape)
    (segment : String) : List String → Except PathError Path
  | [] =>
      match shape.field? segment with
      | none => .error (.unknownField path segment shape.name)
      | some field => .ok (Path.ofField field)
  | next :: rest =>
      match shape.field? segment with
      | none => .error (.unknownField path segment shape.name)
      | some field =>
          match field.kind.relation? with
          | none => .error (.notRelation path segment shape.name)
          | some (target, cardinality) =>
              (catalog.resolveFrom path (catalog.shape target) next rest).map
                (Path.after ⟨field.name, cardinality⟩)

def resolve (catalog : Catalog) (shape : Shape) (path : String) : Except PathError Path :=
  match pathSegments path with
  | [] => .error (.unknownField path "" shape.name)
  | segment :: rest => catalog.resolveFrom path shape segment rest

end Catalog

end EntityAccess
