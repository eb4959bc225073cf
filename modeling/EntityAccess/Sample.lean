import EntityAccess.Service

/-!
# Samples

Record types to try things on: cities with an identifier for their key, persons
with scalars of every type and a relation to a city, and tree items, which refer
to themselves.  Persons can also be shown by summaries.
-/

namespace EntityAccess

namespace Sample

def typeNamed (name : String) : TypeName := ⟨"sample", name⟩

/-- The cell of a scalar that does not accept null. -/
def cell (name : String) (type : SlotType) (value : Value) : ScalarCell :=
  ⟨name, ⟨type, false⟩, value⟩

def nullableCell (name : String) (type : SlotType) (value : Value) : ScalarCell :=
  ⟨name, ⟨type, true⟩, value⟩

def cityShape : Shape where
  type := typeNamed "city"
  keyName := "id"
  keyType := .uuid
  others :=
    [Field.scalar "name" .text, Field.scalar "population" .int,
      Field.nullableScalar "demonym" .text, Field.nullableScalar "some_nullable_int" .int]
  names_nodup := by decide

/-- A city with its optional fields absent. -/
def city (id : Uuid) (name : String) (population : Int64) : Record :=
  .mk cityShape.type
    [cell "id" .uuid (toValue id), cell "name" .text (toValue name),
      cell "population" .int64 (toValue population),
      nullableCell "demonym" .text .null, nullableCell "some_nullable_int" .int64 .null]
    []

/-- The shape of persons. -/
def personShape : Shape where
  type := typeNamed "person"
  keyName := "id"
  keyType := .int
  others :=
    [Field.scalar "name" .text, Field.scalar "age" .int, Field.nullableScalar "email" .text,
      Field.scalar "score" .float, Field.scalar "active" .bool,
      Field.readOnlyScalar "created_at" .dateTime, Field.nullableScalar "city_id" .uuid,
      Field.relation "city" cityShape.type .one]
  names_nodup := by decide

/-- An active person of score zero without email and city. -/
def person (id : Int64) (name : String) (age : Int64) : Record :=
  .mk personShape.type
    [cell "id" .int64 (toValue id), cell "name" .text (toValue name),
      cell "age" .int64 (toValue age), nullableCell "email" .text .null,
      cell "score" .float (toValue Binary64.zero), cell "active" .bool (toValue true),
      cell "created_at" .dateTime (toValue Instant.epoch), nullableCell "city_id" .uuid .null]
    [.one "city" none]

/-- The person with a city, whose key is noted beside the relation. -/
def withCity (person city : Record) : Record :=
  ((person.set? "city_id" (cityShape.keyOf city)).getD person).loadOne "city" city

def treeItemShape : Shape where
  type := typeNamed "tree_item"
  keyName := "id"
  keyType := .int
  others :=
    [Field.scalar "name" .text, Field.nullableScalar "parent_id" .int,
      Field.relation "parent" (typeNamed "tree_item") .one,
      Field.relation "children" (typeNamed "tree_item") .many]
  names_nodup := by decide

/-- A tree item without parent and children. -/
def treeItem (id : Int64) (name : String) : Record :=
  .mk treeItemShape.type
    [cell "id" .int64 (toValue id), cell "name" .text (toValue name),
      nullableCell "parent_id" .int64 .null]
    [.one "parent" none, .many "children" []]

/-- The item with a parent, whose key is noted beside the relation. -/
def withParent (item parent : Record) : Record :=
  ((item.set? "parent_id" (treeItemShape.keyOf parent)).getD item).loadOne "parent" parent

def shapes : List Shape :=
  [personShape, cityShape, treeItemShape]

def catalog : Catalog :=
  Catalog.ofShapes shapes

/-- The projection of a person. -/
structure PersonSummary where
  id : Int64
  name : String
  age : Int64
  email : Option String
  city : Option String
  deriving DecidableEq, Repr

namespace PersonSummary

def ofRecord (record : Record) : PersonSummary where
  id := ((record.scalar? "id").bind Value.asInt?).getD 0
  name := ((record.scalar? "name").bind Value.asText?).getD ""
  age := ((record.scalar? "age").bind Value.asInt?).getD 0
  email := (record.scalar? "email").bind Value.asText?
  city := (record.related "city").head?.bind fun city =>
    (city.scalar? "name").bind Value.asText?

/-- The person of a summary; the name of the city is dropped. -/
def toRecord (summary : PersonSummary) : Record :=
  let record := person summary.id summary.name summary.age
  (record.set? "email" (toValue summary.email)).getD record

/-- Shows persons as summaries. -/
def mapper : Mapper PersonSummary := ⟨toRecord, ofRecord⟩

end PersonSummary

end Sample

end EntityAccess
