import EntityAccess.Shape.Basic

/-!
# Records

A record belongs to a type and holds the contents of its fields by name: scalars
in slots, and the records behind its relations.  A slot has a storage type, which
may be narrower than the type its field declares, and takes only values that this
storage type can hold.  A relation without records reads as absent, whether it is
empty or not loaded.
-/

namespace EntityAccess

/-- How the content of a slot is stored. -/
inductive SlotType where
  | bool
  | int64
  | int32
  | float
  | text
  | uuid
  | dateTime
  deriving DecidableEq, Repr

namespace SlotType

/-- The storage of full width for a scalar type. -/
def ofScalar : ScalarType → SlotType
  | .bool => .bool
  | .int => .int64
  | .float => .float
  | .text => .text
  | .uuid => .uuid
  | .dateTime => .dateTime

/--
The stored form of a value, if the storage can hold it.  Integers widen to
doubles, and narrow storage refuses integers out of its range.
-/
def store? : SlotType → Value → Option Value
  | .bool, value => value.asBool?.map toValue
  | .int64, value => value.asInt?.map toValue
  | .int32, value =>
      (value.asInt?.filter fun n =>
        decide (-0x80000000 ≤ n.toInt ∧ n.toInt < 0x80000000)).map toValue
  | .float, value => value.asFloat?.map toValue
  | .text, value => value.asText?.map toValue
  | .uuid, value => value.asUuid?.map toValue
  | .dateTime, value => value.asDateTime?.map toValue

end SlotType

/-- The place that backs a scalar field. -/
structure Slot where
  type : SlotType
  nullable : Bool
  deriving DecidableEq, Repr

namespace Slot

/-- The content of the slot after writing a value, if the slot takes it. -/
def assign? (slot : Slot) (value : Value) : Option Value :=
  if slot.nullable && value.isNull then some .null else slot.type.store? value

/-- The slot of full width for a scalar field, if the field is one. -/
def ofField? (field : Field) : Option Slot :=
  field.kind.scalar?.map fun type => ⟨SlotType.ofScalar type, field.nullable⟩

end Slot

/-! ## Scalars and relations -/

structure ScalarCell where
  name : String
  slot : Slot
  value : Value

mutual

/-- A record with the records it is related to. -/
inductive Record where
  | mk (type : TypeName) (scalars : List ScalarCell) (relations : List Relation)

/-- The records behind one relation of a record. -/
inductive Relation where
  | one (name : String) (related : Option Record)
  | many (name : String) (related : List Record)

end

namespace Relation

def name : Relation → String
  | .one name _ => name
  | .many name _ => name

def cardinality : Relation → Cardinality
  | .one .. => .one
  | .many .. => .many

def related : Relation → List Record
  | .one _ related => related.toList
  | .many _ related => related

def map (change : Record → Record) : Relation → Relation
  | .one name related => .one name (related.map change)
  | .many name related => .many name (related.map change)

def emptied : Relation → Relation
  | .one name _ => .one name none
  | .many name _ => .many name []

end Relation

/-- What a field of a record holds. -/
inductive Content where
  | scalar (value : Value)
  | one (related : Option Record)
  | many (related : List Record)

def Relation.content : Relation → Content
  | .one _ related => .one related
  | .many _ related => .many related

namespace Record

def type : Record → TypeName
  | .mk type _ _ => type

def scalars : Record → List ScalarCell
  | .mk _ scalars _ => scalars

def relations : Record → List Relation
  | .mk _ _ relations => relations

def scalar? (record : Record) (field : String) : Option Value :=
  (record.scalars.find? fun cell => cell.name == field).map ScalarCell.value

def relation? (record : Record) (field : String) : Option Relation :=
  record.relations.find? fun relation => relation.name == field

/-- The content of a field; none for a name that the record does not know. -/
def get? (record : Record) (field : String) : Option Content :=
  match record.scalar? field with
  | some value => some (.scalar value)
  | none => (record.relation? field).map Relation.content

/-- The records behind a relation; none for any other name. -/
def related (record : Record) (field : String) : List Record :=
  ((record.relation? field).map Relation.related).getD []

/-- Write a value into the first cell with the given name, if its slot takes it. -/
def setCells? (field : String) (value : Value) : List ScalarCell → Option (List ScalarCell)
  | [] => none
  | cell :: rest =>
      if cell.name = field then
        (cell.slot.assign? value).map fun stored => { cell with value := stored } :: rest
      else (setCells? field value rest).map (cell :: ·)

/--
The record with a scalar written; none if the record has no such scalar or its
slot refuses the value.
-/
def set? (record : Record) (field : String) (value : Value) : Option Record :=
  (setCells? field value record.scalars).map fun cells =>
    .mk record.type cells record.relations

theorem find?_of_setCells?
    {field : String} {value : Value} {cells written : List ScalarCell}
    (done : setCells? field value cells = some written) (name : String) :
    (written.find? fun cell => cell.name == name).map ScalarCell.value =
      if name = field then
        (cells.find? fun cell => cell.name == name).bind fun cell => cell.slot.assign? value
      else (cells.find? fun cell => cell.name == name).map ScalarCell.value := by
  induction cells generalizing written with
  | nil => cases done
  | cons cell rest ih =>
      simp only [setCells?] at done
      split at done
      · rename_i same
        obtain ⟨stored, assigned, rfl⟩ := Option.map_eq_some_iff.1 done
        by_cases wanted : name = field
        · subst wanted
          simp [same, assigned]
        · have different : (cell.name == name) = false := by
            simpa [same] using fun h : field = name => wanted h.symm
          simp [different, wanted]
      · rename_i different
        obtain ⟨tail, doneRest, rfl⟩ := Option.map_eq_some_iff.1 done
        by_cases here : cell.name = name
        · have wanted : name ≠ field := fun h => different (here.trans h)
          simp [here, wanted]
        · simpa [List.find?_cons, here] using ih doneRest

/-- After a write, the field reads what its slot took, and every other scalar reads as before. -/
theorem scalar?_of_set?
    {record written : Record} {field : String} {value : Value}
    (done : record.set? field value = some written) (name : String) :
    written.scalar? name =
      if name = field then
        (record.scalars.find? fun cell => cell.name == name).bind fun cell =>
          cell.slot.assign? value
      else record.scalar? name := by
  obtain ⟨cells, doneCells, rfl⟩ := Option.map_eq_some_iff.1 done
  exact find?_of_setCells? doneCells name

theorem type_of_set?
    {record written : Record} {field : String} {value : Value}
    (done : record.set? field value = some written) : written.type = record.type := by
  obtain ⟨cells, _, rfl⟩ := Option.map_eq_some_iff.1 done
  rfl

theorem relations_of_set?
    {record written : Record} {field : String} {value : Value}
    (done : record.set? field value = some written) : written.relations = record.relations := by
  obtain ⟨cells, _, rfl⟩ := Option.map_eq_some_iff.1 done
  rfl

/-- The record with every relation of the given name changed. -/
def changeRelation (record : Record) (field : String) (change : Relation → Relation) : Record :=
  .mk record.type record.scalars <|
    record.relations.map fun relation =>
      if relation.name = field then change relation else relation

/-- The record with a relation that reads as absent. -/
def unload (record : Record) (field : String) : Record :=
  record.changeRelation field Relation.emptied

/-- The record with each record behind a relation changed. -/
def mapRelated (record : Record) (field : String) (change : Record → Record) : Record :=
  record.changeRelation field (Relation.map change)

/-- The record with a to-one relation that leads to the given record. -/
def loadOne (record : Record) (field : String) (related : Record) : Record :=
  record.changeRelation field fun
    | .one name _ => .one name (some related)
    | .many name records => .many name records

/-- The record with a to-many relation that leads to the given records. -/
def loadMany (record : Record) (field : String) (related : List Record) : Record :=
  record.changeRelation field fun
    | .one name record => .one name record
    | .many name _ => .many name related

end Record

/-- The inspected form of a content: values in full, records by type or number. -/
def Content.inspect : Content → String
  | .scalar value => Value.applied "Scalar" value.inspect
  | .one none => Value.applied "One" "None"
  | .one (some related) => Value.applied "One" (Value.applied "Some" (quoted related.type.name))
  | .many related => Value.applied "Many" (toString related.length)

/-! ## Reading along paths

A path reads one value for each record it reaches.  Where a to-one relation is
absent it reads a single null, unless a to-many relation follows: then, as for an
empty to-many relation, there is nothing to read.
-/

/-- The values read from a record through the remaining relations of a path. -/
def readThrough (leaf : String) : List Hop → Record → List Value
  | [], record =>
      match record.get? leaf with
      | some (.scalar value) => [value]
      | _ => [.null]
  | hop :: rest, record =>
      match record.get? hop.name with
      | some (.one (some related)) => readThrough leaf rest related
      | some (.many related) => related.flatMap (readThrough leaf rest)
      | _ => if rest.all fun next => next.cardinality == .one then [.null] else []

namespace Path

/-- The values at the end of the path, one for each record reached. -/
def read (path : Path) (record : Record) : List Value :=
  readThrough path.leaf.name path.hops record

def first (path : Path) (record : Record) : Value :=
  (path.read record).head?.getD .null

end Path

/-- The value of the key field, or null if the record does not know it. -/
def Shape.keyOf (shape : Shape) (record : Record) : Value :=
  (record.scalar? shape.keyName).getD .null

namespace Record

/-- The records that a chain of relations leads to. -/
def reach : List String → Record → List Record
  | [], record => [record]
  | name :: rest, record => (record.related name).flatMap (reach rest)

@[simp]
theorem reach_nil (record : Record) : record.reach [] = [record] := rfl

theorem reach_cons (name : String) (rest : List String) (record : Record) :
    record.reach (name :: rest) = (record.related name).flatMap (reach rest) := rfl

end Record

/-! ## Conformance

A record conforms to its shape when it holds nothing that the shape does not
declare: every scalar fits its field, every relation has the declared cardinality
and leads to records of the declared type, and these conform in turn.  A field
that the record does not know does no harm.  A record is typed when only the types
of its scalars are right, here and behind its relations, and it is linked when
only the cardinalities of its relations are.
-/

/-- The kind of the values of a scalar type. -/
def ScalarType.valueKind : ScalarType → ValueKind
  | .bool => .bool
  | .int => .int
  | .float => .float
  | .text => .text
  | .uuid => .uuid
  | .dateTime => .dateTime

/-- The value is null or one of the type. -/
def ScalarType.Optional (type : ScalarType) (value : Value) : Prop :=
  value = .null ∨ value.kind = type.valueKind

/-- A field may hold a value: null if it is nullable, or a value of its type. -/
inductive Field.Admits (field : Field) : Value → Prop where
  | absent {type : ScalarType}
      (scalar : field.kind = .scalar type) (nullable : field.nullable = true) :
      Admits field .null
  | present {type : ScalarType} {value : Value}
      (scalar : field.kind = .scalar type) (fits : value.kind = type.valueKind) :
      Admits field value

/-- The scalar is declared and holds what its field admits. -/
def ScalarCell.Conforms (shape : Shape) (cell : ScalarCell) : Prop :=
  ∃ field, shape.field? cell.name = some field ∧ field.Admits cell.value

/-- The relation is declared with its cardinality and leads to records of the target type. -/
def Relation.Declared (shape : Shape) (relation : Relation) : Prop :=
  ∃ field target, shape.field? relation.name = some field ∧
    field.kind = .relation target relation.cardinality ∧
    ∀ related ∈ relation.related, related.type = target

/-- A record and all records behind its relations fit their shapes. -/
inductive Record.Conforms (catalog : Catalog) : Record → Prop where
  | intro {record : Record}
      (scalars : ∀ cell ∈ record.scalars, cell.Conforms (catalog.shape record.type))
      (declared : ∀ relation ∈ record.relations,
        relation.Declared (catalog.shape record.type))
      (related : ∀ relation ∈ record.relations, ∀ inner ∈ relation.related,
        Conforms catalog inner) :
      Conforms catalog record

/--
The scalars of a record hold null or values of the types that a shape declares,
and so do those of the records behind its declared relations.
-/
inductive Record.Typed (catalog : Catalog) : Shape → Record → Prop where
  | intro {shape : Shape} {record : Record}
      (scalars : ∀ name field type value, shape.field? name = some field →
        field.kind = .scalar type → record.scalar? name = some value → type.Optional value)
      (related : ∀ name field target cardinality, shape.field? name = some field →
        field.kind = .relation target cardinality →
          ∀ inner ∈ record.related name, Typed catalog (catalog.shape target) inner) :
      Typed catalog shape record

/-- The cardinality of the relation that a content belongs to; none for a scalar. -/
def Content.cardinality? : Content → Option Cardinality
  | .scalar _ => none
  | .one _ => some .one
  | .many _ => some .many

/--
The relations that a shape declares have their declared cardinality in the
record, and so have those of the records behind them.
-/
inductive Record.Linked (catalog : Catalog) : Shape → Record → Prop where
  | intro {shape : Shape} {record : Record}
      (held : ∀ name field target cardinality, shape.field? name = some field →
        field.kind = .relation target cardinality → ∀ content, record.get? name = some content →
          content.cardinality? = some cardinality)
      (related : ∀ name field target cardinality, shape.field? name = some field →
        field.kind = .relation target cardinality →
          ∀ inner ∈ record.related name, Linked catalog (catalog.shape target) inner) :
      Linked catalog shape record

end EntityAccess
