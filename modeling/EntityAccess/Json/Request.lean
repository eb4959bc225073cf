import EntityAccess.Json.Basic
import EntityAccess.Service

/-!
# Requests in documents

The documents that clients exchange with a service: values, filters, page requests
and pages, patches, settings, and the names of types, cardinalities and directions.
Values are plain JSON: identifiers and instants are written as texts and come back
as texts, and doubles that JSON cannot write become null.  The fields of a
structure are the members of an object or the items of an array; members that are
not known are passed over, but all parts of the document of a filter must be
readable.
-/

namespace EntityAccess

/-! ## Values -/

namespace Value

mutual

def toJson : Value → Json
  | .null => .null
  | .bool b => .bool b
  | .int n => .integer n.toInt
  | .float x => if x.isFinite then .float x else .null
  | .text s => .text s
  | .list items => .array (toJsonAll items)
  | .uuid u => .text u.toText
  | .dateTime t => .text t.toShortText

def toJsonAll : List Value → List Json
  | [] => []
  | item :: rest => item.toJson :: toJsonAll rest

end

mutual

/-- Whatever is written can be read. -/
@[simp]
theorem isReadable_toJson (value : Value) : value.toJson.isReadable = true := by
  cases value with
  | list items => simpa [toJson, Json.isReadable] using areReadable_toJsonAll items
  | float x => simp only [toJson]; split <;> rfl
  | null | bool | int | text | uuid | dateTime => rfl

theorem areReadable_toJsonAll (values : List Value) :
    Json.areReadable (toJsonAll values) = true := by
  cases values with
  | nil => rfl
  | cons value rest =>
      simp [toJsonAll, Json.areReadable, isReadable_toJson value, areReadable_toJsonAll rest]

end

/-- An integer of 64 bits with a sign, or the nearest double for a larger one. -/
def ofInteger (n : Int) : Value :=
  match exactInt64? n with
  | some n => .int n
  | none => .float (Binary64.ofMagnitude (decide (n < 0)) (Rounding.nearestMagnitude n.natAbs 1))

mutual

def ofJson? : Json → Option Value
  | .null => some .null
  | .bool b => some (.bool b)
  | .integer n => some (ofInteger n)
  | .float x => some (.float x)
  | .text s => some (.text s)
  | .array items => (ofJsonAll? items).map .list
  | .object _ => none
  | .unreadable => none

def ofJsonAll? : List Json → Option (List Value)
  | [] => some []
  | item :: rest => do
      let value ← ofJson? item
      return value :: (← ofJsonAll? rest)

end

end Value

/-! ## Filters -/

namespace Filter

/-- An object of the given type. -/
def node (type : String) (members : List (String × Json)) : Json :=
  .object (("type", .text type) :: members)

mutual

def toJson : Filter → Json
  | .compare path op literal =>
      node "compare"
        [("path", .text path), ("op", .text op.name), ("value", literal.toJson)]
  | .and children => node "and" [("children", .array (toJsonAll children))]
  | .or children => node "or" [("children", .array (toJsonAll children))]
  | .not children => node "not" [("children", .array (toJsonAll children))]

def toJsonAll : List Filter → List Json
  | [] => []
  | child :: rest => child.toJson :: toJsonAll rest

end

mutual

/-- Whatever is written can be read. -/
@[simp]
theorem isReadable_toJson (filter : Filter) : filter.toJson.isReadable = true := by
  cases filter with
  | compare path op literal =>
      simp [toJson, node, Json.isReadable, Json.membersAreReadable]
  | and children | or children | not children =>
      simp [toJson, node, Json.isReadable, Json.membersAreReadable,
        areReadable_toJsonAll children]

theorem areReadable_toJsonAll (filters : List Filter) :
    Json.areReadable (toJsonAll filters) = true := by
  cases filters with
  | nil => rfl
  | cons filter rest =>
      simp [toJsonAll, Json.areReadable, isReadable_toJson filter, areReadable_toJsonAll rest]

end

/-- The types of nodes, in the order in which they are counted. -/
inductive NodeType where
  | compare
  | and
  | or
  | not

namespace NodeType

def all : List NodeType := [.compare, .and, .or, .not]

def name : NodeType → String
  | .compare => "compare"
  | .and => "and"
  | .or => "or"
  | .not => "not"

/-- The names of the fields of a node, its type apart. -/
def fieldNames : NodeType → List String
  | .compare => ["path", "op", "value"]
  | .and | .or | .not => ["children"]

/-- The type that is meant by its name or its position. -/
def ofTag? : Json → Option NodeType
  | .text name => all.find? fun type => type.name == name
  | .integer n => if 0 ≤ n then all[n.toNat]? else none
  | _ => none

/-- The node of a type, given what its fields are read as. -/
def node? (comparison : Option Filter) (children : Option (List Filter)) :
    NodeType → Option Filter
  | .compare => comparison
  | .and => children.map .and
  | .or => children.map .or
  | .not => children.map .not

end NodeType

/-- Read a comparison from its fields. -/
def comparison? (fields : List (String × Json)) : Option Filter := do
  let path ← Json.field? fields "path" Json.asText?
  let op ← (Json.field? fields "op" (Json.nameOf? Json.isEmpty)).bind Operator.ofName?
  let literal ← Value.ofJson? ((fields.lookup "value").getD .null)
  return .compare path op literal

mutual

/-- Read a node from an object, or from an array of its type and its fields. -/
def ofNode? : Json → Option Filter
  | .object members => do
      let type ← Json.field? members "type" NodeType.ofTag?
      if Json.namedOnce ("type" :: type.fieldNames) members then
        type.node? (comparison? members) (childrenOf? members)
      else none
  | .array (tag :: items) => do
      let type ← NodeType.ofTag? tag
      if items.length ≤ type.fieldNames.length then
        type.node? (comparison? (type.fieldNames.zip items)) (firstChildren? items)
      else none
  | _ => none

/-- Read the children among the members of a node; there are none if the member is absent. -/
def childrenOf? : List (String × Json) → Option (List Filter)
  | [] => some []
  | (name, json) :: rest => if name = "children" then ofArray? json else childrenOf? rest

/-- Read the children in the first of the fields, if there is one. -/
def firstChildren? : List Json → Option (List Filter)
  | [] => some []
  | json :: _ => ofArray? json

def ofArray? : Json → Option (List Filter)
  | .array items => ofNodes? items
  | _ => none

def ofNodes? : List Json → Option (List Filter)
  | [] => some []
  | item :: rest => do
      let child ← ofNode? item
      return child :: (← ofNodes? rest)

end

/-- Whether the type of a node is given by its name. -/
def namesType : Json → Bool
  | .object members => (Json.field? members "type" Json.asText?).isSome
  | .array (tag :: _) => tag.asText?.isSome
  | _ => false

/-- Read a filter; only behind another node may a type be given by its position. -/
def ofJson? (json : Json) : Option Filter :=
  if json.isReadable && namesType json then ofNode? json else none

@[simp]
theorem namesType_toJson (filter : Filter) : namesType filter.toJson = true := by
  cases filter <;> rfl

theorem ofJson?_toJson_eq_ofNode? (filter : Filter) :
    ofJson? filter.toJson = ofNode? filter.toJson := by
  simp [ofJson?]

end Filter

/-! ## Requests -/

namespace ScalarType

def documentName : ScalarType → String
  | .dateTime => "date_time"
  | type => type.name

def ofDocumentName? (name : String) : Option ScalarType :=
  [ScalarType.bool, .int, .float, .text, .uuid, .dateTime].find? fun type =>
    type.documentName == name

end ScalarType

def Cardinality.ofName? (name : String) : Option Cardinality :=
  [Cardinality.one, .many].find? fun cardinality => cardinality.name == name

def Direction.ofName? (name : String) : Option Direction :=
  [Direction.ascending, .descending].find? fun direction => direction.name == name

theorem Direction.ofName?_name (direction : Direction) :
    ofName? direction.name = some direction := by
  cases direction <;> decide

namespace OrderTerm

def toJson (term : OrderTerm) : Json :=
  .object [("path", .text term.path), ("direction", .text term.direction.name)]

/-- Read a term; it is ascending unless it says otherwise. -/
def ofJson? (json : Json) : Option OrderTerm := do
  let fields ← json.fields? ["path", "direction"]
  let path ← Json.field? fields "path" Json.asText?
  let direction ← Json.fieldOr? fields "direction" .ascending (Json.asNamed? Direction.ofName?)
  return ⟨path, direction⟩

end OrderTerm

namespace PageRequest

/-- A member that is written only if it is there. -/
def memberIf {α : Type} (name : String) (write : α → Json) : Option α → List (String × Json)
  | none => []
  | some a => [(name, write a)]

/-- The orders, unless there are none. -/
def writtenOrders (request : PageRequest) : Option (List OrderTerm) :=
  if request.orders.isEmpty then none else some request.orders

/-- The members of the document of a request: its parts that are there. -/
def members (request : PageRequest) : List (String × Json) :=
  memberIf "filter" Filter.toJson request.filter ++
    memberIf "expand" (fun paths => .array (paths.map .text)) request.expand ++
    memberIf "orders" (fun terms => .array (terms.map OrderTerm.toJson)) request.writtenOrders ++
    memberIf "skip" (fun (count : Nat) => .integer count) request.skip ++
    memberIf "take" (fun (count : Nat) => .integer count) request.take

def toJson (request : PageRequest) : Json := .object request.members

def fieldNames : List String := ["filter", "expand", "orders", "skip", "take"]

def ofJson? (json : Json) : Option PageRequest := do
  let fields ← json.fields? fieldNames
  let filter ← Json.optionalField? fields "filter" Filter.ofJson?
  let expand ← Json.optionalField? fields "expand" (Json.asArrayOf? Json.asText?)
  let orders ← Json.fieldOr? fields "orders" [] (Json.asArrayOf? OrderTerm.ofJson?)
  let skip ← Json.optionalField? fields "skip" Json.asCount?
  let take ← Json.optionalField? fields "take" Json.asCount?
  return ⟨filter, expand, orders, skip, take⟩

end PageRequest

namespace Page

def toJson {α : Type} (write : α → Json) (page : Page α) : Json :=
  .object [("items", .array (page.items.map write)), ("totalItems", .integer page.totalItems)]

def ofJson? {α : Type} (read? : Json → Option α) (json : Json) : Option (Page α) := do
  let fields ← json.fields? ["items", "totalItems"]
  let items ← Json.field? fields "items" (Json.asArrayOf? read?)
  let totalItems ← Json.field? fields "totalItems" Json.asCount?
  return ⟨items, totalItems⟩

end Page

namespace Patch

/-- Write a patch as an object with a member for each entry. -/
def toJson (patch : Patch) : Json :=
  .object (patch.entries.map fun (name, value) => (name, value.toJson))

/-- Read the members of an object as entries; of several with one name the last counts. -/
def ofJson? (json : Json) : Option Patch := do
  let members ← json.asObject?
  let entries ← members.mapM fun (name, member) => (Value.ofJson? member).map (name, ·)
  return ofList entries

end Patch

namespace ServiceConfig

def toJson (config : ServiceConfig) : Json :=
  .object [("auto_commit", .bool config.autoCommit)]

/-- Read settings; those that are absent have their defaults. -/
def ofJson? (json : Json) : Option ServiceConfig := do
  let fields ← json.fields? ["auto_commit"]
  let autoCommit ← Json.fieldOr? fields "auto_commit" default.autoCommit Json.asBool?
  return ⟨autoCommit⟩

end ServiceConfig

end EntityAccess
