import EntityAccess.Patch
import EntityAccess.Query

/-!
# Services

Create, read, page, patch and delete the records of one type, shown to clients as
projections.  Every operation checks its whole request before it calls the store,
so a request at fault changes nothing.
-/

namespace EntityAccess

/-- Why a service operation has no answer. -/
inductive ServiceError where
  /-- The filter, the ordering or the expansion does not fit the shape. -/
  | compile (e : CompileError)
  /-- An entry of a patch cannot be written. -/
  | field (e : FieldError)
  | notFound (shape key : String)
  | store (e : StoreError)
  deriving DecidableEq, Repr

/-- The class of a failure. -/
inductive ErrorKind where
  | unknownField
  | typeMismatch
  | invalidOperator
  | invalidArity
  | tooDeep
  | fieldError
  | notFound
  | storage
  deriving DecidableEq, Repr

namespace ErrorKind

def name : ErrorKind → String
  | .unknownField => "unknown_field"
  | .typeMismatch => "type_mismatch"
  | .invalidOperator => "invalid_operator"
  | .invalidArity => "invalid_arity"
  | .tooDeep => "too_deep"
  | .fieldError => "field_error"
  | .notFound => "not_found"
  | .storage => "storage"

/-- Whether the request can never succeed as it stands. -/
def isClientError : ErrorKind → Bool
  | .notFound | .storage => false
  | _ => true

end ErrorKind

def CompileError.kind : CompileError → ErrorKind
  | .unknownField .. => .unknownField
  | .typeMismatch .. => .typeMismatch
  | .invalidOperator .. => .invalidOperator
  | .invalidArity .. => .invalidArity
  | .tooDeep _ => .tooDeep

namespace ServiceError

def kind : ServiceError → ErrorKind
  | .compile e => e.kind
  | .field _ => .fieldError
  | .notFound .. => .notFound
  | .store _ => .storage

def message : ServiceError → String
  | .compile e => e.message
  | .field e => e.message
  | .notFound shape key => "no `" ++ shape ++ "` record with key " ++ key
  | .store e => e.message

end ServiceError

/-! ## Operations -/

/-- A projection of records to what clients see, and back. -/
structure Mapper (Dto : Type) where
  toRecord : Dto → Record
  ofRecord : Record → Dto

def Mapper.identity : Mapper Record := ⟨id, id⟩

structure ServiceConfig where
  /-- Commit at the end of every operation that changes records. -/
  autoCommit : Bool
  deriving DecidableEq, Repr

/-- Operations commit unless told otherwise. -/
def ServiceConfig.default : ServiceConfig := ⟨true⟩

/-- A service for the records of one shape in a store. -/
structure Service (σ Query Dto : Type) where
  catalog : Catalog
  shape : Shape
  store : Store σ Query
  mapper : Mapper Dto
  config : ServiceConfig

abbrev ServiceCall (σ : Type) := ExceptT ServiceError (StateM σ)

namespace Service

variable {σ Query Dto : Type}

def setAutoCommit (service : Service σ Query Dto) (autoCommit : Bool) : Service σ Query Dto :=
  { service with config := ⟨autoCommit⟩ }

/-- A call on the store as part of an operation. -/
def call {α : Type} (action : StoreCall σ α) : ServiceCall σ α :=
  action.adapt .store

/-- Go on with a checked part of a request, or report its fault. -/
def checked {α : Type} (e : Except CompileError α) : ServiceCall σ α :=
  ExceptT.mk (pure (e.mapError .compile))

def notFound {α : Type} (service : Service σ Query Dto) (key : Value) : ServiceCall σ α :=
  throw (.notFound service.shape.name key.display)

def finish (service : Service σ Query Dto) : ServiceCall σ Unit :=
  if service.config.autoCommit then call service.store.commit else pure ()

/-- A query over the records that a predicate holds of, with relations to load. -/
def select (service : Service σ Query Dto) (predicate : Predicate) (expansion : Expansion) :
    StateM σ Query := do
  let all ← service.store.getAll
  let matching ← service.store.filter predicate all
  service.store.expand expansion matching

def getById (service : Service σ Query Dto) (key : Value) (expand : List String) :
    ServiceCall σ Dto := do
  let expansion ← checked (Expansion.build service.catalog service.shape expand)
  let query ← (service.select (service.shape.keyIs key) expansion : StateM σ Query)
  match ← call (service.store.first query) with
  | some record => return service.mapper.ofRecord record
  | none => service.notFound key

/-- The records with the given keys; keys without a record are passed over. -/
def getByIds (service : Service σ Query Dto) (keys : List Value) (expand : List String) :
    ServiceCall σ (List Dto) := do
  let expansion ← checked (Expansion.build service.catalog service.shape expand)
  let query ← (service.select (service.shape.keyIn keys) expansion : StateM σ Query)
  let records ← call (service.store.toList query)
  return records.map service.mapper.ofRecord

def getPaged (service : Service σ Query Dto) (request : PageRequest) :
    ServiceCall σ (Page Dto) := do
  let plan ← checked (PagePlan.compile service.catalog service.shape request)
  let all ← (service.store.getAll : StateM σ Query)
  let page ← call (plan.execute service.store.toSource all)
  return page.map service.mapper.ofRecord

def create (service : Service σ Query Dto) (dto : Dto) : ServiceCall σ Dto := do
  let stored ← call (service.store.add (service.mapper.toRecord dto))
  service.finish
  return service.mapper.ofRecord stored

def update (service : Service σ Query Dto) (key : Value) (patch : Patch) :
    ServiceCall σ Dto := do
  let prepared ← ExceptT.mk (pure ((patch.prepare service.shape).mapError .field))
  match ← call (service.store.getById service.shape key) with
  | none => service.notFound key
  | some record =>
      let patched ← ExceptT.mk (pure ((prepared.patched record).mapError .field))
      let stored ← call (service.store.update patched)
      service.finish
      return service.mapper.ofRecord stored

/-- Remove the record with a key, if there is one. -/
def delete (service : Service σ Query Dto) (key : Value) : ServiceCall σ Unit := do
  call (service.store.delete (service.shape.keyIs key))
  service.finish

end Service

end EntityAccess
