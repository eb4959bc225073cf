import EntityAccess.Filter.Basic

/-!
# Queries

What a query asks for: the relations to load, the order of the records, and a slice
of them.  A store has a state that its calls may change, and query objects that
are refined call by call and then counted or listed.
-/

namespace EntityAccess

/-- A chain of relations by name, the outermost first. -/
abbrev RelationPath := List String

structure Expansion where
  paths : List RelationPath
  deriving DecidableEq, Repr

namespace Expansion

def empty : Expansion := ⟨[]⟩

def isEmpty (e : Expansion) : Bool := e.paths.isEmpty

def size (e : Expansion) : Nat := e.paths.length

/-- Whether a chain of relations begins one of the paths. -/
def covers (e : Expansion) (chain : RelationPath) : Bool :=
  e.paths.any chain.isPrefixOf

theorem covers_iff {e : Expansion} {chain : RelationPath} :
    e.covers chain = true ↔ ∃ path ∈ e.paths, chain <+: path := by
  simp [covers]

/-- Put a new path in the place of the first one that it extends, or at the end. -/
def extend (path : RelationPath) : List RelationPath → List RelationPath
  | [] => [path]
  | old :: rest => if old.isPrefixOf path then path :: rest else old :: extend path rest

/-- Add a path unless the relations on it are already loaded. -/
def insert (e : Expansion) (path : RelationPath) : Expansion :=
  if e.covers path then e else ⟨extend path e.paths⟩

def includes (e : Expansion) (name : String) : Bool :=
  e.paths.any fun path => path.head? == some name

/-- The rest of a path that begins with a relation and goes on. -/
def tailAfter? (name : String) : RelationPath → Option RelationPath
  | first :: second :: rest => if first = name then some (second :: rest) else none
  | _ => none

/-- What to load beside the records behind a relation. -/
def nested (e : Expansion) (name : String) : Expansion :=
  ⟨e.paths.filterMap (tailAfter? name)⟩

theorem tailAfter?_eq_some_iff {name : String} {path tail : RelationPath} :
    tailAfter? name path = some tail ↔ path = name :: tail ∧ tail ≠ [] := by
  match path with
  | [] => simp [tailAfter?]
  | [first] =>
      simp only [tailAfter?, reduceCtorEq, List.cons.injEq, false_iff, not_and, and_imp]
      exact fun _ same different => different same.symm
  | first :: second :: rest =>
      simp only [tailAfter?, Option.ite_none_right_eq_some, Option.some.injEq, List.cons.injEq,
        and_assoc, and_congr_right_iff]
      rintro -
      constructor
      · rintro rfl
        exact ⟨rfl, List.cons_ne_nil _ _⟩
      · exact fun both => both.1

/-- What is nested under a relation are the proper tails of the paths that begin with it. -/
theorem mem_paths_nested_iff {e : Expansion} {name : String} {tail : RelationPath} :
    tail ∈ (e.nested name).paths ↔ name :: tail ∈ e.paths ∧ tail ≠ [] := by
  simp only [nested, List.mem_filterMap, tailAfter?_eq_some_iff]
  constructor
  · rintro ⟨path, mem, rfl, nonempty⟩
    exact ⟨mem, nonempty⟩
  · exact fun ⟨mem, nonempty⟩ => ⟨_, mem, rfl, nonempty⟩

/-- The chain of relations that a dotted path names. -/
def relationPath (catalog : Catalog) (shape : Shape) (path : String) :
    Except CompileError RelationPath := do
  let resolved ← catalog.compilePath shape path
  if resolved.leaf.isRelation then return resolved.segments
  else .error (.unknownField path ("`" ++ resolved.leaf.name ++ "` is not a relation"))

/-- Check the paths in order and keep the longest. -/
def build (catalog : Catalog) (shape : Shape) (paths : List String) :
    Except CompileError Expansion :=
  paths.foldlM (fun e path => (relationPath catalog shape path).map e.insert) empty

end Expansion

mutual

/-- The record with every relation dropped that the expansion does not load, at each level. -/
def Record.prune (e : Expansion) : Record → Record
  | .mk shape scalars relations => .mk shape scalars (Relation.pruneAll e relations)

def Relation.pruneAll (e : Expansion) : List Relation → List Relation
  | [] => []
  | relation :: rest => relation.prune e :: Relation.pruneAll e rest

/-- Empty a relation that is not loaded, and prune the records behind one that is. -/
def Relation.prune (e : Expansion) : Relation → Relation
  | .one name related =>
      if e.includes name then .one name (Record.pruneOptional (e.nested name) related)
      else .one name none
  | .many name related =>
      if e.includes name then .many name (Record.pruneList (e.nested name) related)
      else .many name []

def Record.pruneOptional (e : Expansion) : Option Record → Option Record
  | none => none
  | some record => some (record.prune e)

def Record.pruneList (e : Expansion) : List Record → List Record
  | [] => []
  | record :: rest => record.prune e :: Record.pruneList e rest

end

/-! ## Sorting -/

/-- The direction of a sort key. -/
inductive Direction where
  | ascending
  | descending
  deriving DecidableEq, Repr

namespace Direction

/-- The name in documents. -/
def name : Direction → String
  | .ascending => "asc"
  | .descending => "desc"

/-- Turn an order round for a descending key. -/
def apply : Direction → Ordering → Ordering
  | .ascending, order => order
  | .descending, order => order.swap

end Direction

/-- A sort key as a client sends it. -/
structure OrderTerm where
  path : String
  direction : Direction
  deriving DecidableEq, Repr

/-- A sort key with its path resolved. -/
structure SortKey where
  path : Path
  direction : Direction
  deriving DecidableEq

/-- The order of two values at one key. -/
def Value.sortOrder (left right : Value) : Ordering :=
  match left.isNull, right.isNull with
  | true, true => .eq
  | true, false => .lt
  | false, true => .gt
  | false, false => (left.compare? right).getD .eq

namespace SortKey

/-- The order of two records by one key. -/
def compare (key : SortKey) (left right : Record) : Ordering :=
  key.direction.apply ((key.path.first left).sortOrder (key.path.first right))

/-- The order of two records by several keys; earlier keys decide first. -/
def compareAll : List SortKey → Record → Record → Ordering
  | [], _, _ => .eq
  | key :: rest, left, right => (key.compare left right).then (compareAll rest left right)

/--
Put a record behind the last sorted one that it does not come before.  The
sorted records are listed from the last to the first.
-/
def place (keys : List SortKey) (record : Record) : List Record → List Record
  | [] => [record]
  | last :: earlier =>
      if compareAll keys record last = .lt then last :: place keys record earlier
      else record :: last :: earlier

/--
Sort records by placing one after the other.  Where the keys put the records in
order, this is the one stable sort.  Keys that read NaN may not do so, and then no
order is promised: what comes out here is one choice among others, and sorting
more than 20 such records may even fail.
-/
def sort (keys : List SortKey) (records : List Record) : List Record :=
  (records.foldl (fun sorted record => place keys record sorted) []).reverse

theorem place_perm (keys : List SortKey) (record : Record) (sorted : List Record) :
    (place keys record sorted).Perm (record :: sorted) := by
  induction sorted with
  | nil => exact List.Perm.refl _
  | cons last earlier ih =>
      simp only [place]
      split
      · exact (ih.cons last).trans (List.Perm.swap record last earlier)
      · exact List.Perm.refl _

theorem foldl_place_perm (keys : List SortKey) (records sorted : List Record) :
    (records.foldl (fun sorted record => place keys record sorted) sorted).Perm
      (records ++ sorted) := by
  induction records generalizing sorted with
  | nil => exact List.Perm.refl _
  | cons record rest ih =>
      exact (ih _).trans (((place_perm keys record sorted).append_left rest).trans List.perm_middle)

/-- Sorting neither drops nor repeats a record. -/
theorem sort_perm (keys : List SortKey) (records : List Record) :
    (sort keys records).Perm records := by
  have placed := foldl_place_perm keys records []
  rw [List.append_nil] at placed
  exact (List.reverse_perm _).trans placed

end SortKey

namespace OrderTerm

/-- Check one term: its path ends on a scalar and crosses only to-one relations. -/
def compile (catalog : Catalog) (shape : Shape) (term : OrderTerm) :
    Except CompileError SortKey := do
  let path ← catalog.compilePath shape term.path
  if path.scalar?.isNone then
    .error (.unknownField term.path ("cannot order by relation `" ++ path.leaf.name ++ "`"))
  else if !path.isSingleValued then
    .error (.unknownField term.path "cannot order by a path through a to-many relation")
  else return ⟨path, term.direction⟩

/-- Check terms in order. -/
def compileAll (catalog : Catalog) (shape : Shape) (terms : List OrderTerm) :
    Except CompileError (List SortKey) :=
  terms.mapM (compile catalog shape)

end OrderTerm

/-! ## Stores -/

/-- A failure inside a store, with the failure behind it if there is one. -/
structure StoreError where
  detail : String
  source : Option String
  deriving DecidableEq, Repr

namespace StoreError

def ofDetail (detail : String) : StoreError := ⟨detail, none⟩

def message (e : StoreError) : String := "storage error: " ++ e.detail

end StoreError

/-- A call that may change the state of a store and may fail. -/
abbrev StoreCall (σ : Type) := ExceptT StoreError (StateM σ)

/--
Queries over the records of a store.  Refinements apply in the order of their
calls: a filter after a limit filters the limited records.
-/
structure Source (σ Query : Type) where
  filter : Predicate → Query → StateM σ Query
  orderBy : List SortKey → Query → StateM σ Query
  expand : Expansion → Query → StateM σ Query
  skip : Nat → Query → StateM σ Query
  take : Nat → Query → StateM σ Query
  count : Query → StoreCall σ Nat
  toList : Query → StoreCall σ (List Record)

def Source.first {σ Query : Type} (source : Source σ Query) (query : Query) :
    StoreCall σ (Option Record) := do
  let limited ← source.take 1 query
  return (← source.toList limited).head?

/-- A place that keeps records of one type. -/
structure Store (σ Query : Type) extends Source σ Query where
  getAll : StateM σ Query
  /-- Add a record and return it as it is kept. -/
  add : Record → StoreCall σ Record
  /-- Replace the record with the same key. -/
  update : Record → StoreCall σ Record
  delete : Predicate → StoreCall σ Unit
  /-- Make all changes durable, or none of them. -/
  commit : StoreCall σ Unit

/-- The record with a key, if the store has one. -/
def Store.getById {σ Query : Type} (store : Store σ Query) (shape : Shape) (key : Value) :
    StoreCall σ (Option Record) := do
  let all ← store.getAll
  let matching ← store.filter (shape.keyIs key) all
  store.first matching

/-! ## Pages -/

structure PageRequest where
  filter : Option Filter
  expand : Option (List String)
  orders : List OrderTerm
  skip : Option Nat
  take : Option Nat

/-- The request for all records. -/
def PageRequest.everything : PageRequest := ⟨none, none, [], none, none⟩

/-- The items of a page and the number of records before the slice was cut. -/
structure Page (α : Type) where
  items : List α
  totalItems : Nat
  deriving DecidableEq, Repr

def Page.map {α β : Type} (f : α → β) (page : Page α) : Page β :=
  ⟨page.items.map f, page.totalItems⟩

structure PagePlan where
  predicate : Predicate
  sort : List SortKey
  expansion : Expansion
  skip : Option Nat
  take : Option Nat

inductive QueryError where
  | compile (e : CompileError)
  | store (e : StoreError)
  deriving DecidableEq, Repr

def QueryError.message : QueryError → String
  | .compile e => e.message
  | .store e => e.message

namespace PagePlan

def compile (catalog : Catalog) (shape : Shape) (request : PageRequest) :
    Except CompileError PagePlan := do
  let predicate ← Filter.compileOptional catalog shape request.filter
  let sort ← OrderTerm.compileAll catalog shape request.orders
  let expansion ← Expansion.build catalog shape (request.expand.getD [])
  return ⟨predicate, sort, expansion, request.skip, request.take⟩

/-- Refine a query by a number if there is one. -/
def refineBy {σ Query : Type} (refine : Nat → Query → StateM σ Query) :
    Option Nat → Query → StateM σ Query
  | none, query => return query
  | some count, query => refine count query

/-- Filter and count, then order, load relations, cut the slice and list it. -/
def execute {σ Query : Type} (plan : PagePlan) (source : Source σ Query) (query : Query) :
    StoreCall σ (Page Record) := do
  let filtered ← if plan.predicate.isAll then pure query else source.filter plan.predicate query
  let totalItems ← source.count filtered
  let ordered ← source.orderBy plan.sort filtered
  let expanded ← source.expand plan.expansion ordered
  let skipped ← (refineBy source.skip plan.skip expanded : StateM σ Query)
  let taken ← (refineBy source.take plan.take skipped : StateM σ Query)
  return ⟨← source.toList taken, totalItems⟩

end PagePlan

/-- Check a request and answer it from a source. -/
def Source.page
    {σ Query : Type} (source : Source σ Query) (query : Query) (catalog : Catalog)
    (shape : Shape) (request : PageRequest) : ExceptT QueryError (StateM σ) (Page Record) :=
  match PagePlan.compile catalog shape request with
  | .error e => throw (.compile e)
  | .ok plan => (plan.execute source query).adapt .store

end EntityAccess
