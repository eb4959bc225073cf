import EntityAccess.Query

/-!
# Tables

A store in memory.  Changes go to the working records at once and are seen by
every later query; a commit publishes them and a rollback discards them.  The
working records keep all their relations, and a query returns them pruned to the
relations it asked for.  A journal forwards every call to another store, notes it
first, and can be told to let the calls of one kind fail.
-/

namespace EntityAccess

structure Table where
  committed : List Record
  working : List Record
  /-- The number of changes since the last commit or rollback. -/
  pending : Nat

/-- A refinement of a query over a table. -/
inductive QueryStep where
  | filter (matcher : Matcher)
  | order (keys : List SortKey)
  | skip (count : Nat)
  | take (count : Nat)

/-- A query over a table: what to do with the records, in order, and what to load. -/
structure TableQuery where
  steps : List QueryStep
  expansion : Expansion

namespace QueryStep

def apply (records : List Record) : QueryStep → List Record
  | .filter matcher => records.filter matcher.test
  | .order keys => SortKey.sort keys records
  | .skip count => records.drop count
  | .take count => records.take count

end QueryStep

namespace TableQuery

def all : TableQuery := ⟨[], Expansion.empty⟩

def push (query : TableQuery) (step : QueryStep) : TableQuery :=
  { query with steps := query.steps ++ [step] }

/-- The records that remain after all steps, with all their relations. -/
def select (query : TableQuery) (records : List Record) : List Record :=
  query.steps.foldl QueryStep.apply records

def results (query : TableQuery) (records : List Record) : List Record :=
  (query.select records).map (Record.prune query.expansion)

end TableQuery

namespace Table

def ofRecords (records : List Record) : Table := ⟨records, records, 0⟩

/-- The committed records with all their relations. -/
def snapshot (table : Table) : List Record := table.committed

/-- Publish the working records, unless nothing has changed. -/
def commit (table : Table) : Table :=
  if table.pending = 0 then table
  else { table with committed := table.working, pending := 0 }

def rollback (table : Table) : Table :=
  { table with working := table.committed, pending := 0 }

def change (table : Table) (working : List Record) : Table :=
  { table with working, pending := table.pending + 1 }

/-- A commit publishes exactly what is worked on. -/
theorem snapshot_commit_of_pending_ne_zero {table : Table} (changed : table.pending ≠ 0) :
    table.commit.snapshot = table.working := by
  simp [commit, snapshot, changed]

/-- So does a commit that has nothing to do, if nothing was changed without a count. -/
theorem snapshot_commit {table : Table}
    (settled : table.pending = 0 → table.snapshot = table.working) :
    table.commit.snapshot = table.working := by
  by_cases unchanged : table.pending = 0
  · rw [commit, if_pos unchanged]
    exact settled unchanged
  · exact snapshot_commit_of_pending_ne_zero unchanged

@[simp]
theorem working_commit (table : Table) : table.commit.working = table.working := by
  simp only [commit]
  split <;> rfl

@[simp]
theorem pending_commit (table : Table) : table.commit.pending = 0 := by
  simp only [commit]
  split <;> simp_all

@[simp]
theorem snapshot_rollback (table : Table) : table.rollback.snapshot = table.snapshot := rfl

@[simp]
theorem working_rollback (table : Table) : table.rollback.working = table.snapshot := rfl

@[simp]
theorem snapshot_change (table : Table) (working : List Record) :
    (table.change working).snapshot = table.snapshot := rfl

/-- Add a record at the end, unless its key is taken. -/
def add (shape : Shape) (table : Table) (record : Record) : Except StoreError Table :=
  let key := shape.keyOf record
  if table.working.any fun kept => shape.keyOf kept == key then
    .error (.ofDetail ("duplicate key " ++ key.display ++ " in `" ++ shape.name ++ "`"))
  else .ok (table.change (table.working ++ [record]))

/-- Write the listed scalars of one record onto another, as far as the first knows them. -/
def copyScalars (shape : Shape) (source : Record) :
    List Field → Record → Except StoreError Record
  | [], target => .ok target
  | field :: rest, target =>
      match source.scalar? field.name with
      | none => copyScalars shape source rest target
      | some value =>
          match target.set? field.name value with
          | some written => copyScalars shape source rest written
          | none =>
              .error (.ofDetail ("field `" ++ field.name ++ "` of `" ++ shape.name ++
                "` could not be written"))

/--
Write the scalars of a record onto the first kept record with the same key,
which stays in its place and keeps its relations.
-/
def overwrite (shape : Shape) (record : Record) : List Record → Except StoreError (List Record)
  | [] =>
      .error (.ofDetail ("no `" ++ shape.name ++ "` record with key " ++
        (shape.keyOf record).display ++ " to update"))
  | kept :: rest =>
      if shape.keyOf kept == shape.keyOf record then
        (copyScalars shape record shape.scalars kept).map (· :: rest)
      else (overwrite shape record rest).map (kept :: ·)

/-- Update the kept record with the key of the given one. -/
def update (shape : Shape) (table : Table) (record : Record) : Except StoreError Table :=
  (overwrite shape record table.working).map table.change

def delete (table : Table) (predicate : Predicate) : Table :=
  let matcher := predicate.matcher
  table.change (table.working.filter fun record => !matcher.test record)

/-- Take over the outcome of a change, or leave the table as it is. -/
def attempt (change : Table → Except StoreError Table) : StoreCall Table Unit := do
  let changed ← ExceptT.mk (do return change (← get))
  set changed

/-- The table as a store for records of a shape. -/
def store (shape : Shape) : Store Table TableQuery where
  filter predicate query := return query.push (.filter predicate.matcher)
  orderBy keys query := return if keys.isEmpty then query else query.push (.order keys)
  expand expansion query := return { query with expansion }
  skip count query := return query.push (.skip count)
  take count query := return query.push (.take count)
  count query := return (query.select (← get).working).length
  toList query := return query.results (← get).working
  getAll := return .all
  add record := do
    attempt fun table => table.add shape record
    return record
  update record := do
    attempt fun table => table.update shape record
    return record
  delete predicate := attempt fun table => .ok (table.delete predicate)
  commit := attempt fun table => .ok table.commit

end Table

/-! ## Journals -/

inductive CallKind where
  | getAll
  | add
  | update
  | delete
  | commit
  | filter
  | orderBy
  | expand
  | skip
  | take
  | count
  | toList
  deriving DecidableEq, Repr

namespace CallKind

def name : CallKind → String
  | .getAll => "get_all"
  | .add => "add"
  | .update => "update"
  | .delete => "delete"
  | .commit => "commit"
  | .filter => "filter"
  | .orderBy => "order_by"
  | .expand => "expand"
  | .skip => "skip"
  | .take => "take"
  | .count => "count"
  | .toList => "to_list"

def all : List CallKind :=
  [.getAll, .add, .update, .delete, .commit, .filter, .orderBy, .expand, .skip, .take, .count,
    .toList]

def ofName? (name : String) : Option CallKind :=
  all.find? fun kind => kind.name == name

end CallKind

/-- The failure of all calls of one kind. -/
structure Fault where
  call : CallKind
  error : StoreError

/-- The state of a store with the calls made on it, in order. -/
structure Journal (σ : Type) where
  inner : σ
  calls : List CallKind
  fault : Option Fault

namespace Journal

def ofState {σ : Type} (inner : σ) : Journal σ := ⟨inner, [], none⟩

def note {σ : Type} (kind : CallKind) : StateM (Journal σ) Unit :=
  modify fun journal => { journal with calls := journal.calls ++ [kind] }

/-- Run a call on the inner state. -/
def forward {σ α : Type} (call : StateM σ α) : StateM (Journal σ) α :=
  fun journal =>
    let (answer, inner) := call journal.inner
    (answer, { journal with inner })

/-- Note a refinement and forward it. -/
def refine {σ α : Type} (kind : CallKind) (call : StateM σ α) : StateM (Journal σ) α := do
  note kind
  forward call

/-- The failure that is due for a kind of call. -/
def due? {σ : Type} (journal : Journal σ) (kind : CallKind) : Option StoreError :=
  journal.fault.bind fun fault => if fault.call = kind then some fault.error else none

/-- Note a call and forward it, unless it is to fail. -/
def run {σ α : Type} (kind : CallKind) (call : StoreCall σ α) : StoreCall (Journal σ) α := do
  (note kind : StateM (Journal σ) Unit)
  match (← get).due? kind with
  | some error => throw error
  | none => ExceptT.mk (forward call.run)

/-- The journal of a store as a store. -/
def store {σ Query : Type} (inner : Store σ Query) : Store (Journal σ) Query where
  filter predicate query := refine .filter (inner.filter predicate query)
  orderBy keys query := refine .orderBy (inner.orderBy keys query)
  expand expansion query := refine .expand (inner.expand expansion query)
  skip count query := refine .skip (inner.skip count query)
  take count query := refine .take (inner.take count query)
  count query := run .count (inner.count query)
  toList query := run .toList (inner.toList query)
  getAll := refine .getAll inner.getAll
  add record := run .add (inner.add record)
  update record := run .update (inner.update record)
  delete predicate := run .delete (inner.delete predicate)
  commit := run .commit inner.commit

end Journal

end EntityAccess
