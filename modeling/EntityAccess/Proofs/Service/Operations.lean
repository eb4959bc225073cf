import EntityAccess.Proofs.Query.Pages
import EntityAccess.Proofs.Store.Rows

/-!
# Operations on a table

What each operation of a service answers when its store is a table, and which table
it leaves.  Reads leave the table as it is, and so does an operation that fails; the
others end with a commit if the service is set to commit.  On a table of rows they
answer from the map of these rows.
-/

namespace EntityAccess

namespace Table

/-- The records that a predicate passes, in order. -/
def selected (table : Table) (predicate : Predicate) : List Record :=
  table.working.filter predicate.matcher.test

/-- The table at the end of an operation that changed it. -/
def finished (table : Table) (autoCommit : Bool) : Table :=
  if autoCommit then table.commit else table

end Table

namespace Service

/-- A service for the records of a table. -/
def onTable {Dto : Type} (catalog : Catalog) (shape : Shape) (mapper : Mapper Dto)
    (config : ServiceConfig) : Service Table TableQuery Dto where
  catalog := catalog
  shape := shape
  store := Table.store shape
  mapper := mapper
  config := config

/-- A service that shows the records of a table as they are. -/
def ofTable (catalog : Catalog) (shape : Shape) (autoCommit : Bool) :
    Service Table TableQuery Record where
  catalog := catalog
  shape := shape
  store := Table.store shape
  mapper := Mapper.identity
  config := ⟨autoCommit⟩

variable {Dto : Type} {catalog : Catalog} {shape : Shape} {mapper : Mapper Dto}
variable {config : ServiceConfig} {table : Table}

/-- What a call on the store gives, it gives as part of an operation. -/
theorem run_call_of_ok
    {σ α : Type} {action : StoreCall σ α} {value : α} {state after : σ}
    (done : Running.run action state = (.ok value, after)) :
    Running.run (call action) state = (.ok value, after) := by
  rw [call, Running.run_adapt, done]
  rfl

theorem run_call_of_error
    {σ α : Type} {action : StoreCall σ α} {e : StoreError} {state after : σ}
    (failed : Running.run action state = (.error e, after)) :
    Running.run (call action) state = (.error (.store e), after) := by
  rw [call, Running.run_adapt, failed]
  rfl

/-- An operation goes on with a part of its request that passes the check. -/
theorem run_checked_of_ok
    {σ α β : Type} {outcome : Except CompileError α} {value : α} (accepted : outcome = .ok value)
    (next : α → ServiceCall σ β) (state : σ) :
    Running.run (checked outcome >>= next) state = Running.run (next value) state := by
  rw [accepted]
  exact Running.run_bind_of_ok rfl next

/-- A part of a request that does not pass the check ends the operation. -/
theorem run_checked_of_error
    {σ α β : Type} {outcome : Except CompileError α} {e : CompileError}
    (refused : outcome = .error e) (next : α → ServiceCall σ β) (state : σ) :
    Running.run (checked outcome >>= next) state = (.error (.compile e), state) := by
  rw [refused]
  exact Running.run_bind_of_error rfl next

theorem run_finish (table : Table) :
    Running.run (onTable catalog shape mapper config).finish table =
      (.ok (), table.finished config.autoCommit) := by
  obtain ⟨autoCommit⟩ := config
  cases autoCommit <;> rfl

/-- The query for the records that a predicate passes. -/
def selection (predicate : Predicate) (e : Expansion) : TableQuery :=
  { TableQuery.all.push (.filter predicate.matcher) with expansion := e }

/-- A record is found by its key before its relations are dropped. -/
theorem run_getById (key : Value) (expand : List String) (table : Table) :
    Running.run ((onTable catalog shape mapper config).getById key expand) table =
      (match Expansion.build catalog shape expand with
        | .error e => .error (.compile e)
        | .ok e =>
            match (table.selected (shape.keyIs key)).head? with
            | some record => .ok (mapper.ofRecord (record.prune e))
            | none => .error (.notFound shape.name key.display), table) := by
  cases built : Expansion.build catalog shape expand with
  | error e => exact run_checked_of_error built _ table
  | ok e =>
      have query : Running.run (liftM ((onTable catalog shape mapper config).select
          (shape.keyIs key) e) : ServiceCall Table TableQuery) table =
        (.ok (selection (shape.keyIs key) e), table) := rfl
      have found := run_call_of_ok (Table.run_first shape (selection (shape.keyIs key) e) table)
      refine (run_checked_of_ok built _ table).trans ((Running.run_bind_of_ok query _).trans ?_)
      refine (Running.run_bind_of_ok found _).trans ?_
      change Running.run (match (table.selected (shape.keyIs key)).head?.map (Record.prune e) with
        | some record => _
        | none => _) table = _
      cases (table.selected (shape.keyIs key)).head? <;> rfl

/-- All records under the keys are found before their relations are dropped. -/
theorem run_getByIds (keys : List Value) (expand : List String) (table : Table) :
    Running.run ((onTable catalog shape mapper config).getByIds keys expand) table =
      (match Expansion.build catalog shape expand with
        | .error e => .error (.compile e)
        | .ok e =>
            .ok (((table.selected (shape.keyIn keys)).map (Record.prune e)).map mapper.ofRecord),
        table) := by
  cases built : Expansion.build catalog shape expand with
  | error e => exact run_checked_of_error built _ table
  | ok e => exact run_checked_of_ok built _ table

/-- A page shows the answer of the plan on the working records. -/
theorem run_getPaged (request : PageRequest) (table : Table) :
    Running.run ((onTable catalog shape mapper config).getPaged request) table =
      (match PagePlan.compile catalog shape request with
        | .error e => .error (.compile e)
        | .ok plan => .ok ((plan.answer table.working).map mapper.ofRecord), table) := by
  cases compiled : PagePlan.compile catalog shape request with
  | error e => exact run_checked_of_error compiled _ table
  | ok plan =>
      have answered := run_call_of_ok (plan.run_execute_eq_answer shape table)
      exact (run_checked_of_ok compiled _ table).trans (Running.run_bind_of_ok answered _)

theorem run_create_of_ok
    {dto : Dto} {changed : Table} (added : table.add shape (mapper.toRecord dto) = .ok changed) :
    Running.run ((onTable catalog shape mapper config).create dto) table =
      (.ok (mapper.ofRecord (mapper.toRecord dto)), changed.finished config.autoCommit) := by
  have attempted := Table.run_attempt (fun table => table.add shape (mapper.toRecord dto)) table
  simp only [added] at attempted
  have stored := run_call_of_ok
    (Running.run_bind_of_ok attempted fun _ => pure (mapper.toRecord dto))
  refine (Running.run_bind_of_ok stored _).trans ?_
  exact Running.run_bind_of_ok (run_finish changed) _

theorem run_create_of_error
    {dto : Dto} {e : StoreError} (refused : table.add shape (mapper.toRecord dto) = .error e) :
    Running.run ((onTable catalog shape mapper config).create dto) table =
      (.error (.store e), table) := by
  have attempted := Table.run_attempt (fun table => table.add shape (mapper.toRecord dto)) table
  simp only [refused] at attempted
  have failed := run_call_of_error
    (Running.run_bind_of_error attempted fun _ => pure (mapper.toRecord dto))
  exact Running.run_bind_of_error failed _

theorem run_delete (key : Value) (table : Table) :
    Running.run ((onTable catalog shape mapper config).delete key) table =
      (.ok (), (table.delete (shape.keyIs key)).finished config.autoCommit) := by
  have attempted := Table.run_attempt (fun table => .ok (table.delete (shape.keyIs key))) table
  exact (Running.run_bind_of_ok (run_call_of_ok attempted) _).trans (run_finish _)

section Update

variable {key : Value} {patch : Patch}

/-- A step of an update that writes to fields goes on with what was written. -/
theorem run_field_of_ok
    {σ α : Type} {outcome : Except FieldError α} {value : α} (done : outcome = .ok value)
    (state : σ) :
    Running.run (ExceptT.mk (pure (outcome.mapError .field)) : ServiceCall σ α) state =
      (.ok value, state) := by
  rw [done]
  rfl

theorem run_load (shape : Shape) (key : Value) (table : Table) :
    Running.run (call ((Table.store shape).getById shape key)) table =
      (.ok ((table.selected (shape.keyIs key)).head?.map (Record.prune .empty)), table) :=
  run_call_of_ok (Table.run_first shape (selection (shape.keyIs key) .empty) table)

/-- A patch at fault ends an update on any store before it is called. -/
theorem run_update_of_refused
    {σ Query : Type} {service : Service σ Query Dto} {e : FieldError}
    (refused : patch.prepare service.shape = .error e) (state : σ) :
    Running.run (service.update key patch) state = (.error (.field e), state) := by
  have failed : Running.run (ExceptT.mk (pure ((patch.prepare service.shape).mapError .field)) :
      ServiceCall σ PreparedPatch) state = (.error (.field e), state) := by
    rw [refused]
    rfl
  exact Running.run_bind_of_error failed _

theorem run_update_of_absent
    {prepared : PreparedPatch} (done : patch.prepare shape = .ok prepared)
    (absent : (table.selected (shape.keyIs key)).head? = none) :
    Running.run ((onTable catalog shape mapper config).update key patch) table =
      (.error (.notFound shape.name key.display), table) := by
  have checked := run_field_of_ok done table
  have loaded := run_load shape key table
  rw [absent] at loaded
  exact (Running.run_bind_of_ok checked _).trans (Running.run_bind_of_ok loaded _)

/-- A record is loaded without relations, patched and written over the one with its key. -/
theorem run_update_of_ok
    {prepared : PreparedPatch} (done : patch.prepare shape = .ok prepared)
    {record written : Record} {changed : Table}
    (found : (table.selected (shape.keyIs key)).head? = some record)
    (patched : prepared.patched (record.prune .empty) = .ok written)
    (updated : table.update shape written = .ok changed) :
    Running.run ((onTable catalog shape mapper config).update key patch) table =
      (.ok (mapper.ofRecord written), changed.finished config.autoCommit) := by
  have checked := run_field_of_ok done table
  have loaded := run_load shape key table
  rw [found] at loaded
  have applied := run_field_of_ok patched table
  have attempted := Table.run_attempt (fun table => table.update shape written) table
  simp only [updated] at attempted
  have stored := run_call_of_ok (Running.run_bind_of_ok attempted fun _ => pure written)
  refine (Running.run_bind_of_ok checked _).trans ((Running.run_bind_of_ok loaded _).trans ?_)
  refine (Running.run_bind_of_ok applied _).trans ((Running.run_bind_of_ok stored _).trans ?_)
  exact Running.run_bind_of_ok (run_finish changed) _

end Update

end Service

/-! ## Rows -/

variable {shape : Shape} {Key : Type} [ToValue Key]

namespace Table

/-- The table with the rows of a map, which it commits if every change is committed at once. -/
def changeTo (table : Table) (map : RowMap shape Key) (autoCommit : Bool) : Table :=
  (table.change map.records).finished autoCommit

@[simp]
theorem working_changeTo (table : Table) (map : RowMap shape Key) (autoCommit : Bool) :
    (table.changeTo map autoCommit).working = map.records := by
  cases autoCommit with
  | false => rfl
  | true => exact (table.change map.records).working_commit

/-- After a second change, nothing but their number is left of the first one. -/
theorem changeTo_changeTo
    (table : Table) (first second last : RowMap shape Key) (autoCommit : Bool) :
    (table.changeTo first autoCommit).changeTo last autoCommit =
      (table.changeTo second autoCommit).changeTo last autoCommit := by
  cases autoCommit with
  | false => rfl
  | true => simp [changeTo, finished, change, commit]

end Table

variable [RecordKey Key] [DecidableEq Key] {table : Table} {map : RowMap shape Key}

/-- The first record that a table has under a key is that of the first row with it. -/
theorem Table.head?_selected_rows
    {rows : List (Row shape Key)} (working : table.working = rows.map Row.record) (key : Key) :
    (table.selected (shape.keyIs (toValue key))).head? =
      (rows.find? fun row => row.key = key).map Row.record := by
  have passes : (shape.keyIs (toValue key)).matcher.test ∘ Row.record =
      fun row : Row shape Key => decide (row.key = key) := by
    funext row
    rw [Bool.eq_iff_iff, decide_eq_true_iff]
    exact Shape.test_keyIs row.keyed key
  rw [selected, working, List.head?_filter, List.find?_map, passes]

/-- The record that a table has under a key is that of its map. -/
theorem Table.head?_selected (working : table.working = map.records) (key : Key) :
    (table.selected (shape.keyIs (toValue key))).head? = (map.find? key).map Row.record :=
  head?_selected_rows working key

namespace Service

variable {Dto : Type} {catalog : Catalog} {mapper : Mapper Dto} {config : ServiceConfig}

theorem run_getById_row (working : table.working = map.records) (key : Key) (expand : List String) :
    Running.run ((onTable catalog shape mapper config).getById (toValue key) expand) table =
      (match Expansion.build catalog shape expand, map.find? key with
        | .error e, _ => .error (.compile e)
        | .ok _, none => .error (.notFound shape.name (toValue key).display)
        | .ok e, some row => .ok (mapper.ofRecord (row.record.prune e)), table) := by
  rw [run_getById, Table.head?_selected working]
  cases Expansion.build catalog shape expand with
  | error e => rfl
  | ok e => cases map.find? key <;> rfl

theorem run_getByIds_rows
    (working : table.working = map.records) (keys : List Key) (expand : List String) :
    Running.run ((onTable catalog shape mapper config).getByIds (keys.map toValue) expand) table =
      (match Expansion.build catalog shape expand with
        | .error e => .error (.compile e)
        | .ok e => .ok ((map.among keys).map fun row => mapper.ofRecord (row.record.prune e)),
        table) := by
  simp only [run_getByIds, Table.selected, working, RowMap.filter_keyIn, List.map_map]
  rfl

/-- A row is added under a new key only. -/
theorem run_create_row
    (working : table.working = map.records) {dto : Dto} {row : Row shape Key}
    (made : mapper.toRecord dto = row.record) :
    Running.run ((onTable catalog shape mapper config).create dto) table =
      if fresh : row.key ∉ map.keys then
        (.ok (mapper.ofRecord row.record), table.changeTo (map.append row fresh) config.autoCommit)
      else (.error (.store (Table.duplicateKey shape (toValue row.key))), table) := by
  split
  · rename_i fresh
    have added := Table.add_of_not_mem working fresh
    rw [← made] at added ⊢
    exact run_create_of_ok added
  · rename_i taken
    have refused := Table.add_of_mem working (not_not.1 taken)
    rw [← made] at refused
    exact run_create_of_error refused

/-- The row under a key is patched where it is, after the patch was checked. -/
theorem run_update_row (working : table.working = map.records) (key : Key) (patch : Patch) :
    Running.run ((onTable catalog shape mapper config).update (toValue key) patch) table =
      match patch.prepare shape, map.find? key with
      | .error e, _ => (.error (.field e), table)
      | .ok _, none => (.error (.notFound shape.name (toValue key).display), table)
      | .ok _, some row =>
          (.ok (mapper.ofRecord ((row.patch patch).record.prune .empty)),
            table.changeTo (map.patch key patch) config.autoCommit) := by
  cases done : patch.prepare shape with
  | error e => exact run_update_of_refused done table
  | ok prepared =>
      have loaded := Table.head?_selected working key
      cases found : map.find? key with
      | none =>
          rw [found] at loaded
          exact run_update_of_absent done loaded
      | some row =>
          rw [found] at loaded
          have patched := Patch.patched_eq_rebind done (row.fits.prune .empty)
          rw [Record.rebind_prune] at patched
          exact run_update_of_ok done loaded patched
            (Table.update_patched working found patch .empty)

/-- The row under a key is removed, if there is one. -/
theorem run_delete_row (working : table.working = map.records) (key : Key) :
    Running.run ((onTable catalog shape mapper config).delete (toValue key)) table =
      (.ok (), table.changeTo (map.erase key) config.autoCommit) := by
  rw [run_delete, Table.delete_keyIs working]
  rfl

end Service

end EntityAccess
