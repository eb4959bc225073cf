import EntityAccess.Proofs.Service.Operations

/-!
# Services as maps

What a client sees of a service on a table, said without one: the rows are maps from
keys to records in the order of insertion, one for the changes so far and one for
those that were committed last.
-/

namespace EntityAccess

variable {shape : Shape} {Key : Type} [ToValue Key]

/-- A call on a service, or on the store behind it. -/
inductive Call (shape : Shape) (Key : Type) [ToValue Key] where
  | create (row : Row shape Key)
  | update (key : Key) (patch : Patch)
  | delete (key : Key)
  | getById (key : Key) (expand : List String)
  | getByIds (keys : List Key) (expand : List String)
  | getPaged (request : PageRequest)
  | setAutoCommit (autoCommit : Bool)
  | commit
  | rollback

inductive Answer where
  | done
  | record (record : Record)
  | records (records : List Record)
  | page (page : Page Record)
  | failed (e : ServiceError)

/-- The answer with the value of an operation, or with its failure. -/
def Answer.of {α : Type} (wrap : α → Answer) : Except ServiceError α → Answer
  | .ok value => wrap value
  | .error e => .failed e

/-- The answers to calls one after the other, and the state after the last one. -/
def runCalls {σ : Type} (step : σ → Call shape Key → Answer × σ) (state : σ) :
    List (Call shape Key) → List Answer × σ
  | [] => ([], state)
  | call :: rest =>
      let after := runCalls step (step state call).2 rest
      ((step state call).1 :: after.1, after.2)

/-- The rows that were committed last and those with all changes. -/
structure Ledger (shape : Shape) (Key : Type) [ToValue Key] where
  committed : RowMap shape Key
  working : RowMap shape Key
  /-- Changes are committed at once. -/
  autoCommit : Bool

namespace Ledger

variable [DecidableEq Key]

def change (ledger : Ledger shape Key) (working : RowMap shape Key) : Ledger shape Key :=
  { ledger with
    working
    committed := if ledger.autoCommit then working else ledger.committed }

def absent (shape : Shape) (key : Key) : Answer :=
  .failed (.notFound shape.name (toValue key).display)

/-- The answer to a call, and the ledger afterwards. -/
def step (catalog : Catalog) (ledger : Ledger shape Key) (call : Call shape Key) :
    Answer × Ledger shape Key :=
  match call with
  | .create row =>
      if fresh : row.key ∉ ledger.working.keys then
        (.record row.record, ledger.change (ledger.working.append row fresh))
      else (.failed (.store (Table.duplicateKey shape (toValue row.key))), ledger)
  | .update key patch =>
      match patch.prepare shape, ledger.working.find? key with
      | .error e, _ => (.failed (.field e), ledger)
      | .ok _, none => (absent shape key, ledger)
      | .ok _, some row =>
          (.record ((row.patch patch).record.prune .empty),
            ledger.change (ledger.working.patch key patch))
  | .delete key => (.done, ledger.change (ledger.working.erase key))
  | .getById key expand =>
      match Expansion.build catalog shape expand, ledger.working.find? key with
      | .error e, _ => (.failed (.compile e), ledger)
      | .ok _, none => (absent shape key, ledger)
      | .ok e, some row => (.record (row.record.prune e), ledger)
  | .getByIds keys expand =>
      match Expansion.build catalog shape expand with
      | .error e => (.failed (.compile e), ledger)
      | .ok e => (.records ((ledger.working.among keys).map fun row => row.record.prune e), ledger)
  | .getPaged request =>
      match PagePlan.compile catalog shape request with
      | .error e => (.failed (.compile e), ledger)
      | .ok plan => (.page (plan.answer ledger.working.records), ledger)
  | .setAutoCommit autoCommit => (.done, { ledger with autoCommit })
  | .commit => (.done, { ledger with committed := ledger.working })
  | .rollback => (.done, { ledger with working := ledger.committed })

end Ledger

/-- A service on a table, as far as calls change it. -/
structure Session where
  autoCommit : Bool
  table : Table

namespace Session

/-- The service as it is configured. -/
def service (catalog : Catalog) (shape : Shape) (session : Session) :
    Service Table TableQuery Record :=
  .ofTable catalog shape session.autoCommit

def perform {α : Type} (wrap : α → Answer) (operation : ServiceCall Table α) (session : Session) :
    Answer × Session :=
  (.of wrap (Running.run operation session.table).1,
    { session with table := (Running.run operation session.table).2 })

/-- The answer to a call, and the session afterwards. -/
def step (catalog : Catalog) (session : Session) (call : Call shape Key) : Answer × Session :=
  let service := session.service catalog shape
  match call with
  | .create row => session.perform .record (service.create row.record)
  | .update key patch => session.perform .record (service.update (toValue key) patch)
  | .delete key => session.perform (fun _ => .done) (service.delete (toValue key))
  | .getById key expand => session.perform .record (service.getById (toValue key) expand)
  | .getByIds keys expand =>
      session.perform .records (service.getByIds (keys.map toValue) expand)
  | .getPaged request => session.perform .page (service.getPaged request)
  | .setAutoCommit autoCommit =>
      (.done, { session with autoCommit := (service.setAutoCommit autoCommit).config.autoCommit })
  | .commit => session.perform (fun _ => .done) (Service.call service.store.commit)
  | .rollback => (.done, { session with table := session.table.rollback })

end Session

/-! ## Agreement -/

/-- A session has the rows of a ledger, and nothing to commit that is not committed. -/
structure Session.Tracks (session : Session) (ledger : Ledger shape Key) : Prop where
  autoCommit : session.autoCommit = ledger.autoCommit
  working : session.table.working = ledger.working.records
  committed : session.table.snapshot = ledger.committed.records
  settled : session.table.pending = 0 → session.table.snapshot = session.table.working

namespace Session

variable {session : Session} {ledger : Ledger shape Key}

/-- An operation that changes the rows of both keeps them in agreement. -/
theorem Tracks.change
    (tracks : session.Tracks ledger) (map : RowMap shape Key) :
    Tracks { session with table := session.table.changeTo map session.autoCommit }
      (ledger.change map) := by
  have mode := tracks.autoCommit
  cases on : session.autoCommit with
  | false =>
      rw [on] at mode
      constructor
      · exact mode
      · rfl
      · simpa [Table.changeTo, Table.finished, Ledger.change, ← mode] using tracks.committed
      · intro none
        simp [Table.changeTo, Table.finished, Table.change] at none
  | true =>
      rw [on] at mode
      constructor
      · exact mode
      · simp [Table.changeTo, Table.finished, Ledger.change, Table.change]
      · simp [Table.changeTo, Table.finished, Ledger.change, ← mode, Table.commit, Table.change,
          Table.snapshot]
      · intro _
        simp [Table.changeTo, Table.finished, Table.commit, Table.change, Table.snapshot]

section Steps

variable [DecidableEq Key] (catalog : Catalog)

/-- The session answers a call as the ledger does and agrees with it afterwards. -/
def Follows (session : Session) (ledger : Ledger shape Key) (call : Call shape Key) : Prop :=
  (session.step catalog call).1 = (ledger.step catalog call).1 ∧
    (session.step catalog call).2.Tracks (ledger.step catalog call).2

theorem Tracks.follows_getPaged (tracks : session.Tracks ledger) (request : PageRequest) :
    session.Follows catalog ledger (.getPaged request) := by
  have ran : Running.run ((session.service catalog shape).getPaged request) session.table = _ :=
    Service.run_getPaged request session.table
  simp only [Follows, step, perform, ran, Ledger.step, tracks.working]
  cases PagePlan.compile catalog shape request with
  | error e => exact ⟨rfl, tracks⟩
  | ok plan =>
      have shown (page : Page Record) : page.map Mapper.identity.ofRecord = page := by
        rw [Page.map, Mapper.identity, List.map_id]
      exact ⟨congrArg Answer.page (shown _), tracks⟩

variable [RecordKey Key]

theorem Tracks.follows_create (tracks : session.Tracks ledger) (row : Row shape Key) :
    session.Follows catalog ledger (.create row) := by
  have ran : Running.run ((session.service catalog shape).create row.record) session.table = _ :=
    Service.run_create_row tracks.working rfl
  simp only [Follows, step, perform, ran, Ledger.step]
  by_cases fresh : row.key ∉ ledger.working.keys
  · simp only [dif_pos fresh]
    exact ⟨rfl, tracks.change _⟩
  · simp only [dif_neg fresh]
    exact ⟨rfl, tracks⟩

theorem Tracks.follows_update (tracks : session.Tracks ledger) (key : Key) (patch : Patch) :
    session.Follows catalog ledger (.update key patch) := by
  have ran : Running.run ((session.service catalog shape).update (toValue key) patch)
      session.table = _ := Service.run_update_row tracks.working key patch
  simp only [Follows, step, perform, ran, Ledger.step]
  cases patch.prepare shape with
  | error e => exact ⟨rfl, tracks⟩
  | ok prepared =>
      cases ledger.working.find? key with
      | none => exact ⟨rfl, tracks⟩
      | some row => exact ⟨rfl, tracks.change _⟩

theorem Tracks.follows_delete (tracks : session.Tracks ledger) (key : Key) :
    session.Follows catalog ledger (.delete key) := by
  have ran : Running.run ((session.service catalog shape).delete (toValue key)) session.table = _ :=
    Service.run_delete_row tracks.working key
  simp only [Follows, step, perform, ran, Ledger.step]
  exact ⟨rfl, tracks.change _⟩

theorem Tracks.follows_getById (tracks : session.Tracks ledger) (key : Key) (expand : List String) :
    session.Follows catalog ledger (.getById key expand) := by
  have ran : Running.run ((session.service catalog shape).getById (toValue key) expand)
      session.table = _ := Service.run_getById_row tracks.working key expand
  simp only [Follows, step, perform, ran, Ledger.step]
  cases Expansion.build catalog shape expand with
  | error e => exact ⟨rfl, tracks⟩
  | ok e => cases ledger.working.find? key <;> exact ⟨rfl, tracks⟩

theorem Tracks.follows_getByIds
    (tracks : session.Tracks ledger) (keys : List Key) (expand : List String) :
    session.Follows catalog ledger (.getByIds keys expand) := by
  have ran : Running.run ((session.service catalog shape).getByIds (keys.map toValue) expand)
      session.table = _ := Service.run_getByIds_rows tracks.working keys expand
  simp only [Follows, step, perform, ran, Ledger.step]
  cases Expansion.build catalog shape expand <;> exact ⟨rfl, tracks⟩

/-- A session answers a call as its ledger does, and stays in agreement with it. -/
theorem Tracks.follows (tracks : session.Tracks ledger) (call : Call shape Key) :
    session.Follows catalog ledger call := by
  cases call with
  | create row => exact tracks.follows_create catalog row
  | update key patch => exact tracks.follows_update catalog key patch
  | delete key => exact tracks.follows_delete catalog key
  | getById key expand => exact tracks.follows_getById catalog key expand
  | getByIds keys expand => exact tracks.follows_getByIds catalog keys expand
  | getPaged request => exact tracks.follows_getPaged catalog request
  | setAutoCommit autoCommit =>
      exact ⟨rfl, ⟨rfl, tracks.working, tracks.committed, tracks.settled⟩⟩
  | commit =>
      have published := (Table.snapshot_commit tracks.settled).trans tracks.working
      refine ⟨rfl, ⟨tracks.autoCommit, ?_, published, fun _ => ?_⟩⟩
      · exact (Table.working_commit session.table).trans tracks.working
      · exact (Table.snapshot_commit tracks.settled).trans (Table.working_commit session.table).symm
  | rollback => exact ⟨rfl, ⟨tracks.autoCommit, tracks.committed, tracks.committed, fun _ => rfl⟩⟩

/-- One call after the other, a session answers as its ledger does. -/
theorem Tracks.follows_all (tracks : session.Tracks ledger) (calls : List (Call shape Key)) :
    (runCalls (Session.step catalog) session calls).1 =
        (runCalls (Ledger.step catalog) ledger calls).1 ∧
      (runCalls (Session.step catalog) session calls).2.Tracks
        (runCalls (Ledger.step catalog) ledger calls).2 := by
  induction calls generalizing session ledger with
  | nil => exact ⟨rfl, tracks⟩
  | cons call rest ih =>
      obtain ⟨answer, after⟩ := tracks.follows catalog call
      obtain ⟨answers, last⟩ := ih after
      exact ⟨congrArg₂ List.cons answer answers, last⟩

/--
A service on a table of rows with distinct keys, whatever is called on it and on
the table, answers as a map from keys to records does and has its rows.
-/
theorem runs_as_ledger (rows : RowMap shape Key) (autoCommit : Bool)
    (calls : List (Call shape Key)) :
    let session := runCalls (Session.step catalog)
      ⟨autoCommit, Table.ofRecords rows.records⟩ calls
    let ledger := runCalls (Ledger.step catalog) ⟨rows, rows, autoCommit⟩ calls
    session.1 = ledger.1 ∧ session.2.table.working = ledger.2.working.records ∧
      session.2.table.snapshot = ledger.2.committed.records := by
  have started : Tracks ⟨autoCommit, Table.ofRecords rows.records⟩
      (⟨rows, rows, autoCommit⟩ : Ledger shape Key) := ⟨rfl, rfl, rfl, fun _ => rfl⟩
  obtain ⟨answers, tracks⟩ := started.follows_all catalog calls
  exact ⟨answers, tracks.working, tracks.committed⟩

end Steps

end Session

namespace Sample

/-- A renamed item and a removed one are restored, then an item is added for good. -/
def gardening : List (Call treeItemShape Int64) :=
  [.setAutoCommit false, .update 1 (Patch.empty.insert "name" (.text "needle")), .delete 2,
    .create (treeRow 1 "twig"), .getByIds [2, 1] ["parent"], .rollback, .setAutoCommit true,
    .create (treeRow 3 "bud"), .getById 1 ["parent"]]

/-- A person is added twice and grows older. -/
def birthday : List (Call personShape Int64) :=
  [.create (personRow 1 "Ada" 36), .create (personRow 1 "Bea" 40),
    .update 1 (Patch.empty.insert "age" (.int 37)), .getPaged .everything]

/-- A city is added, removed and not found. -/
def decline : List (Call cityShape Uuid) :=
  [.create (cityRow .nil "Troy" 9000), .delete .nil, .getById .nil [], .commit]

end Sample

/--
Sessions on tree items, where what is rolled back is undone and a taken key is
refused, and on persons and cities from nothing.
-/
theorem Session.runs_as_ledger_samples :
    (let session := runCalls (Session.step Sample.catalog)
        ⟨true, Table.ofRecords Sample.grove.records⟩ Sample.gardening
      let ledger := runCalls (Ledger.step Sample.catalog) ⟨Sample.grove, Sample.grove, true⟩
        Sample.gardening
      session.1 = ledger.1 ∧ session.2.table.working = ledger.2.working.records ∧
        session.2.table.snapshot = ledger.2.committed.records ∧
        ledger.2.committed.keys = [1, 2, 3]) ∧
      (let session := runCalls (Session.step Sample.catalog) ⟨true, Table.ofRecords []⟩
          Sample.birthday
        let ledger := runCalls (Ledger.step Sample.catalog)
          ⟨⟨[], List.nodup_nil⟩, ⟨[], List.nodup_nil⟩, true⟩ Sample.birthday
        session.1 = ledger.1 ∧ ledger.2.working.keys = [1]) ∧
      (let session := runCalls (Session.step Sample.catalog) ⟨false, Table.ofRecords []⟩
          Sample.decline
        let ledger := runCalls (Ledger.step Sample.catalog)
          ⟨⟨[], List.nodup_nil⟩, ⟨[], List.nodup_nil⟩, false⟩ Sample.decline
        session.1 = ledger.1 ∧ ledger.2.working.keys = []) := by
  obtain ⟨answers, working, committed⟩ :=
    Session.runs_as_ledger Sample.catalog Sample.grove true Sample.gardening
  have persons := Session.runs_as_ledger Sample.catalog
    (⟨[], List.nodup_nil⟩ : RowMap Sample.personShape Int64) true Sample.birthday
  have cities := Session.runs_as_ledger Sample.catalog
    (⟨[], List.nodup_nil⟩ : RowMap Sample.cityShape Uuid) false Sample.decline
  exact ⟨⟨answers, working, committed, rfl⟩, ⟨persons.1, rfl⟩, cities.1, rfl⟩

end EntityAccess
