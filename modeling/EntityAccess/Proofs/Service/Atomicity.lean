import EntityAccess.Proofs.Service.Operations

/-!
# Operations that fail

A call is atomic when its failure leaves the state as it was.  Whatever only reads
is atomic, and so is a composed call that reads before its one change or goes on
after it with calls that cannot fail.  An operation of a service on a table is of
this kind: it is done in full or not at all.
-/

namespace EntityAccess

namespace Running

variable {ε δ σ α β : Type}

/-- The call leaves the state as it is, whatever it answers. -/
def Reads (call : ExceptT ε (StateM σ) α) : Prop :=
  ∀ state, (run call state).2 = state

/-- The call has an answer in every state. -/
def Succeeds (call : ExceptT ε (StateM σ) α) : Prop :=
  ∀ state, ∃ value after, run call state = (.ok value, after)

/-- Where the call fails, the state is as it was. -/
def Atomic (call : ExceptT ε (StateM σ) α) : Prop :=
  ∀ state e after, run call state = (.error e, after) → after = state

theorem Reads.atomic {call : ExceptT ε (StateM σ) α} (reads : Reads call) : Atomic call := by
  intro state e after failed
  have same := reads state
  rw [failed] at same
  exact same

/-- An outcome that does not depend on the state. -/
theorem reads_outcome (outcome : Except ε α) :
    Reads (ExceptT.mk (pure outcome) : ExceptT ε (StateM σ) α) :=
  fun _ => rfl

theorem reads_pure (value : α) : Reads (pure value : ExceptT ε (StateM σ) α) :=
  fun _ => rfl

theorem succeeds_pure (value : α) : Succeeds (pure value : ExceptT ε (StateM σ) α) :=
  fun state => ⟨value, state, rfl⟩

section Composition

variable {first : ExceptT ε (StateM σ) α} {next : α → ExceptT ε (StateM σ) β}

theorem Reads.bind (reads : Reads first) (rest : ∀ value, Reads (next value)) :
    Reads (first >>= next) := by
  intro state
  have same := reads state
  cases ran : run first state with
  | mk answer after =>
      rw [ran] at same
      obtain rfl : after = state := same
      cases answer with
      | error e => rw [run_bind_of_error ran]
      | ok value => rw [run_bind_of_ok ran]; exact rest value after

/-- What is read first does not stand in the way of a later failure. -/
theorem Reads.bind_atomic (reads : Reads first) (rest : ∀ value, Atomic (next value)) :
    Atomic (first >>= next) := by
  intro state e after failed
  have same := reads state
  cases ran : run first state with
  | mk answer middle =>
      rw [ran] at same
      obtain rfl : middle = state := same
      cases answer with
      | error fault =>
          rw [run_bind_of_error ran] at failed
          exact (Prod.mk.inj failed).2.symm
      | ok value =>
          rw [run_bind_of_ok ran] at failed
          exact rest value middle e after failed

/-- Once the one change is made, nothing that follows can fail. -/
theorem Atomic.bind_of_succeeds (atomic : Atomic first) (rest : ∀ value, Succeeds (next value)) :
    Atomic (first >>= next) := by
  intro state e after failed
  cases ran : run first state with
  | mk answer middle =>
      cases answer with
      | error fault =>
          rw [run_bind_of_error ran] at failed
          exact (Prod.mk.inj failed).2 ▸ atomic state fault middle ran
      | ok value =>
          obtain ⟨result, last, done⟩ := rest value middle
          rw [run_bind_of_ok ran, done] at failed
          cases failed

theorem Succeeds.bind (succeeds : Succeeds first) (rest : ∀ value, Succeeds (next value)) :
    Succeeds (first >>= next) := by
  intro state
  obtain ⟨value, middle, done⟩ := succeeds state
  obtain ⟨result, after, doneRest⟩ := rest value middle
  exact ⟨result, after, (run_bind_of_ok done next).trans doneRest⟩

end Composition

section Adaptation

variable {call : ExceptT ε (StateM σ) α} (f : ε → δ)

theorem Reads.adapt (reads : Reads call) : Reads (call.adapt f) :=
  reads

theorem Succeeds.adapt (succeeds : Succeeds call) : Succeeds (call.adapt f) := by
  intro state
  obtain ⟨value, after, done⟩ := succeeds state
  exact ⟨value, after, by rw [run_adapt, done]; rfl⟩

theorem Atomic.adapt (atomic : Atomic call) : Atomic (call.adapt f) := by
  intro state e after failed
  cases ran : run call state with
  | mk answer middle =>
      rw [run_adapt, ran] at failed
      cases answer with
      | error fault => exact (Prod.mk.inj failed).2 ▸ atomic state fault middle ran
      | ok value => cases failed

end Adaptation

end Running

/-! ## Tables and services -/

/--
An operation of a service, or a change of the table behind it, by its failures
and its answers.
-/
inductive Operation (Dto : Type) : Type → Type → Type where
  | create (dto : Dto) : Operation Dto ServiceError Dto
  | update (key : Value) (patch : Patch) : Operation Dto ServiceError Dto
  | delete (key : Value) : Operation Dto ServiceError Unit
  | getById (key : Value) (expand : List String) : Operation Dto ServiceError Dto
  | getByIds (keys : List Value) (expand : List String) : Operation Dto ServiceError (List Dto)
  | getPaged (request : PageRequest) : Operation Dto ServiceError (Page Dto)
  | addRow (record : Record) : Operation Dto StoreError Record
  | updateRow (record : Record) : Operation Dto StoreError Record
  | deleteRows (predicate : Predicate) : Operation Dto StoreError Unit

/-- The operation as a call on a service, or on its table. -/
def Operation.call {Dto ε α : Type} (service : Service Table TableQuery Dto) :
    Operation Dto ε α → ExceptT ε (StateM Table) α
  | .create dto => service.create dto
  | .update key patch => service.update key patch
  | .delete key => service.delete key
  | .getById key expand => service.getById key expand
  | .getByIds keys expand => service.getByIds keys expand
  | .getPaged request => service.getPaged request
  | .addRow record => service.store.add record
  | .updateRow record => service.store.update record
  | .deleteRows predicate => service.store.delete predicate

open Running (Reads Succeeds Atomic)

namespace Table

variable (shape : Shape)

theorem atomic_attempt (change : Table → Except StoreError Table) : Atomic (attempt change) := by
  intro table e after failed
  rw [run_attempt] at failed
  cases done : change table with
  | error fault =>
      rw [done] at failed
      exact (Prod.mk.inj failed).2.symm
  | ok changed =>
      rw [done] at failed
      cases failed

theorem atomic_add (record : Record) : Atomic ((store shape).add record) :=
  (atomic_attempt _).bind_of_succeeds fun _ => Running.succeeds_pure record

theorem atomic_update (record : Record) : Atomic ((store shape).update record) :=
  (atomic_attempt _).bind_of_succeeds fun _ => Running.succeeds_pure record

theorem atomic_delete (predicate : Predicate) : Atomic ((store shape).delete predicate) :=
  atomic_attempt _

theorem succeeds_commit : Succeeds (store shape).commit := fun table =>
  ⟨(), table.commit, run_attempt _ table⟩

theorem reads_first (query : TableQuery) : Reads ((store shape).first query) := fun table => by
  rw [run_first]

theorem reads_getById (key : Value) : Reads ((store shape).getById shape key) := fun table => by
  have loaded := run_first shape (Service.selection (shape.keyIs key) .empty) table
  exact congrArg Prod.snd loaded

end Table

namespace Service

section Calls

variable {α : Type} {action : StoreCall Table α}

theorem reads_call (reads : Reads action) : Reads (call action) :=
  reads.adapt _

theorem succeeds_call (succeeds : Succeeds action) : Succeeds (call action) :=
  succeeds.adapt _

theorem atomic_call (atomic : Atomic action) : Atomic (call action) :=
  atomic.adapt _

end Calls

variable {Dto : Type} (catalog : Catalog) (shape : Shape) (mapper : Mapper Dto)
  (config : ServiceConfig)

theorem succeeds_finish : Succeeds (onTable catalog shape mapper config).finish := by
  obtain ⟨autoCommit⟩ := config
  cases autoCommit with
  | false => exact Running.succeeds_pure ()
  | true => exact succeeds_call (Table.succeeds_commit shape)

theorem atomic_create (dto : Dto) : Atomic ((onTable catalog shape mapper config).create dto) := by
  refine (atomic_call (Table.atomic_add shape _)).bind_of_succeeds fun stored => ?_
  exact (succeeds_finish catalog shape mapper config).bind fun _ => Running.succeeds_pure _

theorem atomic_delete (key : Value) : Atomic ((onTable catalog shape mapper config).delete key) :=
  (atomic_call (Table.atomic_delete shape _)).bind_of_succeeds fun _ =>
    succeeds_finish catalog shape mapper config

/-- The patch is written to a loaded record, and the table is changed after that. -/
theorem atomic_update (key : Value) (patch : Patch) :
    Atomic ((onTable catalog shape mapper config).update key patch) := by
  refine (Running.reads_outcome _).bind_atomic fun prepared => ?_
  refine (reads_call (Table.reads_getById shape key)).bind_atomic fun found => ?_
  cases found with
  | none => exact (Running.reads_outcome _).atomic
  | some record =>
      refine (Running.reads_outcome _).bind_atomic fun patched => ?_
      refine (atomic_call (Table.atomic_update shape patched)).bind_of_succeeds fun stored => ?_
      exact (succeeds_finish catalog shape mapper config).bind fun _ => Running.succeeds_pure _

theorem reads_getById (key : Value) (expand : List String) :
    Reads ((onTable catalog shape mapper config).getById key expand) := by
  refine (Running.reads_outcome _).bind fun e => ?_
  have selects : Reads (liftM ((onTable catalog shape mapper config).select (shape.keyIs key) e) :
      ServiceCall Table TableQuery) := fun _ => rfl
  refine selects.bind fun query => ?_
  refine (reads_call (Table.reads_first shape query)).bind fun found => ?_
  cases found with
  | none => exact Running.reads_outcome _
  | some record => exact Running.reads_pure _

theorem reads_getByIds (keys : List Value) (expand : List String) :
    Reads ((onTable catalog shape mapper config).getByIds keys expand) :=
  (Running.reads_outcome _).bind fun _ _ => rfl

theorem reads_getPaged (request : PageRequest) :
    Reads ((onTable catalog shape mapper config).getPaged request) := fun table => by
  rw [run_getPaged]

end Service

namespace Operation

variable {Dto ε α : Type}

/--
Whichever operation fails, and for whatever reason, the table has the working
records, the committed records and the pending changes that it had before.
-/
theorem table_eq_of_error
    (catalog : Catalog) (shape : Shape) (mapper : Mapper Dto) (config : ServiceConfig)
    (operation : Operation Dto ε α) {table after : Table} {e : ε}
    (failed : Running.run (operation.call (.onTable catalog shape mapper config)) table =
      (.error e, after)) :
    after = table := by
  refine (?_ : Atomic (operation.call (.onTable catalog shape mapper config))) table e after failed
  cases operation with
  | create dto => exact Service.atomic_create catalog shape mapper config dto
  | update key patch => exact Service.atomic_update catalog shape mapper config key patch
  | delete key => exact Service.atomic_delete catalog shape mapper config key
  | getById key expand =>
      exact (Service.reads_getById catalog shape mapper config key expand).atomic
  | getByIds keys expand =>
      exact (Service.reads_getByIds catalog shape mapper config keys expand).atomic
  | getPaged request => exact (Service.reads_getPaged catalog shape mapper config request).atomic
  | addRow record => exact Table.atomic_add shape record
  | updateRow record => exact Table.atomic_update shape record
  | deleteRows predicate => exact Table.atomic_delete shape predicate

end Operation

namespace Sample

/-- One counter whose addition is not committed yet. -/
def tally : Table := ⟨[], [counter], 1⟩

/-- An inactive counter whose hits are more than the slot of the kept one takes. -/
def overfull : Record :=
  .mk counterShape.type
    [cell "id" .int64 (.int 1), cell "active" .bool (.bool false),
      cell "hits" .int32 (.int 0x80000000)] []

end Sample

namespace Operation

/--
A patch that writes one field and is refused at the next one, and a record of
which one scalar is copied and the next one is not, leave the table alone.
-/
theorem table_eq_of_error_tally :
    let catalog := Catalog.ofShapes [Sample.counterShape]
    let service := Service.onTable catalog Sample.counterShape Mapper.identity ⟨true⟩
    let patch := Sample.overflowing false
    let active : Record → Option Value := fun record => record.scalar? "active"
    (active (patch.apply catalog Sample.counter).2 = some (.bool false) ∧
      Running.run ((Operation.update (.int 1) patch).call service) Sample.tally =
        (.error (.field (.rejected "hits")), Sample.tally)) ∧
      ((Table.copyScalars Sample.counterShape Sample.overfull
          [Field.scalar "active" .bool] Sample.counter).toOption.map active =
        some (some (.bool false)) ∧
      ∃ e, Running.run ((Operation.updateRow Sample.overfull).call service) Sample.tally =
        (.error e, Sample.tally)) := by
  intro catalog service patch active
  have rejected : Running.run ((Operation.update (.int 1) patch).call service) Sample.tally =
      (.error (.field (.rejected "hits")),
        (Running.run ((Operation.update (.int 1) patch).call service) Sample.tally).2) := rfl
  have uncopied : ∃ e, Running.run ((Operation.updateRow Sample.overfull).call service)
        Sample.tally =
      (.error e, (Running.run ((Operation.updateRow Sample.overfull).call service)
        Sample.tally).2) := ⟨_, rfl⟩
  obtain ⟨e, uncopied⟩ := uncopied
  have afterPatch := table_eq_of_error catalog Sample.counterShape Mapper.identity ⟨true⟩ _ rejected
  have afterCopy := table_eq_of_error catalog Sample.counterShape Mapper.identity ⟨true⟩ _ uncopied
  rw [afterPatch] at rejected
  rw [afterCopy] at uncopied
  exact ⟨⟨rfl, rejected⟩, rfl, e, uncopied⟩

end Operation

end EntityAccess
