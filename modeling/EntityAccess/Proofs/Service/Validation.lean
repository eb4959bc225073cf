import EntityAccess.Proofs.Service.Operations

/-!
# Requests and their storage

A request is checked in full before the store is called.  So a request at fault is
answered alike by every service for the same shape, whatever its store has or does,
and the store is not called.  A request without a fault is at the mercy of the
store, whose failure is answered as it is: this is said of stores that note each
call and whether it failed.
-/

namespace EntityAccess

/-! ## Observed stores -/

/-- A call that was made, and its failure if it failed. -/
structure Observation where
  kind : CallKind
  failure : Option StoreError

/-- The state of a store with the calls made on it, in order. -/
structure Observed (σ : Type) where
  inner : σ
  calls : List Observation

namespace Observed

variable {σ Query α β ε δ : Type}

/-- Forward a refinement and note it. -/
def refine (kind : CallKind) (refinement : StateM σ α) : StateM (Observed σ) α :=
  fun observed =>
    let (answer, inner) := refinement observed.inner
    (answer, ⟨inner, observed.calls ++ [⟨kind, none⟩]⟩)

/-- Forward a call and note whether it failed. -/
def call (kind : CallKind) (action : StoreCall σ α) : StoreCall (Observed σ) α :=
  ExceptT.mk fun observed =>
    let (answer, inner) := action.run observed.inner
    (answer, ⟨inner, observed.calls ++ [⟨kind, Outcome.error? answer⟩]⟩)

def source (source : Source σ Query) : Source (Observed σ) Query where
  filter predicate query := refine .filter (source.filter predicate query)
  orderBy keys query := refine .orderBy (source.orderBy keys query)
  expand expansion query := refine .expand (source.expand expansion query)
  skip count query := refine .skip (source.skip count query)
  take count query := refine .take (source.take count query)
  count query := call .count (source.count query)
  toList query := call .toList (source.toList query)

def store (store : Store σ Query) : Store (Observed σ) Query where
  toSource := source store.toSource
  getAll := refine .getAll store.getAll
  add record := call .add (store.add record)
  update record := call .update (store.update record)
  delete predicate := call .delete (store.delete predicate)
  commit := call .commit store.commit

/--
The observing call answers and leaves the store as the call does.  Of the calls
that it notes, exactly the failures are failures that its own error shows.
-/
def Relays
    (shown? : ε → Option StoreError) (plain : ExceptT ε (StateM σ) α)
    (observing : ExceptT ε (StateM (Observed σ)) α) : Prop :=
  ∀ observed, ∃ calls,
    Running.run observing observed =
        ((Running.run plain observed.inner).1,
          ⟨(Running.run plain observed.inner).2, observed.calls ++ calls⟩) ∧
      calls.filterMap Observation.failure =
        ((Outcome.error? (Running.run plain observed.inner).1).bind shown?).toList

section Composition

variable {shown? : ε → Option StoreError}

theorem relays_refine (kind : CallKind) (refinement : StateM σ α) :
    Relays shown? (liftM refinement : ExceptT ε (StateM σ) α)
      (liftM (refine kind refinement)) :=
  fun _ => ⟨[⟨kind, none⟩], rfl, rfl⟩

theorem relays_call (kind : CallKind) (action : StoreCall σ α) :
    Relays some action (call kind action) := by
  intro observed
  refine ⟨[⟨kind, Outcome.error? (Running.run action observed.inner).1⟩], rfl, ?_⟩
  cases Outcome.error? (Running.run action observed.inner).1 <;> rfl

/-- An outcome that no store had a part in. -/
theorem relays_outcome
    {outcome : Except ε α} (own : ∀ e, outcome = .error e → shown? e = none) :
    Relays shown? (ExceptT.mk (pure outcome) : ExceptT ε (StateM σ) α)
      (ExceptT.mk (pure outcome)) := by
  intro observed
  refine ⟨[], ?_, ?_⟩
  · rw [List.append_nil]
    rfl
  · cases outcome with
    | ok value => rfl
    | error e =>
        change [] = (shown? e).toList
        rw [own e rfl]
        rfl

theorem relays_pure (value : α) :
    Relays shown? (pure value : ExceptT ε (StateM σ) α) (pure value) :=
  relays_outcome fun _ refused => by cases refused

theorem Relays.bind
    {first : ExceptT ε (StateM σ) α} {observingFirst : ExceptT ε (StateM (Observed σ)) α}
    {next : α → ExceptT ε (StateM σ) β}
    {observingNext : α → ExceptT ε (StateM (Observed σ)) β}
    (head : Relays shown? first observingFirst)
    (tail : ∀ value, Relays shown? (next value) (observingNext value)) :
    Relays shown? (first >>= next) (observingFirst >>= observingNext) := by
  intro observed
  obtain ⟨calls, ran, failures⟩ := head observed
  cases plain : Running.run first observed.inner with
  | mk answer after =>
      rw [plain] at ran failures
      cases answer with
      | error e =>
          rw [Running.run_bind_of_error ran, Running.run_bind_of_error plain]
          exact ⟨calls, rfl, failures⟩
      | ok value =>
          obtain ⟨more, ranMore, failuresMore⟩ :=
            tail value ⟨after, observed.calls ++ calls⟩
          rw [Running.run_bind_of_ok ran, Running.run_bind_of_ok plain]
          refine ⟨calls ++ more, ?_, ?_⟩
          · rw [ranMore, List.append_assoc]
          · rw [List.filterMap_append, failures, failuresMore]
            rfl

theorem Relays.adapt
    {plain : ExceptT ε (StateM σ) α} {observing : ExceptT ε (StateM (Observed σ)) α}
    (relays : Relays shown? plain observing) {named? : δ → Option StoreError} {f : ε → δ}
    (same : ∀ e, named? (f e) = shown? e) :
    Relays named? (plain.adapt f) (observing.adapt f) := by
  intro observed
  obtain ⟨calls, ran, failures⟩ := relays observed
  refine ⟨calls, ?_, ?_⟩
  · rw [Running.run_adapt, Running.run_adapt, ran]
  · rw [Running.run_adapt, failures]
    cases (Running.run plain observed.inner).1 with
    | error e => exact congrArg Option.toList (same e).symm
    | ok value => rfl

end Composition

theorem relays_first (source : Source σ Query) (query : Query) :
    Relays some (source.first query) ((Observed.source source).first query) :=
  (relays_refine .take _).bind fun _ => (relays_call .toList _).bind fun _ => relays_pure _

theorem relays_getById (store : Store σ Query) (shape : Shape) (key : Value) :
    Relays some (store.getById shape key) ((Observed.store store).getById shape key) :=
  (relays_refine .getAll _).bind fun _ =>
    (relays_refine .filter _).bind fun matching => relays_first store.toSource matching

theorem relays_refineBy
    {shown? : ε → Option StoreError} (kind : CallKind)
    (refinement : Nat → Query → StateM σ Query)
    (count? : Option Nat) (query : Query) :
    Relays shown? (liftM (PagePlan.refineBy refinement count? query) : ExceptT ε (StateM σ) Query)
      (liftM (PagePlan.refineBy (fun count query => refine kind (refinement count query)) count?
        query)) := by
  cases count? with
  | none => exact relays_pure query
  | some count => exact relays_refine kind (refinement count query)

theorem relays_execute (plan : PagePlan) (source : Source σ Query) (query : Query) :
    Relays some (plan.execute source query) (plan.execute (Observed.source source) query) := by
  unfold PagePlan.execute
  split
  case' isTrue => refine (relays_pure query).bind fun filtered => ?_
  case' isFalse => refine (relays_refine .filter _).bind fun filtered => ?_
  all_goals
    refine (relays_call .count _).bind fun total => ?_
    refine (relays_refine .orderBy _).bind fun ordered => ?_
    refine (relays_refine .expand _).bind fun expanded => ?_
    refine (relays_refineBy .skip source.skip plan.skip expanded).bind fun skipped => ?_
    refine (relays_refineBy .take source.take plan.take skipped).bind fun taken => ?_
    exact (relays_call .toList _).bind fun items => relays_pure _

end Observed

/-! ## Requests -/

/-- The failure of the store that an error stands for. -/
def ServiceError.storage? : ServiceError → Option StoreError
  | .store e => some e
  | .compile _ => none
  | .field _ => none
  | .notFound .. => none

def QueryError.storage? : QueryError → Option StoreError
  | .store e => some e
  | .compile _ => none

/-- A store whose every call fails; refinements of queries cannot. -/
def Store.broken (failure : StoreError) : Store Unit Unit where
  filter _ query := pure query
  orderBy _ query := pure query
  expand _ query := pure query
  skip _ query := pure query
  take _ query := pure query
  count _ := throw failure
  toList _ := throw failure
  getAll := pure ()
  add _ := throw failure
  update _ := throw failure
  delete _ := throw failure
  commit := throw failure

theorem CompileError.isClientError (e : CompileError) : e.kind.isClientError = true := by
  cases e <;> rfl

/-- A request to a service by its arguments and the type of its answers. -/
inductive Request (Dto : Type) : Type → Type where
  | create (dto : Dto) : Request Dto Dto
  | update (key : Value) (patch : Patch) : Request Dto Dto
  | delete (key : Value) : Request Dto Unit
  | getById (key : Value) (expand : List String) : Request Dto Dto
  | getByIds (keys : List Value) (expand : List String) : Request Dto (List Dto)
  | getPaged (request : PageRequest) : Request Dto (Page Dto)

namespace Request

variable {σ Query Dto α : Type}

/-- The operation that answers a request. -/
def call (service : Service σ Query Dto) : Request Dto α → ServiceCall σ α
  | .create dto => service.create dto
  | .update key patch => service.update key patch
  | .delete key => service.delete key
  | .getById key expand => service.getById key expand
  | .getByIds keys expand => service.getByIds keys expand
  | .getPaged request => service.getPaged request

/-- What is wrong with a request for records of a shape; of several faults the first one counts. -/
inductive Fault (catalog : Catalog) (shape : Shape) :
    {α : Type} → Request Dto α → ServiceError → Prop where
  | getById {key : Value} {expand : List String} {e : CompileError}
      (refused : Outcome.FirstError (Expansion.relationPath catalog shape) expand e) :
      Fault catalog shape (.getById key expand) (.compile e)
  | getByIds {keys : List Value} {expand : List String} {e : CompileError}
      (refused : Outcome.FirstError (Expansion.relationPath catalog shape) expand e) :
      Fault catalog shape (.getByIds keys expand) (.compile e)
  | getPaged {request : PageRequest} {e : CompileError}
      (fault : request.Fault catalog shape e) :
      Fault catalog shape (.getPaged request) (.compile e)
  | update {key : Value} {patch : Patch} {e : FieldError} (fault : patch.Fault shape e) :
      Fault catalog shape (.update key patch) (.field e)

section Faults

variable {catalog : Catalog} {shape : Shape} {request : Request Dto α} {e : ServiceError}

theorem Fault.isClientError (fault : request.Fault catalog shape e) :
    e.kind.isClientError = true := by
  cases fault with
  | @getById _ _ cause | @getByIds _ _ cause | @getPaged _ cause => exact cause.isClientError
  | update => rfl

/-- A request at fault is answered before the store is called. -/
theorem Fault.run_call
    (fault : request.Fault catalog shape e) (store : Store σ Query) (mapper : Mapper Dto)
    (config : ServiceConfig) (state : σ) :
    Running.run (request.call ⟨catalog, shape, store, mapper, config⟩) state =
      (.error e, state) := by
  cases fault with
  | getById refused | getByIds refused =>
      exact Service.run_checked_of_error (Expansion.build_eq_error_iff.2 refused) _ state
  | getPaged fault =>
      exact Service.run_checked_of_error (PagePlan.compile_eq_error_iff.2 fault) _ state
  | update fault =>
      exact Service.run_update_of_refused
        ((Patch.prepare_eq_error_iff.2 fault : _ = _)) state

end Faults

end Request

namespace Service

open Observed (Relays relays_refine relays_call relays_outcome relays_pure)

variable {σ Query Dto α : Type} (service : Service σ Query Dto)

/-- The service with notes of the calls on its store. -/
def observed : Service (Observed σ) Query Dto :=
  ⟨service.catalog, service.shape, Observed.store service.store, service.mapper, service.config⟩

theorem relays_storeCall
    {plain : StoreCall σ α} {observing : StoreCall (Observed σ) α}
    (relays : Relays some plain observing) :
    Relays ServiceError.storage? (call plain) (call observing) :=
  relays.adapt fun _ => rfl

theorem relays_checked (outcome : Except CompileError α) :
    Relays ServiceError.storage? (checked outcome : ServiceCall σ α) (checked outcome) := by
  refine relays_outcome fun e refused => ?_
  obtain ⟨cause, -, rfl⟩ := Outcome.mapError_eq_error_iff.1 refused
  rfl

theorem relays_field (outcome : Except FieldError α) :
    Relays ServiceError.storage? (ExceptT.mk (pure (outcome.mapError .field)) : ServiceCall σ α)
      (ExceptT.mk (pure (outcome.mapError .field))) := by
  refine relays_outcome fun e refused => ?_
  obtain ⟨cause, -, rfl⟩ := Outcome.mapError_eq_error_iff.1 refused
  rfl

theorem relays_notFound (key : Value) :
    Relays ServiceError.storage? (service.notFound key : ServiceCall σ α)
      (service.observed.notFound key) := by
  refine relays_outcome fun e refused => ?_
  cases refused
  rfl

theorem relays_finish : Relays ServiceError.storage? service.finish service.observed.finish := by
  unfold finish
  split
  · rename_i commits
    rw [if_pos (show service.observed.config.autoCommit = true from commits)]
    exact relays_storeCall (relays_call .commit _)
  · rename_i keeps
    rw [if_neg (show ¬service.observed.config.autoCommit = true from keeps)]
    exact relays_pure ()

theorem relays_select (predicate : Predicate) (e : Expansion) :
    Relays ServiceError.storage? (liftM (service.select predicate e) : ServiceCall σ Query)
      (liftM (service.observed.select predicate e)) := by
  simp only [select, liftM_bind]
  exact (relays_refine .getAll _).bind fun _ =>
    (relays_refine .filter _).bind fun _ => relays_refine .expand _

theorem relays_getById (key : Value) (expand : List String) :
    Relays ServiceError.storage? (service.getById key expand)
      (service.observed.getById key expand) := by
  refine (relays_checked _).bind fun e => ?_
  refine (service.relays_select _ e).bind fun query => ?_
  have listed := Observed.relays_first service.store.toSource query
  refine (relays_storeCall listed).bind fun found => ?_
  cases found with
  | none => exact service.relays_notFound key
  | some record => exact relays_pure _

theorem relays_getByIds (keys : List Value) (expand : List String) :
    Relays ServiceError.storage? (service.getByIds keys expand)
      (service.observed.getByIds keys expand) := by
  refine (relays_checked _).bind fun e => ?_
  refine (service.relays_select _ e).bind fun query => ?_
  exact (relays_storeCall (relays_call .toList _)).bind fun records => relays_pure _

theorem relays_getPaged (request : PageRequest) :
    Relays ServiceError.storage? (service.getPaged request)
      (service.observed.getPaged request) := by
  refine (relays_checked _).bind fun plan => ?_
  refine (relays_refine .getAll _).bind fun all => ?_
  refine (relays_storeCall (Observed.relays_execute plan _ all)).bind fun page => ?_
  exact relays_pure _

theorem relays_create (dto : Dto) :
    Relays ServiceError.storage? (service.create dto) (service.observed.create dto) := by
  refine (relays_storeCall (relays_call .add _)).bind fun stored => ?_
  exact service.relays_finish.bind fun _ => relays_pure _

theorem relays_delete (key : Value) :
    Relays ServiceError.storage? (service.delete key) (service.observed.delete key) :=
  (relays_storeCall (relays_call .delete _)).bind fun _ => service.relays_finish

theorem relays_update (key : Value) (patch : Patch) :
    Relays ServiceError.storage? (service.update key patch)
      (service.observed.update key patch) := by
  refine (relays_field _).bind fun prepared => ?_
  have loaded := Observed.relays_getById service.store service.shape key
  refine (relays_storeCall loaded).bind fun found => ?_
  cases found with
  | none => exact service.relays_notFound key
  | some record =>
      refine (relays_field _).bind fun patched => ?_
      refine (relays_storeCall (relays_call .update _)).bind fun stored => ?_
      exact service.relays_finish.bind fun _ => relays_pure _

end Service

theorem Request.relays_call
    {σ Query Dto α : Type} (service : Service σ Query Dto) (request : Request Dto α) :
    Observed.Relays ServiceError.storage? (request.call service)
      (request.call service.observed) := by
  cases request with
  | create dto => exact service.relays_create dto
  | update key patch => exact service.relays_update key patch
  | delete key => exact service.relays_delete key
  | getById key expand => exact service.relays_getById key expand
  | getByIds keys expand => exact service.relays_getByIds keys expand
  | getPaged request => exact service.relays_getPaged request

theorem Source.relays_page
    {σ Query : Type} (source : Source σ Query) (query : Query) (catalog : Catalog) (shape : Shape)
    (request : PageRequest) :
    Observed.Relays QueryError.storage? (source.page query catalog shape request)
      ((Observed.source source).page query catalog shape request) := by
  unfold Source.page
  cases PagePlan.compile catalog shape request with
  | error e =>
      refine Observed.relays_outcome fun cause refused => ?_
      cases refused
      rfl
  | ok plan => exact (Observed.relays_execute plan source query).adapt fun _ => rfl

/-! ## Requests without a fault -/

theorem PagePlan.run_execute_broken (plan : PagePlan) (failure : StoreError) :
    Running.run (plan.execute (Store.broken failure).toSource ()) () = (.error failure, ()) := by
  unfold execute
  split <;> rfl

namespace Request

variable {Dto α : Type}

/-- A request without a fault reaches the store, if only to be answered with its failure. -/
theorem fault_or_run_broken
    (catalog : Catalog) (shape : Shape) (mapper : Mapper Dto) (config : ServiceConfig)
    (request : Request Dto α) :
    (∃ e, request.Fault catalog shape e) ∨
      ∀ failure, Running.run
        (request.call ⟨catalog, shape, Store.broken failure, mapper, config⟩) () =
          (.error (.store failure), ()) := by
  cases request with
  | create dto => exact Or.inr fun _ => rfl
  | delete key => exact Or.inr fun _ => rfl
  | update key patch =>
      cases prepared : patch.prepare shape with
      | error e => exact Or.inl ⟨_, .update (Patch.prepare_eq_error_iff.1 prepared)⟩
      | ok writes =>
          exact Or.inr fun _ => Running.run_bind_of_ok (Service.run_field_of_ok prepared ()) _
  | getById key expand =>
      cases built : Expansion.build catalog shape expand with
      | error e => exact Or.inl ⟨_, .getById (Expansion.build_eq_error_iff.1 built)⟩
      | ok e => exact Or.inr fun _ => Service.run_checked_of_ok built _ ()
  | getByIds keys expand =>
      cases built : Expansion.build catalog shape expand with
      | error e => exact Or.inl ⟨_, .getByIds (Expansion.build_eq_error_iff.1 built)⟩
      | ok e => exact Or.inr fun _ => Service.run_checked_of_ok built _ ()
  | getPaged request =>
      cases compiled : PagePlan.compile catalog shape request with
      | error e => exact Or.inl ⟨_, .getPaged (PagePlan.compile_eq_error_iff.1 compiled)⟩
      | ok plan =>
          refine Or.inr fun failure => (Service.run_checked_of_ok compiled _ ()).trans ?_
          have failed := Service.run_call_of_error (plan.run_execute_broken failure)
          exact Running.run_bind_of_error failed _

/--
A request at fault gets the error of its first fault from every store in every
state, and leaves the state as it was, so that the store is not called.  Any
other request reaches its store.  In every run, failures of calls on the store
are what is answered, unchanged, and such an answer is the failure of a call.
It is alike with pages of a source, which are refused when their plan is.
-/
theorem checked_before_storage
    (catalog : Catalog) (shape : Shape) (mapper : Mapper Dto) (config : ServiceConfig) :
    (∀ {α : Type} (request : Request Dto α),
      (∀ e, request.Fault catalog shape e →
        e.kind.isClientError = true ∧
          ∀ {σ Query : Type} (store : Store σ Query) (state : σ),
            Running.run (request.call ⟨catalog, shape, store, mapper, config⟩) state =
              (.error e, state)) ∧
        ((∃ e, request.Fault catalog shape e) ∨
          ∀ failure, Running.run
            (request.call ⟨catalog, shape, Store.broken failure, mapper, config⟩) () =
              (.error (.store failure), ())) ∧
        ∀ {σ Query : Type} (store : Store σ Query),
          Observed.Relays ServiceError.storage?
            (request.call ⟨catalog, shape, store, mapper, config⟩)
            (request.call ⟨catalog, shape, Observed.store store, mapper, config⟩)) ∧
      ∀ (request : PageRequest) {σ Query : Type} (source : Source σ Query) (query : Query),
        (∀ e, request.Fault catalog shape e →
          e.kind.isClientError = true ∧
            ∀ state, Running.run (source.page query catalog shape request) state =
              (.error (.compile e), state)) ∧
          (∀ e state, (Running.run (source.page query catalog shape request) state).1 =
            .error (.compile e) → PagePlan.compile catalog shape request = .error e) ∧
          Observed.Relays QueryError.storage? (source.page query catalog shape request)
            ((Observed.source source).page query catalog shape request) := by
  refine ⟨fun request => ⟨fun e fault => ⟨fault.isClientError, fun store state => ?_⟩, ?_,
      fun store => ?_⟩,
    fun request _ _ source query => ⟨fun e fault => ⟨e.isClientError, fun state => ?_⟩,
      fun e state answered => ?_, ?_⟩⟩
  · exact fault.run_call store mapper config state
  · exact request.fault_or_run_broken catalog shape mapper config
  · exact request.relays_call ⟨catalog, shape, store, mapper, config⟩
  · exact source.run_page_of_error (PagePlan.compile_eq_error_iff.2 fault) query state
  · exact source.compile_of_run_page answered
  · exact source.relays_page query catalog shape request

end Request

namespace Sample

/-- The persons of a store, shown as summaries. -/
def persons {σ Query : Type} (store : Store σ Query) : Service σ Query PersonSummary :=
  ⟨catalog, personShape, store, PersonSummary.mapper, .default⟩

/-- An update of nobody with two entries at fault, of which the second was put in first. -/
def doubtful : Request PersonSummary PersonSummary :=
  .update (.int 9) (.ofList [("zip", .int 1), ("age", .text "old")])

/-- A request for a page of which the filter, the order and the expansion are at fault. -/
def careless : PageRequest where
  filter := some (.not [])
  expand := some ["name"]
  orders := [⟨"city", .ascending⟩]
  skip := none
  take := none

end Sample

/--
The same faults of persons are found above an empty table and a store that
fails, which is not called; its failure answers a request without a fault.
-/
theorem Request.checked_before_storage_persons :
    let failure := StoreError.ofDetail "unavailable"
    let broken := Sample.persons (Store.broken failure)
    let empty := Sample.persons (Table.store Sample.personShape)
    let present : Request Sample.PersonSummary Sample.PersonSummary := .getById (.int 9) ["city"]
    (∃ cause, let e := ServiceError.field (.coercion "age" cause)
      Running.run (Sample.doubtful.call empty) (.ofRecords []) = (.error e, .ofRecords []) ∧
        Running.run (Sample.doubtful.call broken.observed) ⟨(), []⟩ = (.error e, ⟨(), []⟩)) ∧
      Running.run (broken.store.toSource.page () Sample.catalog Sample.personShape
        Sample.careless) () = (.error (.compile (.invalidArity "not" 1 0)), ()) ∧
      ∃ calls, Running.run (present.call broken.observed) ⟨(), []⟩ =
          (.error (.store failure), ⟨(), calls⟩) ∧
        calls.filterMap Observation.failure = [failure] := by
  intro failure broken empty present
  have checks := Request.checked_before_storage Sample.catalog Sample.personShape
    Sample.PersonSummary.mapper .default
  obtain ⟨requests, pages⟩ := checks
  have entry : ∃ cause, Sample.doubtful.Fault Sample.catalog Sample.personShape
      (.field (.coercion "age" cause)) := ⟨_, .update (Patch.prepare_eq_error_iff.1 rfl)⟩
  obtain ⟨cause, fault⟩ := entry
  have refused := (requests Sample.doubtful).1 _ fault
  have negation : Sample.careless.Fault Sample.catalog Sample.personShape
      (.invalidArity "not" 1 0) := .filter rfl
  obtain ⟨calls, ran, failures⟩ := (requests present).2.2 (Store.broken failure) ⟨(), []⟩
  refine ⟨⟨cause, refused.2 (Table.store Sample.personShape) (.ofRecords []),
      refused.2 (Observed.store (Store.broken failure)) ⟨(), []⟩⟩, ?_, calls, ran, failures⟩
  exact ((pages Sample.careless broken.store.toSource ()).1 _ negation).2 ()

end EntityAccess
