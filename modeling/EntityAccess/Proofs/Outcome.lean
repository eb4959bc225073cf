import EntityAccess.Store
import Mathlib.Data.List.Forall2

/-!
# Outcomes

A computation that may fail gives a value or an error.  A composed one gives a
value exactly when each of its parts does, and the error of the first part that
does not otherwise.  A call on a store goes from a state to an answer and the
state afterwards.
-/

namespace EntityAccess

/-- A read at an index that a list of some length does not have. -/
structure OutOfBounds where
  index : Nat
  length : Nat
  deriving DecidableEq, Repr

namespace Outcome

variable {ε δ α β : Type}

theorem bind_eq_ok_iff {first : Except ε α} {next : α → Except ε β} {result : β} :
    (first >>= next) = .ok result ↔ ∃ middle, first = .ok middle ∧ next middle = .ok result := by
  cases first with
  | error e => simp [bind, Except.bind]
  | ok middle => simp [bind, Except.bind]

theorem map_eq_ok_iff {outcome : Except ε α} {f : α → β} {result : β} :
    outcome.map f = .ok result ↔ ∃ value, outcome = .ok value ∧ f value = result := by
  cases outcome with
  | error e => simp [Except.map]
  | ok value => simp [Except.map]

theorem mapError_eq_ok_iff {outcome : Except ε α} {f : ε → δ} {result : α} :
    outcome.mapError f = .ok result ↔ outcome = .ok result := by
  cases outcome with
  | error e => simp [Except.mapError]
  | ok value => simp [Except.mapError]

/-- A list of computations gives the list of their values. -/
theorem mapM_eq_ok_iff {f : α → Except ε β} {inputs : List α} {results : List β} :
    inputs.mapM f = .ok results ↔
      List.Forall₂ (fun input result => f input = .ok result) inputs results := by
  induction inputs generalizing results with
  | nil =>
      rw [List.forall₂_nil_left_iff]
      exact ⟨fun done => (Except.ok.inj done).symm, fun empty => empty ▸ rfl⟩
  | cons input rest ih =>
      rw [List.mapM_cons, bind_eq_ok_iff, List.forall₂_cons_left_iff]
      simp only [bind_eq_ok_iff, ih, pure, Except.pure, Except.ok.injEq]
      constructor
      · rintro ⟨result, done, others, doneRest, rfl⟩
        exact ⟨result, others, done, doneRest, rfl⟩
      · rintro ⟨result, others, done, doneRest, rfl⟩
        exact ⟨result, done, others, doneRest, rfl⟩

/-- A list of computations gives values when each of them does. -/
theorem exists_mapM_eq_ok_iff {f : α → Except ε β} {inputs : List α} :
    (∃ results, inputs.mapM f = .ok results) ↔
      ∀ input ∈ inputs, ∃ result, f input = .ok result := by
  simp only [mapM_eq_ok_iff]
  induction inputs with
  | nil => simp
  | cons input rest ih =>
      simp only [List.forall₂_cons_left_iff, List.forall_mem_cons, ← ih]
      constructor
      · rintro ⟨_, result, results, done, doneRest, -⟩
        exact ⟨⟨result, done⟩, results, doneRest⟩
      · rintro ⟨⟨result, done⟩, results, doneRest⟩
        exact ⟨_, result, results, done, doneRest, rfl⟩

/-- A fold over the values of computations is the fold of the list of these values. -/
theorem foldlM_map_eq (f : α → Except ε β) (step : δ → β → δ) (start : δ) (inputs : List α) :
    inputs.foldlM (fun reached input => (f input).map (step reached)) start =
      (inputs.mapM f).map (List.foldl step start) := by
  induction inputs generalizing start with
  | nil => rfl
  | cons input rest ih =>
      rw [List.foldlM_cons, List.mapM_cons]
      cases f input with
      | error e => rfl
      | ok result =>
          refine (ih (step start result)).trans ?_
          cases rest.mapM f <;> rfl

/-- Computations that all give a value give the list of these values. -/
theorem mapM_eq_ok_map
    {f : α → Except ε β} {g : α → β} {inputs : List α}
    (each : ∀ input ∈ inputs, f input = .ok (g input)) : inputs.mapM f = .ok (inputs.map g) := by
  rw [mapM_eq_ok_iff, List.forall₂_map_right_iff, List.forall₂_same]
  exact each

/-- A search by computations that all give an answer is the search by these answers. -/
theorem anyM_eq_ok_any
    {test : α → Except ε Bool} {answer : α → Bool} {inputs : List α}
    (each : ∀ input ∈ inputs, test input = .ok (answer input)) :
    inputs.anyM test = .ok (inputs.any answer) := by
  induction inputs with
  | nil => rfl
  | cons input rest ih =>
      obtain ⟨first, later⟩ := List.forall_mem_cons.1 each
      rw [List.anyM, first, List.any_cons]
      cases answer input with
      | true => rfl
      | false => exact ih later

def readAt (items : List α) (index : Nat) : Except OutOfBounds α :=
  match items[index]? with
  | some item => .ok item
  | none => .error ⟨index, items.length⟩

theorem readAt_eq_ok_iff {items : List α} {index : Nat} {item : α} :
    readAt items index = .ok item ↔ items[index]? = some item := by
  rw [readAt]
  cases items[index]? with
  | none => simp
  | some found => simp

/-! ## Errors -/

theorem bind_eq_error_iff {first : Except ε α} {next : α → Except ε β} {e : ε} :
    (first >>= next) = .error e ↔
      first = .error e ∨ ∃ middle, first = .ok middle ∧ next middle = .error e := by
  cases first with
  | error e => simp [bind, Except.bind]
  | ok middle => simp [bind, Except.bind]

theorem map_eq_error_iff {outcome : Except ε α} {f : α → β} {e : ε} :
    outcome.map f = .error e ↔ outcome = .error e := by
  cases outcome with
  | error e => simp [Except.map]
  | ok value => simp [Except.map]

theorem mapError_eq_error_iff {outcome : Except ε α} {f : ε → δ} {e : δ} :
    outcome.mapError f = .error e ↔ ∃ cause, outcome = .error cause ∧ f cause = e := by
  cases outcome with
  | error e => simp [Except.mapError]
  | ok value => simp [Except.mapError]

def error? : Except ε α → Option ε
  | .error e => some e
  | .ok _ => none

theorem error?_eq_some_iff {outcome : Except ε α} {e : ε} :
    error? outcome = some e ↔ outcome = .error e := by
  cases outcome <;> simp [error?]

theorem error?_eq_none_iff {outcome : Except ε α} :
    error? outcome = none ↔ ∃ value, outcome = .ok value := by
  cases outcome <;> simp [error?]

@[simp]
theorem error?_map (outcome : Except ε α) (f : α → β) :
    error? (outcome.map f) = error? outcome := by
  cases outcome <;> rfl

/-- The error of the first input that a computation fails on. -/
def FirstError (f : α → Except ε β) (inputs : List α) (e : ε) : Prop :=
  ∃ before input after, inputs = before ++ input :: after ∧
    (∀ earlier ∈ before, ∃ result, f earlier = .ok result) ∧ f input = .error e

/-- A list of computations fails with the first of them that does. -/
theorem mapM_eq_error_iff {f : α → Except ε β} {inputs : List α} {e : ε} :
    inputs.mapM f = .error e ↔ FirstError f inputs e := by
  induction inputs with
  | nil =>
      constructor
      · intro failed
        cases failed
      · rintro ⟨before, input, after, split, _⟩
        simp at split
  | cons first rest ih =>
      rw [List.mapM_cons, bind_eq_error_iff]
      constructor
      · rintro (failed | ⟨result, done, failed⟩)
        · exact ⟨[], first, rest, rfl, List.forall_mem_nil _, failed⟩
        · rcases bind_eq_error_iff.1 failed with failedRest | ⟨_, _, done⟩
          · obtain ⟨before, input, after, rfl, earlier, failedInput⟩ := ih.1 failedRest
            exact ⟨first :: before, input, after, rfl,
              List.forall_mem_cons.2 ⟨⟨result, done⟩, earlier⟩, failedInput⟩
          · cases done
      · rintro ⟨before, input, after, split, earlier, failed⟩
        cases before with
        | nil =>
            obtain ⟨rfl, rfl⟩ := List.cons.inj split
            exact Or.inl failed
        | cons head before =>
            obtain ⟨rfl, rfl⟩ := List.cons.inj split
            obtain ⟨⟨result, done⟩, earlierRest⟩ := List.forall_mem_cons.1 earlier
            exact Or.inr ⟨result, done,
              bind_eq_error_iff.2 (Or.inl (ih.2 ⟨before, input, after, rfl, earlierRest, failed⟩))⟩

/-- A fold fails at the first input that is refused where the inputs before it lead. -/
theorem foldlM_eq_error_iff {step : δ → α → Except ε δ} {start : δ} {inputs : List α} {e : ε} :
    inputs.foldlM step start = .error e ↔
      ∃ before input after reached, inputs = before ++ input :: after ∧
        before.foldlM step start = .ok reached ∧ step reached input = .error e := by
  induction inputs generalizing start with
  | nil =>
      constructor
      · intro failed
        cases failed
      · rintro ⟨before, input, after, _, split, _⟩
        simp at split
  | cons first rest ih =>
      rw [List.foldlM_cons, bind_eq_error_iff]
      constructor
      · rintro (failed | ⟨next, done, failed⟩)
        · exact ⟨[], first, rest, start, rfl, rfl, failed⟩
        · obtain ⟨before, input, after, reached, rfl, doneBefore, failedInput⟩ := ih.1 failed
          refine ⟨first :: before, input, after, reached, rfl, ?_, failedInput⟩
          rw [List.foldlM_cons, done]
          exact doneBefore
      · rintro ⟨before, input, after, reached, split, doneBefore, failed⟩
        cases before with
        | nil =>
            obtain ⟨rfl, rfl⟩ := List.cons.inj split
            obtain rfl := Except.ok.inj doneBefore
            exact Or.inl failed
        | cons head before =>
            obtain ⟨rfl, rfl⟩ := List.cons.inj split
            obtain ⟨next, done, doneRest⟩ := bind_eq_ok_iff.1 doneBefore
            exact Or.inr ⟨next, done, ih.2 ⟨before, input, after, reached, rfl, doneRest, failed⟩⟩

/-- The error of a list of computations does not depend on what is made of their values. -/
theorem error?_mapM_congr
    {γ : Type} {f : α → Except ε β} {g : α → Except ε γ} (inputs : List α)
    (same : ∀ input, error? (f input) = error? (g input)) :
    error? (inputs.mapM f) = error? (inputs.mapM g) := by
  refine Option.ext fun e => ?_
  rw [error?_eq_some_iff, error?_eq_some_iff, mapM_eq_error_iff, mapM_eq_error_iff]
  simp only [FirstError, ← error?_eq_none_iff, ← error?_eq_some_iff, same]

/-- Outcomes with the same error, or with values of the same image, have the same image. -/
theorem map_eq_map
    {γ : Type} {left : Except ε α} {right : Except ε β} {f : α → γ} {g : β → γ}
    (errors : error? left = error? right)
    (values : ∀ first second, left = .ok first → right = .ok second → f first = g second) :
    left.map f = right.map g := by
  cases left with
  | error e =>
      have failed : right = .error e := error?_eq_some_iff.1 errors.symm
      rw [failed]
      rfl
  | ok first =>
      obtain ⟨second, done⟩ := error?_eq_none_iff.1 errors.symm
      rw [done]
      exact congrArg Except.ok (values first second rfl done)

end Outcome

/-! ## Running calls -/

namespace Running

variable {ε δ σ α β : Type}

/-- Run a call from a state. -/
def run (call : ExceptT ε (StateM σ) α) (state : σ) : Except ε α × σ :=
  StateT.run (ExceptT.run call) state

@[simp]
theorem run_throw (e : ε) (state : σ) :
    run (throw e : ExceptT ε (StateM σ) α) state = (.error e, state) := rfl

theorem run_bind
    (call : ExceptT ε (StateM σ) α) (next : α → ExceptT ε (StateM σ) β) (state : σ) :
    run (call >>= next) state =
      StateT.run (ExceptT.bindCont next (run call state).1) (run call state).2 := rfl

/-- After a successful call, the next one starts from the state it left. -/
theorem run_bind_of_ok
    {call : ExceptT ε (StateM σ) α} {state after : σ} {value : α}
    (done : run call state = (.ok value, after)) (next : α → ExceptT ε (StateM σ) β) :
    run (call >>= next) state = run (next value) after := by
  rw [run_bind, done]
  rfl

/-- After a failed call, nothing else happens. -/
theorem run_bind_of_error
    {call : ExceptT ε (StateM σ) α} {state after : σ} {e : ε}
    (failed : run call state = (.error e, after)) (next : α → ExceptT ε (StateM σ) β) :
    run (call >>= next) state = (.error e, after) := by
  rw [run_bind, failed]
  rfl

/-- A call whose answer is only shown differently. -/
theorem run_map (f : α → β) (call : ExceptT ε (StateM σ) α) (state : σ) :
    run (f <$> call) state = ((run call state).1.map f, (run call state).2) := by
  rw [map_eq_pure_bind]
  cases ran : run call state with
  | mk answer after =>
      cases answer with
      | error e => exact run_bind_of_error ran _
      | ok value => exact run_bind_of_ok ran _

/-- A call that cannot fail, among calls that can. -/
theorem run_lift (call : StateM σ α) (state : σ) :
    run (liftM call : ExceptT ε (StateM σ) α) state =
      (.ok (StateT.run call state).1, (StateT.run call state).2) := rfl

/-- A call as part of an operation that names its failures differently. -/
theorem run_adapt (f : ε → δ) (call : ExceptT ε (StateM σ) α) (state : σ) :
    run (call.adapt f) state = ((run call state).1.mapError f, (run call state).2) := rfl

end Running

namespace Table

/-- A change that fails is not made. -/
theorem run_attempt (change : Table → Except StoreError Table) (table : Table) :
    Running.run (attempt change) table =
      match change table with
      | .ok changed => (.ok (), changed)
      | .error e => (.error e, table) := by
  have read : Running.run (ExceptT.mk (do return change (← get)) : StoreCall Table Table) table =
      (change table, table) := rfl
  unfold attempt
  cases done : change table with
  | error e =>
      rw [done] at read
      exact Running.run_bind_of_error read _
  | ok changed =>
      rw [done] at read
      exact Running.run_bind_of_ok read _

end Table

end EntityAccess
