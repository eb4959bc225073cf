import EntityAccess.Proofs.Query.Pages

/-!
# Transactions

Calls on a table one after the other, some of which may fail.  The snapshot is what
the table worked on at the last commit, and only changes that are counted as pending
set the working records apart from it.
-/

namespace EntityAccess

/-- A call on a table that is more than a read. -/
inductive TableCall where
  | add (record : Record)
  | update (record : Record)
  | delete (predicate : Predicate)
  | commit
  | rollback

namespace Table

/-- The table after a call on its store, whether the call fails or not. -/
def after (shape : Shape) (table : Table) : TableCall → Table
  | .add record => (Running.run ((store shape).add record) table).2
  | .update record => (Running.run ((store shape).update record) table).2
  | .delete predicate => (Running.run ((store shape).delete predicate) table).2
  | .commit => (Running.run (store shape).commit table).2
  | .rollback => table.rollback

/-- The table after calls one by one. -/
def afterAll (shape : Shape) (table : Table) (calls : List TableCall) : Table :=
  calls.foldl (after shape) table

variable {shape : Shape} {table : Table}

theorem afterAll_append (before since : List TableCall) :
    afterAll shape table (before ++ since) = afterAll shape (afterAll shape table before) since :=
  List.foldl_append

/-- Of a change and an answer to it, only the change matters to the table. -/
theorem state_of_attempt
    {α : Type} (change : Table → Except StoreError Table) (answer : α) (table : Table) :
    (Running.run (attempt change >>= fun _ => pure answer) table).2 =
      match change table with
      | .ok changed => changed
      | .error _ => table := by
  have attempted := run_attempt change table
  cases done : change table with
  | ok changed =>
      rw [done] at attempted
      rw [Running.run_bind_of_ok attempted]
      rfl
  | error e =>
      rw [done] at attempted
      rw [Running.run_bind_of_error attempted]

theorem after_add (record : Record) :
    after shape table (.add record) =
      match table.add shape record with
      | .ok changed => changed
      | .error _ => table :=
  state_of_attempt (fun table => table.add shape record) record table

theorem after_update (record : Record) :
    after shape table (.update record) =
      match table.update shape record with
      | .ok changed => changed
      | .error _ => table :=
  state_of_attempt (fun table => table.update shape record) record table

theorem after_delete (predicate : Predicate) :
    after shape table (.delete predicate) = table.delete predicate := by
  rw [after, store, run_attempt]

theorem after_commit : after shape table .commit = table.commit := by
  rw [after, store, run_attempt]

theorem after_rollback : after shape table .rollback = table.rollback := rfl

/-- A record is added at the end if no key is the same as its own. -/
theorem add_eq_ok_iff {record : Record} {changed : Table} :
    table.add shape record = .ok changed ↔
      (∀ kept ∈ table.working, (shape.keyOf kept == shape.keyOf record) = false) ∧
        table.change (table.working ++ [record]) = changed := by
  have fresh : (table.working.any fun kept => shape.keyOf kept == shape.keyOf record) = false ↔
      ∀ kept ∈ table.working, (shape.keyOf kept == shape.keyOf record) = false := by
    simp
  rw [← fresh, add]
  cases taken : table.working.any fun kept => shape.keyOf kept == shape.keyOf record <;> simp

theorem update_eq_ok_iff {record : Record} {changed : Table} :
    table.update shape record = .ok changed ↔
      ∃ working, overwrite shape record table.working = .ok working ∧
        table.change working = changed :=
  Outcome.map_eq_ok_iff

/-- What each call makes of a table. -/
inductive Becomes (shape : Shape) (table : Table) : TableCall → Table → Prop where
  | taken {record : Record} {e : StoreError} (refused : table.add shape record = .error e) :
      Becomes shape table (.add record) table
  | added {record : Record}
      (fresh : ∀ kept ∈ table.working, (shape.keyOf kept == shape.keyOf record) = false) :
      Becomes shape table (.add record) (table.change (table.working ++ [record]))
  | unwritten {record : Record} {e : StoreError} (refused : table.update shape record = .error e) :
      Becomes shape table (.update record) table
  | updated {record : Record} {working : List Record}
      (written : overwrite shape record table.working = .ok working) :
      Becomes shape table (.update record) (table.change working)
  | deleted {predicate : Predicate} :
      Becomes shape table (.delete predicate) (table.delete predicate)
  | committed : Becomes shape table .commit table.commit
  | rolledBack : Becomes shape table .rollback table.rollback

theorem becomes_after (shape : Shape) (table : Table) (call : TableCall) :
    table.Becomes shape call (table.after shape call) := by
  cases call with
  | add record =>
      rw [after_add]
      cases answer : table.add shape record with
      | error e => exact .taken answer
      | ok changed =>
          obtain ⟨fresh, rfl⟩ := add_eq_ok_iff.1 answer
          exact .added fresh
  | update record =>
      rw [after_update]
      cases answer : table.update shape record with
      | error e => exact .unwritten answer
      | ok changed =>
          obtain ⟨working, written, rfl⟩ := update_eq_ok_iff.1 answer
          exact .updated written
  | delete predicate =>
      rw [after_delete]
      exact .deleted
  | commit =>
      rw [after_commit]
      exact .committed
  | rollback =>
      rw [after_rollback]
      exact .rolledBack

/-- Without pending changes the table works on what was committed last. -/
def Settled (table : Table) : Prop :=
  table.pending = 0 → table.snapshot = table.working

theorem settled_ofRecords (rows : List Record) : (ofRecords rows).Settled :=
  fun _ => rfl

/-- A change is counted, and the end of a transaction leaves nothing to count. -/
theorem Settled.after (settled : table.Settled) (shape : Shape) (call : TableCall) :
    (table.after shape call).Settled := by
  have becomes := becomes_after shape table call
  generalize table.after shape call = next at becomes
  cases becomes with
  | taken | unwritten => exact settled
  | added | updated | deleted => exact fun none => absurd none (Nat.succ_ne_zero _)
  | committed => exact fun _ => (snapshot_commit settled).trans (working_commit table).symm
  | rolledBack => exact fun _ => rfl

theorem Settled.afterAll (settled : table.Settled) (shape : Shape) (calls : List TableCall) :
    (table.afterAll shape calls).Settled := by
  induction calls generalizing table with
  | nil => exact settled
  | cons call rest ih => exact ih (settled.after shape call)

/-! ## The last commit -/

/-- Nothing but a commit touches the snapshot. -/
theorem snapshot_after {call : TableCall} (other : call ≠ .commit) :
    (table.after shape call).snapshot = table.snapshot := by
  have becomes := becomes_after shape table call
  generalize table.after shape call = next at becomes
  cases becomes with
  | taken | added | unwritten | updated | deleted | rolledBack => rfl
  | committed => exact absurd rfl other

theorem snapshot_afterAll {calls : List TableCall} (never : .commit ∉ calls) :
    (table.afterAll shape calls).snapshot = table.snapshot := by
  induction calls generalizing table with
  | nil => rfl
  | cons call rest ih =>
      have other : call ≠ .commit := (List.ne_of_not_mem_cons never).symm
      exact (ih (List.not_mem_of_not_mem_cons never)).trans (snapshot_after other)

/-- The working records at the last of the commits among calls on a table of some rows. -/
inductive LastCommitted (shape : Shape) (rows : List Record) :
    List TableCall → List Record → Prop where
  | never {calls : List TableCall} (never : .commit ∉ calls) : LastCommitted shape rows calls rows
  | last {before since : List TableCall} (last : .commit ∉ since) :
      LastCommitted shape rows (before ++ .commit :: since)
        ((ofRecords rows).afterAll shape before).working

/-- What was committed last is the snapshot, whatever has been called since. -/
theorem LastCommitted.eq_snapshot {rows records : List Record} {calls : List TableCall}
    (last : LastCommitted shape rows calls records) :
    records = ((ofRecords rows).afterAll shape calls).snapshot := by
  cases last with
  | never never =>
      rw [snapshot_afterAll never]
      rfl
  | @last before since last =>
      have settled := (settled_ofRecords rows).afterAll shape before
      rw [afterAll_append]
      change _ = (afterAll shape (after shape _ .commit) since).snapshot
      rw [snapshot_afterAll last, after_commit, snapshot_commit settled]

/-- There is a last commit among calls, or no commit at all. -/
theorem exists_lastCommitted (shape : Shape) (rows : List Record) (calls : List TableCall) :
    ∃ records, LastCommitted shape rows calls records := by
  by_cases commits : .commit ∈ calls
  · obtain ⟨since, before, reversed, last⟩ :=
      List.eq_append_cons_of_mem (List.mem_reverse.2 commits)
    obtain rfl : calls = before.reverse ++ .commit :: since.reverse := by
      simpa using congrArg List.reverse reversed
    exact ⟨_, .last (by simpa using last)⟩
  · exact ⟨rows, .never commits⟩

theorem lastCommitted_iff {rows records : List Record} {calls : List TableCall} :
    LastCommitted shape rows calls records ↔
      records = ((ofRecords rows).afterAll shape calls).snapshot := by
  constructor
  · exact LastCommitted.eq_snapshot
  · rintro rfl
    obtain ⟨records, last⟩ := exists_lastCommitted shape rows calls
    exact last.eq_snapshot ▸ last

/-- Every query on the store answers from the records and leaves the table. -/
structure Shows (shape : Shape) (table : Table) (records : List Record) : Prop where
  count : ∀ query, Running.run ((store shape).count query) table =
    (.ok (query.select records).length, table)
  toList : ∀ query, Running.run ((store shape).toList query) table =
    (.ok (query.results records), table)
  first : ∀ query, Running.run ((store shape).first query) table =
    (.ok (query.results records).head?, table)

theorem shows_working (shape : Shape) (table : Table) : Shows shape table table.working where
  count _ := rfl
  toList _ := rfl
  first query := by rw [run_first, TableQuery.results, List.head?_map]

/--
After any calls on a table of some rows, the snapshot is what was worked on at
the last commit.  Without pending changes it is also what is worked on, so a
commit that has nothing to count loses nothing.  A commit shows its snapshot to
every query, and a rollback shows what was committed last.
-/
theorem snapshot_lastCommitted (shape : Shape) (rows : List Record) (calls : List TableCall) :
    let table := (ofRecords rows).afterAll shape calls
    (∀ records, LastCommitted shape rows calls records ↔ records = table.snapshot) ∧
      (table.pending = 0 → table.working = table.snapshot) ∧
      (table.after shape .commit).snapshot = table.working ∧
      Shows shape (table.after shape .commit) (table.after shape .commit).snapshot ∧
      ∀ records, LastCommitted shape rows calls records →
        Shows shape (table.after shape .rollback) records := by
  intro table
  have settled : table.Settled := (settled_ofRecords rows).afterAll shape calls
  have published := snapshot_commit settled
  refine ⟨fun _ => lastCommitted_iff, fun none => (settled none).symm, ?commit, ?reads,
    fun records last => ?rollback⟩
  case commit =>
    rw [after_commit]
    exact published
  case reads =>
    have shown := shows_working shape table.commit
    rw [after_commit, published]
    rwa [working_commit] at shown
  case rollback =>
    rw [last.eq_snapshot]
    exact shows_working shape table.rollback

/-- A key that is taken, a key that is missing and a rollback leave what was committed. -/
theorem snapshot_lastCommitted_treeItems :
    let rows := [Sample.treeItem 1 "root", Sample.treeItem 2 "leaf"]
    let kept := [Sample.treeItem 1 "root", Sample.treeItem 2 "leaf", Sample.treeItem 3 "bud"]
    let calls : List TableCall :=
      [.add (Sample.treeItem 1 "seed"), .add (Sample.treeItem 3 "bud"), .commit, .delete .all,
        .rollback, .update (Sample.treeItem 9 "oak"), .delete .none]
    let table := (ofRecords rows).afterAll Sample.treeItemShape calls
    LastCommitted Sample.treeItemShape rows calls kept ∧ table.pending = 1 ∧
      Shows Sample.treeItemShape (table.after Sample.treeItemShape .rollback) kept := by
  intro rows kept calls table
  obtain ⟨last, _, _, _, shown⟩ := snapshot_lastCommitted Sample.treeItemShape rows calls
  have committed : LastCommitted Sample.treeItemShape rows calls kept := (last kept).2 rfl
  exact ⟨committed, rfl, shown kept committed⟩

end Table

end EntityAccess
