import EntityAccess.Proofs.Store.Transactions

/-!
# Keys and order of rows

Rows under distinct keys stay so, whatever is called on their table.  An update
writes the key of a row over itself: what a slot takes it reads back as it is, unless
it is a slot for doubles.  Rows stay in their order, and new ones come behind them;
only a rollback brings the committed order back.
-/

namespace EntityAccess

/-- The type whose values a storage holds, all of them or some. -/
def SlotType.scalarType : SlotType → ScalarType
  | .bool => .bool
  | .int64 | .int32 => .int
  | .float => .float
  | .text => .text
  | .uuid => .uuid
  | .dateTime => .dateTime

namespace Slot

/-- Only slots for doubles change what they take. -/
theorem eq_of_assign?
    {slot : Slot} (exact : slot.type.scalarType ≠ .float) {value stored : Value}
    (assigned : slot.assign? value = some stored) : stored = value := by
  obtain ⟨type, nullable⟩ := slot
  unfold assign? at assigned
  split at assigned
  · rename_i absent
    have isNull : value = .null := Value.isNull_iff.1 (Bool.and_eq_true_iff.1 absent).2
    exact (Option.some.inj assigned).symm.trans isNull.symm
  · cases type with
    | float => exact absurd rfl exact
    | int32 =>
        obtain ⟨n, taken, rfl⟩ := Option.map_eq_some_iff.1 assigned
        obtain ⟨isInt, _⟩ := Option.filter_eq_some_iff.1 taken
        cases value <;> cases isInt
        rfl
    | bool | int64 | text | uuid | dateTime =>
        obtain ⟨content, taken, rfl⟩ := Option.map_eq_some_iff.1 assigned
        cases value <;> cases taken
        rfl

/-- What stands in a slot that is not for doubles is told apart by sameness. -/
theorem discerns_of_assign?
    {slot : Slot} (exact : slot.type.scalarType ≠ .float) {value stored : Value}
    (assigned : slot.assign? value = some stored) : stored.kind.Discerns := by
  obtain ⟨type, nullable⟩ := slot
  unfold assign? at assigned
  split at assigned
  · obtain rfl := Option.some.inj assigned
    exact ⟨nofun, nofun⟩
  · cases type with
    | float => exact absurd rfl exact
    | bool | int64 | int32 | text | uuid | dateTime =>
        obtain ⟨content, _, rfl⟩ := Option.map_eq_some_iff.1 assigned
        exact ⟨nofun, nofun⟩

end Slot

/-- The slot of the key, if the record has one, is for the type that the shape declares. -/
def Record.KeyBacked (shape : Shape) (record : Record) : Prop :=
  ∀ slot, record.slot? shape.keyName = some slot → slot.type.scalarType = shape.keyType

theorem Record.KeyBacked.of_layout
    {shape : Shape} {record other : Record} (backed : record.KeyBacked shape)
    (layout : other.layout = record.layout) : other.KeyBacked shape := by
  intro slot found
  rw [Record.slot?, layout] at found
  exact backed slot found

namespace Table

variable {shape : Shape}

/--
A copy reads what the slot of its target made of the source, or what the target
read where the source has nothing to copy.
-/
theorem scalar?_of_copyScalars
    {source target copy : Record} {fields : List Field}
    (copied : copyScalars shape source fields target = .ok copy) (name : String) :
    copy.layout = target.layout ∧
      ((source.scalar? name = none ∨ name ∉ fields.map Field.name) ∧
          copy.scalar? name = target.scalar? name ∨
        ∃ value stored, source.scalar? name = some value ∧
          target.stored? name value = some stored ∧ copy.scalar? name = some stored) := by
  induction fields generalizing target with
  | nil =>
      obtain rfl := Except.ok.inj copied
      exact ⟨rfl, .inl ⟨.inr List.not_mem_nil, rfl⟩⟩
  | cons field rest ih =>
      rw [copyScalars] at copied
      cases reads : source.scalar? field.name with
      | none =>
          rw [reads] at copied
          obtain ⟨layout, copyReads⟩ := ih copied
          refine ⟨layout, copyReads.imp_left fun ⟨nothing, kept⟩ => ⟨?_, kept⟩⟩
          by_cases here : name = field.name
          · exact .inl (here ▸ reads)
          · simpa [here] using nothing
      | some value =>
          simp only [reads] at copied
          cases set : target.set? field.name value with
          | none => simp [set] at copied
          | some middle =>
              simp only [set] at copied
              obtain ⟨layout, copyReads⟩ := ih copied
              refine ⟨layout.trans (Record.layout_of_set? set), ?_⟩
              rcases copyReads with
                ⟨nothing, kept⟩ | ⟨later, stored, isLater, taken, written⟩
              · rw [kept, Record.scalar?_after_set? set]
                by_cases here : name = field.name
                · subst here
                  have takes := Record.isSome_set? target field.name value
                  rw [set] at takes
                  obtain ⟨stored, taken⟩ := Option.isSome_iff_exists.1 takes.symm
                  exact .inr ⟨value, stored, reads, taken, by rw [if_pos rfl, taken]⟩
                · exact .inl ⟨by simpa [here] using nothing, if_neg here⟩
              · rw [Record.stored?_of_set? set] at taken
                exact .inr ⟨later, stored, isLater, taken, written⟩

theorem keyName_mem_scalars (shape : Shape) :
    shape.keyName ∈ shape.scalars.map Field.name :=
  List.mem_map.2 ⟨shape.keyField, List.mem_filter.2 ⟨List.mem_cons_self, rfl⟩, rfl⟩

/-- A row that is written over by a record with its key has this very key before and after. -/
theorem keyOf_of_copyScalars
    (exact : shape.keyType ≠ .float) {record kept written : Record}
    (backed : kept.KeyBacked shape) (same : (shape.keyOf kept == shape.keyOf record) = true)
    (copied : copyScalars shape record shape.scalars kept = .ok written) :
    (shape.keyOf record).kind.Discerns ∧ shape.keyOf kept = shape.keyOf record ∧
      shape.keyOf written = shape.keyOf record := by
  rcases (scalar?_of_copyScalars copied shape.keyName).2 with
    ⟨nothing, unwritten⟩ | ⟨value, stored, isKey, taken, wrote⟩
  · -- The record does not know its key, so the row has none either.
    have unknown : shape.keyOf record = .null := by
      rw [Shape.keyOf, nothing.resolve_right (not_not_intro (keyName_mem_scalars shape))]
      rfl
    rw [unknown] at same ⊢
    have discerned : Value.null.kind.Discerns := ⟨by decide, by decide⟩
    have missing := (Value.same_iff_eq_of_right discerned).1 same
    have unchanged : shape.keyOf written = shape.keyOf kept := by
      rw [Shape.keyOf, unwritten, Shape.keyOf]
    exact ⟨discerned, missing, unchanged.trans missing⟩
  · obtain ⟨slot, isSlot, assigned⟩ := Option.bind_eq_some_iff.1 taken
    have narrow : slot.type.scalarType ≠ .float := backed slot isSlot ▸ exact
    obtain rfl := Slot.eq_of_assign? narrow assigned
    have keyed : shape.keyOf record = stored := by rw [Shape.keyOf, isKey]; rfl
    rw [keyed] at same ⊢
    have discerned := Slot.discerns_of_assign? narrow assigned
    exact ⟨discerned, (Value.same_iff_eq_of_right discerned).1 same,
      by rw [Shape.keyOf, wrote]; rfl⟩

/-! ## One row written over -/

/-- One row is written over in its place: it keeps its key, and no other row has that key. -/
inductive Rewrites (shape : Shape) (key : Value) : List Record → List Record → Prop where
  | intro {before after : List Record} {kept written : Record}
      (keyed : shape.keyOf kept = key) (keeps : shape.keyOf written = key)
      (others : ∀ other ∈ before ++ after, (shape.keyOf other == key) = false) :
      Rewrites shape key (before ++ kept :: after) (before ++ written :: after)

/-- Rows whose keys are not the same as one another. -/
def DistinctKeys (shape : Shape) (rows : List Record) : Prop :=
  rows.Pairwise fun first second => (shape.keyOf first == shape.keyOf second) = false

/-- A record is written over the first row with its key. -/
theorem exists_of_overwrite
    {record : Record} {rows changed : List Record}
    (done : overwrite shape record rows = .ok changed) :
    ∃ before kept after written, rows = before ++ kept :: after ∧
      changed = before ++ written :: after ∧
      (∀ other ∈ before, (shape.keyOf other == shape.keyOf record) = false) ∧
      (shape.keyOf kept == shape.keyOf record) = true ∧
      copyScalars shape record shape.scalars kept = .ok written := by
  induction rows generalizing changed with
  | nil => cases done
  | cons row rest ih =>
      rw [overwrite] at done
      split at done
      · rename_i same
        obtain ⟨written, copied, rfl⟩ := Outcome.map_eq_ok_iff.1 done
        exact ⟨[], row, rest, written, rfl, rfl, List.forall_mem_nil _, same, copied⟩
      · rename_i different
        obtain ⟨tail, doneRest, rfl⟩ := Outcome.map_eq_ok_iff.1 done
        obtain ⟨before, kept, after, written, rfl, rfl, earlier, same, copied⟩ := ih doneRest
        exact ⟨row :: before, kept, after, written, rfl, rfl,
          List.forall_mem_cons.2 ⟨Bool.eq_false_iff.2 different, earlier⟩, same, copied⟩

/-- Where keys are distinct, an update writes over the one row with its key. -/
theorem rewrites_of_overwrite
    (exact : shape.keyType ≠ .float) {record : Record} {rows changed : List Record}
    (backed : ∀ row ∈ rows, row.KeyBacked shape) (distinct : DistinctKeys shape rows)
    (done : overwrite shape record rows = .ok changed) :
    Rewrites shape (shape.keyOf record) rows changed := by
  obtain ⟨before, kept, after, written, rfl, rfl, earlier, same, copied⟩ :=
    exists_of_overwrite done
  have keptBacked := backed kept (by simp)
  obtain ⟨discerned, keyed, keeps⟩ := keyOf_of_copyScalars exact keptBacked same copied
  refine .intro keyed keeps (List.forall_mem_append.2 ⟨earlier, fun other isLater => ?_⟩)
  -- A later row with the key would have the key of the row before it.
  have behind := (List.pairwise_cons.1 (List.pairwise_append.1 distinct).2.1).1 other isLater
  rw [keyed, Bool.eq_false_iff, Ne, Value.same_iff_eq discerned] at behind
  rw [Bool.eq_false_iff, Ne, Value.same_iff_eq_of_right discerned]
  exact fun sameKey => behind sameKey.symm

namespace Rewrites

variable {key : Value} {old new : List Record}

theorem keys_eq (rewrites : Rewrites shape key old new) :
    new.map shape.keyOf = old.map shape.keyOf := by
  obtain ⟨keyed, keeps, _⟩ := rewrites
  rw [List.map_append, List.map_append, List.map_cons, List.map_cons, keyed, keeps]

end Rewrites

theorem distinctKeys_iff {rows : List Record} :
    DistinctKeys shape rows ↔
      (rows.map shape.keyOf).Pairwise fun first second => (first == second) = false := by
  rw [List.pairwise_map]
  rfl

/-- Rows under the same keys as others, or some of them, are under distinct keys like these. -/
theorem DistinctKeys.of_sublist
    {old new : List Record} (distinct : DistinctKeys shape old)
    (keys : (new.map shape.keyOf).Sublist (old.map shape.keyOf)) : DistinctKeys shape new :=
  distinctKeys_iff.2 ((distinctKeys_iff.1 distinct).sublist keys)

theorem DistinctKeys.append
    {rows : List Record} (distinct : DistinctKeys shape rows) {record : Record}
    (fresh : ∀ row ∈ rows, (shape.keyOf row == shape.keyOf record) = false) :
    DistinctKeys shape (rows ++ [record]) := by
  refine List.pairwise_append.2 ⟨distinct, List.pairwise_singleton _ _, ?_⟩
  intro row isRow other isRecord
  exact List.mem_singleton.1 isRecord ▸ fresh row isRow

/--
Rows that stay keep their keys and stand in their old order, and rows under new
keys stand behind them.
-/
def KeepsOrder (shape : Shape) (old new : List Record) : Prop :=
  ∃ stayed added, new = stayed ++ added ∧
    (stayed.map shape.keyOf).Sublist (old.map shape.keyOf) ∧
    ∀ row ∈ added, ∀ other ∈ old, (shape.keyOf other == shape.keyOf row) = false

theorem KeepsOrder.of_sublist
    {old new : List Record} (keys : (new.map shape.keyOf).Sublist (old.map shape.keyOf)) :
    KeepsOrder shape old new :=
  ⟨new, [], (List.append_nil new).symm, keys, List.forall_mem_nil _⟩

/-! ## Calls -/

/-- Working and committed rows have distinct keys, each in a slot for its type. -/
structure Keyed (shape : Shape) (table : Table) : Prop where
  working : DistinctKeys shape table.working
  committed : DistinctKeys shape table.committed
  backed : ∀ row, row ∈ table.working ∨ row ∈ table.committed → row.KeyBacked shape

variable {table : Table}

/-- The records that an update leaves have their keys in the same slots as before. -/
theorem backed_of_overwrite
    {record : Record} {rows changed : List Record}
    (backed : ∀ row ∈ rows, row.KeyBacked shape)
    (done : overwrite shape record rows = .ok changed) :
    ∀ row ∈ changed, row.KeyBacked shape := by
  obtain ⟨before, kept, after, written, rfl, rfl, _, _, copied⟩ := exists_of_overwrite done
  obtain ⟨backedBefore, backedKept, backedAfter⟩ := by
    simpa only [List.forall_mem_append, List.forall_mem_cons] using backed
  rw [List.forall_mem_append, List.forall_mem_cons]
  have layout := (scalar?_of_copyScalars copied shape.keyName).1
  exact ⟨backedBefore, backedKept.of_layout layout, backedAfter⟩

/-- Every call leaves the rows under distinct keys. -/
theorem Keyed.after
    (exact : shape.keyType ≠ .float) (keyed : Keyed shape table) {call : TableCall}
    (backed : ∀ record, call = .add record → record.KeyBacked shape) :
    Keyed shape (table.after shape call) := by
  have becomes := becomes_after shape table call
  generalize table.after shape call = next at becomes
  cases becomes with
  | taken | unwritten => exact keyed
  | @added record fresh =>
      refine ⟨keyed.working.append fresh, keyed.committed, fun row isRow => ?_⟩
      rcases isRow with working | committed
      · rcases List.mem_append.1 working with old | new
        · exact keyed.backed row (.inl old)
        · exact List.mem_singleton.1 new ▸ backed record rfl
      · exact keyed.backed row (.inr committed)
  | updated written =>
      have backedRows := fun row isRow => keyed.backed row (.inl isRow)
      have rewrites := rewrites_of_overwrite exact backedRows keyed.working written
      refine ⟨keyed.working.of_sublist (rewrites.keys_eq ▸ List.Sublist.refl _),
        keyed.committed, fun row isRow => ?_⟩
      exact isRow.elim (backed_of_overwrite backedRows written row) fun committed =>
        keyed.backed row (.inr committed)
  | deleted =>
      refine ⟨keyed.working.of_sublist (List.filter_sublist.map shape.keyOf), keyed.committed,
        fun row isRow => keyed.backed row (isRow.imp_left List.mem_of_mem_filter)⟩
  | committed =>
      by_cases unchanged : table.pending = 0
      · rw [commit, if_pos unchanged]
        exact keyed
      · rw [commit, if_neg unchanged]
        exact ⟨keyed.working, keyed.working,
          fun row isRow => keyed.backed row (.inl (or_self_iff.1 isRow))⟩
  | rolledBack =>
      exact ⟨keyed.committed, keyed.committed,
        fun row isRow => keyed.backed row (.inr (or_self_iff.1 isRow))⟩

theorem Keyed.afterAll
    (exact : shape.keyType ≠ .float) (keyed : Keyed shape table) {calls : List TableCall}
    (backed : ∀ record, .add record ∈ calls → record.KeyBacked shape) :
    Keyed shape (table.afterAll shape calls) := by
  induction calls generalizing table with
  | nil => exact keyed
  | cons call rest ih =>
      refine ih (keyed.after exact fun record isAdded => ?_) fun record isLater =>
        backed record (List.mem_cons_of_mem call isLater)
      exact backed record (isAdded ▸ List.mem_cons_self)

/-- A successful update writes over the one row with its key. -/
theorem Keyed.rewrites_after_update
    (exact : shape.keyType ≠ .float) (keyed : Keyed shape table) {record answer : Record}
    (done : (Running.run ((store shape).update record) table).1 = .ok answer) :
    Rewrites shape (shape.keyOf record) table.working
      (table.after shape (.update record)).working := by
  rw [after_update]
  have attempted := run_attempt (fun table => table.update shape record) table
  cases outcome : table.update shape record with
  | error e =>
      simp only [outcome] at attempted
      have failed := Running.run_bind_of_error attempted fun _ => pure record
      exact nomatch (congrArg Prod.fst failed).symm.trans done
  | ok changed =>
      obtain ⟨working, written, rfl⟩ := update_eq_ok_iff.1 outcome
      exact rewrites_of_overwrite exact (fun row isRow => keyed.backed row (.inl isRow))
        keyed.working written

/-- Nothing but a rollback changes the order of the working rows. -/
theorem Keyed.keepsOrder_after
    (exact : shape.keyType ≠ .float) (keyed : Keyed shape table) {call : TableCall}
    (other : call ≠ .rollback) :
    KeepsOrder shape table.working (table.after shape call).working := by
  have becomes := becomes_after shape table call
  generalize table.after shape call = next at becomes
  cases becomes with
  | taken | unwritten => exact .of_sublist (List.Sublist.refl _)
  | @added record fresh =>
      exact ⟨table.working, [record], rfl, List.Sublist.refl _,
        List.forall_mem_singleton.2 fresh⟩
  | updated written =>
      have rewrites := rewrites_of_overwrite exact
        (fun row isRow => keyed.backed row (.inl isRow)) keyed.working written
      exact .of_sublist (rewrites.keys_eq ▸ List.Sublist.refl _)
  | deleted => exact .of_sublist (List.filter_sublist.map shape.keyOf)
  | committed => exact .of_sublist (working_commit table ▸ List.Sublist.refl _)
  | rolledBack => exact absurd rfl other

/-- The committed rows are kept, or all of them are exchanged for the working rows. -/
theorem committed_after (shape : Shape) (table : Table) (call : TableCall) :
    (table.after shape call).committed = table.committed ∨
      (table.after shape call).committed = table.working := by
  have becomes := becomes_after shape table call
  generalize table.after shape call = next at becomes
  cases becomes with
  | taken | added | unwritten | updated | deleted | rolledBack => exact .inl rfl
  | committed =>
      by_cases unchanged : table.pending = 0
      · rw [commit, if_pos unchanged]
        exact .inl rfl
      · rw [commit, if_neg unchanged]
        exact .inr rfl

/--
Where the key type is not that of doubles, rows that start under distinct keys
are under distinct keys after any calls, the committed ones as well.  From there
a successful update writes over the one row with the given key and leaves this
key, no call but a rollback puts rows that stay in another order or a new row
before them, and a commit takes the working rows as they stand.
-/
theorem distinctKeys_afterAll
    (exact : shape.keyType ≠ .float) {rows : List Record} {calls : List TableCall}
    (backed : ∀ record, record ∈ rows ∨ .add record ∈ calls → record.KeyBacked shape)
    (distinct : DistinctKeys shape rows) :
    let table := (ofRecords rows).afterAll shape calls
    DistinctKeys shape table.working ∧ DistinctKeys shape table.committed ∧
      (∀ record answer, (Running.run ((store shape).update record) table).1 = .ok answer →
        Rewrites shape (shape.keyOf record) table.working
          (table.after shape (.update record)).working) ∧
      (∀ call, call ≠ .rollback →
        KeepsOrder shape table.working (table.after shape call).working) ∧
      ∀ call, (table.after shape call).committed = table.committed ∨
        (table.after shape call).committed = table.working := by
  intro table
  have start : Keyed shape (ofRecords rows) :=
    ⟨distinct, distinct, fun row isRow => backed row (.inl (or_self_iff.1 isRow))⟩
  have keyed : Keyed shape table := start.afterAll exact fun record isAdded =>
    backed record (.inr isAdded)
  exact ⟨keyed.working, keyed.committed, fun _ _ done => keyed.rewrites_after_update exact done,
    fun _ other => keyed.keepsOrder_after exact other, committed_after shape table⟩

theorem keyBacked_treeItem (id : Int64) (name : String) :
    (Sample.treeItem id name).KeyBacked Sample.treeItemShape :=
  fun _ found => Option.some.inj found ▸ rfl

/--
A taken key is refused, a row that is removed and added again comes last, and an
update in the middle keeps the place and the key.
-/
theorem distinctKeys_afterAll_treeItems :
    let rows := [Sample.treeItem 1 "root", Sample.treeItem 2 "leaf"]
    let calls : List TableCall :=
      [.add (Sample.treeItem 2 "twin"), .add (Sample.treeItem 3 "bud"), .commit,
        .delete (Sample.treeItemShape.keyIs (.int 1)), .add (Sample.treeItem 1 "seed"),
        .update (Sample.treeItem 9 "oak")]
    let table := (ofRecords rows).afterAll Sample.treeItemShape calls
    table.working.map Sample.treeItemShape.keyOf = [.int 2, .int 3, .int 1] ∧
      DistinctKeys Sample.treeItemShape table.working ∧
      table.committed.map Sample.treeItemShape.keyOf = [.int 1, .int 2, .int 3] ∧
      DistinctKeys Sample.treeItemShape table.committed ∧
      Rewrites Sample.treeItemShape (.int 3) table.working
        (table.after Sample.treeItemShape (.update (Sample.treeItem 3 "twig"))).working ∧
      KeepsOrder Sample.treeItemShape table.working
        (table.after Sample.treeItemShape
          (.delete (Sample.treeItemShape.keyIs (.int 3)))).working := by
  intro rows calls table
  have backed : ∀ record, record ∈ rows ∨ .add record ∈ calls →
      record.KeyBacked Sample.treeItemShape := by
    rintro record (isRow | isAdded)
    · simp only [rows, List.mem_cons, List.not_mem_nil, or_false] at isRow
      rcases isRow with rfl | rfl <;> exact keyBacked_treeItem _ _
    · simp only [calls, List.mem_cons, List.not_mem_nil, or_false, TableCall.add.injEq,
        reduceCtorEq, false_or] at isAdded
      rcases isAdded with rfl | rfl | rfl <;> exact keyBacked_treeItem _ _
  have distinct : DistinctKeys Sample.treeItemShape rows := List.pairwise_pair.2 rfl
  obtain ⟨working, committed, rewrites, keepsOrder, _⟩ :=
    distinctKeys_afterAll (by decide : Sample.treeItemShape.keyType ≠ .float) backed distinct
  exact ⟨rfl, working, rfl, committed, rewrites (Sample.treeItem 3 "twig") _ rfl,
    keepsOrder _ nofun⟩

end Table

end EntityAccess
