import EntityAccess.Proofs.Service.Operations

/-!
# Updates and other writes

An update loads a row without its relations, patches the copy and writes every
scalar of it back.  Nevertheless updates of one row add up, and an update is
refused for its patch or for its key, never by a record or by the table.  What a
write answers hangs on the row under its key alone, and it changes no other row.
-/

namespace EntityAccess

/-! ## Updates -/

section Updates

variable {shape : Shape} {Key : Type} [ToValue Key] [RecordKey Key] [DecidableEq Key]
variable {table : Table} {map : RowMap shape Key}

namespace Service

variable {Dto : Type} {catalog : Catalog} {mapper : Mapper Dto} {config : ServiceConfig}

/-- With a patch that suits the shape, a row that is there is updated. -/
theorem run_update_of_found
    (working : table.working = map.records) {key : Key} {row : Row shape Key}
    (found : map.find? key = some row) {patch : Patch} (suits : patch.Suits shape) :
    Running.run ((onTable catalog shape mapper config).update (toValue key) patch) table =
      (.ok (mapper.ofRecord ((row.patch patch).record.prune .empty)),
        table.changeTo (map.patch key patch) config.autoCommit) := by
  obtain ⟨prepared, done⟩ := suits
  rw [run_update_row working, done, found]

/-- A second update answers and leaves the row that one patch for both makes. -/
theorem run_update_update
    (working : table.working = map.records) {key : Key} {row : Row shape Key}
    (found : map.find? key = some row) {first second : Patch} (firstSuits : first.Suits shape)
    (secondSuits : second.Suits shape) :
    Running.run ((onTable catalog shape mapper config).update (toValue key) second)
        (Running.run ((onTable catalog shape mapper config).update (toValue key) first) table).2 =
      (.ok (mapper.ofRecord ((row.patch (first.overriddenBy second)).record.prune .empty)),
        (table.changeTo (map.patch key first) config.autoCommit).changeTo
          (map.patch key (first.overriddenBy second)) config.autoCommit) := by
  have patched : (map.patch key first).find? key = some (row.patch first) := by
    rw [RowMap.find?_patch, if_pos rfl, found, Option.map_some]
  rw [run_update_of_found working found firstSuits,
    run_update_of_found (table.working_changeTo _ _) patched secondSuits,
    Row.patch_patch secondSuits, RowMap.patch_patch map secondSuits]

/--
Two updates of a row that is there answer and leave the rows that one update
with both patches does, where the second patch counts on a field of both.  So a
repeated update changes no row, and updates of different fields leave the same
rows in either order.
-/
theorem updates_compose
    (catalog : Catalog) (mapper : Mapper Dto) (config : ServiceConfig)
    (working : table.working = map.records) {key : Key} (stored : key ∈ map.keys)
    {first second : Patch} (firstSuits : first.Suits shape) (secondSuits : second.Suits shape) :
    let update (patch : Patch) :=
      Running.run ((onTable catalog shape mapper config).update (toValue key) patch)
    let twice := update second (update first table).2
    let once := update (first.overriddenBy second) table
    (∃ shown, (update first table).1 = .ok shown) ∧
      (∃ shown, twice.1 = .ok shown ∧ once.1 = .ok shown) ∧
      twice.2.working = once.2.working ∧
      (update first (update first table).2).2.working = (update first table).2.working ∧
      (first.Apart second shape →
        twice.2.working = (update first (update second table).2).2.working) := by
  intro update twice once
  obtain ⟨row, found⟩ := map.exists_find?_iff.2 stored
  have ranOnce {patch : Patch} (suits : patch.Suits shape) : update patch table = _ :=
    run_update_of_found working found suits
  have ranTwice {patch other : Patch} (suits : patch.Suits shape)
      (otherSuits : other.Suits shape) :
      update other (update patch table).2 = _ :=
    run_update_update working found suits otherSuits
  have rows {patch : Patch} (suits : patch.Suits shape) :
      (update patch table).2.working = (map.patch key patch).records := by
    rw [ranOnce suits, Table.working_changeTo]
  have rowsTwice {patch other : Patch} (suits : patch.Suits shape)
      (otherSuits : other.Suits shape) :
      (update other (update patch table).2).2.working =
        (map.patch key (patch.overriddenBy other)).records := by
    rw [ranTwice suits otherSuits, Table.working_changeTo]
  have bothSuit := firstSuits.overriddenBy secondSuits
  refine ⟨⟨_, congrArg Prod.fst (ranOnce firstSuits)⟩,
    ⟨_, congrArg Prod.fst (ranTwice firstSuits secondSuits),
      congrArg Prod.fst (ranOnce bothSuit)⟩,
    (rowsTwice firstSuits secondSuits).trans (rows bothSuit).symm, ?again, fun apart => ?swapped⟩
  case again =>
    rw [rowsTwice firstSuits firstSuits, rows firstSuits,
      map.patch_congr (Patch.bound?_overriddenBy_self firstSuits)]
  case swapped =>
    rw [rowsTwice secondSuits firstSuits]
    refine (rowsTwice firstSuits secondSuits).trans ?_
    rw [map.patch_congr (Patch.bound?_overriddenBy_comm firstSuits secondSuits apart)]

end Service

namespace Sample

/-- Renames an item and cuts it off its parent. -/
def cutting : Patch := .ofList [("name", .text "needle"), ("parent_id", .null)]

/-- Renames an item; the entry for the key is without effect. -/
def relabeling : Patch := .ofList [("id", .int 7), ("name", .text "cone")]

/-- Moves an item to another parent. -/
def grafting : Patch := .ofList [("id", .int 8), ("parent_id", .int 2)]

theorem apart_relabeling_grafting : relabeling.Apart grafting treeItemShape := by
  intro name notKey
  have other : name ≠ "id" := notKey
  by_cases here : name = "name"
  · exact Or.inr (by simp [grafting, Patch.ofList, Patch.get?_insert, here])
  · exact Or.inl (by simp [relabeling, Patch.ofList, Patch.get?_insert, here, other])

end Sample

/-- A leaf is cut and renamed, keeping the parent that was loaded with it; then it is moved. -/
theorem Service.updates_compose_grove :
    let update (patch : Patch) :=
      Running.run ((onTable Sample.catalog Sample.treeItemShape Mapper.identity ⟨false⟩).update
        (.int 1) patch)
    let table : Table := ⟨[], Sample.grove.records, 1⟩
    let twice := update Sample.relabeling (update Sample.cutting table).2
    let once := update (Sample.cutting.overriddenBy Sample.relabeling) table
    (∃ shown, twice.1 = .ok shown ∧ once.1 = .ok shown) ∧
      twice.2.working = once.2.working ∧
      (update Sample.grafting (update Sample.relabeling table).2).2.working =
        (update Sample.relabeling (update Sample.grafting table).2).2.working ∧
      once.2.working.map (fun item => (item.scalar? "name", item.scalar? "parent_id")) =
        [(some (.text "cone"), some .null), (some (.text "seed"), some .null)] ∧
      once.2.working.map (fun item => (item.related "parent").length) = [1, 0] := by
  intro update table twice once
  have stored : (1 : Int64) ∈ Sample.grove.keys := List.mem_cons_self
  have cutting : Sample.cutting.Suits Sample.treeItemShape := ⟨_, rfl⟩
  have relabeling : Sample.relabeling.Suits Sample.treeItemShape := ⟨_, rfl⟩
  have grafting : Sample.grafting.Suits Sample.treeItemShape := ⟨_, rfl⟩
  have working : table.working = Sample.grove.records := rfl
  obtain ⟨-, answers, rows, -⟩ := Service.updates_compose Sample.catalog Mapper.identity
    ⟨false⟩ working stored cutting relabeling
  obtain ⟨-, -, -, -, swapped⟩ := Service.updates_compose Sample.catalog Mapper.identity
    ⟨false⟩ working stored relabeling grafting
  exact ⟨answers, rows, swapped Sample.apart_relabeling_grafting, rfl, rfl⟩

end Updates

/-! ## Outcomes -/

section Outcomes

variable {shape : Shape} {Key : Type} [ToValue Key]

/-- A record can be written over the first of some rows with its key. -/
theorem Table.exists_overwrite_eq_ok
    [RecordKey Key] {rows : List (Row shape Key)} {key : Key}
    (present : key ∈ rows.map Row.key) {record : Record} (fits : record.Fits shape)
    (keyed : shape.keyOf record = toValue key) :
    ∃ changed, overwrite shape record (rows.map Row.record) = .ok changed := by
  induction rows with
  | nil => cases present
  | cons first rest ih =>
      rw [List.map_cons, overwrite, keyed]
      split
      · -- The rows behind the first one with the key are left as they are.
        exact ⟨_, by rw [copyScalars_eq_ok fits first.fits]; rfl⟩
      · rename_i other
        have inRest : key ∈ rest.map Row.key := by
          rcases List.mem_cons.1 present with rfl | inRest
          · exact absurd ((first.keyOf_beq_iff first.key).2 rfl) other
          · exact inRest
        obtain ⟨changed, done⟩ := ih inRest
        exact ⟨first.record :: changed, by rw [done]; rfl⟩

namespace Service

variable {Dto : Type} {catalog : Catalog} {mapper : Mapper Dto} {config : ServiceConfig}
variable {table : Table} {rows : List (Row shape Key)} {key : Key} {patch : Patch}

/-- What an update answers, by the patch and the keys of the rows. -/
inductive UpdateOutcome (rows : List (Row shape Key)) (key : Key) (patch : Patch) :
    Except ServiceError Dto → Prop where
  | unfit {fault : FieldError} (refused : patch.prepare shape = .error fault) :
      UpdateOutcome rows key patch (.error (.field fault))
  | missing (suits : patch.Suits shape) (absent : key ∉ rows.map Row.key) :
      UpdateOutcome rows key patch (.error (.notFound shape.name (toValue key).display))
  | updated (suits : patch.Suits shape) (present : key ∈ rows.map Row.key) (shown : Dto) :
      UpdateOutcome rows key patch (.ok shown)

namespace UpdateOutcome

variable {answer : Except ServiceError Dto}

theorem exists_ok_iff (outcome : UpdateOutcome rows key patch answer) :
    (∃ shown, answer = .ok shown) ↔ patch.Suits shape ∧ key ∈ rows.map Row.key := by
  cases outcome with
  | unfit refused => simp [Patch.not_suits_of_refused refused]
  | missing suits absent => simp [absent]
  | updated suits present shown => simp [suits, present]

theorem eq_error_iff (outcome : UpdateOutcome rows key patch answer) {e : ServiceError} :
    answer = .error e ↔
      (∃ fault, patch.prepare shape = .error fault ∧ e = .field fault) ∨
        patch.Suits shape ∧ key ∉ rows.map Row.key ∧
          e = .notFound shape.name (toValue key).display := by
  have sound (suits : patch.Suits shape) :
      ¬∃ fault, patch.prepare shape = .error fault ∧ e = .field fault :=
    fun ⟨_, refused, _⟩ => Patch.not_suits_of_refused refused suits
  cases outcome with
  | unfit refused => simp [refused, Patch.not_suits_of_refused refused, eq_comm]
  | missing suits absent =>
      simp only [sound suits, suits, absent, false_or, true_and, not_false_eq_true,
        Except.error.injEq]
      exact eq_comm
  | updated suits present shown => simp [sound suits, present]

/-- Where an entry of a patch is reported, it is at fault. -/
theorem exists_entryFault
    (outcome : UpdateOutcome rows key patch answer) {fault : FieldError}
    (answered : answer = .error (.field fault)) :
    ∃ name value, Patch.EntryFault shape name value fault := by
  rcases outcome.eq_error_iff.1 answered with ⟨_, refused, ⟨⟩⟩ | ⟨_, _, ⟨⟩⟩
  obtain ⟨name, value, -, wrong, -⟩ := Patch.prepare_eq_entryFault_iff.1 refused
  exact ⟨name, value, wrong⟩

end UpdateOutcome

variable [RecordKey Key] [DecidableEq Key]

/-- The first row with a key is updated by a patch that suits the shape. -/
theorem exists_run_update_eq_ok
    (working : table.working = rows.map Row.record) {row : Row shape Key}
    (found : rows.find? (fun row => row.key = key) = some row) (suits : patch.Suits shape) :
    ∃ shown after,
      Running.run ((onTable catalog shape mapper config).update (toValue key) patch) table =
        (.ok shown, after) := by
  obtain ⟨prepared, done⟩ := suits
  have loaded := Table.head?_selected_rows working key
  rw [found] at loaded
  obtain ⟨isRow, rfl⟩ := Row.mem_of_find? found
  have patched := Patch.patched_eq_rebind done (row.fits.prune .empty)
  rw [Record.rebind_prune] at patched
  obtain ⟨changed, written⟩ := Table.exists_overwrite_eq_ok (List.mem_map_of_mem isRow)
    ((row.patch patch).fits.prune .empty) ((shape.keyOf_prune _ _).trans (row.patch patch).keyed)
  have updated : table.update shape ((row.patch patch).record.prune .empty) =
      .ok (table.change changed) := by
    rw [Table.update, working, written]
    rfl
  exact ⟨_, _, run_update_of_ok done loaded patched updated⟩

/-- An update of stored rows is refused for the patch, is refused for the key, or answers. -/
theorem run_update_outcome
    (catalog : Catalog) (mapper : Mapper Dto) (config : ServiceConfig)
    (working : table.working = rows.map Row.record) (key : Key) (patch : Patch) :
    UpdateOutcome rows key patch
      (Running.run ((onTable catalog shape mapper config).update (toValue key) patch) table).1 := by
  cases done : patch.prepare shape with
  | error fault =>
      rw [run_update_of_refused done]
      exact .unfit done
  | ok prepared =>
      have suits : patch.Suits shape := ⟨prepared, done⟩
      have loaded := Table.head?_selected_rows working key
      cases found : rows.find? fun row => row.key = key with
      | none =>
          rw [found] at loaded
          rw [run_update_of_absent done loaded]
          exact .missing suits (by simpa using found)
      | some row =>
          obtain ⟨shown, after, ran⟩ := exists_run_update_eq_ok working found suits
          rw [ran]
          obtain ⟨isRow, rfl⟩ := Row.mem_of_find? found
          exact .updated suits (List.mem_map_of_mem isRow) shown

/--
Over stored rows, whatever their keys, an update answers when the patch suits
the shape and some row has the key.  Otherwise it is refused with what is wrong
with the patch, or else since no row has the key.  No record rejects a value or
is of another type, and the table has the row and can write it.
-/
theorem update_outcomes
    (catalog : Catalog) (mapper : Mapper Dto) (config : ServiceConfig)
    (working : table.working = rows.map Row.record) (key : Key) (patch : Patch) :
    let answer :=
      (Running.run ((onTable catalog shape mapper config).update (toValue key) patch) table).1
    ((∃ shown, answer = .ok shown) ↔ patch.Suits shape ∧ key ∈ rows.map Row.key) ∧
      (∀ e, answer = .error e ↔
        (∃ fault, patch.prepare shape = .error fault ∧ e = .field fault) ∨
          patch.Suits shape ∧ key ∉ rows.map Row.key ∧
            e = .notFound shape.name (toValue key).display) ∧
      (∀ field, answer ≠ .error (.field (.rejected field))) ∧
      (∀ expected found, answer ≠ .error (.field (.shapeMismatch expected found))) ∧
      ∀ failure, answer ≠ .error (.store failure) := by
  intro answer
  have outcome : UpdateOutcome rows key patch answer :=
    run_update_outcome catalog mapper config working key patch
  refine ⟨outcome.exists_ok_iff, fun e => outcome.eq_error_iff, fun field answered => ?_,
    fun expected found answered => ?_, fun failure answered => ?_⟩
  · obtain ⟨_, _, ⟨⟩⟩ := outcome.exists_entryFault answered
  · obtain ⟨_, _, ⟨⟩⟩ := outcome.exists_entryFault answered
  · rcases outcome.eq_error_iff.1 answered with ⟨_, _, ⟨⟩⟩ | ⟨_, _, ⟨⟩⟩

end Service

namespace Sample

/-- Tree items of which two have one key. -/
def thicket : List (Row treeItemShape Int64) :=
  [treeRow 2 "seed", treeRow 1 "twig", childRow 1 "leaf" 2]

/-- Renames an item and cuts it off its parent; the entry for the key is without effect. -/
def wilting : Patch :=
  .ofList [("name", .text "straw"), ("parent_id", .null), ("id", .text "none")]

/-- A patch for a relation, which no patch may write. -/
def transplanting : Patch := .ofList [("parent", .int 2)]

end Sample

/-- One of two items under a key is updated; an absent item and a relation are refused. -/
theorem Service.update_outcomes_thicket :
    let update (key : Int64) (patch : Patch) :=
      (Running.run ((onTable Sample.catalog Sample.treeItemShape Mapper.identity ⟨true⟩).update
        (toValue key) patch) ⟨[], Sample.thicket.map Row.record, 3⟩).1
    (∃ shown, update 1 Sample.wilting = .ok shown) ∧
      (∀ failure, update 1 Sample.wilting ≠ .error (.store failure)) ∧
      update 4 Sample.wilting = .error (.notFound "tree_item" "4") ∧
      update 4 Sample.transplanting = .error (.field (.notMutable "parent")) := by
  intro update
  have working : (Table.mk [] (Sample.thicket.map Row.record) 3).working =
      Sample.thicket.map Row.record := rfl
  have outcomes := update_outcomes Sample.catalog Mapper.identity ⟨true⟩ working
  have wilting : Sample.wilting.Suits Sample.treeItemShape := ⟨_, rfl⟩
  refine ⟨?_, (outcomes 1 Sample.wilting).2.2.2.2, ?_, ?_⟩
  · exact (outcomes 1 Sample.wilting).1.2 ⟨wilting, by decide⟩
  · exact ((outcomes 4 Sample.wilting).2.1 _).2 (.inr ⟨wilting, by decide, rfl⟩)
  · exact ((outcomes 4 Sample.transplanting).2.1 _).2 (.inl ⟨_, rfl, rfl⟩)

end Outcomes

/-! ## Writes under different keys -/

variable {shape : Shape} {Key : Type} [ToValue Key] {Dto : Type} {mapper : Mapper Dto}

/-- A call on a service that changes the row under one key. -/
inductive Write (shape : Shape) (Key : Type) [ToValue Key] (mapper : Mapper Dto) where
  | create (dto : Dto) (row : Row shape Key) (made : mapper.toRecord dto = row.record)
  | update (key : Key) (patch : Patch)
  | delete (key : Key)

namespace Write

def key : Write shape Key mapper → Key
  | .create _ row _ => row.key
  | .update key _ => key
  | .delete key => key

/-- The write adds a row. -/
def Adds : Write shape Key mapper → Prop
  | .create .. => True
  | .update .. => False
  | .delete _ => False

/-- The call on a service; what is removed is not shown. -/
def call (service : Service Table TableQuery Dto) :
    Write shape Key mapper → ServiceCall Table (Option Dto)
  | .create dto _ _ => some <$> service.create dto
  | .update key patch => some <$> service.update (toValue key) patch
  | .delete key => (fun _ => none) <$> service.delete (toValue key)

/-- The answer to a write by what is found under its key. -/
def verdict : Write shape Key mapper → Option (Row shape Key) → Except ServiceError (Option Dto)
  | .create _ row _, none => .ok (some (mapper.ofRecord row.record))
  | .create _ row _, some _ => .error (.store (Table.duplicateKey shape (toValue row.key)))
  | .update key patch, found =>
      match patch.prepare shape, found with
      | .error e, _ => .error (.field e)
      | .ok _, none => .error (.notFound shape.name (toValue key).display)
      | .ok _, some row => .ok (some (mapper.ofRecord ((row.patch patch).record.prune .empty)))
  | .delete _, _ => .ok none

variable [DecidableEq Key]

/-- The rows after a write that is not refused. -/
def edit : Write shape Key mapper → RowMap shape Key → RowMap shape Key
  | .create _ row _, map => map.insertNew row
  | .update key patch, map => map.patch key patch
  | .delete key, map => map.erase key

/-- A write finds what it would find without a write under another key. -/
theorem find?_edit
    (write : Write shape Key mapper) {key : Key} (apart : write.key ≠ key)
    (map : RowMap shape Key) : (write.edit map).find? key = map.find? key := by
  cases write with
  | create dto row made => exact map.find?_insertNew row apart
  | update own patch => exact (map.find?_patch own key patch).trans (if_neg apart.symm)
  | delete own => exact map.find?_erase apart

theorem edit_comm
    {first second : Write shape Key mapper} (apart : first.key ≠ second.key)
    (oneAdds : ¬(first.Adds ∧ second.Adds)) (map : RowMap shape Key) :
    second.edit (first.edit map) = first.edit (second.edit map) := by
  cases first with
  | create dto row made =>
      cases second with
      | create => exact absurd ⟨trivial, trivial⟩ oneAdds
      | update key patch => exact map.patch_insertNew row apart patch
      | delete key => exact map.erase_insertNew row apart
  | update key patch =>
      cases second with
      | create dto row made => exact (map.patch_insertNew row apart.symm patch).symm
      | update other second => exact map.patch_comm apart patch second
      | delete other => exact map.erase_patch patch
  | delete key =>
      cases second with
      | create dto row made => exact (map.erase_insertNew row apart.symm).symm
      | update other patch => exact (map.erase_patch patch).symm
      | delete other => exact map.erase_comm

variable [RecordKey Key] {catalog : Catalog} {config : ServiceConfig} {table : Table}
variable {map : RowMap shape Key}

/-- A write answers its verdict and, unless that is a refusal, edits the rows. -/
theorem run_call (working : table.working = map.records) (write : Write shape Key mapper) :
    Running.run (write.call (.onTable catalog shape mapper config)) table =
      match write.verdict (map.find? write.key) with
      | .error e => (.error e, table)
      | .ok shown => (.ok shown, table.changeTo (write.edit map) config.autoCommit) := by
  cases write with
  | create dto row made =>
      rw [call, Running.run_map, Service.run_create_row working made]
      simp only [verdict, Write.key, edit]
      cases found : map.find? row.key with
      | none =>
          have fresh := map.find?_eq_none_iff.1 found
          rw [dif_pos fresh, RowMap.insertNew, dif_pos fresh]
          rfl
      | some kept =>
          have taken := map.exists_find?_iff.1 ⟨kept, found⟩
          rw [dif_neg (not_not.2 taken)]
          rfl
  | update key patch =>
      rw [call, Running.run_map, Service.run_update_row working]
      simp only [verdict, Write.key]
      cases patch.prepare shape with
      | error e => rfl
      | ok prepared => cases map.find? key <;> rfl
  | delete key =>
      rw [call, Running.run_map, Service.run_delete_row working]
      rfl

/--
Writes under different keys, at most one of which adds a row, are answered alike
in either order, by refusals too, and leave one table: the same working rows,
committed rows and number of pending changes.
-/
theorem writes_commute
    (catalog : Catalog) (config : ServiceConfig) (working : table.working = map.records)
    {first second : Write shape Key mapper} (apart : first.key ≠ second.key)
    (oneAdds : ¬(first.Adds ∧ second.Adds)) :
    let run (write : Write shape Key mapper) :=
      Running.run (write.call (.onTable catalog shape mapper config))
    (run first (run second table).2).1 = (run first table).1 ∧
      (run second (run first table).2).1 = (run second table).1 ∧
      (run second (run first table).2).2 = (run first (run second table).2).2 := by
  intro run
  have before (write : Write shape Key mapper) : run write table = _ := run_call working write
  have after (write earlier : Write shape Key mapper) :
      run write (table.changeTo (earlier.edit map) config.autoCommit) = _ :=
    run_call (table.working_changeTo _ _) write
  cases firstVerdict : first.verdict (map.find? first.key) with
  | error e =>
      cases secondVerdict : second.verdict (map.find? second.key) with
      | error fault =>
          simp only [before, firstVerdict, secondVerdict, and_self]
      | ok shown =>
          simp only [before, after, find?_edit second apart.symm, firstVerdict, secondVerdict,
            and_self]
  | ok shown =>
      cases secondVerdict : second.verdict (map.find? second.key) with
      | error fault =>
          simp only [before, after, find?_edit first apart, firstVerdict, secondVerdict,
            and_self]
      | ok other =>
          simp only [before, after, find?_edit first apart, find?_edit second apart.symm,
            firstVerdict, secondVerdict, edit_comm apart oneAdds, true_and]
          exact table.changeTo_changeTo _ _ _ _

end Write

namespace Sample

def people : RowMap personShape Int64 where
  rows := [personRow 1 "Ada" 36, personRow 2 "Bea" 40]
  distinct := by decide

/-- A person is added by her summary. -/
def arrival : Write personShape Int64 PersonSummary.mapper :=
  .create ⟨3, "Cy", 20, none, none⟩ (personRow 3 "Cy" 20) rfl

def aging : Write personShape Int64 PersonSummary.mapper :=
  .update 1 (.ofList [("age", .int 37)])

/-- An update with a patch at fault. -/
def misspelt : Write personShape Int64 PersonSummary.mapper :=
  .update 2 (.ofList [("agee", .int 41)])

/-- A person is removed who is not there. -/
def farewell : Write personShape Int64 PersonSummary.mapper := .delete 9

end Sample

/--
One person is added and another one patched, and a refused patch stands beside
a removal without a row, in either order.
-/
theorem Write.writes_commute_people :
    let run (autoCommit : Bool)
        (write : Write Sample.personShape Int64 Sample.PersonSummary.mapper) :=
      Running.run (write.call (.onTable Sample.catalog Sample.personShape
        Sample.PersonSummary.mapper ⟨autoCommit⟩))
    let table : Table := ⟨[], Sample.people.records, 1⟩
    ((run false Sample.aging (run false Sample.arrival table).2).2 =
        (run false Sample.arrival (run false Sample.aging table).2).2 ∧
      (run false Sample.aging (run false Sample.arrival table).2).2.pending = 3 ∧
      (run false Sample.aging (run false Sample.arrival table).2).1 =
        .ok (some ⟨1, "Ada", 37, none, none⟩)) ∧
      (run true Sample.farewell (run true Sample.misspelt table).2).2 =
        (run true Sample.misspelt (run true Sample.farewell table).2).2 ∧
      (run true Sample.misspelt (run true Sample.farewell table).2).1 =
        (run true Sample.misspelt table).1 ∧
      (run true Sample.misspelt table).1 = .error (.field (.unknown "agee" "person")) := by
  intro run table
  have working : table.working = Sample.people.records := rfl
  obtain ⟨-, aged, tables⟩ := Write.writes_commute Sample.catalog ⟨false⟩ working
    (by decide : Sample.arrival.key ≠ Sample.aging.key) (fun both => both.2)
  obtain ⟨refused, -, tables'⟩ := Write.writes_commute Sample.catalog ⟨true⟩ working
    (by decide : Sample.misspelt.key ≠ Sample.farewell.key) (fun both => both.1)
  exact ⟨⟨tables, rfl, aged⟩, tables', refused, rfl⟩

end EntityAccess
