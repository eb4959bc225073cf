import EntityAccess.Proofs.Filter.Keys
import EntityAccess.Proofs.Patch.Effects
import Mathlib.Data.List.Nodup

/-!
# Rows of a table

Stored records under keys of their type, in the order in which they were added.
A table that works on such rows looks them up, adds to them, patches them in their
places and removes them by key as a map does.  A change under one key is not seen
under another; under one key, patches add up to one patch.
-/

namespace EntityAccess

/-- A record that can be stored, with its key. -/
structure Row (shape : Shape) (Key : Type) [ToValue Key] where
  key : Key
  record : Record
  fits : record.Fits shape
  keyed : shape.keyOf record = toValue key

namespace Row

variable {shape : Shape} {Key : Type} [ToValue Key]

/-- The row with the values of a patch. -/
def patch (patch : Patch) (row : Row shape Key) : Row shape Key where
  key := row.key
  record := row.record.rebind (patch.bound? shape)
  fits := Patch.fits_rebind row.fits patch
  keyed := (Patch.keyOf_rebind shape patch row.record).trans row.keyed

theorem keyOf_beq_iff [RecordKey Key] (row : Row shape Key) (key : Key) :
    (shape.keyOf row.record == toValue key) = true ↔ row.key = key := by
  rw [row.keyed]
  exact RecordKey.same_iff row.key key

theorem mem_of_find?
    [DecidableEq Key] {rows : List (Row shape Key)} {key : Key} {row : Row shape Key}
    (found : rows.find? (fun row => row.key = key) = some row) : row ∈ rows ∧ row.key = key :=
  ⟨List.mem_of_find?_eq_some found, by simpa using List.find?_some found⟩

end Row

/-- A map from keys to records that keeps its rows in the order of their insertion. -/
structure RowMap (shape : Shape) (Key : Type) [ToValue Key] where
  rows : List (Row shape Key)
  distinct : (rows.map Row.key).Nodup

namespace RowMap

variable {shape : Shape} {Key : Type} [ToValue Key] [DecidableEq Key]

def keys (map : RowMap shape Key) : List Key := map.rows.map Row.key

def records (map : RowMap shape Key) : List Record := map.rows.map Row.record

def find? (map : RowMap shape Key) (key : Key) : Option (Row shape Key) :=
  map.rows.find? fun row => row.key = key

/-- The rows under some keys, in their order in the map. -/
def among (map : RowMap shape Key) (keys : List Key) : List (Row shape Key) :=
  map.rows.filter fun row => row.key ∈ keys

/-- The map with a row under a new key at the end. -/
def append (map : RowMap shape Key) (row : Row shape Key) (fresh : row.key ∉ map.keys) :
    RowMap shape Key where
  rows := map.rows ++ [row]
  distinct := by
    rw [List.map_append]
    refine List.nodup_append.2 ⟨map.distinct, by simp, fun key isKey other isOwn same => ?_⟩
    exact fresh (List.mem_singleton.1 isOwn ▸ same ▸ isKey)

/-- The map with the row under a key patched in its place. -/
def patch (map : RowMap shape Key) (key : Key) (patch : Patch) : RowMap shape Key where
  rows := map.rows.map fun row => if row.key = key then row.patch patch else row
  distinct := by
    have keys : (map.rows.map fun row => if row.key = key then row.patch patch else row).map
        Row.key = map.rows.map Row.key := by
      rw [List.map_map]
      refine List.map_congr_left fun row _ => ?_
      rw [Function.comp_apply]
      split <;> rfl
    exact keys ▸ map.distinct

/-- The map without the row under a key. -/
def erase (map : RowMap shape Key) (key : Key) : RowMap shape Key where
  rows := map.rows.filter fun row => row.key ≠ key
  distinct := map.distinct.sublist (List.filter_sublist.map Row.key)

theorem mem_of_find?
    {map : RowMap shape Key} {key : Key} {row : Row shape Key} (found : map.find? key = some row) :
    row ∈ map.rows ∧ row.key = key :=
  Row.mem_of_find? found

section Selecting

variable [RecordKey Key]

/-- The predicate of some keys selects the rows under them. -/
theorem filter_keyIn (map : RowMap shape Key) (keys : List Key) :
    map.records.filter (shape.keyIn (keys.map toValue)).matcher.test =
      (map.among keys).map Row.record := by
  rw [records, List.filter_map, among]
  refine congrArg _ (List.filter_congr fun row _ => ?_)
  rw [Bool.eq_iff_iff, decide_eq_true_iff]
  exact Shape.test_keyIn row.keyed keys

/-- Keeping what the predicate of a key does not select removes the row under it. -/
theorem filter_not_keyIs (map : RowMap shape Key) (key : Key) :
    (map.records.filter fun record => !(shape.keyIs (toValue key)).matcher.test record) =
      (map.erase key).records := by
  rw [records, List.filter_map, records, erase]
  refine congrArg _ (List.filter_congr fun row _ => ?_)
  rw [Bool.eq_iff_iff, decide_eq_true_iff, Function.comp_apply, Bool.not_eq_true', ne_eq,
    ← Shape.test_keyIs row.keyed key, Bool.not_eq_true]

end Selecting

end RowMap

namespace Table

section Copying

variable {shape : Shape} {source target : Record}

/-- Scalars of a stored record can be copied one by one to a record of the same layout. -/
theorem copyScalars_reads
    (fits : source.Fits shape) (fields : List Field) (layout : target.layout = source.layout) :
    ∃ written, copyScalars shape source fields target = .ok written ∧
      written.type = target.type ∧ written.layout = target.layout ∧
      written.relations = target.relations ∧
      ∀ name, written.scalar? name =
        if name ∈ fields.map Field.name then source.scalar? name else target.scalar? name := by
  induction fields generalizing target with
  | nil => exact ⟨target, rfl, rfl, rfl, rfl, fun _ => rfl⟩
  | cons field rest ih =>
      rw [copyScalars]
      cases reads : source.scalar? field.name with
      | none =>
          have missing : target.scalar? field.name = none :=
            Record.scalar?_eq_none_of_layout layout reads
          obtain ⟨written, done, type, laidOut, relations, reads'⟩ := ih layout
          refine ⟨written, done, type, laidOut, relations, fun name => ?_⟩
          rw [reads', List.map_cons]
          by_cases here : name = field.name
          · subst here
            simp [reads, missing]
          · simp [here]
      | some value =>
          have stored : target.stored? field.name value = some value := by
            rw [Record.stored?, Record.slot?, layout]
            exact fits.stored?_of_scalar? reads
          have takes : (target.set? field.name value).isSome = true := by
            rw [Record.isSome_set?, stored]
            rfl
          obtain ⟨middle, set⟩ := Option.isSome_iff_exists.1 takes
          obtain ⟨written, done, type, laidOut, relations, reads'⟩ :=
            ih ((Record.layout_of_set? set).trans layout)
          simp only [set]
          refine ⟨written, done, type.trans (Record.type_of_set? set),
            laidOut.trans (Record.layout_of_set? set),
            relations.trans (Record.relations_of_set? set), fun name => ?_⟩
          rw [reads', List.map_cons, Record.scalar?_after_set? set]
          by_cases here : name = field.name
          · subst here
            simp [reads, stored]
          · simp [here]

/-- Copying all scalars leaves the relations and takes over everything else. -/
theorem copyScalars_eq_ok
    (sourceFits : source.Fits shape) (targetFits : target.Fits shape) :
    copyScalars shape source shape.scalars target =
      .ok (.mk source.type source.scalars target.relations) := by
  have layout : target.layout = source.layout := targetFits.layout.trans sourceFits.layout.symm
  obtain ⟨written, done, type, laidOut, relations, reads⟩ :=
    copyScalars_reads sourceFits shape.scalars layout
  rw [done]
  refine congrArg Except.ok (Record.eq_of_reads ?_ (laidOut.trans layout) ?_ relations ?_)
  · exact type.trans (targetFits.type.trans sourceFits.type.symm)
  · exact laidOut ▸ targetFits.distinct
  · intro name
    rw [reads]
    change _ = source.scalar? name
    split
    · rfl
    · rename_i other
      rw [targetFits.scalar?_eq_none other, sourceFits.scalar?_eq_none other]

end Copying

section Changing

variable {shape : Shape} {Key : Type} [ToValue Key] [RecordKey Key]
variable {table : Table} {map : RowMap shape Key}

def duplicateKey (shape : Shape) (key : Value) : StoreError :=
  .ofDetail ("duplicate key " ++ key.display ++ " in `" ++ shape.name ++ "`")

/-- A row under a key that is taken is refused. -/
theorem add_of_mem
    (working : table.working = map.records) {row : Row shape Key} (taken : row.key ∈ map.keys) :
    table.add shape row.record = .error (duplicateKey shape (toValue row.key)) := by
  obtain ⟨kept, isKept, same⟩ := List.mem_map.1 taken
  have found : (table.working.any fun kept =>
      shape.keyOf kept == shape.keyOf row.record) = true := by
    rw [working, row.keyed]
    exact List.any_eq_true.2
      ⟨_, List.mem_map_of_mem isKept, (kept.keyOf_beq_iff row.key).2 same⟩
  rw [add]
  simp only [found, if_true]
  rw [row.keyed, duplicateKey]

/-- A row under a new key is added at the end. -/
theorem add_of_not_mem
    (working : table.working = map.records) {row : Row shape Key} (fresh : row.key ∉ map.keys) :
    table.add shape row.record = .ok (table.change (map.append row fresh).records) := by
  have missing : (table.working.any fun kept =>
      shape.keyOf kept == shape.keyOf row.record) = false := by
    rw [working, row.keyed, ← Bool.not_eq_true, List.any_eq_true]
    rintro ⟨_, isKept, same⟩
    obtain ⟨kept, isRow, rfl⟩ := List.mem_map.1 isKept
    exact fresh (List.mem_map.2 ⟨kept, isRow, (kept.keyOf_beq_iff row.key).1 same⟩)
  rw [add]
  simp only [missing, Bool.false_eq_true, if_false]
  rw [working, RowMap.append, RowMap.records, RowMap.records, List.map_append, List.map_singleton]

variable [DecidableEq Key]

/-- Scalars are written over the one row with their key, and every other row stays. -/
theorem overwrite_eq_ok
    {rows : List (Row shape Key)} (distinct : (rows.map Row.key).Nodup)
    {row : Row shape Key} (isRow : row ∈ rows) {written record : Record}
    (keyed : shape.keyOf written = toValue row.key)
    (copied : copyScalars shape written shape.scalars row.record = .ok record) :
    overwrite shape written (rows.map Row.record) =
      .ok (rows.map fun other => if other.key = row.key then record else other.record) := by
  induction rows with
  | nil => cases isRow
  | cons first rest ih =>
      obtain ⟨fresh, distinctRest⟩ := List.nodup_cons.1 distinct
      rw [List.map_cons, overwrite, keyed, List.map_cons]
      by_cases here : first.key = row.key
      · have same : first = row := by
          rcases List.mem_cons.1 isRow with same | inRest
          · exact same.symm
          · exact absurd (List.mem_map.2 ⟨row, inRest, here.symm⟩) fresh
        have others : (rest.map fun other => if other.key = row.key then record else other.record) =
            rest.map Row.record := by
          refine List.map_congr_left fun other isOther => if_neg fun same => ?_
          exact fresh (List.mem_map.2 ⟨other, isOther, same.trans here.symm⟩)
        subst same
        rw [if_pos ((first.keyOf_beq_iff first.key).2 rfl), copied, if_pos rfl, others]
        rfl
      · have inRest : row ∈ rest := by
          rcases List.mem_cons.1 isRow with same | inRest
          · exact absurd (same ▸ rfl) here
          · exact inRest
        rw [if_neg (fun same => here ((first.keyOf_beq_iff row.key).1 same)),
          ih distinctRest inRest, if_neg here]
        rfl

/-- A patched row, read without its relations, is written over the row in the table. -/
theorem update_patched
    (working : table.working = map.records) {key : Key} {row : Row shape Key}
    (found : map.find? key = some row) (patch : Patch) (e : Expansion) :
    table.update shape ((row.patch patch).record.prune e) =
      .ok (table.change (map.patch key patch).records) := by
  obtain ⟨isRow, rfl⟩ := RowMap.mem_of_find? found
  have fits : ((row.patch patch).record.prune e).Fits shape := (row.patch patch).fits.prune e
  have keyed : shape.keyOf ((row.patch patch).record.prune e) = toValue row.key := by
    rw [Shape.keyOf_prune]
    exact (row.patch patch).keyed
  have copied := copyScalars_eq_ok fits row.fits
  rw [update, working, RowMap.records, overwrite_eq_ok map.distinct isRow keyed copied]
  refine congrArg (fun working => Except.ok (table.change working)) ?_
  rw [RowMap.records, RowMap.patch, List.map_map]
  refine List.map_congr_left fun other isOther => ?_
  rw [Function.comp_apply]
  split
  · rename_i same
    obtain rfl : other = row := List.inj_on_of_nodup_map map.distinct isOther isRow same
    rw [Record.scalars_prune]
    cases other
    rfl
  · rfl

/-- Removing what the predicate of a key holds of removes its row. -/
theorem delete_keyIs (working : table.working = map.records) (key : Key) :
    table.delete (shape.keyIs (toValue key)) = table.change (map.erase key).records := by
  rw [delete, working]
  exact congrArg table.change (map.filter_not_keyIs key)

end Changing

end Table

/-! ## Rows of the samples -/

namespace Sample

def personRow (id : Int64) (name : String) (age : Int64) : Row personShape Int64 where
  key := id
  record := person id name age
  fits := fits_person id name age
  keyed := rfl

def cityRow (id : Uuid) (name : String) (population : Int64) : Row cityShape Uuid where
  key := id
  record := city id name population
  fits := fits_city id name population
  keyed := rfl

def treeRow (id : Int64) (name : String) : Row treeItemShape Int64 where
  key := id
  record := treeItem id name
  fits := fits_treeItem id name
  keyed := rfl

/-- The row of a tree item with a parent. -/
def childRow (id : Int64) (name : String) (parent : Int64) : Row treeItemShape Int64 where
  key := id
  record := withParent (treeItem id name) (treeItem parent "parent")
  fits := fits_withParent (fits_treeItem id name) _
  keyed := rfl

def grove : RowMap treeItemShape Int64 where
  rows := [childRow 1 "leaf" 9, treeRow 2 "seed"]
  distinct := by decide

end Sample

/-! ## Changes -/

variable {shape : Shape} {Key : Type} [ToValue Key]

namespace Row

@[simp]
theorem key_patch (patch : Patch) (row : Row shape Key) : (row.patch patch).key = row.key := rfl

/-- Patches that give the fields the same values are the same to a row. -/
theorem patch_congr
    {first second : Patch} (row : Row shape Key)
    (same : ∀ name, first.bound? shape name = second.bound? shape name) :
    row.patch first = row.patch second := by
  simp only [patch, funext same]

/-- Two patches one after the other are the first overridden by the second. -/
theorem patch_patch
    {second : Patch} (suits : second.Suits shape) (first : Patch) (row : Row shape Key) :
    (row.patch first).patch second = row.patch (first.overriddenBy second) := by
  simp only [patch, Record.rebind_rebind, funext (Patch.bound?_overriddenBy suits)]

end Row

namespace RowMap

theorem eq_of_rows {left right : RowMap shape Key} (same : left.rows = right.rows) :
    left = right := by
  cases left
  cases right
  cases same
  rfl

variable [DecidableEq Key] (map : RowMap shape Key) {key other : Key}

/-- The map with a row at the end, unless its key is taken. -/
def insertNew (row : Row shape Key) : RowMap shape Key :=
  if fresh : row.key ∉ map.keys then map.append row fresh else map

theorem exists_find?_iff : (∃ row, map.find? key = some row) ↔ key ∈ map.keys := by
  simp [find?, keys, ← Option.isSome_iff_exists]

theorem find?_eq_none_iff : map.find? key = none ↔ key ∉ map.keys := by
  rw [← exists_find?_iff, ← Option.isSome_iff_exists, Option.not_isSome_iff_eq_none]

theorem keyOf_patched (key : Key) (patch : Patch) (row : Row shape Key) :
    (if row.key = key then row.patch patch else row).key = row.key := by
  split <;> rfl

@[simp]
theorem keys_patch (key : Key) (patch : Patch) : (map.patch key patch).keys = map.keys := by
  simp only [keys, RowMap.patch, List.map_map, Function.comp_def, keyOf_patched]

/-- Only the row under its key is patched. -/
theorem find?_patch (key other : Key) (patch : Patch) :
    (map.patch key patch).find? other =
      if other = key then (map.find? key).map (Row.patch patch) else map.find? other := by
  have looked : (map.patch key patch).find? other =
      (map.find? other).map fun row => if row.key = key then row.patch patch else row := by
    simp only [find?, RowMap.patch, List.find?_map, Function.comp_def, keyOf_patched]
  rw [looked]
  cases found : map.find? other with
  | none =>
      split
      · rename_i same
        rw [← same, found]
        rfl
      · rfl
  | some row =>
      obtain ⟨-, rfl⟩ := mem_of_find? found
      split
      · rename_i same
        rw [← same, found, Option.map_some, Option.map_some, if_pos rfl]
      · rename_i elsewhere
        rw [Option.map_some, if_neg elsewhere]

theorem find?_insertNew (row : Row shape Key) (apart : row.key ≠ other) :
    (map.insertNew row).find? other = map.find? other := by
  unfold insertNew
  split
  · simp [find?, append, apart]
  · rfl

theorem find?_erase (apart : key ≠ other) : (map.erase key).find? other = map.find? other := by
  simp only [find?, erase, List.find?_filter]
  refine congrArg (map.rows.find? ·) (funext fun row => ?_)
  by_cases here : row.key = other
  · simp [here, apart.symm]
  · simp [here]

theorem patch_congr
    {first second : Patch} (same : ∀ name, first.bound? shape name = second.bound? shape name)
    (key : Key) : map.patch key first = map.patch key second := by
  simp only [RowMap.patch, fun row : Row shape Key => row.patch_congr same]

theorem patch_patch
    {second : Patch} (suits : second.Suits shape) (first : Patch) (key : Key) :
    (map.patch key first).patch key second = map.patch key (first.overriddenBy second) := by
  refine eq_of_rows ?_
  simp only [RowMap.patch, List.map_map]
  refine List.map_congr_left fun row _ => ?_
  rw [Function.comp_apply]
  split
  · rename_i here
    rw [if_pos (Row.key_patch first row ▸ here)]
    exact row.patch_patch suits first
  · rfl

theorem patch_insertNew (row : Row shape Key) (apart : row.key ≠ key) (patch : Patch) :
    (map.insertNew row).patch key patch = (map.patch key patch).insertNew row := by
  unfold insertNew
  simp only [keys_patch]
  split
  · refine eq_of_rows ?_
    simp [RowMap.patch, append, apart]
  · rfl

theorem mem_keys_erase_iff (apart : key ≠ other) :
    other ∈ (map.erase key).keys ↔ other ∈ map.keys := by
  rw [← exists_find?_iff, ← exists_find?_iff, find?_erase map apart]

theorem erase_insertNew (row : Row shape Key) (apart : row.key ≠ key) :
    (map.insertNew row).erase key = (map.erase key).insertNew row := by
  unfold insertNew
  simp only [map.mem_keys_erase_iff apart.symm]
  split
  · refine eq_of_rows ?_
    simp [erase, append, apart]
  · rfl

theorem patch_comm (apart : key ≠ other) (first second : Patch) :
    (map.patch key first).patch other second = (map.patch other second).patch key first := by
  refine eq_of_rows ?_
  simp only [RowMap.patch, List.map_map]
  refine List.map_congr_left fun row _ => ?_
  rw [Function.comp_apply, Function.comp_apply]
  by_cases here : row.key = key
  · simp [here, apart]
  · by_cases there : row.key = other
    · simp [there, apart.symm]
    · simp [here, there]

theorem erase_patch (patch : Patch) :
    (map.patch key patch).erase other = (map.erase other).patch key patch := by
  refine eq_of_rows ?_
  simp only [RowMap.patch, erase, List.filter_map, Function.comp_def, keyOf_patched]

theorem erase_comm : (map.erase key).erase other = (map.erase other).erase key := by
  refine eq_of_rows ?_
  simp only [erase, List.filter_filter, Bool.and_comm]

end RowMap

end EntityAccess
