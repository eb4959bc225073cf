import EntityAccess.Proofs.Outcome
import EntityAccess.Proofs.Record.Storage
import Mathlib.Data.List.TakeWhile

/-!
# Prepared patches

The writes of a prepared patch are its entries for mutable fields, in their order
and with their values bound to the fields; entries for the key are left out.  A
patch at fault, and one for records of another type, leave a record alone.  A patch
whose entry the record itself refuses does not: the entries before it are written
and stay.
-/

namespace EntityAccess

theorem Field.isMutable_iff {field : Field} :
    field.isMutable = true ↔
      field.key = false ∧ field.readOnly = false ∧ ∃ type, field.kind = .scalar type := by
  cases kind : field.kind <;> simp [isMutable, isRelation, FieldKind.isRelation, kind]

theorem Field.isMutable_eq_false_iff {field : Field} :
    field.isMutable = false ↔
      field.key = true ∨ field.readOnly = true ∨ field.isRelation = true := by
  simp only [isMutable, Bool.and_eq_false_iff, Bool.not_eq_false', or_assoc]

namespace Patch

variable {shape : Shape}

/-- An entry is fit for a key, which drops it, or for a mutable field that takes its value. -/
theorem prepareEntry_eq_ok_iff {name : String} {value : Value} {write? : Option (String × Value)} :
    prepareEntry shape name value = .ok write? ↔
      ∃ field, shape.field? name = some field ∧
        ((field.key = true ∧ write? = none) ∨
          (field.isMutable = true ∧ ∃ bound, field.coerce value = .ok bound ∧
            write? = some (name, bound))) := by
  unfold prepareEntry
  cases shape.field? name with
  | none => simp
  | some field =>
      simp only [Option.some.injEq, exists_eq_left']
      by_cases key : field.key = true
      · have fixed := Field.isMutable_eq_false_iff.2 (.inl key)
        simp [key, fixed, eq_comm]
      · by_cases mutable : field.isMutable = true
        · cases field.coerce value with
          | error cause => simp [key, mutable]
          | ok bound => simp [key, mutable, eq_comm]
        · simp [key, mutable]

theorem prepareEntries_cons_eq_ok_iff
    {name : String} {value : Value} {rest writes : List (String × Value)} :
    prepareEntries shape ((name, value) :: rest) = .ok writes ↔
      ∃ write? others, prepareEntry shape name value = .ok write? ∧
        prepareEntries shape rest = .ok others ∧ write?.toList ++ others = writes := by
  rw [prepareEntries]
  simp only [Outcome.bind_eq_ok_iff, pure, Except.pure, Except.ok.injEq]
  constructor
  · rintro ⟨write?, prepared, others, preparedRest, same⟩
    exact ⟨write?, others, prepared, preparedRest, same⟩
  · rintro ⟨write?, others, prepared, preparedRest, same⟩
    exact ⟨write?, prepared, others, preparedRest, same⟩

/-- Entries are prepared one by one, and those for the key give no write. -/
theorem prepareEntries_eq_mapM (shape : Shape) (entries : List (String × Value)) :
    prepareEntries shape entries =
      (entries.mapM fun entry => prepareEntry shape entry.1 entry.2).map
        (List.flatMap Option.toList) := by
  induction entries with
  | nil => rfl
  | cons entry rest ih =>
      obtain ⟨name, value⟩ := entry
      rw [prepareEntries, List.mapM_cons, ih]
      cases prepareEntry shape name value with
      | error e => rfl
      | ok write? =>
          cases rest.mapM fun entry => prepareEntry shape entry.1 entry.2 <;> rfl

/-- The writes stand under names of entries, in their order. -/
theorem names_sublist_of_prepareEntries
    {entries writes : List (String × Value)}
    (prepared : prepareEntries shape entries = .ok writes) :
    (writes.map Prod.fst).Sublist (entries.map Prod.fst) := by
  induction entries generalizing writes with
  | nil =>
      obtain rfl := Except.ok.inj prepared
      exact List.Sublist.refl _
  | cons entry rest ih =>
      obtain ⟨name, value⟩ := entry
      obtain ⟨write?, others, here, preparedRest, rfl⟩ := prepareEntries_cons_eq_ok_iff.1 prepared
      obtain ⟨field, _, ⟨_, rfl⟩ | ⟨_, bound, _, rfl⟩⟩ := prepareEntry_eq_ok_iff.1 here
      · exact (ih preparedRest).cons _
      · exact (ih preparedRest).cons_cons _

theorem nodup_names (patch : Patch) : (patch.entries.map Prod.fst).Nodup :=
  List.pairwise_map.2 <| patch.sorted.imp fun before same =>
    absurd (same ▸ before) (String.lt_irrefl _)

theorem prepare_eq_ok_iff {patch : Patch} {prepared : PreparedPatch} :
    patch.prepare shape = .ok prepared ↔
      prepared.shape = shape.name ∧ prepareEntries shape patch.entries = .ok prepared.writes := by
  rw [prepare, Outcome.map_eq_ok_iff]
  constructor
  · rintro ⟨writes, done, rfl⟩
    exact ⟨rfl, done⟩
  · rintro ⟨name, done⟩
    exact ⟨prepared.writes, done, name ▸ rfl⟩

/-- The patch can be prepared for records of the shape. -/
def Suits (patch : Patch) (shape : Shape) : Prop :=
  ∃ prepared, patch.prepare shape = .ok prepared

theorem not_suits_of_refused
    {patch : Patch} {e : FieldError} (refused : patch.prepare shape = .error e) :
    ¬patch.Suits shape := by
  rintro ⟨prepared, done⟩
  cases refused.symm.trans done

/-- A patch suits a shape when each of its entries does. -/
theorem suits_iff {patch : Patch} :
    patch.Suits shape ↔
      ∀ name value, patch.get? name = some value →
        ∃ write?, prepareEntry shape name value = .ok write? := by
  have entries : patch.Suits shape ↔
      ∃ writes,
        (patch.entries.mapM fun entry => prepareEntry shape entry.1 entry.2) = .ok writes := by
    simp only [Suits, prepare, prepareEntries_eq_mapM, Outcome.map_eq_ok_iff]
    constructor
    · rintro ⟨_, _, ⟨writes, done, -⟩, -⟩
      exact ⟨writes, done⟩
    · rintro ⟨writes, done⟩
      exact ⟨_, _, ⟨writes, done, rfl⟩, rfl⟩
  rw [entries, Outcome.exists_mapM_eq_ok_iff, Prod.forall]
  simp only [get?, Entries.lookup_eq_some_iff_mem patch.nodup_names]

/-- The fault of the first entry, in the order of the names, that cannot be prepared. -/
def Fault (patch : Patch) (shape : Shape) (e : FieldError) : Prop :=
  ∃ name value, patch.get? name = some value ∧ prepareEntry shape name value = .error e ∧
    ∀ earlier other, earlier < name → patch.get? earlier = some other →
      ∃ write?, prepareEntry shape earlier other = .ok write?

/-- A patch is refused with its first fault. -/
theorem prepare_eq_error_iff {patch : Patch} {e : FieldError} :
    patch.prepare shape = .error e ↔ patch.Fault shape e := by
  rw [prepare, Outcome.map_eq_error_iff, prepareEntries_eq_mapM, Outcome.map_eq_error_iff,
    Outcome.mapM_eq_error_iff]
  have given {name : String} {value : Value} :
      patch.get? name = some value ↔ (name, value) ∈ patch.entries :=
    Entries.lookup_eq_some_iff_mem patch.nodup_names
  have sorted := patch.sorted
  constructor
  · rintro ⟨before, ⟨name, value⟩, after, split, earlier, refused⟩
    rw [split] at sorted
    obtain ⟨-, later, -⟩ := List.pairwise_append.1 sorted
    refine ⟨name, value, given.2 (by simp [split]), refused, fun first other less isGiven => ?_⟩
    rw [given, split, List.mem_append, List.mem_cons] at isGiven
    rcases isGiven with isBefore | same | isAfter
    · exact earlier _ isBefore
    · exact absurd less ((Prod.mk.inj same).1 ▸ String.lt_irrefl _)
    · exact absurd less (String.lt_asymm ((List.pairwise_cons.1 later).1 _ isAfter))
  · rintro ⟨name, value, isGiven, refused, earlier⟩
    obtain ⟨before, after, split⟩ := List.append_of_mem (given.1 isGiven)
    rw [split] at sorted
    obtain ⟨-, -, across⟩ := List.pairwise_append.1 sorted
    refine ⟨before, (name, value), after, split, fun entry isBefore => ?_, refused⟩
    exact earlier entry.1 entry.2 (across entry isBefore _ List.mem_cons_self)
      (given.2 (by simp [split, isBefore]))

/-- A prepared patch writes no field twice. -/
theorem nodup_writes
    {patch : Patch} {prepared : PreparedPatch} (done : patch.prepare shape = .ok prepared) :
    (prepared.writes.map Prod.fst).Nodup :=
  patch.nodup_names.sublist (names_sublist_of_prepareEntries (prepare_eq_ok_iff.1 done).2)

/-- The value that a patch gives a field, if the patch names the field and may write it. -/
def bound? (patch : Patch) (shape : Shape) (name : String) : Option Value :=
  (patch.get? name).bind fun value =>
    (shape.field? name).bind fun field =>
      if field.isMutable then (field.coerce value).toOption else none

theorem bound?_eq_some_iff {patch : Patch} {name : String} {bound : Value} :
    patch.bound? shape name = some bound ↔
      ∃ value field, patch.get? name = some value ∧ shape.field? name = some field ∧
        field.isMutable = true ∧ field.coerce value = .ok bound := by
  simp only [bound?, Option.bind_eq_some_iff]
  constructor
  · rintro ⟨value, given, field, found, some⟩
    split at some
    · rename_i mutable
      cases coerced : field.coerce value with
      | error cause =>
          rw [coerced] at some
          cases some
      | ok other =>
          rw [coerced] at some
          exact ⟨value, field, given, found, mutable, coerced.trans (Option.some.inj some ▸ rfl)⟩
    · cases some
  · rintro ⟨value, field, given, found, mutable, coerced⟩
    exact ⟨value, given, field, found, by rw [if_pos mutable, coerced]; rfl⟩

/-- No patch gives the key a value. -/
theorem bound?_keyName (patch : Patch) (shape : Shape) :
    patch.bound? shape shape.keyName = none := by
  have fixed : shape.keyField.isMutable = false := Field.isMutable_eq_false_iff.2 (.inl rfl)
  simp [bound?, shape.field?_keyName, fixed]

/-- An entry of a patch that suits a shape is for the key, or it gives a field its value. -/
theorem Suits.bound?_cases
    {patch : Patch} (suits : patch.Suits shape) {name : String} {value : Value}
    (given : patch.get? name = some value) :
    (∀ other : Patch, other.bound? shape name = none) ∨
      ∃ bound, patch.bound? shape name = some bound := by
  obtain ⟨write?, prepared⟩ := suits_iff.1 suits name value given
  obtain ⟨field, found, ⟨key, -⟩ | ⟨mutable, bound, coerced, -⟩⟩ :=
    prepareEntry_eq_ok_iff.1 prepared
  · have fixed := Field.isMutable_eq_false_iff.2 (.inl key)
    exact Or.inl fun other => by simp [bound?, found, fixed]
  · exact Or.inr ⟨bound, bound?_eq_some_iff.2 ⟨value, field, given, found, mutable, coerced⟩⟩

/-- The writes of a prepared patch are the values that it gives fields. -/
theorem lookup_writes
    {patch : Patch} {prepared : PreparedPatch} (done : patch.prepare shape = .ok prepared)
    (name : String) : prepared.writes.lookup name = patch.bound? shape name := by
  have distinct := patch.nodup_names
  unfold bound? get?
  obtain ⟨-, writes⟩ := prepare_eq_ok_iff.1 done
  generalize prepared.writes = written at writes
  generalize patch.entries = entries at writes distinct
  induction entries generalizing written with
  | nil =>
      obtain rfl := Except.ok.inj writes
      rfl
  | cons entry rest ih =>
      obtain ⟨first, value⟩ := entry
      obtain ⟨fresh, distinctRest⟩ := List.nodup_cons.1 distinct
      obtain ⟨write?, others, here, preparedRest, rfl⟩ := prepareEntries_cons_eq_ok_iff.1 writes
      have after := ih others preparedRest distinctRest
      obtain ⟨field, found, ⟨key, rfl⟩ | ⟨mutable, bound, coerced, rfl⟩⟩ :=
        prepareEntry_eq_ok_iff.1 here
      · by_cases same : name = first
        · subst same
          have fixed := Field.isMutable_eq_false_iff.2 (.inl key)
          rw [Entries.lookup_eq_none fresh] at after
          simpa [found, fixed] using after
        · simpa [lookup_cons_entry, same] using after
      · by_cases same : name = first
        · subst same
          simp [found, mutable, coerced, Except.toOption]
        · simpa [lookup_cons_entry, same] using after

end Patch

/-! ## Refusal -/

namespace PreparedPatch

/-- The writes before the first one that the record refuses. -/
def taken (record : Record) (writes : List (String × Value)) : List (String × Value) :=
  writes.takeWhile fun write => (record.stored? write.1 write.2).isSome

theorem taken_cons_of_refused
    {record : Record} {field : String} {value : Value} (rest : List (String × Value))
    (refused : record.set? field value = none) : taken record ((field, value) :: rest) = [] := by
  have blocked := record.isSome_set? field value
  rw [refused, Option.isSome_none] at blocked
  exact List.takeWhile_cons_of_neg (by simp [← blocked])

/-- After a write, the record takes of the later writes what it took before. -/
theorem taken_cons_of_set?
    {record written : Record} {field : String} {value : Value} (rest : List (String × Value))
    (done : record.set? field value = some written) :
    taken record ((field, value) :: rest) = (field, value) :: taken written rest := by
  have open_ := record.isSome_set? field value
  rw [done, Option.isSome_some] at open_
  simp only [taken, Record.stored?_of_set? done]
  exact List.takeWhile_cons_of_pos open_.symm

variable {record : Record} {writes : List (String × Value)}

/-- What no single write changes, a list of writes leaves alone. -/
theorem writeAll_keeps
    {α : Type} (part : Record → α)
    (kept : ∀ {record written : Record} {field : String} {value : Value},
      record.set? field value = some written → part written = part record)
    (record : Record) (writes : List (String × Value)) :
    part (writeAll writes record).2 = part record := by
  induction writes generalizing record with
  | nil => rfl
  | cons write rest ih =>
      obtain ⟨field, value⟩ := write
      rw [writeAll]
      cases done : record.set? field value with
      | none => rfl
      | some written => exact (ih written).trans (kept done)

theorem relations_writeAll (record : Record) (writes : List (String × Value)) :
    (writeAll writes record).2.relations = record.relations :=
  writeAll_keeps Record.relations Record.relations_of_set? record writes

/-- Writes without a repeated name: each taken one is read afterwards, all else is as before. -/
theorem scalar?_writeAll
    (record : Record) (distinct : (writes.map Prod.fst).Nodup) (name : String) :
    (writeAll writes record).2.scalar? name =
      match (taken record writes).lookup name with
      | some value => record.stored? name value
      | none => record.scalar? name := by
  induction writes generalizing record with
  | nil => rfl
  | cons write rest ih =>
      obtain ⟨field, value⟩ := write
      obtain ⟨fresh, distinctRest⟩ := List.nodup_cons.1 distinct
      rw [writeAll]
      cases done : record.set? field value with
      | none =>
          rw [taken_cons_of_refused rest done]
          rfl
      | some written =>
          rw [taken_cons_of_set? rest done, Patch.lookup_cons_entry]
          refine (ih written distinctRest).trans ?_
          by_cases here : name = field
          · subst here
            have missing : (taken written rest).lookup name = none :=
              Entries.lookup_eq_none fun isTaken =>
                fresh (((List.takeWhile_sublist _).map Prod.fst).subset isTaken)
            simp only [missing, if_true, Record.scalar?_after_set? done]
          · rw [if_neg here]
            cases (taken written rest).lookup name with
            | some other => exact Record.stored?_of_set? done name other
            | none => rw [Record.scalar?_after_set? done, if_neg here]

/-- Entries that are written one by one fail by a refusal alone. -/
theorem writeAll_error
    {record : Record} {writes : List (String × Value)} {e : FieldError}
    (failed : (writeAll writes record).1 = .error e) : ∃ field, e = .rejected field := by
  induction writes generalizing record with
  | nil => cases failed
  | cons write rest ih =>
      obtain ⟨field, value⟩ := write
      rw [writeAll] at failed
      cases done : record.set? field value with
      | none =>
          simp only [done, Except.error.injEq] at failed
          exact ⟨field, failed.symm⟩
      | some written =>
          simp only [done] at failed
          exact ih failed

/-- The entries taken from a patch give a record what it holds. -/
def Redundant (record : Record) (writes : List (String × Value)) : Prop :=
  ∀ write ∈ taken record writes, record.scalar? write.1 = record.stored? write.1 write.2

/-- Written entries leave everything as it reads exactly when those taken are redundant. -/
theorem get?_writeAll_iff
    (record : Record) (distinct : (writes.map Prod.fst).Nodup) :
    (∀ name, (writeAll writes record).2.get? name = record.get? name) ↔
      Redundant record writes := by
  have distinctTaken : ((taken record writes).map Prod.fst).Nodup :=
    distinct.sublist ((List.takeWhile_sublist _).map Prod.fst)
  constructor
  · rintro same ⟨name, value⟩ isTaken
    have stored := List.mem_takeWhile_imp isTaken
    have now := scalar?_writeAll record distinct name
    rw [(Entries.lookup_eq_some_iff_mem distinctTaken).2 isTaken] at now
    obtain ⟨written, isStored⟩ := Option.isSome_iff_exists.1 stored
    obtain ⟨held, isHeld⟩ := Record.exists_scalar?_of_stored? isStored
    have reads := same name
    simp only [Record.get?, now, isStored, isHeld, Option.some.injEq, Content.scalar.injEq] at reads
    rw [isHeld, isStored, reads]
  · intro redundant name
    have now : (writeAll writes record).2.scalar? name = record.scalar? name := by
      rw [scalar?_writeAll record distinct]
      cases found : (taken record writes).lookup name with
      | none => rfl
      | some value =>
          exact (redundant _ ((Entries.lookup_eq_some_iff_mem distinctTaken).1 found)).symm
    rw [Record.get?, Record.get?, now, Record.relation?, Record.relation?, relations_writeAll]

/-- A patch that is written to a record of its type fails by a refusal alone. -/
theorem applyTo_error
    {patch : PreparedPatch} {record : Record} {e : FieldError}
    (failed : (patch.applyTo record).1 = .error e) :
    (∃ field, e = .rejected field) ∨
      (record.type.name ≠ patch.shape ∧ (patch.applyTo record).2 = record) := by
  by_cases fits : record.type.name = patch.shape
  · rw [applyTo, if_pos fits] at failed
    exact Or.inl (writeAll_error failed)
  · exact Or.inr ⟨fits, by rw [applyTo, if_neg fits]⟩

theorem get?_applyTo_iff
    {patch : PreparedPatch} (distinct : (patch.writes.map Prod.fst).Nodup) (record : Record) :
    (∀ name, (patch.applyTo record).2.get? name = record.get? name) ↔
      (record.type.name = patch.shape → Redundant record patch.writes) := by
  by_cases fits : record.type.name = patch.shape
  · rw [applyTo, if_pos fits, get?_writeAll_iff record distinct]
    exact ⟨fun redundant _ => redundant, fun redundant => redundant fits⟩
  · rw [applyTo, if_neg fits]
    exact ⟨fun _ same => absurd same fits, fun _ _ => rfl⟩

end PreparedPatch

namespace Patch

open PreparedPatch (Redundant)

/-- A patch at fault is not written; one that is prepared is written as prepared. -/
theorem apply_eq (patch : Patch) (catalog : Catalog) (record : Record) :
    (∃ e, patch.prepare (catalog.shape record.type) = .error e ∧
        patch.apply catalog record = (.error e, record)) ∨
      ∃ prepared, patch.prepare (catalog.shape record.type) = .ok prepared ∧
        patch.apply catalog record = prepared.applyTo record := by
  unfold apply
  cases patch.prepare (catalog.shape record.type) with
  | error e => exact Or.inl ⟨e, rfl, rfl⟩
  | ok prepared => exact Or.inr ⟨prepared, rfl, rfl⟩

/--
When a patch fails on a record, every field reads as before exactly if the
record takes nothing new from the entries before the refused one.  So it is for
a prepared patch on a record of any type, where another type name takes nothing.
Every error but a refusal leaves the whole record alone.
-/
theorem unchanged_after_error_iff
    (catalog : Catalog) (patch : Patch) (record : Record) (e : FieldError) :
    ((patch.apply catalog record).1 = .error e →
        ((∀ name, (patch.apply catalog record).2.get? name = record.get? name) ↔
          ∀ prepared, patch.prepare (catalog.shape record.type) = .ok prepared →
            Redundant record prepared.writes) ∧
        ((∀ field, e ≠ .rejected field) → (patch.apply catalog record).2 = record)) ∧
      ∀ shape prepared, patch.prepare shape = .ok prepared →
        (prepared.applyTo record).1 = .error e →
          ((∀ name, (prepared.applyTo record).2.get? name = record.get? name) ↔
            (record.type.name = shape.name → Redundant record prepared.writes)) ∧
          ((∀ field, e ≠ .rejected field) → (prepared.applyTo record).2 = record) := by
  have direct (shape : Shape) (prepared : PreparedPatch) (done : patch.prepare shape = .ok prepared)
      (failed : (prepared.applyTo record).1 = .error e) :
      ((∀ name, (prepared.applyTo record).2.get? name = record.get? name) ↔
          (record.type.name = shape.name → Redundant record prepared.writes)) ∧
        ((∀ field, e ≠ .rejected field) → (prepared.applyTo record).2 = record) := by
    refine ⟨?_, fun other => ?_⟩
    · rw [← (prepare_eq_ok_iff.1 done).1]
      exact PreparedPatch.get?_applyTo_iff (nodup_writes done) record
    · rcases PreparedPatch.applyTo_error failed with ⟨field, same⟩ | ⟨_, kept⟩
      · exact absurd same (other field)
      · exact kept
  refine ⟨fun failed => ?_, direct⟩
  rcases patch.apply_eq catalog record with ⟨fault, refused, same⟩ | ⟨prepared, done, same⟩
  · rw [same, refused]
    exact ⟨⟨fun _ prepared done => (by cases done), fun _ _ => rfl⟩, fun _ => rfl⟩
  · rw [same] at failed ⊢
    obtain ⟨reads, whole⟩ := direct _ prepared done failed
    refine ⟨reads.trans ?_, whole⟩
    rw [done, catalog.name_shape]
    constructor
    · rintro redundant _ ⟨⟩
      exact redundant rfl
    · exact fun redundant _ => redundant prepared rfl

end Patch

namespace Sample

/-- Counters are declared with integers and store their hits in 32 bits. -/
def counterShape : Shape where
  type := typeNamed "counter"
  keyName := "id"
  keyType := .int
  others := [Field.scalar "active" .bool, Field.scalar "hits" .int]
  names_nodup := by decide

/-- An active counter without hits. -/
def counter : Record :=
  .mk counterShape.type
    [cell "id" .int64 (.int 1), cell "active" .bool (.bool true), cell "hits" .int32 (.int 0)] []

/-- A patch that a counter refuses at its second entry. -/
def overflowing (active : Bool) : Patch :=
  (Patch.empty.insert "hits" (.int 0x80000000)).insert "active" (.bool active)

end Sample

namespace Patch

/-- A patch that keeps a counter active and is refused at its hits changes nothing. -/
theorem unchanged_after_error_iff_counter :
    ((Sample.overflowing true).apply (Catalog.ofShapes [Sample.counterShape]) Sample.counter).1 =
        .error (.rejected "hits") ∧
      ∀ name,
        ((Sample.overflowing true).apply (Catalog.ofShapes [Sample.counterShape])
          Sample.counter).2.get? name = Sample.counter.get? name := by
  have failed : ((Sample.overflowing true).apply (Catalog.ofShapes [Sample.counterShape])
      Sample.counter).1 = .error (.rejected "hits") := rfl
  refine ⟨failed, ((unchanged_after_error_iff _ _ _ _).1 failed).1.2 ?_⟩
  intro prepared done
  obtain rfl := Except.ok.inj done
  intro write isTaken
  obtain rfl : write = ("active", .bool true) := List.mem_singleton.1 isTaken
  rfl

/-- A patch that turns a counter off and is refused at its hits has turned it off. -/
theorem not_unchanged_after_refusal :
    ¬ ∀ (catalog : Catalog) (patch : Patch) (record : Record) (e : FieldError),
      (patch.apply catalog record).1 = .error e →
        ∀ name, (patch.apply catalog record).2.get? name = record.get? name := by
  intro unchanged
  have same := unchanged (Catalog.ofShapes [Sample.counterShape]) (Sample.overflowing false)
    Sample.counter (.rejected "hits") rfl "active"
  have reads : Option.some (Content.scalar (.bool false)) = .some (.scalar (.bool true)) := same
  simp at reads

end Patch

end EntityAccess
