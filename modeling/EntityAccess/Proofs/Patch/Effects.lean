import EntityAccess.Proofs.Patch.Preparation
import EntityAccess.Proofs.Text

/-!
# Effects of patches

A stored record takes every value that its shape accepts.  So a patch that is
prepared is written in full: it makes the fields that it names read what their
values are coerced to, and no other field read anything new; the key is never
among them.  Of two patches, one after the other, the second overrides the first.
-/

namespace EntityAccess

namespace PreparedPatch

/-- Nothing is refused when the record takes every write. -/
theorem taken_eq_self
    {record : Record} {writes : List (String × Value)}
    (takes : ∀ write ∈ writes, (record.stored? write.1 write.2).isSome = true) :
    taken record writes = writes :=
  List.takeWhile_eq_self_iff.2 takes

theorem writeAll_eq_ok
    {record : Record} {writes : List (String × Value)}
    (takes : ∀ write ∈ writes, (record.stored? write.1 write.2).isSome = true) :
    (writeAll writes record).1 = .ok () := by
  induction writes generalizing record with
  | nil => rfl
  | cons write rest ih =>
      obtain ⟨field, value⟩ := write
      have first := takes (field, value) List.mem_cons_self
      rw [← Record.isSome_set?] at first
      obtain ⟨written, done⟩ := Option.isSome_iff_exists.1 first
      rw [writeAll, done]
      refine ih fun later isLater => ?_
      rw [Record.stored?_of_set? done]
      exact takes later (List.mem_cons_of_mem _ isLater)

/-- A patched record is what a patch that succeeds leaves. -/
theorem patched_eq_ok_iff
    {patch : PreparedPatch} {record written : Record} :
    patch.patched record = .ok written ↔ patch.applyTo record = (.ok (), written) := by
  rw [patched]
  rcases patch.applyTo record with ⟨answer, after⟩
  cases answer with
  | error e => simp [Except.map]
  | ok done => simp [Except.map]

end PreparedPatch

namespace Patch

variable {shape : Shape} {patch : Patch}

/-- The values that a patch gives fields are values that they admit. -/
theorem admits_of_bound?
    {name : String} {bound : Value} (given : patch.bound? shape name = some bound) :
    ∃ field, shape.field? name = some field ∧ field.Admits bound := by
  obtain ⟨_, field, _, found, _, coerced⟩ := bound?_eq_some_iff.1 given
  exact ⟨field, found, Field.admits_of_coerce coerced⟩

theorem fits_rebind
    {record : Record} (fits : record.Fits shape) (patch : Patch) :
    (record.rebind (patch.bound? shape)).Fits shape :=
  fits.rebind fun _ _ => admits_of_bound?

/-- A patch leaves the key as it is. -/
theorem keyOf_rebind (shape : Shape) (patch : Patch) (record : Record) :
    shape.keyOf (record.rebind (patch.bound? shape)) = shape.keyOf record := by
  rw [Shape.keyOf, Record.scalar?_rebind, bound?_keyName]
  simp [Shape.keyOf]

/-- A prepared patch gives a stored record the values of its entries and changes nothing else. -/
theorem patched_eq_rebind
    {prepared : PreparedPatch} {record : Record}
    (done : patch.prepare shape = .ok prepared) (fits : record.Fits shape) :
    prepared.patched record = .ok (record.rebind (patch.bound? shape)) := by
  have distinct := nodup_writes done
  have stored {write : String × Value} (isWrite : write ∈ prepared.writes) :
      record.stored? write.1 write.2 = some write.2 := by
    have given := (Entries.lookup_eq_some_iff_mem distinct).2 isWrite
    rw [lookup_writes done] at given
    obtain ⟨field, found, admits⟩ := admits_of_bound? given
    exact fits.stored?_of_admits found admits
  have takes : ∀ write ∈ prepared.writes, (record.stored? write.1 write.2).isSome = true :=
    fun write isWrite => by rw [stored isWrite]; rfl
  have sameShape : record.type.name = prepared.shape := by
    rw [fits.type, (prepare_eq_ok_iff.1 done).1, Shape.name]
  have written : (PreparedPatch.writeAll prepared.writes record).2 =
      record.rebind (patch.bound? shape) := by
    refine fits.eq_rebind ?_ ?_ ?_ fun name => ?_
    · exact PreparedPatch.writeAll_keeps Record.type Record.type_of_set? record _
    · exact PreparedPatch.writeAll_keeps Record.layout Record.layout_of_set? record _
    · exact PreparedPatch.relations_writeAll record _
    · rw [PreparedPatch.scalar?_writeAll record distinct, PreparedPatch.taken_eq_self takes,
        lookup_writes done]
      cases given : patch.bound? shape name with
      | none => simp
      | some value =>
          have isWrite := (Entries.lookup_eq_some_iff_mem distinct).1
            ((lookup_writes done name).trans given)
          have slot := stored isWrite
          obtain ⟨old, isOld⟩ := Record.exists_scalar?_of_stored? slot
          rw [isOld]
          exact slot
  rw [PreparedPatch.patched, PreparedPatch.applyTo, if_pos sameShape]
  simp only [PreparedPatch.writeAll_eq_ok takes, written]
  rfl

/-- On a stored record, a patch succeeds when it can be prepared. -/
theorem apply_eq_rebind
    {catalog : Catalog} {record : Record} (fits : record.Fits (catalog.shape record.type))
    {prepared : PreparedPatch} (done : patch.prepare (catalog.shape record.type) = .ok prepared) :
    patch.apply catalog record =
      (.ok (), record.rebind (patch.bound? (catalog.shape record.type))) := by
  rw [apply, done]
  exact PreparedPatch.patched_eq_ok_iff.1 (patched_eq_rebind done fits)

end Patch

/-! ## Accepted patches -/

namespace Patch

/-- A shape accepts an entry for a key, or for a mutable scalar that takes its value. -/
inductive Accepted (shape : Shape) (name : String) (value : Value) : Prop where
  | key {field : Field} (found : shape.field? name = some field) (key : field.key = true) :
      Accepted shape name value
  | scalar {field : Field} {type : ScalarType} {bound : Value}
      (found : shape.field? name = some field) (scalar : field.kind = .scalar type)
      (writable : field.readOnly = false) (coerced : field.coerce value = .ok bound) :
      Accepted shape name value

/-- What is wrong with an entry that a shape does not accept. -/
inductive EntryFault (shape : Shape) (name : String) (value : Value) : FieldError → Prop where
  | unknown (missing : shape.field? name = none) :
      EntryFault shape name value (.unknown name shape.name)
  | notMutable {field : Field} (found : shape.field? name = some field)
      (other : field.key = false) (fixed : field.readOnly = true ∨ field.isRelation = true) :
      EntryFault shape name value (.notMutable name)
  | coercion {field : Field} {type : ScalarType} {cause : CoercionError}
      (found : shape.field? name = some field) (other : field.key = false)
      (scalar : field.kind = .scalar type) (writable : field.readOnly = false)
      (refused : field.coerce value = .error cause) :
      EntryFault shape name value (.coercion name cause)

variable {shape : Shape} {name : String} {value : Value}

/-- An entry can be prepared when the shape accepts it. -/
theorem exists_prepareEntry_iff :
    (∃ write?, prepareEntry shape name value = .ok write?) ↔ Accepted shape name value := by
  simp only [prepareEntry_eq_ok_iff, Field.isMutable_iff]
  constructor
  · rintro ⟨_, field, found, ⟨key, -⟩ | ⟨⟨-, writable, type, scalar⟩, bound, coerced, -⟩⟩
    · exact .key found key
    · exact .scalar found scalar writable coerced
  · intro accepted
    cases accepted with
    | key found key => exact ⟨none, _, found, .inl ⟨key, rfl⟩⟩
    | @scalar field type bound found scalar writable coerced =>
        cases key : field.key with
        | true => exact ⟨none, field, found, .inl ⟨key, rfl⟩⟩
        | false =>
            exact ⟨_, field, found, .inr ⟨⟨key, writable, type, scalar⟩, bound, coerced, rfl⟩⟩

/-- It is refused with what is wrong with it. -/
theorem prepareEntry_eq_error_iff {e : FieldError} :
    prepareEntry shape name value = .error e ↔ EntryFault shape name value e := by
  unfold prepareEntry
  constructor
  · intro refused
    split at refused
    · rename_i missing
      exact Except.error.inj refused ▸ .unknown missing
    · rename_i field found
      cases key : field.key with
      | true => simp [key] at refused
      | false =>
          by_cases mutable : field.isMutable = true
          · obtain ⟨-, writable, type, scalar⟩ := Field.isMutable_iff.1 mutable
            cases coerced : field.coerce value with
            | ok bound => simp [key, mutable, coerced] at refused
            | error cause =>
                simp only [key, mutable, coerced] at refused
                exact Except.error.inj refused ▸ .coercion found key scalar writable coerced
          · have fixed := Field.isMutable_eq_false_iff.1 (Bool.eq_false_iff.2 mutable)
            simp only [key, mutable, Bool.false_eq_true, false_or] at refused fixed
            exact Except.error.inj refused ▸ .notMutable found key fixed
  · intro fault
    cases fault with
    | unknown missing => simp only [missing]
    | notMutable found other fixed =>
        have closed := Field.isMutable_eq_false_iff.2 (.inr fixed)
        simp [found, other, closed]
    | coercion found other scalar writable refused =>
        have mutable := Field.isMutable_iff.2 ⟨other, writable, _, scalar⟩
        simp [found, other, mutable, refused]

variable {patch : Patch}

/-- A patch can be prepared when each of its entries is accepted. -/
theorem suits_iff_accepted :
    patch.Suits shape ↔
      ∀ name value, patch.get? name = some value → Accepted shape name value := by
  simp only [suits_iff, exists_prepareEntry_iff]

/-- It is refused with what is wrong with the first other entry in the order of bytes. -/
theorem prepare_eq_entryFault_iff {e : FieldError} :
    patch.prepare shape = .error e ↔
      ∃ name value, patch.get? name = some value ∧ EntryFault shape name value e ∧
        ∀ earlier other, utf8Bytes earlier < utf8Bytes name → patch.get? earlier = some other →
          Accepted shape earlier other := by
  simp only [prepare_eq_error_iff, Fault, prepareEntry_eq_error_iff, exists_prepareEntry_iff,
    utf8Bytes_lt_iff]

/-- A field that a patch does not name or may not write gets no value from it. -/
theorem bound?_eq_none
    (spared : patch.get? name = none ∨
      ∃ field, shape.field? name = some field ∧ field.isMutable = false) :
    patch.bound? shape name = none := by
  rcases spared with unnamed | ⟨field, found, fixed⟩
  · rw [bound?, unnamed, Option.bind_none]
  · cases given : patch.get? name <;> simp [bound?, given, found, fixed]

end Patch

namespace Record

variable {values : String → Option Value} {record : Record} {name : String} {value : Value}

theorem get?_of_scalar? (reads : record.scalar? name = some value) :
    record.get? name = some (.scalar value) := by
  rw [get?, reads]

/-- Where no value is given, a field reads as before. -/
theorem get?_rebind_of_none (none : values name = none) :
    (record.rebind values).get? name = record.get? name := by
  have same : (record.rebind values).scalar? name = record.scalar? name := by
    rw [scalar?_rebind, none]
    exact Option.map_id'
  rw [get?, get?, same]
  rfl

end Record

namespace Patch

/-- What a patch makes of a record: the fields it names read its values, the others as before. -/
structure Affects (patch : Patch) (shape : Shape) (record patched : Record) : Prop where
  named : ∀ name value field, patch.get? name = some value → shape.field? name = some field →
    field.key = false →
      ∃ bound, field.coerce value = .ok bound ∧ patched.get? name = some (.scalar bound)
  others : ∀ name,
    (patch.get? name = none ∨ ∃ field, shape.field? name = some field ∧
      (field.key = true ∨ field.readOnly = true ∨ field.isRelation = true)) →
    patched.get? name = record.get? name
  relations : patched.relations = record.relations
  type : patched.type = record.type

/-- The values of a patch, given to a stored record, affect it as the patch does. -/
theorem affects_rebind
    {shape : Shape} {patch : Patch} {record : Record} (fits : record.Fits shape)
    (suits : patch.Suits shape) :
    patch.Affects shape record (record.rebind (patch.bound? shape)) where
  named name value field given found other := by
    cases suits_iff_accepted.1 suits name value given with
    | key isOwn key =>
        -- An entry for a key is accepted and dropped, but this field is none.
        obtain rfl := Option.some.inj (found.symm.trans isOwn)
        exact absurd key (by simp [other])
    | @scalar _ type bound isOwn scalar writable coerced =>
        obtain rfl := Option.some.inj (found.symm.trans isOwn)
        have mutable := Field.isMutable_iff.2 ⟨other, writable, type, scalar⟩
        have gives : patch.bound? shape name = some bound :=
          bound?_eq_some_iff.2 ⟨value, field, given, found, mutable, coerced⟩
        obtain ⟨old, reads⟩ := Record.exists_scalar?_of_stored?
          (fits.stored?_of_admits found (Field.admits_of_coerce coerced))
        refine ⟨bound, coerced, Record.get?_of_scalar? ?_⟩
        rw [Record.scalar?_rebind, reads, gives]
        rfl
  others name spared := by
    refine Record.get?_rebind_of_none (bound?_eq_none (spared.imp_right ?_))
    rintro ⟨field, found, fixed⟩
    exact ⟨field, found, Field.isMutable_eq_false_iff.2 fixed⟩
  relations := rfl
  type := rfl

/--
A patch of a stored record is accepted when each of its entries is, and refused
with what is wrong with the first other one in the order of the bytes of the
names.  An accepted patch is written without a failure, and affects just the
fields it names and may write.
-/
theorem apply_affects
    (catalog : Catalog) {record : Record} (fits : record.Fits (catalog.shape record.type))
    (patch : Patch) :
    let shape := catalog.shape record.type
    ((∃ prepared, patch.prepare shape = .ok prepared) ↔
        ∀ name value, patch.get? name = some value → Accepted shape name value) ∧
      (∀ e, patch.prepare shape = .error e ↔
        ∃ name value, patch.get? name = some value ∧ EntryFault shape name value e ∧
          ∀ earlier other, utf8Bytes earlier < utf8Bytes name → patch.get? earlier = some other →
            Accepted shape earlier other) ∧
      ∀ prepared, patch.prepare shape = .ok prepared →
        ∃ patched, patch.apply catalog record = (.ok (), patched) ∧
          prepared.applyTo record = (.ok (), patched) ∧ patch.Affects shape record patched :=
  ⟨suits_iff_accepted, fun _ => prepare_eq_entryFault_iff, fun prepared done =>
    ⟨_, apply_eq_rebind fits done, PreparedPatch.patched_eq_ok_iff.1 (patched_eq_rebind done fits),
      affects_rebind fits ⟨prepared, done⟩⟩⟩

end Patch

namespace Sample

/-- A person whose city is loaded. -/
def citizen : Record :=
  withCity (person 1 "Ada" 36) (city ⟨0x0123456789abcdef⟩ "Troy" 900)

/-- New values for a person, of which the one for the key is no key. -/
def correction : Patch :=
  .ofList [("id", .text "one"), ("score", .int 7), ("email", .null)]

/-- Values of which a person takes only the first in the order of the names. -/
def misprint : Patch :=
  .ofList [("zip", .int 1), ("created_at", .null), ("active", .bool false)]

end Sample

/--
A corrected person has the new score and keeps the key and the city; of two
misprints, the first one in the order of the names is reported.
-/
theorem Patch.apply_affects_citizen :
    Sample.citizen.Fits Sample.personShape ∧
      (∃ patched, Sample.correction.apply Sample.catalog Sample.citizen = (.ok (), patched) ∧
        Sample.correction.Affects Sample.personShape Sample.citizen patched ∧
        patched.get? "score" = some (.scalar (.float ⟨0x401C000000000000⟩)) ∧
        patched.get? "id" = some (.scalar (.int 1)) ∧
        patched.get? "city" = Sample.citizen.get? "city") ∧
      Sample.misprint.prepare Sample.personShape = .error (.notMutable "created_at") := by
  have fits : Sample.citizen.Fits (Sample.catalog.shape Sample.citizen.type) :=
    Sample.fits_withCity (Sample.fits_person 1 "Ada" 36) _
  obtain ⟨prepared, done⟩ : ∃ prepared,
      Sample.correction.prepare Sample.personShape = .ok prepared := ⟨_, rfl⟩
  obtain ⟨patched, applied, -, affects⟩ :=
    (apply_affects Sample.catalog fits Sample.correction).2.2 prepared done
  refine ⟨fits, ⟨patched, applied, affects, ?_, ?_, ?_⟩, ?_⟩
  · obtain ⟨bound, coerced, reads⟩ := affects.named "score" (.int 7) _ rfl rfl rfl
    rw [reads, ← Except.ok.inj coerced]
    rfl
  · exact affects.others "id" (.inr ⟨_, rfl, .inl rfl⟩)
  · exact affects.others "city" (.inl rfl)
  · refine ((apply_affects Sample.catalog fits Sample.misprint).2.1 _).2
      ⟨"created_at", .null, rfl, .notMutable rfl rfl (.inl rfl), fun earlier other less given => ?_⟩
    have before : earlier < "created_at" := utf8Bytes_lt_iff.1 less
    have entry := (Entries.lookup_eq_some_iff_mem Sample.misprint.nodup_names).1 given
    change (earlier, other) ∈
      [("active", .bool false), ("created_at", .null), ("zip", Value.int 1)] at entry
    simp only [List.mem_cons, Prod.mk.injEq, List.not_mem_nil, or_false] at entry
    rcases entry with ⟨rfl, rfl⟩ | ⟨rfl, rfl⟩ | ⟨rfl, rfl⟩
    · exact .scalar rfl rfl rfl rfl
    · exact absurd before (by decide)
    · exact absurd before (by decide)

/-! ## Patches over patches -/

namespace Patch

variable {shape : Shape}

/-- The patch with the entries of another one, which replace its own of the same names. -/
def overriddenBy (patch other : Patch) : Patch :=
  other.entries.foldl (fun patch entry => patch.insert entry.1 entry.2) patch

theorem get?_foldl_insert
    {entries : List (String × Value)} (distinct : (entries.map Prod.fst).Nodup) (patch : Patch)
    (name : String) :
    (entries.foldl (fun patch entry => patch.insert entry.1 entry.2) patch).get? name =
      (entries.lookup name).or (patch.get? name) := by
  induction entries generalizing patch with
  | nil => rfl
  | cons entry rest ih =>
      obtain ⟨first, value⟩ := entry
      obtain ⟨fresh, distinctRest⟩ := List.nodup_cons.1 distinct
      rw [List.foldl_cons, ih distinctRest, get?_insert, lookup_cons_entry]
      by_cases same : name = first
      · subst same
        rw [Entries.lookup_eq_none fresh, if_pos rfl, if_pos rfl]
        rfl
      · rw [if_neg same, if_neg same]

variable (patch other : Patch)

/-- On a name that both have, the entry of the overriding patch counts. -/
theorem get?_overriddenBy (name : String) :
    (patch.overriddenBy other).get? name = (other.get? name).or (patch.get? name) :=
  get?_foldl_insert other.nodup_names patch name

variable {patch other}

/-- Patches that suit a shape make one that suits it. -/
theorem Suits.overriddenBy (suits : patch.Suits shape) (otherSuits : other.Suits shape) :
    (patch.overriddenBy other).Suits shape := by
  rw [suits_iff] at suits otherSuits ⊢
  intro name value given
  rw [get?_overriddenBy] at given
  cases own : other.get? name with
  | none =>
      rw [own, Option.none_or] at given
      exact suits name value given
  | some replaced =>
      rw [own, Option.some_or] at given
      exact otherSuits name value (own.trans given)

/-- What an overriding patch that suits the shape gives a field, the field gets. -/
theorem bound?_overriddenBy (otherSuits : other.Suits shape) (name : String) :
    (patch.overriddenBy other).bound? shape name =
      (other.bound? shape name).or (patch.bound? shape name) := by
  cases own : other.get? name with
  | none => simp only [bound?, get?_overriddenBy, own, Option.none_or, Option.bind_none]
  | some value =>
      have same : (patch.overriddenBy other).bound? shape name = other.bound? shape name := by
        simp only [bound?, get?_overriddenBy, own, Option.some_or]
      rw [same]
      rcases otherSuits.bound?_cases own with fixed | ⟨bound, gives⟩
      · rw [fixed other, fixed patch, Option.none_or]
      · rw [gives, Option.some_or]

/-- A patch adds nothing to itself. -/
theorem bound?_overriddenBy_self (suits : patch.Suits shape) (name : String) :
    (patch.overriddenBy patch).bound? shape name = patch.bound? shape name := by
  rw [bound?_overriddenBy suits, Option.or_self]

/-- No field but the key has an entry in both patches. -/
def Apart (patch other : Patch) (shape : Shape) : Prop :=
  ∀ name, name ≠ shape.keyName → patch.get? name = none ∨ other.get? name = none

/-- Of patches for different fields it does not matter which one overrides the other. -/
theorem bound?_overriddenBy_comm
    (suits : patch.Suits shape) (otherSuits : other.Suits shape)
    (apart : patch.Apart other shape) (name : String) :
    (patch.overriddenBy other).bound? shape name =
      (other.overriddenBy patch).bound? shape name := by
  rw [bound?_overriddenBy otherSuits, bound?_overriddenBy suits]
  by_cases key : name = shape.keyName
  · rw [key, bound?_keyName, bound?_keyName]
  · rcases apart name key with missing | missing
    · have given : patch.bound? shape name = none := by rw [bound?, missing, Option.bind_none]
      rw [given, Option.or_none, Option.none_or]
    · have given : other.bound? shape name = none := by rw [bound?, missing, Option.bind_none]
      rw [given, Option.or_none, Option.none_or]

end Patch

namespace Record

/-- The values that are given last count. -/
theorem rebind_rebind (first second : String → Option Value) (record : Record) :
    (record.rebind first).rebind second =
      record.rebind fun name => (second name).or (first name) := by
  obtain ⟨type, cells, relations⟩ := record
  simp only [rebind, scalars, List.map_map, mk.injEq]
  refine ⟨rfl, List.map_congr_left fun cell _ => ?_, rfl⟩
  cases given : second cell.name with
  | none => simp [given]
  | some value => simp [given]

end Record

end EntityAccess
