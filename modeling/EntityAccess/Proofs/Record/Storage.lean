import EntityAccess.Proofs.Value.Order
import EntityAccess.Sample

/-!
# Stored records

A record as a store of a shape keeps it: one scalar for each scalar field, in the
same order, each backed by a slot of full width and holding a value of that slot.
A write changes what one scalar reads and nothing else, and a stored record can be
given any values that its fields admit.
-/

namespace EntityAccess

/-! ## Writes -/

/-- Among entries without a repeated name, the one that is found is the one that is there. -/
theorem Entries.lookup_eq_some_iff_mem
    {α : Type} {entries : List (String × α)} (distinct : (entries.map Prod.fst).Nodup)
    {name : String} {content : α} :
    entries.lookup name = some content ↔ (name, content) ∈ entries := by
  induction entries with
  | nil => simp
  | cons entry rest ih =>
      obtain ⟨first, here⟩ := entry
      obtain ⟨fresh, distinctRest⟩ := List.nodup_cons.1 distinct
      by_cases same : name = first
      · subst same
        have absent : (name, content) ∉ rest := fun inRest =>
          fresh (List.mem_map.2 ⟨_, inRest, rfl⟩)
        simp [absent, eq_comm]
      · simp [List.lookup_cons, beq_false_of_ne same, same, ih distinctRest]

/-- A name that no entry has is not found. -/
theorem Entries.lookup_eq_none
    {α : Type} {entries : List (String × α)} {name : String}
    (missing : name ∉ entries.map Prod.fst) : entries.lookup name = none := by
  rw [List.lookup_eq_none_iff]
  intro entry isEntry
  simpa using fun same : name = entry.1 => missing (List.mem_map.2 ⟨entry, isEntry, same.symm⟩)

namespace Record

/-- The names and the slots of the scalars in order. -/
def layout (record : Record) : List (String × Slot) :=
  record.scalars.map fun cell => (cell.name, cell.slot)

theorem map_fst_layout (record : Record) :
    record.layout.map Prod.fst = record.scalars.map ScalarCell.name := by
  rw [layout, List.map_map]
  rfl

/-- The slot that backs a scalar field. -/
def slot? (record : Record) (field : String) : Option Slot :=
  record.layout.lookup field

/-- What a field reads after a value is written to it, if its slot takes the value. -/
def stored? (record : Record) (field : String) (value : Value) : Option Value :=
  (record.slot? field).bind fun slot => slot.assign? value

theorem slot?_eq (record : Record) (field : String) :
    record.slot? field =
      (record.scalars.find? fun cell => cell.name == field).map ScalarCell.slot := by
  unfold slot? layout
  induction record.scalars with
  | nil => rfl
  | cons cell rest ih =>
      by_cases here : cell.name = field
      · simp [here]
      · have different : (field == cell.name) = false := by simpa using Ne.symm here
        simp [List.lookup_cons, different, here, ih]

theorem stored?_eq (record : Record) (field : String) (value : Value) :
    record.stored? field value =
      (record.scalars.find? fun cell => cell.name == field).bind fun cell =>
        cell.slot.assign? value := by
  rw [stored?, slot?_eq, Option.bind_map]
  rfl

/-- The fields with a slot are those that read a scalar. -/
theorem isSome_slot? (record : Record) (field : String) :
    (record.slot? field).isSome = (record.scalar? field).isSome := by
  rw [slot?_eq, scalar?, Option.isSome_map, Option.isSome_map]

/-- A field that takes a value reads one. -/
theorem exists_scalar?_of_stored?
    {record : Record} {field : String} {value stored : Value}
    (takes : record.stored? field value = some stored) :
    ∃ held, record.scalar? field = some held := by
  rw [← Option.isSome_iff_exists, ← isSome_slot?]
  exact Option.isSome_of_isSome_bind (by rw [← Record.stored?, takes]; rfl)

/-- Records of one layout have the same scalars. -/
theorem scalar?_eq_none_of_layout
    {left right : Record} (layouts : left.layout = right.layout) {field : String}
    (missing : right.scalar? field = none) : left.scalar? field = none := by
  rw [← Option.not_isSome_iff_eq_none, ← isSome_slot?, slot?, layouts, ← slot?, isSome_slot?,
    missing]
  exact Bool.false_ne_true

section OneWrite

variable {record written : Record} {field : String} {value : Value}

/-- Cells take a value when the slot of the first cell with the name does. -/
theorem isSome_setCells? (field : String) (value : Value) (cells : List ScalarCell) :
    (setCells? field value cells).isSome =
      ((cells.find? fun cell => cell.name == field).bind fun cell =>
        cell.slot.assign? value).isSome := by
  induction cells with
  | nil => rfl
  | cons cell rest ih =>
      by_cases here : cell.name = field
      · simp [setCells?, here]
      · simp [setCells?, here, ih]

/-- A record takes a value when the slot of the field does. -/
theorem isSome_set? (record : Record) (field : String) (value : Value) :
    (record.set? field value).isSome = (record.stored? field value).isSome := by
  rw [set?, Option.isSome_map, isSome_setCells?, stored?_eq]

theorem layout_of_setCells?
    {cells changed : List ScalarCell} (done : setCells? field value cells = some changed) :
    changed.map (fun cell => (cell.name, cell.slot)) =
      cells.map fun cell => (cell.name, cell.slot) := by
  induction cells generalizing changed with
  | nil => cases done
  | cons cell rest ih =>
      simp only [setCells?] at done
      split at done
      · obtain ⟨stored, _, rfl⟩ := Option.map_eq_some_iff.1 done
        rfl
      · obtain ⟨tail, doneRest, rfl⟩ := Option.map_eq_some_iff.1 done
        simp [ih doneRest]

theorem layout_of_set? (done : record.set? field value = some written) :
    written.layout = record.layout := by
  obtain ⟨cells, doneCells, rfl⟩ := Option.map_eq_some_iff.1 done
  exact layout_of_setCells? doneCells

/-- A write leaves open to later writes what was open before. -/
theorem stored?_of_set? (done : record.set? field value = some written) (name : String)
    (other : Value) : written.stored? name other = record.stored? name other := by
  rw [stored?, stored?, slot?, slot?, layout_of_set? done]

/-- The written field reads what its slot made of the value. -/
theorem scalar?_after_set? (done : record.set? field value = some written) (name : String) :
    written.scalar? name =
      if name = field then record.stored? name value else record.scalar? name := by
  rw [scalar?_of_set? done, stored?_eq]

end OneWrite

/-- Cells with equal layouts and without repeated names are told apart by what they read. -/
theorem cells_eq_of_reads
    {left right : List ScalarCell}
    (layouts : left.map (fun cell => (cell.name, cell.slot)) =
      right.map fun cell => (cell.name, cell.slot))
    (distinct : (left.map ScalarCell.name).Nodup)
    (reads : ∀ name, (left.find? fun cell => cell.name == name).map ScalarCell.value =
      (right.find? fun cell => cell.name == name).map ScalarCell.value) :
    left = right := by
  induction left generalizing right with
  | nil => exact (List.map_eq_nil_iff.1 layouts.symm).symm
  | cons cell rest ih =>
      cases right with
      | nil => cases layouts
      | cons other others =>
          obtain ⟨name, slot, value⟩ := cell
          obtain ⟨otherName, otherSlot, otherValue⟩ := other
          simp only [List.map_cons, List.cons.injEq, Prod.mk.injEq] at layouts
          obtain ⟨⟨rfl, rfl⟩, layoutsRest⟩ := layouts
          obtain ⟨fresh, distinctRest⟩ := List.nodup_cons.1 distinct
          have here := reads name
          simp only [List.find?_cons, beq_self_eq_true, Option.map_some, Option.some.injEq] at here
          subst here
          refine congrArg _ (ih layoutsRest distinctRest fun wanted => ?_)
          by_cases first : name = wanted
          · -- Neither rest has a cell with the name of the first one.
            subst first
            have names : rest.map ScalarCell.name = others.map ScalarCell.name := by
              have firsts := congrArg (List.map Prod.fst) layoutsRest
              rw [List.map_map, List.map_map] at firsts
              exact firsts
            have missing {cells : List ScalarCell} (absent : name ∉ cells.map ScalarCell.name) :
                cells.find? (fun cell => cell.name == name) = none := by
              simpa using absent
            rw [missing fresh, missing (names ▸ fresh)]
          · simpa [List.find?_cons, first] using reads wanted

/-- Records of one layout without repeated names are equal if they read alike. -/
theorem eq_of_reads
    {left right : Record} (type : left.type = right.type) (layouts : left.layout = right.layout)
    (distinct : (left.layout.map Prod.fst).Nodup) (relations : left.relations = right.relations)
    (reads : ∀ name, left.scalar? name = right.scalar? name) : left = right := by
  obtain ⟨leftType, leftCells, leftRelations⟩ := left
  obtain ⟨rightType, rightCells, rightRelations⟩ := right
  have cells : leftCells = rightCells :=
    cells_eq_of_reads layouts (map_fst_layout (.mk leftType leftCells leftRelations) ▸ distinct)
      reads
  obtain rfl : leftType = rightType := type
  obtain rfl : leftRelations = rightRelations := relations
  rw [cells]

end Record

/-! ## Records of a shape -/

/-- Every value of a type is stored as it is. -/
theorem SlotType.store?_of_kind
    {type : ScalarType} {value : Value} (fits : value.kind = type.valueKind) :
    (SlotType.ofScalar type).store? value = some value := by
  cases type <;> cases value <;> first | rfl | cases fits

namespace Slot

/-- The slot can hold the value: written to it, the value reads as it is. -/
def Holds (slot : Slot) (value : Value) : Prop :=
  slot.assign? value = some value

/-- The slot of a type holds every value of the type, also where it takes null besides. -/
theorem holds_of_kind
    {type : ScalarType} {value : Value} (fits : value.kind = type.valueKind) (nullable : Bool) :
    Holds ⟨SlotType.ofScalar type, nullable⟩ value := by
  have present : value.isNull = false :=
    Value.isNull_eq_false_iff.2 (ScalarType.ne_null_of_kind fits)
  rw [Holds, assign?, present, Bool.and_false, if_neg Bool.false_ne_true]
  exact SlotType.store?_of_kind fits

/-- The slot of a field holds what the field admits. -/
theorem holds_of_admits
    {field : Field} {slot : Slot} {value : Value}
    (backs : ofField? field = some slot) (admits : field.Admits value) : slot.Holds value := by
  obtain ⟨type, scalar, rfl⟩ := Option.map_eq_some_iff.1 backs
  cases admits with
  | absent _ nullable => simp [Holds, assign?, nullable]
  | @present declared _ declares fits =>
      rw [declares] at scalar
      obtain rfl : declared = type := Option.some.inj scalar
      exact holds_of_kind fits field.nullable

/-- What a slot made of a value, it holds. -/
theorem holds_of_assign?
    {slot : Slot} {value stored : Value} (assigned : slot.assign? value = some stored) :
    slot.Holds stored := by
  obtain ⟨type, nullable⟩ := slot
  unfold assign? at assigned
  unfold Holds assign?
  split at assigned
  · rename_i absent
    obtain rfl := Option.some.inj assigned
    have accepts : nullable = true := (Bool.and_eq_true_iff.1 absent).1
    simp [accepts, Value.isNull]
  · cases type with
    | int32 =>
        obtain ⟨n, isInt, rfl⟩ := Option.map_eq_some_iff.1 assigned
        obtain ⟨_, inRange⟩ := Option.filter_eq_some_iff.1 isInt
        simp only [Value.isNull, toValue, SlotType.store?, Value.asInt?, Bool.and_false,
          Bool.false_eq_true, if_false]
        rw [Option.filter_some, if_pos inRange]
        rfl
    | bool | int64 | float | text | uuid | dateTime =>
        obtain ⟨content, _, rfl⟩ := Option.map_eq_some_iff.1 assigned
        simp [Value.isNull, toValue, SlotType.store?, Value.asBool?, Value.asInt?,
          Value.asFloat?, Value.asText?, Value.asUuid?, Value.asDateTime?]

end Slot

/-- A literal that is bound to a field becomes a value that the field admits. -/
theorem Field.admits_of_coerce
    {field : Field} {literal bound : Value} (coerced : field.coerce literal = .ok bound) :
    field.Admits bound := by
  unfold coerce at coerced
  split at coerced
  · cases coerced
  · rename_i type scalar
    split at coerced
    · split at coerced
      · rename_i nullable
        obtain rfl := Except.ok.inj coerced
        exact .absent scalar nullable
      · cases coerced
    · exact .present scalar (ScalarType.kind_of_coerce coerced)

namespace Shape

/-- The names and the slots of the scalar fields in order. -/
def layout (shape : Shape) : List (String × Slot) :=
  shape.fields.filterMap fun field => (Slot.ofField? field).map fun slot => (field.name, slot)

theorem map_fst_layout (shape : Shape) :
    shape.layout.map Prod.fst = shape.scalars.map Field.name := by
  unfold layout scalars
  induction shape.fields with
  | nil => rfl
  | cons field rest ih =>
      obtain ⟨name, kind, nullable, key, readOnly⟩ := field
      cases kind with
      | scalar type =>
          simpa [Slot.ofField?, FieldKind.scalar?, Field.isRelation, FieldKind.isRelation] using ih
      | relation target cardinality =>
          simpa [Slot.ofField?, FieldKind.scalar?, Field.isRelation, FieldKind.isRelation] using ih

theorem nodup_layout (shape : Shape) : (shape.layout.map Prod.fst).Nodup := by
  rw [map_fst_layout]
  exact shape.names_fields_nodup.sublist (List.filter_sublist.map Field.name)

/-- A name has the slot of the scalar field with that name. -/
theorem lookup_layout (shape : Shape) {name : String} {field : Field} {slot : Slot}
    (found : shape.field? name = some field) (backs : Slot.ofField? field = some slot) :
    shape.layout.lookup name = some slot := by
  obtain ⟨mem, rfl⟩ := field?_eq_some_iff.1 found
  rw [Entries.lookup_eq_some_iff_mem shape.nodup_layout]
  exact List.mem_filterMap.2 ⟨field, mem, by rw [backs]; rfl⟩

end Shape

@[simp]
theorem Record.scalars_prune (e : Expansion) (record : Record) :
    (record.prune e).scalars = record.scalars := by
  cases record
  rfl

@[simp]
theorem Shape.keyOf_prune (shape : Shape) (e : Expansion) (record : Record) :
    shape.keyOf (record.prune e) = shape.keyOf record := by
  simp only [keyOf, Record.scalar?, Record.scalars_prune]

namespace Record

/-- The record is laid out as its shape says, and each of its slots holds its value. -/
structure Fits (shape : Shape) (record : Record) : Prop where
  type : record.type = shape.type
  layout : record.layout = shape.layout
  holds : ∀ cell ∈ record.scalars, cell.slot.Holds cell.value

/-- The record with new values for some of its scalars. -/
def rebind (values : String → Option Value) (record : Record) : Record :=
  .mk record.type
    (record.scalars.map fun cell => { cell with value := (values cell.name).getD cell.value })
    record.relations

section Rebinding

variable (values : String → Option Value) (record : Record)

@[simp]
theorem layout_rebind : (record.rebind values).layout = record.layout := by
  simp [layout, rebind, scalars, Function.comp_def]

theorem scalar?_rebind (name : String) :
    (record.rebind values).scalar? name =
      (record.scalar? name).map fun old => (values name).getD old := by
  obtain ⟨type, cells, relations⟩ := record
  simp only [scalar?, rebind, scalars]
  induction cells with
  | nil => rfl
  | cons cell rest ih =>
      by_cases here : cell.name = name
      · simp [here]
      · simpa [here] using ih

/-- Whatever is dropped from the relations, the same scalars get the same values. -/
theorem rebind_prune (e : Expansion) :
    (record.prune e).rebind values = (record.rebind values).prune e := by
  cases record
  rfl

end Rebinding

section Fitting

variable {shape : Shape} {record : Record}

/-- Relations do not matter for whether a record fits its shape. -/
theorem Fits.of_scalars
    {other : Record} (fits : record.Fits shape) (type : other.type = record.type)
    (scalars : other.scalars = record.scalars) : other.Fits shape where
  type := type.trans fits.type
  layout := by
    rw [Record.layout, scalars]
    exact fits.layout
  holds := scalars ▸ fits.holds

theorem Fits.prune (fits : record.Fits shape) (e : Expansion) : (record.prune e).Fits shape := by
  refine fits.of_scalars ?_ (record.scalars_prune e)
  cases record
  rfl

/-- A cell after a write is a cell from before, or one that holds what its slot took. -/
theorem mem_setCells?
    {name : String} {value : Value} {cells written : List ScalarCell}
    (done : setCells? name value cells = some written) {cell : ScalarCell}
    (isCell : cell ∈ written) : cell ∈ cells ∨ cell.slot.Holds cell.value := by
  induction cells generalizing written with
  | nil => cases done
  | cons first rest ih =>
      simp only [setCells?] at done
      split at done
      · obtain ⟨stored, assigned, rfl⟩ := Option.map_eq_some_iff.1 done
        rcases List.mem_cons.1 isCell with rfl | inRest
        · exact Or.inr (Slot.holds_of_assign? assigned)
        · exact Or.inl (List.mem_cons_of_mem _ inRest)
      · obtain ⟨tail, doneRest, rfl⟩ := Option.map_eq_some_iff.1 done
        rcases List.mem_cons.1 isCell with rfl | inTail
        · exact Or.inl List.mem_cons_self
        · exact (ih doneRest inTail).imp (List.mem_cons_of_mem _) id

/-- Whatever is written to a stored record, it can be stored. -/
theorem Fits.of_set?
    (fits : record.Fits shape) {written : Record} {name : String} {value : Value}
    (done : record.set? name value = some written) : written.Fits shape where
  type := (type_of_set? done).trans fits.type
  layout := (layout_of_set? done).trans fits.layout
  holds := by
    intro cell isCell
    obtain ⟨cells, doneCells, rfl⟩ := Option.map_eq_some_iff.1 done
    rcases mem_setCells? doneCells isCell with wasCell | holds
    · exact fits.holds cell wasCell
    · exact holds

theorem Fits.getD_set? (fits : record.Fits shape) (name : String) (value : Value) :
    ((record.set? name value).getD record).Fits shape := by
  cases done : record.set? name value with
  | none => exact fits
  | some written => exact fits.of_set? done

theorem Fits.changeRelation
    (fits : record.Fits shape) (name : String) (change : Relation → Relation) :
    (record.changeRelation name change).Fits shape :=
  fits.of_scalars rfl rfl

theorem Fits.distinct (fits : record.Fits shape) : (record.layout.map Prod.fst).Nodup :=
  fits.layout ▸ shape.nodup_layout

/-- Where the shape has no scalar field, a stored record reads none. -/
theorem Fits.scalar?_eq_none
    (fits : record.Fits shape) {name : String} (other : name ∉ shape.scalars.map Field.name) :
    record.scalar? name = none := by
  rw [← Option.not_isSome_iff_eq_none, ← isSome_slot?, slot?, fits.layout]
  rw [← Shape.map_fst_layout] at other
  intro found
  obtain ⟨slot, isSlot⟩ := Option.isSome_iff_exists.1 found
  have mem := (Entries.lookup_eq_some_iff_mem shape.nodup_layout).1 isSlot
  exact other (List.mem_map.2 ⟨_, mem, rfl⟩)

/-- What a scalar of a stored record reads can be written back. -/
theorem Fits.stored?_of_scalar?
    (fits : record.Fits shape) {name : String} {value : Value}
    (reads : record.scalar? name = some value) : record.stored? name value = some value := by
  obtain ⟨cell, found, rfl⟩ := Option.map_eq_some_iff.1 reads
  rw [stored?_eq, found]
  exact fits.holds cell (List.mem_of_find?_eq_some found)

/-- A value that a field admits can be written to a stored record. -/
theorem Fits.stored?_of_admits
    (fits : record.Fits shape) {name : String} {field : Field} {value : Value}
    (found : shape.field? name = some field) (admits : field.Admits value) :
    record.stored? name value = some value := by
  have scalar : ∃ slot, Slot.ofField? field = some slot := by
    cases admits with
    | absent scalar _ | present scalar _ => exact ⟨_, by rw [Slot.ofField?, scalar]; rfl⟩
  obtain ⟨slot, backs⟩ := scalar
  rw [stored?, slot?, fits.layout, shape.lookup_layout found backs]
  exact Slot.holds_of_admits backs admits

/-- A stored record with values that its fields admit is one that can be stored. -/
theorem Fits.rebind
    (fits : record.Fits shape) {values : String → Option Value}
    (admitted : ∀ name value, values name = some value →
      ∃ field, shape.field? name = some field ∧ field.Admits value) :
    (record.rebind values).Fits shape where
  type := fits.type
  layout := (record.layout_rebind values).trans fits.layout
  holds := by
    intro cell isCell
    obtain ⟨old, isOld, rfl⟩ := List.mem_map.1 isCell
    cases given : values old.name with
    | none => exact fits.holds old isOld
    | some value =>
        obtain ⟨field, found, admits⟩ := admitted _ _ given
        have stored := fits.stored?_of_admits found admits
        have backs : record.slot? old.name = some old.slot :=
          (Entries.lookup_eq_some_iff_mem fits.distinct).2 (List.mem_map.2 ⟨old, isOld, rfl⟩)
        rw [stored?, backs, Option.bind_some] at stored
        exact stored

/-- A record that differs from a stored one in some scalars is that one with their values. -/
theorem Fits.eq_rebind
    (fits : record.Fits shape) {written : Record} {values : String → Option Value}
    (type : written.type = record.type) (layout : written.layout = record.layout)
    (relations : written.relations = record.relations)
    (reads : ∀ name, written.scalar? name =
      (record.scalar? name).map fun old => (values name).getD old) :
    written = record.rebind values := by
  refine eq_of_reads type (layout.trans (record.layout_rebind values).symm) ?_ relations ?_
  · exact layout ▸ fits.distinct
  · intro name
    rw [reads, scalar?_rebind]

end Fitting

end Record

/-! ## Records of the samples -/

namespace Sample

/-- Persons can be stored, whatever their fields hold. -/
theorem fits_person_of
    (id : Int64) (name : String) (age : Int64) (email : Option String) (score : Binary64)
    (active : Bool) (createdAt : Instant) (cityId : Option Uuid) (relations : List Relation) :
    Record.Fits personShape (.mk personShape.type
      [cell "id" .int64 (toValue id), cell "name" .text (toValue name),
        cell "age" .int64 (toValue age), nullableCell "email" .text (toValue email),
        cell "score" .float (toValue score), cell "active" .bool (toValue active),
        cell "created_at" .dateTime (toValue createdAt),
        nullableCell "city_id" .uuid (toValue cityId)] relations) where
  type := rfl
  layout := rfl
  holds := by
    simp only [Record.scalars, List.forall_mem_cons]
    refine ⟨rfl, rfl, rfl, ?_, rfl, rfl, rfl, ?_, List.forall_mem_nil _⟩
    · cases email <;> rfl
    · cases cityId <;> rfl

/-- So can cities. -/
theorem fits_city_of
    (id : Uuid) (name : String) (population : Int64) (demonym : Option String)
    (number : Option Int64) (relations : List Relation) :
    Record.Fits cityShape (.mk cityShape.type
      [cell "id" .uuid (toValue id), cell "name" .text (toValue name),
        cell "population" .int64 (toValue population),
        nullableCell "demonym" .text (toValue demonym),
        nullableCell "some_nullable_int" .int64 (toValue number)] relations) where
  type := rfl
  layout := rfl
  holds := by
    simp only [Record.scalars, List.forall_mem_cons]
    refine ⟨rfl, rfl, rfl, ?_, ?_, List.forall_mem_nil _⟩
    · cases demonym <;> rfl
    · cases number <;> rfl

/-- So can tree items. -/
theorem fits_treeItem_of
    (id : Int64) (name : String) (parentId : Option Int64) (relations : List Relation) :
    Record.Fits treeItemShape (.mk treeItemShape.type
      [cell "id" .int64 (toValue id), cell "name" .text (toValue name),
        nullableCell "parent_id" .int64 (toValue parentId)] relations) where
  type := rfl
  layout := rfl
  holds := by
    simp only [Record.scalars, List.forall_mem_cons]
    refine ⟨rfl, rfl, ?_, List.forall_mem_nil _⟩
    cases parentId <;> rfl

theorem fits_person (id : Int64) (name : String) (age : Int64) :
    (person id name age).Fits personShape :=
  fits_person_of id name age none Binary64.zero true Instant.epoch none _

theorem fits_city (id : Uuid) (name : String) (population : Int64) :
    (city id name population).Fits cityShape :=
  fits_city_of id name population none none _

theorem fits_treeItem (id : Int64) (name : String) : (treeItem id name).Fits treeItemShape :=
  fits_treeItem_of id name none _

theorem fits_withParent
    {item : Record} (fits : item.Fits treeItemShape) (parent : Record) :
    (withParent item parent).Fits treeItemShape :=
  (fits.getD_set? "parent_id" (treeItemShape.keyOf parent)).changeRelation "parent" _

theorem fits_withCity
    {person : Record} (fits : person.Fits personShape) (city : Record) :
    (withCity person city).Fits personShape :=
  (fits.getD_set? "city_id" (cityShape.keyOf city)).changeRelation "city" _

end Sample

end EntityAccess
