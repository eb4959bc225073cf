import EntityAccess.Proofs.Shape.Resolution
import Mathlib.Data.List.Induction
import Mathlib.Data.List.Nodup

/-!
# Declared shapes

Calls declare a shape exactly when no name repeats, the name of the key included.
The shape has the key first and the declared fields in the order of the calls, and
it finds each by its name, also through an index of positions.  Otherwise the
declaration is refused at the first call whose name is taken.
-/

namespace EntityAccess

/-! ## Fields by the positions of their names -/

namespace Field

/-- The position of each name among the fields; the later of two positions is kept. -/
def positions (fields : List Field) : Std.HashMap String Nat :=
  .ofList (fields.map name).zipIdx

/-- The field at the position of a name, where the name has one. -/
def readNamed (fields : List Field) (name : String) : Except OutOfBounds (Option Field) :=
  match (positions fields)[name]? with
  | some position => (Outcome.readAt fields position).map some
  | none => .ok none

theorem positions_append_singleton (fields : List Field) (field : Field) :
    positions (fields ++ [field]) = (positions fields).insert field.name fields.length := by
  rw [positions, positions, Std.HashMap.ofList_eq_insertMany_empty,
    Std.HashMap.ofList_eq_insertMany_empty, List.map_append, List.zipIdx_append,
    Std.HashMap.insertMany_append]
  simp

theorem readNamed_nil (name : String) : readNamed [] name = .ok none := by
  have empty : (positions [])[name]? = none := Std.HashMap.getElem?_empty
  rw [readNamed, empty]

/-- A new field is read by its name; any other name reads what it read. -/
theorem readNamed_append_singleton
    {fields : List Field} {name : String} {found : Option Field}
    (read : readNamed fields name = .ok found) (field : Field) :
    readNamed (fields ++ [field]) name = .ok (if field.name = name then some field else found) := by
  rw [readNamed, positions_append_singleton, Std.HashMap.getElem?_insert]
  by_cases same : field.name = name
  · rw [if_pos (beq_iff_eq.2 same), if_pos same]
    exact Outcome.map_eq_ok_iff.2
      ⟨field, Outcome.readAt_eq_ok_iff.2 List.getElem?_concat_length, rfl⟩
  · rw [if_neg (mt beq_iff_eq.1 same), if_neg same]
    rw [readNamed] at read
    cases indexed : (positions fields)[name]? with
    | none =>
        rw [indexed] at read
        exact read
    | some position =>
        rw [indexed] at read
        obtain ⟨earlier, readEarlier, isFound⟩ := Outcome.map_eq_ok_iff.1 read
        have stands := Outcome.readAt_eq_ok_iff.1 readEarlier
        obtain ⟨inRange, _⟩ := List.getElem?_eq_some_iff.1 stands
        refine Outcome.map_eq_ok_iff.2 ⟨earlier, Outcome.readAt_eq_ok_iff.2 ?_, isFound⟩
        rw [List.getElem?_append_left inRange]
        exact stands

/-- By its position a name reads the last field that has it, also where names repeat. -/
theorem readNamed_eq (fields : List Field) (name : String) :
    readNamed fields name = .ok (fields.reverse.find? fun field => field.name == name) := by
  -- The index grows at the end of the fields, so the induction does.
  induction fields using List.reverseRecOn with
  | nil => exact readNamed_nil name
  | append_singleton fields field ih =>
      rw [readNamed_append_singleton ih, List.reverse_concat, List.find?_cons]
      by_cases same : field.name = name
      · rw [if_pos same, beq_iff_eq.2 same]
      · rw [if_neg same, beq_eq_false_iff_ne.2 same]

/-- The later of two fields with one name hides the earlier. -/
example : readNamed [.scalar "title" .text, .nullableScalar "title" .text] "title" =
    .ok (some (.nullableScalar "title" .text)) :=
  readNamed_eq _ _

end Field

namespace Shape

/-- In a shape the position of a name leads to the field that has the name. -/
theorem readNamed_fields (shape : Shape) (name : String) :
    Field.readNamed shape.fields name = .ok (shape.field? name) := by
  rw [Field.readNamed_eq]
  refine congrArg Except.ok ?_
  cases found : shape.field? name with
  | none =>
      have others := field?_eq_none_iff.1 found
      rw [List.find?_eq_none]
      intro field declared sameName
      exact others field (List.mem_reverse.1 declared) (beq_iff_eq.1 sameName)
  | some field =>
      obtain ⟨declared, rfl⟩ := field?_eq_some_iff.1 found
      refine find?_name_of_mem ?_ (List.mem_reverse.2 declared)
      rw [List.map_reverse, List.nodup_reverse]
      exact shape.names_fields_nodup

end Shape

/-! ## Declarations -/

/-- The first of the calls whose name is taken, by the key or by a call before it. -/
structure Declaration.FirstRepeated
    (keyName : String) (calls before : List Declaration) (call : Declaration) : Prop where
  stands : ∃ after, calls = before ++ call :: after
  distinct : (keyName :: before.map name).Nodup
  taken : call.name ∈ keyName :: before.map name

/--
The shape of a type has the key first and the declared fields in order, finds
exactly these by their names, in the fields as well as by position, and has the
relations among them.
-/
structure Shape.DeclaredBy
    (type : TypeName) (key : Field) (declared : List Field) (shape : Shape) : Prop where
  type_eq : shape.type = type
  fields_eq : shape.fields = key :: declared
  distinct : (shape.fields.map Field.name).Nodup
  found : ∀ field ∈ key :: declared, shape.field? field.name = some field
  missing : ∀ name, name ∉ (key :: declared).map Field.name → shape.field? name = none
  indexed : ∀ name, Field.readNamed shape.fields name = .ok (shape.field? name)
  keyed : shape.field? key.name = some shape.keyField
  relations_sublist : shape.relations.Sublist declared
  mem_relations_iff : ∀ field, field ∈ shape.relations ↔
    field ∈ declared ∧ ∃ target cardinality, field.kind = .relation target cardinality

theorem Field.isRelation_iff {field : Field} :
    field.isRelation = true ↔ ∃ target cardinality, field.kind = .relation target cardinality := by
  constructor
  · intro relation
    cases kind : field.kind with
    | scalar type =>
        rw [isRelation_of_scalar kind] at relation
        cases relation
    | relation target cardinality => exact ⟨target, cardinality, rfl⟩
  · rintro ⟨target, cardinality, kind⟩
    exact isRelation_of_relation kind

namespace Shape

section Push

variable {shape next : Shape} {field : Field}

theorem eq_of_fields (types : shape.type = next.type) (fields : shape.fields = next.fields) :
    shape = next := by
  obtain ⟨keys, others⟩ := List.cons.inj fields
  have keyNames : shape.keyName = next.keyName := congrArg Field.name keys
  have keyTypes : shape.keyType = next.keyType := FieldKind.scalar.inj (congrArg Field.kind keys)
  obtain ⟨type, keyName, keyType, declared, distinct⟩ := shape
  obtain rfl := types
  obtain rfl := keyNames
  obtain rfl := keyTypes
  obtain rfl := others
  rfl

/-- A field whose name is taken is refused, with the name and the shape. -/
theorem push_of_taken (taken : field.name ∈ shape.fields.map Field.name) :
    shape.push field = .error ⟨field.name, shape.name⟩ :=
  dif_pos taken

/-- A field whose name is free goes to the end. -/
theorem exists_push (free : field.name ∉ shape.fields.map Field.name) :
    ∃ next, shape.push field = .ok next ∧ next.type = shape.type ∧
      next.fields = shape.fields ++ [field] :=
  ⟨_, dif_neg free, rfl, rfl⟩

theorem push_eq_ok_iff :
    shape.push field = .ok next ↔
      field.name ∉ shape.fields.map Field.name ∧ next.type = shape.type ∧
        next.fields = shape.fields ++ [field] := by
  constructor
  · intro done
    by_cases taken : field.name ∈ shape.fields.map Field.name
    · rw [push_of_taken taken] at done
      cases done
    · obtain ⟨reached, pushed, types, fields⟩ := exists_push taken
      obtain rfl := Except.ok.inj (pushed.symm.trans done)
      exact ⟨taken, types, fields⟩
  · rintro ⟨free, types, fields⟩
    obtain ⟨reached, pushed, reachedType, reachedFields⟩ := exists_push free
    rw [pushed, eq_of_fields (reachedType.trans types.symm) (reachedFields.trans fields.symm)]

theorem push_eq_error_iff {e : DuplicateField} :
    shape.push field = .error e ↔
      field.name ∈ shape.fields.map Field.name ∧ e = ⟨field.name, shape.name⟩ := by
  constructor
  · intro refused
    by_cases taken : field.name ∈ shape.fields.map Field.name
    · rw [push_of_taken taken] at refused
      exact ⟨taken, (Except.error.inj refused).symm⟩
    · obtain ⟨reached, pushed, -, -⟩ := exists_push taken
      rw [pushed] at refused
      cases refused
  · rintro ⟨taken, rfl⟩
    exact push_of_taken taken

end Push

/-- Fields go to the end one after the other as long as no name repeats. -/
theorem foldlM_push_eq_ok_iff {fields : List Field} {shape next : Shape} :
    fields.foldlM push shape = .ok next ↔
      ((shape.fields ++ fields).map Field.name).Nodup ∧ next.type = shape.type ∧
        next.fields = shape.fields ++ fields := by
  induction fields generalizing shape with
  | nil =>
      rw [List.append_nil]
      constructor
      · intro done
        obtain rfl := Except.ok.inj done
        exact ⟨shape.names_fields_nodup, rfl, rfl⟩
      · rintro ⟨-, types, fields⟩
        exact congrArg Except.ok (eq_of_fields types.symm fields.symm)
  | cons field rest ih =>
      rw [List.foldlM_cons, Outcome.bind_eq_ok_iff, ← List.singleton_append, ← List.append_assoc]
      constructor
      · rintro ⟨reached, done, doneRest⟩
        obtain ⟨-, types, fields⟩ := push_eq_ok_iff.1 done
        rw [← types, ← fields]
        exact ih.1 doneRest
      · intro accepted
        have distinct := accepted.1
        rw [List.map_append, List.map_append] at distinct
        -- A name that is taken would stand twice among the fields of the whole run.
        have free : field.name ∉ shape.fields.map Field.name := by
          intro taken
          have apart := List.disjoint_of_nodup_append distinct.of_append_left
          exact apart taken (List.mem_singleton_self field.name)
        obtain ⟨reached, done, types, fields⟩ := exists_push free
        rw [← types, ← fields] at accepted
        exact ⟨reached, done, ih.2 accepted⟩

section Declare

variable {type : TypeName} {keyName : String} {keyType : ScalarType} {declared : List Field}

theorem declare_eq_ok_iff {shape : Shape} :
    declare type keyName keyType declared = .ok shape ↔
      (keyName :: declared.map Field.name).Nodup ∧ shape.type = type ∧
        shape.fields = Field.identity keyName keyType :: declared :=
  foldlM_push_eq_ok_iff

/-- Fields declare a shape exactly if no name repeats. -/
theorem exists_declare_iff :
    (∃ shape, declare type keyName keyType declared = .ok shape) ↔
      (keyName :: declared.map Field.name).Nodup := by
  constructor
  · rintro ⟨shape, done⟩
    exact (declare_eq_ok_iff.1 done).1
  · intro distinct
    exact ⟨⟨type, keyName, keyType, declared, distinct⟩, declare_eq_ok_iff.2 ⟨distinct, rfl, rfl⟩⟩

/-- A declaration is refused at the first field that what is declared before it refuses. -/
theorem declare_eq_error_iff {e : DuplicateField} :
    declare type keyName keyType declared = .error e ↔
      ∃ before field after reached, declared = before ++ field :: after ∧
        declare type keyName keyType before = .ok reached ∧ reached.push field = .error e :=
  Outcome.foldlM_eq_error_iff

/-- The key and the declared fields are looked up by their names, and nothing else is. -/
theorem declaredBy_of_fields
    {shape : Shape} (types : shape.type = type)
    (fields : shape.fields = Field.identity keyName keyType :: declared) :
    shape.DeclaredBy type (Field.identity keyName keyType) declared := by
  have relations : shape.relations = declared.filter Field.isRelation := by
    rw [Shape.relations, fields]
    rfl
  refine ⟨types, fields, shape.names_fields_nodup, ?_, ?_, shape.readNamed_fields, ?_, ?_, ?_⟩
  · intro field isDeclared
    rw [← fields] at isDeclared
    exact field?_eq_some_iff.2 ⟨isDeclared, rfl⟩
  · intro name isNone
    rw [← fields] at isNone
    rw [field?_eq_none_iff]
    intro field isDeclared sameName
    exact isNone (sameName ▸ List.mem_map_of_mem isDeclared)
  · obtain ⟨key, -⟩ := List.cons.inj fields
    rw [← key]
    exact shape.field?_keyName
  · rw [relations]
    exact List.filter_sublist
  · intro field
    rw [relations, List.mem_filter, Field.isRelation_iff]

theorem declare_eq_ok_iff_declaredBy {shape : Shape} :
    declare type keyName keyType declared = .ok shape ↔
      shape.DeclaredBy type (Field.identity keyName keyType) declared := by
  rw [declare_eq_ok_iff]
  constructor
  · rintro ⟨-, types, fields⟩
    exact declaredBy_of_fields types fields
  · intro result
    have distinct := result.distinct
    rw [result.fields_eq] at distinct
    exact ⟨distinct, result.type_eq, result.fields_eq⟩

end Declare

/--
Calls declare a shape exactly if no name repeats, and the shape has the key with
the fields of the calls and finds each by its name.  Otherwise they are refused
at the first call whose name is taken: the calls before it declare a shape, and
that shape does not accept its field.
-/
theorem declares_or_refuses
    (type : TypeName) (keyName : String) (keyType : ScalarType) (calls : List Declaration) :
    ((∃ shape, declare type keyName keyType (calls.map Declaration.declared) = .ok shape) ↔
        (keyName :: calls.map Declaration.name).Nodup) ∧
      (∀ shape, declare type keyName keyType (calls.map Declaration.declared) = .ok shape ↔
        shape.DeclaredBy type (Field.identity keyName keyType)
          (calls.map Declaration.declared)) ∧
      ∀ e, declare type keyName keyType (calls.map Declaration.declared) = .error e ↔
        ∃ before call, Declaration.FirstRepeated keyName calls before call ∧
          (∃ reached,
            declare type keyName keyType (before.map Declaration.declared) = .ok reached ∧
              reached.push call.declared = .error e) ∧
          e = ⟨call.name, type.name⟩ := by
  refine ⟨?_, fun shape => declare_eq_ok_iff_declaredBy, fun e => ⟨fun refused => ?_, ?_⟩⟩
  · rw [exists_declare_iff, List.map_map]
    exact Iff.rfl
  · obtain ⟨_, _, _, reached, split, done, refusedField⟩ := declare_eq_error_iff.1 refused
    obtain ⟨before, rest, rfl, rfl, splitRest⟩ := List.map_eq_append_iff.1 split
    obtain ⟨call, after, rfl, rfl, rfl⟩ := List.map_eq_cons_iff.1 splitRest
    obtain ⟨distinct, types, fields⟩ := declare_eq_ok_iff.1 done
    obtain ⟨taken, rfl⟩ := push_eq_error_iff.1 refusedField
    rw [List.map_map] at distinct
    rw [fields, List.map_cons, List.map_map] at taken
    refine ⟨before, call, ⟨⟨after, rfl⟩, distinct, taken⟩, ⟨reached, done, refusedField⟩, ?_⟩
    rw [Shape.name, types]
    rfl
  · rintro ⟨before, call, ⟨⟨after, rfl⟩, -, -⟩, ⟨reached, done, refused⟩, -⟩
    refine declare_eq_error_iff.2
      ⟨_, call.declared, after.map Declaration.declared, reached, ?_, done, refused⟩
    rw [List.map_append, List.map_cons]

/-- A nullable field does not take the name of the field before it. -/
example :
    (declare ⟨"", "book"⟩ "id" .int
      ([.scalar "title" .text, .nullable "title" .text].map Declaration.declared)).mapError
        DuplicateField.message = .error "duplicate field `title` on `book`" := rfl

end Shape

end EntityAccess
