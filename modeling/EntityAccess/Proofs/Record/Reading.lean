import EntityAccess.Proofs.Shape.Resolution

/-!
# Reading along paths

What a path reads from a record that conforms to the shape of the path: nulls and
values of the type at its end.  If only the cardinalities are those of the shape, a
path through to-one relations alone reads one value.  Any path can be cut between
two of its relations: reading it means to follow the first relations and to read
the rest of the path from each record they lead to.
-/

namespace EntityAccess

/-- The records behind a relation are those of the relation with its name. -/
theorem Record.mem_related {record inner : Record} {name : String} :
    inner ∈ record.related name ↔
      ∃ relation, record.relation? name = some relation ∧ inner ∈ relation.related := by
  rw [related]
  cases record.relation? name <;> simp

namespace Record.Conforms

variable {catalog : Catalog} {record : Record} {name : String} {field : Field}

/-- A conforming record has scalars under the names of scalar fields alone. -/
theorem admits_of_scalar?
    (conforms : record.Conforms catalog)
    (declared : (catalog.shape record.type).field? name = some field) {value : Value}
    (reads : record.scalar? name = some value) : field.Admits value := by
  obtain ⟨scalars, _, _⟩ := conforms
  obtain ⟨cell, found, rfl⟩ := Option.map_eq_some_iff.1 reads
  obtain ⟨own, ownDeclared, admits⟩ := scalars cell (List.mem_of_find?_eq_some found)
  have same : cell.name = name := by simpa using List.find?_some found
  rw [same, declared] at ownDeclared
  exact Option.some.inj ownDeclared ▸ admits

theorem scalar?_eq_none
    (conforms : record.Conforms catalog)
    (declared : (catalog.shape record.type).field? name = some field)
    {target : TypeName} {cardinality : Cardinality}
    (kind : field.kind = .relation target cardinality) : record.scalar? name = none := by
  cases reads : record.scalar? name with
  | none => rfl
  | some value =>
      cases conforms.admits_of_scalar? declared reads with
      | absent scalar _ | present scalar _ => cases kind.symm.trans scalar

/-- A relation of a conforming record leads to conforming records of its target type. -/
theorem of_relation?
    (conforms : record.Conforms catalog)
    (declared : (catalog.shape record.type).field? name = some field)
    {target : TypeName} {cardinality : Cardinality}
    (kind : field.kind = .relation target cardinality) {relation : Relation}
    (found : record.relation? name = some relation) :
    relation.cardinality = cardinality ∧
      ∀ related ∈ relation.related, related.type = target ∧ related.Conforms catalog := by
  obtain ⟨_, relations, inner⟩ := conforms
  have isRelation := List.mem_of_find?_eq_some found
  obtain ⟨own, ownTarget, ownDeclared, ownKind, types⟩ := relations relation isRelation
  have same : relation.name = name := by simpa using List.find?_some found
  rw [same, declared] at ownDeclared
  obtain rfl := Option.some.inj ownDeclared
  obtain ⟨rfl, rfl⟩ := FieldKind.relation.inj (kind.symm.trans ownKind)
  exact ⟨rfl, fun related isRelated =>
    ⟨types related isRelated, inner relation isRelation related isRelated⟩⟩

/-- Conforming records are typed. -/
theorem typed (conforms : record.Conforms catalog) :
    record.Typed catalog (catalog.shape record.type) := by
  induction conforms with
  | @intro record scalars declared related ih =>
      have conforms : record.Conforms catalog := .intro scalars declared related
      refine .intro (fun name field type value found kind reads => ?_)
        (fun name field target cardinality found kind inner isRelated => ?_)
      · cases conforms.admits_of_scalar? found reads with
        | absent _ _ => exact Or.inl rfl
        | present ownKind fits =>
            obtain rfl := FieldKind.scalar.inj (kind.symm.trans ownKind)
            exact Or.inr fits
      · obtain ⟨relation, isFound, isInner⟩ := mem_related.1 isRelated
        obtain ⟨_, targets⟩ := conforms.of_relation? found kind isFound
        rw [← (targets inner isInner).1]
        exact ih relation (List.mem_of_find?_eq_some isFound) inner isInner

/-- The relations of a conforming record have their declared cardinalities. -/
theorem linked (conforms : record.Conforms catalog) :
    record.Linked catalog (catalog.shape record.type) := by
  induction conforms with
  | @intro record scalars declared related ih =>
      have conforms : record.Conforms catalog := .intro scalars declared related
      refine .intro (fun name field target cardinality found kind content holds => ?_)
        (fun name field target cardinality found kind inner isRelated => ?_)
      · rw [Record.get?, conforms.scalar?_eq_none found kind] at holds
        obtain ⟨relation, isFound, rfl⟩ := Option.map_eq_some_iff.1 holds
        rw [← (conforms.of_relation? found kind isFound).1]
        cases relation <;> rfl
      · obtain ⟨relation, isFound, isInner⟩ := mem_related.1 isRelated
        obtain ⟨_, targets⟩ := conforms.of_relation? found kind isFound
        rw [← (targets inner isInner).1]
        exact ih relation (List.mem_of_find?_eq_some isFound) inner isInner

end Record.Conforms

namespace Record.Linked

variable {catalog : Catalog} {shape : Shape} {record : Record} {name : String} {field : Field}
  {target : TypeName} {cardinality : Cardinality}

/-- A linked record has no scalar in the place of a relation. -/
theorem scalar?_eq_none
    (linked : record.Linked catalog shape) (declared : shape.field? name = some field)
    (kind : field.kind = .relation target cardinality) : record.scalar? name = none := by
  obtain ⟨held, _⟩ := linked
  cases reads : record.scalar? name with
  | none => rfl
  | some value =>
      have holds : record.get? name = some (.scalar value) := by rw [Record.get?, reads]
      cases held name field target cardinality declared kind _ holds

/-- A relation of a linked record leads to linked records in the declared number. -/
theorem of_relation?
    (linked : record.Linked catalog shape) (declared : shape.field? name = some field)
    (kind : field.kind = .relation target cardinality) {relation : Relation}
    (found : record.relation? name = some relation) :
    relation.cardinality = cardinality ∧
      ∀ related ∈ relation.related, related.Linked catalog (catalog.shape target) := by
  have missing := linked.scalar?_eq_none declared kind
  obtain ⟨held, inner⟩ := linked
  constructor
  · have holds : record.get? name = some relation.content := by
      rw [Record.get?, missing, found]
      rfl
    have same := held name field target cardinality declared kind _ holds
    cases relation <;> exact Option.some.inj same
  · exact fun related isRelated => inner name field target cardinality declared kind related
      (mem_related.2 ⟨relation, found, isRelated⟩)

end Record.Linked

namespace Path

theorem read_ofField (field : Field) (record : Record) :
    (ofField field).read record = [(record.scalar? field.name).getD .null] := by
  change readThrough field.name [] record = _
  rw [readThrough, Record.get?]
  cases record.scalar? field.name with
  | some value => rfl
  | none =>
      cases record.relation? field.name with
      | none => rfl
      | some relation => cases relation <;> rfl

/-- What is read behind a relation, where the record has no scalar of its name. -/
theorem read_after
    (hop : Hop) (path : Path) {record : Record} (missing : record.scalar? hop.name = none) :
    (path.after hop).read record =
      match record.relation? hop.name with
      | some (.one _ (some related)) => path.read related
      | some (.many _ related) => related.flatMap path.read
      | _ => if path.isSingleValued then [.null] else [] := by
  change readThrough path.leaf.name (hop :: path.hops) record = _
  rw [readThrough, Record.get?, missing]
  cases record.relation? hop.name with
  | none => rfl
  | some relation =>
      cases relation with
      | one name related => cases related <;> rfl
      | many name related => rfl

variable {catalog : Catalog} {shape : Shape} {path : Path} {record : Record}

/-- What is read behind a declared relation of a linked record. -/
theorem read_after_of_linked
    (linked : record.Linked catalog shape) {name : String} {field : Field}
    (declared : shape.field? name = some field) {target : TypeName}
    {cardinality : Cardinality} (kind : field.kind = .relation target cardinality) (path : Path) :
    (path.after ⟨field.name, cardinality⟩).read record =
      match record.relation? name with
      | some (.one _ (some related)) => path.read related
      | some (.many _ related) => related.flatMap path.read
      | _ => if path.isSingleValued then [.null] else [] := by
  have sameName := Shape.name_of_field? declared
  rw [read_after _ path (sameName.symm ▸ linked.scalar?_eq_none declared kind), sameName]

/-- A value read behind a relation is null or read from a record behind it. -/
theorem mem_read_after
    {hop : Hop} {value : Value} (reads : value ∈ (path.after hop).read record) :
    value = .null ∨ ∃ inner ∈ record.related hop.name, value ∈ path.read inner := by
  have absent {single : Bool} (reads : value ∈ if single then [Value.null] else []) :
      value = .null := by
    cases single with
    | true => exact List.mem_singleton.1 reads
    | false => cases reads
  revert reads
  change value ∈ readThrough path.leaf.name (hop :: path.hops) record → _
  rw [readThrough, Record.get?, Record.related]
  cases record.scalar? hop.name with
  | some _ => exact fun reads => Or.inl (absent reads)
  | none =>
      cases record.relation? hop.name with
      | none => exact fun reads => Or.inl (absent reads)
      | some relation =>
          cases relation with
          | one _ related =>
              cases related with
              | none => exact fun reads => Or.inl (absent reads)
              | some inner =>
                  exact fun reads => Or.inr ⟨inner, List.mem_singleton_self inner, reads⟩
          | many _ related => exact fun reads => Or.inr (List.mem_flatMap.1 reads)

/-- A path reads nulls and values of the type at its end. -/
theorem kind_of_mem_read
    (leads : path.Leads catalog shape) (typed : record.Typed catalog shape) {type : ScalarType}
    (scalar : path.scalar? = some type) {value : Value} (reads : value ∈ path.read record) :
    type.Optional value := by
  induction leads generalizing record with
  | @field shape name field declared =>
      rw [read_ofField, List.mem_singleton, Shape.name_of_field? declared] at reads
      subst reads
      cases own : record.scalar? name with
      | none => exact Or.inl rfl
      | some value =>
          obtain ⟨scalars, _⟩ := typed
          exact scalars name field type value declared (FieldKind.scalar?_eq_some_iff.1 scalar) own
  | @after shape name field target cardinality path declared kind rest ih =>
      rcases mem_read_after reads with absent | ⟨inner, isRelated, readsInner⟩
      · exact Or.inl absent
      · obtain ⟨_, related⟩ := typed
        rw [Shape.name_of_field? declared] at isRelated
        exact ih (related name field target cardinality declared kind inner isRelated) scalar
          readsInner

/-- The value at the end of to-one relations, null if they lead to no record. -/
def target (path : Path) (record : Record) : Value :=
  ((record.reach (path.hops.map Hop.name)).head?.bind
    fun reached => reached.scalar? path.leaf.name).getD .null

/-- A path through to-one relations alone reads one value. -/
theorem read_of_isSingleValued
    (leads : path.Leads catalog shape) (linked : record.Linked catalog shape)
    (single : path.isSingleValued = true) : path.read record = [path.target record] := by
  induction leads generalizing record with
  | field declared =>
      rw [read_ofField]
      rfl
  | @after shape name field relatedType cardinality path declared kind rest ih =>
      rw [isSingleValued, after, List.all_cons, Bool.and_eq_true, beq_iff_eq] at single
      obtain ⟨toOne, singleRest⟩ := single
      change cardinality = .one at toOne
      rw [read_after_of_linked linked declared kind, target, after, List.map_cons,
        Record.reach_cons, Record.related, Shape.name_of_field? declared]
      cases found : record.relation? name with
      | none => exact if_pos singleRest
      | some relation =>
          obtain ⟨cardinal, linkedBehind⟩ := linked.of_relation? declared kind found
          cases relation with
          | many _ related => cases cardinal.trans toOne
          | one _ related =>
              cases related with
              | none => exact if_pos singleRest
              | some related =>
                  have reads := ih (linkedBehind related List.mem_cons_self) singleRest
                  simpa [Relation.related, target] using reads

end Path

namespace Sample

theorem conforms_treeItem (id : Int64) (name : String) : (treeItem id name).Conforms catalog := by
  constructor
  case scalars =>
    change ∀ cell ∈ [_, _, _], _
    simp only [List.forall_mem_cons]
    exact ⟨⟨_, rfl, .present rfl rfl⟩, ⟨_, rfl, .present rfl rfl⟩, ⟨_, rfl, .absent rfl rfl⟩,
      List.forall_mem_nil _⟩
  case declared =>
    change ∀ relation ∈ [Relation.one "parent" none, Relation.many "children" []], _
    simp only [List.forall_mem_cons]
    exact ⟨⟨_, _, rfl, rfl, List.forall_mem_nil _⟩, ⟨_, _, rfl, rfl, List.forall_mem_nil _⟩,
      List.forall_mem_nil _⟩
  case related =>
    change ∀ relation ∈ [Relation.one "parent" none, Relation.many "children" []], _
    simp only [List.forall_mem_cons]
    exact ⟨List.forall_mem_nil _, List.forall_mem_nil _, List.forall_mem_nil _⟩

theorem conforms_withParent (id parentId : Int64) (name parentName : String) :
    (withParent (treeItem id name) (treeItem parentId parentName)).Conforms catalog := by
  constructor
  case scalars =>
    change ∀ cell ∈ [_, _, _], _
    simp only [List.forall_mem_cons]
    exact ⟨⟨_, rfl, .present rfl rfl⟩, ⟨_, rfl, .present rfl rfl⟩, ⟨_, rfl, .present rfl rfl⟩,
      List.forall_mem_nil _⟩
  case declared =>
    change ∀ relation ∈ [Relation.one "parent" (some (treeItem parentId parentName)),
      Relation.many "children" []], _
    simp only [List.forall_mem_cons]
    exact ⟨⟨_, _, rfl, rfl, List.forall_mem_singleton.2 rfl⟩,
      ⟨_, _, rfl, rfl, List.forall_mem_nil _⟩, List.forall_mem_nil _⟩
  case related =>
    change ∀ relation ∈ [Relation.one "parent" (some (treeItem parentId parentName)),
      Relation.many "children" []], _
    simp only [List.forall_mem_cons]
    exact ⟨List.forall_mem_singleton.2 (conforms_treeItem parentId parentName),
      List.forall_mem_nil _, List.forall_mem_nil _⟩

end Sample

/-! ## Reading in parts -/

/-- The end of a chain of relations: a record, or an absent relation with the hops behind it. -/
inductive Ending where
  | reached (record : Record)
  | stopped (skipped : List Hop)

def Ending.record? : Ending → Option Record
  | .reached record => some record
  | .stopped _ => none

namespace Record

/--
Nothing stands under the name of a relation: it is a to-one relation without a
record, or no relation of the record at all.  An empty to-many relation stands.
-/
def lacks (record : Record) (name : String) : Bool :=
  match record.get? name with
  | some (.one (some _)) | some (.many _) => false
  | _ => true

/-- The ends of all chains along some hops, in the order of the records. -/
def endings : List Hop → Record → List Ending
  | [], record => [.reached record]
  | hop :: rest, record =>
      if record.lacks hop.name then [.stopped rest]
      else (record.related hop.name).flatMap (endings rest)

section Behind

variable {record : Record} {name : String}

theorem relation?_of_get?
    {content : Content} (holds : record.get? name = some content) {cardinality : Cardinality}
    (relational : content.cardinality? = some cardinality) :
    ∃ relation, record.relation? name = some relation ∧ relation.content = content := by
  rw [get?] at holds
  cases reads : record.scalar? name with
  | some value =>
      rw [reads] at holds
      obtain rfl := Option.some.inj holds
      cases relational
  | none =>
      rw [reads] at holds
      exact Option.map_eq_some_iff.1 holds

theorem related_of_one
    {inner : Option Record} (holds : record.get? name = some (.one inner)) :
    record.related name = inner.toList := by
  obtain ⟨relation, found, content⟩ := relation?_of_get? holds rfl
  rw [related, found]
  cases relation with
  | one _ own => exact congrArg Option.toList (Content.one.inj content)
  | many _ own => cases content

theorem related_of_many
    {inner : List Record} (holds : record.get? name = some (.many inner)) :
    record.related name = inner := by
  obtain ⟨relation, found, content⟩ := relation?_of_get? holds rfl
  rw [related, found]
  cases relation with
  | one _ own => cases content
  | many _ own => exact Content.many.inj content

/-- Behind a declared relation that is absent there is no record. -/
theorem Linked.related_of_lacks
    {catalog : Catalog} {shape : Shape} (linked : record.Linked catalog shape) {field : Field}
    (declared : shape.field? name = some field) {target : TypeName} {cardinality : Cardinality}
    (kind : field.kind = .relation target cardinality) (lacks : record.lacks name = true) :
    record.related name = [] := by
  have missing := linked.scalar?_eq_none declared kind
  rw [Record.lacks, get?, missing] at lacks
  rw [related]
  cases found : record.relation? name with
  | none => rfl
  | some relation =>
      rw [found] at lacks
      cases relation with
      | one _ inner =>
          cases inner with
          | none => rfl
          | some _ => cases lacks
      | many _ _ => cases lacks

end Behind

end Record

namespace Path

/--
What the rest of a path gives for the end of a chain.  For an absent relation it
is a single null, unless a to-many relation follows anywhere.
-/
def readFrom (rest : Path) : Ending → List Value
  | .reached record => rest.read record
  | .stopped skipped =>
      if (skipped ++ rest.hops).all fun hop => hop.cardinality == .one then [.null] else []

/-- Following the first hops and reading the rest behind them is reading the whole path. -/
theorem readThrough_append (leaf : Field) (first rest : List Hop) (record : Record) :
    readThrough leaf.name (first ++ rest) record =
      (record.endings first).flatMap (readFrom ⟨rest, leaf⟩) := by
  induction first generalizing record with
  | nil =>
      rw [Record.endings, List.flatMap_singleton]
      rfl
  | cons hop hops ih =>
      have stopped (lacks : record.lacks hop.name = true) :
          (if (hops ++ rest).all fun next => next.cardinality == .one then [Value.null] else []) =
            (record.endings (hop :: hops)).flatMap (readFrom ⟨rest, leaf⟩) := by
        rw [Record.endings, if_pos lacks, List.flatMap_singleton]
        rfl
      have goesOn {inner : List Record} (behind : record.related hop.name = inner)
          (stands : record.lacks hop.name = false) :
          inner.flatMap (readThrough leaf.name (hops ++ rest)) =
            (record.endings (hop :: hops)).flatMap (readFrom ⟨rest, leaf⟩) := by
        rw [Record.endings, stands, behind, if_neg Bool.false_ne_true, List.flatMap_assoc]
        exact List.flatMap_congr fun related _ => ih related
      rw [List.cons_append, readThrough]
      cases holds : record.get? hop.name with
      | none => exact stopped (by rw [Record.lacks, holds])
      | some content =>
          cases content with
          | scalar value => exact stopped (by rw [Record.lacks, holds])
          | one inner =>
              cases inner with
              | none => exact stopped (by rw [Record.lacks, holds])
              | some related =>
                  have behind := goesOn (Record.related_of_one holds) (by rw [Record.lacks, holds])
                  exact (List.flatMap_singleton _ _).symm.trans behind
          | many inner => exact goesOn (Record.related_of_many holds) (by rw [Record.lacks, holds])

variable {catalog : Catalog} {shape : Shape} {path : Path} {record : Record}

/-- The records among the ends of declared chains are those that the relations lead to. -/
theorem records_endings
    (leads : path.Leads catalog shape) (linked : record.Linked catalog shape)
    {first rest : List Hop} (split : path.hops = first ++ rest) :
    (record.endings first).filterMap Ending.record? = record.reach (first.map Hop.name) := by
  induction leads generalizing record first with
  | field declared =>
      obtain ⟨rfl, _⟩ := List.append_eq_nil_iff.1 split.symm
      rfl
  | @after shape name field target cardinality path declared kind _ ih =>
      cases first with
      | nil => rfl
      | cons hop hops =>
          obtain ⟨rfl, splitRest⟩ := List.cons.inj split
          have sameName := Shape.name_of_field? declared
          rw [List.map_cons, Record.reach_cons, Record.endings]
          cases lacks : record.lacks field.name with
          | true =>
              rw [linked.related_of_lacks (sameName.symm ▸ declared) kind lacks]
              rfl
          | false =>
              rw [if_neg Bool.false_ne_true, List.filterMap_flatMap]
              refine List.flatMap_congr fun inner isRelated => ih ?_ splitRest
              obtain ⟨_, related⟩ := linked
              exact related name field target cardinality declared kind inner
                (sameName ▸ isRelated)

/--
A resolved path reads one value from a record with the declared cardinalities if
it crosses to-one relations alone.  Cut anywhere, it reads in order what the rest
gives for each end of the chains along the first hops, and the records among
these ends are those that the first relations lead to.
-/
theorem read_eq_singleton_and_flatMap_endings
    {text : String} (resolved : catalog.resolve shape text = .ok path)
    (linked : record.Linked catalog shape) :
    (path.isSingleValued = true → path.read record = [path.target record]) ∧
      ∀ first rest, path.hops = first ++ rest →
        path.read record = (record.endings first).flatMap (readFrom ⟨rest, path.leaf⟩) ∧
          (record.endings first).filterMap Ending.record? =
            record.reach (first.map Hop.name) := by
  have leads := (Catalog.leads_of_resolve resolved).1
  refine ⟨read_of_isSingleValued leads linked, fun first rest split => ?_⟩
  refine ⟨?_, records_endings leads linked split⟩
  rw [read, split]
  exact readThrough_append path.leaf first rest record

end Path

namespace Sample

theorem conforms_withChildren
    (id : Int64) (name : String) {children : List Record}
    (conform : ∀ child ∈ children, child.type = treeItemShape.type ∧ child.Conforms catalog) :
    ((treeItem id name).loadMany "children" children).Conforms catalog := by
  constructor
  case scalars =>
    change ∀ cell ∈ [_, _, _], _
    simp only [List.forall_mem_cons]
    exact ⟨⟨_, rfl, .present rfl rfl⟩, ⟨_, rfl, .present rfl rfl⟩, ⟨_, rfl, .absent rfl rfl⟩,
      List.forall_mem_nil _⟩
  case declared =>
    change ∀ relation ∈ [Relation.one "parent" none, Relation.many "children" children], _
    simp only [List.forall_mem_cons]
    exact ⟨⟨_, _, rfl, rfl, List.forall_mem_nil _⟩,
      ⟨_, _, rfl, rfl, fun child isChild => (conform child isChild).1⟩, List.forall_mem_nil _⟩
  case related =>
    change ∀ relation ∈ [Relation.one "parent" none, Relation.many "children" children], _
    simp only [List.forall_mem_cons]
    exact ⟨List.forall_mem_nil _, fun child isChild => (conform child isChild).2,
      List.forall_mem_nil _⟩

/-- A root with a child that grows on an oak and one without a parent. -/
def grafted : Record :=
  (treeItem 1 "root").loadMany "children"
    [withParent (treeItem 2 "leaf") (treeItem 9 "oak"), treeItem 3 "bud"]

theorem linked_grafted : grafted.Linked catalog treeItemShape := by
  refine (conforms_withChildren 1 "root" ?_).linked
  simp only [List.forall_mem_cons]
  exact ⟨⟨rfl, conforms_withParent ..⟩, ⟨rfl, conforms_treeItem ..⟩, List.forall_mem_nil _⟩

end Sample

namespace Path

/--
The child without a parent gives a null at the name of its parent, and nothing
at the names of the children of its parent.
-/
theorem read_eq_singleton_and_flatMap_endings_grafted :
    let toParents : List Hop := [⟨"children", .many⟩, ⟨"parent", .one⟩]
    let toSiblings : List Hop := [⟨"children", .many⟩]
    let toAncestor : List Hop := [⟨"parent", .one⟩, ⟨"parent", .one⟩]
    let name := Field.scalar "name" .text
    Sample.catalog.resolve Sample.treeItemShape "children.parent.name" = .ok ⟨toParents, name⟩ ∧
      Sample.grafted.Linked Sample.catalog Sample.treeItemShape ∧
      read ⟨toParents, name⟩ Sample.grafted =
        (Sample.grafted.endings toParents).flatMap (readFrom (ofField name)) ∧
      read ⟨toParents, name⟩ Sample.grafted = [.text "oak", .null] ∧
      read ⟨toParents ++ toSiblings, name⟩ Sample.grafted =
        (Sample.grafted.endings toParents).flatMap (readFrom ⟨toSiblings, name⟩) ∧
      read ⟨toParents ++ toSiblings, name⟩ Sample.grafted = [] ∧
      read ⟨toAncestor, name⟩ Sample.grafted = [target ⟨toAncestor, name⟩ Sample.grafted] := by
  intro toParents toSiblings toAncestor name
  have toName (hops : List Hop) (text : String)
      (resolved : Sample.catalog.resolve Sample.treeItemShape text = .ok ⟨hops, name⟩) :=
    read_eq_singleton_and_flatMap_endings resolved Sample.linked_grafted
  have parents := toName toParents "children.parent.name" rfl
  have siblings := toName (toParents ++ toSiblings) "children.parent.children.name" rfl
  have ancestor := toName toAncestor "parent.parent.name" rfl
  exact ⟨rfl, Sample.linked_grafted, (parents.2 toParents [] rfl).1, rfl,
    (siblings.2 toParents toSiblings rfl).1, rfl, ancestor.1 rfl⟩

end Path

end EntityAccess
