import EntityAccess.Proofs.Outcome
import EntityAccess.Sample

/-!
# Dotted paths

A text resolves exactly when its segments are relations, each declared in the shape
that those before it lead to, and a field of the last shape.  Any other text has a
first segment at fault, and the error names this segment with the shape it was
looked up in.
-/

namespace EntityAccess

/-! ## Resolved paths -/

/-- The path leads from a shape through declared relations to a declared field. -/
inductive Path.Leads (catalog : Catalog) : Shape → Path → Prop where
  | field {shape : Shape} {name : String} {field : Field}
      (declared : shape.field? name = some field) :
      Leads catalog shape (Path.ofField field)
  | after {shape : Shape} {name : String} {field : Field} {target : TypeName}
      {cardinality : Cardinality} {path : Path}
      (declared : shape.field? name = some field)
      (relation : field.kind = .relation target cardinality)
      (rest : Leads catalog (catalog.shape target) path) :
      Leads catalog shape (path.after ⟨field.name, cardinality⟩)

theorem Field.isRelation_of_scalar
    {field : Field} {type : ScalarType} (scalar : field.kind = .scalar type) :
    field.isRelation = false := by
  rw [isRelation, scalar]
  rfl

theorem Field.isRelation_of_relation
    {field : Field} {target : TypeName} {cardinality : Cardinality}
    (relation : field.kind = .relation target cardinality) : field.isRelation = true := by
  rw [isRelation, relation]
  rfl

theorem Shape.name_of_field?
    {shape : Shape} {name : String} {field : Field} (found : shape.field? name = some field) :
    field.name = name :=
  (Shape.field?_eq_some_iff.1 found).2

theorem pathSegments_ne_nil (text : String) : pathSegments text ≠ [] := by
  simp [pathSegments]

/-- The segments of a text make the text again. -/
theorem joinSegments_pathSegments (text : String) : joinSegments (pathSegments text) = text := by
  rw [joinSegments, pathSegments, List.map_map]
  simp [Function.comp_def]

namespace Catalog

variable {catalog : Catalog}

section Steps

variable {text name : String} {shape : Shape} {field : Field}

theorem resolve_eq {rest : List String} (segments : pathSegments text = name :: rest) :
    catalog.resolve shape text = catalog.resolveFrom text shape name rest := by
  simp only [resolve, segments]

theorem resolveFrom_of_missing (rest : List String) (missing : shape.field? name = none) :
    catalog.resolveFrom text shape name rest = .error (.unknownField text name shape.name) := by
  cases rest <;> simp only [resolveFrom, missing]

theorem resolveFrom_of_scalar
    (next : String) (rest : List String) (found : shape.field? name = some field)
    (scalar : field.isRelation = false) :
    catalog.resolveFrom text shape name (next :: rest) =
      .error (.notRelation text name shape.name) := by
  cases kind : field.kind with
  | scalar type => simp only [resolveFrom, found, kind, FieldKind.relation?]
  | relation target cardinality => simp [Field.isRelation_of_relation kind] at scalar

theorem resolveFrom_of_relation
    (next : String) (rest : List String) (found : shape.field? name = some field)
    {target : TypeName} {cardinality : Cardinality}
    (relation : field.kind = .relation target cardinality) :
    catalog.resolveFrom text shape name (next :: rest) =
      (catalog.resolveFrom text (catalog.shape target) next rest).map
        (Path.after ⟨field.name, cardinality⟩) := by
  simp only [resolveFrom, found, relation, FieldKind.relation?]

theorem resolveFrom_last (found : shape.field? name = some field) :
    catalog.resolveFrom text shape name [] = .ok (Path.ofField field) := by
  simp only [resolveFrom, found]

end Steps

/-- Each segment is found in the shape that the segments before it lead to. -/
theorem leads_of_resolveFrom
    {text segment : String} {rest : List String} {shape : Shape} {path : Path}
    (resolved : catalog.resolveFrom text shape segment rest = .ok path) :
    path.Leads catalog shape ∧ path.segments = segment :: rest := by
  induction rest generalizing shape segment path with
  | nil =>
      cases found : shape.field? segment with
      | none =>
          rw [resolveFrom_of_missing [] found] at resolved
          cases resolved
      | some field =>
          rw [resolveFrom_last found] at resolved
          obtain rfl := Except.ok.inj resolved
          exact ⟨.field found, by rw [Path.segments_ofField, Shape.name_of_field? found]⟩
  | cons next rest ih =>
      cases found : shape.field? segment with
      | none =>
          rw [resolveFrom_of_missing _ found] at resolved
          cases resolved
      | some field =>
          cases kind : field.kind with
          | scalar type =>
              have scalar := Field.isRelation_of_scalar kind
              rw [resolveFrom_of_scalar next rest found scalar] at resolved
              cases resolved
          | relation target cardinality =>
              rw [resolveFrom_of_relation next rest found kind, Outcome.map_eq_ok_iff] at resolved
              obtain ⟨inner, resolvedRest, rfl⟩ := resolved
              obtain ⟨leads, segments⟩ := ih resolvedRest
              refine ⟨.after found kind leads, ?_⟩
              rw [Path.segments_after, segments]
              exact congrArg (· :: next :: rest) (Shape.name_of_field? found)

/-- A resolved path leads through its shape by the segments of its text. -/
theorem leads_of_resolve
    {shape : Shape} {text : String} {path : Path}
    (resolved : catalog.resolve shape text = .ok path) :
    path.Leads catalog shape ∧ path.segments = pathSegments text := by
  rw [resolve] at resolved
  cases segments : pathSegments text with
  | nil => simp [segments] at resolved
  | cons segment rest =>
      simp only [segments] at resolved
      exact leads_of_resolveFrom resolved

theorem leads_of_compilePath
    {shape : Shape} {text : String} {path : Path}
    (resolved : catalog.compilePath shape text = .ok path) :
    path.Leads catalog shape ∧ path.segments = pathSegments text :=
  leads_of_resolve (Outcome.mapError_eq_ok_iff.1 resolved)

/-- A name without a separator is resolved to the field it names. -/
theorem resolve_of_field?
    {shape : Shape} {name : String} {field : Field} (found : shape.field? name = some field)
    (segment : pathSeparator ∉ name.toList) :
    catalog.resolve shape name = .ok (Path.ofField field) := by
  rw [resolve, pathSegments, List.splitOn_eq_singleton segment, List.map_singleton,
    String.ofList_toList]
  simp only [resolveFrom, found]

/-- A resolved path is written as the text it was read from. -/
theorem toText_of_resolve
    {shape : Shape} {text : String} {path : Path}
    (resolved : catalog.resolve shape text = .ok path) : path.toText = text := by
  rw [Path.toText, (leads_of_resolve resolved).2, joinSegments_pathSegments]

/-- An error of resolution keeps the text in full. -/
theorem path_of_resolveFrom_error
    {text segment : String} {rest : List String} {shape : Shape} {e : PathError}
    (failed : catalog.resolveFrom text shape segment rest = .error e) : e.path = text := by
  induction rest generalizing shape segment with
  | nil =>
      cases found : shape.field? segment with
      | none =>
          rw [resolveFrom_of_missing [] found] at failed
          exact Except.error.inj failed ▸ rfl
      | some field =>
          rw [resolveFrom_last found] at failed
          cases failed
  | cons next rest ih =>
      cases found : shape.field? segment with
      | none =>
          rw [resolveFrom_of_missing _ found] at failed
          exact Except.error.inj failed ▸ rfl
      | some field =>
          cases kind : field.kind with
          | scalar type =>
              have scalar := Field.isRelation_of_scalar kind
              rw [resolveFrom_of_scalar next rest found scalar] at failed
              exact Except.error.inj failed ▸ rfl
          | relation target cardinality =>
              rw [resolveFrom_of_relation next rest found kind, Outcome.map_eq_error_iff] at failed
              exact ih failed

theorem path_of_resolve_error
    {shape : Shape} {text : String} {e : PathError}
    (failed : catalog.resolve shape text = .error e) : e.path = text := by
  rw [resolve] at failed
  cases segments : pathSegments text with
  | nil =>
      simp only [segments, Except.error.injEq] at failed
      exact failed ▸ rfl
  | cons segment rest =>
      simp only [segments] at failed
      exact path_of_resolveFrom_error failed

end Catalog

/-! ## Texts -/

/-- Hops with their declared cardinalities lead, one behind the other, from a shape to another. -/
inductive Catalog.LeadsTo (catalog : Catalog) : Shape → List Hop → Shape → Prop where
  | here (shape : Shape) : LeadsTo catalog shape [] shape
  | through {shape reached : Shape} {name : String} {field : Field} {target : TypeName}
      {cardinality : Cardinality} {hops : List Hop}
      (found : shape.field? name = some field)
      (relation : field.kind = .relation target cardinality)
      (rest : LeadsTo catalog (catalog.shape target) hops reached) :
      LeadsTo catalog shape (⟨name, cardinality⟩ :: hops) reached

/-- The segments are those of the path, and the path is declared from the shape on. -/
structure Path.NamedBy
    (catalog : Catalog) (shape : Shape) (segments : List String) (path : Path) : Prop where
  names : path.segments = segments
  declared : ∃ reached, catalog.LeadsTo shape path.hops reached ∧
    reached.field? path.leaf.name = some path.leaf

/-- The error of a text at the first of its segments that is at fault. -/
inductive PathError.Reports
    (catalog : Catalog) (shape : Shape) (text : String) (segments : List String) :
    PathError → Prop where
  | unknown {hops : List Hop} {reached : Shape} {name : String} {rest : List String}
      (leads : catalog.LeadsTo shape hops reached)
      (split : segments = hops.map Hop.name ++ name :: rest)
      (missing : reached.field? name = none) :
      Reports catalog shape text segments (.unknownField text name reached.name)
  | scalar {hops : List Hop} {reached : Shape} {name : String} {rest : List String} {field : Field}
      (leads : catalog.LeadsTo shape hops reached)
      (split : segments = hops.map Hop.name ++ name :: rest)
      (found : reached.field? name = some field) (scalar : field.isRelation = false)
      (more : rest ≠ []) :
      Reports catalog shape text segments (.notRelation text name reached.name)

theorem notMem_of_mem_splitOn
    {α : Type} [BEq α] [LawfulBEq α] {separator : α} {items piece : List α}
    (isPiece : piece ∈ items.splitOn separator) : separator ∉ piece := by
  induction items generalizing piece with
  | nil =>
      rw [List.splitOn_nil, List.mem_singleton] at isPiece
      exact isPiece ▸ List.not_mem_nil
  | cons item rest ih =>
      obtain ⟨first, others, pieces⟩ :=
        List.exists_cons_of_ne_nil (List.splitOn_ne_nil separator rest)
      rw [List.splitOn_cons_eq_if_modifyHead, pieces] at isPiece
      rw [pieces] at ih
      split at isPiece
      · rcases List.mem_cons.1 isPiece with rfl | inRest
        · exact List.not_mem_nil
        · exact ih inRest
      · rename_i different
        rcases List.mem_cons.1 isPiece with rfl | inRest
        · rw [List.mem_cons, not_or]
          exact ⟨fun same => different (beq_iff_eq.2 same.symm), ih List.mem_cons_self⟩
        · exact ih (List.mem_cons_of_mem first inRest)

/-- A text is split at every separator and nowhere else. -/
theorem pathSegments_eq_iff {text : String} {segments : List String} :
    pathSegments text = segments ↔
      segments ≠ [] ∧ (∀ segment ∈ segments, pathSeparator ∉ segment.toList) ∧
        joinSegments segments = text := by
  constructor
  · rintro rfl
    refine ⟨pathSegments_ne_nil text, fun segment isSegment => ?_, joinSegments_pathSegments text⟩
    obtain ⟨part, isPart, rfl⟩ := List.mem_map.1 isSegment
    rw [String.toList_ofList]
    exact notMem_of_mem_splitOn isPart
  · rintro ⟨more, unseparated, rfl⟩
    rw [pathSegments, joinSegments, String.toList_ofList,
      List.splitOn_intercalate pathSeparator (List.forall_mem_map.2 unseparated)
        (mt List.map_eq_nil_iff.1 more), List.map_map]
    simp [Function.comp_def]

namespace Catalog

variable {catalog : Catalog} {shape reached : Shape} {text : String}

/-- A path leads from its shape along its hops to a shape that declares its field. -/
theorem exists_leadsTo
    {path : Path} (leads : path.Leads catalog shape) :
    ∃ reached, catalog.LeadsTo shape path.hops reached ∧
      reached.field? path.leaf.name = some path.leaf := by
  induction leads with
  | @field shape name field declared =>
      exact ⟨shape, .here shape, Shape.name_of_field? declared ▸ declared⟩
  | after declared relation _ ih =>
      obtain ⟨reached, rest, found⟩ := ih
      exact ⟨reached, .through (Shape.name_of_field? declared ▸ declared) relation rest, found⟩

/-- Behind hops that lead to a shape, resolution goes on in that shape. -/
theorem resolveFrom_of_leadsTo
    {hops : List Hop} (leads : catalog.LeadsTo shape hops reached)
    {first name : String} {others rest : List String}
    (split : first :: others = hops.map Hop.name ++ name :: rest) :
    catalog.resolveFrom text shape first others =
      (catalog.resolveFrom text reached name rest).map fun path =>
        { path with hops := hops ++ path.hops } := by
  induction leads generalizing first others with
  | here shape =>
      obtain ⟨rfl, rfl⟩ := List.cons.inj split
      cases catalog.resolveFrom text shape first others <;> rfl
  | @through shape reached segment field target cardinality hops found relation _ ih =>
      obtain ⟨rfl, splitRest⟩ := List.cons.inj split
      obtain ⟨next, remaining, rfl⟩ : ∃ next remaining, others = next :: remaining :=
        List.exists_cons_of_ne_nil (by simp [splitRest])
      rw [resolveFrom_of_relation next remaining found relation, ih splitRest,
        Shape.name_of_field? found]
      cases catalog.resolveFrom text reached name rest <;> rfl

end Catalog

namespace PathError

variable {catalog : Catalog} {shape : Shape} {text : String} {segments : List String}

/-- A fault behind a relation is the fault of the whole. -/
theorem Reports.behind
    {name : String} {field : Field} {target : TypeName} {cardinality : Cardinality} {e : PathError}
    (found : shape.field? name = some field)
    (relation : field.kind = .relation target cardinality)
    (later : e.Reports catalog (catalog.shape target) text segments) :
    e.Reports catalog shape text (name :: segments) := by
  cases later with
  | unknown leads split missing =>
      exact .unknown (.through found relation leads) (congrArg (name :: ·) split) missing
  | scalar leads split foundLater scalar more =>
      exact .scalar (.through found relation leads) (congrArg (name :: ·) split) foundLater scalar
        more

/-- Segments name a path or have a first one at fault. -/
theorem named_or_reports
    (catalog : Catalog) (text name : String) (rest : List String) (shape : Shape) :
    (∃ path : Path, path.NamedBy catalog shape (name :: rest)) ∨
      ∃ e : PathError, e.Reports catalog shape text (name :: rest) := by
  induction rest generalizing shape name with
  | nil =>
      cases found : shape.field? name with
      | none => exact Or.inr ⟨_, .unknown (.here shape) rfl found⟩
      | some field =>
          have sameName := Shape.name_of_field? found
          exact Or.inl ⟨.ofField field, congrArg ([·]) sameName, shape, .here shape,
            sameName.symm ▸ found⟩
  | cons next rest ih =>
      cases found : shape.field? name with
      | none => exact Or.inr ⟨_, .unknown (.here shape) rfl found⟩
      | some field =>
          cases kind : field.kind with
          | scalar type =>
              exact Or.inr ⟨_, .scalar (.here shape) rfl found (Field.isRelation_of_scalar kind)
                (List.cons_ne_nil next rest)⟩
          | relation target cardinality =>
              rcases ih next (catalog.shape target) with ⟨path, names, reached, leads, leaf⟩ |
                ⟨e, later⟩
              · exact Or.inl ⟨path.after ⟨name, cardinality⟩, congrArg (name :: ·) names, reached,
                  .through found kind leads, leaf⟩
              · exact Or.inr ⟨e, later.behind found kind⟩

end PathError

namespace Catalog

variable {catalog : Catalog} {shape : Shape} {text : String}

theorem resolve_of_namedBy
    {path : Path} (named : path.NamedBy catalog shape (pathSegments text)) :
    catalog.resolve shape text = .ok path := by
  obtain ⟨first, others, segments⟩ := List.exists_cons_of_ne_nil (pathSegments_ne_nil text)
  obtain ⟨names, reached, leads, found⟩ := named
  rw [resolve_eq segments, resolveFrom_of_leadsTo leads (segments.symm.trans names.symm),
    resolveFrom_last found]
  exact congrArg (fun hops => Except.ok (Path.mk hops path.leaf)) (List.append_nil path.hops)

theorem resolve_of_reports
    {e : PathError} (reports : e.Reports catalog shape text (pathSegments text)) :
    catalog.resolve shape text = .error e := by
  obtain ⟨first, others, segments⟩ := List.exists_cons_of_ne_nil (pathSegments_ne_nil text)
  rw [resolve_eq segments]
  cases reports with
  | @unknown hops reached name rest leads split missing =>
      rw [resolveFrom_of_leadsTo leads (segments.symm.trans split),
        resolveFrom_of_missing rest missing]
      rfl
  | @scalar hops reached name rest field leads split found scalar more =>
      obtain ⟨next, remaining, rfl⟩ := List.exists_cons_of_ne_nil more
      rw [resolveFrom_of_leadsTo leads (segments.symm.trans split),
        resolveFrom_of_scalar next remaining found scalar]
      rfl

/--
The parts of a text between its separators decide how it resolves.  It gives the
path that they name, which is written as the text again, and otherwise the error
of the first of them that is at fault.
-/
theorem resolve_eq_ok_iff_namedBy_and_error_iff_reports
    (catalog : Catalog) (shape : Shape) (text : String) :
    (∀ segments, pathSegments text = segments ↔
        segments ≠ [] ∧ (∀ segment ∈ segments, pathSeparator ∉ segment.toList) ∧
          joinSegments segments = text) ∧
      (∀ path, catalog.resolve shape text = .ok path ↔
        path.NamedBy catalog shape (pathSegments text) ∧ path.toText = text) ∧
      ∀ e, catalog.resolve shape text = .error e ↔
        e.Reports catalog shape text (pathSegments text) := by
  refine ⟨fun segments => pathSegments_eq_iff, fun path => ⟨fun resolved => ?_, fun named => ?_⟩,
    fun e => ⟨fun failed => ?_, resolve_of_reports⟩⟩
  · obtain ⟨leads, names⟩ := leads_of_resolve resolved
    exact ⟨⟨names, exists_leadsTo leads⟩, toText_of_resolve resolved⟩
  · exact resolve_of_namedBy named.1
  · obtain ⟨first, others, segments⟩ := List.exists_cons_of_ne_nil (pathSegments_ne_nil text)
    rcases PathError.named_or_reports catalog text first others shape with
      ⟨path, named⟩ | ⟨other, reports⟩
    · rw [resolve_of_namedBy (segments ▸ named)] at failed
      cases failed
    · rw [resolve_of_reports (segments ▸ reports)] at failed
      exact Except.error.inj failed ▸ segments ▸ reports

/-- Relations may lead back to the shape they start from. -/
example : Sample.catalog.resolve Sample.treeItemShape "parent.children.name" =
    .ok ⟨[⟨"parent", .one⟩, ⟨"children", .many⟩], Field.scalar "name" .text⟩ := rfl

/-- An empty segment is a name that no field of the samples has. -/
example : Sample.catalog.resolve Sample.treeItemShape "parent..name" =
    .error (.unknownField "parent..name" "" "tree_item") := rfl

end Catalog

end EntityAccess
