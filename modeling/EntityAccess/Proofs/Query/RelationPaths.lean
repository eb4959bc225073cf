import EntityAccess.Proofs.Shape.Resolution

/-!
# Paths of relations

A dotted path can be expanded when each of its segments is a relation of the shape
that the segments before it lead to.  Otherwise it is refused with a fault that
speaks of the first segment that is none.  An expansion that was built from paths
covers the chains that begin one of them, and loads the chains that it covers.
-/

namespace EntityAccess

namespace RelationPath

/-- Each name is a relation of the shape that the names before it lead to. -/
inductive Declared (catalog : Catalog) : Shape → RelationPath → Prop where
  | last {shape : Shape} {name : String} {field : Field}
      (found : shape.field? name = some field) (relation : field.isRelation = true) :
      Declared catalog shape [name]
  | further {shape : Shape} {name : String} {field : Field} {target : TypeName}
      {cardinality : Cardinality} {rest : RelationPath}
      (found : shape.field? name = some field)
      (relation : field.kind = .relation target cardinality)
      (declared : Declared catalog (catalog.shape target) rest) :
      Declared catalog shape (name :: rest)

/-- The fault of a written path at its first name that is no relation of the shape reached. -/
inductive Fault (catalog : Catalog) (text : String) : Shape → RelationPath → CompileError → Prop
    where
  | unknown {shape : Shape} {name : String} (rest : RelationPath)
      (missing : shape.field? name = none) :
      Fault catalog text shape (name :: rest)
        (.ofPath (.unknownField text name shape.name))
  | scalarBefore {shape : Shape} {name : String} {field : Field} (next : String)
      (rest : RelationPath) (found : shape.field? name = some field)
      (scalar : field.isRelation = false) :
      Fault catalog text shape (name :: next :: rest)
        (.ofPath (.notRelation text name shape.name))
  | scalarLast {shape : Shape} {name : String} {field : Field}
      (found : shape.field? name = some field) (scalar : field.isRelation = false) :
      Fault catalog text shape [name]
        (.unknownField text ("`" ++ name ++ "` is not a relation"))
  | further {shape : Shape} {name : String} {field : Field} {target : TypeName}
      {cardinality : Cardinality} {rest : RelationPath} {e : CompileError}
      (found : shape.field? name = some field)
      (relation : field.kind = .relation target cardinality)
      (later : Fault catalog text (catalog.shape target) rest e) :
      Fault catalog text shape (name :: rest) e

variable {catalog : Catalog}

/-- A path is one of relations or has a fault. -/
theorem declared_or_fault
    (text : String) {shape : Shape} {path : RelationPath} (more : path ≠ []) :
    Declared catalog shape path ∨ ∃ e, Fault catalog text shape path e := by
  induction path generalizing shape with
  | nil => exact absurd rfl more
  | cons name rest ih =>
      cases found : shape.field? name with
      | none => exact Or.inr ⟨_, .unknown rest found⟩
      | some field =>
          cases kind : field.kind with
          | scalar type =>
              have scalar := Field.isRelation_of_scalar kind
              cases rest with
              | nil => exact Or.inr ⟨_, .scalarLast found scalar⟩
              | cons next others => exact Or.inr ⟨_, .scalarBefore next others found scalar⟩
          | relation target cardinality =>
              cases rest with
              | nil => exact Or.inl (.last found (Field.isRelation_of_relation kind))
              | cons next others =>
                  have goesOn := @ih (catalog.shape target) (List.cons_ne_nil next others)
                  rcases goesOn with declared | ⟨e, fault⟩
                  · exact Or.inl (.further found kind declared)
                  · exact Or.inr ⟨e, .further found kind fault⟩

variable {text name : String} {rest : RelationPath} {shape : Shape}

/-- A path of relations resolves and ends on a relation. -/
theorem Declared.resolves (text : String) (declared : Declared catalog shape (name :: rest)) :
    ∃ path, catalog.resolveFrom text shape name rest = .ok path ∧
      path.leaf.isRelation = true := by
  induction rest generalizing shape name with
  | nil =>
      cases declared with
      | last found relation => exact ⟨_, Catalog.resolveFrom_last found, relation⟩
      | further _ _ none => cases none
  | cons next rest ih =>
      cases declared with
      | further found relation declared =>
          obtain ⟨path, resolved, isRelation⟩ := ih declared
          exact ⟨path.after _,
            by rw [Catalog.resolveFrom_of_relation next rest found relation, resolved]; rfl,
            isRelation⟩

/-- A path with a fault does not resolve, or it ends on a scalar. -/
theorem Fault.resolves {e : CompileError} (fault : Fault catalog text shape (name :: rest) e) :
    (∃ cause, catalog.resolveFrom text shape name rest = .error cause ∧ .ofPath cause = e) ∨
      ∃ path, catalog.resolveFrom text shape name rest = .ok path ∧
        path.leaf.isRelation = false ∧
        .unknownField text ("`" ++ path.leaf.name ++ "` is not a relation") = e := by
  induction rest generalizing shape name with
  | nil =>
      cases fault with
      | unknown _ missing => exact Or.inl ⟨_, Catalog.resolveFrom_of_missing [] missing, rfl⟩
      | scalarLast found scalar =>
          refine Or.inr ⟨_, Catalog.resolveFrom_last found, scalar, ?_⟩
          rw [← Shape.name_of_field? found]
          rfl
      | further _ _ none => cases none
  | cons next rest ih =>
      cases fault with
      | unknown _ missing => exact Or.inl ⟨_, Catalog.resolveFrom_of_missing _ missing, rfl⟩
      | scalarBefore _ _ found scalar =>
          exact Or.inl ⟨_, Catalog.resolveFrom_of_scalar next rest found scalar, rfl⟩
      | further found relation later =>
          rw [Catalog.resolveFrom_of_relation next rest found relation]
          rcases ih later with ⟨cause, failed, same⟩ | ⟨path, resolved, scalar, same⟩
          · exact Or.inl ⟨cause, by rw [failed]; rfl, same⟩
          · exact Or.inr ⟨path.after _, by rw [resolved]; rfl, scalar, same⟩

end RelationPath

namespace Expansion

variable {catalog : Catalog} {text : String} {shape : Shape}

open RelationPath (Declared declared_or_fault)

theorem relationPath_of_declared (declared : Declared catalog shape (pathSegments text)) :
    relationPath catalog shape text = .ok (pathSegments text) := by
  obtain ⟨name, rest, segments⟩ := List.exists_cons_of_ne_nil (pathSegments_ne_nil text)
  rw [segments] at declared
  obtain ⟨path, resolved, isRelation⟩ := declared.resolves text
  rw [← Catalog.resolve_eq segments] at resolved
  rw [relationPath, Catalog.compilePath, resolved, ← (Catalog.leads_of_resolve resolved).2]
  exact if_pos isRelation

theorem relationPath_of_fault
    {e : CompileError} (fault : RelationPath.Fault catalog text shape (pathSegments text) e) :
    relationPath catalog shape text = .error e := by
  obtain ⟨name, rest, segments⟩ := List.exists_cons_of_ne_nil (pathSegments_ne_nil text)
  rw [segments] at fault
  rw [relationPath, Catalog.compilePath, Catalog.resolve_eq segments]
  rcases fault.resolves with ⟨cause, failed, rfl⟩ | ⟨path, resolved, scalar, rfl⟩
  · rw [failed]
    rfl
  · rw [resolved]
    exact if_neg (by simp [scalar])

/-- A written path is accepted when its segments are relations one behind the other. -/
theorem relationPath_eq_ok_iff {path : RelationPath} :
    relationPath catalog shape text = .ok path ↔
      Declared catalog shape (pathSegments text) ∧ path = pathSegments text := by
  constructor
  · intro accepted
    rcases declared_or_fault text (pathSegments_ne_nil text) with declared | ⟨e, fault⟩
    · rw [relationPath_of_declared declared] at accepted
      exact ⟨declared, (Except.ok.inj accepted).symm⟩
    · rw [relationPath_of_fault fault] at accepted
      cases accepted
  · rintro ⟨declared, rfl⟩
    exact relationPath_of_declared declared

/-- A written path is refused with the fault of its first segment that is no relation. -/
theorem relationPath_eq_error_iff {e : CompileError} :
    relationPath catalog shape text = .error e ↔
      RelationPath.Fault catalog text shape (pathSegments text) e := by
  constructor
  · intro refused
    rcases declared_or_fault text (pathSegments_ne_nil text) with declared | ⟨other, fault⟩
    · rw [relationPath_of_declared declared] at refused
      cases refused
    · rw [relationPath_of_fault fault] at refused
      exact Except.error.inj refused ▸ fault
  · exact relationPath_of_fault

end Expansion

/-! ## Chains -/

/-- The chain begins one of the requested paths. -/
def RelationPath.Requested (paths : List String) (chain : RelationPath) : Prop :=
  ∃ path ∈ paths, chain <+: pathSegments path

namespace Expansion

theorem exists_mem_extend_iff {path chain : RelationPath} {paths : List RelationPath} :
    (∃ kept ∈ extend path paths, chain <+: kept) ↔
      (∃ kept ∈ paths, chain <+: kept) ∨ chain <+: path := by
  induction paths with
  | nil => simp [extend]
  | cons old rest ih =>
      by_cases shorter : old.isPrefixOf path = true
      · -- The old path is replaced, but what begins it begins the new one.
        rw [extend, if_pos shorter, List.exists_mem_cons_iff, List.exists_mem_cons_iff]
        have absorbed (begins : chain <+: old) : chain <+: path :=
          begins.trans (List.isPrefixOf_iff_prefix.1 shorter)
        constructor
        · rintro (begins | inRest)
          · exact Or.inr begins
          · exact Or.inl (Or.inr inRest)
        · rintro ((begins | inRest) | begins)
          · exact Or.inl (absorbed begins)
          · exact Or.inr inRest
          · exact Or.inl begins
      · rw [extend, if_neg shorter, List.exists_mem_cons_iff, List.exists_mem_cons_iff, ih,
          or_assoc]

/-- A path that is added covers its beginnings, and what was covered before stays so. -/
theorem covers_insert {e : Expansion} {path chain : RelationPath} :
    (e.insert path).covers chain = true ↔ e.covers chain = true ∨ chain <+: path := by
  by_cases known : e.covers path = true
  · rw [insert, if_pos known]
    refine ⟨Or.inl, fun covered => covered.elim id fun begins => ?_⟩
    obtain ⟨kept, isKept, longer⟩ := covers_iff.1 known
    exact covers_iff.2 ⟨kept, isKept, begins.trans longer⟩
  · rw [insert, if_neg known, covers_iff, covers_iff]
    exact exists_mem_extend_iff

/-- Paths that are added one after the other cover what begins one of them. -/
theorem covers_foldl_insert
    (chains : List RelationPath) (start : Expansion) (chain : RelationPath) :
    (chains.foldl insert start).covers chain = true ↔
      start.covers chain = true ∨ ∃ path ∈ chains, chain <+: path := by
  induction chains generalizing start with
  | nil => simp
  | cons path rest ih =>
      rw [List.foldl_cons, ih, covers_insert, or_assoc, List.exists_mem_cons_iff]

/-- Paths of relations are built into the expansion that their chains are added to in order. -/
theorem build_eq_ok_iff
    {catalog : Catalog} {shape : Shape} {paths : List String} {e : Expansion} :
    build catalog shape paths = .ok e ↔
      (∀ path ∈ paths, RelationPath.Declared catalog shape (pathSegments path)) ∧
        (paths.map pathSegments).foldl insert empty = e := by
  rw [build, Outcome.foldlM_map_eq, Outcome.map_eq_ok_iff]
  constructor
  · rintro ⟨chains, accepted, rfl⟩
    have declared : ∀ path ∈ paths, RelationPath.Declared catalog shape (pathSegments path) :=
      fun path isPath => by
        obtain ⟨chain, checked⟩ := Outcome.exists_mapM_eq_ok_iff.1 ⟨chains, accepted⟩ path isPath
        exact (relationPath_eq_ok_iff.1 checked).1
    refine ⟨declared, ?_⟩
    rw [Outcome.mapM_eq_ok_map fun path isPath =>
      relationPath_of_declared (declared path isPath)] at accepted
    rw [Except.ok.inj accepted]
  · rintro ⟨declared, rfl⟩
    exact ⟨_, Outcome.mapM_eq_ok_map fun path isPath =>
      relationPath_of_declared (declared path isPath), rfl⟩

/-- What is built from paths covers the chains that begin one of them. -/
theorem covers_of_build
    {catalog : Catalog} {shape : Shape} {paths : List String} {e : Expansion}
    (built : build catalog shape paths = .ok e) (chain : RelationPath) :
    e.covers chain = true ↔ chain.Requested paths := by
  obtain ⟨_, rfl⟩ := build_eq_ok_iff.1 built
  rw [covers_foldl_insert, RelationPath.Requested]
  simp [covers, empty]

/-- Paths are refused with the fault of the first one that is not a chain of relations. -/
theorem build_eq_error_iff
    {catalog : Catalog} {shape : Shape} {paths : List String} {e : CompileError} :
    build catalog shape paths = .error e ↔
      Outcome.FirstError (relationPath catalog shape) paths e := by
  rw [build, Outcome.foldlM_map_eq, Outcome.map_eq_error_iff, Outcome.mapM_eq_error_iff]

/-- Whether each relation of a chain is loaded behind those before it. -/
def loads : Expansion → RelationPath → Bool
  | _, [] => true
  | e, name :: rest => e.includes name && (e.nested name).loads rest

/-- What to load beside the records behind a chain. -/
def behind (e : Expansion) (chain : RelationPath) : Expansion :=
  chain.foldl nested e

theorem includes_iff {e : Expansion} {name : String} :
    e.includes name = true ↔ e.covers [name] = true := by
  rw [covers_iff, includes, List.any_eq_true]
  refine exists_congr fun path => and_congr_right fun _ => ?_
  cases path with
  | nil => simp
  | cons first rest =>
      rw [List.head?_cons, beq_iff_eq, Option.some.injEq, List.cons_prefix_cons]
      exact ⟨fun same => ⟨same.symm, List.nil_prefix⟩, fun begins => begins.1.symm⟩

theorem covers_nested {e : Expansion} {name : String} {chain : RelationPath} (more : chain ≠ []) :
    (e.nested name).covers chain = true ↔ e.covers (name :: chain) = true := by
  simp only [covers_iff, mem_paths_nested_iff]
  constructor
  · rintro ⟨tail, ⟨isPath, _⟩, begins⟩
    exact ⟨name :: tail, isPath, List.prefix_cons_inj name |>.2 begins⟩
  · rintro ⟨path, isPath, begins⟩
    cases path with
    | nil => cases List.prefix_nil.1 begins
    | cons first tail =>
        obtain ⟨rfl, beginsTail⟩ := List.cons_prefix_cons.1 begins
        have goesOn : tail ≠ [] := fun ends => more (List.prefix_nil.1 (ends ▸ beginsTail))
        exact ⟨tail, ⟨isPath, goesOn⟩, beginsTail⟩

/-- The relations that are loaded one behind the other are the chains that are covered. -/
theorem loads_iff_covers {e : Expansion} {chain : RelationPath} (more : chain ≠ []) :
    e.loads chain = true ↔ e.covers chain = true := by
  induction chain generalizing e with
  | nil => exact absurd rfl more
  | cons name rest ih =>
      rw [loads, Bool.and_eq_true, includes_iff]
      cases rest with
      | nil => simp [loads]
      | cons next others =>
          rw [ih (List.cons_ne_nil next others), covers_nested (List.cons_ne_nil next others)]
          refine and_iff_right_of_imp fun covered => ?_
          obtain ⟨path, isPath, begins⟩ := covers_iff.1 covered
          exact covers_iff.2 ⟨path, isPath, (List.prefix_append [name] _).trans begins⟩

end Expansion

end EntityAccess
