import EntityAccess.Proofs.Query.RelationPaths
import Mathlib.Data.List.Pairwise

/-!
# The longest of the requested paths

A path that is added to an expansion takes the place of one path at most: of two
paths that begin it, one would begin the other.  So no path of an expansion begins
another, whatever the order of the request, and the paths are those requested ones
that begin no longer one.  What is nested under a relation is an expansion of the
shape that the relation leads to.
-/

namespace EntityAccess

/-- Neither of two paths begins the other. -/
def RelationPath.Apart (path other : RelationPath) : Prop :=
  ¬path <+: other ∧ ¬other <+: path

instance : Std.Symm RelationPath.Apart where
  symm _ _ := And.symm

namespace Expansion

open RelationPath (Apart Declared)

/-- An expansion keeps the longest of some chains, and each of these once. -/
structure KeepsLongest (chains : List RelationPath) (e : Expansion) : Prop where
  apart : e.paths.Pairwise Apart
  requested : ∀ path ∈ e.paths, path ∈ chains
  covers : ∀ chain : RelationPath,
    (∃ path ∈ e.paths, chain <+: path) ↔ ∃ path ∈ chains, chain <+: path

variable {path : RelationPath} {paths : List RelationPath}

theorem mem_or_eq_of_mem_extend {kept : RelationPath} (isKept : kept ∈ extend path paths) :
    kept ∈ paths ∨ kept = path := by
  induction paths with
  | nil => exact Or.inr (List.mem_singleton.1 isKept)
  | cons old rest ih =>
      rw [extend] at isKept
      split at isKept
      · exact (List.mem_cons.1 isKept).symm.imp_left (List.mem_cons_of_mem old)
      · rcases List.mem_cons.1 isKept with rfl | inRest
        · exact Or.inl List.mem_cons_self
        · exact (ih inRest).imp_left (List.mem_cons_of_mem old)

/-- A path that no other begins with can be added to paths that are apart. -/
theorem pairwise_extend
    (apart : paths.Pairwise Apart) (longest : ∀ kept ∈ paths, ¬path <+: kept) :
    (extend path paths).Pairwise Apart := by
  induction paths with
  | nil => exact List.pairwise_singleton Apart path
  | cons old rest ih =>
      obtain ⟨apartOld, apartRest⟩ := List.pairwise_cons.1 apart
      obtain ⟨longestOld, longestRest⟩ := List.forall_mem_cons.1 longest
      by_cases shorter : old.isPrefixOf path = true
      · rw [extend, if_pos shorter]
        refine List.pairwise_cons.2 ⟨fun kept isKept => ⟨longestRest kept isKept, ?_⟩, apartRest⟩
        -- Two beginnings of the new path would not be apart.
        intro begins
        rcases List.prefix_or_prefix_of_prefix (List.isPrefixOf_iff_prefix.1 shorter) begins with
          before | behind
        · exact (apartOld kept isKept).1 before
        · exact (apartOld kept isKept).2 behind
      · rw [extend, if_neg shorter]
        refine List.pairwise_cons.2 ⟨fun kept isKept => ?_, ih apartRest longestRest⟩
        rcases mem_or_eq_of_mem_extend isKept with inRest | rfl
        · exact apartOld kept inRest
        · exact ⟨fun begins => shorter (List.isPrefixOf_iff_prefix.2 begins), longestOld⟩

theorem extend_eq_append (longer : ∀ kept ∈ paths, ¬kept <+: path) :
    extend path paths = paths ++ [path] := by
  induction paths with
  | nil => rfl
  | cons old rest ih =>
      obtain ⟨longerOld, longerRest⟩ := List.forall_mem_cons.1 longer
      rw [extend, if_neg fun begins => longerOld (List.isPrefixOf_iff_prefix.1 begins),
        ih longerRest, List.cons_append]

theorem mem_or_eq_of_mem_insert
    {e : Expansion} {kept : RelationPath} (isKept : kept ∈ (e.insert path).paths) :
    kept ∈ e.paths ∨ kept = path := by
  rw [insert] at isKept
  split at isKept
  · exact Or.inl isKept
  · exact mem_or_eq_of_mem_extend isKept

theorem pairwise_insert {e : Expansion} (apart : e.paths.Pairwise Apart) :
    (e.insert path).paths.Pairwise Apart := by
  rw [insert]
  split
  · exact apart
  · rename_i added
    exact pairwise_extend apart fun kept isKept begins =>
      added (covers_iff.2 ⟨kept, isKept, begins⟩)

/-- A path that is apart from the others comes last. -/
theorem insert_eq_append {e : Expansion} (apart : ∀ kept ∈ e.paths, Apart kept path) :
    e.insert path = ⟨e.paths ++ [path]⟩ := by
  rw [insert, if_neg, extend_eq_append fun kept isKept => (apart kept isKept).1]
  intro known
  obtain ⟨kept, isKept, begins⟩ := covers_iff.1 known
  exact (apart kept isKept).2 begins

variable {chains : List RelationPath} {e : Expansion}

theorem pairwise_foldl_insert (chains : List RelationPath) (apart : e.paths.Pairwise Apart) :
    (chains.foldl insert e).paths.Pairwise Apart := by
  induction chains generalizing e with
  | nil => exact apart
  | cons path rest ih => exact ih (pairwise_insert apart)

theorem mem_or_mem_of_mem_foldl_insert
    {kept : RelationPath} (isKept : kept ∈ (chains.foldl insert e).paths) :
    kept ∈ e.paths ∨ kept ∈ chains := by
  induction chains generalizing e with
  | nil => exact Or.inl isKept
  | cons path rest ih =>
      rcases ih isKept with before | inRest
      · exact (mem_or_eq_of_mem_insert before).imp_right
          (by rintro rfl; exact List.mem_cons_self)
      · exact Or.inr (List.mem_cons_of_mem path inRest)

theorem foldl_insert_eq_append (apart : (e.paths ++ chains).Pairwise Apart) :
    chains.foldl insert e = ⟨e.paths ++ chains⟩ := by
  induction chains generalizing e with
  | nil => rw [List.append_nil, List.foldl_nil]
  | cons path rest ih =>
      have fromKept := (List.pairwise_append.1 apart).2.2
      rw [List.foldl_cons, insert_eq_append fun kept isKept =>
        fromKept kept isKept path List.mem_cons_self, ih]
      · rw [List.append_assoc, List.singleton_append]
      · rwa [List.append_assoc, List.singleton_append]

/-- What is left of chains that are added to nothing are the longest of them. -/
theorem keepsLongest_foldl_insert (chains : List RelationPath) :
    KeepsLongest chains (chains.foldl insert empty) where
  apart := pairwise_foldl_insert chains List.Pairwise.nil
  requested _ isKept := (mem_or_mem_of_mem_foldl_insert isKept).resolve_left List.not_mem_nil
  covers chain := by
    rw [← covers_iff, covers_foldl_insert]
    exact or_iff_right (by simp [Expansion.covers, empty])

namespace KeepsLongest

theorem nodup (longest : KeepsLongest chains e) : e.paths.Nodup := by
  refine longest.apart.imp ?_
  rintro path _ apart rfl
  exact apart.1 List.prefix_rfl

theorem eq_of_prefix
    (longest : KeepsLongest chains e) {kept : RelationPath} (isPath : path ∈ e.paths)
    (isKept : kept ∈ e.paths) (begins : path <+: kept) : path = kept := by
  by_contra different
  exact (longest.apart.forall isPath isKept different).1 begins

/-- The kept paths are the chains that begin no longer one. -/
theorem mem_paths_iff (longest : KeepsLongest chains e) :
    path ∈ e.paths ↔ path ∈ chains ∧ ∀ other ∈ chains, path <+: other → path = other := by
  constructor
  · intro isPath
    refine ⟨longest.requested path isPath, fun other isChain begins => ?_⟩
    obtain ⟨kept, isKept, goesOn⟩ := (longest.covers other).2 ⟨other, isChain, List.prefix_rfl⟩
    obtain rfl := longest.eq_of_prefix isPath isKept (begins.trans goesOn)
    exact begins.eq_of_length_le goesOn.length_le
  · rintro ⟨isChain, maximal⟩
    obtain ⟨kept, isKept, begins⟩ := (longest.covers path).2 ⟨path, isChain, List.prefix_rfl⟩
    rwa [maximal kept (longest.requested kept isKept) begins]

/-- The order and the repetitions of the chains matter for the order of the paths alone. -/
theorem perm
    {others : List RelationPath} {other : Expansion} (longest : KeepsLongest chains e)
    (longestOther : KeepsLongest others other) (same : ∀ path, path ∈ others ↔ path ∈ chains) :
    other.paths.Perm e.paths := by
  refine (List.perm_ext_iff_of_nodup longestOther.nodup longest.nodup).2 fun path => ?_
  simp only [longest.mem_paths_iff, longestOther.mem_paths_iff, same]

end KeepsLongest

variable {catalog : Catalog} {shape : Shape} {texts : List String}

theorem exists_build_eq_error_iff :
    (∃ fault, build catalog shape texts = .error fault) ↔
      ∃ text ∈ texts, ¬Declared catalog shape (pathSegments text) := by
  constructor
  · rintro ⟨fault, refused⟩
    by_contra none
    have declared : ∀ text ∈ texts, Declared catalog shape (pathSegments text) :=
      fun text isText => by_contra fun undeclared => none ⟨text, isText, undeclared⟩
    cases refused.symm.trans (build_eq_ok_iff.2 ⟨declared, rfl⟩)
  · rintro ⟨text, isText, undeclared⟩
    cases built : build catalog shape texts with
    | error fault => exact ⟨fault, rfl⟩
    | ok e => exact absurd ((build_eq_ok_iff.1 built).1 text isText) undeclared

/-- The texts of the kept paths are among those that were requested. -/
theorem KeepsLongest.exists_text
    (longest : KeepsLongest (texts.map pathSegments) e) (isPath : path ∈ e.paths) :
    joinSegments path ∈ texts ∧ pathSegments (joinSegments path) = path := by
  obtain ⟨text, isText, rfl⟩ := List.mem_map.1 (longest.requested path isPath)
  rw [joinSegments_pathSegments]
  exact ⟨isText, rfl⟩

/-- The paths are written chains of relations of a shape, and none of them begins another. -/
structure Expands (catalog : Catalog) (shape : Shape) (e : Expansion) : Prop where
  declared : ∀ path ∈ e.paths, Declared catalog shape path
  readable : ∀ path ∈ e.paths, pathSegments (joinSegments path) = path
  apart : e.paths.Pairwise Apart

theorem expands_of_build (built : build catalog shape texts = .ok e) :
    Expands catalog shape e := by
  obtain ⟨declared, rfl⟩ := build_eq_ok_iff.1 built
  have longest := keepsLongest_foldl_insert (texts.map pathSegments)
  exact {
    declared := fun path isPath => by
      obtain ⟨isText, readable⟩ := longest.exists_text isPath
      exact readable ▸ declared _ isText
    readable := fun path isPath => (longest.exists_text isPath).2
    apart := longest.apart }

/-- The expansions that are built from the texts of their own paths. -/
theorem build_joinSegments_iff :
    build catalog shape (e.paths.map joinSegments) = .ok e ↔ Expands catalog shape e := by
  refine ⟨expands_of_build, fun expands => build_eq_ok_iff.2 ⟨?_, ?_⟩⟩
  · rintro _ isText
    obtain ⟨path, isPath, rfl⟩ := List.mem_map.1 isText
    rw [expands.readable path isPath]
    exact expands.declared path isPath
  · rw [List.map_map, Function.comp_def, List.map_congr_left expands.readable, List.map_id']
    exact foldl_insert_eq_append (e := empty) expands.apart

theorem build_texts (built : build catalog shape texts = .ok e) :
    build catalog shape (e.paths.map joinSegments) = .ok e :=
  build_joinSegments_iff.2 (expands_of_build built)

/--
An expansion is refused when a segment of a requested path is no relation of the
shape that it reaches, with the fault of the first such path.  Otherwise it
keeps the longest of the requested paths, which are the same for every request
of the same paths, and is built again from the texts of the paths it keeps.
-/
theorem build_keepsLongest (catalog : Catalog) (shape : Shape) (paths : List String) :
    ((∃ fault, build catalog shape paths = .error fault) ↔
        ∃ path ∈ paths, ¬Declared catalog shape (pathSegments path)) ∧
      (∀ fault, build catalog shape paths = .error fault ↔
        ∃ before path after, paths = before ++ path :: after ∧
          (∀ earlier ∈ before, Declared catalog shape (pathSegments earlier)) ∧
          RelationPath.Fault catalog path shape (pathSegments path) fault) ∧
      ∀ e, build catalog shape paths = .ok e →
        KeepsLongest (paths.map pathSegments) e ∧
          (∀ others : List String, (∀ path, path ∈ others ↔ path ∈ paths) →
            ∃ other, build catalog shape others = .ok other ∧ other.paths.Perm e.paths) ∧
          build catalog shape (e.paths.map joinSegments) = .ok e := by
  refine ⟨exists_build_eq_error_iff, fun fault => ?_, fun e built => ?_⟩
  · simp only [build_eq_error_iff, Outcome.FirstError, relationPath_eq_ok_iff,
      relationPath_eq_error_iff, exists_eq_right]
  · obtain ⟨declared, rfl⟩ := build_eq_ok_iff.1 built
    have longest := keepsLongest_foldl_insert (paths.map pathSegments)
    refine ⟨longest, fun others same => ?_, build_texts built⟩
    have declaredOthers := fun path isOther => declared path ((same path).1 isOther)
    refine ⟨_, build_eq_ok_iff.2 ⟨declaredOthers, rfl⟩, ?_⟩
    refine longest.perm (keepsLongest_foldl_insert (others.map pathSegments)) fun chain => ?_
    simp only [List.mem_map, same]

end Expansion

namespace Sample

/-- Relatives of a tree item, some of which are loaded on the way to others. -/
def relatives : List String :=
  ["children", "parent.children", "parent", "children.parent", "parent.children"]

/-- Relatives of which the second is looked for behind a name. -/
def strangers : List String :=
  ["children", "parent.name.id", "sibling"]

theorem build_relatives :
    Expansion.build catalog treeItemShape relatives =
      .ok ⟨[["children", "parent"], ["parent", "children"]]⟩ := rfl

end Sample

/--
The parents of the children come first, since the children did; in the reverse
of the request the same paths are kept, and of paths at fault the first counts.
-/
theorem Expansion.build_keepsLongest_relatives :
    ∃ e, build Sample.catalog Sample.treeItemShape Sample.relatives = .ok e ∧
      e.KeepsLongest (Sample.relatives.map pathSegments) ∧
      (∃ other, build Sample.catalog Sample.treeItemShape Sample.relatives.reverse = .ok other ∧
        other.paths = [["parent", "children"], ["children", "parent"]] ∧
        other.paths.Perm e.paths) ∧
      build Sample.catalog Sample.treeItemShape ["children.parent", "parent.children"] = .ok e ∧
      build Sample.catalog Sample.treeItemShape Sample.strangers =
        .error (.ofPath (.notRelation "parent.name.id" "name" "tree_item")) := by
  have relatives := build_keepsLongest Sample.catalog Sample.treeItemShape Sample.relatives
  have strangers := build_keepsLongest Sample.catalog Sample.treeItemShape Sample.strangers
  obtain ⟨longest, alike, again⟩ := relatives.2.2 _ Sample.build_relatives
  obtain ⟨other, built, perm⟩ := alike Sample.relatives.reverse fun path => List.mem_reverse
  refine ⟨_, Sample.build_relatives, longest, ⟨other, built, ?_, perm⟩, again, ?_⟩
  · obtain rfl := Except.ok.inj built
    rfl
  · refine (strangers.2.1 _).2 ⟨["children"], "parent.name.id", ["sibling"], rfl, ?_, ?_⟩
    · exact List.forall_mem_singleton.2 (.last rfl rfl)
    · exact .further rfl rfl (.scalarBefore "id" [] rfl rfl)

/-! ## Nested expansions -/

namespace RelationPath

variable {catalog : Catalog} {shape : Shape} {name : String} {tail other : RelationPath}

theorem Declared.ne_nil {path : RelationPath} (declared : Declared catalog shape path) :
    path ≠ [] := by
  cases declared with
  | last => exact List.cons_ne_nil _ _
  | further => exact List.cons_ne_nil _ _

/-- The relations behind the first one are declared from the shape that it leads to. -/
theorem Declared.behind
    {field : Field} {target : TypeName} {cardinality : Cardinality}
    (declared : Declared catalog shape (name :: tail)) (goesOn : tail ≠ [])
    (found : shape.field? name = some field)
    (relation : field.kind = .relation target cardinality) :
    Declared catalog (catalog.shape target) tail := by
  cases declared with
  | last => exact absurd rfl goesOn
  | further foundFirst relationFirst declared =>
      obtain rfl := Option.some.inj (found.symm.trans foundFirst)
      obtain ⟨rfl, -⟩ := FieldKind.relation.inj (relation.symm.trans relationFirst)
      exact declared

theorem apart_cons_iff : Apart (name :: tail) (name :: other) ↔ Apart tail other := by
  rw [Apart, Apart, List.prefix_cons_inj, List.prefix_cons_inj]

/-- If a path can be read back from its text, so can what is left without its first relation. -/
theorem pathSegments_joinSegments_tail
    (readable : pathSegments (joinSegments (name :: tail)) = name :: tail) (goesOn : tail ≠ []) :
    pathSegments (joinSegments tail) = tail := by
  obtain ⟨-, unseparated, -⟩ := pathSegments_eq_iff.1 readable
  exact pathSegments_eq_iff.2 ⟨goesOn, (List.forall_mem_cons.1 unseparated).2, rfl⟩

end RelationPath

namespace Expansion

variable {catalog : Catalog} {shape : Shape} {e : Expansion}

/-- What is nested under a relation expands the shape that the relation leads to. -/
theorem Expands.nested
    {name : String} {field : Field} {target : TypeName} {cardinality : Cardinality}
    (expands : Expands catalog shape e) (found : shape.field? name = some field)
    (relation : field.kind = .relation target cardinality) :
    Expands catalog (catalog.shape target) (e.nested name) where
  declared tail isTail := by
    obtain ⟨isPath, goesOn⟩ := mem_paths_nested_iff.1 isTail
    exact (expands.declared _ isPath).behind goesOn found relation
  readable tail isTail := by
    obtain ⟨isPath, goesOn⟩ := mem_paths_nested_iff.1 isTail
    exact RelationPath.pathSegments_joinSegments_tail (expands.readable _ isPath) goesOn
  apart := by
    refine expands.apart.filterMap _ fun path other apart tail isTail tailOther isOther => ?_
    obtain ⟨rfl, -⟩ := tailAfter?_eq_some_iff.1 isTail
    obtain ⟨rfl, -⟩ := tailAfter?_eq_some_iff.1 isOther
    exact RelationPath.apart_cons_iff.1 apart

/-- What is left behind relations one after the other expands the shape that they lead to. -/
theorem Expands.behind
    {hops : List Hop} {reached : Shape} (expands : Expands catalog shape e)
    (leads : catalog.LeadsTo shape hops reached) :
    Expands catalog reached (e.behind (hops.map Hop.name)) := by
  induction leads generalizing e with
  | here => exact expands
  | through found relation _ ih => exact ih (expands.nested found relation)

end Expansion

namespace RelationPath

def read (path : RelationPath) (index : Nat) : Except OutOfBounds String :=
  match path[index]? with
  | some name => .ok name
  | none => .error ⟨index, path.length⟩

/-- The rest of a path that goes on, if its first relation has the name. -/
def readTail? (name : String) (path : RelationPath) :
    Except OutOfBounds (Option RelationPath) := do
  if 1 < path.length then
    return if (← path.read 0) = name then some (path.drop 1) else none
  else
    return none

theorem readTail?_eq (name : String) (path : RelationPath) :
    readTail? name path = .ok (Expansion.tailAfter? name path) := by
  match path with
  | [] => rfl
  | [first] => rfl
  | first :: second :: rest => rfl

end RelationPath

namespace Expansion

open RelationPath (Apart Declared)

variable {catalog : Catalog} {shape : Shape} {e : Expansion}

/-- Whether some path begins with the relation, by the index of its first relation. -/
def readIncludes (e : Expansion) (name : String) : Except OutOfBounds Bool :=
  e.paths.anyM fun path => return (← path.read 0) == name

/-- What is nested under a relation, by the indices of the first relations. -/
def readNested (e : Expansion) (name : String) : Except OutOfBounds Expansion := do
  let tails ← e.paths.mapM (RelationPath.readTail? name)
  return ⟨tails.filterMap id⟩

/-- An empty path cannot be read. -/
example : readIncludes ⟨[["parent"], []]⟩ "children" = .error ⟨0, 0⟩ := rfl

theorem readIncludes_eq {name : String} (nonempty : ∀ path ∈ e.paths, path ≠ []) :
    e.readIncludes name = .ok (e.includes name) := by
  refine Outcome.anyM_eq_ok_any fun path isPath => ?_
  obtain ⟨first, rest, rfl⟩ := List.exists_cons_of_ne_nil (nonempty path isPath)
  rfl

theorem readNested_eq (e : Expansion) (name : String) :
    e.readNested name = .ok (e.nested name) := by
  rw [readNested, Outcome.mapM_eq_ok_map fun path _ => RelationPath.readTail?_eq name path]
  exact congrArg (fun tails => Except.ok (Expansion.mk tails)) List.filterMap_map

/-- Nesting by indices succeeds along any chain of names. -/
theorem foldlM_readNested (e : Expansion) (chain : List String) :
    chain.foldlM readNested e = .ok (e.behind chain) := by
  induction chain generalizing e with
  | nil => rfl
  | cons name rest ih =>
      rw [List.foldlM_cons, readNested_eq]
      exact ih (e.nested name)

/-- No path becomes empty on a chain of names. -/
theorem ne_nil_of_mem_behind
    (nonempty : ∀ path ∈ e.paths, path ≠ []) (chain : List String) :
    ∀ path ∈ (e.behind chain).paths, path ≠ [] := by
  induction chain generalizing e with
  | nil => exact nonempty
  | cons name rest ih => exact ih fun tail isTail => (mem_paths_nested_iff.1 isTail).2

/--
An expansion that was built nests expansions that could have been: under each
relation of its shape it is what the shape of the relation builds from the
nested texts, it covers there what it covered behind the relation, and the same
holds on any chain of relations.  Along any chain of names the first relations
can be read by their index.
-/
theorem nested_rebuilds {texts : List String} (built : build catalog shape texts = .ok e) :
    (∀ name field target cardinality, shape.field? name = some field →
        field.kind = .relation target cardinality →
        build catalog (catalog.shape target) ((e.nested name).paths.map joinSegments) =
          .ok (e.nested name) ∧
        (∀ path ∈ (e.nested name).paths,
          path ≠ [] ∧ Declared catalog (catalog.shape target) path) ∧
        (e.nested name).paths.Pairwise Apart ∧
        (∀ chain ≠ [],
          (e.nested name).covers chain = true ↔ e.covers (name :: chain) = true) ∧
        (e.includes name = true ↔ e.covers [name] = true)) ∧
      (∀ hops reached, catalog.LeadsTo shape hops reached →
        build catalog reached ((e.behind (hops.map Hop.name)).paths.map joinSegments) =
          .ok (e.behind (hops.map Hop.name))) ∧
      ∀ chain name,
        chain.foldlM readNested e = .ok (e.behind chain) ∧
          (e.behind chain).readIncludes name = .ok ((e.behind chain).includes name) := by
  have expands := expands_of_build built
  refine ⟨fun name field target cardinality found relation => ?_, fun hops reached leads => ?_,
    fun chain name => ⟨foldlM_readNested e chain, ?_⟩⟩
  · have inner := expands.nested found relation
    have declared := fun path isPath =>
      And.intro (inner.declared path isPath).ne_nil (inner.declared path isPath)
    exact ⟨build_joinSegments_iff.2 inner, declared, inner.apart, fun _ => covers_nested,
      includes_iff⟩
  · exact build_joinSegments_iff.2 (expands.behind leads)
  · have nonempty := fun path isPath => (expands.declared path isPath).ne_nil
    exact readIncludes_eq (ne_nil_of_mem_behind nonempty chain)

/-- Of the relatives of a tree item, the children of the parent are left under the parent. -/
theorem nested_rebuilds_relatives :
    ∃ e, build Sample.catalog Sample.treeItemShape Sample.relatives = .ok e ∧
      e.nested "parent" = ⟨[["children"]]⟩ ∧
      build Sample.catalog Sample.treeItemShape ["children"] = .ok (e.nested "parent") ∧
      (e.nested "parent").covers ["children"] = true ∧ e.covers ["parent", "children"] = true ∧
      e.includes "parent" = true ∧ e.covers ["parent"] = true ∧
      (e.behind ["parent"]).readIncludes "children" = .ok true ∧
      ["parent", "children"].foldlM readNested e = .ok empty ∧
      empty.readIncludes "parent" = .ok false := by
  obtain ⟨under, along, reads⟩ := nested_rebuilds Sample.build_relatives
  obtain ⟨again, _, _, covers, includes⟩ :=
    under "parent" (Field.relation "parent" (Sample.typeNamed "tree_item") .one) _ _ rfl rfl
  have children := (covers ["children"] (List.cons_ne_nil _ _)).2 rfl
  refine ⟨_, Sample.build_relatives, rfl, again, children, rfl, ?_, rfl, ?_, ?_, ?_⟩
  · exact includes.2 rfl
  · exact (reads ["parent"] "children").2
  · exact (reads ["parent", "children"] "parent").1
  · exact (reads ["parent", "children"] "parent").2

end Expansion

end EntityAccess
