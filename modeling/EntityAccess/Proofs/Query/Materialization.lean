import EntityAccess.Proofs.Query.RelationPaths
import EntityAccess.Proofs.Record.Storage

/-!
# Loaded records

A query lists stored records with the relations that were requested and no others.
Behind a chain that is loaded stand the stored records, pruned to what is loaded
behind them; behind any other chain stands nothing.
-/

namespace EntityAccess

namespace Relation

theorem name_prune (e : Expansion) (relation : Relation) :
    (relation.prune e).name = relation.name := by
  cases relation with
  | one name related =>
      rw [prune]
      split <;> rfl
  | many name related =>
      rw [prune]
      split <;> rfl

end Relation

namespace Record

theorem pruneOptional_eq_map (e : Expansion) (related : Option Record) :
    pruneOptional e related = related.map (prune e) := by
  cases related <;> rfl

theorem pruneList_eq_map (e : Expansion) (related : List Record) :
    pruneList e related = related.map (prune e) := by
  induction related with
  | nil => rfl
  | cons record rest ih => rw [pruneList, ih, List.map_cons]

@[simp]
theorem type_prune (e : Expansion) (record : Record) : (record.prune e).type = record.type := by
  cases record
  rfl

end Record

namespace Relation

theorem related_prune (e : Expansion) (relation : Relation) :
    (relation.prune e).related =
      if e.includes relation.name then relation.related.map (Record.prune (e.nested relation.name))
      else [] := by
  cases relation with
  | one name related =>
      rw [prune, Record.pruneOptional_eq_map, Relation.name]
      split
      · cases related <;> rfl
      · rfl
  | many name related =>
      rw [prune, Record.pruneList_eq_map, Relation.name]
      split <;> rfl

end Relation

namespace Record

/-- Behind a relation that is loaded, what is nested under it is loaded. -/
theorem related_prune (e : Expansion) (record : Record) (name : String) :
    (record.prune e).related name =
      if e.includes name then (record.related name).map (prune (e.nested name)) else [] := by
  obtain ⟨type, scalars, relations⟩ := record
  simp only [prune, related, relation?, Record.relations]
  induction relations with
  | nil => simp [Relation.pruneAll]
  | cons relation rest ih =>
      rw [Relation.pruneAll, List.find?_cons, List.find?_cons, Relation.name_prune]
      cases here : relation.name == name with
      | false => exact ih
      | true =>
          rw [← beq_iff_eq.1 here]
          exact relation.related_prune e

/-- Behind a chain that is loaded, each stored record stands pruned to what is loaded there. -/
theorem reach_prune (e : Expansion) (record : Record) (chain : RelationPath) :
    (record.prune e).reach chain =
      if e.loads chain then (record.reach chain).map (prune (e.behind chain)) else [] := by
  induction chain generalizing e record with
  | nil => rfl
  | cons name rest ih =>
      rw [reach_cons, reach_cons, related_prune, Expansion.loads, Expansion.behind, List.foldl_cons]
      cases e.includes name with
      | false => rfl
      | true =>
          -- Behind each related record the rest of the chain is loaded, or behind none.
          rw [if_pos rfl, List.flatMap_map, Bool.true_and]
          simp only [ih]
          split
          · exact List.map_flatMap.symm
          · exact List.flatMap_eq_nil_iff.2 fun _ _ => rfl

end Record

namespace Expansion

variable {e other : Expansion}

theorem includes_eq_of_loads_eq
    (same : ∀ chain, e.loads chain = other.loads chain) (name : String) :
    e.includes name = other.includes name := by
  have first := same [name]
  rwa [loads, loads, loads, loads, Bool.and_true, Bool.and_true] at first

theorem loads_nested_eq
    (same : ∀ chain, e.loads chain = other.loads chain) {name : String}
    (loaded : e.includes name = true) (chain : RelationPath) :
    (e.nested name).loads chain = (other.nested name).loads chain := by
  have further := same (name :: chain)
  rwa [loads, loads, ← includes_eq_of_loads_eq same, loaded, Bool.true_and, Bool.true_and]
    at further

end Expansion

mutual

/-- Expansions that load the same chains prune a record alike. -/
theorem Record.prune_congr {e other : Expansion}
    (same : ∀ chain, e.loads chain = other.loads chain) :
    ∀ record : Record, record.prune e = record.prune other
  | .mk type scalars relations => by
      rw [Record.prune, Record.prune, Relation.pruneAll_congr same relations]

theorem Relation.pruneAll_congr {e other : Expansion}
    (same : ∀ chain, e.loads chain = other.loads chain) :
    ∀ relations : List Relation,
      Relation.pruneAll e relations = Relation.pruneAll other relations
  | [] => rfl
  | relation :: rest => by
      rw [Relation.pruneAll, Relation.pruneAll, Relation.prune_congr same relation,
        Relation.pruneAll_congr same rest]

theorem Relation.prune_congr {e other : Expansion}
    (same : ∀ chain, e.loads chain = other.loads chain) :
    ∀ relation : Relation, relation.prune e = relation.prune other
  | .one name related => by
      rw [Relation.prune, Relation.prune, ← Expansion.includes_eq_of_loads_eq same]
      split
      · rename_i loaded
        rw [Record.pruneOptional_congr (Expansion.loads_nested_eq same loaded) related]
      · rfl
  | .many name related => by
      rw [Relation.prune, Relation.prune, ← Expansion.includes_eq_of_loads_eq same]
      split
      · rename_i loaded
        rw [Record.pruneList_congr (Expansion.loads_nested_eq same loaded) related]
      · rfl

theorem Record.pruneOptional_congr {e other : Expansion}
    (same : ∀ chain, e.loads chain = other.loads chain) :
    ∀ related : Option Record, Record.pruneOptional e related = Record.pruneOptional other related
  | none => rfl
  | some record => congrArg some (Record.prune_congr same record)

theorem Record.pruneList_congr {e other : Expansion}
    (same : ∀ chain, e.loads chain = other.loads chain) :
    ∀ related : List Record, Record.pruneList e related = Record.pruneList other related
  | [] => rfl
  | record :: rest => by
      rw [Record.pruneList, Record.pruneList, Record.prune_congr same record,
        Record.pruneList_congr same rest]

end

/-! ## Listed records -/

namespace Record

/-- A record as it is stored, beside the one that is loaded from it for requested paths. -/
structure Loads (paths : List String) (stored loaded : Record) : Prop where
  type : loaded.type = stored.type
  scalars : loaded.scalars = stored.scalars
  /-- Behind a requested chain stand the stored records in order, with all their scalars. -/
  requested : ∀ chain : RelationPath, chain ≠ [] → chain.Requested paths →
    List.Forall₂ (fun own shown : Record => shown.type = own.type ∧ shown.scalars = own.scalars)
      (stored.reach chain) (loaded.reach chain)
  /-- Behind any other chain stands nothing. -/
  others : ∀ chain : RelationPath, chain ≠ [] → ¬ chain.Requested paths → loaded.reach chain = []

section Requests

variable {catalog : Catalog} {shape : Shape} {paths : List String} {e : Expansion}

/-- The chains that are loaded are those that were requested. -/
theorem loads_iff_requested
    (built : Expansion.build catalog shape paths = .ok e) {chain : RelationPath}
    (more : chain ≠ []) :
    e.loads chain = true ↔ chain.Requested paths :=
  (Expansion.loads_iff_covers more).trans (Expansion.covers_of_build built chain)

/-- A record is loaded with the relations that were requested. -/
theorem loads_prune
    (built : Expansion.build catalog shape paths = .ok e) (stored : Record) :
    stored.Loads paths (stored.prune e) where
  type := stored.type_prune e
  scalars := stored.scalars_prune e
  requested chain more requested := by
    rw [reach_prune, if_pos ((loads_iff_requested built more).2 requested),
      List.forall₂_map_right_iff]
    exact List.forall₂_same.2 fun own _ => ⟨own.type_prune _, own.scalars_prune _⟩
  others chain more unrequested := by
    rw [reach_prune, if_neg (unrequested ∘ (loads_iff_requested built more).1)]

end Requests

end Record

namespace Table

variable {catalog : Catalog} {shape : Shape}

/--
A query that loads what was built from accepted paths lists the records it
selects with the relations that these request, and lists the same for any other
accepted paths that request the same chains.
-/
theorem toList_loads
    {paths : List String} {query : TableQuery}
    (built : Expansion.build catalog shape paths = .ok query.expansion) (table : Table) :
    ∃ loaded, Running.run ((store shape).toList query) table = (.ok loaded, table) ∧
      List.Forall₂ (Record.Loads paths) (query.select table.working) loaded ∧
      ∀ others expansion, Expansion.build catalog shape others = .ok expansion →
        (∀ chain : RelationPath, chain ≠ [] → (chain.Requested others ↔ chain.Requested paths)) →
        Running.run ((store shape).toList { query with expansion }) table =
          (.ok loaded, table) := by
  refine ⟨query.results table.working, rfl, ?_, fun others expansion othersBuilt same => ?_⟩
  · rw [TableQuery.results, List.forall₂_map_right_iff]
    exact List.forall₂_same.2 fun stored _ => stored.loads_prune built
  · have sameChains : ∀ chain, expansion.loads chain = query.expansion.loads chain := by
      intro chain
      cases chain with
      | nil => rfl
      | cons name rest =>
          have more := List.cons_ne_nil name rest
          rw [Bool.eq_iff_iff, Record.loads_iff_requested othersBuilt more,
            Record.loads_iff_requested built more]
          exact same _ more
    have samePruned : Record.prune expansion = Record.prune query.expansion :=
      funext (Record.prune_congr sameChains)
    change (Except.ok ((query.select table.working).map (Record.prune expansion)), table) = _
    rw [samePruned]
    rfl

end Table

namespace Sample

/-- An item below another one, with items beside it and below it. -/
def branching : Record :=
  let twig := (treeItem 6 "twig").loadMany "children" [treeItem 7 "leaf"]
  let bough := (treeItem 2 "bough").loadMany "children" [treeItem 4 "fork", treeItem 5 "bud"]
  (withParent (treeItem 1 "branch") (withParent bough (treeItem 3 "trunk"))).loadMany "children"
    [twig, treeItem 8 "thorn"]

def nestedChildren : TableQuery :=
  { TableQuery.all with expansion := ⟨[["parent", "children"], ["children"]]⟩ }

theorem build_nestedChildren :
    Expansion.build catalog treeItemShape ["parent", "parent.children", "children"] =
      .ok nestedChildren.expansion := rfl

/-- A path that another one extends requests nothing more. -/
theorem requested_nestedChildren (chain : RelationPath) :
    chain.Requested ["children", "parent.children"] ↔
      chain.Requested ["parent", "parent.children", "children"] := by
  have parent : pathSegments "parent" = ["parent"] := rfl
  have below : pathSegments "parent.children" = ["parent", "children"] := rfl
  constructor
  · rintro ⟨path, isPath, begins⟩
    exact ⟨path, List.mem_cons_of_mem _ (by simpa [or_comm] using isPath), begins⟩
  · rintro ⟨path, isPath, begins⟩
    rcases List.mem_cons.1 isPath with rfl | isOther
    · refine ⟨"parent.children", by simp, ?_⟩
      rw [parent] at begins
      rw [below]
      exact begins.trans (List.prefix_append ["parent"] ["children"])
    · exact ⟨path, by simpa [or_comm] using isOther, begins⟩

end Sample

namespace Table

/-- The children of the parent are loaded, but not the parent of the parent. -/
theorem toList_loads_branching :
    ∃ loaded,
      Running.run ((store Sample.treeItemShape).toList Sample.nestedChildren)
          (.ofRecords [Sample.branching]) =
        (.ok [loaded], .ofRecords [Sample.branching]) ∧
      Sample.branching.Loads ["parent", "parent.children", "children"] loaded ∧
      (∃ expansion,
        Expansion.build Sample.catalog Sample.treeItemShape ["children", "parent.children"] =
            .ok expansion ∧
          Running.run ((store Sample.treeItemShape).toList { Sample.nestedChildren with expansion })
              (.ofRecords [Sample.branching]) =
            (.ok [loaded], .ofRecords [Sample.branching])) ∧
      (loaded.reach ["parent", "children"]).map Sample.treeItemShape.keyOf = [.int 4, .int 5] ∧
      (Sample.branching.reach ["parent", "parent"]).map Sample.treeItemShape.keyOf = [.int 3] ∧
      loaded.reach ["parent", "parent"] = [] := by
  obtain ⟨answer, listed, items, alike⟩ :=
    toList_loads Sample.build_nestedChildren (.ofRecords [Sample.branching])
  change List.Forall₂ _ [Sample.branching] answer at items
  obtain ⟨loaded, rest, loads, none, rfl⟩ := List.forall₂_cons_left_iff.1 items
  obtain rfl := List.forall₂_nil_left_iff.1 none
  have pruned : Sample.branching.prune Sample.nestedChildren.expansion = loaded :=
    List.head_eq_of_cons_eq (Except.ok.inj (congrArg Prod.fst listed))
  refine ⟨loaded, listed, loads, ⟨_, rfl, ?_⟩, ?_, rfl, ?_⟩
  · exact alike _ _ rfl fun chain _ => Sample.requested_nestedChildren chain
  · rw [← pruned]
    rfl
  · rw [← pruned]
    rfl

end Table

end EntityAccess
