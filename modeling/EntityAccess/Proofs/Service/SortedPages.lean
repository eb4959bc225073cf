import EntityAccess.Proofs.Query.Ordering
import EntityAccess.Proofs.Service.Operations

/-!
# Sorted pages

What a service answers to an accepted request for all items: the stored records that
the filter holds of, each once, in the order of the request.  The order compares the
stored records, with all their relations; what the items show of them comes after
that.
-/

namespace EntityAccess

namespace PagePlan

/--
The records of a table that an accepted request is for, each with its position
in the table, in the order that the request asks for.
-/
structure Arranges (plan : PagePlan) (catalog : Catalog) (shape : Shape) (request : PageRequest)
    (rows : List Record) (sorted : List (Record × Nat)) : Prop where
  /-- The predicate passes the records that the filter holds of. -/
  selected : ∀ record, plan.predicate.matcher.test record = true ↔
    request.Selects catalog shape record
  /-- Each record that the predicate passes stands there once. -/
  each_once : sorted.Perm (rows.zipIdx.filter fun entry => plan.predicate.matcher.test entry.1)
  /--
  No record comes after one that stands behind it, and of two on a level the
  first comes first in the table.
  -/
  ordered : sorted.Pairwise (SortKey.Precedes plan.sort)
  /-- There is one key for each term, in the order of the terms. -/
  terms : List.Forall₂ (fun term key => key.path.segments = pathSegments term.path ∧
    key.direction = term.direction) request.orders plan.sort
  /-- Later keys decide only where the earlier ones do not. -/
  earlier_decide : ∀ earlier later, plan.sort = earlier ++ later → ∀ left right,
    SortKey.compareAll plan.sort left right =
      (SortKey.compareAll earlier left right).then (SortKey.compareAll later left right)
  /-- Null comes before every value upwards and after every value downwards. -/
  null_first : ∀ key ∈ plan.sort, ∀ left right, key.path.first left = .null →
    key.path.first right ≠ .null → key.compare left right = key.direction.apply .lt
  /-- Values are compared, and their order is turned round downwards. -/
  values : ∀ key ∈ plan.sort, ∀ left ∈ rows, ∀ right ∈ rows, key.path.first left ≠ .null →
    key.path.first right ≠ .null →
      ∃ order, (key.path.first left).compare? (key.path.first right) = some order ∧
        key.compare left right = key.direction.apply order
  /-- Where the relations of a key lead to no record, null is read. -/
  missing : ∀ key ∈ plan.sort, ∀ record ∈ rows,
    record.reach (key.path.hops.map Hop.name) = [] → key.path.first record = .null

end PagePlan

namespace SortKey

theorem compareAll_append (earlier later : List SortKey) (left right : Record) :
    compareAll (earlier ++ later) left right =
      (compareAll earlier left right).then (compareAll later left right) := by
  induction earlier with
  | nil => rfl
  | cons key rest ih => rw [List.cons_append, compareAll, ih, compareAll, Ordering.then_assoc]

theorem compare_of_null
    {key : SortKey} {left right : Record} (absent : key.path.first left = .null)
    (present : key.path.first right ≠ .null) :
    key.compare left right = key.direction.apply .lt := by
  rw [compare, Value.sortOrder, absent, Value.isNull_eq_false_iff.2 present]
  rfl

/-- Two values with a place at a key are compared, and their order is turned round downwards. -/
theorem exists_compare_of_ranks
    {keys : List SortKey} {key : SortKey} (isKey : key ∈ keys) {type : ScalarType}
    (scalar : key.path.scalar? = some type) {left right : Record} (leftRanks : Ranks keys left)
    (rightRanks : Ranks keys right) (leftPresent : key.path.first left ≠ .null)
    (rightPresent : key.path.first right ≠ .null) :
    ∃ order, (key.path.first left).compare? (key.path.first right) = some order ∧
      key.compare left right = key.direction.apply order := by
  obtain ⟨order, compared⟩ := ScalarType.exists_compare?_of_ranks
    (leftRanks key isKey type scalar) (rightRanks key isKey type scalar) leftPresent rightPresent
  refine ⟨order, compared, ?_⟩
  rw [compare, Value.sortOrder, Value.isNull_eq_false_iff.2 leftPresent,
    Value.isNull_eq_false_iff.2 rightPresent]
  simp only [compared, Option.getD_some]

/-- The keys of an accepted ordering go by its terms. -/
theorem forall₂_of_compileAll
    {catalog : Catalog} {shape : Shape} {terms : List OrderTerm} {keys : List SortKey}
    (accepted : OrderTerm.compileAll catalog shape terms = .ok keys) :
    List.Forall₂ (fun term key => key.path.segments = pathSegments term.path ∧
      key.direction = term.direction) terms keys := by
  refine (Outcome.mapM_eq_ok_iff.1 accepted).imp fun term key compiled => ?_
  obtain ⟨resolved, direction, _⟩ := OrderTerm.compile_eq_ok_iff.1 compiled
  exact ⟨(Catalog.leads_of_compilePath resolved).2, direction⟩

end SortKey

section Positions

variable {α : Type}

/-- The positions of a list increase. -/
theorem pairwise_zipIdx (items : List α) :
    items.zipIdx.Pairwise fun first second => first.2 < second.2 := by
  have positions : (items.zipIdx.map Prod.snd).Pairwise (· < ·) := by
    rw [List.zipIdx_map_snd]
    exact List.pairwise_lt_range'
  exact List.pairwise_map.1 positions

theorem map_fst_filter_zipIdx (items : List α) (keep : α → Bool) :
    (items.zipIdx.filter fun entry => keep entry.1).map Prod.fst = items.filter keep := by
  have whole : items.zipIdx.map Prod.fst = items := List.zipIdx_map_fst 0 items
  calc (items.zipIdx.filter fun entry => keep entry.1).map Prod.fst
      = (items.zipIdx.map Prod.fst).filter keep := List.filter_map.symm
    _ = items.filter keep := by rw [whole]

end Positions

/-! ## All items -/

namespace PagePlan

variable {catalog : Catalog} {shape : Shape} {request : PageRequest} {plan : PagePlan}
  {rows : List Record}

/--
The records that a plan lists are arranged as the request asks for, if all
records are of its shape and read numbers where they are sorted by them.
-/
theorem exists_arranges
    (accepted : compile catalog shape request = .ok plan)
    (conform : ∀ record ∈ rows, catalog.shape record.type = shape ∧ record.Conforms catalog)
    (numbers : ∀ record ∈ rows, ∀ key ∈ plan.sort, (key.path.first record).isNaN = false) :
    ∃ sorted, plan.Arranges catalog shape request rows sorted ∧
      sorted.map Prod.fst = plan.ordered rows := by
  obtain ⟨filter, order, _⟩ := compile_eq_ok_iff.1 accepted
  have valid := OrderTerm.valid_of_compileAll order
  have ranks : ∀ record ∈ rows, SortKey.Ranks plan.sort record := fun record stored =>
    SortKey.ranks_of_conforms valid (conform record stored).2 (conform record stored).1
      (numbers record stored)
  let entries := rows.zipIdx.filter fun entry => plan.predicate.matcher.test entry.1
  have matching : entries.map Prod.fst = plan.matching rows := by
    rw [PagePlan.matching, ← Predicate.test_matcher_eq]
    exact map_fst_filter_zipIdx rows _
  have ranked : SortKey.Ranked plan.sort (entries.map Prod.fst) := by
    refine SortKey.ranked_of_ranks (fun key isKey => (valid key isKey).scalar) ?_
    rw [matching]
    exact fun record isRecord => ranks record (List.mem_of_mem_filter isRecord)
  obtain ⟨sorted, records, perm, ordered⟩ :=
    SortKey.sort_stable ((pairwise_zipIdx rows).filter _) ranked
  refine ⟨sorted, ?_, by rw [records, matching, PagePlan.ordered]⟩
  constructor
  case selected => exact PageRequest.test_iff_selects filter
  case each_once => exact perm
  case ordered => exact ordered
  case terms => exact SortKey.forall₂_of_compileAll order
  case earlier_decide =>
    intro earlier later split left right
    rw [split]
    exact SortKey.compareAll_append earlier later left right
  case null_first => exact fun key _ left right => SortKey.compare_of_null
  case values =>
    intro key isKey left isLeft right isRight
    obtain ⟨type, scalar⟩ := (valid key isKey).scalar
    exact SortKey.exists_compare_of_ranks isKey scalar (ranks left isLeft) (ranks right isRight)
  case missing =>
    intro key isKey record stored nowhere
    rw [(valid key isKey).first_eq_target (conform record stored).2 (conform record stored).1,
      Path.target, nowhere]
    rfl

end PagePlan

namespace Service

variable {Dto : Type} {catalog : Catalog} {shape : Shape} {request : PageRequest} {plan : PagePlan}
  {table : Table}

/--
An accepted request without a slice is answered with what the service shows of
the records in the order of the request, if these are records of its shape and
read numbers where they are sorted by them.
-/
theorem getPaged_arranges
    (mapper : Mapper Dto) (config : ServiceConfig)
    (accepted : PagePlan.compile catalog shape request = .ok plan)
    (whole : request.skip = none ∧ request.take = none)
    (conform : ∀ record ∈ table.working,
      catalog.shape record.type = shape ∧ record.Conforms catalog)
    (numbers : ∀ record ∈ table.working, ∀ key ∈ plan.sort,
      (key.path.first record).isNaN = false) :
    ∃ sorted, plan.Arranges catalog shape request table.working sorted ∧
      Running.run ((onTable catalog shape mapper config).getPaged request) table =
        (.ok ⟨sorted.map fun entry => mapper.ofRecord (entry.1.prune plan.expansion),
          sorted.length⟩, table) := by
  obtain ⟨sorted, arranges, records⟩ := PagePlan.exists_arranges accepted conform numbers
  refine ⟨sorted, arranges, ?_⟩
  obtain ⟨_, _, _, skip, take⟩ := PagePlan.compile_eq_ok_iff.1 accepted
  have items : sorted.map (fun entry => mapper.ofRecord (entry.1.prune plan.expansion)) =
      ((plan.ordered table.working).map (Record.prune plan.expansion)).map mapper.ofRecord := by
    rw [← records, List.map_map, List.map_map]
    rfl
  have total : sorted.length = (plan.matching table.working).length := by
    rw [arranges.each_once.length_eq, PagePlan.matching, ← Predicate.test_matcher_eq,
      ← map_fst_filter_zipIdx table.working, List.length_map]
  rw [run_getPaged, accepted]
  dsimp only
  rw [items, total, PagePlan.answer, skip, take, whole.1, whole.2]
  rfl

end Service

namespace Sample

/-- Three items below an oak and two without a parent. -/
def saplings : Table :=
  .ofRecords [withParent (treeItem 1 "leaf") (treeItem 9 "oak"), treeItem 2 "seed",
    withParent (treeItem 3 "bud") (treeItem 9 "oak"), treeItem 4 "seed",
    withParent (treeItem 5 "leaf") (treeItem 9 "oak")]

/-- By the name of the parent, then by the own name, both from the last to the first. -/
def byNames : PageRequest where
  filter := none
  expand := none
  orders := [⟨"parent.name", .descending⟩, ⟨"name", .descending⟩]
  skip := none
  take := none

def namesPlan : PagePlan where
  predicate := .all
  sort :=
    [⟨Path.after ⟨"parent", .one⟩ (Path.ofField (Field.scalar "name" .text)), .descending⟩,
      ⟨Path.ofField (Field.scalar "name" .text), .descending⟩]
  expansion := .empty
  skip := none
  take := none

theorem compile_byNames : PagePlan.compile catalog treeItemShape byNames = .ok namesPlan := rfl

end Sample

namespace Service

/-- Items without a parent come last, and items with the same names as they are stored. -/
theorem getPaged_arranges_saplings :
    ∃ sorted, Sample.namesPlan.Arranges Sample.catalog Sample.treeItemShape Sample.byNames
        Sample.saplings.working sorted ∧
      Running.run ((onTable Sample.catalog Sample.treeItemShape Mapper.identity .default).getPaged
          Sample.byNames) Sample.saplings =
        (.ok ⟨sorted.map fun entry => entry.1.prune .empty, sorted.length⟩, Sample.saplings) ∧
      sorted.map (fun entry => Sample.treeItemShape.keyOf (entry.1.prune .empty)) =
        [.int 1, .int 5, .int 3, .int 2, .int 4] := by
  have conform : ∀ record ∈ Sample.saplings.working,
      Sample.catalog.shape record.type = Sample.treeItemShape ∧
        record.Conforms Sample.catalog := by
    change ∀ record ∈ [_, _, _, _, _], _
    simp only [List.forall_mem_cons]
    exact ⟨⟨rfl, Sample.conforms_withParent ..⟩, ⟨rfl, Sample.conforms_treeItem ..⟩,
      ⟨rfl, Sample.conforms_withParent ..⟩, ⟨rfl, Sample.conforms_treeItem ..⟩,
      ⟨rfl, Sample.conforms_withParent ..⟩, List.forall_mem_nil _⟩
  have numbers : ∀ record ∈ Sample.saplings.working, ∀ key ∈ Sample.namesPlan.sort,
      (key.path.first record).isNaN = false := by decide
  obtain ⟨sorted, arranges, answered⟩ := getPaged_arranges Mapper.identity .default
    Sample.compile_byNames ⟨rfl, rfl⟩ conform numbers
  refine ⟨sorted, arranges, answered, ?_⟩
  have items : sorted.map (fun entry => entry.1.prune .empty) = _ :=
    (congrArg (fun page => page.items) (Except.ok.inj (congrArg Prod.fst answered))).symm
  calc sorted.map (fun entry => Sample.treeItemShape.keyOf (entry.1.prune .empty))
      = (sorted.map fun entry => entry.1.prune .empty).map Sample.treeItemShape.keyOf := by
        rw [List.map_map]
        rfl
    _ = [.int 1, .int 5, .int 3, .int 2, .int 4] := by
        rw [items]
        rfl

end Service

end EntityAccess
