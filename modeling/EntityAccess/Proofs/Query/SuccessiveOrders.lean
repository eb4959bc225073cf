import EntityAccess.Proofs.Service.SortedPages
import Mathlib.Data.List.Nodup
import Mathlib.Data.List.Pairwise

/-!
# Successive orders

A query is refined call by call, and a table replays the refinements when the query
is counted or listed.  A query that is ordered again keeps its first order where
the second one leaves records on a level, since sorting is stable.  So the orders
act as one, in which the keys of the last order decide first; the first order is
gone only if the records that the last one does not separate are stored in it
anyway.
-/

namespace EntityAccess

/-! ## Refined queries -/

/-- A call that refines a query. -/
inductive Refinement where
  | filter (predicate : Predicate)
  | orderBy (keys : List SortKey)
  | expand (expansion : Expansion)
  | skip (count : Nat)
  | take (count : Nat)

/-- Make a refining call. -/
def Source.refine {σ Query : Type} (source : Source σ Query) (query : Query) :
    Refinement → StateM σ Query
  | .filter predicate => source.filter predicate query
  | .orderBy keys => source.orderBy keys query
  | .expand expansion => source.expand expansion query
  | .skip count => source.skip count query
  | .take count => source.take count query

/-- The count and the list of what is left of all records after refinements. -/
def Store.answers {σ Query : Type} (store : Store σ Query) (refinements : List Refinement) :
    StoreCall σ (Nat × List Record) := do
  let all ← store.getAll
  let refined ← (refinements.foldlM store.refine all : StateM σ Query)
  let count ← store.count refined
  let records ← store.toList refined
  return (count, records)

namespace Refinement

/-- The rows that a refinement leaves. -/
def rows (records : List Record) : Refinement → List Record
  | .filter predicate => records.filter predicate.holds
  | .orderBy keys => SortKey.sort keys records
  | .expand _ => records
  | .skip count => records.drop count
  | .take count => records.take count

/-- What a query loads after a refinement. -/
def loads (expansion : Expansion) : Refinement → Expansion
  | .expand replacing => replacing
  | _ => expansion

/-- No refinement adds a row. -/
theorem rows_subset (records : List Record) (refinement : Refinement) :
    refinement.rows records ⊆ records := by
  cases refinement with
  | filter predicate => exact List.filter_sublist.subset
  | orderBy keys => exact (SortKey.sort_perm keys records).subset
  | expand expansion => exact List.Subset.refl records
  | skip count => exact List.drop_subset count records
  | take count => exact List.take_subset count records

theorem foldl_rows_subset (records : List Record) (refinements : List Refinement) :
    refinements.foldl rows records ⊆ records := by
  induction refinements generalizing records with
  | nil => exact List.Subset.refl records
  | cons refinement rest ih =>
      exact List.Subset.trans (ih (refinement.rows records)) (refinement.rows_subset records)

end Refinement

namespace Table

variable {shape : Shape} {table : Table}

/-- A refinement of a query over a table works on the rows of the query. -/
theorem exists_run_refine
    (shape : Shape) (table : Table) (query : TableQuery) (refinement : Refinement) :
    ∃ refined,
      StateT.run ((store shape).refine query refinement) table = (refined, table) ∧
      refined.expansion = refinement.loads query.expansion ∧
      ∀ records, refined.select records = refinement.rows (query.select records) := by
  cases refinement with
  | filter predicate =>
      refine ⟨query.push (.filter predicate.matcher), rfl, rfl, fun records => ?_⟩
      rw [TableQuery.select_push, QueryStep.apply, Predicate.test_matcher_eq]
      rfl
  | orderBy keys =>
      cases keys with
      | nil => exact ⟨query, rfl, rfl, fun records => (SortKey.sort_nil _).symm⟩
      | cons key rest => exact ⟨_, rfl, rfl, TableQuery.select_push query (.order (key :: rest))⟩
  | expand expansion => exact ⟨{ query with expansion }, rfl, rfl, fun _ => rfl⟩
  | skip count => exact ⟨_, rfl, rfl, TableQuery.select_push query (.skip count)⟩
  | take count => exact ⟨_, rfl, rfl, TableQuery.select_push query (.take count)⟩

/-- Refinements work on what those before them have left. -/
theorem exists_run_refinements
    (shape : Shape) (table : Table) (refinements : List Refinement) (query : TableQuery) :
    ∃ refined,
      StateT.run (refinements.foldlM (store shape).refine query : StateM Table TableQuery) table =
        (refined, table) ∧
      refined.expansion = refinements.foldl Refinement.loads query.expansion ∧
      ∀ records,
        refined.select records = refinements.foldl Refinement.rows (query.select records) := by
  induction refinements generalizing query with
  | nil => exact ⟨query, rfl, rfl, fun _ => rfl⟩
  | cons refinement rest ih =>
      obtain ⟨next, ranNext, loadsNext, selectsNext⟩ :=
        exists_run_refine shape table query refinement
      obtain ⟨refined, ran, loads, selects⟩ := ih next
      refine ⟨refined, ?_, ?_, fun records => ?_⟩
      · rw [List.foldlM_cons, StateT.run_bind, ranNext]
        exact ran
      · rw [loads, loadsNext]
        rfl
      · rw [selects, selectsNext]
        rfl

/-- What a table answers to a refined query, and the table afterwards. -/
def answers (shape : Shape) (table : Table) (refinements : List Refinement) :
    Except StoreError (Nat × List Record) × Table :=
  Running.run ((store shape).answers refinements) table

/-- A refined query counts and lists the rows that all its refinements leave. -/
theorem answers_eq (shape : Shape) (table : Table) (refinements : List Refinement) :
    table.answers shape refinements =
      (.ok ((refinements.foldl Refinement.rows table.working).length,
        (refinements.foldl Refinement.rows table.working).map
          (Record.prune (refinements.foldl Refinement.loads .empty))), table) := by
  obtain ⟨refined, ran, loads, selects⟩ := exists_run_refinements shape table refinements .all
  have answered : table.answers shape refinements =
      (.ok ((refined.select table.working).length, refined.results table.working), table) := by
    have refining : Running.run (liftM (refinements.foldlM (store shape).refine .all :
        StateM Table TableQuery) : StoreCall Table TableQuery) table = (.ok refined, table) := by
      rw [Running.run_lift, ran]
    exact (Running.run_bind_of_ok (Running.run_lift (store shape).getAll table) _).trans
      (Running.run_bind_of_ok refining _)
  rw [answered, TableQuery.results, selects, loads]
  rfl

/--
Refinements can be exchanged between others if they leave the same rows of those
that they are given, and load the same.
-/
theorem answers_congr
    {before left right : List Refinement} (after : List Refinement)
    (sameRows : left.foldl Refinement.rows (before.foldl Refinement.rows table.working) =
      right.foldl Refinement.rows (before.foldl Refinement.rows table.working))
    (sameLoads : ∀ expansion, left.foldl Refinement.loads expansion =
      right.foldl Refinement.loads expansion) :
    table.answers shape (before ++ left ++ after) =
      table.answers shape (before ++ right ++ after) := by
  simp only [answers_eq, List.foldl_append, sameRows, sameLoads]

end Table

/-! ## Sorting twice -/

theorem rel_of_mem_zipIdx
    {α : Type} {items : List α} {R : α → α → Prop} (ordered : items.Pairwise R)
    {first second : α × Nat} (isFirst : first ∈ items.zipIdx) (isSecond : second ∈ items.zipIdx)
    (before : first.2 < second.2) : R first.1 second.1 := by
  obtain ⟨firstBound, firstAt⟩ :=
    List.getElem?_eq_some_iff.1 (List.mem_zipIdx_iff_getElem?.1 isFirst)
  obtain ⟨secondBound, secondAt⟩ :=
    List.getElem?_eq_some_iff.1 (List.mem_zipIdx_iff_getElem?.1 isSecond)
  have related := List.pairwise_iff_getElem.1 ordered _ _ firstBound secondBound before
  rwa [firstAt, secondAt] at related

namespace SortKey

variable {keys earlier later : List SortKey} {records : List Record}

theorem Precedes.asymm
    {first second : Record × Nat} (precedes : Precedes keys first second) :
    ¬ Precedes keys second first := by
  rintro ⟨notGreater, tie⟩
  have level : compareAll keys first.1 second.1 = .eq := by
    rw [compareAll_swap] at notGreater
    cases order : compareAll keys first.1 second.1 with
    | eq => rfl
    | lt => exact absurd (by rw [order]; rfl) notGreater
    | gt => exact absurd order precedes.1
  have before := precedes.2 level
  have behind := tie (by rw [compareAll_swap, level]; rfl)
  exact Nat.lt_asymm before behind

/-- Entries stand in the order of the keys in one way only. -/
theorem eq_of_pairwise_precedes
    {left right : List (Record × Nat)} (perm : left.Perm right)
    (leftOrdered : left.Pairwise (Precedes keys)) (rightOrdered : right.Pairwise (Precedes keys)) :
    left = right :=
  perm.eq_of_pairwise (fun _ _ _ _ before behind => absurd behind before.asymm)
    leftOrdered rightOrdered

/-- Precedence by later keys, and among what is on a level by earlier ones. -/
theorem precedes_append
    {first second : Record × Nat} {firstPlace secondPlace : Nat}
    (precedes : Precedes later (first.1, firstPlace) (second.1, secondPlace))
    (tie : compareAll later first.1 second.1 = .eq → firstPlace < secondPlace →
      Precedes earlier first second) :
    Precedes (later ++ earlier) first second := by
  unfold Precedes
  rw [compareAll_append]
  cases order : compareAll later first.1 second.1 with
  | lt => exact ⟨nofun, nofun⟩
  | gt => exact absurd order precedes.1
  | eq => exact tie order (precedes.2 order)

/-- Records are sorted together with their places. -/
theorem exists_sort_zipIdx (ranked : Ranked keys records) :
    ∃ sorted : List (Record × Nat), sorted.map Prod.fst = sort keys records ∧
      sorted.Perm records.zipIdx ∧ sorted.Pairwise (Precedes keys) := by
  have places : records.zipIdx.map Prod.fst = records := List.zipIdx_map_fst 0 records
  obtain ⟨sorted, sortedRecords, perm, ordered⟩ :=
    sort_stable (pairwise_zipIdx records) (places.symm ▸ ranked)
  exact ⟨sorted, places ▸ sortedRecords, perm, ordered⟩

/-- Sorting again is sorting once, with the keys of the last order in front. -/
theorem sort_sort
    (scalars : ∀ key ∈ later ++ earlier, ∃ type, key.path.scalar? = some type)
    (ranks : ∀ record ∈ records, Ranks (later ++ earlier) record) :
    sort later (sort earlier records) = sort (later ++ earlier) records := by
  have ranked := ranked_of_ranks scalars ranks
  obtain ⟨once, onceRecords, oncePerm, onceOrdered⟩ := exists_sort_zipIdx <|
    ranked.of_subset (List.subset_append_right later earlier) (List.Subset.refl records)
  have onceMembers : (once.zipIdx.map fun item => item.1.1) ⊆ records := by
    change once.zipIdx.map (Prod.fst ∘ Prod.fst) ⊆ records
    rw [← List.map_map, List.zipIdx_map_fst, onceRecords]
    exact (sort_perm earlier records).subset
  -- The second sorting sees the places after the first one; the entries keep the old places too.
  obtain ⟨twice, twiceRecords, twicePerm, twiceOrdered⟩ :=
    exists_sort (fun item : (Record × Nat) × Nat => (item.1.1, item.2)) (pairwise_zipIdx once) <|
      ranked.of_subset (List.subset_append_left later earlier) onceMembers
  obtain ⟨joint, jointRecords, jointPerm, jointOrdered⟩ := exists_sort_zipIdx ranked
  have entries : twice.map Prod.fst = joint := by
    have perm : (twice.map Prod.fst).Perm joint := by
      have places := twicePerm.map Prod.fst
      rw [List.zipIdx_map_fst] at places
      exact places.trans (oncePerm.trans jointPerm.symm)
    refine eq_of_pairwise_precedes perm (List.pairwise_map.2 ?_) jointOrdered
    refine twiceOrdered.imp_of_mem fun isFirst isSecond precedes => ?_
    exact precedes_append precedes fun _ =>
      rel_of_mem_zipIdx onceOrdered (twicePerm.subset isFirst) (twicePerm.subset isSecond)
  calc sort later (sort earlier records)
      = sort later (once.zipIdx.map fun item => item.1.1) := by
        rw [← onceRecords]
        conv_lhs => rw [← List.zipIdx_map_fst 0 once, List.map_map]
        rfl
    _ = (twice.map Prod.fst).map Prod.fst := by
        rw [← twiceRecords, List.map_map]
        rfl
    _ = sort (later ++ earlier) records := by rw [entries, jointRecords]

/-- The records that the later keys leave on a level stand in the earlier order. -/
def Settles (later earlier : List SortKey) (records : List Record) : Prop :=
  records.Pairwise fun first second =>
    compareAll later first second = .eq → compareAll earlier first second ≠ .gt

/-- Of two entries of an ordered list, one stands before the other. -/
theorem rel_or_of_mem
    {entries : List (Record × Nat)} {R : Record × Nat → Record × Nat → Prop}
    (ordered : entries.Pairwise R) {first second : Record × Nat} (isFirst : first ∈ entries)
    (isSecond : second ∈ entries) (other : first ≠ second) : R first second ∨ R second first := by
  have symmetric : Std.Symm fun first second => R first second ∨ R second first :=
    ⟨fun _ _ => Or.symm⟩
  have either : entries.Pairwise fun first second => R first second ∨ R second first :=
    ordered.imp Or.inl
  exact either.forall isFirst isSecond other

/-- The earlier order is gone exactly if the records it could still separate are stored in it. -/
theorem sort_append_eq_iff
    (scalars : ∀ key ∈ later ++ earlier, ∃ type, key.path.scalar? = some type)
    (ranks : ∀ record ∈ records, Ranks (later ++ earlier) record) :
    sort (later ++ earlier) records = sort later records ↔ Settles later earlier records := by
  have ranked := ranked_of_ranks scalars ranks
  obtain ⟨joint, jointRecords, jointPerm, jointOrdered⟩ := exists_sort_zipIdx ranked
  obtain ⟨last, lastRecords, lastPerm, lastOrdered⟩ := exists_sort_zipIdx <|
    ranked.of_subset (List.subset_append_left later earlier) (List.Subset.refl records)
  rw [← jointRecords, ← lastRecords]
  constructor
  · intro same
    have jointly : last.Pairwise fun first second =>
        compareAll (later ++ earlier) first.1 second.1 ≠ .gt := by
      have jointRows : (joint.map Prod.fst).Pairwise fun first second =>
          compareAll (later ++ earlier) first second ≠ .gt :=
        List.pairwise_map.2 (jointOrdered.imp And.left)
      rw [same] at jointRows
      exact List.pairwise_map.1 jointRows
    rw [Settles, ← List.zipIdx_map_fst 0 records, List.pairwise_map]
    refine (pairwise_zipIdx records).imp_of_mem
      fun {first second} isFirst isSecond before level => ?_
    have different : first ≠ second := fun same => Nat.ne_of_lt before (congrArg Prod.snd same)
    rcases rel_or_of_mem (lastOrdered.and jointly) (lastPerm.mem_iff.2 isFirst)
      (lastPerm.mem_iff.2 isSecond) different with ⟨_, forward⟩ | ⟨backward, _⟩
    · rwa [compareAll_append, level] at forward
    · -- The later one would stand before the earlier one, although they are on a level.
      exact absurd (backward.2 (by rw [compareAll_swap, level]; rfl)) (Nat.lt_asymm before)
  · intro settles
    refine congrArg (List.map Prod.fst) ?_
    refine eq_of_pairwise_precedes (jointPerm.trans lastPerm.symm) jointOrdered ?_
    refine lastOrdered.imp_of_mem fun isFirst isSecond precedes => ?_
    refine precedes_append precedes fun level before => ⟨?_, fun _ => before⟩
    exact rel_of_mem_zipIdx settles (lastPerm.subset isFirst) (lastPerm.subset isSecond) before
      level

end SortKey

theorem eq_of_map_eq
    {α β : Type} {f : α → β} {left right : List α}
    (injective : ∀ a ∈ left, ∀ b ∈ right, f a = f b → a = b)
    (same : left.map f = right.map f) : left = right := by
  have lengths : left.length = right.length := by
    simpa using congrArg List.length same
  refine List.ext_getElem lengths fun place inLeft inRight => ?_
  refine injective _ (List.getElem_mem inLeft) _ (List.getElem_mem inRight) ?_
  simpa [inLeft, inRight] using congrArg (fun images => images[place]?) same

/-- All records of a store, listed after the query for them is ordered again and again. -/
def Store.listOrdered {σ Query : Type} (store : Store σ Query) (orders : List (List SortKey)) :
    StoreCall σ (List Record) := do
  let all ← store.getAll
  let ordered ← (orders.foldlM (fun query keys => store.orderBy keys query) all : StateM σ Query)
  store.toList ordered

namespace Table

variable {catalog : Catalog} {shape : Shape} {table : Table}

/-- Ordering a query again and again adds one sorting after the other. -/
theorem exists_run_orders
    (shape : Shape) (table : Table) (orders : List (List SortKey)) (query : TableQuery) :
    ∃ ordered,
      StateT.run (orders.foldlM (fun query keys => (store shape).orderBy keys query) query :
        StateM Table TableQuery) table = (ordered, table) ∧
      ordered.expansion = query.expansion ∧
      ∀ records, ordered.select records =
        orders.foldl (fun rows keys => SortKey.sort keys rows) (query.select records) := by
  obtain ⟨ordered, ran, loads, selects⟩ :=
    exists_run_refinements shape table (orders.map .orderBy) query
  rw [List.foldlM_map] at ran
  rw [List.foldl_map] at loads
  simp only [List.foldl_map] at selects
  exact ⟨ordered, ran, loads.trans (List.foldl_fixed orders), selects⟩

/-- Each order sorts what the orders before it have sorted. -/
theorem run_listOrdered (orders : List (List SortKey)) :
    Running.run ((store shape).listOrdered orders) table =
      (.ok ((orders.foldl (fun rows keys => SortKey.sort keys rows) table.working).map
        (Record.prune .empty)), table) := by
  obtain ⟨ordered, ran, loads, sorts⟩ := exists_run_orders shape table orders .all
  have listed : Running.run ((store shape).listOrdered orders) table =
      (.ok (ordered.results table.working), table) := by
    have ordering : Running.run (liftM (orders.foldlM
        (fun query keys => (store shape).orderBy keys query) .all : StateM Table TableQuery) :
          StoreCall Table TableQuery) table = (.ok ordered, table) := by
      rw [Running.run_lift, ran]
    exact (Running.run_bind_of_ok (Running.run_lift (store shape).getAll table) _).trans
      (Running.run_bind_of_ok ordering _)
  rw [listed, TableQuery.results, sorts, loads]
  rfl

/--
Two orders of one query act as one, in which the keys of the second decide first.
The second alone lists the same, for records with different keys, exactly if the
records that it leaves on a level are stored in the first order.
-/
theorem listOrdered_twice
    {first second : List OrderTerm} {earlier later : List SortKey}
    (acceptedFirst : OrderTerm.compileAll catalog shape first = .ok earlier)
    (acceptedSecond : OrderTerm.compileAll catalog shape second = .ok later)
    (conform : ∀ record ∈ table.working,
      catalog.shape record.type = shape ∧ record.Conforms catalog)
    (numbers : ∀ record ∈ table.working, ∀ key ∈ later ++ earlier,
      (key.path.first record).isNaN = false) :
    Running.run ((store shape).listOrdered [earlier, later]) table =
        Running.run ((store shape).listOrdered [later ++ earlier]) table ∧
      ((table.working.map shape.keyOf).Nodup →
        (Running.run ((store shape).listOrdered [earlier, later]) table =
            Running.run ((store shape).listOrdered [later]) table ↔
          SortKey.Settles later earlier table.working)) := by
  have valid : ∀ key ∈ later ++ earlier, key.Valid catalog shape :=
    List.forall_mem_append.2
      ⟨OrderTerm.valid_of_compileAll acceptedSecond, OrderTerm.valid_of_compileAll acceptedFirst⟩
  have scalars : ∀ key ∈ later ++ earlier, ∃ type, key.path.scalar? = some type :=
    fun key isKey => (valid key isKey).scalar
  have ranks : ∀ record ∈ table.working, SortKey.Ranks (later ++ earlier) record :=
    fun record stored => SortKey.ranks_of_conforms valid (conform record stored).2
      (conform record stored).1 (numbers record stored)
  have twice : SortKey.sort later (SortKey.sort earlier table.working) =
      SortKey.sort (later ++ earlier) table.working := SortKey.sort_sort scalars ranks
  refine ⟨?_, fun distinct => ?_⟩
  · simp only [run_listOrdered, List.foldl_cons, List.foldl_nil, twice]
  · rw [← SortKey.sort_append_eq_iff scalars ranks]
    simp only [run_listOrdered, List.foldl_cons, List.foldl_nil, twice, Prod.mk.injEq,
      Except.ok.injEq, and_true]
    constructor
    · -- Of two records of the table, the key tells which it is.
      intro same
      have keys := congrArg (List.map shape.keyOf) same
      simp only [List.map_map, Function.comp_def, Shape.keyOf_prune] at keys
      refine eq_of_map_eq (fun record isLeft other isRight => ?_) keys
      exact List.inj_on_of_nodup_map distinct ((SortKey.sort_perm _ _).subset isLeft)
        ((SortKey.sort_perm _ _).subset isRight)
    · intro same
      rw [same]

end Table

namespace Sample

/-- An ash between two oaks. -/
def copse : Table :=
  .ofRecords [treeItem 1 "oak", treeItem 2 "ash", treeItem 3 "oak"]

def idDescending : SortKey := ⟨Path.ofField treeItemShape.keyField, .descending⟩

def nameAscending : SortKey := ⟨Path.ofField (Field.scalar "name" .text), .ascending⟩

theorem compileAll_idDescending :
    OrderTerm.compileAll catalog treeItemShape [⟨"id", .descending⟩] = .ok [idDescending] := rfl

theorem compileAll_nameAscending :
    OrderTerm.compileAll catalog treeItemShape [⟨"name", .ascending⟩] = .ok [nameAscending] := rfl

theorem conform_copse :
    ∀ record ∈ copse.working,
      catalog.shape record.type = treeItemShape ∧ record.Conforms catalog := by
  change ∀ record ∈ [_, _, _], _
  simp only [List.forall_mem_cons]
  exact ⟨⟨rfl, conforms_treeItem ..⟩, ⟨rfl, conforms_treeItem ..⟩, ⟨rfl, conforms_treeItem ..⟩,
    List.forall_mem_nil _⟩

end Sample

namespace Table

/-- Ordered by number and then by name, the oaks stay in the order of their numbers. -/
theorem listOrdered_twice_copse :
    Running.run ((store Sample.treeItemShape).listOrdered
        [[Sample.idDescending], [Sample.nameAscending]]) Sample.copse =
      Running.run ((store Sample.treeItemShape).listOrdered
        [[Sample.nameAscending, Sample.idDescending]]) Sample.copse ∧
      Running.run ((store Sample.treeItemShape).listOrdered
          [[Sample.idDescending], [Sample.nameAscending]]) Sample.copse ≠
        Running.run ((store Sample.treeItemShape).listOrdered
          [[Sample.nameAscending]]) Sample.copse := by
  have distinct : (Sample.copse.working.map Sample.treeItemShape.keyOf).Nodup := by
    change [Value.int 1, Value.int 2, Value.int 3].Nodup
    simp
  have unsettled : ¬ SortKey.Settles [Sample.nameAscending] [Sample.idDescending]
      Sample.copse.working := by
    intro settles
    obtain ⟨fromFirst, _⟩ := List.pairwise_cons.1 settles
    exact fromFirst (Sample.treeItem 3 "oak") (List.mem_of_getElem? (i := 1) rfl) (by decide) rfl
  obtain ⟨joint, alone⟩ := listOrdered_twice Sample.compileAll_idDescending
    Sample.compileAll_nameAscending Sample.conform_copse (by decide)
  exact ⟨joint, fun replaced => unsettled ((alone distinct).1 replaced)⟩

/-- A second order does not replace the first one. -/
theorem not_listOrdered_last :
    ¬ ∀ (catalog : Catalog) (shape : Shape) (table : Table) (first second : List OrderTerm)
        (earlier later : List SortKey),
      OrderTerm.compileAll catalog shape first = .ok earlier →
        OrderTerm.compileAll catalog shape second = .ok later →
        Running.run ((store shape).listOrdered [earlier, later]) table =
          Running.run ((store shape).listOrdered [later]) table := by
  intro replaces
  have replaced := replaces Sample.catalog Sample.treeItemShape Sample.copse
    _ _ _ _ Sample.compileAll_idDescending Sample.compileAll_nameAscending
  simp only [run_listOrdered, Prod.mk.injEq, Except.ok.injEq, and_true] at replaced
  have keys := congrArg (List.map Sample.treeItemShape.keyOf) replaced
  change [Value.int 2, Value.int 3, Value.int 1] = [Value.int 2, Value.int 1, Value.int 3] at keys
  simp at keys

end Table

end EntityAccess
