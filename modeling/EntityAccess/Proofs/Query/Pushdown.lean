import EntityAccess.Proofs.Query.SuccessiveOrders

/-!
# Refinements that can be moved

Filters can be joined and exchanged anywhere in a query, and a filter with an order
that is consistent on the rows: sorting is stable, so the rows that pass come in the
same order, ties included, whether the others are there or not.  Skips add up, and
of two limits the smaller one counts.
-/

namespace EntityAccess

namespace Path

variable {catalog : Catalog} {shape : Shape} {path : Path} {record : Record}

/-- A path that ends on a relation reads nulls. -/
theorem eq_null_of_mem_read
    (leads : path.Leads catalog shape) (linked : record.Linked catalog shape)
    (relation : path.scalar? = none) {value : Value} (reads : value ∈ path.read record) :
    value = .null := by
  induction leads generalizing record with
  | @field shape name field declared =>
      rw [read_ofField, List.mem_singleton, Shape.name_of_field? declared] at reads
      change field.kind.scalar? = none at relation
      cases kind : field.kind with
      | scalar type =>
          rw [kind] at relation
          cases relation
      | relation target cardinality =>
          rw [reads, linked.scalar?_eq_none declared kind]
          rfl
  | @after shape name field target cardinality path declared kind rest ih =>
      rcases mem_read_after reads with absent | ⟨inner, isRelated, readsInner⟩
      · exact absent
      · obtain ⟨_, related⟩ := linked
        rw [Shape.name_of_field? declared] at isRelated
        exact ih (related name field target cardinality declared kind inner isRelated) relation
          readsInner

/-- The first value is one that the path reads, unless it reads none. -/
theorem first_eq_null_or_mem (path : Path) (record : Record) :
    path.first record = .null ∨ path.first record ∈ path.read record := by
  rw [first]
  cases path.read record with
  | nil => exact Or.inl rfl
  | cons value others => exact Or.inr List.mem_cons_self

end Path

namespace SortKey

/-- The record has no value at the key, or one of the type that the key is declared with. -/
def Fits (key : SortKey) (record : Record) : Prop :=
  key.path.first record = .null ∨
    ∃ type, key.path.scalar? = some type ∧ (key.path.first record).kind = type.valueKind

/-- Records that hold what their shape declares fit all keys with paths of the shape. -/
theorem fits_of_leads
    {catalog : Catalog} {shape : Shape} {key : SortKey} {record : Record}
    (leads : key.path.Leads catalog shape) (typed : record.Typed catalog shape)
    (linked : record.Linked catalog shape) : key.Fits record := by
  rcases key.path.first_eq_null_or_mem record with absent | reads
  · exact Or.inl absent
  · cases scalar : key.path.scalar? with
    | none => exact Or.inl (Path.eq_null_of_mem_read leads linked scalar reads)
    | some type =>
        exact (Path.kind_of_mem_read leads typed scalar reads).imp_right fun fits =>
          ⟨type, scalar, fits⟩

variable {keys : List SortKey} {records : List Record}

/-- Records that fit the keys are ranked by them where none is NaN. -/
theorem ranked_of_fits
    (fits : ∀ record ∈ records, ∀ key ∈ keys,
      key.Fits record ∧ (key.path.first record).isNaN = false) : Ranked keys records := by
  intro key isKey
  cases scalar : key.path.scalar? with
  | none =>
      refine ⟨.bool, fun record isRecord => ?_⟩
      obtain ⟨absent | ⟨type, scalarToo, _⟩, _⟩ := fits record isRecord key isKey
      · exact absent ▸ .null
      · cases scalar.symm.trans scalarToo
  | some type =>
      refine ⟨type, fun record isRecord => ?_⟩
      obtain ⟨absent | ⟨typeToo, scalarToo, sameKind⟩, number⟩ := fits record isRecord key isKey
      · exact absent ▸ .null
      · obtain rfl := Option.some.inj (scalar.symm.trans scalarToo)
        exact ScalarType.ranks_of_kind sameKind number

/-- The kept records are sorted as they stand among all sorted records. -/
theorem sort_filter (ranked : Ranked keys records) (keep : Record → Bool) :
    sort keys (records.filter keep) = (sort keys records).filter keep := by
  let keeps (entry : Record × Nat) : Bool := keep entry.1
  have keptRecords : (records.zipIdx.filter keeps).map Prod.fst = records.filter keep :=
    map_fst_filter_zipIdx records keep
  have rankedKept : Ranked keys ((records.zipIdx.filter keeps).map Prod.fst) :=
    ranked.of_subset (List.Subset.refl keys) (keptRecords ▸ List.filter_sublist.subset)
  obtain ⟨sorted, sortedRecords, perm, ordered⟩ := exists_sort_zipIdx ranked
  obtain ⟨kept, sortedKept, permKept, orderedKept⟩ :=
    sort_stable ((pairwise_zipIdx records).filter keeps) rankedKept
  have entries : kept = sorted.filter keeps :=
    eq_of_pairwise_precedes (permKept.trans (perm.filter keeps).symm) orderedKept
      (ordered.filter keeps)
  calc sort keys (records.filter keep)
      = kept.map Prod.fst := by rw [sortedKept, keptRecords]
    _ = (sorted.map Prod.fst).filter keep := by rw [entries, List.filter_map]; rfl
    _ = (sort keys records).filter keep := by rw [sortedRecords]

end SortKey

theorem Predicate.holds_and_pair (p q : Predicate) (record : Record) :
    (Predicate.and [p, q]).holds record = (p.holds record && q.holds record) := by
  simp [Predicate.holds, Predicate.allHold]

namespace Table

/--
A refined query over a table always counts and lists the rows that its
refinements leave one after the other.  Between any others, two filters can be
joined or exchanged, skips add up, and the smaller of two limits counts.  An
order can be exchanged with a filter if all rows fit its keys and read no NaN at
them.
-/
theorem answers_of_merged_or_exchanged_refinements
    (shape : Shape) (table : Table) (before after : List Refinement) :
    let answers := fun refinements => table.answers shape (before ++ refinements ++ after)
    (∀ refinements, ∃ rows, rows = refinements.foldl Refinement.rows table.working ∧
        table.answers shape refinements =
          (.ok (rows.length,
            rows.map (Record.prune (refinements.foldl Refinement.loads .empty))), table)) ∧
      (∀ p q, answers [.filter p, .filter q] = answers [.filter (.and [p, q])] ∧
        answers [.filter p, .filter q] = answers [.filter q, .filter p]) ∧
      (∀ keys p,
        (∀ record ∈ table.working, ∀ key ∈ keys,
            key.Fits record ∧ (key.path.first record).isNaN = false) →
          answers [.orderBy keys, .filter p] = answers [.filter p, .orderBy keys]) ∧
      (∀ a b, answers [.skip a, .skip b] = answers [.skip (a + b)]) ∧
      ∀ a b, answers [.take a, .take b] = answers [.take (min a b)] := by
  let given := before.foldl Refinement.rows table.working
  refine ⟨fun refinements => ⟨_, rfl, answers_eq shape table refinements⟩,
    fun p q => ⟨?join, ?exchange⟩, fun keys p fits => ?order, fun a b => ?skips,
    fun a b => ?limits⟩
  case join =>
    refine answers_congr after ?_ fun _ => rfl
    change (given.filter p.holds).filter q.holds = given.filter (Predicate.and [p, q]).holds
    rw [List.filter_filter]
    refine List.filter_congr fun record _ => ?_
    rw [Predicate.holds_and_pair, Bool.and_comm]
  case exchange =>
    refine answers_congr after ?_ fun _ => rfl
    change (given.filter p.holds).filter q.holds = (given.filter q.holds).filter p.holds
    rw [List.filter_comm]
  case order =>
    refine answers_congr after ?_ fun _ => rfl
    have ranked : SortKey.Ranked keys given :=
      (SortKey.ranked_of_fits fits).of_subset (List.Subset.refl keys)
        (Refinement.foldl_rows_subset table.working before)
    exact (SortKey.sort_filter ranked p.holds).symm
  case skips =>
    refine answers_congr after ?_ fun _ => rfl
    exact List.drop_drop
  case limits =>
    refine answers_congr after ?_ fun _ => rfl
    change (given.take a).take b = given.take (min a b)
    rw [List.take_take, Nat.min_comm]

end Table

/-- Tree items with a name. -/
def Sample.named (name : String) : Predicate :=
  .compare ⟨Path.ofField (Field.scalar "name" .text), .equals, .text name⟩

namespace Table

/-- By name and from the last number on, the first of the oaks in the copse is the last one. -/
theorem answers_of_merged_or_exchanged_refinements_copse :
    let answers := fun refinements => Sample.copse.answers Sample.treeItemShape
      ([.orderBy [Sample.idDescending]] ++ refinements ++ [.take 1])
    (∀ record ∈ Sample.copse.working, ∀ key ∈ [Sample.nameAscending],
        key.Fits record ∧ (key.path.first record).isNaN = false) ∧
      answers [.orderBy [Sample.nameAscending], .filter (Sample.named "oak")] =
        answers [.filter (Sample.named "oak"), .orderBy [Sample.nameAscending]] ∧
      (answers [.orderBy [Sample.nameAscending], .filter (Sample.named "oak")]).1.map
          (Prod.map id (List.map Sample.treeItemShape.keyOf)) = .ok (1, [.int 3]) := by
  have valid := OrderTerm.valid_of_compileAll Sample.compileAll_nameAscending
  have numbers : ∀ record ∈ Sample.copse.working, ∀ key ∈ [Sample.nameAscending],
      (key.path.first record).isNaN = false := by decide
  have fits : ∀ record ∈ Sample.copse.working, ∀ key ∈ [Sample.nameAscending],
      key.Fits record ∧ (key.path.first record).isNaN = false := by
    intro record stored key isKey
    obtain ⟨shaped, conforms⟩ := Sample.conform_copse record stored
    exact ⟨SortKey.fits_of_leads (valid key isKey).leads (shaped ▸ conforms.typed)
      (shaped ▸ conforms.linked), numbers record stored key isKey⟩
  obtain ⟨_, _, orders, _⟩ := answers_of_merged_or_exchanged_refinements Sample.treeItemShape
    Sample.copse [.orderBy [Sample.idDescending]] [.take 1]
  exact ⟨fits, orders _ _ fits, rfl⟩

-- A filter stays behind a limit that stands before it.
example :
    (Sample.copse.answers Sample.treeItemShape
        [.take 1, .filter (Sample.named "ash")]).1.map Prod.fst = .ok 0 ∧
      (Sample.copse.answers Sample.treeItemShape
        [.filter (Sample.named "ash"), .take 1]).1.map Prod.fst = .ok 1 :=
  ⟨rfl, rfl⟩

end Table

end EntityAccess
