import EntityAccess.Proofs.Record.Reading
import EntityAccess.Proofs.Value.Order

/-!
# The order of records

Accepted sort keys compare records by what they read at the ends of to-one
relations, and conforming records read values of one type there.  As long as none
of these is NaN, records are in a consistent order, and sorting brings them out in
it: those on a level come in the order of their positions.
-/

namespace EntityAccess

open Std (OrientedCmp TransCmp)

/-- The key reads one scalar, which is declared where its path leads. -/
structure SortKey.Valid (catalog : Catalog) (shape : Shape) (key : SortKey) : Prop where
  leads : key.path.Leads catalog shape
  scalar : ∃ type, key.path.scalar? = some type
  single : key.path.isSingleValued = true

namespace OrderTerm

variable {catalog : Catalog} {shape : Shape}

theorem compile_eq_ok_iff {term : OrderTerm} {key : SortKey} :
    compile catalog shape term = .ok key ↔
      catalog.compilePath shape term.path = .ok key.path ∧ key.direction = term.direction ∧
        (∃ type, key.path.scalar? = some type) ∧ key.path.isSingleValued = true := by
  obtain ⟨path, direction⟩ := key
  simp only [compile, Outcome.bind_eq_ok_iff]
  constructor
  · rintro ⟨resolved, found, checked⟩
    cases scalar : resolved.scalar? with
    | none => simp [scalar] at checked
    | some type =>
        cases single : resolved.isSingleValued with
        | false => simp [scalar, single] at checked
        | true =>
            simp only [scalar, single, Option.isNone_some, Bool.not_true, Bool.false_eq_true,
              if_false, pure, Except.pure, Except.ok.injEq, SortKey.mk.injEq] at checked
            obtain ⟨rfl, rfl⟩ := checked
            exact ⟨found, rfl, ⟨type, scalar⟩, single⟩
  · rintro ⟨found, rfl, ⟨type, scalar⟩, single⟩
    exact ⟨path, found, by simp [scalar, single, pure, Except.pure]⟩

/-- The keys of an accepted ordering are valid. -/
theorem valid_of_compileAll
    {terms : List OrderTerm} {keys : List SortKey}
    (accepted : compileAll catalog shape terms = .ok keys) :
    ∀ key ∈ keys, key.Valid catalog shape := by
  rw [compileAll, Outcome.mapM_eq_ok_iff] at accepted
  induction accepted with
  | nil => exact List.forall_mem_nil _
  | cons compiled _ ih =>
      obtain ⟨resolved, _, scalar, single⟩ := compile_eq_ok_iff.1 compiled
      exact List.forall_mem_cons.2 ⟨⟨(Catalog.leads_of_compilePath resolved).1, scalar, single⟩, ih⟩

end OrderTerm

namespace SortKey

theorem compare_swap (key : SortKey) (left right : Record) :
    key.compare left right = (key.compare right left).swap := by
  rw [compare, compare, Value.sortOrder_swap]
  cases key.direction <;> rfl

/-- Turning two records round turns their order round. -/
theorem compareAll_swap (keys : List SortKey) (left right : Record) :
    compareAll keys left right = (compareAll keys right left).swap := by
  induction keys with
  | nil => rfl
  | cons key rest ih => rw [compareAll, compareAll, compare_swap, ih, Ordering.swap_then]

/-- A record is level with itself. -/
theorem compareAll_self (keys : List SortKey) (record : Record) :
    compareAll keys record record = .eq := by
  have round := compareAll_swap keys record record
  cases order : compareAll keys record record with
  | eq => rfl
  | lt | gt =>
      rw [order] at round
      cases round

/-- What the record reads at each key has a place in the type of the key. -/
def Ranks (keys : List SortKey) (record : Record) : Prop :=
  ∀ key ∈ keys, ∀ type, key.path.scalar? = some type → type.Ranks (key.path.first record)

/-- At each key the records read values that have a place in one type. -/
def Ranked (keys : List SortKey) (records : List Record) : Prop :=
  ∀ key ∈ keys, ∃ type : ScalarType, ∀ record ∈ records, type.Ranks (key.path.first record)

theorem Ranked.of_subset
    {keys fewerKeys : List SortKey} {records fewerRecords : List Record}
    (ranked : Ranked keys records) (areKeys : fewerKeys ⊆ keys)
    (areRecords : fewerRecords ⊆ records) : Ranked fewerKeys fewerRecords := by
  intro key isKey
  obtain ⟨type, ranks⟩ := ranked key (areKeys isKey)
  exact ⟨type, fun record isRecord => ranks record (areRecords isRecord)⟩

/-- Records that have a place at each key have one in the type at the end of its path. -/
theorem ranked_of_ranks
    {keys : List SortKey} {records : List Record}
    (scalars : ∀ key ∈ keys, ∃ type, key.path.scalar? = some type)
    (ranks : ∀ record ∈ records, Ranks keys record) : Ranked keys records := by
  intro key isKey
  obtain ⟨type, scalar⟩ := scalars key isKey
  exact ⟨type, fun record isRecord => ranks record isRecord key isKey type scalar⟩

section Consistency

variable {α : Type} (records : α → Record)

/-- One key puts records whose values have a place in its type in a consistent order. -/
theorem transCmp_compare (key : SortKey) {type : ScalarType}
    (ranks : ∀ a, type.Ranks (key.path.first (records a))) :
    TransCmp fun a b : α => key.compare (records a) (records b) where
  eq_swap := key.compare_swap _ _
  isLE_trans {a b c} first second := by
    have consistent := ScalarType.transCmp_sortOrder type
    let value (a : α) : { value // type.Ranks value } := ⟨key.path.first (records a), ranks a⟩
    unfold compare at first second ⊢
    cases direction : key.direction with
    | ascending =>
        rw [direction] at first second
        exact consistent.isLE_trans (a := value a) (b := value b) (c := value c) first second
    | descending =>
        rw [direction] at first second
        simp only [Direction.apply, ← Value.sortOrder_swap] at first second ⊢
        exact consistent.isLE_trans (a := value c) (b := value b) (c := value a) second first

/-- Several keys put records whose values have a place in one type each in a consistent order. -/
theorem transCmp_compareAll_of_ranked (keys : List SortKey)
    (ranked : ∀ key ∈ keys, ∃ type : ScalarType, ∀ a, type.Ranks (key.path.first (records a))) :
    TransCmp fun a b : α => compareAll keys (records a) (records b) := by
  induction keys with
  | nil => exact { eq_swap := rfl, isLE_trans := fun _ _ => rfl }
  | cons key rest ih =>
      obtain ⟨⟨type, ranks⟩, rankedRest⟩ := List.forall_mem_cons.1 ranked
      have first := transCmp_compare records key ranks
      have others := ih rankedRest
      exact inferInstanceAs (TransCmp
        (compareLex (fun a b => key.compare (records a) (records b))
          fun a b => compareAll rest (records a) (records b)))

/-- Several keys put records that have a place at each of them in a consistent order. -/
theorem transCmp_compareAll (keys : List SortKey)
    (scalars : ∀ key ∈ keys, ∃ type, key.path.scalar? = some type)
    (ranks : ∀ a, Ranks keys (records a)) :
    TransCmp fun a b : α => compareAll keys (records a) (records b) := by
  refine transCmp_compareAll_of_ranked records keys fun key isKey => ?_
  obtain ⟨type, scalar⟩ := scalars key isKey
  exact ⟨type, fun a => ranks a key isKey type scalar⟩

end Consistency

section Conformance

variable {catalog : Catalog} {shape : Shape} {keys : List SortKey} {record : Record}

/-- A valid key reads what is at the end of its path, or null. -/
theorem Valid.first_eq_target
    {key : SortKey} (valid : key.Valid catalog shape) (conforms : record.Conforms catalog)
    (shaped : catalog.shape record.type = shape) :
    key.path.first record = key.path.target record := by
  rw [Path.first, Path.read_of_isSingleValued valid.leads (shaped ▸ conforms.linked) valid.single]
  rfl

/-- A conforming record has a place at valid keys unless it reads NaN there. -/
theorem ranks_of_conforms
    (valid : ∀ key ∈ keys, key.Valid catalog shape) (conforms : record.Conforms catalog)
    (shaped : catalog.shape record.type = shape)
    (numbers : ∀ key ∈ keys, (key.path.first record).isNaN = false) : Ranks keys record := by
  intro key isKey type scalar
  have reads := Path.read_of_isSingleValued (valid key isKey).leads (shaped ▸ conforms.linked)
    (valid key isKey).single
  have isRead : key.path.first record ∈ key.path.read record := by
    rw [(valid key isKey).first_eq_target conforms shaped, reads]
    exact List.mem_singleton_self _
  have typed : record.Typed catalog shape := shaped ▸ conforms.typed
  rcases Path.kind_of_mem_read (valid key isKey).leads typed scalar isRead with
    absent | fits
  · exact absent ▸ .null
  · exact ScalarType.ranks_of_kind fits (numbers key isKey)

/--
Accepted keys compare conforming records from both sides alike.  Where no record
reads NaN at a key, of two records that do not come after the next one the first
does not come after the last.
-/
theorem compareAll_total_preorder
    {terms : List OrderTerm} (accepted : OrderTerm.compileAll catalog shape terms = .ok keys)
    {a b c : Record}
    (conform : ∀ record ∈ [a, b, c],
      catalog.shape record.type = shape ∧ record.Conforms catalog) :
    compareAll keys a b = (compareAll keys b a).swap ∧
      ((∀ record ∈ [a, b, c], ∀ key ∈ keys, (key.path.first record).isNaN = false) →
        compareAll keys a b ≠ .gt → compareAll keys b c ≠ .gt → compareAll keys a c ≠ .gt) := by
  have valid := OrderTerm.valid_of_compileAll accepted
  refine ⟨compareAll_swap keys a b, fun numbers first second => ?_⟩
  have consistent := transCmp_compareAll
    (fun record : { record // record ∈ [a, b, c] } => record.1) keys
    (fun key isKey => (valid key isKey).scalar)
    fun ⟨record, isOne⟩ =>
      ranks_of_conforms valid (conform record isOne).2 (conform record isOne).1
        (numbers record isOne)
  exact Ordering.ne_gt_iff_isLE.2 <|
    consistent.isLE_trans (a := ⟨a, by simp⟩) (b := ⟨b, by simp⟩) (c := ⟨c, by simp⟩)
      (Ordering.ne_gt_iff_isLE.1 first) (Ordering.ne_gt_iff_isLE.1 second)

end Conformance

end SortKey

namespace Sample

def one : Binary64 := ⟨0x3FF0000000000000⟩

def two : Binary64 := ⟨0x4000000000000000⟩

/-- A person without a city, told apart by the score. -/
def scored (score : Binary64) : Record :=
  ((person 1 "Ada" 36).set? "score" (.float score)).getD (person 1 "Ada" 36)

theorem conforms_scored (score : Binary64) : (scored score).Conforms catalog := by
  constructor
  case scalars =>
    change ∀ cell ∈ [_, _, _, _, _, _, _, _], _
    simp only [List.forall_mem_cons]
    exact ⟨⟨_, rfl, .present rfl rfl⟩, ⟨_, rfl, .present rfl rfl⟩, ⟨_, rfl, .present rfl rfl⟩,
      ⟨_, rfl, .absent rfl rfl⟩, ⟨_, rfl, .present rfl rfl⟩, ⟨_, rfl, .present rfl rfl⟩,
      ⟨_, rfl, .present rfl rfl⟩, ⟨_, rfl, .absent rfl rfl⟩, List.forall_mem_nil _⟩
  case declared =>
    change ∀ relation ∈ [Relation.one "city" none], _
    simp only [List.forall_mem_singleton]
    exact ⟨_, _, rfl, rfl, List.forall_mem_nil _⟩
  case related =>
    change ∀ relation ∈ [Relation.one "city" none], _
    simp only [List.forall_mem_singleton]
    exact List.forall_mem_nil _

/-- Persons with any scores are persons as their shape says. -/
theorem conform_scored (scores : List Binary64) :
    ∀ record ∈ scores.map scored,
      catalog.shape record.type = personShape ∧ record.Conforms catalog := by
  intro record isScored
  obtain ⟨score, _, rfl⟩ := List.mem_map.1 isScored
  exact ⟨rfl, conforms_scored score⟩

/-- By score from the highest down, then by the name of the city. -/
def byScore : List OrderTerm := [⟨"score", .descending⟩, ⟨"city.name", .ascending⟩]

def scoreKeys : List SortKey :=
  [⟨Path.ofField (Field.scalar "score" .float), .descending⟩,
    ⟨Path.after ⟨"city", .one⟩ (Path.ofField (Field.scalar "name" .text)), .ascending⟩]

theorem compileAll_byScore :
    OrderTerm.compileAll catalog personShape byScore = .ok scoreKeys := rfl

end Sample

namespace SortKey

/-- From the highest score down, one comes before the zeros, which are level. -/
theorem compareAll_total_preorder_byScore :
    compareAll Sample.scoreKeys (Sample.scored Sample.one) (Sample.scored .zero) = .lt ∧
      compareAll Sample.scoreKeys (Sample.scored .zero) (Sample.scored .negativeZero) = .eq ∧
      compareAll Sample.scoreKeys (Sample.scored Sample.one) (Sample.scored .zero) =
        (compareAll Sample.scoreKeys (Sample.scored .zero) (Sample.scored Sample.one)).swap ∧
      compareAll Sample.scoreKeys (Sample.scored Sample.one) (Sample.scored .negativeZero) ≠
        .gt := by
  have conform := Sample.conform_scored [Sample.one, .zero, .negativeZero]
  have numbers : ∀ record ∈ [Sample.scored Sample.one, Sample.scored .zero,
        Sample.scored .negativeZero],
      ∀ key ∈ Sample.scoreKeys, (key.path.first record).isNaN = false := by
    simp only [Sample.scoreKeys, List.forall_mem_cons]
    exact ⟨⟨rfl, rfl, List.forall_mem_nil _⟩, ⟨rfl, rfl, List.forall_mem_nil _⟩,
      ⟨rfl, rfl, List.forall_mem_nil _⟩, List.forall_mem_nil _⟩
  obtain ⟨round, consistent⟩ := compareAll_total_preorder Sample.compileAll_byScore conform
  exact ⟨rfl, rfl, round, consistent numbers (by decide) (by decide)⟩

/-- A person without a number for a score is level with scores that are not level. -/
theorem not_total_preorder_of_nan :
    ¬ ∀ (catalog : Catalog) (shape : Shape) (terms : List OrderTerm) (keys : List SortKey)
        (a b c : Record),
      OrderTerm.compileAll catalog shape terms = .ok keys →
        (∀ record ∈ [a, b, c], catalog.shape record.type = shape ∧ record.Conforms catalog) →
        compareAll keys a b = (compareAll keys b a).swap ∧
          (compareAll keys a b ≠ .gt → compareAll keys b c ≠ .gt →
            compareAll keys a c ≠ .gt) := by
  intro consistent
  have conform := Sample.conform_scored [Sample.two, .nan, Sample.one]
  exact (consistent Sample.catalog Sample.personShape [⟨"score", .ascending⟩] _ _ _ _ rfl conform).2
    (by decide) (by decide) rfl

end SortKey

/-! ## Stable sorting -/

namespace SortKey

/-- The first of two records with positions comes first: by the keys, or by its position. -/
def Precedes (keys : List SortKey) (first second : Record × Nat) : Prop :=
  compareAll keys first.1 second.1 ≠ .gt ∧
    (compareAll keys first.1 second.1 = .eq → first.2 < second.2)

section Entries

variable {keys : List SortKey} {α : Type} {entry : α → Record × Nat}
variable [consistent : TransCmp fun a b : α => compareAll keys (entry a).1 (entry b).1]

/-- A later record that does not come before the last one comes after all of them. -/
theorem precedes_of_le
    {last new other : α} (behind : compareAll keys (entry new).1 (entry last).1 ≠ .lt)
    (before : compareAll keys (entry other).1 (entry last).1 ≠ .gt)
    (newer : (entry other).2 < (entry new).2) : Precedes keys (entry other) (entry new) := by
  refine ⟨?_, fun _ => newer⟩
  have lastFirst : compareAll keys (entry last).1 (entry new).1 ≠ .gt := by
    rw [compareAll_swap]
    intro same
    exact behind (Ordering.swap_eq_gt.1 same)
  exact Ordering.ne_gt_iff_isLE.2 <|
    consistent.isLE_trans (Ordering.ne_gt_iff_isLE.1 before) (Ordering.ne_gt_iff_isLE.1 lastFirst)

/-- Placing a record that is newer than all others keeps them in order. -/
theorem exists_place
    {sorted : List α} {new : α}
    (ordered : sorted.Pairwise fun later earlier => Precedes keys (entry earlier) (entry later))
    (newer : ∀ other ∈ sorted, (entry other).2 < (entry new).2) :
    ∃ placed : List α,
      (placed.map fun a => (entry a).1) =
          place keys (entry new).1 (sorted.map fun a => (entry a).1) ∧
        placed.Perm (new :: sorted) ∧
        placed.Pairwise fun later earlier => Precedes keys (entry earlier) (entry later) := by
  induction sorted with
  | nil => exact ⟨[new], rfl, List.Perm.refl _, List.pairwise_singleton _ _⟩
  | cons last rest ih =>
      obtain ⟨beforeLast, orderedRest⟩ := List.pairwise_cons.1 ordered
      obtain ⟨newerThanLast, newerRest⟩ := List.forall_mem_cons.1 newer
      -- The new record goes past the later ones that it comes before, and stops at a tie.
      by_cases earlier : compareAll keys (entry new).1 (entry last).1 = .lt
      · obtain ⟨placed, records, perm, orderedPlaced⟩ := ih orderedRest newerRest
        refine ⟨last :: placed, ?_, ?_, List.pairwise_cons.2 ⟨?_, orderedPlaced⟩⟩
        · rw [List.map_cons, records, List.map_cons, place, if_pos earlier]
        · exact (perm.cons last).trans (List.Perm.swap new last rest)
        · intro other isOther
          rcases List.mem_cons.1 (perm.mem_iff.1 isOther) with rfl | inRest
          · exact ⟨by simp [earlier], by simp [earlier]⟩
          · exact beforeLast other inRest
      · refine ⟨new :: last :: rest, ?_, List.Perm.refl _, List.pairwise_cons.2 ⟨?_, ordered⟩⟩
        · rw [List.map_cons, List.map_cons, place, if_neg earlier]
        · intro other isOther
          refine precedes_of_le earlier ?_ (newer other isOther)
          rcases List.mem_cons.1 isOther with rfl | inRest
          · rw [compareAll_self]
            decide
          · exact (beforeLast other inRest).1

/-- Placing records one after the other, each newer than those before it, puts them in order. -/
theorem exists_foldl_place
    {entries sorted : List α}
    (increasing : entries.Pairwise fun a b => (entry a).2 < (entry b).2)
    (newer : ∀ new ∈ entries, ∀ other ∈ sorted, (entry other).2 < (entry new).2)
    (ordered : sorted.Pairwise fun later earlier => Precedes keys (entry earlier) (entry later)) :
    ∃ placed : List α,
      (placed.map fun a => (entry a).1) =
          (entries.map fun a => (entry a).1).foldl (fun sorted record => place keys record sorted)
            (sorted.map fun a => (entry a).1) ∧
        placed.Perm (entries ++ sorted) ∧
        placed.Pairwise fun later earlier => Precedes keys (entry earlier) (entry later) := by
  induction entries generalizing sorted with
  | nil => exact ⟨sorted, rfl, List.Perm.refl _, ordered⟩
  | cons new rest ih =>
      obtain ⟨newest, increasingRest⟩ := List.pairwise_cons.1 increasing
      obtain ⟨newerThanSorted, newerRest⟩ := List.forall_mem_cons.1 newer
      obtain ⟨middle, records, perm, orderedMiddle⟩ := exists_place ordered newerThanSorted
      have newerThanMiddle : ∀ later ∈ rest, ∀ other ∈ middle,
          (entry other).2 < (entry later).2 := by
        intro later isLater other isOther
        rcases List.mem_cons.1 (perm.mem_iff.1 isOther) with rfl | inSorted
        · exact newest later isLater
        · exact newerRest later isLater other inSorted
      obtain ⟨placed, placedRecords, placedPerm, orderedPlaced⟩ :=
        ih increasingRest newerThanMiddle orderedMiddle
      refine ⟨placed, ?_, ?_, orderedPlaced⟩
      · rw [placedRecords, records]
        rfl
      · exact placedPerm.trans ((perm.append_left rest).trans List.perm_middle)

end Entries

/--
Items whose records stand in the order of their positions are sorted by the
keys, each once, and keep this order among those that the keys do not separate.
-/
theorem exists_sort
    {keys : List SortKey} {α : Type} (entry : α → Record × Nat) {items : List α}
    (increasing : items.Pairwise fun first second => (entry first).2 < (entry second).2)
    (ranked : Ranked keys (items.map fun item => (entry item).1)) :
    ∃ sorted : List α,
      (sorted.map fun item => (entry item).1) = sort keys (items.map fun item => (entry item).1) ∧
        sorted.Perm items ∧
        sorted.Pairwise fun first second => Precedes keys (entry first) (entry second) := by
  -- The order is consistent on these items alone, so they are sorted as members of the list.
  let member : { item : α // item ∈ items } → α := Subtype.val
  have consistent := transCmp_compareAll_of_ranked (fun item => (entry (member item)).1) keys
    fun key isKey => by
      obtain ⟨type, ranks⟩ := ranked key isKey
      exact ⟨type, fun item => ranks _ (List.mem_map_of_mem item.2)⟩
  have attached : items.attach.map member = items := List.attach_map_subtype_val items
  have increasingAttached : items.attach.Pairwise fun first second =>
      (entry (member first)).2 < (entry (member second)).2 := by
    rw [← attached, List.pairwise_map] at increasing
    exact increasing
  have nothing : ([] : List { item : α // item ∈ items }).Pairwise
      fun later earlier => Precedes keys (entry (member earlier)) (entry (member later)) :=
    List.Pairwise.nil
  obtain ⟨placed, records, perm, ordered⟩ :=
    exists_foldl_place increasingAttached (fun _ _ => List.forall_mem_nil _) nothing
  refine ⟨(placed.map member).reverse, ?_, ?_, ?_⟩
  · have recordsAttached : (items.attach.map fun item => (entry (member item)).1) =
        items.map fun item => (entry item).1 := by
      conv_rhs => rw [← attached, List.map_map]
      rfl
    rw [recordsAttached] at records
    rw [sort, List.map_reverse, List.map_map]
    exact congrArg List.reverse records
  · have members := perm.map member
    rw [List.append_nil, attached] at members
    exact (List.reverse_perm _).trans members
  · rw [List.pairwise_reverse, List.pairwise_map]
    exact ordered

/--
Records that stand in the order of their positions are sorted by the keys, each
once, and keep this order among those that the keys do not separate.
-/
theorem sort_stable
    {keys : List SortKey} {entries : List (Record × Nat)}
    (increasing : entries.Pairwise fun first second => first.2 < second.2)
    (ranked : Ranked keys (entries.map Prod.fst)) :
    ∃ sorted : List (Record × Nat),
      sorted.map Prod.fst = sort keys (entries.map Prod.fst) ∧ sorted.Perm entries ∧
        sorted.Pairwise (Precedes keys) :=
  exists_sort id increasing ranked

end SortKey

end EntityAccess
