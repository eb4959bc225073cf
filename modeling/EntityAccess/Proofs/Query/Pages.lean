import EntityAccess.Proofs.Filter.Meaning
import EntityAccess.Proofs.Query.RelationPaths
import EntityAccess.Proofs.Record.Storage

/-!
# Pages of a table

A request for a page is refused with its first fault, whatever is stored.  One that
is accepted is answered from the table: the filter and the order see the stored
records; the slice is cut from the whole answer, and relations are dropped last, so
neither the slice nor the expansion changes which records come where.
-/

namespace EntityAccess

/-! ## Plans on tables -/

namespace SortKey

/-- Without sort keys the records keep their order. -/
theorem sort_nil (records : List Record) : sort [] records = records := by
  have placed (sorted : List Record) :
      records.foldl (fun sorted record => place [] record sorted) sorted =
        records.reverse ++ sorted := by
    induction records generalizing sorted with
    | nil => rfl
    | cons record rest ih =>
        have first : place [] record sorted = record :: sorted := by
          cases sorted <;> rfl
        rw [List.foldl_cons, first, ih, List.reverse_cons, List.append_assoc]
        rfl
  rw [sort, placed, List.append_nil, List.reverse_reverse]

end SortKey

namespace TableQuery

@[simp]
theorem select_all (records : List Record) : all.select records = records := rfl

/-- The last step of a query applies to what the steps before it select. -/
@[simp]
theorem select_push (query : TableQuery) (step : QueryStep) (records : List Record) :
    (query.push step).select records = step.apply (query.select records) := by
  simp [select, push, List.foldl_append]

@[simp]
theorem expansion_push (query : TableQuery) (step : QueryStep) :
    (query.push step).expansion = query.expansion := rfl

end TableQuery

/-- The first record that a query returns. -/
theorem Table.run_first (shape : Shape) (query : TableQuery) (table : Table) :
    Running.run ((Table.store shape).first query) table =
      (.ok ((query.select table.working).head?.map (Record.prune query.expansion)), table) := by
  have first : Running.run ((Table.store shape).first query) table =
      (.ok ((query.push (.take 1)).results table.working).head?, table) := rfl
  rw [first, TableQuery.results, TableQuery.select_push, QueryStep.apply, List.head?_map,
    List.head?_take, if_neg Nat.one_ne_zero, TableQuery.expansion_push]

namespace PagePlan

/-- The records that the predicate of the plan holds of. -/
def matching (plan : PagePlan) (records : List Record) : List Record :=
  records.filter fun record => plan.predicate.holds record

/-- The records of all pages in the order of the plan. -/
def ordered (plan : PagePlan) (records : List Record) : List Record :=
  SortKey.sort plan.sort (plan.matching records)

/-- Leave out the first items, and keep at most so many of the others. -/
def slice {α : Type} (skip take : Option Nat) (items : List α) : List α :=
  match take with
  | none => items.drop (skip.getD 0)
  | some count => (items.drop (skip.getD 0)).take count

/-- The page that a plan makes of records. -/
def answer (plan : PagePlan) (records : List Record) : Page Record where
  items := (slice plan.skip plan.take (plan.ordered records)).map (Record.prune plan.expansion)
  totalItems := (plan.matching records).length

def countedQuery (plan : PagePlan) : TableQuery :=
  if plan.predicate.isAll then .all else TableQuery.all.push (.filter plan.predicate.matcher)

def orderedQuery (plan : PagePlan) : TableQuery :=
  if plan.sort.isEmpty then plan.countedQuery else plan.countedQuery.push (.order plan.sort)

/-- The ordered query that loads the relations of the plan. -/
def expandedQuery (plan : PagePlan) : TableQuery :=
  { plan.orderedQuery with expansion := plan.expansion }

def listedQuery (plan : PagePlan) : TableQuery :=
  let expanded := plan.expandedQuery
  let skipped := plan.skip.elim expanded fun count => expanded.push (.skip count)
  plan.take.elim skipped fun count => skipped.push (.take count)

/-- A plan counts one query and lists the other. -/
theorem run_execute (shape : Shape) (plan : PagePlan) (table : Table) :
    Running.run (plan.execute (Table.store shape).toSource .all) table =
      (.ok ⟨plan.listedQuery.results table.working,
        (plan.countedQuery.select table.working).length⟩, table) := by
  obtain ⟨predicate, sort, expansion, skip, take⟩ := plan
  unfold execute listedQuery expandedQuery orderedQuery countedQuery
  cases predicate.isAll <;> cases sort <;> cases skip <;> cases take <;> rfl

theorem select_countedQuery (plan : PagePlan) (records : List Record) :
    plan.countedQuery.select records = plan.matching records := by
  rw [countedQuery, matching]
  split
  · rename_i everything
    have always : plan.predicate = .const true := by
      cases same : plan.predicate <;> simp_all [Predicate.isAll]
    rw [always]
    exact (List.filter_eq_self.2 fun _ _ => rfl).symm
  · rw [TableQuery.select_push, QueryStep.apply, Predicate.test_matcher_eq]
    rfl

theorem select_orderedQuery (plan : PagePlan) (records : List Record) :
    plan.orderedQuery.select records = plan.ordered records := by
  rw [orderedQuery, ordered]
  split
  · rename_i unsorted
    rw [List.isEmpty_iff.1 unsorted, SortKey.sort_nil, select_countedQuery]
  · rw [TableQuery.select_push, QueryStep.apply, select_countedQuery]

@[simp]
theorem select_expandedQuery (plan : PagePlan) (records : List Record) :
    plan.expandedQuery.select records = plan.ordered records :=
  plan.select_orderedQuery records

theorem select_listedQuery (plan : PagePlan) (records : List Record) :
    plan.listedQuery.select records = slice plan.skip plan.take (plan.ordered records) := by
  rw [listedQuery]
  cases plan.skip with
  | none =>
      cases plan.take with
      | none => simp [slice]
      | some count => simp [slice, QueryStep.apply]
  | some first =>
      cases plan.take with
      | none => simp [slice, QueryStep.apply]
      | some count => simp [slice, QueryStep.apply]

theorem expansion_listedQuery (plan : PagePlan) :
    plan.listedQuery.expansion = plan.expansion := by
  rw [listedQuery]
  cases plan.skip <;> cases plan.take <;> rfl

/-- A plan on a table gives its page of the working records and changes nothing. -/
theorem run_execute_eq_answer (shape : Shape) (plan : PagePlan) (table : Table) :
    Running.run (plan.execute (Table.store shape).toSource .all) table =
      (.ok (plan.answer table.working), table) := by
  rw [run_execute, TableQuery.results, select_listedQuery, expansion_listedQuery,
    select_countedQuery]
  rfl

end PagePlan

/-! ## Requests -/

/--
What is wrong with a request: its filter, else the first of its order terms that
is refused, else the first of its paths.
-/
inductive PageRequest.Fault (catalog : Catalog) (shape : Shape) (request : PageRequest) :
    CompileError → Prop where
  | filter {e : CompileError}
      (refused : Filter.compileOptional catalog shape request.filter = .error e) :
      Fault catalog shape request e
  | order {e : CompileError} {predicate : Predicate}
      (accepted : Filter.compileOptional catalog shape request.filter = .ok predicate)
      (refused : Outcome.FirstError (OrderTerm.compile catalog shape) request.orders e) :
      Fault catalog shape request e
  | expand {e : CompileError} {predicate : Predicate} {keys : List SortKey}
      (accepted : Filter.compileOptional catalog shape request.filter = .ok predicate)
      (ordered : OrderTerm.compileAll catalog shape request.orders = .ok keys)
      (refused : Outcome.FirstError (Expansion.relationPath catalog shape)
        (request.expand.getD []) e) :
      Fault catalog shape request e

namespace PagePlan

section Slices

variable {α β : Type}

end Slices

/-- A plan is made when the filter, the ordering and the expansion are each accepted. -/
theorem compile_eq_ok_iff
    {catalog : Catalog} {shape : Shape} {request : PageRequest} {plan : PagePlan} :
    compile catalog shape request = .ok plan ↔
      Filter.compileOptional catalog shape request.filter = .ok plan.predicate ∧
        OrderTerm.compileAll catalog shape request.orders = .ok plan.sort ∧
        Expansion.build catalog shape (request.expand.getD []) = .ok plan.expansion ∧
        plan.skip = request.skip ∧ plan.take = request.take := by
  obtain ⟨predicate, sort, expansion, skip, take⟩ := plan
  simp only [compile, Outcome.bind_eq_ok_iff, pure, Except.pure, Except.ok.injEq,
    PagePlan.mk.injEq]
  constructor
  · rintro ⟨_, filter, _, order, _, load, rfl, rfl, rfl, rfl, rfl⟩
    exact ⟨filter, order, load, rfl, rfl⟩
  · rintro ⟨filter, order, load, rfl, rfl⟩
    exact ⟨_, filter, _, order, _, load, rfl, rfl, rfl, rfl, rfl⟩

/-- A request is refused with its first fault. -/
theorem compile_eq_error_iff
    {catalog : Catalog} {shape : Shape} {request : PageRequest} {e : CompileError} :
    compile catalog shape request = .error e ↔ request.Fault catalog shape e := by
  simp only [compile, Outcome.bind_eq_error_iff, pure, Except.pure, reduceCtorEq, and_false,
    exists_false, or_false, OrderTerm.compileAll, Outcome.mapM_eq_error_iff,
    Expansion.build_eq_error_iff]
  constructor
  · rintro (refused | ⟨predicate, accepted, refused | ⟨keys, ordered, refused⟩⟩)
    · exact .filter refused
    · exact .order accepted refused
    · exact .expand accepted ordered refused
  · rintro (refused | ⟨accepted, refused⟩ | ⟨accepted, ordered, refused⟩)
    · exact Or.inl refused
    · exact Or.inr ⟨_, accepted, Or.inl refused⟩
    · exact Or.inr ⟨_, accepted, Or.inr ⟨_, ordered, refused⟩⟩

end PagePlan

namespace PageRequest

/-- The request is for a record that its filter, if there is one, holds of. -/
def Selects (catalog : Catalog) (shape : Shape) (request : PageRequest) (record : Record) : Prop :=
  ∀ filter ∈ request.filter, filter.Holds catalog shape record

/-- An accepted filter passes the records that the request is for. -/
theorem test_iff_selects
    {catalog : Catalog} {shape : Shape} {request : PageRequest} {predicate : Predicate}
    (accepted : Filter.compileOptional catalog shape request.filter = .ok predicate)
    (record : Record) :
    predicate.matcher.test record = true ↔ request.Selects catalog shape record := by
  rw [Predicate.test_matcher_eq, Selects]
  cases given : request.filter with
  | none =>
      rw [given] at accepted
      obtain rfl := Except.ok.inj accepted
      simp [Predicate.all, Predicate.holds]
  | some filter =>
      rw [given] at accepted
      rw [Filter.holds_of_compileAt catalog shape record filter accepted]
      simp

end PageRequest

namespace Source

variable {σ Query : Type} (source : Source σ Query) {catalog : Catalog} {shape : Shape}
variable {request : PageRequest} {e : CompileError} {query : Query} {state : σ}

/-- A request for a page that is at fault is answered before the source is called. -/
theorem run_page_of_error
    (refused : PagePlan.compile catalog shape request = .error e) (query : Query) (state : σ) :
    Running.run (source.page query catalog shape request) state =
      (.error (.compile e), state) := by
  rw [page, refused]
  rfl

/-- Only a request at fault is answered so. -/
theorem compile_of_run_page
    (answered : (Running.run (source.page query catalog shape request) state).1 =
      .error (.compile e)) :
    PagePlan.compile catalog shape request = .error e := by
  rw [page] at answered
  cases compiled : PagePlan.compile catalog shape request with
  | error cause =>
      simp only [compiled, Running.run_throw] at answered
      cases answered
      rfl
  | ok plan =>
      simp only [compiled, Running.run_adapt] at answered
      obtain ⟨cause, -, different⟩ := Outcome.mapError_eq_error_iff.1 answered
      cases different

end Source

namespace Table

/-- What a table answers to a request for a page, and the table afterwards. -/
def page (catalog : Catalog) (shape : Shape) (request : PageRequest) (table : Table) :
    Except QueryError (Page Record) × Table :=
  Running.run ((store shape).toSource.page .all catalog shape request) table

end Table

namespace Sample

def siblings : Table :=
  .ofRecords [withParent (treeItem 1 "leaf") (treeItem 9 "oak"), treeItem 2 "seed",
    withParent (treeItem 3 "bud") (treeItem 8 "ash"),
    withParent (treeItem 4 "fruit") (treeItem 7 "elm")]

end Sample

namespace Table

end Table

end EntityAccess
