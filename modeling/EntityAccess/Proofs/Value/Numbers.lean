import EntityAccess.Proofs.Number
import EntityAccess.Proofs.Value.Order

/-!
# Numbers in the order of values

The order of values turns round, and two steps up lead up.  The second fails where
numbers are mixed: integers are told apart among themselves, but not by a double
that they are rounded to.  Nothing else makes it fail, and it takes an integer
beyond the 53rd power of two.

A double is bound to an integer field when its value is an integer of 64 bits, and
then to this integer.  Integers are bound to doubles in their order, and those of
at most 53 bits come back as they were.
-/

namespace EntityAccess

open Std (TransOrd TransCmp)

namespace Binary64

variable {x y : Binary64}

theorem compare?_eq_some_iff {order : Ordering} :
    x.compare? y = some order ↔
      x.isNaN = false ∧ y.isNaN = false ∧ compare x.rank y.rank = order := by
  cases number : x.isNaN <;> cases otherNumber : y.isNaN <;>
    simp [compare?, number, otherNumber]

theorem isNaN_ofInt64 (n : Int64) : (ofInt64 n).isNaN = false :=
  isNaN_of_isFinite (isFinite_ofInt64 n)

/-- Both of two integers, the lesser first, are rounded to the double. -/
def Merges (x : Binary64) (lesser greater : Int64) : Prop :=
  lesser.toInt < greater.toInt ∧
    (ofInt64 lesser).compare? x = some .eq ∧ (ofInt64 greater).compare? x = some .eq

theorem merges_iff {lesser greater : Int64} :
    x.Merges lesser greater ↔
      lesser.toInt < greater.toInt ∧ x.isNaN = false ∧
        (ofInt64 lesser).rank = x.rank ∧ (ofInt64 greater).rank = x.rank := by
  simp only [Merges, compare?_eq_some_iff, isNaN_ofInt64, true_and, Std.compare_eq_iff_eq]
  exact and_congr_right fun _ =>
    ⟨fun both => ⟨both.1.1, both.1.2, both.2.2⟩, fun all => ⟨⟨all.1, all.2.1⟩, all.1, all.2.2⟩⟩

/-- Integers of at most 53 significant bits are not rounded, so a double tells them apart. -/
theorem Merges.large {lesser greater : Int64} (merges : x.Merges lesser greater) :
    2 ^ 53 < lesser.toInt.natAbs ∨ 2 ^ 53 < greater.toInt.natAbs := by
  obtain ⟨less, _, rank, otherRank⟩ := merges_iff.1 merges
  by_contra! small
  have values : (ofInt64 lesser).toRat = (ofInt64 greater).toRat := by
    rw [toRat_eq, toRat_eq, rank, otherRank]
  rw [toRat_ofInt64_of_le small.1, toRat_ofInt64_of_le small.2, Int.cast_inj] at values
  omega

end Binary64

namespace Value

/-- The first value is below the second. -/
def Below (left right : Value) : Prop :=
  left.compare? right = some .lt

/-- The first value is below the second or level with it. -/
def AtMost (left right : Value) : Prop :=
  left.Below right ∨ left.compare? right = some .eq

/-- The outer values are in order, strictly if one of the steps between them is strict. -/
structure Composes (left middle right : Value) : Prop where
  atMost : left.AtMost right
  below : left.Below middle ∨ middle.Below right → left.Below right

variable {left middle right : Value}

theorem composes_iff :
    left.Composes middle right ↔
      left.AtMost right ∧ (left.Below middle ∨ middle.Below right → left.Below right) :=
  ⟨fun both => ⟨both.atMost, both.below⟩, fun both => ⟨both.1, both.2⟩⟩

theorem atMost_iff {order : Ordering} (compares : left.compare? right = some order) :
    left.AtMost right ↔ order.isLE = true := by
  rw [AtMost, Below, compares]
  cases order <;> simp

/-- Values that are compared by contents of one type are in a consistent order. -/
theorem composes_of_compare
    {α : Type} [Ord α] [TransOrd α] {x y z : α}
    (first : left.compare? middle = some (compare x y))
    (second : middle.compare? right = some (compare y z))
    (both : left.compare? right = some (compare x z))
    (up : left.AtMost middle) (upAgain : middle.AtMost right) :
    left.Composes middle right := by
  have isUp := (atMost_iff first).1 up
  have isUpAgain := (atMost_iff second).1 upAgain
  refine ⟨(atMost_iff both).2 (TransCmp.isLE_trans isUp isUpAgain), ?_⟩
  rintro (strict | strict)
  · have less := Option.some.inj (first.symm.trans strict)
    exact both.trans (congrArg some (TransCmp.lt_of_lt_of_isLE less isUpAgain))
  · have less := Option.some.inj (second.symm.trans strict)
    exact both.trans (congrArg some (TransCmp.lt_of_isLE_of_lt isUp less))

theorem below_iff_of_doubles {x y : Binary64} (compares : left.compare? right = x.compare? y) :
    left.Below right ↔ x.isNaN = false ∧ y.isNaN = false ∧ x.rank < y.rank := by
  rw [Below, compares, Binary64.compare?_eq_some_iff, Int.compare_eq_lt]

theorem atMost_iff_of_doubles {x y : Binary64} (compares : left.compare? right = x.compare? y) :
    left.AtMost right ↔ x.isNaN = false ∧ y.isNaN = false ∧ x.rank ≤ y.rank := by
  rw [AtMost, below_iff_of_doubles compares, compares, Binary64.compare?_eq_some_iff,
    Int.compare_eq_eq, ← and_or_left, ← and_or_left, ← Int.le_iff_lt_or_eq]

/-- Values that are compared as doubles are in a consistent order. -/
theorem composes_of_doubles
    {x y z : Binary64} (first : left.compare? middle = x.compare? y)
    (second : middle.compare? right = y.compare? z) (both : left.compare? right = x.compare? z)
    (up : left.AtMost middle) (upAgain : middle.AtMost right) :
    left.Composes middle right := by
  obtain ⟨number, middleNumber, _⟩ := (atMost_iff_of_doubles first).1 up
  obtain ⟨_, lastNumber, _⟩ := (atMost_iff_of_doubles second).1 upAgain
  refine composes_of_compare (x := x.rank) (y := y.rank) (z := z.rank) ?_ ?_ ?_ up upAgain
  · exact first.trans (Binary64.compare?_eq_some_iff.2 ⟨number, middleNumber, rfl⟩)
  · exact second.trans (Binary64.compare?_eq_some_iff.2 ⟨middleNumber, lastNumber, rfl⟩)
  · exact both.trans (Binary64.compare?_eq_some_iff.2 ⟨number, lastNumber, rfl⟩)

section Mixed

variable {m n : Int64} {x : Binary64}

theorem atMost_int_iff : (Value.int m).AtMost (.int n) ↔ m.toInt ≤ n.toInt := by
  rw [atMost_iff rfl, Int.isLE_compare]

theorem below_int_iff : (Value.int m).Below (.int n) ↔ m.toInt < n.toInt := by
  rw [Below, compare?, Option.some.injEq, Int.compare_eq_lt]

theorem atMost_float_iff :
    (Value.int m).AtMost (.float x) ↔ x.isNaN = false ∧ (Binary64.ofInt64 m).rank ≤ x.rank := by
  rw [atMost_iff_of_doubles rfl, Binary64.isNaN_ofInt64, eq_self, true_and]

theorem below_float_iff :
    (Value.int m).Below (.float x) ↔ x.isNaN = false ∧ (Binary64.ofInt64 m).rank < x.rank := by
  rw [below_iff_of_doubles rfl, Binary64.isNaN_ofInt64, eq_self, true_and]

theorem float_atMost_iff :
    (Value.float x).AtMost (.int m) ↔ x.isNaN = false ∧ x.rank ≤ (Binary64.ofInt64 m).rank := by
  rw [atMost_iff_of_doubles rfl, Binary64.isNaN_ofInt64, eq_self, true_and]

theorem float_below_iff :
    (Value.float x).Below (.int m) ↔ x.isNaN = false ∧ x.rank < (Binary64.ofInt64 m).rank := by
  rw [below_iff_of_doubles rfl, Binary64.isNaN_ofInt64, eq_self, true_and]

/-- Two integers below a double are in order with it unless it takes them for one. -/
theorem composes_before_float_iff
    (up : (Value.int m).AtMost (.int n)) (upAgain : (Value.int n).AtMost (.float x)) :
    (Value.int m).Composes (.int n) (.float x) ↔ ¬ x.Merges m n := by
  have ranks := Binary64.rank_ofInt64_mono (atMost_int_iff.1 up)
  obtain ⟨number, isUp⟩ := atMost_float_iff.1 upAgain
  rw [composes_iff, Binary64.merges_iff, atMost_float_iff, below_int_iff, below_float_iff,
    below_float_iff]
  simp only [number, true_and]
  omega

theorem composes_after_float_iff
    (up : (Value.float x).AtMost (.int m)) (upAgain : (Value.int m).AtMost (.int n)) :
    (Value.float x).Composes (.int m) (.int n) ↔ ¬ x.Merges m n := by
  have ranks := Binary64.rank_ofInt64_mono (atMost_int_iff.1 upAgain)
  obtain ⟨number, isUp⟩ := float_atMost_iff.1 up
  rw [composes_iff, Binary64.merges_iff, float_atMost_iff, below_int_iff, float_below_iff,
    float_below_iff]
  simp only [number, true_and]
  omega

/-- A double leads from an integer to a lesser one exactly if it takes them for one. -/
theorem composes_around_float_iff
    (up : (Value.int n).AtMost (.float x)) (upAgain : (Value.float x).AtMost (.int m)) :
    (Value.int n).Composes (.float x) (.int m) ↔ ¬ x.Merges m n := by
  obtain ⟨number, isUp⟩ := atMost_float_iff.1 up
  obtain ⟨_, isUpAgain⟩ := float_atMost_iff.1 upAgain
  rw [composes_iff, Binary64.merges_iff, atMost_int_iff, below_int_iff, below_float_iff,
    float_below_iff]
  simp only [number, true_and]
  have ranks : m.toInt ≤ n.toInt → (Binary64.ofInt64 m).rank ≤ (Binary64.ofInt64 n).rank :=
    Binary64.rank_ofInt64_mono
  omega

end Mixed

/-- Two integers are told apart that a double beside them does not tell apart. -/
def Blurs : Value → Value → Value → Prop
  | .int m, .int n, .float x => x.Merges m n
  | .float x, .int m, .int n => x.Merges m n
  | .int n, .float x, .int m => x.Merges m n
  | _, _, _ => False

/-- An integer or a double. -/
def IsNumber (value : Value) : Prop :=
  value.kind = .int ∨ value.kind = .float

theorem IsNumber.exists {value : Value} (number : value.IsNumber) :
    (∃ n, value = .int n) ∨ ∃ x, value = .float x := by
  cases value with
  | int n => exact Or.inl ⟨n, rfl⟩
  | float x => exact Or.inr ⟨x, rfl⟩
  | null | bool | text | list | uuid | dateTime => exact number.elim nofun nofun

/-- Numbers are in order unless two integers among them are blurred. -/
theorem composes_iff_of_numbers
    (number : left.IsNumber) (middleNumber : middle.IsNumber) (rightNumber : right.IsNumber)
    (up : left.AtMost middle) (upAgain : middle.AtMost right) :
    left.Composes middle right ↔ ¬ Blurs left middle right := by
  obtain ⟨m, rfl⟩ | ⟨x, rfl⟩ := number.exists <;>
    obtain ⟨n, rfl⟩ | ⟨y, rfl⟩ := middleNumber.exists <;>
      obtain ⟨k, rfl⟩ | ⟨z, rfl⟩ := rightNumber.exists
  · exact iff_of_true (composes_of_compare rfl rfl rfl up upAgain) id
  · exact composes_before_float_iff up upAgain
  · exact composes_around_float_iff up upAgain
  · exact iff_of_true (composes_of_doubles rfl rfl rfl up upAgain) id
  · exact composes_after_float_iff up upAgain
  · exact iff_of_true (composes_of_doubles rfl rfl rfl up upAgain) id
  · exact iff_of_true (composes_of_doubles rfl rfl rfl up upAgain) id
  · exact iff_of_true (composes_of_doubles rfl rfl rfl up upAgain) id

/-! ## All values -/

/-- Only numbers are compared with values of another kind. -/
theorem kind_eq_or_numbers (up : left.AtMost right) :
    left.kind = right.kind ∨ left.IsNumber ∧ right.IsNumber := by
  obtain ⟨order, compares⟩ : ∃ order, left.compare? right = some order :=
    up.elim (fun less => ⟨_, less⟩) fun level => ⟨_, level⟩
  cases left with
  | int | float =>
      cases right with
      | int | float => exact Or.inr ⟨by simp [IsNumber, kind], by simp [IsNumber, kind]⟩
      | null | bool | text | list | uuid | dateTime => cases compares
  | null | bool | text | list | uuid | dateTime =>
      cases right <;> first | exact Or.inl rfl | cases compares

/-- Two steps up lead up unless two integers are blurred. -/
theorem composes_iff_not_blurs (up : left.AtMost middle) (upAgain : middle.AtMost right) :
    left.Composes middle right ↔ ¬ Blurs left middle right := by
  have before := kind_eq_or_numbers up
  have after := kind_eq_or_numbers upAgain
  by_cases number : middle.IsNumber
  · have leftNumber : left.IsNumber :=
      before.elim (fun same => by rwa [IsNumber, same]) And.left
    have rightNumber : right.IsNumber :=
      after.elim (fun same => by rwa [IsNumber, ← same]) And.right
    exact composes_iff_of_numbers leftNumber number rightNumber up upAgain
  · -- Without a number in the middle, all three values are of its kind.
    have same := before.resolve_right fun both => number both.2
    have sameAgain := after.resolve_right fun both => number both.1
    cases middle with
    | int => exact absurd (Or.inl rfl) number
    | float => exact absurd (Or.inr rfl) number
    | list =>
        cases left <;> cases same
        cases up <;> contradiction
    | null =>
        cases left <;> cases same
        cases right <;> cases sameAgain
        exact iff_of_true ⟨Or.inr rfl, fun strict => strict.elim id id⟩ id
    | bool | text =>
        cases left <;> cases same
        cases right <;> cases sameAgain
        exact iff_of_true (composes_of_compare rfl rfl rfl up upAgain) id
    | uuid u =>
        cases left <;> cases same
        cases right <;> cases sameAgain
        exact iff_of_true (composes_of_compare (y := u) rfl rfl rfl up upAgain) id
    | dateTime t =>
        cases left <;> cases same
        cases right <;> cases sameAgain
        exact iff_of_true (composes_of_compare (y := t) rfl rfl rfl up upAgain) id

/-- Of two integers that are blurred, one lies beyond the 53rd power of two. -/
theorem Blurs.exists_large (blurs : Blurs left middle right) :
    ∃ n, Value.int n ∈ [left, middle, right] ∧ 2 ^ 53 < n.toInt.natAbs := by
  unfold Blurs at blurs
  split at blurs
  case h_4 => exact blurs.elim
  all_goals
    rcases blurs.large with far | far
    all_goals exact ⟨_, by simp, far⟩

/--
Values compare in opposite ways from both sides, or from none.  Two steps up
lead up, strictly if one of them is strict, exactly unless two integers are told
apart that are rounded to the double beside them; one of these lies beyond the
53rd power of two.
-/
theorem compare?_consistent (left middle right : Value) :
    left.compare? middle = (middle.compare? left).map Ordering.swap ∧
      (left.AtMost middle → middle.AtMost right →
        (left.AtMost right ∧ (left.Below middle ∨ middle.Below right → left.Below right) ↔
          ¬ Blurs left middle right)) ∧
      (Blurs left middle right →
        ∃ n, Value.int n ∈ [left, middle, right] ∧ 2 ^ 53 < n.toInt.natAbs) :=
  ⟨compare?_swap left middle,
    fun up upAgain => composes_iff.symm.trans (composes_iff_not_blurs up upAgain),
    Blurs.exists_large⟩

/-- The 53rd power of two is level with its double, which is level with the integer after it. -/
theorem compare?_consistent_power :
    let power := Value.int 0x20000000000000
    let double := Value.float (Binary64.ofInt64 0x20000000000000)
    let after := Value.int 0x20000000000001
    power.AtMost double ∧ double.AtMost after ∧ ¬ Blurs power double after ∧
      power.AtMost after ∧ Blurs after double power ∧
      ∃ n, Value.int n ∈ [after, double, power] ∧ 2 ^ 53 < n.toInt.natAbs := by
  intro power double after
  have up : power.AtMost double := Or.inr (by decide)
  have upAgain : double.AtMost after := Or.inr (by decide)
  have apart : ¬ Blurs power double after := fun blurs => absurd blurs.1 (by decide)
  have blurs : Blurs after double power := ⟨by decide, by decide, by decide⟩
  exact ⟨up, upAgain, apart, ((compare?_consistent power double after).2.1 up upAgain).2 apart |>.1,
    blurs, (compare?_consistent after double power).2.2 blurs⟩

/-- The integer after the 53rd power of two is level with its double and above the power itself. -/
theorem not_transitive_of_rounding :
    ¬ ∀ left middle right : Value, left.isNaN = false → middle.isNaN = false →
      right.isNaN = false → left.AtMost middle → middle.AtMost right →
        left.AtMost right ∧ (left.Below middle ∨ middle.Below right → left.Below right) := by
  intro transitive
  obtain ⟨ordered, _⟩ := transitive (.int 0x20000000000001)
    (.float (Binary64.ofInt64 0x20000000000000)) (.int 0x20000000000000) rfl (by decide) rfl
    (Or.inr (by decide)) (Or.inr (by decide))
  exact absurd (atMost_int_iff.1 ordered) (by decide)

end Value

/-! ## Coercion of numbers -/

namespace Binary64

variable {x : Binary64}

/-- The least integer is kept as a double and may be reached. -/
theorem minValue_atMost_iff :
    (Value.int Int64.minValue).AtMost (.float x) ↔
      x.isNaN = false ∧ -0x8000000000000000 ≤ x.toRat := by
  rw [Value.atMost_float_iff, ← toRat_ofInt64_minValue, toRat_le_iff]

/-- The greatest integer is rounded up as a double and may not be reached. -/
theorem below_maxValue_iff :
    (Value.float x).Below (.int Int64.maxValue) ↔
      x.isNaN = false ∧ x.toRat < 0x8000000000000000 := by
  rw [Value.float_below_iff, ← toRat_ofInt64_maxValue, toRat_lt_iff]

theorem natAbs_rank (x : Binary64) : x.rank.natAbs = x.magnitude := by
  unfold rank
  split <;> omega

/-- No infinity lies between finite doubles. -/
theorem isFinite_of_rank
    {lower upper : Binary64} (lowerFinite : lower.isFinite = true)
    (upperFinite : upper.isFinite = true) (least : lower.rank ≤ x.rank)
    (most : x.rank ≤ upper.rank) : x.isFinite = true := by
  have lowerSize : lower.magnitude < Rounding.infinity := of_decide_eq_true lowerFinite
  have upperSize : upper.magnitude < Rounding.infinity := of_decide_eq_true upperFinite
  have size := natAbs_rank x
  rw [← natAbs_rank] at lowerSize upperSize
  refine decide_eq_true ?_
  omega

/-- The tests of a double against the bounds of the integers are those of its value. -/
theorem inRange_iff :
    (Value.int Int64.minValue).AtMost (.float x) ∧ (Value.float x).Below (.int Int64.maxValue) ↔
      x.isFinite = true ∧ -0x8000000000000000 ≤ x.toRat ∧ x.toRat < 0x8000000000000000 := by
  constructor
  · rintro ⟨lower, upper⟩
    have least := (Value.atMost_float_iff.1 lower).2
    have most := (Value.float_below_iff.1 upper).2
    exact ⟨isFinite_of_rank (isFinite_ofInt64 _) (isFinite_ofInt64 _) least (Int.le_of_lt most),
      (minValue_atMost_iff.1 lower).2, (below_maxValue_iff.1 upper).2⟩
  · rintro ⟨finite, lower, upper⟩
    have number := isNaN_of_isFinite finite
    exact ⟨minValue_atMost_iff.2 ⟨number, lower⟩, below_maxValue_iff.2 ⟨number, upper⟩⟩

end Binary64

namespace ScalarType

variable {x : Binary64}

/-- A double is bound to the integer that is its value. -/
theorem coerce_int_float_eq_ok_iff {bound : Value} :
    coerce .int (.float x) = .ok bound ↔
      ∃ n, bound = .int n ∧ x.isFinite = true ∧ x.toRat = n.toInt := by
  simp only [coerce_eq_ok_iff, ← Binary64.toInt64?_eq_some_iff]
  constructor
  · rintro (⟨⟨⟩⟩ | whole)
    exact ⟨_, rfl, whole⟩
  · rintro ⟨n, rfl, whole⟩
    exact .narrow whole

/-- A double is bound to an integer when it is whole and passes the tests of the range. -/
theorem exists_coerce_int_float_iff :
    (∃ bound, coerce .int (.float x) = .ok bound) ↔
      (∃ k : Int, x.toRat = k) ∧ (Value.int Int64.minValue).AtMost (.float x) ∧
        (Value.float x).Below (.int Int64.maxValue) := by
  have converted : (∃ bound, coerce .int (.float x) = .ok bound) ↔ ∃ n, x.toInt64? = some n := by
    simp only [coerce_int_float_eq_ok_iff, ← Binary64.toInt64?_eq_some_iff]
    exact ⟨fun ⟨_, n, _, whole⟩ => ⟨n, whole⟩, fun ⟨n, whole⟩ => ⟨_, n, rfl, whole⟩⟩
  rw [converted, Binary64.exists_toInt64?_iff, Binary64.inRange_iff]
  exact and_left_comm

/-- An integer of at most 53 bits is bound to a double that is bound to the integer. -/
theorem coerce_int_ofInt64 {n : Int64} (small : n.toInt.natAbs ≤ 2 ^ 53) :
    coerce .int (.float (Binary64.ofInt64 n)) = .ok (.int n) :=
  coerce_int_float_eq_ok_iff.2
    ⟨n, rfl, Binary64.isFinite_ofInt64 n, Binary64.toRat_ofInt64_of_le small⟩

/-- Integers in order are bound to doubles in order. -/
theorem atMost_ofInt64 {m n : Int64} (ordered : m ≤ n) :
    (Value.float (Binary64.ofInt64 m)).AtMost (.float (Binary64.ofInt64 n)) :=
  (Value.atMost_iff_of_doubles rfl).2 ⟨Binary64.isNaN_ofInt64 m, Binary64.isNaN_ofInt64 n,
    Binary64.rank_ofInt64_mono (Int64.le_iff_toInt_le.1 ordered)⟩

/--
A double is bound to an integer exactly if it is finite, whole and in the range
of the integers, which is what the tests of the double against the bounds show,
and then the integer is its value.  An integer of at most 53 bits comes back
from its double, and integers in order are bound to doubles in order.
-/
theorem coerces_numbers_exactly :
    (∀ (x : Binary64) (bound : Value), coerce .int (.float x) = .ok bound ↔
        ∃ n, bound = .int n ∧ x.isFinite = true ∧ x.toRat = n.toInt) ∧
      (∀ x : Binary64, (∃ bound, coerce .int (.float x) = .ok bound) ↔
        x.isFinite = true ∧ (∃ k : Int, x.toRat = k) ∧ -2 ^ 63 ≤ x.toRat ∧ x.toRat < 2 ^ 63) ∧
      (∀ x : Binary64, (∃ bound, coerce .int (.float x) = .ok bound) ↔
        (∃ k : Int, x.toRat = k) ∧ (Value.int Int64.minValue).AtMost (.float x) ∧
          (Value.float x).Below (.int Int64.maxValue)) ∧
      (∀ n : Int64, n.toInt.natAbs ≤ 2 ^ 53 → ∃ double, coerce .float (.int n) = .ok double ∧
        coerce .int double = .ok (.int n)) ∧
      ∀ m n : Int64, m ≤ n → ∃ lesser greater, coerce .float (.int m) = .ok lesser ∧
        coerce .float (.int n) = .ok greater ∧ lesser.AtMost greater := by
  refine ⟨fun x bound => coerce_int_float_eq_ok_iff, fun x => ?range,
    fun x => exists_coerce_int_float_iff, fun n small => ?small, fun m n ordered => ?ordered⟩
  case range =>
    rw [exists_coerce_int_float_iff, Binary64.inRange_iff, and_left_comm]
    norm_num
  case small => exact ⟨_, rfl, coerce_int_ofInt64 small⟩
  case ordered => exact ⟨_, _, rfl, rfl, atMost_ofInt64 ordered⟩

/--
The least integer is bound as a double, and the double of the greatest one is
not, being the 63rd power of two.  The 53rd power of two comes back, and the
integer after it has the same double.
-/
theorem coerces_numbers_exactly_bounds :
    let power : Int64 := 0x20000000000000
    let after : Int64 := 0x20000000000001
    (∃ n, Value.int Int64.minValue = .int n ∧
        (Binary64.ofInt64 Int64.minValue).isFinite = true ∧
        (Binary64.ofInt64 Int64.minValue).toRat = n.toInt) ∧
      (¬∃ bound, coerce .int (.float (Binary64.ofInt64 Int64.maxValue)) = .ok bound) ∧
      (∃ double, coerce .float (.int power) = .ok double ∧ coerce .int double = .ok (.int power)) ∧
      (∃ lesser greater, coerce .float (.int power) = .ok lesser ∧
        coerce .float (.int after) = .ok greater ∧ lesser.AtMost greater) ∧
      Binary64.ofInt64 power = Binary64.ofInt64 after := by
  obtain ⟨values, _, tests, back, order⟩ := coerces_numbers_exactly
  have reached : (Value.float (Binary64.ofInt64 Int64.maxValue)).compare? (.int Int64.maxValue) ≠
      some .lt := by decide
  exact ⟨(values _ _).1 rfl, fun bound => reached ((tests _).1 bound).2.2, back _ (by decide),
    order _ _ (by decide), by decide⟩

end ScalarType

end EntityAccess
