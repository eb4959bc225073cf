/-!
# Doubles

A double is its 64-bit word.  Its order, its exact value, the conversions from
and to integers and its written forms are computed in exact integer arithmetic,
so all of them can be reasoned about.

Quotients are rounded to a *magnitude*: the 63 bits below the sign of a double,
read as one number, so that consecutive magnitudes are consecutive doubles and a
carry out of the significand moves to the next binade by itself.  A double is
written as its shortest decimal: among those with the fewest digits that are
nearest to it, the one closest to it.
-/

namespace EntityAccess

namespace Rounding

/-- The quotient rounded to nearest; a tie goes to the even neighbour. -/
def nearestEven (numerator denominator : Nat) : Nat :=
  let quotient := numerator / denominator
  let twice := 2 * (numerator % denominator)
  if twice < denominator then quotient
  else if denominator < twice then quotient + 1
  else quotient + quotient % 2

-- A factor with an exponent of either sign goes to the side of a quotient where its exponent is
-- not negative.

/-- The power of two, or one if the exponent is negative. -/
def twoTo (exponent : Int) : Nat := Nat.pow 2 exponent.toNat

/-- The power of ten, or one if the exponent is negative. -/
def tenTo (exponent : Int) : Nat := Nat.pow 10 exponent.toNat

def fractionBits : Nat := 52

/-- The number of magnitudes in a binade, one for each fraction. -/
def binade : Nat := 0x10000000000000

def leastExponent : Int := -1074

/-- The magnitude of infinity; every larger one belongs to a NaN. -/
def infinity : Nat := 0x7FF * binade

/--
Whether `numerator / denominator` is at least `2 ^ exponent`, decided without
division.
-/
def reaches (numerator denominator : Nat) (exponent : Int) : Bool :=
  decide (denominator * twoTo exponent ≤ numerator * twoTo (-exponent))

/-- The greatest `e` with `2 ^ e ≤ numerator / denominator`, both being positive. -/
def binaryLog (numerator denominator : Nat) : Int :=
  let estimate : Int := (numerator.log2 : Int) - denominator.log2
  if reaches numerator denominator estimate then estimate else estimate - 1

/-- The magnitude of the double `significand * 2 ^ exponent`. -/
def assemble (significand : Nat) (exponent : Int) : Nat :=
  (exponent - leastExponent).toNat * binade + significand

/--
The magnitude nearest to `numerator / denominator`, ties to even.  Quotients
beyond the largest finite double give a magnitude of at least `infinity`.
-/
def nearestMagnitude (numerator denominator : Nat) : Nat :=
  if numerator = 0 then 0
  else
    let exponent := max (binaryLog numerator denominator - fractionBits) leastExponent
    let significand :=
      nearestEven (numerator * twoTo (-exponent)) (denominator * twoTo exponent)
    assemble significand exponent

end Rounding

/-- The integer of 64 bits with a sign that equals an integer, if there is one. -/
def exactInt64? (n : Int) : Option Int64 :=
  if -0x8000000000000000 ≤ n ∧ n < 0x8000000000000000 then some (Int64.ofInt n) else none

/-- A floating-point number in the 64-bit interchange format. -/
structure Binary64 where
  bits : UInt64
  deriving DecidableEq, Inhabited, Repr

namespace Binary64

def signWeight : Nat := 0x8000000000000000

def magnitude (x : Binary64) : Nat :=
  x.bits.toNat % signWeight

def negative (x : Binary64) : Bool :=
  decide (signWeight ≤ x.bits.toNat)

def ofMagnitude (negative : Bool) (magnitude : Nat) : Binary64 :=
  ⟨UInt64.ofNat (magnitude + if negative then signWeight else 0)⟩

theorem magnitude_ofMagnitude
    (negative : Bool) {magnitude : Nat} (small : magnitude < signWeight) :
    (ofMagnitude negative magnitude).magnitude = magnitude := by
  cases negative <;> simp only [ofMagnitude, Binary64.magnitude, signWeight, UInt64.toNat_ofNat',
    if_true, if_false, Bool.false_eq_true] at small ⊢ <;> omega

theorem negative_ofMagnitude
    (negative : Bool) {magnitude : Nat} (small : magnitude < signWeight) :
    (ofMagnitude negative magnitude).negative = negative := by
  cases negative <;>
    simp only [ofMagnitude, Binary64.negative, signWeight, UInt64.toNat_ofNat', if_true, if_false,
      Bool.false_eq_true, decide_eq_true_eq, decide_eq_false_iff_not] at small ⊢ <;>
    omega

def isNaN (x : Binary64) : Bool :=
  decide (Rounding.infinity < x.magnitude)

def isInfinite (x : Binary64) : Bool :=
  decide (x.magnitude = Rounding.infinity)

/-- Neither infinite nor NaN. -/
def isFinite (x : Binary64) : Bool :=
  decide (x.magnitude < Rounding.infinity)

def isZero (x : Binary64) : Bool :=
  decide (x.magnitude = 0)

def zero : Binary64 := ofMagnitude false 0
def negativeZero : Binary64 := ofMagnitude true 0

/-- The NaN that stands for all of them. -/
def nan : Binary64 := ⟨0x7FF8000000000000⟩

/-- The rank of a number among the doubles; both zeros have rank zero. -/
def rank (x : Binary64) : Int :=
  if x.negative then -(x.magnitude : Int) else x.magnitude

/-- The order of two doubles; NaN is comparable with nothing, itself included. -/
def compare? (x y : Binary64) : Option Ordering :=
  if x.isNaN || y.isNaN then none else some (compare x.rank y.rank)

/-- Numeric equality: NaN differs from itself and the two zeros are equal. -/
def same (x y : Binary64) : Bool :=
  x.compare? y == some .eq

/-- The significand and the exponent of a finite double: its size is `m * 2 ^ q`. -/
structure Parts where
  significand : Nat
  exponent : Int
  deriving DecidableEq, Repr

/-- Subnormal magnitudes share the least exponent; the others have a leading one. -/
def parts (x : Binary64) : Parts :=
  let field := x.magnitude / Rounding.binade
  let fraction := x.magnitude % Rounding.binade
  if field = 0 then ⟨fraction, Rounding.leastExponent⟩
  else ⟨Rounding.binade + fraction, field + Rounding.leastExponent - 1⟩

/-- The size of a finite double, if it is a whole number. -/
def wholeSize? (x : Binary64) : Option Nat :=
  let ⟨significand, exponent⟩ := x.parts
  let below := Rounding.twoTo (-exponent)
  if significand % below = 0 then some (significand / below * Rounding.twoTo exponent) else none

/-- The integer a double equals, if there is one. -/
def toInt? (x : Binary64) : Option Int :=
  if x.isFinite then
    x.wholeSize?.map fun size => if x.negative then -(size : Int) else size
  else none

def toInt64? (x : Binary64) : Option Int64 :=
  x.toInt?.bind exactInt64?

/-- The double nearest to a signed quotient, or none if that would be infinite. -/
def ofQuotient? (negative : Bool) (numerator denominator : Nat) : Option Binary64 :=
  let magnitude := Rounding.nearestMagnitude numerator denominator
  if magnitude < Rounding.infinity then some (ofMagnitude negative magnitude) else none

/-- The double nearest to an integer of 64 bits, ties to even. -/
def ofInt64 (n : Int64) : Binary64 :=
  ofMagnitude (decide (n.toInt < 0)) (Rounding.nearestMagnitude n.toInt.natAbs 1)

end Binary64

/-! ## Written forms

The plain form is always positional and writes whole numbers like integers; the
marked form keeps a fraction, so that a double never looks like an integer, and
turns to an exponent for very large and very small numbers.
-/

/-- The number `digits * 10 ^ exponent`. -/
structure Decimal where
  digits : Nat
  exponent : Int
  deriving DecidableEq, Repr

namespace Decimal

open Rounding (twoTo tenTo)

/-- Order `digits * 10 ^ exponent` against `size * 2 ^ scale`, exactly. -/
def compareBinary (d : Decimal) (size : Nat) (scale : Int) : Ordering :=
  compare (d.digits * tenTo d.exponent * twoTo (-scale)) (size * twoTo scale * tenTo (-d.exponent))

/--
The reals that round to a double, in quarters of its last place: the ends lie
halfway to the neighbours and belong to the interval when the significand is
even.  Below a power of two the neighbour is only half as far away.
-/
structure Interval where
  lower : Nat
  centre : Nat
  upper : Nat
  scale : Int
  closed : Bool

/-- The interval of the double `m * 2 ^ q`. -/
def Interval.ofParts (p : Binary64.Parts) : Interval :=
  let narrow :=
    p.significand = Rounding.binade ∧ Rounding.leastExponent < p.exponent
  { lower := 4 * p.significand - if narrow then 1 else 2
    centre := 4 * p.significand
    upper := 4 * p.significand + 2
    scale := p.exponent - 2
    closed := p.significand % 2 = 0 }

def Interval.contains (i : Interval) (d : Decimal) : Bool :=
  let inside (toward : Ordering) (o : Ordering) : Bool :=
    o == toward || (i.closed && o == .eq)
  inside .gt (d.compareBinary i.lower i.scale) && inside .lt (d.compareBinary i.upper i.scale)

/-- The greatest decimal with the given exponent that is not above the centre. -/
def Interval.below (i : Interval) (exponent : Int) : Decimal :=
  let numerator := i.centre * twoTo i.scale * tenTo (-exponent)
  let denominator := twoTo (-i.scale) * tenTo exponent
  ⟨numerator / denominator, exponent⟩

def next (d : Decimal) : Decimal := { d with digits := d.digits + 1 }

/--
The decimal closest to the centre among those with the given exponent, if the
interval contains any.  Of two equally close ones the greater is taken.
-/
def Interval.closest? (i : Interval) (exponent : Int) : Option Decimal :=
  let low := i.below exponent
  let high := low.next
  match i.contains low, i.contains high with
  | false, false => none
  | true, false => some low
  | false, true => some high
  | true, true =>
      let middle : Decimal := ⟨low.digits + high.digits, exponent⟩
      if middle.compareBinary (2 * i.centre) i.scale == .gt then some low else some high

/-- Move trailing zeros of the digits into the exponent. -/
def normalize : Nat → Decimal → Decimal
  | 0, d => d
  | fuel + 1, d =>
      if d.digits ≠ 0 ∧ d.digits % 10 = 0 then
        normalize fuel ⟨d.digits / 10, d.exponent + 1⟩
      else d

/-- The least `k` such that the positive number `size * 2 ^ scale` is below `10 ^ k`. -/
def magnitude (size : Nat) (scale : Int) : Int :=
  let estimate : Int := ((size.log2 : Int) + scale) * 1233 / 4096
  let atLeast (k : Int) : Bool := (Decimal.mk 1 k).compareBinary size scale != .gt
  if atLeast (estimate + 1) then estimate + 2
  else if atLeast estimate then estimate + 1
  else estimate

/-- Seventeen digits tell any two doubles apart. -/
def mostDigits : Nat := 17

/-- The shortest decimal of a finite positive double. -/
def shortest (x : Binary64) : Decimal :=
  let interval := Interval.ofParts x.parts
  let top := magnitude interval.centre interval.scale
  let found := (List.range mostDigits).findSome? fun (n : Nat) =>
    interval.closest? (top - (n + 1))
  normalize mostDigits (found.getD (interval.below (top - mostDigits)))

def digitText (n : Nat) : List Char := Nat.toDigits 10 n

/-- Positional notation, without a point for a whole number. -/
def positional (d : Decimal) : List Char :=
  let digits := digitText d.digits
  let places := (-d.exponent).toNat
  if places = 0 then digits ++ List.replicate d.exponent.toNat '0'
  else if places < digits.length then
    digits.take (digits.length - places) ++ '.' :: digits.drop (digits.length - places)
  else '0' :: '.' :: (List.replicate (places - digits.length) '0' ++ digits)

/-- One digit before the point, the others after it, and the power of ten after an `e`. -/
def scientific (d : Decimal) : List Char :=
  match digitText d.digits with
  | [] => []
  | leading :: fraction =>
      let point := if fraction.isEmpty then [] else '.' :: fraction
      leading :: point ++ 'e' :: (toString (d.exponent + fraction.length)).toList

end Decimal

namespace Binary64

/-- The decisions that tell one written form of doubles from another. -/
structure Notation where
  /-- What follows the digits of a whole number. -/
  wholeEnding : List Char
  /-- The powers of ten from the first to below the second are written positionally. -/
  positionalPowers : Option (Int × Int)

/-- The form of results and messages: positional, whole numbers without a point. -/
def plain : Notation where
  wholeEnding := []
  positionalPowers := none

/-- The form of inspection: always a fraction or an exponent. -/
def marked : Notation where
  wholeEnding := ['.', '0']
  positionalPowers := some (-4, 16)

def Notation.isPositional (form : Notation) (d : Decimal) : Bool :=
  match form.positionalPowers with
  | none => true
  | some (least, bound) =>
      let power := d.exponent + (Decimal.digitText d.digits).length - 1
      decide (least ≤ power) && decide (power < bound)

/-- Write the decimal of a finite size. -/
def Notation.writeDecimal (form : Notation) (d : Decimal) : List Char :=
  if form.isPositional d then
    d.positional ++ if 0 ≤ d.exponent then form.wholeEnding else []
  else d.scientific

/-- Write a double; the sign of a zero is kept and the sign of a NaN is not. -/
def Notation.write (form : Notation) (x : Binary64) : String :=
  if x.isNaN then "NaN"
  else
    let size :=
      if x.isInfinite then ['i', 'n', 'f']
      else if x.isZero then '0' :: form.wholeEnding
      else form.writeDecimal (Decimal.shortest x)
    String.ofList (if x.negative then '-' :: size else size)

end Binary64

end EntityAccess
