import EntityAccess.Proofs.Text
import EntityAccess.Time
import Mathlib.Algebra.Group.Nat.Defs
import Mathlib.Data.Option.Basic
import Mathlib.Tactic.SplitIfs

/-!
# Written instants

The written form of an instant is read back part by part.  With a `Z` behind it,
the internet form reads it if its year has four digits; a year with a sign is read
by the free forms alone, and these leave the `Z` over.
-/

namespace EntityAccess

namespace Date

theorem month_le (date : Date) : date.month ≤ 12 := by
  have some : 1 ≤ daysInMonth date.year date.month := Nat.le_trans date.day_pos date.day_le
  unfold daysInMonth at some
  simp only [List.mem_cons, List.not_mem_nil, or_false] at some
  split_ifs at some <;> omega

theorem day_le_31 (date : Date) : date.day ≤ 31 := by
  refine Nat.le_trans date.day_le ?_
  unfold daysInMonth
  split_ifs <;> decide

end Date

namespace Instant

section Padded

variable {width n : Nat}

theorem length_padded (wide : 0 < width) (fits : n < 10 ^ width) :
    (padded width n).length = width := by
  have short : (Nat.toDigits 10 n).length ≤ width :=
    (Nat.length_toDigits_le_iff (by decide) wide).2 fits
  rw [padded, List.length_append, List.length_replicate, Nat.sub_add_cancel short]

theorem isDigit_of_mem_padded : ∀ c ∈ padded width n, c.isDigit = true := by
  intro c isOne
  rcases List.mem_append.1 isOne with zero | digit
  · rw [List.eq_of_mem_replicate zero]
    rfl
  · exact isDigit_of_mem_toDigits c digit

theorem exists_padded (width n : Nat) :
    ∃ first more, padded width n = first :: more ∧ first.isDigit = true := by
  cases written : padded width n with
  | nil => exact absurd (List.append_eq_nil_iff.1 written).2 Nat.toDigits_ne_nil
  | cons first more =>
      exact ⟨first, more, rfl, isDigit_of_mem_padded first (written ▸ List.mem_cons_self)⟩

@[simp]
theorem decimalValue_padded : decimalValue (padded width n) = n := by
  rw [padded, decimalValue_zeros_append, decimalValue_toDigits]

end Padded

namespace Literal

section Numbers

variable {width n : Nat} {rest : List Char}

theorem takes_take
    {accepted : Char → Bool} {c : Char} (isAccepted : accepted c = true) :
    Takes (take accepted) [c] c rest := by
  change (if accepted c then some (c, rest) else none) = _
  rw [if_pos isAccepted]

theorem takes_expect (c : Char) : Takes (expect c) [c] () rest :=
  (takes_take (beq_self_eq_true c)).discard

theorem takes_optional (c : Char) : Takes (optional c) [c] true rest := by
  change (if c = c then some (true, rest) else some (false, c :: rest)) = _
  rw [if_pos rfl]

/-- Another character stays where it is. -/
theorem takes_optional_of_ne
    {c : Char} (other : ∀ first ∈ rest.head?, first ≠ c) :
    Takes (optional c) [] false rest := by
  cases rest with
  | nil => rfl
  | cons first more =>
      change (if first = c then some (true, more) else some (false, first :: more)) = _
      rw [if_neg (other first rfl)]

theorem takes_takeAll
    {accepted : Char → Bool} {text : List Char} (all : ∀ c ∈ text, accepted c = true)
    (ends : ∀ c ∈ rest.head?, accepted c = false) : Takes (takeAll accepted) text text rest := by
  obtain ⟨taken, left⟩ := takeWhile_append_of_all all ends
  change some ((text ++ rest).takeWhile accepted, (text ++ rest).dropWhile accepted) = _
  rw [taken, left]

theorem takes_fixed (wide : 0 < width) (fits : n < 10 ^ width) :
    Takes (fixed width) (padded width n) n rest := by
  have taken : (padded width n ++ rest).take width = padded width n :=
    List.take_left' (length_padded wide fits)
  have left : (padded width n ++ rest).drop width = rest :=
    List.drop_left' (length_padded wide fits)
  have digits : (padded width n).all Char.isDigit = true :=
    List.all_eq_true.2 isDigit_of_mem_padded
  change (if _ then _ else _) = _
  rw [taken, left, if_pos ⟨length_padded wide fits, digits⟩, decimalValue_padded]

theorem run_fixed_of_not_digit
    {c : Char} (other : c.isDigit = false) {more : List Char} :
    (fixed (width + 1)).run (c :: more) = none := by
  refine if_neg fun ⟨_, digits⟩ => ?_
  rw [List.take_succ_cons, List.all_cons, other] at digits
  cases digits

theorem takes_upTo (wide : 0 < width) (fits : n < 10 ^ width) :
    Takes (upTo width) (padded width n) n rest := by
  have taken : (padded width n ++ rest).take width = padded width n :=
    List.take_left' (length_padded wide fits)
  have digits : (padded width n).takeWhile Char.isDigit = padded width n :=
    List.takeWhile_eq_self_iff.2 isDigit_of_mem_padded
  obtain ⟨first, more, written, _⟩ := exists_padded width n
  have some : (padded width n).isEmpty = false := by rw [written, List.isEmpty_cons]
  change (if (((padded width n ++ rest).take width).takeWhile Char.isDigit).isEmpty then none
    else _) = _
  rw [taken, digits, some, List.drop_left, decimalValue_padded]
  rfl

theorem takes_skipBlank (ends : ∀ c ∈ rest.head?, isBlank c = false) :
    Takes skipBlank [] () rest :=
  (takes_takeAll (List.forall_mem_nil _) ends).discard

theorem isDigit_head_padded (width n : Nat) (rest : List Char) :
    ∀ c ∈ (padded width n ++ rest).head?, c.isDigit = true := by
  obtain ⟨first, more, written, digit⟩ := exists_padded width n
  rw [written]
  rintro c ⟨⟩
  exact digit

/-- A number of two digits is read without white space before it. -/
theorem takes_short (fits : n < 100) : Takes short (padded 2 n) n rest := by
  refine (takes_skipBlank fun c isFirst => ?_).bind_nil (takes_upTo (by decide) fits)
  exact isBlank_eq_false_of_isDigit (isDigit_head_padded 2 n rest c isFirst)

end Numbers

section Fractions

variable {nano : Nat} {rest : List Char}

theorem fractionOf_padded
    {width n : Nat} (wide : 0 < width) (narrow : width ≤ 9) (fits : n < 10 ^ width) :
    fractionOf (padded width n) = n * 10 ^ (9 - width) := by
  have kept : (padded width n).take 9 = padded width n :=
    List.take_of_length_le (by rw [length_padded wide fits]; exact narrow)
  rw [fractionOf, kept, length_padded wide fits, decimalValue_padded]
  rfl

/-- Digits that are exact for the fraction. -/
theorem takes_fraction_of_dvd
    {width : Nat} (wide : 0 < width) (narrow : width ≤ 9) (below : nano < nanosPerSecond)
    (whole : 10 ^ (9 - width) ∣ nano) (ends : ∀ c ∈ rest.head?, c.isDigit = false) :
    Takes fraction ('.' :: padded width (nano / 10 ^ (9 - width))) nano rest := by
  have fits : nano / 10 ^ (9 - width) < 10 ^ width := by
    rw [Nat.div_lt_iff_lt_mul (Nat.pow_pos (by decide)), ← Nat.pow_add, Nat.add_sub_cancel' narrow]
    exact below
  have value : fractionOf (padded width (nano / 10 ^ (9 - width))) = nano := by
    rw [fractionOf_padded wide narrow fits, Nat.div_mul_cancel whole]
  generalize nano / 10 ^ (9 - width) = n at value
  obtain ⟨first, more, written, _⟩ := exists_padded width n
  have some : (!(padded width n).isEmpty) = true := by
    rw [written, List.isEmpty_cons, Bool.not_false]
  refine (takes_optional '.').bind_cons ?_
  rw [if_pos rfl, ← value]
  refine (takes_takeAll isDigit_of_mem_padded ends).bind_last ?_
  exact (Takes.ofGuard some rest).bind_nil (Takes.pure _ rest)

/-- The digits of a fraction that are not written are zeros. -/
theorem takes_fraction
    (below : nano < nanosPerSecond) (ends : ∀ c ∈ rest.head?, c.isDigit = false ∧ c ≠ '.') :
    Takes fraction (writeFraction nano) nano rest := by
  have noDigit : ∀ c ∈ rest.head?, c.isDigit = false := fun c isFirst => (ends c isFirst).1
  unfold writeFraction
  split_ifs with none millis micros
  · refine (takes_optional_of_ne fun c isFirst => (ends c isFirst).2).bind_nil ?_
    rw [if_neg Bool.false_ne_true, none]
    exact Takes.pure 0 rest
  · exact takes_fraction_of_dvd (by decide) (by decide) below
      (Nat.dvd_of_mod_eq_zero millis) noDigit
  · exact takes_fraction_of_dvd (by decide) (by decide) below
      (Nat.dvd_of_mod_eq_zero micros) noDigit
  · have read := takes_fraction_of_dvd (by decide) (Nat.le_refl 9) below (Nat.one_dvd nano) noDigit
    rwa [Nat.sub_self, Nat.pow_zero, Nat.div_one] at read

/-- The offset of universal time. -/
theorem takes_offset : Takes offset ['Z'] 0 rest :=
  (takes_take rfl).bind_cons (Takes.pure 0 rest)

end Fractions

section Dates

variable {rest : List Char}

theorem takes_signed
    {n : Nat} (bounded : n < yearBound) (ends : ∀ c ∈ rest.head?, c.isDigit = false) :
    Takes (do
      let digits ← takeAll Char.isDigit
      guard (!digits.isEmpty && decide (decimalValue digits < yearBound))
      return decimalValue digits) (padded 4 n) n rest := by
  obtain ⟨first, more, written, _⟩ := exists_padded 4 n
  have accepted : (!(padded 4 n).isEmpty &&
      decide (decimalValue (padded 4 n) < yearBound)) = true := by
    rw [decimalValue_padded, decide_eq_true bounded, written]
    rfl
  refine (takes_takeAll isDigit_of_mem_padded ends).bind_last ?_
  refine (Takes.ofGuard accepted rest).bind_nil ?_
  rw [decimalValue_padded]
  exact Takes.pure n rest

/-- A year of four digits is read as it is, another one with its sign. -/
theorem takes_year (date : Date) (ends : ∀ c ∈ rest.head?, c.isDigit = false) :
    Takes year (writeYear date.year) date.year rest := by
  have lower := date.year_ge
  have upper := date.year_le
  have bounded : date.year.natAbs < yearBound := by
    unfold yearBound
    omega
  unfold year writeYear
  dsimp only
  split_ifs with plain negative
  · have digit := isDigit_head_padded 4 date.year.natAbs rest
    refine (takes_skipBlank fun c isFirst =>
      isBlank_eq_false_of_isDigit (digit c isFirst)).bind_nil ?_
    refine (takes_optional_of_ne fun c isFirst => ?_).bind_nil ?_
    · rintro rfl
      cases digit _ isFirst
    rw [if_neg Bool.false_ne_true]
    refine (takes_optional_of_ne fun c isFirst => ?_).bind_nil ?_
    · rintro rfl
      cases digit _ isFirst
    rw [if_neg Bool.false_ne_true]
    refine (takes_upTo (by decide) (by omega)).bind_last ?_
    have value : (date.year.natAbs : Int) = date.year := by omega
    rw [value]
    exact Takes.pure _ rest
  · refine (takes_skipBlank (by rintro c ⟨⟩; rfl)).bind_nil ?_
    refine (takes_optional '-').bind_cons ?_
    rw [if_pos rfl]
    refine (takes_signed bounded ends).bind_last ?_
    have value : -(date.year.natAbs : Int) = date.year := by omega
    rw [value]
    exact Takes.pure _ rest
  · refine (takes_skipBlank (by rintro c ⟨⟩; rfl)).bind_nil ?_
    refine (takes_optional_of_ne (by rintro c ⟨⟩; decide)).bind_nil ?_
    rw [if_neg Bool.false_ne_true]
    refine (takes_optional '+').bind_cons ?_
    rw [if_pos rfl]
    refine (takes_signed bounded ends).bind_last ?_
    have value : (date.year.natAbs : Int) = date.year := by omega
    rw [value]
    exact Takes.pure _ rest

theorem takes_dashedDate (date : Date) :
    Takes dashedDate (writeYear date.year ++ '-' :: padded 2 date.month ++
      '-' :: padded 2 date.day) date rest := by
  have month := date.month_le
  have day := date.day_le_31
  rw [List.append_assoc, List.cons_append]
  refine (takes_year date (by rintro c ⟨⟩; rfl)).bind ?_
  refine (takes_expect '-').bind_cons ?_
  refine (takes_short (by omega)).bind ?_
  refine (takes_expect '-').bind_cons ?_
  exact (takes_short (by omega)).bind_last (Takes.lift date.of?_self rest)

end Dates

/-! ## Instants -/

section Instants

variable (instant : Instant)

theorem takes_finish : Takes finish [] () [] := rfl

/-- The second that is written, which is 60 for a leap second. -/
def clockSecond : Nat :=
  if decide (nanosPerSecond ≤ instant.nano) then instant.second + 1 else instant.second

theorem clockSecond_lt : clockSecond instant < 100 := by
  have second := instant.second_lt
  unfold clockSecond
  split <;> omega

/-- The clock reading that is written is that of the instant. -/
theorem ofClock?_self :
    ofClock? instant.date instant.hour instant.minute (clockSecond instant)
      (instant.nano % nanosPerSecond) = some instant := by
  have second := instant.second_lt
  have below := instant.nano_lt
  by_cases leaps : nanosPerSecond ≤ instant.nano
  · have last := instant.leap leaps
    have nano : nanosPerSecond + instant.nano % nanosPerSecond = instant.nano := by
      unfold nanosPerSecond at *
      omega
    rw [ofClock?, clockSecond, decide_eq_true leaps, if_pos rfl, if_pos (by omega), nano, ← last,
      instant.of?_self]
  · rw [ofClock?, clockSecond, decide_eq_false leaps, if_neg Bool.false_ne_true,
      if_neg (by omega), Nat.mod_eq_of_lt (Nat.lt_of_not_le leaps), instant.of?_self]

theorem minusMinutes?_zero : instant.minusMinutes? 0 = some instant := by
  have hour := instant.hour_lt
  have minute := instant.minute_lt
  have hours : (instant.hour * 60 + instant.minute) / 60 = instant.hour := by omega
  have minutes : (instant.hour * 60 + instant.minute) % 60 = instant.minute := by omega
  have total : (((instant.hour : Int) * 60 + instant.minute - 0) % (24 * 60)).toNat =
      instant.hour * 60 + instant.minute := by omega
  unfold minusMinutes?
  simp only [total, hours, minutes]
  rw [if_neg (by omega), if_pos (by omega)]
  exact instant.of?_self

/-- The written form, piece by piece. -/
theorem writeLocal_eq (rest : List Char) :
    instant.writeLocal ++ rest =
      (writeYear instant.date.year ++ '-' :: padded 2 instant.date.month ++
        '-' :: padded 2 instant.date.day) ++ ('T' :: (padded 2 instant.hour ++
          (':' :: (padded 2 instant.minute ++ (':' :: (padded 2 (clockSecond instant) ++
            (writeFraction (instant.nano % nanosPerSecond) ++ rest))))))) := by
  simp only [writeLocal, clockSecond, List.append_assoc, List.cons_append]

theorem takes_internet
    (plain : 0 ≤ instant.date.year ∧ instant.date.year ≤ 9999) :
    Takes internet (instant.writeLocal ++ ['Z']) instant [] := by
  have month := instant.date.month_le
  have day := instant.date.day_le_31
  have hour := instant.hour_lt
  have minute := instant.minute_lt
  have second := clockSecond_lt instant
  have nano : instant.nano % nanosPerSecond < nanosPerSecond := Nat.mod_lt _ (by decide)
  rw [writeLocal_eq, writeYear, if_pos plain]
  simp only [List.append_assoc, List.cons_append]
  refine (takes_fixed (by decide) (by omega)).bind ?_
  refine (takes_expect '-').bind_cons ?_
  refine (takes_fixed (by decide) (by omega)).bind ?_
  refine (takes_expect '-').bind_cons ?_
  refine (takes_fixed (by decide) (by omega)).bind ?_
  refine (takes_take rfl).discard.bind_cons ?_
  refine (takes_fixed (by decide) (by omega)).bind ?_
  refine (takes_expect ':').bind_cons ?_
  refine (takes_fixed (by decide) (by omega)).bind ?_
  refine (takes_expect ':').bind_cons ?_
  refine (takes_fixed (by decide) (by omega)).bind ?_
  refine (takes_fraction nano (by rintro c ⟨⟩; decide)).bind ?_
  refine takes_offset.bind_cons ?_
  refine takes_finish.bind_nil ?_
  have year : (instant.date.year.natAbs : Int) = instant.date.year := by omega
  rw [year]
  refine (Takes.lift instant.date.of?_self []).bind_nil ?_
  refine (Takes.lift (ofClock?_self instant) []).bind_nil ?_
  exact Takes.lift (minusMinutes?_zero instant) []

/-- A sign is no digit. -/
theorem run_internet_of_signed
    (signed : ¬ (0 ≤ instant.date.year ∧ instant.date.year ≤ 9999)) (rest : List Char) :
    internet.run (instant.writeLocal ++ rest) = none := by
  rw [writeLocal_eq, writeYear, if_neg signed]
  refine run_bind_eq_none (run_fixed_of_not_digit ?_) _
  split <;> decide

/-- The free form with a time of day reads all that is written and must be at the end then. -/
theorem run_dateAndTime (rest : List Char) (ends : ∀ c ∈ rest.head?, c.isDigit = false ∧ c ≠ '.') :
    dateAndTime.run (instant.writeLocal ++ rest) =
      (finish >>= fun _ => liftM (some instant)).run rest := by
  have hour := instant.hour_lt
  have minute := instant.minute_lt
  have second := clockSecond_lt instant
  have nano : instant.nano % nanosPerSecond < nanosPerSecond := Nat.mod_lt _ (by decide)
  rw [writeLocal_eq]
  refine ((takes_dashedDate instant.date).run_bind _).trans ?_
  refine ((takes_expect 'T').run_bind _).trans ?_
  refine ((takes_short (by omega)).run_bind _).trans ?_
  refine ((takes_expect ':').run_bind _).trans ?_
  refine ((takes_short (by omega)).run_bind _).trans ?_
  refine ((takes_expect ':').run_bind _).trans ?_
  refine ((takes_short (by omega)).run_bind _).trans ?_
  refine ((takes_fraction nano ends).run_bind _).trans ?_
  rw [ofClock?_self]

/-- The free form without a time of day stops at the `T`. -/
theorem run_dateAlone (rest : List Char) : dateAlone.run (instant.writeLocal ++ rest) = none := by
  rw [writeLocal_eq]
  exact (takes_dashedDate instant.date).run_bind _

end Instants

end Literal

/--
An instant that was written in the short form is read back if its year has four
digits.  One with a signed year is not read at all.
-/
theorem parse?_toShortText (instant : Instant) :
    parse? instant.toShortText =
      if 0 ≤ instant.date.year ∧ instant.date.year ≤ 9999 then some instant else none := by
  rw [parse?, toShortText, String.toList_ofList]
  split_ifs with plain
  · have read := Literal.takes_internet instant plain
    rw [Takes, List.append_nil] at read
    rw [Literal.read?, read]
    rfl
  · have zone : ∀ c ∈ ['Z'].head?, c.isDigit = false ∧ c ≠ '.' := by
      rintro c ⟨⟩
      decide
    rw [Literal.read?, Literal.read?, Literal.read?,
      Literal.run_internet_of_signed instant plain, Literal.run_dateAndTime instant _ zone,
      Literal.run_dateAlone]
    rfl

end Instant

end EntityAccess
