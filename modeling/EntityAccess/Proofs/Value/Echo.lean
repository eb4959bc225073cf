import EntityAccess.Proofs.Json.Documents
import EntityAccess.Proofs.Time
import EntityAccess.Proofs.Value.Order
import Mathlib.Data.List.Range

/-!
# Echoed values

A client that is given the value of a field and sends it back.  Identifiers and
instants leave as texts and come back through their literals, so the value is bound
again as it was unless its text is no literal: that is so for instants whose year
is written with a sign.
-/

namespace EntityAccess

namespace Uuid

theorem hexDigit?_digitChar {d : Nat} (digit : d < 16) : hexDigit? (Nat.digitChar d) = some d := by
  have all : ∀ d : Fin 16, hexDigit? (Nat.digitChar d) = some d.val := by decide
  exact all ⟨d, digit⟩

/-- The digits of a number to a base, the most significant one first, write it again. -/
theorem foldl_digits (base x count : Nat) :
    ((List.range count).map fun i => x / base ^ (count - 1 - i) % base).foldl
      (fun n d => base * n + d) 0 = x % base ^ count := by
  induction count generalizing x with
  | zero => simp [Nat.mod_one]
  | succ count ih =>
      have leading : (List.range count).map (fun i => x / base ^ (count - i) % base) =
          (List.range count).map fun i => x / base / base ^ (count - 1 - i) % base := by
        refine List.map_congr_left fun i inRange => ?_
        have isBelow := List.mem_range.1 inRange
        have power : count - i = count - 1 - i + 1 := by omega
        rw [power, Nat.pow_succ', Nat.div_div_eq_div_mul]
      rw [List.range_succ, List.map_append, List.foldl_append]
      simp only [Nat.add_sub_cancel]
      rw [leading, ih, Nat.pow_succ', Nat.mod_mul]
      simp [Nat.add_comm]

/-- The digits as numbers. -/
def nibbles (u : Uuid) : List Nat :=
  (List.range 32).map fun i => u.bits.toNat / 16 ^ (31 - i) % 16

theorem lt_of_mem_nibbles (u : Uuid) : ∀ d ∈ u.nibbles, d < 16 := by
  intro d isDigit
  obtain ⟨i, _, rfl⟩ := List.mem_map.1 isDigit
  exact Nat.mod_lt _ (by decide)

theorem hexDigits_eq (u : Uuid) : u.hexDigits = u.nibbles.map Nat.digitChar := by
  rw [hexDigits, nibbles, List.map_map]
  rfl

theorem length_hexDigits (u : Uuid) : u.hexDigits.length = 32 := by
  rw [hexDigits, List.length_map, List.length_range]

/-- Digits are written without hyphens and in lower case. -/
theorem of_mem_hexDigits (u : Uuid) :
    ∀ c ∈ u.hexDigits, c ≠ '-' ∧ c ≠ '\x7b' ∧ c.toLower ≠ 'u' := by
  have all : ∀ d : Fin 16, Nat.digitChar d ≠ '-' ∧ Nat.digitChar d ≠ '\x7b' ∧
      (Nat.digitChar d).toLower ≠ 'u' := by decide
  rw [hexDigits_eq]
  intro c isDigit
  obtain ⟨d, isNibble, rfl⟩ := List.mem_map.1 isDigit
  exact all ⟨d, u.lt_of_mem_nibbles d isNibble⟩

/-- The digits of an identifier are those of its bits. -/
theorem ofHexDigits?_hexDigits (u : Uuid) : ofHexDigits? u.hexDigits = some u := by
  have digits : ∀ d ∈ u.nibbles, hexDigit? (Nat.digitChar d) = some d := fun d isNibble =>
    hexDigit?_digitChar (u.lt_of_mem_nibbles d isNibble)
  have value : hexValue? u.hexDigits = some u.bits.toNat := by
    rw [hexValue?, hexDigits_eq, mapM_map_eq_some digits, Option.map_some]
    exact congrArg some <| (foldl_digits 16 u.bits.toNat 32).trans (Nat.mod_eq_of_lt u.bits.isLt)
  rw [ofHexDigits?, if_pos u.length_hexDigits, value, Option.map_some, BitVec.ofNat_toNat,
    BitVec.setWidth_eq]

/-- The groups without the hyphens between them. -/
theorem filter_group
    {digits : List Char} (plain : ∀ c ∈ digits, c ≠ '-') :
    (group digits).filter (· ≠ '-') = digits := by
  have kept (piece : List Char) (isPiece : piece ⊆ digits) : piece.filter (· ≠ '-') = piece :=
    List.filter_eq_self.2 fun c isChar => decide_eq_true (plain c (isPiece isChar))
  have takes (start count : Nat) : (digits.drop start).take count ⊆ digits :=
    fun _ isChar => List.mem_of_mem_drop (List.mem_of_mem_take isChar)
  have whole : digits = digits.take 8 ++ ((digits.drop 8).take 4 ++ ((digits.drop 12).take 4 ++
      ((digits.drop 16).take 4 ++ digits.drop 20))) := by
    conv_lhs => rw [← List.take_append_drop 8 digits, ← List.take_append_drop 4 (digits.drop 8),
      List.drop_drop, ← List.take_append_drop 4 (digits.drop 12), List.drop_drop,
      ← List.take_append_drop 4 (digits.drop 16), List.drop_drop]
  have head : digits.take 8 ⊆ digits := List.take_subset 8 digits
  have last : digits.drop 20 ⊆ digits := List.drop_subset 20 digits
  simp only [group, List.filter_append, List.filter_cons, kept _ head, kept _ (takes 8 4),
    kept _ (takes 12 4), kept _ (takes 16 4), kept _ last, ne_eq, not_true_eq_false,
    decide_false, Bool.false_eq_true, if_false, List.append_assoc]
  exact whole.symm

theorem length_group {digits : List Char} (whole : digits.length = 32) :
    (group digits).length = 36 := by
  simp [group, whole]

theorem ofGroups?_group_hexDigits (u : Uuid) : ofGroups? (group u.hexDigits) = some u := by
  have digits : (group u.hexDigits).filter (· ≠ '-') = u.hexDigits :=
    filter_group fun c isDigit => (u.of_mem_hexDigits c isDigit).1
  rw [ofGroups?, ungroup?, digits, if_pos rfl, Option.bind_some, ofHexDigits?_hexDigits]

/-- An identifier is read back from its canonical form. -/
theorem parse?_toText (u : Uuid) : parse? u.toText = some u := by
  have length := length_group u.length_hexDigits
  obtain ⟨first, more, written⟩ := List.exists_cons_of_length_pos
    (Nat.lt_of_lt_of_eq (by decide) u.length_hexDigits.symm)
  obtain ⟨_, noBrace, noScheme⟩ := u.of_mem_hexDigits first (written ▸ List.mem_cons_self)
  have starts : ∃ others, group u.hexDigits = first :: others := by
    rw [written]
    exact ⟨_, rfl⟩
  obtain ⟨others, grouped⟩ := starts
  have read := u.ofGroups?_group_hexDigits
  rw [parse?, toText, String.toList_ofList]
  rw [grouped] at length read ⊢
  split
  case h_1 rest braced => exact absurd (List.head_eq_of_cons_eq braced) noBrace
  case h_2 =>
    rw [if_neg (by omega), if_neg, read]
    intro named
    exact noScheme (List.head_eq_of_cons_eq named)

end Uuid

/-! ## Values -/

namespace Value

/-- What comes back if it is sent to a reader of the same type. -/
def Echoes : Value → Prop
  | .float x => x.isFinite = true
  | .dateTime t => 0 ≤ t.date.year ∧ t.date.year ≤ 9999
  | _ => True

end Value

namespace ScalarType

theorem valueKind_injective : Function.Injective valueKind := by
  rintro ⟨⟩ ⟨⟩ same <;> first | rfl | cases same

/-- An instant with a signed year is written as a text that is no literal of an instant. -/
theorem coerce_echo_of_signed
    {t : Instant} (signed : ¬ (0 ≤ t.date.year ∧ t.date.year ≤ 9999)) :
    (Value.ofJson? (Value.dateTime t).toJson).map (coerce .dateTime) =
      some (.error (.malformed .dateTime t.toShortText)) := by
  change some (coerce .dateTime (.text t.toShortText)) = _
  rw [coerce, Instant.parse?_toShortText, if_neg signed]
  rfl

/--
A value of the kind of a type that is written to a document, read from it and
bound to the type is the value that it was, unless it is a float that is not
finite or an instant whose year does not have four digits.
-/
theorem coerce_echo_iff
    {type : ScalarType} {value : Value} (fits : value.kind = type.valueKind) :
    (Value.ofJson? value.toJson).map type.coerce = some (.ok value) ↔ value.Echoes := by
  cases value with
  | null | list => cases type <;> cases fits
  | bool b =>
      obtain rfl : type = .bool := valueKind_injective fits.symm
      exact iff_of_true rfl trivial
  | int n =>
      obtain rfl : type = .int := valueKind_injective fits.symm
      refine iff_of_true ?_ trivial
      rw [Value.toJson, Value.ofJson?, Value.ofInteger_toInt]
      rfl
  | float x =>
      obtain rfl : type = .float := valueKind_injective fits.symm
      cases finite : x.isFinite with
      | true =>
          refine iff_of_true ?_ finite
          rw [Value.toJson, if_pos finite]
          rfl
      | false =>
          refine iff_of_false ?_ (Bool.eq_false_iff.1 finite)
          rw [Value.toJson, if_neg (Bool.eq_false_iff.1 finite)]
          intro echoed
          cases echoed
  | text s =>
      obtain rfl : type = .text := valueKind_injective fits.symm
      exact iff_of_true rfl trivial
  | uuid u =>
      obtain rfl : type = .uuid := valueKind_injective fits.symm
      refine iff_of_true ?_ trivial
      change some (coerce .uuid (.text u.toText)) = _
      rw [coerce, Uuid.parse?_toText]
      rfl
  | dateTime t =>
      obtain rfl : type = .dateTime := valueKind_injective fits.symm
      by_cases plain : 0 ≤ t.date.year ∧ t.date.year ≤ 9999
      · refine iff_of_true ?_ plain
        change some (coerce .dateTime (.text t.toShortText)) = _
        rw [coerce, Instant.parse?_toShortText, if_pos plain]
        rfl
      · refine iff_of_false ?_ plain
        rw [coerce_echo_of_signed plain]
        intro echoed
        cases echoed

end ScalarType

namespace Sample

/-- The middle of the leap second at the end of 2016. -/
def leapSecond : Instant where
  date := ⟨2016, 12, 31, by decide, by decide, by decide, by decide⟩
  hour := 23
  minute := 59
  second := 59
  nano := 1500000000
  hour_lt := by decide
  minute_lt := by decide
  second_lt := by decide
  nano_lt := by decide
  leap := by decide

/-- The first day of the year 10000. -/
def newYearTenThousand : Date where
  __ := Date.epoch
  year := 10000
  year_ge := by decide
  year_le := by decide
  day_le := by decide

/-- A second before one o'clock on the first day of the year 10000. -/
def yearTenThousand : Instant where
  __ := Instant.midnight newYearTenThousand
  minute := 59
  second := 59
  minute_lt := by decide
  second_lt := by decide
  leap := by decide

end Sample

namespace ScalarType

theorem coerce_echo_iff_leapSecond :
    (Value.dateTime Sample.leapSecond).toJson = .text "2016-12-31T23:59:60.500Z" ∧
      (Value.ofJson? (Value.dateTime Sample.leapSecond).toJson).map (coerce .dateTime) =
        some (.ok (.dateTime Sample.leapSecond)) := by
  have plain : (Value.dateTime Sample.leapSecond).Echoes := ⟨by decide, by decide⟩
  exact ⟨rfl, (coerce_echo_iff rfl).2 plain⟩

/-- An offset carries an accepted literal into the year 10000, and it does not come back. -/
theorem not_echo_of_coerce :
    ¬ ∀ (type : ScalarType) (literal value : Value), type.coerce literal = .ok value →
      (∀ x, value = .float x → x.isFinite = true) →
      (Value.ofJson? value.toJson).map type.coerce = some (.ok value) := by
  intro echoes
  have accepted : coerce .dateTime (.text "9999-12-31T23:59:59-01:00") =
      .ok (.dateTime Sample.yearTenThousand) := rfl
  have echoed := echoes _ _ _ accepted nofun
  rw [coerce_echo_of_signed (by decide)] at echoed
  cases echoed

end ScalarType

end EntityAccess
