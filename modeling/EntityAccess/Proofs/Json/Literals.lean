import EntityAccess.Json.Parser
import EntityAccess.Proofs.Text
import Mathlib.Tactic.ByContra
import Mathlib.Tactic.Push

/-!
# Reading numbers and texts of documents

Integers are read back from their digits and texts from their escaped characters.
A text tells by itself where it ends; a number ends where a comma, a closing mark or
the end of the document follows.
-/

namespace EntityAccess

namespace Json

namespace Parser

section Characters

variable {c : Char} {word rest : List Char}

/-- What may follow a value: a comma, a closing mark or nothing. -/
def Delimits (rest : List Char) : Prop := ∀ c ∈ rest.head?, c ∈ [',', ']', '\x7d']

theorem takes_next (c : Char) (rest : List Char) : Takes next [c] c rest := rfl

theorem takes_peek (c : Char) (rest : List Char) : Takes peek [] c (c :: rest) := rfl

theorem takes_expect (word rest : List Char) : Takes (expect word) word () rest := by
  have starts : word.isPrefixOf (word ++ rest) = true :=
    List.isPrefixOf_iff_prefix.2 (List.prefix_append word rest)
  change (if word.isPrefixOf (word ++ rest) then some ((), (word ++ rest).drop word.length)
    else none) = _
  rw [if_pos starts, List.drop_left]

theorem takes_accept (c : Char) (rest : List Char) : Takes (accept c) [c] true rest := by
  change (if c = c then some (true, rest) else some (false, c :: rest)) = _
  rw [if_pos rfl]

/-- Another character stays where it is. -/
theorem takes_accept_of_ne (other : ∀ first ∈ rest.head?, first ≠ c) :
    Takes (accept c) [] false rest := by
  cases rest with
  | nil => rfl
  | cons first more =>
      change (if first = c then some (true, more) else some (false, first :: more)) = _
      rw [if_neg (other first rfl)]

theorem takes_skipSpace (ends : ∀ c ∈ rest.head?, isSpace c = false) :
    Takes skipSpace [] () rest := by
  have left := (takeWhile_append_of_all (List.forall_mem_nil _) ends).2
  rw [List.nil_append] at left
  change some ((), rest.dropWhile isSpace) = _
  rw [left]

end Characters

section Numbers

/-- What follows a value does not change how it is read. -/
def Continues {α : Type} (reader : Reader α) : Prop :=
  ∀ text value left rest, Delimits rest → reader.run text = some (value, left) →
    reader.run (text ++ rest) = some (value, left ++ rest)

namespace Continues

variable {α β : Type} {first : Reader α} {next : α → Reader β}

theorem pure (value : α) : Continues (Pure.pure value) := by
  rintro text _ _ rest - ⟨⟩
  rfl

theorem failure : Continues (failure : Reader α) := nofun

theorem bind (continuesFirst : Continues first) (continuesNext : ∀ value, Continues (next value)) :
    Continues (first >>= next) := by
  intro text result left rest delimits read
  rw [StateT.run_bind, Option.bind_eq_bind] at read ⊢
  obtain ⟨⟨value, middle⟩, readFirst, readNext⟩ := Option.bind_eq_some_iff.1 read
  rw [continuesFirst text value middle rest delimits readFirst]
  exact continuesNext value middle result left rest delimits readNext

theorem ofGuard (condition : Prop) [Decidable condition] :
    Continues (guard condition : Reader Unit) := by
  unfold guard
  split
  · exact pure ()
  · exact failure

theorem accept {c : Char} (other : c ∉ [',', ']', '\x7d']) : Continues (accept c) := by
  intro text value left rest delimits read
  cases text with
  | nil =>
      cases read
      exact takes_accept_of_ne fun first isFirst same => other (same ▸ delimits first isFirst)
  | cons first more =>
      change (if first = c then some (true, more) else some (false, first :: more)) = _ at read
      change (if first = c then some (true, more ++ rest) else
        some (false, first :: (more ++ rest))) = _
      split at read <;> cases read
      · rw [if_pos ‹first = c›]
      · rw [if_neg ‹¬first = c›]
        rfl

theorem digits : Continues digits := by
  rintro text _ _ rest delimits ⟨⟩
  have ends : ∀ c ∈ rest.head?, c.isDigit = false := by
    intro c isFirst
    have mark := delimits c isFirst
    simp only [List.mem_cons, List.not_mem_nil, or_false] at mark
    rcases mark with rfl | rfl | rfl <;> rfl
  obtain ⟨taken, left⟩ := takeWhile_append_of_ends ends text
  change some ((text ++ rest).takeWhile Char.isDigit, (text ++ rest).dropWhile Char.isDigit) = _
  rw [taken, left]

theorem discard {reader : Reader α} (continues : Continues reader) :
    Continues (discard reader) :=
  continues.bind fun _ => pure ()

theorem ite {condition : Prop} [Decidable condition] {first second : Reader α}
    (continuesFirst : Continues first) (continuesSecond : Continues second) :
    Continues (if condition then first else second) := by
  split
  · exact continuesFirst
  · exact continuesSecond

theorem someDigits : Continues someDigits :=
  digits.bind fun found => (ofGuard _).bind fun _ => pure found

theorem wholeDigits : Continues wholeDigits :=
  someDigits.bind fun found => (ofGuard _).bind fun _ => pure found

theorem power : Continues power := by
  refine (accept (by decide)).bind fun small => (accept (by decide)).bind fun large => ?_
  refine ite ((accept (by decide)).bind fun negative => ?_) (pure none)
  have size : Continues (do
      let size : Int := decimalValue (← Parser.someDigits)
      return some (if negative then -size else size)) := someDigits.bind fun _ => pure _
  exact ite ((accept (by decide)).discard.bind fun _ => size) size

theorem number : Continues number := by
  refine (accept (by decide)).bind fun negative => wholeDigits.bind fun whole => ?_
  refine (accept (by decide)).bind fun point => ?_
  have ending (fraction : List Char) : Continues (do
      let literal : NumberLiteral := ⟨negative, whole, fraction, ← Parser.power⟩
      return literal.toJson) := power.bind fun _ => pure _
  exact ite (someDigits.bind ending) ((pure []).bind ending)

end Continues

/-- What stands behind the sign of a number. -/
def unsigned (negative : Bool) : Reader Json := do
  let whole ← wholeDigits
  let fraction ← if ← accept '.' then someDigits else pure []
  let literal : NumberLiteral := ⟨negative, whole, fraction, ← power⟩
  return literal.toJson

theorem number_eq : number = accept '-' >>= unsigned := rfl

theorem run_someDigits_of_not_digit
    {text : List Char} (other : ∀ c ∈ text.head?, c.isDigit = false) :
    someDigits.run text = none := by
  have found := takeWhile_append_of_all (List.forall_mem_nil _) other
  rw [List.nil_append] at found
  have read : digits.run text = some ([], text) := by
    change some (text.takeWhile Char.isDigit, text.dropWhile Char.isDigit) = _
    rw [found.1, found.2]
  rw [someDigits, StateT.run_bind, read]
  rfl

/-- A number begins with a sign or a digit. -/
theorem exists_head_of_number
    {text rest : List Char} {json : Json} (read : number.run text = some (json, rest)) :
    ∃ first ∈ text.head?, first = '-' ∨ first.isDigit = true := by
  by_contra other
  push Not at other
  have fails : (unsigned false).run text = none :=
    run_bind_eq_none (run_bind_eq_none (run_someDigits_of_not_digit
      fun c isFirst => Bool.eq_false_iff.2 (other c isFirst).2) _) _
  have unmarked := (takes_accept_of_ne fun c isFirst => (other c isFirst).1).run_bind unsigned
  rw [List.nil_append, ← number_eq, read, fails] at unmarked
  cases unmarked

/-- The digits of a positive number do not begin with a zero. -/
theorem head_toDigits {n : Nat} (positive : 0 < n) : (Nat.toDigits 10 n).head? ≠ some '0' := by
  induction n using Nat.strongRecOn with
  | ind n ih =>
      by_cases small : n < 10
      · have digits : ∀ d : Fin 10, 0 < d.val → [Nat.digitChar d].head? ≠ some '0' := by decide
        rw [Nat.toDigits_of_lt_base small]
        exact digits ⟨n, small⟩ positive
      · have leading := ih (n / 10) (by omega) (by omega)
        rw [Nat.toDigits_of_base_le (by decide) (Nat.le_of_not_lt small)]
        cases written : Nat.toDigits 10 (n / 10) with
        | nil => exact absurd written Nat.toDigits_ne_nil
        | cons first more => rwa [written] at leading

theorem takes_wholeDigits (size : Nat) :
    Takes wholeDigits (Nat.toDigits 10 size) (Nat.toDigits 10 size) [] := by
  have found : Takes digits (Nat.toDigits 10 size) (Nat.toDigits 10 size) [] := by
    have noneFollows : ∀ c ∈ ([] : List Char).head?, c.isDigit = false := nofun
    obtain ⟨taken, left⟩ :=
      takeWhile_append_of_all (isDigit_of_mem_toDigits (n := size)) noneFollows
    change some (List.takeWhile _ _, List.dropWhile _ _) = _
    rw [taken, left]
  have plain : (!(Nat.toDigits 10 size).isEmpty) = true := by
    rw [Bool.not_eq_true', ← Bool.not_eq_true, List.isEmpty_iff]
    exact Nat.toDigits_ne_nil
  have leading : ((Nat.toDigits 10 size).head? != some '0' ||
      (Nat.toDigits 10 size).length == 1) = true := by
    rcases Nat.eq_zero_or_pos size with rfl | positive
    · rfl
    · rw [bne_iff_ne.2 (head_toDigits positive), Bool.true_or]
  have some : Takes someDigits (Nat.toDigits 10 size) (Nat.toDigits 10 size) [] :=
    found.bind_last ((Takes.ofGuard plain []).bind_last (Takes.pure _ []))
  exact some.bind_last ((Takes.ofGuard leading []).bind_last (Takes.pure _ []))

/-- The integer of digits without fraction and exponent is what they are read as. -/
theorem run_unsigned_toDigits
    {negative : Bool} {size : Nat} {n : Int}
    (whole : NumberLiteral.integer? ⟨negative, Nat.toDigits 10 size, [], none⟩ = some n) :
    (unsigned negative).run (Nat.toDigits 10 size) = some (.integer n, []) := by
  have literal : NumberLiteral.toJson ⟨negative, Nat.toDigits 10 size, [], none⟩ = .integer n := by
    rw [NumberLiteral.toJson, whole]
    rfl
  rw [← literal, ← List.append_nil (Nat.toDigits 10 size), unsigned,
    (takes_wholeDigits size).run_bind]
  rw [List.append_nil]
  rfl

/-- An integer of 64 bits is read from its digits. -/
theorem run_number_integer
    {n : Int} (lower : -0x8000000000000000 ≤ n) (upper : n < 0x10000000000000000) :
    number.run (toString n).toList = some (.integer n, []) := by
  rw [Int.toString_eq_repr, Int.repr_eq_if]
  split
  case isTrue positive =>
    have size : (n.toNat : Int) = n := Int.toNat_of_nonneg positive
    have whole : NumberLiteral.integer? ⟨false, Nat.toDigits 10 n.toNat, [], none⟩ = some n := by
      simp only [NumberLiteral.integer?, decimalValue_toDigits, Bool.false_eq_true, if_false]
      rw [if_pos (by omega), size]
    have digit : ∀ c ∈ (Nat.toDigits 10 n.toNat).head?, c ≠ '-' := by
      rintro c isFirst rfl
      exact absurd (isDigit_of_mem_toDigits _ (List.mem_of_mem_head? isFirst)) (by decide)
    rw [Nat.repr_eq_ofList_toDigits, String.toList_ofList]
    exact ((takes_accept_of_ne digit).run_bind unsigned).trans (run_unsigned_toDigits whole)
  case isFalse negative =>
    have size : -((-n).toNat : Int) = n := by omega
    have whole : NumberLiteral.integer? ⟨true, Nat.toDigits 10 (-n).toNat, [], none⟩ = some n := by
      simp only [NumberLiteral.integer?, decimalValue_toDigits, if_true]
      rw [if_pos (by omega), size]
    have digits : (-n).toNat.repr.toList = Nat.toDigits 10 (-n).toNat := by
      rw [Nat.repr_eq_ofList_toDigits, String.toList_ofList]
    rw [String.toList_append, digits]
    exact ((takes_accept '-' _).run_bind unsigned).trans (run_unsigned_toDigits whole)

end Numbers

/-! ## Texts -/

section Texts

/-- How the escaped form of a character is read. -/
def partOf (c : Char) : TextPart :=
  if shortEscapes.lookup c = none ∧ c.toNat < 0x20 then .unit c.toNat else .char c

theorem decode?_unit_cons
    {unit : Nat} (notHigh : TextPart.isHigh unit = false) (notLow : TextPart.isLow unit = false)
    (rest : List TextPart) :
    TextPart.decode? (.unit unit :: rest) =
      (TextPart.decode? rest).map (Char.ofNat unit :: ·) := by
  cases rest with
  | nil => simp [TextPart.decode?, notHigh, notLow]
  | cons part others => cases part <;> simp [TextPart.decode?, notHigh, notLow]

theorem decode?_map_partOf (chars : List Char) :
    TextPart.decode? (chars.map partOf) = some chars := by
  induction chars with
  | nil => rfl
  | cons c rest ih =>
      rw [List.map_cons, partOf]
      split
      case isTrue control =>
        have notHigh : TextPart.isHigh c.toNat = false := by
          simp [TextPart.isHigh]
          omega
        have notLow : TextPart.isLow c.toNat = false := by
          simp [TextPart.isLow]
          omega
        rw [decode?_unit_cons notHigh notLow, ih, Option.map_some, Char.ofNat_toNat]
      case isFalse => rw [TextPart.decode?_char_cons, ih, Option.map_some]

theorem takes_escape_of_short
    {c letter : Char} (short : shortEscapes.lookup c = some letter) (rest : List Char) :
    Takes escape [letter] (.char c) rest := by
  obtain ⟨before, behind, split, _⟩ := List.lookup_eq_some_iff.1 short
  have isShort : (c, letter) ∈ shortEscapes :=
    split ▸ List.mem_append_right before List.mem_cons_self
  simp only [shortEscapes, List.mem_cons, List.not_mem_nil, or_false, Prod.mk.injEq] at isShort
  rcases isShort with ⟨rfl, rfl⟩ | ⟨rfl, rfl⟩ | ⟨rfl, rfl⟩ | ⟨rfl, rfl⟩ | ⟨rfl, rfl⟩ | ⟨rfl, rfl⟩ |
    ⟨rfl, rfl⟩ <;> rfl

theorem takes_escape_of_control
    {c : Char} (control : c.toNat < 0x20) (rest : List Char) :
    Takes escape ['u', '0', '0', Nat.digitChar (c.toNat / 16), Nat.digitChar (c.toNat % 16)]
      (.unit c.toNat) rest := by
  have values : ∀ n : Fin 0x20, hexValue? ['0', '0', Nat.digitChar (n.val / 16),
      Nat.digitChar (n.val % 16)] = some n.val := by decide
  have unit : Takes codeUnit ['0', '0', Nat.digitChar (c.toNat / 16), Nat.digitChar (c.toNat % 16)]
      c.toNat rest := by
    change (hexValue? ['0', '0', Nat.digitChar (c.toNat / 16),
      Nat.digitChar (c.toNat % 16)]).map (fun unit => (unit, rest)) = _
    rw [values ⟨c.toNat, control⟩]
    rfl
  exact (takes_next 'u' _).bind_cons (unit.bind_last (Takes.pure _ rest))

/-- One escaped character is one part. -/
theorem takes_textParts_cons
    {fuel : Nat} {text rest : List Char} {parts : List TextPart} (c : Char)
    (takes : Takes (textParts fuel) text parts rest) :
    Takes (textParts (fuel + 1)) (escapeChar c ++ text) (partOf c :: parts) rest := by
  have escaped {code : List Char} {part : TextPart}
      (takesEscape : Takes escape code part (text ++ rest)) :
      Takes (textParts (fuel + 1)) ('\\' :: (code ++ text)) (part :: parts) rest :=
    (takes_next '\\' _).bind_cons (takesEscape.bind (takes.bind_last (Takes.pure _ rest)))
  unfold escapeChar partOf
  cases short : shortEscapes.lookup c with
  | some letter =>
      dsimp only
      rw [if_neg fun control => Option.some_ne_none _ control.1]
      exact escaped (takes_escape_of_short short _)
  | none =>
      by_cases control : c.toNat < 0x20
      · rw [if_pos control, if_pos ⟨rfl, control⟩]
        exact escaped (takes_escape_of_control control _)
      · rw [if_neg control, if_neg fun both => control both.2]
        have notQuote : c ≠ '"' := by
          rintro rfl
          cases short
        have notBackslash : c ≠ '\\' := by
          rintro rfl
          cases short
        refine (takes_next c _).bind_cons ?_
        split
        case h_1 => exact absurd rfl notQuote
        case h_2 => exact absurd rfl notBackslash
        case h_3 =>
          refine (Takes.ofGuard (Nat.le_of_not_lt control) _).bind_nil ?_
          exact takes.bind_last (Takes.pure _ rest)

theorem takes_textParts
    {fuel : Nat} (chars rest : List Char) (enough : chars.length < fuel) :
    Takes (textParts fuel) (chars.flatMap escapeChar ++ ['"']) (chars.map partOf) rest := by
  induction chars generalizing fuel with
  | nil =>
      obtain ⟨less, rfl⟩ := Nat.exists_eq_succ_of_ne_zero (Nat.ne_of_gt enough)
      exact (takes_next '"' rest).bind_last (Takes.pure [] rest)
  | cons c more ih =>
      obtain ⟨less, rfl⟩ := Nat.exists_eq_succ_of_ne_zero (Nat.ne_zero_of_lt enough)
      rw [List.flatMap_cons, List.append_assoc, List.map_cons]
      exact takes_textParts_cons c (ih (Nat.lt_of_succ_lt_succ enough))

/-- A text is read from its escaped characters between quotes. -/
theorem takes_string {fuel : Nat} (s : String) (rest : List Char) (enough : s.length < fuel) :
    Takes (string fuel) (renderText s).toList (some s) rest := by
  have parts := takes_textParts s.toList rest (by rwa [String.length_toList])
  rw [renderText, String.toList_ofList]
  refine (takes_expect ['"'] _).bind_cons (parts.bind_last ?_)
  rw [decode?_map_partOf, Option.map_some, String.ofList_toList]
  exact Takes.pure _ rest

end Texts

end Parser

end Json

end EntityAccess
