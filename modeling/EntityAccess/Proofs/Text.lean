import EntityAccess.Text
import Mathlib.Data.List.Forall2
import Mathlib.Data.List.Lex
import Mathlib.Data.List.TakeWhile
import Mathlib.Tactic.SplitIfs

/-!
# Reading what was written

A reader takes what it reads off the front of a text.  The reader of a text that
was written piece by piece is followed through the pieces: each is read from the
front, and what follows it is left for the next one.  Texts are ordered by their
bytes in UTF-8 as they are by the code points of their characters.
-/

namespace EntityAccess

/-- The reader reads a value from the text in front and leaves the rest. -/
def Takes
    {α : Type} (reader : StateT (List Char) Option α) (text : List Char) (value : α)
    (rest : List Char) : Prop :=
  reader.run (text ++ rest) = some (value, rest)

namespace Takes

variable {α β : Type} {first : StateT (List Char) Option α}
  {next : α → StateT (List Char) Option β} {front back rest : List Char} {value : α} {result : β}

theorem pure (value : α) (rest : List Char) :
    Takes (Pure.pure value) [] value rest := rfl

/-- What the first reader leaves is left to the next one. -/
theorem run_bind
    (takesFirst : Takes first front value rest) (next : α → StateT (List Char) Option β) :
    (first >>= next).run (front ++ rest) = (next value).run rest := by
  rw [StateT.run_bind, takesFirst]
  rfl

/-- A text in two pieces is read piece by piece. -/
theorem bind
    (takesFirst : Takes first front value (back ++ rest))
    (takesNext : Takes (next value) back result rest) :
    Takes (first >>= next) (front ++ back) result rest := by
  rw [Takes, List.append_assoc, takesFirst.run_bind]
  exact takesNext

theorem bind_cons
    {c : Char} (takesFirst : Takes first [c] value (back ++ rest))
    (takesNext : Takes (next value) back result rest) :
    Takes (first >>= next) (c :: back) result rest :=
  takesFirst.bind takesNext

/-- A reader that looks at the text without taking anything off. -/
theorem bind_nil
    (takesFirst : Takes first [] value (back ++ rest))
    (takesNext : Takes (next value) back result rest) :
    Takes (first >>= next) back result rest :=
  takesFirst.bind takesNext

/-- After the last piece nothing more is taken off. -/
theorem bind_last
    (takesFirst : Takes first front value rest) (takesNext : Takes (next value) [] result rest) :
    Takes (first >>= next) front result rest := by
  rw [Takes, takesFirst.run_bind]
  exact takesNext

/-- What is read counts for nothing, but it is taken off. -/
theorem discard
    {reader : StateT (List Char) Option α} {text : List Char}
    (takes : Takes reader text value rest) : Takes (discard reader) text () rest := by
  have unread : Functor.discard reader = reader >>= fun _ => Pure.pure () := rfl
  rw [Takes, unread, StateT.run_bind, takes]
  rfl

theorem ofGuard
    {condition : Prop} [Decidable condition] (holds : condition) (rest : List Char) :
    Takes (guard condition) [] () rest := by
  rw [Takes, guard, if_pos holds]
  rfl

/-- What was found without reading. -/
theorem lift {found : Option α} (some : found = some value) (rest : List Char) :
    Takes (liftM found) [] value rest := by
  subst some
  rfl

end Takes

/-- After a reader that fails, nothing is read. -/
theorem run_bind_eq_none
    {α β : Type} {first : StateT (List Char) Option α} {text : List Char}
    (fails : first.run text = none) (next : α → StateT (List Char) Option β) :
    (first >>= next).run text = none := by
  rw [StateT.run_bind, fails]
  rfl

section Items

variable {α β : Type} {read? : β → Option α} {items : List β} {found : List α}

/-- A list is read item by item. -/
theorem mapM_eq_some_iff :
    items.mapM read? = some found ↔
      List.Forall₂ (fun item a => read? item = some a) items found := by
  induction items generalizing found with
  | nil =>
      rw [List.forall₂_nil_left_iff]
      exact ⟨fun read => (Option.some.inj read).symm, fun empty => empty ▸ rfl⟩
  | cons item rest ih =>
      rw [List.mapM_cons, List.forall₂_cons_left_iff]
      simp only [Option.bind_eq_bind, Option.bind_eq_some_iff, Option.pure_def,
        Option.some.injEq, ih]
      constructor
      · rintro ⟨a, readItem, others, readRest, rfl⟩
        exact ⟨a, others, readItem, readRest, rfl⟩
      · rintro ⟨a, others, readItem, readRest, rfl⟩
        exact ⟨a, readItem, others, readRest, rfl⟩

/-- A list that is written item by item is read back. -/
theorem mapM_map_eq_some
    {write : α → β} {values : List α}
    (reads : ∀ a ∈ values, read? (write a) = some a) :
    (values.map write).mapM read? = some values := by
  rw [mapM_eq_some_iff, List.forall₂_map_left_iff, List.forall₂_same]
  exact reads

/-- What is read item by item has what each item gives. -/
theorem forall_of_mapM_eq_some
    {P : α → Prop} (each : ∀ item ∈ items, ∀ a, read? item = some a → P a)
    (read : items.mapM read? = some found) : ∀ a ∈ found, P a := by
  rw [mapM_eq_some_iff] at read
  induction read with
  | nil => exact List.forall_mem_nil _
  | cons readItem _ ih =>
      obtain ⟨eachFirst, eachRest⟩ := List.forall_mem_cons.1 each
      exact List.forall_mem_cons.2 ⟨eachFirst _ readItem, ih eachRest⟩

/-- Each item of a list that is read is read itself. -/
theorem exists_of_mapM_eq_some
    (read : items.mapM read? = some found) : ∀ item ∈ items, ∃ a, read? item = some a := by
  rw [mapM_eq_some_iff] at read
  induction read with
  | nil => exact List.forall_mem_nil _
  | cons readItem _ ih => exact List.forall_mem_cons.2 ⟨⟨_, readItem⟩, ih⟩

end Items

theorem decimalValue_toDigits (n : Nat) : decimalValue (Nat.toDigits 10 n) = n :=
  Nat.ofDigitChars_toDigits (by decide) (by decide)

theorem isDigit_of_mem_toDigits {n : Nat} : ∀ c ∈ Nat.toDigits 10 n, c.isDigit = true :=
  fun _ => Nat.isDigit_of_mem_toDigits (by decide) (by decide)

theorem decimalValue_zeros_append (count : Nat) (digits : List Char) :
    decimalValue (List.replicate count '0' ++ digits) = decimalValue digits := by
  induction count with
  | zero => rfl
  | succ count ih => exact ih

/-- No digit is white space. -/
theorem isBlank_eq_false_of_isDigit {c : Char} (digit : c.isDigit = true) : isBlank c = false := by
  simp only [Char.isDigit, Bool.and_eq_true, decide_eq_true_eq] at digit
  have low : 48 ≤ c.toNat := digit.1
  have high : c.toNat ≤ 57 := digit.2
  simp [isBlank, Blank.ranges]
  omega

/-- What a class of characters takes off a text is the same if no such character follows. -/
theorem takeWhile_append_of_ends
    {accepted : Char → Bool} {rest : List Char} (ends : ∀ c ∈ rest.head?, accepted c = false)
    (text : List Char) :
    (text ++ rest).takeWhile accepted = text.takeWhile accepted ∧
      (text ++ rest).dropWhile accepted = text.dropWhile accepted ++ rest := by
  induction text with
  | nil =>
      cases rest with
      | nil => exact ⟨rfl, rfl⟩
      | cons c more =>
          have stops : accepted c = false := ends c rfl
          simp [stops]
  | cons c more ih =>
      cases isAccepted : accepted c with
      | true => simp [isAccepted, ih]
      | false => simp [isAccepted]

/-- A text of accepted characters is taken off up to a character that is not accepted. -/
theorem takeWhile_append_of_all
    {accepted : Char → Bool} {text rest : List Char} (all : ∀ c ∈ text, accepted c = true)
    (ends : ∀ c ∈ rest.head?, accepted c = false) :
    (text ++ rest).takeWhile accepted = text ∧ (text ++ rest).dropWhile accepted = rest := by
  obtain ⟨taken, left⟩ := takeWhile_append_of_ends ends text
  rw [taken, left, List.takeWhile_eq_self_iff.2 all, List.dropWhile_eq_nil_iff.2 all]
  exact ⟨rfl, rfl⟩

/-! ## The order of encoded texts -/

/-- The bytes of a text in UTF-8. -/
def utf8Bytes (text : String) : List UInt8 :=
  text.toUTF8.data.toList

theorem utf8Bytes_eq (text : String) :
    utf8Bytes text = text.toList.flatMap String.utf8EncodeChar := by
  rw [utf8Bytes, String.toUTF8_eq_toByteArray, ← String.utf8Encode_toList, List.utf8Encode,
    List.data_toByteArray]

/-- Of two characters, the encoding of the lesser comes first, whatever follows. -/
theorem utf8EncodeChar_append_lt
    {c d : Char} (less : c < d) (after afterOther : List UInt8) :
    String.utf8EncodeChar c ++ after < String.utf8EncodeChar d ++ afterOther := by
  have lessCode : c.val.toNat < d.val.toNat := less
  have bound : d.val.toNat < 0x110000 := by
    have valid := d.valid
    unfold UInt32.isValidChar Nat.isValidChar at valid
    omega
  simp only [String.utf8EncodeChar]
  generalize c.val.toNat = code at *
  generalize d.val.toNat = other at *
  -- The higher digits to the base 64 are quotients of the lower ones.
  have digits (n : Nat) : n / 4096 = n / 64 / 64 ∧ n / 262144 = n / 64 / 64 / 64 := by omega
  simp only [(digits _).1, (digits _).2]
  -- Each of the characters takes one to four bytes; the first that differ decide.
  split_ifs <;>
    simp (disch := (unfold UInt8.size; omega)) only [List.cons_append, List.nil_append,
      List.cons_lt_cons_iff, UInt8.lt_iff_toNat_lt, UInt8.toNat_ofNat_of_lt', ← UInt8.toNat_inj] <;>
    omega

theorem flatMap_utf8EncodeChar_lt
    {text other : List Char} (less : text < other) :
    text.flatMap String.utf8EncodeChar < other.flatMap String.utf8EncodeChar := by
  induction text generalizing other with
  | nil =>
      cases other with
      | nil => exact absurd less (List.not_lt_nil [])
      | cons d others =>
          obtain ⟨byte, bytes, encoded⟩ :=
            List.exists_cons_of_ne_nil (String.utf8EncodeChar_ne_nil (c := d))
          rw [List.flatMap_cons, encoded]
          exact List.nil_lt_cons _ _
  | cons c rest ih =>
      cases other with
      | nil => exact absurd less (List.not_lt_nil _)
      | cons d others =>
          rw [List.flatMap_cons, List.flatMap_cons]
          rcases List.cons_lt_cons_iff.1 less with first | ⟨rfl, later⟩
          · exact utf8EncodeChar_append_lt first _ _
          · exact List.append_left_lt (ih later)

theorem utf8Bytes_lt {text other : String} (less : text < other) :
    utf8Bytes text < utf8Bytes other := by
  rw [utf8Bytes_eq, utf8Bytes_eq]
  exact flatMap_utf8EncodeChar_lt less

/-- A text precedes another one exactly if its bytes do. -/
theorem utf8Bytes_lt_iff {text other : String} :
    utf8Bytes text < utf8Bytes other ↔ text < other := by
  refine ⟨fun less => ?_, utf8Bytes_lt⟩
  by_contra notBefore
  have notAfter : ¬other < text := fun after => List.lt_asymm less (utf8Bytes_lt after)
  obtain rfl := String.le_antisymm (String.not_lt.1 notAfter) (String.not_lt.1 notBefore)
  exact List.lt_irrefl _ less

end EntityAccess
