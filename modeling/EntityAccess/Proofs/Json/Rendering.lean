import EntityAccess.Proofs.Json.Literals

/-!
# Reading rendered documents

The compact text of a document is read back as the document, except that arrays and
objects below the limit of nesting come back unreadable.
-/

namespace EntityAccess

namespace Json

namespace Parser

section Lists

variable {α β : Type} {close : Char} {element : Reader α} {write : β → List Char} {result : β → α}

/-- An element is read up to the mark behind it, and its text does not begin like a mark. -/
structure Element
    (close : Char) (element : Reader α) (text : List Char) (value : α) : Prop where
  takes : ∀ mark rest, mark = ',' ∨ mark = close → Takes element text value (mark :: rest)
  head : ∃ first more, text = first :: more ∧ isSpace first = false ∧ first ≠ close

/-- Elements that are joined by commas begin like the first one. -/
theorem Element.head_intercalate
    {item : β} (isElement : Element close element (write item) (result item)) (others : List β)
    (rest : List Char) :
    ∀ first ∈ ([','].intercalate ((item :: others).map write) ++ rest).head?,
      isSpace first = false ∧ first ≠ close := by
  obtain ⟨first, more, text, plain, noClose⟩ := isElement.head
  have begins : ∃ tail, [','].intercalate ((item :: others).map write) = write item ++ tail := by
    cases others with
    | nil => exact ⟨[], by simp⟩
    | cons next behind =>
        refine ⟨[','] ++ [','].intercalate ((next :: behind).map write), ?_⟩
        rw [List.map_cons, List.map_cons, List.intercalate_cons_cons, List.append_assoc]
  obtain ⟨tail, begins⟩ := begins
  rw [begins, text]
  rintro c ⟨⟩
  exact ⟨plain, noClose⟩

theorem takes_separated
    {fuel : Nat} (rest : List Char) (closes : isSpace close = false) (noComma : close ≠ ',')
    {items : List β} (some : items ≠ []) (enough : items.length ≤ fuel)
    (elements : ∀ item ∈ items, Element close element (write item) (result item)) :
    Takes (separated close element fuel)
      ([','].intercalate (items.map write) ++ [close]) (items.map result) rest := by
  induction items generalizing fuel with
  | nil => exact absurd rfl some
  | cons item others ih =>
      obtain ⟨isElement, areElements⟩ := List.forall_mem_cons.1 elements
      obtain ⟨less, rfl⟩ := Nat.exists_eq_succ_of_ne_zero
        (Nat.ne_of_gt (Nat.lt_of_lt_of_le (Nat.succ_pos _) enough))
      cases others with
      | nil =>
          have ends : Takes skipSpace [] () (close :: rest) :=
            takes_skipSpace (by rintro c ⟨⟩; exact closes)
          have text : [','].intercalate ([item].map write) = write item := by simp
          rw [text]
          refine (isElement.takes close rest (Or.inr rfl)).bind ?_
          refine ends.bind_nil ((takes_accept close rest).bind_last ?_)
          exact Takes.pure _ rest
      | cons next more =>
          have isNext := (List.forall_mem_cons.1 areElements).1
          have behind := isNext.head_intercalate more ([close] ++ rest)
          rw [← List.append_assoc] at behind
          have comma : Takes skipSpace [] ()
              (',' :: ([','].intercalate ((next :: more).map write) ++ [close] ++ rest)) :=
            takes_skipSpace (by rintro c ⟨⟩; rfl)
          have goesOn : Takes (accept close) [] false
              (',' :: ([','].intercalate ((next :: more).map write) ++ [close] ++ rest)) :=
            takes_accept_of_ne (by rintro c ⟨⟩; exact noComma.symm)
          have starts := takes_skipSpace fun c isFirst => (behind c isFirst).1
          have text : [','].intercalate ((item :: next :: more).map write) ++ [close] =
              write item ++ (',' :: ([','].intercalate ((next :: more).map write) ++ [close])) := by
            simp
          rw [text]
          refine (isElement.takes ',' _ (Or.inl rfl)).bind ?_
          refine comma.bind_nil (goesOn.bind_nil ?_)
          refine (takes_expect [','] _).bind_cons (starts.bind_nil ?_)
          refine (ih (List.cons_ne_nil next more) (Nat.le_of_succ_le_succ enough)
            areElements).bind_last ?_
          exact Takes.pure _ rest

theorem takes_enclosed
    {openMark : Char} {fuel : Nat} (rest : List Char) (closes : isSpace close = false)
    (noComma : close ≠ ',') {items : List β} (enough : items.length ≤ fuel)
    (elements : ∀ item ∈ items, Element close element (write item) (result item)) :
    Takes (enclosed openMark close element fuel)
      (openMark :: ([','].intercalate (items.map write) ++ [close])) (items.map result) rest := by
  refine (takes_expect [openMark] _).bind_cons ?_
  cases items with
  | nil =>
      refine (takes_skipSpace (by rintro c ⟨⟩; exact closes)).bind_nil ?_
      exact (takes_accept close rest).bind_last (Takes.pure [] rest)
  | cons item others =>
      have isElement := (List.forall_mem_cons.1 elements).1
      have begins := isElement.head_intercalate others ([close] ++ rest)
      rw [← List.append_assoc] at begins
      refine (takes_skipSpace fun c isFirst => (begins c isFirst).1).bind_nil ?_
      refine (takes_accept_of_ne fun c isFirst => (begins c isFirst).2).bind_nil ?_
      exact takes_separated rest closes noComma (List.cons_ne_nil item others) enough elements

end Lists

end Parser

/-! ## Documents -/

/-- A double is the number that its written form is read as. -/
def ReadsBack (x : Binary64) : Prop :=
  Parser.number.run (Binary64.marked.write x).toList = some (.float x, [])

/-- A document that a text can say in full, but for its depth. -/
inductive Legible : Json → Prop where
  | null : Legible .null
  | bool (b : Bool) : Legible (.bool b)
  | integer {n : Int} (lower : -0x8000000000000000 ≤ n) (upper : n < 0x10000000000000000) :
      Legible (.integer n)
  | float {x : Binary64} (reads : ReadsBack x) : Legible (.float x)
  | text (s : String) : Legible (.text s)
  | array {items : List Json} (items_legible : ∀ item ∈ items, Legible item) :
      Legible (.array items)
  | object {members : List (String × Json)}
      (members_legible : ∀ member ∈ members, Legible member.2) : Legible (.object members)

mutual

/-- The document with all arrays and objects below the given depth unreadable. -/
def cut : Json → Nat → Json
  | .array items, depth => if depth = 0 then .unreadable else .array (cutAll items (depth - 1))
  | .object members, depth =>
      if depth = 0 then .unreadable else .object (cutMembers members (depth - 1))
  | json, _ => json

def cutAll : List Json → Nat → List Json
  | [], _ => []
  | item :: rest, depth => item.cut depth :: cutAll rest depth

def cutMembers : List (String × Json) → Nat → List (String × Json)
  | [], _ => []
  | (name, json) :: rest, depth => (name, json.cut depth) :: cutMembers rest depth

end

theorem cutAll_eq_map (items : List Json) (depth : Nat) :
    cutAll items depth = items.map (·.cut depth) := by
  induction items with
  | nil => rfl
  | cons item rest ih => rw [cutAll, ih, List.map_cons]

theorem cutMembers_eq_map (members : List (String × Json)) (depth : Nat) :
    cutMembers members depth = members.map fun member => (member.1, member.2.cut depth) := by
  induction members with
  | nil => rfl
  | cons member rest ih => rw [cutMembers, ih, List.map_cons]

/-- The characters of the members of an object. -/
def memberText (member : String × Json) : List Char :=
  (renderText member.1).toList ++ ':' :: member.2.render.toList

theorem memberText_ne_nil (member : String × Json) : memberText member ≠ [] :=
  List.append_ne_nil_of_right_ne_nil _ (List.cons_ne_nil _ _)

theorem length_le_memberText (member : String × Json) :
    member.2.render.toList.length ≤ (memberText member).length := by
  rw [memberText, List.length_append, List.length_cons]
  omega

theorem toList_render_array (items : List Json) :
    (render (.array items)).toList =
      '[' :: ([','].intercalate (items.map fun item => item.render.toList) ++ [']']) := by
  have texts : (renderItems items).map String.toList =
      items.map fun item => item.render.toList := by
    induction items with
    | nil => rfl
    | cons item rest ih => rw [renderItems, List.map_cons, ih, List.map_cons]
  rw [render, String.toList_append, String.toList_append, String.toList_intercalate, texts]
  rfl

theorem toList_render_object (members : List (String × Json)) :
    (render (.object members)).toList =
      '\x7b' :: ([','].intercalate (members.map memberText) ++ ['\x7d']) := by
  have texts : (renderMembers members).map String.toList = members.map memberText := by
    induction members with
    | nil => rfl
    | cons member rest ih =>
        rw [renderMembers, List.map_cons, ih, List.map_cons, String.toList_append,
          String.toList_append, List.append_assoc]
        rfl
  rw [render, String.toList_append, String.toList_append, String.toList_intercalate, texts]
  rfl

section Lengths

variable {texts : List (List Char)}

theorem length_le_intercalate {text : List Char} (isText : text ∈ texts) :
    text.length ≤ ([','].intercalate texts).length := by
  induction texts with
  | nil => cases isText
  | cons first rest ih =>
      cases rest with
      | nil =>
          rw [List.mem_singleton.1 isText, List.intercalate_singleton]
      | cons next more =>
          rw [List.intercalate_cons_cons, List.length_append, List.length_append]
          rcases List.mem_cons.1 isText with rfl | inRest
          · omega
          · have shorter := ih inRest
            omega

theorem length_le_length_intercalate (some : ∀ text ∈ texts, text ≠ []) :
    texts.length ≤ ([','].intercalate texts).length := by
  induction texts with
  | nil => exact Nat.zero_le _
  | cons first rest ih =>
      obtain ⟨someFirst, someRest⟩ := List.forall_mem_cons.1 some
      have positive : 0 < first.length := List.length_pos_iff.2 someFirst
      cases rest with
      | nil =>
          rw [List.intercalate_singleton]
          exact positive
      | cons next more =>
          have shorter := ih someRest
          rw [List.intercalate_cons_cons, List.length_append, List.length_append, List.length_cons]
          omega

/-- The fuel for a list between marks is enough for its items, one by one and all together. -/
theorem lengths_of_enclosed
    {β : Type} {write : β → List Char} {items : List β} {openMark close : Char} {fuel : Nat}
    (some : ∀ item ∈ items, write item ≠ [])
    (enough : (openMark :: ([','].intercalate (items.map write) ++ [close])).length < fuel + 1) :
    items.length ≤ fuel ∧ ∀ item ∈ items, (write item).length < fuel := by
  rw [List.length_cons, List.length_append, List.length_singleton] at enough
  constructor
  · have count := length_le_length_intercalate (List.forall_mem_map.2 some)
    rw [List.length_map] at count
    omega
  · intro item isItem
    have shorter := length_le_intercalate (List.mem_map_of_mem (f := write) isItem)
    omega

end Lengths

namespace Parser

/-- A text that begins neither like white space nor like a closing mark. -/
def Begins (text : List Char) : Prop :=
  ∃ first more, text = first :: more ∧ isSpace first = false ∧ first ≠ ']' ∧ first ≠ '\x7d'

theorem Begins.ne_nil {text : List Char} (begins : Begins text) : text ≠ [] := by
  obtain ⟨_, _, rfl, _⟩ := begins
  exact List.cons_ne_nil _ _

theorem begins_of_number {text rest : List Char} {json : Json}
    (read : number.run text = some (json, rest)) : Begins text := by
  obtain ⟨first, isFirst, digit⟩ := exists_head_of_number read
  cases text with
  | nil => cases isFirst
  | cons c more =>
      cases isFirst
      refine ⟨first, more, rfl, ?_⟩
      rcases digit with rfl | digit
      · decide
      · refine ⟨?_, ?_, ?_⟩
        · simp only [isSpace, Bool.or_eq_false_iff, decide_eq_false_iff_not]
          refine ⟨⟨⟨?_, ?_⟩, ?_⟩, ?_⟩ <;> (rintro rfl; cases digit)
        all_goals
          rintro rfl
          cases digit

theorem begins_renderText (s : String) : Begins (renderText s).toList := by
  rw [renderText, String.toList_ofList]
  exact ⟨_, _, rfl, by decide⟩

theorem length_lt_renderText (s : String) : s.length < (renderText s).toList.length := by
  have some (c : Char) : 1 ≤ (escapeChar c).length := by
    unfold escapeChar
    split
    · exact Nat.le_add_left 1 1
    · split <;> exact Nat.le_add_left 1 _
  have body (chars : List Char) : chars.length ≤ (chars.flatMap escapeChar).length := by
    induction chars with
    | nil => exact Nat.zero_le _
    | cons c rest ih =>
        have first := some c
        rw [List.flatMap_cons, List.length_append, List.length_cons]
        omega
  have whole := body s.toList
  rw [String.length_toList] at whole
  rw [renderText, String.toList_ofList, List.length_append, List.length_cons]
  omega

theorem begins_render {json : Json} (legible : json.Legible) : Begins json.render.toList := by
  cases legible with
  | null => exact ⟨_, _, rfl, by decide⟩
  | bool b => cases b <;> exact ⟨_, _, rfl, by decide⟩
  | integer lower upper => exact begins_of_number (run_number_integer lower upper)
  | float reads => exact begins_of_number reads
  | text s => exact begins_renderText s
  | array =>
      rw [toList_render_array]
      exact ⟨_, _, rfl, by decide⟩
  | object =>
      rw [toList_render_object]
      exact ⟨_, _, rfl, by decide⟩

theorem takes_value_of_number
    {text rest : List Char} {json : Json} (read : number.run text = some (json, []))
    (delimits : Delimits rest) {fuel : Nat} (enough : text.length < fuel) (depth : Nat) :
    Takes (value fuel depth) text json rest := by
  obtain ⟨less, rfl⟩ := Nat.exists_eq_succ_of_ne_zero (Nat.ne_zero_of_lt enough)
  obtain ⟨first, isFirst, digit⟩ := exists_head_of_number read
  cases text with
  | nil => cases isFirst
  | cons c more =>
      cases isFirst
      have number := Continues.number _ _ _ _ delimits read
      refine (takes_peek first _).bind_nil ?_
      split
      case h_7 => exact number
      all_goals
        rcases digit with sign | digit
        · cases sign
        · cases digit

/-- An item of an array is an element if its text is read. -/
theorem element_of_item
    {json : Json} (legible : json.Legible) {fuel depth : Nat}
    (takes : ∀ rest, Delimits rest →
      Takes (value fuel depth) json.render.toList (json.cut depth) rest) :
    Element ']' (value fuel depth) json.render.toList (json.cut depth) := by
  obtain ⟨first, more, text, plain, noBracket, _⟩ := begins_render legible
  refine ⟨fun mark rest isMark => takes _ ?_, first, more, text, plain, noBracket⟩
  rintro c ⟨⟩
  rcases isMark with rfl | rfl <;> decide

/-- A member of an object is an element if the text of its value is read. -/
theorem element_of_member
    {member : String × Json} (legible : member.2.Legible) {fuel depth : Nat}
    (enough : (memberText member).length < fuel)
    (takes : ∀ rest, Delimits rest →
      Takes (value fuel depth) member.2.render.toList (member.2.cut depth) rest) :
    Element '\x7d' (memberWith (string fuel) (value fuel depth)) (memberText member)
      (some (member.1, member.2.cut depth)) := by
  obtain ⟨name, json⟩ := member
  obtain ⟨first, more, text, plain, _, noBrace⟩ := begins_renderText name
  constructor
  case head =>
    refine ⟨first, more ++ ':' :: json.render.toList, ?_, plain, noBrace⟩
    rw [memberText, text]
    rfl
  case takes =>
    intro mark rest isMark
    have delimits : Delimits (mark :: rest) := by
      rintro c ⟨⟩
      rcases isMark with rfl | rfl <;> decide
    have short : name.length < fuel := by
      have nameShort := length_lt_renderText name
      have textLong : (renderText name).toList.length ≤ (memberText (name, json)).length := by
        rw [memberText, List.length_append]
        exact Nat.le_add_right _ _
      omega
    obtain ⟨_, _, begins, behindColon, _⟩ := begins_render legible
    refine (takes_string name _ short).bind ?_
    refine (takes_skipSpace (by rintro c ⟨⟩; rfl)).bind_nil ?_
    refine (takes_expect [':'] _).bind_cons ?_
    refine (takes_skipSpace ?_).bind_nil ?_
    · rw [begins]
      rintro c ⟨⟩
      exact behindColon
    · exact (takes _ delimits).bind_last (Takes.pure _ _)

theorem objectOf_map_some (members : List (String × Json)) :
    objectOf (members.map some) = .object members := by
  have all : (members.map some).mapM id = some members := mapM_map_eq_some fun _ _ => rfl
  rw [objectOf, all]
  rfl

/-- The text of a document is read as the document down to the depth. -/
theorem takes_value
    {json : Json} (legible : json.Legible) {fuel : Nat} (depth : Nat) {rest : List Char}
    (delimits : Delimits rest) (enough : json.render.toList.length < fuel) :
    Takes (value fuel depth) json.render.toList (json.cut depth) rest := by
  -- Each level spends one unit of fuel and at least one character, so fuel beyond the length of
  -- the text never runs out.
  induction legible generalizing fuel depth rest with
  | null =>
      obtain ⟨less, rfl⟩ := Nat.exists_eq_succ_of_ne_zero (Nat.ne_zero_of_lt enough)
      have text : (render .null).toList = 'n' :: ['u', 'l', 'l'] := rfl
      rw [text]
      refine (takes_peek 'n' _).bind_nil ?_
      exact (takes_expect ['n', 'u', 'l', 'l'] rest).bind_last (Takes.pure _ rest)
  | bool b =>
      obtain ⟨less, rfl⟩ := Nat.exists_eq_succ_of_ne_zero (Nat.ne_zero_of_lt enough)
      cases b with
      | true =>
          have text : (render (.bool true)).toList = 't' :: ['r', 'u', 'e'] := rfl
          rw [text]
          refine (takes_peek 't' _).bind_nil ?_
          exact (takes_expect ['t', 'r', 'u', 'e'] rest).bind_last (Takes.pure _ rest)
      | false =>
          have text : (render (.bool false)).toList = 'f' :: ['a', 'l', 's', 'e'] := rfl
          rw [text]
          refine (takes_peek 'f' _).bind_nil ?_
          exact (takes_expect ['f', 'a', 'l', 's', 'e'] rest).bind_last (Takes.pure _ rest)
  | integer lower upper =>
      exact takes_value_of_number (run_number_integer lower upper) delimits enough depth
  | float reads => exact takes_value_of_number reads delimits enough depth
  | text s =>
      obtain ⟨less, rfl⟩ := Nat.exists_eq_succ_of_ne_zero (Nat.ne_zero_of_lt enough)
      rw [render] at enough ⊢
      have isText := takes_string s rest (Nat.lt_of_lt_of_le (length_lt_renderText s)
        (Nat.le_of_lt_succ enough))
      rw [renderText, String.toList_ofList] at isText ⊢
      refine (takes_peek '"' _).bind_nil ?_
      exact isText.bind_last (Takes.pure _ rest)
  | @array items items_legible ih =>
      obtain ⟨less, rfl⟩ := Nat.exists_eq_succ_of_ne_zero (Nat.ne_zero_of_lt enough)
      rw [toList_render_array] at enough ⊢
      obtain ⟨count, lengths⟩ :=
        lengths_of_enclosed (fun item isItem => (begins_render (items_legible item isItem)).ne_nil)
          enough
      have elements : ∀ item ∈ items, Element ']' (value less (depth - 1)) item.render.toList
          (item.cut (depth - 1)) := fun item isItem =>
        element_of_item (items_legible item isItem) fun _ delimits =>
          ih item isItem (depth - 1) delimits (lengths item isItem)
      refine (takes_peek '[' _).bind_nil ?_
      refine (takes_enclosed rest (by decide) (by decide) count elements).bind_last ?_
      rw [cut, cutAll_eq_map]
      exact Takes.pure _ rest
  | @object members members_legible ih =>
      obtain ⟨less, rfl⟩ := Nat.exists_eq_succ_of_ne_zero (Nat.ne_zero_of_lt enough)
      rw [toList_render_object] at enough ⊢
      obtain ⟨count, lengths⟩ :=
        lengths_of_enclosed (fun member _ => memberText_ne_nil member) enough
      have elements : ∀ member ∈ members,
          Element '\x7d' (memberWith (string less) (value less (depth - 1))) (memberText member)
            (some (member.1, member.2.cut (depth - 1))) := fun member isMember =>
        element_of_member (members_legible member isMember) (lengths member isMember)
          fun _ delimits => ih member isMember (depth - 1) delimits
            (Nat.lt_of_le_of_lt (length_le_memberText member) (lengths member isMember))
      refine (takes_peek '\x7b' _).bind_nil ?_
      refine (takes_enclosed rest (by decide) (by decide) count elements).bind_last ?_
      have object : objectOf (members.map fun member => some (member.1, member.2.cut (depth - 1))) =
          .object (cutMembers members (depth - 1)) := by
        rw [cutMembers_eq_map, ← objectOf_map_some, List.map_map]
        rfl
      rw [cut, object]
      exact Takes.pure _ rest

end Parser

/-- The text of a document is read as the document with what nests too deep unreadable. -/
theorem parse?_render {json : Json} (legible : json.Legible) :
    parse? json.render = some (json.cut depthLimit) := by
  have nothing : Parser.Delimits [] := nofun
  have reads := Parser.takes_value legible depthLimit nothing (Nat.lt_succ_self _)
  obtain ⟨first, more, text, plain, _⟩ := Parser.begins_render legible
  have starts : Takes Parser.skipSpace [] () (json.render.toList ++ []) :=
    Parser.takes_skipSpace (by rw [text]; rintro c ⟨⟩; exact plain)
  have ends : Takes Parser.skipSpace [] () [] := Parser.takes_skipSpace nofun
  have document : Takes (do
      Parser.skipSpace
      let json ← Parser.value (json.render.toList.length + 1) depthLimit
      Parser.skipSpace
      return json) json.render.toList (json.cut depthLimit) [] :=
    starts.bind_nil (reads.bind_last (ends.bind_last (Takes.pure _ [])))
  rw [Takes, List.append_nil] at document
  simp only [parse?, document]
  rfl

end Json

end EntityAccess
