import EntityAccess.Json.Parser
import EntityAccess.Proofs.Json.Documents

/-!
# Documents that a text can stand for

Whatever the text, the integers of its document have 64 bits and its doubles are
finite.  What a reader yields is followed through the readers that it is made of.
-/

namespace EntityAccess

namespace Json

namespace NumberLiteral

variable {literal : NumberLiteral}

theorem isFinite_of_nearest?
    {negative : Bool} {significand : Nat} {power : Int} {x : Binary64}
    (found : nearest? negative significand power = some x) : x.isFinite = true := by
  unfold nearest? at found
  dsimp only at found
  split at found
  · cases found
    exact Binary64.isFinite_ofMagnitude (by decide)
  · split at found
    · cases found
    · unfold Binary64.ofQuotient? at found
      dsimp only at found
      split at found
      case isTrue small =>
        cases found
        exact Binary64.isFinite_ofMagnitude small
      case isFalse => cases found

theorem bounds_of_integer? {n : Int} (found : literal.integer? = some n) :
    -0x8000000000000000 ≤ n ∧ n < 0x10000000000000000 := by
  unfold integer? at found
  dsimp only at found
  split at found <;> split at found <;> cases found <;> omega

/-- A number stands for an integer of 64 bits, a finite double or nothing. -/
theorem regular_toJson (literal : NumberLiteral) : literal.toJson.Regular := by
  have float : ((literal.float?.map Json.float).getD .unreadable).Regular := by
    cases found : literal.float? with
    | none => exact .unreadable
    | some x => exact .float (isFinite_of_nearest? found)
  unfold toJson
  dsimp only
  split
  · cases found : literal.integer? with
    | none => exact float
    | some n =>
        obtain ⟨lower, upper⟩ := bounds_of_integer? found
        exact .integer lower upper
  · exact float

end NumberLiteral

namespace Parser

/-- Whatever the reader reads has the property. -/
def Yields {α : Type} (reader : Reader α) (P : α → Prop) : Prop :=
  ∀ text a rest, reader.run text = some (a, rest) → P a

namespace Yields

variable {α β : Type} {P : α → Prop} {Q : β → Prop} {first : Reader α} {next : α → Reader β}

theorem pure {a : α} (holds : P a) : Yields (Pure.pure a) P := by
  rintro text _ _ ⟨⟩
  exact holds

theorem bind (yieldsFirst : Yields first P) (yieldsNext : ∀ a, P a → Yields (next a) Q) :
    Yields (first >>= next) Q := by
  intro text b rest read
  rw [StateT.run_bind, Option.bind_eq_bind] at read
  obtain ⟨⟨a, middle⟩, readFirst, readNext⟩ := Option.bind_eq_some_iff.1 read
  exact yieldsNext a (yieldsFirst text a middle readFirst) middle b rest readNext

/-- What is read first does not matter. -/
theorem behind (yieldsNext : ∀ a, Yields (next a) Q) : Yields (first >>= next) Q :=
  bind (fun _ _ _ _ => trivial) fun a (_ : True) => yieldsNext a

theorem ite {condition : Prop} [Decidable condition] {second : Reader α}
    (yieldsFirst : Yields first P) (yieldsSecond : Yields second P) :
    Yields (if condition then first else second) P := by
  split
  · exact yieldsFirst
  · exact yieldsSecond

end Yields

theorem yields_number : Yields number Regular := by
  refine .behind fun negative => .behind fun whole => .behind fun point => ?_
  have ending (fraction : List Char) : Yields (do
      let literal : NumberLiteral := ⟨negative, whole, fraction, ← power⟩
      return literal.toJson) Regular := .behind fun _ => .pure (NumberLiteral.regular_toJson _)
  exact .ite (.behind ending) (.behind ending)

section Lists

variable {α : Type} {P : α → Prop} {element : Reader α} {openMark close : Char}

theorem yields_separated (yields : Yields element P) (fuel : Nat) :
    Yields (separated close element fuel) fun items => ∀ item ∈ items, P item := by
  induction fuel with
  | zero => exact nofun
  | succ fuel ih =>
      refine yields.bind fun first holds => .behind fun _ => .behind fun closed => ?_
      refine .ite (.pure (List.forall_mem_singleton.2 holds)) ?_
      refine .behind fun _ => .behind fun _ => ih.bind fun others hold => .pure ?_
      exact List.forall_mem_cons.2 ⟨holds, hold⟩

theorem yields_enclosed (yields : Yields element P) (fuel : Nat) :
    Yields (enclosed openMark close element fuel) fun items => ∀ item ∈ items, P item := by
  refine .behind fun _ => .behind fun _ => .behind fun closed => ?_
  exact .ite (.pure (List.forall_mem_nil _)) (yields_separated yields fuel)

end Lists

theorem yields_memberWith
    {name : Reader (Option String)} {value : Reader Json} (yields : Yields value Regular) :
    Yields (memberWith name value) fun member? => ∀ member ∈ member?, member.2.Regular := by
  refine .behind fun name? => .behind fun _ => .behind fun _ => .behind fun _ => ?_
  refine yields.bind fun json regular => .pure ?_
  rintro member isMember
  obtain ⟨_, _, rfl⟩ := Option.map_eq_some_iff.1 isMember
  exact regular

theorem regular_objectOf
    {members : List (Option (String × Json))}
    (regular : ∀ member? ∈ members, ∀ member ∈ member?, member.2.Regular) :
    (objectOf members).Regular := by
  unfold objectOf
  cases all : members.mapM id with
  | none => exact .unreadable
  | some found => exact .object (forall_of_mapM_eq_some regular all)

theorem yields_value (fuel depth : Nat) : Yields (value fuel depth) Regular := by
  induction fuel generalizing depth with
  | zero => exact nofun
  | succ fuel ih =>
      refine .behind fun first => ?_
      split
      case h_1 => exact .behind fun _ => .pure .null
      case h_2 => exact .behind fun _ => .pure (.bool true)
      case h_3 => exact .behind fun _ => .pure (.bool false)
      case h_4 =>
        refine .behind fun text? => .pure ?_
        cases text? with
        | none => exact .unreadable
        | some text => exact .text text
      case h_5 =>
        refine (yields_enclosed (ih (depth - 1)) fuel).bind fun items regular => .pure ?_
        split
        · exact .unreadable
        · exact .array regular
      case h_6 =>
        refine (yields_enclosed (yields_memberWith (ih (depth - 1))) fuel).bind
          fun members regular => .pure ?_
        split
        · exact .unreadable
        · exact regular_objectOf regular
      case h_7 => exact yields_number

end Parser

/-- The document of a text has integers of 64 bits and finite doubles. -/
theorem regular_of_parse? {text : String} {json : Json} (read : parse? text = some json) :
    json.Regular := by
  have document (fuel : Nat) : Parser.Yields (do
      Parser.skipSpace
      let json ← Parser.value fuel depthLimit
      Parser.skipSpace
      return json) Regular :=
    .behind fun _ => (Parser.yields_value fuel depthLimit).bind fun _ regular =>
      .behind fun _ => .pure regular
  simp only [parse?, Option.bind_eq_bind, Option.bind_eq_some_iff] at read
  obtain ⟨⟨found, rest⟩, ran, read⟩ := read
  dsimp only at read
  split at read
  · cases read
    exact document _ _ _ _ ran
  · cases read

end Json

end EntityAccess
