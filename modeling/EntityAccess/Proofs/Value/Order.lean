import EntityAccess.Query
import Mathlib.Order.Compare

/-!
# The order of values

A literal that is bound to a scalar type is a value of that type; in particular it
is never null.  Stores tell values apart by sameness, and predicates by their
order: apart from lists and doubles the two agree.  Turning two values round turns
their order round, and values of one type, NaN apart, are in a consistent order
with null as the least of them.
-/

namespace EntityAccess

/-! ## What coercion gives -/

namespace Value

@[simp]
theorem isNull_iff {value : Value} : value.isNull = true ↔ value = .null := by
  cases value <;> simp [isNull]

@[simp]
theorem isNull_eq_false_iff {value : Value} : value.isNull = false ↔ value ≠ .null := by
  cases value <;> simp [isNull]

end Value

namespace ScalarType

/-- A type turns a literal into a value. -/
inductive Converts : ScalarType → Value → Value → Prop where
  | keep {type : ScalarType} {value : Value} (fits : value.kind = type.valueKind) :
      Converts type value value
  | narrow {x : Binary64} {n : Int64} (whole : x.toInt64? = some n) :
      Converts .int (.float x) (.int n)
  | widen (n : Int64) : Converts .float (.int n) (.float (Binary64.ofInt64 n))
  | parseBool {text : String} {b : Bool} (parsed : parseBool? text = some b) :
      Converts .bool (.text text) (.bool b)
  | parseUuid {text : String} {u : Uuid} (parsed : Uuid.parse? text = some u) :
      Converts .uuid (.text text) (.uuid u)
  | parseInstant {text : String} {t : Instant} (parsed : Instant.parse? text = some t) :
      Converts .dateTime (.text text) (.dateTime t)

/-- A converted value has the kind of its type. -/
theorem Converts.kind_eq
    {type : ScalarType} {literal bound : Value} (converts : Converts type literal bound) :
    bound.kind = type.valueKind := by
  cases converts with
  | keep fits => exact fits
  | narrow | widen | parseBool | parseUuid | parseInstant => rfl

/-- Coercion succeeds with exactly the listed conversions. -/
theorem coerce_eq_ok_iff {type : ScalarType} {literal bound : Value} :
    type.coerce literal = .ok bound ↔ Converts type literal bound := by
  constructor
  · intro coerced
    unfold coerce at coerced
    split at coerced
    case h_7 x =>
      cases whole : x.toInt64? with
      | none => simp [whole] at coerced
      | some n =>
          simp only [whole, Except.ok.injEq] at coerced
          exact coerced ▸ .narrow whole
    case h_8 n => exact Except.ok.inj coerced ▸ .widen n
    case h_9 s =>
      cases parsed : parseBool? s with
      | none => simp [parsed] at coerced
      | some b =>
          simp only [parsed, Option.map_some, Except.ok.injEq] at coerced
          exact coerced ▸ .parseBool parsed
    case h_10 s =>
      cases parsed : Uuid.parse? s with
      | none => simp [parsed] at coerced
      | some u =>
          simp only [parsed, Option.map_some, Except.ok.injEq] at coerced
          exact coerced ▸ .parseUuid parsed
    case h_11 s =>
      cases parsed : Instant.parse? s with
      | none => simp [parsed] at coerced
      | some t =>
          simp only [parsed, Option.map_some, Except.ok.injEq] at coerced
          exact coerced ▸ .parseInstant parsed
    case h_12 => cases coerced
    all_goals exact Except.ok.inj coerced ▸ .keep rfl
  · intro converts
    cases converts with
    | keep fits =>
        cases type <;> cases literal <;> simp_all [coerce, Value.kind, valueKind]
    | narrow whole => simp [coerce, whole]
    | widen n => rfl
    | parseBool parsed => simp [coerce, parsed]
    | parseUuid parsed => simp [coerce, parsed]
    | parseInstant parsed => simp [coerce, parsed]

/-- A value of the type is bound as it is. -/
theorem coerce_of_kind
    {type : ScalarType} {value : Value} (fits : value.kind = type.valueKind) :
    type.coerce value = .ok value :=
  coerce_eq_ok_iff.2 (.keep fits)

/-- No type converts null or a list. -/
theorem coerce_eq_error_of_unbound
    (type : ScalarType) {literal : Value}
    (unbound : literal = .null ∨ ∃ items, literal = .list items) :
    type.coerce literal = .error (.mismatch type literal.kind) := by
  rcases unbound with rfl | ⟨items, rfl⟩
  · cases type <;> rfl
  · cases type <;> rfl

theorem kind_of_coerce
    {type : ScalarType} {literal bound : Value} (coerced : type.coerce literal = .ok bound) :
    bound.kind = type.valueKind :=
  (coerce_eq_ok_iff.1 coerced).kind_eq

/-- A value of a type's kind is not null. -/
theorem ne_null_of_kind
    {type : ScalarType} {value : Value} (fits : value.kind = type.valueKind) :
    value ≠ .null := by
  rintro rfl
  cases type <;> cases fits

theorem ne_null_of_coerce
    {type : ScalarType} {literal bound : Value} (coerced : type.coerce literal = .ok bound) :
    bound ≠ .null :=
  ne_null_of_kind (kind_of_coerce coerced)

end ScalarType

/-! ## Order -/

open Std (OrientedCmp TransCmp TransOrd)

instance : Ord Uuid := ⟨Uuid.compare⟩

instance : TransOrd Uuid :=
  inferInstanceAs (TransCmp (compareOn fun u : Uuid => u.bits.toNat))

instance : Ord Date := ⟨Date.compare⟩

instance : TransOrd Date :=
  inferInstanceAs (TransCmp
    (compareLex (compareOn Date.year) (compareLex (compareOn Date.month) (compareOn Date.day))))

instance : Ord Instant := ⟨Instant.compare⟩

instance : TransOrd Instant :=
  inferInstanceAs (TransCmp
    (compareLex (compareOn Instant.date) <| compareLex (compareOn Instant.hour) <|
      compareLex (compareOn Instant.minute) <|
        compareLex (compareOn Instant.second) (compareOn Instant.nano)))

theorem Binary64.compare?_swap (x y : Binary64) :
    x.compare? y = (y.compare? x).map Ordering.swap := by
  rw [compare?, compare?, Bool.or_comm]
  split
  · rfl
  · exact congrArg some OrientedCmp.eq_swap

namespace Value

/-- Two values compare from both sides, or from none. -/
theorem compare?_swap (left right : Value) :
    left.compare? right = (right.compare? left).map Ordering.swap := by
  cases left with
  | null => cases right <;> rfl
  | list items => cases right <;> rfl
  | bool a =>
      cases right with
      | bool b => exact congrArg some OrientedCmp.eq_swap
      | _ => rfl
  | int a =>
      cases right with
      | int b => exact congrArg some OrientedCmp.eq_swap
      | float y => exact Binary64.compare?_swap _ y
      | _ => rfl
  | float x =>
      cases right with
      | int b => exact Binary64.compare?_swap x _
      | float y => exact Binary64.compare?_swap x y
      | _ => rfl
  | text a =>
      cases right with
      | text b => exact congrArg some OrientedCmp.eq_swap
      | _ => rfl
  | uuid a =>
      cases right with
      | uuid b => exact congrArg some (Std.OrientedOrd.eq_swap (a := a))
      | _ => rfl
  | dateTime a =>
      cases right with
      | dateTime b =>
          exact congrArg some (Std.OrientedOrd.eq_swap (a := a))
      | _ => rfl

/-- Null comes first from both sides, and incomparable values are equal from both. -/
theorem sortOrder_swap (left right : Value) :
    left.sortOrder right = (right.sortOrder left).swap := by
  unfold sortOrder
  cases left.isNull <;> cases right.isNull <;> try rfl
  rw [compare?_swap]
  cases right.compare? left <;> rfl

def isNaN : Value → Bool
  | .float x => x.isNaN
  | _ => false

end Value

namespace ScalarType

/-- A value that has a place among those of the type: null, or one of them that is not NaN. -/
inductive Ranks : ScalarType → Value → Prop where
  | null {type : ScalarType} : Ranks type .null
  | bool (b : Bool) : Ranks .bool (.bool b)
  | int (n : Int64) : Ranks .int (.int n)
  | float {x : Binary64} (number : x.isNaN = false) : Ranks .float (.float x)
  | text (s : String) : Ranks .text (.text s)
  | uuid (u : Uuid) : Ranks .uuid (.uuid u)
  | dateTime (t : Instant) : Ranks .dateTime (.dateTime t)

theorem ranks_of_kind
    {type : ScalarType} {value : Value} (fits : value.kind = type.valueKind)
    (number : value.isNaN = false) : type.Ranks value := by
  cases value with
  | null => exact .null
  | list items => cases type <;> cases fits
  | bool b => cases type with
    | bool => exact .bool b
    | _ => cases fits
  | int n => cases type with
    | int => exact .int n
    | _ => cases fits
  | float x => cases type with
    | float => exact .float number
    | _ => cases fits
  | text s => cases type with
    | text => exact .text s
    | _ => cases fits
  | uuid u => cases type with
    | uuid => exact .uuid u
    | _ => cases fits
  | dateTime t => cases type with
    | dateTime => exact .dateTime t
    | _ => cases fits

/-- Values with a place in one type are comparable. -/
theorem exists_compare?_of_ranks
    {type : ScalarType} {left right : Value} (leftRanks : type.Ranks left)
    (rightRanks : type.Ranks right) (leftPresent : left ≠ .null) (rightPresent : right ≠ .null) :
    ∃ order, left.compare? right = some order := by
  cases leftRanks with
  | null => exact absurd rfl leftPresent
  | float leftNumber =>
      cases rightRanks with
      | null => exact absurd rfl rightPresent
      | float rightNumber =>
          rw [Value.compare?, Binary64.compare?, leftNumber, rightNumber]
          exact ⟨_, rfl⟩
  | bool | int | text | uuid | dateTime =>
      cases rightRanks with
      | null => exact absurd rfl rightPresent
      | _ => exact ⟨_, rfl⟩

/-- A type whose values are ordered by their contents, none of which null has. -/
theorem transCmp_of_content
    {type : ScalarType} {α : Type} [Ord α] [TransOrd α] (content : Value → Option α)
    (agrees : ∀ left right, type.Ranks left → type.Ranks right →
      left.sortOrder right = compare (content left) (content right)) :
    TransCmp fun left right : { value // type.Ranks value } => left.1.sortOrder right.1 := by
  have same : (fun left right : { value // type.Ranks value } => left.1.sortOrder right.1) =
      compareOn fun value => content value.1 :=
    funext fun left => funext fun right => agrees left.1 right.1 left.2 right.2
  rw [same]
  infer_instance

/-- The values with a place in a type are in a consistent order. -/
instance transCmp_sortOrder (type : ScalarType) :
    TransCmp fun left right : { value // type.Ranks value } => left.1.sortOrder right.1 := by
  cases type with
  | bool => exact transCmp_of_content Value.asBool? (by rintro _ _ ⟨⟩ ⟨⟩ <;> rfl)
  | int =>
      exact transCmp_of_content (fun value => value.asInt?.map Int64.toInt)
        (by rintro _ _ ⟨⟩ ⟨⟩ <;> rfl)
  | float =>
      refine transCmp_of_content (fun value => value.asFloat?.map Binary64.rank) ?_
      rintro _ _ (_ | _ | _ | ⟨left⟩) (_ | _ | _ | ⟨right⟩)
      · rfl
      · rfl
      · rfl
      · simp [Value.sortOrder, Value.isNull, Value.compare?, Binary64.compare?, left, right,
          Value.asFloat?]
        rfl
  | text => exact transCmp_of_content Value.asText? (by rintro _ _ ⟨⟩ ⟨⟩ <;> rfl)
  | uuid => exact transCmp_of_content Value.asUuid? (by rintro _ _ ⟨⟩ ⟨⟩ <;> rfl)
  | dateTime => exact transCmp_of_content Value.asDateTime? (by rintro _ _ ⟨⟩ ⟨⟩ <;> rfl)

end ScalarType

/-! ## Identity -/

theorem Uuid.compare_eq_iff {left right : Uuid} : left.compare right = .eq ↔ left = right := by
  cases left
  cases right
  simp [compare, BitVec.toNat_inj]

theorem Date.compare_eq_iff {left right : Date} : left.compare right = .eq ↔ left = right := by
  cases left
  cases right
  simp [compare]

theorem Instant.compare_eq_iff {left right : Instant} :
    left.compare right = .eq ↔ left = right := by
  cases left
  cases right
  simp [compare, Date.compare_eq_iff]

/-- Values of the kind are told apart by sameness as well as by their order. -/
structure ValueKind.Discerns (kind : ValueKind) : Prop where
  not_float : kind ≠ .float
  not_list : kind ≠ .list

theorem ScalarType.discerns {type : ScalarType} (exact : type ≠ .float) :
    type.valueKind.Discerns := by
  cases type with
  | float => exact absurd rfl exact
  | bool | int | text | uuid | dateTime => exact ⟨nofun, nofun⟩

namespace Value

variable {left right : Value}

theorem same_iff_eq (discerned : left.kind.Discerns) :
    (left == right) = true ↔ left = right := by
  change left.same right = true ↔ _
  cases left with
  | float => exact absurd rfl discerned.not_float
  | list => exact absurd rfl discerned.not_list
  | null | bool | int | text | uuid | dateTime => cases right <;> simp [same]

theorem same_iff_eq_of_right (discerned : right.kind.Discerns) :
    (left == right) = true ↔ left = right := by
  change left.same right = true ↔ _
  cases right with
  | float => exact absurd rfl discerned.not_float
  | list => exact absurd rfl discerned.not_list
  | null | bool | int | text | uuid | dateTime => cases left <;> simp [same]

/-- Of two values that are level, neither may be a double. -/
theorem compare?_eq_iff_eq
    (discerned : left.kind.Discerns) (otherDiscerned : right.kind.Discerns) :
    left.compare? right = some .eq ↔ left = right := by
  cases right with
  | float => exact absurd rfl otherDiscerned.not_float
  | list => exact absurd rfl otherDiscerned.not_list
  | null | bool | int | text | uuid | dateTime =>
      cases left with
      | float => exact absurd rfl discerned.not_float
      | list => exact absurd rfl discerned.not_list
      | null | bool | int | text | uuid | dateTime =>
          simp [compare?, Int64.toInt_inj, Uuid.compare_eq_iff, Instant.compare_eq_iff]

end Value

end EntityAccess
