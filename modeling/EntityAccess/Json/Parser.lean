import EntityAccess.Json.Basic
import EntityAccess.Text

/-!
# Reading JSON

A strict reader: one value with nothing but white space around it, no trailing
commas and no control characters in texts.  Numbers beyond the doubles, texts
with an unpaired surrogate, objects with such a name, and what nests too deep
must be well formed too, but are unreadable.
-/

namespace EntityAccess

/-! ## What literals stand for

A number without fraction and exponent is an integer if 64 bits hold it, signed or
unsigned; negative zero and all other numbers are the nearest double.  The parts of
a text are characters and escaped code units of 16 bits: two units that are a pair
of surrogates are one character, and a surrogate without its partner stands for
nothing.
-/

namespace Json

/-- The parts of a number literal. -/
structure NumberLiteral where
  negative : Bool
  whole : List Char
  fraction : List Char
  /-- The power of ten after the `e`, if there is one. -/
  power : Option Int

namespace NumberLiteral

/-- Sizes from `10 ^ 310` on are beyond the doubles. -/
def highestPower : Int := 310

/-- Sizes below `10 ^ (-330)` round to zero. -/
def lowestPower : Int := -330

/-- The double nearest to `significand * 10 ^ power` with a sign. -/
def nearest? (negative : Bool) (significand : Nat) (power : Int) : Option Binary64 :=
  let top := power + (Nat.toDigits 10 significand).length
  if significand = 0 ∨ top < lowestPower then some (Binary64.ofMagnitude negative 0)
  else if highestPower < top then none
  else Binary64.ofQuotient? negative (significand * Rounding.tenTo power) (Rounding.tenTo (-power))

/-- The integer of a literal without fraction and exponent, if 64 bits hold it. -/
def integer? (literal : NumberLiteral) : Option Int :=
  let size := decimalValue literal.whole
  if literal.negative then
    if 0 < size ∧ size ≤ 0x8000000000000000 then some (-(size : Int)) else none
  else if size < 0x10000000000000000 then some size
  else none

def float? (literal : NumberLiteral) : Option Binary64 :=
  nearest? literal.negative (decimalValue (literal.whole ++ literal.fraction))
    (literal.power.getD 0 - literal.fraction.length)

def toJson (literal : NumberLiteral) : Json :=
  let float : Json := (literal.float?.map .float).getD .unreadable
  if literal.fraction.isEmpty && literal.power.isNone then
    (literal.integer?.map .integer).getD float
  else float

end NumberLiteral

inductive TextPart where
  | char (c : Char)
  /-- An escaped code unit. -/
  | unit (n : Nat)
  deriving DecidableEq, Repr

namespace TextPart

/-- Whether a code unit is the first of a pair of surrogates. -/
def isHigh (unit : Nat) : Bool :=
  decide (0xD800 ≤ unit) && decide (unit < 0xDC00)

/-- Whether a code unit is the second of a pair of surrogates. -/
def isLow (unit : Nat) : Bool :=
  decide (0xDC00 ≤ unit) && decide (unit < 0xE000)

/-- The character of a pair of surrogates. -/
def ofPair (high low : Nat) : Char :=
  Char.ofNat (0x10000 + (high - 0xD800) * 0x400 + (low - 0xDC00))

/-- The characters that parts stand for, unless a surrogate is unpaired. -/
def decode? : List TextPart → Option (List Char)
  | [] => some []
  | .char c :: rest => (decode? rest).map (c :: ·)
  | .unit first :: rest =>
      if isHigh first then
        match rest with
        | .unit second :: rest =>
            if isLow second then (decode? rest).map (ofPair first second :: ·) else none
        | _ => none
      else if isLow first then none
      else (decode? rest).map (Char.ofNat first :: ·)

@[simp]
theorem decode?_nil : decode? [] = some [] := rfl

theorem decode?_char_cons (c : Char) (rest : List TextPart) :
    decode? (.char c :: rest) = (decode? rest).map (c :: ·) := rfl

end TextPart

end Json

/-! ## Readers -/

namespace Json

namespace Parser

/-- A reader takes what it reads off the front of the text. -/
abbrev Reader (α : Type) := StateT (List Char) Option α

def isSpace (c : Char) : Bool :=
  c = ' ' || c = '\n' || c = '\t' || c = '\r'

def skipSpace : Reader Unit :=
  fun text => some ((), text.dropWhile isSpace)

/-- The next character, which is left in place. -/
def peek : Reader Char
  | c :: rest => some (c, c :: rest)
  | [] => none

def next : Reader Char
  | c :: rest => some (c, rest)
  | [] => none

def expect (word : List Char) : Reader Unit :=
  fun text => if word.isPrefixOf text then some ((), text.drop word.length) else none

/-- Take the character if it comes next, and tell whether it did. -/
def accept (c : Char) : Reader Bool
  | d :: rest => if d = c then some (true, rest) else some (false, d :: rest)
  | [] => some (false, [])

def digits : Reader (List Char) :=
  fun text => some (text.takeWhile Char.isDigit, text.dropWhile Char.isDigit)

def someDigits : Reader (List Char) := do
  let found ← digits
  guard !found.isEmpty
  return found

/-- Digits without a leading zero, except zero itself. -/
def wholeDigits : Reader (List Char) := do
  let found ← someDigits
  guard (found.head? != some '0' || found.length == 1)
  return found

/-- The power of ten after an `e`. -/
def power : Reader (Option Int) := do
  if (← accept 'e') || (← accept 'E') then
    let negative ← accept '-'
    if !negative then discard (accept '+')
    let size : Int := decimalValue (← someDigits)
    return some (if negative then -size else size)
  else return none

/-- A number, which is unreadable if it is beyond the doubles. -/
def number : Reader Json := do
  let negative ← accept '-'
  let whole ← wholeDigits
  let fraction ← if ← accept '.' then someDigits else pure []
  let literal : NumberLiteral := ⟨negative, whole, fraction, ← power⟩
  return literal.toJson

/-- A code unit of 16 bits in four hexadecimal digits. -/
def codeUnit : Reader Nat :=
  fun text =>
    if (text.take 4).length = 4 then
      (hexValue? (text.take 4)).map fun unit => (unit, text.drop 4)
    else none

/-- What stands after a backslash. -/
def escape : Reader TextPart := do
  match ← next with
  | '"' => return .char '"'
  | '\\' => return .char '\\'
  | '/' => return .char '/'
  | 'b' => return .char '\x08'
  | 'f' => return .char '\x0c'
  | 'n' => return .char '\n'
  | 'r' => return .char '\r'
  | 't' => return .char '\t'
  | 'u' => return .unit (← codeUnit)
  | _ => failure

/-- The parts of a text up to its closing quote; each takes at least one character off. -/
def textParts : Nat → Reader (List TextPart)
  | 0 => failure
  | fuel + 1 => do
      match ← next with
      | '"' => return []
      | '\\' =>
          let part ← escape
          return part :: (← textParts fuel)
      | c =>
          guard (0x20 ≤ c.toNat)
          return .char c :: (← textParts fuel)

/-- A text with its quotes; none if it has an unpaired surrogate. -/
def string (fuel : Nat) : Reader (Option String) := do
  expect ['"']
  return (TextPart.decode? (← textParts fuel)).map String.ofList

/--
Elements separated by commas up to a closing character; each takes at least one
character off.
-/
def separated {α : Type} (close : Char) (element : Reader α) : Nat → Reader (List α)
  | 0 => failure
  | fuel + 1 => do
      let first ← element
      skipSpace
      if ← accept close then return [first]
      expect [',']
      skipSpace
      return first :: (← separated close element fuel)

/-- A possibly empty list of elements, its opening character included. -/
def enclosed {α : Type} (openMark close : Char) (element : Reader α) (fuel : Nat) :
    Reader (List α) := do
  expect [openMark]
  skipSpace
  if ← accept close then return []
  separated close element fuel

/-- A name and a value with a colon between them. -/
def memberWith (name : Reader (Option String)) (value : Reader Json) :
    Reader (Option (String × Json)) := do
  let name? ← name
  skipSpace
  expect [':']
  skipSpace
  let json ← value
  return name?.map (·, json)

/-- The object of members, which is unreadable if the name of one is. -/
def objectOf (members : List (Option (String × Json))) : Json :=
  ((members.mapM id).map .object).getD .unreadable

/--
A value.  Arrays and objects that nest deeper than the given number are
unreadable.  The fuel exceeds the length of the text.
-/
def value : Nat → Nat → Reader Json
  | 0, _ => failure
  | fuel + 1, depth => do
      match ← peek with
      | 'n' => expect "null".toList; return .null
      | 't' => expect "true".toList; return .bool true
      | 'f' => expect "false".toList; return .bool false
      | '"' => return ((← string fuel).map .text).getD .unreadable
      | '[' =>
          let items ← enclosed '[' ']' (value fuel (depth - 1)) fuel
          return if depth = 0 then .unreadable else .array items
      | '\x7b' =>
          let member := memberWith (string fuel) (value fuel (depth - 1))
          let members ← enclosed '\x7b' '\x7d' member fuel
          return if depth = 0 then .unreadable else objectOf members
      | _ => number

end Parser

/-- Arrays and objects that nest deeper are unreadable. -/
def depthLimit : Nat := 127

def parse? (text : String) : Option Json := do
  let chars := text.toList
  let document : Parser.Reader Json := do
    Parser.skipSpace
    let json ← Parser.value (chars.length + 1) depthLimit
    Parser.skipSpace
    return json
  let (json, rest) ← document.run chars
  if rest.isEmpty then some json else none

end Json

end EntityAccess
