import EntityAccess.Text

/-!
# Instants

Dates of the Gregorian calendar extended in both directions, with a year zero,
and points of time in universal time down to nanoseconds.  A leap second is kept
as second 59 with a thousand million nanoseconds or more, so the lexicographic
order of the parts is the order in time.

Three forms of literals are read, tried in this order: the internet form with
fixed widths and an offset, a date and time in universal time with free widths,
and a date alone.  Each must consume the whole text.
-/

namespace EntityAccess

/-- Whether a year has 366 days. -/
def isLeapYear (year : Int) : Bool :=
  year % 4 = 0 && (year % 100 ≠ 0 || year % 400 = 0)

/-- The number of days in a month; other numbers than 1 to 12 have no days. -/
def daysInMonth (year : Int) (month : Nat) : Nat :=
  if month = 2 then (if isLeapYear year then 29 else 28)
  else if month ∈ [4, 6, 9, 11] then 30
  else if month ∈ [1, 3, 5, 7, 8, 10, 12] then 31
  else 0

/-- An existing date in the supported range of years. -/
structure Date where
  year : Int
  month : Nat
  day : Nat
  year_ge : -262143 ≤ year
  year_le : year ≤ 262142
  day_pos : 1 ≤ day
  day_le : day ≤ daysInMonth year month
  deriving DecidableEq, Repr

namespace Date

/-- The date with the given numbers, if it exists. -/
def of? (year : Int) (month day : Nat) : Option Date :=
  if h : (-262143 ≤ year ∧ year ≤ 262142) ∧ 1 ≤ day ∧ day ≤ daysInMonth year month then
    some ⟨year, month, day, h.1.1, h.1.2, h.2.1, h.2.2⟩
  else none

/-- The numbers of a date are those of a date that exists. -/
theorem of?_self (date : Date) : of? date.year date.month date.day = some date :=
  dif_pos ⟨⟨date.year_ge, date.year_le⟩, date.day_pos, date.day_le⟩

def epoch : Date where
  year := 1970
  month := 1
  day := 1
  year_ge := by decide
  year_le := by decide
  day_pos := by decide
  day_le := by decide

/-- Earlier years first, then earlier months, then earlier days. -/
def compare (left right : Date) : Ordering :=
  (Ord.compare left.year right.year).then
    ((Ord.compare left.month right.month).then (Ord.compare left.day right.day))

def next? (date : Date) : Option Date :=
  (of? date.year date.month (date.day + 1)).or
    ((of? date.year (date.month + 1) 1).or (of? (date.year + 1) 1 1))

def previous? (date : Date) : Option Date :=
  if 1 < date.day then of? date.year date.month (date.day - 1)
  else if 1 < date.month then
    of? date.year (date.month - 1) (daysInMonth date.year (date.month - 1))
  else of? (date.year - 1) 12 31

end Date

def nanosPerSecond : Nat := 1000000000

/-- A point of time in universal time. -/
structure Instant where
  date : Date
  hour : Nat
  minute : Nat
  second : Nat
  nano : Nat
  hour_lt : hour < 24
  minute_lt : minute < 60
  second_lt : second < 60
  nano_lt : nano < 2 * nanosPerSecond
  leap : nanosPerSecond ≤ nano → second = 59
  deriving DecidableEq

namespace Instant

/-- The instant with the given parts, if they are in range. -/
def of? (date : Date) (hour minute second nano : Nat) : Option Instant :=
  if h : (hour < 24 ∧ minute < 60 ∧ second < 60) ∧ nano < 2 * nanosPerSecond ∧
      (nanosPerSecond ≤ nano → second = 59) then
    some ⟨date, hour, minute, second, nano, h.1.1, h.1.2.1, h.1.2.2, h.2.1, h.2.2⟩
  else none

/-- The parts of an instant are in range. -/
theorem of?_self (instant : Instant) :
    of? instant.date instant.hour instant.minute instant.second instant.nano = some instant :=
  dif_pos ⟨⟨instant.hour_lt, instant.minute_lt, instant.second_lt⟩, instant.nano_lt, instant.leap⟩

/--
The instant of a clock reading, where second 60 stands for a leap second and
the fraction is below one second.
-/
def ofClock? (date : Date) (hour minute second fraction : Nat) : Option Instant :=
  if second = 60 then of? date hour minute 59 (nanosPerSecond + fraction)
  else of? date hour minute second fraction

def midnight (date : Date) : Instant where
  date := date
  hour := 0
  minute := 0
  second := 0
  nano := 0
  hour_lt := by decide
  minute_lt := by decide
  second_lt := by decide
  nano_lt := by decide
  leap := by decide

def epoch : Instant := midnight Date.epoch

def compare (left right : Instant) : Ordering :=
  (left.date.compare right.date).then <|
    (Ord.compare left.hour right.hour).then <|
      (Ord.compare left.minute right.minute).then <|
        (Ord.compare left.second right.second).then (Ord.compare left.nano right.nano)

/--
The instant that lies the given number of minutes, less than a day in either
direction, before this one.  Seconds and their fraction do not move.
-/
def minusMinutes? (instant : Instant) (minutes : Int) : Option Instant :=
  let total : Int := instant.hour * 60 + instant.minute - minutes
  let date? :=
    if total < 0 then instant.date.previous?
    else if total < 24 * 60 then some instant.date
    else instant.date.next?
  let minuteOfDay := (total % (24 * 60)).toNat
  date?.bind fun date =>
    of? date (minuteOfDay / 60) (minuteOfDay % 60) instant.second instant.nano

/-- A number with leading zeros up to the given width. -/
def padded (width number : Nat) : List Char :=
  let digits := Nat.toDigits 10 number
  List.replicate (width - digits.length) '0' ++ digits

/-- Years of four digits have no sign, the others have one. -/
def writeYear (year : Int) : List Char :=
  let digits := padded 4 year.natAbs
  if 0 ≤ year ∧ year ≤ 9999 then digits
  else (if year < 0 then '-' else '+') :: digits

/-- Nothing for zero, otherwise a point and three, six or nine digits, the fewest that are exact. -/
def writeFraction (nano : Nat) : List Char :=
  if nano = 0 then []
  else if nano % 1000000 = 0 then '.' :: padded 3 (nano / 1000000)
  else if nano % 1000 = 0 then '.' :: padded 6 (nano / 1000)
  else '.' :: padded 9 nano

/-- The date and time of day around a `T`; a leap second is written as second 60. -/
def writeLocal (instant : Instant) : List Char :=
  let leaps := decide (nanosPerSecond ≤ instant.nano)
  writeYear instant.date.year ++ '-' :: padded 2 instant.date.month ++
    '-' :: padded 2 instant.date.day ++ 'T' :: padded 2 instant.hour ++
    ':' :: padded 2 instant.minute ++
    ':' :: padded 2 (if leaps then instant.second + 1 else instant.second) ++
    writeFraction (instant.nano % nanosPerSecond)

/-- The form of messages and answers, which ends in a numeric offset. -/
def toText (instant : Instant) : String :=
  String.ofList (instant.writeLocal ++ ['+', '0', '0', ':', '0', '0'])

/-- The short form of documents and of inspection, which ends in `Z`. -/
def toShortText (instant : Instant) : String :=
  String.ofList (instant.writeLocal ++ ['Z'])

end Instant

/-! ## Literals -/

namespace Instant

namespace Literal

/-- A reader takes what it reads off the front of the text. -/
abbrev Reader (α : Type) := StateT (List Char) Option α

def take (accepted : Char → Bool) : Reader Char
  | c :: rest => if accepted c then some (c, rest) else none
  | [] => none

def expect (c : Char) : Reader Unit := do
  discard (take (· == c))

/-- Take the character if it comes next, and tell whether it did. -/
def optional (c : Char) : Reader Bool
  | d :: rest => if d = c then some (true, rest) else some (false, d :: rest)
  | [] => some (false, [])

def takeAll (accepted : Char → Bool) : Reader (List Char) :=
  fun text => some (text.takeWhile accepted, text.dropWhile accepted)

def fixed (width : Nat) : Reader Nat :=
  fun text =>
    let digits := text.take width
    if digits.length = width ∧ digits.all Char.isDigit then
      some (decimalValue digits, text.drop width)
    else none

/-- A number of at least one and at most `width` digits, as many as there are. -/
def upTo (width : Nat) : Reader Nat :=
  fun text =>
    let digits := (text.take width).takeWhile Char.isDigit
    if digits.isEmpty then none else some (decimalValue digits, text.drop digits.length)

/-- Nanoseconds from the digits of a fraction; digits beyond the ninth are dropped. -/
def fractionOf (digits : List Char) : Nat :=
  let kept := digits.take 9
  decimalValue kept * Nat.pow 10 (9 - kept.length)

/-- A fraction of a second after a point, or zero if there is no point. -/
def fraction : Reader Nat := do
  if ← optional '.' then
    let digits ← takeAll Char.isDigit
    guard !digits.isEmpty
    return fractionOf digits
  else return 0

def finish : Reader Unit
  | [] => some ((), [])
  | _ => none

/-- The offset from universal time in minutes. -/
def offset : Reader Int := do
  let mark ← take ['Z', 'z', '+', '-', '\u2212'].contains
  if mark = 'Z' ∨ mark = 'z' then return 0
  let hours ← fixed 2
  expect ':'
  let minutes ← fixed 2
  guard (hours < 24 ∧ minutes < 60)
  let size : Int := hours * 60 + minutes
  return if mark = '+' then size else -size

/-- Fixed widths, a fraction, and an offset that is subtracted. -/
def internet : Reader Instant := do
  let year ← fixed 4
  expect '-'
  let month ← fixed 2
  expect '-'
  let day ← fixed 2
  discard (take ['T', 't', ' '].contains)
  let hour ← fixed 2
  expect ':'
  let minute ← fixed 2
  expect ':'
  let second ← fixed 2
  let nano ← fraction
  let minutes ← offset
  finish
  let date ← Date.of? year month day
  let reading ← Instant.ofClock? date hour minute second nano
  reading.minusMinutes? minutes

/-- Numbers of a year are kept below this bound while they are read. -/
def yearBound : Nat := 0x8000000000000000

/-- White space before a number is skipped. -/
def skipBlank : Reader Unit := do
  discard (takeAll isBlank)

def short : Reader Nat := do
  skipBlank
  upTo 2

/-- One to four digits, or a sign directly followed by any number of digits. -/
def year : Reader Int := do
  skipBlank
  let signed : Reader Nat := do
    let digits ← takeAll Char.isDigit
    guard (!digits.isEmpty && decide (decimalValue digits < yearBound))
    return decimalValue digits
  if ← optional '-' then return -(← signed : Nat)
  else if ← optional '+' then return (← signed : Nat)
  else return (← upTo 4 : Nat)

/-- Year, month and day with dashes between them. -/
def dashedDate : Reader Date := do
  let year ← year
  expect '-'
  let month ← short
  expect '-'
  let day ← short
  Date.of? year month day

/-- A date, a `T` and a time of day with an optional fraction. -/
def dateAndTime : Reader Instant := do
  let date ← dashedDate
  expect 'T'
  let hour ← short
  expect ':'
  let minute ← short
  expect ':'
  let second ← short
  let nano ← fraction
  finish
  Instant.ofClock? date hour minute second nano

/-- A date alone stands for its first instant. -/
def dateAlone : Reader Instant := do
  let date ← dashedDate
  finish
  return Instant.midnight date

/-- Read a whole text in one of the forms. -/
def read? (form : Reader Instant) (text : List Char) : Option Instant :=
  (form.run text).map Prod.fst

end Literal

/-- Read an instant in the first form that accepts the text. -/
def parse? (text : String) : Option Instant :=
  (Literal.read? Literal.internet text.toList).or
    ((Literal.read? Literal.dateAndTime text.toList).or
      (Literal.read? Literal.dateAlone text.toList))

end Instant

end EntityAccess
