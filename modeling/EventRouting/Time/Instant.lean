namespace EventRouting

/-- A moment, counted from the start of 1970. Within a leap second the nanoseconds exceed a
second. -/
structure Instant where
  seconds : Int
  nanos : Nat
  deriving DecidableEq, Repr

namespace Instant

/-- The first moment of the calendar, which stands for an unknown time. -/
def earliest : Instant := ⟨-8334601228800, 0⟩

def le (a b : Instant) : Bool :=
  a.seconds < b.seconds || (a.seconds == b.seconds && a.nanos ≤ b.nanos)

def max (a b : Instant) : Instant := if a.le b then b else a

/-- The number of days from the start of 1970 to a date of the Gregorian calendar. -/
def daysFromCivil (year : Int) (month day : Nat) : Int :=
  let y := if month ≤ 2 then year - 1 else year
  let era := y.fdiv 400
  let yearOfEra := y - era * 400
  let dayOfYear : Int :=
    (153 * (if month ≤ 2 then month + 9 else month - 3 : Nat) + 2) / 5 + day - 1
  let dayOfEra := yearOfEra * 365 + yearOfEra / 4 - yearOfEra / 100 + dayOfYear
  era * 146097 + dayOfEra - 719468

def isLeapYear (year : Int) : Bool :=
  year % 4 == 0 && (year % 100 != 0 || year % 400 == 0)

def daysInMonth (year : Int) (month : Nat) : Nat :=
  if month = 2 then if isLeapYear year then 29 else 28
  else if month = 4 ∨ month = 6 ∨ month = 9 ∨ month = 11 then 30
  else 31

/-- Why a text is no time. -/
inductive ParseError where
  | short
  | invalid
  | outOfRange
  | long
  deriving DecidableEq, Repr

def ParseError.message : ParseError → String
  | .short => "premature end of input"
  | .invalid => "input contains invalid characters"
  | .outOfRange => "input is out of range"
  | .long => "trailing input"

abbrev Parser (α : Type) := StateT (List Char) (Except ParseError) α

def isSpace (c : Char) : Bool := c.isWhitespace

def skipSpaces : Parser Unit := modify (·.dropWhile isSpace)

/-- A number of at least one and at most `width` digits, after blanks. -/
def number (width : Nat) : Parser Nat := do
  skipSpaces
  let s ← get
  let digits := (s.take width).takeWhile Char.isDigit
  if digits.isEmpty then throw (if s.isEmpty then .short else .invalid)
  set (s.drop digits.length)
  return digits.foldl (fun n c => 10 * n + (c.toNat - '0'.toNat)) 0

def literal (c : Char) : Parser Unit := do
  match ← get with
  | [] => throw .short
  | d :: s => if c = d then set s else throw .invalid

/-- The fraction of a second in nanoseconds, digits after the ninth ignored. -/
def fraction : Parser Nat := do
  match ← get with
  | '.' :: s =>
    let digits := s.takeWhile Char.isDigit
    if digits.isEmpty then throw (if s.isEmpty then .short else .invalid)
    set (s.drop digits.length)
    let nine := (digits ++ List.replicate 9 '0').take 9
    return nine.foldl (fun n c => 10 * n + (c.toNat - '0'.toNat)) 0
  | _ => return 0

def twoDigits : Parser Nat := do
  match ← get with
  | a :: b :: s =>
    if a.isDigit && b.isDigit then
      set s
      return 10 * (a.toNat - '0'.toNat) + (b.toNat - '0'.toNat)
    else throw .invalid
  | _ => throw .short

/-- The offset from universal time in seconds. -/
def offset : Parser Int := do
  skipSpaces
  match ← get with
  | [] => throw .short
  | c :: s =>
    if c = 'Z' ∨ c = 'z' then do set s; return 0
    else if (c :: s.take 2).map Char.toUpper = ['U', 'T', 'C'] then do set (s.drop 2); return 0
    else if c = '+' ∨ c = '-' ∨ c = '−' then do
      set s
      let hours ← twoDigits
      modify (·.dropWhile fun c => c = ':' || isSpace c)
      let minutes ← twoDigits
      if 60 ≤ minutes then throw .outOfRange
      let total : Int := hours * 3600 + minutes * 60
      return if c = '+' then total else -total
    else throw .invalid

def parser : Parser Instant := do
  skipSpaces
  let sign ← modifyGet fun s => match s with
    | '-' :: s => (-1, s)
    | '+' :: s => (1, s)
    | s => ((1 : Int), s)
  let year ← number 4
  skipSpaces
  literal '-'
  let month ← number 2
  skipSpaces
  literal '-'
  let day ← number 2
  match ← get with
  | [] => throw .short
  | c :: s => if c = 'T' ∨ c = 't' ∨ c = ' ' then set s else throw .invalid
  let hour ← number 2
  skipSpaces
  literal ':'
  let minute ← number 2
  skipSpaces
  literal ':'
  let second ← number 2
  let nanos ← fraction
  let shift ← offset
  skipSpaces
  if !(← get).isEmpty then throw .long
  let year := sign * year
  if month = 0 ∨ 12 < month ∨ day = 0 ∨ daysInMonth year month < day ∨ 23 < hour ∨ 59 < minute
    ∨ 60 < second ∨ shift ≤ -86400 ∨ 86400 ≤ shift then
    throw .outOfRange
  let leap := if second = 60 then 1000000000 else 0
  let timeOfDay : Int := hour * 3600 + minute * 60 + (Min.min second 59 : Nat)
  return ⟨daysFromCivil year month day * 86400 + timeOfDay - shift, nanos + leap⟩

/-- The moment that a text in RFC 3339 notation names. Blanks around its parts are allowed. -/
def ofRfc3339 (s : String) : Except ParseError Instant :=
  (·.1) <$> parser.run s.toList

end Instant

end EventRouting
