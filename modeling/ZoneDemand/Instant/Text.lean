import ZoneDemand.Instant
import ZoneDemand.Text.Blank
import ZoneDemand.Text.Unsigned

/-!
# Timestamps as text

A timestamp is written `YYYY-MM-DD hh:mm:ss`.  Reading is more liberal than
writing: every number may follow blanks and have fewer digits, the year may have
a sign and then any number of digits, and blanks between date and time may be
missing.  A number outside its field's range is refused where it stands; whether
the date exists is decided after the whole text has been read.
-/

namespace ZoneDemand

inductive TimestampError where
  | premature
  | invalid
  | outOfRange
  | trailing
deriving DecidableEq, Repr

def TimestampError.message : TimestampError → String
  | .premature => "premature end of input"
  | .invalid => "input contains invalid characters"
  | .outOfRange => "input is out of range"
  | .trailing => "trailing input"

namespace Timestamp

/-- At most `width` digits from the front, and the rest. -/
def splitDigits : Nat → List Char → List Nat × List Char
  | 0, text => ([], text)
  | _ + 1, [] => ([], [])
  | width + 1, c :: rest =>
      match Unsigned.digit? c with
      | none => ([], c :: rest)
      | some d =>
          let (ds, tail) := splitDigits width rest
          (d :: ds, tail)

def digitsValue (digits : List Nat) : Nat := digits.foldl (fun n d => 10 * n + d) 0

/-- One to `width` digits. -/
def scanNumber (width : Nat) (text : List Char) :
    Except TimestampError (Nat × List Char) :=
  match splitDigits width text with
  | ([], []) => .error .premature
  | ([], _) => .error .invalid
  | (digits, rest) => .ok (digitsValue digits, rest)

/-- The year: four digits at most, or a sign and any number of them. -/
def scanYear (text : List Char) : Except TimestampError (Int × List Char) := do
  let (year, rest) ← match skipBlank text with
    | '-' :: digits => do
        let (n, rest) ← scanNumber digits.length.succ digits
        pure (-(n : Int), rest)
    | '+' :: digits => do
        let (n, rest) ← scanNumber digits.length.succ digits
        pure ((n : Int), rest)
    | digits => do
        let (n, rest) ← scanNumber 4 digits
        pure ((n : Int), rest)
  if -2147483648 ≤ year ∧ year ≤ 2147483647 then pure (year, rest)
  else throw .outOfRange

/-- A field of one or two digits with a value from `low` to `high`. -/
def scanField (low high : Nat) (text : List Char) :
    Except TimestampError (Nat × List Char) := do
  let (n, rest) ← scanNumber 2 (skipBlank text)
  if low ≤ n ∧ n ≤ high then pure (n, rest) else throw .outOfRange

def scanMark (mark : Char) : List Char → Except TimestampError (List Char)
  | [] => .error .premature
  | c :: rest => if c = mark then .ok rest else .error .invalid

/-- The instant with that date and time of day; second 60 is the leap second. -/
def instant? (date : Date) (hour minute second : Nat) : Option Instant :=
  if date.Valid then
    let count := Instant.daySeconds * date.dayNumber + 3600 * hour + 60 * minute
    if second = 60 then Instant.leapAfter? (count + 59)
    else Instant.ofSeconds? (count + second)
  else none

def parseChars (text : List Char) : Except TimestampError Instant := do
  let (year, text) ← scanYear text
  let text ← scanMark '-' text
  let (month, text) ← scanField 1 12 text
  let text ← scanMark '-' text
  let (day, text) ← scanField 1 31 text
  let (hour, text) ← scanField 0 23 text
  let text ← scanMark ':' text
  let (minute, text) ← scanField 0 59 text
  let text ← scanMark ':' text
  let (second, text) ← scanField 0 60 text
  if text.isEmpty then
    match instant? ⟨year, month, day⟩ hour minute second with
    | some t => pure t
    | none => throw .outOfRange
  else throw .trailing

/-- Decimal digits with zeros in front up to `width`. -/
def padded (width n : Nat) : List Char := (Nat.toDigits 10 n).leftpad width '0'

/-- Years of four digits stand alone, others carry a sign. -/
def yearChars (year : Int) : List Char :=
  if 0 ≤ year ∧ year ≤ 9999 then padded 4 year.toNat
  else (if year < 0 then '-' else '+') :: padded 4 year.natAbs

end Timestamp

namespace Instant

def parse (text : String) : Except TimestampError Instant := Timestamp.parseChars text.toList

def toChars (t : Instant) : List Char :=
  let date := t.date
  let time := t.timeOfDay.toNat
  let second := time % 60 + if t.leap then 1 else 0
  Timestamp.yearChars date.year ++ ['-'] ++ Timestamp.padded 2 date.month ++ ['-'] ++
    Timestamp.padded 2 date.day ++ [' '] ++ Timestamp.padded 2 (time / 3600) ++ [':'] ++
    Timestamp.padded 2 (time / 60 % 60) ++ [':'] ++ Timestamp.padded 2 second

def format (t : Instant) : String := String.ofList t.toChars

end Instant
end ZoneDemand
