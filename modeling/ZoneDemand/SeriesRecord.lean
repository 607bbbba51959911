import ZoneDemand.Instant.Text
import ZoneDemand.Series
import ZoneDemand.Text.Utf8

/-!
# Records of a dataset file

A dataset file holds one record per line, a JSON object with the start of a series
as text, its counts, and its category in a list of its own if categories are
wanted.
-/

namespace ZoneDemand

structure SeriesRecord where
  start : String
  target : List UInt64
  cat : Option (List UInt32)
deriving DecidableEq, Repr

namespace SeriesRecord

def ofSeries (s : Series) (category : Option UInt32) : SeriesRecord where
  start := s.start.format
  target := s.counts
  cat := category.map fun c => [c]

/-- Control characters have a letter of their own or four hexadecimal digits. -/
def escapeChar (c : Char) : List Char :=
  if c = '"' then ['\\', '"']
  else if c = '\\' then ['\\', '\\']
  else if c = '\x08' then ['\\', 'b']
  else if c = '\x0c' then ['\\', 'f']
  else if c = '\n' then ['\\', 'n']
  else if c = '\r' then ['\\', 'r']
  else if c = '\t' then ['\\', 't']
  else if c.toNat < 0x20 then
    ['\\', 'u'] ++ (Nat.toDigits 16 c.toNat).leftpad 4 '0'
  else [c]

def stringChars (text : String) : List Char :=
  '"' :: text.toList.flatMap escapeChar ++ ['"']

def numberChars (n : Nat) : List Char := Nat.toDigits 10 n

def listChars (numbers : List Nat) : List Char :=
  '[' :: List.intercalate [','] (numbers.map numberChars) ++ [']']

def toChars (r : SeriesRecord) : List Char :=
  '\x7b' :: stringChars "start" ++ ':' :: stringChars r.start ++
    ',' :: stringChars "target" ++ ':' :: listChars (r.target.map UInt64.toNat) ++
    (match r.cat with
      | none => []
      | some cat => ',' :: stringChars "cat" ++ ':' :: listChars (cat.map UInt32.toNat)) ++
    ['\x7d']

/-- The line of the record, without a line end. -/
def encode (r : SeriesRecord) : String := String.ofList r.toChars

end SeriesRecord

/-- The records of a list of series; with categories, the category of a series is
its position as a 32-bit number. -/
def seriesRecords (categories : Bool) (series : List Series) : List SeriesRecord :=
  series.mapIdx fun i s =>
    SeriesRecord.ofSeries s (if categories then some (UInt32.ofNat i) else none)

def recordLines (categories : Bool) (series : List Series) : List String :=
  (seriesRecords categories series).map SeriesRecord.encode

end ZoneDemand
