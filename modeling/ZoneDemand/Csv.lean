import ZoneDemand.Text.Utf8

/-!
# Records of comma-separated fields

Octets are split into records without reading them as text.  A line feed, a
carriage return or both end a record, and lines without content are skipped.  A
quote at the start of a field opens a quoted part, in which commas and line ends
are content and two quotes stand for one; what follows the closing quote is
content again.  The end of input ends the last record, quoted or not.

A record is reported at the place where its reading begins, which is before the
blank lines that precede it.
-/

namespace ZoneDemand
namespace Csv

/-- How far reading has come: the line, from 1, and the octets consumed. -/
structure Place where
  line : Nat
  offset : Nat
deriving DecidableEq, Repr

namespace Place

def start : Place := ⟨1, 0⟩

/-- Only a line feed starts a new line. -/
def advance (p : Place) (octet : UInt8) : Place :=
  ⟨if octet = '\n'.toUInt8 then p.line + 1 else p.line, p.offset + 1⟩

end Place

structure Record where
  index : Nat
  place : Place
  fields : List Bytes
deriving DecidableEq, Repr

def isLineEnd (octet : UInt8) : Bool := octet = '\n'.toUInt8 || octet = '\r'.toUInt8

/-- Where reading stands within a field. -/
inductive Mode where
  | fieldStart
  | plain
  | quoted
  | afterQuote
deriving DecidableEq, Repr

/-- What an octet does in the midst of a record. -/
inductive Action where
  | take (next : Mode)
  | skip (next : Mode)
  | endField
  | endRecord
deriving DecidableEq, Repr

def quoteMark : UInt8 := '"'.toUInt8

def comma : UInt8 := ','.toUInt8

def action (mode : Mode) (octet : UInt8) : Action :=
  match mode with
  | .quoted => if octet = quoteMark then .skip .afterQuote else .take .quoted
  | .fieldStart =>
      if octet = quoteMark then .skip .quoted
      else if octet = comma then .endField
      else if isLineEnd octet then .endRecord
      else .take .plain
  | .plain =>
      if octet = comma then .endField
      else if isLineEnd octet then .endRecord
      else .take .plain
  | .afterQuote =>
      if octet = quoteMark then .take .quoted
      else if octet = comma then .endField
      else if isLineEnd octet then .endRecord
      else .take .plain

/-- The fields of one record, given the finished fields and the octets of the open
one, both last first; then the place after the record and the rest. -/
def scanFields (mode : Mode) (fields : List Bytes) (field : Bytes) (place : Place) :
    Bytes → List Bytes × Place × Bytes
  | [] => ((field.reverse :: fields).reverse, place, [])
  | octet :: rest =>
      match action mode octet with
      | .take next => scanFields next fields (octet :: field) (place.advance octet) rest
      | .skip next => scanFields next fields field (place.advance octet) rest
      | .endField =>
          scanFields .fieldStart (field.reverse :: fields) [] (place.advance octet) rest
      | .endRecord => ((field.reverse :: fields).reverse, place.advance octet, rest)

theorem length_scanFields_le (mode : Mode) (fields : List Bytes) (field : Bytes)
    (place : Place) (octets : Bytes) :
    (scanFields mode fields field place octets).2.2.length ≤ octets.length := by
  induction octets generalizing mode fields field place with
  | nil => simp [scanFields]
  | cons octet rest ih =>
      simp only [scanFields, List.length_cons]
      split
      · exact Nat.le_succ_of_le (ih ..)
      · exact Nat.le_succ_of_le (ih ..)
      · exact Nat.le_succ_of_le (ih ..)
      · simp

theorem length_scanFields_cons_lt (mode : Mode) (fields : List Bytes) (field : Bytes)
    (place : Place) (octet : UInt8) (rest : Bytes) :
    (scanFields mode fields field place (octet :: rest)).2.2.length <
      (octet :: rest).length := by
  simp only [scanFields, List.length_cons]
  split
  · exact Nat.lt_succ_of_le (length_scanFields_le ..)
  · exact Nat.lt_succ_of_le (length_scanFields_le ..)
  · exact Nat.lt_succ_of_le (length_scanFields_le ..)
  · simp

def skipLineEnds (place : Place) : Bytes → Place × Bytes
  | [] => (place, [])
  | octet :: rest =>
      if isLineEnd octet then skipLineEnds (place.advance octet) rest
      else (place, octet :: rest)

theorem length_skipLineEnds_le (place : Place) (octets : Bytes) :
    (skipLineEnds place octets).2.length ≤ octets.length := by
  induction octets generalizing place with
  | nil => simp [skipLineEnds]
  | cons octet rest ih =>
      simp only [skipLineEnds]
      split
      · exact Nat.le_succ_of_le (ih _)
      · simp

/-- The records of `octets`, the first with number `index` and reported at
`reported`. -/
def recordsFrom (index : Nat) (reported place : Place) (octets : Bytes) : List Record :=
  match h : skipLineEnds place octets with
  | (_, []) => []
  | (begin, octet :: rest) =>
      let scanned := scanFields .fieldStart [] [] begin (octet :: rest)
      have : scanned.2.2.length < octets.length := by
        have hskip := length_skipLineEnds_le place octets
        have hscan := length_scanFields_cons_lt .fieldStart [] [] begin octet rest
        rw [h] at hskip
        exact Nat.lt_of_lt_of_le hscan hskip
      ⟨index, reported, scanned.1⟩ :: recordsFrom (index + 1) scanned.2.1 scanned.2.1 scanned.2.2
termination_by octets.length

/-- All records; a byte-order mark at the very start is no content. -/
def records : Bytes → List Record
  | 0xEF :: 0xBB :: 0xBF :: rest => recordsFrom 0 .start ⟨1, 3⟩ rest
  | octets => recordsFrom 0 .start .start octets

/-- The texts of the fields, or the number of the first field that is not UTF-8
and the length of its longest well-formed initial part. -/
def texts : List Bytes → Except (Nat × Nat) (List String)
  | [] => .ok []
  | field :: rest =>
      match Utf8.decode field with
      | .error position => .error (0, position)
      | .ok text =>
          match texts rest with
          | .error (index, position) => .error (index + 1, position)
          | .ok others => .ok (text :: others)

end Csv
end ZoneDemand
