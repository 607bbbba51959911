/-!
# Unsigned decimal numbers

An unsigned number is an optional `+` and at least one decimal digit, nothing
else, and its value does not exceed a limit.  A value above the limit is told
from a malformed text only at the digit where the value leaves the range, so a
malformed character before that digit decides the error.
-/

namespace ZoneDemand

inductive UnsignedError where
  | empty
  | invalidDigit
  | tooLarge
deriving DecidableEq, Repr

def UnsignedError.message : UnsignedError → String
  | .empty => "cannot parse integer from empty string"
  | .invalidDigit => "invalid digit found in string"
  | .tooLarge => "number too large to fit in target type"

namespace Unsigned

def digit? (c : Char) : Option Nat :=
  if '0' ≤ c ∧ c ≤ '9' then some (c.toNat - '0'.toNat) else none

/-- Reads the digits after those that gave `value`. -/
def digits (limit value : Nat) : List Char → Except UnsignedError Nat
  | [] => .ok value
  | c :: rest =>
      match digit? c with
      | none => .error .invalidDigit
      | some d =>
          if 10 * value + d ≤ limit then digits limit (10 * value + d) rest
          else .error .tooLarge

def parseChars (limit : Nat) : List Char → Except UnsignedError Nat
  | [] => .error .empty
  | ['+'] => .error .invalidDigit
  | '+' :: rest => digits limit 0 rest
  | text => digits limit 0 text

end Unsigned

/-- The largest 64-bit number, the bound of every count. -/
def maxCount : Nat := 18446744073709551615

def parseUnsigned (limit : Nat) (text : String) : Except UnsignedError Nat :=
  Unsigned.parseChars limit text.toList

/-- A 64-bit unsigned number. -/
def parseCount (text : String) : Except UnsignedError UInt64 :=
  (parseUnsigned maxCount text).map UInt64.ofNat

end ZoneDemand
