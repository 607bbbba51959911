import ZoneDemand.Text.Hex
import ZoneDemand.Text.Unsigned

/-!
# Reading JSON text

Readers for the pieces of a JSON value: blanks, words, strings and numbers.  A
reader takes the text that is left and answers what it read and the shorter text
after it.  A value can be malformed, end before it is complete, or be well formed
and of another type than the caller wants.
-/

namespace ZoneDemand

inductive JsonFault where
  | malformed
  | mismatch
  | premature
deriving DecidableEq, Repr

namespace Json

/-- What is left after reading, or why reading stopped. -/
abbrev Read (α : Type) := Except JsonFault (α × List Char)

def isBlankMark (c : Char) : Bool := c = ' ' || c = '\t' || c = '\n' || c = '\r'

def skipBlanks (text : List Char) : List Char := text.dropWhile isBlankMark

theorem length_skipBlanks_le (text : List Char) :
    (skipBlanks text).length ≤ text.length :=
  (List.dropWhile_suffix isBlankMark).length_le

def readWord : List Char → List Char → Except JsonFault (List Char)
  | [], text => .ok text
  | _ :: _, [] => .error .premature
  | w :: word, c :: rest => if c = w then readWord word rest else .error .malformed

theorem length_readWord_le {word text rest : List Char} (h : readWord word text = .ok rest) :
    rest.length ≤ text.length := by
  induction word generalizing text with
  | nil => simp_all [readWord]
  | cons w word ih =>
      cases text with
      | nil => simp [readWord] at h
      | cons c text =>
          simp only [readWord] at h
          split at h
          · exact Nat.le_succ_of_le (ih h)
          · simp at h

/-! ### Strings -/

/-- Four hexadecimal digits.  The text ends too early if fewer than four octets are
left. -/
def readHex (text : List Char) : Read Nat :=
  if ((text.take 4).map Char.utf8Size).foldr (· + ·) 0 < 4 then .error .premature
  else match text with
    | a :: b :: c :: d :: rest =>
        match hexValue? a, hexValue? b, hexValue? c, hexValue? d with
        | some a, some b, some c, some d => .ok (((a * 16 + b) * 16 + c) * 16 + d, rest)
        | _, _, _, _ => .error .malformed
    | _ => .error .malformed

theorem length_readHex_lt {text rest : List Char} {n : Nat} (h : readHex text = .ok (n, rest)) :
    rest.length < text.length := by
  unfold readHex at h
  grind

def shortEscape? : Char → Option Char
  | '"' => some '"'
  | '\\' => some '\\'
  | '/' => some '/'
  | 'b' => some '\x08'
  | 'f' => some '\x0c'
  | 'n' => some '\n'
  | 'r' => some '\r'
  | 't' => some '\t'
  | _ => none

def isHighSurrogate (n : Nat) : Bool := 0xD800 ≤ n && n ≤ 0xDBFF

def isLowSurrogate (n : Nat) : Bool := 0xDC00 ≤ n && n ≤ 0xDFFF

/-- The low half of a surrogate pair as an escape of its own. -/
def readLowSurrogate (high : Nat) : List Char → Read Char
  | [] => .error .premature
  | ['\\'] => .error .premature
  | '\\' :: 'u' :: rest =>
      match readHex rest with
      | .error e => .error e
      | .ok (low, rest) =>
          if isLowSurrogate low then
            .ok (Char.ofNat ((high - 0xD800) * 0x400 + (low - 0xDC00) + 0x10000), rest)
          else .error .malformed
  | _ => .error .malformed

theorem length_readLowSurrogate_lt {high : Nat} {text rest : List Char} {c : Char}
    (h : readLowSurrogate high text = .ok (c, rest)) : rest.length < text.length := by
  unfold readLowSurrogate at h
  split at h
  · simp at h
  · simp at h
  · split at h
    · simp at h
    · next hread =>
      have := length_readHex_lt hread
      split at h <;> simp at h
      obtain ⟨_, rfl⟩ := h
      simp only [List.length_cons]
      omega
  · simp at h

/-- The character of an escape, after the backslash. -/
def readEscape : List Char → Read Char
  | [] => .error .premature
  | 'u' :: rest =>
      match readHex rest with
      | .error e => .error e
      | .ok (n, rest) =>
          if isLowSurrogate n then .error .malformed
          else if isHighSurrogate n then readLowSurrogate n rest
          else .ok (Char.ofNat n, rest)
  | c :: rest =>
      match shortEscape? c with
      | some d => .ok (d, rest)
      | none => .error .malformed

theorem length_readEscape_lt {text rest : List Char} {c : Char}
    (h : readEscape text = .ok (c, rest)) : rest.length < text.length := by
  unfold readEscape at h
  split at h
  · simp at h
  · split at h
    · simp at h
    · next hread =>
      have hhex := length_readHex_lt hread
      simp only [List.length_cons]
      split at h
      · simp at h
      · split at h
        · have := length_readLowSurrogate_lt h
          omega
        · simp at h
          obtain ⟨_, rfl⟩ := h
          omega
  · split at h <;> simp at h
    obtain ⟨_, rfl⟩ := h
    simp

/-- The characters of a string, after the opening quote. -/
def readChars (text : List Char) : Read (List Char) :=
  match text with
  | [] => .error .premature
  | c :: rest =>
      if c = '"' then .ok ([], rest)
      else if c = '\\' then
        match h : readEscape rest with
        | .error e => .error e
        | .ok (d, after) =>
            have : after.length < rest.length := length_readEscape_lt h
            match readChars after with
            | .error e => .error e
            | .ok (others, after) => .ok (d :: others, after)
      else if c.toNat < 0x20 then .error .malformed
      else match readChars rest with
        | .error e => .error e
        | .ok (others, after) => .ok (c :: others, after)
termination_by text.length

theorem length_readChars_lt {text rest : List Char} {cs : List Char}
    (h : readChars text = .ok (cs, rest)) : rest.length < text.length := by
  fun_induction readChars text generalizing cs rest <;>
    grind [length_readEscape_lt]

/-- What a string that nobody wants must satisfy after a backslash: surrogates need
no partner. -/
def skipEscape : List Char → Except JsonFault (List Char)
  | [] => .error .premature
  | 'u' :: rest => (readHex rest).map Prod.snd
  | c :: rest => if (shortEscape? c).isSome then .ok rest else .error .malformed

theorem length_skipEscape_le {text rest : List Char} (h : skipEscape text = .ok rest) :
    rest.length ≤ text.length := by
  unfold skipEscape at h
  split at h
  · simp at h
  · next text =>
    cases hr : readHex text with
    | error e => simp [hr, Except.map] at h
    | ok p =>
        obtain ⟨n, after⟩ := p
        have := length_readHex_lt hr
        simp [hr, Except.map] at h
        subst h
        simp only [List.length_cons]
        omega
  · grind

/-- Skips the characters of a string, after the opening quote. -/
def skipChars (text : List Char) : Except JsonFault (List Char) :=
  match text with
  | [] => .error .premature
  | c :: rest =>
      if c = '"' then .ok rest
      else if c = '\\' then
        match h : skipEscape rest with
        | .error e => .error e
        | .ok after =>
            have : after.length ≤ rest.length := length_skipEscape_le h
            skipChars after
      else if c.toNat < 0x20 then .error .malformed
      else skipChars rest
termination_by text.length

theorem length_skipChars_lt {text rest : List Char} (h : skipChars text = .ok rest) :
    rest.length < text.length := by
  fun_induction skipChars text generalizing rest <;>
    grind [length_skipEscape_le]

/-! ### Numbers -/

/-- The digits at the front, and the rest. -/
def spanDigits : List Char → List Nat × List Char
  | [] => ([], [])
  | c :: rest =>
      match Unsigned.digit? c with
      | none => ([], c :: rest)
      | some d =>
          let (ds, after) := spanDigits rest
          (d :: ds, after)

theorem length_spanDigits_le (text : List Char) :
    (spanDigits text).2.length ≤ text.length := by
  induction text with
  | nil => simp [spanDigits]
  | cons c rest ih =>
      simp only [spanDigits]
      split
      · simp
      · exact Nat.le_succ_of_le ih

/-- Extends a 64-bit significand by digits as long as it fits; the digits that did
not fit follow. -/
def extend (significand : Nat) : List Nat → Nat × List Nat
  | [] => (significand, [])
  | d :: rest =>
      if 10 * significand + d ≤ maxCount then extend (10 * significand + d) rest
      else (significand, d :: rest)

/-- The nearest number with 53 significant bits; a tie goes to the even one. -/
def roundBinary (n : Nat) : Nat :=
  let shift := Nat.log2 n + 1 - 53
  let quotient := n >>> shift
  let remainder := n - quotient <<< shift
  let half := (1 <<< shift) / 2
  if shift = 0 then n
  else if half < remainder ∨ (remainder = half ∧ quotient % 2 = 1) then
    (quotient + 1) <<< shift
  else quotient <<< shift

/-- The number is beyond the range of binary floating point. -/
def overflows (significand : Nat) (exponent : Int) : Bool :=
  significand ≠ 0 && 0 ≤ exponent &&
    (308 < exponent ||
      Nat.pow 2 1024 - Nat.pow 2 970 ≤
        roundBinary significand * roundBinary (Nat.pow 10 exponent.toNat))

/-- The exponent after its mark: an optional sign and at least one digit. -/
def readExponent (text : List Char) : Read Int :=
  let (negative, text) := match text with
    | '+' :: rest => (false, rest)
    | '-' :: rest => (true, rest)
    | _ => (false, text)
  match text, spanDigits text with
  | [], _ => .error .premature
  | _, ([], _) => .error .malformed
  | _, (digits, rest) =>
      let n : Nat := digits.foldl (fun n d => 10 * n + d) 0
      .ok (if negative then -(n : Int) else n, rest)

/-- The end of a number that has no more than an exponent. -/
def readScale (significand : Nat) (exponent : Int) (text : List Char) : Read (Option Nat) :=
  match text with
  | c :: rest =>
      if c = 'e' ∨ c = 'E' then
        match readExponent rest with
        | .error e => .error e
        | .ok (more, after) =>
            if overflows significand (exponent + more) then .error .malformed
            else .ok (none, after)
      else if overflows significand exponent then .error .malformed
      else .ok (none, c :: rest)
  | [] => if overflows significand exponent then .error .malformed else .ok (none, [])

/-- The end of a number after its point, of which at least one digit follows. -/
def readFraction (significand exponent : Nat) (text : List Char) : Read (Option Nat) :=
  match text, spanDigits text with
  | [], _ => .error .premature
  | _, ([], _) => .error .malformed
  | _, (places, rest) =>
      let (longer, ignored) := extend significand places
      readScale longer (exponent - (places.length - ignored.length : Nat)) rest

/-- The end of a number after the digits before its point: a significand and the
number of digits that did not fit it. -/
def readTail (negative : Bool) (significand left : Nat) : List Char → Read (Option Nat)
  | '.' :: rest => readFraction significand left rest
  | c :: rest =>
      if c ≠ 'e' ∧ c ≠ 'E' ∧ left = 0 ∧ !negative then .ok (some significand, c :: rest)
      else readScale significand left (c :: rest)
  | [] =>
      if left = 0 ∧ !negative then .ok (some significand, [])
      else readScale significand left []

/-- A number after its sign.  Only a zero that stands alone may come first. -/
def readMagnitude (negative : Bool) (text : List Char) : Read (Option Nat) :=
  match text, spanDigits text with
  | [], _ => .error .premature
  | _, ([], _) => .error .malformed
  | _, (0 :: _ :: _, _) => .error .malformed
  | _, (digits, rest) =>
      let (significand, left) := extend 0 digits
      readTail negative significand left.length rest

/-- A number: its value if it is an unsigned 64-bit integer, `none` for any other.
A number beyond the range of binary floating point is malformed. -/
def readNumber : List Char → Read (Option Nat)
  | '-' :: rest => readMagnitude true rest
  | text => readMagnitude false text

def skipDigits (text : List Char) : Except JsonFault (List Char) :=
  match spanDigits text with
  | ([], _) => .error .malformed
  | (_, rest) => .ok rest

def dropSign : List Char → List Char
  | '+' :: rest => rest
  | '-' :: rest => rest
  | text => text

/-- Skips the end of a number that has no more than an exponent. -/
def skipScale : List Char → Except JsonFault (List Char)
  | [] => .ok []
  | c :: rest => if c = 'e' ∨ c = 'E' then skipDigits (dropSign rest) else .ok (c :: rest)

/-- Skips a number that nobody wants, of whatever size, after its minus sign. -/
def skipNumber (text : List Char) : Except JsonFault (List Char) :=
  match spanDigits text with
  | ([], _) => .error .malformed
  | (0 :: _ :: _, _) => .error .malformed
  | (_, '.' :: fraction) =>
      match skipDigits fraction with
      | .error e => .error e
      | .ok rest => skipScale rest
  | (_, rest) => skipScale rest

end Json
end ZoneDemand
