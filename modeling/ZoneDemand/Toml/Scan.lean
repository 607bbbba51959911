import ZoneDemand.Text.Hex
import ZoneDemand.Toml

/-!
# Blanks, comments and strings of TOML

Readers for the pieces between and below values.  A line ends in a line feed, which
a carriage return may precede.  A string of several lines has a line feed for every
line end.
-/

namespace ZoneDemand
namespace Toml

/-- A character that comments and strings may hold as it is. -/
def isPlain (c : Char) : Bool := c = '\t' || (0x20 ≤ c.toNat && c.toNat ≠ 0x7F)

def isBlankMark (c : Char) : Bool := c = ' ' || c = '\t'

def skipBlanks (text : List Char) : List Char := text.dropWhile isBlankMark

theorem length_skipBlanks_le (text : List Char) : (skipBlanks text).length ≤ text.length :=
  (List.dropWhile_suffix isBlankMark).length_le

def skipComment : List Char → List Char
  | '#' :: rest => rest.dropWhile isPlain
  | text => text

theorem length_skipComment_le (text : List Char) : (skipComment text).length ≤ text.length := by
  unfold skipComment
  split
  · exact Nat.le_succ_of_le (List.dropWhile_suffix isPlain).length_le
  · exact Nat.le_refl _

def afterNewline? : List Char → Option (List Char)
  | '\n' :: rest => some rest
  | '\r' :: '\n' :: rest => some rest
  | _ => none

theorem length_afterNewline_lt {text rest : List Char} (h : afterNewline? text = some rest) :
    rest.length < text.length := by
  unfold afterNewline? at h
  split at h <;> simp at h <;> subst h <;> simp only [List.length_cons] <;> omega

/-- The text after the rest of a line that holds no more than a comment. -/
def afterLine? (text : List Char) : Option (List Char) :=
  match skipComment (skipBlanks text) with
  | [] => some []
  | c :: rest => afterNewline? (c :: rest)

theorem length_afterLine_le {text rest : List Char} (h : afterLine? text = some rest) :
    rest.length ≤ text.length := by
  have h1 := length_skipComment_le (skipBlanks text)
  have h2 := length_skipBlanks_le text
  unfold afterLine? at h
  split at h
  · simp at h
    simp [h]
  · next heq =>
    have h3 := length_afterNewline_lt h
    rw [heq] at h1
    omega

/-- Skips blanks and line ends, and comments if they are allowed. -/
def skipGaps (comments : Bool) (text : List Char) : List Char :=
  let line := skipBlanks text
  match h : afterNewline? (if comments then skipComment line else line) with
  | some rest =>
      have : rest.length < text.length := by
        have h1 := length_afterNewline_lt h
        have h2 : line.length ≤ text.length := length_skipBlanks_le text
        have h3 := length_skipComment_le line
        split at h1 <;> omega
      skipGaps comments rest
  | none => line
termination_by text.length

theorem length_skipGaps_le (comments : Bool) (text : List Char) :
    (skipGaps comments text).length ≤ text.length := by
  fun_induction skipGaps comments text with
  | case1 => omega
  | case2 text line => exact length_skipBlanks_le text

/-! ### Strings -/

def hexNumber? (digits : List Char) : Option Nat :=
  digits.foldlM (fun n c => (hexValue? c).map fun d => 16 * n + d) 0

/-- The character with the number that the next digits give. -/
def readScalar (digits : Nat) (text : List Char) : Read Char :=
  match hexNumber? (text.take digits) with
  | some n =>
      if digits ≤ text.length ∧ n.isValidChar then some (Char.ofNat n, text.drop digits)
      else none
  | none => none

/-- The character of an escape, after the backslash. -/
def readEscape : List Char → Read Char
  | 'b' :: rest => some ('\x08', rest)
  | 't' :: rest => some ('\t', rest)
  | 'n' :: rest => some ('\n', rest)
  | 'f' :: rest => some ('\x0c', rest)
  | 'r' :: rest => some ('\r', rest)
  | '"' :: rest => some ('"', rest)
  | '\\' :: rest => some ('\\', rest)
  | 'u' :: rest => readScalar 4 rest
  | 'U' :: rest => readScalar 8 rest
  | _ => none

theorem length_readEscape_lt {text rest : List Char} {c : Char}
    (h : readEscape text = some (c, rest)) : rest.length < text.length := by
  unfold readEscape readScalar at h
  grind

/-- A string in double quotes, after the opening one. -/
def readBasic (text : List Char) : Read (List Char) :=
  match text with
  | [] => none
  | c :: rest =>
      if c = '"' then some ([], rest)
      else if c = '\\' then
        match h : readEscape rest with
        | none => none
        | some (d, after) =>
            have := length_readEscape_lt h
            .prepend d (readBasic after)
      else if isPlain c then .prepend c (readBasic rest)
      else none
termination_by text.length

theorem length_readBasic_lt {text rest cs : List Char}
    (h : readBasic text = some (cs, rest)) : rest.length < text.length := by
  fun_induction readBasic text generalizing cs rest <;>
    grind [→ Read.of_prepend, length_readEscape_lt]

/-- A string in single quotes, after the opening one. -/
def readLiteral : List Char → Read (List Char)
  | [] => none
  | c :: rest =>
      if c = '\'' then some ([], rest)
      else if isPlain c then .prepend c (readLiteral rest)
      else none

theorem length_readLiteral_lt {text rest cs : List Char}
    (h : readLiteral text = some (cs, rest)) : rest.length < text.length := by
  fun_induction readLiteral text generalizing cs rest <;> grind [→ Read.of_prepend]

/-- The end of a string of several lines: the quotes after its first three closing
ones, of which it may hold two. -/
def closeLines (quote : Char) (text : List Char) : Read (List Char) :=
  let extra := text.takeWhile (· = quote)
  if extra.length ≤ 2 then some (extra, text.drop extra.length) else none

theorem length_closeLines_le {quote : Char} {text rest cs : List Char}
    (h : closeLines quote text = some (cs, rest)) : rest.length ≤ text.length := by
  unfold closeLines at h
  grind

/-- A string of several lines, after the three opening quotes and a line end that
follows these.  Between double quotes a backslash begins an escape, or hides a line
end and all blanks and line ends after it. -/
def readLines (quote : Char) (text : List Char) : Read (List Char) :=
  match text with
  | [] => none
  | c :: rest =>
      if c = quote ∧ rest.take 2 = [quote, quote] then closeLines quote (rest.drop 2)
      else if c = '\\' ∧ quote = '"' then
        match h : afterNewline? (skipBlanks rest) with
        | some after =>
            have : (skipGaps false after).length < rest.length := by
              have := length_afterNewline_lt h
              have := length_skipBlanks_le rest
              have := length_skipGaps_le false after
              omega
            readLines quote (skipGaps false after)
        | none =>
            match h : readEscape rest with
            | none => none
            | some (d, after) =>
                have := length_readEscape_lt h
                .prepend d (readLines quote after)
      else
        match h : afterNewline? (c :: rest) with
        | some after =>
            have := length_afterNewline_lt h
            .prepend '\n' (readLines quote after)
        | none =>
            if isPlain c then .prepend c (readLines quote rest)
            else none
termination_by text.length
decreasing_by all_goals simp only [List.length_cons] at *; omega

theorem length_readLines_lt {quote : Char} {text rest cs : List Char}
    (h : readLines quote text = some (cs, rest)) : rest.length < text.length := by
  fun_induction readLines quote text generalizing cs rest <;>
    grind [→ Read.of_prepend, → length_readEscape_lt, → length_closeLines_le,
      length_afterNewline_lt, List.length_drop, length_skipBlanks_le, length_skipGaps_le]

/-- A string of one line, as it may stand for a key or a value. -/
def readLine : List Char → Read (List Char)
  | '"' :: rest => readBasic rest
  | '\'' :: rest => readLiteral rest
  | _ => none

theorem length_readLine_lt {text rest cs : List Char}
    (h : readLine text = some (cs, rest)) : rest.length < text.length := by
  unfold readLine at h
  grind [→ length_readBasic_lt, → length_readLiteral_lt]

def readString (text : List Char) : Read (List Char) :=
  let afterOpening := fun (rest : List Char) => (afterNewline? rest).getD rest
  match text with
  | '"' :: '"' :: '"' :: rest => readLines '"' (afterOpening rest)
  | '\'' :: '\'' :: '\'' :: rest => readLines '\'' (afterOpening rest)
  | _ => readLine text

theorem length_afterNewline_getD_le (text : List Char) :
    ((afterNewline? text).getD text).length ≤ text.length := by
  cases h : afterNewline? text with
  | none => simp
  | some rest => exact Nat.le_of_lt (length_afterNewline_lt h)

theorem length_readString_lt {text rest cs : List Char}
    (h : readString text = some (cs, rest)) : rest.length < text.length := by
  unfold readString at h
  grind [→ length_readLines_lt, → length_readLine_lt, length_afterNewline_getD_le]

end Toml
end ZoneDemand
