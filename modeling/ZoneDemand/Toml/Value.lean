import ZoneDemand.Toml.Number
import ZoneDemand.Toml.Table

/-!
# Reading TOML values

Keys, and values of every kind.  Lists and inline tables may be nested, but not
without limit; the limit is also why reading a value ends.
-/

namespace ZoneDemand
namespace Toml

/-! ### Keys -/

def isBare (c : Char) : Bool := c.isAlphanum || c = '_' || c = '-'

def readBare : List Char → Read String
  | [] => none
  | c :: rest =>
      if isBare c then
        some (String.ofList (c :: rest.takeWhile isBare), rest.dropWhile isBare)
      else none

theorem length_readBare_lt {text rest : List Char} {name : String}
    (h : readBare text = some (name, rest)) : rest.length < text.length := by
  unfold readBare at h
  split at h
  · simp at h
  · next c tail =>
    split at h
    · simp at h
      rw [← h.2]
      exact Nat.lt_succ_of_le (List.dropWhile_suffix isBare).length_le
    · simp at h

/-- One key of a dotted key, with the blanks around it. -/
def readName (text : List Char) : Read String :=
  let quoted := match readLine (skipBlanks text) with
    | some (cs, rest) => some (String.ofList cs, rest)
    | none => readBare (skipBlanks text)
  match quoted with
  | some (name, rest) => some (name, skipBlanks rest)
  | none => none

theorem length_readName_lt {text rest : List Char} {name : String}
    (h : readName text = some (name, rest)) : rest.length < text.length := by
  unfold readName at h
  grind [→ length_readLine_lt, → length_readBare_lt, length_skipBlanks_le]

def readNames (text : List Char) : Read (List String) :=
  match h : readName text with
  | none => none
  | some (name, '.' :: more) =>
      have := length_readName_lt h
      .prepend name (readNames more)
  | some (name, rest) => some ([name], rest)
termination_by text.length
decreasing_by simp only [List.length_cons] at *; omega

theorem length_readNames_lt {text rest : List Char} {names : List String}
    (h : readNames text = some (names, rest)) : rest.length < text.length := by
  fun_induction readNames text generalizing names rest <;>
    grind [→ Read.of_prepend, → length_readName_lt]

/-- The number of keys in a dotted key stays below this. -/
def keyLimit : Nat := 80

/-- A key, with the blanks around it. -/
def readKey (text : List Char) : Read Key :=
  match readNames text with
  | none => none
  | some (names, rest) =>
      match names.getLast? with
      | some name => if names.length < keyLimit then some (⟨names.dropLast, name⟩, rest) else none
      | none => none

theorem length_readKey_lt {text rest : List Char} {key : Key}
    (h : readKey text = some (key, rest)) : rest.length < text.length := by
  unfold readKey at h
  grind [→ length_readNames_lt]

/-! ### Values -/

structure Reader (α : Type) where
  read : List Char → Read α
  shortens : ∀ {text rest value}, read text = some (value, rest) → rest.length < text.length

/-- A key, an equals sign and a value. -/
def readAssignment (value : Reader Toml) (text : List Char) : Read (Key × Toml) :=
  match readKey text with
  | some (key, '=' :: rest) =>
      match value.read (skipBlanks rest) with
      | some (v, after) => some ((key, v), after)
      | none => none
  | _ => none

theorem length_readAssignment_lt {value : Reader Toml} {text rest : List Char}
    {assignment : Key × Toml} (h : readAssignment value text = some (assignment, rest)) :
    rest.length < text.length := by
  unfold readAssignment at h
  split at h
  · next key tail hkey =>
    have h1 := length_readKey_lt hkey
    split at h
    · next hvalue =>
      have h2 := value.shortens hvalue
      have h3 := length_skipBlanks_le tail
      simp at h
      rw [← h.2]
      simp only [List.length_cons] at h1
      omega
    · simp at h
  · simp at h

/-- The items of a list, after its bracket.  A comma may follow the last one. -/
def readItems (item : Reader Toml) (text : List Char) : Read (List Toml) :=
  match hgap : skipGaps true text with
  | [] => none
  | c :: rest =>
      if c = ']' then some ([], rest)
      else match hitem : item.read (c :: rest) with
        | none => none
        | some (value, after) =>
            match hnext : skipGaps true after with
            | ',' :: left =>
                have : left.length < text.length := by
                  have h1 := length_skipGaps_le true text
                  have h2 := length_skipGaps_le true after
                  have h3 := item.shortens hitem
                  rw [hgap] at h1
                  rw [hnext] at h2
                  simp only [List.length_cons] at *
                  omega
                .prepend value (readItems item left)
            | ']' :: left => some ([value], left)
            | _ => none
termination_by text.length

theorem length_readItems_lt {item : Reader Toml} {text rest : List Char} {items : List Toml}
    (h : readItems item text = some (items, rest)) : rest.length < text.length := by
  fun_induction readItems item text generalizing items rest
  all_goals grind [→ Read.of_prepend, length_skipGaps_le, → Reader.shortens]

/-- The assignments in an inline table that has at least one. -/
def readMembers (value : Reader Toml) (text : List Char) : Read (List (Key × Toml)) :=
  match h : readAssignment value text with
  | none => none
  | some (assignment, rest) =>
      match hnext : skipBlanks rest with
      | ',' :: left =>
          have : left.length < text.length := by
            have h1 := length_readAssignment_lt h
            have h2 := length_skipBlanks_le rest
            rw [hnext] at h2
            simp only [List.length_cons] at h2
            omega
          .prepend assignment (readMembers value left)
      | '\x7d' :: left => some ([assignment], left)
      | _ => none
termination_by text.length

theorem length_readMembers_lt {value : Reader Toml} {text rest : List Char}
    {members : List (Key × Toml)} (h : readMembers value text = some (members, rest)) :
    rest.length < text.length := by
  fun_induction readMembers value text generalizing members rest <;>
    grind [→ Read.of_prepend, → length_readAssignment_lt, length_skipBlanks_le]

/-- An inline table, after its brace. -/
def readInline (value : Reader Toml) (text : List Char) : Read Toml :=
  match skipBlanks text with
  | '\x7d' :: rest => some (.table .braces [], rest)
  | _ =>
      match readMembers value text with
      | none => none
      | some (members, rest) =>
          match assignAll true [] members with
          | some entries => some (.table .braces entries, rest)
          | none => none

theorem length_readInline_le {value : Reader Toml} {text rest : List Char} {v : Toml}
    (h : readInline value text = some (v, rest)) : rest.length ≤ text.length := by
  have := length_skipBlanks_le text
  unfold readInline at h
  grind [→ length_readMembers_lt]

def readScalarValue (text : List Char) : Read Toml :=
  match readString text with
  | some (cs, rest) => some (.string (String.ofList cs), rest)
  | none =>
      match afterWord? ['t', 'r', 'u', 'e'] text, afterWord? ['f', 'a', 'l', 's', 'e'] text with
      | some rest, _ => some (.boolean true, rest)
      | none, some rest => some (.boolean false, rest)
      | none, none => readNumber text

theorem length_readScalarValue_lt {text rest : List Char} {v : Toml}
    (h : readScalarValue text = some (v, rest)) : rest.length < text.length := by
  unfold readScalarValue at h
  split at h
  · next hstring =>
    simp at h
    exact h.2 ▸ length_readString_lt hstring
  · split at h
    · next hword =>
      simp at h
      exact h.2 ▸ length_afterWord_lt (by simp) hword
    · next hword =>
      simp at h
      exact h.2 ▸ length_afterWord_lt (by simp) hword
    · exact length_readNumber_lt h

def readParts (part : Reader Toml) (text : List Char) : Read Toml :=
  match text with
  | '[' :: rest =>
      match readItems part rest with
      | some (items, after) => some (.list items, after)
      | none => none
  | '\x7b' :: rest => readInline part rest
  | _ => readScalarValue text

theorem length_readParts_lt {part : Reader Toml} {text rest : List Char} {v : Toml}
    (h : readParts part text = some (v, rest)) : rest.length < text.length := by
  unfold readParts at h
  grind [→ length_readItems_lt, → length_readInline_le, → length_readScalarValue_lt]

/-- Reads values in which at most so many lists and inline tables are nested. -/
def valueReader : Nat → Reader Toml
  | 0 => ⟨readScalarValue, length_readScalarValue_lt⟩
  | depth + 1 => ⟨readParts (valueReader depth), length_readParts_lt⟩

def nestingLimit : Nat := 79

def value : Reader Toml := valueReader nestingLimit

end Toml
end ZoneDemand
