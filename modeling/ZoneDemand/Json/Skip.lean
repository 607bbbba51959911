import ZoneDemand.Json.Scan

/-!
# Skipping JSON values

A value that nobody wants is read past without being built.  The only memory is
the stack of lists and objects that are open, so nesting is not limited.
-/

namespace ZoneDemand
namespace Json

theorem length_lt_of_spanDigits {text rest : List Char} {d : Nat} {digits : List Nat}
    (h : spanDigits text = (d :: digits, rest)) : rest.length < text.length := by
  cases text with
  | nil => simp [spanDigits] at h
  | cons c text =>
      simp only [spanDigits] at h
      split at h
      · simp at h
      · have hle := length_spanDigits_le text
        simp only [Prod.mk.injEq] at h
        rw [h.2] at hle
        exact Nat.lt_succ_of_le hle

theorem length_skipDigits_lt {text rest : List Char} (h : skipDigits text = .ok rest) :
    rest.length < text.length := by
  unfold skipDigits at h
  split at h
  · simp at h
  · next digits after hne hspan =>
    cases digits with
    | nil => exact absurd rfl hne
    | cons d digits =>
        injection h with h
        subst h
        exact length_lt_of_spanDigits hspan

theorem length_dropSign_le (text : List Char) : (dropSign text).length ≤ text.length := by
  unfold dropSign
  split <;> simp

theorem length_skipScale_le {text rest : List Char} (h : skipScale text = .ok rest) :
    rest.length ≤ text.length := by
  unfold skipScale at h
  split at h
  · simp at h
    simp [h]
  · next c text =>
    split at h
    · have hdigits := length_skipDigits_lt h
      have hsign := length_dropSign_le text
      simp only [List.length_cons]
      omega
    · simp at h
      simp [← h]

theorem length_skipNumber_lt {text rest : List Char} (h : skipNumber text = .ok rest) :
    rest.length < text.length := by
  unfold skipNumber at h
  split at h
  · simp at h
  · simp at h
  · next digits fraction hne _ hspan =>
    cases digits with
    | nil => exact absurd rfl hne
    | cons d digits =>
        have hlt := length_lt_of_spanDigits hspan
        simp only [List.length_cons] at hlt
        split at h
        · simp at h
        · next after hdigits =>
          have h1 := length_skipDigits_lt hdigits
          have h2 := length_skipScale_le h
          omega
  · next digits after hne _ _ hspan =>
    cases digits with
    | nil => exact absurd rfl hne
    | cons d digits =>
        have hlt := length_lt_of_spanDigits hspan
        have hle := length_skipScale_le h
        omega

/-- Skips a value without parts, whose first character has been read. -/
def skipScalar (first : Char) (rest : List Char) : Except JsonFault (List Char) :=
  if first = 'n' then readWord ['u', 'l', 'l'] rest
  else if first = 't' then readWord ['r', 'u', 'e'] rest
  else if first = 'f' then readWord ['a', 'l', 's', 'e'] rest
  else if first = '"' then skipChars rest
  else if first = '-' then skipNumber rest
  else if first.isDigit then skipNumber (first :: rest)
  else .error .malformed

theorem length_skipScalar_le {first : Char} {rest after : List Char}
    (h : skipScalar first rest = .ok after) : after.length ≤ rest.length := by
  unfold skipScalar at h
  split at h
  · exact length_readWord_le h
  split at h
  · exact length_readWord_le h
  split at h
  · exact length_readWord_le h
  split at h
  · exact Nat.le_of_lt (length_skipChars_lt h)
  split at h
  · exact Nat.le_of_lt (length_skipNumber_lt h)
  split at h
  · exact Nat.le_of_lt_succ (length_skipNumber_lt h)
  · simp at h

inductive Expect where
  /-- A value. -/
  | value
  /-- The first content of a list or object just opened, or its end. -/
  | content
  /-- A comma, or the end of the innermost list or object. -/
  | more
  /-- A key and its value. -/
  | member
deriving DecidableEq, Repr

namespace Expect

/-- A step that reads nothing is followed by one that does. -/
def rank : Expect → Nat
  | .content => 1
  | _ => 0

def part (object : Bool) : Expect := if object then .member else .value

@[simp] theorem rank_part (object : Bool) : (part object).rank = 0 := by
  cases object <;> rfl

end Expect

/-- Skips one value, given what may come next and, innermost first, the objects
(`true`) and lists (`false`) that are open. -/
def skip (expect : Expect) (stack : List Bool) (text : List Char) :
    Except JsonFault (List Char) :=
  match h : skipBlanks text with
  | [] => .error .premature
  | c :: rest =>
      have hlt : rest.length < text.length := by
        have := length_skipBlanks_le text
        rw [h] at this
        exact this
      match expect, stack with
      | .value, stack =>
          if c = '[' then skip .content (false :: stack) rest
          else if c = '\x7b' then skip .content (true :: stack) rest
          else match hs : skipScalar c rest with
            | .error e => .error e
            | .ok after =>
                have := length_skipScalar_le hs
                if stack = [] then .ok after else skip .more stack after
      | .content, object :: outer =>
          if c = (if object then '\x7d' else ']') then
            if outer = [] then .ok rest else skip .more outer rest
          else skip (.part object) (object :: outer) (c :: rest)
      | .more, object :: outer =>
          if c = ',' then skip (.part object) (object :: outer) rest
          else if c = (if object then '\x7d' else ']') then
            if outer = [] then .ok rest else skip .more outer rest
          else .error .malformed
      | .member, stack =>
          if c = '"' then
            match hk : skipChars rest with
            | .error e => .error e
            | .ok after =>
                have := length_skipChars_lt hk
                match hc : skipBlanks after with
                | [] => .error .premature
                | mark :: value =>
                    have : (mark :: value).length ≤ after.length := hc ▸ length_skipBlanks_le after
                    if mark = ':' then skip .value stack value else .error .malformed
          else .error .malformed
      | _, [] => .error .malformed
termination_by 2 * text.length + expect.rank
decreasing_by
  all_goals
    have : (c :: rest).length ≤ text.length := h ▸ length_skipBlanks_le text
    simp only [List.length_cons, Expect.rank_part] at *
    try simp only [Expect.rank] at *
    omega

theorem length_skip_lt {expect : Expect} {stack : List Bool} {text rest : List Char}
    (h : skip expect stack text = .ok rest) : rest.length < text.length := by
  fun_induction skip expect stack text generalizing rest
  all_goals grind [length_skipScalar_le, length_skipChars_lt, length_skipBlanks_le]

end Json
end ZoneDemand
