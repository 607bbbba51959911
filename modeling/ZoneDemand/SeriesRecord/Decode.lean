import ZoneDemand.Json.Skip
import ZoneDemand.SeriesRecord

/-!
# Reading records of a dataset file

A record is an object with the members `start`, `target` and optionally `cat`, in
any order and among members of other names, which are skipped; or a list of these
two or three values in this order.  No member of the three may come twice.  A
category list may be `null`, which stands for none.
-/

namespace ZoneDemand
namespace SeriesRecord

open Json

/-- Why a value of another type is refused: it must still be well formed as far as
its type shows. -/
def mismatchFault (text : List Char) : JsonFault :=
  let after {α : Type} : Except JsonFault α → JsonFault
    | .error e => e
    | .ok _ => .mismatch
  match text with
  | [] => .premature
  | c :: rest =>
      if c = '"' then after (readChars rest)
      else if c = 'n' then after (readWord ['u', 'l', 'l'] rest)
      else if c = 't' then after (readWord ['r', 'u', 'e'] rest)
      else if c = 'f' then after (readWord ['a', 'l', 's', 'e'] rest)
      else if c = '-' ∨ c.isDigit then after (readNumber (c :: rest))
      else if c = '[' ∨ c = '\x7b' then .mismatch
      else .malformed

def readText (text : List Char) : Read String :=
  match skipBlanks text with
  | [] => .error .premature
  | c :: rest =>
      if c = '"' then
        match readChars rest with
        | .error e => .error e
        | .ok (cs, after) => .ok (String.ofList cs, after)
      else .error (mismatchFault (c :: rest))

/-- An unsigned number up to `limit`. -/
def readUnsigned (limit : Nat) (text : List Char) : Read Nat :=
  match skipBlanks text with
  | [] => .error .premature
  | c :: rest =>
      if c = '-' ∨ c.isDigit then
        match readNumber (c :: rest) with
        | .error e => .error e
        | .ok (some n, after) => if n ≤ limit then .ok (n, after) else .error .mismatch
        | .ok (none, _) => .error .mismatch
      else .error (mismatchFault (c :: rest))

theorem length_readScale_le {significand : Nat} {exponent : Int} {text rest : List Char}
    {value : Option Nat} (h : readScale significand exponent text = .ok (value, rest)) :
    rest.length ≤ text.length := by
  have exponentShorter : ∀ {t r : List Char} {n : Int},
      readExponent t = .ok (n, r) → r.length ≤ t.length := by
    intro t r n h
    have span := length_spanDigits_le
    unfold readExponent at h
    grind
  unfold readScale at h
  grind

theorem length_readTail_le {negative : Bool} {significand left : Nat}
    {text rest : List Char} {value : Option Nat}
    (h : readTail negative significand left text = .ok (value, rest)) :
    rest.length ≤ text.length := by
  have fraction : ∀ {t : List Char}, readFraction significand left t = .ok (value, rest) →
      rest.length ≤ t.length := by
    intro t h
    have := length_spanDigits_le t
    unfold readFraction at h
    grind [→ length_readScale_le]
  unfold readTail at h
  split at h
  · exact Nat.le_succ_of_le (fraction h)
  · split at h
    · simp at h
      simp [← h.2]
    · exact length_readScale_le h
  · split at h
    · simp at h
      simp [h.2]
    · exact length_readScale_le h

theorem length_readNumber_lt {text rest : List Char} {value : Option Nat}
    (h : readNumber text = .ok (value, rest)) : rest.length < text.length := by
  have magnitude : ∀ {negative : Bool} {t : List Char},
      readMagnitude negative t = .ok (value, rest) → rest.length < t.length := by
    intro negative t h
    unfold readMagnitude at h
    split at h
    · simp at h
    · simp at h
    · simp at h
    · next digits after _ hne _ hspan =>
      cases digits with
      | nil => simp_all
      | cons d digits =>
          exact Nat.lt_of_le_of_lt (length_readTail_le h) (length_lt_of_spanDigits hspan)
  unfold readNumber at h
  split at h
  · exact Nat.lt_succ_of_lt (magnitude h)
  · exact magnitude h

theorem length_readUnsigned_lt {limit : Nat} {text rest : List Char} {n : Nat}
    (h : readUnsigned limit text = .ok (n, rest)) : rest.length < text.length := by
  have := length_skipBlanks_le text
  unfold readUnsigned at h
  grind [→ length_readNumber_lt]

/-- Where the next member of a list or object begins, if another follows; a comma
comes before every one but the first. -/
def nextPart (first : Bool) (close c : Char) (rest : List Char) :
    Except JsonFault (List Char) :=
  if first then .ok (c :: rest)
  else if c = ',' then
    match skipBlanks rest with
    | [] => .error .premature
    | d :: after => if d = close then .error .malformed else .ok (d :: after)
  else .error .malformed

theorem length_nextPart_le {first : Bool} {close c : Char} {rest part : List Char}
    (h : nextPart first close c rest = .ok part) : part.length ≤ rest.length + 1 := by
  have := length_skipBlanks_le rest
  unfold nextPart at h
  grind

/-- The numbers of a list, after its bracket or a number. -/
def readNumbers (limit : Nat) (first : Bool) (text : List Char) : Read (List Nat) :=
  match h : skipBlanks text with
  | [] => .error .premature
  | c :: rest =>
      if c = ']' then .ok ([], rest)
      else match hp : nextPart first ']' c rest with
        | .error e => .error e
        | .ok part =>
            match hn : readUnsigned limit part with
            | .error e => .error e
            | .ok (n, after) =>
                have : after.length < text.length := by
                  have h1 : (c :: rest).length ≤ text.length := h ▸ length_skipBlanks_le text
                  have h2 := length_nextPart_le hp
                  have h3 := length_readUnsigned_lt hn
                  simp only [List.length_cons] at h1
                  omega
                match readNumbers limit false after with
                | .error e => .error e
                | .ok (others, after) => .ok (n :: others, after)
termination_by text.length

theorem length_readNumbers_lt {limit : Nat} {first : Bool} {text rest : List Char}
    {ns : List Nat} (h : readNumbers limit first text = .ok (ns, rest)) :
    rest.length < text.length := by
  have hskip := length_skipBlanks_le text
  fun_induction readNumbers limit first text generalizing ns rest <;>
    grind [length_skipBlanks_le, → length_nextPart_le, → length_readUnsigned_lt]

def readList (limit : Nat) (text : List Char) : Read (List Nat) :=
  match skipBlanks text with
  | [] => .error .premature
  | c :: rest =>
      if c = '[' then readNumbers limit true rest else .error (mismatchFault (c :: rest))

def readTarget (text : List Char) : Read (List UInt64) :=
  match readList maxCount text with
  | .error e => .error e
  | .ok (ns, after) => .ok (ns.map UInt64.ofNat, after)

def maxCategory : Nat := 4294967295

def readCategories (text : List Char) : Read (Option (List UInt32)) :=
  match skipBlanks text with
  | 'n' :: rest =>
      match readWord ['u', 'l', 'l'] rest with
      | .error e => .error e
      | .ok after => .ok (none, after)
  | _ =>
      match readList maxCategory text with
      | .error e => .error e
      | .ok (ns, after) => .ok (some (ns.map UInt32.ofNat), after)

structure Members where
  start : Option String
  target : Option (List UInt64)
  cat : Option (Option (List UInt32))

namespace Members

def none : Members := ⟨.none, .none, .none⟩

/-- The record, if both required members are there. -/
def record (m : Members) : Except JsonFault SeriesRecord :=
  match m.start, m.target with
  | some start, some target => .ok ⟨start, target, m.cat.getD .none⟩
  | _, _ => .error .mismatch

def add (m : Members) (key : List Char) (text : List Char) : Read Members :=
  if key = ['s', 't', 'a', 'r', 't'] then
    match readText text with
    | .error e => .error e
    | .ok (start, after) => .ok ({ m with start := some start }, after)
  else if key = ['t', 'a', 'r', 'g', 'e', 't'] then
    match readTarget text with
    | .error e => .error e
    | .ok (target, after) => .ok ({ m with target := some target }, after)
  else if key = ['c', 'a', 't'] then
    match readCategories text with
    | .error e => .error e
    | .ok (cat, after) => .ok ({ m with cat := some cat }, after)
  else
    match skip .value [] text with
    | .error e => .error e
    | .ok after => .ok (m, after)

def has (m : Members) (key : List Char) : Bool :=
  (key = ['s', 't', 'a', 'r', 't'] && m.start.isSome) ||
    (key = ['t', 'a', 'r', 'g', 'e', 't'] && m.target.isSome) ||
    (key = ['c', 'a', 't'] && m.cat.isSome)

end Members

theorem length_readText_lt {text rest : List Char} {value : String}
    (h : readText text = .ok (value, rest)) : rest.length < text.length := by
  have := length_skipBlanks_le text
  unfold readText at h
  grind [→ length_readChars_lt]

theorem length_readList_lt {limit : Nat} {text rest : List Char} {ns : List Nat}
    (h : readList limit text = .ok (ns, rest)) : rest.length < text.length := by
  have := length_skipBlanks_le text
  unfold readList at h
  grind [→ length_readNumbers_lt]

theorem length_readTarget_lt {text rest : List Char} {value : List UInt64}
    (h : readTarget text = .ok (value, rest)) : rest.length < text.length := by
  unfold readTarget at h
  grind [→ length_readList_lt]

theorem length_readCategories_lt {text rest : List Char} {value : Option (List UInt32)}
    (h : readCategories text = .ok (value, rest)) : rest.length < text.length := by
  have := length_skipBlanks_le text
  unfold readCategories at h
  grind [→ length_readList_lt, → length_readWord_le]

theorem length_add_lt {m found : Members} {key text rest : List Char}
    (h : m.add key text = .ok (found, rest)) : rest.length < text.length := by
  unfold Members.add at h
  grind [→ length_readText_lt, → length_readTarget_lt, → length_readCategories_lt,
    → length_skip_lt]

/-- The key of a member and the text of its value. -/
def readKey (text : List Char) : Read (List Char) :=
  match text with
  | '"' :: rest => readChars rest
  | _ => .error .malformed

theorem length_readKey_lt {text rest key : List Char} (h : readKey text = .ok (key, rest)) :
    rest.length < text.length := by
  unfold readKey at h
  grind [→ length_readChars_lt]

def readColon (text : List Char) : Except JsonFault (List Char) :=
  match skipBlanks text with
  | [] => .error .premature
  | c :: rest => if c = ':' then .ok rest else .error .malformed

theorem length_readColon_lt {text rest : List Char} (h : readColon text = .ok rest) :
    rest.length < text.length := by
  have := length_skipBlanks_le text
  unfold readColon at h
  grind

/-- One member of an object.  A member that is there already is refused before its
value is read. -/
def readMember (m : Members) (text : List Char) : Read Members :=
  match readKey text with
  | .error e => .error e
  | .ok (key, after) =>
      if m.has key then .error .mismatch
      else match readColon after with
        | .error e => .error e
        | .ok value => m.add key value

theorem length_readMember_lt {m found : Members} {text rest : List Char}
    (h : readMember m text = .ok (found, rest)) : rest.length < text.length := by
  unfold readMember at h
  grind [→ length_readKey_lt, → length_readColon_lt, → length_add_lt]

/-- The members of an object, after its brace or a member. -/
def readMembers (first : Bool) (m : Members) (text : List Char) : Read Members :=
  match h : skipBlanks text with
  | [] => .error .premature
  | c :: rest =>
      if c = '\x7d' then .ok (m, rest)
      else match hp : nextPart first '\x7d' c rest with
        | .error e => .error e
        | .ok part =>
            match hm : readMember m part with
            | .error e => .error e
            | .ok (found, after) =>
                have : after.length < text.length := by
                  have h1 : (c :: rest).length ≤ text.length := h ▸ length_skipBlanks_le text
                  have h2 := length_nextPart_le hp
                  have h3 := length_readMember_lt hm
                  simp only [List.length_cons] at h1
                  omega
                readMembers false found after
termination_by text.length

/-- Where the next part of a record in list form begins; `none` at the bracket. -/
def readPart (first : Bool) (text : List Char) : Except JsonFault (Option (List Char)) :=
  match skipBlanks text with
  | [] => .error .premature
  | c :: rest =>
      if c = ']' then .ok none else (nextPart first ']' c rest).map some

/-- The end of a list to which nothing may be added. -/
def readListEnd (text : List Char) : Except JsonFault (List Char) :=
  match skipBlanks text with
  | [] => .error .premature
  | c :: rest => if c = ']' then .ok rest else .error .malformed

/-- A record in list form, after the bracket. -/
def readParts (text : List Char) :
    Except JsonFault (SeriesRecord × List Char) := do
  let some part ← readPart true text | throw .mismatch
  let (start, text) ← readText part
  let some part ← readPart false text | throw .mismatch
  let (target, text) ← readTarget part
  let (cat, text) ← match ← readPart false text with
    | some part => readCategories part
    | none => pure (none, text)
  let text ← readListEnd text
  pure (⟨start, target, cat⟩, text)

def readRecord (text : List Char) : Read SeriesRecord :=
  match skipBlanks text with
  | [] => .error .premature
  | c :: rest =>
      if c = '\x7b' then
        match readMembers true .none rest with
        | .error e => .error e
        | .ok (m, after) => m.record.map fun r => (r, after)
      else if c = '[' then readParts rest
      else .error (mismatchFault (c :: rest))

/-- The record of a line, around which blanks may stand. -/
def decode (line : String) : Except JsonFault SeriesRecord :=
  match readRecord line.toList with
  | .error e => .error e
  | .ok (r, rest) => if (skipBlanks rest).isEmpty then .ok r else .error .malformed

end SeriesRecord
end ZoneDemand
