import ZoneDemand.Calendar
import ZoneDemand.Text.Unsigned
import ZoneDemand.Toml.Scan

/-!
# Numbers and dates of TOML

What begins with a digit, a sign or the word of a special fraction.  An integer has
64 bits and, if it has no sign, may be written in hexadecimal, octal or binary
digits; a fraction must not exceed the range of binary floating point, except
downwards.
-/

namespace ZoneDemand
namespace Toml

/-! ### Dates and times of day -/

def valueIn (base : Nat) (digits : List Nat) : Nat :=
  digits.foldl (fun n d => base * n + d) 0

def readFixed (digits : Nat) (text : List Char) : Read Nat :=
  match (text.take digits).mapM Unsigned.digit? with
  | some ds => if digits ≤ text.length then some (valueIn 10 ds, text.drop digits) else none
  | none => none

theorem length_readFixed_le {digits n : Nat} {text rest : List Char}
    (h : readFixed digits text = some (n, rest)) : rest.length + digits ≤ text.length := by
  unfold readFixed at h
  grind

/-- A mark, and a number of two digits up to `limit`. -/
def readPart (mark : Char) (limit : Nat) : List Char → Read Nat
  | [] => none
  | c :: rest =>
      if c = mark then
        match readFixed 2 rest with
        | some (n, after) => if n ≤ limit then some (n, after) else none
        | none => none
      else none

theorem length_readPart_lt {mark : Char} {limit n : Nat} {text rest : List Char}
    (h : readPart mark limit text = some (n, rest)) : rest.length < text.length := by
  unfold readPart at h
  grind [→ length_readFixed_le]

/-- The text after a mark and at least one digit. -/
def afterDecimals (text : List Char) : List Char :=
  match text with
  | '.' :: c :: rest =>
      if c.isDigit then rest.dropWhile Char.isDigit else text
  | _ => text

theorem length_afterDecimals_le (text : List Char) :
    (afterDecimals text).length ≤ text.length := by
  unfold afterDecimals
  split
  · next c rest =>
    have := (List.dropWhile_suffix Char.isDigit (l := rest)).length_le
    split <;> simp only [List.length_cons] <;> omega
  · exact Nat.le_refl _

/-- The text after a time of day: hours, minutes, seconds and decimals of these. -/
def afterTime? (text : List Char) : Option (List Char) :=
  match readFixed 2 text with
  | none => none
  | some (hour, rest) =>
      match readPart ':' 59 rest with
      | none => none
      | some (_, rest) =>
          match readPart ':' 60 rest with
          | none => none
          | some (_, rest) => if hour ≤ 23 then some (afterDecimals rest) else none

theorem length_afterTime_lt {text rest : List Char} (h : afterTime? text = some rest) :
    rest.length < text.length := by
  unfold afterTime? at h
  grind [→ length_readFixed_le, → length_readPart_lt, length_afterDecimals_le]

/-- The text after an offset from universal time, if one begins here. -/
def afterOffset? : List Char → Option (List Char)
  | [] => some []
  | c :: rest =>
      if c = 'Z' ∨ c = 'z' then some rest
      else if c = '+' ∨ c = '-' then
        match readPart c 23 (c :: rest) with
        | none => none
        | some (_, rest) => (readPart ':' 59 rest).map Prod.snd
      else some (c :: rest)

theorem length_afterOffset_le {text rest : List Char} (h : afterOffset? text = some rest) :
    rest.length ≤ text.length := by
  unfold afterOffset? at h
  split at h
  · simp_all
  · next c tail =>
    split at h
    · simp at h
      simp [← h]
    · split at h
      · split at h
        · simp at h
        · next hpart =>
          have h1 := length_readPart_lt hpart
          rw [Option.map_eq_some_iff] at h
          obtain ⟨⟨n, left⟩, hmore, rfl⟩ := h
          have h2 := length_readPart_lt hmore
          simp only [List.length_cons] at *
          omega
      · simp_all

/-- The text after a date, and after the time of day that may follow it. -/
def afterDate? (text : List Char) : Option (List Char) :=
  match readFixed 4 text with
  | none => none
  | some (year, rest) =>
      match readPart '-' 12 rest with
      | none => none
      | some (month, rest) =>
          match readPart '-' 31 rest with
          | none => none
          | some (day, rest) =>
              if (Date.mk year month day).Valid then
                match rest with
                | c :: d :: left =>
                    if c = 'T' ∨ c = 't' ∨ (c = ' ' ∧ d.isDigit) then
                      (afterTime? (d :: left)).bind afterOffset?
                    else some rest
                | _ => some rest
              else none

theorem length_afterDate_lt {text rest : List Char} (h : afterDate? text = some rest) :
    rest.length < text.length := by
  unfold afterDate? at h
  split at h
  · simp at h
  next hyear =>
  split at h
  · simp at h
  next hmonth =>
  split at h
  · simp at h
  next hday =>
  have h1 := length_readFixed_le hyear
  have h2 := length_readPart_lt hmonth
  have h3 := length_readPart_lt hday
  split at h
  · split at h
    · split at h
      · rw [Option.bind_eq_some_iff] at h
        obtain ⟨left, htime, hoffset⟩ := h
        have h4 := length_afterTime_lt htime
        have h5 := length_afterOffset_le hoffset
        simp only [List.length_cons] at *
        omega
      · simp at h
        rw [← h]
        omega
    · simp at h
      rw [← h]
      omega
  · simp at h

/-! ### Numbers -/

/-- At least one digit; an underscore may stand between two of them. -/
def readDigits (digit? : Char → Option Nat) : List Char → Read (List Nat)
  | [] => none
  | c :: rest =>
      match digit? c with
      | none => none
      | some d =>
          match rest with
          | [] => some ([d], [])
          | e :: more =>
              if e = '_' then .prepend d (readDigits digit? more)
              else if (digit? e).isSome then .prepend d (readDigits digit? (e :: more))
              else some ([d], e :: more)

theorem length_readDigits_lt {digit? : Char → Option Nat} {text rest : List Char}
    {digits : List Nat} (h : readDigits digit? text = some (digits, rest)) :
    rest.length < text.length := by
  fun_induction readDigits digit? text generalizing digits rest <;>
    grind [→ Read.of_prepend]

def digitBelow? (base : Nat) (c : Char) : Option Nat :=
  (hexValue? c).filter (· < base)

/-- An integer without a sign, in another base than ten. -/
def readBased (base : Nat) (text : List Char) : Read Toml :=
  match readDigits (digitBelow? base) text with
  | none => none
  | some (digits, rest) =>
      if valueIn base digits < Nat.pow 2 63 then some (.integer (valueIn base digits), rest)
      else none

/-- The fraction whose digits end at the given power of ten is so large that binary
floating point has infinity for it. -/
def overflows (digits : List Nat) (exponent : Int) : Bool :=
  let significant := digits.dropWhile (· = 0)
  let bound := Nat.pow 2 1024 - Nat.pow 2 970
  let magnitude := exponent + significant.length
  if significant = [] ∨ magnitude ≤ 308 then false
  else if 310 ≤ magnitude then true
  else if 0 ≤ exponent then bound ≤ valueIn 10 significant * Nat.pow 10 exponent.toNat
  else bound * Nat.pow 10 (-exponent).toNat ≤ valueIn 10 significant

/-- The exponent of a fraction, with its mark, if there is one. -/
def readExponent : List Char → Read Int
  | [] => some (0, [])
  | c :: rest =>
      if c = 'e' ∨ c = 'E' then
        let (sign, digits) : Int × List Char := match rest with
          | '+' :: rest => (1, rest)
          | '-' :: rest => (-1, rest)
          | _ => (1, rest)
        match readDigits Unsigned.digit? digits with
        | none => none
        | some (digits, after) => some (sign * (valueIn 10 digits : Nat), after)
      else some (0, c :: rest)

theorem length_readExponent_le {text rest : List Char} {n : Int}
    (h : readExponent text = some (n, rest)) : rest.length ≤ text.length := by
  unfold readExponent at h
  grind [→ length_readDigits_lt]

/-- A fraction with the given digits before its point or exponent. -/
def readFraction (negative : Bool) (whole : List Nat) (text : List Char) : Read Toml :=
  let places : Read (List Nat) := match text with
    | '.' :: rest => readDigits Unsigned.digit? rest
    | _ => some ([], text)
  match places with
  | none => none
  | some (places, rest) =>
      match readExponent rest with
      | none => none
      | some (exponent, after) =>
          if !negative && overflows (whole ++ places) (exponent - places.length)
          then none
          else some (.fraction, after)

theorem length_readFraction_le {negative : Bool} {whole : List Nat} {text rest : List Char}
    {value : Toml} (h : readFraction negative whole text = some (value, rest)) :
    rest.length ≤ text.length := by
  unfold readFraction at h
  grind [→ length_readDigits_lt, → length_readExponent_le]

/-- A decimal number after its sign.  Only a zero that stands alone may come first. -/
def readDecimal (negative : Bool) (text : List Char) : Read Toml :=
  match readDigits Unsigned.digit? text with
  | none => none
  | some (0 :: _ :: _, _) => none
  | some (digits, rest) =>
      let fraction := match rest with
        | c :: _ => c = '.' || c = 'e' || c = 'E'
        | [] => false
      if fraction then readFraction negative digits rest
      else
        let n := valueIn 10 digits
        if n < Nat.pow 2 63 + (if negative then 1 else 0) then
          some (.integer (if negative then -(n : Int) else n), rest)
        else none

theorem length_readDecimal_lt {negative : Bool} {text rest : List Char} {value : Toml}
    (h : readDecimal negative text = some (value, rest)) : rest.length < text.length := by
  unfold readDecimal at h
  grind [→ length_readDigits_lt, → length_readFraction_le]

def afterWord? (word text : List Char) : Option (List Char) :=
  if word.isPrefixOf text then some (text.drop word.length) else none

theorem length_afterWord_lt {word text rest : List Char} (hne : word ≠ [])
    (h : afterWord? word text = some rest) : rest.length < text.length := by
  unfold afterWord? at h
  split at h
  · next hpre =>
    have h1 := (List.isPrefixOf_iff_prefix.mp hpre).length_le
    have h2 := List.length_pos_iff.mpr hne
    simp at h
    rw [← h, List.length_drop]
    omega
  · simp at h

/-- A number after its sign, which may be a special fraction. -/
def readSigned (negative : Bool) (text : List Char) : Read Toml :=
  match afterWord? ['i', 'n', 'f'] text, afterWord? ['n', 'a', 'n'] text with
  | some rest, _ => some (.fraction, rest)
  | none, some rest => some (.fraction, rest)
  | none, none => readDecimal negative text

theorem length_readSigned_lt {negative : Bool} {text rest : List Char} {value : Toml}
    (h : readSigned negative text = some (value, rest)) : rest.length < text.length := by
  unfold readSigned at h
  split at h
  · next hinf =>
    simp at h
    exact h.2 ▸ length_afterWord_lt (by simp) hinf
  · next _ hnan =>
    simp at h
    exact h.2 ▸ length_afterWord_lt (by simp) hnan
  · exact length_readDecimal_lt h

/-- A date is told by the dash after four digits, a time of day by the colon after
two. -/
def isDate (text : List Char) : Bool :=
  (match readFixed 4 text with
    | some (_, '-' :: _) => true
    | _ => false) ||
  (match readFixed 2 text with
    | some (_, ':' :: _) => true
    | _ => false)

def readDate (text : List Char) : Read Toml :=
  match if (readFixed 4 text).isSome then afterDate? text else afterTime? text with
  | some rest => some (.date, rest)
  | none => none

theorem length_readDate_lt {text rest : List Char} {value : Toml}
    (h : readDate text = some (value, rest)) : rest.length < text.length := by
  unfold readDate at h
  grind [→ length_afterDate_lt, → length_afterTime_lt]

def readNumber (text : List Char) : Read Toml :=
  if isDate text then readDate text
  else match text with
    | '+' :: rest => readSigned false rest
    | '-' :: rest => readSigned true rest
    | '0' :: 'x' :: rest => readBased 16 rest
    | '0' :: 'o' :: rest => readBased 8 rest
    | '0' :: 'b' :: rest => readBased 2 rest
    | _ => readSigned false text

theorem length_readNumber_lt {text rest : List Char} {value : Toml}
    (h : readNumber text = some (value, rest)) : rest.length < text.length := by
  have based : ∀ {base : Nat} {t : List Char}, readBased base t = some (value, rest) →
      rest.length < t.length := by
    intro base t h
    unfold readBased at h
    grind [→ length_readDigits_lt]
  unfold readNumber at h
  grind [→ length_readDate_lt, → length_readSigned_lt]

end Toml
end ZoneDemand
