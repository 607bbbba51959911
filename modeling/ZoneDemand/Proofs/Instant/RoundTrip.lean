import Mathlib.Algebra.Ring.Nat
import ZoneDemand.Proofs.Instant.Civil
import ZoneDemand.Proofs.Text.Unsigned

/-!
# Timestamps that are read back

Every instant of the calendar, leap seconds and the years that carry a sign included, is read
back from its text.  Each field is a padded number that is read up to the mark after it, and
the fields together name the instant.
-/

namespace ZoneDemand
namespace Timestamp

/-! ## Numbers -/

/-- No digit comes first, so a number before the text ends there. -/
def NumberEnds (rest : List Char) : Prop := ∀ c ∈ rest.head?, Unsigned.digit? c = none

@[simp] theorem numberEnds_nil : NumberEnds [] := by simp [NumberEnds]

@[simp] theorem numberEnds_cons (c : Char) (rest : List Char) :
    NumberEnds (c :: rest) ↔ Unsigned.digit? c = none := by
  simp [NumberEnds]

theorem digit?_of_isDigit {c : Char} (hdigit : c.isDigit = true) :
    Unsigned.digit? c = some (c.toNat - '0'.toNat) :=
  Unsigned.digit?_eq_some_iff.mpr ⟨hdigit, rfl⟩

theorem splitDigits_append {digits rest : List Char} (hdigits : ∀ c ∈ digits, c.isDigit = true)
    (hends : NumberEnds rest) {width : Nat} (hwidth : digits.length ≤ width) :
    splitDigits width (digits ++ rest) = (digits.map fun c => c.toNat - '0'.toNat, rest) := by
  induction digits generalizing width with
  | nil =>
      cases width with
      | zero => rfl
      | succ width =>
          cases rest with
          | nil => rfl
          | cons c rest => simp [splitDigits, (numberEnds_cons c rest).mp hends]
  | cons c digits ih =>
      cases width with
      | zero => simp at hwidth
      | succ width =>
          have hrest := ih (fun d hd => hdigits d (List.mem_cons_of_mem c hd))
            (Nat.le_of_succ_le_succ hwidth)
          rw [List.cons_append, splitDigits, digit?_of_isDigit (hdigits c List.mem_cons_self)]
          simp only [hrest, List.map_cons]

theorem scanNumber_append {digits rest : List Char} (hdigits : ∀ c ∈ digits, c.isDigit = true)
    (hends : NumberEnds rest) (hsome : digits ≠ []) {width : Nat}
    (hwidth : digits.length ≤ width) :
    scanNumber width (digits ++ rest) = .ok (Nat.ofDigitChars 10 digits 0, rest) := by
  have hvalue : digitsValue (digits.map fun c => c.toNat - '0'.toNat) =
      Nat.ofDigitChars 10 digits 0 := by
    rw [digitsValue, List.foldl_map]
    rfl
  rw [scanNumber, splitDigits_append hdigits hends hwidth, ← hvalue]
  cases digits with
  | nil => exact absurd rfl hsome
  | cons c digits => rfl

theorem isDigit_of_mem_padded {width n : Nat} {c : Char} (hc : c ∈ padded width n) :
    c.isDigit = true := by
  rw [padded, List.leftpad, List.mem_append] at hc
  rcases hc with hzero | hdigit
  · rw [List.eq_of_mem_replicate hzero]
    rfl
  · exact Nat.isDigit_of_mem_toDigits (by decide) (by decide) hdigit

theorem padded_ne_nil (width n : Nat) : padded width n ≠ [] := by
  simp [padded, List.leftpad, Nat.toDigits_ne_nil]

theorem length_padded_le {width n : Nat} (hwidth : 0 < width) (hn : n < 10 ^ width) :
    (padded width n).length ≤ width := by
  have hlength := (Nat.length_toDigits_le_iff (b := 10) (by decide) hwidth).mpr hn
  rw [padded, List.leftpad, List.length_append, List.length_replicate]
  omega

@[simp] theorem ofDigitChars_padded (width n : Nat) :
    Nat.ofDigitChars 10 (padded width n) 0 = n := by
  rw [padded, List.leftpad, Nat.ofDigitChars_append, Nat.ofDigitChars_replicate_zero,
    Nat.mul_zero, Nat.ofDigitChars_ten_toDigits]

theorem scanNumber_padded {width limit n : Nat} {rest : List Char} (hends : NumberEnds rest)
    (hlimit : (padded width n).length ≤ limit) :
    scanNumber limit (padded width n ++ rest) = .ok (n, rest) := by
  rw [scanNumber_append (fun c => isDigit_of_mem_padded) hends (padded_ne_nil width n) hlimit,
    ofDigitChars_padded]

/-! ## Fields -/

theorem isBlank_of_isDigit {c : Char} (hdigit : c.isDigit = true) : isBlank c = false := by
  obtain ⟨hlow, hhigh⟩ := Char.isDigit_iff_toNat.mp hdigit
  change 48 ≤ c.toNat at hlow
  change c.toNat ≤ 57 at hhigh
  simp [isBlank]
  omega

theorem exists_padded (width n : Nat) :
    ∃ c digits, padded width n = c :: digits ∧ c.isDigit = true := by
  obtain ⟨c, digits, hcons⟩ := List.exists_cons_of_ne_nil (padded_ne_nil width n)
  have hmem : c ∈ padded width n := by
    rw [hcons]
    exact List.mem_cons_self
  exact ⟨c, digits, hcons, isDigit_of_mem_padded hmem⟩

@[simp] theorem skipBlank_padded (width n : Nat) (rest : List Char) :
    skipBlank (padded width n ++ rest) = padded width n ++ rest := by
  obtain ⟨c, digits, hcons, hdigit⟩ := exists_padded width n
  rw [hcons, List.cons_append, skipBlank, List.dropWhile_cons, isBlank_of_isDigit hdigit]
  rfl

theorem scanField_padded {low high n : Nat} (hlow : low ≤ n) (hhigh : n ≤ high)
    (hwidth : n < 100) {rest : List Char} (hends : NumberEnds rest) :
    scanField low high (padded 2 n ++ rest) = .ok (n, rest) := by
  rw [scanField, skipBlank_padded,
    scanNumber_padded hends (length_padded_le (by decide) hwidth), ok_bind]
  simp [hlow, hhigh]

@[simp] theorem scanField_space (low high : Nat) (text : List Char) :
    scanField low high (' ' :: text) = scanField low high text := rfl

section Year

variable {digits rest : List Char} {n : Nat}

theorem scanYear_minus (hscan : scanNumber digits.length.succ digits = .ok (n, rest))
    (hbound : n ≤ 2147483648) : scanYear ('-' :: digits) = .ok (-(n : Int), rest) := by
  have hblank : skipBlank ('-' :: digits) = '-' :: digits := rfl
  rw [scanYear, hblank]
  simp only [hscan, ok_bind, pure_eq_ok]
  rw [if_pos (by omega)]

theorem scanYear_plus (hscan : scanNumber digits.length.succ digits = .ok (n, rest))
    (hbound : n ≤ 2147483647) : scanYear ('+' :: digits) = .ok ((n : Int), rest) := by
  have hblank : skipBlank ('+' :: digits) = '+' :: digits := rfl
  rw [scanYear, hblank]
  simp only [hscan, ok_bind, pure_eq_ok]
  rw [if_pos (by omega)]

theorem scanYear_digit {c : Char} (hdigit : c.isDigit = true)
    (hscan : scanNumber 4 (c :: digits) = .ok (n, rest)) (hbound : n ≤ 2147483647) :
    scanYear (c :: digits) = .ok ((n : Int), rest) := by
  have hminus : c ≠ '-' := by
    rintro rfl
    cases hdigit
  have hplus : c ≠ '+' := by
    rintro rfl
    cases hdigit
  have hblank : skipBlank (c :: digits) = c :: digits := by
    rw [skipBlank, List.dropWhile_cons, isBlank_of_isDigit hdigit]
    rfl
  rw [scanYear, hblank]
  split
  · rename_i heq
    exact absurd (List.cons.inj heq).1 hminus
  · rename_i heq
    exact absurd (List.cons.inj heq).1 hplus
  · simp only [hscan, ok_bind, pure_eq_ok]
    rw [if_pos (by omega)]

end Year

theorem scanYear_yearChars {year : Int} (hlow : -2147483648 ≤ year) (hhigh : year ≤ 2147483647)
    {rest : List Char} (hends : NumberEnds rest) :
    scanYear (yearChars year ++ rest) = .ok (year, rest) := by
  have hsigned : scanNumber (padded 4 year.natAbs ++ rest).length.succ
      (padded 4 year.natAbs ++ rest) = .ok (year.natAbs, rest) :=
    scanNumber_padded hends (by simp; omega)
  unfold yearChars
  split
  · rename_i hfour
    have hscan : scanNumber 4 (padded 4 year.toNat ++ rest) = .ok (year.toNat, rest) :=
      scanNumber_padded hends (length_padded_le (by decide) (by omega))
    obtain ⟨c, digits, hcons, hdigit⟩ := exists_padded 4 year.toNat
    rw [hcons, List.cons_append] at hscan ⊢
    rw [scanYear_digit hdigit hscan (by omega), Int.toNat_of_nonneg hfour.1]
  · split
    · rename_i hnegative
      have hyear : -(year.natAbs : Int) = year := by omega
      rw [List.cons_append, scanYear_minus hsigned (by omega), hyear]
    · have hyear : (year.natAbs : Int) = year := by omega
      rw [List.cons_append, scanYear_plus hsigned (by omega), hyear]

/-! ## Instants -/

theorem scanMark_cons (mark : Char) (rest : List Char) :
    scanMark mark (mark :: rest) = .ok rest := by
  simp [scanMark]

end Timestamp

namespace CivilTime

/-- A date and a time of day as they are written. -/
def chars (c : CivilTime) : List Char :=
  Timestamp.yearChars c.date.year ++ ['-'] ++ Timestamp.padded 2 c.date.month ++ ['-'] ++
    Timestamp.padded 2 c.date.day ++ [' '] ++ Timestamp.padded 2 c.hour ++ [':'] ++
    Timestamp.padded 2 c.minute ++ [':'] ++ Timestamp.padded 2 c.second

theorem parseChars_chars {c : CivilTime} {t : Instant} (hinstant : c.instant? = some t) :
    Timestamp.parseChars c.chars = .ok t := by
  obtain ⟨hmonth, hmonths, hday, -⟩ := c.valid
  have hdays := c.day_le
  obtain ⟨hlow, hhigh⟩ := c.year
  have hhour := c.hour_le
  have hminute := c.minute_le
  have hsecond := c.second_le
  unfold Timestamp.parseChars chars
  simp only [List.append_assoc, List.cons_append, List.nil_append]
  rw [Timestamp.scanYear_yearChars (by omega) (by omega) (by simp; rfl)]
  simp only [ok_bind, Timestamp.scanMark_cons]
  rw [Timestamp.scanField_padded hmonth hmonths (by omega) (by simp; rfl)]
  simp only [ok_bind, Timestamp.scanMark_cons]
  rw [Timestamp.scanField_padded hday hdays (by omega) (by simp; rfl)]
  simp only [ok_bind, Timestamp.scanField_space]
  rw [Timestamp.scanField_padded (by omega) hhour (by omega) (by simp; rfl)]
  simp only [ok_bind, Timestamp.scanMark_cons]
  rw [Timestamp.scanField_padded (by omega) hminute (by omega) (by simp; rfl)]
  simp only [ok_bind, Timestamp.scanMark_cons]
  rw [← List.append_nil (Timestamp.padded 2 c.second),
    Timestamp.scanField_padded (by omega) hsecond (by omega) (by simp)]
  simp only [ok_bind, List.isEmpty_nil, if_true]
  have hparts : Timestamp.instant? ⟨c.date.year, c.date.month, c.date.day⟩ c.hour c.minute
      c.second = some t := hinstant
  simp only [hparts]
  rfl

end CivilTime

namespace Instant

theorem toList_format (t : Instant) : t.format.toList = t.civil.chars := String.toList_ofList

theorem parse_format (t : Instant) : parse t.format = .ok t := by
  rw [parse, toList_format]
  exact CivilTime.parseChars_chars (CivilTime.instant?_civil t)

end Instant
end ZoneDemand
