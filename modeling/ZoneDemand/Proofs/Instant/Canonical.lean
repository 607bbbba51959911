import ZoneDemand.Proofs.Instant.RoundTrip

/-!
# The canonical text of an instant

An instant may be spelled in many ways, with blanks, without zeros in front or with a sign before
the year, but has one canonical text, which is what it is written as.  The canonical texts are
described here by their digits alone: four for the year, or a sign and at least four, and two for
each other field of a date of the calendar and a time of day.
-/

namespace ZoneDemand
namespace Timestamp

/-! ## Digits -/

theorem digitChar_of_isDigit {c : Char} (hdigit : c.isDigit = true) :
    c.toNat - '0'.toNat < 10 ∧ Nat.digitChar (c.toNat - '0'.toNat) = c := by
  obtain ⟨hlow, hhigh⟩ := Char.isDigit_iff_toNat.mp hdigit
  change 48 ≤ c.toNat at hlow
  change c.toNat ≤ 57 at hhigh
  have hzero : '0'.toNat = 48 := rfl
  refine ⟨by omega, Char.toNat_inj.mp ?_⟩
  rw [Nat.toNat_digitChar_of_lt_ten (by omega)]
  omega

theorem toDigits_append {digits : List Char} (hdigits : ∀ c ∈ digits, c.isDigit = true)
    {n : Nat} (hn : 0 < n) :
    Nat.toDigits 10 n ++ digits = Nat.toDigits 10 (Nat.ofDigitChars 10 digits n) := by
  induction digits generalizing n with
  | nil => simp
  | cons c digits ih =>
      rw [List.forall_mem_cons] at hdigits
      obtain ⟨hlt, hchar⟩ := digitChar_of_isDigit hdigits.1
      have hnext : Nat.toDigits 10 n ++ [c] = Nat.toDigits 10 (10 * n + (c.toNat - '0'.toNat)) := by
        rw [← Nat.toDigits_append_toDigits (by decide) hn hlt, Nat.toDigits_of_lt_base hlt, hchar]
      rw [Nat.ofDigitChars_cons, ← ih hdigits.2 (by omega), ← hnext, List.append_assoc,
        List.singleton_append]

/-- Digits of which the first is not zero are those of their value. -/
theorem eq_toDigits {c : Char} {digits : List Char} {n : Nat}
    (h : Unsigned.Decimal (c :: digits) n) (hc : c ≠ '0') : c :: digits = Nat.toDigits 10 n := by
  have hdigits := h.digits
  rw [List.forall_mem_cons] at hdigits
  obtain ⟨hlt, hchar⟩ := digitChar_of_isDigit hdigits.1
  have hpos : 0 < c.toNat - '0'.toNat := by
    rw [Nat.pos_iff_ne_zero]
    intro hzero
    rw [hzero] at hchar
    exact hc hchar.symm
  rw [← h.value, Nat.ofDigitChars_cons, Nat.mul_zero, Nat.zero_add,
    ← toDigits_append hdigits.2 hpos, Nat.toDigits_of_lt_base hlt, hchar,
    List.singleton_append]

theorem length_padded (width n : Nat) :
    (padded width n).length = max width (Nat.toDigits 10 n).length :=
  List.length_leftpad

theorem padded_succ {width n : Nat} (hwidth : (Nat.toDigits 10 n).length ≤ width) :
    padded (width + 1) n = '0' :: padded width n := by
  unfold padded List.leftpad
  rw [Nat.sub_add_comm hwidth, List.replicate_succ, List.cons_append]

/-- Any digits are those of their value, with zeros in front up to their number. -/
theorem eq_padded {digits : List Char} {n : Nat} (h : Unsigned.Decimal digits n) :
    digits = padded digits.length n := by
  induction digits with
  | nil => exact absurd rfl h.ne_nil
  | cons c digits ih =>
      by_cases hc : c = '0'
      · subst hc
        cases digits with
        | nil =>
            rw [← h.value]
            rfl
        | cons d digits =>
            have hrest : Unsigned.Decimal (d :: digits) n :=
              ⟨by simp, fun e he => h.digits e (List.mem_cons_of_mem _ he), h.value⟩
            have hpadded := ih hrest
            have hlength := congrArg List.length hpadded
            rw [length_padded] at hlength
            rw [List.length_cons, padded_succ (by omega), ← hpadded]
      · rw [eq_toDigits h hc, padded, List.leftpad, Nat.sub_self]
        rfl

theorem decimal_padded {width n : Nat} : Unsigned.Decimal (padded width n) n :=
  ⟨padded_ne_nil width n, fun _ => isDigit_of_mem_padded, ofDigitChars_padded width n⟩

theorem decimal_toDigits (n : Nat) : Unsigned.Decimal (Nat.toDigits 10 n) n :=
  ⟨Nat.toDigits_ne_nil, fun _ => Nat.isDigit_of_mem_toDigits (by decide) (by decide),
    Nat.ofDigitChars_ten_toDigits⟩

/-- A number of more than one digit does not begin with a zero. -/
theorem head?_toDigits {n : Nat} (hlong : 1 < (Nat.toDigits 10 n).length) :
    (Nat.toDigits 10 n).head? ≠ some '0' := by
  intro hhead
  obtain ⟨digits, hcons⟩ := List.head?_eq_some_iff.mp hhead
  have hdecimal := decimal_toDigits n
  rw [hcons] at hdecimal
  have hrest : Unsigned.Decimal digits n := by
    refine ⟨?_, fun c hc => hdecimal.digits c (List.mem_cons_of_mem _ hc), hdecimal.value⟩
    rintro rfl
    rw [hcons] at hlong
    exact Nat.lt_irrefl 1 hlong
  have hlength := congrArg List.length (eq_padded hrest)
  rw [length_padded, hcons, List.length_cons] at hlength
  omega

/-! ## Fields -/

/-- Digits without superfluous zeros: `width` of them, or more of which the first is not zero. -/
structure WrittenNumber (width : Nat) (digits : List Char) (n : Nat) : Prop where
  decimal : Unsigned.Decimal digits n
  width_le : width ≤ digits.length
  minimal : width < digits.length → digits.head? ≠ some '0'

theorem writtenNumber_iff {width : Nat} (hwidth : 0 < width) {digits : List Char} {n : Nat} :
    WrittenNumber width digits n ↔ digits = padded width n := by
  constructor
  · rintro ⟨hdecimal, hlength, hminimal⟩
    rcases Nat.eq_or_lt_of_le hlength with rfl | hlt
    · exact eq_padded hdecimal
    · cases digits with
      | nil => exact absurd rfl hdecimal.ne_nil
      | cons c digits =>
          have hdigits := eq_toDigits hdecimal (by simpa using hminimal hlt)
          rw [padded, List.leftpad, ← hdigits, Nat.sub_eq_zero_of_le hlength]
          rfl
  · rintro rfl
    refine ⟨decimal_padded, ?_, fun hlong => ?_⟩
    · rw [length_padded]
      exact Nat.le_max_left _ _
    · rw [length_padded] at hlong
      have hdigits : padded width n = Nat.toDigits 10 n := by
        rw [padded, List.leftpad, Nat.sub_eq_zero_of_le (by omega)]
        rfl
      rw [hdigits]
      exact head?_toDigits (by omega)

/-- Exactly so many digits. -/
structure Digits (width : Nat) (digits : List Char) (n : Nat) : Prop where
  decimal : Unsigned.Decimal digits n
  length : digits.length = width

theorem digits_iff {width : Nat} (hwidth : 0 < width) {digits : List Char} {n : Nat} :
    Digits width digits n ↔ digits = padded width n ∧ n < 10 ^ width := by
  rw [← Nat.length_toDigits_le_iff (by decide) hwidth]
  constructor
  · rintro ⟨hdecimal, rfl⟩
    have hpadded := eq_padded hdecimal
    refine ⟨hpadded, ?_⟩
    have hlength := congrArg List.length hpadded
    rw [length_padded] at hlength
    omega
  · rintro ⟨rfl, hlength⟩
    refine ⟨decimal_padded, ?_⟩
    rw [length_padded]
    omega

/-- A year stands as four digits, one before the year 0 or after 9999 as a sign and at least
four. -/
inductive WrittenYear : List Char → Int → Prop where
  | plain {digits : List Char} {n : Nat} (hdigits : Digits 4 digits n) : WrittenYear digits n
  | before {digits : List Char} {n : Nat} (hdigits : WrittenNumber 4 digits n) (hpos : 0 < n) :
      WrittenYear ('-' :: digits) (-n)
  | after {digits : List Char} {n : Nat} (hdigits : WrittenNumber 4 digits n)
      (hlong : 4 < digits.length) : WrittenYear ('+' :: digits) n

theorem writtenYear_iff {text : List Char} {year : Int} :
    WrittenYear text year ↔ text = yearChars year := by
  unfold yearChars
  constructor
  · intro h
    cases h with
    | @plain _ n hdigits =>
        obtain ⟨rfl, hlt⟩ := (digits_iff (by decide)).mp hdigits
        rw [if_pos (by omega), Int.toNat_natCast]
    | @before digits n hdigits hpos =>
        rw [if_neg (by omega), if_pos (by omega), (writtenNumber_iff (by decide)).mp hdigits,
          Int.natAbs_neg, Int.natAbs_natCast]
    | @after digits n hdigits hlong =>
        obtain rfl := (writtenNumber_iff (by decide)).mp hdigits
        have hlarge : ¬(Nat.toDigits 10 n).length ≤ 4 := by
          rw [length_padded] at hlong
          omega
        rw [Nat.length_toDigits_le_iff (by decide) (by decide)] at hlarge
        rw [if_neg (by omega), if_neg (by omega), Int.natAbs_natCast]
  · rintro rfl
    split
    · rename_i hfour
      have hyear : (year.toNat : Int) = year := Int.toNat_of_nonneg hfour.1
      have hdigits : Digits 4 (padded 4 year.toNat) year.toNat :=
        (digits_iff (by decide)).mpr ⟨rfl, by omega⟩
      have hwritten := WrittenYear.plain hdigits
      rwa [hyear] at hwritten
    · rename_i hsigned
      have hnumber : WrittenNumber 4 (padded 4 year.natAbs) year.natAbs :=
        (writtenNumber_iff (by decide)).mpr rfl
      split
      · have hyear : -(year.natAbs : Int) = year := by omega
        have hwritten := WrittenYear.before hnumber (by omega)
        rwa [hyear] at hwritten
      · have hyear : (year.natAbs : Int) = year := by omega
        have hlarge : ¬(Nat.toDigits 10 year.natAbs).length ≤ 4 := by
          rw [Nat.length_toDigits_le_iff (by decide) (by decide)]
          omega
        have hwritten := WrittenYear.after hnumber (by rw [length_padded]; omega)
        rwa [hyear] at hwritten

/-- The canonical text of a date of the calendar and a time of day: the year and two digits for
each other field, with one mark between them. -/
inductive Written (c : CivilTime) : List Char → Prop where
  | intro {year month day hour minute second : List Char} (hyear : WrittenYear year c.date.year)
      (hmonth : Digits 2 month c.date.month) (hday : Digits 2 day c.date.day)
      (hhour : Digits 2 hour c.hour) (hminute : Digits 2 minute c.minute)
      (hsecond : Digits 2 second c.second) :
      Written c (year ++ ['-'] ++ month ++ ['-'] ++ day ++ [' '] ++ hour ++ [':'] ++ minute ++
        [':'] ++ second)

def Canonical (text : String) : Prop := ∃ c, Written c text.toList

end Timestamp

theorem CivilTime.written_iff {c : CivilTime} {text : List Char} :
    Timestamp.Written c text ↔ text = c.chars := by
  constructor
  · rintro ⟨hyear, hmonth, hday, hhour, hminute, hsecond⟩
    have htwo : (0 : Nat) < 2 := by decide
    rw [Timestamp.writtenYear_iff.mp hyear, ((Timestamp.digits_iff htwo).mp hmonth).1,
      ((Timestamp.digits_iff htwo).mp hday).1, ((Timestamp.digits_iff htwo).mp hhour).1,
      ((Timestamp.digits_iff htwo).mp hminute).1, ((Timestamp.digits_iff htwo).mp hsecond).1]
    rfl
  · rintro rfl
    have hdigits : ∀ {n : Nat}, n < 100 → Timestamp.Digits 2 (Timestamp.padded 2 n) n := fun hn =>
      (Timestamp.digits_iff (by decide)).mpr ⟨rfl, hn⟩
    have hmonth := c.valid.2.1
    have hday := c.day_le
    have hhour := c.hour_le
    have hminute := c.minute_le
    have hsecond := c.second_le
    exact .intro (Timestamp.writtenYear_iff.mpr rfl) (hdigits (by omega)) (hdigits (by omega))
      (hdigits (by omega)) (hdigits (by omega)) (hdigits (by omega))

namespace Instant

theorem canonical_format (t : Instant) : Timestamp.Canonical t.format :=
  ⟨t.civil, CivilTime.written_iff.mpr t.toList_format⟩

theorem exists_format_of_canonical {text : String} (hcanonical : Timestamp.Canonical text) :
    ∃ t : Instant, t.format = text := by
  obtain ⟨c, hwritten⟩ := hcanonical
  obtain ⟨t, rfl⟩ := c.exists_civil_eq
  refine ⟨t, String.toList_inj.mp ?_⟩
  rw [toList_format, CivilTime.written_iff.mp hwritten]

/-- Every instant is read back from its text, which is the one canonical text among all from which
it is read; the canonical texts are those that are read and then written as they were. -/
theorem format_reproduces :
    (∀ t : Instant, parse t.format = .ok t) ∧ Function.Injective format ∧
      (∀ text, Timestamp.Canonical text ↔ ∃ t, parse text = .ok t ∧ t.format = text) ∧
      ∀ text t, parse text = .ok t → Timestamp.Canonical t.format ∧ parse t.format = .ok t ∧
        (Timestamp.Canonical text ↔ text = t.format) := by
  refine ⟨parse_format, ?_, ?_, ?_⟩
  · intro t u hsame
    have ht := parse_format t
    rw [hsame, parse_format u, Except.ok.injEq] at ht
    exact ht.symm
  · intro text
    constructor
    · intro hcanonical
      obtain ⟨t, rfl⟩ := exists_format_of_canonical hcanonical
      exact ⟨t, parse_format t, rfl⟩
    · rintro ⟨t, -, rfl⟩
      exact canonical_format t
  · intro text t hread
    refine ⟨canonical_format t, parse_format t, ?_, ?_⟩
    · intro hcanonical
      obtain ⟨u, rfl⟩ := exists_format_of_canonical hcanonical
      rw [parse_format u, Except.ok.injEq] at hread
      rw [hread]
    · rintro rfl
      exact canonical_format t

/-- A leap second, spelled with a sign, with blanks and without zeros in front. -/
theorem spelledLeapSecond_reproduced :
    ∃ t, parse " +2020-2-\t29 3:5: 60" = .ok t ∧ t.format = "2020-02-29 03:05:60" ∧
      Timestamp.Canonical t.format ∧ ¬Timestamp.Canonical " +2020-2-\t29 3:5: 60" := by
  have hread : parse " +2020-2-\t29 3:5: 60" =
      .ok ⟨1582945559, true, by decide, by decide⟩ := by decide +kernel
  obtain ⟨-, -, -, hspelling⟩ := format_reproduces
  obtain ⟨hcanonical, -, honly⟩ := hspelling _ _ hread
  refine ⟨_, hread, by decide +kernel, hcanonical, ?_⟩
  rw [honly]
  decide +kernel

end Instant
end ZoneDemand
