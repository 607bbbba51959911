import ZoneDemand.Proofs.Outcomes
import ZoneDemand.Text.Unsigned

/-!
# What is read as an unsigned number

A text is read as a number exactly if it is an optional plus sign and decimal digits of that
value, and the value does not exceed the limit.
-/

namespace ZoneDemand
namespace Unsigned

/-- At least one decimal digit, and the value of all of them. -/
structure Decimal (text : List Char) (n : Nat) : Prop where
  ne_nil : text ≠ []
  digits : ∀ c ∈ text, c.isDigit = true
  value : Nat.ofDigitChars 10 text 0 = n

inductive Denotes : List Char → Nat → Prop where
  | plain {text : List Char} {n : Nat} (htext : Decimal text n) : Denotes text n
  | signed {text : List Char} {n : Nat} (htext : Decimal text n) : Denotes ('+' :: text) n

theorem digit?_eq_some_iff {c : Char} {d : Nat} :
    digit? c = some d ↔ c.isDigit = true ∧ c.toNat - '0'.toNat = d := by
  have hdigit : ('0' ≤ c ∧ c ≤ '9') ↔ c.isDigit = true := Char.isDigit_iff_toNat.symm
  unfold digit?
  by_cases h : c.isDigit = true
  · simp [hdigit, h]
  · simp [hdigit, h]

theorem le_ofDigitChars (cs : List Char) (value : Nat) : value ≤ Nat.ofDigitChars 10 cs value := by
  induction cs generalizing value with
  | nil => exact Nat.le_refl value
  | cons c cs ih =>
      rw [Nat.ofDigitChars_cons]
      have hrest := ih (10 * value + (c.toNat - '0'.toNat))
      omega

/-- Reading on from a value stops where a digit is missing or the limit is passed. -/
theorem digits_eq_ok_iff {limit value n : Nat} (hvalue : value ≤ limit) {cs : List Char} :
    digits limit value cs = .ok n ↔
      (∀ c ∈ cs, c.isDigit = true) ∧ Nat.ofDigitChars 10 cs value = n ∧ n ≤ limit := by
  induction cs generalizing value with
  | nil =>
      have hnil : Nat.ofDigitChars 10 [] value = value := rfl
      rw [digits, hnil, Except.ok.injEq]
      constructor
      · rintro rfl
        exact ⟨by simp, rfl, hvalue⟩
      · exact fun h => h.2.1
  | cons c cs ih =>
      rw [digits, List.forall_mem_cons, Nat.ofDigitChars_cons]
      cases hdigit : digit? c with
      | none =>
          have hnot : ¬c.isDigit = true := by
            intro h
            rw [digit?_eq_some_iff.mpr ⟨h, rfl⟩] at hdigit
            contradiction
          simp [hnot]
      | some d =>
          obtain ⟨hc, hd⟩ := digit?_eq_some_iff.mp hdigit
          have hmore := le_ofDigitChars cs (10 * value + d)
          simp only [hd, hc, true_and]
          by_cases hfits : 10 * value + d ≤ limit
          · rw [if_pos hfits, ih hfits]
          · rw [if_neg hfits]
            simp only [reduceCtorEq, false_iff, not_and]
            omega

theorem digits_zero_eq_ok_iff {limit n : Nat} {text : List Char} (hne : text ≠ []) :
    digits limit 0 text = .ok n ↔ Decimal text n ∧ n ≤ limit := by
  rw [digits_eq_ok_iff (Nat.zero_le limit)]
  constructor
  · rintro ⟨hdigits, hvalue, hfits⟩
    exact ⟨⟨hne, hdigits, hvalue⟩, hfits⟩
  · rintro ⟨htext, hfits⟩
    exact ⟨htext.digits, htext.value, hfits⟩

theorem denotes_iff_of_ne_plus {text : List Char} {n : Nat} (hplus : ∀ rest, text ≠ '+' :: rest) :
    Denotes text n ↔ Decimal text n := by
  constructor
  · intro h
    cases h with
    | plain htext => exact htext
    | signed => exact absurd rfl (hplus _)
  · exact .plain

theorem denotes_plus_iff {text : List Char} {n : Nat} :
    Denotes ('+' :: text) n ↔ Decimal text n := by
  constructor
  · intro h
    cases h with
    | plain htext => exact absurd (htext.digits '+' List.mem_cons_self) (by decide)
    | signed htext => exact htext
  · exact .signed

theorem parseChars_eq_ok_iff {limit n : Nat} {text : List Char} :
    parseChars limit text = .ok n ↔ Denotes text n ∧ n ≤ limit := by
  have hempty : ∀ {n : Nat}, ¬Decimal [] n := fun h => h.ne_nil rfl
  unfold parseChars
  split
  · rw [denotes_iff_of_ne_plus (by simp)]
    simp [hempty]
  · rw [denotes_plus_iff]
    simp [hempty]
  · rename_i rest hrest
    rw [denotes_plus_iff, digits_zero_eq_ok_iff fun hnil => hrest hnil]
  · rename_i hnil _ hplus
    rw [denotes_iff_of_ne_plus hplus, digits_zero_eq_ok_iff hnil]

end Unsigned

/-- A count is read exactly from the texts that denote it. -/
theorem parseCount_eq_ok_iff {text : String} {n : UInt64} :
    parseCount text = .ok n ↔ Unsigned.Denotes text.toList n.toNat := by
  have hbound : n.toNat ≤ maxCount := Nat.le_of_lt_succ n.toNat_lt
  rw [parseCount, map_eq_ok_iff, parseUnsigned]
  constructor
  · rintro ⟨m, hm, rfl⟩
    obtain ⟨hdenotes, hfits⟩ := Unsigned.parseChars_eq_ok_iff.mp hm
    have hword : m < 2 ^ 64 := Nat.lt_succ_of_le hfits
    rwa [UInt64.toNat_ofNat', Nat.mod_eq_of_lt hword]
  · intro hdenotes
    exact ⟨n.toNat, Unsigned.parseChars_eq_ok_iff.mpr ⟨hdenotes, hbound⟩, UInt64.ofNat_toNat⟩

end ZoneDemand
