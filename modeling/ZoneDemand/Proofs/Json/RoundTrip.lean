import ZoneDemand.SeriesRecord.Decode

/-!
# Strings and numbers that are read back

A string is read back from its characters between quotes, and a number from its decimal
digits before a mark that ends it.
-/

namespace ZoneDemand
namespace Json

open SeriesRecord

/-! ## Strings -/

theorem hexDigits_of_control {n : Nat} (hcontrol : n < 0x20) :
    (Nat.toDigits 16 n).leftpad 4 '0' = ['0', '0', (n / 16).digitChar, (n % 16).digitChar] := by
  have hdigits : ∀ n < 0x20, (Nat.toDigits 16 n).leftpad 4 '0' =
      ['0', '0', (n / 16).digitChar, (n % 16).digitChar] := by decide
  exact hdigits n hcontrol

theorem readHex_of_control {n : Nat} (hcontrol : n < 0x20) (rest : List Char) :
    readHex ((Nat.toDigits 16 n).leftpad 4 '0' ++ rest) = .ok (n, rest) := by
  have hvalues : ∀ n < 0x20, hexValue? (n / 16).digitChar = some (n / 16) ∧
      hexValue? (n % 16).digitChar = some (n % 16) ∧
      (n / 16).digitChar.utf8Size = 1 ∧ (n % 16).digitChar.utf8Size = 1 := by decide
  obtain ⟨hhigh, hlow, hhighSize, hlowSize⟩ := hvalues n hcontrol
  have hzero : hexValue? '0' = some 0 := by decide
  have hzeroSize : '0'.utf8Size = 1 := by decide
  rw [hexDigits_of_control hcontrol]
  unfold readHex
  simp only [List.cons_append, List.nil_append, List.take_succ_cons, List.take_zero,
    List.map_cons, List.map_nil, List.foldr_cons, List.foldr_nil, hzeroSize, hhighSize, hlowSize,
    hzero, hhigh, hlow]
  simp only [Nat.reduceAdd, Nat.lt_irrefl, if_false, Except.ok.injEq, Prod.mk.injEq, and_true]
  omega

theorem readEscape_of_control {c : Char} (hcontrol : c.toNat < 0x20) (rest : List Char) :
    readEscape ('u' :: ((Nat.toDigits 16 c.toNat).leftpad 4 '0' ++ rest)) = .ok (c, rest) := by
  have hlow : isLowSurrogate c.toNat = false := by
    simp [isLowSurrogate]
    omega
  have hhigh : isHighSurrogate c.toNat = false := by
    simp [isHighSurrogate]
    omega
  have hhex := readHex_of_control hcontrol rest
  generalize (Nat.toDigits 16 c.toNat).leftpad 4 '0' ++ rest = text at hhex ⊢
  simp [readEscape, hhex, hlow, hhigh]

theorem readChars_of_escape {c : Char} {text rest cs after : List Char}
    (hescape : readEscape text = .ok (c, rest)) (hrest : readChars rest = .ok (cs, after)) :
    readChars ('\\' :: text) = .ok (c :: cs, after) := by
  rw [readChars, if_neg (by decide), if_pos rfl]
  split
  · rename_i herror
    rw [hescape] at herror
    cases herror
  · rename_i hread
    rw [hescape] at hread
    cases hread
    rw [hrest]

theorem readChars_of_plain {c : Char} {rest cs after : List Char} (hquote : c ≠ '"')
    (hbackslash : c ≠ '\\') (hprintable : ¬c.toNat < 0x20)
    (hrest : readChars rest = .ok (cs, after)) :
    readChars (c :: rest) = .ok (c :: cs, after) := by
  rw [readChars, if_neg hquote, if_neg hbackslash, if_neg hprintable, hrest]

theorem readChars_escapeChar {c : Char} {rest cs after : List Char}
    (hrest : readChars rest = .ok (cs, after)) :
    readChars (escapeChar c ++ rest) = .ok (c :: cs, after) := by
  have hletter : ∀ {mark d : Char}, mark ≠ 'u' → shortEscape? mark = some d →
      readChars ('\\' :: mark :: rest) = .ok (d :: cs, after) := by
    intro mark d hmark hshort
    apply readChars_of_escape _ hrest
    unfold readEscape
    split
    · simp_all
    · simp_all
    · simp_all
  unfold escapeChar
  iterate 7
    split
    · subst c
      exact hletter (by decide) rfl
  split
  · rename_i hcontrol
    exact readChars_of_escape (readEscape_of_control hcontrol rest) hrest
  · rename_i hquote hbackslash _ _ _ _ _ hprintable
    exact readChars_of_plain hquote hbackslash hprintable hrest

theorem readChars_closing (after : List Char) : readChars ('"' :: after) = .ok ([], after) := by
  rw [readChars, if_pos rfl]

theorem readChars_escaped (text after : List Char) :
    readChars (text.flatMap escapeChar ++ '"' :: after) = .ok (text, after) := by
  induction text with
  | nil => exact readChars_closing after
  | cons c text ih =>
      rw [List.flatMap_cons, List.append_assoc]
      exact readChars_escapeChar ih

/-! ## Numbers -/

/-- The decimal digits of a number, read as far as digits go. -/
structure Numeral (n : Nat) (digits : List Nat) : Prop where
  span : spanDigits (numberChars n) = (digits, [])
  value : n ≤ maxCount → extend 0 digits = (n, [])
  leading : digits = [n] ∨ ∃ d rest, digits = d :: rest ∧ d ≠ 0

theorem spanDigits_append {cs : List Char} {digits : List Nat}
    (hspan : spanDigits cs = (digits, [])) (rest : List Char) :
    spanDigits (cs ++ rest) = (digits ++ (spanDigits rest).1, (spanDigits rest).2) := by
  induction cs generalizing digits with
  | nil =>
      obtain ⟨rfl, -⟩ := Prod.mk.inj hspan
      rfl
  | cons c cs ih =>
      unfold spanDigits at hspan
      rw [List.cons_append]
      conv => lhs; unfold spanDigits
      cases hdigit : Unsigned.digit? c with
      | none => simp [hdigit] at hspan
      | some d =>
          simp only [hdigit, Prod.mk.injEq] at hspan ⊢
          obtain ⟨hdigits, hempty⟩ := hspan
          have hrest : spanDigits cs = ((spanDigits cs).1, []) := by rw [← hempty]
          rw [ih hrest, ← hdigits]
          exact ⟨rfl, rfl⟩

theorem extend_append {significand value d : Nat} {digits : List Nat}
    (hextend : extend significand digits = (value, [])) (hbound : 10 * value + d ≤ maxCount) :
    extend significand (digits ++ [d]) = (10 * value + d, []) := by
  induction digits generalizing significand with
  | nil =>
      obtain ⟨rfl, -⟩ := Prod.mk.inj hextend
      simp [extend, hbound]
  | cons digit digits ih =>
      unfold extend at hextend
      rw [List.cons_append]
      unfold extend
      split at hextend
      · rename_i hfits
        rw [if_pos hfits]
        exact ih hextend
      · simp at hextend

theorem spanDigits_digitChar {d : Nat} (hd : d < 10) : spanDigits [d.digitChar] = ([d], []) := by
  have hdigits : ∀ d < 10, spanDigits [d.digitChar] = ([d], []) := by decide
  exact hdigits d hd

theorem exists_numeral (n : Nat) : ∃ digits, Numeral n digits := by
  induction n using Nat.strongRecOn with
  | ind n ih =>
      by_cases hsmall : n < 10
      · refine ⟨[n], ?_, ?_, .inl rfl⟩
        · rw [numberChars, Nat.toDigits_of_lt_base hsmall, spanDigits_digitChar hsmall]
        · intro hbound
          simp [extend, hbound]
      -- The last digit stands behind those of the tenth part.
      · obtain ⟨digits, hspan, hvalue, hleading⟩ := ih (n / 10) (by omega)
        have hsplit : numberChars n = numberChars (n / 10) ++ [(n % 10).digitChar] :=
          Nat.toDigits_of_base_le (by decide) (by omega)
        refine ⟨digits ++ [n % 10], ?_, ?_, .inr ?_⟩
        · rw [hsplit, spanDigits_append hspan, spanDigits_digitChar (by omega)]
        · intro hbound
          rw [extend_append (hvalue (by omega)) (by omega)]
          congr 1
          omega
        · rcases hleading with rfl | ⟨d, rest, rfl, hd⟩
          · exact ⟨n / 10, _, rfl, by omega⟩
          · exact ⟨d, _, rfl, hd⟩

/-- A mark that ends a number. -/
def EndsNumber (mark : Char) : Prop := mark = ',' ∨ mark = ']'

theorem readMagnitude_numberChars {n : Nat} {mark : Char} (hbound : n ≤ maxCount)
    (hmark : EndsNumber mark) (after : List Char) :
    readMagnitude false (numberChars n ++ mark :: after) = .ok (some n, mark :: after) := by
  obtain ⟨digits, hspan, hvalue, hleading⟩ := exists_numeral n
  have hnodigit : Unsigned.digit? mark = none := by
    rcases hmark with rfl | rfl <;> decide
  have hrest : spanDigits (mark :: after) = ([], mark :: after) := by
    simp [spanDigits, hnodigit]
  have htext : spanDigits (numberChars n ++ mark :: after) = (digits, mark :: after) := by
    rw [spanDigits_append hspan, hrest, List.append_nil]
  have htail : readTail false n 0 (mark :: after) = .ok (some n, mark :: after) := by
    rcases hmark with rfl | rfl <;> simp [readTail]
  unfold readMagnitude
  rw [htext]
  split
  · rename_i hempty
    simp at hempty
  · rename_i hdigits _
    rw [Prod.mk.injEq] at hdigits
    rcases hleading with rfl | ⟨d, rest, rfl, -⟩ <;> simp at hdigits
  · rename_i hdigits _
    rw [Prod.mk.injEq] at hdigits
    rcases hleading with rfl | ⟨d, rest, rfl, hd⟩
    · simp at hdigits
    · exact absurd (List.cons.inj hdigits.1).1 hd
  · rename_i hdigits _
    obtain ⟨rfl, rfl⟩ := Prod.mk.inj hdigits
    rw [hvalue hbound]
    exact htail

theorem numberChars_head (n : Nat) : ∃ c rest, numberChars n = c :: rest ∧ c.isDigit = true := by
  cases hchars : numberChars n with
  | nil => exact absurd hchars Nat.toDigits_ne_nil
  | cons c rest =>
      have hmem : c ∈ Nat.toDigits 10 n := by
        rw [← numberChars, hchars]
        exact List.mem_cons_self
      exact ⟨c, rest, rfl, Nat.isDigit_of_mem_toDigits (by decide) (by decide) hmem⟩

theorem readNumber_numberChars {n : Nat} {mark : Char} (hbound : n ≤ maxCount)
    (hmark : EndsNumber mark) (after : List Char) :
    readNumber (numberChars n ++ mark :: after) = .ok (some n, mark :: after) := by
  obtain ⟨c, rest, hchars, hdigit⟩ := numberChars_head n
  have hmagnitude := readMagnitude_numberChars hbound hmark after
  unfold readNumber
  rw [hchars] at hmagnitude ⊢
  split
  · rename_i hminus
    rw [List.cons_append, List.cons.injEq] at hminus
    rw [hminus.1] at hdigit
    simp at hdigit
  · exact hmagnitude

theorem skipBlanks_of_digit {c : Char} {rest : List Char} (hdigit : c.isDigit = true) :
    skipBlanks (c :: rest) = c :: rest := by
  have hplain : isBlankMark c = false := by
    unfold isBlankMark
    rw [Bool.eq_false_iff]
    intro hblank
    simp only [Bool.or_eq_true, decide_eq_true_eq] at hblank
    rcases hblank with ((rfl | rfl) | rfl) | rfl <;> simp at hdigit
  simp [skipBlanks, hplain]

end Json
end ZoneDemand
