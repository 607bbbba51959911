import ZoneDemand.Proofs.Text.Encoding

/-!
# Text is read only from its octets

A character is read only from its own octets, so octets that are read as a text are those of
the text.  Where octets are refused, those before the position are a text, and no character
begins behind it.
-/

namespace ZoneDemand
namespace Utf8

section Characters

variable {a b d e : UInt8}

theorem toNat_of_isContinuation (hb : isContinuation b = true) :
    128 ≤ b.toNat ∧ b.toNat < 192 := by
  rw [isContinuation, Bool.and_eq_true, decide_eq_true_eq, decide_eq_true_eq,
    UInt8.le_iff_toNat_le, UInt8.le_iff_toNat_le] at hb
  exact ⟨hb.1, Nat.lt_succ_of_le hb.2⟩

theorem ofNat_eq_of_toNat {n : Nat} (hn : a.toNat = n) : UInt8.ofNat n = a := by
  rw [← hn, UInt8.ofNat_toNat]

theorem toNat_ofNat_of_valid {n : Nat} (hn : n < 0xD800 ∨ 0xDFFF < n ∧ n < 0x110000) :
    (Char.ofNat n).val.toNat = n := by
  rw [Char.ofNat, dif_pos hn]
  rfl

theorem encodeChar_one (ha : a < 0x80) : String.utf8EncodeChar (Char.ofNat a.toNat) = [a] := by
  have hsmall : a.toNat < 128 := UInt8.lt_iff_toNat_lt.mp ha
  unfold String.utf8EncodeChar
  rw [toNat_ofNat_of_valid (by omega)]
  simp only
  rw [if_pos (by omega), UInt8.ofNat_toNat]

theorem encodeChar_two (ha : 194 ≤ a.toNat ∧ a.toNat < 224) (hb : 128 ≤ b.toNat ∧ b.toNat < 192) :
    String.utf8EncodeChar (Char.ofNat (a.toNat % 0x20 * 0x40 + payload b)) = [a, b] := by
  unfold String.utf8EncodeChar payload
  rw [toNat_ofNat_of_valid (by omega)]
  simp only
  rw [if_neg (by omega), if_pos (by omega)]
  congr 1
  · exact ofNat_eq_of_toNat (by omega)
  congr 1
  · exact ofNat_eq_of_toNat (by omega)

/-- Neither an overlong form nor a surrogate. -/
theorem encodeChar_three (ha : 224 ≤ a.toNat ∧ a.toNat < 240)
    (hb : 128 ≤ b.toNat ∧ b.toNat < 192) (hd : 128 ≤ d.toNat ∧ d.toNat < 192)
    (hlong : a.toNat = 224 → 160 ≤ b.toNat) (hsurrogate : a.toNat = 237 → b.toNat < 160) :
    String.utf8EncodeChar
        (Char.ofNat ((a.toNat % 0x10 * 0x40 + payload b) * 0x40 + payload d)) = [a, b, d] := by
  unfold String.utf8EncodeChar payload
  rw [toNat_ofNat_of_valid (by omega)]
  simp only
  rw [if_neg (by omega), if_neg (by omega), if_pos (by omega)]
  congr 1
  · exact ofNat_eq_of_toNat (by omega)
  congr 1
  · exact ofNat_eq_of_toNat (by omega)
  congr 1
  · exact ofNat_eq_of_toNat (by omega)

/-- Neither an overlong form nor above the last character. -/
theorem encodeChar_four (ha : 240 ≤ a.toNat ∧ a.toNat < 245)
    (hb : 128 ≤ b.toNat ∧ b.toNat < 192) (hd : 128 ≤ d.toNat ∧ d.toNat < 192)
    (he : 128 ≤ e.toNat ∧ e.toNat < 192) (hlong : a.toNat = 240 → 144 ≤ b.toNat)
    (hlast : a.toNat = 244 → b.toNat < 144) :
    String.utf8EncodeChar (Char.ofNat
        (((a.toNat % 0x08 * 0x40 + payload b) * 0x40 + payload d) * 0x40 + payload e)) =
      [a, b, d, e] := by
  unfold String.utf8EncodeChar payload
  rw [toNat_ofNat_of_valid (by omega)]
  simp only
  rw [if_neg (by omega), if_neg (by omega), if_neg (by omega)]
  congr 1
  · exact ofNat_eq_of_toNat (by omega)
  congr 1
  · exact ofNat_eq_of_toNat (by omega)
  congr 1
  · exact ofNat_eq_of_toNat (by omega)
  congr 1
  · exact ofNat_eq_of_toNat (by omega)

/-- A limit for the octet after one that begins the range. -/
theorem le_of_bne_or {m low high : UInt8} (h : (a != m || decide (low ≤ high)) = true)
    (heq : a.toNat = m.toNat) : low.toNat ≤ high.toNat := by
  rw [UInt8.toNat_inj] at heq
  rw [heq, bne_self_eq_false, Bool.false_or, decide_eq_true_eq] at h
  exact UInt8.le_iff_toNat_le.mp h

theorem encodeChar_of_decodeChar? {octets rest : Bytes} {c : Char}
    (hchar : decodeChar? octets = some (c, rest)) :
    octets = String.utf8EncodeChar c ++ rest := by
  cases octets with
  | nil => simp [decodeChar?] at hchar
  | cons a octets =>
      simp only [decodeChar?] at hchar
      by_cases hone : a < 0x80
      · simp only [hone, if_true, Option.some.injEq, Prod.mk.injEq] at hchar
        rw [← hchar.1, ← hchar.2, encodeChar_one hone]
        rfl
      by_cases hnone : a < 0xC2
      · simp [hone, hnone] at hchar
      simp only [hone, hnone, if_false] at hchar
      rw [UInt8.lt_iff_toNat_lt, Nat.not_lt] at hnone
      cases octets with
      | nil => simp at hchar
      | cons b octets =>
          simp only at hchar
          by_cases htwo : a < 0xE0
          · rw [if_pos htwo, Option.ite_none_right_eq_some, Option.some.injEq,
              Prod.mk.injEq] at hchar
            obtain ⟨hb, rfl, rfl⟩ := hchar
            rw [encodeChar_two ⟨hnone, UInt8.lt_iff_toNat_lt.mp htwo⟩
              (toNat_of_isContinuation hb)]
            rfl
          rw [if_neg htwo] at hchar
          rw [UInt8.lt_iff_toNat_lt, Nat.not_lt] at htwo
          cases octets with
          | nil => simp at hchar
          | cons d octets =>
              simp only at hchar
              by_cases hthree : a < 0xF0
              · rw [if_pos hthree, Option.ite_none_right_eq_some, Option.some.injEq,
                  Prod.mk.injEq] at hchar
                simp only [Bool.and_eq_true] at hchar
                obtain ⟨⟨⟨⟨hb, hd⟩, hlong⟩, hsurrogate⟩, rfl, rfl⟩ := hchar
                rw [encodeChar_three ⟨htwo, UInt8.lt_iff_toNat_lt.mp hthree⟩
                  (toNat_of_isContinuation hb) (toNat_of_isContinuation hd) (le_of_bne_or hlong)
                  fun heq => Nat.lt_succ_of_le (le_of_bne_or hsurrogate heq)]
                rfl
              rw [if_neg hthree] at hchar
              rw [UInt8.lt_iff_toNat_lt, Nat.not_lt] at hthree
              cases octets with
              | nil => simp at hchar
              | cons e octets =>
                  simp only [Option.ite_none_right_eq_some, Option.some.injEq, Prod.mk.injEq,
                    Bool.and_eq_true] at hchar
                  obtain ⟨⟨⟨⟨⟨⟨hb, hd⟩, he⟩, hfour⟩, hlong⟩, hlast⟩, rfl, rfl⟩ := hchar
                  have hrange := UInt8.lt_iff_toNat_lt.mp (of_decide_eq_true hfour)
                  rw [encodeChar_four ⟨hthree, hrange⟩ (toNat_of_isContinuation hb)
                    (toNat_of_isContinuation hd) (toNat_of_isContinuation he)
                    (le_of_bne_or hlong) fun heq => Nat.lt_succ_of_le (le_of_bne_or hlast heq)]
                  rfl

end Characters

/-! ## Texts -/

theorem decodeFrom_of_none {position : Nat} {before : List Char} {octet : UInt8} {tail : Bytes}
    (hnone : decodeChar? (octet :: tail) = none) :
    decodeFrom position before (octet :: tail) = .error position := by
  rw [decodeFrom]
  split
  · rfl
  · rename_i hsome
    rw [hnone] at hsome
    contradiction

/-- The octets are those of the characters, and then no character follows. -/
theorem decodeFrom_splits (position : Nat) (before : List Char) (octets : Bytes) :
    ∃ text rest, octets = text.flatMap String.utf8EncodeChar ++ rest ∧
      (rest = [] ∧ decodeFrom position before octets = .ok (before.reverse ++ text) ∨
        rest ≠ [] ∧ decodeChar? rest = none ∧ decodeFrom position before octets =
          .error (position + (text.flatMap String.utf8EncodeChar).length)) := by
  induction hlength : octets.length using Nat.strongRecOn generalizing octets position before with
  | ind n ih =>
      cases octets with
      | nil => exact ⟨[], [], rfl, .inl ⟨rfl, by rw [decodeFrom, List.append_nil]⟩⟩
      | cons octet tail =>
          cases hchar : decodeChar? (octet :: tail) with
          | none =>
              exact ⟨[], octet :: tail, rfl, .inr ⟨List.cons_ne_nil _ _, hchar,
                decodeFrom_of_none hchar⟩⟩
          | some read =>
              obtain ⟨c, after⟩ := read
              have hshort := length_lt_of_decodeChar? hchar
              obtain ⟨text, rest, hoctets, hend⟩ := ih after.length (by omega)
                (position + c.utf8Size) (c :: before) after rfl
              have hwhole : octet :: tail =
                  (c :: text).flatMap String.utf8EncodeChar ++ rest := by
                rw [encodeChar_of_decodeChar? hchar, hoctets, List.flatMap_cons,
                  List.append_assoc]
              refine ⟨c :: text, rest, hwhole, ?_⟩
              rw [decodeFrom_cons hchar, List.flatMap_cons, List.length_append,
                String.length_utf8EncodeChar, ← Nat.add_assoc]
              rw [List.reverse_cons, List.append_assoc, List.singleton_append] at hend
              exact hend

theorem decode_eq_ok_iff {octets : Bytes} {text : String} :
    decode octets = .ok text ↔ octets = encode text := by
  constructor
  · intro hok
    obtain ⟨chars, hchars, rfl⟩ := map_eq_ok_iff.mp hok
    obtain ⟨text, rest, hoctets, ⟨rfl, hdecode⟩ | ⟨-, -, hdecode⟩⟩ := decodeFrom_splits 0 [] octets
    · rw [hdecode, Except.ok.injEq] at hchars
      rw [hoctets, ← hchars, encode, String.toList_ofList, List.append_nil]
      rfl
    · rw [hdecode] at hchars
      contradiction
  · rintro rfl
    exact decode_encode text

/-- The octets up to the position are a text, and those from it on begin with no character. -/
structure IllFormedAt (octets : Bytes) (position : Nat) : Prop where
  before : ∃ text, octets.take position = encode text
  after : ∀ c rest, octets.drop position ≠ String.utf8EncodeChar c ++ rest
  more : position < octets.length

theorem illFormedAt_of_decode {octets : Bytes} {position : Nat}
    (herror : decode octets = .error position) : IllFormedAt octets position := by
  obtain ⟨text, rest, hoctets, ⟨-, hdecode⟩ | ⟨hne, hnone, hdecode⟩⟩ :=
    decodeFrom_splits 0 [] octets
  · rw [decode, hdecode] at herror
    contradiction
  · rw [decode, hdecode, map_error, Except.error.injEq, Nat.zero_add] at herror
    have htake : octets.take position = text.flatMap String.utf8EncodeChar := by
      rw [hoctets, ← herror, List.take_left]
    have hdrop : octets.drop position = rest := by
      rw [hoctets, ← herror, List.drop_left]
    constructor
    · exact ⟨String.ofList text, by rw [htake, encode, String.toList_ofList]⟩
    · intro c more hmore
      rw [← hdrop, hmore, decodeChar?_encodeChar] at hnone
      contradiction
    · rw [← hdrop] at hne
      exact Nat.lt_of_not_le fun hle => hne (List.drop_eq_nil_of_le hle)

theorem ne_encode_of_decode {octets : Bytes} {position : Nat}
    (herror : decode octets = .error position) (text : String) : octets ≠ encode text := by
  intro hoctets
  rw [decode_eq_ok_iff.mpr hoctets] at herror
  contradiction

theorem encode_injective {text other : String} (hsame : encode text = encode other) :
    text = other := by
  have hdecode := decode_encode text
  rwa [hsame, decode_encode, Except.ok.injEq, eq_comm] at hdecode

end Utf8
end ZoneDemand
