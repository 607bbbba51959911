import ZoneDemand.Proofs.Text.WellFormed

/-!
# Text that is read back

The octets of a text are read as that text: a character is read from its one to four octets,
whatever follows them.  Among the characters, only a line feed has the octet of a line feed.
-/

namespace ZoneDemand
namespace Utf8

/-! ## Octets -/

section Octets

variable {n m : Nat}

theorem toNat_octet (hn : n < 256) : (UInt8.ofNat n).toNat = n := by
  rw [UInt8.toNat_ofNat', Nat.mod_eq_of_lt hn]

theorem octet_lt_iff (hn : n < 256) (hm : m < 256) :
    UInt8.ofNat n < UInt8.ofNat m ↔ n < m := by
  rw [UInt8.lt_iff_toNat_lt, toNat_octet hn, toNat_octet hm]

theorem octet_le_iff (hn : n < 256) (hm : m < 256) :
    UInt8.ofNat n ≤ UInt8.ofNat m ↔ n ≤ m := by
  rw [UInt8.le_iff_toNat_le, toNat_octet hn, toNat_octet hm]

theorem octet_inj (hn : n < 256) (hm : m < 256) (heq : UInt8.ofNat n = UInt8.ofNat m) : n = m := by
  rw [← toNat_octet hn, heq, toNat_octet hm]

/-- A condition on the octets that follow one octet. -/
theorem bne_octet_or (hn : n < 256) (hm : m < 256) {test : Bool} (htest : n = m → test = true) :
    (UInt8.ofNat n != UInt8.ofNat m || test) = true := by
  rw [Bool.or_eq_true, bne_iff_ne]
  by_cases heq : n = m
  · exact .inr (htest heq)
  · exact .inl fun hoctets => heq (octet_inj hn hm hoctets)

theorem isContinuation_octet (hn : 128 ≤ n ∧ n < 192) : isContinuation (UInt8.ofNat n) = true := by
  have hlow : 0x80 ≤ UInt8.ofNat n := (octet_le_iff (n := 0x80) (by decide) (by omega)).mpr hn.1
  have hhigh : UInt8.ofNat n ≤ 0xBF :=
    (octet_le_iff (m := 0xBF) (by omega) (by decide)).mpr (by omega)
  simp [isContinuation, hlow, hhigh]

theorem payload_octet (hn : n < 256) : payload (UInt8.ofNat n) = n % 64 := by
  rw [payload, toNat_octet hn]

end Octets

/-! ## Characters -/

section Characters

variable {a b c d : Nat} (rest : Bytes)

theorem decodeChar?_one (ha : a < 128) :
    decodeChar? (UInt8.ofNat a :: rest) = some (Char.ofNat a, rest) := by
  have hone : UInt8.ofNat a < 0x80 := (octet_lt_iff (m := 0x80) (by omega) (by decide)).mpr ha
  simp [decodeChar?, hone, toNat_octet (by omega : a < 256)]

theorem decodeChar?_two (ha : 194 ≤ a ∧ a < 224) (hb : 128 ≤ b ∧ b < 192) :
    decodeChar? (UInt8.ofNat a :: UInt8.ofNat b :: rest) =
      some (Char.ofNat (a % 32 * 64 + b % 64), rest) := by
  have hone : ¬UInt8.ofNat a < 0x80 :=
    mt (octet_lt_iff (m := 0x80) (by omega) (by decide)).mp (by omega)
  have hnone : ¬UInt8.ofNat a < 0xC2 :=
    mt (octet_lt_iff (m := 0xC2) (by omega) (by decide)).mp (by omega)
  have htwo : UInt8.ofNat a < 0xE0 := (octet_lt_iff (m := 0xE0) (by omega) (by decide)).mpr ha.2
  simp only [decodeChar?, hone, hnone, htwo, if_true, if_false, isContinuation_octet hb,
    payload_octet (by omega : b < 256), toNat_octet (by omega : a < 256)]

/-- What is neither an overlong form nor a surrogate is read. -/
theorem decodeChar?_three (ha : 224 ≤ a ∧ a < 240) (hb : 128 ≤ b ∧ b < 192)
    (hc : 128 ≤ c ∧ c < 192) (hlong : a = 224 → 160 ≤ b) (hsurrogate : a = 237 → b < 160) :
    decodeChar? (UInt8.ofNat a :: UInt8.ofNat b :: UInt8.ofNat c :: rest) =
      some (Char.ofNat ((a % 16 * 64 + b % 64) * 64 + c % 64), rest) := by
  have hone : ¬UInt8.ofNat a < 0x80 :=
    mt (octet_lt_iff (m := 0x80) (by omega) (by decide)).mp (by omega)
  have hnone : ¬UInt8.ofNat a < 0xC2 :=
    mt (octet_lt_iff (m := 0xC2) (by omega) (by decide)).mp (by omega)
  have htwo : ¬UInt8.ofNat a < 0xE0 :=
    mt (octet_lt_iff (m := 0xE0) (by omega) (by decide)).mp (by omega)
  have hthree : UInt8.ofNat a < 0xF0 := (octet_lt_iff (m := 0xF0) (by omega) (by decide)).mpr ha.2
  have hlow : (UInt8.ofNat a != 0xE0 || decide (0xA0 ≤ UInt8.ofNat b)) = true :=
    bne_octet_or (m := 0xE0) (by omega) (by decide) fun heq =>
      decide_eq_true ((octet_le_iff (n := 0xA0) (by decide) (by omega)).mpr (hlong heq))
  have hhigh : (UInt8.ofNat a != 0xED || decide (UInt8.ofNat b ≤ 0x9F)) = true :=
    bne_octet_or (m := 0xED) (by omega) (by decide) fun heq =>
      decide_eq_true ((octet_le_iff (m := 0x9F) (by omega) (by decide)).mpr (by omega))
  simp only [decodeChar?, hone, hnone, htwo, hthree, if_true, if_false, isContinuation_octet hb,
    isContinuation_octet hc, hlow, hhigh, Bool.and_self, payload_octet (by omega : b < 256),
    payload_octet (by omega : c < 256), toNat_octet (by omega : a < 256)]

/-- What is neither an overlong form nor above the last character is read. -/
theorem decodeChar?_four (ha : 240 ≤ a ∧ a < 245) (hb : 128 ≤ b ∧ b < 192)
    (hc : 128 ≤ c ∧ c < 192) (hd : 128 ≤ d ∧ d < 192) (hlong : a = 240 → 144 ≤ b)
    (hlast : a = 244 → b < 144) :
    decodeChar?
        (UInt8.ofNat a :: UInt8.ofNat b :: UInt8.ofNat c :: UInt8.ofNat d :: rest) =
      some (Char.ofNat (((a % 8 * 64 + b % 64) * 64 + c % 64) * 64 + d % 64), rest) := by
  have hone : ¬UInt8.ofNat a < 0x80 :=
    mt (octet_lt_iff (m := 0x80) (by omega) (by decide)).mp (by omega)
  have hnone : ¬UInt8.ofNat a < 0xC2 :=
    mt (octet_lt_iff (m := 0xC2) (by omega) (by decide)).mp (by omega)
  have htwo : ¬UInt8.ofNat a < 0xE0 :=
    mt (octet_lt_iff (m := 0xE0) (by omega) (by decide)).mp (by omega)
  have hthree : ¬UInt8.ofNat a < 0xF0 :=
    mt (octet_lt_iff (m := 0xF0) (by omega) (by decide)).mp (by omega)
  have hfour : UInt8.ofNat a < 0xF5 := (octet_lt_iff (m := 0xF5) (by omega) (by decide)).mpr ha.2
  have hlow : (UInt8.ofNat a != 0xF0 || decide (0x90 ≤ UInt8.ofNat b)) = true :=
    bne_octet_or (m := 0xF0) (by omega) (by decide) fun heq =>
      decide_eq_true ((octet_le_iff (n := 0x90) (by decide) (by omega)).mpr (hlong heq))
  have hhigh : (UInt8.ofNat a != 0xF4 || decide (UInt8.ofNat b ≤ 0x8F)) = true :=
    bne_octet_or (m := 0xF4) (by omega) (by decide) fun heq =>
      decide_eq_true ((octet_le_iff (m := 0x8F) (by omega) (by decide)).mpr (by omega))
  simp only [decodeChar?, hone, hnone, htwo, hthree, hfour, if_true, if_false, decide_true,
    isContinuation_octet hb, isContinuation_octet hc, isContinuation_octet hd, hlow, hhigh,
    Bool.and_self, payload_octet (by omega : b < 256), payload_octet (by omega : c < 256),
    payload_octet (by omega : d < 256), toNat_octet (by omega : a < 256)]

end Characters

theorem decodeChar?_encodeChar (c : Char) (rest : Bytes) :
    decodeChar? (String.utf8EncodeChar c ++ rest) = some (c, rest) := by
  have hvalid : c.val.toNat < 0xD800 ∨ 0xDFFF < c.val.toNat ∧ c.val.toNat < 0x110000 := c.valid
  have hchar : Char.ofNat c.val.toNat = c := Char.ofNat_toNat c
  unfold String.utf8EncodeChar
  generalize c.val.toNat = v at hvalid hchar ⊢
  simp only
  split
  · rw [List.singleton_append, decodeChar?_one rest (by omega), hchar]
  split
  · have hvalue : (v / 64 % 32 + 192) % 32 * 64 + (v % 64 + 128) % 64 = v := by omega
    rw [List.cons_append, List.singleton_append, decodeChar?_two rest (by omega) (by omega),
      hvalue, hchar]
  split
  · have hvalue : ((v / 4096 % 16 + 224) % 16 * 64 + (v / 64 % 64 + 128) % 64) * 64 +
        (v % 64 + 128) % 64 = v := by omega
    rw [List.cons_append, List.cons_append, List.singleton_append,
      decodeChar?_three rest (by omega) (by omega) (by omega) (by omega) (by omega), hvalue, hchar]
  · have hvalue : (((v / 262144 % 8 + 240) % 8 * 64 + (v / 4096 % 64 + 128) % 64) * 64 +
        (v / 64 % 64 + 128) % 64) * 64 + (v % 64 + 128) % 64 = v := by omega
    rw [List.cons_append, List.cons_append, List.cons_append, List.singleton_append,
      decodeChar?_four rest (by omega) (by omega) (by omega) (by omega) (by omega) (by omega),
      hvalue, hchar]

/-! ## Texts -/

theorem decodeFrom_encode (position : Nat) (before text : List Char) :
    decodeFrom position before (text.flatMap String.utf8EncodeChar) =
      .ok (before.reverse ++ text) := by
  induction text generalizing position before with
  | nil => simp [decodeFrom]
  | cons c text ih =>
      have hchar := decodeChar?_encodeChar c (text.flatMap String.utf8EncodeChar)
      rw [List.flatMap_cons]
      cases hoctets : String.utf8EncodeChar c ++ text.flatMap String.utf8EncodeChar with
      | nil => rw [hoctets] at hchar; cases hchar
      | cons octet tail =>
          rw [hoctets] at hchar
          rw [decodeFrom_cons hchar, ih]
          simp

@[simp] theorem decode_encode (text : String) : decode (encode text) = .ok text := by
  rw [decode, encode, decodeFrom_encode]
  simp

@[simp] theorem decode?_encode (text : String) : decode? (encode text) = some text := by
  rw [decode?, decode_encode]
  rfl

/-- The octets of all characters that have more than one are larger. -/
theorem eq_newline_of_mem {c : Char} (hmem : 0x0A ∈ String.utf8EncodeChar c) : c = '\n' := by
  have hoctet : ∀ {n : Nat}, n < 256 → (0x0A : UInt8) = UInt8.ofNat n → n = 10 := fun hn heq =>
    (octet_inj (n := 10) (by decide) hn heq).symm
  have hchar : c.val.toNat = 10 := by
    unfold String.utf8EncodeChar at hmem
    generalize c.val.toNat = v at hmem ⊢
    simp only at hmem
    split at hmem
    · exact hoctet (by omega) (List.mem_singleton.mp hmem)
    split at hmem
    · rw [List.mem_cons, List.mem_singleton] at hmem
      rcases hmem with h | h
      all_goals
        have hlarge := hoctet (by omega) h
        omega
    split at hmem
    · rw [List.mem_cons, List.mem_cons, List.mem_singleton] at hmem
      rcases hmem with h | h | h
      all_goals
        have hlarge := hoctet (by omega) h
        omega
    · rw [List.mem_cons, List.mem_cons, List.mem_cons, List.mem_singleton] at hmem
      rcases hmem with h | h | h | h
      all_goals
        have hlarge := hoctet (by omega) h
        omega
  exact Char.ext (UInt32.toNat_inj.mp hchar)

theorem newline_not_mem_encode {text : String} (htext : '\n' ∉ text.toList) :
    (0x0A : UInt8) ∉ encode text := by
  intro hmem
  obtain ⟨c, hc, hoctet⟩ := List.mem_flatMap.mp hmem
  rw [eq_newline_of_mem hoctet] at hc
  exact htext hc

end Utf8
end ZoneDemand
