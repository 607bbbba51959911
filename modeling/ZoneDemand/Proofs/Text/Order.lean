import ZoneDemand.Text.Utf8

/-!
# The order of texts

Texts are ordered by their characters, which is the order of their octets: the encoding
of a smaller character comes before that of a larger one whatever follows them.
-/

namespace ZoneDemand
namespace Utf8

private theorem lt_of_octet {low high : Nat} (hlow : low < high) (hhigh : high < 256)
    (before after : Bytes) : UInt8.ofNat low :: before < UInt8.ofNat high :: after := by
  apply List.Lex.rel
  rw [UInt8.lt_iff_toNat_lt, UInt8.toNat_ofNat', UInt8.toNat_ofNat']
  omega

/-- Two numbers compare by their leading digit and then by what follows it. -/
private theorem lt_of_digit {low high : Nat} {before after : Bytes} (hle : low ≤ high)
    (hhigh : high < 256) (hrest : low = high → before < after) :
    UInt8.ofNat low :: before < UInt8.ofNat high :: after := by
  rcases Nat.lt_or_eq_of_le hle with hlt | heq
  · exact lt_of_octet hlt hhigh before after
  · rw [heq]
    exact List.Lex.cons (hrest heq)

theorem encodeChar_append_lt {c d : Char} (hlt : c < d) (before after : Bytes) :
    String.utf8EncodeChar c ++ before < String.utf8EncodeChar d ++ after := by
  have hnumbers : c.val.toNat < d.val.toNat := hlt
  have hbound : d.val.toNat < 0x110000 := by
    rcases d.valid with h | h
    · have := h
      omega
    · exact h.2
  unfold String.utf8EncodeChar
  generalize c.val.toNat = v at *
  generalize d.val.toNat = w at *
  by_cases hv1 : v ≤ 127
  · by_cases hw1 : w ≤ 127
    · simp only [hv1, hw1, if_true, List.cons_append]
      exact lt_of_octet hnumbers (by omega) _ _
    by_cases hw2 : w ≤ 2047
    · simp only [hv1, hw1, hw2, if_true, if_false, List.cons_append]
      exact lt_of_octet (by omega) (by omega) _ _
    by_cases hw3 : w ≤ 65535
    · simp only [hv1, hw1, hw2, hw3, if_true, if_false, List.cons_append]
      exact lt_of_octet (by omega) (by omega) _ _
    · simp only [hv1, hw1, hw2, hw3, if_true, if_false, List.cons_append]
      exact lt_of_octet (by omega) (by omega) _ _
  have hw1 : ¬w ≤ 127 := by omega
  by_cases hv2 : v ≤ 2047
  · by_cases hw2 : w ≤ 2047
    · simp only [hv1, hw1, hv2, hw2, if_true, if_false, List.cons_append]
      refine lt_of_digit (by omega) (by omega) fun _ => ?_
      exact lt_of_octet (by omega) (by omega) _ _
    by_cases hw3 : w ≤ 65535
    · simp only [hv1, hw1, hv2, hw2, hw3, if_true, if_false, List.cons_append]
      exact lt_of_octet (by omega) (by omega) _ _
    · simp only [hv1, hw1, hv2, hw2, hw3, if_true, if_false, List.cons_append]
      exact lt_of_octet (by omega) (by omega) _ _
  have hw2 : ¬w ≤ 2047 := by omega
  by_cases hv3 : v ≤ 65535
  · by_cases hw3 : w ≤ 65535
    · simp only [hv1, hw1, hv2, hw2, hv3, hw3, if_true, if_false, List.cons_append]
      refine lt_of_digit (by omega) (by omega) fun _ => ?_
      refine lt_of_digit (by omega) (by omega) fun _ => ?_
      exact lt_of_octet (by omega) (by omega) _ _
    · simp only [hv1, hw1, hv2, hw2, hv3, hw3, if_true, if_false, List.cons_append]
      exact lt_of_octet (by omega) (by omega) _ _
  have hw3 : ¬w ≤ 65535 := by omega
  simp only [hv1, hw1, hv2, hw2, hv3, hw3, if_false, List.cons_append]
  refine lt_of_digit (by omega) (by omega) fun _ => ?_
  refine lt_of_digit (by omega) (by omega) fun _ => ?_
  refine lt_of_digit (by omega) (by omega) fun _ => ?_
  exact lt_of_octet (by omega) (by omega) _ _

theorem encode_lt {a b : String} (hlt : a < b) : encode a < encode b := by
  have hchars : List.Lex (· < ·) a.toList b.toList := hlt
  unfold encode
  generalize a.toList = first at hchars ⊢
  generalize b.toList = second at hchars ⊢
  induction hchars with
  | @nil c rest =>
      rw [List.flatMap_nil, List.flatMap_cons]
      unfold String.utf8EncodeChar
      simp only
      split
      · exact List.Lex.nil
      · split
        · exact List.Lex.nil
        · split <;> exact List.Lex.nil
  | rel hchar =>
      rw [List.flatMap_cons, List.flatMap_cons]
      exact encodeChar_append_lt hchar _ _
  | cons _ ih =>
      rw [List.flatMap_cons, List.flatMap_cons]
      exact List.append_left_lt ih

theorem encode_lt_iff {a b : String} : encode a < encode b ↔ a < b := by
  refine ⟨fun hlt => ?_, encode_lt⟩
  by_cases hless : a < b
  · exact hless
  by_cases hmore : b < a
  · exact absurd hlt (List.lt_asymm (encode_lt hmore))
  · have heq : a = b := String.le_antisymm (String.not_lt.mp hmore) (String.not_lt.mp hless)
    rw [heq] at hlt
    exact absurd hlt (List.lt_irrefl _)

theorem encode_le_iff {a b : String} : encode a ≤ encode b ↔ a ≤ b := by
  rw [← List.not_lt, ← String.not_lt, encode_lt_iff]

end Utf8
end ZoneDemand
