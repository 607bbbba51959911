import ZoneDemand.Proofs.Outcomes
import ZoneDemand.Text.Utf8

/-!
# Well-formed octets

Octets are read as text exactly if they are encodings of characters one after another, so
two such lists one after the other are read as well.
-/

namespace ZoneDemand
namespace Utf8

inductive WellFormed : Bytes → Prop where
  | nil : WellFormed []
  | char {octets rest : Bytes} {c : Char} (hchar : decodeChar? octets = some (c, rest))
      (hrest : WellFormed rest) : WellFormed octets

/-- Reading a character looks at no octet after it. -/
theorem decodeChar?_append {octets rest : Bytes} {c : Char}
    (hchar : decodeChar? octets = some (c, rest)) (more : Bytes) :
    decodeChar? (octets ++ more) = some (c, rest ++ more) := by
  -- However many octets the character has, it is checked last that they are in range.
  have hread : ∀ {test : Bool} {d : Char} {tail : Bytes},
      (if test = true then some (d, tail) else none) = some (c, rest) →
      (if test = true then some (d, tail ++ more) else none) = some (c, rest ++ more) := by
    intro test d tail h
    cases test with
    | false => simp at h
    | true =>
        obtain ⟨rfl, rfl⟩ := Prod.mk.inj (Option.some.inj h)
        rfl
  cases octets with
  | nil => simp [decodeChar?] at hchar
  | cons a octets =>
      simp only [decodeChar?, List.cons_append] at hchar ⊢
      by_cases hone : a < 0x80
      · simp only [hone, if_true, Option.some.injEq, Prod.mk.injEq] at hchar ⊢
        exact ⟨hchar.1, congrArg (· ++ more) hchar.2⟩
      by_cases hnone : a < 0xC2
      · simp [hone, hnone] at hchar
      simp only [hone, hnone, if_false] at hchar ⊢
      cases octets with
      | nil => simp at hchar
      | cons b octets =>
          simp only [List.cons_append] at hchar ⊢
          by_cases htwo : a < 0xE0
          · simp only [htwo, if_true] at hchar ⊢
            exact hread hchar
          simp only [htwo, if_false] at hchar ⊢
          cases octets with
          | nil => simp at hchar
          | cons d octets =>
              simp only [List.cons_append] at hchar ⊢
              by_cases hthree : a < 0xF0
              · simp only [hthree, if_true] at hchar ⊢
                exact hread hchar
              simp only [hthree, if_false] at hchar ⊢
              cases octets with
              | nil => simp at hchar
              | cons e octets =>
                  simp only [List.cons_append] at hchar ⊢
                  exact hread hchar

theorem WellFormed.append {octets more : Bytes} (h : WellFormed octets) (hmore : WellFormed more) :
    WellFormed (octets ++ more) := by
  induction h with
  | nil => exact hmore
  | char hchar _ ih => exact .char (decodeChar?_append hchar more) ih

theorem decodeFrom_cons {position : Nat} {before : List Char} {octet : UInt8} {tail rest : Bytes}
    {c : Char} (hchar : decodeChar? (octet :: tail) = some (c, rest)) :
    decodeFrom position before (octet :: tail) =
      decodeFrom (position + c.utf8Size) (c :: before) rest := by
  rw [decodeFrom]
  split
  · rename_i hnone
    rw [hchar] at hnone
    contradiction
  · rename_i hsome
    rw [hchar, Option.some.injEq, Prod.mk.injEq] at hsome
    rw [hsome.1, hsome.2]

theorem decodeFrom_of_wellFormed {octets : Bytes} (h : WellFormed octets) (position : Nat)
    (before : List Char) : ∃ chars, decodeFrom position before octets = .ok chars := by
  induction h generalizing position before with
  | nil => exact ⟨before.reverse, by rw [decodeFrom]⟩
  | @char octets rest c hchar _ ih =>
      cases octets with
      | nil => simp [decodeChar?] at hchar
      | cons octet tail =>
          rw [decodeFrom_cons hchar]
          exact ih _ _

theorem wellFormed_of_decodeFrom {octets : Bytes} {position : Nat} {before chars : List Char}
    (hok : decodeFrom position before octets = .ok chars) : WellFormed octets := by
  induction hlength : octets.length using Nat.strongRecOn generalizing octets position before with
  | ind n ih =>
      cases octets with
      | nil => exact .nil
      | cons octet tail =>
          cases hchar : decodeChar? (octet :: tail) with
          | none =>
              rw [decodeFrom] at hok
              split at hok
              · simp at hok
              · rename_i hsome
                rw [hchar] at hsome
                contradiction
          | some read =>
              obtain ⟨c, rest⟩ := read
              rw [decodeFrom_cons hchar] at hok
              have hshort := length_lt_of_decodeChar? hchar
              exact .char hchar (ih rest.length (by omega) hok rfl)

theorem decode_isOk_iff {octets : Bytes} :
    (∃ text, decode octets = .ok text) ↔ WellFormed octets := by
  constructor
  · rintro ⟨text, htext⟩
    obtain ⟨chars, hchars, -⟩ := map_eq_ok_iff.mp htext
    exact wellFormed_of_decodeFrom hchars
  · intro h
    obtain ⟨chars, hchars⟩ := decodeFrom_of_wellFormed h 0 []
    exact ⟨String.ofList chars, map_eq_ok_iff.mpr ⟨chars, hchars, rfl⟩⟩

end Utf8
end ZoneDemand
