import ZoneDemand.Proofs.Csv.Rows
import Mathlib.Data.List.Chain

/-!
# Where contents meet

Splitting two lists one after the other splits each of them, except that the last piece of
the one and the first of the other become one piece.  If a line ends where two contents meet,
one of these pieces is empty and no row is lost or gained; otherwise two rows become one.
-/

namespace ZoneDemand

/-- The pieces of two lists, those that meet having become one. -/
def JoinedPieces {α : Type} (left right whole : List (List α)) : Prop :=
  ∃ front last first back, left = front ++ [last] ∧ right = first :: back ∧
    whole = front ++ (last ++ first) :: back

theorem joinedPieces_splitOnP {α : Type} (p : α → Bool) (left right : List α) :
    JoinedPieces (left.splitOnP p) (right.splitOnP p) ((left ++ right).splitOnP p) := by
  induction left with
  | nil =>
      obtain ⟨first, back, hright⟩ := List.exists_cons_of_ne_nil (List.splitOnP_ne_nil p right)
      exact ⟨[], [], first, back, rfl, hright, hright⟩
  | cons x left ih =>
      obtain ⟨front, last, first, back, hleft, hright, hwhole⟩ := ih
      rw [List.cons_append]
      by_cases hx : p x = true
      · refine ⟨[] :: front, last, first, back, ?_, hright, ?_⟩
        · rw [List.splitOnP_cons_eq_if_modifyHead, if_pos hx, hleft]
          rfl
        · rw [List.splitOnP_cons_eq_if_modifyHead, if_pos hx, hwhole]
          rfl
      · rw [List.splitOnP_cons_eq_if_modifyHead, List.splitOnP_cons_eq_if_modifyHead, if_neg hx,
          if_neg hx, hleft, hwhole]
        cases front with
        | nil => exact ⟨[], x :: last, first, back, rfl, hright, rfl⟩
        | cons piece front =>
            exact ⟨(x :: piece) :: front, last, first, back, rfl, hright, rfl⟩

namespace Csv

def EndsLine (content : Bytes) : Prop := content.getLast?.any isLineEnd = true

def StartsLine (content : Bytes) : Prop := content.head?.any isLineEnd = true

/-- A line ends where two contents meet. -/
def LineEndsBetween (left right : Bytes) : Prop := EndsLine left ∨ StartsLine right

instance (left right : Bytes) : Decidable (LineEndsBetween left right) :=
  inferInstanceAs (Decidable (_ = true ∨ _ = true))

/-- Lines end wherever contents meet, the empty ones aside. -/
def Separated (contents : List Bytes) : Prop :=
  (contents.filter fun content => content ≠ []).IsChain LineEndsBetween

instance (contents : List Bytes) : Decidable (Separated contents) :=
  inferInstanceAs (Decidable (List.IsChain _ _))

theorem rows_append_lineEnd {octet : UInt8} (hend : isLineEnd octet = true) (left right : Bytes) :
    rows (left ++ octet :: right) = rows left ++ rows right := by
  rw [rows, List.splitOnP_append_cons left right hend, rowsOf_append]
  rfl

/-- Where a line ends, every row of the whole is one of the parts. -/
theorem rows_append_of_lineEndsBetween {left right : Bytes} (h : LineEndsBetween left right) :
    rows (left ++ right) = rows left ++ rows right := by
  rcases h with hends | hstarts
  · obtain ⟨octet, hlast, hend⟩ := (Option.any_eq_true _ _).mp hends
    obtain ⟨before, rfl⟩ := List.getLast?_eq_some_iff.mp hlast
    have hleft := rows_append_lineEnd hend before []
    rw [rows_nil, List.append_nil] at hleft
    rw [List.append_assoc, List.singleton_append, rows_append_lineEnd hend, hleft]
  · obtain ⟨octet, hfirst, hend⟩ := (Option.any_eq_true _ _).mp hstarts
    obtain ⟨after, rfl⟩ := List.head?_eq_some_iff.mp hfirst
    rw [rows_append_lineEnd hend, rows_of_lineEnd hend]

theorem exists_first_piece {content : Bytes} (hne : content ≠ []) (h : ¬StartsLine content) :
    ∃ first back, content.splitOnP isLineEnd = first :: back ∧ first ≠ [] := by
  cases content with
  | nil => exact absurd rfl hne
  | cons octet rest =>
      have hcontent : ¬isLineEnd octet = true := h
      have hrest := List.exists_cons_of_ne_nil (List.splitOnP_ne_nil isLineEnd rest)
      obtain ⟨piece, pieces, hpieces⟩ := hrest
      refine ⟨octet :: piece, pieces, ?_, List.cons_ne_nil octet piece⟩
      rw [List.splitOnP_cons_eq_if_modifyHead, if_neg hcontent, hpieces, List.modifyHead_cons]

theorem exists_last_piece {content : Bytes} (hne : content ≠ []) (h : ¬EndsLine content) :
    ∃ front last, content.splitOnP isLineEnd = front ++ [last] ∧ last ≠ [] := by
  obtain ⟨before, octet, rfl⟩ := (List.eq_nil_or_concat' content).resolve_left hne
  have hcontent : isLineEnd octet = false := by
    simpa [EndsLine] using h
  have hone : [octet].splitOnP isLineEnd = [[octet]] := by
    apply List.splitOnP_eq_singleton
    simpa using hcontent
  obtain ⟨front, last, first, back, -, hright, hwhole⟩ :=
    joinedPieces_splitOnP isLineEnd before [octet]
  obtain ⟨rfl, rfl⟩ := List.cons.inj (hone.symm.trans hright)
  exact ⟨front, last ++ [octet], hwhole, by simp⟩

/-- Where no line ends, the last row of the one part and the first of the other are joined. -/
theorem rows_append_of_not_lineEndsBetween {left right : Bytes} (hleft : left ≠ [])
    (hright : right ≠ []) (h : ¬LineEndsBetween left right) :
    ∃ before last first after joined, rows left = before ++ [last] ∧ rows right = first :: after ∧
      JoinedPieces last first joined ∧ rows (left ++ right) = before ++ joined :: after := by
  rw [LineEndsBetween, not_or] at h
  obtain ⟨front, last, hlast, hlastNe⟩ := exists_last_piece hleft h.1
  obtain ⟨first, back, hfirst, hfirstNe⟩ := exists_first_piece hright h.2
  obtain ⟨front', last', first', back', hlast', hfirst', hwhole⟩ :=
    joinedPieces_splitOnP isLineEnd left right
  obtain ⟨rfl, hsame⟩ := List.append_inj' (hlast.symm.trans hlast') rfl
  obtain ⟨rfl, -⟩ := List.cons.inj hsame
  obtain ⟨rfl, rfl⟩ := List.cons.inj (hfirst.symm.trans hfirst')
  have hjoined : last ++ first ≠ [] := List.append_ne_nil_of_left_ne_nil hlastNe first
  have hpieces := joinedPieces_splitOnP (fun octet => octet == comma) last first
  refine ⟨rowsOf front, _, _, rowsOf back, _, ?_, ?_, hpieces, ?_⟩
  · rw [rows, hlast, rowsOf_append, rowsOf_cons_of_ne hlastNe]
    rfl
  · rw [rows, hfirst, rowsOf_cons_of_ne hfirstNe]
    rfl
  · rw [rows, hwhole, rowsOf_append, rowsOf_cons_of_ne hjoined]
    rfl

end Csv
end ZoneDemand
