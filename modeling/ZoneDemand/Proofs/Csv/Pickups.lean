import ZoneDemand.Pickup
import ZoneDemand.Proofs.Csv.Seams
import ZoneDemand.Proofs.Text.WellFormed
import Mathlib.Data.List.Forall2

/-!
# Pickups of rows

A content without quotes is read as pickups row by row.  The first row that is no pickup
decides the error, and two rows that have become one are told by their number of fields.
-/

namespace ZoneDemand

section Sequences

variable {ε α β : Type} {f : α → Except ε β}

theorem mapM_eq_ok_iff {list : List α} {results : List β} :
    list.mapM f = .ok results ↔ List.Forall₂ (fun a b => f a = .ok b) list results := by
  induction list generalizing results with
  | nil => simp [eq_comm]
  | cons a list ih =>
      rw [List.mapM_cons, bind_eq_ok_iff, List.forall₂_cons_left_iff]
      constructor
      · rintro ⟨b, hb, hrest⟩
        obtain ⟨others, hothers, hresults⟩ := bind_eq_ok_iff.mp hrest
        exact ⟨b, others, hb, ih.mp hothers, (Except.ok.inj hresults).symm⟩
      · rintro ⟨b, others, hb, hothers, rfl⟩
        exact ⟨b, hb, bind_eq_ok_iff.mpr ⟨others, ih.mpr hothers, rfl⟩⟩

theorem mapM_eq_error {before after : List α} {a : α} {e : ε}
    (hbefore : ∀ x ∈ before, ∃ b, f x = .ok b) (ha : f a = .error e) :
    (before ++ a :: after).mapM f = .error e := by
  induction before with
  | nil => rw [List.nil_append, List.mapM_cons, ha, error_bind]
  | cons x before ih =>
      obtain ⟨b, hb⟩ := hbefore x List.mem_cons_self
      have hrest := ih fun y hy => hbefore y (List.mem_cons_of_mem x hy)
      rw [List.cons_append, List.mapM_cons, hb, ok_bind, hrest, error_bind]

theorem exists_of_mapM_eq_error {list : List α} {e : ε}
    (herror : list.mapM f = .error e) :
    ∃ before a after, list = before ++ a :: after ∧ (∀ x ∈ before, ∃ b, f x = .ok b) ∧
      f a = .error e := by
  induction list with
  | nil => simp at herror
  | cons a list ih =>
      rw [List.mapM_cons] at herror
      cases ha : f a with
      | error e' =>
          rw [ha, error_bind, Except.error.injEq] at herror
          exact ⟨[], a, list, rfl, by simp, by rw [ha, herror]⟩
      | ok b =>
          rw [ha, ok_bind] at herror
          cases hrest : list.mapM f with
          | ok others => simp [hrest] at herror
          | error e' =>
              rw [hrest, error_bind, Except.error.injEq] at herror
              obtain ⟨before, x, after, rfl, hbefore, hx⟩ := ih (by rw [hrest, herror])
              refine ⟨a :: before, x, after, rfl, ?_, hx⟩
              rw [List.forall_mem_cons]
              exact ⟨⟨b, ha⟩, hbefore⟩

theorem exists_of_forall₂ {R : α → β → Prop} {list : List α} {results : List β}
    (h : List.Forall₂ R list results) : ∀ a ∈ list, ∃ b, R a b := by
  have hboth := h.imp fun a b hab => (⟨⟨b, hab⟩, hab⟩ : (∃ b, R a b) ∧ R a b)
  exact ((List.forall₂_and_left _ _).mp hboth).1

theorem exists_forall₂_of_forall {R : α → β → Prop} {list : List α}
    (h : ∀ a ∈ list, ∃ b, R a b) : ∃ others, List.Forall₂ R list others := by
  induction list with
  | nil => exact ⟨[], .nil⟩
  | cons a list ih =>
      obtain ⟨⟨b, hb⟩, hrest⟩ := List.forall_mem_cons.mp h
      obtain ⟨others, hothers⟩ := ih hrest
      exact ⟨b :: others, .cons hb hothers⟩

end Sequences

/-! ## The fields of a row -/

namespace Csv

def Legible (fields : List Bytes) : Prop := ∀ field ∈ fields, Utf8.WellFormed field

theorem legible_of_texts {fields : List Bytes} {read : List String}
    (hread : texts fields = .ok read) : Legible fields ∧ read.length = fields.length := by
  induction fields generalizing read with
  | nil =>
      rw [texts, Except.ok.injEq] at hread
      rw [← hread]
      exact ⟨by simp [Legible], rfl⟩
  | cons field fields ih =>
      rw [texts] at hread
      split at hread
      · simp at hread
      · rename_i text htext
        split at hread
        · simp at hread
        · rename_i others hothers
          obtain ⟨hlegible, hlength⟩ := ih hothers
          rw [Except.ok.injEq] at hread
          rw [← hread]
          constructor
          · intro x hx
            rcases List.mem_cons.mp hx with rfl | hx
            · exact Utf8.decode_isOk_iff.mp ⟨text, htext⟩
            · exact hlegible x hx
          · rw [List.length_cons, List.length_cons, hlength]

theorem texts_of_legible {fields : List Bytes} (h : Legible fields) :
    ∃ read, texts fields = .ok read := by
  induction fields with
  | nil => exact ⟨[], rfl⟩
  | cons field fields ih =>
      obtain ⟨text, htext⟩ := Utf8.decode_isOk_iff.mpr (h field List.mem_cons_self)
      obtain ⟨others, hothers⟩ := ih fun x hx => h x (List.mem_cons_of_mem field hx)
      exact ⟨text :: others, by rw [texts, htext, hothers]⟩

/-- Joining the last field of a row and the first of another loses one field and no more. -/
theorem legible_of_joined {left right whole : List Bytes} (h : JoinedPieces left right whole)
    (hleft : Legible left) (hright : Legible right) :
    Legible whole ∧ whole.length + 1 = left.length + right.length := by
  obtain ⟨front, last, first, back, rfl, rfl, rfl⟩ := h
  constructor
  · intro field hfield
    rw [List.mem_append, List.mem_cons] at hfield
    rcases hfield with hfront | rfl | hback
    · exact hleft field (List.mem_append_left _ hfront)
    · exact (hleft last (by simp)).append (hright first List.mem_cons_self)
    · exact hright field (List.mem_cons_of_mem first hback)
  · simp only [List.length_append, List.length_cons, List.length_nil]
    omega

end Csv

/-! ## Rows and pickups -/

/-- The row is read as the pickup. -/
def ReadsAs (fields : List Bytes) (pickup : Pickup) : Prop :=
  ∃ read, Csv.texts fields = .ok read ∧ Pickup.ofFields read = .ok pickup

/-- The row can be read as text and has too many fields. -/
def Overlong (fields : List Bytes) : Prop := Csv.Legible fields ∧ 4 < fields.length

theorem ReadsAs.legible {fields : List Bytes} {pickup : Pickup} (h : ReadsAs fields pickup) :
    Csv.Legible fields ∧ fields.length = 4 := by
  obtain ⟨read, hread, hpickup⟩ := h
  obtain ⟨hlegible, hlength⟩ := Csv.legible_of_texts hread
  refine ⟨hlegible, hlength.symm.trans ?_⟩
  unfold Pickup.ofFields at hpickup
  split at hpickup
  · rfl
  · simp at hpickup

theorem Pickup.ofRecord_eq_ok_iff {record : Csv.Record} {pickup : Pickup} :
    ofRecord record = .ok pickup ↔ ReadsAs record.fields pickup := by
  unfold ofRecord ReadsAs
  cases Csv.texts record.fields with
  | error fault => simp
  | ok read => cases hfields : ofFields read <;> simp [hfields]

theorem Pickup.ofRecord_of_overlong {record : Csv.Record} (h : Overlong record.fields) :
    ∃ read, ofRecord record = .error (.row record.place.line (.columns read)) := by
  obtain ⟨read, hread⟩ := Csv.texts_of_legible h.1
  have hlength := (Csv.legible_of_texts hread).2
  have hfields : ofFields read = .error (.columns read) := by
    unfold ofFields
    split
    · have hlong := h.2
      simp only [List.length_cons, List.length_nil] at hlength
      omega
    · rfl
  exact ⟨read, by rw [ofRecord, hread]; simp only [hfields]⟩

section Plain

variable {content : Bytes} (hplain : Csv.Plain content)
include hplain

theorem Pickup.ofBytes_eq_ok_iff {pickups : List Pickup} :
    ofBytes content = .ok pickups ↔ List.Forall₂ ReadsAs (Csv.rows content) pickups := by
  rw [← Csv.fields_records hplain, List.forall₂_map_left_iff, ofBytes, mapM_eq_ok_iff]
  simp only [ofRecord_eq_ok_iff]

theorem Pickup.ofBytes_of_overlong {before after : List (List Bytes)} {row : List Bytes}
    (hrows : Csv.rows content = before ++ row :: after)
    (hbefore : ∀ r ∈ before, ∃ pickup, ReadsAs r pickup) (hrow : Overlong row) :
    ∃ line read, ofBytes content = .error (.row line (.columns read)) := by
  rw [← Csv.fields_records hplain, List.map_eq_append_iff] at hrows
  obtain ⟨good, others, hrecords, rfl, hothers⟩ := hrows
  obtain ⟨record, rest, rfl, rfl, -⟩ := List.map_eq_cons_iff.mp hothers
  obtain ⟨read, hread⟩ := ofRecord_of_overlong hrow
  refine ⟨record.place.line, read, ?_⟩
  rw [ofBytes, hrecords]
  apply mapM_eq_error _ hread
  intro r hr
  obtain ⟨pickup, hpickup⟩ := hbefore r.fields (List.mem_map_of_mem hr)
  exact ⟨pickup, ofRecord_eq_ok_iff.mpr hpickup⟩

end Plain
end ZoneDemand
