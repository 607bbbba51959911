import ZoneDemand.Csv
import Mathlib.Data.List.TakeWhile

/-!
# The rows of a content without quotes

Without quotes, reading a record at a time comes to the same as splitting the content at
line ends, leaving out the empty lines and splitting each line at its commas.
-/

namespace ZoneDemand
namespace Csv

/-- The fields of the lines that are not empty. -/
def rowsOf (lines : List Bytes) : List (List Bytes) :=
  (lines.filter fun line => line ≠ []).map fun line => line.splitOn comma

theorem rowsOf_append (lines others : List Bytes) :
    rowsOf (lines ++ others) = rowsOf lines ++ rowsOf others := by
  rw [rowsOf, List.filter_append, List.map_append]
  rfl

theorem rowsOf_cons_nil (lines : List Bytes) : rowsOf ([] :: lines) = rowsOf lines := by
  simp [rowsOf]

theorem rowsOf_cons_of_ne {line : Bytes} (hne : line ≠ []) (lines : List Bytes) :
    rowsOf (line :: lines) = line.splitOn comma :: rowsOf lines := by
  simp [rowsOf, hne]

def rows (content : Bytes) : List (List Bytes) := rowsOf (content.splitOnP isLineEnd)

theorem rows_nil : rows [] = [] := rowsOf_cons_nil []

/-- Whether a field has just begun or not, it is no quoted one. -/
def Mode.Unquoted (mode : Mode) : Prop := mode = .fieldStart ∨ mode = .plain

theorem action_of_unquoted {mode : Mode} {octet : UInt8} (hmode : mode.Unquoted)
    (hquote : octet ≠ quoteMark) :
    action mode octet =
      if octet = comma then .endField
      else if isLineEnd octet then .endRecord
      else .take .plain := by
  rcases hmode with rfl | rfl
  · simp only [action, hquote, if_false]
  · rfl

theorem isLineEnd_comma : isLineEnd comma = false := by decide

def firstLine (octets : Bytes) : Bytes := octets.takeWhile fun octet => !isLineEnd octet

def afterFirstLine (octets : Bytes) : Bytes := (octets.dropWhile fun octet => !isLineEnd octet).tail

section FirstLine

variable {octet : UInt8} {rest : Bytes}

theorem firstLine_of_lineEnd (hend : isLineEnd octet = true) : firstLine (octet :: rest) = [] := by
  simp [firstLine, hend]

theorem firstLine_of_content (hcontent : isLineEnd octet = false) :
    firstLine (octet :: rest) = octet :: firstLine rest := by
  simp [firstLine, hcontent]

theorem afterFirstLine_of_lineEnd (hend : isLineEnd octet = true) :
    afterFirstLine (octet :: rest) = rest := by
  simp [afterFirstLine, hend]

theorem afterFirstLine_of_content (hcontent : isLineEnd octet = false) :
    afterFirstLine (octet :: rest) = afterFirstLine rest := by
  simp [afterFirstLine, hcontent]

theorem not_lineEnd_of_mem_firstLine {octets : Bytes} (hmem : octet ∈ firstLine octets) :
    isLineEnd octet = false := by
  have hnot := List.mem_takeWhile_imp hmem
  simpa using hnot

end FirstLine

theorem splitOn_of_noComma {field : Bytes} (hfield : comma ∉ field) :
    field.splitOn comma = [field] := by
  rw [List.splitOn_eq_splitOnP]
  apply List.splitOnP_eq_singleton
  intro octet hmem
  apply beq_false_of_ne
  rintro rfl
  exact hfield hmem

theorem splitOn_append_comma {field : Bytes} (hfield : comma ∉ field) (line : Bytes) :
    (field ++ comma :: line).splitOn comma = field :: line.splitOn comma := by
  have hsplit := splitOn_of_noComma hfield
  rw [List.splitOn_eq_splitOnP] at hsplit ⊢
  rw [List.splitOnP_append_cons (p := fun octet => octet == comma) field line (by simp), hsplit,
    List.splitOn_eq_splitOnP]
  rfl

/-- Scanning splits what is open of a field, followed by the rest of its line. -/
theorem scanFields_of_unquoted {octets : Bytes} (hquote : quoteMark ∉ octets) {mode : Mode}
    (hmode : mode.Unquoted) (fields : List Bytes) {field : Bytes} (hfield : comma ∉ field)
    (place : Place) :
    (scanFields mode fields field place octets).1 =
        fields.reverse ++ (field.reverse ++ firstLine octets).splitOn comma ∧
      (scanFields mode fields field place octets).2.2 = afterFirstLine octets := by
  have hreverse : ∀ {part : Bytes}, comma ∉ part → comma ∉ part.reverse := by
    intro part hpart
    rwa [List.mem_reverse]
  have hdone := splitOn_of_noComma (hreverse hfield)
  induction octets generalizing mode fields field place with
  | nil =>
      simp only [scanFields, firstLine, afterFirstLine, List.takeWhile_nil, List.dropWhile_nil,
        List.append_nil, List.tail_nil, hdone, List.reverse_cons, and_self]
  | cons octet rest ih =>
      obtain ⟨hoctet, hrest⟩ := List.ne_and_not_mem_of_not_mem_cons hquote
      have haction := action_of_unquoted hmode (Ne.symm hoctet)
      by_cases hcomma : octet = comma
      · rw [if_pos hcomma] at haction
        rw [hcomma] at haction ⊢
        obtain ⟨hfields, htail⟩ := ih hrest (.inl rfl) (field.reverse :: fields)
          List.not_mem_nil (place.advance comma) rfl
        simp only [scanFields, haction]
        rw [hfields, htail, firstLine_of_content isLineEnd_comma,
          afterFirstLine_of_content isLineEnd_comma, splitOn_append_comma (hreverse hfield)]
        simp
      · rw [if_neg hcomma] at haction
        by_cases hend : isLineEnd octet = true
        · rw [if_pos hend] at haction
          simp only [scanFields, haction]
          rw [firstLine_of_lineEnd hend, afterFirstLine_of_lineEnd hend, List.append_nil, hdone,
            List.reverse_cons]
          exact ⟨rfl, rfl⟩
        · rw [if_neg hend] at haction
          rw [Bool.not_eq_true] at hend
          have hlonger : comma ∉ octet :: field :=
            List.not_mem_cons_of_ne_of_not_mem (Ne.symm hcomma) hfield
          obtain ⟨hfields, htail⟩ := ih hrest (.inr rfl) fields hlonger (place.advance octet)
            (splitOn_of_noComma (hreverse hlonger))
          simp only [scanFields, haction]
          rw [hfields, htail, firstLine_of_content hend, afterFirstLine_of_content hend,
            List.reverse_cons, List.append_assoc]
          exact ⟨rfl, rfl⟩

/-! ## Records -/

theorem rows_of_lineEnd {octet : UInt8} (hend : isLineEnd octet = true) (rest : Bytes) :
    rows (octet :: rest) = rows rest := by
  rw [rows, List.splitOnP_cons_eq_if_modifyHead, if_pos hend, rowsOf_cons_nil]
  rfl

theorem rows_of_content {octet : UInt8} (hcontent : isLineEnd octet = false) (rest : Bytes) :
    rows (octet :: rest) = (firstLine (octet :: rest)).splitOn comma ::
      rows (afterFirstLine (octet :: rest)) := by
  have hne : firstLine (octet :: rest) ≠ [] := by
    rw [firstLine_of_content hcontent]
    exact List.cons_ne_nil _ _
  have hline : ∀ x ∈ firstLine (octet :: rest), isLineEnd x = false := fun x hx =>
    not_lineEnd_of_mem_firstLine hx
  have hwhole : firstLine (octet :: rest) ++
      (octet :: rest).dropWhile (fun x => !isLineEnd x) = octet :: rest :=
    List.takeWhile_append_dropWhile
  generalize octet :: rest = octets at *
  unfold rows afterFirstLine
  cases hdrop : octets.dropWhile (fun x => !isLineEnd x) with
  | nil =>
      rw [hdrop, List.append_nil] at hwhole
      rw [hwhole] at hline hne
      rw [List.splitOnP_eq_singleton hline, hwhole, rowsOf_cons_of_ne hne]
      rfl
  | cons sep after =>
      have hsep : isLineEnd sep = true := by
        have hhead := List.head_dropWhile_not (fun x => !isLineEnd x) (by rw [hdrop]; simp)
        simpa [hdrop] using hhead
      have hsplit : octets.splitOnP isLineEnd = firstLine octets :: after.splitOnP isLineEnd := by
        rw [hdrop] at hwhole
        calc
          octets.splitOnP isLineEnd = (firstLine octets ++ sep :: after).splitOnP isLineEnd := by
            rw [hwhole]
          _ = firstLine octets :: after.splitOnP isLineEnd := by
            rw [List.splitOnP_append_cons _ _ hsep, List.splitOnP_eq_singleton hline]
            rfl
      rw [hsplit, rowsOf_cons_of_ne hne]
      rfl

/-! ## Record after record -/

section Steps

variable (index : Nat) (reported place : Place)

theorem recordsFrom_of_none {octets : Bytes} (hskip : (skipLineEnds place octets).2 = []) :
    recordsFrom index reported place octets = [] := by
  rw [recordsFrom]
  split
  · rfl
  · rename_i hsome
    rw [hsome] at hskip
    contradiction

theorem recordsFrom_of_some {octets rest after : Bytes} {begin next : Place} {octet : UInt8}
    {fields : List Bytes} (hskip : skipLineEnds place octets = (begin, octet :: rest))
    (hscan : scanFields .fieldStart [] [] begin (octet :: rest) = (fields, next, after)) :
    recordsFrom index reported place octets =
      ⟨index, reported, fields⟩ :: recordsFrom (index + 1) next next after := by
  rw [recordsFrom]
  split
  · rename_i hnone
    rw [hskip] at hnone
    simp at hnone
  · rename_i hsome
    rw [hskip, Prod.mk.injEq, List.cons.injEq] at hsome
    obtain ⟨rfl, rfl, rfl⟩ := hsome
    simp only [hscan]

theorem recordsFrom_skip {octet : UInt8} (hend : isLineEnd octet = true) (rest : Bytes) :
    recordsFrom index reported place (octet :: rest) =
      recordsFrom index reported (place.advance octet) rest := by
  have hskip : skipLineEnds place (octet :: rest) = skipLineEnds (place.advance octet) rest := by
    rw [skipLineEnds, if_pos hend]
  cases hrest : skipLineEnds (place.advance octet) rest with
  | mk begin left =>
      cases left with
      | nil => rw [recordsFrom_of_none _ _ _ (by rw [hskip, hrest]),
          recordsFrom_of_none _ _ _ (by rw [hrest])]
      | cons first left =>
          rw [recordsFrom_of_some _ _ _ (hskip.trans hrest) rfl,
            recordsFrom_of_some _ _ _ hrest rfl]

theorem skipLineEnds_of_content {octet : UInt8} (hcontent : isLineEnd octet = false)
    (rest : Bytes) : skipLineEnds place (octet :: rest) = (place, octet :: rest) := by
  rw [skipLineEnds, if_neg (by simp [hcontent])]

end Steps

theorem afterFirstLine_subset (octets : Bytes) : afterFirstLine octets ⊆ octets := by
  intro octet hmem
  exact (List.dropWhile_sublist _).subset (List.mem_of_mem_tail hmem)

theorem fields_recordsFrom (index : Nat) (reported place : Place) {octets : Bytes}
    (hquote : quoteMark ∉ octets) :
    (recordsFrom index reported place octets).map Record.fields = rows octets := by
  -- A record is followed by what is left of the content, so the induction is on its length.
  induction hlength : octets.length using Nat.strongRecOn
    generalizing index reported place octets with
  | ind n ih =>
      cases octets with
      | nil => rw [recordsFrom_of_none _ _ _ rfl, rows_nil, List.map_nil]
      | cons octet rest =>
          rw [List.length_cons] at hlength
          cases hend : isLineEnd octet with
          | true =>
              rw [recordsFrom_skip _ _ _ hend, rows_of_lineEnd hend]
              exact ih _ (by omega) _ _ _ (fun hmem => hquote (.tail _ hmem)) rfl
          | false =>
              have hshort := length_scanFields_cons_lt .fieldStart [] [] place octet rest
              obtain ⟨hfields, hafter⟩ := scanFields_of_unquoted hquote (.inl rfl) []
                List.not_mem_nil place
              rcases hscan : scanFields .fieldStart [] [] place (octet :: rest)
                with ⟨fields, next, after⟩
              rw [hscan] at hshort hfields hafter
              simp only [List.length_cons] at hshort hfields hafter
              have hnone : quoteMark ∉ after := fun hmem =>
                hquote (afterFirstLine_subset _ (hafter ▸ hmem))
              rw [recordsFrom_of_some _ _ _ (skipLineEnds_of_content place hend rest) hscan,
                List.map_cons, ih _ (by omega) _ _ _ hnone rfl, rows_of_content hend, hfields,
                hafter]
              rfl

/-- A content without quotes, which does not begin with a byte-order mark. -/
structure Plain (content : Bytes) : Prop where
  noQuote : quoteMark ∉ content
  noMark : ¬[0xEF, 0xBB, 0xBF] <+: content

instance (content : Bytes) : Decidable (Plain content) :=
  decidable_of_iff (quoteMark ∉ content ∧ ¬[0xEF, 0xBB, 0xBF] <+: content)
    ⟨fun h => ⟨h.1, h.2⟩, fun h => ⟨h.noQuote, h.noMark⟩⟩

theorem fields_records {content : Bytes} (hplain : Plain content) :
    (records content).map Record.fields = rows content := by
  unfold records
  split
  · rename_i rest
    exact absurd (List.prefix_append [0xEF, 0xBB, 0xBF] rest) hplain.noMark
  · exact fields_recordsFrom 0 .start .start hplain.noQuote

example : rows (Utf8.encode "a,b\r\n\n,c") = [[[0x61], [0x62]], [[], [0x63]]] := by decide

end Csv
end ZoneDemand
