import ZoneDemand.Proofs.Csv.Pickups

/-!
# Contents one after another

Contents that are read each on its own are read one after another as well, if a line ends
wherever two of them meet.  If somewhere no line ends, two rows of four fields have run
together there into one of seven or more, and the rows before it are still read.
-/

namespace ZoneDemand

namespace Csv

def EveryRowReads (content : Bytes) : Prop := ∀ row ∈ rows content, ∃ pickup, ReadsAs row pickup

theorem lineEndsBetween_append_iff {left right : Bytes} (hright : right ≠ []) (more : Bytes) :
    LineEndsBetween left (right ++ more) ↔ LineEndsBetween left right := by
  obtain ⟨octet, rest, rfl⟩ := List.exists_cons_of_ne_nil hright
  rfl

section Meeting

variable {contents : List Bytes}

theorem rows_flatten_of_isChain (hne : ∀ content ∈ contents, content ≠ [])
    (hchain : contents.IsChain LineEndsBetween) :
    rows contents.flatten = contents.flatMap rows := by
  induction contents with
  | nil => exact rows_nil
  | cons content contents ih =>
      have hothers := fun c hc => hne c (List.mem_cons_of_mem content hc)
      rw [List.flatten_cons, List.flatMap_cons]
      cases contents with
      | nil =>
          rw [List.flatten_nil, List.flatMap_nil, List.append_nil, List.append_nil]
      | cons next rest =>
          obtain ⟨hseam, hrest⟩ := List.isChain_cons_cons.mp hchain
          have hnext : LineEndsBetween content (next :: rest).flatten :=
            (lineEndsBetween_append_iff (hothers next List.mem_cons_self) rest.flatten).mpr hseam
          rw [rows_append_of_lineEndsBetween hnext, ih hothers hrest]

theorem flatMap_rows_filter (contents : List Bytes) :
    (contents.filter fun content => content ≠ []).flatMap rows = contents.flatMap rows := by
  induction contents with
  | nil => rfl
  | cons content contents ih =>
      by_cases hempty : content = []
      · subst hempty
        rw [List.filter_cons_of_neg (by simp), ih, List.flatMap_cons, rows_nil, List.nil_append]
      · rw [List.filter_cons_of_pos (by simpa using hempty), List.flatMap_cons, ih,
          List.flatMap_cons]

theorem ne_nil_of_mem_filter {content : Bytes}
    (hcontent : content ∈ contents.filter fun content => content ≠ []) : content ≠ [] :=
  of_decide_eq_true (List.mem_filter.mp hcontent).2

theorem rows_flatten_of_separated (hseparated : Separated contents) :
    rows contents.flatten = contents.flatMap rows := by
  have hchain := rows_flatten_of_isChain (fun _ => ne_nil_of_mem_filter) hseparated
  rw [← List.flatten_filter_ne_nil, hchain, flatMap_rows_filter]

/-- Among the rows there is one that is too long, and all before it are read. -/
def RunsTogether (content : Bytes) : Prop :=
  ∃ before row after, rows content = before ++ row :: after ∧
    (∀ r ∈ before, ∃ pickup, ReadsAs r pickup) ∧ Overlong row

/-- The first row of what comes after a seam has all the fields of a record, whether it has
run together with the next one or not. -/
theorem legible_first_row {content : Bytes} {first : List Bytes} {others : List (List Bytes)}
    (hcontent : EveryRowReads content ∨ RunsTogether content)
    (hfirst : rows content = first :: others) : Legible first ∧ 4 ≤ first.length := by
  have hread : (∃ pickup, ReadsAs first pickup) → Legible first ∧ 4 ≤ first.length := by
    rintro ⟨pickup, hpickup⟩
    exact ⟨hpickup.legible.1, hpickup.legible.2.ge⟩
  rcases hcontent with hall | ⟨before, row, after, hrows, hbefore, hrow⟩
  · apply hread
    apply hall
    rw [hfirst]
    exact List.mem_cons_self
  · rw [hfirst] at hrows
    cases before with
    | nil =>
        obtain ⟨rfl, -⟩ := List.cons.inj hrows
        exact ⟨hrow.1, hrow.2.le⟩
    | cons r before =>
        obtain ⟨rfl, -⟩ := List.cons.inj hrows
        exact hread (hbefore first List.mem_cons_self)

theorem everyRowReads_flatMap (hread : ∀ content ∈ contents, EveryRowReads content) :
    ∀ row ∈ contents.flatMap rows, ∃ pickup, ReadsAs row pickup := by
  intro row hrow
  obtain ⟨content, hcontent, hmem⟩ := List.mem_flatMap.mp hrow
  exact hread content hcontent row hmem

theorem RunsTogether.append_left {left right : Bytes} (h : RunsTogether right)
    (hleft : EveryRowReads left) (hseam : LineEndsBetween left right) :
    RunsTogether (left ++ right) := by
  obtain ⟨before, row, after, hrows, hbefore, hrow⟩ := h
  refine ⟨rows left ++ before, row, after, ?_, ?_, hrow⟩
  · rw [rows_append_of_lineEndsBetween hseam, hrows, List.append_assoc]
  · intro r hr
    rcases List.mem_append.mp hr with hr | hr
    · exact hleft r hr
    · exact hbefore r hr

theorem runsTogether_of_seam {left right : Bytes} (hleftNe : left ≠ []) (hrightNe : right ≠ [])
    (hleft : EveryRowReads left) (hright : EveryRowReads right ∨ RunsTogether right)
    (hseam : ¬LineEndsBetween left right) : RunsTogether (left ++ right) := by
  obtain ⟨before, last, first, after, joined, hlast, hfirst, hjoined, hrows⟩ :=
    rows_append_of_not_lineEndsBetween hleftNe hrightNe hseam
  have hmem : ∀ r ∈ before ++ [last], ∃ pickup, ReadsAs r pickup := hlast ▸ hleft
  obtain ⟨pickup, hpickup⟩ := hmem last (by simp)
  obtain ⟨hlegible, hlength⟩ := legible_first_row hright hfirst
  obtain ⟨hwhole, hcount⟩ := legible_of_joined hjoined hpickup.legible.1 hlegible
  have hfour := hpickup.legible.2
  refine ⟨before, joined, after, hrows, ?_, hwhole, by omega⟩
  intro r hr
  exact hmem r (List.mem_append_left _ hr)

/-- Where contents meet without a line end, records run together. -/
theorem runsTogether_of_not_isChain (hne : ∀ content ∈ contents, content ≠ [])
    (hread : ∀ content ∈ contents, EveryRowReads content)
    (hchain : ¬contents.IsChain LineEndsBetween) : RunsTogether contents.flatten := by
  induction contents with
  | nil => simp at hchain
  | cons content contents ih =>
      have hothersNe := fun c hc => hne c (List.mem_cons_of_mem content hc)
      have hothers := fun c hc => hread c (List.mem_cons_of_mem content hc)
      have hcontent := hread content List.mem_cons_self
      cases contents with
      | nil => simp at hchain
      | cons next rest =>
          have hnextNe := hothersNe next List.mem_cons_self
          have hright : (next :: rest).flatten ≠ [] :=
            List.append_ne_nil_of_left_ne_nil hnextNe rest.flatten
          have hseams : LineEndsBetween content (next :: rest).flatten ↔
              LineEndsBetween content next := lineEndsBetween_append_iff hnextNe rest.flatten
          rw [List.isChain_cons_cons, not_and] at hchain
          -- The first seam without a line end decides, whatever the later ones are like.
          by_cases hseam : LineEndsBetween content next
          · exact (ih hothersNe hothers (hchain hseam)).append_left hcontent (hseams.mpr hseam)
          · have hreads : EveryRowReads (next :: rest).flatten ∨
                RunsTogether (next :: rest).flatten := by
              by_cases hrest : (next :: rest).IsChain LineEndsBetween
              · left
                unfold EveryRowReads
                rw [rows_flatten_of_isChain hothersNe hrest]
                exact everyRowReads_flatMap hothers
              · exact .inr (ih hothersNe hothers hrest)
            exact runsTogether_of_seam (hne content List.mem_cons_self) hright hcontent hreads
              fun hends => hseam (hseams.mp hends)

theorem runsTogether_of_not_separated (hread : ∀ content ∈ contents, EveryRowReads content)
    (hseparated : ¬Separated contents) : RunsTogether contents.flatten := by
  rw [← List.flatten_filter_ne_nil]
  apply runsTogether_of_not_isChain _ _ hseparated
  · exact fun _ => ne_nil_of_mem_filter
  · exact fun content hcontent => hread content (List.mem_of_mem_filter hcontent)

/-! ## Byte-order marks -/

theorem rows_of_single_field {content : Bytes} (hne : content ≠ [])
    (hlineEnd : ∀ octet ∈ content, isLineEnd octet = false) (hcomma : comma ∉ content) :
    rows content = [[content]] := by
  rw [rows, List.splitOnP_eq_singleton hlineEnd, rowsOf_cons_of_ne hne,
    splitOn_of_noComma hcomma]
  rfl

/-- What is read does not begin with a byte-order mark, not even with a part of one that
the octets after it might complete. -/
theorem noMark_append {content : Bytes} (hne : content ≠ []) (hplain : Plain content)
    (hread : EveryRowReads content) (more : Bytes) : ¬[0xEF, 0xBB, 0xBF] <+: content ++ more := by
  intro hmark
  have hcontent : content <+: content ++ more := List.prefix_append content more
  by_cases hlength : 3 ≤ content.length
  · exact hplain.noMark (List.prefix_of_prefix_length_le hmark hcontent hlength)
  · have hpart : content <+: [0xEF, 0xBB, 0xBF] := by
      apply List.prefix_of_prefix_length_le hcontent hmark
      rw [List.length_cons, List.length_cons, List.length_singleton]
      omega
    have hrow : rows content = [[content]] := by
      apply rows_of_single_field hne
      · intro octet hoctet
        have hmarks : ([0xEF, 0xBB, 0xBF] : Bytes).any isLineEnd = false := by decide
        rw [List.any_eq_false] at hmarks
        exact eq_false_of_ne_true (hmarks octet (hpart.subset hoctet))
      · intro hcomma
        have hnot : comma ∉ ([0xEF, 0xBB, 0xBF] : Bytes) := by decide
        exact hnot (hpart.subset hcomma)
    obtain ⟨pickup, hpickup⟩ := hread [content] (by simp [hrow])
    simpa using hpickup.legible.2

theorem plain_flatten (hplain : ∀ content ∈ contents, Plain content)
    (hread : ∀ content ∈ contents, EveryRowReads content) : Plain contents.flatten where
  noQuote := by
    intro hquote
    obtain ⟨content, hcontent, hmem⟩ := List.mem_flatten.mp hquote
    exact (hplain content hcontent).noQuote hmem
  noMark := by
    induction contents with
    | nil => simp
    | cons content contents ih =>
        have hfirst := hplain content List.mem_cons_self
        rw [List.flatten_cons]
        by_cases hempty : content = []
        · subst hempty
          rw [List.nil_append]
          apply ih
          · exact fun c hc => hplain c (List.mem_cons_of_mem [] hc)
          · exact fun c hc => hread c (List.mem_cons_of_mem [] hc)
        · exact noMark_append hempty hfirst (hread content List.mem_cons_self) contents.flatten

end Meeting

end Csv
end ZoneDemand
