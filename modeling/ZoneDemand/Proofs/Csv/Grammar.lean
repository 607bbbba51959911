import ZoneDemand.Csv

/-!
# How rows are written

A row is written as its fields with commas between them, up to a line end or the end of the
content.  A field may begin with a quoted part, in which every quote is doubled; what follows
it, or stands alone, is text without commas and line ends.  A quoted part that is never closed
takes all the rest of the content.

Every content begins with a row of this grammar, and the scanner reads the fields of that row
and stops behind it.
-/

namespace ZoneDemand
namespace Csv

/-- Text of a field outside of quotes. -/
structure Raw (text : Bytes) : Prop where
  noBreak : ∀ octet ∈ text, octet ≠ comma ∧ isLineEnd octet = false
  noQuote : text.head? ≠ some quoteMark

/-- Every quote is written twice. -/
def doubled (value : Bytes) : Bytes :=
  value.flatMap fun octet => if octet = quoteMark then [octet, octet] else [octet]

/-- The quoted part of a field, if there is one, and what it stands for. -/
inductive Opening : Bytes → Bytes → Prop where
  | none : Opening [] []
  | quoted (value : Bytes) : Opening (quoteMark :: doubled value ++ [quoteMark]) value

inductive FieldText : Bytes → Bytes → Prop where
  | intro {text value tail : Bytes} (hopening : Opening text value) (htail : Raw tail) :
      FieldText (text ++ tail) (value ++ tail)

def UnclosedText (text value : Bytes) : Prop := text = quoteMark :: doubled value

/-- Fields with commas between them, the last of which may be written in a way of its own. -/
inductive RowText (last : Bytes → Bytes → Prop) : Bytes → List Bytes → Prop where
  | single {text value : Bytes} (hfield : last text value) : RowText last text [value]
  | cons {text value rest : Bytes} {values : List Bytes} (hfield : FieldText text value)
      (hrest : RowText last rest values) :
      RowText last (text ++ comma :: rest) (value :: values)

/-- The octets of a row, with the line end that closes it, before the rest of the content. -/
inductive RowOctets : Bytes → List Bytes → Bytes → Prop where
  | closed {text rest : Bytes} {fields : List Bytes} {octet : UInt8}
      (htext : RowText FieldText text fields) (hend : isLineEnd octet = true) :
      RowOctets (text ++ [octet]) fields rest
  | last {text : Bytes} {fields : List Bytes} (htext : RowText FieldText text fields) :
      RowOctets text fields []
  | unclosed {text : Bytes} {fields : List Bytes} (htext : RowText UnclosedText text fields) :
      RowOctets text fields []

/-! ## Every content begins with a row -/

theorem Raw.nil : Raw [] := ⟨by simp, by simp⟩

theorem Raw.append {text : Bytes} {octet : UInt8} (htext : Raw text) (hcomma : octet ≠ comma)
    (hend : isLineEnd octet = false) (hquote : text = [] → octet ≠ quoteMark) :
    Raw (text ++ [octet]) := by
  constructor
  · intro x hx
    rcases List.mem_append.mp hx with hx | hx
    · exact htext.noBreak x hx
    · rw [List.mem_singleton.mp hx]
      exact ⟨hcomma, hend⟩
  · cases text with
    | nil => simpa using hquote rfl
    | cons first text => exact htext.noQuote

theorem RowOctets.ne_nil {octets rest : Bytes} {octet : UInt8} {fields : List Bytes}
    (hrow : RowOctets octets fields (octet :: rest)) : octets ≠ [] := by
  cases hrow with
  | closed => simp

theorem FieldText.nil : FieldText [] [] := .intro .none .nil

theorem FieldText.of_opening {text value : Bytes} (hopening : Opening text value) :
    FieldText text value := by
  simpa using FieldText.intro hopening .nil

section Next

variable {text value : Bytes} {octet : UInt8}

theorem UnclosedText.close (h : UnclosedText text value) :
    FieldText (text ++ [quoteMark]) value := by
  rw [h]
  exact .of_opening (.quoted value)

theorem UnclosedText.append (h : UnclosedText text value) (hquote : octet ≠ quoteMark) :
    UnclosedText (text ++ [octet]) (value ++ [octet]) := by
  rw [UnclosedText, h]
  simp [doubled, hquote]

/-- A quote begins a quoted part, or belongs to the one that seemed to be closed. -/
theorem Opening.unclosed (hopening : Opening text value) :
    ∃ longer, UnclosedText (text ++ [quoteMark]) longer := by
  cases hopening with
  | none => exact ⟨[], rfl⟩
  | quoted value =>
      refine ⟨value ++ [quoteMark], ?_⟩
      simp [UnclosedText, doubled]

theorem FieldText.append (h : FieldText text value) (hcomma : octet ≠ comma)
    (hend : isLineEnd octet = false) :
    ∃ longer, FieldText (text ++ [octet]) longer ∨ UnclosedText (text ++ [octet]) longer := by
  obtain @⟨text, value, tail, hopening, htail⟩ := h
  by_cases hquote : tail = [] ∧ octet = quoteMark
  · obtain ⟨rfl, rfl⟩ := hquote
    obtain ⟨longer, hlonger⟩ := hopening.unclosed
    rw [List.append_nil]
    exact ⟨longer, .inr hlonger⟩
  · have hraw := htail.append hcomma hend fun hnil heq => hquote ⟨hnil, heq⟩
    rw [List.append_assoc]
    exact ⟨_, .inl (.intro hopening hraw)⟩

end Next

theorem RowOctets.cons {text value octets rest : Bytes} {fields : List Bytes}
    (hfield : FieldText text value) (hrow : RowOctets octets fields rest) :
    RowOctets (text ++ comma :: octets) (value :: fields) rest := by
  cases hrow with
  | closed htext hend =>
      rw [← List.cons_append, ← List.append_assoc]
      exact .closed (.cons hfield htext) hend
  | last htext => exact .last (.cons hfield htext)
  | unclosed htext => exact .unclosed (.cons hfield htext)

/-- Whatever has been read of a field, the octets after it complete a row. -/
theorem exists_rowOctets_append (octets : Bytes) {text value : Bytes}
    (h : FieldText text value ∨ UnclosedText text value) :
    ∃ taken fields rest, octets = taken ++ rest ∧ RowOctets (text ++ taken) fields rest := by
  induction octets generalizing text value with
  | nil =>
      rcases h with hfield | hopen
      · exact ⟨[], [value], [], rfl, by simpa using .last (.single hfield)⟩
      · exact ⟨[], [value], [], rfl, by simpa using .unclosed (.single hopen)⟩
  | cons octet octets ih =>
      have hnext : ∀ {longer : Bytes},
          FieldText (text ++ [octet]) longer ∨ UnclosedText (text ++ [octet]) longer →
          ∃ taken fields rest, octet :: octets = taken ++ rest ∧
            RowOctets (text ++ taken) fields rest := by
        intro longer hlonger
        obtain ⟨taken, fields, rest, hsplit, hrow⟩ := ih hlonger
        rw [List.append_assoc] at hrow
        exact ⟨octet :: taken, fields, rest, congrArg (octet :: ·) hsplit, hrow⟩
      rcases h with hfield | hopen
      · by_cases hcomma : octet = comma
        · obtain ⟨taken, fields, rest, hsplit, hrow⟩ := ih (.inl FieldText.nil)
          rw [hcomma]
          exact ⟨comma :: taken, value :: fields, rest, congrArg (comma :: ·) hsplit,
            hrow.cons hfield⟩
        by_cases hend : isLineEnd octet = true
        · exact ⟨[octet], [value], octets, rfl, .closed (.single hfield) hend⟩
        · obtain ⟨longer, hlonger⟩ := hfield.append hcomma (Bool.eq_false_iff.mpr hend)
          exact hnext hlonger
      · by_cases hquote : octet = quoteMark
        · subst hquote
          exact hnext (.inl hopen.close)
        · exact hnext (.inr (hopen.append hquote))

theorem exists_rowOctets (octets : Bytes) :
    ∃ taken fields rest, octets = taken ++ rest ∧ RowOctets taken fields rest :=
  exists_rowOctets_append octets (.inl FieldText.nil)

/-! ## The scanner reads the row -/

def Place.afterAll (place : Place) (octets : Bytes) : Place := octets.foldl Place.advance place

theorem Place.afterAll_cons (place : Place) (octet : UInt8) (octets : Bytes) :
    place.afterAll (octet :: octets) = (place.advance octet).afterAll octets := rfl

theorem Place.afterAll_append (place : Place) (octets more : Bytes) :
    place.afterAll (octets ++ more) = (place.afterAll octets).afterAll more :=
  List.foldl_append

section Scan

variable (fields : List Bytes) (field : Bytes) (place : Place) (rest : Bytes)

theorem action_comma {mode : Mode} (hmode : mode ≠ .quoted) : action mode comma = .endField := by
  cases mode with
  | quoted => exact absurd rfl hmode
  | fieldStart => rfl
  | plain => rfl
  | afterQuote => rfl

theorem action_lineEnd {mode : Mode} (hmode : mode ≠ .quoted) {octet : UInt8}
    (hend : isLineEnd octet = true) : action mode octet = .endRecord := by
  have hquote : octet ≠ quoteMark := by
    rintro rfl
    contradiction
  have hcomma : octet ≠ comma := by
    rintro rfl
    contradiction
  cases mode with
  | quoted => exact absurd rfl hmode
  | fieldStart => simp [action, hquote, hcomma, hend]
  | plain => simp [action, hcomma, hend]
  | afterQuote => simp [action, hquote, hcomma, hend]

theorem scanFields_doubled (value : Bytes) :
    scanFields .quoted fields field place (doubled value ++ rest) =
      scanFields .quoted fields (value.reverse ++ field) (place.afterAll (doubled value)) rest := by
  induction value generalizing field place with
  | nil => rfl
  | cons octet value ih =>
      rw [doubled, List.flatMap_cons, ← doubled, List.append_assoc, Place.afterAll_append]
      by_cases hquote : octet = quoteMark
      · subst hquote
        simp [scanFields, action, ih, Place.afterAll]
      · simp [scanFields, action, ih, Place.afterAll, hquote]

theorem scanFields_plain {tail : Bytes}
    (htail : ∀ octet ∈ tail, octet ≠ comma ∧ isLineEnd octet = false) :
    scanFields .plain fields field place (tail ++ rest) =
      scanFields .plain fields (tail.reverse ++ field) (place.afterAll tail) rest := by
  induction tail generalizing field place with
  | nil => rfl
  | cons octet tail ih =>
      obtain ⟨hcomma, hend⟩ := htail octet List.mem_cons_self
      have hrest := ih (octet :: field) (place.advance octet)
        fun x hx => htail x (List.mem_cons_of_mem octet hx)
      simp [scanFields, action, hcomma, hend, hrest, Place.afterAll]

end Scan

theorem scanFields_opening {text value : Bytes} (hopening : Opening text value) :
    ∃ mode, (mode = .fieldStart ∨ mode = .afterQuote) ∧ ∀ fields place rest,
      scanFields .fieldStart fields [] place (text ++ rest) =
        scanFields mode fields value.reverse (place.afterAll text) rest := by
  cases hopening with
  | none => exact ⟨.fieldStart, .inl rfl, fun _ _ _ => rfl⟩
  | quoted value =>
      refine ⟨.afterQuote, .inr rfl, fun fields place rest => ?_⟩
      have hvalue := scanFields_doubled fields [] (place.advance quoteMark)
        (quoteMark :: rest) value
      rw [List.append_assoc, List.cons_append, List.singleton_append]
      simp [scanFields, action, hvalue, Place.afterAll]

theorem scanFields_field {text value : Bytes} (hfield : FieldText text value) :
    ∃ mode, mode ≠ .quoted ∧ ∀ fields place rest,
      scanFields .fieldStart fields [] place (text ++ rest) =
        scanFields mode fields value.reverse (place.afterAll text) rest := by
  obtain @⟨text, value, tail, hopening, htail⟩ := hfield
  obtain ⟨mode, hmode, hscan⟩ := scanFields_opening hopening
  cases tail with
  | nil =>
      rw [List.append_nil, List.append_nil]
      exact ⟨mode, by rcases hmode with rfl | rfl <;> simp, hscan⟩
  | cons first tail =>
      obtain ⟨hcomma, hend⟩ := htail.noBreak first List.mem_cons_self
      have hquote : first ≠ quoteMark := by simpa using htail.noQuote
      have hfirst : action mode first = .take .plain := by
        rcases hmode with rfl | rfl <;> simp [action, hcomma, hend, hquote]
      refine ⟨.plain, by simp, fun fields place rest => ?_⟩
      have hplain := scanFields_plain fields (first :: value.reverse)
        ((place.afterAll text).advance first) rest
        fun x hx => htail.noBreak x (List.mem_cons_of_mem first hx)
      rw [List.append_assoc, hscan, List.cons_append, Place.afterAll_append]
      simp [scanFields, hfirst, hplain, Place.afterAll_cons]

/-- If the last field is read up to the end of the row, so is the whole row. -/
theorem scanFields_rowText {last : Bytes → Bytes → Prop} {close rest : Bytes}
    (hlast : ∀ {text value}, last text value → ∀ fields place,
      scanFields .fieldStart fields [] place (text ++ (close ++ rest)) =
        (fields.reverse ++ [value], place.afterAll (text ++ close), rest))
    {text : Bytes} {values : List Bytes} (htext : RowText last text values)
    (fields : List Bytes) (place : Place) :
    scanFields .fieldStart fields [] place (text ++ (close ++ rest)) =
      (fields.reverse ++ values, place.afterAll (text ++ close), rest) := by
  induction htext generalizing fields place with
  | single hfield => exact hlast hfield fields place
  | @cons text value more values hfield _ ih =>
      obtain ⟨mode, hmode, hscan⟩ := scanFields_field hfield
      have hrest := ih (value :: fields) ((place.afterAll text).advance comma)
      rw [List.append_assoc, List.append_assoc, hscan, List.cons_append, List.cons_append,
        Place.afterAll_append, scanFields, action_comma hmode]
      simp only [List.reverse_reverse]
      rw [hrest, List.reverse_cons, List.append_assoc]
      rfl

theorem scanFields_closed {text value : Bytes} {octet : UInt8} (hfield : FieldText text value)
    (hend : isLineEnd octet = true) (rest : Bytes) (fields : List Bytes) (place : Place) :
    scanFields .fieldStart fields [] place (text ++ ([octet] ++ rest)) =
      (fields.reverse ++ [value], place.afterAll (text ++ [octet]), rest) := by
  obtain ⟨mode, hmode, hscan⟩ := scanFields_field hfield
  rw [hscan, Place.afterAll_append, List.singleton_append, scanFields, action_lineEnd hmode hend]
  simp only [List.reverse_reverse, List.reverse_cons]
  rfl

theorem scanFields_last {text value : Bytes} (hfield : FieldText text value)
    (fields : List Bytes) (place : Place) :
    scanFields .fieldStart fields [] place (text ++ ([] ++ [])) =
      (fields.reverse ++ [value], place.afterAll (text ++ []), []) := by
  obtain ⟨mode, -, hscan⟩ := scanFields_field hfield
  rw [hscan, List.append_nil, List.append_nil, scanFields, List.reverse_reverse,
    List.reverse_cons]

theorem scanFields_unclosed {text value : Bytes} (hfield : UnclosedText text value)
    (fields : List Bytes) (place : Place) :
    scanFields .fieldStart fields [] place (text ++ ([] ++ [])) =
      (fields.reverse ++ [value], place.afterAll (text ++ []), []) := by
  have hvalue := scanFields_doubled fields [] (place.advance quoteMark) [] value
  rw [List.append_nil] at hvalue
  rw [hfield, List.append_nil, List.append_nil]
  simp [scanFields, action, hvalue, Place.afterAll]

/-- The scanner reads the row that comes first, and no octet more. -/
theorem scanFields_rowOctets {octets rest : Bytes} {fields : List Bytes}
    (hrow : RowOctets octets fields rest) (place : Place) :
    scanFields .fieldStart [] [] place (octets ++ rest) =
      (fields, place.afterAll octets, rest) := by
  cases hrow with
  | closed htext hend =>
      rw [List.append_assoc]
      exact scanFields_rowText (fun hfield => scanFields_closed hfield hend rest) htext [] place
  | last htext =>
      simpa using scanFields_rowText scanFields_last htext [] place
  | unclosed htext =>
      simpa using scanFields_rowText scanFields_unclosed htext [] place

end Csv
end ZoneDemand
