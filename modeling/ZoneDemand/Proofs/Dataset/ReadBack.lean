import ZoneDemand.Proofs.Dataset.Files
import ZoneDemand.Proofs.Dataset.Meaning
import ZoneDemand.Proofs.Instant.RoundTrip
import ZoneDemand.Proofs.SeriesRecord.Lines
import ZoneDemand.Proofs.Text.Encoding

/-!
# A dataset file is read back

The lines of a dataset file are those of its series, in order: each is read back as a record
with the counts of the series, the text of its start and, if categories are wanted, the
position of the line.  Nothing comes after the last line end.
-/

namespace ZoneDemand
namespace DatasetFile

/-! ## Lines -/

/-- What comes before each line feed. -/
def lines (bytes : Bytes) : List Bytes := (bytes.splitOn 0x0A).dropLast

theorem splitOn_content {texts : List String} (htexts : ∀ text ∈ texts, '\n' ∉ text.toList) :
    (content texts).splitOn 0x0A = texts.map Utf8.encode ++ [[]] := by
  induction texts with
  | nil => rfl
  | cons text texts ih =>
      have hcontent : content (text :: texts) = Utf8.encode text ++ 0x0A :: content texts := by
        simp [content]
      have hline := Utf8.newline_not_mem_encode (htexts text List.mem_cons_self)
      rw [hcontent, List.splitOn_append_cons_self_of_not_mem hline,
        ih fun other hother => htexts other (List.mem_cons_of_mem text hother)]
      rfl

theorem lines_content {texts : List String} (htexts : ∀ text ∈ texts, '\n' ∉ text.toList) :
    lines (content texts) = texts.map Utf8.encode := by
  rw [lines, splitOn_content htexts, List.dropLast_concat]

theorem getLast?_content {texts : List String} (hsome : texts ≠ []) :
    (content texts).getLast? = some 0x0A := by
  rw [← List.dropLast_concat_getLast hsome]
  simp [content]

/-! ## Records -/

/-- The record in a line of a file. -/
def record? (bytes : Bytes) (i : Nat) : Option SeriesRecord := do
  let line ← (lines bytes)[i]?
  let text ← Utf8.decode? line
  (SeriesRecord.decode text).toOption

/-- The content of a file says of each series what it was. -/
structure ReadsBack (categories : Bool) (series : List Series) (file : DatasetFile)
    (bytes : Bytes) : Prop where
  closed : bytes ≠ [] → bytes.getLast? = some 0x0A
  split : bytes.splitOn 0x0A = lines bytes ++ [[]]
  length_lines : (lines bytes).length = series.length
  records : file.records = series.length
  size : file.bytes = bytes.length
  record : ∀ i s, series[i]? = some s → ∃ r, record? bytes i = some r ∧ r.target = s.counts ∧
    Instant.parse r.start = .ok s.start ∧
    r.cat.map (List.map UInt32.toNat) = if categories then some [i] else none

section Lines

variable (categories : Bool) (series : List Series)

theorem newline_not_mem_recordLines :
    ∀ line ∈ recordLines categories series, '\n' ∉ line.toList := by
  intro line hline
  obtain ⟨r, -, rfl⟩ := List.mem_map.mp hline
  exact (SeriesRecord.printable_encode r).newline_not_mem

theorem record?_recordLines (i : Nat) :
    record? (content (recordLines categories series)) i = series[i]?.map fun s =>
      SeriesRecord.ofSeries s (if categories then some (UInt32.ofNat i) else none) := by
  rw [record?, lines_content (newline_not_mem_recordLines categories series), List.getElem?_map,
    getElem?_recordLines]
  cases series[i]? with
  | none => rfl
  | some s =>
      simp [SeriesRecord.decode_encode, Except.toOption]

theorem readsBack_recordLines (hfew : series.length ≤ 2 ^ 32) (path : String) :
    ReadsBack categories series
      ⟨path, series.length, (content (recordLines categories series)).length⟩
      (content (recordLines categories series)) := by
  have hlines := newline_not_mem_recordLines categories series
  constructor
  · intro hsome
    apply getLast?_content
    intro hempty
    exact hsome (by rw [hempty]; rfl)
  · rw [lines_content hlines, splitOn_content hlines]
  · rw [lines_content hlines, List.length_map, Pipeline.length_recordLines]
  · rfl
  · rfl
  · intro i s hs
    have hsmall : i < 2 ^ 32 := by
      obtain ⟨hlength, -⟩ := List.getElem?_eq_some_iff.mp hs
      omega
    refine ⟨SeriesRecord.ofSeries s (if categories then some (UInt32.ofNat i) else none), ?_, rfl,
      Instant.parse_format s.start, ?_⟩
    · rw [record?_recordLines, hs, Option.map_some]
    · cases categories with
      | false => rfl
      | true =>
          change some [(UInt32.ofNat i).toNat] = some [i]
          rw [UInt32.toNat_ofNat_of_lt' hsmall]

end Lines

section ReadsBack

variable {categories : Bool} {series others : List Series} {file other : DatasetFile}
  {bytes otherBytes : Bytes} {i j : Nat} {r q : SeriesRecord}

theorem ReadsBack.cat (h : ReadsBack categories series file bytes) (hr : record? bytes i = some r) :
    r.cat.map (List.map UInt32.toNat) = if categories then some [i] else none := by
  obtain ⟨line, hline, -⟩ := Option.bind_eq_some_iff.mp hr
  obtain ⟨hlength, -⟩ := List.getElem?_eq_some_iff.mp hline
  rw [h.length_lines] at hlength
  obtain ⟨found, hfound, -, -, hcat⟩ := h.record i _ (List.getElem?_eq_getElem hlength)
  rw [hr, Option.some.injEq] at hfound
  rw [hfound]
  exact hcat

/-- Categories tell the lines of a file apart, and are the same in all files. -/
theorem ReadsBack.cat_eq_iff (h : ReadsBack true series file bytes)
    (hother : ReadsBack true others other otherBytes) (hr : record? bytes i = some r)
    (hq : record? otherBytes j = some q) : r.cat = q.cat ↔ i = j := by
  have hnumbers : ∀ l m : List UInt32, l.map UInt32.toNat = m.map UInt32.toNat → l = m :=
    fun l m => (List.map_inj_right fun x y => UInt32.toNat_inj.mp).mp
  rw [← Option.map_inj_right hnumbers, h.cat hr, hother.cat hq]
  simp

end ReadsBack

/-- A file that has been written is read back, with categories that it shares with every other
file. -/
theorem write_readsBack {tree later : FileTree} {path : String} {series : List Series}
    {categories : Bool} {file : DatasetFile} (hfew : series.length ≤ 2 ^ 32)
    (hwrite : write tree path series categories = (later, .ok file)) :
    ∃ bytes, later.read path = .ok bytes ∧ ReadsBack categories series file bytes ∧
      (categories = true → ∀ otherTree otherPath others otherLater otherFile otherBytes,
        others.length = series.length →
        write otherTree otherPath others true = (otherLater, .ok otherFile) →
        otherLater.read otherPath = .ok otherBytes →
        ∀ i j r q, record? bytes i = some r → record? otherBytes j = some q →
          (r.cat = q.cat ↔ i = j)) := by
  obtain ⟨rfl, source, place, hwritten⟩ := write_eq_ok hwrite
  have hreads := readsBack_recordLines categories series hfew path
  refine ⟨_, hwritten.read, hreads, ?_⟩
  rintro rfl otherTree otherPath others otherLater otherFile otherBytes hlength hother hread i j r q
    hr hq
  obtain ⟨-, otherSource, otherPlace, hotherWritten⟩ := write_eq_ok hother
  rw [hotherWritten.read, Except.ok.injEq] at hread
  rw [← hread] at hq
  have hotherReads := readsBack_recordLines true others (by omega) otherPath
  exact hreads.cat_eq_iff hotherReads hr hq

/-- A leap second, and a start before year 0 with a count that fills 64 bits. -/
def distantSeries : List Series :=
  [⟨"a", leapSecond, tenMinutes, [1, 2]⟩,
    ⟨"b", ⟨-62198755200, false, by decide, by decide⟩, tenMinutes,
      [18446744073709551615]⟩]

theorem distantSeries_readsBack :
    ∃ later file bytes, write .bare "out.json" distantSeries true = (later, .ok file) ∧
      later.read "out.json" = .ok bytes ∧ ReadsBack true distantSeries file bytes := by
  have hok : (write .bare "out.json" distantSeries true).2 = .ok ⟨"out.json", 2, 132⟩ := by
    decide +kernel
  generalize hresult : write .bare "out.json" distantSeries true = result at hok ⊢
  obtain ⟨later, outcome⟩ := result
  subst hok
  obtain ⟨bytes, hread, hreads, -⟩ := write_readsBack (by decide) hresult
  exact ⟨later, _, bytes, rfl, hread, hreads⟩

end DatasetFile
end ZoneDemand
