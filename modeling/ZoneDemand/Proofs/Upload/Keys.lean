import ZoneDemand.Proofs.FileTree.Names
import ZoneDemand.Upload

/-!
# The keys of the two dataset files

Keys are normalised before a store sees them.  What normalising leaves of the key of a
dataset file still ends in the name of its half and its file, so the two halves never
share a key: a file name of blanks alone makes it the key of a directory, which no object
can have.
-/

namespace ZoneDemand

section Stripping

variable {p : Char → Bool} {c : Char}

theorem dropWhile_append_cons (hc : p c = false) (before after : List Char) :
    (before ++ c :: after).dropWhile p = before.dropWhile p ++ c :: after := by
  induction before with
  | nil => simp [hc]
  | cons d rest ih =>
      by_cases hd : p d = true
      · simp [hd, ih]
      · simp [hd]

theorem dropRightWhile_append_cons (hc : p c = false) (before after : List Char) :
    dropRightWhile p (before ++ c :: after) = before ++ c :: dropRightWhile p after := by
  unfold dropRightWhile
  have hreverse : (before ++ c :: after).reverse =
      after.reverse ++ c :: before.reverse := by simp
  rw [hreverse, dropWhile_append_cons hc]
  simp

theorem mem_of_mem_dropRightWhile {text : List Char} (hc : c ∈ dropRightWhile p text) :
    c ∈ text := by
  unfold dropRightWhile at hc
  rw [List.mem_reverse] at hc
  exact List.mem_reverse.mp ((List.dropWhile_sublist p).subset hc)

end Stripping

namespace Half

theorem name_head (half : Half) :
    ∃ c rest, half.name.toList = c :: rest ∧ isBlank c = false ∧ c ≠ '/' := by
  cases half with
  | train => exact ⟨'t', ['r', 'a', 'i', 'n'], rfl, rfl, by decide⟩
  | test => exact ⟨'t', ['e', 's', 't'], rfl, rfl, by decide⟩

theorem noSlash_name (half : Half) : '/' ∉ half.name.toList := by
  cases half <;> decide

theorem name_injective {half other : Half} (h : half.name.toList = other.name.toList) :
    half = other := by
  cases half <;> cases other <;> simp_all [name]

end Half

/-- What stands before the name of the half in a key. -/
def keyBase (stem : String) : List Char :=
  if datasetStem stem = "" then [] else (datasetStem stem).toList ++ ['/']

theorem toList_datasetKey (stem : String) (half : Half) (fileName : String) :
    (datasetKey stem half fileName).toList =
      keyBase stem ++ (half.name.toList ++ '/' :: fileName.toList) := by
  unfold datasetKey keyBase
  by_cases hempty : datasetStem stem = ""
  · simp [hempty]
  · simp [hempty]

def strippedBase (stem : String) : List Char :=
  ((keyBase stem).dropWhile isBlank).dropWhile (· = '/')

theorem strippedBase_eq (stem : String) :
    strippedBase stem = [] ∨ ∃ before, strippedBase stem = before ++ ['/'] := by
  have hsuffix : strippedBase stem <:+ keyBase stem :=
    (List.dropWhile_suffix _).trans (List.dropWhile_suffix _)
  by_cases hempty : strippedBase stem = []
  · exact .inl hempty
  · right
    have hbase : keyBase stem ≠ [] := by
      intro hnil
      rw [hnil] at hsuffix
      exact hempty (List.suffix_nil.mp hsuffix)
    have hlast : (keyBase stem).getLast? = some '/' := by
      unfold keyBase at hbase ⊢
      by_cases hstem : datasetStem stem = ""
      · simp [hstem] at hbase
      · simp [hstem]
    obtain ⟨dropped, hdropped⟩ := hsuffix
    obtain ⟨before, last, hbefore⟩ :=
      (List.eq_nil_or_concat (strippedBase stem)).resolve_left hempty
    rw [← hdropped, hbefore] at hlast
    simp at hlast
    exact ⟨before, by rw [hbefore, hlast, List.concat_eq_append]⟩

theorem stripped_datasetKey (stem : String) (half : Half) (fileName : String) :
    ((stripBoth isBlank (datasetKey stem half fileName).toList).dropWhile (· = '/')) =
      strippedBase stem ++ (half.name.toList ++
        '/' :: dropRightWhile isBlank fileName.toList) := by
  obtain ⟨c, rest, hname, hblank, hslash⟩ := half.name_head
  rw [toList_datasetKey, hname, stripBoth, List.cons_append,
    dropWhile_append_cons hblank, ← List.cons_append, ← List.append_assoc,
    dropRightWhile_append_cons (by decide), List.append_assoc, List.cons_append,
    dropWhile_append_cons (by simpa using hslash)]
  rfl

def namesAbove (stem : String) : List Path.Segment :=
  (Path.split (strippedBase stem)).filter (· ≠ [])

theorem noSlash_of_mem_namesAbove {stem : String} {name : Path.Segment}
    (hname : name ∈ namesAbove stem) : '/' ∉ name :=
  Path.not_mem_of_mem_split (List.mem_filter.mp hname).1

theorem names_of_half (stem : String) (half : Half) :
    (Path.split (strippedBase stem ++ half.name.toList)).filter (· ≠ []) =
      namesAbove stem ++ [half.name.toList] := by
  obtain ⟨c, rest, hname, -, -⟩ := half.name_head
  have hsplit : Path.split half.name.toList = [half.name.toList] :=
    Path.split_of_not_mem half.noSlash_name
  have hne : half.name.toList ≠ [] := by simp [hname]
  unfold namesAbove
  rcases strippedBase_eq stem with hbase | ⟨before, hbase⟩
  · rw [hbase, List.nil_append, hsplit]
    simp [Path.split, hne]
  · rw [hbase, List.append_assoc, List.singleton_append, Path.split_append, Path.split_append,
      hsplit]
    simp [Path.split, hne]

/-- The normalised key of a dataset file is that of a directory, or it consists of the
names above, the name of the half and what is left of the file name. -/
theorem normalize_datasetKey (stem : String) (half : Half) {fileName : String}
    (hslash : '/' ∉ fileName.toList) :
    Key.isDirectory (Key.normalize (datasetKey stem half fileName)) = true ∨
      ∃ base, '/' ∉ base ∧ Key.normalize (datasetKey stem half fileName) =
        String.ofList (Path.join (namesAbove stem ++ [half.name.toList, base])) := by
  have htext := stripped_datasetKey stem half fileName
  have hbase : '/' ∉ dropRightWhile isBlank fileName.toList := fun hmem =>
    hslash (mem_of_mem_dropRightWhile hmem)
  generalize dropRightWhile isBlank fileName.toList = base at htext hbase
  have hnames : (Path.split (strippedBase stem ++ (half.name.toList ++ '/' :: base))).filter
      (· ≠ []) = namesAbove stem ++ [half.name.toList] ++ [base].filter (· ≠ []) := by
    rw [← List.append_assoc, Path.split_append, List.filter_append, names_of_half,
      Path.split_of_not_mem hbase]
  unfold Key.normalize
  simp only [htext, hnames]
  by_cases hempty : base = []
  · left
    subst base
    simp [Key.isDirectory]
  · right
    refine ⟨base, hbase, ?_⟩
    have hlast : ('/' :: base).getLast? ≠ some '/' := by
      rw [List.getLast?_cons_of_ne_nil hempty]
      intro hlast
      exact hbase (List.mem_of_getLast? hlast)
    simp [hempty, hlast]

/-- The two dataset files never share a key that an object can have. -/
theorem datasetKeys_ne (stem : String) {trainFile testFile : String}
    (htrain : '/' ∉ trainFile.toList) (htest : '/' ∉ testFile.toList)
    (htrainFile : Key.isDirectory (Key.normalize (datasetKey stem .train trainFile)) = false)
    (htestFile : Key.isDirectory (Key.normalize (datasetKey stem .test testFile)) = false) :
    Key.normalize (datasetKey stem .train trainFile) ≠
      Key.normalize (datasetKey stem .test testFile) := by
  intro hsame
  obtain ⟨base, hbase, hkey⟩ :=
    (normalize_datasetKey stem .train htrain).resolve_left
      (by rw [htrainFile]; exact Bool.false_ne_true)
  obtain ⟨other, hother, hotherKey⟩ :=
    (normalize_datasetKey stem .test htest).resolve_left
      (by rw [htestFile]; exact Bool.false_ne_true)
  rw [hkey, hotherKey] at hsame
  have hsplit : ∀ (half : Half) (last : Path.Segment), '/' ∉ last →
      Path.split (Path.join (namesAbove stem ++ [half.name.toList, last])) =
        namesAbove stem ++ [half.name.toList, last] := by
    intro half last hlast
    apply Path.split_join (by simp)
    intro segment hsegment
    simp only [List.mem_append, List.mem_cons, List.not_mem_nil, or_false] at hsegment
    rcases hsegment with hsegment | rfl | rfl
    · exact noSlash_of_mem_namesAbove hsegment
    · exact half.noSlash_name
    · exact hlast
  have hnames := congrArg Path.split (String.ofList_injective hsame)
  rw [hsplit .train base hbase, hsplit .test other hother] at hnames
  have htails := List.append_cancel_left hnames
  exact Half.noConfusion (Half.name_injective (List.cons.inj htails).1)

end ZoneDemand
