import ZoneDemand.Settings
import Mathlib.Data.List.TakeWhile

/-!
# Prefixes in shape

A prefix that has been brought into shape stays as it is, so it does not matter how often
and at which layer of the settings that is done.  The prefix of a dataset is what is left of
a text when the slashes at both ends are taken away.
-/

namespace ZoneDemand

section Ends

variable {p : Char → Bool} {text : List Char}

theorem dropWhile_of_head (hhead : ∀ c, text.head? = some c → p c = false) :
    text.dropWhile p = text := by
  cases text with
  | nil => rfl
  | cons c rest => exact List.dropWhile_cons_of_neg (by simp [hhead c rfl])

theorem head_of_dropWhile {c : Char} (hc : (text.dropWhile p).head? = some c) : p c = false := by
  have hnot := List.head?_dropWhile_not p text
  rw [hc] at hnot
  simpa using hnot

theorem dropRightWhile_isPrefix (p : Char → Bool) (text : List Char) :
    dropRightWhile p text <+: text := by
  have hsuffix := List.dropWhile_suffix (l := text.reverse) p
  rw [← List.reverse_prefix, List.reverse_reverse] at hsuffix
  exact hsuffix

theorem dropRightWhile_dropRightWhile (p : Char → Bool) (text : List Char) :
    dropRightWhile p (dropRightWhile p text) = dropRightWhile p text := by
  unfold dropRightWhile
  rw [List.reverse_reverse, dropWhile_of_head fun c hc => head_of_dropWhile hc]

theorem head_of_stripBoth {c : Char} (hc : (stripBoth p text).head? = some c) : p c = false := by
  obtain ⟨after, hafter⟩ := dropRightWhile_isPrefix p (text.dropWhile p)
  have hfirst : (text.dropWhile p).head? = some c := by
    rw [← hafter, List.head?_append]
    change (stripBoth p text).head?.or after.head? = some c
    rw [hc]
    rfl
  exact head_of_dropWhile hfirst

theorem last_of_dropRightWhile {c : Char} (hc : (dropRightWhile p text).getLast? = some c) :
    p c = false := by
  rw [dropRightWhile, List.getLast?_reverse] at hc
  exact head_of_dropWhile hc

theorem stripBoth_stripBoth (p : Char → Bool) (text : List Char) :
    stripBoth p (stripBoth p text) = stripBoth p text := by
  rw [stripBoth, dropWhile_of_head fun c hc => head_of_stripBoth hc]
  exact dropRightWhile_dropRightWhile p _

/-- Stripping takes away only characters that satisfy `p`. -/
theorem stripBoth_between (p : Char → Bool) (text : List Char) :
    ∃ before after, (∀ c ∈ before, p c = true) ∧ (∀ c ∈ after, p c = true) ∧
      text = before ++ stripBoth p text ++ after := by
  refine ⟨text.takeWhile p, ((text.dropWhile p).reverse.takeWhile p).reverse,
    fun c hc => List.mem_takeWhile_imp hc, ?_, ?_⟩
  · intro c hc
    exact List.mem_takeWhile_imp (List.mem_reverse.mp hc)
  · rw [List.append_assoc, stripBoth, dropRightWhile, ← List.reverse_append,
      List.takeWhile_append_dropWhile, List.reverse_reverse, List.takeWhile_append_dropWhile]

theorem dropWhile_append_of_all {before : List Char} (hbefore : ∀ c ∈ before, p c = true)
    (text : List Char) : (before ++ text).dropWhile p = text.dropWhile p := by
  rw [List.dropWhile_append, List.dropWhile_eq_nil_iff.mpr hbefore]
  rfl

/-- What stands between characters that satisfy `p`, and has none at its own ends, is what
stripping leaves. -/
theorem stripBoth_of_between {before core after : List Char}
    (hbefore : ∀ c ∈ before, p c = true) (hafter : ∀ c ∈ after, p c = true)
    (hfirst : ∀ c, core.head? = some c → p c = false)
    (hlast : ∀ c, core.getLast? = some c → p c = false) :
    stripBoth p (before ++ core ++ after) = core := by
  rw [stripBoth, List.append_assoc, dropWhile_append_of_all hbefore]
  by_cases hempty : core = []
  · rw [hempty, List.nil_append, List.dropWhile_eq_nil_iff.mpr hafter]
    rfl
  have hhead : ∀ c, (core ++ after).head? = some c → p c = false := by
    rw [List.head?_append, List.head?_eq_some_head hempty, Option.some_or,
      ← List.head?_eq_some_head hempty]
    exact hfirst
  rw [dropWhile_of_head hhead, dropRightWhile, List.reverse_append,
    dropWhile_append_of_all fun c hc => hafter c (List.mem_reverse.mp hc),
    dropWhile_of_head fun c hc => hlast c (by rwa [List.head?_reverse] at hc),
    List.reverse_reverse]

end Ends

/-- The text consists of slashes, `core` and slashes again, and `core` has no slash at its
ends. -/
structure Trims (text core : String) : Prop where
  between : ∃ before after : List Char, (∀ c ∈ before, c = '/') ∧ (∀ c ∈ after, c = '/') ∧
    text.toList = before ++ core.toList ++ after
  first : core.toList.head? ≠ some '/'
  last : core.toList.getLast? ≠ some '/'

theorem trims_datasetStem (text : String) : Trims text (datasetStem text) := by
  unfold datasetStem
  constructor
  · obtain ⟨before, after, hbefore, hafter, htext⟩ := stripBoth_between (· = '/') text.toList
    refine ⟨before, after, ?_, ?_, ?_⟩
    · simpa using hbefore
    · simpa using hafter
    · rwa [String.toList_ofList]
  · intro hslash
    rw [String.toList_ofList] at hslash
    simpa using head_of_stripBoth hslash
  · intro hslash
    rw [String.toList_ofList] at hslash
    simpa using last_of_dropRightWhile hslash

theorem trims_iff {text core : String} : Trims text core ↔ datasetStem text = core := by
  constructor
  · rintro ⟨⟨before, after, hbefore, hafter, htext⟩, hfirst, hlast⟩
    have hfirst' : ∀ c, core.toList.head? = some c → decide (c = '/') = false := by
      rintro c hc
      simpa using fun hslash : c = '/' => hfirst (hslash ▸ hc)
    have hlast' : ∀ c, core.toList.getLast? = some c → decide (c = '/') = false := by
      rintro c hc
      simpa using fun hslash : c = '/' => hlast (hslash ▸ hc)
    unfold datasetStem
    rw [htext, stripBoth_of_between (by simpa using hbefore) (by simpa using hafter) hfirst'
      hlast', String.ofList_toList]
  · rintro rfl
    exact trims_datasetStem text

@[simp] theorem datasetStem_datasetStem (text : String) :
    datasetStem (datasetStem text) = datasetStem text := by
  unfold datasetStem
  rw [String.toList_ofList, stripBoth_stripBoth]

@[simp] theorem sourceStem_sourceStem (text : String) :
    sourceStem (sourceStem text) = sourceStem text := by
  have hhead : ∀ c, (text.toList.dropWhile (· = '/')).head? = some c → decide (c = '/') = false :=
    fun c hc => head_of_dropWhile hc
  unfold sourceStem
  generalize text.toList.dropWhile (· = '/') = trimmed at hhead
  by_cases hdone : trimmed = [] ∨ trimmed.getLast? = some '/'
  · simp only [hdone, if_true, String.toList_ofList, dropWhile_of_head hhead]
  · have hclosed : ∀ c, (trimmed ++ ['/']).head? = some c → decide (c = '/') = false := by
      cases trimmed with
      | nil => simp at hdone
      | cons first rest => exact hhead
    simp only [hdone, if_false, String.toList_ofList, dropWhile_of_head hclosed]
    simp

end ZoneDemand
