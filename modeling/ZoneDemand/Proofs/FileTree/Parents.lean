import Mathlib.Algebra.Ring.Nat
import ZoneDemand.Proofs.FileTree.Names

/-!
# The path above a path

Taking the last component off a path takes the last step off it, and the path of a
sibling has the same steps but for the last one.
-/

namespace ZoneDemand
namespace Path

theorem dropIdle_eq (absolute : Bool) (segs : List Segment) :
    ∃ idle, segs = idle ++ dropIdle absolute segs ∧ ∀ s ∈ idle, s = [] ∨ s = ['.'] := by
  induction segs with
  | nil => exact ⟨[], by simp [dropIdle]⟩
  | cons segment before ih =>
      unfold dropIdle
      split
      · rename_i hidle
        obtain ⟨idle, hbefore, hall⟩ := ih
        refine ⟨segment :: idle, ?_, ?_⟩
        · rw [List.cons_append, ← hbefore]
        · intro s hs
          rcases List.mem_cons.mp hs with rfl | hs
          · exact hidle.imp id And.left
          · exact hall s hs
      · exact ⟨[], by simp⟩

theorem dropIdle_head {absolute : Bool} {segs before : List Segment} {segment : Segment}
    (h : dropIdle absolute segs = segment :: before) :
    segment ≠ [] ∧ ¬(segment = ['.'] ∧ (absolute = true ∨ before ≠ [])) := by
  induction segs with
  | nil => simp [dropIdle] at h
  | cons first rest ih =>
      unfold dropIdle at h
      split at h
      · exact ih h
      · rename_i hkept
        obtain ⟨rfl, rfl⟩ := List.cons.inj h
        exact not_or.mp hkept

/-- The segments of a path with a last component: what is kept of those before it, a gap,
the component, and what follows it. -/
theorem segments_eq_of_dropIdle {absolute : Bool} {segs before : List Segment}
    {segment : Segment} (h : dropIdle absolute segs.reverse = segment :: before) :
    ∃ gap idle, segs = (dropIdle absolute before).reverse ++ gap ++ segment :: idle ∧
      moves gap = [] ∧ moves idle = [] := by
  obtain ⟨idle, hsegs, hidle⟩ := dropIdle_eq absolute segs.reverse
  obtain ⟨gap, hbefore, hgap⟩ := dropIdle_eq absolute before
  refine ⟨gap.reverse, idle.reverse, ?_, ?_, ?_⟩
  · have hreverse := congrArg List.reverse hsegs
    have hkept := congrArg List.reverse hbefore
    rw [List.reverse_reverse, h] at hreverse
    rw [List.reverse_append] at hkept
    rw [hreverse, ← hkept]
    simp
  · exact moves_idle (by simpa using hgap)
  · exact moves_idle (by simpa using hidle)

theorem not_mem_of_mem_segments {text : List Char} {segment : Segment}
    (hsegment : segment ∈ (segments text).2) : '/' ∉ segment := by
  unfold segments at hsegment
  split at hsegment <;> exact not_mem_of_mem_split hsegment

theorem split_head_ne_nil {text : List Char} {segment : Segment} {others : List Segment}
    (hsplit : split text = segment :: others) (hhead : text.head? ≠ some '/')
    (hsegment : segment = []) : text = [] := by
  cases text with
  | nil => rfl
  | cons c rest =>
      have hc : c ≠ '/' := by simpa using hhead
      obtain ⟨first, tail, hrest⟩ := List.exists_cons_of_ne_nil (split_ne_nil rest)
      simp [split, hc, hrest, hsegment] at hsplit

theorem head?_segments_ne {text : List Char} (hrelative : (segments text).1 = false)
    (htext : text ≠ []) : (segments text).2.head? ≠ some [] := by
  have hhead : text.head? ≠ some '/' := by
    intro hhead
    obtain ⟨rest, rfl⟩ := List.head?_eq_some_iff.mp hhead
    simp [segments_slash] at hrelative
  rw [segments_of_ne hhead]
  intro hnil
  obtain ⟨others, hsplit⟩ := List.head?_eq_some_iff.mp hnil
  exact htext (split_head_ne_nil hsplit hhead rfl)

theorem segments_join {segs : List Segment} (hslash : ∀ s ∈ segs, '/' ∉ s)
    (hhead : segs.head? ≠ some []) :
    (segments (join segs)).1 = false ∧ moves (segments (join segs)).2 = moves segs := by
  cases segs with
  | nil => simp [join, List.intercalate, segments, split, moves]
  | cons segment others =>
      have hjoin : (join (segment :: others)).head? ≠ some '/' := by
        have hne : segment ≠ [] := by simpa using hhead
        obtain ⟨c, rest, rfl⟩ := List.exists_cons_of_ne_nil hne
        have hc : c ≠ '/' := by
          have hmem := hslash (c :: rest) (by simp)
          rw [List.mem_cons, not_or] at hmem
          exact Ne.symm hmem.1
        by_cases hothers : others = []
        · simpa [hothers, join, List.intercalate] using hc
        · simpa [join_cons hothers] using hc
      rw [segments_of_ne hjoin, split_join (by simp) hslash]
      exact ⟨rfl, rfl⟩

theorem segments_render {absolute : Bool} {segs : List Segment}
    (hslash : ∀ s ∈ segs, '/' ∉ s) (hhead : absolute = false → segs.head? ≠ some []) :
    isAbsolute (render absolute segs) = absolute ∧
      steps (render absolute segs) = moves segs := by
  unfold isAbsolute steps render
  rw [String.toList_ofList]
  cases absolute with
  | false => simpa using segments_join hslash (hhead rfl)
  | true =>
      simp only [if_true, List.singleton_append, segments_slash, true_and]
      by_cases hsegs : segs = []
      · simp [hsegs, join, List.intercalate, split, moves]
      · rw [split_join hsegs hslash]

/-- Without its last component a path lacks at most its last step. -/
theorem steps_of_parent? {path parent : String} (hparent : parent? path = some parent) :
    isAbsolute parent = isAbsolute path ∧
      ∃ last, steps path = steps parent ++ last ∧
        (∀ name, fileName? path = some name → last = [name]) ∧
        (parent ≠ "" → ∃ name, last = [name]) := by
  unfold parent? at hparent
  simp only at hparent
  split at hparent
  · contradiction
  · rename_i segment before hdrop
    obtain ⟨gap, idle, hsegs, hgap, hidle⟩ := segments_eq_of_dropIdle hdrop
    rw [Option.some.injEq] at hparent
    subst hparent
    have hslash : ∀ s ∈ (dropIdle (segments path.toList).1 before).reverse, '/' ∉ s := by
      intro s hs
      have hmem : s ∈ (segments path.toList).2 := by
        rw [hsegs]
        simp only [List.mem_append]
        exact .inl (.inl hs)
      exact not_mem_of_mem_segments hmem
    have hhead : (segments path.toList).1 = false →
        (dropIdle (segments path.toList).1 before).reverse.head? ≠ some [] := by
      intro hrelative hnil
      obtain ⟨others, hkept⟩ := List.head?_eq_some_iff.mp hnil
      rw [hkept] at hsegs
      have hpath : path.toList ≠ [] := by
        intro hempty
        simp [hempty, segments, split] at hsegs
      apply head?_segments_ne hrelative hpath
      rw [hsegs]
      rfl
    obtain ⟨habsolute, hsteps⟩ := segments_render hslash hhead
    refine ⟨habsolute, moves [segment], ?_, ?_, ?_⟩
    · rw [hsteps, steps, hsegs, ← List.singleton_append]
      simp only [moves_append, hgap, hidle, List.append_nil]
    · intro name hname
      simp only [fileName?, hdrop] at hname
      split at hname
      · contradiction
      · rename_i hordinary
        rw [not_or] at hordinary
        rw [moves_cons_of_ne (dropIdle_head hdrop).1 hordinary.1, Option.some.inj hname]
        rfl
    · intro hne
      refine ⟨String.ofList segment, moves_cons_of_ne (dropIdle_head hdrop).1 ?_ []⟩
      intro hdot
      apply (dropIdle_head hdrop).2
      refine ⟨hdot, ?_⟩
      by_cases hrelative : (segments path.toList).1 = true
      · exact .inl hrelative
      · right
        rintro rfl
        simp [render, hrelative, dropIdle, join, List.intercalate] at hne

theorem fileName?_ordinary {path name : String} (hname : fileName? path = some name) :
    Ordinary name := by
  unfold fileName? at hname
  simp only at hname
  split at hname
  · contradiction
  · rename_i segment before hdrop
    split at hname
    · contradiction
    · rename_i hordinary
      rw [Option.some.injEq] at hname
      subst hname
      rw [not_or] at hordinary
      obtain ⟨gap, idle, hsegs, -, -⟩ := segments_eq_of_dropIdle hdrop
      have hne := (dropIdle_head hdrop).1
      refine ⟨⟨?_, ?_⟩, ?_, ?_⟩
      · intro h
        exact hne (String.ofList_injective h)
      · have hmem : segment ∈ (segments path.toList).2 := by simp [hsegs]
        rw [String.toList_ofList]
        exact not_mem_of_mem_segments hmem
      · intro h
        exact hordinary.1 (String.ofList_injective h)
      · intro h
        exact hordinary.2 (String.ofList_injective h)

theorem exists_parent? {path name : String} (hname : fileName? path = some name) :
    ∃ parent, parent? path = some parent := by
  unfold fileName? at hname
  unfold parent?
  simp only at hname ⊢
  split at hname
  · contradiction
  · exact ⟨_, rfl⟩

/-! ## Siblings -/

theorem sibling_eq {path name parent : String} (hname : fileName? path = some name)
    (hparent : parent? path = some parent) (suffix : String) :
    sibling path suffix = append parent (name ++ suffix) := by
  simp [sibling, withFileName, hname, hparent]

section Siblings

variable {path name suffix : String} (hname : fileName? path = some name)
  (hslash : '/' ∉ suffix.toList) (hlong : 2 ≤ suffix.toList.length)
include hname hslash hlong

theorem fileName?_sibling : fileName? (sibling path suffix) = some (name ++ suffix) := by
  obtain ⟨parent, hparent⟩ := exists_parent? hname
  rw [sibling_eq hname hparent]
  exact fileName?_append_name parent ((fileName?_ordinary hname).append hslash hlong)

theorem isAbsolute_sibling : isAbsolute (sibling path suffix) = isAbsolute path := by
  obtain ⟨parent, hparent⟩ := exists_parent? hname
  rw [sibling_eq hname hparent,
    isAbsolute_append_name parent ((fileName?_ordinary hname).append hslash hlong)]
  exact (steps_of_parent? hparent).1

theorem steps_sibling :
    ∃ before, steps path = before ++ [name] ∧
      steps (sibling path suffix) = before ++ [name ++ suffix] := by
  obtain ⟨parent, hparent⟩ := exists_parent? hname
  obtain ⟨-, last, hsteps, hlast, -⟩ := steps_of_parent? hparent
  refine ⟨steps parent, ?_, ?_⟩
  · rw [hsteps, hlast name hname]
  · rw [sibling_eq hname hparent]
    exact steps_append_name parent ((fileName?_ordinary hname).append hslash hlong)

end Siblings

/-! ## Texts of parents -/

theorem join_isPrefix_append (before after : List Segment) :
    join before <+: join (before ++ after) := by
  induction before with
  | nil => simp [join, List.intercalate]
  | cons segment others ih =>
      by_cases hothers : others = []
      · subst others
        by_cases hafter : after = []
        · simp [hafter]
        · rw [List.cons_append, List.nil_append, join_cons hafter]
          simp [join, List.intercalate]
      · rw [List.cons_append, join_cons hothers, join_cons (by simp [hothers])]
        obtain ⟨rest, hrest⟩ := ih
        exact ⟨rest, by simp [← hrest]⟩

theorem join_split (text : List Char) : join (split text) = text := by
  induction text with
  | nil => simp [split, join, List.intercalate]
  | cons c rest ih =>
      by_cases hc : c = '/'
      · simp [split, hc, join_cons (split_ne_nil rest), ih]
      · obtain ⟨segment, others, hrest⟩ := List.exists_cons_of_ne_nil (split_ne_nil rest)
        simp only [split, hc, if_false, hrest]
        rw [hrest] at ih
        by_cases hothers : others = []
        · subst others
          simpa [join, List.intercalate] using ih
        · rw [join_cons hothers] at ih ⊢
          rw [← ih]
          rfl

theorem render_segments (text : List Char) :
    render (segments text).1 (segments text).2 = String.ofList text := by
  unfold segments
  split <;> simp [render, join_split]

theorem parent?_spelling {path parent : String} (hparent : parent? path = some parent) :
    ∃ kept gap segment idle, segment ≠ [] ∧ parent = render (isAbsolute path) kept ∧
      path = render (isAbsolute path) (kept ++ (gap ++ segment :: idle)) := by
  unfold parent? at hparent
  simp only at hparent
  split at hparent
  · contradiction
  · rename_i segment before hdrop
    obtain ⟨gap, idle, hsegs, -, -⟩ := segments_eq_of_dropIdle hdrop
    refine ⟨_, gap, segment, idle, (dropIdle_head hdrop).1,
      (Option.some.inj hparent).symm, ?_⟩
    rw [← List.append_assoc, isAbsolute, ← hsegs, render_segments, String.ofList_toList]

theorem parent?_isPrefix {path parent : String} (hparent : parent? path = some parent) :
    parent.toList <+: path.toList := by
  obtain ⟨kept, gap, segment, idle, -, hparent, hpath⟩ := parent?_spelling hparent
  generalize isAbsolute path = absolute at hparent hpath
  rw [hparent, hpath]
  simp only [render, String.toList_ofList]
  exact (List.prefix_append_right_inj _).mpr (join_isPrefix_append _ _)

theorem length_join {segs : List Segment} (hsegs : segs ≠ []) :
    (join segs).length + 1 = (segs.map fun s => s.length + 1).sum := by
  induction segs with
  | nil => contradiction
  | cons segment others ih =>
      by_cases hothers : others = []
      · simp [hothers, join, List.intercalate]
      · rw [join_cons hothers, List.map_cons, List.sum_cons, ← ih hothers]
        simp only [List.length_append, List.length_cons]
        omega

theorem length_join_lt {segment : Segment} (hsegment : segment ≠ [])
    (before gap idle : List Segment) :
    (join before).length < (join (before ++ (gap ++ segment :: idle))).length := by
  have hwhole := length_join (show before ++ (gap ++ segment :: idle) ≠ [] by simp)
  have hpos := List.length_pos_iff.mpr hsegment
  simp only [List.map_append, List.map_cons, List.sum_append, List.sum_cons] at hwhole
  by_cases hbefore : before = []
  · subst before
    simp only [join, List.intercalate, List.intersperse_nil, List.flatten_nil,
      List.length_nil, List.nil_append] at hwhole ⊢
    omega
  · have hkept := length_join hbefore
    omega

theorem parent?_length_lt {path parent : String} (hparent : parent? path = some parent) :
    parent.length < path.length := by
  obtain ⟨kept, gap, segment, idle, hsegment, hparent, hpath⟩ := parent?_spelling hparent
  generalize isAbsolute path = absolute at hparent hpath
  have hlt := length_join_lt hsegment kept gap idle
  rw [hparent, hpath, ← String.length_toList, ← String.length_toList]
  simp only [render, String.toList_ofList, List.length_append] at hlt ⊢
  omega

end Path
end ZoneDemand
