import ZoneDemand.FileTree.Path

/-!
# The names in a path

Cutting a path at its slashes and joining the segments again; the last name of a path,
the path before it, and the path of a sibling.  Empty segments and `.` segments lead
nowhere, so a path is described by the steps that remain without them.
-/

namespace ZoneDemand
namespace Path

theorem split_ne_nil (text : List Char) : split text ≠ [] := by
  cases text with
  | nil => simp [split]
  | cons c rest =>
      unfold split
      split
      · simp
      · split <;> simp

theorem split_of_not_mem {text : List Char} (hslash : '/' ∉ text) : split text = [text] := by
  induction text with
  | nil => rfl
  | cons c rest ih =>
      rw [List.mem_cons, not_or] at hslash
      simp [split, Ne.symm hslash.1, ih hslash.2]

theorem split_append (before after : List Char) :
    split (before ++ '/' :: after) = split before ++ split after := by
  induction before with
  | nil => simp [split]
  | cons c rest ih =>
      by_cases hc : c = '/'
      · simp [split, hc, ih]
      · obtain ⟨segment, others, hrest⟩ := List.exists_cons_of_ne_nil (split_ne_nil rest)
        simp [split, hc, ih, hrest]

theorem not_mem_of_mem_split {text : List Char} {segment : Segment}
    (hsegment : segment ∈ split text) : '/' ∉ segment := by
  induction text generalizing segment with
  | nil =>
      simp only [split, List.mem_singleton] at hsegment
      simp [hsegment]
  | cons c rest ih =>
      by_cases hc : c = '/'
      · simp only [split, hc, if_pos, List.mem_cons] at hsegment
        rcases hsegment with rfl | hsegment
        · simp
        · exact ih hsegment
      · obtain ⟨first, others, hrest⟩ := List.exists_cons_of_ne_nil (split_ne_nil rest)
        simp only [split, hc, if_false, hrest, List.mem_cons] at hsegment
        rcases hsegment with rfl | hsegment
        · have hfirst : '/' ∉ first := ih (by simp [hrest])
          simp [hfirst, Ne.symm hc]
        · exact ih (by simp [hrest, hsegment])

theorem join_cons {segment : Segment} {others : List Segment} (hothers : others ≠ []) :
    join (segment :: others) = segment ++ '/' :: join others := by
  cases others with
  | nil => contradiction
  | cons next rest => simp [join, List.intercalate, List.intersperse]

theorem split_join {segments : List Segment} (hne : segments ≠ [])
    (hslash : ∀ segment ∈ segments, '/' ∉ segment) : split (join segments) = segments := by
  induction segments with
  | nil => contradiction
  | cons segment others ih =>
      by_cases hothers : others = []
      · subst others
        have hjoin : join [segment] = segment := by simp [join, List.intercalate]
        rw [hjoin]
        exact split_of_not_mem (hslash segment (by simp))
      · have htail : split (join others) = others := by
          exact ih hothers fun other hother => hslash other (List.mem_cons_of_mem _ hother)
        rw [join_cons hothers, split_append, htail,
          split_of_not_mem (hslash segment (by simp))]
        rfl

/-! ## Segments of an absolute or a relative path -/

theorem segments_slash (text : List Char) : segments ('/' :: text) = (true, split text) := rfl

theorem segments_of_ne {text : List Char} (hhead : text.head? ≠ some '/') :
    segments text = (false, split text) := by
  unfold segments
  split
  · simp at hhead
  · rfl

theorem segments_append {before : List Char} (hbefore : before ≠ []) (after : List Char) :
    segments (before ++ '/' :: after) =
      ((segments before).1, (segments before).2 ++ split after) := by
  obtain ⟨c, rest, rfl⟩ := List.exists_cons_of_ne_nil hbefore
  by_cases hc : c = '/'
  · subst c
    rw [List.cons_append, segments_slash, segments_slash, split_append]
  · have hhead : (c :: rest).head? ≠ some '/' := by simpa using hc
    have hwhole : (c :: rest ++ '/' :: after).head? ≠ some '/' := by simpa using hc
    rw [segments_of_ne hwhole, segments_of_ne hhead, split_append]

/-- The names among segments that lead somewhere else. -/
def moves (segs : List Segment) : List String :=
  (segs.filter fun s => decide (s ≠ [] ∧ s ≠ ['.'])).map String.ofList

def steps (path : String) : List String := moves (segments path.toList).2

def isAbsolute (path : String) : Bool := (segments path.toList).1

@[simp] theorem moves_nil : moves [] = [] := rfl

@[simp] theorem moves_append (before after : List Segment) :
    moves (before ++ after) = moves before ++ moves after := by
  simp [moves]

theorem moves_idle {idle : List Segment} (hidle : ∀ s ∈ idle, s = [] ∨ s = ['.']) :
    moves idle = [] := by
  simp only [moves, List.map_eq_nil_iff, List.filter_eq_nil_iff, decide_eq_true_eq]
  rintro s hs ⟨hne, hdot⟩
  rcases hidle s hs with rfl | rfl
  · exact hne rfl
  · exact hdot rfl

theorem moves_cons_idle {segment : Segment} (hidle : segment = [] ∨ segment = ['.'])
    (others : List Segment) : moves (segment :: others) = moves others := by
  rcases hidle with rfl | rfl <;> simp [moves]

theorem moves_cons_of_ne {segment : Segment} (hne : segment ≠ []) (hdot : segment ≠ ['.'])
    (others : List Segment) :
    moves (segment :: others) = String.ofList segment :: moves others := by
  simp [moves, hne, hdot]

/-- A text that is a segment of its own behind a slash. -/
structure Bare (name : String) : Prop where
  ne_empty : name ≠ ""
  noSlash : '/' ∉ name.toList

/-- A name that can be the last component of a path. -/
structure Ordinary (name : String) : Prop extends Bare name where
  ne_dot : name ≠ "."
  ne_up : name ≠ ".."

theorem Bare.toList_ne_nil {name : String} (hname : Bare name) : name.toList ≠ [] := by
  intro hnil
  exact hname.ne_empty (String.toList_eq_nil_iff.mp hnil)

theorem Bare.head?_ne {name : String} (hname : Bare name) : name.toList.head? ≠ some '/' := by
  intro hhead
  exact hname.noSlash (List.mem_of_head? hhead)

theorem Ordinary.toList_ne_dot {name : String} (hname : Ordinary name) :
    name.toList ≠ ['.'] := by
  intro hdot
  exact hname.ne_dot (String.toList_injective hdot)

theorem Ordinary.moves_eq {name : String} (hname : Ordinary name) :
    moves [name.toList] = [name] := by
  rw [moves_cons_of_ne hname.toList_ne_nil hname.toList_ne_dot, String.ofList_toList]
  rfl

theorem Ordinary.append {name suffix : String} (hname : Ordinary name)
    (hslash : '/' ∉ suffix.toList) (hlong : 2 ≤ suffix.toList.length) :
    Ordinary (name ++ suffix) := by
  have hlength : 3 ≤ (name ++ suffix).toList.length := by
    have hpos := List.length_pos_iff.mpr hname.toList_ne_nil
    rw [String.toList_append, List.length_append]
    omega
  refine ⟨⟨?_, ?_⟩, ?_, ?_⟩
  · intro h
    simp [h] at hlength
  · rw [String.toList_append, List.mem_append, not_or]
    exact ⟨hname.noSlash, hslash⟩
  · intro h
    simp [h] at hlength
  · intro h
    simp [h] at hlength

/-! ## A name in a directory -/

/-- A name is appended behind a slash, which is there already if the base ends in one. -/
theorem toList_append_name (base : String) {name : String} (hname : Bare name) :
    (append base name).toList =
      match base.toList.getLast? with
      | none => name.toList
      | some '/' => base.toList ++ name.toList
      | some _ => base.toList ++ '/' :: name.toList := by
  unfold append
  split
  · rename_i rest hrest
    exact absurd (by simp [hrest]) hname.head?_ne
  · cases hlast : base.toList.getLast? with
    | none => rfl
    | some c =>
        by_cases hc : c = '/'
        · subst c
          simp
        · simp

theorem segments_append_name (base : String) {name : String} (hname : Bare name) :
    ∃ before, segments (append base name).toList = (isAbsolute base, before ++ [name.toList]) ∧
      moves before = steps base ∧ before <+: (segments base.toList).2 := by
  have hsplit : split name.toList = [name.toList] := split_of_not_mem hname.noSlash
  rw [toList_append_name base hname]
  unfold isAbsolute steps
  cases hlast : base.toList.getLast? with
  | none =>
      have hbase : base.toList = [] := List.getLast?_eq_none_iff.mp hlast
      refine ⟨[], ?_, ?_, List.nil_prefix⟩
      · rw [segments_of_ne hname.head?_ne, hsplit, hbase]
        rfl
      · simp [hbase, segments, split, moves]
  | some c =>
      obtain ⟨init, hinit⟩ := List.getLast?_eq_some_iff.mp hlast
      by_cases hc : c = '/'
      · subst c
        simp only [hinit, List.append_assoc, List.singleton_append]
        by_cases hempty : init = []
        · subst init
          exact ⟨[], by simp [segments_slash, hsplit], by simp [segments_slash, split, moves],
            List.nil_prefix⟩
        · refine ⟨(segments init).2, ?_, ?_, ?_⟩
          · rw [segments_append hempty, segments_append hempty, hsplit]
          · rw [segments_append hempty, moves_append]
            simp [split, moves]
          · rw [segments_append hempty]
            exact List.prefix_append _ _
      · have hne : base.toList ≠ [] := by simp [hinit]
        refine ⟨(segments base.toList).2, ?_, rfl, List.prefix_rfl⟩
        simp only
        rw [segments_append hne, hsplit]

theorem steps_append_name (base : String) {name : String} (hname : Ordinary name) :
    steps (append base name) = steps base ++ [name] := by
  obtain ⟨before, hsegments, hbefore, -⟩ := segments_append_name base hname.toBare
  rw [steps, hsegments, moves_append, hbefore, hname.moves_eq]

theorem isAbsolute_append_name (base : String) {name : String} (hname : Ordinary name) :
    isAbsolute (append base name) = isAbsolute base := by
  obtain ⟨before, hsegments, -⟩ := segments_append_name base hname.toBare
  rw [isAbsolute, hsegments]

theorem fileName?_append_name (base : String) {name : String} (hname : Ordinary name) :
    fileName? (append base name) = some name := by
  obtain ⟨before, hsegments, -⟩ := segments_append_name base hname.toBare
  have hup : name.toList ≠ ['.', '.'] := by
    intro hup
    exact hname.ne_up (String.toList_injective hup)
  simp [fileName?, hsegments, dropIdle, hname.toList_ne_nil, hname.toList_ne_dot, hup]

end Path
end ZoneDemand
