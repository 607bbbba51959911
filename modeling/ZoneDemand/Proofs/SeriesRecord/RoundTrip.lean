import ZoneDemand.Proofs.Json.RoundTrip

/-!
# Records that are read back

Every record is read back from its line.
-/

namespace ZoneDemand
namespace SeriesRecord

open Json

theorem skipBlanks_of_mark {c : Char} {rest : List Char} (hmark : isBlankMark c = false) :
    skipBlanks (c :: rest) = c :: rest := by
  simp [skipBlanks, hmark]

theorem readText_stringChars (text : String) (after : List Char) :
    readText (stringChars text ++ after) = .ok (text, after) := by
  have htext : stringChars text ++ after =
      '"' :: (text.toList.flatMap escapeChar ++ '"' :: after) := by
    simp [stringChars]
  unfold readText
  rw [htext, skipBlanks_of_mark (by decide)]
  simp only [if_true, readChars_escaped, String.ofList_toList]

/-! ## Lists of numbers -/

theorem readNumbers_step {limit n : Nat} {first : Bool} {text rest part after last : List Char}
    {c : Char} {ns : List Nat} (hskip : skipBlanks text = c :: rest) (hopen : c ≠ ']')
    (hpart : nextPart first ']' c rest = .ok part)
    (hnumber : readUnsigned limit part = .ok (n, after))
    (hothers : readNumbers limit false after = .ok (ns, last)) :
    readNumbers limit first text = .ok (n :: ns, last) := by
  rw [readNumbers]
  split
  · rename_i hempty
    rw [hskip] at hempty
    cases hempty
  · rename_i hcons
    rw [hskip, List.cons.injEq] at hcons
    obtain ⟨rfl, rfl⟩ := hcons
    rw [if_neg hopen]
    split
    · rename_i herror
      rw [hpart] at herror
      cases herror
    · rename_i hok
      rw [hpart, Except.ok.injEq] at hok
      subst hok
      split
      · rename_i herror
        rw [hnumber] at herror
        cases herror
      · rename_i hok
        rw [hnumber, Except.ok.injEq, Prod.mk.injEq] at hok
        obtain ⟨rfl, rfl⟩ := hok
        rw [hothers]

theorem readNumbers_close {limit : Nat} (first : Bool) (after : List Char) :
    readNumbers limit first (']' :: after) = .ok ([], after) := by
  have hskip : skipBlanks (']' :: after) = ']' :: after := skipBlanks_of_mark (by decide)
  rw [readNumbers]
  split
  · rename_i hempty
    rw [hskip] at hempty
    cases hempty
  · rename_i hcons
    rw [hskip, List.cons.injEq] at hcons
    obtain ⟨rfl, rfl⟩ := hcons
    rfl

/-- The numbers of a list after the first, up to its bracket. -/
def tailChars (ns : List Nat) : List Char := ns.flatMap fun n => ',' :: numberChars n

theorem intercalate_numberChars (n : Nat) (ns : List Nat) :
    List.intercalate [','] ((n :: ns).map numberChars) = numberChars n ++ tailChars ns := by
  induction ns generalizing n with
  | nil => simp [tailChars, List.intercalate]
  | cons m ns ih =>
      have htail := ih m
      simp only [List.intercalate, List.map_cons, List.intersperse_cons_cons, List.flatten_cons]
        at htail ⊢
      rw [htail]
      simp [tailChars]

theorem listChars_cons (n : Nat) (ns : List Nat) (after : List Char) :
    listChars (n :: ns) ++ after = '[' :: (numberChars n ++ (tailChars ns ++ ']' :: after)) := by
  rw [listChars, intercalate_numberChars]
  simp

theorem tailChars_cons (n : Nat) (ns : List Nat) (after : List Char) :
    tailChars (n :: ns) ++ ']' :: after =
      ',' :: (numberChars n ++ (tailChars ns ++ ']' :: after)) := by
  simp [tailChars]

theorem tailChars_mark (ns : List Nat) (after : List Char) :
    ∃ mark rest, tailChars ns ++ ']' :: after = mark :: rest ∧ EndsNumber mark := by
  cases ns with
  | nil => exact ⟨']', after, rfl, .inr rfl⟩
  | cons n ns => exact ⟨',', _, tailChars_cons n ns after, .inl rfl⟩

section Lists

variable {limit : Nat} (hlimit : limit ≤ maxCount)
include hlimit

theorem readUnsigned_numberChars {n : Nat} {mark : Char} (hbound : n ≤ limit)
    (hmark : EndsNumber mark) (after : List Char) :
    readUnsigned limit (numberChars n ++ mark :: after) = .ok (n, mark :: after) := by
  obtain ⟨c, rest, hchars, hdigit⟩ := numberChars_head n
  have hnumber := readNumber_numberChars (Nat.le_trans hbound hlimit) hmark after
  rw [hchars, List.cons_append] at hnumber ⊢
  unfold readUnsigned
  rw [skipBlanks_of_digit hdigit]
  simp [hdigit, hnumber, hbound]

theorem readNumbers_tailChars {ns : List Nat} (hbounds : ∀ n ∈ ns, n ≤ limit)
    (after : List Char) :
    readNumbers limit false (tailChars ns ++ ']' :: after) = .ok (ns, after) := by
  induction ns with
  | nil => exact readNumbers_close false after
  | cons n ns ih =>
      obtain ⟨c, rest, hchars, hdigit⟩ := numberChars_head n
      obtain ⟨mark, last, htail, hmark⟩ := tailChars_mark ns after
      have hothers := ih fun m hm => hbounds m (List.mem_cons_of_mem n hm)
      have hnumber := readUnsigned_numberChars hlimit (hbounds n List.mem_cons_self) hmark last
      have hopen : c ≠ ']' := by
        rintro rfl
        simp at hdigit
      rw [tailChars_cons]
      rw [htail] at hothers ⊢
      refine readNumbers_step (skipBlanks_of_mark (by decide)) (by decide) ?_ hnumber hothers
      rw [hchars, List.cons_append]
      simp [nextPart, skipBlanks_of_digit hdigit, hopen]

theorem readNumbers_numberChars {n : Nat} {ns : List Nat} (hbounds : ∀ m ∈ n :: ns, m ≤ limit)
    (after : List Char) :
    readNumbers limit true (numberChars n ++ (tailChars ns ++ ']' :: after)) =
      .ok (n :: ns, after) := by
  obtain ⟨c, rest, hchars, hdigit⟩ := numberChars_head n
  obtain ⟨mark, last, htail, hmark⟩ := tailChars_mark ns after
  have hothers := readNumbers_tailChars hlimit
    (fun m hm => hbounds m (List.mem_cons_of_mem n hm)) after
  have hnumber := readUnsigned_numberChars hlimit (hbounds n List.mem_cons_self) hmark last
  have hopen : c ≠ ']' := by
    rintro rfl
    simp at hdigit
  rw [htail] at hothers ⊢
  rw [hchars, List.cons_append] at hnumber ⊢
  exact readNumbers_step (skipBlanks_of_digit hdigit) hopen rfl hnumber hothers

theorem readList_listChars {ns : List Nat} (hbounds : ∀ n ∈ ns, n ≤ limit) (after : List Char) :
    readList limit (listChars ns ++ after) = .ok (ns, after) := by
  unfold readList
  cases ns with
  | nil =>
      have hchars : listChars [] ++ after = '[' :: ']' :: after := rfl
      rw [hchars, skipBlanks_of_mark (by decide)]
      exact readNumbers_close true after
  | cons n ns =>
      rw [listChars_cons, skipBlanks_of_mark (by decide)]
      exact readNumbers_numberChars hlimit hbounds after

end Lists

theorem readTarget_listChars (counts : List UInt64) (after : List Char) :
    readTarget (listChars (counts.map UInt64.toNat) ++ after) = .ok (counts, after) := by
  have hbounds : ∀ n ∈ counts.map UInt64.toNat, n ≤ maxCount := by
    intro n hn
    obtain ⟨count, -, rfl⟩ := List.mem_map.mp hn
    have hsmall := count.toNat_lt
    unfold maxCount
    omega
  unfold readTarget
  rw [readList_listChars (Nat.le_refl _) hbounds]
  simp [Function.comp_def]

theorem readCategories_listChars (cats : List UInt32) (after : List Char) :
    readCategories (listChars (cats.map UInt32.toNat) ++ after) = .ok (some cats, after) := by
  have hbounds : ∀ n ∈ cats.map UInt32.toNat, n ≤ maxCategory := by
    intro n hn
    obtain ⟨cat, -, rfl⟩ := List.mem_map.mp hn
    have hsmall := cat.toNat_lt
    unfold maxCategory
    omega
  have hlimit : maxCategory ≤ maxCount := by decide
  have hread := readList_listChars hlimit hbounds after
  have hopen : ∃ rest, listChars (cats.map UInt32.toNat) ++ after = '[' :: rest := ⟨_, rfl⟩
  obtain ⟨rest, hrest⟩ := hopen
  unfold readCategories
  rw [hrest] at hread ⊢
  rw [skipBlanks_of_mark (by decide), hread]
  simp [Function.comp_def]

/-! ## Members -/

theorem stringChars_append (key : String) (after : List Char) :
    stringChars key ++ after = '"' :: (key.toList.flatMap escapeChar ++ '"' :: after) := by
  simp [stringChars]

section Members

variable {m found : Members} {key : String} {value after : List Char}

theorem readMember_of_add (hnew : m.has key.toList = false)
    (hadd : m.add key.toList value = .ok (found, after)) :
    readMember m (stringChars key ++ ':' :: value) = .ok (found, after) := by
  unfold readMember
  rw [stringChars_append]
  simp only [readKey, readChars_escaped, hnew, readColon, skipBlanks_of_mark (c := ':') (by decide)]
  simpa using hadd

theorem readMembers_step {first : Bool} {text rest part : List Char} {c : Char}
    (hskip : skipBlanks text = c :: rest) (hopen : c ≠ '\x7d')
    (hpart : nextPart first '\x7d' c rest = .ok part)
    (hmember : readMember m part = .ok (found, after)) :
    readMembers first m text = readMembers false found after := by
  rw [readMembers]
  split
  · rename_i hempty
    rw [hskip] at hempty
    cases hempty
  · rename_i hcons
    rw [hskip, List.cons.injEq] at hcons
    obtain ⟨rfl, rfl⟩ := hcons
    rw [if_neg hopen]
    split
    · rename_i herror
      rw [hpart] at herror
      cases herror
    · rename_i hok
      rw [hpart, Except.ok.injEq] at hok
      subst hok
      split
      · rename_i herror
        rw [hmember] at herror
        cases herror
      · rename_i hok
        rw [hmember, Except.ok.injEq, Prod.mk.injEq] at hok
        obtain ⟨rfl, rfl⟩ := hok
        rfl

theorem readMembers_first (hnew : m.has key.toList = false)
    (hadd : m.add key.toList value = .ok (found, after)) :
    readMembers true m (stringChars key ++ ':' :: value) = readMembers false found after := by
  have hmember := readMember_of_add hnew hadd
  rw [stringChars_append] at hmember ⊢
  exact readMembers_step (skipBlanks_of_mark (by decide)) (by decide) rfl hmember

theorem readMembers_next (hnew : m.has key.toList = false)
    (hadd : m.add key.toList value = .ok (found, after)) :
    readMembers false m (',' :: (stringChars key ++ ':' :: value)) =
      readMembers false found after := by
  have hmember := readMember_of_add hnew hadd
  rw [stringChars_append] at hmember ⊢
  refine readMembers_step (skipBlanks_of_mark (by decide)) (by decide) ?_ hmember
  simp [nextPart, skipBlanks_of_mark (c := '"') (by decide)]

theorem readMembers_close (m : Members) (first : Bool) (after : List Char) :
    readMembers first m ('\x7d' :: after) = .ok (m, after) := by
  have hskip : skipBlanks ('\x7d' :: after) = '\x7d' :: after := skipBlanks_of_mark (by decide)
  rw [readMembers]
  split
  · rename_i hempty
    rw [hskip] at hempty
    cases hempty
  · rename_i hcons
    rw [hskip, List.cons.injEq] at hcons
    obtain ⟨rfl, rfl⟩ := hcons
    rfl

end Members

theorem add_start (m : Members) (start : String) (after : List Char) :
    m.add "start".toList (stringChars start ++ after) =
      .ok ({ m with start := some start }, after) := by
  have hkey : "start".toList = ['s', 't', 'a', 'r', 't'] := by decide
  unfold Members.add
  rw [if_pos hkey, readText_stringChars]

theorem add_target (m : Members) (target : List UInt64) (after : List Char) :
    m.add "target".toList (listChars (target.map UInt64.toNat) ++ after) =
      .ok ({ m with target := some target }, after) := by
  have hkey : "target".toList = ['t', 'a', 'r', 'g', 'e', 't'] := by decide
  unfold Members.add
  rw [if_neg (by decide), if_pos hkey, readTarget_listChars]

theorem add_cat (m : Members) (cats : List UInt32) (after : List Char) :
    m.add "cat".toList (listChars (cats.map UInt32.toNat) ++ after) =
      .ok ({ m with cat := some (some cats) }, after) := by
  have hkey : "cat".toList = ['c', 'a', 't'] := by decide
  unfold Members.add
  rw [if_neg (by decide), if_neg (by decide), if_pos hkey, readCategories_listChars]

theorem readMembers_record (start : String) (target : List UInt64) (after : List Char) :
    readMembers true .none (stringChars "start" ++ ':' :: (stringChars start ++
        ',' :: (stringChars "target" ++ ':' :: (listChars (target.map UInt64.toNat) ++ after)))) =
      readMembers false ⟨some start, some target, none⟩ after := by
  rw [readMembers_first (by decide) (add_start _ start _),
    readMembers_next rfl (add_target _ target _)]
  rfl

theorem toChars_eq (r : SeriesRecord) : ∃ categories,
    r.toChars = '\x7b' :: (stringChars "start" ++ ':' :: (stringChars r.start ++
        ',' :: (stringChars "target" ++ ':' ::
          (listChars (r.target.map UInt64.toNat) ++ categories)))) ∧
      readMembers false ⟨some r.start, some r.target, none⟩ categories =
        .ok (⟨some r.start, some r.target, r.cat.map some⟩, []) := by
  obtain ⟨start, target, cat⟩ := r
  cases cat with
  | none =>
      refine ⟨['\x7d'], by simp [toChars], ?_⟩
      exact readMembers_close _ false []
  | some cats =>
      refine ⟨',' :: (stringChars "cat" ++ ':' :: (listChars (cats.map UInt32.toNat) ++ ['\x7d'])),
        by simp [toChars], ?_⟩
      rw [readMembers_next rfl (add_cat _ cats _), readMembers_close]
      rfl

/-- Every record is read back from its line. -/
theorem decode_encode (r : SeriesRecord) : decode r.encode = .ok r := by
  obtain ⟨categories, hchars, hmembers⟩ := r.toChars_eq
  have hrecord : (⟨some r.start, some r.target, r.cat.map some⟩ : Members).record = .ok r := by
    obtain ⟨start, target, cat⟩ := r
    cases cat <;> rfl
  have hread : readRecord r.toChars = .ok (r, []) := by
    unfold readRecord
    rw [hchars, skipBlanks_of_mark (by decide)]
    simp only [if_true, readMembers_record, hmembers, hrecord]
    rfl
  unfold decode encode
  rw [String.toList_ofList, hread]
  simp [skipBlanks]

end SeriesRecord
end ZoneDemand
