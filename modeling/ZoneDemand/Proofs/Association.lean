import ZoneDemand.Association

/-!
# Looking up in association lists

What is found under a key after the value of a key has been set, and after all pairs with
a key have been taken out.
-/

namespace ZoneDemand

variable {α β : Type} [BEq α] [LawfulBEq α]

theorem lookup_cons_of_ne {head other : α} (old : β) (entries : List (α × β))
    (hother : other ≠ head) : ((head, old) :: entries).lookup other = entries.lookup other := by
  rw [List.lookup_cons, beq_false_of_ne hother]

variable [DecidableEq α]

theorem lookup_setValue (key other : α) (value : β) (entries : List (α × β)) :
    (setValue key value entries).lookup other =
      if other = key then some value else entries.lookup other := by
  induction entries with
  | nil =>
      by_cases hother : other = key
      · subst other
        simp [setValue]
      · simp [setValue, lookup_cons_of_ne, hother]
  | cons entry rest ih =>
      obtain ⟨head, old⟩ := entry
      by_cases hhead : head = key
      · subst head
        by_cases hother : other = key
        · subst other
          simp [setValue]
        · simp [setValue, lookup_cons_of_ne, hother]
      · by_cases hother : other = head
        · subst other
          simp [setValue, hhead]
        · simp [setValue, hhead, lookup_cons_of_ne, hother, ih]

theorem lookup_filter_ne (key other : α) (entries : List (α × β)) :
    (entries.filter fun entry => entry.1 ≠ key).lookup other =
      if other = key then none else entries.lookup other := by
  induction entries with
  | nil => simp
  | cons entry rest ih =>
      obtain ⟨head, old⟩ := entry
      by_cases hhead : head = key
      · subst head
        rw [List.filter_cons_of_neg (by simp), ih]
        by_cases hother : other = key
        · simp [hother]
        · simp [lookup_cons_of_ne, hother]
      · rw [List.filter_cons_of_pos (by simpa using hhead)]
        by_cases hother : other = head
        · subst other
          simp [hhead]
        · rw [lookup_cons_of_ne _ _ hother, ih, lookup_cons_of_ne _ _ hother]

end ZoneDemand
