import ZoneDemand.World

/-!
# Outcomes of computations and of actions

A computation answers or fails; an action does so in a world.  The lemmas here take a
sequence apart into the part that failed, or into an answer and what followed it.
-/

namespace ZoneDemand

section Outcomes

variable {ε ε' α β : Type}

@[simp] theorem ok_bind (a : α) (f : α → Except ε β) : (Except.ok a >>= f) = f a := rfl

@[simp] theorem error_bind (e : ε) (f : α → Except ε β) :
    (Except.error e >>= f) = .error e := rfl

@[simp] theorem pure_eq_ok (a : α) : (pure a : Except ε α) = .ok a := rfl

@[simp] theorem throw_eq_error (e : ε) : (throw e : Except ε α) = .error e := rfl

@[simp] theorem map_ok (f : α → β) (a : α) : Except.map f (.ok a : Except ε α) = .ok (f a) :=
  rfl

@[simp] theorem map_error (f : α → β) (e : ε) :
    Except.map f (.error e : Except ε α) = .error e := rfl

@[simp] theorem mapError_ok (f : ε → ε') (a : α) :
    Except.mapError f (.ok a : Except ε α) = .ok a := rfl

@[simp] theorem mapError_error (f : ε → ε') (e : ε) :
    Except.mapError f (.error e : Except ε α) = .error (f e) := rfl

theorem bind_eq_ok_iff {outcome : Except ε α} {f : α → Except ε β} {b : β} :
    outcome >>= f = .ok b ↔ ∃ a, outcome = .ok a ∧ f a = .ok b := by
  cases outcome <;> simp

theorem map_eq_ok_iff {outcome : Except ε α} {f : α → β} {b : β} :
    outcome.map f = .ok b ↔ ∃ a, outcome = .ok a ∧ f a = b := by
  cases outcome <;> simp

theorem map_eq_error_iff {outcome : Except ε α} {f : α → β} {e : ε} :
    outcome.map f = .error e ↔ outcome = .error e := by
  cases outcome <;> simp

theorem toOption_eq_some_iff {outcome : Except ε α} {a : α} :
    outcome.toOption = some a ↔ outcome = .ok a := by
  cases outcome <;> simp [Except.toOption]

theorem mapError_eq_ok_iff {outcome : Except ε α} {f : ε → ε'} {a : α} :
    outcome.mapError f = .ok a ↔ outcome = .ok a := by
  cases outcome <;> simp

theorem mapError_eq_error_iff {outcome : Except ε α} {f : ε → ε'} {e : ε'} :
    outcome.mapError f = .error e ↔ ∃ fault, outcome = .error fault ∧ f fault = e := by
  cases outcome <;> simp

end Outcomes

/-! ## Actions -/

@[simp] theorem World.files_report (w : World) (entries : Journal) :
    (w.report entries).files = w.files := rfl

@[simp] theorem World.store_report (w : World) (entries : Journal) :
    (w.report entries).store = w.store := rfl

@[simp] theorem World.report_nil (w : World) : w.report [] = w := by
  simp [World.report]

@[simp] theorem World.report_report (w : World) (first second : Journal) :
    (w.report first).report second = w.report (first ++ second) := by
  simp [World.report]

namespace Action

variable {ε ε' α β : Type}

def on (action : Action ε α) (w : World) : Except ε α × World := action.run.run w

@[simp] theorem on_pure (a : α) (w : World) : (pure a : Action ε α).on w = (.ok a, w) := rfl

@[simp] theorem on_throw (e : ε) (w : World) :
    (throw e : Action ε α).on w = (.error e, w) := rfl

@[simp] theorem on_get (w : World) : (get : Action ε World).on w = (.ok w, w) := rfl

@[simp] theorem on_set (later w : World) :
    (set later : Action ε PUnit).on w = (.ok (), later) := rfl

@[simp] theorem on_ofExcept (outcome : Except ε α) (w : World) :
    (ofExcept outcome).on w = (outcome, w) := rfl

@[simp] theorem on_report (entries : Journal) (w : World) :
    (report entries : Action ε Unit).on w = (.ok (), w.report entries) := rfl

@[simp] theorem on_mapFailure (f : ε → ε') (action : Action ε α) (w : World) :
    (action.mapFailure f).on w = ((action.on w).1.mapError f, (action.on w).2) := rfl

@[simp] theorem on_onFiles (change : FileTree → FileTree × Except ε α) (w : World) :
    (onFiles change).on w = ((change w.files).2, { w with files := (change w.files).1 }) := rfl

theorem on_bind (action : Action ε α) (f : α → Action ε β) (w : World) :
    (action >>= f).on w =
      match action.on w with
      | (.ok a, later) => (f a).on later
      | (.error e, later) => (.error e, later) := by
  change (ExceptT.bindCont f (action.on w).1).run (action.on w).2 = _
  cases action.on w with
  | mk outcome later => cases outcome <;> rfl

theorem on_bind_of_ok {action : Action ε α} {a : α} {w later : World}
    (hon : action.on w = (.ok a, later)) (f : α → Action ε β) :
    (action >>= f).on w = (f a).on later := by
  rw [on_bind, hon]

theorem on_bind_of_error {action : Action ε α} {e : ε} {w later : World}
    (hon : action.on w = (.error e, later)) (f : α → Action ε β) :
    (action >>= f).on w = (.error e, later) := by
  rw [on_bind, hon]

/-- A sequence has failed in its first part, or has gone on with what that answered. -/
theorem on_bind_cases {action : Action ε α} {f : α → Action ε β} {w later : World}
    {outcome : Except ε β} (hon : (action >>= f).on w = (outcome, later)) :
    (∃ e, action.on w = (.error e, later) ∧ outcome = .error e) ∨
      ∃ a between, action.on w = (.ok a, between) ∧ (f a).on between = (outcome, later) := by
  rw [on_bind] at hon
  cases hfirst : action.on w with
  | mk first between =>
      rw [hfirst] at hon
      cases first with
      | error e =>
          obtain ⟨rfl, rfl⟩ := Prod.mk.inj hon
          exact .inl ⟨e, rfl, rfl⟩
      | ok a => exact .inr ⟨a, between, rfl, hon⟩

theorem on_bind_eq_ok {action : Action ε α} {f : α → Action ε β} {b : β} {w later : World}
    (hon : (action >>= f).on w = (.ok b, later)) :
    ∃ a between, action.on w = (.ok a, between) ∧ (f a).on between = (.ok b, later) := by
  rcases on_bind_cases hon with ⟨e, -, herror⟩ | hok
  · contradiction
  · exact hok

/-! ## Actions that only report -/

/-- The action answers or fails as the computation does, and only adds to the journal. -/
def Reports (action : Action ε α) (w : World) (outcome : Except ε α) : Prop :=
  ∃ entries, action.on w = (outcome, w.report entries)

theorem reports_ofExcept (outcome : Except ε α) (w : World) :
    (ofExcept outcome).Reports w outcome :=
  ⟨[], by simp⟩

theorem reports_pure (a : α) (w : World) : (pure a : Action ε α).Reports w (.ok a) :=
  ⟨[], by simp⟩

theorem reports_report (entries : Journal) (w : World) :
    (report entries : Action ε Unit).Reports w (.ok ()) :=
  ⟨entries, by simp⟩

theorem Reports.mapFailure {action : Action ε α} {w : World} {outcome : Except ε α}
    (h : action.Reports w outcome) (f : ε → ε') :
    (action.mapFailure f).Reports w (outcome.mapError f) := by
  obtain ⟨entries, hon⟩ := h
  exact ⟨entries, by rw [on_mapFailure, hon]⟩

theorem Reports.bind {action : Action ε α} {f : α → Action ε β} {w : World}
    {first : Except ε α} {next : α → Except ε β} (hfirst : action.Reports w first)
    (hnext : ∀ a entries, (f a).Reports (w.report entries) (next a)) :
    (action >>= f).Reports w (first >>= next) := by
  obtain ⟨entries, hon⟩ := hfirst
  cases first with
  | error e => exact ⟨entries, on_bind_of_error hon f⟩
  | ok a =>
      obtain ⟨others, hothers⟩ := hnext a entries
      refine ⟨entries ++ others, ?_⟩
      rw [on_bind_of_ok hon, hothers, World.report_report]
      rfl

theorem Reports.after_get {f : World → Action ε α} {w : World} {outcome : Except ε α}
    (h : (f w).Reports w outcome) : ((get : Action ε World) >>= f).Reports w outcome := by
  unfold Reports
  rw [on_bind_of_ok (on_get w)]
  exact h

theorem Reports.after_report {f : Unit → Action ε α} {w : World} {outcome : Except ε α}
    {entries : Journal} (h : ∀ later, (f ()).Reports (w.report later) outcome) :
    (report entries >>= f).Reports w outcome := by
  have hreport := (reports_report entries w : (report entries : Action ε Unit).Reports w (.ok ()))
  exact hreport.bind (f := f) fun _ => h

end Action

end ZoneDemand
