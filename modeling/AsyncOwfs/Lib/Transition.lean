/-!
# AsyncOwfs.Lib.Transition

Runs of a partial transition function, and the rules for what holds along them.

A system is a function `step : σ → α → Option σ`: the state after an action, or
`none` where the action is not possible.  A run is a list of actions; what is
said of its states and steps is said up to the first action that is not
possible.

Besides the usual invariant rule there is one for conditional invariants: a
property that is kept by exactly those steps that meet a condition holds in
every state of a run if and only if every step of the run meets the condition
(`allStates_iff_allSteps`).
-/

namespace Transition

variable {σ : Type u} {α : Type v} (step : σ → α → Option σ)

/-- The state at the end of a run, if every step of it is possible. -/
def run : σ → List α → Option σ
  | s, [] => some s
  | s, a :: as => (step s a).bind fun s' => run s' as

/-- The property holds in every state of the run, the first one included. -/
def AllStates (P : σ → Prop) : σ → List α → Prop
  | s, [] => P s
  | s, a :: as => P s ∧ ∀ s', step s a = some s' → AllStates P s' as

/-- Every step of the run meets the condition on the state before it. -/
def AllSteps (G : σ → α → Prop) : σ → List α → Prop
  | _, [] => True
  | s, a :: as => ∀ s', step s a = some s' → G s a ∧ AllSteps G s' as

instance AllSteps.decidable {G : σ → α → Prop} [∀ s a, Decidable (G s a)] :
    (s : σ) → (as : List α) → Decidable (AllSteps step G s as)
  | _, [] => .isTrue trivial
  | s, a :: as =>
    match h : step s a with
    | none => .isTrue fun s' hs => by rw [h] at hs; contradiction
    | some t =>
      have : Decidable (AllSteps step G t as) := AllSteps.decidable t as
      decidable_of_iff (G s a ∧ AllSteps step G t as) <| by
        constructor
        · intro hg s' hs
          rw [h, Option.some.injEq] at hs
          exact hs ▸ hg
        · intro hg
          exact hg t h

variable {step}

@[simp] theorem run_nil (s : σ) : run step s [] = some s := rfl

theorem run_cons {s s' : σ} {a : α} {as : List α} (h : run step s (a :: as) = some s') :
    ∃ t, step s a = some t ∧ run step t as = some s' := by
  rw [run] at h
  exact Option.bind_eq_some_iff.mp h

theorem run_append {s s' s'' : σ} {as bs : List α} (h : run step s as = some s')
    (h' : run step s' bs = some s'') : run step s (as ++ bs) = some s'' := by
  induction as generalizing s with
  | nil =>
      rw [run_nil, Option.some.injEq] at h
      subst h
      exact h'
  | cons a as ih =>
      obtain ⟨t, ht, h⟩ := run_cons h
      rw [List.cons_append, run, ht, Option.bind_some]
      exact ih h

/-- A run of two parts. -/
theorem exists_of_run_append {s s'' : σ} {as bs : List α} (h : run step s (as ++ bs) = some s'') :
    ∃ s', run step s as = some s' ∧ run step s' bs = some s'' := by
  induction as generalizing s with
  | nil => exact ⟨s, rfl, h⟩
  | cons a as ih =>
      obtain ⟨t, ht, h⟩ := run_cons h
      obtain ⟨s', hs', h⟩ := ih h
      refine ⟨s', ?_, h⟩
      rw [run, ht, Option.bind_some, hs']

theorem AllStates.head {P : σ → Prop} {s : σ} {as : List α} (h : AllStates step P s as) : P s := by
  cases as with
  | nil => exact h
  | cons a as => exact h.1

theorem AllStates.imp {P Q : σ → Prop} (hPQ : ∀ s, P s → Q s) {s : σ} {as : List α}
    (h : AllStates step P s as) : AllStates step Q s as := by
  induction as generalizing s with
  | nil => exact hPQ s h
  | cons a as ih => exact ⟨hPQ s h.1, fun t ht => ih (h.2 t ht)⟩

/-- What holds in every state of a run holds in those from any of them on. -/
theorem AllStates.of_append {P : σ → Prop} {s s' : σ} {as as' : List α}
    (h : AllStates step P s (as ++ as')) (hr : run step s as = some s') :
    AllStates step P s' as' := by
  induction as generalizing s with
  | nil => rw [run_nil, Option.some.injEq] at hr; exact hr ▸ h
  | cons a as ih =>
      obtain ⟨t, ht, hr'⟩ := run_cons hr
      exact ih (h.2 t ht) hr'

/-- What holds in every state of a run holds at its end. -/
theorem AllStates.of_run {P : σ → Prop} {s s' : σ} {as : List α} (h : AllStates step P s as)
    (hr : run step s as = some s') : P s' := by
  rw [← List.append_nil as] at h
  exact h.of_append hr

/-- What holds of all steps of a run holds of those from any state in it. -/
theorem AllSteps.of_append {G : σ → α → Prop} {s s' : σ} {as as' : List α}
    (h : AllSteps step G s (as ++ as')) (hr : run step s as = some s') : AllSteps step G s' as' := by
  induction as generalizing s with
  | nil => rw [run_nil, Option.some.injEq] at hr; exact hr ▸ h
  | cons a as ih =>
      obtain ⟨t, ht, hr'⟩ := run_cons hr
      exact ih (h t ht).2 hr'

theorem allSteps_true (s : σ) (as : List α) : AllSteps step (fun _ _ => True) s as := by
  induction as generalizing s with
  | nil => trivial
  | cons a as ih => exact fun t _ => ⟨trivial, ih t⟩

/-! ## Invariants -/

/-- Steps that relate the states before and after them by a preorder relate the
ends of a run by it. -/
theorem rel_run {R : σ → σ → Prop} (hrefl : ∀ s, R s s)
    (htrans : ∀ {s t u}, R s t → R t u → R s u)
    (hstep : ∀ s a s', step s a = some s' → R s s') {s s' : σ} {as : List α}
    (h : run step s as = some s') : R s s' := by
  induction as generalizing s with
  | nil => rw [run_nil, Option.some.injEq] at h; subst h; exact hrefl s
  | cons a as ih =>
      obtain ⟨t, ht, h'⟩ := run_cons h
      exact htrans (hstep s a t ht) (ih h')

/-- **Invariant**: what every step keeps holds at the end of a run. -/
theorem invariant_run {I : σ → Prop} (hstep : ∀ s a s', I s → step s a = some s' → I s')
    {s s' : σ} {as : List α} (hI : I s) (h : run step s as = some s') : I s' :=
  rel_run (R := fun s s' => I s → I s') (fun _ => id) (fun h₁ h₂ => h₂ ∘ h₁)
    (fun s a s' hs hi => hstep s a s' hi hs) h hI

/-- **Guarded invariant**: what is kept by every step that meets a condition
holds in every state of a run whose steps all meet it. -/
theorem guarded_allStates {I : σ → Prop} {G : σ → α → Prop}
    (hstep : ∀ s a s', I s → G s a → step s a = some s' → I s') {s : σ} {as : List α}
    (hI : I s) (hG : AllSteps step G s as) : AllStates step I s as := by
  induction as generalizing s with
  | nil => exact hI
  | cons a as ih =>
      refine ⟨hI, fun t ht => ?_⟩
      obtain ⟨hg, hG'⟩ := hG t ht
      exact ih (hstep s a t hI hg ht) hG'

/-- **Conditional invariant**: under an invariant `I`, which holds for as long as
the property does, and an assumption `H` on the steps, let the property be kept by
exactly those steps that meet `G`.  Then it holds in every state of a run if and
only if every step of the run meets `G`. -/
theorem allStates_iff_allSteps_of {I P : σ → Prop} {H G : σ → α → Prop}
    (hI : ∀ s a s', I s → H s a → P s → P s' → step s a = some s' → I s')
    (hP : ∀ s a s', I s → H s a → P s → step s a = some s' → (P s' ↔ G s a))
    {s : σ} {as : List α} (hs : I s) (hp : P s) (hH : AllSteps step H s as) :
    AllStates step P s as ↔ AllSteps step G s as := by
  induction as generalizing s with
  | nil => simp [AllStates, AllSteps, hp]
  | cons a as ih =>
      constructor
      · intro hall t ht
        obtain ⟨hh, hH'⟩ := hH t ht
        have hpt : P t := (hall.2 t ht).head
        exact ⟨(hP s a t hs hh hp ht).mp hpt,
          (ih (hI s a t hs hh hp hpt ht) hpt hH').mp (hall.2 t ht)⟩
      · intro hall
        refine ⟨hp, fun t ht => ?_⟩
        obtain ⟨hh, hH'⟩ := hH t ht
        have hpt : P t := (hP s a t hs hh hp ht).mpr (hall t ht).1
        exact (ih (hI s a t hs hh hp hpt ht) hpt hH').mpr (hall t ht).2

/-- The same, where the invariant is kept in any case. -/
theorem allStates_iff_allSteps {I P : σ → Prop} {H G : σ → α → Prop}
    (hI : ∀ s a s', I s → H s a → step s a = some s' → I s')
    (hP : ∀ s a s', I s → H s a → P s → step s a = some s' → (P s' ↔ G s a))
    {s : σ} {as : List α} (hs : I s) (hp : P s) (hH : AllSteps step H s as) :
    AllStates step P s as ↔ AllSteps step G s as :=
  allStates_iff_allSteps_of (fun s a s' hs hh _ _ h => hI s a s' hs hh h) hP hs hp hH

/-- What follows at a step from a property of the state and an assumption. -/
theorem allSteps_of_allStates {P : σ → Prop} {H G : σ → α → Prop}
    (hG : ∀ s a s', P s → H s a → step s a = some s' → G s a)
    {s : σ} {as : List α} (hp : AllStates step P s as) (hH : AllSteps step H s as) :
    AllSteps step G s as := by
  induction as generalizing s with
  | nil => trivial
  | cons a as ih =>
      intro t ht
      obtain ⟨hh, hH'⟩ := hH t ht
      exact ⟨hG s a t hp.1 hh ht, ih (hp.2 t ht) hH'⟩

/-- Conditions that agree wherever an invariant holds agree along a run. -/
theorem allSteps_congr {I : σ → Prop} {G G' : σ → α → Prop}
    (hI : ∀ s a s', I s → step s a = some s' → I s')
    (hG : ∀ s a s', I s → step s a = some s' → (G s a ↔ G' s a)) {s : σ} {as : List α} (hs : I s) :
    AllSteps step G s as ↔ AllSteps step G' s as := by
  induction as generalizing s with
  | nil => exact Iff.rfl
  | cons a as ih =>
      refine forall_congr' fun t => imp_congr_right fun ht => ?_
      rw [hG s a t hs ht, ih (hI s a t hs ht)]

end Transition
