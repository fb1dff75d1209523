/-!
# AsyncOwfs.Lib.Hoare

Weakest preconditions of commands that change a state and may raise.  A command
that raises keeps what it has done to the state so far, so both ends of it have
a postcondition.

`wp_bind` and its companions compute; `wp_mono` uses what is known of a command;
`wp_forM` is the rule for loops over a list.

A command refines one on a part of the state if it does the same there
(`RefinesAt`).
-/

namespace Hoare

variable {ε σ α β : Type u}

/-- From `s`, the command ends in a state that meets `Q`, or raises in one that
meets `E`. -/
def wp (x : EStateM ε σ α) (Q : α → σ → Prop) (E : ε → σ → Prop) (s : σ) : Prop :=
  match x s with
  | .ok a s' => Q a s'
  | .error e s' => E e s'

/-! ## Commands -/

@[simp] theorem wp_pure (a : α) (Q : α → σ → Prop) (E : ε → σ → Prop) (s : σ) :
    wp (pure a) Q E s ↔ Q a s := Iff.rfl

@[simp] theorem wp_throw (e : ε) (Q : α → σ → Prop) (E : ε → σ → Prop) (s : σ) :
    wp (throw e) Q E s ↔ E e s := Iff.rfl

theorem wp_bind (x : EStateM ε σ α) (f : α → EStateM ε σ β) (Q : β → σ → Prop)
    (E : ε → σ → Prop) (s : σ) :
    wp (x >>= f) Q E s ↔ wp x (fun a => wp (f a) Q E) E s := by
  simp only [wp, bind, EStateM.bind]
  cases x s <;> rfl

@[simp] theorem wp_get (Q : σ → σ → Prop) (E : ε → σ → Prop) (s : σ) :
    wp get Q E s ↔ Q s s := Iff.rfl

@[simp] theorem wp_set (t : σ) (Q : PUnit → σ → Prop) (E : ε → σ → Prop) (s : σ) :
    wp (set t) Q E s ↔ Q ⟨⟩ t := Iff.rfl

@[simp] theorem wp_modify (f : σ → σ) (Q : PUnit → σ → Prop) (E : ε → σ → Prop) (s : σ) :
    wp (modify f) Q E s ↔ Q ⟨⟩ (f s) := Iff.rfl

/-- An exception is handled in the state that it was raised in. -/
theorem wp_tryCatch (x : EStateM ε σ α) (h : ε → EStateM ε σ α) (Q : α → σ → Prop)
    (E : ε → σ → Prop) (s : σ) :
    wp (tryCatch x h) Q E s ↔ wp x Q (fun e s' => wp (h e) Q E s') s := by
  show wp (EStateM.tryCatch x h) Q E s ↔ _
  delta wp EStateM.tryCatch
  cases x s with
  | ok a s' => exact Iff.rfl
  | error e s' => exact Iff.rfl

/-! ## Parts of a state -/

/-- A command on a part of a larger state. -/
def zoom {τ : Type u} (get : τ → σ) (put : σ → τ → τ) (x : EStateM ε σ α) : EStateM ε τ α :=
  fun t =>
    match x (get t) with
    | .ok a s => .ok a (put s t)
    | .error e s => .error e (put s t)

/-- A program on a part of the state. -/
@[simp] theorem wp_zoom {τ : Type u} (get : τ → σ) (put : σ → τ → τ) (x : EStateM ε σ α)
    (Q : α → τ → Prop) (E : ε → τ → Prop) (t : τ) :
    wp (zoom get put x) Q E t ↔
      wp x (fun a s => Q a (put s t)) (fun e s => E e (put s t)) (get t) := by
  simp only [wp, zoom]
  cases x (get t) <;> rfl

/-! ## Rules -/

/-- What is known of a command that has ended. -/
theorem wp_of_ok {x : EStateM ε σ α} {Q : α → σ → Prop} {E : ε → σ → Prop} {s s' : σ} {a : α}
    (h : wp x Q E s) (heq : x s = .ok a s') : Q a s' := by
  rw [wp, heq] at h
  exact h

/-- A command that cannot raise ends. -/
theorem wp_of_error {x : EStateM ε σ α} {Q : α → σ → Prop} {E : ε → σ → Prop} {s s' : σ} {e : ε}
    (h : wp x Q E s) (heq : x s = .error e s') : E e s' := by
  rw [wp, heq] at h
  exact h

/-- What cannot raise returns. -/
theorem exists_ok_of_wp {x : EStateM ε σ α} {Q : α → σ → Prop} {s : σ}
    (h : wp x Q (fun _ _ => False) s) : ∃ a s', x s = .ok a s' ∧ Q a s' := by
  rw [wp] at h
  split at h
  · next a s' heq => exact ⟨a, s', heq, h⟩
  · exact h.elim

/-- A command ends in some way. -/
theorem not_wp_false {x : EStateM ε σ α} {s : σ} :
    ¬ wp x (fun _ _ => False) (fun _ _ => False) s := by
  intro h
  obtain ⟨a, s', -, hfalse⟩ := exists_ok_of_wp h
  exact hfalse

/-- Every program ends somehow. -/
theorem wp_true (x : EStateM ε σ α) (s : σ) : wp x (fun _ _ => True) (fun _ _ => True) s := by
  rw [wp]
  split <;> trivial

theorem wp_mono {x : EStateM ε σ α} {Q Q' : α → σ → Prop} {E E' : ε → σ → Prop} {s : σ}
    (h : wp x Q E s) (hQ : ∀ a s', Q a s' → Q' a s') (hE : ∀ e s', E e s' → E' e s') :
    wp x Q' E' s := by
  unfold wp at h ⊢
  split at h
  · exact hQ _ _ h
  · exact hE _ _ h

/-- What is known of a command that does not raise. -/
theorem wp_mono_ok {x : EStateM ε σ α} {Q Q' : α → σ → Prop} {E : ε → σ → Prop} {s : σ}
    (h : wp x Q (fun _ _ => False) s) (hQ : ∀ a s', Q a s' → Q' a s') : wp x Q' E s :=
  wp_mono h hQ (fun _ _ h => h.elim)

/-- **Sequencing**: the second command goes on where the first one has ended. -/
theorem wp_seq {x : EStateM ε σ α} {f : α → EStateM ε σ β} {Q : α → σ → Prop}
    {Q' : β → σ → Prop} {E : ε → σ → Prop} {s : σ} (hx : wp x Q E s)
    (hf : ∀ a s', Q a s' → wp (f a) Q' E s') : wp (x >>= f) Q' E s := by
  rw [wp_bind]
  exact wp_mono hx hf (fun _ _ h => h)

theorem wp_and {x : EStateM ε σ α} {Q Q' : α → σ → Prop} {E E' : ε → σ → Prop} {s : σ}
    (h : wp x Q E s) (h' : wp x Q' E' s) :
    wp x (fun a s' => Q a s' ∧ Q' a s') (fun e s' => E e s' ∧ E' e s') s := by
  unfold wp at h h' ⊢
  split at h
  · next heq => rw [heq] at h'; exact ⟨h, h'⟩
  · next heq => rw [heq] at h'; exact ⟨h, h'⟩

theorem wp_forall {ι : Sort v} {x : EStateM ε σ α} {Q : ι → α → σ → Prop} {E : ι → ε → σ → Prop}
    {s : σ} (h : ∀ i, wp x (Q i) (E i) s) :
    wp x (fun a s' => ∀ i, Q i a s') (fun e s' => ∀ i, E i e s') s := by
  unfold wp at h ⊢
  split
  · next heq =>
    intro i
    simpa only [heq] using h i
  · next heq =>
    intro i
    simpa only [heq] using h i

/-- What returns is followed by the rest. -/
theorem bind_of_ok {x : EStateM ε σ α} {f : α → EStateM ε σ β} {s s' : σ} {a : α}
    (h : x s = .ok a s') : (x >>= f) s = f a s' := by
  simp only [bind, EStateM.bind, h]

/-- A program that reads the state first. -/
theorem get_bind (f : σ → EStateM ε σ β) (s : σ) : (get >>= f) s = f s s := rfl

/-- What raises is followed by nothing. -/
theorem bind_of_error {x : EStateM ε σ α} {f : α → EStateM ε σ β} {s s' : σ} {e : ε}
    (h : x s = .error e s') : (x >>= f) s = .error e s' := by
  simp only [bind, EStateM.bind, h]

/-- What returns needs no handler. -/
theorem tryCatch_of_ok {x : EStateM ε σ α} {f : ε → EStateM ε σ α} {s s' : σ} {a : α}
    (h : x s = .ok a s') : tryCatch x f s = .ok a s' := by
  show EStateM.tryCatch x f s = _
  delta EStateM.tryCatch
  simp only [h]

/-- What raises is handed to the handler. -/
theorem tryCatch_of_error {x : EStateM ε σ α} {f : ε → EStateM ε σ α} {s s' : σ} {e : ε}
    (h : x s = .error e s') : tryCatch x f s = f e s' := by
  show EStateM.tryCatch x f s = _
  delta EStateM.tryCatch
  simp only [h]
  rfl

/-- The command keeps `D`; where it raises, it leaves `E`. -/
def KeepsOr (E D : σ → Prop) (x : EStateM ε σ α) : Prop :=
  ∀ s, D s → wp x (fun _ => D) (fun _ => E) s

/-- The command keeps the property, whether it raises or not. -/
abbrev Keeps (D : σ → Prop) (x : EStateM ε σ α) : Prop := KeepsOr D D x

theorem KeepsOr.bind {D E : σ → Prop} {x : EStateM ε σ α} {f : α → EStateM ε σ β}
    (hx : KeepsOr E D x) (hf : ∀ a, KeepsOr E D (f a)) : KeepsOr E D (x >>= f) := by
  intro s hs
  exact wp_seq (hx s hs) fun a s' h => hf a s' h

theorem KeepsOr.forM {D E : σ → Prop} {f : α → EStateM ε σ PUnit} (hf : ∀ a, KeepsOr E D (f a))
    (l : List α) : KeepsOr E D (l.forM f) := by
  induction l with
  | nil => exact fun _ hs => hs
  | cons a l ih => exact (hf a).bind fun _ => ih

/-- What is known of a command where some kept property does not hold. -/
theorem wp_or {D : σ → Prop} {p : Prop} {x : EStateM ε σ α} {Q : α → σ → Prop}
    {E : ε → σ → Prop} {s : σ} (hD : Keeps D x) (hp : p → wp x Q E s) (h : D s ∨ p) :
    wp x (fun a s' => D s' ∨ Q a s') (fun e s' => D s' ∨ E e s') s := by
  rcases h with h | h
  · exact wp_mono (hD s h) (fun _ _ h => .inl h) (fun _ _ h => .inl h)
  · exact wp_mono (hp h) (fun _ _ h => .inr h) (fun _ _ h => .inr h)

/-- Sequencing, where the first command may bring about a property that the second
one keeps, in place of what it should. -/
theorem wp_bind_or {D : σ → Prop} {x : EStateM ε σ α} {f : α → EStateM ε σ β}
    {Q : α → σ → Prop} {Q' : β → σ → Prop} {s : σ}
    (hx : wp x (fun a s' => D s' ∨ Q a s') (fun _ _ => True) s) (hD : ∀ a, Keeps D (f a))
    (hf : ∀ a s', Q a s' → wp (f a) (fun b s'' => D s'' ∨ Q' b s'') (fun _ _ => True) s') :
    wp (x >>= f) (fun b s'' => D s'' ∨ Q' b s'') (fun _ _ => True) s := by
  apply wp_seq hx
  rintro a s' (h | h)
  · exact wp_mono (hD a s' h) (fun _ _ h => .inl h) (fun _ _ _ => trivial)
  · exact hf a s' h

/-- **Loops**: what one turn makes of the elements before it and of the one at
hand, the loop makes of all of them. -/
theorem wp_forM {f : α → EStateM ε σ PUnit} {E : ε → σ → Prop} {I : List α → σ → Prop}
    {l : List α} {s : σ} (hs : I l s)
    (hstep : ∀ a rest s, I (a :: rest) s → wp (f a) (fun _ => I rest) E s) :
    wp (l.forM f) (fun _ => I []) E s := by
  induction l generalizing s with
  | nil => exact hs
  | cons a l ih =>
      rw [List.forM]
      exact wp_seq (hstep a l s hs) fun _ _ h => ih h

/-- A loop whose turns raise for some elements and not for others raises if there is
one of the former. -/
theorem wp_forM_iff {f : α → EStateM ε σ PUnit} {P : α → Prop}
    (hf : ∀ a s, wp (f a) (fun _ _ => P a) (fun _ _ => ¬ P a) s) (l : List α) (s : σ) :
    wp (l.forM f) (fun _ _ => ∀ a ∈ l, P a) (fun _ _ => ¬ ∀ a ∈ l, P a) s := by
  induction l generalizing s with
  | nil => exact fun a ha => absurd ha List.not_mem_nil
  | cons a l ih =>
      rw [List.forM, wp_bind]
      refine wp_mono (hf a s) (fun _ s' ha => ?_) (fun _ _ ha h => ha (h a List.mem_cons_self))
      refine wp_mono (ih s') (fun _ _ hl => ?_) (fun _ _ hl h => ?_)
      · exact List.forall_mem_cons.mpr ⟨ha, hl⟩
      · exact hl fun a' ha' => h a' (List.mem_cons_of_mem a ha')

/-! ## Frames -/

section Frames

variable {R : σ → σ → Prop}

/-- The command relates the states before and after it, whether it raises or not. -/
def Relates (R : σ → σ → Prop) (x : EStateM ε σ α) : Prop :=
  ∀ s, wp x (fun _ => R s) (fun _ => R s) s

theorem relates_pure (hrefl : ∀ s, R s s) (a : α) : Relates R (pure a : EStateM ε σ α) :=
  fun s => hrefl s

theorem relates_throw (hrefl : ∀ s, R s s) (e : ε) : Relates R (throw e : EStateM ε σ α) :=
  fun s => hrefl s

theorem Relates.bind (htrans : ∀ s t u, R s t → R t u → R s u) {x : EStateM ε σ α}
    {f : α → EStateM ε σ β} (hx : Relates R x) (hf : ∀ a, Relates R (f a)) :
    Relates R (x >>= f) := by
  intro s
  refine wp_seq (hx s) fun a t ht => ?_
  exact wp_mono (hf a t) (fun _ u hu => htrans s t u ht hu) (fun _ u hu => htrans s t u ht hu)

theorem Relates.forM (hrefl : ∀ s, R s s) (htrans : ∀ s t u, R s t → R t u → R s u)
    {f : α → EStateM ε σ PUnit} (hf : ∀ a, Relates R (f a)) (l : List α) :
    Relates R (l.forM f) := by
  induction l with
  | nil => exact fun s => hrefl s
  | cons a l ih => exact (hf a).bind htrans fun _ => ih

/-- What a program that has returned has done. -/
theorem Relates.of_ok {x : EStateM ε σ α} (hx : Relates R x) {s s' : σ} {a : α}
    (h : x s = .ok a s') : R s s' := by
  have hwp := hx s
  rw [wp, h] at hwp
  exact hwp

theorem relates_get {f : σ → EStateM ε σ β} (hf : ∀ s, Relates R (f s)) : Relates R (get >>= f) :=
  fun s => hf s s

end Frames

/-! ## Outcomes -/

/-- How the command ends, from `s`. -/
def Outcome (x : EStateM ε σ α) (s : σ) : Except ε α → σ → Prop
  | .ok a, s' => x s = .ok a s'
  | .error e, s' => x s = .error e s'

/-- What is known of a command holds of its outcome. -/
theorem Outcome.of_wp {x : EStateM ε σ α} {s s' : σ} {r : Except ε α}
    {R : Except ε α → σ → Prop} (h : Outcome x s r s')
    (hx : wp x (fun a s => R (.ok a) s) (fun e s => R (.error e) s) s) : R r s' := by
  rw [wp] at hx
  cases r with
  | ok a =>
      rw [Outcome] at h
      rw [h] at hx
      exact hx
  | error e =>
      rw [Outcome] at h
      rw [h] at hx
      exact hx

/-- What an end of a command has to meet, of the postconditions for both. -/
def Post (Q : α → σ → Prop) (E : ε → σ → Prop) : Except ε α → σ → Prop
  | .ok a, s => Q a s
  | .error e, s => E e s

/-- The postcondition holds where a program has ended. -/
theorem Outcome.post {x : EStateM ε σ α} {s s' : σ} {r : Except ε α} {Q : α → σ → Prop}
    {E : ε → σ → Prop} (h : Outcome x s r s') (hx : wp x Q E s) : Post Q E r s' :=
  h.of_wp (R := Post Q E) hx

/-! ## Refinement -/

section Refinement

variable {τ : Type u} (π : τ → σ) (I : τ → Prop) (K : τ → τ → Prop)

/-- From `t`, which meets the invariant, the command does on `π` what the other one
does, and keeps the invariant; `K` relates the states before and after it. -/
def RefinesAt (x : EStateM ε τ α) (y : EStateM ε σ α) (t : τ) : Prop :=
  wp x (fun a t' => y (π t) = .ok a (π t') ∧ K t t' ∧ I t')
    (fun e t' => y (π t) = .error e (π t') ∧ K t t' ∧ I t') t

variable {π I K}

/-- Two commands that go on where their first parts have ended. -/
theorem RefinesAt.bind (htrans : ∀ t u v, K t u → K u v → K t v) {x : EStateM ε τ α}
    {y : EStateM ε σ α} {f : α → EStateM ε τ β} {g : α → EStateM ε σ β} {t : τ}
    (hx : RefinesAt π I K x y t)
    (hf : ∀ a t', y (π t) = .ok a (π t') → I t' → RefinesAt π I K (f a) (g a) t') :
    RefinesAt π I K (x >>= f) (y >>= g) t := by
  unfold RefinesAt
  rw [wp_bind]
  refine wp_mono hx (fun a t' h => ?_) (fun e t' h => ?_)
  · obtain ⟨hy, hk, hi⟩ := h
    rw [bind_of_ok hy]
    exact wp_mono (hf a t' hy hi) (fun b t'' h => ⟨h.1, htrans _ _ _ hk h.2.1, h.2.2⟩)
      (fun e t'' h => ⟨h.1, htrans _ _ _ hk h.2.1, h.2.2⟩)
  · obtain ⟨hy, hk, hi⟩ := h
    exact ⟨bind_of_error hy, hk, hi⟩

theorem RefinesAt.forM (hrefl : ∀ t, K t t) (htrans : ∀ t u v, K t u → K u v → K t v)
    {f : α → EStateM ε τ PUnit} {g : α → EStateM ε σ PUnit}
    (hf : ∀ a t, I t → RefinesAt π I K (f a) (g a) t) (l : List α) (t : τ) (ht : I t) :
    RefinesAt π I K (l.forM f) (l.forM g) t := by
  induction l generalizing t with
  | nil => exact ⟨rfl, hrefl t, ht⟩
  | cons a l ih => exact (hf a t ht).bind htrans fun _ t' _ ht' => ih t' ht'

/-- The result of a refinement, where the other command ends. -/
theorem RefinesAt.of_ok {x : EStateM ε τ α} {y : EStateM ε σ α} {t : τ} {a : α} {s : σ}
    (h : RefinesAt π I K x y t) (hy : y (π t) = .ok a s) :
    ∃ t', x t = .ok a t' ∧ π t' = s ∧ K t t' ∧ I t' := by
  rw [RefinesAt, wp] at h
  split at h
  · next b t' heq =>
    rw [hy, EStateM.Result.ok.injEq] at h
    obtain ⟨⟨rfl, rfl⟩, hk, hi⟩ := h
    exact ⟨t', heq, rfl, hk, hi⟩
  · rw [hy] at h
    exact absurd h.1 (by simp)

/-- Two first parts that are known to end, whatever they return. -/
theorem RefinesAt.bind_of_ok (htrans : ∀ t u v, K t u → K u v → K t v) {α' : Type u}
    {x : EStateM ε τ α} {y : EStateM ε σ α'} {f : α → EStateM ε τ β} {g : α' → EStateM ε σ β}
    {t t' : τ} {a : α} {a' : α'} (hx : x t = .ok a t') (hy : y (π t) = .ok a' (π t'))
    (hk : K t t') (hf : RefinesAt π I K (f a) (g a') t') :
    RefinesAt π I K (x >>= f) (y >>= g) t := by
  have hseq : wp x (fun b u => b = a ∧ u = t') (fun _ _ => False) t := by
    rw [wp, hx]
    exact ⟨rfl, rfl⟩
  unfold RefinesAt
  rw [wp_bind, Hoare.bind_of_ok hy]
  refine wp_mono_ok hseq fun b u h => ?_
  obtain ⟨rfl, rfl⟩ := h
  exact wp_mono hf (fun c v h => ⟨h.1, htrans _ _ _ hk h.2.1, h.2.2⟩)
    (fun e v h => ⟨h.1, htrans _ _ _ hk h.2.1, h.2.2⟩)

/-- A first part that the other command does not have. -/
theorem RefinesAt.skip (htrans : ∀ t u v, K t u → K u v → K t v) {α' : Type u}
    {x : EStateM ε τ α'} {f : α' → EStateM ε τ α} {y : EStateM ε σ α} {t t' : τ} {a : α'}
    (hx : x t = .ok a t') (hπ : π t' = π t) (hk : K t t') (hf : RefinesAt π I K (f a) y t') :
    RefinesAt π I K (x >>= f) y t := by
  have hy : (pure ⟨⟩ : EStateM ε σ PUnit) (π t) = .ok ⟨⟩ (π t') := by
    rw [hπ]
    rfl
  have h := RefinesAt.bind_of_ok (g := fun _ => y) htrans hx hy hk hf
  exact h

/-- The larger state is looked at. -/
theorem RefinesAt.get {f : τ → EStateM ε τ α} {y : EStateM ε σ α} {t : τ}
    (hf : RefinesAt π I K (f t) y t) : RefinesAt π I K (get >>= f) y t := hf

/-- Both sides raise the same, and handle it in the same way. -/
theorem RefinesAt.tryCatch (htrans : ∀ t u v, K t u → K u v → K t v) {x : EStateM ε τ α}
    {y : EStateM ε σ α} {f : ε → EStateM ε τ α} {g : ε → EStateM ε σ α} {t : τ}
    (hx : RefinesAt π I K x y t) (hf : ∀ e t', I t' → RefinesAt π I K (f e) (g e) t') :
    RefinesAt π I K (tryCatch x f) (tryCatch y g) t := by
  unfold RefinesAt
  rw [wp_tryCatch]
  refine wp_mono hx (fun a t' h => ?_) (fun e t' h => ?_)
  · obtain ⟨hy, hk, hi⟩ := h
    exact ⟨tryCatch_of_ok hy, hk, hi⟩
  · obtain ⟨hy, hk, hi⟩ := h
    rw [tryCatch_of_error hy]
    exact wp_mono (hf e t' hi) (fun b u h => ⟨h.1, htrans _ _ _ hk h.2.1, h.2.2⟩)
      (fun e u h => ⟨h.1, htrans _ _ _ hk h.2.1, h.2.2⟩)

/-- The result of a refinement, however the other command ends. -/
theorem RefinesAt.outcome {x : EStateM ε τ α} {y : EStateM ε σ α} {t : τ} {r : Except ε α} {s : σ}
    (h : RefinesAt π I K x y t) (hy : Outcome y (π t) r s) :
    ∃ t', Outcome x t r t' ∧ π t' = s ∧ K t t' ∧ I t' := by
  cases r with
  | ok a => exact h.of_ok hy
  | error e =>
      rw [Outcome] at hy
      rw [RefinesAt, wp, hy] at h
      split at h
      · exact absurd h.1 (by simp)
      · next e' t' heq =>
        rw [EStateM.Result.error.injEq] at h
        obtain ⟨⟨rfl, rfl⟩, hk, hi⟩ := h
        exact ⟨t', heq, rfl, hk, hi⟩

end Refinement

/-! ## Simulation -/

section Simulation

variable {τ : Type u} (R : τ → σ → Prop) (G : σ → Prop)

/-- Where the second command ends well, the first one does so too, with the same result
and in a state that is related again.  `G` is what has to be true of the state that the
second one ends in; a command cannot bring it about. -/
structure Simulates (x : EStateM ε τ α) (y : EStateM ε σ α) : Prop where
  back : ∀ ⦃s a s'⦄, y s = .ok a s' → G s' → G s
  forth : ∀ ⦃t s a s'⦄, R t s → y s = .ok a s' → G s' → ∃ t', x t = .ok a t' ∧ R t' s'

variable {R G}

/-- A sequence that has ended well, at its semicolon. -/
theorem exists_of_bind {x : EStateM ε σ α} {f : α → EStateM ε σ β} {s s' : σ} {b : β}
    (h : (x >>= f) s = .ok b s') : ∃ a u, x s = .ok a u ∧ f a u = .ok b s' := by
  cases hx : x s with
  | ok a u =>
      rw [bind_of_ok hx] at h
      exact ⟨a, u, rfl, h⟩
  | error e u =>
      rw [bind_of_error hx] at h
      contradiction

theorem Simulates.pure (a : α) :
    Simulates R G (Pure.pure a : EStateM ε τ α) (Pure.pure a : EStateM ε σ α) where
  back s b s' h hg := by
    cases h
    exact hg
  forth t s b s' hr h _ := by
    cases h
    exact ⟨t, rfl, hr⟩

/-- Nothing is said of what raises. -/
theorem Simulates.throw (x : EStateM ε τ α) (e : ε) :
    Simulates R G x (MonadExcept.throw e : EStateM ε σ α) where
  back _ _ _ h := by contradiction
  forth _ _ _ _ _ h := by contradiction

theorem Simulates.bind {x : EStateM ε τ α} {y : EStateM ε σ α} {f : α → EStateM ε τ β}
    {g : α → EStateM ε σ β} (hx : Simulates R G x y) (hf : ∀ a, Simulates R G (f a) (g a)) :
    Simulates R G (x >>= f) (y >>= g) where
  back s b s' h hg := by
    obtain ⟨a, u, hy, hg'⟩ := exists_of_bind h
    exact hx.back hy ((hf a).back hg' hg)
  forth t s b s' hr h hg := by
    obtain ⟨a, u, hy, hg'⟩ := exists_of_bind h
    obtain ⟨t', hx', hr'⟩ := hx.forth hr hy ((hf a).back hg' hg)
    obtain ⟨t'', hf', hr''⟩ := (hf a).forth hr' hg' hg
    exact ⟨t'', (bind_of_ok hx').trans hf', hr''⟩

theorem Simulates.ofExcept (r : Except ε α) :
    Simulates R G (MonadExcept.ofExcept r : EStateM ε τ α)
      (MonadExcept.ofExcept r : EStateM ε σ α) := by
  cases r with
  | ok a => exact .pure a
  | error e => exact .throw _ e

end Simulation

end Hoare
