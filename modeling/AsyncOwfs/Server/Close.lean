import AsyncOwfs.Server.Requests

/-!
# AsyncOwfs.Server.Close

What `aclose` does for the callers that still wait.  It cancels the run task and
then walks `requests`, so it reaches exactly the messages that are there at that
moment: not those in `_wqueue`, in `ml`, in the re-send loop or in the writer's hand.
-/

namespace AsyncOwfs

namespace Server

open Transition

/-- The messages of the `chat` calls that have not returned: those of the
callers, and the `NOPMsg` of `_run_one`. -/
def outstanding (s : Server) : List Nat :=
  match s.run with
  | .greeted id => id :: s.callers
  | _ => s.callers

/-- The actions of a caller that gives up by itself, and of another `aclose`. -/
def Settles : Action → Prop
  | .giveUp _ | .acloseBegins => True
  | _ => False

instance (a : Action) : Decidable (Settles a) := by
  unfold Settles
  split <;> infer_instance

/-! ## Events that are set stay set -/

/-- In the beginning nobody waits. -/
theorem outstanding_init : ∀ x ∈ init.outstanding, x < init.nextId := by
  simp [init, outstanding]

/-- Who waits has a message. -/
theorem outstanding_step (s : Server) (a : Action) (s' : Server)
    (hs : ∀ x ∈ s.outstanding, x < s.nextId) (h : s.step a = some s') :
    ∀ x ∈ s'.outstanding, x < s'.nextId := by
  cases a <;> simp only [step, foldl_cancelMsg] at h
  case interrupt => grind [interrupted, cancelMsg, modify, outstanding]
  case reply => grind [Server.handleReply, raise, modify, outstanding]
  case leave => grind [nextPc, outstanding]
  all_goals grind [raise, cancelMsg, modify, outstanding, List.mem_of_mem_erase]

/-- What is done stays done. -/
theorem done_of_change {s s' : Server} {a : Action} (hc : Change s a s') {x : Nat}
    (hx : x < s.nextId) (hdone : (s.msg x).done = true) :
    (s'.msg x).done = true ∧ x < s'.nextId := by
  cases hc with
  | added m _ _ _ hmsg hid =>
      rw [hmsg, Function.update_of_ne (by omega)]
      exact ⟨hdone, by omega⟩
  | moved gone _ hmsg _ hid =>
      refine ⟨?_, by omega⟩
      rcases hmsg x with h | h | ⟨-, res, data, h⟩
      · rw [h, hdone]
      · rw [h, Message.done_cancel]
      · exact Message.done_of_processReply h

theorem done_run {s s' : Server} {as : List Action} (ht : s.Tidy) {x : Nat} (hx : x < s.nextId)
    (hdone : (s.msg x).done = true) (h : Transition.run step s as = some s') :
    (s'.msg x).done = true := by
  have hstep : ∀ s a s', s.Tidy ∧ x < s.nextId ∧ (s.msg x).done = true → step s a = some s' →
      s'.Tidy ∧ x < s'.nextId ∧ (s'.msg x).done = true := by
    intro s a s' ⟨ht, hx, hdone⟩ hs
    obtain ⟨hdone', hx'⟩ := done_of_change (step_change ht hs) hx hdone
    exact ⟨tidy_step ht hs, hx', hdone'⟩
  exact (invariant_run hstep ⟨ht, hx, hdone⟩ h).2.2

/-! ## After the end of the run task -/

/-- Once the run task has ended, and no `aclose` is under way, only a caller or
another `aclose` sets an event. -/
theorem done_quiet {s s' : Server} {a : Action} (ht : s.Tidy) (hr : s.run = .ended)
    (hc : s.closer ≠ .closing) (hq : ¬ Settles a) (h : s.step a = some s') :
    s'.run = .ended ∧ s'.closer ≠ .closing ∧ s.nextId ≤ s'.nextId ∧
      ∀ x < s.nextId, (s'.msg x).done = (s.msg x).done := by
  obtain ⟨hw, hrd⟩ := ht.children (.inr (.inr hr))
  cases a <;> simp only [step, hr, hw, hrd, reduceCtorEq, false_and, and_false, false_or,
    if_false] at h
  case submit m =>
    obtain ⟨-, rfl⟩ := of_ite_some h
    refine ⟨rfl, hc, Nat.le_succ _, fun x hx => ?_⟩
    simp only [Function.update_of_ne (Nat.ne_of_lt hx)]
  case resume id =>
    split at h
    · cases he : (s.msg id).event with
      | none => simp only [he, reduceCtorEq] at h
      | some r =>
          cases r with
          | ok v =>
              simp only [he, Option.some.injEq] at h
              subst h
              exact ⟨rfl, hc, Nat.le_refl _, fun x _ => rfl⟩
          | error e =>
              simp only [he, Option.some.injEq] at h
              subst h
              refine ⟨hr, hc, Nat.le_refl _, fun x _ => ?_⟩
              by_cases hx : x = id
              · subst hx
                simp [cancelMsg, modify, Message.done, Message.cancel, he]
              · simp [cancelMsg, modify, hx]
    · contradiction
  case giveUp | acloseBegins => exact absurd trivial hq
  case interrupt => simp [interrupted, hr] at h
  case acloseEnds => exact absurd (of_ite_some h).1 hc
  all_goals simp at h

/-- Where nothing settles messages any more, none is. -/
theorem done_quiet_run {s s' : Server} {as : List Action} (ht : s.Tidy) (hr : s.run = .ended)
    (hc : s.closer ≠ .closing) (hq : ∀ a ∈ as, ¬ Settles a)
    (h : Transition.run step s as = some s') :
    ∀ x < s.nextId, (s'.msg x).done = (s.msg x).done := by
  induction as generalizing s with
  | nil =>
      rw [run_nil, Option.some.injEq] at h
      subst h
      exact fun x _ => rfl
  | cons a as ih =>
      obtain ⟨t, hst, h'⟩ := run_cons h
      obtain ⟨hr', hc', hle, hsame⟩ := done_quiet ht hr hc (hq a List.mem_cons_self) hst
      intro x hx
      rw [ih (tidy_step ht hst) hr' hc' (fun b hb => hq b (List.mem_cons_of_mem a hb)) h' x
        (by omega), hsame x hx]

/-! ## `aclose` -/

/-- `aclose` finds the message settled, or in `requests`. -/
def Reached (s : Server) (x : Nat) : Prop := (s.msg x).done = true ∨ x ∈ s.requests

instance (s : Server) (x : Nat) : Decidable (Reached s x) := inferInstanceAs (Decidable (_ ∨ _))

/-- What the walk over `requests` sets. -/
theorem done_acloseEnds {s s' : Server} (h : s.step .acloseEnds = some s') :
    s'.closer = .returned ∧ s'.run = s.run ∧ s'.nextId = s.nextId ∧
      ∀ x, (s'.msg x).done = true ↔ Reached s x := by
  rw [step, foldl_cancelMsg] at h
  obtain ⟨-, rfl⟩ := of_ite_some h
  refine ⟨rfl, rfl, rfl, fun x => ?_⟩
  by_cases hx : x ∈ s.requests <;> simp [Reached, hx]

/-- **No caller stays blocked on a closed server** if the walk over `requests`
reaches every message that was outstanding when `aclose` was called; and if it
does not, with the run task ended before, some caller does stay blocked until it
gives up by itself. -/
theorem done_of_aclose_iff (as₁ as₂ as₃ : List Action) {s₁ s₂ s₃ : Server}
    (h₁ : Transition.run step init as₁ = some s₁)
    (h₂ : Transition.run step s₁ (.acloseBegins :: as₂) = some s₂)
    (h₃ : Transition.run step s₂ (.acloseEnds :: as₃) = some s₃) :
    ((∀ x ∈ s₁.outstanding, Reached s₂ x) →
      ∀ x ∈ s₁.outstanding, (s₃.msg x).done = true) ∧
    (s₂.run = .ended → (∀ a ∈ as₃, ¬ Settles a) →
      ((∀ x ∈ s₁.outstanding, (s₃.msg x).done = true) ↔
        ∀ x ∈ s₁.outstanding, Reached s₂ x)) := by
  have hI₁ := invariant_run (I := fun s => s.Tidy ∧ ∀ x ∈ s.outstanding, x < s.nextId)
    (fun s a s' hI hs => ⟨tidy_step hI.1 hs, outstanding_step s a s' hI.2 hs⟩)
    ⟨tidy_init, outstanding_init⟩ h₁
  have hI₂ := invariant_run
    (I := fun s => s.Tidy ∧ ∀ x ∈ s₁.outstanding, x < s.nextId)
    (fun s a s' hI hs => ⟨tidy_step hI.1 hs, fun x hx => by
      have hlt := hI.2 x hx
      cases step_change hI.1 hs <;> omega⟩)
    hI₁ h₂
  obtain ⟨t, ht, hrun⟩ := run_cons h₃
  obtain ⟨hcloser, hr, hid, hwalk⟩ := done_acloseEnds ht
  have htidy := tidy_step hI₂.1 ht
  constructor
  · intro hreached x hx
    exact done_run htidy (hid ▸ hI₂.2 x hx) ((hwalk x).mpr (hreached x hx)) hrun
  · intro hended hquiet
    have hsame := done_quiet_run htidy (hr ▸ hended) (by simp [hcloser]) hquiet hrun
    refine forall₂_congr fun x hx => ?_
    rw [hsame x (hid ▸ hI₂.2 x hx), hwalk]

/-- A caller whose message was transmitted is released. -/
theorem done_transmitted :
    ∃ s₁ s₂ s₃,
      Transition.run step init (comesUp ++ [.submit nopMsg, .dequeue, .append]) = some s₁ ∧
      Transition.run step s₁ [.acloseBegins, .interrupt, .writerStops, .readerStops, .leave] =
        some s₂ ∧
      Transition.run step s₂ [.acloseEnds] = some s₃ ∧
      s₁.outstanding = [1] ∧ s₃.run = .ended ∧ s₃.closer = .returned ∧
      ∀ x ∈ s₁.outstanding, (s₃.msg x).done = true :=
  ⟨_, _, _, rfl, rfl, rfl, by decide, by decide, by decide,
    (done_of_aclose_iff (comesUp ++ [.submit nopMsg, .dequeue, .append])
      [.interrupt, .writerStops, .readerStops, .leave] [] rfl rfl rfl).1 (by decide)⟩

/-- `_run_reconnected` sleeps between two connections when a caller submits its
message and the server is closed. -/
theorem not_done_backoff :
    (Transition.run step init (comesUp ++ [.readerFails .timeoutError, .writerStops, .leave,
        .submit nopMsg])).map outstanding = some [1] ∧
      (Transition.run step init (comesUp ++ [.readerFails .timeoutError, .writerStops, .leave,
        .submit nopMsg, .acloseBegins, .interrupt, .acloseEnds])).map
          (fun s => (s.closer, s.run, s.wqueue, (s.msg 1).done)) =
        some (.returned, .ended, [1], false) := by
  exact ⟨by decide, by decide⟩

end Server

end AsyncOwfs
