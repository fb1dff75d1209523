import AsyncOwfs.Server

/-!
# AsyncOwfs.Server.Requests

Where the messages are.  Every action is one of two kinds of change
(`step_change`): it makes a message and puts it somewhere, or it moves messages
about, drops some, and settles some by an answer or a cancellation.  What the
places hold is counted, so that "exactly once" is a sum that equals one.

A message can get lost in two ways, both of which are actions of `_run_one` and
`_reader`: the handler that puts `ml` back overwrites what the writer has already
appended to `requests`, and a reply that fails one of `process_reply`'s
assertions has popped its message before.
-/

namespace AsyncOwfs

namespace Server

open Transition

/-! ## Counting -/

/-- How often a message is in `_wqueue`, `requests`, `ml` and the writer's hand.  One whose
`send` has not ended is still in `ml`: that is where it goes if the `send` raises. -/
def held (s : Server) (x : Nat) : Nat :=
  s.wqueue.count x + s.requests.count x + (s.taken.count x + s.ml.count x) + s.hand.count x

/-- Every submitted message that is neither answered nor given up is in exactly
one place, exactly once. -/
def Conserved (s : Server) : Prop :=
  ∀ x < s.nextId, (s.msg x).Pending → s.held x = 1

/-- No message is anywhere twice, and there are no messages to come anywhere. -/
def Distinct (s : Server) : Prop :=
  ∀ x, s.held x ≤ 1 ∧ (s.nextId ≤ x → s.held x = 0)

/-- The action drops no message that somebody still waits for: the handler of
`_run_one` finds no such message in the deque that it overwrites, and no reply
to such a message trips over an assertion of `process_reply`. -/
def DropsNone (s : Server) : Action → Prop
  | .interrupt =>
    s.run = .waitReader ∨ s.run = .waitWriter → ∀ x ∈ s.requests, ¬ (s.msg x).Pending
  | .reply res data =>
    ∀ x rest, s.requests = x :: rest → (∃ e, (s.msg x).processReply res data = .error e) →
      ¬ (s.msg x).Pending
  | _ => True

/-! ## What an action can do -/

/-- The two kinds of change. -/
inductive Change (s : Server) (a : Action) (s' : Server) : Prop
  | added (m : Message) (hm : m.Pending) (hdrops : DropsNone s a)
      (hheld : ∀ x, s'.held x = s.held x + if x = s.nextId then 1 else 0)
      (hmsg : s'.msg = Function.update s.msg s.nextId m) (hid : s'.nextId = s.nextId + 1)
  | moved (gone : List Nat) (hheld : ∀ x, s'.held x + gone.count x = s.held x)
      (hmsg : ∀ x, s'.msg x = s.msg x ∨ s'.msg x = (s.msg x).cancel ∨
        x ∈ gone ∧ ∃ res data, (s.msg x).processReply res data = .ok (s'.msg x))
      (hdrops : DropsNone s a ↔ ∀ x ∈ gone, ¬ (s'.msg x).Pending)
      (hid : s'.nextId = s.nextId)

/-- A change that neither drops nor settles a message. -/
theorem Change.of_held {s s' : Server} {a : Action} (hd : DropsNone s a)
    (hheld : ∀ x, s'.held x = s.held x) (hmsg : s'.msg = s.msg) (hid : s'.nextId = s.nextId) :
    Change s a s' :=
  .moved [] (by simpa using hheld) (fun x => .inl (by rw [hmsg])) (by simp [hd]) hid

/-- A change that gives up a message. -/
theorem Change.of_cancel {s s' : Server} {a : Action} (id : Nat) (hd : DropsNone s a)
    (hheld : ∀ x, s'.held x = s.held x) (hid : s'.nextId = s.nextId)
    (hmsg : s'.msg = Function.update s.msg id (s.msg id).cancel) :
    Change s a s' := by
  refine .moved [] (by simpa using hheld) (fun x => ?_) (by simp [hd]) hid
  rw [hmsg]
  by_cases hx : x = id
  · right; left
    subst hx
    simp
  · left
    rw [Function.update_of_ne hx]

/-- Hypotheses about a `some` that a step produced. -/
theorem of_ite_some {c : Prop} [Decidable c] {t s' : Server}
    (h : (if c then some t else none) = some s') : c ∧ s' = t := by
  split at h
  · next hc => injection h with h; exact ⟨hc, h.symm⟩
  · contradiction

/-- **What an action can do to the messages.** -/
theorem step_change {s s' : Server} {a : Action} (ht : s.Tidy) (h : s.step a = some s') :
    Change s a s' := by
  cases a <;> simp only [step, foldl_cancelMsg] at h
  case submit m =>
    obtain ⟨hg, rfl⟩ := of_ite_some h
    refine .added m hg.2 trivial (fun x => ?_) rfl rfl
    simp only [held, hand, taken, List.count_append, List.count_singleton]
    grind
  case greet =>
    obtain ⟨hg, rfl⟩ := of_ite_some h
    refine .added nopMsg ⟨rfl, rfl⟩ trivial (fun x => ?_) rfl rfl
    simp only [held, hand, taken, List.count_append, List.count_singleton]
    grind
  case timeout =>
    obtain ⟨hg, rfl⟩ := of_ite_some h
    refine .added nopMsg ⟨rfl, rfl⟩ trivial (fun x => ?_) rfl rfl
    simp only [held, hand, taken, hg, List.count_singleton, List.count_nil]
    grind
  case giveUp id =>
    obtain ⟨-, rfl⟩ := of_ite_some h
    exact .of_cancel id trivial (fun x => rfl) rfl rfl
  case resume id =>
    split at h
    · split at h
      · contradiction
      · injection h with h; subst h
        exact .of_held trivial (fun x => rfl) rfl rfl
      · injection h with h; subst h
        exact .of_cancel id trivial (fun x => rfl) rfl rfl
    · contradiction
  case greetingDone =>
    split at h
    · next id hr =>
        split at h
        · contradiction
        · injection h with h; subst h
          exact .of_held trivial (fun x => by simp [held, hand, taken, hr]) rfl rfl
        · injection h with h; subst h
          exact .of_cancel id trivial
            (fun x => by simp [held, hand, taken, hr, raise, cancelMsg, modify]) rfl rfl
    · contradiction
  case acloseEnds =>
    obtain ⟨-, rfl⟩ := of_ite_some h
    refine .moved [] (by simp [held, hand, taken]) (fun x => ?_) (by simp [DropsNone]) rfl
    by_cases hx : x ∈ s.requests <;> simp [hx]
  case connected =>
    obtain ⟨hg, rfl⟩ := of_ite_some h
    have hml := ht.ml (by simp [hg]) (by simp [hg]) (by simp [hg]) (by simp [hg])
    have hw := (ht.children (.inl hg)).1
    refine .of_held trivial (fun x => ?_) rfl rfl
    simp [held, hand, taken, hg, hml, hw]
  case interrupt =>
    split at h
    · unfold interrupted at h
      split at h <;> simp only [Option.some.injEq, reduceCtorEq] at h <;> subst h
      -- the handler: what the new connection was handed is overwritten
      case h_4 hr | h_5 hr =>
        refine .moved s.requests (fun x => ?_) (fun x => .inl rfl) (by simp [DropsNone, hr]) rfl
        simp only [held, hand, taken, hr, List.count_nil]
        omega
      case h_6 id hr =>
        exact .of_cancel id (by simp [DropsNone, hr])
          (fun x => by simp [held, hand, taken, hr, cancelMsg, modify]) rfl rfl
      all_goals
        next hr =>
          exact .of_held (by simp [DropsNone, hr]) (fun x => by simp [held, hand, taken, hr]) rfl rfl
    · contradiction
  case reply res data =>
    obtain ⟨-, rfl⟩ := of_ite_some h
    cases hreq : s.requests with
    | nil =>
        exact .of_held (by simp [DropsNone, hreq]) (fun x => by simp [handleReply, hreq, held, hand, taken, raise])
          (by simp [handleReply, hreq, raise]) (by simp [handleReply, hreq, raise])
    | cons id rest =>
        cases hm : (s.msg id).processReply res data with
        | error e =>
            refine .moved [id] (fun x => ?_) (fun x => .inl ?_) ?_ ?_
            · simp [handleReply, hreq, hm, held, hand, taken, raise, List.count_cons]
              omega
            · simp [handleReply, hreq, hm, raise]
            · simp [handleReply, hreq, hm, raise, DropsNone]
            · simp [handleReply, hreq, hm, raise]
        | ok m =>
            have hdone := Message.done_of_processReply hm
            refine .moved [id] (fun x => ?_) (fun x => ?_) ?_ ?_
            · simp [handleReply, hreq, hm, held, hand, taken, modify, hdone, List.count_cons]
              omega
            · by_cases hx : x = id
              · right; right
                subst hx
                exact ⟨by simp, res, data, by simp [handleReply, hreq, hm, modify]⟩
              · simp [handleReply, hreq, hm, modify, hx]
            · simp [handleReply, hreq, hm, modify, DropsNone, hdone, Message.Pending]
            · simp [handleReply, hreq, hm, modify]
  case resend =>
    split at h
    · next hr =>
      split at h
      · contradiction
      · next id ml hml =>
          split at h
          · next hc =>
              injection h with h; subst h
              refine .moved [id] (fun x => ?_) (fun x => .inl rfl) ?_ rfl
              · simp [held, hand, taken, hr, hml, List.count_cons]
                omega
              · simp [DropsNone, Message.Pending, hc]
          · injection h with h; subst h
            refine .of_held trivial (fun x => ?_) rfl rfl
            simp [held, hand, taken, hr, hml, List.count_cons]
            omega
    · contradiction
  case leave => refine .of_held trivial (fun x => ?_) ?_ ?_ <;> grind [held, hand, taken, nextPc]
  all_goals refine .of_held trivial (fun x => ?_) ?_ ?_ <;> grind [held, hand, taken, raise]

/-! ## Conservation -/

theorem distinct_init : init.Distinct := fun _ => ⟨Nat.zero_le 1, fun _ => rfl⟩

theorem conserved_init : init.Conserved := fun x hx => absurd hx (Nat.not_lt_zero x)

theorem distinct_of_change {s s' : Server} {a : Action} (hd : s.Distinct) (hc : Change s a s') :
    s'.Distinct := by
  intro x
  obtain ⟨hle, hzero⟩ := hd x
  cases hc with
  | added m _ _ hheld _ hid =>
      have hx := hheld x
      rw [hid]
      by_cases he : x = s.nextId
      · have h0 := hzero (by omega)
        rw [if_pos he] at hx
        exact ⟨by omega, fun h => by omega⟩
      · rw [if_neg he] at hx
        exact ⟨by omega, fun h => by have := hzero (by omega); omega⟩
  | moved gone hheld _ _ hid =>
      have hx := hheld x
      rw [hid]
      exact ⟨by omega, fun h => by have := hzero h; omega⟩

/-- A change conserves the messages exactly when it drops none. -/
theorem conserved_of_change {s s' : Server} {a : Action} (hd : s.Distinct) (hs : s.Conserved)
    (hc : Change s a s') : s'.Conserved ↔ DropsNone s a := by
  cases hc with
  | added m hm hdrops hheld hmsg hid =>
      refine iff_of_true (fun x hx hp => ?_) hdrops
      have hxh := hheld x
      by_cases he : x = s.nextId
      · have h0 := (hd x).2 (by omega)
        rw [if_pos he] at hxh
        omega
      · rw [hmsg, Function.update_of_ne he] at hp
        have h1 := hs x (by omega) hp
        rw [if_neg he] at hxh
        omega
  | moved gone hheld hmsg hdrops hid =>
      rw [hdrops]
      constructor
      · -- a message that is gone was somewhere, and is nowhere now
        intro hs' x hx hp
        have hcount : 0 < gone.count x := List.count_pos_iff.mpr hx
        have hxh := hheld x
        have hlt : x < s.nextId := by
          by_contra hge
          have := (hd x).2 (by omega)
          omega
        have h1 := hs' x (by omega) hp
        have := (hd x).1
        omega
      · intro hgone x hx hp
        have hcount : gone.count x = 0 :=
          List.count_eq_zero.mpr fun hx' => hgone x hx' hp
        have hsame : s'.msg x = s.msg x := by
          rcases hmsg x with h | h | ⟨-, res, data, h⟩
          · exact h
          · exact absurd hp (by simp [h, Message.Pending])
          · exact absurd (Message.done_of_processReply h) (by simp [hp.2])
        have h1 := hs x (by omega) (hsame ▸ hp)
        have hxh := hheld x
        omega

/-- What holds in every state, whatever the run. -/
theorem tidy_distinct_step (s : Server) (a : Action) (s' : Server)
    (hs : s.Tidy ∧ s.Distinct) (h : s.step a = some s') : s'.Tidy ∧ s'.Distinct :=
  ⟨tidy_step hs.1 h, distinct_of_change hs.2 (step_change hs.1 h)⟩

/-- **No request is lost or duplicated** along a run exactly when no step of it
drops one. -/
theorem conserved_iff_dropsNone (as : List Action) :
    AllStates step Conserved init as ↔ AllSteps step DropsNone init as :=
  allStates_iff_allSteps (H := fun _ _ => True)
    (fun s a s' hs _ h => tidy_distinct_step s a s' hs h)
    (fun _ _ _ hs _ hc h => conserved_of_change hs.2 hc (step_change hs.1 h))
    ⟨tidy_init, distinct_init⟩ conserved_init (allSteps_true _ _)

/-- A message is submitted while there is no connection.  The writer of the next
one has appended it to `requests` when its `send` fails, before `_run_one` has
seen its children start. -/
def failsEarly : List Action :=
  comesUp ++ [.readerCloses, .writerStops, .leave, .submit nopMsg, .connected, .writerStarts,
    .readerStarts, .dequeue, .append, .writeFails .brokenPipe, .interrupt]

/-- Message 1 is nowhere, and its caller still waits. -/
theorem not_conserved_failsEarly : ¬ AllStates step Conserved init failsEarly := by
  intro h
  have hlost : (Transition.run step init failsEarly).map
      (fun s => (s.nextId, s.callers, s.held 1, decide (s.msg 1).Pending)) =
        some (2, [1], 0, true) := by decide
  obtain ⟨s, hs, heq⟩ := Option.map_eq_some_iff.mp hlost
  simp only [Prod.mk.injEq, decide_eq_true_eq] at heq
  have hheld := h.of_run hs 1 (by omega) heq.2.2.2
  omega

end Server

end AsyncOwfs
