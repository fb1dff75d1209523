import AsyncOwfs.Tasks

/-!
# AsyncOwfs.Tasks.Commands

What the commands leave alone.

A command does a few changes to the state, and `Parts` names those of each.  What
all of them keep, or what relates the states before and after each of them, the
command keeps (`relates_exec`).
-/

namespace AsyncOwfs

namespace World

open Hoare

variable {R : World → World → Prop}

/-- The changes that a command is made of are within `R`. -/
def Parts (R : World → World → Prop) : Cmd → Prop
  | .serverGetBus v name => Relates R (onService (Service.serverGetBus v name))
  | .serverClosed v =>
    Relates R (onService (modify fun s => { s with server := Function.update s.server v none }))
  | .push e => Relates R (onService (Service.pushEvent e))
  | .getDevice id => Relates R (onService (Service.register id))
  | .deleteDevice r => Relates R (onService (Service.unregister r))
  | .assign b r =>
    Relates R (onService (Service.modifyDev r fun d => { d with bus := some b, waitBus := true }))
  | .unlocate b r =>
    Relates R (onService (Service.modifyDev r fun d => { d with waitBus := false })) ∧
    Relates R (onService (Service.delDevice b r)) ∧
    Relates R (onService (Service.modifyDev r fun d => { d with bus := none }))
  | .setInterval r _ _ => ∀ intervals : World → Dict String ℚ≥0, Relates R (modify fun w =>
    { w with intervals := Function.update w.intervals r (intervals w) } : Method Unit)
  | .seenBus b => Relates R (onService (Service.modifyBus b fun bus => { bus with unseen := 0 }))
  | .enlist b r => ∀ w ds, (w.service.bus b).devices = some ds →
    wp (onService (Service.modifyBus b fun bus =>
      { bus with devices := some (ds.set (w.service.dev r).id r) })) (fun _ => R w) (fun _ => R w) w
  | .seen r => Relates R (onService (Service.modifyDev r fun d => { d with unseen := 0 }))
  | .getBus b path => Relates R (onService (Service.getBus b path))
  | .miss _ _ =>
    ∀ r, Relates R (onService (Service.modifyDev r fun d => { d with unseen := d.unseen + 1 }))
  | .noBuses b => Relates R (onService (Service.modifyBus b fun bus => { bus with buses := none }))
  | .noDevices b =>
    Relates R (onService (Service.modifyBus b fun bus => { bus with devices := none }))
  | .stopPoll b x => Relates R (exec (.ok []) (.stopPoll b x))
  | .startPoll b x => Relates R (exec (.ok []) (.startPoll b x))
  | .storePoll b x n => Relates R (exec (.ok []) (.storePoll b x n))
  | .ask _ | .serverBuses _ | .replay _ | .startOwn .. | .nextOwn .. | .request .. | .misuse ..
  | .pushValue _ | .refuse _ | .listed _ | .sight .. | .buses _ | .members _ | .review _ => True

/-- **What the parts of a command are within, the command is within.** -/
theorem relates_exec (hrefl : ∀ w, R w w) (htrans : ∀ w w' w'', R w w' → R w' w'' → R w w'')
    (reply : Reply) (c : Cmd) (hc : Parts R c) : Relates R (exec reply c) := by
  have hpure {α : Type} (a : α) : Relates R (pure a : Method α) := relates_pure hrefl a
  have hthrow {α : Type} (e : Exc) : Relates R (throw e : Method α) := relates_throw hrefl e
  have hseq {α β : Type} {x : Method α} {f : α → Method β} (hx : Relates R x)
      (hf : ∀ a, Relates R (f a)) : Relates R (x >>= f) := hx.bind htrans hf
  cases c with
  | ask v =>
      cases reply with
      | ok v => exact hpure ()
      | error e => exact hthrow e
  | serverGetBus | serverClosed | push | getDevice | deleteDevice | seenBus | getBus | noBuses
  | noDevices | stopPoll | startPoll | storePoll => exact hc
  | serverBuses | buses | members | review | replay => exact relates_get fun _ => hpure _
  | startOwn r typ =>
      refine relates_get fun w => ?_
      split
      · exact hpure _
      · exact hthrow _
  | nextOwn r size =>
      refine relates_get fun w => ?_
      split
      · exact hpure _
      · exact hthrow _
  | misuse r path => exact relates_get fun _ => hthrow _
  | pushValue r => exact hpure ()
  | refuse e => exact hthrow e
  | assign b r =>
      refine relates_get fun w => ?_
      split
      · exact hpure _
      · exact hseq hc fun _ => hpure _
  | unlocate b r =>
      obtain ⟨hwait, hdel, hbus⟩ := hc
      refine relates_get fun w => ?_
      split
      · exact hseq hwait fun _ => hseq hdel fun _ => hseq hbus fun _ => hpure _
      · exact hpure _
  | setInterval r styp value =>
      refine hseq (hc _) fun _ => relates_get fun w => ?_
      split
      · exact hpure _
      · split
        · exact hpure _
        · cases reply with
          | ok v => exact hpure _
          | error e => exact hthrow e
  | request r path =>
      refine relates_get fun w => ?_
      split
      · exact hthrow _
      · split
        · exact hthrow _
        · cases reply with
          | ok v => exact hpure _
          | error e => exact hthrow e
  | listed b =>
      refine relates_get fun w => ?_
      split
      · exact hthrow _
      · exact hpure _
  | sight b r d old =>
      refine relates_get fun w => ?_
      split
      · split
        · exact hpure _
        · exact hthrow _
      · exact hpure _
  | enlist b r =>
      intro w
      rw [exec, wp_bind, wp_get]
      split
      · exact hrefl w
      · next ds hds => exact wp_seq (hc w ds hds) fun _ _ h => h
  | seen r =>
      refine hseq hc fun _ => relates_get fun w => ?_
      split
      · exact hpure _
      · exact hpure _
  | miss b d =>
      refine relates_get fun w => ?_
      split
      · exact hthrow _
      · split
        · exact hthrow _
        · split
          · exact hpure _
          · exact hseq (hc _) fun _ => hpure _

/-- What a service does of itself. -/
theorem relates_onService {S : Service → Service → Prop} {x : AsyncOwfs.Method α}
    (hx : Relates S x) : Relates (fun w w' => S w.service w'.service) (onService x) := by
  intro w
  rw [onService, wp_zoom]
  exact hx w.service

/-- What is known of a method of the service, of its outcome. -/
theorem post_onService {x : AsyncOwfs.Method α} {w w' : World} {r : Except Exc α}
    {Q : α → Service → Prop} {E : Exc → Service → Prop} (h : Outcome (onService x) w r w')
    (hx : wp x Q E w.service) : Post Q E r w'.service := by
  refine h.of_wp (R := fun r w' => Post Q E r w'.service) ?_
  rw [onService, wp_zoom]
  exact hx

/-! ## Pollers -/

/-- The pollers of the buses are as they were. -/
structure SamePolls (w w' : World) : Prop where
  polls : w'.polls = w.polls
  pollers : w'.pollers = w.pollers
  nextPoller : w'.nextPoller = w.nextPoller

theorem samePolls_refl (w : World) : SamePolls w w := ⟨rfl, rfl, rfl⟩

theorem samePolls_trans (w w' w'' : World) (h : SamePolls w w') (h' : SamePolls w' w'') :
    SamePolls w w'' :=
  ⟨h'.polls.trans h.polls, h'.pollers.trans h.pollers, h'.nextPoller.trans h.nextPoller⟩

/-- The tables are no part of the service. -/
theorem samePolls_onService (x : AsyncOwfs.Method α) : Relates SamePolls (onService x) := by
  intro w
  rw [onService, wp_zoom, wp]
  split <;> exact ⟨rfl, rfl, rfl⟩

/-- The commands that are about the pollers of a bus. -/
def IsPoll : Cmd → Prop
  | .stopPoll .. | .startPoll .. | .storePoll .. => True
  | _ => False

/-- **All but three commands** leave the pollers alone. -/
theorem samePolls_exec (reply : Reply) (c : Cmd) (hc : ¬ IsPoll c) :
    Relates SamePolls (exec reply c) := by
  refine relates_exec samePolls_refl samePolls_trans reply c ?_
  cases c with
  | serverGetBus | serverClosed | push | getDevice | deleteDevice | assign | seenBus | seen | getBus
  | noBuses | noDevices => exact samePolls_onService _
  | unlocate b r => exact ⟨samePolls_onService _, samePolls_onService _, samePolls_onService _⟩
  | setInterval r styp value => exact fun intervals w => ⟨rfl, rfl, rfl⟩
  | enlist b r => exact fun w ds _ => samePolls_onService _ w
  | miss b d => exact fun r => samePolls_onService _
  | stopPoll | startPoll | storePoll => exact absurd trivial hc
  | _ => trivial

/-- A poller that is in the table is cancelled, and leaves it. -/
theorem stopPoll_spec (reply : Reply) (b : BusRef) (x : String) (w : World) :
    wp (exec reply (.stopPoll b x))
      (fun _ w' => ∃ n, (w.polls b).get? x = some n ∧ w' = { w with
        polls := Function.update w.polls b ((w.polls b).erase x),
        pollers := Function.update w.pollers n none })
      (fun _ w' => w' = w ∧ (w.polls b).get? x = none) w := by
  rw [exec, wp_bind, wp_get]
  split
  · next hn => exact ⟨rfl, hn⟩
  · next n hn => exact ⟨n, hn, rfl⟩

/-- A poller gets a new number, if there is none for the item. -/
theorem startPoll_spec (reply : Reply) (b : BusRef) (x : String) (w : World) :
    wp (exec reply (.startPoll b x))
      (fun r w' => match r with
        | none => (w.polls b).get? x ≠ none ∧ w' = w
        | some n => (w.polls b).get? x = none ∧ n = w.nextPoller ∧ w' = { w with
            pollers := Function.update w.pollers w.nextPoller (some (b, x)),
            nextPoller := w.nextPoller + 1 })
      (fun _ _ => False) w := by
  rw [exec, wp_bind, wp_get]
  split
  · next n hn => exact ⟨by simp [hn], rfl⟩
  · next hn => exact ⟨hn, rfl, rfl⟩

/-- A poller that has been started enters the table. -/
theorem storePoll_spec (reply : Reply) (b : BusRef) (x : String) (n : Nat) (w : World) :
    wp (exec reply (.storePoll b x n))
      (fun _ w' => w' = { w with polls := Function.update w.polls b ((w.polls b).set x n) })
      (fun _ _ => False) w := rfl

/-- Pollers that have not been cancelled are the old ones, and the one that is started. -/
theorem pollers_exec (reply : Reply) (c : Cmd) (w : World) :
    let New (w' : World) := ∀ n b x, w'.pollers n = some (b, x) →
      w.pollers n = some (b, x) ∨ n = w.nextPoller ∧ c = .startPoll b x
    wp (exec reply c) (fun _ => New) (fun _ => New) w := by
  by_cases hc : IsPoll c
  · cases c with
    | stopPoll b x =>
        refine wp_mono (stopPoll_spec reply b x w) (fun _ w' h n b' x' hn => ?_)
          (fun _ w' h n b' x' hn => ?_)
        · obtain ⟨m, -, rfl⟩ := h
          by_cases hnm : n = m
          · simp [hnm] at hn
          · simp only [Function.update_of_ne hnm] at hn
            exact .inl hn
        · exact .inl (h.1 ▸ hn)
    | startPoll b x =>
        refine wp_mono_ok (startPoll_spec reply b x w) fun started w' h n b' x' hn => ?_
        cases started with
        | none => exact .inl (h.2 ▸ hn)
        | some m =>
            obtain ⟨-, -, rfl⟩ := h
            by_cases hnm : n = w.nextPoller
            · simp only [hnm, Function.update_self, Option.some.injEq, Prod.mk.injEq] at hn
              rw [hn.1, hn.2]
              exact .inr ⟨hnm, rfl⟩
            · simp only [Function.update_of_ne hnm] at hn
              exact .inl hn
    | storePoll b x n => exact fun _ _ _ h => .inl h
    | _ => exact hc.elim
  · exact wp_mono (samePolls_exec reply c hc w) (fun _ w' h n b x hn => .inl (h.pollers ▸ hn))
      (fun _ w' h n b x hn => .inl (h.pollers ▸ hn))

/-- The pollers of the buses are no business of the service. -/
theorem service_isPoll (reply : Reply) (c : Cmd) (hc : IsPoll c) :
    Relates (fun w w' => w'.service = w.service) (exec reply c) := by
  intro w
  cases c with
  | stopPoll b x =>
      refine wp_mono (stopPoll_spec reply b x w) (fun _ w' h => ?_) (fun _ w' h => by rw [h.1])
      obtain ⟨n, -, rfl⟩ := h
      rfl
  | startPoll b x =>
      refine wp_mono_ok (startPoll_spec reply b x w) fun started w' h => ?_
      cases started with
      | none => rw [h.2]
      | some n =>
          obtain ⟨-, -, rfl⟩ := h
          rfl
  | storePoll b x n => rfl
  | _ => exact hc.elim

/-- What holds between states of one service holds of the commands for pollers. -/
theorem parts_isPoll {R : World → World → Prop} (hR : ∀ w w', w'.service = w.service → R w w')
    {c : Cmd} (hc : IsPoll c) : Parts R c := by
  have hexec (w : World) : wp (exec (.ok []) c) (fun _ => R w) (fun _ => R w) w :=
    wp_mono (service_isPoll (.ok []) c hc w) (fun _ w' => hR w w') (fun _ w' => hR w w')
  cases c with
  | stopPoll | startPoll | storePoll => exact hexec
  | _ => exact hc.elim

/-- Pollers are numbered in the order in which they are started. -/
structure Numbered (w w' : World) : Prop where
  le : w.nextPoller ≤ w'.nextPoller
  fresh : (∀ n, w.nextPoller ≤ n → w.pollers n = none) → ∀ n, w'.nextPoller ≤ n → w'.pollers n = none

/-- Every command keeps the numbers of pollers below the next one. -/
theorem numbered_exec (reply : Reply) (c : Cmd) : Relates Numbered (exec reply c) := by
  intro w
  by_cases hc : IsPoll c
  · cases c with
    | stopPoll b x =>
        refine wp_mono (stopPoll_spec reply b x w) (fun _ w' h => ?_) (fun _ w' h => ?_)
        · obtain ⟨m, -, rfl⟩ := h
          refine ⟨le_rfl, fun hfresh n hn => ?_⟩
          by_cases hnm : n = m
          · simp [hnm]
          · simp [Function.update_of_ne hnm, hfresh n hn]
        · exact h.1 ▸ ⟨le_rfl, id⟩
    | startPoll b x =>
        refine wp_mono (startPoll_spec reply b x w) (fun r w' h => ?_) (fun _ _ h => h.elim)
        cases r with
        | none => exact h.2 ▸ ⟨le_rfl, id⟩
        | some m =>
            obtain ⟨-, -, rfl⟩ := h
            refine ⟨Nat.le_succ _, fun hfresh n hn => ?_⟩
            have hne : n ≠ w.nextPoller := by
              rintro rfl
              exact absurd hn (Nat.not_succ_le_self _)
            simp [Function.update_of_ne hne, hfresh n (Nat.le_of_succ_le hn)]
    | storePoll b x n =>
        exact wp_mono (storePoll_spec reply b x n w) (fun _ _ h => h ▸ ⟨le_rfl, id⟩)
          (fun _ _ h => h.elim)
    | _ => exact hc.elim
  · exact wp_mono (samePolls_exec reply c hc w)
      (fun _ w' h => ⟨h.nextPoller.ge, by rw [h.pollers, h.nextPoller]; exact id⟩)
      (fun _ w' h => ⟨h.nextPoller.ge, by rw [h.pollers, h.nextPoller]; exact id⟩)

end World

end AsyncOwfs
