import AsyncOwfs.Server
import Mathlib.Algebra.Order.Field.Basic
import Mathlib.Data.Rat.Defs
import Mathlib.Tactic.Linarith
import Mathlib.Tactic.NormNum
import Mathlib.Tactic.Ring

/-!
# AsyncOwfs.Server.Backoff

`_backoff`, the time that `_run_reconnected` sleeps before it connects again.

It starts with 2 seconds, but nobody ever waits for that long: a connection that fails
before the first one has come up is not tried again, and one that comes up sets it to a
tenth of a second.  From there it grows by half with every failure until it is 10
seconds or more, so that the twelfth failure in a row is the last one to change it
(`delays_of_run`).
-/

namespace AsyncOwfs

/-- A server with its `_backoff`. -/
structure Paced where
  server : Server := Server.init
  backoff : ℚ := 2
  /-- How often it has slept since a connection came up; a history variable. -/
  failures : Nat := 0
  /-- The times that it was going to sleep, with the failures before them; a history
  variable. -/
  delays : List (Nat × ℚ) := []

/-! ## What the run task does -/

namespace Server

/-- Only a greeting that is answered says that the first connection has come up. -/
theorem valPending_step {s s' : Server} {a : Action} (h : s.step a = some s') :
    a = .greetingDone ∧ s'.run = .serving ∧ s'.valPending = false ∨
      ¬ (a = .greetingDone ∧ s'.run = .serving) ∧ s'.valPending = s.valPending := by
  cases a <;> simp only [step, foldl_cancelMsg] at h
  case interrupt => grind [interrupted, cancelMsg, modify]
  case reply => grind [Server.handleReply, raise, modify]
  all_goals grind [raise, cancelMsg, modify]

/-- `start` is not waited for any more when the run task sleeps. -/
theorem valPending_of_sleeping {s : Server} (h : s.nextPc = .sleeping) : s.valPending = false := by
  unfold nextPc afterRunOne at h
  cases hval : s.valPending with
  | false => rfl
  | true =>
      cases hend : s.runOneEnd with
      | ok u => simp [hend] at h
      | error e => cases e <;> simp [hend, hval, isDisconnect, Exc.isEnvironmentError] at h

/-- It sleeps when it leaves a connection that has failed, not the first one. -/
theorem sleeping_step {s s' : Server} {a : Action} (h : s.step a = some s')
    (hrun : s'.run = .sleeping) :
    a = .leave ∧ s.valPending = false ∨ a ≠ .leave ∧ s.run = .sleeping := by
  cases a <;> simp only [step, foldl_cancelMsg] at h
  case interrupt => grind [interrupted, cancelMsg, modify]
  case reply => grind [Server.handleReply, raise, modify]
  case leave => grind [valPending_of_sleeping]
  all_goals grind [raise, cancelMsg, modify]

end Server

namespace Paced

open Transition

/-- What an action of the server, which leads to `server`, does to its `_backoff`. -/
def follow (s : Paced) (server : Server) : Action → Paced
  | .greetingDone =>
    if server.run = .serving then { s with server, backoff := 1 / 10, failures := 0 }
    else { s with server }
  | .leave =>
    if server.run = .sleeping then
      { s with server, delays := s.delays ++ [(s.failures, s.backoff)] }
    else { s with server }
  | .wake =>
    { s with
      server, failures := s.failures + 1
      backoff := if s.backoff < 10 then s.backoff * (3 / 2) else s.backoff }
  | _ => { s with server }

def step (s : Paced) (a : Action) : Option Paced := (s.server.step a).map fun server => s.follow server a

def init : Paced := {}

/-- The time behind so many failures in a row. -/
def delayAfter (failures : Nat) : ℚ := 1 / 10 * (3 / 2) ^ min failures 12

/-- The delay grows until it has reached ten seconds. -/
theorem delayAfter_succ (k : Nat) :
    delayAfter (k + 1) = if delayAfter k < 10 then delayAfter k * (3 / 2) else delayAfter k := by
  unfold delayAfter
  by_cases hk : k < 12
  · have hlt : (1 / 10 * (3 / 2) ^ min k 12 : ℚ) < 10 := by
      have hpow : ((3 / 2 : ℚ)) ^ min k 12 ≤ (3 / 2) ^ 11 := by
        apply pow_le_pow_right₀ <;> norm_num
        omega
      have hlast : ((3 / 2 : ℚ)) ^ 11 < 100 := by norm_num
      linarith
    have hmin : min k 12 = k := by omega
    have hmin' : min (k + 1) 12 = k + 1 := by omega
    rw [if_pos hlt, hmin, hmin', pow_succ]
    ring
  · have hmin : min k 12 = 12 := by omega
    have hmin' : min (k + 1) 12 = 12 := by omega
    have hge : ¬ (1 / 10 * (3 / 2) ^ 12 : ℚ) < 10 := by norm_num
    rw [hmin, hmin', if_neg hge]

/-- The delay is never more than thirteen seconds. -/
theorem delayAfter_bounds (k : Nat) : 1 / 10 ≤ delayAfter k ∧ delayAfter k < 13 := by
  unfold delayAfter
  have hpow : ((3 / 2 : ℚ)) ^ min k 12 ≤ (3 / 2) ^ 12 := by
    apply pow_le_pow_right₀ <;> norm_num
  have hone : (1 : ℚ) ≤ (3 / 2) ^ min k 12 := one_le_pow₀ (by norm_num)
  have hlast : ((3 / 2 : ℚ)) ^ 12 < 130 := by norm_num
  constructor <;> linarith

/-- The first connection has not come up, and nobody has slept, or `_backoff` is what the
failures since then have made of it. -/
structure Sound (s : Paced) : Prop where
  pending : s.server.valPending = true → s.delays = []
  backoff : s.server.valPending = false → s.backoff = delayAfter s.failures
  sleeping : s.server.run = .sleeping → s.server.valPending = false
  delays : ∀ p ∈ s.delays, p.2 = delayAfter p.1

/-- In the beginning there are no delays. -/
theorem sound_init : init.Sound := by
  constructor <;> simp [init, Server.init]

/-- **One step** of the run task keeps to the delays. -/
theorem sound_step {s s' : Paced} {a : Action} (hs : s.Sound) (h : s.step a = some s') :
    s'.Sound := by
  obtain ⟨t, ht, rfl⟩ := Option.map_eq_some_iff.mp h
  have hval := Server.valPending_step ht
  have hsleep := Server.sleeping_step ht
  obtain ⟨hpending, hbackoff, hsleeping, hdelays⟩ := hs
  -- an action that leaves the delays as they are, and does not come out of the greeting
  have hplain (hval' : t.valPending = s.server.valPending)
      (hrun : t.run = .sleeping → s.server.run = .sleeping) :
      Sound { s with server := t } := by
    constructor
    · exact fun hp => hpending (hval' ▸ hp)
    · exact fun hp => hbackoff (hval' ▸ hp)
    · exact fun hr => hval' ▸ hsleeping (hrun hr)
    · exact hdelays
  cases a
  case greetingDone =>
    by_cases hrun : t.run = .serving
    · have hval' : t.valPending = false := by simpa [hrun] using hval
      simp only [follow, hrun, if_true]
      constructor
      · simp [hval']
      · simp [delayAfter]
      · simp [hval']
      · exact hdelays
    · simp only [follow, hrun, if_false]
      exact hplain (by simpa [hrun] using hval) (by simpa using hsleep)
  case leave =>
    have hval' : t.valPending = s.server.valPending := by simpa using hval
    by_cases hrun : t.run = .sleeping
    · have hfalse : s.server.valPending = false := by simpa using hsleep hrun
      simp only [follow, hrun, if_true]
      constructor
      · simp [hval', hfalse]
      · exact fun _ => hbackoff hfalse
      · exact fun _ => hval' ▸ hfalse
      · intro p hp
        rcases List.mem_append.mp hp with hp | hp
        · exact hdelays p hp
        · rw [List.mem_singleton] at hp
          subst hp
          exact hbackoff hfalse
    · simp only [follow, hrun, if_false]
      exact hplain hval' (fun hr => absurd hr hrun)
  case wake =>
    have hval' : t.valPending = s.server.valPending := by simpa using hval
    have hrun : s.server.run = .sleeping ∧ t.run ≠ .sleeping := by
      simp only [Server.step] at ht
      split at ht
      · next hr =>
        rw [Option.some.injEq] at ht
        subst ht
        exact ⟨hr, by simp⟩
      · contradiction
    simp only [follow]
    constructor
    · exact fun hp => hpending (hval' ▸ hp)
    · intro hp
      rw [delayAfter_succ, hbackoff (hval' ▸ hp)]
    · exact fun hr => absurd hr hrun.2
    · exact hdelays
  all_goals exact hplain (by simpa using hval) (by simpa using hsleep)

/-- **The delays** of a server's run task, whatever its tasks do: a tenth of a second
times one and a half for each time that it has slept since a connection came up, twelve of
them at most; and none at all before the first connection has come up. -/
theorem delays_of_run {as : List Action} {s : Paced} (h : run step init as = some s) :
    (s.server.valPending = true → s.delays = []) ∧
      ∀ p ∈ s.delays, p.2 = delayAfter p.1 ∧ 1 / 10 ≤ p.2 ∧ p.2 < 13 := by
  have hs := invariant_run (fun _ _ _ hs h => sound_step hs h) sound_init h
  refine ⟨hs.pending, ?_⟩
  intro p hp
  have hbounds := delayAfter_bounds p.1
  rw [← hs.delays p hp] at hbounds
  exact ⟨hs.delays p hp, hbounds⟩

/-- A connection that comes up and is lost, and two attempts to connect again. -/
def lostTwice : List Action :=
  Server.comesUp ++ [.readerFails .timeoutError, .writerStops, .interrupt, .leave, .wake,
    .connectFails .osError, .leave]

/-- The connection is lost twice in a row. -/
theorem delays_of_run_lostTwice :
    ∃ s, run step init lostTwice = some s ∧ s.delays = [(0, 1 / 10), (1, 3 / 20)] ∧
      ∀ p ∈ s.delays, p.2 = delayAfter p.1 ∧ 1 / 10 ≤ p.2 ∧ p.2 < 13 := by
  have hdelays : (run step init lostTwice).map Paced.delays = some [(0, 1 / 10), (1, 3 / 20)] := by
    decide +kernel
  obtain ⟨s, hs, hd⟩ := Option.map_eq_some_iff.mp hdelays
  exact ⟨s, hs, hd, (delays_of_run hs).2⟩

end Paced

end AsyncOwfs
