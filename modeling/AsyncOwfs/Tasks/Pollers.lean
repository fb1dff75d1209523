import AsyncOwfs.Tasks.Rounds

/-!
# AsyncOwfs.Tasks.Pollers

The `_poll` tasks of a bus: at most one runs for each kind of poll, and it is known
in `_tasks`, or in the hands of the `update_poll` that has just started it.

`update_poll` looks whether there is a task, starts one, and stores it when it is
told that the task has been started.  Two calls on one bus can overlap there.
-/

namespace AsyncOwfs

namespace Tasks

open Program Transition Hoare

/-- The `_poll` task runs: it has not been cancelled, and has not failed. -/
def Running (t : Tasks) (n : Nat) (b : BusRef) (x : String) : Prop :=
  t.shared.pollers n = some (b, x) ∧ ¬ (t.task (.poller n)).Failed

instance (t : Tasks) (n : Nat) (b : BusRef) (x : String) : Decidable (t.Running n b x) :=
  inferInstanceAs (Decidable (_ ∧ _))

/-- Some `update_poll` has started the task, and not stored it yet. -/
def InHand (t : Tasks) (n : Nat) (b : BusRef) (x : String) : Prop :=
  ∃ i ∈ t.tasks, owed (t.task i) = .store b x n

instance (t : Tasks) (n : Nat) (b : BusRef) (x : String) : Decidable (t.InHand n b x) :=
  inferInstanceAs (Decidable (∃ i ∈ _, _))

/-- One task for each kind of poll, which can be found. -/
structure Unique (t : Tasks) : Prop where
  single : ∀ b x n m, t.Running n b x → t.Running m b x → n = m
  known : ∀ b x n, t.Running n b x → (t.shared.polls b).get? x = some n ∨ t.InHand n b x

/-- Calls of `update_poll` do not get into each other's way: none starts or stores a
task while the task that another one has started for the same poll still runs. -/
def Apart (t : Tasks) : Action → Prop
  | .resume i _ =>
    match (t.task i).head with
    | some (.startPoll b x) =>
      (t.shared.polls b).get? x = none →
        ∀ n < t.shared.nextPoller, t.InHand n b x → ¬ t.Running n b x
    | some (.storePoll b x n) => ∀ m ∈ (t.shared.polls b).get? x, m ≠ n → ¬ t.Running m b x
    | _ => True
  | _ => True

instance (t : Tasks) (a : Action) : Decidable (t.Apart a) := by
  induction a using Action.casesOn with
  | resume i reply =>
      dsimp only [Apart]
      generalize (t.task i).head = o
      induction o using Option.casesOn with
      | none => exact instDecidableTrue
      | some c => induction c using Cmd.casesOn <;> infer_instance
  | _ => exact instDecidableTrue

/-- What is known of the tasks that are stored, or will be. -/
structure Booked (t : Tasks) : Prop where
  stored : ∀ b x n, (t.shared.polls b).get? x = some n →
    n < t.shared.nextPoller ∧ ∀ y ∈ t.shared.pollers n, y = (b, x)
  inHand : ∀ i b x n, owed (t.task i) = .store b x n →
    n < t.shared.nextPoller ∧ (∀ y ∈ t.shared.pollers n, y = (b, x)) ∧
      ∀ b' x', (t.shared.polls b').get? x' ≠ some n
  once : ∀ i j b x b' x' n, owed (t.task i) = .store b x n → owed (t.task j) = .store b' x' n → i = j

/-- In the beginning there are no pollers. -/
theorem booked_init : init.Booked := by
  refine ⟨fun b x n h => ?_, fun i b x n h => ?_, fun i j b x b' x' n h => ?_⟩
  · contradiction
  · contradiction
  · contradiction

/-- In the beginning no item is polled. -/
theorem unique_init : init.Unique := ⟨fun _ _ _ _ h => by simp [Running, init] at h,
  fun _ _ _ h => by simp [Running, init] at h⟩

/-! ## Steps that are not about pollers -/

/-- No poller has been started, stopped or stored; one may have failed. -/
structure Calm (t t' : Tasks) : Prop where
  polls : t'.shared.polls = t.shared.polls
  pollers : t'.shared.pollers = t.shared.pollers
  nextPoller : t'.shared.nextPoller = t.shared.nextPoller
  tasks : t.tasks ⊆ t'.tasks
  failed : ∀ n, (t.task (.poller n)).Failed → (t'.task (.poller n)).Failed
  owed : ∀ i b x n, owed (t'.task i) = .store b x n ↔ owed (t.task i) = .store b x n

/-- What runs now has been running. -/
theorem Calm.running {t t' : Tasks} (h : Calm t t') {n : Nat} {b : BusRef} {x : String}
    (hn : t'.Running n b x) : t.Running n b x :=
  ⟨h.pollers ▸ hn.1, fun hf => hn.2 (h.failed n hf)⟩

/-- Where no poller starts or ends, the books are in order. -/
theorem Calm.booked {t t' : Tasks} (h : Calm t t') (ht : t.Booked) : t'.Booked := by
  constructor
  · rw [h.polls, h.pollers, h.nextPoller]
    exact ht.stored
  · intro i b x n hi
    rw [h.polls, h.pollers, h.nextPoller]
    exact ht.inHand i b x n ((h.owed i b x n).mp hi)
  · intro i j b x b' x' n hi hj
    exact ht.once i j b x b' x' n ((h.owed i b x n).mp hi) ((h.owed j b' x' n).mp hj)

/-- Where no poller starts, none is one too many. -/
theorem Calm.unique {t t' : Tasks} (h : Calm t t') (ht : t.Unique) : t'.Unique := by
  constructor
  · exact fun b x n m hn hm => ht.single b x n m (h.running hn) (h.running hm)
  · intro b x n hn
    rw [h.polls]
    refine (ht.known b x n (h.running hn)).imp_right fun hhand => ?_
    obtain ⟨i, hi, howed⟩ := hhand
    exact ⟨i, h.tasks hi, (h.owed i b x n).mpr howed⟩

/-- A task that starts is no poller that is started. -/
theorem calm_starts {t t' : Tasks} {a : Action} {i : TaskId} {p : Program Unit} (ht : t.Dutiful)
    (hs : Starts t a t' i p) : Calm t t' := by
  obtain ⟨u, hu⟩ : ∃ u, t.task i = .done u := hs.idle.elim (ht.idle i) And.right
  refine ⟨by rw [hs.shared], by rw [hs.shared], by rw [hs.shared],
    fun j hj => (hs.mem j).mpr (.inl hj), fun n hn => ?_, fun j b x n => by rw [hs.owed_eq ht]⟩
  have hni : .poller n ≠ i := by
    rintro rfl
    rw [hu] at hn
    exact hn
  rw [hs.task, Function.update_of_ne hni]
  exact hn

section Command

variable {t t' : Tasks} {i : TaskId} {reply : Reply} {c : Cmd} {r : Except Exc c.Ret}
  {k : Except Exc c.Ret → Program Unit} {w : World}

/-- A command that leaves the pollers alone, and stores none. -/
theorem Goes.calm (hg : Goes t t' i reply c r k w) (ht : t.Dutiful)
    (hw : World.SamePolls t.shared w) (hfulfils : ∀ b x n, c.fulfils ≠ .store b x n)
    (hincurs : ∀ b x n, c.incurs r ≠ .store b x n) : Calm t t' := by
  have hsub := hg.tasks_subset
  have hafter := hg.owed_after ht
  have hne := @Goes.task_ne _ _ _ _ _ _ _ _ hg
  refine ⟨?_, ?_, ?_, hsub, fun n hn => ?_, fun j b x n => ?_⟩
  · rw [hg.after]
    exact hw.polls
  · rw [hg.after]
    exact hw.pollers
  · rw [hg.after]
    exact hw.nextPoller
  · have hni : .poller n ≠ i := by
      rintro rfl
      rw [hg.before] at hn
      exact hn
    rw [hne hni]
    exact hn
  · by_cases hji : j = i
    · subst hji
      rw [hafter, hg.owed_before]
      exact iff_of_false (hincurs b x n) (hfulfils b x n)
    · rw [hne hji]

/-- A command that is about pollers is not one of a round. -/
theorem Goes.poller_ne (hg : Goes t t' i reply c r k w) (ht : t.InRounds) (hc : World.IsPoll c)
    (n : Nat) : .poller n ≠ i := by
  rintro rfl
  have hround := ht.before (i := .poller n) trivial hg.before
  exact hround.1.2.not_isPoll hc

/-- Which tasks run behind a command that is about pollers. -/
theorem Goes.running_iff (hg : Goes t t' i reply c r k w) (ht : t.InRounds) (hc : World.IsPoll c)
    (n : Nat) (b : BusRef) (x : String) :
    t'.Running n b x ↔ w.pollers n = some (b, x) ∧ ¬ (t.task (.poller n)).Failed := by
  rw [Running, hg.task_ne (hg.poller_ne ht hc n), hg.after]

end Command

/-- A task is stopped. -/
theorem stopPoll_step {t t' : Tasks} {i : TaskId} {reply : Reply} {b : BusRef} {x : String}
    {u : Unit} {k : Except Exc Unit → Program Unit} {w : World} {n : Nat} (ht : t.InRounds)
    (hb : t.Booked) (hg : Goes t t' i reply (.stopPoll b x) (.ok u) k w)
    (hn : (t.shared.polls b).get? x = some n)
    (hw : w = { t.shared with
      polls := Function.update t.shared.polls b ((t.shared.polls b).erase x),
      pollers := Function.update t.shared.pollers n none }) :
    t'.Booked ∧ (t.Unique → t'.Unique) := by
  have hshared : t'.shared = w := by rw [hg.after]
  have hpolls : ∀ b' x' m, (w.polls b').get? x' = some m ↔
      (t.shared.polls b').get? x' = some m ∧ ¬ (b' = b ∧ x' = x) := by
    intro b' x' m
    rw [hw]
    by_cases hbb : b' = b
    · subst hbb
      simp only [Function.update_self, Dict.get?_erase]
      by_cases hxx : x' = x <;> simp [hxx]
    · simp [hbb]
  have hpollers : ∀ m, ∀ y ∈ w.pollers m, y ∈ t.shared.pollers m ∧ m ≠ n := by
    intro m y hy
    rw [hw] at hy
    by_cases hmn : m = n
    · simp [hmn] at hy
    · simp only [Function.update_of_ne hmn] at hy
      exact ⟨hy, hmn⟩
  have hnext : w.nextPoller = t.shared.nextPoller := by rw [hw]
  have howed : ∀ j b' x' m, owed (t'.task j) = .store b' x' m → owed (t.task j) = .store b' x' m := by
    intro j b' x' m h
    rcases hg.owed_cases ht.toDutiful h with ⟨-, h⟩ | ⟨-, h⟩
    · exact h
    · contradiction
  refine ⟨⟨fun b' x' m h => ?_, fun j b' x' m h => ?_, fun j j' b' x' b'' x'' m h h' => ?_⟩,
    fun hu => ⟨fun b' x' m m' hm hm' => ?_, fun b' x' m hm => ?_⟩⟩
  · rw [hshared] at h ⊢
    obtain ⟨hlt, hname⟩ := hb.stored b' x' m ((hpolls b' x' m).mp h).1
    exact ⟨hnext ▸ hlt, fun y hy => hname y (hpollers m y hy).1⟩
  · rw [hshared]
    obtain ⟨hlt, hname, hnot⟩ := hb.inHand j b' x' m (howed j b' x' m h)
    refine ⟨hnext ▸ hlt, fun y hy => hname y (hpollers m y hy).1, fun b'' x'' h => ?_⟩
    exact hnot b'' x'' ((hpolls b'' x'' m).mp h).1
  · exact hb.once j j' b' x' b'' x'' m (howed j b' x' m h) (howed j' b'' x'' m h')
  · rw [hg.running_iff ht trivial] at hm hm'
    exact hu.single b' x' m m' ⟨(hpollers m _ hm.1).1, hm.2⟩ ⟨(hpollers m' _ hm'.1).1, hm'.2⟩
  · rw [hg.running_iff ht trivial] at hm
    obtain ⟨hold, hmn⟩ := hpollers m _ hm.1
    rcases hu.known b' x' m ⟨hold, hm.2⟩ with hstored | ⟨j, hj, howed⟩
    · refine .inl ?_
      rw [hshared, hpolls]
      refine ⟨hstored, ?_⟩
      rintro ⟨rfl, rfl⟩
      rw [hn, Option.some.injEq] at hstored
      exact hmn hstored.symm
    · refine .inr ⟨j, hg.tasks_subset hj, ?_⟩
      have hji : j ≠ i := by
        rintro rfl
        rw [hg.owed_before] at howed
        contradiction
      rw [hg.task_ne hji]
      exact howed

section Start

variable {t t' : Tasks} {i : TaskId} {reply : Reply} {b : BusRef} {x : String}
  {k : Except Exc (Option Nat) → Program Unit} {w : World}

/-- The pollers that run have numbers. -/
theorem InRounds.lt_of_running (ht : t.InRounds) {m : Nat} (hm : t.Running m b x) :
    m < t.shared.nextPoller := by
  by_contra hge
  rw [Running, ht.pollers m (Nat.le_of_not_lt hge)] at hm
  exact absurd hm.1 (by simp)

/-- The task that is started runs. -/
theorem Goes.running_start (ht : t.InRounds)
    (hg : Goes t t' i reply (.startPoll b x) (.ok (some t.shared.nextPoller)) k w)
    (hw : w = { t.shared with
      pollers := Function.update t.shared.pollers t.shared.nextPoller (some (b, x)),
      nextPoller := t.shared.nextPoller + 1 }) (m : Nat) (b' : BusRef) (x' : String) :
    t'.Running m b' x' ↔ t.Running m b' x' ∨ m = t.shared.nextPoller ∧ b' = b ∧ x' = x := by
  -- it has not done anything yet
  have hidle : ¬ (t.task (.poller t.shared.nextPoller)).Failed := by
    obtain ⟨u, hu⟩ := ht.idle (.poller t.shared.nextPoller) (by simp [tasks])
    rw [hu]
    exact id
  have hpollers : w.pollers = Function.update t.shared.pollers t.shared.nextPoller (some (b, x)) := by
    rw [hw]
  rw [hg.running_iff ht trivial, hpollers]
  by_cases hm : m = t.shared.nextPoller
  · subst hm
    rw [Function.update_self, Option.some.injEq, Prod.mk.injEq]
    constructor
    · rintro ⟨⟨rfl, rfl⟩, -⟩
      exact .inr ⟨rfl, rfl, rfl⟩
    · rintro (h | ⟨-, rfl, rfl⟩)
      · exact absurd (ht.lt_of_running h) (Nat.lt_irrefl _)
      · exact ⟨⟨rfl, rfl⟩, hidle⟩
  · rw [Function.update_of_ne hm, Running]
    simp [hm]

/-- It is in the hands of whoever has started it. -/
theorem Goes.inHand_start (ht : t.InRounds)
    (hg : Goes t t' i reply (.startPoll b x) (.ok (some t.shared.nextPoller)) k w) (m : Nat)
    (b' : BusRef) (x' : String) :
    t'.InHand m b' x' ↔ t.InHand m b' x' ∨ m = t.shared.nextPoller ∧ b' = b ∧ x' = x := by
  constructor
  · rintro ⟨j, hj, howed⟩
    rcases hg.owed_cases ht.toDutiful howed with ⟨hji, h⟩ | ⟨-, h⟩
    · refine .inl ⟨j, ?_, h⟩
      by_contra hidle
      obtain ⟨u, hu⟩ := ht.idle j hidle
      rw [hu] at h
      contradiction
    · simp only [Cmd.incurs, Owed.store.injEq] at h
      exact .inr ⟨h.2.2.symm, h.1.symm, h.2.1.symm⟩
  · rintro (⟨j, hj, howed⟩ | ⟨rfl, rfl, rfl⟩)
    · refine ⟨j, hg.tasks_subset hj, ?_⟩
      have hji : j ≠ i := by
        rintro rfl
        rw [hg.owed_before] at howed
        contradiction
      rw [hg.task_ne hji]
      exact howed
    · refine ⟨i, hg.tasks_subset (ht.mem_tasks hg.before), ?_⟩
      rw [hg.owed_after ht.toDutiful]
      rfl

end Start

/-- A task is started. -/
theorem startPoll_step {t t' : Tasks} {i : TaskId} {reply : Reply} {b : BusRef} {x : String}
    {k : Except Exc (Option Nat) → Program Unit} {w : World} (ht : t.InRounds) (hb : t.Booked)
    (hg : Goes t t' i reply (.startPoll b x) (.ok (some t.shared.nextPoller)) k w)
    (hnone : (t.shared.polls b).get? x = none) (hw : w = { t.shared with
      pollers := Function.update t.shared.pollers t.shared.nextPoller (some (b, x)),
      nextPoller := t.shared.nextPoller + 1 }) :
    t'.Booked ∧ (t.Unique → (t'.Unique ↔
      ∀ m < t.shared.nextPoller, t.InHand m b x → ¬ t.Running m b x)) := by
  have hshared : t'.shared = w := by rw [hg.after]
  have hpolls : w.polls = t.shared.polls := by rw [hw]
  have hnext : w.nextPoller = t.shared.nextPoller + 1 := by rw [hw]
  have hnew : w.pollers t.shared.nextPoller = some (b, x) := by simp [hw]
  have hold : ∀ m, m ≠ t.shared.nextPoller → w.pollers m = t.shared.pollers m := by
    intro m hm
    simp [hw, Function.update_of_ne hm]
  have hrunning := hg.running_start ht hw
  have hhand := hg.inHand_start ht
  refine ⟨⟨fun b' x' m h => ?_, fun j b' x' m h => ?_, fun j j' b' x' b'' x'' m h h' => ?_⟩,
    fun hu => ⟨fun hu' m hm _ hrun => ?_, fun hfree => ⟨fun b' x' m m' hm hm' => ?_,
      fun b' x' m hm => ?_⟩⟩⟩
  · rw [hshared, hpolls] at h
    obtain ⟨hm, hname⟩ := hb.stored b' x' m h
    rw [hshared, hnext, hold m hm.ne]
    exact ⟨Nat.lt_succ_of_lt hm, hname⟩
  · rw [hshared, hnext, hpolls]
    rcases hg.owed_cases ht.toDutiful h with ⟨-, h⟩ | ⟨-, h⟩
    · obtain ⟨hm, hname, hnot⟩ := hb.inHand j b' x' m h
      rw [hold m hm.ne]
      exact ⟨Nat.lt_succ_of_lt hm, hname, hnot⟩
    · simp only [Cmd.incurs, Owed.store.injEq] at h
      obtain ⟨rfl, rfl, rfl⟩ := h
      refine ⟨Nat.lt_succ_self _, fun y hy => ?_, fun b' x' h => ?_⟩
      · rw [hnew, Option.mem_some_iff] at hy
        exact hy.symm
      · exact absurd (hb.stored b' x' _ h).1 (Nat.lt_irrefl _)
  · rcases hg.owed_cases ht.toDutiful h with ⟨-, h⟩ | ⟨hj, h⟩
    · rcases hg.owed_cases ht.toDutiful h' with ⟨-, h'⟩ | ⟨-, h'⟩
      · exact hb.once j j' b' x' b'' x'' m h h'
      · simp only [Cmd.incurs, Owed.store.injEq] at h'
        have := (hb.inHand j b' x' m h).1
        omega
    · rcases hg.owed_cases ht.toDutiful h' with ⟨-, h'⟩ | ⟨hj', -⟩
      · simp only [Cmd.incurs, Owed.store.injEq] at h
        have := (hb.inHand j' b'' x'' m h').1
        omega
      · exact hj.trans hj'.symm
  · -- the old task and the new one
    have h := hu'.single b x m t.shared.nextPoller ((hrunning m b x).mpr (.inl hrun))
      ((hrunning _ b x).mpr (.inr ⟨rfl, rfl, rfl⟩))
    omega
  · -- nothing has been running for this poll
    have hfree' : ∀ m, ¬ t.Running m b x := by
      intro m hrun
      rcases hu.known b x m hrun with hstored | hhand
      · rw [hnone] at hstored
        contradiction
      · exact hfree m (ht.lt_of_running hrun) hhand hrun
    rcases (hrunning m b' x').mp hm with hm | ⟨rfl, rfl, rfl⟩
    · rcases (hrunning m' b' x').mp hm' with hm' | ⟨rfl, rfl, rfl⟩
      · exact hu.single b' x' m m' hm hm'
      · exact absurd hm (hfree' m)
    · rcases (hrunning m' b' x').mp hm' with hm' | ⟨rfl, -, -⟩
      · exact absurd hm' (hfree' m')
      · rfl
  · rw [hshared, hpolls, hhand]
    rcases (hrunning m b' x').mp hm with hm | h
    · exact (hu.known b' x' m hm).imp_right .inl
    · exact .inr (.inr h)

/-- A task is stored. -/
theorem storePoll_step {t t' : Tasks} {i : TaskId} {reply : Reply} {b : BusRef} {x : String}
    {n : Nat} {u : Unit} {k : Except Exc Unit → Program Unit} {w : World} (ht : t.InRounds)
    (hb : t.Booked) (hg : Goes t t' i reply (.storePoll b x n) (.ok u) k w)
    (hw : w = { t.shared with
      polls := Function.update t.shared.polls b ((t.shared.polls b).set x n) }) :
    t'.Booked ∧ (t.Unique → (t'.Unique ↔
      ∀ m ∈ (t.shared.polls b).get? x, m ≠ n → ¬ t.Running m b x)) := by
  have hshared : t'.shared = w := by rw [hg.after]
  have hpollers : w.pollers = t.shared.pollers := by rw [hw]
  have hnext : w.nextPoller = t.shared.nextPoller := by rw [hw]
  have hpolls : ∀ b' x', (w.polls b').get? x' =
      if b' = b ∧ x' = x then some n else (t.shared.polls b').get? x' := by
    intro b' x'
    rw [hw]
    by_cases hbb : b' = b
    · subst hbb
      simp [Dict.get?_set]
    · simp [hbb]
  have hrunning : ∀ m b' x', t'.Running m b' x' ↔ t.Running m b' x' := by
    intro m b' x'
    rw [hg.running_iff ht trivial, hpollers, Running]
  have howed : ∀ j b' x' m, owed (t'.task j) = .store b' x' m →
      j ≠ i ∧ owed (t.task j) = .store b' x' m := by
    intro j b' x' m h
    rcases hg.owed_cases ht.toDutiful h with h | ⟨-, h⟩
    · exact h
    · contradiction
  have hhere : owed (t.task i) = .store b x n := hg.owed_before
  obtain ⟨hlt, hname, hnew⟩ := hb.inHand i b x n hhere
  refine ⟨⟨fun b' x' m h => ?_, fun j b' x' m h => ?_, fun j j' b' x' b'' x'' m h h' => ?_⟩,
    fun hu => ⟨fun hu' m hm hmn hrun => ?_, fun hfree => ⟨fun b' x' m m' hm hm' => ?_,
      fun b' x' m hm => ?_⟩⟩⟩
  · rw [hshared, hpolls] at h
    rw [hshared, hpollers, hnext]
    split at h
    · next heq =>
      rw [Option.some.injEq] at h
      rw [← h, heq.1, heq.2]
      exact ⟨hlt, hname⟩
    · exact hb.stored b' x' m h
  · obtain ⟨hji, h⟩ := howed j b' x' m h
    obtain ⟨hm, hmname, hnot⟩ := hb.inHand j b' x' m h
    rw [hshared, hpollers, hnext]
    refine ⟨hm, hmname, fun b'' x'' hst => ?_⟩
    rw [hpolls] at hst
    split at hst
    · rw [Option.some.injEq] at hst
      subst hst
      exact hji (hb.once j i b' x' b x n h hhere)
    · exact hnot b'' x'' hst
  · exact hb.once j j' b' x' b'' x'' m (howed j b' x' m h).2 (howed j' b'' x'' m h').2
  · -- the task that has been stored is out of reach
    rcases hu'.known b x m ((hrunning m b x).mpr hrun) with hst | ⟨j, -, h⟩
    · rw [hshared, hpolls, if_pos ⟨rfl, rfl⟩, Option.some.injEq] at hst
      exact hmn hst.symm
    · exact (hb.inHand j b x m (howed j b x m h).2).2.2 b x hm
  · exact hu.single b' x' m m' ((hrunning m b' x').mp hm) ((hrunning m' b' x').mp hm')
  · rw [hrunning] at hm
    rw [hshared, hpolls]
    rcases hu.known b' x' m hm with hst | ⟨j, hj, h⟩
    · refine .inl ?_
      split
      · next heq =>
        obtain ⟨rfl, rfl⟩ := heq
        by_cases hmn : m = n
        · rw [hmn]
        · exact absurd hm (hfree m hst hmn)
      · exact hst
    · by_cases hji : j = i
      · subst hji
        rw [hhere, Owed.store.injEq] at h
        obtain ⟨rfl, rfl, rfl⟩ := h
        rw [if_pos ⟨rfl, rfl⟩]
        exact .inl rfl
      · refine .inr ⟨j, hg.tasks_subset hj, ?_⟩
        rw [hg.task_ne hji]
        exact h

/-! ## All steps -/

/-- **One step**: the pollers are still unique behind it if and only if no call of
`update_poll` gets into another one's way. -/
theorem unique_step {t t' : Tasks} {a : Action} (ht : t.InRounds) (hb : t.Booked)
    (h : t.step a = some t') : t'.Booked ∧ (t.Unique → (t'.Unique ↔ t.Apart a)) := by
  have hcalm : Calm t t' → t.Apart a → t'.Booked ∧ (t.Unique → (t'.Unique ↔ t.Apart a)) :=
    fun hc ha => ⟨hc.booked hb, fun hu => ⟨fun _ => ha, fun _ => hc.unique hu⟩⟩
  have houter : a.Outer → t.Apart a := by
    intro ha
    cases a with
    | resume => exact ha.elim
    | _ => trivial
  rcases step_cases ht.pollers h with ⟨i, p, hs⟩ | ⟨ha, _, _, rfl⟩ | ⟨i, reply, c, r, k, w, rfl, hg⟩
  · exact hcalm (calm_starts ht.toDutiful hs) (houter hs.outer)
  · exact hcalm ⟨rfl, rfl, rfl, fun _ => id, fun _ => id, fun _ _ _ _ => Iff.rfl⟩ (houter ha)
  · have hhead : (t.task i).head = some c := by rw [hg.before]; rfl
    by_cases hc : World.IsPoll c
    · cases c with
      | stopPoll b x =>
          have hapart : t.Apart (.resume i reply) := by simp [Apart, hhead]
          have hspec := hg.outcome.post (World.stopPoll_spec reply b x t.shared)
          cases r with
          | ok u =>
              obtain ⟨n, hn, hw⟩ := hspec
              obtain ⟨hbooked, hunique⟩ := stopPoll_step ht hb hg hn hw
              exact ⟨hbooked, fun hu => ⟨fun _ => hapart, fun _ => hunique hu⟩⟩
          | error e =>
              refine hcalm (hg.calm ht.toDutiful ?_ ?_ ?_) hapart
              · exact hspec.1 ▸ World.samePolls_refl t.shared
              · exact fun _ _ _ h => Owed.noConfusion h
              · exact fun _ _ _ h => Owed.noConfusion h
      | startPoll b x =>
          have hapart : t.Apart (.resume i reply) ↔ ((t.shared.polls b).get? x = none →
              ∀ n < t.shared.nextPoller, t.InHand n b x → ¬ t.Running n b x) := by
            simp only [Apart, hhead]
          rcases hg.startPoll_cases with ⟨hsome, rfl, hw⟩ | ⟨hnone, rfl, hw⟩
          · refine hcalm (hg.calm ht.toDutiful ?_ ?_ ?_) (hapart.mpr fun h => absurd h hsome)
            · exact hw ▸ World.samePolls_refl t.shared
            · exact fun _ _ _ h => Owed.noConfusion h
            · exact fun _ _ _ h => Owed.noConfusion h
          · obtain ⟨hbooked, hunique⟩ := startPoll_step ht hb hg hnone hw
            refine ⟨hbooked, fun hu => (hunique hu).trans ?_⟩
            rw [hapart]
            exact ⟨fun h _ => h, fun h => h hnone⟩
      | storePoll b x n =>
          have hspec := hg.outcome.post (World.storePoll_spec reply b x n t.shared)
          cases r with
          | ok u =>
              obtain ⟨hbooked, hunique⟩ := storePoll_step ht hb hg hspec
              refine ⟨hbooked, fun hu => (hunique hu).trans ?_⟩
              simp only [Apart, hhead]
          | error e => exact hspec.elim
      | _ => exact hc.elim
    · refine hcalm (hg.calm ht.toDutiful ?_ ?_ ?_) ?_
      · exact hg.outcome.of_wp (R := fun _ => World.SamePolls t.shared)
          (World.samePolls_exec reply c hc t.shared)
      · intro b x n h
        exact hc (Cmd.isPoll_of_fulfils h)
      · intro b x n h
        exact hc (Cmd.startPoll_of_incurs h ▸ trivial)
      · rw [Apart, hhead]
        cases c with
        | startPoll | storePoll => exact absurd trivial hc
        | _ => trivial

/-! ## To the letter -/

/-- The same, where a task that has not been stored yet cannot be found. -/
structure Stored (t : Tasks) : Prop where
  single : ∀ b x n m, t.Running n b x → t.Running m b x → n = m
  stored : ∀ b x n, t.Running n b x → (t.shared.polls b).get? x = some n

/-- No task is started. -/
def StartsNone (t : Tasks) : Action → Prop
  | .resume i _ =>
    match (t.task i).head with
    | some (.startPoll b x) => (t.shared.polls b).get? x ≠ none
    | _ => True
  | _ => True

/-- Nobody has to store a task. -/
def Empty (t : Tasks) : Prop := ∀ i b x n, owed (t.task i) ≠ .store b x n

/-- Where nobody has a poller to store, none is in hand. -/
theorem Empty.not_inHand {t : Tasks} (h : t.Empty) (n : Nat) (b : BusRef) (x : String) :
    ¬ t.InHand n b x := fun ⟨i, _, howed⟩ => h i b x n howed

/-- Where nobody has a poller to store, all are stored if no item is polled twice. -/
theorem Empty.stored_iff {t : Tasks} (h : t.Empty) : t.Stored ↔ t.Unique :=
  ⟨fun ht => ⟨ht.single, fun b x n hn => .inl (ht.stored b x n hn)⟩,
    fun ht => ⟨ht.single, fun b x n hn => (ht.known b x n hn).resolve_right (h.not_inHand n b x)⟩⟩

/-- The first task that is started is not stored. -/
theorem stored_step {t t' : Tasks} {a : Action} (ht : t.InRounds) (hb : t.Booked) (he : t.Empty)
    (hst : t.Stored) (h : t.step a = some t') :
    (t.StartsNone a → t'.Empty ∧ t'.Stored) ∧ (t'.Stored → t.StartsNone a) := by
  have hunique := (unique_step ht hb h).2 (he.stored_iff.mp hst)
  have hhead : ∀ {i c k}, t.task i = .cmd c k → (t.task i).head = some c := fun h => by rw [h]; rfl
  constructor
  · intro hnone
    have hempty : t'.Empty := by
      intro j b x n hj
      rcases step_cases ht.pollers h with ⟨i, p, hs⟩ | ⟨-, _, _, rfl⟩ | ⟨i, reply, c, r, k, w, rfl, hg⟩
      · exact he j b x n (((calm_starts ht.toDutiful hs).owed j b x n).mp hj)
      · exact he j b x n hj
      · rcases hg.owed_cases ht.toDutiful hj with ⟨-, hj⟩ | ⟨-, hincurs⟩
        · exact he j b x n hj
        · obtain rfl := Cmd.startPoll_of_incurs hincurs
          rw [StartsNone, hhead hg.before] at hnone
          rcases hg.startPoll_cases with ⟨-, rfl, -⟩ | ⟨hget, -⟩
          · contradiction
          · exact hnone hget
    have hapart : t.Apart a := by
      cases a with
      | resume i reply =>
          rw [StartsNone] at hnone
          rw [Apart]
          split
          · next b x hstart =>
            rw [hstart] at hnone
            exact fun hget => absurd hget hnone
          · next b x n hstore =>
            exact absurd (by rw [owed, hstore]; rfl) (he i b x n)
          · trivial
      | _ => trivial
    exact ⟨hempty, hempty.stored_iff.mpr (hunique.mpr hapart)⟩
  · intro hst'
    cases a with
    | resume i reply =>
        rw [StartsNone]
        split
        · next b x hstart =>
          intro hget
          rcases step_cases ht.pollers h with ⟨i, p, hs⟩ | ⟨houter, -⟩ | ⟨j, reply', c, r, k, w, ha, hg⟩
          · exact hs.outer
          · exact houter
          · obtain ⟨rfl, rfl⟩ := (Action.resume.injEq ..).mp ha
            rw [hhead hg.before, Option.some.injEq] at hstart
            subst hstart
            rcases hg.startPoll_cases with ⟨hsome, -⟩ | ⟨-, rfl, hw⟩
            · exact hsome hget
            · have hnew := hst'.stored b x _ ((hg.running_start ht hw _ b x).mpr (.inr ⟨rfl, rfl, rfl⟩))
              rw [hg.after, hw] at hnew
              exact absurd (hget.symm.trans hnew) (by simp)
        · trivial
    | _ => trivial

/-! ## Runs -/

/-- **One step** keeps the books in order. -/
theorem inRounds_booked_step {t t' : Tasks} {a : Action} (ht : t.InRounds ∧ t.Booked)
    (h : t.step a = some t') : t'.InRounds ∧ t'.Booked :=
  ⟨inRounds_step ht.1 h, (unique_step ht.1 ht.2 h).1⟩

/-- **One poller for each poll**, which can be found, in all states of a run, if and
only if no `update_poll` starts or stores a task while the one that another has
started still runs.  If a task that is being stored is not taken as one that can be
found, this holds in no run that starts one. -/
theorem unique_iff_apart (as : List Action) :
    (AllStates step Unique init as ↔ AllSteps step Apart init as) ∧
    (AllStates step Stored init as ↔ AllSteps step StartsNone init as) := by
  constructor
  · exact allStates_iff_allSteps (I := fun t => t.InRounds ∧ t.Booked)
      (fun _ _ _ ht _ h => inRounds_booked_step ht h)
      (fun _ _ _ ht _ hu h => (unique_step ht.1 ht.2 h).2 hu) ⟨inRounds_init, booked_init⟩ unique_init
      (allSteps_true init as)
  · have hempty : init.Empty := fun _ _ _ _ h => Owed.noConfusion h
    refine allStates_iff_allSteps_of (I := fun t => (t.InRounds ∧ t.Booked) ∧ t.Empty)
      (fun t a t' ht _ hs hs' h => ?_) (fun t a t' ht _ hs h => ?_)
      ⟨⟨inRounds_init, booked_init⟩, hempty⟩ (hempty.stored_iff.mpr unique_init) (allSteps_true init as)
    · obtain ⟨hsafe, hnone⟩ := stored_step ht.1.1 ht.1.2 ht.2 hs h
      exact ⟨inRounds_booked_step ht.1 h, (hsafe (hnone hs')).1⟩
    · obtain ⟨hsafe, hnone⟩ := stored_step ht.1.1 ht.1.2 ht.2 hs h
      exact ⟨hnone, fun ha => (hsafe ha).2⟩

/-- Two calls of `set_polling_interval` at the same time: each has looked whether
there is a task before the other one stores its own. -/
def overlapping : List Action :=
  .scan false 0 oneOnBus :: go (.call 0) 13 ++
  .setPollingInterval 0 "temperature" 5 :: .setPollingInterval 0 "temperature" 6 ::
  go (.call 1) 3 ++ go (.call 2) 4 ++ go (.call 1) 1

/-- Both tasks run, and the second one cannot be found. -/
theorem not_unique_overlapping :
    (∃ t, run step init overlapping = some t ∧ t.Running 0 ⟨0, ["bus.0"]⟩ "temperature" ∧
      t.Running 1 ⟨0, ["bus.0"]⟩ "temperature" ∧ ¬ t.InHand 1 ⟨0, ["bus.0"]⟩ "temperature" ∧
      (t.shared.polls ⟨0, ["bus.0"]⟩).get? "temperature" = some 0) ∧
    ¬ AllStates step Unique init overlapping := by
  have hrun : (run step init overlapping).any (fun t =>
      t.Running 0 ⟨0, ["bus.0"]⟩ "temperature" ∧ t.Running 1 ⟨0, ["bus.0"]⟩ "temperature" ∧
      ¬ t.InHand 1 ⟨0, ["bus.0"]⟩ "temperature" ∧
      (t.shared.polls ⟨0, ["bus.0"]⟩).get? "temperature" = some 0) = true := by decide +kernel
  obtain ⟨t, ht, hboth⟩ := (Option.any_eq_true _ _).mp hrun
  have hboth := of_decide_eq_true hboth
  refine ⟨⟨t, ht, hboth⟩, fun hall => ?_⟩
  exact absurd ((hall.of_run ht).single _ _ 0 1 hboth.1 hboth.2.1) Nat.zero_ne_one

end Tasks

end AsyncOwfs
