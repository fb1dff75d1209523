import AsyncOwfs.Lib.Transition
import Mathlib.Data.Finset.Insert
import Mathlib.Data.Finset.Erase
import Mathlib.Logic.Function.Basic

/-!
# AsyncOwfs.AddTask

`Service.add_task`, the tasks that it starts, and the set of scopes by which
`__aexit__` cancels them.

A call hands the task over to the nursery and waits for its scope, which it then
puts into the set; the task takes its scope out of the set when it ends.  The two
may come in either order, and a caller that is cancelled while it waits does not
come to its part at all.  An action is what one task does between two of its
awaits.
-/

namespace AsyncOwfs

open Transition

namespace AddTask

/-- Where a call of `add_task` stands. -/
inductive Call
  /-- `await val.get()` -/
  | waiting
  | returned
  /-- Its caller has been cancelled. -/
  | cancelled
  deriving DecidableEq, Repr

/-- Where a `_add_task` stands. -/
inductive Pc
  /-- The nursery has it, but it has not run yet. -/
  | spawned
  /-- `await val.set(scope)`, before the event is set -/
  | announcing
  /-- `await val.set(scope)`, when the event has been set -/
  | announced
  /-- `await proc(*args)` -/
  | running
  | ended
  deriving DecidableEq, Repr

/-- The tasks that the service has been asked to run, by number.  A scope has the number
of its task. -/
structure State where
  next : Nat := 0
  call : Nat → Call := fun _ => .returned
  pc : Nat → Pc := fun _ => .ended
  /-- The event of `val`. -/
  event : Nat → Bool := fun _ => false
  /-- `_tasks` -/
  tasks : Finset Nat := ∅

/-- One step of one task. -/
inductive Action
  /-- `add_task`, up to its wait. -/
  | addTask
  /-- The caller goes on with the scope. -/
  | resume (i : Nat)
  /-- The caller is cancelled while it waits. -/
  | giveUp (i : Nat)
  /-- The task opens its scope. -/
  | begin (i : Nat)
  /-- The event is set. -/
  | announce (i : Nat)
  /-- `val.set` returns. -/
  | enter (i : Nat)
  /-- `proc` returns, raises, or is cancelled. -/
  | finish (i : Nat)
  /-- The task is cancelled before it gets to `proc`. -/
  | abort (i : Nat)
  deriving DecidableEq, Repr

namespace State

def at' (s : State) (i : Nat) (pc : Pc) : State := { s with pc := Function.update s.pc i pc }

/-- The task has not come to its end. -/
def Alive (s : State) (i : Nat) : Prop := s.pc i ≠ .ended

instance (s : State) (i : Nat) : Decidable (s.Alive i) := inferInstanceAs (Decidable (_ ≠ _))

def step (s : State) : Action → Option State
  | .addTask =>
    some { s with
      next := s.next + 1, call := Function.update s.call s.next .waiting,
      pc := Function.update s.pc s.next .spawned, event := Function.update s.event s.next false }
  | .resume i =>
    if i < s.next ∧ s.call i = .waiting ∧ s.event i then
      some { s with call := Function.update s.call i .returned, tasks := insert i s.tasks }
    else none
  | .giveUp i =>
    if i < s.next ∧ s.call i = .waiting then
      some { s with call := Function.update s.call i .cancelled }
    else none
  | .begin i => if i < s.next ∧ s.pc i = .spawned then some (s.at' i .announcing) else none
  | .announce i =>
    if i < s.next ∧ s.pc i = .announcing then
      some { s.at' i .announced with event := Function.update s.event i true }
    else none
  | .enter i => if i < s.next ∧ s.pc i = .announced then some (s.at' i .running) else none
  | .finish i =>
    -- `self._tasks.remove(scope)`, and no matter if it is not there
    if i < s.next ∧ s.pc i = .running then some { s.at' i .ended with tasks := s.tasks.erase i }
    else none
  | .abort i =>
    if i < s.next ∧ s.pc i ∈ [.spawned, .announcing, .announced] then some (s.at' i .ended)
    else none

def init : State := {}

/-- What `__aexit__` cancels. -/
def aexit (s : State) : Finset Nat := s.tasks

/-- No call of `add_task` is in progress. -/
def Quiet (s : State) : Prop := ∀ i < s.next, s.call i ≠ .waiting

/-- The set has the scopes of those tasks that run. -/
def Exact (s : State) : Prop := ∀ i < s.next, i ∈ s.tasks ↔ s.Alive i

/-- The same of every single task whose call is over. -/
def Settled (s : State) : Prop :=
  ∀ i < s.next, s.call i ≠ .waiting → (i ∈ s.tasks ↔ s.Alive i)

theorem Settled.exact {s : State} (h : s.Settled) (hq : s.Quiet) : s.Exact :=
  fun i hi => h i hi (hq i hi)

/-- The caller takes the scope of a task that runs, and does not go without it; and no
task is cancelled in `val.set` when its scope has been taken. -/
def Fair (s : State) : Action → Prop
  | .resume i => s.Alive i
  | .giveUp i => ¬ s.Alive i
  | .abort i => s.call i = .waiting
  | _ => True

instance (s : State) : Decidable s.Quiet := inferInstanceAs (Decidable (∀ i < s.next, _))

instance (s : State) : (a : Action) → Decidable (s.Fair a)
  | .resume i => inferInstanceAs (Decidable (s.Alive i))
  | .giveUp i => inferInstanceAs (Decidable (¬ s.Alive i))
  | .abort i => inferInstanceAs (Decidable (s.call i = .waiting))
  | .addTask | .begin _ | .announce _ | .enter _ | .finish _ => instDecidableTrue

/-! ## Steps -/

/-- A scope is not in the set before the call is over. -/
structure Tidy (s : State) : Prop where
  waiting : ∀ i, s.call i = .waiting → i ∉ s.tasks
  fresh : ∀ i ∈ s.tasks, i < s.next

theorem tidy_init : init.Tidy := ⟨fun _ h => by contradiction, fun _ h => by contradiction⟩

theorem settled_init : init.Settled := fun _ h => by contradiction

theorem tidy_step {s s' : State} {a : Action} (hs : s.Tidy) (h : s.step a = some s') : s'.Tidy := by
  cases a with
  | addTask =>
      rw [step, Option.some.injEq] at h
      subst h
      refine ⟨fun i hi hmem => ?_, fun i hi => Nat.lt_succ_of_lt (hs.fresh i hi)⟩
      by_cases hn : i = s.next
      · exact absurd (hs.fresh i hmem) (by omega)
      · simp only [Function.update_of_ne hn] at hi
        exact hs.waiting i hi hmem
  | resume j =>
      simp only [step, Option.ite_none_right_eq_some, Option.some.injEq] at h
      obtain ⟨⟨hlt, -, -⟩, rfl⟩ := h
      refine ⟨fun i hi hmem => ?_, fun i hi => ?_⟩
      · by_cases hij : i = j
        · simp [hij] at hi
        · simp only [Function.update_of_ne hij] at hi
          exact hs.waiting i hi (Finset.mem_of_mem_insert_of_ne hmem hij)
      · rcases Finset.mem_insert.mp hi with rfl | hi
        · exact hlt
        · exact hs.fresh i hi
  | giveUp j =>
      simp only [step, Option.ite_none_right_eq_some, Option.some.injEq] at h
      obtain ⟨-, rfl⟩ := h
      refine ⟨fun i hi hmem => ?_, hs.fresh⟩
      by_cases hij : i = j
      · simp [hij] at hi
      · simp only [Function.update_of_ne hij] at hi
        exact hs.waiting i hi hmem
  | finish j =>
      simp only [step, Option.ite_none_right_eq_some, Option.some.injEq] at h
      obtain ⟨-, rfl⟩ := h
      exact ⟨fun i hi hmem => hs.waiting i hi (Finset.mem_of_mem_erase hmem),
        fun i hi => hs.fresh i (Finset.mem_of_mem_erase hi)⟩
  | begin j | announce j | enter j | abort j =>
      simp only [step, Option.ite_none_right_eq_some, Option.some.injEq] at h
      obtain ⟨-, rfl⟩ := h
      exact ⟨hs.waiting, hs.fresh⟩

/-- A step that is about one task leaves the others settled. -/
theorem settled_iff {s s' : State} {j : Nat} (hs : s.Settled) (hj : j < s'.next)
    (hother : ∀ i < s'.next, i ≠ j → i < s.next ∧ s'.call i = s.call i ∧
      (i ∈ s'.tasks ↔ i ∈ s.tasks) ∧ s'.pc i = s.pc i) :
    s'.Settled ↔ (s'.call j ≠ .waiting → (j ∈ s'.tasks ↔ s'.Alive j)) := by
  constructor
  · exact fun h => h j hj
  · intro h i hi hcall
    by_cases hij : i = j
    · rw [hij] at hcall ⊢
      exact h hcall
    · obtain ⟨hlt, hc, ht, hpc⟩ := hother i hi hij
      rw [ht, Alive, hpc]
      exact hs i hlt (hc ▸ hcall)

/-- **One step** keeps the set in order if and only if it is fair. -/
theorem settled_step {s s' : State} {a : Action} (ht : s.Tidy) (hs : s.Settled)
    (h : s.step a = some s') : s'.Settled ↔ s.Fair a := by
  cases a with
  | addTask =>
      rw [step, Option.some.injEq] at h
      subst h
      refine (settled_iff (j := s.next) hs (Nat.lt_succ_self _) fun i hi hne => ?_).trans ?_
      · exact ⟨Nat.lt_of_le_of_ne (Nat.le_of_lt_succ hi) hne, Function.update_of_ne hne ..,
          Iff.rfl, Function.update_of_ne hne ..⟩
      · simp [Fair]
  | resume j =>
      simp only [step, Option.ite_none_right_eq_some, Option.some.injEq] at h
      obtain ⟨⟨hlt, -, -⟩, rfl⟩ := h
      refine (settled_iff (j := j) hs (by exact hlt) fun i hi hne => ?_).trans ?_
      · exact ⟨hi, Function.update_of_ne hne .., by simp [hne], rfl⟩
      · simp [Fair, Alive]
  | giveUp j =>
      simp only [step, Option.ite_none_right_eq_some, Option.some.injEq] at h
      obtain ⟨⟨hlt, hcall⟩, rfl⟩ := h
      refine (settled_iff (j := j) hs (by exact hlt) fun i hi hne => ?_).trans ?_
      · exact ⟨hi, Function.update_of_ne hne .., Iff.rfl, rfl⟩
      · simp [Fair, Alive, ht.waiting j hcall]
  | begin j | announce j | enter j =>
      simp only [step, Option.ite_none_right_eq_some, Option.some.injEq] at h
      obtain ⟨⟨hlt, hpc⟩, rfl⟩ := h
      refine (settled_iff (j := j) hs (by exact hlt) fun i hi hne => ?_).trans ?_
      · exact ⟨hi, rfl, Iff.rfl, Function.update_of_ne hne ..⟩
      · have hold := hs j hlt
        simp only [Alive, hpc] at hold
        simpa [Fair, Alive, at'] using hold
  | finish j =>
      simp only [step, Option.ite_none_right_eq_some, Option.some.injEq] at h
      obtain ⟨⟨hlt, hpc⟩, rfl⟩ := h
      refine (settled_iff (j := j) hs (by exact hlt) fun i hi hne => ?_).trans ?_
      · exact ⟨hi, rfl, by simp [hne], Function.update_of_ne hne ..⟩
      · simp [Fair, Alive, at']
  | abort j =>
      simp only [step, Option.ite_none_right_eq_some, Option.some.injEq] at h
      obtain ⟨⟨hlt, hpc⟩, rfl⟩ := h
      refine (settled_iff (j := j) hs (by exact hlt) fun i hi hne => ?_).trans ?_
      · exact ⟨hi, rfl, Iff.rfl, Function.update_of_ne hne ..⟩
      · have halive : s.Alive j := by
          intro hended
          rw [hended] at hpc
          contradiction
        have hold := hs j hlt
        simp only [halive, iff_true] at hold
        have hnot : ¬ (s.at' j .ended).Alive j := by simp [Alive, at']
        constructor
        · intro hnew
          by_contra hcall
          exact hnot ((hnew hcall).mp (hold hcall))
        · exact fun hcall hnew => absurd hcall hnew

/-! ## Runs -/

/-- **The set is in order**: as long as all steps are fair, and no longer, for each task
whose call is over; so it is exact whenever no call is in progress, and `__aexit__`
cancels what runs. -/
theorem settled_iff_fair (as : List Action) :
    (AllStates step Settled init as ↔ AllSteps step Fair init as) ∧
      (AllSteps step Fair init as → AllStates step
        (fun s => s.Quiet → s.Exact ∧ ∀ i < s.next, s.Alive i → i ∈ s.aexit) init as) := by
  have hiff : AllStates step Settled init as ↔ AllSteps step Fair init as :=
    allStates_iff_allSteps (I := Tidy) (H := fun _ _ => True) (fun _ _ _ hs _ => tidy_step hs)
      (fun _ _ _ hs _ => settled_step hs) tidy_init settled_init (allSteps_true _ as)
  refine ⟨hiff, fun h => (hiff.mpr h).imp fun s hs hq => ?_⟩
  have hexact := hs.exact hq
  exact ⟨hexact, fun i hi halive => (hexact i hi).mpr halive⟩

/-- The task ends before its caller goes on. -/
def endsEarly : List Action :=
  [.addTask, .begin 0, .announce 0, .enter 0, .finish 0, .resume 0]

/-- The caller is cancelled, and the task runs. -/
def abandoned : List Action := [.addTask, .begin 0, .announce 0, .giveUp 0, .enter 0]

/-- The scope of a task that has ended stays in the set; the one of a task that runs is
not in it. -/
theorem not_exact :
    (∃ s, run step init endsEarly = some s ∧ s.Quiet ∧ 0 ∈ s.tasks ∧ ¬ s.Alive 0) ∧
    (∃ s, run step init abandoned = some s ∧ s.Quiet ∧ 0 ∉ s.aexit ∧ s.Alive 0) ∧
    ¬ AllStates step (fun s => s.Quiet → s.Exact) init endsEarly ∧
    ¬ AllStates step (fun s => s.Quiet → s.Exact) init abandoned := by
  have hearly : (run step init endsEarly).any (fun s =>
      s.Quiet ∧ 0 < s.next ∧ 0 ∈ s.tasks ∧ ¬ s.Alive 0) = true := by decide +kernel
  have hleft : (run step init abandoned).any (fun s =>
      s.Quiet ∧ 0 < s.next ∧ 0 ∉ s.aexit ∧ s.Alive 0) = true := by decide +kernel
  obtain ⟨s, hs, hearly⟩ := (Option.any_eq_true _ _).mp hearly
  obtain ⟨t, ht, hleft⟩ := (Option.any_eq_true _ _).mp hleft
  obtain ⟨hsq, hsn, hsmem, hsdead⟩ := of_decide_eq_true hearly
  obtain ⟨htq, htn, htmem, htalive⟩ := of_decide_eq_true hleft
  refine ⟨⟨s, hs, hsq, hsmem, hsdead⟩, ⟨t, ht, htq, htmem, htalive⟩, fun hall => ?_, fun hall => ?_⟩
  · exact hsdead ((hall.of_run hs hsq 0 hsn).mp hsmem)
  · exact htmem ((hall.of_run ht htq 0 htn).mpr htalive)

end State

end AddTask

end AsyncOwfs
