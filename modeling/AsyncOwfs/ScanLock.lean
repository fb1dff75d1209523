import AsyncOwfs.Lib.Transition
import Mathlib.Logic.Function.Basic

/-!
# AsyncOwfs.ScanLock

Who scans when: the background task `_scan` of a server, any number of calls of
`scan_now`, and the lock between them.

The lock is not re-entrant, and `_scan` calls `scan_now` with the lock in its
hands.  That call finds the lock taken, and waits for its own task to release it.
-/

namespace AsyncOwfs

/-- A task that uses the lock. -/
inductive ScanTask
  | background
  | caller (n : Nat)
  deriving DecidableEq, Repr

/-- Where a call of `scan_now` stands: waiting in the branch for a scan in
progress, holding the lock there, waiting in the other branch, in `_scan_base`. -/
inductive NowPc
  | wait
  | waited
  | acquire
  | base (k : Nat)
  deriving DecidableEq, Repr

/-- A call of `scan_now`. -/
structure ScanNow where
  pc : NowPc
  /-- What `_scan_lock.locked()` was not. -/
  foundFree : Bool
  /-- The scans that were in progress at the call. -/
  during : List Nat
  /-- How many scans this call has performed. -/
  scans : Nat := 0
  deriving Repr

/-- How far a call of `scan_now` is, and what it has seen. -/
def ScanNow.Consistent (c : ScanNow) : Prop :=
  match c.pc with
  | .wait | .waited => c.foundFree = false
  | .acquire => c.foundFree = true ∧ c.during = [] ∧ c.scans = 0
  | .base _ => c.foundFree = true ∧ c.during = [] ∧ c.scans = 1

/-- Where `_scan` stands. -/
inductive BackgroundPc
  | sleeping
  /-- `async with self._scan_lock` -/
  | acquiring
  /-- Holding the lock, in `scan_now`. -/
  | inside
  | ended
  deriving DecidableEq, Repr

/-- The state of the lock and of the tasks around it. -/
structure ScanLock where
  owner : Option ScanTask := none
  background : BackgroundPc := .sleeping
  /-- The call of `scan_now` that a task is in. -/
  call : ScanTask → Option ScanNow := fun _ => none
  nextCaller : Nat := 0
  nextScan : Nat := 0
  /-- The scans in progress. -/
  active : List Nat := []

namespace ScanLock

open Transition

inductive Action
  /-- The sleep of `_scan` is over. -/
  | wake
  /-- `_scan` gets the lock, and calls `scan_now`. -/
  | iterate
  /-- Some task calls `scan_now`. -/
  | enter
  /-- A task gets the lock that it waits for in `scan_now`. -/
  | acquire (t : ScanTask)
  /-- The lock is released, and `scan_now` returns. -/
  | leave (t : ScanTask)
  /-- The lock raises when its owner tries to acquire it, rather than block. -/
  | reacquireFails (t : ScanTask)
  deriving DecidableEq, Repr

/-- The beginning of `scan_now`, up to its first await. -/
def scanNow (s : ScanLock) : ScanNow :=
  if s.owner.isSome then { pc := .wait, foundFree := false, during := s.active }
  else { pc := .acquire, foundFree := true, during := s.active }

/-- The task releases the lock and goes on behind its `scan_now`; `repeats`
while `_scan` has an interval. -/
def release (repeats : Bool) (s : ScanLock) (t : ScanTask) : ScanLock :=
  { s with
    owner := none, call := Function.update s.call t none,
    background := if t = .background then if repeats then .sleeping else .ended else s.background }

/-- The effect of an action, where it is possible. -/
def step (repeats : Bool) (s : ScanLock) : Action → Option ScanLock
  | .wake => if s.background = .sleeping then some { s with background := .acquiring } else none
  | .iterate =>
    if s.background = .acquiring ∧ s.owner = none then
      let s := { s with owner := some .background, background := .inside }
      some { s with call := Function.update s.call .background (some s.scanNow) }
    else none
  | .enter =>
    some { s with
      call := Function.update s.call (.caller s.nextCaller) (some s.scanNow),
      nextCaller := s.nextCaller + 1 }
  | .acquire t =>
    match s.call t, s.owner with
    | some c, none =>
      match c.pc with
      | .wait =>
        some { s with
          owner := some t, call := Function.update s.call t (some { c with pc := .waited }) }
      | .acquire =>
        some { s with
          owner := some t, nextScan := s.nextScan + 1, active := s.nextScan :: s.active,
          call := Function.update s.call t
            (some { c with pc := .base s.nextScan, scans := c.scans + 1 }) }
      | .waited | .base _ => none
    | _, _ => none
  | .leave t =>
    match s.call t with
    | none => none
    | some c =>
      match c.pc with
      | .waited => some (s.release repeats t)
      | .base k => some { s.release repeats t with active := s.active.erase k }
      | .wait | .acquire => none
  | .reacquireFails t =>
    match s.call t with
    | none => none
    | some c =>
      if s.owner = some t ∧ (c.pc = .wait ∨ c.pc = .acquire) then some (s.release false t) else none

def init : ScanLock := {}

/-! ## What is asked of the lock -/

/-- At most one scan is in progress, and no task waits for a lock that it holds. -/
structure Safe (s : ScanLock) : Prop where
  single : s.active.length ≤ 1
  background : s.background = .acquiring → s.owner ≠ some .background
  call : ∀ t c, s.call t = some c → c.pc = .wait ∨ c.pc = .acquire → s.owner ≠ some t

/-- Who is done with `scan_now` has performed one scan, if it found the lock free
or is an iteration of `_scan`, and the scans that it found in progress are over. -/
def Performs (s : ScanLock) : Action → Prop
  | .leave t =>
    ∀ c, s.call t = some c →
      (c.foundFree = true ∨ t = .background → c.scans = 1) ∧ ∀ k ∈ c.during, k ∉ s.active
  | _ => True

/-- No iteration of `_scan` gets the lock. -/
def NoIteration (_ : ScanLock) (a : Action) : Prop := a ≠ .iterate

/-! ## The lock and its owner -/

/-- The owner of the lock is the one behind its `async with`: a caller of
`scan_now`, or an iteration of `_scan`, and that is stuck. -/
structure Owned (s : ScanLock) : Prop where
  free : s.owner = none → s.active = []
  held : ∀ t, s.owner = some t → ∃ c, s.call t = some c ∧
    (s.active = [] ∧ (c.pc = .waited ∨ t = .background) ∨ ∃ k, c.pc = .base k ∧ s.active = [k])
  owner : ∀ t c, s.call t = some c → c.pc = .waited ∨ (∃ k, c.pc = .base k) → s.owner = some t
  background : ∀ c, s.call .background = some c →
    c.pc = .wait ∧ s.owner = some .background ∧ s.background = .inside
  inside : s.background = .inside → ∃ c, s.call .background = some c
  consistent : ∀ t c, s.call t = some c → c.Consistent
  fresh : ∀ n, s.nextCaller ≤ n → s.call (.caller n) = none

/-- In the beginning the lock is free. -/
theorem owned_init : init.Owned := by
  constructor <;> simp [init]

/-- Who has been given the lock has it, and scans nothing yet. -/
theorem Owned.of_waited {s : ScanLock} (ho : s.Owned) {t : ScanTask} {c : ScanNow}
    (hc : s.call t = some c) (hpc : c.pc = .waited) : s.owner = some t ∧ s.active = [] := by
  have hown := ho.owner t c hc (.inl hpc)
  obtain ⟨c', hc', h⟩ := ho.held t hown
  have hsame : c' = c := by simpa [hc] using hc'.symm
  subst hsame
  rcases h with h | ⟨k, hk, -⟩
  · exact ⟨hown, h.1⟩
  · rw [hpc] at hk
    contradiction

/-- Who scans has the lock. -/
theorem Owned.of_base {s : ScanLock} (ho : s.Owned) {t : ScanTask} {c : ScanNow} {k : Nat}
    (hc : s.call t = some c) (hpc : c.pc = .base k) : s.owner = some t ∧ s.active = [k] := by
  have hown := ho.owner t c hc (.inr ⟨k, hpc⟩)
  obtain ⟨c', hc', h⟩ := ho.held t hown
  have hsame : c' = c := by simpa [hc] using hc'.symm
  subst hsame
  rcases h with ⟨-, h | h⟩ | ⟨k', hk', hactive⟩
  · rw [hpc] at h
    contradiction
  · subst h
    have hwait := (ho.background c' hc).1
    rw [hpc] at hwait
    contradiction
  · rw [hpc, NowPc.base.injEq] at hk'
    exact ⟨hown, hk' ▸ hactive⟩

/-- An iteration of `_scan` owns the lock and waits for it. -/
theorem scanNow_of_owned {s : ScanLock} {t : ScanTask} (h : s.owner = some t) :
    s.scanNow = { pc := .wait, foundFree := false, during := s.active } := by
  simp [scanNow, h]

/-- A new call finds the lock as it is. -/
theorem consistent_scanNow {s : ScanLock} (ho : s.Owned) : s.scanNow.Consistent := by
  rw [scanNow]
  cases h : s.owner with
  | none => simp [ScanNow.Consistent, ho.free h]
  | some t => simp [ScanNow.Consistent]

/-- A new call does not scan at once. -/
theorem pc_scanNow (s : ScanLock) :
    s.scanNow.pc ≠ .waited ∧ ∀ k, s.scanNow.pc ≠ .base k := by
  rw [scanNow]
  split <;> simp

/-- The task that owns the lock gives it back. -/
theorem owned_release (repeats : Bool) {s : ScanLock} {t : ScanTask} (ho : s.Owned)
    (hown : s.owner = some t) : Owned { s.release repeats t with active := [] } := by
  obtain ⟨hfree, hheld, howner, hback, hinside, hcons, hfresh⟩ := ho
  constructor <;> simp only [release, Function.update_apply] <;> grind

/-- **One step**: only the owner of the lock scans. -/
theorem owned_step {repeats : Bool} {s s' : ScanLock} {a : Action} (ho : s.Owned)
    (h : s.step repeats a = some s') : s'.Owned := by
  cases a <;> simp only [step] at h
  case wake =>
    obtain ⟨hfree, hheld, howner, hback, hinside, hcons, hfresh⟩ := ho
    split at h
    · injection h with h; subst h
      constructor <;> grind
    · contradiction
  case iterate =>
    split at h
    · next hg =>
        injection h with h; subst h
        have hactive := ho.free hg.2
        obtain ⟨hfree, hheld, howner, hback, hinside, hcons, hfresh⟩ := ho
        rw [scanNow_of_owned rfl]
        constructor <;> simp only [Function.update_apply, hactive]
        case held =>
          intro t ht
          injection ht with ht; subst ht
          exact ⟨_, if_pos rfl, .inl ⟨trivial, .inr rfl⟩⟩
        all_goals grind [ScanNow.Consistent]
    · contradiction
  case enter =>
    injection h with h; subst h
    have hcons' := consistent_scanNow ho
    have hpc := pc_scanNow s
    obtain ⟨hfree, hheld, howner, hback, hinside, hcons, hfresh⟩ := ho
    constructor <;> simp only [Function.update_apply] <;> grind
  case acquire t =>
    split at h
    · next c hc hown =>
        have hactive := ho.free hown
        have hct := ho.consistent t c hc
        obtain ⟨hfree, hheld, howner, hback, hinside, hcons, hfresh⟩ := ho
        split at h
        · injection h with h; subst h
          constructor <;> simp only [Function.update_apply] <;> grind [ScanNow.Consistent]
        · injection h with h; subst h
          constructor <;> simp only [Function.update_apply]
          case held =>
            intro t' ht
            injection ht with ht; subst ht
            exact ⟨_, if_pos rfl, .inr ⟨_, rfl, by rw [hactive]⟩⟩
          all_goals grind [ScanNow.Consistent]
        · contradiction
        · contradiction
    · contradiction
  case leave t =>
    split at h
    · contradiction
    · next c hc =>
        split at h
        · next hpc =>
            obtain ⟨hown, hactive⟩ := ho.of_waited hc hpc
            have hr := owned_release repeats ho hown
            injection h with h; subst h
            simpa only [release, hactive] using hr
        · next k hpc =>
            obtain ⟨hown, hactive⟩ := ho.of_base hc hpc
            have hr := owned_release repeats ho hown
            injection h with h; subst h
            simpa [hactive] using hr
        · contradiction
        · contradiction
  case reacquireFails t =>
    split at h
    · contradiction
    · next c hc =>
        split at h
        · next hg =>
            -- only an iteration of `_scan` waits for a lock that it owns
            obtain ⟨c', hc', hheld⟩ := ho.held t hg.1
            have hsame : c' = c := by simpa [hc] using hc'.symm
            have hactive : s.active = [] := by grind
            have hr := owned_release false ho hg.1
            injection h with h; subst h
            simpa only [release, hactive] using hr
        · contradiction

/-! ## Whole runs -/

/-- Only an iteration of `_scan` waits for a lock that it holds. -/
theorem safe_iff {s : ScanLock} (ho : s.Owned) : s.Safe ↔ s.background ≠ .inside := by
  constructor
  · intro hs hin
    obtain ⟨c, hc⟩ := ho.inside hin
    obtain ⟨hpc, hown, -⟩ := ho.background c hc
    exact hs.call .background c hc (.inl hpc) hown
  · intro hout
    constructor
    · cases hown : s.owner with
      | none => simp [ho.free hown]
      | some t =>
          obtain ⟨c, -, ⟨h, -⟩ | ⟨k, -, h⟩⟩ := ho.held t hown <;> simp [h]
    · intro _ hown
      obtain ⟨c, hc, -⟩ := ho.held .background hown
      exact hout (ho.background c hc).2.2
    · intro t c hc hpc hown
      obtain ⟨c', hc', h⟩ := ho.held t hown
      have hsame : c' = c := by simpa [hc] using hc'.symm
      subst hsame
      rcases h with ⟨-, h | h⟩ | ⟨k, h, -⟩
      · grind
      · subst h
        exact hout (ho.background c' hc).2.2
      · grind

/-- The lock is safe until an iteration of `_scan` gets it. -/
theorem safe_step {repeats : Bool} {s s' : ScanLock} {a : Action} (ho : s.Owned) (hs : s.Safe)
    (h : s.step repeats a = some s') : s'.Safe ↔ NoIteration s a := by
  have hout := (safe_iff ho).mp hs
  rw [safe_iff (owned_step ho h), NoIteration]
  cases a <;> simp only [step] at h <;> grind [release]

/-- What is scanned is scanned for a call. -/
theorem performs_of_owned {repeats : Bool} {s s' : ScanLock} {a : Action} (ho : s.Owned)
    (h : s.step repeats a = some s') : Performs s a := by
  cases a
  case leave t =>
    intro c hc
    have hcons := ho.consistent t c hc
    simp only [step, hc] at h
    cases hpc : c.pc with
    | wait | acquire => simp only [hpc, reduceCtorEq] at h
    | waited =>
        have hactive := (ho.of_waited hc hpc).2
        have hcaller : t ≠ .background := by
          rintro rfl
          have hwait := (ho.background c hc).1
          rw [hpc] at hwait
          contradiction
        simp only [ScanNow.Consistent, hpc] at hcons
        simp [hcons, hcaller, hactive]
    | base k =>
        simp only [ScanNow.Consistent, hpc] at hcons
        simp [hcons]
  all_goals trivial

/-- **At most one scan at a time, and no task waits for itself**, in every state
of a run, exactly when no iteration of `_scan` gets the lock in it; whoever is
done with `scan_now` has scanned, or waited for the scan in progress. -/
theorem safe_iff_noIteration (repeats : Bool) (as : List Action) :
    (AllStates (step repeats) Safe init as ∧ AllSteps (step repeats) Performs init as) ↔
      AllSteps (step repeats) NoIteration init as := by
  have hsafe : AllStates (step repeats) Safe init as ↔ AllSteps (step repeats) NoIteration init as :=
    allStates_iff_allSteps (H := fun _ _ => True) (fun _ _ _ ho _ h => owned_step ho h)
      (fun _ _ _ ho _ hs h => safe_step ho hs h) owned_init
      ((safe_iff owned_init).mpr (by decide)) (allSteps_true _ _)
  have hperforms : AllSteps (step repeats) Performs init as := by
    have hiff : AllSteps (step repeats) Performs init as ↔
        AllSteps (step repeats) (fun _ _ => True) init as :=
      allSteps_congr (fun _ _ _ ho h => owned_step ho h)
        (fun _ _ _ ho h => iff_of_true (performs_of_owned ho h) trivial) owned_init
    exact hiff.mpr (allSteps_true _ _)
  rw [hsafe]
  exact and_iff_left hperforms

/-- The first iteration of `_scan` waits for the lock that it holds. -/
theorem not_safe_iterate :
    ∃ s, run (step true) init [.wake, .iterate] = some s ∧ s.owner = some .background ∧
      (s.call .background).map ScanNow.pc = some .wait ∧ ¬ s.Safe := by
  refine ⟨_, rfl, rfl, rfl, fun hs => ?_⟩
  exact hs.call .background _ rfl (.inl rfl) rfl

/-- **One step** inside the background scan leads nowhere. -/
theorem stuck_step {repeats : Bool} {s s' : ScanLock} {a : Action} (ho : s.Owned)
    (hin : s.background = .inside) (hblocks : ∀ t, a ≠ .reacquireFails t)
    (h : s.step repeats a = some s') : s'.background = .inside ∧ s'.nextScan = s.nextScan := by
  obtain ⟨c, hc⟩ := ho.inside hin
  obtain ⟨hpc, hown, -⟩ := ho.background c hc
  cases a <;> simp only [step, hin, hown, reduceCtorEq, false_and, if_false] at h
  case enter =>
    injection h with h; subst h
    exact ⟨rfl, rfl⟩
  case acquire t => cases hct : s.call t <;> simp [hct] at h
  case leave t =>
    -- who could leave owns the lock, but its owner waits
    cases hct : s.call t with
    | none => simp [hct] at h
    | some c' =>
        have hnot : ¬ (c'.pc = .waited ∨ ∃ k, c'.pc = .base k) := by
          intro hbehind
          have ht := ho.owner t c' hct hbehind
          grind
        cases hpc' : c'.pc <;> simp [hct, hpc'] at h hnot
  case reacquireFails t => exact absurd rfl (hblocks t)

/-- From then on no scan is made any more, with a lock that blocks. -/
theorem stuck_run {repeats : Bool} {s s' : ScanLock} {as : List Action} (ho : s.Owned)
    (hin : s.background = .inside) (hblocks : ∀ a ∈ as, ∀ t, a ≠ .reacquireFails t)
    (h : run (step repeats) s as = some s') : s'.nextScan = s.nextScan := by
  induction as generalizing s with
  | nil =>
      rw [run_nil, Option.some.injEq] at h
      rw [h]
  | cons a as ih =>
      obtain ⟨t, ht, h'⟩ := run_cons h
      obtain ⟨hin', hnext⟩ := stuck_step ho hin (hblocks a List.mem_cons_self) ht
      have hblocks' := fun b hb => hblocks b (List.mem_cons_of_mem a hb)
      rw [ih (owned_step ho ht) hin' hblocks' h', hnext]

end ScanLock

end AsyncOwfs
