import AsyncOwfs.Lib.Hoare
import AsyncOwfs.Lib.Transition
import AsyncOwfs.Struct

/-!
# AsyncOwfs.Struct.Ensure

`Service.ensure_struct`, called by any number of tasks for devices of one class.

The first task that finds the class not set up reads the structure.  Whoever comes
while it does so finds `_did_setup` neither true nor `False`: `ensure_struct` goes on
to `setup_struct`, which returns at once.
-/

namespace AsyncOwfs

namespace Struct

open Hoare Transition

/-- Where a call of `ensure_struct` stands. -/
inductive Progress
  /-- Nobody has made the call. -/
  | idle
  /-- In `setup_accessors`, with what is left of it. -/
  | setting (rest : List Cmd)
  | returned
  | raised (e : Exc)
  deriving DecidableEq, Repr

def Progress.IsSetting : Progress → Prop
  | setting _ => True
  | _ => False

/-- A class, and the calls about it.  These have numbers. -/
structure Loading where
  classes : Classes := {}
  call : Nat → Progress := fun _ => .idle
  next : Nat := 0
  loadStructs : Bool := true
  servers : List Nat

inductive Action
  /-- `ensure_struct`, with what the servers have to say. -/
  | ensure (server : Option Nat) (maybe : Bool) (tree : Tree)
  /-- The task goes on.  If it waits for a reply, it may fail, or be cancelled. -/
  | go (i : Nat) (fault : Option Exc)

namespace Loading

/-- `setup_struct`, up to its first request. -/
def setupStruct (c : Classes) (tree : Tree) : Classes × Progress :=
  if c.didSetup ≠ .no then (c, .returned)
  else ({ c with didSetup := .running }, .setting (setupAccessors tree []))

/-- `ensure_struct`, up to its first request. -/
def ensureStruct (s : Loading) (server : Option Nat) (maybe : Bool) (tree : Tree) :
    Classes × Progress :=
  if maybe ∧ s.loadStructs = false then (s.classes, .returned)
  else if s.classes.didSetup = .done then (s.classes, .returned)
  else
    match server with
    | some _ => setupStruct s.classes tree
    | none => if s.servers = [] then (s.classes, .returned) else setupStruct s.classes tree

def step (extra : List String → String → Bool) (s : Loading) : Action → Option Loading
  | .ensure server maybe tree =>
    let (classes, p) := s.ensureStruct server maybe tree
    some { s with classes, call := Function.update s.call s.next p, next := s.next + 1 }
  | .go i fault =>
    match s.call i with
    | .setting (c :: rest) =>
      match exec extra (fun _ => fault) c s.classes with
      | .error e classes =>
        -- `except BaseException`
        some { s with
          classes := { classes with didSetup := .no }, call := Function.update s.call i (.raised e) }
      | .ok _ classes =>
        if rest = [] then
          some { s with
            classes := { classes with didSetup := .done },
            call := Function.update s.call i .returned }
        else some { s with classes, call := Function.update s.call i (.setting rest) }
    | _ => none

/-- A service that loads structures, with at least one server. -/
def init (v : Nat) (vs : List Nat) : Loading := { servers := v :: vs }

/-- The class is set up when a call has returned normally. -/
def Complete (s : Loading) : Prop := ∀ i, s.call i = .returned → s.classes.didSetup = .done

/-- No two tasks are in `setup_accessors`. -/
def Alone (s : Loading) : Prop :=
  ∀ i j, (s.call i).IsSetting → (s.call j).IsSetting → i = j

/-- Calls are made only when no task is setting the class up. -/
def Apart (s : Loading) : Action → Prop
  | .ensure .. => ∀ i, ¬ (s.call i).IsSetting
  | .go .. => True

/-! ## Steps -/

/-- `_did_setup` says whether a task is setting the class up, and there is only one. -/
structure Guarded (s : Loading) : Prop where
  running : s.classes.didSetup = .running ↔ ∃ i, (s.call i).IsSetting
  alone : s.Alone
  fresh : ∀ i, s.next ≤ i → s.call i = .idle
  loads : s.loadStructs = true
  servers : s.servers ≠ []

/-- In the beginning nobody loads. -/
theorem guarded_init (v : Nat) (vs : List Nat) : (init v vs).Guarded := by
  have hno : (init v vs).classes.didSetup ≠ .running := fun h => nomatch h
  have hidle : ¬ ∃ i, ((init v vs).call i).IsSetting := fun ⟨_, h⟩ => h
  exact ⟨iff_of_false hno hidle, fun _ _ h => h.elim, fun _ _ => rfl, rfl, List.cons_ne_nil v vs⟩

/-- What comes of a call. -/
theorem ensureStruct_eq {s : Loading} (hs : s.Guarded) (server : Option Nat) (maybe : Bool)
    (tree : Tree) : s.ensureStruct server maybe tree = setupStruct s.classes tree := by
  have hdone : s.classes.didSetup = .done → setupStruct s.classes tree = (s.classes, .returned) := by
    intro h
    rw [setupStruct, if_pos (by simp [h])]
  have hloads : ¬ (maybe = true ∧ s.loadStructs = false) := by simp [hs.loads]
  simp only [ensureStruct, hloads, if_false]
  split
  · next h => exact (hdone h).symm
  · cases server with
    | some v => rfl
    | none => exact if_neg hs.servers

/-- The commands leave the state of the setup alone. -/
theorem exec_didSetup (extra : List String → String → Bool) (faults : Nat → Option Exc) (c : Cmd)
    (s : Classes) :
    wp (exec extra faults c) (fun _ s' => s'.didSetup = s.didSetup)
      (fun _ s' => s'.didSetup = s.didSetup) s := by
  cases c with
  | ask =>
      simp only [exec, wp_bind, wp_get, wp_set]
      split <;> rfl
  | reset p => rfl
  | subPath p d => rfl
  | file p d reply =>
      rw [exec]
      split <;> rfl

/-- One call has changed. -/
theorem isSetting_update {f : Nat → Progress} {i : Nat} {p : Progress} (j : Nat) :
    (Function.update f i p j).IsSetting ↔ j = i ∧ p.IsSetting ∨ j ≠ i ∧ (f j).IsSetting := by
  by_cases hj : j = i
  · subst hj
    simp
  · simp [hj]

/-- A call that has changed, but not to its end, leaves those that have returned. -/
theorem returned_of_update {f : Nat → Progress} {i j : Nat} {p : Progress} (hp : p ≠ .returned)
    (hj : Function.update f i p j = .returned) : f j = .returned := by
  by_cases hji : j = i
  · subst hji
    rw [Function.update_self] at hj
    exact absurd hj hp
  · rwa [Function.update_of_ne hji] at hj

/-- The call `i` has changed, and `_did_setup` fits. -/
theorem Guarded.update {s : Loading} (hs : s.Guarded) {i n : Nat} {p : Progress} {c : Classes}
    (hi : i < n) (hn : s.next ≤ n)
    (hother : p.IsSetting → ∀ j, (s.call j).IsSetting → j = i)
    (hrunning : c.didSetup = .running ↔ p.IsSetting ∨ ∃ j, j ≠ i ∧ (s.call j).IsSetting) :
    Guarded { s with classes := c, call := Function.update s.call i p, next := n } where
  running := by
    simp only [isSetting_update, hrunning]
    constructor
    · rintro (h | ⟨j, hj, h⟩)
      · exact ⟨i, .inl ⟨rfl, h⟩⟩
      · exact ⟨j, .inr ⟨hj, h⟩⟩
    · rintro ⟨j, ⟨-, h⟩ | ⟨hj, h⟩⟩
      · exact .inl h
      · exact .inr ⟨j, hj, h⟩
  alone j k hj hk := by
    rw [isSetting_update] at hj hk
    rcases hj with ⟨rfl, hp⟩ | ⟨hji, hj⟩
    · rcases hk with ⟨rfl, -⟩ | ⟨hki, hk⟩
      · rfl
      · exact absurd (hother hp k hk) hki
    · rcases hk with ⟨rfl, hp⟩ | ⟨-, hk⟩
      · exact absurd (hother hp j hj) hji
      · exact hs.alone j k hj hk
  fresh j hj := by
    have hne : j ≠ i := by
      dsimp only at hj
      omega
    dsimp only
    rw [Function.update_of_ne hne]
    exact hs.fresh j (hn.trans hj)
  loads := hs.loads
  servers := hs.servers

/-- Who has not called does not load. -/
theorem not_isSetting_next {s : Loading} (hs : s.Guarded) : ¬ (s.call s.next).IsSetting := by
  rw [hs.fresh s.next (Nat.le_refl _)]
  exact id

/-- A new call is none of those that load. -/
theorem isSetting_iff_ne_next {s : Loading} (hs : s.Guarded) :
    (∃ j, j ≠ s.next ∧ (s.call j).IsSetting) ↔ ∃ j, (s.call j).IsSetting := by
  refine exists_congr fun j => and_iff_right_of_imp ?_
  rintro h rfl
  exact not_isSetting_next hs h

/-- A call that returns at once. -/
theorem guarded_return {s : Loading} (hs : s.Guarded) :
    Guarded { s with
      call := Function.update s.call s.next .returned, next := s.next + 1 } := by
  refine hs.update (Nat.lt_succ_self _) (Nat.le_succ _) (fun h => h.elim) ?_
  rw [isSetting_iff_ne_next hs, hs.running]
  exact (or_iff_right id).symm

/-- **A new call** loads if nobody has, and nobody does. -/
theorem guarded_ensure {extra : List String → String → Bool} {s s' : Loading} (hs : s.Guarded)
    {server : Option Nat} {maybe : Bool} {tree : Tree}
    (h : s.step extra (.ensure server maybe tree) = some s') :
    s'.Guarded ∧ (s.Complete → (s'.Complete ↔ ∀ i, ¬ (s.call i).IsSetting)) := by
  rw [step, ensureStruct_eq hs, setupStruct] at h
  by_cases hno : s.classes.didSetup = .no
  · have hidle : ∀ i, ¬ (s.call i).IsSetting := by
      intro i hi
      have hrunning := hs.running.mpr ⟨i, hi⟩
      rw [hno] at hrunning
      contradiction
    rw [if_neg (not_not.mpr hno), Option.some.injEq] at h
    subst h
    refine ⟨hs.update (Nat.lt_succ_self _) (Nat.le_succ _) ?_ ?_, fun hcomplete => ?_⟩
    · exact fun _ j hj => absurd hj (hidle j)
    · exact iff_of_true rfl (.inl trivial)
    · refine iff_of_true (fun i hi => ?_) hidle
      -- nobody has returned before
      have hdone := hcomplete i (returned_of_update Progress.noConfusion hi)
      rw [hno] at hdone
      contradiction
  · rw [if_pos hno, Option.some.injEq] at h
    subst h
    refine ⟨guarded_return hs, fun hcomplete => ⟨fun h i hi => ?_, fun h i _ => ?_⟩⟩
    · have hdone := h s.next (Function.update_self ..)
      have hrunning := hs.running.mpr ⟨i, hi⟩
      rw [hrunning] at hdone
      contradiction
    · have hidle : s.classes.didSetup ≠ .running := fun hr => (hs.running.mp hr).elim h
      dsimp only
      cases hd : s.classes.didSetup with
      | no => exact absurd hd hno
      | running => exact absurd hd hidle
      | done => rfl

/-- **A call goes on**, and ends the loading or hands it on. -/
theorem guarded_go {extra : List String → String → Bool} {s s' : Loading} (hs : s.Guarded)
    {i : Nat} {fault : Option Exc} (h : s.step extra (.go i fault) = some s') :
    s'.Guarded ∧ (s.Complete → s'.Complete) := by
  rw [step] at h
  split at h
  · next c rest hcall =>
    have hi : (s.call i).IsSetting := by
      rw [hcall]
      trivial
    have hrunning := hs.running.mpr ⟨i, hi⟩
    have hnext : i < s.next := by
      by_contra hle
      rw [hs.fresh i (by omega)] at hi
      exact hi
    have honly : ∀ j, (s.call j).IsSetting → j = i := fun j hj => hs.alone j i hj hi
    have hnone : ¬ ∃ j, j ≠ i ∧ (s.call j).IsSetting := fun ⟨j, hji, hj⟩ => hji (honly j hj)
    have hnobody : s.Complete → ∀ j, s.call j ≠ .returned := by
      intro hcomplete j hj
      have hdone := hcomplete j hj
      rw [hrunning] at hdone
      contradiction
    have hflag := exec_didSetup extra (fun _ => fault) c s.classes
    split at h
    · next e classes hexec =>
      rw [Option.some.injEq] at h
      subst h
      refine ⟨hs.update (n := s.next) hnext (Nat.le_refl _) (fun h => h.elim) ?_, fun hcomplete j hj => ?_⟩
      · exact iff_of_false (fun h => nomatch h) (not_or.mpr ⟨id, hnone⟩)
      · exact absurd (returned_of_update Progress.noConfusion hj) (hnobody hcomplete j)
    · next u classes hexec =>
      split at h
      · rw [Option.some.injEq] at h
        subst h
        refine ⟨hs.update (n := s.next) hnext (Nat.le_refl _) (fun h => h.elim) ?_, fun _ _ _ => rfl⟩
        exact iff_of_false (fun h => nomatch h) (not_or.mpr ⟨id, hnone⟩)
      · rw [Option.some.injEq] at h
        subst h
        have hsame : classes.didSetup = .running := (wp_of_ok hflag hexec).trans hrunning
        refine ⟨hs.update (n := s.next) hnext (Nat.le_refl _) (fun _ => honly) ?_, fun hcomplete j hj => ?_⟩
        · exact iff_of_true hsame (.inl trivial)
        · exact absurd (returned_of_update Progress.noConfusion hj) (hnobody hcomplete j)
  · contradiction

/-- **One step**: one call loads at a time. -/
theorem guarded_step {extra : List String → String → Bool} {s s' : Loading} {a : Action}
    (hs : s.Guarded) (h : s.step extra a = some s') :
    s'.Guarded ∧ (s.Complete → (s'.Complete ↔ s.Apart a)) := by
  cases a with
  | ensure server maybe tree => exact guarded_ensure hs h
  | go i fault =>
      obtain ⟨hs', hcomplete⟩ := guarded_go hs h
      exact ⟨hs', fun hc => iff_of_true (hcomplete hc) trivial⟩

/-- **Loading** is complete whenever a call has returned if and only if no call is made while
a task is setting the class up; in any case no two tasks do so. -/
theorem complete_iff_apart (extra : List String → String → Bool) (v : Nat) (vs : List Nat)
    (as : List Action) :
    AllStates (step extra) Alone (init v vs) as ∧
      (AllStates (step extra) (fun s => s.Alone ∧ s.Complete) (init v vs) as ↔
        AllSteps (step extra) Apart (init v vs) as) := by
  have hinit := guarded_init v vs
  have hguarded : AllStates (step extra) Guarded (init v vs) as :=
    guarded_allStates (G := fun _ _ => True) (fun s a s' hs _ h => (guarded_step hs h).1) hinit
      (allSteps_true _ as)
  refine ⟨hguarded.imp fun s hs => hs.alone, ?_⟩
  refine allStates_iff_allSteps (I := Guarded) (H := fun _ _ => True)
    (fun s a s' hs _ h => (guarded_step hs h).1) (fun s a s' hs _ hp h => ?_) hinit
    ⟨hinit.alone, fun i hi => nomatch hi⟩ (allSteps_true _ as)
  obtain ⟨hs', hiff⟩ := guarded_step hs h
  rw [and_iff_right hs'.alone]
  exact hiff hp.2

/-- The second of two calls returns while the first one has asked for nothing yet. -/
theorem not_complete_second :
    ¬ AllStates (step fun _ _ => false) (fun s => s.Alone ∧ s.Complete) (init 0 [])
      [.ensure none false .nil, .ensure none false .nil] := by
  intro h
  have hlast := (h.2 _ rfl).2 _ rfl
  have hdone := hlast.2 1 rfl
  contradiction

end Loading

end Struct

end AsyncOwfs
