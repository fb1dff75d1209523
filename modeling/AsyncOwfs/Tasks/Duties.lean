import AsyncOwfs.Tasks.Commands
import Mathlib.Data.Nat.Find

/-!
# AsyncOwfs.Tasks.Duties

What a task owes: it has changed something, and will say so, or store it, in its
next step.

Devices are registered, deleted, located and lost before the event about it is pushed,
and `update_poll` starts a task before it stores it.  In every program the duty is
fulfilled by the very next command, and nothing else is done in between; so what a
task owes can be read off what it does next.
-/

namespace AsyncOwfs

inductive Owed
  | nothing
  | added (r : Nat)
  | deleted (r : Nat)
  | located (r : Nat)
  | gone (r : Nat)
  | store (b : BusRef) (x : String) (n : Nat)
  deriving DecidableEq, Repr

/-- What a command fulfils. -/
def Cmd.fulfils : Cmd → Owed
  | push (.deviceAdded r) => .added r
  | push (.deviceDeleted r) => .deleted r
  | push (.deviceLocated r) => .located r
  | push (.deviceNotFound r) => .gone r
  | storePoll b x n => .store b x n
  | _ => .nothing

/-- What a command that has ended leaves to be done. -/
def Cmd.incurs : (c : Cmd) → Except Exc c.Ret → Owed
  | getDevice _, .ok (r, true) => .added r
  | deleteDevice r, .ok _ => .deleted r
  | assign _ r, .ok true => .located r
  | unlocate _ r, .ok true => .gone r
  | startPoll b x, .ok (some n) => .store b x n
  | _, _ => .nothing

/-- Only the commands for pollers store one. -/
theorem Cmd.isPoll_of_fulfils {c : Cmd} {b : BusRef} {x : String} {n : Nat}
    (h : c.fulfils = .store b x n) : World.IsPoll c := by
  cases c with
  | push e => cases e <;> contradiction
  | storePoll => trivial
  | _ => contradiction

/-- Only a task that has been started is to be stored. -/
theorem Cmd.startPoll_of_incurs {c : Cmd} {r : Except Exc c.Ret} {b : BusRef} {x : String} {n : Nat}
    (h : c.incurs r = .store b x n) : c = .startPoll b x := by
  cases c with
  | getDevice id =>
      rcases r with e | ⟨r', new⟩
      · contradiction
      · cases new <;> contradiction
  | deleteDevice r' => cases r <;> contradiction
  | assign b' r' | unlocate b' r' =>
      rcases r with e | here
      · contradiction
      · cases here <;> contradiction
  | startPoll b' x' =>
      rcases r with e | started
      · contradiction
      · cases started with
        | none => contradiction
        | some m =>
            simp only [incurs, Owed.store.injEq] at h
            rw [h.1, h.2.1]
  | _ => contradiction

namespace Program

open Prog hiding perform

def owed (p : Program α) : Owed := p.head.elim .nothing Cmd.fulfils

@[simp] theorem owed_done (a : α) : owed (.done a) = .nothing := rfl

/-- Who is about to do something owes what it fulfils. -/
@[simp] theorem owed_cmd (c : Cmd) (k : Except Exc c.Ret → Program α) :
    owed (.cmd c k) = c.fulfils := rfl

/-- Every command fulfils what the one before it has left to be done. -/
def duty : Contract Cmd Cmd.Ret Exc Owed where
  ok w c := c.fulfils = w
  next _ c r w := w = c.incurs r

/-- The program keeps to that, and owes nothing where it ends. -/
def KeepsDuty (p : Program α) (w : Owed) : Prop :=
  p.Meets duty (fun _ w => w = .nothing) (fun _ w => w = .nothing) w

/-- What is owed can be read off the program. -/
theorem KeepsDuty.owed_eq {p : Program α} {w : Owed} (h : p.KeepsDuty w) : p.owed = w := by
  cases p with
  | done a => exact h.symm
  | raise e => exact h.symm
  | cmd c k => exact h.1

/-- Behind a command, what it leaves to be done is owed. -/
theorem KeepsDuty.next {c : Cmd} {k : Except Exc c.Ret → Program α} {w : Owed}
    (h : KeepsDuty (.cmd c k) w) (r : Except Exc c.Ret) : (k r).KeepsDuty (c.incurs r) :=
  h.2 r _ rfl

/-- A program that neither finds a duty nor leaves one. -/
abbrev Settled (p : Program α) : Prop := p.KeepsDuty .nothing

/-- A program without commands owes nothing. -/
theorem settled_pure (a : α) : Settled (pure a : Program α) := rfl

theorem settled_raise (e : Exc) : Settled (.raise e : Program α) := rfl

/-- One program after another. -/
theorem settled_bind {p : Program α} {f : α → Program β} (hp : p.Settled) (hf : ∀ a, (f a).Settled) :
    (p >>= f).Settled := by
  refine meets_bind hp fun a w hw => ?_
  subst hw
  exact hf a

/-- An exception leaves no duty to the handler. -/
theorem settled_handle {p : Program α} {h : Exc → Program α} (hp : p.Settled)
    (hh : ∀ e, (h e).Settled) : Settled (handle p h) := by
  refine meets_handle hp fun e w hw => ?_
  subst hw
  exact hh e

/-- A loop, each turn of which does what it owes. -/
theorem settled_forM {α : Type} {f : α → Program PUnit} (l : List α) (hf : ∀ a, (f a).Settled) :
    (l.forM f).Settled := by
  refine meets_forM (I := fun w => w = Owed.nothing) l (fun a _ w hw => ?_) rfl
  subst hw
  exact hf a

/-! The programs that leave something to be done do it in their next command. -/

/-- A command that is no duty and leaves none. -/
theorem settled_perform {c : Cmd} (hc : c.fulfils = .nothing) (hr : ∀ r, c.incurs r = .nothing) :
    Settled (perform c) :=
  meets_perform hc (fun a _ hw => hw.trans (hr (.ok a))) (fun e _ hw => hw.trans (hr (.error e)))

/-- A new device is told of at once. -/
theorem settled_getDevice (id : String) : Settled (getDevice id) := by
  refine meets_step rfl (fun x w hw => ?_) fun e w hw => hw
  subst hw
  obtain ⟨r, new⟩ := x
  cases new with
  | false => rfl
  | true => exact meets_step rfl (fun _ w hw => hw) fun e w hw => hw

/-- A device that has been deleted is told of at once. -/
theorem settled_deleteDevice (r : Nat) : Settled (deleteDevice r) := by
  refine meets_step rfl (fun _ w hw => ?_) fun e w hw => hw
  subst hw
  exact meets_perform rfl (fun _ w hw => hw) fun e w hw => hw

/-- The intervals of a device are no duty. -/
theorem settled_restart (r size : Nat) (typ : String) : Settled (restart r size typ) :=
  settled_bind (settled_perform rfl fun _ => rfl) fun _ => settled_perform rfl fun _ => rfl

/-- A device that has been located is told of before its intervals are gone through. -/
theorem settled_locate (b : BusRef) (r : Nat) : Settled (locate b r) := by
  refine meets_step rfl (fun a w hw => ?_) fun e w hw => hw
  subst hw
  cases a with
  | false => rfl
  | true =>
      refine meets_step rfl (fun _ w hw => ?_) fun e w hw => hw
      subst hw
      refine settled_bind (settled_perform rfl fun _ => rfl) fun typs => ?_
      exact settled_forM typs fun typ => settled_restart r typs.length typ

/-- A device that has been lost is told of at the end. -/
theorem settled_delocate (b : BusRef) (r : Nat) : Settled (delocate b r) := by
  refine meets_step rfl (fun a w hw => ?_) fun e w hw => hw
  subst hw
  cases a with
  | false => rfl
  | true => exact meets_perform rfl (fun _ w hw => hw) fun e w hw => hw

/-- A task that has been started is stored. -/
theorem settled_startPoll (b : BusRef) (x : String) : Settled (startPoll b x) := by
  refine meets_step rfl (fun a w hw => ?_) fun e w hw => hw
  subst hw
  cases a with
  | none => rfl
  | some n => exact meets_perform rfl (fun _ w hw => hw) fun e w hw => hw

/-- A device that is added is told of where it is located. -/
theorem settled_addDevice (b : BusRef) (r : Nat) : Settled (addDevice b r) :=
  settled_bind (settled_locate b r) fun _ => settled_perform rfl fun _ => rfl

/-- **`update_poll`** stores what it has started, one task after another. -/
theorem settled_updatePoll (b : BusRef) : Settled (updatePoll b) := by
  refine settled_bind (settled_perform rfl fun _ => rfl) fun x => ?_
  refine settled_bind ?_ fun _ => settled_forM x.2 fun i => settled_startPoll b i
  exact settled_forM x.1 fun i => settled_perform rfl fun _ => rfl

/-- A device that is missed too often is told of. -/
theorem settled_miss (b : BusRef) (d : String) : Settled (miss b d) := by
  refine settled_bind (settled_perform rfl fun _ => rfl) fun x => ?_
  cases x with
  | none => exact settled_pure _
  | some r => exact settled_delocate b r

/-- A scan of a bus, around its loop. -/
theorem settled_scanWith (polling : Bool) (b : BusRef) {entries : List String → Program (List String)}
    (hentries : ∀ old, (entries old).Settled) : Settled (scanWith polling b entries) := by
  refine settled_bind (settled_perform rfl fun _ => rfl) fun _ => ?_
  refine settled_bind (settled_perform rfl fun _ => rfl) fun old => ?_
  refine settled_bind (hentries old) fun old => ?_
  refine settled_bind (settled_forM old fun d => settled_miss b d) fun _ => ?_
  cases polling with
  | false => exact settled_pure _
  | true => exact settled_updatePoll b

/-- A sub-bus is scanned if it is not gone. -/
theorem settled_visit (polling : Bool) (b : BusRef) (path : List String)
    {entries : BusRef → List String → Program (List String)}
    (hentries : ∀ c old, (entries c old).Settled) : Settled (visit polling b path entries) := by
  refine settled_bind (settled_perform rfl fun _ => rfl) fun x => ?_
  cases x with
  | none => exact settled_pure _
  | some c => exact settled_scanWith polling c (hentries c)

/-- A device that is listed is made, added and told of. -/
theorem settled_found (b : BusRef) (d : String) (old : List String) : Settled (found b d old) := by
  refine settled_bind (settled_getDevice d) fun r => ?_
  refine settled_bind (settled_perform rfl fun _ => rfl) fun _ => ?_
  refine settled_bind (settled_perform rfl fun _ => rfl) fun x => ?_
  have hseen : ∀ old : List String, Settled (do
      let id ← perform (.seen r)
      return (id, old)) :=
    fun old => settled_bind (settled_perform rfl fun _ => rfl) fun _ => settled_pure _
  cases x with
  | none => exact settled_bind (settled_addDevice b r) fun _ => hseen old
  | some old => exact hseen old

/-- Both sub-buses of a coupler. -/
theorem settled_visitAll (polling : Bool) (b : BusRef) (id : Option String)
    {main aux : BusRef → List String → Program (List String)} (hmain : ∀ c old, (main c old).Settled)
    (haux : ∀ c old, (aux c old).Settled) : Settled (visitAll polling b id main aux) := by
  cases id with
  | none => exact settled_pure _
  | some id =>
      exact settled_bind (settled_visit polling b _ hmain) fun _ => settled_visit polling b _ haux

/-- By recursion on the listing. -/
theorem settled_scanEntries (polling : Bool) (listing : Listing) :
    ∀ b old, Settled (scanEntries polling listing b old) := by
  induction listing with
  | nil => exact fun b old => settled_pure _
  | cons d main aux rest ihmain ihaux ihrest =>
      intro b old
      rw [scanEntries]
      split
      · exact ihrest b old
      · refine settled_bind (settled_found b d old) fun x => ?_
        exact settled_bind (settled_visitAll polling b x.1 ihmain ihaux) fun _ => ihrest b x.2

/-- A whole scan. -/
theorem settled_scanBase (polling : Bool) (v : Nat) (root : List (String × Listing)) :
    Settled (scanBase polling v root) := by
  refine settled_handle ?_ fun e => ?_
  · refine settled_bind (settled_perform rfl fun _ => rfl) fun _ => settled_forM root fun x => ?_
    rw [scanBus]
    split
    · refine settled_bind (settled_perform rfl fun _ => rfl) fun b => ?_
      refine settled_bind (settled_perform rfl fun _ => rfl) fun _ => ?_
      exact settled_scanWith polling b (settled_scanEntries polling x.2 b)
    · exact settled_pure _
  · split
    · exact settled_pure _
    · exact settled_raise e

/-! ### Polls -/

/-- Requests are no duty. -/
theorem settled_request (r : Nat) (path : List String) : Settled (perform (.request r path)) :=
  settled_perform rfl fun _ => rfl

/-- A write that may be left out is no duty. -/
theorem settled_writeIf (p : Prop) [Decidable p] (r : Nat) (path : List String) :
    Settled (writeIf p r path) := by
  rw [writeIf]
  split
  · exact settled_bind (settled_request r path) fun _ => settled_pure _
  · exact settled_pure _

/-- A reset can only raise. -/
theorem settled_reset (r : Nat) (n : String) (flags : Reading) : Settled (reset r n flags) := by
  rw [reset]
  split
  · exact settled_perform rfl fun _ => rfl
  · exact settled_pure _

/-- Reading and writing attributes is no duty. -/
theorem settled_devPollAlarm (r : Nat) (family : Int) : Settled (devPollAlarm r family) := by
  rw [devPollAlarm]
  split
  · refine settled_bind (settled_request r _) fun t => ?_
    refine settled_bind (settled_request r _) fun high => ?_
    refine settled_bind (settled_writeIf _ r _) fun _ => ?_
    refine settled_bind (settled_request r _) fun low => ?_
    exact settled_writeIf _ r _
  split
  · refine settled_bind (settled_request r _) fun v => ?_
    refine settled_bind (settled_request r _) fun high => ?_
    refine settled_bind (settled_request r _) fun low => ?_
    refine settled_bind (settled_request r _) fun power => ?_
    refine settled_bind (settled_writeIf _ r _) fun _ => ?_
    refine settled_bind (settled_reset r _ high) fun _ => ?_
    refine settled_bind (settled_reset r _ low) fun _ => ?_
    split
    · exact settled_perform rfl fun _ => rfl
    · exact settled_pure _
  split
  · exact settled_perform rfl fun _ => rfl
  · exact settled_perform rfl fun _ => rfl

/-- An alarm poll: each device is made, added, and told of. -/
theorem settled_pollAlarm (b : BusRef) (names : List String) : Settled (pollAlarm b names) := by
  refine settled_bind (settled_perform rfl fun _ => rfl) fun _ => settled_forM names fun d => ?_
  refine settled_bind (settled_getDevice d) fun r => ?_
  refine settled_bind (settled_addDevice b r) fun family => ?_
  refine settled_bind (settled_devPollAlarm r family) fun _ => ?_
  exact settled_perform rfl fun _ => rfl

/-- The event for a value is no duty; nothing has changed before it. -/
theorem settled_pollDevice (x : String) (d : Nat × Int) : Settled (pollDevice x d) := by
  rw [pollDevice]
  split
  · refine settled_bind (settled_perform rfl fun _ => rfl) fun _ => ?_
    exact settled_perform rfl fun _ => rfl
  · exact settled_pure _

/-- A round of `Bus.poll`, whatever it is about. -/
theorem settled_poll (b : BusRef) (x : String) (names : List String) : Settled (poll b x names) := by
  refine settled_handle ?_ fun e => ?_
  · split
    · exact settled_pollAlarm b names
    · refine settled_bind (settled_perform rfl fun _ => rfl) fun ds => ?_
      exact settled_forM ds fun d => settled_pollDevice x d
  · split
    · exact settled_pure _
    · exact settled_raise e

/-- A change of an interval. -/
theorem settled_setPollingInterval (r : Nat) (styp : String) (value : ℚ≥0) :
    Settled (setPollingInterval r styp value) := by
  refine settled_bind (settled_perform rfl fun _ => rfl) fun x => ?_
  cases x with
  | none => exact settled_pure _
  | some b => exact settled_updatePoll b

/-! ### The end of a server -/

/-- By recursion on the depth of the tree. -/
theorem settled_delocateBus (limit : Nat) : ∀ b, Settled (delocateBus limit b) := by
  induction limit with
  | zero => exact fun b => settled_raise _
  | succ limit ih =>
      intro b
      rw [delocateBus]
      have hbuses : Settled (delocateBuses (delocateBus limit) b) := by
        refine settled_bind (settled_perform rfl fun _ => rfl) fun bs => ?_
        split
        · exact settled_bind (settled_forM bs ih) fun _ => settled_perform rfl fun _ => rfl
        · exact settled_pure _
      have hdevices : Settled (delocateDevices b) := by
        refine settled_bind (settled_perform rfl fun _ => rfl) fun ds => ?_
        split
        · refine settled_bind (settled_forM ds fun d => settled_delocate b d.1) fun _ => ?_
          exact settled_perform rfl fun _ => rfl
        · exact settled_pure _
      refine settled_bind hbuses fun _ => settled_bind hdevices fun _ => ?_
      exact settled_perform rfl fun _ => rfl

/-- The end of a server. -/
theorem settled_aclose (limit v : Nat) : Settled (aclose limit v) := by
  refine settled_bind (settled_perform rfl fun _ => rfl) fun _ => ?_
  refine settled_bind (settled_perform rfl fun _ => rfl) fun bs => ?_
  refine settled_bind (settled_forM bs (settled_delocateBus limit)) fun _ => ?_
  exact settled_perform rfl fun _ => rfl

end Program

namespace Tasks

open Program Hoare

/-- **No program begins or ends with a duty.** -/
theorem settled_entry {w : World} {i : TaskId} {p : Program Unit} (h : Entry w i p) : p.Settled := by
  cases h with
  | scan n polling v root => exact settled_scanBase polling v root
  | getDevice n id => exact settled_bind (settled_getDevice id) fun _ => settled_pure _
  | deleteDevice n r => exact settled_deleteDevice r
  | setPollingInterval n r styp value => exact settled_setPollingInterval r styp value
  | pollAlarm n b names => exact settled_pollAlarm b names
  | aclose n limit v => exact settled_aclose limit v
  | poll n b x names => exact settled_poll b x names
  | wake n b x names => exact settled_poll b x names

/-- Every task does what it owes, and tasks and pollers are numbered in order. -/
structure Dutiful (t : Tasks) : Prop where
  keeps : ∀ i, KeepsDuty (t.task i) (owed (t.task i))
  idle : ∀ i, i ∉ t.tasks → ∃ u, t.task i = .done u
  pollers : ∀ n, t.shared.nextPoller ≤ n → t.shared.pollers n = none

/-- In the beginning there is nothing to do. -/
theorem dutiful_init : init.Dutiful := ⟨fun _ => rfl, fun _ _ => ⟨(), rfl⟩, fun _ _ => rfl⟩

/-- A task that has something left to do is one of the tasks. -/
theorem Dutiful.mem_tasks {t : Tasks} (ht : t.Dutiful) {i : TaskId} {c : Cmd}
    {k : Except Exc c.Ret → Program Unit} (h : t.task i = .cmd c k) : i ∈ t.tasks := by
  by_contra hi
  obtain ⟨u, hu⟩ := ht.idle i hi
  rw [h] at hu
  contradiction

/-- A task that starts owes nothing, and has not. -/
theorem Starts.owed_eq {t t' : Tasks} {a : Action} {i : TaskId} {p : Program Unit} (ht : t.Dutiful)
    (hs : Starts t a t' i p) (j : TaskId) : owed (t'.task j) = owed (t.task j) := by
  obtain ⟨u, hu⟩ : ∃ u, t.task i = .done u := hs.idle.elim (ht.idle i) And.right
  rw [hs.task]
  by_cases hji : j = i
  · subst hji
    rw [Function.update_self, (settled_entry hs.entry).owed_eq, hu]
    rfl
  · rw [Function.update_of_ne hji]

/-- Tasks are never forgotten. -/
theorem Goes.tasks_subset {t t' : Tasks} {i : TaskId} {reply : Reply} {c : Cmd}
    {r : Except Exc c.Ret} {k : Except Exc c.Ret → Program Unit} {w : World}
    (h : Goes t t' i reply c r k w) : t.tasks ⊆ t'.tasks := by
  have hle := (h.outcome.of_wp (R := fun _ => World.Numbered t.shared)
    (World.numbered_exec reply c t.shared)).le
  intro j
  simp only [h.after, tasks, List.mem_append, List.mem_map, List.mem_range]
  rintro ((hj | hj) | ⟨n, hn, rfl⟩)
  · exact .inl (.inl hj)
  · exact .inl (.inr hj)
  · exact .inr ⟨n, hn.trans_le hle, rfl⟩

/-- **One step**: the task that goes on does what it owes, and no other one is concerned. -/
theorem dutiful_step {t t' : Tasks} {a : Action} (ht : t.Dutiful) (h : t.step a = some t') :
    t'.Dutiful := by
  rcases step_cases ht.pollers h with ⟨i, p, hs⟩ | ⟨-, _, _, rfl⟩ | ⟨i, reply, c, r, k, w, -, hg⟩
  · have hp := settled_entry hs.entry
    refine ⟨fun j => ?_, fun j hj => ?_, hs.shared ▸ ht.pollers⟩
    · by_cases hji : j = i
      · rw [hs.task, hji, Function.update_self, hp.owed_eq]
        exact hp
      · rw [hs.task, Function.update_of_ne hji]
        exact ht.keeps j
    · rw [hs.mem, not_or] at hj
      rw [hs.task, Function.update_of_ne hj.2]
      exact ht.idle j hj.1
  · exact ⟨ht.keeps, ht.idle, ht.pollers⟩
  · have hk : KeepsDuty (k r) (c.incurs r) := KeepsDuty.next (hg.before ▸ ht.keeps i) r
    have hsub := hg.tasks_subset
    have hmem := ht.mem_tasks hg.before
    have hfresh := (hg.outcome.of_wp (R := fun _ => World.Numbered t.shared)
      (World.numbered_exec reply c t.shared)).fresh ht.pollers
    have hafter := hg.after
    subst hafter
    refine ⟨fun j => ?_, fun j hj => ?_, hfresh⟩
    · by_cases hji : j = i
      · simp only [hji, Function.update_self, hk.owed_eq]
        exact hk
      · simp only [Function.update_of_ne hji]
        exact ht.keeps j
    · have hji : j ≠ i := by
        rintro rfl
        exact hj (hsub hmem)
      simp only [Function.update_of_ne hji]
      exact ht.idle j fun h => hj (hsub h)

section Command

variable {t t' : Tasks} {i : TaskId} {reply : Reply} {c : Cmd} {r : Except Exc c.Ret}
  {k : Except Exc c.Ret → Program Unit} {w : World}

/-- What a task owes behind a command. -/
theorem Goes.owed_after (hg : Goes t t' i reply c r k w) (ht : t.Dutiful) :
    owed (t'.task i) = c.incurs r := by
  have hk : KeepsDuty (k r) (c.incurs r) := KeepsDuty.next (hg.before ▸ ht.keeps i) r
  rw [hg.after]
  simp only [Function.update_self, hk.owed_eq]

/-- What a task owes is what its next command fulfils. -/
theorem Goes.owed_before (hg : Goes t t' i reply c r k w) : owed (t.task i) = c.fulfils := by
  rw [hg.before]
  rfl

/-- The other tasks stand where they stood. -/
theorem Goes.task_ne (hg : Goes t t' i reply c r k w) {j : TaskId} (hji : j ≠ i) :
    t'.task j = t.task j := by
  rw [hg.after]
  simp only [Function.update_of_ne hji]

/-- What is owed behind a command has been owed by another task, or is since the command. -/
theorem Goes.owed_cases (hg : Goes t t' i reply c r k w) (ht : t.Dutiful) {j : TaskId} {o : Owed}
    (h : owed (t'.task j) = o) : j ≠ i ∧ owed (t.task j) = o ∨ j = i ∧ c.incurs r = o := by
  by_cases hji : j = i
  · subst hji
    exact .inr ⟨rfl, hg.owed_after ht ▸ h⟩
  · exact .inl ⟨hji, hg.task_ne hji ▸ h⟩

/-- The command finds a task, or starts one. -/
theorem Goes.startPoll_cases {b : BusRef} {x : String} {r : Except Exc (Option Nat)}
    {k : Except Exc (Option Nat) → Program Unit} (hg : Goes t t' i reply (.startPoll b x) r k w) :
    (t.shared.polls b).get? x ≠ none ∧ r = .ok none ∧ w = t.shared ∨
    (t.shared.polls b).get? x = none ∧ r = .ok (some t.shared.nextPoller) ∧ w = { t.shared with
      pollers := Function.update t.shared.pollers t.shared.nextPoller (some (b, x)),
      nextPoller := t.shared.nextPoller + 1 } := by
  have hspec := hg.outcome.post (World.startPoll_spec reply b x t.shared)
  rcases r with e | started
  · exact hspec.elim
  · cases started with
    | none => exact .inl ⟨hspec.1, rfl, hspec.2⟩
    | some n => exact .inr ⟨hspec.1, by rw [hspec.2.1], hspec.2.2⟩

end Command

/-! ## Tasks come to an end -/

section Endless

variable {s : Nat → Tasks} {a : Nat → Action} {i : TaskId}

end Endless

end Tasks

end AsyncOwfs
