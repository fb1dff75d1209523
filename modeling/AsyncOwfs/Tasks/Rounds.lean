import AsyncOwfs.Tasks.Duties

/-!
# AsyncOwfs.Tasks.Rounds

A round of `Bus.poll`: what it does, and what ends it.

An error ends the loops of a round at once; one that the server has replied with is
caught, any other one comes out of `poll`.
-/

namespace AsyncOwfs

open Transition Hoare

/-- An error that the server has replied with: `OWFSReplyError`. -/
def Exc.IsReply : Exc → Prop
  | .owfsReply _ => True
  | _ => False

instance (e : Exc) : Decidable e.IsReply := by
  unfold Exc.IsReply
  split <;> infer_instance

/-- The server has answered: with a value, or with an error of its own. -/
def Answered : Reply → Prop
  | .ok _ => True
  | .error e => e.IsReply

instance (reply : Reply) : Decidable (Answered reply) := by
  unfold Answered
  split <;> infer_instance

/-- The commands of a round. -/
def Cmd.InRound : Cmd → Prop
  | ask _ | getDevice _ | assign .. | push _ | replay _ | startOwn .. | nextOwn .. | enlist ..
  | request .. | misuse .. | members _ | pushValue _ => True
  | refuse e => ¬ e.IsReply
  | _ => False

/-- A round starts and stops no pollers. -/
theorem Cmd.InRound.not_isPoll {c : Cmd} (h : c.InRound) : ¬ World.IsPoll c := by
  cases c with
  | stopPoll | startPoll | storePoll => exact h.elim
  | _ => exact id

namespace Program

open Prog hiding perform

/-- The commands are those of a round, and an error is the last thing that happens.
The abstract state is the error. -/
def roundly : Contract Cmd Cmd.Ret Exc (Option Exc) where
  ok w c := w = none ∧ c.InRound
  next _ _ r w := w = match r with
    | .ok _ => none
    | .error e => some e

/-- A program that lets all errors through. -/
abbrev Open (p : Program α) : Prop :=
  p.Meets roundly (fun _ w => w = none) (fun e w => w = some e) none

theorem open_pure (a : α) : Open (pure a : Program α) := rfl

/-- A command raises what it raises. -/
theorem open_perform {c : Cmd} (hc : c.InRound) : Open (perform c) :=
  meets_perform ⟨rfl, hc⟩ (fun _ _ h => h) fun _ _ h => h

/-- Behind an error there is nothing more to do. -/
theorem open_bind {p : Program α} {f : α → Program β} (hp : p.Open) (hf : ∀ a, (f a).Open) :
    Open (p >>= f) := by
  refine meets_bind hp fun a w hw => ?_
  subst hw
  exact hf a

/-- An error ends a loop. -/
theorem open_forM {α : Type} {f : α → Program PUnit} (l : List α) (hf : ∀ a, (f a).Open) :
    Open (l.forM f) := by
  refine meets_forM (I := fun w => w = none) l (fun a _ w hw => ?_) rfl
  subst hw
  exact hf a

/-- `get_device` catches nothing. -/
theorem open_getDevice (id : String) : Open (getDevice id) := by
  refine open_bind (open_perform trivial) fun x => ?_
  obtain ⟨r, new⟩ := x
  cases new with
  | false => exact open_pure _
  | true => exact open_bind (open_perform trivial) fun _ => open_pure _

/-- The pollers of a device that is located are started without a `try`. -/
theorem open_restart (r size : Nat) (typ : String) : Open (restart r size typ) :=
  open_bind (open_perform trivial) fun _ => open_perform trivial

/-- `locate` catches nothing. -/
theorem open_locate (b : BusRef) (r : Nat) : Open (locate b r) := by
  refine open_bind (open_perform trivial) fun here => ?_
  split
  · refine open_bind (open_perform trivial) fun _ => ?_
    refine open_bind (open_perform trivial) fun typs => ?_
    exact open_forM typs fun typ => open_restart r typs.length typ
  · exact open_pure _

/-- `add_device` catches nothing. -/
theorem open_addDevice (b : BusRef) (r : Nat) : Open (addDevice b r) :=
  open_bind (open_locate b r) fun _ => open_perform trivial

/-- A request raises what it raises. -/
theorem open_request (r : Nat) (path : List String) : Open (perform (.request r path)) :=
  open_perform trivial

/-- A write that may be left out. -/
theorem open_writeIf (p : Prop) [Decidable p] (r : Nat) (path : List String) :
    Open (writeIf p r path) := by
  rw [writeIf]
  split
  · exact open_bind (open_request r path) fun _ => open_pure _
  · exact open_pure _

/-- A reset that may be left out. -/
theorem open_reset (r : Nat) (n : String) (flags : Reading) : Open (reset r n flags) := by
  rw [reset]
  split
  · exact open_perform trivial
  · exact open_pure _

/-- Whatever `poll_alarm` of a device raises comes out of it. -/
theorem open_devPollAlarm (r : Nat) (family : Int) : Open (devPollAlarm r family) := by
  rw [devPollAlarm]
  split
  · refine open_bind (open_request r _) fun t => ?_
    refine open_bind (open_request r _) fun high => ?_
    refine open_bind (open_writeIf _ r _) fun _ => ?_
    refine open_bind (open_request r _) fun low => ?_
    exact open_writeIf _ r _
  split
  · refine open_bind (open_request r _) fun v => ?_
    refine open_bind (open_request r _) fun high => ?_
    refine open_bind (open_request r _) fun low => ?_
    refine open_bind (open_request r _) fun power => ?_
    refine open_bind (open_writeIf _ r _) fun _ => ?_
    refine open_bind (open_reset r _ high) fun _ => ?_
    refine open_bind (open_reset r _ low) fun _ => ?_
    split
    · exact open_perform id
    · exact open_pure _
  split
  · exact open_perform id
  · exact open_perform id

/-- The loop over the alarm directory ends with the first error. -/
theorem open_pollAlarm (b : BusRef) (names : List String) : Open (pollAlarm b names) := by
  refine open_bind (open_perform trivial) fun _ => open_forM names fun d => ?_
  refine open_bind (open_getDevice d) fun r => ?_
  refine open_bind (open_addDevice b r) fun family => ?_
  exact open_bind (open_devPollAlarm r family) fun _ => open_perform trivial

/-- The loop over the devices ends with the first error. -/
theorem open_pollDevice (x : String) (d : Nat × Int) : Open (pollDevice x d) := by
  rw [pollDevice]
  split
  · exact open_bind (open_request d.1 _) fun _ => open_perform trivial
  · exact open_pure _

/-- What is left of a round that an error may have ended. -/
abbrev Rounding (p : Program Unit) (w : Option Exc) : Prop :=
  p.Meets roundly (fun _ w => ∀ e ∈ w, e.IsReply) (fun e w => w = some e ∧ ¬ e.IsReply) w

/-- **`poll` catches what the server replies**, and nothing else. -/
theorem rounding_poll (b : BusRef) (x : String) (names : List String) :
    Rounding (poll b x names) none := by
  have hbody : Open (if x = "alarm" then pollAlarm b names
      else do
        let ds ← perform (.members b)
        ds.forM (pollDevice x)) := by
    split
    · exact open_pollAlarm b names
    · exact open_bind (open_perform trivial) fun ds => open_forM ds (open_pollDevice x)
  have hends : Meets roundly (fun _ w => ∀ e ∈ w, e.IsReply) (fun e w => w = some e)
      (if x = "alarm" then pollAlarm b names
      else do
        let ds ← perform (.members b)
        ds.forM (pollDevice x)) none := by
    refine hbody.mono (fun _ w hw e he => ?_) fun _ _ h => h
    rw [hw] at he
    contradiction
  refine meets_handle hends ?_
  · intro e w hw
    subst hw
    split
    · intro e he
      rw [Option.mem_some_iff] at he
      exact he ▸ trivial
    · next hne =>
      refine ⟨rfl, fun h => ?_⟩
      cases e with
      | owfsReply n => exact hne n rfl
      | _ => exact h

/-- What goes on has not failed. -/
theorem Rounding.not_failed {p : Program Unit} (h : Rounding p none) : ¬ p.Failed := by
  cases p with
  | raise e => exact absurd h.1 (by simp)
  | done u => exact id
  | cmd c k => exact id

/-- What a task that does rounds can be at. -/
def OfRound (p : Program Unit) : Prop := (∃ u, p = .done u) ∨ p.Failed ∨ Rounding p none

/-- Behind a command, a round goes on, has ended, or has failed. -/
theorem Rounding.next {c : Cmd} {k : Except Exc c.Ret → Program Unit}
    (h : Rounding (.cmd c k) none) (r : Except Exc c.Ret) :
    match r with
    | .ok _ => Rounding (k r) none ∧ ¬ (k r).Failed
    | .error e => if e.IsReply then ∃ u, k r = .done u else (k r).Failed := by
  have hk := h.2 r _ rfl
  cases r with
  | ok a => exact ⟨hk, Rounding.not_failed hk⟩
  | error e =>
      simp only
      cases hp : k (.error e) with
      | cmd c k' =>
          rw [hp] at hk
          exact absurd hk.1.1 (by simp)
      | done u =>
          rw [hp] at hk
          rw [if_pos (hk e rfl)]
          exact ⟨u, rfl⟩
      | raise e' =>
          rw [hp] at hk
          obtain ⟨he, hn⟩ := hk
          rw [Option.some.injEq] at he
          rw [if_neg (he ▸ hn)]
          trivial

/-- Behind any answer, a round is at one of these. -/
theorem Rounding.ofRound {c : Cmd} {k : Except Exc c.Ret → Program Unit}
    (h : Rounding (.cmd c k) none) (r : Except Exc c.Ret) : OfRound (k r) := by
  have hr := h.next r
  cases r with
  | ok a => exact .inr (.inr hr.1)
  | error e =>
      simp only at hr
      split at hr
      · exact .inl hr
      · exact .inr (.inl hr)

end Program

namespace World

/-- The command will not raise anything but what the server replies: the name is an id,
the bus is not gone, the intervals of the device are for attributes that it has and stay
as many while they are gone through, the class has the accessor and the device is
somewhere.  What can only raise cannot be done. -/
def CanDo (w : World) : Cmd → Prop
  | .getDevice id => w.service.devices.get? id ≠ none ∨ (splitId id).isOk
  | .startOwn r typ => (w.objects r).Readable (.str typ)
  | .nextOwn r size => (w.intervals r).keys.length = size
  | .enlist b _ => (w.service.bus b).devices.isSome
  | .request r path => w.HasAccessor r path ∧ (w.service.dev r).bus ≠ none
  | .misuse .. | .refuse _ => False
  | _ => True

instance (w : World) (c : Cmd) : Decidable (w.CanDo c) := by
  unfold CanDo
  split <;> infer_instance

/-- The commands that wait for the server. -/
def Asks : Cmd → Prop
  | .ask _ | .request .. => True
  | _ => False

instance (c : Cmd) : Decidable (Asks c) := by
  unfold Asks
  split <;> infer_instance

end World

namespace Tasks

open Program

/-- The task is a round of `Bus.poll`. -/
def IsRound : TaskId → Prop
  | .round _ | .poller _ => True
  | .call _ => False

instance (i : TaskId) : Decidable (IsRound i) := by
  induction i using TaskId.casesOn with
  | call => exact instDecidableFalse
  | _ => exact instDecidableTrue

/-- The server answers the requests of the rounds. -/
def Answers (t : Tasks) : Action → Prop
  | .resume i reply => IsRound i → ∀ c ∈ (t.task i).head, World.Asks c → Answered reply
  | _ => True

instance (t : Tasks) (a : Action) : Decidable (t.Answers a) := by
  unfold Answers
  split <;> infer_instance

/-- What a round does next can be done. -/
def Sound (t : Tasks) : Action → Prop
  | .resume i _ => IsRound i → ∀ c ∈ (t.task i).head, t.shared.CanDo c
  | _ => True

instance (t : Tasks) (a : Action) : Decidable (t.Sound a) := by
  unfold Sound
  split <;> infer_instance

/-- What the rounds are in the middle of. -/
structure InRounds (t : Tasks) : Prop extends Dutiful t where
  rounding : ∀ i, IsRound i → OfRound (t.task i)

/-- In the beginning there are no rounds. -/
theorem inRounds_init : init.InRounds := ⟨dutiful_init, fun _ _ => .inl ⟨(), rfl⟩⟩

/-- A round that has a command to do goes on. -/
theorem InRounds.before {t : Tasks} (ht : t.InRounds) {i : TaskId} {c : Cmd}
    {k : Except Exc c.Ret → Program Unit} (hi : IsRound i) (h : t.task i = .cmd c k) :
    Rounding (.cmd c k) none := by
  have hround := ht.rounding i hi
  rw [h] at hround
  rcases hround with ⟨u, hu⟩ | hf | h
  · contradiction
  · exact hf.elim
  · exact h

/-- A round begins. -/
theorem Starts.rounding {t t' : Tasks} {a : Action} {i : TaskId} {p : Program Unit}
    (hs : Starts t a t' i p) (hi : IsRound i) : Rounding p none := by
  cases hs.entry with
  | poll n b x names => exact rounding_poll b x names
  | wake n b x names => exact rounding_poll b x names
  | _ => exact hi.elim

/-- **One step** leaves the other rounds where they are. -/
theorem inRounds_step {t t' : Tasks} {a : Action} (ht : t.InRounds) (h : t.step a = some t') :
    t'.InRounds := by
  refine ⟨dutiful_step ht.toDutiful h, fun j hj => ?_⟩
  rcases step_cases ht.pollers h with ⟨i, p, hs⟩ | ⟨-, _, _, rfl⟩ | ⟨i, reply, c, r, k, w, -, hg⟩
  · by_cases hji : j = i
    · subst hji
      rw [hs.task, Function.update_self]
      exact .inr (.inr (hs.rounding hj))
    · rw [hs.task, Function.update_of_ne hji]
      exact ht.rounding j hj
  · exact ht.rounding j hj
  · rw [hg.after]
    by_cases hji : j = i
    · subst hji
      simp only [Function.update_self]
      exact (ht.before hj hg.before).ofRound r
    · simp only [Function.update_of_ne hji]
      exact ht.rounding j hj

/-- What is left of the rounds of a state is done if they are given their turns: as
long as a round has neither ended nor failed, it can go on, whatever it is answered;
and it does not go on forever, whatever else goes on. -/
structure Ends (t : Tasks) : Prop where
  goesOn : ∀ i, IsRound i → t.Live i → (∃ u, t.task i = .done u) ∨ (t.task i).Failed ∨
    ∀ reply, t.step (.resume i reply) ≠ none
  ends : ∀ (s : Nat → Tasks) (a : Nat → Action), s 0 = t →
    (∀ m, (s m).step (a m) = some (s (m + 1))) → ∀ i ∈ t.tasks, IsRound i →
    (∀ m, ¬ (a m).Wakes i) → ∃ M, ∀ m, M ≤ m → ∀ reply, a m ≠ .resume i reply

/-- The task goes on, with answers that it does not look at. -/
def go (i : TaskId) (n : Nat) : List Action := List.replicate n (.resume i (.ok []))

/-- Two thermometers on a bus. -/
def twoOnBus : List (String × Listing) :=
  [("bus.0", .cons "10.67C6697351FF.8D" .nil .nil (.cons "10.F0E0D0000000.00" .nil .nil .nil))]

/-- The first one only. -/
def oneOnBus : List (String × Listing) := [("bus.0", .cons "10.67C6697351FF.8D" .nil .nil .nil)]

end Tasks

end AsyncOwfs
