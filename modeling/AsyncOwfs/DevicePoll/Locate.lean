import AsyncOwfs.DevicePoll.Running

/-!
# AsyncOwfs.DevicePoll.Locate

What `Bus.add_device` leaves when it raises.

`locate` sets the bus of the device before it starts a task for every interval, and
the bus lists the device behind that.  An interval whose path cannot be read as a
string makes the step in the middle raise, and the device is then half on the bus:
the next scan takes it for an old one, and does not find it among them.
-/

namespace AsyncOwfs

open Hoare Transition

namespace PollTable

/-- A task is started if and only if its path can be read. -/
theorem setPollTask_iff {A : Accessors} (typ : Typ) (value : ℚ≥0) (s : PollTable) :
    wp (setPollTask A typ value) (fun _ _ => value = 0 ∨ A.Readable typ)
      (fun _ _ => ¬ (value = 0 ∨ A.Readable typ)) s := by
  have hstart (s : PollTable) :
      wp (if value = 0 then return () else startTask A typ value)
        (fun _ _ => value = 0 ∨ A.Readable typ) (fun _ _ => ¬ (value = 0 ∨ A.Readable typ)) s := by
    split
    · next hv => exact .inl hv
    · next hv =>
      rw [startTask]
      cases hc : A.check typ with
      | error e => simp [Accessors.Readable, hc, hv]
      | ok u => exact .inr hc
  simp only [setPollTask, stopTask, wp_bind, wp_get]
  cases s.poll.get? typ with
  | none => exact hstart s
  | some n =>
      simp only [wp_bind, wp_modify, cancel]
      exact hstart _

/-- All intervals can be taken up again, or the replay raises. -/
theorem replay_iff {A : Accessors} {s : PollTable} (hs : s.Tidy) :
    wp (replay A) (fun _ _ => ∀ p ∈ s.intervals.keys, A.Readable (.str p))
      (fun _ _ => ¬ ∀ p ∈ s.intervals.keys, A.Readable (.str p)) s := by
  have hall : (∀ e ∈ s.intervals.entries, e.2 = 0 ∨ A.Readable (.str e.1)) ↔
      ∀ p ∈ s.intervals.keys, A.Readable (.str p) := by
    constructor
    · intro h p hp
      obtain ⟨v, hv⟩ := Dict.mem_keys.mp hp
      have hpos := hs.positive p v hv
      exact (h (p, v) (Dict.mem_of_get? hv)).resolve_left hpos.ne'
    · intro h e he
      exact .inr (h e.1 (List.mem_map_of_mem he))
  rw [replay, wp_bind, wp_get, ← hall]
  exact wp_forM_iff (fun e => setPollTask_iff (.str e.1) e.2) s.intervals.entries s

end PollTable

namespace DevicePoll

/-- The turn of `_scan_one` for a device that is listed: it is no longer among the old
ones, or it is new here. -/
def sighted (A : Accessors) (b : BusRef) : Method Unit := do
  let s ← get
  if s.bus = some b then
    if b ∈ s.listed then return () else throw .keyError
  else addDevice A b

/-- **All or nothing**: the device is on the bus, on both sides, or it is nowhere; and the
next scan has no problem with it. -/
def AllOrNothing (A : Accessors) (b : BusRef) (s : DevicePoll) : Prop :=
  let ScansOn (s : DevicePoll) : Prop := wp (sighted A b) (fun _ _ => True) (fun _ _ => False) s
  wp (addDevice A b) (fun _ s' => s'.bus = some b ∧ b ∈ s'.listed ∧ ScansOn s')
    (fun _ s' => s'.bus = none ∧ ScansOn s') s

/-- A device that is nowhere comes to be on the bus, or half on it. -/
theorem addDevice_iff {A : Accessors} {s : DevicePoll} (b : BusRef) (hs : s.table.Tidy)
    (hbus : s.bus = none) :
    wp (addDevice A b)
      (fun _ s' => (∀ p ∈ s.table.intervals.keys, A.Readable (.str p)) ∧
        s'.bus = some b ∧ b ∈ s'.listed)
      (fun _ s' => (¬ ∀ p ∈ s.table.intervals.keys, A.Readable (.str p)) ∧
        s'.bus = some b ∧ s'.listed = s.listed) s := by
  have hne : s.bus ≠ some b := by simp [hbus]
  rw [addDevice, locate, wp_bind, wp_bind, wp_get]
  simp only [hne, if_false]
  rw [wp_bind, wp_modify, onTable, wp_zoom]
  refine wp_mono (PollTable.replay_iff hs) (fun _ t h => ?_) (fun _ t h => ⟨h, rfl, rfl⟩)
  exact ⟨h, rfl, List.mem_cons_self⟩

/-- The call raises, with the device on the bus. -/
theorem not_allOrNothing {A : Accessors} {s : DevicePoll} {b : BusRef} (hs : s.table.Tidy)
    (hbus : s.bus = none) (hnot : ¬ ∀ p ∈ s.table.intervals.keys, A.Readable (.str p)) :
    ¬ AllOrNothing A b s := by
  intro hall
  refine not_wp_false (wp_mono (wp_and (addDevice_iff b hs hbus) hall)
    (fun _ s' h => hnot h.1.1) (fun _ s' h => ?_))
  have hsome := h.1.2.1
  rw [h.2.1] at hsome
  contradiction

/-- **Locating** is all or nothing if and only if every interval can be taken up again. -/
theorem allOrNothing_iff {A₀ : Accessors} {as : List Action} {s : DevicePoll}
    (h : run (step A₀) init as = some s) (hbus : s.bus = none) (A : Accessors) (b : BusRef) :
    AllOrNothing A b s ↔ ∀ p ∈ s.table.intervals.keys, A.Readable (.str p) := by
  constructor
  · intro hall
    by_contra hnot
    exact not_allOrNothing (tidy_run h) hbus hnot hall
  · intro hall
    refine wp_mono (addDevice_iff b (tidy_run h) hbus) (fun _ s' h => ⟨h.2.1, h.2.2, ?_⟩)
      (fun _ s' h => absurd hall h.1)
    simp only [sighted, wp_bind, wp_get, h.2.1, h.2.2, if_true]
    trivial

/-- An interval that is set before the device has been seen. -/
theorem allOrNothing_latesttemp :
    ∃ s, run (step thermometer) init [.setPollingInterval (.str "latesttemp") 5] = some s ∧
      AllOrNothing thermometer ⟨0, ["bus.0"]⟩ s := by
  have hrun : (run (step thermometer) init [.setPollingInterval (.str "latesttemp") 5]).any
      (fun s => s.bus = none ∧ ∀ p ∈ s.table.intervals.keys, thermometer.Readable (.str p)) =
        true := by decide +kernel
  obtain ⟨s, hs, hboth⟩ := (Option.any_eq_true _ _).mp hrun
  obtain ⟨hbus, hall⟩ := of_decide_eq_true hboth
  exact ⟨s, hs, (allOrNothing_iff hs hbus thermometer ⟨0, ["bus.0"]⟩).mpr hall⟩

/-- The bus polls for alarms, which is no attribute of the device. -/
theorem not_allOrNothing_alarm :
    let b : BusRef := ⟨0, ["bus.0"]⟩
    ∃ s, run (step thermometer) init [.setPollingInterval (.str "alarm") 5] = some s ∧
      wp (addDevice thermometer b) (fun _ _ => False)
        (fun _ s' => s'.bus = some b ∧ b ∉ s'.listed ∧
          wp (sighted thermometer b) (fun _ _ => False) (fun e _ => e = .keyError) s') s ∧
      ¬ AllOrNothing thermometer b s := by
  intro b
  have hrun : (run (step thermometer) init [.setPollingInterval (.str "alarm") 5]).any
      (fun s => s.bus = none ∧ s.listed = [] ∧
        ¬ ∀ p ∈ s.table.intervals.keys, thermometer.Readable (.str p)) = true := by decide +kernel
  obtain ⟨s, hs, hboth⟩ := (Option.any_eq_true _ _).mp hrun
  obtain ⟨hbus, hlisted, hnot⟩ := of_decide_eq_true hboth
  refine ⟨s, hs, ?_, not_allOrNothing (tidy_run hs) hbus hnot⟩
  refine wp_mono (addDevice_iff b (tidy_run hs) hbus) (fun _ s' h => hnot h.1)
    (fun _ s' h => ?_)
  have hmem : b ∉ s'.listed := by simp [h.2.2, hlisted]
  refine ⟨h.2.1, hmem, ?_⟩
  simp only [sighted, wp_bind, wp_get, h.2.1, hmem, if_true, if_false]
  trivial

end DevicePoll

end AsyncOwfs
