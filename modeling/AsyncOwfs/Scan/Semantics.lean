import AsyncOwfs.Scan.Sweep

/-!
# AsyncOwfs.Scan.Semantics

Scans and alarm polls keep track of the devices: a device is on the bus that
listed it most recently, unless four complete scans have missed it since.

The code does so for as long as no device is sighted on a bus while it is located
on another one, and no alarm poll meets a device with misses: a bus that a device
has left goes on counting misses for it, and `poll_alarm` does not restart the
count.
-/

namespace AsyncOwfs

namespace Service

open Hoare Transition Tracking

/-- The bus that a device says it is on; nothing, if there is no such device. -/
def busOf (s : Service) (d : String) : Option BusRef :=
  (s.devices.get? d).bind fun r => (s.dev r).bus

/-- A slot has the place of its device. -/
theorem place_slot (s : Service) (d : String) : (s.slot d).place = s.busOf d := by
  rw [slot, busOf]
  cases s.devices.get? d <;> rfl

/-- What an operation reports of the devices. -/
def report : Action → Option (Report BusRef String)
  | .scan v root => some (.sweep (sightings v root))
  | .pollAlarm b entries => some (.notice b (entries.map Prod.fst))
  | _ => none

/-- A scan of server `v` that visits every bus of the tree `T` and lists no device
twice, or an alarm poll of such a bus; all ids are upper-case. -/
def Over (v : Nat) (T : List BusRef) : Action → Prop
  | .scan w root => w = v ∧ (visits v root).Nodup ∧ (visits v root).Perm T ∧
      ((sightings v root).map Prod.snd).Nodup ∧ ∀ x ∈ sightings v root, upper x.2 = x.2
  | .pollAlarm b entries => b ∈ T ∧ b.server = v ∧ ∀ e ∈ entries, upper e.1 = e.1
  | _ => False

instance (v : Nat) (T : List BusRef) (a : Action) : Decidable (Over v T a) := by
  unfold Over
  split <;> infer_instance

/-- An alarm poll does not raise. -/
def ErrorFree (s : Service) : Action → Prop
  | .pollAlarm b entries =>
    match Service.pollAlarm b entries s with
    | .ok _ _ => True
    | .error _ _ => False
  | _ => True

instance (s : Service) (a : Action) : Decidable (ErrorFree s a) := by
  unfold ErrorFree
  split
  · split <;> infer_instance
  · infer_instance

/-- No device is sighted on a bus while it is located on another one, and none
that has been missed is sighted by an alarm poll. -/
def Orderly (s : Service) (a : Action) : Prop :=
  ∀ s', s.step a = some s' → s'.disturbed = s.disturbed ∧ s'.uncounted = s.uncounted

instance (s : Service) (a : Action) : Decidable (Orderly s a) :=
  inferInstanceAs (Decidable (∀ s' ∈ s.step a,
    s'.disturbed = s.disturbed ∧ s'.uncounted = s.uncounted))

/-- All is well so far, and all devices are in the tree. -/
structure Placed (v : Nat) (T : List BusRef) (s : Service) : Prop extends Ready v s where
  disturbed : s.disturbed = false
  uncounted : s.uncounted = false
  place : ∀ d x, (s.slot d).place = some x → x ∈ T

/-- **A scan** moves the devices in its listings. -/
theorem placed_scan {v : Nat} {T : List BusRef} {s s' : Service}
    {root : List (String × Listing)} (hs : s.Placed v T) (hover : Over v T (.scan v root))
    (horderly : s.Orderly (.scan v root)) (h : s.step (.scan v root) = some s') :
    s'.Placed v T ∧ Tracks 2 (visits v root) (sightings v root) s.slot s'.slot := by
  obtain ⟨-, hV, hT, hS, hupper⟩ := hover
  obtain ⟨hdist, hcount⟩ := horderly s' h
  rw [hs.disturbed] at hdist
  rw [hs.uncounted] at hcount
  rw [step] at h
  split at h
  · next heq =>
    rw [Option.some.injEq] at h
    subst h
    have hswept := wp_of_ok (swept_scanBase hs.toReady hV hS hupper) heq
    obtain ⟨hready, -, htracks⟩ := hswept.resolve_left (by simp [IsDisturbed, hdist])
    refine ⟨⟨hready, hdist, hcount, fun d x hx => ?_⟩, htracks⟩
    by_cases hd : d ∈ (sightings v root).map Prod.snd
    · obtain ⟨⟨c, d⟩, hmem, rfl⟩ := List.mem_map.mp hd
      rw [(htracks.sighted c d hmem).1, Option.some.injEq] at hx
      exact hT.mem_iff.mp (hx ▸ mem_visits v root _ hmem)
    · exact hs.place d x (htracks.place_of_notMem hd hx)
  · contradiction

/-- **An alarm poll** moves the devices in the alarm directory. -/
theorem placed_pollAlarm {v : Nat} {T : List BusRef} {s s' : Service} {b : BusRef}
    {entries : List (String × Except Exc Unit)} (hs : s.Placed v T)
    (hover : Over v T (.pollAlarm b entries)) (herror : s.ErrorFree (.pollAlarm b entries))
    (horderly : s.Orderly (.pollAlarm b entries)) (h : s.step (.pollAlarm b entries) = some s') :
    s'.Placed v T ∧ (∀ n ∈ entries.map Prod.fst, s'.slot n = ⟨some b, 0⟩) ∧
      ∀ n, n ∉ entries.map Prod.fst → s'.slot n = s.slot n := by
  obtain ⟨hb, hserver, hupper⟩ := hover
  obtain ⟨hdist, hcount⟩ := horderly s' h
  rw [hs.disturbed] at hdist
  rw [hs.uncounted] at hcount
  rw [step, Option.ite_none_right_eq_some, Option.some.injEq, after] at h
  rw [ErrorFree] at herror
  split at herror
  · next t heq =>
    rw [heq] at h
    obtain rfl : t = s' := h.2
    have hnoticed := wp_of_ok (noticed_pollAlarm hserver entries s hs.toReady hupper) heq
    obtain ⟨hready, hcount', hmem, hnotMem⟩ :=
      hnoticed.resolve_left (by simp [IsDisturbed, hdist])
    rw [hcount, hs.uncounted, Bool.false_or, eq_comm, List.any_eq_false] at hcount'
    have hmem' : ∀ n ∈ entries.map Prod.fst, t.slot n = ⟨some b, 0⟩ := by
      intro n hn
      obtain ⟨e, he, rfl⟩ := List.mem_map.mp hn
      have hzero : (s.slot e.1).misses = 0 := by simpa using hcount' e he
      rw [hmem e.1 hn, hzero]
    refine ⟨⟨hready, hdist, hcount, fun d x hx => ?_⟩, hmem', hnotMem⟩
    by_cases hd : d ∈ entries.map Prod.fst
    · rw [hmem' d hd, Option.some.injEq] at hx
      exact hx ▸ hb
    · rw [hnotMem d hd] at hx
      exact hs.place d x hx
  · contradiction

/-- **One operation**: what is tracked goes on following the record. -/
theorem follows_step {v : Nat} {T : List BusRef} {s s' : Service} {a : Action}
    (hs : s.Placed v T) (hover : Over v T a) (herror : s.ErrorFree a) (horderly : s.Orderly a)
    (h : s.step a = some s') :
    s'.Placed v T ∧ ∃ x, report a = some x ∧
      ∀ d y, Follows 2 (s.slot d) y → Follows 2 (s'.slot d) (y.after d x) := by
  cases a with
  | scan w root =>
      have hw : w = v := hover.1
      subst hw
      obtain ⟨hs', htracks⟩ := placed_scan hs hover horderly h
      refine ⟨hs', _, rfl, fun d y hy => hy.sweep htracks fun x hx => ?_⟩
      exact hover.2.2.1.mem_iff.mpr (hs.place d x hx)
  | pollAlarm b entries =>
      obtain ⟨hs', hmem, hnotMem⟩ := placed_pollAlarm hs hover herror horderly h
      exact ⟨hs', _, rfl, fun d y hy => hy.notice (hmem d) (hnotMem d)⟩
  | getDevice id => exact hover.elim
  | deleteDevice r => exact hover.elim
  | aclose w => exact hover.elim

theorem follows_run {v : Nat} {T : List BusRef} (as : List Action) :
    ∀ s s' : Service, s.Placed v T → (∀ a ∈ as, Over v T a) → AllSteps step ErrorFree s as →
      AllSteps step Orderly s as → Transition.run step s as = some s' → ∀ d y,
      Follows 2 (s.slot d) y →
      Follows 2 (s'.slot d) ((as.filterMap report).foldl (Record.after d) y) := by
  induction as with
  | nil =>
      intro s s' _ _ _ _ h d y hy
      rw [run_nil, Option.some.injEq] at h
      exact h ▸ hy
  | cons a as ih =>
      intro s s' hs hover herror horderly h d y hy
      obtain ⟨t, ht, h⟩ := run_cons h
      obtain ⟨he, herror⟩ := herror t ht
      obtain ⟨ho, horderly⟩ := horderly t ht
      obtain ⟨hs', x, hx, hfollows⟩ := follows_step hs (hover a List.mem_cons_self) he ho ht
      rw [List.filterMap_cons_some hx, List.foldl_cons]
      exact ih t s' hs' (fun a ha => hover a (List.mem_cons_of_mem _ ha)) herror horderly h d _
        (hfollows d y hy)

/-- In the beginning nothing is anywhere. -/
theorem init_placed (v : Nat) (T : List BusRef) : init.Placed v T := by
  have hslot : ∀ d, init.slot d = {} := fun d => rfl
  refine ⟨⟨⟨init_whole, ?_⟩, fun r b hb => ?_, fun k r hr => ?_⟩, rfl, rfl, fun d x hx => ?_⟩
  · simp [init]
  · contradiction
  · simp [init] at hr
  · rw [hslot] at hx
    contradiction

/-- **A device is where it was reported last, unless four scans have missed it
since**, in every run in which no device is sighted where it should not be, and
none that has been missed is sighted by an alarm poll. -/
theorem busOf_eq_record {v : Nat} {T : List BusRef} {as : List Action} {s : Service}
    (hover : ∀ a ∈ as, Over v T a) (herror : AllSteps step ErrorFree init as)
    (horderly : AllSteps step Orderly init as) (h : Transition.run step init as = some s)
    (d : String) : s.busOf d = (record d (as.filterMap report)).place 4 := by
  have hfollows := follows_run as init s (init_placed v T) hover herror horderly h d {}
    (follows_init 2)
  rw [← place_slot]
  exact hfollows.place

/-- A thermometer is found, missed three times, found again, has an alarm, and is
missed three times more: it is still there. -/
theorem busOf_missed_thrice :
    let sighted : Action := .scan 0 [("bus.0", .cons "10.345678.00" .nil .nil .nil)]
    let gone : Action := .scan 0 [("bus.0", .nil)]
    let alarm : Action := .pollAlarm ⟨0, ["bus.0"]⟩ [("10.345678.00", .ok ())]
    (Transition.run step init [sighted, gone, gone, gone, sighted, alarm, gone, gone, gone]).map
      (fun s => s.busOf "10.345678.00") = some (some ⟨0, ["bus.0"]⟩) := by
  intro sighted gone alarm
  have hsome : (Transition.run step init
      [sighted, gone, gone, gone, sighted, alarm, gone, gone, gone]).isSome := by decide
  obtain ⟨s, hs⟩ := Option.isSome_iff_exists.mp hsome
  have hT : ∀ a ∈ [sighted, gone, gone, gone, sighted, alarm, gone, gone, gone],
      Over 0 [⟨0, ["bus.0"]⟩] a := by decide
  rw [hs, Option.map_some, busOf_eq_record hT (by decide) (by decide) hs]
  decide

/-- A thermometer that has moved is dropped at its second miss, because its old
bus counts too, and one that has had an alarm at its first, because the alarm
has not restarted the count. -/
theorem not_busOf_moved :
    let here : Listing := .cons "10.345678.00" .nil .nil .nil
    let moves : List Action :=
      [.scan 0 [("bus.0", here), ("bus.1", .nil)], .scan 0 [("bus.0", .nil), ("bus.1", here)],
        .scan 0 [("bus.0", .nil), ("bus.1", .nil)], .scan 0 [("bus.0", .nil), ("bus.1", .nil)]]
    let alarms : List Action :=
      [.scan 0 [("bus.0", here)], .scan 0 [("bus.0", .nil)], .scan 0 [("bus.0", .nil)],
        .scan 0 [("bus.0", .nil)], .pollAlarm ⟨0, ["bus.0"]⟩ [("10.345678.00", .ok ())],
        .scan 0 [("bus.0", .nil)]]
    ((∀ a ∈ moves, Over 0 [⟨0, ["bus.0"]⟩, ⟨0, ["bus.1"]⟩] a) ∧
        AllSteps step ErrorFree init moves ∧
        (Transition.run step init moves).map (fun s => s.busOf "10.345678.00") = some none ∧
        (record "10.345678.00" (moves.filterMap report)).place 4 = some ⟨0, ["bus.1"]⟩) ∧
      (∀ a ∈ alarms, Over 0 [⟨0, ["bus.0"]⟩] a) ∧ AllSteps step ErrorFree init alarms ∧
        (Transition.run step init alarms).map (fun s => s.busOf "10.345678.00") = some none ∧
        (record "10.345678.00" (alarms.filterMap report)).place 4 = some ⟨0, ["bus.0"]⟩ := by
  refine ⟨⟨?_, ?_, ?_, ?_⟩, ?_, ?_, ?_, ?_⟩ <;> decide

end Service

end AsyncOwfs
