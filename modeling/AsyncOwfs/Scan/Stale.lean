import AsyncOwfs.Scan.Vanished

/-!
# AsyncOwfs.Scan.Stale

What holds of the devices' places while devices move from bus to bus.

A bus that a device has left keeps its entry, so a bus may list devices that are
elsewhere.  But a device is listed where it is, under its id, and whatever is
listed is registered.  That is so for as long as the ids are upper-case.
-/

namespace AsyncOwfs

namespace Service

open Hoare Transition

/-- Nothing is closed; devices are registered under their ids, and listed where
they are. -/
structure Stocked (s : Service) : Prop where
  registered : ∀ k r, s.devices.get? k = some r → r < s.nextDev ∧ (s.dev r).id = k
  listed : ∀ b k r, s.lookup b k = some r → s.devices.get? k = some r
  located : ∀ r b, (s.dev r).bus = some b → s.lookup b (s.dev r).id = some r
  waits : s.Waits
  server : ∀ v, s.server v ≠ none
  present : ∀ b, (s.bus b).devices ≠ none ∧ (s.bus b).buses ≠ none

/-- A device is listed under its id. -/
theorem Stocked.id_of_listed {s : Service} (hs : s.Stocked) {b : BusRef} {k : String} {r : Nat}
    (h : s.lookup b k = some r) : (s.dev r).id = k :=
  (hs.registered k r (hs.listed b k r h)).2

/-- Nothing has changed but what devices say of themselves. -/
theorem Stocked.of_frame {s s' : Service} (hs : s.Stocked) (hf : Frame s s')
    (hid : ∀ r, (s'.dev r).id = (s.dev r).id)
    (hlisted : ∀ b k r, s'.lookup b k = some r → s.devices.get? k = some r)
    (hlocated : ∀ r b, (s'.dev r).bus = some b → s'.lookup b (s.dev r).id = some r)
    (hwaits : s'.Waits) : s'.Stocked where
  registered k r hr := by
    rw [hid, hf.nextDev]
    exact hs.registered k r (hf.devices ▸ hr)
  listed b k r hr := by
    rw [hf.devices]
    exact hlisted b k r hr
  located r b hb := by
    rw [hid]
    exact hlocated r b hb
  waits := hwaits
  server v h := hs.server v ((hf.server v).mp h)
  present b :=
    ⟨fun h => (hs.present b).1 ((hf.busDevices b).mp h), fun h => (hs.present b).2 ((hf.buses b).mp h)⟩

/-- What touches neither devices nor dictionaries. -/
theorem Stocked.of_same {s s' : Service} (hs : s.Stocked) (hf : Frame s s') (hdev : s'.dev = s.dev)
    (hlook : ∀ c k, s'.lookup c k = s.lookup c k) : s'.Stocked := by
  refine hs.of_frame hf (fun r => by rw [hdev]) (fun b k r hr => ?_) (fun r b hb => ?_) fun r => ?_
  · exact hs.listed b k r (hlook b k ▸ hr)
  · rw [hlook]
    exact hs.located r b (hdev ▸ hb)
  · rw [hdev]
    exact hs.waits r

/-- A device that has been seen or missed keeps its id. -/
theorem Stocked.of_unseen {s s' : Service} (hs : s.Stocked) (hf : Frame s s') {r u : Nat}
    (hdev : s'.dev = Function.update s.dev r { s.dev r with unseen := u })
    (hlook : ∀ c k, s'.lookup c k = s.lookup c k) : s'.Stocked := by
  refine hs.of_frame hf (dev_update Device.id hdev rfl) (fun b k x hx => ?_) (fun x b hb => ?_)
    (hs.waits.update hdev (hs.waits r))
  · exact hs.listed b k x (hlook b k ▸ hx)
  · rw [hlook]
    exact hs.located x b (dev_update Device.bus hdev rfl x ▸ hb)

/-! ## Sightings -/

/-- A new device is registered under its id. -/
theorem stocked_getDevice {d : String} (hd : upper d = d) {s : Service} (hs : s.Stocked) :
    wp (getDevice d) (fun r s' => s'.Stocked ∧ s'.devices.get? d = some r)
      (fun _ s' => s'.Stocked) s := by
  refine wp_mono (getDevice_spec d s) (fun r s' h => ?_) (fun _ s' h => h.1 ▸ hs)
  obtain ⟨hbus, hserver, -, huncounted, h⟩ := h
  have hlook : ∀ c k, s'.lookup c k = s.lookup c k := fun c k => by rw [lookup, hbus, lookup]
  rcases h with ⟨hr, hdevices, hnext, hdev⟩ | ⟨hnone, rfl, hnext, hdevices, family, _, _, -, hdev⟩
  · have hf : Frame s s' := ⟨hdevices, hnext, huncounted, fun v => by rw [hserver],
      fun c => by rw [hbus], fun c => by rw [hbus]⟩
    exact ⟨hs.of_same hf hdev hlook, hdevices ▸ hr⟩
  · rw [hd] at hdevices hdev
    have hget : ∀ k, s'.devices.get? k = if k = d then some s.nextDev else s.devices.get? k := by
      intro k
      rw [hdevices, Dict.get?_set]
    have hnew : s'.dev s.nextDev = { id := d, family } := by rw [hdev, Function.update_self]
    have hold : ∀ r, r ≠ s.nextDev → s'.dev r = s.dev r := by
      intro r hr
      rw [hdev, Function.update_of_ne hr]
    refine ⟨⟨fun k r hr => ?_, fun b k r hr => ?_, fun r b hb => ?_, fun r => ?_, ?_, ?_⟩, ?_⟩
    · rw [hget] at hr
      split at hr
      · next hk =>
        rw [Option.some.injEq] at hr
        subst hr hk
        rw [hnew]
        exact ⟨by omega, rfl⟩
      · obtain ⟨hlt, hid⟩ := hs.registered k r hr
        rw [hold r (by omega)]
        exact ⟨by omega, hid⟩
    · rw [hlook] at hr
      have hreg := hs.listed b k r hr
      rw [hget, if_neg, hreg]
      rintro rfl
      rw [hnone] at hreg
      contradiction
    · by_cases hr : r = s.nextDev
      · rw [hr, hnew] at hb
        contradiction
      · rw [hold r hr] at hb ⊢
        rw [hlook]
        exact hs.located r b hb
    · by_cases hr : r = s.nextDev
      · rw [hr, hnew]
        simp
      · rw [hold r hr]
        exact hs.waits r
    · rw [hserver]
      exact hs.server
    · rw [hbus]
      exact hs.present
    · rw [hget, if_pos rfl]

/-- The device may be located elsewhere: then it stays listed there, too. -/
theorem stocked_addDevice {b : BusRef} {d : String} {r : Nat} {s : Service} (hs : s.Stocked)
    (hr : s.devices.get? d = some r) :
    wp (addDevice b r) (fun _ s' => s'.Stocked) (fun _ _ => False) s := by
  have hid := (hs.registered d r hr).2
  refine wp_mono (addDevice_spec hs.waits (hs.present b).1) (fun _ s' h => ?_) (fun _ _ h => h)
  obtain ⟨hf, -, hdev, hlook⟩ := h
  rw [hid] at hlook
  refine hs.of_frame hf (dev_update Device.id hdev rfl) (fun c k x hx => ?_) (fun x c hc => ?_)
    (hs.waits.update hdev (by simp))
  · rw [hlook] at hx
    split at hx
    · next hck =>
      rw [Option.some.injEq] at hx
      rw [hck.2, ← hx, hr]
    · exact hs.listed c k x hx
  · rw [hlook]
    by_cases hx : x = r
    · subst hx
      rw [hdev, Function.update_self, Option.some.injEq] at hc
      rw [if_pos ⟨hc.symm, hid⟩]
    · rw [hdev, Function.update_of_ne hx] at hc
      have hl := hs.located x c hc
      rw [if_neg, hl]
      rintro ⟨-, hxd⟩
      have hxr := hs.listed c _ x hl
      rw [hxd, hr, Option.some.injEq] at hxr
      exact hx hxr.symm

/-- Counting is about no ids. -/
theorem stocked_unseen (r u : Nat) : Keeps Stocked (modifyDev r fun d => { d with unseen := u }) := by
  intro s hs
  have hf : Frame s { s with dev := Function.update s.dev r { s.dev r with unseen := u } } :=
    ⟨rfl, rfl, rfl, fun _ => Iff.rfl, fun _ => Iff.rfl, fun _ => Iff.rfl⟩
  exact hs.of_unseen hf rfl fun _ _ => rfl

/-- A device that is listed in upper case is listed under its id. -/
theorem stocked_found {b : BusRef} {d : String} (old : List String) (hd : upper d = d) :
    Keeps Stocked (found b d old) := by
  intro s hs
  rw [found]
  apply wp_seq (stocked_getDevice hd hs)
  intro r s₁ h₁
  have hsight : wp (sight b r d old) (fun _ s' => s'.Stocked) (fun _ s' => s'.Stocked) s₁ := by
    simp only [sight, wp_bind, wp_get]
    split
    · split <;> exact h₁.1
    · rw [wp_bind]
      exact wp_mono_ok (stocked_addDevice h₁.1 h₁.2) fun _ _ h => h
  apply wp_seq hsight
  intro old s₂ h₂
  rw [wp_bind]
  exact wp_mono (stocked_unseen r 0 s₂ h₂) (fun _ _ h => h) (fun _ _ h => h)

/-! ## Misses -/

/-- A device that is somewhere else is not delocated. -/
theorem delocate_elsewhere {r : Nat} {b : BusRef} {s : Service} (h : (s.dev r).bus ≠ some b) :
    wp (delocate r b) (fun _ s' => s' = s) (fun _ _ => False) s := by
  simp only [delocate, wp_bind, wp_get, h, if_false, wp_pure]

/-- A device that leaves its bus leaves the dictionary. -/
theorem Stocked.removed {s s' : Service} (hs : s.Stocked) (hf : Frame s s') {b : BusRef} {r : Nat}
    (hbus : (s.dev r).bus = some b)
    (hdev : s'.dev = Function.update s.dev r { s.dev r with bus := none, waitBus := false })
    (hlook : ∀ c k, s'.lookup c k = if c = b ∧ k = (s.dev r).id then none else s.lookup c k) :
    s'.Stocked := by
  refine hs.of_frame hf (dev_update Device.id hdev rfl) (fun c k x hx => ?_) (fun x c hc => ?_)
    (hs.waits.update hdev (by simp))
  · rw [hlook] at hx
    split at hx
    · contradiction
    · exact hs.listed c k x hx
  · by_cases hx : x = r
    · subst hx
      rw [hdev, Function.update_self] at hc
      contradiction
    · rw [hdev, Function.update_of_ne hx] at hc
      have hl := hs.located x c hc
      rw [hlook, if_neg, hl]
      rintro ⟨rfl, hid⟩
      have hr := hs.located r c hbus
      rw [← hid, hl, Option.some.injEq] at hr
      exact hx hr

/-- A device that is missed too often leaves the dictionary. -/
theorem stocked_miss (b : BusRef) (d : String) : Keeps Stocked (miss b d) := by
  intro s hs
  simp only [miss, wp_bind, wp_get]
  split
  · exact hs
  · next ds hds =>
    split
    · exact hs
    · next r hr =>
      split
      · by_cases hbus : (s.dev r).bus = some b
        · apply wp_mono_ok (delocate_spec hbus (hs.located r b hbus))
          intro _ s' h
          exact hs.removed h.1 hbus h.2.2.1 h.2.2.2
        · exact wp_mono_ok (delocate_elsewhere hbus) fun _ s' h => h ▸ hs
      · exact stocked_unseen r _ s hs

/-! ## Scans -/

/-- **The steps of a scan** keep the dictionaries in order, if ids are in upper case. -/
theorem stocked_scan (v : Nat) :
    ScanKeepsOn v Stocked (fun _ => True) (fun d => upper d = d) where
  sub _ _ _ _ := trivial
  found _ _ old _ hd := stocked_found old hd
  getBus b id port _ s hs := by
    apply wp_mono_ok (getBus_spec [id, port] (hs.present b).2)
    intro _ s' h
    exact hs.of_same h.2.1 h.2.2.2.1 h.2.2.2.2
  miss b d _ := stocked_miss b d
  serverGetBus name s hs := by
    apply wp_mono_ok (serverGetBus_spec name (hs.server v))
    intro _ s' h
    exact ⟨trivial, hs.of_same h.2.1 h.2.2.2.1 h.2.2.2.2⟩
  seen b _ s hs := by
    apply wp_mono_ok (busUnseen_spec b 0 s)
    intro _ s' h
    exact hs.of_same h.1 h.2.2.1 h.2.2.2

/-- The buses of a server are all different: a bus is named by its path, and all
sub-buses are as far below their bus. -/
structure Forked (s : Service) : Prop where
  names : ∀ v names, s.server v = some names → names.Nodup
  paths : ∀ b paths, (s.bus b).buses = some paths → paths.Nodup ∧ ∀ p ∈ paths, p.length = 2

/-- The names of buses are no matter of devices. -/
theorem stable_forked : Stable Forked := by
  intro s s' h hs
  constructor
  · rw [h.server]
    exact hs.names
  · intro b paths hpaths
    exact hs.paths b paths ((h.buses b).symm.trans hpaths)

/-- A branch that is made has a new path, with an id and a port. -/
theorem forked_getBus (b : BusRef) (id port : String) : Keeps Forked (getBus b [id, port]) := by
  intro s hs
  simp only [getBus, wp_bind, wp_get]
  split
  · exact hs
  · next paths hpaths =>
    split
    · exact hs
    · next hp =>
      simp only [wp_bind, wp_set, pushEvent, wp_modify, wp_pure]
      refine ⟨hs.names, fun c paths' hpaths' => ?_⟩
      by_cases hc : c = b
      · subst hc
        simp only [Function.update_self, Option.some.injEq] at hpaths'
        subst hpaths'
        obtain ⟨hnodup, hlen⟩ := hs.paths c paths hpaths
        refine ⟨?_, fun p hmem => ?_⟩
        · rw [← List.concat_eq_append]
          exact hnodup.concat hp
        · rcases List.mem_append.mp hmem with hmem | hmem
          · exact hlen p hmem
          · rw [List.mem_singleton] at hmem
            rw [hmem]
            rfl
      · simp only [Function.update_of_ne hc] at hpaths'
        exact hs.paths c paths' hpaths'

/-- A bus below the root that is made has a new name. -/
theorem forked_serverGetBus (v : Nat) (name : String) : Keeps Forked (serverGetBus v name) := by
  intro s hs
  simp only [serverGetBus, wp_bind, wp_get]
  split
  · exact hs
  · next names hnames =>
    split
    · exact hs
    · next hn =>
      simp only [wp_bind, wp_set, pushEvent, wp_modify, wp_pure]
      refine ⟨fun w names' hnames' => ?_, hs.paths⟩
      by_cases hw : w = v
      · subst hw
        simp only [Function.update_self, Option.some.injEq] at hnames'
        subst hnames'
        rw [← List.concat_eq_append]
        exact (hs.names w names hnames).concat hn
      · simp only [Function.update_of_ne hw] at hnames'
        exact hs.names w names' hnames'

/-- **The steps of a scan** make no bus twice. -/
theorem forked_scan (v : Nat) : ScanKeeps v Forked fun _ => True :=
  .of_stable stable_forked forked_getBus (forked_serverGetBus v)

/-- What has come about by complete scans with upper-case ids. -/
structure Scanned (s : Service) : Prop extends Stocked s, Forked s, Deep s

/-- In the beginning nothing has been scanned. -/
theorem scanned_init : init.Scanned := by
  refine ⟨⟨?_, ?_, ?_, ?_, ?_, ?_⟩, ⟨?_, ?_⟩, ⟨?_, fun b paths p hpaths hp => ?_⟩⟩
  case refine_10 =>
    rw [init, Option.some.injEq] at hpaths
    simp [← hpaths] at hp
  all_goals simp [init, lookup, Waits]

/-- **A scan** keeps all of this. -/
theorem scanned_scanBase {v : Nat} {root : List (String × Listing)}
    (hroot : ∀ e ∈ root, ∀ d ∈ e.2.ids, upper d = d) : Keeps Scanned (scanBase v root) := by
  intro s hs
  have h := wp_and ((stocked_scan v).scanBase root hroot s hs.toStocked)
    (wp_and ((forked_scan v).scanBase root s hs.toForked) ((deep_scan v).scanBase root s hs.toDeep))
  exact wp_mono h (fun _ _ h => ⟨h.1, h.2.1, h.2.2⟩) (fun _ _ h => ⟨h.1, h.2.1, h.2.2⟩)

/-- **Complete scans** of any servers, whatever they are told. -/
theorem scanned_run {roots : List (Nat × List (String × Listing))} {s s' : Service}
    (hroots : ∀ x ∈ roots, ∀ e ∈ x.2, ∀ d ∈ e.2.ids, upper d = d) (hs : s.Scanned)
    (h : Transition.run step s (roots.map fun x => .scan x.1 x.2) = some s') : s'.Scanned := by
  induction roots generalizing s with
  | nil =>
      rw [List.map_nil, run_nil, Option.some.injEq] at h
      exact h ▸ hs
  | cons x roots ih =>
      obtain ⟨t, ht, h⟩ := run_cons h
      refine ih (fun y hy => hroots y (List.mem_cons_of_mem x hy)) ?_ h
      rw [step] at ht
      split at ht
      · next heq =>
        rw [Option.some.injEq] at ht
        have hscan := wp_of_ok (scanned_scanBase (hroots x List.mem_cons_self) s hs) heq
        exact ht ▸ hscan
      · contradiction

end Service

end AsyncOwfs
