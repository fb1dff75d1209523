import AsyncOwfs.Scan.Listing
import AsyncOwfs.Scan.Location
import AsyncOwfs.Lib.Tracking

/-!
# AsyncOwfs.Scan.Sweep

A scan is a sweep: it takes the devices that it is told of to where they were
sighted, and misses the others on the buses that it visits.  An alarm poll is a
notice of devices on its bus.

This is said of the slots that `Service._devices` holds, device by device.  It
holds for as long as nothing is disturbed, so what is known behind each part of a
scan is that something was disturbed, or that the part was a sweep.
-/

namespace AsyncOwfs

namespace Service

open Hoare Tracking

/-! ## Slots -/

/-- The device that is registered under an id: its place and its misses. -/
def slot (s : Service) (d : String) : Slot BusRef :=
  match s.devices.get? d with
  | none => {}
  | some r => ⟨(s.dev r).bus, (s.dev r).unseen⟩

/-- Besides, whatever is located is registered, and what is registered is what
its id says. -/
structure Ready (v : Nat) (s : Service) : Prop extends Fine v s where
  enrolled : ∀ r b, (s.dev r).bus = some b → s.devices.get? (s.dev r).id = some r
  device : ∀ k r, s.devices.get? k = some r → (s.dev r).id = k ∧
    ∃ code check, splitId k = .ok ((s.dev r).family, code, check)

/-- The slot of an id is that of its device. -/
theorem slot_of_get? {s : Service} {d : String} {r : Nat} (h : s.devices.get? d = some r) :
    s.slot d = ⟨(s.dev r).bus, (s.dev r).unseen⟩ := by rw [slot, h]

/-- A bus lists just the registered devices that are located there. -/
theorem Ready.lookup_iff {v : Nat} {s : Service} (hs : s.Ready v) (b : BusRef) (d : String) (r : Nat) :
    s.lookup b d = some r ↔ s.devices.get? d = some r ∧ (s.slot d).place = some b := by
  rw [hs.good.located]
  constructor
  · rintro ⟨rfl, hbus⟩
    have hget := hs.enrolled r b hbus
    exact ⟨hget, by rw [slot_of_get? hget, hbus]⟩
  · rintro ⟨hget, hplace⟩
    rw [slot_of_get? hget] at hplace
    exact ⟨(hs.device d r hget).1, hplace⟩

/-- A device that is on a bus is in its dictionary. -/
theorem Ready.exists_lookup {v : Nat} {s : Service} (hs : s.Ready v) {b : BusRef} {d : String}
    (h : (s.slot d).place = some b) : ∃ r, s.lookup b d = some r := by
  cases hget : s.devices.get? d with
  | none => simp [slot, hget] at h
  | some r => exact ⟨r, (hs.lookup_iff b d r).mpr ⟨hget, h⟩⟩

/-- Nothing has changed that slots depend on. -/
theorem Ready.of_same {v : Nat} {s s' : Service} (hs : s.Ready v) (hf : Frame s s')
    (hdev : s'.dev = s.dev) (hg : s'.Good) : s'.Ready v ∧ s'.slot = s.slot := by
  refine ⟨⟨hs.of_frame hf hg, fun r b hbus => ?_, fun k r hr => ?_⟩, funext fun d => ?_⟩
  · rw [hf.devices, hdev]
    exact hs.enrolled r b (hdev ▸ hbus)
  · rw [hdev]
    exact hs.device k r (hf.devices ▸ hr)
  · rw [slot, slot, hf.devices, hdev]

/-- A registered device has changed, but not its id or its family. -/
theorem Ready.of_update {v : Nat} {s s' : Service} (hs : s.Ready v) (hf : Frame s s')
    {d : String} {r : Nat} {x : Device} (hr : s.devices.get? d = some r)
    (hdev : s'.dev = Function.update s.dev r x) (hid : x.id = (s.dev r).id)
    (hfamily : x.family = (s.dev r).family) (hg : s'.Good) :
    s'.Ready v ∧ s'.slot = Function.update s.slot d ⟨x.bus, x.unseen⟩ := by
  have hrid := (hs.device d r hr).1
  refine ⟨⟨hs.of_frame hf hg, fun y b hbus => ?_, fun k y hy => ?_⟩, funext fun k => ?_⟩
  · rw [hf.devices, hdev]
    rw [hdev] at hbus
    by_cases hyr : y = r
    · subst hyr
      rw [Function.update_self, hid, hrid, hr]
    · rw [Function.update_of_ne hyr] at hbus ⊢
      exact hs.enrolled y b hbus
  · rw [hf.devices] at hy
    rw [hdev]
    by_cases hyr : y = r
    · subst hyr
      rw [Function.update_self, hid, hfamily]
      exact hs.device k y hy
    · rw [Function.update_of_ne hyr]
      exact hs.device k y hy
  · rw [slot, hf.devices, hdev]
    by_cases hk : k = d
    · subst hk
      simp [hr]
    · rw [Function.update_of_ne hk, slot]
      cases hget : s.devices.get? k with
      | none => rfl
      | some y =>
          have hyr : y ≠ r := by
            rintro rfl
            exact hk ((hs.device k y hget).1.symm.trans hrid)
          simp [hyr]

/-! ## The single methods -/

/-- `get_device` makes a device that is nowhere, if there is none. -/
theorem ready_getDevice {v : Nat} {s : Service} {d : String} (hd : upper d = d)
    (hs : s.Ready v) :
    wp (getDevice d)
      (fun r s' => s'.Ready v ∧ s'.slot = s.slot ∧ s'.devices.get? d = some r ∧
        s'.uncounted = s.uncounted)
      (fun _ _ => True) s := by
  refine wp_mono (wp_and (hs.toFine.toWhole.getDevice d) (getDevice_spec d s))
    (fun r s' h => ?_) (fun _ _ _ => trivial)
  obtain ⟨⟨hw, hserver, hr⟩, hbus, -, -, hcount, h⟩ := h
  have hfine : s'.Fine v := ⟨hw, hserver ▸ hs.server⟩
  rcases h with ⟨hget, hdevices, -, hdev⟩ | ⟨hget, rfl, hnext, hdevices, family, code, check, hsplit, hdev⟩
  · refine ⟨⟨hfine, fun r b hbus => ?_, fun k r hr => ?_⟩, funext fun k => ?_, hdevices ▸ hget, hcount⟩
    · rw [hdevices, hdev]
      exact hs.enrolled r b (hdev ▸ hbus)
    · rw [hdev]
      exact hs.device k r (hdevices ▸ hr)
    · rw [slot, slot, hdevices, hdev]
  · rw [hd] at hdevices hdev
    have hother : ∀ k y, k ≠ d → s'.devices.get? k = some y →
        s.devices.get? k = some y ∧ s'.dev y = s.dev y := by
      intro k y hk hy
      rw [hdevices, Dict.get?_set, if_neg hk] at hy
      have hlt := hs.good.registered k y hy
      exact ⟨hy, by rw [hdev, Function.update_of_ne (by omega)]⟩
    refine ⟨⟨hfine, fun y b hbus => ?_, fun k y hy => ?_⟩, funext fun k => ?_, ?_, hcount⟩
    · by_cases hy : y = s.nextDev
      · simp [hdev, hy] at hbus
      · rw [hdev, Function.update_of_ne hy] at hbus ⊢
        have hget' := hs.enrolled y b hbus
        rw [hdevices, Dict.get?_set, if_neg fun hk => by simp [hk, hget] at hget']
        exact hget'
    · by_cases hk : k = d
      · subst hk
        rw [hdevices, Dict.get?_set, if_pos rfl, Option.some.injEq] at hy
        rw [hdev, ← hy, Function.update_self]
        exact ⟨rfl, code, check, hsplit⟩
      · obtain ⟨hy, hdevy⟩ := hother k y hk hy
        rw [hdevy]
        exact hs.device k y hy
    · by_cases hk : k = d
      · subst hk
        simp [slot, hdevices, Dict.get?_set, hget, hdev]
      · have hk' : s'.devices.get? k = s.devices.get? k := by
          rw [hdevices, Dict.get?_set, if_neg hk]
        cases hy : s.devices.get? k with
        | none => simp [slot, hk', hy]
        | some y => simp [slot, hk', hy, (hother k y hk (hk'.trans hy)).2]
    · rw [hdevices, Dict.get?_set, if_pos rfl]

/-- `add_device` moves a device here, from nowhere. -/
theorem ready_addDevice {v : Nat} {s : Service} {b : BusRef} {d : String} {r : Nat}
    (hb : b.server = v) (hr : s.devices.get? d = some r) (hs : s.Ready v) :
    wp (addDevice b r)
      (fun _ s' => s'.IsDisturbed ∨ s'.Ready v ∧
        s'.slot = Function.update s.slot d ⟨some b, (s.slot d).misses⟩ ∧
        s'.devices = s.devices ∧ s'.uncounted = s.uncounted ∧
        ∀ c, (s.slot d).place = some c → c = b)
      (fun _ _ => True) s := by
  have hintact := hs.intact b (hb ▸ hs.server)
  apply wp_mono_ok (addDevice_spec hs.good.waits hintact.1)
  intro _ s' h
  obtain ⟨hf, hdist, hdev, hlook⟩ := h
  by_cases hd : Disturbs s b r
  · left
    simp [IsDisturbed, hdist, hd]
  · right
    have hg := hs.good.added hf (hs.good.registered d r hr) hd hdev hlook
    obtain ⟨hready, hslot⟩ := hs.of_update hf hr hdev rfl rfl hg
    refine ⟨hready, ?_, hf.devices, hf.uncounted, fun c hc => ?_⟩
    · rw [hslot, slot_of_get? hr]
    · rw [slot_of_get? hr] at hc
      change (s.dev r).bus = some c at hc
      simp only [Disturbs, not_or, not_and, not_not] at hd
      have h := hd.1 (by simp [hc])
      rw [hc, Option.some.injEq] at h
      exact h

/-- A count changes the slot of its device only. -/
theorem ready_unseen {v : Nat} {s : Service} {d : String} {r : Nat} (u : Nat)
    (hr : s.devices.get? d = some r) (hs : s.Ready v) :
    wp (modifyDev r fun d => { d with unseen := u })
      (fun _ s' => s'.Ready v ∧ s'.slot = Function.update s.slot d ⟨(s.slot d).place, u⟩ ∧
        s'.devices = s.devices ∧ s'.uncounted = s.uncounted)
      (fun _ _ => True) s := by
  have hf : Frame s { s with dev := Function.update s.dev r { s.dev r with unseen := u } } :=
    ⟨rfl, rfl, rfl, fun _ => Iff.rfl, fun _ => Iff.rfl, fun _ => Iff.rfl⟩
  have hg := hs.good.of_unseen hf rfl fun _ _ => rfl
  obtain ⟨hready, hslot⟩ := hs.of_update hf hr rfl rfl rfl hg
  rw [modifyDev, wp_modify]
  exact ⟨hready, by rw [hslot, slot_of_get? hr], rfl, rfl⟩

/-- `_scan_one` counts a miss, for a device that is located here. -/
theorem ready_miss {v : Nat} {s : Service} {b : BusRef} {d : String}
    (hplace : (s.slot d).place = some b) (hs : s.Ready v) :
    wp (miss b d)
      (fun _ s' => s'.Ready v ∧ s'.slot = Function.update s.slot d ((s.slot d).missed 2) ∧
        s'.uncounted = s.uncounted)
      (fun _ _ => True) s := by
  obtain ⟨r, hlook⟩ := hs.exists_lookup hplace
  have hr := ((hs.lookup_iff b d r).mp hlook).1
  obtain ⟨hid, hbus⟩ := (hs.good.located b d r).mp hlook
  apply wp_mono_ok (miss_spec hlook hid hbus)
  intro _ s' h
  obtain ⟨hf, -, h⟩ := h
  split at h
  · next hu =>
    subst hid
    obtain ⟨hready, hslot⟩ := hs.of_update hf hr h.1 rfl rfl (hs.good.removed hf hbus h.1 h.2)
    refine ⟨hready, ?_, hf.uncounted⟩
    rw [hslot, slot_of_get? hr, Slot.missed, if_pos hu]
  · next hu =>
    obtain ⟨hready, hslot⟩ := hs.of_update hf hr h.1 rfl rfl (hs.good.of_unseen hf h.1 h.2)
    refine ⟨hready, ?_, hf.uncounted⟩
    rw [hslot, slot_of_get? hr, Slot.missed, if_neg hu]

/-- A sub-bus changes no slots. -/
theorem ready_getBus {v : Nat} {s : Service} {b : BusRef} (path : List String)
    (hb : b.server = v) (hs : s.Ready v) :
    wp (getBus b path)
      (fun c s' => c = some (b.sub path) ∧ s'.Ready v ∧ s'.slot = s.slot ∧
        s'.uncounted = s.uncounted)
      (fun _ _ => True) s := by
  have hintact := hs.intact b (hb ▸ hs.server)
  apply wp_mono_ok (getBus_spec path hintact.2)
  intro c s' h
  obtain ⟨hc, hf, -, hdev, hlook⟩ := h
  obtain ⟨hready, hslot⟩ := hs.of_same hf hdev (hs.good.of_same hf hdev hlook)
  exact ⟨hc, hready, hslot, hf.uncounted⟩

/-- A bus below the root changes no slots. -/
theorem ready_serverGetBus {v : Nat} {s : Service} (name : String) (hs : s.Ready v) :
    wp (serverGetBus v name)
      (fun c s' => c = ⟨v, [name]⟩ ∧ s'.Ready v ∧ s'.slot = s.slot ∧ s'.uncounted = s.uncounted)
      (fun _ _ => True) s := by
  apply wp_mono_ok (serverGetBus_spec name hs.server)
  intro c s' h
  obtain ⟨hc, hf, -, hdev, hlook⟩ := h
  obtain ⟨hready, hslot⟩ := hs.of_same hf hdev (hs.good.of_same hf hdev hlook)
  exact ⟨hc, hready, hslot, hf.uncounted⟩

/-- The count of a bus is in no slot. -/
theorem ready_busUnseen {v : Nat} {s : Service} (b : BusRef) (u : Nat) (hs : s.Ready v) :
    wp (modifyBus b fun bus => { bus with unseen := u })
      (fun _ s' => s'.Ready v ∧ s'.slot = s.slot ∧ s'.uncounted = s.uncounted)
      (fun _ _ => True) s := by
  apply wp_mono_ok (busUnseen_spec b u s)
  intro _ s' h
  obtain ⟨hf, -, hdev, hlook⟩ := h
  obtain ⟨hready, hslot⟩ := hs.of_same hf hdev (hs.good.of_same hf hdev hlook)
  exact ⟨hready, hslot, hf.uncounted⟩

/-! ## One bus -/

/-- What part of a scan is known to do: something was disturbed, or it has swept
some buses. -/
def Swept (v : Nat) (V : List BusRef) (S : List (BusRef × String)) (s s' : Service) : Prop :=
  s'.Ready v ∧ s'.uncounted = s.uncounted ∧ Tracks 2 V S s.slot s'.slot

/-- A device that is listed here is here: it was before, or was nowhere. -/
theorem ready_sight {v : Nat} {s : Service} {b : BusRef} {d : String} {r : Nat}
    {old : List String} (hb : b.server = v) (hr : s.devices.get? d = some r)
    (hnodup : old.Nodup) (hold : ∀ x ∈ old, (s.slot x).place = some b) (hs : s.Ready v) :
    wp (sight b r d old)
      (fun old' s' => s'.IsDisturbed ∨ (s'.Ready v ∧
        s'.slot = Function.update s.slot d ⟨some b, (s.slot d).misses⟩ ∧
        s'.devices = s.devices ∧ s'.uncounted = s.uncounted ∧
        ∀ c, (s.slot d).place = some c → c = b) ∧
        old'.Nodup ∧ ∀ x, x ∈ old' ↔ x ∈ old ∧ x ≠ d)
      (fun _ _ => True) s := by
  simp only [sight, wp_bind, wp_get]
  have hslot := slot_of_get? hr
  split
  · next hbus =>
    split
    · -- it is no longer among those that may have gone
      rw [wp_pure]
      have hsame : s.slot = Function.update s.slot d ⟨some b, (s.slot d).misses⟩ := by
        rw [eq_comm, Function.update_eq_self_iff, hslot, hbus]
      refine .inr ⟨⟨hs, hsame, rfl, rfl, fun c hc => ?_⟩, hnodup.erase d, fun x => ?_⟩
      · rw [hslot, hbus] at hc
        exact (Option.some.inj hc).symm
      · rw [hnodup.mem_erase_iff, and_comm]
    · trivial
  · next hbus =>
    have hd : d ∉ old := by
      intro h
      have hplace := hold d h
      rw [hslot] at hplace
      exact hbus hplace
    apply wp_seq (ready_addDevice hb hr hs)
    intro _ s' h
    refine h.imp_right fun h => ⟨h, hnodup, fun x => ?_⟩
    constructor
    · intro hx
      refine ⟨hx, ?_⟩
      rintro rfl
      exact hd hx
    · exact And.left

/-- **A device that is listed** is on this bus then, and has been seen. -/
theorem swept_found {v : Nat} {s : Service} {b : BusRef} {d : String} {old : List String}
    (hb : b.server = v) (hd : upper d = d) (hnodup : old.Nodup)
    (hold : ∀ x ∈ old, (s.slot x).place = some b) (hs : s.Ready v) :
    wp (found b d old)
      (fun a s' => s'.IsDisturbed ∨ Swept v [] [(b, d)] s s' ∧ s'.devices.get? d = some a.1 ∧
        a.2.Nodup ∧ ∀ x, x ∈ a.2 ↔ x ∈ old ∧ x ≠ d)
      (fun _ _ => True) s := by
  rw [found]
  apply wp_seq (ready_getDevice hd hs)
  intro r s₁ h₁
  obtain ⟨hs₁, hslot₁, hr, hcount₁⟩ := h₁
  refine wp_bind_or (ready_sight hb hr hnodup (hslot₁ ▸ hold) hs₁)
    (fun old => (keeps_unseen stable_isDisturbed r 0).bind fun _ _ h => h) fun old' s₂ h₂ => ?_
  obtain ⟨⟨hs₂, hslot₂, hdevices₂, hcount₂, hplace⟩, hold'⟩ := h₂
  apply wp_seq (ready_unseen 0 (hdevices₂ ▸ hr) hs₂)
  intro _ s₃ h₃
  obtain ⟨hs₃, hslot₃, hdevices₃, hcount₃⟩ := h₃
  have hslot : s₃.slot = Function.update s.slot d ⟨some b, 0⟩ := by
    rw [hslot₃, hslot₂, hslot₁, Function.update_self, Function.update_idem]
  refine .inr ⟨⟨hs₃, by rw [hcount₃, hcount₂, hcount₁], ?_⟩, ?_, hold'⟩
  · rw [hslot]
    constructor
    · intro c n hn
      rw [List.mem_singleton, Prod.mk.injEq] at hn
      obtain ⟨rfl, rfl⟩ := hn
      exact ⟨Function.update_self .., fun x hx => .inl (hplace x (hslot₁ ▸ hx))⟩
    · exact fun _ _ _ _ hx => absurd hx List.not_mem_nil
    · intro n hn _
      exact Function.update_of_ne (by simpa using hn) ..
  · rw [hdevices₃, hdevices₂, hr]

theorem Swept.append {v : Nat} {V V' : List BusRef} {S S' : List (BusRef × String)}
    {s t u : Service} (h : Swept v V S s t) (h' : Swept v V' S' t u) (hV : V.Disjoint V')
    (hS : (S.map Prod.snd).Disjoint (S'.map Prod.snd)) (hc : ∀ x ∈ S, x.1 ∉ V') :
    Swept v (V ++ V') (S ++ S') s u :=
  ⟨h'.1, h'.2.1.trans h.2.1, h.2.2.append h'.2.2 hV hS hc⟩

/-- The old devices that are left are missed, each of them once. -/
theorem ready_misses {v : Nat} {b : BusRef} (old : List String) (hnodup : old.Nodup) :
    ∀ s : Service, s.Ready v → (∀ x ∈ old, (s.slot x).place = some b) →
      wp (old.forM (miss b))
        (fun _ s' => s'.Ready v ∧ s'.uncounted = s.uncounted ∧
          (∀ n ∈ old, s'.slot n = (s.slot n).missed 2) ∧ ∀ n, n ∉ old → s'.slot n = s.slot n)
        (fun _ _ => True) s := by
  induction old with
  | nil => exact fun s hs _ => ⟨hs, rfl, fun _ h => absurd h List.not_mem_nil, fun _ _ => rfl⟩
  | cons d old ih =>
      intro s hs hold
      obtain ⟨hd, hnodup⟩ := List.nodup_cons.mp hnodup
      rw [List.forM]
      apply wp_seq (ready_miss (hold d List.mem_cons_self) hs)
      intro _ s₁ h₁
      obtain ⟨hs₁, hslot₁, hcount₁⟩ := h₁
      have hsame : ∀ n, n ≠ d → s₁.slot n = s.slot n := by
        intro n hn
        rw [hslot₁, Function.update_of_ne hn]
      have hold₁ : ∀ x ∈ old, (s₁.slot x).place = some b := by
        intro x hx
        rw [hsame x fun h => hd (h ▸ hx)]
        exact hold x (List.mem_cons_of_mem d hx)
      refine wp_mono (ih hnodup s₁ hs₁ hold₁) (fun _ s₂ h₂ => ?_) (fun _ _ _ => trivial)
      obtain ⟨hs₂, hcount₂, hmem, hnotMem⟩ := h₂
      refine ⟨hs₂, hcount₂.trans hcount₁, fun n hn => ?_, fun n hn => ?_⟩
      · by_cases hnd : n = d
        · subst hnd
          rw [hnotMem n hd, hslot₁, Function.update_self]
        · rw [hmem n ((List.mem_cons.mp hn).resolve_left hnd), hsame n hnd]
      · rw [List.mem_cons, not_or] at hn
        rw [hnotMem n hn.2, hsame n hn.1]

/-- The loop over the directory of bus `c` sweeps what is below; the old devices
that it leaves are those that it has not sighted. -/
def SweepsEntries (v : Nat) (c : BusRef) (V : List BusRef) (S : List (BusRef × String))
    (entries : List String → Method (List String × List PathKey)) : Prop :=
  ∀ (old : List String) (s : Service), s.Ready v → old.Nodup →
    (∀ x ∈ old, (s.slot x).place = some c) →
    wp (entries old)
      (fun a s' => s'.IsDisturbed ∨ Swept v V S s s' ∧ a.1.Nodup ∧
        ∀ x, x ∈ a.1 ↔ x ∈ old ∧ (c, x) ∉ S)
      (fun _ _ => True) s

/-- A bus is swept once its old devices have been missed. -/
theorem swept_scanWith {v : Nat} {s : Service} {c : BusRef} {V : List BusRef}
    {S : List (BusRef × String)} {entries : List String → Method (List String × List PathKey)}
    (hc : c.server = v) (hV : c ∉ V) (hs : s.Ready v)
    (he : SweepsEntries v c V S entries) :
    wp (scanWith c entries) (fun _ s' => s'.IsDisturbed ∨ Swept v (c :: V) S s s')
      (fun _ _ => True) s := by
  obtain ⟨ds, hds⟩ := Option.ne_none_iff_exists'.mp (hs.intact c (hc ▸ hs.server)).1
  have hkeys : ∀ x, x ∈ ds.keys ↔ (s.slot x).place = some c := by
    intro x
    rw [Dict.mem_keys]
    constructor
    · rintro ⟨r, hr⟩
      exact ((hs.lookup_iff c x r).mp (by rw [lookup, hds]; exact hr)).2
    · intro hx
      obtain ⟨r, hr⟩ := hs.exists_lookup hx
      rw [lookup, hds] at hr
      exact ⟨r, hr⟩
  simp only [scanWith, wp_bind, wp_get, hds]
  rw [← wp_bind]
  refine wp_bind_or (he ds.keys s hs ds.nodup fun x hx => (hkeys x).mp hx)
    (fun a => (KeepsOr.forM (keeps_miss stable_isDisturbed c) a.1).bind fun _ _ h => h) fun a s₁ h₁ => ?_
  obtain ⟨⟨hs₁, hcount₁, htracks⟩, hnodup, hleft⟩ := h₁
  -- an old device that was sighted nowhere, and so is still here
  have hgone : ∀ x ∈ a.1, x ∉ S.map Prod.snd ∧ s₁.slot x = s.slot x := by
    intro x hx
    obtain ⟨hx, hxS⟩ := (hleft x).mp hx
    have hplace := (hkeys x).mp hx
    have hnot : x ∉ S.map Prod.snd := by
      intro h
      obtain ⟨⟨e, x⟩, hmem, rfl⟩ := List.mem_map.mp h
      rcases (htracks.sighted e x hmem).2 c hplace with rfl | h
      · exact hxS hmem
      · exact hV h
    refine ⟨hnot, htracks.same x hnot fun y hy hplace' => ?_⟩
    rw [hplace, Option.some.injEq] at hplace'
    exact hV (hplace' ▸ hy)
  have hold₁ : ∀ x ∈ a.1, (s₁.slot x).place = some c := by
    intro x hx
    rw [(hgone x hx).2]
    exact (hkeys x).mp ((hleft x).mp hx).1
  apply wp_seq (ready_misses a.1 hnodup s₁ hs₁ hold₁)
  intro _ s₂ h₂
  obtain ⟨hs₂, hcount₂, hmem, hnotMem⟩ := h₂
  refine .inr ⟨hs₂, hcount₂.trans hcount₁, ?_⟩
  constructor
  · intro e n hn
    obtain ⟨hslot, hplace⟩ := htracks.sighted e n hn
    have hleft : n ∉ a.1 := fun h => (hgone n h).1 (List.mem_map_of_mem hn)
    rw [hnotMem n hleft]
    exact ⟨hslot, fun x hx => (hplace x hx).imp_right (List.mem_cons_of_mem c)⟩
  · intro n x hn hx hxV
    rcases List.mem_cons.mp hxV with rfl | hxV
    · have hleft : n ∈ a.1 :=
        (hleft n).mpr ⟨(hkeys n).mpr hx, fun h => hn (List.mem_map_of_mem h)⟩
      rw [hmem n hleft, (hgone n hleft).2]
    · have hleft : n ∉ a.1 := by
        intro h
        rw [← (hgone n h).2, hold₁ n h, Option.some.injEq] at hx
        exact hV (hx ▸ hxV)
      rw [hnotMem n hleft, htracks.missed n x hn hx hxV]
  · intro n hn hx
    have hleft : n ∉ a.1 := by
      intro h
      have hplace := hold₁ n h
      rw [(hgone n h).2] at hplace
      exact hx c List.mem_cons_self hplace
    rw [hnotMem n hleft, htracks.same n hn fun y hy => hx y (List.mem_cons_of_mem c hy)]

/-- A sub-bus is swept. -/
theorem swept_visit {v : Nat} {s : Service} {b : BusRef} {path : List String} {V : List BusRef}
    {S : List (BusRef × String)}
    (entries : BusRef → List String → Method (List String × List PathKey))
    (hb : b.server = v) (hV : b.sub path ∉ V) (hs : s.Ready v)
    (he : SweepsEntries v (b.sub path) V S (entries (b.sub path))) :
    wp (visit b path entries) (fun _ s' => s'.IsDisturbed ∨ Swept v (b.sub path :: V) S s s')
      (fun _ _ => True) s := by
  rw [visit]
  apply wp_seq (ready_getBus path hb hs)
  intro c s₁ h₁
  obtain ⟨rfl, hs₁, hslot₁, hcount₁⟩ := h₁
  have hscan := swept_scanWith (c := b.sub path) hb hV hs₁ he
  apply wp_seq hscan
  intro _ s₂ h₂
  rw [wp_pure]
  refine h₂.imp_right fun h => ⟨h.1, h.2.1.trans hcount₁, ?_⟩
  rw [← hslot₁]
  exact h.2.2

/-- The sub-buses of a coupler are swept one after the other. -/
theorem swept_visitAll {v : Nat} {s : Service} {b : BusRef} {d : String} {r : Nat}
    {family code check : Int} {main aux : Listing} (hb : b.server = v) (hs : s.Ready v)
    (hr : s.devices.get? d = some r) (hsplit : splitId d = .ok (family, code, check))
    (hm : ∀ c, c.server = v → main.Proper c →
      SweepsEntries v c (main.visits c) (main.sightings c) (scanEntries main c))
    (ha : ∀ c, c.server = v → aux.Proper c →
      SweepsEntries v c (aux.visits c) (aux.sightings c) (scanEntries aux c))
    (hV : (below family d b (fun c => c :: main.visits c) (fun c => c :: aux.visits c)).Nodup)
    (hS : ((below family d b main.sightings aux.sightings).map Prod.snd).Nodup)
    (hupper : ∀ x ∈ below family d b main.sightings aux.sightings, upper x.2 = x.2) :
    wp (visitAll b r (scanEntries main) (scanEntries aux))
      (fun _ s' => s'.IsDisturbed ∨
        Swept v (below family d b (fun c => c :: main.visits c) (fun c => c :: aux.visits c))
          (below family d b main.sightings aux.sightings) s s')
      (fun _ _ => True) s := by
  obtain ⟨hid, code', check', hsplit'⟩ := hs.device d r hr
  have hfamily : (s.dev r).family = family := by
    rw [hsplit, Except.ok.injEq, Prod.mk.injEq] at hsplit'
    exact hsplit'.1.symm
  rw [visitAll, wp_bind, wp_get, hfamily, hid]
  unfold below at hV hS hupper ⊢
  by_cases hf : family = switchFamily
  · simp only [if_pos hf] at hV hS hupper ⊢
    rw [List.map_append] at hS
    obtain ⟨hVm, hVa, hVma⟩ := List.nodup_append'.mp hV
    obtain ⟨hSm, hSa, hSma⟩ := List.nodup_append'.mp hS
    have hpm : main.Proper (b.sub [d, "main"]) :=
      ⟨hVm, hSm, fun x hx => hupper x (List.mem_append_left _ hx)⟩
    have hpa : aux.Proper (b.sub [d, "aux"]) :=
      ⟨hVa, hSa, fun x hx => hupper x (List.mem_append_right _ hx)⟩
    have hmain := swept_visit (scanEntries main) hb (List.nodup_cons.mp hVm).1 hs
      (hm _ hb hpm)
    refine wp_bind_or hmain (fun _ => ?_) fun _ s₁ h₁ => ?_
    · have haux := (disturbed_scan v).on.visit (b := b) trivial d "aux"
        (fun c old h => (disturbed_scan v).scanEntries aux c old h)
      exact haux.bind fun _ s hs => hs
    · have haux := swept_visit (scanEntries aux) hb (List.nodup_cons.mp hVa).1 h₁.1
        (ha _ hb hpa)
      apply wp_seq haux
      intro _ s₂ h₂
      refine h₂.imp_right fun h₂ => h₁.append h₂ hVma hSma fun x hx => ?_
      exact fun h => hVma (covered main _ x hx) h
  · simp only [if_neg hf]
    exact .inr ⟨hs, rfl, .refl _⟩

/-- **One bus, with all that is below it**: the buses there are swept.  The
induction is on what the server says is there; between a coupler's entry and the
next one lie the sweeps of `main` and `aux`. -/
theorem swept_scanEntries {v : Nat} (listing : Listing) :
    ∀ b : BusRef, b.server = v → listing.Proper b →
      SweepsEntries v b (listing.visits b) (listing.sightings b) (scanEntries listing b) := by
  induction listing with
  | nil =>
      intro b hb hp old s hs hnodup hold
      exact .inr ⟨⟨hs, rfl, .refl _⟩, hnodup, fun x => by simp [Listing.sightings]⟩
  | cons d main aux rest ihm iha ihr =>
      intro b hb hp old s hs hnodup hold
      obtain ⟨hvisits, hnames, hupper⟩ := hp
      rw [scanEntries]
      cases hsplit : splitId d with
      | error e =>
          simp only [Listing.visits, Listing.sightings, hsplit] at hvisits hnames hupper ⊢
          exact ihr b hb ⟨hvisits, hnames, hupper⟩ old s hs hnodup hold
      | ok x =>
          obtain ⟨family, code, check⟩ := x
          simp only [Listing.visits, Listing.sightings, hsplit] at hvisits hnames hupper ⊢
          rw [List.nodup_cons, List.mem_append, not_or, List.nodup_append'] at hvisits
          obtain ⟨⟨hbelow, hrest⟩, hV, hVr, hVd⟩ := hvisits
          rw [List.map_cons, List.map_append, List.nodup_cons, List.nodup_append'] at hnames
          obtain ⟨hd, hS, hSr, hSd⟩ := hnames
          have hcov := mem_below (covered main) (covered aux) family d b
          refine wp_bind_or (swept_found hb (hupper (b, d) List.mem_cons_self) hnodup hold hs)
            (fun a => ?_) fun a s₁ h₁ => ?_
          · have hall := (disturbed_scan v).visitAll (b := b) trivial a.1
              (fun c old h => (disturbed_scan v).scanEntries main c old h)
              (fun c old h => (disturbed_scan v).scanEntries aux c old h)
            refine hall.bind fun _ => ?_
            exact ((disturbed_scan v).scanEntries rest b a.2 trivial).bind fun _ _ hs => hs
          obtain ⟨hswept₁, hr, hnodup₁, hleft₁⟩ := h₁
          have hvisit := swept_visitAll hb hswept₁.1 hr hsplit ihm iha hV hS fun x hx =>
            hupper x (List.mem_cons_of_mem _ (List.mem_append_left _ hx))
          refine wp_bind_or hvisit (fun _ => ?_) fun _ s₂ hswept₂ => ?_
          · exact ((disturbed_scan v).scanEntries rest b a.2 trivial).bind fun _ _ hs => hs
          -- what is left of the old devices is still here
          have hold₂ : ∀ x ∈ a.2, (s₂.slot x).place = some b := by
            intro x hx
            obtain ⟨hx, hxd⟩ := (hleft₁ x).mp hx
            have h₁ := hswept₁.2.2.same x (by simpa using hxd) fun _ h => absurd h List.not_mem_nil
            have h₂ := hswept₂.2.2.same_of_notMem hcov (by rw [h₁]; exact hold x hx) hbelow
            rw [h₂.1, h₁]
            exact hold x hx
          have hproper : rest.Proper b := ⟨List.nodup_cons.mpr ⟨hrest, hVr⟩, hSr, fun x hx =>
            hupper x (List.mem_cons_of_mem _ (List.mem_append_right _ hx))⟩
          apply wp_seq (ihr b hb hproper a.2 s₂ hswept₂.1 hnodup₁ hold₂)
          intro a' s₃ h₃
          rw [wp_pure]
          refine h₃.imp_right fun h₃ => ?_
          obtain ⟨hswept₃, hnodup₃, hleft₃⟩ := h₃
          refine ⟨?_, hnodup₃, fun x => ?_⟩
          · have h₂₃ := hswept₂.append hswept₃ hVd hSd fun x hx => hVd (hcov x hx)
            have hnames : ([(b, d)].map Prod.snd).Disjoint
                ((below family d b main.sightings aux.sightings ++ rest.sightings b).map Prod.snd) := by
              rw [List.map_append]
              exact List.singleton_disjoint.mpr hd
            refine hswept₁.append h₂₃ (List.disjoint_nil_left _) hnames fun x hx hmem => ?_
            rw [List.mem_singleton] at hx
            subst hx
            exact (List.mem_append.mp hmem).elim hbelow hrest
          · have hx : (b, x) ∉ below family d b main.sightings aux.sightings :=
              fun h => hbelow (hcov _ h)
            rw [hleft₃, hleft₁, List.mem_cons, List.mem_append, Prod.mk.injEq]
            tauto

/-! ## A whole scan -/

/-- By induction on the root directory. -/
theorem swept_enumerate {v : Nat} (root : List (String × Listing)) :
    ∀ s : Service, s.Ready v → (visits v root).Nodup → ((sightings v root).map Prod.snd).Nodup →
      (∀ x ∈ sightings v root, upper x.2 = x.2) →
      wp (enumerate v root [])
        (fun _ s' => s'.IsDisturbed ∨ Swept v (visits v root) (sightings v root) s s')
        (fun _ _ => True) s := by
  induction root with
  | nil => exact fun s hs _ _ _ => .inr ⟨hs, rfl, .refl _⟩
  | cons e root ih =>
      intro s hs hV hS hupper
      obtain ⟨d, listing⟩ := e
      rw [enumerate]
      rw [visits] at hV ⊢
      rw [sightings] at hS hupper ⊢
      by_cases hd : isBusName d = true
      · simp only [if_pos hd] at hV hS hupper ⊢
        rw [List.map_append] at hS
        obtain ⟨hVd, hVr, hVdr⟩ := List.nodup_append'.mp hV
        obtain ⟨hSd, hSr, hSdr⟩ := List.nodup_append'.mp hS
        have hproper : listing.Proper ⟨v, [d]⟩ :=
          ⟨hVd, hSd, fun x hx => hupper x (List.mem_append_left _ hx)⟩
        apply wp_seq (ready_serverGetBus d hs)
        intro b s₁ h₁
        obtain ⟨rfl, hs₁, hslot₁, hcount₁⟩ := h₁
        apply wp_seq (ready_busUnseen ⟨v, [d]⟩ 0 hs₁)
        intro _ s₂ h₂
        obtain ⟨hs₂, hslot₂, hcount₂⟩ := h₂
        have hscan := swept_scanWith rfl (List.nodup_cons.mp hVd).1 hs₂
          (swept_scanEntries listing ⟨v, [d]⟩ rfl hproper)
        refine wp_bind_or hscan (fun _ s hs => ?_) fun _ s₃ h₃ => ?_
        · exact wp_mono ((disturbed_scan v).enumerate root s hs) (fun _ _ h => h.2) (fun _ _ h => h)
        · have hrest := ih s₃ h₃.1 hVr hSr fun x hx => hupper x (List.mem_append_right _ hx)
          refine wp_mono hrest (fun _ s₄ h₄ => ?_) (fun _ _ _ => trivial)
          have h₀₃ : Swept v (⟨v, [d]⟩ :: listing.visits ⟨v, [d]⟩) (listing.sightings ⟨v, [d]⟩) s s₃ := by
            rw [Swept, ← hslot₁, ← hslot₂, ← hcount₁, ← hcount₂]
            exact h₃
          refine h₄.imp_right fun h₄ => h₀₃.append h₄ hVdr hSdr fun x hx hmem => ?_
          exact hVdr (covered listing _ x hx) hmem
      · simp only [if_neg hd] at hV hS hupper ⊢
        exact ih s hs hV hS hupper

/-- **A whole scan** does to the slots what its listings say. -/
theorem swept_scanBase {v : Nat} {root : List (String × Listing)} {s : Service} (hs : s.Ready v)
    (hV : (visits v root).Nodup) (hS : ((sightings v root).map Prod.snd).Nodup)
    (hupper : ∀ x ∈ sightings v root, upper x.2 = x.2) :
    wp (scanBase v root)
      (fun _ s' => s'.IsDisturbed ∨ Swept v (visits v root) (sightings v root) s s')
      (fun _ _ => True) s := by
  have hpaths := (undisturbed_scan v).enumerate root s (.inr hs.toFine)
  have hswept := swept_enumerate root s hs hV hS hupper
  rw [scanBase, wp_bind]
  refine wp_mono (wp_and hpaths hswept) (fun oldPaths s' h => ?_) (fun _ _ _ => trivial)
  rw [h.1.1]
  exact h.2

/-! ## Alarms -/

/-- A device in an alarm directory is there, with the misses that it has. -/
theorem ready_noticed {v : Nat} {s : Service} {b : BusRef} {d : String} (hb : b.server = v)
    (hd : upper d = d) (hs : s.Ready v) :
    wp (noticed b d)
      (fun _ s' => s'.IsDisturbed ∨ s'.Ready v ∧
        s'.slot = Function.update s.slot d ⟨some b, (s.slot d).misses⟩ ∧
        s'.uncounted = (s.uncounted || decide ((s.slot d).misses ≠ 0)))
      (fun _ _ => True) s := by
  rw [noticed]
  apply wp_seq (ready_getDevice hd hs)
  intro r s₁ h₁
  obtain ⟨hs₁, hslot₁, hr, hcount₁⟩ := h₁
  rw [wp_bind, wp_modify]
  have hs₂ : Ready v { s₁ with uncounted := s₁.uncounted || decide ((s₁.dev r).unseen ≠ 0) } :=
    ⟨⟨⟨hs₁.good.of_bus rfl rfl rfl rfl, hs₁.intact⟩, hs₁.server⟩, hs₁.enrolled, hs₁.device⟩
  refine wp_seq (ready_addDevice hb hr hs₂) fun _ s₃ h₃ => ?_
  rw [wp_pure]
  refine h₃.imp_right fun h₃ => ?_
  obtain ⟨hs₃, hslot₃, _, hcount₃, _⟩ := h₃
  refine ⟨hs₃, ?_, ?_⟩
  · rw [hslot₃]
    show Function.update s₁.slot d ⟨some b, (s₁.slot d).misses⟩ = _
    rw [hslot₁]
  · rw [hcount₃, ← hcount₁, ← hslot₁, slot_of_get? hr]

/-- **An alarm poll** puts the devices on its bus. -/
theorem noticed_pollAlarm {v : Nat} {b : BusRef} (hb : b.server = v)
    (entries : List (String × Except Exc Unit)) :
    ∀ s : Service, s.Ready v → (∀ e ∈ entries, upper e.1 = e.1) →
      wp (pollAlarm b entries)
        (fun _ s' => s'.IsDisturbed ∨ s'.Ready v ∧
          s'.uncounted =
            (s.uncounted || entries.any fun e => decide ((s.slot e.1).misses ≠ 0)) ∧
          (∀ n ∈ entries.map Prod.fst, s'.slot n = ⟨some b, (s.slot n).misses⟩) ∧
          ∀ n, n ∉ entries.map Prod.fst → s'.slot n = s.slot n)
        (fun _ _ => True) s := by
  induction entries with
  | nil => exact fun s hs _ => .inr ⟨hs, by simp, by simp, fun _ _ => rfl⟩
  | cons e entries ih =>
      intro s hs hupper
      obtain ⟨d, answer⟩ := e
      have hrest := keeps_pollAlarm (keeps_noticed stable_isDisturbed b) (fun _ _ hs => hs) entries
      rw [pollAlarm]
      refine wp_bind_or (ready_noticed hb (hupper (d, answer) List.mem_cons_self) hs)
        (fun r s hs => ?_) fun r s₁ h₁ => ?_
      · rw [wp_bind, wp_get, wp_bind]
        refine wp_mono (devPollAlarm_spec _ answer s) (fun _ s' h => ?_) (fun _ _ h => h ▸ hs)
        subst h
        rw [wp_bind, pushEvent, wp_modify]
        exact hrest _ hs
      · obtain ⟨hs₁, hslot₁, hcount₁⟩ := h₁
        rw [wp_bind, wp_get]
        rw [wp_bind]
        refine wp_mono (devPollAlarm_spec _ answer s₁) (fun _ s₂ h => ?_) (fun _ _ _ => trivial)
        subst h
        rw [wp_bind, pushEvent, wp_modify]
        have hs₃ : Ready v { s₂ with events := s₂.events ++ [.deviceAlarm r] } :=
          ⟨⟨⟨hs₁.good.of_bus rfl rfl rfl rfl, hs₁.intact⟩, hs₁.server⟩, hs₁.enrolled, hs₁.device⟩
        have hmisses : ∀ n, (s₂.slot n).misses = (s.slot n).misses := by
          intro n
          rw [hslot₁]
          by_cases hn : n = d
          · subst hn
            rw [Function.update_self]
          · rw [Function.update_of_ne hn]
        refine wp_mono (ih _ hs₃ fun e he => hupper e (List.mem_cons_of_mem _ he))
          (fun _ s₄ h₄ => ?_) (fun _ _ _ => trivial)
        refine h₄.imp_right fun h₄ => ?_
        obtain ⟨hs₄, hcount₄, hmem, hnotMem⟩ := h₄
        refine ⟨hs₄, ?_, fun n hn => ?_, fun n hn => ?_⟩
        · rw [hcount₄]
          show (s₂.uncounted || entries.any fun e => decide ((s₂.slot e.1).misses ≠ 0)) = _
          simp only [hmisses, hcount₁, List.any_cons, Bool.or_assoc]
        · rw [← hmisses]
          by_cases hrest : n ∈ entries.map Prod.fst
          · exact hmem n hrest
          · have hnd : n = d := (List.mem_cons.mp hn).resolve_right hrest
            rw [hnotMem n hrest]
            show s₂.slot n = _
            rw [hmisses, hslot₁, hnd, Function.update_self]
        · rw [List.map_cons, List.mem_cons, not_or] at hn
          rw [hnotMem n hn.2]
          show s₂.slot n = _
          rw [hslot₁, Function.update_of_ne hn.1]

end Service

end AsyncOwfs
