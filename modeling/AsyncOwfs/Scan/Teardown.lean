import AsyncOwfs.Scan.Stale
import Mathlib.Algebra.GroupWithZero.Nat
import Mathlib.Data.List.Count

/-!
# AsyncOwfs.Scan.Teardown

What `aclose` does to the bus tree of a server: it goes through the buses from
below, delocates the devices that are located on each of them, and says so.

Delocating a device takes it off the list that the loop is about, and a bus that
is done has neither sub-buses nor devices any more.  So what is done to a bus is
stated in terms of the state in which `aclose` has been called.
-/

namespace AsyncOwfs

/-- A device that has been delocated. -/
def Device.gone (d : Device) : Device := { d with bus := none, waitBus := false }

namespace Service

open Hoare Transition

/-- The devices that are located on a bus, in the order of its list. -/
def locatedOn (s : Service) (b : BusRef) : List Nat :=
  (((s.bus b).devices.map Dict.values).getD []).filter fun r => (s.dev r).bus = some b

/-- What is reported of the end of a bus: its sub-buses, its devices, and then the
bus itself. -/
def endOfBus (s : Service) : Nat → BusRef → List Event
  | 0, _ => []
  | fuel + 1, b =>
    (((s.bus b).buses.getD []).flatMap fun p => s.endOfBus fuel (b.sub p)) ++
      (s.locatedOn b).map .deviceNotFound ++ [.busDeleted b]

/-- What is reported of the buses of a server. -/
def endOfBuses (s : Service) (v : Nat) : List Event :=
  ((s.server v).getD []).flatMap fun n => s.endOfBus s.depth ⟨v, [n]⟩

/-- The devices of `G` have been delocated, and nothing else has changed but the
buses of `D`. -/
structure Torn (s : Service) (G : Nat → Prop) (D : BusRef → Prop) (t : Service) : Prop where
  gone : ∀ r, G r → t.dev r = (s.dev r).gone
  kept : ∀ r, ¬ G r → t.dev r = s.dev r
  bus : ∀ c, ¬ D c → t.bus c = s.bus c
  devices : t.devices = s.devices
  nextDev : t.nextDev = s.nextDev
  server : t.server = s.server
  depth : t.depth = s.depth

theorem Torn.refl (s : Service) : Torn s (fun _ => False) (fun _ => False) s :=
  ⟨fun _ h => h.elim, fun _ _ => rfl, fun _ _ => rfl, rfl, rfl, rfl, rfl⟩

theorem Torn.congr {s t : Service} {G G' : Nat → Prop} {D D' : BusRef → Prop} (h : Torn s G D t)
    (hG : ∀ r, G r ↔ G' r) (hD : ∀ c, D c → D' c) : Torn s G' D' t :=
  ⟨fun r hr => h.gone r ((hG r).mpr hr), fun r hr => h.kept r fun hg => hr ((hG r).mp hg),
    fun c hc => h.bus c fun hd => hc (hD c hd), h.devices, h.nextDev, h.server, h.depth⟩

/-- Whoever is still located is where it was. -/
theorem Torn.bus_of_some {s t : Service} {G : Nat → Prop} {D : BusRef → Prop} (h : Torn s G D t)
    {r : Nat} {b : BusRef} (hb : (t.dev r).bus = some b) : ¬ G r ∧ (s.dev r).bus = some b := by
  by_cases hr : G r
  · rw [h.gone r hr, Device.gone] at hb
    contradiction
  · exact ⟨hr, h.kept r hr ▸ hb⟩

/-- Events are not looked at. -/
theorem Torn.pushed {s t : Service} {G : Nat → Prop} {D : BusRef → Prop} (h : Torn s G D t)
    (es : List Event) : Torn s G D { t with events := es } :=
  ⟨h.gone, h.kept, h.bus, h.devices, h.nextDev, h.server, h.depth⟩

/-- A bus that may change has changed. -/
theorem Torn.changed {s t : Service} {G : Nat → Prop} {D : BusRef → Prop} (h : Torn s G D t)
    {b : BusRef} (hb : D b) (x : Bus) :
    Torn s G D { t with bus := Function.update t.bus b x } := by
  refine ⟨h.gone, h.kept, fun c hc => ?_, h.devices, h.nextDev, h.server, h.depth⟩
  have hne : c ≠ b := by
    rintro rfl
    exact hc hb
  simp only [Function.update_of_ne hne]
  exact h.bus c hc

/-! ## Devices -/

/-- `delocate` of a device that is listed where it is, with all that it does. -/
theorem delocate_located {b : BusRef} {r : Nat} {s : Service} {ds : Dict String Nat}
    (hbus : (s.dev r).bus = some b) (hds : (s.bus b).devices = some ds)
    (hget : ds.get? (s.dev r).id = some r) :
    wp (delocate r b)
      (fun _ s' => s' = { s with
        dev := Function.update s.dev r (s.dev r).gone,
        bus := Function.update s.bus b { s.bus b with devices := some (ds.erase (s.dev r).id) },
        events := s.events ++ [.deviceNotFound r] })
      (fun _ _ => False) s := by
  simp only [delocate, wp_bind, wp_get, hbus, if_true, modifyDev, wp_modify, delocateDevice,
    Function.update_self, delDevice, hds, hget, modifyBus, pushEvent, Function.update_idem,
    Device.gone]

/-- **The loop over the devices of a bus**: those that are located there are
delocated, one after the other. -/
theorem delocateEach_spec {s : Service} {b : BusRef} {D : BusRef → Prop} (hb : D b)
    (rs : List Nat) (hnodup : rs.Nodup) :
    ∀ (G : Nat → Prop) (t : Service) (ds : Dict String Nat), Torn s G D t →
      (t.bus b).devices = some ds →
      (∀ r ∈ rs, (s.dev r).bus = some b → ¬ G r ∧ ds.get? (s.dev r).id = some r) →
      wp (rs.forM fun r => delocate r b)
        (fun _ t' => Torn s (fun r => G r ∨ r ∈ rs ∧ (s.dev r).bus = some b) D t' ∧
          t'.events = t.events ++
            (rs.filter fun r => (s.dev r).bus = some b).map .deviceNotFound)
        (fun _ _ => False) t := by
  induction rs with
  | nil =>
      intro G t ds ht _ _
      exact ⟨ht.congr (fun r => by simp) (fun _ h => h), by simp⟩
  | cons r rs ih =>
      intro G t ds ht hds hmem
      obtain ⟨hr, hnodup⟩ := List.nodup_cons.mp hnodup
      rw [List.forM]
      by_cases hbus : (s.dev r).bus = some b
      · obtain ⟨hG, hget⟩ := hmem r List.mem_cons_self hbus
        have hdev := ht.kept r hG
        refine wp_seq (delocate_located (hdev ▸ hbus) hds (hdev ▸ hget)) fun _ t₁ h₁ => ?_
        subst h₁
        have ht₁ : Torn s (fun x => G x ∨ x = r) D { t with
            dev := Function.update t.dev r (t.dev r).gone,
            bus := Function.update t.bus b { t.bus b with devices := some (ds.erase (t.dev r).id) },
            events := t.events ++ [.deviceNotFound r] } := by
          refine Torn.pushed (Torn.changed (t := { t with
            dev := Function.update t.dev r (t.dev r).gone }) ?_ hb _) _
          refine ⟨fun x hx => ?_, fun x hx => ?_, ht.bus, ht.devices, ht.nextDev, ht.server, ht.depth⟩
          · by_cases hxr : x = r
            · subst hxr
              simp only [Function.update_self, hdev]
            · simp only [Function.update_of_ne hxr]
              exact ht.gone x (hx.resolve_right hxr)
          · rw [not_or] at hx
            simp only [Function.update_of_ne hx.2]
            exact ht.kept x hx.1
        have hmem₁ : ∀ x ∈ rs, (s.dev x).bus = some b →
            ¬ (G x ∨ x = r) ∧ (ds.erase (t.dev r).id).get? (s.dev x).id = some x := by
          intro x hx hxbus
          obtain ⟨hGx, hgetx⟩ := hmem x (List.mem_cons_of_mem r hx) hxbus
          have hxr : x ≠ r := by
            rintro rfl
            exact hr hx
          refine ⟨fun h => h.elim hGx hxr, ?_⟩
          rw [Dict.get?_erase, if_neg, hgetx]
          rw [hdev]
          intro hid
          rw [hid, hget, Option.some.injEq] at hgetx
          exact hxr hgetx.symm
        refine wp_mono (ih hnodup _ _ _ ht₁ (by simp) hmem₁) (fun _ t' h => ?_) (fun _ _ h => h)
        obtain ⟨ht', hevents⟩ := h
        refine ⟨ht'.congr (fun x => ?_) (fun _ h => h), ?_⟩
        · rw [List.mem_cons, or_assoc]
          refine or_congr_right ⟨?_, ?_⟩
          · rintro (rfl | h)
            · exact ⟨.inl rfl, hbus⟩
            · exact ⟨.inr h.1, h.2⟩
          · rintro ⟨rfl | h, hx⟩
            · exact .inl rfl
            · exact .inr ⟨h, hx⟩
        · rw [hevents, List.filter_cons_of_pos (by simpa using hbus), List.map_cons,
            List.append_assoc]
          rfl
      · -- a stale entry
        have helse : (t.dev r).bus ≠ some b := fun h => hbus (ht.bus_of_some h).2
        refine wp_seq (delocate_elsewhere helse) fun _ t₁ h₁ => ?_
        subst h₁
        refine wp_mono (ih hnodup G t₁ ds ht hds fun x hx => hmem x (List.mem_cons_of_mem r hx))
          (fun _ t' h => ?_) (fun _ _ h => h)
        obtain ⟨ht', hevents⟩ := h
        refine ⟨ht'.congr (fun x => ?_) (fun _ h => h), ?_⟩
        · rw [List.mem_cons]
          refine or_congr_right ⟨fun h => ⟨.inr h.1, h.2⟩, ?_⟩
          rintro ⟨rfl | h, hx⟩
          · exact absurd hx hbus
          · exact ⟨h, hx⟩
        · rw [hevents, List.filter_cons_of_neg (by simpa using hbus)]

/-- A bus that lists devices under their ids lists none twice. -/
theorem nodup_values {s : Service} {b : BusRef} {ds : Dict String Nat}
    (hkeyed : ∀ d r, s.lookup b d = some r → (s.dev r).id = d) (hds : (s.bus b).devices = some ds) :
    ds.values.Nodup := by
  have hkey : ∀ e ∈ ds.entries, (s.dev e.2).id = e.1 := by
    intro e he
    refine hkeyed e.1 e.2 ?_
    rw [lookup, hds]
    exact Dict.get?_of_mem he
  have hkeys : ds.entries.map Prod.fst = ds.values.map fun r => (s.dev r).id := by
    rw [Dict.values, List.map_map]
    exact List.map_congr_left fun e he => (hkey e he).symm
  exact List.Nodup.of_map _ (hkeys ▸ ds.nodup)

/-- A device is in the dictionary of its bus, and no other. -/
theorem mem_locatedOn {s : Service} (hs : s.Stocked) {b : BusRef} {r : Nat} :
    r ∈ s.locatedOn b ↔ (s.dev r).bus = some b := by
  rw [locatedOn, List.mem_filter, decide_eq_true_eq, and_iff_right_iff_imp]
  intro hbus
  obtain ⟨ds, hds, hget⟩ := Option.bind_eq_some_iff.mp (hs.located r b hbus)
  rw [hds, Option.map_some, Option.getD_some]
  exact Dict.mem_values.mpr ⟨_, hget⟩

/-- No device is there twice. -/
theorem nodup_locatedOn {s : Service} (hs : s.Stocked) (b : BusRef) : (s.locatedOn b).Nodup := by
  rw [locatedOn]
  cases hds : (s.bus b).devices with
  | none => simp
  | some ds => exact (nodup_values (fun _ _ => hs.id_of_listed) hds).filter _

/-- **All devices of a bus** leave it, each with its event. -/
theorem delocateDevices_spec {s t : Service} (hs : s.Stocked) {b : BusRef} {G : Nat → Prop}
    {D : BusRef → Prop} (ht : Torn s G D t) (hb : D b)
    (hdevices : (t.bus b).devices = (s.bus b).devices) (hG : ∀ r, G r → (s.dev r).bus ≠ some b) :
    wp (delocateDevices b)
      (fun _ t' => Torn s (fun r => G r ∨ (s.dev r).bus = some b) D t' ∧
        t'.events = t.events ++ (s.locatedOn b).map .deviceNotFound)
      (fun _ _ => False) t := by
  obtain ⟨ds, hds⟩ := Option.ne_none_iff_exists'.mp (hs.present b).1
  have hdst : (t.bus b).devices = some ds := hdevices.trans hds
  have hmem : ∀ r, (s.dev r).bus = some b → ds.get? (s.dev r).id = some r := by
    intro r hr
    have hl := hs.located r b hr
    rwa [lookup, hds] at hl
  have hlocated : s.locatedOn b = ds.values.filter fun r => (s.dev r).bus = some b := by
    rw [locatedOn, hds, Option.map_some, Option.getD_some]
  have hvalues : ∀ r, (s.dev r).bus = some b → r ∈ ds.values :=
    fun r hr => Dict.mem_values.mpr ⟨_, hmem r hr⟩
  simp only [delocateDevices, wp_bind, wp_get, hdst]
  split
  · rw [wp_bind]
    have hnodup := nodup_values (fun _ _ => hs.id_of_listed) hds
    refine wp_mono (delocateEach_spec hb ds.values hnodup G t ds ht hdst
      fun r _ hr => ⟨fun hg => hG r hg hr, hmem r hr⟩) (fun _ t₁ h₁ => ?_) (fun _ _ h => h)
    obtain ⟨ht₁, hevents⟩ := h₁
    rw [modifyBus, wp_modify]
    refine ⟨(ht₁.changed hb _).congr (fun r => or_congr_right ?_) (fun _ h => h), hlocated ▸ hevents⟩
    exact ⟨fun h => h.2, fun h => ⟨hvalues r h, h⟩⟩
  · next hempty =>
    rw [not_not] at hempty
    have hnone : ∀ r, (s.dev r).bus ≠ some b := by
      intro r hr
      have h := hvalues r hr
      rw [hempty] at h
      contradiction
    refine ⟨ht.congr (fun r => by simp [hnone r]) (fun _ h => h), ?_⟩
    simp [hlocated, hempty]

/-! ## Buses -/

/-- The device is located on one of these buses. -/
def Away (s : Service) (D : BusRef → Prop) (r : Nat) : Prop := ∃ c, D c ∧ (s.dev r).bus = some c

/-- The command ends the buses `T`, and reports `es`. -/
def Ends (s : Service) (x : Method PUnit) (T : List BusRef) (es : List Event) : Prop :=
  ∀ (D : BusRef → Prop) (t : Service), Torn s (s.Away D) D t → (∀ c ∈ T, ¬ D c) →
    wp x (fun _ t' => Torn s (s.Away fun c => D c ∨ c ∈ T) (fun c => D c ∨ c ∈ T) t' ∧
      t'.events = t.events ++ es) (fun _ _ => False) t

/-- Buses that have nothing in common end one after the other. -/
theorem ends_forM {α : Type} {s : Service} {f : α → Method PUnit} {T : α → List BusRef}
    {es : α → List Event} (l : List α) (hl : ∀ a ∈ l, Ends s (f a) (T a) (es a))
    (hnodup : (l.flatMap T).Nodup) : Ends s (l.forM f) (l.flatMap T) (l.flatMap es) := by
  induction l with
  | nil =>
      intro D t ht _
      exact ⟨ht.congr (fun r => by simp [Away]) (fun c hc => .inl hc), by simp⟩
  | cons a l ih =>
      intro D t ht hD
      rw [List.forall_mem_cons] at hl
      rw [List.flatMap_cons, List.nodup_append] at hnodup
      obtain ⟨-, hnodup, hdisjoint⟩ := hnodup
      rw [List.flatMap_cons, List.forall_mem_append] at hD
      rw [List.forM]
      refine wp_seq (hl.1 D t ht hD.1) fun _ t₁ h₁ => ?_
      refine wp_mono (ih hl.2 hnodup _ t₁ h₁.1 fun c hc hd => ?_) (fun _ t₂ h₂ => ?_) (fun _ _ h => h)
      · rcases hd with hd | hd
        · exact hD.2 c hc hd
        · exact hdisjoint c hd c hc rfl
      · have hiff : ∀ c, (D c ∨ c ∈ T a) ∨ c ∈ l.flatMap T ↔ D c ∨ c ∈ (a :: l).flatMap T := by
          intro c
          rw [List.flatMap_cons, List.mem_append, or_assoc]
        refine ⟨h₂.1.congr (fun r => ?_) (fun c => (hiff c).mp), ?_⟩
        · exact exists_congr fun c => and_congr_left fun _ => hiff c
        · rw [h₂.2, h₁.2, List.append_assoc, List.flatMap_cons]

/-- **One bus with all that is below it**: the sub-buses, then the devices. -/
theorem ends_delocateBus {s : Service} (hs : s.Stocked) (fuel : Nat) :
    ∀ b : BusRef, (s.allBusesBelow fuel b).Nodup →
      Ends s (delocateBus fuel b) (s.allBusesBelow fuel b) (s.endOfBus fuel b) := by
  induction fuel with
  | zero =>
      intro b _ D t ht _
      refine ⟨ht.congr (fun r => ?_) (fun c hc => .inl hc), by simp [endOfBus]⟩
      simp [allBusesBelow]
  | succ fuel ih =>
      intro b hnodup D t ht hD
      obtain ⟨paths, hpaths⟩ := Option.ne_none_iff_exists'.mp (hs.present b).2
      rw [allBusesBelow, hpaths, Option.getD_some] at hnodup hD
      obtain ⟨hb, hnodup⟩ := List.nodup_cons.mp hnodup
      rw [List.forall_mem_cons] at hD
      have hbus : t.bus b = s.bus b := ht.bus b hD.1
      generalize hT : (paths.flatMap fun p => s.allBusesBelow fuel (b.sub p)) = T at *
      have hloop : Ends s (paths.forM fun p => delocateBus fuel (b.sub p)) T
          (paths.flatMap fun p => s.endOfBus fuel (b.sub p)) := by
        subst hT
        refine ends_forM paths (fun p hp => ih (b.sub p) ?_) hnodup
        exact (List.nodup_flatMap.mp hnodup).1 p hp
      -- the sub-buses; the bus itself is still as it was, but for their list
      have hbuses : wp (delocateBuses (delocateBus fuel) b)
          (fun _ t' => Torn s (s.Away fun c => D c ∨ c ∈ T) (fun c => D c ∨ c ∈ b :: T) t' ∧
            (t'.bus b).devices = (s.bus b).devices ∧
            t'.events = t.events ++ paths.flatMap fun p => s.endOfBus fuel (b.sub p))
          (fun _ _ => False) t := by
        have hsub : ∀ c, D c ∨ c ∈ T → D c ∨ c ∈ b :: T :=
          fun c hc => hc.imp_right (List.mem_cons_of_mem b)
        simp only [delocateBuses, wp_bind, wp_get, hbus, hpaths]
        cases paths with
        | nil =>
            subst hT
            refine ⟨ht.congr (fun r => by simp [Away]) (fun c hc => .inl hc), by rw [hbus], by simp⟩
        | cons p ps =>
            simp only
            rw [wp_bind]
            refine wp_mono (hloop D t ht hD.2) (fun _ t₁ h₁ => ?_) (fun _ _ h => h)
            rw [modifyBus, wp_modify]
            refine ⟨(h₁.1.congr (fun _ => Iff.rfl) hsub).changed (.inr List.mem_cons_self) _, ?_, h₁.2⟩
            have hb₁ : t₁.bus b = s.bus b := h₁.1.bus b fun h => h.elim hD.1 hb
            simp [hb₁]
      rw [delocateBus, endOfBus, hpaths, Option.getD_some]
      refine wp_seq hbuses fun _ t₁ h₁ => ?_
      obtain ⟨ht₁, hdevices, hevents₁⟩ := h₁
      refine wp_seq (delocateDevices_spec hs ht₁ (.inr List.mem_cons_self) hdevices ?_)
        fun _ t₂ h₂ => ?_
      · rintro r ⟨c, hc, hr⟩ hr'
        rw [hr, Option.some.injEq] at hr'
        subst hr'
        exact hc.elim hD.1 hb
      · rw [pushEvent, wp_modify]
        rw [allBusesBelow, hpaths, Option.getD_some, hT]
        refine ⟨(h₂.1.congr (fun r => ?_) (fun _ h => h)).pushed _, ?_⟩
        · constructor
          · rintro (⟨c, hc, hr⟩ | hr)
            · exact ⟨c, hc.imp_right (List.mem_cons_of_mem b), hr⟩
            · exact ⟨b, .inr List.mem_cons_self, hr⟩
          · rintro ⟨c, hc, hr⟩
            rcases hc with hc | hc
            · exact .inl ⟨c, .inl hc, hr⟩
            · rcases List.mem_cons.mp hc with rfl | hc
              · exact .inr hr
              · exact .inl ⟨c, .inr hc, hr⟩
        · simp only [h₂.2, hevents₁, List.append_assoc]

/-- **The end of a server's buses.** -/
theorem aclose_spec {s : Service} (hs : s.Scanned) (v : Nat) (hnodup : (s.allBuses v).Nodup) :
    wp (aclose v)
      (fun _ t =>
        (∀ r, (∃ b ∈ s.allBuses v, (s.dev r).bus = some b) → t.dev r = (s.dev r).gone) ∧
        (∀ r, (∀ b ∈ s.allBuses v, (s.dev r).bus ≠ some b) → t.dev r = s.dev r) ∧
        t.server = Function.update s.server v none ∧
        t.events = s.events ++ .serverDisconnected v :: s.endOfBuses v)
      (fun _ _ => False) s := by
  obtain ⟨names, hnames⟩ := Option.ne_none_iff_exists'.mp (hs.server v)
  have htree : s.allBuses v = names.flatMap fun n => s.allBusesBelow s.depth ⟨v, [n]⟩ := by
    rw [allBuses, hnames, Option.getD_some]
  rw [htree] at hnodup
  have hloop := ends_forM names
    (fun n hn => ends_delocateBus hs.toStocked s.depth ⟨v, [n]⟩ ((List.nodup_flatMap.mp hnodup).1 n hn))
    hnodup
  have hstart : Torn s (s.Away fun _ => False) (fun _ => False)
      { s with events := s.events ++ [.serverDisconnected v] } :=
    ((Torn.refl s).congr (fun r => by simp [Away]) (fun _ h => h)).pushed _
  simp only [aclose, wp_bind, pushEvent, wp_modify, wp_get, hnames]
  refine wp_mono (hloop _ _ hstart fun _ _ h => h) (fun _ t h => ?_) (fun _ _ h => h)
  obtain ⟨ht, hevents⟩ := h
  refine ⟨fun r hr => ?_, fun r hr => ?_, by simp only [ht.server], ?_⟩
  · obtain ⟨b, hb, hr⟩ := hr
    exact ht.gone r ⟨b, .inr (htree ▸ hb), hr⟩
  · refine ht.kept r fun h => ?_
    obtain ⟨b, hb, hr'⟩ := h
    exact hr b (htree ▸ hb.resolve_left id) hr'
  · simp only [hevents, endOfBuses, hnames, Option.getD_some, List.append_assoc, List.singleton_append]

/-! ## The tree -/

/-- Paths are put together. -/
theorem sub_sub (b : BusRef) (p q : List String) : (b.sub p).sub q = b.sub (p ++ q) := by
  simp [BusRef.sub]

/-- The first branch can be read off a path. -/
theorem sub_inj {b : BusRef} {p q l l' : List String} (hlen : p.length = q.length)
    (h : (b.sub p).sub l = (b.sub q).sub l') : p = q := by
  rw [sub_sub, sub_sub] at h
  simp only [BusRef.sub, BusRef.mk.injEq, true_and, List.append_cancel_left_eq] at h
  exact List.append_inj_left h hlen

/-- What is below a bus has a longer path. -/
theorem exists_sub_of_mem_below {s : Service} (fuel : Nat) :
    ∀ b c, c ∈ s.allBusesBelow fuel b → ∃ l, c = b.sub l := by
  induction fuel with
  | zero => exact fun b c hc => absurd hc List.not_mem_nil
  | succ fuel ih =>
      intro b c hc
      rw [allBusesBelow] at hc
      rcases List.mem_cons.mp hc with rfl | hc
      · exact ⟨[], by simp [BusRef.sub]⟩
      · obtain ⟨p, -, hc⟩ := List.mem_flatMap.mp hc
        obtain ⟨l, rfl⟩ := ih (b.sub p) c hc
        exact ⟨p ++ l, sub_sub b p l⟩

/-- A branch is an id and a port. -/
theorem Forked.length_of_mem {s : Service} (hs : s.Forked) {b : BusRef} {p : List String}
    (hp : p ∈ (s.bus b).buses.getD []) : p.length = 2 := by
  cases hpaths : (s.bus b).buses with
  | none => simp [hpaths] at hp
  | some paths => exact (hs.paths b paths hpaths).2 p (by simpa [hpaths] using hp)

/-- Different sub-buses have nothing below them in common. -/
theorem Forked.eq_of_mem_below {s : Service} (hs : s.Forked) {fuel : Nat} {b c : BusRef}
    {p q l : List String} (hp : p ∈ (s.bus b).buses.getD []) (hq : q ∈ (s.bus b).buses.getD [])
    (hcp : c ∈ s.allBusesBelow fuel (b.sub p)) (hcq : c.sub l ∈ s.allBusesBelow fuel (b.sub q)) :
    p = q := by
  obtain ⟨l₁, rfl⟩ := exists_sub_of_mem_below fuel _ _ hcp
  obtain ⟨l₂, h⟩ := exists_sub_of_mem_below fuel _ _ hcq
  rw [sub_sub] at h
  exact sub_inj ((hs.length_of_mem hp).trans (hs.length_of_mem hq).symm) h

/-- No bus is reached twice from above. -/
theorem nodup_allBusesBelow {s : Service} (hs : s.Forked) (fuel : Nat) :
    ∀ b, (s.allBusesBelow fuel b).Nodup := by
  induction fuel with
  | zero => exact fun b => List.nodup_nil
  | succ fuel ih =>
      intro b
      rw [allBusesBelow, List.nodup_cons, List.nodup_flatMap]
      refine ⟨fun hb => ?_, fun p _ => ih (b.sub p), ?_⟩
      · obtain ⟨p, hp, hb⟩ := List.mem_flatMap.mp hb
        obtain ⟨l, hl⟩ := exists_sub_of_mem_below fuel _ _ hb
        have hlen := congrArg (fun c => c.path.length) hl
        have := hs.length_of_mem hp
        simp only [BusRef.sub, List.length_append] at hlen
        omega
      · have hnodup : ((s.bus b).buses.getD []).Nodup := by
          cases hpaths : (s.bus b).buses with
          | none => exact List.nodup_nil
          | some paths => exact (hs.paths b paths hpaths).1
        refine List.Pairwise.imp_of_mem (fun hp hq hne c hcp hcq => hne ?_) hnodup
        refine hs.eq_of_mem_below (l := []) hp hq hcp ?_
        simpa [BusRef.sub] using hcq

/-- No bus of a server is listed twice. -/
theorem nodup_allBuses {s : Service} (hs : s.Forked) (v : Nat) : (s.allBuses v).Nodup := by
  rw [allBuses, List.nodup_flatMap]
  refine ⟨fun n _ => nodup_allBusesBelow hs s.depth _, ?_⟩
  have hnodup : ((s.server v).getD []).Nodup := by
    cases hnames : s.server v with
    | none => exact List.nodup_nil
    | some names => exact hs.names v names hnames
  refine hnodup.imp fun hne c hcn hcm => hne ?_
  obtain ⟨l, rfl⟩ := exists_sub_of_mem_below s.depth _ _ hcn
  obtain ⟨l', h⟩ := exists_sub_of_mem_below s.depth _ _ hcm
  simpa [BusRef.sub] using congrArg (fun c => c.path.head?) h

/-- The buses of a server have its number. -/
theorem server_of_mem_allBuses {s : Service} {v : Nat} {b : BusRef} (hb : b ∈ s.allBuses v) :
    b.server = v := by
  obtain ⟨n, -, hb⟩ := List.mem_flatMap.mp hb
  obtain ⟨l, rfl⟩ := exists_sub_of_mem_below s.depth _ _ hb
  rfl

/-! ## The events -/

/-- A bus below is the bus itself, or below one of its branches. -/
theorem count_below_succ (s : Service) (fuel : Nat) (b c : BusRef) :
    (s.allBusesBelow (fuel + 1) b).count c = [b].count c +
      (((s.bus b).buses.getD []).map fun p => (s.allBusesBelow fuel (b.sub p)).count c).sum := by
  rw [allBusesBelow, ← List.singleton_append, List.count_append, List.count_flatMap]
  rfl

/-- Every bus is reported as often as it is in the tree. -/
theorem count_busDeleted (s : Service) (fuel : Nat) (c : BusRef) :
    ∀ b, (s.endOfBus fuel b).count (.busDeleted c) = (s.allBusesBelow fuel b).count c := by
  induction fuel with
  | zero => exact fun b => rfl
  | succ fuel ih =>
      intro b
      have hdevices : ((s.locatedOn b).map Event.deviceNotFound).count (.busDeleted c) = 0 := by
        simp [List.count_eq_zero]
      have hbus : [Event.busDeleted b].count (.busDeleted c) = [b].count c := by
        by_cases h : b = c <;> simp [h]
      rw [endOfBus, count_below_succ, List.count_append, List.count_append, hdevices, hbus,
        List.count_flatMap]
      simp only [Function.comp_def, ih]
      omega

/-- Every device is reported as often as the bus that it is located on. -/
theorem count_deviceNotFound {s : Service} (hs : s.Stocked) (fuel : Nat) (r : Nat) :
    ∀ b, (s.endOfBus fuel b).count (.deviceNotFound r) =
      (s.dev r).bus.elim 0 fun c => (s.allBusesBelow fuel b).count c := by
  have hdevices : ∀ b, ((s.locatedOn b).map Event.deviceNotFound).count (.deviceNotFound r) =
      (s.dev r).bus.elim 0 fun c => [b].count c := by
    intro b
    have hinj : Function.Injective Event.deviceNotFound := by
      intro x y h
      rwa [Event.deviceNotFound.injEq] at h
    rw [List.count_map_of_injective _ _ hinj, (nodup_locatedOn hs b).count]
    simp only [mem_locatedOn hs]
    cases hr : (s.dev r).bus with
    | none => simp
    | some c => by_cases h : b = c <;> simp [h, eq_comm]
  induction fuel with
  | zero =>
      intro b
      cases (s.dev r).bus <;> rfl
  | succ fuel ih =>
      intro b
      have hbus : [Event.busDeleted b].count (.deviceNotFound r) = 0 := by simp
      rw [endOfBus, List.count_append, List.count_append, hdevices, hbus, List.count_flatMap]
      simp only [Function.comp_def, ih]
      cases hr : (s.dev r).bus with
      | none => simp
      | some c =>
          simp only [Option.elim_some, count_below_succ]
          omega

/-- The end of a bus tells of all buses below. -/
theorem mem_endOfBus {s : Service} {fuel : Nat} {b c : BusRef} (h : c ∈ s.allBusesBelow fuel b) :
    Event.busDeleted c ∈ s.endOfBus fuel b := by
  rw [← List.count_pos_iff, count_busDeleted]
  exact List.count_pos_iff.mpr h

/-- What is in one part, in order, is in the whole, in order. -/
theorem sublist_flatMap {α β : Type} {f : α → List β} {l : List α} {xs : List β} {a : α} (ha : a ∈ l)
    (h : xs.Sublist (f a)) : xs.Sublist (l.flatMap f) := by
  rw [List.flatMap]
  exact h.trans (List.sublist_flatten_of_mem (List.mem_map_of_mem ha))

/-- A bus is reported behind all that is below it. -/
theorem sub_before {s : Service} (hs : s.Forked) (fuel : Nat) {b : BusRef} {l : List String}
    (hl : l ≠ []) :
    ∀ a, b ∈ s.allBusesBelow fuel a → b.sub l ∈ s.allBusesBelow fuel a →
      [Event.busDeleted (b.sub l), .busDeleted b].Sublist (s.endOfBus fuel a) := by
  induction fuel with
  | zero => exact fun a hb _ => absurd hb List.not_mem_nil
  | succ fuel ih =>
      intro a hb hc
      rw [allBusesBelow] at hb hc
      rw [endOfBus]
      have hne : b.sub l ≠ b := by
        intro h
        have hpath := congrArg BusRef.path h
        exact hl (by simpa [BusRef.sub] using hpath)
      rcases List.mem_cons.mp hb with rfl | hb
      · obtain ⟨p, hp, hc⟩ := List.mem_flatMap.mp ((List.mem_cons.mp hc).resolve_left hne)
        have hfirst : [Event.busDeleted (b.sub l)].Sublist
            (((s.bus b).buses.getD []).flatMap fun p => s.endOfBus fuel (b.sub p)) :=
          sublist_flatMap hp (List.singleton_sublist.mpr (mem_endOfBus hc))
        rw [List.append_assoc]
        exact hfirst.append (List.sublist_append_right _ _)
      · obtain ⟨p, hp, hb⟩ := List.mem_flatMap.mp hb
        have hca : b.sub l ≠ a := by
          obtain ⟨l', rfl⟩ := exists_sub_of_mem_below fuel _ _ hb
          intro h
          rw [sub_sub, sub_sub] at h
          have hpath := congrArg BusRef.path h
          simp [BusRef.sub] at hpath
          exact hl hpath.2.2
        obtain ⟨q, hq, hc⟩ := List.mem_flatMap.mp ((List.mem_cons.mp hc).resolve_left hca)
        obtain rfl := hs.eq_of_mem_below hp hq hb hc
        rw [List.append_assoc]
        exact (sublist_flatMap hp (ih _ hb hc)).trans (List.sublist_append_left _ _)

/-- A bus is reported behind the devices that are located on it. -/
theorem located_before {s : Service} (hs : s.Stocked) (fuel : Nat) {b : BusRef} {r : Nat}
    (hr : (s.dev r).bus = some b) :
    ∀ a, b ∈ s.allBusesBelow fuel a →
      [Event.deviceNotFound r, .busDeleted b].Sublist (s.endOfBus fuel a) := by
  induction fuel with
  | zero => exact fun a hb => absurd hb List.not_mem_nil
  | succ fuel ih =>
      intro a hb
      rw [allBusesBelow] at hb
      rw [endOfBus]
      rcases List.mem_cons.mp hb with rfl | hb
      · have hfirst : [Event.deviceNotFound r].Sublist ((s.locatedOn b).map .deviceNotFound) := by
          rw [List.singleton_sublist]
          exact List.mem_map_of_mem ((mem_locatedOn hs).mpr hr)
        rw [List.append_assoc]
        exact (hfirst.append (List.Sublist.refl [Event.busDeleted b])).trans (List.sublist_append_right _ _)
      · obtain ⟨p, hp, hb⟩ := List.mem_flatMap.mp hb
        rw [List.append_assoc]
        exact (sublist_flatMap hp (ih _ hb)).trans (List.sublist_append_left _ _)

/-- The end of a server tells of each bus as often as it is listed. -/
theorem count_endOfBuses (s : Service) (v : Nat) (c : BusRef) :
    (s.endOfBuses v).count (.busDeleted c) = (s.allBuses v).count c := by
  rw [endOfBuses, allBuses, List.count_flatMap, List.count_flatMap]
  simp only [Function.comp_def, count_busDeleted]

/-- The end of a server tells of each device as often as its bus is listed. -/
theorem count_endOfBuses_device {s : Service} (hs : s.Stocked) (v r : Nat) :
    (s.endOfBuses v).count (.deviceNotFound r) =
      (s.dev r).bus.elim 0 fun c => (s.allBuses v).count c := by
  rw [endOfBuses, allBuses, List.count_flatMap]
  simp only [Function.comp_def, count_deviceNotFound hs]
  cases (s.dev r).bus with
  | none => simp
  | some c => simp only [Option.elim_some, List.count_flatMap, Function.comp_def]

/-- **A bus below goes first.** -/
theorem sub_before_all {s : Service} (hs : s.Forked) {v : Nat} {b : BusRef} {l : List String}
    (hl : l ≠ []) (hb : b ∈ s.allBuses v) (hc : b.sub l ∈ s.allBuses v) :
    [Event.busDeleted (b.sub l), .busDeleted b].Sublist (s.endOfBuses v) := by
  obtain ⟨n, hn, hb⟩ := List.mem_flatMap.mp hb
  obtain ⟨m, -, hc⟩ := List.mem_flatMap.mp hc
  have hnm : n = m := by
    obtain ⟨l₁, rfl⟩ := exists_sub_of_mem_below s.depth _ _ hb
    obtain ⟨l₂, h⟩ := exists_sub_of_mem_below s.depth _ _ hc
    simpa [BusRef.sub] using congrArg (fun c => c.path.head?) h
  exact sublist_flatMap hn (sub_before hs s.depth hl _ hb (hnm ▸ hc))

/-- **A device goes before its bus.** -/
theorem located_before_all {s : Service} (hs : s.Stocked) {v : Nat} {b : BusRef} {r : Nat}
    (hr : (s.dev r).bus = some b) (hb : b ∈ s.allBuses v) :
    [Event.deviceNotFound r, .busDeleted b].Sublist (s.endOfBuses v) := by
  obtain ⟨n, hn, hb⟩ := List.mem_flatMap.mp hb
  exact sublist_flatMap hn (located_before hs s.depth hr _ hb)

end Service

end AsyncOwfs
