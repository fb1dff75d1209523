import AsyncOwfs.Scan.Places

/-!
# AsyncOwfs.Scan.Location

Devices and buses agree on the devices' places for as long as no device is
sighted on a bus while it is located on another one: `locate` overwrites the
device's side and `add_device` adds to the new bus, but nobody tells the old one
that the device has left.
-/

namespace AsyncOwfs

namespace Service

open Hoare Transition

/-! ## Disturbances are not forgotten -/

/-- Some device was sighted where it should not be. -/
def IsDisturbed (s : Service) : Prop := s.disturbed = true

/-- What has been disturbed stays so. -/
theorem stable_isDisturbed : Stable IsDisturbed := fun _ _ h hs => h.disturbed hs

/-- Buses are looked up and made without regard to it. -/
theorem keeps_getBus (b : BusRef) (path : List String) : Keeps IsDisturbed (getBus b path) := by
  intro s hs
  simp only [getBus, wp_bind, wp_get]
  split
  · exact hs
  · split <;> exact hs

theorem keeps_serverGetBus (v : Nat) (name : String) : Keeps IsDisturbed (serverGetBus v name) := by
  intro s hs
  simp only [serverGetBus, wp_bind, wp_get]
  split
  · exact hs
  · split <;> exact hs

/-- **No scan forgets a disturbance.** -/
theorem disturbed_scan (v : Nat) : ScanKeeps v IsDisturbed fun _ => True :=
  .of_stable stable_isDisturbed (fun b id port => keeps_getBus b [id, port]) (keeps_serverGetBus v)

/-! ## Scans -/

/-- The buses of open servers are not gone. -/
def Intact (s : Service) : Prop :=
  ∀ b, s.server b.server ≠ none → (s.bus b).devices ≠ none ∧ (s.bus b).buses ≠ none

/-- The places agree; a server may be closed. -/
structure Whole (s : Service) : Prop where
  good : s.Good
  intact : s.Intact

/-- The places agree, and server `v` is open. -/
structure Fine (v : Nat) (s : Service) : Prop extends Whole s where
  server : s.server v ≠ none

/-- Something was disturbed, or the places agree. -/
def Steady (s : Service) : Prop := s.IsDisturbed ∨ s.Whole

/-- Something was disturbed, or all is fine. -/
def Undisturbed (v : Nat) (s : Service) : Prop := s.IsDisturbed ∨ s.Fine v

/-- Whether the server is open does not matter to the places. -/
theorem Undisturbed.steady {v : Nat} {s : Service} (hs : s.Undisturbed v) : s.Steady :=
  hs.imp_right Fine.toWhole

/-- The buses are as they were, and the places agree. -/
theorem Fine.of_frame {v : Nat} {s s' : Service} (hs : s.Fine v) (hf : Frame s s')
    (hg : s'.Good) : s'.Fine v where
  good := hg
  intact b hb := by
    have h := hs.intact b (fun h => hb ((hf.server _).mpr h))
    exact ⟨fun h' => h.1 ((hf.busDevices b).mp h'), fun h' => h.2 ((hf.buses b).mp h')⟩
  server h := hs.server ((hf.server v).mp h)

/-- A device that is made has no place, so the places agree as before. -/
theorem Whole.getDevice {s : Service} (hs : s.Whole) (id : String) :
    wp (getDevice id) (fun r s' => s'.Whole ∧ s'.server = s.server ∧ r < s'.nextDev)
      (fun _ s' => s' = s) s := by
  refine wp_mono (getDevice_spec id s) (fun r s' h => ?_) (fun e s' h => h.1)
  obtain ⟨hbus, hserver, -, -, h⟩ := h
  have hintact : s'.Intact := by
    intro b hb
    rw [hbus]
    exact hs.intact b (hserver ▸ hb)
  rcases h with ⟨hr, hd, hn, hdev⟩ | ⟨-, rfl, hn, hd, family, _, _, -, hdev⟩
  · exact ⟨⟨hs.good.of_bus hbus hdev hn hd, hintact⟩, hserver, hn ▸ hs.good.registered id r hr⟩
  · exact ⟨⟨hs.good.created rfl rfl hbus hn hd hdev, hintact⟩, hserver, by omega⟩

/-- `get_device` disturbs nothing. -/
theorem undisturbed_getDevice {v : Nat} {s : Service} (id : String) (hs : s.Undisturbed v) :
    wp (getDevice id) (fun r s' => s'.IsDisturbed ∨ s'.Fine v ∧ r < s'.nextDev)
      (fun _ s' => s'.Undisturbed v) s := by
  refine wp_or (keeps_getDevice stable_isDisturbed id) (fun hs => ?_) hs
  refine wp_mono (hs.getDevice id) (fun r s' h => ?_) (fun e s' h => h ▸ hs)
  obtain ⟨hw, hserver, hr⟩ := h
  exact ⟨⟨hw, hserver ▸ hs.server⟩, hr⟩

/-- **Where a disturbance comes from**: a device is added to a bus while it is on another one.
Without one, both sides are told of the new place. -/
theorem undisturbed_addDevice {v : Nat} {b : BusRef} {r : Nat} {s : Service} (hb : b.server = v)
    (hs : s.IsDisturbed ∨ s.Fine v ∧ r < s.nextDev) :
    wp (addDevice b r) (fun _ s' => s'.Undisturbed v) (fun _ s' => s'.Undisturbed v) s := by
  rcases hs with hd | ⟨hs, hr⟩
  · exact wp_mono (keeps_addDevice stable_isDisturbed b r s hd) (fun _ _ h => .inl h) (fun _ _ h => .inl h)
  · have hintact := hs.intact b (hb ▸ hs.server)
    apply wp_mono_ok (addDevice_spec hs.good.waits hintact.1)
    intro _ s' h
    obtain ⟨hf, hdist, hdev, hlook⟩ := h
    by_cases hd : Disturbs s b r
    · left
      simp [IsDisturbed, hdist, hd]
    · right
      exact hs.of_frame hf (hs.good.added hf hr hd hdev hlook)

/-- A device that is on its bus is left there; any other one is added. -/
theorem undisturbed_sight {v : Nat} {b : BusRef} {r : Nat} {d : String} {old : List String}
    {s : Service} (hb : b.server = v) (hs : s.IsDisturbed ∨ s.Fine v ∧ r < s.nextDev) :
    wp (sight b r d old) (fun _ s' => s'.Undisturbed v) (fun _ s' => s'.Undisturbed v) s := by
  have hs' : s.Undisturbed v := hs.imp_right And.left
  simp only [sight, wp_bind, wp_get]
  split
  · split
    · exact hs'
    · exact hs'
  · rw [wp_bind]
    exact undisturbed_addDevice hb hs

/-- The misses of a device are counted without regard to its place. -/
theorem undisturbed_unseen (v : Nat) (r : Nat) (u : Nat) :
    Keeps (Undisturbed v) (modifyDev r fun d => { d with unseen := u }) := by
  intro s hs
  rcases hs with hd | hs
  · exact .inl hd
  · have hf : Frame s { s with dev := Function.update s.dev r { s.dev r with unseen := u } } :=
      ⟨rfl, rfl, rfl, fun _ => Iff.rfl, fun _ => Iff.rfl, fun _ => Iff.rfl⟩
    exact .inr (hs.of_frame hf (hs.good.of_unseen hf rfl fun _ _ => rfl))

/-- A device that is delocated leaves its bus on both sides. -/
theorem undisturbed_miss {v : Nat} (b : BusRef) (d : String) :
    Keeps (Undisturbed v) (miss b d) := by
  intro s hs
  refine wp_or (keeps_miss stable_isDisturbed b d) (fun hs => ?_) hs
  cases hlook : s.lookup b d with
  | none =>
      simp only [miss, wp_bind, wp_get]
      cases hds : (s.bus b).devices with
      | none => exact hs
      | some ds =>
          have hget : ds.get? d = none := by simpa [lookup, hds] using hlook
          simp only [hget, wp_throw]
          exact hs
  | some r =>
      obtain ⟨hid, hbus⟩ := (hs.good.located b d r).mp hlook
      apply wp_mono_ok (miss_spec hlook hid hbus)
      intro _ s' h
      obtain ⟨hf, -, h⟩ := h
      split at h
      · subst hid
        exact hs.of_frame hf (hs.good.removed hf hbus h.1 h.2)
      · exact hs.of_frame hf (hs.good.of_unseen hf h.1 h.2)

/-- A new bus lists no devices. -/
theorem undisturbed_getBus {v : Nat} {b : BusRef} (path : List String) (hb : b.server = v) :
    Keeps (Undisturbed v) (getBus b path) := by
  intro s hs
  refine wp_or (keeps_getBus b path) (fun hs => ?_) hs
  have hintact := hs.intact b (hb ▸ hs.server)
  apply wp_mono_ok (getBus_spec path hintact.2)
  intro _ s' h
  obtain ⟨-, hf, -, hdev, hlook⟩ := h
  exact hs.of_frame hf (hs.good.of_same hf hdev hlook)

/-- A device that is listed is looked up or made, and then added. -/
theorem undisturbed_found {v : Nat} {b : BusRef} (d : String) (old : List String)
    (hb : b.server = v) : Keeps (Undisturbed v) (found b d old) := by
  intro s hs
  rw [found]
  apply wp_seq (undisturbed_getDevice d hs)
  intro r s₁ h₁
  apply wp_seq (undisturbed_sight hb h₁)
  intro old s₂ h₂
  rw [wp_bind]
  exact wp_mono (undisturbed_unseen v r 0 s₂ h₂) (fun _ _ h => h) (fun _ _ h => h)

/-- On an open server there is a bus for every name, and on a closed one for
none. -/
theorem serverGetBus_server {v : Nat} (name : String) (s : Service) :
    wp (serverGetBus v name) (fun b _ => b.server = v ∧ s.server v ≠ none)
      (fun _ s' => s' = s) s := by
  simp only [serverGetBus, wp_bind, wp_get]
  cases hv : s.server v with
  | none => simp
  | some names =>
      by_cases hn : name ∈ names
      · simp [hn]
      · simp only [hn, if_false, wp_bind, wp_set, pushEvent, wp_modify, wp_pure]
        simp

/-- A new bus below the root lists no devices either. -/
theorem undisturbed_serverGetBus {v : Nat} (name : String) :
    Keeps (Undisturbed v) (serverGetBus v name) := by
  intro s hs
  refine wp_or (keeps_serverGetBus v name) (fun hs => ?_) hs
  apply wp_mono_ok (serverGetBus_spec name hs.server)
  intro _ s' h
  obtain ⟨-, hf, -, hdev, hlook⟩ := h
  exact hs.of_frame hf (hs.good.of_same hf hdev hlook)

/-- The misses of a bus are counted without regard to places. -/
theorem undisturbed_busUnseen (v : Nat) (b : BusRef) (u : Nat) :
    Keeps (Undisturbed v) (modifyBus b fun bus => { bus with unseen := u }) := by
  intro s hs
  refine wp_or (fun _ hs => hs) (fun hs => ?_) hs
  apply wp_mono_ok (busUnseen_spec b u s)
  intro _ s' h
  obtain ⟨hf, -, hdev, hlook⟩ := h
  exact hs.of_frame hf (hs.good.of_same hf hdev hlook)

/-- **The steps of a scan** keep the places in agreement, or have disturbed some. -/
theorem undisturbed_scan (v : Nat) : ScanKeeps v (Undisturbed v) fun b => b.server = v where
  sub _ _ _ hb := hb
  found _ d old hb := undisturbed_found d old hb
  getBus _ id port hb := undisturbed_getBus [id, port] hb
  miss b d _ := undisturbed_miss b d
  serverGetBus name s hs := by
    have h := wp_and (serverGetBus_server name s) (undisturbed_serverGetBus name s hs)
    exact wp_mono h (fun _ _ h => ⟨h.1.1, h.2⟩) (fun _ _ h => h.2)
  seen b _ := undisturbed_busUnseen v b 0

/-- A closed server has no buses to scan. -/
theorem closed_scan (v : Nat) :
    ScanKeeps v (fun s => s.Whole ∧ s.server v = none) fun _ => False where
  sub _ _ _ hb := hb
  found _ _ _ hb := hb.elim
  getBus _ _ _ hb := hb.elim
  miss _ _ hb := hb.elim
  serverGetBus name s hs :=
    wp_mono (serverGetBus_server name s) (fun _ _ h => absurd hs.2 h.2) (fun _ _ h => h ▸ hs)
  seen _ hb := hb.elim

/-- A scan of any server, open or closed. -/
theorem steady_scanBase (v : Nat) (root : List (String × Listing)) :
    Keeps Steady (scanBase v root) := by
  intro s hs
  by_cases hv : s.Whole ∧ s.server v = none
  · exact wp_mono ((closed_scan v).scanBase root s hv) (fun _ _ h => .inr h.1)
      (fun _ _ h => .inr h.1)
  · have hs' : s.Undisturbed v := hs.imp_right fun h => ⟨h, fun hnone => hv ⟨h, hnone⟩⟩
    exact wp_mono ((undisturbed_scan v).scanBase root s hs') (fun _ _ h => h.steady)
      (fun _ _ h => h.steady)

/-! ## The other operations -/

/-- A new device is nowhere. -/
theorem steady_getDevice (id : String) : Keeps Steady (getDevice id) := by
  intro s hs
  refine wp_or (keeps_getDevice stable_isDisturbed id) (fun hs => ?_) hs
  exact wp_mono (hs.getDevice id) (fun _ _ h => h.1) (fun _ _ h => h ▸ hs)

/-- Only a device that is nowhere can be deleted. -/
theorem steady_deleteDevice (r : Nat) : Keeps Steady (deleteDevice r) := by
  intro s hs
  simp only [deleteDevice, wp_bind, wp_get]
  split
  · exact hs
  · split
    · exact hs
    · simp only [wp_bind, wp_set, pushEvent, wp_modify]
      refine hs.imp_right fun hs => ?_
      have hg := hs.good
      refine ⟨⟨⟨hg.located, hg.waits⟩, hg.fresh, fun k r hr => ?_⟩, hs.intact⟩
      rw [Dict.get?_erase] at hr
      split at hr
      · contradiction
      · exact hg.registered k r hr

/-- A device in the alarm directory is added to the bus, wherever it is. -/
theorem undisturbed_noticed {v : Nat} {b : BusRef} (hb : b.server = v) (d : String) :
    Keeps (Undisturbed v) (noticed b d) := by
  intro s hs
  rw [noticed]
  apply wp_seq (undisturbed_getDevice d hs)
  intro r s₁ h₁
  rw [wp_bind, wp_modify, wp_bind]
  refine undisturbed_addDevice hb ?_
  refine h₁.imp_right fun h => ?_
  obtain ⟨h, hr⟩ := h
  exact ⟨⟨⟨h.good.of_bus rfl rfl rfl rfl, h.intact⟩, h.server⟩, hr⟩

/-- Events are about no places. -/
theorem undisturbed_pushEvent {v : Nat} (e : Event) : Keeps (Undisturbed v) (pushEvent e) := by
  intro s hs
  exact hs.imp_right fun h => ⟨⟨h.good.of_bus rfl rfl rfl rfl, h.intact⟩, h.server⟩

/-- An alarm poll, which may raise behind any device. -/
theorem undisturbed_pollAlarm {v : Nat} {b : BusRef} (hb : b.server = v)
    (entries : List (String × Except Exc Unit)) : Keeps (Undisturbed v) (pollAlarm b entries) :=
  keeps_pollAlarm (undisturbed_noticed hb) undisturbed_pushEvent entries

/-! ## The end of a server -/

/-- The places agree; the buses of server `v` may be gone. -/
structure Closing (v : Nat) (s : Service) : Prop where
  good : s.Good
  intact : ∀ b, b.server ≠ v → s.server b.server ≠ none →
    (s.bus b).devices ≠ none ∧ (s.bus b).buses ≠ none

/-- One turn of the loop over the devices of a bus: this one is gone from it. -/
theorem closing_delocate {v : Nat} {b : BusRef} (r : Nat) :
    ∀ (rest : List Nat) (s : Service),
      s.Closing v ∧ (∀ x, (s.dev x).bus = some b → x ∈ r :: rest) →
      wp (delocate r b)
        (fun _ s' => s'.Closing v ∧ ∀ x, (s'.dev x).bus = some b → x ∈ rest)
        (fun _ _ => False) s := by
  rintro rest s ⟨hs, hrest⟩
  by_cases hbus : (s.dev r).bus = some b
  · have hlook := (hs.good.located b (s.dev r).id r).mpr ⟨rfl, hbus⟩
    refine wp_mono (delocate_spec hbus hlook) (fun _ s' h => ?_) (fun _ _ h => h)
    obtain ⟨hf, -, hdev, hlook'⟩ := h
    refine ⟨⟨hs.good.removed hf hbus hdev hlook', fun c hc hopen => ?_⟩, fun x hx => ?_⟩
    · have h := hs.intact c hc (fun h => hopen ((hf.server _).mpr h))
      exact ⟨fun h' => h.1 ((hf.busDevices c).mp h'), fun h' => h.2 ((hf.buses c).mp h')⟩
    · rw [hdev] at hx
      by_cases hxr : x = r
      · subst hxr
        simp at hx
      · rw [Function.update_of_ne hxr] at hx
        exact (List.mem_cons.mp (hrest x hx)).resolve_left hxr
  · simp only [delocate, wp_bind, wp_get, hbus, if_false, wp_pure]
    refine ⟨hs, fun x hx => (List.mem_cons.mp (hrest x hx)).resolve_left ?_⟩
    rintro rfl
    exact hbus hx

/-- Something was disturbed, or server `v` is on its way out. -/
def Ending (v : Nat) (s : Service) : Prop := s.IsDisturbed ∨ s.Closing v

/-- A change to a bus of the server that is on its way out. -/
theorem Closing.modifyBus {v : Nat} {b : BusRef} (hb : b.server = v) {f : Bus → Bus}
    {s : Service} (hs : s.Closing v)
    (hf : ∀ k, ((f (s.bus b)).devices.bind fun ds => ds.get? k) = s.lookup b k) :
    wp (modifyBus b f) (fun _ s' => s'.Closing v) (fun _ _ => False) s := by
  have hlook : ∀ c k, lookup { s with bus := Function.update s.bus b (f (s.bus b)) } c k =
      s.lookup c k := by
    intro c k
    by_cases hc : c = b
    · subst hc
      simpa [lookup] using hf k
    · simp [hc, lookup]
  have hg := hs.good
  rw [Service.modifyBus, wp_modify]
  refine ⟨⟨⟨fun c k r => ?_, hg.waits⟩, hg.fresh, hg.registered⟩, fun c hc hopen => ?_⟩
  · rw [hlook]
    exact hg.located c k r
  · have hcb : c ≠ b := by
      rintro rfl
      exact hc hb
    simp only [Function.update_of_ne hcb]
    exact hs.intact c hc hopen

/-- The end of a bus is told when all is done. -/
theorem ending_pushEvent {v : Nat} (e : Event) : KeepsOr IsDisturbed (Ending v) (pushEvent e) := by
  intro s hs
  exact hs.imp_right fun h => ⟨h.good.of_bus rfl rfl rfl rfl, h.intact⟩

/-- The sub-buses go first. -/
theorem ending_delocateBuses {v : Nat} {b : BusRef} (hb : b.server = v)
    {below : BusRef → Method Unit} (hbelow : ∀ c, c.server = v → KeepsOr IsDisturbed (Ending v) (below c)) :
    KeepsOr IsDisturbed (Ending v) (delocateBuses below b) := by
  intro s hs
  simp only [delocateBuses, wp_bind, wp_get]
  split
  · next p ps _ =>
    rw [wp_bind]
    have hloop := KeepsOr.forM (f := fun p => below (b.sub p)) (fun p => hbelow (b.sub p) hb) (p :: ps)
    refine wp_mono (hloop s hs) (fun _ s' h => ?_) (fun _ _ h => h)
    rcases h with hd | h
    · exact .inl hd
    · exact wp_mono (h.modifyBus hb fun _ => rfl) (fun _ _ h => .inr h) (fun _ _ h => h.elim)
  · exact hs

/-- When its devices are delocated, nothing is lost with the bus's own list of
them. -/
theorem ending_delocateDevices {v : Nat} {b : BusRef} (hb : b.server = v) :
    KeepsOr IsDisturbed (Ending v) (delocateDevices b) := by
  intro s hs
  simp only [delocateDevices, wp_bind, wp_get]
  split
  · next ds hds =>
    split
    · rw [wp_bind]
      have hloop : wp (ds.values.forM fun r => delocate r b)
          (fun _ s' => s'.IsDisturbed ∨ s'.Closing v ∧ ∀ x, (s'.dev x).bus = some b → x ∈ [])
          (fun _ s' => s'.IsDisturbed ∨ False) s := by
        refine wp_or (KeepsOr.forM (fun r => keeps_delocate stable_isDisturbed r b) ds.values) (fun hs => ?_) hs
        refine wp_forM (I := fun rest s => s.Closing v ∧ ∀ x, (s.dev x).bus = some b → x ∈ rest)
          ⟨hs, fun x hx => ?_⟩ (fun r rest s h => closing_delocate r rest s h)
        have hlook := (hs.good.located b (s.dev x).id x).mpr ⟨rfl, hx⟩
        rw [lookup, hds] at hlook
        exact Dict.mem_values.mpr ⟨_, hlook⟩
      refine wp_mono hloop (fun _ s' h => ?_) (fun _ _ h => h.resolve_right id)
      rcases h with hd | ⟨h, hnone⟩
      · exact .inl hd
      · refine wp_mono (h.modifyBus hb fun k => ?_) (fun _ _ h => .inr h) (fun _ _ h => h.elim)
        cases hlook : s'.lookup b k with
        | none => rfl
        | some x => exact absurd (hnone x ((h.good.located b k x).mp hlook).2) List.not_mem_nil
    · exact hs
  · exact hs

/-- By recursion on the depth of the tree. -/
theorem ending_delocateBus {v : Nat} (fuel : Nat) :
    ∀ b : BusRef, b.server = v → KeepsOr IsDisturbed (Ending v) (delocateBus fuel b) := by
  induction fuel with
  | zero => exact fun b _ s hs => hs
  | succ fuel ih =>
      intro b hb
      refine (ending_delocateBuses hb ih).bind fun _ => ?_
      exact (ending_delocateDevices hb).bind fun _ => ending_pushEvent _

/-- **Closing a server** leaves the places of all other devices in agreement. -/
theorem steady_aclose (v : Nat) : Keeps Steady (aclose v) := by
  intro s hs
  have hend : s.Ending v := hs.imp_right fun h => ⟨h.good, fun b _ hopen => h.intact b hopen⟩
  have hclose : ∀ s : Service, s.Ending v →
      Steady { s with server := Function.update s.server v none } := by
    intro s hs
    refine hs.imp_right fun h => ⟨h.good.of_bus rfl rfl rfl rfl, fun b hopen => ?_⟩
    have hb : b.server ≠ v := by
      intro hb
      simp [hb] at hopen
    simp only [Function.update_of_ne hb] at hopen
    exact h.intact b hb hopen
  rw [aclose, wp_bind]
  refine wp_mono (ending_pushEvent _ s hend) (fun _ s₁ h₁ => ?_) (fun _ s₁ h => .inl h)
  simp only [wp_bind, wp_get]
  split
  · exact hclose s₁ h₁
  · next names _ =>
    have hloop := KeepsOr.forM (fun n => ending_delocateBus s₁.depth ⟨v, [n]⟩ rfl) names
    rw [wp_bind]
    exact wp_mono (hloop s₁ h₁) (fun _ s₂ h₂ => hclose s₂ h₂) (fun _ _ h => .inl h)

/-! ## All runs -/

/-- No device is sighted on a bus while it is located on another one, or while
the bus has another device of that id. -/
def Settled (s : Service) (a : Action) : Prop :=
  ∀ s', s.step a = some s' → s'.disturbed = s.disturbed

instance (s : Service) (a : Action) : Decidable (Settled s a) :=
  inferInstanceAs (Decidable (∀ s' ∈ s.step a, s'.disturbed = s.disturbed))

/-- In the beginning nothing is anywhere. -/
theorem init_whole : init.Whole := by
  refine ⟨⟨⟨fun b k r => ?_, fun r => ?_⟩, fun _ _ => rfl, fun k r hr => ?_⟩, fun b _ => ?_⟩
  · simp [init, lookup]
  · simp [init]
  · simp [init] at hr
  · simp [init]

/-- What a method keeps holds where it has ended, whether it has raised or not. -/
theorem wp_after {D : Service → Prop} {x : Method α} {s : Service}
    (h : wp x (fun _ => D) (fun _ => D) s) : D (after x s) := by
  rw [wp] at h
  rw [after]
  split at h <;> simp_all

/-- A step keeps what every method keeps; alarms are polled on open servers. -/
theorem keeps_step {D : Service → Prop} (hget : ∀ id, Keeps D (getDevice id))
    (hdelete : ∀ r, Keeps D (deleteDevice r)) (hscan : ∀ v root, Keeps D (scanBase v root))
    (hpoll : ∀ b entries s, s.server b.server ≠ none → D s →
      wp (pollAlarm b entries) (fun _ => D) (fun _ => D) s)
    (haclose : ∀ v, Keeps D (aclose v)) {s s' : Service} {a : Action} (hs : D s)
    (h : s.step a = some s') : D s' := by
  cases a with
  | getDevice id =>
      rw [step, Option.some.injEq] at h
      exact h ▸ wp_after (hget id s hs)
  | deleteDevice r =>
      rw [step, Option.ite_none_right_eq_some, Option.some.injEq] at h
      exact h.2 ▸ wp_after (hdelete r s hs)
  | scan v root =>
      rw [step] at h
      split at h
      · next heq =>
        rw [Option.some.injEq] at h
        have hscan := wp_of_ok (hscan v root s hs) heq
        exact h ▸ hscan
      · contradiction
  | pollAlarm b entries =>
      rw [step, Option.ite_none_right_eq_some, Option.some.injEq] at h
      obtain ⟨hb, rfl⟩ := h
      have hopen : s.server b.server ≠ none := by
        intro hnone
        simp [allBuses, hnone] at hb
      exact wp_after (hpoll b entries s hopen hs)
  | aclose v =>
      rw [step, Option.some.injEq] at h
      exact h ▸ wp_after (haclose v s hs)

/-- One operation. -/
theorem steady_step {s s' : Service} {a : Action} (hs : s.Steady) (h : s.step a = some s') :
    s'.Steady := by
  refine keeps_step steady_getDevice steady_deleteDevice steady_scanBase ?_ steady_aclose hs h
  intro b entries s hopen hs
  have hs' : s.Undisturbed b.server := hs.imp_right fun h => ⟨h, hopen⟩
  exact wp_mono (undisturbed_pollAlarm rfl entries s hs') (fun _ _ h => h.steady)
    (fun _ _ h => h.steady)

/-- **What devices and buses say agrees** in every run in which no device is
sighted where it should not be. -/
theorem consistent_of_settled (as : List Action) (h : AllSteps step Settled init as) :
    AllStates step Consistent init as := by
  have hstep : ∀ s a s', s.Whole ∧ s.disturbed = false → Settled s a → s.step a = some s' →
      s'.Whole ∧ s'.disturbed = false := by
    rintro s a s' ⟨hs, hd⟩ hsettled h
    have hd' : s'.disturbed = false := by rw [hsettled s' h, hd]
    have hsteady := steady_step (.inr hs) h
    rw [Steady, IsDisturbed, hd'] at hsteady
    exact ⟨hsteady.resolve_left Bool.false_ne_true, hd'⟩
  have hall := guarded_allStates hstep ⟨init_whole, rfl⟩ h
  exact hall.imp fun s hs => hs.1.good.toConsistent

/-- A thermometer that is found, polled, lost and found elsewhere, and a server
that goes down. -/
theorem consistent_relocated :
    let sighted : List (String × Listing) :=
      [("bus.0", .cons "10.345678.00" .nil .nil .nil), ("bus.1", .nil)]
    let gone : List (String × Listing) := [("bus.0", .nil), ("bus.1", .nil)]
    let moved : List (String × Listing) :=
      [("bus.0", .nil), ("bus.1", .cons "10.345678.00" .nil .nil .nil)]
    AllStates step Consistent init
      [.scan 0 sighted, .pollAlarm ⟨0, ["bus.0"]⟩ [("10.345678.00", .ok ())], .scan 0 gone,
        .scan 0 gone, .scan 0 gone, .scan 0 gone, .scan 0 moved, .aclose 0] :=
  consistent_of_settled _ (by decide)

/-- A thermometer moves from one bus to another: the first bus keeps it. -/
theorem not_consistent_moved :
    ¬ AllStates step Consistent init
      [.scan 0 [("bus.0", .cons "10.345678.00" .nil .nil .nil), ("bus.1", .nil)],
        .scan 0 [("bus.0", .nil), ("bus.1", .cons "10.345678.00" .nil .nil .nil)]] := by
  intro h
  have hrun : (Transition.run step init
      [.scan 0 [("bus.0", .cons "10.345678.00" .nil .nil .nil), ("bus.1", .nil)],
        .scan 0 [("bus.0", .nil), ("bus.1", .cons "10.345678.00" .nil .nil .nil)]]).map
      (fun s => (s.lookup ⟨0, ["bus.0"]⟩ "10.345678.00", (s.dev 0).bus)) =
      some (some 0, some ⟨0, ["bus.1"]⟩) := by decide
  obtain ⟨s, hs, heq⟩ := Option.map_eq_some_iff.mp hrun
  rw [Prod.mk.injEq] at heq
  have hbus := ((h.of_run hs).located _ _ _).mp heq.1
  rw [heq.2] at hbus
  exact absurd hbus.2 (by decide)

end Service

end AsyncOwfs
