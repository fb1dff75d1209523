import AsyncOwfs.Scan

/-!
# AsyncOwfs.Scan.Effects

What each method does to the places of the devices: which device a bus lists
under which id (`lookup`), and what the device says of itself (`dev`).
-/

namespace AsyncOwfs

/-- The device ids in a listing. -/
def Listing.ids : Listing → List String
  | .nil => []
  | .cons d main aux rest =>
    match splitId d with
    | .error _ => rest.ids
    | .ok _ => d :: ((main.ids ++ aux.ids) ++ rest.ids)

namespace Service

open Hoare

/-- The devices are the same, and what was gone is gone; `lookup` and `dev` may
have changed. -/
structure Frame (s s' : Service) : Prop where
  devices : s'.devices = s.devices
  nextDev : s'.nextDev = s.nextDev
  uncounted : s'.uncounted = s.uncounted
  server : ∀ v, s'.server v = none ↔ s.server v = none
  busDevices : ∀ c, (s'.bus c).devices = none ↔ (s.bus c).devices = none
  buses : ∀ c, (s'.bus c).buses = none ↔ (s.bus c).buses = none

theorem Frame.refl (s : Service) : Frame s s :=
  ⟨rfl, rfl, rfl, fun _ => Iff.rfl, fun _ => Iff.rfl, fun _ => Iff.rfl⟩

/-- The events of `wait_bus` fit the devices' places. -/
def Waits (s : Service) : Prop := ∀ r, (s.dev r).waitBus = true ↔ (s.dev r).bus ≠ none

/-- One device changes, but not in what `g` reads. -/
theorem dev_update {β : Type} (g : Device → β) {s s' : Service} {r : Nat} {d : Device}
    (hdev : s'.dev = Function.update s.dev r d) (hg : g d = g (s.dev r)) (x : Nat) :
    g (s'.dev x) = g (s.dev x) := by
  rw [hdev]
  exact (Function.forall_update_iff s.dev fun x d => g d = g (s.dev x)).mpr
    ⟨hg, fun _ _ => rfl⟩ x

/-- One device changes, and is waited for if and only if it is on a bus. -/
theorem Waits.update {s s' : Service} (hs : s.Waits) {r : Nat} {d : Device}
    (hdev : s'.dev = Function.update s.dev r d) (hd : d.waitBus = true ↔ d.bus ≠ none) :
    s'.Waits := by
  rw [Waits, hdev]
  exact (Function.forall_update_iff s.dev fun _ d => d.waitBus = true ↔ d.bus ≠ none).mpr
    ⟨hd, fun x _ => hs x⟩

/-- Changing the devices on a bus. -/
theorem frame_devices {s s' : Service} {b : BusRef} {ds ds' : Dict String Nat}
    (hds : (s.bus b).devices = some ds) (hdevices : s'.devices = s.devices)
    (hnext : s'.nextDev = s.nextDev) (huncounted : s'.uncounted = s.uncounted)
    (hserver : s'.server = s.server)
    (hbus : s'.bus = Function.update s.bus b { s.bus b with devices := some ds' }) :
    Frame s s' := by
  refine ⟨hdevices, hnext, huncounted, by simp [hserver], fun c => ?_, fun c => ?_⟩
  · rw [hbus]
    by_cases hc : c = b
    · subst hc
      simp [hds]
    · simp [hc]
  · rw [hbus]
    by_cases hc : c = b
    · subst hc
      simp
    · simp [hc]

/-- A dictionary that is replaced is the only one that changes. -/
theorem lookup_of_devices {s s' : Service} {b : BusRef} {ds ds' : Dict String Nat}
    (hds : (s.bus b).devices = some ds)
    (hbus : s'.bus = Function.update s.bus b { s.bus b with devices := some ds' })
    (c : BusRef) (k : String) :
    s'.lookup c k = if c = b then ds'.get? k else s.lookup c k := by
  rw [lookup, hbus]
  by_cases hc : c = b
  · subst hc
    simp
  · simp [hc, lookup]

/-- `add_device` puts the device into its new place, and nowhere else. -/
theorem addDevice_spec {b : BusRef} {r : Nat} {s : Service} (hw : s.Waits)
    (hb : (s.bus b).devices ≠ none) :
    wp (addDevice b r)
      (fun _ s' => Frame s s' ∧ s'.disturbed = (s.disturbed || decide (Disturbs s b r)) ∧
        s'.dev = Function.update s.dev r { s.dev r with bus := some b, waitBus := true } ∧
        ∀ c k, s'.lookup c k = if c = b ∧ k = (s.dev r).id then some r else s.lookup c k)
      (fun _ _ => False) s := by
  obtain ⟨ds, hds⟩ := Option.ne_none_iff_exists'.mp hb
  have hlook : ∀ s' : Service,
      s'.bus = Function.update s.bus b { s.bus b with devices := some (ds.set (s.dev r).id r) } →
      ∀ c k, s'.lookup c k = if c = b ∧ k = (s.dev r).id then some r else s.lookup c k := by
    intro s' hbus c k
    rw [lookup_of_devices hds hbus, Dict.get?_set]
    by_cases hc : c = b
    · subst hc
      by_cases hk : k = (s.dev r).id
      · simp [hk]
      · simp [hk, lookup, hds]
    · simp [hc]
  by_cases hbus : (s.dev r).bus = some b
  · -- the device knows, and is entered again
    have hwait := (hw r).mpr (by simp [hbus])
    simp only [addDevice, wp_bind, wp_modify, locate, wp_get, hbus, if_true, wp_pure, hds, modifyBus]
    refine ⟨frame_devices hds rfl rfl rfl rfl rfl, trivial, ?_, hlook _ rfl⟩
    rw [eq_comm, Function.update_eq_self_iff, ← hbus, ← hwait]
  · simp only [addDevice, wp_bind, wp_modify, locate, wp_get, hbus, if_false, hds, modifyDev,
      modifyBus, pushEvent, Function.update_self]
    exact ⟨frame_devices hds rfl rfl rfl rfl rfl, trivial, trivial, hlook _ rfl⟩

/-- `delocate` of a device that is listed where it is. -/
theorem delocate_spec {b : BusRef} {r : Nat} {s : Service} (hbus : (s.dev r).bus = some b)
    (hlook : s.lookup b (s.dev r).id = some r) :
    wp (delocate r b)
      (fun _ s' => Frame s s' ∧ s'.disturbed = s.disturbed ∧
        s'.dev = Function.update s.dev r { s.dev r with bus := none, waitBus := false } ∧
        ∀ c k, s'.lookup c k = if c = b ∧ k = (s.dev r).id then none else s.lookup c k)
      (fun _ _ => False) s := by
  obtain ⟨ds, hds, hget⟩ := Option.bind_eq_some_iff.mp hlook
  simp only [delocate, wp_bind, wp_get, hbus, if_true, modifyDev, wp_modify, delocateDevice,
    Function.update_self, delDevice, hds, hget, modifyBus, pushEvent, Function.update_idem]
  refine ⟨frame_devices hds rfl rfl rfl rfl rfl, trivial, trivial, fun c k => ?_⟩
  rw [lookup_of_devices hds rfl, Dict.get?_erase]
  by_cases hc : c = b
  · subst hc
    by_cases hk : k = (s.dev r).id
    · simp [hk]
    · simp [hk, lookup, hds]
  · simp [hc]

/-- A miss: one more, or the fourth and the device is gone. -/
theorem miss_spec {b : BusRef} {r : Nat} {d : String} {s : Service}
    (hlook : s.lookup b d = some r) (hid : (s.dev r).id = d) (hbus : (s.dev r).bus = some b) :
    wp (miss b d)
      (fun _ s' => Frame s s' ∧ s'.disturbed = s.disturbed ∧
        if (s.dev r).unseen > 2 then
          s'.dev = Function.update s.dev r { s.dev r with bus := none, waitBus := false } ∧
            ∀ c k, s'.lookup c k = if c = b ∧ k = d then none else s.lookup c k
        else
          s'.dev = Function.update s.dev r { s.dev r with unseen := (s.dev r).unseen + 1 } ∧
            ∀ c k, s'.lookup c k = s.lookup c k)
      (fun _ _ => False) s := by
  obtain ⟨ds, hds, hget⟩ := Option.bind_eq_some_iff.mp hlook
  simp only [miss, wp_bind, wp_get, hds, hget]
  by_cases hu : (s.dev r).unseen > 2
  · simp only [hu, if_true]
    subst hid
    exact delocate_spec hbus hlook
  · simp only [hu, if_false, modifyDev, wp_modify]
    exact ⟨⟨rfl, rfl, rfl, fun _ => Iff.rfl, fun _ => Iff.rfl, fun _ => Iff.rfl⟩, trivial, trivial,
      fun c k => rfl⟩

/-- The device that `get_device` returns is registered; if it is new, it is
nowhere. -/
theorem getDevice_spec (id : String) (s : Service) :
    wp (getDevice id)
      (fun r s' => s'.bus = s.bus ∧ s'.server = s.server ∧ s'.disturbed = s.disturbed ∧
        s'.uncounted = s.uncounted ∧
        (s.devices.get? id = some r ∧ s'.devices = s.devices ∧ s'.nextDev = s.nextDev ∧
            s'.dev = s.dev ∨
          s.devices.get? id = none ∧ r = s.nextDev ∧ s'.nextDev = s.nextDev + 1 ∧
            s'.devices = s.devices.set (upper id) r ∧
            ∃ family code check, splitId id = .ok (family, code, check) ∧
              s'.dev = Function.update s.dev r { id := upper id, family }))
      (fun e s' => s' = s ∧ s.devices.get? id = none ∧ splitId id = .error e) s := by
  simp only [getDevice, wp_bind, wp_get]
  cases hget : s.devices.get? id with
  | some r => simp
  | none =>
      cases hsplit : splitId id with
      | error e => simp
      | ok x =>
          obtain ⟨family, code, check⟩ := x
          simp only [wp_bind, wp_set, pushEvent, wp_modify, wp_pure, true_and]
          exact .inr ⟨family, code, check, rfl, rfl⟩

/-- A sub-bus that is there, or is now. -/
theorem getBus_spec {b : BusRef} {s : Service} (path : List String)
    (hb : (s.bus b).buses ≠ none) :
    wp (getBus b path)
      (fun c s' => c = some (b.sub path) ∧ Frame s s' ∧ s'.disturbed = s.disturbed ∧
        s'.dev = s.dev ∧ ∀ c k, s'.lookup c k = s.lookup c k)
      (fun _ _ => False) s := by
  obtain ⟨paths, hpaths⟩ := Option.ne_none_iff_exists'.mp hb
  simp only [getBus, wp_bind, wp_get, hpaths]
  by_cases hp : path ∈ paths
  · simp only [hp, if_true, wp_pure]
    exact ⟨trivial, .refl s, trivial, trivial, fun _ _ => trivial⟩
  · simp only [hp, if_false, wp_bind, wp_set, pushEvent, wp_modify, wp_pure, true_and]
    refine ⟨⟨rfl, rfl, rfl, fun _ => Iff.rfl, fun c => ?_, fun c => ?_⟩, fun c k => ?_⟩ <;>
      by_cases hc : c = b
    all_goals simp [lookup, hc, hpaths]

/-- A top-level bus that is there, or is now. -/
theorem serverGetBus_spec {v : Nat} {s : Service} (name : String) (hv : s.server v ≠ none) :
    wp (serverGetBus v name)
      (fun c s' => c = ⟨v, [name]⟩ ∧ Frame s s' ∧ s'.disturbed = s.disturbed ∧
        s'.dev = s.dev ∧ ∀ c k, s'.lookup c k = s.lookup c k)
      (fun _ _ => False) s := by
  obtain ⟨names, hnames⟩ := Option.ne_none_iff_exists'.mp hv
  simp only [serverGetBus, wp_bind, wp_get, hnames]
  by_cases hn : name ∈ names
  · simp only [hn, if_true, wp_pure]
    exact ⟨trivial, .refl s, trivial, trivial, fun _ _ => trivial⟩
  · simp only [hn, if_false, wp_bind, wp_set, pushEvent, wp_modify, wp_pure, true_and]
    refine ⟨⟨rfl, rfl, rfl, fun w => ?_, fun _ => Iff.rfl, fun _ => Iff.rfl⟩, fun c k => rfl⟩
    by_cases hw : w = v
    · simp [hw, hnames]
    · simp [hw]

/-- The misses of a bus are no business of its devices. -/
theorem busUnseen_spec (b : BusRef) (u : Nat) (s : Service) :
    wp (modifyBus b fun bus => { bus with unseen := u })
      (fun _ s' => Frame s s' ∧ s'.disturbed = s.disturbed ∧ s'.dev = s.dev ∧
        ∀ c k, s'.lookup c k = s.lookup c k)
      (fun _ _ => False) s := by
  have hbus : ∀ c, ((Function.update s.bus b { s.bus b with unseen := u }) c).devices =
      (s.bus c).devices ∧
      ((Function.update s.bus b { s.bus b with unseen := u }) c).buses = (s.bus c).buses := by
    intro c
    by_cases hc : c = b
    · subst hc
      simp
    · simp [hc]
  rw [modifyBus, wp_modify]
  refine ⟨⟨rfl, rfl, rfl, fun _ => Iff.rfl, fun c => ?_, fun c => ?_⟩, rfl, rfl, fun c k => ?_⟩
  · rw [(hbus c).1]
  · rw [(hbus c).2]
  · rw [lookup, (hbus c).1, lookup]

/-! ## Apart from the devices -/

/-- The trees of buses are the same, and what was disturbed stays so. -/
structure Apart (s s' : Service) : Prop where
  server : s'.server = s.server
  depth : s'.depth = s.depth
  buses : ∀ c, (s'.bus c).buses = (s.bus c).buses
  disturbed : s.disturbed = true → s'.disturbed = true

/-- The property is not about devices. -/
def Stable (I : Service → Prop) : Prop := ∀ s s', Apart s s' → I s → I s'

/-- A bus that keeps its sub-buses keeps the tree. -/
theorem buses_update {s : Service} {b : BusRef} {x : Bus} (h : x.buses = (s.bus b).buses)
    (c : BusRef) : (Function.update s.bus b x c).buses = (s.bus c).buses := by
  by_cases hc : c = b
  · subst hc
    rw [Function.update_self, h]
  · rw [Function.update_of_ne hc]

/-- `get_device` comes down to a new device and its event. -/
theorem keeps_getDevice {I : Service → Prop} (hI : Stable I) (id : String) :
    Keeps I (getDevice id) := by
  intro s hs
  simp only [getDevice, wp_bind, wp_get]
  split
  · exact hs
  · split
    · exact hs
    · exact hI s _ ⟨rfl, rfl, fun _ => rfl, fun h => h⟩ hs

/-- `add_device` comes down to a new place and its event. -/
theorem keeps_addDevice {I : Service → Prop} (hI : Stable I) (b : BusRef) (r : Nat) :
    Keeps I (addDevice b r) := by
  intro s hs
  have hor : s.disturbed = true → (s.disturbed || decide (Disturbs s b r)) = true := by
    intro h
    rw [h, Bool.true_or]
  simp only [addDevice, wp_bind, wp_modify, locate, wp_get]
  split
  · simp only [wp_pure, wp_bind, wp_get]
    split
    · exact hI s _ ⟨rfl, rfl, fun _ => rfl, hor⟩ hs
    · exact hI s _ ⟨rfl, rfl, buses_update rfl, hor⟩ hs
  · simp only [wp_bind, modifyDev, wp_modify, pushEvent, wp_get]
    split
    · exact hI s _ ⟨rfl, rfl, fun _ => rfl, hor⟩ hs
    · exact hI s _ ⟨rfl, rfl, buses_update rfl, hor⟩ hs

/-- `delocate` comes down to a lost place and its event. -/
theorem keeps_delocate {I : Service → Prop} (hI : Stable I) (r : Nat) (b : BusRef) :
    Keeps I (delocate r b) := by
  intro s hs
  simp only [delocate, wp_bind, wp_get]
  split
  · simp only [wp_bind, modifyDev, wp_modify, delocateDevice, wp_get]
    split
    · exact hI s _ ⟨rfl, rfl, fun _ => rfl, fun h => h⟩ hs
    · simp only [wp_bind, delDevice, wp_get]
      split
      · exact hI s _ ⟨rfl, rfl, fun _ => rfl, fun h => h⟩ hs
      · split
        · exact hI s _ ⟨rfl, rfl, fun _ => rfl, fun h => h⟩ hs
        · exact hI s _ ⟨rfl, rfl, buses_update rfl, fun h => h⟩ hs
  · exact hs

/-- A device that is missed is counted, or delocated. -/
theorem keeps_miss {I : Service → Prop} (hI : Stable I) (b : BusRef) (d : String) :
    Keeps I (miss b d) := by
  intro s hs
  simp only [miss, wp_bind, wp_get]
  split
  · exact hs
  · split
    · exact hs
    · split
      · exact keeps_delocate hI _ b s hs
      · exact hI s _ ⟨rfl, rfl, fun _ => rfl, fun h => h⟩ hs

/-- The count is none of the things that matter. -/
theorem keeps_unseen {I : Service → Prop} (hI : Stable I) (r : Nat) (u : Nat) :
    Keeps I (modifyDev r fun d => { d with unseen := u }) :=
  fun s hs => hI s _ ⟨rfl, rfl, fun _ => rfl, fun h => h⟩ hs

/-- A device that is listed is left alone, or added. -/
theorem keeps_sight {I : Service → Prop} (hI : Stable I) (b : BusRef) (r : Nat) (d : String)
    (old : List String) : Keeps I (sight b r d old) := by
  intro s hs
  simp only [sight, wp_bind, wp_get]
  split
  · split <;> exact hs
  · rw [wp_bind]
    exact keeps_addDevice hI b r s hs

/-- A device that is listed is looked up first. -/
theorem keeps_found {I : Service → Prop} (hI : Stable I) (b : BusRef) (d : String)
    (old : List String) : Keeps I (found b d old) := by
  refine (keeps_getDevice hI d).bind fun r => (keeps_sight hI b r d old).bind fun old => ?_
  exact (keeps_unseen hI r 0).bind fun _ s hs => hs

/-- A device in the alarm directory is looked up, and added. -/
theorem keeps_noticed {I : Service → Prop} (hI : Stable I) (b : BusRef) (d : String) :
    Keeps I (noticed b d) := by
  refine (keeps_getDevice hI d).bind fun r s hs => ?_
  rw [wp_bind, wp_modify]
  refine ((keeps_addDevice hI b r).bind fun _ => ?_) _ (hI s _ ⟨rfl, rfl, fun _ => rfl, fun h => h⟩ hs)
  exact fun s' hs' => hs'

/-! ## Scans -/

/-- The sub-bus that is returned has the path that was asked for. -/
theorem getBus_eq_sub (b : BusRef) (path : List String) (s : Service) :
    wp (getBus b path) (fun c _ => ∀ c' ∈ c, c' = b.sub path) (fun _ _ => True) s := by
  simp only [getBus, wp_bind, wp_get]
  split
  · simp
  · split
    · simp
    · simp only [wp_bind, wp_set, pushEvent, wp_modify, wp_pure]
      simp

/-- What the steps of a scan of server `v` keep, on all buses of a kind and for all
ids of a kind. -/
structure ScanKeepsOn (v : Nat) (I : Service → Prop) (B : BusRef → Prop) (N : String → Prop) :
    Prop where
  sub : ∀ b id port, B b → B (b.sub [id, port])
  found : ∀ b d old, B b → N d → Keeps I (found b d old)
  getBus : ∀ b id port, B b → Keeps I (getBus b [id, port])
  miss : ∀ b d, B b → Keeps I (miss b d)
  serverGetBus : ∀ name s, I s →
    wp (serverGetBus v name) (fun b s' => B b ∧ I s') (fun _ => I) s
  seen : ∀ b, B b → Keeps I (modifyBus b fun bus => { bus with unseen := 0 })

namespace ScanKeepsOn

variable {v : Nat} {I : Service → Prop} {B : BusRef → Prop} {N : String → Prop}

/-- A bus is scanned around its loop. -/
theorem scanWith (h : ScanKeepsOn v I B N) {b : BusRef} (hb : B b)
    {entries : List String → Method (List String × List PathKey)}
    (he : ∀ old, Keeps I (entries old)) : Keeps I (scanWith b entries) := by
  intro s hs
  simp only [Service.scanWith, wp_bind, wp_get]
  split
  · exact hs
  · next ds _ =>
    apply wp_seq (he ds.keys s hs)
    intro a s' h'
    rw [wp_bind]
    exact KeepsOr.forM (fun d => h.miss b d hb) a.1 s' h'

/-- A sub-bus is scanned if it is not gone. -/
theorem visit (h : ScanKeepsOn v I B N) {b : BusRef} (hb : B b) (id port : String)
    {entries : BusRef → List String → Method (List String × List PathKey)}
    (he : ∀ c old, B c → Keeps I (entries c old)) : Keeps I (visit b [id, port] entries) := by
  intro s hs
  rw [Service.visit, wp_bind]
  have hbus := wp_and (getBus_eq_sub b [id, port] s) (h.getBus b id port hb s hs)
  refine wp_mono hbus (fun c s' h' => ?_) (fun _ _ h => h.2)
  cases c with
  | none => exact h'.2
  | some c =>
      have hc : B c := by
        rw [h'.1 c rfl]
        exact h.sub b id port hb
      rw [wp_bind]
      exact h.scanWith hc (fun old => he c old hc) s' h'.2

theorem visitAll (h : ScanKeepsOn v I B N) {b : BusRef} (hb : B b) (r : Nat)
    {main aux : BusRef → List String → Method (List String × List PathKey)}
    (hm : ∀ c old, B c → Keeps I (main c old)) (ha : ∀ c old, B c → Keeps I (aux c old)) :
    Keeps I (visitAll b r main aux) := by
  intro s hs
  simp only [Service.visitAll, wp_bind, wp_get]
  split
  · have hmain := h.visit hb (s.dev r).id "main" hm
    have haux := h.visit hb (s.dev r).id "aux" ha
    refine (hmain.bind fun _ => haux.bind fun _ => ?_) s hs
    exact fun s' hs' => hs'
  · exact hs

/-- A scan keeps what its steps keep.  The induction is on what the server says
is there. -/
theorem scanEntries (h : ScanKeepsOn v I B N) (listing : Listing) :
    (∀ d ∈ listing.ids, N d) → ∀ b old, B b → Keeps I (scanEntries listing b old) := by
  induction listing with
  | nil => exact fun _ _ _ _ s hs => hs
  | cons d main aux rest ihm iha ihr =>
      intro hN b old hb
      rw [Listing.ids] at hN
      rw [Service.scanEntries]
      split
      · next heq =>
        rw [heq] at hN
        exact ihr hN b old hb
      · next heq =>
        simp only [heq, List.mem_cons, List.mem_append, or_imp, forall_and, forall_eq] at hN
        obtain ⟨hd, ⟨hm, ha⟩, hr⟩ := hN
        refine (h.found b d old hb hd).bind fun a => ?_
        refine (h.visitAll hb a.1 (ihm hm) (iha ha)).bind fun below => ?_
        exact (ihr hr b a.2 hb).bind fun _ _ hs => hs

/-- There are no old paths to begin with, so there are none at the end. -/
theorem enumerate (h : ScanKeepsOn v I B N) (root : List (String × Listing)) :
    (∀ e ∈ root, ∀ d ∈ e.2.ids, N d) → ∀ s, I s →
      wp (enumerate v root []) (fun oldPaths s' => oldPaths = [] ∧ I s') (fun _ => I) s := by
  induction root with
  | nil => exact fun _ s hs => ⟨rfl, hs⟩
  | cons e root ih =>
      intro hN s hs
      obtain ⟨d, listing⟩ := e
      rw [List.forall_mem_cons] at hN
      rw [Service.enumerate]
      split
      · rw [wp_bind]
        refine wp_mono (h.serverGetBus d s hs) (fun b s₁ h₁ => ?_) (fun _ _ h => h)
        apply wp_seq (h.seen b h₁.1 s₁ h₁.2)
        intro _ s₂ h₂
        have hscan : Keeps I (scanOne b listing) :=
          h.scanWith h₁.1 fun old => h.scanEntries listing hN.1 b old h₁.1
        rw [wp_bind]
        exact wp_mono (hscan s₂ h₂) (fun _ s₃ h₃ => ih hN.2 s₃ h₃) (fun _ _ h => h)
      · exact ih hN.2 s hs

/-- **A whole scan**, with the root directory. -/
theorem scanBase (h : ScanKeepsOn v I B N) (root : List (String × Listing))
    (hN : ∀ e ∈ root, ∀ d ∈ e.2.ids, N d) : Keeps I (scanBase v root) := by
  intro s hs
  rw [Service.scanBase]
  apply wp_seq (h.enumerate root hN s hs)
  intro oldPaths s' h'
  rw [h'.1]
  exact h'.2

end ScanKeepsOn

/-- What the steps of a scan of server `v` keep, on all buses of a kind. -/
structure ScanKeeps (v : Nat) (I : Service → Prop) (B : BusRef → Prop) : Prop where
  sub : ∀ b id port, B b → B (b.sub [id, port])
  found : ∀ b d old, B b → Keeps I (found b d old)
  getBus : ∀ b id port, B b → Keeps I (getBus b [id, port])
  miss : ∀ b d, B b → Keeps I (miss b d)
  serverGetBus : ∀ name s, I s →
    wp (serverGetBus v name) (fun b s' => B b ∧ I s') (fun _ => I) s
  seen : ∀ b, B b → Keeps I (modifyBus b fun bus => { bus with unseen := 0 })

namespace ScanKeeps

variable {v : Nat} {I : Service → Prop} {B : BusRef → Prop}

/-- What is not about devices has to be kept where buses are made. -/
theorem of_stable (hI : Stable I) (hbus : ∀ b id port, Keeps I (Service.getBus b [id, port]))
    (hserver : ∀ name, Keeps I (Service.serverGetBus v name)) : ScanKeeps v I fun _ => True where
  sub _ _ _ _ := trivial
  found b d old _ := keeps_found hI b d old
  getBus b id port _ := hbus b id port
  miss b d _ := keeps_miss hI b d
  serverGetBus name s hs := wp_mono (hserver name s hs) (fun _ _ h => ⟨trivial, h⟩) (fun _ _ h => h)
  seen _ _ s hs := hI s _ ⟨rfl, rfl, buses_update rfl, fun h => h⟩ hs

/-- Without a condition on the names. -/
theorem on (h : ScanKeeps v I B) : ScanKeepsOn v I B fun _ => True :=
  { h with found := fun b d old hb _ => h.found b d old hb }

theorem visitAll (h : ScanKeeps v I B) {b : BusRef} (hb : B b) (r : Nat)
    {main aux : BusRef → List String → Method (List String × List PathKey)}
    (hm : ∀ c old, B c → Keeps I (main c old)) (ha : ∀ c old, B c → Keeps I (aux c old)) :
    Keeps I (visitAll b r main aux) :=
  h.on.visitAll hb r hm ha

/-- The loop over a directory, without a condition on the names. -/
theorem scanEntries (h : ScanKeeps v I B) (listing : Listing) (b : BusRef) (old : List String)
    (hb : B b) : Keeps I (scanEntries listing b old) :=
  h.on.scanEntries listing (fun _ _ => trivial) b old hb

/-- The loop over the root directory leaves no old paths. -/
theorem enumerate (h : ScanKeeps v I B) (root : List (String × Listing)) (s : Service) (hs : I s) :
    wp (enumerate v root []) (fun oldPaths s' => oldPaths = [] ∧ I s') (fun _ => I) s :=
  h.on.enumerate root (fun _ _ _ _ => trivial) s hs

theorem scanBase (h : ScanKeeps v I B) (root : List (String × Listing)) :
    Keeps I (scanBase v root) :=
  h.on.scanBase root fun _ _ _ _ => trivial

end ScanKeeps

/-- A scan that is a step has ended. -/
theorem scanBase_of_step {v : Nat} {root : List (String × Listing)} {s s' : Service}
    (h : step s (.scan v root) = some s') : scanBase v root s = .ok () s' := by
  rw [step] at h
  split at h
  · next heq =>
    rw [Option.some.injEq] at h
    exact h ▸ heq
  · contradiction

/-! ## Alarms -/

/-- The methods of the devices do nothing to the service. -/
theorem devPollAlarm_spec (family : Int) (answer : Except Exc Unit) (s : Service) :
    wp (devPollAlarm family answer) (fun _ s' => s' = s) (fun _ s' => s' = s) s := by
  unfold devPollAlarm
  split
  · split <;> rfl
  · split <;> rfl

/-- An alarm poll keeps what it keeps at each name that it is told. -/
theorem keeps_pollAlarm_of {I : Service → Prop} {b : BusRef}
    {entries : List (String × Except Exc Unit)} (hn : ∀ e ∈ entries, Keeps I (noticed b e.1))
    (he : ∀ e, Keeps I (pushEvent e)) : Keeps I (pollAlarm b entries) := by
  induction entries with
  | nil => exact fun s hs => hs
  | cons e entries ih =>
      obtain ⟨d, answer⟩ := e
      refine (hn (d, answer) List.mem_cons_self).bind fun r s hs => ?_
      rw [wp_bind, wp_get, wp_bind]
      refine wp_mono (devPollAlarm_spec _ answer s) (fun _ s' h => ?_) (fun _ _ h => h ▸ hs)
      subst h
      exact ((he _).bind fun _ => ih fun e he => hn e (List.mem_cons_of_mem _ he)) s' hs

/-- **An alarm poll** comes down to its devices and their events. -/
theorem keeps_pollAlarm {I : Service → Prop} {b : BusRef} (hn : ∀ d, Keeps I (noticed b d))
    (he : ∀ e, Keeps I (pushEvent e)) (entries : List (String × Except Exc Unit)) :
    Keeps I (pollAlarm b entries) :=
  keeps_pollAlarm_of (fun e _ => hn e.1) he

end Service

end AsyncOwfs
