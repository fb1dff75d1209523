import AsyncOwfs.Tasks.Trees
import Mathlib.Data.Finset.Basic

/-!
# AsyncOwfs.Scan.Picture

What the events say.  Whoever gets all of them forms a picture of the service: the ids
that are registered, the devices that are located, and the buses that there are
(`Picture`).  Between two operations it is that of the service itself.

`get_device`, `locate` and their like change something and push the event for it; what
raises in between has not changed anything yet.  A bus that is asked for below one of the
tree is in the tree, so the steps are those of `Grows`, with what they tell (`Reports`).
-/

namespace AsyncOwfs

open Hoare Transition

/-! ## Pictures -/

/-- The device that an event is about. -/
def Event.device : Event → Option Nat
  | .deviceAdded r | .deviceDeleted r | .deviceLocated r | .deviceNotFound r | .deviceAlarm r => some r
  | _ => none

structure Picture where
  registered : Finset String := ∅
  located : Finset Nat := ∅
  buses : Finset BusRef := ∅

/-- An event is seen; its device has an id. -/
def Picture.see (id : Nat → String) (p : Picture) : Event → Picture
  | .deviceAdded r => { p with registered := insert (id r) p.registered }
  | .deviceDeleted r => { p with registered := p.registered.erase (id r) }
  | .deviceLocated r => { p with located := insert r p.located }
  | .deviceNotFound r => { p with located := p.located.erase r }
  | .busAdded b => { p with buses := insert b p.buses }
  | .busDeleted b => { p with buses := p.buses.erase b }
  | .serverDisconnected _ | .deviceAlarm _ => p

namespace Service

/-- What the events say so far. -/
def picture (s : Service) : Picture := s.events.foldl (Picture.see fun r => (s.dev r).id) {}

/-- The picture of the devices is that of the service.  Events are about devices that have
been made. -/
structure DevicesReported (s : Service) : Prop where
  registered : ∀ id, id ∈ s.picture.registered ↔ s.devices.get? id ≠ none
  located : ∀ r, r ∈ s.picture.located ↔ (s.dev r).bus ≠ none
  made : ∀ e ∈ s.events, ∀ r ∈ e.device, r < s.nextDev
  fresh : ∀ r, s.nextDev ≤ r → (s.dev r).bus = none

/-- So is that of the buses, and one with sub-buses is in the tree of its server. -/
structure Reported (s : Service) : Prop extends DevicesReported s where
  buses : ∀ b, b ∈ s.picture.buses ↔ Known s b.server b
  kin : ∀ b paths p, s.server b.server ≠ none → (s.bus b).buses = some paths → p ∈ paths →
    Known s b.server b

/-- The trees have grown, and what has happened has been reported. -/
structure Reports (s s' : Service) : Prop extends Grows s s' where
  reported : s'.Reported

variable {s s' : Service}

/-- In the beginning there is nothing to tell. -/
theorem reported_init : init.Reported := by
  have hpicture : init.picture = {} := rfl
  constructor
  case buses =>
    intro b
    simp only [hpicture, Finset.notMem_empty, false_iff]
    intro hb
    obtain ⟨names, n, hv, hn, -⟩ := known_iff_below.mp hb
    rw [init, Option.some.injEq] at hv
    simp [← hv] at hn
  case kin =>
    intro b paths p _ hpaths hp
    rw [init, Option.some.injEq] at hpaths
    simp [← hpaths] at hp
  case toDevicesReported => constructor <;> simp [init, picture]

/-- The devices that there are keep their ids. -/
theorem DevicesReported.picture_eq (hr : s.DevicesReported) {es : List Event}
    (hevents : s'.events = s.events ++ es)
    (hid : ∀ r, r < s.nextDev → (s'.dev r).id = (s.dev r).id) :
    s'.picture = es.foldl (Picture.see fun r => (s'.dev r).id) s.picture := by
  have hsame : s.events.foldl (Picture.see fun r => (s'.dev r).id) {} = s.picture := by
    refine List.foldl_ext _ _ _ fun p e he => ?_
    have hmade := hr.made e he
    cases e with
    | deviceAdded r | deviceDeleted r => simp [Picture.see, hid r (hmade r rfl)]
    | _ => rfl
  rw [picture, hevents, List.foldl_append, hsame]

/-- What has changed is what `es` says. -/
theorem DevicesReported.of_events (hr : s.DevicesReported) (es : List Event)
    (hevents : s'.events = s.events ++ es) (hnext : s.nextDev ≤ s'.nextDev)
    (hid : ∀ r, r < s.nextDev → (s'.dev r).id = (s.dev r).id)
    (hmade : ∀ e ∈ es, ∀ r ∈ e.device, r < s'.nextDev)
    (hfresh : ∀ r, s'.nextDev ≤ r → (s'.dev r).bus = none)
    (hregistered : ∀ id, id ∈ (es.foldl (Picture.see fun r => (s'.dev r).id) s.picture).registered ↔
      s'.devices.get? id ≠ none)
    (hlocated : ∀ r, r ∈ (es.foldl (Picture.see fun r => (s'.dev r).id) s.picture).located ↔
      (s'.dev r).bus ≠ none) : s'.DevicesReported := by
  rw [← hr.picture_eq hevents hid] at hregistered hlocated
  refine ⟨hregistered, hlocated, fun e he r hre => ?_, hfresh⟩
  rw [hevents] at he
  rcases List.mem_append.mp he with he | he
  · exact (hr.made e he r hre).trans_le hnext
  · exact hmade e he r hre

/-- Nothing has changed that is told of devices. -/
theorem DevicesReported.of_quiet (hr : s.DevicesReported) {es : List Event}
    (hevents : s'.events = s.events ++ es) (hes : ∀ e ∈ es, e.device = none)
    (hnext : s'.nextDev = s.nextDev) (hdevices : s'.devices = s.devices)
    (hid : ∀ r, (s'.dev r).id = (s.dev r).id) (hbus : ∀ r, (s'.dev r).bus = (s.dev r).bus) :
    s'.DevicesReported := by
  have hsee : ∀ (l : List Event) (p : Picture), (∀ e ∈ l, e.device = none) →
      (l.foldl (Picture.see fun r => (s'.dev r).id) p).registered = p.registered ∧
        (l.foldl (Picture.see fun r => (s'.dev r).id) p).located = p.located := by
    intro l
    induction l with
    | nil => exact fun _ _ => ⟨rfl, rfl⟩
    | cons e l ih =>
        intro p hl
        rw [List.forall_mem_cons] at hl
        rw [List.foldl_cons]
        obtain ⟨hregistered, hlocated⟩ := ih (Picture.see (fun r => (s'.dev r).id) p e) hl.2
        rw [hregistered, hlocated]
        have he := hl.1
        cases e with
        | busAdded | busDeleted | serverDisconnected => exact ⟨rfl, rfl⟩
        | _ => simp [Event.device] at he
  obtain ⟨hregistered, hlocated⟩ := hsee es s.picture hes
  refine hr.of_events es hevents hnext.ge (fun r _ => hid r) (fun e he r hre => ?_) (fun r h => ?_)
    (fun k => ?_) fun r => ?_
  · rw [hes e he] at hre
    contradiction
  · rw [hbus]
    exact hr.fresh r (hnext ▸ h)
  · rw [hregistered, hdevices]
    exact hr.registered k
  · rw [hlocated, hbus]
    exact hr.located r

/-- The trees depend on the servers and on the sub-buses only. -/
theorem known_congr (hserver : s'.server = s.server)
    (hbuses : ∀ c, (s'.bus c).buses = (s.bus c).buses) {v : Nat} {b : BusRef} :
    Known s' v b ↔ Known s v b := by
  constructor
  · intro h
    refine h.mono (fun names n hv hn => ⟨names, hserver ▸ hv, hn⟩) fun c paths p hpaths hp => ?_
    exact ⟨paths, hbuses c ▸ hpaths, hp⟩
  · intro h
    refine h.mono (fun names n hv hn => ⟨names, hserver ▸ hv, hn⟩) fun c paths p hpaths hp => ?_
    exact ⟨paths, (hbuses c).trans hpaths, hp⟩

/-- The buses are as they were. -/
theorem Reported.of_devices (hr : s.Reported) (hd : s'.DevicesReported) {es : List Event}
    (hevents : s'.events = s.events ++ es) (hid : ∀ r, r < s.nextDev → (s'.dev r).id = (s.dev r).id)
    (hserver : s'.server = s.server) (hbuses : ∀ c, (s'.bus c).buses = (s.bus c).buses)
    (hkept : (es.foldl (Picture.see fun r => (s'.dev r).id) s.picture).buses = s.picture.buses) :
    s'.Reported := by
  refine ⟨hd, fun b => ?_, fun b paths p hopen hpaths hp => ?_⟩
  · rw [hr.picture_eq hevents hid, hkept, hr.buses, known_congr hserver hbuses]
  · rw [known_congr hserver hbuses]
    exact hr.kin b paths p (hserver ▸ hopen) ((hbuses b).symm.trans hpaths) hp

/-- Nothing has changed that events are about. -/
theorem Reported.of_quiet (hr : s.Reported) (hserver : s'.server = s.server)
    (hbuses : ∀ c, (s'.bus c).buses = (s.bus c).buses) (hevents : s'.events = s.events)
    (hnext : s'.nextDev = s.nextDev) (hdevices : s'.devices = s.devices)
    (hid : ∀ r, (s'.dev r).id = (s.dev r).id) (hbus : ∀ r, (s'.dev r).bus = (s.dev r).bus) :
    s'.Reported := by
  have hnone : s'.events = s.events ++ [] := by simpa using hevents
  exact hr.of_devices (hr.toDevicesReported.of_quiet hnone (by simp) hnext hdevices hid hbus) hnone
    (fun r _ => hid r) hserver hbuses rfl

/-! ## Steps -/

/-- A step that does nothing. -/
theorem Reports.refl (hs : s.Rooted) (hr : s.Reported) : Reports s s := ⟨hs.grows, hr⟩

/-- Steps follow each other. -/
theorem Reports.trans {s'' : Service} (h : Reports s s') (h' : Reports s' s'') : Reports s s'' :=
  ⟨h.toGrows.trans h'.toGrows, h'.reported⟩

/-- One step after another, which has found something. -/
theorem reports_bind {α β : Type} {x : Method α} {f : α → Method β} {P : α → Service → Prop}
    (hx : wp x (fun a s' => Reports s s' ∧ P a s') (fun _ => Reports s) s)
    (hf : ∀ a s', Reports s s' → P a s' → wp (f a) (fun _ => Reports s') (fun _ => Reports s') s') :
    wp (x >>= f) (fun _ => Reports s) (fun _ => Reports s) s := by
  rw [wp_bind]
  refine wp_mono hx (fun a s' h => ?_) (fun _ _ h => h)
  exact wp_mono (hf a s' h.1 h.2) (fun _ _ h' => h.1.trans h') (fun _ _ h' => h.1.trans h')

/-- One step after another. -/
theorem reports_seq {α β : Type} {x : Method α} {f : α → Method β}
    (hx : wp x (fun _ => Reports s) (fun _ => Reports s) s)
    (hf : ∀ a s', Reports s s' → wp (f a) (fun _ => Reports s') (fun _ => Reports s') s') :
    wp (x >>= f) (fun _ => Reports s) (fun _ => Reports s) s :=
  reports_bind (P := fun _ _ => True) (wp_mono hx (fun _ _ h => ⟨h, trivial⟩) fun _ _ h => h)
    fun a s' h _ => hf a s' h

/-- A loop, each turn of which reports what it does. -/
theorem reports_forM {α : Type} {f : α → Method PUnit}
    (hf : ∀ a (s : Service), s.Rooted → s.Reported → wp (f a) (fun _ => Reports s) (fun _ => Reports s) s)
    (l : List α) (hs : s.Rooted) (hr : s.Reported) :
    wp (l.forM f) (fun _ => Reports s) (fun _ => Reports s) s := by
  induction l generalizing s with
  | nil => exact .refl hs hr
  | cons a l ih => exact reports_seq (hf a s hs hr) fun _ _ h => ih h.rooted h.reported

/-! ## Devices -/

/-- `get_device` tells of the device if it is a new one. -/
theorem reports_getDevice (id : String) (hs : s.Rooted) (hr : s.Reported) :
    wp (getDevice id) (fun r s' => Reports s s' ∧ r < s'.nextDev) (fun _ => Reports s) s := by
  have hgrows : wp (getDevice id) (fun r s' => Grows s s' ∧ r < s'.nextDev) (fun _ => Grows s) s := by
    rw [getDevice_eq_register]
    refine wp_seq (grows_register id s hs) fun x s' h => ?_
    obtain ⟨r, new⟩ := x
    cases new with
    | false => exact h
    | true =>
        have hpush := grows_pushEvent (e := .deviceAdded r) (fun _ => by simp) s' h.1.rooted
        exact ⟨h.1.trans hpush, h.2⟩
  have htold : wp (getDevice id) (fun _ s' => s'.Reported) (fun _ s' => s'.Reported) s := by
    simp only [getDevice, wp_bind, wp_get]
    cases hget : s.devices.get? id with
    | some r => exact hr
    | none =>
        cases hsplit : splitId id with
        | error e => exact hr
        | ok x =>
            obtain ⟨family, -, -⟩ := x
            simp only [wp_bind, wp_set, pushEvent, wp_modify, wp_pure]
            have hid : ∀ r, r < s.nextDev →
                (Function.update s.dev s.nextDev { id := upper id, family } r).id = (s.dev r).id := by
              intro r h
              rw [Function.update_of_ne h.ne]
            refine hr.of_devices (hr.of_events [.deviceAdded s.nextDev] rfl (Nat.le_succ _) hid
              (by simp [Event.device]) (fun r h => ?_) (fun k => ?_) fun r => ?_) rfl hid rfl
              (fun _ => rfl) rfl
            · have hlt : s.nextDev < r := h
              simp only [Function.update_of_ne hlt.ne']
              exact hr.fresh r hlt.le
            · have hk := hr.registered k
              simp only [List.foldl, Picture.see, Function.update_self, Finset.mem_insert, Dict.get?_set]
              by_cases h : k = upper id
              · simp [h]
              · simp [h, hk]
            · have hlocated := hr.located r
              simp only [List.foldl, Picture.see]
              by_cases h : r = s.nextDev
              · rw [hlocated, h]
                simp [hr.fresh s.nextDev le_rfl]
              · simp [h, hlocated]
  exact wp_mono (wp_and hgrows htold) (fun r s' h => ⟨⟨h.1.1, h.2⟩, h.1.2⟩) (fun _ s' h => ⟨h.1, h.2⟩)

/-- `locate` tells where the device has been assigned. -/
theorem reports_locate {b : BusRef} {r : Nat} (hs : s.Rooted) (hr : s.Reported) (hlt : r < s.nextDev) :
    wp (locate r b) (fun _ => Reports s) (fun _ => Reports s) s := by
  simp only [locate, wp_bind, wp_get]
  split
  · exact .refl hs hr
  · simp only [wp_bind, modifyDev, pushEvent, wp_modify]
    have hdev := grows_modifyDev r (f := fun d => { d with bus := some b, waitBus := true })
      (fun _ => rfl) s hs
    have hpush := grows_pushEvent (e := .deviceLocated r) (fun _ => by simp) _ hdev.rooted
    have hid : ∀ x, x < s.nextDev →
        (Function.update s.dev r { s.dev r with bus := some b, waitBus := true } x).id = (s.dev x).id := by
      intro x _
      by_cases h : x = r <;> simp [h]
    refine ⟨hdev.trans hpush, hr.of_devices (hr.of_events [.deviceLocated r] rfl le_rfl hid
      (by simpa [Event.device] using hlt) (fun x h => ?_) (fun k => ?_) fun x => ?_) rfl hid rfl
      (fun _ => rfl) rfl⟩
    · have hne : x ≠ r := by
        rintro rfl
        exact absurd hlt (not_lt.mpr h)
      simp only [Function.update_of_ne hne]
      exact hr.fresh x h
    · exact hr.registered k
    · have hx := hr.located x
      simp only [List.foldl, Picture.see, Finset.mem_insert]
      by_cases h : x = r
      · simp [h]
      · simp [h, hx]

/-- `add_device` tells as `locate` does; the dictionary of the bus is in no picture. -/
theorem reports_addDevice {b : BusRef} {r : Nat} (hs : s.Rooted) (hr : s.Reported)
    (hb : Known s b.server b) (hlt : r < s.nextDev) :
    wp (addDevice b r) (fun _ => Reports s) (fun _ => Reports s) s := by
  rw [addDevice, wp_bind, wp_modify]
  generalize (s.disturbed || decide (Disturbs s b r)) = d
  have hnoted : Reports s { s with disturbed := d } :=
    ⟨hs.grows_of_same ⟨hs.listed, fun _ _ => rfl, le_rfl, hs.registered, fun _ h => h⟩ rfl
      (fun _ => rfl) rfl, hr.of_quiet rfl (fun _ => rfl) rfl rfl rfl (fun _ => rfl) fun _ => rfl⟩
  rw [wp_bind]
  refine wp_mono (reports_locate hnoted.rooted hnoted.reported (b := b) (r := r) hlt) (fun _ s' h => ?_)
    (fun _ s' h => hnoted.trans h)
  rw [wp_bind, wp_get]
  split
  · exact hnoted.trans h
  · next ds hds =>
    have hknown := h.known b.server b (hnoted.known b.server b hb)
    have hgrows := grows_enlist h.rooted hknown (hlt.trans_le h.nextDev) hds
    exact (hnoted.trans h).trans ⟨hgrows, h.reported.of_quiet rfl (buses_update rfl) rfl rfl rfl
      (fun _ => rfl) fun _ => rfl⟩

/-- A device that leaves its bus leaves the trees as they are. -/
theorem grows_delocate (r : Nat) (b : BusRef) (s : Service) (hs : s.Rooted) :
    wp (delocate r b) (fun _ => Grows s) (fun _ => Grows s) s := by
  let R (s s' : Service) : Prop := s.Rooted → Grows s s'
  have hrefl : ∀ s, R s s := fun s hs => hs.grows
  have htrans : ∀ s t u, R s t → R t u → R s u := fun s t u h h' hs => (h hs).trans (h' (h hs).rooted)
  have hmodify (f : Device → Device) (hf : ∀ d, (f d).id = d.id) : Relates R (modifyDev r f) :=
    fun s => wp_forall fun hs => grows_modifyDev r hf s hs
  have hdel (c : BusRef) : Relates R (delDevice c r) :=
    fun s => wp_forall fun hs => grows_delDevice c r s hs
  have hpush : Relates R (pushEvent (.deviceNotFound r)) :=
    fun s => wp_forall fun hs => grows_pushEvent (fun _ => by simp) s hs
  have hgone : Relates R (delocateDevice r) := by
    refine relates_get fun s => ?_
    split
    · exact relates_throw hrefl _
    · exact (hdel _).bind htrans fun _ =>
        (hmodify (fun d => { d with bus := none }) fun _ => rfl).bind htrans fun _ => hpush
  have hall : Relates R (delocate r b) := by
    refine relates_get fun s => ?_
    split
    · exact (hmodify (fun d => { d with waitBus := false }) fun _ => rfl).bind htrans fun _ => hgone
    · exact relates_pure hrefl _
  exact wp_mono (hall s) (fun _ _ h => h hs) (fun _ _ h => h hs)

/-- What `delocate` can do. -/
inductive Delocates (r : Nat) (b : BusRef) (s : Service) : Service → Prop
  | stays : Delocates r b s s
  /-- It has raised. -/
  | fails : Delocates r b s { s with dev := Function.update s.dev r { s.dev r with waitBus := false } }
  | goes (ds : Dict String Nat) (hbus : (s.dev r).bus = some b) :
      Delocates r b s { s with
        dev := Function.update s.dev r (s.dev r).gone,
        bus := Function.update s.bus b { s.bus b with devices := some ds },
        events := s.events ++ [.deviceNotFound r] }

/-- **What `delocate` does** comes to this, also where it raises. -/
theorem delocates_delocate (r : Nat) (b : BusRef) (s : Service) :
    wp (delocate r b) (fun _ => Delocates r b s) (fun _ => Delocates r b s) s := by
  by_cases hbus : (s.dev r).bus = some b
  · have hfails : Delocates r b s { s with
        dev := Function.update s.dev r
          { id := (s.dev r).id, family := (s.dev r).family, bus := some b, unseen := (s.dev r).unseen } } :=
      hbus ▸ .fails
    simp only [delocate, wp_bind, wp_get, hbus, if_true, modifyDev, wp_modify, delocateDevice,
      Function.update_self, delDevice]
    cases hds : (s.bus b).devices with
    | none =>
        simp only [wp_throw]
        exact hfails
    | some ds =>
        cases hget : ds.get? (s.dev r).id with
        | none =>
            simp only [hget, wp_throw]
            exact hfails
        | some x =>
            simp only [hget, modifyBus, wp_modify, wp_bind, pushEvent, Function.update_idem,
              Function.update_self]
            exact .goes _ hbus
  · simp only [delocate, wp_bind, wp_get, hbus, if_false, wp_pure]
    exact .stays

namespace Delocates

variable {r : Nat} {b : BusRef}

theorem id_eq (h : Delocates r b s s') (x : Nat) : (s'.dev x).id = (s.dev x).id := by
  cases h with
  | stays => rfl
  | fails | goes => by_cases hx : x = r <;> simp [hx, Device.gone]

/-- It tells of the device, or of nothing. -/
theorem exists_events (h : Delocates r b s s') :
    ∃ es, s'.events = s.events ++ es ∧ ∀ e ∈ es, e = .deviceNotFound r := by
  cases h with
  | stays | fails => exact ⟨[], by simp, by simp⟩
  | goes => exact ⟨[.deviceNotFound r], rfl, by simp⟩

theorem server_eq (h : Delocates r b s s') : s'.server = s.server := by
  cases h <;> rfl

theorem buses_eq (h : Delocates r b s s') (c : BusRef) : (s'.bus c).buses = (s.bus c).buses := by
  cases h with
  | stays | fails => rfl
  | goes => by_cases hc : c = b <;> simp [hc]

/-- The devices without a place are those that it has told of. -/
theorem devicesReported (h : Delocates r b s s') (hr : s.DevicesReported) : s'.DevicesReported := by
  have hid := h.id_eq
  cases h with
  | stays => exact hr
  | fails =>
      refine hr.of_quiet (List.append_nil _).symm (by simp) rfl rfl hid fun x => ?_
      by_cases hx : x = r <;> simp [hx]
  | goes ds hbus =>
      have hlt : r < s.nextDev := by
        by_contra h
        rw [hr.fresh r (not_lt.mp h)] at hbus
        contradiction
      refine hr.of_events [.deviceNotFound r] rfl le_rfl (fun x _ => hid x)
        (by simpa [Event.device] using hlt) (fun x h => ?_) hr.registered fun x => ?_
      · have hne : x ≠ r := by
          rintro rfl
          exact absurd hlt (not_lt.mpr h)
        simp only [Function.update_of_ne hne]
        exact hr.fresh x h
      · have hx := hr.located x
        simp only [List.foldl, Picture.see, Finset.mem_erase]
        by_cases h : x = r
        · simp [h, Device.gone]
        · simp [h, hx]

/-- The buses are not concerned. -/
theorem reported (h : Delocates r b s s') (hr : s.Reported) : s'.Reported := by
  have hd := h.devicesReported hr.toDevicesReported
  have hid := h.id_eq
  have hserver := h.server_eq
  have hbuses := h.buses_eq
  cases h with
  | stays => exact hr
  | fails => exact hr.of_devices hd (List.append_nil _).symm (fun x _ => hid x) hserver hbuses rfl
  | goes => exact hr.of_devices hd rfl (fun x _ => hid x) hserver hbuses rfl

end Delocates

/-- `delocate` tells what it does. -/
theorem reports_delocate (r : Nat) (b : BusRef) (hs : s.Rooted) (hr : s.Reported) :
    wp (delocate r b) (fun _ => Reports s) (fun _ => Reports s) s :=
  wp_mono (wp_and (grows_delocate r b s hs) (delocates_delocate r b s))
    (fun _ _ h => ⟨h.1, h.2.reported hr⟩) (fun _ _ h => ⟨h.1, h.2.reported hr⟩)

theorem reports_unseen (r u : Nat) (hs : s.Rooted) (hr : s.Reported) :
    wp (modifyDev r fun d => { d with unseen := u }) (fun _ => Reports s) (fun _ => Reports s) s := by
  have hgrows := grows_modifyDev r (f := fun d => { d with unseen := u }) (fun _ => rfl) s hs
  refine ⟨hgrows, hr.of_quiet rfl (fun _ => rfl) rfl rfl rfl (fun x => ?_) fun x => ?_⟩ <;>
    by_cases h : x = r <;> simp [h]

/-- A miss is told if the device goes. -/
theorem reports_miss (b : BusRef) (d : String) (hs : s.Rooted) (hr : s.Reported) :
    wp (miss b d) (fun _ => Reports s) (fun _ => Reports s) s := by
  simp only [miss, wp_bind, wp_get]
  split
  · exact .refl hs hr
  · split
    · exact .refl hs hr
    · next r _ =>
      split
      · exact reports_delocate r b hs hr
      · exact reports_unseen r _ hs hr

/-- What a scan does with a device that is listed. -/
theorem reports_found {b : BusRef} (d : String) (old : List String) (hs : s.Rooted) (hr : s.Reported)
    (hb : Known s b.server b) :
    wp (found b d old) (fun _ => Reports s) (fun _ => Reports s) s := by
  refine reports_bind (reports_getDevice d hs hr) fun r s₁ h₁ hlt => ?_
  have hsight : wp (sight b r d old) (fun _ => Reports s₁) (fun _ => Reports s₁) s₁ := by
    have hrefl := Reports.refl h₁.rooted h₁.reported
    simp only [sight, wp_bind, wp_get]
    split
    · split <;> exact hrefl
    · rw [wp_bind]
      exact reports_addDevice h₁.rooted h₁.reported (h₁.known _ b hb) hlt
  refine reports_seq hsight fun old s₂ h₂ => ?_
  refine reports_seq (reports_unseen r 0 h₂.rooted h₂.reported) fun _ s₃ h₃ => ?_
  exact .refl h₃.rooted h₃.reported

/-- `delete_device` takes the id back. -/
theorem reports_deleteDevice {r : Nat} (hs : s.Rooted) (hr : s.Reported) (hlt : r < s.nextDev) :
    wp (deleteDevice r) (fun _ => Reports s) (fun _ => Reports s) s := by
  have hgrows : wp (deleteDevice r) (fun _ => Grows s) (fun _ => Grows s) s := by
    rw [deleteDevice_eq_unregister]
    refine wp_seq (grows_unregister r s hs) fun _ s' h => ?_
    exact h.trans (grows_pushEvent (e := .deviceDeleted r) (fun _ => by simp) s' h.rooted)
  have htold : wp (deleteDevice r) (fun _ s' => s'.Reported) (fun _ s' => s'.Reported) s := by
    simp only [deleteDevice, wp_bind, wp_get]
    split
    · exact hr
    · split
      · exact hr
      · simp only [wp_bind, wp_set, pushEvent, wp_modify]
        refine hr.of_devices (hr.of_events [.deviceDeleted r] rfl le_rfl (fun _ _ => rfl)
          (by simpa [Event.device] using hlt) hr.fresh (fun k => ?_) hr.located) rfl (fun _ _ => rfl) rfl
          (fun _ => rfl) rfl
        have hk := hr.registered k
        simp only [List.foldl, Picture.see, Finset.mem_erase, Dict.get?_erase]
        by_cases h : k = (s.dev r).id
        · simp [h]
        · simp [h, hk]
  exact wp_mono (wp_and hgrows htold) (fun _ s' h => ⟨h.1, h.2⟩) (fun _ s' h => ⟨h.1, h.2⟩)

/-! ## Buses -/

/-- A bus in a tree is that of an open server. -/
theorem Known.open {v : Nat} {b : BusRef} (h : Known s v b) : s.server v ≠ none := by
  obtain ⟨names, n, hserver, -, -⟩ := known_iff_below.mp h
  rw [hserver]
  exact Option.some_ne_none names

/-- A bus is new, and there is nothing below it yet. -/
theorem Reported.of_added (hr : s.Reported) {b : BusRef} (hevents : s'.events = s.events ++ [.busAdded b])
    (hnext : s'.nextDev = s.nextDev) (hdevices : s'.devices = s.devices) (hdev : s'.dev = s.dev)
    (hknown : ∀ c, Known s' c.server c ↔ Known s c.server c ∨ c = b)
    (hkin : ∀ c paths p, s'.server c.server ≠ none → (s'.bus c).buses = some paths → p ∈ paths →
      Known s c.server c) : s'.Reported := by
  have hid : ∀ r, (s'.dev r).id = (s.dev r).id := fun r => by rw [hdev]
  have hpicture : s'.picture = { s.picture with buses := insert b s.picture.buses } :=
    hr.picture_eq hevents fun r _ => hid r
  refine ⟨hr.toDevicesReported.of_quiet hevents (by simp [Event.device]) hnext hdevices hid
    fun r => by rw [hdev], fun c => ?_, fun c paths p hopen hpaths hp => ?_⟩
  · rw [hpicture, hknown, ← hr.buses]
    simp [or_comm]
  · exact (hknown c).mpr (.inl (hkin c paths p hopen hpaths hp))

/-- A sub-bus is told when it is made. -/
theorem reports_getBus {b : BusRef} {path : List String} (hpath : path ≠ []) (hs : s.Rooted)
    (hr : s.Reported) (hb : Known s b.server b) :
    wp (getBus b path) (fun c s' => Reports s s' ∧ ∀ x ∈ c, Known s' x.server x)
      (fun _ => Reports s) s := by
  have htold : wp (getBus b path) (fun _ s' => Grows s s' → s'.Reported)
      (fun _ s' => Grows s s' → s'.Reported) s := by
    simp only [getBus, wp_bind, wp_get]
    split
    · exact fun _ => hr
    · next paths hpaths =>
      split
      · exact fun _ => hr
      · simp only [wp_bind, wp_set, pushEvent, wp_modify, wp_pure]
        intro hgrows
        have hbelow : ∀ c paths' p, s.server c.server ≠ none →
            (Function.update s.bus b { s.bus b with buses := some (paths ++ [path]) } c).buses =
              some paths' → p ∈ paths' →
            Known s c.server c ∧ (Known s c.server (c.sub p) ∨ c.sub p = b.sub path) := by
          intro c paths' p hopen hpaths' hp
          by_cases hc : c = b
          · subst hc
            rw [Function.update_self, Option.some.injEq] at hpaths'
            subst hpaths'
            refine ⟨hb, ?_⟩
            rcases List.mem_append.mp hp with hp | hp
            · exact .inl (hb.sub hpaths hp)
            · exact .inr (by rw [List.mem_singleton.mp hp])
          · rw [Function.update_of_ne hc] at hpaths'
            have hc := hr.kin c paths' p hopen hpaths' hp
            exact ⟨hc, .inl (hc.sub hpaths' hp)⟩
        refine hr.of_added rfl rfl rfl rfl (fun c => ⟨fun h => ?_, fun h => ?_⟩)
          fun c paths' p hopen hpaths' hp => (hbelow c paths' p hopen hpaths' hp).1
        · have hopen := h.open
          generalize hw : c.server = w at h hopen ⊢
          cases h with
          | top hv hn => exact .inl (.top hv hn)
          | sub hc hpaths' hp =>
              subst hw
              refine (hbelow _ _ _ ?_ hpaths' hp).2
              exact hopen
        · rcases h with h | rfl
          · exact hgrows.known _ c h
          · have hlast : path ∈ paths ++ [path] := by simp
            refine .sub (hgrows.known _ b hb) ?_ hlast
            simp only [Function.update_self]
  exact wp_mono (wp_and (grows_getBus hpath s hs hb) htold)
    (fun c s' h => ⟨⟨h.1.1, h.2 h.1.1⟩, h.1.2⟩) (fun _ s' h => ⟨h.1, h.2 h.1⟩)

/-- And so is a bus below the root. -/
theorem reports_serverGetBus (v : Nat) (name : String) (hs : s.Rooted) (hr : s.Reported) :
    wp (serverGetBus v name) (fun b s' => Reports s s' ∧ Known s' b.server b) (fun _ => Reports s) s := by
  have htold : wp (serverGetBus v name) (fun _ s' => Grows s s' → s'.Reported)
      (fun _ s' => Grows s s' → s'.Reported) s := by
    simp only [serverGetBus, wp_bind, wp_get]
    split
    · exact fun _ => hr
    · next names hnames =>
      split
      · exact fun _ => hr
      · simp only [wp_bind, wp_set, pushEvent, wp_modify, wp_pure]
        intro hgrows
        have hopen : ∀ w, Function.update s.server v (some (names ++ [name])) w ≠ none →
            s.server w ≠ none := by
          intro w hw
          by_cases h : w = v
          · rw [h, hnames]
            exact Option.some_ne_none names
          · rwa [Function.update_of_ne h] at hw
        have hkin : ∀ c paths p, Function.update s.server v (some (names ++ [name])) c.server ≠ none →
            (s.bus c).buses = some paths → p ∈ paths → Known s c.server c :=
          fun c paths p h hpaths hp => hr.kin c paths p (hopen _ h) hpaths hp
        refine hr.of_added rfl rfl rfl rfl (fun c => ⟨fun h => ?_, fun h => ?_⟩) hkin
        · have hopen' := h.open
          generalize hw : c.server = w at h hopen' ⊢
          cases h with
          | top hv hn =>
              by_cases h : w = v
              · subst h
                simp only [Function.update_self, Option.some.injEq] at hv
                subst hv
                rcases List.mem_append.mp hn with hn | hn
                · exact .inl (.top hnames hn)
                · exact .inr (by rw [List.mem_singleton.mp hn])
              · simp only [Function.update_of_ne h] at hv
                exact .inl (.top hv hn)
          | sub hc hpaths hp =>
              subst hw
              refine .inl (.sub (hkin _ _ _ ?_ hpaths hp) hpaths hp)
              exact hopen'
        · rcases h with h | rfl
          · exact hgrows.known _ c h
          · have hlast : name ∈ names ++ [name] := by simp
            refine .top ?_ hlast
            simp only [Function.update_self]
  exact wp_mono (wp_and (grows_serverGetBus v name s hs) htold)
    (fun c s' h => ⟨⟨h.1.1, h.2 h.1.1⟩, h.1.2⟩) (fun _ s' h => ⟨h.1, h.2 h.1⟩)

theorem reports_seen (b : BusRef) (hs : s.Rooted) (hr : s.Reported) :
    wp (modifyBus b fun bus => { bus with unseen := 0 }) (fun _ => Reports s) (fun _ => Reports s) s := by
  have hgrows := grows_modifyBus b (f := fun bus => { bus with unseen := 0 }) (fun _ => rfl)
    (fun _ => rfl) s hs
  exact ⟨hgrows, hr.of_quiet rfl (buses_update rfl) rfl rfl rfl (fun _ => rfl) fun _ => rfl⟩

end Service

end AsyncOwfs
