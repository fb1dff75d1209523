import AsyncOwfs.Scan.Closing
import AsyncOwfs.Tasks.Rounds
import Mathlib.Data.List.Dedup

/-!
# AsyncOwfs.Tasks.Trees

The trees of buses while tasks are at work, and no server is being closed.

A program gets its buses from the tree of a server, and never leaves it: what it
starts pollers for, and what it enters devices into, is in the tree.  The trees only
grow, so what one program has found there stays true whatever the others do.
-/

namespace AsyncOwfs

open Transition Hoare

namespace Service

/-- The trees have grown, and so have the devices. -/
structure Later (s s' : Service) : Prop where
  known : ∀ v b, Known s v b → Known s' v b
  nextDev : s.nextDev ≤ s'.nextDev

/-- Nothing has grown. -/
theorem Later.refl (s : Service) : Later s s := ⟨fun _ _ h => h, le_rfl⟩

/-- Growth adds up. -/
theorem Later.trans {s s' s'' : Service} (h : Later s s') (h' : Later s' s'') : Later s s'' :=
  ⟨fun v b hb => h'.known v b (h.known v b hb), h.nextDev.trans h'.nextDev⟩

/-- Nothing but growth: no bus is deleted. -/
structure Grows (s s' : Service) : Prop extends Later s s' where
  rooted : s'.Rooted
  deleted : ∀ b, .busDeleted b ∈ s'.events → .busDeleted b ∈ s.events

/-- What does nothing lets the trees grow at most. -/
theorem Rooted.grows (hs : Rooted s) : Grows s s := ⟨.refl s, hs, fun _ h => h⟩

/-- One step after another. -/
theorem Grows.trans {s s' s'' : Service} (h : Grows s s') (h' : Grows s' s'') : Grows s s'' :=
  ⟨h.toLater.trans h'.toLater, h'.rooted, fun b hb => h.deleted b (h'.deleted b hb)⟩

/-- What becomes of the devices: those that are listed could be so before. -/
structure Retains (s s' : Service) : Prop where
  listed : ∀ b d r, s'.lookup b d = some r → Known s b.server b ∧ (s.dev r).id = d ∧ r < s.nextDev
  id : ∀ r, r < s.nextDev → (s'.dev r).id = (s.dev r).id
  nextDev : s.nextDev ≤ s'.nextDev
  registered : ∀ id r, s'.devices.get? id = some r → r < s'.nextDev
  deleted : ∀ b, .busDeleted b ∈ s'.events → .busDeleted b ∈ s.events

/-- Devices that have not changed. -/
theorem Rooted.retains {s : Service} (hs : s.Rooted) : Retains s s :=
  ⟨hs.listed, fun _ _ => rfl, le_rfl, hs.registered, fun _ h => h⟩

/-- The trees have grown, and what is listed could be so before. -/
theorem Rooted.grows_of_retains {s s' : Service} (hs : s.Rooted) (h : Retains s s') (hdeep : s'.Deep)
    (hknown : ∀ v b, Known s v b → Known s' v b)
    (hserver : ∀ v, s.server v = none → s'.server v = none) : Grows s s' := by
  refine ⟨⟨hknown, h.nextDev⟩, ⟨hdeep, fun b d r hr => ?_, h.registered, fun b hb => ?_⟩, h.deleted⟩
  · obtain ⟨hb, hid, hlt⟩ := h.listed b d r hr
    exact ⟨hknown _ b hb, (h.id r hlt).trans hid, hlt.trans_le h.nextDev⟩
  · exact hserver _ (hs.closed b (h.deleted b hb))

/-- The same where the trees are as they were. -/
theorem Rooted.grows_of_same {s s' : Service} (hs : s.Rooted) (h : Retains s s')
    (hserver : s'.server = s.server) (hbuses : ∀ b, (s'.bus b).buses = (s.bus b).buses)
    (hdepth : s'.depth = s.depth) : Grows s s' := by
  refine hs.grows_of_retains h ⟨fun v names hv hne => ?_, fun b paths p hpaths hp => ?_⟩
    (fun v b hb => hb.mono (fun names n hv hn => ⟨names, ?_, hn⟩) fun c paths p hpaths hp =>
      ⟨paths, ?_, hp⟩) fun v hv => ?_
  · exact hdepth ▸ hs.deep.top v names (hserver ▸ hv) hne
  · exact hdepth ▸ hs.deep.sub b paths p (hbuses b ▸ hpaths) hp
  · rw [hserver, hv]
  · rw [hbuses, hpaths]
  · rw [hserver, hv]

/-- Any event but the end of a bus may be told. -/
theorem grows_pushEvent {e : Event} (he : ∀ b, e ≠ .busDeleted b) (s : Service) (hs : s.Rooted) :
    wp (pushEvent e) (fun _ => Grows s) (fun _ => Grows s) s := by
  refine hs.grows_of_same ⟨hs.listed, fun _ _ => rfl, le_rfl, hs.registered, fun b hb => ?_⟩ rfl
    (fun _ => rfl) rfl
  exact (List.mem_append.mp hb).resolve_right fun h => he b (List.mem_singleton.mp h).symm

/-- A device has changed, but keeps its id. -/
theorem grows_modifyDev (r : Nat) {f : Device → Device} (hid : ∀ d, (f d).id = d.id) (s : Service)
    (hs : s.Rooted) : wp (modifyDev r f) (fun _ => Grows s) (fun _ => Grows s) s := by
  refine hs.grows_of_same ⟨hs.listed, fun r' _ => ?_, le_rfl, hs.registered, fun _ h => h⟩ rfl
    (fun _ => rfl) rfl
  by_cases hr : r' = r
  · simp [hr, hid]
  · simp [hr]

/-- A bus has changed, but lists no other devices, and no other sub-buses. -/
theorem grows_modifyBus (b : BusRef) {f : Bus → Bus} (hbuses : ∀ bus, (f bus).buses = bus.buses)
    (hdevices : ∀ bus, (f bus).devices = bus.devices) (s : Service) (hs : s.Rooted) :
    wp (modifyBus b f) (fun _ => Grows s) (fun _ => Grows s) s := by
  refine hs.grows_of_same ⟨fun c d r h => hs.listed c d r ?_, fun _ _ => rfl, le_rfl, hs.registered,
    fun _ h => h⟩ rfl (buses_update (hbuses _)) rfl
  by_cases hc : c = b
  · subst hc
    simpa [lookup, hdevices] using h
  · simpa [lookup, hc] using h

/-- A bus has lost a device. -/
theorem grows_delDevice (b : BusRef) (r : Nat) (s : Service) (hs : s.Rooted) :
    wp (delDevice b r) (fun _ => Grows s) (fun _ => Grows s) s := by
  rw [delDevice, wp_bind, wp_get]
  split
  · exact hs.grows
  · next ds hds =>
    split
    · exact hs.grows
    · refine hs.grows_of_same ⟨fun c d x h => hs.listed c d x ?_, fun _ _ => rfl, le_rfl,
        hs.registered, fun _ h => h⟩ rfl (buses_update rfl) rfl
      by_cases hc : c = b
      · subst hc
        simp only [lookup, Function.update_self, Option.bind_some, Dict.get?_erase] at h
        split at h
        · contradiction
        · rw [lookup, hds]
          exact h
      · simpa [lookup, hc] using h

/-- A new device is in no tree yet. -/
theorem grows_register (id : String) (s : Service) (hs : s.Rooted) :
    wp (register id) (fun x s' => Grows s s' ∧ x.1 < s'.nextDev) (fun _ => Grows s) s := by
  rw [register, wp_bind, wp_get]
  split
  · next r hget => exact ⟨hs.grows, hs.registered id r hget⟩
  · split
    · exact hs.grows
    · refine ⟨hs.grows_of_same ⟨hs.listed, fun r hr => ?_, Nat.le_succ _, fun k r h => ?_,
        fun _ h => h⟩ rfl (fun _ => rfl) rfl, Nat.lt_succ_self _⟩
      · simp only [Function.update_of_ne hr.ne]
      · simp only [Dict.get?_set] at h
        split at h
        · rw [Option.some.injEq] at h
          exact h ▸ Nat.lt_succ_self _
        · exact (hs.registered k r h).trans (Nat.lt_succ_self _)

/-- A device that is deleted keeps its number. -/
theorem grows_unregister (r : Nat) (s : Service) (hs : s.Rooted) :
    wp (unregister r) (fun _ => Grows s) (fun _ => Grows s) s := by
  rw [unregister, wp_bind, wp_get]
  split
  · exact hs.grows
  · split
    · exact hs.grows
    · refine hs.grows_of_same ⟨hs.listed, fun _ _ => rfl, le_rfl, fun k r h => hs.registered k r ?_,
        fun _ h => h⟩ rfl (fun _ => rfl) rfl
      simp only [Dict.get?_erase] at h
      split at h
      · contradiction
      · exact h

/-- What makes a bus. -/
theorem grows_made {α : Type} {x : Method α} {s : Service} (hs : s.Rooted) {Q : α → Service → Prop}
    (hdeep : Hoare.Keeps Deep x) (hknown : ∀ v b, Hoare.Keeps (fun s => Known s v b) x)
    (hx : wp x (fun a s' => Retains s s' ∧ (∀ v, s.server v = none → s'.server v = none) ∧ Q a s')
      (fun _ s' => s' = s) s) : wp x (fun a s' => Grows s s' ∧ Q a s') (fun _ => Grows s) s := by
  have hall := wp_forall fun v => wp_forall fun b => wp_forall fun h : Known s v b => hknown v b s h
  refine wp_mono (wp_and (hdeep s hs.deep) (wp_and hall hx)) (fun a s' h => ?_) (fun e s' h => ?_)
  · exact ⟨hs.grows_of_retains h.2.2.1 h.1 h.2.1 h.2.2.2.1, h.2.2.2.2⟩
  · exact h.2.2 ▸ hs.grows

/-- A sub-bus of a bus in the tree is in the tree. -/
theorem grows_getBus {b : BusRef} {path : List String} (hpath : path ≠ []) (s : Service)
    (hs : s.Rooted) (hb : Known s b.server b) :
    wp (getBus b path) (fun c s' => Grows s s' ∧ ∀ x ∈ c, Known s' x.server x) (fun _ => Grows s) s := by
  have hmade := grows_made hs (deep_getBus b hpath) (fun v c => known_getBus (v := v) (b := c) b path)
    (Q := fun c s' => ∀ x ∈ c, x = b.sub path ∧ ∃ paths, (s'.bus b).buses = some paths ∧ path ∈ paths)
  refine wp_mono (hmade ?_) (fun c s' h => ⟨h.1, fun x hx => ?_⟩) (fun _ _ h => h)
  · simp only [getBus, wp_bind, wp_get]
    split
    · exact ⟨hs.retains, fun _ h => h, fun x hx => by contradiction⟩
    · next paths hpaths =>
      split
      · next hp =>
        refine ⟨hs.retains, fun _ h => h, fun x hx => ?_⟩
        rw [Option.mem_some_iff] at hx
        exact ⟨hx.symm, paths, hpaths, hp⟩
      · simp only [wp_bind, wp_set, pushEvent, wp_modify, wp_pure]
        refine ⟨⟨fun c d r h => hs.listed c d r ?_, fun _ _ => rfl, le_rfl, hs.registered,
          fun c hc => ?_⟩, fun _ h => h, fun x hx => ?_⟩
        · by_cases hc : c = b
          · subst hc
            simpa [lookup] using h
          · simpa [lookup, hc] using h
        · simpa using hc
        · rw [Option.mem_some_iff] at hx
          refine ⟨hx.symm, paths ++ [path], by simp only [Function.update_self], ?_⟩
          exact List.mem_append_right _ (List.mem_singleton_self _)
  · obtain ⟨rfl, paths, hpaths, hp⟩ := h.2 x hx
    exact .sub (h.1.known _ b hb) hpaths hp

/-- A bus below the root is in the tree. -/
theorem grows_serverGetBus (v : Nat) (name : String) (s : Service) (hs : s.Rooted) :
    wp (serverGetBus v name) (fun b s' => Grows s s' ∧ Known s' b.server b) (fun _ => Grows s) s := by
  refine grows_made hs (deep_serverGetBus v name)
    (fun w c => known_serverGetBus (v := w) (b := c) v name) ?_
  simp only [serverGetBus, wp_bind, wp_get]
  split
  · rfl
  · next names hnames =>
    split
    · next hn =>
      exact ⟨hs.retains, fun _ h => h, .top hnames hn⟩
    · simp only [wp_bind, wp_set, pushEvent, wp_modify, wp_pure]
      refine ⟨⟨hs.listed, fun _ _ => rfl, le_rfl, hs.registered, fun c hc => ?_⟩, fun w hw => ?_, ?_⟩
      · simpa using hc
      · by_cases hwv : w = v
        · rw [hwv, hnames] at hw
          contradiction
        · simp only [Function.update_of_ne hwv, hw]
      · have hname : name ∈ names ++ [name] := List.mem_append_right _ (List.mem_singleton_self _)
        refine .top ?_ hname
        simp only [Function.update_self]

/-- A device is entered into the list of a bus in the tree, under its id. -/
theorem grows_enlist {b : BusRef} {r : Nat} {ds : Dict String Nat} {s : Service} (hs : s.Rooted)
    (hb : Known s b.server b) (hr : r < s.nextDev) (hds : (s.bus b).devices = some ds) :
    wp (modifyBus b fun bus => { bus with devices := some (ds.set (s.dev r).id r) })
      (fun _ => Grows s) (fun _ => Grows s) s := by
  refine hs.grows_of_same ⟨fun c d x hx => ?_, fun _ _ => rfl, le_rfl, hs.registered, fun _ h => h⟩ rfl
    (buses_update rfl) rfl
  by_cases hc : c = b
  · subst hc
    simp only [lookup, Function.update_self, Option.bind_some, Dict.get?_set] at hx
    split at hx
    · next hd =>
      rw [Option.some.injEq] at hx
      subst hx
      exact ⟨hb, hd.symm, hr⟩
    · refine hs.listed c d x ?_
      rw [lookup, hds]
      exact hx
  · simp only [lookup, Function.update_of_ne hc] at hx
    exact hs.listed c d x hx

/-! ## Commands -/

/-- The command stays within the trees, and takes nothing out of them. -/
def Fits (s : Service) : Cmd → Prop
  | .push e => ∀ b, e ≠ .busDeleted b
  | .getBus b path => Known s b.server b ∧ path ≠ []
  | .enlist b r => Known s b.server b ∧ r < s.nextDev
  | .startPoll b _ => Known s b.server b
  | .serverClosed _ | .noBuses _ | .noDevices _ => False
  | _ => True

/-- What a command has found there. -/
def Finds (s : Service) : (c : Cmd) → Except Exc c.Ret → Prop
  | .serverGetBus .., .ok b => Known s b.server b
  | .getBus .., .ok c => ∀ b ∈ c, Known s b.server b
  | .getDevice _, .ok x => x.1 < s.nextDev
  | .review b, .ok x => x.2 ≠ [] → Known s b.server b
  | _, _ => True

end Service

namespace World

/-- The commands that find something, or are about a list of devices. -/
def Explores : Cmd → Prop
  | .serverGetBus .. | .getBus .. | .getDevice _ | .review _ | .enlist .. => True
  | _ => False

/-- A bus that has something to be polled for is in the tree. -/
theorem known_of_items {w : World} (hs : w.service.Rooted) {b : BusRef} (h : w.items b ≠ []) :
    Service.Known w.service b.server b := by
  obtain ⟨x, hx⟩ := List.exists_mem_of_ne_nil _ h
  rw [items, List.mem_dedup] at hx
  obtain ⟨r, hr, -⟩ := List.mem_flatMap.mp hx
  cases hds : (w.service.bus b).devices with
  | none =>
      rw [hds] at hr
      exact absurd hr List.not_mem_nil
  | some ds =>
      rw [hds] at hr
      obtain ⟨d, hd⟩ := Dict.mem_values.mp hr
      refine (hs.listed b d r ?_).1
      rw [Service.lookup, hds]
      exact hd

/-- Commands that look for nothing in the trees. -/
theorem grows_plain (reply : Reply) {c : Cmd} {w : World} (hs : w.service.Rooted)
    (hc : w.service.Fits c) (hplain : ¬ Explores c) :
    wp (exec reply c) (fun _ w' => Service.Grows w.service w'.service)
      (fun _ w' => Service.Grows w.service w'.service) w := by
  let R (s s' : Service) : Prop := s.Rooted → Service.Grows s s'
  have hR {α : Type} {x : AsyncOwfs.Method α} (hx : ∀ s : Service, s.Rooted →
      wp x (fun _ => Service.Grows s) (fun _ => Service.Grows s) s) :
      Relates (fun w w' => R w.service w'.service) (onService x) :=
    relates_onService fun s => wp_forall fun hs => hx s hs
  have hparts : Parts (fun w w' => R w.service w'.service) c := by
    cases c with
    | push e => exact hR (Service.grows_pushEvent hc)
    | deleteDevice r => exact hR (Service.grows_unregister r)
    | assign b r => exact hR (Service.grows_modifyDev r fun _ => rfl)
    | unlocate b r =>
        exact ⟨hR (Service.grows_modifyDev r fun _ => rfl), hR (Service.grows_delDevice b r),
          hR (Service.grows_modifyDev r fun _ => rfl)⟩
    | setInterval r styp value => exact fun intervals w hs => hs.grows
    | seenBus b => exact hR (Service.grows_modifyBus b (fun _ => rfl) fun _ => rfl)
    | seen r => exact hR (Service.grows_modifyDev r fun _ => rfl)
    | miss b d => exact fun r => hR (Service.grows_modifyDev r fun _ => rfl)
    | stopPoll | startPoll | storePoll => exact parts_isPoll (fun w w' h hs => h ▸ hs.grows) trivial
    | serverGetBus | getBus | getDevice | enlist => exact absurd trivial hplain
    | serverClosed | noBuses | noDevices => exact hc.elim
    | _ => trivial
  have hexec := relates_exec (fun w hs => hs.grows) (fun _ _ _ h h' hs => (h hs).trans (h' (h hs).rooted))
    reply c hparts
  exact wp_mono (hexec w) (fun _ _ h => h hs) (fun _ _ h => h hs)

/-- **A command that stays within the trees** lets them grow at most. -/
theorem grows_exec (reply : Reply) {c : Cmd} {w : World} (hs : w.service.Rooted)
    (hc : w.service.Fits c) :
    wp (exec reply c)
      (fun a w' => Service.Grows w.service w'.service ∧ w'.service.Finds c (.ok a))
      (fun _ w' => Service.Grows w.service w'.service) w := by
  by_cases hplain : Explores c
  · cases c with
    | serverGetBus v name =>
        show wp (onService (Service.serverGetBus v name)) _ _ w
        rw [onService, wp_zoom]
        exact Service.grows_serverGetBus v name w.service hs
    | getBus b path =>
        show wp (onService (Service.getBus b path)) _ _ w
        rw [onService, wp_zoom]
        exact Service.grows_getBus hc.2 w.service hs hc.1
    | getDevice id =>
        show wp (onService (Service.register id)) _ _ w
        rw [onService, wp_zoom]
        exact Service.grows_register id w.service hs
    | review b => exact ⟨hs.grows, known_of_items hs⟩
    | enlist b r =>
        rw [exec, wp_bind, wp_get]
        split
        · exact hs.grows
        · next ds hds => exact ⟨Service.grows_enlist hs hc.1 hc.2 hds, trivial⟩
    | _ => exact hplain.elim
  · refine wp_mono (grows_plain reply hs hc hplain) (fun a w' h => ⟨h, ?_⟩) (fun _ _ h => h)
    cases c with
    | serverGetBus | getBus | getDevice | review => exact absurd trivial hplain
    | _ => trivial

end World

namespace Program

open Prog hiding perform
open Service

/-- A command stays within the trees, whatever the other tasks have added to them. -/
def growing : Contract Cmd Cmd.Ret Exc Service where
  ok s c := s.Fits c
  next s c r s' := s.Later s' ∧ s'.Finds c r

/-- What fits now fits later. -/
theorem stable_growing : growing.Stable Later := by
  constructor
  · intro s s' c h hc
    cases c with
    | getBus b path => exact ⟨h.known _ b hc.1, hc.2⟩
    | enlist b r => exact ⟨h.known _ b hc.1, hc.2.trans_le h.nextDev⟩
    | startPoll b x => exact h.known _ b hc
    | _ => exact hc
  · exact fun s s' c r s'' h h' => ⟨h.trans h'.1, h'.2⟩

/-- All commands of the program stay within the trees. -/
abbrev Stays (p : Program α) (s : Service) : Prop :=
  p.Meets growing (fun _ s' => s.Later s') (fun _ s' => s.Later s') s

variable {s : Service}

/-- A program that begins later. -/
theorem Stays.trans {p : Program α} {s' : Service} (h : s.Later s') (hp : p.Stays s') :
    p.Meets growing (fun _ s'' => s.Later s'') (fun _ s'' => s.Later s'') s' :=
  hp.mono (fun _ _ h' => h.trans h') fun _ _ h' => h.trans h'

/-- A program without commands. -/
theorem stays_pure (a : α) : Stays (pure a : Program α) s := Later.refl s

theorem stays_raise (e : Exc) : Stays (.raise e : Program α) s := Later.refl s

/-- A program of one command. -/
theorem stays_perform {c : Cmd} (hc : s.Fits c) : Stays (perform c) s :=
  meets_perform hc (fun _ _ h => h.1) fun _ _ h => h.1

/-- One command, and what it has found. -/
theorem stays_step {c : Cmd} {f : c.Ret → Program β} (hc : s.Fits c)
    (hf : ∀ a s', s.Later s' → s'.Finds c (.ok a) → (f a).Stays s') : Stays (perform c >>= f) s :=
  meets_step hc (fun a s' h => (hf a s' h.1 h.2).trans h.1) fun _ _ h => h.1

/-- One program after another, which begins later. -/
theorem stays_bind {p : Program α} {f : α → Program β} (hp : p.Stays s)
    (hf : ∀ a s', s.Later s' → (f a).Stays s') : Stays (p >>= f) s :=
  meets_bind hp fun a s' h => (hf a s' h).trans h

/-- A loop, each turn of which begins later. -/
theorem stays_forM {α : Type} {f : α → Program PUnit} (l : List α)
    (hf : ∀ a ∈ l, ∀ s', s.Later s' → (f a).Stays s') : Stays (l.forM f) s :=
  meets_forM (I := s.Later) l (fun a ha s' h => (hf a ha s' h).trans h) (.refl s)

/-- An exception is handled later. -/
theorem stays_handle {p : Program α} {h : Exc → Program α} (hp : p.Stays s)
    (hh : ∀ e s', s.Later s' → (h e).Stays s') : Stays (handle p h) s :=
  meets_handle hp fun e s' h' => (hh e s' h').trans h'

/-- `get_device` returns a device that there is. -/
theorem stays_getDevice (id : String) :
    (getDevice id).Meets growing (fun r s' => s.Later s' ∧ r < s'.nextDev)
      (fun _ s' => s.Later s') s := by
  refine meets_step trivial (fun x s' h => ?_) fun e s' h => h.1
  obtain ⟨r, new⟩ := x
  obtain ⟨hlater, hr⟩ := h
  cases new with
  | false => exact ⟨hlater, hr⟩
  | true =>
      refine meets_step (fun b => Event.noConfusion) (fun _ s'' h' => ?_) fun _ s'' h' => ?_
      · exact ⟨hlater.trans h'.1, hr.trans_le h'.1.nextDev⟩
      · exact hlater.trans h'.1

/-- A device, and what is done with it. -/
theorem stays_fetch {id : String} {f : Nat → Program α}
    (hf : ∀ r s', s.Later s' → r < s'.nextDev → (f r).Stays s') : Stays (getDevice id >>= f) s :=
  meets_bind (stays_getDevice id) fun r s' h => (hf r s' h.1 h.2).trans h.1

/-- An event. -/
theorem stays_push {e : Event} (he : ∀ b, e ≠ .busDeleted b) : Stays (perform (.push e)) s :=
  stays_perform he

/-- `locate` does not look at the trees. -/
theorem stays_locate (b : BusRef) (r : Nat) : Stays (locate b r) s := by
  refine stays_step trivial fun here s' _ _ => ?_
  cases here with
  | false => exact stays_pure _
  | true =>
      refine stays_bind (stays_push fun c => Event.noConfusion) fun _ s₁ _ => ?_
      refine stays_step trivial fun typs s₂ _ _ => stays_forM typs fun typ _ s₃ _ => ?_
      exact stays_step trivial fun _ s₄ _ _ => stays_perform trivial

/-- `delocate` does not look at the trees. -/
theorem stays_delocate (b : BusRef) (r : Nat) : Stays (delocate b r) s := by
  refine stays_step trivial fun here s' _ _ => ?_
  cases here with
  | false => exact stays_pure _
  | true => exact stays_push fun c => Event.noConfusion

/-- `add_device`, on a bus in the tree. -/
theorem stays_addDevice {b : BusRef} {r : Nat} (hb : Known s b.server b) (hr : r < s.nextDev) :
    Stays (addDevice b r) s := by
  refine stays_bind (stays_locate b r) fun _ s' h => stays_perform ?_
  exact ⟨h.known _ b hb, hr.trans_le h.nextDev⟩

/-- A poller is started for a bus in the tree. -/
theorem stays_startPoll {b : BusRef} (x : String) (hb : Known s b.server b) :
    Stays (startPoll b x) s := by
  refine stays_step hb fun started s' _ _ => ?_
  cases started with
  | none => exact stays_pure _
  | some n => exact stays_perform trivial

/-- `update_poll` starts pollers for a bus in the tree only, whichever it is called on. -/
theorem stays_updatePoll (b : BusRef) : Stays (updatePoll b) s := by
  refine stays_step trivial fun x s' _ hitems => ?_
  obtain ⟨old, items⟩ := x
  refine stays_bind (stays_forM old fun i _ s'' _ => stays_perform trivial) fun _ s'' h => ?_
  refine stays_forM items fun i hi s₃ h' => stays_startPoll i ?_
  exact h'.known _ b (h.known _ b (hitems (List.ne_nil_of_mem hi)))

/-! ### Scans -/

theorem stays_miss (b : BusRef) (d : String) : Stays (miss b d) s := by
  refine stays_step trivial fun gone s' _ _ => ?_
  cases gone with
  | none => exact stays_pure _
  | some r => exact stays_delocate b r

/-- A scan of a bus, around its loop. -/
theorem stays_scanWith (polling : Bool) (b : BusRef) {entries : List String → Program (List String)}
    (hentries : ∀ old s', s.Later s' → (entries old).Stays s') :
    Stays (scanWith polling b entries) s := by
  refine stays_step trivial fun _ s₁ h₁ _ => ?_
  refine stays_step trivial fun old s₂ h₂ _ => ?_
  refine stays_bind (hentries old s₂ (h₁.trans h₂)) fun old s₃ _ => ?_
  refine stays_bind (stays_forM old fun d _ s₄ _ => stays_miss b d) fun _ s₄ _ => ?_
  cases polling with
  | false => exact stays_pure _
  | true => exact stays_updatePoll b

/-- A sub-bus of a bus in the tree is in the tree. -/
theorem stays_visit (polling : Bool) {b : BusRef} {path : List String} (hb : Known s b.server b)
    (hpath : path ≠ []) {entries : BusRef → List String → Program (List String)}
    (hentries : ∀ c old s', s.Later s' → Known s' c.server c → (entries c old).Stays s') :
    Stays (visit polling b path entries) s := by
  refine stays_step ⟨hb, hpath⟩ fun c s' h hc => ?_
  cases c with
  | none => exact stays_pure _
  | some c =>
      refine stays_scanWith polling c fun old s'' h' => ?_
      exact hentries c old s'' (h.trans h') (h'.known _ c (hc c rfl))

/-- A device that is listed is added to the bus that is scanned. -/
theorem stays_found {b : BusRef} (d : String) (old : List String) (hb : Known s b.server b) :
    Stays (found b d old) s := by
  refine stays_fetch fun r s₁ h₁ hr => ?_
  refine stays_step trivial fun _ s₂ h₂ _ => ?_
  refine stays_step trivial fun here s₃ h₃ _ => ?_
  have hseen (old : List String) (s' : Service) : Stays (do
      let id ← perform (.seen r)
      return (id, old)) s' :=
    stays_step trivial fun _ _ _ _ => stays_pure _
  cases here with
  | none =>
      have hlater := h₁.trans (h₂.trans h₃)
      refine stays_bind (stays_addDevice (hlater.known _ b hb) ?_) fun _ s₄ _ => hseen old s₄
      exact hr.trans_le (h₂.trans h₃).nextDev
  | some old => exact hseen old s₃

/-- Both sub-buses of a coupler. -/
theorem stays_visitAll (polling : Bool) {b : BusRef} (id : Option String) (hb : Known s b.server b)
    {main aux : BusRef → List String → Program (List String)}
    (hmain : ∀ c old s', s.Later s' → Known s' c.server c → (main c old).Stays s')
    (haux : ∀ c old s', s.Later s' → Known s' c.server c → (aux c old).Stays s') :
    Stays (visitAll polling b id main aux) s := by
  cases id with
  | none => exact stays_pure _
  | some id =>
      refine stays_bind (stays_visit polling hb (List.cons_ne_nil _ _) hmain) fun _ s' h => ?_
      refine stays_visit polling (h.known _ b hb) (List.cons_ne_nil _ _) fun c old s'' h' hc => ?_
      exact haux c old s'' (h.trans h') hc

/-- By recursion on the listing. -/
theorem stays_scanEntries (polling : Bool) (listing : Listing) :
    ∀ b old s, Known s b.server b → Stays (scanEntries polling listing b old) s := by
  induction listing with
  | nil => exact fun b old s _ => stays_pure _
  | cons d main aux rest ihmain ihaux ihrest =>
      intro b old s hb
      rw [scanEntries]
      split
      · exact ihrest b old s hb
      · refine stays_bind (stays_found d old hb) fun x s₁ h₁ => ?_
        refine stays_bind (stays_visitAll polling x.1 (h₁.known _ b hb)
          (fun c old s' _ hc => ihmain c old s' hc) fun c old s' _ hc => ihaux c old s' hc) fun _ s₂ h₂ => ?_
        exact ihrest b x.2 s₂ ((h₁.trans h₂).known _ b hb)

/-- **A scan** finds its buses in the tree that it makes. -/
theorem stays_scanBase (polling : Bool) (v : Nat) (root : List (String × Listing)) :
    Stays (scanBase polling v root) s := by
  refine stays_handle ?_ fun e s' _ => ?_
  · refine stays_step trivial fun _ s₁ _ _ => stays_forM root fun x _ s₂ _ => ?_
    rw [scanBus]
    split
    · refine stays_step trivial fun b s₃ _ hb => ?_
      refine stays_step trivial fun _ s₄ h₄ _ => ?_
      refine stays_scanWith polling b fun old s₅ h₅ => ?_
      exact stays_scanEntries polling x.2 b old s₅ ((h₄.trans h₅).known _ b hb)
    · exact stays_pure _
  · split
    · exact stays_pure _
    · exact stays_raise e

/-! ### Polls and calls -/

theorem stays_request (r : Nat) (path : List String) : Stays (perform (.request r path)) s :=
  stays_perform trivial

theorem stays_writeIf (p : Prop) [Decidable p] (r : Nat) (path : List String) :
    Stays (writeIf p r path) s := by
  rw [writeIf]
  split
  · exact stays_bind (stays_request r path) fun _ s' _ => stays_pure _
  · exact stays_pure _

theorem stays_reset (r : Nat) (n : String) (flags : Reading) : Stays (reset r n flags) s := by
  rw [reset]
  split
  · exact stays_perform trivial
  · exact stays_pure _

/-- What `poll_alarm` does with a device is not about buses. -/
theorem stays_devPollAlarm (r : Nat) (family : Int) : Stays (devPollAlarm r family) s := by
  rw [devPollAlarm]
  split
  · refine stays_bind (stays_request r _) fun t s₁ _ => ?_
    refine stays_bind (stays_request r _) fun high s₂ _ => ?_
    refine stays_bind (stays_writeIf _ r _) fun _ s₃ _ => ?_
    refine stays_bind (stays_request r _) fun low s₄ _ => ?_
    exact stays_writeIf _ r _
  split
  · refine stays_bind (stays_request r _) fun v s₁ _ => ?_
    refine stays_bind (stays_request r _) fun high s₂ _ => ?_
    refine stays_bind (stays_request r _) fun low s₃ _ => ?_
    refine stays_bind (stays_request r _) fun power s₄ _ => ?_
    refine stays_bind (stays_writeIf _ r _) fun _ s₅ _ => ?_
    refine stays_bind (stays_reset r _ high) fun _ s₆ _ => ?_
    refine stays_bind (stays_reset r _ low) fun _ s₇ _ => ?_
    split
    · exact stays_perform trivial
    · exact stays_pure _
  split
  · exact stays_perform trivial
  · exact stays_perform trivial

/-- An alarm poll of a bus in the tree. -/
theorem stays_pollAlarm {b : BusRef} (names : List String) (hb : Known s b.server b) :
    Stays (pollAlarm b names) s := by
  refine stays_step trivial fun _ s₁ h₁ _ => stays_forM names fun d _ s₂ h₂ => ?_
  refine stays_fetch fun r s₃ h₃ hr => ?_
  have hlater := h₁.trans (h₂.trans h₃)
  refine stays_bind (stays_addDevice (hlater.known _ b hb) hr) fun family s₄ _ => ?_
  refine stays_bind (stays_devPollAlarm r family) fun _ s₅ _ => ?_
  exact stays_push fun c => Event.noConfusion

/-- A round of a bus in the tree. -/
theorem stays_poll {b : BusRef} (x : String) (names : List String) (hb : Known s b.server b) :
    Stays (poll b x names) s := by
  refine stays_handle ?_ fun e s' _ => ?_
  · split
    · exact stays_pollAlarm names hb
    · refine stays_step trivial fun ds s₁ _ _ => stays_forM ds fun d _ s₂ _ => ?_
      rw [pollDevice]
      split
      · exact stays_step trivial fun _ s₃ _ _ => stays_perform trivial
      · exact stays_pure _
  · split
    · exact stays_pure _
    · exact stays_raise e

/-- A change of an interval starts and stops the pollers of one bus. -/
theorem stays_setPollingInterval (r : Nat) (styp : String) (value : ℚ≥0) :
    Stays (setPollingInterval r styp value) s := by
  refine stays_step trivial fun b s' _ _ => ?_
  cases b with
  | none => exact stays_pure _
  | some b => exact stays_updatePoll b

/-- `delete_device` is not about buses. -/
theorem stays_deleteDevice (r : Nat) : Stays (deleteDevice r) s :=
  stays_step trivial fun _ _ _ _ => stays_push fun _ => Event.noConfusion

end Program

end AsyncOwfs
