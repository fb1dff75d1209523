import AsyncOwfs.Scan.Picture

/-!
# AsyncOwfs.Scan.Replay

Whole operations, and what has been told behind them: a scan reports whatever it does, also
where it raises, and so does a poll of alarms.  `aclose` does not raise, whatever the
devices are listed as (`aclose_rooted`), so that its tree is reported to be gone as a whole.
-/

namespace AsyncOwfs

open Hoare Transition

namespace Service

variable {s s' : Service}

/-! ## Scans -/

/-- What is done about a bus of the tree is reported. -/
def Scans (b : BusRef) (x : Method α) : Prop :=
  ∀ s : Service, s.Rooted → s.Reported → Known s b.server b →
    wp x (fun _ => Reports s) (fun _ => Reports s) s

/-- A bus is scanned around its loop. -/
theorem scans_scanWith {b : BusRef} {entries : List String → Method (List String × List PathKey)}
    (he : ∀ old, Scans b (entries old)) : Scans b (scanWith b entries) := by
  intro s hs hr hb
  rw [scanWith, wp_bind, wp_get]
  split
  · exact .refl hs hr
  · next ds _ =>
    refine reports_seq (he ds.keys s hs hr hb) fun x s₁ h₁ => ?_
    refine reports_seq (reports_forM (fun d _ => reports_miss b d) x.1 h₁.rooted h₁.reported) fun _ s₂ h₂ => ?_
    exact .refl h₂.rooted h₂.reported

/-- A sub-bus is scanned if it is not gone. -/
theorem scans_visit {b : BusRef} (id port : String)
    {entries : BusRef → List String → Method (List String × List PathKey)}
    (he : ∀ c old, Scans c (entries c old)) : Scans b (visit b [id, port] entries) := by
  intro s hs hr hb
  refine reports_bind (reports_getBus (List.cons_ne_nil _ _) hs hr hb) fun c s₁ h₁ hc => ?_
  cases c with
  | none => exact .refl h₁.rooted h₁.reported
  | some c =>
      refine reports_seq (scans_scanWith (he c) s₁ h₁.rooted h₁.reported (hc c rfl)) fun _ s₂ h₂ => ?_
      exact .refl h₂.rooted h₂.reported

/-- Both branches of a coupler are scanned. -/
theorem scans_visitAll {b : BusRef} (r : Nat)
    {main aux : BusRef → List String → Method (List String × List PathKey)}
    (hm : ∀ c old, Scans c (main c old)) (ha : ∀ c old, Scans c (aux c old)) :
    Scans b (visitAll b r main aux) := by
  intro s hs hr hb
  rw [visitAll, wp_bind, wp_get]
  split
  · refine reports_seq (scans_visit _ "main" hm s hs hr hb) fun _ s₁ h₁ => ?_
    refine reports_seq (scans_visit _ "aux" ha s₁ h₁.rooted h₁.reported (h₁.known _ b hb)) fun _ s₂ h₂ => ?_
    exact .refl h₂.rooted h₂.reported
  · exact .refl hs hr

/-- The induction is on what the server says is there; the trees only grow meanwhile. -/
theorem scans_scanEntries (listing : Listing) (b : BusRef) (old : List String) :
    Scans b (scanEntries listing b old) := by
  induction listing generalizing b old with
  | nil => exact fun s hs hr _ => .refl hs hr
  | cons d main aux rest ihm iha ihr =>
      intro s hs hr hb
      rw [scanEntries]
      split
      · exact ihr b old s hs hr hb
      · refine reports_seq (reports_found d old hs hr hb) fun x s₁ h₁ => ?_
        have hb₁ := h₁.known _ b hb
        refine reports_seq (scans_visitAll x.1 ihm iha s₁ h₁.rooted h₁.reported hb₁) fun below s₂ h₂ => ?_
        have hb₂ := h₂.known _ b hb₁
        refine reports_seq (ihr b x.2 s₂ h₂.rooted h₂.reported hb₂) fun _ s₃ h₃ => ?_
        exact .refl h₃.rooted h₃.reported

/-- There are no old paths to begin with, so that no bus is looked for among them. -/
theorem reports_enumerate (v : Nat) (root : List (String × Listing)) (hs : s.Rooted) (hr : s.Reported) :
    wp (enumerate v root []) (fun oldPaths s' => Reports s s' ∧ oldPaths = [])
      (fun _ => Reports s) s := by
  induction root generalizing s with
  | nil => exact ⟨.refl hs hr, rfl⟩
  | cons e root ih =>
      obtain ⟨d, listing⟩ := e
      rw [enumerate]
      split
      · rw [wp_bind]
        refine wp_mono (reports_serverGetBus v d hs hr) (fun b s₁ h₁ => ?_) (fun _ _ h => h)
        obtain ⟨h₁, hb⟩ := h₁
        rw [wp_bind]
        have hseen := reports_seen b h₁.rooted h₁.reported
        refine wp_mono hseen (fun _ s₂ h₂ => ?_) (fun _ _ h => h₁.trans h)
        rw [wp_bind]
        have hscan := scans_scanWith (scans_scanEntries listing b) s₂ h₂.rooted h₂.reported
          (h₂.known _ b hb)
        refine wp_mono hscan (fun _ s₃ h₃ => ?_) (fun _ _ h => (h₁.trans h₂).trans h)
        have hall := (h₁.trans h₂).trans h₃
        exact wp_mono (ih h₃.rooted h₃.reported) (fun _ _ h => ⟨hall.trans h.1, h.2⟩)
          (fun _ _ h => hall.trans h)
      · exact ih hs hr

/-- **A scan** tells what it does. -/
theorem reports_scanBase (v : Nat) (root : List (String × Listing)) (hs : s.Rooted) (hr : s.Reported) :
    wp (scanBase v root) (fun _ => Reports s) (fun _ => Reports s) s := by
  refine reports_bind (reports_enumerate v root hs hr) fun oldPaths s₁ h₁ hold => ?_
  subst hold
  exact .refl h₁.rooted h₁.reported

/-! ## Alarms -/

/-- A device in the alarm directory is told of when it is made and when it is located. -/
theorem reports_noticed {b : BusRef} (d : String) (hs : s.Rooted) (hr : s.Reported)
    (hb : Known s b.server b) :
    wp (noticed b d) (fun r s' => Reports s s' ∧ r < s'.nextDev) (fun _ => Reports s) s := by
  rw [noticed, wp_bind]
  refine wp_mono (reports_getDevice d hs hr) (fun r s₁ h₁ => ?_) (fun _ _ h => h)
  obtain ⟨h₁, hlt⟩ := h₁
  rw [wp_bind, wp_modify]
  generalize (s₁.uncounted || decide ((s₁.dev r).unseen ≠ 0)) = u
  have hnoted : Reports s { s₁ with uncounted := u } :=
    h₁.trans ⟨h₁.rooted.grows_of_same ⟨h₁.rooted.listed, fun _ _ => rfl, le_rfl, h₁.rooted.registered,
      fun _ h => h⟩ rfl (fun _ => rfl) rfl,
      h₁.reported.of_quiet rfl (fun _ => rfl) rfl rfl rfl (fun _ => rfl) fun _ => rfl⟩
  rw [wp_bind]
  have hadd := reports_addDevice hnoted.rooted hnoted.reported (hnoted.known _ b hb) (r := r) hlt
  exact wp_mono hadd (fun _ s₂ h₂ => ⟨hnoted.trans h₂, hlt.trans_le h₂.nextDev⟩)
    (fun _ _ h₂ => hnoted.trans h₂)

/-- **An alarm poll** tells what it does, also when a device raises. -/
theorem reports_pollAlarm {b : BusRef} (entries : List (String × Except Exc Unit)) (hs : s.Rooted)
    (hr : s.Reported) (hb : Known s b.server b) :
    wp (pollAlarm b entries) (fun _ => Reports s) (fun _ => Reports s) s := by
  induction entries generalizing s with
  | nil => exact .refl hs hr
  | cons e entries ih =>
      obtain ⟨d, answer⟩ := e
      refine reports_bind (reports_noticed d hs hr hb) fun r s₁ h₁ hlt => ?_
      rw [wp_bind, wp_get]
      have hpoll := devPollAlarm_spec (s₁.dev r).family answer s₁
      have hrefl := Reports.refl h₁.rooted h₁.reported
      refine reports_seq (wp_mono hpoll (fun _ _ h => h ▸ hrefl) fun _ _ h => h ▸ hrefl) fun _ s₂ h₂ => ?_
      have hpush : wp (pushEvent (.deviceAlarm r)) (fun _ => Reports s₂) (fun _ => Reports s₂) s₂ := by
        refine ⟨grows_pushEvent (e := .deviceAlarm r) (fun _ => by simp) s₂ h₂.rooted, ?_⟩
        have hd : DevicesReported { s₂ with events := s₂.events ++ [.deviceAlarm r] } :=
          h₂.reported.of_events [.deviceAlarm r] rfl le_rfl (fun _ _ => rfl)
            (by simpa [Event.device] using hlt.trans_le h₂.nextDev) h₂.reported.fresh
            h₂.reported.registered h₂.reported.located
        exact h₂.reported.of_devices hd rfl (fun _ _ => rfl) rfl (fun _ => rfl) rfl
      refine reports_seq hpush fun _ s₃ h₃ => ?_
      exact ih h₃.rooted h₃.reported (h₃.known _ b (h₂.known _ b (h₁.known _ b hb)))

/-! ## The end of a server -/

/-- Buses go, and none comes. -/
structure Wanes (s t : Service) : Prop where
  id : ∀ r, (t.dev r).id = (s.dev r).id
  server : t.server = s.server
  buses : ∀ b paths, (t.bus b).buses = some paths → (s.bus b).buses = some paths
  events : ∃ es, t.events = s.events ++ es ∧ ∀ b, .busAdded b ∉ es
  devices : s.DevicesReported → t.DevicesReported

theorem Wanes.refl (s : Service) : Wanes s s :=
  ⟨fun _ => rfl, rfl, fun _ _ h => h, ⟨[], by simp, by simp⟩, fun h => h⟩

theorem Wanes.trans {t u : Service} (h : Wanes s t) (h' : Wanes t u) : Wanes s u := by
  obtain ⟨es, hes, hnone⟩ := h.events
  obtain ⟨es', hes', hnone'⟩ := h'.events
  refine ⟨fun r => (h'.id r).trans (h.id r), h'.server.trans h.server,
    fun b paths hb => h.buses b paths (h'.buses b paths hb), ⟨es ++ es', ?_, fun b => ?_⟩,
    fun hr => h'.devices (h.devices hr)⟩
  · rw [hes', hes, List.append_assoc]
  · rw [List.mem_append, not_or]
    exact ⟨hnone b, hnone' b⟩

/-- A device that is delocated is told of. -/
theorem Delocates.wanes {r : Nat} {b : BusRef} (h : Delocates r b s s') : Wanes s s' := by
  obtain ⟨es, hes, hall⟩ := h.exists_events
  refine ⟨h.id_eq, h.server_eq, fun c paths hc => (h.buses_eq c).symm.trans hc,
    ⟨es, hes, fun c hc => ?_⟩, h.devicesReported⟩
  have hne := hall _ hc
  contradiction

/-- `delocate` can only take away. -/
theorem wanes_delocate (r : Nat) (b : BusRef) : Relates Wanes (delocate r b) :=
  fun s => wp_mono (delocates_delocate r b s) (fun _ _ h => h.wanes) (fun _ _ h => h.wanes)

/-- A bus may lose its sub-buses. -/
theorem wanes_modifyBus (b : BusRef) {f : Bus → Bus}
    (hf : ∀ bus, (f bus).buses = bus.buses ∨ (f bus).buses = none) : Relates Wanes (modifyBus b f) := by
  intro s
  refine ⟨fun _ => rfl, rfl, fun c paths hc => ?_, ⟨[], by simp, by simp⟩, fun hr =>
    hr.of_quiet (List.append_nil _).symm (by simp) rfl rfl (fun _ => rfl) fun _ => rfl⟩
  by_cases hcb : c = b
  · subst hcb
    simp only [Function.update_self] at hc
    rcases hf (s.bus c) with h | h
    · rw [← h, hc]
    · rw [h] at hc
      contradiction
  · simpa [hcb] using hc

/-- An event that is about no device and no new bus. -/
theorem wanes_pushEvent {e : Event} (he : e.device = none) (hnew : ∀ b, e ≠ .busAdded b) :
    Relates Wanes (pushEvent e) := by
  intro s
  refine ⟨fun _ => rfl, rfl, fun _ _ h => h, ⟨[e], rfl, fun b hb => ?_⟩, fun hr =>
    hr.of_quiet rfl (by simpa using he) rfl rfl (fun _ => rfl) fun _ => rfl⟩
  exact hnew b (List.mem_singleton.mp hb).symm

/-- **The end of a bus** can only take away. -/
theorem wanes_delocateBus (fuel : Nat) (b : BusRef) : Relates Wanes (delocateBus fuel b) := by
  have htrans : ∀ s t u, Wanes s t → Wanes t u → Wanes s u := fun _ _ _ => Wanes.trans
  induction fuel generalizing b with
  | zero => exact fun s => .refl s
  | succ fuel ih =>
      have hbuses : Relates Wanes (delocateBuses (delocateBus fuel) b) := by
        refine relates_get fun s => ?_
        split
        · next p ps _ =>
          exact (Relates.forM .refl htrans (fun p => ih (b.sub p)) (p :: ps)).bind htrans fun _ =>
            wanes_modifyBus b fun _ => .inr rfl
        · exact relates_pure .refl _
      have hdevices : Relates Wanes (delocateDevices b) := by
        refine relates_get fun s => ?_
        split
        · split
          · exact (Relates.forM .refl htrans (fun r => wanes_delocate r b) _).bind htrans fun _ =>
              wanes_modifyBus b fun _ => .inl rfl
          · exact relates_pure .refl _
        · exact relates_pure .refl _
      exact hbuses.bind htrans fun _ => hdevices.bind htrans fun _ =>
        wanes_pushEvent rfl fun _ => by simp

/-- What has been deleted is no longer in the picture. -/
theorem mem_buses_foldl {es : List Event} (hes : ∀ b, .busAdded b ∉ es) (id : Nat → String) (p : Picture)
    (b : BusRef) :
    b ∈ (es.foldl (Picture.see id) p).buses ↔ b ∈ p.buses ∧ .busDeleted b ∉ es := by
  induction es generalizing p with
  | nil => simp
  | cons e es ih =>
      have hrest : ∀ c, .busAdded c ∉ es := fun c hc => hes c (List.mem_cons_of_mem e hc)
      rw [List.foldl_cons, ih hrest]
      cases e with
      | busAdded c => exact absurd List.mem_cons_self (hes c)
      | busDeleted c =>
          simp only [Picture.see, Finset.mem_erase, List.mem_cons, Event.busDeleted.injEq, not_or]
          grind
      | _ => simp [Picture.see]

/-- **The end of a server** is reported: its tree is gone, and the others are there. -/
theorem reported_aclose (v : Nat) (hs : s.Rooted) (hr : s.Reported) :
    wp (aclose v) (fun _ t => t.Rooted ∧ t.Reported) (fun _ _ => False) s := by
  have htrans : ∀ s t u, Wanes s t → Wanes t u → Wanes s u := fun _ _ _ => Wanes.trans
  have hwanes : wp (aclose v)
      (fun _ t => ∃ t', Wanes s t' ∧ t = { t' with server := Function.update t'.server v none })
      (fun _ _ => True) s := by
    have hpush := wanes_pushEvent (e := .serverDisconnected v) rfl (fun _ => by simp) s
    have hloop : ∀ names : List String, Relates Wanes (names.forM fun n =>
        delocateBus s.depth ⟨v, [n]⟩) := fun names =>
      Relates.forM .refl htrans (fun n => wanes_delocateBus s.depth ⟨v, [n]⟩) names
    simp only [aclose, wp_bind, pushEvent, wp_modify, wp_get] at hpush ⊢
    split
    · exact ⟨_, hpush, rfl⟩
    · next names _ =>
      rw [wp_bind]
      refine wp_mono (hloop names _) (fun _ t h => ?_) (fun _ _ _ => trivial)
      exact ⟨t, hpush.trans h, rfl⟩
  refine wp_mono (wp_and (aclose_rooted hs v) hwanes) (fun _ t h => ?_) (fun _ _ h => h.1)
  obtain ⟨⟨hrooted, hdeleted, honly, -, hkeeps⟩, t', hw, rfl⟩ := h
  refine ⟨hrooted, ?_⟩
  obtain ⟨es, hes, hnone⟩ := hw.events
  -- a bus of an open server has not been deleted before
  have hfirst : ∀ b, .busDeleted b ∈ t'.events → s.server b.server ≠ none → .busDeleted b ∈ es := by
    intro b hb hopen
    rw [hes] at hb
    exact (List.mem_append.mp hb).resolve_left fun h => hopen (hs.closed b h)
  have hserver : ∀ w, w ≠ v → Function.update t'.server v none w = s.server w := by
    intro w hw'
    rw [Function.update_of_ne hw', hw.server]
  have hknown : ∀ b, Known { t' with server := Function.update t'.server v none } b.server b ↔
      Known s b.server b ∧ b.server ≠ v := by
    intro b
    constructor
    · intro h
      have hopen := h.open
      have hne : b.server ≠ v := by
        intro heq
        simp [heq] at hopen
      refine ⟨h.mono (fun names n hv hn => ⟨names, ?_, hn⟩) fun c paths p hpaths hp =>
        ⟨paths, hw.buses c paths hpaths, hp⟩, hne⟩
      exact (hserver _ hne).symm.trans hv
    · exact fun h => hkeeps _ b h.2 h.1
  have hpicture : picture { t' with server := Function.update t'.server v none } =
      es.foldl (Picture.see fun r => (t'.dev r).id) s.picture :=
    hr.picture_eq hes fun r _ => hw.id r
  refine ⟨(hw.devices hr.toDevicesReported).of_quiet (List.append_nil _).symm (by simp) rfl rfl
    (fun _ => rfl) fun _ => rfl, fun b => ?_, fun b paths p hopen hpaths hp => ?_⟩
  · rw [hpicture, mem_buses_foldl hnone, hr.buses, hknown]
    refine and_congr_right fun hb => ⟨fun hkept hv => ?_, fun hv hgone => ?_⟩
    · exact hkept (hfirst b (hdeleted b (hv ▸ hb)) hb.open)
    · have hbefore := honly b (hes ▸ List.mem_append_right _ hgone)
      rcases hbefore with hbefore | hv'
      · exact hb.open (hs.closed b hbefore)
      · exact hv hv'
  · have hne : b.server ≠ v := by
      intro heq
      simp [heq] at hopen
    refine (hknown b).mpr ⟨hr.kin b paths p ?_ (hw.buses b paths hpaths) hp, hne⟩
    exact (hserver _ hne) ▸ hopen

/-! ## Runs -/

/-- **One step** tells all that it does. -/
theorem reported_step {a : Action} (hs : s.Rooted) (hr : s.Reported) (h : s.step a = some s') :
    s'.Rooted ∧ s'.Reported := by
  have hafter {α : Type} {x : Method α} (hx : wp x (fun _ => Reports s) (fun _ => Reports s) s) :
      (after x s).Rooted ∧ (after x s).Reported :=
    wp_after (D := fun s => s.Rooted ∧ s.Reported) (wp_mono hx (fun _ _ h => ⟨h.rooted, h.reported⟩)
      fun _ _ h => ⟨h.rooted, h.reported⟩)
  cases a with
  | getDevice id =>
      rw [step, Option.some.injEq] at h
      exact h ▸ hafter (wp_mono (reports_getDevice id hs hr) (fun _ _ h => h.1) fun _ _ h => h)
  | deleteDevice r =>
      rw [step, Option.ite_none_right_eq_some, Option.some.injEq] at h
      exact h.2 ▸ hafter (reports_deleteDevice hs hr h.1)
  | scan v root =>
      have hscan := wp_of_ok (reports_scanBase v root hs hr) (scanBase_of_step h)
      exact ⟨hscan.rooted, hscan.reported⟩
  | pollAlarm b entries =>
      rw [step, Option.ite_none_right_eq_some, Option.some.injEq] at h
      have hb := (mem_allBuses_iff hs.deep b.server b).mp h.1
      exact h.2 ▸ hafter (reports_pollAlarm entries hs hr hb)
  | aclose v =>
      rw [step, Option.some.injEq] at h
      exact h ▸ wp_after (D := fun s => s.Rooted ∧ s.Reported)
        (wp_mono_ok (reported_aclose v hs hr) fun _ _ h => h)

/-- **The events say everything**: between two operations, whoever has seen them all has
the ids that are registered, the devices that are located and the buses that there are. -/
theorem picture_of_run {as : List Action} (h : run step init as = some s) :
    (∀ id, id ∈ s.picture.registered ↔ s.devices.get? id ≠ none) ∧
      (∀ r, r ∈ s.picture.located ↔ (s.dev r).bus ≠ none) ∧
      ∀ b, b ∈ s.picture.buses ↔ b ∈ s.allBuses b.server := by
  have hs := invariant_run (I := fun s => s.Rooted ∧ s.Reported)
    (fun _ _ _ hs h => reported_step hs.1 hs.2 h) ⟨rooted_init, reported_init⟩ h
  refine ⟨hs.2.registered, hs.2.located, fun b => ?_⟩
  rw [hs.2.buses, mem_allBuses_iff hs.1.deep]

/-- A thermometer behind a coupler; the server is closed, and the thermometer dropped. -/
def dropped : List Action :=
  [.scan 0 [("bus.0", .cons "1F.345678.00" (.cons "10.345678.90" .nil .nil .nil) .nil .nil)],
    .aclose 0, .deleteDevice 1]

/-- A coupler that has been registered is in the picture. -/
theorem picture_of_run_dropped :
    ∃ s, run step init dropped = some s ∧ s.devices.get? "1F.345678.00" = some 0 ∧
      "1F.345678.00" ∈ s.picture.registered := by
  have hget : (run step init dropped).map (fun s => s.devices.get? "1F.345678.00") = some (some 0) := by
    decide +kernel
  obtain ⟨s, hs, heq⟩ := Option.map_eq_some_iff.mp hget
  refine ⟨s, hs, heq, ((picture_of_run hs).1 _).mpr ?_⟩
  rw [heq]
  exact Option.some_ne_none 0

end Service

end AsyncOwfs
