import AsyncOwfs.DevicePoll.Running
import AsyncOwfs.Scan.Teardown

/-!
# AsyncOwfs.Plant

A service together with the pollers of its devices, and the end of a server in it.

`AsyncOwfs.Service` leaves the pollers of the devices out.  Here `_delocate` also
cancels them, and everything that leads to it is as it is there.
-/

namespace AsyncOwfs

/-- A service, with the poll tables of its devices. -/
structure Plant where
  service : Service := {}
  polls : Nat → PollTable := fun _ => {}

namespace Plant

open Hoare Transition

abbrev Method := EStateM Exc Plant

def onService (x : AsyncOwfs.Method α) : Method α :=
  zoom service (fun s p => { p with service := s }) x

def onTable (r : Nat) (x : PollTable.Method α) : Method α :=
  zoom (fun p => p.polls r) (fun t p => { p with polls := Function.update p.polls r t }) x

/-- `Device._delocate` -/
def delocateDevice (r : Nat) : Method Unit := do
  let p ← get
  match (p.service.dev r).bus with
  | none => throw .attributeError
  | some b =>
    onService (Service.delDevice b r)
    onService (Service.modifyDev r fun d => { d with bus := none })
    onTable r PollTable.dropTasks
    onService (Service.pushEvent (.deviceNotFound r))

/-- `Device.delocate` -/
def delocate (r : Nat) (b : BusRef) : Method Unit := do
  let p ← get
  if (p.service.dev r).bus = some b then
    onService (Service.modifyDev r fun d => { d with waitBus := false })
    delocateDevice r
  else return ()

/-- The first half of `Bus.delocate`. -/
def delocateBuses (below : BusRef → Method Unit) (b : BusRef) : Method Unit := do
  let p ← get
  match (p.service.bus b).buses with
  | some (q :: qs) =>
    (q :: qs).forM fun q => below (b.sub q)
    onService (Service.modifyBus b fun bus => { bus with buses := none })
  | _ => return ()

/-- The second half. -/
def delocateDevices (b : BusRef) : Method Unit := do
  let p ← get
  match (p.service.bus b).devices with
  | some ds =>
    if ds.values ≠ [] then
      ds.values.forM fun r => delocate r b
      onService (Service.modifyBus b fun bus => { bus with devices := none })
  | none => return ()

/-- `Bus.delocate`, down to `fuel` levels of sub-buses. -/
def delocateBus : Nat → BusRef → Method Unit
  | 0, _ => return ()
  | fuel + 1, b => do
    delocateBuses (delocateBus fuel) b
    delocateDevices b
    onService (Service.pushEvent (.busDeleted b))

/-- What `Server.aclose` does to the bus tree. -/
def aclose (v : Nat) : Method Unit := do
  onService (Service.pushEvent (.serverDisconnected v))
  let p ← get
  match p.service.server v with
  | none => pure ()
  | some names => names.forM fun n => delocateBus p.service.depth ⟨v, [n]⟩
  onService (modify fun s => { s with server := Function.update s.server v none })

/-! ## The service in a plant -/

/-- The tables are in order. -/
def Tidy (p : Plant) : Prop := ∀ r, (p.polls r).Tidy

/-- A device keeps its bus and its pollers, or loses both. -/
def Dropped (p p' : Plant) : Prop :=
  ∀ r, (p'.service.dev r).bus = (p.service.dev r).bus ∧ p'.polls r = p.polls r ∨
    (p.service.dev r).bus ≠ none ∧ (p'.service.dev r).bus = none ∧ (p'.polls r).tasks = []

theorem dropped_refl (p : Plant) : Dropped p p := fun _ => .inl ⟨rfl, rfl⟩

theorem dropped_trans (p q q' : Plant) (h : Dropped p q) (h' : Dropped q q') : Dropped p q' := by
  intro r
  rcases h r with ⟨hbus, hpolls⟩ | ⟨hsome, hnone, htasks⟩
  · rw [← hbus, ← hpolls]
    exact h' r
  · refine .inr ⟨hsome, ?_⟩
    rcases h' r with ⟨hbus', hpolls'⟩ | ⟨hsome', -⟩
    · rw [hbus', hpolls']
      exact ⟨hnone, htasks⟩
    · exact absurd hnone hsome'

/-- The command does what the other one does to the service. -/
abbrev Follows (x : Method PUnit) (y : AsyncOwfs.Method PUnit) (p : Plant) : Prop :=
  RefinesAt service Tidy Dropped x y p

/-- What leaves the buses of all devices alone. -/
theorem follows_onService {y : AsyncOwfs.Method PUnit} {p : Plant} (hp : p.Tidy)
    (hy : wp y (fun _ s => ∀ r, (s.dev r).bus = (p.service.dev r).bus)
      (fun _ s => ∀ r, (s.dev r).bus = (p.service.dev r).bus) p.service) :
    Follows (onService y) y p := by
  rw [Follows, RefinesAt, onService, wp_zoom]
  unfold wp at hy ⊢
  split at hy
  · next heq => exact ⟨heq, fun r => .inl ⟨hy r, rfl⟩, hp⟩
  · next heq => exact ⟨heq, fun r => .inl ⟨hy r, rfl⟩, hp⟩

/-- A bus has no pollers of its own here. -/
theorem follows_modifyBus {p : Plant} (hp : p.Tidy) (b : BusRef) (f : Bus → Bus) :
    Follows (onService (Service.modifyBus b f)) (Service.modifyBus b f) p :=
  follows_onService hp fun _ => rfl

/-- An event stops no pollers. -/
theorem follows_pushEvent {p : Plant} (hp : p.Tidy) (e : Event) :
    Follows (onService (Service.pushEvent e)) (Service.pushEvent e) p :=
  follows_onService hp fun _ => rfl

/-- A device loses its bus, and its pollers with it. -/
theorem follows_delocateDevice (r : Nat) (p : Plant) (hp : p.Tidy) :
    Follows (delocateDevice r) (Service.delocateDevice r) p := by
  rw [Follows, RefinesAt, delocateDevice, wp_bind, wp_get, Service.delocateDevice, get_bind]
  cases hbus : (p.service.dev r).bus with
  | none => exact ⟨rfl, dropped_refl p, hp⟩
  | some b =>
      dsimp only
      have hdel : wp (Service.delDevice b r) (fun _ s => s.dev = p.service.dev)
          (fun _ s => s.dev = p.service.dev) p.service := by
        simp only [Service.delDevice, wp_bind, wp_get]
        split
        · rfl
        · split <;> rfl
      have hkeep : ∀ s : Service, s.dev = p.service.dev → Dropped p { p with service := s } :=
        fun s hs x => .inl ⟨by rw [hs], rfl⟩
      rw [wp_bind, onService, wp_zoom]
      rw [wp] at hdel ⊢
      split at hdel
      · next s heq =>
        rw [bind_of_ok heq, wp_bind, onService, wp_zoom, Service.modifyDev, wp_modify, wp_bind, onTable,
          wp_zoom]
        refine wp_mono (PollTable.dropTasks_spec (hp r)) (fun _ t h => ?_) (fun _ _ h => h.elim)
        obtain ⟨ht, htasks, -⟩ := h
        refine ⟨rfl, fun x => ?_, fun x => ?_⟩
        · by_cases hx : x = r
          · subst hx
            refine .inr ⟨?_, ?_, ?_⟩
            · rw [hbus]
              exact Option.some_ne_none b
            · simp
            · simpa using htasks
          · refine .inl ⟨?_, ?_⟩
            · simp [Function.update_of_ne hx, hdel]
            · simp [Function.update_of_ne hx]
        · by_cases hx : x = r
          · subst hx
            simpa using ht
          · simpa [Function.update_of_ne hx] using hp x
      · next e s heq =>
        exact ⟨bind_of_error heq, hkeep s hdel, hp⟩

/-- **A device that is delocated** stops its pollers. -/
theorem follows_delocate (r : Nat) (b : BusRef) (p : Plant) (hp : p.Tidy) :
    Follows (delocate r b) (Service.delocate r b) p := by
  rw [Follows, RefinesAt, delocate, wp_bind, wp_get, Service.delocate, get_bind]
  split
  · refine RefinesAt.bind dropped_trans (follows_onService hp fun x => ?_)
      fun _ q _ hq => follows_delocateDevice r q hq
    by_cases hx : x = r
    · subst hx
      simp
    · simp [Function.update_of_ne hx]
  · exact ⟨rfl, dropped_refl p, hp⟩

/-- The sub-buses go first. -/
theorem follows_delocateBuses {below : BusRef → Method Unit} {below' : BusRef → AsyncOwfs.Method Unit}
    (hbelow : ∀ c p, p.Tidy → Follows (below c) (below' c) p) (b : BusRef) (p : Plant) (hp : p.Tidy) :
    Follows (delocateBuses below b) (Service.delocateBuses below' b) p := by
  rw [Follows, RefinesAt, delocateBuses, wp_bind, wp_get, Service.delocateBuses, get_bind]
  cases (p.service.bus b).buses with
  | none => exact ⟨rfl, dropped_refl p, hp⟩
  | some paths =>
      cases paths with
      | nil => exact ⟨rfl, dropped_refl p, hp⟩
      | cons q qs =>
          refine RefinesAt.bind dropped_trans ?_ fun _ p' _ hp' => follows_modifyBus hp' b _
          exact RefinesAt.forM dropped_refl dropped_trans (fun q p hp => hbelow (b.sub q) p hp) _ p hp

/-- All devices of a bus stop their pollers. -/
theorem follows_delocateDevices (b : BusRef) (p : Plant) (hp : p.Tidy) :
    Follows (delocateDevices b) (Service.delocateDevices b) p := by
  rw [Follows, RefinesAt, delocateDevices, wp_bind, wp_get, Service.delocateDevices, get_bind]
  cases (p.service.bus b).devices with
  | none => exact ⟨rfl, dropped_refl p, hp⟩
  | some ds =>
      dsimp only
      split
      · refine RefinesAt.bind dropped_trans ?_ fun _ p' _ hp' => follows_modifyBus hp' b _
        exact RefinesAt.forM dropped_refl dropped_trans (fun r p hp => follows_delocate r b p hp) _ p hp
      · exact ⟨rfl, dropped_refl p, hp⟩

/-- **The end of a bus** stops the pollers of all devices on it and below it. -/
theorem follows_delocateBus (fuel : Nat) :
    ∀ (b : BusRef) (p : Plant), p.Tidy → Follows (delocateBus fuel b) (Service.delocateBus fuel b) p := by
  induction fuel with
  | zero => exact fun b p hp => ⟨rfl, dropped_refl p, hp⟩
  | succ fuel ih =>
      intro b p hp
      rw [Follows, delocateBus, Service.delocateBus]
      refine RefinesAt.bind dropped_trans (follows_delocateBuses ih b p hp) fun _ p₁ _ hp₁ => ?_
      refine RefinesAt.bind dropped_trans (follows_delocateDevices b p₁ hp₁) fun _ p₂ _ hp₂ => ?_
      exact follows_pushEvent hp₂ _

/-- **The end of a server, in the plant and in the service.** -/
theorem follows_aclose (v : Nat) (p : Plant) (hp : p.Tidy) :
    Follows (aclose v) (Service.aclose v) p := by
  rw [Follows, aclose, Service.aclose]
  refine RefinesAt.bind dropped_trans (follows_pushEvent hp _) fun _ p₁ _ hp₁ => ?_
  rw [RefinesAt, wp_bind, wp_get, get_bind]
  cases p₁.service.server v with
  | none => exact follows_onService hp₁ fun _ => rfl
  | some names =>
      refine RefinesAt.bind dropped_trans ?_ fun _ p₂ _ hp₂ => follows_onService hp₂ fun _ => rfl
      exact RefinesAt.forM dropped_refl dropped_trans
        (fun n p hp => follows_delocateBus p₁.service.depth ⟨v, [n]⟩ p hp) names p₁ hp₁

/-- The states that complete scans lead to.  The pollers of a device are the outcome
of any calls on it. -/
structure Reached (p : Plant) : Prop where
  scans : ∃ roots : List (Nat × List (String × Listing)),
    (∀ x ∈ roots, ∀ e ∈ x.2, ∀ d ∈ e.2.ids, upper d = d) ∧
    run Service.step Service.init (roots.map fun x => .scan x.1 x.2) = some p.service
  polls : ∀ r, ∃ A as d, run (DevicePoll.step A) DevicePoll.init as = some d ∧ d.table = p.polls r

/-- The service is one that scans lead to. -/
theorem Reached.scanned {p : Plant} (hp : p.Reached) : p.service.Scanned := by
  obtain ⟨roots, hroots, hrun⟩ := hp.scans
  exact Service.scanned_run hroots Service.scanned_init hrun

/-- The tables of a plant that can be reached are in order. -/
theorem Reached.tidy {p : Plant} (hp : p.Reached) : p.Tidy := by
  intro r
  obtain ⟨A, as, d, hrun, htable⟩ := hp.polls r
  exact htable ▸ DevicePoll.tidy_run hrun

/-- What `aclose` of `v` does to the devices and buses, with the events that it
pushes behind its first one. -/
structure TornDown (v : Nat) (p p' : Plant) (es : List Event) : Prop where
  /-- A device in the tree loses its bus and its pollers, and says so once. -/
  located : ∀ r, ∀ b ∈ p.service.allBuses v, (p.service.dev r).bus = some b →
    (p'.service.dev r).bus = none ∧ (p'.polls r).tasks = [] ∧ es.count (.deviceNotFound r) = 1
  /-- Nothing happens to the others, those of other servers among them. -/
  other : ∀ r, (∀ b ∈ p.service.allBuses v, (p.service.dev r).bus ≠ some b) →
    p'.service.dev r = p.service.dev r ∧ p'.polls r = p.polls r ∧ es.count (.deviceNotFound r) = 0
  server : ∀ b ∈ p.service.allBuses v, b.server = v
  buses : ∀ b ∈ p.service.allBuses v, es.count (.busDeleted b) = 1
  /-- The sub-buses first. -/
  subBuses : ∀ b ∈ p.service.allBuses v, ∀ l ≠ [], b.sub l ∈ p.service.allBuses v →
    [Event.busDeleted (b.sub l), .busDeleted b].Sublist es
  /-- The devices of a bus before the bus. -/
  devices : ∀ b ∈ p.service.allBuses v, ∀ r, (p.service.dev r).bus = some b →
    [Event.deviceNotFound r, .busDeleted b].Sublist es

/-- A server that has been closed has no buses. -/
theorem again {v : Nat} {p : Plant} (hv : p.service.server v = none) :
    ∃ p', aclose v p = .ok () p' ∧
      p'.service.events = p.service.events ++ [.serverDisconnected v] := by
  have h : wp (aclose v)
      (fun _ p' => p'.service.events = p.service.events ++ [.serverDisconnected v])
      (fun _ _ => False) p := by
    simp only [aclose, onService, Service.pushEvent, wp_bind, wp_zoom, wp_modify, wp_get, hv]
  obtain ⟨u, p', heq, hevents⟩ := exists_ok_of_wp h
  exact ⟨p', heq, hevents⟩

/-- **The end of a server**: its tree is taken down from below, every device and
every bus of it once, and a second `aclose` finds nothing left. -/
theorem aclose_tornDown {p : Plant} (hp : p.Reached) (v : Nat) :
    ∃ p' es, aclose v p = .ok () p' ∧
      p'.service.events = p.service.events ++ .serverDisconnected v :: es ∧ TornDown v p p' es ∧
      ∃ p'', aclose v p' = .ok () p'' ∧
        p''.service.events = p'.service.events ++ [.serverDisconnected v] := by
  have hs := hp.scanned
  have hnodup := Service.nodup_allBuses hs.toForked v
  have hspec := Service.aclose_spec hs v hnodup
  obtain ⟨u, s, heq, hgone, hkept, hserver, hevents⟩ := exists_ok_of_wp hspec
  obtain ⟨p', hclose, rfl, hdropped, -⟩ := (follows_aclose v p hp.tidy).of_ok heq
  refine ⟨p', p.service.endOfBuses v, hclose, hevents, ⟨?_, ?_, ?_, ?_, ?_, ?_⟩, ?_⟩
  · intro r b hb hr
    have hnone : (p'.service.dev r).bus = none := by
      rw [hgone r ⟨b, hb, hr⟩]
      rfl
    refine ⟨hnone, ?_, ?_⟩
    · rcases hdropped r with ⟨hbus, -⟩ | ⟨-, -, htasks⟩
      · rw [hnone, hr] at hbus
        contradiction
      · exact htasks
    · rw [Service.count_endOfBuses_device hs.toStocked, hr, Option.elim_some, hnodup.count, if_pos hb]
  · intro r hr
    refine ⟨hkept r hr, ?_, ?_⟩
    · rcases hdropped r with ⟨-, hpolls⟩ | ⟨hsome, hnone, -⟩
      · exact hpolls
      · rw [hkept r hr] at hnone
        contradiction
    · rw [Service.count_endOfBuses_device hs.toStocked]
      cases hbus : (p.service.dev r).bus with
      | none => rfl
      | some c => exact List.count_eq_zero.mpr fun hc => hr c hc hbus
  · exact fun b hb => Service.server_of_mem_allBuses hb
  · intro b hb
    rw [Service.count_endOfBuses, hnodup.count, if_pos hb]
  · exact fun b hb l hl hc => Service.sub_before_all hs.toForked hl hb hc
  · exact fun b hb r hr => Service.located_before_all hs.toStocked hr hb
  · have hclosed : p'.service.server v = none := by
      rw [hserver, Function.update_self]
    exact again hclosed

/-- A coupler with a voltmeter behind it, and a thermometer that moves to the bus of a
second server. -/
def roots : List (Nat × List (String × Listing)) :=
  let voltmeter := Listing.cons "20.67C6697351FF.8D" .nil .nil .nil
  let thermometer := Listing.cons "10.F0E0D0000000.00" .nil .nil .nil
  [(0, [("bus.0", .cons "1F.12AB34000000.00" voltmeter .nil thermometer)]),
    (1, [("bus.0", thermometer)])]

def scanned : Option Service := run Service.step Service.init (roots.map fun x => .scan x.1 x.2)

/-- The voltmeter, read once a second. -/
def metered : Option DevicePoll :=
  run (DevicePoll.step DevicePoll.voltmeter) DevicePoll.init
    [.locate ⟨0, ["bus.0", "1F.12AB34000000.00", "main"]⟩, .setPollingInterval (.str "volt_all") 1]

/-- The plant behind the two scans; the voltmeter is the second device. -/
def plant : Plant where
  service := scanned.getD {}
  polls r := if r = 1 then (metered.getD {}).table else {}

/-- The plant can be reached. -/
theorem reached_plant : plant.Reached := by
  constructor
  · refine ⟨roots, by decide +kernel, ?_⟩
    obtain ⟨s, hs⟩ := Option.isSome_iff_exists.mp (by decide +kernel : scanned.isSome = true)
    rw [plant, hs]
    exact hs
  · intro r
    obtain ⟨d, hd⟩ := Option.isSome_iff_exists.mp (by decide +kernel : metered.isSome = true)
    by_cases hr : r = 1
    · refine ⟨DevicePoll.voltmeter, _, d, hd, ?_⟩
      simp only [plant, if_pos hr, hd, Option.getD_some]
    · refine ⟨DevicePoll.voltmeter, [], DevicePoll.init, rfl, ?_⟩
      simp only [plant, if_neg hr, DevicePoll.init]

/-- The voltmeter and its three buses go, from below; the thermometer is elsewhere. -/
theorem tornDown_plant :
    plant.service.events.length = 11 ∧
    ((plant.polls 1).tasks.map (·.path)) = ["volt_all"] ∧
    ∃ p' es, aclose 0 plant = .ok () p' ∧
      p'.service.events = plant.service.events ++ .serverDisconnected 0 :: es ∧
      TornDown 0 plant p' es ∧
      ∃ p'', aclose 0 p' = .ok () p'' ∧
        p''.service.events = p'.service.events ++ [.serverDisconnected 0] :=
  ⟨by decide +kernel, by decide +kernel, aclose_tornDown reached_plant 0⟩

end Plant

end AsyncOwfs
