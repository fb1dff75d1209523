import AsyncOwfs.Scan.Semantics

/-!
# AsyncOwfs.Scan.Vanished

The tree of buses of a server, and what becomes of a bus that scans no longer
find.

`_scan_base` has a second step for the buses that its first step has not found,
with a threshold like that of the devices.  But the set of old paths, which the
first step takes paths from, starts empty, and so the second step has nothing to
do: a scan makes buses, and never frees one.
-/

namespace AsyncOwfs

namespace Service

open Hoare Transition

/-! ## The tree of buses -/

/-- The buses of a server: those that it knows by name, and those below them. -/
inductive Known (s : Service) (v : Nat) : BusRef → Prop
  | top {names : List String} {n : String} (hv : s.server v = some names) (hn : n ∈ names) :
      Known s v ⟨v, [n]⟩
  | sub {b : BusRef} {paths : List (List String)} {p : List String} (hb : Known s v b)
      (hpaths : (s.bus b).buses = some paths) (hp : p ∈ paths) : Known s v (b.sub p)

/-- `depth` bounds the lengths of the buses' paths. -/
structure Deep (s : Service) : Prop where
  top : ∀ v names, s.server v = some names → names ≠ [] → 0 < s.depth
  sub : ∀ b paths p, (s.bus b).buses = some paths → p ∈ paths →
    p ≠ [] ∧ (b.sub p).path.length ≤ s.depth

/-- What is below a bus in the tree is in the tree. -/
theorem known_of_mem_below {s : Service} {v : Nat} (fuel : Nat) :
    ∀ b c, Known s v b → c ∈ s.allBusesBelow fuel b → Known s v c := by
  induction fuel with
  | zero => exact fun b c _ hc => absurd hc List.not_mem_nil
  | succ fuel ih =>
      intro b c hb hc
      rw [allBusesBelow] at hc
      rcases List.mem_cons.mp hc with rfl | hc
      · exact hb
      · obtain ⟨p, hp, hc⟩ := List.mem_flatMap.mp hc
        cases hpaths : (s.bus b).buses with
        | none => simp [hpaths] at hp
        | some paths =>
            rw [hpaths, Option.getD_some] at hp
            exact ih (b.sub p) c (.sub hb hpaths hp) hc

/-- A greater depth reaches as much. -/
theorem below_mono {s : Service} {fuel fuel' : Nat} (h : fuel ≤ fuel') :
    ∀ b, s.allBusesBelow fuel b ⊆ s.allBusesBelow fuel' b := by
  induction fuel generalizing fuel' with
  | zero => exact fun b c hc => absurd hc List.not_mem_nil
  | succ fuel ih =>
      obtain _ | fuel' := fuel'
      · omega
      · intro b c hc
        rw [allBusesBelow] at hc ⊢
        rcases List.mem_cons.mp hc with rfl | hc
        · exact List.mem_cons_self
        · obtain ⟨p, hp, hc⟩ := List.mem_flatMap.mp hc
          refine List.mem_cons_of_mem b (List.mem_flatMap.mpr ⟨p, hp, ?_⟩)
          exact ih (by omega) (b.sub p) hc

/-- One level further down. -/
theorem sub_mem_below {s : Service} {fuel : Nat} {c : BusRef} {paths : List (List String)}
    {p : List String} (hpaths : (s.bus c).buses = some paths) (hp : p ∈ paths) :
    ∀ b, c ∈ s.allBusesBelow fuel b → c.sub p ∈ s.allBusesBelow (fuel + 1) b := by
  induction fuel with
  | zero => exact fun b hc => absurd hc List.not_mem_nil
  | succ fuel ih =>
      intro b hc
      rw [allBusesBelow] at hc ⊢
      refine List.mem_cons_of_mem b ?_
      rcases List.mem_cons.mp hc with rfl | hc
      · rw [hpaths, Option.getD_some]
        refine List.mem_flatMap.mpr ⟨p, hp, ?_⟩
        rw [allBusesBelow]
        exact List.mem_cons_self
      · obtain ⟨q, hq, hc⟩ := List.mem_flatMap.mp hc
        exact List.mem_flatMap.mpr ⟨q, hq, ih (b.sub q) hc⟩

/-- **`all_buses` lists the tree**: the bound on its levels leaves out nothing. -/
theorem mem_allBuses_iff {s : Service} (hs : s.Deep) (v : Nat) (b : BusRef) :
    b ∈ s.allBuses v ↔ Known s v b := by
  rw [allBuses]
  constructor
  · intro h
    obtain ⟨n, hn, hb⟩ := List.mem_flatMap.mp h
    cases hv : s.server v with
    | none => simp [hv] at hn
    | some names =>
        rw [hv, Option.getD_some] at hn
        exact known_of_mem_below s.depth ⟨v, [n]⟩ b (.top hv hn) hb
  · intro h
    -- a bus is as many levels down as its path is long, at most
    have hlevel : ∃ names n, s.server v = some names ∧ n ∈ names ∧
        b.path.length ≤ s.depth ∧ b ∈ s.allBusesBelow b.path.length ⟨v, [n]⟩ := by
      induction h with
      | top hv hn =>
          refine ⟨_, _, hv, hn, hs.top v _ hv (List.ne_nil_of_mem hn), ?_⟩
          exact List.mem_cons_self
      | sub _ hpaths hp ih =>
          obtain ⟨names, n, hv, hn, -, hmem⟩ := ih
          obtain ⟨hne, hle⟩ := hs.sub _ _ _ hpaths hp
          refine ⟨names, n, hv, hn, hle, ?_⟩
          have hlen := List.length_pos_iff.mpr hne
          refine below_mono ?_ _ (sub_mem_below hpaths hp _ hmem)
          rw [BusRef.sub, List.length_append]
          omega
    obtain ⟨names, n, hv, hn, hle, hmem⟩ := hlevel
    rw [hv, Option.getD_some]
    exact List.mem_flatMap.mpr ⟨n, hn, below_mono hle _ hmem⟩

/-! ## Where buses are made and dropped -/

/-- Devices do not matter to the depth of the tree. -/
theorem stable_deep : Stable Deep := by
  intro s s' h hs
  constructor
  · intro v names hv hne
    rw [h.depth]
    exact hs.top v names (h.server ▸ hv) hne
  · intro b paths p hpaths hp
    rw [h.depth]
    exact hs.sub b paths p ((h.buses b).symm.trans hpaths) hp

/-- A sub-bus that is made is one deeper. -/
theorem deep_getBus (b : BusRef) {path : List String} (hpath : path ≠ []) :
    Keeps Deep (getBus b path) := by
  intro s hs
  simp only [getBus, wp_bind, wp_get]
  split
  · exact hs
  · next paths hpaths =>
    split
    · exact hs
    · simp only [wp_bind, wp_set, pushEvent, wp_modify, wp_pure]
      constructor
      · intro v names hv hne
        exact Nat.lt_of_lt_of_le (hs.top v names hv hne) (Nat.le_max_left _ _)
      · intro c paths' p hpaths' hp
        by_cases hc : c = b
        · subst hc
          simp only [Function.update_self, Option.some.injEq] at hpaths'
          subst hpaths'
          rcases List.mem_append.mp hp with hp | hp
          · obtain ⟨hne, hle⟩ := hs.sub c paths p hpaths hp
            exact ⟨hne, Nat.le_trans hle (Nat.le_max_left _ _)⟩
          · rw [List.mem_singleton] at hp
            subst hp
            exact ⟨hpath, Nat.le_max_right _ _⟩
        · simp only [Function.update_of_ne hc] at hpaths'
          obtain ⟨hne, hle⟩ := hs.sub c paths' p hpaths' hp
          exact ⟨hne, Nat.le_trans hle (Nat.le_max_left _ _)⟩

/-- A bus below the root is not deep. -/
theorem deep_serverGetBus (v : Nat) (name : String) : Keeps Deep (serverGetBus v name) := by
  intro s hs
  simp only [serverGetBus, wp_bind, wp_get]
  split
  · exact hs
  · split
    · exact hs
    · simp only [wp_bind, wp_set, pushEvent, wp_modify, wp_pure]
      constructor
      · exact fun _ _ _ _ => Nat.lt_of_lt_of_le Nat.zero_lt_one (Nat.le_max_right _ _)
      · intro c paths p hpaths hp
        obtain ⟨hne, hle⟩ := hs.sub c paths p hpaths hp
        exact ⟨hne, Nat.le_trans hle (Nat.le_max_left _ _)⟩

/-- **The steps of a scan** keep the depth in bounds. -/
theorem deep_scan (v : Nat) : ScanKeeps v Deep fun _ => True :=
  .of_stable stable_deep (fun b _ _ => deep_getBus b (List.cons_ne_nil _ _)) (deep_serverGetBus v)

/-- What is not about devices has to be kept where a bus drops its sub-buses. -/
theorem keeps_delocateBus {I : Service → Prop} (hI : Stable I)
    (hnone : ∀ b, Keeps I (modifyBus b fun bus => { bus with buses := none })) (fuel : Nat) :
    ∀ b, Keeps I (delocateBus fuel b) := by
  induction fuel with
  | zero => exact fun b s hs => hs
  | succ fuel ih =>
      intro b
      have hbuses : Keeps I (delocateBuses (delocateBus fuel) b) := by
        intro s hs
        simp only [delocateBuses, wp_bind, wp_get]
        split
        · next p ps _ =>
          exact ((KeepsOr.forM (fun p => ih (b.sub p)) (p :: ps)).bind fun _ => hnone b) s hs
        · exact hs
      have hdevices : Keeps I (delocateDevices b) := by
        intro s hs
        simp only [delocateDevices, wp_bind, wp_get]
        split
        · next ds _ =>
          split
          · refine ((KeepsOr.forM (fun r => keeps_delocate hI r b) ds.values).bind fun _ => ?_) s hs
            exact fun s hs => hI s _ ⟨rfl, rfl, buses_update rfl, fun h => h⟩ hs
          · exact hs
        · exact hs
      refine hbuses.bind fun _ => hdevices.bind fun _ => ?_
      exact fun s hs => hI s _ ⟨rfl, rfl, fun _ => rfl, fun h => h⟩ hs

/-- Closing a server makes no buses. -/
theorem deep_aclose (v : Nat) : Keeps Deep (aclose v) := by
  have hnone : ∀ b, Keeps Deep (modifyBus b fun bus => { bus with buses := none }) := by
    intro b s hs
    refine ⟨hs.top, fun c paths p hpaths hp => ?_⟩
    by_cases hc : c = b
    · subst hc
      simp at hpaths
    · simp only [Function.update_of_ne hc] at hpaths
      exact hs.sub c paths p hpaths hp
  have hclose : ∀ s : Service, s.Deep → Deep { s with server := Function.update s.server v none } := by
    intro s hs
    refine ⟨fun w names hw hne => ?_, hs.sub⟩
    by_cases hwv : w = v
    · subst hwv
      simp at hw
    · simp only [Function.update_of_ne hwv] at hw
      exact hs.top w names hw hne
  intro s hs
  have hs' : Deep { s with events := s.events ++ [.serverDisconnected v] } := ⟨hs.top, hs.sub⟩
  simp only [aclose, wp_bind, pushEvent, wp_modify, wp_get]
  split
  · exact hclose _ hs'
  · next names _ =>
    have hloop := KeepsOr.forM (fun n => keeps_delocateBus stable_deep hnone s.depth ⟨v, [n]⟩) names
    rw [wp_bind]
    exact wp_mono (hloop _ hs') (fun _ s' h => hclose s' h) (fun _ _ h => h)

/-- Deleting a device makes no buses. -/
theorem deep_deleteDevice (r : Nat) : Keeps Deep (deleteDevice r) := by
  intro s hs
  simp only [deleteDevice, wp_bind, wp_get]
  split
  · exact hs
  · split
    · exact hs
    · exact ⟨hs.top, hs.sub⟩

/-- **One step** keeps the depth in bounds. -/
theorem deep_step {s s' : Service} {a : Action} (hs : s.Deep) (h : s.step a = some s') :
    s'.Deep := by
  refine keeps_step (keeps_getDevice stable_deep) deep_deleteDevice
    (fun v root => (deep_scan v).scanBase root) (fun b entries s _ hs => ?_) deep_aclose hs h
  exact keeps_pollAlarm (keeps_noticed stable_deep b) (fun _ _ hs => ⟨hs.top, hs.sub⟩) entries s hs

/-- In every state that a run reaches, `all_buses` lists the tree. -/
theorem deep_run {s : Service} {as : List Action} (h : Transition.run step init as = some s) :
    s.Deep := by
  refine invariant_run (fun _ _ _ hs hstep => deep_step hs hstep) ⟨fun v names hv hne => ?_,
    fun b paths p hpaths hp => ?_⟩ h
  · rw [show init.server v = some [] from rfl, Option.some.injEq] at hv
    exact absurd hv.symm hne
  · rw [show (init.bus b).buses = some [] from rfl, Option.some.injEq] at hpaths
    rw [← hpaths] at hp
    contradiction

/-! ## Scans -/

/-- Where nothing is forgotten, a bus that is known stays known. -/
theorem Known.mono {s s' : Service} {v : Nat} {b : BusRef} (h : Known s v b)
    (hserver : ∀ names n, s.server v = some names → n ∈ names →
      ∃ names', s'.server v = some names' ∧ n ∈ names')
    (hbuses : ∀ c paths p, (s.bus c).buses = some paths → p ∈ paths →
      ∃ paths', (s'.bus c).buses = some paths' ∧ p ∈ paths') : Known s' v b := by
  induction h with
  | top hv hn =>
      obtain ⟨names', hv', hn'⟩ := hserver _ _ hv hn
      exact .top hv' hn'
  | sub _ hpaths hp ih =>
      obtain ⟨paths', hpaths', hp'⟩ := hbuses _ _ _ hpaths hp
      exact .sub ih hpaths' hp'

/-- A bus in the tree stays there when others are made. -/
theorem known_getBus {v : Nat} {b : BusRef} (c : BusRef) (path : List String) :
    Keeps (fun s => Known s v b) (getBus c path) := by
  intro s hs
  simp only [getBus, wp_bind, wp_get]
  split
  · exact hs
  · next paths hpaths =>
    split
    · exact hs
    · simp only [wp_bind, wp_set, pushEvent, wp_modify, wp_pure]
      refine hs.mono (fun names n hv hn => ⟨names, hv, hn⟩) fun e paths' p hpaths' hp => ?_
      by_cases he : e = c
      · subst he
        rw [hpaths, Option.some.injEq] at hpaths'
        subst hpaths'
        refine ⟨paths ++ [path], ?_, List.mem_append_left _ hp⟩
        simp only [Function.update_self]
      · refine ⟨paths', ?_, hp⟩
        simp only [Function.update_of_ne he]
        exact hpaths'

/-- A bus in the tree stays there when one is made below the root. -/
theorem known_serverGetBus {v : Nat} {b : BusRef} (w : Nat) (name : String) :
    Keeps (fun s => Known s v b) (serverGetBus w name) := by
  intro s hs
  simp only [serverGetBus, wp_bind, wp_get]
  split
  · exact hs
  · next names hnames =>
    split
    · exact hs
    · simp only [wp_bind, wp_set, pushEvent, wp_modify, wp_pure]
      refine hs.mono (fun names' n hv hn => ?_) fun e paths p hpaths hp => ⟨paths, hpaths, hp⟩
      by_cases hw : v = w
      · subst hw
        rw [hnames, Option.some.injEq] at hv
        subst hv
        refine ⟨names ++ [name], ?_, List.mem_append_left _ hn⟩
        simp only [Function.update_self]
      · refine ⟨names', ?_, hn⟩
        simp only [Function.update_of_ne hw]
        exact hv

/-- **A scan forgets no bus.** -/
theorem known_scan (v : Nat) (b : BusRef) (w : Nat) :
    ScanKeeps w (fun s => Known s v b) fun _ => True := by
  refine .of_stable (fun s s' h hs => ?_) (fun c id port => known_getBus c [id, port])
    (known_serverGetBus w)
  refine hs.mono (fun names n hv hn => ⟨names, ?_, hn⟩) fun c paths p hpaths hp => ⟨paths, ?_, hp⟩
  · rw [h.server, hv]
  · rw [h.buses, hpaths]

/-- **No scan** takes a bus out of the tree. -/
theorem known_of_scans {s s' : Service} {v : Nat} {b : BusRef}
    (roots : List (List (String × Listing))) (hb : Known s v b)
    (h : Transition.run step s (roots.map (.scan v)) = some s') : Known s' v b := by
  induction roots generalizing s with
  | nil =>
      rw [List.map_nil, run_nil, Option.some.injEq] at h
      exact h ▸ hb
  | cons root roots ih =>
      obtain ⟨t, ht, h⟩ := run_cons h
      rw [step] at ht
      split at ht
      · next heq =>
        rw [Option.some.injEq] at ht
        subst ht
        have hknown := wp_of_ok ((known_scan v b v).scanBase root s hb) heq
        exact ih hknown h
      · contradiction

/-- What becomes of a bus that has vanished: it is not among `all_buses`, and the
devices that were on it or below it and are not listed elsewhere are nowhere. -/
structure Freed (v : Nat) (b : BusRef) (roots : List (List (String × Listing)))
    (s s' : Service) : Prop where
  bus : b ∉ s'.allBuses v
  devices : ∀ r c, (s.dev r).bus = some c → c ∈ s.allBusesBelow s.depth b →
    (∀ root ∈ roots, (s.dev r).id ∉ (sightings v root).map Prod.snd) → (s'.dev r).bus = none

/-- **No bus is ever freed**, from whatever state, and whatever the scans are
told. -/
theorem not_freed {as : List Action} {s s' : Service} {v : Nat} {b : BusRef}
    {roots : List (List (String × Listing))} (hs : Transition.run step init as = some s)
    (hb : b ∈ s.allBuses v) (h : Transition.run step s (roots.map (.scan v)) = some s') :
    ¬ Freed v b roots s s' := by
  intro hfreed
  have hrun := run_append hs h
  have hknown := known_of_scans roots ((mem_allBuses_iff (deep_run hs) v b).mp hb) h
  exact hfreed.bus ((mem_allBuses_iff (deep_run hrun) v b).mpr hknown)

/-- A bus whose name is gone from the root directory. -/
theorem not_freed_unplugged :
    let found : Action := .scan 0 [("bus.0", .cons "10.345678.00" .nil .nil .nil)]
    let roots : List (List (String × Listing)) := [[], [], [], []]
    ∃ s s', Transition.run step init [found] = some s ∧ ⟨0, ["bus.0"]⟩ ∈ s.allBuses 0 ∧
      Transition.run step s (roots.map (.scan 0)) = some s' ∧
      ¬ Freed 0 ⟨0, ["bus.0"]⟩ roots s s' := by
  intro found roots
  have hbus : (Transition.run step init [found]).map
      (fun s => decide (⟨0, ["bus.0"]⟩ ∈ s.allBuses 0 ∧
        (Transition.run step s (roots.map (.scan 0))).isSome)) = some true := by decide +kernel
  obtain ⟨s, hs, hb⟩ := Option.map_eq_some_iff.mp hbus
  obtain ⟨hb, hsome⟩ := of_decide_eq_true hb
  obtain ⟨s', hs'⟩ := Option.isSome_iff_exists.mp hsome
  exact ⟨s, s', hs, hb, hs', not_freed hs hb hs'⟩

/-- Four scans do not find `bus.0` in the root directory, nor the coupler on
`bus.1` there: `bus.0` and `main` are still known, and their thermometers still on
them. -/
theorem not_freed_vanished :
    let found : Action := .scan 0 [("bus.0", .cons "10.345678.00" .nil .nil .nil),
      ("bus.1", .cons "1F.000001.00" (.cons "28.000002.00" .nil .nil .nil) .nil .nil)]
    let gone : Action := .scan 0 [("bus.1", .nil)]
    let main : BusRef := ⟨0, ["bus.1", "1F.000001.00", "main"]⟩
    (Transition.run step init [found, gone, gone, gone, gone]).map
      (fun s => (decide (⟨0, ["bus.0"]⟩ ∈ s.allBuses 0), decide (main ∈ s.allBuses 0),
        s.busOf "1F.000001.00", s.busOf "10.345678.00", s.busOf "28.000002.00")) =
      some (true, true, none, some ⟨0, ["bus.0"]⟩, some main) := by
  decide +kernel

end Service

end AsyncOwfs
