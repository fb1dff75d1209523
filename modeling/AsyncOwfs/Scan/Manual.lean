import AsyncOwfs.Scan.Stale

/-!
# AsyncOwfs.Scan.Manual

Scans of buses on which applications have put devices by hand.

A scan removes the devices that it finds from those that the bus has listed before.
It looks for those in the listing that say that they are here, so every device has to
be listed where it is.  Scans and alarm polls see to that; `Device.locate` does not.
-/

namespace AsyncOwfs

namespace Listing

/-- The names on a bus. -/
def names : Listing → List String
  | nil => []
  | cons d _ _ rest => d :: rest.names

/-- The names are distinct, and the ids among them upper-case. -/
def Distinct : Listing → Prop
  | nil => True
  | cons d main aux rest =>
    d ∉ rest.names ∧ ((splitId d).isOk → upper d = d) ∧ main.Distinct ∧ aux.Distinct ∧ rest.Distinct

instance Distinct.decidable : (listing : Listing) → Decidable listing.Distinct
  | nil => instDecidableTrue
  | cons d main aux rest =>
    have := Distinct.decidable main
    have := Distinct.decidable aux
    have := Distinct.decidable rest
    inferInstanceAs (Decidable (d ∉ rest.names ∧ ((splitId d).isOk → upper d = d) ∧ _))

/-- The ids are in upper case. -/
theorem Distinct.upper_of_mem_ids {listing : Listing} (h : listing.Distinct) :
    ∀ d ∈ listing.ids, upper d = d := by
  induction listing with
  | nil => exact fun d hd => absurd hd List.not_mem_nil
  | cons d main aux rest ihm iha ihr =>
      obtain ⟨-, hupper, hm, ha, hr⟩ := h
      intro x hx
      rw [ids] at hx
      split at hx
      · exact ihr hr x hx
      · next heq =>
        rcases List.mem_cons.mp hx with rfl | hx
        · exact hupper (by rw [heq]; rfl)
        · rcases List.mem_append.mp hx with hx | hx
          · exact (List.mem_append.mp hx).elim (ihm hm x) (iha ha x)
          · exact ihr hr x hx

end Listing

namespace Service

open Hoare Transition

/-! ## A scan does not raise -/

/-- Buses whose path is shorter than `n` list what they have listed. -/
def Calm (n : Nat) (s s' : Service) : Prop :=
  ∀ c : BusRef, c.path.length < n → ∀ k, s'.lookup c k = s.lookup c k

theorem Calm.refl (n : Nat) (s : Service) : Calm n s s := fun _ _ _ => rfl

theorem Calm.trans {n : Nat} {s s' s'' : Service} (h : Calm n s s') (h' : Calm n s' s'') :
    Calm n s s'' := fun c hc k => (h' c hc k).trans (h c hc k)

/-- Fewer buses are left alone as well. -/
theorem Calm.mono {m n : Nat} {s s' : Service} (h : Calm n s s') (hmn : m ≤ n) : Calm m s s' :=
  fun c hc => h c (Nat.lt_of_lt_of_le hc hmn)

/-- A change on one bus. -/
theorem calm_of_ne {b : BusRef} {s s' : Service} (h : ∀ c, c ≠ b → ∀ k, s'.lookup c k = s.lookup c k) :
    Calm b.path.length s s' := by
  intro c hc
  refine h c ?_
  rintro rfl
  exact Nat.lt_irrefl _ hc

/-- In the loop of `_scan_one`, with some names to come: the old devices are listed,
and each device to come that is listed is an old one. -/
structure Midway (b : BusRef) (names : List String) (old : List String) (s : Service) : Prop where
  stocked : s.Stocked
  nodup : old.Nodup
  listed : ∀ d ∈ old, s.lookup b d ≠ none
  old : ∀ d ∈ names, s.lookup b d ≠ none → d ∈ old

/-- What leaves the bus alone. -/
theorem Midway.of_calm {b : BusRef} {names old : List String} {s s' : Service}
    (h : Midway b names old s) (hs : s'.Stocked) (hcalm : ∀ k, s'.lookup b k = s.lookup b k) :
    Midway b names old s' :=
  ⟨hs, h.nodup, fun d hd => by rw [hcalm]; exact h.listed d hd,
    fun d hd hl => h.old d hd (by rwa [hcalm] at hl)⟩

/-- An id has a device, or gets one. -/
theorem getDevice_ok {d : String} (hd : upper d = d) (hok : (splitId d).isOk) {s : Service}
    (hs : s.Stocked) :
    wp (getDevice d) (fun r s' => s'.Stocked ∧ s'.devices.get? d = some r ∧
      ∀ c k, s'.lookup c k = s.lookup c k) (fun _ _ => False) s := by
  refine wp_mono (wp_and (stocked_getDevice hd hs) (getDevice_spec d s)) (fun r s' h => ?_)
    (fun e s' h => ?_)
  · exact ⟨h.1.1, h.1.2, fun c k => by rw [lookup, h.2.1, lookup]⟩
  · rw [h.2.2.2] at hok
    contradiction

/-- A listed device comes off the old ones, or onto the bus. -/
theorem midway_sight {b : BusRef} {r : Nat} {d : String} {names old : List String} {s : Service}
    (h : Midway b (d :: names) old s) (hr : s.devices.get? d = some r) (hd : d ∉ names) :
    wp (sight b r d old) (fun old' s' => Midway b names old' s' ∧ Calm b.path.length s s')
      (fun _ _ => False) s := by
  have hid := (h.stocked.registered d r hr).2
  simp only [sight, wp_bind, wp_get]
  split
  · next hbus =>
    have hlook := h.stocked.located r b hbus
    rw [hid] at hlook
    have hmem : d ∈ old := h.old d List.mem_cons_self (by simp [hlook])
    rw [if_pos hmem]
    refine ⟨⟨h.stocked, h.nodup.erase d, fun x hx => ?_, fun x hx hl => ?_⟩, .refl _ s⟩
    · exact h.listed x (List.mem_of_mem_erase hx)
    · have hne : x ≠ d := fun hxd => hd (hxd ▸ hx)
      exact (List.mem_erase_of_ne hne).mpr (h.old x (List.mem_cons_of_mem d hx) hl)
  · have hadd := wp_and (stocked_addDevice h.stocked hr)
      (addDevice_spec (b := b) (r := r) h.stocked.waits (h.stocked.present b).1)
    rw [wp_bind]
    refine wp_mono_ok (wp_mono hadd (fun _ _ h => h) (fun _ _ h => h.1)) fun _ s' h' => ?_
    obtain ⟨hs', -, -, -, hlook⟩ := h'
    rw [hid] at hlook
    refine ⟨⟨hs', h.nodup, fun x hx => ?_, fun x hx hl => ?_⟩, calm_of_ne fun c hc k => ?_⟩
    · rw [hlook]
      split
      · simp
      · exact h.listed x hx
    · have hne : x ≠ d := fun hxd => hd (hxd ▸ hx)
      rw [hlook, if_neg (by simp [hne])] at hl
      exact h.old x (List.mem_cons_of_mem d hx) hl
    · rw [hlook, if_neg (by simp [hc])]

/-- **A device that is listed** is taken off the old ones, which it is among if it was here. -/
theorem midway_found {b : BusRef} {d : String} {names old : List String} {s : Service}
    (h : Midway b (d :: names) old s) (hupper : upper d = d) (hok : (splitId d).isOk)
    (hd : d ∉ names) :
    wp (found b d old) (fun x s' => Midway b names x.2 s' ∧ Calm b.path.length s s')
      (fun _ _ => False) s := by
  rw [found]
  apply wp_seq (getDevice_ok hupper hok h.stocked)
  rintro r s₁ ⟨hs₁, hr, hlook₁⟩
  have h₁ : Midway b (d :: names) old s₁ := h.of_calm hs₁ (hlook₁ b)
  apply wp_seq (midway_sight h₁ hr hd)
  rintro old' s₂ ⟨h₂, hcalm₂⟩
  have hs₃ := stocked_unseen r 0 s₂ h₂.stocked
  rw [modifyDev, wp_modify] at hs₃
  rw [modifyDev, wp_bind, wp_modify]
  have hcalm : Calm b.path.length s s₂ := .trans (fun c _ k => hlook₁ c k) hcalm₂
  exact ⟨h₂.of_calm hs₃ fun _ => rfl, hcalm⟩

/-- An old device is found in the list of the bus. -/
theorem miss_ok {b : BusRef} {d : String} {s : Service} (hs : s.Stocked)
    (hd : s.lookup b d ≠ none) :
    wp (miss b d) (fun _ s' => s'.Stocked ∧
      ∀ c k, ¬ (c = b ∧ k = d) → s'.lookup c k = s.lookup c k) (fun _ _ => False) s := by
  obtain ⟨r, hr⟩ := Option.ne_none_iff_exists'.mp hd
  obtain ⟨ds, hds, hget⟩ := Option.bind_eq_some_iff.mp hr
  have hid := hs.id_of_listed hr
  simp only [miss, wp_bind, wp_get, hds, hget]
  split
  · by_cases hbus : (s.dev r).bus = some b
    · refine wp_mono_ok (delocate_spec hbus (hs.located r b hbus)) fun _ s' h => ?_
      obtain ⟨hf, -, hdev, hlook⟩ := h
      refine ⟨hs.removed hf hbus hdev hlook, fun c k hck => ?_⟩
      rw [hlook, hid, if_neg hck]
    · refine wp_mono_ok (delocate_elsewhere hbus) fun _ s' h => ?_
      rw [h]
      exact ⟨hs, fun _ _ _ => rfl⟩
  · have hs' := stocked_unseen r ((s.dev r).unseen + 1) s hs
    rw [modifyDev, wp_modify] at hs' ⊢
    exact ⟨hs', fun _ _ _ => rfl⟩

/-- The loop over the directory of bus `b` does not raise, from any such state. -/
def Passes (b : BusRef) (names : List String)
    (entries : List String → Method (List String × List PathKey)) : Prop :=
  ∀ old s, Midway b names old s →
    wp (entries old) (fun x s' => Midway b [] x.1 s' ∧ Calm b.path.length s s') (fun _ _ => False) s

/-- At the start, all that is listed is old; at the end, what is left is missed. -/
theorem scanWith_ok {b : BusRef} {names : List String}
    {entries : List String → Method (List String × List PathKey)} (he : Passes b names entries)
    {s : Service} (hs : s.Stocked) :
    wp (scanWith b entries) (fun _ s' => s'.Stocked ∧ Calm b.path.length s s')
      (fun _ _ => False) s := by
  obtain ⟨ds, hds⟩ := Option.ne_none_iff_exists'.mp (hs.present b).1
  have hkeys (d : String) : d ∈ ds.keys ↔ s.lookup b d ≠ none := by
    rw [lookup, hds, Option.bind_some, Dict.mem_keys, Option.ne_none_iff_exists']
  have hstart : Midway b names ds.keys s :=
    ⟨hs, ds.nodup, fun d hd => (hkeys d).mp hd, fun d _ hd => (hkeys d).mpr hd⟩
  simp only [scanWith, wp_bind, wp_get, hds]
  refine wp_mono_ok (he ds.keys s hstart) fun x s₁ h₁ => ?_
  obtain ⟨h₁, hcalm₁⟩ := h₁
  have hmisses := wp_forM (f := miss b) (E := fun _ _ => False)
    (I := fun rest s' => s'.Stocked ∧ rest.Nodup ∧ (∀ d ∈ rest, s'.lookup b d ≠ none) ∧
      Calm b.path.length s₁ s')
    (l := x.1) (s := s₁) ⟨h₁.stocked, h₁.nodup, h₁.listed, .refl _ s₁⟩ ?_
  · rw [wp_bind]
    refine wp_mono_ok hmisses fun _ s₂ h₂ => ?_
    exact ⟨h₂.1, hcalm₁.trans h₂.2.2.2⟩
  · rintro d rest s' ⟨hs', hnodup, hlisted, hcalm⟩
    obtain ⟨hd, hnodup⟩ := List.nodup_cons.mp hnodup
    refine wp_mono_ok (miss_ok hs' (hlisted d List.mem_cons_self)) fun _ s'' h'' => ?_
    obtain ⟨hs'', hlook⟩ := h''
    refine ⟨hs'', hnodup, fun k hk => ?_, hcalm.trans (calm_of_ne fun c hc k => ?_)⟩
    · have hkd : k ≠ d := fun h => hd (h ▸ hk)
      rw [hlook b k (by simp [hkd])]
      exact hlisted k (List.mem_cons_of_mem d hk)
    · exact hlook c k (by simp [hc])

/-- What is below a bus leaves it as it is. -/
theorem visit_ok {b : BusRef} {id port : String} {names : List String}
    {entries : BusRef → List String → Method (List String × List PathKey)}
    (he : ∀ c, Passes c names (entries c)) {s : Service} (hs : s.Stocked) :
    wp (visit b [id, port] entries)
      (fun _ s' => s'.Stocked ∧ Calm (b.path.length + 1) s s') (fun _ _ => False) s := by
  rw [visit, wp_bind]
  refine wp_mono_ok (getBus_spec [id, port] (hs.present b).2) fun c s₁ h₁ => ?_
  obtain ⟨rfl, hf, -, hdev, hlook⟩ := h₁
  have hs₁ := hs.of_same hf hdev hlook
  dsimp only
  rw [wp_bind]
  refine wp_mono_ok (scanWith_ok (he (b.sub [id, port])) hs₁) fun _ s₂ h₂ => ?_
  have hlen : b.path.length + 1 ≤ (b.sub [id, port]).path.length := by simp [BusRef.sub]
  have hcalm₁ : Calm (b.path.length + 1) s s₁ := fun c _ k => hlook c k
  exact ⟨h₂.1, hcalm₁.trans (h₂.2.mono hlen)⟩

/-- Both branches of a coupler are scanned without an error. -/
theorem visitAll_ok {b : BusRef} (r : Nat) {names names' : List String}
    {main aux : BusRef → List String → Method (List String × List PathKey)}
    (hm : ∀ c, Passes c names (main c)) (ha : ∀ c, Passes c names' (aux c)) {s : Service}
    (hs : s.Stocked) :
    wp (visitAll b r main aux)
      (fun _ s' => s'.Stocked ∧ Calm (b.path.length + 1) s s') (fun _ _ => False) s := by
  simp only [visitAll, wp_bind, wp_get]
  split
  · rw [wp_bind]
    refine wp_mono_ok (visit_ok hm hs) fun _ s₁ h₁ => ?_
    rw [wp_bind]
    refine wp_mono_ok (visit_ok ha h₁.1) fun _ s₂ h₂ => ?_
    exact ⟨h₂.1, h₁.2.trans h₂.2⟩
  · exact ⟨hs, .refl _ s⟩

/-- **The loop over the directory**, by induction on what the server says is there. -/
theorem scanEntries_ok {listing : Listing} (h : listing.Distinct) (b : BusRef) :
    Passes b listing.names (scanEntries listing b) := by
  induction listing generalizing b with
  | nil => exact fun old s hs => ⟨hs, .refl _ s⟩
  | cons d main aux rest ihm iha ihr =>
      obtain ⟨hd, hupper, hm, ha, hr⟩ := h
      intro old s hs
      rw [scanEntries]
      cases hsplit : splitId d with
      | error e =>
          exact ihr hr b old s ⟨hs.stocked, hs.nodup, hs.listed,
            fun x hx => hs.old x (List.mem_cons_of_mem d hx)⟩
      | ok x =>
          have hok : (splitId d).isOk := by rw [hsplit]; rfl
          dsimp only
          rw [wp_bind]
          refine wp_mono_ok (midway_found hs (hupper hok) hok hd) fun x s₁ h₁ => ?_
          obtain ⟨r, old₁⟩ := x
          obtain ⟨h₁, hcalm₁⟩ := h₁
          dsimp only at h₁ ⊢
          rw [wp_bind]
          refine wp_mono_ok (visitAll_ok r (ihm hm) (iha ha) h₁.stocked) fun below s₂ h₂ => ?_
          obtain ⟨hs₂, hcalm₂⟩ := h₂
          have h₂ : Midway b rest.names old₁ s₂ :=
            h₁.of_calm hs₂ (hcalm₂ b (Nat.lt_succ_self _))
          rw [wp_bind]
          refine wp_mono_ok (ihr hr b old₁ s₂ h₂) fun x s₃ h₃ => ?_
          exact ⟨h₃.1, (hcalm₁.trans (hcalm₂.mono (Nat.le_succ _))).trans h₃.2⟩

/-- **A scan of a bus** returns normally. -/
theorem scanOne_ok {s : Service} (hs : s.Stocked) {listing : Listing} (h : listing.Distinct)
    (b : BusRef) :
    wp (scanOne b listing) (fun _ s' => s'.Stocked) (fun _ _ => False) s :=
  wp_mono_ok (scanWith_ok (scanEntries_ok h b) hs) fun _ _ h => h.1

/-! ## Steps -/

/-- What an application or a poll task asks of a service, with what the server
answers. -/
inductive Deed
  | getDevice (id : String)
  /-- `Server.get_bus` -/
  | getBus (v : Nat) (name : String)
  | scan (v : Nat) (root : List (String × Listing))
  | pollAlarm (b : BusRef) (entries : List (String × Except Exc Unit))
  /-- `Device.locate` of the device with this id -/
  | locate (id : String) (b : BusRef)

/-- The state behind a deed.  Ids are upper-case, names in a directory are distinct, and
buses are those of the service. -/
def act (s : Service) : Deed → Option Service
  | .getDevice id => if upper id = id then some (after (getDevice id) s) else none
  | .getBus v name => some (after (serverGetBus v name) s)
  | .scan v root =>
    if (root.map Prod.fst).Nodup ∧ ∀ e ∈ root, e.2.Distinct then s.step (.scan v root) else none
  | .pollAlarm b entries =>
    if ∀ e ∈ entries, upper e.1 = e.1 then s.step (.pollAlarm b entries) else none
  | .locate id b =>
    if upper id = id ∧ (splitId id).isOk ∧ b ∈ s.allBuses b.server then
      (s.devices.get? id).map fun r => after (locate r b) s
    else none

/-- **Any scan** of any bus returns normally. -/
def Scannable (s : Service) : Prop :=
  ∀ b ∈ s.allBuses b.server, ∀ listing : Listing, listing.Distinct →
    wp (scanOne b listing) (fun _ _ => True) (fun _ _ => False) s

/-- Devices are located by hand only where the bus lists them already. -/
def Entered (s : Service) : Deed → Prop
  | .locate id b => s.lookup b id ≠ none
  | _ => True

instance (s : Service) : (a : Deed) → Decidable (s.Entered a)
  | .locate id b => inferInstanceAs (Decidable (s.lookup b id ≠ none))
  | .getDevice _ | .getBus .. | .scan .. | .pollAlarm .. => instDecidableTrue

/-- A service in order can be scanned. -/
theorem Stocked.scannable {s : Service} (hs : s.Stocked) : s.Scannable :=
  fun b _ _ hl => wp_mono_ok (scanOne_ok hs hl b) fun _ _ _ => trivial

/-- An event is about no devices. -/
theorem stocked_pushEvent (e : Event) : Keeps Stocked (pushEvent e) := by
  intro s hs
  exact hs.of_same ⟨rfl, rfl, rfl, fun _ => Iff.rfl, fun _ => Iff.rfl, fun _ => Iff.rfl⟩ rfl
    fun _ _ => rfl

/-- Whether counts have been lost does not matter. -/
theorem Stocked.of_uncounted {s : Service} (hs : s.Stocked) (u : Bool) :
    ({ s with uncounted := u } : Service).Stocked :=
  ⟨hs.registered, hs.listed, hs.located, hs.waits, hs.server, hs.present⟩

/-- A device in the alarm directory enters the dictionary of its bus. -/
theorem stocked_noticed {b : BusRef} {d : String} (hd : upper d = d) : Keeps Stocked (noticed b d) := by
  intro s hs
  rw [noticed]
  apply wp_seq (stocked_getDevice hd hs)
  rintro r s₁ ⟨hs₁, hr⟩
  rw [wp_bind, wp_modify, wp_bind]
  have hs₂ := hs₁.of_uncounted (s₁.uncounted || decide ((s₁.dev r).unseen ≠ 0))
  exact wp_mono_ok (stocked_addDevice (b := b) hs₂ hr) fun _ _ h => h

/-- A device that is listed comes to be where it is listed. -/
theorem stocked_locate {b : BusRef} {id : String} {r : Nat} {s : Service} (hs : s.Stocked)
    (hr : s.devices.get? id = some r) (hlisted : s.lookup b id ≠ none) :
    wp (locate r b) (fun _ s' => s'.Stocked) (fun _ s' => s'.Stocked) s := by
  have hid := (hs.registered id r hr).2
  simp only [locate, wp_bind, wp_get]
  split
  · exact hs
  · rw [modifyDev, wp_bind, wp_modify, pushEvent, wp_modify]
    have hother (x : Nat) (hx : x ≠ r) :
        Function.update s.dev r { s.dev r with bus := some b, waitBus := true } x = s.dev x :=
      Function.update_of_ne hx _ _
    refine ⟨fun k x hx => ?_, hs.listed, fun x c hc => ?_, fun x => ?_, hs.server, hs.present⟩
    · by_cases hxr : x = r
      · subst hxr
        simpa using hs.registered k x hx
      · dsimp only
        rw [hother x hxr]
        exact hs.registered k x hx
    · by_cases hxr : x = r
      · subst hxr
        dsimp only at hc ⊢
        rw [Function.update_self] at hc ⊢
        obtain ⟨y, hy⟩ := Option.ne_none_iff_exists'.mp hlisted
        have hyr := hs.listed b id y hy
        rw [hr, Option.some.injEq] at hyr
        rw [← Option.some.inj hc, hid, hyr]
        exact hy
      · dsimp only at hc ⊢
        rw [hother x hxr] at hc ⊢
        exact hs.located x c hc
    · by_cases hxr : x = r
      · subst hxr
        simp
      · dsimp only
        rw [hother x hxr]
        exact hs.waits x

/-- The tree is made of the sub-buses. -/
theorem allBusesBelow_congr {s s' : Service} (h : ∀ c, (s'.bus c).buses = (s.bus c).buses)
    (fuel : Nat) (b : BusRef) : s'.allBusesBelow fuel b = s.allBusesBelow fuel b := by
  induction fuel generalizing b with
  | zero => rfl
  | succ fuel ih => simp only [allBusesBelow, h, ih]

/-- A device that is put on a bus without an entry is not found among the old ones. -/
theorem not_scannable_locate {b : BusRef} {id : String} {r : Nat} {s : Service} (hs : s.Stocked)
    (hr : s.devices.get? id = some r) (hok : (splitId id).isOk) (hupper : upper id = id)
    (hb : b ∈ s.allBuses b.server) (hlisted : s.lookup b id = none) :
    ¬ (after (locate r b) s).Scannable := by
  have hid := (hs.registered id r hr).2
  have hbus : (s.dev r).bus ≠ some b := by
    intro hbus
    have hl := hs.located r b hbus
    rw [hid, hlisted] at hl
    contradiction
  obtain ⟨ds, hds⟩ := Option.ne_none_iff_exists'.mp (hs.present b).1
  have hold : id ∉ ds.keys := by
    rw [Dict.mem_keys]
    rintro ⟨x, hx⟩
    rw [lookup, hds, Option.bind_some, hx] at hlisted
    contradiction
  -- it is on the bus now, and nothing else has changed
  have hloc : wp (locate r b)
      (fun _ t => (t.dev r).bus = some b ∧ t.devices = s.devices ∧ t.bus = s.bus ∧
        t.server = s.server ∧ t.depth = s.depth)
      (fun _ t => (t.dev r).bus = some b ∧ t.devices = s.devices ∧ t.bus = s.bus ∧
        t.server = s.server ∧ t.depth = s.depth) s := by
    simp [locate, wp_bind, wp_get, hbus, modifyDev, pushEvent, wp_modify]
  obtain ⟨hdev, hdevices, htbus, hserver, hdepth⟩ := wp_after hloc
  have hb' : b ∈ (after (locate r b) s).allBuses b.server := by
    have hbuses : ∀ c, ((after (locate r b) s).bus c).buses = (s.bus c).buses := by
      intro c
      rw [htbus]
    have hbelow := allBusesBelow_congr hbuses
    rw [allBuses] at hb ⊢
    simpa only [hserver, hdepth, hbelow] using hb
  -- which a scan that finds it takes for granted
  have hnames : (Listing.cons id .nil .nil .nil).Distinct :=
    ⟨List.not_mem_nil, fun _ => hupper, trivial, trivial, trivial⟩
  intro hscan
  have h := hscan b hb' (.cons id .nil .nil .nil) hnames
  cases hsplit : splitId id with
  | error e =>
      rw [hsplit] at hok
      contradiction
  | ok x =>
      simp only [scanOne, scanWith, wp_bind, wp_get, htbus, hds, scanEntries, hsplit, found,
        getDevice, hdevices, hr, wp_pure, sight, hdev, if_true, hold, if_false, wp_throw] at h

/-- **One deed** keeps the service in order. -/
theorem stocked_act {a : Deed} {s s' : Service} (hs : s.Stocked) (hg : s.Entered a)
    (h : s.act a = some s') : s'.Stocked := by
  cases a with
  | getDevice id =>
      rw [act, Option.ite_none_right_eq_some, Option.some.injEq] at h
      obtain ⟨hupper, rfl⟩ := h
      exact wp_after (wp_mono (stocked_getDevice hupper hs) (fun _ _ h => h.1) fun _ _ h => h)
  | getBus v name =>
      rw [act, Option.some.injEq] at h
      subst h
      exact wp_after (wp_mono ((stocked_scan v).serverGetBus name s hs) (fun _ _ h => h.2)
        fun _ _ h => h)
  | scan v root =>
      rw [act, Option.ite_none_right_eq_some] at h
      obtain ⟨⟨-, hroot⟩, h⟩ := h
      have hkeeps := (stocked_scan v).scanBase root fun e he => (hroot e he).upper_of_mem_ids
      rw [step] at h
      split at h
      · next heq =>
        rw [Option.some.injEq] at h
        exact h ▸ wp_of_ok (hkeeps s hs) heq
      · contradiction
  | pollAlarm b entries =>
      rw [act, Option.ite_none_right_eq_some] at h
      obtain ⟨hupper, h⟩ := h
      rw [step, Option.ite_none_right_eq_some, Option.some.injEq] at h
      have hkeeps : Keeps Stocked (pollAlarm b entries) :=
        keeps_pollAlarm_of (fun e he => stocked_noticed (hupper e he)) stocked_pushEvent
      exact h.2 ▸ wp_after (hkeeps s hs)
  | locate id b =>
      rw [act, Option.ite_none_right_eq_some, Option.map_eq_some_iff] at h
      obtain ⟨-, r, hr, rfl⟩ := h
      exact wp_after (stocked_locate hs hr hg)

/-- Any other way of locating a device breaks the next scan. -/
theorem not_scannable_act {a : Deed} {s s' : Service} (hs : s.Stocked) (hg : ¬ s.Entered a)
    (h : s.act a = some s') : ¬ s'.Scannable := by
  cases a with
  | locate id b =>
      rw [act, Option.ite_none_right_eq_some, Option.map_eq_some_iff] at h
      obtain ⟨⟨hupper, hok, hb⟩, r, hr, rfl⟩ := h
      exact not_scannable_locate hs hr hok hupper hb (not_not.mp hg)
  | getDevice _ => exact absurd trivial hg
  | getBus _ _ => exact absurd trivial hg
  | scan _ _ => exact absurd trivial hg
  | pollAlarm _ _ => exact absurd trivial hg

/-- **Scans of a service** return normally for as long as devices are located by hand
only where they are listed, and not after that. -/
theorem scannable_iff_entered (as : List Deed) :
    AllStates act Scannable init as ↔ AllSteps act Entered init as := by
  have hinit := scanned_init.toStocked
  refine allStates_iff_allSteps_of (I := Stocked) (H := fun _ _ => True) ?_ ?_ hinit
    hinit.scannable (allSteps_true init as)
  · intro s a s' hs _ _ hscan h
    refine stocked_act hs ?_ h
    by_contra hg
    exact not_scannable_act hs hg h hscan
  · intro s a s' hs _ _ h
    refine ⟨fun hscan => ?_, fun hg => (stocked_act hs hg h).scannable⟩
    by_contra hg
    exact not_scannable_act hs hg h hscan

/-- A bus and a device, as in an application without scans, and then a scan. -/
theorem not_scannable_manual :
    ¬ AllStates act Scannable init
      [.getBus 0 "bus.0", .getDevice "10.345678.90", .locate "10.345678.90" ⟨0, ["bus.0"]⟩] := by
  have hbefore : ∃ s, run act init [.getBus 0 "bus.0", .getDevice "10.345678.90"] = some s ∧
      s.lookup ⟨0, ["bus.0"]⟩ "10.345678.90" = none ∧
      (s.act (.locate "10.345678.90" ⟨0, ["bus.0"]⟩)).isSome := by
    decide +kernel
  obtain ⟨s, hrun, hlisted, hlocate⟩ := hbefore
  obtain ⟨s', hact⟩ := Option.isSome_iff_exists.mp hlocate
  have hs : s.Stocked := by
    obtain ⟨s₁, hbus, hrest⟩ := run_cons hrun
    obtain ⟨s₂, hdevice, hrest⟩ := run_cons hrest
    rw [run_nil, Option.some.injEq] at hrest
    have hs₁ : s₁.Stocked := stocked_act (a := .getBus 0 "bus.0") scanned_init.toStocked trivial hbus
    have hs₂ : s₂.Stocked := stocked_act (a := .getDevice "10.345678.90") hs₁ trivial hdevice
    exact hrest ▸ hs₂
  have hnot : ¬ s.Entered (.locate "10.345678.90" ⟨0, ["bus.0"]⟩) := fun hg => hg hlisted
  intro h
  have hafter : AllStates act Scannable s [.locate "10.345678.90" ⟨0, ["bus.0"]⟩] :=
    AllStates.of_append h hrun
  exact not_scannable_act hs hnot hact (hafter.2 s' hact)

end Service

end AsyncOwfs
