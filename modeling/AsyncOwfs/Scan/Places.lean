import AsyncOwfs.Scan.Effects

/-!
# AsyncOwfs.Scan.Places

A device says where it is, and a bus says which devices it has.  What it means
that the two agree, and the changes that keep it so.
-/

namespace AsyncOwfs

namespace Service

/-- What devices and buses say agrees, and the event for "has a bus" is set for
just the devices that have one. -/
structure Consistent (s : Service) : Prop where
  located : ∀ b k r, s.lookup b k = some r ↔ (s.dev r).id = k ∧ (s.dev r).bus = some b
  waits : s.Waits

/-- Besides, devices that do not exist yet are nowhere. -/
structure Good (s : Service) : Prop extends Consistent s where
  fresh : ∀ r, s.nextDev ≤ r → (s.dev r).bus = none
  registered : ∀ k r, s.devices.get? k = some r → r < s.nextDev

/-! ## Changes -/

theorem Good.of_same {s s' : Service} (hs : s.Good) (hf : Frame s s') (hdev : s'.dev = s.dev)
    (hlook : ∀ c k, s'.lookup c k = s.lookup c k) : s'.Good where
  located b k r := by rw [hlook, hdev, hs.located]
  waits r := by rw [hdev]; exact hs.waits r
  fresh r hr := by rw [hdev]; exact hs.fresh r (hf.nextDev ▸ hr)
  registered k r hr := by rw [hf.nextDev]; exact hs.registered k r (hf.devices ▸ hr)

/-- What is neither a device nor a bus has no say in this. -/
theorem Good.of_bus {s s' : Service} (hs : s.Good) (hbus : s'.bus = s.bus) (hdev : s'.dev = s.dev)
    (hnext : s'.nextDev = s.nextDev) (hdevices : s'.devices = s.devices) : s'.Good where
  located b k r := by rw [lookup, hbus, hdev]; exact hs.located b k r
  waits r := by rw [hdev]; exact hs.waits r
  fresh r hr := by rw [hdev]; exact hs.fresh r (hnext ▸ hr)
  registered k r hr := by rw [hnext]; exact hs.registered k r (hdevices ▸ hr)

/-- A device changes, but neither its id nor its place. -/
theorem Good.of_unseen {s s' : Service} (hs : s.Good) (hf : Frame s s') {r : Nat} {u : Nat}
    (hdev : s'.dev = Function.update s.dev r { s.dev r with unseen := u })
    (hlook : ∀ c k, s'.lookup c k = s.lookup c k) : s'.Good := by
  have hid := dev_update Device.id hdev rfl
  have hbus := dev_update Device.bus hdev rfl
  constructor
  · constructor
    · intro b k x
      rw [hlook, hs.located, hid, hbus]
    · exact hs.waits.update hdev (hs.waits r)
  · intro x hx
    rw [hbus]
    exact hs.fresh x (hf.nextDev ▸ hx)
  · intro k x hx
    rw [hf.nextDev]
    exact hs.registered k x (hf.devices ▸ hx)

/-- **A sighting** that disturbs nothing. -/
theorem Good.added {s s' : Service} (hs : s.Good) (hf : Frame s s') {b : BusRef} {r : Nat}
    (hr : r < s.nextDev) (hd : ¬ Disturbs s b r)
    (hdev : s'.dev = Function.update s.dev r { s.dev r with bus := some b, waitBus := true })
    (hlook : ∀ c k, s'.lookup c k = if c = b ∧ k = (s.dev r).id then some r else s.lookup c k) :
    s'.Good := by
  have hloc := hs.located
  simp only [Disturbs, not_or, not_and, not_not] at hd
  constructor
  · constructor
    · intro c k x
      rw [hlook, hdev]
      by_cases hx : x = r
      · subst hx
        rw [Function.update_self]
        grind
      · rw [Function.update_of_ne hx]
        grind
    · exact hs.waits.update hdev (by simp)
  · intro x hx
    rw [hf.nextDev] at hx
    rw [hdev, Function.update_of_ne (by omega)]
    exact hs.fresh x hx
  · intro k x hx
    rw [hf.nextDev]
    exact hs.registered k x (hf.devices ▸ hx)

/-- A device that leaves its bus. -/
theorem Good.removed {s s' : Service} (hs : s.Good) (hf : Frame s s') {b : BusRef} {r : Nat}
    (hbus : (s.dev r).bus = some b)
    (hdev : s'.dev = Function.update s.dev r { s.dev r with bus := none, waitBus := false })
    (hlook : ∀ c k, s'.lookup c k = if c = b ∧ k = (s.dev r).id then none else s.lookup c k) :
    s'.Good := by
  have hloc := hs.located
  have hr := (hloc b (s.dev r).id r).mpr ⟨rfl, hbus⟩
  constructor
  · constructor
    · intro c k x
      rw [hlook, hdev]
      by_cases hx : x = r
      · subst hx
        rw [Function.update_self]
        simp only [reduceCtorEq, and_false, iff_false]
        grind
      · have hxl := hloc c k x
        rw [Function.update_of_ne hx]
        grind
    · exact hs.waits.update hdev (by simp)
  · intro x hx
    rw [hf.nextDev] at hx
    rw [hdev]
    by_cases he : x = r
    · subst he
      simp
    · rw [Function.update_of_ne he]
      exact hs.fresh x hx
  · intro k x hx
    rw [hf.nextDev]
    exact hs.registered k x (hf.devices ▸ hx)

/-- A new device. -/
theorem Good.created {s s' : Service} (hs : s.Good) {k : String} {d : Device}
    (hnone : d.bus = none) (hwait : d.waitBus = false) (hbus : s'.bus = s.bus)
    (hnext : s'.nextDev = s.nextDev + 1) (hdevices : s'.devices = s.devices.set k s.nextDev)
    (hdev : s'.dev = Function.update s.dev s.nextDev d) : s'.Good := by
  have hloc := hs.located
  have hfresh := hs.fresh s.nextDev (Nat.le_refl _)
  have hlook : ∀ c k, s'.lookup c k = s.lookup c k := fun c k => by rw [lookup, hbus, lookup]
  constructor
  · constructor
    · intro c k x
      rw [hlook, hdev, hloc]
      by_cases hx : x = s.nextDev
      · subst hx
        simp [hfresh, hnone]
      · rw [Function.update_of_ne hx]
    · intro x
      rw [hdev]
      by_cases hx : x = s.nextDev
      · subst hx
        simp [hnone, hwait]
      · rw [Function.update_of_ne hx]
        exact hs.waits x
  · intro x hx
    rw [hnext] at hx
    rw [hdev, Function.update_of_ne (by omega)]
    exact hs.fresh x (by omega)
  · intro k' x hx
    rw [hdevices, Dict.get?_set] at hx
    rw [hnext]
    split at hx
    · simp only [Option.some.injEq] at hx
      omega
    · have := hs.registered k' x hx
      omega

end Service

end AsyncOwfs
