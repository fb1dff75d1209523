import AsyncOwfs.Tasks.Rounds

/-!
# AsyncOwfs.Tasks.Registry

`Service._devices` while tasks are at work: which commands change it, and what
always holds of it.

The events about one device are its `word`.  An event that some task still has to
push is not in it yet; `owed` tells of that.
-/

namespace AsyncOwfs

open Transition Hoare

/-- What is told about a device. -/
inductive News
  | added
  | located
  | notFound
  | deleted
  deriving DecidableEq, Repr

/-- What an event tells about a device.  Alarms are left out. -/
def News.about (r : Nat) : Event → Option News
  | .deviceAdded r' => if r' = r then some .added else none
  | .deviceLocated r' => if r' = r then some .located else none
  | .deviceNotFound r' => if r' = r then some .notFound else none
  | .deviceDeleted r' => if r' = r then some .deleted else none
  | _ => none

/-- What has been told about a device. -/
def Service.word (s : Service) (r : Nat) : List News := s.events.filterMap (News.about r)

/-- The same, as it is owed. -/
def Owed.about (r : Nat) : Owed → Option News
  | .added r' => if r' = r then some .added else none
  | .located r' => if r' = r then some .located else none
  | .gone r' => if r' = r then some .notFound else none
  | .deleted r' => if r' = r then some .deleted else none
  | _ => none

/-- An event is what fulfils the duty to tell it. -/
theorem Owed.about_push (r : Nat) (e : Event) : (Cmd.push e).fulfils.about r = News.about r e := by
  cases e <;> rfl

/-- The duties that are about a device can be read off. -/
theorem Owed.about_added {r : Nat} {o : Owed} : o.about r = some .added ↔ o = .added r := by
  cases o <;> simp [about]

theorem Owed.about_located {r : Nat} {o : Owed} : o.about r = some .located ↔ o = .located r := by
  cases o <;> simp [about]

theorem Owed.about_notFound {r : Nat} {o : Owed} : o.about r = some .notFound ↔ o = .gone r := by
  cases o <;> simp [about]

theorem Owed.about_deleted {r : Nat} {o : Owed} : o.about r = some .deleted ↔ o = .deleted r := by
  cases o <;> simp [about]

namespace Service

/-- A new event is at the end of the words that it is about. -/
theorem word_push (s : Service) (e : Event) (r : Nat) :
    ({ s with events := s.events ++ [e] } : Service).word r = s.word r ++ (News.about r e).toList := by
  rw [word, List.filterMap_append, List.filterMap_cons, List.filterMap_nil, word]
  cases News.about r e <;> rfl

/-! ## What is left alone -/

/-- No device is registered, deleted or renamed, and nothing is told of any. -/
structure SameRegistry (s s' : Service) : Prop where
  devices : s'.devices = s.devices
  nextDev : s'.nextDev = s.nextDev
  id : ∀ r, (s'.dev r).id = (s.dev r).id
  word : ∀ r, s'.word r = s.word r

/-- And no device has moved. -/
structure SameLives (s s' : Service) : Prop extends SameRegistry s s' where
  bus : ∀ r, (s'.dev r).bus = (s.dev r).bus

/-- What does nothing leaves all lives alone. -/
theorem SameLives.refl (s : Service) : SameLives s s :=
  ⟨⟨rfl, rfl, fun _ => rfl, fun _ => rfl⟩, fun _ => rfl⟩

/-- One change after another. -/
theorem SameRegistry.trans {s s' s'' : Service} (h : SameRegistry s s') (h' : SameRegistry s' s'') :
    SameRegistry s s'' :=
  ⟨h'.devices.trans h.devices, h'.nextDev.trans h.nextDev, fun r => (h'.id r).trans (h.id r),
    fun r => (h'.word r).trans (h.word r)⟩

/-- The same, with the places. -/
theorem SameLives.trans {s s' s'' : Service} (h : SameLives s s') (h' : SameLives s' s'') :
    SameLives s s'' :=
  ⟨h.toSameRegistry.trans h'.toSameRegistry, fun r => (h'.bus r).trans (h.bus r)⟩

/-- A device has changed, but neither its id nor its bus. -/
theorem sameLives_modifyDev (r : Nat) {f : Device → Device} (hid : ∀ d, (f d).id = d.id)
    (hbus : ∀ d, (f d).bus = d.bus) : Relates SameLives (modifyDev r f) := by
  intro s
  refine ⟨⟨rfl, rfl, fun r' => ?_, fun _ => rfl⟩, fun r' => ?_⟩
  · by_cases hr : r' = r
    · simp [hr, hid]
    · simp [hr]
  · by_cases hr : r' = r
    · simp [hr, hbus]
    · simp [hr]

/-- A bus has changed. -/
theorem sameLives_modifyBus (b : BusRef) (f : Bus → Bus) : Relates SameLives (modifyBus b f) :=
  fun _ => ⟨⟨rfl, rfl, fun _ => rfl, fun _ => rfl⟩, fun _ => rfl⟩

/-- A bus is new, and its event is not about a device. -/
theorem sameLives_busAdded (s : Service) (bus : BusRef → Bus) (server : Nat → Option (List String))
    (depth : Nat) (b : BusRef) :
    SameLives s { s with bus, server, depth, events := s.events ++ [.busAdded b] } := by
  refine ⟨⟨rfl, rfl, fun _ => rfl, fun r => ?_⟩, fun _ => rfl⟩
  exact (word_push s (.busAdded b) r).trans (List.append_nil _)

/-- A sub-bus is looked up, or made. -/
theorem sameLives_getBus (b : BusRef) (path : List String) : Relates SameLives (getBus b path) := by
  intro s
  rw [getBus, wp_bind, wp_get]
  split
  · exact .refl s
  · split
    · exact .refl s
    · exact sameLives_busAdded s _ s.server _ _

/-- So is a bus below the root. -/
theorem sameLives_serverGetBus (v : Nat) (name : String) :
    Relates SameLives (serverGetBus v name) := by
  intro s
  rw [serverGetBus, wp_bind, wp_get]
  split
  · exact .refl s
  · split
    · exact .refl s
    · exact sameLives_busAdded s s.bus _ _ _

/-- A device is taken out of the dictionary of its bus, which has to have it. -/
theorem delDevice_spec (b : BusRef) (r : Nat) (s : Service) :
    wp (delDevice b r) (fun _ s' => SameLives s s' ∧ s.lookup b (s.dev r).id ≠ none)
      (fun _ s' => SameLives s s') s := by
  rw [delDevice, wp_bind, wp_get]
  split
  · exact .refl s
  · next ds hds =>
    split
    · exact .refl s
    · next r' hget =>
      refine ⟨⟨⟨rfl, rfl, fun _ => rfl, fun _ => rfl⟩, fun _ => rfl⟩, ?_⟩
      simp [lookup, hds, hget]

/-! ## `get_device` and `delete_device` -/

/-- **`get_device`, up to its event**: the device that the id has, or a new one under the id in
upper case. -/
theorem register_spec (id : String) (s : Service) :
    wp (register id)
      (fun x s' => x.2 = false ∧ s.devices.get? id = some x.1 ∧ s' = s ∨
        x = (s.nextDev, true) ∧ s.devices.get? id = none ∧ (splitId id).isOk ∧
          ∃ family, s' = { s with
            dev := Function.update s.dev s.nextDev { id := upper id, family },
            nextDev := s.nextDev + 1, devices := s.devices.set (upper id) s.nextDev })
      (fun _ s' => s' = s ∧ ¬ (splitId id).isOk) s := by
  rw [register, wp_bind, wp_get]
  split
  · next r hget => exact .inl ⟨rfl, hget, rfl⟩
  · next hget =>
    split
    · next e hsplit => exact ⟨rfl, by rw [hsplit]; exact Bool.false_ne_true⟩
    · next family c k hsplit => exact .inr ⟨rfl, hget, by rw [hsplit]; rfl, family, rfl⟩

/-- **`delete_device`, up to its event**: the id is free again.  A device that is somewhere, or not
registered, cannot be deleted. -/
theorem unregister_spec (r : Nat) (s : Service) :
    wp (unregister r)
      (fun _ s' => (s.dev r).bus = none ∧ s.devices.get? (s.dev r).id ≠ none ∧
        s' = { s with devices := s.devices.erase (s.dev r).id })
      (fun _ s' => s' = s ∧ ((s.dev r).bus ≠ none ∨ s.devices.get? (s.dev r).id = none)) s := by
  rw [unregister, wp_bind, wp_get]
  split
  · next b hbus => exact ⟨rfl, .inl (by simp [hbus])⟩
  · next hbus =>
    split
    · next hget => exact ⟨rfl, .inr hget⟩
    · next r' hget => exact ⟨hbus, by simp [hget], rfl⟩

end Service

namespace World

/-- The commands that are about `Service._devices`, or the places of devices, and the
events. -/
def InLives : Cmd → Prop
  | .getDevice _ | .deleteDevice _ | .push _ | .assign .. | .unlocate .. => True
  | _ => False

/-- **All other commands** leave the lives of the devices alone. -/
theorem sameLives_exec (reply : Reply) (c : Cmd) (hc : ¬ InLives c) :
    Relates (fun w w' => Service.SameLives w.service w'.service) (exec reply c) := by
  refine relates_exec (fun w => .refl w.service) (fun _ _ _ => .trans) reply c ?_
  have hdev {r : Nat} {f : Device → Device} (hid : ∀ d, (f d).id = d.id)
      (hbus : ∀ d, (f d).bus = d.bus) := relates_onService (Service.sameLives_modifyDev r hid hbus)
  have hbus {b : BusRef} {f : Bus → Bus} := relates_onService (Service.sameLives_modifyBus b f)
  cases c with
  | serverGetBus v name => exact relates_onService (Service.sameLives_serverGetBus v name)
  | serverClosed v => exact fun w => ⟨⟨rfl, rfl, fun _ => rfl, fun _ => rfl⟩, fun _ => rfl⟩
  | getBus b path => exact relates_onService (Service.sameLives_getBus b path)
  | seen => exact hdev (fun _ => rfl) fun _ => rfl
  | setInterval r styp value => exact fun intervals w => .refl w.service
  | seenBus | noBuses | noDevices => exact hbus
  | enlist b r => exact fun w ds _ => hbus w
  | miss b d => exact fun r => hdev (fun _ => rfl) fun _ => rfl
  | stopPoll | startPoll | storePoll =>
      exact parts_isPoll (fun w w' h => h ▸ .refl w.service) trivial
  | getDevice | deleteDevice | push | assign | unlocate => exact absurd trivial hc
  | _ => trivial

/-- All other commands fulfil no duty to tell of a device. -/
theorem about_fulfils {c : Cmd} (hc : ¬ InLives c) (r : Nat) : c.fulfils.about r = none := by
  cases c with
  | push e => exact absurd trivial hc
  | _ => rfl

/-- All other commands leave no duty to tell of a device. -/
theorem about_incurs {c : Cmd} (hc : ¬ InLives c) (res : Except Exc c.Ret) (r : Nat) :
    (c.incurs res).about r = none := by
  cases c with
  | getDevice | deleteDevice | assign | unlocate => exact absurd trivial hc
  | startPoll b x =>
      rcases res with e | started
      · rfl
      · cases started <;> rfl
  | _ => rfl

/-- A push adds its event. -/
theorem push_spec (reply : Reply) (e : Event) (w : World) :
    wp (exec reply (.push e))
      (fun _ w' => w'.service = { w.service with events := w.service.events ++ [e] })
      (fun _ _ => False) w := rfl

/-! ## `locate` and `delocate` -/

/-- **`locate`, up to its event**: the device is on the bus, and was not if that is new. -/
theorem assign_spec (reply : Reply) (b : BusRef) (r : Nat) (w : World) :
    wp (exec reply (.assign b r))
      (fun new w' => Service.SameRegistry w.service w'.service ∧
        (new = true ↔ (w.service.dev r).bus ≠ some b) ∧
        ∀ r', (w'.service.dev r').bus =
          if new = true ∧ r' = r then some b else (w.service.dev r').bus)
      (fun _ _ => False) w := by
  show wp (if (w.service.dev r).bus = some b then pure false else
    onService (Service.modifyDev r fun d => { d with bus := some b, waitBus := true }) >>= fun _ =>
      pure true) _ _ w
  split
  · next hbus => exact ⟨(Service.SameLives.refl _).toSameRegistry, by simp [hbus], by simp⟩
  · next hbus =>
    refine ⟨⟨rfl, rfl, fun r' => ?_, fun _ => rfl⟩, by simp [hbus], fun r' => ?_⟩
    · by_cases hr : r' = r <;> simp [hr]
    · by_cases hr : r' = r <;> simp [hr]

/-- **`delocate`, up to its event**: a device that was on the bus, on both sides, is nowhere. -/
theorem unlocate_spec (reply : Reply) (b : BusRef) (r : Nat) (w : World) :
    wp (exec reply (.unlocate b r))
      (fun gone w' => Service.SameRegistry w.service w'.service ∧
        (gone = true → (w.service.dev r).bus = some b ∧
          w.service.lookup b (w.service.dev r).id ≠ none) ∧
        ∀ r', (w'.service.dev r').bus = if gone = true ∧ r' = r then none else (w.service.dev r').bus)
      (fun _ w' => Service.SameLives w.service w'.service) w := by
  show wp (if (w.service.dev r).bus = some b then do
      onService (Service.modifyDev r fun d => { d with waitBus := false })
      onService (Service.delDevice b r)
      onService (Service.modifyDev r fun d => { d with bus := none })
      pure true
    else pure false) _ _ w
  split
  · next hbus =>
    have hwait : wp (onService (Service.modifyDev r fun d => { d with waitBus := false }))
        (fun _ w' => Service.SameLives w.service w'.service ∧ w'.service.bus = w.service.bus)
        (fun _ w' => Service.SameLives w.service w'.service) w :=
      ⟨Service.sameLives_modifyDev r (f := fun d => { d with waitBus := false }) (fun _ => rfl)
        (fun _ => rfl) w.service, rfl⟩
    refine wp_seq hwait fun _ w₁ h₁ => ?_
    have hdel : wp (onService (Service.delDevice b r))
        (fun _ w' => Service.SameLives w₁.service w'.service ∧
          w₁.service.lookup b (w₁.service.dev r).id ≠ none)
        (fun _ w' => Service.SameLives w₁.service w'.service) w₁ := by
      rw [onService, wp_zoom]
      exact Service.delDevice_spec b r w₁.service
    refine wp_seq (wp_mono hdel (fun _ _ h => h) fun _ _ h => h₁.1.trans h) fun _ w₂ h₂ => ?_
    have h := h₁.1.trans h₂.1
    refine ⟨h.toSameRegistry.trans ⟨rfl, rfl, fun r' => ?_, fun _ => rfl⟩, fun _ => ⟨hbus, ?_⟩,
      fun r' => ?_⟩
    · by_cases hr : r' = r <;> simp [hr]
    · have hlook := h₂.2
      rw [h₁.1.id r, Service.lookup, h₁.2] at hlook
      exact hlook
    · by_cases hr : r' = r
      · simp [hr]
      · simp [hr, h.bus r']
  · exact ⟨(Service.SameLives.refl _).toSameRegistry, by simp, by simp⟩

end World

end AsyncOwfs
