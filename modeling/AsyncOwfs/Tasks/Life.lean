import AsyncOwfs.Tasks.Registry
import Mathlib

/-!
# AsyncOwfs.Tasks.Life

The life of one device: what has been told about it, whether it is registered, and
whether it is anywhere.

Few things happen in a life, and each step of a task is at most one of them, for any
device (`life_goes`).
-/

namespace AsyncOwfs

open Transition Hoare

/-- A device, as one sees it who only asks whether it is there.  The tasks `ι` owe
events about it. -/
@[ext]
structure Life (ι : Type) where
  word : List News
  born : Bool
  registered : Bool
  here : Bool
  owes : ι → Option News

namespace Life

variable {ι : Type} [DecidableEq ι]

def owe (l : Life ι) (i : ι) (n : News) : Life ι :=
  { l with owes := Function.update l.owes i (some n) }

def register (l : Life ι) (i : ι) : Life ι :=
  { l with born := true, registered := true, here := false }.owe i .added

def tell (l : Life ι) (i : ι) (n : News) : Life ι :=
  { l with word := l.word ++ [n], owes := Function.update l.owes i none }

def assign (l : Life ι) (i : ι) : Life ι := { l with here := true }.owe i .located

def unlocate (l : Life ι) (i : ι) : Life ι := { l with here := false }.owe i .notFound

def delete (l : Life ι) (i : ι) : Life ι := { l with registered := false }.owe i .deleted

/-- Another device is registered in place of it, or its entry is deleted with another
device. -/
def forget (l : Life ι) : Life ι := { l with registered := false }

/-- What is owed when something more is. -/
theorem owe_iff {l : Life ι} {i j : ι} {n m : News} :
    (l.owe i n).owes j = some m ↔ j = i ∧ m = n ∨ j ≠ i ∧ l.owes j = some m := by
  show Function.update l.owes i (some n) j = some m ↔ _
  by_cases hji : j = i
  · simp [hji, eq_comm]
  · simp [hji]

/-- What is owed when something has been told. -/
theorem tell_iff {l : Life ι} {i j : ι} {n m : News} :
    (l.tell i n).owes j = some m ↔ j ≠ i ∧ l.owes j = some m := by
  show Function.update l.owes i none j = some m ↔ _
  by_cases hji : j = i
  · simp [hji]
  · simp [hji]

omit [DecidableEq ι] in
/-- What is not registered cannot be forgotten. -/
theorem forget_eq_self {l : Life ι} (h : l.registered = false) : l.forget = l :=
  Life.ext rfl rfl h.symm rfl rfl

end Life

namespace Tasks

open Program

def life (t : Tasks) (r : Nat) : Life TaskId where
  word := t.shared.service.word r
  born := decide (r < t.shared.service.nextDev)
  registered := decide (t.shared.service.devices.get? (t.shared.service.dev r).id = some r)
  here := (t.shared.service.dev r).bus.isSome
  owes i := (owed (t.task i)).about r

/-- The keys of `_devices` are the ids of the devices; a device that there is not yet
has none. -/
structure Named (t : Tasks) : Prop extends Dutiful t where
  named : ∀ id r, t.shared.service.devices.get? id = some r →
    (t.shared.service.dev r).id = id ∧ r < t.shared.service.nextDev
  upper : ∀ id r, t.shared.service.devices.get? id = some r → AsyncOwfs.upper id = id ∧ id ≠ ""
  unborn : ∀ r, t.shared.service.nextDev ≤ r → (t.shared.service.dev r).id = ""

/-- In the beginning no id is taken. -/
theorem named_init : init.Named := ⟨dutiful_init, fun _ _ h => by contradiction,
  fun _ _ h => by contradiction, fun _ _ => rfl⟩

end Tasks

/-! ## Ids -/

/-- Upper case stays upper case. -/
theorem upper_upper (id : String) : upper (upper id) = upper id := by
  simp only [upper, String.toList_ofList, List.map_map]
  congr 2
  funext c
  exact Char.toUpper_toUpper_eq_toUpper c

/-- An id is not empty. -/
theorem upper_ne_empty {id : String} (h : (splitId id).isOk) : upper id ≠ "" := by
  intro hid
  have hempty : id = "" := by
    rw [upper] at hid
    simpa using hid
  rw [hempty] at h
  exact absurd h (by decide)

namespace Tasks

open Program

/-- A step that does not touch the ids. -/
theorem Named.of_same {t t' : Tasks} (ht : t.Named) (hd : t'.Dutiful)
    (hdevices : t'.shared.service.devices = t.shared.service.devices)
    (hnext : t'.shared.service.nextDev = t.shared.service.nextDev)
    (hid : ∀ r, (t'.shared.service.dev r).id = (t.shared.service.dev r).id) : t'.Named := by
  refine ⟨hd, ?_, ?_, ?_⟩
  · rw [hdevices, hnext]
    intro id r hr
    rw [hid]
    exact ht.named id r hr
  · rw [hdevices]
    exact ht.upper
  · rw [hnext]
    intro r hr
    rw [hid]
    exact ht.unborn r hr

/-- What a step of a task is in the life of a device. -/
inductive Change (t : Tasks) (i : TaskId) : Cmd → Nat → Life TaskId → Prop
  | same (c : Cmd) (r : Nat) : Change t i c r (t.life r)
  | register {id : String} (hnone : t.shared.service.devices.get? id = none)
    (hid : (splitId id).isOk) (howes : (t.life t.shared.service.nextDev).owes i = none) :
    Change t i (.getDevice id) t.shared.service.nextDev
      ((t.life t.shared.service.nextDev).register i)
  | replace {id : String} {r : Nat} (hnone : t.shared.service.devices.get? id = none)
    (hid : (splitId id).isOk) (hr : t.shared.service.devices.get? (upper id) = some r) :
    Change t i (.getDevice id) r (t.life r).forget
  | tell {e : Event} {r : Nat} {n : News} (howes : (t.life r).owes i = some n) :
    Change t i (.push e) r ((t.life r).tell i n)
  | assign {b : BusRef} {r : Nat} (hbus : (t.shared.service.dev r).bus ≠ some b)
    (howes : (t.life r).owes i = none) : Change t i (.assign b r) r ((t.life r).assign i)
  | unlocate {b : BusRef} {r : Nat} (hbus : (t.shared.service.dev r).bus = some b)
    (hlook : t.shared.service.lookup b (t.shared.service.dev r).id ≠ none)
    (howes : (t.life r).owes i = none) : Change t i (.unlocate b r) r ((t.life r).unlocate i)
  | delete {r : Nat} (hbus : (t.shared.service.dev r).bus = none) (hr : r < t.shared.service.nextDev)
    (hsome : t.shared.service.devices.get? (t.shared.service.dev r).id ≠ none)
    (howes : (t.life r).owes i = none) : Change t i (.deleteDevice r) r ((t.life r).delete i)
  | drop {r r' : Nat} (hne : r ≠ r') (hbus : (t.shared.service.dev r').bus = none)
    (hr : t.shared.service.devices.get? (t.shared.service.dev r').id = some r) :
    Change t i (.deleteDevice r') r (t.life r).forget

section Goes

variable {t t' : Tasks} {i : TaskId} {reply : Reply} {c : Cmd} {res : Except Exc c.Ret}
  {k : Except Exc c.Ret → Program Unit} {w : World}

/-- What is shared behind a command is what it has made of it. -/
theorem Goes.shared_eq (hg : Goes t t' i reply c res k w) : t'.shared = w := by
  rw [hg.after]

/-- A command is no longer owed, and what it incurs is. -/
theorem Goes.owes (hg : Goes t t' i reply c res k w) (ht : t.Dutiful) (r : Nat) :
    (t'.life r).owes = Function.update (t.life r).owes i ((c.incurs res).about r) := by
  funext j
  by_cases hji : j = i
  · subst hji
    rw [Function.update_self]
    exact congrArg (Owed.about r) (hg.owed_after ht)
  · rw [Function.update_of_ne hji]
    exact congrArg (fun p => (owed p).about r) (hg.task_ne hji)

/-- A task owes what its command fulfils. -/
theorem Goes.owes_before (hg : Goes t t' i reply c res k w) (r : Nat) :
    (t.life r).owes i = c.fulfils.about r := congrArg (Owed.about r) hg.owed_before

/-- Nothing has happened to the device, and nothing is to be told of it. -/
theorem Goes.life_same (hg : Goes t t' i reply c res k w) (ht : t.Dutiful) {r : Nat}
    (hw : Service.SameRegistry t.shared.service w.service)
    (hbus : (w.service.dev r).bus = (t.shared.service.dev r).bus)
    (hbefore : c.fulfils.about r = none) (hafter : (c.incurs res).about r = none) :
    t'.life r = t.life r := by
  have howes := hg.owes ht r
  rw [hafter, ← hbefore, ← hg.owes_before r, Function.update_eq_self] at howes
  refine Life.ext ?_ ?_ ?_ ?_ howes
  · simp only [life, hg.shared_eq, hw.word]
  · simp only [life, hg.shared_eq, hw.nextDev]
  · simp only [life, hg.shared_eq, hw.devices, hw.id]
  · simp only [life, hg.shared_eq, hbus]

/-- A command that tells of nothing changes no life. -/
theorem Goes.life_eq (hg : Goes t t' i reply c res k w) (ht : t.Dutiful) {r : Nat}
    (hw : w.service = t.shared.service) (hbefore : c.fulfils.about r = none)
    (hafter : (c.incurs res).about r = none) : t'.life r = t.life r :=
  hg.life_same ht (hw ▸ (Service.SameLives.refl _).toSameRegistry) (by rw [hw]) hbefore hafter

/-- A device is found, or is new, or the name is not an id. -/
theorem Goes.getDevice_cases {id : String} {res : Except Exc (Nat × Bool)}
    {k : Except Exc (Nat × Bool) → Program Unit}
    (hg : Goes t t' i reply (.getDevice id) res k w) :
    (∃ r, res = .ok (r, false) ∧ t.shared.service.devices.get? id = some r ∧
      w.service = t.shared.service) ∨
    (res = .ok (t.shared.service.nextDev, true) ∧ t.shared.service.devices.get? id = none ∧
      (splitId id).isOk ∧ ∃ family, w.service = { t.shared.service with
        dev := Function.update t.shared.service.dev t.shared.service.nextDev { id := upper id, family },
        nextDev := t.shared.service.nextDev + 1,
        devices := t.shared.service.devices.set (upper id) t.shared.service.nextDev }) ∨
    (∃ e, res = .error e ∧ w.service = t.shared.service ∧ ¬ (splitId id).isOk) := by
  have hspec := World.post_onService hg.outcome (Service.register_spec id t.shared.service)
  rcases res with e | ⟨r, new⟩
  · exact .inr (.inr ⟨e, rfl, hspec⟩)
  · rcases hspec with ⟨rfl, h⟩ | ⟨h, hnone, hid, family, hw⟩
    · exact .inl ⟨r, rfl, h⟩
    · exact .inr (.inl ⟨by rw [h], hnone, hid, family, hw⟩)

/-- An entry is deleted, or nothing is. -/
theorem Goes.deleteDevice_cases {r : Nat} {res : Except Exc Unit} {k : Except Exc Unit → Program Unit}
    (hg : Goes t t' i reply (.deleteDevice r) res k w) :
    (res = .ok () ∧ (t.shared.service.dev r).bus = none ∧
      t.shared.service.devices.get? (t.shared.service.dev r).id ≠ none ∧
      w.service = { t.shared.service with
        devices := t.shared.service.devices.erase (t.shared.service.dev r).id }) ∨
    (∃ e, res = .error e ∧ w.service = t.shared.service ∧ ((t.shared.service.dev r).bus ≠ none ∨
      t.shared.service.devices.get? (t.shared.service.dev r).id = none)) := by
  have hspec := World.post_onService hg.outcome (Service.unregister_spec r t.shared.service)
  cases res with
  | ok u => exact .inl ⟨rfl, hspec⟩
  | error e => exact .inr ⟨e, rfl, hspec⟩

end Goes

/-- Only devices that there are have an entry. -/
theorem Named.born {t : Tasks} (ht : t.Named) {r : Nat}
    (h : t.shared.service.devices.get? (t.shared.service.dev r).id ≠ none) :
    r < t.shared.service.nextDev := by
  by_contra hge
  obtain ⟨r', hr'⟩ := Option.ne_none_iff_exists'.mp h
  rw [ht.unborn r (Nat.le_of_not_lt hge)] at hr'
  exact (ht.upper "" r' hr').2 rfl

/-- **`get_device`**: a new device is born, and to be told of. -/
theorem life_getDevice {t t' : Tasks} {i : TaskId} {reply : Reply} {id : String}
    {res : Except Exc (Nat × Bool)} {k : Except Exc (Nat × Bool) → Program Unit} {w : World}
    (ht : t.Named) (hg : Goes t t' i reply (.getDevice id) res k w) (r : Nat) :
    Change t i (.getDevice id) r (t'.life r) := by
  rcases hg.getDevice_cases with ⟨r', rfl, -, hw⟩ | ⟨rfl, hnone, hid, family, hw⟩ | ⟨e, rfl, hw, -⟩
  · rw [hg.life_eq ht.toDutiful hw rfl rfl]
    exact .same _ r
  · have howes := hg.owes ht.toDutiful r
    by_cases hr : r = t.shared.service.nextDev
    · subst hr
      have hlife : t'.life t.shared.service.nextDev =
          (t.life t.shared.service.nextDev).register i := by
        refine Life.ext ?_ ?_ ?_ ?_ ?_
        · simp only [life, hg.shared_eq, hw, Service.word]
          rfl
        · simp [life, hg.shared_eq, hw, Life.register, Life.owe]
        · simp [life, hg.shared_eq, hw, Life.register, Life.owe, Dict.get?_set]
        · simp [life, hg.shared_eq, hw, Life.register, Life.owe]
        · have hnews : ((Cmd.getDevice id).incurs (.ok (t.shared.service.nextDev, true))).about
              t.shared.service.nextDev = some .added := if_pos rfl
          rw [howes, hnews]
          rfl
      rw [hlife]
      exact .register hnone hid (hg.owes_before _)
    · have hnews : ((Cmd.getDevice id).incurs (.ok (t.shared.service.nextDev, true))).about r = none :=
        if_neg fun h => hr h.symm
      rw [hnews, Function.update_eq_self_iff.mpr (hg.owes_before r).symm] at howes
      have hborn : (r < t.shared.service.nextDev + 1) = (r < t.shared.service.nextDev) := by
        rw [eq_iff_iff]
        omega
      by_cases hkey : (t.shared.service.dev r).id = upper id
      · have hlife : t'.life r = (t.life r).forget := by
          refine Life.ext ?_ ?_ ?_ ?_ howes
          · simp [life, hg.shared_eq, hw, Service.word, Life.forget]
          · simp [life, hg.shared_eq, hw, hborn, Life.forget]
          · simp [life, hg.shared_eq, hw, hr, Dict.get?_set, hkey, Life.forget, Ne.symm hr]
          · simp [life, hg.shared_eq, hw, hr, Life.forget]
        rw [hlife]
        by_cases hget : t.shared.service.devices.get? (upper id) = some r
        · exact .replace hnone hid hget
        · rw [Life.forget_eq_self (by simp [life, hkey, hget])]
          exact .same _ r
      · have hlife : t'.life r = t.life r := by
          refine Life.ext ?_ ?_ ?_ ?_ howes
          · simp [life, hg.shared_eq, hw, Service.word]
          · simp [life, hg.shared_eq, hw, hborn]
          · simp [life, hg.shared_eq, hw, hr, Dict.get?_set, hkey]
          · simp [life, hg.shared_eq, hw, hr]
        rw [hlife]
        exact .same _ r
  · rw [hg.life_eq ht.toDutiful hw rfl rfl]
    exact .same _ r

/-- **`delete_device`**: a device is forgotten, and to be told of. -/
theorem life_deleteDevice {t t' : Tasks} {i : TaskId} {reply : Reply} {r' : Nat}
    {res : Except Exc Unit} {k : Except Exc Unit → Program Unit} {w : World} (ht : t.Named)
    (hg : Goes t t' i reply (.deleteDevice r') res k w) (r : Nat) :
    Change t i (.deleteDevice r') r (t'.life r) := by
  rcases hg.deleteDevice_cases with ⟨rfl, hbus, hsome, hw⟩ | ⟨e, rfl, hw, -⟩
  · have howes := hg.owes ht.toDutiful r
    by_cases hr : r = r'
    · subst hr
      have hlife : t'.life r = (t.life r).delete i := by
        refine Life.ext ?_ ?_ ?_ ?_ ?_
        · simp [life, hg.shared_eq, hw, Service.word, Life.delete, Life.owe]
        · simp [life, hg.shared_eq, hw, Life.delete, Life.owe]
        · simp [life, hg.shared_eq, hw, Life.delete, Life.owe, Dict.get?_erase]
        · simp [life, hg.shared_eq, hw, Life.delete, Life.owe]
        · have hnews : ((Cmd.deleteDevice r).incurs (.ok ())).about r = some .deleted := if_pos rfl
          rw [howes, hnews]
          rfl
      rw [hlife]
      exact .delete hbus (ht.born hsome) hsome (hg.owes_before _)
    · have hnews : ((Cmd.deleteDevice r').incurs (.ok ())).about r = none :=
        if_neg fun h => hr h.symm
      rw [hnews, Function.update_eq_self_iff.mpr (hg.owes_before r).symm] at howes
      by_cases hkey : (t.shared.service.dev r).id = (t.shared.service.dev r').id
      · have hlife : t'.life r = (t.life r).forget := by
          refine Life.ext ?_ ?_ ?_ ?_ howes
          · simp [life, hg.shared_eq, hw, Service.word, Life.forget]
          · simp [life, hg.shared_eq, hw, Life.forget]
          · simp [life, hg.shared_eq, hw, Dict.get?_erase, hkey, Life.forget]
          · simp [life, hg.shared_eq, hw, Life.forget]
        rw [hlife]
        by_cases hget : t.shared.service.devices.get? (t.shared.service.dev r').id = some r
        · exact .drop hr hbus hget
        · rw [Life.forget_eq_self (by simp [life, hkey, hget])]
          exact .same _ r
      · have hlife : t'.life r = t.life r := by
          refine Life.ext ?_ ?_ ?_ ?_ howes
          · simp [life, hg.shared_eq, hw, Service.word]
          · simp [life, hg.shared_eq, hw]
          · simp [life, hg.shared_eq, hw, Dict.get?_erase, hkey]
          · simp [life, hg.shared_eq, hw]
        rw [hlife]
        exact .same _ r
  · rw [hg.life_eq ht.toDutiful hw rfl rfl]
    exact .same _ r

/-- **An event** is told, by the task that owes it. -/
theorem life_push {t t' : Tasks} {i : TaskId} {reply : Reply} {e : Event} {res : Except Exc Unit}
    {k : Except Exc Unit → Program Unit} {w : World} (ht : t.Named)
    (hg : Goes t t' i reply (.push e) res k w) (r : Nat) : Change t i (.push e) r (t'.life r) := by
  have hspec : w.service = { t.shared.service with events := t.shared.service.events ++ [e] } := by
    have h := hg.outcome.post (World.push_spec reply e t.shared)
    cases res with
    | ok u => exact h
    | error e => exact h.elim
  have howes := hg.owes ht.toDutiful r
  have hlife : t'.life r = { t.life r with
      word := (t.life r).word ++ (News.about r e).toList,
      owes := Function.update (t.life r).owes i none } := by
    refine Life.ext ?_ ?_ ?_ ?_ howes
    · simp only [life, hg.shared_eq, hspec, Service.word_push]
    · simp only [life, hg.shared_eq, hspec]
    · simp only [life, hg.shared_eq, hspec]
    · simp only [life, hg.shared_eq, hspec]
  rw [hlife]
  have hbefore := hg.owes_before r
  rw [Owed.about_push] at hbefore
  cases he : News.about r e with
  | some n => exact .tell (hbefore.trans he)
  | none =>
      rw [he] at hbefore
      rw [Option.toList_none, List.append_nil, Function.update_eq_self_iff.mpr hbefore.symm]
      exact .same _ r

/-- **`locate`**: a device is here, and to be told of. -/
theorem life_assign {t t' : Tasks} {i : TaskId} {reply : Reply} {b : BusRef} {r' : Nat}
    {res : Except Exc Bool} {k : Except Exc Bool → Program Unit} {w : World} (ht : t.Named)
    (hg : Goes t t' i reply (.assign b r') res k w) (r : Nat) :
    Change t i (.assign b r') r (t'.life r) := by
  have hspec := hg.outcome.post (World.assign_spec reply b r' t.shared)
  rcases res with e | new
  · exact hspec.elim
  · obtain ⟨hsame, hnew, hbus⟩ := hspec
    by_cases hr : new = true ∧ r = r'
    · obtain ⟨rfl, rfl⟩ := hr
      have howes := hg.owes ht.toDutiful r
      have hnews : ((Cmd.assign b r).incurs (.ok true)).about r = some .located := if_pos rfl
      have hlife : t'.life r = (t.life r).assign i := by
        refine Life.ext ?_ ?_ ?_ ?_ (by rw [howes, hnews]; rfl)
        · simp [life, hg.shared_eq, hsame.word, Life.assign, Life.owe]
        · simp [life, hg.shared_eq, hsame.nextDev, Life.assign, Life.owe]
        · simp [life, hg.shared_eq, hsame.devices, hsame.id, Life.assign, Life.owe]
        · simp [life, hg.shared_eq, hbus, Life.assign, Life.owe]
      rw [hlife]
      exact .assign (hnew.mp rfl) (hg.owes_before r)
    · have hnews : ((Cmd.assign b r').incurs (.ok new)).about r = none := by
        cases new with
        | false => rfl
        | true => exact if_neg fun h => hr ⟨rfl, h.symm⟩
      rw [hg.life_same ht.toDutiful hsame ((hbus r).trans (if_neg hr)) rfl hnews]
      exact .same _ r

/-- **`delocate`**: a device is nowhere, and to be told of. -/
theorem life_unlocate {t t' : Tasks} {i : TaskId} {reply : Reply} {b : BusRef} {r' : Nat}
    {res : Except Exc Bool} {k : Except Exc Bool → Program Unit} {w : World} (ht : t.Named)
    (hg : Goes t t' i reply (.unlocate b r') res k w) (r : Nat) :
    Change t i (.unlocate b r') r (t'.life r) := by
  have hspec := hg.outcome.post (World.unlocate_spec reply b r' t.shared)
  rcases res with e | gone
  · rw [hg.life_same ht.toDutiful hspec.toSameRegistry (hspec.bus r) rfl rfl]
    exact .same _ r
  · obtain ⟨hsame, hgone, hbus⟩ := hspec
    by_cases hr : gone = true ∧ r = r'
    · obtain ⟨rfl, rfl⟩ := hr
      have howes := hg.owes ht.toDutiful r
      have hnews : ((Cmd.unlocate b r).incurs (.ok true)).about r = some .notFound := if_pos rfl
      have hlife : t'.life r = (t.life r).unlocate i := by
        refine Life.ext ?_ ?_ ?_ ?_ (by rw [howes, hnews]; rfl)
        · simp [life, hg.shared_eq, hsame.word, Life.unlocate, Life.owe]
        · simp [life, hg.shared_eq, hsame.nextDev, Life.unlocate, Life.owe]
        · simp [life, hg.shared_eq, hsame.devices, hsame.id, Life.unlocate, Life.owe]
        · simp [life, hg.shared_eq, hbus, Life.unlocate, Life.owe]
      rw [hlife]
      exact .unlocate (hgone rfl).1 (hgone rfl).2 (hg.owes_before r)
    · have hnews : ((Cmd.unlocate b r').incurs (.ok gone)).about r = none := by
        cases gone with
        | false => rfl
        | true => exact if_neg fun h => hr ⟨rfl, h.symm⟩
      rw [hg.life_same ht.toDutiful hsame ((hbus r).trans (if_neg hr)) rfl hnews]
      exact .same _ r

/-- **What a step of a task is, in the life of any device.** -/
theorem life_goes {t t' : Tasks} {i : TaskId} {reply : Reply} {c : Cmd} {res : Except Exc c.Ret}
    {k : Except Exc c.Ret → Program Unit} {w : World} (ht : t.Named)
    (hg : Goes t t' i reply c res k w) (r : Nat) : Change t i c r (t'.life r) := by
  by_cases hc : World.InLives c
  · cases c with
    | getDevice id => exact life_getDevice ht hg r
    | deleteDevice r' => exact life_deleteDevice ht hg r
    | push e => exact life_push ht hg r
    | assign b r' => exact life_assign ht hg r
    | unlocate b r' => exact life_unlocate ht hg r
    | _ => exact hc.elim
  · have hsame := hg.outcome.of_wp (R := fun _ w => Service.SameLives t.shared.service w.service)
      (World.sameLives_exec reply c hc t.shared)
    rw [hg.life_same ht.toDutiful hsame.toSameRegistry (hsame.bus r) (World.about_fulfils hc r)
      (World.about_incurs hc res r)]
    exact .same c r

/-! ## Other steps -/

/-- A task that starts is no step in the life of a device. -/
theorem Starts.life {t t' : Tasks} {a : Action} {i : TaskId} {p : Program Unit} (ht : t.Dutiful)
    (hs : Starts t a t' i p) (r : Nat) : t'.life r = t.life r := by
  have howed : ∀ j, owed (t'.task j) = owed (t.task j) := hs.owed_eq ht
  simp only [Tasks.life, hs.shared, howed]

/-- No device is registered, deleted or renamed. -/
theorem Goes.registry {t t' : Tasks} {i : TaskId} {reply : Reply} {c : Cmd}
    {res : Except Exc c.Ret} {k : Except Exc c.Ret → Program Unit} {w : World}
    (hg : Goes t t' i reply c res k w) (hget : ∀ id, c ≠ .getDevice id)
    (hdelete : ∀ r, c ≠ .deleteDevice r) :
    w.service.devices = t.shared.service.devices ∧ w.service.nextDev = t.shared.service.nextDev ∧
      ∀ r, (w.service.dev r).id = (t.shared.service.dev r).id := by
  by_cases hc : World.InLives c
  · cases c with
    | getDevice id => exact absurd rfl (hget id)
    | deleteDevice r => exact absurd rfl (hdelete r)
    | push e =>
        have h := hg.outcome.post (World.push_spec reply e t.shared)
        cases res with
        | ok u => exact (h : w.service = _) ▸ ⟨rfl, rfl, fun _ => rfl⟩
        | error e => exact h.elim
    | assign b r =>
        have h := hg.outcome.post (World.assign_spec reply b r t.shared)
        cases res with
        | ok new => exact ⟨h.1.devices, h.1.nextDev, h.1.id⟩
        | error e => exact h.elim
    | unlocate b r =>
        have h := hg.outcome.post (World.unlocate_spec reply b r t.shared)
        cases res with
        | ok gone => exact ⟨h.1.devices, h.1.nextDev, h.1.id⟩
        | error e => exact ⟨h.devices, h.nextDev, h.id⟩
    | _ => exact hc.elim
  · have h := hg.outcome.of_wp (R := fun _ w => Service.SameLives t.shared.service w.service)
      (World.sameLives_exec reply c hc t.shared)
    exact ⟨h.devices, h.nextDev, h.id⟩

/-- **One step** keeps the ids apart. -/
theorem named_step {t t' : Tasks} {a : Action} (ht : t.Named) (h : t.step a = some t') :
    t'.Named := by
  have hd := dutiful_step ht.toDutiful h
  rcases step_cases ht.pollers h with ⟨i, p, hs⟩ | ⟨-, _, _, rfl⟩ | ⟨i, reply, c, res, k, w, -, hg⟩
  · exact ht.of_same hd (by rw [hs.shared]) (by rw [hs.shared]) fun _ => by rw [hs.shared]
  · exact ht.of_same hd rfl rfl fun _ => rfl
  · have hshared := hg.shared_eq
    by_cases hreg : (∃ id, c = .getDevice id) ∨ ∃ r, c = .deleteDevice r
    · rcases hreg with ⟨id, rfl⟩ | ⟨r, rfl⟩
      · rcases hg.getDevice_cases with ⟨r, -, -, hw⟩ | ⟨-, hnone, hid, family, hw⟩ | ⟨e, -, hw, -⟩
        · exact ht.of_same hd (by rw [hshared, hw]) (by rw [hshared, hw]) fun _ => by rw [hshared, hw]
        · -- the new device
          refine ⟨hd, ?_, ?_, ?_⟩
          · intro key r hr
            rw [hshared, hw] at hr ⊢
            simp only [Dict.get?_set] at hr ⊢
            split at hr
            · next hkey =>
              obtain rfl := Option.some.inj hr
              simp [hkey]
            · obtain ⟨hname, hlt⟩ := ht.named key r hr
              rw [Function.update_of_ne hlt.ne]
              exact ⟨hname, Nat.lt_succ_of_lt hlt⟩
          · intro key r hr
            rw [hshared, hw] at hr
            simp only [Dict.get?_set] at hr
            split at hr
            · next hkey => exact hkey ▸ ⟨upper_upper id, upper_ne_empty hid⟩
            · exact ht.upper key r hr
          · intro r hr
            rw [hshared, hw] at hr ⊢
            have hlt : t.shared.service.nextDev < r := hr
            simp only [Function.update_of_ne hlt.ne']
            exact ht.unborn r hlt.le
        · exact ht.of_same hd (by rw [hshared, hw]) (by rw [hshared, hw]) fun _ => by rw [hshared, hw]
      · rcases hg.deleteDevice_cases with ⟨-, -, -, hw⟩ | ⟨e, -, hw, -⟩
        · have hold : ∀ {key r'}, t'.shared.service.devices.get? key = some r' →
              t.shared.service.devices.get? key = some r' := by
            intro key r' hr'
            rw [hshared, hw] at hr'
            simp only [Dict.get?_erase] at hr'
            split at hr'
            · contradiction
            · exact hr'
          refine ⟨hd, fun key r' hr' => ?_, fun key r' hr' => ht.upper key r' (hold hr'), ?_⟩
          · rw [hshared, hw]
            exact ht.named key r' (hold hr')
          · rw [hshared, hw]
            exact ht.unborn
        · exact ht.of_same hd (by rw [hshared, hw]) (by rw [hshared, hw]) fun _ => by rw [hshared, hw]
    · rw [not_or, not_exists, not_exists] at hreg
      obtain ⟨hdevices, hnext, hid⟩ := hg.registry hreg.1 hreg.2
      exact ht.of_same hd (by rw [hshared, hdevices]) (by rw [hshared, hnext])
        fun r => by rw [hshared, hid]

/-- **A step**, in the lives of all devices. -/
theorem life_step {t t' : Tasks} {a : Action} (ht : t.Named) (h : t.step a = some t') :
    (a.Outer ∧ ∀ r, t'.life r = t.life r) ∨
    ∃ i reply c, a = .resume i reply ∧ (t.task i).head = some c ∧ ∀ r, Change t i c r (t'.life r) := by
  rcases step_cases ht.pollers h with ⟨i, p, hs⟩ | ⟨ha, _, _, rfl⟩ | ⟨i, reply, c, res, k, w, rfl, hg⟩
  · exact .inl ⟨hs.outer, hs.life ht.toDutiful⟩
  · exact .inl ⟨ha, fun _ => rfl⟩
  · exact .inr ⟨i, reply, c, rfl, by rw [hg.before]; rfl, life_goes ht hg⟩

/-- Some task owes this. -/
def Owes (t : Tasks) (o : Owed) : Prop := ∃ i ∈ t.tasks, owed (t.task i) = o

instance (t : Tasks) (o : Owed) : Decidable (t.Owes o) := inferInstanceAs (Decidable (∃ i ∈ _, _))

/-- Who owes something is one of the tasks. -/
theorem Dutiful.owes_iff {t : Tasks} (ht : t.Dutiful) {r : Nat} {n : News} {o : Owed}
    (ho : ∀ {o' : Owed}, o'.about r = some n ↔ o' = o) :
    (∃ i, (t.life r).owes i = some n) ↔ t.Owes o := by
  constructor
  · rintro ⟨i, hi⟩
    have hi : (owed (t.task i)).about r = some n := hi
    refine ⟨i, ?_, ho.mp hi⟩
    by_contra hmem
    obtain ⟨u, hu⟩ := ht.idle i hmem
    rw [hu] at hi
    contradiction
  · rintro ⟨i, -, hi⟩
    exact ⟨i, ho.mpr hi⟩

end Tasks

end AsyncOwfs
