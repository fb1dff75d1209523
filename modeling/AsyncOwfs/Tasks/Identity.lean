import AsyncOwfs.Tasks.Life

/-!
# AsyncOwfs.Tasks.Identity

One `Device` object for each id.

`get_device` looks the id up as it is spelled, and enters a new device under the id
in upper case; `delete_device` deletes the entry for the id, whichever device it is.
-/

namespace AsyncOwfs

open Transition Hoare

namespace Life

variable {ι : Type} [DecidableEq ι] {l : Life ι} {i : ι} {n : News}

/-- The device has been deleted; perhaps nobody has said so yet. -/
def Gone (l : Life ι) : Prop := .deleted ∈ l.word ∨ ∃ i, l.owes i = some .deleted

/-- Only a deletion that is owed makes a device a thing of the past. -/
theorem gone_owe (hi : l.owes i = none) (hn : n ≠ .deleted) : (l.owe i n).Gone ↔ l.Gone := by
  refine or_congr_right ⟨fun ⟨j, hj⟩ => ?_, fun ⟨j, hj⟩ => ⟨j, owe_iff.mpr (.inr ⟨?_, hj⟩)⟩⟩
  · rcases owe_iff.mp hj with ⟨-, h⟩ | ⟨-, h⟩
    · exact absurd h.symm hn
    · exact ⟨j, h⟩
  · rintro rfl
    rw [hi] at hj
    contradiction

/-- Another duty does not matter to that of telling that the device is there. -/
theorem added_owe (hi : l.owes i = none) (hn : n ≠ .added) (j : ι) :
    (l.owe i n).owes j = some .added ↔ l.owes j = some .added := by
  refine owe_iff.trans ⟨?_, fun hj => .inr ⟨?_, hj⟩⟩
  · rintro (⟨-, h⟩ | ⟨-, hj⟩)
    · exact absurd h.symm hn
    · exact hj
  · rintro rfl
    rw [hi] at hj
    contradiction

/-- What is owed counts as told. -/
theorem gone_tell (hi : l.owes i = some n) : (l.tell i n).Gone ↔ l.Gone := by
  constructor
  · rintro (hmem | ⟨j, hj⟩)
    · rcases List.mem_append.mp hmem with hmem | hn
      · exact .inl hmem
      · rw [List.mem_singleton] at hn
        exact .inr ⟨i, hn ▸ hi⟩
    · exact .inr ⟨j, (tell_iff.mp hj).2⟩
  · rintro (hmem | ⟨j, hj⟩)
    · exact .inl (List.mem_append_left _ hmem)
    · by_cases hji : j = i
      · rw [hji, hi, Option.some.injEq] at hj
        exact .inl (List.mem_append_right _ (List.mem_singleton.mpr hj.symm))
      · exact .inr ⟨j, tell_iff.mpr ⟨hji, hj⟩⟩

/-- What holds of a life in any case. -/
structure Told (l : Life ι) : Prop where
  unborn : l.born = false → l.word.count .added = 0 ∧ ¬ l.Gone ∧ ¬ ∃ i, l.owes i = some .added
  adding : ∀ i, l.owes i = some .added → l.word.count .added = 0 ∧
    ∀ j, l.owes j = some .added → j = i
  added : l.born = true → l.word.count .added = 1 ∨ ∃ i, l.owes i = some .added
  gone : l.Gone → l.registered = false

/-- A device that is born is to be told of. -/
theorem Told.register (h : l.Told) (hborn : l.born = false) (hi : l.owes i = none) :
    (l.register i).Told := by
  obtain ⟨hcount, hgone, hnone⟩ := h.unborn hborn
  refine ⟨fun hborn' => ?_, fun j hj => ⟨hcount, fun j' hj' => ?_⟩,
    fun _ => .inr ⟨i, owe_iff.mpr (.inl ⟨rfl, rfl⟩)⟩, fun hgone' => ?_⟩
  · contradiction
  · have honly : ∀ j, (l.register i).owes j = some .added → j = i := by
      intro j hj
      rcases owe_iff.mp hj with ⟨hji, -⟩ | ⟨-, hj⟩
      · exact hji
      · exact absurd ⟨j, hj⟩ hnone
    rw [honly j hj, honly j' hj']
  · exact absurd ((gone_owe hi (by decide)).mp hgone') hgone

/-- What is owed has been told. -/
theorem Told.tell (h : l.Told) (hi : l.owes i = some n) : (l.tell i n).Told := by
  have hcount : (l.tell i n).word.count .added = l.word.count .added + if n = .added then 1 else 0 := by
    show (l.word ++ [n]).count .added = _
    rw [List.count_append, List.count_singleton]
    simp only [beq_iff_eq]
  refine ⟨fun hborn => ?_, fun j hj => ?_, fun hborn => ?_, fun hgone => ?_⟩
  · obtain ⟨hzero, hgone, hnone⟩ := h.unborn hborn
    have hn : n ≠ .added := fun hn => hnone ⟨i, hn ▸ hi⟩
    refine ⟨by rw [hcount, hzero, if_neg hn], fun hgone' => hgone ((gone_tell hi).mp hgone'), ?_⟩
    rintro ⟨j, hj⟩
    exact hnone ⟨j, (tell_iff.mp hj).2⟩
  · obtain ⟨hji, hj⟩ := tell_iff.mp hj
    obtain ⟨hzero, honly⟩ := h.adding j hj
    have hn : n ≠ .added := fun hn => hji (honly i (hn ▸ hi)).symm
    exact ⟨by rw [hcount, hzero, if_neg hn], fun j' hj' => honly j' (tell_iff.mp hj').2⟩
  · by_cases hn : n = .added
    · refine .inl ?_
      rw [hcount, (h.adding i (hn ▸ hi)).1, if_pos hn]
    · rw [hcount, if_neg hn]
      refine (h.added hborn).imp_right fun ⟨j, hj⟩ => ⟨j, tell_iff.mpr ⟨?_, hj⟩⟩
      rintro rfl
      rw [hi, Option.some.injEq] at hj
      exact hn hj
  · exact h.gone ((gone_tell hi).mp hgone)

/-- What else a task may have to tell is no matter. -/
theorem Told.owe (h : l.Told) (hi : l.owes i = none) (hadded : n ≠ .added) (hdeleted : n ≠ .deleted) :
    (l.owe i n).Told := by
  have howes := added_owe hi hadded
  have hgone := gone_owe hi hdeleted
  refine ⟨fun hborn => ?_, fun j hj => ?_, fun hborn => ?_, fun hgone' => h.gone (hgone.mp hgone')⟩
  · rw [hgone]
    simp only [howes]
    exact h.unborn hborn
  · simp only [howes] at hj ⊢
    exact h.adding j hj
  · simp only [howes]
    exact h.added hborn

/-- A device that is located is to be told of. -/
theorem Told.assign (h : l.Told) (hi : l.owes i = none) : (l.assign i).Told :=
  Told.owe (l := { l with here := true }) ⟨h.unborn, h.adding, h.added, h.gone⟩ hi (by decide)
    (by decide)

/-- A device that is delocated is to be told of. -/
theorem Told.unlocate (h : l.Told) (hi : l.owes i = none) : (l.unlocate i).Told :=
  Told.owe (l := { l with here := false }) ⟨h.unborn, h.adding, h.added, h.gone⟩ hi (by decide)
    (by decide)

/-- A device that is deleted is to be told of. -/
theorem Told.delete (h : l.Told) (hborn : l.born = true) (hi : l.owes i = none) :
    (l.delete i).Told := by
  have howes : ∀ j, (l.delete i).owes j = some .added ↔ l.owes j = some .added :=
    added_owe (l := { l with registered := false }) hi (by decide)
  refine ⟨fun hborn' => ?_, fun j hj => ?_, fun _ => ?_, fun _ => rfl⟩
  · exact absurd (hborn.symm.trans hborn') (by decide)
  · simp only [howes] at hj ⊢
    exact h.adding j hj
  · simp only [howes]
    exact h.added hborn

omit [DecidableEq ι] in
/-- A device whose id is given to another one. -/
theorem Told.forget (h : l.Told) : l.forget.Told := ⟨h.unborn, h.adding, h.added, fun _ => rfl⟩

end Life

namespace Tasks

open Program

/-- The device has been deleted; perhaps nobody has said so yet. -/
def Deleted (t : Tasks) (r : Nat) : Prop := .deleted ∈ t.shared.service.word r ∨ t.Owes (.deleted r)

instance (t : Tasks) (r : Nat) : Decidable (t.Deleted r) := inferInstanceAs (Decidable (_ ∨ _))

/-- Every key leads to a device with this id; no device is dropped that has not been
deleted; and each is told of once, as soon as the task that has created it goes on. -/
structure Identity (t : Tasks) : Prop where
  keys : ∀ id r, t.shared.service.devices.get? id = some r → (t.shared.service.dev r).id = id
  kept : ∀ r < t.shared.service.nextDev, ¬ t.Deleted r →
    t.shared.service.devices.get? (t.shared.service.dev r).id = some r
  once : ∀ r < t.shared.service.nextDev, (t.shared.service.word r).count .added = 1 ∨
    (t.shared.service.word r).count .added = 0 ∧
      ∃ i ∈ t.tasks, t.Live i ∧ owed (t.task i) = .added r

/-- Devices are looked up as they are registered. -/
def Keyed (t : Tasks) : Action → Prop
  | .resume i _ =>
    match (t.task i).head with
    | some (.getDevice id) =>
      t.shared.service.devices.get? id = none → (splitId id).isOk →
        t.shared.service.devices.get? (upper id) = none
    | some (.deleteDevice r) =>
      (t.shared.service.dev r).bus = none →
        ∀ r' ∈ t.shared.service.devices.get? (t.shared.service.dev r).id, r' = r
    | some (.stopPoll b x) =>
      -- the alarm poll that is cancelled has told of the device that it has found
      ∀ n ∈ (t.shared.polls b).get? x, t.Live (.poller n) →
        ∀ r < t.shared.service.nextDev, owed (t.task (.poller n)) ≠ .added r
    | _ => True
  | _ => True

instance (t : Tasks) (a : Action) : Decidable (t.Keyed a) := by
  induction a using Action.casesOn with
  | resume i reply =>
      dsimp only [Keyed]
      generalize (t.task i).head = o
      induction o using Option.casesOn with
      | none => exact instDecidableTrue
      | some c => induction c using Cmd.casesOn <;> infer_instance
  | _ => exact instDecidableTrue

/-- What holds of all lives in any case. -/
structure Registered (t : Tasks) : Prop extends Named t where
  told : ∀ r, (t.life r).Told

/-- In the beginning nothing is registered. -/
theorem registered_init : init.Registered := by
  refine ⟨named_init, fun r => ⟨fun _ => ⟨rfl, ?_, ?_⟩, fun i hi => ?_, fun h => ?_, fun h => ?_⟩⟩
  · rintro (h | ⟨i, hi⟩) <;> contradiction
  · rintro ⟨i, hi⟩
    contradiction
  · contradiction
  · contradiction
  · rcases h with h | ⟨i, hi⟩ <;> contradiction

/-- **One step** registers devices under their ids. -/
theorem registered_step {t t' : Tasks} {a : Action} (ht : t.Registered) (h : t.step a = some t') :
    t'.Registered := by
  refine ⟨named_step ht.toNamed h, fun r => ?_⟩
  rcases life_step ht.toNamed h with ⟨-, hsame⟩ | ⟨i, reply, c, rfl, hhead, hchange⟩
  · rw [hsame]
    exact ht.told r
  · have hr := hchange r
    generalize t'.life r = l at hr
    have htold := ht.told r
    cases hr with
    | same => exact htold
    | register hnone hid howes => exact htold.register (by simp [life]) howes
    | replace => exact htold.forget
    | tell howes => exact htold.tell howes
    | assign hbus howes => exact htold.assign howes
    | unlocate hbus hlook howes => exact htold.unlocate howes
    | delete hbus hborn hsome howes => exact htold.delete (decide_eq_true hborn) howes
    | drop => exact htold.forget

/-- A device is gone if its end is told, or owed. -/
theorem Dutiful.gone_iff {t : Tasks} (ht : t.Dutiful) (r : Nat) : (t.life r).Gone ↔ t.Deleted r :=
  or_congr_right (ht.owes_iff Owed.about_deleted)

/-- Only a task that is stopped does not live on. -/
theorem Goes.live_after {t t' : Tasks} {i j : TaskId} {reply : Reply} {c : Cmd} {res : Except Exc c.Ret}
    {k : Except Exc c.Ret → Program Unit} {w : World} (hg : Goes t t' i reply c res k w)
    (hj : t.Live j) :
    t'.Live j ∨ ∃ b x n, c = .stopPoll b x ∧ (t.shared.polls b).get? x = some n ∧ j = .poller n := by
  cases j with
  | call | round => exact .inl trivial
  | poller n =>
      have hlive : t'.Live (.poller n) ↔ w.pollers n ≠ none := by rw [Live, hg.shared_eq]
      rw [hlive]
      have hold : t.shared.pollers n ≠ none := hj
      by_cases hc : World.IsPoll c
      · cases c with
        | stopPoll b x =>
            have hspec := hg.outcome.post (World.stopPoll_spec reply b x t.shared)
            cases res with
            | error e => exact .inl ((hspec.1 : w = t.shared) ▸ hold)
            | ok u =>
                obtain ⟨m, hm, rfl⟩ := hspec
                by_cases hnm : n = m
                · exact .inr ⟨b, x, m, rfl, hm, by rw [hnm]⟩
                · refine .inl ?_
                  simpa only [Function.update_of_ne hnm] using hold
        | startPoll b x =>
            refine .inl ?_
            rcases hg.startPoll_cases with ⟨-, -, rfl⟩ | ⟨-, -, rfl⟩
            · exact hold
            · by_cases hnew : n = t.shared.nextPoller
              · simp [hnew]
              · simpa only [Function.update_of_ne hnew] using hold
        | storePoll b x m =>
            have hspec := hg.outcome.post (World.storePoll_spec reply b x m t.shared)
            cases res with
            | error e => exact hspec.elim
            | ok u => exact .inl ((hspec : w = _) ▸ hold)
        | _ => exact hc.elim
      · have hsame := hg.outcome.of_wp (R := fun _ w => World.SamePolls t.shared w)
          (World.samePolls_exec reply c hc t.shared)
        exact .inl (hsame.pollers ▸ hold)

/-- No other command deletes a device. -/
theorem Change.gone_iff {t : Tasks} {i : TaskId} {c : Cmd} {r : Nat} {l : Life TaskId}
    (h : Change t i c r l) (hc : c ≠ .deleteDevice r) : l.Gone ↔ (t.life r).Gone := by
  cases h with
  | same | replace | drop => exact Iff.rfl
  | register hnone hid howes =>
      exact Life.gone_owe (l := { t.life _ with born := true, registered := true, here := false })
        howes (by decide)
  | tell howes => exact Life.gone_tell howes
  | assign hbus howes => exact Life.gone_owe (l := { t.life r with here := true }) howes (by decide)
  | unlocate hbus hlook howes =>
      exact Life.gone_owe (l := { t.life r with here := false }) howes (by decide)
  | delete => exact absurd rfl hc

/-- A device that is not deleted keeps its entry, or gets it. -/
theorem kept_change {t : Tasks} {i : TaskId} {reply : Reply} {c : Cmd} {r : Nat} {l : Life TaskId}
    (h : Change t i c r l) (hkeyed : t.Keyed (.resume i reply)) (hhead : (t.task i).head = some c)
    (hkept : (t.life r).born = true → ¬ (t.life r).Gone → (t.life r).registered = true)
    (hborn : l.born = true) (hgone : ¬ l.Gone) : l.registered = true := by
  rw [Keyed, hhead] at hkeyed
  by_cases hc : c = .deleteDevice r
  · subst hc
    cases h with
    | same => exact hkept hborn hgone
    | delete hbus hr hsome howes =>
        exact absurd (.inr ⟨i, Life.owe_iff.mpr (.inl ⟨rfl, rfl⟩)⟩) hgone
    | drop hne => exact absurd rfl hne
  · rw [h.gone_iff hc] at hgone
    cases h with
    | register => rfl
    | replace hnone hid hr =>
        rw [hkeyed hnone hid] at hr
        contradiction
    | same | tell | assign | unlocate => exact hkept hborn hgone
    | delete => exact absurd rfl hc
    | drop hne hbus hr => exact absurd (hkeyed hbus r hr) hne

/-- A device that has an entry, and is not deleted now, has to keep it. -/
theorem Identity.kept_of_change {t t' : Tasks} {i : TaskId} {c : Cmd} {r : Nat} {id : String}
    (hid' : t'.Identity) (ht : t.Registered) (ht' : t'.Registered)
    (hchange : Change t i c r (t'.life r)) (hc : c ≠ .deleteDevice r)
    (hr : t.shared.service.devices.get? id = some r) (hborn : r < t'.shared.service.nextDev) :
    t'.shared.service.devices.get? (t'.shared.service.dev r).id = some r := by
  have hreg : (t.life r).registered = true := by
    rw [← (ht.named id r hr).1] at hr
    exact decide_eq_true hr
  refine hid'.kept r hborn ?_
  rw [← ht'.gone_iff, hchange.gone_iff hc]
  intro hgone
  rw [(ht.told r).gone hgone] at hreg
  contradiction

/-- What identity says of one life. -/
theorem Identity.life_kept {t : Tasks} (hid : t.Identity) (ht : t.Dutiful) (r : Nat)
    (hborn : (t.life r).born = true) (hgone : ¬ (t.life r).Gone) : (t.life r).registered = true := by
  rw [ht.gone_iff] at hgone
  exact decide_eq_true (hid.kept r (of_decide_eq_true hborn) hgone)

/-- Lives that keep their ids keep them apart. -/
theorem identity_of_lives {t : Tasks} (ht : t.Registered)
    (hkept : ∀ r, (t.life r).born = true → ¬ (t.life r).Gone → (t.life r).registered = true)
    (hlive : ∀ i r, owed (t.task i) = .added r → t.Live i) : t.Identity := by
  refine ⟨fun id r h => (ht.named id r h).1, fun r hr hdel => ?_, fun r hr => ?_⟩
  · rw [← ht.gone_iff] at hdel
    exact of_decide_eq_true (hkept r (decide_eq_true hr) hdel)
  · refine ((ht.told r).added (decide_eq_true hr)).imp_right fun ⟨i, hi⟩ => ?_
    have howed := Owed.about_added.mp hi
    obtain ⟨j, hj, howed'⟩ := (ht.owes_iff Owed.about_added).mp ⟨i, hi⟩
    exact ⟨((ht.told r).adding i hi).1, j, hj, hlive j r howed', howed'⟩

/-- A device that is to be told of is born. -/
theorem Registered.born_of_added {t : Tasks} (ht : t.Registered) {i : TaskId} {r : Nat}
    (hi : owed (t.task i) = .added r) : r < t.shared.service.nextDev := by
  have howes : (t.life r).owes i = some .added := Owed.about_added.mpr hi
  by_contra hr
  exact ((ht.told r).unborn (decide_eq_false hr)).2.2 ⟨i, howes⟩

/-- Who has to tell of a new device has not been cancelled. -/
theorem Identity.live {t : Tasks} (hid : t.Identity) (ht : t.Registered) {i : TaskId} {r : Nat}
    (hi : owed (t.task i) = .added r) : t.Live i := by
  obtain ⟨hzero, honly⟩ := (ht.told r).adding i (Owed.about_added.mpr hi)
  rcases hid.once r (ht.born_of_added hi) with hone | ⟨-, j, -, hlive, hj⟩
  · exact absurd (hzero.symm.trans hone) (by decide)
  · exact honly j (Owed.about_added.mpr hj) ▸ hlive

section Lost

variable {t t' : Tasks} {i : TaskId} {reply : Reply} {w : World}

/-- A new device takes no entry of another one. -/
theorem keyed_getDevice {id : String} {res : Except Exc (Nat × Bool)}
    {k : Except Exc (Nat × Bool) → Program Unit} (ht : t.Registered) (ht' : t'.Registered)
    (hg : Goes t t' i reply (.getDevice id) res k w) (hid' : t'.Identity)
    (hnone : t.shared.service.devices.get? id = none) (hok : (splitId id).isOk) :
    t.shared.service.devices.get? (upper id) = none := by
  by_contra hsome
  obtain ⟨r, hr⟩ := Option.ne_none_iff_exists'.mp hsome
  obtain ⟨hname, hlt⟩ := ht.named _ r hr
  rcases hg.getDevice_cases with ⟨r', -, hr', -⟩ | ⟨-, -, -, family, hw⟩ | ⟨e, -, -, hnot⟩
  · rw [hnone] at hr'
    contradiction
  · have hborn : r < t'.shared.service.nextDev := by
      rw [hg.shared_eq, hw]
      exact Nat.lt_succ_of_lt hlt
    have hkept := hid'.kept_of_change ht ht' (life_goes ht.toNamed hg r) Cmd.noConfusion hr hborn
    rw [hg.shared_eq, hw] at hkept
    simp only [Function.update_of_ne hlt.ne, hname, Dict.get?_set, if_true, Option.some.injEq] at hkept
    exact hlt.ne hkept.symm
  · exact hnot hok

/-- Only the entry of the device that is deleted is. -/
theorem keyed_deleteDevice {r : Nat} {res : Except Exc Unit} {k : Except Exc Unit → Program Unit}
    (ht : t.Registered) (ht' : t'.Registered) (hg : Goes t t' i reply (.deleteDevice r) res k w)
    (hid' : t'.Identity) (hbus : (t.shared.service.dev r).bus = none) (r' : Nat)
    (hr' : r' ∈ t.shared.service.devices.get? (t.shared.service.dev r).id) : r' = r := by
  by_contra hne
  obtain ⟨hname, hlt⟩ := ht.named _ r' hr'
  rcases hg.deleteDevice_cases with ⟨-, -, -, hw⟩ | ⟨e, -, -, hnot⟩
  · have hborn : r' < t'.shared.service.nextDev := by
      rw [hg.shared_eq, hw]
      exact hlt
    have hc : Cmd.deleteDevice r ≠ .deleteDevice r' := fun h => hne (Cmd.deleteDevice.inj h).symm
    have hkept := hid'.kept_of_change ht ht' (life_goes ht.toNamed hg r') hc hr' hborn
    rw [hg.shared_eq, hw] at hkept
    simp only [hname, Dict.get?_erase, if_true] at hkept
    contradiction
  · rcases hnot with hnot | hnot
    · exact hnot hbus
    · rw [hnot] at hr'
      contradiction

/-- The task that is stopped has nothing to tell of a new device. -/
theorem keyed_stopPoll {b : BusRef} {x : String} {res : Except Exc Unit}
    {k : Except Exc Unit → Program Unit} (ht' : t'.Registered)
    (hg : Goes t t' i reply (.stopPoll b x) res k w) (hid' : t'.Identity) (n : Nat)
    (hn : n ∈ (t.shared.polls b).get? x) (r : Nat) : owed (t.task (.poller n)) ≠ .added r := by
  intro howed
  have hne : .poller n ≠ i := by
    rintro rfl
    rw [hg.owed_before] at howed
    contradiction
  have hlive := hid'.live ht' (i := .poller n) (r := r) (by rw [hg.task_ne hne]; exact howed)
  have hspec := hg.outcome.post (World.stopPoll_spec reply b x t.shared)
  cases res with
  | error e =>
      rw [(hspec.2 : (t.shared.polls b).get? x = none)] at hn
      contradiction
  | ok u =>
      obtain ⟨m, hm, hw⟩ := hspec
      rw [hm, Option.mem_some_iff] at hn
      rw [Live, hg.shared_eq, hw, hn] at hlive
      simp at hlive

end Lost

/-- **One step**: the devices keep their identity if and only if they are looked up as
they are registered. -/
theorem identity_step {t t' : Tasks} {a : Action} (ht : t.Registered) (hid : t.Identity)
    (h : t.step a = some t') : t'.Identity ↔ t.Keyed a := by
  have ht' := registered_step ht h
  rcases step_cases ht.pollers h with ⟨i, p, hs⟩ | ⟨houter, _, _, rfl⟩ | ⟨i, reply, c, res, k, w, rfl, hg⟩
  · have hkeyed : t.Keyed a := by
      cases a with
      | resume => exact hs.outer.elim
      | _ => trivial
    refine iff_of_true (identity_of_lives ht' (fun r => ?_) fun j r hj => ?_) hkeyed
    · rw [hs.life ht.toDutiful]
      exact hid.life_kept ht.toDutiful r
    · rw [hs.owed_eq ht.toDutiful] at hj
      have hlive := hid.live ht hj
      cases j with
      | call | round => trivial
      | poller n =>
          show t'.shared.pollers n ≠ none
          rw [hs.shared]
          exact hlive
  · have hkeyed : t.Keyed a := by
      cases a with
      | resume => exact houter.elim
      | _ => trivial
    exact iff_of_true ⟨hid.keys, hid.kept, hid.once⟩ hkeyed
  · have hhead : (t.task i).head = some c := by rw [hg.before]; rfl
    have hlife := life_goes ht.toNamed hg
    constructor
    · intro hid'
      rw [Keyed, hhead]
      cases c with
      | getDevice id => exact keyed_getDevice ht ht' hg hid'
      | deleteDevice r => exact keyed_deleteDevice ht ht' hg hid'
      | stopPoll b x => exact fun n hn _ r _ => keyed_stopPoll ht' hg hid' n hn r
      | _ => trivial
    · intro hkeyed
      refine identity_of_lives ht' (fun r => ?_) fun j r hj => ?_
      · exact kept_change (hlife r) hkeyed hhead (hid.life_kept ht.toDutiful r)
      · rw [Keyed, hhead] at hkeyed
        rcases hg.owed_cases ht.toDutiful hj with ⟨-, hold⟩ | ⟨rfl, hnew⟩
        · have hlive := hid.live ht hold
          rcases hg.live_after hlive with h | ⟨b, x, n, rfl, hn, rfl⟩
          · exact h
          · exact absurd hold (hkeyed n hn hlive r (ht.born_of_added hold))
        · rcases hg.live_after hg.live with h | ⟨b, x, n, rfl, -, -⟩
          · exact h
          · contradiction

/-! ## Runs -/

/-- A task gets this device for this id. -/
def Fetches (t : Tasks) (a : Action) (id : String) (r : Nat) : Prop :=
  ∃ i reply new w, a = .resume i reply ∧ (t.task i).head = some (.getDevice id) ∧
    World.exec reply (.getDevice id) t.shared = .ok (r, new) w

/-- Ids that are equal up to case lead to the same device, for as long as it is not
deleted. -/
def SameObject (as : List Action) : Prop :=
  ∀ (as₁ : List Action) (a : Action) (as₂ : List Action) (b : Action) (as₃ : List Action)
    (t₁ t₁' t₂ t₂' : Tasks) (id id' : String) (r r' : Nat), as = as₁ ++ a :: (as₂ ++ b :: as₃) →
    run step init as₁ = some t₁ → t₁.step a = some t₁' → run step t₁' as₂ = some t₂ →
    t₂.step b = some t₂' → t₁.Fetches a id r → t₂.Fetches b id' r' → upper id = upper id' →
    ¬ t₂.Deleted r → r' = r

/-- `get_device` returns the device with the id, or a new one. -/
theorem Fetches.cases {t : Tasks} {a : Action} {id : String} {r : Nat} (h : t.Fetches a id r) :
    t.shared.service.devices.get? id = some r ∨
    t.shared.service.devices.get? id = none ∧ (splitId id).isOk ∧ r = t.shared.service.nextDev := by
  obtain ⟨i, reply, new, w, -, -, hexec⟩ := h
  have houtcome : Outcome (World.exec reply (.getDevice id)) t.shared (.ok (r, new)) w := hexec
  rcases World.post_onService houtcome (Service.register_spec id t.shared.service) with
    ⟨-, hget, -⟩ | ⟨h, hnone, hok, -⟩
  · exact .inl hget
  · exact .inr ⟨hnone, hok, (Prod.mk.inj h).1⟩

/-- Devices keep their ids. -/
theorem id_step {t t' : Tasks} {a : Action} (ht : t.Named) (h : t.step a = some t') {r : Nat}
    (hr : r < t.shared.service.nextDev) :
    (t'.shared.service.dev r).id = (t.shared.service.dev r).id ∧ r < t'.shared.service.nextDev := by
  rcases step_cases ht.pollers h with ⟨i, p, hs⟩ | ⟨-, _, _, rfl⟩ | ⟨i, reply, c, res, k, w, -, hg⟩
  · rw [hs.shared]
    exact ⟨rfl, hr⟩
  · exact ⟨rfl, hr⟩
  · rw [hg.shared_eq]
    by_cases hget : ∃ id, c = .getDevice id
    · obtain ⟨id, rfl⟩ := hget
      rcases hg.getDevice_cases with ⟨r', -, -, hw⟩ | ⟨-, -, -, family, hw⟩ | ⟨e, -, hw, -⟩
      · rw [hw]
        exact ⟨rfl, hr⟩
      · rw [hw]
        simp only [Function.update_of_ne hr.ne]
        exact ⟨trivial, Nat.lt_succ_of_lt hr⟩
      · rw [hw]
        exact ⟨rfl, hr⟩
    by_cases hdelete : ∃ r, c = .deleteDevice r
    · obtain ⟨r', rfl⟩ := hdelete
      rcases hg.deleteDevice_cases with ⟨-, -, -, hw⟩ | ⟨e, -, hw, -⟩
      · rw [hw]
        exact ⟨rfl, hr⟩
      · rw [hw]
        exact ⟨rfl, hr⟩
    · rw [not_exists] at hget hdelete
      obtain ⟨-, hnext, hid⟩ := hg.registry hget hdelete
      exact ⟨hid r, hnext ▸ hr⟩

/-- A device keeps its id. -/
theorem id_run {t t' : Tasks} {as : List Action} (ht : t.Named) (h : run step t as = some t')
    {r : Nat} (hr : r < t.shared.service.nextDev) :
    (t'.shared.service.dev r).id = (t.shared.service.dev r).id ∧ r < t'.shared.service.nextDev := by
  induction as generalizing t with
  | nil =>
      rw [run_nil, Option.some.injEq] at h
      exact h ▸ ⟨rfl, hr⟩
  | cons a as ih =>
      obtain ⟨t₁, h₁, h'⟩ := run_cons h
      obtain ⟨hid, hlt⟩ := id_step ht h₁ hr
      exact (ih (named_step ht h₁) h' hlt).imp_left fun h => h.trans hid

/-- Behind the call, the device has the id, in upper case. -/
theorem Fetches.id_eq {t t' : Tasks} {a : Action} {id : String} {r : Nat} (ht : t.Named)
    (h : t.Fetches a id r) (hstep : t.step a = some t') :
    (t'.shared.service.dev r).id = upper id ∧ r < t'.shared.service.nextDev := by
  rcases h.cases with hget | ⟨hnone, hok, rfl⟩
  · obtain ⟨hname, hlt⟩ := ht.named id r hget
    rw [(ht.upper id r hget).1, ← hname]
    exact id_step ht hstep hlt
  · obtain ⟨i, reply, new, w, rfl, hhead, -⟩ := h
    rcases step_cases ht.pollers hstep with ⟨j, p, hs⟩ | ⟨houter, -⟩ | ⟨j, reply', c, res, k, w, ha, hg⟩
    · exact hs.outer.elim
    · exact houter.elim
    · obtain ⟨rfl, rfl⟩ := (Action.resume.injEq ..).mp ha
      rw [hg.before] at hhead
      obtain rfl : c = .getDevice id := Option.some.inj hhead
      rw [hg.shared_eq]
      rcases hg.getDevice_cases with ⟨r', -, hget, -⟩ | ⟨-, -, -, family, hw⟩ | ⟨e, -, -, hnot⟩
      · rw [hnone] at hget
        contradiction
      · rw [hw]
        simp only [Function.update_self]
        exact ⟨trivial, Nat.lt_succ_self _⟩
      · exact absurd hok hnot

/-- **The same id, the same object**, as long as no device is deleted in between. -/
theorem sameObject_of_keyed {as : List Action} (has : AllSteps step Keyed init as)
    (hall : AllStates step Identity init as) : SameObject as := by
  intro as₁ a as₂ b as₃ t₁ t₁' t₂ t₂' id id' r r' has' h₁ ha h₂ hb hf hf' hcase hdel
  have ht₁ : t₁.Registered := invariant_run (fun _ _ _ ht h => registered_step ht h) registered_init h₁
  have ht₁' := registered_step ht₁ ha
  have ht₂ : t₂.Registered := invariant_run (fun _ _ _ ht h => registered_step ht h) ht₁' h₂
  obtain ⟨hid, hlt⟩ := hf.id_eq ht₁.toNamed ha
  obtain ⟨hid₂, hlt₂⟩ := id_run ht₁'.toNamed h₂ hlt
  have hrun : run step init (as₁ ++ a :: as₂) = some t₂ :=
    run_append h₁ (by rw [run, ha, Option.bind_some]; exact h₂)
  have hlist : as = (as₁ ++ a :: as₂) ++ b :: as₃ := by rw [has', List.append_assoc]; rfl
  rw [hlist] at has hall
  have hkeyed : t₂.Keyed b := ((has.of_append hrun) t₂' hb).1
  have hkept := (hall.of_append hrun).head.kept r hlt₂ hdel
  rw [hid₂, hid, hcase] at hkept
  rcases hf'.cases with hget | ⟨hnone, hok, -⟩
  · rw [(ht₂.upper id' r' hget).1, hget, Option.some.injEq] at hkept
    exact hkept
  · obtain ⟨i, reply, new, w, rfl, hhead, -⟩ := hf'
    rw [Keyed, hhead] at hkeyed
    rw [hkeyed hnone hok] at hkept
    contradiction

/-- **One object for each id**, in a run, if and only if the devices are looked up as
they are registered. -/
theorem identity_iff_keyed (as : List Action) :
    AllStates step Identity init as ∧ SameObject as ↔ AllSteps step Keyed init as := by
  have hinit : init.Identity := ⟨fun _ _ h => by contradiction, fun _ h => absurd h (Nat.not_lt_zero _),
    fun _ h => absurd h (Nat.not_lt_zero _)⟩
  have hiff : AllStates step Identity init as ↔ AllSteps step Keyed init as :=
    allStates_iff_allSteps (fun _ _ _ ht _ h => registered_step ht h)
      (fun _ _ _ ht _ hid h => identity_step ht hid h) registered_init hinit (allSteps_true init as)
  exact ⟨fun h => hiff.mp h.1, fun h => ⟨hiff.mpr h, sameObject_of_keyed h (hiff.mpr h)⟩⟩

/-- The application spells an id with small letters, twice. -/
def lowerCase : List Action :=
  .getDevice "10.67c6697351ff.8d" :: go (.call 0) 2 ++
  .getDevice "10.67c6697351ff.8d" :: go (.call 1) 2

/-- There are two devices, and the first one is lost. -/
theorem not_identity_lowerCase :
    (∃ t, run step init lowerCase = some t ∧
      t.shared.service.events = [.deviceAdded 0, .deviceAdded 1] ∧
      (t.shared.service.dev 0).id = "10.67C6697351FF.8D" ∧
      (t.shared.service.dev 1).id = "10.67C6697351FF.8D" ∧
      t.shared.service.devices.get? "10.67C6697351FF.8D" = some 1 ∧
      0 < t.shared.service.nextDev ∧ ¬ t.Deleted 0) ∧
    ¬ (AllStates step Identity init lowerCase ∧ SameObject lowerCase) := by
  have hrun : (run step init lowerCase).any (fun t =>
      t.shared.service.events = [.deviceAdded 0, .deviceAdded 1] ∧
      (t.shared.service.dev 0).id = "10.67C6697351FF.8D" ∧
      (t.shared.service.dev 1).id = "10.67C6697351FF.8D" ∧
      t.shared.service.devices.get? "10.67C6697351FF.8D" = some 1 ∧
      0 < t.shared.service.nextDev ∧ ¬ t.Deleted 0) = true := by decide +kernel
  obtain ⟨t, ht, hstate⟩ := (Option.any_eq_true _ _).mp hrun
  have hstate := of_decide_eq_true hstate
  refine ⟨⟨t, ht, hstate⟩, fun hall => ?_⟩
  obtain ⟨-, hid, -, hget, hborn, hdel⟩ := hstate
  have hkept := (hall.1.of_run ht).kept 0 hborn hdel
  rw [hid, hget] at hkept
  contradiction

end Tasks

end AsyncOwfs
