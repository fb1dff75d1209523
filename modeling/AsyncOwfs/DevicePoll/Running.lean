import AsyncOwfs.DevicePoll
import Mathlib.Data.NNRat.Lemmas

/-!
# AsyncOwfs.DevicePoll.Running

Which poll tasks run: on a device that is located, one for every path with an
interval that the bus does not poll for.

That is so for as long as every path is spelled the same way in all calls,
intervals for the bus are set while the device is located, and a path that is
used before the device is located can be spelled as a string.
-/

namespace AsyncOwfs

open Hoare Transition

namespace PollTable

/-- The intervals of the tasks that run for a path. -/
def running (s : PollTable) (p : String) : List ℚ≥0 :=
  (s.tasks.filter (·.path = p)).map (·.value)

/-- The intervals of the tasks that should run for a path. -/
def wanted (A : Accessors) (s : PollTable) (p : String) : List ℚ≥0 :=
  if A.hasPoll p then [] else ((s.intervals.get? p).filter (0 < ·)).toList

/-- No other spelling of the path is in use for a task. -/
def Alone (s : PollTable) (typ : Typ) : Prop :=
  ∀ k ∈ s.poll.keys, k.joined = typ.joined → k = typ

instance (s : PollTable) (typ : Typ) : Decidable (s.Alone typ) :=
  inferInstanceAs (Decidable (∀ k ∈ _, _))

/-- `locate` can start a task for every interval, and will find the ones that
run. -/
def Replayable (A : Accessors) (s : PollTable) : Prop :=
  (∀ p ∈ s.intervals.keys, A.hasPoll p = false ∧ A.Readable (.str p)) ∧
    ∀ k ∈ s.poll.keys, k = .str k.joined

instance (A : Accessors) (s : PollTable) : Decidable (s.Replayable A) :=
  inferInstanceAs (Decidable (_ ∧ _))

/-! ## Tasks and scopes -/

/-- Every task is known under a spelling of its path, and every scope under one
only. -/
structure Tidy (s : PollTable) : Prop where
  known : ∀ t ∈ s.tasks, ∃ k, s.poll.get? k = some t.scope ∧ t.path = k.joined
  inj : ∀ k k' n, s.poll.get? k = some n → s.poll.get? k' = some n → k = k'
  fresh : ∀ k n, s.poll.get? k = some n → n < s.nextScope
  positive : ∀ p v, s.intervals.get? p = some v → 0 < v

/-- No tasks are in order. -/
theorem tidy_empty : Tidy {} := by
  constructor <;> intros <;> contradiction

/-- A task that is cancelled for another path does not matter. -/
theorem running_filter {s s' : PollTable} {n : Nat} {p : String}
    (htasks : s'.tasks = s.tasks.filter (·.scope ≠ n)) (hn : ∀ t ∈ s.tasks, t.path = p → t.scope ≠ n) :
    s'.running p = s.running p := by
  rw [running, running, htasks, List.filter_filter]
  congr 1
  refine List.filter_congr fun t ht => ?_
  by_cases hp : t.path = p
  · simp [hp, hn t ht hp]
  · simp [hp]

/-- No task runs for the path, if none of the tasks has it. -/
theorem running_eq_nil {s : PollTable} {p : String} (h : ∀ t ∈ s.tasks, t.path ≠ p) :
    s.running p = [] := by
  rw [running, List.map_eq_nil_iff, List.filter_eq_nil_iff]
  intro t ht hp
  exact h t ht (by simpa using hp)

/-- Whatever runs for a path that has one spelling only is known under it. -/
theorem Tidy.scope_of_alone {s : PollTable} (hs : s.Tidy) {typ : Typ} (halone : s.Alone typ)
    {t : PollTask} (ht : t ∈ s.tasks) (hp : t.path = typ.joined) :
    s.poll.get? typ = some t.scope := by
  obtain ⟨k, hk, hkp⟩ := hs.known t ht
  have hkt := halone k (Dict.mem_keys.mpr ⟨_, hk⟩) (hkp.symm.trans hp)
  exact hkt ▸ hk

/-- **The task of a type** is cancelled, and leaves the table. -/
theorem stopTask_spec {s : PollTable} (typ : Typ) (hs : s.Tidy) :
    wp (stopTask typ)
      (fun _ s' => s'.Tidy ∧ s'.intervals = s.intervals ∧
        (∀ k, s'.poll.get? k = if k = typ then none else s.poll.get? k) ∧
        (s.Alone typ → ∀ p, s'.running p = if p = typ.joined then [] else s.running p))
      (fun _ _ => False) s := by
  simp only [stopTask, wp_bind, wp_get]
  cases hget : s.poll.get? typ with
  | none =>
      refine ⟨hs, rfl, fun k => ?_, fun halone p => ?_⟩
      · split
        · next hk => rw [hk, hget]
        · rfl
      · split
        · next hp =>
          subst hp
          refine running_eq_nil fun t ht hp => ?_
          have h := hs.scope_of_alone halone ht hp
          rw [hget] at h
          contradiction
        · rfl
  | some n =>
      simp only [wp_bind, wp_modify, cancel]
      have hpoll : ∀ k, (s.poll.erase typ).get? k = if k = typ then none else s.poll.get? k :=
        Dict.get?_erase s.poll typ
      refine ⟨⟨fun t ht => ?_, fun k k' m hk hk' => ?_, fun k m hk => ?_, hs.positive⟩,
        trivial, hpoll, fun halone p => ?_⟩
      · obtain ⟨ht, htn⟩ := List.mem_filter.mp ht
        obtain ⟨k, hk, hkp⟩ := hs.known t ht
        refine ⟨k, ?_, hkp⟩
        rw [hpoll, if_neg, hk]
        rintro rfl
        rw [hget, Option.some.injEq] at hk
        simp [hk] at htn
      · rw [hpoll] at hk hk'
        split at hk
        · contradiction
        · split at hk'
          · contradiction
          · exact hs.inj k k' m hk hk'
      · rw [hpoll] at hk
        split at hk
        · contradiction
        · exact hs.fresh k m hk
      · split
        · next hp =>
          subst hp
          refine running_eq_nil fun t ht hp => ?_
          obtain ⟨ht, htn⟩ := List.mem_filter.mp ht
          have h := hs.scope_of_alone halone ht hp
          rw [hget, Option.some.injEq] at h
          simp [h] at htn
        · next hp =>
          refine running_filter rfl fun t ht htp htn => hp ?_
          -- a task with this scope has this path
          obtain ⟨k, hk, hkp⟩ := hs.known t ht
          have hkt := hs.inj k typ n (htn ▸ hk) hget
          rw [← htp, hkp, hkt]

/-- **A new task** enters the table, or the type has no accessor. -/
theorem startTask_spec {A : Accessors} {s : PollTable} {typ : Typ} {value : ℚ≥0} (hs : s.Tidy)
    (hnone : s.poll.get? typ = none) :
    wp (startTask A typ value)
      (fun _ s' => s'.Tidy ∧ s'.intervals = s.intervals ∧
        (∀ k, s'.poll.get? k ≠ none → k = typ ∨ s.poll.get? k ≠ none) ∧
        ∀ p, s'.running p = if p = typ.joined then s.running p ++ [value] else s.running p)
      (fun _ s' => s' = s ∧ ¬ A.Readable typ) s := by
  rw [startTask]
  cases hcheck : A.check typ with
  | error e => exact ⟨rfl, fun hread => by simp [Accessors.Readable, hcheck] at hread⟩
  | ok _ =>
      rw [wp_modify]
      have hpoll : ∀ k, (s.poll.set typ s.nextScope).get? k =
          if k = typ then some s.nextScope else s.poll.get? k := Dict.get?_set s.poll typ s.nextScope
      refine ⟨⟨fun t ht => ?_, fun k k' m hk hk' => ?_, fun k m hk => ?_, hs.positive⟩,
        rfl, fun k hk => ?_, fun p => ?_⟩
      · rcases List.mem_append.mp ht with ht | ht
        · obtain ⟨k, hk, hkp⟩ := hs.known t ht
          refine ⟨k, ?_, hkp⟩
          rw [hpoll, if_neg, hk]
          rintro rfl
          rw [hnone] at hk
          contradiction
        · rw [List.mem_singleton] at ht
          subst ht
          refine ⟨typ, ?_, rfl⟩
          rw [hpoll, if_pos rfl]
      · rw [hpoll] at hk hk'
        split at hk <;> split at hk'
        · next h h' => rw [h, h']
        · -- no old task has the new scope
          rw [Option.some.injEq] at hk
          have := hs.fresh k' m hk'
          omega
        · rw [Option.some.injEq] at hk'
          have := hs.fresh k m hk
          omega
        · exact hs.inj k k' m hk hk'
      · show m < s.nextScope + 1
        rw [hpoll] at hk
        split at hk
        · rw [Option.some.injEq] at hk
          omega
        · exact Nat.lt_succ_of_lt (hs.fresh k m hk)
      · rw [hpoll] at hk
        split at hk
        · next h => exact .inl h
        · exact .inr hk
      · rw [running, running, List.filter_append, List.map_append]
        split
        · next hp => simp [hp]
        · next hp => simp [Ne.symm hp]

/-- **A task is set**: where the path has no other spelling, it runs with the
interval, and alone. -/
theorem setPollTask_spec {A : Accessors} {s : PollTable} (typ : Typ) (value : ℚ≥0)
    (hs : s.Tidy) :
    wp (setPollTask A typ value)
      (fun _ s' => s'.Tidy ∧ s'.intervals = s.intervals ∧
        (∀ k, s'.poll.get? k ≠ none → k = typ ∨ s.poll.get? k ≠ none) ∧
        (s.Alone typ → ∀ p, s'.running p =
          if p = typ.joined then (if value = 0 then [] else [value]) else s.running p))
      (fun _ s' => s'.Tidy ∧ ¬ (value = 0 ∨ A.Readable typ)) s := by
  rw [setPollTask]
  refine wp_seq (wp_mono (stopTask_spec typ hs) (fun _ _ h => h) (fun _ _ h => h.elim))
    fun _ s₁ h₁ => ?_
  obtain ⟨hs₁, hint₁, hpoll₁, hrun₁⟩ := h₁
  have hkeys : ∀ k, s₁.poll.get? k ≠ none → k = typ ∨ s.poll.get? k ≠ none := by
    intro k hk
    rw [hpoll₁] at hk
    split at hk
    · next h => exact .inl h
    · exact .inr hk
  by_cases hv : value = 0
  · simp only [if_pos hv]
    exact ⟨hs₁, hint₁, hkeys, hrun₁⟩
  · simp only [if_neg hv]
    have hnone : s₁.poll.get? typ = none := by rw [hpoll₁, if_pos rfl]
    refine wp_mono (startTask_spec hs₁ hnone) (fun _ s₂ h₂ => ?_) (fun _ s₂ h₂ => ?_)
    · obtain ⟨hs₂, hint₂, hpoll₂, hrun₂⟩ := h₂
      refine ⟨hs₂, hint₂.trans hint₁, fun k hk => ?_, fun halone p => ?_⟩
      · exact (hpoll₂ k hk).elim .inl (hkeys k)
      · rw [hrun₂, hrun₁ halone]
        split <;> rfl
    · exact ⟨h₂.1 ▸ hs₁, not_or.mpr ⟨hv, h₂.2⟩⟩

/-- An interval is kept under the joined path. -/
theorem setInterval_spec {s : PollTable} (typ : Typ) (value : ℚ≥0) (hs : s.Tidy) :
    wp (setInterval typ value)
      (fun _ s' => s'.Tidy ∧ s'.poll = s.poll ∧ s'.tasks = s.tasks ∧
        ∀ p, s'.intervals.get? p =
          if p = typ.joined then (if value = 0 then none else some value) else s.intervals.get? p)
      (fun _ _ => False) s := by
  rw [setInterval, wp_modify]
  generalize hi : (if value > 0 then s.intervals.set typ.joined value
    else s.intervals.erase typ.joined) = intervals
  have hget : ∀ p, intervals.get? p = if p = typ.joined then
      (if value = 0 then none else some value) else s.intervals.get? p := by
    intro p
    by_cases hv : value = 0
    · rw [if_neg (by simp [hv])] at hi
      rw [← hi, Dict.get?_erase, if_pos hv]
    · have hpos : value > 0 := pos_iff_ne_zero.mpr hv
      rw [if_pos hpos] at hi
      rw [← hi, Dict.get?_set, if_neg hv]
  refine ⟨⟨hs.known, hs.inj, hs.fresh, fun p v h => ?_⟩, rfl, rfl, hget⟩
  rw [hget] at h
  split at h
  · split at h
    · contradiction
    · next hv =>
      have hpos : 0 < value := pos_iff_ne_zero.mpr hv
      rw [Option.some.injEq] at h
      exact h ▸ hpos
  · exact hs.positive p v h

/-- Without an interval, nothing is wanted. -/
theorem wanted_of_none {A : Accessors} {s : PollTable} {p : String}
    (h : s.intervals.get? p = none) : s.wanted A p = [] := by
  rw [wanted, h]
  split <;> rfl

/-- An interval wants one task. -/
theorem wanted_of_some {A : Accessors} {s : PollTable} (hs : s.Tidy) {p : String} {v : ℚ≥0}
    (hp : A.hasPoll p = false) (h : s.intervals.get? p = some v) : s.wanted A p = [v] := by
  simp [wanted, hp, h, Option.filter, hs.positive p v h]

/-- All types get their tasks again. -/
theorem tidy_replay (A : Accessors) : Keeps Tidy (replay A) := by
  intro s hs
  rw [replay, wp_bind, wp_get]
  refine KeepsOr.forM (fun e s hs => ?_) s.intervals.entries s hs
  exact wp_mono (setPollTask_spec (.str e.1) e.2 hs) (fun _ _ h => h.1) (fun _ _ h => h.1)

/-- **The replay**: the intervals are gone through one by one. -/
theorem replay_spec {A : Accessors} {s : PollTable} (hs : s.Tidy) (hr : s.Replayable A)
    (hstart : ∀ p, s.intervals.get? p = none → s.running p = []) :
    wp (replay A)
      (fun _ s' => s'.Tidy ∧ s'.intervals = s.intervals ∧ ∀ p, s'.running p = s.wanted A p)
      (fun _ _ => False) s := by
  have hentry : ∀ e ∈ s.intervals.entries, s.intervals.get? e.1 = some e.2 :=
    fun e he => Dict.get?_of_mem he
  -- what is behind runs with its interval; what is ahead will be replaced
  have hloop := wp_forM (f := fun e => setPollTask A (.str e.1) e.2) (E := fun _ _ => False)
    (I := fun rest s' => (∀ e ∈ rest, e ∈ s.intervals.entries) ∧ s'.Tidy ∧
      s'.intervals = s.intervals ∧ (∀ k, s'.poll.get? k ≠ none → k = .str k.joined) ∧
      ∀ p, p ∉ rest.map Prod.fst → s'.running p = (s.intervals.get? p).toList)
    (l := s.intervals.entries) (s := s)
    ⟨fun _ he => he, hs, rfl, fun k hk => ?_, fun p hp => ?_⟩ ?_
  · rw [replay, wp_bind, wp_get]
    refine wp_mono hloop (fun _ s' h => ?_) (fun _ _ h => h)
    obtain ⟨-, hs', hint, -, hrun⟩ := h
    refine ⟨hs', hint, fun p => ?_⟩
    rw [hrun p List.not_mem_nil]
    cases hget : s.intervals.get? p with
    | none => rw [wanted_of_none hget]; rfl
    | some v => rw [wanted_of_some hs (hr.1 p (Dict.mem_keys.mpr ⟨v, hget⟩)).1 hget]; rfl
  · obtain ⟨n, hn⟩ := Option.ne_none_iff_exists'.mp hk
    exact hr.2 k (Dict.mem_keys.mpr ⟨n, hn⟩)
  · have hget : s.intervals.get? p = none := by
      rw [Option.eq_none_iff_forall_ne_some]
      intro v hv
      exact hp (Dict.mem_keys.mpr ⟨v, hv⟩)
    rw [hget, hstart p hget]
    rfl
  · rintro e rest s₁ ⟨hrest, hs₁, hint₁, hkeys₁, hrun₁⟩
    have he := hentry e (hrest e List.mem_cons_self)
    have halone : s₁.Alone (.str e.1) := by
      intro k hk hke
      obtain ⟨n, hn⟩ := Dict.mem_keys.mp hk
      rw [hkeys₁ k (by rw [hn]; exact Option.some_ne_none n), hke]
      rfl
    have hread := (hr.1 e.1 (Dict.mem_keys.mpr ⟨e.2, he⟩)).2
    refine wp_mono (setPollTask_spec (.str e.1) e.2 hs₁) (fun _ s₂ h₂ => ?_)
      (fun _ _ h => h.2 (.inr hread))
    obtain ⟨hs₂, hint₂, hkeys₂, hrun₂⟩ := h₂
    refine ⟨fun x hx => hrest x (List.mem_cons_of_mem e hx), hs₂, hint₂.trans hint₁,
      fun k hk => ?_, fun p hp => ?_⟩
    · rcases hkeys₂ k hk with rfl | h
      · rfl
      · exact hkeys₁ k h
    · rw [hrun₂ halone, Typ.joined]
      by_cases hpe : p = e.1
      · subst hpe
        have hpos := hs.positive e.1 e.2 he
        rw [if_pos rfl, if_neg hpos.ne', he]
        rfl
      · rw [if_neg hpe]
        refine hrun₁ p fun h => ?_
        rcases List.mem_cons.mp h with h | h
        · exact hpe h
        · exact hp h

/-- Cancelling scopes leaves the tasks of the others. -/
theorem cancelAll_spec {s : PollTable} (scopes : List Nat) :
    wp (scopes.forM cancel)
      (fun _ s' => s' = { s with tasks := s.tasks.filter (·.scope ∉ scopes) })
      (fun _ _ => False) s := by
  induction scopes generalizing s with
  | nil =>
      show s = { s with tasks := s.tasks.filter (·.scope ∉ []) }
      simp
  | cons n scopes ih =>
      rw [List.forM, wp_bind, cancel, wp_modify]
      refine wp_mono ih (fun _ s' h => ?_) (fun _ _ h => h)
      rw [h, List.filter_filter]
      congr 1
      refine List.filter_congr fun t _ => ?_
      simp [Bool.and_comm]

/-- **No task is left behind**: all that run are known. -/
theorem dropTasks_spec {s : PollTable} (hs : s.Tidy) :
    wp dropTasks (fun _ s' => s'.Tidy ∧ s'.tasks = [] ∧ s'.intervals = s.intervals)
      (fun _ _ => False) s := by
  rw [dropTasks, wp_bind, wp_get]
  apply wp_seq (cancelAll_spec _)
  intro _ s' h
  have htasks : s'.tasks = [] := by
    rw [h, List.filter_eq_nil_iff]
    intro t ht
    obtain ⟨k, hk, -⟩ := hs.known t ht
    simpa using Dict.mem_values.mpr ⟨k, hk⟩
  have hint : s'.intervals = s.intervals := by rw [h]
  rw [wp_modify]
  refine ⟨⟨fun t ht => ?_, fun k k' n hk => ?_, fun k n hk => ?_, fun p v hv => ?_⟩, htasks, hint⟩
  · exact absurd (htasks ▸ ht) List.not_mem_nil
  · contradiction
  · contradiction
  · exact hs.positive p v (hint ▸ hv)

end PollTable

namespace DevicePoll

/-- The tasks that should run are the ones that do. -/
structure Polled (A : Accessors) (s : DevicePoll) : Prop where
  located : s.bus ≠ none → ∀ p, s.table.running p = s.table.wanted A p
  lost : s.bus = none → s.table.tasks = []

/-- The call does not start, or leave running, what it should not, and starts
what it should. -/
def Orderly (A : Accessors) (s : DevicePoll) : Action → Prop
  | .setPollingInterval typ value =>
    s.bus ≠ none → A.hasPoll typ.joined = false →
      s.table.Alone typ ∧ (value = 0 ∨ A.Readable typ)
  | .locate b | .addDevice b => s.bus ≠ some b → s.table.Replayable A
  | .delocate _ => True

instance (A : Accessors) (s : DevicePoll) (a : Action) : Decidable (s.Orderly A a) := by
  unfold Orderly
  split <;> infer_instance

/-! ## Calls -/

/-- **`set_polling_interval`** starts what is wanted, and nothing else. -/
theorem setPollingInterval_spec {A : Accessors} {s : DevicePoll} {typ : Typ} {value : ℚ≥0}
    (hs : s.table.Tidy) (hp : s.Polled A) (ho : s.Orderly A (.setPollingInterval typ value)) :
    wp (setPollingInterval A typ value) (fun _ s' => s'.table.Tidy ∧ s'.Polled A)
      (fun _ _ => False) s := by
  rw [setPollingInterval, wp_bind, onTable, wp_zoom]
  refine wp_mono (PollTable.setInterval_spec typ value hs) (fun _ t₁ h₁ => ?_) (fun _ _ h => h)
  obtain ⟨ht₁, hpoll₁, htasks₁, hint₁⟩ := h₁
  -- nothing changes for the other paths
  have hother : ∀ t : PollTable, t.intervals = t₁.intervals → ∀ p, p ≠ typ.joined →
      t.wanted A p = s.table.wanted A p := by
    intro t h p hne
    rw [PollTable.wanted, PollTable.wanted, h, hint₁, if_neg hne]
  have hrun₁ : ∀ p, t₁.running p = s.table.running p := by
    intro p
    rw [PollTable.running, htasks₁, PollTable.running]
  rw [wp_bind, wp_get]
  split
  · next hbus =>
    split
    · next hpoll =>
      refine ⟨ht₁, fun _ p => ?_, fun h => absurd h hbus⟩
      show t₁.running p = t₁.wanted A p
      rw [hrun₁, hp.located hbus]
      by_cases hpt : p = typ.joined
      · subst hpt
        rw [PollTable.wanted, PollTable.wanted, if_pos hpoll, if_pos hpoll]
      · exact (hother t₁ rfl p hpt).symm
    · next hpoll =>
      have hpoll : A.hasPoll typ.joined = false := by simpa using hpoll
      obtain ⟨halone, hread⟩ := ho hbus hpoll
      have halone₁ : t₁.Alone typ := by
        rw [PollTable.Alone, hpoll₁]
        exact halone
      rw [onTable, wp_zoom]
      refine wp_mono (PollTable.setPollTask_spec typ value ht₁) (fun _ t₂ h₂ => ?_)
        (fun _ _ h => h.2 hread)
      obtain ⟨ht₂, hint₂, -, hrun₂⟩ := h₂
      refine ⟨ht₂, fun _ p => ?_, fun h => absurd h hbus⟩
      show t₂.running p = t₂.wanted A p
      rw [hrun₂ halone₁]
      by_cases hpt : p = typ.joined
      · subst hpt
        have h := hint₁ typ.joined
        rw [if_pos rfl, ← hint₂] at h
        rw [if_pos rfl]
        split at h
        · next hv => rw [if_pos hv, PollTable.wanted_of_none h]
        · next hv => rw [if_neg hv, PollTable.wanted_of_some ht₂ hpoll h]
      · rw [if_neg hpt, hrun₁, hother t₂ hint₂ p hpt]
        exact hp.located hbus p
  · next hbus =>
    refine ⟨ht₁, fun h => absurd h hbus, fun h => ?_⟩
    show t₁.tasks = []
    rw [htasks₁]
    exact hp.lost h

/-- **`locate`** starts what is wanted. -/
theorem locate_spec {A : Accessors} {s : DevicePoll} {b : BusRef} (hs : s.table.Tidy)
    (hp : s.Polled A) (ho : s.Orderly A (.locate b)) :
    wp (locate A b) (fun _ s' => s'.table.Tidy ∧ s'.Polled A) (fun _ _ => False) s := by
  simp only [locate, wp_bind, wp_get]
  split
  · exact ⟨hs, hp⟩
  · next hbus =>
    have hstart : ∀ p, s.table.intervals.get? p = none → s.table.running p = [] := by
      intro p hget
      by_cases hnone : s.bus = none
      · rw [PollTable.running, hp.lost hnone]
        rfl
      · rw [hp.located hnone, PollTable.wanted_of_none hget]
    rw [wp_bind, wp_modify, onTable, wp_zoom]
    refine wp_mono (PollTable.replay_spec hs (ho hbus) hstart) (fun _ t h => ?_) (fun _ _ h => h)
    obtain ⟨ht, hint, hrun⟩ := h
    refine ⟨ht, fun _ p => ?_, fun h => absurd h (Option.some_ne_none b)⟩
    show t.running p = t.wanted A p
    rw [hrun, PollTable.wanted, PollTable.wanted, hint]

/-- `add_device` starts what is wanted. -/
theorem addDevice_spec {A : Accessors} {s : DevicePoll} {b : BusRef} (hs : s.table.Tidy)
    (hp : s.Polled A) (ho : s.Orderly A (.addDevice b)) :
    wp (addDevice A b) (fun _ s' => s'.table.Tidy ∧ s'.Polled A) (fun _ _ => False) s := by
  rw [addDevice]
  apply wp_seq (locate_spec hs hp ho)
  intro _ s' h
  exact ⟨h.1, h.2.located, h.2.lost⟩

/-- A device that is located elsewhere, or that the bus does not list, keeps
everything. -/
theorem delocate_spec {A : Accessors} {s : DevicePoll} (b : BusRef) (hs : s.table.Tidy)
    (hp : s.Polled A) :
    wp (delocate b) (fun _ s' => s'.table.Tidy ∧ s'.Polled A)
      (fun _ s' => s'.table.Tidy ∧ s'.Polled A) s := by
  simp only [delocate, wp_bind, wp_get]
  split
  · split
    · rw [wp_bind, wp_modify, onTable, wp_zoom]
      apply wp_mono_ok (PollTable.dropTasks_spec hs)
      intro _ t h
      exact ⟨h.1, fun hne => absurd rfl hne, fun _ => h.2.1⟩
    · exact ⟨hs, hp⟩
  · exact ⟨hs, hp⟩

/-! ## Runs -/

/-- A step ends as the call does, whether it raises or not. -/
theorem of_step {A : Accessors} {D : DevicePoll → Prop} {s s' : DevicePoll} {a : Action}
    (hcall : wp (call A a) (fun _ => D) (fun _ => D) s) (h : s.step A a = some s') : D s' := by
  rw [step] at h
  rw [wp] at hcall
  split at h <;> next heq =>
    rw [heq] at hcall
    rw [Option.some.injEq] at h
    exact h ▸ hcall

/-- The table is in order, whatever is called. -/
theorem tidy_step {A : Accessors} {s s' : DevicePoll} {a : Action} (hs : s.table.Tidy)
    (h : s.step A a = some s') : s'.table.Tidy := by
  have hreplay : ∀ b, wp (locate A b) (fun _ s' => s'.table.Tidy) (fun _ s' => s'.table.Tidy) s := by
    intro b
    simp only [locate, wp_bind, wp_get]
    split
    · exact hs
    · rw [wp_bind, wp_modify, onTable, wp_zoom]
      exact PollTable.tidy_replay A s.table hs
  have hcall : wp (call A a) (fun _ s' => s'.table.Tidy) (fun _ s' => s'.table.Tidy) s := by
    cases a with
    | setPollingInterval typ value =>
        rw [call, setPollingInterval, wp_bind, onTable, wp_zoom]
        refine wp_mono (PollTable.setInterval_spec typ value hs) (fun _ t h => ?_)
          (fun _ _ h => h.elim)
        rw [wp_bind, wp_get]
        split
        · split
          · exact h.1
          · rw [onTable, wp_zoom]
            exact wp_mono (PollTable.setPollTask_spec typ value h.1) (fun _ _ h => h.1)
              (fun _ _ h => h.1)
        · exact h.1
    | locate b => exact hreplay b
    | addDevice b =>
        rw [call, addDevice]
        exact wp_seq (hreplay b) fun _ _ h => h
    | delocate b =>
        simp only [call, delocate, wp_bind, wp_get]
        split
        · split
          · rw [wp_bind, wp_modify, onTable, wp_zoom]
            exact wp_mono_ok (PollTable.dropTasks_spec hs) fun _ _ h => h.1
          · exact hs
        · exact hs
  exact of_step hcall h

/-- The table is in order in every state of a run. -/
theorem tidy_run {A : Accessors} {s : DevicePoll} {as : List Action}
    (h : run (step A) init as = some s) : s.table.Tidy :=
  invariant_run (I := fun s => s.table.Tidy) (fun _ _ _ hs h => tidy_step hs h)
    PollTable.tidy_empty h

/-- **One orderly step** leaves what is wanted running. -/
theorem polled_step {A : Accessors} {s s' : DevicePoll} {a : Action}
    (hs : s.table.Tidy ∧ s.Polled A) (ho : s.Orderly A a) (h : s.step A a = some s') :
    s'.table.Tidy ∧ s'.Polled A := by
  have hcall : wp (call A a) (fun _ s' => s'.table.Tidy ∧ s'.Polled A)
      (fun _ s' => s'.table.Tidy ∧ s'.Polled A) s := by
    cases a with
    | setPollingInterval typ value =>
        exact wp_mono_ok (setPollingInterval_spec hs.1 hs.2 ho) (fun _ _ h => h)
    | locate b => exact wp_mono_ok (locate_spec hs.1 hs.2 ho) (fun _ _ h => h)
    | addDevice b => exact wp_mono_ok (addDevice_spec hs.1 hs.2 ho) (fun _ _ h => h)
    | delocate b => exact delocate_spec b hs.1 hs.2
  exact of_step hcall h

/-- **The poll tasks are what the intervals ask for**, in every run whose calls
are all orderly. -/
theorem polled_of_orderly (A : Accessors) (as : List Action)
    (h : AllSteps (step A) (Orderly A) init as) : AllStates (step A) (Polled A) init as := by
  have hinit : init.table.Tidy ∧ init.Polled A :=
    ⟨PollTable.tidy_empty, fun h => absurd rfl h, fun _ => rfl⟩
  have hall := guarded_allStates (I := fun s => s.table.Tidy ∧ s.Polled A)
    (fun s a s' hs ho h => polled_step hs ho h) hinit h
  exact hall.imp fun s hs => hs.2

/-- A device with an array `volt`, whose elements have letters for names, and the
property `volt_all`; the bus polls for `voltage`. -/
def voltmeter : Accessors where
  Obj := Bool
  self := false
  getattr s n := if s = false ∧ n = "volt" then some true else none
  getitem s _ := if s then some true else none
  hasGet s n := s = false ∧ (n = "volt" ∨ n = "volt_all")
  hasPoll p := p = "voltage" ∨ p = "alarm"

/-- An interval that is set before the device is located, changed behind that,
kept when the device moves, and dropped. -/
theorem polled_volt_all :
    let as : List Action := [.setPollingInterval (.str "volt_all") 5, .addDevice ⟨0, ["bus.0"]⟩,
      .setPollingInterval (.str "volt_all") 7, .addDevice ⟨0, ["bus.1"]⟩, .delocate ⟨0, ["bus.1"]⟩,
      .setPollingInterval (.tuple [.name "volt_all"]) 0, .locate ⟨0, ["bus.0"]⟩,
      .setPollingInterval (.tuple [.name "volt", .index 2]) 3]
    AllStates (step voltmeter) (Polled voltmeter) init as :=
  polled_of_orderly voltmeter _ (by decide +kernel)

/-- A device with the property `temperature`, for which the bus polls. -/
def thermometer : Accessors where
  Obj := Unit
  self := ()
  getattr _ _ := none
  getitem _ _ := none
  hasGet _ n := n = "temperature" ∨ n = "latesttemp"
  hasPoll p := p = "temperature" ∨ p = "alarm"

/-- One path is enough. -/
theorem not_allStates_polled {A : Accessors} {as : List Action} (p : String)
    (h : (Transition.run (step A) init as).any
      (fun s => s.bus ≠ none ∧ s.table.running p ≠ s.table.wanted A p) = true) :
    ¬ AllStates (step A) (Polled A) init as := by
  intro hall
  obtain ⟨s, hs, hne⟩ := (Option.any_eq_true _ _).mp h
  obtain ⟨hbus, hne⟩ := of_decide_eq_true hne
  exact hne ((hall.of_run hs).located hbus p)

/-- One path in two spellings has two tasks; an index is not found again when the
device is located; and what the bus polls for is then polled by the device, too. -/
theorem not_polled_spellings :
    let b : BusRef := ⟨0, ["bus.0"]⟩
    let index : Typ := .tuple [.name "volt", .index 2]
    ¬ AllStates (step voltmeter) (Polled voltmeter) init [.addDevice b,
      .setPollingInterval (.tuple [.name "volt_all"]) 5,
      .setPollingInterval (.str "volt_all") 7] ∧
    ¬ AllStates (step voltmeter) (Polled voltmeter) init
      [.setPollingInterval index 5, .addDevice b] ∧
    ¬ AllStates (step thermometer) (Polled thermometer) init
      [.setPollingInterval (.str "temperature") 5, .addDevice b] := by
  intro b index
  refine ⟨not_allStates_polled "volt_all" ?_, not_allStates_polled "volt/2" ?_,
    not_allStates_polled "temperature" ?_⟩
  all_goals decide +kernel

end DevicePoll

end AsyncOwfs
