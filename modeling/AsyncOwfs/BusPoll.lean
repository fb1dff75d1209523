import AsyncOwfs.Lib.Dict
import Mathlib.Algebra.GroupWithZero.Nat
import Mathlib.Data.List.Induction
import Mathlib.Data.Nat.Basic
import Mathlib.Order.Lattice

/-!
# AsyncOwfs.BusPoll

`Bus.update_poll`: which polls a bus runs, and how often.

The intervals and jitters of all devices are collected anew in every call.  What has
been collected is merged into the dictionaries that `_poll` reads, which forget
nothing: an interval is replaced whenever its poll is wanted, but a jitter stays
when no device gives one any more.
-/

namespace AsyncOwfs

/-- What `polling_interval` returns, unless it is `None`. -/
inductive Interval (α : Type u)
  | number (i : α)
  | pair (i j : α)
  deriving DecidableEq

namespace Interval

variable {α : Type u}

/-- `i, j = i`, or `j = None` -/
def split : Interval α → α × Option α
  | .number i => (i, none)
  | .pair i j => (i, some j)

def interval (x : Interval α) : α := x.split.1

def jitter (x : Interval α) : Option α := x.split.2

end Interval

/-- A device of the bus: its `polling_items`, with the `polling_interval` of each. -/
abbrev PolledDevice (α : Type u) := List (String × Option (Interval α))

/-- What is collected from the devices. -/
structure Collected (α : Type u) where
  items : List String := []
  intervals : Dict String α := ∅
  randoms : Dict String α := ∅

/-- The state of a bus, as far as its polls are concerned. -/
structure BusPoll (α : Type u) where
  /-- `_tasks` -/
  tasks : Dict String Nat := ∅
  /-- `_intervals` -/
  intervals : Dict String α := ∅
  /-- `_random` -/
  random : Dict String α := ∅
  /-- The tasks that have been started and not cancelled. -/
  running : List Nat := []
  nextTask : Nat := 0

section Update

variable {α : Type u} [LinearOrder α]

namespace Collected

/-- The innermost part of the loop. -/
def add (c : Collected α) (e : String × Option (Interval α)) : Collected α :=
  match e with
  | (_, none) => c
  | (k, some x) =>
    let (i, j) := x.split
    { items := if k ∈ c.items then c.items else c.items ++ [k]
      intervals := c.intervals.set k (min ((c.intervals.get? k).getD i) i)
      randoms :=
        match j with
        | none => c.randoms
        | some j => c.randoms.set k (min ((c.randoms.get? k).getD j) j) }

end Collected

/-- The loop over the devices. -/
def collect (devices : List (PolledDevice α)) : Collected α :=
  devices.foldl (fun c dev => dev.foldl Collected.add c) {}

namespace BusPoll

/-- `j = self._tasks.pop(x)`, `await j.cancel()` -/
def stop (s : BusPoll α) (x : String) : BusPoll α :=
  { s with
    tasks := s.tasks.erase x
    running := s.running.filter fun t => s.tasks.get? x ≠ some t }

/-- A task for `x`, if there is none. -/
def start (s : BusPoll α) (x : String) : BusPoll α :=
  if x ∈ s.tasks.keys then s
  else
    { s with
      tasks := s.tasks.set x s.nextTask
      running := s.running ++ [s.nextTask]
      nextTask := s.nextTask + 1 }

/-- `update_poll` -/
def updatePoll (s : BusPoll α) (devices : List (PolledDevice α)) : BusPoll α :=
  let c := collect devices
  let oldItems := s.tasks.keys.filter (· ∉ c.items)
  let s := oldItems.foldl stop s
  let s := { s with
    intervals := s.intervals.update c.intervals, random := s.random.update c.randoms }
  c.items.foldl start s

/-- A new bus. -/
def init : BusPoll α := {}

/-- What `_poll` reads in front of its next poll: `_intervals[name]` and
`_random.get(name, 0)`. -/
def params [Zero α] (s : BusPoll α) (name : String) : Option (α × α) :=
  (s.intervals.get? name).map fun i => (i, (s.random.get? name).getD 0)

end BusPoll

end Update

/-! ## What the devices ask for -/

section Wanted

variable {α : Type u}

/-- The intervals that the devices give for a poll. -/
def intervalsOf (devices : List (PolledDevice α)) (k : String) : List α :=
  devices.flatten.filterMap fun e => if e.1 = k then e.2.map Interval.interval else none

/-- The jitters that they give. -/
def jittersOf (devices : List (PolledDevice α)) (k : String) : List α :=
  devices.flatten.filterMap fun e => if e.1 = k then e.2.bind Interval.jitter else none

end Wanted

section Tasks

variable {α : Type u}

namespace BusPoll

/-! ## Tasks -/

/-- A task that is stopped leaves `_tasks`. -/
theorem keys_stop (s : BusPoll α) (x k : String) :
    k ∈ (s.stop x).tasks.keys ↔ k ∈ s.tasks.keys ∧ k ≠ x := by
  simp only [Dict.mem_keys, stop, Dict.get?_erase]
  grind

/-- A task that is started enters `_tasks`, if there is none. -/
theorem keys_start (s : BusPoll α) (x k : String) :
    k ∈ (s.start x).tasks.keys ↔ k ∈ s.tasks.keys ∨ k = x := by
  by_cases hx : x ∈ s.tasks.keys
  · rw [start, if_pos hx]
    constructor
    · exact Or.inl
    · rintro (h | rfl)
      · exact h
      · exact hx
  · simp only [start, hx, if_false, Dict.mem_keys, Dict.get?_set]
    by_cases hk : k = x
    · simp [hk]
    · simp [hk]

theorem keys_foldl_stop (xs : List String) (s : BusPoll α) (k : String) :
    k ∈ (xs.foldl stop s).tasks.keys ↔ k ∈ s.tasks.keys ∧ k ∉ xs := by
  induction xs generalizing s with
  | nil => simp
  | cons x xs ih =>
      rw [List.foldl_cons, ih, keys_stop, List.mem_cons, not_or, and_assoc]

theorem keys_foldl_start (xs : List String) (s : BusPoll α) (k : String) :
    k ∈ (xs.foldl start s).tasks.keys ↔ k ∈ s.tasks.keys ∨ k ∈ xs := by
  induction xs generalizing s with
  | nil => simp
  | cons x xs ih =>
      rw [List.foldl_cons, ih, keys_start, List.mem_cons, or_assoc]

/-- Tasks are stopped and started without regard to what they read. -/
theorem foldl_stop_params (xs : List String) (s : BusPoll α) :
    (xs.foldl stop s).intervals = s.intervals ∧ (xs.foldl stop s).random = s.random := by
  induction xs generalizing s with
  | nil => exact ⟨rfl, rfl⟩
  | cons x xs ih => exact ih (s.stop x)

/-- Tasks are started without a change of the parameters. -/
theorem foldl_start_params (xs : List String) (s : BusPoll α) :
    (xs.foldl start s).intervals = s.intervals ∧ (xs.foldl start s).random = s.random := by
  induction xs generalizing s with
  | nil => exact ⟨rfl, rfl⟩
  | cons x xs ih =>
      obtain ⟨hi, hr⟩ := ih (s.start x)
      rw [List.foldl_cons, hi, hr, start]
      split <;> exact ⟨rfl, rfl⟩

/-- The tasks that run are those in `_tasks`, each of them under one name. -/
structure Held (s : BusPoll α) : Prop where
  running : ∀ t, t ∈ s.running ↔ ∃ x, s.tasks.get? x = some t
  once : ∀ x y t, s.tasks.get? x = some t → s.tasks.get? y = some t → x = y
  numbered : ∀ t ∈ s.running, t < s.nextTask

/-- In the beginning there are no tasks. -/
theorem held_init : (init : BusPoll α).Held where
  running t := by simp [init]
  once x y t hx := by simp [init] at hx
  numbered t ht := by simp [init] at ht

/-- A task that is stopped leaves both. -/
theorem held_stop {s : BusPoll α} (h : s.Held) (x : String) : (s.stop x).Held := by
  have hmem (t : Nat) : t ∈ (s.stop x).running ↔ t ∈ s.running ∧ s.tasks.get? x ≠ some t := by
    simp [stop]
  have hget (y : String) : (s.stop x).tasks.get? y = if y = x then none else s.tasks.get? y :=
    Dict.get?_erase ..
  refine ⟨fun t => ?_, fun y z t hy hz => ?_, fun t ht => h.numbered t ((hmem t).mp ht).1⟩
  · rw [hmem, h.running]
    constructor
    · rintro ⟨⟨y, hy⟩, hx⟩
      have hne : y ≠ x := fun heq => hx (heq ▸ hy)
      exact ⟨y, by rw [hget, if_neg hne, hy]⟩
    · rintro ⟨y, hy⟩
      rw [hget] at hy
      split at hy
      · contradiction
      · next hne => exact ⟨⟨y, hy⟩, fun hx => hne (h.once y x t hy hx)⟩
  · rw [hget] at hy hz
    split at hy
    · contradiction
    · split at hz
      · contradiction
      · exact h.once y z t hy hz

/-- A task that is started has a new number, and enters both. -/
theorem held_start {s : BusPoll α} (h : s.Held) (x : String) : (s.start x).Held := by
  rw [start]
  split
  · exact h
  · next hx =>
    have hnone : s.tasks.get? x = none :=
      Option.eq_none_iff_forall_ne_some.mpr fun t ht => hx (Dict.mem_keys.mpr ⟨t, ht⟩)
    have hfresh (y : String) : s.tasks.get? y ≠ some s.nextTask := fun hy =>
      Nat.lt_irrefl _ (h.numbered _ ((h.running _).mpr ⟨y, hy⟩))
    refine ⟨fun t => ?_, fun y z t hy hz => ?_, fun t ht => ?_⟩
    · rw [List.mem_append, List.mem_singleton, h.running]
      simp only [Dict.get?_set]
      constructor
      · rintro (⟨y, hy⟩ | rfl)
        · have hne : y ≠ x := by
            rintro rfl
            rw [hnone] at hy
            contradiction
          exact ⟨y, by rw [if_neg hne, hy]⟩
        · exact ⟨x, if_pos rfl⟩
      · rintro ⟨y, hy⟩
        split at hy
        · exact .inr (Option.some.inj hy).symm
        · exact .inl ⟨y, hy⟩
    · have honce := h.once y z t
      rw [Dict.get?_set] at hy hz
      grind
    · rcases List.mem_append.mp ht with ht | ht
      · exact Nat.lt_succ_of_lt (h.numbered t ht)
      · rw [List.mem_singleton.mp ht]
        exact Nat.lt_succ_self _

end BusPoll

end Tasks

/-! ## One call -/

section Call

variable {α : Type u} [LinearOrder α]

/-- The least of a list, with one more at the end. -/
theorem min?_concat (l : List α) (i : α) : (l ++ [i]).min? = some (min (l.min?.getD i) i) := by
  cases l with
  | nil => simp
  | cons a l =>
      rw [List.cons_append, List.min?_cons', List.min?_cons', List.foldl_append]
      rfl

namespace Collected

variable (c : Collected α) (k k' : String) (x : Interval α)

/-- An interval for an item asks for it. -/
theorem mem_items_add : k ∈ (c.add (k', some x)).items ↔ k = k' ∨ k ∈ c.items := by
  by_cases hk : k' ∈ c.items
  · simp only [add, hk, if_true]
    constructor
    · exact Or.inr
    · rintro (rfl | h)
      · exact hk
      · exact h
  · simp [add, hk, or_comm]

/-- The least interval of an item counts. -/
theorem intervals_add : (c.add (k', some x)).intervals.get? k =
    if k = k' then some (min ((c.intervals.get? k').getD x.interval) x.interval)
    else c.intervals.get? k := Dict.get?_set ..

/-- The least jitter of an item counts, if it has one. -/
theorem randoms_add : (c.add (k', some x)).randoms.get? k =
    if k = k' then (x.jitter.map fun j => min ((c.randoms.get? k').getD j) j).or (c.randoms.get? k')
    else c.randoms.get? k := by
  cases x with
  | number i =>
      have hsame : (c.add (k', some (.number i))).randoms = c.randoms := rfl
      rw [hsame]
      split
      · next hk => rw [hk]; rfl
      · rfl
  | pair i j => exact Dict.get?_set ..

end Collected

/-- The loop over the devices is one over what they say. -/
theorem collect_eq (devices : List (PolledDevice α)) :
    collect devices = devices.flatten.foldl Collected.add {} := by
  rw [collect, List.foldl_flatten]

/-- **What is collected** are the least intervals and the least jitters. -/
theorem collect_spec (devices : List (PolledDevice α)) (k : String) :
    (k ∈ (collect devices).items ↔ intervalsOf devices k ≠ []) ∧
      (collect devices).intervals.get? k = (intervalsOf devices k).min? ∧
      (collect devices).randoms.get? k = (jittersOf devices k).min? := by
  rw [collect_eq, intervalsOf, jittersOf]
  generalize devices.flatten = es
  induction es using List.reverseRecOn with
  | nil => simp
  | append_singleton es e ih =>
      obtain ⟨hitems, hintervals, hrandoms⟩ := ih
      rw [List.foldl_append, List.filterMap_append, List.filterMap_append]
      obtain ⟨k', x⟩ := e
      cases x with
      | none =>
          simp only [List.filterMap_cons, List.filterMap_nil, Option.map_none, Option.bind_none,
            ite_self, List.append_nil]
          exact ⟨hitems, hintervals, hrandoms⟩
      | some x =>
          rw [List.foldl_cons, List.foldl_nil, Collected.mem_items_add, Collected.intervals_add,
            Collected.randoms_add]
          by_cases hk : k = k'
          · subst hk
            rw [hintervals, hrandoms]
            cases hj : x.jitter with
            | none => simp [hj, min?_concat]
            | some j => simp [hj, min?_concat]
          · have hk' : k' ≠ k := fun h => hk h.symm
            simp only [hk, hk', false_or, if_false, List.filterMap_cons, List.filterMap_nil,
              List.append_nil]
            exact ⟨hitems, hintervals, hrandoms⟩

namespace BusPoll

/-- **One call**: the tasks are those that are asked for now, and so are the intervals.
A jitter is kept where there is no new one. -/
theorem updatePoll_spec (s : BusPoll α) (devices : List (PolledDevice α)) (k : String) :
    (k ∈ (s.updatePoll devices).tasks.keys ↔ intervalsOf devices k ≠ []) ∧
      (s.updatePoll devices).intervals.get? k =
        (intervalsOf devices k).min?.or (s.intervals.get? k) ∧
      (s.updatePoll devices).random.get? k = (jittersOf devices k).min?.or (s.random.get? k) := by
  obtain ⟨hitems, hintervals, hrandoms⟩ := collect_spec devices k
  rw [updatePoll]
  refine ⟨?_, ?_, ?_⟩
  · rw [keys_foldl_start, keys_foldl_stop, List.mem_filter, ← hitems, decide_eq_true_eq]
    grind
  · rw [(foldl_start_params ..).1, Dict.get?_update, hintervals, (foldl_stop_params ..).1]
  · rw [(foldl_start_params ..).2, Dict.get?_update, hrandoms, (foldl_stop_params ..).2]

/-- A call neither loses a task that goes on running nor starts a poll twice. -/
theorem held_updatePoll {s : BusPoll α} (h : s.Held) (devices : List (PolledDevice α)) :
    (s.updatePoll devices).Held := by
  have hstop (xs : List String) : ∀ s : BusPoll α, s.Held → (xs.foldl stop s).Held := by
    induction xs with
    | nil => exact fun _ h => h
    | cons x xs ih => exact fun s h => ih _ (held_stop h x)
  have hstart (xs : List String) : ∀ s : BusPoll α, s.Held → (xs.foldl start s).Held := by
    induction xs with
    | nil => exact fun _ h => h
    | cons x xs ih => exact fun s h => ih _ (held_start h x)
  have hstopped := hstop (s.tasks.keys.filter (· ∉ (collect devices).items)) s h
  exact hstart _ _ ⟨hstopped.running, hstopped.once, hstopped.numbered⟩

/-! ## Histories -/

/-- The bus behind a sequence of calls. -/
def after (calls : List (List (PolledDevice α))) : BusPoll α := calls.foldl updatePoll init

theorem after_concat (calls : List (List (PolledDevice α))) (devices : List (PolledDevice α)) :
    after (calls ++ [devices]) = (after calls).updatePoll devices := by
  rw [after, List.foldl_append]
  rfl

/-- **In every history**, the tasks that run are those in `_tasks`. -/
theorem held_after (calls : List (List (PolledDevice α))) : (after calls).Held := by
  induction calls using List.reverseRecOn with
  | nil => exact held_init
  | append_singleton calls devices ih =>
      rw [after_concat]
      exact held_updatePoll ih devices

/-- The least jitter of the last call in which any device has given one. -/
def lastJitter (calls : List (List (PolledDevice α))) (k : String) : Option α :=
  calls.foldl (fun j devices => (jittersOf devices k).min?.or j) none

/-- **The jitter of an item** is that of the last call that has one. -/
theorem random_after (calls : List (List (PolledDevice α))) (k : String) :
    (after calls).random.get? k = lastJitter calls k := by
  induction calls using List.reverseRecOn with
  | nil => rfl
  | append_singleton calls devices ih =>
      rw [after_concat, (updatePoll_spec ..).2.2, ih, lastJitter, lastJitter, List.foldl_append]
      rfl

variable [Zero α]

/-- The bus runs the polls that these devices ask for, at the least interval and with the
least jitter that they give. -/
structure Follows (s : BusPoll α) (devices : List (PolledDevice α)) : Prop where
  tasks : ∀ k, k ∈ s.tasks.keys ↔ intervalsOf devices k ≠ []
  params : ∀ k ∈ s.tasks.keys, s.params k =
    (intervalsOf devices k).min?.map fun i => (i, (jittersOf devices k).min?.getD 0)

/-- No poll is asked for without a jitter that has had one before. -/
def NoneLeft (calls : List (List (PolledDevice α))) (devices : List (PolledDevice α)) : Prop :=
  ∀ k, intervalsOf devices k ≠ [] → jittersOf devices k = [] → (lastJitter calls k).getD 0 = 0

/-- **The past is forgotten** if and only if it has left no jitter behind. -/
theorem follows_iff (calls : List (List (PolledDevice α))) (devices : List (PolledDevice α)) :
    (after (calls ++ [devices])).Follows devices ↔ NoneLeft calls devices := by
  rw [after_concat]
  have htasks (k : String) := (updatePoll_spec (after calls) devices k).1
  have hparams (k : String) (hk : intervalsOf devices k ≠ []) :
      ((after calls).updatePoll devices).params k = (intervalsOf devices k).min?.map fun i =>
        (i, ((jittersOf devices k).min?.or (lastJitter calls k)).getD 0) := by
    obtain ⟨-, hi, hr⟩ := updatePoll_spec (after calls) devices k
    obtain ⟨i, hmin⟩ := Option.isSome_iff_exists.mp (List.isSome_min?_iff.mpr hk)
    rw [params, hi, hr, random_after, hmin]
    rfl
  constructor
  · intro h k hk hj
    have hsame := h.params k ((htasks k).mpr hk)
    obtain ⟨i, hmin⟩ := Option.isSome_iff_exists.mp (List.isSome_min?_iff.mpr hk)
    rw [hparams k hk, hj, hmin] at hsame
    simpa using hsame
  · intro h
    refine ⟨htasks, fun k hk => ?_⟩
    have hk := (htasks k).mp hk
    rw [hparams k hk]
    cases hj : (jittersOf devices k).min? with
    | none => rw [Option.none_or, h k hk (List.min?_eq_none_iff.mp hj)]; rfl
    | some j => rfl

/-- A bus that follows its devices does what a new bus does. -/
theorem Follows.eq_fresh {s : BusPoll α} {devices : List (PolledDevice α)} (h : s.Follows devices)
    (k : String) : (k ∈ s.tasks.keys ↔ k ∈ (init.updatePoll devices).tasks.keys) ∧
      (k ∈ s.tasks.keys → s.params k = (init.updatePoll devices).params k) := by
  have hfresh : (init.updatePoll devices).Follows devices :=
    (follows_iff [] devices).mpr fun _ _ _ => rfl
  refine ⟨(h.tasks k).trans (hfresh.tasks k).symm, fun hk => ?_⟩
  rw [h.params k hk, hfresh.params k ((hfresh.tasks k).mpr ((h.tasks k).mp hk))]

/-- A thermometer that has been polled with some jitter, and is now polled without. -/
theorem not_follows_steady :
    (after [[[("temperature", some (.pair 10 4))]], [[("temperature", some (.number 10))]]]).params
      "temperature" = some (10, 4) ∧
    ¬ (after [[[("temperature", some (.pair 10 4))]],
      [[("temperature", some (.number 10))]]]).Follows [[("temperature", some (.number 10))]] := by
  have hparams : (after [[[("temperature", some (.pair 10 4))]],
      [[("temperature", some (.number 10))]]]).params "temperature" = some (10, 4) := by decide
  refine ⟨hparams, fun h => ?_⟩
  have hsame := h.params "temperature" (by decide)
  rw [hparams] at hsame
  revert hsame
  decide

end BusPoll

end Call

end AsyncOwfs
