import AsyncOwfs.Scanner

/-!
# AsyncOwfs.Scanner.Single

When a server has one background scanner.

`start_scan` saves its arguments before it looks at them, and it does not stop
the task of an earlier call.  So there is one scanner, with the right arguments,
for as long as every call that can start one finds none there or on its way, and
no connection comes up with the arguments of a call that has raised or that is
going to start a task of its own.
-/

namespace AsyncOwfs

namespace Scanner

open Transition

/-- At most one `_scan` task lives, with the arguments of the latest call that has
not raised. -/
def OneScanner (s : Scanner) : Prop :=
  s.scans.length ≤ 1 ∧
    ∀ n ∈ s.scans, ∃ m < s.nextCall, s.Latest m ∧ s.args m = s.args n

instance (s : Scanner) : Decidable s.OneScanner := inferInstanceAs (Decidable (_ ∧ _))

/-- A connection comes up with the arguments of the latest call that has not
raised. -/
def Unaffected (s : Scanner) : Action → Prop
  | .comesUp => ∀ n ∈ s.saved, ∃ m < s.nextCall, s.Latest m ∧ s.args m = s.args n
  | _ => True

instance (s : Scanner) (a : Action) : Decidable (s.Unaffected a) := by
  unfold Unaffected
  split <;> infer_instance

/-- No call is in its initial scan and will start a scanner behind that. -/
def Idle (s : Scanner) : Prop :=
  ∀ n < s.nextCall, s.call n = .running → ¬ (s.args n).Background

instance (s : Scanner) : Decidable s.Idle := inferInstanceAs (Decidable (∀ n < _, _))

/-- A call that is not refused finds no scanner and none on its way; and a
connection comes up with the arguments of a call that has not raised, and finds no
scanner and none on its way if it is going to start one. -/
def Orderly (s : Scanner) : Action → Prop
  | .startScan a _ => a.Refused ∨ s.scans = [] ∧ s.spawned = [] ∧ s.Idle
  | .comesUp =>
    ∀ n ∈ s.saved, s.call n ≠ .raised ∧ ((s.args n).Background → s.scans = [] ∧ s.Idle)
  | _ => True

instance (s : Scanner) (a : Action) : Decidable (s.Orderly a) := by
  unfold Orderly
  split <;> infer_instance

/-! ## The latest call -/

/-- There is one latest call. -/
theorem Latest.unique {s : Scanner} {n m : Nat} (hn : s.Latest n) (hm : s.Latest m) : n = m := by
  rcases Nat.lt_trichotomy n m with h | h | h
  · exact absurd (hn.2.2 m hm.1 h) hm.2.1
  · exact h
  · exact absurd (hm.2.2 n hn.1 h) hn.2.1

/-- The call is the latest one, unless it has raised. -/
def Current (s : Scanner) (n : Nat) : Prop := n < s.nextCall ∧ (s.call n ≠ .raised → s.Latest n)

/-- A new call is the latest, unless it raises, and then nothing changes. -/
theorem Latest.called {s s' : Scanner} {n : Nat} (hn : s.Latest n)
    (hnext : s'.nextCall = s.nextCall + 1)
    (hcall : s'.call = Function.update s.call s.nextCall .raised) : s'.Latest n := by
  obtain ⟨hlt, hne, hafter⟩ := hn
  refine ⟨by omega, ?_, fun m hm hnm => ?_⟩
  · rwa [hcall, Function.update_of_ne (by omega)]
  · rw [hcall]
    by_cases h : m = s.nextCall
    · rw [h, Function.update_self]
    · rw [Function.update_of_ne h]
      exact hafter m (by omega) hnm

/-- A call that raises at once leaves the current one alone. -/
theorem Current.called {s s' : Scanner} {n : Nat} (hn : s.Current n)
    (hnext : s'.nextCall = s.nextCall + 1)
    (hcall : s'.call = Function.update s.call s.nextCall .raised) : s'.Current n := by
  obtain ⟨hlt, hlatest⟩ := hn
  refine ⟨by omega, fun hne => (hlatest ?_).called hnext hcall⟩
  rwa [hcall, Function.update_of_ne (by omega)] at hne

/-- A call is over: the latest one is still that, unless it has raised. -/
theorem Latest.ended {s s' : Scanner} {n m : Nat} {c : ScanCall} (hm : s.Latest m)
    (hr : s.call n = .running) (hn : n < s.nextCall) (hnext : s'.nextCall = s.nextCall)
    (hcall : s'.call = Function.update s.call n c) (hc : m = n → c = .returned) :
    s'.Latest m := by
  obtain ⟨hlt, hne, hafter⟩ := hm
  have hle : n ≤ m := by
    by_contra h
    have hraised := hafter n hn (by omega)
    rw [hr] at hraised
    contradiction
  refine ⟨by omega, ?_, fun k hk hmk => ?_⟩
  · rw [hcall]
    by_cases h : m = n
    · rw [h, Function.update_self, hc h]
      simp
    · rwa [Function.update_of_ne h]
  · rw [hcall, Function.update_of_ne (by omega)]
    exact hafter k (by omega) hmk

/-- The end of another call leaves the current one alone. -/
theorem Current.ended {s s' : Scanner} {n m : Nat} {c : ScanCall} (hm : s.Current m)
    (hr : s.call n = .running) (hn : n < s.nextCall) (hnext : s'.nextCall = s.nextCall)
    (hcall : s'.call = Function.update s.call n c) (hc : c = .returned ∨ c = .raised) :
    s'.Current m := by
  refine ⟨hnext ▸ hm.1, fun hne => ?_⟩
  have hold : s.call m ≠ .raised := by
    by_cases h : m = n
    · simp [h, hr]
    · rwa [hcall, Function.update_of_ne h] at hne
  refine (hm.2 hold).ended hr hn hnext hcall fun h => hc.resolve_right fun hc => hne ?_
  rw [hcall, h, Function.update_self, hc]

/-! ## One scanner -/

/-- A scanner lives, or is on its way, or a call may still start one. -/
structure Single (s : Scanner) : Prop where
  one : s.scans.length ≤ 1
  pending : s.spawned.length ≤ 1
  scans : ∀ n ∈ s.scans, s.Latest n ∧ s.call n ≠ .running
  saved : ∀ n ∈ s.saved, s.Current n
  spawned : ∀ n ∈ s.spawned, s.Current n ∧
    ((s.args n).Background → s.call n ≠ .raised ∧ s.scans = [] ∧ s.Idle)
  running : ∀ n < s.nextCall, s.call n = .running → (s.args n).Background →
    s.Latest n ∧ s.scans = []
  quiet : s.group ≠ .up → s.spawned = []

/-- In the beginning nothing is scanned. -/
theorem single_init : init.Single := by
  constructor <;> simp [init]

/-- Who scans is the current call. -/
theorem Single.oneScanner {s : Scanner} (hs : s.Single) : s.OneScanner :=
  ⟨hs.one, fun n hn => ⟨n, (hs.scans n hn).1.1, (hs.scans n hn).1, rfl⟩⟩

/-- A call that raises at once. -/
theorem Single.refused {s s' : Scanner} (hs : s.Single) (hnext : s'.nextCall = s.nextCall + 1)
    (hcall : s'.call = Function.update s.call s.nextCall .raised)
    (hargs : ∀ n < s.nextCall, s'.args n = s.args n) (hsaved : s'.saved = some s.nextCall)
    (hscans : s'.scans = s.scans) (hspawned : s'.spawned = s.spawned)
    (hgroup : s'.group = s.group) : s'.Single := by
  have hold : ∀ n < s.nextCall, s'.call n = s.call n := by
    intro n hn
    rw [hcall, Function.update_of_ne (by omega)]
  have hrunning : ∀ n < s'.nextCall, s'.call n = .running → n < s.nextCall ∧ s.call n = .running := by
    intro n hn hr
    by_cases h : n = s.nextCall
    · rw [hcall, h, Function.update_self] at hr
      contradiction
    · have hlt : n < s.nextCall := by omega
      exact ⟨hlt, hold n hlt ▸ hr⟩
  constructor
  case one => rw [hscans]; exact hs.one
  case pending => rw [hspawned]; exact hs.pending
  case scans =>
    intro n hn
    rw [hscans] at hn
    obtain ⟨hlatest, hr⟩ := hs.scans n hn
    exact ⟨hlatest.called hnext hcall, by rwa [hold n hlatest.1]⟩
  case saved =>
    intro n hn
    rw [hsaved, Option.mem_some_iff] at hn
    subst hn
    exact ⟨by omega, fun hne => absurd (by rw [hcall, Function.update_self]) hne⟩
  case spawned =>
    intro n hn
    rw [hspawned] at hn
    obtain ⟨hcurrent, hback⟩ := hs.spawned n hn
    refine ⟨hcurrent.called hnext hcall, fun hb => ?_⟩
    rw [hargs n hcurrent.1] at hb
    obtain ⟨hne, hnil, hidle⟩ := hback hb
    refine ⟨by rwa [hold n hcurrent.1], by rwa [hscans], fun m hm hr => ?_⟩
    obtain ⟨hm, hr⟩ := hrunning m hm hr
    rw [hargs m hm]
    exact hidle m hm hr
  case running =>
    intro n hn hr hb
    obtain ⟨hn, hr⟩ := hrunning n hn hr
    obtain ⟨hlatest, hnil⟩ := hs.running n hn hr (hargs n hn ▸ hb)
    exact ⟨hlatest.called hnext hcall, by rwa [hscans]⟩
  case quiet => rw [hgroup, hspawned]; exact hs.quiet

/-- A call that does not raise, where nothing is under way. -/
theorem Single.called {s s' : Scanner} {c : ScanCall} (hidle : s.Idle)
    (hnext : s'.nextCall = s.nextCall + 1)
    (hcall : s'.call = Function.update s.call s.nextCall c) (hc : c ≠ .raised)
    (hargs : ∀ n < s.nextCall, s'.args n = s.args n)
    (hsaved : s'.saved = some s.nextCall) (hspawned : s'.spawned = [])
    (hscans : s'.scans = [] ∨ c = .returned ∧ s'.scans = [s.nextCall]) : s'.Single := by
  have hlatest : s'.Latest s.nextCall :=
    ⟨by omega, by rwa [hcall, Function.update_self], fun m hm hnm => by omega⟩
  constructor
  case one => rcases hscans with h | ⟨-, h⟩ <;> simp [h]
  case pending => simp [hspawned]
  case scans =>
    intro n hn
    rcases hscans with h | h
    · simp [h] at hn
    · rw [h.2, List.mem_singleton] at hn
      subst hn
      exact ⟨hlatest, by simp [hcall, h.1]⟩
  case saved =>
    intro n hn
    rw [hsaved, Option.mem_some_iff] at hn
    exact hn ▸ ⟨hlatest.1, fun _ => hlatest⟩
  case spawned => simp [hspawned]
  case running =>
    intro n hn hr hb
    by_cases h : n = s.nextCall
    · subst h
      rw [hcall, Function.update_self] at hr
      refine ⟨hlatest, hscans.resolve_right fun h => ?_⟩
      rw [h.1] at hr
      contradiction
    · have hlt : n < s.nextCall := by omega
      rw [hcall, Function.update_of_ne h] at hr
      exact absurd (hargs n hlt ▸ hb) (hidle n hlt hr)
  case quiet => exact fun _ => hspawned

/-- **`start_scan`** takes the place of the scanner. -/
theorem single_startScan {s : Scanner} (hs : s.Single) {a : ScanArgs} {initial : InitialScan}
    (ho : s.Orderly (.startScan a initial)) : (s.startScan a initial).Single := by
  have hargs : ∀ n < s.nextCall, Function.update s.args s.nextCall a n = s.args n := by
    intro n hn
    rw [Function.update_of_ne (by omega)]
  have hrefused : a.Refused → a.Background := by
    intro h
    obtain ⟨i, hi, hne, -⟩ := h
    exact ⟨i, hi, hne⟩
  rw [startScan]
  split
  · next h =>
    obtain ⟨hscans, hspawned, hidle⟩ := ho.resolve_left fun hr => h.1 (hrefused hr)
    exact Single.called hidle rfl rfl (by simp) hargs rfl hspawned (.inl hscans)
  · split
    · exact hs.refused rfl rfl hargs rfl rfl rfl rfl
    · next hr =>
      obtain ⟨hscans, hspawned, hidle⟩ := ho.resolve_left hr
      split
      · exact Single.called hidle rfl rfl (by simp) hargs rfl hspawned (.inl hscans)
      · rw [spawnScan]
        split
        · exact hs.refused rfl rfl hargs rfl rfl rfl rfl
        · exact Single.called hidle rfl rfl (by simp) hargs rfl hspawned
            (.inr ⟨rfl, by simp [hscans]⟩)

/-- The end of a call's initial scan, and of the call. -/
theorem Single.ended {s s' : Scanner} (hs : s.Single) {n : Nat} {c : ScanCall}
    (hn : n < s.nextCall) (hr : s.call n = .running) (hc : c = .returned ∨ c = .raised)
    (hnext : s'.nextCall = s.nextCall) (hcall : s'.call = Function.update s.call n c)
    (hargs : s'.args = s.args) (hsaved : s'.saved = s.saved) (hspawned : s'.spawned = s.spawned)
    (hgroup : s'.group = s.group)
    (hscans : s'.scans = s.scans ∨ (s.args n).Background ∧ c = .returned ∧ s'.scans = [n]) :
    s'.Single := by
  have hrunning : ∀ m, s'.call m = .running → m ≠ n ∧ s.call m = .running := by
    intro m hm
    rw [hcall] at hm
    by_cases h : m = n
    · rw [h, Function.update_self] at hm
      rcases hc with hc | hc <;> rw [hc] at hm <;> contradiction
    · rw [Function.update_of_ne h] at hm
      exact ⟨h, hm⟩
  constructor
  case one =>
    rcases hscans with h | ⟨-, -, h⟩
    · rw [h]
      exact hs.one
    · simp [h]
  case pending => rw [hspawned]; exact hs.pending
  case scans =>
    intro m hm
    rcases hscans with h | ⟨hb, hc, h⟩
    · obtain ⟨hlatest, hne⟩ := hs.scans m (h ▸ hm)
      refine ⟨hlatest.ended hr hn hnext hcall fun h => ?_, fun hm => hne (hrunning m hm).2⟩
      rw [h, hr] at hne
      contradiction
    · rw [h, List.mem_singleton] at hm
      subst hm
      exact ⟨(hs.running m hn hr hb).1.ended hr hn hnext hcall fun _ => hc, by simp [hcall, hc]⟩
  case saved =>
    intro m hm
    exact (hs.saved m (hsaved ▸ hm)).ended hr hn hnext hcall hc
  case spawned =>
    intro m hm
    obtain ⟨hcurrent, hback⟩ := hs.spawned m (hspawned ▸ hm)
    refine ⟨hcurrent.ended hr hn hnext hcall hc, fun hb => ?_⟩
    obtain ⟨hne, hnil, hidle⟩ := hback (hargs ▸ hb)
    refine ⟨fun hraised => ?_, ?_, fun k hk hrun => ?_⟩
    · rw [hcall] at hraised
      by_cases h : m = n
      · -- a call that a connection is going to repeat is over
        exact hidle n hn hr (h ▸ hargs ▸ hb)
      · rw [Function.update_of_ne h] at hraised
        exact hne hraised
    · exact (hscans.resolve_right fun h => hidle n hn hr h.1).trans hnil
    · rw [hargs]
      exact hidle k (hnext ▸ hk) (hrunning k hrun).2
  case running =>
    intro m hm hrun hb
    obtain ⟨hne, hrun⟩ := hrunning m hrun
    obtain ⟨hlatest, hnil⟩ := hs.running m (hnext ▸ hm) hrun (hargs ▸ hb)
    refine ⟨hlatest.ended hr hn hnext hcall fun h => absurd h hne, ?_⟩
    -- two calls that start a scanner are not under way at once
    refine (hscans.resolve_right fun h => hne ?_).trans hnil
    exact hlatest.unique (hs.running n hn hr h.1).1
  case quiet => rw [hgroup, hspawned]; exact hs.quiet

/-- A scanner that begins stops the one before it. -/
theorem single_begins {s : Scanner} (hs : s.Single) {n : Nat} {spawned : List Nat}
    (h : s.spawned = n :: spawned) : Single { s.restartScan n with spawned } := by
  have hnil : spawned = [] := by
    have hlen := hs.pending
    rw [h] at hlen
    simpa using hlen
  obtain ⟨hcurrent, hback⟩ := hs.spawned n (h ▸ List.mem_cons_self)
  subst hnil
  have hsaved : ∀ m ∈ some n, s.Current m := by
    intro m hm
    rw [Option.mem_some_iff] at hm
    exact hm ▸ hcurrent
  rw [restartScan]
  split
  · exact ⟨hs.one, by simp, hs.scans, hsaved, by simp, hs.running, fun _ => rfl⟩
  · next hb =>
    rw [not_not] at hb
    obtain ⟨hne, hscans, hidle⟩ := hback hb
    split
    · exact ⟨hs.one, by simp, hs.scans, hsaved, by simp, hs.running, fun _ => rfl⟩
    · refine ⟨by simp [hscans], by simp, fun m hm => ?_, hsaved, by simp,
        fun m hm hr hm' => absurd hm' (hidle m hm hr), fun _ => rfl⟩
      rw [hscans, List.nil_append, List.mem_singleton] at hm
      subst hm
      exact ⟨hcurrent.2 hne, fun hr => hidle m hcurrent.1 hr hb⟩

/-- A scanner that ends is gone. -/
theorem single_erase {s s' : Scanner} (hs : s.Single) (n : Nat)
    (h : s' = { s with scans := s.scans.erase n, cancelled := s'.cancelled }) : s'.Single := by
  have hnil : s.scans = [] → s.scans.erase n = [] := by
    intro h
    rw [h, List.erase_nil]
  rw [h]
  refine ⟨(List.length_erase_le).trans hs.one, hs.pending,
    fun m hm => hs.scans m (List.mem_of_mem_erase hm), hs.saved, fun m hm => ?_,
    fun m hm hr hb => ⟨(hs.running m hm hr hb).1, hnil (hs.running m hm hr hb).2⟩, hs.quiet⟩
  obtain ⟨hcurrent, hback⟩ := hs.spawned m hm
  refine ⟨hcurrent, fun hb => ?_⟩
  obtain ⟨hne, hscans, hidle⟩ := hback hb
  exact ⟨hne, hnil hscans, hidle⟩

/-- **One orderly step** leaves one scanner at most. -/
theorem single_step {s s' : Scanner} {a : Action} (hs : s.Single) (ho : s.Orderly a)
    (h : s.step a = some s') : s'.Single := by
  cases a with
  | startScan a initial =>
      rw [step, Option.some.injEq] at h
      exact h ▸ single_startScan hs ho
  | scanned n =>
      rw [step, Option.ite_none_right_eq_some, Option.some.injEq] at h
      obtain ⟨⟨hn, hr⟩, rfl⟩ := h
      split
      · next hb =>
        rw [spawnScan]
        split
        · exact hs.ended hn hr (.inr rfl) rfl rfl rfl rfl rfl rfl (.inl rfl)
        · exact hs.ended hn hr (.inl rfl) rfl rfl rfl rfl rfl rfl
            (.inr ⟨hb, rfl, by simp [(hs.running n hn hr hb).2]⟩)
      · exact hs.ended hn hr (.inl rfl) rfl rfl rfl rfl rfl rfl (.inl rfl)
  | scanFails n =>
      rw [step, Option.ite_none_right_eq_some, Option.some.injEq] at h
      obtain ⟨⟨hn, hr⟩, rfl⟩ := h
      exact hs.ended hn hr (.inr rfl) rfl rfl rfl rfl rfl rfl (.inl rfl)
  | opens =>
      rw [step, Option.ite_none_right_eq_some, Option.some.injEq] at h
      obtain ⟨hg, rfl⟩ := h
      exact ⟨hs.one, hs.pending, hs.scans, hs.saved, hs.spawned, hs.running,
        fun _ => hs.quiet (by simp [hg])⟩
  | comesUp =>
      rw [step, Option.ite_none_right_eq_some, Option.some.injEq] at h
      obtain ⟨-, rfl⟩ := h
      refine ⟨hs.one, ?_, hs.scans, hs.saved, fun n hn => ?_, hs.running, by simp⟩
      · cases s.saved <;> simp
      · have hn : n ∈ s.saved := by simpa using hn
        exact ⟨hs.saved n hn, fun hb => ⟨(ho n hn).1, (ho n hn).2 hb⟩⟩
  | begins =>
      rw [step] at h
      split at h
      · contradiction
      · next heq =>
        rw [Option.some.injEq] at h
        exact h ▸ single_begins hs heq
  | vanishes =>
      rw [step, Option.ite_none_right_eq_some, Option.some.injEq] at h
      obtain ⟨-, rfl⟩ := h
      exact ⟨hs.one, by simp, hs.scans, hs.saved, by simp, hs.running, fun _ => rfl⟩
  | lost =>
      rw [step, Option.ite_none_left_eq_some, Option.some.injEq] at h
      obtain ⟨-, rfl⟩ := h
      exact ⟨hs.one, hs.pending, hs.scans, hs.saved, hs.spawned, hs.running, hs.quiet⟩
  | scanEnds n =>
      rw [step, Option.ite_none_right_eq_some, Option.some.injEq] at h
      obtain ⟨-, rfl⟩ := h
      exact single_erase hs n rfl
  | scanRaises n =>
      rw [step, Option.ite_none_right_eq_some, Option.some.injEq] at h
      obtain ⟨-, rfl⟩ := h
      exact single_erase hs n rfl
  | left =>
      rw [step, Option.ite_none_right_eq_some, Option.some.injEq] at h
      obtain ⟨⟨-, hspawned, -⟩, rfl⟩ := h
      exact ⟨hs.one, hs.pending, hs.scans, hs.saved, hs.spawned, hs.running, fun _ => hspawned⟩

/-- **One background scanner**, in every run whose steps are all orderly, and no
call that raises has an effect on a connection. -/
theorem oneScanner_of_orderly (as : List Action) (h : AllSteps step Orderly init as) :
    AllStates step OneScanner init as ∧ AllSteps step Unaffected init as := by
  have hall := guarded_allStates (I := Single) (fun s a s' hs ho h => single_step hs ho h)
    single_init h
  refine ⟨hall.imp fun s hs => hs.oneScanner, allSteps_of_allStates (fun s a s' hs ho _ => ?_) hall h⟩
  cases a with
  | comesUp =>
      intro n hn
      have hlatest := (hs.saved n hn).2 (ho n hn).1
      exact ⟨n, hlatest.1, hlatest, rfl⟩
  | _ => trivial

/-- A scan every ten seconds, a connection that is lost, and one that comes up;
a call that is refused, and one with another interval behind the end of the
connection. -/
theorem oneScanner_restarted :
    let ten : ScanArgs := ⟨some 10, true, 0⟩
    let twenty : ScanArgs := ⟨some 20, true, 0⟩
    let as : List Action := [.opens, .comesUp, .startScan ten .now, .scanned 0, .lost, .scanEnds 0,
      .left, .opens, .comesUp, .begins, .startScan ⟨some (1 / 2), true, 0⟩ .never, .lost,
      .scanEnds 0, .left, .opens, .startScan twenty .never, .scanRaises 2]
    AllStates step OneScanner init as ∧ AllSteps step Unaffected init as :=
  oneScanner_of_orderly _ (by decide +kernel)

/-- Two calls in a row leave two tasks; the arguments of a call that is refused
are those of the next connection; and a connection that comes up during the
initial scan of a call starts a task, too. -/
theorem not_oneScanner_twice :
    let ten : ScanArgs := ⟨some 10, true, 0⟩
    let twenty : ScanArgs := ⟨some 20, true, 0⟩
    ¬ AllStates step OneScanner init
      [.opens, .comesUp, .startScan ten .never, .startScan twenty .never] ∧
    ¬ AllSteps step Unaffected init
      [.opens, .comesUp, .startScan ten .never, .startScan ⟨some (1 / 2), true, 0⟩ .never, .lost,
        .scanEnds 0, .left, .opens, .comesUp] ∧
    ¬ AllStates step OneScanner init
      [.opens, .comesUp, .startScan ten .now, .lost, .left, .opens, .comesUp, .begins,
        .scanned 0] := by
  refine ⟨fun h => ?_, by decide +kernel, fun h => ?_⟩
  · exact absurd (h.of_run rfl) (by decide +kernel)
  · exact absurd (h.of_run rfl) (by decide +kernel)

end Scanner

end AsyncOwfs
