import AsyncOwfs.Tasks.Pollers
import AsyncOwfs.Tasks.Trees

/-!
# AsyncOwfs.Tasks.Outlive

The `_poll` tasks of the buses, and the end of a server.

A server is closed while all tasks are at rest, and then its buses go.  Their pollers
are tasks of the service, and nobody cancels them: `Bus.delocate` does not look at
`_tasks`.  No poller is ever started behind that, since none is started for a bus that
is not in the tree.
-/

namespace AsyncOwfs

namespace Tasks

open Program Transition Hoare

/-- What can happen, where servers are closed at rest. -/
inductive Turn
  | act (a : Action)
  /-- `Server.aclose`, or `Server.drop`. -/
  | close (v : Nat)

/-- No task is at work; pollers sleep. -/
def AtRest (t : Tasks) : Prop := ∀ i ∈ t.tasks, t.Live i → (t.task i).head = none

instance (t : Tasks) : Decidable t.AtRest := inferInstanceAs (Decidable (∀ i ∈ _, _))

/-- Polls are for buses in the tree; no task closes a server. -/
def Allowed (t : Tasks) : Action → Prop
  | .aclose .. => False
  | .pollAlarm b _ | .poll b _ _ => b ∈ t.shared.service.allBuses b.server
  | _ => True

instance (t : Tasks) (a : Action) : Decidable (t.Allowed a) := by
  induction a using Action.casesOn <;> dsimp only [Allowed] <;> infer_instance

/-- The end of a server, in one step. -/
def closeServer (t : Tasks) (v : Nat) : Tasks :=
  { t with shared := { t.shared with service := Service.after (Service.aclose v) t.shared.service } }

def turn (t : Tasks) : Turn → Option Tasks
  | .act a => if t.Allowed a then t.step a else none
  | .close v => if t.AtRest then some (t.closeServer v) else none

/-- Behind `BusDeleted`, no poller runs for the bus or anything below it. -/
def NoneOutlives (t : Tasks) : Prop :=
  ∀ b, .busDeleted b ∈ t.shared.service.events → ∀ l n x, ¬ t.Running n (b.sub l) x

/-- A server is closed when no poller runs for any of its buses. -/
def Clear (t : Tasks) : Turn → Prop
  | .close v => ∀ n b x, t.Running n b x → b.server ≠ v
  | .act _ => True

/-! ## While no server is closed -/

/-- The command of a program that stays within the trees, as far as it goes. -/
def Within (p : Program Unit) (s : Service) : Prop :=
  p.Meets growing (fun _ _ => True) (fun _ _ => True) s

/-- A program that stays within the trees whatever happens stays within them. -/
theorem within_of_stays {p : Program Unit} {s : Service} (h : p.Stays s) : Within p s :=
  h.mono (fun _ _ _ => trivial) fun _ _ _ => trivial

/-- Trees that grow keep a program within them. -/
theorem Within.later {p : Program Unit} {s s' : Service} (h : Within p s) (hs : s.Later s') :
    Within p s' :=
  h.of_stable stable_growing hs (fun _ h => h) fun _ h => h

/-- All tasks keep to the trees of the servers, and so do the pollers. -/
structure Anchored (t : Tasks) : Prop extends InRounds t where
  rooted : t.shared.service.Rooted
  within : ∀ i, t.Live i → Within (t.task i) t.shared.service
  known : ∀ n b x, t.Running n b x → Service.Known t.shared.service b.server b

/-- In the beginning there are no pollers. -/
theorem anchored_init : init.Anchored := by
  refine ⟨inRounds_init, Service.rooted_init, fun i _ => trivial, fun n b x h => ?_⟩
  exact absurd h.1 (by simp [init])

/-- **What is in a tree has not been deleted.** -/
theorem Anchored.noneOutlives {t : Tasks} (ht : t.Anchored) : t.NoneOutlives := by
  intro b hb l n x hrun
  have hclosed := ht.rooted.closed b hb
  obtain ⟨names, m, hnames, -⟩ := Service.known_iff_below.mp (ht.known n (b.sub l) x hrun)
  rw [show t.shared.service.server b.server = some names from hnames] at hclosed
  contradiction

/-- The programs that an allowed action starts stay within the trees. -/
theorem task_of_outer {t t' : Tasks} {a : Action} (ht : t.Anchored) (ha : t.Allowed a)
    (houter : a.Outer) (h : t.step a = some t') (i : TaskId) :
    t'.task i = t.task i ∨ Stays (t'.task i) t.shared.service := by
  have hstart {p : Program Unit} {j : TaskId} (hp : p.Stays t.shared.service) :
      Function.update t.task j p i = t.task i ∨
        Stays (Function.update t.task j p i) t.shared.service := by
    by_cases hij : i = j
    · subst hij
      rw [Function.update_self]
      exact .inr hp
    · exact .inl (Function.update_of_ne hij ..)
  have htree {b : BusRef} (hb : b ∈ t.shared.service.allBuses b.server) :
      Service.Known t.shared.service b.server b :=
    (Service.mem_allBuses_iff ht.rooted.deep b.server b).mp hb
  cases a with
  | resume i reply => exact houter.elim
  | aclose limit v => exact ha.elim
  | scan polling v root =>
      rw [step, Option.some.injEq] at h
      exact h ▸ hstart (stays_scanBase polling v root)
  | getDevice id =>
      rw [step, Option.some.injEq] at h
      exact h ▸ hstart (stays_fetch fun r s' _ _ => stays_pure _)
  | deleteDevice r =>
      rw [step, Option.ite_none_right_eq_some, Option.some.injEq] at h
      exact h.2 ▸ hstart (stays_deleteDevice r)
  | setPollingInterval r styp value =>
      rw [step, Option.ite_none_right_eq_some, Option.some.injEq] at h
      exact h.2 ▸ hstart (stays_setPollingInterval r styp value)
  | setAttr | setup =>
      simp only [step, Option.some.injEq] at h
      exact h ▸ .inl rfl
  | pollAlarm b names =>
      rw [step, Option.some.injEq] at h
      exact h ▸ hstart (stays_pollAlarm names (htree ha))
  | poll b x names =>
      rw [step, Option.some.injEq] at h
      exact h ▸ hstart (stays_poll x names (htree ha))
  | wake n names =>
      rw [step] at h
      split at h
      · next b x u hpoller hdone =>
        rw [Option.some.injEq] at h
        have hrun : t.Running n b x := ⟨hpoller, by rw [hdone]; exact id⟩
        exact h ▸ hstart (stays_poll x names (ht.known n b x hrun))
      · contradiction

section Command

variable {t t' : Tasks} {i : TaskId} {reply : Reply} {c : Cmd} {r : Except Exc c.Ret}
  {k : Except Exc c.Ret → Program Unit} {w : World}

/-- A poller that there is now was there before, or has been started. -/
theorem Goes.pollers_cases (hg : Goes t t' i reply c r k w) {n : Nat} {b : BusRef} {x : String}
    (h : t'.shared.pollers n = some (b, x)) :
    t.shared.pollers n = some (b, x) ∨ n = t.shared.nextPoller ∧ c = .startPoll b x := by
  have hnew := hg.outcome.post (World.pollers_exec reply c t.shared)
  rw [hg.after] at h
  cases r with
  | ok a => exact hnew n b x h
  | error e => exact hnew n b x h

/-- What runs behind a command has been running, or is started by it. -/
theorem Goes.running_cases (hg : Goes t t' i reply c r k w) {n : Nat} {b : BusRef} {x : String}
    (h : t'.Running n b x) : t.Running n b x ∨ c = .startPoll b x := by
  refine (hg.pollers_cases h.1).imp (fun hn => ⟨hn, fun hfailed => h.2 ?_⟩) And.right
  have hni : .poller n ≠ i := by
    rintro rfl
    rw [hg.before] at hfailed
    exact hfailed
  rw [hg.task_ne hni]
  exact hfailed

/-- A task that is not cancelled was not, or has just been started. -/
theorem Goes.live_before (hg : Goes t t' i reply c r k w) (ht : t.Dutiful) {j : TaskId}
    (h : t'.Live j) : t.Live j ∨ ∃ u, t.task j = .done u := by
  cases j with
  | poller n =>
      obtain ⟨y, hy⟩ := Option.ne_none_iff_exists'.mp h
      rcases hg.pollers_cases hy with hold | ⟨rfl, -⟩
      · refine .inl fun hnone => ?_
        rw [hold] at hnone
        contradiction
      · exact .inr (ht.idle _ (by simp [tasks]))
  | _ => exact .inl trivial

end Command

/-- **One command** starts pollers for buses in the tree only. -/
theorem anchored_goes {t t' : Tasks} {i : TaskId} {reply : Reply} {c : Cmd} {r : Except Exc c.Ret}
    {k : Except Exc c.Ret → Program Unit} {w : World} (ht : t.Anchored) (hround : t'.InRounds)
    (hg : Goes t t' i reply c r k w) : t'.Anchored := by
  have hmeets : Within (.cmd c k) t.shared.service := hg.before ▸ ht.within i hg.live
  have hpost := hg.outcome.post (World.grows_exec reply ht.rooted hmeets.1)
  have hgrows : Service.Grows t.shared.service w.service ∧ w.service.Finds c r := by
    cases r with
    | ok a => exact hpost
    | error e => exact ⟨hpost, by cases c <;> trivial⟩
  have hafter : t'.shared = w := by rw [hg.after]
  refine ⟨hround, ?_, fun j hj => ?_, fun n b x hn => ?_⟩
  · rw [hafter]
    exact hgrows.1.rooted
  · rw [hafter]
    by_cases hji : j = i
    · subst hji
      rw [hg.after]
      simp only [Function.update_self]
      exact hmeets.2 r w.service ⟨hgrows.1.toLater, hgrows.2⟩
    · rw [hg.task_ne hji]
      rcases hg.live_before ht.toDutiful hj with hlive | ⟨u, hu⟩
      · exact (ht.within j hlive).later hgrows.1.toLater
      · rw [hu]
        trivial
  · rw [hafter]
    rcases hg.running_cases hn with hold | rfl
    · exact hgrows.1.known _ b (ht.known n b x hold)
    · exact hgrows.1.known _ b hmeets.1

/-- **While no server is closed**, tasks and pollers keep to the trees. -/
theorem anchored_step {t t' : Tasks} {a : Action} (ht : t.Anchored) (ha : t.Allowed a)
    (h : t.step a = some t') : t'.Anchored := by
  have hround := inRounds_step ht.toInRounds h
  have houter (hout : a.Outer) := task_of_outer ht ha hout h
  rcases step_cases ht.pollers h with ⟨i, p, hs⟩ | ⟨hout, _, _, rfl⟩ | ⟨i, reply, c, r, k, w, -, hg⟩
  · refine ⟨hround, hs.shared ▸ ht.rooted, fun j hj => ?_, fun n b x hn => ?_⟩
    · have hlive : t.Live j := by
        cases j with
        | poller n =>
            show t.shared.pollers n ≠ none
            rw [← hs.shared]
            exact hj
        | _ => trivial
      rw [hs.shared]
      rcases houter hs.outer j with heq | hp
      · exact heq ▸ ht.within j hlive
      · exact within_of_stays hp
    · rw [hs.shared]
      exact ht.known n b x ((calm_starts ht.toDutiful hs).running hn)
  · exact ⟨hround, ht.rooted, ht.within, ht.known⟩
  · exact anchored_goes ht hround hg

/-! ## The end of a server -/

/-- **The end of a server** tells of all its buses, and of no others. -/
theorem closeServer_spec {t : Tasks} (ht : t.Anchored) (v : Nat) :
    (t.closeServer v).shared.service.Rooted ∧
    (∀ b, Service.Known t.shared.service v b →
      .busDeleted b ∈ (t.closeServer v).shared.service.events) ∧
    ∀ w b, w ≠ v → Service.Known t.shared.service w b →
      Service.Known (t.closeServer v).shared.service w b := by
  have hspec := Service.aclose_rooted ht.rooted v
  obtain ⟨u, s, heq, hrooted, hdeleted, -, -, hothers⟩ := exists_ok_of_wp hspec
  simp only [closeServer, Service.after, heq]
  exact ⟨hrooted, hdeleted, hothers⟩

/-- Closing a server leaves no poller behind, if none is running there. -/
theorem noneOutlives_close {t : Tasks} (ht : t.Anchored) (v : Nat) (hrest : t.AtRest) :
    ((t.closeServer v).NoneOutlives ↔ t.Clear (.close v)) ∧
    (t.Clear (.close v) → (t.closeServer v).Anchored) := by
  obtain ⟨hrooted, hdeleted, hothers⟩ := closeServer_spec ht v
  have hrunning : ∀ n b x, (t.closeServer v).Running n b x ↔ t.Running n b x := fun _ _ _ => Iff.rfl
  have hanchored : t.Clear (.close v) → (t.closeServer v).Anchored := by
    intro hclear
    refine ⟨⟨⟨ht.keeps, ht.idle, ht.pollers⟩, ht.rounding⟩, hrooted, fun i hi => ?_, fun n b x hn => ?_⟩
    · -- every task has ended
      show Within (t.task i) _
      cases hp : t.task i with
      | cmd c k =>
          have hend := hrest i (ht.mem_tasks hp) hi
          rw [hp] at hend
          contradiction
      | done u => trivial
      | raise e => trivial
    · exact hothers _ b (hclear n b x hn) (ht.known n b x hn)
  refine ⟨⟨fun h n b x hn hbv => ?_, fun h => (hanchored h).noneOutlives⟩, hanchored⟩
  have hb := hdeleted b (hbv ▸ ht.known n b x hn)
  refine h b hb [] n x ?_
  rw [hrunning]
  simpa [BusRef.sub] using hn

/-- **No poller outlives its bus**, in all states of a run, if and only if no server is
closed while a poller runs for one of its buses. -/
theorem noneOutlives_iff_clear (as : List Turn) :
    AllStates turn NoneOutlives init as ↔ AllSteps turn Clear init as := by
  refine allStates_iff_allSteps_of (I := Anchored) (H := fun _ _ => True)
    (fun t a t' ht _ _ ht' h => ?_) (fun t a t' ht _ _ h => ?_) anchored_init
    anchored_init.noneOutlives (allSteps_true init as)
  · cases a with
    | act a =>
        rw [turn, Option.ite_none_right_eq_some] at h
        exact anchored_step ht h.1 h.2
    | close v =>
        rw [turn, Option.ite_none_right_eq_some, Option.some.injEq] at h
        obtain ⟨hrest, rfl⟩ := h
        exact (noneOutlives_close ht v hrest).2 ((noneOutlives_close ht v hrest).1.mp ht')
  · cases a with
    | act a =>
        rw [turn, Option.ite_none_right_eq_some] at h
        exact iff_of_true (anchored_step ht h.1 h.2).noneOutlives trivial
    | close v =>
        rw [turn, Option.ite_none_right_eq_some, Option.some.injEq] at h
        obtain ⟨hrest, rfl⟩ := h
        exact (noneOutlives_close ht v hrest).1

/-- A thermometer is polled while its server is closed. -/
def detached : List Turn :=
  (.scan true 0 oneOnBus :: go (.call 0) 15 ++
    .setPollingInterval 0 "temperature" 1 :: go (.call 1) 4).map .act ++ [.close 0]

/-- The bus has been deleted, and its poller still runs. -/
theorem not_noneOutlives_detached :
    (∃ t, run turn init detached = some t ∧
      .busDeleted ⟨0, ["bus.0"]⟩ ∈ t.shared.service.events ∧
      t.Running 0 ⟨0, ["bus.0"]⟩ "temperature") ∧
    ¬ AllStates turn NoneOutlives init detached := by
  have hrun : (run turn init detached).any (fun t =>
      .busDeleted ⟨0, ["bus.0"]⟩ ∈ t.shared.service.events ∧
      t.Running 0 ⟨0, ["bus.0"]⟩ "temperature") = true := by decide +kernel
  obtain ⟨t, ht, hboth⟩ := (Option.any_eq_true _ _).mp hrun
  have hboth := of_decide_eq_true hboth
  refine ⟨⟨t, ht, hboth⟩, fun hall => ?_⟩
  exact (hall.of_run ht) _ hboth.1 [] 0 "temperature" hboth.2

end Tasks

end AsyncOwfs
