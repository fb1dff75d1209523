import AsyncOwfs.AddServer

/-!
# AsyncOwfs.AddServer.Trace

What an `add_server` that raises leaves behind.

Only `start` is inside the `try` statement of `add_server`, and what that one
does is to push `ServerDeregistered`.  So nothing is left if `start` raises and
the run task has ended by then; in all other cases something is, unless the
server has been dropped meanwhile.
-/

namespace AsyncOwfs

namespace AddServer

open Transition

/-- The connection is open. -/
def HasStream (s : Server) : Prop := s.run ∉ [.connecting, .sleeping, .ended]

instance (s : Server) : Decidable (HasStream s) := inferInstanceAs (Decidable (_ ∉ _))

/-- Nothing is left of the server, and it has been reported as gone. -/
structure NoTrace (s : AddServer) : Prop where
  inServers : s.inServers = false
  run : s.server.run = .ended
  writer : s.server.writer = .ended
  reader : s.server.reader = .ended
  stream : ¬ HasStream s.server
  scans : s.scanner.scans = []
  spawned : s.scanner.spawned = []
  registered : s.events.head? = some .registered
  deregistered : .deregistered ∈ s.events.tail

/-- The run task has ended, and either `start` raises, or the server has been
dropped while `add_server` was at its initial scan. -/
def Abandoned (s : AddServer) (a : Action) : Prop :=
  s.server.run = .ended ∧
    match a with
    | .started => ∀ r ∈ s.val, r ≠ .ok ()
    | .startCancelled => True
    | _ => s.inServers = false

instance (s : AddServer) (a : Action) : Decidable (s.Abandoned a) := by
  unfold Abandoned
  refine @instDecidableAnd _ _ _ ?_
  split <;> infer_instance

/-! ## The tasks -/

/-- A task of the connection goes on: it may leave the task group, or enter it. -/
theorem netStep_cases {s s' : AddServer} {a : AsyncOwfs.Action} (h : s.netStep a = some s') :
    ∃ server scanner, s.server.step a = some server ∧ follow s.scanner server a = some scanner ∧
      s' = { s with server, scanner, val := valAfter s.server a s.val } := by
  rw [netStep] at h
  split at h
  · contradiction
  · next server hserver =>
    split at h
    · contradiction
    · next scanner hscanner =>
      exact ⟨server, scanner, hserver, hscanner, (Option.some.inj h).symm⟩

/-- A step of the scanner leaves the tasks of the connection alone. -/
theorem scannerStep_cases {s s' : AddServer} {a : Scanner.Action} {e : Exc}
    (h : s.scannerStep a e = some s') :
    ∃ server scanner, s' = { s with server, scanner } ∧ s.scanner.step a = some scanner ∧
      server.run = s.server.run ∧ server.writer = s.server.writer ∧
      server.reader = s.server.reader ∧ server.closer = s.server.closer ∧
      server.ml = s.server.ml := by
  rw [scannerStep] at h
  split at h
  · contradiction
  · next scanner hscanner =>
    refine ⟨_, scanner, (Option.some.inj h).symm, hscanner, ?_, ?_, ?_, ?_, ?_⟩
    all_goals split <;> rfl

/-- What the scanner does by itself: it stays in its task group, with what has
been spawned there. -/
theorem scanner_own {sc sc' : Scanner} {a : Scanner.Action} (h : sc.step a = some sc')
    (ha : a = .begins ∨ a = .vanishes ∨ ∃ n, a = .scanEnds n ∨ a = .scanRaises n) :
    sc'.group = sc.group ∧ (sc.spawned = [] → sc'.spawned = [] ∧ sc'.saved = sc.saved) ∧
      (sc.spawned = [] → sc.scans = [] → sc'.scans = []) := by
  rcases ha with rfl | rfl | ⟨n, rfl | rfl⟩
  · rw [Scanner.step] at h
    split at h
    · contradiction
    · next heq =>
      rw [Option.some.injEq] at h
      subst h
      simp only [heq, reduceCtorEq, false_implies, and_true, Scanner.restartScan]
      split
      · rfl
      · split <;> rfl
  · rw [Scanner.step, Option.ite_none_right_eq_some, Option.some.injEq] at h
    obtain ⟨-, rfl⟩ := h
    simp
  · rw [Scanner.step, Option.ite_none_right_eq_some, Option.some.injEq] at h
    obtain ⟨-, rfl⟩ := h
    simp_all
  · rw [Scanner.step, Option.ite_none_right_eq_some, Option.some.injEq] at h
    obtain ⟨-, rfl⟩ := h
    simp_all

/-- The run task does not get out of its task group but by leaving it. -/
theorem run_step {s s' : Server} {a : AsyncOwfs.Action} (h : s.step a = some s')
    (hr : s'.run = .sleeping ∨ s'.run = .ended) :
    a = .leave ∨ (s.run = .sleeping ∨ s.run = .ended) ∧ a ≠ .greetingDone ∧ a ≠ .wake := by
  cases a <;> simp only [Server.step, Server.foldl_cancelMsg] at h
  case interrupt => grind [Server.interrupted, Server.cancelMsg, Server.modify]
  case reply => grind [Server.handleReply, Server.raise, Server.modify]
  all_goals grind [Server.raise, Server.cancelMsg, Server.modify]

/-- `aclose` is not called by the tasks. -/
theorem closer_step {s s' : Server} {a : AsyncOwfs.Action} (h : s.step a = some s')
    (hb : a ≠ .acloseBegins) (he : a ≠ .acloseEnds) : s'.closer = s.closer := by
  cases a <;> simp only [Server.step, Server.foldl_cancelMsg] at h
  case acloseBegins => exact absurd rfl hb
  case acloseEnds => exact absurd rfl he
  case interrupt => grind [Server.interrupted, Server.cancelMsg, Server.modify]
  case reply => grind [Server.handleReply, Server.raise, Server.modify]
  all_goals grind [Server.raise, Server.cancelMsg, Server.modify]

/-- There is nothing in the task group if there is none. -/
def Empty (sc : Scanner) : Prop := sc.group = .none → sc.spawned = [] ∧ sc.scans = []

/-- What the scanner sees of the connection. -/
theorem follow_spec {sc sc' : Scanner} {server : Server} {a : AsyncOwfs.Action} (he : Empty sc)
    (h : follow sc server a = some sc') :
    Empty sc' ∧ sc'.saved = sc.saved ∧ sc'.scans = sc.scans ∧
      (sc'.spawned = sc.spawned ∨ sc'.spawned = sc.saved.toList) ∧
      (a = .leave → server.run ≠ .connecting → sc'.group = .none) ∧
      (a ≠ .leave → a ≠ .wake → a ≠ .greetingDone → sc'.group = sc.group) := by
  rw [follow.eq_def] at h
  split at h
  · split at h
    · rw [Scanner.step, Option.ite_none_right_eq_some, Option.some.injEq] at h
      obtain ⟨-, rfl⟩ := h
      simp [Empty]
    · rw [Option.some.injEq] at h
      subst h
      simpa [Empty] using he
  · split at h
    · contradiction
    · next sc₁ hleft =>
      rw [Scanner.step, Option.ite_none_right_eq_some, Option.some.injEq] at hleft
      obtain ⟨⟨-, hspawned, hscans⟩, rfl⟩ := hleft
      split at h
      · next hrun =>
        rw [Scanner.step, Option.ite_none_right_eq_some, Option.some.injEq] at h
        obtain ⟨-, rfl⟩ := h
        simp [Empty, hrun]
      · rw [Option.some.injEq] at h
        subst h
        simp [Empty, hspawned, hscans]
  · rw [Scanner.step, Option.ite_none_right_eq_some, Option.some.injEq] at h
    obtain ⟨-, rfl⟩ := h
    simp [Empty]
  · next hnot _ _ =>
    rw [Option.some.injEq] at h
    subst h
    split <;> simp_all [Empty]

/-! ## Phases -/

structure Sound (s : AddServer) : Prop where
  tidy : s.server.Tidy
  notCalled : s.pc = .notCalled →
    s.server.run = .connecting ∧ s.events = [] ∧ s.closing = none
  /-- Nothing is scanned before `start` is over. -/
  early : s.pc = .notCalled ∨ s.pc = .starting →
    s.inServers = false ∧ s.scanner.saved = none ∧ s.scanner.spawned = [] ∧ s.scanner.scans = []
  group : s.server.run = .sleeping ∨ s.server.run = .ended → s.scanner.group = .none
  empty : Empty s.scanner
  registered : s.pc ≠ .notCalled → s.events.head? = some .registered
  deregistered : s.pc ≠ .notCalled → s.pc ≠ .starting → s.inServers = false →
    .deregistered ∈ s.events.tail

/-- In the beginning `add_server` has not been called. -/
theorem sound_init : init.Sound := by
  refine ⟨Server.tidy_init, fun _ => ⟨rfl, rfl, rfl⟩, ?_, ?_, ?_, ?_, ?_⟩ <;>
    simp [init, Server.init, Scanner.init, Empty]

/-- A new event is not the first one. -/
theorem mem_tail_append {s : AddServer} {e : ServerEvent} (h : s.events.head? ≠ none) :
    e ∈ (s.events ++ [e]).tail := by
  cases hev : s.events with
  | nil => simp [hev] at h
  | cons x es => simp

/-- What has been told stays told. -/
theorem mem_tail_append_left {s : AddServer} {e x : ServerEvent} (h : x ∈ s.events.tail) :
    x ∈ (s.events ++ [e]).tail := by
  cases hev : s.events with
  | nil => simp [hev] at h
  | cons y es =>
      rw [hev] at h
      exact List.mem_append_left [e] h

/-- The first event stays the first one. -/
theorem head_append {s : AddServer} {e x : ServerEvent} (h : s.events.head? = some x) :
    (s.events ++ [e]).head? = some x := by
  rw [List.head?_append, h]
  rfl

/-- A step of the connection. -/
theorem sound_netStep {s s' : AddServer} {a : AsyncOwfs.Action} (hs : s.Sound)
    (hpc : s.pc ≠ .notCalled) (h : s.netStep a = some s') : s'.Sound := by
  obtain ⟨server, scanner, hserver, hscanner, rfl⟩ := netStep_cases h
  obtain ⟨hempty, hsaved, hscans, hspawned, hleave, hgroup⟩ := follow_spec hs.empty hscanner
  refine ⟨Server.tidy_step hs.tidy hserver, fun h => absurd h hpc, fun he => ?_, fun hr => ?_,
    hempty, hs.registered, hs.deregistered⟩
  · obtain ⟨hin, hnone, hnil, hnil'⟩ := hs.early he
    refine ⟨hin, hsaved.trans hnone, ?_, hscans.trans hnil'⟩
    rcases hspawned with h | h
    · exact h.trans hnil
    · rw [h, hnone]
      rfl
  · rcases run_step hserver hr with ha | ⟨hr', hdone, hwake⟩
    · refine hleave ha fun hc => ?_
      rw [hc] at hr
      rcases hr with hr | hr <;> contradiction
    · by_cases ha : a = .leave
      · refine hleave ha fun hc => ?_
        rw [hc] at hr
        rcases hr with hr | hr <;> contradiction
      · exact (hgroup ha hwake hdone).trans (hs.group hr')

/-- A step of a scanner in the background. -/
theorem sound_scannerStep {s s' : AddServer} {a : Scanner.Action} {e : Exc} (hs : s.Sound)
    (ha : a = .begins ∨ a = .vanishes ∨ ∃ n, a = .scanEnds n ∨ a = .scanRaises n)
    (h : s.scannerStep a e = some s') : s'.Sound := by
  obtain ⟨server, scanner, rfl, hscanner, hrun, hwriter, hreader, -, hml⟩ := scannerStep_cases h
  obtain ⟨hgroup, hspawned, hscans⟩ := scanner_own hscanner ha
  refine ⟨⟨?_, ?_⟩, fun h => ?_, fun he => ?_, fun hr => ?_, fun hg => ?_,
    hs.registered, hs.deregistered⟩
  · rw [hrun, hwriter, hreader]
    exact hs.tidy.children
  · rw [hrun, hml]
    exact hs.tidy.ml
  · rw [hrun]
    exact hs.notCalled h
  · obtain ⟨hin, hnone, hnil, hnil'⟩ := hs.early he
    obtain ⟨h₁, h₂⟩ := hspawned hnil
    exact ⟨hin, h₂.trans hnone, h₁, hscans hnil hnil'⟩
  · rw [hgroup]
    exact hs.group (hrun ▸ hr)
  · obtain ⟨hnil, hnil'⟩ := hs.empty (hgroup ▸ hg)
    exact ⟨(hspawned hnil).1, hscans hnil hnil'⟩

/-- `start_scan` adds nothing where there is no task group. -/
theorem empty_startScan {sc : Scanner} (he : Empty sc) (a : ScanArgs) (initial : InitialScan) :
    Empty (sc.startScan a initial) ∧ (sc.startScan a initial).group = sc.group := by
  rw [Scanner.startScan]
  split
  · exact ⟨he, rfl⟩
  · split
    · exact ⟨he, rfl⟩
    · split
      · exact ⟨he, rfl⟩
      · rw [Scanner.spawnScan]
        split
        · exact ⟨he, rfl⟩
        · next hg => exact ⟨fun h => absurd h hg, rfl⟩

/-- The first scan leaves no scanners behind. -/
theorem empty_scanned {sc sc' : Scanner} (he : Empty sc) {a : Scanner.Action}
    (ha : a = .scanned 0 ∨ a = .scanFails 0) (h : sc.step a = some sc') :
    Empty sc' ∧ sc'.group = sc.group := by
  rcases ha with rfl | rfl
  · rw [Scanner.step, Option.ite_none_right_eq_some, Option.some.injEq] at h
    obtain ⟨-, rfl⟩ := h
    split
    · rw [Scanner.spawnScan]
      split
      · exact ⟨he, rfl⟩
      · next hg => exact ⟨fun h => absurd h hg, rfl⟩
    · exact ⟨he, rfl⟩
  · rw [Scanner.step, Option.ite_none_right_eq_some, Option.some.injEq] at h
    obtain ⟨-, rfl⟩ := h
    exact ⟨he, rfl⟩

/-- Behind the first scan, `add_server` is past its start. -/
theorem scanResult_late (n : Nat) (sc : Scanner) (e : Exc) :
    scanResult n sc e ≠ .notCalled ∧ scanResult n sc e ≠ .starting := by
  rw [scanResult]
  split <;> simp

/-- `start` has raised. -/
theorem sound_startFails {s : AddServer} (hs : s.Sound) (hpc : s.pc = .starting) (e : Exc) :
    (s.startFails e).Sound := by
  have hreg := hs.registered (by simp [hpc])
  refine ⟨hs.tidy, by simp [startFails], by simp [startFails], hs.group, hs.empty,
    fun _ => head_append hreg, fun _ _ _ => ?_⟩
  exact mem_tail_append (by simp [hreg])

/-- `start` has returned, and the first scan begins. -/
theorem sound_startScan {s : AddServer} (hs : s.Sound) (hpc : s.pc = .starting) :
    (s.pushEvent .connected).startScan.Sound := by
  obtain ⟨hempty, hgroup⟩ := empty_startScan hs.empty s.args s.initialScan
  obtain ⟨h₁, h₂⟩ := scanResult_late s.scanner.nextCall
    (s.scanner.startScan s.args s.initialScan) (startScanError s.args)
  refine ⟨hs.tidy, fun h => absurd h h₁, fun h => ?_, fun hr => hgroup.trans (hs.group hr), hempty,
    fun _ => head_append (hs.registered (by simp [hpc])), fun _ _ h => ?_⟩
  · rcases h with h | h
    · exact absurd h h₁
    · exact absurd h h₂
  · contradiction

/-- The initial scan of `add_server` changes nothing but the scanner, and where
`add_server` stands. -/
theorem scanEnds_cases {s : AddServer} (he : Empty s.scanner) (result : Except Exc Unit) :
    s.scanEnds result = s ∨
      ∃ sc pc, Empty sc ∧ sc.group = s.scanner.group ∧ pc ≠ .notCalled ∧ pc ≠ .starting ∧
        s.scanEnds result = { s with scanner := sc, pc } := by
  rw [scanEnds.eq_def]
  split
  · split
    · exact .inl rfl
    · next sc hsc =>
      obtain ⟨hempty, hgroup⟩ := empty_scanned he (.inl rfl) hsc
      obtain ⟨h₁, h₂⟩ := scanResult_late 0 sc .attributeError
      exact .inr ⟨sc, _, hempty, hgroup, h₁, h₂, rfl⟩
  · split
    · exact .inl rfl
    · next sc hsc =>
      obtain ⟨hempty, hgroup⟩ := empty_scanned he (.inr rfl) hsc
      exact .inr ⟨sc, _, hempty, hgroup, by simp, by simp, rfl⟩

/-- A step of a call that closes the server: `close` apart, only the connection
changes, and the run task stays where it is. -/
theorem acloseEnds_cases {s s' : AddServer} {raises : Bool} (h : s.acloseEnds raises = some s') :
    ∃ server hasBuses, s' = { s with server, hasBuses } ∧ server.run = s.server.run ∧
      server.writer = s.server.writer ∧ server.reader = s.server.reader ∧
      server.ml = s.server.ml ∧ server.closer = .returned := by
  rw [acloseEnds] at h
  split at h
  · rw [Option.ite_none_right_eq_some, Option.some.injEq] at h
    exact ⟨_, s.hasBuses, h.2.symm, rfl, rfl, rfl, rfl, rfl⟩
  · split at h
    · contradiction
    · next server hserver =>
      rw [Option.some.injEq] at h
      rw [Server.step, Server.foldl_cancelMsg] at hserver
      rw [Option.ite_none_right_eq_some, Option.some.injEq] at hserver
      obtain ⟨-, rfl⟩ := hserver
      exact ⟨_, false, h.symm, rfl, rfl, rfl, rfl, rfl⟩

/-- What the beginning of `aclose` does. -/
theorem acloseBegins_cases {s s' : AddServer} {c : Closing} (h : s.acloseBegins c = some s') :
    ∃ server, s' = { s.pushEvent .disconnected with
        server, scanner := { s.scanner with cancelled := true }, closing := some c } ∧
      server.run = s.server.run ∧ server.writer = s.server.writer ∧
      server.reader = s.server.reader ∧ server.ml = s.server.ml ∧ server.closer = .closing := by
  rw [acloseBegins] at h
  split at h
  · contradiction
  · next server hserver =>
    rw [Option.some.injEq] at h
    rw [Server.step, Option.ite_none_left_eq_some, Option.some.injEq] at hserver
    obtain ⟨-, rfl⟩ := hserver
    exact ⟨_, h.symm, rfl, rfl, rfl, rfl, rfl⟩

/-- `aclose` is called, or waited for. -/
theorem sound_close {s : AddServer} (hs : s.Sound) (hpc : s.pc ≠ .notCalled) (c : Closing) :
    (s.close c).Sound := by
  have hreg := hs.registered hpc
  cases c
  case aclose =>
    exact ⟨hs.tidy, fun h => absurd h hpc, hs.early, hs.group, hs.empty, hs.registered,
      hs.deregistered⟩
  all_goals
    rw [close, delServer]
    split
    · next hin =>
      refine ⟨hs.tidy, fun h => absurd h hpc, fun h => ⟨rfl, (hs.early h).2⟩, hs.group, hs.empty,
        fun _ => head_append hreg, fun _ _ _ => mem_tail_append (by simp [hreg])⟩
    · exact ⟨hs.tidy, fun h => absurd h hpc, hs.early, hs.group, hs.empty, hs.registered,
        hs.deregistered⟩

/-- **One step** keeps the stages of `add_server` apart. -/
theorem sound_step {s s' : AddServer} {a : Action} (hs : s.Sound) (h : s.step a = some s') :
    s'.Sound := by
  cases a with
  | addServer args initialScan =>
      rw [step, Option.ite_none_right_eq_some, Option.some.injEq] at h
      obtain ⟨hpc, rfl⟩ := h
      obtain ⟨hin, hnone, hnil, hnil'⟩ := hs.early (.inl hpc)
      obtain ⟨hrun, hevents, -⟩ := hs.notCalled hpc
      refine ⟨hs.tidy, by simp, fun _ => ⟨hin, hnone, hnil, hnil'⟩, fun hr => ?_, by simp [Empty],
        fun _ => ?_, by simp⟩
      · rcases hr with hr | hr <;> exact absurd (hrun.symm.trans hr) (by simp)
      · simp [pushEvent, hevents]
  | started =>
      rw [step] at h
      split at h
      · next hpc _ =>
        rw [Option.some.injEq] at h
        exact h ▸ sound_startScan hs hpc
      · next hpc _ =>
        rw [Option.some.injEq] at h
        exact h ▸ sound_startFails hs hpc _
      · contradiction
  | startCancelled =>
      rw [step, Option.ite_none_right_eq_some, Option.some.injEq] at h
      obtain ⟨hpc, rfl⟩ := h
      exact sound_startFails hs hpc _
  | scanned result =>
      rw [step, Option.ite_none_right_eq_some, Option.some.injEq] at h
      obtain ⟨hpc, rfl⟩ := h
      rcases scanEnds_cases hs.empty result with h | ⟨sc, pc, hempty, hgroup, h₁, h₂, h⟩
      · rwa [h]
      · rw [h]
        refine ⟨hs.tidy, fun h => absurd h h₁, fun h => ?_, fun hr => hgroup.trans (hs.group hr),
          hempty, fun _ => hs.registered (by simp [hpc]),
          fun _ _ => hs.deregistered (by simp [hpc]) (by simp [hpc])⟩
        rcases h with h | h
        · exact absurd h h₁
        · exact absurd h h₂
  | net a =>
      rw [step, Option.ite_none_left_eq_some, not_or] at h
      exact sound_netStep hs h.1.1 h.2
  | restarts => exact sound_scannerStep hs (.inl rfl) h
  | vanishes => exact sound_scannerStep hs (.inr (.inl rfl)) h
  | scanEnds n => exact sound_scannerStep hs (.inr (.inr ⟨n, .inl rfl⟩)) h
  | scanRaises n e => exact sound_scannerStep hs (.inr (.inr ⟨n, .inr rfl⟩)) h
  | closes c =>
      rw [step] at h
      split at h
      · contradiction
      · next hpc =>
        rw [not_or] at hpc
        have hreg := hs.registered hpc.1
        split at h
        · rw [Option.some.injEq] at h
          exact h ▸ hs
        · obtain ⟨server, rfl, hrun, hwriter, hreader, hml, -⟩ := acloseBegins_cases h
          refine ⟨⟨?_, ?_⟩, fun h => absurd h hpc.1, hs.early, fun hr => hs.group (hrun ▸ hr),
            hs.empty, fun _ => head_append hreg, fun h₁ h₂ h₃ => ?_⟩
          · rw [hrun, hwriter, hreader]
            exact hs.tidy.children
          · rw [hrun, hml]
            exact hs.tidy.ml
          · exact mem_tail_append_left (hs.deregistered h₁ h₂ h₃)
  | closed raises =>
      rw [step] at h
      split at h
      · contradiction
      · next c hc =>
        rw [Option.map_eq_some_iff] at h
        obtain ⟨s₁, h₁, rfl⟩ := h
        obtain ⟨server, hasBuses, rfl, hrun, hwriter, hreader, hml, -⟩ := acloseEnds_cases h₁
        have hpc : s.pc ≠ .notCalled := by
          intro h
          simp [(hs.notCalled h).2.2] at hc
        have hs₁ : Sound { s with server, hasBuses } := by
          refine ⟨⟨?_, ?_⟩, fun h => absurd h hpc, hs.early, fun hr => hs.group (hrun ▸ hr), hs.empty,
            hs.registered, hs.deregistered⟩
          · rw [hrun, hwriter, hreader]
            exact hs.tidy.children
          · rw [hrun, hml]
            exact hs.tidy.ml
        exact sound_close hs₁ hpc c

/-! ## `add_server` raises -/

/-- **A failed `start`** leaves no trace if the run task has ended. -/
theorem noTrace_startFails {s : AddServer} (hs : s.Sound) (hpc : s.pc = .starting) (e : Exc) :
    (s.startFails e).NoTrace ↔ s.server.run = .ended := by
  have hreg := hs.registered (by simp [hpc])
  obtain ⟨hin, -, hspawned, hscans⟩ := hs.early (.inr hpc)
  constructor
  · intro h
    exact h.run
  · intro hr
    obtain ⟨hwriter, hreader⟩ := hs.tidy.children (.inr (.inr hr))
    have hstream : ¬ HasStream s.server := by simp [HasStream, hr]
    exact ⟨hin, hr, hwriter, hreader, hstream, hscans, hspawned, head_append hreg,
      mem_tail_append (by simp [hreg])⟩

/-- A raise behind `start` leaves something, unless the server has been dropped
and its run task has ended. -/
theorem noTrace_scanned {s : AddServer} (hs : s.Sound) (hpc : s.pc = .scanning) {sc : Scanner}
    (hempty : Empty sc) (hgroup : sc.group = s.scanner.group) (pc : AddPc) :
    NoTrace { s with scanner := sc, pc } ↔ s.server.run = .ended ∧ s.inServers = false := by
  constructor
  · intro h
    exact ⟨h.run, h.inServers⟩
  · intro h
    obtain ⟨hr, hin⟩ := h
    obtain ⟨hwriter, hreader⟩ := hs.tidy.children (.inr (.inr hr))
    obtain ⟨hspawned, hscans⟩ := hempty (hgroup.trans (hs.group (.inr hr)))
    have hstream : ¬ HasStream s.server := by simp [HasStream, hr]
    exact ⟨hin, hr, hwriter, hreader, hstream, hscans, hspawned, hs.registered (by simp [hpc]),
      hs.deregistered (by simp [hpc]) (by simp [hpc]) hin⟩

/-- Apart from the steps of `add_server` itself, it stays where it is. -/
theorem pc_step {s s' : AddServer} {a : Action} (h : s.step a = some s') :
    s'.pc = s.pc ∨ (∃ args initial, a = .addServer args initial) ∨ a = .started ∨
      a = .startCancelled ∨ ∃ result, a = .scanned result := by
  cases a with
  | addServer args initialScan => exact .inr (.inl ⟨args, initialScan, rfl⟩)
  | started => exact .inr (.inr (.inl rfl))
  | startCancelled => exact .inr (.inr (.inr (.inl rfl)))
  | scanned result => exact .inr (.inr (.inr (.inr ⟨result, rfl⟩)))
  | net a =>
      rw [step, Option.ite_none_left_eq_some] at h
      obtain ⟨server, scanner, -, -, rfl⟩ := netStep_cases h.2
      exact .inl rfl
  | restarts | vanishes | scanEnds n | scanRaises n e =>
      obtain ⟨server, scanner, rfl, -⟩ := scannerStep_cases h
      exact .inl rfl
  | closes c =>
      rw [step, Option.ite_none_left_eq_some] at h
      obtain ⟨-, h⟩ := h
      split at h
      · rw [Option.some.injEq] at h
        exact .inl (h ▸ rfl)
      · obtain ⟨server, rfl, -⟩ := acloseBegins_cases h
        exact .inl rfl
  | closed raises =>
      rw [step] at h
      split at h
      · contradiction
      · next c _ =>
        rw [Option.map_eq_some_iff] at h
        obtain ⟨s₁, h₁, rfl⟩ := h
        obtain ⟨server, hasBuses, rfl, -⟩ := acloseEnds_cases h₁
        cases c
        case aclose => exact .inl rfl
        all_goals
          rw [close, delServer]
          split <;> exact .inl rfl

/-- **An `add_server` that raises leaves no trace** if and only if `start` raises
when the run task has ended, or somebody has dropped the server before. -/
theorem noTrace_iff_abandoned (as : List Action) {s s' : AddServer} {a : Action} {e : Exc}
    (h : Transition.run step init as = some s) (hs' : s.step a = some s')
    (hbefore : ∀ e, s.pc ≠ .raised e) (hafter : s'.pc = .raised e) :
    s'.NoTrace ↔ s.Abandoned a := by
  have hs : s.Sound := invariant_run (fun s a s' hs h => sound_step hs h) sound_init h
  rcases pc_step hs' with hpc | ⟨args, initial, rfl⟩ | rfl | rfl | ⟨result, rfl⟩
  · exact absurd (hpc ▸ hafter) (hbefore e)
  · rw [step, Option.ite_none_right_eq_some, Option.some.injEq] at hs'
    obtain ⟨-, rfl⟩ := hs'
    contradiction
  · rw [step] at hs'
    split at hs'
    · next hpc hval =>
      rw [Option.some.injEq] at hs'
      subst hs'
      -- the server is in the list by now
      refine iff_of_false (fun h => ?_) fun h => ?_
      · have hin := h.inServers
        contradiction
      · exact h.2 (.ok ()) (by simp [hval]) rfl
    · next e' hpc hval =>
      rw [Option.some.injEq] at hs'
      subst hs'
      rw [noTrace_startFails hs hpc]
      refine ⟨fun hr => ⟨hr, fun r hr' => ?_⟩, fun h => h.1⟩
      rw [hval, Option.mem_some_iff] at hr'
      simp [← hr']
    · contradiction
  · rw [step, Option.ite_none_right_eq_some, Option.some.injEq] at hs'
    obtain ⟨hpc, rfl⟩ := hs'
    rw [noTrace_startFails hs hpc]
    exact ⟨fun hr => ⟨hr, trivial⟩, fun h => h.1⟩
  · rw [step, Option.ite_none_right_eq_some, Option.some.injEq] at hs'
    obtain ⟨hpc, rfl⟩ := hs'
    rcases scanEnds_cases hs.empty result with h | ⟨sc, pc, hempty, hgroup, -, -, h⟩
    · exact absurd (h ▸ hafter) (hbefore e)
    · rw [h]
      exact noTrace_scanned hs hpc hempty hgroup pc

/-- The first connection attempt fails. -/
theorem noTrace_connectFails :
    let as : List Action := [.addServer ⟨some 10, true, 0⟩ .now,
      .net (.connectFails .timeoutError), .net .leave]
    ∃ s s', Transition.run step init as = some s ∧ s.step .started = some s' ∧
      s'.pc = .raised .timeoutError ∧ s'.NoTrace := by
  intro as
  refine ⟨_, _, rfl, rfl, rfl, ?_⟩
  refine (noTrace_iff_abandoned (a := .started) as rfl rfl (by simp) rfl).mpr
    ⟨rfl, fun r hr => ?_⟩
  cases hr
  simp

/-- A connection that comes up undisturbed. -/
def comesUp : List Action := Server.comesUp.map .net

/-- `add_server` has raised, and left something. -/
def Leaves (s : AddServer) : Bool :=
  match s.pc with
  | .raised _ => s.inServers ∨ s.server.run ≠ .ended
  | _ => false

/-- What is left behind can be seen in the state. -/
theorem not_noTrace_of_leaves {as : List Action}
    (h : (Transition.run step init as).any Leaves = true) :
    ∃ s e, Transition.run step init as = some s ∧ s.pc = .raised e ∧ ¬ s.NoTrace := by
  obtain ⟨s, hs, hl⟩ := (Option.any_eq_true _ _).mp h
  rw [Leaves] at hl
  split at hl
  · next e hpc =>
    refine ⟨s, e, hs, hpc, fun hn => ?_⟩
    rcases of_decide_eq_true hl with hin | hr
    · rw [hn.inServers] at hin
      contradiction
    · exact hr hn.run
  · contradiction

/-- `add_server` is cancelled while it waits for the connection, is refused its
interval, or its initial scan fails. -/
theorem not_noTrace_refused :
    (∃ s e, Transition.run step init [.addServer ⟨none, true, 0⟩ .never, .startCancelled] = some s ∧
      s.pc = .raised e ∧ ¬ s.NoTrace) ∧
    (∃ s e, Transition.run step init
        (.addServer ⟨some (1 / 2), true, 0⟩ .never :: comesUp ++ [.started]) = some s ∧
      s.pc = .raised e ∧ ¬ s.NoTrace) ∧
    (∃ s e, Transition.run step init (.addServer ⟨some 10, true, 0⟩ .now :: comesUp ++
        [.started, .scanned (.error (.owfsReply 5))]) = some s ∧
      s.pc = .raised e ∧ ¬ s.NoTrace) := by
  refine ⟨not_noTrace_of_leaves ?_, not_noTrace_of_leaves ?_, not_noTrace_of_leaves ?_⟩
  all_goals decide +kernel

end AddServer

end AsyncOwfs
