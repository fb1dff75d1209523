import AsyncOwfs.AddServer.Trace

/-!
# AsyncOwfs.AddServer.Events

The events of one server, as a word: `ServerRegistered`; then `ServerConnected`
and `ServerDisconnected` in turns; then `ServerDeregistered`, when the server is
not connected.

`aclose` pushes `ServerDisconnected` whatever it finds, so the word is as it
should be if and only if no `aclose` is called before the server has been
connected, or for the second time.
-/

namespace AsyncOwfs

namespace AddServer

open Transition

/-- What the events so far say of the server. -/
inductive Phase
  | unknown
  | registered
  | connected
  | disconnected
  | deregistered
  deriving DecidableEq, Repr

/-- The next event, where it may come. -/
def Phase.next : Phase → ServerEvent → Option Phase
  | .unknown, .registered => some .registered
  | .registered, .connected | .disconnected, .connected => some .connected
  | .connected, .disconnected => some .disconnected
  | .registered, .deregistered | .disconnected, .deregistered => some .deregistered
  | _, _ => none

/-- The phase behind a word of events. -/
def phase (es : List ServerEvent) : Option Phase := es.foldlM Phase.next .unknown

/-- The events are a word of the grammar, or the beginning of one. -/
def Grammatical (s : AddServer) : Prop := (phase s.events).isSome

instance (s : AddServer) : Decidable s.Grammatical := inferInstanceAs (Decidable (_ = _))

/-- A call that closes the server finds it connected, and is the first one.  The
end of the service closes only what is in the list. -/
def ClosesOpen (s : AddServer) : Action → Prop
  | .closes c =>
    (c = .exit → s.inServers = true) → s.inServers = true ∧ s.server.closer = .notCalled
  | _ => True

instance (s : AddServer) (a : Action) : Decidable (s.ClosesOpen a) := by
  unfold ClosesOpen
  split <;> infer_instance

theorem phase_append (es : List ServerEvent) (e : ServerEvent) :
    phase (es ++ [e]) = (phase es).bind fun p => p.next e := by
  rw [phase, List.foldlM_append]
  cases h : es.foldlM Phase.next .unknown <;> simp [phase, h]

/-- The phase that the server is in. -/
def current (s : AddServer) : Phase :=
  match s.pc with
  | .notCalled => .unknown
  | .starting => .registered
  | _ =>
    if s.inServers then if s.server.closer = .notCalled then .connected else .disconnected
    else .deregistered

/-- The events tell the server's phase, and nobody has closed the server before
`start` was over. -/
structure Told (s : AddServer) : Prop where
  phase : phase s.events = some s.current
  early : s.pc = .notCalled ∨ s.pc = .starting →
    s.inServers = false ∧ s.server.closer = .notCalled ∧ s.closing = none
  closer : s.closing ≠ none → s.server.closer ≠ .notCalled

/-- In the beginning there is nothing to tell. -/
theorem told_init : init.Told := by
  constructor <;> simp [init, current, AddServer.phase, Scanner.init, Server.init]

/-- Where `add_server` has come to, once `start` has ended. -/
theorem current_late {s : AddServer} (h₁ : s.pc ≠ .notCalled) (h₂ : s.pc ≠ .starting) :
    s.current =
      if s.inServers then if s.server.closer = .notCalled then .connected else .disconnected
      else .deregistered := by
  rw [current]
  split
  · next h => exact absurd h h₁
  · next h => exact absurd h h₂
  · rfl

/-- A step of a task: what the events tell is not concerned. -/
theorem Told.of_eq {s s' : AddServer} (hs : s.Told) (hpc : s'.pc = s.pc)
    (hin : s'.inServers = s.inServers) (hcloser : s'.server.closer = s.server.closer)
    (hclosing : s'.closing = s.closing) (hevents : s'.events = s.events) : s'.Told := by
  have hcurrent : s'.current = s.current := by rw [current, current, hpc, hin, hcloser]
  refine ⟨?_, ?_, ?_⟩
  · rw [hevents, hcurrent, hs.phase]
  · rw [hpc, hin, hcloser, hclosing]
    exact hs.early
  · rw [hclosing, hcloser]
    exact hs.closer

/-- `start` has raised, and the server is forgotten. -/
theorem told_startFails {s : AddServer} (hs : s.Told) (hpc : s.pc = .starting) (e : Exc) :
    (s.startFails e).Told := by
  obtain ⟨hin, hcloser, hclosing⟩ := hs.early (.inr hpc)
  have hp : phase s.events = some .registered := by rw [hs.phase, current, hpc]
  refine ⟨?_, by simp [startFails], fun h => absurd hclosing h⟩
  rw [current_late (by simp [startFails]) (by simp [startFails])]
  simp [startFails, pushEvent, phase_append, hp, hin, Phase.next]

/-- `start` has returned, and says so. -/
theorem told_startScan {s : AddServer} (hs : s.Told) (hpc : s.pc = .starting) :
    (s.pushEvent .connected).startScan.Told := by
  obtain ⟨hin, hcloser, hclosing⟩ := hs.early (.inr hpc)
  obtain ⟨h₁, h₂⟩ := scanResult_late s.scanner.nextCall
    (s.scanner.startScan s.args s.initialScan) (startScanError s.args)
  have hp : phase s.events = some .registered := by rw [hs.phase, current, hpc]
  refine ⟨?_, fun h => ?_, fun h => absurd hclosing h⟩
  · rw [current_late h₁ h₂]
    simp [startScan, pushEvent, phase_append, hp, hcloser, Phase.next]
  · rcases h with h | h
    · exact absurd h h₁
    · exact absurd h h₂

/-- The word goes on with `ServerDisconnected` if and only if the server is
connected. -/
theorem told_acloseBegins {s s' : AddServer} {c : Closing} (hs : s.Told)
    (hpc : s.pc ≠ .notCalled) (h : s.acloseBegins c = some s') :
    (s'.Grammatical ↔ s.inServers = true ∧ s.server.closer = .notCalled) ∧
      (s'.Grammatical → s'.Told) := by
  obtain ⟨server, heq, -, -, -, -, hcloser⟩ := acloseBegins_cases h
  have hpc' : s'.pc = s.pc := by rw [heq]; rfl
  have hin' : s'.inServers = s.inServers := by rw [heq]; rfl
  have hcloser' : s'.server.closer = .closing := by rw [heq]; exact hcloser
  have hevents : phase s'.events = s.current.next .disconnected := by
    have happend : s'.events = s.events ++ [.disconnected] := by rw [heq]; rfl
    rw [happend, phase_append, hs.phase, Option.bind_some]
  have hiff : (s.current.next .disconnected).isSome ↔
      s.inServers = true ∧ s.server.closer = .notCalled := by
    by_cases hstart : s.pc = .starting
    · simp [current, hstart, Phase.next, (hs.early (.inr hstart)).1]
    · rw [current_late hpc hstart]
      split
      · next hin =>
        split
        · next hc => simp [Phase.next, hin, hc]
        · next hc => simp [Phase.next, hc]
      · next hin => simp [Phase.next, hin]
  have hgram : s'.Grammatical ↔ s.inServers = true ∧ s.server.closer = .notCalled := by
    rw [Grammatical, hevents, hiff]
  refine ⟨hgram, fun h => ?_⟩
  obtain ⟨hin, hc⟩ := hgram.mp h
  have hstart : s.pc ≠ .starting := by
    intro hstart
    rw [(hs.early (.inr hstart)).1] at hin
    contradiction
  refine ⟨?_, fun h => ?_, fun _ => by simp [hcloser']⟩
  · rw [hevents, current_late hpc hstart, current_late (hpc' ▸ hpc) (hpc' ▸ hstart)]
    simp [hin, hc, hin', hcloser', Phase.next]
  · rw [hpc'] at h
    rcases h with h | h
    · exact absurd h hpc
    · exact absurd h hstart

/-- `aclose` tells nothing twice. -/
theorem told_close {s : AddServer} {c : Closing} (hs : s.Told) (hclosing : s.closing ≠ none) :
    (s.close c).Told := by
  have h₁ : s.pc ≠ .notCalled := fun h => hclosing (hs.early (.inl h)).2.2
  have h₂ : s.pc ≠ .starting := fun h => hclosing (hs.early (.inr h)).2.2
  have hcloser := hs.closer hclosing
  have hearly : ∀ {p : Prop}, s.pc = .notCalled ∨ s.pc = .starting → p := by
    intro p h
    rcases h with h | h
    · exact absurd h h₁
    · exact absurd h h₂
  cases c
  case aclose => exact ⟨hs.phase, hearly, fun h => absurd rfl h⟩
  all_goals
    rw [close, delServer]
    split
    · next hin =>
      refine ⟨?_, hearly, fun h => absurd rfl h⟩
      have hp := hs.phase
      rw [current_late h₁ h₂, if_pos hin, if_neg hcloser] at hp
      have hcurrent : current { s.pushEvent .deregistered with inServers := false, closing := none } =
          .deregistered := by
        rw [current_late]
        · rfl
        · exact h₁
        · exact h₂
      rw [hcurrent]
      simp [pushEvent, phase_append, hp, Phase.next]
    · exact ⟨hs.phase, hearly, fun h => absurd rfl h⟩

/-- **One step**: the events go on as they should if and only if no call closes a
server that is not open. -/
theorem told_step {s s' : AddServer} {a : Action} (hempty : Empty s.scanner) (hs : s.Told)
    (h : s.step a = some s') :
    (s'.Grammatical ↔ s.ClosesOpen a) ∧ (s'.Grammatical → s'.Told) := by
  -- in all cases but one there is nothing to show but that the phase is told
  have hquiet : s'.Told → s.ClosesOpen a →
      (s'.Grammatical ↔ s.ClosesOpen a) ∧ (s'.Grammatical → s'.Told) := by
    intro ht ho
    exact ⟨iff_of_true (by rw [Grammatical, ht.phase]; rfl) ho, fun _ => ht⟩
  cases a with
  | addServer args initialScan =>
      rw [step, Option.ite_none_right_eq_some, Option.some.injEq] at h
      obtain ⟨hpc, rfl⟩ := h
      obtain ⟨hin, hcloser, hclosing⟩ := hs.early (.inl hpc)
      have hp : phase s.events = some .unknown := by rw [hs.phase, current, hpc]
      refine hquiet ⟨?_, fun _ => ⟨hin, hcloser, hclosing⟩, fun h => absurd hclosing h⟩ trivial
      simp [pushEvent, phase_append, hp, Phase.next, current]
  | started =>
      rw [step] at h
      split at h
      · next hpc _ =>
        rw [Option.some.injEq] at h
        exact hquiet (h ▸ told_startScan hs hpc) trivial
      · next hpc _ =>
        rw [Option.some.injEq] at h
        exact hquiet (h ▸ told_startFails hs hpc _) trivial
      · contradiction
  | startCancelled =>
      rw [step, Option.ite_none_right_eq_some, Option.some.injEq] at h
      obtain ⟨hpc, rfl⟩ := h
      exact hquiet (told_startFails hs hpc _) trivial
  | scanned result =>
      rw [step, Option.ite_none_right_eq_some, Option.some.injEq] at h
      obtain ⟨hpc, rfl⟩ := h
      refine hquiet ?_ trivial
      rcases scanEnds_cases hempty result with h | ⟨sc, pc, -, -, h₁, h₂, h⟩
      · rwa [h]
      · rw [h]
        refine ⟨?_, fun h => ?_, hs.closer⟩
        · rw [current_late h₁ h₂, hs.phase, current_late (by simp [hpc]) (by simp [hpc])]
        · rcases h with h | h
          · exact absurd h h₁
          · exact absurd h h₂
  | net a =>
      rw [step, Option.ite_none_left_eq_some, not_or] at h
      obtain ⟨⟨-, ha⟩, h⟩ := h
      obtain ⟨server, scanner, hserver, -, rfl⟩ := netStep_cases h
      have hcloser : server.closer = s.server.closer := by
        apply closer_step hserver
        · rintro rfl
          exact ha rfl
        · rintro rfl
          exact ha rfl
      exact hquiet (hs.of_eq rfl rfl hcloser rfl rfl) trivial
  | restarts | vanishes | scanEnds n | scanRaises n e =>
      obtain ⟨server, scanner, rfl, -, -, -, -, hcloser, -⟩ := scannerStep_cases h
      exact hquiet (hs.of_eq rfl rfl hcloser rfl rfl) trivial
  | closes c =>
      rw [step, Option.ite_none_left_eq_some, not_or] at h
      obtain ⟨⟨hpc, -⟩, h⟩ := h
      split at h
      · next hexit =>
        rw [Option.some.injEq] at h
        refine hquiet (h ▸ hs) fun hin => ?_
        exact absurd (hin hexit.1) hexit.2
      · next hexit =>
        obtain ⟨hgram, htold⟩ := told_acloseBegins hs hpc h
        refine ⟨hgram.trans ⟨fun ho _ => ho, fun ho => ho fun hc => ?_⟩, htold⟩
        by_contra hin
        exact hexit ⟨hc, hin⟩
  | closed raises =>
      rw [step] at h
      split at h
      · contradiction
      · next c hc =>
        rw [Option.map_eq_some_iff] at h
        obtain ⟨s₁, h₁, rfl⟩ := h
        have hne : s.closing ≠ none := by simp [hc]
        have hcloser := hs.closer hne
        obtain ⟨server, hasBuses, rfl, -, -, -, -, hret⟩ := acloseEnds_cases h₁
        refine hquiet (told_close ⟨?_, fun h => absurd (hs.early h).2.2 hne, fun _ => ?_⟩ hne) trivial
        · rw [hs.phase]
          simp [current, hret, hcloser]
        · simp [hret]

/-- **The events of a server are grammatical** in every state of a run if and
only if every call that closes the server finds it open. -/
theorem grammatical_iff_closesOpen (as : List Action) :
    AllStates step Grammatical init as ↔ AllSteps step ClosesOpen init as := by
  refine allStates_iff_allSteps_of (H := fun _ _ => True) (I := fun s => s.Sound ∧ s.Told)
    (fun s a s' hs _ _ hp' h => ?_) (fun s a s' hs _ _ h => ?_) ⟨sound_init, told_init⟩ rfl
    (allSteps_true _ _)
  · exact ⟨sound_step hs.1 h, (told_step hs.1.empty hs.2 h).2 hp'⟩
  · exact (told_step hs.1.empty hs.2 h).1

/-- A server that is closed, and then dropped, or dropped twice; and one whose
first connection has failed. -/
theorem not_grammatical_twice :
    ¬ AllStates step Grammatical init (.addServer ⟨none, true, 0⟩ .never :: comesUp ++
      [.started, .closes .aclose, .closed false, .closes .drop]) ∧
    ¬ AllStates step Grammatical init (.addServer ⟨none, true, 0⟩ .never :: comesUp ++
      [.started, .closes .drop, .closed false, .closes .drop]) ∧
    ¬ AllStates step Grammatical init [.addServer ⟨none, true, 0⟩ .never,
      .net (.connectFails .timeoutError), .net .leave, .started, .closes .drop] := by
  refine ⟨fun h => ?_, fun h => ?_, fun h => ?_⟩
  all_goals exact absurd (h.of_run rfl) (by decide)

end AddServer

end AsyncOwfs
