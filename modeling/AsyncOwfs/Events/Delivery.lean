import AsyncOwfs.Events

/-!
# AsyncOwfs.Events.Delivery

What a listener gets: the events that are pushed while it is there, each once and in
their order, whoever pushes them and however long they wait (`delivered_of_run`).

Once the service has closed the queue, a listener that goes on gets the rest, and then
cannot leave its `async with` in peace (`ends_of_closed`).  A listener that waits in a
push of its own, or that has failed, leaves those who wait behind it waiting forever
(`waits_forever`).
-/

namespace AsyncOwfs

open Transition

variable {E : Type}

/-! ## One listener -/

/-- The queue of the service is that of this listener. -/
def Listener.Active : Listener → Prop
  | .absent | .left | .failed => False
  | _ => True

/-- The loop of `__aexit__` has begun. -/
def Listener.Exiting : Listener → Prop
  | .draining | .left | .raised => True
  | _ => False

namespace Session

/-- What holds of a listener when the calls up to a number have been made. -/
structure Sound (x : Session E) (calls : Nat) : Prop where
  fifo : x.received ++ x.unprocessed ++ x.channel.contents = x.due
  bounded : x.channel.Bounded eventQueueSize
  nodup : (x.pushed.map Prod.fst).Nodup
  fresh : ∀ c ∈ x.pushed.map Prod.fst, c < calls
  fresh_withdrawn : ∀ c ∈ x.withdrawn, c < calls
  unprocessed : ¬ x.listener.Exiting → x.unprocessed = []
  finished : x.listener = .stopped ∨ x.listener = .raised →
    x.channel.closed = true ∧ x.channel.contents = []
  left : x.listener = .left → x.channel.closed = false ∧ x.channel.contents = []

variable {x : Session E} {calls : Nat}

theorem sound_empty (calls : Nat) : ({} : Session E).Sound calls := by
  constructor <;> simp [due, Channel.contents, Channel.bounded_empty]

/-- More calls do not matter. -/
theorem Sound.mono (h : x.Sound calls) {calls' : Nat} (hle : calls ≤ calls') :
    x.Sound calls' :=
  { h with
    fresh := fun c hc => Nat.lt_of_lt_of_le (h.fresh c hc) hle
    fresh_withdrawn := fun c hc => Nat.lt_of_lt_of_le (h.fresh_withdrawn c hc) hle }

/-- What is in the channel was pushed. -/
theorem Sound.mem_pushed (h : x.Sound calls) {p : Nat × E} (hp : p ∈ x.channel.contents) :
    p ∈ x.pushed := by
  have hdue : p ∈ x.due := by
    rw [← h.fifo]
    simp [hp]
  exact (List.mem_filter.mp hdue).1

/-- Different items of the channel come from different calls. -/
theorem Sound.nodup_contents (h : x.Sound calls) :
    (x.channel.contents.map Prod.fst).Nodup := by
  have hdue : (x.due.map Prod.fst).Nodup := h.nodup.sublist (List.filter_sublist.map _)
  rw [← h.fifo, List.map_append] at hdue
  exact (List.nodup_append.mp hdue).2.1

/-- What is sent is due last. -/
theorem due_send (h : x.Sound calls) (e : E) : (x.send calls e).due = x.due ++ [(calls, e)] := by
  have hcall : calls ∉ x.withdrawn := by
    intro hmem
    have := h.fresh_withdrawn calls hmem
    omega
  rw [due, due, send, List.filter_append]
  simp [hcall]

/-- A push into a stream that is open. -/
theorem Sound.send (h : x.Sound calls) (hopen : x.channel.closed = false)
    (hactive : x.listener.Active) (e : E) : (x.send calls e).Sound (calls + 1) := by
  constructor
  case fifo =>
    rw [due_send h, ← h.fifo]
    simp [Session.send, Channel.contents_send h.bounded]
  case bounded => exact h.bounded.send
  case nodup =>
    have hcall : calls ∉ x.pushed.map Prod.fst := by
      intro hmem
      have := h.fresh calls hmem
      omega
    rw [Session.send, List.map_append, List.nodup_append]
    refine ⟨h.nodup, List.nodup_singleton _, ?_⟩
    intro a ha b hb heq
    simp only [List.map_cons, List.map_nil, List.mem_singleton] at hb
    exact hcall (hb ▸ heq ▸ ha)
  case fresh =>
    intro c hc
    simp only [Session.send, List.map_append, List.mem_append, List.map_cons, List.map_nil,
      List.mem_singleton] at hc
    rcases hc with hc | rfl
    · have := h.fresh c hc
      omega
    · omega
  case fresh_withdrawn =>
    intro c hc
    have := h.fresh_withdrawn c hc
    omega
  case unprocessed => exact h.unprocessed
  case finished =>
    intro hover
    have := (h.finished hover).1
    simp [hopen] at this
  case left =>
    intro hleft
    simp [Session.send] at hleft
    simp [hleft, Listener.Active] at hactive

/-- A call that waits is cancelled. -/
theorem Sound.withdraw (h : x.Sound calls) {call : Nat} (hwaits : x.Waits call) :
    (x.withdraw call).Sound calls := by
  obtain ⟨⟨c, e⟩, hp, rfl⟩ := List.mem_map.mp hwaits
  have hcontents : (c, e) ∈ x.channel.contents := List.mem_append_right _ hp
  have hnodup := h.nodup_contents
  -- the call is nowhere but among those that wait
  have hbuffer : ∀ b ∈ x.channel.buffer, decide (b.1 = c) = false := by
    intro b hb
    rw [Channel.contents, List.map_append, List.nodup_append] at hnodup
    have := hnodup.2.2 b.1 (List.mem_map_of_mem hb) c (List.mem_map_of_mem hp)
    simpa using this
  have hreceived : ∀ p ∈ x.received ++ x.unprocessed, p.1 ≠ c := by
    intro p hmem
    have hdue : (x.due.map Prod.fst).Nodup := h.nodup.sublist (List.filter_sublist.map _)
    rw [← h.fifo, List.map_append, List.nodup_append] at hdue
    exact hdue.2.2 p.1 (List.mem_map_of_mem hmem) c (List.mem_map_of_mem hcontents)
  constructor
  case fifo =>
    have hdue : (x.withdraw c).due = x.due.filter fun p => !decide (p.1 = c) := by
      simp only [due, Session.withdraw, List.filter_filter]
      apply List.filter_congr
      intro p _
      by_cases hpc : p.1 = c <;> simp [hpc]
    rw [hdue, ← h.fifo, List.filter_append]
    show x.received ++ x.unprocessed ++ (x.channel.withdraw _).contents = _
    rw [Channel.contents_withdraw hbuffer]
    congr 1
    symm
    rw [List.filter_eq_self]
    intro p hp
    simpa using hreceived p hp
  case bounded => exact h.bounded.withdraw
  case nodup => exact h.nodup
  case fresh => exact h.fresh
  case fresh_withdrawn =>
    intro c' hc'
    rcases List.mem_cons.mp hc' with rfl | hc'
    · exact h.fresh c' (List.mem_map_of_mem (h.mem_pushed hcontents))
    · exact h.fresh_withdrawn c' hc'
  case unprocessed =>
    intro hexit
    refine h.unprocessed ?_
    by_cases hpush : x.listener = .pushing c
    · simp [hpush, Listener.Exiting]
    · simpa [Session.withdraw, hpush] using hexit
  case finished =>
    intro hover
    have hnil : x.channel.contents = [] := by
      refine (h.finished ?_).2
      by_cases hpush : x.listener = .pushing c
      · simp [Session.withdraw, hpush] at hover
      · simpa [Session.withdraw, hpush] using hover
    simp [hnil] at hcontents
  case left =>
    intro hleft
    have hnil : x.channel.contents = [] := by
      refine (h.left ?_).2
      by_cases hpush : x.listener = .pushing c
      · simp [Session.withdraw, hpush] at hleft
      · simpa [Session.withdraw, hpush] using hleft
    simp [hnil] at hcontents

/-- `__anext__` returns an event. -/
theorem Sound.next (h : x.Sound calls) (hl : x.listener = .iterating) {p : Nat × E}
    {channel : Channel (Nat × E)} (hr : x.channel.receive = some (p, channel)) :
    Sound { x with channel, received := x.received ++ [p] } calls := by
  have hnone : x.unprocessed = [] := h.unprocessed (by simp [hl, Listener.Exiting])
  have hfifo := h.fifo
  rw [hnone, Channel.contents_of_receive hr] at hfifo
  constructor
  case fifo =>
    show x.received ++ [p] ++ x.unprocessed ++ channel.contents = x.due
    rw [hnone, ← hfifo]
    simp
  case bounded => exact h.bounded.receive hr
  case nodup => exact h.nodup
  case fresh => exact h.fresh
  case fresh_withdrawn => exact h.fresh_withdrawn
  case unprocessed => exact h.unprocessed
  case finished => simp [hl]
  case left => simp [hl]

/-- `__aexit__` logs an event. -/
theorem Sound.drain (h : x.Sound calls) (hl : x.listener = .draining) {p : Nat × E}
    {channel : Channel (Nat × E)} (hr : x.channel.receive = some (p, channel)) :
    Sound { x with channel, unprocessed := x.unprocessed ++ [p] } calls := by
  have hfifo := h.fifo
  rw [Channel.contents_of_receive hr] at hfifo
  constructor
  case fifo =>
    show x.received ++ (x.unprocessed ++ [p]) ++ channel.contents = x.due
    rw [← hfifo]
    simp
  case bounded => exact h.bounded.receive hr
  case nodup => exact h.nodup
  case fresh => exact h.fresh
  case fresh_withdrawn => exact h.fresh_withdrawn
  case unprocessed => simp [hl, Listener.Exiting]
  case finished => simp [hl]
  case left => simp [hl]

/-- The queue is closed while somebody listens. -/
theorem Sound.close (h : x.Sound calls) (hactive : x.listener.Active) :
    Sound { x with channel := x.channel.close } calls := by
  constructor
  case fifo => exact h.fifo
  case bounded => exact h.bounded.close
  case nodup => exact h.nodup
  case fresh => exact h.fresh
  case fresh_withdrawn => exact h.fresh_withdrawn
  case unprocessed => exact h.unprocessed
  case finished => exact fun hover => ⟨rfl, (h.finished hover).2⟩
  case left =>
    intro hleft
    have hleft' : x.listener = .left := hleft
    simp [hleft', Listener.Active] at hactive

/-- The listener goes somewhere else. -/
theorem Sound.goes (h : x.Sound calls) {l : Listener}
    (hexit : ¬ l.Exiting → ¬ x.listener.Exiting)
    (hover : l = .stopped ∨ l = .raised → x.channel.closed = true ∧ x.channel.contents = [])
    (hleft : l = .left → x.channel.closed = false ∧ x.channel.contents = []) :
    Sound { x with listener := l } calls :=
  ⟨h.fifo, h.bounded, h.nodup, h.fresh, h.fresh_withdrawn, fun hl => h.unprocessed (hexit hl),
    hover, hleft⟩

end Session

namespace Events

/-! ## All listeners -/

/-- What holds in every state: of each listener, and that one at most is active, the one
whose stream is the queue. -/
structure Sound (s : Events E) : Prop where
  session : ∀ n, (s.session n).Sound s.nextCall
  queue : ∀ n, s.queue = some n ↔ (s.session n).listener.Active
  fresh : ∀ n, s.nextSession ≤ n → s.session n = {}

/-- In the beginning nobody listens. -/
theorem sound_init : (init : Events E).Sound := by
  constructor
  · exact fun _ => Session.sound_empty 0
  · intro n
    simp [init, Listener.Active]
  · exact fun _ _ => rfl

variable {s s' : Events E} {n : Nat}

/-- One listener changes, or its stream does. -/
theorem Sound.modify (h : s.Sound) {f : Session E → Session E}
    (hf : (f (s.session n)).Sound s.nextCall) (hn : s.session n ≠ {})
    (hactive : (f (s.session n)).listener.Active ↔ (s.session n).listener.Active) :
    (s.modify n f).Sound := by
  have hlt : n < s.nextSession := by
    by_contra hle
    exact hn (h.fresh n (by omega))
  constructor
  · intro m
    by_cases hm : m = n
    · subst hm
      simpa [Events.modify] using hf
    · simpa [Events.modify, hm] using h.session m
  · intro m
    by_cases hm : m = n
    · subst hm
      simpa [Events.modify, hactive] using h.queue m
    · simpa [Events.modify, hm] using h.queue m
  · intro m hle
    have hle' : s.nextSession ≤ m := hle
    have hm : m ≠ n := by omega
    simpa [Events.modify, hm] using h.fresh m hle'

/-- Who listens has entered. -/
theorem ne_empty_of_active (hactive : (s.session n).listener.Active) : s.session n ≠ {} := by
  intro hempty
  simp [hempty, Listener.Active] at hactive

/-- The listener stays with the queue. -/
theorem Sound.goes (h : s.Sound) {l : Listener} (hactive : (s.session n).listener.Active)
    (hl : l.Active) (hexit : ¬ l.Exiting → ¬ (s.session n).listener.Exiting)
    (hover : l = .stopped ∨ l = .raised →
      (s.session n).channel.closed = true ∧ (s.session n).channel.contents = []) :
    (s.modify n fun x => { x with listener := l }).Sound := by
  refine h.modify ((h.session n).goes hexit hover ?_) (ne_empty_of_active hactive) ?_
  · intro hleft
    simp [hleft, Listener.Active] at hl
  · exact iff_of_true hl hactive

/-- The listener is gone, and the queue with it. -/
theorem Sound.leaves (h : s.Sound) {l : Listener} (hactive : (s.session n).listener.Active)
    (hl : ¬ l.Active) (hx : Session.Sound { s.session n with listener := l } s.nextCall) :
    Sound { s.modify n fun x => { x with listener := l } with queue := none } := by
  have hqueue := (h.queue n).mpr hactive
  constructor
  · intro m
    by_cases hm : m = n
    · subst hm
      simpa [Events.modify] using hx
    · simpa [Events.modify, hm] using h.session m
  · intro m
    by_cases hm : m = n
    · subst hm
      simpa [Events.modify] using hl
    · have hother : ¬ (s.session m).listener.Active := by
        rw [← h.queue m, hqueue, Option.some.injEq]
        exact fun heq => hm heq.symm
      simpa [Events.modify, hm] using hother
  · intro m hle
    have hle' : s.nextSession ≤ m := hle
    have hm : m ≠ n := by
      rintro rfl
      rw [h.fresh m hle'] at hactive
      simp [Listener.Active] at hactive
    simpa [Events.modify, hm] using h.fresh m hle'

/-- A call that sends nothing. -/
theorem Sound.called (h : s.Sound) : Sound { s with nextCall := s.nextCall + 1 } :=
  ⟨fun m => (h.session m).mono (Nat.le_succ _), h.queue, h.fresh⟩

/-- An event is sent to the session that has the queue. -/
theorem Sound.pushEvent (h : s.Sound) (e : E) : (s.pushEvent e).Sound := by
  unfold Events.pushEvent
  split
  · exact h.called
  · next n hq =>
    have hactive := (h.queue n).mp hq
    split
    · exact h.called
    · next hclosed =>
      have hopen : (s.session n).channel.closed = false := by simpa using hclosed
      exact h.called.modify (f := fun x => x.send s.nextCall e)
        ((h.session n).send hopen hactive e) (ne_empty_of_active hactive) Iff.rfl

/-- A push does not move the listener. -/
theorem session_pushEvent_listener (s : Events E) (e : E) (n : Nat) :
    ((s.pushEvent e).session n).listener = (s.session n).listener := by
  unfold pushEvent
  split
  · rfl
  · next m _ =>
    split
    · rfl
    · by_cases hm : n = m
      · subst hm
        simp [modify, Session.send]
      · simp [modify, hm]

/-- **One step** loses and doubles no event. -/
theorem sound_step {a : Action E} (h : s.Sound) (hs : s.step a = some s') : s'.Sound := by
  cases a <;> simp only [step] at hs
  case enter =>
    split at hs
    · next hq =>
      rw [Option.some.injEq] at hs
      subst hs
      have hfresh := h.fresh s.nextSession (Nat.le_refl _)
      constructor
      · intro m
        by_cases hm : m = s.nextSession
        · subst hm
          have hsound := (Session.sound_empty (E := E) s.nextCall).goes (l := .iterating)
            (by simp [Listener.Exiting]) (by simp) (by simp)
          simpa [modify] using hsound
        · simpa [modify, hm] using h.session m
      · intro m
        by_cases hm : m = s.nextSession
        · simp [modify, hm, Listener.Active]
        · have hother := h.queue m
          rw [hq] at hother
          simpa [modify, hm, Ne.symm hm] using hother
      · intro m hle
        have hle' : s.nextSession + 1 ≤ m := hle
        have hm : m ≠ s.nextSession := by omega
        simpa [modify, hm] using h.fresh m (by omega)
    · contradiction
  case push e =>
    rw [Option.some.injEq] at hs
    exact hs ▸ h.pushEvent e
  case listenerPushes n e =>
    split at hs
    · next hl =>
      have hpush := h.pushEvent e
      have hl' : ((s.pushEvent e).session n).listener = .iterating := by
        rw [session_pushEvent_listener, hl]
      split at hs <;> rw [Option.some.injEq] at hs <;> subst hs
      · apply hpush.goes <;> simp [hl', Listener.Exiting, Listener.Active]
      · exact hpush
    · contradiction
  case listenerResumes n =>
    split at hs
    · next call hl =>
      split at hs
      · contradiction
      · rw [Option.some.injEq] at hs
        subst hs
        apply h.goes <;> simp [hl, Listener.Exiting, Listener.Active]
    · contradiction
  case withdraw n call =>
    split at hs
    · next hwaits =>
      rw [Option.some.injEq] at hs
      subst hs
      refine h.modify ((h.session n).withdraw hwaits) ?_ ?_
      · intro hempty
        simp [Session.Waits, hempty] at hwaits
      · by_cases hpush : (s.session n).listener = .pushing call <;>
          simp [Session.withdraw, hpush, Listener.Active]
    · contradiction
  case next n =>
    split at hs
    · next p channel hl hr =>
      rw [Option.some.injEq] at hs
      subst hs
      exact h.modify ((h.session n).next hl hr)
        (ne_empty_of_active (by simp [hl, Listener.Active])) Iff.rfl
    · contradiction
  case stop n =>
    split at hs
    · next hl hr =>
      split at hs
      · next hclosed =>
        rw [Option.some.injEq] at hs
        subst hs
        have hnil := Channel.receive_eq_none_iff.mp hr
        apply h.goes <;> simp [hl, hclosed, hnil, Listener.Exiting, Listener.Active]
      · contradiction
    · contradiction
  case exits n =>
    split at hs
    case h_3 => contradiction
    all_goals
      next hl =>
      rw [Option.some.injEq] at hs
      subst hs
      apply h.goes <;> simp [hl, Listener.Exiting, Listener.Active]
  case fails n =>
    split at hs
    case h_3 => contradiction
    all_goals
      next hl =>
      rw [Option.some.injEq] at hs
      subst hs
      refine h.leaves ?_ ?_ ((h.session n).goes ?_ ?_ ?_) <;>
        simp [hl, Listener.Exiting, Listener.Active]
  case drain n =>
    split at hs
    · next p channel hl hr =>
      rw [Option.some.injEq] at hs
      subst hs
      exact h.modify ((h.session n).drain hl hr)
        (ne_empty_of_active (by simp [hl, Listener.Active])) Iff.rfl
    · contradiction
  case timeout n =>
    split at hs
    · next hl hr =>
      split at hs
      · contradiction
      · next hopen =>
        rw [Option.some.injEq] at hs
        subst hs
        have hnil := Channel.receive_eq_none_iff.mp hr
        refine h.leaves ?_ ?_ ((h.session n).goes ?_ ?_ ?_) <;>
          simp_all [Listener.Exiting, Listener.Active]
    · contradiction
  case drainEnds n =>
    split at hs
    · next hl hr =>
      split at hs
      · next hclosed =>
        rw [Option.some.injEq] at hs
        subst hs
        have hnil := Channel.receive_eq_none_iff.mp hr
        apply h.goes <;> simp [hl, hclosed, hnil, Listener.Exiting, Listener.Active]
      · contradiction
    · contradiction
  case close =>
    cases hq : s.queue with
    | none =>
        simp only [hq, Option.some.injEq] at hs
        exact hs ▸ h
    | some n =>
        simp only [hq, Option.some.injEq] at hs
        subst hs
        have hactive := (h.queue n).mp hq
        exact h.modify ((h.session n).close hactive) (ne_empty_of_active hactive) Iff.rfl

theorem sound_run {as : List (Action E)} (h : run step s as = some s') (hs : s.Sound) : s'.Sound :=
  invariant_run (fun _ _ _ hs h => sound_step hs h) hs h

/-! ## What a step does to one listener -/

/-- What an action does to the listener `n` and its stream. -/
inductive Moves (a : Action E) (n : Nat) : Session E → Session E → Prop
  | same {x : Session E} : Moves a n x x
  | enters : Moves a n {} { listener := .iterating }
  | sends {x : Session E} (call : Nat) (e : E) (hactive : x.listener.Active)
      (hopen : x.channel.closed = false) : Moves a n x (x.send call e)
  | waits {x : Session E} (call : Nat) (e : E) (ha : a = .listenerPushes n e)
      (hl : x.listener = .iterating) (hopen : x.channel.closed = false) :
      Moves a n x { x.send call e with listener := .pushing call }
  | resumes {x : Session E} (call : Nat) (hl : x.listener = .pushing call)
      (hwaits : ¬ x.Waits call) : Moves a n x { x with listener := .iterating }
  | withdraws {x : Session E} (call : Nat) (hwaits : x.Waits call) : Moves a n x (x.withdraw call)
  | next {x : Session E} {p : Nat × E} {channel : Channel (Nat × E)} (ha : a = .next n)
      (hl : x.listener = .iterating) (hr : x.channel.receive = some (p, channel)) :
      Moves a n x { x with channel, received := x.received ++ [p] }
  | drain {x : Session E} {p : Nat × E} {channel : Channel (Nat × E)}
      (hl : x.listener = .draining) (hr : x.channel.receive = some (p, channel)) :
      Moves a n x { x with channel, unprocessed := x.unprocessed ++ [p] }
  | goes {x : Session E} (l : Listener)
      (hl : x.listener = .iterating ∨ x.listener = .stopped ∨ x.listener = .draining)
      (hexit : l.Exiting → a = .exits n ∨ x.listener.Exiting) : Moves a n x { x with listener := l }
  | closes {x : Session E} : Moves a n x { x with channel := x.channel.close }

variable {a : Action E}

/-- Only one session moves. -/
theorem moves_update {x : Session E} (hx : Moves a n (s.session n) x) (m : Nat)
    (hs : s'.session = Function.update s.session n x) :
    Moves a m (s.session m) (s'.session m) := by
  rw [hs]
  by_cases hm : m = n
  · subst hm
    simpa using hx
  · simpa [hm] using .same

/-- A push moves the session that has the queue. -/
theorem moves_pushEvent (h : s.Sound) (e : E) (m : Nat) :
    Moves a m (s.session m) ((s.pushEvent e).session m) := by
  unfold pushEvent
  split
  · exact .same
  · next n hq =>
    split
    · exact .same
    · next hclosed =>
      exact moves_update (.sends _ _ ((h.queue n).mp hq) (by simpa using hclosed)) m rfl

/-- **What a step does to a session**, whichever it is about. -/
theorem moves_step (h : s.Sound) (hs : s.step a = some s') (m : Nat) :
    Moves a m (s.session m) (s'.session m) := by
  cases a <;> simp only [step] at hs
  case enter =>
    split at hs
    · rw [Option.some.injEq] at hs
      subst hs
      refine moves_update (n := s.nextSession) ?_ m rfl
      rw [h.fresh s.nextSession (Nat.le_refl _)]
      exact .enters
    · contradiction
  case push e =>
    rw [Option.some.injEq] at hs
    exact hs ▸ moves_pushEvent h e m
  case listenerPushes n e =>
    split at hs
    · next hl =>
      have hq : s.queue = some n := (h.queue n).mpr (by simp [hl, Listener.Active])
      split at hs <;> rw [Option.some.injEq] at hs <;> subst hs
      · next hwaits =>
        by_cases hm : m = n
        · subst hm
          by_cases hclosed : (s.session m).channel.closed = true
          · -- nothing was sent, so that the number of the call is not there
            exfalso
            have hcall : s.nextCall ∈ (s.session m).pushed.map Prod.fst := by
              have hwaits' : (s.session m).Waits s.nextCall := by
                simpa [pushEvent, hq, hclosed] using hwaits
              obtain ⟨p, hp, hc⟩ := List.mem_map.mp hwaits'
              exact List.mem_map.mpr
                ⟨p, (h.session m).mem_pushed (List.mem_append_right _ hp), hc⟩
            have := (h.session m).fresh _ hcall
            omega
          · have hmoves := Moves.waits (n := m) s.nextCall e rfl hl (by simpa using hclosed)
            simpa [pushEvent, hq, hclosed, modify] using hmoves
        · simpa [modify, hm] using moves_pushEvent h e m
      · exact moves_pushEvent h e m
    · contradiction
  case listenerResumes n =>
    split at hs
    · next call hl =>
      split at hs
      · contradiction
      · next hwaits =>
        rw [Option.some.injEq] at hs
        exact moves_update (.resumes call hl hwaits) m (hs ▸ rfl)
    · contradiction
  case withdraw n call =>
    split at hs
    · next hwaits =>
      rw [Option.some.injEq] at hs
      exact moves_update (.withdraws call hwaits) m (hs ▸ rfl)
    · contradiction
  case next n =>
    split at hs
    · next p channel hl hr =>
      rw [Option.some.injEq] at hs
      exact moves_update (.next rfl hl hr) m (hs ▸ rfl)
    · contradiction
  case stop n =>
    split at hs
    · next hl hr =>
      split at hs
      · rw [Option.some.injEq] at hs
        exact moves_update (.goes (x := s.session n) .stopped (.inl hl) (by simp [Listener.Exiting])) m (hs ▸ rfl)
      · contradiction
    · contradiction
  case exits n =>
    split at hs
    case h_3 => contradiction
    all_goals
      next hl =>
      rw [Option.some.injEq] at hs
      exact moves_update (.goes (x := s.session n) .draining (by simp [hl]) (fun _ => .inl rfl)) m (hs ▸ rfl)
  case fails n =>
    split at hs
    case h_3 => contradiction
    all_goals
      next hl =>
      rw [Option.some.injEq] at hs
      exact moves_update (.goes (x := s.session n) .failed (by simp [hl]) (by simp [Listener.Exiting])) m (hs ▸ rfl)
  case drain n =>
    split at hs
    · next p channel hl hr =>
      rw [Option.some.injEq] at hs
      exact moves_update (.drain hl hr) m (hs ▸ rfl)
    · contradiction
  case timeout n =>
    split at hs
    · next hl hr =>
      split at hs
      · contradiction
      · rw [Option.some.injEq] at hs
        exact moves_update (.goes (x := s.session n) .left (by simp [hl]) (by simp [hl, Listener.Exiting])) m (hs ▸ rfl)
    · contradiction
  case drainEnds n =>
    split at hs
    · next hl hr =>
      split at hs
      · rw [Option.some.injEq] at hs
        exact moves_update (.goes (x := s.session n) .raised (by simp [hl]) (by simp [hl, Listener.Exiting])) m (hs ▸ rfl)
      · contradiction
    · contradiction
  case close =>
    split at hs
    · rw [Option.some.injEq] at hs
      exact hs ▸ .same
    · next n hq =>
      rw [Option.some.injEq] at hs
      exact moves_update (.closes (x := s.session n)) m (hs ▸ rfl)

/-! ## What a listener gets -/

/-- The events in their order, each once: first what the loop has got, then what was
logged, then what is still in the stream.  Nobody waits unless 1000 events do, and
nothing is left behind by a loop that came to its end or by an exit that did. -/
structure Delivered (x : Session E) : Prop where
  fifo : x.received ++ x.unprocessed ++ x.channel.contents = x.due
  length_le : x.channel.buffer.length ≤ eventQueueSize
  full : ∀ c, x.Waits c → x.channel.buffer.length = eventQueueSize
  stopped : x.listener = .stopped → x.received = x.due
  left : x.listener = .left → x.received ++ x.unprocessed = x.due ∧ ∀ c, ¬ x.Waits c

/-- Nobody waits at an empty channel. -/
theorem not_waits_of_contents {x : Session E} (h : x.channel.contents = []) (c : Nat) :
    ¬ x.Waits c := by
  simp only [Channel.contents, List.append_eq_nil_iff] at h
  simp [Session.Waits, h.2]

/-- **Delivery**, whatever the order of the pushes and of everything else. -/
theorem delivered_of_run {as : List (Action E)} (h : run step init as = some s) (n : Nat) :
    Delivered (s.session n) := by
  have hx := (sound_run h sound_init).session n
  constructor
  case fifo => exact hx.fifo
  case length_le => exact hx.bounded.length_le
  case full =>
    intro c hc
    refine hx.bounded.full ?_
    intro hnil
    simp [Session.Waits, hnil] at hc
  case stopped =>
    intro hl
    have hfifo := hx.fifo
    rw [(hx.finished (.inl hl)).2, hx.unprocessed (by simp [hl, Listener.Exiting])] at hfifo
    simpa using hfifo
  case left =>
    intro hl
    have hfifo := hx.fifo
    have hnil := (hx.left hl).2
    rw [hnil] at hfifo
    exact ⟨by simpa using hfifo, not_waits_of_contents hnil⟩

/-- A push before anybody listens, and two that are cut short by an exception in the loop. -/
theorem delivered_of_run_fails :
    ∃ s, run step (init : Events Nat) [.push 1, .enter, .push 2, .next 0, .push 3, .fails 0, .push 4]
        = some s ∧
      ((s.session 0).received.map Prod.snd, (s.session 0).channel.contents.map Prod.snd) =
        ([2], [3]) ∧ Delivered (s.session 0) :=
  ⟨_, rfl, rfl, delivered_of_run (show run step init [.push 1, .enter, .push 2, .next 0, .push 3,
    .fails 0, .push 4] = some _ from rfl) 0⟩

/-! ## The end of the service -/

/-- A channel that is closed stays so. -/
theorem Moves.closed {x x' : Session E} (h : Moves a n x x') (hc : x.channel.closed = true) :
    x'.channel.closed = true := by
  cases h with
  | enters => simp at hc
  | sends | waits => simpa [Session.send] using hc
  | withdraws => simpa [Session.withdraw] using hc
  | next ha hl hr => rw [Channel.closed_of_receive hr, hc]
  | drain hl hr => rw [Channel.closed_of_receive hr, hc]
  | closes => rfl
  | _ => exact hc

theorem closed_run {as : List (Action E)} (h : run step s as = some s') (hs : s.Sound)
    (hc : (s.session n).channel.closed = true) : (s'.session n).channel.closed = true :=
  (invariant_run (I := fun s => s.Sound ∧ (s.session n).channel.closed = true)
    (fun _ _ _ hs h => ⟨sound_step hs.1 h, (moves_step hs.1 h n).closed hs.2⟩) ⟨hs, hc⟩ h).2

/-- The loop gets what is in the channel, one event at a time. -/
theorem exists_drained (k : Nat) (hl : (s.session n).listener = .iterating)
    (hk : (s.session n).channel.contents.length = k) :
    ∃ s', run step s (List.replicate k (.next n)) = some s' ∧
      (s'.session n).listener = .iterating ∧ (s'.session n).channel.contents = [] ∧
      (s'.session n).channel.closed = (s.session n).channel.closed ∧
      (s'.session n).received = (s.session n).received ++ (s.session n).channel.contents := by
  induction k generalizing s with
  | zero =>
      have hnil : (s.session n).channel.contents = [] := List.length_eq_zero_iff.mp hk
      exact ⟨s, rfl, hl, hnil, rfl, by simp [hnil]⟩
  | succ k ih =>
      cases hr : (s.session n).channel.receive with
      | none =>
          rw [Channel.receive_eq_none_iff.mp hr] at hk
          simp at hk
      | some r =>
          obtain ⟨p, channel⟩ := r
          have hcontents := Channel.contents_of_receive hr
          let t := s.modify n fun x => { x with channel, received := x.received ++ [p] }
          have hstep : s.step (.next n) = some t := by
            simp only [step, hl, hr]
            rfl
          have hsession : t.session n =
              { s.session n with channel, received := (s.session n).received ++ [p] } := by
            simp [t, modify]
          have hlen : (t.session n).channel.contents.length = k := by
            rw [hcontents, List.length_cons] at hk
            rw [hsession]
            exact Nat.succ.inj hk
          obtain ⟨s', hrun, hl', hnil, hclosed, hreceived⟩ := ih (by rw [hsession, hl]) hlen
          refine ⟨s', ?_, hl', hnil, ?_, ?_⟩
          · rw [List.replicate_succ, run, hstep]
            exact hrun
          · rw [hclosed, hsession]
            exact Channel.closed_of_receive hr
          · rw [hreceived, hsession, hcontents]
            simp

/-- **The end of the service**: when the queue has been closed, the loop of the listener
gets all that is left and then ends, but no way out of the `async with` is left then that
does not raise. -/
theorem ends_of_closed {as : List (Action E)} (h : run step init as = some s)
    (hl : (s.session n).listener = .iterating) (hc : (s.session n).channel.closed = true) :
    (∃ s', run step s (List.replicate (s.session n).channel.contents.length (.next n) ++
        [.stop n, .exits n, .drainEnds n]) = some s' ∧
      (s'.session n).listener = .raised ∧ (s'.session n).received = (s.session n).due) ∧
    ∀ bs s', run step s bs = some s' → (s'.session n).listener ≠ .left := by
  have hs := sound_run h sound_init
  constructor
  · obtain ⟨t, hrun, hlt, hnil, hct, hreceived⟩ := exists_drained _ hl rfl
    rw [hc] at hct
    have hnone := Channel.receive_eq_none_iff.mpr hnil
    refine ⟨((t.modify n fun x => { x with listener := .stopped }).modify n fun x =>
      { x with listener := .draining }).modify n fun x => { x with listener := .raised }, ?_, ?_, ?_⟩
    · refine run_append hrun ?_
      simp [run, step, modify, hlt, hnone, hct]
    · simp [modify]
    · have hfifo := (hs.session n).fifo
      rw [(hs.session n).unprocessed (by simp [hl, Listener.Exiting])] at hfifo
      simpa [modify, hreceived] using hfifo
  · intro bs s' hrun hleft
    have hs' := sound_run hrun hs
    have hopen := ((hs'.session n).left hleft).1
    rw [closed_run hrun hs hc] at hopen
    contradiction

/-- Two events are on their way when the queue is closed. -/
theorem ends_of_closed_two :
    ∃ s s', run step (init : Events Nat) [.enter, .push 1, .push 2, .close] = some s ∧
      run step s [.next 0, .next 0, .stop 0, .exits 0, .drainEnds 0] = some s' ∧
      (s'.session 0).listener = .raised ∧ (s'.session 0).received = (s.session 0).due := by
  obtain ⟨⟨s', hrun, hl, hreceived⟩, -⟩ :=
    ends_of_closed (n := 0) (show run step (init : Events Nat) [.enter, .push 1, .push 2, .close] =
      some _ from rfl) rfl rfl
  exact ⟨_, s', rfl, hrun, hl, hreceived⟩

/-! ## Nobody receives -/

/-- The listener waits in a push of its own, or has failed. -/
def Deaf (x : Session E) : Prop :=
  x.listener = .failed ∨ ∃ call, x.listener = .pushing call ∧ x.Waits call

/-- Nothing leaves the stream but what is withdrawn. -/
structure Stuck (x x' : Session E) : Prop where
  listener : x'.listener = x.listener
  received : x'.received = x.received
  buffer : x'.channel.buffer = x.channel.buffer
  waits : ∀ c, x.Waits c → x'.Waits c ∨ c ∈ x'.withdrawn

/-- Who has given up has given up for good. -/
theorem Moves.withdrawn {x x' : Session E} (h : Moves a n x x') : x.withdrawn ⊆ x'.withdrawn := by
  intro c hc
  cases h with
  | enters => exact hc
  | withdraws call => exact List.mem_cons_of_mem call hc
  | _ => exact hc

/-- **Who does not listen** moves nothing on. -/
theorem Moves.stuck {x x' : Session E} {calls : Nat} (h : Moves a n x x') (hx : x.Sound calls)
    (hdeaf : Deaf x) (hown : ∀ call, x.listener = .pushing call → call ∉ x'.withdrawn) :
    Stuck x x' := by
  cases h with
  | same => exact ⟨rfl, rfl, rfl, fun c hc => .inl hc⟩
  | enters => simp [Deaf] at hdeaf
  | sends call e hactive =>
      rcases hdeaf with hl | ⟨own, hl, hwaits⟩
      · simp [hl, Listener.Active] at hactive
      · -- somebody waits, so that the buffer is full
        have hfull : x.channel.buffer.length = eventQueueSize := by
          refine hx.bounded.full ?_
          intro hnil
          simp [Session.Waits, hnil] at hwaits
        have hsend := Channel.send_of_full (a := (call, e)) (Nat.le_of_eq hfull.symm)
        refine ⟨rfl, rfl, by rw [Session.send, hsend], ?_⟩
        intro c hc
        left
        simp only [Session.Waits, Session.send, hsend, List.map_append, List.mem_append]
        exact .inl hc
  | waits call e ha hl | next ha hl | drain hl => simp [Deaf, hl] at hdeaf
  | resumes call hl hwaits =>
      rcases hdeaf with hfailed | ⟨own, hl', hwaits'⟩
      · simp [hl] at hfailed
      · rw [hl, Listener.pushing.injEq] at hl'
        exact absurd (hl' ▸ hwaits') hwaits
  | goes l hl => rcases hl with hl | hl | hl <;> simp [Deaf, hl] at hdeaf
  | withdraws call hwaits =>
      have hne : x.listener ≠ .pushing call := by
        intro hl
        exact hown call hl List.mem_cons_self
      refine ⟨by simp [Session.withdraw, hne], rfl, rfl, ?_⟩
      intro c hc
      by_cases hcall : c = call
      · exact .inr (hcall ▸ List.mem_cons_self)
      · obtain ⟨p, hp, rfl⟩ := List.mem_map.mp hc
        left
        refine List.mem_map.mpr ⟨p, ?_, rfl⟩
        simpa [Session.withdraw, Channel.withdraw, hcall] using hp
  | closes => exact ⟨rfl, rfl, rfl, fun c hc => .inl hc⟩

/-- Who does not listen does not begin to. -/
theorem Stuck.deaf {x x' : Session E} (h : Stuck x x') (hdeaf : Deaf x)
    (hown : ∀ call, x.listener = .pushing call → call ∉ x'.withdrawn) : Deaf x' := by
  rcases hdeaf with hl | ⟨call, hl, hwaits⟩
  · exact .inl (h.listener.trans hl)
  · rcases h.waits call hwaits with hwaits' | hgone
    · exact .inr ⟨call, h.listener.trans hl, hwaits'⟩
    · exact absurd hgone (hown call hl)

theorem withdrawn_run {as : List (Action E)} (h : run step s as = some s') (hs : s.Sound) :
    (s.session n).withdrawn ⊆ (s'.session n).withdrawn := by
  induction as generalizing s with
  | nil =>
      rw [run_nil, Option.some.injEq] at h
      exact h ▸ List.Subset.refl _
  | cons a as ih =>
      obtain ⟨t, ht, h'⟩ := run_cons h
      exact List.Subset.trans (moves_step hs ht n).withdrawn (ih h' (sound_step hs ht))

/-- **Nobody receives**: when the listener waits in a push of its own, or has failed,
the stream stays as it is, and whoever waits for room there waits until it is
cancelled; so does the listener. -/
theorem waits_forever {as bs : List (Action E)} (h : run step init as = some s)
    (hdeaf : Deaf (s.session n)) (hrun : run step s bs = some s')
    (hown : ∀ call, (s.session n).listener = .pushing call → call ∉ (s'.session n).withdrawn) :
    Stuck (s.session n) (s'.session n) := by
  have hs := sound_run h sound_init
  clear h
  induction bs generalizing s with
  | nil =>
      rw [run_nil, Option.some.injEq] at hrun
      subst hrun
      exact ⟨rfl, rfl, rfl, fun c hc => .inl hc⟩
  | cons b bs ih =>
      obtain ⟨t, ht, hrun'⟩ := run_cons hrun
      have hst := sound_step hs ht
      have hlater := withdrawn_run (n := n) hrun' hst
      have hown' : ∀ call, (s.session n).listener = .pushing call →
          call ∉ (t.session n).withdrawn := fun call hl hc => hown call hl (hlater hc)
      have hfirst := (moves_step hs ht n).stuck (hs.session n) hdeaf hown'
      have hrest := ih (hfirst.deaf hdeaf hown') hrun'
        (fun call hl => hown call (hfirst.listener ▸ hl)) hst
      constructor
      case listener => rw [hrest.listener, hfirst.listener]
      case received => rw [hrest.received, hfirst.received]
      case buffer => rw [hrest.buffer, hfirst.buffer]
      case waits =>
        intro c hc
        rcases hfirst.waits c hc with hc | hc
        · exact hrest.waits c hc
        · exact .inr (hlater hc)

/-- Pushes fill the buffer. -/
theorem exists_filled (e : E) {k : Nat} (hk : k ≤ eventQueueSize) :
    ∃ s, run step init (.enter :: List.replicate k (.push e)) = some s ∧ s.queue = some 0 ∧
      (s.session 0).listener = .iterating ∧ (s.session 0).channel.closed = false ∧
      (s.session 0).channel.buffer.length = k ∧ (s.session 0).channel.waiting = [] ∧
      (s.session 0).withdrawn = [] := by
  induction k with
  | zero => exact ⟨_, rfl, rfl, rfl, rfl, rfl, rfl, rfl⟩
  | succ k ih =>
      obtain ⟨s, hrun, hq, hl, hopen, hlen, hwaiting, hwithdrawn⟩ := ih (by omega)
      have hroom : k < eventQueueSize := by omega
      refine ⟨s.pushEvent e, ?_, ?_⟩
      · rw [List.replicate_succ', ← List.cons_append]
        exact run_append hrun rfl
      · simp [pushEvent, hq, hopen, modify, Session.send, Channel.send, hl, hlen, hroom, hwaiting,
          hwithdrawn]

/-- The listener pushes an event while it handles one, and a thousand wait behind that. -/
theorem waits_forever_full :
    ∃ s s', run step (init : Events Nat) (.enter :: List.replicate 1000 (.push 1) ++
        [.listenerPushes 0 2]) = some s ∧ run step s [.push 3] = some s' ∧
      Deaf (s.session 0) ∧ Stuck (s.session 0) (s'.session 0) := by
  obtain ⟨t, hrun, hq, hl, hopen, hlen, hwaiting, hwithdrawn⟩ :=
    exists_filled 1 (k := 1000) (Nat.le_refl _)
  have hfull : eventQueueSize ≤ (t.session 0).channel.buffer.length := Nat.le_of_eq hlen.symm
  let s : Events Nat := (t.pushEvent 2).modify 0 fun x => { x with listener := .pushing t.nextCall }
  have hsession : s.session 0 =
      { (t.session 0).send t.nextCall 2 with listener := .pushing t.nextCall } := by
    simp [s, pushEvent, hq, hopen, modify]
  have hwaits : (s.session 0).Waits t.nextCall := by
    simp [hsession, Session.send, Channel.send_of_full hfull, Session.Waits]
  have hstep : step t (.listenerPushes 0 2) = some s := by
    have hblocked : ((t.pushEvent 2).session 0).Waits t.nextCall := by
      simpa [s, modify, Session.Waits] using hwaits
    simp only [step, hl, if_true, hblocked]
    rfl
  have hrun' : run step init (.enter :: List.replicate 1000 (.push 1) ++ [.listenerPushes 0 2]) =
      some s := run_append hrun (by rw [run, hstep]; rfl)
  have hdeaf : Deaf (s.session 0) := .inr ⟨t.nextCall, by simp [hsession], hwaits⟩
  have hown : ((s.pushEvent 3).session 0).withdrawn = [] := by
    have hq' : s.queue = some 0 := by simp [s, pushEvent, hq, hopen, modify]
    have hopen' : (s.session 0).channel.closed = false := by simp [hsession, Session.send, hopen]
    have hlast : (s.session 0).withdrawn = [] := by simp [hsession, Session.send, hwithdrawn]
    simp [pushEvent, hq', hopen', modify, Session.send, hlast]
  refine ⟨s, s.pushEvent 3, hrun', rfl, hdeaf, ?_⟩
  have hpush : run step s [.push 3] = some (s.pushEvent 3) := rfl
  exact waits_forever hrun' hdeaf hpush (fun call _ => by simp [hown])

end Events

end AsyncOwfs
