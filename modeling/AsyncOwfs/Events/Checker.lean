import AsyncOwfs.Events.Delivery
import AsyncOwfs.Exc

/-!
# AsyncOwfs.Events.Checker

`EventChecker`, by which the tests say what events they expect: it listens until
somebody pushes `None`, and compares.

What it compares is what it gets, one event at a time, while others push more.  Its
verdict does not depend on that: it is about the events that were pushed, up to the
first `None` (`accepts_iff`).
-/

namespace AsyncOwfs

open Transition Events

/-- An `EventChecker`.  What is expected is a class, or an event. -/
structure EventChecker (P E : Type) where
  events : List P
  /-- `isinstance(t, type) and isinstance(e, t)`, or `t == e` -/
  fits : P → E → Bool
  strExpected : P → String
  strEvent : E → String

namespace EventChecker

variable {P E : Type} (c : EventChecker P E)

/-- `check_next` -/
def checkNext (pos : Nat) (e : E) : Except Exc Nat :=
  match c.events[pos]? with
  | none => .error (.runtimeError s!"Unexpected event {c.strEvent e}")
  | some t =>
    if c.fits t e then .ok (pos + 1)
    else .error (.runtimeError s!"Wrong event: want {c.strExpected t} but has {c.strEvent e}")

/-- `check_last` -/
def checkLast (pos : Nat) : Except Exc Unit :=
  if pos = c.events.length then .ok ()
  else
    match c.events[pos]? with
    | none => .error .indexError
    | some t => .error (.runtimeError s!"Superfluous event #{pos}: {c.strExpected t}")

/-- How far the loop of `__call__` is. -/
inductive Progress
  /-- It waits for an event; so many have been checked. -/
  | running (pos : Nat)
  /-- It has got a `None`. -/
  | done (pos : Nat)
  | raised (e : Exc)
  deriving DecidableEq, Repr

def Progress.isRunning : Progress → Bool
  | .running _ => true
  | _ => false

def Progress.isDone : Progress → Bool
  | .done _ => true
  | _ => false

/-- The body of the loop. -/
def consume : Progress → Option E → Progress
  | .running pos, none => .done pos
  | .running pos, some e =>
    match c.checkNext pos e with
    | .ok pos => .running pos
    | .error e => .raised e
  | p, _ => p

/-- The loop, on what it has got. -/
def progress (received : List (Option E)) : Progress := received.foldl c.consume (.running 0)

/-- What the checker makes of its session: it goes on as long as its loop does, and does
not push anything. -/
def Plays (n : Nat) (s : Events (Option E)) : Action (Option E) → Prop
  | .next m => m = n → (c.progress ((s.session n).received.map Prod.snd)).isRunning
  | .exits m =>
    m = n → (s.session n).listener = .stopped ∨
      (c.progress ((s.session n).received.map Prod.snd)).isDone
  | .listenerPushes m _ => m ≠ n
  | _ => True

instance (n : Nat) (s : Events (Option E)) : (a : Action (Option E)) → Decidable (c.Plays n s a)
  | .next _ => inferInstanceAs (Decidable (_ → _))
  | .exits _ => inferInstanceAs (Decidable (_ → _))
  | .listenerPushes _ _ => inferInstanceAs (Decidable (_ ≠ _))
  | .enter | .push _ | .listenerResumes _ | .withdraw _ _ | .stop _ | .fails _ | .drain _
  | .timeout _ | .drainEnds _ | .close => .isTrue trivial

/-- What `__call__` ends with; a checker that is cancelled does not check anything. -/
def result (x : Session (Option E)) : Option (Except Exc Unit) :=
  match x.listener, c.progress (x.received.map Prod.snd) with
  | .left, .running pos | .left, .done pos => some (c.checkLast pos)
  | .failed, .raised e => some (.error e)
  | .raised, _ => some (.error .endOfStream)
  | _, _ => none

/-- The events are as expected, up to a `None`. -/
def Expected (pushed : List (Option E)) : Prop :=
  ∃ es rest, pushed = es.map some ++ none :: rest ∧
    List.Forall₂ (fun t e => c.fits t e = true) c.events es

variable {c}

/-! ## The loop -/

@[simp] theorem progress_append (l l' : List (Option E)) :
    c.progress (l ++ l') = l'.foldl c.consume (c.progress l) := List.foldl_append

/-- An event passes if it fits the next expectation. -/
theorem checkNext_eq_ok {pos k : Nat} {e : E} :
    c.checkNext pos e = .ok k ↔ k = pos + 1 ∧ ∃ t, c.events[pos]? = some t ∧ c.fits t e = true := by
  unfold checkNext
  cases c.events[pos]? with
  | none => simp
  | some t =>
      by_cases hfits : c.fits t e = true
      · simp only [hfits, if_true, Except.ok.injEq, Option.some.injEq, exists_eq_left', and_true]
        exact eq_comm
      · simp [hfits]

/-- What has ended the loop stays. -/
theorem foldl_consume_raised (e : Exc) (l : List (Option E)) :
    l.foldl c.consume (.raised e) = .raised e := by
  induction l with
  | nil => rfl
  | cons a l ih => exact ih

/-- The loop goes on as long as the events are those that are expected. -/
theorem foldl_consume_iff (es : List E) (pos k : Nat) :
    (es.map some).foldl c.consume (.running pos) = .running k ↔
      k = pos + es.length ∧
        List.Forall₂ (fun t e => c.fits t e = true) ((c.events.drop pos).take es.length) es := by
  induction es generalizing pos with
  | nil =>
      simp only [List.map_nil, List.foldl_nil, Progress.running.injEq, List.length_nil, Nat.add_zero,
        List.take_zero, List.forall₂_nil_left_iff, and_true]
      exact eq_comm
  | cons e es ih =>
      rw [List.map_cons, List.foldl_cons, consume]
      by_cases ht : ∃ t, c.events[pos]? = some t ∧ c.fits t e = true
      · rw [checkNext_eq_ok.mpr ⟨rfl, ht⟩]
        obtain ⟨t, ht, hfits⟩ := ht
        have hdrop : c.events.drop pos = t :: c.events.drop (pos + 1) := by
          obtain ⟨hlt, rfl⟩ := List.getElem?_eq_some_iff.mp ht
          exact List.drop_eq_getElem_cons hlt
        simp only [ih, hdrop, List.length_cons, List.take_succ_cons, List.forall₂_cons, hfits,
          true_and]
        rw [Nat.add_assoc, Nat.add_comm 1]
      · cases hnext : c.checkNext pos e with
        | ok k' => exact absurd (checkNext_eq_ok.mp hnext).2 ht
        | error err =>
            simp only [foldl_consume_raised, reduceCtorEq, false_iff, not_and]
            intro _ hfits
            cases hdrop : c.events.drop pos with
            | nil => simp [hdrop] at hfits
            | cons t events =>
                simp only [hdrop, List.length_cons, List.take_succ_cons, List.forall₂_cons] at hfits
                refine ht ⟨t, ?_, hfits.1⟩
                have hget := congrArg (fun l => l[0]?) hdrop
                simpa using hget

/-- The loop is at an end of what is expected, in front of a `None`. -/
theorem expected_iff (es : List E) (rest : List (Option E)) :
    c.Expected (es.map some ++ none :: rest) ↔
      c.progress (es.map some) = .running c.events.length := by
  have hsame : c.Expected (es.map some ++ none :: rest) ↔
      List.Forall₂ (fun t e => c.fits t e = true) c.events es := by
    constructor
    · rintro ⟨es', rest', heq, hfits⟩
      have hfront (l : List E) (r : List (Option E)) :
          (l.map some ++ none :: r).takeWhile Option.isSome = l.map some := by
        rw [List.takeWhile_append_of_pos (by simp)]
        simp
      have hes := congrArg (List.takeWhile Option.isSome) heq
      rw [hfront, hfront] at hes
      rwa [List.map_injective_iff.mpr (fun _ _ => Option.some.inj) hes]
    · intro hfits
      exact ⟨es, rest, rfl, hfits⟩
  rw [hsame, progress, foldl_consume_iff]
  simp only [Nat.zero_add, List.drop_zero]
  constructor
  · intro hfits
    have hlen := hfits.length_eq
    rw [← hlen, List.take_length]
    exact ⟨rfl, hfits⟩
  · rintro ⟨hlen, hfits⟩
    rwa [← hlen, List.take_length] at hfits

/-! ## The checker and its session -/

variable {s s' : Events (Option E)} {n : Nat}

/-- What its loop has got ends with what has ended the loop, and it exits on a `None`, or
when the queue has been closed. -/
structure Playing (c : EventChecker P E) (x : Session (Option E)) : Prop where
  loop : ∃ es : List E, (∃ k, c.progress (es.map some) = .running k) ∧
    (x.received.map Prod.snd = es.map some ∨ ∃ e, x.received.map Prod.snd = es.map some ++ [e])
  exits : x.listener.Exiting →
    x.channel.closed = true ∨ ∃ pos, c.progress (x.received.map Prod.snd) = .done pos

/-- A check that goes on is at a position. -/
theorem exists_of_isRunning {p : Progress} (h : p.isRunning = true) : ∃ pos, p = .running pos := by
  cases p with
  | running pos => exact ⟨pos, rfl⟩
  | done pos | raised e => simp [Progress.isRunning] at h

/-- A check that is done is at a position. -/
theorem exists_of_isDone {p : Progress} (h : p.isDone = true) : ∃ pos, p = .done pos := by
  cases p with
  | done pos => exact ⟨pos, rfl⟩
  | running pos | raised e => simp [Progress.isDone] at h

/-- What its loop gets, if that is still on. -/
theorem exists_loop {x : Session (Option E)} (hp : Playing c x) {pos : Nat}
    (hpos : c.progress (x.received.map Prod.snd) = .running pos) :
    ∃ es : List E, x.received.map Prod.snd = es.map some := by
  obtain ⟨es, ⟨k, hk⟩, hreceived | ⟨e, hreceived⟩⟩ := hp.loop
  · exact ⟨es, hreceived⟩
  · cases e with
    | none =>
        rw [hreceived, progress_append, hk] at hpos
        simp [consume] at hpos
    | some e => exact ⟨es ++ [e], by simp [hreceived]⟩

/-- **One step** feeds the check with what is received. -/
theorem playing_step {a : Action (Option E)} (hs : s.Sound) (hp : Playing c (s.session n))
    (hplays : c.Plays n s a) (h : s.step a = some s') : Playing c (s'.session n) := by
  have hover := (hs.session n).finished
  have hmoves := moves_step hs h n
  have hnext (ha : a = .next n) :
      ∃ pos, c.progress ((s.session n).received.map Prod.snd) = .running pos := by
    subst ha
    exact exists_of_isRunning (hplays rfl)
  have hexits (ha : a = .exits n) : (s.session n).listener = .stopped ∨
      ∃ pos, c.progress ((s.session n).received.map Prod.snd) = .done pos := by
    subst ha
    exact (hplays rfl).imp_right exists_of_isDone
  generalize s.session n = x at hp hover hmoves hnext hexits
  generalize s'.session n = x' at hmoves
  cases hmoves with
  | same => exact hp
  | enters => exact ⟨⟨[], ⟨0, rfl⟩, .inl rfl⟩, by simp [Listener.Exiting]⟩
  | sends call e hactive hopen =>
      refine ⟨hp.loop, fun hexit => ?_⟩
      simpa [Session.send] using hp.exits hexit
  | waits call e ha =>
      subst ha
      exact absurd rfl hplays
  | resumes call hl => exact ⟨hp.loop, by simp [Listener.Exiting]⟩
  | withdraws call hwaits =>
      refine ⟨hp.loop, fun hexit => hp.exits ?_⟩
      by_cases hpush : x.listener = .pushing call
      · simp [Session.withdraw, hpush, Listener.Exiting] at hexit
      · simpa [Session.withdraw, hpush] using hexit
  | @next _ p channel ha hl hr =>
      obtain ⟨pos, hpos⟩ := hnext ha
      obtain ⟨es, hes⟩ := exists_loop hp hpos
      refine ⟨⟨es, ⟨pos, hes ▸ hpos⟩, .inr ⟨p.2, by simp [hes]⟩⟩, ?_⟩
      simp [hl, Listener.Exiting]
  | drain hl hr =>
      refine ⟨hp.loop, fun hexit => ?_⟩
      rw [Channel.closed_of_receive hr]
      exact hp.exits hexit
  | goes l hl hexit =>
      refine ⟨hp.loop, fun hl' => ?_⟩
      rcases hexit hl' with ha | hx
      · rcases hexits ha with hstopped | hdone
        · exact .inl (hover (.inl hstopped)).1
        · exact .inr hdone
      · exact hp.exits hx
  | closes => exact ⟨hp.loop, fun _ => .inl rfl⟩

/-- The end passes if nothing more is expected. -/
theorem checkLast_eq_ok {pos : Nat} : c.checkLast pos = .ok () ↔ pos = c.events.length := by
  unfold checkLast
  split
  · next hpos => simp [hpos]
  · next hpos =>
    simp only [hpos, iff_false]
    split <;> simp

/-- What comes first is in front of the first `None`. -/
theorem exists_eq_append {l es : List E} {rest rest' : List (Option E)}
    (h : l.map some ++ rest = es.map some ++ none :: rest') : ∃ l', es = l ++ l' := by
  induction l generalizing es with
  | nil => exact ⟨es, rfl⟩
  | cons a l ih =>
      cases es with
      | nil => simp at h
      | cons b es =>
          simp only [List.map_cons, List.cons_append, List.cons.injEq, Option.some.injEq] at h
          obtain ⟨rfl, h⟩ := h
          obtain ⟨l', rfl⟩ := ih h
          exact ⟨l', rfl⟩

/-- A loop that has raised has met an event that is not expected. -/
theorem not_expected_of_raised {l : List E} {e : Exc} (h : c.progress (l.map some) = .raised e)
    (rest : List (Option E)) : ¬ c.Expected (l.map some ++ rest) := by
  intro hexpected
  obtain ⟨es, rest', heq, hfits⟩ := id hexpected
  obtain ⟨l', rfl⟩ := exists_eq_append heq
  rw [heq, expected_iff, List.map_append, progress_append, h, foldl_consume_raised] at hexpected
  contradiction

/-- **The verdict of a checker** that has come to an end while the queue was open: it finds
nothing wrong if and only if the events that were pushed while it was there are those that
it expects, up to the first `None`. -/
theorem accepts_iff {as : List (Action (Option E))} (h : run step init as = some s)
    (hplays : AllSteps step (c.Plays n) init as) (hopen : (s.session n).channel.closed = false)
    {r : Except Exc Unit} (hr : c.result (s.session n) = some r) :
    r = .ok () ↔ c.Expected ((s.session n).due.map Prod.snd) := by
  have hs := sound_run h sound_init
  have hp : Playing c (s.session n) := by
    have hall := guarded_allStates (I := fun s => s.Sound ∧ Playing c (s.session n))
      (fun _ _ _ hi hg hstep => ⟨sound_step hi.1 hstep, playing_step hi.1 hi.2 hg hstep⟩)
      ⟨sound_init, ⟨⟨[], ⟨0, rfl⟩, .inl rfl⟩, by simp [init, Listener.Exiting]⟩⟩ hplays
    exact (hall.of_run h).2
  have hover := (hs.session n).finished
  have hfifo := congrArg (List.map Prod.snd) (hs.session n).fifo
  rw [← hfifo, List.map_append, List.map_append, List.append_assoc]
  generalize ((s.session n).unprocessed.map Prod.snd ++
    (s.session n).channel.contents.map Prod.snd) = rest
  generalize s.session n = x at hr hopen hp hover
  obtain ⟨es, ⟨k, hk⟩, hreceived⟩ := hp.loop
  cases hl : x.listener with
  | left =>
      -- it has left on a `None`
      have hdone := (hp.exits (by simp [hl, Listener.Exiting])).resolve_left (by simp [hopen])
      obtain ⟨pos, hpos⟩ := hdone
      have hlast : x.received.map Prod.snd = es.map some ++ [none] ∧ pos = k := by
        rcases hreceived with hreceived | ⟨e, hreceived⟩
        · rw [hreceived, hk] at hpos
          contradiction
        · rw [hreceived, progress_append, hk, List.foldl_cons, List.foldl_nil] at hpos
          cases e with
          | none => exact ⟨hreceived, by simpa [consume, eq_comm] using hpos⟩
          | some e =>
              simp only [consume] at hpos
              split at hpos <;> contradiction
      rw [result, hl, hpos] at hr
      simp only [Option.some.injEq] at hr
      rw [← hr, checkLast_eq_ok, hlast.1, hlast.2, List.append_assoc]
      show _ ↔ c.Expected (es.map some ++ none :: rest)
      rw [expected_iff, hk, Progress.running.injEq]
  | failed =>
      cases hprogress : c.progress (x.received.map Prod.snd) with
      | running pos | done pos => simp [result, hl, hprogress] at hr
      | raised e =>
          simp only [result, hl, hprogress, Option.some.injEq] at hr
          simp only [← hr, reduceCtorEq, false_iff]
          have hlast : ∃ e, x.received.map Prod.snd = (es ++ [e]).map some := by
            rcases hreceived with hreceived | ⟨e, hreceived⟩
            · rw [hreceived, hk] at hprogress
              contradiction
            · cases e with
              | none => simp [hreceived, hk, consume] at hprogress
              | some e => exact ⟨e, by simp [hreceived]⟩
          obtain ⟨e', hlast⟩ := hlast
          rw [hlast] at hprogress ⊢
          exact not_expected_of_raised hprogress rest
  | raised =>
      have hclosed := (hover (.inr hl)).1
      simp [hopen] at hclosed
  | _ => simp [result, hl] at hr

/-- A checker that expects an event of each kind, and gets them while more are pushed. -/
theorem accepts_iff_two :
    ∃ s, run step (init : Events (Option Nat)) [.push (some 7), .enter, .push (some 2), .next 0,
        .push (some 3), .push none, .push (some 4), .next 0, .next 0, .exits 0, .drain 0, .timeout 0]
        = some s ∧
      ((.ok () : Except Exc Unit) = .ok () ↔
        Expected ⟨[2, 3], fun t e => decide (t = e), toString, toString⟩
          ((s.session 0).due.map Prod.snd)) := by
  refine ⟨_, rfl, accepts_iff (show run step init [.push (some 7), .enter, .push (some 2), .next 0,
    .push (some 3), .push none, .push (some 4), .next 0, .next 0, .exits 0, .drain 0, .timeout 0] =
    some _ from rfl) ?_ rfl rfl⟩
  decide

end EventChecker

end AsyncOwfs
