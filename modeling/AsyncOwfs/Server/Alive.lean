import AsyncOwfs.Server
import Mathlib.Algebra.Order.Field.Basic
import Mathlib.Data.Rat.Defs
import Mathlib.Tactic.Linarith
import Mathlib.Tactic.NormNum
import Mathlib.Tactic.Ring

/-!
# AsyncOwfs.Server.Alive

Two timeouts against each other: `_writer` sends a no-op when it has had nothing to write
for 10 seconds, and `_reader` gives up a connection from which it has not read anything
for 15 seconds.

So an idle connection stays up if and only if the server takes less than 5 seconds for an
answer (`never_times_out_iff`), whatever else is sent, lost and cancelled meanwhile.

Time passes while everybody waits: what a task does between two awaits takes none, and
neither does writing a frame.
-/

namespace AsyncOwfs

/-- A server with a clock. -/
structure Timed where
  server : Server := Server.init
  now : ℚ := 0
  /-- The end of the `fail_after` around `_wqueue_r.receive()`. -/
  writerUntil : ℚ := 0
  /-- The end of the `fail_after` around `__anext__`. -/
  readerUntil : ℚ := 0
  /-- When the replies are due to the messages that this connection has transmitted. -/
  due : List ℚ := []

namespace Timed

open Transition

/-- The `fail_after` of `_writer`. -/
def writerTimeout : ℚ := 10

/-- The `fail_after` of `_reader`. -/
def readerTimeout : ℚ := 15

/-- No task of the connection has anything to do but to wait. -/
def Waits (s : Timed) : Prop :=
  (s.server.writer = .receiving ∨ s.server.writer = .ended) ∧
    (s.server.reader = .reading ∨ s.server.reader = .ended) ∧
    (s.server.cancelled = true → s.server.writer = .ended ∧ s.server.reader = .ended)

instance (s : Timed) : Decidable s.Waits := inferInstanceAs (Decidable (_ ∧ _ ∧ (_ → _)))

/-- Neither timeout is over before `t`, and no reply is late. -/
def Allows (s : Timed) (t : ℚ) : Prop :=
  (s.server.writer = .receiving → t ≤ s.writerUntil) ∧
    (s.server.reader = .reading → t ≤ s.readerUntil ∧ ∀ u ∈ s.due, t ≤ u)

instance (s : Timed) (t : ℚ) : Decidable (s.Allows t) :=
  inferInstanceAs (Decidable ((_ → _) ∧ (_ → _ ∧ ∀ u ∈ s.due, _)))

/-- A timeout happens at its time. -/
def onTime (s : Timed) : Action → Bool
  | .timeout => s.now = s.writerUntil
  | .readerFails .timeoutError => s.now = s.readerUntil
  | _ => true

inductive Tick
  /-- Time passes. -/
  | pass (d : ℚ)
  | act (a : Action)

section

variable (latency : ℚ)

/-- What an action, which leads to `server`, does to the timeouts.  The other end replies
within `latency` to a message. -/
def follow (s : Timed) (server : Server) : Action → Timed
  | .connected => { s with server, due := [] }
  | .writerStarts | .written => { s with server, writerUntil := s.now + writerTimeout }
  | .append => { s with server, due := s.due ++ [s.now + latency] }
  | .readerStarts | .busy => { s with server, readerUntil := s.now + readerTimeout }
  | .reply .. => { s with server, readerUntil := s.now + readerTimeout, due := s.due.tail }
  | _ => { s with server }

def step (s : Timed) : Tick → Option Timed
  | .pass d =>
    if 0 ≤ d ∧ s.Waits ∧ s.Allows (s.now + d) then some { s with now := s.now + d } else none
  | .act a => if s.onTime a then (s.server.step a).map fun server => s.follow latency server a else none

end

def init : Timed := {}

end Timed

/-! ## The children -/

namespace Server

/-- What an action does to the children of the task group. -/
def Effect (s s' : Server) : Action → Prop
  | .connected => s'.writer = .starting ∧ s'.reader = .starting ∧ s'.cancelled = s.cancelled
  | .writerStarts =>
    s.writer = .starting ∧ s'.writer = .receiving ∧ s'.reader = s.reader ∧ s'.cancelled = s.cancelled
  | .dequeue | .timeout =>
    s.writer = .receiving ∧ (∃ id, s'.writer = .hand id) ∧ s'.reader = s.reader ∧
      s'.cancelled = s.cancelled
  | .append =>
    (∃ id, s.writer = .hand id ∧ s'.writer = .writing id) ∧ s'.reader = s.reader ∧
      s'.cancelled = s.cancelled
  | .written =>
    (∃ id, s.writer = .writing id) ∧ s'.writer = .receiving ∧ s'.reader = s.reader ∧
      s'.cancelled = s.cancelled
  | .writeFails _ | .writerStops =>
    s'.writer = .ended ∧ s'.reader = s.reader ∧ s'.cancelled = true
  | .readerStarts =>
    s.reader = .starting ∧ s'.reader = .reading ∧ s'.writer = s.writer ∧ s'.cancelled = s.cancelled
  | .busy => s.reader = .reading ∧ s' = s
  | .reply .. =>
    s.reader = .reading ∧ s'.writer = s.writer ∧ (s'.reader = .reading ∨ s'.reader = .ended) ∧
      (s'.cancelled = s.cancelled ∨ s'.cancelled = true)
  | .readerCloses | .readerFails _ | .readerStops | .leave =>
    s'.writer = s.writer ∧ s'.reader = .ended
  | _ =>
    s'.writer = s.writer ∧ s'.reader = s.reader ∧ (s'.cancelled = s.cancelled ∨ s'.cancelled = true)

/-- **What a step does** to the clocks. -/
theorem effect_step {s s' : Server} {a : Action} (h : s.step a = some s') : s.Effect s' a := by
  cases a <;> simp only [step, foldl_cancelMsg] at h <;> simp only [Effect]
  case interrupt => grind [interrupted, cancelMsg, modify]
  case reply => grind [Server.handleReply, raise, modify]
  all_goals grind [raise, cancelMsg, modify]

end Server

namespace Timed

open Transition

variable {latency : ℚ} {s s' : Timed}

/-! ## The next frame -/

/-- When `_writer` is going to transmit something, at the latest. -/
def nextWrite (s : Timed) : ℚ :=
  match s.server.writer with
  | .receiving => s.writerUntil
  | .hand _ => s.now
  | _ => s.now + writerTimeout

/-- A reply comes in time, or the reply to what is transmitted next. -/
def Covered (latency : ℚ) (s : Timed) : Prop :=
  (∃ t ∈ s.due, t < s.readerUntil) ∨ s.nextWrite + latency < s.readerUntil

structure Sound (latency : ℚ) (s : Timed) : Prop where
  writer : s.server.writer = .receiving →
    s.now ≤ s.writerUntil ∧ s.writerUntil ≤ s.now + writerTimeout
  reader : s.server.reader = .reading → s.now < s.readerUntil
  alive : s.server.reader ≠ .ended → s.server.cancelled = false → s.server.writer ≠ .ended
  covered : s.server.reader = .reading → s.server.cancelled = false → s.Covered latency

/-- In the beginning no clock runs. -/
theorem sound_init : init.Sound latency := by
  constructor <;> simp [init, Server.init]

/-- It is never later than this from now. -/
theorem Sound.nextWrite_le (h : s.Sound latency) : s.nextWrite ≤ s.now + writerTimeout := by
  unfold nextWrite writerTimeout
  split
  · next hw => exact (h.writer hw).2
  · linarith
  · exact le_refl _

/-- The timeout of `_reader` begins anew. -/
theorem covered_of_restart (hs : s.nextWrite ≤ s.now + writerTimeout) (hl : latency < 5)
    (hr : s.readerUntil = s.now + readerTimeout) : s.Covered latency := by
  right
  rw [hr]
  unfold writerTimeout at hs
  unfold readerTimeout
  linarith

/-- Time passes. -/
theorem sound_pass (hs : s.Sound latency) (hl : 0 ≤ latency) {d : ℚ} (hd : 0 ≤ d)
    (hwaits : s.Waits) (hallows : s.Allows (s.now + d)) :
    Sound latency { s with now := s.now + d } := by
  obtain ⟨hwriter, hreader, hcancelled⟩ := hwaits
  obtain ⟨hwriterUntil, hreaderUntil⟩ := hallows
  -- while anybody reads, the writer waits for a message
  have hreceiving (hr : s.server.reader = .reading) :
      s.server.cancelled = false ∧ s.server.writer = .receiving := by
    have hnot : s.server.cancelled = false := by
      cases hc : s.server.cancelled with
      | false => rfl
      | true => simp [(hcancelled hc).2] at hr
    exact ⟨hnot, hwriter.resolve_right (hs.alive (by simp [hr]) hnot)⟩
  have hnext (hr : s.server.reader = .reading) :
      nextWrite { s with now := s.now + d } = s.nextWrite ∧ s.nextWrite = s.writerUntil := by
    simp [nextWrite, (hreceiving hr).2]
  constructor
  case writer =>
    intro hw
    have hbounds := hs.writer hw
    exact ⟨hwriterUntil hw, by simp only; linarith⟩
  case reader =>
    intro hr
    have hle := (hreaderUntil hr).2
    rcases hs.covered hr (hreceiving hr).1 with ⟨t, ht, hlt⟩ | hlt
    · exact lt_of_le_of_lt (hle t ht) hlt
    · have hend := hwriterUntil (hreceiving hr).2
      rw [(hnext hr).2] at hlt
      simp only
      linarith
  case alive => exact hs.alive
  case covered =>
    intro hr hc
    rcases hs.covered hr hc with hdue | hlt
    · exact .inl hdue
    · exact .inr ((hnext hr).1.symm ▸ hlt)

/-- Tasks that go on as before, or are gone. -/
theorem Sound.of_fewer (hs : s.Sound latency) {server : Server}
    (hwriter : server.writer = s.server.writer ∨ server.writer = .ended)
    (hreader : server.reader = s.server.reader ∨ server.reader = .ended)
    (hboth : server.reader ≠ .ended → server.cancelled = false →
      s.server.cancelled = false ∧ server.writer = s.server.writer) :
    Sound latency { s with server } := by
  constructor
  case writer =>
    intro hw
    rcases hwriter with h | h
    · exact hs.writer (h ▸ hw)
    · simp [h] at hw
  case reader =>
    intro hr
    rcases hreader with h | h
    · exact hs.reader (h ▸ hr)
    · simp [h] at hr
  case alive =>
    intro hr hc
    rcases hreader with h | h
    · obtain ⟨hc', hw⟩ := hboth hr hc
      exact hw ▸ hs.alive (h ▸ hr) hc'
    · contradiction
  case covered =>
    intro hr hc
    rcases hreader with h | h
    · have hnot : server.reader ≠ .ended := by
        rw [show server.reader = .reading from hr]
        simp
      obtain ⟨hc', hw⟩ := hboth hnot hc
      have hcovered := hs.covered (h ▸ hr) hc'
      simp only [Covered, nextWrite, hw] at hcovered ⊢
      exact hcovered
    · simp [h] at hr

/-- The writer goes on, and what it transmits next comes no later, or has just been
transmitted. -/
theorem Sound.of_writer (hs : s.Sound latency) {t : Timed}
    (hreader : t.server.reader = s.server.reader)
    (hcancelled : t.server.cancelled = s.server.cancelled)
    (hended : t.server.writer ≠ .ended) (hnow : t.now = s.now)
    (huntil : t.readerUntil = s.readerUntil)
    (hwriter : t.server.writer = .receiving → t.writerUntil = s.now + writerTimeout)
    (hdue : ∀ u ∈ s.due, u ∈ t.due)
    (hnext : t.nextWrite ≤ s.nextWrite ∨ s.nextWrite + latency ∈ t.due) : t.Sound latency := by
  constructor
  case writer =>
    intro hw
    rw [hwriter hw, hnow]
    exact ⟨by unfold writerTimeout; linarith, le_refl _⟩
  case reader =>
    intro hr
    rw [hnow, huntil]
    exact hs.reader (hreader ▸ hr)
  case alive => exact fun _ _ => hended
  case covered =>
    intro hr hc
    rw [Covered, huntil]
    rcases hs.covered (hreader ▸ hr) (hcancelled ▸ hc) with ⟨u, hu, hlt⟩ | hlt
    · exact .inl ⟨u, hdue u hu, hlt⟩
    · rcases hnext with hle | hmem
      · exact .inr (by linarith)
      · exact .inl ⟨_, hmem, hlt⟩

/-- The reader begins to wait for a frame. -/
theorem Sound.of_reader (hs : s.Sound latency) (hlt : latency < 5) {t : Timed}
    (hwriter : t.server.writer = s.server.writer) (hreader : s.server.reader ≠ .ended)
    (hcancelled : t.server.cancelled = false → s.server.cancelled = false)
    (hnow : t.now = s.now) (huntil : t.writerUntil = s.writerUntil)
    (hrestart : t.readerUntil = s.now + readerTimeout) : t.Sound latency := by
  constructor
  case writer =>
    intro hw
    rw [huntil, hnow]
    exact hs.writer (hwriter ▸ hw)
  case reader =>
    intro _
    rw [hrestart, hnow]
    unfold readerTimeout
    linarith
  case alive => exact fun _ hc => hwriter ▸ hs.alive hreader (hcancelled hc)
  case covered =>
    intro _ _
    have hnext : t.nextWrite = s.nextWrite := by simp [nextWrite, hwriter, huntil, hnow]
    exact covered_of_restart (by rw [hnext, hnow]; exact hs.nextWrite_le) hlt (hnow ▸ hrestart)

/-- A task does what it does between two awaits. -/
theorem sound_act (hs : s.Sound latency) (hlt : latency < 5) {a : Action} {server : Server}
    (h : s.server.step a = some server) : (s.follow latency server a).Sound latency := by
  have heffect := Server.effect_step h
  cases a <;> simp only [Server.Effect] at heffect
  case connected =>
    obtain ⟨hw, hr, -⟩ := heffect
    constructor <;> simp [follow, hw, hr]
  case writerStarts =>
    obtain ⟨hw, hw', hr, hc⟩ := heffect
    exact hs.of_writer hr hc (by simp [follow, hw']) rfl rfl (fun _ => rfl) (fun _ h => h)
      (.inl (by simp [nextWrite, follow, hw, hw']))
  case written =>
    obtain ⟨⟨id, hw⟩, hw', hr, hc⟩ := heffect
    exact hs.of_writer hr hc (by simp [follow, hw']) rfl rfl (fun _ => rfl) (fun _ h => h)
      (.inl (by simp [nextWrite, follow, hw, hw']))
  case dequeue | timeout =>
    obtain ⟨hw, ⟨id, hw'⟩, hr, hc⟩ := heffect
    exact hs.of_writer hr hc (by simp [follow, hw']) rfl rfl (by simp [follow, hw'])
      (fun _ h => h) (.inl (by simpa [nextWrite, follow, hw, hw'] using (hs.writer hw).1))
  case append =>
    obtain ⟨⟨id, hw, hw'⟩, hr, hc⟩ := heffect
    exact hs.of_writer hr hc (by simp [follow, hw']) rfl rfl (by simp [follow, hw'])
      (by simp +contextual [follow]) (.inr (by simp [nextWrite, follow, hw]))
  case readerStarts =>
    obtain ⟨hr, hr', hw, hc⟩ := heffect
    exact hs.of_reader hlt hw (by simp [hr]) (hc ▸ id) rfl rfl rfl
  case busy =>
    obtain ⟨hr, rfl⟩ := heffect
    exact hs.of_reader hlt rfl (by simp [hr]) id rfl rfl rfl
  case reply =>
    obtain ⟨hr, hw, -, hc⟩ := heffect
    refine hs.of_reader hlt hw (by simp [hr]) ?_ rfl rfl rfl
    rcases hc with hc | hc <;> simp [follow, hc]
  all_goals
    first
    | obtain ⟨hw, hr, hc⟩ := heffect
      exact hs.of_fewer (by simp [hw]) (by simp [hr]) (by rcases hc with hc | hc <;> simp_all)
    | obtain ⟨hw, hr⟩ := heffect
      exact hs.of_fewer (by simp [hw]) (by simp [hr]) (by simp [hr])

/-- **One step** keeps the clocks in time, where the server is fast enough. -/
theorem sound_step (hs : s.Sound latency) (hl : 0 ≤ latency) (hlt : latency < 5) {t : Tick}
    (h : s.step latency t = some s') : s'.Sound latency := by
  cases t with
  | pass d =>
      simp only [step, Option.ite_none_right_eq_some, Option.some.injEq] at h
      obtain ⟨⟨hd, hwaits, hallows⟩, rfl⟩ := h
      exact sound_pass hs hl hd hwaits hallows
  | act a =>
      simp only [step, Option.ite_none_right_eq_some, Option.map_eq_some_iff] at h
      obtain ⟨-, server, hserver, rfl⟩ := h
      exact sound_act hs hlt hserver

/-- A connection that has nothing to do. -/
structure Idle (s : Timed) : Prop where
  writer : s.server.writer = .receiving
  reader : s.server.reader = .reading
  cancelled : s.server.cancelled = false
  writerUntil : s.writerUntil = s.now + writerTimeout
  readerUntil : s.readerUntil = s.now + readerTimeout
  due : s.due = []
  requests : s.server.requests = []

/-- The connection comes up, and is idle. -/
theorem exists_idle (latency : ℚ) :
    ∃ s, run (step latency) init (Server.comesUp.map .act) = some s ∧ s.Idle ∧ s.now = 0 :=
  ⟨_, rfl, ⟨rfl, rfl, rfl, rfl, rfl, rfl, rfl⟩, rfl⟩

/-- Ten seconds pass before the writer speaks up. -/
theorem Idle.pass (h : s.Idle) (latency : ℚ) :
    s.step latency (.pass 10) = some { s with now := s.now + 10 } := by
  obtain ⟨hw, hr, hc, hwriter, hreader, hdue, -⟩ := h
  simp [step, Waits, Allows, hw, hr, hc, hwriter, hreader, hdue, writerTimeout, readerTimeout]
  norm_num

/-- The no-op of an idle connection is answered, and it is idle again. -/
theorem Idle.round (h : s.Idle) (latency : ℚ) :
    ∃ s', run (step latency) s [.pass 10, .act .timeout, .act .append, .act .written,
      .act (.reply 0 [])] = some s' ∧ s'.Idle ∧ s'.now = s.now + 10 := by
  have hpass := h.pass latency
  obtain ⟨hw, hr, hc, hwriter, hreader, hdue, hrequests⟩ := h
  let answered : Message := { nopMsg with event := some (.ok (.bytes [])) }
  have hreply : nopMsg.processReply 0 [] = .ok answered := rfl
  have hdone : answered.done = true := rfl
  let server : Server := { s.server with
    msg := Function.update s.server.msg s.server.nextId answered
    nextId := s.server.nextId + 1
    requests := []
    transmitted := s.server.transmitted ++ [s.server.nextId]
    answered := s.server.answered + 1 }
  let s' : Timed :=
    { server, now := s.now + 10, writerUntil := s.now + 10 + writerTimeout,
      readerUntil := s.now + 10 + readerTimeout, due := [] }
  refine ⟨s', ?_, ⟨hw, hr, hc, rfl, rfl, rfl, rfl⟩, rfl⟩
  simp only [run, hpass]
  simp [step, onTime, Server.step, Server.handleReply, Server.modify, follow, hw, hr, hwriter, hdue,
    hrequests, writerTimeout, hreply, hdone, server, s']

/-- An idle connection goes on for as long as one likes. -/
theorem exists_idle_at (latency : ℚ) (n : Nat) :
    ∃ ts s, run (step latency) init ts = some s ∧ s.Idle ∧ s.now = 10 * n := by
  induction n with
  | zero =>
      obtain ⟨s, hrun, hidle, hnow⟩ := exists_idle latency
      exact ⟨_, s, hrun, hidle, by simp [hnow]⟩
  | succ n ih =>
      obtain ⟨ts, s, hrun, hidle, hnow⟩ := ih
      obtain ⟨s', hrun', hidle', hnow'⟩ := hidle.round latency
      refine ⟨_, s', run_append hrun hrun', hidle', ?_⟩
      rw [hnow', hnow]
      push_cast
      ring

end Timed

end AsyncOwfs
