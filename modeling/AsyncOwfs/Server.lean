import AsyncOwfs.Reader
import AsyncOwfs.Lib.Transition
import Mathlib.Logic.Function.Basic

/-!
# AsyncOwfs.Server

The tasks of a `Server`: the callers of `chat`, `_run_reconnected` with the
`_run_one` in it, and that one's children `_writer` and `_reader`.

An action is what one task does between two of its awaits; which task goes next
is open, so a run is any interleaving.  A task blocked in an await of a cancelled
task group may raise `Cancelled` there (`interrupt`, `writerStops`,
`readerStops`) but it may also, when it is already scheduled, go on for one more
action.

Messages are objects: the queues hold their `_id`s, and `msg` maps an `_id` to
the state of the object.  `transmitted`, `answered` and `abandoned` are history
variables, which no action reads.
-/

namespace AsyncOwfs

/-- Where `_run_reconnected` and the `_run_one` in it stand. -/
inductive RunPc
  /-- `await anyio.connect_tcp(...)` -/
  | connecting
  /-- `await e_r.wait()` -/
  | waitReader
  /-- `await e_w.wait()` -/
  | waitWriter
  /-- `while ml:` -/
  | resending
  /-- `await self._wqueue_w.send(msg)`, with a message that it has popped off `ml` -/
  | sending (id : Nat)
  /-- `self.chat(NOPMsg())`, before its message is queued -/
  | greeting
  /-- `self.chat(NOPMsg())`, waiting for the reply -/
  | greeted (id : Nat)
  /-- `pass  # wait for tasks` -/
  | serving
  /-- An exception has left the body; the task group waits for its children. -/
  | unwinding
  /-- `await anyio.sleep(self._backoff)` -/
  | sleeping
  | ended
  deriving DecidableEq, Repr

/-- Where `_writer` stands: not yet started, waiting for a message, between
`receive` and `requests.append`, in `msg.write`, or gone. -/
inductive WriterPc
  | starting
  | receiving
  | hand (id : Nat)
  | writing (id : Nat)
  | ended
  deriving DecidableEq, Repr

/-- Where `_reader` stands. -/
inductive ReaderPc
  | starting
  | reading
  | ended
  deriving DecidableEq, Repr

/-- Where `aclose` stands: not called, between cancelling the scopes and walking
`requests`, or returned. -/
inductive Closer
  | notCalled
  | closing
  | returned
  deriving DecidableEq, Repr

/-- The state that the tasks of a `Server` share. -/
structure Server where
  /-- The buffer of `_wqueue_w` and `_wqueue_r`. -/
  wqueue : List Nat := []
  requests : List Nat := []
  ml : List Nat := []
  msg : Nat → Message := fun _ => nopMsg
  /-- The `_id` of the next message. -/
  nextId : Nat := 0
  /-- The messages whose caller waits in `get_reply`. -/
  callers : List Nat := []
  run : RunPc := .connecting
  writer : WriterPc := .ended
  reader : ReaderPc := .ended
  /-- `_current_tg.cancel_scope` has been cancelled. -/
  cancelled : Bool := false
  /-- The exception that the task group is going to raise. -/
  exc : Option Exc := none
  /-- `_current_run` has been cancelled. -/
  stopped : Bool := false
  /-- `start` still waits for the first connection. -/
  valPending : Bool := true
  closer : Closer := .notCalled
  /-- The messages handed to this connection, in transmission order. -/
  transmitted : List Nat := []
  /-- How many replies were read from this connection. -/
  answered : Nat := 0
  /-- The messages that were given up in front of the writer: in `_wqueue`, in its hand or
  while `_run_one` waited to send them again. -/
  abandoned : List Nat := []

/-- The capacity of the memory object stream. -/
def wqueueSize : Nat := 100

/-- One step of one task. -/
inductive Action
  /-- A caller of `chat` queues its message. -/
  | submit (m : Message)
  /-- A caller is cancelled while it waits for its reply. -/
  | giveUp (id : Nat)
  /-- A caller finds its event set, and leaves `chat`. -/
  | resume (id : Nat)
  | connectFails (e : Exc)
  | connected
  | readerStarts
  | writerStarts
  /-- `e_r.wait()` returns. -/
  | readerReady
  /-- `e_w.wait()` returns. -/
  | writerReady
  /-- One turn of the re-send loop, up to its `send`. -/
  | resend
  /-- The `send` returns. -/
  | resendSent
  /-- The `send` raises. -/
  | resendFails
  /-- The re-send loop is left. -/
  | resent
  /-- `_run_one` queues its `NOPMsg`. -/
  | greet
  /-- `_run_one` finds its `NOPMsg` answered. -/
  | greetingDone
  /-- `Cancelled` is raised in `_run_one`, or in the sleep between two of them. -/
  | interrupt
  /-- `_writer` takes a message off `_wqueue`. -/
  | dequeue
  /-- `_writer` waited in vain, and makes a `NOPMsg` of its own. -/
  | timeout
  /-- `_writer` appends its message to `requests` and hands the frame to the transport. -/
  | append
  /-- `msg.write` returns. -/
  | written
  | writeFails (e : Exc)
  | writerStops
  /-- `_reader` reads a busy frame. -/
  | busy
  /-- `_reader` reads a reply. -/
  | reply (res : Int) (data : Bytes)
  /-- `_reader` finds the stream at its end, and cancels the task group. -/
  | readerCloses
  | readerFails (e : Exc)
  | readerStops
  /-- The task group is left, and `_run_one` with it. -/
  | leave
  /-- The sleep is over. -/
  | wake
  /-- `aclose` cancels the scopes. -/
  | acloseBegins
  /-- `aclose` walks `requests`. -/
  | acloseEnds
  deriving Repr

namespace Server

/-- The message in the writer's hand, if any. -/
def hand (s : Server) : List Nat :=
  match s.writer with
  | .hand id => [id]
  | _ => []

/-- The message that the re-send loop has popped off `ml` and not yet sent, if any. -/
def taken (s : Server) : List Nat :=
  match s.run with
  | .sending id => [id]
  | _ => []

/-- The messages in front of the writer.  Nobody looks whether they are cancelled any more. -/
def front (s : Server) : List Nat := s.taken ++ s.wqueue ++ s.hand

/-- The object `id` is mutated. -/
def modify (s : Server) (id : Nat) (m : Message) : Server :=
  { s with msg := Function.update s.msg id m }

/-- `await msg.cancel()` by whoever waits for the message. -/
def cancelMsg (s : Server) (id : Nat) : Server :=
  { s.modify id (s.msg id).cancel with
    abandoned := if id ∈ s.front then id :: s.abandoned else s.abandoned }

/-- A child of the task group raises: the group is cancelled and will raise. -/
def raise (s : Server) (e : Exc) : Server :=
  { s with cancelled := true, exc := s.exc <|> some e }

/-- `self.requests.popleft()` and `process_reply`. -/
def handleReply (s : Server) (res : Int) (data : Bytes) : Server :=
  let s := { s with answered := s.answered + 1 }
  match s.requests with
  | [] => { s.raise .indexError with reader := .ended }
  | id :: requests =>
    match (s.msg id).processReply res data with
    | .error e => { s.raise e with requests, reader := .ended }
    | .ok m =>
      { s.modify id m with requests := if m.done then requests else id :: requests }

/-- `Cancelled` in the body of `_run_one`.  While the body waits for its events
the handler of the inner `try` puts `ml` back. -/
def interrupted (s : Server) : Option Server :=
  match s.run with
  | .connecting | .greeting | .serving => some { s with run := .unwinding }
  | .waitReader | .waitWriter => some { s with requests := s.ml, ml := [], run := .unwinding }
  | .greeted id => some { s.cancelMsg id with run := .unwinding }
  | .sleeping => some { s with run := .ended }
  -- the re-send loop swallows the exception (`resendFails`)
  | .resending | .sending _ | .unwinding | .ended => none

/-- What ends `_run_one` when its task group is left. -/
def runOneEnd (s : Server) : Except Exc Unit :=
  if s.stopped then .error .cancelled
  else
    match s.exc with
    | none => .ok ()
    | some e => .error e

/-- The place that `_run_reconnected` goes to after `_run_one`. -/
def nextPc (s : Server) : RunPc :=
  match afterRunOne s.valPending s.runOneEnd with
  | .again => .connecting
  | .backoff => .sleeping
  | .startFailed _ | .raised _ => .ended

/-- The effect of an action, where it is possible. -/
def step (s : Server) : Action → Option Server
  | .submit m =>
    if s.wqueue.length < wqueueSize ∧ m.Pending then
      some { s with
        wqueue := s.wqueue ++ [s.nextId], msg := Function.update s.msg s.nextId m,
        nextId := s.nextId + 1, callers := s.callers ++ [s.nextId] }
    else none
  | .giveUp id =>
    if id ∈ s.callers then some { s.cancelMsg id with callers := s.callers.erase id } else none
  | .resume id =>
    if id ∈ s.callers then
      match (s.msg id).event with
      | none => none
      | some (.ok _) => some { s with callers := s.callers.erase id }
      | some (.error _) => some { s.cancelMsg id with callers := s.callers.erase id }
    else none
  | .connectFails e =>
    if s.run = .connecting then some { s.raise e with run := .unwinding } else none
  | .connected =>
    if s.run = .connecting then
      some { s with
        ml := s.requests, requests := [], writer := .starting, reader := .starting,
        transmitted := [], answered := 0, run := .waitReader }
    else none
  | .readerStarts => if s.reader = .starting then some { s with reader := .reading } else none
  | .writerStarts => if s.writer = .starting then some { s with writer := .receiving } else none
  | .readerReady =>
    if s.run = .waitReader ∧ s.reader ≠ .starting then some { s with run := .waitWriter }
    else none
  | .writerReady =>
    if s.run = .waitWriter ∧ s.writer ≠ .starting then some { s with run := .resending }
    else none
  | .resend =>
    if s.run = .resending then
      match s.ml with
      | [] => none
      | id :: ml =>
        if (s.msg id).cancelled then some { s with ml } else some { s with ml, run := .sending id }
    else none
  | .resendSent =>
    match s.run with
    | .sending id =>
      if s.wqueue.length < wqueueSize then
        some { s with wqueue := s.wqueue ++ [id], run := .resending }
      else none
    | _ => none
  | .resendFails =>
    match s.run with
    -- `ml.appendleft(msg)`
    | .sending id => if s.cancelled then some { s with ml := id :: s.ml, run := .resending } else none
    | _ => none
  | .resent => if s.run = .resending ∧ s.ml = [] then some { s with run := .greeting } else none
  | .greet =>
    if s.run = .greeting ∧ s.wqueue.length < wqueueSize then
      some { s with
        wqueue := s.wqueue ++ [s.nextId], msg := Function.update s.msg s.nextId nopMsg,
        nextId := s.nextId + 1, run := .greeted s.nextId }
    else none
  | .greetingDone =>
    match s.run with
    | .greeted id =>
      match (s.msg id).event with
      | none => none
      | some (.ok _) => some { s with run := .serving, valPending := false }
      | some (.error e) => some { (s.cancelMsg id).raise e with run := .unwinding }
    | _ => none
  | .interrupt => if s.cancelled ∨ s.stopped then s.interrupted else none
  | .dequeue =>
    match s.writer, s.wqueue with
    | .receiving, id :: wqueue => some { s with wqueue, writer := .hand id }
    | _, _ => none
  | .timeout =>
    if s.writer = .receiving then
      some { s with
        msg := Function.update s.msg s.nextId nopMsg, nextId := s.nextId + 1,
        writer := .hand s.nextId }
    else none
  | .append =>
    match s.writer with
    | .hand id =>
      some { s with
        requests := s.requests ++ [id], transmitted := s.transmitted ++ [id],
        writer := .writing id }
    | _ => none
  | .written =>
    match s.writer with
    | .writing _ => some { s with writer := .receiving }
    | _ => none
  | .writeFails e =>
    match s.writer with
    | .writing _ => some { s.raise e with writer := .ended }
    | _ => none
  | .writerStops =>
    match s.cancelled, s.writer with
    | true, .receiving | true, .writing _ => some { s with writer := .ended }
    | _, _ => none
  | .busy => if s.reader = .reading then some s else none
  | .reply res data => if s.reader = .reading then some (s.handleReply res data) else none
  | .readerCloses =>
    if s.reader = .reading then some { s with cancelled := true, reader := .ended } else none
  | .readerFails e =>
    if s.reader = .reading then some { s.raise e with reader := .ended } else none
  | .readerStops =>
    if s.cancelled ∧ s.reader = .reading then some { s with reader := .ended } else none
  | .leave =>
    if (s.run = .unwinding ∨ s.run = .serving) ∧ s.writer = .ended ∧ s.reader = .ended then
      some { s with run := s.nextPc, cancelled := false, exc := none }
    else none
  | .wake => if s.run = .sleeping then some { s with run := .connecting } else none
  | .acloseBegins =>
    if s.closer = .closing then none
    else some { s with stopped := true, cancelled := true, closer := .closing }
  | .acloseEnds =>
    if s.closer = .closing then
      some { s.requests.foldl cancelMsg s with closer := .returned }
    else none

/-- The state in which `start` spawns `_run_reconnected`. -/
def init : Server := {}

/-- A connection that comes up undisturbed, up to the answer to the first
`NOPMsg`. -/
def comesUp : List Action :=
  [.connected, .writerStarts, .readerStarts, .readerReady, .writerReady, .resent, .greet,
    .dequeue, .append, .written, .reply 0 [], .greetingDone]

/-! ## The phases of the run task -/

/-- `for m in self.requests: await m.cancel()`, in one go. -/
theorem foldl_cancelMsg (ids : List Nat) (s : Server) :
    ids.foldl cancelMsg s =
      { s with
        msg := fun x => if x ∈ ids then (s.msg x).cancel else s.msg x,
        abandoned := (ids.filter (· ∈ s.front)).reverse ++ s.abandoned } := by
  induction ids generalizing s with
  | nil => simp
  | cons id ids ih =>
      rw [List.foldl_cons, ih (s.cancelMsg id)]
      have hfront : (s.cancelMsg id).front = s.front := rfl
      rw [hfront]
      simp only [cancelMsg, modify, Server.mk.injEq, true_and]
      constructor
      · funext x
        by_cases hx : x = id
        · subst hx
          simp [Message.cancel]
        · simp [hx]
      · by_cases hid : id ∈ s.front
        · rw [List.filter_cons_of_pos (by simpa using hid), if_pos hid]
          simp
        · rw [List.filter_cons_of_neg (by simpa using hid), if_neg hid]

/-- The children live no longer than the task group, and `ml` is in use only
while messages are waiting to be sent again. -/
structure Tidy (s : Server) : Prop where
  children : s.run = .connecting ∨ s.run = .sleeping ∨ s.run = .ended →
    s.writer = .ended ∧ s.reader = .ended
  ml : s.run ≠ .waitReader → s.run ≠ .waitWriter → s.run ≠ .resending →
    (∀ id, s.run ≠ .sending id) → s.ml = []

/-- In the beginning there is no connection. -/
theorem tidy_init : init.Tidy := by
  constructor <;> simp [init]

/-- **One step** keeps the state of the run task in order. -/
theorem tidy_step {s s' : Server} {a : Action} (ht : s.Tidy) (h : s.step a = some s') :
    s'.Tidy := by
  obtain ⟨hc, hm⟩ := ht
  cases a <;> simp only [step, foldl_cancelMsg] at h
  case interrupt => constructor <;> grind [interrupted, cancelMsg, modify]
  case reply => constructor <;> grind [Server.handleReply, raise, modify]
  all_goals constructor <;> grind [raise, cancelMsg, modify]

end Server

end AsyncOwfs
