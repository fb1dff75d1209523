import AsyncOwfs.Lib.Channel
import AsyncOwfs.Lib.Transition
import Mathlib.Data.List.Nodup
import Mathlib.Logic.Function.Basic

/-!
# AsyncOwfs.Events

`Service.events`: the queue between the tasks that push events and the one that
listens to them.

Entering an `EventWrapper` makes a new stream, which stays the queue of the service
until the wrapper is left.  A push is a call with a number; it waits while the buffer
is full.  An action is what one task does between two of its awaits, so a run is any
interleaving of the tasks that push, the one that listens, and the end of the service.

What the log of events is to the other modules is `pushed` here.
-/

namespace AsyncOwfs

/-- Where the task that has entered an `EventWrapper` stands. -/
inductive Listener
  | absent
  /-- In the loop: it waits for an event, or handles one. -/
  | iterating
  /-- It handles an event, and waits in a `push_event` of its own. -/
  | pushing (call : Nat)
  /-- The loop is over: `__anext__` has raised `StopAsyncIteration`. -/
  | stopped
  /-- In the loop of `__aexit__`. -/
  | draining
  /-- `__aexit__` has returned. -/
  | left
  /-- An exception has left the body of the `async with`. -/
  | failed
  /-- `EndOfStream` has left `__aexit__`. -/
  | raised
  deriving DecidableEq, Repr

/-- An `EventWrapper` with its stream.  Events have the numbers of the calls that
push them.  The last four are history variables. -/
structure Session (E : Type) where
  listener : Listener := .absent
  channel : Channel (Nat × E) := {}
  /-- What was sent to the stream. -/
  pushed : List (Nat × E) := []
  /-- The calls that were cancelled while they waited. -/
  withdrawn : List Nat := []
  /-- What `__anext__` has returned. -/
  received : List (Nat × E) := []
  /-- What `__aexit__` has logged. -/
  unprocessed : List (Nat × E) := []

/-- The queue of a `Service`, and all that have ever listened. -/
structure Events (E : Type) where
  /-- `_event_queue` -/
  queue : Option Nat := none
  session : Nat → Session E := fun _ => {}
  nextSession : Nat := 0
  nextCall : Nat := 0

/-- The size that `__aenter__` asks for. -/
def eventQueueSize : Nat := 1000

namespace Session

variable {E : Type}

/-- `await self._event_queue.send(event)`, up to its wait. -/
def send (x : Session E) (call : Nat) (e : E) : Session E :=
  { x with channel := x.channel.send eventQueueSize (call, e), pushed := x.pushed ++ [(call, e)] }

/-- The call waits for room. -/
def Waits (x : Session E) (call : Nat) : Prop := call ∈ x.channel.waiting.map Prod.fst

instance (x : Session E) (call : Nat) : Decidable (x.Waits call) :=
  inferInstanceAs (Decidable (_ ∈ _))

/-- The call is cancelled while it waits. -/
def withdraw (x : Session E) (call : Nat) : Session E :=
  { x with
    channel := x.channel.withdraw fun p => p.1 = call, withdrawn := call :: x.withdrawn
    listener := if x.listener = .pushing call then .iterating else x.listener }

/-- The events that were sent, without those whose calls were cancelled. -/
def due (x : Session E) : List (Nat × E) := x.pushed.filter fun p => p.1 ∉ x.withdrawn

end Session

namespace Events

open Transition

variable {E : Type}

inductive Action (E : Type)
  /-- `__aenter__` -/
  | enter
  /-- `push_event` -/
  | push (e : E)
  /-- `push_event`, by the listener while it handles an event. -/
  | listenerPushes (n : Nat) (e : E)
  /-- That call returns. -/
  | listenerResumes (n : Nat)
  /-- A call is cancelled while it waits. -/
  | withdraw (n call : Nat)
  /-- `__anext__` returns an event. -/
  | next (n : Nat)
  /-- `__anext__` raises `StopAsyncIteration`. -/
  | stop (n : Nat)
  /-- The body ends, and `__aexit__` begins. -/
  | exits (n : Nat)
  /-- An exception ends the body. -/
  | fails (n : Nat)
  /-- `__aexit__` logs an event. -/
  | drain (n : Nat)
  /-- `__aexit__` has waited in vain. -/
  | timeout (n : Nat)
  /-- `receive` raises `EndOfStream` in `__aexit__`. -/
  | drainEnds (n : Nat)
  /-- `Service.__aexit__` closes the queue. -/
  | close
  deriving Repr

def modify (s : Events E) (n : Nat) (f : Session E → Session E) : Events E :=
  { s with session := Function.update s.session n (f (s.session n)) }

/-- `push_event`, up to its wait: nothing without a queue, and an exception when that
has been closed. -/
def pushEvent (s : Events E) (e : E) : Events E :=
  match s.queue with
  | none => { s with nextCall := s.nextCall + 1 }
  | some n =>
    if (s.session n).channel.closed then { s with nextCall := s.nextCall + 1 }
    else { s.modify n fun x => x.send s.nextCall e with nextCall := s.nextCall + 1 }

/-- The effect of an action, where it is possible. -/
def step (s : Events E) : Action E → Option (Events E)
  | .enter =>
    -- `assert self._event_queue is None`
    if s.queue = none then
      some { s.modify s.nextSession fun _ => { listener := .iterating } with
        queue := some s.nextSession, nextSession := s.nextSession + 1 }
    else none
  | .push e => some (s.pushEvent e)
  | .listenerPushes n e =>
    if (s.session n).listener = .iterating then
      let s' := s.pushEvent e
      if (s'.session n).Waits s.nextCall then
        some (s'.modify n fun x => { x with listener := .pushing s.nextCall })
      else some s'
    else none
  | .listenerResumes n =>
    match (s.session n).listener with
    | .pushing call =>
      if (s.session n).Waits call then none
      else some (s.modify n fun x => { x with listener := .iterating })
    | _ => none
  | .withdraw n call =>
    if (s.session n).Waits call then some (s.modify n fun x => x.withdraw call) else none
  | .next n =>
    match (s.session n).listener, (s.session n).channel.receive with
    | .iterating, some (p, channel) =>
      some (s.modify n fun x => { x with channel, received := x.received ++ [p] })
    | _, _ => none
  | .stop n =>
    match (s.session n).listener, (s.session n).channel.receive with
    | .iterating, none =>
      if (s.session n).channel.closed then
        some (s.modify n fun x => { x with listener := .stopped })
      else none
    | _, _ => none
  | .exits n =>
    match (s.session n).listener with
    | .iterating | .stopped => some (s.modify n fun x => { x with listener := .draining })
    | _ => none
  | .fails n =>
    match (s.session n).listener with
    | .iterating | .stopped =>
      some { s.modify n fun x => { x with listener := .failed } with queue := none }
    | _ => none
  | .drain n =>
    match (s.session n).listener, (s.session n).channel.receive with
    | .draining, some (p, channel) =>
      some (s.modify n fun x => { x with channel, unprocessed := x.unprocessed ++ [p] })
    | _, _ => none
  | .timeout n =>
    -- `fail_after(0.01)` is left when nothing can be received; a task that is delayed beyond
    -- the ten milliseconds may be cancelled with events left, which is no action here
    match (s.session n).listener, (s.session n).channel.receive with
    | .draining, none =>
      if (s.session n).channel.closed then none
      else some { s.modify n fun x => { x with listener := .left } with queue := none }
    | _, _ => none
  | .drainEnds n =>
    match (s.session n).listener, (s.session n).channel.receive with
    | .draining, none =>
      -- only a `TimeoutError` is caught
      if (s.session n).channel.closed then
        some (s.modify n fun x => { x with listener := .raised })
      else none
    | _, _ => none
  | .close =>
    match s.queue with
    | none => some s
    | some n => some (s.modify n fun x => { x with channel := x.channel.close })

/-- A service that nobody listens to. -/
def init : Events E := {}

end Events

end AsyncOwfs
