import AsyncOwfs.Service
import AsyncOwfs.Lib.Hoare
import AsyncOwfs.Lib.Transition
import Mathlib.Algebra.Field.Rat

/-!
# AsyncOwfs.DevicePoll

The poll tasks of a `Device`: `set_polling_interval`, `_set_poll_task`, and what
`locate` and `_delocate` do to the tasks.

The intervals are kept under the joined path of an attribute, the tasks under
whatever the caller has passed as `typ`: a string, or a tuple of names and
indices.  `tasks` are the `_poll_task`s that run; `_poll` holds the scopes by
which they can be cancelled.  `_set_poll_task` runs under a lock, so it is one
step.

What the attributes of a device are depends on the structure directory of the
server, so the objects that `getattr` and `[]` lead to are a parameter.
-/

namespace AsyncOwfs

/-- An element of a path that is given as a tuple. -/
inductive Key
  | name (n : String)
  | index (i : Int)
  deriving DecidableEq, Repr

def Key.str : Key → String
  | .name n => n
  | .index i => toString i

/-- The argument `typ`. -/
inductive Typ
  | str (s : String)
  | tuple (p : List Key)
  deriving DecidableEq, Repr

/-- `styp` -/
def Typ.joined : Typ → String
  | .str s => s
  | .tuple p => "/".intercalate (p.map Key.str)

/-- `typ.split("/")`, or the tuple itself. -/
def Typ.parts : Typ → List Key
  | .str s => (s.toList.splitOn '/').map fun n => .name (String.ofList n)
  | .tuple p => p

/-- The objects below a device whose class has been set up. -/
structure Accessors where
  Obj : Type
  self : Obj
  /-- `getattr(s, n)`; an `AttributeError` if there is no such thing. -/
  getattr : Obj → String → Option Obj
  /-- `s[i]`; a `TypeError` if `s` has no items. -/
  getitem : Obj → Int → Option Obj
  /-- `hasattr(s, "get_" + n)` -/
  hasGet : Obj → String → Bool
  /-- `hasattr(self, "poll_" + styp)`: the bus polls for this. -/
  hasPoll : String → Bool

namespace Accessors

/-- The walk along all parts of a path but the last. -/
def follow (A : Accessors) : A.Obj → List Key → Except Exc A.Obj
  | s, [] => .ok s
  | s, .index i :: p =>
    match A.getitem s i with
    | none => .error .typeError
    | some s => A.follow s p
  | s, .name n :: p =>
    match A.getattr s n with
    | none => .error .attributeError
    | some s => A.follow s p

/-- `isinstance(n, int) or hasattr(s, "get_" + n)` -/
def hasItem (A : Accessors) (s : A.Obj) : Key → Bool
  | .index _ => true
  | .name n => A.hasGet s n

/-- What `_set_poll_task` finds out about a path before it starts a task. -/
def check (A : Accessors) (typ : Typ) : Except Exc Unit :=
  match typ.parts.getLast? with
  | none => .error .valueError
  | some n => do
    let s ← A.follow A.self typ.parts.dropLast
    if A.hasItem s n then .ok () else .error (.runtimeError "No poll for it")

/-- The path leads to something that can be read. -/
def Readable (A : Accessors) (typ : Typ) : Prop := A.check typ = .ok ()

instance (A : Accessors) (typ : Typ) : Decidable (A.Readable typ) :=
  inferInstanceAs (Decidable (_ = _))

end Accessors

/-- A running `_poll_task`: its scope, the path that it reads, and its interval. -/
structure PollTask where
  scope : Nat
  path : String
  value : ℚ≥0
  deriving DecidableEq

/-- The poll tables of a device. -/
structure PollTable where
  /-- `_intervals` -/
  intervals : Dict String ℚ≥0 := ∅
  /-- `_poll` -/
  poll : Dict Typ Nat := ∅
  tasks : List PollTask := []
  nextScope : Nat := 0

namespace PollTable

abbrev Method := EStateM Exc PollTable

/-- `await scope.cancel()` -/
def cancel (t : Nat) : Method Unit :=
  modify fun s => { s with tasks := s.tasks.filter (·.scope ≠ t) }

/-- The task that is known under `typ` is stopped. -/
def stopTask (typ : Typ) : Method Unit := do
  let s ← get
  match s.poll.get? typ with
  | none => return ()
  | some t =>
    modify fun s => { s with poll := s.poll.erase typ }
    cancel t

/-- A new task is started, and known under `typ`. -/
def startTask (A : Accessors) (typ : Typ) (value : ℚ≥0) : Method Unit :=
  match A.check typ with
  | .error e => throw e
  | .ok _ =>
    modify fun s =>
      { s with
        tasks := s.tasks ++ [⟨s.nextScope, typ.joined, value⟩],
        poll := s.poll.set typ s.nextScope, nextScope := s.nextScope + 1 }

/-- `_set_poll_task` -/
def setPollTask (A : Accessors) (typ : Typ) (value : ℚ≥0) : Method Unit := do
  stopTask typ
  if value = 0 then return ()
  else startTask A typ value

/-- The first half of `set_polling_interval`. -/
def setInterval (typ : Typ) (value : ℚ≥0) : Method Unit :=
  modify fun s =>
    { s with
      intervals :=
        if value > 0 then s.intervals.set typ.joined value else s.intervals.erase typ.joined }

/-- The end of `locate`: a task for every interval. -/
def replay (A : Accessors) : Method Unit := do
  let s ← get
  s.intervals.entries.forM fun e => setPollTask A (.str e.1) e.2

/-- What `_delocate` does to the tasks. -/
def dropTasks : Method Unit := do
  let s ← get
  s.poll.values.forM cancel
  modify fun s => { s with poll := ∅ }

end PollTable

/-- A device, as far as its poll tasks are concerned. -/
structure DevicePoll where
  bus : Option BusRef := none
  /-- The buses that have the device in their `_devices`. -/
  listed : List BusRef := []
  table : PollTable := {}

namespace DevicePoll

abbrev Method := EStateM Exc DevicePoll

def onTable (x : PollTable.Method α) : Method α :=
  Hoare.zoom table (fun t s => { s with table := t }) x

/-- `set_polling_interval`.  What the bus polls for is left to the bus. -/
def setPollingInterval (A : Accessors) (typ : Typ) (value : ℚ≥0) : Method Unit := do
  onTable (PollTable.setInterval typ value)
  let s ← get
  if s.bus ≠ none then
    if A.hasPoll typ.joined then return ()
    else onTable (PollTable.setPollTask A typ value)

/-- `locate` -/
def locate (A : Accessors) (b : BusRef) : Method Unit := do
  let s ← get
  if s.bus = some b then return ()
  else
    modify fun s => { s with bus := some b }
    onTable (PollTable.replay A)

/-- `Bus.add_device` -/
def addDevice (A : Accessors) (b : BusRef) : Method Unit := do
  locate A b
  modify fun s => { s with listed := b :: s.listed }

/-- `delocate` -/
def delocate (b : BusRef) : Method Unit := do
  let s ← get
  if s.bus = some b then
    if b ∈ s.listed then
      modify fun s => { s with listed := s.listed.filter (· ≠ b), bus := none }
      onTable PollTable.dropTasks
    else throw .keyError
  else return ()

/-! ## Runs -/

/-- A call on the device, run to completion. -/
inductive Action
  | setPollingInterval (typ : Typ) (value : ℚ≥0)
  | locate (b : BusRef)
  | addDevice (b : BusRef)
  | delocate (b : BusRef)
  deriving DecidableEq

def call (A : Accessors) : Action → Method Unit
  | .setPollingInterval typ value => setPollingInterval A typ value
  | .locate b => locate A b
  | .addDevice b => addDevice A b
  | .delocate b => delocate b

/-- The state behind a call, also when it has raised. -/
def step (A : Accessors) (s : DevicePoll) (a : Action) : Option DevicePoll :=
  match call A a s with
  | .ok _ s' | .error _ s' => some s'

def init : DevicePoll := {}

end DevicePoll

end AsyncOwfs
