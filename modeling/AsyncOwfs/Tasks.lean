import AsyncOwfs.DevicePoll
import AsyncOwfs.Lib.Prog
import AsyncOwfs.Scan

/-!
# AsyncOwfs.Tasks

The tasks that work on a service at the same time: scans, alarm polls, changes of
polling intervals, the `_poll` tasks of the buses, `aclose`, and single calls.

A task can lose control at every `await`.  Its program is cut there, into commands;
some are cut finer than that, so there are more interleavings here than in the
code.  An event is pushed behind an `await`, when what it tells has already
happened; `BusAdded` alone is pushed with the bus.  What the server answers is an
input of the step that goes on with it.

A scan is told its whole tree when it starts; any of its requests may fail.  The
accessors of a class are there when an action of its own has loaded them; what a
scan asks the server for before that is one request.  The pollers of the devices
are left out (`AsyncOwfs.DevicePoll` has them), but `locate` goes through the
intervals and raises where one is of no use.  Step 2 of `_scan_base` never has
anything to do.
-/

namespace AsyncOwfs

/-- What the server returns for an attribute: a number, or the elements of an
array. -/
abbrev Reading := List ℚ

abbrev Reply := Except Exc Reading

inductive Cmd
  /-- A request to a server that is not about an attribute of a device. -/
  | ask (v : Nat)
  | serverGetBus (v : Nat) (name : String)
  /-- `list(self._buses.values())` -/
  | serverBuses (v : Nat)
  /-- `self._buses = None` -/
  | serverClosed (v : Nat)
  | push (e : Event)
  /-- `get_device`, up to its event; whether the device is a new one. -/
  | getDevice (id : String)
  /-- `delete_device`, up to its event. -/
  | deleteDevice (r : Nat)
  /-- `locate`, up to its first `await`: the device has not been here. -/
  | assign (b : BusRef) (r : Nat)
  /-- `self._intervals.items()` in `locate`, up to the first one. -/
  | replay (r : Nat)
  /-- `_set_poll_task` with one of the intervals. -/
  | startOwn (r : Nat) (typ : String)
  /-- The next turn of that loop: the dictionary still has its size. -/
  | nextOwn (r : Nat) (size : Nat)
  /-- `delocate`, up to the event: the device has been here. -/
  | unlocate (b : BusRef) (r : Nat)
  /-- `set_polling_interval`: the bus that has to update its pollers. -/
  | setInterval (r : Nat) (styp : String) (value : ℚ≥0)
  /-- An accessor of a device is used: it is looked up, and makes its request. -/
  | request (r : Nat) (path : List String)
  /-- An attribute that cannot be awaited is awaited. -/
  | misuse (r : Nat) (path : List String)
  /-- The event for a value. -/
  | pushValue (r : Nat)
  /-- A method that can only raise. -/
  | refuse (e : Exc)
  /-- `bus._unseen = 0` -/
  | seenBus (b : BusRef)
  /-- `set(self._devices.keys())` -/
  | listed (b : BusRef)
  /-- `dev.bus is self`, with `old_devs.remove(d)`. -/
  | sight (b : BusRef) (r : Nat) (d : String) (old : List String)
  /-- `self._devices[dev.id] = dev`; the device's family says what class it has. -/
  | enlist (b : BusRef) (r : Nat)
  /-- `dev._unseen = 0`, and whether `dev.buses()` has any. -/
  | seen (r : Nat)
  | getBus (b : BusRef) (path : List String)
  /-- An old device that has not been listed: it has to go, or has one more miss. -/
  | miss (b : BusRef) (d : String)
  | buses (b : BusRef)
  | noBuses (b : BusRef)
  /-- `self.devices`, with the families. -/
  | members (b : BusRef)
  | noDevices (b : BusRef)
  /-- `update_poll`, up to the first `await`: what to stop, and what to start. -/
  | review (b : BusRef)
  | stopPoll (b : BusRef) (x : String)
  /-- `if x not in self._tasks`, and the new task. -/
  | startPoll (b : BusRef) (x : String)
  | storePoll (b : BusRef) (x : String) (n : Nat)

abbrev Cmd.Ret : Cmd → Type
  | serverGetBus .. => BusRef
  | serverBuses .. | buses .. => List BusRef
  | getDevice .. => Nat × Bool
  | assign .. | unlocate .. => Bool
  | setInterval .. => Option BusRef
  | request .. => Reading
  | listed .. | replay .. => List String
  | sight .. => Option (List String)
  | enlist .. => Int
  | seen .. => Option String
  | getBus .. => Option BusRef
  | miss .. | startPoll .. => Option Nat
  | members .. => List (Nat × Int)
  | review .. => List String × List String
  | _ => Unit

namespace Service

/-- `get_device`, up to its event. -/
def register (id : String) : Method (Nat × Bool) := do
  let s ← get
  match s.devices.get? id with
  | some r => return (r, false)
  | none =>
    match splitId id with
    | .error e => throw e
    | .ok (family, _, _) =>
      let r := s.nextDev
      set { s with
        dev := Function.update s.dev r { id := upper id, family },
        nextDev := r + 1, devices := s.devices.set (upper id) r }
      return (r, true)

/-- `delete_device`, up to its event. -/
def unregister (r : Nat) : Method Unit := do
  let s ← get
  match (s.dev r).bus with
  | some b => throw (.runtimeError ("This device is present on /" ++ "/".intercalate b.path))
  | none =>
    match s.devices.get? (s.dev r).id with
    | none => throw .keyError
    | some _ => set { s with devices := s.devices.erase (s.dev r).id }

/-- `get_device` is cut in front of its event. -/
theorem getDevice_eq_register (id : String) :
    getDevice id = (do
      let (r, new) ← register id
      if new then pushEvent (.deviceAdded r)
      return r) := by
  funext s
  simp only [getDevice, register, Hoare.get_bind, bind_assoc]
  cases s.devices.get? id with
  | some r => rfl
  | none =>
      cases splitId id with
      | error e => rfl
      | ok x => rfl

/-- `delete_device` is cut in front of its event. -/
theorem deleteDevice_eq_unregister (r : Nat) :
    deleteDevice r = (do
      unregister r
      pushEvent (.deviceDeleted r)) := by
  funext s
  simp only [deleteDevice, unregister, Hoare.get_bind, bind_assoc]
  cases (s.dev r).bus with
  | some b => rfl
  | none =>
      cases s.devices.get? (s.dev r).id with
      | none => rfl
      | some r' => rfl

end Service

/-- What the tasks share. -/
structure World where
  service : Service := {}
  /-- `Device._intervals` -/
  intervals : Nat → Dict String ℚ≥0 := fun _ => ∅
  /-- The attributes `interval_..` that the application has set. -/
  attrs : Nat → Dict String ℚ≥0 := fun _ => ∅
  /-- The accessors that the class for a family has been given, by their paths. -/
  accessors : Int → List (List String) := fun _ => []
  /-- `Bus._tasks`; the tasks have numbers. -/
  polls : BusRef → Dict String Nat := fun _ => ∅
  /-- The `_poll` tasks that have not been cancelled, with what they poll. -/
  pollers : Nat → Option (BusRef × String) := fun _ => none
  nextPoller : Nat := 0

namespace World

open Hoare

abbrev Method := EStateM Exc World

def onService (x : AsyncOwfs.Method α) : Method α :=
  zoom service (fun s w => { w with service := s }) x

/-- `polling_items` -/
def pollingItems (family : Int) : List String :=
  if family = 0x10 then ["temperature", "alarm"]
  else if family = 0x20 then ["voltage", "alarm"]
  else []

/-- `hasattr(self, "poll_" + styp)` -/
def hasPoll (family : Int) (styp : String) : Bool :=
  styp = "alarm" ∨ family = 0x10 ∧ styp = "temperature" ∨ family = 0x20 ∧ styp = "voltage"

/-- `polling_interval(k) is not None` -/
def isPolled (w : World) (r : Nat) (k : String) : Bool :=
  ((w.intervals r).get? k).isSome || ((w.attrs r).get? k).isSome

/-- The items that the devices of a bus are to be polled for, each once. -/
def items (w : World) (b : BusRef) : List String :=
  ((((w.service.bus b).devices.map Dict.values).getD []).flatMap fun r =>
    (pollingItems (w.service.dev r).family).filter (w.isPolled r)).dedup

/-- The class of a device has this accessor. -/
def HasAccessor (w : World) (r : Nat) (path : List String) : Prop :=
  path ∈ w.accessors (w.service.dev r).family

instance (w : World) (r : Nat) (path : List String) : Decidable (w.HasAccessor r path) :=
  decidable_of_iff ((w.accessors (w.service.dev r).family).contains path = true)
    List.contains_iff_mem

/-- `getattr` finds this below a device. -/
def HasAttr (w : World) (r : Nat) (path : List String) : Prop :=
  path = [] ∨ ∃ p ∈ w.accessors (w.service.dev r).family, path <+: p

instance (w : World) (r : Nat) (path : List String) : Decidable (w.HasAttr r path) :=
  inferInstanceAs (Decidable (_ ∨ _))

/-- The objects below a device, known by their paths.  None of them has items. -/
def objects (w : World) (r : Nat) : Accessors where
  Obj := List String
  self := []
  getattr path n := if w.HasAttr r (path ++ [n]) then some (path ++ [n]) else none
  getitem _ _ := none
  hasGet path n := w.HasAttr r (path ++ ["get_" ++ n])
  hasPoll := hasPoll (w.service.dev r).family

/-! ## The commands -/

/-- The effect of a command, with the server's answer to it, if it is about one. -/
def exec (reply : Reply) : (c : Cmd) → Method c.Ret
  | .ask _ =>
    match reply with
    | .ok _ => return ()
    | .error e => throw e
  | .serverGetBus v name => onService (Service.serverGetBus v name)
  | .serverBuses v => do
    let w ← get
    return ((w.service.server v).getD []).map fun n => ⟨v, [n]⟩
  | .serverClosed v =>
    onService (modify fun s => { s with server := Function.update s.server v none })
  | .push e => onService (Service.pushEvent e)
  | .getDevice id => onService (Service.register id)
  | .deleteDevice r => onService (Service.unregister r)
  | .assign b r => do
    let w ← get
    if (w.service.dev r).bus = some b then return false
    else
      onService (Service.modifyDev r fun d => { d with bus := some b, waitBus := true })
      return true
  | .replay r => do
    let w ← get
    return (w.intervals r).keys
  | .startOwn r typ => do
    let w ← get
    match (w.objects r).check (.str typ) with
    | .ok _ => return ()
    | .error e => throw e
  | .nextOwn r size => do
    let w ← get
    if (w.intervals r).keys.length = size then return ()
    else throw (.runtimeError "dictionary changed size during iteration")
  | .unlocate b r => do
    let w ← get
    if (w.service.dev r).bus = some b then
      onService (Service.modifyDev r fun d => { d with waitBus := false })
      onService (Service.delDevice b r)
      onService (Service.modifyDev r fun d => { d with bus := none })
      return true
    else return false
  | .setInterval r styp value => do
    modify fun w =>
      let intervals := if value > 0 then (w.intervals r).set styp value else (w.intervals r).erase styp
      { w with intervals := Function.update w.intervals r intervals }
    let w ← get
    match (w.service.dev r).bus with
    | none => return none
    | some b =>
      if hasPoll (w.service.dev r).family styp then return some b
      else
        -- `_set_poll_task(typ, value)`: `typ` may be a tuple, so how it ends is an input
        match reply with
        | .ok _ => return none
        | .error e => throw e
  | .request r path => do
    let w ← get
    if ¬ w.HasAccessor r path then
      throw (if w.HasAttr r path then .typeError else .attributeError)
    else if (w.service.dev r).bus = none then throw .noLocationKnown
    else
      match reply with
      | .ok v => return v
      | .error e => throw e
  | .misuse r path => do
    let w ← get
    throw (if w.HasAttr r path then .typeError else .attributeError)
  | .pushValue _ => return ()
  | .refuse e => throw e
  | .seenBus b => onService (Service.modifyBus b fun bus => { bus with unseen := 0 })
  | .listed b => do
    let w ← get
    match (w.service.bus b).devices with
    | none => throw .attributeError
    | some ds => return ds.keys
  | .sight b r d old => do
    let w ← get
    if (w.service.dev r).bus = some b then
      if d ∈ old then return some (old.erase d) else throw .keyError
    else return none
  | .enlist b r => do
    let w ← get
    match (w.service.bus b).devices with
    | none => throw .typeError
    | some ds =>
      onService (Service.modifyBus b fun bus =>
        { bus with devices := some (ds.set (w.service.dev r).id r) })
      return (w.service.dev r).family
  | .seen r => do
    onService (Service.modifyDev r fun d => { d with unseen := 0 })
    let w ← get
    if (w.service.dev r).family = Service.switchFamily then return some (w.service.dev r).id
    else return none
  | .getBus b path => onService (Service.getBus b path)
  | .miss b d => do
    let w ← get
    match (w.service.bus b).devices with
    | none => throw .typeError
    | some ds =>
      match ds.get? d with
      | none => throw .keyError
      | some r =>
        if (w.service.dev r).unseen > 2 then return some r
        else
          onService (Service.modifyDev r fun d => { d with unseen := d.unseen + 1 })
          return none
  | .buses b => do
    let w ← get
    return ((w.service.bus b).buses.getD []).map b.sub
  | .noBuses b => onService (Service.modifyBus b fun bus => { bus with buses := none })
  | .members b => do
    let w ← get
    return (((w.service.bus b).devices.map Dict.values).getD []).map fun r =>
      (r, (w.service.dev r).family)
  | .noDevices b => onService (Service.modifyBus b fun bus => { bus with devices := none })
  | .review b => do
    let w ← get
    return ((w.polls b).keys.filter (· ∉ w.items b), w.items b)
  | .stopPoll b x => do
    let w ← get
    match (w.polls b).get? x with
    | none => throw .keyError
    | some n =>
      set { w with
        polls := Function.update w.polls b ((w.polls b).erase x),
        pollers := Function.update w.pollers n none }
  | .startPoll b x => do
    let w ← get
    match (w.polls b).get? x with
    | some _ => return none
    | none =>
      set { w with
        pollers := Function.update w.pollers w.nextPoller (some (b, x)),
        nextPoller := w.nextPoller + 1 }
      return some w.nextPoller
  | .storePoll b x n =>
    modify fun w => { w with polls := Function.update w.polls b ((w.polls b).set x n) }

end World

/-! ## The programs -/

abbrev Program := Prog Cmd Cmd.Ret Exc

namespace Program

open Prog hiding perform

abbrev perform (c : Cmd) : Program c.Ret := Prog.perform c

/-- `Service.get_device` -/
def getDevice (id : String) : Program Nat := do
  let (r, new) ← perform (.getDevice id)
  if new then perform (.push (.deviceAdded r))
  return r

/-- `Service.delete_device` -/
def deleteDevice (r : Nat) : Program Unit := do
  perform (.deleteDevice r)
  perform (.push (.deviceDeleted r))

/-- The loop over the intervals in `locate`, one turn.  A dictionary that has changed
but not its size is gone through as it was. -/
def restart (r size : Nat) (typ : String) : Program Unit := do
  perform (.startOwn r typ)
  perform (.nextOwn r size)

/-- `Device.locate` -/
def locate (b : BusRef) (r : Nat) : Program Unit := do
  if ← perform (.assign b r) then
    perform (.push (.deviceLocated r))
    let typs ← perform (.replay r)
    typs.forM (restart r typs.length)

/-- `Device.delocate` -/
def delocate (b : BusRef) (r : Nat) : Program Unit := do
  if ← perform (.unlocate b r) then
    perform (.push (.deviceNotFound r))

/-- `Bus.add_device`; the result says what the device is. -/
def addDevice (b : BusRef) (r : Nat) : Program Int := do
  locate b r
  perform (.enlist b r)

/-- The last loop of `update_poll`, one turn. -/
def startPoll (b : BusRef) (x : String) : Program Unit := do
  match ← perform (.startPoll b x) with
  | none => return ()
  | some n => perform (.storePoll b x n)

/-- `Bus.update_poll` -/
def updatePoll (b : BusRef) : Program Unit := do
  let (old, items) ← perform (.review b)
  old.forM fun x => perform (.stopPoll b x)
  items.forM (startPoll b)

/-! ### Scans -/

/-- The last loop of `_scan_one`, one turn. -/
def miss (b : BusRef) (d : String) : Program Unit := do
  match ← perform (.miss b d) with
  | none => return ()
  | some r => delocate b r

/-- `_scan_one`, around its loop over the directory. -/
def scanWith (polling : Bool) (b : BusRef) (entries : List String → Program (List String)) :
    Program Unit := do
  perform (.ask b.server)
  let old ← perform (.listed b)
  let old ← entries old
  old.forM (miss b)
  if polling then updatePoll b

/-- A sub-bus, if it is not gone. -/
def visit (polling : Bool) (b : BusRef) (path : List String)
    (entries : BusRef → List String → Program (List String)) : Program Unit := do
  match ← perform (.getBus b path) with
  | none => return ()
  | some c => scanWith polling c (entries c)

/-- A name that is a device id: the device is here. -/
def found (b : BusRef) (d : String) (old : List String) : Program (Option String × List String) := do
  let r ← getDevice d
  perform (.ask b.server)
  match ← perform (.sight b r d old) with
  | some old => do
    let id ← perform (.seen r)
    return (id, old)
  | none => do
    let _ ← addDevice b r
    let id ← perform (.seen r)
    return (id, old)

/-- The loop over `dev.buses()`. -/
def visitAll (polling : Bool) (b : BusRef) (id : Option String)
    (main aux : BusRef → List String → Program (List String)) : Program Unit :=
  match id with
  | none => return ()
  | some id => do
    visit polling b [id, "main"] main
    visit polling b [id, "aux"] aux

/-- The loop of `_scan_one` over the directory. -/
def scanEntries (polling : Bool) : Listing → BusRef → List String → Program (List String)
  | .nil, _, old => return old
  | .cons d main aux rest, b, old =>
    match splitId d with
    | .error _ => scanEntries polling rest b old
    | .ok _ => do
      let (id, old) ← found b d old
      visitAll polling b id (scanEntries polling main) (scanEntries polling aux)
      scanEntries polling rest b old

def scanOne (polling : Bool) (b : BusRef) (listing : Listing) : Program Unit :=
  scanWith polling b (scanEntries polling listing b)

/-- A name in the root directory. -/
def scanBus (polling : Bool) (v : Nat) (e : String × Listing) : Program Unit :=
  if Service.isBusName e.1 then do
    let b ← perform (.serverGetBus v e.1)
    perform (.seenBus b)
    scanOne polling b e.2
  else return ()

/-- `_scan_base` -/
def scanBase (polling : Bool) (v : Nat) (root : List (String × Listing)) : Program Unit :=
  handle
    (do
      perform (.ask v)
      root.forM (scanBus polling v))
    fun e => if e = .futuresCancelled then return () else raise e

/-! ### Polls -/

/-- `if any(flags): await self.set_alarm.<n>`, which is a setter, so the loop behind it
is never come to. -/
def reset (r : Nat) (n : String) (flags : Reading) : Program Unit := do
  if flags.any (· ≠ 0) then perform (.misuse r ["set_alarm", n])

/-- An attribute that is written on a condition. -/
def writeIf (p : Prop) [Decidable p] (r : Nat) (path : List String) : Program Unit := do
  if p then
    let _ ← perform (.request r path)

/-- The `poll_alarm` methods of the device classes. -/
def devPollAlarm (r : Nat) (family : Int) : Program Unit :=
  if family = 0x10 then do
    let t ← perform (.request r ["latesttemp"])
    let high ← perform (.request r ["temphigh"])
    writeIf (t.headD 0 > high.headD 0) r ["set_temphigh"]
    let low ← perform (.request r ["templow"])
    writeIf (t.headD 0 < low.headD 0) r ["set_templow"]
  else if family = 0x20 then do
    let v ← perform (.request r ["voltage_all"])
    let high ← perform (.request r ["alarm", "high_all"])
    let low ← perform (.request r ["alarm", "low_all"])
    let power ← perform (.request r ["set_alarm", "unset"])
    writeIf (power.headD 0 ≠ 0) r ["set_alarm", "set_unset"]
    reset r "set_high_all" high
    reset r "set_low_all" low
    -- `v[i]` for the first four
    if v.length < 4 then perform (.refuse .indexError)
  else if family = Service.switchFamily then perform (.refuse (.runtimeError "TODO"))
  else perform (.refuse .notImplemented)

/-- A name in the alarm directory. -/
def alarm (b : BusRef) (d : String) : Program Unit := do
  let r ← getDevice d
  let family ← addDevice b r
  devPollAlarm r family
  perform (.push (.deviceAlarm r))

/-- `Bus.poll_alarm`, with the names in the alarm directory. -/
def pollAlarm (b : BusRef) (names : List String) : Program Unit := do
  perform (.ask b.server)
  names.forM (alarm b)

/-- The attribute that `poll_temperature` and `poll_voltage` read. -/
def polled (family : Int) : String := if family = 0x10 then "temperature" else "volt_all"

/-- The method `poll_..` of a device, if it has one; `poll_alarm` is not called
here. -/
def pollDevice (x : String) (d : Nat × Int) : Program Unit := do
  if World.hasPoll d.2 x then
    let _ ← perform (.request d.1 [polled d.2])
    perform (.pushValue d.1)

/-- `Bus.poll` -/
def poll (b : BusRef) (x : String) (names : List String) : Program Unit :=
  handle
    (if x = "alarm" then pollAlarm b names
      else do
        let ds ← perform (.members b)
        ds.forM (pollDevice x))
    fun
      | .owfsReply _ => return ()
      | e => raise e

/-- `Device.set_polling_interval` -/
def setPollingInterval (r : Nat) (styp : String) (value : ℚ≥0) : Program Unit := do
  match ← perform (.setInterval r styp value) with
  | none => return ()
  | some b => updatePoll b

/-! ### The end of a server -/

/-- The first half of `Bus.delocate`. -/
def delocateBuses (below : BusRef → Program Unit) (b : BusRef) : Program Unit := do
  let bs ← perform (.buses b)
  if bs ≠ [] then
    bs.forM below
    perform (.noBuses b)

/-- The second half. -/
def delocateDevices (b : BusRef) : Program Unit := do
  let ds ← perform (.members b)
  if ds ≠ [] then
    ds.forM fun d => delocate b d.1
    perform (.noDevices b)

/-- `Bus.delocate`, with a limit for the depth of the recursion. -/
def delocateBus : Nat → BusRef → Program Unit
  | 0, _ => raise (.runtimeError "maximum recursion depth exceeded")
  | limit + 1, b => do
    delocateBuses (delocateBus limit) b
    delocateDevices b
    perform (.push (.busDeleted b))

/-- What `aclose` does to the bus tree. -/
def aclose (limit v : Nat) : Program Unit := do
  perform (.push (.serverDisconnected v))
  let bs ← perform (.serverBuses v)
  bs.forM (delocateBus limit)
  perform (.serverClosed v)

/-- A call from outside, which does something with the device or not. -/
def callGetDevice (id : String) : Program Unit := do
  let _ ← getDevice id

end Program

/-! ## The tasks -/

/-- A task: a call from outside, of `Bus.poll` or of anything else, or what a `_poll`
task is doing when it does not sleep. -/
inductive TaskId
  | call (n : Nat)
  | round (n : Nat)
  | poller (n : Nat)
  deriving DecidableEq, Repr

structure Tasks extends Pool TaskId World Cmd Cmd.Ret Exc Unit where
  nextCall : Nat := 0
  nextRound : Nat := 0

namespace Tasks

open Program Hoare

/-- What can happen next. -/
inductive Action
  | scan (polling : Bool) (v : Nat) (root : List (String × Listing))
  | getDevice (id : String)
  | deleteDevice (r : Nat)
  | setPollingInterval (r : Nat) (styp : String) (value : ℚ≥0)
  /-- The application sets an attribute `interval_..` of a device. -/
  | setAttr (r : Nat) (k : String) (value : Option ℚ≥0)
  /-- A class is given accessors: `setup_struct`, by a scan with `load_structs` or by a
  call of `ensure_struct`, has come so far. -/
  | setup (family : Int) (paths : List (List String))
  | pollAlarm (b : BusRef) (names : List String)
  | aclose (limit v : Nat)
  | poll (b : BusRef) (x : String) (names : List String)
  /-- The sleep of a `_poll` task is over. -/
  | wake (n : Nat) (names : List String)
  /-- A task goes on. -/
  | resume (i : TaskId) (reply : Reply)

/-- The tasks that there have been. -/
def tasks (t : Tasks) : List TaskId :=
  (List.range t.nextCall).map .call ++ (List.range t.nextRound).map .round ++
    (List.range t.shared.nextPoller).map .poller

/-- The task has not been cancelled by the bus it polls for.  A call that is cancelled
with the task group of its caller is taken for one that is not resumed any more: what
it was about to push or to store, it counts as about to push or to store for ever. -/
def Live (t : Tasks) : TaskId → Prop
  | .poller n => t.shared.pollers n ≠ none
  | _ => True

instance (t : Tasks) (i : TaskId) : Decidable (t.Live i) := by
  unfold Live
  split <;> infer_instance

def startCall (t : Tasks) (p : Program Unit) : Tasks :=
  { t with toPool := t.start (.call t.nextCall) p, nextCall := t.nextCall + 1 }

def startRound (t : Tasks) (p : Program Unit) : Tasks :=
  { t with toPool := t.start (.round t.nextRound) p, nextRound := t.nextRound + 1 }

def step (t : Tasks) : Action → Option Tasks
  | .scan polling v root => some (t.startCall (scanBase polling v root))
  | .getDevice id => some (t.startCall (callGetDevice id))
  | .deleteDevice r =>
    if r < t.shared.service.nextDev then some (t.startCall (deleteDevice r)) else none
  | .setPollingInterval r styp value =>
    if r < t.shared.service.nextDev then some (t.startCall (setPollingInterval r styp value)) else none
  | .setAttr r k value =>
    let attrs := match value with
      | some v => (t.shared.attrs r).set k v
      | none => (t.shared.attrs r).erase k
    some { t with shared := { t.shared with attrs := Function.update t.shared.attrs r attrs } }
  | .setup family paths =>
    let accessors := Function.update t.shared.accessors family (t.shared.accessors family ++ paths)
    some { t with shared := { t.shared with accessors } }
  | .pollAlarm b names => some (t.startCall (pollAlarm b names))
  | .aclose limit v => some (t.startCall (aclose limit v))
  | .poll b x names => some (t.startRound (poll b x names))
  | .wake n names =>
    match t.shared.pollers n, t.task (.poller n) with
    | some (b, x), .done _ => some { t with toPool := t.start (.poller n) (poll b x names) }
    | _, _ => none
  | .resume i reply =>
    if t.Live i then (t.toPool.resume (World.exec reply) i).map fun p => { t with toPool := p } else none

def init : Tasks := { shared := {}, task := fun _ => .done () }

/-- The programs that tasks start with. -/
inductive Entry (w : World) : TaskId → Program Unit → Prop
  | scan (n : Nat) (polling : Bool) (v : Nat) (root : List (String × Listing)) :
    Entry w (.call n) (scanBase polling v root)
  | getDevice (n : Nat) (id : String) : Entry w (.call n) (callGetDevice id)
  | deleteDevice (n r : Nat) : Entry w (.call n) (deleteDevice r)
  | setPollingInterval (n r : Nat) (styp : String) (value : ℚ≥0) :
    Entry w (.call n) (setPollingInterval r styp value)
  | pollAlarm (n : Nat) (b : BusRef) (names : List String) : Entry w (.call n) (pollAlarm b names)
  | aclose (n limit v : Nat) : Entry w (.call n) (aclose limit v)
  | poll (n : Nat) (b : BusRef) (x : String) (names : List String) :
    Entry w (.round n) (poll b x names)
  | wake (n : Nat) (b : BusRef) (x : String) (names : List String)
    (h : w.pollers n = some (b, x)) : Entry w (.poller n) (poll b x names)

/-- The action is not one that a task does. -/
def Action.Outer : Action → Prop
  | .resume .. => False
  | _ => True

/-- The action is the end of the sleep of that task. -/
def Action.Wakes : Action → TaskId → Prop
  | .wake n _, i => i = .poller n
  | _, _ => False

/-- A task starts, in a place where none is running. -/
structure Starts (t : Tasks) (a : Action) (t' : Tasks) (i : TaskId) (p : Program Unit) : Prop where
  outer : a.Outer
  entry : Entry t.shared i p
  idle : i ∉ t.tasks ∨ a.Wakes i ∧ ∃ u, t.task i = .done u
  mem : ∀ j, j ∈ t'.tasks ↔ j ∈ t.tasks ∨ j = i
  shared : t'.shared = t.shared
  task : t'.task = Function.update t.task i p

/-- A call starts under a new number. -/
theorem starts_call {t : Tasks} {a : Action} {p : Program Unit} (ha : a.Outer)
    (hp : Entry t.shared (.call t.nextCall) p) :
    Starts t a (t.startCall p) (.call t.nextCall) p := by
  refine ⟨ha, hp, .inl ?_, fun j => ?_, rfl, rfl⟩
  · simp [tasks]
  · simp only [tasks, startCall, Pool.start, List.mem_append, List.mem_map, List.mem_range]
    grind

/-- A round starts under a new number. -/
theorem starts_round {t : Tasks} {a : Action} {p : Program Unit} (ha : a.Outer)
    (hp : Entry t.shared (.round t.nextRound) p) :
    Starts t a (t.startRound p) (.round t.nextRound) p := by
  refine ⟨ha, hp, .inl ?_, fun j => ?_, rfl, rfl⟩
  · simp [tasks]
  · simp only [tasks, startRound, Pool.start, List.mem_append, List.mem_map, List.mem_range]
    grind

/-- The task does a command of its program. -/
structure Goes (t t' : Tasks) (i : TaskId) (reply : Reply) (c : Cmd) (r : Except Exc c.Ret)
    (k : Except Exc c.Ret → Program Unit) (w : World) : Prop where
  live : t.Live i
  before : t.task i = .cmd c k
  outcome : Outcome (World.exec reply c) t.shared r w
  after : t' = { t with shared := w, task := Function.update t.task i (k r) }

/-- **What a step comes down to**: a task starts, attributes are set, or a task does its
next command. -/
theorem step_cases {t t' : Tasks} {a : Action} (hpollers : ∀ n, t.shared.nextPoller ≤ n →
      t.shared.pollers n = none) (h : t.step a = some t') :
    (∃ i p, Starts t a t' i p) ∨
    (a.Outer ∧ ∃ attrs accessors,
      t' = { t with shared := { t.shared with attrs, accessors } }) ∨
    (∃ i reply c r k w, a = .resume i reply ∧ Goes t t' i reply c r k w) := by
  cases a with
  | resume i reply =>
      rw [step] at h
      split at h
      · next hlive =>
        obtain ⟨p, hp, rfl⟩ := Option.map_eq_some_iff.mp h
        obtain ⟨c, k, r, w, hbefore, houtcome, rfl⟩ := Pool.resume_cases hp
        exact .inr (.inr ⟨i, reply, c, r, k, w, rfl, hlive, hbefore, houtcome, rfl⟩)
      · contradiction
  | setAttr r k value =>
      simp only [step, Option.some.injEq] at h
      exact .inr (.inl ⟨trivial, _, t.shared.accessors, h.symm⟩)
  | setup family paths =>
      simp only [step, Option.some.injEq] at h
      exact .inr (.inl ⟨trivial, t.shared.attrs, _, h.symm⟩)
  | wake n names =>
      rw [step] at h
      split at h
      · next b x u hpoller hdone =>
        rw [Option.some.injEq] at h
        subst h
        refine .inl ⟨_, _, trivial, .wake n b x names hpoller, .inr ⟨rfl, u, hdone⟩, fun j => ?_, rfl, rfl⟩
        have hn : n < t.shared.nextPoller := by
          by_contra hn
          rw [hpollers n (Nat.le_of_not_lt hn)] at hpoller
          contradiction
        simp only [tasks, Pool.start, List.mem_append, List.mem_map, List.mem_range]
        grind
      · contradiction
  | poll b x names =>
      rw [step, Option.some.injEq] at h
      exact h ▸ .inl ⟨_, _, starts_round trivial (.poll ..)⟩
  | deleteDevice r =>
      rw [step] at h
      split at h
      · rw [Option.some.injEq] at h
        exact h ▸ .inl ⟨_, _, starts_call trivial (.deleteDevice ..)⟩
      · contradiction
  | setPollingInterval r styp value =>
      rw [step] at h
      split at h
      · rw [Option.some.injEq] at h
        exact h ▸ .inl ⟨_, _, starts_call trivial (.setPollingInterval ..)⟩
      · contradiction
  | scan polling v root =>
      rw [step, Option.some.injEq] at h
      exact h ▸ .inl ⟨_, _, starts_call trivial (.scan ..)⟩
  | getDevice id =>
      rw [step, Option.some.injEq] at h
      exact h ▸ .inl ⟨_, _, starts_call trivial (.getDevice ..)⟩
  | pollAlarm b names =>
      rw [step, Option.some.injEq] at h
      exact h ▸ .inl ⟨_, _, starts_call trivial (.pollAlarm ..)⟩
  | aclose limit v =>
      rw [step, Option.some.injEq] at h
      exact h ▸ .inl ⟨_, _, starts_call trivial (.aclose ..)⟩

end Tasks

end AsyncOwfs
