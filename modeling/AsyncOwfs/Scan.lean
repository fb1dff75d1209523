import AsyncOwfs.Service
import AsyncOwfs.Lib.Transition

/-!
# AsyncOwfs.Scan

Scanning: `Server._scan_base`, `Bus._scan_one`, `Bus.poll_alarm`, and the end of
a server's bus tree in `Server.aclose`.

A scan asks the server for one directory after the other.  What it is told is a
tree: the names of a bus, in order, and below the name of a coupler the listings
of its two sub-buses.  A scan that cannot finish raises; it is not an operation
of a service at rest.

`_scan_one` runs over a `set` of old devices; here they are taken in the order of
the dictionary, which only the order of the events depends on.
-/

namespace AsyncOwfs

/-- What a scan is told about a bus: the names there, each with the listings of
`main` and `aux` that are asked for if it is a coupler. -/
inductive Listing
  | nil
  | cons (name : String) (main aux rest : Listing)
  deriving DecidableEq, Repr

/-- The elements of the sets of paths in `_scan_base` and `_scan_one`, which are
strings and tuples. -/
inductive PathKey
  | name (d : String)
  | path (p : List String)
  deriving DecidableEq, Repr

namespace Service

/-- The family of `SwitchDevice`, the only one with `buses`. -/
def switchFamily : Int := 0x1F

/-! ## `_scan_one` -/

/-- A listed device: it is no longer among the old ones, or it is new here. -/
def sight (b : BusRef) (r : Nat) (d : String) (old : List String) : Method (List String) := do
  let s ← get
  if (s.dev r).bus = some b then
    if d ∈ old then return old.erase d else throw .keyError
  else
    addDevice b r
    return old

/-- An old device that was not listed. -/
def miss (b : BusRef) (d : String) : Method Unit := do
  let s ← get
  match (s.bus b).devices with
  | none => throw .typeError
  | some ds =>
    match ds.get? d with
    | none => throw .keyError
    | some r =>
      if (s.dev r).unseen > 2 then delocate r b
      else modifyDev r fun d => { d with unseen := d.unseen + 1 }

/-- `_scan_one`, around its loop over the directory. -/
def scanWith (b : BusRef) (entries : List String → Method (List String × List PathKey)) :
    Method (List PathKey) := do
  let s ← get
  match (s.bus b).devices with
  | none => throw .attributeError
  | some ds =>
    let (old, buses) ← entries ds.keys
    old.forM (miss b)
    return buses

/-- A sub-bus, if it is not gone. -/
def visit (b : BusRef) (path : List String)
    (entries : BusRef → List String → Method (List String × List PathKey)) :
    Method (List PathKey) := do
  match ← getBus b path with
  | none => return [.path path]
  | some c =>
    let buses ← scanWith c (entries c)
    return .path path :: buses

/-- A name that is a device id: the device is here. -/
def found (b : BusRef) (d : String) (old : List String) : Method (Nat × List String) := do
  let r ← getDevice d
  let old ← sight b r d old
  modifyDev r fun d => { d with unseen := 0 }
  return (r, old)

/-- The loop over `dev.buses()`, which are `main` and `aux` of a coupler. -/
def visitAll (b : BusRef) (r : Nat)
    (main aux : BusRef → List String → Method (List String × List PathKey)) :
    Method (List PathKey) := do
  let s ← get
  if (s.dev r).family = switchFamily then
    let buses ← visit b [(s.dev r).id, "main"] main
    let buses' ← visit b [(s.dev r).id, "aux"] aux
    return buses ++ buses'
  else return []

/-- The loop of `_scan_one` over the directory. -/
def scanEntries : Listing → BusRef → List String → Method (List String × List PathKey)
  | .nil, _, old => return (old, [])
  | .cons d main aux rest, b, old =>
    match splitId d with
    | .error _ => scanEntries rest b old
    | .ok _ => do
      let (r, old) ← found b d old
      let below ← visitAll b r (scanEntries main) (scanEntries aux)
      let (old, buses) ← scanEntries rest b old
      return (old, below ++ buses)

def scanOne (b : BusRef) (listing : Listing) : Method (List PathKey) :=
  scanWith b (scanEntries listing b)

/-! ## The end of a bus -/

/-- The first half of `Bus.delocate`: the sub-buses, each of which goes by
`below`. -/
def delocateBuses (below : BusRef → Method Unit) (b : BusRef) : Method Unit := do
  let s ← get
  match (s.bus b).buses with
  | some (p :: ps) =>
    (p :: ps).forM fun p => below (b.sub p)
    modifyBus b fun bus => { bus with buses := none }
  | _ => return ()

/-- The second half: the devices. -/
def delocateDevices (b : BusRef) : Method Unit := do
  let s ← get
  match (s.bus b).devices with
  | some ds =>
    if ds.values ≠ [] then
      ds.values.forM fun r => delocate r b
      modifyBus b fun bus => { bus with devices := none }
  | none => return ()

/-- `Bus.delocate`, down to `fuel` levels of sub-buses. -/
def delocateBus : Nat → BusRef → Method Unit
  | 0, _ => return ()
  | fuel + 1, b => do
    delocateBuses (delocateBus fuel) b
    delocateDevices b
    pushEvent (.busDeleted b)

/-! ## `Server` -/

/-- `Server.get_bus`. -/
def serverGetBus (v : Nat) (name : String) : Method BusRef := do
  let s ← get
  match s.server v with
  | none => throw .typeError
  | some names =>
    if name ∈ names then return ⟨v, [name]⟩
    else
      set { s with
        server := Function.update s.server v (some (names ++ [name])), depth := max s.depth 1 }
      pushEvent (.busAdded ⟨v, [name]⟩)
      return ⟨v, [name]⟩

/-- `d.startswith("bus.")` -/
def isBusName (d : String) : Bool := "bus.".toList.isPrefixOf d.toList

/-- Step 1 of `_scan_base`, over the root directory. -/
def enumerate (v : Nat) : List (String × Listing) → List PathKey → Method (List PathKey)
  | [], oldPaths => return oldPaths
  | (d, listing) :: root, oldPaths =>
    if isBusName d then do
      let b ← serverGetBus v d
      modifyBus b fun bus => { bus with unseen := 0 }
      let buses ← scanOne b listing
      enumerate v root ((oldPaths.erase (.name d)).filter (· ∉ buses))
    else enumerate v root oldPaths

/-- One turn of step 2 of `_scan_base`. -/
def deregister (v : Nat) (p : PathKey) : Method Unit := do
  let s ← get
  match s.server v, p with
  | none, _ => throw .attributeError
  | some names, .path [n] =>
    if n ∈ names then
      if (s.bus ⟨v, [n]⟩).unseen > 2 then delocateBus s.depth ⟨v, [n]⟩
      else modifyBus ⟨v, [n]⟩ fun bus => { bus with unseen := bus.unseen + 1 }
  | some _, _ => pure ()

/-- `_scan_base`.  The set of old paths starts empty. -/
def scanBase (v : Nat) (root : List (String × Listing)) : Method Unit := do
  let oldPaths ← enumerate v root []
  oldPaths.forM (deregister v)

/-- What `aclose` does to the bus tree. -/
def aclose (v : Nat) : Method Unit := do
  pushEvent (.serverDisconnected v)
  let s ← get
  match s.server v with
  | none => pure ()
  | some names => names.forM fun n => delocateBus s.depth ⟨v, [n]⟩
  modify fun s => { s with server := Function.update s.server v none }

/-- `Bus.all_buses`, down to `fuel` levels of sub-buses. -/
def allBusesBelow (s : Service) : Nat → BusRef → List BusRef
  | 0, _ => []
  | fuel + 1, b =>
    b :: (((s.bus b).buses.getD []).flatMap fun p => s.allBusesBelow fuel (b.sub p))

/-- `Server.all_buses`. -/
def allBuses (s : Service) (v : Nat) : List BusRef :=
  ((s.server v).getD []).flatMap fun n => s.allBusesBelow s.depth ⟨v, [n]⟩

/-! ## Alarms -/

/-- `poll_alarm` of a device: the classes that override it ask the server, and
`answer` is what comes of that. -/
def devPollAlarm (family : Int) (answer : Except Exc Unit) : Method Unit :=
  if family = 0x10 ∨ family = 0x20 then
    match answer with
    | .ok _ => return ()
    | .error e => throw e
  else if family = switchFamily then throw (.runtimeError "TODO")
  else throw .notImplemented

/-- A name in the alarm directory: the device is here. -/
def noticed (b : BusRef) (d : String) : Method Nat := do
  let r ← getDevice d
  modify fun s => { s with uncounted := s.uncounted || decide ((s.dev r).unseen ≠ 0) }
  addDevice b r
  return r

/-- `Bus.poll_alarm`: the names in the alarm directory, each with what the
server answers to the device's requests. -/
def pollAlarm (b : BusRef) : List (String × Except Exc Unit) → Method Unit
  | [] => return ()
  | (d, answer) :: entries => do
    let r ← noticed b d
    let s ← get
    devPollAlarm (s.dev r).family answer
    pushEvent (.deviceAlarm r)
    pollAlarm b entries

/-! ## A service between its operations -/

/-- An operation, with what the server answers to it. -/
inductive Action
  | getDevice (id : String)
  | deleteDevice (r : Nat)
  | scan (v : Nat) (root : List (String × Listing))
  | pollAlarm (b : BusRef) (entries : List (String × Except Exc Unit))
  | aclose (v : Nat)

/-- The state that a method leaves, also when it raises. -/
def after (x : Method α) (s : Service) : Service :=
  match x s with
  | .ok _ s' | .error _ s' => s'

/-- The state behind an operation.  A scan has to be complete, and the alarm
directory is that of a bus of an open server. -/
def step (s : Service) : Action → Option Service
  | .getDevice id => some (after (getDevice id) s)
  | .deleteDevice r => if r < s.nextDev then some (after (deleteDevice r) s) else none
  | .scan v root =>
    match scanBase v root s with
    | .ok _ s' => some s'
    | .error _ _ => none
  | .pollAlarm b entries =>
    if b ∈ s.allBuses b.server then some (after (Service.pollAlarm b entries) s) else none
  | .aclose v => some (after (Service.aclose v) s)

def init : Service := {}

end Service

end AsyncOwfs
