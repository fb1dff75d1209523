import AsyncOwfs.Exc
import AsyncOwfs.Lib.Dict
import AsyncOwfs.Lib.Hoare
import Mathlib.Logic.Function.Basic

/-!
# AsyncOwfs.Service

The devices and buses that a `Service` knows, and the methods of `Service`,
`Device` and `Bus` that say where a device is.

Devices and buses are objects with an identity.  A device is a number, given in
order of creation.  A bus is named by its server and its path: a server never
has two `Bus` objects for one path.

Where a device is, is stored twice: in the device (`bus`) and in the bus
(`_devices`).  Two history variables, which no method reads, say what has
ever happened: `disturbed`, that `add_device` has met a device that is located
on another bus, or an entry for another device of the same id; `uncounted`, that
an alarm poll has met a device that scans have missed.
-/

namespace AsyncOwfs

/-! ## Device ids -/

/-- What `int` strips from an ASCII string. -/
def isSpace (c : Char) : Bool := c = ' ' ∨ 9 ≤ c.toNat ∧ c.toNat ≤ 13

def hexDigit (c : Char) : Option Nat :=
  if '0' ≤ c ∧ c ≤ '9' then some (c.toNat - 48)
  else if 'a' ≤ c ∧ c ≤ 'f' then some (c.toNat - 87)
  else if 'A' ≤ c ∧ c ≤ 'F' then some (c.toNat - 55)
  else none

/-- Digits with single underscores between them; `sep` where no underscore may
stand, and the digits may not end. -/
def hexDigits : Bool → Nat → List Char → Option Nat
  | sep, n, [] => if sep then none else some n
  | sep, n, c :: cs =>
    if c = '_' then (if sep then none else hexDigits true n cs)
    else
      match hexDigit c with
      | none => none
      | some v => hexDigits false (16 * n + v) cs

/-- Digits with an optional prefix. -/
def hexNat : List Char → Option Nat
  | '0' :: x :: '_' :: cs => if x = 'x' ∨ x = 'X' then hexDigits true 0 cs
    else hexDigits true 0 ('0' :: x :: '_' :: cs)
  | '0' :: x :: cs => if x = 'x' ∨ x = 'X' then hexDigits true 0 cs
    else hexDigits true 0 ('0' :: x :: cs)
  | cs => hexDigits true 0 cs

/-- `int(x, 16)`, for ASCII strings. -/
def hexInt (x : List Char) : Option Int :=
  match ((x.dropWhile isSpace).reverse.dropWhile isSpace).reverse with
  | '-' :: cs => (hexNat cs).map fun n => -n
  | '+' :: cs => (hexNat cs).map fun n => n
  | cs => (hexNat cs).map fun n => n

/-- `split_id`: family, code and checksum. -/
def splitId (id : String) : Except Exc (Int × Int × Int) :=
  match (id.toList.splitOn '.').map hexInt with
  | [some a, some b, some c] => .ok (a, b, c)
  | _ => .error (.notADevice id)

/-- `id.upper()`, for ASCII strings. -/
def upper (id : String) : String := String.ofList (id.toList.map Char.toUpper)

/-! ## Objects -/

/-- A `Bus` object. -/
structure BusRef where
  server : Nat
  path : List String
  deriving DecidableEq, Repr

/-- The bus below another one. -/
def BusRef.sub (b : BusRef) (path : List String) : BusRef := ⟨b.server, b.path ++ path⟩

structure Device where
  id : String
  family : Int
  bus : Option BusRef := none
  unseen : Nat := 0
  /-- `_wait_bus` is set. -/
  waitBus : Bool := false
  deriving Repr

/-- What a `Bus` object holds; `None` when the bus is gone. -/
structure Bus where
  /-- The keys of `_buses`: the paths of the sub-buses, relative to this one. -/
  buses : Option (List (List String)) := some []
  devices : Option (Dict String Nat) := some ∅
  unseen : Nat := 0

inductive Event
  | serverDisconnected (server : Nat)
  | busAdded (b : BusRef)
  | busDeleted (b : BusRef)
  | deviceAdded (dev : Nat)
  | deviceDeleted (dev : Nat)
  | deviceLocated (dev : Nat)
  | deviceNotFound (dev : Nat)
  | deviceAlarm (dev : Nat)
  deriving DecidableEq, Repr

/-- The state of a `Service`, its servers, buses and devices. -/
structure Service where
  /-- `Service._devices`. -/
  devices : Dict String Nat := ∅
  dev : Nat → Device := fun _ => { id := "", family := 0 }
  nextDev : Nat := 0
  bus : BusRef → Bus := fun _ => {}
  /-- The keys of `Server._buses`, or `None` behind `aclose`. -/
  server : Nat → Option (List String) := fun _ => some []
  /-- A bound for the lengths of the buses' paths. -/
  depth : Nat := 0
  events : List Event := []
  disturbed : Bool := false
  /-- An alarm poll has met a device with misses. -/
  uncounted : Bool := false

/-- A method: it may raise, and what it did before it raised stays done. -/
abbrev Method := EStateM Exc Service

namespace Service

def pushEvent (e : Event) : Method Unit := modify fun s => { s with events := s.events ++ [e] }

def modifyDev (r : Nat) (f : Device → Device) : Method Unit :=
  modify fun s => { s with dev := Function.update s.dev r (f (s.dev r)) }

def modifyBus (b : BusRef) (f : Bus → Bus) : Method Unit :=
  modify fun s => { s with bus := Function.update s.bus b (f (s.bus b)) }

/-- The device that a bus lists under an id. -/
def lookup (s : Service) (b : BusRef) (id : String) : Option Nat :=
  (s.bus b).devices.bind fun ds => ds.get? id

/-! ## `Service` -/

/-- `get_device`. -/
def getDevice (id : String) : Method Nat := do
  let s ← get
  match s.devices.get? id with
  | some r => return r
  | none =>
    match splitId id with
    | .error e => throw e
    | .ok (family, _, _) =>
      let r := s.nextDev
      set { s with
        dev := Function.update s.dev r { id := upper id, family },
        nextDev := r + 1, devices := s.devices.set (upper id) r }
      pushEvent (.deviceAdded r)
      return r

/-- `delete_device`. -/
def deleteDevice (r : Nat) : Method Unit := do
  let s ← get
  match (s.dev r).bus with
  | some b => throw (.runtimeError ("This device is present on /" ++ "/".intercalate b.path))
  | none =>
    match s.devices.get? (s.dev r).id with
    | none => throw .keyError
    | some _ =>
      set { s with devices := s.devices.erase (s.dev r).id }
      pushEvent (.deviceDeleted r)

/-! ## `Device` and `Bus` -/

/-- `Device.locate`. -/
def locate (r : Nat) (b : BusRef) : Method Unit := do
  let s ← get
  if (s.dev r).bus = some b then return ()
  else
    modifyDev r fun d => { d with bus := some b, waitBus := true }
    pushEvent (.deviceLocated r)

/-- `Bus._del_device`. -/
def delDevice (b : BusRef) (r : Nat) : Method Unit := do
  let s ← get
  match (s.bus b).devices with
  | none => throw .typeError
  | some ds =>
    match ds.get? (s.dev r).id with
    | none => throw .keyError
    | some _ => modifyBus b fun bus => { bus with devices := some (ds.erase (s.dev r).id) }

/-- `Device._delocate`. -/
def delocateDevice (r : Nat) : Method Unit := do
  let s ← get
  match (s.dev r).bus with
  | none => throw .attributeError
  | some b =>
    delDevice b r
    modifyDev r fun d => { d with bus := none }
    pushEvent (.deviceNotFound r)

/-- `Device.delocate`. -/
def delocate (r : Nat) (b : BusRef) : Method Unit := do
  let s ← get
  if (s.dev r).bus = some b then
    modifyDev r fun d => { d with waitBus := false }
    delocateDevice r
  else return ()

/-- The device is located on another bus, or the bus lists another device under
its id. -/
def Disturbs (s : Service) (b : BusRef) (r : Nat) : Prop :=
  (s.dev r).bus ≠ none ∧ (s.dev r).bus ≠ some b ∨
    s.lookup b (s.dev r).id ≠ none ∧ s.lookup b (s.dev r).id ≠ some r

instance (s : Service) (b : BusRef) (r : Nat) : Decidable (Disturbs s b r) :=
  inferInstanceAs (Decidable (_ ∨ _))

/-- `Bus.add_device`. -/
def addDevice (b : BusRef) (r : Nat) : Method Unit := do
  modify fun s => { s with disturbed := s.disturbed || decide (Disturbs s b r) }
  locate r b
  let s ← get
  match (s.bus b).devices with
  | none => throw .typeError
  | some ds => modifyBus b fun bus => { bus with devices := some (ds.set (s.dev r).id r) }

/-- `Bus.get_bus`: nothing if the bus is gone.  A bus that nobody has asked for
is in the state of a new one. -/
def getBus (b : BusRef) (path : List String) : Method (Option BusRef) := do
  let s ← get
  match (s.bus b).buses with
  | none => return none
  | some paths =>
    if path ∈ paths then return some (b.sub path)
    else
      set { s with
        bus := Function.update s.bus b { s.bus b with buses := some (paths ++ [path]) },
        depth := max s.depth (b.sub path).path.length }
      pushEvent (.busAdded (b.sub path))
      return some (b.sub path)

end Service

end AsyncOwfs
