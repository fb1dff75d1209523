import AsyncOwfs.Bytes
import AsyncOwfs.Service
import Mathlib.Data.Finset.Card
import Mathlib.Logic.Function.Basic

/-!
# AsyncOwfs.Struct

The structure of a device's class: `setup_accessors`, which reads the structure
directory of a family and gives the class its accessors, `setup_struct` around it,
and what the accessors do.

A class is named by the subdirectories that lead to it, `[]` being the device's
class: `setup_accessors` makes a new class in place of one that is there.  What it
does depends on nothing but what the server says, so it is a list of commands, each
of them a request or what is done up to the next one.  The requests may fail, each
with what `faults` has for it.

The attributes of `object`, of `type` and of the subclasses of `Device` are a
parameter (`extra`).
-/

namespace AsyncOwfs

namespace Struct

/-! ## Setup vectors -/

/-- Digits with single underscores between them, as in `hexDigits`. -/
def decDigits : Bool → Nat → List Char → Option Nat
  | sep, n, [] => if sep then none else some n
  | sep, n, c :: cs =>
    if c = '_' then (if sep then none else decDigits true n cs)
    else if '0' ≤ c ∧ c ≤ '9' then decDigits false (10 * n + (c.toNat - 48)) cs
    else none

/-- `int(x)`, for ASCII strings. -/
def decInt (x : List Char) : Option Int :=
  match ((x.dropWhile isSpace).reverse.dropWhile isSpace).reverse with
  | '-' :: cs => (decDigits true 0 cs).map fun n => -n
  | '+' :: cs => (decDigits true 0 cs).map fun n => n
  | cs => (decDigits true 0 cs).map fun n => n

/-- What a structure file says of an attribute. -/
structure SetupVector where
  typ : String
  index : Int
  elements : Int
  access : String
  size : Int
  rest : List String
  deriving DecidableEq, Repr

/-- `int(v[i])` -/
def intAt (v : List String) (i : Nat) : Except Exc Int :=
  match v[i]? with
  | none => .error .indexError
  | some x =>
    match decInt x.toList with
    | none => .error .valueError
    | some n => .ok n

/-- `v.decode("utf-8").split(",")`, with three elements converted. -/
def SetupVector.parse (reply : Bytes) : Except Exc SetupVector :=
  match String.fromUTF8? reply.toByteArray with
  | none => .error .unicodeDecodeError
  | some s => do
    let v := (s.toList.splitOn ',').map String.ofList
    let index ← intAt v 1
    let elements ← intAt v 2
    let size ← intAt v 4
    return { typ := v.getD 0 "", index, elements, access := v.getD 3 "", size, rest := v.drop 5 }

def SetupVector.readable (v : SetupVector) : Bool := v.access = "ro" ∨ v.access = "rw"

def SetupVector.writable (v : SetupVector) : Bool := v.access = "wo" ∨ v.access = "rw"

/-! ## Classes -/

/-- The classes of accessors.  Those for arrays know whether the elements have numbers
or letters. -/
inductive Kind
  | simpleValue
  | simpleGetter
  | simpleSetter
  | multiValue
  | multiGetter
  | multiSetter
  | arrayValue (num : Bool)
  | arrayGetter (num : Bool)
  | arraySetter (num : Bool)
  deriving DecidableEq, Repr

structure Accessor where
  kind : Kind
  path : List String
  typ : String
  deriving DecidableEq, Repr

/-- What `setup_accessors` puts into a class: an accessor, or the class of a
subdirectory. -/
inductive Attr
  | accessor (a : Accessor)
  | cls (p : List String)
  deriving DecidableEq, Repr

@[ext]
structure Cls where
  attrs : String → Option Attr := fun _ => none
  /-- The setup vectors; `v[1]` says what kind of an array it is. -/
  fields : String → Option (SetupVector × Option Bool) := fun _ => none

/-- Class attributes of `SubDir`. -/
def subDirAttrs : List String := ["_subdirs", "dev"]

/-- Class attributes of `Device`. -/
def deviceAttrs : List String :=
  ["_did_setup", "_poll", "bus", "_events", "_wait_bus", "queue_event", "queued_events",
    "setup_struct", "buses", "locate", "wait_bus", "delocate", "_delocate", "attr_get", "attr_set",
    "get", "set", "polling_items", "polling_interval", "set_polling_interval", "_set_poll_task",
    "_poll_task", "poll_alarm", "family"]

/-- What a device gets in `__new__`. -/
def deviceSelf : List String :=
  ["id", "family", "code", "chksum", "service", "bus", "_unseen", "_events", "_wait_bus", "_poll",
    "_intervals", "_task_lock"]

/-- The attributes that the class with this path has from its base classes. -/
def inherited (extra : List String → String → Bool) (p : List String) (n : String) : Bool :=
  n ∈ subDirAttrs ∨ p = [] ∧ n ∈ deviceAttrs ∨ extra p n

/-- Those that it has of its own before any accessor is set up. -/
def native (p : List String) (n : String) : Bool :=
  n = "fields" ∨ p ≠ [] ∧ (n = "typ" ∨ n = "subdir")

/-- The attributes of an object of the class itself. -/
def own (p : List String) (n : String) : Bool :=
  p = [] ∧ n ∈ deviceSelf ∨ p ≠ [] ∧ (n = "base" ∨ n = "dev")

/-- `hasattr(cls, n)` finds the attribute.  It calls `__get__` without an object, from
which an `ArrayValue` cannot take its `dev`. -/
def Attr.found : Attr → Bool
  | .accessor ⟨.arrayValue _, _, _⟩ => false
  | _ => true

section Classes

variable (extra : List String → String → Bool)

/-- `hasattr(cls, n)` -/
def Cls.hasattr (p : List String) (c : Cls) (n : String) : Bool :=
  match c.attrs n with
  | some a => a.found
  | none => native p n || inherited extra p n

/-- `setattr(cls, n, a)` -/
def Cls.put (c : Cls) (n : String) (a : Accessor) : Cls :=
  { c with attrs := Function.update c.attrs n (some (.accessor a)) }

/-- `setattr(cls, n, a)`, without overwriting. -/
def Cls.offer (p : List String) (c : Cls) (n : String) (a : Accessor) : Cls :=
  if c.hasattr extra p n then c else c.put n a

/-- What kind of an array a file is, by its name. -/
def arrayKind (d : String) : Option Bool :=
  if ['.', '0'].isSuffixOf d.toList then some true
  else if ['.', 'A'].isSuffixOf d.toList then some false
  else none

/-- `d[:-2]` -/
def arrayName (d : String) : String := String.ofList d.toList.dropLast.dropLast

/-- The accessors for a file that is not an array. -/
def Cls.addSimple (p : List String) (d : String) (v : SetupVector) (c : Cls) : Cls :=
  let dd := p ++ [d]
  let c :=
    if v.readable then
      (c.offer extra p d ⟨.simpleValue, dd, v.typ⟩).put ("get_" ++ d) ⟨.simpleGetter, dd, v.typ⟩
    else c
  if v.writable then c.put ("set_" ++ d) ⟨.simpleSetter, dd, v.typ⟩ else c

/-- The accessors for an array. -/
def Cls.addArray (p : List String) (d : String) (num : Bool) (v : SetupVector) (c : Cls) : Cls :=
  let dd := p ++ [d]
  let c :=
    if v.readable then
      (c.offer extra p d ⟨.arrayValue num, dd, v.typ⟩).put ("get_" ++ d)
        ⟨.arrayGetter num, dd, v.typ⟩
    else c
  let c := if v.writable then c.put ("set_" ++ d) ⟨.arraySetter num, dd, v.typ⟩ else c
  let c :=
    if v.readable then
      (c.offer extra p (d ++ "_all") ⟨.multiValue, dd, v.typ⟩).put ("get_" ++ d ++ "_all")
        ⟨.multiGetter, dd, v.typ⟩
    else c
  if v.writable then c.put ("set_" ++ d ++ "_all") ⟨.multiSetter, dd, v.typ⟩ else c

/-- The `else` branch in the loop of `setup_accessors`, for a vector that is not
broken. -/
def Cls.addFile (p : List String) (d : String) (v : SetupVector) (c : Cls) : Cls :=
  if v.index = 0 then
    let c := { c with fields := Function.update c.fields d (some (v, arrayKind d)) }
    match arrayKind d with
    | none => c.addSimple extra p d v
    | some num => c.addArray extra p (arrayName d) num v
  else c

end Classes

/-! ## `setup_accessors` -/

/-- What the server says of a structure directory: the files in it, with what can be
read there, and the directories. -/
inductive Tree
  | nil
  | file (d : String) (reply : Bytes) (rest : Tree)
  | dir (d : String) (sub rest : Tree)
  deriving DecidableEq, Repr

/-- `_did_setup`: `False`, `None` and `True`. -/
inductive Setup
  | no
  | running
  | done
  deriving DecidableEq, Repr

/-- A device class, with the classes of its subdirectories. -/
structure DeviceClass where
  cls : List String → Cls := fun _ => {}
  didSetup : Setup := .no
  /-- The number of requests so far. -/
  asked : Nat := 0

/-- Besides, what it shares with all other classes. -/
structure Classes extends DeviceClass where
  /-- `SubDir._subdirs` -/
  subdirs : Finset String := ∅

abbrev Method := EStateM Exc Classes

inductive Cmd
  /-- A request. -/
  | ask
  /-- `cls.fields = {}` -/
  | reset (p : List String)
  /-- `class SubPath` and what is done with it. -/
  | subPath (p : List String) (d : String)
  /-- What is done with the reply about a file. -/
  | file (p : List String) (d : String) (reply : Bytes)
  deriving DecidableEq, Repr

def modifyCls (p : List String) (f : Cls → Cls) : Method Unit :=
  modify fun s => { s with cls := Function.update s.cls p (f (s.cls p)) }

def exec (extra : List String → String → Bool) (faults : Nat → Option Exc) : Cmd → Method Unit
  | .ask => do
    let s ← get
    set { s with asked := s.asked + 1 }
    match faults s.asked with
    | none => return ()
    | some e => throw e
  | .reset p => modifyCls p fun c => { c with fields := fun _ => none }
  | .subPath p d => do
    modifyCls p fun c => { c with attrs := Function.update c.attrs ("_cls_" ++ d) (some (.cls (p ++ [d]))) }
    -- the new class has nothing below it
    modify fun s => { s with
      cls := fun q => if p ++ [d] <+: q then {} else s.cls q,
      subdirs := insert d s.subdirs }
  | .file p d reply =>
    match SetupVector.parse reply with
    | .error e => throw e
    | .ok v => modifyCls p fun c => c.addFile extra p d v

/-- `setup_accessors`, around its loop. -/
def setupWith (p : List String) (entries : List Cmd) : List Cmd := .reset p :: .ask :: entries

/-- The loop over a directory. -/
def setupEntries : Tree → List String → List Cmd
  | .nil, _ => []
  | .file d reply rest, p => .ask :: .file p d reply :: setupEntries rest p
  | .dir d sub rest, p =>
    .ask :: .subPath p d :: (setupWith (p ++ [d]) (setupEntries sub (p ++ [d])) ++ setupEntries rest p)

def setupAccessors (tree : Tree) (p : List String) : List Cmd := setupWith p (setupEntries tree p)

/-- `Device.setup_struct` -/
def setupStruct (extra : List String → String → Bool) (faults : Nat → Option Exc) (tree : Tree) :
    Method Unit := do
  let s ← get
  if s.didSetup ≠ .no then return ()
  else
    set { s with didSetup := .running }
    try (setupAccessors tree []).forM (exec extra faults)
    catch e =>
      modify fun s => { s with didSetup := .no }
      throw e
    modify fun s => { s with didSetup := .done }

/-! ## Objects -/

/-- What `getattr` may return: the object for a subdirectory, an accessor that has been
bound to the device, a class, or anything else. -/
inductive Val
  | object (p : List String)
  | accessor (a : Accessor)
  | cls (p : List String)
  | other
  deriving DecidableEq, Repr

section Objects

variable (extra : List String → String → Bool) (s : Classes)

/-- The usual lookup of an attribute.  Accessors have no `__set__`, so an attribute of
the object itself goes first. -/
def lookup (p : List String) (n : String) : Option Val :=
  if own p n then some .other
  else
    match (s.cls p).attrs n with
    | some (.accessor a) => some (.accessor a)
    | some (.cls q) => some (.cls q)
    | none => if native p n || inherited extra p n then some .other else none

/-- `SubDir.__getattr__`.  It looks for longer and longer names in `_subdirs`, at most
`fuel` of them. -/
def dunderGetattr : Nat → List String → String → Except Exc Val
  | 0, _, _ => .error .attributeError
  | fuel + 1, p, n =>
    if n ∉ s.subdirs then .error .attributeError
    else
      match lookup extra s p ("_cls_" ++ n) with
      | some (.cls q) => .ok (.object q)
      | some _ => .error .typeError
      | none =>
        match dunderGetattr fuel p ("_cls_" ++ n) with
        | .ok _ => .error .typeError
        | .error e => .error e

/-- `getattr(o, n)`, for the object `o` of a device with this path. -/
def getattr (p : List String) (n : String) : Except Exc Val :=
  match lookup extra s p n with
  | some v => .ok v
  | none => dunderGetattr extra s (s.subdirs.card + 1) p n

/-- The object that a chain of attributes leads to. -/
def walk : List String → List String → Except Exc (List String)
  | p, [] => .ok p
  | p, n :: ns =>
    match getattr extra s p n with
    | .ok (.object q) => walk q ns
    | .ok _ => .error .attributeError
    | .error e => .error e

end Objects

/-! ## Requests -/

/-- What is written: a value as it is, or converted for the type of an attribute, or
several of them, joined by commas. -/
inductive Sent (V : Type)
  | raw (v : V)
  | conv (typ : String) (v : V)
  | joined (typ : String) (vs : List V)
  deriving DecidableEq, Repr

inductive Request (V : Type)
  | attrGet (server : Nat) (path : List String)
  | attrSet (server : Nat) (path : List String) (value : Sent V)
  deriving DecidableEq, Repr

/-- What is done with an attribute `x`: `await x`, `await x[i]`, `await x.set(i, v)`, or
`await x(..)` without arguments, with an index, a value, both, or a sequence of
values. -/
inductive Use (V : Type)
  | value
  | item (i : Int)
  | setItem (i : Int) (v : V)
  | get
  | getAt (i : Int)
  | set (v : V)
  | setAt (i : Int) (v : V)
  | setAll (vs : List V)
  deriving DecidableEq, Repr

/-- `slf.path[:-1] + (slf.path[-1] + "." + idx,)` -/
def elementPath (path : List String) (idx : String) : List String :=
  path.dropLast ++ [path.getLastD "" ++ "." ++ idx]

/-- `str(idx)` or `chr(ord("A") + idx)`; a path has to be encoded, which is not
possible with surrogates. -/
def elementName (num : Bool) (i : Int) : Except Exc String :=
  if num then .ok (toString i)
  else if 0 ≤ 65 + i ∧ (65 + i).toNat.isValidChar then
    .ok (String.ofList [Char.ofNat (65 + i).toNat])
  else .error .valueError

variable {V : Type}

/-- `Device.attr_get` -/
def attrGet (dev : Device) (path : List String) : Except Exc (Request V) :=
  match dev.bus with
  | none => .error .noLocationKnown
  | some b => .ok (.attrGet b.server (b.path ++ dev.id :: path))

/-- `Device.attr_set` -/
def attrSet (dev : Device) (path : List String) (value : Sent V) : Except Exc (Request V) :=
  match dev.bus with
  | none => .error .noLocationKnown
  | some b => .ok (.attrSet b.server (b.path ++ dev.id :: path) value)

/-- The request that comes of using an accessor.  What it cannot be used for is a
`TypeError`, or a lack of the method `set`. -/
def Accessor.request (a : Accessor) (dev : Device) : Use V → Except Exc (Request V)
  | .value =>
    match a.kind with
    | .simpleValue => attrGet dev a.path
    | .multiValue => attrGet dev (elementPath a.path "ALL")
    | _ => .error .typeError
  | .item i =>
    match a.kind with
    | .arrayValue num => do attrGet dev (elementPath a.path (← elementName num i))
    | _ => .error .typeError
  | .setItem i v =>
    match a.kind with
    | .arrayValue num => do attrSet dev (elementPath a.path (← elementName num i)) (.raw v)
    | _ => .error .attributeError
  | .get =>
    match a.kind with
    | .simpleGetter => attrGet dev a.path
    | .multiGetter => attrGet dev (elementPath a.path "ALL")
    | _ => .error .typeError
  | .getAt i =>
    match a.kind with
    | .arrayGetter num => do attrGet dev (elementPath a.path (← elementName num i))
    | _ => .error .typeError
  | .set v =>
    match a.kind with
    | .simpleSetter => attrSet dev a.path (.conv a.typ v)
    | _ => .error .typeError
  | .setAt i v =>
    match a.kind with
    | .arraySetter num => do attrSet dev (elementPath a.path (← elementName num i)) (.conv a.typ v)
    | _ => .error .typeError
  | .setAll vs =>
    match a.kind with
    | .multiSetter => attrSet dev (elementPath a.path "ALL") (.joined a.typ vs)
    | _ => .error .typeError

end Struct

end AsyncOwfs
