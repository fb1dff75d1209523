import AsyncOwfs.Protocol

/-!
# AsyncOwfs.Message

The requests a client sends (`Message` and its subclasses), the `ValueEvent`
that their caller waits on, and what `process_reply` makes of an answer.

A message object is mutated in place: by `cancel`, when its caller gives up, and
by `process_reply`.  Both are functions from the old to the new object here; the
object's identity is the business of whoever holds it.
-/

namespace AsyncOwfs

/-! ## Constants of the owserver API -/

namespace OWMsg

def nop : Int := 1
def read : Int := 2
def write : Int := 3
def dirall : Int := 7

end OWMsg

namespace OWFlag

def busret : Nat := 0x2
def persist : Nat := 0x4
def uncached : Nat := 0x20
def ownet : Nat := 0x100

end OWFlag

/-- The flags that `Message.write` puts on every request: Celsius, `fdidc`
device names and millibar besides those of `OWFlag`. -/
def requestFlags : Nat :=
  OWFlag.persist ||| OWFlag.busret ||| OWFlag.uncached ||| OWFlag.ownet |||
    (0 <<< 16) ||| (2 <<< 24) ||| (0 <<< 18)

/-! ## Values -/

/-- What a reply carries to the caller: the payload, or a directory. -/
inductive Value
  | bytes (data : Bytes)
  | names (entries : List String)
  deriving DecidableEq, Repr

/-- The `value` of a `ValueEvent`: nothing yet, a value, or an error. -/
abbrev ValueEvent := Option (Except Exc Value)

/-! ## Messages -/

/-- A `Message`.  Of the subclasses only `DirMsg` overrides `_process`. -/
structure Message where
  typ : Int
  data : Bytes
  rlen : Int
  isDir : Bool := false
  cancelled : Bool := false
  event : ValueEvent := none
  deriving Repr

/-- `_path`: the slash-joined components, `/` in front and NUL behind. -/
def encodePath (path : List String) : Bytes :=
  ("/" ++ "/".intercalate path).toUTF8.data.toList ++ [0]

/-- The values that `AttrSetMsg` accepts; `text` is the `str` of anything that
is neither a `bool` nor `bytes`. -/
inductive SetValue
  | bool (b : Bool)
  | bytes (b : Bytes)
  | text (s : String)
  deriving DecidableEq, Repr

/-- The bytes that `AttrSetMsg` sends for a value. -/
def SetValue.encode : SetValue → Bytes
  | .bool b => if b then [0x31] else [0x30]
  | .bytes b => b
  | .text s => s.toUTF8.data.toList

def nopMsg : Message := { typ := OWMsg.nop, data := [], rlen := 0 }

/-- `AttrGetMsg(*path)`, which asserts that there is a path. -/
def attrGetMsg (path : List String) : Except Exc Message :=
  if path = [] then .error .assertionError
  else .ok { typ := OWMsg.read, data := encodePath path, rlen := 8192 }

def attrSetMsg (path : List String) (value : SetValue) : Message :=
  { typ := OWMsg.write, data := encodePath path ++ value.encode, rlen := value.encode.length }

def dirMsg (path : List String) : Message :=
  { typ := OWMsg.dirall, data := encodePath path,
    rlen := ((encodePath path).length : Int) - 1, isDir := true }

namespace Message

/-- `write`: the frame that a message is sent as. -/
def frame (m : Message) : Protocol.Frame :=
  { typ := m.typ, flags := requestFlags, rlen := m.rlen, data := some m.data }

/-- `done`: the event has been set, to whatever. -/
def done (m : Message) : Bool := m.event.isSome

/-- Neither answered nor given up: somebody still waits for this message. -/
def Pending (m : Message) : Prop := m.cancelled = false ∧ m.done = false

instance (m : Message) : Decidable m.Pending := inferInstanceAs (Decidable (_ ∧ _))

/-- `cancel`: the caller has given up. -/
def cancel (m : Message) : Message :=
  { m with cancelled := true, event := some (.error .futuresCancelled) }

/-! ## Replies -/

/-- The part of a directory entry behind its last slash. -/
def baseName (entry : String) : String :=
  String.ofList (entry.toList.reverse.takeWhile (· ≠ '/')).reverse

/-- One entry of a `dirall` reply. -/
def processEntry (entry : Bytes) : Except Exc String :=
  if 0 ∈ entry then .error .assertionError
  else
    match String.fromUTF8? entry.toByteArray with
    | none => .error .unicodeDecodeError
    | some s => .ok (baseName s)

/-- `_process`: what a successful reply means to the caller. -/
def process (m : Message) (data : Bytes) : Except Exc Value :=
  if m.isDir then
    if data = [] then .ok (.names [])
    else (data.splitOn 0x2C).mapM processEntry |>.map .names
  else .ok (.bytes data)

/-- `process_reply`.  A negative result is an error for the caller, a positive
one must be the length of the data. -/
def processReply (m : Message) (res : Int) (data : Bytes) : Except Exc Message :=
  if res < 0 then .ok { m with event := some (.error (.ofResult res)) }
  else if 0 < res ∧ (data.length : Int) ≠ res then .error .assertionError
  else
    match m.process data with
    | .error e => .error e
    | .ok v => .ok { m with event := some (.ok v) }

@[simp] theorem cancelled_cancel (m : Message) : m.cancel.cancelled = true := rfl

@[simp] theorem done_cancel (m : Message) : m.cancel.done = true := rfl

/-- A reply that is processed at all completes its message. -/
theorem done_of_processReply {m m' : Message} {res : Int} {data : Bytes}
    (h : m.processReply res data = .ok m') : m'.done = true := by
  unfold processReply at h
  split at h
  · injection h with h
    rw [← h]; rfl
  · split at h
    · simp only [reduceCtorEq] at h
    · split at h
      · simp only [reduceCtorEq] at h
      · injection h with h
        rw [← h]; rfl

/-- A reply does not touch the flag that the caller sets. -/
theorem cancelled_of_processReply {m m' : Message} {res : Int} {data : Bytes}
    (h : m.processReply res data = .ok m') : m'.cancelled = m.cancelled := by
  unfold processReply at h
  split at h
  · injection h with h
    rw [← h]
  · split at h
    · simp only [reduceCtorEq] at h
    · split at h
      · simp only [reduceCtorEq] at h
      · injection h with h
        rw [← h]

end Message

end AsyncOwfs
