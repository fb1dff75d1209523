import AsyncOwfs.Message
import AsyncOwfs.Lib.Dict
import AsyncOwfs.Lib.Utf8
import Mathlib.Data.List.DropRight
import Mathlib.Data.List.Infix
import Mathlib.Data.List.Sort
import Mathlib.Logic.Function.Basic

/-!
# AsyncOwfs.Mock

`some_server`, the server that the tests talk to, without its options: it is never
busy, never slow and does not close the connection on its own.

The tree it serves is made of dictionaries that are assigned to in place, and one
dictionary may be entered in several places (the tests of the alarms do that).  So a
tree is a heap here: a dictionary has an identity, and what a key maps to is a leaf
or the identity of another one.
-/

namespace AsyncOwfs

namespace Mock

/-! ## Trees -/

/-- What a key of the tree maps to. -/
inductive Node
  | text (s : String)
  | bytes (b : Bytes)
  /-- An `int` or a `float`, given by its `str`. -/
  | number (s : String)
  /-- A dictionary, by its identity. -/
  | dict (id : Nat)
  deriving DecidableEq, Repr

/-- Whatever is not a dictionary. -/
def Node.isLeaf : Node → Bool
  | .dict _ => false
  | _ => true

/-- What `read` makes of the end of its path: the bytes, or an `IsDirError`. -/
def Node.render : Node → Except Exc Bytes
  | .dict _ => .error (.owfsReply 21)
  | .bytes b => .ok b
  | .text s | .number s => .ok (Utf8.encode s)

/-- The dictionaries, and the one that is served. -/
structure Tree where
  dicts : Nat → Dict String Node
  root : Nat := 0

def noEntryError : Exc := .owfsReply 2

namespace Tree

/-- `res[k]` -/
def item (t : Tree) (res : Node) (k : String) : Except Exc Node :=
  match res with
  | .dict i =>
    match (t.dicts i).get? k with
    | some n => .ok n
    | none => .error .keyError
  | _ => .error .typeError

/-- `k in res`, which looks for a part if `res` is a text. -/
def contains (t : Tree) (res : Node) (k : String) : Except Exc Bool :=
  match res with
  | .dict i => .ok ((t.dicts i).get? k).isSome
  | .text s => .ok (decide (k.toList <:+: s.toList))
  | _ => .error .typeError

/-- The assignment to a key of a dictionary. -/
def put (t : Tree) (i : Nat) (k : String) (n : Node) : Tree :=
  { t with dicts := Function.update t.dicts i ((t.dicts i).set k n) }

/-- `res[k] = val` -/
def assign (t : Tree) (res : Node) (k val : String) : Except Exc Tree :=
  match res with
  | .dict i => .ok (t.put i k (.text val))
  | _ => .error .typeError

/-- `res.keys()` -/
def keys (t : Tree) (res : Node) : Except Exc (List String) :=
  match res with
  | .dict i => .ok (t.dicts i).keys
  | _ => .error .attributeError

end Tree

/-! ## Paths -/

/-- `data.rstrip` of NUL. -/
def rstripNul (data : Bytes) : Bytes := data.rdropWhile (· = 0)

/-- `data.split(b"/")` without the empty components, which every loop skips. -/
def components (data : Bytes) : List Bytes := (data.splitOn 0x2F).filter (· ≠ [])

/-- `k.decode("utf-8")` -/
def decode (k : Bytes) : Except Exc String :=
  match Utf8.decode? k with
  | none => .error .unicodeDecodeError
  | some s => .ok s

/-- `except KeyError: raise NoEntryError(command, data)` -/
def orNoEntry {α : Type} : Except Exc α → Except Exc α
  | .error .keyError => .error noEntryError
  | r => r

/-- The loop of `dirall` and of `read` over the components of the path. -/
def descend (t : Tree) : Node → List Bytes → Except Exc Node
  | res, [] => .ok res
  | res, k :: ks => do
    let k ← decode k
    let res ← orNoEntry (t.item res k)
    descend t res ks

/-- The loop of `write`, which stays one component behind. -/
def descendLast (t : Tree) : Node → Option String → List Bytes →
    Except Exc (Node × Option String)
  | res, last, [] => .ok (res, last)
  | res, none, k :: ks => do
    let k ← decode k
    descendLast t res (some k) ks
  | res, some last, k :: ks => do
    let res ← orNoEntry (t.item res last)
    let k ← decode k
    descendLast t res (some k) ks

/-! ## Requests -/

/-- The reply to a `dirall`: the keys in order, each with the path in front. -/
def listing (path : List Bytes) (keys : List String) : Bytes :=
  let res := (keys.insertionSort (· ≤ ·)).map Utf8.encode
  let dir := if path = [] then [0x2F] else [0x2F] ++ [0x2F].intercalate path ++ [0x2F]
  [0x2C].intercalate (res.map (dir ++ ·))

/-- `OWMsg.dirall` -/
def dirall (t : Tree) (data : Bytes) : Except Exc Bytes := do
  let path := components (rstripNul data)
  let subtree ← descend t (.dict t.root) path
  let keys ← t.keys subtree
  return listing path keys

/-- `OWMsg.read`: a leaf, as bytes. -/
def read (t : Tree) (data : Bytes) : Except Exc Bytes := do
  let res ← descend t (.dict t.root) (components (rstripNul data))
  res.render

/-- `OWMsg.write`: the value is what the length says is at the end, the path is in
front of it. -/
def write (t : Tree) (data : Bytes) (offset : Int) : Except Exc Tree := do
  let val ← decode (sliceFrom (-offset) data)
  let path := components (rstripNul (sliceTo (-offset) data))
  let (res, last) ← descendLast t (.dict t.root) none path
  match last with
  | none => throw .assertionError
  | some last =>
    if ← t.contains res last then t.assign res last val else throw noEntryError

/-- `"%x" % i` -/
def hexInt (i : Int) : String :=
  (if i < 0 then "-" else "") ++ String.ofList (Nat.toDigits 16 i.natAbs)

/-- One byte of the `repr` of a byte string. -/
def reprByte (quote b : UInt8) : String :=
  if b = quote ∨ b = 0x5C then String.ofList [Char.ofNat 0x5C, Char.ofNat b.toNat]
  else if b = 9 then "\\t"
  else if b = 10 then "\\n"
  else if b = 13 then "\\r"
  else if b < 32 ∨ 127 ≤ b then
    "\\x" ++ (if b < 16 then "0" else "") ++ String.ofList (Nat.toDigits 16 b.toNat)
  else String.singleton (Char.ofNat b.toNat)

/-- `repr(data)`, in double quotes if that saves escaping the single ones. -/
def reprBytes (data : Bytes) : String :=
  let quote : UInt8 := if 0x27 ∈ data ∧ 0x22 ∉ data then 0x22 else 0x27
  let mark := String.singleton (Char.ofNat quote.toNat)
  "b" ++ mark ++ String.join (data.map (reprByte quote)) ++ mark

/-- The branches of the server's loop: the reply that is written, and the tree. -/
def handle (t : Tree) (command flags : Int) (data : Bytes) (offset : Int) :
    Except Exc (Protocol.Frame × Tree) :=
  if command = OWMsg.nop then return ({ typ := 0, flags }, t)
  else if command = OWMsg.dirall then do
    let data ← dirall t data
    return ({ typ := 0, flags, rlen := data.length, data := some (data ++ [0]) }, t)
  else if command = OWMsg.read then do
    let res ← read t data
    return ({ typ := 0, flags, rlen := res.length, data := some (res ++ [0]) }, t)
  else if command = OWMsg.write then do
    let t ← write t data offset
    return ({ typ := 0, flags }, t)
  else
    throw (.runtimeError
      s!"Unknown command: {command} {hexInt flags} {reprBytes data} {offset}")

/-- `except OWFSReplyError`: such an error is a reply, any other one ends the
server. -/
def respond (t : Tree) (command flags : Int) (data : Bytes) (offset : Int) :
    Except Exc (Protocol.Frame × Tree) :=
  match handle t command flags data offset with
  | .error (.owfsReply err) => .ok ({ typ := -err, flags }, t)
  | r => r

end Mock

end AsyncOwfs
