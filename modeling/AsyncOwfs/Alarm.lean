import AsyncOwfs.Lib.Hoare
import AsyncOwfs.Lib.Trunc
import AsyncOwfs.Struct.Elements
import AsyncOwfs.Struct.Provided
import Mathlib.Data.Rat.Floor

/-!
# AsyncOwfs.Alarm

What `poll_alarm` does with a device: it uses attributes, one after the other, as
`setup_accessors` has made them.

The owservers are what can be read from them (`Site`).  What is written there is read
from then on; `alarm_temperature`, which is the device's, is kept with it.
-/

namespace AsyncOwfs

namespace Alarm

open Struct Hoare

/-! ## Files -/

/-- A path at an owserver. -/
abbrev Place := Nat × List String

structure Site where
  /-- What is read: the bytes, or an error. -/
  files : Place → Except Exc Bytes
  /-- What has been written. -/
  log : List (Place × Bytes) := []
  /-- `alarm_temperature` -/
  alarmTemperature : Option PyValue := none

abbrev Poll := EStateM Exc Site

/-- A file is written. -/
def Site.write (st : Site) (place : Place) (b : Bytes) : Site :=
  { st with files := Function.update st.files place (.ok b), log := st.log ++ [(place, b)] }

/-- A file has what has been written to it last. -/
@[simp] theorem files_write (st : Site) (place : Place) (b : Bytes) :
    (st.write place b).files = Function.update st.files place (.ok b) := rfl

/-- A write is logged. -/
@[simp] theorem log_write (st : Site) (place : Place) (b : Bytes) :
    (st.write place b).log = st.log ++ [(place, b)] := rfl

/-- A file of a device that is on this bus. -/
def fileOf (dev : Device) (b : BusRef) (path : List String) : Place :=
  (b.server, b.path ++ dev.id :: path)

/-- Different attributes are in different files. -/
theorem fileOf_inj {dev : Device} {b : BusRef} {path path' : List String} :
    fileOf dev b path = fileOf dev b path' ↔ path = path' := by
  simp [fileOf]

/-! ## Values -/

/-- What comes of an attribute that is awaited: a value, or a list of values. -/
inductive Result
  | value (v : PyValue)
  | list (vs : List PyValue)
  deriving DecidableEq, Repr

namespace Result

/-- The value.  Only attributes named `_all` are lists. -/
def single : Result → Except Exc PyValue
  | value v => .ok v
  | list _ => .error .typeError

/-- `bool(x)` -/
def truth : Result → Bool
  | value v => v.truth
  | list vs => vs ≠ []

/-- What a loop over it gets. -/
def items : Result → Except Exc (List PyValue)
  | value v => v.elements
  | list vs => .ok vs

/-- `any(x)` -/
def any (x : Result) : Except Exc Bool := x.items.map fun vs => vs.any PyValue.truth

/-- `x[i]`, from the front. -/
def item (x : Result) (i : Nat) : Except Exc PyValue :=
  x.items.bind fun vs =>
    match vs[i]? with
    | none => .error .indexError
    | some v => .ok v

end Result

/-- What counts as a number in sums and comparisons. -/
def number : PyValue → Except Exc ℚ
  | .bool b => .ok (if b then 1 else 0)
  | .int i => .ok i
  | .float x => .ok x
  | _ => .error .typeError

/-- `a < b`, and `b > a` -/
def less : PyValue → PyValue → Except Exc Bool
  | .text s, .text s' => .ok (s < s')
  | .bytes b, .bytes b' => .ok (b < b')
  | v, v' => do
    let x ← number v
    let y ← number v'
    return x < y

/-! ## Floats -/

/-- `float` knows an integer that `str` has written. -/
def ReadsInts (fl : Floats) : Prop := ∀ i : Int, fl.parse (Utf8.encode (toString i)) = .ok (i : ℚ)

/-- Decimals with a point, and one place behind it. -/
def decimals : Floats where
  parse b :=
    match bytesInt b with
    | .ok i => .ok i
    | .error _ =>
      match b.splitOn 0x2E with
      | [whole, part] => (bytesInt (whole ++ part)).map fun i : Int => (i : ℚ) / 10 ^ part.length
      | _ => .error .valueError
  str x :=
    (if x < 0 then "-" else "") ++ toString (⌊|x| * 10⌋ / 10) ++ "." ++ toString (⌊|x| * 10⌋ % 10)

/-- Decimals read integers. -/
theorem readsInts_decimals : ReadsInts decimals := by
  intro i
  simp only [decimals, bytesInt_encode]

/-! ## Attributes -/

/-- What a request returns to the caller of an accessor. -/
def convert (fl : Floats) (a : Accessor) (r : Request PyValue) (res : Bytes) : Except Exc Result :=
  match r with
  | .attrSet .. => .ok (.value .none)
  | .attrGet .. =>
    if a.kind = .multiValue ∨ a.kind = .multiGetter then (readAll fl a.typ res).map .list
    else (readConv fl a.typ res).map .value

/-- A request is answered. -/
def perform (fl : Floats) : Request PyValue → Poll Bytes
  | .attrGet v path => do
    let st ← get
    ofExcept (st.files (v, path))
  | .attrSet v path value => do
    let x ← ofExcept (value.value fl)
    modify fun st => st.write (v, path) (x.setValue fl).encode
    return []

section Use

variable (extra : List String → String → Bool) (s : Classes) (fl : Floats) (dev : Device)

/-- `await self.<path>.<n>`, or a call, with what it is used for.  Whatever is no accessor
cannot be awaited. -/
def use (path : List String) (n : String) (u : Use PyValue) : Poll Result := do
  let o ← ofExcept (walk extra s [] path)
  match ← ofExcept (getattr extra s o n) with
  | .accessor a => do
    let r ← ofExcept (a.request dev u)
    let res ← perform fl r
    ofExcept (convert fl a r res)
  | _ => throw .typeError

end Use

section Specs

variable {α : Type} {extra : List String → String → Bool} {s : Classes} {fl : Floats}
  {dev : Device} {b : BusRef} {path o : List String} {n : String} {a : Accessor} {st : Site}

theorem ofExcept_of_ok {r : Except Exc α} {x : α} (h : r = .ok x) (st : Site) :
    (ofExcept r : Poll α) st = .ok x st := by
  subst h
  rfl

theorem ofExcept_of_error {r : Except Exc α} {e : Exc} (h : r = .error e) (st : Site) :
    (ofExcept r : Poll α) st = .error e st := by
  subst h
  rfl

/-- An accessor that is used for something makes its request. -/
theorem use_eq (hwalk : walk extra s [] path = .ok o)
    (hget : getattr extra s o n = .ok (.accessor a)) (u : Use PyValue) :
    use extra s fl dev path n u st = (do
      let r ← ofExcept (a.request dev u)
      let res ← perform fl r
      ofExcept (convert fl a r res) : Poll Result) st := by
  rw [use, bind_of_ok (ofExcept_of_ok hwalk st), bind_of_ok (ofExcept_of_ok hget st)]

/-- What it is not for raises. -/
theorem use_of_error (hwalk : walk extra s [] path = .ok o)
    (hget : getattr extra s o n = .ok (.accessor a)) {u : Use PyValue} {e : Exc}
    (hr : a.request dev u = .error e) : use extra s fl dev path n u st = .error e st := by
  rw [use_eq hwalk hget, bind_of_error (ofExcept_of_error hr st)]

/-- What is read is converted. -/
theorem use_attrGet (hwalk : walk extra s [] path = .ok o)
    (hget : getattr extra s o n = .ok (.accessor a)) {u : Use PyValue} {p : List String}
    (hr : a.request dev u = attrGet dev p) (hdev : dev.bus = some b) {res : Bytes}
    (hfile : st.files (fileOf dev b p) = .ok res) :
    use extra s fl dev path n u st =
      (ofExcept (convert fl a (.attrGet b.server (b.path ++ dev.id :: p)) res) : Poll Result)
        st := by
  have hreq : a.request dev u = .ok (.attrGet b.server (b.path ++ dev.id :: p)) := by
    rw [hr, Struct.attrGet, hdev]
  have hperform : perform fl (.attrGet b.server (b.path ++ dev.id :: p)) st = .ok res st :=
    (get_bind _ st).trans (ofExcept_of_ok hfile st)
  rw [use_eq hwalk hget, bind_of_ok (ofExcept_of_ok hreq st), bind_of_ok hperform]

/-- What is written is read from then on. -/
theorem use_attrSet (hwalk : walk extra s [] path = .ok o)
    (hget : getattr extra s o n = .ok (.accessor a)) {u : Use PyValue} {p : List String}
    {value : Sent PyValue} (hr : a.request dev u = attrSet dev p value)
    (hdev : dev.bus = some b) {x : PyValue} (hx : value.value fl = .ok x) (st : Site) :
    use extra s fl dev path n u st =
      .ok (.value .none) (st.write (fileOf dev b p) (x.setValue fl).encode) := by
  have hreq : a.request dev u = .ok (.attrSet b.server (b.path ++ dev.id :: p) value) := by
    rw [hr, Struct.attrSet, hdev]
  have hperform : perform fl (.attrSet b.server (b.path ++ dev.id :: p) value) st =
      .ok [] (st.write (fileOf dev b p) (x.setValue fl).encode) :=
    bind_of_ok (ofExcept_of_ok hx st)
  rw [use_eq hwalk hget, bind_of_ok (ofExcept_of_ok hreq st), bind_of_ok hperform]
  rfl

end Specs

end Alarm

end AsyncOwfs
