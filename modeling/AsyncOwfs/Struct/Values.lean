import AsyncOwfs.Mock
import AsyncOwfs.Struct
import Mathlib.Data.Rat.Init

/-!
# AsyncOwfs.Struct.Values

What the accessors make of values: `_RValue.conv` and `_WValue.conv`, the lists of the
`Multi` classes, and the messages that come of requests.

Floats are rationals here.  What `float` makes of bytes and `str` of a float is a
parameter (`Floats`).
-/

namespace AsyncOwfs

namespace Struct

/-! ## Values -/

inductive PyValue
  | none
  | bool (b : Bool)
  | int (i : Int)
  | float (x : ℚ)
  | text (s : String)
  | bytes (b : Bytes)
  deriving DecidableEq, Repr

/-- `float(b)`, and `str(x)` for a float. -/
structure Floats where
  parse : Bytes → Except Exc ℚ
  str : ℚ → String

/-- `int(b)`.  Of the characters that `int` strips from a string, four are no space in
bytes. -/
def bytesInt (b : Bytes) : Except Exc Int :=
  if ∃ x ∈ b, 28 ≤ x.toNat ∧ x.toNat ≤ 31 then .error .valueError
  else
    match decInt (b.map fun x => Char.ofNat x.toNat) with
    | none => .error .valueError
    | some i => .ok i

namespace PyValue

/-- `bool(x)` -/
def truth : PyValue → Bool
  | none => false
  | bool b => b
  | int i => i ≠ 0
  | float x => x ≠ 0
  | text s => s ≠ ""
  | bytes b => b ≠ []

/-- `str(x)` -/
def str (fl : Floats) : PyValue → String
  | none => "None"
  | bool b => if b then "True" else "False"
  | int i => toString i
  | float x => fl.str x
  | text s => s
  | bytes b => Mock.reprBytes b

/-- What `AttrSetMsg` is given. -/
def setValue (fl : Floats) : PyValue → SetValue
  | bool b => .bool b
  | bytes b => .bytes b
  | v => .text (v.str fl)

/-- An element of what `b",".join` gets. -/
def joinable : PyValue → Except Exc Bytes
  | bytes b => .ok b
  | _ => .error .typeError

end PyValue

/-! ## Conversions -/

section Conversions

variable (fl : Floats)

/-- The types of floats. -/
def floatTypes : List String := ["f", "g", "p", "t"]

/-- The types of integers. -/
def intTypes : List String := ["i", "u"]

/-- `_RValue.conv` -/
def readConv (typ : String) (x : Bytes) : Except Exc PyValue :=
  if typ ∈ floatTypes then (fl.parse x).map .float
  else if typ ∈ intTypes then (bytesInt x).map .int
  else if typ = "y" then (bytesInt x).map fun i => .bool (i ≠ 0)
  else if typ = "b" then .ok (.bytes x)
  else (Mock.decode x).map .text

/-- `_WValue.conv` -/
def writeConv (typ : String) (x : PyValue) : PyValue :=
  if typ = "b" then x
  else if typ = "y" then .bytes (if x.truth then [0x31] else [0x30])
  else .bytes (Utf8.encode (x.str fl))

/-- `[conv(v) for v in res.split(b",")]` -/
def readAll (typ : String) (res : Bytes) : Except Exc (List PyValue) :=
  (res.splitOn 0x2C).mapM (readConv fl typ)

/-- `b",".join(conv(v) for v in val)` -/
def joinAll (typ : String) (val : List PyValue) : Except Exc Bytes := do
  let bs ← val.mapM fun v => (writeConv fl typ v).joinable
  return [0x2C].intercalate bs

/-- The value that `attr_set` is called with. -/
def Sent.value : Sent PyValue → Except Exc PyValue
  | .raw v => .ok v
  | .conv typ v => .ok (writeConv fl typ v)
  | .joined typ vs => (joinAll fl typ vs).map .bytes

/-- The server that a request goes to, and the message. -/
def Request.message : Request PyValue → Except Exc (Nat × Message)
  | .attrGet v path => (attrGetMsg path).map fun m => (v, m)
  | .attrSet v path value => (value.value fl).map fun x => (v, attrSetMsg path (x.setValue fl))

end Conversions

/-! ## Integers -/

/-- Digits have a value, from any other one on. -/
theorem decDigits_of_isDigit {cs : List Char} (h : ∀ c ∈ cs, c.isDigit = true) (n : Nat) :
    decDigits false n cs = some (Nat.ofDigitChars 10 cs n) := by
  induction cs generalizing n with
  | nil => rfl
  | cons c cs ih =>
      have hc := h c List.mem_cons_self
      have hne : c ≠ '_' := by
        intro heq
        simp [heq] at hc
      simp only [Char.isDigit, Bool.and_eq_true, decide_eq_true_eq] at hc
      rw [decDigits, if_neg hne, if_pos ⟨hc.1, hc.2⟩,
        ih (fun d hd => h d (List.mem_cons_of_mem c hd)), Nat.ofDigitChars_cons]
      rfl

/-- The digits of a number are read as the number. -/
theorem decDigits_toDigits (n : Nat) : decDigits true 0 (Nat.toDigits 10 n) = some n := by
  have hdigits : ∀ c ∈ Nat.toDigits 10 n, c.isDigit = true := fun c hc =>
    Nat.isDigit_of_mem_toDigits (by decide) (by decide) hc
  have hfalse := decDigits_of_isDigit hdigits 0
  rw [Nat.ofDigitChars_ten_toDigits] at hfalse
  rw [← hfalse]
  cases h : Nat.toDigits 10 n with
  | nil => simp at h
  | cons c cs =>
      have hc : c ≠ '_' := by
        intro heq
        simp [h, heq] at hdigits
      simp [decDigits, hc]

/-- The characters of an integer. -/
def IsDecimal (c : Char) : Prop := c = '-' ∨ c.isDigit = true

/-- A number is printed in digits and a sign. -/
theorem isDecimal_of_mem {i : Int} {c : Char} (h : c ∈ (toString i).toList) : IsDecimal c := by
  have hdigit {n : Nat} (h : c ∈ n.repr.toList) : IsDecimal c := by
    rw [Nat.toList_repr] at h
    exact .inr (Nat.isDigit_of_mem_toDigits (by decide) (by decide) h)
  rw [Int.toString_eq_repr, Int.repr_eq_if] at h
  split at h
  · exact hdigit h
  · rw [String.toList_append, List.mem_append] at h
    cases h with
    | inl h => exact .inl (by simpa using h)
    | inr h => exact hdigit h

/-- Digits and the sign are ASCII, and no blanks. -/
theorem IsDecimal.range {c : Char} (h : IsDecimal c) : 32 < c.toNat ∧ c.toNat < 128 := by
  cases h with
  | inl h => simp [h]
  | inr h =>
      simp only [Char.isDigit, Bool.and_eq_true, decide_eq_true_eq] at h
      have hlo : 48 ≤ c.toNat := h.1
      have hhi : c.toNat ≤ 57 := h.2
      omega

/-- Nothing is stripped from what has no space in it. -/
theorem dropWhile_isSpace {cs : List Char} (h : ∀ c ∈ cs, isSpace c = false) :
    ((cs.dropWhile isSpace).reverse.dropWhile isSpace).reverse = cs := by
  have hself {cs : List Char} (h : ∀ c ∈ cs, isSpace c = false) : cs.dropWhile isSpace = cs := by
    cases cs with
    | nil => rfl
    | cons c cs => exact List.dropWhile_cons_of_neg (by simp [h c List.mem_cons_self])
  rw [hself h, hself (by simpa using h), List.reverse_reverse]

/-- **`int` of the `str` of an integer** is the integer. -/
theorem decInt_toString (i : Int) : decInt (toString i).toList = some i := by
  have hspace : ∀ c ∈ (toString i).toList, isSpace c = false := by
    intro c hc
    have hrange := (isDecimal_of_mem hc).range
    have hne : c ≠ ' ' := by
      intro heq
      simp [heq] at hrange
    simp [isSpace, hne]
    omega
  rw [decInt, dropWhile_isSpace hspace]
  by_cases h0 : 0 ≤ i
  · have hlist : (toString i).toList = Nat.toDigits 10 i.toNat := by
      rw [Int.toString_eq_repr, Int.repr_eq_if, if_pos h0, Nat.toList_repr]
    have hdigits : ∀ c ∈ Nat.toDigits 10 i.toNat, c.isDigit = true := fun c hc =>
      Nat.isDigit_of_mem_toDigits (by decide) (by decide) hc
    rw [hlist]
    split
    · next heq => simp [heq] at hdigits
    · next heq => simp [heq] at hdigits
    · rw [decDigits_toDigits]
      simp [h0]
  · have hlist : (toString i).toList = '-' :: Nat.toDigits 10 (-i).toNat := by
      rw [Int.toString_eq_repr, Int.repr_eq_if, if_neg h0, String.toList_append, Nat.toList_repr]
      rfl
    rw [hlist]
    simp only [decDigits_toDigits]
    simp
    omega

/-- **An integer** is read as it has been printed. -/
theorem bytesInt_encode (i : Int) : bytesInt (Utf8.encode (toString i)) = .ok i := by
  have hrange : ∀ c ∈ (toString i).toList, 32 < c.toNat ∧ c.toNat < 128 := fun c hc =>
    (isDecimal_of_mem hc).range
  have hctl : ¬ ∃ x ∈ Utf8.encode (toString i), 28 ≤ x.toNat ∧ x.toNat ≤ 31 := by
    rintro ⟨x, hx, hlo, hhi⟩
    have hmem := Utf8.mem_encode_of_lt hx (by omega)
    have hc := hrange _ hmem
    rw [Utf8.toNat_ofNat_of_lt (by omega)] at hc
    omega
  rw [bytesInt, if_neg hctl, Utf8.map_ofNat_encode fun c hc => (hrange c hc).2, decInt_toString]

end Struct

end AsyncOwfs
