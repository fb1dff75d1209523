import AsyncOwfs.Exc

/-!
# AsyncOwfs.Bytes

Byte strings as Python has them: slices whose bound may be negative, and the
`"!6i"` layout of the `struct` module, six signed 32-bit integers in network
byte order.

Everything here is proved once so the framing proofs never redo list or
two's-complement arithmetic.
-/

namespace AsyncOwfs

/-- Python's `bytes`. -/
abbrev Bytes := List UInt8

/-! ## Slices -/

/-- `b[:n]`; a negative bound counts from the end. -/
def sliceTo (n : Int) (b : Bytes) : Bytes :=
  if 0 ≤ n then b.take n.toNat else b.take (b.length - (-n).toNat)

/-- `b[n:]`; a negative bound counts from the end. -/
def sliceFrom (n : Int) (b : Bytes) : Bytes :=
  if 0 ≤ n then b.drop n.toNat else b.drop (b.length - (-n).toNat)

@[simp] theorem sliceTo_natCast (n : Nat) (b : Bytes) : sliceTo n b = b.take n := by
  simp [sliceTo]

@[simp] theorem sliceFrom_natCast (n : Nat) (b : Bytes) : sliceFrom n b = b.drop n := by
  simp [sliceFrom]

/-! ## Signed 32-bit integers -/

/-- What `struct.pack("!i", i)` accepts.  By cases on the sign, so that the
kernel never has to count up to a bound. -/
def IsInt32 : Int → Prop
  | .ofNat n => n < 0x80000000
  | .negSucc n => n < 0x80000000

instance : (i : Int) → Decidable (IsInt32 i)
  | .ofNat n => inferInstanceAs (Decidable (n < 0x80000000))
  | .negSucc n => inferInstanceAs (Decidable (n < 0x80000000))

theorem isInt32_iff {i : Int} : IsInt32 i ↔ -0x80000000 ≤ i ∧ i < 0x80000000 := by
  cases i with
  | ofNat n => simp only [IsInt32, Int.ofNat_eq_natCast]; omega
  | negSucc n => simp only [IsInt32]; omega

/-- The four big-endian bytes of a 32-bit word. -/
def beBytes (n : Nat) : Bytes :=
  [UInt8.ofNat (n / 0x1000000), UInt8.ofNat (n / 0x10000), UInt8.ofNat (n / 0x100),
    UInt8.ofNat n]

/-- The word of four big-endian bytes. -/
def beNat (a b c d : UInt8) : Nat :=
  a.toNat * 0x1000000 + b.toNat * 0x10000 + c.toNat * 0x100 + d.toNat

/-- `struct.pack("!i", i)` on an integer in range. -/
def packInt (i : Int) : Bytes := beBytes (i % 0x100000000).toNat

/-- `struct.unpack("!i", ...)` of four bytes: two's complement. -/
def unpackInt (a b c d : UInt8) : Int :=
  if beNat a b c d < 0x80000000 then beNat a b c d else (beNat a b c d : Int) - 0x100000000

/-- The bytes of a word denote the word. -/
theorem beNat_beBytes {n : Nat} (h : n < 0x100000000) :
    beNat (UInt8.ofNat (n / 0x1000000)) (UInt8.ofNat (n / 0x10000)) (UInt8.ofNat (n / 0x100))
      (UInt8.ofNat n) = n := by
  simp only [beNat, UInt8.toNat_ofNat']
  omega

/-- An integer in range reads back from its four bytes. -/
theorem unpackInt_packInt {i : Int} (h : IsInt32 i) :
    unpackInt (UInt8.ofNat ((i % 0x100000000).toNat / 0x1000000))
      (UInt8.ofNat ((i % 0x100000000).toNat / 0x10000))
      (UInt8.ofNat ((i % 0x100000000).toNat / 0x100)) (UInt8.ofNat (i % 0x100000000).toNat) = i := by
  obtain ⟨hl, hu⟩ := isInt32_iff.mp h
  have hn : (i % 0x100000000).toNat < 0x100000000 := by omega
  rw [unpackInt, beNat_beBytes hn]
  split <;> omega

/-! ## The message header -/

/-- The six integers in front of every message. -/
structure Header where
  version : Int
  payloadLen : Int
  retValue : Int
  formatFlags : Int
  dataLen : Int
  offset : Int
  deriving DecidableEq, Repr

namespace Header

/-- Every field fits its four bytes. -/
def InRange (h : Header) : Prop :=
  IsInt32 h.version ∧ IsInt32 h.payloadLen ∧ IsInt32 h.retValue ∧ IsInt32 h.formatFlags ∧
    IsInt32 h.dataLen ∧ IsInt32 h.offset

instance (h : Header) : Decidable h.InRange := inferInstanceAs (Decidable (_ ∧ _))

/-- `struct.pack("!6i", ...)`; an integer out of range is a `struct.error`. -/
def pack (h : Header) : Except Exc Bytes :=
  if h.InRange then
    .ok (packInt h.version ++ packInt h.payloadLen ++ packInt h.retValue ++
      packInt h.formatFlags ++ packInt h.dataLen ++ packInt h.offset)
  else
    .error .structError

/-- `struct.unpack("!6i", hdr)`; any other length than 24 is a `struct.error`. -/
def unpack : Bytes → Except Exc Header
  | [a0, a1, a2, a3, b0, b1, b2, b3, c0, c1, c2, c3, d0, d1, d2, d3, e0, e1, e2, e3,
      f0, f1, f2, f3] =>
    .ok ⟨unpackInt a0 a1 a2 a3, unpackInt b0 b1 b2 b3, unpackInt c0 c1 c2 c3,
      unpackInt d0 d1 d2 d3, unpackInt e0 e1 e2 e3, unpackInt f0 f1 f2 f3⟩
  | _ => .error .structError

/-- A packed header has all its fields in range. -/
theorem inRange_of_pack {h : Header} {b : Bytes} (hp : h.pack = .ok b) : h.InRange := by
  unfold pack at hp
  split at hp
  · assumption
  · contradiction

/-- A packed header is 24 bytes long. -/
theorem length_of_pack {h : Header} {b : Bytes} (hp : h.pack = .ok b) : b.length = 24 := by
  rw [pack, if_pos (inRange_of_pack hp)] at hp
  injection hp with hb
  subst hb
  rfl

/-- **Header roundtrip**: a packed header unpacks to itself. -/
theorem unpack_of_pack {h : Header} {b : Bytes} (hp : h.pack = .ok b) : unpack b = .ok h := by
  have hr := inRange_of_pack hp
  rw [pack, if_pos hr] at hp
  injection hp with hb
  subst hb
  obtain ⟨h1, h2, h3, h4, h5, h6⟩ := hr
  simp only [packInt, beBytes, List.cons_append, List.nil_append, unpack,
    unpackInt_packInt h1, unpackInt_packInt h2, unpackInt_packInt h3, unpackInt_packInt h4,
    unpackInt_packInt h5, unpackInt_packInt h6]

end Header

end AsyncOwfs
