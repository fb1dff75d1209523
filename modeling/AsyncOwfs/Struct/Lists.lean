import AsyncOwfs.Struct.Values

/-!
# AsyncOwfs.Struct.Lists

Arrays that are written and read as a whole: what `MultiValue` and `MultiGetter` read
from the bytes that `MultiSetter` writes.

Nothing is escaped, so that an element with a comma in it is read as several ones; the
types of integers and booleans have no such elements (`readAll_joinAll_iff`).
-/

namespace AsyncOwfs

namespace Struct

/-! ## Elements -/

/-- The values that `_RValue` has for a type.  Every type that is not one of the others is
that of a text. -/
def PyValue.OfType (typ : String) : PyValue → Prop
  | .int _ => typ ∈ intTypes
  | .bool _ => typ = "y"
  | .bytes _ => typ = "b"
  | .text _ => typ ∉ floatTypes ∧ typ ∉ intTypes ∧ typ ≠ "y" ∧ typ ≠ "b"
  | .float _ => typ ∈ floatTypes
  | .none => False

/-- The value is written with a comma in it. -/
def PyValue.HasComma : PyValue → Prop
  | .text s => ',' ∈ s.toList
  | .bytes b => 0x2C ∈ b
  | _ => False

/-- What is written for an element. -/
def PyValue.wire : PyValue → Bytes
  | .int i => Utf8.encode (toString i)
  | .bool b => if b then [0x31] else [0x30]
  | .bytes b => b
  | .text s => Utf8.encode s
  | _ => []

section Elements

variable {fl : Floats} {typ : String} {v : PyValue}

theorem joinable_writeConv (hf : typ ∉ floatTypes) (h : v.OfType typ) :
    (writeConv fl typ v).joinable = .ok v.wire := by
  cases v with
  | none => contradiction
  | float x => contradiction
  | bool b =>
      cases h
      rfl
  | int i =>
      have hb : typ ≠ "b" := ne_of_mem_of_not_mem h (by decide)
      have hy : typ ≠ "y" := ne_of_mem_of_not_mem h (by decide)
      rw [writeConv, if_neg hb, if_neg hy]
      rfl
  | text s =>
      rw [writeConv, if_neg h.2.2.2, if_neg h.2.2.1]
      rfl
  | bytes b =>
      cases h
      rfl

theorem readConv_wire (hf : typ ∉ floatTypes) (h : v.OfType typ) :
    readConv fl typ v.wire = .ok v := by
  rw [readConv, if_neg hf]
  cases v with
  | none => contradiction
  | float x => contradiction
  | bool b =>
      cases h
      cases b <;> decide +kernel
  | int i =>
      have hi : typ ∈ intTypes := h
      rw [if_pos hi, PyValue.wire, bytesInt_encode]
      rfl
  | text s =>
      rw [if_neg h.2.1, if_neg h.2.2.1, if_neg h.2.2.2, PyValue.wire, Mock.decode,
        Utf8.decode?_encode]
      rfl
  | bytes b =>
      cases h
      rfl

/-- A comma in the value is one in what is written. -/
theorem comma_mem_wire_iff (h : v.OfType typ) : 0x2C ∈ v.wire ↔ v.HasComma := by
  cases v with
  | none => contradiction
  | float x => simp [PyValue.wire, PyValue.HasComma]
  | bool b => cases b <;> simp [PyValue.wire, PyValue.HasComma]
  | int i =>
      rw [PyValue.wire, Utf8.mem_encode_iff (by decide)]
      constructor
      · intro hmem
        have hcomma := isDecimal_of_mem hmem
        simp [IsDecimal] at hcomma
      · intro h
        contradiction
  | text s => exact Utf8.mem_encode_iff (by decide)
  | bytes b => rfl

/-- A text or bytes are read from what is written for them, and from nothing else. -/
theorem wire_of_readConv {piece : Bytes} (hf : typ ∉ floatTypes) (h : v.OfType typ)
    (hread : readConv fl typ piece = .ok v) (hcomma : v.HasComma) : v.wire = piece := by
  rw [readConv, if_neg hf] at hread
  cases v with
  | text s =>
      rw [if_neg h.2.1, if_neg h.2.2.1, if_neg h.2.2.2, Mock.decode] at hread
      cases hs : Utf8.decode? piece with
      | none => simp [hs, Except.map] at hread
      | some t =>
          simp [hs, Except.map] at hread
          rw [← hread]
          exact Utf8.encode_of_decode? hs
  | bytes b =>
      cases h
      simpa [intTypes, PyValue.wire, eq_comm] using hread
  | _ => contradiction

end Elements

/-! ## Lists -/

section Lists

variable {fl : Floats} {typ : String} {vs : List PyValue}

theorem joinAll_eq (hf : typ ∉ floatTypes) (h : ∀ v ∈ vs, v.OfType typ) :
    joinAll fl typ vs = .ok ([0x2C].intercalate (vs.map PyValue.wire)) := by
  have hmap : vs.mapM (fun v => (writeConv fl typ v).joinable) = .ok (vs.map PyValue.wire) := by
    apply Separated.mapM_of_forall₂
    rw [List.forall₂_map_right_iff, List.forall₂_same]
    intro v hv
    exact joinable_writeConv hf (h v hv)
  rw [joinAll, hmap]
  rfl

/-- What is read is what was written if there was an element, and no comma in any. -/
theorem readAll_joinAll_iff (hf : typ ∉ floatTypes) (h : ∀ v ∈ vs, v.OfType typ) :
    (joinAll fl typ vs >>= readAll fl typ) = .ok vs ↔ vs ≠ [] ∧ ∀ v ∈ vs, ¬ v.HasComma := by
  have honly : ∀ v ∈ vs, ∀ piece, readConv fl typ piece = .ok v → 0x2C ∈ v.wire →
      0x2C ∈ piece := by
    intro v hv piece hread hmem
    rwa [← wire_of_readConv hf (h v hv) hread ((comma_mem_wire_iff (h v hv)).mp hmem)]
  have hcomma : (∀ v ∈ vs, 0x2C ∉ v.wire) ↔ ∀ v ∈ vs, ¬ v.HasComma := by
    constructor
    · intro hw v hv
      exact fun hc => hw v hv ((comma_mem_wire_iff (h v hv)).mpr hc)
    · intro hc v hv
      exact fun hw => hc v hv ((comma_mem_wire_iff (h v hv)).mp hw)
  rw [joinAll_eq hf h, ← hcomma]
  exact Separated.split_join_iff (fun v hv => readConv_wire hf (h v hv)) honly

/-- **Round trip** of a list with elements. -/
theorem roundtrip_iff (hf : typ ∉ floatTypes) (h : ∀ v ∈ vs, v.OfType typ) (hne : vs ≠ []) :
    (joinAll fl typ vs >>= readAll fl typ) = .ok vs ↔ ∀ v ∈ vs, ¬ v.HasComma := by
  rw [readAll_joinAll_iff hf h]
  exact and_iff_right hne

end Lists

/-- Two texts. -/
theorem roundtrip_iff_texts :
    (joinAll ⟨fun _ => .error .valueError, fun _ => ""⟩ "a" [.text "plugh", .text ""] >>=
        readAll ⟨fun _ => .error .valueError, fun _ => ""⟩ "a") =
          .ok [.text "plugh", .text ""] ↔
      ∀ v ∈ [PyValue.text "plugh", .text ""], ¬ v.HasComma :=
  roundtrip_iff (by decide) (by simp [PyValue.OfType, floatTypes, intTypes]) (by decide)

/-- A text with a comma, and a list without elements. -/
theorem not_roundtrip :
    ((PyValue.text "x,y").OfType "a" ∧
      (joinAll ⟨fun _ => .error .valueError, fun _ => ""⟩ "a" [.text "x,y"] >>=
        readAll ⟨fun _ => .error .valueError, fun _ => ""⟩ "a") = .ok [.text "x", .text "y"]) ∧
    (joinAll ⟨fun _ => .error .valueError, fun _ => ""⟩ "i" [] >>=
      readAll ⟨fun _ => .error .valueError, fun _ => ""⟩ "i") = .error .valueError := by
  refine ⟨⟨?_, rfl⟩, rfl⟩
  simp [PyValue.OfType, floatTypes, intTypes]

end Struct

end AsyncOwfs
