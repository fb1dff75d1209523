import AsyncOwfs.Lib.Separated

/-!
# AsyncOwfs.Lib.Utf8

UTF-8 as lists of bytes: what has been encoded can be decoded, and a byte below
128 stands for its own character and for nothing else, so that a text may be cut at
such a character before or after it is encoded.
-/

namespace Utf8

/-- The bytes of a string. -/
def encode (s : String) : List UInt8 := s.toUTF8.data.toList

/-- The string of some bytes, if they are valid. -/
def decode? (b : List UInt8) : Option String := String.fromUTF8? b.toByteArray

/-! ## Round trip -/

/-- The bytes are those of the library. -/
theorem toByteArray_encode (s : String) : (encode s).toByteArray = s.toUTF8 := by
  rw [encode]
  apply ByteArray.ext
  rw [← Array.toList_inj, List.toList_data_toByteArray]

/-- **Round trip.** -/
@[simp] theorem decode?_encode (s : String) : decode? (encode s) = some s := by
  rw [decode?, toByteArray_encode]
  simp only [String.fromUTF8?, String.toUTF8_eq_toByteArray, dif_pos s.isValidUTF8]
  rfl

/-- Only the bytes of a text can be decoded to it. -/
theorem encode_of_decode? {b : List UInt8} {s : String} (h : decode? b = some s) :
    encode s = b := by
  unfold decode? String.fromUTF8? at h
  split at h
  · rw [Option.some.injEq] at h
    subst h
    exact List.toList_data_toByteArray
  · contradiction

/-- Texts with the same bytes are the same. -/
theorem encode_injective {s t : String} (h : encode s = encode t) : s = t := by
  have hdecode := congrArg decode? h
  simpa using hdecode

/-! ## Characters -/

/-- A text is encoded one character after the other. -/
theorem encode_eq_flatMap (s : String) : encode s = s.toList.flatMap String.utf8EncodeChar := by
  rw [encode, String.toUTF8_eq_toByteArray, ← String.utf8Encode_toList, List.utf8Encode,
    List.toList_data_toByteArray]

/-- Texts that are put together. -/
theorem encode_append (s t : String) : encode (s ++ t) = encode s ++ encode t := by
  simp only [encode_eq_flatMap, String.toList_append, List.flatMap_append]

/-- Only the empty text has no bytes. -/
@[simp] theorem encode_eq_nil_iff {s : String} : encode s = [] ↔ s = "" := by
  rw [encode_eq_flatMap, List.flatMap_eq_nil_iff, ← String.toList_eq_nil_iff]
  constructor
  · intro h
    refine List.eq_nil_iff_forall_not_mem.mpr fun c hc => ?_
    exact absurd (h c hc) String.utf8EncodeChar_ne_nil
  · intro h c hc
    rw [h] at hc
    exact absurd hc List.not_mem_nil

/-- A byte below 128 is a character of its own. -/
theorem toNat_eq_of_mem_utf8EncodeChar {b : UInt8} {c : Char}
    (h : b ∈ String.utf8EncodeChar c) (hb : b.toNat < 128) : c.toNat = b.toNat := by
  unfold String.utf8EncodeChar at h
  have hc : c.toNat = c.val.toNat := rfl
  simp only [] at h
  split at h
  · next hle =>
    rw [List.mem_singleton.mp h, UInt8.toNat_ofNat', hc]
    omega
  · split at h
    · simp only [List.mem_cons, List.not_mem_nil, or_false] at h
      rcases h with rfl | rfl <;> simp only [UInt8.toNat_ofNat'] at hb <;> omega
    · split at h <;> simp only [List.mem_cons, List.not_mem_nil, or_false] at h
      · rcases h with rfl | rfl | rfl <;> simp only [UInt8.toNat_ofNat'] at hb <;> omega
      · rcases h with rfl | rfl | rfl | rfl <;> simp only [UInt8.toNat_ofNat'] at hb <;> omega

/-- An ASCII byte is a character of the text. -/
theorem mem_encode_of_lt {b : UInt8} {s : String} (h : b ∈ encode s) (hb : b.toNat < 128) :
    Char.ofNat b.toNat ∈ s.toList := by
  rw [encode_eq_flatMap] at h
  obtain ⟨c, hc, hbc⟩ := List.mem_flatMap.mp h
  rw [← toNat_eq_of_mem_utf8EncodeChar hbc hb, Char.ofNat_toNat]
  exact hc

/-- ASCII codes are codes of characters. -/
theorem toNat_ofNat_of_lt {n : Nat} (h : n < 128) : (Char.ofNat n).toNat = n := by
  have hvalid : n.isValidChar := .inl (by omega)
  rw [Char.ofNat, dif_pos hvalid]
  rfl

/-- An ASCII character is one byte. -/
theorem utf8EncodeChar_of_lt {c : Char} (h : c.toNat < 128) :
    String.utf8EncodeChar c = [UInt8.ofNat c.toNat] := by
  have hle : c.toNat ≤ 127 := Nat.le_of_lt_succ h
  unfold String.utf8EncodeChar
  simp [hle]

/-- An ASCII byte stands for its character, and nothing else. -/
theorem mem_encode_iff {b : UInt8} {s : String} (hb : b.toNat < 128) :
    b ∈ encode s ↔ Char.ofNat b.toNat ∈ s.toList := by
  constructor
  · intro h
    exact mem_encode_of_lt h hb
  · intro h
    rw [encode_eq_flatMap, List.mem_flatMap]
    refine ⟨Char.ofNat b.toNat, h, ?_⟩
    have hchar := toNat_ofNat_of_lt hb
    rw [utf8EncodeChar_of_lt (by omega), hchar]
    simp

/-- Characters below 128 are bytes of their own. -/
theorem map_ofNat_encode {s : String} (h : ∀ c ∈ s.toList, c.toNat < 128) :
    (encode s).map (fun b => Char.ofNat b.toNat) = s.toList := by
  rw [encode_eq_flatMap]
  generalize s.toList = cs at h ⊢
  induction cs with
  | nil => rfl
  | cons c cs ih =>
      have hc : c.toNat < 128 := h c List.mem_cons_self
      have hbyte : (UInt8.ofNat c.toNat).toNat = c.toNat := by
        rw [UInt8.toNat_ofNat']
        omega
      rw [List.flatMap_cons, List.map_append, utf8EncodeChar_of_lt hc,
        ih fun d hd => h d (List.mem_cons_of_mem c hd)]
      simp [hbyte]

/-! ## Separators -/

/-- What is between the parts is the separator. -/
theorem mem_intercalate {α : Type} {a c : α} {l : List (List α)} (h : a ∈ [c].intercalate l) :
    a = c ∨ ∃ b ∈ l, a ∈ b := by
  induction l with
  | nil => exact absurd h List.not_mem_nil
  | cons b l ih =>
      cases l with
      | nil => exact .inr ⟨b, List.mem_singleton_self b, by simpa using h⟩
      | cons b' l =>
          rw [List.intercalate_cons_cons, List.mem_append, List.mem_append,
            List.mem_singleton] at h
          rcases h with (h | h) | h
          · exact .inr ⟨b, List.mem_cons_self, h⟩
          · exact .inl h
          · rcases ih h with h | ⟨d, hd, had⟩
            · exact .inl h
            · exact .inr ⟨d, List.mem_cons_of_mem b hd, had⟩

theorem encode_intercalate (sep : String) (l : List String) :
    encode (sep.intercalate l) = (encode sep).intercalate (l.map encode) := by
  induction l with
  | nil => simp [encode_eq_flatMap]
  | cons s l ih =>
      cases l with
      | nil => simp
      | cons t l =>
          simp only [List.map_cons] at ih
          rw [String.intercalate_cons_cons, encode_append, encode_append, ih]
          simp only [List.map_cons, List.intercalate_cons_cons]

/-- A byte below 128 that none of the strings has as a character separates
their encodings. -/
theorem splitOn_intercalate_encode {c : UInt8} {l : List String} (hc : c.toNat < 128)
    (hl : l ≠ []) (h : ∀ s ∈ l, Char.ofNat c.toNat ∉ s.toList) :
    ([c].intercalate (l.map encode)).splitOn c = l.map encode := by
  refine List.splitOn_intercalate c ?_ (by simpa using hl)
  intro b hb hmem
  obtain ⟨s, hs, rfl⟩ := List.mem_map.mp hb
  exact h s hs (mem_encode_of_lt hmem hc)

/-- A text may be split before or after it is encoded. -/
theorem splitOn_encode {c : UInt8} (hc : c.toNat < 128) (s : String) :
    (encode s).splitOn c =
      ((s.toList.splitOn (Char.ofNat c.toNat)).map String.ofList).map encode := by
  have hval : (Char.ofNat c.toNat).toNat = c.toNat := toNat_ofNat_of_lt hc
  have hsep : encode (String.singleton (Char.ofNat c.toNat)) = [c] := by
    rw [encode_eq_flatMap, String.toList_singleton, List.flatMap_singleton,
      utf8EncodeChar_of_lt (by omega), hval, UInt8.ofNat_toNat]
  have hjoin : (String.singleton (Char.ofNat c.toNat)).intercalate
      ((s.toList.splitOn (Char.ofNat c.toNat)).map String.ofList) = s := by
    apply String.toList_injective
    simp [Function.comp_def, List.intercalate_splitOn]
  calc
    (encode s).splitOn c =
        ([c].intercalate (((s.toList.splitOn (Char.ofNat c.toNat)).map String.ofList).map
          encode)).splitOn c := by rw [← hsep, ← encode_intercalate, hjoin]
    _ = ((s.toList.splitOn (Char.ofNat c.toNat)).map String.ofList).map encode := by
      refine splitOn_intercalate_encode hc (by simp) fun t ht => ?_
      obtain ⟨piece, hpiece, rfl⟩ := List.mem_map.mp ht
      rw [String.toList_ofList]
      exact Separated.notMem_of_mem_splitOn hpiece

end Utf8
