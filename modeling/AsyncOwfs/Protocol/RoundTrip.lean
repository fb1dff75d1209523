import AsyncOwfs.Protocol

/-!
# AsyncOwfs.Protocol.RoundTrip

What `write` puts on the wire, `__anext__` takes off it: one frame at a time
(`anext_of_write`, over an arbitrary suffix), and from that any list of frames,
however the transport cuts the byte stream into chunks.
-/

namespace AsyncOwfs

open Protocol

namespace Protocol

/-! ## The frames that the two ends exchange -/

namespace Frame

/-- The frames that both ends agree on: a payload within bounds together with
the length of its meaningful part, or no payload at all (`data=None`). -/
structure WellFormed (f : Frame) : Prop where
  rlen_nonneg : 0 ≤ f.rlen
  size_le : ∀ data, f.data = some data → data.length ≤ maxLength
  rlen_of_empty : f.data = some [] → f.rlen = 0
  of_none : f.data = none → f.rlen = 0 ∧ f.offset = 0

/-- What the other end makes of a frame. -/
def received (isServer : Bool) (f : Frame) : Except Exc Item :=
  match f.data with
  | none => .error .serverBusy
  | some data =>
    if isServer then .ok (.request f.typ f.flags data f.rlen)
    else .ok (.reply f.typ (data.take f.rlen.toNat))

/-- The header in front of a frame. -/
def header (f : Frame) : Header :=
  match f.data with
  | none => ⟨0, -1, f.typ, f.flags, f.rlen, f.offset⟩
  | some data => ⟨0, data.length, f.typ, f.flags, f.rlen, f.offset⟩

/-- The bytes behind the header. -/
def payload (f : Frame) : Bytes := f.data.getD []

/-- A written frame is its packed header and its payload. -/
theorem write_eq {f : Frame} {b : Bytes} (hw : write f = .ok b) :
    ∃ hdr, f.header.pack = .ok hdr ∧ b = hdr ++ f.payload := by
  unfold write at hw
  unfold header payload
  cases hd : f.data with
  | none =>
      simp only [hd] at hw
      exact ⟨b, hw, by simp⟩
  | some data =>
      simp only [hd] at hw
      cases hp : Header.pack ⟨0, data.length, f.typ, f.flags, f.rlen, f.offset⟩ with
      | error e => simp only [hp, reduceCtorEq] at hw
      | ok hdr =>
          simp only [hp, Except.ok.injEq] at hw
          exact ⟨hdr, rfl, hw.symm⟩

end Frame

/-! ## One frame -/

/-- With a whole header to come, `__anext__` unpacks it and goes on to the
payload. -/
theorem anext_of_header {p : Protocol} {hdr rest : Bytes} {h : Header}
    (hlen : hdr.length = 24) (hu : Header.unpack hdr = .ok h) (hp : p.pending = hdr ++ rest) :
    ∃ p' : Protocol, p.anext = p'.readPayload h ∧ p'.pending = rest ∧
      p'.isServer = p.isServer ∧ p'.eof = p.eof := by
  have hle : 24 ≤ p.pending.length := by
    rw [hp, List.length_append]; omega
  obtain ⟨p', hr, hrest, hs, he⟩ := readBuf_of_le hle
  rw [hp, List.take_left' hlen] at hr
  rw [hp, List.drop_left' hlen] at hrest
  refine ⟨p', ?_, hrest, hs, he⟩
  unfold anext
  simp only [hr, hu]

/-- The payload of a well-formed frame is read to its end. -/
theorem readPayload_of_wellFormed {f : Frame} {p : Protocol} {rest : Bytes}
    (hwf : f.WellFormed) (hp : p.pending = f.payload ++ rest) :
    ∃ p', p.readPayload f.header = (f.received p.isServer, p') ∧ p'.pending = rest ∧
      p'.isServer = p.isServer ∧ p'.eof = p.eof := by
  cases hd : f.data with
  | none =>
      obtain ⟨hrlen, hoff⟩ := hwf.of_none hd
      refine ⟨p, ?_, ?_, rfl, rfl⟩
      · simp [readPayload, Frame.header, Frame.received, hd, hrlen, hoff]
      · simpa [Frame.payload, hd] using hp
  | some data =>
      have hsize := hwf.size_le data hd
      have hpay : f.payload = data := by simp [Frame.payload, hd]
      rw [hpay] at hp
      have hle : data.length ≤ p.pending.length := by
        rw [hp, List.length_append]; omega
      obtain ⟨p', hr, hrest, hs, he⟩ := readBuf_of_le hle
      rw [hp, List.take_left' rfl] at hr
      rw [hp, List.drop_left' rfl] at hrest
      refine ⟨p', ?_, hrest, hs, he⟩
      have hnotBusy : ¬ ((data.length : Int) = -1) := by omega
      have hnotLong : ¬ ((data.length : Int) > maxLength) := by omega
      -- the length of an empty payload is reset, which changes nothing
      have hreset : (if (data.length : Int) = 0 then 0 else f.rlen) = f.rlen := by
        split
        · next h0 =>
            have hnil : data = [] := List.eq_nil_of_length_eq_zero (by omega)
            exact (hwf.rlen_of_empty (by rw [hd, hnil])).symm
        · rfl
      have hslice : sliceTo f.rlen data = data.take f.rlen.toNat := by
        rw [sliceTo, if_pos hwf.rlen_nonneg]
      simp only [readPayload, Frame.header, hd, Frame.received, hnotBusy, hnotLong, hr, hreset,
        hslice, hs, ne_eq, not_true_eq_false, false_and, if_false]
      cases p.isServer <;> rfl

/-- **Frame roundtrip, prefix form**: a written frame is read back from the
front of what is pending, whatever follows it. -/
theorem anext_of_write {f : Frame} {p : Protocol} {b rest : Bytes} (hwf : f.WellFormed)
    (hw : write f = .ok b) (hp : p.pending = b ++ rest) :
    ∃ p', p.anext = (f.received p.isServer, p') ∧ p'.pending = rest ∧
      p'.isServer = p.isServer ∧ p'.eof = p.eof := by
  obtain ⟨hdr, hpack, rfl⟩ := Frame.write_eq hw
  rw [List.append_assoc] at hp
  obtain ⟨p₁, h₁, hrest₁, hs₁, he₁⟩ :=
    anext_of_header (Header.length_of_pack hpack) (Header.unpack_of_pack hpack) hp
  obtain ⟨p₂, h₂, hrest₂, hs₂, he₂⟩ := readPayload_of_wellFormed hwf hrest₁
  rw [hs₁] at h₂ hs₂
  rw [he₁] at he₂
  exact ⟨p₂, by rw [h₁, h₂], hrest₂, hs₂, he₂⟩

/-- A payload that is too long is refused by its header, whatever its bytes are. -/
theorem anext_of_long {f : Frame} {data b rest : Bytes} {p : Protocol} (hd : f.data = some data)
    (hlong : maxLength < data.length) (hw : write f = .ok b) (hp : p.pending = b ++ rest) :
    ∃ p', p.anext =
      (.error (.runtimeError s!"Server tried to send too much: {(data.length : Int)}"), p') := by
  obtain ⟨hdr, hpack, rfl⟩ := Frame.write_eq hw
  rw [List.append_assoc] at hp
  obtain ⟨p', h, -⟩ :=
    anext_of_header (Header.length_of_pack hpack) (Header.unpack_of_pack hpack) hp
  refine ⟨p', ?_⟩
  have hnotBusy : ¬ ((data.length : Int) = -1) := by omega
  have hmuch : (data.length : Int) > maxLength := by omega
  rw [h]
  simp only [readPayload, Frame.header, hd, hnotBusy, hmuch, ne_eq, not_true_eq_false, false_and,
    if_false, if_true]

/-- At the end of the stream, with nothing left, the iteration stops. -/
theorem anext_of_nil {p : Protocol} (hp : p.pending = []) (he : p.eof = .endOfStream) :
    p.anext = (.error .stopAsyncIteration, { p with buf := [], stream := [] }) := by
  have hlt : p.pending.length < 24 := by simp [hp]
  unfold anext
  simp only [readBuf_of_lt hlt, he, hp, receiveError]

/-! ## Any list of frames -/

theorem writeAll_cons {f : Frame} {fs : List Frame} {bytes : Bytes}
    (hw : writeAll (f :: fs) = .ok bytes) :
    ∃ b bs, write f = .ok b ∧ writeAll fs = .ok bs ∧ bytes = b ++ bs := by
  rw [writeAll] at hw
  cases hf : write f with
  | error e => simp only [hf, reduceCtorEq] at hw
  | ok b =>
      cases hfs : writeAll fs with
      | error e => simp only [hf, hfs, reduceCtorEq] at hw
      | ok bs =>
          simp only [hf, hfs, Except.ok.injEq] at hw
          exact ⟨b, bs, rfl, rfl, hw.symm⟩

/-- One call after the other reads a list of written frames, in order. -/
theorem outcomes_of_writeAll {fs : List Frame} {p : Protocol} {b rest : Bytes}
    (hwf : ∀ f ∈ fs, f.WellFormed) (hw : writeAll fs = .ok b) (hp : p.pending = b ++ rest) :
    (outcomes fs.length p).1 = fs.map (Frame.received p.isServer) ∧
      (outcomes fs.length p).2.pending = rest ∧ (outcomes fs.length p).2.eof = p.eof := by
  induction fs generalizing p b with
  | nil =>
      injection hw with hb
      subst hb
      exact ⟨rfl, hp, rfl⟩
  | cons f fs ih =>
      obtain ⟨bf, bs, hf, hfs, hb⟩ := writeAll_cons hw
      rw [hb, List.append_assoc] at hp
      obtain ⟨p', h, hrest, hs, he⟩ := anext_of_write (hwf f List.mem_cons_self) hf hp
      obtain ⟨ih₁, ih₂, ih₃⟩ := ih (fun g hg => hwf g (List.mem_cons_of_mem f hg)) hfs hrest
      simp only [List.length_cons, outcomes, h, List.map_cons]
      rw [ih₁, hs]
      exact ⟨rfl, ih₂, by rw [ih₃, he]⟩

/-- One more call extends the list of outcomes. -/
theorem outcomes_succ (n : Nat) (p : Protocol) :
    (outcomes (n + 1) p).1 = (outcomes n p).1 ++ [(outcomes n p).2.anext.1] := by
  induction n generalizing p with
  | zero => rfl
  | succ n ih =>
      rw [outcomes]
      simp only [ih p.anext.2]
      rfl

/-- **Frame roundtrip**: whatever the chunks that the bytes of a list of frames
arrive in, the other end reads exactly these frames, in order, ends up with an
empty buffer, and stops when the stream does. -/
theorem outcomes_roundtrip (isServer : Bool) (fs : List Frame) (chunks : List Bytes)
    (hwf : ∀ f ∈ fs, f.WellFormed) (hw : writeAll fs = .ok chunks.flatten) :
    (outcomes fs.length (start isServer chunks .endOfStream)).1 =
        fs.map (Frame.received isServer) ∧
      (outcomes fs.length (start isServer chunks .endOfStream)).2.buf = [] ∧
      (outcomes (fs.length + 1) (start isServer chunks .endOfStream)).1 =
        fs.map (Frame.received isServer) ++ [.error .stopAsyncIteration] := by
  have hp : (start isServer chunks .endOfStream).pending = chunks.flatten ++ [] := by simp
  obtain ⟨h₁, h₂, h₃⟩ := outcomes_of_writeAll hwf hw hp
  refine ⟨h₁, List.append_eq_nil_iff.mp h₂ |>.1, ?_⟩
  rw [outcomes_succ, h₁, anext_of_nil h₂ h₃]
  rfl

/-- A reply and a busy frame, on a client, with cuts inside the first header,
inside the payload and inside the second header. -/
theorem outcomes_hi_busy :
    (outcomes 2 (start false
        [[0, 0, 0, 0, 0, 0, 0], [3, 0, 0, 0, 2, 0, 0, 0, 0, 0, 0, 0, 2, 0, 0, 0, 0, 0x68],
          [0x69, 0, 0, 0, 0, 0, 0xFF, 0xFF], [0xFF, 0xFF],
          [0, 0, 0, 0, 0, 0, 0, 0, 0, 0, 0, 0, 0, 0, 0, 0]] .endOfStream)).1 =
      [.ok (.reply 2 [0x68, 0x69]), .error .serverBusy] := by
  have hwf : ∀ f ∈ [⟨2, 0, 2, some [0x68, 0x69, 0], 0⟩, ⟨0, 0, 0, none, 0⟩],
      Frame.WellFormed f := by
    intro f hf
    rcases List.mem_pair.mp hf with rfl | rfl
    · constructor <;> simp [maxLength]
    · constructor <;> simp
  exact (outcomes_roundtrip false [⟨2, 0, 2, some [0x68, 0x69, 0], 0⟩, ⟨0, 0, 0, none, 0⟩]
    [[0, 0, 0, 0, 0, 0, 0], [3, 0, 0, 0, 2, 0, 0, 0, 0, 0, 0, 0, 2, 0, 0, 0, 0, 0x68],
      [0x69, 0, 0, 0, 0, 0, 0xFF, 0xFF], [0xFF, 0xFF],
      [0, 0, 0, 0, 0, 0, 0, 0, 0, 0, 0, 0, 0, 0, 0, 0]] hwf (by decide)).1

end Protocol

end AsyncOwfs
