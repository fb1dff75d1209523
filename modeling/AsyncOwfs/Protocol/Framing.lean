import AsyncOwfs.Protocol.RoundTrip
import Mathlib.Logic.Function.Iterate

/-!
# AsyncOwfs.Protocol.Framing

What a reader makes of bytes that nobody vouches for.

A header is busy, framed, negative or refused.  A negative one is accepted like a
framed one, and its length goes into the slices of `_read_buf`, which count from
the end of what happens to be buffered.  Everything else is a matter of the bytes
alone: two readers that have the same bytes pending go on alike (`alike_anext`),
and the next header is where the first one says (`pending_anext`).
-/

namespace AsyncOwfs

/-! ## Kinds of headers -/

namespace Header

/-- The server asks to wait. -/
def Busy (h : Header) : Prop :=
  h.version = 0 ∧ h.payloadLen = -1 ∧ h.dataLen = 0 ∧
    (Protocol.offsetFlag h.offset = true ∨ h.offset = 0)

/-- A payload follows, within bounds. -/
def Framed (h : Header) : Prop := h.version = 0 ∧ 0 ≤ h.payloadLen ∧ h.payloadLen ≤ maxLength

/-- The length of the payload is negative, which the reader does not notice. -/
def Negative (h : Header) : Prop := h.version = 0 ∧ h.payloadLen < 0 ∧ ¬ h.Busy

instance (h : Header) : Decidable h.Busy := inferInstanceAs (Decidable (_ ∧ _))

instance (h : Header) : Decidable h.Framed := inferInstanceAs (Decidable (_ ∧ _))

instance (h : Header) : Decidable h.Negative := inferInstanceAs (Decidable (_ ∧ _))

/-- `unpack` is for 24 bytes. -/
theorem length_of_unpack {b : Bytes} {h : Header} (hu : unpack b = .ok h) : b.length = 24 := by
  unfold unpack at hu
  split at hu
  · rfl
  · contradiction

theorem unpack_isOk : {b : Bytes} → b.length = 24 → ∃ h, unpack b = .ok h
  | [_, _, _, _, _, _, _, _, _, _, _, _, _, _, _, _, _, _, _, _, _, _, _, _], _ => ⟨_, rfl⟩

end Header

namespace Protocol

/-- What `__anext__` returns for a header and its payload. -/
def Item.of (isServer : Bool) (h : Header) (data : Bytes) : Item :=
  let dataLen := if h.payloadLen = 0 then 0 else h.dataLen
  if isServer then .request h.retValue h.formatFlags data dataLen
  else .reply h.retValue (sliceTo dataLen data)

/-! ## What becomes of a header -/

section ReadPayload

variable {h : Header} (p : Protocol)

/-- A busy frame has no payload. -/
theorem readPayload_of_busy (hb : h.Busy) : p.readPayload h = (.error .serverBusy, p) := by
  obtain ⟨hv, hn, hd, ho⟩ := hb
  have hoff : (if offsetFlag h.offset then 0 else h.offset) = 0 := by
    rcases ho with ho | ho <;> simp [ho]
  simp [readPayload, hv, hn, hd, hoff]

/-- Behind the checks the payload is read. -/
theorem readPayload_of_accepted (hv : h.version = 0) (hle : h.payloadLen ≤ maxLength)
    (hb : ¬ h.Busy) :
    p.readPayload h = ((p.readBuf h.payloadLen).1.map (Item.of p.isServer h),
      (p.readBuf h.payloadLen).2) := by
  have hnot : ¬ (h.payloadLen = -1 ∧ h.dataLen = 0 ∧
      (if offsetFlag h.offset then 0 else h.offset) = 0) := by
    rintro ⟨hn, hd, ho⟩
    refine hb ⟨hv, hn, hd, ?_⟩
    by_cases hflag : offsetFlag h.offset = true
    · exact .inl hflag
    · exact .inr (by simpa [hflag] using ho)
  have hmax : ¬ h.payloadLen > maxLength := Int.not_lt.mpr hle
  have hserver : (p.readBuf h.payloadLen).2.isServer = p.isServer := by
    rw [readBuf]
    generalize fill h.payloadLen p.buf p.stream = r
    obtain ⟨buf, stream⟩ := r
    dsimp only
    split <;> rfl
  simp only [readPayload, hv, hnot, hmax, ne_eq, not_true_eq_false, if_false]
  generalize p.readBuf h.payloadLen = r at hserver
  obtain ⟨r, p'⟩ := r
  change p'.isServer = p.isServer at hserver
  cases r with
  | error e => rfl
  | ok data =>
      simp only [← hserver, Except.map, Item.of]
      cases p'.isServer <;> rfl

/-- Everything else is refused for what it says itself. -/
theorem readPayload_of_refused (hb : ¬ h.Busy) (hf : ¬ h.Framed) (hn : ¬ h.Negative) :
    ∃ e, ∀ p : Protocol, p.readPayload h = (.error e, p) := by
  by_cases hv : h.version = 0
  · have hmax : h.payloadLen > maxLength := by
      by_contra hle
      rw [gt_iff_lt, Int.not_lt] at hle
      by_cases hneg : h.payloadLen < 0
      · exact hn ⟨hv, hneg, hb⟩
      · exact hf ⟨hv, Int.not_lt.mp hneg, hle⟩
    have hnot : ¬ h.payloadLen = -1 := by
      have := Int.natCast_nonneg maxLength
      omega
    refine ⟨.runtimeError s!"Server tried to send too much: {h.payloadLen}", fun p => ?_⟩
    simp only [readPayload, hv, hnot, hmax, ne_eq, not_true_eq_false, false_and, if_false, if_true]
  · refine ⟨.runtimeError s!"Wrong version: {h.version}", fun p => ?_⟩
    simp only [readPayload, hv, ne_eq, not_false_eq_true, if_true]

/-- **A negative length** is not refused: the payload is what stands in the buffer,
up to so many bytes from its end. -/
theorem readPayload_of_negative (hn : h.Negative) :
    p.readPayload h = (.ok (Item.of p.isServer h (sliceTo h.payloadLen p.buf)),
      { p with buf := sliceFrom h.payloadLen p.buf }) := by
  obtain ⟨hv, hneg, hb⟩ := hn
  have hle : h.payloadLen ≤ maxLength := by
    have := Int.natCast_nonneg maxLength
    omega
  have hnot (buf : Bytes) : ¬ (buf.length : Int) < h.payloadLen := by omega
  have hfill : fill h.payloadLen p.buf p.stream = (p.buf, p.stream) := by
    cases hs : p.stream with
    | nil => rfl
    | cons more stream => rw [fill, if_neg (hnot p.buf)]
  rw [readPayload_of_accepted p hv hle hb, readBuf, hfill]
  simp only [hnot p.buf, if_false, Except.map]

end ReadPayload

/-! ## Readers with the same bytes to come -/

/-- The stream is at its end: all bytes are in the buffer. -/
def drained (p : Protocol) : Protocol := { p with buf := p.pending, stream := [] }

/-- What has been drained has nothing left. -/
@[simp] theorem pending_drained (p : Protocol) : p.drained.pending = p.pending :=
  List.append_nil p.pending

/-- The readers differ in what they have buffered only. -/
structure Alike (p q : Protocol) : Prop where
  pending : p.pending = q.pending
  isServer : p.isServer = q.isServer
  eof : p.eof = q.eof

/-- Both give the same, and stay alike. -/
def Same (r r' : α × Protocol) : Prop := r.1 = r'.1 ∧ Alike r.2 r'.2

/-- What is alike is alike when it has been drained. -/
theorem Alike.drained {p q : Protocol} (h : Alike p q) : Alike p.drained q.drained :=
  ⟨by rw [pending_drained, pending_drained, h.pending], h.isServer, h.eof⟩

/-- What is read does not depend on how it arrives. -/
theorem alike_readBuf {p q : Protocol} (h : Alike p q) (n : Nat) :
    Same (p.readBuf n) (q.readBuf n) := by
  by_cases hn : n ≤ p.pending.length
  · obtain ⟨p', hp, hrest, hs, he⟩ := readBuf_of_le hn
    obtain ⟨q', hq, hrest', hs', he'⟩ := readBuf_of_le (h.pending ▸ hn)
    rw [hp, hq]
    exact ⟨by rw [h.pending], by rw [hrest, hrest', h.pending],
      by rw [hs, hs', h.isServer], by rw [he, he', h.eof]⟩
  · rw [readBuf_of_lt (Nat.lt_of_not_le hn), readBuf_of_lt (h.pending ▸ Nat.lt_of_not_le hn)]
    exact ⟨by rw [h.eof], h.drained⟩

/-- A payload is the same for both, unless its length is negative. -/
theorem alike_readPayload {p q : Protocol} (h : Alike p q) {hdr : Header} (hn : ¬ hdr.Negative) :
    Same (p.readPayload hdr) (q.readPayload hdr) := by
  by_cases hb : hdr.Busy
  · rw [readPayload_of_busy p hb, readPayload_of_busy q hb]
    exact ⟨rfl, h⟩
  · by_cases hf : hdr.Framed
    · obtain ⟨hv, hpos, hle⟩ := hf
      rw [readPayload_of_accepted p hv hle hb, readPayload_of_accepted q hv hle hb,
        ← Int.toNat_of_nonneg hpos, h.isServer]
      obtain ⟨hsame, hafter⟩ := alike_readBuf h hdr.payloadLen.toNat
      exact ⟨by rw [hsame], hafter⟩
    · obtain ⟨e, he⟩ := readPayload_of_refused hb hf hn
      rw [he p, he q]
      exact ⟨rfl, h⟩

/-- The header at the front of a byte string. -/
def frontHeader (b : Bytes) : Option Header := (Header.unpack (b.take 24)).toOption

/-- A header is 24 bytes. -/
theorem frontHeader_eq_none {b : Bytes} : frontHeader b = none ↔ b.length < 24 := by
  constructor
  · intro h
    by_contra hle
    obtain ⟨hdr, hu⟩ := Header.unpack_isOk (b := b.take 24) (by rw [List.length_take]; omega)
    rw [frontHeader, hu] at h
    contradiction
  · intro hlt
    cases hu : Header.unpack (b.take 24) with
    | error e => rw [frontHeader, hu]; rfl
    | ok hdr =>
        have hlen := Header.length_of_unpack hu
        rw [List.length_take] at hlen
        omega

/-- The header in front is what is unpacked. -/
theorem unpack_of_frontHeader {b : Bytes} {h : Header} (hf : frontHeader b = some h) :
    Header.unpack (b.take 24) = .ok h := by
  rw [frontHeader] at hf
  cases hu : Header.unpack (b.take 24) with
  | error e => rw [hu] at hf; contradiction
  | ok hdr => rw [hu] at hf; rw [Option.some.inj hf]

/-- The end of the stream in front of a header. -/
def headerError (eof : Exc) : Exc :=
  match receiveError eof with
  | .endOfStream => .stopAsyncIteration
  | e => e

/-- Too few bytes for a header: they stay. -/
theorem anext_of_short {p : Protocol} (hp : p.pending.length < 24) :
    p.anext = (.error (headerError p.eof), p.drained) := by
  unfold anext
  rw [readBuf_of_lt hp, headerError]
  generalize receiveError p.eof = e
  cases e <;> rfl

/-- **The next call** is the same for both, unless a negative length is next. -/
theorem alike_anext {p q : Protocol} (h : Alike p q)
    (hn : ∀ hdr, frontHeader p.pending = some hdr → ¬ hdr.Negative) : Same p.anext q.anext := by
  cases hf : frontHeader p.pending with
  | none =>
      have hshort := frontHeader_eq_none.mp hf
      rw [anext_of_short hshort, anext_of_short (h.pending ▸ hshort), h.eof]
      exact ⟨rfl, h.drained⟩
  | some hdr =>
      have hu := unpack_of_frontHeader hf
      have hlen := Header.length_of_unpack hu
      obtain ⟨p', hp, hrest, hs, he⟩ := anext_of_header hlen hu (List.take_append_drop 24 _).symm
      obtain ⟨q', hq, hrest', hs', he'⟩ :=
        anext_of_header (p := q) hlen hu (h.pending.symm.trans (List.take_append_drop 24 _).symm)
      rw [hp, hq]
      exact alike_readPayload ⟨hrest.trans hrest'.symm, by rw [hs, hs', h.isServer],
        by rw [he, he', h.eof]⟩ (hn hdr hf)

/-! ## Where the next header is -/

/-- What is left behind the first frame of a byte string: the header says how much
that is.  A payload that does not come to an end is left. -/
def behind (b : Bytes) : Bytes :=
  match frontHeader b with
  | none => b
  | some h =>
    let rest := b.drop 24
    if h.Framed ∧ h.payloadLen.toNat ≤ rest.length then rest.drop h.payloadLen.toNat else rest

/-- A short payload is left as it is. -/
theorem pending_readBuf (p : Protocol) (n : Nat) :
    (p.readBuf n).2.pending = if n ≤ p.pending.length then p.pending.drop n else p.pending := by
  split
  · next hn =>
    obtain ⟨p', hp, hrest, -⟩ := readBuf_of_le hn
    rw [hp]
    exact hrest
  · next hn =>
    rw [readBuf_of_lt (Nat.lt_of_not_le hn)]
    exact pending_drained p

/-- **The next header** is behind the frame, unless that has a negative length. -/
theorem pending_anext {p : Protocol}
    (hn : ∀ hdr, frontHeader p.pending = some hdr → ¬ hdr.Negative) :
    p.anext.2.pending = behind p.pending := by
  rw [behind]
  cases hf : frontHeader p.pending with
  | none =>
      rw [anext_of_short (frontHeader_eq_none.mp hf)]
      exact pending_drained p
  | some hdr =>
      have hu := unpack_of_frontHeader hf
      obtain ⟨p', hp, hrest, -, -⟩ :=
        anext_of_header (Header.length_of_unpack hu) hu (List.take_append_drop 24 _).symm
      rw [hp]
      by_cases hb : hdr.Busy
      · have hnf : ¬ hdr.Framed := fun hf => by
          have := hf.2.1
          rw [hb.2.1] at this
          contradiction
        rw [readPayload_of_busy p' hb]
        simp only [hnf, false_and, if_false, hrest]
      · by_cases hfr : hdr.Framed
        · rw [readPayload_of_accepted p' hfr.1 hfr.2.2 hb, ← Int.toNat_of_nonneg hfr.2.1,
            pending_readBuf]
          simp only [hfr, true_and, hrest]
        · obtain ⟨e, he⟩ := readPayload_of_refused hb hfr (hn hdr hf)
          rw [he p']
          simp only [hfr, false_and, if_false, hrest]

/-! ## What a call consumes -/

/-- A call of `__anext__` takes a header and the payload that this promises, or the
header alone where the server is busy.  Nothing else is accepted. -/
structure Exact (p : Protocol) : Prop where
  accepted : ∀ item, p.anext.1 = .ok item → ∃ hdr h payload, Header.unpack hdr = .ok h ∧
    h.Framed ∧ (payload.length : Int) = h.payloadLen ∧
    p.pending = hdr ++ payload ++ p.anext.2.pending ∧ item = Item.of p.isServer h payload
  busy : ∀ hdr h rest, p.pending = hdr ++ rest → Header.unpack hdr = .ok h → h.Busy →
    p.anext = (.error .serverBusy, p.anext.2) ∧ p.anext.2.pending = rest

/-- The header in front is the one that is unpacked. -/
theorem frontHeader_of_append {hdr rest : Bytes} {h : Header} (hu : Header.unpack hdr = .ok h) :
    frontHeader (hdr ++ rest) = some h := by
  rw [frontHeader, List.take_left' (Header.length_of_unpack hu), hu]
  rfl

/-- A payload that comes to its end is returned. -/
theorem readBuf_eq_ok {p : Protocol} {n : Nat} {data : Bytes} (h : (p.readBuf n).1 = .ok data) :
    data.length = n ∧ p.pending = data ++ (p.readBuf n).2.pending := by
  by_cases hn : n ≤ p.pending.length
  · obtain ⟨p', hp, hrest, -⟩ := readBuf_of_le hn
    rw [hp] at h ⊢
    have hdata : p.pending.take n = data := Except.ok.inj h
    rw [← hdata, hrest]
    exact ⟨List.length_take_of_le hn, (List.take_append_drop n _).symm⟩
  · rw [readBuf_of_lt (Nat.lt_of_not_le hn)] at h
    contradiction

/-- **One call** consumes what it should if and only if no negative length is next. -/
theorem exact_iff {p : Protocol} :
    p.Exact ↔ ∀ h, frontHeader p.pending = some h → ¬ h.Negative := by
  constructor
  · intro hexact hdr hf hneg
    have hu := unpack_of_frontHeader hf
    obtain ⟨p', hp, -⟩ :=
      anext_of_header (Header.length_of_unpack hu) hu (List.take_append_drop 24 _).symm
    have hok := congrArg Prod.fst (hp.trans (readPayload_of_negative p' hneg))
    obtain ⟨hdr', h', payload, hu', hframed, -, hpending, -⟩ := hexact.accepted _ hok
    rw [hpending, List.append_assoc, frontHeader_of_append hu', Option.some.injEq] at hf
    have hpos := hframed.2.1
    rw [hf] at hpos
    exact absurd hneg.2.1 (Int.not_lt.mpr hpos)
  · intro hn
    constructor
    · intro item hitem
      cases hf : frontHeader p.pending with
      | none =>
          rw [anext_of_short (frontHeader_eq_none.mp hf)] at hitem
          contradiction
      | some hdr =>
          have hu := unpack_of_frontHeader hf
          obtain ⟨p', hp, hrest, hs, -⟩ :=
            anext_of_header (Header.length_of_unpack hu) hu (List.take_append_drop 24 _).symm
          rw [hp] at hitem ⊢
          by_cases hb : hdr.Busy
          · rw [readPayload_of_busy p' hb] at hitem
            contradiction
          · by_cases hfr : hdr.Framed
            · rw [readPayload_of_accepted p' hfr.1 hfr.2.2 hb,
                ← Int.toNat_of_nonneg hfr.2.1] at hitem ⊢
              cases hread : (p'.readBuf hdr.payloadLen.toNat).1 with
              | error e => rw [hread] at hitem; contradiction
              | ok data =>
                  obtain ⟨hlen, hdata⟩ := readBuf_eq_ok hread
                  rw [hread] at hitem
                  refine ⟨_, hdr, data, hu, hfr, ?_, ?_, ?_⟩
                  · rw [hlen, Int.toNat_of_nonneg hfr.2.1]
                  · rw [List.append_assoc, ← hdata, hrest, List.take_append_drop]
                  · rw [← hs]
                    exact (Except.ok.inj hitem).symm
            · obtain ⟨e, he⟩ := readPayload_of_refused hb hfr (hn hdr hf)
              rw [he p'] at hitem
              contradiction
    · intro hdr h rest hpending hu hb
      obtain ⟨p', hp, hrest, -⟩ := anext_of_header (Header.length_of_unpack hu) hu hpending
      rw [hp, readPayload_of_busy p' hb]
      exact ⟨rfl, hrest⟩

/-! ## Every call -/

/-- No header has a negative length, at any of the places where one is due. -/
def Unsigned (b : Bytes) : Prop :=
  ∀ n h, frontHeader (behind^[n] b) = some h → ¬ h.Negative

/-- What is behind a message is as good. -/
theorem Unsigned.behind {b : Bytes} (h : Unsigned b) : Unsigned (behind b) := fun n => h (n + 1)

/-- Any number of calls. -/
theorem alike_outcomes {p q : Protocol} (h : Alike p q) (hb : Unsigned p.pending) (n : Nat) :
    Same (outcomes n p) (outcomes n q) ∧ (outcomes n p).2.pending = behind^[n] p.pending := by
  induction n generalizing p q with
  | zero => exact ⟨⟨rfl, h⟩, rfl⟩
  | succ n ih =>
      have hfront := hb 0
      obtain ⟨hsame, hafter⟩ := alike_anext h hfront
      have hnext := pending_anext hfront
      obtain ⟨⟨hrest, hlast⟩, hpending⟩ := ih hafter (hnext ▸ hb.behind)
      refine ⟨⟨?_, hlast⟩, ?_⟩
      · simp only [outcomes, hsame, hrest]
      · rw [Function.iterate_succ_apply, ← hnext]
        exact hpending

/-- As long as calls consume what they should, the next one is where it should be. -/
theorem unsigned_of_exact {p : Protocol} (h : ∀ n, (outcomes n p).2.Exact) :
    Unsigned p.pending := by
  intro n
  induction n generalizing p with
  | zero => exact exact_iff.mp (h 0)
  | succ n ih =>
      have hnext : p.anext.2.pending = behind p.pending := pending_anext (exact_iff.mp (h 0))
      rw [Function.iterate_succ_apply, ← hnext]
      exact ih fun k => h (k + 1)

/-- A byte string as the transport delivers it. -/
def Cut (b : Bytes) (chunks : List Bytes) : Prop := chunks.flatten = b ∧ ∀ c ∈ chunks, c ≠ []

/-- **Framing is a matter of the bytes**: it is the same however they arrive, and
each message ends where its header says. -/
structure OfBytes (isServer : Bool) (eof : Exc) (b : Bytes) : Prop where
  same : ∀ c c', Cut b c → Cut b c' → ∀ n,
    (outcomes n (start isServer c eof)).1 = (outcomes n (start isServer c' eof)).1
  exact : ∀ c, Cut b c → ∀ n, (outcomes n (start isServer c eof)).2.Exact

/-- It is, if and only if no header on the way has a negative length. -/
theorem ofBytes_iff (isServer : Bool) (eof : Exc) (b : Bytes) :
    OfBytes isServer eof b ↔ Unsigned b := by
  constructor
  · intro h
    have hcut : Cut b (b.map fun x => [x]) := by
      refine ⟨?_, fun c hc => ?_⟩
      · rw [← List.flatMap_def, List.flatMap_singleton']
      · obtain ⟨x, -, rfl⟩ := List.mem_map.mp hc
        exact List.cons_ne_nil x []
    have hb := unsigned_of_exact (h.exact _ hcut)
    rwa [pending_start, hcut.1] at hb
  · intro hb
    have hpending {c : List Bytes} (hc : Cut b c) : (start isServer c eof).pending = b := hc.1
    constructor
    · intro c c' hc hc' n
      have halike : Alike (start isServer c eof) (start isServer c' eof) :=
        ⟨hc.1.trans hc'.1.symm, rfl, rfl⟩
      exact (alike_outcomes halike ((hpending hc).symm ▸ hb) n).1.1
    · intro c hc n
      have halike : Alike (start isServer c eof) (start isServer c eof) := ⟨rfl, rfl, rfl⟩
      refine exact_iff.mpr ?_
      rw [(alike_outcomes halike ((hpending hc).symm ▸ hb) n).2, hpending hc]
      exact hb n

/-- A reply whose payload is -2 bytes long. -/
def minusTwo : Bytes :=
  [0, 0, 0, 0, 0xFF, 0xFF, 0xFF, 0xFE, 0, 0, 0, 0, 0, 0, 0, 0, 0, 0, 0, 5, 0, 0, 0, 0]

/-- With three more bytes, its data is empty or the first of them. -/
theorem not_ofBytes_minusTwo :
    (outcomes 1 (start false [minusTwo, [1, 2, 3]] .endOfStream)).1 = [.ok (.reply 0 [])] ∧
    (outcomes 1 (start false [minusTwo ++ [1, 2, 3]] .endOfStream)).1 = [.ok (.reply 0 [1])] ∧
    ¬ OfBytes false .endOfStream (minusTwo ++ [1, 2, 3]) := by
  have hcut : (outcomes 1 (start false [minusTwo, [1, 2, 3]] .endOfStream)).1 =
      [.ok (.reply 0 [])] := by
    simp only [outcomes]
    unfold anext
    decide
  have hwhole : (outcomes 1 (start false [minusTwo ++ [1, 2, 3]] .endOfStream)).1 =
      [.ok (.reply 0 [1])] := by
    simp only [outcomes]
    unfold anext
    decide
  refine ⟨hcut, hwhole, fun h => ?_⟩
  have hsame := h.same [minusTwo, [1, 2, 3]] [minusTwo ++ [1, 2, 3]] (by simp [Cut, minusTwo])
    (by simp [Cut, minusTwo]) 1
  rw [hcut, hwhole] at hsame
  contradiction

end Protocol

end AsyncOwfs
