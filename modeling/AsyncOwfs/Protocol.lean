import AsyncOwfs.Bytes

/-!
# AsyncOwfs.Protocol

`MessageProtocol`: the owserver framing over a byte stream.

The transport is what is still to be received: a list of chunks, cut wherever
it pleases, and the exception that `receive` raises behind the last of them.
`readBuf` is the only place where a chunk boundary is visible.  Its two
specification lemmas (`readBuf_of_le`, `readBuf_of_lt`) speak of `pending`, the
concatenation of the buffer and the chunks, so that nothing above them depends
on how the stream was cut.
-/

namespace AsyncOwfs

/-- `MessageProtocol.MAX_LENGTH`. -/
def maxLength : Nat := 9999

/-- The state of a `MessageProtocol` and of the stream it reads. -/
structure Protocol where
  isServer : Bool
  /-- `_buf` -/
  buf : Bytes
  /-- The chunks that the transport has yet to deliver. -/
  stream : List Bytes
  /-- What `stream.receive` raises once the chunks are used up. -/
  eof : Exc
  deriving Repr

namespace Protocol

/-- A new `MessageProtocol` on a connection that delivers `stream`. -/
def start (isServer : Bool) (stream : List Bytes) (eof : Exc) : Protocol :=
  ⟨isServer, [], stream, eof⟩

/-- All bytes that are still to be consumed. -/
def pending (p : Protocol) : Bytes := p.buf ++ p.stream.flatten

/-! ## Reading -/

/-- The `while` loop of `_read_buf`: receive until `n` bytes are buffered. -/
def fill (n : Int) : Bytes → List Bytes → Bytes × List Bytes
  | buf, [] => (buf, [])
  | buf, more :: stream =>
    if (buf.length : Int) < n then fill n (buf ++ more) stream else (buf, more :: stream)

/-- The `except` clause of `_read_buf` around `receive`. -/
def receiveError : Exc → Exc
  | .brokenResource | .closedResource => .endOfStream
  | e => e

/-- `_read_buf`.  The bound goes into the slices as it is, negative or not. -/
def readBuf (n : Int) (p : Protocol) : Except Exc Bytes × Protocol :=
  match fill n p.buf p.stream with
  | (buf, stream) =>
    if (buf.length : Int) < n then (.error (receiveError p.eof), { p with buf, stream })
    else (.ok (sliceTo n buf), { p with buf := sliceFrom n buf, stream })

/-- What `__anext__` returns: a reply on a client, a request on a server. -/
inductive Item
  | reply (res : Int) (data : Bytes)
  | request (typ flags : Int) (data : Bytes) (dataLen : Int)
  deriving DecidableEq, Repr

/-- `offset & 0x8000`, which Python evaluates in two's complement. -/
def offsetFlag (offset : Int) : Bool := offset / 0x8000 % 2 = 1

/-- `__anext__` behind the header: the checks and the payload. -/
def readPayload (h : Header) (p : Protocol) : Except Exc Item × Protocol :=
  let offset := if offsetFlag h.offset then 0 else h.offset
  if h.version ≠ 0 then
    (.error (.runtimeError s!"Wrong version: {h.version}"), p)
  else if h.payloadLen = -1 ∧ h.dataLen = 0 ∧ offset = 0 then
    (.error .serverBusy, p)
  else if h.payloadLen > maxLength then
    (.error (.runtimeError s!"Server tried to send too much: {h.payloadLen}"), p)
  else
    let dataLen := if h.payloadLen = 0 then 0 else h.dataLen
    match p.readBuf h.payloadLen with
    | (.error e, p) => (.error e, p)
    | (.ok data, p) =>
      if p.isServer then (.ok (.request h.retValue h.formatFlags data dataLen), p)
      else (.ok (.reply h.retValue (sliceTo dataLen data)), p)

/-- `__anext__`.  The end of the stream is a `StopAsyncIteration` while the
header is read; inside the payload it stays what `_read_buf` makes of it. -/
@[irreducible] def anext (p : Protocol) : Except Exc Item × Protocol :=
  match p.readBuf (24 : Nat) with
  | (.error .endOfStream, p) => (.error .stopAsyncIteration, p)
  | (.error e, p) => (.error e, p)
  | (.ok hdr, p) =>
    match Header.unpack hdr with
    | .error e => (.error e, p)
    | .ok h => p.readPayload h

/-- The outcomes of `n` calls of `__anext__` in a row. -/
def outcomes : Nat → Protocol → List (Except Exc Item) × Protocol
  | 0, p => ([], p)
  | n + 1, p =>
    let r := p.anext
    let rs := outcomes n r.2
    (r.1 :: rs.1, rs.2)

/-! ## Writing -/

/-- The arguments of `MessageProtocol.write`. -/
structure Frame where
  typ : Int
  flags : Int
  rlen : Int := 0
  data : Option Bytes := some []
  offset : Int := 0
  deriving DecidableEq, Repr

/-- The bytes that `write` hands to `stream.send`. -/
def write (f : Frame) : Except Exc Bytes :=
  match f.data with
  | none => Header.pack ⟨0, -1, f.typ, f.flags, f.rlen, f.offset⟩
  | some data =>
    match Header.pack ⟨0, data.length, f.typ, f.flags, f.rlen, f.offset⟩ with
    | .ok hdr => .ok (hdr ++ data)
    | .error e => .error e

/-- Several frames written one after the other. -/
def writeAll : List Frame → Except Exc Bytes
  | [] => .ok []
  | f :: fs =>
    match write f with
    | .error e => .error e
    | .ok b =>
      match writeAll fs with
      | .error e => .error e
      | .ok bs => .ok (b ++ bs)

/-! ## The buffer reader, chunk-free -/

@[simp] theorem pending_start (isServer : Bool) (stream : List Bytes) (eof : Exc) :
    (start isServer stream eof).pending = stream.flatten := rfl

/-- Receiving moves bytes from the stream to the buffer and loses none. -/
theorem fill_append (n : Int) (buf : Bytes) (stream : List Bytes) :
    (fill n buf stream).1 ++ (fill n buf stream).2.flatten = buf ++ stream.flatten := by
  induction stream generalizing buf with
  | nil => rfl
  | cons more stream ih =>
      rw [fill]
      split
      · rw [ih, List.flatten_cons, List.append_assoc]
      · rfl

/-- The loop ends with enough bytes or at the end of the stream. -/
theorem fill_enough (n : Int) (buf : Bytes) (stream : List Bytes) :
    n ≤ (fill n buf stream).1.length ∨ (fill n buf stream).2 = [] := by
  induction stream generalizing buf with
  | nil => exact .inr rfl
  | cons more stream ih =>
      rw [fill]
      split
      · exact ih _
      · next h => exact .inl (Int.not_lt.mp h)

/-- What the loop ends with. -/
theorem exists_fill (n : Int) (p : Protocol) :
    ∃ buf stream, fill n p.buf p.stream = (buf, stream) ∧ buf ++ stream.flatten = p.pending ∧
      (n ≤ buf.length ∨ stream = []) :=
  ⟨_, _, rfl, fill_append n p.buf p.stream, fill_enough n p.buf p.stream⟩

/-- **`_read_buf` with enough bytes to come**: it returns the first `n` of
them and leaves the others. -/
theorem readBuf_of_le {p : Protocol} {n : Nat} (h : n ≤ p.pending.length) :
    ∃ p', p.readBuf n = (.ok (p.pending.take n), p') ∧ p'.pending = p.pending.drop n ∧
      p'.isServer = p.isServer ∧ p'.eof = p.eof := by
  obtain ⟨buf, stream, hfill, hcat, henough⟩ := exists_fill n p
  rw [readBuf, hfill]
  have hlen : n ≤ buf.length := by
    rcases henough with hle | hnil
    · exact Int.ofNat_le.mp hle
    · have hnil' : stream = [] := hnil
      rw [hnil', List.flatten_nil, List.append_nil] at hcat
      rw [hcat]; exact h
  have hnot : ¬ ((buf.length : Int) < n) := by omega
  simp only [hnot, if_false, sliceTo_natCast, sliceFrom_natCast]
  refine ⟨{ p with buf := buf.drop n, stream := stream }, ?_, ?_, rfl, rfl⟩
  · rw [← hcat, List.take_append_of_le_length hlen]
  · rw [← hcat, List.drop_append_of_le_length hlen, pending]

/-- **`_read_buf` with too few bytes to come**: it raises what `receive`
raised, and has taken everything into the buffer. -/
theorem readBuf_of_lt {p : Protocol} {n : Nat} (h : p.pending.length < n) :
    p.readBuf n = (.error (receiveError p.eof), { p with buf := p.pending, stream := [] }) := by
  obtain ⟨buf, stream, hfill, hcat, henough⟩ := exists_fill n p
  rw [readBuf, hfill]
  have hle : buf.length ≤ p.pending.length := by
    rw [← hcat, List.length_append]; omega
  have hlt : (buf.length : Int) < n := by omega
  have hnil : stream = [] := by
    rcases henough with hge | hnil
    · exact absurd hge (Int.not_le.mpr hlt)
    · exact hnil
  rw [hnil, List.flatten_nil, List.append_nil] at hcat
  rw [hcat] at hlt
  simp only [hnil, hcat, hlt, if_true]

end Protocol

end AsyncOwfs
