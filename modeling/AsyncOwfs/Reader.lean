import AsyncOwfs.Message
import AsyncOwfs.Protocol.RoundTrip

/-!
# AsyncOwfs.Reader

`Server._reader`, what its end makes of `_run_one`, and which ends of `_run_one`
the loop of `_run_reconnected` takes for a disconnect.

The end of the stream is translated on the way up: `__anext__` turns it into
`StopAsyncIteration` at a header, `_reader` turns that into `ClosedResourceError`
and catches it again to cancel the task group.  Inside a payload none of this
happens, and the bare `EndOfStream` reaches a list of classes that lacks it.
-/

namespace AsyncOwfs

open Protocol

/-! ## The reader task -/

/-- The `else` branch of `_reader`: a reply goes to the oldest request.  On a
client `__anext__` returns pairs, so a `request` cannot be unpacked. -/
def handleReply (item : Item) (requests : List Message) : Except Exc (List Message) :=
  match item, requests with
  | .request .., _ => .error .typeError
  | .reply .., [] => .error .indexError
  | .reply res data, msg :: requests =>
    match msg.processReply res data with
    | .error e => .error e
    | .ok msg => if msg.done then .ok requests else .ok (msg :: requests)

/-- One turn of the `while` loop of `_reader`. -/
def readerTurn (p : Protocol) (requests : List Message) :
    Except Exc (List Message) × Protocol :=
  match p.anext with
  | (.error .stopAsyncIteration, p) => (.error .closedResource, p)
  | (.error .serverBusy, p) => (.ok requests, p)
  | (.error e, p) => (.error e, p)
  | (.ok item, p) => (handleReply item requests, p)

/-- The loop of `_reader`, for at most `fuel` turns: the exception that ends it. -/
def readerLoop : Nat → Protocol → List Message → Option Exc
  | 0, _, _ => none
  | fuel + 1, p, requests =>
    match readerTurn p requests with
    | (.error e, _) => some e
    | (.ok requests, p) => readerLoop fuel p requests

/-- `_reader` around its loop: a `ClosedResourceError` cancels the task group
and the reader returns, anything else goes through. -/
def readerEnd : Exc → Except Exc Unit
  | .closedResource => .ok ()
  | e => .error e

/-! ## The run task -/

/-- How a `_run_one` whose session is up ends, when it ends because of its
reader: a cancelled task group is left normally, an exception of a child is
raised by the group.  Every turn of the loop takes a header off the stream, so
the bytes to come bound the turns (`reconnects_iff`). -/
def runOne (p : Protocol) (requests : List Message) : Option (Except Exc Unit) :=
  (readerLoop (p.pending.length + 1) p requests).map readerEnd

/-- The classes that `_run_reconnected` lists. -/
def isDisconnect : Exc → Bool
  | .brokenPipe | .timeoutError | .incompleteRead | .connectionReset | .closedResource
  | .stopAsyncIteration => true
  | e => e.isEnvironmentError

/-- What `_run_reconnected` does after a `_run_one`. -/
inductive Next
  /-- Another turn of its loop at once. -/
  | again
  /-- Another turn after sleeping for `_backoff` seconds. -/
  | backoff
  /-- `val.set_error`: the first connection failed, `start` raises. -/
  | startFailed (e : Exc)
  /-- The exception leaves the task. -/
  | raised (e : Exc)
  deriving DecidableEq, Repr

/-- The `try` statement of `_run_reconnected`; `valPending` while `start` still
waits for the first connection. -/
def afterRunOne (valPending : Bool) : Except Exc Unit → Next
  | .ok _ => .again
  | .error .cancelled => .raised .cancelled
  | .error e =>
    if isDisconnect e then (if valPending then .startFailed e else .backoff)
    else .raised e

/-- The loop makes another connection attempt. -/
def Next.reconnects : Next → Bool
  | .again | .backoff => true
  | .startFailed _ | .raised _ => false

/-! ## Cutting a stream of frames -/

namespace Protocol.Frame

/-- The bytes of a frame on the wire. -/
def size (f : Frame) : Nat := 24 + f.payload.length

end Protocol.Frame

/-- The frames that lie entirely within the first `k` bytes. -/
def wholeFrames : List Frame → Nat → List Frame
  | [], _ => []
  | f :: fs, k => if f.size ≤ k then f :: wholeFrames fs (k - f.size) else []

/-- Byte position `k` is inside a payload: behind the header of a frame and
before the frame's end. -/
def CutInPayload : List Frame → Nat → Prop
  | [], _ => False
  | f :: fs, k => if f.size ≤ k then CutInPayload fs (k - f.size) else 24 ≤ k

/-- The frames answer the requests: every frame that is not a busy frame has a
request to answer, and is a reply that the request accepts. -/
def Answers : List Message → List Frame → Prop
  | _, [] => True
  | requests, f :: fs =>
    match f.data, requests with
    | none, _ => Answers requests fs
    | some _, [] => False
    | some data, msg :: requests =>
      (∃ msg', msg.processReply f.typ (data.take f.rlen.toNat) = .ok msg') ∧
        Answers requests fs

/-! ## One frame at a time -/

/-- A well-formed frame is 24 bytes and its payload. -/
theorem length_of_write {f : Frame} {b : Bytes} (hw : write f = .ok b) : b.length = f.size := by
  obtain ⟨hdr, hp, rfl⟩ := Frame.write_eq hw
  rw [List.length_append, Header.length_of_pack hp, Frame.size]

/-- Inside a payload, the end of the stream is not translated. -/
theorem readPayload_of_cut {f : Frame} {p : Protocol} (hwf : f.WellFormed)
    (hp : p.pending.length < f.payload.length) (he : p.eof = .endOfStream) :
    (p.readPayload f.header).1 = .error .endOfStream := by
  cases hd : f.data with
  | none => simp [Frame.payload, hd] at hp
  | some data =>
      have hpay : f.payload = data := by simp [Frame.payload, hd]
      rw [hpay] at hp
      have hsize := hwf.size_le data hd
      have hnotBusy : ¬ ((data.length : Int) = -1) := by omega
      have hnotLong : ¬ ((data.length : Int) > maxLength) := by omega
      simp only [readPayload, Frame.header, hd, hnotBusy, hnotLong, readBuf_of_lt hp, he,
        receiveError, ne_eq, not_true_eq_false, false_and, if_false]

/-- The reader's turn at a whole frame: a busy frame takes no request, a reply
takes the oldest one if that accepts it. -/
theorem readerTurn_of_write {f : Frame} {p : Protocol} {b rest : Bytes} (requests : List Message)
    (hwf : f.WellFormed) (hw : write f = .ok b) (hp : p.pending = b ++ rest)
    (hs : p.isServer = false) :
    ∃ p', p'.pending = rest ∧ p'.isServer = false ∧ p'.eof = p.eof ∧
      readerTurn p requests =
        (match f.data with
          | none => .ok requests
          | some data => handleReply (.reply f.typ (data.take f.rlen.toNat)) requests, p') := by
  obtain ⟨p', h, hrest, hs', he⟩ := anext_of_write hwf hw hp
  refine ⟨p', hrest, by rw [hs', hs], he, ?_⟩
  unfold readerTurn
  rw [h, hs, Frame.received]
  cases f.data <;> rfl

/-- The reader's turn where the stream ends, on a frame boundary or inside a
header. -/
theorem readerTurn_of_short {p : Protocol} {requests : List Message}
    (hlt : p.pending.length < 24) (he : p.eof = .endOfStream) :
    (readerTurn p requests).1 = .error .closedResource := by
  unfold readerTurn anext
  simp only [readBuf_of_lt hlt, he, receiveError]

/-- The reader's turn where the stream ends inside a payload. -/
theorem readerTurn_of_cut {f : Frame} {p : Protocol} {hdr rest : Bytes}
    {requests : List Message} (hwf : f.WellFormed) (hh : f.header.pack = .ok hdr)
    (hp : p.pending = hdr ++ rest) (hlt : rest.length < f.payload.length)
    (he : p.eof = .endOfStream) :
    (readerTurn p requests).1 = .error .endOfStream := by
  obtain ⟨p', h, hrest, -, he'⟩ :=
    anext_of_header (Header.length_of_pack hh) (Header.unpack_of_pack hh) hp
  have hcut := readPayload_of_cut (p := p') hwf (by rw [hrest]; exact hlt) (by rw [he', he])
  unfold readerTurn
  rw [h]
  generalize p'.readPayload f.header = r at hcut ⊢
  obtain ⟨r, q⟩ := r
  change r = _ at hcut
  rw [hcut]

/-! ## The whole stream -/

theorem mapM_error {f : α → Except ε β} {e : ε} {l : List α} (h : l.mapM f = .error e) :
    ∃ a ∈ l, f a = .error e := by
  induction l with
  | nil => simp [pure, Except.pure] at h
  | cons a l ih =>
      rw [List.mapM_cons] at h
      cases ha : f a with
      | error e' =>
          simp only [ha, bind, Except.bind, Except.error.injEq] at h
          exact ⟨a, List.mem_cons_self, by rw [ha, h]⟩
      | ok b =>
          cases hl : l.mapM f with
          | error e' =>
              simp only [ha, hl, bind, Except.bind, Except.error.injEq] at h
              obtain ⟨x, hx, hfx⟩ := ih (by rw [hl, h])
              exact ⟨x, List.mem_cons_of_mem a hx, hfx⟩
          | ok bs => simp [ha, hl, bind, Except.bind, pure, Except.pure] at h

/-- Apart from its assertions, only the decoder makes `process_reply` raise. -/
theorem processReply_error {m : Message} {res : Int} {data : Bytes} {e : Exc}
    (h : m.processReply res data = .error e) : e = .assertionError ∨ e = .unicodeDecodeError := by
  unfold Message.processReply at h
  split at h
  · simp at h
  · split at h
    · left; simpa using h.symm
    · split at h
      · next e' hp =>
          have he : e' = e := by simpa using h
          subst he
          unfold Message.process at hp
          split at hp
          · split at hp
            · simp at hp
            · cases hm : (data.splitOn 0x2C).mapM Message.processEntry with
              | ok l => simp [hm, Except.map] at hp
              | error e'' =>
                  have he : e'' = e' := by simpa [hm, Except.map] using hp
                  subst he
                  obtain ⟨entry, -, hentry⟩ := mapM_error hm
                  unfold Message.processEntry at hentry
                  split at hentry
                  · left; simpa using hentry.symm
                  · split at hentry
                    · right; simpa using hentry.symm
                    · simp at hentry
          · simp at hp
      · simp at h

/-- What `process_reply` raises leaves `_run_reconnected`. -/
theorem not_reconnects_of_handleReply {res : Int} {data : Bytes} {requests : List Message}
    {e : Exc} (h : handleReply (.reply res data) requests = .error e) :
    (afterRunOne false (readerEnd e)).reconnects = false := by
  cases requests with
  | nil =>
      have he : Exc.indexError = e := by simpa [handleReply] using h
      rw [← he]; rfl
  | cons msg requests =>
      cases hm : msg.processReply res data with
      | error e' =>
          have he : e' = e := by simpa [handleReply, hm] using h
          rcases processReply_error hm with h' | h' <;> rw [← he, h'] <;> rfl
      | ok msg' =>
          simp only [handleReply, hm, Message.done_of_processReply hm, if_true, reduceCtorEq] at h

theorem readerLoop_of_error {fuel : Nat} {p : Protocol} {requests : List Message} {e : Exc}
    (h : (readerTurn p requests).1 = .error e) : readerLoop (fuel + 1) p requests = some e := by
  unfold readerLoop
  generalize readerTurn p requests = r at h ⊢
  obtain ⟨r, q⟩ := r
  simp only at h
  simp only [h]

theorem readerLoop_of_ok {fuel : Nat} {p p' : Protocol} {requests requests' : List Message}
    (h : readerTurn p requests = (.ok requests', p')) :
    readerLoop (fuel + 1) p requests = readerLoop fuel p' requests' := by
  simp only [readerLoop, h]

/-- How `_reader` and then `_run_reconnected` fare with a stream that breaks
off behind `k` bytes of a list of frames. -/
theorem readerLoop_cut {frames : List Frame} (requests : List Message) {p : Protocol}
    {bytes : Bytes} {k fuel : Nat} (hwf : ∀ f ∈ frames, f.WellFormed)
    (hw : writeAll frames = .ok bytes) (hp : p.pending = bytes.take k)
    (hs : p.isServer = false) (he : p.eof = .endOfStream) (hfuel : p.pending.length < fuel) :
    ∃ e, readerLoop fuel p requests = some e ∧
      ((afterRunOne false (readerEnd e)).reconnects = true ↔
        ¬ CutInPayload frames k ∧ Answers requests (wholeFrames frames k)) := by
  induction frames generalizing requests p bytes k fuel with
  | nil =>
      obtain ⟨fuel, rfl⟩ : ∃ n, fuel = n + 1 := ⟨fuel - 1, by omega⟩
      have hnil : bytes = [] := by simpa [writeAll] using hw.symm
      have hlt : p.pending.length < 24 := by simp [hp, hnil]
      refine ⟨_, readerLoop_of_error (readerTurn_of_short hlt he), ?_⟩
      simp [readerEnd, afterRunOne, Next.reconnects, CutInPayload, wholeFrames, Answers]
  | cons f fs ih =>
      obtain ⟨fuel, rfl⟩ : ∃ n, fuel = n + 1 := ⟨fuel - 1, by omega⟩
      obtain ⟨b, bs, hf, hfs, hb⟩ := writeAll_cons hw
      have hlen := length_of_write hf
      have hwf₀ := hwf f List.mem_cons_self
      have hwf' := fun g hg => hwf g (List.mem_cons_of_mem f hg)
      by_cases hk : f.size ≤ k
      · -- the frame came in whole: one turn, and the rest by induction
        have hp' : p.pending = b ++ bs.take (k - f.size) := by
          rw [hp, hb, List.take_append, List.take_of_length_le (by omega), hlen]
        obtain ⟨p', hrest, hs', he', hturn⟩ :=
          readerTurn_of_write requests hwf₀ hf hp' hs
        have hfuel' : p'.pending.length < fuel := by
          have h1 := congrArg List.length hp'
          rw [List.length_append, hlen, ← hrest, Frame.size] at h1
          omega
        have hnext := fun rs => ih rs hwf' hfs hrest hs' (he'.trans he) hfuel'
        simp only [CutInPayload, wholeFrames, hk, if_true, Answers]
        cases hd : f.data with
        | none =>
            simp only [hd] at hturn ⊢
            rw [readerLoop_of_ok hturn]
            exact hnext requests
        | some data =>
            simp only [hd] at hturn ⊢
            cases requests with
            | nil =>
                have herr : handleReply (.reply f.typ (data.take f.rlen.toNat)) [] =
                    .error .indexError := rfl
                rw [herr] at hturn
                refine ⟨_, readerLoop_of_error (congrArg Prod.fst hturn), ?_⟩
                simp [not_reconnects_of_handleReply herr]
            | cons msg requests =>
                cases hm : msg.processReply f.typ (data.take f.rlen.toNat) with
                | error e =>
                    have herr : handleReply (.reply f.typ (data.take f.rlen.toNat))
                        (msg :: requests) = .error e := by simp [handleReply, hm]
                    rw [herr] at hturn
                    refine ⟨e, readerLoop_of_error (congrArg Prod.fst hturn), ?_⟩
                    simp only [not_reconnects_of_handleReply herr, hm, reduceCtorEq, exists_false,
                      false_and, and_false]
                | ok msg' =>
                    have hok : handleReply (.reply f.typ (data.take f.rlen.toNat))
                        (msg :: requests) = .ok requests := by
                      simp [handleReply, hm, Message.done_of_processReply hm]
                    rw [hok] at hturn
                    rw [readerLoop_of_ok hturn]
                    simpa only [hm, Except.ok.injEq, exists_eq', true_and] using hnext requests
      · -- the stream breaks off inside this frame
        have hp' : p.pending = b.take k := by
          rw [hp, hb, List.take_append_of_le_length (by omega)]
        simp only [CutInPayload, wholeFrames, hk, if_false, Answers, and_true]
        by_cases hk' : 24 ≤ k
        · obtain ⟨hdr, hh, hbytes⟩ := Frame.write_eq hf
          have hhdr := Header.length_of_pack hh
          have hp'' : p.pending = hdr ++ f.payload.take (k - 24) := by
            rw [hp', hbytes, List.take_append, List.take_of_length_le (by omega), hhdr]
          have hlt : (f.payload.take (k - 24)).length < f.payload.length := by
            rw [List.length_take]; rw [Frame.size] at hk; omega
          refine ⟨_, readerLoop_of_error (readerTurn_of_cut hwf₀ hh hp'' hlt he), ?_⟩
          simp [hk', readerEnd, afterRunOne, isDisconnect, Exc.isEnvironmentError,
            Next.reconnects]
        · have hlt : p.pending.length < 24 := by
            rw [hp', List.length_take]; omega
          refine ⟨_, readerLoop_of_error (readerTurn_of_short hlt he), ?_⟩
          simp [hk', readerEnd, afterRunOne, Next.reconnects]

/-- **A connection lost at any byte**: the run task goes on to another
connection exactly when the stream does not break off inside a payload, and the
replies that came in whole answered their requests. -/
theorem reconnects_iff (frames : List Frame) (requests : List Message) (chunks : List Bytes)
    (k : Nat) {bytes : Bytes} (hwf : ∀ f ∈ frames, f.WellFormed)
    (hw : writeAll frames = .ok bytes) (hcut : chunks.flatten = bytes.take k) :
    ∃ e, runOne (start false chunks .endOfStream) requests = some e ∧
      ((afterRunOne false e).reconnects = true ↔
        ¬ CutInPayload frames k ∧ Answers requests (wholeFrames frames k)) := by
  obtain ⟨e, h, hiff⟩ := readerLoop_cut requests hwf hw
    (p := start false chunks .endOfStream) hcut rfl rfl (Nat.lt_succ_self _)
  exact ⟨readerEnd e, by rw [runOne, h]; rfl, hiff⟩

/-- A reply of one byte. -/
def nopReply : Frame := ⟨1, 0, 1, some [0x31], 0⟩

theorem nopReply_wellFormed : nopReply.WellFormed := by
  constructor <;> simp [nopReply, maxLength]

/-- Two replies, of which the first came in whole and of the second only half
of the header: the connection is made again. -/
theorem reconnects_header_cut :
    ∃ e, runOne (start false [[0, 0, 0, 0, 0, 0, 0, 1, 0, 0, 0, 1, 0], [0, 0, 0, 0, 0, 0, 1],
          [0, 0, 0, 0, 0x31, 0, 0, 0, 0, 0]] .endOfStream) [nopMsg, nopMsg] = some e ∧
      (afterRunOne false e).reconnects = true := by
  have hwf : ∀ f ∈ [nopReply, nopReply], f.WellFormed := by simp [nopReply_wellFormed]
  have hcond : ¬ CutInPayload [nopReply, nopReply] 30 ∧
      Answers [nopMsg, nopMsg] (wholeFrames [nopReply, nopReply] 30) := by
    constructor
    · simp [CutInPayload, Frame.size, Frame.payload, nopReply]
    · exact ⟨⟨_, rfl⟩, trivial⟩
  have hw : writeAll [nopReply, nopReply] = .ok
      [0, 0, 0, 0, 0, 0, 0, 1, 0, 0, 0, 1, 0, 0, 0, 0, 0, 0, 0, 1, 0, 0, 0, 0, 0x31,
        0, 0, 0, 0, 0, 0, 0, 1, 0, 0, 0, 1, 0, 0, 0, 0, 0, 0, 0, 1, 0, 0, 0, 0, 0x31] := by decide
  obtain ⟨e, h, hiff⟩ := reconnects_iff [nopReply, nopReply] [nopMsg, nopMsg]
    [[0, 0, 0, 0, 0, 0, 0, 1, 0, 0, 0, 1, 0], [0, 0, 0, 0, 0, 0, 1],
      [0, 0, 0, 0, 0x31, 0, 0, 0, 0, 0]] 30 hwf hw (by decide)
  exact ⟨e, h, hiff.mpr hcond⟩

/-- A reply whose payload is missing, behind its complete header: the exception
leaves the run task. -/
theorem not_reconnects_payload_cut :
    nopReply.WellFormed ∧ Answers [nopMsg] [nopReply] ∧
      (write nopReply).map (List.take 24) =
        .ok [0, 0, 0, 0, 0, 0, 0, 1, 0, 0, 0, 1, 0, 0, 0, 0, 0, 0, 0, 1, 0, 0, 0, 0] ∧
      (runOne (start false [[0, 0, 0, 0, 0, 0, 0, 1, 0, 0, 0, 1, 0, 0, 0, 0, 0, 0, 0, 1,
        0, 0, 0, 0]] .endOfStream) [nopMsg]).map (afterRunOne false) =
          some (.raised .endOfStream) := by
  refine ⟨nopReply_wellFormed, ⟨⟨_, rfl⟩, trivial⟩, ?_, ?_⟩
  · decide
  · decide +kernel

end AsyncOwfs
