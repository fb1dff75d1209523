import AsyncOwfs.Mock
import AsyncOwfs.Protocol.RoundTrip

/-!
# AsyncOwfs.Mock.Session

A client and `some_server` at the two ends of a connection.  The client sends one
request and waits for its answer (`Session.chat`); what either side sends arrives in
whatever chunks the connection makes of it.

Between two requests nothing is left in the buffers (`Session.Idle`).  From such a
state the bytes can be forgotten: what becomes of a request is a function of the
server's reply to it (`chat_eq_settle`).
-/

namespace AsyncOwfs

open Protocol

namespace Mock

/-- How one direction of a connection cuts what is sent. -/
structure Wire where
  cut : Bytes → List Bytes
  flatten_cut : ∀ b, (cut b).flatten = b

/-- A connection: the way to the server, and the way back. -/
structure Link where
  up : Wire
  down : Wire

/-- A connection that does not cut. -/
instance : Inhabited Wire := ⟨⟨fun b => [b], fun _ => List.flatten_singleton⟩⟩

instance : Inhabited Link := ⟨⟨default, default⟩⟩

/-- Bytes are sent to the other end. -/
def Wire.deliver (w : Wire) (b : Bytes) (p : Protocol) : Protocol :=
  { p with stream := p.stream ++ w.cut b }

structure Session where
  tree : Tree
  server : Protocol
  /-- What the server's task ended with. -/
  ended : Option Exc := none
  client : Protocol

namespace Session

/-- A new connection.  When the server ends it closes the socket, so that the stream of
the client ends, too. -/
def start (tree : Tree) : Session where
  tree
  server := Protocol.start true [] .endOfStream
  client := Protocol.start false [] .endOfStream

/-- The reply is sent, or the server ends. -/
def reply (down : Wire) (s : Session) : Except Exc (Frame × Tree) → Session
  | .error e => { s with ended := some e }
  | .ok (f, tree) =>
    match Protocol.write f with
    | .error e => { s with tree, ended := some e }
    | .ok b => { s with tree, client := down.deliver b s.client }

/-- One pass of the server's loop. -/
def serve (down : Wire) (s : Session) : Session :=
  match s.server.anext with
  | (.error e, server) => { s with server, ended := some e }
  -- two values do not unpack into four
  | (.ok (.reply _ _), server) => { s with server, ended := some .valueError }
  | (.ok (.request command flags data offset), server) =>
    reply down { s with server } (respond s.tree command flags data offset)

/-- The client processes what it reads as the answer to a message. -/
def receive (m : Message) (s : Session) : Except Exc ValueEvent × Session :=
  match s.client.anext with
  | (.error e, client) => (.error e, { s with client })
  -- four values do not unpack into two
  | (.ok (.request ..), client) => (.error .valueError, { s with client })
  | (.ok (.reply res data), client) =>
    ((m.processReply res data).map Message.event, { s with client })

/-- The client sends a message and waits for the answer.  A server that has ended does
not read the request. -/
def chat (l : Link) (m : Message) (s : Session) : Except Exc ValueEvent × Session :=
  match Protocol.write m.frame with
  | .error e => (.error e, s)
  | .ok b =>
    receive m
      (if s.ended.isSome then s else serve l.down { s with server := l.up.deliver b s.server })

/-- `attr_get(*path)` -/
def attrGet (l : Link) (path : List String) (s : Session) :
    Except Exc ValueEvent × Session :=
  match attrGetMsg path with
  | .error e => (.error e, s)
  | .ok m => s.chat l m

/-- `attr_set(*path, value=value)` -/
def attrSet (l : Link) (path : List String) (value : SetValue) (s : Session) :
    Except Exc ValueEvent × Session :=
  s.chat l (attrSetMsg path value)

/-- `dir(*path)` -/
def dir (l : Link) (path : List String) (s : Session) : Except Exc ValueEvent × Session :=
  s.chat l (dirMsg path)

/-! ## Between two requests -/

/-- The server waits for a request, and nothing is on its way. -/
structure Idle (s : Session) : Prop where
  ended : s.ended = none
  server : s.server.pending = []
  isServer : s.server.isServer = true
  client : s.client.pending = []
  isClient : s.client.isServer = false
  eof : s.client.eof = .endOfStream

/-- A new session waits for requests. -/
theorem idle_start (tree : Tree) : (start tree).Idle := by constructor <;> rfl

end Session

/-- What arrives is all there is to read. -/
theorem pending_deliver {w : Wire} {b : Bytes} {p : Protocol} (h : p.pending = []) :
    (w.deliver b p).pending = b ++ [] := by
  obtain ⟨hbuf, hstream⟩ := List.append_eq_nil_iff.mp h
  rw [Wire.deliver, pending, List.flatten_append, hbuf, hstream, w.flatten_cut, List.append_nil]
  rfl

/-- The frames of the client's messages and of the server's replies: they have a
payload, and no length without one. -/
structure Plain (f : Frame) : Prop where
  data_eq : f.data = some f.payload
  rlen_nonneg : 0 ≤ f.rlen
  rlen_of_empty : f.payload = [] → f.rlen = 0

/-- A plain frame that fits is well formed. -/
theorem Plain.wellFormed {f : Frame} (h : Plain f) (hlen : f.payload.length ≤ maxLength) :
    f.WellFormed where
  rlen_nonneg := h.rlen_nonneg
  size_le data hd := by
    rw [h.data_eq, Option.some.injEq] at hd
    exact hd ▸ hlen
  rlen_of_empty hd := by
    rw [h.data_eq, Option.some.injEq] at hd
    exact h.rlen_of_empty hd
  of_none hd := by
    rw [h.data_eq] at hd
    exact absurd hd (Option.some_ne_none _)

/-! ## Without the bytes -/

/-- What a client makes of a message that the server replies to with `reply`. -/
def settle (m : Message) (reply : Except Exc Frame) : Except Exc ValueEvent :=
  match Protocol.write m.frame with
  | .error e => .error e
  | .ok _ =>
    if maxLength < m.data.length then .error .stopAsyncIteration
    else
      match reply with
      | .error _ => .error .stopAsyncIteration
      | .ok f =>
        match Protocol.write f with
        | .error _ => .error .stopAsyncIteration
        | .ok _ =>
          if maxLength < f.payload.length then
            .error (.runtimeError
              s!"Server tried to send too much: {(f.payload.length : Int)}")
          else (m.processReply f.typ (f.payload.take f.rlen.toNat)).map Message.event

/-- A reply that can be sent and is not too long is processed. -/
theorem settle_of_write {m : Message} {f : Frame} {b b' : Bytes}
    (hw : Protocol.write m.frame = .ok b) (hm : m.data.length ≤ maxLength)
    (hw' : Protocol.write f = .ok b') (hf : f.payload.length ≤ maxLength) :
    settle m (.ok f) =
      (m.processReply f.typ (f.payload.take f.rlen.toNat)).map Message.event := by
  unfold settle
  rw [hw]
  refine (if_neg (Nat.not_lt.mpr hm)).trans ?_
  simp only [hw']
  exact if_neg (Nat.not_lt.mpr hf)

/-- A frame without data is plain. -/
theorem plain_nil (typ flags : Int) : Plain { typ, flags } where
  data_eq := rfl
  rlen_nonneg := Int.le_refl 0
  rlen_of_empty _ := rfl

/-- A frame with data and a zero behind it is plain. -/
theorem plain_data (typ flags : Int) (data : Bytes) :
    Plain { typ, flags, rlen := data.length, data := some (data ++ [0]) } where
  data_eq := rfl
  rlen_nonneg := Int.natCast_nonneg _
  rlen_of_empty h := absurd h (List.concat_ne_nil 0 data)

/-- What has returned has come through its first part. -/
theorem exists_of_bind_eq_ok {α β : Type} {r : Except Exc α} {f : α → Except Exc β} {b : β}
    (h : (r >>= f) = .ok b) : ∃ a, r = .ok a ∧ f a = .ok b := by
  cases r with
  | error e => exact nomatch h
  | ok a => exact ⟨a, rfl, h⟩

/-- Every reply is plain. -/
theorem plain_of_respond {t t' : Tree} {command flags offset : Int} {data : Bytes} {f : Frame}
    (h : respond t command flags data offset = .ok (f, t')) : Plain f := by
  unfold respond at h
  split at h
  · injection h with h
    exact (Prod.mk.inj h).1 ▸ plain_nil _ flags
  · unfold handle at h
    split at h
    · injection h with h
      exact (Prod.mk.inj h).1 ▸ plain_nil 0 flags
    split at h
    · obtain ⟨res, -, h⟩ := exists_of_bind_eq_ok h
      injection h with h
      exact (Prod.mk.inj h).1 ▸ plain_data 0 flags res
    split at h
    · obtain ⟨res, -, h⟩ := exists_of_bind_eq_ok h
      injection h with h
      exact (Prod.mk.inj h).1 ▸ plain_data 0 flags res
    split at h
    · obtain ⟨t', -, h⟩ := exists_of_bind_eq_ok h
      injection h with h
      exact (Prod.mk.inj h).1 ▸ plain_nil 0 flags
    · exact nomatch h

/-- What the server does with the bytes of a message. -/
theorem serve_of_write {s : Session} {m : Message} {b : Bytes}
    (hm : Plain m.frame) (hw : Protocol.write m.frame = .ok b)
    (hp : s.server.pending = b ++ []) (hs : s.server.isServer = true) (down : Wire) :
    (maxLength < m.data.length ∧
      ∃ server e, s.serve down = { s with server, ended := some e }) ∨
    (m.data.length ≤ maxLength ∧
      ∃ server : Protocol, server.pending = [] ∧ server.isServer = true ∧
        s.serve down =
          ({ s with server } : Session).reply down
            (respond s.tree m.typ requestFlags m.data m.rlen)) := by
  by_cases hlong : maxLength < m.data.length
  · obtain ⟨p, hp⟩ := anext_of_long rfl hlong hw hp
    exact .inl ⟨hlong, p, _, by rw [Session.serve, hp]⟩
  · have hle : m.data.length ≤ maxLength := Nat.not_lt.mp hlong
    obtain ⟨p, hp, hrest, hs', -⟩ := anext_of_write (hm.wellFormed hle) hw hp
    refine .inr ⟨hle, p, hrest, hs'.trans hs, ?_⟩
    rw [Session.serve, hp, hs]
    rfl

/-- Without a reply, the connection is over. -/
theorem receive_of_nil {s : Session} (m : Message) (hp : s.client.pending = [])
    (he : s.client.eof = .endOfStream) : (s.receive m).1 = .error .stopAsyncIteration := by
  rw [Session.receive, anext_of_nil hp he]

/-- What the client does with the bytes of a reply. -/
theorem receive_of_write {s : Session} {f : Frame} {b : Bytes} (m : Message) (hf : Plain f)
    (hw : Protocol.write f = .ok b) (hp : s.client.pending = b ++ [])
    (hs : s.client.isServer = false) :
    (maxLength < f.payload.length ∧ (s.receive m).1 =
      .error (.runtimeError s!"Server tried to send too much: {(f.payload.length : Int)}")) ∨
    (f.payload.length ≤ maxLength ∧
      ∃ client : Protocol, client.pending = [] ∧ client.isServer = false ∧
        client.eof = s.client.eof ∧
        s.receive m = ((m.processReply f.typ (f.payload.take f.rlen.toNat)).map Message.event,
          { s with client })) := by
  by_cases hlong : maxLength < f.payload.length
  · obtain ⟨p, hp⟩ := anext_of_long hf.data_eq hlong hw hp
    exact .inl ⟨hlong, by rw [Session.receive, hp]⟩
  · have hle : f.payload.length ≤ maxLength := Nat.not_lt.mp hlong
    obtain ⟨p, hp, hrest, hs', he⟩ := anext_of_write (hf.wellFormed hle) hw hp
    refine .inr ⟨hle, p, hrest, hs'.trans hs, he, ?_⟩
    rw [Session.receive, hp, hs, Frame.received, hf.data_eq]
    rfl

/-- From a session between two requests, the server gets to work. -/
theorem chat_of_idle {s : Session} (h : s.Idle) {m : Message} {b : Bytes}
    (hw : Protocol.write m.frame = .ok b) (l : Link) :
    s.chat l m =
      (({ s with server := l.up.deliver b s.server } : Session).serve l.down).receive m := by
  have hnot : ¬ (s.ended.isSome = true) := by
    rw [h.ended]
    exact Bool.false_ne_true
  rw [Session.chat, hw]
  exact congrArg (Session.receive m) (if_neg hnot)

/-- **Transparency of the wire**: between two requests, a message comes to what the
server's reply makes of it. -/
theorem chat_eq_settle {s : Session} (h : s.Idle) {m : Message} (hm : Plain m.frame)
    (l : Link) :
    (s.chat l m).1 =
      settle m ((respond s.tree m.typ requestFlags m.data m.rlen).map Prod.fst) := by
  cases hw : Protocol.write m.frame with
  | error e =>
      unfold Session.chat settle
      rw [hw]
  | ok b =>
      rw [chat_of_idle h hw]
      unfold settle
      rw [hw]
      rcases serve_of_write (s := { s with server := l.up.deliver b s.server }) hm hw
        (pending_deliver h.server) h.isServer l.down with
        ⟨hlong, p, e, hserve⟩ | ⟨hle, p, -, -, hserve⟩
      · rw [hserve]
        exact Eq.trans (receive_of_nil m (by exact h.client) h.eof) (if_pos hlong).symm
      · refine Eq.trans ?_ (if_neg (Nat.not_lt.mpr hle)).symm
        rw [hserve]
        cases hr : respond s.tree m.typ requestFlags m.data m.rlen with
        | error e => exact receive_of_nil m h.client h.eof
        | ok r =>
            obtain ⟨f, t⟩ := r
            have hf := plain_of_respond hr
            cases hwf : Protocol.write f with
            | error e =>
                simp only [Session.reply, hwf, Except.map]
                exact receive_of_nil m h.client h.eof
            | ok b' =>
                simp only [Session.reply, hwf, Except.map]
                rcases receive_of_write
                  (s := ⟨t, p, s.ended, l.down.deliver b' s.client⟩) m hf hwf
                  (pending_deliver h.client) h.isClient with
                  ⟨hlong, hrec⟩ | ⟨hle, client, -, -, -, hrec⟩
                · exact hrec.trans (if_pos hlong).symm
                · refine Eq.trans ?_ (if_neg (Nat.not_lt.mpr hle)).symm
                  rw [hrec]
                  rfl

/-- **A message that is answered** leaves the session between two requests, with the
tree that the server has made. -/
theorem idle_chat {s : Session} (h : s.Idle) {m : Message} (hm : Plain m.frame) {b b' : Bytes}
    (hw : Protocol.write m.frame = .ok b) (hlen : m.data.length ≤ maxLength) {f : Frame}
    {t : Tree} (hr : respond s.tree m.typ requestFlags m.data m.rlen = .ok (f, t))
    (hwf : Protocol.write f = .ok b') (hflen : f.payload.length ≤ maxLength) (l : Link) :
    (s.chat l m).2.Idle ∧ (s.chat l m).2.tree = t := by
  rw [chat_of_idle h hw]
  rcases serve_of_write (s := { s with server := l.up.deliver b s.server }) hm hw
    (pending_deliver h.server) h.isServer l.down with
    ⟨hlong, -⟩ | ⟨-, p, hrest, hserver, hserve⟩
  · exact absurd hlen (Nat.not_le.mpr hlong)
  · rw [hserve, hr, Session.reply, hwf]
    rcases receive_of_write (s := ⟨t, p, s.ended, l.down.deliver b' s.client⟩) m
      (plain_of_respond hr) hwf (pending_deliver h.client) h.isClient with
      ⟨hlong, -⟩ | ⟨-, client, hpend, hclient, heof, hrec⟩
    · exact absurd hflen (Nat.not_le.mpr hlong)
    · have hrec' : (Session.receive m ⟨t, p, s.ended, l.down.deliver b' s.client⟩).2 =
          ⟨t, p, s.ended, client⟩ := congrArg Prod.snd hrec
      refine ⟨?_, congrArg Session.tree hrec'⟩
      show Session.Idle (Session.receive m ⟨t, p, s.ended, l.down.deliver b' s.client⟩).2
      rw [hrec']
      exact ⟨h.ended, hrest, hserver, hpend, hclient, heof.trans h.eof⟩

/-- What `chat` returns to its caller, or raises.  Requests are complete with any reply. -/
def answer : Except Exc ValueEvent → Except Exc Value
  | .ok (some r) => r
  | .ok none => .error .futuresCancelled
  | .error e => .error e

/-- A message that a server with this tree can read, and reply to. -/
structure Handled (tree : Tree) (m : Message) (f : Frame) (t : Tree) : Prop where
  plain : Plain m.frame
  write : ∃ b, Protocol.write m.frame = .ok b
  length_le : m.data.length ≤ maxLength
  respond : respond tree m.typ requestFlags m.data m.rlen = .ok (f, t)
  reply : ∃ b, Protocol.write f = .ok b
  reply_le : f.payload.length ≤ maxLength

/-- Such a message is answered. -/
theorem Handled.chat {s : Session} {m : Message} {f : Frame} {t : Tree}
    (h : Handled s.tree m f t) (hs : s.Idle) (l : Link) :
    ∃ s' : Session, s.chat l m = (settle m (.ok f), s') ∧ s'.Idle ∧ s'.tree = t := by
  obtain ⟨b, hw⟩ := h.write
  obtain ⟨b', hwf⟩ := h.reply
  obtain ⟨hidle, htree⟩ := idle_chat hs h.plain hw h.length_le h.respond hwf h.reply_le l
  have hsettle := chat_eq_settle hs h.plain l
  rw [h.respond] at hsettle
  exact ⟨(s.chat l m).2, Prod.ext hsettle rfl, hidle, htree⟩

end Mock

end AsyncOwfs
