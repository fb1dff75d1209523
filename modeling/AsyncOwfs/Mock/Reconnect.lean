import AsyncOwfs.Mock.Agree
import AsyncOwfs.Mock.Options

/-!
# AsyncOwfs.Mock.Reconnect

What the options of `some_server` do to a request of a client that connects again.

Being busy or slow does not change anything.  A server that closes connections is asked
again, until it lets the beginning of a connection and the request behind it pass: the
request is answered if and only if it passes at once or there is a gap of two in the flags
(`answered_iff_gap`).  The answer is that of a server without options then, and the server
has done once what it was asked for.
-/

namespace AsyncOwfs

open Protocol

namespace Mock

/-! ## Flags -/

namespace Cycle

variable {α : Type} (v : Cycle α)

/-- There is a flag. -/
theorem length_pos : 0 < v.flags.length := List.length_pos_iff.mpr v.ne

/-- The flag that is used after `k` others. -/
def nth (k : Nat) : α :=
  v.flags.get ⟨(v.position - 1 + k) % v.flags.length, Nat.mod_lt _ v.length_pos⟩

/-- The next flag is the one at the position. -/
theorem next_fst : v.next.1 = v.nth 0 := by
  have hlt := v.position_lt
  simp only [next, nth, Nat.add_zero, Nat.mod_eq_of_lt hlt]

/-- Behind the last flag comes the first one. -/
theorem position_next : v.next.2.position - 1 = v.position % v.flags.length := by
  have hbounds := v.position_bounds
  by_cases hend : v.position = v.flags.length
  · have hpos : v.next.2.position = 1 := by
      simp [next, position] at hend ⊢
      omega
    rw [hpos, hend, Nat.mod_self]
  · have hpos : v.next.2.position = v.position + 1 := by
      have hlt : ¬ v.flags.length + 1 ≤ v.position + 1 := by omega
      rw [position]
      exact if_neg hlt
    rw [hpos, Nat.mod_eq_of_lt (by omega)]
    omega

/-- A flag that has been used is behind us. -/
theorem nth_next (k : Nat) : v.next.2.nth k = v.nth (k + 1) := by
  have hbounds := v.position_bounds
  have hmod : (v.next.2.position - 1 + k) % v.flags.length =
      (v.position - 1 + (k + 1)) % v.flags.length := by
    rw [position_next, Nat.mod_add_mod]
    congr 1
    omega
  simp only [nth]
  congr 2

/-- Two flags in a row, over the end of the array, that let something pass. -/
def HasGap (v : Cycle Bool) : Prop :=
  ∃ p < v.flags.length,
    v.flags[p]? = some false ∧ v.flags[(p + 1) % v.flags.length]? = some false

/-- The flags come round. -/
theorem nth_eq_iff {v : Cycle α} {k : Nat} {a : α} :
    v.nth k = a ↔ v.flags[(v.position - 1 + k) % v.flags.length]? = some a := by
  have hlt := Nat.mod_lt (v.position - 1 + k) v.length_pos
  rw [List.getElem?_eq_getElem hlt, Option.some.injEq]
  rfl

/-- Two flags in a row that are not set are a gap. -/
theorem hasGap_of_nth {v : Cycle Bool} {j : Nat} (hfirst : v.nth j = false)
    (hsecond : v.nth (j + 1) = false) : v.HasGap := by
  rw [nth_eq_iff] at hfirst hsecond
  exact ⟨_, Nat.mod_lt _ v.length_pos, hfirst, by rw [Nat.mod_add_mod]; exact hsecond⟩

/-- The gap comes before the flags begin again. -/
theorem HasGap.exists_nth {v : Cycle Bool} (h : v.HasGap) :
    ∃ j, 1 ≤ j ∧ j ≤ v.flags.length ∧ v.nth j = false ∧ v.nth (j + 1) = false := by
  obtain ⟨p, hp, hfirst, hsecond⟩ := h
  have hbounds := v.position_bounds
  have hdist : ∃ j, 1 ≤ j ∧ j ≤ v.flags.length ∧
      (v.position - 1 + j) % v.flags.length = p := by
    by_cases hle : v.position ≤ p
    · refine ⟨p - (v.position - 1), by omega, by omega, ?_⟩
      have hsum : v.position - 1 + (p - (v.position - 1)) = p := by omega
      rw [hsum, Nat.mod_eq_of_lt hp]
    · refine ⟨p + v.flags.length - (v.position - 1), by omega, by omega, ?_⟩
      have hsum : v.position - 1 + (p + v.flags.length - (v.position - 1)) =
          p + v.flags.length := by omega
      rw [hsum, Nat.add_mod_right, Nat.mod_eq_of_lt hp]
  obtain ⟨j, hpos, hle, hmod⟩ := hdist
  refine ⟨j, hpos, hle, nth_eq_iff.mpr (by rw [hmod, hfirst]), nth_eq_iff.mpr ?_⟩
  rw [← Nat.add_assoc, ← Nat.mod_add_mod, hmod, hsecond]

end Cycle

/-! ## What the checks do -/

/-- Whether the server closes the connection at its `k`-th check from now. -/
def Options.closes (o : Options) (k : Nat) : Bool :=
  match o.close with
  | none => false
  | some v => v.nth k

/-- The check for closing uses the next flag. -/
theorem chk_close (o : Options) : (chk o.close).1 = o.closes 0 := by
  unfold Options.closes
  cases o.close with
  | none => rfl
  | some v => exact v.next_fst

/-- A check for closing uses up a flag. -/
theorem closes_next {o o' : Options} (h : o'.close = (chk o.close).2) (k : Nat) :
    o'.closes k = o.closes (k + 1) := by
  unfold Options.closes
  rw [h]
  cases o.close with
  | none => rfl
  | some v => exact v.nth_next k

namespace Served

/-- The connection is open, and the server waits for a request. -/
structure Up (x : Served) : Prop where
  idle : x.session.Idle
  closed : x.closed = false

/-- What arrives comes behind what has not been read. -/
theorem pending_deliver_append (w : Wire) (b : Bytes) (p : Protocol) :
    (w.deliver b p).pending = p.pending ++ b := by
  simp [Wire.deliver, pending, w.flatten_cut]

/-- A busy frame is a header. -/
theorem exists_write_busy :
    ∃ b, Protocol.write (busyFrame requestFlags) = .ok b ∧ b.length = 24 ∧
      (busyFrame requestFlags).WellFormed := by
  refine ⟨_, rfl, by decide, ?_⟩
  constructor <;> simp [busyFrame]

/-- What is in front of the reply does not get to the message. -/
theorem awaitReply_of_reply {m : Message} {s : Session} (fuel : Nat)
    (h : s.client.anext.1 ≠ .error .serverBusy) : awaitReply m fuel s = s.receive m := by
  cases fuel with
  | zero => rfl
  | succ fuel =>
      unfold awaitReply
      split
      · next client hbusy => simp [hbusy] at h
      · rfl

/-- The state of the connection behind the checks of a pass. -/
theorem checkBusy_spec (down : Wire) {x : Served}
    (hclient : x.session.client.pending = []) (hserver : x.session.client.isServer = false) :
    ∃ busy : Bytes, (busy = [] ∨ Protocol.write (busyFrame requestFlags) = .ok busy) ∧
      ∃ client : Protocol, client.pending = busy ∧ client.isServer = false ∧
        client.eof = x.session.client.eof ∧
        (x.checkBusy down requestFlags).session = { x.session with client } ∧
        (x.checkBusy down requestFlags).options.close = x.options.close ∧
        (x.checkBusy down requestFlags).closed = x.closed := by
  obtain ⟨b, hw, -, -⟩ := exists_write_busy
  unfold checkBusy
  by_cases hbusy : (chk x.options.busy).1 = true
  · refine ⟨b, .inr hw, down.deliver b x.session.client, ?_, hserver, rfl, ?_, ?_, ?_⟩
    · rw [pending_deliver_append, hclient, List.nil_append]
    all_goals simp [hbusy, Session.reply, hw]
  · refine ⟨[], .inl rfl, x.session.client, hclient, hserver, rfl, ?_, ?_, ?_⟩ <;> simp [hbusy]

/-- A busy frame in front of what is pending is passed over. -/
theorem awaitReply_of_busy (m : Message) {s : Session} {busy rest : Bytes}
    (hbusy : busy = [] ∨ Protocol.write (busyFrame requestFlags) = .ok busy)
    (hp : s.client.pending = busy ++ rest) :
    ∃ (fuel : Nat) (client : Protocol), client.pending = rest ∧
      client.isServer = s.client.isServer ∧ client.eof = s.client.eof ∧
      awaitReply m s.client.pending.length s = awaitReply m fuel { s with client } := by
  rcases hbusy with rfl | hw
  · exact ⟨_, s.client, hp, rfl, rfl, rfl⟩
  · obtain ⟨b, hw', hlen, hwf⟩ := exists_write_busy
    have hb : b = busy := by
      rw [hw, Except.ok.injEq] at hw'
      exact hw'.symm
    subst hb
    obtain ⟨client, hanext, hrest, hserver, heof⟩ := anext_of_write hwf hw hp
    have hsucc : ∃ fuel, s.client.pending.length = fuel + 1 := by
      refine ⟨s.client.pending.length - 1, ?_⟩
      rw [hp, List.length_append]
      omega
    obtain ⟨fuel, hfuel⟩ := hsucc
    refine ⟨fuel, client, hrest, hserver, heof, ?_⟩
    rw [hfuel, awaitReply, hanext]
    rfl

/-- A connection that the server closes instead of a reply. -/
theorem awaitReply_of_closed (m : Message) {s : Session} {busy : Bytes}
    (hbusy : busy = [] ∨ Protocol.write (busyFrame requestFlags) = .ok busy)
    (hp : s.client.pending = busy) (he : s.client.eof = .endOfStream) :
    ∃ client, awaitReply m s.client.pending.length s =
      (.error .stopAsyncIteration, { s with client }) := by
  have happ : s.client.pending = busy ++ [] := by rw [hp, List.append_nil]
  obtain ⟨fuel, client, hnil, -, heof, hawait⟩ := awaitReply_of_busy m hbusy happ
  have hanext := anext_of_nil hnil (heof.trans he)
  refine ⟨{ client with buf := [], stream := [] }, ?_⟩
  rw [hawait, awaitReply_of_reply fuel (by simp [hanext]), Session.receive]
  simp only [hanext]

/-- A reply behind the busy frame. -/
theorem awaitReply_of_answer (m : Message) {s : Session} {busy b' : Bytes}
    (hbusy : busy = [] ∨ Protocol.write (busyFrame requestFlags) = .ok busy) {f : Frame}
    (hf : Plain f) (hwf : Protocol.write f = .ok b') (hflen : f.payload.length ≤ maxLength)
    (hp : s.client.pending = busy ++ b') (hs : s.client.isServer = false) :
    ∃ client : Protocol, client.pending = [] ∧ client.isServer = false ∧
      client.eof = s.client.eof ∧
      awaitReply m s.client.pending.length s =
        ((m.processReply f.typ (f.payload.take f.rlen.toNat)).map Message.event,
          { s with client }) := by
  obtain ⟨fuel, client, hrest, hserver, heof, hawait⟩ := awaitReply_of_busy m hbusy hp
  have happ : client.pending = b' ++ [] := by rw [hrest, List.append_nil]
  obtain ⟨client', hanext, -⟩ := anext_of_write (hf.wellFormed hflen) hwf happ
  have hnot : client.anext.1 ≠ .error .serverBusy := by
    rw [hanext]
    simp [Frame.received, hf.data_eq, hserver, hs]
  rw [hawait, awaitReply_of_reply fuel hnot]
  rcases receive_of_write (s := { s with client }) m hf hwf happ (hserver.trans hs) with
    ⟨hlong, -⟩ | ⟨-, client', hnil, hisc, heof', hreceive⟩
  · exact absurd hflen (Nat.not_le.mpr hlong)
  · exact ⟨client', hnil, hisc, heof'.trans heof, hreceive⟩

/-- A pass of the server's loop for a message that can be answered. -/
theorem serve_of_request {x : Served} {m : Message} (hm : Plain m.frame) {b : Bytes}
    (hw : Protocol.write m.frame = .ok b) (hlen : m.data.length ≤ maxLength)
    (hp : x.session.server.pending = b ++ []) (hs : x.session.server.isServer = true)
    (hended : x.session.ended = none) (hclient : x.session.client.pending = [])
    (hc : x.session.client.isServer = false) (down : Wire) :
    ∃ (busy : Bytes) (server client : Protocol),
      (busy = [] ∨ Protocol.write (busyFrame requestFlags) = .ok busy) ∧
      server.pending = [] ∧ server.isServer = true ∧ client.pending = busy ∧
      client.isServer = false ∧ client.eof = x.session.client.eof ∧
      (∀ k, (serve down x).options.closes k = x.options.closes (k + 1)) ∧
      (serve down x).closed = x.options.closes 0 ∧
      (serve down x).session =
        if x.options.closes 0 then { x.session with server, client }
        else ({ x.session with server, client } : Session).reply down
          (respond x.session.tree m.typ requestFlags m.data m.rlen) := by
  obtain ⟨server, hanext, hrest, hserver, -⟩ := anext_of_write (hm.wellFormed hlen) hw hp
  have hreq : x.session.server.anext =
      (.ok (.request m.typ requestFlags m.data m.rlen), server) := by
    rw [hanext, hs]
    rfl
  obtain ⟨busy, hbusy, client, hpend, hisc, heof, hsession, hclose, -⟩ :=
    checkBusy_spec (x := { x with session := { x.session with server } }) down hclient hc
  refine ⟨busy, server, client, hbusy, hrest, hserver.trans hs, hpend, hisc, heof, ?_⟩
  generalize hx : checkBusy down requestFlags { x with session := { x.session with server } } = z
    at hsession hclose
  have hnot : z.session.ended.isSome = false := by simp [hsession, hended]
  have hserve : serve down x =
      if z.checkClose.closed then z.checkClose
      else { z.checkClose with
        session := z.checkClose.session.reply down
          (respond z.checkClose.session.tree m.typ requestFlags m.data m.rlen) } := by
    simp [serve, hreq, hx, hnot]
  have hclosed : z.checkClose.closed = x.options.closes 0 := by
    rw [← chk_close, checkClose, hclose]
  have hnext : ∀ k, z.checkClose.options.closes k = x.options.closes (k + 1) := by
    apply closes_next
    simp only [checkClose, hclose]
  have hkept : z.checkClose.session = { x.session with server, client } := hsession
  rw [hserve, hclosed]
  cases h0 : x.options.closes 0 with
  | true => simp [hnext, hclosed, h0, hkept]
  | false => simp [hnext, hclosed, h0, hkept]

/-- **A request over a connection that is up**: the server closes it, or answers. -/
theorem request_of_up {x : Served} (h : x.Up) {m : Message} (hm : Plain m.frame) {b b' : Bytes}
    (hw : Protocol.write m.frame = .ok b) (hlen : m.data.length ≤ maxLength) {f : Frame}
    {t : Tree} (hr : respond x.session.tree m.typ requestFlags m.data m.rlen = .ok (f, t))
    (hwf : Protocol.write f = .ok b') (hflen : f.payload.length ≤ maxLength) (l : Link) :
    ∃ y : Served, (∀ k, y.options.closes k = x.options.closes (k + 1)) ∧
      (x.options.closes 0 = true → x.request l m = (.error .stopAsyncIteration, y) ∧
        y.closed = true ∧ y.session.tree = x.session.tree) ∧
      (x.options.closes 0 = false → x.request l m = (settle m (.ok f), y) ∧ y.Up ∧
        y.session.tree = t) := by
  have hserve := serve_of_request
    (x := { x with session := { x.session with server := l.up.deliver b x.session.server } })
    hm hw hlen (pending_deliver h.idle.server) h.idle.isServer h.idle.ended h.idle.client
    h.idle.isClient l.down
  generalize hz : serve l.down
    { x with session := { x.session with server := l.up.deliver b x.session.server } } = z
    at hserve
  obtain ⟨busy, server, client, hbusy, hrest, hserver, hpend, hisc, heof, hnext, hclosed,
    hsession⟩ := hserve
  have hrequest : x.request l m =
      ((awaitReply m z.session.client.pending.length z.session).1,
        { z with session := (awaitReply m z.session.client.pending.length z.session).2 }) := by
    simp [request, hw, h.closed, h.idle.ended, ← hz]
  rw [hrequest]
  refine ⟨{ z with session := (awaitReply m z.session.client.pending.length z.session).2 },
    hnext, fun h0 => ?_, fun h0 => ?_⟩
  · rw [if_pos h0] at hsession
    obtain ⟨client', hawait⟩ := awaitReply_of_closed m hbusy (s := z.session)
      (by simp [hsession, hpend]) (by simp [hsession, heof, h.idle.eof])
    have htree : (awaitReply m z.session.client.pending.length z.session).2.tree =
        x.session.tree := by rw [hawait, hsession]
    exact ⟨by rw [hawait], hclosed.trans h0, htree⟩
  · have hopen : z.session =
        { x.session with tree := t, server, client := l.down.deliver b' client } := by
      simpa [h0, hr, Session.reply, hwf] using hsession
    obtain ⟨client', hnil, hisc', heof', hawait⟩ := awaitReply_of_answer m hbusy
      (plain_of_respond hr) hwf hflen (s := z.session)
      (by rw [hopen, pending_deliver_append, hpend]) (by simp [hopen, Wire.deliver, hisc])
    have heof₀ : client'.eof = .endOfStream := by
      rw [heof', hopen]
      exact heof.trans h.idle.eof
    have hafter : (awaitReply m z.session.client.pending.length z.session).2 =
        { x.session with tree := t, server, client := client' } := by rw [hawait, hopen]
    rw [hafter, hawait, settle_of_write hw hlen hwf hflen]
    exact ⟨rfl, ⟨⟨h.idle.ended, hrest, hserver, hnil, hisc', heof₀⟩, hclosed.trans h0⟩, rfl⟩

/-! ## Over any number of connections -/

/-- The outcome is that of a server without options, and the connection is still up. -/
structure Answered (m : Message) (f : Frame) (t : Tree)
    (r : Except Exc ValueEvent × Served) : Prop where
  reply : r.1 = settle m (.ok f)
  up : r.2.Up
  tree : r.2.session.tree = t

/-- A new connection has used up a flag. -/
theorem closes_connect (tree : Tree) (o : Options) (k : Nat) :
    (connect tree o).options.closes k = o.closes (k + 1) := closes_next rfl k

/-- A new connection stays up if the flag is not set. -/
theorem up_connect {o : Options} (h : o.closes 0 = false) (tree : Tree) :
    (connect tree o).Up := ⟨Session.idle_start tree, (chk_close o).trans h⟩

/-- A connection that is closed at once is followed by another one. -/
theorem chat_of_closed {o : Options} (h : o.closes 0 = true) (tree : Tree) {m : Message}
    (hw : ∃ b, Protocol.write m.frame = .ok b) (fuel : Nat) (l : Nat → Link) :
    (connect tree o).chat m (fuel + 1) l =
      (connect tree (connect tree o).options).chat m fuel fun k => l (k + 1) := by
  obtain ⟨b, hw⟩ := hw
  have hclosed : (connect tree o).closed = true := (chk_close o).trans h
  obtain ⟨client, hawait⟩ := awaitReply_of_closed m (.inl rfl) (s := (connect tree o).session)
    rfl rfl
  have hrequest : (connect tree o).request (l 0) m =
      (.error .stopAsyncIteration,
        { connect tree o with session := { (connect tree o).session with client } }) := by
    simp [request, hw, hclosed, hawait]
  rw [chat, hrequest]
  simp [hclosed]
  rfl

/-- A connection that is up is answered, or followed by another one. -/
theorem chat_of_up {x : Served} (h : x.Up) {m : Message} {f : Frame} {t : Tree}
    (hm : Handled x.session.tree m f t) (fuel : Nat) (l : Nat → Link) :
    (x.options.closes 0 = false ∧ ∃ r, x.chat m (fuel + 1) l = some r ∧ Answered m f t r) ∨
    (x.options.closes 0 = true ∧ ∃ o : Options, (∀ k, o.closes k = x.options.closes (k + 1)) ∧
      x.chat m (fuel + 1) l =
        (connect x.session.tree o).chat m fuel fun k => l (k + 1)) := by
  obtain ⟨b, hw⟩ := hm.write
  obtain ⟨b', hwf⟩ := hm.reply
  obtain ⟨y, hnext, hclose, hopen⟩ :=
    request_of_up h hm.plain hw hm.length_le hm.respond hwf hm.reply_le (l 0)
  cases h0 : x.options.closes 0 with
  | true =>
      obtain ⟨hrequest, hclosed, htree⟩ := hclose h0
      refine .inr ⟨rfl, y.options, hnext, ?_⟩
      rw [chat, hrequest]
      simp [hclosed, htree]
  | false =>
      obtain ⟨hrequest, hup, htree⟩ := hopen h0
      refine .inl ⟨rfl, (settle m (.ok f), y), ?_, ⟨rfl, hup, htree⟩⟩
      rw [chat, hrequest]
      generalize settle m (.ok f) = r
      split
      · next y' heq =>
          obtain ⟨rfl, rfl⟩ := Prod.mk.inj heq
          simp [hup.closed]
      · rfl

/-- **A new connection**, and those that follow it: there is an answer if and only if the
beginning of one of them and the request behind it are let pass. -/
theorem chat_connect {tree : Tree} {m : Message} {f : Frame} {t : Tree}
    (hm : Handled tree m f t) (o : Options) (fuel : Nat) (l : Nat → Link) :
    (∀ j < fuel, o.closes j = false → o.closes (j + 1) = false →
      ((connect tree o).chat m fuel l).isSome) ∧
    ∀ r, (connect tree o).chat m fuel l = some r →
      (∃ j, o.closes j = false ∧ o.closes (j + 1) = false) ∧ Answered m f t r := by
  induction fuel generalizing o l with
  | zero => simp [chat]
  | succ fuel ih =>
      cases h0 : o.closes 0 with
      | true =>
          rw [chat_of_closed h0 tree hm.write]
          obtain ⟨ihGap, ihAnswer⟩ := ih (connect tree o).options fun k => l (k + 1)
          simp only [closes_connect] at ihGap ihAnswer
          constructor
          · intro j hj hfirst hsecond
            cases j with
            | zero => simp [h0] at hfirst
            | succ j => exact ihGap j (by omega) hfirst hsecond
          · intro r hr
            obtain ⟨⟨j, hfirst, hsecond⟩, hanswer⟩ := ihAnswer r hr
            exact ⟨⟨j + 1, hfirst, hsecond⟩, hanswer⟩
      | false =>
          rcases chat_of_up (up_connect h0 tree) hm fuel l with
            ⟨h1, r, hr, hanswer⟩ | ⟨h1, o', hnext, hchat⟩
          · rw [closes_connect] at h1
            simp only [hr, Option.some.injEq]
            exact ⟨fun _ _ _ _ => rfl, fun _ h => h ▸ ⟨⟨0, h0, h1⟩, hanswer⟩⟩
          · rw [hchat]
            obtain ⟨ihGap, ihAnswer⟩ := ih o' fun k => l (k + 1)
            simp only [hnext, closes_connect] at h1 ihGap ihAnswer
            constructor
            · intro j hj hfirst hsecond
              cases j with
              | zero => simp [h1] at hsecond
              | succ j =>
                  cases j with
                  | zero => simp [h1] at hfirst
                  | succ j => exact ihGap j (by omega) hfirst hsecond
            · intro r hr
              obtain ⟨⟨j, hfirst, hsecond⟩, hanswer⟩ := ihAnswer r hr
              exact ⟨⟨j + 2, hfirst, hsecond⟩, hanswer⟩

/-- The connections behind one that is up. -/
theorem chat_spec {x : Served} (h : x.Up) {m : Message} {f : Frame} {t : Tree}
    (hm : Handled x.session.tree m f t) (fuel : Nat) (l : Nat → Link) :
    (x.options.closes 0 = false → (x.chat m (fuel + 1) l).isSome) ∧
    (∀ j, 1 ≤ j → j ≤ fuel → x.options.closes j = false → x.options.closes (j + 1) = false →
      (x.chat m (fuel + 1) l).isSome) ∧
    ∀ r, x.chat m (fuel + 1) l = some r →
      (x.options.closes 0 = false ∨
        ∃ j, 1 ≤ j ∧ x.options.closes j = false ∧ x.options.closes (j + 1) = false) ∧
      Answered m f t r := by
  rcases chat_of_up h hm fuel l with ⟨h0, r, hr, hanswer⟩ | ⟨h0, o, hnext, hchat⟩
  · simp only [hr, Option.some.injEq]
    exact ⟨fun _ => rfl, fun _ _ _ _ _ => rfl, fun _ heq => heq ▸ ⟨.inl h0, hanswer⟩⟩
  · rw [hchat]
    obtain ⟨hgap, hanswer⟩ := chat_connect hm o fuel fun k => l (k + 1)
    simp only [hnext] at hgap hanswer
    refine ⟨fun h1 => absurd h1 (by simp [h0]), ?_, ?_⟩
    · intro j hpos hle hfirst hsecond
      obtain ⟨j, rfl⟩ : ∃ i, j = i + 1 := ⟨j - 1, by omega⟩
      exact hgap j (by omega) hfirst hsecond
    · intro r hr
      obtain ⟨⟨j, hfirst, hsecond⟩, ha⟩ := hanswer r hr
      exact ⟨.inr ⟨j + 1, by omega, hfirst, hsecond⟩, ha⟩

/-- **Asking again**: a message is answered if and only if it is let pass at once, or there
is a gap of two in the flags.  It takes no more new connections than there are flags.  The
answer and the tree are those of a server without options. -/
theorem answered_iff_gap {x : Served} (h : x.Up) {m : Message} {f : Frame} {t : Tree}
    (hm : Handled x.session.tree m f t) (l : Nat → Link) :
    ((∃ fuel r, x.chat m fuel l = some r) ↔
      (chk x.options.close).1 = false ∨ ∃ v, x.options.close = some v ∧ v.HasGap) ∧
    (∀ v, x.options.close = some v → v.HasGap →
      (x.chat m (v.flags.length + 1) l).isSome) ∧
    ∀ fuel r, x.chat m fuel l = some r → r.2.Up ∧
      ∀ l', r.1 = (x.session.chat l' m).1 ∧
        r.2.session.tree = (x.session.chat l' m).2.tree := by
  have hgap : ∀ v, x.options.close = some v → v.HasGap →
      (x.chat m (v.flags.length + 1) l).isSome := by
    intro v hv hgap
    obtain ⟨j, hpos, hle, hfirst, hsecond⟩ := hgap.exists_nth
    have hcloses : ∀ k, x.options.closes k = v.nth k := by simp [Options.closes, hv]
    exact (chat_spec h hm v.flags.length l).2.1 j hpos hle (by rw [hcloses, hfirst])
      (by rw [hcloses, hsecond])
  rw [chk_close]
  refine ⟨⟨?_, ?_⟩, hgap, ?_⟩
  · intro ⟨fuel, r, hr⟩
    cases fuel with
    | zero => simp [chat] at hr
    | succ fuel =>
        obtain ⟨hpass | ⟨j, hpos, hfirst, hsecond⟩, -⟩ := (chat_spec h hm fuel l).2.2 r hr
        · exact .inl hpass
        · cases hclose : x.options.close with
          | none => simp [Options.closes, hclose]
          | some v =>
              simp only [Options.closes, hclose] at hfirst hsecond
              exact .inr ⟨v, rfl, Cycle.hasGap_of_nth hfirst hsecond⟩
  · intro hor
    rcases hor with hpass | ⟨v, hv, hg⟩
    · exact ⟨1, Option.isSome_iff_exists.mp ((chat_spec h hm 0 l).1 hpass)⟩
    · exact ⟨_, Option.isSome_iff_exists.mp (hgap v hv hg)⟩
  · intro fuel r hr
    cases fuel with
    | zero => simp [chat] at hr
    | succ fuel =>
        obtain ⟨-, hreply, hup, htree⟩ := (chat_spec h hm fuel l).2.2 r hr
        obtain ⟨b, hw⟩ := hm.write
        obtain ⟨b', hwf⟩ := hm.reply
        refine ⟨hup, fun l' => ⟨?_, ?_⟩⟩
        · rw [hreply, chat_eq_settle h.idle hm.plain, hm.respond]
          rfl
        · rw [htree]
          exact (idle_chat h.idle hm.plain hw hm.length_le hm.respond hwf hm.reply_le l').2.symm

/-- The flags with which the tests disconnect. -/
def disconnectFlags : Cycle Bool where
  last := 0
  flags := [false, true, false, false]
  ne := List.cons_ne_nil _ _

def disconnecting : Served := connect basicTree { close := some disconnectFlags }

/-- The bus can be listed. -/
theorem handled_dir : Handled basicTree (dirMsg ["bus.0"])
    { typ := 0, flags := requestFlags, rlen := 19,
      data := some (Utf8.encode "/bus.0/10.345678.90" ++ [0]) } basicTree :=
  ⟨plain_dirMsg _, ⟨_, rfl⟩, by decide, rfl, ⟨_, rfl⟩, by decide⟩

/-- The client asks for the bus, is disconnected, and has the answer on a later connection. -/
theorem answered_iff_gap_disconnecting :
    disconnecting.options.closes 0 = true ∧
    (disconnecting.chat (dirMsg ["bus.0"]) 5 fun _ => default).isSome :=
  ⟨by decide, (answered_iff_gap (x := disconnecting) (up_connect rfl basicTree) handled_dir
    fun _ => default).2.1 disconnectFlags.next.2 rfl ⟨2, by decide, rfl, rfl⟩⟩

end Served

end Mock

end AsyncOwfs
