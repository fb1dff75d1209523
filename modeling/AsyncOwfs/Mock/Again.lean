import AsyncOwfs.Mock.Listing
import AsyncOwfs.Protocol.Framing

/-!
# AsyncOwfs.Mock.Again

A request whose answer gets lost is sent again over the next connection, so the server may
be asked for the same thing several times.

That does not matter: a request that is answered is answered in the same way after it has
been carried out (`respond_again`), unless it cuts the branch that it sits on.  So whatever
connections are lost in front of it, the client gets the answer that it would have got at
once, and the tree is what one request has made of it (`answered_once`).
-/

namespace AsyncOwfs

open Protocol

namespace Mock

/-! ## The same request again -/

/-- No dictionary contains itself, at any depth. -/
def Tree.Acyclic (t : Tree) : Prop :=
  ∀ ⦃i : Nat⦄ ⦃k : String⦄ ⦃n : Node⦄, (t.dicts i).get? k = some n →
    ∀ ls, t.at? n ls ≠ some (.dict i)

section Again

variable {t t' : Tree} {i : Nat} {k : String} {m : Node}

/-- The same again changes nothing. -/
theorem put_put (t : Tree) (i : Nat) (k : String) (m : Node) :
    (t.put i k m).put i k m = t.put i k m := by
  simp [Tree.put, Dict.set_set]

/-- Where the loop of `write` ends can be reached from where it is. -/
theorem exists_at?_of_descendLast {ks : List Bytes} {n res : Node} {l : String}
    {last : Option String} (h : descendLast t n (some l) ks = .ok (res, last)) :
    ∃ ls, t.at? n ls = some res := by
  induction ks generalizing n l with
  | nil =>
      injection h with h
      injection h with h
      exact ⟨[], by cases n <;> simp [Tree.at?, ← h]⟩
  | cons b ks ih =>
      rw [descendLast] at h
      obtain ⟨n', hn', h⟩ := exists_of_bind_eq_ok h
      obtain ⟨l', -, h⟩ := exists_of_bind_eq_ok h
      obtain ⟨ls, hls⟩ := ih h
      cases n with
      | dict j =>
          cases hget : (t.dicts j).get? l with
          | none => simp [Tree.item, hget, orNoEntry] at hn'
          | some n₁ =>
              simp only [Tree.item, hget, orNoEntry, Except.ok.injEq] at hn'
              exact ⟨l :: ls, by rw [Tree.at?, hget, Option.bind_some, hn', hls]⟩
      | _ => simp [Tree.item, orNoEntry] at hn'

/-- An assignment does not get into the way to its own slot. -/
theorem descendLast_put (ht : t.Acyclic) {ks : List Bytes} {n : Node} {l : String}
    (h : descendLast t n (some l) ks = .ok (.dict i, some k)) :
    descendLast (t.put i k m) n (some l) ks = .ok (.dict i, some k) := by
  induction ks generalizing n l with
  | nil => exact h
  | cons b ks ih =>
      rw [descendLast] at h ⊢
      obtain ⟨n', hn', h⟩ := exists_of_bind_eq_ok h
      obtain ⟨l', hl', h⟩ := exists_of_bind_eq_ok h
      obtain ⟨ls, hls⟩ := exists_at?_of_descendLast h
      have hstep : orNoEntry ((t.put i k m).item n l) = .ok n' := by
        cases n with
        | dict j =>
            have hslot : ¬ (j = i ∧ l = k) := by
              rintro ⟨rfl, rfl⟩
              cases hget : (t.dicts j).get? l with
              | none => simp [Tree.item, hget, orNoEntry] at hn'
              | some n₁ =>
                  simp only [Tree.item, hget, orNoEntry, Except.ok.injEq] at hn'
                  exact ht hget ls (hn' ▸ hls)
            rw [← hn', Tree.item, Tree.item, get?_put, if_neg hslot]
        | _ => exact hn'
      rw [hstep, hl']
      exact ih h

/-- A slot is where it was after it has been written to. -/
theorem descendLast_none_put (ht : t.Acyclic) {ks : List Bytes} {n : Node}
    (h : descendLast t n none ks = .ok (.dict i, some k)) :
    descendLast (t.put i k m) n none ks = .ok (.dict i, some k) := by
  cases ks with
  | nil => simp [descendLast] at h
  | cons b ks =>
      rw [descendLast] at h ⊢
      obtain ⟨l, hl, h⟩ := exists_of_bind_eq_ok h
      rw [hl]
      exact descendLast_put ht h

/-- **A write** can be done again, and changes nothing more. -/
theorem write_again (ht : t.Acyclic) {data : Bytes} {offset : Int}
    (h : write t data offset = .ok t') : write t' data offset = .ok t' := by
  rw [write] at h
  obtain ⟨val, hval, h⟩ := exists_of_bind_eq_ok h
  obtain ⟨⟨res, last⟩, hloop, h⟩ := exists_of_bind_eq_ok h
  cases last with
  | none => contradiction
  | some k =>
      obtain ⟨found, hfound, h⟩ := exists_of_bind_eq_ok h
      cases found with
      | false => contradiction
      | true =>
          cases res with
          | dict i =>
              injection h with h
              subst h
              have hloop' := descendLast_none_put (m := .text val) ht hloop
              have hfound' : (t.put i k (.text val)).contains (.dict i) k = .ok true := by
                simp [Tree.contains, get?_put]
              have hassign : (t.put i k (.text val)).assign (.dict i) k val =
                  .ok (t.put i k (.text val)) := congrArg Except.ok (put_put t i k _)
              rw [write, hval]
              show ((descendLast (t.put i k (.text val)) (.dict t.root) none _).bind _) = _
              rw [hloop']
              show (((t.put i k (.text val)).contains (.dict i) k).bind fun found =>
                if found then (t.put i k (.text val)).assign (.dict i) k val
                else .error noEntryError) = _
              rw [hfound']
              exact hassign
          | _ => contradiction

/-- Only a `write` changes the tree. -/
theorem respond_cases {command flags offset : Int} {data : Bytes} {f : Frame}
    (h : respond t command flags data offset = .ok (f, t')) :
    t' = t ∨ command = OWMsg.write ∧ f = { typ := 0, flags } ∧ write t data offset = .ok t' := by
  unfold respond at h
  split at h
  · injection h with h
    exact .inl (Prod.mk.inj h).2.symm
  · unfold handle at h
    split at h
    · injection h with h
      exact .inl (Prod.mk.inj h).2.symm
    split at h
    · obtain ⟨res, -, h⟩ := exists_of_bind_eq_ok h
      injection h with h
      exact .inl (Prod.mk.inj h).2.symm
    split at h
    · obtain ⟨res, -, h⟩ := exists_of_bind_eq_ok h
      injection h with h
      exact .inl (Prod.mk.inj h).2.symm
    split at h
    · next hcommand =>
      obtain ⟨t₁, hwrite, h⟩ := exists_of_bind_eq_ok h
      injection h with h
      obtain ⟨rfl, rfl⟩ := Prod.mk.inj h
      exact .inr ⟨hcommand, rfl, hwrite⟩
    · contradiction

/-- **A request is idempotent**: asked again it gets the same reply, and nothing changes. -/
theorem respond_again (ht : t.Acyclic) {command flags offset : Int} {data : Bytes} {f : Frame}
    (h : respond t command flags data offset = .ok (f, t')) :
    respond t' command flags data offset = .ok (f, t') := by
  rcases respond_cases h with rfl | ⟨rfl, rfl, hwrite⟩
  · exact h
  · exact respond_write_of_ok flags (write_again ht hwrite)

end Again

/-! ## Connections that are lost -/

/-- How much of a request or of its reply gets through before the connection is lost: fewer
than the 24 bytes of a header.  A frame that is cut within its payload raises `EndOfStream`
instead of `StopAsyncIteration`; the run task does not catch it, and does not connect again. -/
inductive Loss
  | request (n : Fin 24)
  /-- The server has read the request. -/
  | reply (n : Fin 24)
  deriving DecidableEq, Repr

/-- Only the first bytes of what has been sent arrive. -/
def Wire.truncate (w : Wire) (n : Nat) (p : Protocol) : Protocol :=
  { p with buf := [], stream := w.cut (p.pending.take n) }

namespace Session

/-- A message is sent over a connection that is lost. -/
def chatLost (l : Link) (loss : Loss) (m : Message) (s : Session) :
    Except Exc ValueEvent × Session :=
  match Protocol.write m.frame with
  | .error e => (.error e, s)
  | .ok b =>
    match loss with
    | .request n =>
      (serve l.down { s with server := l.up.deliver (b.take n) s.server }).receive m
    | .reply n =>
      let s := serve l.down { s with server := l.up.deliver b s.server }
      ({ s with client := l.down.truncate n s.client } : Session).receive m

/-- `chat`, with a run task that connects again and sends the message once more: all
connections but the last one are lost. -/
def chatAgain (m : Message) : List (Link × Loss) → Link → Session → Except Exc ValueEvent × Session
  | [], l, s => s.chat l m
  | (l, loss) :: rest, l', s =>
    match s.chatLost l loss m with
    | (.error .stopAsyncIteration, s) => chatAgain m rest l' (start s.tree)
    | r => r

end Session

section Lost

variable {s : Session} {m : Message} {f : Frame} {t : Tree}

/-- Only the first bytes are left to read. -/
theorem pending_truncate (w : Wire) (n : Nat) (p : Protocol) :
    (w.truncate n p).pending = p.pending.take n := by
  simp [Wire.truncate, pending, w.flatten_cut]

/-- Too few bytes for a header end the connection. -/
theorem receive_of_short {s : Session} (m : Message) (hp : s.client.pending.length < 24)
    (he : s.client.eof = .endOfStream) :
    ∃ s', s.receive m = (.error .stopAsyncIteration, s') ∧ s'.tree = s.tree := by
  refine ⟨{ s with client := s.client.drained }, ?_, rfl⟩
  rw [Session.receive, anext_of_short hp, he]
  rfl

/-- **A lost connection** tells the client nothing, and the server has done nothing or
what it was asked for. -/
theorem chatLost_spec (h : s.Idle) (hm : Handled s.tree m f t) (l : Link) (loss : Loss) :
    ∃ s', s.chatLost l loss m = (.error .stopAsyncIteration, s') ∧
      (s'.tree = s.tree ∨ s'.tree = t) := by
  obtain ⟨b, hw⟩ := hm.write
  obtain ⟨b', hwf⟩ := hm.reply
  cases loss with
  | request n =>
      have hp : (l.up.deliver (b.take n) s.server).pending.length < 24 := by
        rw [pending_deliver h.server, List.append_nil, List.length_take]
        omega
      obtain ⟨s', hreceive, htree⟩ := receive_of_short (s := { s with
          server := (l.up.deliver (b.take n) s.server).drained
          ended := some (headerError (l.up.deliver (b.take n) s.server).eof) }) m
        (by simp [h.client]) h.eof
      refine ⟨s', ?_, .inl htree⟩
      simp only [Session.chatLost, hw, Session.serve, anext_of_short hp]
      exact hreceive
  | reply n =>
      rcases serve_of_write (s := { s with server := l.up.deliver b s.server }) hm.plain hw
        (pending_deliver h.server) h.isServer l.down with
        ⟨hlong, -⟩ | ⟨-, server, -, -, hserve⟩
      · exact absurd hm.length_le (Nat.not_le.mpr hlong)
      · simp only [hm.respond, Session.reply, hwf] at hserve
        have hshort : (l.down.truncate n (l.down.deliver b' s.client)).pending.length < 24 := by
          rw [pending_truncate, List.length_take]
          omega
        obtain ⟨s', hreceive, htree⟩ := receive_of_short
          (s := ⟨t, server, s.ended, l.down.truncate n (l.down.deliver b' s.client)⟩) m hshort h.eof
        refine ⟨s', ?_, .inr htree⟩
        simp only [Session.chatLost, hw, hserve]
        exact hreceive

/-- It can be asked for again afterwards. -/
theorem Handled.again (hm : Handled s.tree m f t) (ht : s.tree.Acyclic) : Handled t m f t :=
  { hm with respond := respond_again ht hm.respond }

/-- What is handled in the same way before and after it has been carried out. -/
theorem chatAgain_spec (h : s.Idle) (hm : Handled s.tree m f t) (hagain : Handled t m f t)
    (losses : List (Link × Loss)) (l : Link) :
    ∃ s', s.chatAgain m losses l = (settle m (.ok f), s') ∧ s'.Idle ∧ s'.tree = t := by
  induction losses generalizing s with
  | nil => exact hm.chat h l
  | cons loss losses ih =>
      obtain ⟨s', hlost, htree⟩ := chatLost_spec h hm loss.1 loss.2
      have hm' : Handled s'.tree m f t := by
        rcases htree with htree | htree
        · exact htree ▸ hm
        · exact htree ▸ hagain
      obtain ⟨s'', hchat, hidle, htree'⟩ := ih (s := .start s'.tree) (Session.idle_start _) hm'
      refine ⟨s'', ?_, hidle, htree'⟩
      simp only [Session.chatAgain, hlost]
      exact hchat

/-- **Once is enough**: however many connections are lost in front of or behind a request,
its answer and the tree are those of a connection that is not. -/
theorem answered_once (h : s.Idle) (ht : s.tree.Acyclic) (hm : Handled s.tree m f t)
    (losses : List (Link × Loss)) (l l' : Link) :
    (s.chatAgain m losses l).1 = (s.chat l' m).1 ∧
      (s.chatAgain m losses l).2.tree = (s.chat l' m).2.tree ∧ (s.chatAgain m losses l).2.Idle := by
  obtain ⟨s₁, hagain, hidle, htree⟩ := chatAgain_spec h hm (hm.again ht) losses l
  obtain ⟨s₂, hchat, -, htree'⟩ := hm.chat h l'
  rw [hagain, hchat]
  exact ⟨rfl, htree.trans htree'.symm, hidle⟩

end Lost

/-- Dictionaries that only contain later ones. -/
theorem acyclic_of_lt {t : Tree}
    (h : ∀ ⦃i : Nat⦄ ⦃k : String⦄ ⦃j : Nat⦄, (t.dicts i).get? k = some (.dict j) → i < j) :
    t.Acyclic := by
  have hle {n : Node} {ls : List String} {i j : Nat} (hn : n = .dict j)
      (hat : t.at? n ls = some (.dict i)) : j ≤ i := by
    induction ls generalizing n j with
    | nil =>
        subst hn
        simp only [Tree.at?, Option.some.injEq, Node.dict.injEq] at hat
        omega
    | cons k ls ih =>
        subst hn
        simp only [Tree.at?] at hat
        obtain ⟨n, hget, hat⟩ := Option.bind_eq_some_iff.mp hat
        cases n with
        | dict j' =>
            have hlt := h hget
            have hle' := ih rfl hat
            omega
        | _ => cases ls <;> simp [Tree.at?] at hat
  intro i k n hget ls hat
  cases n with
  | dict j =>
      have hlt := h hget
      have hle' := hle rfl hat
      omega
  | _ => cases ls <;> simp [Tree.at?] at hat

/-- The tree has no cycles. -/
theorem acyclic_basicTree : basicTree.Acyclic := by
  have hempty : (∅ : Dict String Node).entries = [] := rfl
  refine acyclic_of_lt fun i k j hget => ?_
  rcases i with _ | _ | _ | i <;>
    simp [basicTree, Dict.get?, Dict.lookup_cons_eq_ite, hempty] at hget <;> grind

/-- The temperature can be set. -/
theorem handled_temperature :
    ∃ f t, Handled basicTree
      (attrSetMsg ["bus.0", "10.345678.90", "temperature"] (.text "98.25")) f t :=
  ⟨_, _, plain_attrSetMsg _ _, ⟨_, rfl⟩, by decide, rfl, ⟨_, rfl⟩, by decide⟩

/-- A temperature is set: the first request is lost, the second one's reply. -/
theorem answered_once_temperature :
    ((Session.start basicTree).chatAgain
        (attrSetMsg ["bus.0", "10.345678.90", "temperature"] (.text "98.25"))
        [(default, .request 3), (default, .reply 5)] default).2.tree =
      ((Session.start basicTree).chat default
        (attrSetMsg ["bus.0", "10.345678.90", "temperature"] (.text "98.25"))).2.tree := by
  obtain ⟨f, t, hm⟩ := handled_temperature
  exact (answered_once (Session.idle_start basicTree) acyclic_basicTree hm _ default default).2.1

end Mock

end AsyncOwfs
