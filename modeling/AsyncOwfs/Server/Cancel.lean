import AsyncOwfs.Server.Requests

/-!
# AsyncOwfs.Server.Cancel

What is written for a message whose fate is settled.  A completed message is
nowhere any more, so nothing writes it again.  One whose caller gave up stays
where it is; the re-send loop looks before it begins to send, the writer does not look.
So a frame is written for nobody exactly when the caller gave up in front of the writer:
in `_wqueue`, in its hand, or while the re-send loop waited for room in `_wqueue`.
-/

namespace AsyncOwfs

namespace Server

open Transition

/-- A frame is written only for a message that somebody waits for. -/
def WritesPending (s : Server) : Action → Prop
  | .append => ∀ id ∈ s.hand, (s.msg id).Pending
  | _ => True

/-- The message that is written was not given up while it was in `_wqueue`, in the writer's
hand or in the re-send loop, which had found its caller waiting and was waiting itself. -/
def NotAbandoned (s : Server) : Action → Prop
  | .append => ∀ id ∈ s.hand, id ∉ s.abandoned
  | _ => True

instance (s : Server) (a : Action) : Decidable (WritesPending s a) := by
  unfold WritesPending
  split <;> infer_instance

/-- In front of the writer, exactly the abandoned messages have been given up. -/
structure Sorted (s : Server) : Prop where
  queued : ∀ x ∈ s.front, (s.msg x).cancelled = true → x ∈ s.abandoned
  abandoned : ∀ x ∈ s.abandoned, (s.msg x).cancelled = true ∧ x < s.nextId

/-- Completed messages are nowhere, unless they were given up as well. -/
def Popped (s : Server) : Prop :=
  ∀ x, 0 < s.held x → (s.msg x).done = true → (s.msg x).cancelled = true

/-! ## Messages that were given up -/

/-- Messages in front of the writer are held. -/
theorem held_of_front {s : Server} {x : Nat} (hx : x ∈ s.front) : 0 < s.held x := by
  have hcount := List.count_pos_iff.mpr hx
  rw [front, List.count_append, List.count_append] at hcount
  rw [held]
  omega

/-- What is held has been sent. -/
theorem Distinct.lt_nextId {s : Server} (hd : s.Distinct) {x : Nat} (hx : 0 < s.held x) :
    x < s.nextId := by
  by_contra hge
  have hzero := (hd x).2 (by omega)
  omega

/-- In the beginning nothing is cancelled. -/
theorem sorted_init : init.Sorted := by
  constructor <;> simp [init, front, taken, hand]

/-- A message that is cancelled in front of the writer is abandoned. -/
theorem Sorted.cancelMsg {s : Server} (hs : s.Sorted) (hd : s.Distinct) (id : Nat) :
    (s.cancelMsg id).Sorted := by
  constructor
  · intro x hx hc
    have hx' : x ∈ s.front := hx
    by_cases he : x = id
    · subst he
      simp only [Server.cancelMsg, if_pos hx', List.mem_cons_self]
    · have hxa := hs.queued x hx' (by simpa [Server.cancelMsg, modify, he] using hc)
      simp only [Server.cancelMsg]
      split
      · exact List.mem_cons_of_mem id hxa
      · exact hxa
  · intro x hx
    by_cases he : x = id
    · subst he
      refine ⟨by simp [Server.cancelMsg, modify], ?_⟩
      by_cases hq : x ∈ s.front
      · exact hd.lt_nextId (held_of_front hq)
      · simp only [Server.cancelMsg, if_neg hq] at hx
        exact (hs.abandoned x hx).2
    · have hxa : x ∈ s.abandoned := by
        simp only [Server.cancelMsg] at hx
        split at hx
        · exact List.mem_of_ne_of_mem he hx
        · exact hx
      simpa [Server.cancelMsg, modify, he] using hs.abandoned x hxa

theorem Sorted.foldl_cancelMsg {s : Server} (hs : s.Sorted) (hd : s.Distinct) (ids : List Nat) :
    (ids.foldl Server.cancelMsg s).Sorted := by
  induction ids generalizing s with
  | nil => exact hs
  | cons id ids ih => exact ih (hs.cancelMsg hd id) hd

/-- A new message in front of the writer. -/
theorem Sorted.added {s s' : Server} (hs : s.Sorted) {m : Message} (hm : m.cancelled = false)
    (hmsg : s'.msg = Function.update s.msg s.nextId m) (ha : s'.abandoned = s.abandoned)
    (hid : s'.nextId = s.nextId + 1)
    (hmem : ∀ x ∈ s'.front, x = s.nextId ∨ x ∈ s.front) : s'.Sorted := by
  constructor
  · intro x hx hc
    rw [hmsg] at hc
    rw [ha]
    by_cases he : x = s.nextId
    · rw [he, Function.update_self, hm] at hc
      contradiction
    · rw [Function.update_of_ne he] at hc
      exact hs.queued x ((hmem x hx).resolve_left he) hc
  · intro x hx
    rw [ha] at hx
    have hxa := hs.abandoned x hx
    rw [hmsg, hid, Function.update_of_ne (by omega)]
    exact ⟨hxa.1, by omega⟩

/-- Messages that move. -/
theorem Sorted.moved {s s' : Server} (hs : s.Sorted)
    (hmsg : ∀ x, (s'.msg x).cancelled = (s.msg x).cancelled) (ha : s'.abandoned = s.abandoned)
    (hid : s'.nextId = s.nextId)
    (hmem : ∀ x ∈ s'.front, x ∈ s.front ∨ (s.msg x).cancelled = false) :
    s'.Sorted := by
  constructor
  · intro x hx hc
    rw [hmsg] at hc
    rw [ha]
    rcases hmem x hx with h | h
    · exact hs.queued x h hc
    · rw [h] at hc
      contradiction
  · intro x hx
    rw [hmsg, hid]
    exact hs.abandoned x (ha ▸ hx)

/-- The handling of a reply leaves what is in front of the writer alone. -/
theorem handleReply_frame (s : Server) (res : Int) (data : Bytes) :
    (s.handleReply res data).front = s.front ∧
      (s.handleReply res data).abandoned = s.abandoned ∧
      (s.handleReply res data).nextId = s.nextId ∧
      ∀ x, ((s.handleReply res data).msg x).cancelled = (s.msg x).cancelled := by
  cases hreq : s.requests with
  | nil => simp [handleReply, hreq, raise, front, taken, hand]
  | cons id rest =>
      cases hm : (s.msg id).processReply res data with
      | error e => simp [handleReply, hreq, hm, raise, front, taken, hand]
      | ok m =>
          simp only [handleReply, hreq, hm, modify, front, taken, hand, true_and]
          intro x
          by_cases hx : x = id
          · subst hx
            rw [Function.update_self, Message.cancelled_of_processReply hm]
          · rw [Function.update_of_ne hx]

/-- **One step** abandons what is cancelled in front of the writer. -/
theorem sorted_step {s s' : Server} {a : Action} (hd : s.Distinct) (hs : s.Sorted)
    (h : s.step a = some s') : s'.Sorted := by
  cases a <;> simp only [step] at h
  case submit m =>
    obtain ⟨hg, rfl⟩ := of_ite_some h
    exact hs.added hg.2.1 rfl rfl rfl (by grind [front, taken, hand])
  case greet =>
    obtain ⟨hg, rfl⟩ := of_ite_some h
    exact hs.added (m := nopMsg) rfl rfl rfl rfl (by grind [front, taken, hand])
  case timeout =>
    obtain ⟨hg, rfl⟩ := of_ite_some h
    exact hs.added (m := nopMsg) rfl rfl rfl rfl (by grind [front, taken, hand])
  case giveUp id =>
    obtain ⟨-, rfl⟩ := of_ite_some h
    obtain ⟨h₁, h₂⟩ := hs.cancelMsg hd id
    exact ⟨h₁, h₂⟩
  case resume id =>
    split at h
    · split at h <;> simp only [Option.some.injEq, reduceCtorEq] at h <;> subst h
      · exact ⟨hs.queued, hs.abandoned⟩
      · obtain ⟨h₁, h₂⟩ := hs.cancelMsg hd id
        exact ⟨h₁, h₂⟩
    · contradiction
  case greetingDone =>
    split at h
    · next id _ =>
        split at h <;> simp only [Option.some.injEq, reduceCtorEq] at h <;> subst h
        · exact hs.moved (fun _ => rfl) rfl rfl (by grind [front, taken, hand])
        · exact (hs.cancelMsg hd id).moved (fun _ => rfl) rfl rfl
            (by grind [front, taken, hand, Server.cancelMsg, modify, raise])
    · contradiction
  case interrupt =>
    split at h
    · unfold interrupted at h
      split at h <;> simp only [Option.some.injEq, reduceCtorEq] at h <;> subst h
      case h_6 id _ =>
        exact (hs.cancelMsg hd id).moved (fun _ => rfl) rfl rfl
          (by grind [front, taken, hand, Server.cancelMsg, modify])
      all_goals exact hs.moved (fun _ => rfl) rfl rfl (by grind [front, taken, hand])
    · contradiction
  case acloseEnds =>
    obtain ⟨-, rfl⟩ := of_ite_some h
    obtain ⟨h₁, h₂⟩ := hs.foldl_cancelMsg hd s.requests
    exact ⟨h₁, h₂⟩
  case reply res data =>
    obtain ⟨-, rfl⟩ := of_ite_some h
    obtain ⟨hmem, ha, hid, hmsg⟩ := handleReply_frame s res data
    exact hs.moved hmsg ha hid (fun x hx => .inl (hmem ▸ hx))
  all_goals
    refine hs.moved (fun x => ?_) ?_ ?_ (fun x hx => ?_) <;>
      grind [raise, front, taken, hand, nextPc]

/-! ## Messages that were answered -/

/-- In the beginning nothing has been answered. -/
theorem popped_init : init.Popped := by
  simp [Popped, init, held, taken, hand]

/-- **A message that has been answered** is nowhere any more. -/
theorem popped_of_change {s s' : Server} {a : Action} (hd : s.Distinct) (hp : s.Popped)
    (hc : Change s a s') : s'.Popped := by
  intro x hx hdone
  cases hc with
  | added m hm _ hheld hmsg _ =>
      by_cases he : x = s.nextId
      · rw [he, hmsg, Function.update_self, hm.2] at hdone
        contradiction
      · have hxh := hheld x
        rw [if_neg he] at hxh
        rw [hmsg, Function.update_of_ne he] at hdone ⊢
        exact hp x (by omega) hdone
  | moved gone hheld hmsg _ _ =>
      have hxh := hheld x
      rcases hmsg x with h | h | ⟨hgone, -⟩
      · rw [h] at hdone ⊢
        exact hp x (by omega) hdone
      · rw [h]
        rfl
      · -- an answered message was in one place, and has left it
        have hcount := List.count_pos_iff.mpr hgone
        have hle := (hd x).1
        omega

/-! ## Whole runs -/

/-- **Nothing is written for a settled message** along a run exactly when no
message is written that was given up in front of the writer. -/
theorem writesPending_iff_notAbandoned (as : List Action) :
    AllSteps step WritesPending init as ↔ AllSteps step NotAbandoned init as := by
  apply allSteps_congr (I := fun s => (s.Tidy ∧ s.Distinct) ∧ s.Sorted ∧ s.Popped)
  · intro s a s' ⟨htd, hs, hp⟩ h
    exact ⟨tidy_distinct_step s a s' htd h, sorted_step htd.2 hs h,
      popped_of_change htd.2 hp (step_change htd.1 h)⟩
  · intro s a s' ⟨htd, hs, hp⟩ h
    cases a
    case append =>
      refine forall₂_congr fun id hid => ?_
      have hmem : id ∈ s.front := List.mem_append_right _ hid
      constructor
      · intro hpending ha
        have hc := (hs.abandoned id ha).1
        exact absurd hpending.1 (by simp [hc])
      · intro ha
        have hc : (s.msg id).cancelled = false := by
          by_contra hc
          exact ha (hs.queued id hmem (by simpa using hc))
        refine ⟨hc, ?_⟩
        by_contra hdone
        have := hp id (held_of_front hmem) (by simpa using hdone)
        simp [hc] at this
    all_goals exact Iff.rfl
  · exact ⟨⟨tidy_init, distinct_init⟩, sorted_init, popped_init⟩

/-- An attribute is to be set while there is no connection, and the caller gives
up before there is one. -/
def givesUpEarly : List Action :=
  comesUp ++ [.readerCloses, .writerStops, .leave, .submit (attrSetMsg ["set", "it"] (.bool true)),
    .giveUp 1, .connected, .writerStarts, .dequeue, .append]

/-- The attribute is set nevertheless. -/
theorem not_writesPending_givesUpEarly :
    ¬ AllSteps step WritesPending init givesUpEarly ∧
      (Transition.run step init givesUpEarly).map
          (fun s => (s.transmitted, (s.msg 1).cancelled, (s.msg 1).typ)) =
        some ([1], true, OWMsg.write) := by
  exact ⟨by decide, by decide⟩

/-- A connection is lost with message 1 unanswered, and 100 messages fill `_wqueue` before
the next one is up.  The caller of message 1 gives up while the re-send loop waits for room. -/
def givesUpWaiting : List Action :=
  comesUp ++ [.submit nopMsg, .dequeue, .append, .readerCloses, .writerStops, .leave] ++
    List.replicate wqueueSize (.submit nopMsg) ++
    [.connected, .readerStarts, .readerReady, .writerStarts, .writerReady, .resend, .giveUp 1,
      .dequeue, .resendSent] ++
    (List.replicate wqueueSize [.append, .written, .dequeue]).flatten ++ [.append]

/-- It is sent again nevertheless. -/
example :
    ¬ AllSteps step WritesPending init givesUpWaiting ∧
      (Transition.run step init givesUpWaiting).map
          (fun s => (s.transmitted.getLast?, (s.msg 1).cancelled)) = some (some 1, true) := by
  exact ⟨by decide +kernel, by decide +kernel⟩

end Server

end AsyncOwfs
