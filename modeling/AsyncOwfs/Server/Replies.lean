import AsyncOwfs.Server

/-!
# AsyncOwfs.Server.Replies

Who gets a reply.  The protocol has no request ids: a reply belongs to the
oldest message that was handed to the connection and is not yet answered, and
`requests` has to list just these for as long as the reader is alive.

One action breaks this.  When `_run_one` is interrupted while it waits for its
children, `requests` becomes the list of what the previous connection left over,
and a reader that has not been cancelled yet goes on to answer from it.
-/

namespace AsyncOwfs

namespace Server

open Transition

/-- The peer answers each frame at most once, and none that it did not get. -/
def Honest (s : Server) : Action → Prop
  | .reply .. => s.answered < s.transmitted.length
  | _ => True

instance (s : Server) (a : Action) : Decidable (Honest s a) := by
  unfold Honest
  split <;> infer_instance

/-- While the reader is alive, `requests` lists the messages handed to this
connection and not yet answered, in transmission order. -/
def Matched (s : Server) : Prop :=
  s.reader ≠ .ended → s.requests = s.transmitted.drop s.answered

/-- A reply is processed by the message that it answers, and a busy frame takes
no message. -/
def AnswersOwn (s : Server) : Action → Prop
  | .reply .. => s.requests ≠ [] ∧ s.requests.head? = s.transmitted[s.answered]?
  | .busy => ∀ s' ∈ s.step .busy, s'.requests = s.requests
  | _ => True

instance (s : Server) (a : Action) : Decidable (AnswersOwn s a) := by
  unfold AnswersOwn
  split <;> infer_instance

/-- The handler of `_run_one` does not put another list of requests under a
reader that is alive. -/
def PutsBackSame (s : Server) : Action → Prop
  | .interrupt =>
    s.run = .waitReader ∨ s.run = .waitWriter → s.reader = .ended ∨ s.ml = s.requests
  | _ => True

instance (s : Server) (a : Action) : Decidable (PutsBackSame s a) := by
  unfold PutsBackSame
  split <;> infer_instance

/-! ## One step -/

/-- No more replies than frames. -/
def Counted (s : Server) : Prop := s.answered ≤ s.transmitted.length

theorem counted_step (s : Server) (a : Action) (s' : Server) (hc : s.Counted) (hh : Honest s a)
    (h : s.step a = some s') : s'.Counted := by
  unfold Counted at hc ⊢
  cases a <;> simp only [step, foldl_cancelMsg] at h
  case interrupt => grind [interrupted, cancelMsg, modify]
  case reply => grind [Server.handleReply, raise, modify, Honest]
  all_goals grind [raise, cancelMsg, modify]

/-- What a reply leaves of `requests`, if the reader survives it. -/
theorem requests_handleReply {s : Server} {res : Int} {data : Bytes}
    (hr : (s.handleReply res data).reader ≠ .ended) :
    (s.handleReply res data).requests = s.requests.tail ∧
      (s.handleReply res data).transmitted = s.transmitted ∧
      (s.handleReply res data).answered = s.answered + 1 := by
  cases hreq : s.requests with
  | nil => simp [handleReply, hreq] at hr
  | cons id rest =>
      cases hm : (s.msg id).processReply res data with
      | error e => simp [handleReply, hreq, hm] at hr
      | ok m => simp [handleReply, hreq, hm, modify, Message.done_of_processReply hm]

theorem matched_step (s : Server) (a : Action) (s' : Server) (hc : s.Counted) (hh : Honest s a)
    (hs : s.Matched) (h : s.step a = some s') : s'.Matched ↔ PutsBackSame s a := by
  unfold Matched at hs ⊢
  unfold Counted at hc
  cases a <;> simp only [step, foldl_cancelMsg] at h
  case interrupt => grind [interrupted, cancelMsg, modify, PutsBackSame]
  case reply res data =>
    refine iff_of_true (fun hr => ?_) trivial
    have hread : s.reader = .reading ∧ s.handleReply res data = s' := by grind
    obtain ⟨hread, rfl⟩ := hread
    obtain ⟨h₁, h₂, h₃⟩ := requests_handleReply hr
    rw [h₁, h₂, h₃, hs (by simp [hread]), List.tail_drop]
  case append =>
    have hdrop : (s.transmitted ++ s.hand).drop s.answered =
        s.transmitted.drop s.answered ++ s.hand := List.drop_append_of_le_length hc
    grind [PutsBackSame, hand]
  all_goals grind [raise, cancelMsg, modify, PutsBackSame]

theorem answersOwn_of_matched (s : Server) (a : Action) (s' : Server) (hs : s.Matched)
    (hh : Honest s a) (h : s.step a = some s') : AnswersOwn s a := by
  cases a
  case reply res data =>
    have hread : s.reader = .reading := by simp only [step] at h; grind
    have hlt : s.answered < s.transmitted.length := hh
    have hreq := hs (by simp [hread])
    constructor
    · rw [hreq]
      simp only [ne_eq, List.drop_eq_nil_iff]
      omega
    · rw [hreq, List.head?_drop]
  case busy =>
    intro t ht
    simp only [step, Option.mem_def] at ht
    grind
  all_goals trivial

/-! ## Whole runs -/

/-- **Replies reach the request they answer**, along a run with an honest peer,
exactly when no step of it puts another list of requests under the reader. -/
theorem matched_iff_putsBackSame {as : List Action} (hh : AllSteps step Honest init as) :
    (AllStates step Matched init as ∧ AllSteps step AnswersOwn init as) ↔
      AllSteps step PutsBackSame init as := by
  have hiff : AllStates step Matched init as ↔ AllSteps step PutsBackSame init as :=
    allStates_iff_allSteps counted_step matched_step (Nat.le_refl 0) (fun _ => rfl) hh
  constructor
  · exact fun h => hiff.mp h.1
  · intro h
    have hall := hiff.mpr h
    exact ⟨hall, allSteps_of_allStates answersOwn_of_matched hall hh⟩

/-- A message is answered on the first connection, one more is handed to it. -/
theorem matched_comesUp :
    AllStates step Matched init (comesUp ++ [.submit nopMsg, .dequeue, .append]) ∧
      AllSteps step AnswersOwn init (comesUp ++ [.submit nopMsg, .dequeue, .append]) :=
  (matched_iff_putsBackSame (by decide)).mpr (by decide)

/-- A connection is lost with message 1 in `requests`.  On the next one the
writer has transmitted messages 2 and 3 when it fails, before `_run_one` has seen
its children start; the reply to message 2 is already in the reader's buffer. -/
def putBackEarly : List Action :=
  comesUp ++ [.submit nopMsg, .dequeue, .append, .readerCloses, .writerStops, .leave,
    .submit nopMsg, .submit nopMsg, .connected, .writerStarts, .readerStarts, .dequeue, .append,
    .written, .dequeue, .append, .writeFails .brokenPipe, .interrupt]

/-- The reply to message 2 completes message 1. -/
theorem answers_other :
    AllSteps step Honest init (putBackEarly ++ [.reply 0 []]) ∧
      ¬ AllSteps step AnswersOwn init (putBackEarly ++ [.reply 0 []]) ∧
      (Transition.run step init putBackEarly).map
          (fun s => (s.reader, s.requests, s.transmitted.drop s.answered)) =
        some (.reading, [1], [2, 3]) ∧
      (Transition.run step init (putBackEarly ++ [.reply 0 []])).map
          (fun s => ((s.msg 1).done, (s.msg 2).done)) = some (true, false) := by
  exact ⟨by decide, by decide, by decide, by decide⟩

end Server

end AsyncOwfs
