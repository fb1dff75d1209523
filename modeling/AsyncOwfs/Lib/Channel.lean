import Mathlib.Data.List.Basic

/-!
# AsyncOwfs.Lib.Channel

A channel with a bounded buffer, and the senders that wait behind it.

A sender that finds no room keeps its item until a receiver has made some, or until
it withdraws.  The sending end may be closed; what is in the channel by then is still
received.
-/

structure Channel (α : Type u) where
  buffer : List α := []
  /-- The items of the senders that wait, the oldest one first. -/
  waiting : List α := []
  closed : Bool := false
  deriving Repr

namespace Channel

variable {α : Type u}

/-- What is still to be received. -/
def contents (c : Channel α) : List α := c.buffer ++ c.waiting

/-- An item goes into the buffer, or its sender waits. -/
def send (size : Nat) (c : Channel α) (a : α) : Channel α :=
  if c.buffer.length < size then { c with buffer := c.buffer ++ [a] }
  else { c with waiting := c.waiting ++ [a] }

/-- The first sender that waits puts its item behind those in the buffer. -/
def refill (c : Channel α) : Channel α :=
  match c.waiting with
  | [] => c
  | a :: waiting => { c with buffer := c.buffer ++ [a], waiting }

/-- The oldest item, if there is one. -/
def receive (c : Channel α) : Option (α × Channel α) :=
  match c.refill.buffer with
  | [] => none
  | a :: buffer => some (a, { c.refill with buffer })

def close (c : Channel α) : Channel α := { c with closed := true }

/-- The senders of certain items give up, if they wait. -/
def withdraw (p : α → Bool) (c : Channel α) : Channel α :=
  { c with waiting := c.waiting.filter fun a => !p a }

/-- The buffer does not exceed its size, and nobody waits unless it is full. -/
structure Bounded (size : Nat) (c : Channel α) : Prop where
  length_le : c.buffer.length ≤ size
  full : c.waiting ≠ [] → c.buffer.length = size

variable {size : Nat} {c c' : Channel α} {a : α}

theorem bounded_empty (size : Nat) : Bounded size ({} : Channel α) := by
  constructor <;> simp

/-- Sending closes nothing. -/
@[simp] theorem closed_send : (c.send size a).closed = c.closed := by
  unfold send
  split <;> rfl

/-- What has been sent stays when the channel is closed. -/
@[simp] theorem contents_close : c.close.contents = c.contents := rfl

/-- A channel that is closed has as much room as before. -/
theorem Bounded.close (h : Bounded size c) : Bounded size c.close := ⟨h.length_le, h.full⟩

/-! ## Sending -/

/-- Whoever finds room is not overtaken by those who wait. -/
theorem contents_send (h : Bounded size c) : (c.send size a).contents = c.contents ++ [a] := by
  unfold send contents
  split
  · next hlt =>
    have hwaiting : c.waiting = [] := by
      by_contra hne
      have := h.full hne
      omega
    simp [hwaiting]
  · simp

/-- A sender waits when there is no room. -/
theorem Bounded.send (h : Bounded size c) : Bounded size (c.send size a) := by
  have hle := h.length_le
  unfold Channel.send
  split
  · next hlt =>
    have hwaiting : c.waiting = [] := by
      by_contra hne
      have := h.full hne
      omega
    constructor
    · simp only [List.length_append, List.length_singleton]
      omega
    · simp [hwaiting]
  · constructor
    · exact hle
    · intro _
      show c.buffer.length = size
      omega

/-- A sender that finds the buffer full waits. -/
theorem send_of_full (h : size ≤ c.buffer.length) :
    c.send size a = { c with waiting := c.waiting ++ [a] } := by
  rw [send, if_neg (by omega)]

/-! ## Receiving -/

/-- A sender that gets its turn closes nothing. -/
@[simp] theorem closed_refill : c.refill.closed = c.closed := by
  unfold refill
  split <;> rfl

/-- A sender that gets its turn keeps its place. -/
@[simp] theorem contents_refill : c.refill.contents = c.contents := by
  unfold refill contents
  cases h : c.waiting with
  | nil => simp [h]
  | cons b waiting => simp

/-- **Receiving**: the oldest item, and the others stay in their order. -/
theorem contents_of_receive (h : c.receive = some (a, c')) : c.contents = a :: c'.contents := by
  unfold receive at h
  split at h
  · contradiction
  · next b buffer hbuffer =>
    rw [Option.some.injEq, Prod.mk.injEq] at h
    obtain ⟨rfl, rfl⟩ := h
    rw [← contents_refill, contents, hbuffer]
    rfl

/-- Receiving closes nothing. -/
theorem closed_of_receive (h : c.receive = some (a, c')) : c'.closed = c.closed := by
  unfold receive at h
  split at h
  · contradiction
  · rw [Option.some.injEq, Prod.mk.injEq] at h
    obtain ⟨rfl, rfl⟩ := h
    exact closed_refill

/-- There is nothing to receive only where nothing is in the channel. -/
theorem receive_eq_none_iff : c.receive = none ↔ c.contents = [] := by
  unfold receive refill contents
  cases hw : c.waiting with
  | nil => cases hb : c.buffer <;> simp
  | cons b waiting => cases hb : c.buffer <;> simp

/-- The room that is made is taken by the next sender. -/
theorem Bounded.receive (h : Bounded size c) (hr : c.receive = some (a, c')) :
    Bounded size c' := by
  have hle := h.length_le
  unfold Channel.receive refill at hr
  cases hw : c.waiting with
  | nil =>
      simp only [hw] at hr
      split at hr
      · contradiction
      · next b buffer hbuffer =>
        rw [Option.some.injEq, Prod.mk.injEq] at hr
        obtain ⟨rfl, rfl⟩ := hr
        rw [hbuffer, List.length_cons] at hle
        constructor
        · show buffer.length ≤ size
          omega
        · simp
  | cons w waiting =>
      have hfull := h.full (by simp [hw])
      simp only [hw] at hr
      split at hr
      · contradiction
      · next b buffer hbuffer =>
        rw [Option.some.injEq, Prod.mk.injEq] at hr
        obtain ⟨rfl, rfl⟩ := hr
        have hlen := congrArg List.length hbuffer
        simp only [List.length_append, List.length_cons, List.length_nil] at hlen
        constructor
        · show buffer.length ≤ size
          omega
        · intro _
          show buffer.length = size
          omega

/-! ## Withdrawing -/

variable {p : α → Bool}

/-- A sender that gives up closes nothing. -/
@[simp] theorem closed_withdraw : (c.withdraw p).closed = c.closed := rfl

/-- A sender that gives up makes no room. -/
theorem Bounded.withdraw (h : Bounded size c) : Bounded size (c.withdraw p) := by
  refine ⟨h.length_le, ?_⟩
  intro hne
  refine h.full ?_
  intro hnil
  simp [Channel.withdraw, hnil] at hne

/-- What is withdrawn is missing, if none of it was in the buffer. -/
theorem contents_withdraw (h : ∀ b ∈ c.buffer, p b = false) :
    (c.withdraw p).contents = c.contents.filter fun a => !p a := by
  have hbuffer : (c.buffer.filter fun a => !p a) = c.buffer := by
    rw [List.filter_eq_self]
    intro b hb
    simp [h b hb]
  rw [contents, contents, List.filter_append, hbuffer, withdraw]

end Channel
