import AsyncOwfs.Server

/-!
# AsyncOwfs.Server.Resend

The re-send loop of `_run_one`, with the handler around it, on any outcomes of its
`send`s.

What a `send` raises does not get out of the loop: the inner handler puts the
message back and the loop goes on with it.  The outer handler, which would restore
`requests`, is not reached from there (`loop_ok`).

A turn of this loop is what the actions of `AsyncOwfs.Server` for it come to
(`view_turn`), with the callers that give up between them.
-/

namespace AsyncOwfs

namespace Resend

/-- What the loop works on. -/
structure State where
  ml : List Nat
  /-- `msg.cancelled` -/
  cancelled : Nat → Bool
  /-- What has been put into `_wqueue_w`. -/
  wqueue : List Nat
  requests : List Nat

/-- What becomes of a `send`: the exception that it raises, if any, and the messages
whose callers give up while it waits. -/
structure Outcome where
  raises : Option Exc := none
  gaveUp : List Nat := []

/-- `await self._wqueue_w.send(msg)` -/
def State.send (s : State) (id : Nat) (o : Outcome) : Except Exc Unit × State :=
  let s := { s with cancelled := fun m => s.cancelled m || decide (m ∈ o.gaveUp) }
  match o.raises with
  | none => (.ok (), { s with wqueue := s.wqueue ++ [id] })
  | some e => (.error e, s)

/-- `try: send(msg)`, `except BaseException: ml.appendleft(msg)`, behind `ml.popleft()` -/
def State.trySend (s : State) (id : Nat) (ml : List Nat) (o : Outcome) : Except Exc Unit × State :=
  match { s with ml }.send id o with
  | (.ok (), s) => (.ok (), s)
  | (.error _, s) => (.ok (), { s with ml := id :: s.ml })

/-- The `while` loop, up to `fuel` turns.  The `k`-th `send` has the outcome `sends k`;
the number of those that there have been is returned with the result. -/
def loop (sends : Nat → Outcome) : Nat → Nat → State → Option (Except Exc Unit × State × Nat)
  | 0, _, _ => none
  | fuel + 1, k, s =>
    match s.ml with
    | [] => some (.ok (), s, k)
    | id :: ml =>
      if s.cancelled id then loop sends fuel k { s with ml }
      else
        match s.trySend id ml (sends k) with
        | (.ok (), s) => loop sends fuel (k + 1) s
        | (.error e, s) => some (.error e, s, k + 1)

/-- The loop in its `try`: `except BaseException: self.requests = ml; raise` -/
def resend (sends : Nat → Outcome) (fuel : Nat) (s : State) :
    Option (Except Exc Unit × State × Nat) :=
  match loop sends fuel 0 s with
  | none => none
  | some (.ok (), s, k) => some (.ok (), s, k)
  | some (.error e, s, k) => some (.error e, { s with requests := s.ml }, k)

/-! ## The loop in the server -/

/-- What the loop of a server works on. -/
def view (s : Server) : State :=
  ⟨s.ml, fun id => (s.msg id).cancelled, s.wqueue, s.requests⟩

/-- A message that nobody waits for is left out. -/
theorem view_skip {s s' : Server} {id : Nat} {ml : List Nat} (hml : s.ml = id :: ml)
    (hc : (s.msg id).cancelled = true) (h : s.step .resend = some s') :
    s'.run = .resending ∧ view s' = { view s with ml } := by
  simp only [Server.step, hml, hc, if_true] at h
  split at h
  · next hr =>
    rw [← Option.some.inj h]
    exact ⟨hr, rfl⟩
  · contradiction

/-- A message whose caller waits is popped, and its `send` begins. -/
theorem view_pop {s s' : Server} {id : Nat} {ml : List Nat} (hml : s.ml = id :: ml)
    (hc : (s.msg id).cancelled = false) (h : s.step .resend = some s') :
    s'.run = .sending id ∧ view s' = { view s with ml } := by
  simp only [Server.step, hml, hc, Bool.false_eq_true, if_false] at h
  split at h
  · rw [← Option.some.inj h]
    exact ⟨rfl, rfl⟩
  · contradiction

/-- Callers give up. -/
theorem view_giveUps {ids : List Nat} {s s' : Server}
    (h : Transition.run Server.step s (ids.map .giveUp) = some s') :
    s'.run = s.run ∧
      view s' = { view s with cancelled := fun m => (view s).cancelled m || decide (m ∈ ids) } := by
  induction ids generalizing s with
  | nil =>
      rw [List.map_nil, Transition.run_nil, Option.some.injEq] at h
      subst h
      simp [view]
  | cons id ids ih =>
      obtain ⟨t, hstep, hrest⟩ := Transition.run_cons h
      obtain ⟨hrun, hview⟩ := ih hrest
      rw [Server.step] at hstep
      split at hstep
      · obtain rfl := (Option.some.inj hstep).symm
        refine ⟨hrun, hview.trans ?_⟩
        simp only [view, Server.cancelMsg, Server.modify, State.mk.injEq, true_and, and_true]
        funext m
        by_cases hm : m = id
        · subst hm
          simp [Message.cancel]
        · simp [hm]
      · contradiction

/-- How the `send` ends, as an action of the server. -/
def Outcome.action (o : Outcome) : Action := if o.raises.isSome then .resendFails else .resendSent

/-- **A turn of the loop** whose `send` has this outcome, as the server does it, in three
actions or more: the message is popped, callers give up while its `send` waits, and this
returns or raises. -/
theorem view_turn {s s' : Server} {id : Nat} {ml : List Nat} {o : Outcome} (hml : s.ml = id :: ml)
    (hc : (s.msg id).cancelled = false)
    (h : Transition.run Server.step s (.resend :: (o.gaveUp.map .giveUp ++ [o.action])) = some s') :
    s'.run = .resending ∧ (view s).trySend id ml o = (.ok (), view s') := by
  obtain ⟨t, hpop, hrest⟩ := Transition.run_cons h
  obtain ⟨u, hgive, hend⟩ := Transition.exists_of_run_append hrest
  obtain ⟨hrun, hview⟩ := view_pop hml hc hpop
  obtain ⟨hrun', hview'⟩ := view_giveUps hgive
  rw [hview] at hview'
  have hsending : u.run = .sending id := hrun'.trans hrun
  have hml' : u.ml = ml := congrArg State.ml hview'
  have hqueue : u.wqueue = s.wqueue := congrArg State.wqueue hview'
  have hrequests : u.requests = s.requests := congrArg State.requests hview'
  have hcancelled : (fun m => (u.msg m).cancelled) =
      fun m => (s.msg m).cancelled || decide (m ∈ o.gaveUp) := congrArg State.cancelled hview'
  obtain ⟨v, hlast, hnil⟩ := Transition.run_cons hend
  rw [Transition.run_nil, Option.some.injEq] at hnil
  subst hnil
  cases hraises : o.raises with
  | none =>
      simp only [Outcome.action, hraises, Option.isSome_none, Bool.false_eq_true, if_false,
        Server.step, hsending, Option.ite_none_right_eq_some, Option.some.injEq] at hlast
      obtain ⟨-, rfl⟩ := hlast
      simp [State.trySend, State.send, view, hraises, hml', hqueue, hrequests, hcancelled]
  | some e =>
      simp only [Outcome.action, hraises, Option.isSome_some, if_true, Server.step, hsending,
        Option.ite_none_right_eq_some, Option.some.injEq] at hlast
      obtain ⟨-, rfl⟩ := hlast
      simp [State.trySend, State.send, view, hraises, hml', hqueue, hrequests, hcancelled]

/-! ## What comes out -/

/-- Nothing that a `send` raises gets out of the inner handler. -/
theorem trySend_ok (s : State) (id : Nat) (ml : List Nat) (o : Outcome) :
    (s.trySend id ml o).1 = .ok () := by
  cases o with
  | mk raises gaveUp => cases raises <;> rfl

/-- Who has given up while the `send` waited. -/
@[simp] theorem cancelled_trySend (s : State) (id : Nat) (ml : List Nat) (o : Outcome) :
    (s.trySend id ml o).2.cancelled = fun m => s.cancelled m || decide (m ∈ o.gaveUp) := by
  cases o with
  | mk raises gaveUp => cases raises <;> rfl

/-- A `send` that goes well. -/
theorem trySend_of_none {o : Outcome} (ho : o.raises = none) (s : State) (id : Nat)
    (ml : List Nat) :
    (s.trySend id ml o).2.ml = ml ∧ (s.trySend id ml o).2.wqueue = s.wqueue ++ [id] := by
  simp [State.trySend, State.send, ho]

section Loop

variable {sends : Nat → Outcome} {fuel k k' : Nat} {s s' : State} {r : Except Exc Unit}

/-- One turn. -/
theorem loop_cons {id : Nat} {ml : List Nat} (h : s.ml = id :: ml) :
    loop sends (fuel + 1) k s =
      if s.cancelled id then loop sends fuel k { s with ml }
      else loop sends fuel (k + 1) (s.trySend id ml (sends k)).2 := by
  have hok := trySend_ok s id ml (sends k)
  rw [loop, h]
  dsimp only
  generalize s.trySend id ml (sends k) = t at hok
  obtain ⟨r, t⟩ := t
  dsimp only at hok
  rw [hok]

/-- **The loop raises nothing**, whatever its `send`s do. -/
theorem loop_ok (h : loop sends fuel k s = some (r, s', k')) : r = .ok () ∧ k ≤ k' := by
  induction fuel generalizing k s with
  | zero => contradiction
  | succ fuel ih =>
      cases hml : s.ml with
      | nil =>
          simp only [loop, hml, Option.some.injEq, Prod.mk.injEq] at h
          exact ⟨h.1.symm, Nat.le_of_eq h.2.2⟩
      | cons id ml =>
          rw [loop_cons hml] at h
          split at h
          · exact ih h
          · exact ⟨(ih h).1, Nat.le_of_succ_le (ih h).2⟩

/-- It does not reach the outer handler, then. -/
theorem resend_eq (sends : Nat → Outcome) (fuel : Nat) (s : State) :
    resend sends fuel s = loop sends fuel 0 s := by
  rw [resend]
  cases h : loop sends fuel 0 s with
  | none => rfl
  | some t =>
      obtain ⟨r, s', k'⟩ := t
      rw [(loop_ok h).1]

end Loop

/-! ## Sends that go well -/

/-- No `send` raises, of those that are due when none does. -/
def Passes (sends : Nat → Outcome) : Nat → List Nat → (Nat → Bool) → Prop
  | _, [], _ => True
  | k, id :: ml, cancelled =>
    if cancelled id then Passes sends k ml cancelled
    else (sends k).raises = none ∧
      Passes sends (k + 1) ml fun m => cancelled m || decide (m ∈ (sends k).gaveUp)

/-- Then every message is put into the queue, or has been given up. -/
theorem loop_of_passes {sends : Nat → Outcome} {k : Nat} {s : State}
    (h : Passes sends k s.ml s.cancelled) :
    ∃ fuel s' k' sent, loop sends fuel k s = some (.ok (), s', k') ∧
      (∀ j, k ≤ j → j < k' → (sends j).raises = none) ∧ s'.wqueue = s.wqueue ++ sent ∧
      (∀ m, s.cancelled m = true → s'.cancelled m = true) ∧
      ∀ id ∈ s.ml, s'.cancelled id = true ∨ id ∈ sent := by
  generalize hml : s.ml = ml at h
  induction ml generalizing s k with
  | nil =>
      refine ⟨1, s, k, [], by simp only [loop, hml], fun j hj hj' => by omega, by simp,
        fun _ => id, by simp⟩
  | cons id ml ih =>
      rw [Passes] at h
      split at h
      · next hc =>
        obtain ⟨fuel, s', k', sent, hloop, hraises, hqueue, hmono, hall⟩ :=
          ih (s := { s with ml }) rfl h
        refine ⟨fuel + 1, s', k', sent, ?_, hraises, hqueue, hmono, ?_⟩
        · rw [loop_cons hml, if_pos hc]
          exact hloop
        · intro m hm
          rcases List.mem_cons.mp hm with rfl | hm
          · exact .inl (hmono m hc)
          · exact hall m hm
      · next hc =>
        obtain ⟨hnone, hrest⟩ := h
        obtain ⟨hml', hqueue'⟩ := trySend_of_none hnone s id ml
        obtain ⟨fuel, s', k', sent, hloop, hraises, hqueue, hmono, hall⟩ :=
          ih (s := (s.trySend id ml (sends k)).2) hml' (by rw [cancelled_trySend]; exact hrest)
        refine ⟨fuel + 1, s', k', id :: sent, ?_, ?_, ?_, ?_, ?_⟩
        · rw [loop_cons hml, if_neg hc]
          exact hloop
        · intro j hj hj'
          rcases Nat.eq_or_lt_of_le hj with rfl | hlt
          · exact hnone
          · exact hraises j hlt hj'
        · rw [hqueue, hqueue', List.append_assoc]
          rfl
        · intro m hm
          exact hmono m (by simp [hm])
        · intro m hm
          rcases List.mem_cons.mp hm with rfl | hm
          · exact .inr List.mem_cons_self
          · exact (hall m hm).imp_right (List.mem_cons_of_mem id)

/-- The loop comes to an end without an exception only when all of them go well. -/
theorem passes_of_loop {sends : Nat → Outcome} {fuel k k' : Nat} {s s' : State}
    {r : Except Exc Unit} (h : loop sends fuel k s = some (r, s', k'))
    (hraises : ∀ j, k ≤ j → j < k' → (sends j).raises = none) :
    Passes sends k s.ml s.cancelled := by
  induction fuel generalizing k s with
  | zero => contradiction
  | succ fuel ih =>
      cases hml : s.ml with
      | nil => trivial
      | cons id ml =>
          rw [loop_cons hml] at h
          rw [Passes]
          split at h
          · next hc =>
            rw [if_pos hc]
            exact ih h hraises
          · next hc =>
            have hlt : k < k' := (loop_ok h).2
            have hnone := hraises k (Nat.le_refl k) hlt
            have hrest := ih h fun j hj => hraises j (Nat.le_of_succ_le hj)
            rw [(trySend_of_none hnone s id ml).1, cancelled_trySend] at hrest
            rw [if_neg hc]
            exact ⟨hnone, hrest⟩

/-- **The loop ends**, after finitely many `send`s; what one of them raises leaves
`_run_one`, and `requests` has the messages that are still to be sent. -/
def Ends (sends : Nat → Outcome) (s : State) : Prop :=
  ∃ fuel r s' k sent, resend sends fuel s = some (r, s', k) ∧
    (∀ j < k, ∀ e, (sends j).raises = some e → r = .error e) ∧ s'.wqueue = s.wqueue ++ sent ∧
    (s.ml.filter fun id => !s'.cancelled id && decide (id ∉ sent)).Sublist s'.requests

/-- It does so if and only if no `send` raises, of those that are due. -/
theorem ends_iff (sends : Nat → Outcome) (s : State) :
    Ends sends s ↔ Passes sends 0 s.ml s.cancelled := by
  constructor
  · rintro ⟨fuel, r, s', k, sent, hresend, hleaves, -⟩
    rw [resend_eq] at hresend
    refine passes_of_loop hresend fun j _ hj => ?_
    cases hj' : (sends j).raises with
    | none => rfl
    | some e =>
        have hr := hleaves j hj e hj'
        rw [(loop_ok hresend).1] at hr
        contradiction
  · intro h
    obtain ⟨fuel, s', k', sent, hloop, hraises, hqueue, -, hall⟩ := loop_of_passes h
    refine ⟨fuel, .ok (), s', k', sent, by rw [resend_eq, hloop], ?_, hqueue, ?_⟩
    · intro j hj e he
      rw [hraises j (Nat.zero_le j) hj] at he
      contradiction
    · have hnil : (s.ml.filter fun id => !s'.cancelled id && decide (id ∉ sent)) = [] := by
        refine List.filter_eq_nil_iff.mpr fun id hid => ?_
        rcases hall id hid with hc | hsent
        · simp [hc]
        · simp [hsent]
      rw [hnil]
      exact List.nil_sublist s'.requests

/-- The loop never leaves a message whose `send` raises every time and whose caller waits. -/
theorem loop_stuck {sends : Nat → Outcome} {id : Nat} {ml : List Nat} {e : Exc}
    (hraises : ∀ k, (sends k).raises = some e) (hgave : ∀ k, id ∉ (sends k).gaveUp)
    (fuel k : Nat) {s : State} (hml : s.ml = id :: ml) (hc : s.cancelled id = false) :
    loop sends fuel k s = none := by
  induction fuel generalizing k s with
  | zero => rfl
  | succ fuel ih =>
      rw [loop_cons hml, if_neg (by simp [hc])]
      refine ih (k + 1) ?_ ?_
      · simp [State.trySend, State.send, hraises]
      · simp [hc, hgave]

/-- The new connection breaks while its only request is sent again. -/
theorem not_ends_cancelled :
    (∀ fuel, resend (fun _ => { raises := some .cancelled }) fuel ⟨[0], fun _ => false, [], []⟩ =
      none) ∧
    ¬ Ends (fun _ => { raises := some .cancelled }) ⟨[0], fun _ => false, [], []⟩ := by
  have hstuck (fuel : Nat) : resend (fun _ => { raises := some .cancelled }) fuel
      ⟨[0], fun _ => false, [], []⟩ = none := by
    rw [resend_eq]
    exact loop_stuck (fun _ => rfl) (by simp) fuel 0 rfl rfl
  refine ⟨hstuck, ?_⟩
  rintro ⟨fuel, r, s', k, sent, hresend, -⟩
  rw [hstuck] at hresend
  contradiction

end Resend

end AsyncOwfs
