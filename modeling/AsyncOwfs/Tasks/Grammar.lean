import AsyncOwfs.Tasks.Life
import Mathlib.Data.List.Induction

/-!
# AsyncOwfs.Tasks.Grammar

The events about a device form a sentence: it is added; it is located, once or more,
and not found, any number of times; and it may be deleted, when it is nowhere.

A device goes through stages, in which the tasks that work on it owe certain events
and no others (`Good`).  It does so as long as no task changes where it is, or
whether it is registered, before another task has pushed the event about the change
before that; and as long as nobody locates a device that is not registered.
-/

namespace AsyncOwfs

open Transition Hoare

/-! ## Sentences -/

/-- The device is located, `n + 1` times, and not found. -/
def round (n : Nat) : List News := List.replicate (n + 1) .located ++ [.notFound]

/-- The sentences, and their beginnings. -/
def Sentence (ws : List News) : Prop :=
  ws = [] ∨ ∃ (rounds : List Nat) (rest : List News),
    ws = .added :: rounds.flatMap round ++ rest ∧
      (rest = [] ∨ (∃ n, rest = List.replicate (n + 1) .located) ∨ rest = [.deleted])

inductive Phase
  | fresh
  | idle
  | inRound
  | deleted
  | bad
  deriving DecidableEq, Repr

namespace Phase

def next : Phase → News → Phase
  | fresh, .added => idle
  | idle, .located | inRound, .located => inRound
  | inRound, .notFound => idle
  | idle, .deleted => deleted
  | _, _ => bad

def after (p : Phase) (ws : List News) : Phase := ws.foldl next p

/-- Words that are put together are read one after the other. -/
theorem after_append (p : Phase) (ws ws' : List News) : p.after (ws ++ ws') = (p.after ws).after ws' :=
  List.foldl_append ..

@[simp] theorem after_nil (p : Phase) : p.after [] = p := rfl

@[simp] theorem after_cons (p : Phase) (w : News) (ws : List News) :
    p.after (w :: ws) = (p.next w).after ws := rfl

/-- Within a round, a device may be located again and again. -/
theorem after_located (n : Nat) : inRound.after (List.replicate n .located) = inRound := by
  induction n with
  | zero => rfl
  | succ n ih => exact ih

/-- Rounds begin and end with the device nowhere. -/
theorem after_rounds (rounds : List Nat) : idle.after (rounds.flatMap round) = idle := by
  induction rounds with
  | nil => rfl
  | cons n rounds ih =>
      rw [List.flatMap_cons, after_append, round, after_append, List.replicate_succ, after_cons]
      show ((inRound.after (List.replicate n .located)).after [.notFound]).after _ = idle
      rw [after_located]
      exact ih

/-- The news that bring a device to a phase. -/
def Words : Phase → List News → Prop
  | fresh, ws => ws = []
  | idle, ws => ∃ rounds : List Nat, ws = .added :: rounds.flatMap round
  | inRound, ws => ∃ (rounds : List Nat) (n : Nat),
      ws = .added :: rounds.flatMap round ++ List.replicate (n + 1) .located
  | deleted, ws => ∃ rounds : List Nat, ws = .added :: rounds.flatMap round ++ [.deleted]
  | bad, _ => True

/-- What has been read so far, and one more word. -/
theorem words_next {p : Phase} {ws : List News} (h : p.Words ws) (w : News) :
    (p.next w).Words (ws ++ [w]) := by
  cases p with
  | fresh =>
      obtain rfl : ws = [] := h
      cases w with
      | added => exact ⟨[], rfl⟩
      | _ => trivial
  | idle =>
      obtain ⟨rounds, rfl⟩ := h
      cases w with
      | located => exact ⟨rounds, 0, rfl⟩
      | deleted => exact ⟨rounds, rfl⟩
      | _ => trivial
  | inRound =>
      obtain ⟨rounds, n, rfl⟩ := h
      cases w with
      | located => exact ⟨rounds, n + 1, by rw [List.replicate_succ' (n := n + 1), List.append_assoc]⟩
      | notFound => exact ⟨rounds ++ [n], by simp [round]⟩
      | _ => trivial
  | deleted => cases w <;> trivial
  | bad => cases w <;> trivial

/-- A phase says what words lead to it. -/
theorem words_after (ws : List News) : (fresh.after ws).Words ws := by
  induction ws using List.reverseRecOn with
  | nil => rfl
  | append_singleton ws w ih =>
      rw [after_append]
      exact words_next ih w

end Phase

open Phase

/-- The sentences are what does not end in the bad phase. -/
theorem sentence_iff (ws : List News) : Sentence ws ↔ fresh.after ws ≠ bad := by
  constructor
  · rintro (rfl | ⟨rounds, rest, rfl, hrest⟩)
    · decide
    · rw [after_append, after_cons]
      show (idle.after _).after rest ≠ bad
      rw [after_rounds]
      rcases hrest with rfl | ⟨n, rfl⟩ | rfl
      · decide
      · rw [List.replicate_succ, after_cons]
        show inRound.after _ ≠ bad
        rw [after_located]
        decide
      · decide
  · intro hbad
    have h := words_after ws
    generalize fresh.after ws = p at h hbad
    cases p with
    | fresh => exact .inl h
    | idle =>
        obtain ⟨rounds, rfl⟩ := h
        exact .inr ⟨rounds, [], (List.append_nil _).symm, .inl rfl⟩
    | inRound =>
        obtain ⟨rounds, n, rfl⟩ := h
        exact .inr ⟨rounds, _, rfl, .inr (.inl ⟨n, rfl⟩)⟩
    | deleted =>
        obtain ⟨rounds, rfl⟩ := h
        exact .inr ⟨rounds, _, rfl, .inr (.inr rfl)⟩
    | bad => exact absurd rfl hbad

instance (ws : List News) : Decidable (Sentence ws) := decidable_of_iff _ (sentence_iff ws).symm

/-- Nothing is told of a device behind its end. -/
theorem after_of_deleted {ws : List News} (h : .deleted ∈ ws) :
    fresh.after ws = .deleted ∨ fresh.after ws = bad := by
  induction ws using List.reverseRecOn with
  | nil => contradiction
  | append_singleton ws w ih =>
      rw [after_append]
      show (fresh.after ws).next w = .deleted ∨ (fresh.after ws).next w = bad
      rw [List.mem_append, List.mem_singleton] at h
      rcases h with h | rfl
      · rcases ih h with hp | hp
        · rw [hp]
          cases w <;> exact .inr rfl
        · rw [hp]
          cases w <;> exact .inr rfl
      · cases fresh.after ws with
        | idle => exact .inl rfl
        | _ => exact .inr rfl

/-! ## Stages -/

namespace Life

variable {ι : Type} [DecidableEq ι] {l : Life ι} {i : ι} {n : News}

def phase (l : Life ι) : Phase := fresh.after l.word

/-- One task owes this, and no task owes anything else. -/
def Only (l : Life ι) (i : ι) (n : News) : Prop := l.owes = Function.update (fun _ => none) i (some n)

/-- The stages of a life. -/
inductive Good (l : Life ι) : Prop
  | unborn (hborn : l.born = false) (hphase : l.phase = .fresh) (hhere : l.here = false)
    (hregistered : l.registered = false) (howes : l.owes = fun _ => none)
  | unsaid (i : ι) (hborn : l.born = true) (hphase : l.phase = .fresh) (hhere : l.here = false)
    (howes : l.Only i .added)
  | away (hborn : l.born = true) (hphase : l.phase = .idle) (hhere : l.here = false)
    (howes : l.owes = fun _ => none)
  | present (hborn : l.born = true)
    (hphase : l.phase = .inRound ∨ l.phase = .idle ∧ ∃ i, l.owes i = some .located)
    (hhere : l.here = true) (hregistered : l.registered = true)
    (howes : ∀ i, l.owes i = none ∨ l.owes i = some .located)
  | leaving (i : ι) (hborn : l.born = true) (hphase : l.phase = .inRound) (hhere : l.here = false)
    (howes : l.Only i .notFound)
  | dying (i : ι) (hborn : l.born = true) (hphase : l.phase = .idle) (hhere : l.here = false)
    (hregistered : l.registered = false) (howes : l.Only i .deleted)
  | dead (hborn : l.born = true) (hphase : l.phase = .deleted) (hhere : l.here = false)
    (hregistered : l.registered = false) (howes : l.owes = fun _ => none)

/-- The task that owes something owes it. -/
theorem Only.self (h : l.Only i n) : l.owes i = some n := by
  rw [h, Function.update_self]

/-- Nobody else owes anything. -/
theorem Only.eq (h : l.Only i n) {j : ι} {m : News} (hj : l.owes j = some m) : j = i ∧ m = n := by
  rw [h] at hj
  by_cases hji : j = i
  · subst hji
    rw [Function.update_self, Option.some.injEq] at hj
    exact ⟨rfl, hj.symm⟩
  · rw [Function.update_of_ne hji] at hj
    contradiction

/-- Where nobody has owed anything, one task does now. -/
theorem only_owe (h : l.owes = fun _ => none) (i : ι) (n : News) : (l.owe i n).Only i n := by
  show Function.update l.owes i (some n) = _
  rw [h]

/-- A word that is told is read. -/
theorem phase_tell (l : Life ι) (i : ι) (n : News) : (l.tell i n).phase = l.phase.next n :=
  after_append fresh l.word [n]

/-- When it has been told, nobody owes anything. -/
theorem Only.tell (h : l.Only i n) : (l.tell i n).owes = fun _ => none := by
  show Function.update l.owes i none = _
  rw [h, Function.update_idem, Function.update_eq_self_iff]

/-! Each thing that can happen leads from stage to stage. -/

/-- A device that is born is about to be told of. -/
theorem Good.register (h : l.Good) (hborn : l.born = false) (i : ι) : (l.register i).Good := by
  cases h with
  | unborn _ hphase _ _ howes => exact .unsaid i rfl hphase rfl (only_owe howes i .added)
  | unsaid _ hborn' | away hborn' | present hborn' | leaving _ hborn' | dying _ hborn' | dead hborn' =>
      rw [hborn] at hborn'
      contradiction

/-- What is owed fits behind what has been told. -/
theorem Good.tell (h : l.Good) (hn : l.owes i = some n) : (l.tell i n).Good := by
  have hphase := phase_tell l i n
  cases h with
  | unborn _ _ _ _ howes | away _ _ _ howes | dead _ _ _ _ howes =>
      rw [howes] at hn
      contradiction
  | unsaid j hborn hp hhere howes =>
      obtain ⟨rfl, rfl⟩ := howes.eq hn
      exact .away hborn (hphase.trans (by rw [hp]; rfl)) hhere howes.tell
  | leaving j hborn hp hhere howes =>
      obtain ⟨rfl, rfl⟩ := howes.eq hn
      exact .away hborn (hphase.trans (by rw [hp]; rfl)) hhere howes.tell
  | dying j hborn hp hhere hreg howes =>
      obtain ⟨rfl, rfl⟩ := howes.eq hn
      exact .dead hborn (hphase.trans (by rw [hp]; rfl)) hhere hreg howes.tell
  | present hborn hp hhere hreg howes =>
      obtain rfl : n = .located := by
        rcases howes i with h | h
        · rw [h] at hn
          contradiction
        · rw [h, Option.some.injEq] at hn
          exact hn.symm
      refine .present hborn (.inl (hphase.trans ?_)) hhere hreg fun j => ?_
      · rcases hp with hp | ⟨hp, -⟩
        · rw [hp]
          rfl
        · rw [hp]
          rfl
      · show Function.update l.owes i none j = none ∨ Function.update l.owes i none j = some .located
        by_cases hji : j = i
        · rw [hji, Function.update_self]
          exact .inl rfl
        · rw [Function.update_of_ne hji]
          exact howes j

/-- A device is located that is registered, when nobody owes that it is new or gone. -/
theorem Good.assign (h : l.Good) (hreg : l.registered = true) (hadded : ¬ ∃ j, l.owes j = some .added)
    (hgone : ¬ ∃ j, l.owes j = some .notFound) (i : ι) : (l.assign i).Good := by
  have hself : (l.assign i).owes i = some .located := Function.update_self ..
  have hother : ∀ j, j ≠ i → (l.assign i).owes j = l.owes j := fun j hj => Function.update_of_ne hj _ _
  cases h with
  | unborn _ _ _ hreg' | dying _ _ _ _ hreg' | dead _ _ _ hreg' =>
      rw [hreg] at hreg'
      contradiction
  | unsaid j _ _ _ howes => exact absurd ⟨j, howes.self⟩ hadded
  | leaving j _ _ _ howes => exact absurd ⟨j, howes.self⟩ hgone
  | away hborn hp hhere howes =>
      refine .present hborn (.inr ⟨hp, i, hself⟩) rfl hreg fun j => ?_
      by_cases hji : j = i
      · exact .inr (hji ▸ hself)
      · rw [hother j hji, howes]
        exact .inl rfl
  | present hborn hp _ hreg howes =>
      refine .present hborn (hp.imp_right fun h => ⟨h.1, i, hself⟩) rfl hreg fun j => ?_
      by_cases hji : j = i
      · exact .inr (hji ▸ hself)
      · rw [hother j hji]
        exact howes j

/-- A device goes, when nobody owes that it has been located. -/
theorem Good.unlocate (h : l.Good) (hhere : l.here = true)
    (hlocated : ¬ ∃ j, l.owes j = some .located) (i : ι) : (l.unlocate i).Good := by
  cases h with
  | unborn _ _ hhere' | unsaid _ _ _ hhere' | away _ _ hhere' | leaving _ _ _ hhere'
  | dying _ _ _ hhere' | dead _ _ hhere' =>
      rw [hhere] at hhere'
      contradiction
  | present hborn hp _ hreg howes =>
      have hnone : l.owes = fun _ => none := by
        funext j
        exact (howes j).resolve_right fun h => hlocated ⟨j, h⟩
      have hround := hp.resolve_right fun h => hlocated h.2
      exact .leaving i hborn hround rfl (only_owe hnone i .notFound)

/-- A device is deleted that is nowhere, and has not been deleted, when nobody owes
anything else about it. -/
theorem Good.delete (h : l.Good) (hborn : l.born = true) (hhere : l.here = false)
    (hdead : .deleted ∉ l.word) (hadded : ¬ ∃ j, l.owes j = some .added)
    (hgone : ¬ ∃ j, l.owes j = some .notFound) (hdeleted : ¬ ∃ j, l.owes j = some .deleted) (i : ι) :
    (l.delete i).Good := by
  cases h with
  | unborn hborn' =>
      rw [hborn] at hborn'
      contradiction
  | unsaid j _ _ _ howes => exact absurd ⟨j, howes.self⟩ hadded
  | leaving j _ _ _ howes => exact absurd ⟨j, howes.self⟩ hgone
  | dying j _ _ _ _ howes => exact absurd ⟨j, howes.self⟩ hdeleted
  | away _ hp _ howes => exact .dying i hborn hp hhere rfl (only_owe howes i .deleted)
  | present _ _ hhere' =>
      rw [hhere] at hhere'
      contradiction
  | dead _ hp =>
      have hwords := words_after l.word
      rw [← phase, hp] at hwords
      obtain ⟨rounds, hword⟩ := hwords
      refine absurd ?_ hdead
      rw [hword]
      exact List.mem_append_right _ (List.mem_singleton_self _)

/-- A device that is nowhere is forgotten. -/
theorem Good.forget (h : l.Good) (hhere : l.here = false) : l.forget.Good := by
  cases h with
  | unborn hborn hp _ _ howes => exact .unborn hborn hp hhere rfl howes
  | unsaid i hborn hp _ howes => exact .unsaid i hborn hp hhere howes
  | away hborn hp _ howes => exact .away hborn hp hhere howes
  | present _ _ hhere' =>
      rw [hhere] at hhere'
      contradiction
  | leaving i hborn hp _ howes => exact .leaving i hborn hp hhere howes
  | dying i hborn hp _ _ howes => exact .dying i hborn hp hhere rfl howes
  | dead hborn hp _ _ howes => exact .dead hborn hp hhere rfl howes

/-! What can be read off a stage. -/

/-- A life that is good is a sentence. -/
theorem Good.sentence (h : l.Good) : Sentence l.word := by
  rw [sentence_iff]
  show l.phase ≠ bad
  cases h with
  | unborn _ hp | unsaid _ _ hp | away _ hp | leaving _ _ hp | dying _ _ hp | dead _ hp =>
      rw [hp]
      decide
  | present _ hp =>
      rcases hp with hp | ⟨hp, -⟩
      · rw [hp]
        decide
      · rw [hp]
        decide

/-- A device that is somewhere is registered. -/
theorem Good.registered (h : l.Good) (hhere : l.here = true) : l.registered = true := by
  cases h with
  | present _ _ _ hreg => exact hreg
  | unborn _ _ hhere' | unsaid _ _ _ hhere' | away _ _ hhere' | leaving _ _ _ hhere'
  | dying _ _ _ hhere' | dead _ _ hhere' =>
      rw [hhere] at hhere'
      contradiction

/-- A device that has been deleted is nowhere. -/
theorem Good.here_of_deleted (h : l.Good) (hdead : .deleted ∈ l.word) : l.here = false := by
  have hafter : l.phase = .deleted ∨ l.phase = bad := after_of_deleted hdead
  cases h with
  | unborn _ _ hhere | unsaid _ _ _ hhere | away _ _ hhere | leaving _ _ _ hhere
  | dying _ _ _ hhere | dead _ _ hhere => exact hhere
  | present _ hp =>
      rcases hp with hp | ⟨hp, -⟩
      · rw [hp] at hafter
        exact absurd hafter (by decide)
      · rw [hp] at hafter
        exact absurd hafter (by decide)

end Life

namespace Tasks

open Program

/-- The events about every device form a sentence; a device that is anywhere is
registered, and has not been deleted. -/
structure Grammatical (t : Tasks) : Prop where
  sentence : ∀ r, Sentence (t.shared.service.word r)
  registered : ∀ r, (t.shared.service.dev r).bus ≠ none →
    t.shared.service.devices.get? (t.shared.service.dev r).id = some r
  deleted : ∀ r, .deleted ∈ t.shared.service.word r → (t.shared.service.dev r).bus = none

/-- What keeps the events in order, with nobody left in the middle of something. -/
def Orderly (t : Tasks) : Action → Prop
  | .resume i _ =>
    match (t.task i).head with
    | some (.getDevice id) =>
      -- no device that is located is replaced
      t.shared.service.devices.get? id = none →
        ∀ r ∈ t.shared.service.devices.get? (upper id), (t.shared.service.dev r).bus = none
    | some (.assign b r) =>
      (t.shared.service.dev r).bus ≠ some b →
        t.shared.service.devices.get? (t.shared.service.dev r).id = some r ∧
          ¬ t.Owes (.added r) ∧ ¬ t.Owes (.gone r)
    | some (.unlocate b r) =>
      (t.shared.service.dev r).bus = some b →
        t.shared.service.lookup b (t.shared.service.dev r).id ≠ none → ¬ t.Owes (.located r)
    | some (.deleteDevice r) =>
      (t.shared.service.dev r).bus = none →
        ∀ r' ∈ t.shared.service.devices.get? (t.shared.service.dev r).id,
          (t.shared.service.dev r').bus = none ∧ .deleted ∉ t.shared.service.word r ∧
            ¬ t.Owes (.added r) ∧ ¬ t.Owes (.gone r) ∧ ¬ t.Owes (.deleted r)
    | _ => True
  | _ => True

instance (t : Tasks) (a : Action) : Decidable (t.Orderly a) := by
  induction a using Action.casesOn with
  | resume i reply =>
      dsimp only [Orderly]
      generalize (t.task i).head = o
      induction o using Option.casesOn with
      | none => exact instDecidableTrue
      | some c => induction c using Cmd.casesOn <;> infer_instance
  | _ => exact instDecidableTrue

/-- All lives are in order. -/
structure Living (t : Tasks) : Prop extends Named t where
  good : ∀ r, (t.life r).Good

/-- In the beginning no device is born. -/
theorem living_init : init.Living := ⟨named_init, fun _ => .unborn rfl rfl rfl rfl rfl⟩

/-- Good lives are told in sentences. -/
theorem Living.grammatical {t : Tasks} (ht : t.Living) : t.Grammatical := by
  refine ⟨fun r => (ht.good r).sentence, fun r hbus => ?_, fun r hdead => ?_⟩
  · exact of_decide_eq_true ((ht.good r).registered (Option.isSome_iff_ne_none.mpr hbus))
  · exact Option.isSome_eq_false_iff.mp ((ht.good r).here_of_deleted hdead) |> Option.isNone_iff_eq_none.mp

/-- **One step** leads from stage to stage in every life. -/
theorem living_step {t t' : Tasks} {a : Action} (ht : t.Living) (ha : t.Orderly a)
    (h : t.step a = some t') : t'.Living := by
  refine ⟨named_step ht.toNamed h, fun r => ?_⟩
  rcases life_step ht.toNamed h with ⟨-, hsame⟩ | ⟨i, reply, c, rfl, hhead, hchange⟩
  · rw [hsame]
    exact ht.good r
  · have hr := hchange r
    generalize t'.life r = l at hr
    rw [Orderly, hhead] at ha
    have hgood := ht.good r
    cases hr with
    | same => exact hgood
    | register hnone hid => exact hgood.register (by simp [life]) i
    | replace hnone hid hget => exact hgood.forget (by simp [life, ha hnone r hget])
    | tell howes => exact hgood.tell howes
    | assign hbus =>
        obtain ⟨hreg, hadded, hgone⟩ := ha hbus
        refine hgood.assign (decide_eq_true hreg) ?_ ?_ i
        · rwa [ht.owes_iff Owed.about_added]
        · rwa [ht.owes_iff Owed.about_notFound]
    | unlocate hbus hlook =>
        refine hgood.unlocate (by simp [life, hbus]) ?_ i
        rw [ht.owes_iff Owed.about_located]
        exact ha hbus hlook
    | delete hbus hborn hsome =>
        obtain ⟨r', hr'⟩ := Option.ne_none_iff_exists'.mp hsome
        obtain ⟨-, hdead, hadded, hgone, hdeleted⟩ := ha hbus r' hr'
        refine hgood.delete (decide_eq_true hborn) (by simp [life, hbus]) hdead ?_ ?_ ?_ i
        · rwa [ht.owes_iff Owed.about_added]
        · rwa [ht.owes_iff Owed.about_notFound]
        · rwa [ht.owes_iff Owed.about_deleted]
    | drop hne hbus hget => exact hgood.forget (by simp [life, (ha hbus r hget).1])

/-! ## Runs -/

/-- **The events about every device form a sentence**, and only registered devices are
anywhere, in all states of a run whose steps are orderly. -/
theorem grammatical_of_orderly (as : List Action) (has : AllSteps step Orderly init as) :
    AllStates step Grammatical init as :=
  (guarded_allStates (fun _ _ _ ht ha h => living_step ht ha h) living_init has).imp
    fun _ ht => ht.grammatical

/-- A thermometer is located, is missed by four scans, and is deleted; then it is
found again, and is another device. -/
def comesBack : List Action :=
  .scan false 0 twoOnBus :: go (.call 0) 23 ++
  .scan false 0 oneOnBus :: go (.call 1) 10 ++
  .scan false 0 oneOnBus :: go (.call 2) 10 ++
  .scan false 0 oneOnBus :: go (.call 3) 10 ++
  .scan false 0 oneOnBus :: go (.call 4) 12 ++
  .deleteDevice 1 :: go (.call 5) 2 ++
  .scan false 0 twoOnBus :: go (.call 6) 18

/-- A device goes, is deleted, and comes back as another one. -/
theorem grammatical_comesBack :
    AllSteps step Orderly init comesBack ∧
    (run step init comesBack).map (fun t => (t.shared.service.word 1, t.shared.service.word 2)) =
      some ([.added, .located, .notFound, .deleted], [.added, .located]) ∧
    AllStates step Grammatical init comesBack :=
  ⟨by decide +kernel, by decide +kernel, grammatical_of_orderly comesBack (by decide +kernel)⟩

/-- A device is deleted when a scan has fetched it and has not located it yet. -/
def deletedMeanwhile : List Action :=
  .getDevice "10.67C6697351FF.8D" :: go (.call 0) 2 ++
  .scan false 0 oneOnBus :: go (.call 1) 6 ++
  .deleteDevice 0 :: go (.call 2) 2 ++ go (.call 1) 4

/-- The deleted device is located. -/
theorem not_grammatical_deletedMeanwhile :
    (∃ t, run step init deletedMeanwhile = some t ∧
      t.shared.service.word 0 = [.added, .deleted, .located] ∧
      (t.shared.service.dev 0).bus = some ⟨0, ["bus.0"]⟩ ∧
      t.shared.service.devices.get? "10.67C6697351FF.8D" = none) ∧
    ¬ AllStates step Grammatical init deletedMeanwhile := by
  have hrun : (run step init deletedMeanwhile).any (fun t =>
      t.shared.service.word 0 = [.added, .deleted, .located] ∧
      (t.shared.service.dev 0).bus = some ⟨0, ["bus.0"]⟩ ∧
      t.shared.service.devices.get? "10.67C6697351FF.8D" = none) = true := by decide +kernel
  obtain ⟨t, ht, hword⟩ := (Option.any_eq_true _ _).mp hrun
  have hword := of_decide_eq_true hword
  refine ⟨⟨t, ht, hword⟩, fun hall => ?_⟩
  have hsentence := (hall.of_run ht).sentence 0
  rw [hword.1] at hsentence
  exact absurd hsentence (by decide)

end Tasks

end AsyncOwfs
