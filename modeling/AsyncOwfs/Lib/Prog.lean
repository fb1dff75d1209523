import AsyncOwfs.Lib.Hoare
import Mathlib.Logic.Function.Basic

/-!
# AsyncOwfs.Lib.Prog

Programs that several tasks run on one state.

A program is a tree of commands: each command is atomic, and what it returns or
raises says how the program goes on.  Between two commands any other task may do
one.  A pool holds the state and what is left of the program of every task.

What can be said of a program without the state goes into a `Contract`: an
abstract state, the commands that are in order in it, and how they change it.
`Meets` says that a program keeps to a contract, with a rule for each way to build
programs.
-/

/-- A program of commands `c` with results of type `Ret c`. -/
inductive Prog (Cmd : Type) (Ret : Cmd → Type) (ε α : Type) : Type
  | done (a : α)
  | raise (e : ε)
  | cmd (c : Cmd) (k : Except ε (Ret c) → Prog Cmd Ret ε α)

namespace Prog

variable {Cmd : Type} {Ret : Cmd → Type} {ε α β : Type}

def bind (p : Prog Cmd Ret ε α) (f : α → Prog Cmd Ret ε β) : Prog Cmd Ret ε β :=
  match p with
  | done a => f a
  | raise e => raise e
  | cmd c k => cmd c fun r => (k r).bind f

instance : Monad (Prog Cmd Ret ε) where
  pure := done
  bind := bind

/-- One command. -/
def perform (c : Cmd) : Prog Cmd Ret ε (Ret c) :=
  cmd c fun
    | .ok a => done a
    | .error e => raise e

/-- `try` .. `except` -/
def handle (p : Prog Cmd Ret ε α) (h : ε → Prog Cmd Ret ε α) : Prog Cmd Ret ε α :=
  match p with
  | done a => done a
  | raise e => h e
  | cmd c k => cmd c fun r => (k r).handle h

/-- The command that the program does next. -/
def head : Prog Cmd Ret ε α → Option Cmd
  | cmd c _ => some c
  | _ => none

/-- The program has ended with an exception. -/
def Failed : Prog Cmd Ret ε α → Prop
  | raise _ => True
  | _ => False

instance (p : Prog Cmd Ret ε α) : Decidable p.Failed := by
  unfold Failed
  split <;> infer_instance

/-- The exception that the program has ended with. -/
def raised : Prog Cmd Ret ε α → Option ε
  | raise e => some e
  | _ => none

/-- Which commands are in order, and how they change an abstract state `W`. -/
structure Contract (Cmd : Type) (Ret : Cmd → Type) (ε W : Type) where
  ok : W → Cmd → Prop
  next : W → (c : Cmd) → Except ε (Ret c) → W → Prop

variable {W : Type} (C : Contract Cmd Ret ε W)

/-- All commands of the program are in order, whatever they return; it ends in `Q`,
or raises in `E`. -/
def Meets (Q : α → W → Prop) (E : ε → W → Prop) : Prog Cmd Ret ε α → W → Prop
  | done a, w => Q a w
  | raise e, w => E e w
  | cmd c k, w => C.ok w c ∧ ∀ r w', C.next w c r w' → (k r).Meets Q E w'

variable {C} {Q Q' : α → W → Prop} {E E' : ε → W → Prop} {w : W}

theorem Meets.mono {p : Prog Cmd Ret ε α} (h : p.Meets C Q E w) (hQ : ∀ a w, Q a w → Q' a w)
    (hE : ∀ e w, E e w → E' e w) : p.Meets C Q' E' w := by
  induction p generalizing w with
  | done a => exact hQ a w h
  | raise e => exact hE e w h
  | cmd c k ih => exact ⟨h.1, fun r w' hr => ih r (h.2 r w' hr)⟩

/-- One command. -/
theorem meets_perform {c : Cmd} {Q : Ret c → W → Prop} (hok : C.ok w c)
    (hQ : ∀ a w', C.next w c (.ok a) w' → Q a w')
    (hE : ∀ e w', C.next w c (.error e) w' → E e w') :
    (perform c : Prog Cmd Ret ε (Ret c)).Meets C Q E w := by
  refine ⟨hok, fun r w' hr => ?_⟩
  cases r with
  | ok a => exact hQ a w' hr
  | error e => exact hE e w' hr

theorem meets_bind {p : Prog Cmd Ret ε α} {f : α → Prog Cmd Ret ε β} {Q' : β → W → Prop}
    (hp : p.Meets C Q E w) (hf : ∀ a w, Q a w → (f a).Meets C Q' E w) :
    (p >>= f).Meets C Q' E w := by
  induction p generalizing w with
  | done a => exact hf a w hp
  | raise e => exact hp
  | cmd c k ih => exact ⟨hp.1, fun r w' hr => ih r (hp.2 r w' hr)⟩

/-- One command, and what comes behind it. -/
theorem meets_step {c : Cmd} {f : Ret c → Prog Cmd Ret ε β} {Q : β → W → Prop}
    (hok : C.ok w c) (hf : ∀ a w', C.next w c (.ok a) w' → (f a).Meets C Q E w')
    (hE : ∀ e w', C.next w c (.error e) w' → E e w') :
    (perform c >>= f : Prog Cmd Ret ε β).Meets C Q E w :=
  meets_bind (Q := fun a w' => C.next w c (.ok a) w') (meets_perform hok (fun _ _ h => h) hE) hf

/-- An exception is handled from where it has been raised. -/
theorem meets_handle {p : Prog Cmd Ret ε α} {h : ε → Prog Cmd Ret ε α} (hp : p.Meets C Q E w)
    (hh : ∀ e w, E e w → (h e).Meets C Q E' w) : (p.handle h).Meets C Q E' w := by
  induction p generalizing w with
  | done a => exact hp
  | raise e => exact hh e w hp
  | cmd c k ih => exact ⟨hp.1, fun r w' hr => ih r (hp.2 r w' hr)⟩

/-- Behind a change `R` of the abstract state, the contract asks for no more, and allows
no other results. -/
structure Contract.Stable (C : Contract Cmd Ret ε W) (R : W → W → Prop) : Prop where
  ok : ∀ w w' c, R w w' → C.ok w c → C.ok w' c
  next : ∀ w w' c r w'', R w w' → C.next w' c r w'' → C.next w c r w''

/-- **Others** may change the abstract state before the program goes on. -/
theorem Meets.of_stable {R : W → W → Prop} (hC : C.Stable R) {p : Prog Cmd Ret ε α} {w' : W}
    (h : p.Meets C Q E w) (hw : R w w') (hQ : ∀ a, Q a w → Q a w') (hE : ∀ e, E e w → E e w') :
    p.Meets C Q E w' := by
  cases p with
  | done a => exact hQ a h
  | raise e => exact hE e h
  | cmd c k => exact ⟨hC.ok w w' c hw h.1, fun r w'' hr => h.2 r w'' (hC.next w w' c r w'' hw hr)⟩

/-- **Loops** that leave the abstract state in `I`. -/
theorem meets_forM {f : α → Prog Cmd Ret ε PUnit} {I : W → Prop} (l : List α)
    (hf : ∀ a ∈ l, ∀ w, I w → (f a).Meets C (fun _ => I) E w) {w : W} (hw : I w) :
    (l.forM f).Meets C (fun _ => I) E w := by
  induction l generalizing w with
  | nil => exact hw
  | cons a l ih =>
      rw [List.forM]
      exact meets_bind (hf a List.mem_cons_self w hw) fun _ w' hw' =>
        ih (fun b hb => hf b (List.mem_cons_of_mem a hb)) hw'

end Prog

/-! ## Pools -/

/-- The state that the tasks share, and what is left of the program of each. -/
structure Pool (ι σ : Type) (Cmd : Type) (Ret : Cmd → Type) (ε α : Type) where
  shared : σ
  task : ι → Prog Cmd Ret ε α

namespace Pool

open Prog Hoare

variable {ι σ Cmd : Type} {Ret : Cmd → Type} {ε α : Type} [DecidableEq ι]

/-- A task starts. -/
def start (p : Pool ι σ Cmd Ret ε α) (i : ι) (x : Prog Cmd Ret ε α) : Pool ι σ Cmd Ret ε α :=
  { p with task := Function.update p.task i x }

/-- The task does its next command. -/
def resume (exec : (c : Cmd) → EStateM ε σ (Ret c)) (p : Pool ι σ Cmd Ret ε α) (i : ι) :
    Option (Pool ι σ Cmd Ret ε α) :=
  match p.task i with
  | cmd c k =>
    match exec c p.shared with
    | .ok a s => some { shared := s, task := Function.update p.task i (k (.ok a)) }
    | .error e s => some { shared := s, task := Function.update p.task i (k (.error e)) }
  | _ => none

/-- What a step of a task comes down to. -/
theorem resume_cases {exec : (c : Cmd) → EStateM ε σ (Ret c)} {p p' : Pool ι σ Cmd Ret ε α} {i : ι}
    (h : p.resume exec i = some p') :
    ∃ c k r s, p.task i = cmd c k ∧ Outcome (exec c) p.shared r s ∧
      p' = { shared := s, task := Function.update p.task i (k r) } := by
  rw [resume] at h
  split at h
  · next c k heq =>
    split at h
    · next a s hexec =>
      rw [Option.some.injEq] at h
      exact ⟨c, k, .ok a, s, heq, hexec, h.symm⟩
    · next e s hexec =>
      rw [Option.some.injEq] at h
      exact ⟨c, k, .error e, s, heq, hexec, h.symm⟩
  · contradiction

end Pool
