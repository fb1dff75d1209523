import Mathlib.Data.List.Basic

/-!
# AsyncOwfs.Lib.Slot

A slot that several writers fill, one after the other.

A writer that puts its value there overwrites what it finds.  One that offers it does
so only where the value that it finds is loose.  Writers that have been stopped in
between can begin anew: what they have written before makes no difference at the end
(`writeAll_replay`).
-/

inductive Write (α : Type u)
  | put (a : α)
  | offer (a : α)
  deriving DecidableEq, Repr

namespace Write

variable {α : Type u} (loose : α → Prop) [DecidablePred loose]

def write (x : α) : Write α → α
  | put a => a
  | offer a => if loose x then a else x

def writeAll (x : α) (ws : List (Write α)) : α := ws.foldl (write loose) x

@[simp] theorem writeAll_nil (x : α) : writeAll loose x [] = x := rfl

@[simp] theorem writeAll_cons (x : α) (w : Write α) (ws : List (Write α)) :
    writeAll loose x (w :: ws) = writeAll loose (write loose x w) ws := rfl

theorem writeAll_append (x : α) (ws ws' : List (Write α)) :
    writeAll loose x (ws ++ ws') = writeAll loose (writeAll loose x ws) ws' :=
  List.foldl_append

/-- What a writer brings. -/
def value : Write α → α
  | put a => a
  | offer a => a

/-- What is there at the end was there before, or somebody has brought it. -/
theorem writeAll_cases (x : α) (ws : List (Write α)) :
    writeAll loose x ws = x ∨ ∃ w ∈ ws, w.value = writeAll loose x ws := by
  induction ws generalizing x with
  | nil => exact .inl rfl
  | cons w ws ih =>
      rw [writeAll_cons]
      cases ih (write loose x w) with
      | inr h =>
          obtain ⟨w', hmem, hw'⟩ := h
          exact .inr ⟨w', List.mem_cons_of_mem w hmem, hw'⟩
      | inl h =>
          rw [h]
          cases w with
          | put a => exact .inr ⟨put a, List.mem_cons_self, rfl⟩
          | offer a =>
              by_cases hx : loose x
              · exact .inr ⟨offer a, List.mem_cons_self, by simp [write, value, hx]⟩
              · exact .inl (by simp [write, hx])

/-- What is put does not depend on what was there. -/
theorem writeAll_of_put {a : α} {ws : List (Write α)} (h : put a ∈ ws) (x y : α) :
    writeAll loose x ws = writeAll loose y ws := by
  induction ws generalizing x y with
  | nil => exact absurd h List.not_mem_nil
  | cons w ws ih =>
      rcases List.mem_cons.mp h with rfl | h
      · rfl
      · exact ih h _ _

/-- What is not loose stays, if it is only offers that come. -/
theorem writeAll_of_fixed {x : α} (hx : ¬ loose x) {ws : List (Write α)} (h : ∀ a, put a ∉ ws) :
    writeAll loose x ws = x := by
  induction ws with
  | nil => rfl
  | cons w ws ih =>
      cases w with
      | put a => exact absurd List.mem_cons_self (h a)
      | offer a =>
          rw [writeAll_cons, write, if_neg hx]
          exact ih fun a ha => h a (List.mem_cons_of_mem _ ha)

/-- **Replay**: to write the first part twice makes no difference. -/
theorem writeAll_replay {ws ws' : List (Write α)} (h : ws' <+: ws) (x : α) :
    writeAll loose (writeAll loose x ws') ws = writeAll loose x ws := by
  by_cases hput : ∃ a, put a ∈ ws
  · obtain ⟨a, ha⟩ := hput
    exact writeAll_of_put loose ha _ _
  · have hoffers : ∀ a, put a ∉ ws := fun a ha => hput ⟨a, ha⟩
    obtain ⟨ws'', rfl⟩ := h
    have hfirst : ∀ a, put a ∉ ws' := fun a ha => hoffers a (List.mem_append_left ws'' ha)
    have hsecond : ∀ a, put a ∉ ws'' := fun a ha => hoffers a (List.mem_append_right ws' ha)
    by_cases hloose : loose (writeAll loose x ws')
    · -- then the slot was loose before that, and the first offer was taken
      have htwice : writeAll loose (writeAll loose x ws') ws' = writeAll loose x ws' := by
        cases ws' with
        | nil => rfl
        | cons w ws' =>
            cases w with
            | put a => exact absurd List.mem_cons_self (hfirst a)
            | offer a =>
                have hx : loose x := by
                  by_contra hx
                  rw [writeAll_of_fixed loose hx hfirst] at hloose
                  exact hx hloose
                rw [writeAll_cons, writeAll_cons, write, write, if_pos hx]
                rw [writeAll_cons, write, if_pos hx] at hloose
                rw [if_pos hloose]
      rw [writeAll_append, htwice, writeAll_append]
    · rw [writeAll_of_fixed loose hloose hoffers, writeAll_append,
        writeAll_of_fixed loose hloose hsecond]

end Write
