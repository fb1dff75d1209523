import Mathlib.Data.List.Forall2

/-!
# AsyncOwfs.Lib.Separated

Lists that are written with a separator between their elements, and read by splitting
at the separator and decoding the pieces.

What is read is what was written if and only if there was an element, and no element
has the separator in it (`split_join_iff`): no elements and one element that is empty
are written alike.
-/

namespace Separated

section MapM

variable {α β ε : Type} {f : α → Except ε β} {xs : List α} {ys : List β}

theorem mapM_of_forall₂ (h : List.Forall₂ (fun x y => f x = .ok y) xs ys) :
    xs.mapM f = .ok ys := by
  induction h with
  | nil => rfl
  | cons hx _ ih =>
      rw [List.mapM_cons, hx, ih]
      rfl

theorem forall₂_of_mapM (h : xs.mapM f = .ok ys) :
    List.Forall₂ (fun x y => f x = .ok y) xs ys := by
  induction xs generalizing ys with
  | nil =>
      injection h with h
      simp [← h]
  | cons x xs ih =>
      rw [List.mapM_cons] at h
      cases hx : f x with
      | error e => simp [hx, bind, Except.bind] at h
      | ok y =>
          cases hxs : xs.mapM f with
          | error e => simp [hx, hxs, bind, Except.bind] at h
          | ok rest =>
              rw [hx, hxs] at h
              injection h with h
              rw [← h]
              exact .cons hx (ih hxs)

/-- A result comes from somewhere. -/
theorem exists_of_mem_mapM (h : xs.mapM f = .ok ys) {y : β} (hy : y ∈ ys) :
    ∃ x ∈ xs, f x = .ok y := by
  have hall := forall₂_of_mapM h
  clear h
  induction hall with
  | nil => simp at hy
  | cons hx _ ih => grind

end MapM

section Split

variable {β : Type} [BEq β] [LawfulBEq β]

theorem notMem_of_mem_splitOn {sep : β} {xs piece : List β} (h : piece ∈ xs.splitOn sep) :
    sep ∉ piece := by
  induction xs generalizing piece with
  | nil => simp_all
  | cons x xs ih =>
      rw [List.splitOn_cons_eq_if_modifyHead] at h
      split at h
      · cases List.mem_cons.mp h with
        | inl h => simp [h]
        | inr h => exact ih h
      · next hx =>
        have hne : sep ≠ x := by
          intro heq
          simp [heq] at hx
        cases hs : xs.splitOn sep with
        | nil => simp [hs] at h
        | cons first rest =>
            rw [hs] at h ih
            rw [List.modifyHead_cons] at h
            cases List.mem_cons.mp h with
            | inl h => simp [h, hne, ih List.mem_cons_self]
            | inr h => exact ih (List.mem_cons_of_mem _ h)

variable {α ε : Type} {sep : β} {enc : α → List β} {dec : List β → Except ε α} {as : List α}

/-- Elements without the separator in them are read as they were written. -/
theorem split_join (hne : as ≠ []) (hsep : ∀ a ∈ as, sep ∉ enc a)
    (hdec : ∀ a ∈ as, dec (enc a) = .ok a) :
    (([sep].intercalate (as.map enc)).splitOn sep).mapM dec = .ok as := by
  rw [List.splitOn_intercalate sep (by simpa using hsep) (by simpa using hne)]
  apply mapM_of_forall₂
  rw [List.forall₂_map_left_iff, List.forall₂_same]
  exact hdec

/-- **Round trip**, where the decoder takes a separator only from a piece that has one. -/
theorem split_join_iff (hdec : ∀ a ∈ as, dec (enc a) = .ok a)
    (honly : ∀ a ∈ as, ∀ piece, dec piece = .ok a → sep ∈ enc a → sep ∈ piece) :
    (([sep].intercalate (as.map enc)).splitOn sep).mapM dec = .ok as ↔
      as ≠ [] ∧ ∀ a ∈ as, sep ∉ enc a := by
  constructor
  · intro h
    constructor
    · intro hnil
      have hlength := (forall₂_of_mapM h).length_eq
      simp [hnil] at hlength
    · intro a ha hmem
      obtain ⟨piece, hpiece, hok⟩ := exists_of_mem_mapM h ha
      exact notMem_of_mem_splitOn hpiece (honly a ha piece hok hmem)
  · intro h
    exact split_join h.1 h.2 hdec

end Split

end Separated
