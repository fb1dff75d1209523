import Mathlib.Data.List.Nodup

/-!
# AsyncOwfs.Lib.Tracking

Keeping track of where things are, from sweeps over the places that they may be
at.

A sweep visits places and sights names there.  A tracker has a slot for every
name: its place, and how often it has been missed there.  A name that is missed
too often loses its place.

`Tracks` says what a sweep does to the slots.  Sweeps compose (`Tracks.append`),
so that a sweep over many places is understood one place at a time.  A record of
everything that was reported says where a name is on account of its history
alone; slots that follow the record (`Follows`) go on doing so, if a sweep misses
no place.
-/

namespace Tracking

variable {β : Type u} {ν : Type v}

/-- Where a name is, and how often it was missed there. -/
structure Slot (β : Type u) where
  place : Option β := none
  misses : Nat := 0
  deriving DecidableEq

/-- A miss: one more, or the name has no place any longer. -/
def Slot.missed (limit : Nat) (x : Slot β) : Slot β :=
  if x.misses > limit then { x with place := none } else { x with misses := x.misses + 1 }

theorem Slot.place_missed {limit : Nat} {x : Slot β} {c : β}
    (h : (x.missed limit).place = some c) : x.place = some c := by
  rw [missed] at h
  split at h
  · contradiction
  · exact h

/-! ## Sweeps -/

/-- The effect of a sweep that visits `V` and sights `S`: a name that is sighted
is where it was sighted, and was nowhere else that the sweep had not visited
before; of the others, those that should have been there are missed. -/
structure Tracks (limit : Nat) (V : List β) (S : List (β × ν)) (f g : ν → Slot β) : Prop where
  sighted : ∀ c n, (c, n) ∈ S → g n = ⟨some c, 0⟩ ∧ ∀ x, (f n).place = some x → x = c ∨ x ∈ V
  missed : ∀ n x, n ∉ S.map Prod.snd → (f n).place = some x → x ∈ V → g n = (f n).missed limit
  same : ∀ n, n ∉ S.map Prod.snd → (∀ x ∈ V, (f n).place ≠ some x) → g n = f n

namespace Tracks

variable {limit : Nat} {V V' : List β} {S S' : List (β × ν)} {f g h : ν → Slot β}

theorem refl (f : ν → Slot β) : Tracks limit [] [] f f :=
  ⟨fun _ _ h => absurd h List.not_mem_nil, fun _ _ _ _ h => absurd h List.not_mem_nil,
    fun _ _ _ => rfl⟩

/-- Whoever is not sighted has its old place, or none. -/
theorem place_of_notMem (hfg : Tracks limit V S f g) {n : ν} (hn : n ∉ S.map Prod.snd) {c : β}
    (hc : (g n).place = some c) : (f n).place = some c := by
  by_cases hV : ∃ x ∈ V, (f n).place = some x
  · obtain ⟨x, hx, hfx⟩ := hV
    rw [hfg.missed n x hn hfx hx] at hc
    exact Slot.place_missed hc
  · rw [hfg.same n hn fun x hx hfx => hV ⟨x, hx, hfx⟩] at hc
    exact hc

/-- A sweep somewhere else leaves a slot alone. -/
theorem same_of_notMem (hfg : Tracks limit V S f g) (hS : ∀ x ∈ S, x.1 ∈ V) {n : ν} {c : β}
    (hc : (f n).place = some c) (hV : c ∉ V) : g n = f n ∧ n ∉ S.map Prod.snd := by
  have hn : n ∉ S.map Prod.snd := by
    intro hn
    obtain ⟨⟨x, n⟩, hx, rfl⟩ := List.mem_map.mp hn
    rcases (hfg.sighted x n hx).2 c hc with rfl | h
    · exact hV (hS _ hx)
    · exact hV h
  refine ⟨hfg.same n hn fun x hx hfx => ?_, hn⟩
  rw [hc, Option.some.injEq] at hfx
  exact hV (hfx ▸ hx)

/-- **Sweeps compose**, if the second one neither visits nor sights again what
the first one has visited or sighted. -/
theorem append (hfg : Tracks limit V S f g) (hgh : Tracks limit V' S' g h)
    (hV : V.Disjoint V') (hS : (S.map Prod.snd).Disjoint (S'.map Prod.snd))
    (hc : ∀ x ∈ S, x.1 ∉ V') : Tracks limit (V ++ V') (S ++ S') f h := by
  constructor
  · intro c n hn
    rcases List.mem_append.mp hn with hn | hn
    · -- sighted by the first: the second one does not look for it
      obtain ⟨hg, hf⟩ := hfg.sighted c n hn
      have hn' : n ∉ S'.map Prod.snd := fun h' => hS (List.mem_map_of_mem hn) h'
      have hgc : (g n).place = some c := by rw [hg]
      have hh : h n = g n := by
        refine hgh.same n hn' fun x hx hgx => ?_
        rw [hgc, Option.some.injEq] at hgx
        exact hc _ hn (hgx ▸ hx)
      exact ⟨hh.trans hg, fun x hx => (hf x hx).imp_right (List.mem_append_left V')⟩
    · -- sighted by the second: the first one may have missed it
      obtain ⟨hh, hg⟩ := hgh.sighted c n hn
      have hn' : n ∉ S.map Prod.snd := fun h' => hS h' (List.mem_map_of_mem hn)
      refine ⟨hh, fun x hx => ?_⟩
      by_cases hxV : x ∈ V
      · exact .inr (List.mem_append_left V' hxV)
      · have hgf : g n = f n := by
          refine hfg.same n hn' fun y hy hfy => ?_
          rw [hx, Option.some.injEq] at hfy
          exact hxV (hfy ▸ hy)
        exact (hg x (hgf ▸ hx)).imp_right (List.mem_append_right V)
  · intro n x hn hx hxV
    rw [List.map_append, List.mem_append, not_or] at hn
    rcases List.mem_append.mp hxV with hxV | hxV
    · have hg := hfg.missed n x hn.1 hx hxV
      have hh : h n = g n := by
        refine hgh.same n hn.2 fun y hy hgy => ?_
        have hfy := hfg.place_of_notMem hn.1 hgy
        rw [hx, Option.some.injEq] at hfy
        exact hV hxV (hfy ▸ hy)
      exact hh.trans hg
    · have hg : g n = f n := by
        refine hfg.same n hn.1 fun y hy hfy => ?_
        rw [hx, Option.some.injEq] at hfy
        exact hV (hfy ▸ hy) hxV
      rw [hgh.missed n x hn.2 (hg ▸ hx) hxV, hg]
  · intro n hn hx
    rw [List.map_append, List.mem_append, not_or] at hn
    have hg := hfg.same n hn.1 fun y hy => hx y (List.mem_append_left V' hy)
    rw [hgh.same n hn.2 fun y hy => hg ▸ hx y (List.mem_append_right V hy), hg]

end Tracks

/-! ## Records -/

/-- What is reported: a sweep, or that names were noticed at a place. -/
inductive Report (β : Type u) (ν : Type v)
  | sweep (sighted : List (β × ν))
  | notice (c : β) (names : List ν)

/-- Where a name was reported last, and how many sweeps have missed it since. -/
structure Record (β : Type u) where
  last : Option β := none
  missed : Nat := 0

variable [DecidableEq ν]

def Record.after (n : ν) (x : Record β) : Report β ν → Record β
  | .sweep sighted =>
    match sighted.find? (·.2 = n) with
    | some (c, _) => ⟨some c, 0⟩
    | none => { x with missed := x.missed + 1 }
  | .notice c names => if n ∈ names then ⟨some c, 0⟩ else x

/-- The record of a name. -/
def record (n : ν) (reports : List (Report β ν)) : Record β :=
  reports.foldl (Record.after n) {}

/-- Where the name is: where it was reported last, unless `patience` sweeps have
missed it since. -/
def Record.place (patience : Nat) (x : Record β) : Option β :=
  if x.missed < patience then x.last else none

/-- The slot says what the record says. -/
structure Follows (limit : Nat) (x : Slot β) (y : Record β) : Prop where
  place : x.place = y.place (limit + 2)
  misses : x.place ≠ none → x.misses = y.missed

theorem follows_init (limit : Nat) : Follows limit ({} : Slot β) {} := by
  constructor
  · rw [Record.place]
    split <;> rfl
  · intro h
    contradiction

/-- **A sweep that leaves no place out** is what the record counts. -/
theorem Follows.sweep {limit : Nat} {V : List β} {S : List (β × ν)} {f g : ν → Slot β}
    {n : ν} {y : Record β} (hf : Follows limit (f n) y) (h : Tracks limit V S f g)
    (hV : ∀ x, (f n).place = some x → x ∈ V) : Follows limit (g n) (y.after n (.sweep S)) := by
  rw [Record.after]
  split
  · next c m hfind =>
    have hm : m = n := by simpa using List.find?_some hfind
    have hS : (c, n) ∈ S := hm ▸ List.mem_of_find?_eq_some hfind
    rw [(h.sighted c n hS).1]
    constructor
    · rw [Record.place, if_pos (Nat.zero_lt_succ _)]
    · exact fun _ => rfl
  · next hfind =>
    have hS : n ∉ S.map Prod.snd := by
      intro hn
      obtain ⟨x, hx, rfl⟩ := List.mem_map.mp hn
      simpa using List.find?_eq_none.mp hfind x hx
    cases hplace : (f n).place with
    | none =>
        -- it has no place, and has none behind one more miss
        have hg : g n = f n := h.same n hS fun x _ hx => by simp [hplace] at hx
        rw [hg]
        constructor
        · have hy : y.place (limit + 2) = none := hf.place ▸ hplace
          rw [Record.place] at hy
          show (f n).place = if y.missed + 1 < limit + 2 then y.last else none
          rw [hplace]
          split
          · rw [if_pos (by omega)] at hy
            exact hy.symm
          · rfl
        · exact fun hne => absurd hplace hne
    | some x =>
        rw [h.missed n x hS hplace (hV x hplace), Slot.missed]
        have hmisses : (f n).misses = y.missed := hf.misses (by simp [hplace])
        have hy : y.place (limit + 2) = some x := hf.place ▸ hplace
        rw [Record.place] at hy
        split at hy
        · next hlt =>
          rw [hmisses]
          split
          · next hgt =>
            constructor
            · show none = if y.missed + 1 < limit + 2 then y.last else none
              rw [if_neg (by omega)]
            · exact fun hne => absurd rfl hne
          · next hgt =>
            constructor
            · show (f n).place = if y.missed + 1 < limit + 2 then y.last else none
              rw [if_pos (by omega), hplace, hy]
            · exact fun _ => rfl
        · contradiction

/-- A notice of names that have not been missed is what the record counts. -/
theorem Follows.notice {limit : Nat} {f g : ν → Slot β} {n : ν} {y : Record β} {c : β}
    {names : List ν} (hf : Follows limit (f n) y) (hn : n ∈ names → g n = ⟨some c, 0⟩)
    (hsame : n ∉ names → g n = f n) : Follows limit (g n) (y.after n (.notice c names)) := by
  rw [Record.after]
  by_cases hmem : n ∈ names
  · rw [if_pos hmem, hn hmem]
    constructor
    · rw [Record.place, if_pos (Nat.zero_lt_succ _)]
    · exact fun _ => rfl
  · rw [if_neg hmem, hsame hmem]
    exact hf

end Tracking
