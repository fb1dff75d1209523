import Mathlib.Data.List.Nodup

/-!
# AsyncOwfs.Lib.Dict

Insertion-ordered dictionaries: assigning to a key that exists keeps its place,
a new key goes to the end.
-/

/-- A dictionary, as the list of its entries in insertion order. -/
structure Dict (κ : Type u) (α : Type v) where
  entries : List (κ × α)
  nodup : (entries.map Prod.fst).Nodup

namespace Dict

variable {κ : Type u} {α : Type v} [DecidableEq κ]

instance : EmptyCollection (Dict κ α) := ⟨⟨[], List.nodup_nil⟩⟩

instance : Inhabited (Dict κ α) := ⟨∅⟩

def keys (d : Dict κ α) : List κ := d.entries.map Prod.fst

def values (d : Dict κ α) : List α := d.entries.map Prod.snd

def get? (d : Dict κ α) (k : κ) : Option α := d.entries.lookup k

/-- Assignment to a key, on the entries. -/
def setEntries (k : κ) (a : α) : List (κ × α) → List (κ × α)
  | [] => [(k, a)]
  | e :: es => if e.1 = k then (k, a) :: es else e :: setEntries k a es

/-- A key stays where it is, or comes last. -/
theorem map_fst_setEntries (k : κ) (a : α) (es : List (κ × α)) :
    (setEntries k a es).map Prod.fst =
      if k ∈ es.map Prod.fst then es.map Prod.fst else es.map Prod.fst ++ [k] := by
  induction es with
  | nil => simp [setEntries]
  | cons e es ih =>
      by_cases he : e.1 = k
      · simp [setEntries, he]
      · have hk : ¬ k = e.1 := fun h => he h.symm
        simp only [setEntries, he, if_false, List.map_cons, ih, List.mem_cons, hk, false_or]
        split <;> simp

def set (d : Dict κ α) (k : κ) (a : α) : Dict κ α where
  entries := setEntries k a d.entries
  nodup := by
    rw [map_fst_setEntries]
    split
    · exact d.nodup
    · next hk => exact List.nodup_append.mpr ⟨d.nodup, by simp, by grind⟩

def erase (d : Dict κ α) (k : κ) : Dict κ α where
  entries := d.entries.filter (·.1 ≠ k)
  nodup := d.nodup.sublist (List.filter_sublist.map Prod.fst)

/-- All entries of another dictionary are assigned. -/
def update (d d' : Dict κ α) : Dict κ α := d'.entries.foldl (fun d e => d.set e.1 e.2) d

/-! ## Lookups -/

/-- The first entry of a key counts. -/
theorem lookup_cons_eq_ite (e : κ × α) (es : List (κ × α)) (k : κ) :
    (e :: es).lookup k = if k = e.1 then some e.2 else es.lookup k := by
  obtain ⟨k', a⟩ := e
  rw [List.lookup_cons]
  by_cases h : k = k'
  · simp [h]
  · simp [h, beq_false_of_ne h]

@[simp] theorem get?_empty (k : κ) : (∅ : Dict κ α).get? k = none := rfl

/-- What is set is found, and all else is as before. -/
theorem get?_set (d : Dict κ α) (k : κ) (a : α) (k' : κ) :
    (d.set k a).get? k' = if k' = k then some a else d.get? k' := by
  obtain ⟨es, hes⟩ := d
  show (setEntries k a es).lookup k' = if k' = k then some a else es.lookup k'
  clear hes
  induction es with
  | nil => simp [setEntries, lookup_cons_eq_ite]
  | cons e es ih =>
      by_cases he : e.1 = k
      · simp only [setEntries, he, if_true, lookup_cons_eq_ite]
        split <;> rfl
      · simp only [setEntries, he, if_false, lookup_cons_eq_ite, ih]
        grind

/-- Only the last of two assignments to a key matters. -/
theorem set_set (d : Dict κ α) (k : κ) (a b : α) : (d.set k a).set k b = d.set k b := by
  obtain ⟨es, hes⟩ := d
  simp only [set, mk.injEq]
  clear hes
  induction es with
  | nil => simp [setEntries]
  | cons e es ih =>
      by_cases he : e.1 = k
      · simp [setEntries, he]
      · simp [setEntries, he, ih]

/-- What is erased is not found, and all else is as before. -/
theorem get?_erase (d : Dict κ α) (k k' : κ) :
    (d.erase k).get? k' = if k' = k then none else d.get? k' := by
  obtain ⟨es, hes⟩ := d
  show (es.filter (·.1 ≠ k)).lookup k' = if k' = k then none else es.lookup k'
  clear hes
  induction es with
  | nil => simp
  | cons e es ih =>
      by_cases he : e.1 = k
      · rw [List.filter_cons_of_neg (by simp [he]), ih, lookup_cons_eq_ite, he]
        split <;> rfl
      · rw [List.filter_cons_of_pos (by simp [he]), lookup_cons_eq_ite, lookup_cons_eq_ite, ih]
        grind

/-- The second dictionary goes first. -/
theorem get?_update (d d' : Dict κ α) (k : κ) :
    (d.update d').get? k = (d'.get? k).or (d.get? k) := by
  obtain ⟨es, hes⟩ := d'
  show (es.foldl (fun d e => d.set e.1 e.2) d).get? k = (es.lookup k).or (d.get? k)
  induction es generalizing d with
  | nil => rfl
  | cons e es ih =>
      obtain ⟨hk, hes'⟩ := List.nodup_cons.mp hes
      rw [List.foldl_cons, ih _ hes', get?_set, lookup_cons_eq_ite]
      split
      · next he =>
        have hnone : es.lookup k = none := List.lookup_eq_none_iff.mpr fun e' he' => by
          rw [he, bne_iff_ne]
          exact fun h => hk (List.mem_map.mpr ⟨e', he', h.symm⟩)
        rw [hnone]
        rfl
      · rfl

/-- The keys are what is found. -/
theorem mem_keys {d : Dict κ α} {k : κ} : k ∈ d.keys ↔ ∃ a, d.get? k = some a := by
  obtain ⟨es, hes⟩ := d
  show k ∈ es.map Prod.fst ↔ ∃ a, es.lookup k = some a
  clear hes
  induction es with
  | nil => simp
  | cons e es ih =>
      rw [List.map_cons, List.mem_cons, ih, lookup_cons_eq_ite]
      by_cases hk : k = e.1
      · simp [hk]
      · simp [hk]

/-- Assigning to a key that exists keeps the keys and their order. -/
theorem keys_set {d : Dict κ α} {k : κ} {a : α} (h : d.get? k = some a) (b : α) :
    (d.set k b).keys = d.keys := by
  have hk : k ∈ d.entries.map Prod.fst := mem_keys.mpr ⟨a, h⟩
  show (setEntries k b d.entries).map Prod.fst = d.entries.map Prod.fst
  rw [map_fst_setEntries, if_pos hk]

/-- An entry is found, since keys are in a dictionary once. -/
theorem get?_of_mem {d : Dict κ α} {k : κ} {a : α} (h : (k, a) ∈ d.entries) :
    d.get? k = some a := by
  obtain ⟨es, hes⟩ := d
  show es.lookup k = some a
  induction es with
  | nil => contradiction
  | cons e es ih =>
      obtain ⟨hk, hes'⟩ := List.nodup_cons.mp hes
      rw [lookup_cons_eq_ite]
      rcases List.mem_cons.mp h with rfl | h
      · rw [if_pos rfl]
      · have hne : k ≠ e.1 := by
          rintro rfl
          exact hk (List.mem_map.mpr ⟨_, h, rfl⟩)
        rw [if_neg hne, ih hes' h]

/-- What is found is an entry. -/
theorem mem_of_get? {d : Dict κ α} {k : κ} {a : α} (h : d.get? k = some a) :
    (k, a) ∈ d.entries := by
  obtain ⟨es, hes⟩ := d
  change es.lookup k = some a at h
  show (k, a) ∈ es
  clear hes
  induction es with
  | nil => contradiction
  | cons e es ih =>
      rw [lookup_cons_eq_ite] at h
      split at h
      · next hk =>
          have ha : e.2 = a := by simpa using h
          exact List.mem_cons.mpr (.inl (by rw [hk, ← ha]))
      · exact List.mem_cons_of_mem e (ih h)

/-- The values are what some key has. -/
theorem mem_values {d : Dict κ α} {a : α} : a ∈ d.values ↔ ∃ k, d.get? k = some a := by
  constructor
  · intro h
    obtain ⟨⟨k, a'⟩, he, rfl⟩ := List.mem_map.mp h
    exact ⟨k, get?_of_mem he⟩
  · rintro ⟨k, h⟩
    exact List.mem_map_of_mem (mem_of_get? h)

end Dict
