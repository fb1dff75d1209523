import AsyncOwfs.Struct.Retry
import AsyncOwfs.Struct.Spec
import Mathlib.Data.List.TakeWhile

/-!
# AsyncOwfs.Struct.Accessors

The accessors that `setup_accessors` generates, and what they ask the server for.

Where names do not collide, every slot of a class is written to once, so the table of
the class is what the files in its directory stand for.
-/

namespace AsyncOwfs

namespace Struct

open Hoare Write

/-! ## Directories -/

namespace Tree

/-- The subdirectory with this name. -/
def find (d : String) : Tree → Option Tree
  | nil => none
  | file _ _ rest => rest.find d
  | dir d' sub rest => if d' = d then some sub else rest.find d

/-- The directory with this path. -/
def sub? : Tree → List String → Option Tree
  | tree, [] => some tree
  | tree, d :: r => (tree.find d).bind fun sub => sub.sub? r

/-- The files in the directory, with their setup vectors. -/
def files : Tree → List (String × SetupVector)
  | nil => []
  | file d reply rest =>
    match SetupVector.parse reply with
    | .error _ => rest.files
    | .ok v => (d, v) :: rest.files
  | dir _ _ rest => rest.files

/-- No setup vector in the directory is broken. -/
def Unbroken : Tree → Prop
  | nil => True
  | file _ reply rest => (SetupVector.parse reply).isOk ∧ rest.Unbroken
  | dir _ _ rest => rest.Unbroken

/-- What is put into the class for the directory at `p`. -/
def slots (p : List String) : Tree → List (String × Attr)
  | nil => []
  | file d reply rest =>
    match SetupVector.parse reply with
    | .error _ => rest.slots p
    | .ok v => ((v.accessors p d).map fun x => (x.1, .accessor x.2)) ++ rest.slots p
  | dir d _ rest => ("_cls_" ++ d, .cls (p ++ [d])) :: rest.slots p

/-- The names of the subdirectories. -/
def dirs : Tree → List String
  | nil => []
  | file _ _ rest => rest.dirs
  | dir d _ rest => d :: rest.dirs

/-- All names that the directory generates. -/
def names (p : List String) (tree : Tree) : List String := tree.dirs ++ (tree.slots p).map Prod.fst

/-- In every directory, the vectors are in order, and the generated names do not collide
with each other nor with what is `taken`. -/
def Proper (taken : List String → String → Bool) (tree : Tree) : Prop :=
  ∀ r T, tree.sub? r = some T →
    T.Unbroken ∧ (T.names r).Nodup ∧ ∀ n ∈ T.names r, taken r n = false

/-- Paths are followed one part after the other. -/
theorem sub?_append (tree : Tree) (q r : List String) :
    tree.sub? (q ++ r) = (tree.sub? q).bind fun T => T.sub? r := by
  induction q generalizing tree with
  | nil => rfl
  | cons d q ih =>
      rw [List.cons_append, sub?, sub?]
      cases tree.find d with
      | none => rfl
      | some sub => exact ih sub

/-- What is found is among the subdirectories. -/
theorem mem_dirs_of_find {d : String} {tree sub : Tree} (h : tree.find d = some sub) :
    d ∈ tree.dirs := by
  induction tree with
  | nil => contradiction
  | file _ _ rest ih => exact ih h
  | dir d' sub' rest _ ih =>
      rw [find] at h
      split at h
      · next heq => exact heq ▸ List.mem_cons_self
      · exact List.mem_cons_of_mem _ (ih h)

end Tree

/-! ## Slots -/

section Slots

variable (p : List String) (n : String)

/-- Commands for a directory write only below it. -/
theorem attrWrites_outside (tree : Tree) {q : List String} (h : ¬ q <+: p) :
    (setupEntries tree q).flatMap (Cmd.attrWrites p n) = [] := by
  have hne : ∀ {q : List String}, ¬ q <+: p → q ≠ p := by
    rintro q hq rfl
    exact hq List.prefix_rfl
  have hbelow : ∀ {q : List String} (d : String), ¬ q <+: p → ¬ q ++ [d] <+: p := by
    intro q d hq hd
    exact hq ((List.prefix_append q [d]).trans hd)
  induction tree generalizing q with
  | nil => rfl
  | file d reply rest ih =>
      simp only [setupEntries, List.flatMap_cons, Cmd.attrWrites, hne h, if_false, ih h]
      split <;> rfl
  | dir d sub rest ihs ihr =>
      simp only [setupEntries, setupWith, List.cons_append, List.flatMap_cons, List.flatMap_append,
        Cmd.attrWrites, hne h, false_and, if_false, hbelow d h, ihs (hbelow d h), ihr h,
        List.append_nil]

/-- How an attribute gets into its slot. -/
def Attr.write : Attr → Write (Option Attr)
  | .accessor a => a.write
  | .cls q => .put (some (.cls q))

/-- What is written under one name. -/
def slotWrites (as : List (String × Attr)) : List (Write (Option Attr)) :=
  as.filterMap fun x => if x.1 = n then some x.2.write else none

/-- Writes, one list after the other. -/
theorem slotWrites_append (as as' : List (String × Attr)) :
    slotWrites n (as ++ as') = slotWrites n as ++ slotWrites n as' :=
  List.filterMap_append

/-- Accessors are written to slots. -/
theorem writesOf_eq (as : List (String × Accessor)) :
    writesOf n as = slotWrites n (as.map fun x => (x.1, .accessor x.2)) := by
  rw [writesOf, slotWrites, List.filterMap_map]
  rfl

/-- In the class of the directory, its own files and directories. -/
theorem attrWrites_here (tree : Tree) (q : List String) :
    (setupEntries tree q).flatMap (Cmd.attrWrites q n) = slotWrites n (tree.slots q) := by
  have hbelow : ∀ d : String, ¬ q ++ [d] <+: q := by
    intro d h
    have hlen := h.length_le
    rw [List.length_append, List.length_singleton] at hlen
    omega
  induction tree with
  | nil => rfl
  | file d reply rest ih =>
      simp only [setupEntries, List.flatMap_cons, Cmd.attrWrites, if_true, List.nil_append, ih,
        Tree.slots]
      cases SetupVector.parse reply with
      | error e => rfl
      | ok v =>
          dsimp only
          rw [slotWrites_append, writesOf_eq]
  | dir d sub rest _ ih =>
      simp only [setupEntries, setupWith, List.cons_append, List.flatMap_cons, List.flatMap_append,
        Cmd.attrWrites, true_and, hbelow d, if_false, attrWrites_outside q n sub (hbelow d), ih,
        List.append_nil, List.nil_append, Tree.slots, slotWrites, List.filterMap_cons]
      split <;> rfl

/-- Two subdirectories have nothing in common. -/
theorem not_prefix_of_ne {q r : List String} {d d' : String} (h : d' ≠ d) :
    ¬ q ++ [d'] <+: q ++ d :: r := by
  rw [List.prefix_append_right_inj, List.cons_prefix_cons]
  exact fun hd => h hd.1

/-- A directory is not below itself. -/
theorem ne_append_cons (q r : List String) (d : String) : q ≠ q ++ d :: r := by
  intro h
  have hlen := congrArg List.length h
  simp at hlen

/-- Below a name that is not a subdirectory, nothing. -/
theorem attrWrites_missing {tree : Tree} {d : String} (hd : d ∉ tree.dirs) (q r : List String) :
    (setupEntries tree q).flatMap (Cmd.attrWrites (q ++ d :: r) n) = [] := by
  induction tree with
  | nil => rfl
  | file d' reply rest ih =>
      simp only [setupEntries, List.flatMap_cons, Cmd.attrWrites, ne_append_cons, if_false,
        ih hd]
      split <;> rfl
  | dir d' sub rest _ ih =>
      rw [Tree.dirs, List.mem_cons, not_or] at hd
      have hne := not_prefix_of_ne (q := q) (r := r) (Ne.symm hd.1)
      simp only [setupEntries, setupWith, List.cons_append, List.flatMap_cons, List.flatMap_append,
        Cmd.attrWrites, ne_append_cons, false_and, if_false, hne, attrWrites_outside _ n sub hne,
        ih hd.2, List.append_nil]

/-- Below a subdirectory, first nothing, and then what is in there. -/
theorem attrWrites_below {tree sub : Tree} {d : String} (hfind : tree.find d = some sub)
    (hnodup : tree.dirs.Nodup) (q r : List String) :
    (setupEntries tree q).flatMap (Cmd.attrWrites (q ++ d :: r) n) =
      .put none :: (setupEntries sub (q ++ [d])).flatMap (Cmd.attrWrites (q ++ d :: r) n) := by
  induction tree with
  | nil => contradiction
  | file d' reply rest ih =>
      simp only [setupEntries, List.flatMap_cons, Cmd.attrWrites, ne_append_cons, if_false,
        ih hfind hnodup]
      split <;> rfl
  | dir d' sub' rest _ ih =>
      obtain ⟨hd', hnodup⟩ := List.nodup_cons.mp hnodup
      rw [Tree.find] at hfind
      split at hfind
      · next heq =>
        rw [Option.some.injEq] at hfind
        subst heq hfind
        have hpre : q ++ [d'] <+: q ++ d' :: r := by
          rw [List.prefix_append_right_inj, List.cons_prefix_cons]
          exact ⟨rfl, List.nil_prefix⟩
        simp only [setupEntries, setupWith, List.cons_append, List.flatMap_cons,
          List.flatMap_append, Cmd.attrWrites, ne_append_cons, false_and, if_false, hpre, if_true,
          attrWrites_missing n hd', List.append_nil, List.nil_append]
      · next hne =>
        have hpre := not_prefix_of_ne (q := q) (r := r) hne
        simp only [setupEntries, setupWith, List.cons_append, List.flatMap_cons,
          List.flatMap_append, Cmd.attrWrites, ne_append_cons, false_and, if_false, hpre,
          attrWrites_outside _ n sub' hpre, ih hfind hnodup, List.append_nil, List.nil_append]

/-- What does not have the name is not written to its slot. -/
theorem slotWrites_of_notMem {as : List (String × Attr)} (h : n ∉ as.map Prod.fst) :
    slotWrites n as = [] := by
  rw [slotWrites, List.filterMap_eq_nil_iff]
  intro x hx
  rw [if_neg]
  rintro rfl
  exact h (List.mem_map_of_mem hx)

/-- What is written into an empty slot that can be written to. -/
theorem write_none (loose : Option Attr → Prop) [DecidablePred loose] (hloose : loose none)
    (a : Attr) : Write.write loose none a.write = some a := by
  cases a with
  | cls q => rfl
  | accessor a =>
      rw [Attr.write, Accessor.write]
      split
      · rw [Write.write, if_pos hloose]
      · rfl

/-- A slot that is written to once. -/
theorem writeAll_slotWrites (loose : Option Attr → Prop) [DecidablePred loose]
    {as : List (String × Attr)} (hnodup : (as.map Prod.fst).Nodup)
    (hloose : n ∈ as.map Prod.fst → loose none) (a : Attr) :
    writeAll loose none (slotWrites n as) = some a ↔ (n, a) ∈ as := by
  induction as with
  | nil => simp [slotWrites]
  | cons x as ih =>
      obtain ⟨m, b⟩ := x
      rw [List.map_cons, List.nodup_cons] at hnodup
      by_cases hm : m = n
      · subst hm
        have hrest : (m, a) ∉ as := fun h => hnodup.1 (List.mem_map.mpr ⟨(m, a), h, rfl⟩)
        have hwrites : slotWrites m ((m, b) :: as) = [b.write] := by
          rw [← List.singleton_append, slotWrites_append, slotWrites_of_notMem m hnodup.1]
          simp [slotWrites]
        rw [hwrites, writeAll_cons, writeAll_nil, write_none loose (hloose List.mem_cons_self)]
        simp [hrest, eq_comm]
      · have hwrites : slotWrites n ((m, b) :: as) = slotWrites n as := by
          simp [slotWrites, hm]
        rw [hwrites, ih hnodup.2 fun h => hloose (List.mem_cons_of_mem m h)]
        simp [Ne.symm hm]

/-- In the class of any directory, what is written there first or last is what it stands
for. -/
theorem writeAll_attrWrites (loose : Option Attr → Prop) [DecidablePred loose] {tree T : Tree}
    {r : List String} (hr : tree.sub? r = some T)
    (hnodup : ∀ r T, tree.sub? r = some T → T.dirs.Nodup) (q : List String) :
    writeAll loose none ((setupEntries tree q).flatMap (Cmd.attrWrites (q ++ r) n)) =
      writeAll loose none (slotWrites n (T.slots (q ++ r))) := by
  induction r generalizing tree q with
  | nil =>
      rw [Tree.sub?, Option.some.injEq] at hr
      rw [List.append_nil, attrWrites_here, hr]
  | cons d r ih =>
      obtain ⟨sub, hfind, hr⟩ := Option.bind_eq_some_iff.mp hr
      have hsub : ∀ r T, sub.sub? r = some T → T.dirs.Nodup := by
        intro r T hT
        refine hnodup (d :: r) T ?_
        rw [Tree.sub?, hfind]
        exact hT
      rw [attrWrites_below n hfind (hnodup [] tree rfl), writeAll_cons, Write.write, List.append_cons]
      exact ih hr hsub (q ++ [d])

end Slots

/-! ## Tables -/

section Tables

variable {extra : List String → String → Bool} {taken : List String → String → Bool} {tree : Tree}
  {s s' : Classes}

/-- Whatever an object with this path has without any accessors. -/
def has (extra : List String → String → Bool) (p : List String) (n : String) : Bool :=
  native p n || inherited extra p n || own p n

/-- No subdirectory is listed twice. -/
theorem Tree.Proper.dirs (hT : tree.Proper taken) (r : List String) (T : Tree)
    (hr : tree.sub? r = some T) : T.dirs.Nodup :=
  (List.nodup_append.mp (hT r T hr).2.1).1

/-- **The table** of a class is what the files and directories stand for. -/
theorem attrs_of_written (hT : tree.Proper (has extra)) (hs : ∀ p n, (s.cls p).attrs n = none)
    (h : Written extra (setupAccessors tree []) s s') {r : List String} {T : Tree}
    (hr : tree.sub? r = some T) (n : String) (a : Attr) :
    (s'.cls r).attrs n = some a ↔ (n, a) ∈ T.slots r := by
  obtain ⟨-, hnodup, hfree⟩ := hT r T hr
  have hloose : n ∈ (T.slots r).map Prod.fst → Loose extra r n none := by
    intro hn
    have hhas := hfree n (List.mem_append_right _ hn)
    rw [has, Bool.or_eq_false_iff] at hhas
    exact hhas.1
  have hwrites : (setupAccessors tree []).flatMap (Cmd.attrWrites r n) =
      (setupEntries tree []).flatMap (Cmd.attrWrites r n) := rfl
  have hslot := writeAll_attrWrites n (Loose extra r n) hr hT.dirs []
  rw [List.nil_append] at hslot
  rw [h.attrs, hs, hwrites, hslot]
  exact writeAll_slotWrites n _ (List.nodup_append.mp hnodup).2.1 hloose a

/-- `__getattr__` makes objects, not accessors. -/
theorem dunderGetattr_ne_accessor (fuel : Nat) (p : List String) (n : String) (a : Accessor) :
    dunderGetattr extra s fuel p n ≠ .ok (.accessor a) := by
  cases fuel with
  | zero => exact fun h => nomatch h
  | succ fuel =>
      rw [dunderGetattr]
      split
      · exact fun h => nomatch h
      · split
        · exact fun h => nomatch h
        · exact fun h => nomatch h
        · split <;> exact fun h => nomatch h

/-- What is found has been set up. -/
theorem attrs_of_getattr {p : List String} {n : String} {a : Accessor}
    (h : getattr extra s p n = .ok (.accessor a)) : (s.cls p).attrs n = some (.accessor a) := by
  rw [getattr] at h
  split at h
  · next v hv =>
    rw [Except.ok.injEq] at h
    subst h
    rw [lookup] at hv
    split at hv
    · exact absurd hv (by simp)
    · split at hv
      · next heq =>
        rw [heq]
        simpa using hv
      · exact absurd hv (by simp)
      · split at hv <;> exact absurd hv (by simp)
  · exact absurd h (dunderGetattr_ne_accessor _ p n a)

/-- An accessor is looked up in the table of its class. -/
theorem getattr_accessor_iff {p : List String} {n : String} {a : Accessor}
    (hown : (s.cls p).attrs n = some (.accessor a) → own p n = false) :
    getattr extra s p n = .ok (.accessor a) ↔ (s.cls p).attrs n = some (.accessor a) := by
  constructor
  · exact attrs_of_getattr
  · intro h
    rw [getattr, lookup, hown h, h]
    rfl

/-- The accessors in a table are those for the files. -/
theorem mem_slots_accessor {p : List String} {T : Tree} {n : String} {a : Accessor} :
    (n, .accessor a) ∈ T.slots p ↔ ∃ d v, (d, v) ∈ T.files ∧ (n, a) ∈ v.accessors p d := by
  induction T with
  | nil => simp [Tree.slots, Tree.files]
  | file d reply rest ih =>
      rw [Tree.slots, Tree.files]
      cases SetupVector.parse reply with
      | error e => exact ih
      | ok v =>
          dsimp only
          rw [List.mem_append, ih]
          constructor
          · rintro (h | ⟨d', v', hmem, h⟩)
            · obtain ⟨x, hx, heq⟩ := List.mem_map.mp h
              rw [Prod.mk.injEq, Attr.accessor.injEq] at heq
              refine ⟨d, v, List.mem_cons_self, ?_⟩
              rwa [← heq.1, ← heq.2]
            · exact ⟨d', v', List.mem_cons_of_mem _ hmem, h⟩
          · rintro ⟨d', v', hmem, h⟩
            rcases List.mem_cons.mp hmem with heq | hmem
            · rw [Prod.mk.injEq] at heq
              rw [heq.1, heq.2] at h
              exact .inl (List.mem_map.mpr ⟨(n, a), h, rfl⟩)
            · exact .inr ⟨d', v', hmem, h⟩
  | dir d sub rest _ ih =>
      rw [Tree.slots, List.mem_cons, Tree.files, ← ih]
      simp

/-- A subdirectory has its class in the table. -/
theorem mem_slots_cls {p : List String} {T : Tree} {d : String} (h : d ∈ T.dirs) :
    ("_cls_" ++ d, .cls (p ++ [d])) ∈ T.slots p := by
  induction T with
  | nil => exact absurd h List.not_mem_nil
  | file d' reply rest ih =>
      rw [Tree.slots]
      cases SetupVector.parse reply with
      | error e => exact ih h
      | ok v => exact List.mem_append_right _ (ih h)
  | dir d' sub rest _ ih =>
      rw [Tree.slots]
      rcases List.mem_cons.mp h with rfl | h
      · exact List.mem_cons_self
      · exact List.mem_cons_of_mem _ (ih h)

/-! ## Chains of attributes -/

/-- The name of a subdirectory is among those that are put down. -/
theorem mem_names_of_dirs {T : Tree} {d : String} (h : d ∈ T.dirs) (q : List String) :
    d ∈ (setupEntries T q).flatMap Cmd.names := by
  induction T with
  | nil => exact absurd h List.not_mem_nil
  | file _ _ rest ih => exact ih h
  | dir d' sub rest _ ih =>
      simp only [setupEntries, setupWith, List.cons_append, List.flatMap_cons, List.flatMap_append,
        Cmd.names, List.nil_append, List.mem_cons, List.mem_append]
      rcases List.mem_cons.mp h with rfl | h
      · exact .inl rfl
      · exact .inr (.inr (ih h))

/-- The names below a subdirectory are put down as well. -/
theorem mem_names_of_find {T sub : Tree} {d x : String} (hfind : T.find d = some sub)
    (q : List String) (h : ∀ q, x ∈ (setupEntries sub q).flatMap Cmd.names) :
    x ∈ (setupEntries T q).flatMap Cmd.names := by
  induction T with
  | nil => contradiction
  | file _ _ rest ih => exact ih hfind
  | dir d' sub' rest _ ih =>
      simp only [setupEntries, setupWith, List.cons_append, List.flatMap_cons, List.flatMap_append,
        Cmd.names, List.nil_append, List.mem_cons, List.mem_append]
      rw [Tree.find] at hfind
      split at hfind
      · rw [Option.some.injEq] at hfind
        subst hfind
        exact .inr (.inl (h _))
      · exact .inr (.inr (ih hfind))

/-- The names of all subdirectories have been added to `_subdirs`. -/
theorem mem_names_of_sub {tree T : Tree} {r : List String} {d : String} (hr : tree.sub? r = some T)
    (hd : d ∈ T.dirs) (q : List String) : d ∈ (setupEntries tree q).flatMap Cmd.names := by
  induction r generalizing tree q with
  | nil =>
      rw [Tree.sub?, Option.some.injEq] at hr
      exact hr ▸ mem_names_of_dirs hd q
  | cons d' r ih =>
      obtain ⟨sub, hfind, hr⟩ := Option.bind_eq_some_iff.mp hr
      exact mem_names_of_find hfind q fun q => ih hr q

/-- The class of a subdirectory makes an object. -/
theorem getattr_object {p q : List String} {d : String} (hfree : has extra p d = false)
    (hattrs : (s.cls p).attrs d = none) (hown : own p ("_cls_" ++ d) = false)
    (hclass : (s.cls p).attrs ("_cls_" ++ d) = some (.cls q)) (hsubdirs : d ∈ s.subdirs) :
    getattr extra s p d = .ok (.object q) := by
  rw [has, Bool.or_eq_false_iff] at hfree
  have hlookup : lookup extra s p d = none := by
    rw [lookup, hfree.2, hattrs, hfree.1]
    rfl
  have hcls : lookup extra s p ("_cls_" ++ d) = some (.cls q) := by
    rw [lookup, hown, hclass]
    rfl
  rw [getattr, hlookup]
  dsimp only
  rw [dunderGetattr, if_neg (not_not.mpr hsubdirs), hcls]

/-- A subdirectory has an object. -/
theorem getattr_dir (hT : tree.Proper (has extra)) (hs : ∀ p n, (s.cls p).attrs n = none)
    (h : Written extra (setupAccessors tree []) s s') {r : List String} {T : Tree}
    (hr : tree.sub? r = some T) {d : String} (hd : d ∈ T.dirs) :
    getattr extra s' r d = .ok (.object (r ++ [d])) := by
  obtain ⟨-, hnodup, hfree⟩ := hT r T hr
  obtain ⟨-, -, hdisjoint⟩ := List.nodup_append.mp hnodup
  have hslot := mem_slots_cls (p := r) hd
  have hdnames : d ∈ T.names r := List.mem_append_left _ hd
  have hcnames : "_cls_" ++ d ∈ T.names r :=
    List.mem_append_right _ (List.mem_map.mpr ⟨_, hslot, rfl⟩)
  have hdattrs : (s'.cls r).attrs d = none := by
    refine Option.eq_none_iff_forall_ne_some.mpr fun a ha => ?_
    have hmem := (attrs_of_written hT hs h hr d a).mp ha
    exact hdisjoint d hd d (List.mem_map.mpr ⟨_, hmem, rfl⟩) rfl
  have hchas := hfree _ hcnames
  rw [has, Bool.or_eq_false_iff] at hchas
  have hcattrs := (attrs_of_written hT hs h hr _ _).mpr hslot
  have hsubdirs : d ∈ s'.subdirs := (h.subdirs d).mpr (.inr (mem_names_of_sub hr hd []))
  exact getattr_object (hfree d hdnames) hdattrs hchas.2 hcattrs hsubdirs

/-- **Subdirectories** can be walked to. -/
theorem walk_of_written (hT : tree.Proper (has extra)) (hs : ∀ p n, (s.cls p).attrs n = none)
    (h : Written extra (setupAccessors tree []) s s') {q r : List String} {T T' : Tree}
    (hq : tree.sub? q = some T) (hr : T.sub? r = some T') : walk extra s' q r = .ok (q ++ r) := by
  induction r generalizing q T with
  | nil => rw [walk, List.append_nil]
  | cons d r ih =>
      obtain ⟨sub, hfind, hr⟩ := Option.bind_eq_some_iff.mp hr
      have hsub : tree.sub? (q ++ [d]) = some sub := by
        rw [Tree.sub?_append, hq, Option.bind_some, Tree.sub?, hfind]
        rfl
      rw [walk, getattr_dir hT hs h hq (Tree.mem_dirs_of_find hfind)]
      dsimp only
      rw [ih hsub hr, List.append_assoc, List.singleton_append]

end Tables

/-! ## After setting up -/

/-- The accessors are those that the structure says.  The objects of the subdirectories are
reached by their names; what accessors they have, and what requests these make, depends on
the files there. -/
structure Faithful (extra : List String → String → Bool) (tree : Tree) (s : Classes) : Prop where
  reached : ∀ r T, tree.sub? r = some T → walk extra s [] r = .ok r
  table : ∀ r T, tree.sub? r = some T → ∀ n a,
    getattr extra s r n = .ok (.accessor a) ↔ ∃ d v, (d, v) ∈ T.files ∧ Offers r d v n a
  requests : ∀ r T, tree.sub? r = some T → ∀ d v, (d, v) ∈ T.files → ∀ n a,
    Offers r d v n a → ∀ (dev : Device) (b : BusRef), dev.bus = some b →
      ∀ (V : Type) (use : Use V), a.kind.Takes use →
        Obeys (a.request dev use) (Sends r d v b dev.id use)

/-- A tree without broken vectors is set up without an error. -/
theorem sound_setupEntries (tree : Tree)
    (h : ∀ r T, tree.sub? r = some T → T.Unbroken ∧ T.dirs.Nodup) (q : List String) :
    ∀ c ∈ setupEntries tree q, c.Sound := by
  obtain ⟨hunbroken, hnodup⟩ := h [] tree rfl
  induction tree generalizing q with
  | nil => exact fun c hc => absurd hc List.not_mem_nil
  | file d reply rest ih =>
      have hrest : ∀ r T, rest.sub? r = some T → T.Unbroken ∧ T.dirs.Nodup := by
        intro r T hr
        cases r with
        | nil =>
            rw [Tree.sub?, Option.some.injEq] at hr
            exact hr ▸ ⟨hunbroken.2, hnodup⟩
        | cons d' r => exact h (d' :: r) T hr
      intro c hc
      rw [setupEntries, List.mem_cons, List.mem_cons] at hc
      rcases hc with rfl | rfl | hc
      · rfl
      · rw [Cmd.Sound, Cmd.verdict]
        have hok := hunbroken.1
        cases hparse : SetupVector.parse reply with
        | error e =>
            rw [hparse] at hok
            contradiction
        | ok v => rfl
      · exact ih hrest q hunbroken.2 hnodup c hc
  | dir d sub rest ihs ihr =>
      obtain ⟨hd, hnodup'⟩ := List.nodup_cons.mp hnodup
      have hsub : ∀ r T, sub.sub? r = some T → T.Unbroken ∧ T.dirs.Nodup := by
        intro r T hr
        refine h (d :: r) T ?_
        rw [Tree.sub?, Tree.find, if_pos rfl]
        exact hr
      have hrest : ∀ r T, rest.sub? r = some T → T.Unbroken ∧ T.dirs.Nodup := by
        intro r T hr
        cases r with
        | nil =>
            rw [Tree.sub?, Option.some.injEq] at hr
            exact hr ▸ ⟨hunbroken, hnodup'⟩
        | cons d' r =>
            obtain ⟨sub', hfind, hr⟩ := Option.bind_eq_some_iff.mp hr
            have hne : d ≠ d' := by
              rintro rfl
              exact hd (Tree.mem_dirs_of_find hfind)
            refine h (d' :: r) T ?_
            rw [Tree.sub?, Tree.find, if_neg hne, hfind]
            exact hr
      obtain ⟨hsub₀, hsubdirs⟩ := hsub [] sub rfl
      intro c hc
      simp only [setupEntries, setupWith, List.cons_append, List.mem_cons, List.mem_append] at hc
      rcases hc with rfl | rfl | rfl | rfl | hc | hc
      · rfl
      · rfl
      · rfl
      · rfl
      · exact ihs hsub (q ++ [d]) hsub₀ hsubdirs c hc
      · exact ihr hrest q hunbroken hnodup' c hc

/-- Commands that raise nothing. -/
theorem forM_verdict {cmds : List Cmd} (h : ∀ c ∈ cmds, c.Sound) :
    cmds.forM Cmd.verdict = .ok () := by
  induction cmds with
  | nil => rfl
  | cons c cmds ih =>
      have hc := h c List.mem_cons_self
      rw [Cmd.Sound] at hc
      cases hverdict : c.verdict with
      | error e =>
          rw [hverdict] at hc
          contradiction
      | ok r =>
          rw [List.forM, hverdict]
          exact ih fun c hc => h c (List.mem_cons_of_mem _ hc)

/-- All commands are executed if none raises. -/
theorem executed_eq {cmds : List Cmd} (h : ∀ c ∈ cmds, c.Sound) : executed cmds = cmds :=
  List.takeWhile_eq_self_iff.mpr fun c hc => decide_eq_true (h c hc)

/-- Commands that are in order are executed, if their requests are answered. -/
theorem exists_run {extra : List String → String → Bool} {cmds : List Cmd}
    (h : ∀ c ∈ cmds, c.Sound) (s : Classes) :
    ∃ s', cmds.forM (exec extra quiet) s = .ok () s' ∧ Written extra cmds s s' := by
  have hrun := run_quiet extra cmds s
  rw [forM_verdict h, executed_eq h] at hrun
  have hends : wp (cmds.forM (exec extra quiet)) (fun _ s' => Written extra cmds s s')
      (fun _ _ => False) s := by
    refine wp_mono hrun (fun _ _ h => h.2) (fun _ _ h => ?_)
    cases h.1
  obtain ⟨u, s', heq, hwritten⟩ := exists_ok_of_wp hends
  exact ⟨s', heq, hwritten⟩

/-- **Setting up** a class that has not been set up before. -/
theorem faithful_of_setup {extra : List String → String → Bool} {tree : Tree}
    (hT : tree.Proper (has extra)) {s : Classes} (hs : s.cls = fun _ => {}) :
    ∃ s', (setupAccessors tree []).forM (exec extra quiet) s = .ok () s' ∧
      Faithful extra tree s' := by
  have hentries := sound_setupEntries tree
    (fun r T hr => ⟨(hT r T hr).1, hT.dirs r T hr⟩) []
  have hsound : ∀ c ∈ setupAccessors tree [], c.Sound := by
    intro c hc
    rw [setupAccessors, setupWith, List.mem_cons, List.mem_cons] at hc
    rcases hc with rfl | rfl | hc
    · rfl
    · rfl
    · exact hentries c hc
  have hattrs : ∀ p n, (s.cls p).attrs n = none := fun p n => by rw [hs]
  obtain ⟨s', heq, h⟩ := exists_run hsound s
  refine ⟨s', heq, fun r T hr => ?_, fun r T hr n a => ?_,
    fun r T _ d v _ n a ha dev b hdev V use huse => ?_⟩
  · exact walk_of_written hT hattrs h (q := []) rfl hr
  · rw [getattr_accessor_iff fun hn => ?_, attrs_of_written hT hattrs h hr, mem_slots_accessor]
    · simp only [mem_accessors_iff]
    have hslot := (attrs_of_written hT hattrs h hr n _).mp hn
    have hhas := (hT r T hr).2.2 n (List.mem_append_right _ (List.mem_map.mpr ⟨_, hslot, rfl⟩))
    rw [has, Bool.or_eq_false_iff] at hhas
    exact hhas.2
  · exact sends_request ha hdev huse

/-- A file, and an array in a subdirectory. -/
theorem faithful_of_setup_plugh :
    ∃ s', (setupAccessors (.file "temphigh" "t,0,1,rw,12,s,".toUTF8.data.toList
        (.dir "foo" (.file "plugh.A" "i,0,1,ro,12,s,".toUTF8.data.toList .nil) .nil)) []).forM
          (exec (fun _ _ => false) quiet) {} = .ok () s' ∧
      Faithful (fun _ _ => false) (.file "temphigh" "t,0,1,rw,12,s,".toUTF8.data.toList
        (.dir "foo" (.file "plugh.A" "i,0,1,ro,12,s,".toUTF8.data.toList .nil) .nil)) s' := by
  refine faithful_of_setup (fun r T hr => ?_) rfl
  cases r with
  | nil =>
      rw [Tree.sub?, Option.some.injEq] at hr
      subst hr
      exact ⟨⟨by decide +kernel, trivial⟩, by decide +kernel, by decide +kernel⟩
  | cons d r =>
      rw [Tree.sub?, Tree.find, Tree.find] at hr
      split at hr
      · next hd =>
        subst hd
        cases r with
        | nil =>
            rw [Option.bind_some, Tree.sub?, Option.some.injEq] at hr
            subst hr
            exact ⟨⟨by decide +kernel, trivial⟩, by decide +kernel, by decide +kernel⟩
        | cons d' r => exact nomatch hr
      · exact nomatch hr

/-- What a class or an object has from the base classes. -/
def basesHave (extra : List String → String → Bool) (p : List String) (n : String) : Bool :=
  inherited extra p n || decide (p = [] ∧ n ∈ deviceSelf)

/-- `fields` is no attribute of a base class, but `setup_accessors` has set it. -/
theorem not_faithful_fields :
    (Tree.file "fields" "i,0,1,ro,1,s,".toUTF8.data.toList .nil).Proper
        (basesHave fun _ _ => false) ∧
      ¬ ∃ s', (setupAccessors (.file "fields" "i,0,1,ro,1,s,".toUTF8.data.toList .nil) []).forM
          (exec (fun _ _ => false) quiet) {} = .ok () s' ∧
        Faithful (fun _ _ => false) (.file "fields" "i,0,1,ro,1,s,".toUTF8.data.toList .nil) s' := by
  refine ⟨fun r T hr => ?_, ?_⟩
  · cases r with
    | nil =>
        rw [Tree.sub?, Option.some.injEq] at hr
        subst hr
        exact ⟨⟨by decide +kernel, trivial⟩, by decide +kernel, by decide +kernel⟩
    | cons d r => exact nomatch hr
  · rintro ⟨s', hrun, hfaithful⟩
    obtain ⟨-, hwritten⟩ := wp_of_ok (run_spec _ _ _) hrun
    have hempty : (s'.cls []).attrs "fields" = none := by
      rw [hwritten.attrs]
      decide +kernel
    have hfile : ("fields", SetupVector.mk "i" 0 1 "ro" 1 ["s", ""]) ∈
        (Tree.file "fields" "i,0,1,ro,1,s,".toUTF8.data.toList .nil).files := by
      decide +kernel
    have haccessor : Offers [] "fields" (SetupVector.mk "i" 0 1 "ro" 1 ["s", ""]) "fields"
        ⟨.simpleValue, ["fields"], "i"⟩ :=
      .value ((stands_iff ..).mpr ⟨by decide +kernel, rfl⟩) rfl .ro
    have hget := (hfaithful.table [] _ rfl "fields" _).mpr ⟨_, _, hfile, haccessor⟩
    have hown : own [] "fields" = false := by decide
    rw [getattr_accessor_iff fun _ => hown, hempty] at hget
    exact nomatch hget

end Struct

end AsyncOwfs
