import AsyncOwfs.Struct.Accessors

/-!
# AsyncOwfs.Struct.Provided

The accessors of a file, whatever else is in the structure.

Names may collide, with each other or with attributes that a device has anyway: the
structures of the tests have files `family` and `id`.  A name that occurs once and that
nothing else has stands for its file (`Tree.Provides`) or subdirectory (`Tree.Enters`)
nevertheless.
-/

namespace AsyncOwfs

namespace Struct

open Hoare Write

namespace Tree

/-- A directory lists its subdirectories once. -/
def Listed (tree : Tree) : Prop := ∀ r T, tree.sub? r = some T → T.dirs.Nodup

/-- The name occurs once in the class for the directory at `r`, and an object of the class
has it from nowhere else. -/
structure Sole (extra : List String → String → Bool) (T : Tree) (r : List String) (n : String) :
    Prop where
  once : ((T.slots r).map Prod.fst).count n = 1
  free : has extra r n = false

instance (extra : List String → String → Bool) (T : Tree) (r : List String) (n : String) :
    Decidable (T.Sole extra r n) :=
  decidable_of_iff (((T.slots r).map Prod.fst).count n = 1 ∧ has extra r n = false)
    ⟨fun h => ⟨h.1, h.2⟩, fun h => ⟨h.once, h.free⟩⟩

/-- The file has accessors for what its vector says. -/
structure Provides (extra : List String → String → Bool) (T : Tree) (r : List String) (d : String)
    (v : SetupVector) : Prop where
  mem : (d, v) ∈ T.files
  index : v.index = 0
  sole : ∀ n ∈ (v.accessors r d).map Prod.fst, T.Sole extra r n

/-- The subdirectory has an object. -/
structure Enters (extra : List String → String → Bool) (T : Tree) (r : List String) (d : String) :
    Prop where
  mem : d ∈ T.dirs
  sole : T.Sole extra r ("_cls_" ++ d)
  unused : d ∉ (T.slots r).map Prod.fst
  free : has extra r d = false

theorem listed_nil : nil.Listed := by
  intro r T hr
  cases r with
  | nil =>
      rw [sub?, Option.some.injEq] at hr
      simp [← hr, dirs]
  | cons d r => contradiction

/-- A directory with one more file. -/
theorem Listed.file {rest : Tree} (h : rest.Listed) (d : String) (reply : Bytes) :
    (Tree.file d reply rest).Listed := by
  intro r T hr
  cases r with
  | nil =>
      rw [sub?, Option.some.injEq] at hr
      exact hr ▸ h [] rest rfl
  | cons d' r => exact h (d' :: r) T hr

/-- A directory with one more subdirectory. -/
theorem Listed.dir {sub rest : Tree} (hsub : sub.Listed) (hrest : rest.Listed) {d : String}
    (hd : d ∉ rest.dirs) : (Tree.dir d sub rest).Listed := by
  intro r T hr
  cases r with
  | nil =>
      rw [sub?, Option.some.injEq] at hr
      exact hr ▸ List.nodup_cons.mpr ⟨hd, hrest [] rest rfl⟩
  | cons d' r =>
      obtain ⟨T', hfind, hr⟩ := Option.bind_eq_some_iff.mp hr
      rw [find] at hfind
      split at hfind
      · rw [Option.some.injEq] at hfind
        exact hsub r T (hfind ▸ hr)
      · refine hrest (d' :: r) T ?_
        rw [sub?, hfind]
        exact hr

end Tree

section Provided

variable {extra : List String → String → Bool} {tree T : Tree} {s s' : Classes} {r : List String}

/-- What occurs once is written once. -/
theorem slotWrites_of_count {n : String} {as : List (String × Attr)} {a : Attr}
    (hmem : (n, a) ∈ as) (hcount : (as.map Prod.fst).count n = 1) :
    slotWrites n as = [a.write] := by
  induction as with
  | nil => simp at hmem
  | cons x as ih =>
      obtain ⟨m, b⟩ := x
      rw [List.map_cons, List.count_cons] at hcount
      by_cases hm : m = n
      · subst hm
        have hrest : m ∉ as.map Prod.fst := by
          rw [← List.count_eq_zero]
          simpa using hcount
        have hb : b = a := by
          cases List.mem_cons.mp hmem with
          | inl h => simpa [eq_comm] using h
          | inr h => exact absurd (List.mem_map_of_mem h) hrest
        rw [← List.singleton_append, slotWrites_append, slotWrites_of_notMem m hrest, hb]
        simp [slotWrites]
      · have hmem : (n, a) ∈ as := by
          simpa [Ne.symm hm] using hmem
        have hwrites : slotWrites n ((m, b) :: as) = slotWrites n as := by
          simp [slotWrites, hm]
        rw [hwrites]
        exact ih hmem (by simpa [hm] using hcount)

/-- **A name of its own** has in the class what it stands for. -/
theorem attrs_of_sole (hT : tree.Listed) (hs : ∀ p n, (s.cls p).attrs n = none)
    (h : Written extra (setupAccessors tree []) s s') (hr : tree.sub? r = some T) {n : String}
    (hn : T.Sole extra r n) {a : Attr} (ha : (n, a) ∈ T.slots r) :
    (s'.cls r).attrs n = some a := by
  have hloose : Loose extra r n none := by
    have hfree := hn.free
    rw [has, Bool.or_eq_false_iff] at hfree
    exact hfree.1
  have hwrites : (setupAccessors tree []).flatMap (Cmd.attrWrites r n) =
      (setupEntries tree []).flatMap (Cmd.attrWrites r n) := rfl
  have hslot := writeAll_attrWrites n (Loose extra r n) hr hT []
  rw [List.nil_append] at hslot
  rw [h.attrs, hs, hwrites, hslot, slotWrites_of_count ha hn.once]
  exact write_none (Loose extra r n) hloose a

/-- A name that nothing has is none of the class's own. -/
theorem own_of_free {p : List String} {n : String} (h : has extra p n = false) :
    own p n = false := by
  rw [has, Bool.or_eq_false_iff] at h
  exact h.2

/-- A name that one file gives is looked up as its accessor. -/
theorem getattr_of_sole (hT : tree.Listed) (hs : ∀ p n, (s.cls p).attrs n = none)
    (h : Written extra (setupAccessors tree []) s s') (hr : tree.sub? r = some T) {n : String}
    (hn : T.Sole extra r n) {a : Accessor} (ha : (n, .accessor a) ∈ T.slots r) :
    getattr extra s' r n = .ok (.accessor a) := by
  rw [getattr_accessor_iff fun _ => own_of_free hn.free]
  exact attrs_of_sole hT hs h hr hn ha

/-- **The accessors** of a file. -/
theorem getattr_of_provides (hT : tree.Listed) (hs : ∀ p n, (s.cls p).attrs n = none)
    (h : Written extra (setupAccessors tree []) s s') (hr : tree.sub? r = some T) {d : String}
    {v : SetupVector} (hd : T.Provides extra r d v) {n : String} {a : Accessor}
    (ha : (n, a) ∈ v.accessors r d) : getattr extra s' r n = .ok (.accessor a) := by
  have hn := hd.sole n (List.mem_map.mpr ⟨(n, a), ha, rfl⟩)
  exact getattr_of_sole hT hs h hr hn (mem_slots_accessor.mpr ⟨d, v, hd.mem, ha⟩)

/-- Nothing is written under a name that does not occur. -/
theorem attrs_of_unused (hT : tree.Listed) (hs : ∀ p n, (s.cls p).attrs n = none)
    (h : Written extra (setupAccessors tree []) s s') (hr : tree.sub? r = some T) {n : String}
    (hn : n ∉ (T.slots r).map Prod.fst) : (s'.cls r).attrs n = none := by
  have hwrites : (setupAccessors tree []).flatMap (Cmd.attrWrites r n) =
      (setupEntries tree []).flatMap (Cmd.attrWrites r n) := rfl
  have hslot := writeAll_attrWrites n (Loose extra r n) hr hT []
  rw [List.nil_append] at hslot
  rw [h.attrs, hs, hwrites, hslot, slotWrites_of_notMem n hn, writeAll_nil]

/-- **The object** for a subdirectory. -/
theorem getattr_of_enters (hT : tree.Listed) (hs : ∀ p n, (s.cls p).attrs n = none)
    (h : Written extra (setupAccessors tree []) s s') (hr : tree.sub? r = some T) {d : String}
    (hd : T.Enters extra r d) : getattr extra s' r d = .ok (.object (r ++ [d])) := by
  have hattrs := attrs_of_unused hT hs h hr hd.unused
  have hclass := attrs_of_sole hT hs h hr hd.sole (mem_slots_cls hd.mem)
  have hsubdirs : d ∈ s'.subdirs := (h.subdirs d).mpr (.inr (mem_names_of_sub hr hd.mem []))
  exact getattr_object hd.free hattrs (own_of_free hd.sole.free) hclass hsubdirs

end Provided

/-! ## Classes that have been generated -/

/-- The classes as `setup_accessors` leaves them, from a class without accessors. -/
structure Generated (extra : List String → String → Bool) (tree : Tree) (s : Classes) : Prop where
  listed : tree.Listed
  run : ∃ (start : Classes) (faults : Nat → Option Exc), (∀ p n, (start.cls p).attrs n = none) ∧
    (setupAccessors tree []).forM (exec extra faults) start = .ok () s

namespace Generated

variable {extra : List String → String → Bool} {tree T : Tree} {s : Classes} {r : List String}

/-- Behind `setup_accessors`, an empty class has what has been written to it. -/
theorem written (h : Generated extra tree s) :
    ∃ start : Classes, (∀ p n, (start.cls p).attrs n = none) ∧
      Written extra (setupAccessors tree []) start s := by
  obtain ⟨start, faults, hempty, hrun⟩ := h.run
  exact ⟨start, hempty, (wp_of_ok (run_spec faults _ start) hrun).2⟩

/-- **The accessors of a file** are found under their names. -/
theorem getattr_eq (h : Generated extra tree s) (hr : tree.sub? r = some T) {d : String}
    {v : SetupVector} (hd : T.Provides extra r d v) {n : String} {a : Accessor}
    (ha : (n, a) ∈ v.accessors r d) : getattr extra s r n = .ok (.accessor a) := by
  obtain ⟨start, hempty, hwritten⟩ := h.written
  exact getattr_of_provides h.listed hempty hwritten hr hd ha

/-- The way from the device to a subdirectory. -/
theorem walk_eq (h : Generated extra tree s) {d : String} (hd : tree.Enters extra [] d) :
    walk extra s [] [d] = .ok [d] := by
  obtain ⟨start, hempty, hwritten⟩ := h.written
  rw [walk, getattr_of_enters h.listed hempty hwritten rfl hd]
  rfl

/-- More names in `_subdirs`, from other classes, do not matter to a command. -/
theorem exec_share (faults : Nat → Option Exc) (c : Cmd) (s : Classes) (names : Finset String) :
    wp (exec extra faults c)
      (fun a s' => exec extra faults c { s with subdirs := s.subdirs ∪ names } =
        .ok a { s' with subdirs := s'.subdirs ∪ names })
      (fun _ _ => True) s := by
  cases c with
  | ask =>
      cases hfault : faults s.asked with
      | none =>
          have hok (u : Classes) (hu : u.asked = s.asked) :
              exec extra faults .ask u = .ok () { u with asked := u.asked + 1 } := by
            simp only [exec, get_bind]
            rw [hu, hfault]
            rfl
          rw [wp, hok s rfl]
          exact hok _ rfl
      | some e =>
          simp only [exec, wp_bind, wp_get, wp_set, hfault, wp_throw]
  | reset p => rfl
  | subPath p d =>
      have hinsert : insert d (s.subdirs ∪ names) = insert d s.subdirs ∪ names :=
        (Finset.insert_union d s.subdirs names).symm
      simp only [exec, modifyCls, wp_bind, wp_modify]
      exact congrArg (EStateM.Result.ok ()) (congrArg (Classes.mk _) hinsert)
  | file p d reply =>
      cases hparse : SetupVector.parse reply with
      | error e =>
          simp only [exec, hparse]
          trivial
      | ok v =>
          simp only [exec, hparse]
          rfl

/-- More names do not matter to a sequence of commands. -/
theorem forM_exec_share {faults : Nat → Option Exc} {cmds : List Cmd} {s s' : Classes}
    (names : Finset String) (h : cmds.forM (exec extra faults) s = .ok () s') :
    cmds.forM (exec extra faults) { s with subdirs := s.subdirs ∪ names } =
      .ok () { s' with subdirs := s'.subdirs ∪ names } := by
  induction cmds generalizing s with
  | nil =>
      cases h
      rfl
  | cons c cmds ih =>
      rw [List.forM] at h
      obtain ⟨a, u, hexec, hrest⟩ := exists_of_bind h
      have hsame := wp_of_ok (exec_share faults c s names) hexec
      exact (bind_of_ok hsame).trans (ih hrest)

/-- **Classes share their names**: what has been generated stays so when others add to
`_subdirs`. -/
theorem share (h : Generated extra tree s) {names : Finset String} (hnames : s.subdirs ⊆ names) :
    Generated extra tree { s with subdirs := names } := by
  obtain ⟨start, faults, hempty, hrun⟩ := h.run
  have hshared := forM_exec_share names hrun
  rw [Finset.union_eq_right.mpr hnames] at hshared
  exact ⟨h.listed, { start with subdirs := start.subdirs ∪ names }, faults, hempty, hshared⟩

/-- Without faults, classes are generated if no vector is broken. -/
theorem exists_of_sound (hT : tree.Listed) (h : ∀ c ∈ setupAccessors tree [], c.Sound) :
    ∃ s, Generated extra tree s := by
  obtain ⟨s, hrun, -⟩ := exists_run h {}
  exact ⟨s, hT, {}, quiet, fun _ _ => rfl, hrun⟩

end Generated

/-! ## What a file has -/

section Accessors

variable {v : SetupVector} {p : List String} {d : String}

/-- Access `rw` is for both. -/
theorem SetupVector.access_of_rw (h : v.access = "rw") :
    v.readable = true ∧ v.writable = true := by
  simp [SetupVector.readable, SetupVector.writable, h]

/-- A file that can be read is an attribute. -/
theorem mem_accessors_value (hd : arrayKind d = none) (hi : v.index = 0)
    (hv : v.readable = true) : (d, ⟨.simpleValue, p ++ [d], v.typ⟩) ∈ v.accessors p d := by
  simp [SetupVector.accessors, SetupVector.granted, hd, hi, hv]

/-- A file that can be written has a `set_` accessor. -/
theorem mem_accessors_set (hd : arrayKind d = none) (hi : v.index = 0)
    (hv : v.writable = true) :
    ("set_" ++ d, ⟨.simpleSetter, p ++ [d], v.typ⟩) ∈ v.accessors p d := by
  simp [SetupVector.accessors, SetupVector.granted, hd, hi, hv]

variable {num : Bool}

/-- Of an array that can be read, all elements are. -/
theorem mem_accessors_all (hd : arrayKind d = some num) (hi : v.index = 0)
    (hv : v.readable = true) :
    (arrayName d ++ "_all", ⟨.multiValue, p ++ [arrayName d], v.typ⟩) ∈ v.accessors p d := by
  simp [SetupVector.accessors, SetupVector.granted, hd, hi, hv]

/-- Of one that can be written, each of them and all of them. -/
theorem mem_accessors_setAll (hd : arrayKind d = some num) (hi : v.index = 0)
    (hv : v.writable = true) :
    ("set_" ++ arrayName d ++ "_all", ⟨.multiSetter, p ++ [arrayName d], v.typ⟩) ∈
      v.accessors p d := by
  simp [SetupVector.accessors, SetupVector.granted, hd, hi, hv]

end Accessors

end Struct

end AsyncOwfs
