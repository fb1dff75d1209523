import AsyncOwfs.Lib.Hoare
import AsyncOwfs.Lib.Slot
import AsyncOwfs.Struct

/-!
# AsyncOwfs.Struct.Writes

What `setup_accessors` writes into the classes.

Every attribute of every class is a slot.  A command puts accessors, classes or
nothing into it, or offers an accessor; what it writes does not depend on the state
(`Written`).
-/

namespace AsyncOwfs

namespace Struct

open Hoare Write

/-! ## Files -/

/-- The accessor is for direct access: it does not overwrite. -/
def Kind.isDirect : Kind → Bool
  | simpleValue | multiValue | arrayValue _ => true
  | _ => false

/-- Those accessors that the access mode calls for. -/
def SetupVector.granted (v : SetupVector) (readers writers : List (String × Accessor)) :
    List (String × Accessor) :=
  (if v.readable then readers else []) ++ if v.writable then writers else []

/-- The accessors that a file stands for, under their names. -/
def SetupVector.accessors (p : List String) (d : String) (v : SetupVector) :
    List (String × Accessor) :=
  if v.index = 0 then
    match arrayKind d with
    | none =>
      let dd := p ++ [d]
      v.granted [(d, ⟨.simpleValue, dd, v.typ⟩), ("get_" ++ d, ⟨.simpleGetter, dd, v.typ⟩)]
        [("set_" ++ d, ⟨.simpleSetter, dd, v.typ⟩)]
    | some num =>
      let d := arrayName d
      let dd := p ++ [d]
      v.granted [(d, ⟨.arrayValue num, dd, v.typ⟩), ("get_" ++ d, ⟨.arrayGetter num, dd, v.typ⟩)]
          [("set_" ++ d, ⟨.arraySetter num, dd, v.typ⟩)] ++
        v.granted [(d ++ "_all", ⟨.multiValue, dd, v.typ⟩),
            ("get_" ++ d ++ "_all", ⟨.multiGetter, dd, v.typ⟩)]
          [("set_" ++ d ++ "_all", ⟨.multiSetter, dd, v.typ⟩)]
  else []

section Files

variable (extra : List String → String → Bool) (p : List String)

/-- One accessor for the class with path `p`. -/
def Cls.add (c : Cls) (x : String × Accessor) : Cls :=
  if x.2.kind.isDirect then c.offer extra p x.1 x.2 else c.put x.1 x.2

/-- A file adds its accessors, one after the other, to what is known of its fields. -/
theorem addFile_eq (d : String) (v : SetupVector) (c : Cls) :
    c.addFile extra p d v = (v.accessors p d).foldl (Cls.add extra p)
      (if v.index = 0 then { c with fields := Function.update c.fields d (some (v, arrayKind d)) }
        else c) := by
  rw [Cls.addFile, SetupVector.accessors]
  split
  · cases arrayKind d with
    | none =>
        dsimp only
        rw [Cls.addSimple, SetupVector.granted]
        cases v.readable <;> cases v.writable <;> rfl
    | some num =>
        dsimp only
        rw [Cls.addArray, SetupVector.granted, SetupVector.granted]
        cases v.readable <;> cases v.writable <;> rfl
  · rfl

/-- `hasattr` does not find what is in the slot. -/
def Loose (n : String) : Option Attr → Prop
  | some a => a.found = false
  | none => (native p n || inherited extra p n) = false

instance (n : String) : (x : Option Attr) → Decidable (Loose extra p n x)
  | some a => inferInstanceAs (Decidable (a.found = false))
  | none => inferInstanceAs (Decidable ((native p n || inherited extra p n) = false))

/-- What is not there may be written. -/
theorem loose_iff (c : Cls) (n : String) :
    Loose extra p n (c.attrs n) ↔ c.hasattr extra p n = false := by
  rw [Cls.hasattr]
  cases c.attrs n <;> rfl

/-- How the accessor gets into its slot. -/
def Accessor.write (a : Accessor) : Write (Option Attr) :=
  if a.kind.isDirect then .offer (some (.accessor a)) else .put (some (.accessor a))

/-- What is written under one name. -/
def writesOf (n : String) (as : List (String × Accessor)) : List (Write (Option Attr)) :=
  as.filterMap fun x => if x.1 = n then some x.2.write else none

/-- One accessor is one write. -/
theorem attrs_add (c : Cls) (x : String × Accessor) (n : String) :
    (c.add extra p x).attrs n =
      writeAll (Loose extra p n) (c.attrs n) (writesOf n [x]) := by
  obtain ⟨m, a⟩ := x
  by_cases hm : m = n
  · subst hm
    have hloose := loose_iff extra p c m
    simp only [Cls.add, Accessor.write, Cls.offer, Cls.put, writesOf, List.filterMap_cons,
      List.filterMap_nil, if_true, writeAll_cons, writeAll_nil]
    cases a.kind.isDirect with
    | false => simp [Write.write]
    | true =>
        cases h : c.hasattr extra p m with
        | false => simp [Write.write, hloose, h]
        | true => simp [Write.write, hloose, h]
  · have hn : n ≠ m := Ne.symm hm
    simp only [Cls.add, Cls.offer, Cls.put, writesOf, List.filterMap_cons, List.filterMap_nil, hm,
      if_false, writeAll_nil]
    split
    · split
      · rfl
      · exact Function.update_of_ne hn _ _
    · exact Function.update_of_ne hn _ _

/-- An accessor is no field. -/
theorem fields_add (c : Cls) (x : String × Accessor) : (c.add extra p x).fields = c.fields := by
  rw [Cls.add, Cls.offer]
  split
  · split <;> rfl
  · rfl

/-- The accessors of a file are writes, one after the other. -/
theorem attrs_foldl_add (as : List (String × Accessor)) (c : Cls) (n : String) :
    (as.foldl (Cls.add extra p) c).attrs n =
      writeAll (Loose extra p n) (c.attrs n) (writesOf n as) := by
  induction as generalizing c with
  | nil => rfl
  | cons x as ih =>
      have happend : writesOf n (x :: as) = writesOf n [x] ++ writesOf n as :=
        List.filterMap_append (l := [x])
      rw [List.foldl_cons, ih, attrs_add, happend, writeAll_append]

/-- Accessors are no fields. -/
theorem fields_foldl_add (as : List (String × Accessor)) (c : Cls) :
    (as.foldl (Cls.add extra p) c).fields = c.fields := by
  induction as generalizing c with
  | nil => rfl
  | cons x as ih => rw [List.foldl_cons, ih, fields_add]

end Files

/-! ## Commands -/

/-- What a command writes into the attribute `n` of the class with path `p`. -/
def Cmd.attrWrites (p : List String) (n : String) : Cmd → List (Write (Option Attr))
  | .ask | .reset _ => []
  | .subPath q d =>
    (if q = p ∧ "_cls_" ++ d = n then [.put (some (.cls (q ++ [d])))] else []) ++
      if q ++ [d] <+: p then [.put none] else []
  | .file q d reply =>
    match SetupVector.parse reply with
    | .error _ => []
    | .ok v => if q = p then writesOf n (v.accessors q d) else []

/-- What it writes into the field `k`. -/
def Cmd.fieldWrites (p : List String) (k : String) :
    Cmd → List (Write (Option (SetupVector × Option Bool)))
  | .ask => []
  | .reset q => if q = p then [.put none] else []
  | .subPath q d => if q ++ [d] <+: p then [.put none] else []
  | .file q d reply =>
    match SetupVector.parse reply with
    | .error _ => []
    | .ok v => if q = p ∧ d = k ∧ v.index = 0 then [.put (some (v, arrayKind d))] else []

/-- The names that it adds to `_subdirs`. -/
def Cmd.names : Cmd → List String
  | .subPath _ d => [d]
  | _ => []

/-- The commands have been executed. -/
structure Written (extra : List String → String → Bool) (cmds : List Cmd) (s s' : Classes) :
    Prop where
  attrs : ∀ p n, (s'.cls p).attrs n =
    writeAll (Loose extra p n) ((s.cls p).attrs n) (cmds.flatMap (Cmd.attrWrites p n))
  fields : ∀ p k, (s'.cls p).fields k =
    writeAll (fun _ => False) ((s.cls p).fields k) (cmds.flatMap (Cmd.fieldWrites p k))
  subdirs : ∀ d, d ∈ s'.subdirs ↔ d ∈ s.subdirs ∨ d ∈ cmds.flatMap Cmd.names

/-- Nothing has been executed but requests. -/
structure Unwritten (s s' : Classes) : Prop where
  cls : s'.cls = s.cls
  subdirs : s'.subdirs = s.subdirs

variable {extra : List String → String → Bool}

/-- What writes nothing. -/
theorem Unwritten.written {s s' : Classes} (h : Unwritten s s') : Written extra [] s s' :=
  ⟨fun p n => by rw [h.cls]; rfl, fun p k => by rw [h.cls]; rfl,
    fun d => by rw [h.subdirs]; simp⟩

/-- One sequence of commands after another. -/
theorem Written.trans {cmds cmds' : List Cmd} {s s' s'' : Classes} (h : Written extra cmds s s')
    (h' : Written extra cmds' s' s'') : Written extra (cmds ++ cmds') s s'' where
  attrs p n := by rw [h'.attrs, h.attrs, List.flatMap_append, writeAll_append]
  fields p k := by rw [h'.fields, h.fields, List.flatMap_append, writeAll_append]
  subdirs d := by rw [h'.subdirs, h.subdirs, List.flatMap_append, List.mem_append, or_assoc]

/-- The class with path `q` has changed, and no other. -/
theorem written_modifyCls {c : Cmd} {q : List String} {f : Cls → Cls} {s : Classes}
    (hattrs : ∀ n, (f (s.cls q)).attrs n =
      writeAll (Loose extra q n) ((s.cls q).attrs n) (c.attrWrites q n))
    (hfields : ∀ k, (f (s.cls q)).fields k =
      writeAll (fun _ => False) ((s.cls q).fields k) (c.fieldWrites q k))
    (hother : ∀ p, p ≠ q → (∀ n, c.attrWrites p n = []) ∧ ∀ k, c.fieldWrites p k = [])
    (hnames : c.names = []) :
    Written extra [c] s { s with cls := Function.update s.cls q (f (s.cls q)) } := by
  refine ⟨fun p n => ?_, fun p k => ?_, fun d => ?_⟩
  · rw [List.flatMap_singleton]
    by_cases hp : p = q
    · subst hp
      rw [← hattrs]
      simp
    · rw [(hother p hp).1 n]
      simp [hp]
  · rw [List.flatMap_singleton]
    by_cases hp : p = q
    · subst hp
      rw [← hfields]
      simp
    · rw [(hother p hp).2 k]
      simp [hp]
  · simp [hnames]

/-- What becomes of a command whose request is answered. -/
def Cmd.verdict : Cmd → Except Exc Unit
  | .file _ _ reply => (SetupVector.parse reply).map fun _ => ()
  | _ => .ok ()

/-- The command does not raise, if its request is answered. -/
def Cmd.Sound (c : Cmd) : Prop := c.verdict.isOk

instance (c : Cmd) : Decidable c.Sound := inferInstanceAs (Decidable (c.verdict.isOk = true))

/-- What a command does, whatever the requests come to. -/
theorem exec_spec (faults : Nat → Option Exc) (c : Cmd) (s : Classes) :
    wp (exec extra faults c) (fun _ s' => c.Sound ∧ Written extra [c] s s')
      (fun _ s' => Unwritten s s') s := by
  cases c with
  | ask =>
      simp only [exec, wp_bind, wp_get, wp_set]
      split
      · exact ⟨rfl, fun _ _ => rfl, fun _ _ => rfl, fun d => by simp [Cmd.names]⟩
      · exact ⟨rfl, rfl⟩
  | reset q =>
      rw [exec, modifyCls, wp_modify]
      refine ⟨rfl, written_modifyCls (c := .reset q) (f := fun c => { c with fields := fun _ => none })
        (fun n => rfl) (fun k => ?_) (fun p hp => ⟨fun n => rfl, fun k => ?_⟩) rfl⟩
      · simp [Cmd.fieldWrites, Write.write]
      · simp [Cmd.fieldWrites, Ne.symm hp]
  | subPath q d =>
      simp only [exec, modifyCls, wp_bind, wp_modify]
      refine ⟨rfl, fun p n => ?_, fun p k => ?_, fun x => ?_⟩
      · simp only [List.flatMap_singleton, Cmd.attrWrites]
        by_cases hpre : q ++ [d] <+: p
        · rw [if_pos hpre, if_pos hpre, writeAll_append]
          rfl
        · rw [if_neg hpre, if_neg hpre, List.append_nil]
          by_cases hp : q = p
          · subst hp
            by_cases hn : "_cls_" ++ d = n
            · subst hn
              simp [Write.write]
            · simp [hn, Ne.symm hn]
          · simp [hp, Ne.symm hp]
      · simp only [List.flatMap_singleton, Cmd.fieldWrites]
        by_cases hpre : q ++ [d] <+: p
        · rw [if_pos hpre, if_pos hpre]
          rfl
        · rw [if_neg hpre, if_neg hpre]
          by_cases hp : p = q
          · subst hp
            simp
          · simp [hp]
      · simp [Cmd.names, or_comm]
  | file q d reply =>
      rw [exec]
      cases hparse : SetupVector.parse reply with
      | error e => exact ⟨rfl, rfl⟩
      | ok v =>
          dsimp only
          rw [modifyCls, wp_modify]
          have hsound : (Cmd.file q d reply).Sound := by
            rw [Cmd.Sound, Cmd.verdict, hparse]
            rfl
          refine ⟨hsound, written_modifyCls (c := .file q d reply) (fun n => ?_) (fun k => ?_)
            (fun p hp => ⟨fun n => ?_, fun k => ?_⟩) rfl⟩
          · rw [addFile_eq, attrs_foldl_add]
            simp only [Cmd.attrWrites, hparse, if_true]
            split <;> rfl
          · rw [addFile_eq, fields_foldl_add]
            simp only [Cmd.fieldWrites, hparse, true_and]
            by_cases hi : v.index = 0
            · by_cases hd : d = k
              · subst hd
                simp [hi, Write.write]
              · simp [hi, hd, Ne.symm hd]
            · simp [hi]
          · simp [Cmd.attrWrites, hparse, Ne.symm hp]
          · simp [Cmd.fieldWrites, hparse, Ne.symm hp]

/-- Without faults it depends on the command whether it raises. -/
theorem exec_quiet (c : Cmd) (s : Classes) :
    wp (exec extra (fun _ => none) c) (fun r _ => c.verdict = .ok r)
      (fun e _ => c.verdict = .error e) s := by
  cases c with
  | ask => rfl
  | reset q => rfl
  | subPath q d => rfl
  | file q d reply =>
      rw [exec, Cmd.verdict]
      cases SetupVector.parse reply with
      | error e => rfl
      | ok v => rfl

/-! ## Runs -/

/-- The commands before the first one that raises in any case. -/
def executed (cmds : List Cmd) : List Cmd := cmds.takeWhile fun c => c.Sound

/-- Commands that have been stopped somewhere have been executed up to there. -/
theorem run_spec (faults : Nat → Option Exc) (cmds : List Cmd) (s : Classes) :
    wp (cmds.forM (exec extra faults)) (fun _ s' => executed cmds = cmds ∧ Written extra cmds s s')
      (fun _ s' => ∃ first, first <+: executed cmds ∧ Written extra first s s') s := by
  induction cmds generalizing s with
  | nil => exact ⟨rfl, Unwritten.written ⟨rfl, rfl⟩⟩
  | cons c cmds ih =>
      rw [List.forM, wp_bind]
      refine wp_mono (exec_spec faults c s) (fun _ s₁ h₁ => ?_) (fun _ s₁ h₁ => ?_)
      · obtain ⟨hc, h₁⟩ := h₁
        have hcons : executed (c :: cmds) = c :: executed cmds :=
          List.takeWhile_cons_of_pos (decide_eq_true hc)
        refine wp_mono (ih s₁) (fun _ s₂ h₂ => ?_) (fun _ s₂ h₂ => ?_)
        · exact ⟨by rw [hcons, h₂.1], h₁.trans h₂.2⟩
        · obtain ⟨first, hfirst, h₂⟩ := h₂
          exact ⟨c :: first, hcons ▸ (List.cons_prefix_cons.mpr ⟨rfl, hfirst⟩), h₁.trans h₂⟩
      · exact ⟨[], List.nil_prefix, h₁.written⟩

/-- Without faults it depends on the commands what they come to. -/
theorem run_quiet (extra : List String → String → Bool) (cmds : List Cmd) (s : Classes) :
    wp (cmds.forM (exec extra fun _ => none))
      (fun r s' => cmds.forM Cmd.verdict = .ok r ∧ Written extra (executed cmds) s s')
      (fun e s' => cmds.forM Cmd.verdict = .error e ∧ Written extra (executed cmds) s s') s := by
  induction cmds generalizing s with
  | nil => exact ⟨rfl, Unwritten.written ⟨rfl, rfl⟩⟩
  | cons c cmds ih =>
      rw [List.forM, wp_bind]
      refine wp_mono (wp_and (exec_spec _ c s) (exec_quiet c s)) (fun _ s₁ h₁ => ?_) (fun e s₁ h₁ => ?_)
      · obtain ⟨⟨hc, h₁⟩, hverdict⟩ := h₁
        have hcons : executed (c :: cmds) = [c] ++ executed cmds :=
          List.takeWhile_cons_of_pos (decide_eq_true hc)
        have hall : (c :: cmds).forM Cmd.verdict = cmds.forM Cmd.verdict := by
          rw [List.forM, hverdict]
          rfl
        rw [hcons, hall]
        exact wp_mono (ih s₁) (fun _ s₂ h₂ => ⟨h₂.1, h₁.trans h₂.2⟩) fun _ s₂ h₂ => ⟨h₂.1, h₁.trans h₂.2⟩
      · obtain ⟨h₁, hverdict⟩ := h₁
        have hc : ¬ c.Sound := by
          rw [Cmd.Sound, hverdict]
          exact Bool.false_ne_true
        have hall : (c :: cmds).forM Cmd.verdict = .error e := by
          rw [List.forM, hverdict]
          rfl
        rw [executed, List.takeWhile_cons_of_neg (by simpa using hc), hall]
        exact ⟨rfl, h₁.written⟩

end Struct

end AsyncOwfs
