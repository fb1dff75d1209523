import AsyncOwfs.Struct.Writes

/-!
# AsyncOwfs.Struct.Retry

Setting up a class again.

An attempt that is interrupted leaves a part of the accessors behind, in the class
itself and in the classes of its subdirectories.  The next one makes the latter anew;
in the former it meets what it is about to write, and whether it overwrites that
depends on what is there.
-/

namespace AsyncOwfs

namespace Struct

open Hoare Write

variable {extra : List String → String → Bool}

/-- No request fails. -/
def quiet : Nat → Option Exc := fun _ => none

/-- What can be seen of a call and of the classes behind it: the tables of accessors, the
fields and the subdirectories of all of them, and `_did_setup`. -/
def report : EStateM.Result Exc Classes Unit →
    Except Exc Unit × (List String → Cls) × Finset String × Setup
  | .ok a s => (.ok a, s.cls, s.subdirs, s.didSetup)
  | .error e s => (.error e, s.cls, s.subdirs, s.didSetup)

/-- **Replay**: what has been written before by the same commands does not matter. -/
theorem Written.replay {first cmds : List Cmd} (hfirst : first <+: cmds) {s s₁ s' s'' : Classes}
    (h₁ : Written extra first s s₁) (h' : Written extra cmds s s')
    (h'' : Written extra cmds s₁ s'') : s''.cls = s'.cls ∧ s''.subdirs = s'.subdirs := by
  constructor
  · funext p
    apply Cls.ext
    · funext n
      rw [h''.attrs, h₁.attrs, h'.attrs]
      exact writeAll_replay _ (hfirst.flatMap _) _
    · funext k
      rw [h''.fields, h₁.fields, h'.fields]
      exact writeAll_replay _ (hfirst.flatMap _) _
  · ext d
    rw [h''.subdirs, h₁.subdirs, h'.subdirs, or_assoc]
    have hnames := (hfirst.flatMap Cmd.names).subset (a := d)
    tauto

/-- An attempt, and what it leaves if it is interrupted. -/
theorem setupStruct_spec (extra : List String → String → Bool) (faults : Nat → Option Exc)
    (tree : Tree) {s : Classes} (hs : s.didSetup = .no) :
    wp (setupStruct extra faults tree) (fun _ s' => s'.didSetup = .done)
      (fun _ s' => s'.didSetup = .no ∧
        ∃ first, first <+: executed (setupAccessors tree []) ∧ Written extra first s s') s := by
  simp only [setupStruct, wp_bind, wp_get, hs, ne_eq, not_true, if_false, wp_set, wp_tryCatch]
  refine wp_mono (run_spec faults _ _) (fun _ s' h => rfl) (fun e s' h => ?_)
  obtain ⟨first, hfirst, h⟩ := h
  exact ⟨rfl, first, hfirst, h.attrs, h.fields, h.subdirs⟩

/-- An attempt that is not interrupted. -/
theorem setupStruct_quiet (extra : List String → String → Bool) (tree : Tree) {s : Classes}
    (hs : s.didSetup = .no) :
    wp (setupStruct extra quiet tree)
      (fun r s' => (setupAccessors tree []).forM Cmd.verdict = .ok r ∧ s'.didSetup = .done ∧
        Written extra (executed (setupAccessors tree [])) s s')
      (fun e s' => (setupAccessors tree []).forM Cmd.verdict = .error e ∧ s'.didSetup = .no ∧
        Written extra (executed (setupAccessors tree [])) s s') s := by
  simp only [setupStruct, wp_bind, wp_get, hs, ne_eq, not_true, if_false, wp_set, wp_tryCatch]
  refine wp_mono (run_quiet extra _ _) (fun r s' h => ?_) (fun e s' h => ?_)
  · exact ⟨h.1, rfl, h.2.attrs, h.2.fields, h.2.subdirs⟩
  · exact ⟨h.1, rfl, h.2.attrs, h.2.fields, h.2.subdirs⟩

/-- What can be seen of it depends on the commands and on what they write. -/
theorem report_quiet (extra : List String → String → Bool) (tree : Tree) {s : Classes}
    (hs : s.didSetup = .no) :
    ∃ s', Written extra (executed (setupAccessors tree [])) s s' ∧
      report (setupStruct extra quiet tree s) =
        ((setupAccessors tree []).forM Cmd.verdict, s'.cls, s'.subdirs,
          if ((setupAccessors tree []).forM Cmd.verdict).isOk then .done else .no) := by
  have hquiet := setupStruct_quiet extra tree hs
  rw [wp] at hquiet
  cases hx : setupStruct extra quiet tree s with
  | ok r s' =>
      rw [hx] at hquiet
      obtain ⟨hv, hdone, hw⟩ := hquiet
      exact ⟨s', hw, by rw [report, hv, hdone]; rfl⟩
  | error e s' =>
      rw [hx] at hquiet
      obtain ⟨hv, hno, hw⟩ := hquiet
      exact ⟨s', hw, by rw [report, hv, hno]; rfl⟩

/-- **A retry** does what the attempt before it would have done. -/
theorem report_retry {faults : Nat → Option Exc} {tree : Tree} {s s₁ : Classes} {e : Exc}
    (hs : s.didSetup = .no) (h : setupStruct extra faults tree s = .error e s₁) :
    s₁.didSetup = .no ∧
      report (setupStruct extra quiet tree s₁) = report (setupStruct extra quiet tree s) := by
  have hfirst := setupStruct_spec extra faults tree hs
  rw [wp, h] at hfirst
  obtain ⟨hs₁, first, hfirst, h₁⟩ := hfirst
  refine ⟨hs₁, ?_⟩
  obtain ⟨s', hw, hfresh⟩ := report_quiet extra tree hs
  obtain ⟨s'', hw', hretry⟩ := report_quiet extra tree hs₁
  obtain ⟨hcls, hsubdirs⟩ := h₁.replay hfirst hw hw'
  rw [hfresh, hretry, hcls, hsubdirs]

/-- What attempts that have been interrupted make of a class. -/
inductive Interrupted (extra : List String → String → Bool) (tree : Tree) (s₀ : Classes) :
    Classes → Prop
  | none : Interrupted extra tree s₀ s₀
  | again {s s' : Classes} {faults : Nat → Option Exc} {e : Exc} (h : Interrupted extra tree s₀ s)
    (herror : setupStruct extra faults tree s = .error e s') : Interrupted extra tree s₀ s'

/-- **Retrying**: after any number of interrupted attempts, the class is as it would be had
there not been any. -/
theorem retry_of_interrupted {tree : Tree} {s₀ s : Classes} (hs₀ : s₀.didSetup = .no)
    (h : Interrupted extra tree s₀ s) :
    s.didSetup = .no ∧
      report (setupStruct extra quiet tree s) = report (setupStruct extra quiet tree s₀) := by
  induction h with
  | none => exact ⟨hs₀, rfl⟩
  | again h herror ih =>
      obtain ⟨hs, hreport⟩ := ih
      obtain ⟨hs', hreport'⟩ := report_retry hs herror
      exact ⟨hs', hreport'.trans hreport⟩

/-- An array and a file with one name, and the request for the file is interrupted. -/
theorem retry_of_interrupted_array :
    let tree : Tree := .file "x.0" "i,0,4,ro,1,v,".toUTF8.data.toList
      (.file "x" "t,0,1,ro,12,v,".toUTF8.data.toList .nil)
    ∃ s, setupStruct (fun _ _ => false) (fun i => if i = 2 then some .cancelled else none) tree {} =
        .error .cancelled s ∧
      report (setupStruct (fun _ _ => false) quiet tree s) =
        report (setupStruct (fun _ _ => false) quiet tree {}) := by
  intro tree
  have hraises : (report (setupStruct (fun _ _ => false)
      (fun i => if i = 2 then some .cancelled else none) tree {})).1 = .error .cancelled := by
    decide +kernel
  cases h : setupStruct (fun _ _ => false) (fun i => if i = 2 then some .cancelled else none) tree {} with
  | ok r s =>
      rw [h] at hraises
      contradiction
  | error e s =>
      rw [h, report, Except.error.injEq] at hraises
      subst hraises
      exact ⟨s, rfl, (retry_of_interrupted rfl (.again .none h)).2⟩

end Struct

end AsyncOwfs
