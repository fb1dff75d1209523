import AsyncOwfs.Exc
import AsyncOwfs.Lib.Transition
import Mathlib.Data.Rat.Defs
import Mathlib.Algebra.Order.Ring.Unbundled.Rat
import Mathlib.Logic.Function.Basic

/-!
# AsyncOwfs.Scanner

Who starts the background task `_scan` of a server: the callers of `start_scan`,
and `_run_one`, which spawns a `start_scan` of its own whenever a connection has
come up.

The calls of `start_scan` are numbered, and arguments are named by the call that
they are from: `saved` is the call whose arguments are in `_scan_args`, `scans`
has an element for every live `_scan` task.  All these tasks are children of the
current task group, which is left when they have ended.
-/

namespace AsyncOwfs

/-- The arguments that are saved, and that `_scan` runs with. -/
structure ScanArgs where
  scan : Option ℚ
  polling : Bool
  random : Int
  deriving DecidableEq

/-- The argument `initial_scan`. -/
inductive InitialScan
  | never
  | now
  | delayed (d : ℚ)
  deriving DecidableEq

namespace ScanArgs

/-- `bool(scan)` -/
def Background (a : ScanArgs) : Prop := ∃ i ∈ a.scan, i ≠ 0

instance (a : ScanArgs) : Decidable a.Background := by
  unfold Background
  infer_instance

/-- `scan and scan < 1` -/
def Refused (a : ScanArgs) : Prop := ∃ i ∈ a.scan, i ≠ 0 ∧ i < 1

instance (a : ScanArgs) : Decidable a.Refused := by
  unfold Refused
  infer_instance

end ScanArgs

/-- `bool(initial_scan)` -/
def InitialScan.Wanted : InitialScan → Prop
  | .never => False
  | .now => True
  | .delayed d => d ≠ 0

instance (i : InitialScan) : Decidable i.Wanted := by
  unfold InitialScan.Wanted
  split <;> infer_instance

/-- How far a call of `start_scan` is: in its initial scan, or done. -/
inductive ScanCall
  | running
  | returned
  | raised
  deriving DecidableEq, Repr

/-- `_current_tg`. -/
inductive Group
  | none
  /-- `_run_one` has not come to its `start_scan` yet. -/
  | opening
  | up
  deriving DecidableEq, Repr

structure Scanner where
  args : Nat → ScanArgs := fun _ => ⟨.none, true, 0⟩
  call : Nat → ScanCall := fun _ => .returned
  nextCall : Nat := 0
  /-- `_scan_args` -/
  saved : Option Nat := .none
  group : Group := .none
  /-- `_current_tg.cancel_scope` has been cancelled. -/
  cancelled : Bool := false
  /-- The `start_scan`s of connections that have not begun yet. -/
  spawned : List Nat := []
  /-- The live `_scan` tasks. -/
  scans : List Nat := []

namespace Scanner

inductive Action
  /-- A user calls `start_scan`. -/
  | startScan (a : ScanArgs) (initial : InitialScan)
  /-- The initial scan of a call is over. -/
  | scanned (n : Nat)
  /-- The initial scan of a call raises. -/
  | scanFails (n : Nat)
  /-- `_run_one` enters its task group. -/
  | opens
  /-- `_run_one` spawns a `start_scan` with the saved arguments. -/
  | comesUp
  /-- That one begins. -/
  | begins
  /-- That one is cancelled before it begins. -/
  | vanishes
  /-- The task group is cancelled. -/
  | lost
  /-- A `_scan` task has scanned once, and has no interval, or has been
  cancelled. -/
  | scanEnds (n : Nat)
  /-- A `_scan` task raises. -/
  | scanRaises (n : Nat)
  /-- The task group is left. -/
  | left
  deriving DecidableEq

def setCall (s : Scanner) (n : Nat) (c : ScanCall) : Scanner :=
  { s with call := Function.update s.call n c }

/-- The end of `start_scan`, for the call `n`. -/
def spawnScan (s : Scanner) (n : Nat) : Scanner :=
  if s.group = .none then s.setCall n .raised
  else { s.setCall n .returned with scans := s.scans ++ [n] }

/-- `start_scan` up to its first await; the call gets the next number. -/
def startScan (s : Scanner) (a : ScanArgs) (initial : InitialScan) : Scanner :=
  let n := s.nextCall
  let s := { s with args := Function.update s.args n a, nextCall := n + 1, saved := some n }
  if ¬ a.Background ∧ ¬ initial.Wanted then s.setCall n .returned
  else if a.Refused then s.setCall n .raised
  else if initial = .now then s.setCall n .running
  else s.spawnScan n

/-- The `start_scan` of a connection, which has no initial scan.  A `RuntimeError`
goes to the task group. -/
def restartScan (s : Scanner) (n : Nat) : Scanner :=
  let s := { s with saved := some n }
  if ¬ (s.args n).Background then s
  else if (s.args n).Refused then { s with cancelled := true }
  else { s with scans := s.scans ++ [n] }

/-- The effect of an action, where it is possible. -/
def step (s : Scanner) : Action → Option Scanner
  | .startScan a initial => some (s.startScan a initial)
  | .scanned n =>
    if n < s.nextCall ∧ s.call n = .running then
      some (if (s.args n).Background then s.spawnScan n else s.setCall n .returned)
    else none
  | .scanFails n =>
    if n < s.nextCall ∧ s.call n = .running then some (s.setCall n .raised) else none
  | .opens => if s.group = .none then some { s with group := .opening } else none
  | .comesUp =>
    if s.group = .opening then some { s with group := .up, spawned := s.saved.toList } else none
  | .begins =>
    match s.spawned with
    | [] => none
    | n :: spawned => some { s.restartScan n with spawned }
  | .vanishes => if s.cancelled then some { s with spawned := [] } else none
  | .lost => if s.group = .none then none else some { s with cancelled := true }
  | .scanEnds n =>
    if n ∈ s.scans ∧ (s.cancelled ∨ ¬ (s.args n).Background) then
      some { s with scans := s.scans.erase n }
    else none
  | .scanRaises n =>
    if n ∈ s.scans then some { s with scans := s.scans.erase n, cancelled := true } else none
  | .left =>
    if s.group ≠ .none ∧ s.spawned = [] ∧ s.scans = [] then
      some { s with group := .none, cancelled := false }
    else none

def init : Scanner := {}

/-- No call between this one and the present has gone well. -/
def Latest (s : Scanner) (n : Nat) : Prop :=
  n < s.nextCall ∧ s.call n ≠ .raised ∧ ∀ m < s.nextCall, n < m → s.call m = .raised

instance (s : Scanner) (n : Nat) : Decidable (s.Latest n) :=
  inferInstanceAs (Decidable (_ ∧ _ ∧ _))

end Scanner

end AsyncOwfs
