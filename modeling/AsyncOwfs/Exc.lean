import Mathlib.Data.List.Basic

/-!
# AsyncOwfs.Exc

The exception classes of the modelled code.  A class of the source is one
constructor here, carrying the data the source puts into the instance; the
`except` clauses that name a base class are predicates over the constructors.

`anyio.EndOfStream`, `BrokenResourceError` and `ClosedResourceError` are direct
subclasses of `Exception`: none of them is an `EnvironmentError`, which is why
each of them needs a clause of its own.
-/

namespace AsyncOwfs

/-- The exceptions that cross the boundaries of the modelled functions. -/
inductive Exc
  /-- `anyio.get_cancelled_exc_class()`: the task has been cancelled. -/
  | cancelled
  /-- `concurrent.futures.CancelledError`, stored by `ValueEvent.cancel`. -/
  | futuresCancelled
  | endOfStream
  | closedResource
  | brokenResource
  | incompleteRead
  | stopAsyncIteration
  | serverBusy
  | timeoutError
  | brokenPipe
  | connectionReset
  /-- Any other `OSError` (`EnvironmentError` is its old name). -/
  | osError
  /-- An `OWFSReplyError`, with its `err`. -/
  | owfsReply (err : Int)
  | runtimeError (msg : String)
  | notADevice (id : String)
  | structError
  | assertionError
  | unicodeDecodeError
  | indexError
  | keyError
  | typeError
  | attributeError
  | notImplemented
  | valueError
  /-- `NoLocationKnown`, a `RuntimeError` of its own. -/
  | noLocationKnown
  deriving DecidableEq, Repr

namespace Exc

/-- `except EnvironmentError`: `OSError` and its subclasses. -/
def isEnvironmentError : Exc → Bool
  | timeoutError | brokenPipe | connectionReset | osError => true
  | _ => false

/-- The keys of `_errors`: the codes that have a class of their own. -/
def registered : List Int :=
  [2, 4, 5, 9, 11, 12, 13, 14, 16, 19, 20, 21, 22, 26, 27, 28, 29, 30, 31, 32, 33, 34, 35, 36, 37,
    38, 39, 40, 41, 42, 43, 44, 45, 46, 47, 48, 49, 50, 51, 52, 53, 54, 55, 56, 57, 58, 59, 60, 61,
    62, 63, 64, 65, 66, 67, 68, 69, 70, 71, 72, 73, 74, 75, 76, 77, 78, 79, 90, 95, 98, 99, 103, 105]

/-- Codes are positive. -/
theorem pos_of_registered {err : Int} (h : err ∈ registered) : 0 < err := by
  revert err
  decide

/-- The error for a negative result.  A class of its own has the code for its `err`, and
`GenericOWFSReplyError` the result as it came. -/
def ofResult (res : Int) : Exc := .owfsReply (if -res ∈ registered then -res else res)

end Exc

end AsyncOwfs
