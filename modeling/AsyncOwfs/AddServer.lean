import AsyncOwfs.Server
import AsyncOwfs.Scanner

/-!
# AsyncOwfs.AddServer

The life of one `Server` object: `Service.add_server` with its phases, the run
task and the scanner that it starts, `Server.aclose` and `Server.drop`, and the
end of the service, which drops the servers that are left.

The tasks of the connection are those of `AsyncOwfs.Server`, the `_scan` tasks
those of `AsyncOwfs.Scanner`; both belong to the task group of `_run_one`.  An
event is pushed when `push_event` is called.
-/

namespace AsyncOwfs

inductive ServerEvent
  | registered
  | connected
  | disconnected
  | deregistered
  deriving DecidableEq, Repr

/-- Where `add_server` stands. -/
inductive AddPc
  | notCalled
  /-- `await val.get()` in `start` -/
  | starting
  /-- In the initial scan of `start_scan`. -/
  | scanning
  | returned
  | raised (e : Exc)
  deriving DecidableEq, Repr

/-- The calls that close a server: `aclose` and `drop` by a user, `drop` by
`Service.__aexit__`. -/
inductive Closing
  | aclose
  | drop
  | exit
  deriving DecidableEq, Repr

structure AddServer where
  pc : AddPc := .notCalled
  /-- The arguments for `start_scan`. -/
  args : ScanArgs := ⟨none, true, 0⟩
  initialScan : InitialScan := .never
  server : Server := Server.init
  scanner : Scanner := Scanner.init
  /-- `val.value` -/
  val : Option (Except Exc Unit) := none
  /-- The server is in `Service._servers`. -/
  inServers : Bool := false
  /-- `_buses` is not `None`. -/
  hasBuses : Bool := true
  closing : Option Closing := none
  events : List ServerEvent := []

namespace AddServer

inductive Action
  /-- `add_server` is called, and waits in `start`. -/
  | addServer (args : ScanArgs) (initialScan : InitialScan)
  /-- `val.get()` returns, or raises. -/
  | started
  /-- `add_server` is cancelled while it waits for the connection. -/
  | startCancelled
  /-- The initial scan ends, or raises. -/
  | scanned (result : Except Exc Unit)
  /-- A task of the connection goes on. -/
  | net (a : AsyncOwfs.Action)
  /-- A `start_scan` that a connection has spawned begins, or is cancelled. -/
  | restarts
  | vanishes
  /-- A `_scan` task ends, or raises. -/
  | scanEnds (n : Nat)
  | scanRaises (n : Nat) (e : Exc)
  /-- A call that closes the server, up to its first await. -/
  | closes (c : Closing)
  /-- The rest of that call; a `delocate` of a bus may raise. -/
  | closed (raises : Bool)

def pushEvent (s : AddServer) (e : ServerEvent) : AddServer := { s with events := s.events ++ [e] }

/-- `except BaseException` around `s.start()` -/
def startFails (s : AddServer) (e : Exc) : AddServer :=
  { s.pushEvent .deregistered with pc := .raised e }

/-- The call `n` of `start_scan` is that of `add_server`. -/
def scanResult (n : Nat) (sc : Scanner) (e : Exc) : AddPc :=
  match sc.call n with
  | .running => .scanning
  | .returned => .returned
  | .raised => .raised e

/-- What `start_scan` raises when it starts no scan. -/
def startScanError (a : ScanArgs) : Exc :=
  if a.Refused then .runtimeError "You can't scan that often." else .attributeError

/-- `add_server` behind `start`. -/
def startScan (s : AddServer) : AddServer :=
  let sc := s.scanner.startScan s.args s.initialScan
  { s with
    inServers := true, scanner := sc,
    pc := scanResult s.scanner.nextCall sc (startScanError s.args) }

/-- `add_server` behind its initial scan, which is the first call of
`start_scan`. -/
def scanEnds (s : AddServer) (result : Except Exc Unit) : AddServer :=
  match result with
  | .ok _ =>
    match s.scanner.step (.scanned 0) with
    | none => s
    | some sc => { s with scanner := sc, pc := scanResult 0 sc .attributeError }
  | .error e =>
    match s.scanner.step (.scanFails 0) with
    | none => s
    | some sc => { s with scanner := sc, pc := .raised e }

/-- What the value of `val` becomes. -/
def valAfter (s : Server) (a : AsyncOwfs.Action) (val : Option (Except Exc Unit)) :
    Option (Except Exc Unit) :=
  match a with
  | .greetingDone =>
    match s.run with
    | .greeted id =>
      match (s.msg id).event, s.valPending with
      | some (.ok _), true => some (.ok ())
      | _, _ => val
    | _ => val
  | .leave =>
    match afterRunOne s.valPending s.runOneEnd with
    | .startFailed e => some (.error e)
    | _ => val
  | _ => val

/-- What the scanner sees of an action that leads the connection to `server`. -/
def follow (sc : Scanner) (server : Server) : AsyncOwfs.Action → Option Scanner
  | .greetingDone =>
    if server.run = .serving then sc.step .comesUp else some { sc with cancelled := true }
  | .leave =>
    match sc.step .left with
    | none => none
    | some sc => if server.run = .connecting then sc.step .opens else some sc
  | .wake => sc.step .opens
  | _ => some (if server.cancelled then { sc with cancelled := true } else sc)

/-- The actions of `aclose`. -/
def isClosing : AsyncOwfs.Action → Bool
  | .acloseBegins | .acloseEnds => true
  | _ => false

/-- A task of the connection goes on. -/
def netStep (s : AddServer) (a : AsyncOwfs.Action) : Option AddServer :=
  match s.server.step a with
  | none => none
  | some server =>
    match follow s.scanner server a with
    | none => none
    | some scanner => some { s with server, scanner, val := valAfter s.server a s.val }

/-- A task of the scanner goes on.  If it cancels the task group, that is because
it has raised `e`. -/
def scannerStep (s : AddServer) (a : Scanner.Action) (e : Exc) : Option AddServer :=
  match s.scanner.step a with
  | none => none
  | some scanner =>
    some { s with
      scanner,
      server := if scanner.cancelled ∧ ¬ s.server.cancelled then s.server.raise e else s.server }

/-- `aclose` up to its first await. -/
def acloseBegins (s : AddServer) (c : Closing) : Option AddServer :=
  match s.server.step .acloseBegins with
  | none => none
  | some server =>
    some { s.pushEvent .disconnected with
      server, scanner := { s.scanner with cancelled := true }, closing := some c }

/-- The rest of `aclose`, behind its first await. -/
def acloseEnds (s : AddServer) (raises : Bool) : Option AddServer :=
  if raises then
    if s.hasBuses then some { s with server := { s.server with closer := .returned } } else none
  else
    match s.server.step .acloseEnds with
    | none => none
    | some server => some { s with server, hasBuses := false }

/-- `Service._del_server`; a `KeyError` if the server is not there. -/
def delServer (s : AddServer) : AddServer :=
  if s.inServers then { s.pushEvent .deregistered with inServers := false } else s

/-- `drop` has a `finally` for `_del_server`. -/
def close (s : AddServer) : Closing → AddServer
  | .aclose => { s with closing := none }
  | .drop | .exit => { s.delServer with closing := none }

/-- The effect of an action, where it is possible. -/
def step (s : AddServer) : Action → Option AddServer
  | .addServer args initialScan =>
    if s.pc = .notCalled then
      some { s.pushEvent .registered with
        pc := .starting, args, initialScan, scanner := { s.scanner with group := .opening } }
    else none
  | .started =>
    match s.pc, s.val with
    | .starting, some (.ok _) => some (s.pushEvent .connected).startScan
    | .starting, some (.error e) => some (s.startFails e)
    | _, _ => none
  | .startCancelled => if s.pc = .starting then some (s.startFails .cancelled) else none
  | .scanned result => if s.pc = .scanning then some (s.scanEnds result) else none
  | .net a => if s.pc = .notCalled ∨ isClosing a then none else s.netStep a
  | .restarts => s.scannerStep .begins (.runtimeError "You can't scan that often.")
  | .vanishes => s.scannerStep .vanishes .cancelled
  | .scanEnds n => s.scannerStep (.scanEnds n) .cancelled
  | .scanRaises n e => s.scannerStep (.scanRaises n) e
  | .closes c =>
    if s.pc = .notCalled ∨ s.closing ≠ none then none
    else if c = .exit ∧ ¬ s.inServers then some s
    else s.acloseBegins c
  | .closed raises =>
    match s.closing with
    | none => none
    | some c => (s.acloseEnds raises).map fun s => s.close c

def init : AddServer := {}

end AddServer

end AsyncOwfs
