import AsyncOwfs.Mock.Session

/-!
# AsyncOwfs.Mock.Options

`some_server` with its options, which make it busy, slow, or close the connection, and a
client whose run task connects again.

An option is an array of flags that are used one after the other, and over again; the
array is kept from one connection to the next.  The server uses up a flag of each for
every request, and one for closing when a connection begins.  How long it is slow does
not matter here.
-/

namespace AsyncOwfs

open Protocol

namespace Mock

/-! ## Options -/

/-- An array of flags, with the number of the one that was used last in front. -/
structure Cycle (α : Type) where
  last : Nat
  flags : List α
  ne : flags ≠ []
  deriving Repr

namespace Cycle

variable {α : Type}

/-- `v[0]` behind `v[0] += 1` and `if v[0] >= len(v): v[0] = 1`. -/
def position (v : Cycle α) : Nat := if v.flags.length + 1 ≤ v.last + 1 then 1 else v.last + 1

/-- The position is that of a flag, behind the offset. -/
theorem position_bounds (v : Cycle α) : 0 < v.position ∧ v.position ≤ v.flags.length := by
  have hpos := List.length_pos_iff.mpr v.ne
  unfold position
  split <;> omega

/-- The flags are counted from zero. -/
theorem position_lt (v : Cycle α) : v.position - 1 < v.flags.length := by
  have := v.position_bounds
  omega

/-- The flag `v[v[0]]`, and the array as it is then. -/
def next (v : Cycle α) : α × Cycle α :=
  (v.flags.get ⟨v.position - 1, v.position_lt⟩, { v with last := v.position })

end Cycle

/-- The `options` of `some_server`. -/
structure Options where
  busy : Option (Cycle Bool) := none
  close : Option (Cycle Bool) := none
  slow : Option (Cycle Nat) := none

/-- `_chk` -/
def chk : Option (Cycle Bool) → Bool × Option (Cycle Bool)
  | none => (false, none)
  | some v => (v.next.1, some v.next.2)

/-- `_schk`, without the sleep. -/
def schk (v : Option (Cycle Nat)) : Option (Cycle Nat) := v.map fun v => v.next.2

/-! ## The server -/

/-- The two ends of a connection, and the options of the server. -/
structure Served where
  session : Session
  options : Options := {}
  /-- The server has returned, and closed the connection. -/
  closed : Bool := false

namespace Served

/-- A new connection, which the server may close at once. -/
def connect (tree : Tree) (o : Options) : Served where
  session := .start tree
  options := { o with close := (chk o.close).2 }
  closed := (chk o.close).1

/-- `rdr.write(0, format_flags, 0, data=None)` -/
def busyFrame (flags : Int) : Frame := { typ := 0, flags, data := none }

/-- `if _chk(each_busy)`, with what it sends. -/
def checkBusy (down : Wire) (flags : Int) (x : Served) : Served :=
  let o := { x.options with busy := (chk x.options.busy).2 }
  if (chk x.options.busy).1 then
    { x with options := o, session := x.session.reply down (.ok (busyFrame flags, x.session.tree)) }
  else { x with options := o }

/-- `await _schk(each_slow)`, and `if _chk(each_close): return` -/
def checkClose (x : Served) : Served :=
  { x with
    options := { x.options with close := (chk x.options.close).2, slow := schk x.options.slow }
    closed := (chk x.options.close).1 }

/-- One pass of the server's loop. -/
def serve (down : Wire) (x : Served) : Served :=
  match x.session.server.anext with
  | (.error e, server) => { x with session := { x.session with server, ended := some e } }
  -- two values do not unpack into four
  | (.ok (.reply _ _), server) =>
    { x with session := { x.session with server, ended := some .valueError } }
  | (.ok (.request command flags data offset), server) =>
    let x := { x with session := { x.session with server } }.checkBusy down flags
    if x.session.ended.isSome then x
    else
      let x := x.checkClose
      if x.closed then x
      else
        { x with
          session := x.session.reply down (respond x.session.tree command flags data offset) }

/-! ## The client -/

/-- The reader of the client passes over busy frames, at most `fuel` of them. -/
def awaitReply (m : Message) : Nat → Session → Except Exc ValueEvent × Session
  | 0, s => s.receive m
  | fuel + 1, s =>
    match s.client.anext with
    | (.error .serverBusy, client) => awaitReply m fuel { s with client }
    | _ => s.receive m

/-- A message is sent over a connection.  A server that has returned or ended does not
read it. -/
def request (l : Link) (m : Message) (x : Served) : Except Exc ValueEvent × Served :=
  match Protocol.write m.frame with
  | .error e => (.error e, x)
  | .ok b =>
    let x :=
      if x.closed ∨ x.session.ended.isSome then x
      else serve l.down
        { x with session := { x.session with server := l.up.deliver b x.session.server } }
    -- a frame is longer than a byte
    let r := awaitReply m x.session.client.pending.length x.session
    (r.1, { x with session := r.2 })

/-- `chat`, with a run task that connects again when the server has closed the connection,
and sends the message once more; over at most `fuel` connections.  The `NOPMsg` that the run
task sends behind it is left out: its flags are used up when the message has been answered. -/
def chat (m : Message) : Nat → (Nat → Link) → Served → Option (Except Exc ValueEvent × Served)
  | 0, _, _ => none
  | fuel + 1, l, x =>
    match x.request (l 0) m with
    | (.error .stopAsyncIteration, y) =>
      if y.closed then chat m fuel (fun k => l (k + 1)) (connect y.session.tree y.options)
      else some (.error .stopAsyncIteration, y)
    | r => some r

end Served

end Mock

end AsyncOwfs
