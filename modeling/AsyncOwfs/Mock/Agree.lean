import AsyncOwfs.Mock.Session
import AsyncOwfs.Mock.Tree

/-!
# AsyncOwfs.Mock.Agree

Client and server agree on reads and writes: `attr_set` on a leaf is answered, `attr_get`
then returns the bytes of the value, and nothing else has changed (`Agree`).

They do for every value but the empty one.  `write` cuts the payload with `data[-offset:]`
and `data[:-offset]`, and an offset of zero makes the value all of it and leaves nothing
of the path, so that the server fails its own assertion and ends.
-/

namespace AsyncOwfs

open Protocol

/-- A text, or the bytes of one. -/
def SetValue.IsUtf8 : SetValue → Prop
  | .bytes b => ∃ s, Utf8.encode s = b
  | _ => True

/-- What is UTF-8 is the bytes of some text. -/
theorem SetValue.exists_encode {value : SetValue} (h : value.IsUtf8) :
    ∃ s, Utf8.encode s = value.encode := by
  cases value with
  | bool b => exact ⟨if b then "1" else "0", by cases b <;> decide⟩
  | bytes b => exact h
  | text s => exact ⟨s, rfl⟩

namespace Mock

/-- A write to a leaf is answered, it is what the leaf is read as from then on, and
whatever leads elsewhere is read and listed as before, over any connection. -/
structure Agree (s : Session) (path : List String) (value : SetValue) : Prop where
  set : ∀ l, (s.attrSet l path value).1 = .ok (some (.ok (.bytes [])))
  get : ∀ l l', ((s.attrSet l path value).2.attrGet l' path).1 =
    .ok (some (.ok (.bytes value.encode)))
  others : ∀ l l' l'' other, ValidPath other → s.tree.IsLeaf other →
    s.tree.slot other ≠ s.tree.slot path →
    ((s.attrSet l path value).2.attrGet l' other).1 = (s.attrGet l'' other).1
  dirs : ∀ l l' l'' directory,
    ((s.attrSet l path value).2.dir l' directory).1 = (s.dir l'' directory).1

/-! ## Requests and replies -/

/-- A message with data is a plain frame. -/
theorem plain_frame {m : Message} (hr : 0 ≤ m.rlen) (hd : m.data ≠ []) : Plain m.frame where
  data_eq := rfl
  rlen_nonneg := hr
  rlen_of_empty h := absurd h hd

/-- A path is never empty. -/
theorem encodePath_ne_nil (path : List String) : encodePath path ≠ [] :=
  List.concat_ne_nil 0 _

/-- A path has a slash and a zero at least. -/
theorem two_le_length_encodePath (path : List String) : 2 ≤ (encodePath path).length := by
  rw [encodePath_eq, List.length_append, List.length_cons, List.length_singleton]
  omega

/-- A write is a plain frame. -/
theorem plain_attrSetMsg (path : List String) (value : SetValue) :
    Plain (attrSetMsg path value).frame :=
  plain_frame (Int.natCast_nonneg _)
    (List.append_ne_nil_of_left_ne_nil (encodePath_ne_nil path) value.encode)

/-- A read is a plain frame. -/
theorem plain_attrGetMsg {path : List String} {m : Message} (h : attrGetMsg path = .ok m) :
    Plain m.frame := by
  unfold attrGetMsg at h
  split at h
  · exact nomatch h
  · injection h with h
    subst h
    exact plain_frame (Int.natCast_nonneg 8192) (encodePath_ne_nil path)

/-- A listing is asked for by a plain frame. -/
theorem plain_dirMsg (path : List String) : Plain (dirMsg path).frame := by
  have := two_le_length_encodePath path
  refine plain_frame ?_ (encodePath_ne_nil path)
  show 0 ≤ ((encodePath path).length : Int) - 1
  omega

/-- What fits into the protocol fits into 32 bits. -/
theorem isInt32_of_le {i : Int} (h0 : 0 ≤ i) (h : i ≤ maxLength) : IsInt32 i := by
  have hmax : maxLength = 9999 := rfl
  exact isInt32_iff.mpr (by omega)

/-- A frame within bounds can be written. -/
theorem exists_write {f : Frame} (hf : Plain f) (htyp : IsInt32 f.typ)
    (hflags : f.flags = requestFlags) (hlen : f.payload.length ≤ maxLength)
    (hrlen : f.rlen ≤ maxLength) (hoff : f.offset = 0) : ∃ b, Protocol.write f = .ok b := by
  have hzero : IsInt32 0 := by decide
  have hflags' : IsInt32 f.flags := by
    rw [hflags]
    decide
  have hin : Header.InRange ⟨0, f.payload.length, f.typ, f.flags, f.rlen, f.offset⟩ :=
    ⟨hzero, isInt32_of_le (Int.natCast_nonneg _) (Int.ofNat_le.mpr hlen), htyp, hflags',
      isInt32_of_le hf.rlen_nonneg hrlen, hoff ▸ hzero⟩
  rw [Protocol.write, hf.data_eq]
  simp only [Header.pack, if_pos hin]
  exact ⟨_, rfl⟩

/-- A read leaves the tree as it is. -/
theorem handle_read (t : Tree) (flags : Int) (data : Bytes) (offset : Int) :
    handle t OWMsg.read flags data offset = (read t data).bind fun res =>
      .ok ({ typ := 0, flags, rlen := res.length, data := some (res ++ [0]) }, t) := rfl

/-- A listing leaves the tree as it is. -/
theorem handle_dirall (t : Tree) (flags : Int) (data : Bytes) (offset : Int) :
    handle t OWMsg.dirall flags data offset = (dirall t data).bind fun data =>
      .ok ({ typ := 0, flags, rlen := data.length, data := some (data ++ [0]) }, t) := rfl

/-- A write is answered without data. -/
theorem handle_write (t : Tree) (flags : Int) (data : Bytes) (offset : Int) :
    handle t OWMsg.write flags data offset = (write t data offset).bind fun t =>
      .ok ({ typ := 0, flags }, t) := rfl

/-- What can be handled is answered. -/
theorem respond_of_ok {t t' : Tree} {command flags offset : Int} {data : Bytes} {f : Frame}
    (h : handle t command flags data offset = .ok (f, t')) :
    respond t command flags data offset = .ok (f, t') := by
  rw [respond, h]

/-- A write that can be done is answered. -/
theorem respond_write_of_ok {t t' : Tree} {data : Bytes} {offset : Int} (flags : Int)
    (h : write t data offset = .ok t') :
    respond t OWMsg.write flags data offset = .ok ({ typ := 0, flags }, t') := by
  refine respond_of_ok ?_
  rw [handle_write, h]
  rfl

/-- A read that can be done is answered. -/
theorem respond_read_of_ok {t : Tree} {data res : Bytes} (flags offset : Int)
    (h : read t data = .ok res) :
    respond t OWMsg.read flags data offset =
      .ok ({ typ := 0, flags, rlen := res.length, data := some (res ++ [0]) }, t) := by
  refine respond_of_ok ?_
  rw [handle_read, h]
  rfl

/-- A listing that is the same is the same reply. -/
theorem respond_dirall_congr {t t' : Tree} {data : Bytes} (flags offset : Int)
    (h : dirall t data = dirall t' data) :
    (respond t OWMsg.dirall flags data offset).map Prod.fst =
      (respond t' OWMsg.dirall flags data offset).map Prod.fst := by
  rw [respond, respond, handle_dirall, handle_dirall, h]
  cases dirall t' data with
  | error e => cases e <;> rfl
  | ok data => rfl

/-- Data that is replied is processed. -/
theorem settle_data {m : Message} {b : Bytes} (hw : Protocol.write m.frame = .ok b)
    (hm : m.data.length ≤ maxLength) {data : Bytes} (hdata : (data ++ [0]).length ≤ maxLength) :
    settle m (.ok
      { typ := 0, flags := requestFlags, rlen := data.length, data := some (data ++ [0]) }) =
      (m.process data).map fun v => some (.ok v) := by
  have hzero : IsInt32 0 := by decide
  have hrlen : (data.length : Int) ≤ maxLength := by
    rw [List.length_append] at hdata
    omega
  obtain ⟨b', hw'⟩ := exists_write (plain_data 0 requestFlags data) hzero rfl hdata hrlen rfl
  have htake : (data ++ [0]).take (data.length : Int).toNat = data := by
    rw [Int.toNat_natCast, List.take_left' rfl]
  rw [settle_of_write hw hm hw' hdata]
  show (m.processReply 0 ((data ++ [0]).take _)).map Message.event = _
  rw [htake, Message.processReply]
  cases m.process data <;> rfl

/-! ## The empty value -/

/-- A message that ends the server is never answered. -/
theorem settle_error (m : Message) (e : Exc) : ∃ e', settle m (.error e) = .error e' := by
  unfold settle
  cases Protocol.write m.frame with
  | error e' => exact ⟨e', rfl⟩
  | ok b => exact ⟨.stopAsyncIteration, ite_self _⟩

/-- **An empty value** is not written: the server fails its assertion. -/
theorem respond_of_empty (t : Tree) (path : List String) {value : SetValue}
    (hempty : value.encode = []) :
    ∃ e, respond t OWMsg.write requestFlags (attrSetMsg path value).data
      (attrSetMsg path value).rlen = .error e := by
  have hrlen : (attrSetMsg path value).rlen = 0 := by
    show ((value.encode.length : Nat) : Int) = 0
    rw [hempty]
    rfl
  have hhandle (data : Bytes) : handle t OWMsg.write requestFlags data 0 =
      (write t data 0).bind fun t => .ok ({ typ := 0, flags := requestFlags }, t) := rfl
  rw [hrlen, respond, hhandle]
  rcases write_zero t (attrSetMsg path value).data with h | h <;> rw [h] <;> exact ⟨_, rfl⟩

/-- **Nothing** cannot be written: the slice for the path would be empty. -/
theorem not_agree_of_empty {s : Session} (h : s.Idle) {path : List String} {value : SetValue}
    (hempty : value.encode = []) : ¬ Agree s path value := by
  intro hagree
  have hset := hagree.set default
  rw [Session.attrSet, chat_eq_settle h (plain_attrSetMsg path value)] at hset
  obtain ⟨e, he⟩ := respond_of_empty s.tree path hempty
  obtain ⟨e', he'⟩ := settle_error (attrSetMsg path value) e
  have hset' : settle (attrSetMsg path value) (.error e) = .ok (some (.ok (.bytes []))) := by
    rw [← hset]
    exact congrArg (settle (attrSetMsg path value))
      (congrArg (Except.map Prod.fst) he).symm
  rw [he'] at hset'
  exact nomatch hset'

/-! ## Any other value -/

section Set

variable {s : Session} {path : List String} {value : SetValue} {i : Nat} {k v : String} {n : Node}

/-- **`attr_set`** is answered; the session goes on with the new leaf. -/
theorem attrSet_of_leafAt (h : s.Idle) (hv : ValidPath path) (hleaf : s.tree.LeafAt path i k n)
    (henc : Utf8.encode v = value.encode) (hne : value.encode ≠ [])
    (hlen : (attrSetMsg path value).data.length ≤ maxLength) (l : Link) :
    (s.attrSet l path value).1 = .ok (some (.ok (.bytes []))) ∧
      (s.attrSet l path value).2.Idle ∧
      (s.attrSet l path value).2.tree = s.tree.put i k (.text v) := by
  have hplain := plain_attrSetMsg path value
  have hr : respond s.tree (attrSetMsg path value).typ requestFlags
      (attrSetMsg path value).data (attrSetMsg path value).rlen =
      .ok ({ typ := 0, flags := requestFlags }, s.tree.put i k (.text v)) := by
    refine respond_write_of_ok _ ?_
    show write s.tree (encodePath path ++ value.encode) value.encode.length = _
    rw [← henc] at hne ⊢
    exact write_of_leafAt hv hleaf hne
  have hrlen : ((attrSetMsg path value).frame).rlen ≤ maxLength := by
    have hsum : (attrSetMsg path value).data.length =
        (encodePath path).length + value.encode.length := List.length_append
    show ((value.encode.length : Nat) : Int) ≤ maxLength
    omega
  have htyp : IsInt32 OWMsg.write := by decide
  obtain ⟨b, hw⟩ := exists_write hplain htyp rfl hlen hrlen rfl
  obtain ⟨b', hw'⟩ := exists_write (plain_nil 0 requestFlags) (by decide) rfl (by decide)
    (by decide) rfl
  have hidle := idle_chat h hplain hw hlen hr hw' (by decide) l
  refine ⟨?_, hidle.1, hidle.2⟩
  rw [Session.attrSet, chat_eq_settle h hplain, hr]
  exact settle_of_write hw hlen hw' (Nat.zero_le _)

end Set

/-- A leaf can be asked for. -/
theorem exists_attrGetMsg {t : Tree} {path : List String} (h : t.IsLeaf path) :
    attrGetMsg path =
      .ok { typ := OWMsg.read, data := encodePath path, rlen := 8192 } := by
  obtain ⟨i, k, n, hleaf⟩ := h
  refine if_neg ?_
  rintro rfl
  exact nomatch hleaf.slot_eq

/-- **`attr_get`** returns what the server reads. -/
theorem attrGet_of_read {s : Session} (h : s.Idle) {path : List String} {res : Bytes}
    (hleaf : s.tree.IsLeaf path) (hread : read s.tree (encodePath path) = .ok res)
    (hlen : (encodePath path).length + res.length ≤ maxLength) (l : Link) :
    (s.attrGet l path).1 = .ok (some (.ok (.bytes res))) := by
  have hmsg := exists_attrGetMsg hleaf
  have hplain := plain_attrGetMsg hmsg
  have hdata : (encodePath path).length ≤ maxLength := by omega
  have hpath := two_le_length_encodePath path
  have hreply : (res ++ [0]).length ≤ maxLength := by
    rw [List.length_append, List.length_singleton]
    omega
  have htyp : IsInt32 OWMsg.read := by decide
  have hmax : (8192 : Int) ≤ maxLength := by decide
  obtain ⟨b, hw⟩ := exists_write hplain htyp rfl hdata hmax rfl
  rw [Session.attrGet, hmsg]
  show (s.chat l _).1 = _
  rw [chat_eq_settle h hplain, respond_read_of_ok requestFlags 8192 hread]
  exact settle_data hw hdata hreply

/-- A leaf that is read as before has the same outcome. -/
theorem attrGet_congr {s s' : Session} (h : s.Idle) (h' : s'.Idle) {path : List String}
    {res : Bytes} (hleaf : s.tree.IsLeaf path) (hread : read s.tree (encodePath path) = .ok res)
    (hread' : read s'.tree (encodePath path) = .ok res) (l l' : Link) :
    (s.attrGet l path).1 = (s'.attrGet l' path).1 := by
  have hmsg := exists_attrGetMsg hleaf
  have hplain := plain_attrGetMsg hmsg
  rw [Session.attrGet, Session.attrGet, hmsg]
  show (s.chat l _).1 = (s'.chat l' _).1
  rw [chat_eq_settle h hplain, chat_eq_settle h' hplain,
    respond_read_of_ok requestFlags 8192 hread, respond_read_of_ok requestFlags 8192 hread']
  rfl

/-- A directory that is listed as before has the same outcome. -/
theorem dir_congr {s s' : Session} (h : s.Idle) (h' : s'.Idle) {path : List String}
    (hdir : dirall s.tree (encodePath path) = dirall s'.tree (encodePath path)) (l l' : Link) :
    (s.dir l path).1 = (s'.dir l' path).1 := by
  have hplain := plain_dirMsg path
  rw [Session.dir, Session.dir, chat_eq_settle h hplain, chat_eq_settle h' hplain]
  exact congrArg (settle (dirMsg path)) (respond_dirall_congr requestFlags _ hdir)

/-! ## Agreement -/

/-- What is in a leaf can be sent. -/
theorem exists_render {n : Node} (hn : n.isLeaf = true) : ∃ res, n.render = .ok res := by
  cases n with
  | dict i => exact absurd hn Bool.false_ne_true
  | _ => exact ⟨_, rfl⟩

/-- **Anything else** is read as it has been written. -/
theorem agree_of_ne {s : Session} (h : s.Idle) {path : List String} (hv : ValidPath path)
    (hleaf : s.tree.IsLeaf path) {value : SetValue} (hu : value.IsUtf8)
    (hlen : (attrSetMsg path value).data.length ≤ maxLength) (hne : value.encode ≠ []) :
    Agree s path value := by
  obtain ⟨i, k, n, hleaf⟩ := hleaf
  obtain ⟨v, henc⟩ := SetValue.exists_encode hu
  have hset := attrSet_of_leafAt h hv hleaf henc hne hlen
  have hnew : (s.tree.put i k (.text v)).LeafAt path i k (.text v) :=
    Tree.LeafAt.put_self hleaf.get?_eq hleaf.isLeaf rfl hleaf.slot_eq
  constructor
  case set => exact fun l => (hset l).1
  case get =>
    intro l l'
    obtain ⟨-, hidle, htree⟩ := hset l
    have hread : read (s.attrSet l path value).2.tree (encodePath path) = .ok value.encode := by
      rw [htree, read_of_leafAt hv hnew, Node.render, henc]
    have hsum : (encodePath path).length + value.encode.length ≤ maxLength :=
      List.length_append ▸ hlen
    exact attrGet_of_read hidle (htree ▸ ⟨i, k, _, hnew⟩) hread hsum l'
  case others =>
    rintro l l' l'' other hv' ⟨j, k', n', hother⟩ hslot
    obtain ⟨-, hidle, htree⟩ := hset l
    have hjk : (j, k') ≠ (i, k) := by
      intro heq
      rw [hother.slot_eq, hleaf.slot_eq, heq] at hslot
      exact hslot rfl
    have hother' := Tree.LeafAt.put (m := .text v) hleaf.get?_eq hleaf.isLeaf rfl hother hjk
    obtain ⟨res, hres⟩ := exists_render hother.isLeaf
    have hread : read (s.attrSet l path value).2.tree (encodePath other) = .ok res := by
      rw [htree, read_of_leafAt hv' hother', hres]
    have hread' : read s.tree (encodePath other) = .ok res := by
      rw [read_of_leafAt hv' hother, hres]
    exact attrGet_congr hidle h (htree ▸ ⟨j, k', n', hother'⟩) hread hread' l' l''
  case dirs =>
    intro l l' l'' directory
    obtain ⟨-, hidle, htree⟩ := hset l
    refine dir_congr hidle h ?_ l' l''
    rw [htree, dirall_put hleaf.get?_eq hleaf.isLeaf rfl]

/-- **Agreement of client and server**: whatever the tree and the leaf, they agree on a
value that fits a message if and only if it is not empty. -/
theorem agree_iff {s : Session} (h : s.Idle) {path : List String} (hv : ValidPath path)
    (hleaf : s.tree.IsLeaf path) {value : SetValue} (hu : value.IsUtf8)
    (hlen : (attrSetMsg path value).data.length ≤ maxLength) :
    Agree s path value ↔ value.encode ≠ [] := by
  constructor
  · intro hagree hempty
    exact not_agree_of_empty h hempty hagree
  · intro hne
    exact agree_of_ne h hv hleaf hu hlen hne

/-- A bus with a sensor, as the tests serve it. -/
def basicTree : Tree where
  dicts
    | 0 => ⟨[("bus.0", .dict 1)], by decide⟩
    | 1 => ⟨[("10.345678.90", .dict 2)], by decide⟩
    | 2 => ⟨[("whatever", .text "hello"), ("temperature", .text "12.5"), ("plover", .number "7")],
        by decide⟩
    | _ => ∅

/-- The temperature is a leaf. -/
theorem isLeaf_basicTree : basicTree.IsLeaf ["bus.0", "10.345678.90", "temperature"] :=
  ⟨2, "temperature", .text "12.5", rfl, rfl, rfl⟩

/-- The temperature is set to 98.25. -/
theorem agree_iff_temperature :
    Agree (.start basicTree) ["bus.0", "10.345678.90", "temperature"] (.text "98.25") ↔
      (SetValue.text "98.25").encode ≠ [] :=
  agree_iff (Session.idle_start basicTree) (by decide) isLeaf_basicTree trivial (by decide)

/-- A text is cleared. -/
theorem not_agree_empty :
    (ValidPath ["bus.0", "10.345678.90", "whatever"] ∧
      basicTree.IsLeaf ["bus.0", "10.345678.90", "whatever"] ∧ (SetValue.text "").IsUtf8 ∧
      (attrSetMsg ["bus.0", "10.345678.90", "whatever"] (.text "")).data.length ≤ maxLength) ∧
    ¬ Agree (.start basicTree) ["bus.0", "10.345678.90", "whatever"] (.text "") :=
  ⟨⟨by decide, ⟨2, "whatever", .text "hello", rfl, rfl, rfl⟩, trivial, by decide⟩,
    not_agree_of_empty (Session.idle_start basicTree) (by decide)⟩

/-- In a tree without sharing every other path leads elsewhere. -/
theorem Agree.others_of_ne {s : Session} {path other : List String} {value : SetValue}
    (h : Agree s path value) (ht : s.tree.Unshared) (hleaf : s.tree.IsLeaf path)
    (hv : ValidPath other) (hother : s.tree.IsLeaf other) (hne : other ≠ path)
    (l l' l'' : Link) :
    ((s.attrSet l path value).2.attrGet l' other).1 = (s.attrGet l'' other).1 := by
  obtain ⟨i, k, n, hleaf⟩ := hleaf
  refine h.others l l' l'' other hv hother ?_
  intro heq
  exact hne (slot_inj ht (heq.trans hleaf.slot_eq) hleaf.slot_eq)

end Mock

end AsyncOwfs
