import AsyncOwfs.Mock.Agree
import AsyncOwfs.Mock.Paths

/-!
# AsyncOwfs.Mock.Errors

The replies of the server to whatever a client asks for.

A request should be answered by an error if and only if its path does not name what it
needs, a leaf or a directory, and the server should go on (`Answered`).  It does as long
as the loops meet nothing but what they expect (`Ask.Regular`): a `KeyError` is caught, a
`TypeError` is not, nor is what the empty path, a value that is no text or the listing of
a leaf comes to; and `write` assigns to whatever is there.
-/

namespace AsyncOwfs

open Protocol

namespace Mock

/-! ## Requests -/

inductive Ask
  | read (path : List String)
  | write (path : List String) (value : SetValue)
  | dirall (path : List String)

namespace Ask

def message : Ask → Except Exc Message
  | read path => attrGetMsg path
  | write path value => .ok (attrSetMsg path value)
  | dirall path => .ok (dirMsg path)

/-- What is to be written is not empty. -/
def HasValue : Ask → Prop
  | write _ value => value.encode ≠ []
  | _ => True

/-- The path names an entry of the kind that the request needs. -/
def Names (t : Tree) : Ask → Prop
  | read path | write path _ => ∃ n, t.at? (.dict t.root) (parts path) = some n ∧ n.isLeaf = true
  | dirall path => ∃ i, t.at? (.dict t.root) (parts path) = some (.dict i)

/-- The length of the reply, if there is one that is no error. -/
def replySize (t : Tree) : Ask → Nat
  | read path =>
    match t.at? (.dict t.root) (parts path) with
    | none => 0
    | some n => (n.render.toOption.getD []).length + 1
  | dirall path =>
    match t.at? (.dict t.root) (parts path) with
    | some (.dict i) => (listing ((parts path).map Utf8.encode) (t.dicts i).keys).length + 1
    | _ => 0
  | write .. => 0

end Ask

/-- A node that `write` replies about, whatever becomes of the key: a dictionary where it
is not another one's, or a text that it is no part of. -/
def Tree.Replies (t : Tree) (last : String) : Node → Prop
  | .dict i => ∀ j, (t.dicts i).get? last ≠ some (.dict j)
  | .text s => ¬ last.toList <:+: s.toList
  | _ => False

/-- What the server does not go wrong about. -/
def Ask.Regular (t : Tree) : Ask → Prop
  | read path => ¬ t.Blocked (.dict t.root) (parts path)
  | dirall path => ¬ t.Blocked (.dict t.root) (parts path) ∧
      ∀ n, t.at? (.dict t.root) (parts path) = some n → n.isLeaf = false
  | write path value => value.IsUtf8 ∧ ∃ last, (parts path).getLast? = some last ∧
      ¬ t.Blocked (.dict t.root) (parts path).dropLast ∧
      ∀ n, t.at? (.dict t.root) (parts path).dropLast = some n → t.Replies last n

/-- The reply: not that of a busy server; an error, which changes nothing, if and only if
the path does not name what it should. -/
structure Right (t : Tree) (a : Ask) (f : Frame) (t' : Tree) : Prop where
  notBusy : f.data ≠ none
  unchanged : f.typ < 0 → t' = t
  error_iff : f.typ < 0 ↔ ¬ a.Names t

/-- The frame of the reply, which is as long as it has to be. -/
structure Shaped (t : Tree) (a : Ask) (flags : Int) (f : Frame) : Prop where
  typ : IsInt32 f.typ
  flags_eq : f.flags = flags
  offset_eq : f.offset = 0
  data_eq : f.data = some f.payload
  rlen_nonneg : 0 ≤ f.rlen
  rlen_le : f.rlen ≤ f.payload.length
  size : ¬ a.Names t ∧ f.payload = [] ∨ a.Names t ∧ f.payload.length = a.replySize t

/-! ## Replies -/

section Replies

variable {t t' : Tree} {command flags offset : Int} {data : Bytes} {f : Frame}

/-- An `OWFSReplyError` of the server's is sent as its reply. -/
theorem respond_of_reply {err : Int}
    (h : handle t command flags data offset = .error (.owfsReply err)) :
    respond t command flags data offset = .ok ({ typ := -err, flags }, t) := by
  rw [respond, h]

/-- Any other exception ends the server. -/
theorem respond_of_error {e : Exc} (h : handle t command flags data offset = .error e)
    (he : ∀ err, e ≠ .owfsReply err) : respond t command flags data offset = .error e := by
  rw [respond, h]
  split
  · next err heq => exact absurd (Except.error.inj heq) (he err)
  · rfl

/-- An error is the right reply to what is not there. -/
theorem right_error {a : Ask} {err : Int} (herr : 0 < err) (h : ¬ a.Names t) :
    Right t a { typ := -err, flags } t where
  notBusy := Option.some_ne_none _
  unchanged _ := rfl
  error_iff := iff_of_true (by simpa using herr) h

/-- A reply that is no error. -/
theorem right_ok {a : Ask} {rlen : Int} (data : Bytes) (h : a.Names t) :
    Right t a { typ := 0, flags, rlen, data := some data } t' where
  notBusy := Option.some_ne_none _
  unchanged h := absurd h (Int.lt_irrefl 0)
  error_iff := iff_of_false (Int.lt_irrefl 0) (not_not.mpr h)

/-- Whether there is a reply that is right, which is `R`; if there is one at all, it has its
shape. -/
structure Verdict (t : Tree) (a : Ask) (command flags : Int) (data : Bytes) (offset : Int)
    (R : Prop) : Prop where
  right_iff : (∃ f t', respond t command flags data offset = .ok (f, t') ∧ Right t a f t') ↔ R
  shaped : ∀ f t', respond t command flags data offset = .ok (f, t') → Shaped t a flags f

variable {a : Ask} {R : Prop}

/-- The server ends. -/
theorem verdict_of_error {e : Exc} (h : handle t command flags data offset = .error e)
    (he : ∀ err, e ≠ .owfsReply err) (hR : ¬ R) : Verdict t a command flags data offset R := by
  have hr := respond_of_error h he
  constructor
  · refine iff_of_false ?_ hR
    rintro ⟨f, t', hok, -⟩
    rw [hr] at hok
    contradiction
  · intro f t' hok
    rw [hr] at hok
    contradiction

/-- A reply is judged by what it says. -/
theorem verdict_of_respond (hr : respond t command flags data offset = .ok (f, t'))
    (hshape : Shaped t a flags f) (hR : Right t a f t' ↔ R) :
    Verdict t a command flags data offset R := by
  constructor
  · rw [← hR, hr]
    simp
  · intro f' t'' hok
    rw [hr, Except.ok.injEq, Prod.mk.injEq] at hok
    exact hok.1 ▸ hshape

/-- An error is replied. -/
theorem verdict_of_reply {err : Int}
    (h : handle t command flags data offset = .error (.owfsReply err))
    (herr : 0 < err ∧ IsInt32 (-err)) (hnames : ¬ a.Names t) (hR : R) :
    Verdict t a command flags data offset R := by
  refine verdict_of_respond (respond_of_reply h) ?_ (iff_of_true (right_error herr.1 hnames) hR)
  exact ⟨herr.2, rfl, rfl, rfl, Int.le_refl 0, Int.le_refl 0, .inl ⟨hnames, rfl⟩⟩

/-- What has been asked for is replied. -/
theorem verdict_of_ok {payload : Bytes} {n : Nat}
    (h : handle t command flags data offset =
      .ok ({ typ := 0, flags, rlen := n, data := some payload }, t')) (hnames : a.Names t)
    (hn : n ≤ payload.length) (hsize : payload.length = a.replySize t) (hR : R) :
    Verdict t a command flags data offset R := by
  have hzero : IsInt32 0 := by decide
  refine verdict_of_respond (respond_of_ok h) ?_ (iff_of_true (right_ok _ hnames) hR)
  exact ⟨hzero, rfl, rfl, rfl, Int.natCast_nonneg n, Int.ofNat_le.mpr hn, .inr ⟨hnames, hsize⟩⟩

/-- What should have been an error is replied as something else. -/
theorem verdict_of_wrong (h : handle t command flags data offset = .ok ({ typ := 0, flags }, t'))
    (hnames : ¬ a.Names t) (hR : ¬ R) : Verdict t a command flags data offset R := by
  have hzero : IsInt32 0 := by decide
  refine verdict_of_respond (respond_of_ok h) ?_ (iff_of_false ?_ hR)
  · exact ⟨hzero, rfl, rfl, rfl, Int.le_refl 0, Int.le_refl 0, .inl ⟨hnames, rfl⟩⟩
  · intro hright
    exact absurd (hright.error_iff.mpr hnames) (Int.lt_irrefl 0)

theorem Verdict.congr {R' : Prop} (h : Verdict t a command flags data offset R) (hR : R ↔ R') :
    Verdict t a command flags data offset R' :=
  ⟨h.right_iff.trans hR, h.shaped⟩

end Replies

section Kinds

variable {t : Tree} {path : List String} (flags offset : Int)

/-- **`read`** -/
theorem verdict_read :
    Verdict t (.read path) OWMsg.read flags (encodePath path) offset
      ((Ask.read path).Regular t) := by
  have hread : read t (encodePath path) =
      (descend t (.dict t.root) ((parts path).map Utf8.encode)).bind Node.render := by
    rw [← components_of_path]
    rfl
  have hhandle := handle_read t flags (encodePath path) offset
  rw [hread] at hhandle
  by_cases hb : t.Blocked (.dict t.root) (parts path)
  · rw [descend_of_blocked hb] at hhandle
    exact verdict_of_error hhandle (by simp) (not_not.mpr hb)
  · cases hat : t.at? (.dict t.root) (parts path) with
    | none =>
        rw [descend_of_missing hat hb] at hhandle
        refine verdict_of_reply hhandle (by decide) ?_ hb
        simp [Ask.Names, hat]
    | some n =>
        rw [descend_of_at? hat] at hhandle
        cases hn : n.isLeaf with
        | false =>
            cases n with
            | dict i =>
                refine verdict_of_reply hhandle (by decide) ?_ hb
                simp [Ask.Names, hat, Node.isLeaf]
            | _ => simp [Node.isLeaf] at hn
        | true =>
            obtain ⟨res, hres⟩ := exists_render hn
            rw [Except.bind, hres] at hhandle
            refine verdict_of_ok hhandle ⟨n, hat, hn⟩ (by simp) ?_ hb
            simp [Ask.replySize, hat, hres, Except.toOption]

/-- **`dirall`** -/
theorem verdict_dirall :
    Verdict t (.dirall path) OWMsg.dirall flags (encodePath path) offset
      ((Ask.dirall path).Regular t) := by
  have hdirall : dirall t (encodePath path) =
      (descend t (.dict t.root) ((parts path).map Utf8.encode)).bind fun n =>
        (t.keys n).bind fun keys => .ok (listing ((parts path).map Utf8.encode) keys) := by
    rw [← components_of_path]
    rfl
  have hhandle := handle_dirall t flags (encodePath path) offset
  rw [hdirall] at hhandle
  by_cases hb : t.Blocked (.dict t.root) (parts path)
  · rw [descend_of_blocked hb] at hhandle
    exact verdict_of_error hhandle (by simp) fun h => h.1 hb
  · cases hat : t.at? (.dict t.root) (parts path) with
    | none =>
        rw [descend_of_missing hat hb] at hhandle
        refine verdict_of_reply hhandle (by decide) ?_ ⟨hb, by simp [hat]⟩
        simp [Ask.Names, hat]
    | some n =>
        rw [descend_of_at? hat] at hhandle
        cases n with
        | dict i =>
            refine verdict_of_ok hhandle ⟨i, hat⟩ (by simp) ?_ ⟨hb, ?_⟩
            · simp [Ask.replySize, hat]
            · simp [hat, Node.isLeaf]
        | _ =>
            refine verdict_of_error hhandle (by simp) fun h => ?_
            have hleaf := h.2 _ hat
            simp [Node.isLeaf] at hleaf

/-- A value that is no text. -/
theorem handle_write_of_decode {value : Bytes} (hne : value ≠ []) {e : Exc}
    (hv : decode value = .error e) :
    handle t OWMsg.write flags (encodePath path ++ value) value.length = .error e := by
  rw [handle_write, write, sliceFrom_append _ hne, hv]
  rfl

/-- A path without components. -/
theorem handle_write_of_nil {value : Bytes} (hne : value ≠ []) {v : String}
    (hv : decode value = .ok v) (hparts : parts path = []) :
    handle t OWMsg.write flags (encodePath path ++ value) value.length =
      .error .assertionError := by
  rw [handle_write, write, sliceFrom_append _ hne, sliceTo_append _ hne, hv, components_of_path,
    hparts]
  rfl

/-- The walk goes up to the last component. -/
theorem handle_write_of_concat {value : Bytes} (hne : value ≠ []) {v last : String}
    (hv : decode value = .ok v) (hlast : (parts path).getLast? = some last) :
    handle t OWMsg.write flags (encodePath path ++ value) value.length =
      (descend t (.dict t.root) ((parts path).dropLast.map Utf8.encode)).bind fun res =>
        (t.contains res last).bind fun found =>
          (if found then t.assign res last v else .error noEntryError).bind fun t =>
            .ok ({ typ := 0, flags }, t) := by
  rw [handle_write, write, sliceFrom_append _ hne, sliceTo_append _ hne, hv, components_of_path]
  cases hparts : parts path with
  | nil => simp [hparts] at hlast
  | cons k ks =>
      have hloop : descendLast t (.dict t.root) none ((k :: ks).map Utf8.encode) =
          descendLast t (.dict t.root) (some k) (ks.map Utf8.encode) := by
        rw [List.map_cons, descendLast, decode_encode]
        rfl
      rw [hparts] at hlast
      show ((descendLast t (.dict t.root) none ((k :: ks).map Utf8.encode)).bind _).bind _ = _
      rw [hloop, descendLast_eq, hlast]
      cases descend t (.dict t.root) ((k :: ks).dropLast.map Utf8.encode) with
      | error e => rfl
      | ok res =>
          show ((t.contains res last).bind _).bind _ = (t.contains res last).bind _
          cases t.contains res last with
          | error e => rfl
          | ok found => cases found <;> rfl

/-- Bytes are those of a text, or cannot be decoded. -/
theorem decode_cases (b : Bytes) :
    (∃ v, Utf8.encode v = b ∧ decode b = .ok v) ∨
      (decode b = .error .unicodeDecodeError ∧ ∀ v, Utf8.encode v ≠ b) := by
  rw [decode]
  cases hb : Utf8.decode? b with
  | some v => exact .inl ⟨v, Utf8.encode_of_decode? hb, rfl⟩
  | none =>
      refine .inr ⟨rfl, fun v hv => ?_⟩
      rw [← hv, Utf8.decode?_encode] at hb
      contradiction

/-- What `write` comes to at the end of the path. -/
theorem verdict_of_last {value : SetValue} {v last : String} {data : Bytes} {n : Node}
    (hhandle : handle t OWMsg.write flags data offset =
      (t.contains n last).bind fun found =>
        (if found then t.assign n last v else .error noEntryError).bind fun t =>
          .ok ({ typ := 0, flags }, t))
    (hnames : (Ask.write path value).Names t ↔ ∃ m, t.at? n [last] = some m ∧ m.isLeaf = true) :
    Verdict t (.write path value) OWMsg.write flags data offset (t.Replies last n) := by
  cases n with
  | dict i =>
      have hat : t.at? (.dict i) [last] = (t.dicts i).get? last := by
        rw [Tree.at?]
        cases (t.dicts i).get? last with
        | none => rfl
        | some m => cases m <;> rfl
      rw [Tree.contains] at hhandle
      rw [hat] at hnames
      cases hget : (t.dicts i).get? last with
      | none =>
          rw [hget] at hhandle hnames
          refine verdict_of_reply hhandle (by decide) ?_ ?_
          · simp [hnames]
          · simp [Tree.Replies, hget]
      | some m =>
          rw [hget] at hhandle hnames
          cases m with
          | dict j =>
              refine verdict_of_wrong hhandle ?_ ?_
              · simp [hnames, Node.isLeaf]
              · simp [Tree.Replies, hget]
          | _ =>
              refine verdict_of_ok (n := 0) hhandle ?_ (Nat.zero_le _) rfl ?_
              · simp [hnames, Node.isLeaf]
              · simp [Tree.Replies, hget]
  | text s =>
      by_cases hin : last.toList <:+: s.toList
      · have hends : handle t OWMsg.write flags data offset = .error .typeError := by
          rw [hhandle, Tree.contains, decide_eq_true hin]
          rfl
        exact verdict_of_error hends (by simp) (not_not.mpr hin)
      · have hreply : handle t OWMsg.write flags data offset = .error (.owfsReply 2) := by
          rw [hhandle, Tree.contains, decide_eq_false hin]
          rfl
        refine verdict_of_reply hreply (by decide) ?_ hin
        simp [hnames, Tree.at?]
  | _ => exact verdict_of_error hhandle (by simp) not_false

/-- **`write`** -/
theorem verdict_write {value : SetValue} (hne : value.encode ≠ []) :
    Verdict t (.write path value) OWMsg.write flags (encodePath path ++ value.encode)
      value.encode.length ((Ask.write path value).Regular t) := by
  rcases decode_cases value.encode with ⟨v, henc, hv⟩ | ⟨hv, hnone⟩
  · have hutf8 : value.IsUtf8 := by
      cases value with
      | bytes b => exact ⟨v, henc⟩
      | _ => trivial
    cases hlast : (parts path).getLast? with
    | none =>
        have hnil := List.getLast?_eq_none_iff.mp hlast
        refine verdict_of_error (handle_write_of_nil flags hne hv hnil) (by simp) ?_
        simp [Ask.Regular, hlast]
    | some last =>
        have hhandle := handle_write_of_concat (t := t) flags hne hv hlast
        have hconcat := List.dropLast_append_getLast? last hlast
        have hregular : ¬ t.Blocked (.dict t.root) (parts path).dropLast ∧
              (∀ n, t.at? (.dict t.root) (parts path).dropLast = some n → t.Replies last n) ↔
            (Ask.write path value).Regular t := by
          simp [Ask.Regular, hutf8, hlast]
        refine Verdict.congr ?_ hregular
        by_cases hb : t.Blocked (.dict t.root) (parts path).dropLast
        · rw [descend_of_blocked hb] at hhandle
          exact verdict_of_error hhandle (by simp) fun h => h.1 hb
        · cases hat : t.at? (.dict t.root) (parts path).dropLast with
          | none =>
              rw [descend_of_missing hat hb] at hhandle
              refine verdict_of_reply hhandle (by decide) ?_ ⟨hb, by simp⟩
              rw [Ask.Names, ← hconcat, at?_append, hat]
              simp
          | some n =>
              rw [descend_of_at? hat] at hhandle
              refine Verdict.congr (verdict_of_last flags _ hhandle ?_) (by simp [hb])
              rw [Ask.Names, ← hconcat, at?_append, hat]
              rfl
  · refine verdict_of_error (handle_write_of_decode flags hne hv) (by simp) ?_
    intro hregular
    obtain ⟨v, henc⟩ := SetValue.exists_encode hregular.1
    exact hnone v henc

end Kinds

/-! ## Messages -/

section Messages

variable {t t' : Tree} {a : Ask} {m : Message} {f : Frame}

/-- **Every message** gets the right reply if what it asks for is regular. -/
theorem verdict_message (hm : a.message = .ok m) (hvalue : a.HasValue) :
    Verdict t a m.typ requestFlags m.data m.rlen (a.Regular t) := by
  cases a with
  | read path =>
      rw [Ask.message, attrGetMsg] at hm
      split at hm
      · contradiction
      · injection hm with hm
        subst hm
        exact verdict_read requestFlags 8192
  | write path value =>
      injection hm with hm
      subst hm
      exact verdict_write requestFlags hvalue
  | dirall path =>
      injection hm with hm
      subst hm
      exact verdict_dirall requestFlags _

/-- A request that fits can be sent. -/
theorem exists_write_of_message (hm : a.message = .ok m) (hlen : m.data.length ≤ maxLength) :
    ∃ b, Protocol.write m.frame = .ok b := by
  cases a with
  | read path =>
      have hplain := plain_attrGetMsg hm
      rw [Ask.message, attrGetMsg] at hm
      split at hm
      · contradiction
      · injection hm with hm
        subst hm
        have htyp : IsInt32 OWMsg.read := by decide
        have hmax : (8192 : Int) ≤ maxLength := by decide
        exact exists_write hplain htyp rfl hlen hmax rfl
  | write path value =>
      injection hm with hm
      subst hm
      have htyp : IsInt32 OWMsg.write := by decide
      have hrlen : (value.encode.length : Int) ≤ maxLength := by
        simp only [attrSetMsg, List.length_append] at hlen
        omega
      exact exists_write (plain_attrSetMsg path value) htyp rfl hlen hrlen rfl
  | dirall path =>
      injection hm with hm
      subst hm
      have htyp : IsInt32 OWMsg.dirall := by decide
      have hrlen : ((encodePath path).length : Int) - 1 ≤ maxLength := by
        simp only [dirMsg] at hlen
        omega
      exact exists_write (plain_dirMsg path) htyp rfl hlen hrlen rfl

/-- What is asked for is a plain frame. -/
theorem plain_message (hm : a.message = .ok m) : Plain m.frame := by
  cases a with
  | read path => exact plain_attrGetMsg hm
  | write path value =>
      injection hm with hm
      exact hm ▸ plain_attrSetMsg path value
  | dirall path =>
      injection hm with hm
      exact hm ▸ plain_dirMsg path

/-- A reply can be sent if its length can. -/
theorem Shaped.exists_write_iff (h : Shaped t a requestFlags f) :
    (∃ b, Protocol.write f = .ok b) ↔ (a.Names t → a.replySize t < 0x80000000) := by
  have hzero : IsInt32 0 := by decide
  have hflags : IsInt32 f.flags := by
    rw [h.flags_eq]
    decide
  have hnonneg := h.rlen_nonneg
  have hle := h.rlen_le
  have hin : Header.InRange ⟨0, f.payload.length, f.typ, f.flags, f.rlen, f.offset⟩ ↔
      f.payload.length < 0x80000000 := by
    simp only [Header.InRange, h.offset_eq, hzero, h.typ, hflags, true_and, and_true, isInt32_iff]
    omega
  have hsize : f.payload.length < 0x80000000 ↔ (a.Names t → a.replySize t < 0x80000000) := by
    rcases h.size with ⟨hnames, hpayload⟩ | ⟨hnames, hpayload⟩
    · simp [hnames, hpayload]
    · simp [hnames, hpayload]
  rw [← hsize, ← hin, Protocol.write, h.data_eq]
  by_cases h : Header.InRange ⟨0, f.payload.length, f.typ, f.flags, f.rlen, f.offset⟩
  · simp [Header.pack, h]
  · simp [Header.pack, h]

end Messages

/-! ## Sessions -/

/-- The message is read, one frame is sent, over any connection, and the server waits for
the next message. -/
def Serves (s : Session) (m : Message) (f : Frame) (t : Tree) : Prop :=
  ∃ b b', Protocol.write m.frame = .ok b ∧ Protocol.write f = .ok b' ∧
    ∀ l : Link, ∃ server : Protocol, server.pending = [] ∧
      ({ s with server := l.up.deliver b s.server } : Session).serve l.down =
        { tree := t, server, ended := none, client := l.down.deliver b' s.client }

/-- The server answers with one reply, the right one, and goes on. -/
def Answered (s : Session) (a : Ask) (m : Message) : Prop :=
  ∃ f t, respond s.tree m.typ requestFlags m.data m.rlen = .ok (f, t) ∧ Right s.tree a f t ∧
    Serves s m f t

/-- A request is served if it can be sent and its reply as well. -/
theorem serves_iff {s : Session} (h : s.Idle) {m : Message} (hm : Plain m.frame)
    (hsend : m.data.length ≤ maxLength → ∃ b, Protocol.write m.frame = .ok b) {f : Frame} {t : Tree}
    (hr : respond s.tree m.typ requestFlags m.data m.rlen = .ok (f, t)) :
    Serves s m f t ↔ m.data.length ≤ maxLength ∧ ∃ b', Protocol.write f = .ok b' := by
  constructor
  · rintro ⟨b, b', hw, hw', hserve⟩
    refine ⟨?_, b', hw'⟩
    let l : Link := default
    obtain ⟨server, -, hserve⟩ := hserve l
    rcases serve_of_write (s := { s with server := l.up.deliver b s.server }) hm hw
      (pending_deliver h.server) h.isServer l.down with ⟨-, p, e, hends⟩ | ⟨hle, -⟩
    · rw [hends] at hserve
      have hended := congrArg Session.ended hserve
      contradiction
    · exact hle
  · rintro ⟨hlen, b', hw'⟩
    obtain ⟨b, hw⟩ := hsend hlen
    refine ⟨b, b', hw, hw', fun l => ?_⟩
    rcases serve_of_write (s := { s with server := l.up.deliver b s.server }) hm hw
      (pending_deliver h.server) h.isServer l.down with ⟨hlong, -⟩ | ⟨-, p, hrest, -, hserve⟩
    · exact absurd hlen (Nat.not_le.mpr hlong)
    · refine ⟨p, hrest, ?_⟩
      rw [hserve, hr, Session.reply, hw', ← h.ended]

/-- **The replies of the server**: they are right, and it goes on, if and only if the
request is regular, and neither it nor the reply is too long. -/
theorem answered_iff {s : Session} (h : s.Idle) {a : Ask} (hvalue : a.HasValue) {m : Message}
    (hm : a.message = .ok m) :
    Answered s a m ↔ a.Regular s.tree ∧ m.data.length ≤ maxLength ∧
      (a.Names s.tree → a.replySize s.tree < 0x80000000) := by
  have hverdict := verdict_message (t := s.tree) hm hvalue
  have hserves {f : Frame} {t : Tree}
      (hr : respond s.tree m.typ requestFlags m.data m.rlen = .ok (f, t)) :
      Serves s m f t ↔ m.data.length ≤ maxLength ∧
        (a.Names s.tree → a.replySize s.tree < 0x80000000) := by
    rw [← (hverdict.shaped f t hr).exists_write_iff]
    exact serves_iff h (plain_message hm) (exists_write_of_message hm) hr
  constructor
  · rintro ⟨f, t, hr, hright, hserved⟩
    exact ⟨hverdict.right_iff.mp ⟨f, t, hr, hright⟩, (hserves hr).mp hserved⟩
  · rintro ⟨hregular, hfits⟩
    obtain ⟨f, t, hr, hright⟩ := hverdict.right_iff.mpr hregular
    exact ⟨f, t, hr, hright, (hserves hr).mpr hfits⟩

/-- The temperature of a sensor. -/
theorem answered_iff_temperature :
    Answered (.start basicTree) (.read ["bus.0", "10.345678.90", "temperature"])
        { typ := OWMsg.read, data := encodePath ["bus.0", "10.345678.90", "temperature"],
          rlen := 8192 } ↔
      (Ask.read ["bus.0", "10.345678.90", "temperature"]).Regular basicTree ∧
        (encodePath ["bus.0", "10.345678.90", "temperature"]).length ≤ maxLength ∧
        ((Ask.read ["bus.0", "10.345678.90", "temperature"]).Names basicTree →
          (Ask.read ["bus.0", "10.345678.90", "temperature"]).replySize basicTree < 0x80000000) :=
  answered_iff (Session.idle_start basicTree) (by trivial) rfl

/-- What is not regular is not answered. -/
theorem not_answered_of_irregular {s : Session} {a : Ask} (hvalue : a.HasValue) {m : Message}
    (hm : a.message = .ok m) (hirregular : ¬ a.Regular s.tree) : ¬ Answered s a m := by
  rintro ⟨f, t, hr, hright, -⟩
  exact hirregular ((verdict_message hm hvalue).right_iff.mp ⟨f, t, hr, hright⟩)

/-- A path through a leaf, the listing of a leaf, and a write to a directory. -/
theorem not_answered_leaf :
    ¬ Answered (.start basicTree) (.read ["bus.0", "10.345678.90", "temperature", "x"])
        { typ := OWMsg.read, data := encodePath ["bus.0", "10.345678.90", "temperature", "x"],
          rlen := 8192 } ∧
      ¬ Answered (.start basicTree) (.dirall ["bus.0", "10.345678.90", "temperature"])
        (dirMsg ["bus.0", "10.345678.90", "temperature"]) ∧
      ¬ Answered (.start basicTree) (.write ["bus.0"] (.text "1"))
        (attrSetMsg ["bus.0"] (.text "1")) := by
  refine ⟨?_, ?_, ?_⟩
  · refine not_answered_of_irregular (by trivial) rfl fun hregular => hregular ?_
    rw [parts_of_valid (by decide)]
    exact ⟨.dict 1, rfl, .dict 2, rfl, .text "12.5", rfl, trivial⟩
  · refine not_answered_of_irregular (by trivial) rfl fun hregular => ?_
    have hleaf := hregular.2 (.text "12.5")
    rw [parts_of_valid (by decide)] at hleaf
    exact absurd (hleaf rfl) (by decide)
  · have hvalue : (Ask.write ["bus.0"] (.text "1")).HasValue := by
      show (SetValue.text "1").encode ≠ []
      decide
    refine not_answered_of_irregular hvalue rfl fun hregular => ?_
    obtain ⟨-, last, hlast, -, hreplies⟩ := hregular
    rw [parts_of_valid (by decide)] at hlast hreplies
    rw [← Option.some.inj hlast] at hreplies
    exact hreplies (.dict 0) rfl 1 rfl

end Mock

end AsyncOwfs
