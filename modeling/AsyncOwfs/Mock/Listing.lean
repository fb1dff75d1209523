import AsyncOwfs.Mock.Errors
import Mathlib.Data.String.Basic

/-!
# AsyncOwfs.Mock.Listing

Directory listings round trip: a client that asks for a directory of the server's gets
the names that are in it, sorted, each once (`Lists`).

The reply has the whole path in front of each name and a comma between them, the client
splits at the commas and keeps what is behind the last slash.  Names that have neither
survive this.  A reply that fits does not say that its request fits, too, if it is empty.
-/

namespace AsyncOwfs

open Protocol

namespace Mock

/-- Names that survive a listing: not empty, without slash, NUL and comma. -/
def ValidNames (ks : List String) : Prop := ValidPath ks ∧ ∀ k ∈ ks, ',' ∉ k.toList

instance (ks : List String) : Decidable (ValidNames ks) := inferInstanceAs (Decidable (_ ∧ _))

/-- A path is valid if its parts are. -/
theorem validNames_append {p q : List String} :
    ValidNames (p ++ q) ↔ ValidNames p ∧ ValidNames q := by
  simp only [ValidNames, ValidPath, List.mem_append, or_imp, forall_and]
  tauto

/-- The client gets the sorted names of a dictionary, over any connection. -/
def Lists (s : Session) (path : List String) (i : Nat) : Prop :=
  ∃ names : List String, (∀ l, (s.dir l path).1 = .ok (some (.ok (.names names)))) ∧
    names.Perm (s.tree.dicts i).keys ∧ names.Pairwise (· < ·)

/-! ## Entries -/

/-- What the server puts in front of the names. -/
def directory (path : List String) : String :=
  if path = [] then "/" else "/" ++ "/".intercalate path ++ "/"

/-- The directory in front of the names, as it is sent. -/
theorem encode_directory (path : List String) :
    Utf8.encode (directory path) =
      if path.map Utf8.encode = [] then [0x2F]
      else [0x2F] ++ [0x2F].intercalate (path.map Utf8.encode) ++ [0x2F] := by
  have hslash : Utf8.encode "/" = [0x2F] := by decide
  rw [directory]
  split
  · next hpath => simp [hpath, hslash]
  · next hpath => simp [hpath, hslash, Utf8.encode_append, Utf8.encode_intercalate]

/-- **The listing** has the full path of each name, with commas in between. -/
theorem listing_eq (path keys : List String) :
    listing (path.map Utf8.encode) keys = [0x2C].intercalate
      ((keys.insertionSort (· ≤ ·)).map fun k => Utf8.encode (directory path ++ k)) := by
  rw [listing, ← encode_directory]
  simp [Utf8.encode_append, Function.comp_def]

/-- A directory ends in a slash. -/
theorem exists_directory_eq (path : List String) : ∃ d, directory path = d ++ "/" := by
  rw [directory]
  split
  · exact ⟨"", rfl⟩
  · exact ⟨_, rfl⟩

/-- What is behind the last slash. -/
theorem baseName_append (d : String) {k : String} (h : '/' ∉ k.toList) :
    Message.baseName (d ++ "/" ++ k) = k := by
  have hall : ∀ c ∈ k.toList.reverse, decide (c ≠ '/') = true := by
    intro c hc
    rw [List.mem_reverse] at hc
    rw [decide_eq_true_eq]
    rintro rfl
    exact h hc
  rw [Message.baseName, String.toList_append, String.toList_append, List.reverse_append,
    List.takeWhile_append_of_pos hall]
  simp

/-- Bytes that neither the path nor the name has in it. -/
theorem notMem_entry {b : UInt8} (hb : b.toNat < 128) (hslash : b ≠ 0x2F) {path : List String}
    (hpath : ∀ l ∈ path, Char.ofNat b.toNat ∉ l.toList) {k : String}
    (hk : Char.ofNat b.toNat ∉ k.toList) : b ∉ Utf8.encode (directory path ++ k) := by
  have hjoin : b ∉ [0x2F].intercalate (path.map Utf8.encode) := by
    intro h
    rcases Utf8.mem_intercalate h with h | ⟨e, he, h⟩
    · exact hslash h
    · obtain ⟨l, hl, rfl⟩ := List.mem_map.mp he
      exact hpath l hl ((Utf8.mem_encode_iff hb).mp h)
  rw [Utf8.encode_append, List.mem_append, Utf8.mem_encode_iff hb (s := k), encode_directory]
  split <;> simp [hslash, hk, hjoin]

/-- **An entry** is read as the name behind the last slash. -/
theorem processEntry_directory {path : List String} (hpath : ValidPath path) {k : String}
    (hslash : '/' ∉ k.toList) (hnul : Char.ofNat 0 ∉ k.toList) :
    Message.processEntry (Utf8.encode (directory path ++ k)) = .ok k := by
  have hzero : 0 ∉ Utf8.encode (directory path ++ k) :=
    notMem_entry (b := 0) (by decide) (by decide) (fun l hl => (hpath l hl).2.2) hnul
  have hdecode : String.fromUTF8? (Utf8.encode (directory path ++ k)).toByteArray =
      some (directory path ++ k) := Utf8.decode?_encode _
  obtain ⟨d, hd⟩ := exists_directory_eq path
  rw [Message.processEntry, if_neg hzero, hdecode, hd]
  exact congrArg Except.ok (baseName_append d hslash)

/-- A part is no longer than the whole. -/
theorem length_le_intercalate {α : Type} {c : α} {e : List α} {es : List (List α)} (h : e ∈ es) :
    e.length ≤ ([c].intercalate es).length := by
  induction es with
  | nil => simp at h
  | cons e' es ih =>
      cases es with
      | nil => simp_all
      | cons e'' es =>
          rw [List.intercalate_cons_cons, List.length_append, List.length_append]
          rcases List.mem_cons.mp h with rfl | h
          · omega
          · have hle := ih h
            omega

/-- A name makes the listing longer than the path. -/
theorem length_directory_lt {path keys : List String} {k : String} (hk : k ∈ keys)
    (hne : k ≠ "") :
    (Utf8.encode (directory path)).length < (listing (path.map Utf8.encode) keys).length := by
  have hentry : Utf8.encode (directory path ++ k) ∈
      (keys.insertionSort (· ≤ ·)).map fun k => Utf8.encode (directory path ++ k) :=
    List.mem_map.mpr ⟨k, by simpa using hk, rfl⟩
  have hle := length_le_intercalate (c := 0x2C) hentry
  have hpos : 0 < (Utf8.encode k).length := by
    rw [List.length_pos_iff, ne_eq, Utf8.encode_eq_nil_iff]
    exact hne
  rw [listing_eq]
  rw [Utf8.encode_append, List.length_append] at hle
  omega

/-- A request for a directory is no longer than its entries. -/
theorem length_encodePath_le (path : List String) :
    (encodePath path).length ≤ (Utf8.encode (directory path)).length + 1 := by
  rw [encodePath_eq, encode_directory]
  split
  · next h => simp [h]
  · simp

/-- **The listing** is processed as the sorted names. -/
theorem process_listing {path keys : List String} (hpath : ValidNames path)
    (hkeys : ValidNames keys) :
    (dirMsg path).process (listing (path.map Utf8.encode) keys) =
      .ok (.names (keys.insertionSort (· ≤ ·))) := by
  by_cases hnil : keys = []
  · subst hnil
    rw [listing_eq]
    rfl
  · have hsorted : keys.insertionSort (· ≤ ·) ≠ [] := by
      rw [ne_eq, ← List.length_eq_zero_iff, List.length_insertionSort]
      simpa using hnil
    have hvalid : ∀ k ∈ keys.insertionSort (· ≤ ·), k ∈ keys := by simp
    have hsplit : ((listing (path.map Utf8.encode) keys).splitOn 0x2C).mapM
        Message.processEntry = .ok (keys.insertionSort (· ≤ ·)) := by
      rw [listing_eq]
      apply Separated.split_join hsorted
      · intro k hk
        exact notMem_entry (by decide) (by decide) hpath.2 (hkeys.2 k (hvalid k hk))
      · intro k hk
        have hk := hkeys.1 k (hvalid k hk)
        exact processEntry_directory hpath.1 hk.2.1 hk.2.2
    have hne : listing (path.map Utf8.encode) keys ≠ [] := by
      obtain ⟨k, hk⟩ := List.exists_mem_of_ne_nil keys hnil
      exact List.ne_nil_of_length_pos
        (Nat.zero_lt_of_lt (length_directory_lt hk (hkeys.1 k hk).1))
    show (if _ then _ else _) = _
    rw [if_neg hne, hsplit]
    rfl

/-! ## Requests -/

/-- A request that is too long has no answer. -/
theorem settle_of_long {m : Message} (h : maxLength < m.data.length) (r : Except Exc Frame) :
    ∃ e, settle m r = .error e := by
  unfold settle
  cases Protocol.write m.frame with
  | error e => exact ⟨e, rfl⟩
  | ok b => exact ⟨.stopAsyncIteration, if_pos h⟩

section Directories

variable {s : Session} {path : List String} {i : Nat}

/-- A directory that is there is listed. -/
theorem respond_dirMsg {t : Tree} (hpath : ValidPath path)
    (hat : t.at? (.dict t.root) path = some (.dict i)) :
    respond t (dirMsg path).typ requestFlags (dirMsg path).data (dirMsg path).rlen =
      .ok (
        { typ := 0
          flags := requestFlags
          rlen := (listing (path.map Utf8.encode) (t.dicts i).keys).length
          data := some (listing (path.map Utf8.encode) (t.dicts i).keys ++ [0]) }, t) := by
  have hdirall : dirall t (encodePath path) =
      .ok (listing (path.map Utf8.encode) (t.dicts i).keys) := by
    rw [dirall, components_of_path, parts_of_valid hpath, descend_of_at? hat]
    rfl
  refine respond_of_ok ?_
  show handle t OWMsg.dirall requestFlags (encodePath path) _ = _
  rw [handle_dirall, hdirall]
  rfl

/-- **`dir`** returns what is processed of the listing. -/
theorem dir_of_listing (h : s.Idle) (hpath : ValidPath path)
    (hat : s.tree.at? (.dict s.tree.root) path = some (.dict i))
    (hlen : (encodePath path).length ≤ maxLength)
    (hfits : (listing (path.map Utf8.encode) (s.tree.dicts i).keys ++ [0]).length ≤ maxLength)
    (l : Link) :
    (s.dir l path).1 = ((dirMsg path).process
      (listing (path.map Utf8.encode) (s.tree.dicts i).keys)).map fun v => some (.ok v) := by
  obtain ⟨b, hw⟩ := exists_write_of_message (a := .dirall path) rfl hlen
  rw [Session.dir, chat_eq_settle h (plain_dirMsg path), respond_dirMsg hpath hat]
  exact settle_data hw hlen hfits

/-- A directory that is listed has been asked for. -/
theorem length_le_of_lists (h : s.Idle) (hlists : Lists s path i) :
    (encodePath path).length ≤ maxLength := by
  obtain ⟨names, hdir, -⟩ := hlists
  rw [← Nat.not_lt]
  intro hlong
  have hok := hdir default
  obtain ⟨e, he⟩ := settle_of_long (m := dirMsg path) hlong
    ((respond s.tree (dirMsg path).typ requestFlags (dirMsg path).data
      (dirMsg path).rlen).map Prod.fst)
  rw [Session.dir, chat_eq_settle h (plain_dirMsg path), he] at hok
  contradiction

/-- **Round trip of listings**: the client gets the names of a directory whose reply fits
if and only if there are some or the request fits as well. -/
theorem lists_iff (h : s.Idle) (hpath : ValidNames path)
    (hat : s.tree.at? (.dict s.tree.root) path = some (.dict i))
    (hkeys : ValidNames (s.tree.dicts i).keys)
    (hfits : (listing (path.map Utf8.encode) (s.tree.dicts i).keys ++ [0]).length ≤ maxLength) :
    Lists s path i ↔ ((s.tree.dicts i).keys = [] → (encodePath path).length ≤ maxLength) := by
  have hrequest : ((s.tree.dicts i).keys = [] → (encodePath path).length ≤ maxLength) ↔
      (encodePath path).length ≤ maxLength := by
    constructor
    · intro hempty
      by_cases hnil : (s.tree.dicts i).keys = []
      · exact hempty hnil
      · obtain ⟨k, hk⟩ := List.exists_mem_of_ne_nil _ hnil
        have hlt : (Utf8.encode (directory path)).length <
            (listing (path.map Utf8.encode) (s.tree.dicts i).keys).length :=
          length_directory_lt hk (hkeys.1 k hk).1
        have hle := length_encodePath_le path
        rw [List.length_append] at hfits
        omega
    · intro hlen _
      exact hlen
  rw [hrequest]
  constructor
  · exact length_le_of_lists h
  · intro hlen
    refine ⟨(s.tree.dicts i).keys.insertionSort (· ≤ ·), ?_, List.perm_insertionSort _ _, ?_⟩
    · intro l
      rw [dir_of_listing h hpath.1 hat hlen hfits, process_listing hpath hkeys]
      rfl
    · have hnodup : ((s.tree.dicts i).keys.insertionSort (· ≤ ·)).Nodup :=
        (List.perm_insertionSort _ _).nodup_iff.mpr (s.tree.dicts i).nodup
      exact (List.sortedLE_insertionSort.sortedLT_of_nodup hnodup).pairwise

/-- The sensor of the tests. -/
theorem lists_iff_sensor :
    Lists (.start basicTree) ["bus.0", "10.345678.90"] 2 ↔
      ((basicTree.dicts 2).keys = [] →
        (encodePath ["bus.0", "10.345678.90"]).length ≤ maxLength) :=
  lists_iff (Session.idle_start basicTree) (by decide) rfl (by decide) (by decide)

end Directories

/-! ## Sessions -/

/-- A listing that fits can be asked for. -/
theorem handled_dirMsg {t : Tree} {path : List String} {i : Nat} (hpath : ValidPath path)
    (hat : t.at? (.dict t.root) path = some (.dict i))
    (hlen : (encodePath path).length ≤ maxLength)
    (hfits : (listing (path.map Utf8.encode) (t.dicts i).keys ++ [0]).length ≤ maxLength) :
    ∃ f, Handled t (dirMsg path) f t ∧ settle (dirMsg path) (.ok f) =
      ((dirMsg path).process (listing (path.map Utf8.encode) (t.dicts i).keys)).map
        fun v => some (.ok v) := by
  obtain ⟨b, hw⟩ := exists_write_of_message (a := .dirall path) rfl hlen
  have hzero : IsInt32 0 := by decide
  have hrlen : ((listing (path.map Utf8.encode) (t.dicts i).keys).length : Int) ≤ maxLength := by
    rw [List.length_append] at hfits
    omega
  exact ⟨_, ⟨plain_dirMsg path, ⟨b, hw⟩, hlen, respond_dirMsg hpath hat,
    exists_write (plain_data 0 requestFlags _) hzero rfl hfits hrlen rfl, hfits⟩,
    settle_data hw hlen hfits⟩

/-- A directory is listed, and the session goes on. -/
theorem dir_of_at? {s : Session} (h : s.Idle) {path ds : List String} {i : Nat}
    (hpath : ValidNames path) (hat : s.tree.at? (.dict s.tree.root) path = some (.dict i))
    (hsorted : (s.tree.dicts i).keys.insertionSort (· ≤ ·) = ds) (hds : ValidNames ds)
    (hlen : (encodePath path).length ≤ maxLength)
    (hfits : (listing (path.map Utf8.encode) (s.tree.dicts i).keys ++ [0]).length ≤ maxLength)
    (l : Link) :
    ∃ s', s.dir l path = (.ok (some (.ok (.names ds))), s') ∧ s'.Idle ∧ s'.tree = s.tree := by
  have hmem : ∀ k ∈ (s.tree.dicts i).keys, k ∈ ds := by simp [← hsorted]
  have hkeys : ValidNames (s.tree.dicts i).keys :=
    ⟨fun k hk => hds.1 k (hmem k hk), fun k hk => hds.2 k (hmem k hk)⟩
  obtain ⟨f, hhandled, hsettle⟩ := handled_dirMsg hpath.1 hat hlen hfits
  obtain ⟨s', hchat, hidle, htree⟩ := hhandled.chat h l
  refine ⟨s', ?_, hidle, htree⟩
  rw [Session.dir, hchat, hsettle, process_listing hpath hkeys, hsorted]
  rfl

/-- What a path leads to is read. -/
theorem read_of_at? {t : Tree} {path : List String} {n : Node} (hpath : ValidPath path)
    (hat : t.at? (.dict t.root) path = some n) : read t (encodePath path) = n.render := by
  rw [read, components_of_path, parts_of_valid hpath, descend_of_at? hat]
  rfl

/-- An error reply, for an error that has a class of its own. -/
theorem settle_reply {m : Message} {b : Bytes} (hw : Protocol.write m.frame = .ok b)
    (hm : m.data.length ≤ maxLength) {err : Int} (herr : err ∈ Exc.registered)
    (hint : IsInt32 (-err)) :
    (∃ b', Protocol.write { typ := -err, flags := requestFlags } = .ok b') ∧
    settle m (.ok { typ := -err, flags := requestFlags }) = .ok (some (.error (.owfsReply err))) := by
  have hzero : (0 : Int) ≤ maxLength := by decide
  obtain ⟨b', hw'⟩ := exists_write (plain_nil (-err) requestFlags) hint rfl (Nat.zero_le _) hzero rfl
  refine ⟨⟨b', hw'⟩, ?_⟩
  have hneg : -err < 0 := by
    have hpos := Exc.pos_of_registered herr
    omega
  rw [settle_of_write hw hm hw' (Nat.zero_le _), Message.processReply, if_pos hneg, Exc.ofResult,
    Int.neg_neg, if_pos herr]
  rfl

/-- The request for what can be read. -/
theorem handled_attrGetMsg {t : Tree} {path : List String} {res : Bytes} (hne : path ≠ [])
    (hread : read t (encodePath path) = .ok res) (hlen : (encodePath path).length ≤ maxLength)
    (hreply : (res ++ [0]).length ≤ maxLength) :
    ∃ m f, attrGetMsg path = .ok m ∧ Handled t m f t ∧
      settle m (.ok f) = .ok (some (.ok (.bytes res))) := by
  have hmsg : attrGetMsg path =
      .ok { typ := OWMsg.read, data := encodePath path, rlen := 8192 } := if_neg hne
  obtain ⟨b, hw⟩ := exists_write_of_message (a := .read path) hmsg hlen
  have hzero : IsInt32 0 := by decide
  have hrlen : (res.length : Int) ≤ maxLength := by
    rw [List.length_append] at hreply
    omega
  exact ⟨_, _, hmsg, ⟨plain_attrGetMsg hmsg, ⟨b, hw⟩, hlen,
    respond_read_of_ok requestFlags 8192 hread,
    exists_write (plain_data 0 requestFlags _) hzero rfl hreply hrlen rfl, hreply⟩,
    settle_data hw hlen hreply⟩

/-- A node is read, or it is a directory, and the session goes on. -/
theorem attrGet_of_at? {s : Session} (h : s.Idle) {path : List String} {n : Node}
    (hne : path ≠ []) (hpath : ValidPath path)
    (hat : s.tree.at? (.dict s.tree.root) path = some n)
    (hlen : (encodePath path).length ≤ maxLength)
    (hfits : ∀ res, n.render = .ok res → (res ++ [0]).length ≤ maxLength) (l : Link) :
    ∃ s', s.attrGet l path = (.ok (some (n.render.map Value.bytes)), s') ∧
      s'.Idle ∧ s'.tree = s.tree := by
  have hread := read_of_at? hpath hat
  cases hrender : n.render with
  | ok res =>
      rw [hrender] at hread
      obtain ⟨m, f, hmsg, hhandled, hsettle⟩ :=
        handled_attrGetMsg hne hread hlen (hfits res hrender)
      obtain ⟨s', hchat, hidle, htree⟩ := hhandled.chat h l
      refine ⟨s', ?_, hidle, htree⟩
      rw [Session.attrGet, hmsg]
      exact hchat.trans (Prod.ext hsettle rfl)
  | error e =>
      have hmsg : attrGetMsg path =
          .ok { typ := OWMsg.read, data := encodePath path, rlen := 8192 } := if_neg hne
      obtain ⟨b, hw⟩ := exists_write_of_message (a := .read path) hmsg hlen
      rw [hrender] at hread
      have he : e = .owfsReply 21 := by
        cases n with
        | dict j => exact (Except.error.inj hrender).symm
        | _ => contradiction
      subst he
      have hint : IsInt32 (-21) := by decide
      obtain ⟨hreply, hsettle⟩ := settle_reply hw hlen (by decide : (21 : Int) ∈ Exc.registered) hint
      have hrespond : respond s.tree OWMsg.read requestFlags (encodePath path) 8192 =
          .ok ({ typ := -21, flags := requestFlags }, s.tree) := by
        have hhandle : handle s.tree OWMsg.read requestFlags (encodePath path) 8192 =
            .error (.owfsReply 21) := by
          rw [handle_read, hread]
          rfl
        rw [respond, hhandle]
      have hhandled : Handled s.tree { typ := OWMsg.read, data := encodePath path, rlen := 8192 }
          _ s.tree := ⟨plain_attrGetMsg hmsg, ⟨b, hw⟩, hlen, hrespond, hreply, Nat.zero_le _⟩
      obtain ⟨s', hchat, hidle, htree⟩ := hhandled.chat h l
      refine ⟨s', ?_, hidle, htree⟩
      rw [Session.attrGet, hmsg]
      exact hchat.trans (Prod.ext hsettle rfl)

/-- A root with one directory, which is empty. -/
def emptyTree (k : String) : Tree where
  dicts
    | 0 => ⟨[(k, .dict 1)], List.nodup_singleton k⟩
    | _ => ∅

def longName (n : Nat) : String := String.ofList (List.replicate n 'a')

/-- A long name is a valid one. -/
theorem validNames_longName {n : Nat} (hn : n ≠ 0) : ValidNames [longName n] := by
  simp [ValidNames, ValidPath, longName, List.mem_replicate, hn]

/-- The path of a long name is two bytes longer. -/
theorem length_encodePath_longName (n : Nat) : (encodePath [longName n]).length = n + 2 := by
  have hsize : Char.utf8Size 'a' = 1 := by decide
  simp [encodePath_eq, Utf8.encode_eq_flatMap, longName, hsize]

/-- The request for an empty directory is longer than the reply, which is the NUL. -/
theorem not_lists_empty :
    (ValidNames [longName 9998] ∧
      (emptyTree (longName 9998)).at? (.dict 0) [longName 9998] = some (.dict 1) ∧
      ValidNames ((emptyTree (longName 9998)).dicts 1).keys ∧
      (listing ([longName 9998].map Utf8.encode)
        ((emptyTree (longName 9998)).dicts 1).keys ++ [0]).length ≤ maxLength) ∧
    ¬ Lists (.start (emptyTree (longName 9998))) [longName 9998] 1 := by
  refine ⟨⟨validNames_longName (by decide), ?_, ?_, ?_⟩, ?_⟩
  · generalize longName 9998 = k
    simp [Tree.at?, emptyTree, Dict.get?]
  · have hnil : ValidNames [] := by decide
    exact hnil
  · have hmax : 1 ≤ maxLength := by decide
    generalize longName 9998 = k
    rw [listing_eq]
    exact hmax
  · intro hlists
    have hle := length_le_of_lists (Session.idle_start _) hlists
    rw [length_encodePath_longName] at hle
    contradiction

end Mock

end AsyncOwfs
