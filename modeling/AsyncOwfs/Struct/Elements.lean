import AsyncOwfs.Struct.Accessors
import AsyncOwfs.Struct.Values

/-!
# AsyncOwfs.Struct.Elements

The two ways to write an element of an array: `Device.set`, which finds the array and has
it set the element, and the accessor `set_<name>`.

The accessor converts the value for the type of the array, `_IdxObj.set` leaves it to
`AttrSetMsg`, which goes by the value itself (`Alike`).  And an array that is not
readable has the accessor only.
-/

namespace AsyncOwfs

namespace Struct

open Hoare Write

/-! ## `Device.set` -/

/-- The last attribute that `Device.set` gets: a name, or an index. -/
inductive Key
  | name (n : String)
  | index (i : Int)
  deriving DecidableEq, Repr

/-- What a loop over a text or over bytes gets. -/
def PyValue.elements : PyValue → Except Exc (List PyValue)
  | .text s => .ok (s.toList.map fun c => .text (String.singleton c))
  | .bytes b => .ok (b.map fun x => .int x.toNat)
  | _ => .error .typeError

section Set

variable (extra : List String → String → Bool) (s : Classes) (dev : Device)

/-- A chain of attributes.  Only the objects have attributes that matter. -/
def follow : Val → List String → Except Exc Val
  | v, [] => .ok v
  | .object p, n :: ns => do follow (← getattr extra s p n) ns
  | _, _ :: _ => .error .attributeError

/-- `Device.set(*attrs, last, value=value)`, with names in front of the last one.  Of what
it finds, an array has a method `set`; the index is any `idx` to it. -/
def deviceSet (attrs : List String) (last : Key) (value : PyValue) :
    Except Exc (Request PyValue) := do
  match ← follow extra s (.object []) attrs, last with
  | .accessor ⟨.arrayValue num, path, typ⟩, .index i =>
    Accessor.request ⟨.arrayValue num, path, typ⟩ dev (.setItem i value)
  | .accessor ⟨.arrayValue num, path, _⟩, .name n =>
    if num then attrSet dev (elementPath path n) (.raw value) else throw .typeError
  | .object p, .name n =>
    match ← getattr extra s p ("set_" ++ n) with
    | .accessor ⟨.multiSetter, path, typ⟩ => do
      Accessor.request ⟨.multiSetter, path, typ⟩ dev (.setAll (← value.elements))
    | .accessor a => a.request dev (.set value)
    | _ => throw .typeError
  | _, .name _ => throw .attributeError
  -- "set_" + idx
  | _, .index _ => throw .typeError

/-- `set_<name>(idx, value)` on the object at the end of a path. -/
def setElement (path : List String) (name : String) (idx : Int) (value : PyValue) :
    Except Exc (Request PyValue) := do
  let p ← walk extra s [] path
  match ← getattr extra s p ("set_" ++ name) with
  | .accessor a => a.request dev (.setAt idx value)
  | _ => throw .typeError

end Set

/-- Both fail, or both send the same to the same server. -/
def Agree (r r' : Except Exc (Nat × Message)) : Prop :=
  (r.isOk = false ∧ r'.isOk = false) ∨ ∃ m, r = .ok m ∧ r' = .ok m

/-! ## Classes that have been set up -/

/-- The classes that a call leaves. -/
def left : EStateM.Result Exc Classes Unit → Classes
  | .ok _ s => s
  | .error _ s => s

/-- The classes after any number of calls of `setup_struct`, whatever they have come to. -/
inductive SetUp (extra : List String → String → Bool) : Classes → Prop
  | start : SetUp extra {}
  | call {s : Classes} (h : SetUp extra s) (faults : Nat → Option Exc) (tree : Tree) :
      SetUp extra (left (setupStruct extra faults tree s))

/-- Every accessor comes from a file in the directory that its class is for. -/
def Sourced (s : Classes) : Prop :=
  ∀ p n a, (s.cls p).attrs n = some (.accessor a) → ∃ d v, (n, a) ∈ SetupVector.accessors p d v

section Sourced

variable {extra : List String → String → Bool} {s s' : Classes} {p : List String} {n : String}
  {a : Accessor}

/-- What a command brings. -/
theorem exists_of_mem_attrWrites {c : Cmd} {w : Write (Option Attr)}
    (h : w ∈ c.attrWrites p n) (hw : w.value = some (.accessor a)) :
    ∃ d v, (n, a) ∈ SetupVector.accessors p d v := by
  cases c with
  | ask => simp [Cmd.attrWrites] at h
  | reset q => simp [Cmd.attrWrites] at h
  | subPath q d =>
      rw [Cmd.attrWrites, List.mem_append] at h
      cases h with
      | inl h =>
          split at h
          · rw [List.mem_singleton] at h
            simp [h, Write.value] at hw
          · simp at h
      | inr h =>
          split at h
          · rw [List.mem_singleton] at h
            simp [h, Write.value] at hw
          · simp at h
  | file q d reply =>
      rw [Cmd.attrWrites] at h
      split at h
      · simp at h
      · next v _ =>
        split at h
        · next hq =>
          rw [writesOf, List.mem_filterMap] at h
          obtain ⟨x, hx, heq⟩ := h
          split at heq
          · next hn =>
            rw [Option.some.injEq] at heq
            have ha : x.2 = a := by
              rw [← heq, Accessor.write] at hw
              split at hw <;> simpa [Write.value] using hw
            rw [← hn, ← ha, ← hq]
            exact ⟨d, v, hx⟩
          · simp at heq
        · simp at h

/-- What is written are accessors with a source. -/
theorem Written.sourced {cmds : List Cmd} (h : Written extra cmds s s') (hs : Sourced s) :
    Sourced s' := by
  intro p n a ha
  rw [h.attrs] at ha
  cases writeAll_cases (Loose extra p n) ((s.cls p).attrs n)
      (cmds.flatMap (Cmd.attrWrites p n)) with
  | inl hsame => exact hs p n a (hsame.symm.trans ha)
  | inr hw =>
      obtain ⟨w, hmem, hw⟩ := hw
      obtain ⟨c, -, hc⟩ := List.mem_flatMap.mp hmem
      exact exists_of_mem_attrWrites hc (hw.trans ha)

/-- **`setup_struct`** makes accessors with a source only, however it ends. -/
theorem sourced_setupStruct (hs : Sourced s) (faults : Nat → Option Exc) (tree : Tree) :
    wp (setupStruct extra faults tree) (fun _ s' => Sourced s') (fun _ s' => Sourced s') s := by
  simp only [setupStruct, wp_bind, wp_get]
  split
  · exact hs
  · simp only [wp_bind, wp_set, wp_tryCatch]
    refine wp_mono (run_spec faults _ _) (fun _ s' h => ?_) (fun e s' h => ?_)
    · exact h.2.sourced hs
    · obtain ⟨first, -, h⟩ := h
      exact h.sourced hs

/-- All accessors of a class have a source, in every state that it can be in. -/
theorem SetUp.sourced (h : SetUp extra s) : Sourced s := by
  induction h with
  | start => exact fun p n a ha => by simp at ha
  | @call s _ faults tree ih =>
      have hend : wp (setupStruct extra faults tree) (fun _ s' => Sourced s')
          (fun _ s' => Sourced s') s := sourced_setupStruct ih faults tree
      cases hrun : setupStruct extra faults tree s with
      | ok u s' => exact wp_of_ok hend hrun
      | error e s' => exact wp_of_error hend hrun

/-- Both accessors of an array have its path. -/
theorem path_of_mem {d m : String} {v : SetupVector} {num : Bool} {kind : Kind}
    {path : List String} {typ : String} (h : (m, ⟨kind, path, typ⟩) ∈ v.accessors p d)
    (hkind : kind = .arrayValue num ∧ m = n ∨ kind = .arraySetter num ∧ m = "set_" ++ n) :
    path = p ++ [n] := by
  rw [SetupVector.accessors] at h
  split at h
  · cases hd : arrayKind d with
    | none => rcases hkind with ⟨rfl, rfl⟩ | ⟨rfl, rfl⟩ <;> simp [hd, SetupVector.granted] at h
    | some num' =>
        rcases hkind with ⟨rfl, rfl⟩ | ⟨rfl, rfl⟩
        all_goals
          simp [hd, SetupVector.granted] at h
          simp [h]
  · simp at h

/-- The path of an array that can be found. -/
theorem path_of_arrayValue {num : Bool} {path : List String} {typ : String} (hs : Sourced s)
    (h : getattr extra s p n = .ok (.accessor ⟨.arrayValue num, path, typ⟩)) :
    path = p ++ [n] := by
  obtain ⟨d, v, hmem⟩ := hs p n _ (attrs_of_getattr h)
  exact path_of_mem hmem (.inl ⟨rfl, rfl⟩)

/-- The path of an array that can be written to. -/
theorem path_of_arraySetter {num : Bool} {path : List String} {typ : String} (hs : Sourced s)
    (h : getattr extra s p ("set_" ++ n) = .ok (.accessor ⟨.arraySetter num, path, typ⟩)) :
    path = p ++ [n] := by
  obtain ⟨d, v, hmem⟩ := hs p _ _ (attrs_of_getattr h)
  exact path_of_mem hmem (.inr ⟨rfl, rfl⟩)

end Sourced

/-! ## What is sent -/

/-- `AttrSetMsg` makes the same of the value as of `b"1"` or `b"0"`. -/
def PyValue.IsBit (fl : Floats) : PyValue → Prop
  | .none => False
  | .bool _ => True
  | .int i => i = 0 ∨ i = 1
  | .float x => fl.str x = if x = 0 then "0" else "1"
  | .text s => s = "1"
  | .bytes b => b = [0x31]

/-- Neither a `bool` nor `bytes`: it is its `str` that is sent. -/
def PyValue.IsPlain : PyValue → Prop
  | .bool _ | .bytes _ => False
  | _ => True

/-- It makes no difference whether the value is converted. -/
def Alike (fl : Floats) (typ : String) (v : PyValue) : Prop :=
  if typ = "b" then True else if typ = "y" then v.IsBit fl else v.IsPlain

/-- A number can be read off its digits. -/
theorem toString_inj {i j : Int} (h : toString i = toString j) : i = j := by
  have hint := congrArg (fun s => decInt s.toList) h
  simpa only [decInt_toString, Option.some.injEq] using hint

/-- Every byte is shown as something. -/
theorem reprByte_ne_empty (quote x : UInt8) : Mock.reprByte quote x ≠ "" := by
  unfold Mock.reprByte
  split
  · simp
  repeat' split
  all_goals simp

/-- What is shown is no shorter than what it shows. -/
theorem length_le_encode_join (f : UInt8 → String) (hf : ∀ x, f x ≠ "") (b : Bytes) :
    b.length ≤ (Utf8.encode (String.join (b.map f))).length := by
  induction b with
  | nil => exact Nat.zero_le _
  | cons x b ih =>
      have hpos : 0 < (Utf8.encode (f x)).length :=
        List.length_pos_iff.mpr fun h => hf x (Utf8.encode_eq_nil_iff.mp h)
      rw [List.map_cons, String.join_cons, Utf8.encode_append, List.length_append, List.length_cons]
      omega

/-- The `repr` of bytes is longer than they are. -/
theorem encode_reprBytes_ne (b : Bytes) : Utf8.encode (Mock.reprBytes b) ≠ b := by
  intro h
  have hlen := congrArg List.length h
  have hjoin := length_le_encode_join (Mock.reprByte (if 0x27 ∈ b ∧ 0x22 ∉ b then 0x22 else 0x27))
    (reprByte_ne_empty _) b
  have hb : (Utf8.encode "b").length = 1 := by decide
  simp only [Mock.reprBytes, Utf8.encode_append, List.length_append, hb] at hlen
  omega

/-- Texts are compared as bytes. -/
theorem encode_eq_encode_iff {a b : String} : Utf8.encode a = Utf8.encode b ↔ a = b :=
  ⟨Utf8.encode_injective, fun h => h ▸ rfl⟩

/-- Booleans are sent as digits. -/
theorem bit_eq (b : Bool) :
    (if b then [0x31] else [0x30] : Bytes) = Utf8.encode (if b then "1" else "0") := by
  cases b <;> decide

/-- For booleans. -/
theorem encode_eq_bit_iff (fl : Floats) (v : PyValue) :
    (v.setValue fl).encode = (if v.truth then [0x31] else [0x30]) ↔ v.IsBit fl := by
  cases v with
  | none =>
      rw [bit_eq]
      exact encode_eq_encode_iff.trans (by simp [PyValue.truth, PyValue.IsBit, PyValue.str])
  | bool b => exact iff_of_true rfl trivial
  | int i =>
      rw [bit_eq]
      refine encode_eq_encode_iff.trans ?_
      show toString i = _ ↔ i = 0 ∨ i = 1
      by_cases h0 : i = 0
      · subst h0
        exact iff_of_true (by decide) (.inl rfl)
      · have hone : toString i = toString (1 : Int) ↔ i = 1 :=
          ⟨toString_inj, fun h => congrArg toString h⟩
        simpa [h0, PyValue.truth, show Int.repr 1 = "1" by decide] using hone
  | float x =>
      rw [bit_eq]
      refine encode_eq_encode_iff.trans ?_
      show fl.str x = _ ↔ fl.str x = _
      by_cases h0 : x = 0 <;> simp [h0, PyValue.truth]
  | text s =>
      rw [bit_eq]
      refine encode_eq_encode_iff.trans ?_
      show s = _ ↔ s = "1"
      by_cases h0 : s = "" <;> simp [h0, PyValue.truth]
  | bytes b =>
      show b = _ ↔ b = [0x31]
      by_cases h0 : b = [] <;> simp [h0, PyValue.truth]

/-- For everything but booleans and bytes. -/
theorem encode_eq_str_iff (fl : Floats) (v : PyValue) :
    (v.setValue fl).encode = Utf8.encode (v.str fl) ↔ v.IsPlain := by
  cases v with
  | bool b =>
      have hfalse : SetValue.encode (.bool false) ≠ Utf8.encode "False" := by decide
      have htrue : SetValue.encode (.bool true) ≠ Utf8.encode "True" := by decide
      cases b
      · exact iff_of_false hfalse not_false
      · exact iff_of_false htrue not_false
  | bytes b => exact iff_of_false (fun h => encode_reprBytes_ne b h.symm) not_false
  | _ => exact iff_of_true rfl trivial

/-- When it does not matter whether a value is converted first. -/
theorem encode_setValue_iff (fl : Floats) (typ : String) (v : PyValue) :
    (v.setValue fl).encode = ((writeConv fl typ v).setValue fl).encode ↔ Alike fl typ v := by
  unfold writeConv Alike
  split
  · exact iff_of_true rfl trivial
  · split
    · exact encode_eq_bit_iff fl v
    · exact encode_eq_str_iff fl v

/-- The length goes in front of the value, so that a message has one value. -/
theorem attrSetMsg_inj {path path' : List String} {v v' : SetValue}
    (h : attrSetMsg path v = attrSetMsg path' v') :
    encodePath path = encodePath path' ∧ v.encode = v'.encode := by
  have hdata := congrArg Message.data h
  have hlen := congrArg Message.rlen h
  exact List.append_inj' hdata (Int.ofNat.inj hlen)

/-- The last part can be read off a path. -/
theorem encodePath_concat_inj {q : List String} (hq : q ≠ []) {x x' : String}
    (h : encodePath (q ++ [x]) = encodePath (q ++ [x'])) : x = x' := by
  have henc := List.append_cancel_right h
  have htext := congrArg String.toList (Utf8.encode_injective henc)
  rw [String.intercalate_append_of_ne_nil hq (by simp),
    String.intercalate_append_of_ne_nil hq (by simp)] at htext
  exact String.toList_injective (by simpa using htext)

/-! ## Elements -/

/-- Every index is a number, but not every one has a letter. -/
def IsElement (num : Bool) (i : Int) : Prop :=
  num = true ∨ 0 ≤ 65 + i ∧ (65 + i).toNat.isValidChar

/-- An element has a name. -/
theorem exists_elementName {num : Bool} {i : Int} (h : IsElement num i) :
    ∃ idx, elementName num i = .ok idx := by
  rw [elementName]
  split
  · exact ⟨_, rfl⟩
  · next hnum =>
    rw [if_pos (h.resolve_left hnum)]
    exact ⟨_, rfl⟩

/-- What is no element has no name. -/
theorem elementName_of_not {num : Bool} {i : Int} (h : ¬ IsElement num i) :
    elementName num i = .error .valueError := by
  rw [IsElement, not_or] at h
  rw [elementName, if_neg h.1, if_neg h.2]

/-- No element has a number for its letter. -/
theorem elementName_ne {i : Int} {idx idx' : String} (h : elementName true i = .ok idx)
    (h' : elementName false i = .ok idx') : idx ≠ idx' := by
  rw [elementName, if_pos rfl, Except.ok.injEq] at h
  rw [elementName, if_neg (by decide)] at h'
  split at h'
  · next hi =>
    obtain ⟨h0, hvalid⟩ := hi
    rw [Except.ok.injEq] at h'
    have hchar : (Char.ofNat (65 + i).toNat).toNat = (65 + i).toNat := by
      rw [Char.ofNat, dif_pos hvalid]
      rfl
    intro heq
    have hlist : (toString i).toList = [Char.ofNat (65 + i).toNat] := by
      rw [h, heq, ← h', String.toList_ofList]
    have hdec : IsDecimal (Char.ofNat (65 + i).toNat) := isDecimal_of_mem (i := i) (hlist ▸ List.mem_singleton_self _)
    have hneg : ¬ 0 ≤ i := by
      cases hdec with
      | inl hminus =>
          have hminus' : (Char.ofNat (65 + i).toNat).toNat = 45 := hminus ▸ rfl
          omega
      | inr hdigit =>
          simp only [Char.isDigit, Bool.and_eq_true, decide_eq_true_eq] at hdigit
          have hle : (Char.ofNat (65 + i).toNat).toNat ≤ 57 := hdigit.2
          omega
    -- a negative index has a sign and a digit
    rw [Int.toString_eq_repr, Int.repr_eq_if, if_neg hneg, String.toList_append,
      Nat.toList_repr] at hlist
    have hlen := congrArg List.length hlist
    have hpos : 0 < (Nat.toDigits 10 (-i).toNat).length := Nat.length_toDigits_pos
    simp at hlen
  · simp at h'

/-! ## Agreement -/

section Agreement

variable {extra : List String → String → Bool} {s : Classes} {dev : Device} {fl : Floats}
  {p : List String} {name typ : String} {num : Bool} {i : Int} {v : PyValue}

/-- The array can be found under its name, whatever its type. -/
def IsDirect (extra : List String → String → Bool) (s : Classes) (p : List String) (name : String)
    (num : Bool) : Prop :=
  ∃ path typ, getattr extra s p name = .ok (.accessor ⟨.arrayValue num, path, typ⟩)

/-- An array has one kind of names. -/
theorem IsDirect.unique {num' : Bool} (h : IsDirect extra s p name num)
    (h' : IsDirect extra s p name num') : num = num' := by
  obtain ⟨path, typ, h⟩ := h
  obtain ⟨path', typ', h'⟩ := h'
  rw [h] at h'
  simp at h'
  exact h'.1

/-- What a request for an element comes to. -/
def element (fl : Floats) (dev : Device) (num : Bool) (path : List String) (i : Int)
    (value : Sent PyValue) : Except Exc (Nat × Message) := do
  let r ← (do attrSet dev (elementPath path (← elementName num i)) value)
  r.message fl

/-- The last name is looked up where the others lead. -/
theorem follow_concat {q : List String} {path : List String} (h : walk extra s q path = .ok p) :
    follow extra s (.object q) (path ++ [name]) = getattr extra s p name := by
  induction path generalizing q with
  | nil =>
      rw [walk, Except.ok.injEq] at h
      subst h
      rw [List.nil_append, follow]
      cases getattr extra s q name <;> rfl
  | cons n path ih =>
      rw [walk] at h
      rw [List.cons_append, follow]
      split at h
      · next q' hq' =>
        rw [hq']
        exact ih h
      · simp at h
      · simp at h

/-- **`set_<name>(i, v)`** converts the value. -/
theorem setElement_eq {path : List String} (hs : Sourced s) (hwalk : walk extra s [] path = .ok p)
    {dd : List String}
    (hset : getattr extra s p ("set_" ++ name) = .ok (.accessor ⟨.arraySetter num, dd, typ⟩)) :
    (setElement extra s dev path name i v >>= Request.message fl) =
      element fl dev num (p ++ [name]) i (.conv typ v) := by
  have hdd := path_of_arraySetter hs hset
  subst hdd
  unfold setElement
  rw [hwalk]
  show ((getattr extra s p ("set_" ++ name) >>= _) >>= Request.message fl) = _
  rw [hset]
  rfl

/-- **`dev.set(.., i, value=v)`** sends the value as it is. -/
theorem deviceSet_eq {path : List String} (hs : Sourced s) (hwalk : walk extra s [] path = .ok p)
    (hdirect : IsDirect extra s p name num) :
    (deviceSet extra s dev (path ++ [name]) (.index i) v >>= Request.message fl) =
      element fl dev num (p ++ [name]) i (.raw v) := by
  obtain ⟨dd, typ, hget⟩ := hdirect
  have hdd := path_of_arrayValue hs hget
  subst hdd
  unfold deviceSet
  rw [follow_concat hwalk, hget]
  rfl

/-- Anything else has no elements to be set. -/
theorem deviceSet_of_not {path : List String} (hwalk : walk extra s [] path = .ok p)
    (hdirect : ∀ num, ¬ IsDirect extra s p name num) :
    ∃ e, deviceSet extra s dev (path ++ [name]) (.index i) v = .error e := by
  unfold deviceSet
  rw [follow_concat hwalk]
  cases hget : getattr extra s p name with
  | error e => exact ⟨e, rfl⟩
  | ok x =>
      cases x with
      | accessor a =>
          obtain ⟨kind, dd, typ⟩ := a
          cases kind with
          | arrayValue num => exact absurd ⟨dd, typ, hget⟩ (hdirect num)
          | _ => exact ⟨.typeError, rfl⟩
      | _ => exact ⟨.typeError, rfl⟩

/-- A device that is nowhere is sent nothing. -/
theorem element_of_none (hdev : dev.bus = none) (path : List String) (value : Sent PyValue) :
    (element fl dev num path i value).isOk = false := by
  unfold element
  cases elementName num i with
  | error e => rfl
  | ok idx =>
      show ((attrSet dev (elementPath path idx) value) >>= Request.message fl).isOk = false
      rw [attrSet, hdev]
      rfl

/-- What is no element is sent nothing. -/
theorem element_of_not (h : ¬ IsElement num i) (path : List String) (value : Sent PyValue) :
    (element fl dev num path i value).isOk = false := by
  unfold element
  rw [elementName_of_not h]
  rfl

/-- **An element** is written to through the bus of its device. -/
theorem element_of_some {b : BusRef} (hdev : dev.bus = some b) {idx : String}
    (hidx : elementName num i = .ok idx) {value : Sent PyValue} {x : PyValue}
    (hx : value.value fl = .ok x) :
    element fl dev num (p ++ [name]) i value =
      .ok (b.server, attrSetMsg ((b.path ++ dev.id :: p) ++ [name ++ "." ++ idx])
        (x.setValue fl)) := by
  unfold element
  rw [hidx]
  show ((attrSet dev (elementPath (p ++ [name]) idx) value) >>= Request.message fl) = _
  rw [attrSet, hdev, elementPath_append]
  show (value.value fl).map _ = _
  rw [hx]
  simp [Except.map]

/-- Two arrays of one name send the same if they are one, and the value is alike. -/
theorem element_eq_iff {b : BusRef} (hdev : dev.bus = some b) {num' : Bool}
    (h : IsElement num i) (h' : IsElement num' i) :
    element fl dev num' (p ++ [name]) i (.raw v) =
        element fl dev num (p ++ [name]) i (.conv typ v) ↔ num' = num ∧ Alike fl typ v := by
  obtain ⟨idx, hidx⟩ := exists_elementName h
  obtain ⟨idx', hidx'⟩ := exists_elementName h'
  rw [element_of_some hdev hidx rfl, element_of_some hdev hidx' rfl, ← encode_setValue_iff,
    Except.ok.injEq, Prod.mk.injEq]
  constructor
  · rintro ⟨-, hmsg⟩
    obtain ⟨hpath, henc⟩ := attrSetMsg_inj hmsg
    have hname := encodePath_concat_inj (by simp) hpath
    have hidx_eq : idx' = idx := by simpa using hname
    refine ⟨?_, henc⟩
    cases num <;> cases num'
    · rfl
    · exact absurd hidx_eq (elementName_ne hidx' hidx)
    · exact absurd hidx_eq.symm (elementName_ne hidx hidx')
    · rfl
  · rintro ⟨rfl, henc⟩
    rw [hidx, Except.ok.injEq] at hidx'
    subst hidx'
    exact ⟨rfl, by simp [attrSetMsg, henc]⟩

/-- Only elements can be written to. -/
theorem element_isOk_iff {b : BusRef} (hdev : dev.bus = some b) {value : Sent PyValue} {x : PyValue}
    (hx : value.value fl = .ok x) :
    (element fl dev num (p ++ [name]) i value).isOk = true ↔ IsElement num i := by
  by_cases h : IsElement num i
  · obtain ⟨idx, hidx⟩ := exists_elementName h
    rw [element_of_some hdev hidx hx]
    exact iff_of_true rfl h
  · rw [element_of_not h]
    exact iff_of_false Bool.false_ne_true h

/-- What fails agrees with what fails. -/
theorem agree_of_fails {r r' : Except Exc (Nat × Message)} (h : r.isOk = false) :
    Agree r r' ↔ r'.isOk = false := by
  constructor
  · intro hagree
    cases hagree with
    | inl hfail => exact hfail.2
    | inr hsame =>
        obtain ⟨m, rfl, -⟩ := hsame
        contradiction
  · intro h'
    exact .inl ⟨h, h'⟩

/-- What is sent agrees with the same. -/
theorem agree_of_sends {r r' : Except Exc (Nat × Message)} (h : r.isOk = true) :
    Agree r r' ↔ r = r' := by
  cases r with
  | error e => contradiction
  | ok m =>
      constructor
      · intro hagree
        cases hagree with
        | inl hfail => exact absurd hfail.1 (by simp [Except.isOk, Except.toBool])
        | inr hsame =>
            obtain ⟨m', hm, hm'⟩ := hsame
            rw [hm, hm']
      · intro heq
        exact .inr ⟨m, rfl, heq.symm⟩

/-- Only letters run out. -/
theorem eq_of_not_isElement {num' : Bool} (h : ¬ IsElement num i) (h' : num' ≠ true) :
    num' = num := by
  cases num with
  | true => exact absurd (.inl rfl) h
  | false => simpa using h'

/-- An array that is found, and the accessor. -/
theorem agree_of_direct {b : BusRef} (hdev : dev.bus = some b) (num' : Bool) :
    Agree (element fl dev num' (p ++ [name]) i (.raw v))
        (element fl dev num (p ++ [name]) i (.conv typ v)) ↔
      (num' = num ∧ Alike fl typ v) ∨ (¬ IsElement num i ∧ num' ≠ true) := by
  have hraw : (element fl dev num' (p ++ [name]) i (.raw v)).isOk = true ↔ IsElement num' i :=
    element_isOk_iff hdev rfl
  have hconv : (element fl dev num (p ++ [name]) i (.conv typ v)).isOk = true ↔ IsElement num i :=
    element_isOk_iff hdev rfl
  by_cases h' : IsElement num' i
  · rw [agree_of_sends (hraw.mpr h')]
    by_cases h : IsElement num i
    · rw [element_eq_iff hdev h h']
      simp [h]
    · constructor
      · intro heq
        rw [heq] at hraw
        exact absurd (hconv.mp (hraw.mpr h')) h
      · rintro (⟨rfl, -⟩ | ⟨-, hne⟩)
        · exact absurd h' h
        · rw [eq_of_not_isElement h hne] at h'
          exact absurd h' h
  · have hne : num' ≠ true := fun heq => h' (.inl heq)
    rw [agree_of_fails (Bool.eq_false_iff.mpr (mt hraw.mp h')), Bool.eq_false_iff, Ne, hconv]
    constructor
    · intro h
      exact .inr ⟨h, hne⟩
    · rintro (⟨rfl, -⟩ | ⟨h, -⟩)
      · exact h'
      · exact h

/-- Where the accessors are as the structure says, a readable array can be found. -/
theorem isDirect_iff_readable {tree T : Tree} (hs : Faithful extra tree s)
    (hT : tree.sub? p = some T) :
    IsDirect extra s p name num ↔ ∃ d v, (d, v) ∈ T.files ∧ v.index = 0 ∧ Reads v.access ∧
      Stands d (some num) name := by
  simp only [IsDirect, hs.table p T hT]
  constructor
  · rintro ⟨path, typ, d, v, hmem, ha⟩
    cases ha with
    | items hx hi hv => exact ⟨d, v, hmem, hi, hv, hx⟩
  · rintro ⟨d, v, hmem, hi, hv, hx⟩
    exact ⟨p ++ [name], v.typ, d, v, hmem, .items hx hi hv⟩

/-- **Agreement of the two ways** to write an element. -/
theorem agree_iff_direct (hs : SetUp extra s) {path : List String}
    (hwalk : walk extra s [] path = .ok p) {dd : List String}
    (hset : getattr extra s p ("set_" ++ name) = .ok (.accessor ⟨.arraySetter num, dd, typ⟩)) :
    Agree (deviceSet extra s dev (path ++ [name]) (.index i) v >>= Request.message fl)
        (setElement extra s dev path name i v >>= Request.message fl) ↔
      dev.bus = none ∨ (IsDirect extra s p name num ∧ Alike fl typ v) ∨
        (¬ IsElement num i ∧ ¬ IsDirect extra s p name true) := by
  rw [setElement_eq hs.sourced hwalk hset]
  by_cases hfound : ∃ num', IsDirect extra s p name num'
  · obtain ⟨num', hdirect⟩ := hfound
    have hnum (n : Bool) : IsDirect extra s p name n ↔ num' = n :=
      ⟨hdirect.unique, fun h => h ▸ hdirect⟩
    rw [deviceSet_eq hs.sourced hwalk hdirect]
    cases hdev : dev.bus with
    | none =>
        rw [agree_of_fails (element_of_none hdev _ _)]
        exact iff_of_true (element_of_none hdev _ _) (.inl rfl)
    | some b =>
        rw [agree_of_direct hdev, hnum, hnum]
        simp
  · rw [not_exists] at hfound
    obtain ⟨e, he⟩ : ∃ e, deviceSet extra s dev (path ++ [name]) (.index i) v = .error e :=
      deviceSet_of_not hwalk hfound
    rw [he, agree_of_fails rfl]
    cases hdev : dev.bus with
    | none => exact iff_of_true (element_of_none hdev _ _) (.inl rfl)
    | some b =>
        have hconv : (element fl dev num (p ++ [name]) i (.conv typ v)).isOk = true ↔
            IsElement num i := element_isOk_iff hdev rfl
        rw [Bool.eq_false_iff, Ne, hconv]
        simp [hfound]

end Agreement

/-- A subdirectory of a structure, with arrays. -/
def fooTree : Tree :=
  .dir "foo" (.file "plugh.A" "i,00000,000001,rw,000012,s,".toUTF8.data.toList
    (.file "plover.0" "i,00000,000001,wo,000012,s,".toUTF8.data.toList .nil)) .nil

def fooClasses : Classes := left (setupStruct (fun _ _ => false) quiet fooTree {})

def fooDevice : Device := { id := "10.345678.90", family := 0x10, bus := some ⟨0, ["bus.0"]⟩ }

/-- The class has been set up. -/
theorem setUp_foo : SetUp (fun _ _ => false) fooClasses := .call .start quiet fooTree

/-- The subdirectory of the class can be walked to. -/
theorem walk_foo : walk (fun _ _ => false) fooClasses [] ["foo"] = .ok ["foo"] := by
  decide +kernel

/-- The array in the subdirectory has a setter. -/
theorem getattr_set_plugh :
    getattr (fun _ _ => false) fooClasses ["foo"] ("set_" ++ "plugh") =
      .ok (.accessor ⟨.arraySetter false, ["foo", "plugh"], "i"⟩) := by
  decide +kernel

/-- Element B is set to 5. -/
theorem agree_iff_direct_five :
    Agree (deviceSet (fun _ _ => false) fooClasses fooDevice (["foo"] ++ ["plugh"]) (.index 1)
            (.int 5) >>= Request.message ⟨fun _ => .error .valueError, fun _ => ""⟩)
        (setElement (fun _ _ => false) fooClasses fooDevice ["foo"] "plugh" 1 (.int 5) >>=
          Request.message ⟨fun _ => .error .valueError, fun _ => ""⟩) ↔
      fooDevice.bus = none ∨
        (IsDirect (fun _ _ => false) fooClasses ["foo"] "plugh" false ∧
          Alike ⟨fun _ => .error .valueError, fun _ => ""⟩ "i" (.int 5)) ∨
        (¬ IsElement false 1 ∧ ¬ IsDirect (fun _ _ => false) fooClasses ["foo"] "plugh" true) :=
  agree_iff_direct setUp_foo walk_foo getattr_set_plugh

/-- `True` is written as 1 by the one, and as itself by the other; an array that is
write-only is written by the accessor only. -/
theorem not_agree_true :
    (getattr (fun _ _ => false) fooClasses ["foo"] ("set_" ++ "plugh") =
        .ok (.accessor ⟨.arraySetter false, ["foo", "plugh"], "i"⟩) ∧
      ¬ Agree (deviceSet (fun _ _ => false) fooClasses fooDevice (["foo"] ++ ["plugh"]) (.index 0)
            (.bool true) >>= Request.message ⟨fun _ => .error .valueError, fun _ => ""⟩)
        (setElement (fun _ _ => false) fooClasses fooDevice ["foo"] "plugh" 0 (.bool true) >>=
          Request.message ⟨fun _ => .error .valueError, fun _ => ""⟩)) ∧
    getattr (fun _ _ => false) fooClasses ["foo"] ("set_" ++ "plover") =
        .ok (.accessor ⟨.arraySetter true, ["foo", "plover"], "i"⟩) ∧
      ¬ Agree (deviceSet (fun _ _ => false) fooClasses fooDevice (["foo"] ++ ["plover"]) (.index 0)
            (.int 5) >>= Request.message ⟨fun _ => .error .valueError, fun _ => ""⟩)
        (setElement (fun _ _ => false) fooClasses fooDevice ["foo"] "plover" 0 (.int 5) >>=
          Request.message ⟨fun _ => .error .valueError, fun _ => ""⟩) := by
  refine ⟨⟨getattr_set_plugh, ?_⟩, by decide +kernel, ?_⟩
  · rw [agree_of_sends (by decide +kernel)]
    intro h
    have hdata := congrArg (fun r : Except Exc (Nat × Message) => r.toOption.map fun m => m.2.data) h
    revert hdata
    decide +kernel
  · rw [agree_of_fails (by decide +kernel)]
    decide +kernel

end Struct

end AsyncOwfs
