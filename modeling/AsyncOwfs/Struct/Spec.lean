import AsyncOwfs.Struct.Writes

/-!
# AsyncOwfs.Struct.Spec

What a file of a structure directory says: which accessors there are for it, and what a use
of one of them asks the server for.

Nothing here is computed as `setup_accessors` and the accessors compute it.  That they come
to the same is proved at the end (`mem_accessors_iff`, `sends_request`).
-/

namespace AsyncOwfs

namespace Struct

/-! ## Files -/

/-- The access modes in which a file can be read. -/
inductive Reads : String → Prop
  | ro : Reads "ro"
  | rw : Reads "rw"

/-- Those in which it can be written. -/
inductive Writes : String → Prop
  | wo : Writes "wo"
  | rw : Writes "rw"

/-- What a file stands for: an array, whose elements have numbers or letters, or a value. -/
inductive Stands : String → Option Bool → String → Prop
  | numbers (x : String) : Stands (x ++ ".0") (some true) x
  | letters (x : String) : Stands (x ++ ".A") (some false) x
  | value (d : String) (hnumbers : ∀ x, d ≠ x ++ ".0") (hletters : ∀ x, d ≠ x ++ ".A") :
    Stands d none d

/-- The accessors for a file.  Only an array has some for all of its elements. -/
inductive Offers (p : List String) (d : String) (v : SetupVector) : String → Accessor → Prop
  | value {x : String} (hx : Stands d none x) (hi : v.index = 0) (hv : Reads v.access) :
    Offers p d v x ⟨.simpleValue, p ++ [x], v.typ⟩
  | get {x : String} (hx : Stands d none x) (hi : v.index = 0) (hv : Reads v.access) :
    Offers p d v ("get_" ++ x) ⟨.simpleGetter, p ++ [x], v.typ⟩
  | set {x : String} (hx : Stands d none x) (hi : v.index = 0) (hv : Writes v.access) :
    Offers p d v ("set_" ++ x) ⟨.simpleSetter, p ++ [x], v.typ⟩
  | items {x : String} {num : Bool} (hx : Stands d (some num) x) (hi : v.index = 0)
    (hv : Reads v.access) : Offers p d v x ⟨.arrayValue num, p ++ [x], v.typ⟩
  | getAt {x : String} {num : Bool} (hx : Stands d (some num) x) (hi : v.index = 0)
    (hv : Reads v.access) : Offers p d v ("get_" ++ x) ⟨.arrayGetter num, p ++ [x], v.typ⟩
  | setAt {x : String} {num : Bool} (hx : Stands d (some num) x) (hi : v.index = 0)
    (hv : Writes v.access) : Offers p d v ("set_" ++ x) ⟨.arraySetter num, p ++ [x], v.typ⟩
  | all {x : String} {num : Bool} (hx : Stands d (some num) x) (hi : v.index = 0)
    (hv : Reads v.access) : Offers p d v (x ++ "_all") ⟨.multiValue, p ++ [x], v.typ⟩
  | getAll {x : String} {num : Bool} (hx : Stands d (some num) x) (hi : v.index = 0)
    (hv : Reads v.access) : Offers p d v ("get_" ++ x ++ "_all") ⟨.multiGetter, p ++ [x], v.typ⟩
  | setAll {x : String} {num : Bool} (hx : Stands d (some num) x) (hi : v.index = 0)
    (hv : Writes v.access) : Offers p d v ("set_" ++ x ++ "_all") ⟨.multiSetter, p ++ [x], v.typ⟩

/-! ## Uses -/

section Uses

variable {V : Type}

/-- The index that an element is asked for with. -/
def Use.index : Use V → Option Int
  | .item i | .setItem i _ | .getAt i | .setAt i _ => some i
  | .value | .get | .set _ | .setAll _ => none

/-- What the accessors are for. -/
def Kind.Takes : Kind → Use V → Prop
  | .simpleValue, .value | .multiValue, .value => True
  | .simpleGetter, .get | .multiGetter, .get => True
  | .simpleSetter, .set _ | .multiSetter, .setAll _ => True
  | .arrayValue _, .item _ | .arrayValue _, .setItem _ _ => True
  | .arrayGetter _, .getAt _ | .arraySetter _, .setAt _ _ => True
  | _, _ => False

/-- The name of an element: its index in decimal, or the letter with that place in the
alphabet and what follows it. -/
inductive Named : Bool → Int → String → Prop
  | number (i : Int) : Named true i (toString i)
  | letter (i : Int) (c : Char) (h : (c.toNat : Int) = 'A'.toNat + i) :
    Named false i (String.ofList [c])

/-- What a use of the file is about: the file, one element of the array, or all of them. -/
inductive Addresses (d : String) (use : Use V) : String → Prop
  | value {x : String} (hx : Stands d none x) : Addresses d use x
  | element {x idx : String} {num : Bool} {i : Int} (hx : Stands d (some num) x)
    (hi : use.index = some i) (hidx : Named num i idx) : Addresses d use (x ++ "." ++ idx)
  | all {x : String} {num : Bool} (hx : Stands d (some num) x) (hi : use.index = none) :
    Addresses d use (x ++ "." ++ "ALL")

/-- What is asked for there: to be told a value, or to take one.  What becomes of a value
that is assigned to an item is left open. -/
inductive Demands (typ : String) (server : Nat) (path : List String) : Use V → Request V → Prop
  | value : Demands typ server path .value (.attrGet server path)
  | item (i : Int) : Demands typ server path (.item i) (.attrGet server path)
  | get : Demands typ server path .get (.attrGet server path)
  | getAt (i : Int) : Demands typ server path (.getAt i) (.attrGet server path)
  | set (w : V) : Demands typ server path (.set w) (.attrSet server path (.conv typ w))
  | setAt (i : Int) (w : V) :
    Demands typ server path (.setAt i w) (.attrSet server path (.conv typ w))
  | setAll (ws : List V) :
    Demands typ server path (.setAll ws) (.attrSet server path (.joined typ ws))
  | setItem (i : Int) (w : V) (value : Sent V) :
    Demands typ server path (.setItem i w) (.attrSet server path value)

/-- The request that a use of the file makes, with its path: the bus, the device, the
subdirectories and the name. -/
def Sends (p : List String) (d : String) (v : SetupVector) (b : BusRef) (id : String) (use : Use V)
    (req : Request V) : Prop :=
  ∃ leaf, Addresses d use leaf ∧ Demands v.typ b.server (b.path ++ id :: (p ++ [leaf])) use req

/-- What is used makes one of the requests that it should, or there is none and it raises. -/
def Obeys (r : Except Exc (Request V)) (sends : Request V → Prop) : Prop :=
  match r with
  | .ok req => sends req
  | .error e => e = .valueError ∧ ∀ req, ¬ sends req

end Uses

/-! ## `setup_accessors` does that -/

/-- The code's own word for the modes to read in. -/
theorem reads_iff (v : SetupVector) : Reads v.access ↔ v.readable = true := by
  rw [SetupVector.readable, decide_eq_true_iff]
  constructor
  · intro h
    generalize v.access = access at h
    cases h with
    | ro => exact .inl rfl
    | rw => exact .inr rfl
  · rintro (h | h)
    · exact h ▸ .ro
    · exact h ▸ .rw

/-- The code's own word for the modes to write in. -/
theorem writes_iff (v : SetupVector) : Writes v.access ↔ v.writable = true := by
  rw [SetupVector.writable, decide_eq_true_iff]
  constructor
  · intro h
    generalize v.access = access at h
    cases h with
    | wo => exact .inl rfl
    | rw => exact .inr rfl
  · rintro (h | h)
    · exact h ▸ .wo
    · exact h ▸ .rw

/-- A name ends in these two characters. -/
theorem isSuffixOf_iff (s t : String) : t.toList.isSuffixOf s.toList = true ↔ ∃ x, s = x ++ t := by
  rw [List.isSuffixOf_iff_suffix]
  constructor
  · rintro ⟨cs, hcs⟩
    refine ⟨String.ofList cs, String.toList_inj.mp ?_⟩
    rw [String.toList_append, String.toList_ofList, hcs]
  · rintro ⟨x, rfl⟩
    exact ⟨x.toList, String.toList_append.symm⟩

/-- An array is called by what is in front of the dot. -/
theorem arrayName_append (x : String) (a b : Char) :
    arrayName (x ++ String.ofList [a, b]) = x := by
  refine String.toList_inj.mp ?_
  rw [arrayName, String.toList_ofList, String.toList_append, String.toList_ofList]
  simp

/-- No name ends in both suffixes. -/
theorem append_zero_ne_append_A (x y : String) : x ++ ".0" ≠ y ++ ".A" := by
  intro h
  have hlast := congrArg (fun s : String => s.toList.getLast?) h
  simp [String.toList_append] at hlast

/-- **What a file stands for** can be seen from its name. -/
theorem stands_iff (d : String) (k : Option Bool) (x : String) :
    Stands d k x ↔ arrayKind d = k ∧ (if k.isSome then arrayName d else d) = x := by
  have hnumbers := isSuffixOf_iff d ".0"
  have hletters := isSuffixOf_iff d ".A"
  have hsuffix : ".0".toList = ['.', '0'] ∧ ".A".toList = ['.', 'A'] := by decide
  rw [hsuffix.1] at hnumbers
  rw [hsuffix.2] at hletters
  constructor
  · intro h
    cases h with
    | numbers =>
        exact ⟨by rw [arrayKind, if_pos (hnumbers.mpr ⟨x, rfl⟩)], arrayName_append x '.' '0'⟩
    | letters =>
        have hnot : ¬ ['.', '0'].isSuffixOf (x ++ ".A").toList := by
          rw [hnumbers]
          rintro ⟨y, hy⟩
          exact append_zero_ne_append_A y x hy.symm
        exact ⟨by rw [arrayKind, if_neg hnot, if_pos (hletters.mpr ⟨x, rfl⟩)],
          arrayName_append x '.' 'A'⟩
    | value _ h0 hA =>
        have hnot : ¬ ['.', '0'].isSuffixOf d.toList := fun h =>
          (hnumbers.mp h).elim fun y hy => h0 y hy
        have hnot' : ¬ ['.', 'A'].isSuffixOf d.toList := fun h =>
          (hletters.mp h).elim fun y hy => hA y hy
        exact ⟨by rw [arrayKind, if_neg hnot, if_neg hnot'], rfl⟩
  · rintro ⟨rfl, rfl⟩
    rw [arrayKind]
    split
    · next h =>
      obtain ⟨y, rfl⟩ := hnumbers.mp h
      exact (arrayName_append y '.' '0').symm ▸ .numbers y
    · next h0 =>
      split
      · next h =>
        obtain ⟨y, rfl⟩ := hletters.mp h
        exact (arrayName_append y '.' 'A').symm ▸ .letters y
      · next hA =>
        exact .value d (fun y hy => h0 (hnumbers.mpr ⟨y, hy⟩)) fun y hy => hA (hletters.mpr ⟨y, hy⟩)

/-- A file stands for one thing. -/
theorem Stands.unique {d x y : String} {k l : Option Bool} (h : Stands d k x) (h' : Stands d l y) :
    k = l ∧ x = y := by
  obtain ⟨hk, hx⟩ := (stands_iff d k x).mp h
  obtain ⟨hl, hy⟩ := (stands_iff d l y).mp h'
  obtain rfl := hk.symm.trans hl
  exact ⟨rfl, hx.symm.trans hy⟩

/-- What `setup_accessors` puts into a class goes by the access mode. -/
theorem mem_granted {v : SetupVector} {readers writers : List (String × Accessor)}
    {x : String × Accessor} :
    x ∈ v.granted readers writers ↔ x ∈ readers ∧ Reads v.access ∨ x ∈ writers ∧ Writes v.access := by
  rw [SetupVector.granted, List.mem_append, reads_iff, writes_iff]
  cases v.readable <;> cases v.writable <;> simp

/-- **The accessors for a file** are those that `setup_accessors` makes. -/
theorem mem_accessors_iff (p : List String) (d : String) (v : SetupVector) (n : String)
    (a : Accessor) : (n, a) ∈ v.accessors p d ↔ Offers p d v n a := by
  constructor
  · intro h
    rw [SetupVector.accessors] at h
    split at h
    · next hi =>
      cases hkind : arrayKind d with
      | none =>
          have hx : Stands d none d := (stands_iff d none d).mpr ⟨hkind, rfl⟩
          simp only [hkind, mem_granted, List.mem_cons, List.not_mem_nil, or_false,
            Prod.mk.injEq] at h
          rcases h with ⟨⟨rfl, rfl⟩ | ⟨rfl, rfl⟩, hv⟩ | ⟨⟨rfl, rfl⟩, hv⟩
          · exact .value hx hi hv
          · exact .get hx hi hv
          · exact .set hx hi hv
      | some num =>
          have hx : Stands d (some num) (arrayName d) := (stands_iff d _ _).mpr ⟨hkind, rfl⟩
          simp only [hkind, List.mem_append, mem_granted, List.mem_cons, List.not_mem_nil, or_false,
            Prod.mk.injEq] at h
          rcases h with (⟨⟨rfl, rfl⟩ | ⟨rfl, rfl⟩, hv⟩ | ⟨⟨rfl, rfl⟩, hv⟩) |
            (⟨⟨rfl, rfl⟩ | ⟨rfl, rfl⟩, hv⟩ | ⟨⟨rfl, rfl⟩, hv⟩)
          · exact .items hx hi hv
          · exact .getAt hx hi hv
          · exact .setAt hx hi hv
          · exact .all hx hi hv
          · exact .getAll hx hi hv
          · exact .setAll hx hi hv
    · exact absurd h List.not_mem_nil
  · intro h
    cases h with
    | value hx hi hv | get hx hi hv | set hx hi hv | items hx hi hv | getAt hx hi hv
    | setAt hx hi hv | all hx hi hv | getAll hx hi hv | setAll hx hi hv =>
        obtain ⟨hkind, rfl⟩ := (stands_iff d _ _).mp hx
        simp [SetupVector.accessors, hi, hkind, mem_granted, hv]

/-! ## The accessors do that -/

/-- **The names of elements** are those that the accessors work out. -/
theorem named_iff (num : Bool) (i : Int) (idx : String) :
    Named num i idx ↔ elementName num i = .ok idx := by
  constructor
  · intro h
    cases h with
    | number => rfl
    | letter _ c h =>
        have h65 : 65 + i = c.toNat := h.symm
        have hvalid : (65 + i).toNat.isValidChar := by
          rw [h65, Int.toNat_natCast]
          exact c.valid
        rw [elementName, if_neg (by decide), if_pos ⟨by omega, hvalid⟩, h65, Int.toNat_natCast,
          Char.ofNat_toNat]
  · intro h
    rw [elementName] at h
    split at h
    · next hnum =>
      obtain rfl := Except.ok.inj h
      exact hnum ▸ .number i
    · next hnum =>
      split at h
      · next hchar =>
        obtain rfl := Except.ok.inj h
        rw [Bool.not_eq_true] at hnum
        subst hnum
        refine .letter i _ ?_
        have htoNat : (Char.ofNat (65 + i).toNat).toNat = (65 + i).toNat := by
          rw [Char.ofNat, dif_pos hchar.2]
          rfl
        rw [htoNat, Int.toNat_of_nonneg hchar.1]
        rfl
      · contradiction

/-- `chr` raises `ValueError` where there is no letter. -/
theorem elementName_eq_error {num : Bool} {i : Int} {e : Exc} (h : elementName num i = .error e) :
    e = .valueError := by
  rw [elementName] at h
  split at h
  · contradiction
  · split at h
    · contradiction
    · exact (Except.error.inj h).symm

/-- The name of an element is put behind the last part of the path. -/
theorem elementPath_append (p : List String) (d idx : String) :
    elementPath (p ++ [d]) idx = p ++ [d ++ "." ++ idx] := by
  rw [elementPath, List.dropLast_concat, List.getLastD_concat]

section Requests

variable {V : Type} {p : List String} {d x : String} {v : SetupVector} {dev : Device} {b : BusRef}

/-- A device that is somewhere is read through its bus. -/
theorem attrGet_eq (hdev : dev.bus = some b) (path : List String) :
    attrGet (V := V) dev path = .ok (.attrGet b.server (b.path ++ dev.id :: path)) := by
  rw [attrGet, hdev]

/-- A device that is somewhere is written through its bus. -/
theorem attrSet_eq (hdev : dev.bus = some b) (path : List String) (value : Sent V) :
    attrSet dev path value = .ok (.attrSet b.server (b.path ++ dev.id :: path) value) := by
  rw [attrSet, hdev]

/-- An element is named first, which may fail; then there is nothing to ask for. -/
theorem obeys_element {num : Bool} {i : Int} {use : Use V} {f : String → Except Exc (Request V)}
    (hx : Stands d (some num) x) (hi : use.index = some i)
    (hf : ∀ idx, ∃ req, f idx = .ok req ∧
      Demands v.typ b.server (b.path ++ dev.id :: (p ++ [x ++ "." ++ idx])) use req) :
    Obeys (elementName num i >>= f) (Sends p d v b dev.id use) := by
  cases hname : elementName num i with
  | ok idx =>
      obtain ⟨req, hreq, hdemands⟩ := hf idx
      show Obeys (f idx) _
      rw [hreq]
      exact ⟨_, .element hx hi ((named_iff num i idx).mpr hname), hdemands⟩
  | error e =>
      refine ⟨elementName_eq_error hname, ?_⟩
      rintro req ⟨leaf, haddress, -⟩
      cases haddress with
      | value hx' => exact nomatch (hx.unique hx').1
      | all _ hi' => exact nomatch hi.symm.trans hi'
      | element hx' hi' hidx =>
          obtain rfl := Option.some.inj (hx.unique hx').1
          obtain rfl := Option.some.inj (hi.symm.trans hi')
          exact nomatch hname.symm.trans ((named_iff num i _).mp hidx)

/-- **The request** of an accessor, for what it is there for. -/
theorem sends_request {n : String} {a : Accessor} (ha : Offers p d v n a) (hdev : dev.bus = some b)
    {use : Use V} (huse : a.kind.Takes use) :
    Obeys (a.request dev use) (Sends p d v b dev.id use) := by
  cases ha with
  | value hx | get hx =>
      cases use <;> try contradiction
      simp only [Accessor.request, attrGet_eq hdev]
      exact ⟨_, .value hx, by constructor⟩
  | set hx =>
      cases use <;> try contradiction
      simp only [Accessor.request, attrSet_eq hdev]
      exact ⟨_, .value hx, .set _⟩
  | all hx | getAll hx =>
      cases use <;> try contradiction
      simp only [Accessor.request, elementPath_append, attrGet_eq hdev]
      exact ⟨_, .all hx rfl, by constructor⟩
  | setAll hx =>
      cases use <;> try contradiction
      simp only [Accessor.request, elementPath_append, attrSet_eq hdev]
      exact ⟨_, .all hx rfl, .setAll _⟩
  | items hx =>
      cases use <;> try contradiction
      all_goals
        simp only [Accessor.request, elementPath_append, attrGet_eq hdev, attrSet_eq hdev]
        exact obeys_element hx rfl fun idx => ⟨_, rfl, by constructor⟩
  | getAt hx =>
      cases use <;> try contradiction
      simp only [Accessor.request, elementPath_append, attrGet_eq hdev]
      exact obeys_element hx rfl fun idx => ⟨_, rfl, .getAt _⟩
  | setAt hx =>
      cases use <;> try contradiction
      simp only [Accessor.request, elementPath_append, attrSet_eq hdev]
      exact obeys_element hx rfl fun idx => ⟨_, rfl, .setAt _ _⟩

end Requests

end Struct

end AsyncOwfs
