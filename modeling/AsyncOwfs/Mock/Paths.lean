import AsyncOwfs.Mock.Tree

/-!
# AsyncOwfs.Mock.Paths

What the server makes of any path whatever: the components that are left of it, and what
is there.

A walk ends at a node, at a key that is missing, or at a leaf that is not yet the end of
the path (`Tree.Blocked`); the loops raise a `KeyError` for the one and a `TypeError` for
the other.
-/

namespace AsyncOwfs

namespace Mock

/-! ## Components -/

/-- The components that the server finds in a path that a client has encoded. -/
def parts (path : List String) : List String :=
  (((("/" ++ "/".intercalate path).toList.rdropWhile (· = Char.ofNat 0)).splitOn '/').map
    String.ofList).filter (· ≠ "")

/-- NUL characters are NUL bytes. -/
theorem rdropWhile_encode (s : String) :
    (Utf8.encode s).rdropWhile (· = 0) =
      Utf8.encode (String.ofList (s.toList.rdropWhile (· = Char.ofNat 0))) := by
  rw [Utf8.encode_eq_flatMap, Utf8.encode_eq_flatMap, String.toList_ofList]
  induction s.toList using List.reverseRecOn with
  | nil => rfl
  | append_singleton cs c ih =>
      rw [List.flatMap_append, List.flatMap_singleton]
      by_cases hc : c = Char.ofNat 0
      · have hnul : String.utf8EncodeChar (Char.ofNat 0) = [0] := by decide
        rw [hc, hnul, List.rdropWhile_concat_pos _ _ _ (by decide),
          List.rdropWhile_concat_pos _ _ _ (by decide), ih]
      · have hlast : ∀ hne, ¬ decide ((cs.flatMap String.utf8EncodeChar ++
            String.utf8EncodeChar c).getLast hne = 0) = true := by
          intro hne h
          rw [decide_eq_true_eq, List.getLast_append_of_ne_nil _ String.utf8EncodeChar_ne_nil] at h
          have hmem : (0 : UInt8) ∈ String.utf8EncodeChar c := h ▸ List.getLast_mem _
          have hzero := Utf8.toNat_eq_of_mem_utf8EncodeChar hmem (by decide)
          exact hc (by rw [← Char.ofNat_toNat c, hzero]; rfl)
        rw [List.rdropWhile_eq_self_iff.mpr hlast, List.rdropWhile_concat_neg _ _ _ (by simpa using hc),
          List.flatMap_append, List.flatMap_singleton]

theorem components_of_path (path : List String) :
    components (rstripNul (encodePath path)) = (parts path).map Utf8.encode := by
  have hstrip : rstripNul (encodePath path) = Utf8.encode (String.ofList
      (("/" ++ "/".intercalate path).toList.rdropWhile (· = Char.ofNat 0))) := by
    rw [← rdropWhile_encode]
    exact List.rdropWhile_concat_pos _ _ _ (by decide)
  rw [hstrip, components, Utf8.splitOn_encode (by decide), String.toList_ofList, List.filter_map]
  congr 1
  apply List.filter_congr
  intro s hs
  simp

/-- Components that survive being joined and split are the parts. -/
theorem parts_of_valid {path : List String} (h : ValidPath path) : parts path = path := by
  have hmap := (components_of_path path).symm.trans (components_encodePath h)
  exact List.map_injective_iff.mpr (fun _ _ => Utf8.encode_injective) hmap

/-! ## Nodes -/

namespace Tree

/-- The node that a path leads to. -/
def at? (t : Tree) : Node → List String → Option Node
  | n, [] => some n
  | .dict i, k :: ks => ((t.dicts i).get? k).bind fun n => at? t n ks
  | _, _ :: _ => none

/-- The path goes on behind a leaf. -/
def Blocked (t : Tree) : Node → List String → Prop
  | _, [] => False
  | .dict i, k :: ks => ∃ n, (t.dicts i).get? k = some n ∧ Blocked t n ks
  | _, _ :: _ => True

end Tree

section Walks

variable {t : Tree} {n m : Node} {ks : List String}

/-- One step of the loop. -/
theorem descend_cons (t : Tree) (n : Node) (k : String) (ks : List String) :
    descend t n ((k :: ks).map Utf8.encode) =
      (orNoEntry (t.item n k)).bind fun res => descend t res (ks.map Utf8.encode) := by
  rw [List.map_cons, descend, decode_encode]
  rfl

/-- **A walk to a node**. -/
theorem descend_of_at? (h : t.at? n ks = some m) : descend t n (ks.map Utf8.encode) = .ok m := by
  induction ks generalizing n with
  | nil =>
      cases n <;> exact congrArg Except.ok (Option.some.inj h)
  | cons k ks ih =>
      cases n with
      | dict i =>
          obtain ⟨n', hn', h⟩ := Option.bind_eq_some_iff.mp h
          rw [descend_cons, Tree.item, hn']
          exact ih h
      | _ => contradiction

/-- **A walk through a leaf**. -/
theorem descend_of_blocked (h : t.Blocked n ks) :
    descend t n (ks.map Utf8.encode) = .error .typeError := by
  induction ks generalizing n with
  | nil => cases n <;> contradiction
  | cons k ks ih =>
      rw [descend_cons]
      cases n with
      | dict i =>
          obtain ⟨n', hn', h⟩ := h
          rw [Tree.item, hn']
          exact ih h
      | _ => rfl

/-- **A walk to nowhere**. -/
theorem descend_of_missing (h : t.at? n ks = none) (hb : ¬ t.Blocked n ks) :
    descend t n (ks.map Utf8.encode) = .error noEntryError := by
  induction ks generalizing n with
  | nil => cases n <;> contradiction
  | cons k ks ih =>
      rw [descend_cons]
      cases n with
      | dict i =>
          rw [Tree.item]
          cases hn' : (t.dicts i).get? k with
          | none => rfl
          | some n' =>
              rw [Tree.at?, hn', Option.bind_some] at h
              exact ih h fun hb' => hb ⟨n', hn', hb'⟩
      | _ => exact absurd trivial hb

theorem at?_append (t : Tree) (n : Node) (ks ls : List String) :
    t.at? n (ks ++ ls) = (t.at? n ks).bind fun m => t.at? m ls := by
  induction ks generalizing n with
  | nil => cases n <;> rfl
  | cons k ks ih =>
      cases n with
      | dict i =>
          show ((t.dicts i).get? k).bind _ = (((t.dicts i).get? k).bind _).bind _
          cases (t.dicts i).get? k with
          | none => rfl
          | some n => exact ih n
      | _ => rfl

/-- The loop of `write` is the other one up to the last component. -/
theorem descendLast_eq (l : String) :
    descendLast t n (some l) (ks.map Utf8.encode) =
      (descend t n ((l :: ks).dropLast.map Utf8.encode)).map fun res =>
        (res, (l :: ks).getLast?) := by
  induction ks generalizing n l with
  | nil => rfl
  | cons k ks ih =>
      rw [List.dropLast_cons_cons, List.getLast?_cons_cons, List.map_cons, List.map_cons,
        descendLast, descend, decode_encode, decode_encode]
      show ((orNoEntry (t.item n l)).bind fun res => descendLast t res (some k) _) =
        ((orNoEntry (t.item n l)).bind _).map _
      cases orNoEntry (t.item n l) with
      | error e => rfl
      | ok res => exact ih k

end Walks

end Mock

end AsyncOwfs
