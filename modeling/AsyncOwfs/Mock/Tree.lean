import AsyncOwfs.Mock

/-!
# AsyncOwfs.Mock.Tree

What the server makes of the paths that a client sends, and what an assignment
leaves as it was.

A path leads to a *slot*, a key of some dictionary (`Tree.slot`); reading and writing
are about slots, since a dictionary that is entered twice has two paths to each of
its keys.  In a tree without sharing the paths are as good (`slot_inj`).
-/

namespace AsyncOwfs

namespace Mock

/-! ## The path of a request -/

/-- Components that survive being joined and split: not empty, without slash and
NUL. -/
def ValidPath (path : List String) : Prop :=
  ∀ k ∈ path, k ≠ "" ∧ '/' ∉ k.toList ∧ Char.ofNat 0 ∉ k.toList

instance (path : List String) : Decidable (ValidPath path) :=
  inferInstanceAs (Decidable (∀ k ∈ path, _))

/-- A path is sent with a slash in front of each part and a zero at the end. -/
theorem encodePath_eq (path : List String) :
    encodePath path = 0x2F :: [0x2F].intercalate (path.map Utf8.encode) ++ [0] := by
  have hslash : Utf8.encode "/" = [0x2F] := by decide
  show Utf8.encode ("/" ++ "/".intercalate path) ++ [0] = _
  rw [Utf8.encode_append, Utf8.encode_intercalate, hslash]
  rfl

/-- The path in front of a NUL is split into its components. -/
theorem components_encodePath {path : List String} (h : ValidPath path) :
    components (rstripNul (encodePath path)) = path.map Utf8.encode := by
  have hnul : (0 : UInt8) ∉ 0x2F :: [0x2F].intercalate (path.map Utf8.encode) := by
    rw [List.mem_cons]
    rintro (h0 | h0)
    · exact absurd h0 (by decide)
    · rcases Utf8.mem_intercalate h0 with h0 | ⟨b, hb, h0⟩
      · exact absurd h0 (by decide)
      · obtain ⟨k, hk, rfl⟩ := List.mem_map.mp hb
        exact (h k hk).2.2 (Utf8.mem_encode_of_lt h0 (by decide))
  have hstrip : rstripNul (encodePath path) =
      0x2F :: [0x2F].intercalate (path.map Utf8.encode) := by
    rw [encodePath_eq, rstripNul, List.rdropWhile_concat_pos _ _ _ (by decide),
      List.rdropWhile_eq_self_iff]
    intro hne hlast
    rw [decide_eq_true_eq] at hlast
    exact hnul (hlast ▸ List.getLast_mem hne)
  rw [hstrip, components]
  cases path with
  | nil => decide
  | cons k path =>
      have hcons : (0x2F : UInt8) :: [0x2F].intercalate ((k :: path).map Utf8.encode) =
          [0x2F].intercalate (("" :: k :: path).map Utf8.encode) := by
        show _ = [0x2F].intercalate (Utf8.encode "" :: (k :: path).map Utf8.encode)
        rw [List.map_cons, List.intercalate_cons_cons]
        rfl
      have hsep : ∀ s ∈ "" :: k :: path, Char.ofNat (0x2F : UInt8).toNat ∉ s.toList := by
        intro s hs
        rcases List.mem_cons.mp hs with rfl | hs
        · exact List.not_mem_nil
        · exact (h s hs).2.1
      have hne : ∀ b ∈ (k :: path).map Utf8.encode, decide (b ≠ []) = true := by
        intro b hb
        obtain ⟨s, hs, rfl⟩ := List.mem_map.mp hb
        rw [decide_eq_true_eq]
        exact fun h0 => (h s hs).1 (Utf8.encode_eq_nil_iff.mp h0)
      rw [hcons, Utf8.splitOn_intercalate_encode (by decide) (List.cons_ne_nil _ _) hsep,
        List.map_cons]
      exact (List.filter_cons_of_neg (by decide)).trans (List.filter_eq_self.mpr hne)

/-! ## Slots -/

namespace Tree

/-- The slot that a path leads to from a node: the dictionary that the last component
is looked up in, and that component. -/
def slotFrom (t : Tree) : Node → List String → Option (Nat × String)
  | .dict i, [k] => some (i, k)
  | .dict i, k :: k' :: ks => ((t.dicts i).get? k).bind fun n => slotFrom t n (k' :: ks)
  | _, _ => none

/-- The slot that a path leads to from the root. -/
def slot (t : Tree) (path : List String) : Option (Nat × String) :=
  t.slotFrom (.dict t.root) path

/-- A path leads to a leaf: the slot, and what is in it. -/
structure LeafAt (t : Tree) (path : List String) (i : Nat) (k : String) (n : Node) : Prop where
  slot_eq : t.slot path = some (i, k)
  get?_eq : (t.dicts i).get? k = some n
  isLeaf : n.isLeaf = true

/-- A path leads to a leaf. -/
def IsLeaf (t : Tree) (path : List String) : Prop := ∃ i k n, t.LeafAt path i k n

/-- A path with more parts goes through a dictionary. -/
theorem slotFrom_cons_cons {t : Tree} {n : Node} {k k' : String} {ks : List String}
    {s : Nat × String} (h : t.slotFrom n (k :: k' :: ks) = some s) :
    ∃ j m, n = .dict j ∧ (t.dicts j).get? k = some m ∧ t.slotFrom m (k' :: ks) = some s := by
  cases n with
  | dict j =>
      obtain ⟨m, hm, hs⟩ := Option.bind_eq_some_iff.mp h
      exact ⟨j, m, rfl, hm, hs⟩
  | _ => exact nomatch h

/-- The last part is a key. -/
theorem slotFrom_singleton {t : Tree} {n : Node} {k : String} {s : Nat × String}
    (h : t.slotFrom n [k] = some s) : ∃ j, n = .dict j ∧ s = (j, k) := by
  cases n with
  | dict j => exact ⟨j, rfl, (Option.some.inj h).symm⟩
  | _ => exact nomatch h

end Tree

/-! ## Trees without sharing -/

/-- Every dictionary is entered once at most, and the root nowhere. -/
structure Tree.Unshared (t : Tree) : Prop where
  root : ∀ i k, (t.dicts i).get? k ≠ some (.dict t.root)
  once : ∀ {i j k l d}, (t.dicts i).get? k = some (.dict d) →
    (t.dicts j).get? l = some (.dict d) → i = j ∧ k = l

/-- The components that lead from the root to a dictionary, the last one first. -/
inductive Tree.Leads (t : Tree) : List String → Nat → Prop
  | root : Leads t [] t.root
  | step {ks : List String} {i d : Nat} {k : String} (h : Leads t ks i)
      (hk : (t.dicts i).get? k = some (.dict d)) : Leads t (k :: ks) d

/-- Without sharing, only one way leads to a dictionary. -/
theorem Tree.Leads.inj {t : Tree} (ht : t.Unshared) {ks ls : List String} {d : Nat}
    (h : t.Leads ks d) (h' : t.Leads ls d) : ks = ls := by
  induction h generalizing ls with
  | root =>
      cases h' with
      | root => rfl
      | step _ hl => exact absurd hl (ht.root _ _)
  | step _ hk ih =>
      cases h' with
      | root => exact absurd hk (ht.root _ _)
      | step hls hl =>
          obtain ⟨rfl, rfl⟩ := ht.once hk hl
          rw [ih hls]

/-- A slot is where its path leads. -/
theorem leads_of_slotFrom {t : Tree} {ks path : List String} {d i : Nat} {k : String}
    (h : t.Leads ks d) (hs : t.slotFrom (.dict d) path = some (i, k)) :
    ∃ ls, t.Leads ls i ∧ path.reverse ++ ks = k :: ls := by
  induction path generalizing ks d with
  | nil => exact nomatch hs
  | cons l path ih =>
      cases path with
      | nil =>
          obtain ⟨j, hj, heq⟩ := Tree.slotFrom_singleton hs
          obtain ⟨rfl, rfl⟩ := Prod.mk.inj heq
          injection hj with hj
          exact ⟨ks, hj ▸ h, rfl⟩
      | cons l' path =>
          obtain ⟨j, m, hj, hm, hs'⟩ := Tree.slotFrom_cons_cons hs
          injection hj with hj
          subst hj
          cases m with
          | dict e =>
              obtain ⟨ls, hls, heq⟩ := ih (.step h hm) hs'
              refine ⟨ls, hls, ?_⟩
              rw [List.reverse_cons, List.append_assoc]
              exact heq
          | _ => exact nomatch hs'

/-- **Without sharing a slot has one path.** -/
theorem slot_inj {t : Tree} (ht : t.Unshared) {path other : List String} {s : Nat × String}
    (h : t.slot path = some s) (h' : t.slot other = some s) : path = other := by
  obtain ⟨ks, hks, heq⟩ := leads_of_slotFrom .root (show t.slotFrom _ path = some (s.1, s.2) from h)
  obtain ⟨ls, hls, heq'⟩ :=
    leads_of_slotFrom .root (show t.slotFrom _ other = some (s.1, s.2) from h')
  rw [hks.inj ht hls] at heq
  rw [List.append_nil] at heq heq'
  exact List.reverse_injective (heq.trans heq'.symm)

/-! ## Loops over a path -/

/-- What has been encoded can be decoded. -/
theorem decode_encode (s : String) : decode (Utf8.encode s) = .ok s := by
  rw [decode, Utf8.decode?_encode]

/-- The loop of `read` ends with the lookup in the slot. -/
theorem descend_of_slot {t : Tree} {n : Node} {path : List String} {i : Nat} {k : String}
    (h : t.slotFrom n path = some (i, k)) :
    descend t n (path.map Utf8.encode) = orNoEntry (t.item (.dict i) k) := by
  induction path generalizing n with
  | nil => cases n <;> exact nomatch h
  | cons l path ih =>
      cases path with
      | nil =>
          obtain ⟨j, rfl, heq⟩ := Tree.slotFrom_singleton h
          obtain ⟨rfl, rfl⟩ := Prod.mk.inj heq
          show ((decode (Utf8.encode k)).bind fun k =>
            (orNoEntry (t.item (.dict i) k)).bind Except.ok) = _
          rw [decode_encode]
          exact bind_pure (orNoEntry (t.item (.dict i) k))
      | cons l' path =>
          obtain ⟨j, m, rfl, hm, hs⟩ := Tree.slotFrom_cons_cons h
          rw [List.map_cons, descend, decode_encode]
          show ((orNoEntry (t.item (.dict j) l)).bind fun res => descend t res _) = _
          rw [Tree.item, hm]
          exact ih hs

/-- The loop of `write` ends in front of it. -/
theorem descendLast_of_slot {t : Tree} {n : Node} {l : String} {path : List String} {i : Nat}
    {k : String} (h : t.slotFrom n (l :: path) = some (i, k)) :
    descendLast t n (some l) (path.map Utf8.encode) = .ok (.dict i, some k) := by
  induction path generalizing n l with
  | nil =>
      obtain ⟨j, rfl, heq⟩ := Tree.slotFrom_singleton h
      obtain ⟨rfl, rfl⟩ := Prod.mk.inj heq
      rfl
  | cons l' path ih =>
      obtain ⟨j, m, rfl, hm, hs⟩ := Tree.slotFrom_cons_cons h
      rw [List.map_cons, descendLast, Tree.item, hm]
      show ((decode (Utf8.encode l')).bind fun k => descendLast t m (some k) _) = _
      rw [decode_encode]
      exact ih hs

/-! ## Requests for a leaf -/

/-- **`read`** of a leaf returns it. -/
theorem read_of_leafAt {t : Tree} {path : List String} {i : Nat} {k : String} {n : Node}
    (hv : ValidPath path) (h : t.LeafAt path i k n) : read t (encodePath path) = n.render := by
  rw [read, components_encodePath hv, descend_of_slot h.slot_eq, Tree.item, h.get?_eq]
  rfl

/-- A slice from a negative index is what stands at the end. -/
theorem sliceFrom_append (a : Bytes) {b : Bytes} (hb : b ≠ []) :
    sliceFrom (-b.length) (a ++ b) = b := by
  have hpos : 0 < b.length := List.length_pos_iff.mpr hb
  have hneg : ¬ (0 ≤ -(b.length : Int)) := by omega
  rw [sliceFrom, if_neg hneg, Int.neg_neg, Int.toNat_natCast, List.length_append,
    Nat.add_sub_cancel, List.drop_left' rfl]

/-- A slice up to a negative index is what stands in front of the end. -/
theorem sliceTo_append (a : Bytes) {b : Bytes} (hb : b ≠ []) :
    sliceTo (-b.length) (a ++ b) = a := by
  have hpos : 0 < b.length := List.length_pos_iff.mpr hb
  have hneg : ¬ (0 ≤ -(b.length : Int)) := by omega
  rw [sliceTo, if_neg hneg, Int.neg_neg, Int.toNat_natCast, List.length_append,
    Nat.add_sub_cancel, List.take_left' rfl]

/-- **`write`** of a value that is not empty replaces the leaf. -/
theorem write_of_leafAt {t : Tree} {path : List String} {i : Nat} {k v : String} {n : Node}
    (hv : ValidPath path) (h : t.LeafAt path i k n) (hne : Utf8.encode v ≠ []) :
    write t (encodePath path ++ Utf8.encode v) (Utf8.encode v).length =
      .ok (t.put i k (.text v)) := by
  rw [write, sliceFrom_append _ hne, sliceTo_append _ hne, decode_encode, components_encodePath hv]
  cases path with
  | nil => exact absurd h.slot_eq.symm (Option.some_ne_none _)
  | cons l path =>
      have hloop : descendLast t (.dict t.root) none ((l :: path).map Utf8.encode) =
          .ok (.dict i, some k) := by
        rw [List.map_cons, descendLast, decode_encode]
        exact descendLast_of_slot h.slot_eq
      show ((descendLast t (.dict t.root) none ((l :: path).map Utf8.encode)).bind _) = _
      rw [hloop]
      show ((t.contains (.dict i) k).bind fun found =>
        if found then t.assign (.dict i) k v else .error noEntryError) = _
      rw [Tree.contains, h.get?_eq]
      rfl

/-- With no length to count from, `write` finds no path, wherever it leads. -/
theorem write_zero (t : Tree) (data : Bytes) :
    write t data 0 = .error .unicodeDecodeError ∨ write t data 0 = .error .assertionError := by
  rw [write]
  cases hd : decode (sliceFrom (-0) data) with
  | error e =>
      refine .inl ?_
      unfold decode at hd
      split at hd
      · injection hd with hd
        rw [← hd]
        rfl
      · exact nomatch hd
  | ok val => exact .inr rfl

/-! ## What an assignment leaves as it was -/

/-- Nodes that no walk tells apart: the same dictionary, or two leaves. -/
def Node.Alike (a b : Node) : Prop := a = b ∨ (a.isLeaf = true ∧ b.isLeaf = true)

/-- Walks that fail alike, or end at nodes that are alike. -/
inductive SameEnd : Except Exc Node → Except Exc Node → Prop
  | error (e : Exc) : SameEnd (.error e) (.error e)
  | ok {a b : Node} (h : a.Alike b) : SameEnd (.ok a) (.ok b)

section Put

variable {t : Tree} {i : Nat} {k : String} {n m : Node}

/-- There is nothing below a leaf. -/
theorem item_of_isLeaf (hn : n.isLeaf = true) (l : String) : t.item n l = .error .typeError := by
  cases n with
  | dict j => exact absurd hn Bool.false_ne_true
  | _ => rfl

/-- A leaf has no keys. -/
theorem keys_of_isLeaf (hn : n.isLeaf = true) : t.keys n = .error .attributeError := by
  cases n with
  | dict j => exact absurd hn Bool.false_ne_true
  | _ => rfl

/-- No path goes through a leaf. -/
theorem slotFrom_of_isLeaf (hn : n.isLeaf = true) (path : List String) :
    t.slotFrom n path = none := by
  cases n with
  | dict j => exact absurd hn Bool.false_ne_true
  | _ => cases path <;> rfl

/-- One dictionary changes. -/
theorem dicts_put (t : Tree) (i j : Nat) (k : String) (m : Node) :
    (t.put i k m).dicts j = if j = i then (t.dicts i).set k m else t.dicts j :=
  Function.update_apply t.dicts i _ j

/-- One slot changes. -/
theorem get?_put (t : Tree) (i j : Nat) (k l : String) (m : Node) :
    ((t.put i k m).dicts j).get? l =
      if j = i ∧ l = k then some m else (t.dicts j).get? l := by
  rw [dicts_put]
  by_cases hj : j = i
  · subst hj
    rw [if_pos rfl, Dict.get?_set]
    simp only [true_and]
  · rw [if_neg hj, if_neg fun h => hj h.1]

/-- A key that is there already makes no new one. -/
theorem keys_put (h : (t.dicts i).get? k = some n) (j : Nat) :
    ((t.put i k m).dicts j).keys = (t.dicts j).keys := by
  rw [dicts_put]
  by_cases hj : j = i
  · rw [if_pos hj, Dict.keys_set h, hj]
  · rw [if_neg hj]

/-- A listing does not depend on what is in the leaves. -/
theorem keys_put_alike (h : (t.dicts i).get? k = some n) {a b : Node} (hab : a.Alike b) :
    (t.put i k m).keys b = t.keys a := by
  rcases hab with rfl | ⟨ha, hb⟩
  · cases a with
    | dict j => rw [Tree.keys, Tree.keys, keys_put h]
    | _ => rfl
  · rw [keys_of_isLeaf ha, keys_of_isLeaf hb]

variable (h : (t.dicts i).get? k = some n) (hn : n.isLeaf = true) (hm : m.isLeaf = true)

include h hn hm

/-- What a key maps to is what it mapped to, or there was and is a leaf. -/
theorem get?_put_alike {j : Nat} {l : String} :
    (t.dicts j).get? l = ((t.put i k m).dicts j).get? l ∨
      ∃ a b, (t.dicts j).get? l = some a ∧ ((t.put i k m).dicts j).get? l = some b ∧
        a.Alike b := by
  rw [get?_put]
  by_cases hjl : j = i ∧ l = k
  · obtain ⟨rfl, rfl⟩ := hjl
    exact .inr ⟨n, m, h, if_pos ⟨rfl, rfl⟩, .inr ⟨hn, hm⟩⟩
  · exact .inl (if_neg hjl).symm

/-- One step of a walk. -/
theorem item_put_alike {a b : Node} (hab : a.Alike b) (l : String) :
    SameEnd (orNoEntry (t.item a l)) (orNoEntry ((t.put i k m).item b l)) := by
  rcases hab with rfl | ⟨ha, hb⟩
  · cases a with
    | dict j =>
        rw [Tree.item, Tree.item]
        rcases get?_put_alike h hn hm (j := j) (l := l) with heq | ⟨a, b, ha, hb, hab⟩
        · rw [← heq]
          cases (t.dicts j).get? l with
          | none => exact .error noEntryError
          | some a => exact .ok (.inl rfl)
        · rw [ha, hb]
          exact .ok hab
    | _ => exact .error .typeError
  · rw [item_of_isLeaf ha, item_of_isLeaf hb]
    exact .error .typeError

/-- A whole walk. -/
theorem descend_put_alike {a b : Node} (hab : a.Alike b) (path : List Bytes) :
    SameEnd (descend t a path) (descend (t.put i k m) b path) := by
  induction path generalizing a b with
  | nil => exact .ok hab
  | cons l path ih =>
      rw [descend, descend]
      cases decode l with
      | error e => exact .error e
      | ok l =>
          show SameEnd ((orNoEntry (t.item a l)).bind _)
            ((orNoEntry ((t.put i k m).item b l)).bind _)
          have hstep := item_put_alike h hn hm hab l
          generalize orNoEntry (t.item a l) = r at hstep ⊢
          generalize orNoEntry ((t.put i k m).item b l) = r' at hstep ⊢
          cases hstep with
          | error e => exact .error e
          | ok hab' => exact ih hab'

/-- **Directories**: no listing changes, whatever the path. -/
theorem dirall_put (data : Bytes) : dirall (t.put i k m) data = dirall t data := by
  rw [dirall, dirall]
  show (descend (t.put i k m) (.dict t.root) (components (rstripNul data))).bind _ =
    (descend t (.dict t.root) (components (rstripNul data))).bind _
  have hwalk := descend_put_alike h hn hm (.inl rfl : Node.Alike (.dict t.root) (.dict t.root))
    (components (rstripNul data))
  generalize descend t (.dict t.root) (components (rstripNul data)) = r at hwalk ⊢
  generalize descend (t.put i k m) (.dict t.root) (components (rstripNul data)) = r' at hwalk ⊢
  cases hwalk with
  | error e => rfl
  | ok hab =>
      exact congrArg (fun r : Except Exc (List String) => r.bind fun keys =>
        .ok (listing (components (rstripNul data)) keys)) (keys_put_alike h hab)

/-- Paths lead to where they led. -/
theorem slotFrom_put {a b : Node} (hab : a.Alike b) (path : List String) :
    (t.put i k m).slotFrom b path = t.slotFrom a path := by
  induction path generalizing a b with
  | nil => cases a <;> cases b <;> rfl
  | cons l path ih =>
      rcases hab with rfl | ⟨ha, hb⟩
      · cases a with
        | dict j =>
            cases path with
            | nil => rfl
            | cons l' path =>
                show (((t.put i k m).dicts j).get? l).bind _ = ((t.dicts j).get? l).bind _
                rcases get?_put_alike h hn hm (j := j) (l := l) with heq | ⟨a, b, ha, hb, hab⟩
                · rw [← heq]
                  cases (t.dicts j).get? l with
                  | none => rfl
                  | some a => exact ih (.inl rfl)
                · rw [ha, hb]
                  exact ih hab
        | _ => rfl
      · rw [slotFrom_of_isLeaf ha, slotFrom_of_isLeaf hb]

/-- **Leaves**: what is in another slot stays there. -/
theorem Tree.LeafAt.put {path : List String} {j : Nat} {l : String} {a : Node}
    (hleaf : t.LeafAt path j l a) (hne : (j, l) ≠ (i, k)) :
    (t.put i k m).LeafAt path j l a where
  slot_eq := (slotFrom_put h hn hm (.inl rfl) path).trans hleaf.slot_eq
  get?_eq := by
    rw [get?_put, if_neg fun hjl => hne (Prod.ext hjl.1 hjl.2)]
    exact hleaf.get?_eq
  isLeaf := hleaf.isLeaf

/-- The slot itself has the new leaf. -/
theorem Tree.LeafAt.put_self {path : List String} (hslot : t.slot path = some (i, k)) :
    (t.put i k m).LeafAt path i k m where
  slot_eq := (slotFrom_put h hn hm (.inl rfl) path).trans hslot
  get?_eq := by rw [get?_put, if_pos ⟨rfl, rfl⟩]
  isLeaf := hm

end Put

/-- A leaf is no dictionary that could be entered. -/
theorem Tree.Unshared.put {t : Tree} (ht : t.Unshared) {i : Nat} {k : String} {m : Node}
    (hm : m.isLeaf = true) : (t.put i k m).Unshared := by
  have hold {j d : Nat} {l : String} (h : ((t.put i k m).dicts j).get? l = some (.dict d)) :
      (t.dicts j).get? l = some (.dict d) := by
    rw [get?_put] at h
    split at h
    · rw [Option.some.injEq] at h
      subst h
      contradiction
    · exact h
  exact ⟨fun j l h => ht.root j l (hold h), fun h h' => ht.once (hold h) (hold h')⟩

end Mock

end AsyncOwfs
