import AsyncOwfs.Mock.Listing
import AsyncOwfs.Struct.Provided
import AsyncOwfs.Struct.Retry

/-!
# AsyncOwfs.Struct.Loading

`setup_struct` over a connection to `some_server`: the requests of `setup_accessors`, one
after the other, and what is done with each reply.

`Struct.setupAccessors` knows beforehand what the server will say.  Here it is not known:
whether a name is that of a directory is found out by reading it.  Both come to the same
(`setupStruct_served`), when what is sent fits.
-/

namespace AsyncOwfs

namespace Struct

open Hoare Mock Protocol

/-! ## Requests -/

/-- The session with the server, and the class that is set up over it. -/
structure Client where
  session : Mock.Session
  classes : Classes

abbrev Loader := EStateM Exc Client

namespace Client

def onClasses {α : Type} (x : Method α) : Loader α :=
  zoom classes (fun c t => { t with classes := c }) x

/-- `chat`, and the reply that it returns or raises.  The connection cuts as it likes. -/
def request (l : Nat → Link) (chat : Link → Mock.Session → Except Exc ValueEvent × Mock.Session) :
    Loader Value := do
  let t ← get
  let r := chat (l t.classes.asked) t.session
  set { session := r.2, classes := { t.classes with asked := t.classes.asked + 1 } : Client }
  ofExcept (answer r.1)

/-- `await server.dir(*path)` -/
def dir (l : Nat → Link) (path : List String) : Loader (List String) := do
  match ← request l fun l s => s.dir l path with
  | .names entries => return entries
  | .bytes _ => throw .typeError

/-- `await server.attr_get(*path)` -/
def attrGet (l : Nat → Link) (path : List String) : Loader Bytes := do
  match ← request l fun l s => s.attrGet l path with
  | .bytes data => return data
  | .names _ => throw .attributeError

/-- `try`, with what was raised for the `except` and the `else`. -/
def attempt {α : Type} (x : Loader α) : Loader (Except Exc α) :=
  tryCatch (Except.ok <$> x) fun e => return .error e

end Client

/-! ## `setup_accessors` -/

section Setup

variable (extra : List String → String → Bool) (l : Nat → Link) (typ : String)

/-- One pass of the loop; `below` is the call for a subdirectory. -/
def loadEntry (below : List String → Loader Unit) (p : List String) (d : String) :
    Loader Unit := do
  match ← Client.attempt (Client.attrGet l ("structure" :: typ :: (p ++ [d]))) with
  | .ok v => Client.onClasses (exec extra quiet (.file p d v))
  | .error e =>
    if e = .owfsReply 21 then do
      Client.onClasses (exec extra quiet (.subPath p d))
      below (p ++ [d])
    else throw e

/-- `setup_accessors`, at most `fuel` calls deep. -/
def load : Nat → List String → Loader Unit
  | 0, _ => throw (.runtimeError "maximum recursion depth exceeded")
  | fuel + 1, p => do
    Client.onClasses (exec extra quiet (.reset p))
    let ds ← Client.dir l ("structure" :: typ :: p)
    ds.forM (loadEntry extra l typ (load fuel) p)

end Setup

/-- `"%02X" % family` -/
def familyCode (family : Int) : String :=
  let digits := (Nat.toDigits 16 family.natAbs).map Char.toUpper
  if family < 0 then String.ofList ('-' :: digits)
  else if digits.length < 2 then String.ofList ('0' :: digits)
  else String.ofList digits

/-- `Device.setup_struct`, over the session. -/
def loadStruct (extra : List String → String → Bool) (l : Nat → Link) (fuel : Nat) (family : Int) :
    Loader Unit := do
  let t ← get
  if t.classes.didSetup ≠ .no then return ()
  else
    Client.onClasses (modify fun s => { s with didSetup := .running })
    try load extra l (familyCode family) fuel []
    catch e =>
      Client.onClasses (modify fun s => { s with didSetup := .no })
      throw e
    Client.onClasses (modify fun s => { s with didSetup := .done })

/-! ## What the server has -/

/-- The files and directories of a structure directory, in order. -/
def Tree.entries : Tree → List String
  | .nil => []
  | .file d _ rest | .dir d _ rest => d :: rest.entries

/-- How many calls of `setup_accessors` go on at once. -/
def Tree.depth : Tree → Nat
  | .nil => 1
  | .file _ _ rest => rest.depth
  | .dir _ sub rest => max (sub.depth + 1) rest.depth

section Served

variable (t : Mock.Tree) (typ : String)

/-- The dictionary has these names, and its listing and the request for it fit. -/
structure Listed (ds : List String) (i : Nat) (p : List String) : Prop where
  sorted : (t.dicts i).keys.insertionSort (· ≤ ·) = ds
  names : ValidNames ds
  request : (encodePath ("structure" :: typ :: p)).length ≤ maxLength
  reply : (listing (("structure" :: typ :: p).map Utf8.encode) (t.dicts i).keys ++ [0]).length ≤
    maxLength

/-- The dictionary has what the tree says. -/
def Serves : Tree → Nat → List String → Prop
  | .nil, _, _ => True
  | .file d reply rest, i, p =>
    (∃ n, (t.dicts i).get? d = some n ∧ n.render = .ok reply) ∧
      (encodePath ("structure" :: typ :: (p ++ [d]))).length ≤ maxLength ∧
      (reply ++ [0]).length ≤ maxLength ∧ Serves rest i p
  | .dir d sub rest, i, p =>
    (∃ j, (t.dicts i).get? d = some (.dict j) ∧ Listed t typ sub.entries j (p ++ [d]) ∧
      Serves sub j (p ++ [d])) ∧ Serves rest i p

/-- The server waits for a request, and has this tree. -/
def Ready (s : Client) : Prop := s.session.Idle ∧ s.session.tree = t

end Served

/-! ## Requests that are answered -/

section Answered

variable {t : Mock.Tree} {typ : String} {s : Client}

open Client

/-- What `chat` returns is what the request returns. -/
theorem request_of_chat (l : Nat → Link) (chat : Link → Mock.Session → Except Exc ValueEvent × Mock.Session)
    {r : Except Exc Value} {session : Mock.Session}
    (h : chat (l s.classes.asked) s.session = (.ok (some r), session)) :
    Outcome (request l chat) s r ⟨session, { s.classes with asked := s.classes.asked + 1 }⟩ := by
  cases r <;> simp only [Outcome, request, get_bind, h] <;> rfl

/-- A request that is answered changes nothing but the count. -/
theorem exec_ask (extra : List String → String → Bool) (c : Classes) :
    exec extra quiet .ask c = .ok ⟨⟩ { c with asked := c.asked + 1 } := rfl

/-- The listing of a directory. -/
theorem dir_of_listed (h : Ready t s) {ds p : List String} {i : Nat} (l : Nat → Link)
    (hp : ValidNames ("structure" :: typ :: p))
    (hat : t.at? (.dict t.root) ("structure" :: typ :: p) = some (.dict i))
    (hds : Listed t typ ds i p) :
    ∃ s', Client.dir l ("structure" :: typ :: p) s = .ok ds s' ∧ Ready t s' ∧
      s'.classes = { s.classes with asked := s.classes.asked + 1 } := by
  obtain ⟨hidle, rfl⟩ := h
  obtain ⟨session, hdir, hidle', htree⟩ :=
    dir_of_at? hidle hp hat hds.sorted hds.names hds.request hds.reply (l s.classes.asked)
  refine ⟨⟨session, { s.classes with asked := s.classes.asked + 1 }⟩, ?_, ⟨hidle', htree⟩, rfl⟩
  have hrequest := request_of_chat l (fun l s => s.dir l _) hdir
  rw [Outcome] at hrequest
  rw [Client.dir, bind_of_ok hrequest]
  rfl

/-- What is found out by reading a name. -/
theorem attempt_attrGet (h : Ready t s) {path : List String} {n : Node} (l : Nat → Link)
    (hne : path ≠ []) (hpath : ValidPath path) (hat : t.at? (.dict t.root) path = some n)
    (hlen : (encodePath path).length ≤ maxLength)
    (hfits : ∀ res, n.render = .ok res → (res ++ [0]).length ≤ maxLength) :
    ∃ s', attempt (Client.attrGet l path) s = .ok n.render s' ∧ Ready t s' ∧
      s'.classes = { s.classes with asked := s.classes.asked + 1 } := by
  obtain ⟨hidle, rfl⟩ := h
  obtain ⟨session, hget, hidle', htree⟩ :=
    attrGet_of_at? hidle hne hpath hat hlen hfits (l s.classes.asked)
  refine ⟨⟨session, { s.classes with asked := s.classes.asked + 1 }⟩, ?_, ⟨hidle', htree⟩, rfl⟩
  have hrequest := request_of_chat l (fun l s => s.attrGet l path) hget
  rw [attempt]
  cases hrender : n.render with
  | ok res =>
      rw [hrender, Except.map, Outcome] at hrequest
      refine tryCatch_of_ok ?_
      have hattr : Client.attrGet l path s =
          .ok res ⟨session, { s.classes with asked := s.classes.asked + 1 }⟩ := by
        rw [Client.attrGet, bind_of_ok hrequest]
        rfl
      simp only [Functor.map, EStateM.map, hattr]
  | error e =>
      rw [hrender, Except.map, Outcome] at hrequest
      refine tryCatch_of_error ?_
      have hattr : Client.attrGet l path s =
          .error e ⟨session, { s.classes with asked := s.classes.asked + 1 }⟩ := by
        rw [Client.attrGet, bind_of_error hrequest]
      simp only [Functor.map, EStateM.map, hattr]

/-! ## The same commands -/

variable {extra : List String → String → Bool}

/-- Over the session, what is done with the class is what the commands do. -/
abbrev Follows (t : Mock.Tree) (x : Loader Unit) (y : Method Unit) (s : Client) : Prop :=
  RefinesAt classes (Ready t) (fun _ _ => True) x y s

/-- What is done to the classes is done in the same way. -/
theorem follows_onClasses (h : Ready t s) (x : Method Unit) : Follows t (onClasses x) x s := by
  rw [Follows, RefinesAt, onClasses, wp_zoom, wp]
  cases hx : x s.classes with
  | ok a c => exact ⟨rfl, trivial, h⟩
  | error e c => exact ⟨rfl, trivial, h⟩

theorem Follows.bind {x : Loader Unit} {y : Method Unit} {f : Unit → Loader Unit}
    {g : Unit → Method Unit} (hx : Follows t x y s) (hf : ∀ s', Ready t s' → Follows t (f ()) (g ()) s') :
    Follows t (x >>= f) (y >>= g) s :=
  RefinesAt.bind (fun _ _ _ _ _ => trivial) hx fun _ s' _ hs' => hf s' hs'

/-- A request that is answered. -/
theorem Follows.ask {α : Type} {x : Loader α} {a : α} {s' : Client} (hx : x s = .ok a s')
    (hasked : s'.classes = { s.classes with asked := s.classes.asked + 1 })
    {f : α → Loader Unit} {g : Unit → Method Unit} (hf : Follows t (f a) (g ()) s') :
    Follows t (x >>= f) (exec extra quiet .ask >>= g) s :=
  RefinesAt.bind_of_ok (fun _ _ _ _ _ => trivial) hx (by rw [exec_ask, hasked]) trivial hf

/-- Every directory has itself to be asked for. -/
theorem Tree.one_le_depth (tree : Tree) : 1 ≤ tree.depth := by
  induction tree with
  | nil => exact Nat.le_refl 1
  | file d reply rest ih => exact ih
  | dir d sub rest _ ih =>
      simp only [Tree.depth]
      omega

/-- The node that a name stands for. -/
theorem at?_snoc {p : List String} {i : Nat} {d : String} {n : Node}
    (hat : t.at? (.dict t.root) ("structure" :: typ :: p) = some (.dict i))
    (hd : (t.dicts i).get? d = some n) :
    t.at? (.dict t.root) ("structure" :: typ :: (p ++ [d])) = some n := by
  have happ : "structure" :: typ :: (p ++ [d]) = ("structure" :: typ :: p) ++ [d] := rfl
  rw [happ, at?_append, hat]
  simp only [Option.bind_some, Tree.at?, hd]

/-- A call goes to work when it has listed its directory. -/
theorem follows_call {l : Nat → Link} {tree : Tree} {fuel i : Nat} {p : List String}
    (h : Ready t s) (hp : ValidNames ("structure" :: typ :: p))
    (hat : t.at? (.dict t.root) ("structure" :: typ :: p) = some (.dict i))
    (hlisted : Listed t typ tree.entries i p)
    (hloop : ∀ s', Ready t s' →
      Follows t (tree.entries.forM (loadEntry extra l typ (load extra l typ fuel) p))
        ((setupEntries tree p).forM (exec extra quiet)) s') :
    Follows t (load extra l typ (fuel + 1) p)
      ((setupAccessors tree p).forM (exec extra quiet)) s := by
  simp only [load, setupAccessors, setupWith, List.forM]
  refine (follows_onClasses h _).bind fun u hu => ?_
  obtain ⟨u', hdir, hu', hasked⟩ := dir_of_listed hu l hp hat hlisted
  exact Follows.ask hdir hasked (hloop u' hu')

/-- **The loop** over the names does with the class what the tree says. -/
theorem follows_entries {l : Nat → Link} (tree : Tree) {fuel i : Nat} {p : List String}
    (h : Ready t s) (hdepth : tree.depth ≤ fuel + 1) (hp : ValidNames ("structure" :: typ :: p))
    (hat : t.at? (.dict t.root) ("structure" :: typ :: p) = some (.dict i))
    (hnames : ValidNames tree.entries) (hserves : Serves t typ tree i p) :
    Follows t (tree.entries.forM (loadEntry extra l typ (load extra l typ fuel) p))
      ((setupEntries tree p).forM (exec extra quiet)) s := by
  induction tree generalizing fuel i p s with
  | nil => exact ⟨rfl, trivial, h⟩
  | file d reply rest ih =>
      obtain ⟨⟨n, hget, hrender⟩, hrequest, hreply, hrest⟩ := hserves
      obtain ⟨hd, hnames'⟩ := validNames_append (p := [d]).mp hnames
      have hpath : ValidNames ("structure" :: typ :: (p ++ [d])) := validNames_append.mpr ⟨hp, hd⟩
      obtain ⟨s', hattempt, hs', hasked⟩ := attempt_attrGet h l (List.cons_ne_nil _ _) hpath.1
        (at?_snoc hat hget) hrequest (by simpa [hrender] using hreply)
      rw [hrender] at hattempt
      simp only [Tree.entries, List.forM, loadEntry, bind_assoc, setupEntries]
      refine Follows.ask hattempt hasked ?_
      exact (follows_onClasses hs' _).bind fun s'' hs'' => ih hs'' hdepth hp hat hnames' hrest
  | dir d sub rest ihSub ihRest =>
      obtain ⟨⟨j, hget, hlisted, hsub⟩, hrest⟩ := hserves
      obtain ⟨hd, hnames'⟩ := validNames_append (p := [d]).mp hnames
      have hpath : ValidNames ("structure" :: typ :: (p ++ [d])) := validNames_append.mpr ⟨hp, hd⟩
      have hat' := at?_snoc hat hget
      obtain ⟨s', hattempt, hs', hasked⟩ := attempt_attrGet h l (List.cons_ne_nil _ _) hpath.1
        hat' hlisted.request (by simp [Node.render])
      simp only [Tree.depth] at hdepth
      have hone := sub.one_le_depth
      -- the call for the subdirectory
      obtain ⟨fuel, rfl⟩ : ∃ n, fuel = n + 1 := ⟨fuel - 1, by omega⟩
      have hbelow : ∀ u, Ready t u → Follows t (load extra l typ (fuel + 1) (p ++ [d]))
          ((setupAccessors sub (p ++ [d])).forM (exec extra quiet)) u := fun u hu =>
        follows_call hu hpath hat' hlisted fun u' hu' =>
          ihSub hu' (by omega) hpath hat' hlisted.names hsub
      have happend : (setupAccessors sub (p ++ [d]) ++ setupEntries rest p).forM (exec extra quiet) =
          (setupAccessors sub (p ++ [d])).forM (exec extra quiet) >>= fun _ =>
            (setupEntries rest p).forM (exec extra quiet) := List.forM_append
      simp only [Tree.entries, List.forM, loadEntry, bind_assoc, setupEntries]
      refine Follows.ask hattempt hasked ?_
      show Follows t _ (_ >>= fun _ => (setupAccessors sub (p ++ [d]) ++ _).forM _) s'
      rw [happend]
      simp only [Node.render, if_true, bind_assoc]
      refine (follows_onClasses hs' _).bind fun u hu => (hbelow u hu).bind fun u' hu' => ?_
      exact ihRest hu' (by omega) hp hat hnames' hrest

/-- A call, with all the calls below it. -/
theorem follows_load {l : Nat → Link} {tree : Tree} {fuel i : Nat} {p : List String}
    (h : Ready t s) (hdepth : tree.depth ≤ fuel) (hp : ValidNames ("structure" :: typ :: p))
    (hat : t.at? (.dict t.root) ("structure" :: typ :: p) = some (.dict i))
    (hlisted : Listed t typ tree.entries i p) (hserves : Serves t typ tree i p) :
    Follows t (load extra l typ fuel p) ((setupAccessors tree p).forM (exec extra quiet)) s := by
  have hone := tree.one_le_depth
  obtain ⟨fuel, rfl⟩ : ∃ n, fuel = n + 1 := ⟨fuel - 1, by omega⟩
  exact follows_call h hp hat hlisted fun s' hs' =>
    follows_entries tree hs' hdepth hp hat hlisted.names hserves

/-! ## The code of a family -/

/-- Digits are printed in upper case. -/
theorem mem_hexDigits {n : Nat} {c : Char} (h : c ∈ (Nat.toDigits 16 n).map Char.toUpper) :
    c ∈ "0123456789ABCDEF".toList := by
  have hdigit : ∀ d < 16, (Nat.digitChar d).toUpper ∈ "0123456789ABCDEF".toList := by decide
  induction n using Nat.strong_induction_on with
  | _ n ih =>
      by_cases hlt : n < 16
      · rw [Nat.toDigits_of_lt_base hlt] at h
        simp only [List.map_cons, List.map_nil, List.mem_singleton] at h
        exact h ▸ hdigit n hlt
      · rw [Nat.toDigits_of_base_le (by decide) (Nat.not_lt.mp hlt), List.map_append,
          List.mem_append] at h
        rcases h with h | h
        · exact ih (n / 16) (by omega) h
        · simp only [List.map_cons, List.map_nil, List.mem_singleton] at h
          exact h ▸ hdigit (n % 16) (Nat.mod_lt n (by decide))

/-- A family is printed in these digits, with a sign if it is negative. -/
theorem mem_familyCode {family : Int} {c : Char} (h : c ∈ (familyCode family).toList) :
    c = '-' ∨ c ∈ "0123456789ABCDEF".toList := by
  simp only [familyCode] at h
  split at h
  · rw [String.toList_ofList, List.mem_cons] at h
    exact h.imp_right mem_hexDigits
  · split at h
    · rw [String.toList_ofList, List.mem_cons] at h
      rcases h with rfl | h
      · exact .inr (by decide)
      · exact .inr (mem_hexDigits h)
    · rw [String.toList_ofList] at h
      exact .inr (mem_hexDigits h)

/-- A family is printed as something. -/
theorem familyCode_ne (family : Int) : (familyCode family).toList ≠ [] := by
  simp only [familyCode]
  split
  · simp
  · split
    · simp
    · next hlen =>
      simp only [String.toList_ofList]
      exact List.ne_nil_of_length_pos (by omega)

/-- The directory of a family can be asked for. -/
theorem validNames_familyCode (family : Int) : ValidNames ["structure", familyCode family] := by
  have hone : ValidNames [familyCode family] := by
    have hdisjoint : ∀ c ∈ ['/', Char.ofNat 0, ','], c ∉ "0123456789ABCDEF".toList := by
      intro c hc
      simp only [List.mem_cons, List.not_mem_nil, or_false] at hc
      rcases hc with rfl | rfl | rfl <;> decide
    have hnot : ∀ c ∈ ['/', Char.ofNat 0, ','], c ∉ (familyCode family).toList := by
      intro c hc hmem
      rcases mem_familyCode hmem with rfl | hmem
      · simp at hc
      · exact hdisjoint c hc hmem
    have hne : familyCode family ≠ "" := fun h => familyCode_ne family (by rw [h]; rfl)
    simp only [ValidNames, ValidPath, List.mem_singleton, forall_eq]
    exact ⟨⟨hne, hnot _ (by simp), hnot _ (by simp)⟩, hnot _ (by simp)⟩
  exact (validNames_append (p := ["structure"])).mpr ⟨by decide, hone⟩

/-! ## The structure of a class -/

/-- The server has this structure for the family. -/
def HasStructure (t : Mock.Tree) (family : Int) (tree : Tree) : Prop :=
  ∃ i, t.at? (.dict t.root) ["structure", familyCode family] = some (.dict i) ∧
    Listed t (familyCode family) tree.entries i [] ∧ Serves t (familyCode family) tree i []

/-- **Loading a structure** request by request does what `setup_struct` does. -/
theorem follows_loadStruct {l : Nat → Link} {tree : Tree} {family : Int} {fuel : Nat}
    (h : Ready t s) (hdepth : tree.depth ≤ fuel) (htree : HasStructure t family tree) :
    Follows t (loadStruct extra l fuel family) (setupStruct extra quiet tree) s := by
  obtain ⟨i, hat, hlisted, hserves⟩ := htree
  have hload : ∀ u, Ready t u → Follows t (load extra l (familyCode family) fuel [])
      ((setupAccessors tree []).forM (exec extra quiet)) u := by
    intro u hu
    exact follows_load hu hdepth (validNames_familyCode family) hat hlisted hserves
  rw [Follows, RefinesAt, loadStruct, wp_bind, wp_get, setupStruct, get_bind]
  by_cases hno : s.classes.didSetup = .no
  · simp only [hno, ne_eq, not_true, if_false]
    refine Follows.bind (follows_onClasses h (modify fun c => { c with didSetup := .running }))
      fun u hu => ?_
    refine Follows.bind (RefinesAt.tryCatch (fun _ _ _ _ _ => trivial) (hload u hu) fun e u' hu' => ?_)
      fun u' hu' => follows_onClasses hu' _
    refine RefinesAt.bind (fun _ _ _ _ _ => trivial) (follows_onClasses hu' _)
      fun _ u'' _ hu'' => ?_
    exact ⟨rfl, trivial, hu''⟩
  · simp only [ne_eq, hno, not_false_eq_true, if_true]
    exact ⟨rfl, trivial, h⟩

/-- **Setting up over a connection**: what becomes of the class, and of the call, is what the
structure directory makes of it, whether that raises or not and however the connection cuts.
The server waits for the next request, and has the tree that it had. -/
theorem setupStruct_served {l : Nat → Link} {tree : Tree} {family : Int} {fuel : Nat}
    (h : Ready t s) (hdepth : tree.depth ≤ fuel) (htree : HasStructure t family tree)
    {r : Except Exc Unit} {c : Classes}
    (hsetup : Outcome (setupStruct extra quiet tree) s.classes r c) :
    ∃ session, Outcome (loadStruct extra l fuel family) s r ⟨session, c⟩ ∧ session.Idle ∧
      session.tree = t := by
  have hfollows : Follows t (loadStruct extra l fuel family) (setupStruct extra quiet tree) s :=
    follows_loadStruct h hdepth htree
  obtain ⟨s', hrun, rfl, -, hidle, hkept⟩ := hfollows.outcome hsetup
  exact ⟨s'.session, hrun, hidle, hkept⟩

/-- A part of the structure of a sensor. -/
def sensorTree : Mock.Tree where
  dicts
    | 0 => ⟨[("structure", .dict 1)], by decide⟩
    | 1 => ⟨[("10", .dict 2)], by decide⟩
    | 2 => ⟨[("temperature", .text "t,000000,000001,ro,000012,v,"), ("foo", .dict 3)], by decide⟩
    | 3 => ⟨[("bar", .text "i,000000,000001,rw,000012,s,")], by decide⟩
    | _ => ∅

def sensorStructure : Tree :=
  .dir "foo" (.file "bar" (Utf8.encode "i,000000,000001,rw,000012,s,") .nil)
    (.file "temperature" (Utf8.encode "t,000000,000001,ro,000012,v,") .nil)

/-- The server has the structure of the sensor. -/
theorem hasStructure_sensor : HasStructure sensorTree 0x10 sensorStructure :=
  ⟨2, rfl, ⟨rfl, by decide, by decide, by decide⟩,
    ⟨3, rfl, ⟨rfl, by decide, by decide, by decide⟩, ⟨_, rfl, rfl⟩, by decide, by decide, trivial⟩,
    ⟨_, rfl, rfl⟩, by decide, by decide, trivial⟩

/-- The structure of the sensor can be loaded. -/
theorem setupStruct_sensor :
    ∃ c, Outcome (setupStruct (fun _ _ => false) quiet sensorStructure) {} (.ok ()) c ∧
      c.didSetup = .done := by
  have hok : (report (setupStruct (fun _ _ => false) quiet sensorStructure {})).1 = .ok () := by
    decide +kernel
  have hdone : (report (setupStruct (fun _ _ => false) quiet sensorStructure {})).2.2.2 = .done := by
    decide +kernel
  cases hsetup : setupStruct (fun _ _ => false) quiet sensorStructure {} with
  | error e c =>
      rw [hsetup] at hok
      simp [report] at hok
  | ok a c =>
      rw [hsetup] at hdone
      exact ⟨c, hsetup, hdone⟩

/-- The sensor's class is set up over a connection that does not cut. -/
theorem setupStruct_served_sensor :
    ∃ session c, Outcome (loadStruct (fun _ _ => false) (fun _ => default) 2 0x10)
        ⟨.start sensorTree, {}⟩ (.ok ()) ⟨session, c⟩ ∧
      c.didSetup = .done ∧ session.tree = sensorTree := by
  obtain ⟨c, hsetup, hdone⟩ := setupStruct_sensor
  have hready : Ready sensorTree ⟨.start sensorTree, {}⟩ := ⟨Mock.Session.idle_start sensorTree, rfl⟩
  obtain ⟨session, hrun, -, htree⟩ := setupStruct_served (l := fun _ => default) hready
    (by decide : sensorStructure.depth ≤ 2) hasStructure_sensor hsetup
  exact ⟨session, c, hrun, hdone, htree⟩

/-! ## Classes that have been loaded -/

/-- The subdirectories are among what is listed. -/
theorem Tree.dirs_sublist_entries (tree : Tree) : tree.dirs.Sublist tree.entries := by
  induction tree with
  | nil => exact List.Sublist.refl _
  | file d reply rest ih => exact ih.cons d
  | dir d sub rest _ ih => exact ih.cons_cons d

/-- The keys of a dictionary are distinct, so that nothing is listed twice. -/
theorem Listed.nodup {ds p : List String} {i : Nat} (h : Listed t typ ds i p) : ds.Nodup := by
  rw [← h.sorted]
  exact (List.perm_insertionSort _ _).nodup_iff.mpr (t.dicts i).nodup

/-- What a server lists has no name twice. -/
theorem listed_of_serves {tree : Tree} {i : Nat} {p : List String} (hnodup : tree.entries.Nodup)
    (hserves : Serves t typ tree i p) : tree.Listed := by
  induction tree generalizing i p with
  | nil => exact Tree.listed_nil
  | file d reply rest ih =>
      exact (ih (List.nodup_cons.mp hnodup).2 hserves.2.2.2).file d reply
  | dir d sub rest ihSub ihRest =>
      obtain ⟨⟨j, -, hlisted, hsub⟩, hrest⟩ := hserves
      obtain ⟨hd, hnodup⟩ := List.nodup_cons.mp hnodup
      exact (ihSub hlisted.nodup hsub).dir (ihRest hnodup hrest)
        fun hmem => hd (rest.dirs_sublist_entries.subset hmem)

/-- A command does not depend on how far the setup has come. -/
theorem exec_setup (c : Cmd) (s : Classes) (d : Setup) :
    wp (exec extra quiet c)
      (fun a s' => exec extra quiet c { s with didSetup := d } = .ok a { s' with didSetup := d })
      (fun _ _ => True) s := by
  cases c with
  | ask => rfl
  | reset p => rfl
  | subPath p n => rfl
  | file p n reply =>
      cases hparse : SetupVector.parse reply with
      | error e =>
          simp only [exec, hparse]
          trivial
      | ok v =>
          simp only [exec, hparse]
          rfl

/-- The commands do not look at the state of the setup. -/
theorem forM_exec_setup {cmds : List Cmd} {s s' : Classes} (d : Setup)
    (h : cmds.forM (exec extra quiet) s = .ok () s') :
    cmds.forM (exec extra quiet) { s with didSetup := d } = .ok () { s' with didSetup := d } := by
  induction cmds generalizing s with
  | nil =>
      cases h
      rfl
  | cons c cmds ih =>
      rw [List.forM] at h
      obtain ⟨a, u, hexec, hrest⟩ := exists_of_bind h
      have hsame := wp_of_ok (exec_setup c s d) hexec
      exact (bind_of_ok hsame).trans (ih hrest)

/-- A class without accessors that is set up. -/
theorem exists_setupStruct (extra : List String → String → Bool) {tree : Tree} (hT : tree.Listed)
    (hsound : ∀ c ∈ setupAccessors tree [], c.Sound) {c : Classes}
    (hempty : ∀ p n, (c.cls p).attrs n = none) (hno : c.didSetup = .no) :
    ∃ c', setupStruct extra quiet tree c = .ok () c' ∧ c'.didSetup = .done ∧
      Generated extra tree c' ∧ c.subdirs ⊆ c'.subdirs := by
  obtain ⟨u, hrun, hwritten⟩ : ∃ u, (setupAccessors tree []).forM (exec extra quiet)
      { c with didSetup := .running } = .ok () u ∧ _ := exists_run hsound _
  refine ⟨{ u with didSetup := .done }, ?_, rfl, ⟨hT, { c with didSetup := .done }, quiet, hempty,
    forM_exec_setup (s := { c with didSetup := .running }) .done hrun⟩,
    fun d hd => (hwritten.subdirs d).mpr (.inl hd)⟩
  rw [setupStruct, get_bind, if_neg (by simp [hno])]
  have hset : (set { c with didSetup := Setup.running } : Method PUnit) c =
      .ok ⟨⟩ { c with didSetup := .running } := rfl
  rw [bind_of_ok hset, bind_of_ok (tryCatch_of_ok hrun)]
  rfl

/-- **Loading** a class from a server generates its accessors, and forgets no names. -/
theorem exists_loaded (extra : List String → String → Bool) (l : Nat → Link) {tree : Tree}
    {family : Int} {fuel : Nat} (h : Ready t s) (hdepth : tree.depth ≤ fuel) (htree : HasStructure t family tree)
    (hsound : ∀ c ∈ setupAccessors tree [], c.Sound)
    (hempty : ∀ p n, (s.classes.cls p).attrs n = none) (hno : s.classes.didSetup = .no) :
    ∃ s', loadStruct extra l fuel family s = .ok () s' ∧ Ready t s' ∧
      s'.classes.didSetup = .done ∧ Generated extra tree s'.classes ∧
      s.classes.subdirs ⊆ s'.classes.subdirs := by
  obtain ⟨i, hat, hlisted, hserves⟩ := id htree
  obtain ⟨c, hsetup, hdone, hgenerated, hnames⟩ := exists_setupStruct extra
    (listed_of_serves hlisted.nodup hserves) hsound hempty hno
  obtain ⟨session, hload, hidle, hkept⟩ :=
    setupStruct_served (l := l) h hdepth htree (r := .ok ()) hsetup
  exact ⟨⟨session, c⟩, hload, ⟨hidle, hkept⟩, hdone, hgenerated, hnames⟩

end Answered

end Struct

end AsyncOwfs
