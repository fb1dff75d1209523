import AsyncOwfs.Scan.Manual
import AsyncOwfs.Struct.Loading

/-!
# AsyncOwfs.Scan.Served

A scan over a connection to `some_server`: the requests of `_scan_base` and `_scan_one`,
one after the other, and what is done with each reply.

`Service.scanBase` knows beforehand what the server will say.  Here a name is asked for its
family before its sub-buses are listed, and the structure of a class is loaded when the
first of its devices is found.  Both come to the same (`scanBase_served`), when what is
sent fits.
-/

namespace AsyncOwfs

open Hoare Mock Protocol Service

/-- A service, and the session with one of its servers. -/
structure Online where
  session : Mock.Session
  service : Service
  /-- The device classes, by family. -/
  classes : Int → Struct.DeviceClass := fun _ => {}
  /-- `SubDir._subdirs`, which all classes share. -/
  subdirs : Finset String := ∅
  /-- The number of directories that have been asked for. -/
  asked : Nat := 0

abbrev Remote := EStateM Exc Online

namespace Online

/-- How the connection cuts, when directories are listed and when structures are loaded;
whether these are, and what is known of the classes beforehand. -/
structure Setting where
  loadStructs : Bool := true
  dirs : Nat → Link := fun _ => default
  loads : Int → Nat → Link := fun _ _ => default
  extra : Int → List String → String → Bool := fun _ _ _ => false
  /-- How deep the calls of `setup_accessors` may be. -/
  fuel : Nat

/-- A class, with what it shares with the others. -/
def classOf (w : Online) (family : Int) : Struct.Classes :=
  { toDeviceClass := w.classes family, subdirs := w.subdirs }

def onService {α : Type} (x : Method α) : Remote α :=
  zoom service (fun s w => { w with service := s }) x

/-! ## Requests -/

section Scan

variable (e : Setting)

/-- `await self.dir()` of a bus, or of the server. -/
def dir (path : List String) : Remote (List String) := do
  let w ← get
  let r := w.session.dir (e.dirs w.asked) path
  set { w with session := r.2, asked := w.asked + 1 }
  match ← ofExcept (answer r.1) with
  | .names entries => return entries
  | .bytes _ => throw .typeError

/-- `ensure_struct(dev, server=self.server, maybe=True)` -/
def ensureStruct (family : Int) : Remote Unit := do
  if e.loadStructs then
    zoom (fun w => { session := w.session, classes := w.classOf family : Struct.Client })
      (fun c w => { w with
        session := c.session, subdirs := c.classes.subdirs,
        classes := Function.update w.classes family c.classes.toDeviceClass })
      (Struct.loadStruct (e.extra family) (e.loads family) e.fuel family)
  else return ()

/-! ## `_scan_one` -/

/-- A sub-bus is scanned, if it is not gone. -/
def visit (below : BusRef → Remote (List PathKey)) (b : BusRef) (path : List String) :
    Remote (List PathKey) := do
  match ← onService (getBus b path) with
  | none => return [.path path]
  | some c =>
    let buses ← below c
    return .path path :: buses

/-- The loop over `dev.buses()`. -/
def visitAll (below : BusRef → Remote (List PathKey)) (b : BusRef) (r : Nat) :
    Remote (List PathKey) := do
  let w ← get
  if (w.service.dev r).family = switchFamily then
    let buses ← visit below b [(w.service.dev r).id, "main"]
    let buses' ← visit below b [(w.service.dev r).id, "aux"]
    return buses ++ buses'
  else return []

/-- The loop of `_scan_one` over the directory; `below` is the call for a sub-bus. -/
def scanEntries (below : BusRef → Remote (List PathKey)) (b : BusRef) :
    List String → List String → Remote (List String × List PathKey)
  | [], old => return (old, [])
  | d :: ds, old =>
    match splitId d with
    | .error _ => scanEntries below b ds old
    | .ok _ => do
      let r ← onService (getDevice d)
      let w ← get
      ensureStruct e (w.service.dev r).family
      let old ← onService (sight b r d old)
      onService (modifyDev r fun d => { d with unseen := 0 })
      let buses ← visitAll below b r
      let (old, buses') ← scanEntries below b ds old
      return (old, buses ++ buses')

/-- `_scan_one`, at most `fuel` calls deep. -/
def scanOne : Nat → BusRef → Remote (List PathKey)
  | 0, _ => throw (.runtimeError "maximum recursion depth exceeded")
  | fuel + 1, b => do
    let res ← dir e b.path
    let w ← get
    match (w.service.bus b).devices with
    | none => throw .attributeError
    | some ds =>
      let (old, buses) ← scanEntries e (scanOne fuel) b res ds.keys
      old.forM fun d => onService (miss b d)
      return buses

/-! ## `_scan_base` -/

/-- Step 1 of `_scan_base`, over the root directory. -/
def enumerate (fuel : Nat) (v : Nat) : List String → List PathKey → Remote (List PathKey)
  | [], oldPaths => return oldPaths
  | d :: ds, oldPaths =>
    if isBusName d then do
      let b ← onService (serverGetBus v d)
      onService (modifyBus b fun bus => { bus with unseen := 0 })
      let buses ← scanOne e fuel b
      enumerate fuel v ds ((oldPaths.erase (.name d)).filter (· ∉ buses))
    else enumerate fuel v ds oldPaths

/-- `_scan_base` -/
def scanBase (fuel : Nat) (v : Nat) : Remote Unit := do
  let res ← dir e []
  let oldPaths ← enumerate e fuel v res []
  oldPaths.forM fun p => onService (deregister v p)

end Scan

end Online

/-! ## What the server has -/

/-- How many calls of `_scan_one` go on at once below a bus. -/
def Listing.depth : Listing → Nat
  | .nil => 0
  | .cons d main aux rest =>
    match splitId d with
    | .error _ => rest.depth
    | .ok (family, _, _) =>
      if family = switchFamily then max (max main.depth aux.depth + 1) rest.depth
      else rest.depth

section Tells

variable (e : Online.Setting) (t : Mock.Tree)

/-- The directory has these names, and its listing and the request for it fit. -/
def ListsAt (path : List String) (ds : List String) : Prop :=
  ∃ i, t.at? (.dict t.root) path = some (.dict i) ∧
    (t.dicts i).keys.insertionSort (· ≤ ·) = ds ∧ ValidNames path ∧ ValidNames ds ∧
    (encodePath path).length ≤ maxLength ∧
    (listing (path.map Utf8.encode) (t.dicts i).keys ++ [0]).length ≤ maxLength

/-- The structure of the family can be loaded. -/
def Loadable (family : Int) : Prop :=
  ∃ tree, Struct.HasStructure t family tree ∧ tree.depth ≤ e.fuel ∧
    ∀ c ∈ Struct.setupAccessors tree [], c.Sound

/-- What is below a bus is as the listing says: the ids are in upper case, and the
structures of their families can be loaded. -/
def Tells : Listing → List String → Prop
  | .nil, _ => True
  | .cons d main aux rest, path =>
    (∀ family code check, splitId d = .ok (family, code, check) → upper d = d ∧
      (e.loadStructs = true → Loadable e t family) ∧
      (family = switchFamily →
        (ListsAt t (path ++ [d, "main"]) main.names ∧ Tells main (path ++ [d, "main"])) ∧
        ListsAt t (path ++ [d, "aux"]) aux.names ∧ Tells aux (path ++ [d, "aux"]))) ∧
    Tells rest path

/-- What is in the root directory is as the listings say, and they are not too deep. -/
def TellsRoot (fuel : Nat) (root : List (String × Listing)) : Prop :=
  ListsAt t [] (root.map Prod.fst) ∧ ∀ d listing, (d, listing) ∈ root → isBusName d = true →
    ListsAt t [d] listing.names ∧ Tells e t listing [d] ∧ listing.depth < fuel

end Tells

/-! ## Ids -/

namespace Service

/-- Devices are registered under their ids, and their families are those of the ids. -/
def Catalogued (s : Service) : Prop :=
  ∀ d r, s.devices.get? d = some r → r < s.nextDev ∧ (s.dev r).id = d ∧
    ∃ code check, splitId d = .ok ((s.dev r).family, code, check)

/-- The devices are those that there were, and so are their ids and families. -/
structure SameIds (s s' : Service) : Prop where
  devices : s'.devices = s.devices
  nextDev : s'.nextDev = s.nextDev
  id : ∀ r, (s'.dev r).id = (s.dev r).id
  family : ∀ r, (s'.dev r).family = (s.dev r).family

theorem SameIds.refl (s : Service) : SameIds s s := ⟨rfl, rfl, fun _ => rfl, fun _ => rfl⟩

theorem SameIds.trans (s s' s'' : Service) (h : SameIds s s') (h' : SameIds s' s'') :
    SameIds s s'' where
  devices := h'.devices.trans h.devices
  nextDev := h'.nextDev.trans h.nextDev
  id r := (h'.id r).trans (h.id r)
  family r := (h'.family r).trans (h.family r)

/-- Devices that keep their ids stay registered under them. -/
theorem SameIds.catalogued {s s' : Service} (h : SameIds s s') (hs : s.Catalogued) :
    s'.Catalogued := by
  intro d r hr
  rw [h.nextDev, h.id, h.family]
  exact hs d r (h.devices ▸ hr)

/-- A field of a device that is neither its id nor its family. -/
theorem sameIds_modifyDev (r : Nat) (f : Device → Device) (hid : ∀ d, (f d).id = d.id)
    (hfamily : ∀ d, (f d).family = d.family) : Relates SameIds (modifyDev r f) := by
  intro s
  rw [modifyDev, wp_modify]
  refine ⟨rfl, rfl, fun x => ?_, fun x => ?_⟩
  · by_cases hx : x = r
    · subst hx
      simp [hid]
    · simp [hx]
  · by_cases hx : x = r
    · subst hx
      simp [hfamily]
    · simp [hx]

/-- A bus that changes leaves the devices alone. -/
theorem sameIds_modifyBus (b : BusRef) (f : Bus → Bus) : Relates SameIds (modifyBus b f) := by
  intro s
  rw [modifyBus, wp_modify]
  exact ⟨rfl, rfl, fun _ => rfl, fun _ => rfl⟩

/-- An event leaves the devices alone. -/
theorem sameIds_pushEvent (e : Event) : Relates SameIds (pushEvent e) := by
  intro s
  rw [pushEvent, wp_modify]
  exact ⟨rfl, rfl, fun _ => rfl, fun _ => rfl⟩

/-- A device that is located keeps its id. -/
theorem sameIds_locate (r : Nat) (b : BusRef) : Relates SameIds (locate r b) := by
  refine relates_get fun s => ?_
  split
  · exact relates_pure SameIds.refl _
  · exact (sameIds_modifyDev r (fun d => { d with bus := some b, waitBus := true })
      (fun _ => rfl) fun _ => rfl).bind SameIds.trans fun _ => sameIds_pushEvent _

/-- A device that is added keeps its id. -/
theorem sameIds_addDevice (b : BusRef) (r : Nat) : Relates SameIds (addDevice b r) := by
  have hmark : Relates SameIds (modify fun s : Service =>
      { s with disturbed := s.disturbed || decide (Disturbs s b r) } : Method PUnit) := by
    intro s
    rw [wp_modify]
    exact ⟨rfl, rfl, fun _ => rfl, fun _ => rfl⟩
  unfold addDevice
  refine hmark.bind SameIds.trans fun _ => (sameIds_locate r b).bind SameIds.trans fun _ => ?_
  refine relates_get fun s => ?_
  split
  · exact relates_throw SameIds.refl _
  · exact sameIds_modifyBus b _

/-- A device that is listed keeps its id. -/
theorem sameIds_sight (b : BusRef) (r : Nat) (d : String) (old : List String) :
    Relates SameIds (sight b r d old) := by
  refine relates_get fun s => ?_
  split
  · split
    · exact relates_pure SameIds.refl _
    · exact relates_throw SameIds.refl _
  · exact (sameIds_addDevice b r).bind SameIds.trans fun _ => relates_pure SameIds.refl _

/-- A device that leaves a dictionary keeps its id. -/
theorem sameIds_delDevice (b : BusRef) (r : Nat) : Relates SameIds (delDevice b r) := by
  refine relates_get fun s => ?_
  split
  · exact relates_throw SameIds.refl _
  · split
    · exact relates_throw SameIds.refl _
    · exact sameIds_modifyBus b _

/-- A device that is delocated keeps its id. -/
theorem sameIds_delocate (r : Nat) (b : BusRef) : Relates SameIds (delocate r b) := by
  refine relates_get fun s => ?_
  split
  · refine (sameIds_modifyDev r (fun d => { d with waitBus := false })
      (fun _ => rfl) fun _ => rfl).bind SameIds.trans fun _ => ?_
    refine relates_get fun s => ?_
    split
    · exact relates_throw SameIds.refl _
    · refine (sameIds_delDevice _ r).bind SameIds.trans fun _ => ?_
      exact (sameIds_modifyDev r (fun d => { d with bus := none })
        (fun _ => rfl) fun _ => rfl).bind SameIds.trans fun _ => sameIds_pushEvent _
  · exact relates_pure SameIds.refl _

/-- A device that is missed keeps its id. -/
theorem sameIds_miss (b : BusRef) (d : String) : Relates SameIds (miss b d) := by
  refine relates_get fun s => ?_
  split
  · exact relates_throw SameIds.refl _
  · split
    · exact relates_throw SameIds.refl _
    · split
      · exact sameIds_delocate _ b
      · exact sameIds_modifyDev _ (fun d => { d with unseen := d.unseen + 1 })
          (fun _ => rfl) fun _ => rfl

/-- A sub-bus is looked up, or made. -/
theorem sameIds_getBus (b : BusRef) (path : List String) : Relates SameIds (getBus b path) := by
  intro s
  simp only [getBus, wp_bind, wp_get]
  split
  · exact SameIds.refl s
  · split
    · exact SameIds.refl s
    · exact ⟨rfl, rfl, fun _ => rfl, fun _ => rfl⟩

/-- A bus below the root is looked up, or made. -/
theorem sameIds_serverGetBus (v : Nat) (name : String) :
    Relates SameIds (serverGetBus v name) := by
  intro s
  simp only [serverGetBus, wp_bind, wp_get]
  split
  · exact SameIds.refl s
  · split
    · exact SameIds.refl s
    · exact ⟨rfl, rfl, fun _ => rfl, fun _ => rfl⟩

/-- The bus that is returned has the name that was asked for. -/
theorem serverGetBus_eq (v : Nat) (name : String) (s : Service) :
    wp (serverGetBus v name) (fun b _ => b = ⟨v, [name]⟩) (fun _ _ => True) s := by
  simp only [serverGetBus, wp_bind, wp_get]
  split
  · trivial
  · split <;> exact rfl

/-- A device that is known, or is now. -/
theorem Catalogued.exists_getDevice {s : Service} (hs : s.Catalogued) {d : String}
    {family code check : Int} (hd : upper d = d) (hsplit : splitId d = .ok (family, code, check)) :
    ∃ r s', getDevice d s = .ok r s' ∧ s'.Catalogued ∧ s'.devices.get? d = some r ∧
      (s'.dev r).family = family ∧
      ∀ k y, y ≠ r → s'.devices.get? k = some y → s.devices.get? k = some y ∧ s'.dev y = s.dev y := by
  have hget : wp (getDevice d) (fun r s' => s'.Catalogued ∧ s'.devices.get? d = some r ∧
      ∀ k y, y ≠ r → s'.devices.get? k = some y → s.devices.get? k = some y ∧ s'.dev y = s.dev y)
      (fun _ _ => False) s := by
    refine wp_mono (getDevice_spec d s) (fun r s' h => ?_) (fun e s' h => ?_)
    · obtain ⟨-, -, -, -, h⟩ := h
      rcases h with ⟨hget, hdevices, hnext, hdev⟩ |
        ⟨-, rfl, hnext, hdevices, family, code, check, hsplit, hdev⟩
      · refine ⟨fun k y hy => ?_, hdevices ▸ hget, fun k y _ hy => ⟨hdevices ▸ hy, by rw [hdev]⟩⟩
        rw [hnext, hdev]
        exact hs k y (hdevices ▸ hy)
      · rw [hd] at hdevices hdev
        refine ⟨fun k y hy => ?_, by rw [hdevices, Dict.get?_set, if_pos rfl],
          fun k y hne hy => ?_⟩
        · rw [hdevices, Dict.get?_set] at hy
          rw [hnext, hdev]
          by_cases hk : k = d
          · subst hk
            rw [if_pos rfl, Option.some.injEq] at hy
            rw [← hy, Function.update_self]
            exact ⟨Nat.lt_succ_self _, rfl, code, check, hsplit⟩
          · rw [if_neg hk] at hy
            obtain ⟨hlt, hrest⟩ := hs k y hy
            rw [Function.update_of_ne (Nat.ne_of_lt hlt)]
            exact ⟨Nat.lt_succ_of_lt hlt, hrest⟩
        · rw [hdevices, Dict.get?_set] at hy
          by_cases hk : k = d
          · rw [if_pos hk, Option.some.injEq] at hy
            exact absurd hy.symm hne
          · rw [if_neg hk] at hy
            exact ⟨hy, by rw [hdev, Function.update_of_ne hne]⟩
    · rw [hsplit] at h
      exact nomatch h.2.2
  obtain ⟨r, s', hrun, hcat, hr, hothers⟩ := exists_ok_of_wp hget
  obtain ⟨-, -, code', check', hfamily⟩ := hcat d r hr
  rw [hsplit, Except.ok.injEq, Prod.mk.injEq] at hfamily
  exact ⟨r, s', hrun, hcat, hr, hfamily.1.symm, hothers⟩

end Service

/-! ## Requests that are answered -/

namespace Online

section Answered

variable {e : Setting} {t : Mock.Tree} {w₀ w : Online}

/-- The accessors of the class are those of the structure that the server has for it. -/
def Loaded (e : Setting) (t : Mock.Tree) (family : Int) (c : Struct.Classes) : Prop :=
  c.didSetup = .done ∧
    ∃ tree, Struct.HasStructure t family tree ∧ Struct.Generated (e.extra family) tree c

/-- What has been loaded has been set up. -/
theorem Loaded.didSetup_ne {family : Int} (h : Loaded e t family (w.classOf family)) :
    (w.classes family).didSetup ≠ .no := fun hno => nomatch hno.symm.trans h.1

/-- Other classes may add to `_subdirs`. -/
theorem Loaded.share {family : Int} {c : Struct.Classes} (h : Loaded e t family c)
    {names : Finset String} (hnames : c.subdirs ⊆ names) :
    Loaded e t family { c with subdirs := names } := by
  obtain ⟨hdone, tree, htree, hgenerated⟩ := h
  exact ⟨hdone, tree, htree, hgenerated.share hnames⟩

/-- The server waits for a request, and has this tree; since `w₀`, a class has been loaded or
is as it was. -/
structure Serving (e : Setting) (t : Mock.Tree) (w₀ w : Online) : Prop where
  idle : w.session.Idle
  tree_eq : w.session.tree = t
  catalogued : w.service.Catalogued
  classes : ∀ f, w.classes f = w₀.classes f ∨
    (w₀.classes f).didSetup = .no ∧ Loaded e t f (w.classOf f)
  subdirs : w₀.subdirs ⊆ w.subdirs

/-- Besides, the classes of the devices that are new since `w₀` have been set up. -/
structure Steady (e : Setting) (t : Mock.Tree) (w₀ w : Online) : Prop extends Serving e t w₀ w where
  equipped : e.loadStructs = true → ∀ d r, w.service.devices.get? d = some r →
    w₀.service.nextDev ≤ r → (w.classes (w.service.dev r).family).didSetup ≠ .no

/-- A class that has not been set up has no accessors. -/
def Bare (w : Online) : Prop :=
  ∀ f, (w.classes f).didSetup = .no → ∀ p n, ((w.classes f).cls p).attrs n = none

theorem Steady.refl (hidle : w.session.Idle) (htree : w.session.tree = t)
    (hcat : w.service.Catalogued) : Steady e t w w where
  idle := hidle
  tree_eq := htree
  catalogued := hcat
  classes _ := .inl rfl
  subdirs := Finset.Subset.refl _
  equipped _ d r hr hle := absurd (hcat d r hr).1 (Nat.not_lt.mpr hle)

/-- Commands on the service that keep the devices' ids. -/
theorem Steady.of_sameIds (h : Steady e t w₀ w) {s : Service} (hs : SameIds w.service s) :
    Steady e t w₀ { w with service := s } where
  idle := h.idle
  tree_eq := h.tree_eq
  catalogued := hs.catalogued h.catalogued
  classes := h.classes
  subdirs := h.subdirs
  equipped hload d r hr hle := by
    rw [hs.devices] at hr
    rw [hs.family]
    exact h.equipped hload d r hr hle

/-- A directory is listed. -/
theorem exists_dir (h : Steady e t w₀ w) {path ds : List String} (hl : ListsAt t path ds) :
    ∃ w', dir e path w = .ok ds w' ∧ w'.service = w.service ∧ Steady e t w₀ w' := by
  obtain ⟨i, hat, hsorted, hpath, hnames, hrequest, hreply⟩ := hl
  have htree := h.tree_eq
  subst htree
  obtain ⟨session, hdir, hidle, htree⟩ :=
    dir_of_at? h.idle hpath hat hsorted hnames hrequest hreply (e.dirs w.asked)
  refine ⟨{ w with session := session, asked := w.asked + 1 }, ?_, rfl,
    { h with idle := hidle, tree_eq := htree }⟩
  rw [dir, get_bind]
  simp only [hdir]
  rfl

/-- A class is set up, if it is not. -/
theorem exists_ensureStruct (h : Serving e t w₀ w) (hbare : w₀.Bare) {family : Int}
    (hl : e.loadStructs = true → Loadable e t family) :
    ∃ w', ensureStruct e family w = .ok () w' ∧ w'.service = w.service ∧ Serving e t w₀ w' ∧
      (∀ f, (w.classes f).didSetup ≠ .no → (w'.classes f).didSetup ≠ .no) ∧
      (e.loadStructs = true → (w'.classes family).didSetup ≠ .no) := by
  by_cases hload : e.loadStructs = true
  · obtain ⟨tree, htree, hdepth, hsound⟩ := hl hload
    rw [ensureStruct, if_pos hload]
    by_cases hno : (w.classes family).didSetup = .no
    · -- the class is as it was, so that it has no accessors
      have hsame : w.classes family = w₀.classes family :=
        (h.classes family).resolve_right fun hloaded => hloaded.2.didSetup_ne hno
      have hempty : ∀ p n, ((w.classes family).cls p).attrs n = none := by
        rw [hsame]
        exact hbare family (hsame ▸ hno)
      obtain ⟨c, hrun, ⟨hidle, htree'⟩, hdone, hgenerated, hnames⟩ :=
        Struct.exists_loaded (e.extra family) (e.loads family)
          (s := { session := w.session, classes := w.classOf family })
          ⟨h.idle, h.tree_eq⟩ hdepth htree hsound hempty hno
      refine ⟨{ w with
        session := c.session, subdirs := c.classes.subdirs,
        classes := Function.update w.classes family c.classes.toDeviceClass },
        ?_, rfl, ⟨hidle, htree', h.catalogued, fun f => ?_, h.subdirs.trans hnames⟩,
        fun f hf => ?_, fun _ => ?_⟩
      · simp only [zoom, hrun]
      · by_cases hf : f = family
        · subst hf
          refine .inr ⟨hsame ▸ hno, ?_⟩
          simpa [classOf] using ⟨hdone, tree, htree, hgenerated⟩
        · -- another class, which has been given more names at most
          simp only [Function.update_of_ne hf]
          refine (h.classes f).imp_right fun hloaded => ⟨hloaded.1, ?_⟩
          simpa [classOf, Function.update_of_ne hf] using hloaded.2.share hnames
      · by_cases hff : f = family
        · exact absurd (hff ▸ hno) hf
        · simpa [hff] using hf
      · simp [hdone]
    · refine ⟨w, ?_, rfl, h, fun f hf => hf, fun _ => hno⟩
      have hset : (w.classOf family).didSetup ≠ .no := hno
      simp only [zoom, Struct.loadStruct, get_bind, ne_eq, hset, not_false_eq_true, if_true]
      simp only [pure, EStateM.pure, classOf, Function.update_eq_self]
  · rw [ensureStruct, if_neg hload]
    exact ⟨w, rfl, rfl, h, fun f hf => hf, fun hl => absurd hl hload⟩

/-- A device is known, or is now, and its class is set up. -/
theorem exists_equipped (h : Steady e t w₀ w) (hbare : w₀.Bare) {d : String}
    {family code check : Int} (hd : upper d = d) (hsplit : splitId d = .ok (family, code, check))
    (hl : e.loadStructs = true → Loadable e t family) :
    ∃ r w₁ w₂, onService (getDevice d) w = .ok r w₁ ∧
      getDevice d w.service = .ok r w₁.service ∧
      ensureStruct e (w₁.service.dev r).family w₁ = .ok () w₂ ∧ w₂.service = w₁.service ∧
      w₂.service.devices.get? d = some r ∧ (w₂.service.dev r).family = family ∧
      Steady e t w₀ w₂ := by
  obtain ⟨r, s, hget, hcat, hr, hfamily, hothers⟩ := h.catalogued.exists_getDevice hd hsplit
  have hserving : Serving e t w₀ { w with service := s } := { h with catalogued := hcat }
  obtain ⟨w₂, hensure, hservice, hserving₂, hkept, hset⟩ :=
    exists_ensureStruct hserving hbare hl
  refine ⟨r, { w with service := s }, w₂, ?_, hget, ?_, hservice, hservice ▸ hr,
    hservice ▸ hfamily, { hserving₂ with equipped := fun hload k y hy hle => ?_ }⟩
  · simp only [onService, zoom, hget]
  · exact hfamily ▸ hensure
  · rw [hservice] at hy ⊢
    by_cases hyr : y = r
    · subst hyr
      rw [show (s.dev y).family = family from hfamily]
      exact hset hload
    · obtain ⟨hy, hdev⟩ := hothers k y hyr hy
      have hdev : ({ w with service := s } : Online).service.dev y = w.service.dev y := hdev
      rw [hdev]
      exact hkept _ (h.equipped hload k y hy hle)

/-! ## The same service -/

/-- Over the session, what is done with the service is what the command does. -/
abbrev Follows {α : Type} (e : Setting) (t : Mock.Tree) (w₀ : Online) (x : Remote α) (y : Method α)
    (w : Online) : Prop :=
  RefinesAt service (Steady e t w₀) (fun _ _ => True) x y w

theorem Follows.bind {α β : Type} {x : Remote α} {y : Method α} {f : α → Remote β}
    {g : α → Method β} (hx : Follows e t w₀ x y w)
    (hf : ∀ a w', y w.service = .ok a w'.service → Steady e t w₀ w' →
      Follows e t w₀ (f a) (g a) w') :
    Follows e t w₀ (x >>= f) (y >>= g) w :=
  RefinesAt.bind (fun _ _ _ _ _ => trivial) hx hf

theorem Follows.get {α : Type} {f : Online → Remote α} {g : Service → Method α}
    (hf : Follows e t w₀ (f w) (g w.service) w) :
    Follows e t w₀ (MonadState.get >>= f) (MonadState.get >>= g) w := hf

theorem follows_pure {α : Type} (h : Steady e t w₀ w) (a : α) :
    Follows e t w₀ (pure a) (pure a) w := ⟨rfl, trivial, h⟩

/-- What is done without a request is done in the same way. -/
theorem follows_onService {α : Type} {x : Method α} (h : Steady e t w₀ w)
    (hx : Relates SameIds x) : Follows e t w₀ (onService x) x w := by
  have hids := hx w.service
  rw [Follows, RefinesAt, onService, wp_zoom]
  rw [wp] at hids ⊢
  cases hrun : x w.service with
  | ok a s =>
      rw [hrun] at hids
      exact ⟨rfl, trivial, h.of_sameIds hids⟩
  | error ex s =>
      rw [hrun] at hids
      exact ⟨rfl, trivial, h.of_sameIds hids⟩

/-- A sub-bus that is not gone is scanned. -/
theorem follows_visit {below : BusRef → Remote (List PathKey)}
    {entries : BusRef → List String → Method (List String × List PathKey)} {b : BusRef}
    {path : List String} (h : Steady e t w₀ w)
    (hbelow : ∀ w', Steady e t w₀ w' →
      Follows e t w₀ (below (b.sub path)) (scanWith (b.sub path) (entries (b.sub path))) w') :
    Follows e t w₀ (visit below b path) (Service.visit b path entries) w := by
  rw [visit, Service.visit]
  refine (follows_onService h (sameIds_getBus b path)).bind fun c w' hrun h' => ?_
  have hc := wp_of_ok (getBus_eq_sub b path w.service) hrun
  cases c with
  | none => exact follows_pure h' _
  | some c =>
      obtain rfl := hc c rfl
      exact (hbelow w' h').bind fun buses w'' _ h'' => follows_pure h'' _

/-- The sub-buses of a coupler. -/
theorem follows_visitAll {below : BusRef → Remote (List PathKey)}
    {main aux : BusRef → List String → Method (List String × List PathKey)} {b : BusRef} {r : Nat}
    (h : Steady e t w₀ w)
    (hbelow : (w.service.dev r).family = switchFamily → ∀ w', Steady e t w₀ w' →
      Follows e t w₀ (below (b.sub [(w.service.dev r).id, "main"]))
          (scanWith (b.sub [(w.service.dev r).id, "main"])
            (main (b.sub [(w.service.dev r).id, "main"]))) w' ∧
        Follows e t w₀ (below (b.sub [(w.service.dev r).id, "aux"]))
          (scanWith (b.sub [(w.service.dev r).id, "aux"])
            (aux (b.sub [(w.service.dev r).id, "aux"]))) w') :
    Follows e t w₀ (visitAll below b r) (Service.visitAll b r main aux) w := by
  rw [visitAll, Service.visitAll]
  refine Follows.get ?_
  by_cases hfamily : (w.service.dev r).family = switchFamily
  · rw [if_pos hfamily, if_pos hfamily]
    refine (follows_visit h fun w' h' => (hbelow hfamily w' h').1).bind fun buses w' _ h' => ?_
    refine (follows_visit h' fun w'' h'' => (hbelow hfamily w'' h'').2).bind
      fun buses' w'' _ h'' => follows_pure h'' _
  · rw [if_neg hfamily, if_neg hfamily]
    exact follows_pure h _

/-- A call goes to work when it has listed its bus. -/
theorem follows_scanOne {fuel : Nat} {b : BusRef} {listing : Listing} (h : Steady e t w₀ w)
    (hlists : ListsAt t b.path listing.names)
    (hloop : ∀ old w', Steady e t w₀ w' →
      Follows e t w₀ (scanEntries e (scanOne e fuel) b listing.names old)
        (Service.scanEntries listing b old) w') :
    Follows e t w₀ (scanOne e (fuel + 1) b) (scanWith b (Service.scanEntries listing b)) w := by
  obtain ⟨w', hdir, hservice, h'⟩ := exists_dir h hlists
  rw [scanOne, scanWith]
  refine RefinesAt.skip (fun _ _ _ _ _ => trivial) hdir hservice trivial (Follows.get ?_)
  cases hds : (w'.service.bus b).devices with
  | none => exact ⟨rfl, trivial, h'⟩
  | some ds =>
      refine (hloop ds.keys w' h').bind fun a w₁ _ h₁ => ?_
      refine Follows.bind (RefinesAt.forM (fun _ => trivial) (fun _ _ _ _ _ => trivial)
        (fun d w₂ h₂ => follows_onService h₂ (sameIds_miss b d)) a.1 w₁ h₁) fun _ w₂ _ h₂ => ?_
      exact follows_pure h₂ a.2

/-- **The loop** over the names does with the service what the listing says. -/
theorem follows_scanEntries (hbare : w₀.Bare) (listing : Listing) {fuel : Nat} {b : BusRef}
    (hdepth : listing.depth ≤ fuel) (htells : Tells e t listing b.path) (old : List String)
    (h : Steady e t w₀ w) :
    Follows e t w₀ (scanEntries e (scanOne e fuel) b listing.names old)
      (Service.scanEntries listing b old) w := by
  induction listing generalizing fuel b old w with
  | nil => exact follows_pure h _
  | cons d main aux rest ihm iha ihr =>
      obtain ⟨hd, hrest⟩ := htells
      simp only [Listing.names, scanEntries, Service.scanEntries]
      simp only [Listing.depth] at hdepth
      cases hsplit : splitId d with
      | error ex =>
          simp only [hsplit] at hdepth ⊢
          exact ihr hdepth hrest old h
      | ok x =>
          obtain ⟨family, code, check⟩ := x
          obtain ⟨hupper, hload, hbuses⟩ := hd family code check hsplit
          simp only [hsplit] at hdepth ⊢
          simp only [found, bind_assoc, pure_bind]
          obtain ⟨r, w₁, w₂, hget, hget', hensure, hservice, hr, hfamily, h₂⟩ :=
            exists_equipped h hbare hupper hsplit hload
          refine RefinesAt.bind_of_ok (fun _ _ _ _ _ => trivial) hget hget' trivial ?_
          refine RefinesAt.get ?_
          refine RefinesAt.skip (fun _ _ _ _ _ => trivial) hensure hservice trivial ?_
          have hunseen : Relates SameIds (modifyDev r fun d => { d with unseen := 0 }) :=
            sameIds_modifyDev r _ (fun _ => rfl) fun _ => rfl
          refine (follows_onService h₂ (sameIds_sight b r d old)).bind fun old' w₃ hsight h₃ => ?_
          refine (follows_onService h₃ hunseen).bind fun _ w₄ hseen h₄ => ?_
          have hids : SameIds w₂.service w₄.service :=
            SameIds.trans _ _ _ ((sameIds_sight b r d old).of_ok hsight) (hunseen.of_ok hseen)
          have hid : (w₄.service.dev r).id = d :=
            (hids.id r).trans (h₂.catalogued d r hr).2.1
          have hfamily' : (w₄.service.dev r).family = family := (hids.family r).trans hfamily
          refine (follows_visitAll h₄ fun hswitch w' h' => ?_).bind fun below w₅ _ h₅ => ?_
          · rw [hfamily'] at hswitch
            obtain ⟨⟨hmain, hmain'⟩, haux, haux'⟩ := hbuses hswitch
            rw [if_pos hswitch] at hdepth
            obtain ⟨fuel, rfl⟩ : ∃ n, fuel = n + 1 := ⟨fuel - 1, by omega⟩
            rw [hid]
            exact ⟨follows_scanOne h' hmain fun old w'' h'' => ihm (by omega) hmain' old h'',
              follows_scanOne h' haux fun old w'' h'' => iha (by omega) haux' old h''⟩
          · have hdepth' : rest.depth ≤ fuel := by
              split at hdepth <;> omega
            exact (ihr hdepth' hrest old' h₅).bind fun a w₆ _ h₆ => follows_pure h₆ _

/-- Step 1 of `_scan_base`. -/
theorem follows_enumerate (hbare : w₀.Bare) {fuel v : Nat} (root : List (String × Listing))
    (htells : ∀ d listing, (d, listing) ∈ root → isBusName d = true →
      ListsAt t [d] listing.names ∧ Tells e t listing [d] ∧ listing.depth < fuel)
    (oldPaths : List PathKey) (h : Steady e t w₀ w) :
    Follows e t w₀ (enumerate e fuel v (root.map Prod.fst) oldPaths)
      (Service.enumerate v root oldPaths) w := by
  induction root generalizing oldPaths w with
  | nil => exact follows_pure h _
  | cons x root ih =>
      obtain ⟨d, listing⟩ := x
      have htells' := fun d' listing' hmem => htells d' listing' (List.mem_cons_of_mem _ hmem)
      simp only [List.map_cons, enumerate, Service.enumerate]
      by_cases hbus : isBusName d = true
      · obtain ⟨hlists, hbelow, hdepth⟩ := htells d listing List.mem_cons_self hbus
        obtain ⟨fuel, rfl⟩ : ∃ n, fuel = n + 1 := ⟨fuel - 1, by omega⟩
        simp only [hbus, if_true]
        refine (follows_onService h (sameIds_serverGetBus v d)).bind fun b w₁ hrun h₁ => ?_
        obtain rfl := wp_of_ok (serverGetBus_eq v d w.service) hrun
        refine (follows_onService h₁ (sameIds_modifyBus _ _)).bind fun _ w₂ _ h₂ => ?_
        refine (follows_scanOne h₂ hlists fun old w' h' =>
          follows_scanEntries hbare listing (by omega) hbelow old h').bind fun buses w₃ _ h₃ => ?_
        exact ih htells' _ h₃
      · rw [if_neg hbus, if_neg hbus]
        exact ih htells' _ h

/-- There are no old paths. -/
theorem enumerate_eq_nil {v : Nat} {root : List (String × Listing)} {s s' : Service}
    {oldPaths : List PathKey} (h : Service.enumerate v root [] s = .ok oldPaths s') :
    oldPaths = [] := by
  have hkeeps : ScanKeeps v (fun _ => True) fun _ => True :=
    ScanKeeps.of_stable (fun _ _ _ _ => trivial) (fun _ _ _ _ _ => wp_true _ _)
      fun _ _ _ => wp_true _ _
  exact (wp_of_ok (hkeeps.enumerate root s trivial) h).1

/-- A whole scan asks for the root directory first. -/
theorem follows_scanBase (hbare : w₀.Bare) {fuel v : Nat} {root : List (String × Listing)}
    (htells : TellsRoot e t fuel root) (h : Steady e t w₀ w) :
    Follows e t w₀ (scanBase e fuel v) (Service.scanBase v root) w := by
  obtain ⟨w', hdir, hservice, h'⟩ := exists_dir h htells.1
  rw [scanBase, Service.scanBase]
  refine RefinesAt.skip (fun _ _ _ _ _ => trivial) hdir hservice trivial ?_
  refine (follows_enumerate hbare root htells.2 [] h').bind fun oldPaths w₁ hrun h₁ => ?_
  obtain rfl := enumerate_eq_nil hrun
  exact follows_pure h₁ _

/-- **A scan over a connection**: what becomes of the service, and of the scan, is what the
listings make of it, whether that raises or not and however the connection cuts.  The server
waits for the next request, and has the tree that it had.  The classes that had been set up are
as they were, and those of the devices that the scan has made have the accessors that the
server's structures say; the names of subdirectories, which all classes share, only get more. -/
theorem scanBase_served (hidle : w.session.Idle) (htree : w.session.tree = t)
    (hcat : w.service.Catalogued) (hbare : w.Bare) {fuel v : Nat}
    {root : List (String × Listing)} (htells : TellsRoot e t fuel root) {r : Except Exc Unit}
    {s : Service} (hscan : Outcome (Service.scanBase v root) w.service r s) :
    ∃ w', Outcome (scanBase e fuel v) w r w' ∧ w'.service = s ∧
      w'.session.Idle ∧ w'.session.tree = t ∧ s.Catalogued ∧ w'.Bare ∧
      (∀ f, (w.classes f).didSetup ≠ .no → w'.classes f = w.classes f) ∧
      w.subdirs ⊆ w'.subdirs ∧
      (e.loadStructs = true → ∀ d x, s.devices.get? d = some x → w.service.nextDev ≤ x →
        (w.classes (s.dev x).family).didSetup ≠ .no ∨
          Loaded e t (s.dev x).family (w'.classOf (s.dev x).family)) := by
  obtain ⟨w', hrun, rfl, -, h⟩ := RefinesAt.outcome
    (follows_scanBase hbare htells (Steady.refl hidle htree hcat)) hscan
  refine ⟨w', hrun, rfl, h.idle, h.tree_eq, h.catalogued, fun f hno => ?_, fun f hf => ?_,
    h.subdirs, fun hload d x hx hle => ?_⟩
  · rcases h.classes f with hsame | hloaded
    · rw [hsame] at hno ⊢
      exact hbare f hno
    · exact absurd hno hloaded.2.didSetup_ne
  · exact (h.classes f).resolve_right fun hloaded => hf hloaded.1
  · rcases h.classes (w'.service.dev x).family with hsame | hloaded
    · exact .inl (hsame ▸ h.equipped hload d x hx hle)
    · exact .inr hloaded.2

end Answered

/-! ## A coupler -/

/-- A thermometer behind a coupler. -/
def couplerServer : Mock.Tree where
  dicts
    | 0 => ⟨[("bus.0", .dict 1), ("structure", .dict 6)], by decide⟩
    | 1 => ⟨[("1F.345678.00", .dict 2)], List.nodup_singleton _⟩
    | 2 => ⟨[("main", .dict 3), ("aux", .dict 4)], by decide⟩
    | 3 => ⟨[("10.345678.90", .dict 5)], List.nodup_singleton _⟩
    | 5 => ⟨[("temperature", .text "12.5")], List.nodup_singleton _⟩
    | 6 => ⟨[("10", .dict 7), ("1F", .dict 8)], by decide⟩
    | 7 => ⟨[("temperature", .text "t,000000,000001,ro,000012,v,")], List.nodup_singleton _⟩
    | _ => ∅

def couplerRoot : List (String × Listing) :=
  [("bus.0", .cons "1F.345678.00" (.cons "10.345678.90" .nil .nil .nil) .nil .nil),
    ("structure", .nil)]

/-- Calls of `setup_accessors` need not go below a class's directory. -/
def flat : Setting := { fuel := 1 }

/-- The structure directory of couplers is empty. -/
theorem loadable_coupler : Loadable flat couplerServer switchFamily :=
  ⟨.nil, ⟨8, rfl, ⟨rfl, by decide, by decide, by decide⟩, trivial⟩, by decide, by decide⟩

/-- That of thermometers has one file. -/
theorem loadable_thermometer : Loadable flat couplerServer 0x10 :=
  ⟨.file "temperature" (Utf8.encode "t,000000,000001,ro,000012,v,") .nil,
    ⟨7, rfl, ⟨rfl, by decide, by decide, by decide⟩, ⟨_, rfl, rfl⟩, by decide, by decide, trivial⟩,
    by decide, by decide +kernel⟩

/-- The server tells what its root listing says. -/
theorem tellsRoot_coupler : TellsRoot flat couplerServer 2 couplerRoot := by
  have hcoupler : splitId "1F.345678.00" = .ok (switchFamily, 0x345678, 0) := by decide +kernel
  have hthermometer : splitId "10.345678.90" = .ok (0x10, 0x345678, 0x90) := by decide +kernel
  refine ⟨⟨0, rfl, by decide, by decide, by decide, by decide, by decide⟩,
    fun d listing hmem hbus => ?_⟩
  simp only [couplerRoot, List.mem_cons, Prod.mk.injEq, List.not_mem_nil, or_false] at hmem
  rcases hmem with ⟨rfl, rfl⟩ | ⟨rfl, rfl⟩
  · refine ⟨⟨1, rfl, by decide, by decide, by decide, by decide, by decide⟩,
      ⟨fun family code check hsplit => ?_, trivial⟩, by decide +kernel⟩
    rw [hcoupler, Except.ok.injEq, Prod.mk.injEq] at hsplit
    obtain ⟨rfl, -⟩ := hsplit
    refine ⟨by decide, fun _ => loadable_coupler, fun _ => ⟨⟨⟨3, rfl, by decide, by decide, by decide,
      by decide, by decide⟩, fun family code check hsplit => ?_, trivial⟩, ⟨4, rfl, by decide,
      by decide, by decide, by decide, by decide⟩, trivial⟩⟩
    rw [hthermometer, Except.ok.injEq, Prod.mk.injEq] at hsplit
    obtain ⟨rfl, -⟩ := hsplit
    exact ⟨by decide, fun _ => loadable_thermometer, fun h => absurd h (by decide)⟩
  · exact absurd hbus (by decide)

/-- The scan finds the coupler and the thermometer, and loads their classes. -/
theorem scanBase_served_coupler :
    ∃ w', Outcome (scanBase flat 2 0) { session := .start couplerServer, service := init }
        (.ok ()) w' ∧
      w'.service.devices.get? "10.345678.90" = some 1 ∧ w'.session.tree = couplerServer ∧
      Loaded flat couplerServer 0x10 (w'.classOf 0x10) := by
  have hstep : (step init (.scan 0 couplerRoot)).map
      (fun s => (s.devices.get? "10.345678.90", (s.dev 1).family)) = some (some 1, 0x10) := by
    decide +kernel
  obtain ⟨s, hstep, hfound⟩ := Option.map_eq_some_iff.mp hstep
  obtain ⟨hget, hfamily⟩ := Prod.mk.inj hfound
  have hscan := scanBase_of_step hstep
  obtain ⟨w', hrun, rfl, -, htree, -, -, -, -, hloaded⟩ :=
    scanBase_served (w := { session := .start couplerServer, service := init }) (r := .ok ())
      (Session.idle_start couplerServer) rfl (fun _ _ hr => nomatch hr) (fun _ _ _ _ => rfl)
      tellsRoot_coupler hscan
  have hnew := hloaded rfl "10.345678.90" 1 hget (Nat.zero_le 1)
  rw [hfamily] at hnew
  exact ⟨w', hrun, hget, htree, hnew.resolve_left fun h => h rfl⟩

end Online

end AsyncOwfs
