import AsyncOwfs.Scan.Teardown
import Mathlib.Logic.Relation

/-!
# AsyncOwfs.Scan.Closing

What `aclose` leaves of a server, wherever the devices are.

Tasks that overlap leave lists that do not fit the places of the devices: a device
that is not listed where it is, or is listed where it is not.  `Rooted` is what holds
all the same.  It is enough for `aclose`: no bus of the tree is left out, and none
lists anything behind it.
-/

namespace AsyncOwfs

namespace Service

open Hoare Transition Relation

/-- What holds of the buses, whatever tasks have done. -/
structure Rooted (s : Service) : Prop where
  deep : s.Deep
  /-- Only the buses of a tree list devices, and these under their ids. -/
  listed : ∀ b d r, s.lookup b d = some r →
    Known s b.server b ∧ (s.dev r).id = d ∧ r < s.nextDev
  registered : ∀ id r, s.devices.get? id = some r → r < s.nextDev
  /-- A bus has been deleted with its server. -/
  closed : ∀ b, .busDeleted b ∈ s.events → s.server b.server = none

/-- In the beginning there are no buses. -/
theorem rooted_init : init.Rooted := by
  have hrun : run step init [] = some init := rfl
  refine ⟨deep_run hrun, fun b d r h => ?_, fun id r h => ?_, fun b h => ?_⟩
  · contradiction
  · contradiction
  · exact absurd h List.not_mem_nil

/-! ## What is below a bus -/

/-- `c` is a sub-bus of `b`. -/
def SubBus (s : Service) (b c : BusRef) : Prop :=
  ∃ paths p, (s.bus b).buses = some paths ∧ p ∈ paths ∧ c = b.sub p

/-- A bus in the tree of a server has its number. -/
theorem Known.server_eq {s : Service} {v : Nat} {b : BusRef} (h : Known s v b) : b.server = v := by
  induction h with
  | top _ _ => rfl
  | sub _ _ _ ih => exact ih

/-- The tree of a server is what is below the buses that it has by name. -/
theorem known_iff_below {s : Service} {v : Nat} {b : BusRef} :
    Known s v b ↔ ∃ names n, s.server v = some names ∧ n ∈ names ∧ ReflTransGen s.SubBus ⟨v, [n]⟩ b := by
  constructor
  · intro h
    induction h with
    | top hv hn => exact ⟨_, _, hv, hn, .refl⟩
    | sub _ hpaths hp ih =>
        obtain ⟨names, n, hv, hn, hbelow⟩ := ih
        exact ⟨names, n, hv, hn, hbelow.tail ⟨_, _, hpaths, hp, rfl⟩⟩
  · rintro ⟨names, n, hv, hn, hbelow⟩
    induction hbelow with
    | refl => exact .top hv hn
    | tail _ hsub ih =>
        obtain ⟨paths, p, hpaths, hp, rfl⟩ := hsub
        exact .sub ih hpaths hp

/-- `depth` bounds the whole tree. -/
theorem Deep.below {s : Service} (hs : s.Deep) {b c : BusRef} (hb : b.path.length ≤ s.depth)
    (h : ReflTransGen s.SubBus b c) : c.path.length ≤ s.depth := by
  cases h with
  | refl => exact hb
  | tail _ hsub =>
      obtain ⟨paths, p, hpaths, hp, rfl⟩ := hsub
      exact (hs.sub _ paths p hpaths hp).2

/-! ## A tree that is being taken down -/

/-- Buses of `v` have lost devices and sub-buses, and may have been deleted; nothing
else has changed. -/
structure Cut (v : Nat) (s t : Service) : Prop where
  devices : t.devices = s.devices
  nextDev : t.nextDev = s.nextDev
  server : t.server = s.server
  depth : t.depth = s.depth
  id : ∀ r, (t.dev r).id = (s.dev r).id
  bus : ∀ b, b.server ≠ v → t.bus b = s.bus b
  lookup : ∀ b d r, t.lookup b d = some r → s.lookup b d = some r
  buses : ∀ b, (t.bus b).buses = (s.bus b).buses ∨ (t.bus b).buses = none
  events : s.events ⊆ t.events
  deleted : ∀ b, .busDeleted b ∈ t.events → .busDeleted b ∈ s.events ∨ b.server = v

theorem Cut.refl (v : Nat) (s : Service) : Cut v s s :=
  ⟨rfl, rfl, rfl, rfl, fun _ => rfl, fun _ _ => rfl, fun _ _ _ h => h, fun _ => .inl rfl,
    List.Subset.refl _, fun _ h => .inl h⟩

theorem Cut.trans {v : Nat} {s t u : Service} (h : Cut v s t) (h' : Cut v t u) : Cut v s u := by
  refine ⟨h'.devices.trans h.devices, h'.nextDev.trans h.nextDev, h'.server.trans h.server,
    h'.depth.trans h.depth, fun r => (h'.id r).trans (h.id r),
    fun b hb => (h'.bus b hb).trans (h.bus b hb), fun b d r hr => h.lookup b d r (h'.lookup b d r hr),
    fun b => ?_, List.Subset.trans h.events h'.events, fun b hb => ?_⟩
  · rcases h'.buses b with heq | hnone
    · exact heq ▸ h.buses b
    · exact .inr hnone
  · exact (h'.deleted b hb).elim (h.deleted b) .inr

/-- The bus has been deleted, and lists nothing. -/
def Ended (s : Service) (b : BusRef) : Prop := .busDeleted b ∈ s.events ∧ ∀ d, s.lookup b d = none

/-- What has ended stays so. -/
theorem Ended.cut {v : Nat} {s t : Service} {b : BusRef} (h : s.Ended b) (hcut : Cut v s t) :
    t.Ended b := by
  refine ⟨hcut.events h.1, fun d => ?_⟩
  cases hd : t.lookup b d with
  | none => rfl
  | some r =>
      have hr := hcut.lookup b d r hd
      rw [h.2 d] at hr
      contradiction

/-- A bus has been changed, and an event pushed. -/
theorem cut_bus {v : Nat} {s : Service} {b : BusRef} (hb : b.server = v) (x : Bus) (dev : Nat → Device)
    (e : Option Event) (hid : ∀ r, (dev r).id = (s.dev r).id)
    (hdevices : ∀ d r, (x.devices.bind fun ds => ds.get? d) = some r → s.lookup b d = some r)
    (hbuses : x.buses = (s.bus b).buses ∨ x.buses = none)
    (he : ∀ c, e = some (.busDeleted c) → c.server = v) :
    Cut v s { s with dev, bus := Function.update s.bus b x, events := s.events ++ e.toList } := by
  refine ⟨rfl, rfl, rfl, rfl, hid, fun c hc => ?_, fun c d r hr => ?_, fun c => ?_,
    List.subset_append_left _ _, fun c hc => ?_⟩
  · have hcb : c ≠ b := by
      rintro rfl
      exact hc hb
    simp only [Function.update_of_ne hcb]
  · by_cases hcb : c = b
    · subst hcb
      simp only [lookup, Function.update_self] at hr
      exact hdevices d r hr
    · simp only [lookup, Function.update_of_ne hcb] at hr
      exact hr
  · by_cases hcb : c = b
    · subst hcb
      simp only [Function.update_self]
      exact hbuses
    · simp only [Function.update_of_ne hcb, true_or]
  · rcases List.mem_append.mp hc with hc | hc
    · exact .inl hc
    · rw [Option.mem_toList] at hc
      exact .inr (he c hc)

/-! ## Devices -/

/-- The loop over the devices of a bus raises nothing: whoever is located there is
listed there, by then. -/
theorem delocateEach_cut {v : Nat} {b : BusRef} (hb : b.server = v) (rs : List Nat) :
    ∀ t : Service, rs.Nodup → (∀ r ∈ rs, t.lookup b (t.dev r).id = some r) →
      wp (rs.forM fun r => delocate r b)
        (fun _ t' => Cut v t t' ∧ ∀ c, (t'.bus c).buses = (t.bus c).buses) (fun _ _ => False) t := by
  induction rs with
  | nil => exact fun t _ _ => ⟨.refl v t, fun _ => rfl⟩
  | cons r rs ih =>
      intro t hnodup hlook
      obtain ⟨hr, hnodup⟩ := List.nodup_cons.mp hnodup
      have hhere := hlook r List.mem_cons_self
      rw [List.forM]
      by_cases hbus : (t.dev r).bus = some b
      · obtain ⟨ds, hds, hget⟩ := Option.bind_eq_some_iff.mp hhere
        refine wp_seq (delocate_located hbus hds hget) fun _ t₁ h₁ => ?_
        have hcut : Cut v t t₁ := by
          rw [h₁]
          refine cut_bus hb _ _ (some (.deviceNotFound r)) (fun x => ?_) (fun d x hx => ?_) (.inl rfl)
            fun c hc => absurd hc (by simp)
          · by_cases hxr : x = r
            · subst hxr
              simp only [Function.update_self, Device.gone]
            · simp only [Function.update_of_ne hxr]
          · rw [lookup, hds]
            simp only [Option.bind_some, Dict.get?_erase] at hx ⊢
            split at hx
            · contradiction
            · exact hx
        have hbuses : ∀ c, (t₁.bus c).buses = (t.bus c).buses := by
          intro c
          rw [h₁]
          by_cases hc : c = b
          · subst hc
            simp only [Function.update_self]
          · simp only [Function.update_of_ne hc]
        have hrest : ∀ x ∈ rs, t₁.lookup b (t₁.dev x).id = some x := by
          intro x hx
          have hxr : x ≠ r := by
            rintro rfl
            exact hr hx
          have hxlook := hlook x (List.mem_cons_of_mem r hx)
          have hne : (t.dev x).id ≠ (t.dev r).id := by
            intro heq
            rw [heq, hhere, Option.some.injEq] at hxlook
            exact hxr hxlook.symm
          rw [lookup, hds, Option.bind_some] at hxlook
          rw [h₁, lookup]
          simp only [Function.update_self, Function.update_of_ne hxr, Option.bind_some,
            Dict.get?_erase, if_neg hne]
          exact hxlook
        refine wp_mono_ok (ih t₁ hnodup hrest) fun _ t₂ h₂ => ?_
        exact ⟨hcut.trans h₂.1, fun c => (h₂.2 c).trans (hbuses c)⟩
      · refine wp_seq (delocate_elsewhere hbus) fun _ t₁ h₁ => ?_
        subst h₁
        exact ih t₁ hnodup fun x hx => hlook x (List.mem_cons_of_mem r hx)

/-- Behind the second half of `delocate`, the bus lists nothing. -/
theorem delocateDevices_cut {v : Nat} {b : BusRef} (hb : b.server = v) {t : Service}
    (hkeyed : ∀ d r, t.lookup b d = some r → (t.dev r).id = d) :
    wp (delocateDevices b)
      (fun _ t' => Cut v t t' ∧ (∀ c, (t'.bus c).buses = (t.bus c).buses) ∧
        ∀ d, t'.lookup b d = none) (fun _ _ => False) t := by
  simp only [delocateDevices, wp_bind, wp_get]
  cases hds : (t.bus b).devices with
  | none => exact ⟨.refl v t, fun _ => rfl, fun d => by rw [lookup, hds]; rfl⟩
  | some ds =>
      have hget : ∀ d, t.lookup b d = ds.get? d := fun d => by rw [lookup, hds]; rfl
      dsimp only
      split
      · have hlook : ∀ r ∈ ds.values, t.lookup b (t.dev r).id = some r := by
          intro r hr
          obtain ⟨d, hd⟩ := Dict.mem_values.mp hr
          rw [hkeyed d r ((hget d).trans hd), hget, hd]
        refine wp_seq (delocateEach_cut hb ds.values t (nodup_values hkeyed hds) hlook) fun _ t₁ h₁ => ?_
        obtain ⟨hcut, hbuses⟩ := h₁
        rw [modifyBus, wp_modify]
        refine ⟨hcut.trans ?_, fun c => ?_, fun d => ?_⟩
        · simpa using cut_bus hb { t₁.bus b with devices := none } t₁.dev none (fun _ => rfl)
            (fun d r h => by contradiction) (.inl rfl) (fun c h => by contradiction)
        · rw [← hbuses c]
          by_cases hc : c = b
          · subst hc
            simp only [Function.update_self]
          · simp only [Function.update_of_ne hc]
        · simp only [lookup, Function.update_self, Option.bind_none]
      · next hempty =>
        refine ⟨.refl v t, fun _ => rfl, fun d => ?_⟩
        rw [not_not] at hempty
        rw [hget]
        cases hd : ds.get? d with
        | none => rfl
        | some r =>
            have hr : r ∈ ds.values := Dict.mem_values.mpr ⟨d, hd⟩
            rw [hempty] at hr
            contradiction

/-! ## Buses -/

/-- `aclose` has begun in the state `s`: where a bus has dropped its sub-buses, all that
was below it has ended. -/
structure Falling (v : Nat) (s t : Service) : Prop where
  cut : Cut v s t
  below : ∀ b, (t.bus b).buses ≠ (s.bus b).buses → ∀ c, TransGen s.SubBus b c → t.Ended c

/-- What leaves the sub-buses alone. -/
theorem Falling.cut_of_same {v : Nat} {s t u : Service} (h : Falling v s t) (hcut : Cut v t u)
    (hbuses : ∀ b, (u.bus b).buses = (t.bus b).buses) : Falling v s u :=
  ⟨h.cut.trans hcut, fun b hb c hc => (h.below b (hbuses b ▸ hb) c hc).cut hcut⟩

/-- What is below a bus is one of its branches, or below one. -/
theorem below_sub_iff {s : Service} {b c : BusRef} :
    TransGen s.SubBus b c ↔
      ∃ paths p, (s.bus b).buses = some paths ∧ p ∈ paths ∧ ReflTransGen s.SubBus (b.sub p) c := by
  rw [TransGen.head'_iff]
  constructor
  · rintro ⟨d, ⟨paths, p, hpaths, hp, rfl⟩, hbelow⟩
    exact ⟨paths, p, hpaths, hp, hbelow⟩
  · rintro ⟨paths, p, hpaths, hp, hbelow⟩
    exact ⟨b.sub p, ⟨paths, p, hpaths, hp, rfl⟩, hbelow⟩

/-- The command ends the buses `T`, whenever that is in the fall. -/
def Fells (v : Nat) (s : Service) (x : Method PUnit) (T : BusRef → Prop) : Prop :=
  ∀ t, Falling v s t → wp x (fun _ t' => Falling v s t' ∧ Cut v t t' ∧ ∀ c, T c → t'.Ended c)
    (fun _ _ => False) t

theorem fells_forM {α : Type} {v : Nat} {s : Service} {f : α → Method PUnit} {T : α → BusRef → Prop}
    (l : List α) (hl : ∀ a ∈ l, Fells v s (f a) (T a)) :
    Fells v s (l.forM f) fun c => ∃ a ∈ l, T a c := by
  induction l with
  | nil =>
      refine fun t ht => ⟨ht, .refl v t, fun c hc => ?_⟩
      obtain ⟨a, ha, -⟩ := hc
      exact absurd ha List.not_mem_nil
  | cons a l ih =>
      intro t ht
      rw [List.forall_mem_cons] at hl
      rw [List.forM]
      refine wp_seq (hl.1 t ht) fun _ t₁ h₁ => ?_
      obtain ⟨hfall, hcut, hended⟩ := h₁
      refine wp_mono_ok (ih hl.2 t₁ hfall) fun _ t₂ h₂ => ?_
      obtain ⟨hfall₂, hcut₂, hended₂⟩ := h₂
      refine ⟨hfall₂, hcut.trans hcut₂, fun c hc => ?_⟩
      obtain ⟨a', ha', hc⟩ := hc
      rcases List.mem_cons.mp ha' with rfl | ha'
      · exact (hended c hc).cut hcut₂
      · exact hended₂ c ⟨a', ha', hc⟩

/-- The first half of `delocate` ends all that is below the bus. -/
theorem fells_delocateBuses {v : Nat} {s : Service} {b : BusRef} {below : BusRef → Method Unit}
    (hb : b.server = v)
    (hbelow : ∀ paths p, (s.bus b).buses = some paths → p ∈ paths →
      Fells v s (below (b.sub p)) (ReflTransGen s.SubBus (b.sub p))) :
    Fells v s (delocateBuses below b) (TransGen s.SubBus b) := by
  intro t ht
  simp only [delocateBuses, wp_bind, wp_get]
  split
  · next p ps hpaths =>
    -- nobody has touched the bus so far
    have hs : (s.bus b).buses = some (p :: ps) := by
      rcases ht.cut.buses b with heq | hnone
      · exact heq ▸ hpaths
      · rw [hnone] at hpaths
        contradiction
    rw [wp_bind]
    have hloop := fells_forM (f := fun p => below (b.sub p)) (p :: ps) fun q hq => hbelow _ q hs hq
    refine wp_mono_ok (hloop t ht) fun _ t₁ h₁ => ?_
    obtain ⟨hfall, hcut, hended⟩ := h₁
    rw [modifyBus, wp_modify]
    have hdrop : Cut v t₁ { t₁ with
        bus := Function.update t₁.bus b { t₁.bus b with buses := none } } := by
      simpa using cut_bus hb { t₁.bus b with buses := none } t₁.dev none (fun _ => rfl)
        (fun d r h => h) (.inr rfl) (fun c h => by contradiction)
    have hall : ∀ c, TransGen s.SubBus b c → t₁.Ended c := by
      intro c hc
      obtain ⟨paths, q, hq, hmem, hbelow⟩ := below_sub_iff.mp hc
      rw [hs, Option.some.injEq] at hq
      exact hended c ⟨q, hq ▸ hmem, hbelow⟩
    refine ⟨⟨ht.cut.trans (hcut.trans hdrop), fun c hc e he => ?_⟩, hcut.trans hdrop,
      fun c hc => (hall c hc).cut hdrop⟩
    by_cases hcb : c = b
    · subst hcb
      exact (hall e he).cut hdrop
    · simp only [Function.update_of_ne hcb] at hc
      exact (hfall.below c hc e he).cut hdrop
  · next hpaths =>
    refine ⟨ht, .refl v t, fun c hc => ?_⟩
    by_cases heq : (t.bus b).buses = (s.bus b).buses
    · obtain ⟨paths, q, hq, hmem, -⟩ := below_sub_iff.mp hc
      cases paths with
      | nil => exact absurd hmem List.not_mem_nil
      | cons p ps => exact absurd (heq.trans hq) (hpaths p ps)
    · exact ht.below b heq c hc

/-- **One bus with all that is below it**, as far as the recursion has to go. -/
theorem fells_delocateBus {v : Nat} {s : Service} (hs : s.Rooted) (fuel : Nat) :
    ∀ b : BusRef, b.server = v →
      (∀ c, ReflTransGen s.SubBus b c → c.path.length < b.path.length + fuel) →
      Fells v s (delocateBus fuel b) (ReflTransGen s.SubBus b) := by
  induction fuel with
  | zero => exact fun b _ hlen => absurd (hlen b .refl) (Nat.lt_irrefl _)
  | succ fuel ih =>
      intro b hb hlen t ht
      have hbuses : Fells v s (delocateBuses (delocateBus fuel) b) (TransGen s.SubBus b) := by
        refine fells_delocateBuses hb fun paths p hpaths hp => ih (b.sub p) hb fun c hc => ?_
        have hpos := List.length_pos_iff.mpr (hs.deep.sub b paths p hpaths hp).1
        have hc' := hlen c (.head ⟨paths, p, hpaths, hp, rfl⟩ hc)
        simp only [BusRef.sub, List.length_append]
        omega
      rw [delocateBus]
      refine wp_seq (hbuses t ht) fun _ t₁ h₁ => ?_
      obtain ⟨hfall, hcut, hended⟩ := h₁
      have hkeyed : ∀ d r, t₁.lookup b d = some r → (t₁.dev r).id = d := fun d r hr =>
        (hfall.cut.id r).trans (hs.listed b d r (hfall.cut.lookup b d r hr)).2.1
      refine wp_seq (delocateDevices_cut hb hkeyed) fun _ t₂ h₂ => ?_
      obtain ⟨hcut₂, hsame, hempty⟩ := h₂
      rw [pushEvent, wp_modify]
      have hpush : Cut v t₂ { t₂ with events := t₂.events ++ [.busDeleted b] } := by
        refine ⟨rfl, rfl, rfl, rfl, fun _ => rfl, fun _ _ => rfl, fun _ _ _ h => h, fun _ => .inl rfl,
          List.subset_append_left _ _, fun c hc => ?_⟩
        rcases List.mem_append.mp hc with hc | hc
        · exact .inl hc
        · rw [List.mem_singleton, Event.busDeleted.injEq] at hc
          exact .inr (hc ▸ hb)
      refine ⟨(hfall.cut_of_same hcut₂ hsame).cut_of_same hpush fun _ => rfl,
        (hcut.trans hcut₂).trans hpush, fun c hc => ?_⟩
      rcases reflTransGen_iff_eq_or_transGen.mp hc with rfl | hc
      · exact ⟨List.mem_append_right _ (List.mem_singleton_self _), hempty⟩
      · exact ((hended c hc).cut hcut₂).cut hpush

/-- A server that is being closed is no concern of the others. -/
theorem Cut.known {v w : Nat} {s t : Service} (h : Cut v s t) (hw : w ≠ v) {b : BusRef}
    (hb : Known s w b) :
    Known { t with server := Function.update t.server v none } w b := by
  induction hb with
  | top hv hn =>
      refine .top ?_ hn
      simp only [Function.update_of_ne hw, h.server]
      exact hv
  | sub hc hpaths hp ih =>
      refine .sub ih ?_ hp
      simp only [h.bus _ (hc.server_eq ▸ hw)]
      exact hpaths

/-- The buses have ended; now the server forgets them. -/
theorem Cut.rooted {v : Nat} {s t : Service} (hs : s.Rooted) (h : Cut v s t)
    (hended : ∀ b, Known s v b → t.Ended b) :
    Rooted { t with server := Function.update t.server v none } := by
  refine ⟨⟨fun w names hw hne => ?_, fun b paths p hpaths hp => ?_⟩, fun b d r hr => ?_,
    fun id r hr => ?_, fun b hb => ?_⟩
  · by_cases hwv : w = v
    · subst hwv
      simp at hw
    · simp only [Function.update_of_ne hwv, h.server] at hw
      exact h.depth ▸ hs.deep.top w names hw hne
  · rcases h.buses b with heq | hnone
    · exact h.depth ▸ hs.deep.sub b paths p (heq ▸ hpaths) hp
    · rw [show (t.bus b).buses = some paths from hpaths] at hnone
      contradiction
  · obtain ⟨hknown, hid, hlt⟩ := hs.listed b d r (h.lookup b d r hr)
    refine ⟨h.known (fun hbv => ?_) hknown, (h.id r).trans hid, h.nextDev ▸ hlt⟩
    have hnone : t.lookup b d = none := (hended b (hbv ▸ hknown)).2 d
    rw [show t.lookup b d = some r from hr] at hnone
    contradiction
  · rw [h.nextDev]
    exact hs.registered id r (h.devices ▸ hr)
  · by_cases hbv : b.server = v
    · simp only [hbv, Function.update_self]
    · simp only [Function.update_of_ne hbv, h.server]
      exact hs.closed b ((h.deleted b hb).resolve_right hbv)

/-- **The end of a server**, in whatever state its devices are: all buses of its tree
are deleted, and none lists anything; the trees of the others are as they were. -/
theorem aclose_rooted {s : Service} (hs : s.Rooted) (v : Nat) :
    wp (aclose v)
      (fun _ t => t.Rooted ∧ (∀ b, Known s v b → .busDeleted b ∈ t.events) ∧
        (∀ b, .busDeleted b ∈ t.events → .busDeleted b ∈ s.events ∨ b.server = v) ∧
        s.events ⊆ t.events ∧ ∀ w b, w ≠ v → Known s w b → Known t w b)
      (fun _ _ => False) s := by
  have hstart : Cut v s { s with events := s.events ++ [.serverDisconnected v] } := by
    refine ⟨rfl, rfl, rfl, rfl, fun _ => rfl, fun _ _ => rfl, fun _ _ _ h => h, fun _ => .inl rfl,
      List.subset_append_left _ _, fun c hc => .inl ?_⟩
    simpa using hc
  have hfall : Falling v s { s with events := s.events ++ [.serverDisconnected v] } :=
    ⟨hstart, fun _ hb => absurd rfl hb⟩
  have hfinish : ∀ t, Cut v s t → (∀ b, Known s v b → t.Ended b) →
      (let t' := { t with server := Function.update t.server v none }
      t'.Rooted ∧ (∀ b, Known s v b → .busDeleted b ∈ t'.events) ∧
        (∀ b, .busDeleted b ∈ t'.events → .busDeleted b ∈ s.events ∨ b.server = v) ∧
        s.events ⊆ t'.events ∧ ∀ w b, w ≠ v → Known s w b → Known t' w b) :=
    fun t hcut hended => ⟨hcut.rooted hs hended, fun b hb => (hended b hb).1, hcut.deleted, hcut.events,
      fun w b hw hb => hcut.known hw hb⟩
  simp only [aclose, wp_bind, pushEvent, wp_modify, wp_get]
  cases hv : s.server v with
  | none =>
      refine hfinish _ hstart fun b hb => ?_
      obtain ⟨names, n, hnames, -⟩ := known_iff_below.mp hb
      rw [hv] at hnames
      contradiction
  | some names =>
      have hloop := fells_forM (v := v) (s := s) (f := fun n => delocateBus s.depth ⟨v, [n]⟩) names
        fun n hn => fells_delocateBus hs s.depth ⟨v, [n]⟩ rfl fun c hc => by
          have htop : (BusRef.mk v [n]).path.length ≤ s.depth :=
            hs.deep.top v names hv (List.ne_nil_of_mem hn)
          exact Nat.lt_one_add_iff.mpr (hs.deep.below htop hc)
      refine wp_seq (hloop _ hfall) fun _ t ht => ?_
      refine hfinish t ht.1.cut fun b hb => ht.2.2 b ?_
      obtain ⟨names', n, hnames, hn, hbelow⟩ := known_iff_below.mp hb
      rw [hv, Option.some.injEq] at hnames
      exact ⟨n, hnames ▸ hn, hbelow⟩

end Service

end AsyncOwfs
