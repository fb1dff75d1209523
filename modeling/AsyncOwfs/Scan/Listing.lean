import AsyncOwfs.Scan
import Mathlib.Data.List.Nodup

/-!
# AsyncOwfs.Scan.Listing

What a scan is told: the buses that it visits, and the devices that it is told
are there.
-/

namespace AsyncOwfs

/-- What there is on the sub-buses of a device, which only couplers have. -/
def below {γ : Type} (family : Int) (d : String) (b : BusRef) (main aux : BusRef → List γ) :
    List γ :=
  if family = Service.switchFamily then main (b.sub [d, "main"]) ++ aux (b.sub [d, "aux"]) else []

/-- The sub-buses that a scan visits below a bus. -/
def Listing.visits : Listing → BusRef → List BusRef
  | .nil, _ => []
  | .cons d main aux rest, b =>
    match splitId d with
    | .error _ => rest.visits b
    | .ok (family, _, _) =>
      below family d b (fun c => c :: main.visits c) (fun c => c :: aux.visits c) ++ rest.visits b

/-- The devices that are listed on a bus and below it. -/
def Listing.sightings : Listing → BusRef → List (BusRef × String)
  | .nil, _ => []
  | .cons d main aux rest, b =>
    match splitId d with
    | .error _ => rest.sightings b
    | .ok (family, _, _) =>
      (b, d) :: (below family d b main.sightings aux.sightings ++ rest.sightings b)

/-- Whatever is listed is listed on a bus that is visited. -/
def Covered (listing : Listing) : Prop :=
  ∀ b, ∀ x ∈ listing.sightings b, x.1 ∈ b :: listing.visits b

/-- What is listed on a branch is below a bus that is scanned. -/
theorem mem_below {main aux : Listing} (hm : Covered main) (ha : Covered aux) (family : Int)
    (d : String) (b : BusRef) :
    ∀ x ∈ below family d b main.sightings aux.sightings,
      x.1 ∈ below family d b (fun c => c :: main.visits c) (fun c => c :: aux.visits c) := by
  intro x hx
  rw [below] at hx ⊢
  split
  · next hf =>
    rw [if_pos hf, List.mem_append] at hx
    exact List.mem_append.mpr (hx.imp (hm _ x) (ha _ x))
  · next hf =>
    rw [if_neg hf] at hx
    contradiction

/-- By induction on the listing. -/
theorem covered (listing : Listing) : Covered listing := by
  induction listing with
  | nil => exact fun b x hx => absurd hx List.not_mem_nil
  | cons d main aux rest ihm iha ihr =>
      intro b x hx
      rw [Listing.sightings] at hx
      rw [Listing.visits]
      split at hx
      · exact ihr b x hx
      · rcases List.mem_cons.mp hx with rfl | hx
        · exact List.mem_cons_self
        · rcases List.mem_append.mp hx with hx | hx
          · exact List.mem_cons_of_mem b (List.mem_append_left _ (mem_below ihm iha _ d b x hx))
          · have h := ihr b x hx
            rw [List.mem_cons] at h ⊢
            exact h.imp_right (List.mem_append_right _)

/-- What is said of a bus is well formed: no bus is visited twice, no device
listed twice, and the ids are upper-case. -/
structure Listing.Proper (listing : Listing) (b : BusRef) : Prop where
  visits : (b :: listing.visits b).Nodup
  sightings : ((listing.sightings b).map Prod.snd).Nodup
  upper : ∀ x ∈ listing.sightings b, upper x.2 = x.2

/-! ## The root directory -/

/-- The buses that a scan visits. -/
def visits (v : Nat) : List (String × Listing) → List BusRef
  | [] => []
  | (d, listing) :: root =>
    if Service.isBusName d then (⟨v, [d]⟩ :: listing.visits ⟨v, [d]⟩) ++ visits v root
    else visits v root

/-- The devices that a scan is told about. -/
def sightings (v : Nat) : List (String × Listing) → List (BusRef × String)
  | [] => []
  | (d, listing) :: root =>
    if Service.isBusName d then listing.sightings ⟨v, [d]⟩ ++ sightings v root
    else sightings v root

/-- Every device that is listed is on a bus that is scanned. -/
theorem mem_visits (v : Nat) (root : List (String × Listing)) :
    ∀ x ∈ sightings v root, x.1 ∈ visits v root := by
  induction root with
  | nil => exact fun x hx => absurd hx List.not_mem_nil
  | cons e root ih =>
      intro x hx
      obtain ⟨d, listing⟩ := e
      rw [sightings] at hx
      rw [visits]
      split
      · next hd =>
        rw [if_pos hd, List.mem_append] at hx
        exact List.mem_append.mpr (hx.imp (covered listing _ x) (ih x))
      · next hd =>
        rw [if_neg hd] at hx
        exact ih x hx

end AsyncOwfs
