import AsyncOwfs.Alarm

/-!
# AsyncOwfs.Alarm.Temperature

A temperature alarm is cleared: after `TemperatureDevice.poll_alarm` the temperature is
within the bounds (`Cleared`).

The bounds move by two degrees up and by one down, and are rounded toward zero, which is
by less than one degree in either direction.
-/

namespace AsyncOwfs

namespace Alarm

open Struct Hoare

/-! ## `poll_alarm` -/

section Poll

variable (extra : List String → String → Bool) (s : Classes) (fl : Floats) (dev : Device)

/-- A single value of the device. -/
def valueOf (n : String) : Poll PyValue := do
  let x ← use extra s fl dev [] n .value
  ofExcept x.single

/-- `if beyond: await self.set_<n>(int(f(t))); reasons[key] = bound` -/
def adapt (n key : String) (beyond : Bool) (t : PyValue) (f : ℚ → ℚ) (bound : PyValue)
    (reasons : Dict String PyValue) : Poll (Dict String PyValue) :=
  if beyond then do
    let x ← ofExcept (number t)
    let _ ← use extra s fl dev [] ("set_" ++ n) (.set (.int (trunc (f x))))
    return reasons.set key bound
  else return reasons

/-- `TemperatureDevice.poll_alarm` -/
def TemperatureDevice.pollAlarm : Poll (Dict String PyValue) := do
  let t ← valueOf extra s fl dev "latesttemp"
  modify fun st => { st with alarmTemperature := some t }
  let reasons := (∅ : Dict String PyValue).set "temp" t
  let th ← valueOf extra s fl dev "temphigh"
  -- t > t_h
  let high ← ofExcept (less th t)
  let reasons ← adapt extra s fl dev "temphigh" "high" high t (· + 2) th reasons
  let tl ← valueOf extra s fl dev "templow"
  let low ← ofExcept (less t tl)
  adapt extra s fl dev "templow" "low" low t (· - 1) tl reasons

end Poll

/-! ## Bounds -/

/-- What is in a file is this number. -/
def Site.Reads (st : Site) (fl : Floats) (place : Place) (x : ℚ) : Prop :=
  ∃ res, st.files place = .ok res ∧ fl.parse res = .ok x

/-- The temperature is within its bounds.  Those that it was beyond, and no other ones,
have been written, clear of it, and are among the reasons. -/
structure Cleared (high low : Place) (t th tl th' tl' : ℚ) (st st' : Site)
    (reasons : Dict String PyValue) : Prop where
  low_le : tl' ≤ t
  le_high : t ≤ th'
  ordered : tl ≤ th → tl' ≤ th'
  high_moved : th < t → t < th' ∧ th' < t + 3
  low_moved : t < tl → tl' < t ∧ t - 3 < tl'
  log_eq : ∃ bh bl, st'.log =
    st.log ++ (if th < t then [(high, bh)] else []) ++ if t < tl then [(low, bl)] else []
  others : ∀ place, (place = high → ¬ th < t) → (place = low → ¬ t < tl) →
    st'.files place = st.files place
  reasons_iff : ∀ k v, reasons.get? k = some v ↔ k = "temp" ∧ v = .float t ∨
    (k = "high" ∧ th < t ∧ v = .float th) ∨ k = "low" ∧ t < tl ∧ v = .float tl

/-- The structure has the temperature and its bounds. -/
structure Thermometer (extra : List String → String → Bool) (tree : Tree) where
  latesttemp : SetupVector
  temphigh : SetupVector
  templow : SetupVector
  latesttemp_provided : tree.Provides extra [] "latesttemp" latesttemp
  temphigh_provided : tree.Provides extra [] "temphigh" temphigh
  templow_provided : tree.Provides extra [] "templow" templow
  typ_mem : latesttemp.typ ∈ floatTypes ∧ temphigh.typ ∈ floatTypes ∧ templow.typ ∈ floatTypes
  readable : latesttemp.readable = true
  temphigh_access : temphigh.access = "rw"
  templow_access : templow.access = "rw"

/-! ## Files with numbers in them -/

/-- An integer is written, or not. -/
def Site.adapted (st : Site) (p : Prop) [Decidable p] (place : Place) (i : Int) : Site :=
  if p then st.write place (Utf8.encode (toString i)) else st

section Reads

variable {fl : Floats} {st : Site} {place place' : Place} {x : ℚ} {p : Prop} [Decidable p]

/-- A bound that is adapted reads as it has been set. -/
theorem Site.Reads.adapted_self (hfl : ReadsInts fl) (h : st.Reads fl place x) (i : Int) :
    (st.adapted p place i).Reads fl place (if p then (i : ℚ) else x) := by
  rw [Site.adapted]
  split
  · exact ⟨Utf8.encode (toString i), by simp, hfl i⟩
  · exact h

/-- Other files read as before. -/
theorem Site.Reads.adapted_ne (h : st.Reads fl place x) (hne : place ≠ place') (i : Int) :
    (st.adapted p place' i).Reads fl place x := by
  obtain ⟨res, hfile, hparse⟩ := h
  refine ⟨res, ?_, hparse⟩
  rw [Site.adapted]
  split
  · rw [files_write, Function.update_of_ne hne, hfile]
  · exact hfile

/-- Only a bound that is exceeded is written to. -/
theorem log_adapted (i : Int) :
    (st.adapted p place i).log =
      st.log ++ if p then [(place, Utf8.encode (toString i))] else [] := by
  rw [Site.adapted]
  split <;> simp

/-- Other files are as before. -/
theorem files_adapted (i : Int) (h : place' = place → ¬ p) :
    (st.adapted p place i).files place' = st.files place' := by
  rw [Site.adapted]
  split
  · next hp =>
    have hne : place' ≠ place := fun heq => h heq hp
    rw [files_write, Function.update_of_ne hne]
  · rfl

end Reads

section Steps

variable {extra : List String → String → Bool} {tree : Tree} {s : Classes} {fl : Floats}
  {dev : Device} {b : BusRef} {d : String} {v : SetupVector} {st : Site} {x t : ℚ}

/-- A number is read. -/
theorem valueOf_eq (hs : Generated extra tree s) (hv : tree.Provides extra [] d v)
    (hd : arrayKind d = none) (hr : v.readable = true) (ht : v.typ ∈ floatTypes)
    (hdev : dev.bus = some b) (hx : st.Reads fl (fileOf dev b [d]) x) :
    valueOf extra s fl dev d st = .ok (.float x) st := by
  obtain ⟨res, hfile, hparse⟩ := hx
  have hget := hs.getattr_eq rfl hv (mem_accessors_value hd hv.index hr)
  have huse : use extra s fl dev [] d .value st = .ok (.value (.float x)) st := by
    rw [use_attrGet rfl hget rfl hdev hfile]
    apply ofExcept_of_ok
    simp [convert, readConv, ht, hparse, Except.map]
  rw [valueOf, bind_of_ok huse]
  rfl

/-- An integer is written if the temperature is beyond the bound. -/
theorem adapt_eq (hs : Generated extra tree s) (hv : tree.Provides extra [] d v)
    (hd : arrayKind d = none) (hw : v.writable = true) (ht : v.typ ∈ floatTypes)
    (hdev : dev.bus = some b) (key : String) (p : Prop) [Decidable p] (f : ℚ → ℚ)
    (bound : PyValue) (reasons : Dict String PyValue) :
    adapt extra s fl dev d key (decide p) (.float t) f bound reasons st =
      .ok (if p then reasons.set key bound else reasons)
        (st.adapted p (fileOf dev b [d]) (trunc (f t))) := by
  by_cases hp : p
  · have hget := hs.getattr_eq rfl hv (mem_accessors_set hd hv.index hw)
    have hvalue : Sent.value fl (.conv v.typ (.int (trunc (f t)))) =
        .ok (.bytes (Utf8.encode (toString (trunc (f t))))) := by
      have hb : v.typ ≠ "b" := by
        rintro heq
        simp [heq, floatTypes] at ht
      have hy : v.typ ≠ "y" := by
        rintro heq
        simp [heq, floatTypes] at ht
      simp [Sent.value, writeConv, hb, hy, PyValue.str]
    have hwalk : walk extra s [] [] = .ok [] := rfl
    have huse := use_attrSet (u := .set (.int (trunc (f t)))) (n := "set_" ++ d) hwalk hget rfl
      hdev hvalue st
    have hnumber : number (.float t) = .ok t := rfl
    rw [Site.adapted, if_pos hp, if_pos hp, adapt, decide_eq_true hp, if_pos rfl,
      bind_of_ok (ofExcept_of_ok hnumber st), bind_of_ok huse]
    rfl
  · rw [Site.adapted, if_neg hp, if_neg hp, adapt, decide_eq_false hp]
    rfl

end Steps

/-! ## The alarm -/

section Clear

variable {extra : List String → String → Bool} {tree : Tree} {s : Classes} {fl : Floats}
  {dev : Device} {b : BusRef} {st : Site} {x t th tl : ℚ}

/-- The temperature is not in a file. -/
theorem Site.Reads.noted {place : Place} (h : st.Reads fl place x) (v : PyValue) :
    ({ st with alarmTemperature := some v } : Site).Reads fl place x := h

/-- The reasons. -/
def reasonsFor (t th tl : ℚ) : Dict String PyValue :=
  let reasons := (∅ : Dict String PyValue).set "temp" (.float t)
  let reasons := if th < t then reasons.set "high" (.float th) else reasons
  if t < tl then reasons.set "low" (.float tl) else reasons

/-- The files and the temperature, with the bounds moved. -/
def Site.cleared (st : Site) (high low : Place) (t th tl : ℚ) : Site :=
  (({ st with alarmTemperature := some (.float t) } : Site).adapted (th < t) high
    (trunc (t + 2))).adapted (t < tl) low (trunc (t - 1))

/-- **What `poll_alarm` does**. -/
theorem pollAlarm_eq (hs : Generated extra tree s) (hT : Thermometer extra tree)
    (hdev : dev.bus = some b) (ht : st.Reads fl (fileOf dev b ["latesttemp"]) t)
    (hh : st.Reads fl (fileOf dev b ["temphigh"]) th)
    (hl : st.Reads fl (fileOf dev b ["templow"]) tl) :
    TemperatureDevice.pollAlarm extra s fl dev st = .ok (reasonsFor t th tl)
      (st.cleared (fileOf dev b ["temphigh"]) (fileOf dev b ["templow"]) t th tl) := by
  obtain ⟨htyp, hhtyp, hltyp⟩ := hT.typ_mem
  have hhrw := SetupVector.access_of_rw hT.temphigh_access
  have hlrw := SetupVector.access_of_rw hT.templow_access
  have hne : fileOf dev b ["templow"] ≠ fileOf dev b ["temphigh"] := by
    rw [ne_eq, fileOf_inj]
    decide
  have hlatest := valueOf_eq hs hT.latesttemp_provided (by decide) hT.readable htyp hdev ht
  have hnote : (modify fun st => { st with alarmTemperature := some (.float t) } : Poll Unit) st =
      .ok () { st with alarmTemperature := some (.float t) } := rfl
  have hhigh := valueOf_eq hs hT.temphigh_provided (by decide) hhrw.1 hhtyp hdev (hh.noted (.float t))
  have hless : less (.float th) (.float t) = .ok (decide (th < t)) := rfl
  have hless' : less (.float t) (.float tl) = .ok (decide (t < tl)) := rfl
  rw [TemperatureDevice.pollAlarm, bind_of_ok hlatest, bind_of_ok hnote, bind_of_ok hhigh,
    bind_of_ok (ofExcept_of_ok hless _),
    bind_of_ok (adapt_eq hs hT.temphigh_provided (by decide) hhrw.2 hhtyp hdev _ _ _ _ _),
    bind_of_ok (valueOf_eq hs hT.templow_provided (by decide) hlrw.1 hltyp hdev
      ((hl.noted (.float t)).adapted_ne hne _)),
    bind_of_ok (ofExcept_of_ok hless' _),
    adapt_eq hs hT.templow_provided (by decide) hlrw.2 hltyp hdev]
  rfl

/-- The reasons are the temperature and the bounds that it exceeds. -/
theorem get?_reasonsFor (t th tl : ℚ) (k : String) (v : PyValue) :
    (reasonsFor t th tl).get? k = some v ↔ k = "temp" ∧ v = .float t ∨
      (k = "high" ∧ th < t ∧ v = .float th) ∨ k = "low" ∧ t < tl ∧ v = .float tl := by
  rw [reasonsFor]
  by_cases hh : th < t <;> by_cases hl : t < tl <;> simp only [hh, hl, if_true, if_false] <;>
    simp only [Dict.get?_set, Dict.get?_empty] <;> grind

/-- **Both bounds** read as they have been set, or as before. -/
theorem reads_cleared (hfl : ReadsInts fl) {high low : Place} (hne : high ≠ low)
    (hh : st.Reads fl high th) (hl : st.Reads fl low tl) :
    (st.cleared high low t th tl).Reads fl high (if th < t then (trunc (t + 2) : ℚ) else th) ∧
      (st.cleared high low t th tl).Reads fl low (if t < tl then (trunc (t - 1) : ℚ) else tl) := by
  constructor
  · exact ((hh.noted (.float t)).adapted_self hfl _).adapted_ne hne _
  · exact ((hl.noted (.float t)).adapted_ne hne.symm _).adapted_self hfl _

/-- The new bounds, whatever the signs. -/
theorem cleared_cleared (st : Site) (high low : Place) (t th tl : ℚ) :
    Cleared high low t th tl (if th < t then (trunc (t + 2) : ℚ) else th)
      (if t < tl then (trunc (t - 1) : ℚ) else tl) st (st.cleared high low t th tl)
      (reasonsFor t th tl) := by
  have hup := lt_trunc_add (x := t) (k := 2) (by norm_num)
  have hdown := trunc_sub_lt (x := t) (k := 1) (le_refl 1)
  constructor
  case low_le => split <;> linarith
  case le_high => split <;> linarith
  case ordered => split <;> split <;> intro _ <;> linarith
  case high_moved =>
    intro h
    rw [if_pos h]
    constructor <;> linarith
  case low_moved =>
    intro h
    rw [if_pos h]
    constructor <;> linarith
  case log_eq => exact ⟨_, _, by rw [Site.cleared, log_adapted, log_adapted]⟩
  case others =>
    intro place hhigh hlow
    rw [Site.cleared, files_adapted _ hlow, files_adapted _ hhigh]
  case reasons_iff => exact get?_reasonsFor t th tl

/-- **A temperature alarm is cleared**, whatever the temperature and the bounds. -/
theorem cleared_of_poll (hs : Generated extra tree s) (hT : Thermometer extra tree)
    (hfl : ReadsInts fl) (hdev : dev.bus = some b)
    (ht : st.Reads fl (fileOf dev b ["latesttemp"]) t)
    (hh : st.Reads fl (fileOf dev b ["temphigh"]) th)
    (hl : st.Reads fl (fileOf dev b ["templow"]) tl) :
    ∃ reasons st' th' tl', TemperatureDevice.pollAlarm extra s fl dev st = .ok reasons st' ∧
      st'.Reads fl (fileOf dev b ["temphigh"]) th' ∧ st'.Reads fl (fileOf dev b ["templow"]) tl' ∧
      Cleared (fileOf dev b ["temphigh"]) (fileOf dev b ["templow"]) t th tl th' tl' st st'
        reasons := by
  have hne : fileOf dev b ["temphigh"] ≠ fileOf dev b ["templow"] := by
    rw [ne_eq, fileOf_inj]
    decide
  obtain ⟨hhigh, hlow⟩ := reads_cleared hfl hne hh hl
  exact ⟨_, _, _, _, pollAlarm_eq hs hT hdev ht hh hl, hhigh, hlow,
    cleared_cleared st _ _ t th tl⟩

/-- Within the bounds there is nothing to do. -/
theorem pollAlarm_within (hs : Generated extra tree s) (hT : Thermometer extra tree)
    (hdev : dev.bus = some b) (ht : st.Reads fl (fileOf dev b ["latesttemp"]) t)
    (hh : st.Reads fl (fileOf dev b ["temphigh"]) th)
    (hl : st.Reads fl (fileOf dev b ["templow"]) tl) (hlow : tl ≤ t) (hhigh : t ≤ th) :
    TemperatureDevice.pollAlarm extra s fl dev st =
      .ok ((∅ : Dict String PyValue).set "temp" (.float t))
        { st with alarmTemperature := some (.float t) } := by
  rw [pollAlarm_eq hs hT hdev ht hh hl, reasonsFor, Site.cleared, Site.adapted, Site.adapted]
  simp [not_lt.mpr hlow, not_lt.mpr hhigh]

/-- **The alarm stays cleared**: at the same temperature, the next poll writes nothing and
has no other reasons. -/
theorem pollAlarm_again (hs : Generated extra tree s) (hT : Thermometer extra tree)
    (hfl : ReadsInts fl) (hdev : dev.bus = some b)
    (ht : st.Reads fl (fileOf dev b ["latesttemp"]) t)
    (hh : st.Reads fl (fileOf dev b ["temphigh"]) th)
    (hl : st.Reads fl (fileOf dev b ["templow"]) tl) {reasons : Dict String PyValue}
    {st' : Site} (hrun : TemperatureDevice.pollAlarm extra s fl dev st = .ok reasons st') :
    TemperatureDevice.pollAlarm extra s fl dev st' =
      .ok ((∅ : Dict String PyValue).set "temp" (.float t))
        { st' with alarmTemperature := some (.float t) } := by
  have hne : fileOf dev b ["temphigh"] ≠ fileOf dev b ["templow"] := by
    rw [ne_eq, fileOf_inj]
    decide
  rw [pollAlarm_eq hs hT hdev ht hh hl] at hrun
  injection hrun with hreasons hst
  subst hst
  obtain ⟨hhigh, hlow⟩ := reads_cleared hfl hne hh hl
  have hcleared := cleared_cleared st (fileOf dev b ["temphigh"]) (fileOf dev b ["templow"]) t th tl
  refine pollAlarm_within hs hT hdev ?_ hhigh hlow hcleared.low_le hcleared.le_high
  obtain ⟨res, hfile, hparse⟩ := ht
  refine ⟨res, ?_, hparse⟩
  rw [hcleared.others _ (by simp [fileOf_inj]) (by simp [fileOf_inj]), hfile]

end Clear

/-! ## A sensor -/

/-- The structure of the tests, in part. -/
def sensorTree : Struct.Tree :=
  .file "family" (Utf8.encode "a,000000,000001,ro,000002,f,")
    (.file "latesttemp" (Utf8.encode "t,000000,000001,ro,000012,v,")
      (.file "temphigh" (Utf8.encode "t,000000,000001,rw,000012,s,")
        (.file "templow" (Utf8.encode "t,000000,000001,rw,000012,s,") .nil)))

theorem listed_sensorTree : sensorTree.Listed :=
  (((Tree.listed_nil.file _ _).file _ _).file _ _).file _ _

def thermometer : Thermometer (fun _ _ => false) sensorTree where
  latesttemp := ⟨"t", 0, 1, "ro", 12, ["v", ""]⟩
  temphigh := ⟨"t", 0, 1, "rw", 12, ["s", ""]⟩
  templow := ⟨"t", 0, 1, "rw", 12, ["s", ""]⟩
  latesttemp_provided := ⟨by decide +kernel, rfl, by decide +kernel⟩
  temphigh_provided := ⟨by decide +kernel, rfl, by decide +kernel⟩
  templow_provided := ⟨by decide +kernel, rfl, by decide +kernel⟩
  typ_mem := by decide
  readable := by decide
  temphigh_access := rfl
  templow_access := rfl

def sensor : Device := { id := "10.345678.90", family := 0x10, bus := some ⟨0, ["bus.0"]⟩ }

/-- 12.5 degrees, between 15 and 20. -/
def sensorSite : Site where
  files place :=
    if place = fileOf sensor ⟨0, ["bus.0"]⟩ ["latesttemp"] then .ok (Utf8.encode "12.5")
    else if place = fileOf sensor ⟨0, ["bus.0"]⟩ ["temphigh"] then .ok (Utf8.encode "20")
    else if place = fileOf sensor ⟨0, ["bus.0"]⟩ ["templow"] then .ok (Utf8.encode "15")
    else .error (.owfsReply 2)

/-- The alarm of the tests. -/
theorem cleared_of_poll_sensor :
    ∃ s, Generated (fun _ _ => false) sensorTree s ∧
      ∃ reasons st' th' tl',
        TemperatureDevice.pollAlarm (fun _ _ => false) s decimals sensor sensorSite =
          .ok reasons st' ∧
        st'.Reads decimals (fileOf sensor ⟨0, ["bus.0"]⟩ ["temphigh"]) th' ∧
        st'.Reads decimals (fileOf sensor ⟨0, ["bus.0"]⟩ ["templow"]) tl' ∧
        Cleared (fileOf sensor ⟨0, ["bus.0"]⟩ ["temphigh"])
          (fileOf sensor ⟨0, ["bus.0"]⟩ ["templow"]) (25 / 2) 20 15 th' tl' sensorSite st'
          reasons := by
  obtain ⟨s, hs⟩ : ∃ s, Generated (fun _ _ => false) sensorTree s :=
    Generated.exists_of_sound listed_sensorTree (by decide +kernel)
  exact ⟨s, hs, cleared_of_poll hs thermometer readsInts_decimals rfl
    ⟨Utf8.encode "12.5", by decide +kernel, by decide +kernel⟩
    ⟨Utf8.encode "20", by decide +kernel, by decide +kernel⟩
    ⟨Utf8.encode "15", by decide +kernel, by decide +kernel⟩⟩

/-- The lower bound is moved to 11, and stays there. -/
theorem pollAlarm_again_sensor :
    ∃ s, Generated (fun _ _ => false) sensorTree s ∧
      ∃ reasons st',
        TemperatureDevice.pollAlarm (fun _ _ => false) s decimals sensor sensorSite =
          .ok reasons st' ∧
        TemperatureDevice.pollAlarm (fun _ _ => false) s decimals sensor st' =
          .ok ((∅ : Dict String PyValue).set "temp" (.float (25 / 2)))
            { st' with alarmTemperature := some (.float (25 / 2)) } := by
  obtain ⟨s, hs⟩ : ∃ s, Generated (fun _ _ => false) sensorTree s :=
    Generated.exists_of_sound listed_sensorTree (by decide +kernel)
  have hlatest : sensorSite.Reads decimals (fileOf sensor ⟨0, ["bus.0"]⟩ ["latesttemp"]) (25 / 2) :=
    ⟨Utf8.encode "12.5", by decide +kernel, by decide +kernel⟩
  have hhigh : sensorSite.Reads decimals (fileOf sensor ⟨0, ["bus.0"]⟩ ["temphigh"]) 20 :=
    ⟨Utf8.encode "20", by decide +kernel, by decide +kernel⟩
  have hlow : sensorSite.Reads decimals (fileOf sensor ⟨0, ["bus.0"]⟩ ["templow"]) 15 :=
    ⟨Utf8.encode "15", by decide +kernel, by decide +kernel⟩
  have hrun := pollAlarm_eq hs thermometer rfl hlatest hhigh hlow
  exact ⟨s, hs, _, _, hrun,
    pollAlarm_again hs thermometer readsInts_decimals rfl hlatest hhigh hlow hrun⟩

end Alarm

end AsyncOwfs
