import AsyncOwfs.Alarm

/-!
# AsyncOwfs.Alarm.Voltage

A voltage alarm is not cleared: where the flag of a channel is set,
`VoltageDevice.poll_alarm` awaits `set_high_all` or `set_low_all`, which is a function.
Without any flag it does what it should (`Clears`).
-/

namespace AsyncOwfs

namespace Alarm

open Struct Hoare

/-! ## `poll_alarm` -/

section Poll

variable (extra : List String → String → Bool) (s : Classes) (fl : Floats) (dev : Device)

/-- The loop over the channels whose flag is set, one turn of it. -/
def clearChannel (which : String) (flags bounds : Result) (reasons : Dict String PyValue)
    (i : Nat) : Poll (Dict String PyValue) := do
  let flag ← ofExcept (flags.item i)
  if flag.truth then
    let bound ← ofExcept (bounds.item i)
    let _ ← use extra s fl dev ["set_alarm"] ("set_" ++ which) (.setAt i (.int 0))
    pure (reasons.set (which ++ "_" ++ toString i) bound)
  else pure reasons

/-- `if any(flags): ...`, for the high or the low alarms. -/
def clearSide (which : String) (flags : Result) (reasons : Dict String PyValue) :
    Poll (Dict String PyValue) := do
  if ← ofExcept flags.any then
    let bounds ← use extra s fl dev ["set_alarm"] ("set_" ++ which ++ "_all") .value
    (List.range 4).foldlM (clearChannel extra s fl dev which flags bounds) reasons
  else pure reasons

def addVoltage (v : Result) (reasons : Dict String PyValue) (i : Nat) :
    Poll (Dict String PyValue) := do
  let x ← ofExcept (v.item i)
  pure (reasons.set ("volt_" ++ toString i) x)

/-- `if power: ...` -/
def clearUnset (power : Result) (reasons : Dict String PyValue) : Poll (Dict String PyValue) :=
  if power.truth then do
    let _ ← use extra s fl dev ["set_alarm"] "set_unset" (.set (.int 0))
    pure (reasons.set "power_on" (.bool true))
  else pure reasons

/-- `VoltageDevice.poll_alarm` -/
def VoltageDevice.pollAlarm : Poll (Dict String PyValue) := do
  let v ← use extra s fl dev [] "voltage_all" .value
  let ah ← use extra s fl dev ["alarm"] "high_all" .value
  let al ← use extra s fl dev ["alarm"] "low_all" .value
  let power ← use extra s fl dev ["set_alarm"] "unset" .value
  let reasons ← clearUnset extra s fl dev power ∅
  let reasons ← clearSide extra s fl dev "high" ah reasons
  let reasons ← clearSide extra s fl dev "low" al reasons
  (List.range 4).foldlM (addVoltage v) reasons

end Poll

/-! ## The structure -/

/-- An array in a directory, with numbers or letters. -/
structure ArrayFile (extra : List String → String → Bool) (T : Struct.Tree) (r : List String)
    (name : String) where
  file : String
  num : Bool
  vector : SetupVector
  kind_eq : arrayKind file = some num
  name_eq : arrayName file = name
  provided : T.Provides extra r file vector

/-- The structure has the arrays and `unset`. -/
structure Voltmeter (extra : List String → String → Bool) (tree : Struct.Tree) where
  alarm : Struct.Tree
  setAlarm : Struct.Tree
  alarm_eq : tree.sub? ["alarm"] = some alarm
  setAlarm_eq : tree.sub? ["set_alarm"] = some setAlarm
  enters_alarm : tree.Enters extra [] "alarm"
  enters_setAlarm : tree.Enters extra [] "set_alarm"
  voltage : ArrayFile extra tree [] "voltage"
  high : ArrayFile extra alarm ["alarm"] "high"
  low : ArrayFile extra alarm ["alarm"] "low"
  setHigh : ArrayFile extra setAlarm ["set_alarm"] "high"
  setLow : ArrayFile extra setAlarm ["set_alarm"] "low"
  unset : SetupVector
  unset_provided : setAlarm.Provides extra ["set_alarm"] "unset" unset
  voltage_readable : voltage.vector.readable = true
  high_readable : high.vector.readable = true
  low_readable : low.vector.readable = true
  setHigh_access : setHigh.vector.access = "rw"
  setLow_access : setLow.vector.access = "rw"
  unset_access : unset.access = "rw"

/-- An array of four values is read. -/
structure Site.ReadsFour (st : Site) (fl : Floats) (place : Place) (typ : String)
    (vs : List PyValue) : Prop where
  read : ∃ res, st.files place = .ok res ∧ readAll fl typ res = .ok vs
  length_eq : vs.length = 4

/-- What there is to be read. -/
structure Readings {extra : List String → String → Bool} {tree : Struct.Tree}
    (T : Voltmeter extra tree) (fl : Floats) (dev : Device) (b : BusRef) (st : Site) where
  voltages : List PyValue
  highFlags : List PyValue
  lowFlags : List PyValue
  highs : List PyValue
  lows : List PyValue
  power : PyValue
  read_voltages : st.ReadsFour fl (fileOf dev b ["voltage.ALL"]) T.voltage.vector.typ voltages
  read_highFlags : st.ReadsFour fl (fileOf dev b ["alarm", "high.ALL"]) T.high.vector.typ highFlags
  read_lowFlags : st.ReadsFour fl (fileOf dev b ["alarm", "low.ALL"]) T.low.vector.typ lowFlags
  read_highs : st.ReadsFour fl (fileOf dev b ["set_alarm", "high.ALL"]) T.setHigh.vector.typ highs
  read_lows : st.ReadsFour fl (fileOf dev b ["set_alarm", "low.ALL"]) T.setLow.vector.typ lows
  read_power : ∃ res, st.files (fileOf dev b ["set_alarm", "unset"]) = .ok res ∧
    readConv fl T.unset.typ res = .ok power

/-! ## Alarms that are cleared -/

/-- The flag of a channel is set. -/
def Flagged (flags : List PyValue) (i : Nat) : Prop := ∃ v, flags[i]? = some v ∧ v.truth = true

section Clears

variable {extra : List String → String → Bool} {tree : Struct.Tree} (T : Voltmeter extra tree)
  {fl : Floats} (dev : Device) (b : BusRef)

/-- The write of a zero to a file below `set_alarm`. -/
def zeroed (name : String) : Place × Bytes := (fileOf dev b ["set_alarm", name], Utf8.encode "0")

/-- The channels with a flag are disabled, `unset` is reset if it was set, and nothing else
is written; the reasons are the voltages and whatever has been cleared. -/
structure VoltCleared {st : Site} (R : Readings T fl dev b st) (st' : Site)
    (reasons : Dict String PyValue) : Prop where
  writes : ∃ ws, st'.log = st.log ++ ws ∧ ∀ w, w ∈ ws ↔
    R.power.truth = true ∧ w = zeroed dev b "unset" ∨
    (∃ i : Nat, i < 4 ∧ Flagged R.highFlags i ∧
      ∃ idx, elementName T.setHigh.num i = .ok idx ∧ w = zeroed dev b ("high." ++ idx)) ∨
    ∃ i : Nat, i < 4 ∧ Flagged R.lowFlags i ∧
      ∃ idx, elementName T.setLow.num i = .ok idx ∧ w = zeroed dev b ("low." ++ idx)
  reasons_iff : ∀ k x, reasons.get? k = some x ↔
    (∃ i : Nat, i < 4 ∧ k = "volt_" ++ toString i ∧ R.voltages[i]? = some x) ∨
    (∃ i : Nat, i < 4 ∧ k = "high_" ++ toString i ∧ Flagged R.highFlags i ∧
      R.highs[i]? = some x) ∨
    (∃ i : Nat, i < 4 ∧ k = "low_" ++ toString i ∧ Flagged R.lowFlags i ∧ R.lows[i]? = some x) ∨
    k = "power_on" ∧ R.power.truth = true ∧ x = .bool true

/-- `poll_alarm` returns, and has cleared the alarms. -/
def Clears (s : Classes) {st : Site} (R : Readings T fl dev b st) : Prop :=
  ∃ reasons st', VoltageDevice.pollAlarm extra s fl dev st = .ok reasons st' ∧
    VoltCleared T dev b R st' reasons

end Clears

/-! ## Reading -/

section Steps

variable {extra : List String → String → Bool} {tree T' : Struct.Tree} {s : Classes} {fl : Floats}
  {dev : Device} {b : BusRef} {st : Site}

/-- All elements of an array are read. -/
theorem use_all (hs : Generated extra tree s) {path : List String}
    (hwalk : walk extra s [] path = .ok path) (hsub : tree.sub? path = some T') {name : String}
    (A : ArrayFile extra T' path name) (hr : A.vector.readable = true) (hdev : dev.bus = some b)
    {vs : List PyValue} {n : String} (hn : name ++ "_all" = n) {file : String}
    (hfile : name ++ "." ++ "ALL" = file)
    (hx : st.ReadsFour fl (fileOf dev b (path ++ [file])) A.vector.typ vs) :
    use extra s fl dev path n .value st = .ok (.list vs) st := by
  obtain ⟨res, hfiles, hread⟩ := hx.read
  subst hn hfile
  have hget := hs.getattr_eq hsub A.provided
    (mem_accessors_all A.kind_eq A.provided.index hr)
  rw [A.name_eq] at hget
  rw [← elementPath_append] at hfiles
  rw [use_attrGet hwalk hget rfl hdev hfiles]
  apply ofExcept_of_ok
  simp [convert, hread, Except.map]

/-- A function is not awaited. -/
theorem use_setAll (hs : Generated extra tree s) {path : List String}
    (hwalk : walk extra s [] path = .ok path) (hsub : tree.sub? path = some T') {name : String}
    (A : ArrayFile extra T' path name) (hw : A.vector.writable = true) (st : Site) :
    use extra s fl dev path ("set_" ++ name ++ "_all") .value st = .error .typeError st := by
  have hget := hs.getattr_eq hsub A.provided
    (mem_accessors_setAll A.kind_eq A.provided.index hw)
  rw [A.name_eq] at hget
  exact use_of_error hwalk hget rfl

/-- `any` looks at the values of a list. -/
theorem any_list (vs : List PyValue) : (Result.list vs).any = .ok (vs.any PyValue.truth) := rfl

/-- Without flags there is nothing to do. -/
theorem clearSide_of_quiet {flags : List PyValue} (h : ∀ v ∈ flags, v.truth = false)
    (which : String) (reasons : Dict String PyValue) (st : Site) :
    clearSide extra s fl dev which (.list flags) reasons st = .ok reasons st := by
  have hany : flags.any PyValue.truth = false := by
    simpa using h
  rw [clearSide, bind_of_ok (ofExcept_of_ok (any_list flags) st), hany]
  rfl

/-- **With a flag** it fails, whichever it is. -/
theorem clearSide_of_flag (hs : Generated extra tree s)
    (hwalk : walk extra s [] ["set_alarm"] = .ok ["set_alarm"])
    (hsub : tree.sub? ["set_alarm"] = some T') {which : String}
    (A : ArrayFile extra T' ["set_alarm"] which) (hw : A.vector.writable = true)
    {flags : List PyValue} (h : ∃ v ∈ flags, v.truth = true) (reasons : Dict String PyValue)
    (st : Site) :
    clearSide extra s fl dev which (.list flags) reasons st = .error .typeError st := by
  have hany : flags.any PyValue.truth = true := by
    simpa using h
  rw [clearSide, bind_of_ok (ofExcept_of_ok (any_list flags) st), hany, if_pos rfl,
    bind_of_error (use_setAll hs hwalk hsub A hw st)]

/-- The loop over the voltages. -/
theorem addVoltages_eq {v₀ v₁ v₂ v₃ : PyValue} (reasons : Dict String PyValue) (st : Site) :
    (List.range 4).foldlM (addVoltage (.list [v₀, v₁, v₂, v₃])) reasons st =
      .ok ((((reasons.set "volt_0" v₀).set "volt_1" v₁).set "volt_2" v₂).set "volt_3" v₃) st :=
  rfl

end Steps

/-! ## The alarm -/

section Clear

variable {extra : List String → String → Bool} {tree : Struct.Tree} {s : Classes} {fl : Floats}
  {dev : Device} {b : BusRef} {T : Voltmeter extra tree} {st : Site}

/-- The reasons so far. -/
def unsetReasons (power : PyValue) : Dict String PyValue :=
  if power.truth then (∅ : Dict String PyValue).set "power_on" (.bool true) else ∅

/-- The files with `unset` reset. -/
def Site.unset (st : Site) (dev : Device) (b : BusRef) (power : PyValue) : Site :=
  if power.truth then st.write (fileOf dev b ["set_alarm", "unset"]) (Utf8.encode "0") else st

/-- A zero is the same for every type. -/
theorem encode_zero (fl : Floats) (typ : String) :
    ((writeConv fl typ (.int 0)).setValue fl).encode = Utf8.encode "0" := by
  rw [writeConv]
  split
  · rfl
  · split <;> rfl

/-- **The power-on flag** is reset if it is set. -/
theorem clearUnset_eq (hs : Generated extra tree s) (T : Voltmeter extra tree)
    (hdev : dev.bus = some b) (power : PyValue) (st : Site) :
    clearUnset extra s fl dev (.value power) ∅ st =
      .ok (unsetReasons power) (st.unset dev b power) := by
  rw [clearUnset, Result.truth, unsetReasons, Site.unset]
  split
  · have hw := (SetupVector.access_of_rw T.unset_access).2
    have hget := hs.getattr_eq T.setAlarm_eq T.unset_provided
      (mem_accessors_set (by decide) T.unset_provided.index hw)
    have hzero := encode_zero fl T.unset.typ
    have huse : use extra s fl dev ["set_alarm"] "set_unset" (.set (.int 0)) st =
        .ok (.value .none) (st.write (fileOf dev b ["set_alarm", "unset"])
          ((writeConv fl T.unset.typ (.int 0)).setValue fl).encode) :=
      use_attrSet (hs.walk_eq T.enters_setAlarm) hget rfl hdev rfl st
    rw [bind_of_ok huse, hzero]
    rfl
  · rfl

/-- Up to the flags, `poll_alarm` reads, and resets `unset`. -/
theorem pollAlarm_eq_sides (hs : Generated extra tree s) (hdev : dev.bus = some b)
    (R : Readings T fl dev b st) :
    VoltageDevice.pollAlarm extra s fl dev st = (do
      let reasons ← clearSide extra s fl dev "high" (.list R.highFlags) (unsetReasons R.power)
      let reasons ← clearSide extra s fl dev "low" (.list R.lowFlags) reasons
      (List.range 4).foldlM (addVoltage (.list R.voltages)) reasons : Poll _)
        (st.unset dev b R.power) := by
  have hwalk := hs.walk_eq T.enters_alarm
  have hwalk' := hs.walk_eq T.enters_setAlarm
  have hv : use extra s fl dev [] "voltage_all" .value st = .ok (.list R.voltages) st :=
    use_all hs rfl rfl T.voltage T.voltage_readable hdev rfl rfl R.read_voltages
  have hh : use extra s fl dev ["alarm"] "high_all" .value st = .ok (.list R.highFlags) st :=
    use_all hs hwalk T.alarm_eq T.high T.high_readable hdev rfl rfl R.read_highFlags
  have hl : use extra s fl dev ["alarm"] "low_all" .value st = .ok (.list R.lowFlags) st :=
    use_all hs hwalk T.alarm_eq T.low T.low_readable hdev rfl rfl R.read_lowFlags
  have hp : use extra s fl dev ["set_alarm"] "unset" .value st = .ok (.value R.power) st := by
    obtain ⟨res, hfile, hpower⟩ := R.read_power
    have hr := (SetupVector.access_of_rw T.unset_access).1
    have hget := hs.getattr_eq T.setAlarm_eq T.unset_provided
      (mem_accessors_value (by decide) T.unset_provided.index hr)
    rw [use_attrGet hwalk' hget rfl hdev hfile]
    apply ofExcept_of_ok
    simp [convert, hpower, Except.map]
  rw [VoltageDevice.pollAlarm, bind_of_ok hv, bind_of_ok hh, bind_of_ok hl, bind_of_ok hp,
    bind_of_ok (clearUnset_eq hs T hdev R.power st)]

/-- No flag is set. -/
def Readings.Quiet (R : Readings T fl dev b st) : Prop :=
  (∀ v ∈ R.highFlags, v.truth = false) ∧ ∀ v ∈ R.lowFlags, v.truth = false

/-- Where no flag is set, none is cleared. -/
theorem not_flagged {flags : List PyValue} (h : ∀ v ∈ flags, v.truth = false) (i : Nat) :
    ¬ Flagged flags i := by
  rintro ⟨v, hv, htruth⟩
  rw [h v (List.mem_of_getElem? hv)] at htruth
  contradiction

/-- Only a flag that is set is written to. -/
theorem log_unset (st : Site) (power : PyValue) :
    (st.unset dev b power).log =
      st.log ++ if power.truth then [zeroed dev b "unset"] else [] := by
  rw [Site.unset]
  split
  · rfl
  · rw [List.append_nil]

/-- There are four channels. -/
theorem exists_lt_four {P : Nat → Prop} : (∃ i, i < 4 ∧ P i) ↔ P 0 ∨ P 1 ∨ P 2 ∨ P 3 := by
  constructor
  · rintro ⟨i, hi, h⟩
    obtain rfl | rfl | rfl | rfl : i = 0 ∨ i = 1 ∨ i = 2 ∨ i = 3 := by omega
    all_goals simp [h]
  · rintro (h | h | h | h)
    · exact ⟨0, by decide, h⟩
    · exact ⟨1, by decide, h⟩
    · exact ⟨2, by decide, h⟩
    · exact ⟨3, by decide, h⟩

/-- The reasons, if there is no flag. -/
theorem get?_addVoltages (power v₀ v₁ v₂ v₃ : PyValue) (k : String) (x : PyValue) :
    (((((unsetReasons power).set "volt_0" v₀).set "volt_1" v₁).set "volt_2" v₂).set "volt_3"
        v₃).get? k = some x ↔
      (∃ i : Nat, i < 4 ∧ k = "volt_" ++ toString i ∧ [v₀, v₁, v₂, v₃][i]? = some x) ∨
        k = "power_on" ∧ power.truth = true ∧ x = .bool true := by
  have hunset : (unsetReasons power).get? k = some x ↔
      k = "power_on" ∧ power.truth = true ∧ x = .bool true := by
    rw [unsetReasons]
    split
    · next hp =>
      simp only [Dict.get?_set, Dict.get?_empty, hp]
      grind
    · next hp => simp [hp]
  have h₀ : "volt_" ++ toString 0 = "volt_0" := by decide
  have h₁ : "volt_" ++ toString 1 = "volt_1" := by decide
  have h₂ : "volt_" ++ toString 2 = "volt_2" := by decide
  have h₃ : "volt_" ++ toString 3 = "volt_3" := by decide
  rw [exists_lt_four, h₀, h₁, h₂, h₃, ← hunset]
  simp only [Dict.get?_set]
  grind

/-- **Without flags** it does what it should. -/
theorem clears_of_quiet (hs : Generated extra tree s) (hdev : dev.bus = some b)
    {R : Readings T fl dev b st} (hR : R.Quiet) : Clears T dev b s R := by
  obtain ⟨v₀, v₁, v₂, v₃, hvoltages⟩ := List.length_eq_four.mp R.read_voltages.length_eq
  have hhigh := not_flagged hR.1
  have hlow := not_flagged hR.2
  have hrun : VoltageDevice.pollAlarm extra s fl dev st =
      .ok (((((unsetReasons R.power).set "volt_0" v₀).set "volt_1" v₁).set "volt_2" v₂).set "volt_3"
        v₃) (st.unset dev b R.power) := by
    rw [pollAlarm_eq_sides hs hdev R, bind_of_ok (clearSide_of_quiet hR.1 "high" _ _),
      bind_of_ok (clearSide_of_quiet hR.2 "low" _ _), hvoltages, addVoltages_eq]
  refine ⟨_, _, hrun, ⟨_, log_unset st R.power, ?_⟩, ?_⟩
  · intro w
    cases R.power.truth <;> simp [hhigh, hlow]
  · intro k x
    rw [get?_addVoltages, hvoltages]
    simp [hhigh, hlow]

/-- Whichever flag is set, `poll_alarm` raises a `TypeError`. -/
theorem pollAlarm_of_flag (hs : Generated extra tree s) (hdev : dev.bus = some b)
    {R : Readings T fl dev b st} (hR : ¬ R.Quiet) :
    VoltageDevice.pollAlarm extra s fl dev st = .error .typeError (st.unset dev b R.power) := by
  have hwalk := hs.walk_eq T.enters_setAlarm
  have hhigh := (SetupVector.access_of_rw T.setHigh_access).2
  have hlow := (SetupVector.access_of_rw T.setLow_access).2
  rw [pollAlarm_eq_sides hs hdev R]
  by_cases hh : ∀ v ∈ R.highFlags, v.truth = false
  · have hl : ∃ v ∈ R.lowFlags, v.truth = true := by
      by_contra hl
      exact hR ⟨hh, by simpa using hl⟩
    rw [bind_of_ok (clearSide_of_quiet hh "high" _ _),
      bind_of_error (clearSide_of_flag hs hwalk T.setAlarm_eq T.setLow hlow hl _ _)]
  · have hh : ∃ v ∈ R.highFlags, v.truth = true := by
      simpa using hh
    rw [bind_of_error (clearSide_of_flag hs hwalk T.setAlarm_eq T.setHigh hhigh hh _ _)]

/-- **Voltage alarms are cleared** if and only if there are none. -/
theorem clears_iff (hs : Generated extra tree s) (hdev : dev.bus = some b)
    (R : Readings T fl dev b st) : Clears T dev b s R ↔ R.Quiet := by
  constructor
  · rintro ⟨reasons, st', hok, -⟩
    by_contra hR
    rw [pollAlarm_of_flag hs hdev hR] at hok
    contradiction
  · exact clears_of_quiet hs hdev

end Clear

/-! ## A converter -/

/-- The structure of a converter with four channels, in part. -/
def converterTree : Struct.Tree :=
  .file "family" (Utf8.encode "a,000000,000001,ro,000002,f,")
    (.dir "alarm"
      (.file "high.A" (Utf8.encode "y,000000,000004,ro,000001,v,")
        (.file "low.A" (Utf8.encode "y,000000,000004,ro,000001,v,") .nil))
      (.dir "set_alarm"
        (.file "high.A" (Utf8.encode "y,000000,000004,rw,000001,s,")
          (.file "low.A" (Utf8.encode "y,000000,000004,rw,000001,s,")
            (.file "unset" (Utf8.encode "y,000000,000001,rw,000001,s,") .nil)))
        (.file "voltage.A" (Utf8.encode "f,000000,000004,ro,000012,v,") .nil)))

theorem listed_converterTree : converterTree.Listed := by
  refine (Tree.Listed.dir ?_ (Tree.Listed.dir ?_ (Tree.listed_nil.file _ _) ?_) ?_).file _ _
  · exact (Tree.listed_nil.file _ _).file _ _
  · exact ((Tree.listed_nil.file _ _).file _ _).file _ _
  · decide
  · decide

def voltmeter : Voltmeter (fun _ _ => false) converterTree where
  alarm := _
  setAlarm := _
  alarm_eq := rfl
  setAlarm_eq := rfl
  enters_alarm := ⟨by decide +kernel, by decide +kernel, by decide +kernel, by decide +kernel⟩
  enters_setAlarm := ⟨by decide +kernel, by decide +kernel, by decide +kernel, by decide +kernel⟩
  voltage := ⟨"voltage.A", false, ⟨"f", 0, 4, "ro", 12, ["v", ""]⟩, by decide, by decide,
    ⟨by decide +kernel, rfl, by decide +kernel⟩⟩
  high := ⟨"high.A", false, ⟨"y", 0, 4, "ro", 1, ["v", ""]⟩, by decide, by decide,
    ⟨by decide +kernel, rfl, by decide +kernel⟩⟩
  low := ⟨"low.A", false, ⟨"y", 0, 4, "ro", 1, ["v", ""]⟩, by decide, by decide,
    ⟨by decide +kernel, rfl, by decide +kernel⟩⟩
  setHigh := ⟨"high.A", false, ⟨"y", 0, 4, "rw", 1, ["s", ""]⟩, by decide, by decide,
    ⟨by decide +kernel, rfl, by decide +kernel⟩⟩
  setLow := ⟨"low.A", false, ⟨"y", 0, 4, "rw", 1, ["s", ""]⟩, by decide, by decide,
    ⟨by decide +kernel, rfl, by decide +kernel⟩⟩
  unset := ⟨"y", 0, 1, "rw", 1, ["s", ""]⟩
  unset_provided := ⟨by decide +kernel, rfl, by decide +kernel⟩
  voltage_readable := by decide
  high_readable := by decide
  low_readable := by decide
  setHigh_access := rfl
  setLow_access := rfl
  unset_access := rfl

def converter : Device := { id := "20.345678.90", family := 0x20, bus := some ⟨0, ["bus.0"]⟩ }

/-- Some voltages, and these flags. -/
def converterSite (flags : String) : Site where
  files place :=
    if place = fileOf converter ⟨0, ["bus.0"]⟩ ["voltage.ALL"] then
      .ok (Utf8.encode "1.5,0.2,3,2.5")
    else if place = fileOf converter ⟨0, ["bus.0"]⟩ ["alarm", "high.ALL"] then
      .ok (Utf8.encode flags)
    else if place = fileOf converter ⟨0, ["bus.0"]⟩ ["alarm", "low.ALL"] then
      .ok (Utf8.encode "0,0,0,0")
    else .ok (Utf8.encode (if place.2.getLast? = some "unset" then "1" else "1,1,1,1"))

def converterReadings (flags : String) (vs : List PyValue)
    (hread : readAll decimals "y" (Utf8.encode flags) = .ok vs) (hlength : vs.length = 4) :
    Readings voltmeter decimals converter ⟨0, ["bus.0"]⟩ (converterSite flags) where
  voltages := [.float (3 / 2), .float (1 / 5), .float 3, .float (5 / 2)]
  highFlags := vs
  lowFlags := [.bool false, .bool false, .bool false, .bool false]
  highs := [.bool true, .bool true, .bool true, .bool true]
  lows := [.bool true, .bool true, .bool true, .bool true]
  power := .bool true
  read_voltages := ⟨⟨Utf8.encode "1.5,0.2,3,2.5", rfl, by decide +kernel⟩, rfl⟩
  read_highFlags := ⟨⟨Utf8.encode flags, rfl, hread⟩, hlength⟩
  read_lowFlags := ⟨⟨Utf8.encode "0,0,0,0", rfl, by decide +kernel⟩, rfl⟩
  read_highs := ⟨⟨Utf8.encode "1,1,1,1", rfl, by decide +kernel⟩, rfl⟩
  read_lows := ⟨⟨Utf8.encode "1,1,1,1", rfl, by decide +kernel⟩, rfl⟩
  read_power := ⟨Utf8.encode "1", rfl, by decide +kernel⟩

/-- It has been switched on. -/
def onReadings : Readings voltmeter decimals converter ⟨0, ["bus.0"]⟩ (converterSite "0,0,0,0") :=
  converterReadings "0,0,0,0" [.bool false, .bool false, .bool false, .bool false]
    (by decide +kernel) rfl

/-- Its first channel is too high. -/
def highReadings : Readings voltmeter decimals converter ⟨0, ["bus.0"]⟩ (converterSite "1,0,0,0") :=
  converterReadings "1,0,0,0" [.bool true, .bool false, .bool false, .bool false]
    (by decide +kernel) rfl

/-- A converter that has been switched on is quiet. -/
theorem clears_iff_on :
    ∃ s, Generated (fun _ _ => false) converterTree s ∧
      (Clears voltmeter converter ⟨0, ["bus.0"]⟩ s onReadings ↔ onReadings.Quiet) := by
  obtain ⟨s, hs⟩ : ∃ s, Generated (fun _ _ => false) converterTree s :=
    Generated.exists_of_sound listed_converterTree (by decide +kernel)
  exact ⟨s, hs, clears_iff hs rfl onReadings⟩

/-- The flag ends the poll. -/
theorem not_clears_high :
    ∃ s, Generated (fun _ _ => false) converterTree s ∧
      ¬ Clears voltmeter converter ⟨0, ["bus.0"]⟩ s highReadings := by
  obtain ⟨s, hs⟩ : ∃ s, Generated (fun _ _ => false) converterTree s :=
    Generated.exists_of_sound listed_converterTree (by decide +kernel)
  refine ⟨s, hs, ?_⟩
  rintro ⟨reasons, st', hok, -⟩
  have hflag : ¬ highReadings.Quiet := by
    intro h
    have hfirst := h.1 (.bool true) List.mem_cons_self
    contradiction
  rw [pollAlarm_of_flag hs rfl hflag] at hok
  contradiction

end Alarm

end AsyncOwfs
