import CsmVgaSelector.Config.Parse
import Mathlib.Data.Nat.Bitwise
import Mathlib.Logic.Function.Basic
import Mathlib.Tactic.IntervalCases

/-!
# A configuration as a map of settings

What a configuration says is which settings it gives and with what values; the parser's record is a
function of that map. A setting is accepted once, and its value is accepted or refused on its own, so
that accepting a setting is an update of the map (`setKeyValue_iff`) and the order does not matter.
-/

namespace CsmVgaSelector

inductive Setting where
  | name
  | targetPci
  | expectedVendor
  | expectedDevice
  | expectedSubsystemVendor
  | expectedSubsystemDevice
  | targetControllerPci
  | legacyOptionDescription
  | excludeDescription
  | targetBbsDescription
  | ioDecoding
  | memoryDecoding
  | busMastering
  | probe
  | verboseLog
  | autoBoot
  | markerEnabled
  | markerPartition
  | markerSignature
  | markerStart
  | markerSectors
  | markerProfile
  | markerPath
  | markerHeader
  deriving DecidableEq, Repr

namespace Setting

def configSection : Setting → NcvConfigSection
  | name => .profile
  | targetPci | expectedVendor | expectedDevice | expectedSubsystemVendor
  | expectedSubsystemDevice => .video
  | targetControllerPci | legacyOptionDescription | excludeDescription
  | targetBbsDescription => .boot
  | ioDecoding | memoryDecoding | busMastering => .endpoint
  | probe | verboseLog | autoBoot => .behavior
  | markerEnabled | markerPartition | markerSignature | markerStart | markerSectors
  | markerProfile | markerPath | markerHeader => .marker

def key : Setting → Bytes
  | name => ascii "Name"
  | targetPci => ascii "TargetPci"
  | expectedVendor => ascii "ExpectedVendor"
  | expectedDevice => ascii "ExpectedDevice"
  | expectedSubsystemVendor => ascii "ExpectedSubsystemVendor"
  | expectedSubsystemDevice => ascii "ExpectedSubsystemDevice"
  | targetControllerPci => ascii "TargetControllerPci"
  | legacyOptionDescription => ascii "LegacyOptionDescription"
  | excludeDescription => ascii "ExcludeDescription"
  | targetBbsDescription => ascii "TargetBbsDescription"
  | ioDecoding => ascii "IoDecoding"
  | memoryDecoding => ascii "MemoryDecoding"
  | busMastering => ascii "BusMastering"
  | probe => ascii "Probe"
  | verboseLog => ascii "VerboseLog"
  | autoBoot => ascii "AutoBoot"
  | markerEnabled => ascii "Enabled"
  | markerPartition => ascii "PartitionNumber"
  | markerSignature => ascii "DiskSignature"
  | markerStart => ascii "PartitionStart"
  | markerSectors => ascii "PartitionSectors"
  | markerProfile => ascii "Profile"
  | markerPath => ascii "Path"
  | markerHeader => ascii "Header"

def all : List Setting :=
  [name, targetPci, expectedVendor, expectedDevice, expectedSubsystemVendor,
    expectedSubsystemDevice, targetControllerPci, legacyOptionDescription, excludeDescription,
    targetBbsDescription, ioDecoding, memoryDecoding, busMastering, probe, verboseLog, autoBoot,
    markerEnabled, markerPartition, markerSignature, markerStart, markerSectors, markerProfile,
    markerPath, markerHeader]

/-- The marker's settings, each at its bit. -/
def marker : List Setting :=
  [markerEnabled, markerPartition, markerSignature, markerStart, markerSectors, markerProfile,
    markerPath, markerHeader]

theorem mem_all (setting : Setting) : setting ∈ all := by cases setting <;> decide

end Setting

/-- The settings a configuration gives, as they are written. -/
abbrev Values := Setting → Option Bytes

/-! ### The record of a map -/

/-- The number with these bits, the least significant first. -/
def bitsNumber : List Bool → Nat
  | [] => 0
  | flag :: flags => Nat.bit flag (bitsNumber flags)

theorem testBit_bitsNumber {flags : List Bool} {index : Nat} :
    (bitsNumber flags).testBit index = flags.getD index false := by
  induction flags generalizing index with
  | nil => simp [bitsNumber]
  | cons flag flags ih =>
      cases index with
      | zero => simp [bitsNumber]
      | succ index => simp [bitsNumber, Nat.testBit_bit_succ, ih]

theorem bitsNumber_set {flags : List Bool} {index : Nat} (h : index < flags.length) :
    bitsNumber flags ||| 1 <<< index = bitsNumber (flags.set index true) := by
  apply Nat.eq_of_testBit_eq
  intro place
  rw [Nat.testBit_or, testBit_bitsNumber, testBit_bitsNumber, Nat.one_shiftLeft,
    Nat.testBit_two_pow]
  simp only [List.getD_eq_getElem?_getD, List.getElem?_set]
  by_cases hplace : index = place
  · subst hplace
    simp [h]
  · simp [hplace]

def parseEnabled (value : Bytes) : Option Nat :=
  if value = ascii "true" then some 1 else if value = ascii "false" then some 0 else none

def parseProfile (value : Bytes) : Option Bytes :=
  if value = [] ∨ 32 < value.length ∨ !value.all isProfileCharacter then none else some value

def parsePath (value : Bytes) : Option Bytes :=
  if value.head? ≠ some (byte '\\') ∨ value.length < 2 ∨ 127 < value.length ∨
      !isMarkerPath value then none
  else some value

def parseMarkerHeader (value : Bytes) : Option Bytes :=
  if value = [] ∨ 64 < value.length ∨ !value.all isPrintable then none else some value

/-- What the value of a setting stands for, where the map gives one that is accepted. -/
def Values.read {α : Type} (values : Values) (setting : Setting) (parse : Bytes → Option α)
    (absent : α) : α :=
  ((values setting).bind parse).getD absent

def markerOf (values : Values) : MarkerConfig where
  seen := bitsNumber (Setting.marker.map fun setting => (values setting).isSome)
  enabled := values.read .markerEnabled parseEnabled 0
  partition := values.read .markerPartition (markerParseNumber · maxUInt32) 0
  signature := values.read .markerSignature (markerParseNumber · maxUInt32) 0
  start := values.read .markerStart (markerParseNumber · maxUInt64) 0
  sectors := values.read .markerSectors (markerParseNumber · maxUInt64) 0
  profile := values.read .markerProfile parseProfile []
  path := values.read .markerPath parsePath []
  header := values.read .markerHeader parseMarkerHeader (ascii "NATIVE CSM BOOT PROFILE 1")

def configOf (values : Values) : NcvConfigCore where
  marker := markerOf values
  hasProbe := (values .probe).isSome
  probe := values.read .probe parseBoolean true
  hasName := (values .name).isSome
  hasTargetPci := (values .targetPci).isSome
  hasTargetControllerPci := (values .targetControllerPci).isSome
  hasExpectedVendor := (values .expectedVendor).isSome
  hasExpectedDevice := (values .expectedDevice).isSome
  hasExpectedSubsystemVendor := (values .expectedSubsystemVendor).isSome
  hasExpectedSubsystemDevice := (values .expectedSubsystemDevice).isSome
  hasLegacyOptionDescription := (values .legacyOptionDescription).isSome
  hasExcludeDescription := (values .excludeDescription).isSome
  hasTargetBbsDescription := (values .targetBbsDescription).isSome
  hasVerboseLog := (values .verboseLog).isSome
  hasAutoBoot := (values .autoBoot).isSome
  hasIoDecoding := (values .ioDecoding).isSome
  hasMemoryDecoding := (values .memoryDecoding).isSome
  hasBusMastering := (values .busMastering).isSome
  verboseLog := values.read .verboseLog parseBoolean true
  autoBoot := values.read .autoBoot parseBoolean true
  requireReferenceSnapshotMatch := false
  ioDecoding := values.read .ioDecoding parsePolicy .ignore
  memoryDecoding := values.read .memoryDecoding parsePolicy .ignore
  busMastering := values.read .busMastering parsePolicy .ignore
  targetPci := values.read .targetPci parsePciAddress zeroAddress
  targetControllerPci := values.read .targetControllerPci parsePciAddress zeroAddress
  expectedVendor := values.read .expectedVendor parseHex16 0
  expectedDevice := values.read .expectedDevice parseHex16 0
  expectedSubsystemVendor := values.read .expectedSubsystemVendor parseHex16 0
  expectedSubsystemDevice := values.read .expectedSubsystemDevice parseHex16 0
  name := values.read .name (copyAscii configTextBytes) []
  legacyOptionDescription :=
    values.read .legacyOptionDescription (copyAscii configTextBytes) (ascii "Hard Drive")
  excludeDescription := values.read .excludeDescription (copyAscii configTextBytes) (ascii "USB")
  targetBbsDescription :=
    values.read .targetBbsDescription (copyDiskDescription configTextBytes) []

/-- A setting's value is accepted or not, whatever else is set. -/
def Setting.accepts (setting : Setting) (value : Bytes) : Bool :=
  match setting with
  | name | legacyOptionDescription | excludeDescription => (copyAscii configTextBytes value).isSome
  | targetPci | targetControllerPci => (parsePciAddress value).isSome
  | expectedVendor | expectedDevice | expectedSubsystemVendor
  | expectedSubsystemDevice => (parseHex16 value).isSome
  | targetBbsDescription => (copyDiskDescription configTextBytes value).isSome
  | ioDecoding | memoryDecoding | busMastering => (parsePolicy value).isSome
  | probe | verboseLog | autoBoot => (parseBoolean value).isSome
  | markerEnabled => (parseEnabled value).isSome
  | markerPartition | markerSignature => (markerParseNumber value maxUInt32).isSome
  | markerStart | markerSectors => (markerParseNumber value maxUInt64).isSome
  | markerProfile => (parseProfile value).isSome
  | markerPath => (parsePath value).isSome
  | markerHeader => (parseMarkerHeader value).isSome

/-! ### Setting is updating -/

section Update

variable {values : Values} {setting : Setting} {key value : Bytes}

theorem setOnce_update {α : Type} {parsed : Option α} {set : α → NcvConfigCore}
    (hset : ∀ result, parsed = some result →
      set result = configOf (Function.update values setting (some value))) :
    setOnce (values setting).isSome parsed set =
      if values setting = none ∧ parsed.isSome = true then
        .ok (configOf (Function.update values setting (some value)))
      else .error .compromisedData := by
  cases hvalue : values setting with
  | some _ => simp [setOnce]
  | none =>
      cases hparsed : parsed with
      | none => simp [setOnce]
      | some result => simp [setOnce, hset result hparsed]

/-- The marker with one more bit. -/
def seenAt (marker : MarkerConfig) (index : Nat) : MarkerConfig :=
  { marker with seen := marker.seen ||| 1 <<< index }

theorem testBit_markerOf {index : Nat} (h : Setting.marker[index]? = some setting) :
    (markerOf values).seen.testBit index = (values setting).isSome := by
  rw [markerOf, testBit_bitsNumber, List.getD_eq_getElem?_getD, List.getElem?_map, h]
  rfl

/-- A key of the marker that may stand once. -/
theorem markerSet_update {α : Type} {index : Nat} {parsed : Option α}
    {set : MarkerConfig → α → MarkerConfig} (h : Setting.marker[index]? = some setting)
    (hset : ∀ result, parsed = some result → set (seenAt (markerOf values) index) result =
      markerOf (Function.update values setting (some value))) :
    (if (markerOf values).seen.testBit index then none
      else parsed.map (set (seenAt (markerOf values) index))) =
      if values setting = none ∧ parsed.isSome = true then
        some (markerOf (Function.update values setting (some value)))
      else none := by
  rw [testBit_markerOf h]
  cases hvalue : values setting with
  | some _ => simp
  | none =>
      cases hparsed : parsed with
      | none => simp
      | some result => simp [hset result hparsed]

theorem seen_update {index : Nat} (h : Setting.marker[index]? = some setting) :
    (markerOf values).seen ||| 1 <<< index =
      (markerOf (Function.update values setting (some value))).seen := by
  have hlength : index < 8 := (List.getElem?_eq_some_iff.mp h).1
  rw [markerOf, bitsNumber_set (by simpa [Setting.marker] using hlength), markerOf]
  congr 1
  interval_cases index
  all_goals
    obtain rfl := Option.some.inj h
    simp [Setting.marker, Function.update_apply]

/-- What a marker's setter does to the record. -/
theorem markerConfigSetValue_update (hmarker : setting ∈ Setting.marker) :
    markerConfigSetValue (markerOf values) setting.key value =
      if values setting = none ∧ setting.accepts value = true then
        some (markerOf (Function.update values setting (some value)))
      else none := by
  cases setting
  case markerEnabled =>
    have hset := @markerSet_update values .markerEnabled value Nat 0 (parseEnabled value)
      (fun marker number => { marker with enabled := number }) rfl fun number hnumber => by
        rw [seenAt, @seen_update values _ value _ rfl]
        simp [markerOf, Values.read, Function.update_apply, hnumber]
    refine Eq.trans ?_ hset
    show (if (markerOf values).seen.testBit 0 then none else
      if value = ascii "true" then _ else if value = ascii "false" then _ else _) = _
    unfold parseEnabled
    by_cases htrue : value = ascii "true"
    · rw [if_pos htrue, if_pos htrue]
      rfl
    · rw [if_neg htrue, if_neg htrue]
      by_cases hfalse : value = ascii "false"
      · rw [if_pos hfalse, if_pos hfalse]
        rfl
      · rw [if_neg hfalse, if_neg hfalse]
        rfl
  case markerPartition =>
    exact @markerSet_update values .markerPartition value Nat 1 (markerParseNumber value maxUInt32)
      (fun marker number => { marker with partition := number }) rfl fun number hnumber => by
        rw [seenAt, @seen_update values _ value _ rfl]
        simp [markerOf, Values.read, Function.update_apply, hnumber]
  case markerSignature =>
    exact @markerSet_update values .markerSignature value Nat 2 (markerParseNumber value maxUInt32)
      (fun marker number => { marker with signature := number }) rfl fun number hnumber => by
        rw [seenAt, @seen_update values _ value _ rfl]
        simp [markerOf, Values.read, Function.update_apply, hnumber]
  case markerStart =>
    exact @markerSet_update values .markerStart value Nat 3 (markerParseNumber value maxUInt64)
      (fun marker number => { marker with start := number }) rfl fun number hnumber => by
        rw [seenAt, @seen_update values _ value _ rfl]
        simp [markerOf, Values.read, Function.update_apply, hnumber]
  case markerSectors =>
    exact @markerSet_update values .markerSectors value Nat 4 (markerParseNumber value maxUInt64)
      (fun marker number => { marker with sectors := number }) rfl fun number hnumber => by
        rw [seenAt, @seen_update values _ value _ rfl]
        simp [markerOf, Values.read, Function.update_apply, hnumber]
  case markerProfile =>
    have hset := @markerSet_update values .markerProfile value Bytes 5 (parseProfile value)
      (fun marker text => { marker with profile := text }) rfl fun text htext => by
        rw [seenAt, @seen_update values _ value _ rfl]
        simp [markerOf, Values.read, Function.update_apply, htext]
    refine Eq.trans ?_ hset
    show (if (markerOf values).seen.testBit 5 then none else if _ then _ else _) = _
    unfold parseProfile
    split
    · rfl
    · split <;> rfl
  case markerPath =>
    have hset := @markerSet_update values .markerPath value Bytes 6 (parsePath value)
      (fun marker text => { marker with path := text }) rfl fun text htext => by
        rw [seenAt, @seen_update values _ value _ rfl]
        simp [markerOf, Values.read, Function.update_apply, htext]
    refine Eq.trans ?_ hset
    show (if (markerOf values).seen.testBit 6 then none else if _ then _ else _) = _
    unfold parsePath
    split
    · rfl
    · split <;> rfl
  case markerHeader =>
    have hset := @markerSet_update values .markerHeader value Bytes 7 (parseMarkerHeader value)
      (fun marker text => { marker with header := text }) rfl fun text htext => by
        rw [seenAt, @seen_update values _ value _ rfl]
        simp [markerOf, Values.read, Function.update_apply, htext]
    refine Eq.trans ?_ hset
    show (if (markerOf values).seen.testBit 7 then none else if _ then _ else _) = _
    unfold parseMarkerHeader
    split
    · rfl
    · split <;> rfl
  all_goals exact absurd hmarker (by decide)

theorem configOf_update_marker (hmarker : setting ∈ Setting.marker) :
    { configOf values with marker := markerOf (Function.update values setting (some value)) } =
      configOf (Function.update values setting (some value)) := by
  cases setting
  all_goals first
    | exact absurd hmarker (by decide)
    | simp [configOf, Values.read]

theorem setKeyValue_update :
    setKeyValue (configOf values) setting.configSection setting.key value =
      if values setting = none ∧ setting.accepts value = true then
        .ok (configOf (Function.update values setting (some value)))
      else .error .compromisedData := by
  by_cases hmarker : setting ∈ Setting.marker
  · have hsection : setting.configSection = .marker := by
      cases setting <;> first | rfl | exact absurd hmarker (by decide)
    have hmarkers : (configOf values).marker = markerOf values := rfl
    rw [hsection, setKeyValue, setMarkerKey, hmarkers, markerConfigSetValue_update hmarker]
    by_cases hset : values setting = none ∧ setting.accepts value = true
    · rw [if_pos hset, if_pos hset]
      exact congrArg Except.ok (configOf_update_marker hmarker)
    · rw [if_neg hset, if_neg hset]
  · cases setting
    all_goals first
      | exact absurd (by decide) hmarker
      | refine setOnce_update ?_
        intro result hresult
        simp [configOf, markerOf, Setting.marker, Values.read, Function.update_apply, hresult]

/-- No other key is known. -/
theorem setKeyValue_unknown {config config' : NcvConfigCore} {current : NcvConfigSection}
    (h : ∀ setting : Setting, setting.configSection = current → setting.key ≠ key) :
    setKeyValue config current key value ≠ .ok config' := by
  cases current
  case profile =>
    have hname : key ≠ ascii "Name" := (h .name rfl).symm
    simp [setKeyValue, setProfileKey, hname]
  case video =>
    have htarget : key ≠ ascii "TargetPci" := (h .targetPci rfl).symm
    have hvendor : key ≠ ascii "ExpectedVendor" := (h .expectedVendor rfl).symm
    have hdevice : key ≠ ascii "ExpectedDevice" := (h .expectedDevice rfl).symm
    have hsubsystemVendor : key ≠ ascii "ExpectedSubsystemVendor" :=
      (h .expectedSubsystemVendor rfl).symm
    have hsubsystemDevice : key ≠ ascii "ExpectedSubsystemDevice" :=
      (h .expectedSubsystemDevice rfl).symm
    simp [setKeyValue, setVideoKey, htarget, hvendor, hdevice, hsubsystemVendor, hsubsystemDevice]
  case endpoint =>
    have hio : key ≠ ascii "IoDecoding" := (h .ioDecoding rfl).symm
    have hmemory : key ≠ ascii "MemoryDecoding" := (h .memoryDecoding rfl).symm
    have hbus : key ≠ ascii "BusMastering" := (h .busMastering rfl).symm
    simp [setKeyValue, setEndpointKey, hio, hmemory, hbus]
  case boot =>
    have hcontroller : key ≠ ascii "TargetControllerPci" := (h .targetControllerPci rfl).symm
    have hlegacy : key ≠ ascii "LegacyOptionDescription" := (h .legacyOptionDescription rfl).symm
    have hexclude : key ≠ ascii "ExcludeDescription" := (h .excludeDescription rfl).symm
    have hdisk : key ≠ ascii "TargetBbsDescription" := (h .targetBbsDescription rfl).symm
    simp [setKeyValue, setBootKey, hcontroller, hlegacy, hexclude, hdisk]
  case behavior =>
    have hprobe : key ≠ ascii "Probe" := (h .probe rfl).symm
    have hverbose : key ≠ ascii "VerboseLog" := (h .verboseLog rfl).symm
    have hauto : key ≠ ascii "AutoBoot" := (h .autoBoot rfl).symm
    simp [setKeyValue, setBehaviorKey, hprobe, hverbose, hauto]
  case marker =>
    have hkeys : markerKeys = Setting.marker.map Setting.key := rfl
    have hnone : markerKeys.findIdx? (· == key) = none := by
      rw [List.findIdx?_eq_none_iff, hkeys]
      intro other hother
      obtain ⟨setting, hsetting, rfl⟩ := List.mem_map.mp hother
      have hsection : setting.configSection = .marker := by
        cases setting <;> first | rfl | exact absurd hsetting (by decide)
      simpa using h setting hsection
    simp [setKeyValue, setMarkerKey, markerConfigSetValue, hnone]

/-- **Accepting a setting is updating the map.** -/
theorem setKeyValue_iff {current : NcvConfigSection} {config : NcvConfigCore} :
    setKeyValue (configOf values) current key value = .ok config ↔
      ∃ setting : Setting, setting.configSection = current ∧ setting.key = key ∧
        values setting = none ∧ setting.accepts value = true ∧
        config = configOf (Function.update values setting (some value)) := by
  constructor
  · intro h
    by_contra hnone
    by_cases hknown : ∃ setting : Setting, setting.configSection = current ∧ setting.key = key
    · obtain ⟨setting, rfl, rfl⟩ := hknown
      rw [setKeyValue_update] at h
      split at h
      · rename_i hset
        exact hnone ⟨setting, rfl, rfl, hset.1, hset.2, (Except.ok.inj h).symm⟩
      · cases h
    · exact setKeyValue_unknown (fun setting hsection hkey => hknown ⟨setting, hsection, hkey⟩) h
  · rintro ⟨setting, rfl, rfl, hvalue, haccepts, rfl⟩
    rw [setKeyValue_update, if_pos ⟨hvalue, haccepts⟩]

end Update

end CsmVgaSelector
