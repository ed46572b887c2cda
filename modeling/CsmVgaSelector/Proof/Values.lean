import CsmVgaSelector.Proof.Lines
import Mathlib.Tactic.IntervalCases

/-!
# Values that are written and read back

Addresses are written in one form, and descriptions as they are or between quotes. Both are read back
as they were.
-/

namespace CsmVgaSelector

variable {text value : Bytes} {capacity : Nat}

/-! ### Keys and values on a line -/

/-- A text that trimming leaves alone, and that has no equals sign. -/
structure Word (text : Bytes) : Prop where
  ne_nil : text ≠ []
  first : ∀ character ∈ text.head?, isSpace character = false
  last : ∀ character ∈ text.getLast?, isSpace character = false
  noEquals : byte '=' ∉ text

theorem dropWhile_of_head {p : UInt8 → Bool} (h : ∀ character ∈ text.head?, p character = false) :
    text.dropWhile p = text := by
  cases text with
  | nil => rfl
  | cons first rest => exact List.dropWhile_cons_of_neg (by simp [h first rfl])

theorem rdropWhile_of_getLast {p : UInt8 → Bool}
    (h : ∀ character ∈ text.getLast?, p character = false) : text.rdropWhile p = text := by
  rw [List.rdropWhile_eq_self_iff]
  intro hne
  simp [h _ (List.getLast?_eq_some_getLast hne)]

theorem trim_of_ends (hfirst : ∀ character ∈ text.head?, isSpace character = false)
    (hlast : ∀ character ∈ text.getLast?, isSpace character = false) : trim text = text := by
  rw [trim, dropWhile_of_head hfirst, rdropWhile_of_getLast hlast]

theorem Word.trim (h : Word text) : trim text = text := trim_of_ends h.first h.last

/-- A key and its value, as a line. -/
def keyLine (key value : Bytes) : Bytes := key ++ byte '=' :: value

theorem trim_keyLine {key : Bytes} (hkey : Word key) (hvalue : Word value) :
    trim (keyLine key value) = keyLine key value := by
  apply trim_of_ends
  · intro character hcharacter
    rw [keyLine, List.head?_append_of_ne_nil _ hkey.ne_nil] at hcharacter
    exact hkey.first character hcharacter
  · intro character hcharacter
    rw [keyLine, List.getLast?_append_cons, List.getLast?_cons,
      List.getLast?_eq_some_getLast hvalue.ne_nil, Option.getD_some] at hcharacter
    exact hvalue.last character (by rwa [List.getLast?_eq_some_getLast hvalue.ne_nil])

theorem splitEquals_keyLine {key : Bytes} (hkey : byte '=' ∉ key) (hvalue : byte '=' ∉ value) :
    splitEquals (keyLine key value) = some (trim key, trim value) := by
  have hrest : (keyLine key value).dropWhile (· != byte '=') = byte '=' :: value := by
    rw [keyLine, List.dropWhile_append_of_pos, List.dropWhile_cons_of_neg (by simp)]
    intro character hcharacter
    rw [bne_iff_ne]
    rintro rfl
    exact hkey hcharacter
  have hbefore : (keyLine key value).takeWhile (· != byte '=') = key := by
    rw [keyLine, List.takeWhile_append_of_pos, List.takeWhile_cons_of_neg (by simp),
      List.append_nil]
    intro character hcharacter
    rw [bne_iff_ne]
    rintro rfl
    exact hkey hcharacter
  rw [splitEquals, hrest, hbefore]
  exact if_neg hvalue

/-- A line that sets a key. -/
theorem parseLine_keyLine {state : ParseState} {current : NcvConfigSection} {key : Bytes}
    (hcurrent : state.current = some current) (hkey : Word key) (hvalue : Word value)
    (hfirst : key.head? ≠ some (byte '#') ∧ key.head? ≠ some (byte ';') ∧
      key.head? ≠ some (byte '[')) :
    parseLine state (keyLine key value) =
      (setKeyValue state.config current key value).map fun config =>
        { state with config := config } := by
  obtain ⟨first, rest, rfl⟩ := List.exists_cons_of_ne_nil hkey.ne_nil
  simp only [List.head?_cons, ne_eq, Option.some.injEq] at hfirst
  have hsplit := splitEquals_keyLine hkey.noEquals hvalue.noEquals
  rw [hkey.trim, hvalue.trim] at hsplit
  have hempty : ¬ (first :: rest = [] ∨ value = []) := by simp [hvalue.ne_nil]
  show (if first = byte '#' ∨ first = byte ';' then _ else _) = _
  rw [if_neg (by simp [hfirst.1, hfirst.2.1]), if_neg hfirst.2.2]
  show parseKeyValue state (keyLine (first :: rest) value) = _
  rw [parseKeyValue, hcurrent, hsplit]
  exact (if_neg hempty).trans (bind_pure_comp ..)

/-! ### Addresses -/

theorem hexDigit_hexDigitOf {digit : Nat} (h : digit < 16) :
    hexDigit (hexDigitOf digit) = some digit := by
  interval_cases digit <;> decide

/-- What the places of a number in hexadecimal are. -/
theorem hexNumber_putHex_four {number : Nat} (h : number < 2 ^ 16) :
    hexNumber (putHex number 4) = some number := by
  have hdigits : putHex number 4 =
      [hexDigitOf (number / 4096 % 16), hexDigitOf (number / 256 % 16),
        hexDigitOf (number / 16 % 16), hexDigitOf (number % 16)] := by
    simp [putHex, List.range_succ, Nat.shiftRight_eq_div_pow]
  rw [hdigits, hexNumber]
  simp only [List.foldl_cons, List.foldl_nil,
    hexDigit_hexDigitOf (Nat.mod_lt _ (by decide : 0 < 16))]
  congr 1
  omega

theorem hexNumber_putHex_two {number : Nat} (h : number < 2 ^ 8) :
    hexNumber (putHex number 2) = some number := by
  have hdigits : putHex number 2 = [hexDigitOf (number / 16 % 16), hexDigitOf (number % 16)] := by
    simp [putHex, List.range_succ, Nat.shiftRight_eq_div_pow]
  rw [hdigits, hexNumber]
  simp only [List.foldl_cons, List.foldl_nil,
    hexDigit_hexDigitOf (Nat.mod_lt _ (by decide : 0 < 16))]
  congr 1
  omega

theorem length_putHex {number digits : Nat} : (putHex number digits).length = digits := by
  simp [putHex]

/-- A digit is a printable character, and none with a meaning of its own. -/
theorem hexDigitOf_plain {digit : Nat} (h : digit < 16) :
    isPrintable (hexDigitOf digit) = true ∧ isSpace (hexDigitOf digit) = false ∧
      hexDigitOf digit ≠ byte '=' := by
  interval_cases digit <;> decide

theorem putHex_plain {number digits : Nat} {character : UInt8}
    (h : character ∈ putHex number digits) :
    isPrintable character = true ∧ isSpace character = false ∧ character ≠ byte '=' := by
  obtain ⟨index, -, rfl⟩ := List.mem_map.mp h
  exact hexDigitOf_plain (Nat.mod_lt _ (by decide))

theorem length_bdfText {address : PciAddress} : (bdfText address).length = 12 := by
  simp [bdfText, length_putHex]

/-- The address can be that of a device. -/
def PciAddress.Valid (address : PciAddress) : Prop := address.device ≤ 31 ∧ address.function ≤ 7

instance (address : PciAddress) : Decidable address.Valid := inferInstanceAs (Decidable (_ ∧ _))

theorem bdfText_plain {address : PciAddress} {character : UInt8}
    (h : character ∈ bdfText address) :
    isPrintable character = true ∧ isSpace character = false ∧ character ≠ byte '=' := by
  simp only [bdfText, List.mem_append, List.mem_singleton] at h
  rcases h with (((((h | rfl) | h) | rfl) | h) | rfl) | h
  case inr => exact putHex_plain h
  case inl.inr => decide
  all_goals first
    | exact putHex_plain h
    | decide

theorem word_bdfText {address : PciAddress} : Word (bdfText address) where
  ne_nil := by
    intro hnil
    have hlength := congrArg List.length hnil
    rw [length_bdfText] at hlength
    exact absurd hlength (by decide)
  first character hcharacter := (bdfText_plain (List.mem_of_mem_head? hcharacter)).2.1
  last character hcharacter := (bdfText_plain (List.mem_of_getLast? hcharacter)).2.1
  noEquals hmem := (bdfText_plain hmem).2.2 rfl

/-- **An address is read back.** -/
theorem parsePciAddress_bdfText {address : PciAddress} (h : address.Valid) :
    parsePciAddress (bdfText address) = some address := by
  obtain ⟨segment, bus, device, function⟩ := address
  have hsegment := hexNumber_putHex_four segment.toNat_lt
  have hbus := hexNumber_putHex_two bus.toNat_lt
  have hdevice := hexNumber_putHex_two device.toNat_lt
  have hdeviceBound : device.toNat ≤ 31 := UInt8.le_iff_toNat_le.mp h.1
  have hfunctionBound : function.toNat ≤ 7 := UInt8.le_iff_toNat_le.mp h.2
  have hfunction : hexDigit (hexDigitOf (function.toNat % 16)) = some function.toNat := by
    rw [hexDigit_hexDigitOf (Nat.mod_lt _ (by decide))]
    congr 1
    omega
  simp only [putHex, List.range_succ, List.range_zero, List.nil_append, List.cons_append,
    List.map_cons, List.map_nil, Nat.reduceSub, Nat.reduceMul, Nat.shiftRight_zero]
    at hsegment hbus hdevice
  simp only [bdfText, putHex, List.range_succ, List.range_zero, List.nil_append,
    List.cons_append, List.map_cons, List.map_nil, Nat.reduceSub, Nat.reduceMul,
    Nat.shiftRight_zero, parsePciAddress, ne_eq, not_true_eq_false, or_self, if_false]
  rw [hsegment, hbus, hdevice, hfunction]
  simp [Nat.not_lt.mpr hdeviceBound, Nat.not_lt.mpr hfunctionBound]

/-! ### Descriptions -/

/-- A text that can be the value of a setting. -/
structure Representable (text : Bytes) : Prop where
  ne_nil : text ≠ []
  short : text.length < configTextBytes
  printable : ∀ character ∈ text, isPrintable character = true
  noEquals : byte '=' ∉ text
  notBlank : ∃ character ∈ text, character ≠ byte ' '

theorem representable_iff : ncvIniValueIsExactlyRepresentable value capacity = true ↔
    Representable (cString value) ∧ (cString value).length < capacity := by
  simp only [ncvIniValueIsExactlyRepresentable, Bool.and_eq_true, decide_eq_true_eq, bne_iff_ne,
    List.all_eq_true, List.any_eq_true]
  constructor
  · rintro ⟨⟨⟨⟨hcapacity, hne⟩, hshort⟩, hall⟩, hblank⟩
    exact ⟨⟨hne, hshort, fun character hmem => (hall character hmem).1,
      fun hmem => (hall _ hmem).2 rfl, hblank⟩, hcapacity⟩
  · rintro ⟨h, hcapacity⟩
    refine ⟨⟨⟨⟨hcapacity, h.ne_nil⟩, h.short⟩, fun character hmem => ?_⟩, h.notBlank⟩
    exact ⟨h.printable character hmem, fun heq => h.noEquals (heq ▸ hmem)⟩

theorem cString_of_printable (h : ∀ character ∈ text, isPrintable character = true) :
    cString text = text := by
  rw [cString, List.takeWhile_eq_self_iff]
  intro character hcharacter
  rw [bne_iff_ne]
  rintro rfl
  exact absurd (h 0 hcharacter) (by decide)

/-- What has been written is a value. -/
theorem representable_of_printable (h : Representable text) :
    ncvIniValueIsExactlyRepresentable text configTextBytes = true := by
  rw [representable_iff, cString_of_printable h.printable]
  exact ⟨h, h.short⟩

theorem escapeDescription_cons {character : UInt8} :
    escapeDescription (character :: text) =
      (if character = byte '"' ∨ character = byte '\\' then [byte '\\', character]
        else [character]) ++ escapeDescription text := by
  rw [escapeDescription, List.flatMap_cons]
  rfl

theorem length_escapeDescription (text : Bytes) : (escapeDescription text).length ≤ 2 * text.length := by
  induction text with
  | nil => simp [escapeDescription]
  | cons character text ih =>
      rw [escapeDescription_cons, List.length_append, List.length_cons]
      split <;> simp <;> omega

theorem length_encodeDescription (text : Bytes) : (encodeDescription text).length ≤ 2 * text.length + 2 := by
  have hescape := length_escapeDescription text
  unfold encodeDescription
  split
  · simp only [List.length_append, List.length_singleton]
    omega
  · omega

/-- The characters of an encoded description are its own, quotes and backslashes. -/
theorem mem_encodeDescription {character : UInt8} (h : character ∈ encodeDescription text) :
    character ∈ text ∨ character = byte '"' ∨ character = byte '\\' := by
  have hescape : character ∈ escapeDescription text →
      character ∈ text ∨ character = byte '\\' := by
    intro hmem
    obtain ⟨own, hown, hmem⟩ := List.mem_flatMap.mp hmem
    split at hmem
    · simp only [List.mem_cons, List.not_mem_nil, or_false] at hmem
      rcases hmem with rfl | rfl
      · exact .inr rfl
      · exact .inl hown
    · rw [List.mem_singleton.mp hmem]
      exact .inl hown
  unfold encodeDescription at h
  split at h
  case isTrue =>
    simp only [List.mem_append, List.mem_singleton] at h
    rcases h with (hquote | hmem) | hquote
    · exact .inr (.inl hquote)
    · rcases hescape hmem with hown | hbackslash
      · exact .inl hown
      · exact .inr (.inr hbackslash)
    · exact .inr (.inl hquote)
  case isFalse => exact .inl h

/-- The rest of a quoted description. -/
theorem copyQuoted_escapeDescription {written : Bytes}
    (hlength : (written ++ text).length < configTextBytes)
    (hprintable : ∀ character ∈ text, isPrintable character = true) (hequals : byte '=' ∉ text) :
    copyQuoted configTextBytes written (escapeDescription text ++ [byte '"']) =
      if ncvIniValueIsExactlyRepresentable (written ++ text) configTextBytes then
        some (written ++ text)
      else none := by
  induction text generalizing written with
  | nil =>
      rw [List.append_nil] at hlength ⊢
      show copyQuoted configTextBytes written [byte '"'] = _
      rw [copyQuoted, if_pos rfl, if_neg]
      simpa using hlength
  | cons character text ih =>
      rw [List.mem_cons, not_or] at hequals
      rw [List.forall_mem_cons] at hprintable
      have hshort : ¬ written.length + 1 ≥ configTextBytes := by
        rw [List.length_append, List.length_cons] at hlength
        omega
      have hnext := @ih (written ++ [character]) (by simpa using hlength) hprintable.2 hequals.2
      rw [List.append_assoc, List.singleton_append] at hnext
      rw [escapeDescription_cons]
      by_cases hescaped : character = byte '"' ∨ character = byte '\\'
      · have hstep : copyQuoted configTextBytes written
            (byte '\\' :: character :: (escapeDescription text ++ [byte '"'])) =
              copyQuoted configTextBytes (written ++ [character])
                (escapeDescription text ++ [byte '"']) := by
          rw [copyQuoted, if_neg (by decide), if_pos rfl,
            if_neg (by rcases hescaped with rfl | rfl <;> decide), if_neg hshort]
        rw [if_pos hescaped]
        exact hstep.trans hnext
      · rw [not_or] at hescaped
        have hstep : copyQuoted configTextBytes written
            (character :: (escapeDescription text ++ [byte '"'])) =
              copyQuoted configTextBytes (written ++ [character])
                (escapeDescription text ++ [byte '"']) := by
          rw [copyQuoted.eq_def]
          dsimp only
          rw [if_neg hescaped.1, if_neg hescaped.2, if_neg]
          simp only [not_or]
          exact ⟨hshort, by simp [hprintable.1], fun heq => hequals.1 heq.symm⟩
        rw [if_neg (by simp [hescaped])]
        exact hstep.trans hnext

/-- **A description is read back from its encoding.** -/
theorem copyDiskDescription_encodeDescription (h : Representable text) :
    copyDiskDescription configTextBytes (encodeDescription text) = some text := by
  have hrepresentable := representable_of_printable h
  obtain ⟨first, rest, rfl⟩ := List.exists_cons_of_ne_nil h.ne_nil
  unfold encodeDescription
  by_cases hquoted : (first :: rest).head? = some (byte ' ') ∨
      (first :: rest).head? = some (byte '"') ∨ (first :: rest).getLast? = some (byte ' ')
  · rw [if_pos hquoted, List.append_assoc]
    have hcopy := @copyQuoted_escapeDescription (first :: rest) [] h.short h.printable h.noEquals
    rw [List.nil_append, if_pos hrepresentable] at hcopy
    exact hcopy
  · rw [if_neg hquoted]
    have hcopy : copyAscii configTextBytes (first :: rest) = some (first :: rest) := by
      rw [copyAscii, if_neg, if_pos (List.all_eq_true.mpr h.printable)]
      simp only [not_or]
      exact ⟨h.ne_nil, not_le.mpr h.short⟩
    have hfirst : first ≠ byte '"' := by
      rintro rfl
      exact hquoted (.inr (.inl rfl))
    rw [copyDiskDescription, if_pos hfirst, hcopy]

/-- An encoded description stands on its line as it is. -/
theorem word_encodeDescription (h : Representable text) : Word (encodeDescription text) := by
  have hequals : byte '=' ∉ encodeDescription text := by
    intro hmem
    rcases mem_encodeDescription hmem with hown | hquote | hbackslash
    · exact h.noEquals hown
    · exact absurd hquote (by decide)
    · exact absurd hbackslash (by decide)
  have hspace : ∀ character, isPrintable character = true → character ≠ byte ' ' →
      isSpace character = false := by
    intro character hprintable hne
    by_contra hcontra
    rw [Bool.not_eq_false, isSpace, Bool.or_eq_true, beq_iff_eq, beq_iff_eq] at hcontra
    rcases hcontra with rfl | rfl
    · exact hne rfl
    · exact absurd hprintable (by decide)
  by_cases hquoted : text.head? = some (byte ' ') ∨ text.head? = some (byte '"') ∨
      text.getLast? = some (byte ' ')
  · refine ⟨?_, ?_, ?_, hequals⟩
    all_goals rw [encodeDescription, if_pos hquoted]
    · simp
    · rintro _ ⟨⟩
      decide
    · simp only [List.getLast?_append, List.getLast?_singleton, Option.some_or,
        Option.mem_some_iff]
      rintro _ rfl
      decide
  · have hencoded : encodeDescription text = text := if_neg hquoted
    rw [not_or, not_or] at hquoted
    rw [hencoded]
    refine ⟨h.ne_nil, ?_, ?_, h.noEquals⟩
    · intro character hcharacter
      apply hspace character (h.printable character (List.mem_of_mem_head? hcharacter))
      rintro rfl
      exact hquoted.1 hcharacter
    · intro character hcharacter
      apply hspace character (h.printable character (List.mem_of_getLast? hcharacter))
      rintro rfl
      exact hquoted.2.2 hcharacter

theorem printable_encodeDescription (h : Representable text) :
    ∀ character ∈ encodeDescription text, isPrintable character = true := by
  intro character hmem
  rcases mem_encodeDescription hmem with hown | rfl | rfl
  · exact h.printable character hown
  · decide
  · decide

/-! ### Bounded output -/

theorem NcvText.putText_of_lt {buffer : NcvText} (hfailed : buffer.failed = false)
    (h : buffer.data.length + text.length < buffer.capacity) :
    buffer.putText text = { buffer with data := buffer.data ++ text } := by
  induction text generalizing buffer with
  | nil => simp [putText]
  | cons character text ih =>
      rw [List.length_cons] at h
      have hput : buffer.putChar character =
          { buffer with data := buffer.data ++ [character] } := if_neg (by omega)
      show (buffer.putChar character).putText text = _
      have hnext := @ih { buffer with data := buffer.data ++ [character] } hfailed
        (by simpa [Nat.add_assoc, Nat.add_comm 1] using h)
      rw [hput, hnext]
      simp

/-- A description always fits. -/
theorem ncvEncodeDiskDescription_eq (h : Representable (cString value)) :
    ncvEncodeDiskDescription value encodedDescriptionBytes =
      .ok (encodeDescription (cString value)) := by
  have hvalue : ncvIniValueIsExactlyRepresentable value configTextBytes = true :=
    representable_iff.mpr ⟨h, h.short⟩
  have hlength : (encodeDescription (cString value)).length < encodedDescriptionBytes := by
    have hencoded := length_encodeDescription (cString value)
    have hshort := h.short
    simp only [configTextBytes, encodedDescriptionBytes] at *
    omega
  have hput := @NcvText.putText_of_lt (encodeDescription (cString value))
    (NcvText.empty encodedDescriptionBytes) rfl (by simpa [NcvText.empty] using hlength)
  unfold ncvEncodeDiskDescription
  rw [if_neg (by rw [hvalue]; decide), hput]
  rfl

/-- What is encoded has been a value. -/
theorem representable_of_encode {encoded : Bytes}
    (h : ncvEncodeDiskDescription value capacity = .ok encoded) :
    Representable (cString value) := by
  unfold ncvEncodeDiskDescription at h
  split at h
  · cases h
  · rename_i hvalue
    simp only [not_or, Bool.not_eq_true', Bool.not_eq_false] at hvalue
    exact (representable_iff.mp hvalue.2).1

/-! ### The lines of the targets -/

def gpuLine (gpu : PciAddress) : Bytes := keyLine (ascii "TargetPci") (bdfText gpu)

def controllerLine (controller : PciAddress) : Bytes :=
  keyLine (ascii "TargetControllerPci") (bdfText controller)

def diskLine (encodedDisk : Bytes) : Bytes := keyLine (ascii "TargetBbsDescription") encodedDisk

theorem trim_gpuLine {gpu : PciAddress} : trim (gpuLine gpu) = gpuLine gpu :=
  trim_keyLine ⟨by decide, by decide +kernel, by decide +kernel, by decide⟩ word_bdfText

theorem trim_controllerLine {controller : PciAddress} :
    trim (controllerLine controller) = controllerLine controller :=
  trim_keyLine ⟨by decide, by decide +kernel, by decide +kernel, by decide⟩ word_bdfText

theorem trim_diskLine {encodedDisk : Bytes} (h : Word encodedDisk) :
    trim (diskLine encodedDisk) = diskLine encodedDisk :=
  trim_keyLine ⟨by decide, by decide +kernel, by decide +kernel, by decide⟩ h

/-- The configuration with one target set. -/
def NcvConfigCore.setGpu (config : NcvConfigCore) (gpu : PciAddress) : NcvConfigCore :=
  { config with targetPci := gpu, hasTargetPci := true }

def NcvConfigCore.setController (config : NcvConfigCore) (controller : PciAddress) :
    NcvConfigCore :=
  { config with targetControllerPci := controller, hasTargetControllerPci := true }

def NcvConfigCore.setDisk (config : NcvConfigCore) (disk : Bytes) : NcvConfigCore :=
  { config with targetBbsDescription := disk, hasTargetBbsDescription := true }

theorem parseLine_gpuLine {state : ParseState} {gpu : PciAddress} (h : gpu.Valid)
    (hcurrent : state.current = some .video) (hhas : state.config.hasTargetPci = false) :
    parseLine state (gpuLine gpu) =
      .ok { state with config := state.config.setGpu gpu } := by
  have hset : setKeyValue state.config .video (ascii "TargetPci") (bdfText gpu) =
      .ok (state.config.setGpu gpu) := by
    show setOnce _ _ _ = _
    rw [hhas, parsePciAddress_bdfText h]
    rfl
  rw [gpuLine, parseLine_keyLine hcurrent ⟨by decide, by decide +kernel, by decide +kernel, by decide⟩ word_bdfText
    (by decide), hset]
  rfl

theorem parseLine_controllerLine {state : ParseState} {controller : PciAddress}
    (h : controller.Valid) (hcurrent : state.current = some .boot)
    (hhas : state.config.hasTargetControllerPci = false) :
    parseLine state (controllerLine controller) =
      .ok { state with config := state.config.setController controller } := by
  have hset : setKeyValue state.config .boot (ascii "TargetControllerPci") (bdfText controller) =
      .ok (state.config.setController controller) := by
    show setOnce _ _ _ = _
    rw [hhas, parsePciAddress_bdfText h]
    rfl
  rw [controllerLine, parseLine_keyLine hcurrent ⟨by decide, by decide +kernel, by decide +kernel, by decide⟩
    word_bdfText (by decide), hset]
  rfl

theorem parseLine_diskLine {state : ParseState} {disk : Bytes} (h : Representable disk)
    (hcurrent : state.current = some .boot)
    (hhas : state.config.hasTargetBbsDescription = false) :
    parseLine state (diskLine (encodeDescription disk)) =
      .ok { state with config := state.config.setDisk disk } := by
  have hset : setKeyValue state.config .boot (ascii "TargetBbsDescription")
      (encodeDescription disk) = .ok (state.config.setDisk disk) := by
    show setOnce _ _ _ = _
    rw [hhas, copyDiskDescription_encodeDescription h]
    rfl
  rw [diskLine, parseLine_keyLine hcurrent ⟨by decide, by decide +kernel, by decide +kernel, by decide⟩
    (word_encodeDescription h) (by decide), hset]
  rfl

end CsmVgaSelector
