import CsmVgaSelector.Selector.MarkerFile

/-!
# The marker is put back

Unless the file had no write outstanding, `Original` is what it held before. A restore that succeeds has read
that back, and an application that succeeds has read back the record (`marker_undone`).
-/

namespace CsmVgaSelector

namespace MarkerFile

open Prog

variable {file : MarkerFile} {bytes original : Bytes} {A : MarkerAnswer → Prop}

/-! ### Reads and writes -/

/-- Reading changes neither the content nor the static variables. -/
structure OnlyReads (file file' : MarkerFile) : Prop where
  content : file'.content = file.content
  marker : file'.marker = file.marker
  endMissed : file'.endMissed = false → file.endMissed = false

theorem OnlyReads.refl : OnlyReads file file := ⟨rfl, rfl, id⟩

theorem OnlyReads.trans {file' file'' : MarkerFile} (h : OnlyReads file file') (h' : OnlyReads file' file'') :
    OnlyReads file file'' :=
  ⟨h'.content.trans h.content, h'.marker.trans h.marker, fun hend => h.endMissed (h'.endMissed hend)⟩

theorem wp_setPosition : Wp A setPosition (fun status file' => OnlyReads file file' ∧
    (status.isError = false → file'.position = 0)) file := by
  refine Wp.bind (P := fun _ file' => file' = file) (wp_call.mpr fun _ _ => rfl) ?_
  rintro answer _ rfl
  refine Wp.ite (fun hfailed => ?_) fun _ => ?_
  · refine Wp.pure ⟨OnlyReads.refl, fun hok => ?_⟩
    rw [hfailed] at hok
    cases hok
  · exact wp_bind.mpr (wp_modify.mpr (Wp.pure ⟨⟨rfl, rfl, id⟩, fun _ => rfl⟩))

/-- What a read that succeeds gives. -/
structure Reads (size : Nat) (file : MarkerFile) (bytes : Bytes) (file' : MarkerFile) : Prop where
  held : bytes <+: file.content.drop file.position
  position : file'.position = file.position + bytes.length
  ended : size = 1 → file'.endMissed = false → bytes = [] → file.content.drop file.position = []

theorem wp_read {size : Nat} : Wp A (read size) (fun result file' => OnlyReads file file' ∧
    (result.1.isError = false → Reads size file result.2 file')) file := by
  refine Wp.bind (P := fun _ file' => file' = file) (wp_call.mpr fun _ _ => rfl) ?_
  rintro answer _ rfl
  refine Wp.ite (fun hfailed => ?_) fun _ => Wp.bind_get (wp_bind.mpr (wp_set.mpr (Wp.pure ⟨?_, fun _ => ?_⟩)))
  · refine Wp.pure ⟨OnlyReads.refl, fun hok => ?_⟩
    rw [hfailed] at hok
    cases hok
  · refine ⟨rfl, rfl, fun hend => ?_⟩
    exact (Bool.or_eq_false_iff.mp hend).1
  · refine ⟨List.take_prefix _ _, rfl, ?_⟩
    rintro rfl hend hbytes
    have hmissed := (Bool.or_eq_false_iff.mp hend).2
    dsimp only at hbytes
    rw [hbytes] at hmissed
    simpa using hmissed

/-- The file is the buffer, unless its end was missed. -/
theorem wp_readExact : Wp A readExact (fun result file' => OnlyReads file file' ∧
    (result.1.isError = false → file'.endMissed = false →
      result.2 = some file.content ∧ file.content.length = markerBytes)) file := by
  refine Wp.bind wp_setPosition ?_
  rintro position file₁ ⟨hreads₁, hposition₁⟩
  refine Wp.ite (fun hfailed => Wp.pure ⟨hreads₁, fun hok => ?_⟩) fun hset => ?_
  · rw [hfailed] at hok
    cases hok
  refine Wp.bind wp_read ?_
  rintro ⟨status, bytes⟩ file₂ ⟨hreads₂, hbytes⟩
  have hreads := hreads₁.trans hreads₂
  refine Wp.ite (fun hfailed => Wp.pure ⟨hreads, fun hok => ?_⟩) fun hread => ?_
  · rw [hfailed] at hok
    cases hok
  refine Wp.ite (fun _ => Wp.pure ⟨hreads, nofun⟩) fun hfull => ?_
  refine Wp.bind wp_read ?_
  rintro ⟨status', extra⟩ file₃ ⟨hreads₃, hextra⟩
  refine Wp.ite (fun _ => Wp.pure ⟨hreads.trans hreads₃, nofun⟩) fun hended =>
    Wp.pure ⟨hreads.trans hreads₃, fun hok hend => ?_⟩
  -- A full read from the beginning, and no byte behind it.
  have hstart : file₁.position = 0 := hposition₁ (by simpa using hset)
  have hwhole := hbytes (by simpa using hread)
  have hlength : bytes.length = markerBytes := by simpa using hfull
  have hnothing : extra = [] := by simpa [show status'.isError = false from hok] using hended
  have hbehind : file₂.content.drop file₂.position = [] := (hextra hok).ended rfl hend hnothing
  rw [hwhole.position, hstart, Nat.zero_add, hlength, hreads₂.content, hreads₁.content,
    List.drop_eq_nil_iff] at hbehind
  have hprefix : bytes <+: file.content := by
    have hheld := hwhole.held
    rwa [hstart, List.drop_zero, hreads₁.content] at hheld
  have hsame : bytes = file.content := hprefix.eq_of_length_le (by omega)
  exact ⟨congrArg some hsame, by rw [← hsame, hlength]⟩

/-- Writing leaves the static variables, and where it succeeds, the bytes in the file. -/
theorem wp_writeExact : Wp A (writeExact bytes) (fun status file' => file'.marker = file.marker ∧
    (file'.endMissed = false → file.endMissed = false) ∧
    (status.isError = false → file'.endMissed = false → file'.content = bytes ∧ bytes.length = markerBytes))
      file := by
  refine Wp.bind wp_setPosition ?_
  rintro position file₁ ⟨hreads₁, -⟩
  refine Wp.ite (fun hfailed => Wp.pure ⟨hreads₁.marker, hreads₁.endMissed, fun hok => ?_⟩) fun _ => ?_
  · rw [hfailed] at hok
    cases hok
  have hwrite : Wp A (write bytes)
      (fun _ file' => file'.marker = file.marker ∧ (file'.endMissed = false → file.endMissed = false)) file₁ := by
    refine Wp.bind (P := fun _ file' => file' = file₁) (wp_call.mpr fun _ _ => rfl) ?_
    rintro answer _ rfl
    refine Wp.bind_get (Wp.ite (fun _ => ?_) fun _ => ?_)
    · exact wp_bind.mpr (wp_set.mpr (Wp.pure ⟨hreads₁.marker, hreads₁.endMissed⟩))
    · exact wp_bind.mpr (wp_set.mpr (Wp.pure ⟨hreads₁.marker, hreads₁.endMissed⟩))
  refine Wp.bind hwrite ?_
  rintro ⟨status, taken⟩ file₂ ⟨hmarker₂, hend₂⟩
  refine Wp.ite (fun hfailed => Wp.pure ⟨hmarker₂, hend₂, fun hok => ?_⟩) fun _ => ?_
  · rw [hfailed] at hok
    cases hok
  refine Wp.ite (fun _ => Wp.pure ⟨hmarker₂, hend₂, nofun⟩) fun _ => ?_
  have hflush : Wp A flush
      (fun _ file' => file'.marker = file.marker ∧ (file'.endMissed = false → file.endMissed = false)) file₂ := by
    refine Wp.bind (P := fun _ file' => file' = file₂) (wp_call.mpr fun _ _ => rfl) ?_
    rintro answer _ rfl
    exact Wp.ite (fun _ => wp_bind.mpr (wp_modify.mpr (Wp.pure ⟨hmarker₂, hend₂⟩)))
      fun _ => Wp.pure ⟨hmarker₂, hend₂⟩
  refine Wp.bind hflush ?_
  rintro flushed file₃ ⟨hmarker₃, hend₃⟩
  refine Wp.ite (fun hfailed => Wp.pure ⟨hmarker₃, hend₃, fun hok => ?_⟩) fun _ => ?_
  · rw [hfailed] at hok
    cases hok
  refine Wp.bind wp_readExact ?_
  rintro ⟨status', verify⟩ file₄ ⟨hreads₄, hverify⟩
  have hmarker₄ := hreads₄.marker.trans hmarker₃
  have hend₄ := fun hend => hend₃ (hreads₄.endMissed hend)
  refine Wp.ite (fun _ => Wp.pure ⟨hmarker₄, hend₄, nofun⟩) fun hsame =>
    Wp.pure ⟨hmarker₄, hend₄, fun hok hend => ?_⟩
  have hread : verify = some bytes := by simpa [show status'.isError = false from hok] using hsame
  obtain ⟨hheld, hlength⟩ := hverify hok hend
  have hsame : file₃.content = bytes := Option.some.inj (hheld.symm.trans hread)
  rw [hreads₄.content]
  exact ⟨hsame, hsame ▸ hlength⟩

/-! ### Calls that leave the file alone -/

theorem wp_service : Wp A service (fun _ file' => file' = file) file :=
  Wp.bind (P := fun _ file' => file' = file) (wp_call.mpr fun _ _ => rfl) fun _ _ h => Wp.pure h

theorem wp_matchingHandles {count : Nat} : Wp A (matchingHandles count) (fun _ file' => file' = file) file := by
  induction count with
  | zero => exact Wp.pure rfl
  | succ count ih =>
      refine Wp.bind (P := fun _ file' => file' = file) (wp_call.mpr fun _ _ => rfl) ?_
      rintro path _ rfl
      exact Wp.bind ih fun _ _ h => Wp.pure h

theorem wp_openMarker : Wp A openMarker (fun _ file' => file' = file) file := by
  refine Wp.bind (P := fun _ file' => file' = file) (wp_call.mpr fun _ _ => rfl) ?_
  rintro located _ rfl
  refine Wp.ite (fun _ => Wp.pure rfl) fun _ => Wp.bind wp_matchingHandles ?_
  rintro found _ rfl
  refine Wp.ite (fun _ => Wp.pure rfl) fun _ => Wp.bind wp_service ?_
  rintro fileSystem _ rfl
  refine Wp.ite (fun _ => Wp.pure rfl) fun _ => Wp.bind wp_service ?_
  rintro volume _ rfl
  refine Wp.ite (fun _ => Wp.pure rfl) fun _ => Wp.bind wp_service ?_
  rintro opened _ rfl
  exact Wp.pure rfl

theorem wp_closeIf {isOpen : Bool} {status : EfiStatus} : Wp A (closeIf isOpen status)
    (fun closed file' => file' = file ∧ (closed.isError = false → status.isError = false)) file := by
  refine Wp.ite (fun _ => Wp.pure ⟨rfl, id⟩) fun _ => Wp.bind wp_service ?_
  rintro closed _ rfl
  refine Wp.pure ⟨rfl, fun hok => ?_⟩
  by_contra hfailed
  rw [if_pos (by simpa using hfailed)] at hok
  exact hfailed hok

theorem wp_closeMarker {opened : OpenMarker} {status : EfiStatus} : Wp A (closeMarker opened status)
    (fun closed file' => file' = file ∧ (closed.isError = false → status.isError = false)) file := by
  refine Wp.bind wp_closeIf ?_
  rintro closed _ ⟨rfl, hclosed⟩
  exact wp_closeIf.mono fun status' file' ⟨hsame, hok⟩ => ⟨hsame, fun h => hclosed (hok h)⟩

/-! ### Applying and restoring -/

/-- With no write outstanding the content is the original's. Otherwise the original has been saved. -/
structure Undoable (original : Bytes) (file : MarkerFile) : Prop where
  clean : file.marker.attempted = false → file.content = original
  saved : file.marker.attempted = true → file.marker.original = original

/-- The original is saved before the first write. -/
theorem wp_writeMarker (hidle : file.marker.attempted = false) : Wp A writeMarker (fun status file' =>
    (file'.endMissed = false → Undoable file.content file') ∧
    (status.isError = false → file'.endMissed = false →
      file'.content = markerText file.marker.configuration ∧ file'.content.length = markerBytes)) file := by
  have hsave : Wp A saveOriginal (fun status file' => file'.content = file.content ∧
      file'.marker.attempted = false ∧ file'.marker.configuration = file.marker.configuration ∧
      (status.isError = false → file'.endMissed = false → file'.marker.original = file.content)) file := by
    refine Wp.bind wp_readExact ?_
    rintro ⟨status, read⟩ file₁ ⟨hreads, hread⟩
    have hidle₁ : file₁.marker.attempted = false := by rw [hreads.marker, hidle]
    have hconfiguration := congrArg Marker.configuration hreads.marker
    cases read with
    | none => exact Wp.pure ⟨hreads.content, hidle₁, hconfiguration, fun hok hend => nomatch (hread hok hend).1⟩
    | some bytes =>
        refine wp_bind.mpr (wp_modify.mpr (Wp.pure ⟨hreads.content, hidle₁, hconfiguration, fun hok hend => ?_⟩))
        exact Option.some.inj (hread hok hend).1
  refine Wp.bind hsave ?_
  rintro status file₁ ⟨hcontent₁, hidle₁, hconfiguration₁, horiginal₁⟩
  have hclean : Undoable file.content file₁ := ⟨fun _ => hcontent₁, fun h => by rw [hidle₁] at h; cases h⟩
  refine Wp.ite (fun hfailed => Wp.pure ⟨fun _ => hclean, fun hok => ?_⟩) fun hread => Wp.bind_get ?_
  · rw [hfailed] at hok
    cases hok
  refine Wp.ite (fun _ => Wp.pure ⟨fun _ => hclean, nofun⟩) fun _ => ?_
  refine wp_bind.mpr (wp_modify.mpr (wp_writeExact.mono ?_))
  rintro written file₂ ⟨hmarker₂, hend₂, hwritten₂⟩
  refine ⟨fun hend => ⟨fun h => ?_, fun _ => ?_⟩, fun hok hend => ?_⟩
  · rw [hmarker₂] at h
    cases h
  · rw [hmarker₂]
    exact horiginal₁ (by simpa using hread) (hend₂ hend)
  · obtain ⟨hrecord, hlength⟩ := hwritten₂ hok hend
    rw [hrecord, ← hconfiguration₁]
    exact ⟨rfl, hlength⟩

theorem wp_markerApply (hidle : file.marker.attempted = false) : Wp A markerApply (fun status file' =>
    (file'.endMissed = false → Undoable file.content file') ∧
    (status.isError = false → file.marker.configuration.enabled ≠ 0 → file'.endMissed = false →
      file'.content = markerText file.marker.configuration ∧ file'.content.length = markerBytes)) file := by
  have hclean : Undoable file.content file := ⟨fun _ => rfl, fun h => by rw [hidle] at h; cases h⟩
  refine Wp.bind_get (Wp.ite (fun hoff => Wp.pure ⟨fun _ => hclean, fun _ hon => absurd hoff hon⟩) fun _ => ?_)
  refine Wp.ite (fun _ => Wp.pure ⟨fun _ => hclean, nofun⟩) fun _ => Wp.bind wp_openMarker ?_
  rintro ⟨status, opened⟩ _ rfl
  refine Wp.ite (fun hfailed => wp_closeMarker.mono ?_) fun _ => Wp.bind (wp_writeMarker hidle) ?_
  · rintro closed _ ⟨rfl, hclosed⟩
    refine ⟨fun _ => hclean, fun hok => ?_⟩
    rw [hclosed hok] at hfailed
    cases hfailed
  · rintro written file₁ ⟨hundo, hrecord⟩
    refine wp_closeMarker.mono ?_
    rintro closed _ ⟨rfl, hclosed⟩
    exact ⟨hundo, fun hok _ => hrecord (hclosed hok)⟩

theorem wp_markerRestore (hundo : file.endMissed = false → Undoable original file) :
    Wp A markerRestore (fun status file' => (file'.endMissed = false → Undoable original file') ∧
      (status.isError = false → file'.endMissed = false → file'.content = original)) file := by
  refine Wp.bind_get (Wp.ite (fun hattempted => ?_) fun hidle => Wp.pure ⟨hundo, fun _ hend => ?_⟩)
  · refine Wp.bind wp_openMarker ?_
    rintro ⟨status, opened⟩ file rfl
    have hput : Wp A (writeOriginal status) (fun written file' => file'.marker = file.marker ∧
        (file'.endMissed = false → file.endMissed = false) ∧
        (written.isError = false → file'.endMissed = false → file'.content = file.marker.original)) file := by
      refine Wp.ite (fun hfailed => Wp.pure ⟨rfl, id, fun hok => ?_⟩) fun _ => Wp.bind_get ?_
      · rw [hfailed] at hok
        cases hok
      · exact wp_writeExact.mono fun _ _ ⟨hmarker, hend, hput⟩ =>
          ⟨hmarker, hend, fun hok hended => (hput hok hended).1⟩
    refine Wp.bind hput ?_
    rintro written file₁ ⟨hmarker₁, hend₁, hput₁⟩
    refine Wp.bind wp_closeMarker ?_
    rintro closed file₁ ⟨rfl, hclosed⟩
    refine Wp.ite (fun hfailed => Wp.pure ⟨fun hend => ?_, fun hok => ?_⟩) fun hput => ?_
    · have hsaved := hundo (hend₁ hend)
      refine ⟨fun h => ?_, fun _ => ?_⟩
      · rw [hmarker₁, hattempted] at h
        cases h
      · rw [hmarker₁]
        exact hsaved.saved hattempted
    · rw [hfailed] at hok
      cases hok
    · refine wp_bind.mpr (wp_modify.mpr (Wp.pure ?_))
      have hback : file₁.endMissed = false → file₁.content = original := fun hend =>
        (hput₁ (hclosed (by simpa using hput)) hend).trans ((hundo (hend₁ hend)).saved hattempted)
      exact ⟨fun hend => ⟨fun _ => hback hend, nofun⟩, fun _ => hback⟩
  · exact (hundo hend).clean (by simpa using hidle)

/-- A restore, after this many others. -/
def restoreAfter : Nat → MarkerProg EfiStatus
  | 0 => markerRestore
  | count + 1 => do
      let _ ← markerRestore
      restoreAfter count

theorem wp_restoreAfter {count : Nat} (hundo : file.endMissed = false → Undoable original file) :
    Wp A (restoreAfter count) (fun status file' =>
      status.isError = false → file'.endMissed = false → file'.content = original) file := by
  induction count generalizing file with
  | zero => exact (wp_markerRestore hundo).mono fun _ _ h => h.2
  | succ count ih => exact Wp.bind (wp_markerRestore hundo) fun _ _ h => ih h.1

/-- The marker is applied with no write outstanding, and restored any number of times. Where the end of the
file has not been missed, an application that succeeds leaves the record in the file, and a restore that
succeeds what it held before. -/
theorem marker_undone (file : MarkerFile) (applying restoring : Nat → MarkerAnswer) (count : Nat)
    (hidle : file.marker.attempted = false) :
    let applied := markerApply.run applying file
    let restored := (restoreAfter count).run restoring applied.2
    (applied.1.isError = false → file.marker.configuration.enabled ≠ 0 → applied.2.endMissed = false →
      applied.2.content = markerText file.marker.configuration ∧ applied.2.content.length = markerBytes) ∧
    (restored.1.isError = false → restored.2.endMissed = false → restored.2.content = file.content) := by
  obtain ⟨hundo, hrecord⟩ := (wp_markerApply hidle).runAny applying
  exact ⟨hrecord, (wp_restoreAfter hundo).runAny restoring⟩

def secondaryMarker : MarkerConfig :=
  { MarkerConfig.zero with
    seen := 255, enabled := 1, partition := 1, signature := 0x12345678, start := 2048, sectors := 131072,
    profile := ascii "SECONDARY", path := ascii "\\BOOTSEL.DAT", header := ascii "NCVBOOT" }

/-- A file that names another profile, with these bytes behind the record. -/
def primaryFile (behind : Bytes) : MarkerFile where
  content := markerText { secondaryMarker with profile := ascii "PRIMARY" } ++ behind
  marker := { configuration := secondaryMarker }

/-- One handle, and every byte that is asked for. -/
def fullAnswers (index : Nat) : MarkerAnswer where
  count := if index = 0 then 1 else markerBytes

theorem marker_undone_sample :
    ((restoreAfter 1).run fullAnswers (markerApply.run fullAnswers (primaryFile [])).2).2.content =
      (primaryFile []).content :=
  (marker_undone (primaryFile []) fullAnswers fullAnswers 1 rfl).2 (by decide +kernel) (by decide +kernel)

/-- The answers to these calls are short. -/
def shortAnswers (short : List Nat) (index : Nat) : MarkerAnswer :=
  if index ∈ short then {} else fullAnswers index

/-- The ninth call fails, and leaves a byte behind the record. -/
def failingAnswers (index : Nat) : MarkerAnswer :=
  if index = 9 then { status := .deviceError, left := (primaryFile [byte 'X']).content } else fullAnswers index

/-- A read of one byte that reports none is taken for the end of the file. An application then succeeds on a
file that is longer than the record, and a restore on one that a failed write has made longer. -/
theorem marker_undone_endMissed :
    (∃ file applying, file.marker.attempted = false ∧ file.marker.configuration.enabled ≠ 0 ∧
      (markerApply.run applying file).1.isError = false ∧
      (markerApply.run applying file).2.content ≠ markerText file.marker.configuration) ∧
    (∃ file applying restoring, file.marker.attempted = false ∧
      (markerRestore.run restoring (markerApply.run applying file).2).1.isError = false ∧
      (markerRestore.run restoring (markerApply.run applying file).2).2.content ≠ file.content) :=
  ⟨⟨primaryFile [byte 'X'], shortAnswers [7, 13], by decide +kernel⟩,
    primaryFile [], failingAnswers, shortAnswers [10], by decide +kernel⟩

end MarkerFile

end CsmVgaSelector
