import CsmVgaSelector.Proof.CandidateIni
import CsmVgaSelector.Proof.Recovery
import CsmVgaSelector.Proof.ViaTemp

/-!
# A save survives a crash

Wherever a save of edited targets stops, the old configuration is `Config.ini`, or it is `Config.ini.previous`
and `Config.ini` is absent or the new one (`Saving`). Recovery then loads or offers one of the two
(`editedSave_crashSafe`).
-/

namespace CsmVgaSelector

namespace FileProg

variable {A : FileAnswer → Prop} {s s' : FileState} {old : Bytes} {selection : Selection}

/-- The edit of the old configuration. -/
def Edited (old : Bytes) (selection : Selection) (text : Bytes) : Prop := editSelection old selection = .ok text

/-- What can be on the disk in a save. -/
def Saving (old : Bytes) (selection : Selection) (s : FileState) : Prop :=
  s.directory .config = some old ∨
    ∃ text, Edited old selection text ∧ Publishing old text .config .previous s

theorem wp_saveEditedTargets (hold : s.directory .config = some old) :
    Halting.Wp A (saveEditedTargets selection)
      (fun status s' => Saving old selection s' ∧ (status.isError = false → ∃ text, Edited old selection text ∧
        s'.directory .config = some text ∧ s'.directory .previous = some old))
      (Saving old selection) s := by
  apply configReadUsable_looks.bind_wp (.inl hold)
  rintro (status | original) hread
  · exact Halting.Wp.pure ⟨.inl hold, not_isError (hread.isError usableContent_isError)⟩
  obtain rfl := Option.some.inj (hold.symm.trans (usableContent_eq_ok hread.eq_ok).1)
  apply allocatePool_looks.bind_wp (.inl hold)
  intro granted _
  apply Halting.Wp.ite
  · exact fun _ => Halting.Wp.pure ⟨.inl hold, nofun⟩
  intro _
  match hedit : editSelection old selection with
  | .error .capacity => exact Halting.Wp.pure ⟨.inl hold, nofun⟩
  | .error .invalid => exact Halting.Wp.pure ⟨.inl hold, nofun⟩
  | .ok text =>
      apply Halting.Wp.bind_update
      apply Halting.Wp.ite
      · exact fun herror => Halting.Wp.pure ⟨.inl hold, not_isError herror⟩
      intro _
      -- The older copy goes first, while the configuration is in place.
      have hremoving {s' : FileState} (h : Removing .previous (s.note (.formed text)) s') :
          s'.directory .config = some old := by
        rcases h with rfl | rfl
        · exact hold
        · exact hold
      apply Halting.Wp.bind (wp_deleteAdjacentIfPresent.mono (fun _ _ h => h) fun _ h => .inl (hremoving h))
      intro deleted s₁ hremoved
      have hold₁ := hremoving hremoved.removing
      apply Halting.Wp.ite
      · exact fun herror => Halting.Wp.pure ⟨.inl hold₁, not_isError herror⟩
      intro _
      apply Halting.Wp.bind ((wp_writeAdjacentViaTemp_replaces (by decide) (by decide) (by decide) hold₁).mono
        (fun _ _ h => h) fun _ h => .inr ⟨text, hedit, h⟩)
      rintro ⟨status, preserved⟩ s₂ hreplacing
      have hsaving : Saving old selection s₂ := .inr ⟨text, hedit, hreplacing.stage⟩
      apply Halting.Wp.ite
      · exact fun herror => Halting.Wp.pure ⟨hsaving, not_isError herror⟩
      intro hok
      obtain ⟨hpreserved, hconfig⟩ := hreplacing.success (Bool.eq_false_iff.mpr hok)
      apply configReadUsable_looks.bind_wp hsaving
      rintro (status | readback) hread
      · exact Halting.Wp.pure ⟨hsaving, not_isError (hread.isError usableContent_isError)⟩
      · exact Halting.Wp.pure ⟨hsaving, fun _ => ⟨text, hedit, hconfig, hreplacing.preserved hpreserved⟩⟩

/-- The complete old configuration, or the complete new one. -/
def OldOrNew (old : Bytes) (selection : Selection) (bytes : Bytes) : Prop :=
  bytes = old ∨ Edited old selection bytes

theorem Saving.held (h : Saving old selection s) :
    ∃ name ∈ configNames, ∃ bytes, s.directory name = some bytes ∧ OldOrNew old selection bytes := by
  rcases h with hconfig | ⟨text, -, hstage⟩
  · exact ⟨.config, by decide, old, hconfig, .inl rfl⟩
  · cases hstage with
    | kept hconfig => exact ⟨.config, by decide, old, hconfig, .inl rfl⟩
    | moved _ hcopy => exact ⟨.previous, by decide, old, hcopy, .inl rfl⟩
    | replaced _ hcopy => exact ⟨.previous, by decide, old, hcopy, .inl rfl⟩

/-- What recovery needs. -/
theorem Saving.recoverable (h : Saving old selection s) : s.directory .config = some old ∨
    s.directory .previous = some old ∧
      ∀ bytes, s.directory .config = some bytes → OldOrNew old selection bytes := by
  rcases h with hconfig | ⟨text, hedited, hstage⟩
  · exact .inl hconfig
  · cases hstage with
    | kept hconfig => exact .inl hconfig
    | moved hconfig hcopy => exact .inr ⟨hcopy, fun bytes h => nomatch hconfig.symm.trans h⟩
    | replaced hconfig hcopy =>
        refine .inr ⟨hcopy, fun bytes h => .inr ?_⟩
        rwa [← Option.some.inj (hconfig.symm.trans h)]

/-- A save of a usable configuration stops anywhere, and recovery is run on what is there. It loads or offers the
old configuration or the new one, and no error comes of it but that the user refuses. -/
theorem editedSave_crashSafe (old : Bytes) (selection : Selection) (directory : Directory) (patience : Nat)
    (saving recovering : Nat → FileAnswer) (hold : directory .config = some old) (husable : usable old = true)
    (hsize : old.length ≤ candidateIniBytes) (hsmooth : ∀ n, (recovering n).Smooth) :
    let saved := Halting.run (saveEditedTargets selection) saving { directory }
    let recovered := Halting.run (configLoadRecoverable patience) recovering { directory := saved.2.directory }
    (∃ name ∈ configNames, ∃ bytes, saved.2.directory name = some bytes ∧ OldOrNew old selection bytes) ∧
    (∀ status, saved.1 = some status → status.isError = false → ∃ text, Edited old selection text ∧
      saved.2.directory .config = some text ∧ saved.2.directory .previous = some old) ∧
    Recovers (OldOrNew old selection) recovered.2 ∧
    ∀ result, recovered.1 = some result →
      (∃ bytes, result = .ok bytes ∧ OldOrNew old selection bytes) ∨ result = .error .aborted := by
  intro saved recovered
  have hsaved : Saving old selection saved.2 ∧ ∀ status, saved.1 = some status → status.isError = false →
      ∃ text, Edited old selection text ∧ saved.2.directory .config = some text ∧
        saved.2.directory .previous = some old :=
    (@wp_saveEditedTargets (fun _ => True) { directory } old selection hold).run_both fun _ => trivial
  have hrecovered : Recovers (OldOrNew old selection) recovered.2 ∧ ∀ result, recovered.1 = some result →
      (∃ bytes, result = .ok bytes ∧ OldOrNew old selection bytes) ∨ result = .error .aborted :=
    (@wp_configLoadRecoverable { directory := saved.2.directory } old patience
      (OldOrNew old selection) rfl (.inl rfl) husable hsize hsaved.1.recoverable).run_both hsmooth
  exact ⟨hsaved.1.held, hsaved.2, hrecovered⟩

def bootConfig : Bytes :=
  textOfLines
    [ascii "[Behavior]", ascii "Probe=false", ascii "[Video]", ascii "TargetPci=0000:03:00.0",
      ascii "[Endpoint]", ascii "IoDecoding=On", ascii "MemoryDecoding=On", ascii "BusMastering=Ignore",
      ascii "[Boot]", ascii "TargetControllerPci=0000:05:00.0", ascii "TargetBbsDescription=Old disk"]

def onlyConfig : Directory
  | .config => some bootConfig
  | _ => none

theorem editedSave_crashSafe_sample :
    let selection := (sampleDisplay, sampleStorage)
    let saved := Halting.run (saveEditedTargets selection) (fun _ => {}) { directory := onlyConfig }
    let recovered := Halting.run (configLoadRecoverable 1) (fun _ => {}) { directory := saved.2.directory }
    (∃ text, Edited bootConfig selection text ∧ saved.2.directory .config = some text ∧
      saved.2.directory .previous = some bootConfig) ∧
    Recovers (OldOrNew bootConfig selection) recovered.2 := by
  have hsafe := editedSave_crashSafe bootConfig (sampleDisplay, sampleStorage) onlyConfig 1 (fun _ => {})
    (fun _ => {}) rfl (by decide +kernel) (by decide +kernel) fun _ => ⟨rfl, rfl, rfl, rfl⟩
  exact ⟨hsafe.2.1 .success (by decide +kernel) rfl, hsafe.2.2.1⟩

end FileProg

end CsmVgaSelector
