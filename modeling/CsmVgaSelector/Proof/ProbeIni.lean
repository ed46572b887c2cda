import CsmVgaSelector.Proof.ViaTemp

/-!
# The publication of Probe.ini

The old file is complete under its own name or in its copy until the new one has been read back and verified
(`probeIni_kept`). What undoes a publication reads that copy and deletes it last.
-/

namespace CsmVgaSelector

namespace FileProg

variable {A : FileAnswer → Prop} {s s' : FileState} {target tempName rollback : ConfigName}
  {text original : Bytes} {selection : Option Selection} {patience : Nat}

/-- The original is in the target or in its copy. -/
def Complete (original : Bytes) (target rollback : ConfigName) (s : FileState) : Prop :=
  s.directory target = some original ∨ s.directory rollback = some original

/-- The target has been replaced and verified. -/
def Verified (text : Bytes) (target : ConfigName) (s : FileState) : Prop :=
  .published target text ∈ s.trace ∧ s.directory target = some text

theorem Publishing.complete (h : Publishing original text target rollback s) :
    Complete original target rollback s := by
  cases h with
  | kept htarget => exact .inl htarget
  | moved _ hcopy => exact .inr hcopy
  | replaced _ hcopy => exact .inr hcopy

/-- The copy is deleted only when the target holds what it does. -/
theorem wp_restoreAndForget (hne : target ≠ rollback) (hcopy : s.directory rollback = some original) :
    Halting.Wp A (restoreAndForget target rollback) (fun _ => Complete original target rollback)
      (Complete original target rollback) s := by
  have hrestoring {s' : FileState} (h : Restoring target rollback s s') :
      s'.directory rollback = some original := by
    rcases h with rfl | ⟨_, -, hwriting⟩
    · exact hcopy
    · rw [hwriting.other hne.symm, FileState.set_of_ne hne.symm, hcopy]
  apply Halting.Wp.bind (wp_restoreAdjacentRollback.mono (fun _ _ h => h) fun _ h => .inr (hrestoring h))
  rintro restored s₁ ⟨hstate, hrestored, -⟩
  apply Halting.Wp.ite
  · exact fun _ => Halting.Wp.pure (.inr (hrestoring hstate))
  intro hok
  have htarget : s₁.directory target = some original := by
    obtain ⟨content, hcontent, htarget⟩ := hrestored (Bool.eq_false_iff.mpr hok)
    rw [htarget, ← hcontent, hcopy]
  have hremoving {s' : FileState} (h : Removing rollback s₁ s') : Complete original target rollback s' := by
    rcases h with rfl | rfl
    · exact .inl htarget
    · exact .inl (by rw [FileState.set_of_ne hne, htarget])
  exact wp_deleteAdjacentIfPresent.mono (fun _ _ h => hremoving h.removing) fun _ h => hremoving h

/-- The rest of a publication, once it has been verified. -/
theorem wp_forgetCopy (hne : target ≠ rollback) (hverified : Verified text target s) :
    Halting.Wp A (do
        let deleted ← deleteAdjacentIfPresent rollback
        if deleted.isError then return deleted
        if some rollback = none then reloadActive patience else return .success)
      (fun _ => Verified text target) (Verified text target) s := by
  have hremoving {s' : FileState} (h : Removing rollback s s') : Verified text target s' := by
    rcases h with rfl | rfl
    · exact hverified
    · exact ⟨hverified.1, by rw [FileState.set_of_ne hne, hverified.2]⟩
  apply Halting.Wp.bind (wp_deleteAdjacentIfPresent.mono (fun _ _ h => h) fun _ h => hremoving h)
  intro deleted s₁ hremoved
  apply Halting.Wp.ite
  · exact fun _ => Halting.Wp.pure (hremoving hremoved.removing)
  intro _
  apply Halting.Wp.ite
  · exact nofun
  · exact fun _ => Halting.Wp.pure (hremoving hremoved.removing)

theorem wp_publish_keeps (htemp : target ≠ tempName) (hrollback : target ≠ rollback)
    (hcopy : tempName ≠ rollback) (htarget : s.directory target = some original) :
    Halting.Wp A (publish patience target tempName (some rollback) text selection)
      (fun _ s' => Complete original target rollback s' ∨ Verified text target s')
      (fun s' => Complete original target rollback s' ∨ Verified text target s') s := by
  apply Halting.Wp.bind ((wp_writeAdjacentViaTemp_replaces htemp hrollback hcopy htarget).mono
    (fun _ _ h => h) fun _ h => .inl h.complete)
  rintro ⟨status, preserved⟩ s₁ hreplacing
  have hundo (hpreserved : preserved = true) {failed : EfiStatus} : Halting.Wp A
      (do return afterCleanup (← restoreAndForget target rollback) failed)
      (fun _ s' => Complete original target rollback s' ∨ Verified text target s')
      (fun s' => Complete original target rollback s' ∨ Verified text target s') s₁ :=
    Halting.Wp.bind ((wp_restoreAndForget hrollback (hreplacing.preserved hpreserved)).mono
      (fun _ _ h => h) fun _ h => .inl h) fun _ _ h => Halting.Wp.pure (.inl h)
  apply Halting.Wp.ite
  · intro _
    cases preserved with
    | false => exact Halting.Wp.pure (.inl hreplacing.stage.complete)
    | true => exact hundo rfl
  intro hok
  obtain ⟨rfl, -⟩ := hreplacing.success (Bool.eq_false_iff.mpr hok)
  apply checkPublished_looks.bind_wp (.inl hreplacing.stage.complete)
  intro checked hchecked
  apply Halting.Wp.ite
  · exact fun _ => hundo rfl
  intro hok
  have hverified : Verified text target (s₁.note (.published target text)) :=
    ⟨List.mem_append_right _ List.mem_cons_self, hchecked (Bool.eq_false_iff.mpr hok)⟩
  exact Halting.Wp.bind_update ((wp_forgetCopy hrollback hverified).mono (fun _ _ => .inr) fun _ => .inr)

theorem wp_failed {m : FileProg EfiStatus} {status : EfiStatus} {R : FileState → Prop}
    (herror : status.isError = true) :
    Halting.Wp A (do return afterCleanup (← m) status) (fun status s' => status.isError = false → R s')
      (fun _ => True) s :=
  (Halting.wp_of_forall (Q := fun _ _ => True) (fun _ _ => trivial) fun _ => trivial).bind
    fun _ _ _ => Halting.Wp.pure (not_isError (afterCleanup_isError herror))

/-- A publication that succeeds has read the text back, and deletes nothing but the copy. -/
theorem wp_publish_success (hrollback : target ≠ rollback) :
    Halting.Wp A (publish patience target tempName (some rollback) text selection)
      (fun status s' => status.isError = false → s'.directory target = some text) (fun _ => True) s := by
  apply (Halting.wp_of_forall (Q := fun _ _ => True) (fun _ _ => trivial) fun _ => trivial).bind
  rintro ⟨status, preserved⟩ s₁ -
  apply Halting.Wp.ite
  · intro herror
    cases preserved with
    | false => exact Halting.Wp.pure (not_isError herror)
    | true => exact wp_failed herror
  intro _
  apply checkPublished_looks.bind_wp trivial
  intro checked hchecked
  apply Halting.Wp.ite
  · intro herror
    cases preserved with
    | false => exact wp_failed herror
    | true => exact wp_failed herror
  intro hok
  have hverified : Verified text target (s₁.note (.published target text)) :=
    ⟨List.mem_append_right _ List.mem_cons_self, hchecked (Bool.eq_false_iff.mpr hok)⟩
  apply Halting.Wp.bind_update
  cases preserved with
  | false => exact Halting.Wp.pure fun _ => hverified.2
  | true => exact (wp_forgetCopy hrollback hverified).mono (fun _ _ h _ => h.2) fun _ _ => trivial

theorem publish_refuses {previous : Bytes} (hcopy : s.directory rollback = some previous) :
    LooksAt A (publish patience target tempName (some rollback) text selection) s fun _ => True := by
  apply (writeAdjacentViaTemp_refuses (by rw [hcopy]; exact nofun)).bind
  rintro ⟨status, preserved⟩ ⟨herror, hpreserved⟩
  obtain rfl : preserved = false := hpreserved
  apply LooksAt.ite
  · exact fun _ => LooksAt.pure trivial
  · exact fun hok => absurd herror hok

/-! ### Probe.ini mode -/

/-- What holds of `Probe.ini` wherever `ProbeConfigWriteCandidateIni` stops or ends, with the status it ends
with. -/
structure ProbeKept (candidates : Candidates) (directory : Directory) (status : Option EfiStatus)
    (s : FileState) : Prop where
  original : ∀ original, directory .probe = some original → Complete original .probe .probePrevious s ∨
    ∃ text, candidates.format = .ok text ∧ Verified text .probe s
  previous : ∀ previous, directory .probePrevious = some previous → s.directory .probePrevious = some previous
  success : ∀ ended, status = some ended → ended.isError = false →
    ∃ text, candidates.format = .ok text ∧ s.directory .probe = some text

/-- Before anything has been written. -/
theorem ProbeKept.unwritten {candidates : Candidates} {directory : Directory} {status : Option EfiStatus}
    (hsame : s.directory = directory) (hstatus : ∀ ended, status = some ended → ended.isError = true) :
    ProbeKept candidates directory status s where
  original original horiginal := .inl (.inl (by rw [hsame, horiginal]))
  previous previous hprevious := by rw [hsame, hprevious]
  success ended hended := not_isError (hstatus ended hended)

theorem wp_publish_probeKept {candidates : Candidates} (hformat : candidates.format = .ok text) :
    Halting.Wp A (publish patience .probe .probeTemp (some .probePrevious) text selection)
      (fun status => ProbeKept candidates s.directory (some status)) (ProbeKept candidates s.directory none) s := by
  have horiginal : Halting.Wp A (publish patience .probe .probeTemp (some .probePrevious) text selection)
      (fun _ s' => ∀ original, s.directory .probe = some original →
        Complete original .probe .probePrevious s' ∨ Verified text .probe s')
      (fun s' => ∀ original, s.directory .probe = some original →
        Complete original .probe .probePrevious s' ∨ Verified text .probe s') s := by
    cases hprobe : s.directory .probe with
    | none => exact Halting.wp_of_forall (fun _ _ => nofun) fun _ => nofun
    | some original =>
        apply (wp_publish_keeps (by decide) (by decide) (by decide) hprobe).mono
        · rintro _ _ h _ ⟨⟩
          exact h
        · rintro _ h _ ⟨⟩
          exact h
  have hprevious : Halting.Wp A (publish patience .probe .probeTemp (some .probePrevious) text selection)
      (fun _ s' => ∀ previous, s.directory .probePrevious = some previous →
        s'.directory .probePrevious = some previous)
      (fun s' => ∀ previous, s.directory .probePrevious = some previous →
        s'.directory .probePrevious = some previous) s := by
    cases hcopy : s.directory .probePrevious with
    | none => exact Halting.wp_of_forall (fun _ _ => nofun) fun _ => nofun
    | some previous => exact (publish_refuses hcopy).wp (fun _ => hcopy.trans) fun _ _ _ => hcopy.trans
  have htext {s' : FileState} {original : Bytes}
      (h : Complete original .probe .probePrevious s' ∨ Verified text .probe s') :
      Complete original .probe .probePrevious s' ∨
        ∃ text, candidates.format = .ok text ∧ Verified text .probe s' :=
    h.imp id fun hverified => ⟨text, hformat, hverified⟩
  have hsuccess := @wp_publish_success A s .probe .probeTemp .probePrevious text selection patience (by decide)
  apply ((horiginal.and hprevious).and hsuccess).mono
  · rintro status s' ⟨⟨horiginal, hprevious⟩, hsuccess⟩
    refine ⟨fun original h => htext (horiginal original h), hprevious, ?_⟩
    rintro _ ⟨⟩ hok
    exact ⟨text, hformat, hsuccess hok⟩
  · rintro s' ⟨⟨horiginal, hprevious⟩, -⟩
    exact ⟨fun original h => htext (horiginal original h), hprevious, nofun⟩

theorem wp_probeConfigWriteCandidateIni {candidates : Candidates} {firstRun : Bool}
    (hmode : (firstRun && candidates.selection.isSome) = false) :
    Halting.Wp A (probeConfigWriteCandidateIni patience false firstRun candidates)
      (fun status => ProbeKept candidates s.directory (some status)) (ProbeKept candidates s.directory none) s := by
  have hunwritten {status : EfiStatus} (herror : status.isError = true) :
      ProbeKept candidates s.directory (some status) s :=
    .unwritten rfl (by rintro _ ⟨⟩; exact herror)
  apply Halting.Wp.ite
  · exact fun _ => Halting.Wp.pure (hunwritten rfl)
  intro _
  apply Halting.Wp.ite
  · exact nofun
  intro _
  apply allocatePool_looks.bind_wp (.unwritten rfl nofun)
  intro granted _
  apply Halting.Wp.ite
  · exact fun _ => Halting.Wp.pure (hunwritten rfl)
  intro _
  match hformat : candidates.format with
  | .error failure => exact Halting.Wp.pure (hunwritten rfl)
  | .ok text =>
      apply Halting.Wp.bind_update
      apply Halting.Wp.ite
      · intro herror
        exact Halting.Wp.pure (.unwritten rfl (by rintro _ ⟨⟩; exact herror))
      · intro _
        rw [hmode, if_neg Bool.false_ne_true]
        exact wp_publish_probeKept (s := s.note (.formed text)) hformat

/-- Whatever is in the directory, and wherever a run in Probe.ini mode stops or ends. -/
theorem probeIni_kept (candidates : Candidates) (patience : Nat) (firstRun : Bool) (directory : Directory)
    (answers : Nat → FileAnswer) (hmode : (firstRun && candidates.selection.isSome) = false) :
    let written := Halting.run (probeConfigWriteCandidateIni patience false firstRun candidates) answers
      { directory }
    ProbeKept candidates directory written.1 written.2 := by
  have hrun := (@wp_probeConfigWriteCandidateIni _ { directory } patience candidates firstRun hmode).runAny answers
  revert hrun
  dsimp only
  cases (Halting.run (probeConfigWriteCandidateIni patience false firstRun candidates) answers
    { directory }).1 with
  | none => exact id
  | some status => exact id

def noCandidates : Candidates where
  displays := []
  selectedDisplay := none
  storage := []
  selectedStorage := none

/-- An old file, and what an interrupted run has left. -/
def oldProbe : Directory
  | .probe => some (ascii "[Behavior]")
  | .probeTemp => some [0]
  | _ => none

theorem probeIni_kept_sample :
    ∃ text, noCandidates.format = .ok text ∧
      (Halting.run (probeConfigWriteCandidateIni 0 false true noCandidates) (fun _ => {})
        { directory := oldProbe }).2.directory .probe = some text :=
  (probeIni_kept noCandidates 0 true oldProbe (fun _ => {}) rfl).success .success (by decide +kernel) rfl

end FileProg

end CsmVgaSelector
