import CsmVgaSelector.Proof.EditedSave

/-!
# What recovery offers has not been cut

A usable file of the configuration is one that was there at first or a text that was formed in full, as long as
no write is cut short at something usable (`Sound`). Every operation keeps this, so it holds of any sequence of
boots (`recovery_untruncated`).
-/

namespace CsmVgaSelector

/-- A write to the configuration's files is not cut short at something usable. -/
def FileEvent.uncut : FileEvent → Bool
  | .wrote name data taken => !configNames.contains name || data.length ≤ taken || !usable (data.take taken)
  | _ => true

namespace FileProg

variable {A : FileAnswer → Prop} {s s' : FileState} {first : Directory} {texts : List Bytes}
  {name newName target tempName : ConfigName} {rollback : Option ConfigName} {text : Bytes} {patience : Nat}

def Uncut (trace : List FileEvent) : Prop := ∀ event ∈ trace, event.uncut = true

instance {trace : List FileEvent} : Decidable (Uncut trace) :=
  inferInstanceAs (Decidable (∀ event ∈ trace, event.uncut = true))

/-- A text that has been formed in full, or a file that was there at first. -/
def Known (first : Directory) (trace : List FileEvent) (bytes : Bytes) : Prop :=
  .formed bytes ∈ trace ∨ ∃ name ∈ configNames, first name = some bytes

structure Untruncated (first : Directory) (s : FileState) : Prop where
  files : ∀ name ∈ configNames, ∀ bytes, s.directory name = some bytes → usable bytes = true →
    Known first s.trace bytes
  offers : Offers (Known first s.trace) s

/-- These texts have been formed, and what is usable or has been offered is known. -/
structure Sound (first : Directory) (texts : List Bytes) (s : FileState) : Prop where
  formed : ∀ text ∈ texts, .formed text ∈ s.trace
  untruncated : Uncut s.trace → Untruncated first s

/-! ### What one operation keeps -/

theorem Known.mono {trace trace' : List FileEvent} {bytes : Bytes} (h : Known first trace bytes)
    (hmono : ∀ event ∈ trace, event ∈ trace') : Known first trace' bytes :=
  h.imp (hmono _) id

/-- The files are changed, and nothing is noted but writes. -/
theorem Sound.writes (h : Sound first texts s) (hwrites : OnlyWrites s s')
    (hfiles : Uncut s'.trace → Untruncated first s → ∀ name ∈ configNames, ∀ bytes,
      s'.directory name = some bytes → usable bytes = true → Known first s.trace bytes) :
    Sound first texts s' := by
  refine ⟨fun text htext => hwrites.older _ (h.formed text htext), fun huncut => ?_⟩
  have hbefore := h.untruncated fun event hevent => huncut event (hwrites.older event hevent)
  refine ⟨fun name hname bytes hbytes husable => ?_, fun bytes hbytes => ?_⟩
  · exact (hfiles huncut hbefore name hname bytes hbytes husable).mono hwrites.older
  · exact (hbefore.offers.onlyWrites hwrites bytes hbytes).mono hwrites.older

theorem Sound.removing (h : Sound first texts s) (hremoving : Removing name s s') : Sound first texts s' := by
  rcases hremoving with rfl | rfl
  · exact h
  refine h.writes (.of_trace rfl) fun _ hbefore other hother bytes hbytes => hbefore.files other hother bytes ?_
  by_cases hsame : other = name
  · rw [hsame, FileState.set_self] at hbytes
    cases hbytes
  · rwa [FileState.set_of_ne hsame] at hbytes

/-- A text that is usable only if it is known may be written. -/
theorem Sound.writing (h : Sound first texts s) (hwriting : Writing name text s s')
    (htext : Untruncated first s → name ∈ configNames → usable text = true → Known first s.trace text) :
    Sound first texts s' := by
  refine h.writes hwriting.onlyWrites fun huncut hbefore other hother bytes hbytes husable => ?_
  by_cases hsame : other = name
  case neg =>
    rw [hwriting.other hsame] at hbytes
    exact hbefore.files other hother bytes hbytes husable
  obtain rfl := hsame
  cases hwriting with
  | nothing => exact hbefore.files other hother bytes hbytes husable
  | empty content hcontent =>
      rw [FileState.set_self] at hbytes
      rcases hcontent with rfl | rfl
      · cases hbytes
      · obtain rfl := Option.some.inj hbytes
        exact absurd husable (by decide +kernel)
  | part taken htaken content hcontent =>
      rw [FileState.set_self] at hbytes
      rcases hcontent with rfl | rfl
      · cases hbytes
      obtain rfl := Option.some.inj hbytes
      have hevent := huncut (.wrote other text taken) (List.mem_append_right _ List.mem_cons_self)
      rw [FileEvent.uncut, husable, Bool.not_true, Bool.or_false, Bool.or_eq_true] at hevent
      rcases hevent with hother' | hwhole
      · rw [List.contains_iff_mem.mpr hother] at hother'
        cases hother'
      · rw [List.take_of_length_le (of_decide_eq_true hwhole)] at husable ⊢
        exact htext hbefore hother husable

theorem Sound.copying {rollback : ConfigName} (h : Sound first texts s)
    (hnames : rollback ∈ configNames → target ∈ configNames) (hcopying : Copying target rollback s s') :
    Sound first texts s' := by
  rcases hcopying with rfl | ⟨original, horiginal, -, hwriting⟩
  · exact h
  · exact h.writing hwriting fun hbefore hname husable =>
      hbefore.files target (hnames hname) original horiginal husable

theorem Sound.restoring {rollback : ConfigName} (h : Sound first texts s)
    (hnames : target ∈ configNames → rollback ∈ configNames) (hrestoring : Restoring target rollback s s') :
    Sound first texts s' := by
  rcases hrestoring with rfl | ⟨original, horiginal, hwriting⟩
  · exact h
  have hremoved : Sound first texts (s.set target none) := h.removing (.inr rfl)
  refine ⟨fun text htext => hwriting.onlyWrites.older _ (h.formed text htext), fun huncut => ?_⟩
  have hbefore := h.untruncated fun event hevent => huncut event (hwriting.onlyWrites.older event hevent)
  exact (hremoved.writing hwriting fun _ hname husable =>
    hbefore.files rollback (hnames hname) original horiginal husable).untruncated huncut

theorem Sound.moving (h : Sound first texts s) (hnames : newName ∈ configNames → name ∈ configNames)
    (hmoving : s' = s ∨ s' = s.move name newName) : Sound first texts s' := by
  rcases hmoving with rfl | rfl
  · exact h
  refine h.writes (.of_trace rfl) fun _ hbefore other hother bytes hbytes => ?_
  rw [FileState.move] at hbytes
  by_cases hsource : other = name
  · rw [hsource, FileState.set_self] at hbytes
    cases hbytes
  rw [FileState.set_of_ne hsource] at hbytes
  by_cases htarget : other = newName
  · rw [htarget, FileState.set_self] at hbytes
    exact hbefore.files name (hnames (htarget ▸ hother)) bytes hbytes
  · rw [FileState.set_of_ne htarget] at hbytes
    exact hbefore.files other hother bytes hbytes

/-- Something is noted that offers only what is known. -/
theorem Sound.note {event : FileEvent} (h : Sound first texts s)
    (hevent : ∀ bytes, event = .loaded bytes ∨ event = .offered bytes →
      Untruncated first s → Known first s.trace bytes) : Sound first texts (s.note event) := by
  have hmono : ∀ noted ∈ s.trace, noted ∈ (s.note event).trace := fun _ => List.mem_append_left _
  refine ⟨fun text htext => hmono _ (h.formed text htext), fun huncut => ?_⟩
  have hbefore := h.untruncated fun noted hnoted => huncut noted (hmono noted hnoted)
  refine ⟨fun name hname bytes hbytes husable => (hbefore.files name hname bytes hbytes husable).mono hmono, ?_⟩
  intro bytes hbytes
  have hsplit {noted : FileEvent} (hnoted : noted ∈ (s.note event).trace) : noted ∈ s.trace ∨ event = noted :=
    (List.mem_append.mp hnoted).imp id fun hnew => (List.mem_singleton.mp hnew).symm
  have hnoted : (.loaded bytes ∈ s.trace ∨ .offered bytes ∈ s.trace) ∨
      event = .loaded bytes ∨ event = .offered bytes := by
    rcases hbytes with hloaded | hoffered
    · exact (hsplit hloaded).imp .inl .inl
    · exact (hsplit hoffered).imp .inr .inr
  rcases hnoted with hold | hnew
  · exact (hbefore.offers bytes hold).mono hmono
  · exact (hevent bytes hnew hbefore).mono hmono

theorem Sound.form (h : Sound first texts s) : Sound first (text :: texts) (s.note (.formed text)) := by
  have hnoted : Sound first texts (s.note (.formed text)) := h.note (by rintro _ (h | h) <;> cases h)
  refine ⟨fun other hother => ?_, hnoted.untruncated⟩
  rcases List.mem_cons.mp hother with rfl | hother
  · exact List.mem_append_right _ List.mem_cons_self
  · exact hnoted.formed other hother

theorem Sound.forget (h : Sound first (text :: texts) s) : Sound first texts s :=
  ⟨fun other hother => h.formed other (List.mem_cons_of_mem _ hother), h.untruncated⟩

/-! ### The operations -/

/-- However the part ends or stops, what was sound is. -/
abbrev KeepsSound {α : Type} (first : Directory) (texts : List Bytes) (m : FileProg α) : Prop :=
  Halting.Preserves (Sound first texts) (Sound first texts) m

theorem KeepsSound.of_looks {α : Type} {m : FileProg α} {R : FileState → α → Prop}
    (h : ∀ s, LooksAt (fun _ => True) m s (R s)) : KeepsSound first texts m :=
  fun s hsound => (h s).wp hsound fun _ _ => hsound

theorem attempt_keepsSound : KeepsSound first texts attempt :=
  .of_looks fun _ => attempt_looks (R := fun _ => True) fun _ _ => trivial

theorem attemptStatus_keepsSound : KeepsSound first texts attemptStatus := .of_looks fun _ => attemptStatus_looks

theorem allocatePool_keepsSound : KeepsSound first texts allocatePool := .of_looks fun _ => allocatePool_looks

theorem adjacentFileExists_keepsSound : KeepsSound first texts (adjacentFileExists name) :=
  .of_looks fun _ => adjacentFileExists_looks

theorem configReadUsable_keepsSound : KeepsSound first texts (configReadUsable name) :=
  .of_looks fun _ => configReadUsable_looks

theorem deleteFile_keepsSound : KeepsSound first texts (deleteFile name) := fun _ hsound =>
  wp_deleteFile.mono (fun _ _ h => hsound.removing h.1) fun _ h => hsound.removing h

theorem deleteAdjacentIfPresent_keepsSound : KeepsSound first texts (deleteAdjacentIfPresent name) :=
  fun _ hsound => wp_deleteAdjacentIfPresent.mono (fun _ _ h => hsound.removing h.removing)
    fun _ h => hsound.removing h

theorem createVerifiedRollbackCopy_keepsSound {rollback : ConfigName}
    (hnames : rollback ∈ configNames → target ∈ configNames) :
    KeepsSound first texts (createVerifiedRollbackCopy target rollback) := fun _ hsound =>
  wp_createVerifiedRollbackCopy.mono (fun _ _ h => hsound.copying hnames h.1) fun _ h => hsound.copying hnames h

theorem restoreAdjacentRollback_keepsSound {rollback : ConfigName}
    (hnames : target ∈ configNames → rollback ∈ configNames) :
    KeepsSound first texts (restoreAdjacentRollback target rollback) := fun _ hsound =>
  wp_restoreAdjacentRollback.mono (fun _ _ h => hsound.restoring hnames h.1) fun _ h => hsound.restoring hnames h

theorem writeTemp_keepsSound (htext : text ∈ texts) : KeepsSound first texts (writeTemp tempName text) := by
  intro s hsound
  have hrewriting {s' : FileState} (h : Rewriting tempName text s s') : Sound first texts s' := by
    rcases h with rfl | hwriting
    · exact hsound
    · have hremoved : Sound first texts (s.set tempName none) := hsound.removing (.inr rfl)
      exact hremoved.writing hwriting fun _ _ _ => .inl (hremoved.formed text htext)
  exact wp_writeTemp.mono (fun _ _ h => hrewriting h.1) fun _ h => hrewriting h

theorem renameFile_keepsSound (hnames : newName ∈ configNames → name ∈ configNames) :
    KeepsSound first texts (renameFile name newName) := by
  intro s hsound
  cases hfree : s.directory newName with
  | none =>
      exact (wp_renameFile hfree).mono (fun _ _ h => hsound.moving hnames (h.1.imp (fun h => h.1) fun h => h.1))
        fun _ h => hsound.moving hnames h
  | some bytes =>
      apply contents_looks.bind_wp hsound
      rintro _ rfl
      rw [hfree, if_pos (by simp)]
      exact (attempt_keepsSound s hsound).bind fun _ _ h => Halting.Wp.pure h

theorem renameOpenAdjacent_keepsSound (hnames : newName ∈ configNames → name ∈ configNames) :
    KeepsSound first texts (renameOpenAdjacent name newName) := by
  refine .bind attemptStatus_keepsSound fun sizeStatus => .ite (fun _ => .pure _) fun _ => ?_
  refine .bind allocatePool_keepsSound fun granted => .ite (fun _ => .pure _) fun _ => ?_
  refine .bind attemptStatus_keepsSound fun infoStatus => .ite (fun _ => .pure _) fun _ => ?_
  refine .bind allocatePool_keepsSound fun granted' => .ite (fun _ => .pure _) fun _ => ?_
  refine .bind (renameFile_keepsSound hnames) fun result => .ite (fun _ => .pure _) fun _ => ?_
  exact .bind attemptStatus_keepsSound fun _ => .pure _

theorem renameTemp_keepsSound (hnames : target ∈ configNames → tempName ∈ configNames) :
    KeepsSound first texts (renameTemp target tempName) := by
  refine .bind (renameOpenAdjacent_keepsSound hnames) fun result => .ite (fun _ => ?_) fun _ => ?_
  · exact .bind deleteFile_keepsSound fun _ => .pure _
  refine .bind attemptStatus_keepsSound fun closeStatus => .ite (fun _ => .pure _) fun _ => ?_
  refine .bind adjacentFileExists_keepsSound fun result => ?_
  cases result with
  | error status => exact .pure _
  | ok present => exact .pure _

/-- A file of the configuration is made of its files only. -/
structure Siblings (target tempName : ConfigName) (rollback : Option ConfigName) : Prop where
  moved : target ∈ configNames → tempName ∈ configNames
  copied : ∀ copy, rollback = some copy → (copy ∈ configNames ↔ target ∈ configNames)

theorem makeRoom_keepsSound {existed : Bool} (hnames : Siblings target tempName rollback) :
    KeepsSound first texts (makeRoom target tempName rollback existed) := by
  cases rollback with
  | none =>
      refine .bind adjacentFileExists_keepsSound fun result => ?_
      match result with
      | .error status => exact .bind deleteFile_keepsSound fun _ => .pure _
      | .ok true => exact .bind deleteFile_keepsSound fun _ => .pure _
      | .ok false => exact .pure _
  | some copy =>
      refine .ite (fun _ => ?_) fun _ => .pure _
      refine .bind (createVerifiedRollbackCopy_keepsSound (hnames.copied copy rfl).mp) fun status => ?_
      refine .ite (fun _ => .bind deleteFile_keepsSound fun _ => .pure _) fun _ => ?_
      refine .bind deleteAdjacentIfPresent_keepsSound fun deleted => .ite (fun _ => ?_) fun _ => .pure _
      exact .bind deleteFile_keepsSound fun _ => .pure _

theorem rollbackIsFree_keepsSound : KeepsSound first texts (rollbackIsFree rollback) := by
  cases rollback with
  | none => exact .pure _
  | some copy => exact .of_looks fun _ => rollbackIsFree_looks

theorem writeAdjacentViaTemp_keepsSound (hnames : Siblings target tempName rollback) (htext : text ∈ texts) :
    KeepsSound first texts (writeAdjacentViaTemp target tempName rollback text) := by
  refine .ite (fun _ => .pure _) fun _ => .bind adjacentFileExists_keepsSound fun result => ?_
  cases result with
  | error status => exact .pure _
  | ok existed =>
      refine .ite (fun _ => .pure _) fun _ => ?_
      refine .bind rollbackIsFree_keepsSound fun free => .ite (fun _ => .pure _) fun _ => ?_
      refine .bind (writeTemp_keepsSound htext) fun written => .ite (fun _ => .pure _) fun _ => ?_
      refine .bind (makeRoom_keepsSound hnames) fun room => .ite (fun _ => .pure _) fun _ => ?_
      exact .bind (renameTemp_keepsSound hnames.moved) fun _ => .pure _

/-! ### Recovery -/

theorem readKey_keepsSound : KeepsSound first texts (readKey patience) := by
  induction patience with
  | zero => exact .halt fun _ => id
  | succ patience ih =>
      refine .bind attemptStatus_keepsSound fun waited => .ite (fun _ => .pure _) fun _ => ?_
      refine .bind attempt_keepsSound fun answer => .ite (fun _ => ih) fun _ => ?_
      exact .ite (fun _ => .pure _) fun _ => .pure _

theorem awaitRecovery_keepsSound : KeepsSound first texts (awaitRecovery patience) := by
  induction patience with
  | zero => exact .halt fun _ => id
  | succ patience ih =>
      refine .bind readKey_keepsSound fun result => ?_
      cases result with
      | error status => exact .pure _
      | ok key => exact .ite (fun _ => .pure _) fun _ => .ite (fun _ => .pure _) fun _ => ih

/-- What is returned is what `Config.ini` holds. -/
def Returns (result : Except EfiStatus Bytes) (s : FileState) : Prop :=
  ∀ bytes, result = .ok bytes → s.directory .config = some bytes ∧ usable bytes = true

theorem wp_configReadUsable_returns (h : Sound first texts s) :
    Halting.Wp (fun _ => True) (configReadUsable .config) (fun result s' => Sound first texts s' ∧ Returns result s')
      (Sound first texts) s := by
  apply configReadUsable_looks.wp h
  refine fun result hresult => ⟨h, ?_⟩
  rintro bytes rfl
  exact usableContent_eq_ok hresult.eq_ok

theorem wp_recover_returns (hname : name ∈ configNames) (h : Sound first texts s) :
    Halting.Wp (fun _ => True) (recover patience name)
      (fun result s' => Sound first texts s' ∧ Returns result s') (Sound first texts) s := by
  apply (awaitRecovery_keepsSound s h).bind
  intro refused s₁ h₁
  cases refused with
  | some status => exact Halting.Wp.pure ⟨h₁, nofun⟩
  | none =>
      apply (restoreAdjacentRollback_keepsSound (fun _ => hname) s₁ h₁).bind
      intro restored s₂ h₂
      apply Halting.Wp.ite
      · exact fun _ => Halting.Wp.pure ⟨h₂, nofun⟩
      · exact fun _ => wp_configReadUsable_returns h₂

theorem wp_recoverFrom_returns {names : List ConfigName} {status : EfiStatus}
    (hnames : ∀ name ∈ names, name ∈ configNames) (h : Sound first texts s) :
    Halting.Wp (fun _ => True) (recoverFrom patience names status)
      (fun result s' => Sound first texts s' ∧ Returns result s') (Sound first texts) s := by
  induction names generalizing status with
  | nil => exact Halting.Wp.pure ⟨h, nofun⟩
  | cons name names ih =>
      have hname : name ∈ configNames := hnames name List.mem_cons_self
      apply configReadUsable_looks.bind_wp h
      rintro (backupStatus | bytes) hread
      · exact ih fun other hother => hnames other (List.mem_cons_of_mem _ hother)
      obtain ⟨hcontent, husable⟩ := usableContent_eq_ok hread.eq_ok
      apply Halting.Wp.bind_update
      refine wp_recover_returns (s := s.note (.offered bytes)) hname (h.note ?_)
      rintro _ (heq | heq) hbefore
      · cases heq
      · obtain rfl := FileEvent.offered.inj heq
        exact hbefore.files name hname bytes hcontent husable

theorem configLoadRecoverable_keepsSound : KeepsSound first texts (configLoadRecoverable patience) := by
  intro s h
  have hfind : Halting.Wp (fun _ => True) (findConfig patience)
      (fun result s' => Sound first texts s' ∧ Returns result s') (Sound first texts) s := by
    apply (wp_configReadUsable_returns h).bind
    rintro (status | bytes) s₁ ⟨h₁, hreturns⟩
    · exact wp_recoverFrom_returns (by decide) h₁
    · exact Halting.Wp.pure ⟨h₁, hreturns⟩
  apply hfind.bind
  rintro (status | bytes) s₁ ⟨h₁, hreturns⟩
  · exact Halting.Wp.pure h₁
  · obtain ⟨hcontent, husable⟩ := hreturns bytes rfl
    refine Halting.Wp.bind_update (Halting.Wp.pure (h₁.note ?_))
    rintro _ (heq | heq) hbefore
    · obtain rfl := FileEvent.loaded.inj heq
      exact hbefore.files .config (by decide) bytes hcontent husable
    · cases heq

/-! ### The two writers -/

theorem restoreAndForget_keepsSound {copy : ConfigName} (hnames : target ∈ configNames → copy ∈ configNames) :
    KeepsSound first texts (restoreAndForget target copy) := by
  refine .bind (restoreAdjacentRollback_keepsSound hnames) fun restored => .ite (fun _ => .pure _) fun _ => ?_
  exact deleteAdjacentIfPresent_keepsSound

theorem probeConfigLoad_keepsSound : KeepsSound first texts (probeConfigLoad patience) := by
  refine .bind configLoadRecoverable_keepsSound fun result => ?_
  cases result with
  | error status => exact .pure _
  | ok bytes => exact .pure _

theorem reloadActive_keepsSound : KeepsSound first texts (reloadActive patience) := by
  refine .bind probeConfigLoad_keepsSound fun loaded => .ite (fun _ => ?_) fun _ => ?_
  · exact .bind deleteAdjacentIfPresent_keepsSound fun _ => .pure _
  · exact createVerifiedRollbackCopy_keepsSound (by decide)

theorem checkPublished_keepsSound {selection : Option Selection} :
    KeepsSound first texts (checkPublished target text selection) :=
  .of_looks fun _ => checkPublished_looks

/-- What follows a publication that has been verified. -/
theorem finishPublication_keepsSound : KeepsSound first texts
    (if rollback = none then reloadActive patience else pure .success) :=
  .ite (fun _ => reloadActive_keepsSound) fun _ => .pure _

theorem publish_keepsSound {selection : Option Selection} (hnames : Siblings target tempName rollback)
    (htext : text ∈ texts) : KeepsSound first texts (publish patience target tempName rollback text selection) := by
  refine .bind (writeAdjacentViaTemp_keepsSound hnames htext) fun (status, preserved) => ?_
  have hcopy {copy : ConfigName} (h : keptCopy rollback preserved = some copy) :
      target ∈ configNames → copy ∈ configNames := by
    cases preserved with
    | false => cases h
    | true => exact (hnames.copied copy h).mpr
  refine .ite (fun _ => ?_) fun _ => .bind checkPublished_keepsSound fun checked => .ite (fun _ => ?_) fun _ => ?_
  · cases hkept : keptCopy rollback preserved with
    | none => exact .pure _
    | some copy => exact .bind (restoreAndForget_keepsSound (hcopy hkept)) fun _ => .pure _
  · cases hkept : keptCopy rollback preserved with
    | none => exact .bind deleteAdjacentIfPresent_keepsSound fun _ => .pure _
    | some copy => exact .bind (restoreAndForget_keepsSound (hcopy hkept)) fun _ => .pure _
  · refine .bind (.update fun s h => h.note (by rintro _ (h | h) <;> cases h)) fun _ => ?_
    cases hkept : keptCopy rollback preserved with
    | none => exact finishPublication_keepsSound
    | some copy =>
        refine .bind deleteAdjacentIfPresent_keepsSound fun deleted => .ite (fun _ => .pure _) fun _ => ?_
        exact finishPublication_keepsSound

theorem wp_forming {m : FileProg EfiStatus} (h : Sound first texts s) (hm : KeepsSound first (text :: texts) m) :
    Halting.Wp (fun _ => True) (do emit (.formed text); m) (fun _ => Sound first texts) (Sound first texts) s :=
  Halting.Wp.bind_update ((hm _ h.form).mono (fun _ _ => Sound.forget) fun _ => Sound.forget)

theorem saveEditedTargets_keepsSound {selection : Selection} :
    KeepsSound first texts (saveEditedTargets selection) := by
  refine .bind configReadUsable_keepsSound fun result => ?_
  cases result with
  | error status => exact .pure _
  | ok original =>
      refine .bind allocatePool_keepsSound fun granted => .ite (fun _ => .pure _) fun _ => ?_
      match editSelection original selection with
      | .error .capacity => exact .pure _
      | .error .invalid => exact .pure _
      | .ok text =>
          refine fun s h => wp_forming h (.ite (fun _ => .pure _) fun _ => ?_)
          refine .bind deleteAdjacentIfPresent_keepsSound fun deleted => .ite (fun _ => .pure _) fun _ => ?_
          have hnames : Siblings .config .temp (some .previous) :=
            ⟨by decide, by rintro _ ⟨⟩; decide⟩
          refine .bind (writeAdjacentViaTemp_keepsSound hnames List.mem_cons_self) fun result => ?_
          refine .ite (fun _ => .pure _) fun _ => .bind configReadUsable_keepsSound fun readback => ?_
          cases readback with
          | error status => exact .pure _
          | ok bytes => exact .pure _

theorem publishCandidates_keepsSound {firstRun : Bool} {candidates : Candidates} :
    KeepsSound first texts (publishCandidates patience firstRun candidates) := by
  refine .bind allocatePool_keepsSound fun granted => .ite (fun _ => .pure _) fun _ => ?_
  match candidates.format with
  | .error failure => exact .pure _
  | .ok text =>
      refine fun s h => wp_forming h (.ite (fun _ => .pure _) fun _ => .ite (fun _ => ?_) fun _ => ?_)
      · exact publish_keepsSound ⟨by decide, nofun⟩ List.mem_cons_self
      · exact publish_keepsSound ⟨by decide, by rintro _ ⟨⟩; decide⟩ List.mem_cons_self

theorem probeConfigWriteCandidateIni_keepsSound {editing firstRun : Bool} {candidates : Candidates} :
    KeepsSound first texts (probeConfigWriteCandidateIni patience editing firstRun candidates) := by
  refine .ite (fun _ => .pure _) fun _ => .ite (fun _ => ?_) fun _ => publishCandidates_keepsSound
  match candidates.selection with
  | none => exact .pure _
  | some selection => exact saveEditedTargets_keepsSound

/-! ### Boots -/

/-- What a boot does to the configuration. -/
inductive BootStep where
  | write (editing firstRun : Bool) (candidates : Candidates)
  | recover

/-- A boot, and how it is answered. -/
structure Boot where
  step : BootStep
  patience : Nat
  answers : Nat → FileAnswer

/-- The state a boot ends or is stopped in. -/
def Boot.run (boot : Boot) (s : FileState) : FileState :=
  match boot.step with
  | .write editing firstRun candidates =>
      (Halting.run (probeConfigWriteCandidateIni boot.patience editing firstRun candidates) boot.answers s).2
  | .recover => (Halting.run (configLoadRecoverable boot.patience) boot.answers s).2

/-- The state after these boots of a directory. -/
def afterBoots (directory : Directory) (boots : List Boot) : FileState :=
  boots.foldl (fun state boot => boot.run state) { directory }

theorem KeepsSound.run {α : Type} {m : FileProg α} (hm : KeepsSound first texts m) (h : Sound first texts s)
    (answers : Nat → FileAnswer) : Sound first texts (Halting.run m answers s).2 :=
  (hm s h).run_either answers

theorem Boot.run_sound (boot : Boot) (h : Sound first texts s) : Sound first texts (boot.run s) := by
  unfold Boot.run
  cases boot.step with
  | write editing firstRun candidates => exact probeConfigWriteCandidateIni_keepsSound.run h boot.answers
  | recover => exact configLoadRecoverable_keepsSound.run h boot.answers

theorem boots_sound (boots : List Boot) (h : Sound first texts s) :
    Sound first texts (boots.foldl (fun state boot => boot.run state) s) := by
  induction boots generalizing s with
  | nil => exact h
  | cons boot boots ih => exact ih (boot.run_sound h)

theorem sound_start (directory : Directory) : Sound directory [] { directory } where
  formed := nofun
  untruncated _ :=
    { files := fun name hname bytes hbytes _ => .inr ⟨name, hname, hbytes⟩
      offers := fun bytes hbytes => by simp at hbytes }

/-- Any number of boots, each stopped anywhere. As long as no write to the configuration's files has been cut
short at something usable, recovery has loaded and offered what had been formed in full or was there at first. -/
theorem recovery_untruncated (directory : Directory) (boots : List Boot)
    (huncut : Uncut (afterBoots directory boots).trace) :
    Offers (Known directory (afterBoots directory boots).trace) (afterBoots directory boots) :=
  ((boots_sound boots (sound_start directory)).untruncated huncut).offers

/-! ### A configuration that is edited -/

def editedCandidates : Candidates where
  displays := [sampleDisplay]
  selectedDisplay := some 0
  storage := [sampleStorage]
  selectedStorage := some 0

/-- A save that is not disturbed, and the next boot. -/
def wholeBoots : List Boot :=
  [⟨.write true false editedCandidates, 1, fun _ => {}⟩, ⟨.recover, 1, fun _ => {}⟩]

theorem recovery_untruncated_whole :
    let s := afterBoots onlyConfig wholeBoots
    Offers (Known onlyConfig s.trace) s :=
  recovery_untruncated onlyConfig wholeBoots (by decide +kernel)

/-- A save is stopped when it has deleted `Config.ini`, and the restoration of the copy inside
`TargetBbsDescription`. -/
def cutBoots : List Boot :=
  [⟨.write true false editedCandidates, 1, fun index => { stop := index == 44 }⟩,
    ⟨.recover, 1, fun index =>
      { stop := index == 19, transfer := if index = 19 then some 191 else none, key := ⟨0, 0x72⟩ }⟩,
    ⟨.recover, 1, fun _ => {}⟩]

/-- The third boot loads the beginning of the user's file, without the end of the description. -/
theorem cutBoots_not_known :
    let s := afterBoots onlyConfig cutBoots
    .loaded (bootConfig.take 191) ∈ s.trace ∧ ¬ Known onlyConfig s.trace (bootConfig.take 191) := by
  refine ⟨by decide +kernel, ?_⟩
  rintro (hformed | ⟨name, hname, hfirst⟩)
  · exact absurd hformed (by decide +kernel)
  · revert name
    decide +kernel

end FileProg

end CsmVgaSelector
