import CsmVgaSelector.Config.Save
import CsmVgaSelector.Proof.ConfigFile

/-!
# Replacing a file through a temporary one

A target that is there is complete under its own name until a verified copy of it is, and the copy stays
(`Publishing`). Where a file has the copy's name already, nothing is touched.
-/

namespace CsmVgaSelector

namespace FileProg

variable {A : FileAnswer → Prop} {s s' : FileState} {name newName target tempName rollback : ConfigName}
  {text original : Bytes} {selection : Option Selection}

/-! ### The temporary file -/

/-- What writing the file anew can have come to. -/
def Rewriting (name : ConfigName) (text : Bytes) (s s' : FileState) : Prop :=
  s' = s ∨ Writing name text (s.set name none) s'

theorem Rewriting.of_removing (h : Removing name s s') : Rewriting name text s s' := by
  rcases h with rfl | rfl
  · exact .inl rfl
  · exact .inr .nothing

theorem Rewriting.removing {s'' : FileState} (h : Rewriting name text s s') (hremoving : Removing name s' s'') :
    Rewriting name text s s'' := by
  rcases h with rfl | h
  · exact .of_removing hremoving
  · exact .inr (h.removing hremoving)

theorem Rewriting.other (h : Rewriting name text s s') (hne : newName ≠ name) :
    s'.directory newName = s.directory newName := by
  rcases h with rfl | h
  · rfl
  · rw [h.other hne, FileState.set_of_ne hne]

theorem wp_writeTemp :
    Halting.Wp A (writeTemp tempName text)
      (fun status s' => Rewriting tempName text s s' ∧
        (status.isError = false → s'.directory tempName = some text))
      (Rewriting tempName text s) s := by
  apply Halting.Wp.bind (wp_deleteAdjacentIfPresent.mono (fun _ _ h => h) fun _ h => .of_removing h)
  intro deleted s₁ hremoved
  apply Halting.Wp.ite
  · exact fun herror => Halting.Wp.pure ⟨.of_removing hremoved.removing, not_isError herror⟩
  intro hok
  obtain rfl := hremoved.success (Bool.eq_false_iff.mpr hok)
  have hcreating {s' : FileState}
      (h : s' = s.set tempName none ∨ s' = (s.set tempName none).set tempName (some [])) :
      Rewriting tempName text s s' := by
    rcases h with rfl | rfl
    · exact .inr .nothing
    · exact .inr (.empty _ (.inr rfl))
  apply Halting.Wp.bind ((wp_createFile FileState.set_self).mono (fun _ _ h => h) fun _ h => hcreating h)
  rintro created s₁ ⟨hstate, hcreated, -⟩
  apply Halting.Wp.ite
  · exact fun herror => Halting.Wp.pure ⟨hcreating hstate, not_isError herror⟩
  intro hok
  obtain rfl := hcreated (Bool.eq_false_iff.mpr hok)
  apply Halting.Wp.bind ((wp_writeVerified FileState.set_self).mono (fun _ _ h => h) fun _ h => .inr h.writing)
  rintro status s₂ ⟨hfilling, hwritten, -⟩
  have hrewriting : Rewriting tempName text s s₂ := .inr hfilling.writing
  apply Halting.Wp.ite
  · intro herror
    apply Halting.Wp.bind (wp_deleteFile.mono (fun _ _ h => h) fun _ h => hrewriting.removing h)
    rintro cleanup s₃ ⟨hremoving, -⟩
    exact Halting.Wp.pure ⟨hrewriting.removing hremoving, not_isError (afterCleanup_isError herror)⟩
  · exact fun hok => Halting.Wp.pure ⟨hrewriting, fun _ => hwritten (Bool.eq_false_iff.mpr hok)⟩

/-! ### The rename -/

theorem wp_renameFile (hfree : s.directory newName = none) :
    Halting.Wp A (renameFile name newName)
      (fun result s' => (s' = s ∧ result.2 = name ∨ s' = s.move name newName ∧ result.2 = newName) ∧
        (result.1.isError = false → s' = s.move name newName ∧ result.2 = newName))
      (fun s' => s' = s ∨ s' = s.move name newName) s := by
  apply contents_looks.bind_wp (.inl rfl)
  rintro _ rfl
  rw [hfree, if_neg (by simp), Halting.wp_bind]
  apply wp_perform
  · intro answer _ _
    split
    · exact .inr rfl
    · exact .inl rfl
  intro answer _ hgo
  refine ⟨?_, fun hstatus => ?_⟩
  · split
    · exact .inr ⟨rfl, rfl⟩
    · exact .inl ⟨rfl, rfl⟩
  · have hcarried : answer.carried = true := by
      cases hfault : answer.fault with
      | some fault =>
          rw [FileAnswer.status, hfault] at hstatus
          exact absurd (fault.isError.symm.trans hstatus) (by decide)
      | none => simp [FileAnswer.carried, hgo, hfault]
    rw [if_pos hcarried, if_pos hcarried]
    exact ⟨rfl, rfl⟩

theorem wp_renameOpenAdjacent (hfree : s.directory newName = none) :
    Halting.Wp A (renameOpenAdjacent name newName)
      (fun result s' => (s' = s ∧ result.2 = name ∨ s' = s.move name newName ∧ result.2 = newName) ∧
        (result.1.isError = false → s' = s.move name newName ∧ result.2 = newName))
      (fun s' => s' = s ∨ s' = s.move name newName) s := by
  apply attemptStatus_looks.bind_wp (.inl rfl)
  intro sizeStatus _
  apply Halting.Wp.ite
  · exact fun _ => Halting.Wp.pure ⟨.inl ⟨rfl, rfl⟩, nofun⟩
  intro _
  apply allocatePool_looks.bind_wp (.inl rfl)
  intro granted _
  apply Halting.Wp.ite
  · exact fun _ => Halting.Wp.pure ⟨.inl ⟨rfl, rfl⟩, nofun⟩
  intro _
  apply attemptStatus_looks.bind_wp (.inl rfl)
  intro infoStatus _
  apply Halting.Wp.ite
  · exact fun herror => Halting.Wp.pure ⟨.inl ⟨rfl, rfl⟩, not_isError herror⟩
  intro _
  apply allocatePool_looks.bind_wp (.inl rfl)
  intro granted' _
  apply Halting.Wp.ite
  · exact fun _ => Halting.Wp.pure ⟨.inl ⟨rfl, rfl⟩, nofun⟩
  intro _
  apply (wp_renameFile hfree).bind
  rintro ⟨setStatus, newest⟩ s₁ ⟨hstate, hmoved⟩
  apply Halting.Wp.ite
  · exact fun herror => Halting.Wp.pure ⟨hstate, not_isError herror⟩
  intro hok
  obtain ⟨rfl, rfl⟩ := hmoved (Bool.eq_false_iff.mpr hok)
  apply attemptStatus_looks.bind_wp (.inr rfl)
  exact fun _ _ => Halting.Wp.pure ⟨.inr ⟨rfl, rfl⟩, fun _ => ⟨rfl, rfl⟩⟩

/-- What the rename to an absent target can have come to: both files are where they were, the target is the
temporary file, or one or both are gone. -/
structure Renaming (target tempName : ConfigName) (s s' : FileState) : Prop where
  moved : s'.directory target = none ∨ s'.directory target = s.directory tempName
  others : ∀ name, name ≠ target → name ≠ tempName → s'.directory name = s.directory name
  trace : s'.trace = s.trace

theorem renaming_of_move (hne : target ≠ tempName) (hfree : s.directory target = none)
    (h : s' = s ∨ s' = s.move tempName target) : Renaming target tempName s s' := by
  rcases h with rfl | rfl
  · exact ⟨.inl hfree, fun _ _ _ => rfl, rfl⟩
  · refine ⟨.inr ?_, fun name htarget htemp => ?_, rfl⟩
    · rw [FileState.move, FileState.set_of_ne hne, FileState.set_self]
    · rw [FileState.move, FileState.set_of_ne htemp, FileState.set_of_ne htarget]

theorem Renaming.removing {s'' : FileState} (h : Renaming target tempName s s')
    (hname : name = target ∨ name = tempName) (hremoving : Removing name s' s'') :
    Renaming target tempName s s'' := by
  rcases hremoving with rfl | rfl
  · exact h
  refine ⟨?_, fun other htarget htemp => ?_, h.trace⟩
  · by_cases hsame : target = name
    · rw [hsame]
      exact .inl FileState.set_self
    · rw [FileState.set_of_ne hsame]
      exact h.moved
  · rw [FileState.set_of_ne (by rcases hname with rfl | rfl <;> assumption)]
    exact h.others other htarget htemp

theorem wp_renameTemp (hne : target ≠ tempName) (hfree : s.directory target = none) :
    Halting.Wp A (renameTemp target tempName)
      (fun status s' => Renaming target tempName s s' ∧
        (status.isError = false → s'.directory target = s.directory tempName))
      (Renaming target tempName s) s := by
  apply Halting.Wp.bind ((wp_renameOpenAdjacent hfree).mono (fun _ _ h => h)
    fun _ h => renaming_of_move hne hfree h)
  rintro ⟨status, name⟩ s₁ ⟨hstate, hmoved⟩
  have hname : name = target ∨ name = tempName := hstate.elim (fun h => .inr h.2) fun h => .inl h.2
  have hrenaming := renaming_of_move hne hfree (hstate.imp (fun h => h.1) fun h => h.1)
  apply Halting.Wp.ite
  · intro herror
    apply Halting.Wp.bind (wp_deleteFile.mono (fun _ _ h => h) fun _ h => hrenaming.removing hname h)
    rintro cleanup s₂ ⟨hremoving, -⟩
    exact Halting.Wp.pure ⟨hrenaming.removing hname hremoving, not_isError (afterCleanup_isError herror)⟩
  intro hok
  obtain ⟨rfl, rfl⟩ := hmoved (Bool.eq_false_iff.mpr hok)
  have htarget : (s.move tempName name).directory name = s.directory tempName := by
    rw [FileState.move, FileState.set_of_ne hne, FileState.set_self]
  apply attemptStatus_looks.bind_wp hrenaming
  intro closeStatus _
  apply Halting.Wp.ite
  · exact fun herror => Halting.Wp.pure ⟨hrenaming, not_isError herror⟩
  intro _
  apply adjacentFileExists_looks.bind_wp hrenaming
  rintro (status | present) hpresent
  · exact Halting.Wp.pure ⟨hrenaming, not_isError (hpresent.isError nofun)⟩
  · exact Halting.Wp.pure ⟨hrenaming, fun _ => htarget⟩

/-! ### Publication -/

/-- A target that has not been replaced is under its own name or in the copy, one that has been is in the
copy. -/
inductive Publishing (original text : Bytes) (target rollback : ConfigName) (s : FileState) : Prop
  | kept (htarget : s.directory target = some original)
  | moved (htarget : s.directory target = none) (hcopy : s.directory rollback = some original)
  | replaced (htarget : s.directory target = some text) (hcopy : s.directory rollback = some original)

/-- What `WriteAdjacentViaTemp` says of a target that was there. -/
structure Replacing (original text : Bytes) (target rollback : ConfigName) (result : EfiStatus × Bool)
    (s : FileState) : Prop where
  stage : Publishing original text target rollback s
  unpreserved : result.2 = false → s.directory target = some original
  preserved : result.2 = true → s.directory rollback = some original
  success : result.1.isError = false → result.2 = true ∧ s.directory target = some text

theorem Replacing.of_kept {result : EfiStatus × Bool} (htarget : s.directory target = some original)
    (herror : result.1.isError = true) (hpreserved : result.2 = false) :
    Replacing original text target rollback result s where
  stage := .kept htarget
  unpreserved _ := htarget
  preserved h := absurd (hpreserved.symm.trans h) (by decide)
  success := not_isError herror

theorem rollbackIsFree_looks : LooksAt A (rollbackIsFree (some rollback)) s fun status =>
    status.isError = false → s.directory rollback = none := by
  apply adjacentFileExists_looks.bind
  rintro (status | present) hpresent
  · exact LooksAt.pure (not_isError (hpresent.isError nofun))
  apply LooksAt.pure
  cases present with
  | true => exact nofun
  | false => exact fun _ => by simpa using hpresent.eq_ok

theorem wp_makeRoom (htemp : target ≠ tempName) (hrollback : target ≠ rollback) (hcopy : tempName ≠ rollback)
    (htarget : s.directory target = some original) :
    Halting.Wp A (makeRoom target tempName (some rollback) true)
      (fun result s' => Publishing original text target rollback s' ∧
        (result.2 = false → s'.directory target = some original) ∧
        (result.2 = true → s'.directory rollback = some original) ∧
        (result.1.isError = false → result.2 = true ∧ s'.directory target = none ∧
          s'.directory tempName = s.directory tempName))
      (Publishing original text target rollback) s := by
  have hcopying {s' : FileState} (h : Copying target rollback s s') :
      s'.directory target = some original ∧ s'.directory tempName = s.directory tempName := by
    rcases h with rfl | ⟨_, -, -, hwriting⟩
    · exact ⟨htarget, rfl⟩
    · exact ⟨(hwriting.other hrollback).trans htarget, hwriting.other hcopy⟩
  apply Halting.Wp.bind (wp_createVerifiedRollbackCopy.mono (fun _ _ h => h) fun _ h => .kept (hcopying h).1)
  rintro status s₁ ⟨hstate, hcopied⟩
  obtain ⟨htarget₁, htemp₁⟩ := hcopying hstate
  apply Halting.Wp.ite
  · intro herror
    have hkept {s' : FileState} (h : Removing tempName s₁ s') : s'.directory target = some original := by
      rcases h with rfl | rfl
      · exact htarget₁
      · rw [FileState.set_of_ne htemp, htarget₁]
    apply Halting.Wp.bind (wp_deleteFile.mono (fun _ _ h => h) fun _ h => .kept (hkept h))
    rintro cleanup s₂ ⟨hremoving, -⟩
    exact Halting.Wp.pure ⟨.kept (hkept hremoving), fun _ => hkept hremoving, nofun,
      not_isError (afterCleanup_isError herror)⟩
  intro hok
  have hsaved : s₁.directory rollback = some original := by
    obtain ⟨copied, hcopied, -, hsaved⟩ := hcopied (Bool.eq_false_iff.mpr hok)
    rw [hsaved, ← hcopied, htarget]
  have hremoving {s' : FileState} (h : Removing target s₁ s') :
      Publishing original text target rollback s' ∧ s'.directory rollback = some original := by
    rcases h with rfl | rfl
    · exact ⟨.kept htarget₁, hsaved⟩
    · have hsaved' : (s₁.set target none).directory rollback = some original := by
        rw [FileState.set_of_ne hrollback.symm, hsaved]
      exact ⟨.moved FileState.set_self hsaved', hsaved'⟩
  apply Halting.Wp.bind (wp_deleteAdjacentIfPresent.mono (fun _ _ h => h) fun _ h => (hremoving h).1)
  intro deleted s₂ hremoved
  obtain ⟨hstage₂, hsaved₂⟩ := hremoving hremoved.removing
  apply Halting.Wp.ite
  · intro herror
    -- The temporary file may go too, and the copy stays.
    have hcleanup {s' : FileState} (h : Removing tempName s₂ s') :
        Publishing original text target rollback s' ∧ s'.directory rollback = some original := by
      rcases h with rfl | rfl
      · exact ⟨hstage₂, hsaved₂⟩
      · have hsaved₃ : (s₂.set tempName none).directory rollback = some original := by
          rw [FileState.set_of_ne hcopy.symm, hsaved₂]
        refine ⟨?_, hsaved₃⟩
        cases hstage₂ with
        | kept h => exact .kept (by rw [FileState.set_of_ne htemp, h])
        | moved h _ => exact .moved (by rw [FileState.set_of_ne htemp, h]) hsaved₃
        | replaced h _ => exact .replaced (by rw [FileState.set_of_ne htemp, h]) hsaved₃
    apply Halting.Wp.bind (wp_deleteFile.mono (fun _ _ h => h) fun _ h => (hcleanup h).1)
    rintro cleanup s₃ ⟨hremoving, -⟩
    exact Halting.Wp.pure ⟨(hcleanup hremoving).1, nofun, fun _ => (hcleanup hremoving).2, not_isError herror⟩
  · intro hok
    obtain rfl := hremoved.success (Bool.eq_false_iff.mpr hok)
    refine Halting.Wp.pure ⟨hstage₂, nofun, fun _ => hsaved₂, fun _ => ⟨rfl, FileState.set_self, ?_⟩⟩
    rw [FileState.set_of_ne htemp.symm, htemp₁]

/-- A target that is there, and no file of the copy's name. -/
theorem wp_writeAdjacentViaTemp_replaces (htemp : target ≠ tempName) (hrollback : target ≠ rollback)
    (hcopy : tempName ≠ rollback) (htarget : s.directory target = some original) :
    Halting.Wp A (writeAdjacentViaTemp target tempName (some rollback) text)
      (Replacing original text target rollback) (Publishing original text target rollback) s := by
  apply Halting.Wp.ite
  · exact fun _ => Halting.Wp.pure (.of_kept htarget rfl rfl)
  intro _
  apply adjacentFileExists_looks.bind_wp (.kept htarget)
  rintro (status | existed) hexisted
  · exact Halting.Wp.pure (.of_kept htarget (hexisted.isError nofun) rfl)
  obtain rfl : existed = true := by simpa [htarget] using hexisted.eq_ok.symm
  apply Halting.Wp.ite
  · exact fun h => nomatch h.1
  intro _
  apply rollbackIsFree_looks.bind_wp (.kept htarget)
  intro free hfree
  apply Halting.Wp.ite
  · exact fun herror => Halting.Wp.pure (.of_kept htarget herror rfl)
  intro _
  have hrewriting {s' : FileState} (h : Rewriting tempName text s s') : s'.directory target = some original :=
    (h.other htemp).trans htarget
  apply Halting.Wp.bind (wp_writeTemp.mono (fun _ _ h => h) fun _ h => .kept (hrewriting h))
  rintro written s₁ ⟨hstate, hwritten⟩
  have htarget₁ := hrewriting hstate
  apply Halting.Wp.ite
  · exact fun herror => Halting.Wp.pure (.of_kept htarget₁ herror rfl)
  intro hok
  have htemp₁ : s₁.directory tempName = some text := hwritten (Bool.eq_false_iff.mpr hok)
  apply Halting.Wp.bind (@wp_makeRoom A s₁ target tempName rollback text original htemp hrollback hcopy htarget₁)
  rintro ⟨status, preserved⟩ s₂ ⟨hstage, hunpreserved, hpreserved, hroom⟩
  apply Halting.Wp.ite
  · exact fun herror => Halting.Wp.pure ⟨hstage, hunpreserved, hpreserved, not_isError herror⟩
  intro hok
  obtain ⟨rfl, hgone, hmoved⟩ := hroom (Bool.eq_false_iff.mpr hok)
  have hsaved : s₂.directory rollback = some original := hpreserved rfl
  have hrenaming {s' : FileState} (h : Renaming target tempName s₂ s') :
      Publishing original text target rollback s' ∧ s'.directory rollback = some original := by
    have hsaved' : s'.directory rollback = some original :=
      (h.others rollback hrollback.symm hcopy.symm).trans hsaved
    rcases h.moved with habsent | hnew
    · exact ⟨.moved habsent hsaved', hsaved'⟩
    · exact ⟨.replaced (by rw [hnew, hmoved, htemp₁]) hsaved', hsaved'⟩
  apply Halting.Wp.bind ((wp_renameTemp htemp hgone).mono (fun _ _ h => h) fun _ h => (hrenaming h).1)
  rintro renamed s₃ ⟨hstate₃, hnew⟩
  obtain ⟨hstage₃, hsaved₃⟩ := hrenaming hstate₃
  exact Halting.Wp.pure ⟨hstage₃, nofun, fun _ => hsaved₃, fun h => ⟨rfl, by rw [hnew h, hmoved, htemp₁]⟩⟩

/-- A file of the copy's name is not touched. -/
theorem writeAdjacentViaTemp_refuses (hcopy : s.directory rollback ≠ none) :
    LooksAt A (writeAdjacentViaTemp target tempName (some rollback) text) s fun result =>
      result.1.isError = true ∧ result.2 = false := by
  apply LooksAt.ite
  · exact fun _ => LooksAt.pure ⟨rfl, rfl⟩
  intro _
  apply adjacentFileExists_looks.bind
  rintro (status | existed) hexisted
  · exact LooksAt.pure ⟨hexisted.isError nofun, rfl⟩
  apply LooksAt.ite
  · exact fun _ => LooksAt.pure ⟨rfl, rfl⟩
  intro _
  apply rollbackIsFree_looks.bind
  intro free hfree
  apply LooksAt.ite
  · exact fun herror => LooksAt.pure ⟨herror, rfl⟩
  · exact fun hok => absurd (hfree (Bool.eq_false_iff.mpr hok)) hcopy

theorem checkPublished_looks : LooksAt A (checkPublished target text selection) s fun status =>
    status.isError = false → s.directory target = some text := by
  apply readConfigBytesNamed_looks.bind
  rintro (status | readback) hread
  · exact LooksAt.pure (not_isError (hread.isError readable_isError))
  apply LooksAt.pure
  split
  case isTrue heq => exact fun _ => heq ▸ readable_eq_ok hread.eq_ok
  case isFalse => exact nofun

end FileProg

end CsmVgaSelector
