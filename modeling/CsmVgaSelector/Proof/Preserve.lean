import CsmVgaSelector.Config.Preserve
import CsmVgaSelector.Proof.ConfigFile

/-!
# Nothing is lost where failed configurations are preserved

A copy only adds a file, under a name that was free (`Copies`). Each original has been copied before the first
of them is deleted, so it is under its own name or under a new one (`failedConfigs_preserved`).
-/

namespace CsmVgaSelector

namespace FileProg

variable {A : FileAnswer → Prop} {s s' s'' : FileState} {name : ConfigName} {names : List ConfigName}

/-! ### Copying -/

/-- A name without a number. -/
def Plain (name : ConfigName) : Prop := ∀ original number, name ≠ .invalid original number

/-- What there is stays, and nothing is new but copies. -/
structure Copies (s s' : FileState) : Prop where
  kept : ∀ name content, s.directory name = some content → s'.directory name = some content
  plain : ∀ name, Plain name → s'.directory name = s.directory name

theorem Copies.refl : Copies s s := ⟨fun _ _ => id, fun _ _ => rfl⟩

theorem Copies.trans (h : Copies s s') (h' : Copies s' s'') : Copies s s'' :=
  ⟨fun name content hcontent => h'.kept name content (h.kept name content hcontent),
    fun name hplain => (h'.plain name hplain).trans (h.plain name hplain)⟩

theorem Copies.absent (h : Copies s s') (habsent : s'.directory name = none) : s.directory name = none := by
  cases hcontent : s.directory name with
  | none => rfl
  | some content => exact nomatch (h.kept name content hcontent).symm.trans habsent

/-- The file, if it was there, is under a name that was free. -/
def Saved (s s' : FileState) (name : ConfigName) : Prop :=
  ∀ content, s.directory name = some content → ∃ number, 1 ≤ number ∧ number ≤ 99 ∧
    s.directory (.invalid name number) = none ∧ s'.directory (.invalid name number) = some content

theorem Saved.copies (h : Saved s s' name) (hcopies : Copies s' s'') : Saved s s'' name := by
  intro content hcontent
  obtain ⟨number, hfirst, hlast, hfree, hsaved⟩ := h content hcontent
  exact ⟨number, hfirst, hlast, hfree, hcopies.kept _ _ hsaved⟩

theorem Saved.after (hcopies : Copies s s') (h : Saved s' s'' name) : Saved s s'' name := by
  intro content hcontent
  obtain ⟨number, hfirst, hlast, hfree, hsaved⟩ := h content (hcopies.kept _ _ hcontent)
  exact ⟨number, hfirst, hlast, hcopies.absent hfree, hsaved⟩

theorem copies_of_copying {number : Nat} (h : Copying name (.invalid name number) s s') : Copies s s' := by
  rcases h with rfl | ⟨original, -, hfree, hwriting⟩
  · exact .refl
  refine ⟨fun other content hcontent => ?_, fun other hplain => hwriting.other (hplain name number)⟩
  have hne : other ≠ .invalid name number := by
    rintro rfl
    exact nomatch hcontent.symm.trans hfree
  rw [hwriting.other hne, hcontent]

theorem freeNumber_looks {count number : Nat} : LooksAt A (freeNumber name count number) s fun result =>
    ∀ free, result = .ok free → number ≤ free ∧ free < number + count := by
  induction count generalizing number with
  | zero => exact LooksAt.pure nofun
  | succ count ih =>
      apply adjacentFileExists_looks.bind
      rintro (status | present) -
      · exact LooksAt.pure nofun
      cases present with
      | true =>
          apply ih.mono
          intro result hfree free hresult
          have hbounds := hfree free hresult
          omega
      | false =>
          apply LooksAt.pure
          rintro _ ⟨⟩
          omega

theorem wp_preserveCopy : Halting.Wp A (preserveCopy name)
    (fun result s' => Copies s s' ∧ ∀ present, result = .ok present → Saved s s' name) (Copies s) s := by
  apply adjacentFileExists_looks.bind_wp .refl
  rintro (status | present) hpresent
  · exact Halting.Wp.pure ⟨.refl, nofun⟩
  cases present with
  | false =>
      have habsent : s.directory name = none := by simpa using hpresent.eq_ok
      exact Halting.Wp.pure ⟨.refl, fun _ _ content hcontent => nomatch hcontent.symm.trans habsent⟩
  | true =>
      apply freeNumber_looks.bind_wp .refl
      rintro (status | number) hnumber
      · exact Halting.Wp.pure ⟨.refl, nofun⟩
      apply Halting.Wp.bind (wp_createVerifiedRollbackCopy.mono (fun _ _ h => h)
        fun _ h => copies_of_copying h)
      rintro status s' ⟨hcopying, hcopied⟩
      refine Halting.Wp.pure ⟨copies_of_copying hcopying, fun present hresult content hcontent => ?_⟩
      split at hresult
      case isTrue => cases hresult
      case isFalse hok =>
        obtain ⟨original, horiginal, hfree, hsaved⟩ := hcopied (Bool.eq_false_iff.mpr hok)
        obtain ⟨hfirst, hlast⟩ := hnumber number rfl
        obtain rfl := Option.some.inj (horiginal.symm.trans hcontent)
        exact ⟨number, hfirst, by omega, hfree, hsaved⟩

/-- All are copied before the loop ends, and only files of the list are to be deleted. -/
theorem wp_preserveCopies : Halting.Wp A (preserveCopies names)
    (fun result s' => Copies s s' ∧ ∀ present, result = .ok present →
      (∀ name ∈ present, name ∈ names) ∧ ∀ name ∈ names, Saved s s' name) (Copies s) s := by
  induction names generalizing s with
  | nil =>
      refine Halting.Wp.pure ⟨.refl, ?_⟩
      rintro _ ⟨⟩
      exact ⟨fun _ => id, nofun⟩
  | cons name names ih =>
      apply Halting.Wp.bind wp_preserveCopy
      rintro (status | present) s₁ ⟨hcopies, hsaved⟩
      · exact Halting.Wp.pure ⟨hcopies, nofun⟩
      apply Halting.Wp.bind (ih.mono (fun _ _ h => h) fun _ h => hcopies.trans h)
      rintro (status | others) s₂ ⟨hcopies', hothers⟩
      · exact Halting.Wp.pure ⟨hcopies.trans hcopies', nofun⟩
      refine Halting.Wp.pure ⟨hcopies.trans hcopies', ?_⟩
      rintro _ ⟨⟩
      obtain ⟨hlisted, hall⟩ := hothers others rfl
      refine ⟨fun other hother => ?_, List.forall_mem_cons.mpr ⟨?_, fun other hother => ?_⟩⟩
      · split at hother
        · exact (List.mem_cons.mp hother).elim (fun h => h ▸ List.mem_cons_self)
            fun h => List.mem_cons_of_mem _ (hlisted other h)
        · exact List.mem_cons_of_mem _ (hlisted other hother)
      · exact (hsaved present rfl).copies hcopies'
      · exact (hall other hother).after hcopies

/-! ### Deleting -/

/-- Some of these have been deleted. -/
def Deleting (names : List ConfigName) (s s' : FileState) : Prop :=
  ∀ name, s'.directory name = s.directory name ∨ name ∈ names ∧ s'.directory name = none

theorem deleting_of_removing (h : Removing name s s') : Deleting (name :: names) s s' := by
  intro other
  rcases h with rfl | rfl
  · exact .inl rfl
  by_cases hother : other = name
  · rw [hother]
    exact .inr ⟨List.mem_cons_self, FileState.set_self⟩
  · exact .inl (FileState.set_of_ne hother)

theorem wp_deletePreserved : Halting.Wp A (deletePreserved names) (fun _ => Deleting names s)
    (Deleting names s) s := by
  induction names generalizing s with
  | nil => exact Halting.Wp.pure fun _ => .inl rfl
  | cons name names ih =>
      apply Halting.Wp.bind (wp_deleteAdjacentIfPresent.mono (fun _ _ h => h)
        fun _ h => deleting_of_removing h)
      intro status s₁ hremoved
      have hfirst : Deleting (name :: names) s s₁ := deleting_of_removing hremoved.removing
      apply Halting.Wp.ite
      · exact fun _ => Halting.Wp.pure hfirst
      have hrest (s₂ : FileState) (h : Deleting names s₁ s₂) : Deleting (name :: names) s s₂ := by
        intro other
        rcases h other with hsame | ⟨hlisted, habsent⟩
        · rw [hsame]
          exact hfirst other
        · exact .inr ⟨List.mem_cons_of_mem _ hlisted, habsent⟩
      exact fun _ => ih.mono (fun _ => hrest) hrest

/-! ### The two together -/

theorem plain_of_mem (h : name ∈ configNames) : Plain name := by
  rintro original number rfl
  simp [configNames] at h

/-- Each original is under its own name or a new one, and no other file with a number has changed. -/
structure Preserved (s s' : FileState) : Prop where
  originals : ∀ name ∈ configNames, ∀ content, s.directory name = some content →
    s'.directory name = some content ∨ ∃ number, 1 ≤ number ∧ number ≤ 99 ∧
      s.directory (.invalid name number) = none ∧ s'.directory (.invalid name number) = some content
  archives : ∀ name number content, s.directory (.invalid name number) = some content →
    s'.directory (.invalid name number) = some content

theorem Copies.preserved (h : Copies s s') : Preserved s s' :=
  ⟨fun name _ content hcontent => .inl (h.kept name content hcontent), fun _ _ => h.kept _⟩

theorem Deleting.preserved {present : List ConfigName} (hcopies : Copies s s')
    (hsaved : ∀ name ∈ configNames, Saved s s' name) (hpresent : ∀ name ∈ present, name ∈ configNames)
    (h : Deleting present s' s'') : Preserved s s'' := by
  have harchive (name : ConfigName) (number : Nat) :
      s''.directory (.invalid name number) = s'.directory (.invalid name number) := by
    rcases h (.invalid name number) with hsame | ⟨hlisted, -⟩
    · exact hsame
    · exact absurd rfl (plain_of_mem (hpresent _ hlisted) name number)
  refine ⟨fun name hname content hcontent => .inr ?_, fun name number content hcontent => ?_⟩
  · obtain ⟨number, hfirst, hlast, hfree, hcopied⟩ := hsaved name hname content hcontent
    exact ⟨number, hfirst, hlast, hfree, (harchive name number).trans hcopied⟩
  · exact (harchive name number).trans (hcopies.kept _ _ hcontent)

theorem wp_preserveFailedConfigs : Halting.Wp A preserveFailedConfigs (fun _ => Preserved s) (Preserved s) s := by
  apply Halting.Wp.bind (wp_preserveCopies.mono (fun _ _ h => h) fun _ h => h.preserved)
  rintro (status | present) s₁ ⟨hcopies, hcopied⟩
  · exact Halting.Wp.pure hcopies.preserved
  · obtain ⟨hpresent, hsaved⟩ := hcopied present rfl
    exact wp_deletePreserved.mono (fun _ _ h => h.preserved hcopies hsaved hpresent)
      fun _ h => h.preserved hcopies hsaved hpresent

/-- Wherever it ends or stops. If it does so before all have been copied, the originals are in place. -/
theorem failedConfigs_preserved (s : FileState) (answers : Nat → FileAnswer) :
    let copied := Halting.run (preserveCopies configNames) answers s
    let preserved := Halting.run preserveFailedConfigs answers s
    Preserved s preserved.2 ∧
    ((∀ present, copied.1 ≠ some (.ok present)) →
      ∀ name ∈ configNames, preserved.2.directory name = s.directory name) := by
  constructor
  · exact wp_preserveFailedConfigs.run_either answers
  · intro hfailed name hname
    have hrun := (@wp_preserveCopies _ s configNames).runAny answers
    rw [preserveFailedConfigs, Halting.run_bind]
    match hresult : (Halting.run (preserveCopies configNames) answers s).1 with
    | none =>
        rw [hresult] at hrun
        exact hrun.plain name (plain_of_mem hname)
    | some (.error status) =>
        rw [hresult] at hrun
        exact hrun.1.plain name (plain_of_mem hname)
    | some (.ok present) => exact absurd hresult (hfailed present)

end FileProg

end CsmVgaSelector
