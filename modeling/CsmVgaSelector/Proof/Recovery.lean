import CsmVgaSelector.Config.Recovery
import CsmVgaSelector.Proof.ConfigFile

/-!
# What recovery reads

A reading gives the file's bytes only when they are usable. Undisturbed, recovery loads or offers the first of
the files that are (`wp_configLoadRecoverable`).
-/

namespace CsmVgaSelector

namespace FileProg

variable {A : FileAnswer → Prop} {s s' s'' : FileState} {name : ConfigName} {text old : Bytes} {patience : Nat}

/-- The bytes of a file that can be read and used. -/
def usableContent (content : Option Bytes) : Except EfiStatus Bytes :=
  match readable content with
  | .error status => .error status
  | .ok bytes => if usable bytes then .ok bytes else .error .compromisedData

theorem usableContent_eq_ok {content : Option Bytes} {bytes : Bytes} (h : usableContent content = .ok bytes) :
    content = some bytes ∧ usable bytes = true := by
  unfold usableContent at h
  split at h
  case h_1 => cases h
  case h_2 readBytes hread =>
    split at h
    case isTrue husable =>
      obtain rfl := Except.ok.inj h
      exact ⟨readable_eq_ok hread, husable⟩
    case isFalse => cases h

theorem usableContent_isError {content : Option Bytes} {status : EfiStatus}
    (h : usableContent content = .error status) : status.isError = true := by
  unfold usableContent at h
  split at h
  case h_1 readStatus hread => exact Except.error.inj h ▸ readable_isError hread
  case h_2 =>
    split at h
    · cases h
    · exact Except.error.inj h ▸ rfl

theorem usableContent_of_usable (husable : usable old = true) (hsize : old.length ≤ candidateIniBytes) :
    usableContent (some old) = .ok old := by
  rw [usableContent, readable, if_neg (Nat.not_lt.mpr hsize)]
  exact if_pos husable

theorem configReadUsable_looks :
    LooksAt A (configReadUsable name) s (Gives A (usableContent (s.directory name))) := by
  apply readConfigBytesNamed_looks.bind
  rintro (status | bytes) hread
  · apply LooksAt.pure
    rcases hread with hread | hdisturbed
    · left
      rw [usableContent, ← hread]
    · exact .inr hdisturbed
  · apply LooksAt.pure
    left
    rw [usableContent, hread.eq_ok]

/-! ### Undisturbed -/

theorem Gives.eq {α : Type} {expected result : Except EfiStatus α}
    (h : Gives FileAnswer.Smooth expected result) : result = expected :=
  h.resolve_right fun h => not_disturbed h.2

/-- A loop that looks at the keyboard is cut where it is. -/
theorem wp_readKey : Halting.Wp FileAnswer.Smooth (readKey patience)
    (fun result s' => s' = s ∧ ∃ key, result = .ok key) (fun s' => s' = s) s := by
  cases patience with
  | zero => exact Halting.Wp.halt rfl
  | succ patience =>
      apply attemptStatus_looks.bind_smooth
      intro waited hwaited
      apply Halting.Wp.ite
      · exact fun herror => absurd (hwaited herror) not_disturbed
      intro _
      apply (attempt_looks fun _ hanswer => hanswer).bind_smooth
      intro answer hanswer
      rw [hanswer.status_eq, if_neg (by decide), EfiStatus.isError_success, if_neg Bool.false_ne_true]
      exact Halting.Wp.pure ⟨rfl, answer.key, rfl⟩

theorem wp_awaitRecovery : Halting.Wp FileAnswer.Smooth (awaitRecovery patience)
    (fun result s' => s' = s ∧ (result = none ∨ result = some .aborted)) (fun s' => s' = s) s := by
  induction patience with
  | zero => exact Halting.Wp.halt rfl
  | succ patience ih =>
      apply wp_readKey.bind
      rintro _ _ ⟨rfl, key, rfl⟩
      apply Halting.Wp.ite
      · exact fun _ => Halting.Wp.pure ⟨rfl, .inr rfl⟩
      intro _
      apply Halting.Wp.ite
      · exact fun _ => Halting.Wp.pure ⟨rfl, .inl rfl⟩
      · exact fun _ => ih

/-- Nothing has been noted but writes. -/
structure OnlyWrites (s s' : FileState) : Prop where
  older : ∀ event ∈ s.trace, event ∈ s'.trace
  newer : ∀ event ∈ s'.trace, event ∈ s.trace ∨ ∃ name data taken, event = .wrote name data taken

theorem OnlyWrites.refl : OnlyWrites s s := ⟨fun _ => id, fun _ => .inl⟩

theorem OnlyWrites.of_trace (h : s'.trace = s.trace) : OnlyWrites s s' :=
  ⟨fun _ hevent => h ▸ hevent, fun _ hevent => .inl (h ▸ hevent)⟩

theorem Writing.onlyWrites (h : Writing name text s s') : OnlyWrites s s' := by
  cases h with
  | nothing => exact .refl
  | empty => exact .of_trace rfl
  | part taken =>
      refine ⟨fun event hevent => List.mem_append_left _ hevent, fun event hevent => ?_⟩
      rcases List.mem_append.mp hevent with hevent | hevent
      · exact .inl hevent
      · exact .inr ⟨name, text, taken, List.mem_singleton.mp hevent⟩

theorem Restoring.onlyWrites {target rollback : ConfigName} (h : Restoring target rollback s s') :
    OnlyWrites s s' := by
  rcases h with rfl | ⟨original, -, hwriting⟩
  · exact .refl
  · exact ⟨hwriting.onlyWrites.older, hwriting.onlyWrites.newer⟩

/-- The copy is restored, or the user refuses. -/
theorem wp_recover (hcopy : s.directory name = some old) (husable : usable old = true)
    (hsize : old.length ≤ candidateIniBytes) :
    Halting.Wp FileAnswer.Smooth (recover patience name)
      (fun result s' => OnlyWrites s s' ∧ (result = .ok old ∨ result = .error .aborted)) (OnlyWrites s) s := by
  apply Halting.Wp.bind (wp_awaitRecovery.mono (fun _ _ h => h) fun _ h => h ▸ .refl)
  rintro _ _ ⟨rfl, rfl | rfl⟩
  · apply Halting.Wp.bind (wp_restoreAdjacentRollback.mono (fun _ _ h => h) fun _ h => h.onlyWrites)
    rintro restored s₁ ⟨hstate, hrestored, hfailed⟩
    have hok : restored.isError = false := by
      refine Bool.eq_false_iff.mpr fun herror => ?_
      refine (hfailed herror).elim not_disturbed fun hunreadable => hunreadable old ?_
      rw [hcopy, readable, if_neg (Nat.not_lt.mpr hsize)]
    obtain ⟨content, hcontent, hconfig⟩ := hrestored hok
    obtain rfl := Option.some.inj (hcopy.symm.trans hcontent)
    rw [hok, if_neg Bool.false_ne_true]
    apply configReadUsable_looks.wp hstate.onlyWrites
    intro result hresult
    rw [hconfig, usableContent_of_usable husable hsize] at hresult
    exact ⟨hstate.onlyWrites, .inl hresult.eq⟩
  · exact Halting.Wp.pure ⟨.refl, .inr rfl⟩

variable {P : Bytes → Prop}

/-- What has been loaded or offered satisfies `P`. -/
def Offers (P : Bytes → Prop) (s : FileState) : Prop :=
  ∀ bytes, .loaded bytes ∈ s.trace ∨ .offered bytes ∈ s.trace → P bytes

structure Recovers (P : Bytes → Prop) (s : FileState) : Prop where
  found : ∃ bytes, .loaded bytes ∈ s.trace ∨ .offered bytes ∈ s.trace
  only : Offers P s

theorem Offers.onlyWrites (h : Offers P s) (hwrites : OnlyWrites s s') : Offers P s' := by
  refine fun bytes hbytes => h bytes (hbytes.imp (fun hevent => ?_) fun hevent => ?_)
  · exact (hwrites.newer _ hevent).resolve_right (by rintro ⟨_, _, _, h⟩; cases h)
  · exact (hwrites.newer _ hevent).resolve_right (by rintro ⟨_, _, _, h⟩; cases h)

theorem Recovers.onlyWrites (h : Recovers P s) (hwrites : OnlyWrites s s') : Recovers P s' :=
  ⟨h.found.imp fun _ => Or.imp (hwrites.older _) (hwrites.older _), h.only.onlyWrites hwrites⟩

theorem Offers.note {event : FileEvent} {bytes : Bytes} (h : Offers P s)
    (hevent : event = .loaded bytes ∨ event = .offered bytes) (hbytes : P bytes) :
    Recovers P (s.note event) := by
  have hnew : event ∈ (s.note event).trace := List.mem_append_right _ List.mem_cons_self
  constructor
  · rcases hevent with rfl | rfl
    · exact ⟨bytes, .inl hnew⟩
    · exact ⟨bytes, .inr hnew⟩
  · intro other hother
    have hsplit {noted : FileEvent} (hnoted : noted ∈ (s.note event).trace) : noted ∈ s.trace ∨ noted = event :=
      (List.mem_append.mp hnoted).imp id List.mem_singleton.mp
    rcases hother with hother | hother
    · rcases hsplit hother with hother | rfl
      · exact h other (.inl hother)
      · rcases hevent with h | h
        · exact FileEvent.loaded.inj h ▸ hbytes
        · cases h
    · rcases hsplit hother with hother | rfl
      · exact h other (.inr hother)
      · rcases hevent with h | h
        · cases h
        · exact FileEvent.offered.inj h ▸ hbytes

/-- A usable configuration is loaded, otherwise the copy is offered. -/
theorem wp_configLoadRecoverable (htrace : s.trace = []) (hold : P old) (husable : usable old = true)
    (hsize : old.length ≤ candidateIniBytes)
    (hfiles : s.directory .config = some old ∨
      s.directory .previous = some old ∧ ∀ bytes, s.directory .config = some bytes → P bytes) :
    Halting.Wp FileAnswer.Smooth (configLoadRecoverable patience)
      (fun result s' => Recovers P s' ∧ ((∃ bytes, result = .ok bytes ∧ P bytes) ∨ result = .error .aborted))
      (Recovers P) s := by
  have hoffers : Offers P s := by
    intro bytes hbytes
    simp [htrace] at hbytes
  have hconfig : ∀ bytes, s.directory .config = some bytes → P bytes := by
    rcases hfiles with hconfig | ⟨-, hconfig⟩
    · intro bytes hbytes
      rwa [← Option.some.inj (hconfig.symm.trans hbytes)]
    · exact hconfig
  -- What is found is loaded next.
  have hfind : Halting.Wp FileAnswer.Smooth (findConfig patience)
      (fun result s' => Offers P s' ∧ ((∃ bytes, result = .ok bytes ∧ P bytes) ∨
        Recovers P s' ∧ result = .error .aborted)) (Recovers P) s := by
    apply configReadUsable_looks.bind_smooth
    rintro (status | bytes) hread
    · rcases hfiles with hfile | ⟨hcopy, -⟩
      · rw [hfile, usableContent_of_usable husable hsize] at hread
        cases hread.eq
      apply configReadUsable_looks.bind_smooth
      intro result hresult
      rw [hcopy, usableContent_of_usable husable hsize] at hresult
      obtain rfl := hresult.eq
      have hrecovers : Recovers P (s.note (.offered old)) := hoffers.note (.inr rfl) hold
      apply Halting.Wp.bind_update
      have hrecover := @wp_recover (s.note (.offered old)) .previous old patience hcopy husable hsize
      apply hrecover.mono
      · rintro result s' ⟨hwrites, hresult⟩
        have hrecovers' := hrecovers.onlyWrites hwrites
        refine ⟨hrecovers'.only, hresult.imp (fun h => ⟨old, h, hold⟩) fun h => ⟨hrecovers', h⟩⟩
      · exact fun _ hwrites => hrecovers.onlyWrites hwrites
    · have hcontent := (usableContent_eq_ok hread.eq_ok).1
      exact Halting.Wp.pure ⟨hoffers, .inl ⟨bytes, rfl, hconfig bytes hcontent⟩⟩
  apply hfind.bind
  rintro result s₁ ⟨hoffers₁, ⟨bytes, rfl, hbytes⟩ | ⟨hrecovers, rfl⟩⟩
  · exact Halting.Wp.bind_update (Halting.Wp.pure ⟨hoffers₁.note (.inl rfl) hbytes, .inl ⟨bytes, rfl, hbytes⟩⟩)
  · exact Halting.Wp.pure ⟨hrecovers, .inr rfl⟩

end FileProg

end CsmVgaSelector
