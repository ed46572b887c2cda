import CsmVgaSelector.Config.ConfigFile

/-!
# What the operations on files can come to

A part of the program that only looks leaves the directory as it is wherever it ends or stops (`LooksAt`). One
that writes a file leaves nothing of it, an empty file, or the beginning of the text (`Writing`); and where it
reports success, the whole text.
-/

namespace CsmVgaSelector

variable {A : FileAnswer → Prop} {s s' : FileState} {name newName target rollback : ConfigName} {text : Bytes}

namespace FileState

def set (state : FileState) (name : ConfigName) (content : Option Bytes) : FileState :=
  { state with directory := Function.update state.directory name content }

def note (state : FileState) (event : FileEvent) : FileState :=
  { state with trace := state.trace ++ [event] }

/-- So much of the text is in the file. -/
def wrote (state : FileState) (name : ConfigName) (text : Bytes) (taken : Nat) : FileState :=
  (state.note (.wrote name text taken)).set name (some (text.take taken))

def move (state : FileState) (name newName : ConfigName) : FileState :=
  (state.set newName (state.directory name)).set name none

variable {content content' : Option Bytes} {event : FileEvent}

@[simp] theorem trace_set : (s.set name content).trace = s.trace := rfl

@[simp] theorem directory_note : (s.note event).directory = s.directory := rfl

@[simp] theorem set_self : (s.set name content).directory name = content :=
  Function.update_self ..

theorem set_of_ne (h : newName ≠ name) : (s.set name content).directory newName = s.directory newName :=
  Function.update_of_ne h ..

@[simp] theorem set_set : (s.set name content).set name content' = s.set name content' := by
  rw [set, set, set, Function.update_idem]

theorem set_note : (s.set name content).note event = (s.note event).set name content := rfl

theorem set_eq_self (h : s.directory name = content) : s.set name content = s := by
  rw [← h, set, Function.update_eq_self]

end FileState

/-- No call fails, stops or ends early. -/
structure FileAnswer.Smooth (answer : FileAnswer) : Prop where
  stop : answer.stop = false
  fault : answer.fault = none
  warns : answer.warns = false
  transfer : answer.transfer = none

def Disturbed (A : FileAnswer → Prop) : Prop := ∃ answer, A answer ∧ ¬ answer.Smooth

theorem disturbed_or_smooth {answer : FileAnswer} (h : A answer) : answer.Smooth ∨ Disturbed A := by
  by_cases hsmooth : answer.Smooth
  · exact .inl hsmooth
  · exact .inr ⟨answer, h, hsmooth⟩

theorem disturbed_of_stop {answer : FileAnswer} (h : A answer) (hstop : answer.stop = true) : Disturbed A :=
  ⟨answer, h, fun hsmooth => Bool.false_ne_true (hsmooth.stop.symm.trans hstop)⟩

theorem not_disturbed : ¬ Disturbed FileAnswer.Smooth := fun ⟨_, hsmooth, hnot⟩ => hnot hsmooth

theorem FileAnswer.Smooth.status_eq {answer : FileAnswer} (h : answer.Smooth) : answer.status = .success := by
  rw [FileAnswer.status, h.fault]

theorem FileAnswer.Smooth.moved_eq {answer : FileAnswer} (h : answer.Smooth) (size : Nat) :
    answer.moved size = size := by
  rw [FileAnswer.moved, h.transfer]
  exact Nat.min_self size

/-! ### Looking -/

/-- The part ends where it started or is stopped there, and what it gives satisfies `R`. -/
def LooksAt {α : Type} (A : FileAnswer → Prop) (m : FileProg α) (s : FileState) (R : α → Prop) : Prop :=
  Halting.Wp A m (fun value s' => s' = s ∧ R value) (fun s' => s' = s ∧ Disturbed A) s

namespace LooksAt

variable {α β : Type} {m : FileProg α} {k : α → FileProg β} {R : α → Prop} {R' : β → Prop}
  {Q : α → FileState → Prop} {Q' : β → FileState → Prop} {H : FileState → Prop}

theorem pure {value : α} (h : R value) : LooksAt A (pure value : FileProg α) s R := ⟨rfl, h⟩

theorem bind (hm : LooksAt A m s R) (hk : ∀ value, R value → LooksAt A (k value) s R') :
    LooksAt A (m >>= k) s R' := by
  apply Halting.Wp.bind hm
  rintro value s' ⟨rfl, hvalue⟩
  exact hk value hvalue

theorem ite {c : Prop} [Decidable c] {m' : FileProg α} (hm : c → LooksAt A m s R)
    (hm' : ¬ c → LooksAt A m' s R) : LooksAt A (if c then m else m') s R :=
  Halting.Wp.ite hm hm'

theorem mono {P : α → Prop} (hm : LooksAt A m s P) (h : ∀ value, P value → R value) : LooksAt A m s R :=
  Halting.Wp.mono hm (fun value _ hvalue => ⟨hvalue.1, h value hvalue.2⟩) fun _ h => h

theorem wp (hm : LooksAt A m s R) (hstop : H s) (h : ∀ value, R value → Q value s) :
    Halting.Wp A m Q H s := by
  apply Halting.Wp.mono hm
  · rintro value s' ⟨rfl, hvalue⟩
    exact h value hvalue
  · rintro s' ⟨rfl, -⟩
    exact hstop

/-- Looking before going on. -/
theorem bind_wp (hm : LooksAt A m s R) (hstop : H s)
    (hk : ∀ value, R value → Halting.Wp A (k value) Q' H s) : Halting.Wp A (m >>= k) Q' H s :=
  Halting.wp_bind.mpr (hm.wp hstop hk)

/-- Undisturbed, it is not stopped. -/
theorem bind_smooth (hm : LooksAt FileAnswer.Smooth m s R)
    (hk : ∀ value, R value → Halting.Wp FileAnswer.Smooth (k value) Q' H s) :
    Halting.Wp FileAnswer.Smooth (m >>= k) Q' H s := by
  apply Halting.wp_bind.mpr (Halting.Wp.mono hm _ _)
  · rintro value s' ⟨rfl, hvalue⟩
    exact hk value hvalue
  · exact fun _ h => absurd h.2 not_disturbed

end LooksAt

namespace FileProg

theorem wp_perform {carried : FileAnswer → Bool} {effect : FileAnswer → FileState → FileState}
    {Q : FileAnswer → FileState → Prop} {H : FileState → Prop}
    (hstop : ∀ answer, A answer → answer.stop = true →
      H (if carried answer then effect answer s else s))
    (hgo : ∀ answer, A answer → answer.stop = false →
      Q answer (if carried answer then effect answer s else s)) :
    Halting.Wp A (perform carried effect) Q H s := by
  apply Halting.Wp.bind_call
  intro answer hanswer
  apply Halting.Wp.bind_update
  apply Halting.Wp.ite
  · exact fun h => Halting.Wp.halt (hstop answer hanswer h)
  · exact fun h => Halting.Wp.pure (hgo answer hanswer (Bool.eq_false_iff.mpr h))

theorem attempt_looks {R : FileAnswer → Prop} (h : ∀ answer, A answer → R answer) :
    LooksAt A attempt s R :=
  wp_perform (fun _ hanswer hstop => ⟨rfl, disturbed_of_stop hanswer hstop⟩)
    fun answer hanswer _ => ⟨rfl, h answer hanswer⟩

/-- A call is answered with success, or it was disturbed. -/
theorem attemptStatus_looks :
    LooksAt A attemptStatus s fun status => status.isError = true → Disturbed A := by
  apply (attempt_looks fun answer hanswer => disturbed_or_smooth hanswer).bind
  intro answer hanswer
  apply LooksAt.pure
  intro herror
  apply hanswer.resolve_left
  intro hsmooth
  rw [hsmooth.status_eq] at herror
  cases herror

theorem allocatePool_looks : LooksAt A allocatePool s fun granted => granted = false → Disturbed A :=
  attemptStatus_looks.bind fun _ hstatus => LooksAt.pure fun hgranted => hstatus (by simpa using hgranted)

theorem contents_looks : LooksAt A (contents name) s fun present => present = s.directory name := by
  apply Halting.Wp.bind_getState
  exact Halting.Wp.pure ⟨rfl, rfl⟩

/-- What opening a file can answer. -/
inductive Opened (A : FileAnswer → Prop) : Option Bytes → EfiStatus → Prop where
  | there (bytes : Bytes) : Opened A (some bytes) .success
  | absent : Opened A none .notFound
  | failed {content : Option Bytes} {status : EfiStatus} (herror : status.isError = true)
      (hpresent : status ≠ .notFound) (hdisturbed : Disturbed A) : Opened A content status

theorem disturbed_of_fault {answer : FileAnswer} {fault : FileFault} (h : A answer)
    (hfault : answer.fault = some fault) : Disturbed A := by
  refine ⟨answer, h, fun hsmooth => ?_⟩
  rw [hsmooth.fault] at hfault
  cases hfault

theorem openFile_looks : LooksAt A (openFile name) s (Opened A (s.directory name)) := by
  apply (attempt_looks fun _ hanswer => hanswer).bind
  intro answer hanswer
  apply contents_looks.bind
  rintro _ rfl
  apply LooksAt.pure
  cases hfault : answer.fault with
  | some fault =>
      have hstatus : answer.status = fault.status := by
        rw [FileAnswer.status, hfault]
      rw [hstatus, fault.isError, if_pos rfl]
      exact .failed fault.isError fault.present (disturbed_of_fault hanswer hfault)
  | none =>
      have hstatus : answer.status = .success := by
        rw [FileAnswer.status, hfault]
      rw [hstatus, EfiStatus.isError_success, if_neg Bool.false_ne_true]
      cases s.directory name with
      | none => exact .absent
      | some bytes => exact .there bytes

theorem fileSize_looks : LooksAt A (fileSize name) s fun result =>
    result.2 = ((s.directory name).getD []).length ∧ (result.1.isError = true → Disturbed A) := by
  apply (attempt_looks fun _ hanswer => disturbed_or_smooth hanswer).bind
  intro answer hanswer
  apply contents_looks.bind
  rintro _ rfl
  apply LooksAt.pure
  refine ⟨rfl, fun herror => hanswer.resolve_left fun hsmooth => ?_⟩
  rw [hsmooth.status_eq] at herror
  cases herror

/-- What a read can give of the contents: a part from the beginning, the part asked for if undisturbed. -/
structure ReadPart (A : FileAnswer → Prop) (contents : Bytes) (size : Nat) (result : EfiStatus × Bytes) :
    Prop where
  isPrefix : result.2 <+: contents
  undisturbed : result.1.isError = true ∨ result.2 ≠ contents.take size → Disturbed A

theorem readFile_looks {size : Nat} :
    LooksAt A (readFile name size) s (ReadPart A ((s.directory name).getD []) size) := by
  apply (attempt_looks fun _ hanswer => disturbed_or_smooth hanswer).bind
  intro answer hanswer
  apply contents_looks.bind
  rintro _ rfl
  apply LooksAt.pure
  refine ⟨List.take_prefix .., fun hbad => hanswer.resolve_left fun hsmooth => ?_⟩
  rw [hsmooth.status_eq, hsmooth.moved_eq] at hbad
  exact hbad.elim (fun herror => nomatch herror) fun hne => hne rfl

theorem readContents_looks :
    LooksAt A (readContents name ((s.directory name).getD []).length) s
      (ReadPart A ((s.directory name).getD []) ((s.directory name).getD []).length) := by
  apply LooksAt.ite
  · intro hsize
    apply LooksAt.pure
    refine ⟨List.nil_prefix, fun hbad => ?_⟩
    rw [List.length_eq_zero_iff.mp hsize] at hbad
    exact absurd hbad (by simp)
  · exact fun _ => readFile_looks

/-- What the file holds, if it is not too large. -/
def readable : Option Bytes → Except EfiStatus Bytes
  | none => .error .notFound
  | some bytes => if bytes.length > candidateIniBytes then .error .badBufferSize else .ok bytes

/-- A result that is as expected, or the failure of a disturbed run. -/
def Gives {α : Type} (A : FileAnswer → Prop) (expected result : Except EfiStatus α) : Prop :=
  result = expected ∨ (∃ status, result = .error status ∧ status.isError = true) ∧ Disturbed A

theorem Gives.failed {α : Type} {expected : Except EfiStatus α} {status : EfiStatus}
    (herror : status.isError = true) (h : Disturbed A) : Gives A expected (.error status) :=
  .inr ⟨⟨status, rfl, herror⟩, h⟩

theorem Gives.eq_ok {α : Type} {expected : Except EfiStatus α} {value : α}
    (h : Gives A expected (.ok value)) : expected = .ok value := by
  rcases h with h | ⟨⟨status, h, -⟩, -⟩
  · exact h.symm
  · cases h

theorem readable_eq_ok {content : Option Bytes} {bytes : Bytes} (h : readable content = .ok bytes) :
    content = some bytes := by
  unfold readable at h
  split at h
  case h_1 => cases h
  case h_2 =>
    split at h
    · cases h
    · rw [Except.ok.inj h]

/-- A call in passing, after a failure. -/
theorem closing_looks {α : Type} {expected : Except EfiStatus α} {status : EfiStatus}
    (h : Gives A expected (.error status)) :
    LooksAt A (do let _ ← attempt; return .error status) s (Gives A expected) :=
  (attempt_looks (R := fun _ => True) fun _ _ => trivial).bind fun _ _ => LooksAt.pure h

theorem readConfigBytesNamed_looks :
    LooksAt A (readConfigBytesNamed name) s (Gives A (readable (s.directory name))) := by
  apply openFile_looks.bind
  intro status hopened
  generalize hcontent : s.directory name = content at hopened
  cases hopened with
  | absent => exact LooksAt.pure (.inl rfl)
  | failed herror hpresent hdisturbed =>
      rw [herror, if_pos rfl]
      exact LooksAt.pure (.failed herror hdisturbed)
  | there bytes =>
      rw [EfiStatus.isError_success, if_neg Bool.false_ne_true]
      apply attemptStatus_looks.bind
      intro sizeStatus hsizeStatus
      apply LooksAt.ite
      · exact fun herror => closing_looks (.failed rfl (hsizeStatus herror))
      intro _
      apply allocatePool_looks.bind
      intro granted hgranted
      apply LooksAt.ite
      · exact fun hrefused => closing_looks (.failed rfl (hgranted (by simpa using hrefused)))
      intro _
      apply fileSize_looks.bind
      rintro ⟨infoStatus, size⟩ ⟨rfl, hinfo⟩
      apply LooksAt.ite
      · exact fun herror => closing_looks (.failed herror (hinfo herror))
      intro _
      have hbytes : (s.directory name).getD [] = bytes := by
        rw [hcontent, Option.getD_some]
      dsimp only
      apply LooksAt.ite
      · intro hlarge
        rw [hbytes] at hlarge
        exact closing_looks (.inl (if_pos hlarge).symm)
      intro hsmall
      apply allocatePool_looks.bind
      intro granted' hgranted'
      apply LooksAt.ite
      · exact fun hrefused => closing_looks (.failed rfl (hgranted' (by simpa using hrefused)))
      intro _
      apply readContents_looks.bind
      rintro ⟨readStatus, data⟩ hread
      apply attemptStatus_looks.bind
      intro closeStatus hclose
      apply LooksAt.ite
      · exact fun herror => LooksAt.pure (.failed herror (hread.undisturbed (.inl herror)))
      intro _
      apply LooksAt.ite
      · exact fun herror => LooksAt.pure (.failed herror (hclose herror))
      intro _
      apply LooksAt.ite
      · intro hshort
        apply LooksAt.pure
        refine .failed rfl (hread.undisturbed (.inr fun hwhole => hshort ?_))
        rw [List.take_length] at hwhole
        exact congrArg List.length hwhole
      · intro hwhole
        apply LooksAt.pure
        have hdata : data = (s.directory name).getD [] :=
          hread.isPrefix.eq_of_length (not_not.mp hwhole)
        rw [hbytes] at hsmall hdata
        rw [hdata]
        exact .inl (if_neg hsmall).symm

theorem adjacentFileExists_looks :
    LooksAt A (adjacentFileExists name) s (Gives A (.ok (s.directory name).isSome)) := by
  apply openFile_looks.bind
  intro status hopened
  generalize s.directory name = content at hopened
  cases hopened with
  | absent => exact LooksAt.pure (.inl rfl)
  | failed herror hpresent hdisturbed =>
      rw [if_neg hpresent, herror, if_pos rfl]
      exact LooksAt.pure (.failed herror hdisturbed)
  | there bytes =>
      rw [if_neg (by decide), EfiStatus.isError_success, if_neg Bool.false_ne_true]
      apply attemptStatus_looks.bind
      intro closeStatus hclose
      apply LooksAt.pure
      split
      case isTrue herror => exact .failed herror (hclose herror)
      case isFalse => exact .inl rfl

/-! ### Deleting and creating -/

/-- The file is gone, or all is as it was. -/
def Removing (name : ConfigName) (s s' : FileState) : Prop := s' = s ∨ s' = s.set name none

/-- What deleting can answer: success where the file is gone, a failure only where it was disturbed. -/
structure Removed (A : FileAnswer → Prop) (name : ConfigName) (s : FileState) (status : EfiStatus)
    (s' : FileState) : Prop where
  removing : Removing name s s'
  success : status.isError = false → s' = s.set name none
  failure : status.isError = true → Disturbed A

theorem wp_deleteFile :
    Halting.Wp A (deleteFile name)
      (fun status s' => Removing name s s' ∧ (status = .success → s' = s.set name none) ∧
        (status ≠ .success → Disturbed A))
      (Removing name s) s := by
  have hremoving (answer : FileAnswer) : Removing name s
      (if answer.deleted then { s with directory := Function.update s.directory name none } else s) := by
    split
    · exact .inr rfl
    · exact .inl rfl
  rw [deleteFile, Halting.wp_bind]
  apply wp_perform
  · exact fun answer _ _ => hremoving answer
  intro answer hanswer hgo
  refine ⟨hremoving answer, fun hsuccess => if_pos ?_, fun hfailed => ?_⟩
  · cases hfault : answer.fault with
    | some fault =>
        have hstatus : answer.deletionStatus = fault.status := by
          simp [FileAnswer.deletionStatus, FileAnswer.status, hfault]
        exact absurd (hstatus.symm.trans hsuccess) (EfiStatus.ne_success_of_isError fault.isError)
    | none =>
        cases hwarns : answer.warns with
        | true => simp [FileAnswer.deletionStatus, hfault, hwarns] at hsuccess
        | false => simp [FileAnswer.deleted, hgo, hfault, hwarns]
  · apply (disturbed_or_smooth hanswer).resolve_left
    intro hsmooth
    apply hfailed
    simp [FileAnswer.deletionStatus, FileAnswer.status, hsmooth.fault, hsmooth.warns]

theorem wp_deleteAdjacentIfPresent :
    Halting.Wp A (deleteAdjacentIfPresent name) (Removed A name s) (Removing name s) s := by
  apply openFile_looks.bind_wp (.inl rfl)
  intro status hopened
  generalize hcontent : s.directory name = content at hopened
  cases hopened with
  | absent =>
      exact Halting.Wp.pure ⟨.inl rfl, fun _ => (FileState.set_eq_self hcontent).symm, fun h => nomatch h⟩
  | failed herror hpresent hdisturbed =>
      rw [if_neg hpresent, herror, if_pos rfl]
      exact Halting.Wp.pure ⟨.inl rfl, fun h => absurd (herror.symm.trans h) (by decide), fun _ => hdisturbed⟩
  | there bytes =>
      rw [if_neg (by decide), EfiStatus.isError_success, if_neg Bool.false_ne_true]
      apply wp_deleteFile.bind
      rintro deleteStatus s' ⟨hremoving, hsuccess, hfailed⟩
      apply Halting.Wp.ite
      · intro hne
        apply Halting.Wp.pure
        refine ⟨hremoving, fun hstatus => ?_, fun _ => hfailed hne⟩
        split at hstatus
        · rename_i herror
          exact absurd (herror.symm.trans hstatus) (by decide)
        · cases hstatus
      intro heq
      obtain rfl := hsuccess (not_not.mp heq)
      apply adjacentFileExists_looks.bind_wp (.inr rfl)
      intro present hpresent
      rw [FileState.set_self] at hpresent
      rcases hpresent with rfl | ⟨⟨status, rfl, -⟩, hdisturbed⟩
      · exact Halting.Wp.pure ⟨.inr rfl, fun _ => rfl, fun h => nomatch h⟩
      · exact Halting.Wp.pure ⟨.inr rfl, fun _ => rfl, fun _ => hdisturbed⟩

theorem wp_createFile (habsent : s.directory name = none) :
    Halting.Wp A (createFile name)
      (fun status s' => (s' = s ∨ s' = s.set name (some [])) ∧
        (status.isError = false → s' = s.set name (some [])) ∧ (status.isError = true → Disturbed A))
      (fun s' => s' = s ∨ s' = s.set name (some [])) s := by
  have hcreated : ({ s with
      directory := Function.update s.directory name (some ((s.directory name).getD [])) } : FileState) =
        s.set name (some []) := by
    rw [habsent]
    rfl
  rw [createFile, Halting.wp_bind]
  apply wp_perform
  · intro answer _ _
    split
    · exact .inr hcreated
    · exact .inl rfl
  intro answer hanswer hgo
  refine ⟨?_, fun hstatus => ?_, fun herror => ?_⟩
  · split
    · exact .inr hcreated
    · exact .inl rfl
  · have hcarried : answer.carried = true := by
      cases hfault : answer.fault with
      | some fault =>
          rw [FileAnswer.status, hfault] at hstatus
          exact absurd (fault.isError.symm.trans hstatus) (by decide)
      | none => simp [FileAnswer.carried, hgo, hfault]
    rw [if_pos hcarried, hcreated]
  · apply (disturbed_or_smooth hanswer).resolve_left
    intro hsmooth
    rw [hsmooth.status_eq] at herror
    cases herror

/-! ### Writing a new file -/

/-- What writing a new file can have come to by now. -/
inductive Writing (name : ConfigName) (text : Bytes) (s : FileState) : FileState → Prop where
  | nothing : Writing name text s s
  | empty (content : Option Bytes) (h : content = none ∨ content = some []) :
      Writing name text s (s.set name content)
  | part (taken : Nat) (htaken : taken ≤ text.length) (content : Option Bytes)
      (h : content = none ∨ content = some (text.take taken)) :
      Writing name text s ((s.note (.wrote name text taken)).set name content)

theorem Writing.remove (h : Writing name text s s') : Writing name text s (s'.set name none) := by
  cases h with
  | nothing => exact .empty none (.inl rfl)
  | empty content =>
      rw [FileState.set_set]
      exact .empty none (.inl rfl)
  | part taken htaken content =>
      rw [FileState.set_set]
      exact .part taken htaken none (.inl rfl)

theorem Writing.removing {s'' : FileState} (h : Writing name text s s') (hremoving : Removing name s' s'') :
    Writing name text s s'' := by
  rcases hremoving with rfl | rfl
  · exact h
  · exact h.remove

theorem Writing.other (h : Writing name text s s') (hne : newName ≠ name) :
    s'.directory newName = s.directory newName := by
  cases h with
  | nothing => rfl
  | empty => exact FileState.set_of_ne hne
  | part => exact FileState.set_of_ne hne

theorem wp_writeFile (hempty : s.directory name = some []) :
    Halting.Wp A (writeFile name text)
      (fun result s' => result.2 ≤ text.length ∧ s' = s.wrote name text result.2 ∧
        (result.1.isError = true ∨ result.2 ≠ text.length → Disturbed A))
      (fun s' => ∃ taken ≤ text.length, s' = s.wrote name text taken) s := by
  have hwrote (answer : FileAnswer) : ({
      directory := Function.update s.directory name
        (some (text.take (answer.moved text.length) ++
          ((s.directory name).getD []).drop (answer.moved text.length)))
      trace := s.trace ++ [.wrote name text (answer.moved text.length)] } : FileState) =
        s.wrote name text (answer.moved text.length) := by
    rw [hempty, Option.getD_some, List.drop_nil, List.append_nil]
    rfl
  rw [writeFile, Halting.wp_bind]
  apply wp_perform
  · intro answer _ _
    rw [if_pos rfl]
    exact ⟨_, Nat.min_le_right .., hwrote answer⟩
  · intro answer hanswer _
    rw [if_pos rfl]
    refine ⟨Nat.min_le_right .., hwrote answer, fun hbad => ?_⟩
    apply (disturbed_or_smooth hanswer).resolve_left
    intro hsmooth
    rw [hsmooth.status_eq, hsmooth.moved_eq] at hbad
    exact hbad.elim (fun herror => nomatch herror) fun hne => hne rfl

/-- What writing text to an empty file can have come to. -/
def Filling (name : ConfigName) (text : Bytes) (s s' : FileState) : Prop :=
  s' = s ∨ ∃ taken ≤ text.length, s' = s.wrote name text taken

theorem wp_writeAll (hempty : s.directory name = some []) (hne : text ≠ []) :
    Halting.Wp A (writeAll name text)
      (fun status s' => (∃ taken ≤ text.length, s' = s.wrote name text taken ∧
          (status.isError = false → taken = text.length)) ∧
        (status.isError = true → Disturbed A))
      (Filling name text s) s := by
  rw [writeAll, if_neg hne]
  have hwrite := @wp_writeFile A s name text hempty
  apply (hwrite.mono (fun _ _ h => h) fun _ h => Or.inr h).bind
  rintro ⟨status, taken⟩ s' ⟨htaken, rfl, hdisturbed⟩
  apply Halting.Wp.ite
  · exact fun herror => Halting.Wp.pure ⟨⟨taken, htaken, rfl, fun h => absurd (herror.symm.trans h) (by decide)⟩,
      fun _ => hdisturbed (.inl herror)⟩
  intro _
  apply Halting.Wp.ite
  · exact fun hshort => Halting.Wp.pure ⟨⟨taken, htaken, rfl, nofun⟩, fun _ => hdisturbed (.inr hshort)⟩
  · intro hwhole
    apply attemptStatus_looks.wp (.inr ⟨taken, htaken, rfl⟩)
    exact fun status hstatus => ⟨⟨taken, htaken, rfl, fun _ => not_not.mp hwhole⟩, hstatus⟩

theorem verifyOpenFileBytes_looks (hne : text ≠ []) :
    LooksAt A (verifyOpenFileBytes name text) s fun status =>
      (status.isError = false → text <+: (s.directory name).getD []) ∧
        (status.isError = true → Disturbed A ∨ ((s.directory name).getD []).take text.length ≠ text) := by
  rw [verifyOpenFileBytes, if_neg hne]
  apply allocatePool_looks.bind
  intro granted hgranted
  apply LooksAt.ite
  · exact fun hrefused => LooksAt.pure
      ⟨nofun, fun _ => .inl (hgranted (by simpa using hrefused))⟩
  intro _
  apply attemptStatus_looks.bind
  intro status hstatus
  apply LooksAt.ite
  · exact fun herror => LooksAt.pure
      ⟨fun h => absurd (herror.symm.trans h) (by decide), fun _ => .inl (hstatus herror)⟩
  intro _
  apply readFile_looks.bind
  rintro ⟨readStatus, data⟩ hread
  apply LooksAt.ite
  · exact fun herror => LooksAt.pure
      ⟨fun h => absurd (herror.symm.trans h) (by decide), fun _ => .inl (hread.undisturbed (.inl herror))⟩
  intro _
  apply LooksAt.pure
  split
  case isTrue heq => exact ⟨fun _ => heq ▸ hread.isPrefix, fun h => nomatch h⟩
  case isFalse hdiffers =>
    refine ⟨nofun, fun _ => ?_⟩
    by_cases hwhole : data = ((s.directory name).getD []).take text.length
    · exact .inr fun htext => hdiffers (hwhole.trans htext)
    · exact .inl (hread.undisturbed (.inr hwhole))

/-- A text in an empty file, flushed and read back. -/
theorem wp_writeVerified (hempty : s.directory name = some []) :
    Halting.Wp A (writeVerified name text)
      (fun status s' => Filling name text s s' ∧
        (status.isError = false → s'.directory name = some text) ∧
        (status.isError = true → Disturbed A))
      (Filling name text s) s := by
  rw [writeVerified]
  apply Halting.Wp.ite
  · rintro rfl
    exact attemptStatus_looks.wp (.inl rfl) fun status hstatus => ⟨.inl rfl, fun _ => hempty, hstatus⟩
  intro hne
  apply (wp_writeAll hempty hne).bind
  rintro status s' ⟨⟨taken, htaken, rfl, hwhole⟩, hdisturbed⟩
  have hfilling : Filling name text s (s.wrote name text taken) := .inr ⟨taken, htaken, rfl⟩
  apply Halting.Wp.ite
  · exact fun herror => Halting.Wp.pure
      ⟨hfilling, fun h => absurd (herror.symm.trans h) (by decide), hdisturbed⟩
  intro hstatus
  obtain rfl := hwhole (Bool.eq_false_iff.mpr hstatus)
  have hcontent : (s.wrote name text text.length).directory name = some text := by
    rw [FileState.wrote, FileState.set_self, List.take_length]
  apply (verifyOpenFileBytes_looks hne).wp hfilling
  rintro verified ⟨-, hfailed⟩
  rw [hcontent, Option.getD_some, List.take_length] at hfailed
  exact ⟨hfilling, fun _ => hcontent, fun herror => (hfailed herror).resolve_right fun hdiffers => hdiffers rfl⟩

/-! ### Verified copies -/

theorem readable_isError {content : Option Bytes} {status : EfiStatus} (h : readable content = .error status) :
    status.isError = true := by
  unfold readable at h
  split at h
  case h_1 => exact Except.error.inj h ▸ rfl
  case h_2 =>
    split at h
    · exact Except.error.inj h ▸ rfl
    · cases h

theorem readBackEquals_looks : LooksAt A (readBackEquals name text) s fun status =>
    (status.isError = false → s.directory name = some text) ∧
      (status.isError = true → Disturbed A ∨ readable (s.directory name) ≠ .ok text) := by
  apply readConfigBytesNamed_looks.bind
  rintro (status | bytes) hread
  · apply LooksAt.pure
    rcases hread with hread | ⟨⟨_, hstatus, herror⟩, hdisturbed⟩
    · refine ⟨fun hok => ?_, fun _ => .inr fun h => nomatch hread.trans h⟩
      rw [readable_isError hread.symm] at hok
      cases hok
    · obtain rfl := Except.error.inj hstatus
      exact ⟨fun hok => absurd (herror.symm.trans hok) (by decide), fun _ => .inl hdisturbed⟩
  · have hcontent := hread.eq_ok
    apply LooksAt.pure
    split
    case isTrue heq => exact ⟨fun _ => readable_eq_ok (heq ▸ hcontent), nofun⟩
    case isFalse hne => exact ⟨nofun, fun _ => .inr fun h => hne (Except.ok.inj (hcontent.symm.trans h))⟩

theorem Gives.isError {α : Type} {expected : Except EfiStatus α} {status : EfiStatus}
    (h : Gives A expected (.error status)) (hexpected : expected = .error status → status.isError = true) :
    status.isError = true := by
  rcases h with h | ⟨⟨_, hstatus, herror⟩, -⟩
  · exact hexpected h.symm
  · rwa [Except.error.inj hstatus]

theorem not_isError {status : EfiStatus} {p : Prop} (herror : status.isError = true) :
    status.isError = false → p := by
  rw [herror]
  exact nofun

theorem afterCleanup_isError {cleanup status : EfiStatus} (herror : status.isError = true) :
    (afterCleanup cleanup status).isError = true := by
  rw [afterCleanup]
  split
  case isTrue hfailed => exact hfailed
  case isFalse => exact herror

theorem Filling.writing (h : Filling name text (s.set name (some [])) s') : Writing name text s s' := by
  rcases h with rfl | ⟨taken, htaken, rfl⟩
  · exact .empty (some []) (.inr rfl)
  · rw [FileState.wrote, ← FileState.set_note, FileState.set_set]
    exact .part taken htaken _ (.inr rfl)

/-- What copying the target can have come to. -/
def Copying (target rollback : ConfigName) (s s' : FileState) : Prop :=
  s' = s ∨ ∃ original, s.directory target = some original ∧ s.directory rollback = none ∧
    Writing rollback original s s'

theorem wp_createVerifiedRollbackCopy :
    Halting.Wp A (createVerifiedRollbackCopy target rollback)
      (fun status s' => Copying target rollback s s' ∧ (status.isError = false →
        ∃ original, s.directory target = some original ∧ s.directory rollback = none ∧
          s'.directory rollback = some original))
      (Copying target rollback s) s := by
  apply adjacentFileExists_looks.bind_wp (.inl rfl)
  rintro (status | present) hpresent
  · exact Halting.Wp.pure ⟨.inl rfl, not_isError (hpresent.isError nofun)⟩
  have habsent : present = (s.directory rollback).isSome := (Except.ok.inj hpresent.eq_ok).symm
  cases present with
  | true => exact Halting.Wp.pure ⟨.inl rfl, nofun⟩
  | false =>
      replace habsent : s.directory rollback = none := by simpa using habsent.symm
      apply readConfigBytesNamed_looks.bind_wp (.inl rfl)
      rintro (status | original) hread
      · exact Halting.Wp.pure ⟨.inl rfl, not_isError (hread.isError readable_isError)⟩
      have horiginal : s.directory target = some original := readable_eq_ok hread.eq_ok
      have hcopying {s' : FileState} (h : Writing rollback original s s') : Copying target rollback s s' :=
        .inr ⟨original, horiginal, habsent, h⟩
      have hcreating {s' : FileState} (h : s' = s ∨ s' = s.set rollback (some [])) :
          Writing rollback original s s' := by
        rcases h with rfl | rfl
        · exact .nothing
        · exact .empty _ (.inr rfl)
      apply Halting.Wp.bind ((wp_createFile habsent).mono (fun _ _ h => h) fun _ h => hcopying (hcreating h))
      rintro created s₁ ⟨hstate, hcreated, -⟩
      apply Halting.Wp.ite
      · exact fun herror => Halting.Wp.pure ⟨hcopying (hcreating hstate), not_isError herror⟩
      intro hok
      obtain rfl := hcreated (Bool.eq_false_iff.mpr hok)
      apply Halting.Wp.bind ((wp_writeVerified FileState.set_self).mono (fun _ _ h => h)
        fun _ h => hcopying h.writing)
      rintro status s₂ ⟨hfilling, hwritten, -⟩
      have hwriting := hfilling.writing
      apply Halting.Wp.ite
      · intro herror
        apply Halting.Wp.bind (wp_deleteFile.mono (fun _ _ h => h) fun _ h => hcopying (hwriting.removing h))
        rintro cleanup s₃ ⟨hremoving, -⟩
        exact Halting.Wp.pure ⟨hcopying (hwriting.removing hremoving), not_isError (afterCleanup_isError herror)⟩
      intro hok
      have hcontent : s₂.directory rollback = some original := hwritten (Bool.eq_false_iff.mpr hok)
      apply attemptStatus_looks.bind_wp (hcopying hwriting)
      intro closeStatus _
      apply Halting.Wp.ite
      · exact fun herror => Halting.Wp.pure ⟨hcopying hwriting, not_isError herror⟩
      intro _
      apply readBackEquals_looks.bind_wp (hcopying hwriting)
      rintro readStatus -
      apply Halting.Wp.ite
      · intro herror
        apply Halting.Wp.bind (wp_deleteAdjacentIfPresent.mono (fun _ _ h => h)
          fun _ h => hcopying (hwriting.removing h))
        intro cleanup s₃ hremoved
        exact Halting.Wp.pure
          ⟨hcopying (hwriting.removing hremoved.removing), not_isError (afterCleanup_isError herror)⟩
      · exact fun _ => Halting.Wp.pure ⟨hcopying hwriting, fun _ => ⟨original, horiginal, habsent, hcontent⟩⟩

/-- What restoring the target can have come to. -/
def Restoring (target rollback : ConfigName) (s s' : FileState) : Prop :=
  s' = s ∨ ∃ original, s.directory rollback = some original ∧ Writing target original (s.set target none) s'

theorem wp_restoreAdjacentRollback :
    Halting.Wp A (restoreAdjacentRollback target rollback)
      (fun status s' => Restoring target rollback s s' ∧
        (status.isError = false → ∃ original, s.directory rollback = some original ∧
          s'.directory target = some original) ∧
        (status.isError = true → Disturbed A ∨ ∀ original, readable (s.directory rollback) ≠ .ok original))
      (Restoring target rollback s) s := by
  apply readConfigBytesNamed_looks.bind_wp (.inl rfl)
  rintro (status | original) hread
  · refine Halting.Wp.pure ⟨.inl rfl, not_isError (hread.isError readable_isError), fun _ => ?_⟩
    rcases hread with hread | ⟨-, hdisturbed⟩
    · exact .inr fun original h => nomatch hread.trans h
    · exact .inl hdisturbed
  have horiginal : s.directory rollback = some original := readable_eq_ok hread.eq_ok
  have hrestoring {s' : FileState} (h : Writing target original (s.set target none) s') :
      Restoring target rollback s s' := .inr ⟨original, horiginal, h⟩
  have hremoving {s' : FileState} (h : Removing target s s') : Restoring target rollback s s' := by
    rcases h with rfl | rfl
    · exact .inl rfl
    · exact hrestoring .nothing
  apply Halting.Wp.bind (wp_deleteAdjacentIfPresent.mono (fun _ _ h => h) fun _ h => hremoving h)
  intro deleted s₁ hremoved
  apply Halting.Wp.ite
  · exact fun herror => Halting.Wp.pure
      ⟨hremoving hremoved.removing, not_isError herror, fun _ => .inl (hremoved.failure herror)⟩
  intro hok
  obtain rfl := hremoved.success (Bool.eq_false_iff.mpr hok)
  have hcreating {s' : FileState} (h : s' = s.set target none ∨ s' = (s.set target none).set target (some [])) :
      Writing target original (s.set target none) s' := by
    rcases h with rfl | rfl
    · exact .nothing
    · exact .empty _ (.inr rfl)
  apply Halting.Wp.bind ((wp_createFile FileState.set_self).mono (fun _ _ h => h)
    fun _ h => hrestoring (hcreating h))
  rintro created s₁ ⟨hstate, hcreated, hdisturbed⟩
  apply Halting.Wp.ite
  · exact fun herror => Halting.Wp.pure
      ⟨hrestoring (hcreating hstate), not_isError herror, fun _ => .inl (hdisturbed herror)⟩
  intro hok
  obtain rfl := hcreated (Bool.eq_false_iff.mpr hok)
  apply Halting.Wp.bind ((wp_writeVerified FileState.set_self).mono (fun _ _ h => h)
    fun _ h => hrestoring h.writing)
  rintro status s₂ ⟨hfilling, hwritten, hdisturbed⟩
  have hwriting := hrestoring hfilling.writing
  apply Halting.Wp.ite
  · intro herror
    apply (attempt_looks (R := fun _ => True) fun _ _ => trivial).bind_wp hwriting
    exact fun _ _ => Halting.Wp.pure ⟨hwriting, not_isError herror, fun _ => .inl (hdisturbed herror)⟩
  intro hok
  have hcontent : s₂.directory target = some original := hwritten (Bool.eq_false_iff.mpr hok)
  apply attemptStatus_looks.bind_wp hwriting
  intro closeStatus hclose
  apply Halting.Wp.ite
  · exact fun herror => Halting.Wp.pure ⟨hwriting, not_isError herror, fun _ => .inl (hclose herror)⟩
  intro _
  apply readBackEquals_looks.wp hwriting
  rintro status ⟨-, hfailed⟩
  refine ⟨hwriting, fun _ => ⟨original, horiginal, hcontent⟩, fun herror => ?_⟩
  rw [hcontent, ← horiginal] at hfailed
  exact .inl ((hfailed herror).resolve_right fun hne => hne hread.eq_ok)

end FileProg

end CsmVgaSelector
