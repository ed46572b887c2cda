import CsmVgaSelector.Lib.Admits
import CsmVgaSelector.Proof.BootParts
import CsmVgaSelector.Proof.LogTrace

/-!
# Safe re-entry

The settings are edited again only behind a boot that has returned cleanly, and the marker's saved original
is not given up while the marker holds something else. Both are read off the history of a run.
-/

namespace CsmVgaSelector

open Halting SelectorProg

/-- What was done has been done without an error. -/
def Succeeded (done : EfiStatus → SelectorEvent) (events : List SelectorEvent) : Prop :=
  (∃ status, done status ∈ events) ∧ ∀ status, done status ∈ events → status.isError = false

/-- A boot that has given back its plan, its log and its volumes, short of the display's switch. -/
def ReturnedCleanly (events : List SelectorEvent) : Prop :=
  Succeeded .planReleased events ∧ Succeeded .logFlushed events ∧ Succeeded .logClosed events ∧
    Succeeded .volumesClosed events ∧ .countdownCompleted ∉ events

/-- The last boot, if there was one, has returned cleanly, and the marker has been restored behind it. -/
def LastBootReturned (history : List SelectorEvent) : Prop :=
  ∀ before events, history = before ++ .boot :: events → .boot ∉ events →
    ReturnedCleanly events ∧ Succeeded .markerRestored events

/-- A write to the marker that has not been put back. -/
def Outstanding (history : List SelectorEvent) : Prop :=
  ∃ before after, history = before ++ .markerWritten :: after ∧ .markerPutBack ∉ after

/-- Setup waits for the last boot's return. The attempted state is not forgotten, and the saved original not
overwritten, while a write is outstanding. -/
def SelectorAdmitted (before : List SelectorEvent) : SelectorEvent → Prop
  | .setup => LastBootReturned before
  | .markerConfigured => ¬ Outstanding before
  | .originalSaved => ¬ Outstanding before
  | _ => True

def SafeReentry (history : List SelectorEvent) : Prop := Admits SelectorAdmitted history

/-! ### Histories -/

/-- A history behind which the settings may be edited. -/
structure Idle (history : List SelectorEvent) : Prop where
  safe : SafeReentry history
  notOutstanding : ¬ Outstanding history
  notCancelled : .cancelled ∉ history
  returned : LastBootReturned history

theorem not_outstanding_append {history more : List SelectorEvent} (h : ¬ Outstanding history)
    (hmore : .markerWritten ∉ more) : ¬ Outstanding (history ++ more) := by
  rintro ⟨before, after, hsplit, hafter⟩
  rcases List.append_eq_append_iff.mp hsplit with ⟨middle, -, hmiddle⟩ | ⟨middle, hhistory, hrest⟩
  · exact hmore (by simp [hmiddle])
  · cases middle with
    | nil => exact hmore (by simp [← show _ = more from hrest])
    | cons head tail =>
        obtain ⟨rfl, rfl⟩ := List.cons.inj hrest
        exact h ⟨before, tail, hhistory, fun hmem => hafter (List.mem_append_left _ hmem)⟩

theorem not_outstanding_concat {history : List SelectorEvent} {event : SelectorEvent}
    (h : ¬ Outstanding history) (hevent : event ≠ .markerWritten) :
    ¬ Outstanding (history ++ [event]) :=
  not_outstanding_append h (by simpa using hevent.symm)

/-- Setup and the marker's configuration are no part of a boot's return. -/
theorem LastBootReturned.concat {history : List SelectorEvent} {event : SelectorEvent}
    (h : LastBootReturned history) (hevent : event = .setup ∨ event = .markerConfigured) :
    LastBootReturned (history ++ [event]) := by
  intro before events hsplit hboot
  rcases split_concat hsplit with ⟨-, -, rfl⟩ | ⟨front, rfl, hfront⟩
  · rcases hevent with hevent | hevent <;> contradiction
  · have hlast := h before front hfront fun hmem => hboot (List.mem_append_left _ hmem)
    rcases hevent with rfl | rfl <;> simpa [ReturnedCleanly, Succeeded] using hlast

theorem Idle.concat {history : List SelectorEvent} {event : SelectorEvent} (h : Idle history)
    (hevent : event = .setup ∨ event = .markerConfigured) : Idle (history ++ [event]) where
  safe := h.safe.concat (by rcases hevent with rfl | rfl; exacts [h.returned, h.notOutstanding])
  notOutstanding := not_outstanding_concat h.notOutstanding (by rintro rfl; simp at hevent)
  notCancelled := by
    have := h.notCancelled
    rcases hevent with rfl | rfl <;> simpa using this
  returned := h.returned.concat hevent

/-! ### Ledgers -/

/-- What of the state decides about re-entry. -/
structure Ledger where
  countdown : Countdown
  attempted : Bool
  history : List SelectorEvent

def SelectorState.ledger (state : SelectorState) : Ledger :=
  ⟨state.countdown, state.marker.attempted, state.history⟩

def Ledger.noting (ledger : Ledger) (events : List SelectorEvent) : Ledger :=
  { ledger with history := ledger.history ++ events }

/-- The log is no part of the ledger. -/
theorem preserves_onLog {α : Type} (P : Ledger → Prop) {H : SelectorState → Prop} (m : LogProg α) :
    Preserves (fun state => P state.ledger) H (onLog m) :=
  Preserves.lift fun _ hs => Prog.wp_zoom.mpr (Ask.all_of_forall fun _ => hs)

theorem logged_ledger (P : Ledger → Prop) (h : ∀ ledger, P ledger → SafeReentry ledger.history) :
    LogKeeps (fun state => P state.ledger) (fun state => SafeReentry state.ledger.history) where
  log := fun logCall => preserves_onLog P logCall.exec
  halts := fun _ hs => h _ hs
  pending := fun _ _ hs => hs

/-! ### A boot under way -/

/-- What a boot does before it gives anything back. -/
def SelectorEvent.isUnderway : SelectorEvent → Bool
  | .countdownCompleted => true
  | .cancelled => true
  | .originalSaved => true
  | .markerWritten => true
  | _ => false

/-- A boot that started behind this history. What cannot be undone by a return comes behind the countdown,
and the user cancels before that. -/
structure Underway (start : List SelectorEvent) (ledger : Ledger) : Prop where
  safe : SafeReentry ledger.history
  events : ∃ events, ledger.history = start ++ .boot :: events ∧
    (∀ event ∈ events, event.isUnderway = true) ∧
    (ledger.countdown.continueSelected = false → .countdownCompleted ∉ events)
  prepared : ledger.countdown.prepared = true
  notClean : ledger.countdown.cleanReturn = false
  unwritten : ledger.countdown.continueSelected = false →
    ledger.attempted = false ∧ ¬ Outstanding ledger.history
  cancelled : .cancelled ∈ ledger.history →
    ledger.countdown.action = .cancelAction ∧ ledger.countdown.continueSelected = false

/-- The countdown has not begun. -/
structure FreshBoot (start : List SelectorEvent) (ledger : Ledger) : Prop extends Underway start ledger where
  noAction : ledger.countdown.action = .noAction
  notSelected : ledger.countdown.continueSelected = false

/-- The countdown has been completed. -/
structure Selected (start : List SelectorEvent) (ledger : Ledger) : Prop extends
    Underway start ledger where
  selected : ledger.countdown.continueSelected = true

/-- The countdown has been completed, and the marker has not been written. -/
structure Unwritten (start : List SelectorEvent) (ledger : Ledger) : Prop extends
    Selected start ledger where
  notOutstanding : ¬ Outstanding ledger.history

variable {start : List SelectorEvent} {ledger : Ledger}

theorem FreshBoot.notCancelled (h : FreshBoot start ledger) : .cancelled ∉ ledger.history := by
  intro hmem
  have haction := (h.cancelled hmem).1
  rw [h.noAction] at haction
  contradiction

theorem Selected.notCancelled (h : Selected start ledger) : .cancelled ∉ ledger.history := by
  intro hmem
  have hselected := (h.cancelled hmem).2
  rw [h.selected] at hselected
  contradiction

/-- Setup has left the ledger as a boot wants to find it. -/
theorem Idle.fresh {history : List SelectorEvent} (h : Idle history) :
    FreshBoot history ⟨{ prepared := true }, false, history ++ [.boot]⟩ where
  safe := h.safe.concat trivial
  events := ⟨[], rfl, by simp, by simp⟩
  prepared := rfl
  notClean := rfl
  unwritten := fun _ => ⟨rfl, not_outstanding_concat h.notOutstanding (by simp)⟩
  cancelled := fun hmem => absurd hmem (by simpa using h.notCancelled)
  noAction := rfl
  notSelected := rfl

theorem FreshBoot.edit (h : FreshBoot start ledger) :
    Underway start { ledger with countdown := { ledger.countdown with action := .editAction } } :=
  { h.toUnderway with cancelled := fun hmem => absurd hmem h.notCancelled }

theorem FreshBoot.cancel (h : FreshBoot start ledger) :
    Underway start
      { ledger with
        countdown := { ledger.countdown with action := .cancelAction }
        history := ledger.history ++ [.cancelled] } where
  safe := h.safe.concat trivial
  events := by
    obtain ⟨events, hsplit, hunderway, hcompleted⟩ := h.events
    refine ⟨events ++ [.cancelled], by simp [hsplit], ?_, fun hselected => ?_⟩
    · simpa [or_imp, forall_and, SelectorEvent.isUnderway] using hunderway
    · simpa using hcompleted hselected
  prepared := h.prepared
  notClean := h.notClean
  unwritten := fun hselected =>
    ⟨(h.unwritten hselected).1, not_outstanding_concat (h.unwritten hselected).2 (by simp)⟩
  cancelled := fun _ => ⟨rfl, h.notSelected⟩

theorem FreshBoot.complete (h : FreshBoot start ledger) :
    Unwritten start
      { ledger with
        countdown := { ledger.countdown with continueSelected := true }
        history := ledger.history ++ [.countdownCompleted] } where
  safe := h.safe.concat trivial
  events := by
    obtain ⟨events, hsplit, hunderway, -⟩ := h.events
    refine ⟨events ++ [.countdownCompleted], by simp [hsplit], ?_, by simp⟩
    simpa [or_imp, forall_and, SelectorEvent.isUnderway] using hunderway
  prepared := h.prepared
  notClean := h.notClean
  unwritten := by simp
  cancelled := fun hmem => absurd hmem (by simpa using h.notCancelled)
  selected := rfl
  notOutstanding := not_outstanding_concat (h.unwritten h.notSelected).2 (by simp)

/-- The marker's steps, which come behind the countdown. -/
theorem Selected.concat {event : SelectorEvent} (attempted : Bool) (h : Selected start ledger)
    (hadmitted : SelectorAdmitted ledger.history event) (hevent : event.isUnderway = true)
    (hcancelled : event ≠ .cancelled) :
    Selected start { ledger with attempted, history := ledger.history ++ [event] } where
  safe := h.safe.concat hadmitted
  events := by
    obtain ⟨events, hsplit, hunderway, -⟩ := h.events
    refine ⟨events ++ [event], by simp [hsplit], ?_, by simp [h.selected]⟩
    simpa [or_imp, forall_and, hevent] using hunderway
  prepared := h.prepared
  notClean := h.notClean
  unwritten := by simp [h.selected]
  cancelled := fun hmem => absurd hmem (by simpa [hcancelled.symm] using h.notCancelled)
  selected := h.selected

/-! ### The main line -/

/-- The program, started with this ledger, ends with a value and a ledger that satisfy `Q`, and stops with a
history in order. -/
abbrev Conducts {α : Type} (m : SelectorProg α) (Q : α → Ledger → Prop) (state : SelectorState) : Prop :=
  Wp (fun _ => True) m (fun value s => Q value s.ledger) (fun s => SafeReentry s.ledger.history) state

/-- The countdown ends with an error, and if the user has cancelled it is that one. -/
structure Refused (start : List SelectorEvent) (status : EfiStatus) (ledger : Ledger) : Prop extends
    Underway start ledger where
  aborted : .cancelled ∈ ledger.history → status = .aborted

section

variable {state : SelectorState}

theorem logged_fresh :
    LogKeeps (fun s => FreshBoot start s.ledger) (fun s => SafeReentry s.ledger.history) :=
  logged_ledger (FreshBoot start) fun _ h => h.safe

theorem logged_selected :
    LogKeeps (fun s => Selected start s.ledger) (fun s => SafeReentry s.ledger.history) :=
  logged_ledger (Selected start) fun _ h => h.safe

theorem logged_unwritten :
    LogKeeps (fun s => Unwritten start s.ledger) (fun s => SafeReentry s.ledger.history) :=
  logged_ledger (Unwritten start) fun _ h => h.safe

theorem logged_refused {status : EfiStatus} :
    LogKeeps (fun s => Refused start status s.ledger) (fun s => SafeReentry s.ledger.history) :=
  logged_ledger (Refused start status) fun _ h => h.safe

/-- A tick ends the countdown with an error, or leaves it as it was. -/
theorem conducts_waitTick (h : FreshBoot start state.ledger) :
    Conducts waitTick
      (fun result ledger => match result with
        | some status => Refused start status ledger ∧ status.isError = true
        | none => FreshBoot start ledger) state := by
  have hrefused : ∀ status, Refused start status state.ledger := fun status =>
    ⟨h.toUnderway, fun hmem => absurd hmem h.notCancelled⟩
  refine Wp.bind_call fun keyboard _ => Wp.ite (fun _ => ?_) fun _ => Wp.ite (fun _ => ?_) fun _ => ?_
  · refine Wp.bind_update (Wp.bind (logged_refused.log _ _ ⟨h.edit, fun _ => rfl⟩) fun _ s hs => ?_)
    exact ⟨hs, rfl⟩
  · refine Wp.bind_update (Wp.bind_update (Wp.bind
      (logged_refused.log _ _ ⟨h.cancel, fun _ => rfl⟩) fun _ s hs => ?_))
    exact ⟨hs, rfl⟩
  · refine Wp.ite (fun hfailed => ?_) fun _ => ?_
    · refine (logged_refused.log _ _ (hrefused keyboard.status)).bind fun _ s hs => ⟨hs, ?_⟩
      simp only [ServiceAnswer.keyboardFailed, Bool.and_eq_true] at hfailed
      exact hfailed.2.1
    · refine Wp.bind_call fun stalled _ => Wp.ite (fun hstalled => ?_) fun _ => h
      have hline : Conducts (logLine "NCV_BOOT_FAIL_COUNTDOWN_TIMER\r\n")
          (fun _ ledger => Refused start stalled.status ledger) state :=
        logged_refused.log _ _ (hrefused stalled.status)
      exact wp_bind.mpr (hline.bind fun _ s hs => ⟨hs, hstalled⟩)

theorem conducts_tickUntil (ticks : Nat) {state : SelectorState} (h : FreshBoot start state.ledger) :
    Conducts (tickUntil waitTick ticks)
      (fun result ledger => match result with
        | some status => Refused start status ledger ∧ status.isError = true
        | none => FreshBoot start ledger) state := by
  induction ticks generalizing state with
  | zero => exact h
  | succ ticks ih =>
      refine (conducts_waitTick h).bind fun result s hs => ?_
      cases result with
      | none => exact ih hs
      | some status => exact hs

/-- The countdown is refused, or it is completed and the marker has not been written. -/
theorem conducts_bootCountdownWait (h : FreshBoot start state.ledger) :
    Conducts bootCountdownWait
      (fun status ledger => Refused start status ledger ∧
        (status.isError = false → Unwritten start ledger)) state := by
  have hrefused : ∀ {ledger}, FreshBoot start ledger → ∀ status, Refused start status ledger :=
    fun h status => ⟨h.toUnderway, fun hmem => absurd hmem h.notCancelled⟩
  refine Wp.bind_getState (Wp.ite (fun _ => ⟨hrefused h _, by simp [EfiStatus.isError]⟩) fun _ => ?_)
  refine (logged_fresh.logBehindBarrier _ _ h).bind fun status s hs => ?_
  refine Wp.ite (fun herror => ⟨hrefused hs _, by simp [herror]⟩) fun _ => ?_
  refine (preserves_onLog (FreshBoot start) _ s hs).bind fun _ s' hs' => ?_
  refine (conducts_tickUntil _ hs').bind fun result s'' hs'' => ?_
  cases result with
  | some status => exact ⟨hs''.1, by simp [hs''.2]⟩
  | none =>
      refine Wp.bind_update (Wp.bind_update ?_)
      refine (logged_unwritten.logBehindBarrier _ _ hs''.complete).mono (fun status t ht => ?_) ?_
      · exact ⟨⟨ht.toUnderway, fun hmem => absurd hmem ht.notCancelled⟩, fun _ => ht⟩
      · exact fun _ ht => ht

/-- The original is saved while nothing is outstanding. -/
theorem conducts_saveOriginal (h : Unwritten start state.ledger) :
    Conducts saveOriginal (fun _ ledger => Unwritten start ledger) state := by
  have hread : Preserves (fun s => Unwritten start s.ledger)
      (fun s => SafeReentry s.ledger.history) readExact := preserves_readExact
  refine (hread state h).bind fun result s hs => ?_
  obtain ⟨status, bytes⟩ := result
  cases bytes with
  | none => exact hs
  | some original =>
      refine Wp.bind_update (Wp.bind_update ?_)
      exact ⟨hs.concat _ hs.notOutstanding rfl (by simp),
        not_outstanding_concat hs.notOutstanding (by simp)⟩

theorem conducts_writeMarker (h : Unwritten start state.ledger) :
    Conducts writeMarker (fun _ ledger => Selected start ledger) state := by
  refine (conducts_saveOriginal h).bind fun status s hs => Wp.ite (fun _ => hs.toSelected) fun _ => ?_
  refine Wp.bind_getState (Wp.ite (fun _ => hs.toSelected) fun _ => ?_)
  refine Wp.bind_update (Wp.bind_update ?_)
  exact preserves_writeExact _ _ (hs.concat true trivial rfl (by simp))

theorem conducts_markerApply (h : Unwritten start state.ledger) :
    Conducts markerApply (fun _ ledger => Selected start ledger) state := by
  have hclose : ∀ opened status, Preserves (fun s => Selected start s.ledger)
      (fun s => SafeReentry s.ledger.history) (closeMarker opened status) := preserves_closeMarker
  have hopen : Preserves (fun s => Unwritten start s.ledger)
      (fun s => SafeReentry s.ledger.history) openMarker := preserves_openMarker
  refine Wp.bind_getState (Wp.ite (fun _ => h.toSelected) fun _ => ?_)
  refine Wp.ite (fun _ => h.toSelected) fun _ => ?_
  refine (hopen state h).bind fun result s hs => Wp.ite (fun _ => ?_) fun _ => ?_
  · exact hclose _ _ s hs.toSelected
  · exact (conducts_writeMarker hs).bind fun status s' hs' => hclose _ _ s' hs'

/-- A boot that leaves its main line: if the user has cancelled, it leaves with that. -/
def Left (start : List SelectorEvent) (exit : BootExit) (ledger : Ledger) : Prop :=
  Underway start ledger ∧ (.cancelled ∈ ledger.history → exit = .normalReturn .aborted)

theorem Underway.left {exit : BootExit} (h : Underway start ledger)
    (hnot : .cancelled ∉ ledger.history) : Left start exit ledger :=
  ⟨h, fun hmem => absurd hmem hnot⟩

/-- Nothing but the main line's own exits is left before the display is disconnected. -/
def Continued (start : List SelectorEvent) (exit : Option BootExit) (ledger : Ledger) : Prop :=
  exit.elim (Selected start ledger) fun exit => Left start exit ledger

theorem conducts_disconnectActive (h : FreshBoot start state.ledger) :
    Conducts disconnectActive (Continued start) state := by
  refine (logged_fresh.log _ _ h).bind fun _ s hs => (logged_fresh.phase _ _ hs).bind fun _ s hs => ?_
  refine (logged_fresh.log _ _ hs).bind fun barrier s hs => Wp.ite (fun _ => ?_) fun _ => ?_
  · exact hs.toUnderway.left hs.notCancelled
  refine (conducts_bootCountdownWait hs).bind fun countdown s hs => Wp.ite (fun _ => ?_) fun hok => ?_
  · exact ⟨hs.1.toUnderway, fun hmem => by rw [hs.1.aborted hmem]⟩
  refine (conducts_markerApply (hs.2 (by simpa using hok))).bind fun marker s hs => ?_
  have hleft : ∀ {exit} {s : SelectorState}, Selected start s.ledger →
      Continued start (some exit) s.ledger := fun hs => hs.toUnderway.left hs.notCancelled
  refine Wp.ite (fun _ => (logged_selected.log _ _ hs).bind fun _ _ hs => hleft hs) fun _ => ?_
  refine (logged_selected.phase _ _ hs).bind fun _ s hs => ?_
  refine (logged_selected.log _ _ hs).bind fun barrier s hs => Wp.ite (fun _ => hleft hs) fun _ => ?_
  refine (preserves_onLog (Selected start) _ s hs).bind fun _ s hs => Wp.bind_call fun answer _ => ?_
  refine Wp.ite (fun _ => (logged_selected.log _ _ hs).bind fun _ _ hs => hleft hs) fun _ => ?_
  exact hs

theorem conducts_bootMainLine (autoBoot : Bool) (h : FreshBoot start state.ledger) :
    Conducts (bootMainLine autoBoot) (Left start) state := by
  refine (logged_fresh.phase _ _ h).bind fun _ s hs => (logged_fresh.log _ _ hs).bind fun _ s hs => ?_
  refine (logged_fresh.log _ _ hs).bind fun _ s hs => (logged_fresh.log _ _ hs).bind fun _ s hs => ?_
  refine (logged_fresh.preflight autoBoot _ hs).bind fun exit s hs => ?_
  cases exit with
  | some exit => exact hs.toUnderway.left hs.notCancelled
  | none =>
      refine (conducts_disconnectActive hs).bind fun exit s hs => ?_
      cases exit with
      | some exit => exact hs
      | none =>
          have hboot : Preserves (fun s => Selected start s.ledger)
              (fun s => SafeReentry s.ledger.history) (legacyBoot : SelectorProg BootExit) :=
            logged_selected.wp_legacyBoot fun s hs =>
              (logged_selected.orHalt _ (logged_selected.log _) s hs).bind fun _ s' hs' =>
                preserves_onLog (Selected start) _ s' hs'
          refine (logged_selected.handOff _ hs).bind fun _ s hs => (hboot s hs).mono ?_ fun _ h => h
          exact fun exit s hs => hs.toUnderway.left hs.notCancelled

end

/-! ### The return -/

/-- What a boot that returns leaves behind. -/
structure Returned (start : List SelectorEvent) (status : EfiStatus) (ledger : Ledger) : Prop where
  safe : SafeReentry ledger.history
  events : ∃ events, ledger.history = start ++ .boot :: events ∧ .boot ∉ events ∧
    (∀ status, .markerRestored status ∉ events) ∧
    (ledger.countdown.cleanReturn = true → ReturnedCleanly events)
  unwritten : ledger.countdown.cleanReturn = true →
    ledger.attempted = false ∧ ¬ Outstanding ledger.history
  cancelled : .cancelled ∈ ledger.history → status.isError = true
  taken : ledger.countdown.cleanReturn = true → .cancelled ∈ ledger.history →
    ledger.countdown.action = .cancelAction ∧ status = .aborted

/-- What is given back, in order. -/
def givenBack (plan flush close volumes : EfiStatus) : List SelectorEvent :=
  [.planReleased plan, .logFlushed flush, .logClosed close, .volumesClosed volumes]

section

variable {plan flush close volumes : EfiStatus}

theorem safeReentry_givenBack {history : List SelectorEvent} (h : SafeReentry history) :
    SafeReentry (history ++ givenBack plan flush close volumes) :=
  Admits.append_free h (by simp [givenBack, SelectorAdmitted])

theorem not_outstanding_givenBack {history : List SelectorEvent} (h : ¬ Outstanding history) :
    ¬ Outstanding (history ++ givenBack plan flush close volumes) :=
  not_outstanding_append h (by simp [givenBack])

/-- Everything was given back without an error, short of the display's switch. -/
theorem returnedCleanly_givenBack {events : List SelectorEvent}
    (hevents : ∀ event ∈ events, event.isUnderway = true) (hcompleted : .countdownCompleted ∉ events)
    (hplan : plan.isError = false) (hflush : flush.isError = false) (hclose : close.isError = false)
    (hvolumes : volumes.isError = false) :
    ReturnedCleanly (events ++ givenBack plan flush close volumes) := by
  have hnot : ∀ event : SelectorEvent, event.isUnderway = false → event ∉ events := by
    intro event hevent hmem
    rw [hevents event hmem] at hevent
    contradiction
  have hplans := fun status => hnot (.planReleased status) rfl
  have hflushes := fun status => hnot (.logFlushed status) rfl
  have hcloses := fun status => hnot (.logClosed status) rfl
  have hvolumess := fun status => hnot (.volumesClosed status) rfl
  simp [ReturnedCleanly, Succeeded, givenBack, hplans, hflushes, hcloses, hvolumess, hcompleted, hplan,
    hflush, hclose, hvolumes]

theorem Underway.returned {countdown : Countdown} {result : EfiStatus} (h : Underway start ledger)
    (hclean : countdown.cleanReturn = true → ledger.countdown.continueSelected = false ∧
      plan.isError = false ∧ flush.isError = false ∧ close.isError = false ∧ volumes.isError = false)
    (hcancelled : .cancelled ∈ ledger.history → result.isError = true)
    (htaken : countdown.cleanReturn = true → .cancelled ∈ ledger.history →
      countdown.action = .cancelAction ∧ result = .aborted) :
    Returned start result
      ⟨countdown, ledger.attempted, ledger.history ++ givenBack plan flush close volumes⟩ where
  safe := safeReentry_givenBack h.safe
  events := by
    obtain ⟨events, hsplit, hunderway, hcompleted⟩ := h.events
    have hboot : .boot ∉ events := fun hmem => by simpa [SelectorEvent.isUnderway] using hunderway _ hmem
    have hrestored : ∀ status, .markerRestored status ∉ events := fun status hmem => by
      simpa [SelectorEvent.isUnderway] using hunderway _ hmem
    refine ⟨events ++ givenBack plan flush close volumes, by simp [hsplit], ?_, ?_, fun hreturn => ?_⟩
    · simpa [givenBack] using hboot
    · simpa [givenBack] using hrestored
    · obtain ⟨hselected, hplan, hflush, hclose, hvolumes⟩ := hclean hreturn
      exact returnedCleanly_givenBack hunderway (hcompleted hselected) hplan hflush hclose hvolumes
  unwritten := fun hreturn => by
    have hunwritten := h.unwritten (hclean hreturn).1
    exact ⟨hunwritten.1, not_outstanding_givenBack hunwritten.2⟩
  cancelled := fun hmem => hcancelled (by simpa [givenBack] using hmem)
  taken := fun hreturn hmem => htaken hreturn (by simpa [givenBack] using hmem)

end

section

variable {state : SelectorState}

/-- The log and the volumes are closed, and only the history tells. -/
theorem conducts_bootReportFinishDetailed (status : EfiStatus) {ledger : Ledger}
    (h : state.ledger = ledger) :
    Conducts (bootReportFinishDetailed status)
      (fun result ledger' => ∃ flush close volumes,
        result = (recordFirstError (recordFirstError (recordFirstError status flush) close) volumes,
          !flush.isError && !close.isError && !volumes.isError) ∧
        ledger' = ledger.noting [.logFlushed flush, .logClosed close, .volumesClosed volumes])
      state := by
  refine (preserves_onLog (· = ledger) _ state h).bind fun flush s hs => Wp.bind_update ?_
  have hflushed : SelectorState.ledger { s with history := s.history ++ [.logFlushed flush] } =
      ledger.noting [.logFlushed flush] := by
    rw [← hs]
    rfl
  refine (preserves_onLog (· = ledger.noting [.logFlushed flush]) _ _ hflushed).bind
    fun close s' hs' => Wp.bind_update (Wp.bind_call fun volumes _ => Wp.bind_update ?_)
  refine ⟨flush, close, volumes.status, rfl, ?_⟩
  have hclosed : SelectorState.ledger { s' with
      history := s'.history ++ [.logClosed close] ++ [.volumesClosed volumes.status] } =
      (ledger.noting [.logFlushed flush]).noting [.logClosed close, .volumesClosed volumes.status] := by
    rw [← hs']
    simp [SelectorState.ledger, Ledger.noting]
  rw [show _ = _ from hclosed]
  simp [Ledger.noting]

/-- A cancelled boot that is not reported as cancelled has failed to give something back. -/
theorem cancelled_of_failed {plan flush close volumes : EfiStatus}
    (h : ¬ (!(recordFirstError (recordFirstError (recordFirstError
        (if plan.isError then plan else .success) flush) close) volumes).isError &&
      (!plan.isError && (!flush.isError && !close.isError && !volumes.isError))) = true) :
    (recordFirstError (recordFirstError (recordFirstError
        (if plan.isError then plan else .success) flush) close) volumes).isError = true ∧
      (!plan.isError && (!flush.isError && !close.isError && !volumes.isError)) = false := by
  have hplan : (if plan.isError then plan else EfiStatus.success).isError = plan.isError := by
    split <;> simp [*]
  simp only [recordFirstError_isError, hplan] at h ⊢
  cases hp : plan.isError <;> cases hf : flush.isError <;> cases hc : close.isError <;>
    cases hv : volumes.isError <;> simp_all

/-- The boot's plan is released, and the rest of it closed. -/
theorem conducts_normalReturn {status : EfiStatus} (h : Left start (.normalReturn status) state.ledger) :
    Conducts (normalReturn status) (Returned start) state := by
  obtain ⟨hunderway, hcancel⟩ := h
  refine wp_bind.mpr (wp_bind_service fun plan => Wp.bind_update (Wp.pure ?_))
  have hreleased : SelectorState.ledger { state with history := state.history ++ [.planReleased plan] } =
      state.ledger.noting [.planReleased plan] := rfl
  refine Wp.bind_getState ?_
  refine (conducts_bootReportFinishDetailed _ hreleased).bind fun result s hs => ?_
  obtain ⟨flush, close, volumes, rfl, hledger⟩ := hs
  have hhistory : (state.ledger.noting [.planReleased plan]).noting
      [.logFlushed flush, .logClosed close, .volumesClosed volumes] =
      state.ledger.noting (givenBack plan flush close volumes) := by
    simp [Ledger.noting, givenBack]
  rw [hhistory] at hledger
  have hattempted : s.marker.attempted = state.marker.attempted := congrArg Ledger.attempted hledger
  have hcountdown : s.countdown = state.countdown := congrArg Ledger.countdown hledger
  have hhistory : s.history = state.history ++ givenBack plan flush close volumes :=
    congrArg Ledger.history hledger
  have hclean : (state.countdown.prepared && !state.countdown.continueSelected && !plan.isError &&
      (!flush.isError && !close.isError && !volumes.isError)) = true →
      state.countdown.continueSelected = false ∧ plan.isError = false ∧ flush.isError = false ∧
        close.isError = false ∧ volumes.isError = false := by
    simp +contextual
  refine Wp.bind_update (Wp.ite (fun hcondition => ?_) fun hcondition => ?_)
  · show Returned start .aborted ⟨_, s.marker.attempted, s.history⟩
    rw [hattempted, hhistory]
    refine hunderway.returned hclean (fun _ => rfl) fun _ hmem => ⟨?_, rfl⟩
    show s.countdown.action = _
    rw [hcountdown]
    exact (hunderway.cancelled hmem).1
  · -- a cancellation that nothing else has failed behind took the other branch
    have hfailed : .cancelled ∈ state.history →
        (recordFirstError (recordFirstError (recordFirstError
          (if plan.isError then plan
            else if !state.countdown.continueSelected && state.countdown.action != .noAction &&
              status == .aborted then .success else status) flush) close) volumes).isError = true ∧
        (state.countdown.prepared && !state.countdown.continueSelected && !plan.isError &&
          (!flush.isError && !close.isError && !volumes.isError)) = false := by
      intro hmem
      obtain ⟨haction, hselected⟩ := hunderway.cancelled hmem
      have haction : state.countdown.action = .cancelAction := haction
      have hselected : state.countdown.continueSelected = false := hselected
      have hprepared : state.countdown.prepared = true := hunderway.prepared
      have hstatus : status = .aborted := by simpa using hcancel hmem
      have haborted : (CountdownAction.cancelAction != .noAction) = true := rfl
      simp only [haction, hselected, hprepared, hstatus, haborted, beq_self_eq_true, Bool.not_false,
        Bool.true_and, if_true] at hcondition ⊢
      exact cancelled_of_failed hcondition
    refine Wp.bind_update ?_
    show Returned start _ ⟨_, s.marker.attempted, s.history⟩
    rw [hattempted, hhistory]
    refine hunderway.returned hclean (fun hmem => (hfailed hmem).1) fun hreturn hmem => ?_
    have hreturn := hreturn
    rw [(hfailed hmem).2] at hreturn
    contradiction

theorem conducts_bootReturn {exit : BootExit} (h : Left start exit state.ledger) :
    Conducts (bootReturn exit) (Returned start) state := by
  cases exit with
  | normalReturn status => exact conducts_normalReturn h
  | preflightFailure status =>
      have hnot : .cancelled ∉ state.ledger.history := fun hmem => by simpa using h.2 hmem
      have hlog := (logged_ledger (fun ledger => Underway start ledger ∧ .cancelled ∉ ledger.history)
        fun _ h => h.1.safe).log (.print (ofString "NCV_BOOT_FAIL_PREFLIGHT\r\n")) state ⟨h.1, hnot⟩
      exact hlog.bind fun _ s hs => conducts_normalReturn (hs.1.left hs.2)

/-- A boot that ends before its countdown leaves nothing to give back. -/
theorem FreshBoot.returned {status : EfiStatus} (h : FreshBoot start ledger) : Returned start status ledger where
  safe := h.safe
  events := by
    obtain ⟨events, hsplit, hunderway, -⟩ := h.events
    refine ⟨events, hsplit, ?_, ?_, by simp [h.notClean]⟩
    · exact fun hmem => by simpa [SelectorEvent.isUnderway] using hunderway _ hmem
    · exact fun _ hmem => by simpa [SelectorEvent.isUnderway] using hunderway _ hmem
  unwritten := by simp [h.notClean]
  cancelled := fun hmem => absurd hmem h.notCancelled
  taken := by simp [h.notClean]

/-- Setup has left the state as a boot wants to find it. -/
structure Prepared (ledger : Ledger) : Prop where
  idle : Idle ledger.history
  notAttempted : ledger.attempted = false
  countdown : ledger.countdown = { prepared := true }

theorem conducts_nativeCsmVgaBootRun (config : ProbeConfig) (h : Prepared state.ledger) :
    Conducts (nativeCsmVgaBootRun config) (Returned state.history) state := by
  have hfresh : FreshBoot state.history (state.ledger.noting [.boot]) := by
    have hboot := h.idle.fresh
    rw [← h.countdown, ← h.notAttempted] at hboot
    exact hboot
  refine Wp.bind_update (Wp.bind_update (wp_bind_service fun files => ?_))
  refine Wp.ite (fun _ => hfresh.returned) fun _ => ?_
  refine Wp.bind (preserves_onLog (FreshBoot state.history) _ _ ?_) fun initialized s hs => ?_
  · exact hfresh
  refine Wp.ite (fun _ => wp_bind_service fun _ => hs.returned) fun _ => ?_
  refine (logged_fresh.log _ _ hs).bind fun durable s hs => Wp.ite (fun _ => ?_) fun _ => ?_
  · refine (preserves_onLog (FreshBoot state.history) _ _ hs).bind fun _ s hs => ?_
    exact wp_bind_service fun _ => hs.returned
  · exact (conducts_bootMainLine _ hs).bind fun exit s hs => conducts_bootReturn hs

/-! ### Behind the boot -/

/-- A run may be left with this status. -/
def Leaves (status : EfiStatus) (ledger : Ledger) : Prop :=
  SafeReentry ledger.history ∧ (.cancelled ∈ ledger.history → status.isError = true)

/-- The settings may be edited. -/
structure SetupReady (ledger : Ledger) : Prop where
  idle : Idle ledger.history
  notAttempted : ledger.attempted = false

theorem SetupReady.leaves (h : SetupReady ledger) (status : EfiStatus) : Leaves status ledger :=
  ⟨h.idle.safe, fun hmem => absurd hmem h.idle.notCancelled⟩

/-- What holds once the marker has been restored: behind a clean return the boot is over, and only the
user's cancellation is left to be taken. -/
structure Restored (status markerStatus : EfiStatus) (ledger : Ledger) : Prop where
  leaves : Leaves status ledger
  clean : ledger.countdown.cleanReturn = true → ledger.attempted = false ∧
    ¬ Outstanding ledger.history ∧ LastBootReturned ledger.history
  taken : ledger.countdown.cleanReturn = true → .cancelled ∈ ledger.history →
    ledger.countdown.action = .cancelAction ∧ (markerStatus.isError = false → status = .aborted)

theorem eq_of_split_boot (start before : List SelectorEvent) {events events' : List SelectorEvent}
    (h : start ++ .boot :: events = before ++ .boot :: events') (hevents : .boot ∉ events)
    (hevents' : .boot ∉ events') : events = events' := by
  rcases List.append_eq_append_iff.mp h with ⟨middle, -, hmiddle⟩ | ⟨middle, -, hmiddle⟩
  · cases middle with
    | nil => exact (List.cons.inj hmiddle).2
    | cons head tail => exact absurd (by simp [(List.cons.inj hmiddle).2]) hevents
  · cases middle with
    | nil => exact (List.cons.inj hmiddle).2.symm
    | cons head tail => exact absurd (by simp [(List.cons.inj hmiddle).2]) hevents'

/-- There is nothing to put back behind a clean return. -/
theorem Returned.restored {status : EfiStatus} (h : Returned start status ledger) :
    Restored (recordFirstError status .success) .success
      (ledger.noting [.markerRestored .success]) where
  leaves := by
    refine ⟨h.safe.concat trivial, fun hmem => ?_⟩
    rw [recordFirstError_isError, h.cancelled (by simpa [Ledger.noting] using hmem)]
    rfl
  clean := fun hclean => by
    obtain ⟨hattempted, hwritten⟩ := h.unwritten hclean
    refine ⟨hattempted, not_outstanding_concat hwritten (by simp), ?_⟩
    intro before events' hsplit hboot'
    obtain ⟨events, hevents, hboot, hrestored, hreturned⟩ := h.events
    have hsame : events ++ [.markerRestored .success] = events' := by
      refine eq_of_split_boot start before ?_ (by simpa using hboot) hboot'
      rw [← hsplit, Ledger.noting, hevents]
      simp
    subst hsame
    constructor
    · simpa [ReturnedCleanly, Succeeded] using hreturned hclean
    · simp [Succeeded, hrestored]
  taken := fun hclean hmem => by
    obtain ⟨haction, hstatus⟩ := h.taken hclean (by simpa [Ledger.noting] using hmem)
    exact ⟨haction, fun _ => by rw [hstatus]; rfl⟩

/-- A boot that has not returned cleanly. -/
def Unclean (status : EfiStatus) (ledger : Ledger) : Prop :=
  Leaves status ledger ∧ ledger.countdown.cleanReturn = false

theorem Unclean.noting {status : EfiStatus} (h : Unclean status ledger) (event : SelectorEvent)
    (attempted : Bool) (hevent : ∀ before, SelectorAdmitted before event)
    (hcancelled : event ≠ .cancelled) :
    Unclean status { ledger with attempted, history := ledger.history ++ [event] } := by
  refine ⟨⟨h.1.1.concat (hevent _), fun hmem => h.1.2 ?_⟩, h.2⟩
  simpa [hcancelled.symm] using hmem

theorem conducts_putBackMarker {status : EfiStatus} (h : Unclean status state.ledger) :
    Conducts putBackMarker (fun _ ledger => Unclean status ledger) state := by
  have hopen : Preserves (fun s => Unclean status s.ledger)
      (fun s => SafeReentry s.ledger.history) openMarker := preserves_openMarker
  have hwrite : ∀ bytes, Preserves (fun s => Unclean status s.ledger)
      (fun s => SafeReentry s.ledger.history) (writeExact bytes) := preserves_writeExact
  have hclose : ∀ opened status', Preserves (fun s => Unclean status s.ledger)
      (fun s => SafeReentry s.ledger.history) (closeMarker opened status') := preserves_closeMarker
  have hrest : ∀ opened status' (s : SelectorState), Unclean status s.ledger →
      Conducts (do
        let status ← closeMarker opened status'
        if status.isError then return status
        updateMarker fun marker => { marker with attempted := false }
        note .markerPutBack
        return status) (fun _ ledger => Unclean status ledger) s := by
    intro opened status' s hs
    refine (hclose opened status' s hs).bind fun closed s' hs' => Wp.ite (fun _ => hs') fun _ => ?_
    exact Wp.bind_update (Wp.bind_update (hs'.noting .markerPutBack false (fun _ => trivial) (by simp)))
  refine (hopen state h).bind fun result s hs => Wp.ite (fun _ => ?_) fun _ => ?_
  · exact hrest _ _ s hs
  · refine Wp.bind_getState ((hwrite _ s hs).bind fun written s' hs' => hrest _ _ s' hs')

theorem conducts_markerRestore {status : EfiStatus} (h : Returned start status state.ledger) :
    Conducts markerRestore
      (fun markerStatus ledger => Restored (recordFirstError status markerStatus) markerStatus ledger)
      state := by
  refine Wp.bind_getState (Wp.ite (fun hattempted => ?_) fun _ => ?_)
  · have hunclean : Unclean status state.ledger := by
      refine ⟨⟨h.safe, h.cancelled⟩, ?_⟩
      by_contra hclean
      have hnot := (h.unwritten (by simpa using hclean)).1
      rw [show state.ledger.attempted = true from hattempted] at hnot
      contradiction
    refine (conducts_putBackMarker hunclean).bind fun markerStatus s hs => Wp.bind_update ?_
    have hnoted := hs.noting (.markerRestored markerStatus) s.marker.attempted (fun _ => trivial)
      (by simp)
    refine ⟨⟨hnoted.1.1, fun hmem => ?_⟩, fun hclean => ?_, fun hclean => ?_⟩
    · rw [recordFirstError_isError, hnoted.1.2 hmem]
      rfl
    · exact absurd hclean (Bool.eq_false_iff.mp hnoted.2)
    · exact absurd hclean (Bool.eq_false_iff.mp hnoted.2)
  · exact wp_bind.mpr (Wp.pure (Wp.bind_update h.restored))

/-- Behind a boot whose cancellation has been taken: what is clean may be edited. -/
def Concluded (status : EfiStatus) (ledger : Ledger) : Prop :=
  Leaves status ledger ∧ (ledger.countdown.cleanReturn = true → SetupReady ledger)

theorem conducts_bootCountdownTakeCancel {status markerStatus : EfiStatus}
    (h : Restored status markerStatus state.ledger) :
    Conducts (bootCountdownTakeCancel status markerStatus)
      (fun taken ledger => Leaves status ledger ∧ (taken = false → Concluded status ledger)) state := by
  refine Wp.ite (fun hmarker => Wp.bind_update ?_) fun hmarker => ?_
  · have hunclean : ∀ action, Concluded status
        { state.ledger with countdown := { state.countdown with cleanReturn := false, action } } :=
      fun _ => ⟨h.leaves, by simp⟩
    refine Wp.bind_getState (Wp.ite (fun _ => Wp.bind_update ?_) fun _ => ?_)
    · exact ⟨h.leaves, fun _ => hunclean _⟩
    · exact ⟨h.leaves, fun _ => hunclean _⟩
  · have hmarker : markerStatus.isError = false := by simpa using hmarker
    -- what is clean and cancelled is taken
    have hready : (state.countdown.cleanReturn && state.countdown.action == .cancelAction &&
        status == .aborted && !markerStatus.isError) = false →
        state.countdown.cleanReturn = true → SetupReady state.ledger := by
      intro htaken hclean
      obtain ⟨hattempted, hwritten, hreturned⟩ := h.clean hclean
      refine ⟨⟨h.leaves.1, hwritten, fun hmem => ?_, hreturned⟩, hattempted⟩
      obtain ⟨haction, hstatus⟩ := h.taken hclean hmem
      have haction : state.countdown.action = .cancelAction := haction
      simp [hclean, haction, hstatus hmarker, hmarker] at htaken
    refine Wp.bind_getState (Wp.ite (fun _ => Wp.bind_update ?_) fun _ => ?_)
    · refine ⟨h.leaves, fun htaken => ⟨h.leaves, fun hclean => ?_⟩⟩
      exact ⟨(hready htaken hclean).idle, (hready htaken hclean).notAttempted⟩
    · exact ⟨h.leaves, fun htaken => ⟨h.leaves, hready htaken⟩⟩

/-- The user can only ask for an edit, and only behind a clean return. -/
theorem preserves_bootCountdownRequestEdit {status : EfiStatus} :
    Preserves (fun s => Concluded status s.ledger) (fun s => SafeReentry s.ledger.history)
      bootCountdownRequestEdit := by
  refine Preserves.getState.bind fun _ => Preserves.ite (fun _ => Preserves.pure _) fun _ => ?_
  refine Preserves.bind (Preserves.update fun s hs => ?_) fun _ => Preserves.pure _
  exact ⟨hs.1, fun hclean => ⟨(hs.2 hclean).idle, (hs.2 hclean).notAttempted⟩⟩

theorem preserves_drainKeys {I H : SelectorState → Prop} (keys : Nat) :
    Preserves I H (drainKeys keys) := by
  induction keys with
  | zero => exact Preserves.pure ()
  | succ keys ih =>
      exact Preserves.call.bind fun _ => Preserves.ite (fun _ => Preserves.pure _) fun _ => ih

theorem preserves_holdLoop {status : EfiStatus} (patience : Nat) :
    Preserves (fun s => Concluded status s.ledger) (fun s => SafeReentry s.ledger.history)
      (holdLoop patience) := by
  have hhalt : Preserves (fun s => Concluded status s.ledger) (fun s => SafeReentry s.ledger.history)
      (halt : SelectorProg Unit) := Preserves.halt fun _ hs => hs.1.1
  induction patience with
  | zero => exact hhalt
  | succ patience ih =>
      refine Preserves.call.bind fun _ => Preserves.ite (fun _ => hhalt) fun _ => ?_
      refine Preserves.ite (fun _ => Preserves.pure _) fun _ => Preserves.ite (fun _ => ?_) fun _ => ?_
      · exact preserves_bootCountdownRequestEdit.bind fun _ =>
          Preserves.ite (fun _ => Preserves.pure _) fun _ => ih
      · exact Preserves.ite (fun _ => hhalt) fun _ => ih

theorem preserves_bootReportHold {status shown : EfiStatus} (patience : Nat) :
    Preserves (fun s => Concluded status s.ledger) (fun s => SafeReentry s.ledger.history)
      (bootReportHold patience shown) :=
  Preserves.ite (fun _ => Preserves.pure _) fun _ =>
    (preserves_drainKeys _).bind fun _ => preserves_holdLoop patience

theorem preserves_offerLoop {status : EfiStatus} (patience : Nat) (assessed : Bool) :
    Preserves (fun s => Concluded status s.ledger) (fun s => SafeReentry s.ledger.history)
      (offerLoop patience assessed) := by
  have hhalt : Preserves (fun s => Concluded status s.ledger) (fun s => SafeReentry s.ledger.history)
      (halt : SelectorProg Unit) := Preserves.halt fun _ hs => hs.1.1
  induction patience generalizing assessed with
  | zero => exact hhalt
  | succ patience ih =>
      refine Preserves.call.bind fun _ => Preserves.ite (fun _ => hhalt) fun _ => ?_
      refine Preserves.ite (fun _ => Preserves.ite (fun _ => ?_) fun _ => ?_) fun _ => ?_
      · refine preserves_bootCountdownRequestEdit.bind fun _ =>
          Preserves.ite (fun _ => Preserves.pure _) fun _ => ?_
        exact Preserves.ite (fun _ => Preserves.pure _) fun _ => ih _
      · exact Preserves.ite (fun _ => Preserves.pure _) fun _ => ih _
      · exact Preserves.ite (fun _ => hhalt) fun _ => ih _

theorem preserves_romRecoveryOffer {status : EfiStatus} (patience : Nat)
    (bootStatus cleanupStatus : EfiStatus) :
    Preserves (fun s => Concluded status s.ledger) (fun s => SafeReentry s.ledger.history)
      (romRecoveryOffer patience bootStatus cleanupStatus) := by
  have hreset : Preserves (fun s => Concluded status s.ledger)
      (fun s => SafeReentry s.ledger.history) romRecoveryReset := Preserves.update fun _ hs => hs
  refine Preserves.getState.bind fun _ => Preserves.ite (fun _ => ?_) fun _ => ?_
  · refine (preserves_drainKeys _).bind fun _ => (preserves_offerLoop _ _).bind fun _ => ?_
    exact hreset.bind fun _ => Preserves.pure _
  · exact hreset.bind fun _ => Preserves.pure _

/-- An edit is only taken behind a clean return. -/
theorem conducts_bootCountdownTakeEdit {status shown markerStatus : EfiStatus}
    (h : Concluded status state.ledger) :
    Conducts (bootCountdownTakeEdit shown markerStatus)
      (fun taken ledger => Concluded status ledger ∧ (taken = true → SetupReady ledger)) state := by
  refine Wp.bind_getState (Wp.bind_update ⟨⟨h.1, fun hclean => ?_⟩, fun htaken => ?_⟩)
  · exact ⟨(h.2 hclean).idle, (h.2 hclean).notAttempted⟩
  · simp only [Bool.and_eq_true] at htaken
    exact ⟨(h.2 htaken.1.1.1).idle, (h.2 htaken.1.1.1).notAttempted⟩

theorem conducts_askAgain {status shown markerStatus : EfiStatus} (patience : Nat)
    (h : Concluded status state.ledger) :
    Conducts (askAgain patience shown markerStatus)
      (fun again ledger => Concluded status ledger ∧ (again = true → SetupReady ledger)) state := by
  refine (conducts_bootCountdownTakeEdit h).bind fun taken s hs => Wp.ite (fun htaken => ?_) fun _ => ?_
  · exact ⟨hs.1, fun _ => hs.2 htaken⟩
  refine (preserves_romRecoveryOffer _ _ _ s hs.1).bind fun offered s hs => Wp.ite (fun _ => ?_) ?_
  · exact (preserves_bootReportHold _ s hs).bind fun _ s hs => conducts_bootCountdownTakeEdit hs
  · exact fun _ => conducts_bootCountdownTakeEdit hs

/-- A boot and what follows it leave with an error where the user has cancelled, and go on only where the
settings may be edited. -/
theorem conducts_bootRound (patience : Nat) (loaded : LoadedConfig) (h : Prepared state.ledger) :
    Conducts (bootRound patience loaded)
      (fun result ledger => Leaves result.1 ledger ∧ (result.2 = true → SetupReady ledger)) state := by
  refine (conducts_nativeCsmVgaBootRun _ h).bind fun status s hs => ?_
  refine (conducts_markerRestore hs).bind fun markerStatus s hs => ?_
  refine (conducts_bootCountdownTakeCancel hs).bind fun taken s hs => Wp.ite (fun _ => ?_) fun htaken => ?_
  · exact ⟨hs.1, by simp⟩
  refine (conducts_askAgain patience (hs.2 (by simpa using htaken))).bind fun again s hs => ?_
  refine Wp.ite (fun _ => Wp.bind_update ?_) fun _ => ?_
  · exact ⟨hs.1.1, hs.2⟩
  · exact ⟨hs.1.1, hs.2⟩

/-! ### Setup -/

/-- The property is kept by what setup does to the ledger. -/
theorem SetupReady.configured (h : SetupReady ledger) (event : SelectorEvent)
    (hevent : event = .setup ∨ event = .markerConfigured) (attempted : Bool)
    (hattempted : attempted = false) :
    SetupReady { ledger with attempted, history := ledger.history ++ [event] } :=
  ⟨h.idle.concat hevent, hattempted⟩

abbrev KeepsSetupReady {α : Type} (m : SelectorProg α) : Prop :=
  Preserves (fun s => SetupReady s.ledger) (fun s => SafeReentry s.ledger.history) m

theorem keepsSetupReady_markerConfigure (config : MarkerConfig) : KeepsSetupReady (markerConfigure config) :=
  fun _ hs => Wp.bind_update (hs.configured .markerConfigured (.inr rfl) false rfl)

theorem keepsSetupReady_probeConfigLoad : KeepsSetupReady probeConfigLoad := by
  refine (keepsSetupReady_markerConfigure _).bind fun _ => Preserves.call.bind fun answer => ?_
  refine Preserves.ite (fun _ => ?_) fun _ => Preserves.ite (fun _ => Preserves.pure _) fun _ => ?_
  · cases probeConfigImportCore ncvConfigDefaults with
    | error status => exact Preserves.pure _
    | ok config => exact Preserves.pure _
  · cases importParsed answer.data with
    | error status => exact Preserves.pure _
    | ok parsed => exact (keepsSetupReady_markerConfigure _).bind fun _ => Preserves.pure _

theorem keepsSetupReady_setupLoads (loads : Nat) : KeepsSetupReady (setupLoads loads) := by
  induction loads with
  | zero => exact Preserves.pure ()
  | succ loads ih => exact keepsSetupReady_probeConfigLoad.bind fun _ => ih

theorem keepsSetupReady_runSetupAndReload (loaded : LoadedConfig) : KeepsSetupReady (runSetupAndReload loaded) := by
  have hprobe : KeepsSetupReady nativeCsmVgaProbeRun := by
    refine Preserves.bind ?_ fun _ => Preserves.call.bind fun _ =>
      (keepsSetupReady_setupLoads _).bind fun _ => Preserves.pure _
    exact Preserves.update fun s hs => hs.configured .setup (.inl rfl) _ hs.notAttempted
  have hreload : KeepsSetupReady reloadSaved := by
    refine preserves_service.bind fun _ => Preserves.ite (fun _ => Preserves.pure _) fun _ => ?_
    refine keepsSetupReady_probeConfigLoad.bind fun loaded => preserves_service.bind fun _ => ?_
    cases loaded with
    | error status => exact Preserves.pure _
    | ok config =>
        exact Preserves.ite (fun _ => Preserves.pure _) fun _ =>
          Preserves.ite (fun _ => Preserves.pure _) fun _ => Preserves.pure _
  refine hprobe.bind fun _ => Preserves.ite (fun _ => Preserves.pure _) fun _ => ?_
  refine hreload.bind fun saved => ?_
  cases saved with
  | error status => exact (Preserves.call.bind fun _ => Preserves.pure _).bind fun _ => Preserves.pure _
  | ok saved => exact Preserves.pure _

theorem Prepared.concluded {status : EfiStatus} (h : Prepared ledger) : Concluded status ledger :=
  ⟨⟨h.idle.safe, fun hmem => absurd hmem h.idle.notCancelled⟩, fun _ => ⟨h.idle, h.notAttempted⟩⟩

/-- The window is left with an error, or with nothing noted. -/
def WindowOf (result : EfiStatus × Bool) (ledger : Ledger) : Prop :=
  Concluded result.1 ledger ∧ (result.1.isError = false → Prepared ledger)

theorem Prepared.windowOf (h : Prepared ledger) (result : EfiStatus × Bool) : WindowOf result ledger :=
  ⟨h.concluded, fun _ => h⟩

theorem conducts_setupTick (h : Prepared state.ledger) :
    Conducts setupTick (fun result ledger => result.elim (Prepared ledger) fun result =>
      WindowOf result ledger) state := by
  refine Wp.bind_call fun keyboard _ => Wp.ite (fun _ => h.windowOf _) fun _ => ?_
  refine Wp.ite (fun _ => Wp.bind_update ⟨⟨⟨h.idle.safe.concat trivial, fun _ => rfl⟩, ?_⟩, ?_⟩) fun _ => ?_
  · intro hclean
    have hcountdown : state.countdown = { prepared := true } := h.countdown
    simp [SelectorState.ledger, hcountdown] at hclean
  · simp [EfiStatus.isError]
  refine Wp.ite (fun _ => h.windowOf _) fun _ => wp_bind_service fun stalled => ?_
  exact Wp.ite (fun _ => h.windowOf _) fun _ => h

theorem conducts_bootSetupWindow (h : Prepared state.ledger) :
    Conducts bootSetupWindow WindowOf state := by
  have hticks : ∀ ticks {s : SelectorState}, Prepared s.ledger →
      Conducts (tickUntil setupTick ticks) (fun result ledger => result.elim (Prepared ledger)
        fun result => WindowOf result ledger) s := by
    intro ticks
    induction ticks with
    | zero => exact fun hs => hs
    | succ ticks ih =>
        intro s hs
        refine (conducts_setupTick hs).bind fun result s' hs' => ?_
        cases result with
        | none => exact ih hs'
        | some result => exact hs'
  refine (hticks _ h).bind fun result s hs => ?_
  cases result with
  | some result => exact hs
  | none => exact hs.windowOf _

/-- What is to be done is a boot that is prepared, an edit that may be made, or leaving. -/
def RoundOf (round : Round) (ledger : Ledger) : Prop :=
  match round with
  | .boot _ => Prepared ledger
  | .edit _ => SetupReady ledger
  | .leave status => Leaves status ledger

theorem conducts_beforeBoot (patience : Nat) (loaded : LoadedConfig) (h : SetupReady state.ledger) :
    Conducts (beforeBoot patience loaded) RoundOf state := by
  have hprepared : Prepared { state.ledger with countdown := { prepared := true } } :=
    ⟨h.idle, h.notAttempted, rfl⟩
  refine Wp.bind_update (Wp.ite (fun _ => hprepared) fun _ => ?_)
  refine Wp.bind (conducts_bootSetupWindow ?_) fun result s hs => Wp.ite (fun _ => ?_) fun hok => ?_
  · exact hprepared
  · refine Wp.ite (fun _ => ?_) fun _ => hs.1.1
    exact (preserves_bootReportHold _ s hs.1).bind fun _ s hs => hs.1
  · have hsame := hs.2 (by simpa using hok)
    exact Wp.ite (fun _ => ⟨hsame.idle, hsame.notAttempted⟩) fun _ => hsame

theorem conducts_setupRound (patience : Nat) (loaded : LoadedConfig) (h : SetupReady state.ledger) :
    Conducts (setupRound patience loaded) RoundOf state := by
  refine Wp.ite (fun _ => conducts_beforeBoot patience loaded h) fun _ => ?_
  refine (keepsSetupReady_runSetupAndReload loaded state h).bind fun result s hs => ?_
  exact Wp.ite (fun _ => hs.leaves _) fun _ => conducts_beforeBoot patience _ hs

/-- Every round starts where the settings may be edited. -/
theorem conducts_selectorLoop (patience rounds : Nat) (loaded : LoadedConfig) {state : SelectorState}
    (h : SetupReady state.ledger) : Conducts (selectorLoop patience rounds loaded) Leaves state := by
  induction rounds generalizing loaded state with
  | zero => exact h.idle.safe
  | succ rounds ih =>
      refine (conducts_setupRound patience loaded h).bind fun round s hs => ?_
      cases round with
      | leave status => exact hs
      | edit loaded => exact ih loaded hs
      | boot loaded =>
          refine (conducts_bootRound patience loaded hs).bind fun result s hs => ?_
          exact Wp.ite (fun _ => hs.1) fun hagain => ih _ (hs.2 (by simpa using hagain))

theorem SetupReady.concluded {status : EfiStatus} (h : SetupReady ledger) : Concluded status ledger :=
  ⟨h.leaves status, fun _ => h⟩

theorem conducts_uefiMain (patience rounds : Nat) (h : SetupReady state.ledger) :
    Conducts (uefiMain patience rounds) Leaves state := by
  have hfresh : KeepsSetupReady loadOrStartFresh := by
    refine keepsSetupReady_probeConfigLoad.bind fun loaded => ?_
    cases loaded with
    | ok loaded => exact Preserves.pure _
    | error status =>
        refine Preserves.ite (fun _ => Preserves.pure _) fun _ => preserves_service.bind fun _ => ?_
        exact Preserves.ite (fun _ => Preserves.pure _) fun _ => keepsSetupReady_probeConfigLoad
  have hwatchdog : KeepsSetupReady bootReportDisableWatchdog := preserves_service.bind fun _ => Preserves.pure _
  have hwait : KeepsSetupReady configWaitForReturn := Preserves.call.bind fun _ => Preserves.pure _
  have hstart : SetupReady { state.ledger with countdown := {} } := ⟨h.idle, h.notAttempted⟩
  refine Wp.bind_update (Wp.bind_update (Wp.bind (hwatchdog _ ?_) fun watchdog s hs => ?_))
  · exact hstart
  refine Wp.ite (fun _ => ?_) fun _ => wp_bind_service fun opened => Wp.ite (fun _ => ?_) fun _ => ?_
  · exact (preserves_bootReportHold _ s hs.concluded).bind fun _ s hs => hs.1
  · exact (hwait s hs).bind fun _ s hs => hs.leaves _
  refine (hfresh s hs).bind fun loaded s hs => wp_bind_service fun closed => ?_
  refine Wp.ite (fun _ => ?_) fun _ => ?_
  · cases loaded with
    | error status => exact (preserves_bootReportHold _ s hs.concluded).bind fun _ s hs => hs.1
    | ok loaded => exact (preserves_bootReportHold _ s hs.concluded).bind fun _ s hs => hs.1
  · cases loaded with
    | error status => exact hs.leaves _
    | ok loaded => exact conducts_selectorLoop patience rounds loaded hs

end

/-- The application starts with nothing done. -/
theorem ready_start : SetupReady (SelectorState.ledger {}) where
  idle :=
    { safe := admits_nil
      notOutstanding := by
        rintro ⟨before, after, hsplit, -⟩
        have hempty : [] = before ++ .markerWritten :: after := hsplit
        simp at hempty
      notCancelled := by simp [SelectorState.ledger]
      returned := by
        intro before events hsplit
        have hempty : [] = before ++ .boot :: events := hsplit
        simp at hempty }
  notAttempted := rfl

/-- **Re-entry is safe in every run**, with any number of rounds, any keys and any failures: setup is only
entered behind a boot that returned cleanly, the marker's original is not given up while it is needed, and
a run in which the user has cancelled does not end with success. -/
theorem reentry_safe (patience rounds : Nat) (answers : Nat → ServiceAnswer) :
    SafeReentry ((uefiMain patience rounds).run answers {}).2.history ∧
      ∀ status, ((uefiMain patience rounds).run answers {}).1 = some status →
        .cancelled ∈ ((uefiMain patience rounds).run answers {}).2.history → status.isError = true := by
  exact (conducts_uefiMain patience rounds ready_start).run_both fun _ => trivial

end CsmVgaSelector
