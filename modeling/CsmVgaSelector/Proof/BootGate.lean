import CsmVgaSelector.Proof.LogGate
import CsmVgaSelector.Proof.BootParts

/-!
# The boot's log gate

A boot starts with an empty trace and no failure remembered, and every part of it only adds what the gate
admits. The display is disconnected and the disk is booted right behind a commit.
-/

namespace CsmVgaSelector

open AppLogger Halting SelectorProg

/-! ### Opening the log -/

section

/-- The program leaves `FirstFileError` alone. -/
abbrev KeepsFirst {α : Type} (m : LogProg α) : Prop :=
  Prog.Keeps (fun state => state.logger.firstFileError) m

theorem keepsFirst_call : KeepsFirst Prog.call := fun _ _ _ => rfl

theorem keepsFirst_updateLogger {f : AppLogger → AppLogger}
    (h : ∀ logger, (f logger).firstFileError = logger.firstFileError) : KeepsFirst (updateLogger f) :=
  fun state => h state.logger

theorem keepsFirst_writeAll (event : EfiStatus → Bytes → LogEvent) (data : Bytes) :
    KeepsFirst (writeAll event data) := fun state =>
  (logs_writeAll event data state.logger state.trace).mono fun _ _ h => by
    obtain ⟨events, -, hlogger, -⟩ := h
    exact congrArg AppLogger.firstFileError hlogger

theorem keepsFirst_logAbandon (status : EfiStatus) : KeepsFirst (logAbandon status) := by
  refine keepsFirst_call.bind fun closed => Prog.Keeps.bind (keepsFirst_updateLogger ?_) fun _ =>
    Prog.Keeps.pure _
  exact fun _ => rfl

theorem keepsFirst_failOpen (status : EfiStatus) : KeepsFirst (failOpen status) := by
  refine Prog.Keeps.bind (keepsFirst_updateLogger ?_) fun _ => Prog.Keeps.pure _
  exact fun _ => rfl

theorem keepsFirst_logRotateOversized (endPosition : Nat) :
    KeepsFirst (logRotateOversized endPosition) := by
  refine Prog.Keeps.ite (Prog.Keeps.pure _) ?_
  refine Prog.Keeps.bind (keepsFirst_updateLogger ?_) fun _ => ?_
  · exact fun _ => rfl
  refine keepsFirst_call.bind fun deleted => Prog.Keeps.ite (Prog.Keeps.pure _) ?_
  refine keepsFirst_call.bind fun opened => Prog.Keeps.ite (Prog.Keeps.pure _) ?_
  refine Prog.Keeps.bind (keepsFirst_updateLogger ?_) fun _ => Prog.Keeps.pure _
  exact fun _ => rfl

theorem keepsFirst_logAppend : KeepsFirst logAppend := by
  refine keepsFirst_call.bind fun seek => Prog.Keeps.ite (keepsFirst_logAbandon _) ?_
  refine keepsFirst_call.bind fun position => Prog.Keeps.ite (keepsFirst_logAbandon _) ?_
  refine (keepsFirst_logRotateOversized _).bind fun rotated => Prog.Keeps.ite ?_ (Prog.Keeps.ite ?_ ?_)
  · exact keepsFirst_failOpen _
  · exact (keepsFirst_writeAll _ _).bind fun bom =>
      Prog.Keeps.ite (keepsFirst_logAbandon _) (Prog.Keeps.pure _)
  · exact Prog.Keeps.pure _

theorem keepsFirst_logOpen (files : Bool) (logFileName : Text) :
    KeepsFirst (logOpen files logFileName) := by
  refine Prog.Keeps.get.bind fun state => Prog.Keeps.ite (Prog.Keeps.pure _) ?_
  refine Prog.Keeps.ite (keepsFirst_failOpen _) (Prog.Keeps.ite (keepsFirst_failOpen _) ?_)
  refine Prog.Keeps.bind (keepsFirst_updateLogger ?_) fun _ => ?_
  · exact fun _ => rfl
  refine keepsFirst_call.bind fun opened => Prog.Keeps.ite (keepsFirst_failOpen _) ?_
  refine Prog.Keeps.bind (keepsFirst_updateLogger ?_) fun _ => keepsFirst_logAppend
  exact fun _ => rfl

end

/-! ### The log of a boot -/

/-- The trace has passed the gate, and `FirstFileError` is its first failure. -/
def LogState.Remembers (state : LogState) : Prop :=
  LogGate state.trace ∧ state.logger.firstFileError = firstFailure state.trace

theorem LogState.Remembers.start {logger : AppLogger} (h : logger.firstFileError = .success) :
    LogState.Remembers { logger, trace := [] } :=
  ⟨admits_nil, h⟩

theorem wp_logInitialize (files verbose : Bool) (logFileName : Text) (state : LogState) :
    Prog.Wp (fun _ => True) (logInitialize files verbose logFileName) (fun _ s => s.Remembers)
      state := by
  refine Prog.wp_bind.mpr (Prog.wp_call.mpr fun system _ => ?_)
  refine Prog.wp_bind.mpr (Prog.wp_call.mpr fun serial _ => ?_)
  refine Prog.wp_bind.mpr (Prog.wp_modify.mpr ?_)
  refine Prog.Wp.bind ((keepsFirst_logOpen files logFileName).wp _) fun status s hs => ?_
  refine Prog.wp_bind.mpr (Prog.wp_modify.mpr ?_)
  exact LogState.Remembers.start hs

theorem Sound.wp {α : Type} {m : LogProg α} (hm : Sound m) {state : LogState} (h : state.Remembers) :
    Prog.Wp (fun _ => True) m (fun _ s => s.Remembers) state := by
  refine (hm state.logger state.trace).mono fun value s hs => ?_
  obtain ⟨events, htrace, haccounted⟩ := hs
  rw [h.2] at haccounted
  have hgate := haccounted.logGate h.1
  rw [← htrace] at hgate
  exact hgate

/-- Closing is the last that happens to the log, and nobody remembers whether it failed. -/
theorem wp_logClose {state : LogState} (h : state.Remembers) :
    Prog.Wp (fun _ => True) logClose (fun _ s => LogGate s.trace) state := by
  refine (sound_logFlush.wp h).bind fun status s hs => ?_
  refine Prog.Wp.bind_get (Prog.Wp.ite (fun _ => hs.1) fun _ => ?_)
  refine Prog.wp_bind.mpr (Prog.wp_bind.mpr (Prog.wp_call.mpr fun answer _ => ?_))
  have hclosed : Accounted (firstFailure s.trace) [.close answer.status] _ := ⟨trivial, rfl⟩
  exact (hclosed.logGate hs.1).1

section

/-- The program keeps the gate and what is remembered. -/
abbrev KeepsGate {α : Type} (m : SelectorProg α) : Prop :=
  Preserves (fun state => state.log.Remembers) (fun state => LogGate state.log.trace) m

theorem keepsGate_onLog {α : Type} {m : LogProg α} (hm : Sound m) : KeepsGate (onLog m) :=
  Preserves.lift fun _ hs => Prog.wp_zoom.mpr (hm.wp hs)

theorem keepsGate_log (logCall : LogCall) : KeepsGate (log logCall) := keepsGate_onLog logCall.sound

theorem keepsGate_note (event : SelectorEvent) : KeepsGate (note event) :=
  Preserves.update fun _ hs => hs

theorem logged_gate :
    LogKeeps (fun state => state.log.Remembers) (fun state => LogGate state.log.trace) where
  log := keepsGate_log
  halts := fun _ hs => hs.1
  pending := fun _ _ hs => hs

/-! ### The parts of a boot -/

theorem keepsGate_updateMarker (f : Marker → Marker) : KeepsGate (updateMarker f) :=
  Preserves.update fun _ hs => hs

theorem keepsGate_updateCountdown (f : Countdown → Countdown) : KeepsGate (updateCountdown f) :=
  Preserves.update fun _ hs => hs

theorem keepsGate_saveOriginal : KeepsGate saveOriginal := by
  refine preserves_readExact.bind fun result => ?_
  obtain ⟨status, bytes⟩ := result
  cases bytes with
  | none => exact Preserves.pure _
  | some original =>
      exact (keepsGate_updateMarker _).bind fun _ => (keepsGate_note _).bind fun _ => Preserves.pure _

theorem keepsGate_markerApply : KeepsGate markerApply := by
  have hwrite : KeepsGate writeMarker := by
    refine keepsGate_saveOriginal.bind fun _ => Preserves.ite (fun _ => Preserves.pure _) fun _ => ?_
    refine Preserves.getState.bind fun _ => Preserves.ite (fun _ => Preserves.pure _) fun _ => ?_
    refine (keepsGate_updateMarker _).bind fun _ => (keepsGate_note _).bind fun _ => ?_
    exact preserves_writeExact _
  refine Preserves.getState.bind fun _ => Preserves.ite (fun _ => Preserves.pure _) fun _ => ?_
  refine Preserves.ite (fun _ => Preserves.pure _) fun _ => preserves_openMarker.bind fun _ => ?_
  refine Preserves.ite (fun _ => preserves_closeMarker _ _) fun _ => ?_
  exact hwrite.bind fun _ => preserves_closeMarker _ _

theorem keepsGate_waitTick : KeepsGate waitTick := by
  have hline : ∀ text (result : EfiStatus), KeepsGate (do
      let _ ← logLine text
      return some result) := fun text result => (keepsGate_log _).bind fun _ => Preserves.pure _
  refine Preserves.call.bind fun _ => Preserves.ite (fun _ => ?_) fun _ => ?_
  · exact (keepsGate_updateCountdown _).bind fun _ => hline _ _
  refine Preserves.ite (fun _ => ?_) fun _ => Preserves.ite (fun _ => hline _ _) fun _ => ?_
  · exact (keepsGate_updateCountdown _).bind fun _ => (keepsGate_note _).bind fun _ => hline _ _
  refine preserves_service.bind fun _ => Preserves.ite (fun _ => ?_) fun _ => Preserves.pure _
  refine Preserves.bind ?_ fun _ => Preserves.pure _
  exact (keepsGate_log _).bind fun _ => Preserves.pure _

theorem sound_dropConsole : Sound LogAction.dropConsole.exec := by
  refine Sound.bind (Sound.updateLogger ?_) fun _ => Sound.pure _
  exact fun _ => rfl

theorem keepsGate_bootCountdownWait : KeepsGate bootCountdownWait := by
  refine Preserves.getState.bind fun _ => Preserves.ite (fun _ => Preserves.pure _) fun _ => ?_
  refine (logged_gate.logBehindBarrier _).bind fun _ =>
    Preserves.ite (fun _ => Preserves.pure _) fun _ => ?_
  refine (keepsGate_onLog sound_dropConsole).bind fun _ => ?_
  refine (preserves_tickUntil keepsGate_waitTick _).bind fun result => ?_
  cases result with
  | some status => exact Preserves.pure _
  | none =>
      refine (keepsGate_updateCountdown _).bind fun _ => (keepsGate_note _).bind fun _ => ?_
      exact logged_gate.logBehindBarrier _

/-! ### The milestones -/

/-- A commit without an error leaves no failure behind. -/
theorem wp_commit (logCall : LogCall) (h : ∀ logger, Answers logger logCall.exec)
    {state : SelectorState} (hstate : state.log.Remembers) :
    Wp (fun _ => True) (log logCall)
      (fun status s => s.log.Remembers ∧ status = s.log.logger.firstFileError)
      (fun s => LogGate s.log.trace) state := by
  refine wp_lift.mpr (Prog.wp_zoom.mpr ?_)
  refine ((logCall.sound.wp hstate).and (h state.log.logger state.log.trace)).mono ?_
  rintro status s ⟨hremembers, events, -, -, hstatus⟩
  exact ⟨hremembers, hstatus⟩

theorem wp_reach (milestone : Milestone) {state : SelectorState} (hstate : state.log.Remembers)
    (hfirst : state.log.logger.firstFileError.isError = false) :
    Wp (fun _ => True) (reach milestone) (fun _ s => s.log.Remembers)
      (fun s => LogGate s.log.trace) state := by
  have haccounted : Accounted (firstFailure state.log.trace) [.reached milestone]
      (firstFailure state.log.trace) := by
    refine ⟨?_, recordFirstError_of_not_error rfl |>.symm⟩
    rwa [← hstate.2]
  have hgate := haccounted.logGate hstate.1
  refine wp_lift.mpr (Prog.wp_zoom.mpr (Prog.wp_modify.mpr ⟨hgate.1, ?_⟩))
  exact hstate.2.trans hgate.2

theorem keepsGate_disconnectActive : KeepsGate disconnectActive := by
  refine (keepsGate_log _).bind fun _ => (logged_gate.phase _).bind fun _ => ?_
  refine (keepsGate_log _).bind fun _ => Preserves.ite (fun _ => Preserves.pure _) fun _ => ?_
  refine keepsGate_bootCountdownWait.bind fun _ =>
    Preserves.ite (fun _ => Preserves.pure _) fun _ => ?_
  refine keepsGate_markerApply.bind fun _ => Preserves.ite (fun _ => ?_) fun _ => ?_
  · exact (keepsGate_log _).bind fun _ => Preserves.pure _
  refine (logged_gate.phase _).bind fun _ => fun s hs => ?_
  refine (wp_commit .fileBarrier answers_logFileBarrier hs).bind fun barrier s' hbarrier => ?_
  refine Wp.ite (fun _ => hbarrier.1) fun hclean => ?_
  have hfirst : s'.log.logger.firstFileError.isError = false := by
    rw [← hbarrier.2]
    simpa using hclean
  refine (wp_reach .disconnectController hbarrier.1 hfirst).bind fun _ => ?_
  refine Preserves.bind preserves_service fun _ => ?_
  refine Preserves.ite (fun _ => ?_) fun _ => Preserves.pure _
  exact (keepsGate_log _).bind fun _ => Preserves.pure _

theorem keepsGate_legacyBoot {α : Type} : KeepsGate (legacyBoot : SelectorProg α) := by
  refine logged_gate.wp_legacyBoot fun s hs => ?_
  have hcommit : Wp (fun _ => True) (orHalt "NCV_BOOT_FAIL_FINAL_LOG_COMMIT" (log .commitAndClose))
      (fun _ s => s.log.Remembers ∧ s.log.logger.firstFileError.isError = false)
      (fun s => LogGate s.log.trace) s := by
    refine (wp_commit .commitAndClose answers_logCommitAndClose hs).bind fun status s' hstatus => ?_
    refine Wp.ite (fun _ => logged_gate.wp_bootReportHalt _ hstatus.1) fun hclean => ⟨hstatus.1, ?_⟩
    rw [← hstatus.2]
    simpa using hclean
  exact hcommit.bind fun _ s' hs' => wp_reach .legacyBoot hs'.1 hs'.2

theorem keepsGate_bootMainLine (autoBoot : Bool) : KeepsGate (bootMainLine autoBoot) := by
  refine (logged_gate.phase _).bind fun _ => (keepsGate_log _).bind fun _ => ?_
  refine (keepsGate_log _).bind fun _ => (keepsGate_log _).bind fun _ => ?_
  refine (logged_gate.preflight autoBoot).bind fun exit => ?_
  cases exit with
  | some exit => exact Preserves.pure _
  | none =>
      refine keepsGate_disconnectActive.bind fun exit => ?_
      cases exit with
      | some exit => exact Preserves.pure _
      | none => exact logged_gate.handOff.bind fun _ => keepsGate_legacyBoot

/-- The log is closed at the end, and the trace has passed the gate. -/
theorem wp_closeLog {state : SelectorState} (h : state.log.Remembers) :
    Wp (fun _ => True) (onLog logClose) (fun _ s => LogGate s.log.trace)
      (fun s => LogGate s.log.trace) state :=
  wp_lift.mpr (Prog.wp_zoom.mpr (wp_logClose h))

/-- What follows the close leaves the log alone. -/
theorem wp_bootCountdownFinish (status planCleanupStatus : EfiStatus) {state : SelectorState}
    (h : state.log.Remembers) :
    Wp (fun _ => True) (bootCountdownFinish status planCleanupStatus)
      (fun _ s => LogGate s.log.trace) (fun s => LogGate s.log.trace) state := by
  have hfinish : ∀ result, Wp (fun _ => True) (bootReportFinishDetailed result)
      (fun _ s => LogGate s.log.trace) (fun s => LogGate s.log.trace) state := by
    intro result
    refine (keepsGate_log _ state h).bind fun flushStatus flushed hflushed => ?_
    refine Wp.bind_update (Wp.bind (wp_closeLog ?_) fun closeStatus closed hclosed => ?_)
    · exact hflushed
    exact Wp.bind_update (Wp.bind_call fun volumes _ => Wp.bind_update hclosed)
  refine Wp.bind_getState ((hfinish _).bind fun closed s hs => Wp.bind_update ?_)
  exact Wp.ite (fun _ => hs) fun _ => Wp.bind_update hs

theorem wp_bootReturn (exit : BootExit) {state : SelectorState} (h : state.log.Remembers) :
    Wp (fun _ => True) (bootReturn exit) (fun _ s => LogGate s.log.trace)
      (fun s => LogGate s.log.trace) state := by
  have hnormal : ∀ status (s : SelectorState), s.log.Remembers →
      Wp (fun _ => True) (normalReturn status) (fun _ s => LogGate s.log.trace)
        (fun s => LogGate s.log.trace) s := by
    intro status s hs
    have hrelease : KeepsGate nativeCsmVgaRuntimePlanReleasePart :=
      preserves_service.bind fun _ => (keepsGate_note _).bind fun _ => Preserves.pure _
    exact (hrelease s hs).bind fun cleanupStatus _ hs' => wp_bootCountdownFinish status _ hs'
  cases exit with
  | preflightFailure status => exact (keepsGate_log _ state h).bind fun _ s hs => hnormal status s hs
  | normalReturn status => exact hnormal status state h

theorem wp_bootWithLog (autoBoot : Bool) {state : SelectorState} (h : state.log.Remembers) :
    Wp (fun _ => True) (bootWithLog autoBoot) (fun _ s => LogGate s.log.trace)
      (fun s => LogGate s.log.trace) state := by
  refine (keepsGate_log _ state h).bind fun durable opened hopened => Wp.ite (fun _ => ?_) fun _ => ?_
  · exact (wp_closeLog hopened).bind fun _ closed hclosed => Wp.bind_call fun _ _ => hclosed
  · exact (keepsGate_bootMainLine autoBoot opened hopened).bind fun exit s hs => wp_bootReturn exit hs

theorem wp_nativeCsmVgaBootRun (config : ProbeConfig) (state : SelectorState) :
    Wp (fun _ => True) (nativeCsmVgaBootRun config) (fun _ s => LogGate s.log.trace)
      (fun s => LogGate s.log.trace) state := by
  refine Wp.bind_update (Wp.bind_update (Wp.bind_call fun files _ => ?_))
  refine Wp.ite (fun _ => admits_nil) fun _ => ?_
  have hstart : ∀ s : SelectorState, Wp (fun _ => True)
      (onLog (logInitialize true true bootLogName)) (fun _ s => s.log.Remembers)
      (fun s => LogGate s.log.trace) s := fun s =>
    wp_lift.mpr (Prog.wp_zoom.mpr (wp_logInitialize true true bootLogName s.log))
  refine (hstart _).bind fun initialized opened hopened => Wp.ite (fun _ => ?_) fun _ => ?_
  · exact Wp.bind_call fun _ _ => hopened.1
  · exact wp_bootWithLog _ hopened

end

/-- **Every run of a boot passes the log gate**, from any state, whatever it is answered, and wherever it
ends or stops. -/
theorem log_gate (config : ProbeConfig) (answers : Nat → ServiceAnswer) (state : SelectorState) :
    LogGate ((nativeCsmVgaBootRun config).run answers state).2.log.trace :=
  (wp_nativeCsmVgaBootRun config state).run_either answers

/-! ### Failures that no operation reported -/

/-- The first error of an operation on the log file. -/
def firstOperationError (events : List LogEvent) : EfiStatus :=
  ((events.filterMap LogEvent.operation?).find? EfiStatus.isError).getD .success

/-- Once an operation has failed, `FirstFileError` is the first error of one. -/
def RemembersFirstOperationError (trace : List LogEvent) : Prop :=
  ∀ before call status firstFileError after,
    trace = before ++ .returned call status firstFileError :: after →
      OperationFailed before → firstFileError = firstOperationError before

/-- The first record cannot be formatted, and the flush behind it fails. -/
def unformattedRecord : Nat → ServiceAnswer
  | 2 => { status := .notFound }
  | 7 => { granted := false }
  | 8 => { status := .deviceError }
  | _ => { position := 3 }

def defaultConfig : ProbeConfig where
  core := ncvConfigDefaults
  name := []
  legacyOptionDescription := []
  excludeDescription := []
  targetBbsDescription := []

def unformattedTrace : List LogEvent :=
  ((nativeCsmVgaBootRun defaultConfig).run unformattedRecord {}).2.log.trace

/-- The barrier behind the record returns the failure to format it, and not the error of its flush. -/
theorem unformattedTrace_split :
    unformattedTrace = unformattedTrace.take 6 ++
      .returned .fileBarrier .outOfResources .outOfResources :: unformattedTrace.drop 7 := by
  decide +kernel

theorem firstOperationError_unformattedTrace :
    firstOperationError (unformattedTrace.take 6) = .deviceError := by
  decide +kernel

theorem operationFailed_unformattedTrace : OperationFailed (unformattedTrace.take 6) := by
  have hflush : LogEvent.flush .deviceError ∈ unformattedTrace.take 6 := by decide +kernel
  exact ⟨_, hflush, _, rfl, rfl⟩

/-- `FirstFileError` may keep a failure that no operation reported. -/
theorem not_remembersFirstOperationError :
    ¬ ∀ config answers state, RemembersFirstOperationError
      ((nativeCsmVgaBootRun config).run answers state).2.log.trace := by
  intro h
  have hfirst : EfiStatus.outOfResources = firstOperationError (unformattedTrace.take 6) :=
    h defaultConfig unformattedRecord {} _ _ _ _ _ unformattedTrace_split
      operationFailed_unformattedTrace
  rw [firstOperationError_unformattedTrace] at hfirst
  contradiction

end CsmVgaSelector
