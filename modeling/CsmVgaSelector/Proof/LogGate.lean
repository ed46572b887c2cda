import CsmVgaSelector.Proof.LogTrace

/-!
# The log gate

`FirstFileError` is the first failure in the trace. A monitor reads the trace with that one status as its
memory, and every call of the logger is followed by it.
-/

namespace CsmVgaSelector

open AppLogger

namespace LogEvent

/-- The status of an operation on the log file. -/
def operation? : LogEvent → Option EfiStatus
  | write status _ => some status
  | flush status => some status
  | close status => some status
  | open_ status => some status
  | seek status => some status
  | _ => none

/-- The status of an operation, and of a failure that no operation reported. -/
def failure : LogEvent → EfiStatus
  | fault status => status
  | event => event.operation?.getD .success

end LogEvent

/-- An operation on the log file has failed. -/
def OperationFailed (events : List LogEvent) : Prop :=
  ∃ event ∈ events, ∃ status, event.operation? = some status ∧ status.isError = true

def firstFailure (events : List LogEvent) : EfiStatus :=
  ((events.map LogEvent.failure).find? EfiStatus.isError).getD .success

def LogCall.isCommit : LogCall → Bool
  | fileBarrier => true
  | commitAndReopen => true
  | commitAndClose => true
  | _ => false

/-- What may happen behind these events: a boot reaches its milestones while no operation has failed, every
call leaves the first failure in `FirstFileError`, and a commit answers with an error once one has
failed. -/
def Admitted (before : List LogEvent) : LogEvent → Prop
  | .reached _ => ¬ OperationFailed before
  | .returned call status firstFileError =>
      firstFileError = firstFailure before ∧
        (call.isCommit = true → OperationFailed before → status.isError = true)
  | _ => True

def LogGate (trace : List LogEvent) : Prop := Admits Admitted trace

/-! ### The monitor -/

/-- The event is allowed where `first` is the first failure. -/
def Allowed (first : EfiStatus) : LogEvent → Prop
  | .reached _ => first.isError = false
  | .returned call status firstFileError =>
      firstFileError = first ∧ (call.isCommit = true → first.isError = true → status.isError = true)
  | _ => True

/-- The monitor goes from `first` to `last`. -/
def Accounted : EfiStatus → List LogEvent → EfiStatus → Prop
  | first, [], last => last = first
  | first, event :: rest, last =>
      Allowed first event ∧ Accounted (recordFirstError first event.failure) rest last

theorem Accounted.refl (first : EfiStatus) : Accounted first [] first := rfl

theorem Accounted.append {first middle last : EfiStatus} {events more : List LogEvent}
    (h : Accounted first events middle) (h' : Accounted middle more last) :
    Accounted first (events ++ more) last := by
  induction events generalizing first with
  | nil =>
      obtain rfl : middle = first := h
      exact h'
  | cons event rest ih => exact ⟨h.1, ih h.2⟩

theorem OperationFailed.failure {events : List LogEvent} (h : OperationFailed events) :
    (firstFailure events).isError = true := by
  obtain ⟨event, hevent, status, hstatus, herror⟩ := h
  have hfailure : event.failure = status := by
    cases event <;> simp_all [LogEvent.failure, LogEvent.operation?]
  have hsome : ((events.map LogEvent.failure).find? EfiStatus.isError).isSome = true := by
    rw [List.find?_isSome]
    exact ⟨status, List.mem_map.mpr ⟨event, hevent, hfailure⟩, herror⟩
  obtain ⟨found, hfound⟩ := Option.isSome_iff_exists.mp hsome
  rw [firstFailure, hfound]
  exact List.find?_some hfound

theorem firstFailure_concat (events : List LogEvent) (event : LogEvent) :
    firstFailure (events ++ [event]) = recordFirstError (firstFailure events) event.failure := by
  rw [firstFailure, firstFailure, List.map_append, List.find?_append]
  cases hfound : (events.map LogEvent.failure).find? EfiStatus.isError with
  | none =>
      cases herror : event.failure.isError <;>
        simp [recordFirstError, herror]
  | some found =>
      have herror : found.isError = true := List.find?_some hfound
      simp [recordFirstError, herror]

theorem Allowed.admitted {before : List LogEvent} {event : LogEvent}
    (h : Allowed (firstFailure before) event) : Admitted before event := by
  cases event with
  | reached milestone =>
      intro hfailed
      have herror := hfailed.failure
      rw [h] at herror
      contradiction
  | returned call status firstFileError =>
      exact ⟨h.1, fun hcommit hfailed => h.2 hcommit hfailed.failure⟩
  | _ => trivial

/-- A monitored trace passes the gate. -/
theorem Accounted.logGate {past events : List LogEvent} {last : EfiStatus}
    (hpast : LogGate past) (h : Accounted (firstFailure past) events last) :
    LogGate (past ++ events) ∧ last = firstFailure (past ++ events) := by
  induction events generalizing past with
  | nil => exact ⟨by simpa using hpast, by simpa [Accounted] using h⟩
  | cons event rest ih =>
      have hgate : LogGate (past ++ [event]) := hpast.concat h.1.admitted
      have hrest := ih hgate (by rw [firstFailure_concat]; exact h.2)
      simpa using hrest

/-! ### The calls are followed by the monitor -/

/-- The monitor follows the program from any logger. -/
def Sound {α : Type} (m : LogProg α) : Prop :=
  ∀ logger, Logs m
    (fun _ logger' events => Accounted logger.firstFileError events logger'.firstFileError) logger

namespace Sound

variable {α β : Type}

theorem pure (value : α) : Sound (Pure.pure value) := fun logger =>
  Logs.pure (Accounted.refl logger.firstFileError)

theorem bind {m : LogProg β} {k : β → LogProg α} (hm : Sound m) (hk : ∀ value, Sound (k value)) :
    Sound (m >>= k) := fun logger =>
  (hm logger).bind fun value logger' _ h => (hk value logger').mono fun _ _ _ h' => h.append h'

theorem ite {c : Prop} [Decidable c] {m m' : LogProg α} (hm : c → Sound m) (hm' : ¬ c → Sound m') :
    Sound (if c then m else m') := by
  split
  · exact hm ‹_›
  · exact hm' ‹_›

theorem call : Sound Prog.call := fun logger trace _ _ =>
  ⟨[], by simp, Accounted.refl logger.firstFileError⟩

theorem get : Sound get := fun logger _ =>
  ⟨[], by simp, Accounted.refl logger.firstFileError⟩

theorem updateLogger {f : AppLogger → AppLogger}
    (h : ∀ logger, (f logger).firstFileError = logger.firstFileError) :
    Sound (AppLogger.updateLogger f) := fun logger _ => ⟨[], by simp, h logger⟩

theorem recordWriteError (status : EfiStatus) : Sound (AppLogger.recordWriteError status) :=
  updateLogger fun _ => rfl

theorem recordFault (status : EfiStatus) : Sound (AppLogger.recordFault status) := fun _ =>
  Logs.bind_emit fun _ => ⟨[], (List.append_nil _).symm, trivial, rfl⟩

/-- An operation whose status is told to `FirstFileError` at once. -/
theorem bind_operation {event : EfiStatus → LogEvent} {k : EfiStatus → LogProg α}
    (hevent : ∀ status, (event status).operation? = some status) (hk : ∀ status, Sound (k status)) :
    Sound (fileOperation event >>= fun status => recordFileError status >>= fun _ => k status) := by
  intro logger
  refine Logs.bind_fileOperation fun status => Logs.bind_recordFileError ?_
  have hfailure : (event status).failure = status := by
    have := hevent status
    cases hcase : event status <;> simp_all [LogEvent.failure, LogEvent.operation?]
  have hallowed : Allowed logger.firstFileError (event status) := by
    have := hevent status
    cases hcase : event status <;> simp_all [Allowed, LogEvent.operation?]
  refine (hk status _).mono fun value logger' events h => ⟨hallowed, ?_⟩
  rw [hfailure]
  exact h

end Sound

theorem Shows.accounted {logger logger' : AppLogger} {events : List LogEvent}
    (h : Shows logger logger' events) :
    Accounted logger.firstFileError events logger'.firstFileError := by
  obtain ⟨rfl, hshown⟩ := h
  induction events with
  | nil => rfl
  | cons event rest ih =>
      have hevent := hshown event (List.mem_cons_self ..)
      have hrest := ih fun event' hmem => hshown event' (List.mem_cons_of_mem _ hmem)
      cases event <;> simp_all [LogEvent.isShown, Accounted, Allowed, LogEvent.failure,
        LogEvent.operation?, recordFirstError]

theorem sound_showRecord (text : Text) (mirrorDespiteFileFailure : Bool) :
    Sound (showRecord text mirrorDespiteFileFailure) := fun _ =>
  (logs_showRecord text mirrorDespiteFileFailure).mono fun _ _ _ h => h.accounted

theorem sound_writeConsoleTargets (text : Text) (includeCurrentSystemConsoles : Bool) :
    Sound (writeConsoleTargets text includeCurrentSystemConsoles) := fun _ =>
  (logs_writeConsoleTargets text includeCurrentSystemConsoles).mono
    fun _ _ _ h => h.accounted

theorem recordFirstError_of_not_error {current candidate : EfiStatus}
    (h : candidate.isError = false) : recordFirstError current candidate = current := by
  simp [recordFirstError, h]

/-- A loop of writes has failed with what it returns, unless no write reported that. -/
theorem Streamed.accounted {data : Bytes} {events : List LogEvent} {result : EfiStatus × Bool}
    (h : Streamed .write data events result) (first : EfiStatus) :
    Accounted first events (if result.2 then recordFirstError first result.1 else first) := by
  induction h with
  | done => exact recordFirstError_of_not_error rfl
  | failed => exact ⟨trivial, rfl⟩
  | stuck hstatus => exact ⟨trivial, (recordFirstError_of_not_error hstatus).symm⟩
  | @piece data status written events result hstatus _ ih =>
      refine ⟨trivial, ?_⟩
      have hfirst : recordFirstError first (LogEvent.write status (data.take written)).failure = first :=
        recordFirstError_of_not_error hstatus
      rw [hfirst]
      exact ih

theorem sound_writeFileAll (data : Bytes) : Sound (writeFileAll data) := by
  refine Sound.bind Sound.get fun state => Sound.ite (fun _ => ?_) fun _ => ?_
  · exact Sound.bind (Sound.recordFault _) fun _ => Sound.pure _
  · intro logger
    refine (logs_writeAll .write data logger).bind fun result logger' events h => ?_
    obtain ⟨rfl, hwritten⟩ := h
    have haccounted := hwritten.accounted logger'.firstFileError
    refine Logs.ite (fun hreported => ?_) fun hreported => ?_
    · rw [if_pos hreported] at haccounted
      exact Logs.bind_recordFileError (Logs.pure (by simpa using haccounted))
    · rw [if_neg hreported] at haccounted
      exact Logs.bind_recordFault (Logs.pure (haccounted.append ⟨trivial, rfl⟩))

/-! ### The record writer -/

theorem sound_writeDurably (data : Bytes) : Sound (writeDurably data) := by
  refine (sound_writeFileAll data).bind fun status => Sound.ite (fun _ => Sound.pure _) fun _ => ?_
  exact Sound.bind_operation (fun _ => rfl) fun _ => Sound.pure _

theorem sound_printDurableFileFirst (text : Text) (mirrorDespiteFileFailure : Bool) :
    Sound (printDurableFileFirst text mirrorDespiteFileFailure) := by
  refine (sound_writeDurably _).bind fun status => Sound.get.bind fun state => ?_
  refine Sound.ite (fun _ => Sound.pure _) fun _ => ?_
  exact (sound_showRecord _ _).bind fun _ => Sound.pure _

theorem sound_printFileLast (text : Text) (mirrorDespiteFileFailure : Bool) :
    Sound (printFileLast text mirrorDespiteFileFailure) := by
  refine (sound_showRecord _ _).bind fun status => Sound.get.bind fun state => ?_
  refine Sound.ite (fun _ => Sound.pure _) fun _ => ?_
  exact (sound_writeFileAll _).bind fun _ => Sound.pure _

theorem sound_systemConsolePresent : Sound systemConsolePresent := Sound.call.bind fun _ => Sound.pure _

theorem sound_printUnconverted (text : Text) (mirrorDespiteFileFailure : Bool) :
    Sound (printUnconverted text mirrorDespiteFileFailure) := by
  have hmirror : Sound (do
      let systemConsole ← systemConsolePresent
      if mirrorDespiteFileFailure && ((← get).logger.console.isSome || systemConsole) then
        let _ ← writeConsoleTargets text true
      return .outOfResources : LogProg EfiStatus) := by
    refine sound_systemConsolePresent.bind fun _ => Sound.get.bind fun _ => ?_
    exact Sound.ite (fun _ => (sound_writeConsoleTargets _ _).bind fun _ => Sound.pure _) fun _ =>
      Sound.pure _
  refine Sound.get.bind fun state => Sound.ite (fun _ => ?_) fun _ => hmirror
  exact (Sound.recordFault _).bind fun _ => hmirror

theorem sound_printToSinks (text : Text) (mirrorDespiteFileFailure : Bool) :
    Sound (printToSinks text mirrorDespiteFileFailure) := by
  refine Sound.get.bind fun state => Sound.ite (fun _ => ?_) fun _ => ?_
  · refine (Sound.call.bind fun _ => Sound.pure _).bind fun granted => ?_
    refine Sound.ite (fun _ => sound_printUnconverted _ _) fun _ => ?_
    exact Sound.ite (fun _ => sound_printDurableFileFirst _ _) fun _ => sound_printFileLast _ _
  · refine sound_systemConsolePresent.bind fun _ => Sound.ite (fun _ => ?_) fun _ => Sound.pure _
    exact (sound_writeConsoleTargets _ _).bind fun _ => Sound.pure _

theorem sound_noSink (mirrorDespiteFileFailure : Bool) : Sound (noSink mirrorDespiteFileFailure) :=
  Sound.get.bind fun _ => sound_systemConsolePresent.bind fun _ => Sound.pure _

theorem sound_printUnformatted : Sound printUnformatted := by
  refine (Sound.recordWriteError _).bind fun _ => Sound.get.bind fun state => ?_
  exact Sound.ite (fun _ => (Sound.recordFault _).bind fun _ => Sound.pure _) fun _ => Sound.pure _

theorem sound_logVPrintInternal (text : Text) (mirrorDespiteFileFailure : Bool) :
    Sound (logVPrintInternal text mirrorDespiteFileFailure) := by
  refine (Sound.call.bind fun _ => Sound.pure _).bind fun granted => ?_
  refine Sound.ite (fun _ => sound_printUnformatted) fun _ => ?_
  refine (sound_printToSinks _ _).bind fun sinkStatus => (sound_noSink _).bind fun missing => ?_
  exact (Sound.recordWriteError _).bind fun _ => Sound.pure _

/-! ### The barriers -/

/-- The program is followed, and what it returns is what `FirstFileError` then holds. -/
def Answers (logger : AppLogger) (m : LogProg EfiStatus) : Prop :=
  Logs m (fun status logger' events =>
    Accounted logger.firstFileError events logger'.firstFileError ∧
      status = logger'.firstFileError) logger

theorem Sound.returning {call : LogCall} {body : LogProg EfiStatus} (hcall : call.isCommit = false)
    (h : Sound body) : Sound (returning call body) := by
  intro logger
  refine (h logger).bind fun status logger' events hevents => Logs.bind_get fun trace => ?_
  refine Logs.bind_emit (Logs.pure (hevents.append ⟨⟨rfl, fun hcommit => ?_⟩, ?_⟩))
  · simp [hcall] at hcommit
  · simp [Accounted, LogEvent.failure, LogEvent.operation?, recordFirstError]

theorem Answers.returning {call : LogCall} {body : LogProg EfiStatus} {logger : AppLogger}
    (h : Answers logger body) : Answers logger (returning call body) := by
  refine Logs.bind h fun status logger' events hevents => Logs.bind_get fun trace => ?_
  refine Logs.bind_emit (Logs.pure ⟨hevents.1.append ⟨⟨rfl, fun _ herror => ?_⟩, ?_⟩, hevents.2⟩)
  · rw [hevents.2]
    exact herror
  · simp [Accounted, LogEvent.failure, LogEvent.operation?, recordFirstError]

theorem Answers.sound {m : LogProg EfiStatus} (h : ∀ logger, Answers logger m) : Sound m :=
  fun logger => Logs.mono (h logger) fun _ _ _ h => h.1

/-- An operation of which both error fields are told. -/
theorem logs_recordedOperation {event : EfiStatus → LogEvent}
    (hevent : ∀ status, (event status).operation? = some status) (logger : AppLogger) :
    Logs (recordedOperation event)
      (fun status logger' events => Accounted logger.firstFileError events logger'.firstFileError ∧
        logger'.firstFileError = recordFirstError logger.firstFileError status) logger := by
  refine Logs.bind_fileOperation fun status => Logs.bind_recordFileError
    (Logs.bind_recordWriteError (Logs.pure ⟨?_, rfl⟩))
  have h := hevent status
  cases hcase : event status <;> simp_all [Accounted, Allowed, LogEvent.failure, LogEvent.operation?]

theorem sound_recordedOperation {event : EfiStatus → LogEvent}
    (hevent : ∀ status, (event status).operation? = some status) : Sound (recordedOperation event) :=
  fun logger => (logs_recordedOperation hevent logger).mono fun _ _ _ h => h.1

theorem logs_closeFile (logger : AppLogger) :
    Logs closeFile
      (fun status logger' events => Accounted logger.firstFileError events logger'.firstFileError ∧
        logger'.firstFileError = recordFirstError logger.firstFileError status) logger := by
  refine Logs.bind_updateLogger ?_
  refine (logs_recordedOperation (fun _ => rfl) _).bind fun status logger' events h => ?_
  exact Logs.bind_updateLogger (Logs.pure (by simpa using h))

theorem logs_openFile (logger : AppLogger) :
    Logs openFile
      (fun status logger' events => Accounted logger.firstFileError events logger'.firstFileError ∧
        logger'.firstFileError = recordFirstError logger.firstFileError status) logger := by
  refine (logs_recordedOperation (fun _ => rfl) _).bind fun status logger' events h => ?_
  exact Logs.bind_updateLogger (Logs.pure (by simpa using h))

theorem sound_logFlush : Sound AppLogger.logFlush := by
  refine Sound.returning rfl (Sound.get.bind fun state => Sound.get.bind fun state' => ?_)
  refine Sound.ite (fun _ => Sound.pure _) fun _ => ?_
  exact (sound_recordedOperation fun _ => rfl).bind fun _ => Sound.pure _

/-- A commit that cannot be made is a failure of its own. -/
theorem answers_notReady (logger : AppLogger) :
    Answers logger (do
      recordFault .notReady
      return (← get).logger.firstFileError) :=
  Logs.bind_recordFault (Logs.bind_get fun _ => Logs.pure ⟨⟨trivial, rfl⟩, rfl⟩)

theorem answers_logFileBarrier (logger : AppLogger) : Answers logger logFileBarrier := by
  refine Answers.returning (Logs.bind_get fun trace => Logs.ite (fun _ => answers_notReady logger) ?_)
  intro _
  refine (logs_recordedOperation (fun _ => rfl) _).bind fun status logger' events h => ?_
  exact Logs.bind_get fun trace => Logs.pure ⟨by simpa using h.1, rfl⟩

theorem sound_logBeginDurableFileFirst : Sound logBeginDurableFileFirst := by
  refine Sound.returning rfl (Sound.get.bind fun state => Sound.ite (fun _ => Sound.pure _) fun _ => ?_)
  refine (Answers.sound answers_logFileBarrier).bind fun status => ?_
  refine Sound.ite (fun _ => Sound.pure _) fun _ => ?_
  refine Sound.bind (Sound.updateLogger ?_) fun _ => Sound.pure _
  exact fun _ => rfl

/-- The file is opened, and a status that was `FirstFileError` still is. -/
theorem logs_openAppend (status : EfiStatus) (logger : AppLogger) :
    Logs (openAppend status)
      (fun result logger' events => Accounted logger.firstFileError events logger'.firstFileError ∧
        (status = logger.firstFileError → result = logger'.firstFileError)) logger := by
  refine (logs_openFile logger).bind fun openStatus opened events hopen => ?_
  refine Logs.ite (fun _ => Logs.pure ⟨by simpa using hopen.1, fun h => by rw [h, hopen.2]⟩) fun _ => ?_
  refine (logs_recordedOperation (fun _ => rfl) _).bind fun positionStatus sought more hseek => ?_
  have hsought : status = logger.firstFileError →
      recordFirstError (recordFirstError status openStatus) positionStatus = sought.firstFileError := by
    intro h
    rw [h, hseek.2, hopen.2]
  refine Logs.ite (fun _ => ?_) fun _ => Logs.pure ⟨by simpa using hopen.1.append hseek.1, hsought⟩
  refine (logs_closeFile _).bind fun closeStatus closed most hclose => Logs.pure ⟨?_, fun h => ?_⟩
  · simpa using hopen.1.append (hseek.1.append hclose.1)
  · rw [hsought h, hclose.2]

theorem answers_logCommitAndReopen (logger : AppLogger) : Answers logger logCommitAndReopen := by
  refine Answers.returning (Logs.bind_get fun trace => Logs.ite (fun _ => answers_notReady logger) ?_)
  intro _
  refine (answers_logFileBarrier logger).bind fun status barred events hbarrier => ?_
  refine (logs_closeFile barred).bind fun closeStatus closed more hclose => ?_
  refine (logs_openAppend _ closed).mono fun result opened most hopen => ⟨?_, hopen.2 ?_⟩
  · exact hbarrier.1.append (hclose.1.append hopen.1)
  · rw [hclose.2, hbarrier.2]

theorem answers_logCommitAndClose (logger : AppLogger) : Answers logger logCommitAndClose := by
  refine Answers.returning (Logs.bind_get fun trace => Logs.ite (fun _ => answers_notReady logger) ?_)
  intro _
  refine (answers_logFileBarrier logger).bind fun status barred events hbarrier => ?_
  refine (logs_closeFile barred).bind fun closeStatus closed more hclose => Logs.pure ⟨?_, ?_⟩
  · simpa using hbarrier.1.append hclose.1
  · rw [hclose.2, hbarrier.2]

theorem sound_logReopenAppend : Sound logReopenAppend := by
  refine Sound.returning rfl (Sound.get.bind fun state => Sound.ite (fun _ => Sound.pure _) fun _ => ?_)
  exact fun logger => (logs_openAppend _ logger).mono fun _ _ _ h => h.1

/-- **Every call on an open log keeps the first failure.** -/
theorem LogCall.sound (logCall : LogCall) : Sound logCall.exec := by
  cases logCall with
  | setVerbose on =>
      refine Sound.bind (Sound.updateLogger ?_) fun _ => Sound.pure _
      exact fun _ => rfl
  | print text => exact Sound.returning rfl (sound_logVPrintInternal _ _)
  | verbose text =>
      refine Sound.returning rfl (Sound.get.bind fun state => ?_)
      exact Sound.ite (fun _ => Sound.pure _) fun _ => sound_logVPrintInternal _ _
  | printBestEffort text => exact Sound.returning rfl (sound_logVPrintInternal _ _)
  | flush => exact sound_logFlush
  | fileBarrier => exact Answers.sound answers_logFileBarrier
  | beginDurableFileFirst => exact sound_logBeginDurableFileFirst
  | commitAndReopen => exact Answers.sound answers_logCommitAndReopen
  | commitAndClose => exact Answers.sound answers_logCommitAndClose
  | reopenAppend => exact sound_logReopenAppend

end CsmVgaSelector
