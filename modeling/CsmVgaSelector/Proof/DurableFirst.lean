import CsmVgaSelector.Proof.LogTrace

/-!
# What is shown is durable

While the log is file first, a record is shown on the console and the serial port when the file holds it
and has been flushed. That is so on every path of the record writer but one: without a file and without a
serial port the record is not converted, and the path for the console alone does not look at
`DurableFileFirst`.
-/

namespace CsmVgaSelector

open AppLogger

/-- What the event adds to the file. -/
def LogEvent.stored : LogEvent → Bytes
  | write status data => if status.isError then [] else data
  | _ => []

/-- All of the record is in the file, and the file has been flushed since. -/
def StoredAndFlushed (record : Bytes) (events : List LogEvent) : Prop :=
  ∃ writes status rest, events = writes ++ .flush status :: rest ∧ status.isError = false ∧
    writes.flatMap LogEvent.stored = record

/-- Whatever is shown is shown behind the whole record. -/
def DurableFirst (record : Bytes) (events : List LogEvent) : Prop :=
  Admits (fun before event => event.isShown = true → StoredAndFlushed record before) events

def Unshown (events : List LogEvent) : Prop := ∀ event ∈ events, event.isShown = false

/-! ### Runs -/

/-- One action on the logger. -/
structure LogTransition where
  before : LogState
  action : LogAction
  answers : Nat → ServiceAnswer

namespace LogTransition

def after (transition : LogTransition) : LogState :=
  (transition.action.exec.run transition.answers transition.before).2

/-- What has happened meanwhile. -/
def events (transition : LogTransition) : List LogEvent :=
  transition.after.trace.drop transition.before.trace.length

/-- The text printed through `LogPrint`, or through `LogVerbose`. -/
def printed? (transition : LogTransition) : Option Text :=
  match transition.action with
  | .call (.print text) => some text
  | .call (.verbose text) => if transition.before.logger.verbose then some text else none
  | _ => none

/-- A record printed while the log is file first. -/
def recordFileFirst? (transition : LogTransition) : Option Text :=
  if transition.before.logger.durableFileFirst then transition.printed? else none

/-- What a file-first log promises of the transition. -/
def ShownDurably (transition : LogTransition) : Prop :=
  ∀ text, transition.recordFileFirst? = some text → DurableFirst (unicodeToUtf8 text) transition.events

/-- A file-first record can be formatted, and there is a console, but neither a file nor a serial port. -/
def consoleAlone (transition : LogTransition) : Bool :=
  let logger := transition.before.logger
  transition.recordFileFirst?.isSome && (transition.answers 0).granted && logger.console.isSome &&
    !logger.file && !logger.serial

end LogTransition

/-- The transitions of a run. -/
def logRun : LogState → List (LogAction × (Nat → ServiceAnswer)) → List LogTransition
  | _, [] => []
  | before, (action, answers) :: rest =>
      let transition : LogTransition := { before, action, answers }
      transition :: logRun transition.after rest

/-! ### Events -/

theorem StoredAndFlushed.append {record : Bytes} {events : List LogEvent}
    (h : StoredAndFlushed record events) (more : List LogEvent) :
    StoredAndFlushed record (events ++ more) := by
  obtain ⟨writes, status, rest, rfl, hstatus, hwrites⟩ := h
  exact ⟨writes, status, rest ++ more, by simp, hstatus, hwrites⟩

theorem Unshown.nil : Unshown [] := by simp [Unshown]

theorem Unshown.append {first second : List LogEvent} (hfirst : Unshown first)
    (hsecond : Unshown second) : Unshown (first ++ second) := by
  intro event hevent
  rcases List.mem_append.mp hevent with hmem | hmem
  · exact hfirst event hmem
  · exact hsecond event hmem

theorem Unshown.durableFirst {record : Bytes} {events : List LogEvent} (h : Unshown events) :
    DurableFirst record events := by
  rintro before event after rfl hshown
  have hevent : event.isShown = false := h event (by simp)
  rw [hshown] at hevent
  contradiction

/-- Behind a record that is durable anything may be shown. -/
theorem StoredAndFlushed.durableFirst {record : Bytes} {first second : List LogEvent}
    (hfirst : Unshown first) (hstored : StoredAndFlushed record first) :
    DurableFirst record (first ++ second) :=
  hfirst.durableFirst.append fun before _ _ _ _ => hstored.append before

theorem DurableFirst.append {record : Bytes} {first second : List LogEvent}
    (hfirst : DurableFirst record first) (hsecond : Unshown second) :
    DurableFirst record (first ++ second) := by
  refine Admits.append hfirst fun before event after hsplit hshown => ?_
  have hevent : event.isShown = false := hsecond event (by simp [hsplit])
  rw [hshown] at hevent
  contradiction

/-! ### The record writer -/

theorem Streamed.unshown {data : Bytes} {events : List LogEvent} {result : EfiStatus × Bool}
    (h : Streamed .write data events result) : Unshown events := by
  induction h with
  | done => exact Unshown.nil
  | failed => simp [Unshown, LogEvent.isShown]
  | stuck => simp [Unshown, LogEvent.isShown]
  | piece _ _ ih => simpa [Unshown, LogEvent.isShown] using ih

/-- A loop that ends well has written everything. -/
theorem Streamed.stored {data : Bytes} {events : List LogEvent} {result : EfiStatus × Bool}
    (h : Streamed .write data events result) (hresult : result.1.isError = false) :
    events.flatMap LogEvent.stored = data := by
  induction h with
  | done => rfl
  | failed herror => simp [herror] at hresult
  | stuck => simp [EfiStatus.isError] at hresult
  | piece hstatus hrest ih =>
      rw [List.flatMap_cons, ih hresult]
      simp [LogEvent.stored, hstatus]

section

variable {logger : AppLogger}

/-- What a step of the writer leaves while the file keeps no failure. -/
def Stores (record : Bytes) (logger' : AppLogger) (events : List LogEvent) : Prop :=
  Unshown events ∧ (logger'.firstFileError.isError = false → events.flatMap LogEvent.stored = record)

theorem logs_writeFileAll (data : Bytes) :
    Logs (writeFileAll data)
      (fun status logger' events => Stores data logger' events ∧
        (logger'.firstFileError.isError = false → status.isError = false)) logger := by
  refine Logs.bind_get fun trace => Logs.ite (fun _ => ?_) fun _ => ?_
  · exact Logs.bind_recordFault (Logs.pure (by simp [Stores, Unshown, LogEvent.isShown]))
  · refine (logs_writeAll .write data logger).bind fun result logger' events h => ?_
    obtain ⟨rfl, hwritten⟩ := h
    have hevents : Unshown events := hwritten.unshown
    have hstored := hwritten.stored
    refine Logs.ite (fun _ => Logs.bind_recordFileError (Logs.pure ?_)) fun _ =>
      Logs.bind_recordFault (Logs.pure ?_)
    · simp +contextual [Stores, hevents, hstored]
    · refine ⟨⟨hevents.append (by simp [Unshown, LogEvent.isShown]), fun hfirst => ?_⟩, ?_⟩
      all_goals simp_all [LogEvent.stored]

theorem logs_writeDurably (data : Bytes) :
    Logs (writeDurably data)
      (fun _ logger' events => Unshown events ∧
        (logger'.firstFileError.isError = false → StoredAndFlushed data events)) logger := by
  refine (logs_writeFileAll data).bind fun status logger' events h => ?_
  obtain ⟨⟨hunshown, hstored⟩, hstatus⟩ := h
  refine Logs.ite (fun herror => Logs.pure ⟨hunshown.append Unshown.nil, fun hfirst => ?_⟩) fun _ => ?_
  · rw [hstatus hfirst] at herror
    contradiction
  · refine Logs.bind_fileOperation fun flushStatus => Logs.bind_recordFileError (Logs.pure ⟨?_, ?_⟩)
    · exact hunshown.append (by simp [Unshown, LogEvent.isShown])
    · intro hfirst
      simp only [recordFirstError_isError, Bool.or_eq_false_iff] at hfirst
      exact ⟨events, flushStatus, [], rfl, hfirst.2, hstored hfirst.1⟩

theorem logs_printDurableFileFirst (text : Text) :
    Logs (printDurableFileFirst text false)
      (fun _ _ events => DurableFirst (unicodeToUtf8 text) events) logger := by
  refine (logs_writeDurably _).bind fun status logger' events h => ?_
  obtain ⟨hunshown, hstored⟩ := h
  refine Logs.bind_get fun trace => Logs.ite (fun _ => ?_) fun hshow => ?_
  · exact Logs.pure (hunshown.append Unshown.nil).durableFirst
  · have hdurable : StoredAndFlushed (unicodeToUtf8 text) events := hstored (by simpa using hshow)
    refine (logs_showRecord _ _).bind fun shownStatus logger'' more _ => ?_
    exact Logs.pure (hdurable.durableFirst hunshown)

theorem logs_printUnconverted (text : Text) :
    Logs (printUnconverted text false) (fun _ _ events => Unshown events) logger := by
  have hfault : Unshown [.fault .outOfResources] := by simp [Unshown, LogEvent.isShown]
  refine Logs.bind_get fun trace => Logs.ite (fun _ => Logs.bind_recordFault ?_) fun _ => ?_
  · exact Logs.bind_systemConsolePresent fun _ => Logs.bind_get fun _ =>
      Logs.ite (fun h => by simp at h) fun _ => Logs.pure hfault
  · exact Logs.bind_systemConsolePresent fun _ => Logs.bind_get fun _ =>
      Logs.ite (fun h => by simp at h) fun _ => Logs.pure Unshown.nil

theorem logs_printUnformatted :
    Logs printUnformatted (fun _ _ events => Unshown events) logger := by
  refine Logs.bind_recordWriteError (Logs.bind_get fun trace => Logs.ite (fun _ => ?_) fun _ => ?_)
  · exact Logs.bind_recordFault (Logs.pure (by simp [Unshown, LogEvent.isShown]))
  · exact Logs.pure Unshown.nil

/-- With a file or a serial port, or with nothing to show the record on. -/
theorem logs_printToSinks (text : Text) (hdurable : logger.durableFileFirst = true)
    (hsinks : logger.file = true ∨ logger.serial = true ∨ logger.console = none) :
    Logs (printToSinks text false)
      (fun _ _ events => DurableFirst (unicodeToUtf8 text) events) logger := by
  refine Logs.bind_get fun trace => Logs.ite (fun _ => ?_) fun hnone => ?_
  · refine Logs.bind_allocatePool fun granted => Logs.ite (fun _ => ?_) fun _ => ?_
    · exact (logs_printUnconverted text).mono fun _ _ _ h => h.durableFirst
    · exact Logs.ite (fun _ => logs_printDurableFileFirst text) fun h => absurd hdurable h
  · have hconsole : logger.console = none := by
      simp only [Bool.or_eq_true, not_or, Bool.not_eq_true] at hnone
      simpa [hnone] using hsinks
    refine Logs.bind_systemConsolePresent fun _ => Logs.ite (fun hsome => ?_) fun _ => ?_
    · simp [hconsole] at hsome
    · exact Logs.pure Unshown.nil.durableFirst

/-- The record writer behind its first call. -/
def logVPrintFormatted (text : Text) (mirrorDespiteFileFailure formatted : Bool) : LogProg EfiStatus := do
  if !formatted then printUnformatted
  else
    let sinkStatus ← printToSinks text mirrorDespiteFileFailure
    let status := if ← noSink mirrorDespiteFileFailure then .unsupported else sinkStatus
    recordWriteError status
    return status

theorem logs_logVPrintFormatted (text : Text) (hdurable : logger.durableFileFirst = true)
    (hsinks : logger.file = true ∨ logger.serial = true ∨ logger.console = none) :
    Logs (logVPrintFormatted text false true)
      (fun _ _ events => DurableFirst (unicodeToUtf8 text) events) logger := by
  refine (logs_printToSinks text hdurable hsinks).bind fun status logger' events h => ?_
  exact Logs.bind_noSink fun missing => Logs.bind_recordWriteError (Logs.pure (by simpa using h))

theorem logs_returning {call : LogCall} {body : LogProg EfiStatus} {record : Bytes}
    (h : Logs body (fun _ _ events => DurableFirst record events) logger) :
    Logs (returning call body) (fun _ _ events => DurableFirst record events) logger := by
  refine h.bind fun status logger' events hevents => Logs.bind_get fun trace => ?_
  exact Logs.bind_emit (Logs.pure (hevents.append (by simp [Unshown, LogEvent.isShown])))

end

/-! ### The path for the console alone -/

theorem run_logVPrintInternal (call : LogCall) (text : Text) (mirrorDespiteFileFailure : Bool)
    (answers : Nat → ServiceAnswer) (s : LogState) :
    (returning call (logVPrintInternal text mirrorDespiteFileFailure)).run answers s =
      (returning call
        (logVPrintFormatted text mirrorDespiteFileFailure (answers 0).granted)).run
          (fun n => answers (n + 1)) s :=
  rfl

theorem logVerbose_eq {text : Text} {s : LogState} (h : s.logger.verbose = true) :
    logVerbose text s = returning (.verbose text) (logVPrintInternal text false) s := by
  have hbody : (do if !(← get).logger.verbose then return .success
                   logVPrintInternal text false : LogProg EfiStatus) s =
      logVPrintInternal text false s := by
    show (if !s.logger.verbose then (Pure.pure .success : LogProg EfiStatus)
      else logVPrintInternal text false) s = _
    rw [h]
    rfl
  exact congrArg (· >>= _) hbody

section

variable {logger : AppLogger} {console : Nat}

theorem logs_writeConsole {text : Text} (hconsole : logger.console = some console) :
    Logs (writeConsoleTargets text false) (fun _ _ events => events = [.console text]) logger := by
  refine Logs.bind_call fun system => Logs.bind_get fun trace => ?_
  have houtput : Logs (outputStringTo logger.console [] text)
      (fun _ _ events => events = [.console text]) logger := by
    refine Logs.ite (fun hnone => ?_) fun _ => ?_
    · simp [hconsole] at hnone
    · exact Logs.bind_emit (Logs.bind_call fun answer => Logs.pure rfl)
  refine houtput.bind fun status logger' events h => Logs.ite (fun _ => Logs.pure ?_) fun h => ?_
  · simpa using h
  · simp at h

theorem logs_consoleAlone {call : LogCall} {text : Text} (hconsole : logger.console = some console)
    (hfile : logger.file = false) (hserial : logger.serial = false) :
    Logs (returning call (logVPrintFormatted text false true))
      (fun _ _ events => ∃ more, events = .console text :: more) logger := by
  have hshown : Logs (printToSinks text false) (fun _ _ events => events = [.console text]) logger := by
    refine Logs.bind_get fun trace => Logs.ite (fun hsink => ?_) fun _ => ?_
    · simp [hfile, hserial] at hsink
    · refine Logs.bind_systemConsolePresent fun _ => Logs.ite (fun _ => ?_) fun hnone => ?_
      · exact (logs_writeConsole hconsole).bind fun status logger' events h =>
          Logs.pure (by simpa using h)
      · simp [hconsole] at hnone
  have hwriter : Logs (logVPrintFormatted text false true)
      (fun _ _ events => events = [.console text]) logger := by
    refine hshown.bind fun status logger' events h => ?_
    exact Logs.bind_noSink fun missing => Logs.bind_recordWriteError (Logs.pure (by simpa using h))
  refine hwriter.bind fun status logger' events h => Logs.bind_get fun trace => ?_
  exact Logs.bind_emit (Logs.pure ⟨_, by rw [h]; rfl⟩)

end

theorem not_durableFirst_console {record : Bytes} {text : Text} {more : List LogEvent} :
    ¬ DurableFirst record (.console text :: more) := by
  intro h
  obtain ⟨writes, status, rest, hempty, -⟩ := h [] (.console text) more rfl rfl
  simp at hempty

/-! ### Transitions -/

namespace LogTransition

theorem events_of_logs {transition : LogTransition} {m : LogProg EfiStatus}
    {answers : Nat → ServiceAnswer} {P : List LogEvent → Prop}
    (hafter : transition.after = (m.run answers transition.before).2)
    (h : Logs m (fun _ _ events => P events) transition.before.logger) : P transition.events := by
  obtain ⟨events, htrace, hP⟩ := (h transition.before.trace).runAny answers
  have hevents : transition.events = events := by
    rw [LogTransition.events, hafter, show (m.run answers transition.before).2.trace = _ from htrace,
      List.drop_left]
  rwa [hevents]

/-- The program that a file-first record is printed with. -/
theorem exec_of_recordFileFirst? {transition : LogTransition} {text : Text}
    (h : transition.recordFileFirst? = some text) :
    transition.before.logger.durableFileFirst = true ∧
      (transition.action = .call (.print text) ∨
        transition.action = .call (.verbose text) ∧ transition.before.logger.verbose = true) := by
  obtain ⟨before, action, answers⟩ := transition
  simp only [recordFileFirst?, Option.ite_none_right_eq_some] at h
  refine ⟨h.1, ?_⟩
  have hprinted := h.2
  simp only [printed?] at hprinted
  split at hprinted
  · simp_all
  · simp_all
  · contradiction

/-- What a file-first record is printed with, once its text is formatted or not. -/
theorem after_of_recordFileFirst? {transition : LogTransition} {text : Text}
    (h : transition.recordFileFirst? = some text) :
    ∃ call, transition.after =
      ((returning call (logVPrintFormatted text false (transition.answers 0).granted)).run
        (fun n => transition.answers (n + 1)) transition.before).2 := by
  obtain ⟨-, hprint | ⟨hverbose, hon⟩⟩ := exec_of_recordFileFirst? h
  · refine ⟨.print text, ?_⟩
    rw [after, hprint, ← run_logVPrintInternal]
    rfl
  · refine ⟨.verbose text, ?_⟩
    rw [after, hverbose, ← run_logVPrintInternal]
    exact congrArg (fun program : Ask ServiceAnswer (EfiStatus × LogState) =>
      (program.run transition.answers).2) (logVerbose_eq hon)

/-- The record is shown durably unless the console is alone. -/
theorem shownDurably_iff (transition : LogTransition) :
    transition.ShownDurably ↔ transition.consoleAlone = false := by
  obtain hnone | ⟨text, htext⟩ := Option.eq_none_or_eq_some transition.recordFileFirst?
  · simp [ShownDurably, consoleAlone, hnone]
  obtain ⟨call, hafter⟩ := after_of_recordFileFirst? htext
  have hdurable := (exec_of_recordFileFirst? htext).1
  constructor
  · intro hshown
    by_contra halone
    simp only [consoleAlone, htext, Bool.not_eq_false, Bool.and_eq_true, Bool.not_eq_true',
      Option.isSome_iff_exists] at halone
    obtain ⟨⟨⟨⟨-, hgranted⟩, console, hconsole⟩, hfile⟩, hserial⟩ := halone
    rw [hgranted] at hafter
    obtain ⟨more, hmore⟩ :=
      events_of_logs hafter (logs_consoleAlone hconsole hfile hserial)
    have hordered := hshown text htext
    rw [hmore] at hordered
    exact not_durableFirst_console hordered
  · intro halone text' htext'
    obtain rfl : text = text' := by simpa [htext] using htext'
    refine events_of_logs hafter (logs_returning ?_)
    cases hgranted : (transition.answers 0).granted with
    | false => exact logs_printUnformatted.mono fun _ _ _ h => h.durableFirst
    | true =>
        refine logs_logVPrintFormatted text hdurable ?_
        by_contra hsinks
        simp only [not_or, Bool.not_eq_true] at hsinks
        obtain ⟨hfile, hserial, hconsole⟩ := hsinks
        have hsome := Option.isSome_iff_ne_none.mpr hconsole
        simp [consoleAlone, htext, hgranted, hfile, hserial, hsome] at halone

end LogTransition

/-- In every run of the logger what is shown of the records is durable, unless a record is printed where
the console is alone. -/
theorem shown_durably_iff (before : LogState) (steps : List (LogAction × (Nat → ServiceAnswer))) :
    (∀ transition ∈ logRun before steps, transition.ShownDurably) ↔
      ∀ transition ∈ logRun before steps, transition.consoleAlone = false :=
  forall₂_congr fun transition _ => transition.shownDurably_iff

/-- There is no serial port, the log is file first, and its file cannot be opened again. -/
def lostLog : List (LogAction × (Nat → ServiceAnswer)) :=
  [(.start true true (ofString "NativeCsmVgaBoot.log"), fun call =>
      if call = 0 then { conOut := some 0 }
      else if call = 1 then { status := .notFound }
      else { position := 3 }),
    (.call .beginDurableFileFirst, fun _ => {}),
    (.call .commitAndReopen, fun call => if call = 2 then { status := .deviceError } else {}),
    (.call (.print (ofString "NCV_BOOT_START\r\n")), fun _ => {})]

/-- The next record is shown although no file holds it. -/
theorem lostLog_not_shown_durably :
    ¬ ∀ transition ∈ logRun {} lostLog, transition.ShownDurably := by
  intro h
  have hall : (logRun {} lostLog).all (fun transition => !transition.consoleAlone) = true := by
    rw [List.all_eq_true]
    intro transition hmem
    simpa using transition.shownDurably_iff.mp (h transition hmem)
  exact absurd hall (by decide +kernel)

end CsmVgaSelector
