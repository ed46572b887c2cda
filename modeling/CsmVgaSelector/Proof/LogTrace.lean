import CsmVgaSelector.Lib.Admits
import CsmVgaSelector.Log.Commit

/-!
# Log programs and their trace

A log program reads and changes the logger and only adds to the trace, so what it does is said of the logger
it starts with, the logger it ends with and the events it adds.
-/

namespace CsmVgaSelector

/-- The program, started with this logger, ends with a value, a logger and more events that satisfy
`Q`. -/
def Logs {α : Type} (m : LogProg α) (Q : α → AppLogger → List LogEvent → Prop) (logger : AppLogger) :
    Prop :=
  ∀ trace, Prog.Wp (fun _ => True) m
    (fun value s => ∃ events, s.trace = trace ++ events ∧ Q value s.logger events) ⟨logger, trace⟩

namespace Logs

variable {α β : Type} {Q : α → AppLogger → List LogEvent → Prop} {logger : AppLogger}

theorem pure {value : α} (h : Q value logger []) : Logs (Pure.pure value) Q logger := fun trace =>
  ⟨[], by simp, h⟩

theorem bind {m : LogProg β} {k : β → LogProg α} {P : β → AppLogger → List LogEvent → Prop}
    (hm : Logs m P logger)
    (hk : ∀ value logger' events, P value logger' events →
      Logs (k value) (fun result logger'' more => Q result logger'' (events ++ more)) logger') :
    Logs (m >>= k) Q logger := by
  intro trace
  refine (hm trace).bind fun value s hs => ?_
  obtain ⟨events, htrace, hP⟩ := hs
  have hrest := hk value s.logger events hP (trace ++ events)
  rw [← htrace] at hrest
  refine hrest.mono fun result s' hs' => ?_
  obtain ⟨more, hmore, hQ⟩ := hs'
  exact ⟨events ++ more, by rw [hmore, htrace, List.append_assoc], hQ⟩

theorem mono {m : LogProg α} {P : α → AppLogger → List LogEvent → Prop} (hm : Logs m P logger)
    (h : ∀ value logger' events, P value logger' events → Q value logger' events) :
    Logs m Q logger := fun trace =>
  (hm trace).mono fun value s hs => by
    obtain ⟨events, htrace, hP⟩ := hs
    exact ⟨events, htrace, h value s.logger events hP⟩

theorem bind_bind {γ : Type} {m : LogProg γ} {k : γ → LogProg β} {k' : β → LogProg α}
    (h : Logs (m >>= fun value => k value >>= k') Q logger) : Logs (m >>= k >>= k') Q logger :=
  fun trace => by simpa only [Prog.wp_bind] using h trace

theorem ite {c : Prop} [Decidable c] {m m' : LogProg α} (hm : c → Logs m Q logger)
    (hm' : ¬ c → Logs m' Q logger) : Logs (if c then m else m') Q logger := by
  split
  · exact hm ‹_›
  · exact hm' ‹_›

/-- One call of a service. -/
theorem bind_call {k : ServiceAnswer → LogProg α} (hk : ∀ answer, Logs (k answer) Q logger) :
    Logs (Prog.call >>= k) Q logger := fun trace answer _ => hk answer trace

/-- The state is read, of which only the logger is known. -/
theorem bind_get {k : LogState → LogProg α} (hk : ∀ trace, Logs (k ⟨logger, trace⟩) Q logger) :
    Logs (get >>= k) Q logger := fun trace => hk trace trace

theorem bind_emit {event : LogEvent} {k : Unit → LogProg α}
    (hk : Logs (k ()) (fun value logger' more => Q value logger' (event :: more)) logger) :
    Logs (AppLogger.emit event >>= k) Q logger := by
  intro trace
  rw [AppLogger.emit, Prog.wp_bind, Prog.wp_modify]
  refine (hk (trace ++ [event])).mono fun value s hs => ?_
  obtain ⟨more, htrace, hQ⟩ := hs
  exact ⟨event :: more, by simp [htrace], hQ⟩

theorem bind_updateLogger {f : AppLogger → AppLogger} {k : Unit → LogProg α}
    (hk : Logs (k ()) Q (f logger)) : Logs (AppLogger.updateLogger f >>= k) Q logger := fun trace =>
  hk trace

end Logs

/-! ### Errors -/

@[simp] theorem recordFirstError_isError (current candidate : EfiStatus) :
    (recordFirstError current candidate).isError = (current.isError || candidate.isError) := by
  unfold recordFirstError
  cases hcurrent : current.isError <;> cases hcandidate : candidate.isError <;> simp [*]

@[simp] theorem isError_invalidParameter : EfiStatus.invalidParameter.isError = true := rfl

@[simp] theorem isError_deviceError : EfiStatus.deviceError.isError = true := rfl

@[simp] theorem isError_outOfResources : EfiStatus.outOfResources.isError = true := rfl

@[simp] theorem isError_notReady : EfiStatus.notReady.isError = true := rfl

section

variable {α : Type} {logger : AppLogger} {Q : α → AppLogger → List LogEvent → Prop}

namespace Logs

theorem bind_recordFileError {status : EfiStatus} {k : Unit → LogProg α}
    (hk : Logs (k ()) Q
      { logger with firstFileError := recordFirstError logger.firstFileError status }) :
    Logs (AppLogger.recordFileError status >>= k) Q logger :=
  bind_updateLogger hk

theorem bind_recordWriteError {status : EfiStatus} {k : Unit → LogProg α}
    (hk : Logs (k ()) Q
      { logger with firstWriteError := recordFirstError logger.firstWriteError status }) :
    Logs (AppLogger.recordWriteError status >>= k) Q logger :=
  bind_updateLogger hk

theorem bind_recordFault {status : EfiStatus} {k : Unit → LogProg α}
    (hk : Logs (k ()) (fun value logger' more => Q value logger' (.fault status :: more))
      { logger with firstFileError := recordFirstError logger.firstFileError status }) :
    Logs (AppLogger.recordFault status >>= k) Q logger :=
  bind_bind (bind_emit (bind_recordFileError hk))

theorem bind_fileOperation {event : EfiStatus → LogEvent} {k : EfiStatus → LogProg α}
    (hk : ∀ status,
      Logs (k status) (fun value logger' more => Q value logger' (event status :: more)) logger) :
    Logs (AppLogger.fileOperation event >>= k) Q logger :=
  bind_bind (bind_call fun answer => bind_bind (bind_emit (hk answer.status)))

theorem bind_allocatePool {k : Bool → LogProg α} (hk : ∀ granted, Logs (k granted) Q logger) :
    Logs (AppLogger.allocatePool >>= k) Q logger :=
  bind_bind (bind_call fun answer => hk answer.granted)

theorem bind_systemConsolePresent {k : Bool → LogProg α}
    (hk : ∀ systemConsole, Logs (k systemConsole) Q logger) :
    Logs (AppLogger.systemConsolePresent >>= k) Q logger :=
  bind_bind (bind_call fun _ => hk _)

theorem bind_noSink {mirrorDespiteFileFailure : Bool} {k : Bool → LogProg α}
    (hk : ∀ missing, Logs (k missing) Q logger) :
    Logs (AppLogger.noSink mirrorDespiteFileFailure >>= k) Q logger :=
  bind_bind (bind_get fun _ => bind_bind (bind_systemConsolePresent fun _ => hk _))

end Logs

end

/-! ### Writing -/

/-- The events of a loop of writes, and what it returns. -/
inductive Streamed (event : EfiStatus → Bytes → LogEvent) :
    Bytes → List LogEvent → EfiStatus × Bool → Prop where
  | done : Streamed event [] [] (.success, true)
  | failed {data : Bytes} {status : EfiStatus} (h : status.isError = true) :
      Streamed event data [event status []] (status, true)
  | stuck {data : Bytes} {status : EfiStatus} (h : status.isError = false) :
      Streamed event data [event status []] (.deviceError, false)
  | piece {data : Bytes} {status : EfiStatus} {written : Nat} {events : List LogEvent}
      {result : EfiStatus × Bool} (h : status.isError = false)
      (hrest : Streamed event (data.drop written) events result) :
      Streamed event data (event status (data.take written) :: events) result

theorem logs_writeAll (event : EfiStatus → Bytes → LogEvent) (data : Bytes) (logger : AppLogger) :
    Logs (AppLogger.writeAll event data)
      (fun result logger' events => logger' = logger ∧ Streamed event data events result) logger := by
  induction hlength : data.length using Nat.strong_induction_on generalizing data with
  | _ length ih =>
      rw [AppLogger.writeAll]
      refine Logs.ite (fun hempty => Logs.pure ⟨rfl, hempty ▸ .done⟩) fun hsome => ?_
      refine Logs.bind_call fun answer => Logs.ite (fun herror => ?_) fun herror => ?_
      · exact Logs.bind_emit (Logs.pure ⟨rfl, .failed herror⟩)
      · have hstatus : answer.status.isError = false := by simpa using herror
        refine Logs.bind_emit ?_
        split
        case isTrue hzero =>
          rw [hzero]
          exact Logs.pure ⟨rfl, .stuck hstatus⟩
        case isFalse hzero =>
          have hshorter : (data.drop answer.written).length < length := by
            have := List.length_pos_iff.mpr hsome
            rw [List.length_drop]
            omega
          refine (ih _ hshorter _ rfl).mono fun result logger' events hresult => ?_
          obtain ⟨hlogger, hwritten⟩ := hresult
          exact ⟨hlogger, .piece hstatus hwritten⟩

/-! ### Showing -/

def LogEvent.isShown : LogEvent → Bool
  | console _ => true
  | serial _ => true
  | _ => false

/-- The logger is as it was, and whatever has happened was shown. -/
def Shows (logger logger' : AppLogger) (events : List LogEvent) : Prop :=
  logger' = logger ∧ ∀ event ∈ events, event.isShown = true

section

variable {logger : AppLogger}

theorem Shows.refl : Shows logger logger [] := ⟨rfl, by simp⟩

theorem Shows.trans {logger' logger'' : AppLogger} {events more : List LogEvent}
    (h : Shows logger logger' events) (h' : Shows logger' logger'' more) :
    Shows logger logger'' (events ++ more) := by
  refine ⟨h'.1.trans h.1, fun event hevent => ?_⟩
  rcases List.mem_append.mp hevent with hmem | hmem
  · exact h.2 event hmem
  · exact h'.2 event hmem

theorem Streamed.shows {data : Bytes} {events : List LogEvent} {result : EfiStatus × Bool}
    (h : Streamed (fun _ piece => .serial piece) data events result) :
    ∀ event ∈ events, event.isShown = true := by
  induction h with
  | done => simp
  | failed => simp [LogEvent.isShown]
  | stuck => simp [LogEvent.isShown]
  | piece _ _ ih => simpa [LogEvent.isShown] using ih

open AppLogger

theorem logs_writeSerialAll (data : Bytes) :
    Logs (writeSerialAll data) (fun _ logger' events => Shows logger logger' events) logger := by
  refine (logs_writeAll _ data logger).bind fun result logger' events h => ?_
  obtain ⟨rfl, hwritten⟩ := h
  exact Logs.pure ⟨rfl, by simpa using hwritten.shows⟩

theorem logs_outputStringTo (console : Option Nat) (already : List (Option Nat)) (text : Text) :
    Logs (outputStringTo console already text)
      (fun _ logger' events => Shows logger logger' events) logger := by
  refine Logs.ite (fun _ => Logs.pure Shows.refl) fun _ => ?_
  exact Logs.bind_emit (Logs.bind_call fun answer => Logs.pure ⟨rfl, by simp [LogEvent.isShown]⟩)

theorem logs_writeConsoleTargets (text : Text) (includeCurrentSystemConsoles : Bool) :
    Logs (writeConsoleTargets text includeCurrentSystemConsoles)
      (fun _ logger' events => Shows logger logger' events) logger := by
  refine Logs.bind_call fun system => Logs.bind_get fun trace => ?_
  refine (logs_outputStringTo _ _ _).bind fun status logger' events hconsole => ?_
  refine Logs.ite (fun _ => Logs.pure (hconsole.trans Shows.refl)) fun _ => ?_
  refine (logs_outputStringTo _ _ _).bind fun outStatus logger'' more hout => ?_
  refine (logs_outputStringTo _ _ _).bind fun errStatus final most herr => ?_
  exact Logs.pure (hconsole.trans (hout.trans (herr.trans Shows.refl)))

theorem logs_showRecord (text : Text) (mirrorDespiteFileFailure : Bool) :
    Logs (showRecord text mirrorDespiteFileFailure)
      (fun _ logger' events => Shows logger logger' events) logger := by
  refine (logs_writeConsoleTargets _ _).bind fun status logger' events hconsole => ?_
  refine Logs.bind_get fun trace => ?_
  refine Logs.ite (fun _ => Logs.pure (hconsole.trans Shows.refl)) fun _ => ?_
  refine (logs_writeSerialAll _).bind fun serialStatus logger'' more hserial => ?_
  exact Logs.pure (hconsole.trans (hserial.trans Shows.refl))

end

end CsmVgaSelector
