import CsmVgaSelector.Selector.UefiMain

/-!
# The parts of a boot

Most of a boot only logs and asks the firmware. What a log call leaves alone, all of these parts leave
alone.
-/

namespace CsmVgaSelector

open Halting SelectorProg

section

variable {I H : SelectorState → Prop}

theorem preserves_service : Preserves I H service := Preserves.call.bind fun _ => Preserves.pure _

theorem wp_bind_service {α : Type} {k : EfiStatus → SelectorProg α} {Q : α → SelectorState → Prop}
    {state : SelectorState} (hk : ∀ status, Wp (fun _ => True) (k status) Q H state) :
    Wp (fun _ => True) (service >>= k) Q H state :=
  wp_bind.mpr (Wp.bind_call fun answer _ => hk answer.status)

/-! ### The marker file -/

theorem preserves_matchingHandles (count : Nat) : Preserves I H (matchingHandles count) := by
  induction count with
  | zero => exact Preserves.pure 0
  | succ count ih => exact Preserves.call.bind fun _ => ih.bind fun _ => Preserves.pure _

theorem preserves_openMarker : Preserves I H openMarker := by
  refine Preserves.call.bind fun _ => Preserves.ite (fun _ => Preserves.pure _) fun _ => ?_
  refine (preserves_matchingHandles _).bind fun _ =>
    Preserves.ite (fun _ => Preserves.pure _) fun _ => ?_
  refine preserves_service.bind fun _ => Preserves.ite (fun _ => Preserves.pure _) fun _ => ?_
  refine preserves_service.bind fun _ => Preserves.ite (fun _ => Preserves.pure _) fun _ => ?_
  exact preserves_service.bind fun _ => Preserves.pure _

theorem preserves_readExact : Preserves I H readExact := by
  refine preserves_service.bind fun _ => Preserves.ite (fun _ => Preserves.pure _) fun _ => ?_
  refine Preserves.call.bind fun _ => Preserves.ite (fun _ => Preserves.pure _) fun _ => ?_
  refine Preserves.ite (fun _ => Preserves.pure _) fun _ => Preserves.call.bind fun _ => ?_
  exact Preserves.ite (fun _ => Preserves.pure _) fun _ => Preserves.pure _

theorem preserves_writeExact (bytes : Bytes) : Preserves I H (writeExact bytes) := by
  refine preserves_service.bind fun _ => Preserves.ite (fun _ => Preserves.pure _) fun _ => ?_
  refine Preserves.call.bind fun _ => Preserves.ite (fun _ => Preserves.pure _) fun _ => ?_
  refine Preserves.ite (fun _ => Preserves.pure _) fun _ => ?_
  refine preserves_service.bind fun _ => Preserves.ite (fun _ => Preserves.pure _) fun _ => ?_
  refine preserves_readExact.bind fun _ => ?_
  exact Preserves.ite (fun _ => Preserves.pure _) fun _ => Preserves.pure _

theorem preserves_closeMarker (opened : OpenMarker) (status : EfiStatus) :
    Preserves I H (closeMarker opened status) := by
  have hclose : ∀ isOpen status, Preserves I H (closeIf isOpen status) := by
    intro isOpen status
    refine Preserves.ite (fun _ => Preserves.pure _) fun _ => ?_
    exact preserves_service.bind fun _ => Preserves.pure _
  exact (hclose _ _).bind fun _ => hclose _ _

theorem preserves_tickUntil {α : Type} {tick : SelectorProg (Option α)} (h : Preserves I H tick)
    (ticks : Nat) : Preserves I H (tickUntil tick ticks) := by
  induction ticks with
  | zero => exact Preserves.pure none
  | succ ticks ih =>
      refine h.bind fun result => ?_
      cases result with
      | none => exact ih
      | some value => exact Preserves.pure _

end

/-! ### Logging -/

/-- A property of the state that every log call keeps. -/
structure LogKeeps (I H : SelectorState → Prop) : Prop where
  log : ∀ logCall, Preserves I H (log logCall)
  halts : ∀ s, I s → H s
  pending : ∀ s pending, I s → I { s with recoveryPending := pending }

namespace LogKeeps

variable {I H : SelectorState → Prop}

theorem logAll (h : LogKeeps I H) (logCalls : List LogCall) : Preserves I H (logAll logCalls) := by
  induction logCalls with
  | nil => exact Preserves.pure ()
  | cons logCall rest ih => exact (h.log logCall).bind fun _ => ih

theorem stage (h : LogKeeps I H) : Preserves I H stage :=
  Preserves.call.bind fun _ => (h.logAll _).bind fun _ => Preserves.pure _

theorem part (h : LogKeeps I H) : Preserves I H part := h.stage.bind fun _ => Preserves.pure _

theorem phase (h : LogKeeps I H) (code : String) : Preserves I H (phase code) :=
  (h.log _).bind fun _ => (h.log _).bind fun _ => Preserves.pure _

/-- Nothing runs behind a halt. -/
theorem wp_bootReportHalt {α : Type} (h : LogKeeps I H) (code : String) {Q : α → SelectorState → Prop}
    {state : SelectorState} (hstate : I state) :
    Wp (fun _ => True) (bootReportHalt code) Q H state :=
  (h.log _ state hstate).bind fun _ s hs => (h.log _ s hs).bind fun _ s' hs' => h.halts s' hs'

theorem bootReportHalt {α : Type} (h : LogKeeps I H) (code : String) :
    Preserves I H (bootReportHalt code : SelectorProg α) := fun _ hs => h.wp_bootReportHalt code hs

theorem orHalt (h : LogKeeps I H) (code : String) {step : SelectorProg EfiStatus}
    (hstep : Preserves I H step) : Preserves I H (orHalt code step) :=
  hstep.bind fun _ => Preserves.ite (fun _ => h.bootReportHalt _) fun _ => Preserves.pure _

theorem undoneAndHalted (h : LogKeeps I H) (code : String) {step undo : SelectorProg EfiStatus}
    (hstep : Preserves I H step) (hundo : Preserves I H undo) :
    Preserves I H (undoneAndHalted code step undo) := by
  refine hstep.bind fun _ => Preserves.ite (fun _ => ?_) fun _ => Preserves.pure _
  exact hundo.bind fun _ => h.bootReportHalt _

theorem logBehindBarrier (h : LogKeeps I H) (text : String) : Preserves I H (logBehindBarrier text) :=
  (h.log _).bind fun _ => Preserves.ite (fun _ => Preserves.pure _) fun _ => h.log _

theorem preflight (h : LogKeeps I H) (autoBoot : Bool) : Preserves I H (preflight autoBoot) := by
  have hplan : Preserves I H nativeCsmVgaRuntimePlanBuild :=
    h.stage.bind fun _ => Preserves.bind (Preserves.update fun s hs => h.pending s _ hs) fun _ =>
      Preserves.pure _
  refine hplan.bind fun _ => Preserves.ite (fun _ => Preserves.pure _) fun _ => ?_
  refine h.part.bind fun _ => Preserves.ite (fun _ => Preserves.pure _) fun _ => ?_
  refine h.part.bind fun _ => h.part.bind fun _ => h.part.bind fun _ => h.part.bind fun _ => ?_
  refine Preserves.call.bind fun _ => Preserves.ite (fun _ => ?_) fun _ => ?_
  · exact (h.log _).bind fun _ => Preserves.pure _
  refine (h.phase _).bind fun _ => Preserves.ite (fun _ => ?_) fun _ => ?_
  · exact (h.log _).bind fun _ => Preserves.pure _
  exact preserves_service.bind fun _ =>
    Preserves.ite (fun _ => Preserves.pure _) fun _ => Preserves.pure _

theorem handOff (h : LogKeeps I H) : Preserves I H handOff := by
  have hverified : Preserves I H verified := Preserves.call.bind fun _ => Preserves.pure _
  refine (h.phase _).bind fun _ => (h.phase _).bind fun _ => ?_
  refine (h.undoneAndHalted _ h.part h.part).bind fun _ => ?_
  refine (h.phase _).bind fun _ => (h.phase _).bind fun _ => ?_
  refine (h.undoneAndHalted _ preserves_service h.part).bind fun _ => ?_
  refine (h.phase _).bind fun _ => (h.orHalt _ preserves_service).bind fun _ => ?_
  refine (h.phase _).bind fun _ => (h.phase _).bind fun _ => ?_
  refine (h.orHalt _ hverified).bind fun _ => ?_
  refine (h.phase _).bind fun _ => (h.phase _).bind fun _ => ?_
  refine (h.phase _).bind fun _ => (h.phase _).bind fun _ => ?_
  refine (h.orHalt _ preserves_service).bind fun _ => ?_
  exact (h.orHalt _ hverified).bind fun _ => h.phase _

theorem bbsTransaction (h : LogKeeps I H) : Preserves I H bbsTransaction := by
  refine h.part.bind fun _ => Preserves.ite (fun _ => Preserves.pure _) fun _ => ?_
  refine h.part.bind fun _ => Preserves.ite (fun _ => Preserves.pure _) fun _ => ?_
  exact h.part

/-- Up to the final commit. -/
theorem wp_legacyBoot {α : Type} (h : LogKeeps I H)
    (hcommit : ∀ s, I s → Wp (fun _ => True)
      (CsmVgaSelector.orHalt "NCV_BOOT_FAIL_FINAL_LOG_COMMIT" (SelectorProg.log .commitAndClose) >>= fun _ =>
        reach .legacyBoot) (fun _ => I) H s) :
    Preserves I H (legacyBoot : SelectorProg α) := by
  refine (h.phase _).bind fun _ => ?_
  refine (h.undoneAndHalted _ h.bbsTransaction h.part).bind fun _ => ?_
  refine (h.phase _).bind fun _ => (h.orHalt _ preserves_service).bind fun _ => ?_
  refine (h.phase _).bind fun _ => (h.phase _).bind fun _ => ?_
  refine (h.phase _).bind fun _ => (h.log _).bind fun _ => fun s hs => ?_
  have hboot := hcommit s hs
  rw [Halting.wp_bind] at hboot
  refine hboot.bind fun _ s' hs' => hs'.bind fun _ => ?_
  refine Preserves.bind preserves_service fun _ => (h.log _).bind fun _ => ?_
  exact (h.log _).bind fun _ => h.bootReportHalt _

end LogKeeps

end CsmVgaSelector
