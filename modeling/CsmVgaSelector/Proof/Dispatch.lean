import CsmVgaSelector.Proof.PlanBuild
import CsmVgaSelector.Route.Dispatch

/-!
# Who holds the page of the dispatch table

At any time the program holds no page or the one that it remembers, whatever is called and however the firmware
answers, and a boot that has released its plan leaves none behind.
-/

namespace CsmVgaSelector.Dispatch

open Prog

variable {state : DispatchState}

/-- No page is held, or the one that is remembered. -/
inductive PageKept : DispatchState → Prop where
  | none : PageKept .start
  | one (address : Nat) : PageKept ⟨address, true, Holdings.empty.take address 1⟩

theorem wp_legacyDispatchRelease (h : PageKept state) :
    Wp (fun _ => True) legacyDispatchRelease (fun status state' => PageKept state' ∧
      (status.isError = false → state' = .start)) state := by
  refine Wp.bind_get ?_
  cases h with
  | none => exact Wp.pure ⟨.none, fun _ => rfl⟩
  | one address =>
      refine wp_bind.mpr (wp_call.mpr fun answer _ => ?_)
      cases herror : answer.status.isError with
      | true => exact Wp.pure ⟨.one address, fun h => by rw [herror] at h; cases h⟩
      | false =>
          refine wp_bind.mpr (wp_set.mpr (Wp.pure ?_))
          rw [Holdings.giveBack_take]
          exact ⟨.none, fun _ => rfl⟩

/-- The page is where the compatibility module can reach it, by these registers. -/
structure PageReached (state : DispatchState) : Prop where
  owned : state.owned = true
  low : dispatchLowest ≤ state.reserved
  high : state.reserved < dispatchEnd
  registers : (dispatchRegisters state.reserved).es.toNat * 16 + (dispatchRegisters state.reserved).bx.toNat =
    state.reserved

theorem dispatchRegisters_point {address : Nat} (h : address < dispatchEnd) :
    (dispatchRegisters address).es.toNat * 16 + (dispatchRegisters address).bx.toNat = address := by
  unfold dispatchEnd at h
  have hlow : address &&& 0x0F = address % 16 := Nat.and_two_pow_sub_one_eq_mod address 4
  rw [dispatchRegisters, UInt16.toNat_ofNat', UInt16.toNat_ofNat', hlow, Nat.shiftRight_eq_div_pow]
  omega

theorem wp_legacyDispatchReserve (h : PageKept state) :
    Wp (fun _ => True) legacyDispatchReserve (fun status state' => PageKept state' ∧
      (status = .success → PageReached state')) state := by
  refine Wp.bind_get ?_
  cases h with
  | one address => exact Wp.pure ⟨.one address, nofun⟩
  | none =>
      refine wp_bind.mpr (wp_call.mpr fun answer _ => Wp.ite (fun herror => ?_) fun _ => ?_)
      · exact Wp.pure ⟨.none, fun h => absurd h (EfiStatus.ne_success_of_isError herror)⟩
      · refine wp_bind.mpr (wp_set.mpr (Wp.ite (fun _ => ?_) fun hrange => ?_))
        · refine (wp_legacyDispatchRelease (.one answer.address)).bind fun status state' hreleased => ?_
          refine Wp.pure ⟨hreleased.1, fun hsuccess => ?_⟩
          split at hsuccess
          case isTrue herror => exact absurd hsuccess (EfiStatus.ne_success_of_isError herror)
          case isFalse => cases hsuccess
        · rw [not_or, not_lt, not_le] at hrange
          exact Wp.pure ⟨.one answer.address, fun _ =>
            ⟨rfl, hrange.1, hrange.2, dispatchRegisters_point hrange.2⟩⟩

/-- The firmware hands out a page only where it was asked for one. -/
def KeepsLimit (answer : PageAnswer) : Prop := answer.status.isError = false → answer.address ≤ dispatchMaxAddress

/-- All of a page within the limit is below the end of the memory in reach. -/
theorem wp_legacyDispatchReserve_within :
    Wp KeepsLimit legacyDispatchReserve (fun status state' => status = .success →
      state'.reserved + 0x1000 ≤ dispatchEnd) state := by
  refine Wp.bind_get (Wp.ite (fun _ => Wp.pure nofun) fun _ => ?_)
  refine wp_bind.mpr (wp_call.mpr fun answer hlimit => Wp.ite (fun herror => ?_) fun hgood => ?_)
  · exact Wp.pure fun h => absurd h (EfiStatus.ne_success_of_isError herror)
  · refine wp_bind.mpr (wp_set.mpr (Wp.ite (fun _ => ?_) fun _ => ?_))
    · refine Wp.bind (P := fun _ _ => True) (Ask.all_of_forall fun _ => trivial) fun status _ _ => ?_
      refine Wp.pure fun hsuccess => ?_
      split at hsuccess
      case isTrue herror => exact absurd hsuccess (EfiStatus.ne_success_of_isError herror)
      case isFalse => cases hsuccess
    · refine Wp.pure fun _ => ?_
      have hwithin := hlimit (Bool.not_eq_true _ ▸ hgood)
      dsimp only
      unfold dispatchMaxAddress at hwithin
      unfold dispatchEnd
      omega

theorem wp_nativeCsmVgaRuntimePlanRelease {dirty : Bool} {bootTargetStatus : EfiStatus} (h : PageKept state) :
    Wp (fun _ => True) (nativeCsmVgaRuntimePlanRelease dirty bootTargetStatus) (fun status state' =>
      PageKept state' ∧ (status.isError = false → state' = .start)) state := by
  refine Wp.ite (fun _ => Wp.pure ⟨h, nofun⟩) fun _ => ?_
  refine (wp_legacyDispatchRelease h).bind fun status state' hreleased => Wp.pure ⟨hreleased.1, fun hstatus => ?_⟩
  split at hstatus
  case isTrue herror => cases herror.symm.trans hstatus
  case isFalse => exact hreleased.2 hstatus

/-! ### Runs -/

/-- One call of the page's interface. -/
inductive DispatchCall where
  | reserve
  | release
  | planRelease (dirty : Bool) (bootTargetStatus : EfiStatus)

def DispatchCall.run : DispatchCall → DispatchProg EfiStatus
  | reserve => legacyDispatchReserve
  | release => legacyDispatchRelease
  | planRelease dirty bootTargetStatus => nativeCsmVgaRuntimePlanRelease dirty bootTargetStatus

def runCalls : List DispatchCall → DispatchProg Unit
  | [] => return ()
  | call :: calls => do
      let _ ← call.run
      runCalls calls

/-- What one call does. -/
theorem wp_dispatchCall {dispatchCall : DispatchCall} (h : PageKept state) :
    Wp (fun _ => True) dispatchCall.run (fun _ state' => PageKept state') state := by
  cases dispatchCall with
  | reserve => exact (wp_legacyDispatchReserve h).mono fun _ _ hkept => hkept.1
  | release => exact (wp_legacyDispatchRelease h).mono fun _ _ hkept => hkept.1
  | planRelease dirty bootTargetStatus => exact (wp_nativeCsmVgaRuntimePlanRelease h).mono fun _ _ hkept => hkept.1

theorem wp_runCalls {calls : List DispatchCall} (h : PageKept state) :
    Wp (fun _ => True) (runCalls calls) (fun _ state' => PageKept state') state := by
  induction calls generalizing state with
  | nil => exact Wp.pure h
  | cons dispatchCall calls ih => exact (wp_dispatchCall h).bind fun _ _ hkept => ih hkept

/-- A boot that returns: it may have come as far as the page, and it releases its plan. -/
structure BootRound where
  reserves : Bool
  dirty : Bool
  bootTargetStatus : EfiStatus

def BootRound.run (round : BootRound) : DispatchProg EfiStatus := do
  if round.reserves then let _ ← legacyDispatchReserve
  nativeCsmVgaRuntimePlanRelease round.dirty round.bootTargetStatus

/-- Boots up to the first whose plan is not released, for whether there was none. -/
def bootRounds : List BootRound → DispatchProg Bool
  | [] => return true
  | round :: rounds => do
      let cleanupStatus ← round.run
      if cleanupStatus.isError then return false
      else bootRounds rounds

theorem wp_bootRound {round : BootRound} (h : PageKept state) :
    Wp (fun _ => True) round.run (fun status state' => PageKept state' ∧
      (status.isError = false → state' = .start)) state := by
  unfold BootRound.run
  split
  case isTrue =>
    refine wp_bind.mpr (wp_bind.mpr ?_)
    exact (wp_legacyDispatchReserve h).mono fun _ _ hkept => wp_nativeCsmVgaRuntimePlanRelease hkept.1
  case isFalse => exact wp_nativeCsmVgaRuntimePlanRelease h

theorem wp_bootRounds {rounds : List BootRound} :
    Wp (fun _ => True) (bootRounds rounds) (fun released state' => PageKept state' ∧
      (released = true → state' = .start)) .start := by
  induction rounds with
  | nil => exact Wp.pure ⟨.none, fun _ => rfl⟩
  | cons round rounds ih =>
      refine (wp_bootRound .none).bind fun status state' hround => Wp.ite (fun _ => ?_) fun herror => ?_
      · exact Wp.pure ⟨hround.1, nofun⟩
      · obtain rfl := hround.2 (Bool.not_eq_true _ ▸ herror)
        exact ih

/-- **Who holds the page.** After any calls no page is held, or the one that is remembered; a reservation behind them
that succeeds has the page in reach, all of it where the firmware keeps to the limit; and boots that have all released
their plans leave no page behind. -/
theorem dispatchPage_kept {calls : List DispatchCall} {rounds : List BootRound} :
    Wp (fun _ => True) (runCalls calls) (fun _ state' => PageKept state') .start ∧
      Wp (fun _ => True) (do runCalls calls; legacyDispatchReserve)
        (fun status state' => PageKept state' ∧ (status = .success → PageReached state')) .start ∧
      Wp KeepsLimit (do runCalls calls; legacyDispatchReserve)
        (fun status state' => status = .success → state'.reserved + 0x1000 ≤ dispatchEnd) .start ∧
      Wp (fun _ => True) (bootRounds rounds)
        (fun released state' => PageKept state' ∧ (released = true → state' = .start)) .start := by
  refine ⟨wp_runCalls .none, (wp_runCalls .none).bind fun _ _ hkept => wp_legacyDispatchReserve hkept, ?_,
    wp_bootRounds⟩
  exact Wp.bind (P := fun _ _ => True) (Ask.all_of_forall fun _ => trivial) fun _ _ _ =>
    wp_legacyDispatchReserve_within

/-! ### The table of a plan -/

section

variable {sources : PlanSources} {config : ProbeConfig} {s : RouteState} {romState : RomState} {plan : NativePlan}
  {answers : Nat → PciAnswer}

/-- The table names the plan's display, the shadow that its ROM is copied to, and the boot table, whole. -/
structure DispatchTable (sources : PlanSources) (config : ProbeConfig) (plan : NativePlan)
    (table : DispatchOpromTable) : Prop where
  oprom : table.opromSegment.toNat * 16 = legacyVgaShadowBase
  segment : config.core.targetPci.segment = 0
  bus : table.pciBus = config.core.targetPci.bus
  device : table.pciDeviceFunction >>> 3 = config.core.targetPci.device
  function : table.pciDeviceFunction &&& 7 = config.core.targetPci.function
  numberBbsEntries : table.numberBbsEntries.toNat = plan.disk.bootTarget.bbsCount
  bbsTablePointer : table.bbsTablePointer.toNat = plan.disk.bootTarget.firmwareBbsTable
  pnp : ∀ snapshot, sources.compatibilityMap = .ok snapshot → memoryBytes sources.memory
    (16 * table.pnpInstallationCheckSegment.toNat + table.pnpInstallationCheckOffset.toNat) 4 = pnpSignature

theorem pack_device_function {device function : UInt8} (hdevice : device.toNat ≤ 31) (hfunction : function.toNat ≤ 7) :
    ((device <<< 3) ||| function) >>> 3 = device ∧ ((device <<< 3) ||| function) &&& 7 = function := by
  have hpacked : ((device <<< 3) ||| function).toNat = device.toNat * 8 + function.toNat := by
    rw [UInt8.toNat_or, UInt8.toNat_shiftLeft, show (3 : UInt8).toNat % 8 = 3 from rfl,
      Nat.mod_eq_of_lt (by rw [Nat.shiftLeft_eq]; omega),
      ← Nat.shiftLeft_add_eq_or_of_lt (Nat.lt_succ_of_le hfunction), Nat.shiftLeft_eq]
  constructor
  · rw [← UInt8.toNat_inj, UInt8.toNat_shiftRight, hpacked, show (3 : UInt8).toNat % 8 = 3 from rfl,
      Nat.shiftRight_eq_div_pow]
    omega
  · rw [← UInt8.toNat_inj, UInt8.toNat_and, hpacked, show (7 : UInt8).toNat = 2 ^ 3 - 1 from rfl,
      Nat.and_two_pow_sub_one_eq_mod]
    omega

/-- A selection that was not refused is of an acceptable table. -/
theorem acceptable_of_selected {memory : Nat → UInt8} {snapshot : MemoryMapSnapshot} {systemTable : Nat}
    {status : EfiStatus} {selected : PlanCompatibility16} (hgood : status.isError = false)
    (h : (selectCompatibility16 (.ok snapshot) systemTable).run memory = (status, selected)) :
    ∃ address, Acceptable memory snapshot systemTable address ∧
      selected = selectionAt memory systemTable address := by
  rw [selectCompatibility16_yields.run_eq] at h
  have hmem := @mem_acceptedPlaces memory snapshot systemTable
  generalize acceptedPlaces memory snapshot systemTable (scanPlaces compatScanStart 8192) = accepted at *
  match accepted with
  | [] =>
      cases h
      cases hgood
  | [address] =>
      cases h
      exact ⟨address, hmem.mp (List.mem_singleton_self address), rfl⟩
  | _ :: _ :: _ =>
      cases h
      cases hgood

/-- **The table of a complete plan.** Nothing that it names is cut short on the way into it. -/
theorem dispatchTable_exact
    (hbuilt : ((sources.nativeCsmVgaRuntimePlanBuild config romState s).run answers).1 = .ok plan) :
    DispatchTable sources config plan (legacyDispatchPrepare plan) := by
  have hparts := @Ask.All.run _ _ _ _ _ (@wp_planBuild sources config romState s) answers (fun _ => trivial) plan hbuilt
  have hfound := planDisplays_ok hparts.displays
  have hrecords : ∀ record ∈ buildRecords sources.handles, record.Built := fun _ hrecord =>
    built_of_mem_buildRecords hrecord
  have hendpoints := hfound.endpoints
  rw [hfound.inventory] at hendpoints
  obtain ⟨target, active, hdisplays, htarget, -⟩ := (findVideoEndpoints_ok hrecords).mp hendpoints
  obtain ⟨-, hboot, hdisk⟩ := planDisk_ok hparts.disk
  obtain ⟨hcount, htable⟩ := hdisk.dispatchable
  rw [← hboot] at hcount htable
  have hmatches := (List.mem_filter.mp (hdisplays.onlyTarget ▸ List.mem_singleton_self target)).2
  rw [PciRecord.isTarget, Bool.and_eq_true] at hmatches
  have haddress : plan.displays.target.address = config.core.targetPci := by
    rw [htarget]
    exact address_eq_of_addressEqual hmatches.2
  simp only [PciRecord.addressEqual, Bool.and_eq_true, beq_iff_eq] at hmatches
  obtain ⟨-, ⟨⟨⟨-, hsegment⟩, -⟩, hdevice⟩, hfunction⟩ := hmatches
  have hlocation := hdisplays.targetLocation
  simp only [recordLocationIsValid, Bool.and_eq_true, decide_eq_true_eq] at hlocation
  obtain ⟨⟨-, hdeviceFits⟩, hfunctionFits⟩ := hlocation
  rw [hdevice] at hdeviceFits
  rw [hfunction] at hfunctionFits
  obtain ⟨hunpackDevice, hunpackFunction⟩ := pack_device_function hdeviceFits hfunctionFits
  have hoprom : vgaOpromSegment.toNat * 16 = legacyVgaShadowBase := by decide
  refine ⟨hoprom, ?_, ?_, ?_, ?_, ?_, ?_, fun snapshot hsnapshot => ?_⟩
  · rw [← UInt16.toNat_inj, ← hsegment, hdisplays.segment]
    rfl
  · rw [legacyDispatchPrepare, haddress]
  · rw [legacyDispatchPrepare, haddress]
    exact hunpackDevice
  · rw [legacyDispatchPrepare, haddress]
    exact hunpackFunction
  · rw [legacyDispatchPrepare, UInt8.toNat_ofNat']
    exact Nat.mod_eq_of_lt (by omega)
  · rw [legacyDispatchPrepare, UInt32.toNat_ofNat']
    exact Nat.mod_eq_of_lt (by omega)
  · obtain ⟨status, hgood, hselected⟩ := hfound.compatibility16
    rw [hsnapshot] at hselected
    obtain ⟨address, hacceptable, hfields⟩ := acceptable_of_selected hgood hselected
    rw [legacyDispatchPrepare, hfields]
    exact hacceptable.pnp.2

theorem dispatchTable_exact_one : ∃ plan, plannedBuild.1 = .ok plan ∧
    DispatchTable plannedSources plannedConfig plan (legacyDispatchPrepare plan) := by
  obtain ⟨plan, hbuilt⟩ := plannedSources_built
  exact ⟨plan, hbuilt, dispatchTable_exact hbuilt⟩

end

end CsmVgaSelector.Dispatch
