import CsmVgaSelector.Selector.BootRun

/-!
# The application

The configuration is loaded, and the boot attempted. Where the user asks for it and the boot has returned
cleanly, the settings are edited and the boot is attempted again from the beginning.

A run is cut after `rounds` rounds of the loop, and where a loop has looked at the keyboard `patience` times.
-/

namespace CsmVgaSelector

open Halting SelectorProg

/-- `PROBE_CONFIG`, with the flag that no file was found. -/
structure LoadedConfig where
  config : ProbeConfig
  firstRun : Bool

def LoadedConfig.autoBoot (loaded : LoadedConfig) : Bool := loaded.config.core.autoBoot

def LoadedConfig.probe (loaded : LoadedConfig) : Bool := loaded.config.core.probe

/-- Before editing `Probe`, `DiscoveryMode` and `FirstRun` are set. -/
def LoadedConfig.edited (loaded : LoadedConfig) : LoadedConfig :=
  { config := { loaded.config with core := { loaded.config.core with probe := true } }
    firstRun := true }

def coreStatusToEfi : NcvConfigResult → EfiStatus
  | .invalidParameter => .invalidParameter
  | .unsupported => .unsupported
  | _ => .compromisedData

/-- The parsed file, and its marker. -/
def importParsed (bytes : Bytes) : Except EfiStatus (LoadedConfig × MarkerConfig) :=
  match ncvParseConfigStrict bytes ncvConfigDefaults with
  | .error result => .error (coreStatusToEfi result)
  | .ok core =>
      match probeConfigImportCore core with
      | .error status => .error status
      | .ok config => .ok (⟨config, false⟩, core.marker)

/-- `ConfigLoadRecoverable` answers with a status and the bytes. -/
def probeConfigLoad : SelectorProg (Except EfiStatus LoadedConfig) := do
  markerConfigure ncvConfigDefaults.marker
  let answer ← call
  if answer.status = .notFound then
    match probeConfigImportCore ncvConfigDefaults with
    | .error status => return .error status
    | .ok config => return .ok ⟨config, true⟩
  else if answer.status.isError then return .error answer.status
  else
    match importParsed answer.data with
    | .error status => return .error status
    | .ok (loaded, marker) => do
        markerConfigure marker
        return .ok loaded

/-- Setup loads what it has written. -/
def setupLoads : Nat → SelectorProg Unit
  | 0 => return ()
  | loads + 1 => do
      let _ ← probeConfigLoad
      setupLoads loads

/-- The status, and `BootReady`. -/
def nativeCsmVgaProbeRun : SelectorProg (EfiStatus × Bool) := do
  note .setup
  let answer ← call
  setupLoads answer.count
  return (answer.status, !answer.status.isError && answer.granted)

/-- `ConfigWaitForReturn` shows the status. -/
def configWaitForReturn : SelectorProg Unit := do let _ ← call

/-- The file that setup has saved, loaded for the boot. -/
def reloadSaved : SelectorProg (Except EfiStatus LoadedConfig) := do
  let opened ← appFileInitialize
  if opened.isError then return .error opened
  let loaded ← probeConfigLoad
  let closed ← appFileClose
  match loaded with
  | .error status => return .error status
  | .ok config =>
      if closed.isError then return .error closed
      if config.probe || config.firstRun then return .error .compromisedData
      return .ok config

/-- The status, and the configuration: it stays what it was where setup is not ready to boot. -/
def runSetupAndReload (loaded : LoadedConfig) : SelectorProg (EfiStatus × LoadedConfig) := do
  let (status, bootReady) ← nativeCsmVgaProbeRun
  if status.isError || !bootReady then return (status, loaded)
  match ← reloadSaved with
  | .error status =>
      configWaitForReturn
      return (status, loaded)
  | .ok saved => return (.success, saved)

/-- What is to be done with a configuration. -/
inductive Round where
  | boot (loaded : LoadedConfig)
  | edit (loaded : LoadedConfig)
  | leave (status : EfiStatus)

/-- The countdown before the preflight. -/
def beforeBoot (patience : Nat) (loaded : LoadedConfig) : SelectorProg Round := do
  bootCountdownPrepare true
  if !loaded.autoBoot then return .boot loaded
  let (status, editRequested) ← bootSetupWindow
  if status.isError then
    if status ≠ .aborted then bootReportHold patience status
    return .leave status
  if editRequested then return .edit loaded.edited
  return .boot loaded

/-- Setup, where it is due. -/
def setupRound (patience : Nat) (loaded : LoadedConfig) : SelectorProg Round := do
  if !loaded.probe then beforeBoot patience loaded
  else
    let (status, loaded) ← runSetupAndReload loaded
    if status.isError || loaded.probe then return .leave status
    beforeBoot patience loaded

/-- What the user asks for behind a boot that has returned. -/
def askAgain (patience : Nat) (status markerStatus : EfiStatus) : SelectorProg Bool := do
  if ← bootCountdownTakeEdit status markerStatus then return true
  if !(← romRecoveryOffer patience status markerStatus) then bootReportHold patience status
  bootCountdownTakeEdit status markerStatus

/-- A boot and what follows it: the status, and whether the settings are edited again. -/
def bootRound (patience : Nat) (loaded : LoadedConfig) : SelectorProg (EfiStatus × Bool) := do
  let status ← nativeCsmVgaBootRun loaded.config
  let markerStatus ← markerRestore
  let status := recordFirstError status markerStatus
  if ← bootCountdownTakeCancel status markerStatus then return (status, false)
  let again ← askAgain patience status markerStatus
  if again then romRecoveryReset
  return (status, again)

def selectorLoop (patience : Nat) : Nat → LoadedConfig → SelectorProg EfiStatus
  | 0, _ => halt
  | rounds + 1, loaded => do
      match ← setupRound patience loaded with
      | .leave status => return status
      | .edit loaded => selectorLoop patience rounds loaded
      | .boot loaded =>
          let (status, again) ← bootRound patience loaded
          if !again then return status
          selectorLoop patience rounds loaded.edited

/-- Not every firmware has a watchdog. -/
def bootReportDisableWatchdog : SelectorProg EfiStatus := do
  let status ← service
  return if status = .unsupported then .success else status

/-- The configuration is loaded, once more where the user has asked for a fresh setup. -/
def loadOrStartFresh : SelectorProg (Except EfiStatus LoadedConfig) := do
  match ← probeConfigLoad with
  | .ok loaded => return .ok loaded
  | .error status =>
      if status = .aborted then return .error status
      let offered ← service
      if offered.isError then return .error offered
      probeConfigLoad

def uefiMain (patience rounds : Nat) : SelectorProg EfiStatus := do
  bootCountdownPrepare false
  romRecoveryReset
  let watchdog ← bootReportDisableWatchdog
  if watchdog.isError then
    bootReportHold patience watchdog
    return watchdog
  let opened ← appFileInitialize
  if opened.isError then
    configWaitForReturn
    return opened
  let loaded ← loadOrStartFresh
  let closed ← appFileClose
  if closed.isError then
    bootReportHold patience closed
    match loaded with
    | .error status => return status
    | .ok _ => return closed
  else
    match loaded with
    | .error status => return status
    | .ok loaded => selectorLoop patience rounds loaded

end CsmVgaSelector
