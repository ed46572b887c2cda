import CsmVgaSelector.Bbs.Probe
import CsmVgaSelector.Config.Save
import CsmVgaSelector.Selector.TargetSelection
import CsmVgaSelector.Setup.Gop

/-!
# A run of setup

Setup collects the displays and the disks, has the user confirm a pair of them, and saves it. Every run of it is
in discovery mode: the flag is set with `Probe`, without which the run is refused. The reports that only print,
the classification among them, are left out, as are the checks that they make; so is the log, but for the calls
that a status comes from.
-/

namespace CsmVgaSelector

/-! ### What setup is answered -/

/-- What the firmware answers about the inventory. -/
structure InventoryAnswer where
  located : EfiStatus
  handles : List HandleAnswer
  granted : Bool
  freed : Option EfiStatus

def InventoryAnswer.inventory (answer : InventoryAnswer) : Except EfiStatus (List PciRecord) :=
  pciInventoryBuild answer.located answer.handles answer.granted answer.freed

/-- What `LocateProtocol` and `GetBbsInfo` answer, with the state of the log around the call. -/
structure BbsAnswer where
  /-- The legacy BIOS protocol is there, and so is its entry point. -/
  available : Bool
  logWritable : Bool
  cautioned : EfiStatus
  status : EfiStatus
  logged : EfiStatus
  hddCount : Nat
  /-- Zero while it is `NULL`. -/
  hddInfo : Nat
  tableAddress : Nat
  table : List BbsTable
  mapped : EfiStatus
  hddReadable : Bool
  tableReadable : Bool
  memory : FarMemory

namespace BbsAnswer

variable (answer : BbsAnswer)

/-- The checks before `GetBbsInfo`, and of what it answers. -/
def usable : Bool :=
  answer.available && answer.logWritable && !answer.cautioned.isError && !answer.logged.isError &&
    !answer.status.isError &&
    !(decide (answer.hddCount ≠ 0) && answer.hddInfo == 0 || decide (answer.hddCount > maxIdeController)) &&
    !(decide (answer.table.length ≠ 0) && answer.tableAddress == 0 ||
      decide (answer.table.length > maxBbsEntries)) &&
    !answer.mapped.isError && (answer.hddCount == 0 || answer.hddReadable) &&
    (answer.table.length == 0 || answer.tableReadable)

/-- `Storage` of the summary. -/
def storage : NcvStorageCollection :=
  if answer.usable then bbsProbeRows answer.memory 0 answer.table {} else {}

end BbsAnswer

/-- How setup was entered: the settings to review are those that were loaded last. -/
structure SetupEntry where
  loaded : LoadedConfig
  editing : Bool
  reviewSettings : NcvConfigCore

/-- The settings that a review shows. -/
def SetupEntry.reviewed (entry : SetupEntry) : Option NcvConfigCore :=
  if entry.editing then some entry.reviewSettings else none

/-- What a run of setup is answered, but for its calls on the configuration files. -/
structure SetupAnswers where
  opened : EfiStatus
  logOpened : EfiStatus
  /-- The logger has a file. -/
  logFile : Bool
  inventory : InventoryAnswer
  displays : DisplayAnswers
  gopLocated : EfiStatus
  gops : List GopAnswer
  bbs : BbsAnswer
  /-- There is a console that takes keys. -/
  console : Bool
  keys : List KeyAnswer
  flushed : EfiStatus
  logClosed : EfiStatus
  closed : EfiStatus

namespace FileProg

/-! ### The candidates -/

/-- The displays, with what the graphics outputs tell of them. -/
def foundDisplays (answers : SetupAnswers) (core : NcvConfigCore) (records : List PciRecord) :
    NcvDisplayCollection :=
  let displays := (reportRomCandidates answers.displays core records).displays
  { displays with items := reportGopOwnership answers.gopLocated answers.gops records displays.items }

/-- The displays ranked, with the one selected; a collection with an overflow is left as it is. -/
def rankedDisplays (displays : NcvDisplayCollection) : List NcvDisplayCandidate × Option Nat :=
  if displays.overflow then (displays.items, none)
  else (ncvRankDisplays displays.items).getD (displays.items, none)

/-- The loop for the display that was saved: the last one that is it. -/
def savedDisplay (core : NcvConfigCore) (items : List NcvDisplayCandidate) : Option Nat :=
  items.zipIdx.foldl (fun choice (item, index) =>
    if item.eligible && item.address == core.targetPci then some index else choice) none

/-- The loop for the disk that was saved: its controller, and its description as wide characters. -/
def savedDisk (config : ProbeConfig) (items : List NcvStorageCandidate) : Option Nat :=
  items.zipIdx.foldl (fun choice (item, index) =>
    if item.eligible && item.address == config.core.targetControllerPci &&
        (cString item.description.array).map UInt8.toUInt16 == config.targetBbsDescription then
      some index
    else choice) none

/-- The targets that were saved, and where one of them is not there, one by rank. -/
def savedTargets (config : ProbeConfig) (candidates : Candidates) : Candidates :=
  let display := savedDisplay config.core candidates.displays
  let disk := savedDisk config candidates.storage
  let displays :=
    if display.isSome then (candidates.displays, display)
    else (ncvRankDisplays candidates.displays).getD (candidates.displays, none)
  let storage :=
    if disk.isSome then (candidates.storage, disk)
    else (ncvRankStorage candidates.storage).getD (candidates.storage, none)
  ⟨displays.1, displays.2, storage.1, storage.2⟩

/-- The candidates that setup starts the selection with. -/
def gatherCandidates (entry : SetupEntry) (displays : NcvDisplayCollection) (storage : NcvStorageCollection) :
    Except EfiStatus Candidates :=
  if displays.overflow || storage.overflow then .error .bufferTooSmall
  else
    match ncvRankStorage storage.items with
    | none => .error .invalidParameter
    | some (items, disk) =>
        let ranked := rankedDisplays displays
        let candidates : Candidates := ⟨ranked.1, ranked.2, items, disk⟩
        .ok (if entry.editing then savedTargets entry.loaded.config candidates else candidates)

/-! ### The run -/

/-- What the selection comes to. -/
inductive Confirmation where
  /-- A key is still waited for. -/
  | waiting
  | refused (status : EfiStatus)
  /-- The candidates to save, and whether the user has confirmed them. -/
  | proceed (candidates : Candidates) (confirmed : Bool)

/-- A first run with both targets asks the user. -/
def confirmTargets (entry : SetupEntry) (console : Bool) (keys : List KeyAnswer) (candidates : Candidates) :
    Confirmation :=
  match entry.loaded.firstRun, candidates.selectedDisplay, candidates.selectedStorage with
  | true, some gpu, some disk =>
      match (selectBootTargets candidates.displays candidates.storage entry.reviewed gpu disk console keys).2 with
      | none => .waiting
      | some result =>
          if result.status.isError then .refused result.status
          else .proceed ⟨result.displays, some result.selectedDisplay, result.storage,
            some result.selectedStorage⟩ true
  | _, _, _ => .proceed candidates false

/-- From the inventory to the file: the status, and `SetupConfirmed`. -/
def discoverAndSave (patience : Nat) (entry : SetupEntry) (answers : SetupAnswers) (records : List PciRecord) :
    FileProg (EfiStatus × Bool) :=
  match gatherCandidates entry (foundDisplays answers entry.loaded.config.core records) answers.bbs.storage with
  | .error status => return (status, false)
  | .ok candidates =>
      match confirmTargets entry answers.console answers.keys candidates with
      | .waiting => Halting.halt
      | .refused status => return (status, false)
      | .proceed candidates confirmed => do
          let written ← probeConfigWriteCandidateIni patience entry.editing entry.loaded.firstRun candidates
          return (if written.isError then written else .success, confirmed)

/-- The settings have to be those of discovery, and the inventory is built before the rest. -/
def discover (patience : Nat) (entry : SetupEntry) (answers : SetupAnswers) : FileProg (EfiStatus × Bool) :=
  if !entry.loaded.probe then return (.invalidParameter, false)
  else
    match answers.inventory.inventory with
    | .error status => return (status, false)
    | .ok records => discoverAndSave patience entry answers records

/-- What the calls at the end leave of the status: the first error stays. -/
def closeSetup (answers : SetupAnswers) (status : EfiStatus) : EfiStatus :=
  recordFirstError (recordFirstError (recordFirstError status answers.flushed) answers.logClosed) answers.closed

/-- The status, and `BootReady`. -/
def nativeCsmVgaProbeRun (patience : Nat) (entry : SetupEntry) (answers : SetupAnswers) :
    FileProg (EfiStatus × Bool) := do
  if answers.opened.isError then return (answers.opened, false)
  if answers.logOpened.isError || !answers.logFile then
    return (if answers.logOpened.isError then answers.logOpened else .deviceError, false)
  let (status, confirmed) ← discover patience entry answers
  let status := closeSetup answers status
  return (status, !status.isError && confirmed)

end FileProg

end CsmVgaSelector
