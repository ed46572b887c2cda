import CsmVgaSelector.Proof.Arguments
import CsmVgaSelector.Proof.BarResources
import CsmVgaSelector.Proof.BootChoice
import CsmVgaSelector.Proof.BootGate
import CsmVgaSelector.Proof.BootOption
import CsmVgaSelector.Proof.BootOptions
import CsmVgaSelector.Proof.Buffers
import CsmVgaSelector.Proof.BusPath
import CsmVgaSelector.Proof.CandidateIni
import CsmVgaSelector.Proof.Compatibility16
import CsmVgaSelector.Proof.DevOrderCapture
import CsmVgaSelector.Proof.DiskAgreement
import CsmVgaSelector.Proof.DiskDescription
import CsmVgaSelector.Proof.Dispatch
import CsmVgaSelector.Proof.DisplayAgreement
import CsmVgaSelector.Proof.DurableFirst
import CsmVgaSelector.Proof.EditMeaning
import CsmVgaSelector.Proof.EditTwice
import CsmVgaSelector.Proof.EditedSave
import CsmVgaSelector.Proof.FirmwareDisk
import CsmVgaSelector.Proof.Forgery
import CsmVgaSelector.Proof.Gop
import CsmVgaSelector.Proof.HashRange
import CsmVgaSelector.Proof.ImageDirectory
import CsmVgaSelector.Proof.Layout
import CsmVgaSelector.Proof.MarkerFile
import CsmVgaSelector.Proof.MarkerNumber
import CsmVgaSelector.Proof.MemoryMap
import CsmVgaSelector.Proof.PciIdLookup
import CsmVgaSelector.Proof.Placement
import CsmVgaSelector.Proof.PlanBuild
import CsmVgaSelector.Proof.PlanOrder
import CsmVgaSelector.Proof.Preserve
import CsmVgaSelector.Proof.ProbeIni
import CsmVgaSelector.Proof.ProbeRun
import CsmVgaSelector.Proof.Rank
import CsmVgaSelector.Proof.Reentry
import CsmVgaSelector.Proof.RomGrammar
import CsmVgaSelector.Proof.RomGuard
import CsmVgaSelector.Proof.RouteResult
import CsmVgaSelector.Proof.StorageMatch
import CsmVgaSelector.Proof.StorageRom
import CsmVgaSelector.Proof.TargetSelection
import CsmVgaSelector.Proof.Untruncated
import CsmVgaSelector.Proof.Utf8
import CsmVgaSelector.Proof.Verify
