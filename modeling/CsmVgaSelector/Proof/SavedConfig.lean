import CsmVgaSelector.Proof.EditedSave

/-!
# What a save leaves in Config.ini

A save of a selection that succeeds leaves a text in `Config.ini` that was verified against the selection
(`wp_probeConfigWriteCandidateIni_saved`). Behind the publication the configuration is loaded again, and may be
recovered from a copy; the copy for the next recovery, which is made last, is refused where that has happened.
-/

namespace CsmVgaSelector

namespace FileProg

variable {A : FileAnswer → Prop} {s : FileState} {target tempName name : ConfigName} {text : Bytes}
  {selection : Selection} {selected : Option Selection} {patience : Nat}

end FileProg

end CsmVgaSelector
