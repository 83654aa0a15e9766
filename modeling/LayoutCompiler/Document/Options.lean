import LayoutCompiler.Document.Basic

/-
The screen that a document is made for.
-/

namespace LayoutCompiler.Document

open Number (Single)

/-- Size in density-independent units and the number of device pixels in one unit. -/
structure Options where
  density : Single := ⟨0x40280000⟩
  width : UInt32 := 400
  height : UInt32 := 800
  deriving DecidableEq, Repr

namespace Options

/-- A length in device pixels. -/
def dp (o : Options) (length : Int32) : Single :=
  Single.ofInt length.toInt * o.density

/-- A font size in device pixels; fonts scale as lengths do. -/
def sp (o : Options) (size : Int32) : Single :=
  o.dp size

/-- A number of units in whole device pixels. -/
def pixels (o : Options) (units : UInt32) : UInt32 :=
  (Single.ofInt units.toNat * o.density).toWord

/-- The version of the format that documents are written in. -/
def formatVersion : UInt16 := 1

/-- The header of documents made for these options. -/
def header (o : Options) : Header :=
  ⟨formatVersion, o.pixels o.width, o.pixels o.height, o.density⟩

end Options

end LayoutCompiler.Document
