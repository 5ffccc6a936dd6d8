import DepthStencil.Level
import DepthStencil.Stage

/-! # Accesses and memory dependencies

An `Access` says when an aspect is used, as a mask of pipeline stages, and how, as a mask of kinds
of access.  A `Dependency` orders everything done by one access before everything done by another;
it is the memory half of a barrier. -/

namespace DepthStencil

/-! ### Kinds of access -/

namespace AccessKind

def inputAttachmentRead : Mask := 0x10
def shaderRead : Mask := 0x20
def shaderWrite : Mask := 0x40
def depthStencilRead : Mask := 0x200
def depthStencilWrite : Mask := 0x400
def transferRead : Mask := 0x800
def transferWrite : Mask := 0x1000
def memoryRead : Mask := 0x8000
def memoryWrite : Mask := 0x10000
def sampledRead : Mask := 0x100000000

/-- The kinds of write that reach a depth-stencil aspect. -/
def writes : Mask := depthStencilWrite ||| transferWrite ||| shaderWrite ||| memoryWrite

/-- The kinds of read that reach a depth-stencil aspect. -/
def reads : Mask :=
  depthStencilRead ||| sampledRead ||| shaderRead ||| inputAttachmentRead ||| transferRead |||
    memoryRead

end AccessKind

/-! ### Accesses -/

/-- A use of an aspect: the stages at which it happens and the kinds of access it makes. -/
@[ext] structure Access where
  stages : Mask
  kinds : Mask
deriving DecidableEq, Repr

namespace Access

/-- No access at all. -/
def none : Access := ⟨0, 0⟩

/-- The depth or stencil test without writes. -/
def test : Access := ⟨Stage.fragmentTests, AccessKind.depthStencilRead⟩

/-- The depth or stencil test with writes, and clears of the attachment. -/
def write : Access :=
  ⟨Stage.fragmentTests, AccessKind.depthStencilRead ||| AccessKind.depthStencilWrite⟩

/-- Tests without writes, together with sampling in the fragment shader. -/
def sampled : Access :=
  ⟨Stage.fragmentTests ||| Stage.fragmentShader,
    AccessKind.depthStencilRead ||| AccessKind.sampledRead⟩

/-- The access that an aspect put at a level is expected to see next. -/
def ofLevel : Level → Access
  | .undefined => none
  | .readOnly => sampled
  | .writable => write

instance : Inhabited Access := ⟨none⟩

/-- The union of two accesses. -/
instance : OrOp Access := ⟨fun a b => ⟨a.stages ||| b.stages, a.kinds ||| b.kinds⟩⟩

/-- The access without its reads.  Its stages stay. -/
def writePart (a : Access) : Access := ⟨a.stages, a.kinds &&& AccessKind.writes⟩

/-- Whether the access reads and does nothing else. -/
def isReadOnly (a : Access) : Bool := a.kinds != 0 && a.kinds.within AccessKind.reads

/-- Whether the access writes and does nothing else. -/
def isWriteOnly (a : Access) : Bool := a.kinds != 0 && a.kinds.within AccessKind.writes

/-- Whether the stages and kinds of `b` are among those of `a`. -/
def contains (a b : Access) : Bool := a.stages.contains b.stages && a.kinds.contains b.kinds

end Access

/-! ### Dependencies -/

/-- Makes what `src` did available before anything `dst` does. -/
@[ext] structure Dependency where
  src : Access
  dst : Access
deriving DecidableEq, Repr

namespace Dependency

/-- The dependency that orders nothing. -/
def empty : Dependency := ⟨.none, .none⟩

instance : Inhabited Dependency := ⟨empty⟩

/-- The union of two dependencies. -/
instance : OrOp Dependency := ⟨fun d e => ⟨d.src ||| e.src, d.dst ||| e.dst⟩⟩

/-- Whether the dependency orders nothing. -/
def isEmpty (d : Dependency) : Bool := d = empty

/-- Orders stages without making memory available. -/
def execution (src dst : Mask) : Dependency := ⟨⟨src, 0⟩, ⟨dst, 0⟩⟩

end Dependency

end DepthStencil
