import DepthStencil.Mask

/-! # Pipeline stages

The stages of the graphics pipeline that may touch a depth-stencil image are totally ordered
(`Stage.order`).  A mask of stages counts from the earliest stage it contains, so two masks compare
when they are equal or when both contain a stage of the order (`Stage.compare?`). -/

namespace DepthStencil.Stage

def vertexShader : Mask := 0x8
def tessellationControl : Mask := 0x10
def tessellationEvaluation : Mask := 0x20
def geometryShader : Mask := 0x40
def fragmentShader : Mask := 0x80
def earlyFragmentTests : Mask := 0x100
def lateFragmentTests : Mask := 0x200

/-- Both stages of the depth and stencil tests. -/
def fragmentTests : Mask := earlyFragmentTests ||| lateFragmentTests

/-- The graphics stages in the order in which the pipeline runs them. -/
def order : List Mask :=
  [vertexShader, tessellationControl, tessellationEvaluation, geometryShader, earlyFragmentTests,
    fragmentShader, lateFragmentTests]

/-- The place in the pipeline of the earliest graphics stage of a mask. -/
def first? (stages : Mask) : Option Nat := order.findIdx? fun stage => stages.contains stage

/-- Compares two masks by their earliest graphics stages.  There is no answer for different masks
of which one has no graphics stage, such as one of compute or transfer stages. -/
def compare? (m n : Mask) : Option Ordering :=
  if m = n then some .eq
  else match first? m, first? n with
    | some i, some j => some (compare i j)
    | _, _ => none

/-- The earlier of two masks, the left one on a tie, or their union if they do not compare. -/
def earlier (m n : Mask) : Mask :=
  match compare? m n with
  | some .gt => n
  | some .eq | some .lt => m
  | none => m ||| n

end DepthStencil.Stage
