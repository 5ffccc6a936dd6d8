import DepthStencil.Command

/-! # Depth-stencil pipeline states

A draw uses the aspects as its pipeline state and the view it renders through permit.  A view may
be read-only in an aspect: it still allows the test and only takes the write away. -/

namespace DepthStencil

/-- Which depth values a pipeline state lets through to the image. -/
inductive DepthWriteMask where
  | zero
  | all
deriving DecidableEq, Repr

/-- What becomes of a stencil value. -/
inductive StencilOp where
  | keep
  | zero
  | replace
  | incrSat
  | decrSat
  | invert
  | incr
  | decr
deriving DecidableEq, Repr

/-- The stencil operations for one side of a primitive, by the outcome of the tests. -/
structure StencilFace where
  fail : StencilOp := .keep
  depthFail : StencilOp := .keep
  pass : StencilOp := .keep
deriving DecidableEq, Repr

/-- Whether some outcome changes the stencil value. -/
def StencilFace.writes (f : StencilFace) : Bool :=
  [f.fail, f.depthFail, f.pass].any fun op => op ≠ .keep

/-- The depth-stencil part of a pipeline state. -/
structure PipelineState where
  depthEnable : Bool := true
  depthWriteMask : DepthWriteMask := .all
  stencilEnable : Bool := false
  stencilReadMask : UInt8 := 0xff
  stencilWriteMask : UInt8 := 0xff
  front : StencilFace := {}
  back : StencilFace := {}
deriving DecidableEq, Repr

/-- A set of flags about a view that name aspects: bit 0 names depth and bit 1 stencil. -/
abbrev ViewFlags := UInt32

/-- Whether the flags name an aspect. -/
def ViewFlags.names (flags : ViewFlags) : Aspect → Bool
  | .depth => flags &&& 0x1 ≠ 0
  | .stencil => flags &&& 0x2 ≠ 0

namespace PipelineState

/-- Whether the pipeline state itself enables the test of an aspect. -/
def tests (p : PipelineState) : Aspect → Bool
  | .depth => p.depthEnable
  | .stencil => p.stencilEnable

/-- Whether a test that is enabled may write the aspect. -/
def mayWrite (p : PipelineState) : Aspect → Bool
  | .depth => p.depthWriteMask = .all
  | .stencil => p.stencilWriteMask ≠ 0 && (p.front.writes || p.back.writes)

/-- The use that a draw with this pipeline state makes of each aspect, through a view that is
read-only in the aspects named by `readOnly`. -/
def uses (p : PipelineState) (readOnly : ViewFlags) : PerAspect Use :=
  .ofFn fun a => ⟨p.tests a, p.tests a && p.mayWrite a && !readOnly.names a⟩

end PipelineState

end DepthStencil
