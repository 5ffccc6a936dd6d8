import DepthStencil.Request

/-! # Render passes

A render pass takes the draws and clears on one image and commits to one pair of levels for its
whole life.  A command that fits the commitment folds into the open pass, and one that needs other
layouts on the same image splits it: the pass ends, the barriers are recorded, a new pass begins. -/

namespace DepthStencil

/-- An open render pass. -/
structure Pass where
  image : ImageId
  /-- The levels the pass was begun with. -/
  levels : PerAspect Level
  /-- The number of commands recorded so far.  It starts over after all 32-bit numbers. -/
  operations : UInt32
  /-- The aspects written by some command of the pass. -/
  writes : PerAspect Bool
deriving DecidableEq, Repr

/-- Where a draw or clear goes in relation to the open pass. -/
inductive Placement where
  /-- Into the open pass. -/
  | fold
  /-- Into a new pass.  A pass on another image ends first. -/
  | begins
  /-- Into a new pass after the open pass on the same image. -/
  | split
deriving DecidableEq, Repr

namespace Pass

/-- A pass without commands. -/
def start (image : ImageId) (levels : PerAspect Level) : Pass :=
  ⟨image, levels, 0, .both false⟩

/-- The pass after one more command. -/
def record (p : Pass) (writes : PerAspect Bool) : Pass :=
  { p with operations := p.operations + 1, writes := p.writes.union writes }

/-- Whether the open pass is one on the given image. -/
def isOpenOn (pass? : Option Pass) (id : ImageId) : Bool :=
  pass?.any fun p => p.image = id

/-- Where a draw or clear on an image goes.  `moves` says whether it needs other layouts. -/
def place (pass? : Option Pass) (id : ImageId) (moves : Bool) : Placement :=
  if isOpenOn pass? id then if moves then .split else .fold else .begins

end Pass

end DepthStencil
