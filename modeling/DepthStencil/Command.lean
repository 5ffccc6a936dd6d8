import DepthStencil.Access
import DepthStencil.Format.Basic
import DepthStencil.Rect

/-! # Commands and their needs

A `Command` is something recorded that touches a depth-stencil image.  What it needs of each aspect
is a `Need`, and the `Change` that meets a need depends on the level the aspect is at:

* a draw that writes needs at least `writable`, one that only tests at least `readOnly`;
* a clear needs at least `writable`, and may drop the contents if it reaches every texel;
* a discard needs at least `writable` and drops the contents;
* a transition needs exactly its target.

A need that a higher level already meets leads to no change, so a draw that only tests never takes
writing away from an aspect. -/

namespace DepthStencil

/-! ### Commands -/

/-- What a draw does with one aspect. -/
structure Use where
  test : Bool
  write : Bool
deriving DecidableEq, Repr

namespace Use

/-- The use of an aspect that a draw leaves alone. -/
def none : Use := ⟨false, false⟩

/-- Whether the aspect is read.  A write comes with the test that guards it. -/
def reads (u : Use) : Bool := u.test || u.write

/-- The use that remains if the aspect may not be kept. -/
def mask (u : Use) (keep : Bool) : Use := ⟨u.test && keep, u.write && keep⟩

end Use

/-- A recorded command that touches a depth-stencil image. -/
inductive Command where
  /-- Draws with the given use of each aspect. -/
  | draw (uses : PerAspect Use)
  /-- Clears the marked aspects within a rectangle, or everywhere if there is none. -/
  | clear (aspects : PerAspect Bool) (rect : Option Rect)
  /-- Declares the contents of the marked aspects as no longer needed. -/
  | discard (aspects : PerAspect Bool)
  /-- Puts aspects at the given levels and leaves the others alone. -/
  | transition (targets : PerAspect (Option Level))
deriving DecidableEq, Repr

namespace Command

/-- The aspects the command speaks of.  A draw speaks of those it tests or writes. -/
def named : Command → PerAspect Bool
  | draw uses => uses.map Use.reads
  | clear aspects _ => aspects
  | discard aspects => aspects
  | transition targets => targets.map Option.isSome

/-- The aspects whose contents the command writes. -/
def writes : Command → PerAspect Bool
  | draw uses => uses.map Use.write
  | clear aspects _ => aspects
  | discard _ => .both false
  | transition _ => .both false

/-- Whether the command declares levels itself. -/
def isTransition : Command → Bool
  | transition _ => true
  | draw _ | clear _ _ | discard _ => false

/-- Whether the command is recorded inside a render pass. -/
def isRendering : Command → Bool
  | draw _ | clear _ _ => true
  | discard _ | transition _ => false

end Command

/-! ### Needs -/

/-- What is demanded of the level of an aspect. -/
inductive Demand where
  | any
  /-- The level or a higher one. -/
  | atLeast (level : Level)
  /-- The level and no other. -/
  | exactly (level : Level)
deriving DecidableEq, Repr

namespace Demand

/-- Whether a level meets the demand. -/
def Meets (level : Level) : Demand → Prop
  | any => True
  | atLeast l => l ≤ level
  | exactly l => level = l

instance (level : Level) (d : Demand) : Decidable (d.Meets level) := by
  cases d <;> unfold Meets <;> infer_instance

/-- The level that an aspect has to move to, or `none` if the current one meets the demand. -/
def resolve (d : Demand) (current : Level) : Option Level :=
  match d with
  | any => none
  | atLeast l => if l ≤ current then none else some l
  | exactly l => if current = l then none else some l

end Demand

/-- What a command needs of one aspect. -/
structure Need where
  demand : Demand
  /-- Whether a change made for this need may drop the contents. -/
  discards : Bool
  /-- How the aspect is accessed once it is at the right level. -/
  access : Access
deriving DecidableEq, Repr

namespace Need

/-- The need of a command that leaves the aspect alone. -/
def none : Need := ⟨.any, false, .none⟩

/-- The need of a write to the aspect. -/
def toWrite (discards : Bool) : Need := ⟨.atLeast .writable, discards, .write⟩

/-- The need of a test of the aspect. -/
def toTest : Need := ⟨.atLeast .readOnly, false, .test⟩

/-- The need of a declared level. -/
def toBe (level : Level) : Need := ⟨.exactly level, false, .ofLevel level⟩

end Need

/-- The need of a draw for an aspect it uses in the given way. -/
def Use.need (u : Use) : Need :=
  if u.write then .toWrite false else if u.test then .toTest else .none

/-- What the command needs of each aspect.  `covers` says whether a clear reaches every texel and
may drop what was there before. -/
def Command.needs (covers : Bool) : Command → PerAspect Need
  | draw uses => uses.map Use.need
  | clear aspects _ => aspects.map fun marked => if marked then .toWrite covers else .none
  | discard aspects => aspects.map fun marked => if marked then .toWrite true else .none
  | transition targets => targets.map fun target => target.elim .none .toBe

/-! ### Changes -/

/-- A change of the level of one aspect. -/
structure Change where
  source : Level
  target : Level
  /-- Whether the contents need not survive the change. -/
  discards : Bool
deriving DecidableEq, Repr

/-- The change that makes an aspect at `current` meet the need.  There is nothing to keep of an
undefined aspect, so leaving that level always drops the contents. -/
def Need.change? (need : Need) (current : Level) : Option Change :=
  (need.demand.resolve current).map fun target =>
    ⟨current, target, need.discards || !current.isDefined⟩

/-- Whether the change gives up writing. -/
def Change.relaxes (c : Change) : Bool := c.source.relaxes c.target

/-- The changes that make every aspect meet its need. -/
def changesFor (needs : PerAspect Need) (levels : PerAspect Level) : PerAspect (Option Change) :=
  .ofFn fun a => (needs.get a).change? (levels.get a)

/-- The levels after some changes. -/
def levelsAfter (levels : PerAspect Level) (changes : PerAspect (Option Change)) :
    PerAspect Level :=
  .ofFn fun a => ((changes.get a).map Change.target).getD (levels.get a)

end DepthStencil
