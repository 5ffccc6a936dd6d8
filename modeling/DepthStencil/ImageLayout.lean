import DepthStencil.Level

/-! # Image layouts

The level of each aspect decides the layout the image has to be in.  There are two ways to lay
levels out (`LayoutScheme`):

* *separate*: each aspect has a layout of its own (`Level.layout`);
* *shared*: one layout serves all aspects of the image (`ImageLayout.shared`).  An aspect that the
  format lacks follows the other one, and an undefined aspect beside a defined one sits in the
  read-only half of the shared layout. -/

namespace DepthStencil

/-- The layouts a depth-stencil image, or one of its aspects, can be in. -/
inductive ImageLayout where
  | undefined
  | depthStencilAttachment
  | depthStencilReadOnly
  | depthReadOnlyStencilAttachment
  | depthAttachmentStencilReadOnly
  | depthAttachment
  | depthReadOnly
  | stencilAttachment
  | stencilReadOnly
deriving DecidableEq, Repr

/-- The number of the layout in the graphics interface. -/
def ImageLayout.code : ImageLayout → Nat
  | undefined => 0
  | depthStencilAttachment => 3
  | depthStencilReadOnly => 4
  | depthReadOnlyStencilAttachment => 1000117000
  | depthAttachmentStencilReadOnly => 1000117001
  | depthAttachment => 1000241000
  | depthReadOnly => 1000241001
  | stencilAttachment => 1000241002
  | stencilReadOnly => 1000241003

/-- How the levels of the aspects map onto layouts. -/
inductive LayoutScheme where
  | separate
  | shared
deriving DecidableEq, Repr

/-- The layout of an aspect at a level when each aspect has a layout of its own. -/
def Level.layout : Level → Aspect → ImageLayout
  | undefined, _ => .undefined
  | readOnly, .depth => .depthReadOnly
  | readOnly, .stencil => .stencilReadOnly
  | writable, .depth => .depthAttachment
  | writable, .stencil => .stencilAttachment

namespace ImageLayout

/-- The shared layout for a depth and a stencil level. -/
def ofLevels (depth stencil : Level) : ImageLayout :=
  if !depth.isDefined && !stencil.isDefined then .undefined
  else match depth.isWritable, stencil.isWritable with
    | true, true => .depthStencilAttachment
    | true, false => .depthAttachmentStencilReadOnly
    | false, true => .depthReadOnlyStencilAttachment
    | false, false => .depthStencilReadOnly

/-- The one layout that serves all aspects, where `none` marks an aspect the format lacks. -/
def shared (levels : PerAspect (Option Level)) : ImageLayout :=
  match levels.depth, levels.stencil with
  | some depth, some stencil => ofLevels depth stencil
  | some depth, none => ofLevels depth depth
  | none, some stencil => ofLevels stencil stencil
  | none, none => .undefined

end ImageLayout

end DepthStencil
