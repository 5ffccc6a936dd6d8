/-! # Rectangles and extents

A rectangle of texels is a `Span` of columns and a `Span` of rows.  A span may begin before the
first texel and end beyond the last one; `Span.clip?` cuts it to the texels that exist.

Texel coordinates are signed 32-bit numbers.  Lengths and image sizes above the greatest coordinate
count as that coordinate, so a part of an image beyond it is never reached. -/

namespace DepthStencil

/-- The greatest texel coordinate. -/
def maxCoordinate : Int := 2147483647

/-- A run of texels along one axis. -/
structure Span where
  start : Int32
  length : UInt32
deriving DecidableEq, Repr

/-- The size of an image. -/
structure Extent where
  width : UInt32
  height : UInt32
deriving DecidableEq, Repr

/-- A rectangle of texels. -/
structure Rect where
  columns : Span
  rows : Span
deriving DecidableEq, Repr

namespace Span

/-- The whole of an axis of `size` texels. -/
def whole (size : UInt32) : Span := ⟨0, size⟩

/-- The first coordinate of the span within the image. -/
def first (s : Span) : Int := max s.start.toInt 0

/-- The coordinate just past the span in an image of `size` texels. -/
def past (s : Span) (size : UInt32) : Int :=
  min (s.start.toInt + min (s.length.toNat : Int) maxCoordinate)
    (min (size.toNat : Int) maxCoordinate)

/-- The part of the span on an axis of `size` texels, or `none` if that is empty. -/
def clip? (s : Span) (size : UInt32) : Option Span :=
  if s.past size ≤ s.first then none
  else some ⟨.ofInt s.first, .ofNat (s.past size - s.first).toNat⟩

end Span

namespace Rect

/-- The whole of an image. -/
def whole (e : Extent) : Rect := ⟨.whole e.width, .whole e.height⟩

/-- The part of the rectangle inside an image, or `none` if nothing of it is left. -/
def clip? (r : Rect) (e : Extent) : Option Rect :=
  match r.columns.clip? e.width, r.rows.clip? e.height with
  | some columns, some rows => some ⟨columns, rows⟩
  | _, _ => none

/-- Whether the rectangle reaches every texel of an image. -/
def covers (r : Rect) (e : Extent) : Bool := r.clip? e = some (whole e)

end Rect

end DepthStencil
