import DepthStencil.Hex
import DepthStencil.TrackedImage.Basic

/-! # The text of a tracked image

A tracked image is described on one line that lists its handle, its format, the level of each aspect
it has, and the aspects written inside the open pass. -/

namespace DepthStencil.TrackedImage

/-- A record in text: its name and its fields in order. -/
def recordText (name : String) (fields : List (String × String)) : String :=
  let body := ", ".intercalate (fields.map fun (field, value) => field ++ ": " ++ value)
  name ++ " \x7b " ++ body ++ " \x7d"

/-- A truth value in text. -/
def truthText : Bool → String
  | true => "true"
  | false => "false"

/-- The description of a tracked image. -/
def text (image : TrackedImage) : String :=
  let pending := recordText "AspectPair"
    (Aspect.all.map fun a => (a.name, truthText (image.pendingWrites.get a)))
  recordText "DepthStencilResource" <|
    [("image", hex image.handle.toNat), ("format", image.format.name)] ++
      image.planeSet.planes.map (fun a => (a.name, (image.levels.get a).name)) ++
      [("pending_batch_writes", pending)]

end DepthStencil.TrackedImage
