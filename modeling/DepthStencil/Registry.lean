import DepthStencil.SlotTable

/-! # The registry of tracked images

A `Registry` is a table of tracked images that was made by the operations on tables and by nothing
else, so its numbers and slots are in step.  Seen through `get?`, `insert` defines one identifier,
`erase` undefines one and `modify` changes what one stands for, and no other changes. -/

namespace DepthStencil

/-- Tracked images by their identifiers. -/
structure Registry extends SlotTable where
  made : toSlotTable.Made
deriving DecidableEq, Repr

namespace Registry

instance : EmptyCollection Registry := ⟨⟨∅, .empty⟩⟩

/-- Tracks an image under `nextId`. -/
def insert (r : Registry) (image : TrackedImage) : Registry :=
  ⟨r.toSlotTable.insert image, r.made.insert image⟩

/-- Gives up the slot of an image and with it the identifier. -/
def erase (r : Registry) (id : ImageId) : Registry :=
  ⟨r.toSlotTable.erase id, r.made.erase id⟩

/-- Changes what is believed of an image. -/
def modify (r : Registry) (id : ImageId) (f : TrackedImage → TrackedImage) : Registry :=
  ⟨r.toSlotTable.modify id f, r.made.modify id f⟩

/-! ### Through `get?` -/

theorem eq_of_table {r r' : Registry} (h : r.toSlotTable = r'.toSlotTable) : r = r' := by
  obtain ⟨t, _⟩ := r
  obtain ⟨t', _⟩ := r'
  cases h
  rfl

theorem erase_of_not_contains {r : Registry} {id : ImageId} (h : r.contains id = false) :
    r.erase id = r := eq_of_table (SlotTable.erase_of_not_contains h)

theorem get?_nextId (r : Registry) : r.get? r.nextId = none := r.made.inStep.get?_nextId

theorem get?_insert (r : Registry) (image : TrackedImage) (id : ImageId) :
    (r.insert image).get? id = if id = r.nextId then some image else r.get? id :=
  r.made.inStep.get?_insert image id

theorem get?_modify (r : Registry) (id id' : ImageId) (f : TrackedImage → TrackedImage) :
    (r.modify id f).get? id' = if id' = id then (r.get? id').map f else r.get? id' :=
  r.toSlotTable.get?_modify id id' f

theorem get?_erase (r : Registry) (id id' : ImageId) :
    (r.erase id).get? id' = if id' = id then none else r.get? id' :=
  r.toSlotTable.get?_erase id id'

theorem modify_congr {r : Registry} {id : ImageId} {f g : TrackedImage → TrackedImage}
    (h : ∀ image, r.get? id = some image → f image = g image) : r.modify id f = r.modify id g :=
  eq_of_table (SlotTable.modify_congr h)

theorem modify_eq_self {r : Registry} {id : ImageId} {f : TrackedImage → TrackedImage}
    (h : ∀ image, r.get? id = some image → f image = image) : r.modify id f = r :=
  eq_of_table (SlotTable.modify_eq_self h)

end Registry

end DepthStencil
