import DepthStencil.ImageId
import DepthStencil.Slots
import DepthStencil.TrackedImage.Basic

/-! # Tables of tracked images

A `SlotTable` keeps tracked images in a list of slots and, apart from the list, the numbers of the
slots in use.  An image is found only under the generation that its slot had when the image was put
there, because giving the slot up raises the generation.

List and numbers are kept in step by hand (`SlotTable.InStep`).  There is a slot for every number
that was ever used, and a number is in use exactly if its slot keeps an image.  So it is in every
table that is made by these operations (`SlotTable.Made.inStep`). -/

namespace DepthStencil

/-- A place for a tracked image. -/
structure Slot where
  /-- How often the slot was given up.  The count starts over after the greatest number. -/
  generation : UInt32 := 0
  image? : Option TrackedImage := none
deriving DecidableEq, Repr

namespace Slot

/-- The image kept under a generation of the slot. -/
def get? (slot : Slot) (generation : UInt32) : Option TrackedImage :=
  if slot.generation = generation then slot.image? else none

/-- Changes the image kept under a generation of the slot. -/
def modify (slot : Slot) (generation : UInt32) (f : TrackedImage → TrackedImage) : Slot :=
  if slot.generation = generation then { slot with image? := slot.image?.map f } else slot

/-- The slot with an image put into it. -/
def fill (slot : Slot) (image : TrackedImage) : Slot := { slot with image? := some image }

/-- The slot after its image was given up. -/
def vacate (slot : Slot) : Slot := ⟨slot.generation + 1, none⟩

end Slot

/-- Tracked images in slots. -/
structure SlotTable where
  /-- The numbers of the slots in use. -/
  numbers : Slots Unit
  slots : List Slot
deriving DecidableEq, Repr

namespace SlotTable

instance : EmptyCollection SlotTable := ⟨⟨∅, []⟩⟩

/-- A slot by its number.  One that is not there yet has no image and was never given up. -/
def slot (t : SlotTable) (i : Nat) : Slot := t.slots[i]?.getD {}

/-- The current identifier of a slot. -/
def idAt (t : SlotTable) (i : Nat) : ImageId := ⟨i, (t.slot i).generation⟩

/-- The image tracked under an identifier. -/
def get? (t : SlotTable) (id : ImageId) : Option TrackedImage :=
  t.slots[id.index]?.bind fun slot => slot.get? id.generation

/-- Whether an image is tracked under the identifier. -/
def contains (t : SlotTable) (id : ImageId) : Bool := (t.get? id).isSome

/-- The identifier that the next image will have. -/
def nextId (t : SlotTable) : ImageId := t.idAt t.numbers.firstFree

/-- The table with a slot for the lowest free number.  Only the one after the last is added. -/
def grow (t : SlotTable) : SlotTable :=
  if t.numbers.firstFree = t.slots.length then { t with slots := t.slots ++ [{}] } else t

/-- Tracks an image under `nextId`. -/
def insert (t : SlotTable) (image : TrackedImage) : SlotTable where
  numbers := t.numbers.insert ()
  slots := t.grow.slots.modify t.numbers.firstFree fun slot => slot.fill image

/-- Gives up the slot of an image and with it the identifier. -/
def erase (t : SlotTable) (id : ImageId) : SlotTable :=
  if t.contains id then
    ⟨t.numbers.erase id.index, t.slots.modify id.index Slot.vacate⟩
  else t

/-- Changes what is believed of an image. -/
def modify (t : SlotTable) (id : ImageId) (f : TrackedImage → TrackedImage) : SlotTable :=
  { t with slots := t.slots.modify id.index fun slot => slot.modify id.generation f }

/-- The identifiers of the tracked images in the order of their slots. -/
def ids (t : SlotTable) : List ImageId := t.numbers.keys.map t.idAt

/-- The tracked images with their identifiers, in the order of their slots. -/
def toList (t : SlotTable) : List (ImageId × TrackedImage) :=
  t.ids.filterMap fun id => (t.get? id).map fun image => (id, image)

/-- The number of tracked images. -/
def size (t : SlotTable) : Nat := t.numbers.size

/-- Whether nothing is tracked. -/
def isEmpty (t : SlotTable) : Bool := t.numbers.isEmpty

variable {t : SlotTable} {id : ImageId}

/-! ### Slot by slot -/

theorem get?_eq (t : SlotTable) (id : ImageId) :
    t.get? id = (t.slot id.index).get? id.generation := by
  rw [get?, slot]
  cases t.slots[id.index]? with
  | none => exact (ite_self none).symm
  | some slot => rfl

theorem get?_idAt (t : SlotTable) (i : Nat) : t.get? (t.idAt i) = (t.slot i).image? := by
  rw [get?_eq]
  exact if_pos rfl

theorem contains_iff : t.contains id = true ↔
    (t.slot id.index).generation = id.generation ∧ (t.slot id.index).image?.isSome = true := by
  rw [contains, get?_eq, Slot.get?]
  split
  · rename_i hgeneration
    exact ⟨fun h => ⟨hgeneration, h⟩, And.right⟩
  · rename_i hne
    simp [hne]

theorem erase_of_not_contains (h : t.contains id = false) : t.erase id = t := by
  rw [erase, h]
  rfl

theorem slot_of_length_le {i : Nat} (h : t.slots.length ≤ i) : t.slot i = {} := by
  rw [slot, List.getElem?_eq_none h]
  rfl

/-- What is at a number after a change of the slot with one number. -/
theorem slot_of_modify {t' : SlotTable} {i : Nat} {f : Slot → Slot}
    (h : t'.slots = t.slots.modify i f) (hf : t.slots.length ≤ i → f {} = {}) (j : Nat) :
    t'.slot j = if i = j then f (t.slot j) else t.slot j := by
  rw [slot, h, List.getElem?_modify, slot]
  split
  · rename_i hi
    cases hslot : t.slots[j]? with
    | none => exact (hf (hi ▸ List.getElem?_eq_none_iff.mp hslot)).symm
    | some slot => rfl
  · rw [id_map']

theorem slot_grow (t : SlotTable) (i : Nat) : t.grow.slot i = t.slot i := by
  unfold grow
  split
  · rcases Nat.lt_or_ge i t.slots.length with h | h
    · rw [slot, List.getElem?_append_left h, slot]
    · rw [slot_of_length_le h, slot, List.getElem?_append_right h]
      rcases i - t.slots.length with _ | n <;> rfl
  · rfl

theorem slot_insert (h : t.numbers.firstFree < t.grow.slots.length) (image : TrackedImage)
    (i : Nat) : (t.insert image).slot i =
      if t.numbers.firstFree = i then (t.slot i).fill image else t.slot i := by
  have hslots : (t.insert image).slots =
      t.grow.slots.modify t.numbers.firstFree fun slot => slot.fill image := rfl
  rw [← slot_grow t i]
  exact slot_of_modify hslots (fun hle => absurd h (Nat.not_lt_of_le hle)) i

theorem slot_erase (h : t.contains id = true) (i : Nat) :
    (t.erase id).slot i = if id.index = i then (t.slot i).vacate else t.slot i := by
  rw [erase, if_pos h]
  refine slot_of_modify rfl (fun hle => absurd h ?_) i
  rw [contains_iff, slot_of_length_le hle]
  simp

theorem slot_modify (t : SlotTable) (id : ImageId) (f : TrackedImage → TrackedImage) (i : Nat) :
    (t.modify id f).slot i =
      if id.index = i then (t.slot i).modify id.generation f else t.slot i := by
  have hslots : (t.modify id f).slots =
      t.slots.modify id.index fun slot => slot.modify id.generation f := rfl
  exact slot_of_modify hslots (fun _ => ite_self _) i

/-! ### Numbers and slots in step -/

/-- Whether there is a slot for every number that was ever used, and a number is in use exactly if
its slot keeps an image. -/
structure InStep (t : SlotTable) : Prop where
  length : t.numbers.entries.length = t.slots.length
  inUse : ∀ i, t.numbers.contains i = (t.slot i).image?.isSome

/-- Tables that are made by operations. -/
inductive Made : SlotTable → Prop
  | empty : Made ∅
  | insert {t : SlotTable} (image : TrackedImage) (h : Made t) : Made (t.insert image)
  | erase {t : SlotTable} (id : ImageId) (h : Made t) : Made (t.erase id)
  | modify {t : SlotTable} (id : ImageId) (f : TrackedImage → TrackedImage) (h : Made t) :
    Made (t.modify id f)

theorem inStep_empty : (∅ : SlotTable).InStep := ⟨rfl, fun _ => rfl⟩

theorem InStep.length_grow (h : t.InStep) :
    t.grow.slots.length = max t.slots.length (t.numbers.firstFree + 1) := by
  have hle : t.numbers.firstFree ≤ t.slots.length := h.length ▸ t.numbers.firstFree_le
  unfold grow
  split
  · rename_i hfree
    rw [List.length_append, List.length_singleton, hfree, Nat.max_eq_right (Nat.le_succ _)]
  · rename_i hfree
    rw [Nat.max_eq_left (Nat.lt_of_le_of_ne hle hfree)]

/-- There is a slot for the next image once the table has grown. -/
theorem InStep.firstFree_lt (h : t.InStep) : t.numbers.firstFree < t.grow.slots.length := by
  rw [h.length_grow]
  exact Nat.le_max_right _ _

theorem length_slots_insert (t : SlotTable) (image : TrackedImage) :
    (t.insert image).slots.length = t.grow.slots.length := List.length_modify _ _ _

theorem length_slots_erase (t : SlotTable) (id : ImageId) :
    (t.erase id).slots.length = t.slots.length := by
  rw [erase]
  split
  · exact List.length_modify _ _ _
  · rfl

theorem InStep.insert (h : t.InStep) (image : TrackedImage) : (t.insert image).InStep := by
  constructor
  · have hnumbers : (t.insert image).numbers.entries.length = _ := t.numbers.length_insert ()
    -- both get another entry exactly when no number below their end is free
    rw [length_slots_insert, hnumbers, h.length_grow, h.length]
  · intro i
    have hnumbers : (t.insert image).numbers.contains i = _ := t.numbers.contains_insert () i
    rw [hnumbers, slot_insert h.firstFree_lt, h.inUse]
    by_cases hi : t.numbers.firstFree = i
    · rw [if_pos hi, if_pos hi.symm]
      rfl
    · rw [if_neg hi, if_neg (Ne.symm hi)]

theorem InStep.erase (h : t.InStep) (id : ImageId) : (t.erase id).InStep := by
  cases hid : t.contains id with
  | false =>
      rw [erase_of_not_contains hid]
      exact h
  | true =>
      have hnumbers : (t.erase id).numbers = t.numbers.erase id.index := by
        rw [SlotTable.erase, if_pos hid]
      constructor
      · rw [hnumbers, length_slots_erase]
        exact List.length_set.trans h.length
      · intro i
        rw [hnumbers, Slots.contains_erase, slot_erase hid, h.inUse]
        by_cases hi : id.index = i
        · rw [if_pos hi, if_pos hi.symm]
          rfl
        · rw [if_neg hi, if_neg (Ne.symm hi)]

theorem InStep.modify (h : t.InStep) (id : ImageId) (f : TrackedImage → TrackedImage) :
    (t.modify id f).InStep := by
  constructor
  · exact h.length.trans (List.length_modify _ _ _).symm
  · intro i
    rw [slot_modify]
    refine (h.inUse i).trans ?_
    split
    · rw [Slot.modify]
      split
      · exact Option.isSome_map.symm
      · rfl
    · rfl

/-- Numbers and slots are in step in every table that is made by operations. -/
theorem Made.inStep (h : t.Made) : t.InStep := by
  induction h with
  | empty => exact inStep_empty
  | insert image _ ih => exact ih.insert image
  | erase id _ ih => exact ih.erase id
  | modify id f _ ih => exact ih.modify id f

/-! ### Through `get?` -/

theorem get?_modify (t : SlotTable) (id id' : ImageId) (f : TrackedImage → TrackedImage) :
    (t.modify id f).get? id' = if id' = id then (t.get? id').map f else t.get? id' := by
  obtain ⟨i, g⟩ := id
  obtain ⟨j, g'⟩ := id'
  rw [get?_eq, slot_modify, get?_eq]
  by_cases hj : i = j
  · subst hj
    by_cases hg : (t.slot i).generation = g
    · by_cases hg' : g = g' <;> simp [Slot.get?, Slot.modify, hg, hg', Ne.symm]
    · by_cases hg' : g' = g <;> simp [Slot.get?, Slot.modify, hg, hg']
  · simp [hj, Ne.symm hj]

/-- What becomes of other images does not matter. -/
theorem modify_congr {f g : TrackedImage → TrackedImage}
    (h : ∀ image, t.get? id = some image → f image = g image) : t.modify id f = t.modify id g := by
  have hslot : (t.slot id.index).modify id.generation f =
      (t.slot id.index).modify id.generation g := by
    rw [get?_eq, Slot.get?] at h
    unfold Slot.modify
    split
    · rename_i hgeneration
      rw [if_pos hgeneration] at h
      rw [Option.map_congr h]
    · rfl
  rw [modify, modify, SlotTable.mk.injEq]
  refine ⟨rfl, List.ext_getElem? fun j => ?_⟩
  rw [List.getElem?_modify, List.getElem?_modify]
  split
  · rename_i hj
    subst hj
    rw [slot] at hslot
    cases hs : t.slots[id.index]? with
    | none => rfl
    | some slot =>
        rw [hs] at hslot
        exact congrArg some hslot
  · rfl

theorem modify_eq_self {f : TrackedImage → TrackedImage}
    (h : ∀ image, t.get? id = some image → f image = image) : t.modify id f = t := by
  have hid : (fun slot : Slot => slot.modify id.generation fun image => image) =
      fun slot => slot := by
    funext slot
    rw [Slot.modify, Option.map_id']
    exact ite_self slot
  have hself : t.modify id (fun image => image) = t := by
    rw [modify, hid]
    exact congrArg (SlotTable.mk t.numbers) (List.modify_id id.index t.slots)
  exact (modify_congr h).trans hself

theorem get?_erase (t : SlotTable) (id id' : ImageId) :
    (t.erase id).get? id' = if id' = id then none else t.get? id' := by
  cases hid : t.contains id with
  | false =>
      have hnone : t.get? id = none := by simpa [contains] using hid
      rw [erase_of_not_contains hid]
      by_cases he : id' = id
      · rw [if_pos he, he, hnone]
      · rw [if_neg he]
  | true =>
      have hgeneration := (contains_iff.mp hid).1
      obtain ⟨i, g⟩ := id
      obtain ⟨j, g'⟩ := id'
      rw [get?_eq, slot_erase hid, get?_eq]
      by_cases hj : i = j
      · subst hj
        by_cases hg : g' = g
        · simp [Slot.get?, Slot.vacate, hg]
        · simp [Slot.get?, Slot.vacate, hg, hgeneration, Ne.symm hg]
      · simp [hj, Ne.symm hj]

theorem InStep.get?_nextId (h : t.InStep) : t.get? t.nextId = none := by
  have hfree := h.inUse t.numbers.firstFree
  rw [Slots.contains, Slots.get?_firstFree] at hfree
  rw [nextId, get?_idAt]
  simpa using hfree.symm

theorem InStep.get?_insert (h : t.InStep) (image : TrackedImage) (id : ImageId) :
    (t.insert image).get? id = if id = t.nextId then some image else t.get? id := by
  obtain ⟨i, g⟩ := id
  rw [get?_eq, slot_insert h.firstFree_lt, get?_eq, nextId, idAt]
  by_cases hi : t.numbers.firstFree = i
  · subst hi
    by_cases hg : (t.slot t.numbers.firstFree).generation = g
    · simp [Slot.get?, Slot.fill, hg]
    · simp [Slot.get?, Slot.fill, hg, Ne.symm hg]
  · simp [hi, Ne.symm hi]

end SlotTable

end DepthStencil
