import DepthStencil.Proofs.Rejections

/-! # Outlines of images

The outline of an image is what is known of it apart from its past: no histories, and nothing of
what the open pass has written (`TrackedImage.outline`).  It is all that decides which commands are
accepted, which levels change and whether a layout moves.

The registry of outlines (`Tracker.outline`) is never concerned by passes, and settling an image
changes nothing of its outline but the levels. -/

namespace DepthStencil

/-! ### Tables and registries with other images -/

/-- The slot with its image replaced. -/
def Slot.map (f : TrackedImage → TrackedImage) (slot : Slot) : Slot :=
  { slot with image? := slot.image?.map f }

theorem Slot.get?_map (f : TrackedImage → TrackedImage) (slot : Slot) (generation : UInt32) :
    (slot.map f).get? generation = (slot.get? generation).map f := by
  rw [get?, map, get?]
  split <;> rfl

namespace SlotTable

/-- The table with every image replaced. -/
def map (f : TrackedImage → TrackedImage) (t : SlotTable) : SlotTable :=
  { t with slots := t.slots.map (Slot.map f) }

variable (f : TrackedImage → TrackedImage) (t : SlotTable)

theorem slot_map (i : Nat) : (t.map f).slot i = (t.slot i).map f := by
  rw [slot, map, List.getElem?_map, slot]
  cases t.slots[i]? <;> rfl

theorem get?_map (id : ImageId) : (t.map f).get? id = (t.get? id).map f := by
  rw [get?_eq, slot_map, Slot.get?_map, get?_eq]

theorem contains_map (id : ImageId) : (t.map f).contains id = t.contains id := by
  rw [contains, get?_map, Option.isSome_map, contains]

theorem idAt_map (i : Nat) : (t.map f).idAt i = t.idAt i := by
  rw [idAt, slot_map]
  rfl

theorem grow_map : (t.map f).grow = t.grow.map f := by
  unfold grow
  rw [map, List.length_map]
  split
  · rw [map, List.map_append]
    rfl
  · rfl

/-- Replacing all images after a change of one slot. -/
theorem map_modify_slots (change change' : Slot → Slot)
    (h : ∀ slot, (change slot).map f = change' (slot.map f)) (slots : List Slot) (i : Nat) :
    (slots.modify i change).map (Slot.map f) = (slots.map (Slot.map f)).modify i change' := by
  apply List.ext_getElem?
  intro j
  rw [List.getElem?_map, List.getElem?_modify, List.getElem?_modify, List.getElem?_map]
  cases slots[j]? with
  | none => rfl
  | some slot =>
      split
      · exact congrArg some (h slot)
      · rfl

theorem map_insert (image : TrackedImage) :
    (t.insert image).map f = (t.map f).insert (f image) := by
  have hslots := map_modify_slots f (fun slot => slot.fill image)
    (fun slot => slot.fill (f image)) (fun _ => rfl) t.grow.slots t.numbers.firstFree
  rw [insert, insert, grow_map]
  exact congrArg (SlotTable.mk _) hslots

theorem map_erase (id : ImageId) : (t.erase id).map f = (t.map f).erase id := by
  have hslots := map_modify_slots f Slot.vacate Slot.vacate (fun _ => rfl) t.slots id.index
  rw [erase, erase, contains_map]
  split
  · exact congrArg (SlotTable.mk _) hslots
  · rfl

theorem map_modify {g g' : TrackedImage → TrackedImage} (h : ∀ image, f (g image) = g' (f image))
    (id : ImageId) : (t.modify id g).map f = (t.map f).modify id g' := by
  have hcomp : f ∘ g = g' ∘ f := funext h
  have hslot : ∀ slot : Slot,
      (slot.modify id.generation g).map f = (slot.map f).modify id.generation g' := by
    intro slot
    by_cases hgeneration : slot.generation = id.generation
    · simp only [Slot.modify, Slot.map, hgeneration, if_true, Option.map_map, hcomp]
    · simp only [Slot.modify, Slot.map, hgeneration, if_false]
  exact congrArg (SlotTable.mk _) (map_modify_slots f _ _ hslot _ _)

variable {t}

/-- A table with other images could have been made as well. -/
theorem Made.map (h : t.Made) : (t.map f).Made := by
  induction h with
  | empty => exact .empty
  | insert image _ ih =>
      rw [map_insert]
      exact ih.insert _
  | erase id _ ih =>
      rw [map_erase]
      exact ih.erase id
  | modify id g _ ih =>
      rename_i t _
      -- what the change made of the one image it met is put in the place of that image
      cases hi : t.get? id with
      | none =>
          rw [modify_eq_self fun image h => absurd (hi.symm.trans h) (by simp)]
          exact ih
      | some image =>
          have hsame : t.modify id g = t.modify id fun _ => g image :=
            modify_congr fun image' h => by rw [Option.some_inj.mp (hi.symm.trans h)]
          have hmap : (t.modify id fun _ => g image).map f =
              (t.map f).modify id fun _ => f (g image) :=
            map_modify (g := fun _ => g image) f t (fun _ => rfl) id
          rw [hsame, hmap]
          exact ih.modify id _

end SlotTable

namespace Registry

/-- The registry with every image replaced. -/
def map (f : TrackedImage → TrackedImage) (r : Registry) : Registry :=
  ⟨r.toSlotTable.map f, r.made.map f⟩

variable (f : TrackedImage → TrackedImage) (r : Registry)

theorem get?_map (id : ImageId) : (r.map f).get? id = (r.get? id).map f :=
  r.toSlotTable.get?_map f id

theorem contains_map (id : ImageId) : (r.map f).contains id = r.contains id :=
  r.toSlotTable.contains_map f id

theorem ids_map : (r.map f).ids = r.ids := by
  have hids : (r.map f).idAt = r.idAt := funext (r.toSlotTable.idAt_map f)
  rw [SlotTable.ids, hids]
  rfl

theorem nextId_map : (r.map f).nextId = r.nextId := r.toSlotTable.idAt_map f _

theorem map_insert (image : TrackedImage) :
    (r.insert image).map f = (r.map f).insert (f image) :=
  eq_of_table (r.toSlotTable.map_insert f image)

theorem map_erase (id : ImageId) : (r.erase id).map f = (r.map f).erase id :=
  eq_of_table (r.toSlotTable.map_erase f id)

theorem map_modify {g g' : TrackedImage → TrackedImage} (h : ∀ image, f (g image) = g' (f image))
    (id : ImageId) : (r.modify id g).map f = (r.map f).modify id g' :=
  eq_of_table (r.toSlotTable.map_modify f h id)

theorem map_modify_of_eq {g : TrackedImage → TrackedImage} (h : ∀ image, f (g image) = f image)
    (id : ImageId) : (r.modify id g).map f = r.map f := by
  have hmap : (r.modify id g).map f = (r.map f).modify id fun image => image :=
    map_modify f r h id
  rw [hmap, modify_eq_self fun _ _ => rfl]

end Registry

/-! ### Outlines -/

namespace TrackedImage

/-- What is known of an image apart from its past. -/
def outline (image : TrackedImage) : TrackedImage :=
  { image with histories := .both .empty, pendingWrites := .both false }

/-- The image at levels that meet some needs. -/
def relevel (needs : PerAspect Need) (image : TrackedImage) : TrackedImage :=
  { image with levels := image.settledLevels needs }

variable {image image' : TrackedImage}

theorem levels_congr (h : image'.outline = image.outline) : image'.levels = image.levels :=
  (congrArg levels h :)

theorem accept_congr (h : image'.outline = image.outline) (id : ImageId) (command : Command) :
    image'.accept id command = image.accept id command :=
  (congrArg (fun i => i.accept id command) h :)

theorem missing?_congr (h : image'.outline = image.outline) (command : Command) :
    image'.missing? command = image.missing? command := (congrArg (fun i => i.missing? command) h :)

theorem accepted?_congr (h : image'.outline = image.outline) (policy : Policy) (id : ImageId)
    (α : Action) : α.accepted? policy id image' = α.accepted? policy id image :=
  (congrArg (fun i => α.accepted? policy id i) h :)

theorem subresourceAspect?_congr (h : image'.outline = image.outline) (subresource : UInt32) :
    image'.subresourceAspect? subresource = image.subresourceAspect? subresource :=
  (congrArg (fun i => i.subresourceAspect? subresource) h :)

theorem changes_congr (h : image'.outline = image.outline) (needs : PerAspect Need) :
    image'.changes needs = image.changes needs := (congrArg (fun i => i.changes needs) h :)

theorem presentLevels_congr (h : image'.outline = image.outline) :
    image'.presentLevels = image.presentLevels := (congrArg presentLevels h :)

theorem settledLevels_congr (h : image'.outline = image.outline) (needs : PerAspect Need) :
    image'.settledLevels needs = image.settledLevels needs :=
  (congrArg (fun i => i.settledLevels needs) h :)

theorem moves_congr (h : image'.outline = image.outline) (scheme : LayoutScheme)
    (needs : PerAspect Need) : image'.moves scheme needs = image.moves scheme needs :=
  (congrArg (fun i => i.moves scheme needs) h :)

end TrackedImage

namespace Tracker

/-- The outlines of the tracked images. -/
def outline (t : Tracker) : Registry := t.registry.map TrackedImage.outline

theorem get?_outline (t : Tracker) (id : ImageId) :
    t.outline.get? id = (t.image? id).map TrackedImage.outline := Registry.get?_map _ _ id

theorem outline_modify {t t' : Tracker} {id : ImageId} {f : TrackedImage → TrackedImage}
    (h : t'.registry = t.registry.modify id f) (hf : ∀ image, (f image).outline = image.outline) :
    t'.outline = t.outline := by
  rw [outline, h]
  exact Registry.map_modify_of_eq _ _ hf id

@[simp] theorem outline_closePass (t : Tracker) : t.closePass.outline = t.outline := by
  unfold closePass
  split
  · rfl
  · exact outline_modify rfl fun _ => rfl

@[simp] theorem outline_enterPass (t : Tracker) (id : ImageId) (placement : Placement)
    (levels : PerAspect Level) (writes : PerAspect Bool) :
    (t.enterPass id placement levels writes).outline = t.outline :=
  outline_modify rfl fun _ => rfl

@[simp] theorem outline_settle (t : Tracker) (id : ImageId) (image : TrackedImage)
    (needs : PerAspect Need) (endsPass : Bool) :
    (t.settle id image needs endsPass).2.outline = t.outline.modify id (.relevel needs) := by
  have hsettle : ∀ image : TrackedImage,
      (image.settle t.policy.scheme needs).outline = image.outline.relevel needs := fun _ => rfl
  exact Registry.map_modify _ _ hsettle id

@[simp] theorem outline_recordRendering (t : Tracker) (id : ImageId) (image : TrackedImage)
    (command : Command) (needs : PerAspect Need) :
    (t.recordRendering id image command needs).2.outline =
      t.outline.modify id (.relevel needs) := by
  rw [recordRendering, outline_enterPass, outline_settle]
  split
  · rfl
  · rw [outline_closePass]

/-! ### Calls on images with the same outline -/

section congr

variable {t s : Tracker} {id : ImageId}

/-- Two trackers track images of the same outline under an identifier, or none. -/
theorem image?_cases
    (h : (s.image? id).map TrackedImage.outline = (t.image? id).map TrackedImage.outline) :
    (t.image? id = none ∧ s.image? id = none) ∨
      ∃ image image', t.image? id = some image ∧ s.image? id = some image' ∧
        image'.outline = image.outline := by
  cases hi : t.image? id with
  | none =>
      rw [hi, Option.map_none, Option.map_eq_none_iff] at h
      exact .inl ⟨rfl, h⟩
  | some image =>
      rw [hi, Option.map_some] at h
      obtain ⟨image', hi', himage⟩ := Option.map_eq_some_iff.mp h
      exact .inr ⟨image, image', rfl, hi', himage⟩

theorem subresourceAspects_congr
    (h : (s.image? id).map TrackedImage.outline = (t.image? id).map TrackedImage.outline)
    (subresource : UInt32) :
    s.subresourceAspects id subresource = t.subresourceAspects id subresource := by
  unfold subresourceAspects
  rcases image?_cases h with ⟨ht, hs⟩ | ⟨image, image', ht, hs, himage⟩
  · rw [lookup_eq_error.mpr ⟨ht, rfl⟩, lookup_eq_error.mpr ⟨hs, rfl⟩]
  · rw [lookup_eq_ok.mpr ht, lookup_eq_ok.mpr hs]
    simp only
    rw [show image'.planeSet = image.planeSet from (congrArg (fun i => i.planeSet) himage :),
      TrackedImage.subresourceAspect?_congr himage]

/-- A call on an image is made of actions that its outline decides. -/
theorem actions_congr {call : Call} (hcall : call.image? = some id)
    (h : (s.image? id).map TrackedImage.outline = (t.image? id).map TrackedImage.outline) :
    s.actions call = t.actions call := by
  cases call with
  | unregister id' => rfl
  | seed id' levels => rfl
  | record id' command => rfl
  | drawPipeline id' pipeline view => rfl
  | resourceBarrier id' subresource states =>
      obtain rfl := Option.some_inj.mp hcall
      rw [actions, actions, subresourceAspects_congr h]
  | clearView id' flags rects =>
      obtain rfl := Option.some_inj.mp hcall
      rw [actions, actions]
      rcases image?_cases h with ⟨ht, hs⟩ | ⟨image, image', ht, hs, himage⟩
      · rw [ht, hs]
      · rw [ht, hs]
        simp only
        rw [show image'.has = image.has from (congrArg (fun i => i.has) himage :)]
  | discardSubresources id' first count hasRects =>
      obtain rfl := Option.some_inj.mp hcall
      rw [actions, actions]
      rcases image?_cases h with ⟨ht, hs⟩ | ⟨image, image', ht, hs, himage⟩
      · rw [ht, hs]
      · rw [ht, hs]
        simp only
        rw [show image'.wholePlanes first count = image.wholePlanes first count from
          (congrArg (fun i => i.wholePlanes first count) himage :)]
  | register info => exact absurd hcall (by simp [Call.image?])
  | closePass => exact absurd hcall (by simp [Call.image?])
  | finish => exact absurd hcall (by simp [Call.image?])

/-- A call on an image is rejected for a reason that its outline decides. -/
theorem rejection?_congr {call : Call} (hcall : call.image? = some id)
    (h : (s.image? id).map TrackedImage.outline = (t.image? id).map TrackedImage.outline) :
    s.rejection? call = t.rejection? call := by
  have huntracked : ∀ id', Option.some id' = some id → s.untracked? id' = t.untracked? id' := by
    intro id' hid
    obtain rfl := Option.some_inj.mp hid
    rw [untracked?, untracked?]
    rcases image?_cases h with ⟨ht, hs⟩ | ⟨image, image', ht, hs, -⟩
    · rw [ht, hs]
    · rw [ht, hs]
      rfl
  cases call with
  | unregister id' => exact huntracked id' hcall
  | seed id' levels => exact huntracked id' hcall
  | record id' command =>
      obtain rfl := Option.some_inj.mp hcall
      rw [rejection?, rejection?]
      rcases image?_cases h with ⟨ht, hs⟩ | ⟨image, image', ht, hs, himage⟩
      · rw [ht, hs]
      · rw [ht, hs]
        simp only [TrackedImage.missing?_congr himage]
  | resourceBarrier id' subresource states =>
      obtain rfl := Option.some_inj.mp hcall
      rw [rejection?, rejection?]
      cases states.level? with
      | none => rfl
      | some level =>
          rcases image?_cases h with ⟨ht, hs⟩ | ⟨image, image', ht, hs, himage⟩
          · rw [ht, hs]
          · rw [ht, hs]
            simp only [TrackedImage.subresourceAspect?_congr himage]
  | clearView id' flags rects => exact huntracked id' hcall
  | discardSubresources id' first count hasRects => exact huntracked id' hcall
  | drawPipeline id' pipeline view => exact huntracked id' hcall
  | register info => exact absurd hcall (by simp [Call.image?])
  | closePass => exact absurd hcall (by simp [Call.image?])
  | finish => exact absurd hcall (by simp [Call.image?])

end congr

/-! ### Trackers with the same outlines -/

section outlines

variable {t s : Tracker}

theorem map_outline_image? (h : s.outline = t.outline) (id : ImageId) :
    (s.image? id).map TrackedImage.outline = (t.image? id).map TrackedImage.outline := by
  rw [← get?_outline, h, get?_outline]

theorem ids_of_outline (h : s.outline = t.outline) : s.registry.ids = t.registry.ids := by
  have hids := congrArg (fun r : Registry => r.ids) h
  rw [outline, outline, Registry.ids_map, Registry.ids_map] at hids
  exact hids

theorem actions_of_outline (h : s.outline = t.outline) (call : Call) :
    s.actions call = t.actions call := by
  cases hcall : call.image? with
  | some id => exact actions_congr hcall (map_outline_image? h id)
  | none =>
      cases call with
      | register info => rfl
      | closePass => rfl
      | finish =>
          have hclosed : s.closePass.outline = t.closePass.outline := by
            rw [outline_closePass, outline_closePass, h]
          rw [actions, actions, ids_of_outline hclosed]
      | unregister _ | seed _ _ | record _ _ | resourceBarrier _ _ _ | clearView _ _ _
      | discardSubresources _ _ _ _ | drawPipeline _ _ _ =>
          exact absurd hcall (by simp [Call.image?])

theorem rejection?_of_outline (h : s.outline = t.outline) (call : Call) :
    s.rejection? call = t.rejection? call := by
  cases hcall : call.image? with
  | some id => exact rejection?_congr hcall (map_outline_image? h id)
  | none =>
      cases call with
      | register _ | closePass | finish => rfl
      | unregister _ | seed _ _ | record _ _ | resourceBarrier _ _ _ | clearView _ _ _
      | discardSubresources _ _ _ _ | drawPipeline _ _ _ =>
          exact absurd hcall (by simp [Call.image?])

end outlines

end Tracker

end DepthStencil
