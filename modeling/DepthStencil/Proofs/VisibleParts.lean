import DepthStencil.Proofs.Clipping
import DepthStencil.Proofs.Origins

/-! # Visible parts of rectangles

A clear is recorded for the part of its rectangle that lies inside the image, and that part is cut
to the image once more to see whether it is all of it.  The second cut never takes anything away
(`Rect.clip?_of_clip?`).

All that a clear makes of its rectangle is therefore whether it reaches any texel of the image and,
if so, whether it reaches all of them (`Rect.coverage?`, `Tracker.record_clear`). -/

namespace DepthStencil

/-! ### Cutting a second time -/

namespace Span

variable {s s' : Span} {size : UInt32}

theorem first_of_clip? (h : s.clip? size = some s') : s'.first = s.first := by
  have hstart := (ends_of_clip? h).1
  have hnonneg := s.first_nonneg
  rw [first, hstart]
  omega

/-- A clipped span ends within the image and within the coordinates, so that neither cuts it. -/
theorem past_of_clip? (h : s.clip? size = some s') : s'.past size = s.past size := by
  obtain ⟨hstart, hend⟩ := ends_of_clip? h
  have hnonneg := s.first_nonneg
  have hmax := s.past_le size
  have hsize : s.past size ≤ (size.toNat : Int) := by
    unfold past
    omega
  have hpast : s'.past size = min (s'.start.toInt + min (s'.length.toNat : Int) maxCoordinate)
    (min (size.toNat : Int) maxCoordinate) := rfl
  omega

theorem clip?_of_clip? (h : s.clip? size = some s') : s'.clip? size = some s' := by
  rw [clip?, first_of_clip? h, past_of_clip? h]
  exact h

end Span

namespace Rect

variable {r r' : Rect} {e : Extent}

theorem clip?_of_clip? (h : r.clip? e = some r') : r'.clip? e = some r' := by
  obtain ⟨hcolumns, hrows⟩ := clip?_eq_some_iff.mp h
  exact clip?_eq_some_iff.mpr ⟨Span.clip?_of_clip? hcolumns, Span.clip?_of_clip? hrows⟩

theorem covers_of_clip? (h : r.clip? e = some r') : r'.covers e = r.covers e := by
  rw [covers, covers, clip?_of_clip? h, h]

/-! ### What a clear makes of its rectangle -/

theorem coverage?_of_clip? (h : r.clip? e = some r') :
    coverage? e (some r') = coverage? e (some r) := by
  rw [coverage?, coverage?, clip?_of_clip? h, h]

theorem coverage?_of_covers (h : r.covers e = true) : coverage? e (some r) = coverage? e none := by
  have hclip : r.clip? e = some (whole e) := of_decide_eq_true h
  rw [coverage?, coverage?, hclip, Option.map_some, covers_of_clip? hclip, h]

/-- Whether a clear within a rectangle reaches any texel of an image. -/
def touches (e : Extent) (rect : Option Rect) : Bool := (coverage? e rect).isSome

theorem touches_some (e : Extent) (r : Rect) : touches e (some r) = (r.clip? e).isSome :=
  Option.isSome_map

end Rect

/-! ### Clears -/

/-- The normal form of a clear says no more of its rectangle than what it makes of it. -/
theorem TrackedImage.normalize_clear (image : TrackedImage) (aspects : PerAspect Bool)
    (rect : Option Rect) : ∃ rect', image.normalize (.clear aspects rect) =
      if aspects.any then
        (Rect.coverage? image.extent rect).map fun covers => ⟨.clear aspects rect', covers⟩
      else none := by
  rw [normalize]
  cases rect with
  | none => exact ⟨none, rfl⟩
  | some r =>
      rw [acceptClear, Rect.coverage?]
      cases r.clip? image.extent with
      | none => exact ⟨none, rfl⟩
      | some clipped => exact ⟨some clipped, rfl⟩

namespace Tracker

variable {t : Tracker} {id : ImageId} {image : TrackedImage}

/-- Clears some aspects of an image, all of it or not. -/
def clear (t : Tracker) (id : ImageId) (image : TrackedImage) (aspects : PerAspect Bool)
    (covers : Bool) : Option Request × Tracker :=
  t.recordAccepted id image ⟨.clear aspects none, covers⟩

theorem record_clear (hi : t.image? id = some image) (aspects : PerAspect Bool)
    (rect : Option Rect) : t.record id (.clear aspects rect) =
      match image.planeSet.firstOutside? aspects,
        if aspects.any then Rect.coverage? image.extent rect else none with
      | some a, _ => (.error (.missingAspect id a), t)
      | none, none => (.ok none, t)
      | none, some covers =>
        (.ok (t.clear id image aspects covers).1, (t.clear id image aspects covers).2) := by
  have hmissing : image.missing? (.clear aspects rect) = image.planeSet.firstOutside? aspects := rfl
  obtain ⟨rect', hnormal⟩ := image.normalize_clear aspects rect
  simp only [record, lookup_eq_ok.mpr hi, TrackedImage.accept, hmissing, hnormal]
  cases image.planeSet.firstOutside? aspects with
  | some a => rfl
  | none =>
      cases aspects.any with
      | false => rfl
      | true =>
          cases Rect.coverage? image.extent rect with
          | none => rfl
          | some covers => rfl

theorem record_clear_congr (hi : t.image? id = some image) {aspects : PerAspect Bool}
    {rect rect' : Option Rect}
    (h : Rect.coverage? image.extent rect = Rect.coverage? image.extent rect') :
    t.record id (.clear aspects rect) = t.record id (.clear aspects rect') := by
  rw [record_clear hi, record_clear hi, h]

/-- A clear that reaches no texel, or clears no aspect, leaves everything as it is. -/
theorem record_clear_of_untouched (hi : t.image? id = some image) {aspects : PerAspect Bool}
    (ha : image.planeSet.firstOutside? aspects = none) {rect : Option Rect}
    (h : aspects.any = false ∨ Rect.touches image.extent rect = false) :
    t.record id (.clear aspects rect) = (.ok none, t) := by
  have hnone : (if aspects.any then Rect.coverage? image.extent rect else none) = none := by
    rcases h with hany | htouches
    · rw [hany]
      rfl
    · rw [Option.isSome_eq_false_iff.mp htouches |> Option.isNone_iff_eq_none.mp, ite_self]
  rw [record_clear hi, ha, hnone]

theorem record_clear_of_touched (hi : t.image? id = some image) {aspects : PerAspect Bool}
    (ha : image.planeSet.firstOutside? aspects = none) (hany : aspects.any = true)
    {rect : Option Rect} (h : Rect.touches image.extent rect = true) :
    ∃ covers, t.record id (.clear aspects rect) =
      (.ok (t.clear id image aspects covers).1, (t.clear id image aspects covers).2) := by
  obtain ⟨covers, hcovers⟩ := Option.isSome_iff_exists.mp h
  exact ⟨covers, by rw [record_clear hi, ha, if_pos hany, hcovers]⟩

/-- A clear depends on its rectangle only through the visible part.  Its outcome is the same within
that part, and the same as without a rectangle if all of the image is visible in it.  If nothing is,
a clear of aspects that the image has leaves the tracker as it is.

Whatever the image, the visible part is not cut again and covers the image exactly if the rectangle
does. -/
theorem record_clear_visible (hi : t.image? id = some image) (aspects : PerAspect Bool) :
    (∀ r r', r.clip? image.extent = some r' →
      t.record id (.clear aspects (some r)) = t.record id (.clear aspects (some r'))) ∧
    (∀ r, r.covers image.extent = true →
      t.record id (.clear aspects (some r)) = t.record id (.clear aspects none)) ∧
    (∀ r, r.clip? image.extent = none → (∀ a, aspects.get a = true → image.has a = true) →
      t.record id (.clear aspects (some r)) = (.ok none, t)) ∧
    ∀ (r : Rect) (e : Extent), ((r.clip? e).bind fun r' => r'.clip? e) = r.clip? e ∧
      ((r.clip? e).any fun r' => r'.covers e) = r.covers e := by
  refine ⟨fun r r' h => ?_, fun r h => ?_, fun r h ha => ?_, fun r e => ?_⟩
  · exact (record_clear_congr hi (Rect.coverage?_of_clip? h)).symm
  · exact record_clear_congr hi (Rect.coverage?_of_covers h)
  · refine record_clear_of_untouched hi (PlaneSet.firstOutside?_eq_none ha) (.inr ?_)
    rw [Rect.touches_some, h]
    rfl
  · cases h : r.clip? e with
    | none => exact ⟨rfl, by rw [Rect.covers, h]; rfl⟩
    | some r' => exact ⟨Rect.clip?_of_clip? h, Rect.covers_of_clip? h⟩

/-- An image of 64 by 64 texels on which a pass is open. -/
def drawnImage : Tracker :=
  (empty {}).after
    [.register { handle := 7, format := 129, extent := ⟨64, 64⟩ },
      .record ⟨0, 0⟩ (.draw ⟨⟨true, true⟩, ⟨true, false⟩⟩)]

theorem exists_image?_drawnImage : ∃ image, drawnImage.image? ⟨0, 0⟩ = some image ∧
    image.extent = ⟨64, 64⟩ ∧ ∀ a, image.has a = true := by
  have htracked : (drawnImage.image? ⟨0, 0⟩).isSome = true := by decide
  have hsize : (drawnImage.image? ⟨0, 0⟩).all fun image => image.extent = ⟨64, 64⟩ := by decide
  have hplanes : (drawnImage.image? ⟨0, 0⟩).all fun image => image.planeSet = .depthStencil := by
    decide
  obtain ⟨image, hi⟩ := Option.isSome_iff_exists.mp htracked
  rw [hi, Option.all_some, decide_eq_true_eq] at hsize hplanes
  refine ⟨image, hi, hsize, fun a => ?_⟩
  rw [TrackedImage.has, hplanes]
  cases a <;> rfl

theorem record_clear_visible_drawnImage :
    drawnImage.record ⟨0, 0⟩ (.clear ⟨false, true⟩ (some ⟨⟨-8, 16⟩, ⟨60, 16⟩⟩)) =
        drawnImage.record ⟨0, 0⟩ (.clear ⟨false, true⟩ (some ⟨⟨0, 8⟩, ⟨60, 4⟩⟩)) ∧
      drawnImage.record ⟨0, 0⟩ (.clear ⟨false, true⟩ (some ⟨⟨-8, 80⟩, ⟨-8, 80⟩⟩)) =
        drawnImage.record ⟨0, 0⟩ (.clear ⟨false, true⟩ none) ∧
      drawnImage.record ⟨0, 0⟩ (.clear ⟨false, true⟩ (some ⟨⟨64, 8⟩, ⟨0, 8⟩⟩)) =
        (.ok none, drawnImage) := by
  obtain ⟨image, hi, hextent, hhas⟩ := exists_image?_drawnImage
  obtain ⟨hpart, hcovers, houtside, -⟩ := record_clear_visible hi ⟨false, true⟩
  exact ⟨hpart _ _ (by rw [hextent]; decide), hcovers _ (by rw [hextent]; decide),
    houtside _ (by rw [hextent]; decide) fun a _ => hhas a⟩

end Tracker

end DepthStencil
