import DepthStencil.Proofs.Flushes
import DepthStencil.Proofs.PassLog
import DepthStencil.Proofs.Schemes
import DepthStencil.Proofs.VisibleParts

/-! # Clears of several rectangles

A view is cleared within one rectangle after the other, each time by a command of its own.  Once one
of them has reached a texel, the aspects are written and the pass on the image is open
(`Tracker.Cleared`).  All that the same clear can do then is to be counted into that pass
(`Tracker.Cleared.clear`), so a clear of several rectangles comes to the clear of the first visible
one (`Tracker.clearView_repeated`). -/

namespace DepthStencil

theorem PerAspect.union_eq_left {p q : PerAspect Bool}
    (h : ∀ a, q.get a = true → p.get a = true) : p.union q = p := by
  apply PerAspect.ext_get
  intro a
  rw [PerAspect.get_union]
  cases hq : q.get a with
  | false => exact Bool.or_false _
  | true =>
      rw [h a hq]
      rfl

/-- Aspects that were just written are as a clear leaves them. -/
theorem TrackedImage.settle_of_written {image : TrackedImage} {aspects : PerAspect Bool}
    (h : ∀ a, aspects.get a = true → image.Written a false) (scheme : LayoutScheme)
    (discards : Bool) :
    image.moves scheme ((Command.clear aspects none).needs discards) = false ∧
      image.settle scheme ((Command.clear aspects none).needs discards) = image := by
  have hmeets : ∀ a, (((Command.clear aspects none).needs discards).get a).demand.Meets
      (image.levels.get a) := by
    intro a
    rw [Command.get_needs_clear]
    split
    · rename_i hmarked
      rw [(h a hmarked).level]
      exact Level.le_refl _
    · trivial
  refine ⟨moves_of_meets hmeets, settle_of_meets hmeets fun a => ?_⟩
  rw [Command.get_needs_clear]
  split
  · rename_i hmarked
    have haccess : (Need.toWrite discards).access = .write := rfl
    rw [(h a hmarked).history, haccess]
    decide
  · rfl

namespace Tracker

variable {t : Tracker} {id : ImageId} {image : TrackedImage} {aspects : PerAspect Bool}

/-! ### More commands in the open pass -/

/-- The tracker after that many more commands went into the open pass and left no other trace. -/
def foldMore (t : Tracker) (n : Nat) : Tracker :=
  { t with
    pass? := t.pass?.map fun p => { p with operations := p.operations + .ofNat n }
    stats := { t.stats with folded := t.stats.folded + n } }

theorem foldMore_zero (t : Tracker) : t.foldMore 0 = t := by
  have hpass : t.pass?.map (fun p => { p with operations := p.operations + .ofNat 0 }) =
      t.pass? := by simp
  rw [foldMore, hpass]
  rfl

theorem foldMore_foldMore (t : Tracker) (m n : Nat) :
    (t.foldMore m).foldMore n = t.foldMore (m + n) := by
  simp only [foldMore, Option.map_map, Function.comp_def, Nat.add_assoc, UInt32.add_assoc,
    UInt32.ofNat_add]

/-- The pass has that many more commands, unless it has more than it can count. -/
theorem operations_foldMore {p : Pass} {n : Nat} (hp : t.pass? = some p)
    (h : p.operations.toNat + n < UInt32.size) :
    (t.foldMore n).pass?.map (fun p => p.operations.toNat) = some (p.operations.toNat + n) := by
  rw [foldMore, hp, Option.map_some, Option.map_some, Pass.toNat_operations_add h]

/-! ### After a clear -/

/-- Whether some aspects of an image were written last, inside the pass that is still open. -/
structure Cleared (t : Tracker) (id : ImageId) (image : TrackedImage) (aspects : PerAspect Bool) :
    Prop where
  tracked : t.image? id = some image
  written : ∀ a, aspects.get a = true → image.Written a false
  pending : ∀ a, aspects.get a = true → image.pendingWrites.get a = true
  opened : ∃ p, t.pass? = some p ∧ p.image = id ∧ ∀ a, aspects.get a = true → p.writes.get a = true

theorem exists_image?_recordRendering {stored : TrackedImage} (hi : t.image? id = some stored)
    (image : TrackedImage) (command : Command) (needs : PerAspect Need) :
    ∃ image₀ : TrackedImage, image₀.endPass = stored.endPass ∧
      (t.recordRendering id image command needs).2.image? id =
        some ((image₀.settle t.policy.scheme needs).markWritten command.writes) := by
  rw [recordRendering, image?_enterPass, if_pos rfl, image?_settle, if_pos rfl]
  split
  · exact ⟨stored, rfl, by rw [hi]; rfl⟩
  · rw [image?_closePass, hi, policy_closePass]
    split
    · exact ⟨stored.endPass, rfl, rfl⟩
    · exact ⟨stored, rfl, rfl⟩

theorem exists_pass_recordRendering (t : Tracker) (id : ImageId) (image : TrackedImage)
    (command : Command) (needs : PerAspect Need) :
    ∃ p, (t.recordRendering id image command needs).2.pass? = some p ∧ p.image = id ∧
      ∀ a, command.writes.get a = true → p.writes.get a = true := by
  have hwrites : ∀ (p : Pass) a, command.writes.get a = true →
      (p.record command.writes).writes.get a = true := fun p a hmarked => by
    rw [Pass.get_writes_record, hmarked, Bool.or_true]
  rw [pass?_recordRendering]
  split
  · rename_i hfold
    obtain ⟨p, hp, hid⟩ := Pass.isOpenOn_iff.mp (Pass.place_eq_fold.mp hfold).1
    exact ⟨p.record command.writes, by rw [hp]; rfl, hid, hwrites p⟩
  · exact ⟨_, rfl, rfl, hwrites _⟩

/-- A clear leaves its aspects written inside the open pass. -/
theorem exists_cleared_clear (hi : t.image? id = some image)
    (ha : image.planeSet.firstOutside? aspects = none) (covers : Bool) :
    ∃ image', image'.extent = image.extent ∧
      (t.clear id image aspects covers).2.Cleared id image' aspects := by
  obtain ⟨image₀, hend, himage⟩ := exists_image?_recordRendering hi image (.clear aspects none)
    ((Command.clear aspects none).needs (covers && t.policy.discardOnFullClear))
  have hextent : image₀.extent = image.extent := (congrArg TrackedImage.extent hend :)
  have hplanes : image₀.planeSet = image.planeSet := (congrArg TrackedImage.planeSet hend :)
  refine ⟨_, ?_, himage, fun a hmarked => ?_, fun a hmarked => ?_,
    exists_pass_recordRendering t id image (.clear aspects none) _⟩
  · exact hextent
  · have hpresent : image₀.has a = true := by
      rw [TrackedImage.has, hplanes]
      exact PlaneSet.has_of_firstOutside? ha hmarked
    have hneed : ((Command.clear aspects none).needs
        (covers && t.policy.discardOnFullClear)).get a =
          .toWrite (covers && t.policy.discardOnFullClear) := by
      rw [Command.get_needs_clear, if_pos hmarked]
    have hwritten : (image₀.settle t.policy.scheme ((Command.clear aspects none).needs
        (covers && t.policy.discardOnFullClear))).Written a false :=
      TrackedImage.written_of_toWrite hpresent hneed
    exact ⟨hpresent, hwritten.level, hwritten.history⟩
  · exact (PerAspect.get_union image₀.pendingWrites aspects a).trans (by rw [hmarked, Bool.or_true])

/-! ### The same clear once more -/

theorem Cleared.foldMore (h : t.Cleared id image aspects) (n : Nat) :
    (t.foldMore n).Cleared id image aspects := by
  obtain ⟨p, hp, hid, hwrites⟩ := h.opened
  exact ⟨h.tracked, h.written, h.pending, { p with operations := p.operations + .ofNat n },
    by rw [Tracker.foldMore, hp]; rfl, hid, hwrites⟩

theorem Cleared.place (h : t.Cleared id image aspects) (discards : Bool) :
    Pass.place t.pass? id (image.moves t.policy.scheme
      ((Command.clear aspects none).needs discards)) = .fold := by
  obtain ⟨p, hp, hid, -⟩ := h.opened
  exact Pass.place_eq_fold.mpr ⟨Pass.isOpenOn_iff.mpr ⟨p, hp, hid⟩,
    (TrackedImage.settle_of_written h.written t.policy.scheme discards).1⟩

theorem Cleared.settle (h : t.Cleared id image aspects) (discards endsPass : Bool) :
    t.settle id image ((Command.clear aspects none).needs discards) endsPass = (none, t) := by
  obtain ⟨hmoves, hsettle⟩ :=
    TrackedImage.settle_of_written h.written t.policy.scheme discards
  have hregistry : t.registry.modify id (fun image => image.settle t.policy.scheme
      ((Command.clear aspects none).needs discards)) = t.registry :=
    Registry.modify_eq_self fun image' hi => by
      obtain rfl := Option.some_inj.mp (hi.symm.trans h.tracked)
      exact hsettle
  rw [Tracker.settle, TrackedImage.request?, hmoves, hregistry]
  rfl

theorem Cleared.enterPass (h : t.Cleared id image aspects) (levels : PerAspect Level) :
    t.enterPass id .fold levels aspects = t.foldMore 1 := by
  have hregistry : t.registry.modify id (fun image => image.markWritten aspects) = t.registry :=
    Registry.modify_eq_self fun image' hi => by
      obtain rfl := Option.some_inj.mp (hi.symm.trans h.tracked)
      rw [TrackedImage.markWritten, PerAspect.union_eq_left h.pending]
  obtain ⟨p, hp, -, hwrites⟩ := h.opened
  rw [Tracker.enterPass, Tracker.foldMore, hregistry, if_pos rfl, hp, Option.map_some,
    Option.map_some, Pass.record, PerAspect.union_eq_left hwrites]
  rfl

/-- Clearing aspects that were cleared inside the open pass is counted and does nothing else. -/
theorem Cleared.clear (h : t.Cleared id image aspects) (covers : Bool) :
    t.clear id image aspects covers = (none, t.foldMore 1) := by
  simp only [Tracker.clear, recordAccepted, recordRendering, h.place, if_true, ne_eq, not_true,
    decide_false, Bool.false_and, h.settle, Command.writes, h.enterPass]

/-! ### Clears of several rectangles -/

theorem clearEach_cons {rect : Option Rect} {rects : List (Option Rect)} {request? : Option Request}
    {t' t'' : Tracker} {requests : List Request}
    (h : t.record id (.clear aspects rect) = (.ok request?, t'))
    (hrest : clearEach id aspects rects t' = (.ok requests, t'')) :
    clearEach id aspects (rect :: rects) t = (.ok (request?.toList ++ requests), t'') := by
  simp only [clearEach, h, hrest]

theorem clearEach_of_untouched (hi : t.image? id = some image)
    (ha : image.planeSet.firstOutside? aspects = none) {rects : List (Option Rect)}
    (h : aspects.any = false ∨ ∀ rect ∈ rects, Rect.touches image.extent rect = false) :
    clearEach id aspects rects t = (.ok [], t) := by
  induction rects with
  | nil => rfl
  | cons rect rects ih =>
      have hfirst := h.imp_right fun hall => hall rect List.mem_cons_self
      have hrest := h.imp_right fun hall rect' hmem => hall rect' (List.mem_cons_of_mem rect hmem)
      exact clearEach_cons (record_clear_of_untouched hi ha hfirst) (ih hrest)

/-- After a clear, each further rectangle is counted if it reaches any texel. -/
theorem Cleared.clearEach (h : t.Cleared id image aspects) (hany : aspects.any = true)
    (rects : List (Option Rect)) : clearEach id aspects rects t =
      (.ok [], t.foldMore (rects.countP (Rect.touches image.extent))) := by
  have ha : image.planeSet.firstOutside? aspects = none :=
    PlaneSet.firstOutside?_eq_none fun a hmarked => (h.written a hmarked).present
  induction rects generalizing t with
  | nil => rw [List.countP_nil, foldMore_zero]; rfl
  | cons rect rects ih =>
      cases htouches : Rect.touches image.extent rect with
      | false =>
          rw [List.countP_cons_of_neg (by rw [htouches]; simp)]
          exact clearEach_cons (record_clear_of_untouched h.tracked ha (.inr htouches)) (ih h)
      | true =>
          obtain ⟨covers, hrecord⟩ := record_clear_of_touched h.tracked ha hany htouches
          rw [h.clear] at hrecord
          rw [List.countP_cons_of_pos htouches, Nat.add_comm, ← foldMore_foldMore]
          exact clearEach_cons hrecord (ih (h.foldMore 1))

/-- Clears within several rectangles come to the clear within the first one that reaches any texel,
and the others are counted. -/
theorem clearEach_of_touched (hi : t.image? id = some image)
    (ha : image.planeSet.firstOutside? aspects = none) (hany : aspects.any = true)
    {rects rest : List (Option Rect)} {rect : Option Rect}
    (h : rects.filter (Rect.touches image.extent) = rect :: rest) :
    ∃ request? t', t.record id (.clear aspects rect) = (.ok request?, t') ∧
      Pass.isOpenOn t'.pass? id = true ∧
      Tracker.clearEach id aspects rects t = (.ok request?.toList, t'.foldMore rest.length) := by
  induction rects with
  | nil => exact absurd h (by simp)
  | cons rect' rects ih =>
      cases htouches : Rect.touches image.extent rect' with
      | false =>
          rw [List.filter_cons_of_neg (by rw [htouches]; simp)] at h
          obtain ⟨request?, t', hrecord, hopen, heach⟩ := ih h
          exact ⟨request?, t', hrecord, hopen,
            clearEach_cons (record_clear_of_untouched hi ha (.inr htouches)) heach⟩
      | true =>
          rw [List.filter_cons_of_pos htouches] at h
          obtain ⟨rfl, rfl⟩ := List.cons.inj h
          obtain ⟨covers, hrecord⟩ := record_clear_of_touched hi ha hany htouches
          obtain ⟨image', hextent, hcleared⟩ := exists_cleared_clear hi ha covers
          obtain ⟨p, hp, hid, -⟩ := hcleared.opened
          refine ⟨_, _, hrecord, Pass.isOpenOn_iff.mpr ⟨p, hp, hid⟩, ?_⟩
          rw [← List.countP_eq_length_filter, ← hextent]
          have hrest := clearEach_cons hrecord (hcleared.clearEach hany rects)
          rwa [List.append_nil] at hrest

theorem clearView_of_image? (hi : t.image? id = some image) (flags : ViewFlags)
    (rects : List Rect) : t.clearView id flags rects =
      clearEach id (.ofFn fun a => flags.names a && image.has a)
        (if rects.isEmpty then [none] else rects.map some) t := by
  simp only [clearView, lookup_eq_ok.mpr hi]

theorem firstOutside?_named (image : TrackedImage) (flags : ViewFlags) :
    image.planeSet.firstOutside? (.ofFn fun a => flags.names a && image.has a) = none := by
  refine PlaneSet.firstOutside?_eq_none fun a h => ?_
  rw [PerAspect.get_ofFn, Bool.and_eq_true] at h
  exact h.2

theorem filter_touches (e : Extent) (rects : List Rect) :
    (rects.map some).filter (Rect.touches e) =
      (rects.filter fun r => (r.clip? e).isSome).map some := by
  rw [List.filter_map]
  congr 1
  exact List.filter_congr fun r _ => Rect.touches_some e r

/-- A clear of a view comes to the clear within the first rectangle in which anything is visible. -/
theorem clearView_of_visible (hi : t.image? id = some image) {flags : ViewFlags}
    (hany : (PerAspect.ofFn fun a => flags.names a && image.has a).any = true) {rects : List Rect}
    {r : Rect} {rest : List Rect}
    (h : rects.filter (fun r => (r.clip? image.extent).isSome) = r :: rest) :
    ∃ request? t', t.record id (.clear (.ofFn fun a => flags.names a && image.has a) (some r)) =
        (.ok request?, t') ∧
      Pass.isOpenOn t'.pass? id = true ∧
      t.clearView id flags rects = (.ok request?.toList, t'.foldMore rest.length) := by
  have hne : rects ≠ [] := by
    rintro rfl
    exact absurd h.symm (List.cons_ne_nil r rest)
  have hfilter := filter_touches image.extent rects
  rw [h, List.map_cons] at hfilter
  rw [clearView_of_image? hi, if_neg (by simpa using hne), ← List.length_map some]
  exact clearEach_of_touched hi (firstOutside?_named image flags) hany hfilter

theorem clearView_nil (hi : t.image? id = some image) (flags : ViewFlags) :
    ∃ request? t', t.record id (.clear (.ofFn fun a => flags.names a && image.has a) none) =
        (.ok request?, t') ∧
      t.clearView id flags [] = (.ok request?.toList, t') := by
  obtain ⟨request?, hok⟩ :=
    record_clear_ok none (beliefs_of_image? hi) (firstOutside?_named image flags)
  have hrecord : t.record id (.clear (.ofFn fun a => flags.names a && image.has a) none) =
    (.ok request?, (t.record id (.clear (.ofFn fun a => flags.names a && image.has a) none)).2) :=
      Prod.ext hok rfl
  refine ⟨request?, _, hrecord, ?_⟩
  rw [clearView_of_image? hi, ← List.append_nil request?.toList]
  exact clearEach_cons hrecord rfl

theorem clearView_of_untouched (hi : t.image? id = some image) {flags : ViewFlags}
    {rects : List Rect}
    (h : rects ≠ [] ∧ rects.filter (fun r => (r.clip? image.extent).isSome) = [] ∨
      (PerAspect.ofFn fun a => flags.names a && image.has a).any = false) :
    t.clearView id flags rects = (.ok [], t) := by
  rw [clearView_of_image? hi]
  refine clearEach_of_untouched hi (firstOutside?_named image flags) ?_
  rcases h with ⟨hne, hvisible⟩ | hany
  · have hfilter := filter_touches image.extent rects
    rw [hvisible, List.map_nil, List.filter_eq_nil_iff] at hfilter
    rw [if_neg (by simpa using hne)]
    exact .inr fun rect hrect => Bool.eq_false_iff.mpr (hfilter rect hrect)
  · exact .inl hany

/-- A clear of a view asks for one request at most, however many rectangles it has.  It comes to the
clear within the first visible one, and each of the other visible ones only adds to the commands of
the pass that is open then, as far as the pass can count them.  Without rectangles it comes to the
clear of everything.  If nothing is visible in any rectangle, or the flags name no aspect of the
image, nothing happens at all. -/
theorem clearView_repeated (hi : t.image? id = some image) (flags : ViewFlags)
    (rects : List Rect) :
    let aspects := PerAspect.ofFn fun a => flags.names a && image.has a
    let visible := rects.filter fun r => (r.clip? image.extent).isSome
    (∃ requests, (t.clearView id flags rects).1 = .ok requests ∧ requests.length ≤ 1) ∧
    (∀ r rest, aspects.any = true → visible = r :: rest →
      ∃ request? t', t.record id (.clear aspects (some r)) = (.ok request?, t') ∧
        Pass.isOpenOn t'.pass? id = true ∧
        t.clearView id flags rects = (.ok request?.toList, t'.foldMore rest.length) ∧
        ∀ p, t'.pass? = some p → p.operations.toNat + rest.length < UInt32.size →
          (t.clearView id flags rects).2.pass?.map (fun p => p.operations.toNat) =
            some (p.operations.toNat + rest.length)) ∧
    (rects = [] → ∃ request? t', t.record id (.clear aspects none) = (.ok request?, t') ∧
      t.clearView id flags rects = (.ok request?.toList, t')) ∧
    (rects ≠ [] ∧ visible = [] ∨ aspects.any = false →
      t.clearView id flags rects = (.ok [], t)) := by
  intro aspects visible
  refine ⟨?_, fun r rest hany hvisible => ?_, ?_, fun h => clearView_of_untouched hi h⟩
  · cases hany : aspects.any with
    | false => exact ⟨[], by rw [clearView_of_untouched hi (.inr hany)], Nat.zero_le 1⟩
    | true =>
        by_cases hne : rects = []
        · obtain ⟨request?, t', -, hview⟩ := clearView_nil hi flags
          exact ⟨request?.toList, by rw [hne, hview], Option.length_toList_le⟩
        · cases hvisible : visible with
          | nil =>
              exact ⟨[], by rw [clearView_of_untouched hi (.inl ⟨hne, hvisible⟩)], Nat.zero_le 1⟩
          | cons r rest =>
              obtain ⟨request?, t', -, -, hview⟩ := clearView_of_visible hi hany hvisible
              exact ⟨request?.toList, by rw [hview], Option.length_toList_le⟩
  · obtain ⟨request?, t', hrecord, hopen, hview⟩ := clearView_of_visible hi hany hvisible
    refine ⟨request?, t', hrecord, hopen, hview, fun p hp hlt => ?_⟩
    rw [hview]
    exact operations_foldMore hp hlt
  · rintro rfl
    exact clearView_nil hi flags

theorem clearView_repeated_drawnImage :
    ∃ request? t',
      drawnImage.record ⟨0, 0⟩ (.clear ⟨false, true⟩ (some ⟨⟨32, 8⟩, ⟨32, 8⟩⟩)) =
        (.ok request?, t') ∧
      Pass.isOpenOn t'.pass? ⟨0, 0⟩ = true ∧
      let view := drawnImage.clearView ⟨0, 0⟩ 2
        [⟨⟨64, 8⟩, ⟨0, 8⟩⟩, ⟨⟨32, 8⟩, ⟨32, 8⟩⟩, ⟨⟨0, 64⟩, ⟨0, 64⟩⟩, ⟨⟨32, 8⟩, ⟨32, 8⟩⟩]
      view = (.ok request?.toList, t'.foldMore 2) ∧
        view.2.pass?.map (fun p => p.operations.toNat) = some 3 := by
  obtain ⟨image, hi, hextent, hhas⟩ := exists_image?_drawnImage
  have haspects : (PerAspect.ofFn fun a => ViewFlags.names 2 a && image.has a) = ⟨false, true⟩ :=
    PerAspect.ext_get fun a => by
      rw [PerAspect.get_ofFn, hhas]
      cases a <;> decide
  have hview := (clearView_repeated hi 2
    [⟨⟨64, 8⟩, ⟨0, 8⟩⟩, ⟨⟨32, 8⟩, ⟨32, 8⟩⟩, ⟨⟨0, 64⟩, ⟨0, 64⟩⟩, ⟨⟨32, 8⟩, ⟨32, 8⟩⟩]).2.1
  rw [haspects, hextent] at hview
  obtain ⟨request?, t', hrecord, hopen, hview, hcount⟩ :=
    hview ⟨⟨32, 8⟩, ⟨32, 8⟩⟩ [⟨⟨0, 64⟩, ⟨0, 64⟩⟩, ⟨⟨32, 8⟩, ⟨32, 8⟩⟩] rfl (by decide)
  have hpass : (drawnImage.record ⟨0, 0⟩
      (.clear ⟨false, true⟩ (some ⟨⟨32, 8⟩, ⟨32, 8⟩⟩))).2.pass?.map Pass.operations = some 1 := by
    decide
  rw [hrecord] at hpass
  obtain ⟨p, hp, hone⟩ := Option.map_eq_some_iff.mp hpass
  have hthree := hcount p hp (by rw [hone]; decide)
  rw [hone] at hthree
  exact ⟨request?, t', hrecord, hopen, hview, hthree⟩

end Tracker

end DepthStencil
