import DepthStencil.Proofs.Origins

/-! # What barriers wait for

The history of an aspect says what a change of its layout has to wait for (`History.owed`).  A
barrier waits for what is owed to each aspect it takes in, with one exception: an undefined aspect
that a shared layout moves for the sake of the other aspect.  Such an aspect may still be owed
something, since it keeps its history when it is forgotten beside a defined one.  Its accesses are
waited for only by chance, as far as the other aspect has seen them too. -/

namespace DepthStencil

namespace TrackedImage

variable {image : TrackedImage} {scheme : LayoutScheme} {needs : PerAspect Need} {id : ImageId}
  {endsPass : Bool} {b : ImageBarrier}

/-- If a shared layout moves beside an undefined aspect, then for the sake of the other aspect. -/
theorem effect_other_of_undefined {a : Aspect}
    (h : b ∈ (image.request .shared needs id endsPass).imageBarriers)
    (hc : (image.changes needs).get a = none) (hl : image.levels.get a = .undefined) :
    ∃ next, image.effect .shared needs a.other = .layout next := by
  obtain ⟨hs, -⟩ := step_of_mem_imageBarriers h
  have hmoves := moves_of_mem_steps hs
  have hnew := (LayoutStep.between?_eq_some.mp (mem_steps_shared.mp hs)).1
  have hother : image.has a.other = true ∧
      (image.settledLevels needs).get a.other ≠ .undefined := by
    by_contra hno
    refine hnew (ImageLayout.shared_restrict_eq_undefined.mpr fun a' ha' => ?_)
    rcases Aspect.eq_or_eq_other a a' with rfl | rfl
    · rw [← hl]
      exact get_settledLevels_of_none hc
    · by_contra hdef
      exact hno ⟨ha', hdef⟩
  obtain ⟨hhas, hdef⟩ := hother
  cases hc' : (image.changes needs).get a.other with
  | some c =>
      rw [get_settledLevels_of_some hc', ← Level.isDefined_iff] at hdef
      exact ⟨(needs.get a.other).access, by simp [effect, hc', hdef]⟩
  | none =>
      rw [get_settledLevels_of_none hc', ← Level.isDefined_iff] at hdef
      have hcarried : image.isCarried .shared needs a.other = true := by
        simp [isCarried, hmoves, hhas, hdef]
      exact ⟨image.carriedAccess needs a.other, by simp [effect, hc', hcarried]⟩

theorem contains_owed_of_layout (h : b ∈ (image.request scheme needs id endsPass).imageBarriers)
    {a : Aspect} (ha : b.step.planes.has a = true) {next : Access}
    (he : image.effect scheme needs a = .layout next) :
    b.dependency.src.contains (image.histories.get a).owed = true := by
  have hsrc := src_dependency_of_layout he
  cases scheme with
  | shared =>
      rw [src_barrier_shared h a, hsrc]
      exact Access.contains_or_left _ (Access.contains_refl _)
  | separate =>
      obtain ⟨a', c, hc, hstep, hd⟩ := barrier_separate h
      rw [(LayoutStep.between?_eq_some.mp hstep).2.2, PlaneSet.has_single, decide_eq_true_eq] at ha
      subst ha
      rw [hd, hsrc]
      exact Access.contains_refl _

/-- A barrier of an undefined aspect whose level stays waits for the other aspect and no more. -/
theorem src_barrier_of_undefined (h : b ∈ (image.request .shared needs id endsPass).imageBarriers)
    {a : Aspect} (hc : (image.changes needs).get a = none)
    (hl : image.levels.get a = .undefined) :
    b.dependency.src = (image.histories.get a.other).owed := by
  obtain ⟨next, he⟩ := effect_other_of_undefined h hc hl
  have hnone : (image.dependency .shared needs a).src = .none := by
    have hcarried : image.isCarried .shared needs a = false := by
      simp [isCarried, hl, Level.isDefined]
    simp only [dependency, effect, hc, hcarried, HistoryEffect.dependency]
    rfl
  rw [src_barrier_shared h a, hnone, Access.none_or, src_dependency_of_layout he]

theorem contains_owed_iff (h : b ∈ (image.request scheme needs id endsPass).imageBarriers)
    {a : Aspect} (ha : b.step.planes.has a = true) :
    b.dependency.src.contains (image.histories.get a).owed = true ↔
      image.levels.get a ≠ .undefined ∨ ((image.changes needs).get a).isSome = true ∨
        (image.histories.get a.other).owed.contains (image.histories.get a).owed = true := by
  constructor
  · intro hsrc
    by_cases hl : image.levels.get a = .undefined
    · cases hc : (image.changes needs).get a with
      | some c => exact .inr (.inl rfl)
      | none =>
          rcases effect_of_mem_barrier h ha with ⟨next, he⟩ | ⟨rfl, -, -⟩
          · have hcarried : image.isCarried scheme needs a = false := by
              simp [isCarried, hl, Level.isDefined]
            rw [effect, hc, hcarried] at he
            exact absurd he (by simp)
          · rw [src_barrier_of_undefined h hc hl] at hsrc
            exact .inr (.inr hsrc)
    · exact .inl hl
  · intro hwaits
    rcases effect_of_mem_barrier h ha with ⟨next, he⟩ | ⟨rfl, hc, hl⟩
    · exact contains_owed_of_layout h ha he
    · rcases hwaits with hdef | hsome | hother
      · exact absurd hl hdef
      · rw [hc] at hsome
        exact absurd hsome (by simp)
      · rw [src_barrier_of_undefined h hc hl]
        exact hother

end TrackedImage

namespace Tracker

/-- A barrier waits for what is owed to an aspect it takes in exactly if the aspect was defined, or
its level changes, or the other aspect is owed as much. -/
theorem barrier_waits_iff {t : Tracker} {call : Call} {r : Request}
    (h : r ∈ (t.step call).1.requestList) :
    ∃ image, t.image? r.image = some image ∧
      ∀ b ∈ r.imageBarriers, ∀ a, b.step.planes.has a = true →
        (b.dependency.src.contains (image.histories.get a).owed = true ↔
          image.levels.get a ≠ .undefined ∨ (r.moves.get a).isSome = true ∨
            (image.histories.get a.other).owed.contains (image.histories.get a).owed = true) := by
  obtain ⟨α, -, image, x, hi, -, hr⟩ := exists_image?_of_mem_step h
  refine ⟨image, hi, fun b hb a ha => ?_⟩
  rw [hr] at hb
  have hmoves : (r.moves.get a).isSome = ((image.changes (x.needs t.policy)).get a).isSome := by
    rw [hr, TrackedImage.request, PerAspect.get_ofFn, TrackedImage.moveOf, Option.isSome_map]
  rw [hmoves]
  exact TrackedImage.contains_owed_iff hb ha

/-- A stencil aspect that was sampled and then forgotten, beside a depth aspect that was written. -/
def forgottenStencil : Tracker :=
  (empty {}).after
    [.register
        { handle := 0, format := 129, extent := ⟨64, 64⟩, initial := ⟨.writable, .readOnly⟩ },
      .record ⟨0, 0⟩ (.transition ⟨none, some .undefined⟩)]

theorem barrier_waits_iff_forgottenStencil :
    ∃ r ∈ (forgottenStencil.step
        (.record ⟨0, 0⟩ (.transition ⟨some .readOnly, none⟩))).1.requestList,
      (∃ b ∈ r.imageBarriers, b.step.planes.has .stencil = true) ∧
        ∃ image, forgottenStencil.image? r.image = some image ∧
          ∀ b ∈ r.imageBarriers, ∀ a, b.step.planes.has a = true →
            (b.dependency.src.contains (image.histories.get a).owed = true ↔
              image.levels.get a ≠ .undefined ∨ (r.moves.get a).isSome = true ∨
                (image.histories.get a.other).owed.contains
                  (image.histories.get a).owed = true) := by
  obtain ⟨r, hr, hb⟩ :
      ∃ r ∈ (forgottenStencil.step
          (.record ⟨0, 0⟩ (.transition ⟨some .readOnly, none⟩))).1.requestList,
        ∃ b ∈ r.imageBarriers, b.step.planes.has .stencil = true := by
    decide
  exact ⟨r, hr, hb, barrier_waits_iff hr⟩

/-- The sampling of the forgotten aspect is not waited for when the depth aspect moves. -/
theorem forgottenStencil_not_waited :
    ∃ r ∈ (forgottenStencil.step
        (.record ⟨0, 0⟩ (.transition ⟨some .readOnly, none⟩))).1.requestList,
      ∃ image ∈ forgottenStencil.image? r.image, ∃ b ∈ r.imageBarriers,
        b.step.planes.has .stencil = true ∧
          b.dependency.src.contains (image.histories.get .stencil).owed = false := by
  decide

end Tracker

end DepthStencil
