import DepthStencil.Proofs.Settling

/-! # Layouts an image is physically in

Executing an image barrier puts the aspects it takes in into its new layout
(`ImageBarrier.execute`).  The barrier fits the layouts that an image is in if it starts from them
or drops what is there (`ImageBarrier.Fits`).

`TrackedImage.Matches` ties the layouts that an image is physically in to what is believed of it.
If they match, the barriers of a request fit one after another, and they match again once the
barriers are executed (`TrackedImage.Matches.settle`). -/

namespace DepthStencil

/-! ### Executing barriers -/

namespace ImageBarrier

/-- The layouts of an image after a barrier. -/
def execute (b : ImageBarrier) (layouts : PerAspect ImageLayout) : PerAspect ImageLayout :=
  .ofFn fun a => if b.step.planes.has a then b.step.newLayout else layouts.get a

/-- The layouts of an image after some barriers. -/
def executeAll (layouts : PerAspect ImageLayout) (bs : List ImageBarrier) : PerAspect ImageLayout :=
  bs.foldl (fun layouts b => b.execute layouts) layouts

/-- Whether a barrier starts from the layouts an image is in, or drops what is there. -/
def Fits (b : ImageBarrier) (layouts : PerAspect ImageLayout) : Prop :=
  b.step.oldLayout = .undefined ∨
    ∀ a, b.step.planes.has a = true → layouts.get a = b.step.oldLayout

/-- Whether some barriers fit when they are executed one after another. -/
def FitAll : PerAspect ImageLayout → List ImageBarrier → Prop
  | _, [] => True
  | layouts, b :: bs => b.Fits layouts ∧ FitAll (b.execute layouts) bs

/-- Whether a barrier is one that the graphics interface accepts for an image of some planes. -/
structure WellFormed (scheme : LayoutScheme) (planes : PlaneSet) (b : ImageBarrier) : Prop where
  new_defined : b.step.newLayout ≠ .undefined
  moves : b.step.oldLayout ≠ b.step.newLayout
  whole : scheme = .shared → b.step.planes = planes

theorem get_execute_of_has {b : ImageBarrier} {a : Aspect} (h : b.step.planes.has a = true)
    (layouts : PerAspect ImageLayout) : (b.execute layouts).get a = b.step.newLayout := by
  rw [execute, PerAspect.get_ofFn, if_pos h]

theorem get_execute_of_not_has {b : ImageBarrier} {a : Aspect} (h : b.step.planes.has a = false)
    (layouts : PerAspect ImageLayout) : (b.execute layouts).get a = layouts.get a := by
  rw [execute, PerAspect.get_ofFn, h, if_neg (by simp)]

theorem executeAll_cons (layouts : PerAspect ImageLayout) (b : ImageBarrier)
    (bs : List ImageBarrier) : executeAll layouts (b :: bs) = executeAll (b.execute layouts) bs :=
  rfl

/-! ### Barriers on different aspects -/

/-- Whether no aspect is taken in by both barriers. -/
def Apart (b b' : ImageBarrier) : Prop :=
  ∀ a, b.step.planes.has a = true → b'.step.planes.has a = false

theorem get_executeAll_of_not_has {a : Aspect} : ∀ {bs : List ImageBarrier}
    {layouts : PerAspect ImageLayout}, (∀ b ∈ bs, b.step.planes.has a = false) →
    (executeAll layouts bs).get a = layouts.get a
  | [], _, _ => rfl
  | b :: bs, layouts, h => by
      have htail : ∀ b' ∈ bs, b'.step.planes.has a = false :=
        fun b' hb' => h b' (List.mem_cons_of_mem b hb')
      rw [executeAll_cons, get_executeAll_of_not_has htail]
      exact get_execute_of_not_has (h b List.mem_cons_self) layouts

theorem get_executeAll_of_has {a : Aspect} {b : ImageBarrier} (ha : b.step.planes.has a = true) :
    ∀ {bs : List ImageBarrier} {layouts : PerAspect ImageLayout}, bs.Pairwise Apart → b ∈ bs →
      (executeAll layouts bs).get a = b.step.newLayout
  | [], _, _, hb => absurd hb List.not_mem_nil
  | b' :: bs, layouts, hapart, hb => by
      rw [List.pairwise_cons] at hapart
      rw [executeAll_cons]
      rcases List.mem_cons.mp hb with rfl | hb
      · rw [get_executeAll_of_not_has fun b' hb' => hapart.1 b' hb' a ha]
        exact get_execute_of_has ha layouts
      · exact get_executeAll_of_has ha hapart.2 hb

/-- Barriers on different aspects fit one after another if each of them fits at first. -/
theorem fitAll_of_apart : ∀ {bs : List ImageBarrier} {layouts : PerAspect ImageLayout},
    bs.Pairwise Apart → (∀ b ∈ bs, b.Fits layouts) → FitAll layouts bs
  | [], _, _, _ => trivial
  | b :: bs, layouts, hapart, h => by
      rw [List.pairwise_cons] at hapart
      refine ⟨h b List.mem_cons_self, fitAll_of_apart hapart.2 fun b' hb' => ?_⟩
      rcases h b' (List.mem_cons_of_mem b hb') with hold | hold
      · exact .inl hold
      · refine .inr fun a ha => ?_
        have hnot : b.step.planes.has a = false := by
          cases hb : b.step.planes.has a with
          | false => rfl
          | true => exact absurd ha (by rw [hapart.1 b' hb' a hb]; simp)
        rw [get_execute_of_not_has hnot]
        exact hold a ha

end ImageBarrier

namespace TrackedImage

/-! ### Believed layouts -/

/-- The layout that an aspect is believed to be in. -/
def believedLayout (image : TrackedImage) : LayoutScheme → Aspect → ImageLayout
  | .separate, a => (image.levels.get a).layout a
  | .shared, _ => .shared image.presentLevels

/-- Whether an image in some layouts is as it is believed to be.  Nothing is said about an aspect of
which no layout is known, but with a shared layout all aspects are in the same one. -/
structure Matches (scheme : LayoutScheme) (image : TrackedImage)
    (layouts : PerAspect ImageLayout) : Prop where
  known : ∀ a, image.has a = true → image.believedLayout scheme a ≠ .undefined →
    layouts.get a = image.believedLayout scheme a
  uniform : scheme = .shared → ∀ a a', image.has a = true → image.has a' = true →
    layouts.get a = layouts.get a'

variable {image : TrackedImage} {scheme : LayoutScheme} {needs : PerAspect Need} {id : ImageId}
  {endsPass : Bool} {layouts : PerAspect ImageLayout}

theorem believedLayout_ne_undefined {a : Aspect} (ha : image.has a = true)
    (hl : image.levels.get a ≠ .undefined) (scheme : LayoutScheme) :
    image.believedLayout scheme a ≠ .undefined := by
  cases scheme with
  | separate => exact fun h => hl (Level.layout_eq_undefined.mp h)
  | shared => exact fun h => hl (ImageLayout.shared_restrict_eq_undefined.mp h a ha)

/-! ### Barriers of a request -/

/-- No barrier leads into the undefined layout or from a layout to itself. -/
theorem wellFormed_of_mem_imageBarriers {b : ImageBarrier}
    (h : b ∈ (image.request scheme needs id endsPass).imageBarriers) :
    b.WellFormed scheme image.planeSet := by
  cases scheme with
  | separate =>
      obtain ⟨a, c, -, hstep, -⟩ := barrier_separate h
      obtain ⟨hnew, hmoves, hs⟩ := LayoutStep.between?_eq_some.mp hstep
      exact ⟨by rw [hs]; exact hnew, by rw [hs]; exact hmoves, fun h' => absurd h' (by simp)⟩
  | shared =>
      obtain ⟨hstep, hplanes, -⟩ := barrier_shared h
      obtain ⟨hnew, hmoves, hs⟩ := LayoutStep.between?_eq_some.mp hstep
      exact ⟨by rw [hs]; exact hnew, by rw [hs]; exact hmoves, fun _ => hplanes⟩

theorem imageBarriers_apart (image : TrackedImage) (scheme : LayoutScheme)
    (needs : PerAspect Need) (id : ImageId) (endsPass : Bool) :
    (image.request scheme needs id endsPass).imageBarriers.Pairwise ImageBarrier.Apart := by
  rw [Request.imageBarriers, List.pairwise_map, steps_request]
  cases scheme with
  | separate =>
      rw [steps, LayoutScheme.steps, List.pairwise_filterMap]
      have hne : Aspect.all.Pairwise (fun a a' => a ≠ a') := by decide
      refine hne.imp fun {a a'} hne step hs step' hs' => ?_
      obtain ⟨c, -, hstep⟩ := Option.bind_eq_some_iff.mp hs
      obtain ⟨c', -, hstep'⟩ := Option.bind_eq_some_iff.mp hs'
      intro a₀ ha₀
      rw [(LayoutStep.between?_eq_some.mp hstep).2.2, PlaneSet.has_single, decide_eq_true_eq] at ha₀
      rw [(LayoutStep.between?_eq_some.mp hstep').2.2, PlaneSet.has_single, decide_eq_false_iff_not,
        ← ha₀]
      exact hne.symm
  | shared =>
      rw [steps, LayoutScheme.steps]
      cases image.planeSet.step? image.levels (image.changes needs) with
      | none => exact List.Pairwise.nil
      | some step => exact List.pairwise_singleton _ _

theorem newLayout_of_mem_imageBarriers {b : ImageBarrier}
    (h : b ∈ (image.request scheme needs id endsPass).imageBarriers) {a : Aspect}
    (ha : b.step.planes.has a = true) :
    b.step.newLayout = (image.settle scheme needs).believedLayout scheme a := by
  cases scheme with
  | separate =>
      obtain ⟨a', c, hc, hstep, -⟩ := barrier_separate h
      have hs := (LayoutStep.between?_eq_some.mp hstep).2.2
      rw [hs, PlaneSet.has_single, decide_eq_true_eq] at ha
      subst ha
      rw [hs, believedLayout]
      exact congrArg (Level.layout · a') (get_settledLevels_of_some hc).symm
  | shared =>
      obtain ⟨hstep, -⟩ := barrier_shared h
      rw [(LayoutStep.between?_eq_some.mp hstep).2.2]
      rfl

/-- A barrier starts from the layouts that are believed in, or drops what is there. -/
theorem oldLayout_of_mem_imageBarriers {b : ImageBarrier}
    (hneeds : ∀ a, (needs.get a).demand ≠ .any → image.has a = true)
    (h : b ∈ (image.request scheme needs id endsPass).imageBarriers) :
    b.step.oldLayout = .undefined ∨ ∀ a, b.step.planes.has a = true →
      image.has a = true ∧ b.step.oldLayout = image.believedLayout scheme a := by
  cases scheme with
  | separate =>
      obtain ⟨a', c, hc, hstep, -⟩ := barrier_separate h
      rw [(LayoutStep.between?_eq_some.mp hstep).2.2]
      rw [get_changes] at hc
      obtain ⟨hsource, -, hresolve, -⟩ := Need.change?_eq_some hc
      cases hd : c.discards with
      | true => exact .inl rfl
      | false =>
          refine .inr fun a ha => ?_
          rw [PlaneSet.has_single, decide_eq_true_eq] at ha
          subst ha
          refine ⟨hneeds a' fun hany => ?_, by rw [if_neg (by simp), hsource]; rfl⟩
          rw [hany] at hresolve
          exact absurd hresolve (by simp [Demand.resolve])
  | shared =>
      obtain ⟨hstep, hplanes, -⟩ := barrier_shared h
      rw [(LayoutStep.between?_eq_some.mp hstep).2.2]
      simp only
      split
      · exact .inl rfl
      · exact .inr fun a ha => ⟨ha, rfl⟩

/-- An aspect that no barrier takes in is believed to stay in its layout, if one is known at all. -/
theorem believedLayout_of_not_has {a : Aspect} (hhas : image.has a = true)
    (h : ∀ b ∈ (image.request scheme needs id endsPass).imageBarriers,
      b.step.planes.has a = false) :
    (image.settle scheme needs).believedLayout scheme a = .undefined ∨
      (image.settle scheme needs).believedLayout scheme a = image.believedLayout scheme a := by
  have hsteps : ∀ step ∈ image.steps scheme needs, step.planes.has a = false := by
    intro step hs
    obtain ⟨b, hb, rfl⟩ := exists_barrier_of_mem_steps hs id endsPass
    exact h b hb
  cases scheme with
  | separate =>
      have hbelieved : (image.settle .separate needs).believedLayout .separate a =
          ((image.settledLevels needs).get a).layout a := rfl
      rw [hbelieved]
      cases hc : (image.changes needs).get a with
      | none =>
          rw [get_settledLevels_of_none hc]
          exact .inr rfl
      | some c =>
          rw [get_settledLevels_of_some hc]
          have hnone : c.step? a = none := by
            cases hstep : c.step? a with
            | none => rfl
            | some step =>
                have hs := hsteps step (mem_steps_separate.mpr ⟨a, c, hc, hstep⟩)
                rw [(LayoutStep.between?_eq_some.mp hstep).2.2] at hs
                exact absurd hs (by simp)
          rcases LayoutStep.between?_eq_none.mp hnone with hnew | hsame
          · exact .inl hnew
          · split at hsame
            · exact .inl hsame.symm
            · rw [get_changes] at hc
              rw [← hsame, (Need.change?_eq_some hc).1]
              exact .inr rfl
  | shared =>
      have hnone : image.planeSet.step? image.levels (image.changes needs) = none := by
        cases hstep : image.planeSet.step? image.levels (image.changes needs) with
        | none => rfl
        | some step =>
            have hs := hsteps step (mem_steps_shared.mpr hstep)
            rw [(LayoutStep.between?_eq_some.mp hstep).2.2] at hs
            exact absurd hhas (by rw [has, hs]; simp)
      rcases LayoutStep.between?_eq_none.mp hnone with hnew | hsame
      · exact .inl hnew
      · split at hsame
        · exact .inl hsame.symm
        · exact .inr hsame.symm

/-! ### Executing a request -/

namespace Matches

theorem fitAll (hm : image.Matches scheme layouts)
    (hneeds : ∀ a, (needs.get a).demand ≠ .any → image.has a = true) (id : ImageId)
    (endsPass : Bool) :
    ImageBarrier.FitAll layouts (image.request scheme needs id endsPass).imageBarriers := by
  refine ImageBarrier.fitAll_of_apart (imageBarriers_apart image scheme needs id endsPass) ?_
  intro b hb
  rcases oldLayout_of_mem_imageBarriers hneeds hb with hold | hold
  · exact .inl hold
  · by_cases hundefined : b.step.oldLayout = .undefined
    · exact .inl hundefined
    · refine .inr fun a ha => ?_
      obtain ⟨hhas, hbelieved⟩ := hold a ha
      rw [hbelieved] at hundefined ⊢
      exact hm.known a hhas hundefined

theorem settle (hm : image.Matches scheme layouts) (needs : PerAspect Need) (id : ImageId)
    (endsPass : Bool) :
    (image.settle scheme needs).Matches scheme
      (ImageBarrier.executeAll layouts (image.request scheme needs id endsPass).imageBarriers) := by
  have hapart := imageBarriers_apart image scheme needs id endsPass
  constructor
  · intro a ha hdef
    by_cases hb : ∃ b ∈ (image.request scheme needs id endsPass).imageBarriers,
        b.step.planes.has a = true
    · obtain ⟨b, hb, hhas⟩ := hb
      rw [ImageBarrier.get_executeAll_of_has hhas hapart hb]
      exact newLayout_of_mem_imageBarriers hb hhas
    · have hnot : ∀ b ∈ (image.request scheme needs id endsPass).imageBarriers,
          b.step.planes.has a = false :=
        fun b hmem => Bool.eq_false_iff.mpr fun hhas => hb ⟨b, hmem, hhas⟩
      rw [ImageBarrier.get_executeAll_of_not_has hnot]
      have hhas : image.has a = true := ha
      rcases believedLayout_of_not_has hhas hnot with hnone | hsame
      · exact absurd hnone hdef
      · rw [hsame] at hdef ⊢
        exact hm.known a hhas hdef
  · intro hscheme a a' ha ha'
    subst hscheme
    cases hbs : (image.request .shared needs id endsPass).imageBarriers with
    | nil => exact hm.uniform rfl a a' ha ha'
    | cons b bs =>
        have hb : b ∈ (image.request .shared needs id endsPass).imageBarriers := by
          rw [hbs]; exact List.mem_cons_self
        have hplanes := (barrier_shared hb).2.1
        rw [← hbs, ImageBarrier.get_executeAll_of_has (by rw [hplanes]; exact ha) hapart hb,
          ImageBarrier.get_executeAll_of_has (by rw [hplanes]; exact ha') hapart hb]

end Matches

end TrackedImage

end DepthStencil
