import DepthStencil.Proofs.Masks
import DepthStencil.TrackedImage.Settle

/-! # What settling an image asks for

The barriers of a request, said without the lists they are computed by.

* With separate layouts a barrier belongs to one aspect, whose level changes to a defined one, and
  waits for what is owed to that aspect (`TrackedImage.barrier_separate`).
* With a shared layout there is one barrier at most.  It takes in the whole image and waits for both
  aspects (`TrackedImage.barrier_shared`).
* A barrier changes the layout of every aspect it takes in, so the history of such an aspect starts
  anew.  The one exception is an undefined aspect that a shared layout moves without a change of its
  level (`TrackedImage.effect_of_mem_barrier`). -/

namespace DepthStencil

/-! ### Layouts -/

theorem Level.isDefined_eq_false {l : Level} : l.isDefined = false ↔ l = .undefined := by
  cases l <;> decide

theorem Level.isDefined_iff {l : Level} : l.isDefined = true ↔ l ≠ .undefined := by
  cases l <;> decide

theorem Level.layout_eq_undefined {l : Level} {a : Aspect} :
    l.layout a = .undefined ↔ l = .undefined := by
  cases l <;> cases a <;> decide

theorem Aspect.eq_or_eq_other (a b : Aspect) : b = a ∨ b = a.other := by
  cases a <;> cases b <;> decide

namespace ImageLayout

theorem ofLevels_eq_undefined {d s : Level} :
    ofLevels d s = .undefined ↔ d = .undefined ∧ s = .undefined := by
  cases d <;> cases s <;> decide

/-- A shared layout is undefined exactly when nothing is known of any aspect. -/
theorem shared_restrict_eq_undefined {planes : PlaneSet} {levels : PerAspect Level} :
    shared (planes.restrict levels) = .undefined ↔
      ∀ a, planes.has a = true → levels.get a = .undefined := by
  cases planes with
  | depthOnly =>
      refine ⟨fun h a ha => ?_, fun h => ofLevels_eq_undefined.mpr ⟨h .depth rfl, h .depth rfl⟩⟩
      cases a with
      | depth => exact (ofLevels_eq_undefined.mp h).1
      | stencil => exact absurd ha (by decide)
  | stencilOnly =>
      refine ⟨fun h a ha => ?_, fun h => ofLevels_eq_undefined.mpr ⟨h .stencil rfl, h .stencil rfl⟩⟩
      cases a with
      | depth => exact absurd ha (by decide)
      | stencil => exact (ofLevels_eq_undefined.mp h).2
  | depthStencil =>
      refine ⟨fun h a _ => ?_, fun h => ofLevels_eq_undefined.mpr ⟨h .depth rfl, h .stencil rfl⟩⟩
      cases a with
      | depth => exact (ofLevels_eq_undefined.mp h).1
      | stencil => exact (ofLevels_eq_undefined.mp h).2

end ImageLayout

/-! ### Steps -/

theorem LayoutStep.between?_eq_some {planes : PlaneSet} {old new : ImageLayout}
    {step : LayoutStep} : LayoutStep.between? planes old new = some step ↔
      new ≠ .undefined ∧ old ≠ new ∧ step = ⟨planes, old, new⟩ := by
  unfold LayoutStep.between?
  split
  · rename_i h
    refine ⟨fun h' => absurd h' (by simp), fun h' => ?_⟩
    rcases h with h | h
    · exact absurd h h'.1
    · exact absurd h h'.2.1
  · rename_i h
    rw [not_or] at h
    rw [Option.some_inj]
    exact ⟨fun h' => ⟨h.1, h.2, h'.symm⟩, fun h' => h'.2.2.symm⟩

theorem LayoutStep.between?_eq_none {planes : PlaneSet} {old new : ImageLayout} :
    LayoutStep.between? planes old new = none ↔ new = .undefined ∨ old = new := by
  unfold LayoutStep.between?
  split
  · rename_i h
    exact ⟨fun _ => h, fun _ => rfl⟩
  · rename_i h
    exact ⟨fun h' => absurd h' (by simp), fun h' => absurd h' h⟩

theorem get_levelsAfter (levels : PerAspect Level) (changes : PerAspect (Option Change))
    (a : Aspect) :
    (levelsAfter levels changes).get a =
      ((changes.get a).map Change.target).getD (levels.get a) := by
  rw [levelsAfter, PerAspect.get_ofFn]

theorem Need.change?_eq_some {need : Need} {current : Level} {c : Change}
    (h : need.change? current = some c) :
    c.source = current ∧ c.target ≠ current ∧ need.demand.resolve current = some c.target ∧
      c.discards = (need.discards || !current.isDefined) := by
  unfold Need.change? at h
  obtain ⟨target, hr, rfl⟩ := Option.map_eq_some_iff.mp h
  refine ⟨rfl, ?_, hr, rfl⟩
  unfold Demand.resolve at hr
  cases hd : need.demand with
  | any =>
      rw [hd] at hr
      exact absurd hr (by simp)
  | atLeast l =>
      simp only [hd] at hr
      split at hr
      · exact absurd hr (by simp)
      · rename_i hlt
        obtain rfl := Option.some_inj.mp hr
        exact fun he => hlt (by rw [← he]; exact Level.le_refl l)
  | exactly l =>
      simp only [hd] at hr
      split at hr
      · exact absurd hr (by simp)
      · rename_i hne
        obtain rfl := Option.some_inj.mp hr
        exact fun he => hne he.symm

/-! ### Meeting needs -/

theorem Demand.resolve_eq_none {d : Demand} {l : Level} : d.resolve l = none ↔ d.Meets l := by
  cases d <;> simp [Demand.resolve, Demand.Meets]

theorem Demand.meets_of_resolve {d : Demand} {l target : Level} (h : d.resolve l = some target) :
    d.Meets target := by
  unfold Demand.resolve at h
  cases d with
  | any => exact absurd h (by simp)
  | atLeast m =>
      simp only at h
      split at h
      · exact absurd h (by simp)
      · rw [← Option.some_inj.mp h]
        exact Level.le_refl m
  | exactly m =>
      simp only at h
      split at h
      · exact absurd h (by simp)
      · exact (Option.some_inj.mp h).symm

theorem Need.change?_eq_none {need : Need} {current : Level} :
    need.change? current = Option.none ↔ need.demand.Meets current := by
  rw [Need.change?, Option.map_eq_none_iff, Demand.resolve_eq_none]

namespace TrackedImage

variable {image : TrackedImage} {scheme : LayoutScheme} {needs : PerAspect Need}

theorem get_changes (image : TrackedImage) (needs : PerAspect Need) (a : Aspect) :
    (image.changes needs).get a = (needs.get a).change? (image.levels.get a) := by
  rw [changes, changesFor, PerAspect.get_ofFn]

theorem get_settledLevels (image : TrackedImage) (needs : PerAspect Need) (a : Aspect) :
    (image.settledLevels needs).get a =
      (((image.changes needs).get a).map Change.target).getD (image.levels.get a) := by
  rw [settledLevels, get_levelsAfter]

theorem get_settledLevels_of_some {a : Aspect} {c : Change}
    (h : (image.changes needs).get a = some c) :
    (image.settledLevels needs).get a = c.target := by
  rw [get_settledLevels, h]; rfl

theorem get_settledLevels_of_none {a : Aspect} (h : (image.changes needs).get a = none) :
    (image.settledLevels needs).get a = image.levels.get a := by
  rw [get_settledLevels, h]; rfl

theorem meets_settledLevels (image : TrackedImage) (needs : PerAspect Need) (a : Aspect) :
    (needs.get a).demand.Meets ((image.settledLevels needs).get a) := by
  cases hc : (image.changes needs).get a with
  | none =>
      rw [get_settledLevels_of_none hc]
      rw [get_changes] at hc
      exact Need.change?_eq_none.mp hc
  | some c =>
      rw [get_settledLevels_of_some hc]
      rw [get_changes] at hc
      exact Demand.meets_of_resolve (Need.change?_eq_some hc).2.2.1

theorem mem_steps_separate {step : LayoutStep} : step ∈ image.steps .separate needs ↔
    ∃ a c, (image.changes needs).get a = some c ∧ c.step? a = some step := by
  simp only [steps, LayoutScheme.steps, List.mem_filterMap, Option.bind_eq_some_iff]
  constructor
  · rintro ⟨a, _, c, hc, hs⟩
    exact ⟨a, c, hc, hs⟩
  · rintro ⟨a, c, hc, hs⟩
    exact ⟨a, a.mem_all, c, hc, hs⟩

theorem mem_steps_shared {step : LayoutStep} : step ∈ image.steps .shared needs ↔
    image.planeSet.step? image.levels (image.changes needs) = some step := by
  rw [steps, LayoutScheme.steps, Option.mem_toList]

theorem moves_of_mem_steps {step : LayoutStep} (h : step ∈ image.steps scheme needs) :
    image.moves scheme needs = true := by
  unfold moves
  rw [Bool.not_eq_true', List.isEmpty_eq_false_iff]
  exact List.ne_nil_of_mem h

theorem exists_mem_steps_of_moves (h : image.moves scheme needs = true) :
    ∃ step, step ∈ image.steps scheme needs := by
  unfold moves at h
  rw [Bool.not_eq_true', List.isEmpty_eq_false_iff] at h
  exact List.exists_mem_of_ne_nil _ h

theorem steps_eq_nil_of_moves_eq_false (h : image.moves scheme needs = false) :
    image.steps scheme needs = [] := by
  unfold moves at h
  rwa [Bool.not_eq_false', List.isEmpty_iff] at h

/-! ### Requests -/

theorem changes_request (id : ImageId) (endsPass : Bool) :
    (image.request scheme needs id endsPass).changes = image.changes needs := by
  apply PerAspect.ext_get
  intro a
  rw [Request.changes, PerAspect.get_map, request, PerAspect.get_ofFn, moveOf]
  cases (image.changes needs).get a <;> rfl

theorem steps_request (id : ImageId) (endsPass : Bool) :
    (image.request scheme needs id endsPass).steps = image.steps scheme needs := by
  rw [Request.steps, changes_request]
  rfl

theorem dependencyOf_request (id : ImageId) (endsPass : Bool) (a : Aspect) :
    (image.request scheme needs id endsPass).dependencyOf a =
      if ((image.changes needs).get a).isSome then image.dependency scheme needs a else .empty := by
  rw [Request.dependencyOf, request, PerAspect.get_ofFn, moveOf]
  cases (image.changes needs).get a <;> rfl

/-- A request waits for both aspects, whether their levels change or not. -/
theorem dependency_request (id : ImageId) (endsPass : Bool) :
    (image.request scheme needs id endsPass).dependency =
      image.dependency scheme needs .depth ||| image.dependency scheme needs .stencil := by
  have hcarried : (image.request scheme needs id endsPass).carried =
      image.carried scheme needs := rfl
  simp only [Request.dependency, Aspect.all, List.foldl_cons, List.foldl_nil, hcarried, carried,
    dependencyOf_request]
  cases ((image.changes needs).get .depth).isSome <;>
    cases ((image.changes needs).get .stencil).isSome <;>
    simp [Dependency.or_comm]

theorem request?_eq_some {id : ImageId} {endsPass : Bool} {r : Request} :
    image.request? scheme needs id endsPass = some r ↔
      image.moves scheme needs = true ∧ r = image.request scheme needs id endsPass := by
  unfold request?
  split
  · rename_i h
    rw [Option.some_inj]
    exact ⟨fun h' => ⟨h, h'.symm⟩, fun h' => h'.2.symm⟩
  · rename_i h
    exact ⟨fun h' => absurd h' (by simp), fun h' => absurd h'.1 h⟩

theorem moves_of_meets (h : ∀ a, (needs.get a).demand.Meets (image.levels.get a)) :
    image.moves scheme needs = false := by
  have hc : ∀ a, (image.changes needs).get a = none := fun a => by
    rw [get_changes]
    exact Need.change?_eq_none.mpr (h a)
  have hlevels : levelsAfter image.levels (image.changes needs) = image.levels := by
    apply PerAspect.ext_get
    intro a
    rw [get_levelsAfter, hc]
    rfl
  cases hm : image.moves scheme needs with
  | false => rfl
  | true =>
      obtain ⟨step, hs⟩ := exists_mem_steps_of_moves hm
      cases scheme with
      | separate =>
          obtain ⟨a, c, hsome, -⟩ := mem_steps_separate.mp hs
          rw [hc] at hsome
          exact absurd hsome (by simp)
      | shared =>
          obtain ⟨hnew, hne, -⟩ := LayoutStep.between?_eq_some.mp (mem_steps_shared.mp hs)
          rw [hlevels] at hnew hne
          -- contents are dropped only if all is undefined, and then so is the new layout
          split at hne
          · rename_i hdrops
            refine absurd (ImageLayout.shared_restrict_eq_undefined.mpr fun a ha => ?_) hnew
            have hyields := List.all_eq_true.mp hdrops a ((PlaneSet.mem_planes _ a).mpr ha)
            rw [hc, Level.yields, Bool.not_eq_true'] at hyields
            exact Level.isDefined_eq_false.mp hyields
          · exact absurd rfl hne

/-- Nothing happens to an image that meets every need, as long as the accesses leave no trace. -/
theorem settle_of_meets (hmeets : ∀ a, (needs.get a).demand.Meets (image.levels.get a))
    (hfixed : ∀ a, (image.histories.get a).record (needs.get a).access = image.histories.get a) :
    image.settle scheme needs = image := by
  have hc : ∀ a, (image.changes needs).get a = none := fun a => by
    rw [get_changes]
    exact Need.change?_eq_none.mpr (hmeets a)
  have hlevels : image.settledLevels needs = image.levels :=
    PerAspect.ext_get fun a => get_settledLevels_of_none (hc a)
  have heffect : ∀ a, image.effect scheme needs a = .access (needs.get a).access := by
    intro a
    have hcarried : image.isCarried scheme needs a = false := by
      simp [isCarried, moves_of_meets hmeets]
    simp [effect, hc, hcarried]
  have hhistories : PerAspect.ofFn (fun a => (image.effect scheme needs a).apply
      (image.histories.get a)) = image.histories :=
    PerAspect.ext_get fun a => by
      rw [PerAspect.get_ofFn, heffect]
      exact hfixed a
  rw [settle, hlevels, hhistories]

/-! ### Barriers -/

variable {id : ImageId} {endsPass : Bool} {b : ImageBarrier}

theorem step_of_mem_imageBarriers
    (h : b ∈ (image.request scheme needs id endsPass).imageBarriers) :
    b.step ∈ image.steps scheme needs ∧
      b.dependency = (image.request scheme needs id endsPass).stepDependency b.step := by
  unfold Request.imageBarriers at h
  rw [steps_request] at h
  obtain ⟨step, hs, rfl⟩ := List.mem_map.mp h
  exact ⟨hs, rfl⟩

theorem imageBarriers_eq_nil_of_moves_eq_false (h : image.moves scheme needs = false) (id : ImageId)
    (endsPass : Bool) : (image.request scheme needs id endsPass).imageBarriers = [] := by
  rw [Request.imageBarriers, steps_request, steps_eq_nil_of_moves_eq_false h]
  rfl

theorem exists_barrier_of_mem_steps {step : LayoutStep} (h : step ∈ image.steps scheme needs)
    (id : ImageId) (endsPass : Bool) :
    ∃ b ∈ (image.request scheme needs id endsPass).imageBarriers, b.step = step := by
  rw [← steps_request id endsPass] at h
  exact ⟨_, List.mem_map_of_mem h, rfl⟩

theorem exists_barrier_of_moves (h : image.moves scheme needs = true) (id : ImageId)
    (endsPass : Bool) : ∃ b, b ∈ (image.request scheme needs id endsPass).imageBarriers := by
  obtain ⟨step, hs⟩ := exists_mem_steps_of_moves h
  obtain ⟨b, hb, -⟩ := exists_barrier_of_mem_steps hs id endsPass
  exact ⟨b, hb⟩

theorem stepDependency_separate {a : Aspect} {c : Change} {step : LayoutStep}
    (hc : (image.changes needs).get a = some c) (hstep : c.step? a = some step) (id : ImageId)
    (endsPass : Bool) : (image.request .separate needs id endsPass).stepDependency step =
      image.dependency .separate needs a := by
  have hplanes : step.planes.planes = [a] := by
    rw [(LayoutStep.between?_eq_some.mp hstep).2.2]
    cases a <;> rfl
  have hscheme : (image.request .separate needs id endsPass).scheme = .separate := rfl
  rw [Request.stepDependency, hscheme]
  simp only [hplanes, List.foldl_cons, List.foldl_nil, dependencyOf_request, hc]
  exact Dependency.empty_or _

/-- With separate layouts a barrier is about one aspect that moves to a defined level. -/
theorem barrier_separate
    (h : b ∈ (image.request .separate needs id endsPass).imageBarriers) :
    ∃ a c, (image.changes needs).get a = some c ∧ c.step? a = some b.step ∧
      b.dependency = image.dependency .separate needs a := by
  obtain ⟨hs, hd⟩ := step_of_mem_imageBarriers h
  obtain ⟨a, c, hc, hstep⟩ := mem_steps_separate.mp hs
  exact ⟨a, c, hc, hstep, hd.trans (stepDependency_separate hc hstep id endsPass)⟩

/-- With a shared layout a barrier takes in the whole image and waits for both aspects. -/
theorem barrier_shared
    (h : b ∈ (image.request .shared needs id endsPass).imageBarriers) :
    image.planeSet.step? image.levels (image.changes needs) = some b.step ∧
      b.step.planes = image.planeSet ∧
      b.dependency =
        image.dependency .shared needs .depth ||| image.dependency .shared needs .stencil := by
  obtain ⟨hs, hd⟩ := step_of_mem_imageBarriers h
  have hstep := mem_steps_shared.mp hs
  refine ⟨hstep, ?_, ?_⟩
  · rw [(LayoutStep.between?_eq_some.mp hstep).2.2]
  · have hscheme : (image.request .shared needs id endsPass).scheme = .shared := rfl
    rw [hd, Request.stepDependency, hscheme]
    exact dependency_request id endsPass

/-- With a shared layout the order in which the aspects are taken does not matter. -/
theorem src_barrier_shared (h : b ∈ (image.request .shared needs id endsPass).imageBarriers)
    (a : Aspect) : b.dependency.src =
      (image.dependency .shared needs a).src ||| (image.dependency .shared needs a.other).src := by
  rw [(barrier_shared h).2.2]
  cases a with
  | depth => rfl
  | stencil => exact Access.or_comm _ _

/-- An aspect that a barrier takes in has its layout changed, unless it is undefined and moved by a
shared layout without a change of its level. -/
theorem effect_of_mem_barrier
    (h : b ∈ (image.request scheme needs id endsPass).imageBarriers) {a : Aspect}
    (ha : b.step.planes.has a = true) :
    (∃ next, image.effect scheme needs a = .layout next) ∨ (scheme = .shared ∧
      (image.changes needs).get a = none ∧ image.levels.get a = .undefined) := by
  cases scheme with
  | separate =>
      obtain ⟨a', c, hc, hstep, -⟩ := barrier_separate h
      have hb := LayoutStep.between?_eq_some.mp hstep
      rw [hb.2.2, PlaneSet.has_single, decide_eq_true_eq] at ha
      subst ha
      have hdef : c.target.isDefined = true :=
        Level.isDefined_iff.mpr fun ht => hb.1 (Level.layout_eq_undefined.mpr ht)
      exact .inl ⟨(needs.get a').access, by simp [effect, hc, hdef]⟩
  | shared =>
      obtain ⟨hstep, hplanes, -⟩ := barrier_shared h
      have hmoves := moves_of_mem_steps (step_of_mem_imageBarriers h).1
      have hhas : image.has a = true := by rw [has, ← hplanes]; exact ha
      cases hc : (image.changes needs).get a with
      | none =>
          cases hdef : (image.levels.get a).isDefined with
          | false => exact .inr ⟨rfl, rfl, Level.isDefined_eq_false.mp hdef⟩
          | true =>
              have hcarried : image.isCarried .shared needs a = true := by
                simp [isCarried, hmoves, hhas, hdef]
              exact .inl ⟨image.carriedAccess needs a, by simp [effect, hc, hcarried]⟩
      | some c =>
          cases hdef : c.target.isDefined with
          | true => exact .inl ⟨(needs.get a).access, by simp [effect, hc, hdef]⟩
          | false =>
              -- the new layout is defined, so the other aspect is the one that defines it
              have hnew := (LayoutStep.between?_eq_some.mp hstep).1
              rw [Ne, ImageLayout.shared_restrict_eq_undefined] at hnew
              have hshares : image.sharesLayout .shared needs a = true := by
                cases hno : image.sharesLayout .shared needs a with
                | true => rfl
                | false =>
                    refine absurd (fun a' ha' => ?_) hnew
                    rw [show levelsAfter image.levels (image.changes needs) =
                      image.settledLevels needs from rfl]
                    rcases Aspect.eq_or_eq_other a a' with rfl | rfl
                    · rw [get_settledLevels_of_some hc]
                      exact Level.isDefined_eq_false.mp hdef
                    · rw [← Level.isDefined_eq_false]
                      simpa [sharesLayout, has, ha'] using hno
              exact .inl ⟨.ofLevel .readOnly, by simp [effect, hc, hdef, hshares, hmoves]⟩

theorem isCarried_of_quiet {a : Aspect}
    (hquiet : ∀ b ∈ (image.request scheme needs id endsPass).imageBarriers,
      b.step.planes.has a = false) : image.isCarried scheme needs a = false := by
  cases hcarried : image.isCarried scheme needs a with
  | false => rfl
  | true =>
      simp only [isCarried, Bool.and_eq_true, decide_eq_true_eq] at hcarried
      obtain ⟨⟨⟨hmoves, rfl⟩, hhas⟩, -⟩ := hcarried
      obtain ⟨b, hb⟩ := exists_barrier_of_moves hmoves id endsPass
      have hnot := hquiet b hb
      rw [(barrier_shared hb).2.1] at hnot
      exact absurd hhas (by rw [has, hnot]; simp)

theorem src_dependency_of_layout {a : Aspect} {next : Access}
    (h : image.effect scheme needs a = .layout next) :
    (image.dependency scheme needs a).src = (image.histories.get a).owed := by
  rw [dependency, h]
  rfl

end TrackedImage

end DepthStencil
