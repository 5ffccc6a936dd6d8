import DepthStencil.Proofs.Commitments
import DepthStencil.Proofs.Finishing
import DepthStencil.Proofs.Identifiers

/-! # What finishing leaves behind

Finishing a recording visits every image once, and what it does to an image depends on nothing but
the image and the policy (`TrackedImage.rest`, `TrackedImage.restRequest?`).  A writable aspect goes
to the resting level and the others stay (`TrackedImage.get_levels_rest`).  Nothing is writable
then, so finishing a second time does nothing (`Tracker.finish_brings_to_rest`).

Whether a layout moves on the way is a matter of the resting level.  An aspect that rests read-only
always leaves its write layout.  One that is forgotten takes the layout along only if another aspect
shares it and is still read. -/

namespace DepthStencil

/-! ### One image -/

namespace TrackedImage

/-- The image after it was brought to rest. -/
def rest (policy : Policy) (image : TrackedImage) : TrackedImage :=
  (policy.restTargets? image.presentLevels).elim image fun targets =>
    image.settle policy.scheme ((Command.transition targets).needs false)

/-- The request that brings the image to rest, if a layout has to move. -/
def restRequest? (policy : Policy) (id : ImageId) (image : TrackedImage) : Option Request :=
  (policy.restTargets? image.presentLevels).bind fun targets =>
    image.request? policy.scheme ((Command.transition targets).needs false) id false

variable {policy : Policy} {image : TrackedImage} {targets : PerAspect (Option Level)}
  {id : ImageId} {r : Request} {a : Aspect}

theorem presentLevels_eq_writable (hclean : image.Clean) :
    image.presentLevels.get a = some .writable ↔ image.levels.get a = .writable := by
  rw [presentLevels, PlaneSet.restrict, PerAspect.get_ofFn]
  split
  · exact Option.some_inj
  · rename_i hlacks
    have hundefined := hclean.absent a (Bool.eq_false_iff.mpr hlacks)
    rw [hundefined]
    simp

/-- Settling an image for its resting targets takes writing away and does nothing else to levels. -/
theorem get_settledLevels_restTargets? (hclean : image.Clean)
    (ht : policy.restTargets? image.presentLevels = some targets) (a : Aspect) :
    (image.settledLevels ((Command.transition targets).needs false)).get a =
      if image.levels.get a = .writable then policy.resting else image.levels.get a := by
  obtain ⟨-, -, rfl⟩ := Policy.restTargets?_eq_some.mp ht
  have hneed := Command.get_needs_transition false a (image.presentLevels.map policy.restTarget)
  rw [PerAspect.get_map, Policy.restTarget] at hneed
  simp only [presentLevels_eq_writable hclean] at hneed
  split
  · rename_i hwritable
    rw [if_pos hwritable] at hneed
    have hmeets := image.meets_settledLevels
      ((Command.transition (image.presentLevels.map policy.restTarget)).needs false) a
    rw [hneed] at hmeets
    exact hmeets
  · rename_i hkeeps
    rw [if_neg hkeeps] at hneed
    refine get_settledLevels_of_none ?_
    rw [get_changes, hneed]
    rfl

theorem get_levels_rest (hclean : image.Clean)
    (hrest : policy.relaxOnFinish = true ∧ policy.resting ≠ .writable) (a : Aspect) :
    (image.rest policy).levels.get a =
      if image.levels.get a = .writable then policy.resting else image.levels.get a := by
  rw [rest]
  cases ht : policy.restTargets? image.presentLevels with
  | some targets => exact get_settledLevels_restTargets? hclean ht a
  | none =>
      refine (if_neg fun hwritable => ?_).symm
      have hsome := Policy.restTargets?_eq_some.mpr
        ⟨hrest, ⟨a, (presentLevels_eq_writable hclean).mpr hwritable⟩, rfl⟩
      rw [ht] at hsome
      exact absurd hsome (by simp)

theorem has_rest (policy : Policy) (a : Aspect) : (image.rest policy).has a = image.has a := by
  rw [rest]
  cases policy.restTargets? image.presentLevels <;> rfl

theorem levels_rest_ne_writable (hclean : image.Clean)
    (hrest : policy.relaxOnFinish = true ∧ policy.resting ≠ .writable) (a : Aspect) :
    (image.rest policy).levels.get a ≠ .writable := by
  rw [get_levels_rest hclean hrest]
  split
  · exact hrest.2
  · assumption

theorem restTargets?_eq_none (h : ∀ a, image.levels.get a ≠ .writable) :
    policy.restTargets? image.presentLevels = none := by
  cases ht : policy.restTargets? image.presentLevels with
  | none => rfl
  | some targets =>
      obtain ⟨-, ⟨a, hwritable⟩, -⟩ := Policy.restTargets?_eq_some.mp ht
      rw [presentLevels, PlaneSet.restrict, PerAspect.get_ofFn] at hwritable
      split at hwritable
      · exact absurd (Option.some_inj.mp hwritable) (h a)
      · exact absurd hwritable (by simp)

/-! ### Its request -/

theorem levels_of_restRequest? (h : image.restRequest? policy id = some r) :
    r.image = id ∧ r.levels = image.levels ∧ r.after = (image.rest policy).levels := by
  obtain ⟨targets, ht, hr⟩ := Option.bind_eq_some_iff.mp h
  obtain ⟨-, rfl⟩ := request?_eq_some.mp hr
  refine ⟨rfl, rfl, ?_⟩
  rw [Request.after, changes_request, rest, ht]
  rfl

theorem isSome_restRequest? : (image.restRequest? policy id).isSome = true ↔
    ∃ targets, policy.restTargets? image.presentLevels = some targets ∧
      image.moves policy.scheme ((Command.transition targets).needs false) = true := by
  rw [Option.isSome_iff_exists]
  constructor
  · rintro ⟨r, h⟩
    obtain ⟨targets, ht, hr⟩ := Option.bind_eq_some_iff.mp h
    exact ⟨targets, ht, (request?_eq_some.mp hr).1⟩
  · rintro ⟨targets, ht, hmoves⟩
    exact ⟨_, Option.bind_eq_some_iff.mpr ⟨targets, ht, request?_eq_some.mpr ⟨hmoves, rfl⟩⟩⟩

theorem Clean.has_of_levels (hclean : image.Clean) (h : image.levels.get a ≠ .undefined) :
    image.has a = true := by
  by_contra hlacks
  exact h (hclean.absent a (Bool.eq_false_iff.mpr hlacks))

/-- Bringing an image to rest moves a layout if an aspect that was writable keeps a known one. -/
theorem isSome_restRequest?_of_writable (hclean : image.Clean)
    (hrest : policy.relaxOnFinish = true ∧ policy.resting ≠ .writable)
    (hwritable : image.levels.get a = .writable)
    (hknown : (image.rest policy).believedLayout policy.scheme a ≠ .undefined) :
    (image.restRequest? policy id).isSome = true := by
  have ht := Policy.restTargets?_eq_some.mpr
    ⟨hrest, ⟨a, (presentLevels_eq_writable hclean).mpr hwritable⟩, rfl⟩
  have hhas : image.has a = true := hclean.has_of_levels (by rw [hwritable]; simp)
  have hsettled := get_settledLevels_restTargets? hclean ht a
  rw [if_pos hwritable] at hsettled
  rw [rest, ht] at hknown
  refine isSome_restRequest?.mpr ⟨_, ht, moves_of_isWritable_ne hhas hknown ?_⟩
  rw [hsettled, hwritable]
  cases hresting : policy.resting with
  | undefined => decide
  | readOnly => decide
  | writable => exact absurd hresting hrest.2

theorem moves_separate_of_forgotten {needs : PerAspect Need}
    (h : ∀ a, (image.settledLevels needs).get a = .undefined ∨
      (image.settledLevels needs).get a = image.levels.get a) :
    image.moves .separate needs = false := by
  by_contra hmoves
  rw [Bool.not_eq_false] at hmoves
  obtain ⟨step, hs⟩ := exists_mem_steps_of_moves hmoves
  obtain ⟨b, c, hc, hstep⟩ := mem_steps_separate.mp hs
  have hb := h b
  rw [get_settledLevels_of_some hc] at hb
  rw [get_changes] at hc
  rcases hb with hforgotten | hkept
  · exact (LayoutStep.between?_eq_some.mp hstep).1 (Level.layout_eq_undefined.mpr hforgotten)
  · exact (Need.change?_eq_some hc).2.1 hkept

theorem exists_defined_of_moves_shared {needs : PerAspect Need}
    (h : image.moves .shared needs = true) :
    ∃ b, image.has b = true ∧ (image.settledLevels needs).get b ≠ .undefined := by
  obtain ⟨step, hs⟩ := exists_mem_steps_of_moves h
  have hnew := (LayoutStep.between?_eq_some.mp (mem_steps_shared.mp hs)).1
  by_contra hnone
  refine hnew (ImageLayout.shared_restrict_eq_undefined.mpr fun b hb => ?_)
  by_contra hdefined
  exact hnone ⟨b, hb, hdefined⟩

/-- Where aspects rest read-only, a request is made for the images that were writable in one. -/
theorem isSome_restRequest?_of_readOnly (hclean : image.Clean)
    (hrelax : policy.relaxOnFinish = true) (hresting : policy.resting = .readOnly) :
    (image.restRequest? policy id).isSome = true ↔ ∃ a, image.levels.get a = .writable := by
  have hrest : policy.relaxOnFinish = true ∧ policy.resting ≠ .writable :=
    ⟨hrelax, by rw [hresting]; simp⟩
  constructor
  · intro h
    obtain ⟨targets, ht, -⟩ := isSome_restRequest?.mp h
    obtain ⟨a, hwritable⟩ := (Policy.restTargets?_eq_some.mp ht).2.1
    exact ⟨a, (presentLevels_eq_writable hclean).mp hwritable⟩
  · rintro ⟨a, hwritable⟩
    have hhas : image.has a = true := hclean.has_of_levels (by rw [hwritable]; simp)
    refine isSome_restRequest?_of_writable hclean hrest hwritable ?_
    refine believedLayout_ne_undefined ((has_rest policy a).trans hhas) ?_ policy.scheme
    rw [get_levels_rest hclean hrest, if_pos hwritable, hresting]
    simp

/-- Where aspects rest undefined, a request is made for the images that share the layout of one that
was writable with one that is still read. -/
theorem isSome_restRequest?_of_undefined (hclean : image.Clean)
    (hrelax : policy.relaxOnFinish = true) (hresting : policy.resting = .undefined) :
    (image.restRequest? policy id).isSome = true ↔ policy.scheme = .shared ∧
      ∃ a, image.has a = true ∧ image.has a.other = true ∧ image.levels.get a = .writable ∧
        image.levels.get a.other = .readOnly := by
  have hrest : policy.relaxOnFinish = true ∧ policy.resting ≠ .writable :=
    ⟨hrelax, by rw [hresting]; simp⟩
  constructor
  · intro h
    obtain ⟨targets, ht, hmoves⟩ := isSome_restRequest?.mp h
    have hsettled := get_settledLevels_restTargets? hclean ht
    rw [hresting] at hsettled
    obtain ⟨a, hwritable⟩ := (Policy.restTargets?_eq_some.mp ht).2.1
    rw [presentLevels_eq_writable hclean] at hwritable
    have hhas : image.has a = true := hclean.has_of_levels (by rw [hwritable]; simp)
    cases hscheme : policy.scheme with
    | separate =>
        rw [hscheme, moves_separate_of_forgotten fun b => ?_] at hmoves
        · exact absurd hmoves (by simp)
        · rw [hsettled]
          exact (ite_eq_or_eq _ _ _)
    | shared =>
        rw [hscheme] at hmoves
        obtain ⟨b, hb, hdefined⟩ := exists_defined_of_moves_shared hmoves
        rw [hsettled] at hdefined
        split at hdefined
        · exact absurd rfl hdefined
        · rename_i hkept
          have hother : b = a.other := (Aspect.eq_or_eq_other a b).resolve_left fun he =>
            hkept (he ▸ hwritable)
          subst hother
          refine ⟨rfl, a, hhas, hb, hwritable, ?_⟩
          cases hlevel : image.levels.get a.other with
          | undefined => exact absurd hlevel hdefined
          | readOnly => rfl
          | writable => exact absurd hlevel hkept
  · rintro ⟨hscheme, a, hhas, hother, hwritable, hread⟩
    refine isSome_restRequest?_of_writable hclean hrest hwritable ?_
    rw [hscheme]
    intro hnone
    have hundefined := ImageLayout.shared_restrict_eq_undefined.mp hnone a.other
      ((has_rest policy a.other).trans hother)
    rw [get_levels_rest hclean hrest, hread] at hundefined
    exact absurd hundefined (by simp)

end TrackedImage

/-! ### All images -/

namespace Tracker

variable {t : Tracker} {id : ImageId} {image : TrackedImage} {r : Request}

/-- The request that brings an image to rest, if a layout has to move. -/
def restRequest? (t : Tracker) (id : ImageId) : Option Request :=
  (t.image? id).bind fun image => image.restRequest? t.policy id

theorem fst_relax (t : Tracker) (id : ImageId) : (t.relax id).1 = t.restRequest? id := by
  rw [relax_eq, restRequest?]
  cases t.image? id with
  | none => rfl
  | some image =>
      simp only [Option.bind_some, TrackedImage.restRequest?]
      cases t.policy.restTargets? image.presentLevels with
      | none => rfl
      | some targets => rfl

@[simp] theorem image?_countDecays (t : Tracker) (changes : PerAspect (Option Change))
    (id : ImageId) : (t.countDecays changes).image? id = t.image? id := rfl

theorem image?_relax (t : Tracker) (id id' : ImageId) : (t.relax id).2.image? id' =
    if id' = id then (t.image? id').map (TrackedImage.rest t.policy) else t.image? id' := by
  rcases t.relax_cases id with ⟨hrelax, hnone⟩ | ⟨image, targets, hi, ht, hrelax⟩
  · rw [hrelax]
    split
    · rename_i hid
      subst hid
      cases hi : t.image? id' with
      | none => rfl
      | some image =>
          rw [Option.map_some, TrackedImage.rest, hnone image hi]
          rfl
    · rfl
  · rw [hrelax, image?_countDecays, image?_settle]
    split
    · rename_i hid
      subst hid
      rw [hi, Option.map_some, Option.map_some, TrackedImage.rest, ht]
      rfl
    · rfl

/-- Images brought to rest one after another do so each on its own. -/
theorem relaxAll_each {ids : List ImageId} (hnodup : ids.Nodup) (t : Tracker) :
    (relaxAll ids t).1 = ids.filterMap t.restRequest? ∧ ∀ id, (relaxAll ids t).2.image? id =
      if id ∈ ids then (t.image? id).map (TrackedImage.rest t.policy) else t.image? id := by
  induction ids generalizing t with
  | nil => exact ⟨rfl, fun id => rfl⟩
  | cons id ids ih =>
      rw [List.nodup_cons] at hnodup
      obtain ⟨hrequests, himages⟩ := ih hnodup.2 (t.relax id).2
      have hpolicy : (t.relax id).2.policy = t.policy := (relax_turn t id).1
      have hother : ∀ id', id' ≠ id → (t.relax id).2.image? id' = t.image? id' := fun id' hid => by
        rw [image?_relax, if_neg hid]
      constructor
      · have hrest : ids.filterMap (t.relax id).2.restRequest? = ids.filterMap t.restRequest? :=
          List.filterMap_congr fun id' hid' => by
            rw [restRequest?, restRequest?, hpolicy, hother id' fun he => hnodup.1 (he ▸ hid')]
        rw [relaxAll, hrequests, hrest, fst_relax]
        cases h : t.restRequest? id with
        | none => rw [List.filterMap_cons_none h]; rfl
        | some r => rw [List.filterMap_cons_some h]; rfl
      · intro id'
        rw [relaxAll, himages, hpolicy]
        by_cases hid : id' = id
        · subst hid
          rw [if_neg hnodup.1, if_pos List.mem_cons_self, image?_relax, if_pos rfl]
        · simp only [hother id' hid, List.mem_cons, hid, false_or]

theorem relaxAll_of_rested
    (h : ∀ id image, t.image? id = some image → ∀ a, image.levels.get a ≠ .writable)
    (ids : List ImageId) : relaxAll ids t = ([], t) := by
  induction ids with
  | nil => rfl
  | cons id ids ih =>
      rcases t.relax_cases id with ⟨hrelax, -⟩ | ⟨image, targets, hi, ht, -⟩
      · rw [relaxAll, hrelax, ih]
        rfl
      · rw [TrackedImage.restTargets?_eq_none (h id image hi)] at ht
        exact absurd ht (by simp)

theorem image?_finish (t : Tracker) (id : ImageId) : t.finish.2.image? id =
    (t.closePass.image? id).map (TrackedImage.rest t.policy) := by
  rw [finish, (relaxAll_each (Registry.ids_nodup _) t.closePass).2, policy_closePass]
  split
  · rfl
  · rename_i hid
    cases hi : t.closePass.image? id with
    | none => rfl
    | some image =>
        exact absurd (Registry.mem_ids.mpr (Option.isSome_of_eq_some hi)) hid

theorem fst_finish (t : Tracker) :
    t.finish.1 = t.closePass.registry.ids.filterMap t.closePass.restRequest? :=
  (relaxAll_each (Registry.ids_nodup _) t.closePass).1

theorem mem_finish : r ∈ t.finish.1 ↔ ∃ image, t.closePass.image? r.image = some image ∧
    image.restRequest? t.policy r.image = some r := by
  rw [fst_finish, List.mem_filterMap]
  simp only [restRequest?, policy_closePass, Option.bind_eq_some_iff]
  constructor
  · rintro ⟨id, -, image, hi, hr⟩
    obtain ⟨rfl, -⟩ := TrackedImage.levels_of_restRequest? hr
    exact ⟨image, hi, hr⟩
  · rintro ⟨image, hi, hr⟩
    exact ⟨r.image, Registry.mem_ids.mpr (Option.isSome_of_eq_some hi), image, hi, hr⟩

/-- The requests for finishing come in the order of the slots, one for an image at most. -/
theorem finish_pairwise (t : Tracker) :
    t.finish.1.Pairwise fun r r' => r.image.index < r'.image.index := by
  rw [fst_finish, List.pairwise_filterMap]
  refine (Registry.ids_pairwise _).imp fun {id id'} hlt r hr r' hr' => ?_
  obtain ⟨image, -, hr⟩ := Option.bind_eq_some_iff.mp hr
  obtain ⟨image', -, hr'⟩ := Option.bind_eq_some_iff.mp hr'
  rwa [(TrackedImage.levels_of_restRequest? hr).1, (TrackedImage.levels_of_restRequest? hr').1]

theorem exists_mem_finish (hi : t.closePass.image? id = some image) :
    (∃ r ∈ t.finish.1, r.image = id) ↔ (image.restRequest? t.policy id).isSome = true := by
  constructor
  · rintro ⟨r, hr, rfl⟩
    obtain ⟨image', hi', hr⟩ := mem_finish.mp hr
    obtain rfl := Option.some_inj.mp (hi'.symm.trans hi)
    exact Option.isSome_of_eq_some hr
  · intro h
    obtain ⟨r, hr⟩ := Option.isSome_iff_exists.mp h
    obtain ⟨rfl, -⟩ := TrackedImage.levels_of_restRequest? hr
    exact ⟨r, mem_finish.mpr ⟨image, hi, hr⟩, rfl⟩

theorem ids_of_holdings {t' : Tracker} (h : t'.holdings = t.holdings) :
    t'.registry.ids = t.registry.ids := by
  have hids := congrArg (fun r : Registry => r.ids) h
  rwa [holdings, holdings, Registry.ids_map, Registry.ids_map] at hids

theorem holdings_finish (t : Tracker) : t.finish.2.holdings = t.holdings := by
  rw [finish, relaxAll_eq_acts, holdings_acts, holdings_closePass]
  intro α hα r
  obtain ⟨id, -, rfl⟩ := List.mem_map.mp hα
  rfl

theorem clean_of_image?_closePass {policy : Policy} {calls : List Call}
    (hi : ((empty policy).after calls).closePass.image? id = some image) : image.Clean := by
  have hb := beliefs_of_image? hi
  rw [beliefs_closePass] at hb
  have hclean := clean_after policy calls id image.endPass hb
  exact ⟨hclean.absent, hclean.unwritten⟩

theorem exists_image?_closePass (hi : t.image? id = some image) :
    ∃ image', t.closePass.image? id = some image' ∧ image'.levels = image.levels ∧
      image'.has = image.has := by
  rw [image?_closePass, hi]
  split
  · exact ⟨_, rfl, rfl, rfl⟩
  · exact ⟨_, rfl, rfl, rfl⟩

/-- Finishing a recording leaves every image at rest.  No pass is open then, and the same images are
tracked.  An aspect that was writable is at the resting level and every other one stays as it was.

There is at most one request for an image, in the order of the slots, and it tells the levels before
and after.  Where aspects rest read-only, the images that were writable in an aspect have one.
Where they rest undefined, only images with a shared layout do, and of these the ones with one
aspect writable and the other one read-only.

Finishing once more does nothing at all. -/
theorem finish_brings_to_rest {policy : Policy}
    (hrest : policy.relaxOnFinish = true ∧ policy.resting ≠ .writable) (calls : List Call) :
    let t := (empty policy).after calls
    let rs := t.finish.1
    let t' := t.finish.2
    (t'.pass? = none ∧ t'.registry.ids = t.registry.ids ∧
      ∀ id image', t'.image? id = some image' → ∀ a, image'.levels.get a ≠ .writable) ∧
    (rs.Pairwise (fun r r' => r.image.index < r'.image.index) ∧
      ∀ r ∈ rs, r.image ∈ t.registry.ids) ∧
    (∀ id image, t.image? id = some image → ∃ image', t'.image? id = some image' ∧
      (∀ a, image'.levels.get a =
        if image.levels.get a = .writable then policy.resting else image.levels.get a) ∧
      (∀ r ∈ rs, r.image = id → r.levels = image.levels ∧ r.after = image'.levels) ∧
      (policy.resting = .readOnly →
        ((∃ r ∈ rs, r.image = id) ↔ ∃ a, image.levels.get a = .writable)) ∧
      (policy.resting = .undefined →
        ((∃ r ∈ rs, r.image = id) ↔ policy.scheme = .shared ∧
          ∃ a, image.has a = true ∧ image.has a.other = true ∧ image.levels.get a = .writable ∧
            image.levels.get a.other = .readOnly))) ∧
    t'.finish = ([], t') := by
  intro t rs t'
  have hpolicy : t.policy = policy := policy_after (empty policy) calls
  have hpass : t'.pass? = none := (pass?_relaxAll _ _).trans (pass?_closePass t)
  have hids : t'.registry.ids = t.registry.ids := ids_of_holdings (holdings_finish t)
  have hrested : ∀ id image', t'.image? id = some image' →
      ∀ a, image'.levels.get a ≠ .writable := by
    intro id image' hi'
    rw [image?_finish, hpolicy] at hi'
    obtain ⟨image₀, hi₀, rfl⟩ := Option.map_eq_some_iff.mp hi'
    exact TrackedImage.levels_rest_ne_writable (clean_of_image?_closePass hi₀) hrest
  refine ⟨⟨hpass, hids, hrested⟩, ⟨finish_pairwise t, fun r hr => ?_⟩, fun id image hi => ?_, ?_⟩
  · obtain ⟨image₀, hi₀, -⟩ := mem_finish.mp hr
    rw [← ids_of_holdings (holdings_closePass t)]
    exact Registry.mem_ids.mpr (Option.isSome_of_eq_some hi₀)
  · obtain ⟨image₀, hi₀, hlevels, hhas⟩ := exists_image?_closePass hi
    have hclean : image₀.Clean := clean_of_image?_closePass hi₀
    have hrequest := exists_mem_finish hi₀
    rw [hpolicy] at hrequest
    refine ⟨image₀.rest policy, ?_, fun a => ?_, fun r hr hid => ?_, fun hresting => ?_,
      fun hresting => ?_⟩
    · rw [image?_finish, hpolicy, hi₀]
      rfl
    · rw [TrackedImage.get_levels_rest hclean hrest, hlevels]
    · subst hid
      obtain ⟨image₁, hi₁, hr⟩ := mem_finish.mp hr
      obtain rfl := Option.some_inj.mp (hi₁.symm.trans hi₀)
      rw [hpolicy] at hr
      rw [← hlevels]
      exact (TrackedImage.levels_of_restRequest? hr).2
    · rw [hrequest, TrackedImage.isSome_restRequest?_of_readOnly hclean hrest.1 hresting, hlevels]
    · rw [hrequest, TrackedImage.isSome_restRequest?_of_undefined hclean hrest.1 hresting, hlevels,
        hhas]
  · rw [finish, closePass_of_none hpass]
    exact relaxAll_of_rested hrested _

/-- The image with two aspects has a request, since its stencil aspect is still read. -/
theorem finish_brings_to_rest_unfinished :
    (({ resting := .undefined } : Policy).relaxOnFinish = true ∧
      ({ resting := .undefined } : Policy).resting ≠ .writable) ∧
      (∃ r ∈ unfinished.finish.1, r.image = ⟨0, 0⟩) ∧
      ¬ (∃ r ∈ unfinished.finish.1, r.image = ⟨1, 0⟩) ∧
      unfinished.finish.2.finish = ([], unfinished.finish.2) := by
  have hrest : ({ resting := .undefined } : Policy).relaxOnFinish = true ∧
      ({ resting := .undefined } : Policy).resting ≠ .writable := by decide
  obtain ⟨-, -, himages, hagain⟩ := finish_brings_to_rest hrest
    [.register
        { handle := 0, format := 129, extent := ⟨64, 64⟩, initial := ⟨.writable, .readOnly⟩ },
      .register { handle := 1, format := 126, extent := ⟨64, 64⟩ },
      .record ⟨1, 0⟩ (.draw ⟨⟨true, true⟩, .none⟩)]
  refine ⟨hrest, ?_, ?_, hagain⟩
  · have htracked : (unfinished.image? ⟨0, 0⟩).isSome = true := by decide
    have hshares : (unfinished.image? ⟨0, 0⟩).all fun image => image.has .depth ∧
        image.has .stencil ∧ image.levels = ⟨.writable, .readOnly⟩ := by decide
    obtain ⟨image, hi⟩ := Option.isSome_iff_exists.mp htracked
    rw [hi, Option.all_some, decide_eq_true_eq] at hshares
    obtain ⟨hdepth, hstencil, hlevels⟩ := hshares
    obtain ⟨image', -, -, -, -, hundefined⟩ := himages ⟨0, 0⟩ image hi
    exact (hundefined rfl).mpr ⟨rfl, .depth, hdepth, hstencil, by rw [hlevels]; rfl,
      by rw [hlevels]; rfl⟩
  · have htracked : (unfinished.image? ⟨1, 0⟩).isSome = true := by decide
    have hlacks : (unfinished.image? ⟨1, 0⟩).all fun image => !image.has .stencil := by decide
    obtain ⟨image, hi⟩ := Option.isSome_iff_exists.mp htracked
    rw [hi, Option.all_some, Bool.not_eq_true'] at hlacks
    obtain ⟨image', -, -, -, -, hundefined⟩ := himages ⟨1, 0⟩ image hi
    rintro hr
    obtain ⟨-, a, hhas, hother, -⟩ := (hundefined rfl).mp hr
    cases a with
    | depth => exact absurd hother (by rw [Aspect.other, hlacks]; simp)
    | stencil => exact absurd hhas (by rw [hlacks]; simp)

end Tracker

end DepthStencil
