import DepthStencil.Proofs.WriteHistories

/-! # What barriers make ready

The second half of a barrier says what has to wait for it.  A change of the layout of an aspect
leads to some access, whatever was on record before (`TrackedImage.contains_dst_of_layout`), and
which one it is depends on what becomes of the aspect (`TrackedImage.effect_eq_layout`):

* the access that is needed, if there is one;
* any use that its level permits, if the aspect is moved without being needed;
* sampling, if the aspect is forgotten in a shared layout.

So a barrier makes every aspect it takes in ready for what follows (`Request.Serves`). -/

namespace DepthStencil

theorem Command.needs_of_not_named {command : Command} {a : Aspect}
    (h : command.named.get a = false) (covers : Bool) : (command.needs covers).get a = .none := by
  cases command with
  | draw uses =>
      rw [named, PerAspect.get_map, Use.reads, Bool.or_eq_false_iff] at h
      rw [get_needs_draw, Use.need, h.1, h.2]
      rfl
  | clear aspects rect =>
      rw [get_needs_clear, show aspects.get a = false from h]
      rfl
  | discard aspects =>
      rw [get_needs_discard, show aspects.get a = false from h]
      rfl
  | transition targets =>
      rw [named, PerAspect.get_map, Option.isSome_eq_false_iff, Option.isNone_iff_eq_none] at h
      rw [get_needs_transition, h]
      rfl

theorem Need.OfCommand.access_eq_none {need : Need} (h : need.OfCommand)
    (hmeets : need.demand.Meets .undefined) : need.access = .none := by
  rcases h with rfl | rfl | ⟨discards, rfl⟩ | ⟨level, rfl⟩
  · rfl
  · exact absurd hmeets (by decide)
  · have hle : Level.writable ≤ Level.undefined := hmeets
    exact absurd hle (by decide)
  · have hlevel : Level.undefined = level := hmeets
    rw [← hlevel]
    rfl

/-- Whether a barrier makes an aspect ready for what follows a request that was made to meet the
needs of a command. -/
structure Request.Serves (r : Request) (x : Accepted) (policy : Policy) (b : ImageBarrier)
    (a : Aspect) : Prop where
  /-- For the access that is needed. -/
  needed : ((x.needs policy).get a).access ≠ .none →
    b.dependency.dst.contains ((x.needs policy).get a).access = true
  /-- For any use that the level permits, if the aspect is left alone. -/
  untouched : x.command.named.get a = false → r.levels.get a ≠ .undefined →
    b.dependency.dst.contains (.ofLevel (r.levels.get a)) = true
  /-- For sampling, if the aspect is forgotten. -/
  forgotten : r.levels.get a ≠ .undefined → r.after.get a = .undefined →
    b.dependency.dst.contains (.ofLevel .readOnly) = true

namespace TrackedImage

variable {image : TrackedImage} {scheme : LayoutScheme} {needs : PerAspect Need} {id : ImageId}
  {endsPass : Bool} {b : ImageBarrier} {a : Aspect} {next : Access}

theorem effect_eq_layout (h : image.effect scheme needs a = .layout next) :
    (∃ c, (image.changes needs).get a = some c ∧ c.target ≠ .undefined ∧
        next = (needs.get a).access) ∨
      (∃ c, (image.changes needs).get a = some c ∧ c.target = .undefined ∧
        next = .ofLevel .readOnly) ∨
      ((image.changes needs).get a = none ∧ next = image.carriedAccess needs a) := by
  unfold effect at h
  cases hc : (image.changes needs).get a with
  | some c =>
      rw [hc] at h
      simp only at h
      split at h
      · rename_i hdef
        exact .inl ⟨c, rfl, Level.isDefined_iff.mp hdef, (HistoryEffect.layout.inj h).symm⟩
      · rename_i hundef
        rw [Bool.not_eq_true, Level.isDefined_eq_false] at hundef
        split at h
        · split at h
          · exact .inr (.inl ⟨c, rfl, hundef, (HistoryEffect.layout.inj h).symm⟩)
          · exact absurd h (by simp)
        · exact absurd h (by simp)
  | none =>
      rw [hc] at h
      simp only at h
      split at h
      · exact .inr (.inr ⟨rfl, (HistoryEffect.layout.inj h).symm⟩)
      · exact absurd h (by simp)

theorem contains_dst_of_layout (h : b ∈ (image.request scheme needs id endsPass).imageBarriers)
    (ha : b.step.planes.has a = true) (he : image.effect scheme needs a = .layout next) :
    b.dependency.dst.contains next = true := by
  have hdst : (image.dependency scheme needs a).dst = next := by
    rw [dependency, he]
    rfl
  cases scheme with
  | shared =>
      have hunion : b.dependency.dst = (image.dependency .shared needs .depth).dst |||
          (image.dependency .shared needs .stencil).dst := by
        rw [(barrier_shared h).2.2]
        rfl
      rw [hunion]
      cases a with
      | depth =>
          rw [hdst]
          exact Access.contains_or_left _ (Access.contains_refl next)
      | stencil =>
          rw [hdst]
          exact Access.contains_or_right _ (Access.contains_refl next)
  | separate =>
      obtain ⟨a', c, -, hstep, hd⟩ := barrier_separate h
      rw [(LayoutStep.between?_eq_some.mp hstep).2.2, PlaneSet.has_single, decide_eq_true_eq] at ha
      subst ha
      rw [hd, hdst]
      exact Access.contains_refl next

theorem contains_dst_of_needed (h : b ∈ (image.request scheme needs id endsPass).imageBarriers)
    (ha : b.step.planes.has a = true) (hof : (needs.get a).OfCommand)
    (haccess : (needs.get a).access ≠ .none) :
    b.dependency.dst.contains (needs.get a).access = true := by
  rcases effect_of_mem_barrier h ha with ⟨next, he⟩ | ⟨-, hc, hl⟩
  · rcases effect_eq_layout he with ⟨c, -, -, rfl⟩ | ⟨c, hc, ht, -⟩ | ⟨-, rfl⟩
    · exact contains_dst_of_layout h ha he
    · -- the need is met once the aspect is undefined, so it is not accessed
      have hmeets := image.meets_settledLevels needs a
      rw [get_settledLevels_of_some hc, ht] at hmeets
      exact absurd (hof.access_eq_none hmeets) haccess
    · have hcarried := contains_dst_of_layout h ha he
      rwa [carriedAccess, if_neg haccess] at hcarried
  · rw [get_changes, hl] at hc
    exact absurd (hof.access_eq_none (Need.change?_eq_none.mp hc)) haccess

/-- A barrier is ready for any use of a defined aspect that it takes in although nothing is needed
of it. -/
theorem contains_dst_of_untouched (h : b ∈ (image.request scheme needs id endsPass).imageBarriers)
    (ha : b.step.planes.has a = true) (hneed : needs.get a = .none)
    (hl : image.levels.get a ≠ .undefined) :
    b.dependency.dst.contains (.ofLevel (image.levels.get a)) = true := by
  have hnone : (image.changes needs).get a = none := by
    rw [get_changes, hneed]
    rfl
  rcases effect_of_mem_barrier h ha with ⟨next, he⟩ | ⟨-, -, hundef⟩
  · rcases effect_eq_layout he with ⟨c, hc, -⟩ | ⟨c, hc, -⟩ | ⟨-, rfl⟩
    · exact absurd (hnone.symm.trans hc) (by simp)
    · exact absurd (hnone.symm.trans hc) (by simp)
    · have hcarried := contains_dst_of_layout h ha he
      have haccess : (needs.get a).access = .none := by rw [hneed]; rfl
      rwa [carriedAccess, if_pos haccess] at hcarried
  · exact absurd hundef hl

/-- A barrier is ready for sampling of an aspect that is forgotten. -/
theorem contains_dst_of_forgotten (h : b ∈ (image.request scheme needs id endsPass).imageBarriers)
    (ha : b.step.planes.has a = true) (hl : image.levels.get a ≠ .undefined)
    (hforgotten : (image.settledLevels needs).get a = .undefined) :
    b.dependency.dst.contains (.ofLevel .readOnly) = true := by
  cases hc : (image.changes needs).get a with
  | none => exact absurd ((get_settledLevels_of_none hc).symm.trans hforgotten) hl
  | some c =>
      have htarget : c.target = .undefined := (get_settledLevels_of_some hc).symm.trans hforgotten
      rcases effect_of_mem_barrier h ha with ⟨next, he⟩ | ⟨-, hnone, -⟩
      · rcases effect_eq_layout he with ⟨c', hc', hdef, -⟩ | ⟨-, -, -, rfl⟩ | ⟨hnone, -⟩
        · rw [← Option.some_inj.mp (hc.symm.trans hc')] at hdef
          exact absurd htarget hdef
        · exact contains_dst_of_layout h ha he
        · exact absurd (hc.symm.trans hnone) (by simp)
      · exact absurd (hc.symm.trans hnone) (by simp)

end TrackedImage

namespace Tracker

/-- Every barrier makes the aspects it takes in ready for what follows. -/
theorem barrier_serves {t : Tracker} {call : Call} {r : Request}
    (h : r ∈ (t.step call).1.requestList) :
    ∃ α ∈ t.actions call, ∃ image x, t.image? r.image = some image ∧
      α.accepted? t.policy r.image image = some x ∧
      r = image.request t.policy.scheme (x.needs t.policy) r.image r.endsPass ∧
      ∀ b ∈ r.imageBarriers, ∀ a, b.step.planes.has a = true → r.Serves x t.policy b a := by
  obtain ⟨α, hα, image, x, hi, hx, hr⟩ := exists_image?_of_mem_step h
  refine ⟨α, hα, image, x, hi, hx, hr, fun b hb a ha => ?_⟩
  rw [hr] at hb
  have hlevels : r.levels = image.levels := by rw [hr]; rfl
  have hafter : r.after = image.settledLevels (x.needs t.policy) := by
    rw [hr, Request.after, TrackedImage.changes_request]
    rfl
  refine ⟨?_, ?_, ?_⟩
  · exact TrackedImage.contains_dst_of_needed hb ha (x.ofCommand_needs t.policy a)
  · intro hnamed
    rw [hlevels]
    exact TrackedImage.contains_dst_of_untouched hb ha (Command.needs_of_not_named hnamed _)
  · rw [hlevels, hafter]
    exact TrackedImage.contains_dst_of_forgotten hb ha

/-- A depth aspect that is sampled, beside a stencil aspect that may be written. -/
def writtenStencil : Tracker :=
  (empty {}).after
    [.register
      { handle := 0, format := 129, extent := ⟨64, 64⟩, initial := ⟨.readOnly, .writable⟩ }]

/-- Forgetting the stencil aspect moves the layout it shares with the depth aspect. -/
theorem barrier_serves_writtenStencil :
    ∃ call, call = Call.record ⟨0, 0⟩ (.transition ⟨none, some .undefined⟩) ∧
      ∃ r ∈ (writtenStencil.step call).1.requestList,
        (∃ b ∈ r.imageBarriers, b.step.planes = .depthStencil) ∧
          ∃ α ∈ writtenStencil.actions call, ∃ image x,
            writtenStencil.image? r.image = some image ∧
              α.accepted? writtenStencil.policy r.image image = some x ∧
              r = image.request writtenStencil.policy.scheme (x.needs writtenStencil.policy)
                r.image r.endsPass ∧
              ∀ b ∈ r.imageBarriers, ∀ a, b.step.planes.has a = true →
                r.Serves x writtenStencil.policy b a := by
  refine ⟨_, rfl, ?_⟩
  obtain ⟨r, hr, hb⟩ :
      ∃ r ∈ (writtenStencil.step
          (.record ⟨0, 0⟩ (.transition ⟨none, some .undefined⟩))).1.requestList,
        ∃ b ∈ r.imageBarriers, b.step.planes = .depthStencil := by
    decide
  exact ⟨r, hr, hb, barrier_serves hr⟩

end Tracker

end DepthStencil
