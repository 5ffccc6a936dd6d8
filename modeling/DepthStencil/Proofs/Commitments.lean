import DepthStencil.Proofs.WriteHistories

/-! # Levels that a pass commits to

A pass is begun with some levels, and as long as it is open its image stays laid out as they ask for
(`TrackedImage.Commits`).  With separate layouts the levels themselves stay.  With a shared layout
they may rise as long as the layout stays, since an undefined aspect beside a defined one sits in
the read-only half of it.

Whatever is recorded inside a pass only raises levels (`Command.only_raises`), so a commitment is
kept as long as no layout moves (`TrackedImage.Commits.settle`). -/

namespace DepthStencil

/-! ### Demands that higher levels meet -/

/-- Whether every level above one that meets the demand meets it as well. -/
def Demand.OnlyRaises : Demand → Prop
  | any | atLeast _ => True
  | exactly _ => False

theorem Demand.OnlyRaises.meets {d : Demand} (h : d.OnlyRaises) {l l' : Level} (hl : d.Meets l)
    (hle : l ≤ l') : d.Meets l' := by
  cases d with
  | any => trivial
  | atLeast m => exact Level.le_trans hl hle
  | exactly m => exact False.elim h

theorem Demand.OnlyRaises.le_of_resolve {d : Demand} (h : d.OnlyRaises) {l target : Level}
    (hr : d.resolve l = some target) : l ≤ target := by
  cases d with
  | any => exact absurd hr (by simp [resolve])
  | atLeast m =>
      rw [resolve] at hr
      split at hr
      · exact absurd hr (by simp)
      · rename_i hlt
        rw [← Option.some_inj.mp hr]
        exact (Level.le_total l m).resolve_right hlt
  | exactly m => exact False.elim h

theorem Command.only_raises {command : Command} (h : command.isTransition = false) (covers : Bool)
    (a : Aspect) : ((command.needs covers).get a).demand.OnlyRaises := by
  cases command with
  | draw uses =>
      rw [get_needs_draw, Use.need]
      split
      · trivial
      · split <;> trivial
  | clear aspects rect =>
      rw [get_needs_clear]
      split <;> trivial
  | discard aspects =>
      rw [get_needs_discard]
      split <;> trivial
  | transition targets => exact absurd h (by simp [isTransition])

theorem Command.isTransition_of_isRendering {command : Command} (h : command.isRendering = true) :
    command.isTransition = false := by
  cases command with
  | draw uses => rfl
  | clear aspects rect => rfl
  | discard aspects => exact absurd h (by simp [isRendering])
  | transition targets => exact absurd h (by simp [isRendering])

theorem PlaneSet.exists_has (planes : PlaneSet) : ∃ a, planes.has a = true := by
  cases planes with
  | depthOnly => exact ⟨.depth, rfl⟩
  | stencilOnly => exact ⟨.stencil, rfl⟩
  | depthStencil => exact ⟨.depth, rfl⟩

namespace TrackedImage

variable {image : TrackedImage} {scheme : LayoutScheme} {needs : PerAspect Need}
  {levels : PerAspect Level}

theorem le_settledLevels (image : TrackedImage) (h : ∀ a, (needs.get a).demand.OnlyRaises)
    (a : Aspect) : image.levels.get a ≤ (image.settledLevels needs).get a := by
  cases hc : (image.changes needs).get a with
  | none =>
      rw [get_settledLevels_of_none hc]
      exact Level.le_refl _
  | some c =>
      rw [get_settledLevels_of_some hc]
      rw [get_changes] at hc
      exact (h a).le_of_resolve (Need.change?_eq_some hc).2.2.1

/-! ### Commitments -/

/-- Whether an image is laid out as a pass that was begun with the given levels commits to. -/
def Commits (image : TrackedImage) (levels : PerAspect Level) : LayoutScheme → Prop
  | .separate => image.levels = levels
  | .shared =>
    ImageLayout.shared image.presentLevels = .shared (image.planeSet.restrict levels) ∧
      ∀ a, levels.get a ≤ image.levels.get a

theorem commits_levels (image : TrackedImage) (scheme : LayoutScheme) :
    image.Commits image.levels scheme := by
  cases scheme with
  | separate => rfl
  | shared => exact ⟨rfl, fun a => Level.le_refl _⟩

/-- Nothing that leaves the layouts alone and only raises levels changes a level that has a layout
of its own. -/
theorem settledLevels_of_not_moves (hraises : ∀ a, (needs.get a).demand.OnlyRaises)
    (hneeds : ∀ a, (needs.get a).demand ≠ .any → image.has a = true)
    (hmoves : image.moves .separate needs = false) : image.settledLevels needs = image.levels := by
  apply PerAspect.ext_get
  intro a
  cases hhas : image.has a with
  | false => exact get_settledLevels_of_none (change_of_absent hneeds hhas)
  | true =>
      have hquiet : ∀ b ∈ (image.request .separate needs ⟨0, 0⟩ false).imageBarriers,
          b.step.planes.has a = false := by
        rw [imageBarriers_eq_nil_of_moves_eq_false hmoves]
        exact fun b hb => absurd hb List.not_mem_nil
      have hraised := le_settledLevels image hraises a
      rcases believedLayout_of_not_has hhas hquiet with hnone | hsame
      · have hundefined : (image.settledLevels needs).get a = .undefined :=
          Level.layout_eq_undefined.mp hnone
        rw [hundefined] at hraised ⊢
        exact Level.eq_of_le_of_le (Nat.zero_le _) hraised
      · exact Level.layout_injective hsame

/-- A shared layout that is not moved stays the same when levels are raised. -/
theorem shared_of_not_moves (hraises : ∀ a, (needs.get a).demand.OnlyRaises)
    (hmoves : image.moves .shared needs = false) :
    ImageLayout.shared (image.settle .shared needs).presentLevels =
      .shared image.presentLevels := by
  obtain ⟨a, ha⟩ := image.planeSet.exists_has
  have hquiet : ∀ b ∈ (image.request .shared needs ⟨0, 0⟩ false).imageBarriers,
      b.step.planes.has a = false := by
    rw [imageBarriers_eq_nil_of_moves_eq_false hmoves]
    exact fun b hb => absurd hb List.not_mem_nil
  rcases believedLayout_of_not_has ha hquiet with hnone | hsame
  · have hnone : ImageLayout.shared (image.settle .shared needs).presentLevels = .undefined := hnone
    have hbefore : ImageLayout.shared image.presentLevels = .undefined := by
      refine ImageLayout.shared_restrict_eq_undefined.mpr fun a' ha' => ?_
      have hundefined : (image.settledLevels needs).get a' = .undefined :=
        ImageLayout.shared_restrict_eq_undefined.mp hnone a' ha'
      have hraised := le_settledLevels image hraises a'
      rw [hundefined] at hraised
      exact Level.eq_of_le_of_le hraised (Nat.zero_le _)
    rw [hnone, hbefore]
  · exact hsame

/-- A commitment is kept as long as no layout moves and levels are only raised. -/
theorem Commits.settle (h : image.Commits levels scheme)
    (hraises : ∀ a, (needs.get a).demand.OnlyRaises)
    (hneeds : ∀ a, (needs.get a).demand ≠ .any → image.has a = true)
    (hmoves : image.moves scheme needs = false) :
    (image.settle scheme needs).Commits levels scheme := by
  cases scheme with
  | separate => exact (settledLevels_of_not_moves hraises hneeds hmoves).trans h
  | shared =>
      exact ⟨(shared_of_not_moves hraises hmoves).trans h.1,
        fun a => Level.le_trans (h.2 a) (le_settledLevels image hraises a)⟩

end TrackedImage

end DepthStencil
