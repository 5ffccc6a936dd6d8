import DepthStencil.Proofs.WriteHistories

/-! # Histories of defined aspects

The commands of this library access a defined aspect in few ways, and the level of the aspect says
in which (`Access.Suits`).  So little can be on record of it: reads at a read-only level, and the
write that put it there or tests after that at a writable one (`History.Steady`).

It follows that a change of layout always has to wait for the fragment tests, and that accesses in
the present layout never take away any stage that it has to wait for
(`History.Steady.stages_record`). -/

namespace DepthStencil

/-! ### Accesses that suit a level -/

/-- Whether an access is one that commands make of an aspect at a level. -/
def Access.Suits (access : Access) : Level → Prop
  | .undefined => True
  | .readOnly => access = .test ∨ access = .sampled
  | .writable => access = .test ∨ access = .write

/-- The access of a need suits every level that meets it, unless nothing at all is needed. -/
theorem Need.OfCommand.suits {need : Need} (h : need.OfCommand) {level : Level}
    (hmeets : need.demand.Meets level) :
    (need.demand = .any ∧ need.access = .none) ∨ need.access.Suits level := by
  rcases h with rfl | rfl | ⟨discards, rfl⟩ | ⟨level', rfl⟩
  · exact .inl ⟨rfl, rfl⟩
  · cases level with
    | undefined => exact .inr trivial
    | readOnly => exact .inr (.inl rfl)
    | writable => exact .inr (.inl rfl)
  · rw [Level.eq_writable_of_le hmeets]
    exact .inr (.inr rfl)
  · have hlevel : level = level' := hmeets
    subst hlevel
    cases level with
    | undefined => exact .inr trivial
    | readOnly => exact .inr (.inr rfl)
    | writable => exact .inr (.inr rfl)

theorem Access.suits_ofLevel (level : Level) : (Access.ofLevel level).Suits level := by
  cases level with
  | undefined => trivial
  | readOnly => exact .inr rfl
  | writable => exact .inr rfl

/-! ### Histories at a level -/

namespace History

/-- Whether a history is one that commands leave of an aspect at a level. -/
def Steady (history : History) : Level → Prop
  | .undefined => True
  | .readOnly =>
    history.reads = Access.test.stages ∨ history.reads = Access.sampled.stages
  | .writable =>
    history.write.stages = Access.write.stages ∧
      (history.reads = 0 ∨ history.reads = Access.test.stages)

variable {history : History} {level : Level} {next : Access}

theorem steady_ofLevel (level : Level) : (ofLevel level).Steady level := by
  cases level with
  | undefined => trivial
  | readOnly => exact .inr rfl
  | writable => exact ⟨rfl, .inl rfl⟩

theorem steady_afterLayout (h : next.Suits level) : (afterLayout next).Steady level := by
  cases level with
  | undefined => trivial
  | readOnly =>
      rcases h with rfl | rfl
      · exact .inl rfl
      · exact .inr rfl
  | writable =>
      rcases h with rfl | rfl
      · exact ⟨rfl, .inr rfl⟩
      · exact ⟨rfl, .inl rfl⟩

/-- Tests and sampling begin with the same stage, so that the earlier reads stay on record. -/
theorem earlier_of_reads {m n : Mask} (hm : m = Access.test.stages ∨ m = Access.sampled.stages)
    (hn : n = Access.test.stages ∨ n = Access.sampled.stages) : Stage.earlier m n = m := by
  rcases hm with rfl | rfl <;> rcases hn with rfl | rfl <;> decide

theorem record_read (history : History) (h : next = .test ∨ next = .sampled) :
    history.record next = { history with reads := Stage.earlier history.reads next.stages } := by
  rcases h with rfl | rfl <;> rfl

theorem Steady.record_readOnly (h : history.Steady .readOnly) (hnext : next.Suits .readOnly) :
    history.record next = history := by
  have hstages : next.stages = Access.test.stages ∨ next.stages = Access.sampled.stages :=
    hnext.imp (congrArg Access.stages) (congrArg Access.stages)
  rw [record_read history hnext, earlier_of_reads h hstages]

theorem Steady.record_test (h : history.Steady .writable) :
    history.record .test = { history with reads := Access.test.stages } := by
  have hnone : Stage.earlier 0 Access.test.stages = Access.test.stages := by decide
  rw [record_read history (.inl rfl)]
  rcases h.2 with hreads | hreads
  · rw [hreads, hnone]
  · rw [hreads, earlier_of_reads (.inl rfl) (.inl rfl)]

theorem Steady.record (h : history.Steady level) (hnext : next.Suits level) :
    (history.record next).Steady level := by
  cases level with
  | undefined => trivial
  | readOnly =>
      rw [h.record_readOnly hnext]
      exact h
  | writable =>
      rcases hnext with rfl | rfl
      · rw [h.record_test]
        exact ⟨h.1, .inr rfl⟩
      · exact ⟨rfl, .inl rfl⟩

/-- Whatever is on record of a writable aspect, a change of layout waits for the fragment tests and
no other stage. -/
theorem Steady.stages_owed (h : history.Steady .writable) :
    history.owed.stages = Stage.fragmentTests := by
  unfold owed
  split
  · exact h.1
  · rename_i hreads
    exact h.2.resolve_left hreads

theorem Steady.stages_record (h : history.Steady level) (hdef : level.isDefined = true)
    (hnext : next.Suits level) : (history.record next).owed.stages = history.owed.stages := by
  cases level with
  | undefined => exact absurd hdef (by decide)
  | readOnly => rw [h.record_readOnly hnext]
  | writable => rw [(h.record hnext).stages_owed, h.stages_owed]

/-- A change of the layout of a defined aspect waits for the fragment tests. -/
theorem Steady.contains_fragmentTests (h : history.Steady level) (hdef : level.isDefined = true) :
    history.owed.stages.contains Stage.fragmentTests = true := by
  cases level with
  | undefined => exact absurd hdef (by decide)
  | readOnly =>
      have hne : history.reads ≠ 0 := by
        rcases h with h | h <;> rw [h] <;> decide
      rw [owed, if_neg hne]
      rcases h with h | h <;> rw [h] <;> decide
  | writable =>
      rw [h.stages_owed]
      exact Mask.contains_refl _

/-- After a change of layout the next one waits for the access that this one leads to. -/
theorem stages_owed_afterLayout (next : Access) :
    (afterLayout next).owed.stages = next.stages := by
  have hwrite : (afterLayout next).write.stages = next.stages := rfl
  unfold owed
  split
  · exact hwrite
  · rename_i hreads
    rw [afterLayout] at hreads ⊢
    cases hread : next.isReadOnly with
    | true => rfl
    | false =>
        rw [hread] at hreads
        exact absurd rfl hreads

end History

/-! ### Images -/

namespace TrackedImage

variable {image : TrackedImage} {scheme : LayoutScheme} {needs : PerAspect Need} {a : Aspect}

/-- Whether the history of each aspect is one that its level allows. -/
def Steady (image : TrackedImage) : Prop :=
  ∀ a, (image.histories.get a).Steady (image.levels.get a)

theorem steady_seed (image : TrackedImage) (levels : PerAspect Level) :
    (image.seed levels).Steady := by
  intro a
  have hhistory : (image.seed levels).histories.get a =
      History.ofLevel ((image.seed levels).levels.get a) := PerAspect.get_map _ _ a
  rw [hhistory]
  exact History.steady_ofLevel _

theorem suits_carriedAccess (hof : (needs.get a).OfCommand)
    (hmeets : (needs.get a).demand.Meets (image.levels.get a)) :
    (image.carriedAccess needs a).Suits (image.levels.get a) := by
  unfold carriedAccess
  split
  · exact Access.suits_ofLevel _
  · rename_i hne
    exact (hof.suits hmeets).resolve_left fun h => hne h.2

/-- What an aspect sees in its present layout leaves its history steady, and the stages alone that
the next change of layout waits for. -/
theorem Steady.access (h : image.Steady) (hof : (needs.get a).OfCommand)
    (hmeets : (needs.get a).demand.Meets (image.levels.get a)) :
    ((image.histories.get a).record (needs.get a).access).Steady (image.levels.get a) ∧
      ((image.levels.get a).isDefined = true →
        ((image.histories.get a).record (needs.get a).access).owed.stages =
          (image.histories.get a).owed.stages) := by
  rcases hof.suits hmeets with ⟨-, hnone⟩ | hsuits
  · rw [hnone]
    exact ⟨h a, fun _ => rfl⟩
  · exact ⟨(h a).record hsuits, fun hdef => (h a).stages_record hdef hsuits⟩

theorem Steady.settle (h : image.Steady) (hof : ∀ a, (needs.get a).OfCommand) :
    (image.settle scheme needs).Steady := by
  intro a
  have hmeets := image.meets_settledLevels needs a
  have hlevel : (image.settle scheme needs).levels.get a = (image.settledLevels needs).get a := rfl
  rw [get_histories_settle, hlevel, effect]
  cases hc : (image.changes needs).get a with
  | none =>
      rw [get_settledLevels_of_none hc] at hmeets ⊢
      simp only
      split
      · exact History.steady_afterLayout (suits_carriedAccess (hof a) hmeets)
      · exact (h.access (hof a) hmeets).1
  | some c =>
      have hdemand : (needs.get a).demand ≠ .any := by
        intro hany
        rw [get_changes, Need.change?, hany] at hc
        exact absurd hc (by simp [Demand.resolve])
      rw [get_settledLevels_of_some hc] at hmeets ⊢
      simp only
      split
      · exact History.steady_afterLayout (((hof a).suits hmeets).resolve_left fun h => hdemand h.1)
      · rename_i hundefined
        rw [Bool.not_eq_true, Level.isDefined_eq_false] at hundefined
        rw [hundefined]
        trivial

end TrackedImage

/-! ### Runs -/

theorem Beliefs.Turn.steady {policy : Policy} {b b' : Beliefs} {α : Action} {rs : List Request}
    (h : Beliefs.Turn policy b α rs b') (hb : b.All fun _ => TrackedImage.Steady) :
    b'.All fun _ => TrackedImage.Steady :=
  h.all TrackedImage.steady_seed
    (fun {_ _ _ x} h _ => h.settle fun a => x.ofCommand_needs policy a) hb

theorem Tracker.steady_after (policy : Policy) (calls : List Call) :
    ((empty policy).after calls).beliefs.All fun _ => TrackedImage.Steady :=
  all_after policy TrackedImage.steady_seed
    (fun {_ _ _ x} h _ => h.settle fun a => x.ofCommand_needs policy a) calls

end DepthStencil
