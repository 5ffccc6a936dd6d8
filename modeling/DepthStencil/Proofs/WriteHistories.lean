import DepthStencil.Proofs.Origins
import DepthStencil.Proofs.PhysicalLayout

/-! # Which aspects have attachment writes on record

An aspect loses its write layout only through a barrier that takes it in
(`TrackedImage.isWritable_of_not_moved`), and such a barrier starts its history anew.  So an aspect
that may not be written has no write on record, in any state that a tracker reaches
(`Tracker.clean_after`). -/

namespace DepthStencil

/-! ### Needs of commands -/

/-- The need of a command is one of four. -/
def Need.OfCommand (need : Need) : Prop :=
  need = .none ∨ need = .toTest ∨ (∃ discards, need = .toWrite discards) ∨
    ∃ level, need = .toBe level

theorem Command.ofCommand_needs (command : Command) (covers : Bool) (a : Aspect) :
    ((command.needs covers).get a).OfCommand := by
  cases command with
  | draw uses =>
      rw [get_needs_draw]
      unfold Use.need
      split
      · exact .inr (.inr (.inl ⟨false, rfl⟩))
      · split
        · exact .inr (.inl rfl)
        · exact .inl rfl
  | clear aspects rect =>
      rw [get_needs_clear]
      cases aspects.get a with
      | true => exact .inr (.inr (.inl ⟨covers, rfl⟩))
      | false => exact .inl rfl
  | discard aspects =>
      rw [get_needs_discard]
      cases aspects.get a with
      | true => exact .inr (.inr (.inl ⟨true, rfl⟩))
      | false => exact .inl rfl
  | transition targets =>
      rw [get_needs_transition]
      cases targets.get a with
      | none => exact .inl rfl
      | some level => exact .inr (.inr (.inr ⟨level, rfl⟩))

theorem Accepted.ofCommand_needs (x : Accepted) (policy : Policy) (a : Aspect) :
    ((x.needs policy).get a).OfCommand := x.command.ofCommand_needs _ a

/-- Whether an access does not write. -/
def Access.Reads (access : Access) : Prop := access = .none ∨ access = .test ∨ access = .sampled

theorem Need.OfCommand.reads {need : Need} (h : need.OfCommand) {level : Level}
    (hmeets : need.demand.Meets level) (hl : level ≠ .writable) : need.access.Reads := by
  rcases h with rfl | rfl | ⟨discards, rfl⟩ | ⟨level', rfl⟩
  · exact .inl rfl
  · exact .inr (.inl rfl)
  · refine absurd hmeets ?_
    rw [toWrite, Demand.Meets]
    cases level with
    | undefined => decide
    | readOnly => decide
    | writable => exact absurd rfl hl
  · have hlevel : level = level' := hmeets
    subst hlevel
    cases level with
    | undefined => exact .inl rfl
    | readOnly => exact .inr (.inr rfl)
    | writable => exact absurd rfl hl

theorem History.write_afterLayout {next : Access} (h : next.Reads) :
    (afterLayout next).write.kinds = 0 := by
  rcases h with rfl | rfl | rfl <;> decide

theorem History.write_record {next : Access} (h : next.Reads) (history : History) :
    (history.record next).write = history.write := by
  rcases h with rfl | rfl | rfl <;> rfl

/-! ### Layouts tell what may be written -/

theorem Level.layout_injective {l l' : Level} {a : Aspect} (h : l.layout a = l'.layout a) :
    l = l' := by
  revert h
  cases l <;> cases l' <;> cases a <;> decide

theorem ImageLayout.ofLevels_injective {d s d' s' : Level} (h : ofLevels d s = ofLevels d' s')
    (hdef : ofLevels d s ≠ .undefined) :
    d.isWritable = d'.isWritable ∧ s.isWritable = s'.isWritable := by
  revert h hdef
  cases d <;> cases s <;> cases d' <;> cases s' <;> decide

theorem ImageLayout.isWritable_of_shared_eq {planes : PlaneSet} {levels levels' : PerAspect Level}
    (h : shared (planes.restrict levels) = shared (planes.restrict levels'))
    (hdef : shared (planes.restrict levels) ≠ .undefined) {a : Aspect} (ha : planes.has a = true) :
    (levels.get a).isWritable = (levels'.get a).isWritable := by
  cases planes with
  | depthOnly =>
      cases a with
      | depth => exact (ofLevels_injective h hdef).1
      | stencil => exact absurd ha (by decide)
  | stencilOnly =>
      cases a with
      | depth => exact absurd ha (by decide)
      | stencil => exact (ofLevels_injective h hdef).2
  | depthStencil =>
      cases a with
      | depth => exact (ofLevels_injective h hdef).1
      | stencil => exact (ofLevels_injective h hdef).2

namespace TrackedImage

variable {image : TrackedImage} {scheme : LayoutScheme} {needs : PerAspect Need} {a : Aspect}

/-- An aspect that no barrier takes in can be written as before, if its layout is known at all. -/
theorem isWritable_of_not_moved (id : ImageId) (endsPass : Bool) (hhas : image.has a = true)
    (h : ∀ b ∈ (image.request scheme needs id endsPass).imageBarriers, b.step.planes.has a = false)
    (hdef : (image.settle scheme needs).believedLayout scheme a ≠ .undefined) :
    ((image.settledLevels needs).get a).isWritable = (image.levels.get a).isWritable := by
  have hsame : (image.settle scheme needs).believedLayout scheme a =
      image.believedLayout scheme a := by
    rcases believedLayout_of_not_has hhas h with hnone | hsame
    · exact absurd hnone hdef
    · exact hsame
  cases scheme with
  | separate => exact congrArg Level.isWritable (Level.layout_injective hsame)
  | shared => exact ImageLayout.isWritable_of_shared_eq hsame hdef hhas

/-- A layout moves if an aspect gains or loses writing while its layout is known. -/
theorem moves_of_isWritable_ne (hhas : image.has a = true)
    (hdef : (image.settle scheme needs).believedLayout scheme a ≠ .undefined)
    (hne : ((image.settledLevels needs).get a).isWritable ≠ (image.levels.get a).isWritable) :
    image.moves scheme needs = true := by
  by_contra hno
  rw [Bool.not_eq_true] at hno
  refine hne (isWritable_of_not_moved ⟨0, 0⟩ false hhas ?_ hdef)
  rw [imageBarriers_eq_nil_of_moves_eq_false hno]
  exact fun b hb => absurd hb List.not_mem_nil

/-- Needs to write move a layout exactly if some aspect cannot be written yet, in either scheme. -/
theorem moves_iff_of_writes
    (hwrites : ∀ a, (needs.get a).demand = .any ∨ (needs.get a).demand = .atLeast .writable)
    (hneeds : ∀ a, (needs.get a).demand ≠ .any → image.has a = true) :
    image.moves scheme needs = true ↔
      ∃ a, (needs.get a).demand = .atLeast .writable ∧ image.levels.get a ≠ .writable := by
  constructor
  · intro hmoves
    by_contra hno
    have hmeets : ∀ a, (needs.get a).demand.Meets (image.levels.get a) := by
      intro a
      rcases hwrites a with hany | hwrite
      · rw [hany]
        trivial
      · have hlevel : image.levels.get a = .writable := by
          by_contra hl
          exact hno ⟨a, hwrite, hl⟩
        rw [hwrite, hlevel]
        exact Level.le_refl _
    rw [moves_of_meets hmeets] at hmoves
    exact absurd hmoves (by simp)
  · rintro ⟨a, hwrite, hl⟩
    have hhas : image.has a = true := hneeds a (by rw [hwrite]; simp)
    have hsettled : (image.settledLevels needs).get a = .writable := by
      have hmeets := image.meets_settledLevels needs a
      rw [hwrite] at hmeets
      exact Level.eq_writable_of_le hmeets
    have hdef : (image.settledLevels needs).get a ≠ .undefined := by rw [hsettled]; simp
    have hknown : (image.settle scheme needs).believedLayout scheme a ≠ .undefined :=
      @believedLayout_ne_undefined (image.settle scheme needs) a hhas hdef scheme
    refine moves_of_isWritable_ne hhas hknown ?_
    rw [hsettled]
    cases hlevel : image.levels.get a with
    | undefined => simp [Level.isWritable]
    | readOnly => simp [Level.isWritable]
    | writable => exact absurd hlevel hl

/-! ### Aspects that may not be written -/

/-- What is believed of an image in any state that a tracker reaches. -/
structure Clean (image : TrackedImage) : Prop where
  absent : ∀ a, image.has a = false → image.levels.get a = .undefined
  unwritten : ∀ a, image.levels.get a ≠ .writable → (image.histories.get a).write.kinds = 0

theorem clean_seed (image : TrackedImage) (levels : PerAspect Level) :
    (image.seed levels).Clean := by
  have hlevels : ∀ a, (image.seed levels).levels.get a =
      if image.has a then levels.get a else .undefined := fun a => PerAspect.get_ofFn _ a
  constructor
  · intro a ha
    have ha : image.has a = false := ha
    rw [hlevels, ha, if_neg (by simp)]
  · intro a hl
    have hhistory : (image.seed levels).histories.get a =
        History.ofLevel ((image.seed levels).levels.get a) := PerAspect.get_map _ _ a
    rw [hhistory]
    cases hlevel : (image.seed levels).levels.get a with
    | undefined => rfl
    | readOnly => rfl
    | writable => exact absurd hlevel hl

theorem get_histories_settle (image : TrackedImage) (scheme : LayoutScheme)
    (needs : PerAspect Need) (a : Aspect) : (image.settle scheme needs).histories.get a =
      (image.effect scheme needs a).apply (image.histories.get a) := by
  rw [settle, PerAspect.get_ofFn]

section clean

variable (hof : ∀ a, (needs.get a).OfCommand)
  (hneeds : ∀ a, (needs.get a).demand ≠ .any → image.has a = true)

include hneeds in
theorem has_of_change {c : Change} (h : (image.changes needs).get a = some c) :
    image.has a = true := by
  refine hneeds a fun hany => ?_
  rw [get_changes, Need.change?, hany] at h
  exact absurd h (by simp [Demand.resolve])

include hneeds in
theorem change_of_absent (ha : image.has a = false) : (image.changes needs).get a = none := by
  cases hc : (image.changes needs).get a with
  | none => rfl
  | some c => exact absurd (has_of_change hneeds hc) (by rw [ha]; simp)

include hof in
theorem reads_carriedAccess (hmeets : (needs.get a).demand.Meets (image.levels.get a))
    (hl : image.levels.get a ≠ .writable) : (image.carriedAccess needs a).Reads := by
  unfold carriedAccess
  split
  · cases hlevel : image.levels.get a with
    | undefined => exact .inl rfl
    | readOnly => exact .inr (.inr rfl)
    | writable => exact absurd hlevel hl
  · exact (hof a).reads hmeets hl

include hneeds in
/-- An aspect that is forgotten without a barrier could not be written before. -/
theorem ne_writable_of_forgotten {c : Change} (hc : (image.changes needs).get a = some c)
    (ht : c.target.isDefined = false) (hshares : image.sharesLayout scheme needs a = true)
    (hmoves : image.moves scheme needs = false) : image.levels.get a ≠ .writable := by
  intro hwritable
  have hhas := has_of_change hneeds hc
  simp only [sharesLayout, Bool.and_eq_true, decide_eq_true_eq] at hshares
  obtain ⟨⟨rfl, hother⟩, hdef⟩ := hshares
  have hknown : (image.settle .shared needs).believedLayout .shared a ≠ .undefined := by
    intro hnone
    have hundefined := ImageLayout.shared_restrict_eq_undefined.mp hnone a.other hother
    rw [Level.isDefined_iff] at hdef
    exact hdef hundefined
  have hsame := isWritable_of_not_moved ⟨0, 0⟩ false hhas
    (by rw [imageBarriers_eq_nil_of_moves_eq_false hmoves]; simp) hknown
  rw [get_settledLevels_of_some hc, hwritable, Level.isDefined_eq_false.mp ht] at hsame
  exact absurd hsame (by decide)

include hof hneeds in
theorem Clean.settle (h : image.Clean) : (image.settle scheme needs).Clean := by
  constructor
  · intro a ha
    have ha : image.has a = false := ha
    exact (get_settledLevels_of_none (change_of_absent hneeds ha)).trans (h.absent a ha)
  · intro a hl
    have hl : (image.settledLevels needs).get a ≠ .writable := hl
    have hmeets := image.meets_settledLevels needs a
    rw [get_histories_settle, effect]
    cases hc : (image.changes needs).get a with
    | none =>
        rw [get_settledLevels_of_none hc] at hl hmeets
        simp only
        split
        · exact History.write_afterLayout (reads_carriedAccess hof hmeets hl)
        · rw [HistoryEffect.apply, History.write_record ((hof a).reads hmeets hl)]
          exact h.unwritten a hl
    | some c =>
        simp only
        split
        · exact History.write_afterLayout ((hof a).reads hmeets hl)
        · rename_i ht
          split
          · rename_i hshares
            split
            · exact History.write_afterLayout (.inr (.inr rfl))
            · rename_i hmoves
              rw [Bool.not_eq_true] at ht hmoves
              exact h.unwritten a (ne_writable_of_forgotten hneeds hc ht hshares hmoves)
          · rfl

end clean

end TrackedImage

/-! ### Runs -/

theorem Tracker.clean_after (policy : Policy) (calls : List Call) :
    ((empty policy).after calls).beliefs.All fun _ => TrackedImage.Clean :=
  all_after policy TrackedImage.clean_seed
    (fun h hx => h.settle (fun a => Accepted.ofCommand_needs _ policy a)
      fun _ => Action.has_of_accepted? hx) calls

end DepthStencil
