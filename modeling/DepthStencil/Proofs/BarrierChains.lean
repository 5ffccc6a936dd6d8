import DepthStencil.Proofs.Hazards
import DepthStencil.Proofs.SteadyHistories
import DepthStencil.Proofs.Commitments
import Mathlib.Data.List.Chain

/-! # Barriers on an aspect form a chain

A barrier on an aspect waits for the stages that the barrier before it leads to, and for the
fragment tests (`ImageBarrier.LeadsTo`).  So the layout transitions of an aspect are executed in
their order, with whatever was drawn in between.

What carries this from one barrier to the next are the histories of the defined aspects that every
barrier on the aspect takes in: the aspect alone if its layout is its own, and all aspects of the
image if they share one (`TrackedImage.Joins`).  Between them, a change of layout waits for all that
the last barrier leads to (`TrackedImage.Awaits`), and that stays so as long as none of them is
forgotten. -/

namespace DepthStencil

/-! ### Levels -/

theorem Level.eq_of_isWritable_eq {l l' : Level} (h : l.isDefined = true)
    (h' : l'.isDefined = true) (heq : l.isWritable = l'.isWritable) : l = l' := by
  revert h h' heq
  cases l <;> cases l' <;> decide

theorem Level.isDefined_of_le {l l' : Level} (hle : l ≤ l') (h : l.isDefined = true) :
    l'.isDefined = true := by
  revert hle h
  cases l <;> cases l' <;> decide

/-! ### Barriers on an aspect -/

/-- Whether the second barrier waits for the stages that the first one leads to, and for the
fragment tests. -/
def ImageBarrier.LeadsTo (b b' : ImageBarrier) : Prop :=
  b'.dependency.src.stages.contains b.dependency.dst.stages = true ∧
    b'.dependency.src.stages.contains Stage.fragmentTests = true

/-- The barriers of some requests for an image that take in an aspect, in their order. -/
def Request.barriersOn (id : ImageId) (a : Aspect) (rs : List Request) : List ImageBarrier :=
  (rs.filter fun r => r.image = id).flatMap fun r =>
    r.imageBarriers.filter fun b => b.step.planes.has a

theorem Request.barriersOn_nil (id : ImageId) (a : Aspect) : barriersOn id a [] = [] := rfl

theorem Request.barriersOn_eq_nil {id : ImageId} {rs : List Request} (h : ∀ r ∈ rs, r.image ≠ id)
    (a : Aspect) : barriersOn id a rs = [] := by
  have hnone : (rs.filter fun r => r.image = id) = [] :=
    List.filter_eq_nil_iff.mpr fun r hr => by simpa using h r hr
  rw [barriersOn, hnone, List.flatMap_nil]

theorem Request.barriersOn_append (id : ImageId) (a : Aspect) (rs rs' : List Request) :
    barriersOn id a (rs ++ rs') = barriersOn id a rs ++ barriersOn id a rs' := by
  rw [barriersOn, List.filter_append, List.flatMap_append]
  rfl

namespace TrackedImage

variable {image : TrackedImage} {scheme : LayoutScheme} {needs : PerAspect Need} {id : ImageId}
  {endsPass : Bool} {b : ImageBarrier} {a x : Aspect} {m : Mask}

/-! ### What the next barrier waits for -/

/-- Whether an aspect is defined and taken in by every barrier on the aspect `a`. -/
structure Joins (image : TrackedImage) (scheme : LayoutScheme) (a x : Aspect) : Prop where
  linked : scheme = .shared ∨ x = a
  present : image.has x = true
  defined : (image.levels.get x).isDefined = true

/-- Whether the next barrier on an aspect has to wait for some stages. -/
structure Awaits (image : TrackedImage) (scheme : LayoutScheme) (a : Aspect) (m : Mask) : Prop where
  present : image.has a = true
  joined : ∃ x, image.Joins scheme a x
  stages : ∀ i, m.toBitVec.getLsbD i = true → ∃ x, image.Joins scheme a x ∧
    (image.histories.get x).owed.stages.toBitVec.getLsbD i = true

/-- A barrier takes in the aspects that join it, and changes their layout. -/
theorem Joins.layout_of_barrier (h : image.Joins scheme a x)
    (hb : b ∈ (image.request scheme needs id endsPass).imageBarriers)
    (ha : b.step.planes.has a = true) :
    b.step.planes.has x = true ∧ ∃ next, image.effect scheme needs x = .layout next := by
  have hx : b.step.planes.has x = true := by
    rcases h.linked with rfl | rfl
    · rw [(barrier_shared hb).2.1]
      exact h.present
    · exact ha
  refine ⟨hx, ?_⟩
  rcases effect_of_mem_barrier hb hx with heffect | ⟨-, -, hundefined⟩
  · exact heffect
  · exact absurd hundefined (Level.isDefined_iff.mp h.defined)

theorem Awaits.src (h : image.Awaits scheme a m) (hsteady : image.Steady)
    (hb : b ∈ (image.request scheme needs id endsPass).imageBarriers)
    (ha : b.step.planes.has a = true) :
    b.dependency.src.stages.contains m = true ∧
      b.dependency.src.stages.contains Stage.fragmentTests = true := by
  have howed : ∀ x, image.Joins scheme a x → ∀ i,
      (image.histories.get x).owed.stages.toBitVec.getLsbD i = true →
        b.dependency.src.stages.toBitVec.getLsbD i = true := by
    intro x hx
    obtain ⟨hplanes, next, heffect⟩ := hx.layout_of_barrier hb ha
    have hcontains := contains_owed_of_layout hb hplanes heffect
    rw [Access.contains, Bool.and_eq_true] at hcontains
    exact Mask.contains_iff.mp hcontains.1
  constructor
  · refine Mask.contains_iff.mpr fun i hi => ?_
    obtain ⟨x, hx, hstage⟩ := h.stages i hi
    exact howed x hx i hstage
  · obtain ⟨x, hx⟩ := h.joined
    have htests := (hsteady x).contains_fragmentTests hx.defined
    exact Mask.contains_iff.mpr fun i hi => howed x hx i (Mask.contains_iff.mp htests i hi)

/-! ### After a barrier -/

section settled

variable (hneeds : ∀ a, (needs.get a).demand ≠ .any → image.has a = true)
  (hkeeps : ∀ a, (image.levels.get a).isDefined = true →
    ((image.settledLevels needs).get a).isDefined = true)

include hneeds in
theorem has_of_layout {next : Access} (h : image.effect scheme needs x = .layout next) :
    image.has x = true := by
  unfold effect at h
  cases hc : (image.changes needs).get x with
  | some c => exact has_of_change hneeds hc
  | none =>
      rw [hc] at h
      simp only at h
      split at h
      · rename_i hcarried
        simp only [isCarried, Bool.and_eq_true] at hcarried
        exact hcarried.1.2
      · exact absurd h (by simp)

include hkeeps in
theorem defined_of_layout {next : Access} (h : image.effect scheme needs x = .layout next) :
    ((image.settledLevels needs).get x).isDefined = true := by
  unfold effect at h
  cases hc : (image.changes needs).get x with
  | some c =>
      have hsettled := get_settledLevels_of_some hc
      cases htarget : c.target.isDefined with
      | true => rw [hsettled, htarget]
      | false =>
          -- the aspect was at another level before, so it was defined
          rw [get_changes] at hc
          have hne := (Need.change?_eq_some hc).2.1
          rw [Level.isDefined_eq_false.mp htarget] at hne
          exact hkeeps x (Level.isDefined_iff.mpr hne.symm)
  | none =>
      rw [hc] at h
      simp only at h
      split at h
      · rename_i hcarried
        simp only [isCarried, Bool.and_eq_true] at hcarried
        exact hkeeps x hcarried.2
      · exact absurd h (by simp)

theorem layout_of_dst_dependency {i : Nat}
    (h : (image.dependency scheme needs x).dst.stages.toBitVec.getLsbD i = true) :
    ∃ next, image.effect scheme needs x = .layout next ∧
      next.stages.toBitVec.getLsbD i = true := by
  unfold dependency at h
  cases heffect : image.effect scheme needs x with
  | layout next =>
      rw [heffect] at h
      exact ⟨next, rfl, h⟩
  | access next =>
      rw [heffect] at h
      exact absurd h (by simp [HistoryEffect.dependency, Dependency.empty, Access.none])
  | forget =>
      rw [heffect] at h
      exact absurd h (by simp [HistoryEffect.dependency, Dependency.empty, Access.none])

theorem stages_owed_of_layout {next : Access} (h : image.effect scheme needs x = .layout next) :
    ((image.settle scheme needs).histories.get x).owed.stages = next.stages := by
  rw [get_histories_settle, h]
  exact History.stages_owed_afterLayout next

include hneeds in
theorem has_of_mem_barrier (hb : b ∈ (image.request scheme needs id endsPass).imageBarriers)
    (ha : b.step.planes.has a = true) : image.has a = true := by
  rcases effect_of_mem_barrier hb ha with ⟨next, heffect⟩ | ⟨rfl, -, -⟩
  · exact has_of_layout hneeds heffect
  · rw [(barrier_shared hb).2.1] at ha
    exact ha

/-- A barrier on an aspect changes the layout of some aspect that every barrier on it takes in. -/
theorem exists_layout_of_barrier
    (hb : b ∈ (image.request scheme needs id endsPass).imageBarriers)
    (ha : b.step.planes.has a = true) :
    ∃ x next, (scheme = .shared ∨ x = a) ∧ image.effect scheme needs x = .layout next := by
  rcases effect_of_mem_barrier hb ha with ⟨next, heffect⟩ | ⟨rfl, hchange, hlevel⟩
  · exact ⟨a, next, .inr rfl, heffect⟩
  · obtain ⟨next, heffect⟩ := effect_other_of_undefined hb hchange hlevel
    exact ⟨a.other, next, .inl rfl, heffect⟩

theorem layout_of_dst_barrier (hb : b ∈ (image.request scheme needs id endsPass).imageBarriers)
    (ha : b.step.planes.has a = true) {i : Nat}
    (hi : b.dependency.dst.stages.toBitVec.getLsbD i = true) :
    ∃ x next, (scheme = .shared ∨ x = a) ∧ image.effect scheme needs x = .layout next ∧
      next.stages.toBitVec.getLsbD i = true := by
  cases scheme with
  | separate =>
      obtain ⟨a', c, -, hstep, hd⟩ := barrier_separate hb
      rw [(LayoutStep.between?_eq_some.mp hstep).2.2, PlaneSet.has_single, decide_eq_true_eq] at ha
      subst ha
      rw [hd] at hi
      obtain ⟨next, hlayout⟩ := layout_of_dst_dependency hi
      exact ⟨a', next, .inr rfl, hlayout⟩
  | shared =>
      have hi : ((image.dependency .shared needs .depth).dst.stages |||
          (image.dependency .shared needs .stencil).dst.stages).toBitVec.getLsbD i = true := by
        rw [(barrier_shared hb).2.2] at hi
        exact hi
      rw [UInt64.toBitVec_or, BitVec.getLsbD_or, Bool.or_eq_true] at hi
      rcases hi with hi | hi
      · obtain ⟨next, hlayout⟩ := layout_of_dst_dependency hi
        exact ⟨.depth, next, .inl rfl, hlayout⟩
      · obtain ⟨next, hlayout⟩ := layout_of_dst_dependency hi
        exact ⟨.stencil, next, .inl rfl, hlayout⟩

include hneeds hkeeps in
/-- After a barrier on an aspect the next one has to wait for what it leads to. -/
theorem awaits_of_barrier (hb : b ∈ (image.request scheme needs id endsPass).imageBarriers)
    (ha : b.step.planes.has a = true) :
    (image.settle scheme needs).Awaits scheme a b.dependency.dst.stages := by
  have hjoins : ∀ {x next}, (scheme = .shared ∨ x = a) →
      image.effect scheme needs x = .layout next →
        (image.settle scheme needs).Joins scheme a x := by
    intro x next hlinked heffect
    have hhas : image.has x = true := has_of_layout hneeds heffect
    exact ⟨hlinked, hhas, defined_of_layout hkeeps heffect⟩
  have hhas : image.has a = true := has_of_mem_barrier hneeds hb ha
  obtain ⟨x, next, hlinked, heffect⟩ := exists_layout_of_barrier hb ha
  refine ⟨hhas, ⟨x, hjoins hlinked heffect⟩, fun i hi => ?_⟩
  obtain ⟨x', next', hlinked', heffect', hnext⟩ := layout_of_dst_barrier hb ha hi
  exact ⟨x', hjoins hlinked' heffect', by rw [stages_owed_of_layout heffect']; exact hnext⟩

/-! ### Without a barrier -/

theorem Joins.quiet (h : image.Joins scheme a x) (hhas : image.has a = true)
    (hquiet : ∀ b ∈ (image.request scheme needs id endsPass).imageBarriers,
      b.step.planes.has a = false) :
    ∀ b ∈ (image.request scheme needs id endsPass).imageBarriers,
      b.step.planes.has x = false := by
  rcases h.linked with rfl | rfl
  · intro b hb
    have hnot := hquiet b hb
    rw [(barrier_shared hb).2.1] at hnot
    exact absurd hhas (by rw [has, hnot]; simp)
  · exact hquiet

include hkeeps in
/-- A defined aspect that no barrier takes in sees nothing but an access in its present layout, if
it is not forgotten. -/
theorem effect_of_quiet (hhas : image.has x = true) (hdef : (image.levels.get x).isDefined = true)
    (hquiet : ∀ b ∈ (image.request scheme needs id endsPass).imageBarriers,
      b.step.planes.has x = false) :
    (image.changes needs).get x = none ∧
      image.effect scheme needs x = .access (needs.get x).access := by
  have hsettled := hkeeps x hdef
  have hnone : (image.changes needs).get x = none := by
    have hpresent : (image.settle scheme needs).has x = true := hhas
    have hknown := believedLayout_ne_undefined hpresent (Level.isDefined_iff.mp hsettled) scheme
    have hwritable := isWritable_of_not_moved id endsPass hhas hquiet hknown
    have hsame := Level.eq_of_isWritable_eq hsettled hdef hwritable
    cases hc : (image.changes needs).get x with
    | none => rfl
    | some c =>
        rw [get_settledLevels_of_some hc] at hsame
        rw [get_changes] at hc
        exact absurd hsame (Need.change?_eq_some hc).2.1
  exact ⟨hnone, by simp [effect, hnone, isCarried_of_quiet hquiet]⟩

include hkeeps in
/-- What is awaited stays awaited as long as there is no barrier and nothing is forgotten. -/
theorem Awaits.settle (h : image.Awaits scheme a m) (hsteady : image.Steady)
    (hof : ∀ a, (needs.get a).OfCommand)
    (hquiet : ∀ b ∈ (image.request scheme needs id endsPass).imageBarriers,
      b.step.planes.has a = false) :
    (image.settle scheme needs).Awaits scheme a m := by
  have hjoins : ∀ x, image.Joins scheme a x → (image.settle scheme needs).Joins scheme a x ∧
      ((image.settle scheme needs).histories.get x).owed.stages =
        (image.histories.get x).owed.stages := by
    intro x hx
    obtain ⟨hnone, heffect⟩ :=
      effect_of_quiet hkeeps hx.present hx.defined (hx.quiet h.present hquiet)
    have hmeets := image.meets_settledLevels needs x
    rw [get_settledLevels_of_none hnone] at hmeets
    refine ⟨⟨hx.linked, hx.present, hkeeps x hx.defined⟩, ?_⟩
    rw [get_histories_settle, heffect]
    exact (hsteady.access (hof x) hmeets).2 hx.defined
  obtain ⟨x, hx⟩ := h.joined
  refine ⟨h.present, ⟨x, (hjoins x hx).1⟩, fun i hi => ?_⟩
  obtain ⟨x', hx', hstage⟩ := h.stages i hi
  obtain ⟨hafter, howed⟩ := hjoins x' hx'
  exact ⟨x', hafter, by rw [howed]; exact hstage⟩

end settled

/-! ### The barriers of a request on an aspect -/

theorem barriersOn_request? (image : TrackedImage) (scheme : LayoutScheme)
    (needs : PerAspect Need) (id : ImageId) (endsPass : Bool) (a : Aspect) :
    Request.barriersOn id a (image.request? scheme needs id endsPass).toList =
      (image.request scheme needs id endsPass).imageBarriers.filter
        fun b => b.step.planes.has a := by
  cases hmoves : image.moves scheme needs with
  | true =>
      have himage : (image.request scheme needs id endsPass).image = id := rfl
      rw [request?_eq_some.mpr ⟨hmoves, rfl⟩, Option.toList_some, Request.barriersOn,
        List.filter_singleton]
      simp only [himage, decide_true, List.flatMap_singleton, cond_true]
  | false =>
      rw [imageBarriers_eq_nil_of_moves_eq_false hmoves, request?, hmoves]
      rfl

theorem barriersOn_request?_cases (image : TrackedImage) (scheme : LayoutScheme)
    (needs : PerAspect Need) (id : ImageId) (endsPass : Bool) (a : Aspect) :
    (Request.barriersOn id a (image.request? scheme needs id endsPass).toList = [] ∧
        ∀ b ∈ (image.request scheme needs id endsPass).imageBarriers,
          b.step.planes.has a = false) ∨
      ∃ b ∈ (image.request scheme needs id endsPass).imageBarriers,
        b.step.planes.has a = true ∧
          Request.barriersOn id a (image.request? scheme needs id endsPass).toList = [b] := by
  have hmem : ∀ b ∈ Request.barriersOn id a (image.request? scheme needs id endsPass).toList,
      b ∈ (image.request scheme needs id endsPass).imageBarriers ∧
        b.step.planes.has a = true := by
    intro b hb
    rw [barriersOn_request?] at hb
    exact List.mem_filter.mp hb
  have hapart := (imageBarriers_apart image scheme needs id endsPass).filter
    fun b => b.step.planes.has a
  rw [← barriersOn_request?] at hapart
  cases hbs : Request.barriersOn id a (image.request? scheme needs id endsPass).toList with
  | nil =>
      refine .inl ⟨rfl, fun b hb => ?_⟩
      rw [barriersOn_request?, List.filter_eq_nil_iff] at hbs
      exact Bool.not_eq_true _ ▸ hbs b hb
  | cons b bs =>
      rw [hbs] at hmem hapart
      obtain ⟨hb, ha⟩ := hmem b List.mem_cons_self
      refine .inr ⟨b, hb, ha, ?_⟩
      cases bs with
      | nil => rfl
      | cons b' bs =>
          have hb' := (hmem b' (List.mem_cons_of_mem b List.mem_cons_self)).2
          have hnot := (List.pairwise_cons.mp hapart).1 b' List.mem_cons_self a ha
          exact absurd hb' (by rw [hnot]; simp)

end TrackedImage

/-! ### Turns -/

namespace Beliefs

/-- Whether an aspect of an image is defined. -/
def isDefined (b : Beliefs) (id : ImageId) (a : Aspect) : Bool :=
  (b id).any fun image => (image.levels.get a).isDefined

/-- Whether the defined aspects of an image are all defined afterwards. -/
def Remembers (b b' : Beliefs) (id : ImageId) : Prop :=
  ∀ a, b.isDefined id a = true → b'.isDefined id a = true

/-- Whether some barriers on an aspect form a chain that the next one continues. -/
structure Chained (b : Beliefs) (scheme : LayoutScheme) (id : ImageId) (a : Aspect)
    (bs : List ImageBarrier) : Prop where
  chain : bs.IsChain ImageBarrier.LeadsTo
  awaited : ∀ last ∈ bs.getLast?, ∃ image, b id = some image ∧
    image.Awaits scheme a last.dependency.dst.stages

variable {policy : Policy} {b b' : Beliefs} {α : Action} {rs : List Request} {id : ImageId}
  {a : Aspect} {bs : List ImageBarrier}

theorem isDefined_of_some {image : TrackedImage} (h : b id = some image) (a : Aspect) :
    b.isDefined id a = (image.levels.get a).isDefined := by
  rw [isDefined, h]
  rfl

theorem Remembers.of_eq (h : b' id = b id) : b.Remembers b' id := by
  intro a ha
  rw [isDefined, h]
  exact ha

theorem Remembers.trans {b'' : Beliefs} (h : b.Remembers b' id) (h' : b'.Remembers b'' id) :
    b.Remembers b'' id := fun a ha => h' a (h a ha)

theorem Chained.congr {scheme : LayoutScheme} (h : b.Chained scheme id a bs)
    (hid : b' id = b id) : b'.Chained scheme id a bs := by
  refine ⟨h.chain, fun last hlast => ?_⟩
  rw [hid]
  exact h.awaited last hlast

/-- Settling an image continues the chain with the barrier that it asks for, if any. -/
theorem Chained.settle {scheme : LayoutScheme} {image : TrackedImage} {needs : PerAspect Need}
    (h : b.Chained scheme id a bs) (hid : b id = some image)
    (hid' : b' id = some (image.settle scheme needs)) (hsteady : image.Steady)
    (hneeds : ∀ a, (needs.get a).demand ≠ .any → image.has a = true)
    (hof : ∀ a, (needs.get a).OfCommand)
    (hkeeps : ∀ a, (image.levels.get a).isDefined = true →
      ((image.settledLevels needs).get a).isDefined = true) (endsPass : Bool) :
    b'.Chained scheme id a
      (bs ++ Request.barriersOn id a (image.request? scheme needs id endsPass).toList) := by
  have hawaits : ∀ last ∈ bs.getLast?, image.Awaits scheme a last.dependency.dst.stages := by
    intro last hlast
    obtain ⟨image', himage', hawaits⟩ := h.awaited last hlast
    obtain rfl := Option.some_inj.mp (hid.symm.trans himage')
    exact hawaits
  rcases image.barriersOn_request?_cases scheme needs id endsPass a with
    ⟨hnil, hquiet⟩ | ⟨barrier, hbarrier, ha, hone⟩
  · rw [hnil, List.append_nil]
    refine ⟨h.chain, fun last hlast => ⟨_, hid', ?_⟩⟩
    exact (hawaits last hlast).settle hkeeps hsteady hof hquiet
  · rw [hone]
    constructor
    · refine h.chain.append (List.isChain_singleton _) fun last hlast first hfirst => ?_
      obtain rfl := Option.some_inj.mp hfirst
      exact (hawaits last hlast).src hsteady hbarrier ha
    · intro last hlast
      rw [List.getLast?_concat] at hlast
      obtain rfl := Option.some_inj.mp hlast
      exact ⟨_, hid', TrackedImage.awaits_of_barrier hneeds hkeeps hbarrier ha⟩

/-- An action that neither overwrites nor forgets anything of an image continues its chain. -/
theorem Turn.chained (h : Turn policy b α rs b') (hsteady : b.All fun _ => TrackedImage.Steady)
    (hc : b.Chained policy.scheme id a bs) (hunregister : α ≠ .unregister id)
    (hseed : ∀ levels, α ≠ .seed id levels) (hremembers : b.Remembers b' id) :
    b'.Chained policy.scheme id a (bs ++ Request.barriersOn id a rs) := by
  cases hid : b id with
  | none =>
      have hother : ∀ r ∈ rs, r.image ≠ id := by
        rintro r hr rfl
        obtain ⟨image, -, hi, -⟩ := h.origin hr
        exact absurd (hid.symm.trans hi) (by simp)
      rw [Request.barriersOn_eq_nil hother, List.append_nil]
      refine ⟨hc.chain, fun last hlast => ?_⟩
      obtain ⟨image, hi, -⟩ := hc.awaited last hlast
      exact absurd (hid.symm.trans hi) (by simp)
  | some image =>
      rcases h.tracked hid hunregister hseed with
        ⟨-, hb', hother⟩ | ⟨x, endsPass, hx, rfl, hb'⟩
      · rw [Request.barriersOn_eq_nil hother, List.append_nil]
        exact hc.congr (hb'.trans hid.symm)
      · refine hc.settle hid hb' (hsteady id image hid) (fun _ => Action.has_of_accepted? hx)
          (x.ofCommand_needs policy) (fun x hx => ?_) endsPass
        have hafter := hremembers x (by rw [isDefined_of_some hid]; exact hx)
        rwa [isDefined_of_some hb'] at hafter

theorem Turn.remembers (h : Turn policy b α rs b') (hunregister : α ≠ .unregister id)
    (hseed : ∀ levels, α ≠ .seed id levels)
    (hraises : ∀ image x, α.accepted? policy id image = some x →
      x.command.isTransition = false) : b.Remembers b' id := by
  cases hid : b id with
  | none =>
      intro a ha
      rw [isDefined, hid] at ha
      exact absurd ha (by simp)
  | some image =>
      rcases h.tracked hid hunregister hseed with ⟨-, hb', -⟩ | ⟨x, endsPass, hx, -, hb'⟩
      · exact .of_eq (hb'.trans hid.symm)
      · intro a ha
        rw [isDefined_of_some hid] at ha
        rw [isDefined_of_some hb']
        exact Level.isDefined_of_le
          (image.le_settledLevels (Command.only_raises (hraises image x hx) _) a) ha

end Beliefs

/-! ### Runs -/

namespace Tracker

variable {t : Tracker} {id : ImageId} {a : Aspect}

/-- Whether some actions neither overwrite nor give up an image, and each of them leaves all its
defined aspects defined. -/
def KeepsActs (id : ImageId) : Tracker → List Action → Prop
  | _, [] => True
  | t, α :: αs =>
    α ≠ .unregister id ∧ (∀ levels, α ≠ .seed id levels) ∧
      t.beliefs.Remembers (t.act α).2.beliefs id ∧ KeepsActs id (t.act α).2 αs

/-- Whether some calls neither overwrite nor give up an image, and each of them leaves all its
defined aspects defined. -/
def Keeps (id : ImageId) : Tracker → List Call → Prop
  | _, [] => True
  | t, call :: calls =>
    call ≠ .unregister id ∧ (∀ levels, call ≠ .seed id levels) ∧
      t.beliefs.Remembers (t.step call).2.beliefs id ∧ Keeps id (t.step call).2 calls

/-- The barriers that some calls ask for on an aspect of an image, in the order in which they are
recorded. -/
def barriersOn (id : ImageId) (a : Aspect) (t : Tracker) (calls : List Call) : List ImageBarrier :=
  Request.barriersOn id a ((t.run calls).flatMap fun result => result.1.requestList)

theorem barriersOn_cons (id : ImageId) (a : Aspect) (t : Tracker) (call : Call)
    (calls : List Call) : barriersOn id a t (call :: calls) =
      Request.barriersOn id a (t.step call).1.requestList ++
        barriersOn id a (t.step call).2 calls := by
  rw [barriersOn, run, List.flatMap_cons, Request.barriersOn_append]
  rfl

/-! #### Calls of several actions -/

theorem keepsActs_clears {id' : ImageId} {aspects : PerAspect Bool} :
    ∀ (rects : List (Option Rect)) (t : Tracker), KeepsActs id t (Action.clears id' aspects rects)
  | [], _ => trivial
  | rect :: rects, t => by
      rw [Action.clears_cons]
      refine ⟨by simp, by simp, ?_, keepsActs_clears rects _⟩
      refine (act_turn t _).2.remembers (by simp) (by simp) fun image x hx => ?_
      obtain ⟨rect', hc⟩ :=
        TrackedImage.command_of_normalize_clear (Action.accepted?_record.mp hx).2.2
      rw [hc]
      rfl

/-- Bringing an image to rest is one action at most, so no aspect is defined again that was
forgotten in between. -/
theorem keepsActs_relax : ∀ {ids : List ImageId} {t : Tracker}, ids.Nodup →
    t.beliefs.Remembers (t.acts (ids.map .relax)).2.beliefs id →
      KeepsActs id t (ids.map .relax)
  | [], _, _, _ => trivial
  | id' :: ids, t, hnodup, h => by
      rw [List.nodup_cons] at hnodup
      rw [List.map_cons, acts] at h
      have hother : id ≠ id' → (t.act (.relax id')).2.beliefs id = t.beliefs id :=
        (act_turn t (.relax id')).2.of_ne_settled? rfl
      refine ⟨by simp, by simp, ?_, keepsActs_relax hnodup.2 ?_⟩
      · by_cases hid : id = id'
        · exact h.trans (.of_eq (beliefs_acts_relax_of_not_mem (hid ▸ hnodup.1)).symm)
        · exact .of_eq (hother hid)
      · by_cases hid : id = id'
        · exact .of_eq (beliefs_acts_relax_of_not_mem (hid ▸ hnodup.1))
        · exact (Beliefs.Remembers.of_eq (hother hid).symm).trans h

theorem keepsActs_actions {call : Call} (hunregister : call ≠ .unregister id)
    (hseed : ∀ levels, call ≠ .seed id levels)
    (h : t.beliefs.Remembers (t.step call).2.beliefs id) :
    KeepsActs id t (t.actions call) := by
  rw [step_snd] at h
  rcases t.actions_cases call with ha | ⟨α, ha⟩ | ⟨id', aspects, rects, ha⟩ | ha
  · rw [ha]
    trivial
  · have hα : α ∈ t.actions call := by rw [ha]; exact List.mem_singleton_self α
    rw [ha, acts_singleton] at h
    rw [ha]
    refine ⟨?_, ?_, h, trivial⟩
    · rintro rfl
      exact hunregister (call_of_mem_actions hα rfl)
    · rintro levels rfl
      exact hseed levels (call_of_mem_actions hα rfl)
  · rw [ha]
    exact keepsActs_clears rects t
  · rw [ha, acts] at h
    rw [ha]
    exact ⟨by simp, by simp, .of_eq (congrFun t.beliefs_closePass id),
      keepsActs_relax (Registry.ids_nodup _) (beliefs_closePass t ▸ h)⟩

/-! #### The chain of a run -/

theorem acts_chained : ∀ {αs : List Action} {t : Tracker} {bs : List ImageBarrier},
    (t.beliefs.All fun _ => TrackedImage.Steady) → t.beliefs.Chained t.policy.scheme id a bs →
      KeepsActs id t αs → (t.acts αs).2.beliefs.Chained t.policy.scheme id a
        (bs ++ Request.barriersOn id a (t.acts αs).1)
  | [], _, _, _, hc, _ => by rwa [acts, Request.barriersOn_nil, List.append_nil]
  | α :: αs, t, bs, hsteady, hc, hkeeps => by
      obtain ⟨hunregister, hseed, hremembers, hkeeps⟩ := hkeeps
      have hturn := (act_turn t α).2
      have hact := hturn.chained hsteady hc hunregister hseed hremembers
      rw [← policy_act t α] at hact
      have hacts := acts_chained (hturn.steady hsteady) hact hkeeps
      rw [policy_act, List.append_assoc, ← Request.barriersOn_append] at hacts
      exact hacts

theorem after_chained : ∀ {calls : List Call} {t : Tracker} {bs : List ImageBarrier},
    (t.beliefs.All fun _ => TrackedImage.Steady) → t.beliefs.Chained t.policy.scheme id a bs →
      Keeps id t calls → (t.after calls).beliefs.Chained t.policy.scheme id a
        (bs ++ barriersOn id a t calls)
  | [], _, bs, _, hc, _ => by
      have hnone : bs ++ [] = bs := List.append_nil bs
      exact hnone.symm ▸ hc
  | call :: calls, t, bs, hsteady, hc, hkeeps => by
      obtain ⟨hunregister, hseed, hremembers, hkeeps⟩ := hkeeps
      have hstep := acts_chained hsteady hc (keepsActs_actions hunregister hseed hremembers)
      rw [← requestList_step, ← step_snd, ← policy_step t call] at hstep
      have hsteady' : (t.step call).2.beliefs.All fun _ => TrackedImage.Steady := by
        rw [step_snd]
        exact acts_preserves (fun hturn => hturn.steady) _ rfl hsteady
      have hafter := after_chained hsteady' hstep hkeeps
      rw [policy_step, List.append_assoc, ← barriersOn_cons] at hafter
      exact hafter

/-- As long as an image is neither overwritten nor given up and no aspect of it is forgotten, each
barrier on an aspect waits for the stages that the barrier before it on that aspect leads to.  It
also waits for the fragment tests, whether the aspect was drawn to or cleared in between or not. -/
theorem barriers_chained {policy : Policy} {earlier calls : List Call} {id : ImageId}
    (h : Keeps id ((empty policy).after earlier) calls) (a : Aspect) :
    (barriersOn id a ((empty policy).after earlier) calls).IsChain ImageBarrier.LeadsTo := by
  have hempty : ((empty policy).after earlier).beliefs.Chained
      ((empty policy).after earlier).policy.scheme id a [] :=
    ⟨List.isChain_nil, fun last hlast => absurd hlast (by simp)⟩
  exact (after_chained (steady_after policy earlier) hempty h).chain

/-- An image that is sampled. -/
def sampledPlanes : Tracker :=
  (empty {}).after
    [.register
      { handle := 0, format := 129, extent := ⟨64, 64⟩, initial := ⟨.readOnly, .readOnly⟩ }]

/-- A draw to the depth aspect of that image, and the end of the recording. -/
def drawAndFinish : List Call := [.record ⟨0, 0⟩ (.draw ⟨⟨true, true⟩, .none⟩), .finish]

theorem keeps_drawAndFinish : Keeps ⟨0, 0⟩ sampledPlanes drawAndFinish := by
  refine ⟨by decide, by simp, fun a => ?_, by decide, by simp, fun a => ?_, trivial⟩
  · cases a <;> decide
  · cases a <;> decide

/-- Both barriers on the stencil aspect, which is carried along with the depth aspect. -/
theorem barriers_chained_drawAndFinish :
    (barriersOn ⟨0, 0⟩ .stencil sampledPlanes drawAndFinish).length = 2 ∧
      (barriersOn ⟨0, 0⟩ .stencil sampledPlanes drawAndFinish).IsChain ImageBarrier.LeadsTo :=
  ⟨by decide, barriers_chained keeps_drawAndFinish .stencil⟩

end Tracker

end DepthStencil
