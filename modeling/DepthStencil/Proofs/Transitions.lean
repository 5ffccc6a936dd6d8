import DepthStencil.Proofs.Identifiers
import DepthStencil.Proofs.Independence

/-! # Transitions of both aspects

The aspects of an image can be moved by one transition or by one each, in either order.  All three
ways come to the same levels and make as many aspects give up writing.  With a shared layout they
may differ in what they wait for, since the first of two transitions carries the other aspect along.
With separate layouts they leave the same histories and ask for the same barriers.

* Needs of both aspects can be met one after the other (`TrackedImage.levels_settle_settle` and
  those after it), because meeting the need of one aspect leaves the other one alone.
* A transition meets its needs between passes (`Tracker.transits_record`), and so does a barrier in
  the terms of Direct3D (`Tracker.transits_resourceBarrier`).
* The two together give `Tracker.transitions_commute`. -/

namespace DepthStencil

theorem Aspect.other_ne (a : Aspect) : a.other ≠ a := by cases a <;> decide

/-! ### One aspect after the other -/

namespace TrackedImage

variable {needs needs₁ needs₂ : PerAspect Need} {a b : Aspect}

theorem NeedsOnly.level_other (h : NeedsOnly a needs needs₁) (image : TrackedImage) (hb : b ≠ a) :
    (image.settledLevels needs₁).get b = image.levels.get b :=
  get_settledLevels_of_none (h.change_other image hb)

theorem NeedsOnly.history_other (h : NeedsOnly a needs needs₁) (image : TrackedImage)
    (hb : b ≠ a) :
    (image.settle .separate needs₁).histories.get b = image.histories.get b := by
  have heffect : image.effect .separate needs₁ b = .access .none := by
    have hcarried : image.isCarried .separate needs₁ b = false := by simp [isCarried]
    rw [effect, h.change_other image hb, h.other b hb]
    simp only [hcarried, Bool.false_eq_true, if_false]
    rfl
  rw [get_histories_settle, heffect, HistoryEffect.apply, History.record, if_pos rfl]

variable (image : TrackedImage) (scheme : LayoutScheme) (h₁ : NeedsOnly a needs needs₁)
  (h₂ : NeedsOnly a.other needs needs₂)

include h₁ h₂

/-- Meeting the need of one aspect and then that of the other one comes to the same levels as
meeting both. -/
theorem levels_settle_settle :
    ((image.settle scheme needs₁).settle scheme needs₂).levels =
      (image.settle scheme needs).levels := by
  apply PerAspect.ext_get
  intro b
  rcases Aspect.eq_or_eq_other a b with rfl | rfl
  · exact (h₂.level_other _ b.other_ne.symm).trans (h₁.level rfl)
  · exact h₂.level (h₁.level_other image a.other_ne)

theorem histories_settle_settle :
    ((image.settle .separate needs₁).settle .separate needs₂).histories =
      (image.settle .separate needs).histories := by
  apply PerAspect.ext_get
  intro b
  rcases Aspect.eq_or_eq_other a b with rfl | rfl
  · exact (h₂.history_other _ b.other_ne.symm).trans (h₁.history rfl rfl)
  · exact h₂.history (h₁.level_other image a.other_ne) (h₁.history_other image a.other_ne)

theorem decays_settle_settle :
    image.decays needs₁ + (image.settle scheme needs₁).decays needs₂ = image.decays needs := by
  rw [h₁.decays rfl, h₂.decays (h₁.level_other image a.other_ne), TrackedImage.decays,
    PerAspect.count_eq]
  cases a with
  | depth => rfl
  | stencil => exact Nat.add_comm _ _

/-- The barriers for two aspects come in the order in which the aspects are named. -/
theorem barriers_settle_settle :
    (image.barriers .separate needs₁ ++
        (image.settle .separate needs₁).barriers .separate needs₂).Perm
      (image.barriers .separate needs) := by
  rw [h₁.barriers rfl rfl rfl, h₂.barriers (h₁.level_other image a.other_ne)
    (h₁.history_other image a.other_ne) rfl, barriers_separate]
  have hall : Aspect.all.filterMap (image.barrierOf? needs) =
      (image.barrierOf? needs .depth).toList ++ (image.barrierOf? needs .stencil).toList := by
    rw [Aspect.all]
    cases hd : image.barrierOf? needs .depth <;> cases hs : image.barrierOf? needs .stencil <;>
      simp [hd, hs]
  rw [hall]
  cases a with
  | depth => exact List.Perm.refl _
  | stencil => exact List.perm_append_comm

end TrackedImage

theorem Command.needsOnly_transition (targets : PerAspect (Option Level)) (a : Aspect) :
    TrackedImage.NeedsOnly a ((transition targets).needs false)
      (((transition targets).only a).needs false) := by
  constructor
  · rw [only, get_needs_transition, get_needs_transition, PerAspect.get_ofFn, if_pos rfl]
  · intro b hb
    rw [only, get_needs_transition, PerAspect.get_ofFn, if_neg hb]
    rfl

theorem TrackedImage.settledLevels_transition (image : TrackedImage) (levels : PerAspect Level) :
    image.settledLevels ((Command.transition (levels.map some)).needs false) = levels := by
  apply PerAspect.ext_get
  intro a
  have hmeets := image.meets_settledLevels ((Command.transition (levels.map some)).needs false) a
  rw [Command.get_needs_transition, PerAspect.get_map] at hmeets
  exact hmeets

/-! ### Calls that move aspects -/

namespace Tracker

/-- What it comes to that a call moves an image to levels that meet some needs, between passes. -/
structure Transits (t : Tracker) (id : ImageId) (image : TrackedImage) (needs : PerAspect Need)
    (call : Call) : Prop where
  recorded : ∃ request?, (t.step call).1 = .recorded request?
  settled : (t.step call).2.beliefs id = some (image.settle t.policy.scheme needs)
  closed : (t.step call).2.pass? = none
  decays : (t.step call).2.stats.decays = t.stats.decays + image.decays needs
  barriers : (t.step call).1.requestList.flatMap Request.imageBarriers =
    image.barriers t.policy.scheme needs

variable {t : Tracker} {id : ImageId} {image : TrackedImage} {needs needs₁ needs₂ : PerAspect Need}
  {call call' : Call}

theorem Transits.of_step_eq (h : Transits t id image needs call)
    (hstep : t.step call' = t.step call) : Transits t id image needs call' := by
  refine ⟨?_, ?_, ?_, ?_, ?_⟩ <;> rw [hstep]
  · exact h.recorded
  · exact h.settled
  · exact h.closed
  · exact h.decays
  · exact h.barriers

theorem transits_record {targets : PerAspect (Option Level)} (hb : t.beliefs id = some image)
    (hnamed : ∀ a, (targets.get a).isSome = true → image.has a = true) :
    Transits t id image ((Command.transition targets).needs false)
      (.record id (.transition targets)) := by
  have hm : image.missing? (.transition targets) = none := by
    refine TrackedImage.missing?_eq_none fun a ha => hnamed a ?_
    rw [Command.named, PerAspect.get_map] at ha
    exact ha
  have hneeds : (Action.record id (.transition targets)).needs t.policy id image =
      (Command.transition targets).needs false := TrackedImage.needs_record hm
  have hact : t.acts (t.actions (.record id (.transition targets))) =
      t.act (.record id (.transition targets)) := acts_singleton t _
  obtain ⟨hbarriers, hbeliefs⟩ := t.act_settles (α := .record id (.transition targets)) rfl hb
  have hdecays := decays_act_of_beliefs (.record id (.transition targets)) rfl hb
  rw [hneeds] at hbarriers hbeliefs hdecays
  obtain ⟨image', hi, rfl⟩ := exists_image?_of_beliefs hb
  have hrecord := record_transition hi hm
  refine ⟨⟨(t.recordTransition id image' ((Command.transition targets).needs false)).1, ?_⟩,
    ?_, ?_, ?_, ?_⟩
  · rw [step, hrecord]
    rfl
  · rw [step_snd, hact, hbeliefs, Function.update_self]
  · rw [step, hrecord]
    exact pass?_closePass t
  · rw [step_snd, hact]
    exact hdecays
  · rw [requestList_step, hact]
    exact hbarriers

/-- A barrier in the terms of Direct3D is a transition of the aspects that its subresource speaks
of. -/
theorem transits_resourceBarrier {states : ResourceStates} {level : Level} {subresource : UInt32}
    {aspects : PerAspect Bool} (hb : t.beliefs id = some image) (hl : states.level? = some level)
    (haspects : t.subresourceAspects id subresource = .ok aspects)
    (hhas : ∀ a, aspects.get a = true → image.has a = true) :
    Transits t id image
      ((Command.transition (aspects.map fun marked => if marked then some level else none)).needs
        false)
      (.resourceBarrier id subresource states) := by
  refine (transits_record hb fun a ha => hhas a ?_).of_step_eq ?_
  · rw [PerAspect.get_map, Option.isSome_ite] at ha
    exact ha
  · rw [step, step, resourceBarrier]
    simp only [hl, haspects]

theorem transits_resourceBarrier_all {states : ResourceStates} {level : Level}
    (hb : t.beliefs id = some image) (hl : states.level? = some level)
    (hhas : ∀ a, image.has a = true) :
    Transits t id image ((Command.transition ((PerAspect.both level).map some)).needs false)
      (.resourceBarrier id Subresource.all states) := by
  obtain ⟨image', hi, rfl⟩ := exists_image?_of_beliefs hb
  have haspects : t.subresourceAspects id Subresource.all = .ok image'.planeSet.presence := by
    rw [subresourceAspects, lookup_eq_ok.mpr hi]
    exact if_pos rfl
  have hall : image'.planeSet.presence.map (fun marked => if marked then some level else none) =
      (PerAspect.both level).map some := by
    apply PerAspect.ext_get
    intro a
    rw [PerAspect.get_map, PlaneSet.presence, PerAspect.get_ofFn, PerAspect.get_map,
      PerAspect.get_both]
    exact if_pos (hhas a)
  have hbarrier := transits_resourceBarrier hb hl haspects fun a _ => hhas a
  rw [hall] at hbarrier
  exact hbarrier

/-- A barrier on another subresource is a transition of the aspect that it belongs to. -/
theorem transits_resourceBarrier_plane {states : ResourceStates} {level : Level}
    {subresource : UInt32} {a : Aspect} (hb : t.beliefs id = some image)
    (hl : states.level? = some level) (hall : subresource ≠ Subresource.all)
    (ha : image.subresourceAspect? subresource = some a) :
    Transits t id image
      (((Command.transition ((PerAspect.both level).map some)).only a).needs false)
      (.resourceBarrier id subresource states) := by
  obtain ⟨image', hi, rfl⟩ := exists_image?_of_beliefs hb
  have ha' : image'.subresourceAspect? subresource = some a := ha
  have haspects : t.subresourceAspects id subresource = .ok (.ofFn fun b => b = a) := by
    rw [subresourceAspects, lookup_eq_ok.mpr hi]
    simp only [if_neg hall, ha']
  have hone : Command.transition ((PerAspect.ofFn fun b => decide (b = a)).map
      fun marked => if marked then some level else none) =
        (Command.transition ((PerAspect.both level).map some)).only a := by
    cases a <;> rfl
  have hbarrier := transits_resourceBarrier hb hl haspects fun b hb => by
    rw [PerAspect.get_ofFn, decide_eq_true_eq] at hb
    rw [hb]
    exact has_of_subresourceAspect? ha
  rw [hone] at hbarrier
  exact hbarrier

/-! ### Runs that move both aspects -/

/-- The ways to move the aspects of an image: at once, or one after the other. -/
def orders (whole : Call) (part : Aspect → Call) : List (List Call) :=
  [[whole], [part .depth, part .stencil], [part .stencil, part .depth]]

/-- Whether calls bring an image from some levels to others without being rejected.  The pass ends,
and the aspects that give up writing are counted.  With separate layouts the calls leave the given
histories and ask for the given barriers, in some order. -/
structure Brings (t : Tracker) (id : ImageId) (before levels : PerAspect Level)
    (histories : PerAspect History) (barriers : List ImageBarrier) (calls : List Call) : Prop where
  recorded : ∀ result ∈ t.run calls, ∃ request?, result.1 = .recorded request?
  settled : ∃ image, (t.after calls).image? id = some image ∧ image.levels = levels ∧
    (t.policy.scheme = .separate → image.histories = histories)
  closed : (t.after calls).pass? = none
  decays : (t.after calls).stats.decays =
    t.stats.decays + Aspect.all.countP fun a => (before.get a).relaxes (levels.get a)
  barriers : t.policy.scheme = .separate → (t.barriers calls).Perm barriers

theorem barriers_nil (t : Tracker) : t.barriers [] = [] := rfl

theorem brings_whole (h : Transits t id image needs call) :
    t.Brings id image.levels (image.settledLevels needs)
      (image.settle .separate needs).histories (image.barriers .separate needs) [call] := by
  obtain ⟨image', hi, he⟩ := exists_image?_of_beliefs h.settled
  refine ⟨?_, ⟨image', hi, ?_, fun hscheme => ?_⟩, h.closed, ?_, fun hscheme => ?_⟩
  · rw [run, run, List.forall_mem_singleton]
    exact h.recorded
  · have hlevels := congrArg TrackedImage.levels he
    exact hlevels
  · have hhistories := congrArg TrackedImage.histories he
    rw [hscheme] at hhistories
    exact hhistories
  · rw [List.countP_eq_length_filter, ← image.decays_eq]
    exact h.decays
  · rw [barriers_cons, barriers_nil, List.append_nil, h.barriers, hscheme]

theorem brings_parts {a : Aspect} (hneeds₁ : TrackedImage.NeedsOnly a needs needs₁)
    (hneeds₂ : TrackedImage.NeedsOnly a.other needs needs₂) (h₁ : Transits t id image needs₁ call)
    (h₂ : Transits (t.step call).2 id (image.settle t.policy.scheme needs₁) needs₂ call') :
    t.Brings id image.levels (image.settledLevels needs)
      (image.settle .separate needs).histories (image.barriers .separate needs) [call, call'] := by
  obtain ⟨image', hi, he⟩ := exists_image?_of_beliefs h₂.settled
  have hdecays := h₂.decays
  have hbarriers := h₂.barriers
  rw [policy_step] at he hbarriers
  refine ⟨?_, ⟨image', hi, ?_, fun hscheme => ?_⟩, h₂.closed, ?_, fun hscheme => ?_⟩
  · rw [run, run, run, List.forall_mem_cons, List.forall_mem_singleton]
    exact ⟨h₁.recorded, h₂.recorded⟩
  · have hlevels := image.levels_settle_settle t.policy.scheme hneeds₁ hneeds₂
    rw [← he] at hlevels
    exact hlevels
  · have hhistories := image.histories_settle_settle hneeds₁ hneeds₂
    rw [← hscheme, ← he] at hhistories
    rw [← hscheme]
    exact hhistories
  · rw [List.countP_eq_length_filter, ← image.decays_eq,
      ← image.decays_settle_settle t.policy.scheme hneeds₁ hneeds₂, ← Nat.add_assoc, ← h₁.decays]
    exact hdecays
  · rw [barriers_cons, barriers_cons, barriers_nil, List.append_nil, h₁.barriers, hbarriers,
      hscheme]
    exact image.barriers_settle_settle hneeds₁ hneeds₂

/-- Calls that move both aspects and single ones bring an image to the same levels in any order, if
the calls on single aspects keep working once the other aspect is moved. -/
theorem brings_orders {whole : Call} {part : Aspect → Call} {needsOf : Aspect → PerAspect Need}
    (hb : t.beliefs id = some image) (hneeds : ∀ a, TrackedImage.NeedsOnly a needs (needsOf a))
    (hwhole : Transits t id image needs whole)
    (hpart : ∀ a (u : Tracker) image', u.beliefs id = some image' → image'.blank = image.blank →
      Transits u id image' (needsOf a) (part a)) :
    ∀ calls ∈ orders whole part,
      t.Brings id image.levels (image.settledLevels needs)
        (image.settle .separate needs).histories (image.barriers .separate needs) calls := by
  have hparts : ∀ a, t.Brings id image.levels (image.settledLevels needs)
      (image.settle .separate needs).histories (image.barriers .separate needs)
      [part a, part a.other] := by
    intro a
    have hfirst := hpart a t image hb rfl
    exact brings_parts (hneeds a) (hneeds a.other) hfirst (hpart a.other _ _ hfirst.settled rfl)
  intro calls hcalls
  rw [orders, List.mem_cons, List.mem_cons, List.mem_singleton] at hcalls
  rcases hcalls with rfl | rfl | rfl
  · exact brings_whole hwhole
  · exact hparts .depth
  · exact hparts .stencil

section both

variable (hi : t.image? id = some image) (hboth : image.planeSet = .depthStencil)

include hboth in
theorem has_of_blank {image' : TrackedImage} (h : image'.blank = image.blank) (a : Aspect) :
    image'.has a = true := by
  have hplanes : image'.planeSet = image.planeSet := (congrArg TrackedImage.planeSet h :)
  rw [TrackedImage.has, hplanes, hboth]
  rfl

include hi hboth

theorem brings_transitions (levels : PerAspect Level) : ∃ histories barriers,
    ∀ calls ∈ orders (.record id (.transition (levels.map some)))
        (fun a => .record id ((Command.transition (levels.map some)).only a)),
      t.Brings id image.levels levels histories barriers calls := by
  have hb := beliefs_of_image? hi
  have horders := brings_orders hb (Command.needsOnly_transition (levels.map some))
    (transits_record hb fun a _ => has_of_blank hboth rfl a)
    fun a u image' hb' h => transits_record hb' fun b _ => has_of_blank hboth h b
  rw [image.endPass.settledLevels_transition] at horders
  exact ⟨_, _, horders⟩

theorem brings_resourceBarriers {states : ResourceStates} {level : Level}
    {subresource : Aspect → UInt32} (hl : states.level? = some level)
    (hplane : ∀ a, subresource a ≠ Subresource.all ∧
      image.subresourceAspect? (subresource a) = some a) : ∃ histories barriers,
    ∀ calls ∈ orders (.resourceBarrier id Subresource.all states)
        (fun a => .resourceBarrier id (subresource a) states),
      t.Brings id image.levels (.both level) histories barriers calls := by
  have hb := beliefs_of_image? hi
  have horders := brings_orders hb
    (Command.needsOnly_transition ((PerAspect.both level).map some))
    (transits_resourceBarrier_all hb hl fun a => has_of_blank hboth rfl a)
    fun a u image' hb' h => transits_resourceBarrier_plane hb' hl (hplane a).1
      ((congrArg (fun i => i.subresourceAspect? (subresource a)) h :).trans (hplane a).2)
  rw [image.endPass.settledLevels_transition] at horders
  exact ⟨_, _, horders⟩

end both

/-- Transitions of the two aspects of an image commute.  One transition of both aspects and the
parts of it that name one aspect each, in either order, come to the same levels, end the pass, and
make as many aspects give up writing.  With separate layouts they leave the same histories and ask
for the same barriers.

Hence a barrier on all subresources comes to the same as one on each plane, in either order, and if
it is rejected for its states so are they. -/
theorem transitions_commute (hi : t.image? id = some image)
    (hboth : image.planeSet = .depthStencil) :
    (∀ d s : Level, ∃ histories barriers,
      ∀ calls ∈ orders (.record id (.transition ⟨some d, some s⟩))
          (fun a => .record id ((Command.transition ⟨some d, some s⟩).only a)),
        t.Brings id image.levels ⟨d, s⟩ histories barriers calls) ∧
    (∀ (states : ResourceStates) (level : Level) (subresource : Aspect → UInt32),
      states.level? = some level →
      (∀ a, subresource a ≠ Subresource.all ∧
        image.subresourceAspect? (subresource a) = some a) →
      ∃ histories barriers,
        ∀ calls ∈ orders (.resourceBarrier id Subresource.all states)
            (fun a => .resourceBarrier id (subresource a) states),
          t.Brings id image.levels (.both level) histories barriers calls) ∧
    ∀ (states : ResourceStates) (subresource : UInt32), states.level? = none →
      t.step (.resourceBarrier id subresource states) =
        (.rejected (.unsupportedStates states), t) := by
  refine ⟨fun d s => brings_transitions hi hboth ⟨d, s⟩,
    fun states level subresource hl hplane => brings_resourceBarriers hi hboth hl hplane, ?_⟩
  intro states subresource hl
  rw [step, resourceBarrier, hl]
  rfl

/-- A recording with separate layouts in which a pass is open that writes both aspects. -/
def drawnPlanes : Tracker :=
  (empty { scheme := .separate }).after
    (session packed [.record (.draw ⟨⟨true, true⟩, ⟨true, true⟩⟩)])

theorem transitions_commute_drawnPlanes :
    ∃ image, drawnPlanes.image? .first = some image ∧ image.planeSet = .depthStencil ∧
      (∃ histories barriers,
        ∀ calls ∈ orders (.record .first (.transition ⟨some .readOnly, some .undefined⟩))
            (fun a => .record .first
              ((Command.transition ⟨some .readOnly, some .undefined⟩).only a)),
          drawnPlanes.Brings .first image.levels ⟨.readOnly, .undefined⟩ histories barriers
            calls) ∧
      (∃ histories barriers,
        ∀ calls ∈ orders (.resourceBarrier .first Subresource.all ResourceStates.pixelShader)
            (fun a => .resourceBarrier .first (if a = .depth then 0 else 1)
              ResourceStates.pixelShader),
          drawnPlanes.Brings .first image.levels (.both .readOnly) histories barriers calls) ∧
      drawnPlanes.step (.resourceBarrier .first 0 0x30) =
        (.rejected (.unsupportedStates 0x30), drawnPlanes) := by
  have htracked : (drawnPlanes.image? .first).isSome = true := by decide
  have hboth : (drawnPlanes.image? .first).all fun image => image.planeSet = .depthStencil := by
    decide
  have hplanes : ∀ a : Aspect, (drawnPlanes.image? .first).all fun image =>
      image.subresourceAspect? (if a = .depth then 0 else 1) = some a := by
    intro a
    cases a <;> decide
  obtain ⟨image, hi⟩ := Option.isSome_iff_exists.mp htracked
  simp only [hi, Option.all_some, decide_eq_true_eq] at hboth hplanes
  obtain ⟨htransitions, hbarriers, hunsupported⟩ := transitions_commute hi hboth
  refine ⟨image, hi, hboth, htransitions .readOnly .undefined, ?_,
    hunsupported 0x30 0 (by decide)⟩
  exact hbarriers ResourceStates.pixelShader .readOnly _ (by decide)
    fun a => ⟨by cases a <;> decide, hplanes a⟩

end Tracker

end DepthStencil
