import DepthStencil.Proofs.Commitments
import DepthStencil.Proofs.Passes

/-! # A tracker with a single image

An action that works on an image settles it for some needs (`Action.needs`), if only for none at
all.  The layouts that move, the aspects that give up writing and what is believed afterwards all
follow from the image and those needs, whatever pass is open (`Tracker.act_settles`,
`Tracker.decays_act`).

A tracker with a single image is therefore nothing but that image.  `ImageCall` lists what a caller
does to it, and `Tracker.step_tracks` says what each call comes to. -/

namespace DepthStencil

/-! ### Aspects that give up writing -/

namespace TrackedImage

variable (image : TrackedImage) (scheme : LayoutScheme) (needs : PerAspect Need)

/-- The number of aspects that give up writing when the needs are met. -/
def decays : Nat := (image.changes needs).count fun c => c.any Change.relaxes

/-- The aspects that give up writing are those whose levels say so. -/
theorem decays_eq :
    image.decays needs = (Aspect.all.filter fun a =>
      (image.levels.get a).relaxes ((image.settledLevels needs).get a)).length := by
  rw [decays, PerAspect.count, List.countP_eq_length_filter]
  congr 2
  funext a
  cases hc : (image.changes needs).get a with
  | none =>
      rw [get_settledLevels_of_none hc, Level.relaxes_eq_false_of_le (Level.le_refl _)]
      rfl
  | some c =>
      rw [get_settledLevels_of_some hc, Option.any_some, Change.relaxes]
      rw [get_changes] at hc
      rw [(Need.change?_eq_some hc).1]

variable {needs}

theorem decays_eq_zero (h : ∀ a, (needs.get a).demand.OnlyRaises) : image.decays needs = 0 := by
  have hkeeps : ∀ a, ((image.changes needs).get a).any Change.relaxes = false := by
    intro a
    rw [get_changes]
    cases hc : (needs.get a).change? (image.levels.get a) with
    | none => rfl
    | some c =>
        obtain ⟨hsource, -, hresolve, -⟩ := Need.change?_eq_some hc
        rw [Option.any_some, Change.relaxes, hsource]
        exact Level.relaxes_eq_false_of_le ((h a).le_of_resolve hresolve)
  rw [decays, PerAspect.count_eq, hkeeps, hkeeps]
  rfl

end TrackedImage

namespace Tracker

variable {t t' : Tracker} {id : ImageId} {image : TrackedImage} {x : Accepted}
  {request? : Option Request}

@[simp] theorem decays_settle (t : Tracker) (id : ImageId) (image : TrackedImage)
    (needs : PerAspect Need) (endsPass : Bool) :
    (t.settle id image needs endsPass).2.stats.decays = t.stats.decays := by
  have hcount : ∀ request?, (t.stats.countRequest request?).decays = t.stats.decays := by
    intro request?
    cases request? <;> rfl
  exact hcount _

@[simp] theorem decays_enterPass (t : Tracker) (id : ImageId) (placement : Placement)
    (levels : PerAspect Level) (writes : PerAspect Bool) :
    (t.enterPass id placement levels writes).stats.decays = t.stats.decays := by
  cases placement <;> rfl

theorem decays_countDecays (t : Tracker) (image : TrackedImage) (needs : PerAspect Need) :
    (t.countDecays (image.changes needs)).stats.decays =
      t.stats.decays + image.decays needs := rfl

/-- Only transitions make aspects give up writing, and those are counted. -/
theorem Records.decays (h : Records t id image x request? t') :
    t'.stats.decays = t.stats.decays + image.decays (x.needs t.policy) := by
  have hzero : x.command.isTransition = false → image.decays (x.needs t.policy) = 0 :=
    fun hx => image.decays_eq_zero fun a => Command.only_raises hx _ a
  cases h with
  | folds hrendering => simp [hzero (Command.isTransition_of_isRendering hrendering)]
  | begins hrendering => simp [hzero (Command.isTransition_of_isRendering hrendering)]
  | ends => rw [decays_countDecays, decays_settle, stats_closePass]
  | drops hdiscard => simp [hzero (by rw [hdiscard]; rfl)]
  | stays hdiscard => simp [hzero (by rw [hdiscard]; rfl)]

end Tracker

/-! ### Needs of actions -/

/-- What an action needs of the aspects of an image, which is nothing if it does not settle it. -/
def Action.needs (α : Action) (policy : Policy) (id : ImageId) (image : TrackedImage) :
    PerAspect Need :=
  (α.accepted? policy id image).elim (.both .none) fun x => x.needs policy

namespace TrackedImage

theorem moves_none (image : TrackedImage) (scheme : LayoutScheme) :
    image.moves scheme (.both .none) = false :=
  moves_of_meets fun a => by rw [PerAspect.get_both]; trivial

theorem settle_none (image : TrackedImage) (scheme : LayoutScheme) :
    image.settle scheme (.both .none) = image := by
  refine settle_of_meets (fun a => ?_) fun a => ?_
  · rw [PerAspect.get_both]
    trivial
  · rw [PerAspect.get_both]
    rfl

theorem decays_none (image : TrackedImage) : image.decays (.both .none) = 0 :=
  image.decays_eq_zero fun a => by rw [PerAspect.get_both]; trivial

/-- The barriers that meet the needs.  They name the image by its handle only. -/
def barriers (image : TrackedImage) (scheme : LayoutScheme) (needs : PerAspect Need) :
    List ImageBarrier := (image.request scheme needs ⟨0, 0⟩ false).imageBarriers

theorem barriers_request? (image : TrackedImage) (scheme : LayoutScheme) (needs : PerAspect Need)
    (id : ImageId) (endsPass : Bool) :
    (image.request? scheme needs id endsPass).toList.flatMap Request.imageBarriers =
      image.barriers scheme needs := by
  cases hm : image.moves scheme needs with
  | true =>
      rw [request?_eq_some.mpr ⟨hm, rfl⟩, Option.toList_some, List.flatMap_singleton]
      rfl
  | false =>
      rw [barriers, imageBarriers_eq_nil_of_moves_eq_false hm, request?, hm]
      rfl

theorem barriers_none (image : TrackedImage) (scheme : LayoutScheme) :
    image.barriers scheme (.both .none) = [] :=
  imageBarriers_eq_nil_of_moves_eq_false (image.moves_none scheme) _ _

end TrackedImage

namespace Tracker

variable {t : Tracker} {id : ImageId} {image : TrackedImage} {α : Action}

/-- An action that may settle an image settles it for its needs. -/
theorem act_settles (hα : α.settled? = some id) (hb : t.beliefs id = some image) :
    (t.act α).1.flatMap Request.imageBarriers =
        image.barriers t.policy.scheme (α.needs t.policy id image) ∧
      (t.act α).2.beliefs = Function.update t.beliefs id
        (some (image.settle t.policy.scheme (α.needs t.policy id image))) := by
  rcases act_of_settled? α hα hb with ⟨hx, hr, hb'⟩ | ⟨x, endsPass, hx, hr, hb'⟩
  · rw [Action.needs, hx, Option.elim_none, image.settle_none, image.barriers_none, ← hb,
      Function.update_eq_self, hr]
    exact ⟨rfl, hb'⟩
  · rw [Action.needs, hx, Option.elim_some, hr, TrackedImage.barriers_request?]
    exact ⟨rfl, hb'⟩

theorem decays_act (hα : α.settled? = some id) (hi : t.image? id = some image) :
    (t.act α).2.stats.decays =
      t.stats.decays + image.decays (α.needs t.policy id image) := by
  cases α with
  | record id' command =>
      obtain rfl := Option.some_inj.mp hα
      rw [act, Action.needs, Action.accepted?, if_pos rfl]
      rcases t.record_cases id' command with
        ⟨e, ha, he⟩ | ⟨image', hi', ha, he⟩ | ⟨image', x, request?, t', hi', ha, hrecords, he⟩
      · rw [he, ha image hi]
        exact (congrArg (t.stats.decays + ·) (TrackedImage.decays_none _)).symm
      · obtain rfl := Option.some_inj.mp (hi'.symm.trans hi)
        rw [he, ha]
        exact (congrArg (t.stats.decays + ·) (TrackedImage.decays_none _)).symm
      · obtain rfl := Option.some_inj.mp (hi'.symm.trans hi)
        rw [he, ha]
        exact hrecords.decays
  | relax id' =>
      obtain rfl := Option.some_inj.mp hα
      rw [act, Action.needs, Action.accepted?, if_pos rfl]
      rcases t.relax_cases id' with ⟨hrelax, hnone⟩ | ⟨image', targets, hi', ht, hrelax⟩
      · rw [hrelax, hnone image hi]
        exact (congrArg (t.stats.decays + ·) (TrackedImage.decays_none _)).symm
      · obtain rfl := Option.some_inj.mp (hi'.symm.trans hi)
        rw [hrelax, ht, Option.map_some, Option.elim_some, decays_countDecays, decays_settle]
        rfl
  | register info => exact absurd hα (by simp [Action.settled?])
  | unregister id' => exact absurd hα (by simp [Action.settled?])
  | seed id' levels => exact absurd hα (by simp [Action.settled?])
  | closePass => exact absurd hα (by simp [Action.settled?])

theorem decays_act_of_beliefs (α : Action) (hα : α.settled? = some id)
    (hb : t.beliefs id = some image) :
    (t.act α).2.stats.decays = t.stats.decays + image.decays (α.needs t.policy id image) := by
  obtain ⟨image', hi, rfl⟩ := exists_image?_of_beliefs hb
  have hdecays := decays_act hα hi
  exact hdecays

end Tracker

/-! ### Trackers with a single image -/

/-- The identifier of the first image that a tracker is given. -/
def ImageId.first : ImageId := ⟨0, 0⟩

/-- Whether a tracker has a policy and tracks an image, as its first one and no other. -/
structure Tracker.Tracks (t : Tracker) (policy : Policy) (image : TrackedImage) : Prop where
  policy : t.policy = policy
  beliefs : t.beliefs = Function.update (fun _ => none) .first (some image)

namespace Tracker

variable {t : Tracker} {policy : Policy} {image : TrackedImage}

theorem Tracks.beliefs_first (h : t.Tracks policy image) : t.beliefs .first = some image := by
  rw [h.beliefs, Function.update_self]

theorem Tracks.of_update {t' : Tracker} {image' : TrackedImage} (h : t.Tracks policy image)
    (hpolicy : t'.policy = t.policy)
    (hb : t'.beliefs = Function.update t.beliefs .first (some image')) :
    t'.Tracks policy image' :=
  ⟨hpolicy.trans h.policy, by rw [hb, h.beliefs, Function.update_idem]⟩

theorem tracks_closePass (h : t.Tracks policy image) : t.closePass.Tracks policy image :=
  ⟨(policy_closePass t).trans h.policy, (beliefs_closePass t).trans h.beliefs⟩

theorem ids_of_tracks (h : t.Tracks policy image) : t.registry.ids = [.first] := by
  have hmem : ∀ id, id ∈ t.registry.ids ↔ id ∈ [ImageId.first] := by
    intro id
    have hcontains : t.registry.contains id = (t.beliefs id).isSome :=
      (Option.isSome_map ..).symm
    rw [Registry.mem_ids, hcontains, h.beliefs, List.mem_singleton]
    by_cases hid : id = .first
    · rw [hid, Function.update_self]
      simp
    · rw [Function.update_of_ne hid]
      simp [hid]
  have hperm := List.perm_ext_iff_of_nodup t.registry.ids_nodup (List.pairwise_singleton _ .first)
  exact List.perm_singleton.mp (hperm.mpr hmem)

theorem tracks_register (policy : Policy) {info : Registration} {format : Format}
    (h : Format.ofCode? info.format = some format) :
    ((empty policy).register info).2.Tracks policy (.ofRegistration info format) := by
  obtain ⟨registry, hregistry⟩ := (empty policy).exists_register_eq info
  refine ⟨by rw [hregistry]; rfl, ?_⟩
  have hempty : (empty policy).beliefs = fun _ => none := funext (beliefs_empty policy)
  rw [(beliefs_register h).2.2, hempty]
  rfl

end Tracker

/-! ### Calls on a single image -/

/-- What a caller does to the one image of a tracker. -/
inductive ImageCall where
  | seed (levels : PerAspect Level)
  | record (command : Command)
  | finish
deriving DecidableEq, Repr

namespace ImageCall

/-- The call on the tracker. -/
def toCall : ImageCall → Call
  | seed levels => .seed .first levels
  | record command => .record .first command
  | finish => .finish

/-- The image as it is settled by the call, which overwrites the levels if it says so. -/
def entered (image : TrackedImage) : ImageCall → TrackedImage
  | seed levels => image.seed levels
  | record _ | finish => image

/-- What the call needs of each aspect. -/
def needs (policy : Policy) (image : TrackedImage) : ImageCall → PerAspect Need
  | seed _ => .both .none
  | record command => (Action.record .first command).needs policy .first image
  | finish => (Action.relax .first).needs policy .first image

end ImageCall

namespace Tracker

variable {t t' : Tracker} {policy : Policy} {image : TrackedImage}

/-- What it comes to that a tracker with a single image settles it for some needs. -/
structure Turns (policy : Policy) (t : Tracker) (image : TrackedImage) (needs : PerAspect Need)
    (rs : List Request) (t' : Tracker) : Prop where
  tracks : t'.Tracks policy (image.settle policy.scheme needs)
  decays : t'.stats.decays = t.stats.decays + image.decays needs
  barriers : rs.flatMap Request.imageBarriers = image.barriers policy.scheme needs

theorem turns_act (h : t.Tracks policy image) (α : Action) (hα : α.settled? = some .first) :
    Turns policy t image (α.needs policy .first image) (t.act α).1 (t.act α).2 := by
  obtain ⟨hbarriers, hb⟩ := act_settles hα h.beliefs_first
  have hdecays := decays_act_of_beliefs α hα h.beliefs_first
  rw [h.policy] at hbarriers hb hdecays
  exact ⟨h.of_update (policy_act t α) hb, hdecays, hbarriers⟩

theorem turns_seed (h : t.Tracks policy image) (levels : PerAspect Level) :
    Turns policy t (image.seed levels) (.both .none) [] (t.seed .first levels).2 := by
  have ho := t.overwrites_seed .first levels
  refine ⟨?_, ?_, ?_⟩
  · rw [TrackedImage.settle_none]
    exact h.of_update ho.policy (beliefs_seed h.beliefs_first levels).2
  · rw [ho.stats, TrackedImage.decays_none]
    rfl
  · rw [TrackedImage.barriers_none]
    rfl

/-- A tracker with a single image is nothing but that image, whatever passes are begun and end. -/
theorem step_tracks (h : t.Tracks policy image) (call : ImageCall) :
    Turns policy t (call.entered image) (call.needs policy image)
      (t.step call.toCall).1.requestList (t.step call.toCall).2 := by
  cases call with
  | seed levels =>
      rw [requestList_step, step_snd, ImageCall.toCall, actions, acts_singleton]
      exact turns_seed h levels
  | record command =>
      rw [requestList_step, step_snd, ImageCall.toCall, actions, acts_singleton]
      exact turns_act h (.record .first command) rfl
  | finish =>
      have hclosed := tracks_closePass h
      have hacts : t.acts (t.actions .finish) = t.closePass.act (.relax .first) := by
        rw [actions, ids_of_tracks hclosed, List.map_singleton, acts, acts_singleton]
        rfl
      obtain ⟨htracks, hdecays, hbarriers⟩ := turns_act hclosed (Action.relax .first) rfl
      rw [requestList_step, step_snd, ImageCall.toCall, hacts]
      exact ⟨htracks, by rw [hdecays, stats_closePass]; rfl, hbarriers⟩

end Tracker

end DepthStencil
