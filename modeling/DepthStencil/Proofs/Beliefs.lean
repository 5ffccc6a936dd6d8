import DepthStencil.Proofs.Resting
import Mathlib.Logic.Function.Basic

/-! # What is believed of the images

`Tracker.beliefs` is the registry seen as a map from identifiers, apart from what the open pass has
written.  Passes then disappear: closing one changes no belief, and a command recorded into a pass
changes the same beliefs as one recorded outside.

`Beliefs.Turn` says once what an action can do to the beliefs and which requests it makes, and
`Tracker.act_turn` says that every action of a tracker is such a turn.  Invariants of runs are
proved from the five cases of a turn. -/

namespace DepthStencil

/-- What is believed of each image. -/
abbrev Beliefs := ImageId → Option TrackedImage

namespace TrackedImage

@[simp] theorem endPass_endPass (image : TrackedImage) :
    image.endPass.endPass = image.endPass := rfl

@[simp] theorem endPass_markWritten (image : TrackedImage) (writes : PerAspect Bool) :
    (image.markWritten writes).endPass = image.endPass := rfl

theorem accepted?_endPass (policy : Policy) (id : ImageId) (image : TrackedImage) (α : Action) :
    α.accepted? policy id image.endPass = α.accepted? policy id image := rfl

end TrackedImage

namespace Tracker

/-- What a tracker believes of each image. -/
def beliefs (t : Tracker) : Beliefs := fun id => (t.image? id).map TrackedImage.endPass

theorem beliefs_eq_none {t : Tracker} {id : ImageId} :
    t.beliefs id = none ↔ t.image? id = none := Option.map_eq_none_iff

theorem beliefs_of_image? {t : Tracker} {id : ImageId} {image : TrackedImage}
    (h : t.image? id = some image) : t.beliefs id = some image.endPass := by
  rw [beliefs, h]; rfl

theorem exists_image?_of_beliefs {t : Tracker} {id : ImageId} {image : TrackedImage}
    (h : t.beliefs id = some image) :
    ∃ image', t.image? id = some image' ∧ image'.endPass = image :=
  Option.map_eq_some_iff.mp h

theorem beliefs_empty (policy : Policy) (id : ImageId) : (empty policy).beliefs id = none := by
  rw [beliefs_eq_none]
  rfl

/-! ### Changes of a single image -/

/-- Changing one image changes what is believed of it and of no other. -/
theorem beliefs_modify {t : Tracker} {id : ImageId} {f g : TrackedImage → TrackedImage}
    (hfg : ∀ image, (f image).endPass = g image.endPass) {t' : Tracker}
    (h : t'.registry = t.registry.modify id f) (id' : ImageId) :
    t'.beliefs id' = if id' = id then (t.beliefs id').map g else t.beliefs id' := by
  rw [beliefs, image?, h, Registry.get?_modify]
  by_cases hid : id' = id
  · rw [if_pos hid, if_pos hid, beliefs, image?, Option.map_map, Option.map_map]
    congr 1
    exact funext hfg
  · rw [if_neg hid, if_neg hid]
    rfl

theorem beliefs_modify_of_endPass {t : Tracker} {id : ImageId} {f : TrackedImage → TrackedImage}
    (hf : ∀ image, (f image).endPass = image.endPass) {t' : Tracker}
    (h : t'.registry = t.registry.modify id f) : t'.beliefs = t.beliefs := by
  funext id'
  rw [beliefs_modify (g := fun image => image) hf h]
  simp

@[simp] theorem beliefs_closePass (t : Tracker) : t.closePass.beliefs = t.beliefs := by
  unfold closePass
  split
  · rfl
  · exact beliefs_modify_of_endPass TrackedImage.endPass_endPass rfl

@[simp] theorem policy_closePass (t : Tracker) : t.closePass.policy = t.policy := by
  unfold closePass
  split <;> rfl

@[simp] theorem beliefs_closePassOn (t : Tracker) (id : ImageId) :
    (t.closePassOn id).beliefs = t.beliefs := by
  unfold closePassOn
  split
  · exact beliefs_closePass t
  · rfl

@[simp] theorem policy_closePassOn (t : Tracker) (id : ImageId) :
    (t.closePassOn id).policy = t.policy := by
  unfold closePassOn
  split
  · exact policy_closePass t
  · rfl

@[simp] theorem beliefs_enterPass (t : Tracker) (id : ImageId) (placement : Placement)
    (levels : PerAspect Level) (writes : PerAspect Bool) :
    (t.enterPass id placement levels writes).beliefs = t.beliefs :=
  beliefs_modify_of_endPass (fun image => TrackedImage.endPass_markWritten image writes) rfl

theorem beliefs_settle {t : Tracker} {id : ImageId} {image : TrackedImage}
    (h : t.beliefs id = some image) (image' : TrackedImage) (needs : PerAspect Need)
    (endsPass : Bool) :
    (t.settle id image' needs endsPass).2.beliefs =
      Function.update t.beliefs id (some (image.settle t.policy.scheme needs)) := by
  funext id'
  rw [beliefs_modify (g := fun image => image.settle t.policy.scheme needs) (fun _ => rfl) rfl]
  by_cases hid : id' = id
  · subst hid
    rw [if_pos rfl, Function.update_self, h]
    rfl
  · rw [if_neg hid, Function.update_of_ne hid]

/-! ### Commands -/

/-- A result that comes from settling an image for some needs, whatever happens to the open pass. -/
structure Settles (t : Tracker) (id : ImageId) (image : TrackedImage) (needs : PerAspect Need)
    (result : Option Request × Tracker) : Prop where
  request : ∃ endsPass, result.1 = image.request? t.policy.scheme needs id endsPass
  policy : result.2.policy = t.policy
  beliefs : ∀ believed, t.beliefs id = some believed → result.2.beliefs =
    Function.update t.beliefs id (some (believed.settle t.policy.scheme needs))

variable {t : Tracker} {id : ImageId} {image : TrackedImage} {needs : PerAspect Need}

theorem settles_settle (t : Tracker) (id : ImageId) (image : TrackedImage)
    (needs : PerAspect Need) (endsPass : Bool) :
    Settles t id image needs (t.settle id image needs endsPass) :=
  ⟨⟨endsPass, rfl⟩, rfl, fun _ h => beliefs_settle h image needs endsPass⟩

theorem Settles.of_closePass {result : Option Request × Tracker}
    (h : Settles t.closePass id image needs result) : Settles t id image needs result := by
  obtain ⟨hr, hp, hb⟩ := h
  rw [policy_closePass] at hr hp
  rw [beliefs_closePass, policy_closePass] at hb
  exact ⟨hr, hp, hb⟩

theorem Settles.enterPass {result : Option Request × Tracker}
    (h : Settles t id image needs result) (placement : Placement) (levels : PerAspect Level)
    (writes : PerAspect Bool) :
    Settles t id image needs (result.1, result.2.enterPass id placement levels writes) := by
  refine ⟨h.request, h.policy, fun believed hb => ?_⟩
  rw [beliefs_enterPass]
  exact h.beliefs believed hb

theorem Settles.countDecays {result : Option Request × Tracker}
    (h : Settles t id image needs result) (changes : PerAspect (Option Change)) :
    Settles t id image needs (result.1, result.2.countDecays changes) :=
  ⟨h.request, h.policy, h.beliefs⟩

theorem settles_recordRendering (t : Tracker) (id : ImageId) (image : TrackedImage)
    (command : Command) (needs : PerAspect Need) :
    Settles t id image needs (t.recordRendering id image command needs) := by
  have hready : ∀ endsPass, Settles t id image needs
      ((if Pass.place t.pass? id (image.moves t.policy.scheme needs) = .fold then t
        else t.closePass).settle id image needs endsPass) := by
    intro endsPass
    split
    · exact settles_settle t id image needs endsPass
    · exact (settles_settle t.closePass id image needs endsPass).of_closePass
  exact (hready _).enterPass _ _ _

theorem settles_recordTransition (t : Tracker) (id : ImageId) (image : TrackedImage)
    (needs : PerAspect Need) : Settles t id image needs (t.recordTransition id image needs) := by
  have hclosed := settles_settle t.closePass id image needs t.pass?.isSome
  exact hclosed.of_closePass.countDecays (image.changes needs)

theorem settles_recordDiscard (t : Tracker) (id : ImageId) (image : TrackedImage)
    (needs : PerAspect Need) : Settles t id image needs (t.recordDiscard id image needs) := by
  unfold recordDiscard
  split
  · exact (settles_settle t.closePass id image needs t.pass?.isSome).of_closePass
  · exact settles_settle t id image needs false

/-- A command in normal form settles its image, whatever pass it goes to. -/
theorem settles_recordAccepted (t : Tracker) (id : ImageId) (image : TrackedImage)
    (x : Accepted) :
    Settles t id image (x.needs t.policy) (t.recordAccepted id image x) := by
  obtain ⟨command, coversImage⟩ := x
  cases command with
  | draw uses => exact settles_recordRendering t id image (.draw uses) _
  | clear aspects rect => exact settles_recordRendering t id image (.clear aspects rect) _
  | discard aspects => exact settles_recordDiscard t id image _
  | transition targets => exact settles_recordTransition t id image _

end Tracker

/-! ### Properties of all images -/

namespace Beliefs

/-- Whether every image is believed to be as `P` says. -/
def All (P : ImageId → TrackedImage → Prop) (b : Beliefs) : Prop :=
  ∀ id image, b id = some image → P id image

variable {P : ImageId → TrackedImage → Prop} {b : Beliefs} {id : ImageId}

theorem all_update {image : TrackedImage} (himage : P id image)
    (h : ∀ id' image', id' ≠ id → b id' = some image' → P id' image') :
    All P (Function.update b id (some image)) := by
  intro id' image' h'
  by_cases hid : id' = id
  · subst hid
    rw [Function.update_self, Option.some_inj] at h'
    rw [← h']
    exact himage
  · rw [Function.update_of_ne hid] at h'
    exact h id' image' hid h'

theorem All.update (h : b.All P) {image : TrackedImage} (himage : P id image) :
    All P (Function.update b id (some image)) := all_update himage fun id' image' _ => h id' image'

theorem All.erase (h : b.All P) (id : ImageId) : All P (Function.update b id none) := by
  intro id' image' h'
  by_cases hid : id' = id
  · rw [hid, Function.update_self] at h'
    exact absurd h' (by simp)
  · rw [Function.update_of_ne hid] at h'
    exact h id' image' h'

end Beliefs

/-! ### Turns -/

/-- What an action does to the beliefs held under a policy, and the requests it makes. -/
inductive Beliefs.Turn (policy : Policy) (b : Beliefs) : Action → List Request → Beliefs → Prop
  /-- Nothing is settled and nothing is overwritten. -/
  | keep {α : Action} (h : ∀ id image, b id = some image → α.accepted? policy id image = none) :
      Turn policy b α [] b
  | register {info : Registration} {format : Format} {id : ImageId}
      (hf : Format.ofCode? info.format = some format) (hid : b id = none) :
      Turn policy b (.register info) []
        (Function.update b id (some (.ofRegistration info format)))
  | unregister (id : ImageId) : Turn policy b (.unregister id) [] (Function.update b id none)
  | seed {id : ImageId} {image : TrackedImage} (levels : PerAspect Level)
      (hid : b id = some image) :
      Turn policy b (.seed id levels) [] (Function.update b id (some (image.seed levels)))
  /-- An image is settled for an accepted command. -/
  | settle {α : Action} {id : ImageId} {image : TrackedImage} {x : Accepted} (endsPass : Bool)
      (hid : b id = some image) (hx : α.accepted? policy id image = some x) :
      Turn policy b α (image.request? policy.scheme (x.needs policy) id endsPass).toList
        (Function.update b id (some (image.settle policy.scheme (x.needs policy))))

theorem Beliefs.Turn.keep_of_settled? {policy : Policy} {b : Beliefs} {α : Action} {id : ImageId}
    (hα : α.settled? = some id)
    (h : ∀ image, b id = some image → α.accepted? policy id image = none) :
    Beliefs.Turn policy b α [] b := by
  refine .keep fun id' image hb => ?_
  cases hx : α.accepted? policy id' image with
  | none => rfl
  | some x =>
      rw [Action.settled?_of_accepted? hx, Option.some_inj] at hα
      rw [← hx, hα]
      exact h image (hα ▸ hb)

namespace Tracker

theorem beliefs_register {t : Tracker} {info : Registration} {format : Format}
    (h : Format.ofCode? info.format = some format) :
    (t.register info).1 = .ok t.registry.nextId ∧ t.beliefs t.registry.nextId = none ∧
      (t.register info).2.beliefs =
        Function.update t.beliefs t.registry.nextId (some (.ofRegistration info format)) := by
  have hfree : t.image? t.registry.nextId = none := Registry.get?_nextId t.registry
  refine ⟨by simp [register, h], beliefs_eq_none.mpr hfree, ?_⟩
  funext id
  simp only [register, h, beliefs, image?, Registry.get?_insert]
  by_cases hid : id = t.registry.nextId
  · subst hid
    rw [if_pos rfl, Function.update_self]
    rfl
  · rw [if_neg hid, Function.update_of_ne hid]
    rfl

theorem lookup_eq_ok {t : Tracker} {id : ImageId} {image : TrackedImage} :
    t.lookup id = .ok image ↔ t.image? id = some image := by
  unfold lookup
  cases t.image? id <;> simp

theorem lookup_eq_error {t : Tracker} {id : ImageId} {e : Rejection} :
    t.lookup id = .error e ↔ t.image? id = none ∧ e = .untracked id := by
  unfold lookup
  cases t.image? id <;> simp [eq_comm]

theorem record_of_image?_eq_none {t : Tracker} {id : ImageId} (hi : t.image? id = none)
    (command : Command) : t.record id command = (.error (.untracked id), t) := by
  simp only [record, lookup_eq_error.mpr ⟨hi, rfl⟩]

theorem unregister_of_error {t : Tracker} {id : ImageId} {e : Rejection}
    (h : (t.closePassOn id).lookup id = .error e) :
    t.unregister id = (.error e, t.closePassOn id) := by
  simp only [unregister, h]

theorem unregister_of_ok {t : Tracker} {id : ImageId} {image : TrackedImage}
    (h : (t.closePassOn id).lookup id = .ok image) :
    t.unregister id = (.ok image,
      { t.closePassOn id with registry := (t.closePassOn id).registry.erase id }) := by
  simp only [unregister, h]

theorem seed_of_error {t : Tracker} {id : ImageId} {e : Rejection}
    (h : (t.closePassOn id).lookup id = .error e) (levels : PerAspect Level) :
    t.seed id levels = (.error e, t.closePassOn id) := by
  simp only [seed, h]

theorem seed_of_ok {t : Tracker} {id : ImageId} {image : TrackedImage}
    (h : (t.closePassOn id).lookup id = .ok image) (levels : PerAspect Level) :
    t.seed id levels = (.ok (),
      { t.closePassOn id with
        registry := (t.closePassOn id).registry.modify id fun image => image.seed levels }) := by
  simp only [seed, h]

theorem beliefs_erase (t : Tracker) (id : ImageId) :
    ({ t with registry := t.registry.erase id } : Tracker).beliefs =
      Function.update t.beliefs id none := by
  funext id'
  simp only [beliefs, image?, Registry.get?_erase]
  by_cases hid : id' = id
  · rw [if_pos hid, hid, Function.update_self]
    rfl
  · rw [if_neg hid, Function.update_of_ne hid]
    rfl

theorem unregister_turn (t : Tracker) (id : ImageId) :
    (t.unregister id).2.policy = t.policy ∧
      Beliefs.Turn t.policy t.beliefs (.unregister id) [] (t.unregister id).2.beliefs := by
  cases hl : (t.closePassOn id).lookup id with
  | error e =>
      rw [unregister_of_error hl, beliefs_closePassOn]
      exact ⟨policy_closePassOn t id, .keep fun _ _ _ => rfl⟩
  | ok image =>
      rw [unregister_of_ok hl, beliefs_erase, beliefs_closePassOn]
      exact ⟨policy_closePassOn t id, .unregister id⟩

theorem beliefs_seed {t : Tracker} {id : ImageId} {image : TrackedImage}
    (h : t.beliefs id = some image) (levels : PerAspect Level) :
    (t.seed id levels).1 = .ok () ∧ (t.seed id levels).2.beliefs =
      Function.update t.beliefs id (some (image.seed levels)) := by
  rw [← beliefs_closePassOn t id] at h ⊢
  obtain ⟨image', himage', -⟩ := exists_image?_of_beliefs h
  rw [seed_of_ok (lookup_eq_ok.mpr himage')]
  refine ⟨rfl, ?_⟩
  funext id'
  rw [beliefs_modify (g := fun image => image.seed levels) (fun _ => rfl) rfl]
  by_cases hid : id' = id
  · subst hid
    rw [if_pos rfl, Function.update_self, h]
    rfl
  · rw [if_neg hid, Function.update_of_ne hid]

theorem seed_of_beliefs_eq_none {t : Tracker} {id : ImageId} (h : t.beliefs id = none)
    (levels : PerAspect Level) :
    t.seed id levels = (.error (.untracked id), t.closePassOn id) := by
  rw [← beliefs_closePassOn t id, beliefs_eq_none] at h
  exact seed_of_error (lookup_eq_error.mpr ⟨h, rfl⟩) levels

theorem seed_turn (t : Tracker) (id : ImageId) (levels : PerAspect Level) :
    (t.seed id levels).2.policy = t.policy ∧
      Beliefs.Turn t.policy t.beliefs (.seed id levels) [] (t.seed id levels).2.beliefs := by
  cases hb : t.beliefs id with
  | none =>
      rw [seed_of_beliefs_eq_none hb, beliefs_closePassOn]
      exact ⟨policy_closePassOn t id, .keep fun _ _ _ => rfl⟩
  | some image =>
      refine ⟨?_, by rw [(beliefs_seed hb levels).2]; exact .seed levels hb⟩
      rw [← beliefs_closePassOn t id] at hb
      obtain ⟨image', himage', -⟩ := exists_image?_of_beliefs hb
      rw [seed_of_ok (lookup_eq_ok.mpr himage')]
      exact policy_closePassOn t id

theorem register_turn (t : Tracker) (info : Registration) :
    (t.register info).2.policy = t.policy ∧
      Beliefs.Turn t.policy t.beliefs (.register info) [] (t.register info).2.beliefs := by
  cases hf : Format.ofCode? info.format with
  | none =>
      rw [show t.register info = (.error (.notDepthStencil info.format), t) by
        simp only [register, hf]]
      exact ⟨rfl, .keep fun _ _ _ => rfl⟩
  | some format =>
      obtain ⟨-, hfree, hb⟩ := beliefs_register hf
      refine ⟨by simp only [register, hf], ?_⟩
      rw [hb]
      exact .register hf hfree

theorem turn_of_settles {t : Tracker} {id : ImageId} {image : TrackedImage} {α : Action}
    {x : Accepted} {result : Option Request × Tracker} (hi : t.image? id = some image)
    (hx : α.accepted? t.policy id image = some x)
    (h : Settles t id image (x.needs t.policy) result) :
    result.2.policy = t.policy ∧
      Beliefs.Turn t.policy t.beliefs α result.1.toList result.2.beliefs := by
  have hb := beliefs_of_image? hi
  obtain ⟨endsPass, hr⟩ := h.request
  refine ⟨h.policy, ?_⟩
  rw [hr, h.beliefs _ hb]
  exact .settle endsPass hb hx

theorem record_turn (t : Tracker) (id : ImageId) (command : Command) :
    (t.record id command).2.policy = t.policy ∧
      Beliefs.Turn t.policy t.beliefs (.record id command)
        (t.record id command).1.toOption.join.toList (t.record id command).2.beliefs := by
  cases hl : t.lookup id with
  | error e =>
      rw [show t.record id command = (.error e, t) by simp only [record, hl]]
      refine ⟨rfl, .keep_of_settled? rfl fun image hb => ?_⟩
      rw [beliefs_eq_none.mpr (lookup_eq_error.mp hl).1] at hb
      exact absurd hb (by simp)
  | ok image =>
      have hi := lookup_eq_ok.mp hl
      have haccepted : ∀ believed, t.beliefs id = some believed →
          (Action.record id command).accepted? t.policy id believed =
            (image.accept id command).toOption.join := by
        intro believed hb
        rw [beliefs_of_image? hi, Option.some_inj] at hb
        rw [← hb, TrackedImage.accepted?_endPass, Action.accepted?, if_pos rfl]
      cases ha : image.accept id command with
      | error e =>
          rw [show t.record id command = (.error e, t) by simp only [record, hl, ha]]
          refine ⟨rfl, .keep_of_settled? rfl fun believed hb => ?_⟩
          rw [haccepted believed hb, ha]
          rfl
      | ok x? =>
          cases x? with
          | none =>
              rw [show t.record id command = (.ok none, t) by simp only [record, hl, ha]]
              refine ⟨rfl, .keep_of_settled? rfl fun believed hb => ?_⟩
              rw [haccepted believed hb, ha]
              rfl
          | some x =>
              rw [show t.record id command = (.ok (t.recordAccepted id image x).1,
                (t.recordAccepted id image x).2) by simp only [record, hl, ha]]
              have hx : (Action.record id command).accepted? t.policy id image = some x := by
                rw [Action.accepted?, if_pos rfl, ha]
                rfl
              exact turn_of_settles hi hx (settles_recordAccepted t id image x)

/-- Bringing an image to rest settles it like a transition to the resting targets. -/
theorem relax_turn (t : Tracker) (id : ImageId) :
    (t.relax id).2.policy = t.policy ∧
      Beliefs.Turn t.policy t.beliefs (.relax id) (t.relax id).1.toList (t.relax id).2.beliefs := by
  rcases t.relax_cases id with ⟨hrelax, hnone⟩ | ⟨image, targets, hi, ht, hrelax⟩
  · rw [hrelax]
    refine ⟨rfl, .keep_of_settled? rfl fun believed hb => ?_⟩
    obtain ⟨image, hi, rfl⟩ := exists_image?_of_beliefs hb
    rw [TrackedImage.accepted?_endPass, Action.accepted?, if_pos rfl, hnone image hi]
    rfl
  · have hx : (Action.relax id).accepted? t.policy id image =
        some ⟨.transition targets, false⟩ := by
      rw [Action.accepted?, if_pos rfl, ht]
      rfl
    rw [hrelax]
    exact turn_of_settles hi hx ((settles_settle t id image
      ((Command.transition targets).needs false) false).countDecays
        (image.changes ((Command.transition targets).needs false)))

/-- Every action is a turn of the beliefs, under a policy that stays. -/
theorem act_turn (t : Tracker) (α : Action) :
    (t.act α).2.policy = t.policy ∧
      Beliefs.Turn t.policy t.beliefs α (t.act α).1 (t.act α).2.beliefs := by
  cases α with
  | register info => exact register_turn t info
  | unregister id => exact unregister_turn t id
  | seed id levels => exact seed_turn t id levels
  | record id command => exact record_turn t id command
  | closePass =>
      refine ⟨policy_closePass t, ?_⟩
      rw [act, beliefs_closePass]
      exact .keep fun _ _ _ => rfl
  | relax id => exact relax_turn t id

/-- An action that may settle an image does so exactly if it has a command for it. -/
theorem act_of_settled? {t : Tracker} (α : Action) {id : ImageId} {image : TrackedImage}
    (hα : α.settled? = some id) (hb : t.beliefs id = some image) :
    (α.accepted? t.policy id image = none ∧ (t.act α).1 = [] ∧ (t.act α).2.beliefs = t.beliefs) ∨
      ∃ x endsPass, α.accepted? t.policy id image = some x ∧
        (t.act α).1 = (image.request? t.policy.scheme (x.needs t.policy) id endsPass).toList ∧
        (t.act α).2.beliefs = Function.update t.beliefs id
          (some (image.settle t.policy.scheme (x.needs t.policy))) := by
  have hturn := (act_turn t α).2
  generalize (t.act α).1 = rs at hturn ⊢
  generalize (t.act α).2.beliefs = b' at hturn ⊢
  cases hturn with
  | keep h => exact .inl ⟨h id image hb, rfl, rfl⟩
  | register hf hid => exact absurd hα (by simp [Action.settled?])
  | unregister id => exact absurd hα (by simp [Action.settled?])
  | seed levels hid => exact absurd hα (by simp [Action.settled?])
  | @settle _ id' image' x endsPass hid' hx =>
      rw [Action.settled?_of_accepted? hx, Option.some_inj] at hα
      subst hα
      rw [hb, Option.some_inj] at hid'
      subst hid'
      exact .inr ⟨x, endsPass, hx, rfl, rfl⟩

theorem act_of_untracked {t : Tracker} (α : Action) {id : ImageId} (hα : α.settled? = some id)
    (hi : t.image? id = none) : t.act α = ([], t) := by
  cases α with
  | record id' command =>
      obtain rfl := Option.some_inj.mp hα
      have hl : t.lookup id' = .error (.untracked id') := lookup_eq_error.mpr ⟨hi, rfl⟩
      simp only [act, record, hl]
      rfl
  | relax id' =>
      obtain rfl := Option.some_inj.mp hα
      simp only [act, relax, hi]
      rfl
  | register info => exact absurd hα (by simp [Action.settled?])
  | unregister id' => exact absurd hα (by simp [Action.settled?])
  | seed id' levels => exact absurd hα (by simp [Action.settled?])
  | closePass => exact absurd hα (by simp [Action.settled?])

theorem act_of_beliefs_eq_none {t : Tracker} (α : Action) {id : ImageId}
    (hα : α.settled? = some id) (hb : t.beliefs id = none) :
    (t.act α).1 = [] ∧ (t.act α).2.beliefs = t.beliefs := by
  rw [act_of_untracked α hα (beliefs_eq_none.mp hb)]
  exact ⟨rfl, rfl⟩

@[simp] theorem policy_act (t : Tracker) (α : Action) : (t.act α).2.policy = t.policy :=
  (act_turn t α).1

@[simp] theorem policy_acts (t : Tracker) (αs : List Action) :
    (t.acts αs).2.policy = t.policy := by
  induction αs generalizing t with
  | nil => rfl
  | cons α αs ih => rw [acts, ih, policy_act]

end Tracker

end DepthStencil
