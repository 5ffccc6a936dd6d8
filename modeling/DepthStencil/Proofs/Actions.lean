import DepthStencil.Call

/-! # Calls as sequences of actions

Every call is carried out by a few elementary operations (`Action`).  `Tracker.actions` says which
ones, and `Tracker.acts` carries them out one after another.

An action that works on an image either leaves it alone or settles it for an accepted command;
`Action.accepted?` says which, by looking at nothing but the image and the policy. -/

namespace DepthStencil

/-- An elementary operation on a tracker. -/
inductive Action where
  | register (info : Registration)
  | unregister (id : ImageId)
  | seed (id : ImageId) (levels : PerAspect Level)
  | record (id : ImageId) (command : Command)
  | closePass
  /-- Brings one image to rest. -/
  | relax (id : ImageId)
deriving DecidableEq, Repr

/-- What an accepted command needs under a policy. -/
def Accepted.needs (x : Accepted) (policy : Policy) : PerAspect Need :=
  x.command.needs (x.coversImage && policy.discardOnFullClear)

/-- The commands that clear the same aspects within each rectangle. -/
def Action.clears (id : ImageId) (aspects : PerAspect Bool) (rects : List (Option Rect)) :
    List Action :=
  rects.map fun rect => .record id (.clear aspects rect)

theorem Action.clears_cons (id : ImageId) (aspects : PerAspect Bool) (rect : Option Rect)
    (rects : List (Option Rect)) :
    clears id aspects (rect :: rects) =
      .record id (.clear aspects rect) :: clears id aspects rects := rfl

/-- The command for which an action settles an image, if it does. -/
def Action.accepted? (policy : Policy) (id : ImageId) (image : TrackedImage) :
    Action → Option Accepted
  | .record id' command => if id' = id then (image.accept id command).toOption.join else none
  | .relax id' =>
    if id' = id then
      (policy.restTargets? image.presentLevels).map fun targets => ⟨.transition targets, false⟩
    else none
  | .register _ | .unregister _ | .seed _ _ | .closePass => none

/-! ### Needs, aspect by aspect -/

namespace Command

variable (covers : Bool) (a : Aspect)

theorem get_needs_draw (uses : PerAspect Use) :
    ((draw uses).needs covers).get a = (uses.get a).need := PerAspect.get_map _ uses a

theorem get_needs_clear (aspects : PerAspect Bool) (rect : Option Rect) :
    ((clear aspects rect).needs covers).get a =
      if aspects.get a then .toWrite covers else .none := PerAspect.get_map _ aspects a

theorem get_needs_discard (aspects : PerAspect Bool) :
    ((discard aspects).needs covers).get a =
      if aspects.get a then .toWrite true else .none := PerAspect.get_map _ aspects a

theorem get_needs_transition (targets : PerAspect (Option Level)) :
    ((transition targets).needs covers).get a = (targets.get a).elim .none .toBe :=
  PerAspect.get_map _ targets a

end Command

theorem Accepted.needs_of_writes {x : Accepted} {a : Aspect} (h : x.command.writes.get a = true)
    (policy : Policy) : ∃ discards, (x.needs policy).get a = .toWrite discards := by
  obtain ⟨command, coversImage⟩ := x
  cases command with
  | draw uses =>
      have hwrite : (uses.get a).write = true := by
        rw [← h, Command.writes, PerAspect.get_map]
      refine ⟨false, ?_⟩
      rw [needs, Command.get_needs_draw, Use.need, if_pos hwrite]
  | clear aspects rect =>
      have hmarked : aspects.get a = true := h
      refine ⟨coversImage && policy.discardOnFullClear, ?_⟩
      rw [needs, Command.get_needs_clear, if_pos hmarked]
  | discard aspects => exact absurd h (by rw [Command.writes, PerAspect.get_both]; simp)
  | transition targets => exact absurd h (by rw [Command.writes, PerAspect.get_both]; simp)

/-! ### Accepted commands -/

namespace TrackedImage

variable {image : TrackedImage} {id : ImageId} {command : Command} {x : Accepted}

theorem accept_toOption_join_eq_some :
    (image.accept id command).toOption.join = some x ↔
      image.missing? command = none ∧ image.normalize command = some x := by
  unfold accept
  cases image.missing? command with
  | none => simp [Except.toOption]
  | some a => simp [Except.toOption]

theorem command_of_normalize_clear {aspects : PerAspect Bool} {rect : Option Rect}
    (h : image.normalize (.clear aspects rect) = some x) :
    ∃ rect', x.command = .clear aspects rect' := by
  simp only [normalize] at h
  split at h
  · unfold acceptClear at h
    cases rect with
    | none => exact ⟨none, by rw [← Option.some_inj.mp h]⟩
    | some r =>
        obtain ⟨clipped, -, rfl⟩ := Option.map_eq_some_iff.mp h
        exact ⟨some clipped, rfl⟩
  · exact absurd h (by simp)

end TrackedImage

/-! ### Aspects that are needed -/

theorem PlaneSet.has_of_firstOutside? {planes : PlaneSet} {marked : PerAspect Bool} {a : Aspect}
    (h : planes.firstOutside? marked = none) (ha : marked.get a = true) : planes.has a = true := by
  have hin := List.find?_eq_none.mp h a a.mem_all
  rw [ha, Bool.true_and, Bool.not_eq_true', Bool.not_eq_false] at hin
  exact hin

theorem PlaneSet.firstOutside?_eq_none {planes : PlaneSet} {marked : PerAspect Bool}
    (h : ∀ a, marked.get a = true → planes.has a = true) : planes.firstOutside? marked = none := by
  rw [firstOutside?, List.find?_eq_none]
  intro a _ houtside
  rw [Bool.and_eq_true, Bool.not_eq_true'] at houtside
  exact absurd (h a houtside.1) (by rw [houtside.2]; simp)

theorem TrackedImage.missing?_eq_none {image : TrackedImage} {command : Command}
    (h : ∀ a, command.named.get a = true → image.has a = true) :
    image.missing? command = none := by
  cases command with
  | draw uses => rfl
  | clear aspects rect => exact PlaneSet.firstOutside?_eq_none h
  | discard aspects => exact PlaneSet.firstOutside?_eq_none h
  | transition targets => exact PlaneSet.firstOutside?_eq_none h

/-- A command in normal form demands nothing of an aspect that the image lacks. -/
theorem TrackedImage.has_of_normalize {image : TrackedImage} {command : Command} {x : Accepted}
    {policy : Policy} {a : Aspect} (hm : image.missing? command = none)
    (hx : image.normalize command = some x) (hd : ((x.needs policy).get a).demand ≠ .any) :
    image.has a = true := by
  cases command with
  | draw uses =>
      obtain rfl := Option.some_inj.mp hx
      rw [Accepted.needs, Command.get_needs_draw, PerAspect.get_ofFn] at hd
      cases hhas : image.has a with
      | true => rfl
      | false => exact absurd (by simp [hhas, Use.mask, Use.need, Need.none]) hd
  | clear aspects rect =>
      obtain ⟨rect', hc⟩ := command_of_normalize_clear hx
      rw [Accepted.needs, hc, Command.get_needs_clear] at hd
      cases hmarked : aspects.get a with
      | true => exact PlaneSet.has_of_firstOutside? hm hmarked
      | false => exact absurd (by simp [hmarked, Need.none]) hd
  | discard aspects =>
      simp only [normalize] at hx
      split at hx
      · obtain rfl := Option.some_inj.mp hx
        rw [Accepted.needs, Command.get_needs_discard] at hd
        cases hmarked : aspects.get a with
        | true => exact PlaneSet.has_of_firstOutside? hm hmarked
        | false => exact absurd (by simp [hmarked, Need.none]) hd
      · exact absurd hx (by simp)
  | transition targets =>
      obtain rfl := Option.some_inj.mp hx
      rw [Accepted.needs, Command.get_needs_transition] at hd
      cases htarget : targets.get a with
      | some level =>
          refine PlaneSet.has_of_firstOutside? hm ?_
          rw [Command.named, PerAspect.get_map, htarget]
          rfl
      | none => exact absurd (by simp [htarget, Need.none]) hd

/-! ### Commands of actions -/

theorem Action.accepted?_record {policy : Policy} {id id' : ImageId} {image : TrackedImage}
    {command : Command} {x : Accepted} :
    (Action.record id' command).accepted? policy id image = some x ↔
      id' = id ∧ image.missing? command = none ∧ image.normalize command = some x := by
  rw [Action.accepted?]
  by_cases hid : id' = id
  · rw [if_pos hid, TrackedImage.accept_toOption_join_eq_some]
    exact ⟨fun h => ⟨hid, h⟩, fun h => h.2⟩
  · rw [if_neg hid]
    exact ⟨fun h => absurd h (by simp), fun h => absurd h.1 hid⟩

/-- The image that an action may settle. -/
def Action.settled? : Action → Option ImageId
  | .record id _ | .relax id => some id
  | .register _ | .unregister _ | .seed _ _ | .closePass => none

/-- An action settles an image for a recorded command or for the resting targets of the policy. -/
theorem Action.cases_of_accepted? {policy : Policy} {id : ImageId} {image : TrackedImage}
    {α : Action} {x : Accepted} (h : α.accepted? policy id image = some x) :
    (∃ command, α = .record id command ∧ image.missing? command = none ∧
        image.normalize command = some x) ∨
      (α = .relax id ∧ ∃ targets, policy.restTargets? image.presentLevels = some targets ∧
        x = ⟨.transition targets, false⟩) := by
  cases α with
  | record id' command =>
      obtain ⟨rfl, hm, hx⟩ := accepted?_record.mp h
      exact .inl ⟨command, rfl, hm, hx⟩
  | relax id' =>
      rw [accepted?] at h
      split at h
      · rename_i hid
        obtain ⟨targets, ht, rfl⟩ := Option.map_eq_some_iff.mp h
        exact .inr ⟨by rw [hid], targets, ht, rfl⟩
      · exact absurd h (by simp)
  | register info => exact absurd h (by simp [accepted?])
  | unregister id' => exact absurd h (by simp [accepted?])
  | seed id' levels => exact absurd h (by simp [accepted?])
  | closePass => exact absurd h (by simp [accepted?])

theorem Action.settled?_of_accepted? {policy : Policy} {id : ImageId} {image : TrackedImage}
    {α : Action} {x : Accepted} (h : α.accepted? policy id image = some x) :
    α.settled? = some id := by
  rcases cases_of_accepted? h with ⟨command, rfl, -⟩ | ⟨rfl, -⟩
  · rfl
  · rfl

theorem TrackedImage.has_of_restTargets? {image : TrackedImage} {policy : Policy}
    {targets : PerAspect (Option Level)} {a : Aspect}
    (h : policy.restTargets? image.presentLevels = some targets) (ht : targets.get a ≠ none) :
    image.has a = true := by
  unfold Policy.restTargets? at h
  simp only at h
  split at h
  · obtain rfl := Option.some_inj.mp h
    rw [PerAspect.get_map, presentLevels, PlaneSet.restrict, PerAspect.get_ofFn] at ht
    cases hhas : image.planeSet.has a with
    | true => exact hhas
    | false => exact absurd (by simp [hhas, Policy.restTarget]) ht
  · exact absurd h (by simp)

/-- An action demands nothing of an aspect that the image lacks. -/
theorem Action.has_of_accepted? {policy : Policy} {id : ImageId} {image : TrackedImage}
    {α : Action} {x : Accepted} {a : Aspect} (hx : α.accepted? policy id image = some x)
    (hd : ((x.needs policy).get a).demand ≠ .any) : image.has a = true := by
  rcases cases_of_accepted? hx with ⟨command, -, hm, hnormal⟩ | ⟨-, targets, ht, rfl⟩
  · exact TrackedImage.has_of_normalize hm hnormal hd
  · refine TrackedImage.has_of_restTargets? ht fun hnone => hd ?_
    rw [Accepted.needs, Command.get_needs_transition, hnone]
    rfl

/-! ### Carrying out actions -/

namespace Tracker

/-- Carries out an action, and returns the requests it makes. -/
def act (t : Tracker) : Action → List Request × Tracker
  | .register info => ([], (t.register info).2)
  | .unregister id => ([], (t.unregister id).2)
  | .seed id levels => ([], (t.seed id levels).2)
  | .record id command =>
    ((t.record id command).1.toOption.join.toList, (t.record id command).2)
  | .closePass => ([], t.closePass)
  | .relax id => ((t.relax id).1.toList, (t.relax id).2)

/-- Carries out actions one after another. -/
def acts : Tracker → List Action → List Request × Tracker
  | t, [] => ([], t)
  | t, α :: αs => ((t.act α).1 ++ ((t.act α).2.acts αs).1, ((t.act α).2.acts αs).2)

/-- The actions that a call is made of. -/
def actions (t : Tracker) : Call → List Action
  | .register info => [.register info]
  | .unregister id => [.unregister id]
  | .seed id levels => [.seed id levels]
  | .record id command => [.record id command]
  | .closePass => [.closePass]
  | .finish => .closePass :: t.closePass.registry.ids.map .relax
  | .resourceBarrier id subresource states =>
    match states.level?, t.subresourceAspects id subresource with
    | some level, .ok aspects =>
      [.record id (.transition (aspects.map fun marked => if marked then some level else none))]
    | _, _ => []
  | .clearView id flags rects =>
    match t.image? id with
    | none => []
    | some image =>
      Action.clears id (.ofFn fun a => flags.names a && image.has a)
        (if rects.isEmpty then [none] else rects.map some)
  | .discardSubresources id first count hasRects =>
    match t.image? id with
    | none => []
    | some image =>
      if hasRects || !(image.wholePlanes first count).any then []
      else [.record id (.discard (image.wholePlanes first count))]
  | .drawPipeline id pipeline view => [.record id (.draw (pipeline.uses view))]

end Tracker

/-- A call takes one action at most, clears of the same aspects, or all it takes to finish. -/
theorem Tracker.actions_cases (t : Tracker) (call : Call) :
    t.actions call = [] ∨ (∃ α, t.actions call = [α]) ∨
      (∃ id aspects rects, t.actions call = Action.clears id aspects rects) ∨
        t.actions call = .closePass :: t.closePass.registry.ids.map .relax := by
  cases call with
  | register info => exact .inr (.inl ⟨_, rfl⟩)
  | unregister id => exact .inr (.inl ⟨_, rfl⟩)
  | seed id levels => exact .inr (.inl ⟨_, rfl⟩)
  | record id command => exact .inr (.inl ⟨_, rfl⟩)
  | closePass => exact .inr (.inl ⟨_, rfl⟩)
  | drawPipeline id pipeline view => exact .inr (.inl ⟨_, rfl⟩)
  | finish => exact .inr (.inr (.inr rfl))
  | resourceBarrier id subresource states =>
      rw [actions]
      split
      · exact .inr (.inl ⟨_, rfl⟩)
      · exact .inl rfl
  | clearView id flags rects =>
      rw [actions]
      split
      · exact .inl rfl
      · exact .inr (.inr (.inl ⟨_, _, _, rfl⟩))
  | discardSubresources id first count hasRects =>
      rw [actions]
      split
      · exact .inl rfl
      · split
        · exact .inl rfl
        · exact .inr (.inl ⟨_, rfl⟩)

/-- The call that an action is part of, for actions that are part of only one. -/
def Action.call? : Action → Option Call
  | .register info => some (.register info)
  | .unregister id => some (.unregister id)
  | .seed id levels => some (.seed id levels)
  | .relax _ => some .finish
  | .record _ _ | .closePass => none

theorem Tracker.call_of_mem_actions {t : Tracker} {call call' : Call} {α : Action}
    (h : α ∈ t.actions call) (hα : α.call? = some call') : call = call' := by
  cases call with
  | register info =>
      rw [List.mem_singleton.mp h] at hα
      exact Option.some_inj.mp hα
  | unregister id =>
      rw [List.mem_singleton.mp h] at hα
      exact Option.some_inj.mp hα
  | seed id levels =>
      rw [List.mem_singleton.mp h] at hα
      exact Option.some_inj.mp hα
  | record id command =>
      rw [List.mem_singleton.mp h] at hα
      exact absurd hα (by simp [Action.call?])
  | closePass =>
      rw [List.mem_singleton.mp h] at hα
      exact absurd hα (by simp [Action.call?])
  | drawPipeline id pipeline view =>
      rw [List.mem_singleton.mp h] at hα
      exact absurd hα (by simp [Action.call?])
  | finish =>
      rw [actions, List.mem_cons, List.mem_map] at h
      rcases h with rfl | ⟨id, -, rfl⟩
      · exact absurd hα (by simp [Action.call?])
      · exact Option.some_inj.mp hα
  | clearView id flags rects =>
      rw [actions] at h
      split at h
      · exact absurd h List.not_mem_nil
      · obtain ⟨rect, -, rfl⟩ := List.mem_map.mp h
        exact absurd hα (by simp [Action.call?])
  | resourceBarrier id subresource states =>
      rw [actions] at h
      split at h
      · rw [List.mem_singleton.mp h] at hα
        exact absurd hα (by simp [Action.call?])
      · exact absurd h List.not_mem_nil
  | discardSubresources id first count hasRects =>
      rw [actions] at h
      split at h
      · exact absurd h List.not_mem_nil
      · split at h
        · exact absurd h List.not_mem_nil
        · rw [List.mem_singleton.mp h] at hα
          exact absurd hα (by simp [Action.call?])

end DepthStencil
