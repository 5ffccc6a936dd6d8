import DepthStencil.Proofs.Beliefs
import DepthStencil.Proofs.Settling

/-! # Where render passes begin and end

A command in normal form meets the open pass in one of five ways (`Tracker.Records`): it folds into
the pass, it begins a new one, it ends the pass as a transition or as a discard that moves a layout,
or it leaves the pass alone as a discard that moves none.

A pass is told from the ones before it by the number of passes begun so far (`Tracker.serial?`).
Requests say truthfully whether the open pass ends, and no pass ends without a request except at a
transition (`Tracker.passes_end_openly`). -/

namespace DepthStencil

/-! ### Open passes -/

namespace Pass

theorem isOpenOn_iff {pass? : Option Pass} {id : ImageId} :
    isOpenOn pass? id = true ↔ ∃ p, pass? = some p ∧ p.image = id := by
  cases pass? with
  | none => simp [isOpenOn]
  | some p => simp [isOpenOn]

theorem isSome_of_isOpenOn {pass? : Option Pass} {id : ImageId} (h : isOpenOn pass? id = true) :
    pass?.isSome = true := by
  obtain ⟨p, rfl, -⟩ := isOpenOn_iff.mp h
  rfl

@[simp] theorem image_record (p : Pass) (writes : PerAspect Bool) :
    (p.record writes).image = p.image := rfl

@[simp] theorem image_start (id : ImageId) (levels : PerAspect Level) :
    (start id levels).image = id := rfl

@[simp] theorem isOpenOn_map_record (pass? : Option Pass) (id : ImageId)
    (writes : PerAspect Bool) :
    isOpenOn (pass?.map fun p => p.record writes) id = isOpenOn pass? id := by
  cases pass? <;> rfl

/-- A draw or clear folds exactly if it moves nothing and the open pass is on its image. -/
theorem place_eq_fold {pass? : Option Pass} {id : ImageId} {moves : Bool} :
    place pass? id moves = .fold ↔ isOpenOn pass? id = true ∧ moves = false := by
  unfold place
  cases isOpenOn pass? id <;> cases moves <;> simp

end Pass

namespace Tracker

/-- The number of the open pass among all passes begun so far. -/
def serial? (t : Tracker) : Option Nat := t.pass?.map fun _ => t.stats.passes

theorem serial?_eq {t t' : Tracker} (hopen : t'.pass?.isSome = t.pass?.isSome)
    (hpasses : t'.stats.passes = t.stats.passes) : t'.serial? = t.serial? := by
  unfold serial?
  rw [hpasses]
  cases hp : t.pass? with
  | none =>
      rw [hp, Option.isSome_none, Option.isSome_eq_false_iff, Option.isNone_iff_eq_none] at hopen
      rw [hopen]
  | some p =>
      rw [hp, Option.isSome_some, Option.isSome_iff_exists] at hopen
      obtain ⟨p', hp'⟩ := hopen
      rw [hp']
      rfl

/-- A pass that has just begun is not the one that was open before. -/
theorem serial?_ne_of_begun {t t' : Tracker} (h : t.stats.passes < t'.stats.passes)
    (hopen : t'.pass?.isSome = true) : t'.serial? ≠ t.serial? := by
  intro hserial
  obtain ⟨p', hp'⟩ := Option.isSome_iff_exists.mp hopen
  rw [serial?, hp', serial?] at hserial
  obtain ⟨p, -, hpasses⟩ := Option.map_eq_some_iff.mp hserial.symm
  exact absurd hpasses (Nat.ne_of_lt h)

@[simp] theorem pass?_closePass (t : Tracker) : t.closePass.pass? = none := by
  unfold closePass
  split
  · assumption
  · rfl

@[simp] theorem stats_closePass (t : Tracker) : t.closePass.stats = t.stats := by
  unfold closePass
  split <;> rfl

theorem pass?_closePassOn (t : Tracker) (id : ImageId) :
    (t.closePassOn id).pass? = if Pass.isOpenOn t.pass? id then none else t.pass? := by
  unfold closePassOn
  split
  · exact pass?_closePass t
  · rfl

@[simp] theorem stats_closePassOn (t : Tracker) (id : ImageId) :
    (t.closePassOn id).stats = t.stats := by
  unfold closePassOn
  split
  · exact stats_closePass t
  · rfl

/-! ### Registration and passes -/

/-- Registering an image concerns nothing but the registry. -/
theorem exists_register_eq (t : Tracker) (info : Registration) :
    ∃ registry, (t.register info).2 = { t with registry } := by
  unfold register
  split
  · exact ⟨t.registry, rfl⟩
  · exact ⟨_, rfl⟩

/-- How an image is replaced or given up: the pass open on it ends, and nothing is pending on it. -/
structure Overwrites (id : ImageId) (t t' : Tracker) : Prop where
  policy : t'.policy = t.policy
  stats : t'.stats = t.stats
  pass : t'.pass? = (t.closePassOn id).pass?
  other : ∀ id', id' ≠ id → t'.image? id' = (t.closePassOn id).image? id'
  unwritten : ∀ image, t'.image? id = some image → image.pendingWrites = .both false

theorem overwrites_of_registry {t : Tracker} {id : ImageId} {registry : Registry}
    (hother : ∀ id', id' ≠ id → registry.get? id' = (t.closePassOn id).registry.get? id')
    (hself : ∀ image, registry.get? id = some image → image.pendingWrites = .both false) :
    Overwrites id t { t.closePassOn id with registry } :=
  ⟨policy_closePassOn t id, stats_closePassOn t id, rfl, hother, hself⟩

theorem overwrites_of_lookup {t : Tracker} {id : ImageId} {e : Rejection}
    (h : (t.closePassOn id).lookup id = .error e) : Overwrites id t (t.closePassOn id) :=
  overwrites_of_registry (fun _ _ => rfl) fun _ hi =>
    absurd ((lookup_eq_error.mp h).1.symm.trans hi) (by simp)

theorem overwrites_unregister (t : Tracker) (id : ImageId) :
    Overwrites id t (t.unregister id).2 := by
  cases hl : (t.closePassOn id).lookup id with
  | error e => rw [unregister_of_error hl]; exact overwrites_of_lookup hl
  | ok image =>
      rw [unregister_of_ok hl]
      refine overwrites_of_registry (fun id' hid => ?_) fun image' hi => ?_
      · rw [Registry.get?_erase, if_neg hid]
      · rw [Registry.get?_erase, if_pos rfl] at hi
        exact absurd hi (by simp)

theorem overwrites_seed (t : Tracker) (id : ImageId) (levels : PerAspect Level) :
    Overwrites id t (t.seed id levels).2 := by
  cases hl : (t.closePassOn id).lookup id with
  | error e => rw [seed_of_error hl]; exact overwrites_of_lookup hl
  | ok image =>
      rw [seed_of_ok hl]
      refine overwrites_of_registry (fun id' hid => ?_) fun image' hi => ?_
      · rw [Registry.get?_modify, if_neg hid]
      · rw [Registry.get?_modify, if_pos rfl] at hi
        obtain ⟨image₀, -, rfl⟩ := Option.map_eq_some_iff.mp hi
        rfl

/-! ### Settling and entering passes -/

section settle

variable (t : Tracker) (id : ImageId) (image : TrackedImage) (needs : PerAspect Need)
  (endsPass : Bool)

@[simp] theorem request_settle :
    (t.settle id image needs endsPass).1 = image.request? t.policy.scheme needs id endsPass := rfl

@[simp] theorem pass?_settle : (t.settle id image needs endsPass).2.pass? = t.pass? := rfl

@[simp] theorem passes_settle :
    (t.settle id image needs endsPass).2.stats.passes = t.stats.passes := by
  have hcount : ∀ request?, (t.stats.countRequest request?).passes = t.stats.passes := by
    intro request?
    cases request? <;> rfl
  exact hcount _

end settle

@[simp] theorem pass?_countDecays (t : Tracker) (changes : PerAspect (Option Change)) :
    (t.countDecays changes).pass? = t.pass? := rfl

@[simp] theorem passes_countDecays (t : Tracker) (changes : PerAspect (Option Change)) :
    (t.countDecays changes).stats.passes = t.stats.passes := rfl

section enterPass

variable (t : Tracker) (id : ImageId) (levels : PerAspect Level) (writes : PerAspect Bool)

@[simp] theorem pass?_enterPass_fold :
    (t.enterPass id .fold levels writes).pass? = t.pass?.map fun p => p.record writes := rfl

@[simp] theorem passes_enterPass_fold :
    (t.enterPass id .fold levels writes).stats.passes = t.stats.passes := rfl

theorem pass?_enterPass_of_ne {placement : Placement} (h : placement ≠ .fold) :
    (t.enterPass id placement levels writes).pass? =
      some ((Pass.start id levels).record writes) := by
  rw [enterPass, if_neg h]
  rfl

theorem passes_enterPass_of_ne {placement : Placement} (h : placement ≠ .fold) :
    (t.enterPass id placement levels writes).stats.passes = t.stats.passes + 1 := by
  cases placement with
  | fold => exact absurd rfl h
  | begins => rfl
  | split => rfl

theorem passes_of_begins {placement : Placement} (h : placement ≠ .fold) (image : TrackedImage)
    (needs : PerAspect Need) (endsPass : Bool) :
    ((t.closePass.settle id image needs endsPass).2.enterPass id placement levels
      writes).stats.passes = t.stats.passes + 1 := by
  rw [passes_enterPass_of_ne _ _ _ _ h, passes_settle, stats_closePass]

theorem serial?_of_begins {placement : Placement} (h : placement ≠ .fold) (image : TrackedImage)
    (needs : PerAspect Need) (endsPass : Bool) :
    ((t.closePass.settle id image needs endsPass).2.enterPass id placement levels
      writes).serial? ≠ t.serial? := by
  refine serial?_ne_of_begun ?_ (by rw [pass?_enterPass_of_ne _ _ _ _ h]; rfl)
  rw [passes_of_begins t id levels writes h]
  exact Nat.lt_succ_self _

end enterPass

/-! ### Recording a command in normal form -/

/-- How a command in normal form is recorded, with the request and the tracker it leads to. -/
inductive Records (t : Tracker) (id : ImageId) (image : TrackedImage) (x : Accepted) :
    Option Request → Tracker → Prop
  /-- A draw or clear that moves nothing goes into the pass open on its image. -/
  | folds (hx : x.command.isRendering = true) (hopen : Pass.isOpenOn t.pass? id = true)
      (hmoves : image.moves t.policy.scheme (x.needs t.policy) = false) :
      Records t id image x none
        ((t.settle id image (x.needs t.policy) false).2.enterPass id .fold
          (image.settledLevels (x.needs t.policy)) x.command.writes)
  /-- Any other draw or clear goes into a new pass, after what it needs was asked for. -/
  | begins {placement : Placement} (hx : x.command.isRendering = true) (hp : placement ≠ .fold)
      (hmoves : Pass.isOpenOn t.pass? id = true →
        image.moves t.policy.scheme (x.needs t.policy) = true) :
      Records t id image x (image.request? t.policy.scheme (x.needs t.policy) id t.pass?.isSome)
        ((t.closePass.settle id image (x.needs t.policy) t.pass?.isSome).2.enterPass id placement
          (image.settledLevels (x.needs t.policy)) x.command.writes)
  /-- A transition ends the open pass. -/
  | ends (hx : x.command.isTransition = true) :
      Records t id image x (image.request? t.policy.scheme (x.needs t.policy) id t.pass?.isSome)
        ((t.closePass.settle id image (x.needs t.policy) t.pass?.isSome).2.countDecays
          (image.changes (x.needs t.policy)))
  /-- A discard that moves a layout ends the open pass. -/
  | drops {aspects : PerAspect Bool} (hx : x.command = .discard aspects)
      (hmoves : image.moves t.policy.scheme (x.needs t.policy) = true) :
      Records t id image x
        (some (image.request t.policy.scheme (x.needs t.policy) id t.pass?.isSome))
        (t.closePass.settle id image (x.needs t.policy) t.pass?.isSome).2
  /-- A discard that moves no layout may fall inside the open pass. -/
  | stays {aspects : PerAspect Bool} (hx : x.command = .discard aspects)
      (hmoves : image.moves t.policy.scheme (x.needs t.policy) = false) :
      Records t id image x none (t.settle id image (x.needs t.policy) false).2

variable {t t' : Tracker} {id : ImageId} {image : TrackedImage} {x : Accepted}
  {request? : Option Request}

theorem records_recordRendering (hx : x.command.isRendering = true) :
    Records t id image x (t.recordRendering id image x.command (x.needs t.policy)).1
      (t.recordRendering id image x.command (x.needs t.policy)).2 := by
  unfold recordRendering
  by_cases hp : Pass.place t.pass? id (image.moves t.policy.scheme (x.needs t.policy)) = .fold
  · obtain ⟨hopen, hmoves⟩ := Pass.place_eq_fold.mp hp
    have hnone : image.request? t.policy.scheme (x.needs t.policy) id false = none := by
      rw [TrackedImage.request?, hmoves]
      rfl
    simp only [hp, if_true, ne_eq, not_true, decide_false, Bool.false_and, request_settle, hnone]
    exact .folds hx hopen hmoves
  · have hmoves : Pass.isOpenOn t.pass? id = true →
        image.moves t.policy.scheme (x.needs t.policy) = true := by
      intro hopen
      by_contra hno
      exact hp (Pass.place_eq_fold.mpr ⟨hopen, Bool.eq_false_iff.mpr hno⟩)
    simp only [hp, if_false, ne_eq, not_false_eq_true, decide_true, Bool.true_and, request_settle,
      policy_closePass]
    exact .begins hx hp hmoves

theorem records_recordDiscard {aspects : PerAspect Bool} (hx : x.command = .discard aspects) :
    Records t id image x (t.recordDiscard id image (x.needs t.policy)).1
      (t.recordDiscard id image (x.needs t.policy)).2 := by
  unfold recordDiscard
  cases hmoves : image.moves t.policy.scheme (x.needs t.policy) with
  | true =>
      simp only [if_true, request_settle, policy_closePass, TrackedImage.request?, hmoves]
      exact .drops hx hmoves
  | false =>
      simp only [Bool.false_eq_true, if_false, request_settle, TrackedImage.request?, hmoves]
      exact .stays hx hmoves

theorem records_recordAccepted (t : Tracker) (id : ImageId) (image : TrackedImage) (x : Accepted) :
    Records t id image x (t.recordAccepted id image x).1 (t.recordAccepted id image x).2 := by
  obtain ⟨command, coversImage⟩ := x
  cases command with
  | draw uses => exact records_recordRendering rfl
  | clear aspects rect => exact records_recordRendering rfl
  | discard aspects => exact records_recordDiscard rfl
  | transition targets =>
      have hends : Records t id image ⟨.transition targets, coversImage⟩ _ _ := .ends rfl
      rw [← policy_closePass t] at hends
      exact hends

/-- A command is turned down, touches nothing, or is carried out in its normal form. -/
theorem record_cases (t : Tracker) (id : ImageId) (command : Command) :
    (∃ e, (∀ image, t.image? id = some image → image.accept id command = .error e) ∧
        t.record id command = (.error e, t)) ∨
      (∃ image, t.image? id = some image ∧ image.accept id command = .ok none ∧
        t.record id command = (.ok none, t)) ∨
      ∃ image x request? t', t.image? id = some image ∧
        image.accept id command = .ok (some x) ∧ Records t id image x request? t' ∧
          t.record id command = (.ok request?, t') := by
  cases hl : t.lookup id with
  | error e =>
      refine .inl ⟨e, fun image hi => ?_, by simp only [record, hl]⟩
      rw [(lookup_eq_error.mp hl).1] at hi
      exact absurd hi (by simp)
  | ok image =>
      have hi := lookup_eq_ok.mp hl
      cases ha : image.accept id command with
      | error e =>
          refine .inl ⟨e, fun image' hi' => ?_, by simp only [record, hl, ha]⟩
          rw [hi, Option.some_inj] at hi'
          rw [← hi', ha]
      | ok x? =>
          cases x? with
          | none => exact .inr (.inl ⟨image, hi, ha, by simp only [record, hl, ha]⟩)
          | some x =>
              exact .inr (.inr ⟨image, x, _, _, hi, ha, records_recordAccepted t id image x,
                by simp only [record, hl, ha]⟩)

theorem record_transition {targets : PerAspect (Option Level)} (hi : t.image? id = some image)
    (hm : image.missing? (.transition targets) = none) :
    t.record id (.transition targets) =
      (.ok (t.recordTransition id image ((Command.transition targets).needs false)).1,
        (t.recordTransition id image ((Command.transition targets).needs false)).2) := by
  have haccept :
      image.accept id (.transition targets) = .ok (some ⟨.transition targets, false⟩) := by
    simp only [TrackedImage.accept, hm]
    rfl
  simp only [record, lookup_eq_ok.mpr hi, haccept]
  rfl

/-! ### Requests -/

theorem Records.endsPass (h : Records t id image x request? t') {r : Request}
    (hr : request? = some r) : r.endsPass = t.pass?.isSome := by
  have hrequest : ∀ {endsPass : Bool},
      image.request? t.policy.scheme (x.needs t.policy) id endsPass = some r →
        r.endsPass = endsPass := by
    intro endsPass hr
    rw [(TrackedImage.request?_eq_some.mp hr).2]
    rfl
  cases h with
  | folds => exact absurd hr (by simp)
  | begins => exact hrequest hr
  | ends => exact hrequest hr
  | drops => rw [← Option.some_inj.mp hr]; rfl
  | stays => exact absurd hr (by simp)

/-- Whether the pass that was open in `t` is the one that is open in `t'`, with one more command in
it at most. -/
def KeepsPass (t t' : Tracker) : Prop :=
  t'.serial? = t.serial? ∧
    (t'.pass? = t.pass? ∨ ∃ writes, t'.pass? = t.pass?.map fun p => p.record writes)

theorem KeepsPass.refl (t : Tracker) : t.KeepsPass t := ⟨rfl, .inl rfl⟩

/-- A command that asks for nothing leaves the pass on its image open, transitions apart. -/
theorem Records.keepsPass (h : Records t id image x request? t')
    (hopen : Pass.isOpenOn t.pass? id = true) :
    t.KeepsPass t' ∨ x.command.isTransition = true ∨ ∃ r, request? = some r := by
  cases h with
  | folds => exact .inl ⟨serial?_eq (by simp) (by simp), .inr ⟨x.command.writes, rfl⟩⟩
  | begins hx hp hmoves =>
      exact .inr (.inr ⟨_, TrackedImage.request?_eq_some.mpr ⟨hmoves hopen, rfl⟩⟩)
  | ends hx => exact .inr (.inl hx)
  | drops => exact .inr (.inr ⟨_, rfl⟩)
  | stays => exact .inl ⟨serial?_eq (by simp) (by simp), .inl rfl⟩

end Tracker

/-! ### Normal forms -/

namespace TrackedImage

/-- Whether a clear of some aspects within a rectangle touches anything of the image. -/
def touchedBy (image : TrackedImage) (aspects : PerAspect Bool) (rect : Option Rect) : Bool :=
  aspects.any && rect.all fun r => (r.clip? image.extent).isSome

variable {image : TrackedImage} {id : ImageId} {command : Command} {x : Accepted}

theorem normalize_of_accept {x? : Option Accepted} (h : image.accept id command = .ok x?) :
    image.missing? command = none ∧ image.normalize command = x? := by
  unfold accept at h
  split at h
  · exact absurd h (by simp)
  · rename_i hm
    exact ⟨hm, Except.ok.inj h⟩

theorem isSome_normalize_clear (image : TrackedImage) (aspects : PerAspect Bool)
    (rect : Option Rect) :
    (image.normalize (.clear aspects rect)).isSome = image.touchedBy aspects rect := by
  rw [normalize, touchedBy]
  cases aspects.any with
  | false => rfl
  | true =>
      cases rect with
      | none => rfl
      | some r =>
          rw [if_pos rfl, acceptClear, Option.isSome_map]
          rfl

theorem kind_of_normalize (h : image.normalize command = some x) :
    x.command.isRendering = command.isRendering ∧
      x.command.isTransition = command.isTransition := by
  cases command with
  | draw uses => rw [← Option.some_inj.mp h]; exact ⟨rfl, rfl⟩
  | clear aspects rect =>
      obtain ⟨rect', hc⟩ := command_of_normalize_clear h
      rw [hc]
      exact ⟨rfl, rfl⟩
  | discard aspects =>
      rw [normalize] at h
      split at h
      · rw [← Option.some_inj.mp h]
        exact ⟨rfl, rfl⟩
      · exact absurd h (by simp)
  | transition targets => rw [← Option.some_inj.mp h]; exact ⟨rfl, rfl⟩

end TrackedImage

namespace Tracker

/-! ### Finishing -/

@[simp] theorem pass?_relax (t : Tracker) (id : ImageId) : (t.relax id).2.pass? = t.pass? := by
  rcases t.relax_cases id with ⟨h, -⟩ | ⟨image, targets, -, -, h⟩
  · rw [h]
  · rw [h]
    rfl

@[simp] theorem passes_relax (t : Tracker) (id : ImageId) :
    (t.relax id).2.stats.passes = t.stats.passes := by
  rcases t.relax_cases id with ⟨h, -⟩ | ⟨image, targets, -, -, h⟩
  · rw [h]
  · rw [h, passes_countDecays, passes_settle]

theorem endsPass_relax {t : Tracker} {id : ImageId} {r : Request} (h : (t.relax id).1 = some r) :
    r.endsPass = false := by
  rcases t.relax_cases id with ⟨hrelax, -⟩ | ⟨image, targets, -, -, hrelax⟩
  · rw [hrelax] at h
    exact absurd h (by simp)
  · rw [hrelax, request_settle, TrackedImage.request?_eq_some] at h
    rw [h.2]
    rfl

theorem pass?_relaxAll : ∀ (ids : List ImageId) (t : Tracker), (relaxAll ids t).2.pass? = t.pass?
  | [], _ => rfl
  | id :: ids, t => by rw [relaxAll, pass?_relaxAll ids, pass?_relax]

theorem endsPass_of_mem_relaxAll {r : Request} : ∀ {ids : List ImageId} {t : Tracker},
    r ∈ (relaxAll ids t).1 → r.endsPass = false
  | [], _, h => absurd h List.not_mem_nil
  | id :: ids, t, h => by
      rw [relaxAll, List.mem_append, Option.mem_toList] at h
      rcases h with h | h
      · exact endsPass_relax h
      · exact endsPass_of_mem_relaxAll h

end Tracker

/-! ### Passes end openly -/

/-- Where the open pass is once a command was recorded with a request or without one. -/
def Command.PassAfter (image : TrackedImage) (id : ImageId) (before after : Option Pass)
    (request? : Option Request) : Command → Prop
  | draw _ => Pass.isOpenOn after id = true
  | clear aspects rect =>
    if image.touchedBy aspects rect then Pass.isOpenOn after id = true else after = before
  | discard _ => if request?.isSome then after = none else after = before
  | transition _ => after = none

namespace Tracker

variable {t t' : Tracker} {id : ImageId} {image : TrackedImage} {command : Command} {x : Accepted}
  {request? : Option Request}

theorem Records.passAfter (h : Records t id image x request? t')
    (hx : image.normalize command = some x) :
    command.PassAfter image id t.pass? t'.pass? request? := by
  obtain ⟨hrendering, htransition⟩ := TrackedImage.kind_of_normalize hx
  -- a pass that a draw or clear went into is open on its image
  have hopen : ∀ after, x.command.isRendering = true → Pass.isOpenOn after id = true →
      command.PassAfter image id t.pass? after request? := by
    intro after hr hopen
    rw [hrendering] at hr
    cases command with
    | draw uses => exact hopen
    | clear aspects rect =>
        rw [Command.PassAfter, ← TrackedImage.isSome_normalize_clear, hx]
        exact hopen
    | discard aspects => exact absurd hr (by simp [Command.isRendering])
    | transition targets => exact absurd hr (by simp [Command.isRendering])
  cases h with
  | folds hx' hopen' =>
      refine hopen _ hx' ?_
      rw [pass?_enterPass_fold, Pass.isOpenOn_map_record]
      exact hopen'
  | begins hx' hp =>
      refine hopen _ hx' ?_
      rw [pass?_enterPass_of_ne _ _ _ _ hp]
      exact Pass.isOpenOn_iff.mpr ⟨_, rfl, rfl⟩
  | ends hx' =>
      rw [htransition] at hx'
      cases command with
      | draw uses => exact absurd hx' (by simp [Command.isTransition])
      | clear aspects rect => exact absurd hx' (by simp [Command.isTransition])
      | discard aspects => exact absurd hx' (by simp [Command.isTransition])
      | transition targets => exact pass?_closePass t
  | drops hx' =>
      rw [hx'] at hrendering htransition
      cases command with
      | draw uses => exact absurd hrendering (by simp [Command.isRendering])
      | clear aspects rect => exact absurd hrendering (by simp [Command.isRendering])
      | discard aspects => exact pass?_closePass t
      | transition targets => exact absurd htransition (by simp [Command.isTransition])
  | stays hx' =>
      rw [hx'] at hrendering htransition
      cases command with
      | draw uses => exact absurd hrendering (by simp [Command.isRendering])
      | clear aspects rect => exact absurd hrendering (by simp [Command.isRendering])
      | discard aspects => rfl
      | transition targets => exact absurd htransition (by simp [Command.isTransition])

theorem passAfter_of_normalize_eq_none (h : image.normalize command = none) (id : ImageId)
    (pass? : Option Pass) : command.PassAfter image id pass? pass? none := by
  cases command with
  | draw uses => exact absurd h (by simp [TrackedImage.normalize])
  | clear aspects rect =>
      rw [Command.PassAfter, ← TrackedImage.isSome_normalize_clear, h]
      rfl
  | discard aspects => rfl
  | transition targets => exact absurd h (by simp [TrackedImage.normalize])

/-- Requests say truthfully whether the open pass ends, and no pass ends on an image without a
request or a transition that says so.  Unless it ends, at most one command is added to it.
Finishing ends the open pass before it asks for anything. -/
theorem passes_end_openly (t : Tracker) (id : ImageId) (command : Command) :
    let result := t.record id command
    ((∀ r, result.1 = .ok (some r) → r.endsPass = t.pass?.isSome) ∧
      (Pass.isOpenOn t.pass? id = true → ¬ t.KeepsPass result.2 →
        command.isTransition = true ∨ ∃ r, result.1 = .ok (some r) ∧ r.endsPass = true) ∧
      ∀ request?, result.1 = .ok request? → ∃ image, t.image? id = some image ∧
        command.PassAfter image id t.pass? result.2.pass? request?) ∧
    (∀ r ∈ t.finish.1, r.endsPass = false) ∧ t.finish.2.pass? = none := by
  intro result
  rw [show result = t.record id command from rfl]
  refine ⟨?_, fun r hr => endsPass_of_mem_relaxAll hr,
    (pass?_relaxAll _ _).trans (pass?_closePass t)⟩
  rcases t.record_cases id command with
    ⟨e, -, he⟩ | ⟨image, hi, ha, he⟩ |
      ⟨image, x, request?, t', hi, ha, hrecords, he⟩
  · rw [he]
    exact ⟨fun r hr => absurd hr (by simp), fun _ hends => absurd (.refl t) hends,
      fun request? hr => absurd hr (by simp)⟩
  · rw [he]
    refine ⟨fun r hr => absurd hr (by simp), fun _ hends => absurd (.refl t) hends, ?_⟩
    intro request? hr
    rw [← Except.ok.inj hr]
    exact ⟨image, hi,
      passAfter_of_normalize_eq_none (TrackedImage.normalize_of_accept ha).2 id t.pass?⟩
  · rw [he]
    have hnormal := (TrackedImage.normalize_of_accept ha).2
    refine ⟨fun r hr => hrecords.endsPass (Except.ok.inj hr), fun hopen hends => ?_, ?_⟩
    · rcases hrecords.keepsPass hopen with hkeeps | htransition | ⟨r, hr⟩
      · exact absurd hkeeps hends
      · rw [(TrackedImage.kind_of_normalize hnormal).2] at htransition
        exact .inl htransition
      · refine .inr ⟨r, congrArg Except.ok hr, ?_⟩
        rw [hrecords.endsPass hr, Pass.isSome_of_isOpenOn hopen]
    · intro request? hr
      rw [← Except.ok.inj hr]
      exact ⟨image, hi, hrecords.passAfter hnormal⟩

end Tracker

end DepthStencil
