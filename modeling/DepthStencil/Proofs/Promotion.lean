import Mathlib.Algebra.Order.BigOperators.Group.List
import Mathlib.Algebra.Order.Ring.Nat
import DepthStencil.Proofs.Identifiers
import DepthStencil.Proofs.Schemes

/-! # Draws, clears and discards promote

Every draw, clear and discard requires some level of each aspect (`Command.requires`).  What it
requires depends on the image only through what never changes about it.  An aspect is taken to the
least level that serves all commands so far, and no further (`TrackedImage.Promotes`), so neither
their order matters nor anything that happens to other images in between.

A request raises some aspect of its image and lowers none.  Aspects have three levels, so there are
never more than two requests for each aspect that the image has, whatever the number of commands. -/

namespace DepthStencil

/-! ### Levels that commands require -/

/-- The least level that meets the demand. -/
def Demand.floor : Demand → Level
  | any => .undefined
  | atLeast l | exactly l => l

theorem Demand.OnlyRaises.getD_resolve {d : Demand} (h : d.OnlyRaises) (l : Level) :
    (d.resolve l).getD l = max l d.floor := by
  cases d with
  | any => cases l <;> rfl
  | atLeast m => cases l <;> cases m <;> rfl
  | exactly m => exact False.elim h

/-- The level that a draw requires of an aspect it uses in the given way. -/
def Use.requires (u : Use) : Level :=
  if u.write then .writable else if u.test then .readOnly else .undefined

/-- The level that a draw, clear or discard requires of an aspect.  A draw requires nothing of an
aspect that the image lacks, and a clear nothing at all if it does not touch the image. -/
def Command.requires (image : TrackedImage) (a : Aspect) : Command → Level
  | draw uses => ((uses.get a).mask (image.has a)).requires
  | clear aspects rect =>
    if aspects.get a && image.touchedBy aspects rect then .writable else .undefined
  | discard aspects => if aspects.get a then .writable else .undefined
  | transition _ => .undefined

namespace TrackedImage

variable {image image' : TrackedImage} {scheme : LayoutScheme} {needs : PerAspect Need}
  {command : Command} {x : Accepted} {a : Aspect}

theorem get_settledLevels_of_onlyRaises (h : (needs.get a).demand.OnlyRaises) :
    (image.settledLevels needs).get a = max (image.levels.get a) (needs.get a).demand.floor := by
  rw [get_settledLevels, get_changes, Need.change?, Option.map_map, ← h.getD_resolve]
  cases (needs.get a).demand.resolve (image.levels.get a) <;> rfl

theorem floor_of_normalize (h : image.normalize command = some x)
    (hcommand : command.isTransition = false) (policy : Policy) (a : Aspect) :
    ((x.needs policy).get a).demand.floor = command.requires image a := by
  cases command with
  | draw uses =>
      obtain rfl := Option.some_inj.mp h
      rw [Accepted.needs, Command.get_needs_draw, PerAspect.get_ofFn, Command.requires, Use.need,
        Use.requires]
      split
      · rfl
      · split <;> rfl
  | clear aspects rect =>
      have htouches : image.touchedBy aspects rect = true := by
        rw [← isSome_normalize_clear, h]
        rfl
      obtain ⟨rect', hc⟩ := command_of_normalize_clear h
      rw [Accepted.needs, hc, Command.get_needs_clear, Command.requires, htouches, Bool.and_true]
      split <;> rfl
  | discard aspects =>
      rw [normalize] at h
      split at h
      · obtain rfl := Option.some_inj.mp h
        rw [Accepted.needs, Command.get_needs_discard, Command.requires]
        split <;> rfl
      · exact absurd h (by simp)
  | transition targets => exact absurd hcommand (by simp [Command.isTransition])

theorem requires_of_normalize_eq_none (h : image.normalize command = none) (a : Aspect) :
    command.requires image a = .undefined := by
  cases command with
  | draw uses => exact absurd h (by simp [normalize])
  | clear aspects rect =>
      have huntouched : image.touchedBy aspects rect = false := by
        rw [← isSome_normalize_clear, h]
        rfl
      rw [Command.requires, huntouched, Bool.and_false]
      rfl
  | discard aspects =>
      rw [normalize] at h
      split at h
      · exact absurd h (by simp)
      · rename_i hany
        rw [Command.requires, if_neg fun ha => hany (PerAspect.any_of_get ha)]
  | transition targets => rfl

theorem requires_congr (h : image'.blank = image.blank) (command : Command) (a : Aspect) :
    command.requires image' a = command.requires image a :=
  (congrArg (fun i => command.requires i a) h :)

end TrackedImage

/-! ### Heights -/

/-- Whether a request raises some aspect and lowers none. -/
def Request.Raises (r : Request) : Prop :=
  (∀ a, r.levels.get a ≤ r.after.get a) ∧ ∃ a, r.after.get a ≠ r.levels.get a

namespace TrackedImage

variable {image image' : TrackedImage} {scheme : LayoutScheme} {needs : PerAspect Need}

/-- How far the aspects of an image have been raised, all in all. -/
def height (image : TrackedImage) : Nat :=
  (image.planeSet.planes.map fun a => (image.levels.get a).rank).sum

theorem height_le (image : TrackedImage) : image.height ≤ 2 * image.planeSet.planes.length := by
  have hrank : ∀ l : Level, l.rank ≤ 2 := by
    intro l
    cases l <;> decide
  refine (List.sum_le_card_nsmul _ 2 ?_).trans (Nat.le_of_eq ?_)
  · intro n hn
    obtain ⟨a, -, rfl⟩ := List.mem_map.mp hn
    exact hrank _
  · rw [List.length_map, Nat.nsmul_eq_mul, Nat.mul_comm]

theorem height_le_of_levels (hplanes : image'.planeSet = image.planeSet)
    (h : ∀ a, image.levels.get a ≤ image'.levels.get a) : image.height ≤ image'.height := by
  rw [height, height, hplanes]
  exact List.sum_le_sum fun a _ => h a

theorem exists_changed_of_moves (hmoves : image.moves scheme needs = true) :
    ∃ a, (image.settledLevels needs).get a ≠ image.levels.get a := by
  by_contra hno
  have hsame : ∀ a, (image.settledLevels needs).get a = image.levels.get a := by
    simpa using hno
  have hmeets : ∀ a, (needs.get a).demand.Meets (image.levels.get a) := by
    intro a
    have hsettled := image.meets_settledLevels needs a
    rwa [hsame] at hsettled
  rw [moves_of_meets hmeets] at hmoves
  exact absurd hmoves (by simp)

section raises

variable (hraises : ∀ a, (needs.get a).demand.OnlyRaises)
  (hneeds : ∀ a, (needs.get a).demand ≠ .any → image.has a = true)
  (hmoves : image.moves scheme needs = true)

include hraises hmoves

theorem raises_request (id : ImageId) (endsPass : Bool) :
    (image.request scheme needs id endsPass).Raises := by
  have hafter : (image.request scheme needs id endsPass).after = image.settledLevels needs := by
    rw [Request.after, changes_request]
    rfl
  rw [Request.Raises, hafter]
  exact ⟨image.le_settledLevels hraises, exists_changed_of_moves hmoves⟩

include hneeds

theorem height_lt_settle : image.height < (image.settle scheme needs).height := by
  obtain ⟨a, ha⟩ := exists_changed_of_moves hmoves
  have hle := image.le_settledLevels hraises
  have hhas : image.has a = true := by
    by_contra hlacks
    exact ha (get_settledLevels_of_none (change_of_absent hneeds (by simpa using hlacks)))
  refine List.sum_lt_sum _ _ (fun b _ => hle b) ⟨a, (PlaneSet.mem_planes _ a).mpr hhas, ?_⟩
  exact Nat.lt_of_le_of_ne (hle a) fun hrank => ha (Level.eq_of_le_of_le (Nat.le_of_eq hrank.symm)
    (hle a))

end raises

/-! ### Promotion -/

/-- Whether commands promote an image to another one by means of some requests. -/
structure Promotes (id : ImageId) (image : TrackedImage) (commands : List Command)
    (rs : List Request) (image' : TrackedImage) : Prop where
  blank : image'.blank = image.blank
  levels : ∀ a, image'.levels.get a =
    (commands.map fun command => command.requires image a).foldl max (image.levels.get a)
  raises : ∀ r ∈ rs, r.image = id → r.Raises
  count : (rs.filter fun r => r.image = id).length + image.height ≤ image'.height

theorem promotes_nil {id : ImageId} (image : TrackedImage) {rs : List Request}
    (hrs : ∀ r ∈ rs, r.image ≠ id) : Promotes id image [] rs image := by
  refine ⟨rfl, fun a => rfl, fun r hr hid => absurd hid (hrs r hr), ?_⟩
  have hnone : (rs.filter fun r => r.image = id) = [] :=
    List.filter_eq_nil_iff.mpr fun r hr => by simpa using hrs r hr
  rw [hnone, List.length_nil, Nat.zero_add]

theorem Promotes.append {id : ImageId} {image₁ image₂ image₃ : TrackedImage}
    {commands commands' : List Command} {rs rs' : List Request}
    (h : Promotes id image₁ commands rs image₂) (h' : Promotes id image₂ commands' rs' image₃) :
    Promotes id image₁ (commands ++ commands') (rs ++ rs') image₃ := by
  refine ⟨h'.blank.trans h.blank, fun a => ?_, fun r hr => ?_, ?_⟩
  · simp only [h'.levels, h.levels, List.map_append, List.foldl_append, requires_congr h.blank]
  · exact (List.mem_append.mp hr).elim (h.raises r) (h'.raises r)
  · have hcount := h.count
    have hcount' := h'.count
    rw [List.filter_append, List.length_append]
    omega

theorem promotes_untouched {image : TrackedImage} {command : Command}
    (h : image.normalize command = none) (id : ImageId) :
    Promotes id image [command] [] image := by
  refine ⟨rfl, fun a => ?_, fun r hr => absurd hr List.not_mem_nil, Nat.le_of_eq (Nat.zero_add _)⟩
  have hmax : max (image.levels.get a) (command.requires image a) = image.levels.get a := by
    rw [requires_of_normalize_eq_none h]
    exact Level.max_eq_left (Nat.zero_le _)
  exact hmax.symm

theorem promotes_settle {image : TrackedImage} {command : Command} {x : Accepted} (policy : Policy)
    (hm : image.missing? command = none) (hx : image.normalize command = some x)
    (hcommand : command.isTransition = false) (id : ImageId) (endsPass : Bool) :
    Promotes id image [command]
      (image.request? policy.scheme (x.needs policy) id endsPass).toList
      (image.settle policy.scheme (x.needs policy)) := by
  have hraises : ∀ a, ((x.needs policy).get a).demand.OnlyRaises :=
    Command.only_raises ((kind_of_normalize hx).2.trans hcommand) _
  have hneeds : ∀ a, ((x.needs policy).get a).demand ≠ .any → image.has a = true :=
    fun a => has_of_normalize hm hx
  have hlevels : ∀ a, (image.settledLevels (x.needs policy)).get a =
      max (image.levels.get a) (command.requires image a) := by
    intro a
    rw [get_settledLevels_of_onlyRaises (hraises a), floor_of_normalize hx hcommand]
  refine ⟨rfl, hlevels, fun r hr _ => ?_, ?_⟩
  · rw [Option.mem_toList, request?_eq_some] at hr
    rw [hr.2]
    exact raises_request hraises hr.1 id endsPass
  · cases hmoves : image.moves policy.scheme (x.needs policy) with
    | true =>
        have hlt := height_lt_settle hraises hneeds hmoves
        rw [request?_eq_some.mpr ⟨hmoves, rfl⟩, Option.toList_some]
        refine Nat.le_trans (Nat.add_le_add_right (List.length_filter_le _ _) _) ?_
        rw [List.length_singleton]
        omega
    | false =>
        rw [request?, hmoves]
        rw [if_neg (by simp), Option.toList_none, List.filter_nil, List.length_nil, Nat.zero_add]
        exact height_le_of_levels rfl (image.le_settledLevels hraises)

end TrackedImage

/-! ### Calls -/

/-- The draws, clears and discards that a call on an image comes to. -/
def Call.commands (image : TrackedImage) : Call → List Command
  | record _ command => [command]
  | drawPipeline _ pipeline view => [.draw (pipeline.uses view)]
  | clearView _ flags rects =>
    (if rects.isEmpty then [none] else rects.map some).map fun rect =>
      .clear (.ofFn fun a => flags.names a && image.has a) rect
  | discardSubresources _ first count hasRects =>
    if hasRects || !(image.wholePlanes first count).any then []
    else [.discard (image.wholePlanes first count)]
  | register _ | unregister _ | seed _ _ | closePass | finish | resourceBarrier _ _ _ => []

/-- The commands that a call carries out on an image, without those turned down. -/
def Call.commandsOn (id : ImageId) (image : TrackedImage) (call : Call) : List Command :=
  if call.image? = some id then
    (call.commands image).filter fun command => image.missing? command = none
  else []

/-- Whether a call does nothing to an image but draw, clear and discard.  Finishing works on every
image. -/
def Call.OnlyUses (id : ImageId) (call : Call) : Prop :=
  call ≠ .finish ∧ (call.image? = some id → call.isUse = true)

instance (id : ImageId) (call : Call) : Decidable (call.OnlyUses id) :=
  inferInstanceAs (Decidable (call ≠ .finish ∧ (call.image? = some id → call.isUse = true)))

theorem TrackedImage.commandsOn_congr {image image' : TrackedImage}
    (h : image'.blank = image.blank) (id : ImageId) (call : Call) :
    call.commandsOn id image' = call.commandsOn id image :=
  (congrArg (fun i => call.commandsOn id i) h :)

namespace Tracker

open TrackedImage

variable {t : Tracker} {id : ImageId} {image : TrackedImage} {call : Call}

theorem actions_eq_map_record (hb : t.beliefs id = some image) (huse : call.isUse = true)
    (hcall : call.image? = some id) : t.actions call = (call.commands image).map (.record id) := by
  obtain ⟨image, hi, rfl⟩ := exists_image?_of_beliefs hb
  cases call, huse using Call.isUse_cases with
  | record id' command h => rw [← Option.some_inj.mp hcall]; rfl
  | drawPipeline id' pipeline view => rw [← Option.some_inj.mp hcall]; rfl
  | clearView id' flags rects =>
      obtain rfl := Option.some_inj.mp hcall
      simp only [actions, hi, Call.commands, List.map_map]
      rfl
  | discardSubresources id' first count hasRects =>
      obtain rfl := Option.some_inj.mp hcall
      simp only [actions, hi, Call.commands, apply_ite (List.map (Action.record id')),
        List.map_nil, List.map_cons]
      rfl

theorem acts_of_image?_ne {αs : List Action} (hαs : ∀ α ∈ αs, α.image? ≠ some id)
    (hb : t.beliefs id = some image) :
    (t.acts αs).2.beliefs id = some image ∧ ∀ r ∈ (t.acts αs).1, r.image ≠ id := by
  induction αs generalizing t with
  | nil => exact ⟨hb, fun r hr => absurd hr List.not_mem_nil⟩
  | cons α αs ih =>
      obtain ⟨hα, hrest⟩ := List.forall_mem_cons.mp hαs
      rcases (act_turn t α).2.tracked hb (fun h => hα (by rw [h]; rfl))
          (fun levels h => hα (by rw [h]; rfl)) with ⟨-, hb', hrs⟩ | ⟨x, -, hx, -⟩
      · obtain ⟨hb'', hrs'⟩ := ih hrest hb'
        exact ⟨hb'', fun r hr => (List.mem_append.mp hr).elim (hrs r) (hrs' r)⟩
      · exact absurd (Action.image?_of_settled? (Action.settled?_of_accepted? hx)) hα

/-- Recording a draw, clear or discard promotes the image, unless it is turned down. -/
theorem promotes_record {command : Command} (hcommand : command.isTransition = false)
    (hb : t.beliefs id = some image) :
    ∃ image', (t.act (.record id command)).2.beliefs id = some image' ∧
      Promotes id image ([command].filter fun command => image.missing? command = none)
        (t.act (.record id command)).1 image' := by
  rcases act_of_settled? (.record id command) rfl hb with
    ⟨hx, hrs, hb'⟩ | ⟨x, endsPass, hx, hrs, hb'⟩
  · refine ⟨image, by rw [hb', hb], ?_⟩
    rw [hrs, List.filter_singleton]
    cases hm : image.missing? command with
    | some a => exact promotes_nil image fun r hr => absurd hr List.not_mem_nil
    | none =>
        refine promotes_untouched (Option.eq_none_iff_forall_ne_some.mpr fun x hn => ?_) id
        rw [Action.accepted?_record.mpr ⟨rfl, hm, hn⟩] at hx
        exact absurd hx (by simp)
  · obtain ⟨-, hm, hx⟩ := Action.accepted?_record.mp hx
    refine ⟨_, by rw [hb', Function.update_self], ?_⟩
    have hkept : ([command].filter fun command => image.missing? command = none) = [command] := by
      rw [List.filter_singleton, hm]
      rfl
    rw [hkept, hrs]
    exact promotes_settle t.policy hm hx hcommand id endsPass

theorem promotes_records {commands : List Command}
    (hcommands : ∀ command ∈ commands, command.isTransition = false)
    (hb : t.beliefs id = some image) :
    ∃ image', (t.acts (commands.map (.record id))).2.beliefs id = some image' ∧
      Promotes id image (commands.filter fun command => image.missing? command = none)
        (t.acts (commands.map (.record id))).1 image' := by
  induction commands generalizing t image with
  | nil => exact ⟨image, hb, promotes_nil image fun r hr => absurd hr List.not_mem_nil⟩
  | cons command commands ih =>
      obtain ⟨hcommand, hrest⟩ := List.forall_mem_cons.mp hcommands
      obtain ⟨image', hb', hfirst⟩ := promotes_record hcommand hb
      obtain ⟨image'', hb'', hothers⟩ := ih hrest hb'
      -- whether a command is turned down does not depend on what was recorded before it
      have hmissing : ∀ command, image'.missing? command = image.missing? command :=
        fun command => (congrArg (fun i => i.missing? command) hfirst.blank :)
      simp only [hmissing] at hothers
      refine ⟨image'', hb'', ?_⟩
      rw [← List.singleton_append, List.filter_append]
      exact hfirst.append hothers

/-- A call promotes an image if all that it does to it is to draw, clear and discard. -/
theorem promotes_step (hb : t.beliefs id = some image) (hcall : call.OnlyUses id) :
    ∃ image', (t.step call).2.beliefs id = some image' ∧
      Promotes id image (call.commandsOn id image) (t.step call).1.requestList image' := by
  rw [step_snd, requestList_step, Call.commandsOn]
  split
  · rename_i hid
    have huse := hcall.2 hid
    have hactions := actions_eq_map_record hb huse hid
    rw [hactions]
    refine promotes_records (fun command hcommand => ?_) hb
    obtain ⟨id', command', hα, hkind⟩ := actions_of_isUse huse
      (hactions ▸ List.mem_map_of_mem hcommand)
    rw [(Action.record.inj hα).2]
    exact hkind
  · rename_i hid
    obtain ⟨hb', hrs⟩ := acts_of_image?_ne
      (fun α hα => (image?_of_mem_actions hcall.1 hα).trans_ne hid) hb
    exact ⟨image, hb', promotes_nil image hrs⟩

theorem promotes_after {calls : List Call} (hb : t.beliefs id = some image)
    (hcalls : ∀ call ∈ calls, call.OnlyUses id) :
    ∃ image', (t.after calls).beliefs id = some image' ∧
      Promotes id image (calls.flatMap (Call.commandsOn id image)) (t.requests calls) image' := by
  induction calls generalizing t image with
  | nil => exact ⟨image, hb, promotes_nil image fun r hr => absurd hr List.not_mem_nil⟩
  | cons call calls ih =>
      obtain ⟨hcall, hrest⟩ := List.forall_mem_cons.mp hcalls
      obtain ⟨image', hb', hfirst⟩ := promotes_step hb hcall
      obtain ⟨image'', hb'', hothers⟩ := ih hb' hrest
      rw [funext (commandsOn_congr hfirst.blank id)] at hothers
      refine ⟨image'', hb'', ?_⟩
      rw [requests_cons, List.flatMap_cons]
      exact hfirst.append hothers

/-! ### Repetition -/

theorem image_of_mem_requestList {r : Request} (hcall : call ≠ .finish)
    (hid : call.image? = some id) (hr : r ∈ (t.step call).1.requestList) : r.image = id := by
  obtain ⟨α, hα, image, x, -, hx, -, -⟩ := origin_of_mem_step hr
  have himage := Action.image?_of_settled? (Action.settled?_of_accepted? hx)
  rw [image?_of_mem_actions hcall hα, hid, Option.some_inj] at himage
  exact himage.symm

/-- A use is turned down because of what never changes about its image. -/
theorem rejection?_of_blank {u : Tracker} {image' : TrackedImage}
    (hb : t.beliefs id = some image) (hb' : u.beliefs id = some image')
    (h : image'.blank = image.blank) (huse : call.isUse = true) (hid : call.image? = some id) :
    u.rejection? call = t.rejection? call := by
  obtain ⟨image, hi, rfl⟩ := exists_image?_of_beliefs hb
  obtain ⟨image', hi', rfl⟩ := exists_image?_of_beliefs hb'
  cases call, huse using Call.isUse_cases with
  | record id' command huse =>
      obtain rfl := Option.some_inj.mp hid
      have hmissing : image'.missing? command = image.missing? command :=
        (congrArg (fun i => i.missing? command) h :)
      simp only [rejection?, hi, hi', hmissing]
  | drawPipeline id' pipeline view =>
      obtain rfl := Option.some_inj.mp hid
      rw [rejection?, rejection?, untracked?_of_some hi, untracked?_of_some hi']
  | clearView id' flags rects =>
      obtain rfl := Option.some_inj.mp hid
      rw [rejection?, rejection?, untracked?_of_some hi, untracked?_of_some hi']
  | discardSubresources id' first count hasRects =>
      obtain rfl := Option.some_inj.mp hid
      rw [rejection?, rejection?, untracked?_of_some hi, untracked?_of_some hi']

end Tracker

/-- The answer to a draw, clear or discard that asks for nothing. -/
def Call.quietAnswer : Call → Answer
  | clearView _ _ _ => .requests []
  | register _ | unregister _ | seed _ _ | record _ _ | closePass | finish | resourceBarrier _ _ _
  | discardSubresources _ _ _ _ | drawPipeline _ _ _ => .recorded none

namespace Tracker

open TrackedImage

variable {t : Tracker} {id : ImageId} {image : TrackedImage} {call : Call} {calls : List Call}

theorem report_eq_of_not_rejected {α : Type} {f : α → Answer} {o : Outcome α}
    (h : (report f o).1.rejection? = none) : ∃ x, (report f o).1 = f x := by
  obtain ⟨result, t'⟩ := o
  cases result with
  | ok x => exact ⟨x, rfl⟩
  | error e => exact absurd h (by simp [report, Answer.ofExcept, Answer.rejection?])

theorem report_recorded_eq {o : Outcome (Option Request)}
    (hreason : (report .recorded o).1.rejection? = none)
    (hrs : (report .recorded o).1.requestList = []) : (report .recorded o).1 = .recorded none := by
  obtain ⟨request?, hrequest⟩ := report_eq_of_not_rejected hreason
  rw [hrequest] at hrs ⊢
  rw [Option.toList_eq_nil_iff.mp hrs]

theorem step_eq_quietAnswer (huse : call.isUse = true)
    (hreason : (t.step call).1.rejection? = none) (hrs : (t.step call).1.requestList = []) :
    (t.step call).1 = call.quietAnswer := by
  cases call, huse using Call.isUse_cases with
  | record id' command h => exact report_recorded_eq hreason hrs
  | drawPipeline id' pipeline view => exact report_recorded_eq hreason hrs
  | discardSubresources id' first count hasRects => exact report_recorded_eq hreason hrs
  | clearView id' flags rects =>
      rw [step] at hreason hrs ⊢
      obtain ⟨requests, hrequests⟩ := report_eq_of_not_rejected hreason
      rw [hrequests] at hrs ⊢
      exact congrArg Answer.requests hrs

/-- A use asks for nothing of an image that is at the levels its commands require. -/
theorem requestList_eq_nil (hb : t.beliefs id = some image) (hcall : call.OnlyUses id)
    (hid : call.image? = some id)
    (hmet : ∀ command ∈ call.commandsOn id image, ∀ a,
      command.requires image a ≤ image.levels.get a) :
    (t.step call).1.requestList = [] := by
  obtain ⟨image', -, hpromotes⟩ := promotes_step hb hcall
  have hlevels : ∀ a, image'.levels.get a ≤ image.levels.get a := by
    intro a
    rw [hpromotes.levels]
    refine Level.foldl_max_le_iff.mpr ⟨Level.le_refl _, fun l hl => ?_⟩
    obtain ⟨command, hcommand, rfl⟩ := List.mem_map.mp hl
    exact hmet command hcommand a
  have hheight : image'.height ≤ image.height :=
    height_le_of_levels (congrArg planeSet hpromotes.blank.symm :) hlevels
  -- a request would have raised the image, but there is nowhere to go
  have hnone : ((t.step call).1.requestList.filter fun r => r.image = id) = [] := by
    have hcount := hpromotes.count
    exact List.length_eq_zero_iff.mp (by omega)
  refine List.eq_nil_iff_forall_not_mem.mpr fun r hr => ?_
  have hother := List.filter_eq_nil_iff.mp hnone r hr
  rw [image_of_mem_requestList hcall.1 hid hr] at hother
  exact hother (by simp)

/-- A use that was carried out before need not be asked for again. -/
theorem step_eq_quietAnswer_of_mem {before after : List Call} (hb : t.beliefs id = some image)
    (hcalls : ∀ c ∈ before ++ call :: after, c.OnlyUses id) (hid : call.image? = some id)
    (hreason : ((t.after before).step call).1.rejection? = none) :
    ((t.after (before ++ call :: after)).step call).1 = call.quietAnswer := by
  have hcall : call.OnlyUses id := hcalls call (by simp)
  have huse := hcall.2 hid
  obtain ⟨image₁, hb₁, h₁⟩ :=
    promotes_after hb fun c hc => hcalls c (List.mem_append_left _ hc)
  obtain ⟨image₂, hb₂, h₂⟩ := promotes_after hb hcalls
  refine step_eq_quietAnswer huse ?_ (requestList_eq_nil hb₂ hcall hid fun command hcommand a => ?_)
  · rw [(Tracker.step_rejects _ call).1] at hreason ⊢
    rw [rejection?_of_blank hb₁ hb₂ (h₂.blank.trans h₁.blank.symm) huse hid]
    exact hreason
  · rw [commandsOn_congr h₂.blank] at hcommand
    rw [requires_congr h₂.blank, h₂.levels]
    refine (Level.foldl_max_le_iff.mp (Level.le_refl _)).2 _ (List.mem_map.mpr ⟨command, ?_, rfl⟩)
    exact List.mem_flatMap.mpr ⟨call, by simp, hcommand⟩

/-! ### Runs -/

/-- The same commands take an image to the same levels, in whatever order they are recorded and
whatever happens to other images in between. -/
theorem levels_after_congr {calls' : List Call} (hb : t.beliefs id = some image)
    (hcalls : ∀ call ∈ calls, call.OnlyUses id) (hcalls' : ∀ call ∈ calls', call.OnlyUses id)
    (hcommands : ∀ command, command ∈ calls'.flatMap (Call.commandsOn id image) ↔
      command ∈ calls.flatMap (Call.commandsOn id image)) :
    ((t.after calls').beliefs id).map levels = ((t.after calls).beliefs id).map levels := by
  obtain ⟨image₁, hb₁, h₁⟩ := promotes_after hb hcalls
  obtain ⟨image₂, hb₂, h₂⟩ := promotes_after hb hcalls'
  have hbounds : ∀ a l, image₂.levels.get a ≤ l ↔ image₁.levels.get a ≤ l := by
    intro a l
    rw [h₁.levels, h₂.levels, Level.foldl_max_le_iff, Level.foldl_max_le_iff]
    simp only [List.mem_map, hcommands]
  rw [hb₁, hb₂, Option.map_some, Option.map_some]
  refine congrArg some (PerAspect.ext_get fun a => Level.eq_of_le_of_le ?_ ?_)
  · exact (hbounds a _).mpr (Level.le_refl _)
  · exact (hbounds a _).mp (Level.le_refl _)

/-- Draws, clears and discards only promote, and to the least level that serves them.

Each aspect of an image ends at the greatest of its first level and those that the commands carried
out require of it, in whatever order they come and whatever is done to other images in between.
Every request for the image raises an aspect and lowers none, and there are two for each aspect at
most.  A command that was carried out asks for nothing when it is repeated. -/
theorem uses_only_promote (hi : t.image? id = some image)
    (hcalls : ∀ call ∈ calls, call.OnlyUses id) :
    let commands := calls.flatMap (Call.commandsOn id image)
    (∃ image', (t.after calls).image? id = some image' ∧ ∀ a, image'.levels.get a =
      (commands.map fun command => command.requires image a).foldl max (image.levels.get a)) ∧
    (∀ calls', (∀ call ∈ calls', call.OnlyUses id) →
      (∀ command, command ∈ calls'.flatMap (Call.commandsOn id image) ↔ command ∈ commands) →
        ((t.after calls').image? id).map levels = ((t.after calls).image? id).map levels) ∧
    (∀ r ∈ t.requests calls, r.image = id →
      (∀ a, r.levels.get a ≤ r.after.get a) ∧ ∃ a, r.after.get a ≠ r.levels.get a) ∧
    ((t.requests calls).filter fun r => r.image = id).length ≤ 2 * image.planeSet.planes.length ∧
    ∀ before call after, calls = before ++ call :: after → call.image? = some id →
      ((t.after before).step call).1.rejection? = none →
        ((t.after calls).step call).1 = call.quietAnswer := by
  intro commands
  have hb : t.beliefs id = some image.endPass := beliefs_of_image? hi
  obtain ⟨image', hb', hpromotes⟩ := promotes_after hb hcalls
  refine ⟨?_, fun calls' hcalls' hcommands => ?_, hpromotes.raises, ?_, ?_⟩
  · obtain ⟨image'', hi'', rfl⟩ := exists_image?_of_beliefs hb'
    exact ⟨image'', hi'', hpromotes.levels⟩
  · have hlevels := levels_after_congr hb hcalls hcalls' hcommands
    rw [beliefs, beliefs, Option.map_map, Option.map_map] at hlevels
    exact hlevels
  · have hcount := hpromotes.count
    have hheight := image'.height_le
    rw [show image'.planeSet = image.planeSet from (congrArg planeSet hpromotes.blank :)] at hheight
    omega
  · rintro before call after rfl hid hreason
    exact step_eq_quietAnswer_of_mem hb hcalls hid hreason

/-- A tracker with an image that has both aspects. -/
def packedImage : Tracker :=
  (empty {}).after [.register { handle := 7, format := 129, extent := ⟨64, 64⟩ }]

/-- A test of depth, a clear of both aspects after the pass has ended, and a discard of stencil. -/
def testClearDiscard : List Call :=
  [.record ⟨0, 0⟩ (.draw ⟨⟨true, false⟩, .none⟩), .closePass,
    .record ⟨0, 0⟩ (.clear (.both true) none), .record ⟨0, 0⟩ (.discard ⟨false, true⟩)]

theorem uses_only_promote_packedImage :
    ∃ image, packedImage.image? ⟨0, 0⟩ = some image ∧
      (∀ call ∈ testClearDiscard, call.OnlyUses ⟨0, 0⟩) ∧
      let commands := testClearDiscard.flatMap (Call.commandsOn ⟨0, 0⟩ image)
      (∃ image', (packedImage.after testClearDiscard).image? ⟨0, 0⟩ = some image' ∧
        ∀ a, image'.levels.get a =
          (commands.map fun command => command.requires image a).foldl max (image.levels.get a)) ∧
      (∀ calls', (∀ call ∈ calls', call.OnlyUses ⟨0, 0⟩) →
        (∀ command, command ∈ calls'.flatMap (Call.commandsOn ⟨0, 0⟩ image) ↔
          command ∈ commands) →
          ((packedImage.after calls').image? ⟨0, 0⟩).map levels =
            ((packedImage.after testClearDiscard).image? ⟨0, 0⟩).map levels) ∧
      (∀ r ∈ packedImage.requests testClearDiscard, r.image = ⟨0, 0⟩ →
        (∀ a, r.levels.get a ≤ r.after.get a) ∧ ∃ a, r.after.get a ≠ r.levels.get a) ∧
      ((packedImage.requests testClearDiscard).filter fun r => r.image = ⟨0, 0⟩).length ≤
        2 * image.planeSet.planes.length ∧
      ∀ before call after, testClearDiscard = before ++ call :: after →
        call.image? = some ⟨0, 0⟩ →
          ((packedImage.after before).step call).1.rejection? = none →
            ((packedImage.after testClearDiscard).step call).1 = call.quietAnswer := by
  have htracked : (packedImage.image? ⟨0, 0⟩).isSome = true := by decide
  obtain ⟨image, hi⟩ := Option.isSome_iff_exists.mp htracked
  have huses : ∀ call ∈ testClearDiscard, call.OnlyUses ⟨0, 0⟩ := by decide
  exact ⟨image, hi, huses, uses_only_promote hi huses⟩

end Tracker

end DepthStencil
