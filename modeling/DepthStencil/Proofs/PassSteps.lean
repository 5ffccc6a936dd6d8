import DepthStencil.Proofs.PassLog

/-! # Steps inside a render pass

A call that leaves the open pass open asks for no layouts and lowers no level of the image of the
pass (`Tracker.pass_keeps_layouts`).

A call may take several actions.  The clock of a tracker runs on whenever a pass is begun or ends
and never runs back (`Tracker.clock_le_act`), so a pass that is open before and after a call is open
all the while. -/

namespace DepthStencil

namespace Tracker

/-! ### The clock of the passes -/

/-- The number of times that a pass was begun or ended, up to a constant. -/
def clock (t : Tracker) : Nat := 2 * t.stats.passes + if t.pass?.isSome then 0 else 1

theorem clock_le {t t' : Tracker} (hpasses : t'.stats.passes = t.stats.passes)
    (hopen : t'.pass?.isSome = true → t.pass?.isSome = true) : t.clock ≤ t'.clock := by
  unfold clock
  rw [hpasses]
  refine Nat.add_le_add_left ?_ _
  split
  · exact Nat.zero_le _
  · rename_i hclosed
    exact Nat.le_of_eq (if_neg fun h => hclosed (hopen h)).symm

theorem clock_le_of_begun {t t' : Tracker} (h : t'.stats.passes = t.stats.passes + 1) :
    t.clock ≤ t'.clock := by
  unfold clock
  rw [h]
  split <;> split <;> omega

/-- A pass that is open when the clock stands still stays open. -/
theorem serial?_of_clock {t t' : Tracker} (hopen : t.pass?.isSome = true)
    (h : t'.clock = t.clock) : t'.serial? = t.serial? := by
  unfold clock at h
  rw [if_pos hopen] at h
  split at h
  · rename_i hopen'
    exact serial?_eq (hopen'.trans hopen.symm) (by omega)
  · omega

theorem clock_of_serial? {t t' : Tracker} (hopen : t.pass?.isSome = true)
    (h : t'.serial? = t.serial?) : t'.clock = t.clock := by
  obtain ⟨p, hp⟩ := Option.isSome_iff_exists.mp hopen
  rw [serial?, serial?, hp, Option.map_some] at h
  obtain ⟨p', hp', hpasses⟩ := Option.map_eq_some_iff.mp h
  rw [clock, clock, hp, hp', hpasses]
  rfl

variable {t t' : Tracker} {id : ImageId} {image : TrackedImage} {x : Accepted}
  {request? : Option Request}

theorem Records.clock_le (h : Records t id image x request? t') : t.clock ≤ t'.clock := by
  cases h with
  | folds => exact Tracker.clock_le (by simp) (by simp)
  | begins hx hp =>
      exact clock_le_of_begun (passes_of_begins t id _ _ hp image _ _)
  | ends => exact Tracker.clock_le (by simp) (by simp)
  | drops => exact Tracker.clock_le (by simp) (by simp)
  | stays => exact Tracker.clock_le (by simp) (by simp)

theorem Overwrites.clock_le (h : Overwrites id t t') : t.clock ≤ t'.clock := by
  refine Tracker.clock_le (by rw [h.stats]) fun hopen => ?_
  rw [h.pass, pass?_closePassOn] at hopen
  split at hopen
  · exact absurd hopen (by simp)
  · exact hopen

theorem clock_le_act (t : Tracker) (α : Action) : t.clock ≤ (t.act α).2.clock := by
  cases α with
  | register info =>
      obtain ⟨registry, hregistry⟩ := t.exists_register_eq info
      exact Nat.le_of_eq (by rw [act, hregistry]; rfl)
  | unregister id => exact (t.overwrites_unregister id).clock_le
  | seed id levels => exact (t.overwrites_seed id levels).clock_le
  | record id command =>
      rw [act]
      rcases t.record_cases id command with
        ⟨e, -, he⟩ | ⟨image, -, -, he⟩ | ⟨image, x, request?, t', -, -, hrecords, he⟩
      · exact Nat.le_of_eq (by rw [he])
      · exact Nat.le_of_eq (by rw [he])
      · rw [he]
        exact hrecords.clock_le
  | closePass => exact Tracker.clock_le (by rw [act, stats_closePass]) (by simp [act])
  | relax id =>
      exact Tracker.clock_le (passes_relax t id) (by rw [act, pass?_relax]; exact fun h => h)

theorem clock_le_acts (t : Tracker) (αs : List Action) : t.clock ≤ (t.acts αs).2.clock := by
  induction αs generalizing t with
  | nil => exact Nat.le_refl _
  | cons α αs ih => exact Nat.le_trans (t.clock_le_act α) (ih (t.act α).2)

/-- A pass that is open before and after some actions is open after the first of them. -/
theorem serial?_act_of_acts {α : Action} {αs : List Action} (hopen : t.pass?.isSome = true)
    (h : (t.acts (α :: αs)).2.serial? = t.serial?) :
    (t.act α).2.serial? = t.serial? ∧ ((t.act α).2.acts αs).2.serial? = (t.act α).2.serial? := by
  have hclock := clock_of_serial? hopen h
  have hfirst : (t.act α).2.serial? = t.serial? :=
    serial?_of_clock hopen (Nat.le_antisymm (hclock ▸ clock_le_acts _ αs) (t.clock_le_act α))
  exact ⟨hfirst, h.trans hfirst.symm⟩

/-! ### Actions that leave the open pass open -/

/-- Whether an image stays tracked and none of its levels is lowered. -/
def Raises (t t' : Tracker) (id : ImageId) : Prop :=
  ∀ image, t.image? id = some image → ∃ image', t'.image? id = some image' ∧
    ∀ a, image.levels.get a ≤ image'.levels.get a

theorem raises_of_eq (h : t'.image? id = t.image? id) : t.Raises t' id :=
  fun image hi => ⟨image, h.trans hi, fun _ => Level.le_refl _⟩

theorem Raises.trans {t'' : Tracker} (h : t.Raises t' id) (h' : t'.Raises t'' id) :
    t.Raises t'' id := by
  intro image hi
  obtain ⟨image', hi', hle⟩ := h image hi
  obtain ⟨image'', hi'', hle'⟩ := h' image' hi'
  exact ⟨image'', hi'', fun a => Level.le_trans (hle a) (hle' a)⟩

theorem raises_settle {needs : PerAspect Need}
    (hraises : ∀ a, (needs.get a).demand.OnlyRaises) (t : Tracker) (id id' : ImageId)
    (image : TrackedImage) (endsPass : Bool) :
    t.Raises (t.settle id image needs endsPass).2 id' := by
  intro image' hi'
  rw [image?_settle, hi']
  split
  · exact ⟨_, rfl, TrackedImage.le_settledLevels image' hraises⟩
  · exact ⟨_, rfl, fun _ => Level.le_refl _⟩

theorem raises_enterPass (t : Tracker) (id id' : ImageId) (placement : Placement)
    (levels : PerAspect Level) (writes : PerAspect Bool) :
    t.Raises (t.enterPass id placement levels writes) id' := by
  intro image' hi'
  rw [image?_enterPass, hi']
  split
  · exact ⟨_, rfl, fun _ => Level.le_refl _⟩
  · exact ⟨_, rfl, fun _ => Level.le_refl _⟩

/-- A step that leaves the pass on an image open, asks for nothing and lowers no level of the
image. -/
structure Within (id : ImageId) (t : Tracker) (rs : List Request) (t' : Tracker) : Prop where
  quiet : rs = []
  stays : Pass.isOpenOn t'.pass? id = true
  raises : t.Raises t' id

theorem isSome_of_serial? (hopen : t.pass?.isSome = true) (h : t'.serial? = t.serial?) :
    t'.pass?.isSome = true := by
  have hsome := congrArg Option.isSome h
  rwa [serial?, serial?, Option.isSome_map, Option.isSome_map, hopen] at hsome

theorem within_refl (hopen : Pass.isOpenOn t.pass? id = true) : Within id t [] t :=
  ⟨rfl, hopen, raises_of_eq rfl⟩

theorem Records.within {id' : ImageId} (h : Records t id' image x request? t')
    (hopen : Pass.isOpenOn t.pass? id = true) (hserial : t'.serial? = t.serial?) :
    Within id t request?.toList t' := by
  have hsome := Pass.isSome_of_isOpenOn hopen
  have hsome' := isSome_of_serial? hsome hserial
  have hraises : x.command.isTransition = false →
      ∀ a, ((x.needs t.policy).get a).demand.OnlyRaises := fun hx => Command.only_raises hx _
  cases h with
  | folds hrendering =>
      refine ⟨rfl, ?_, ?_⟩
      · rw [pass?_enterPass_fold, Pass.isOpenOn_map_record]
        exact hopen
      · have hraises := hraises (Command.isTransition_of_isRendering hrendering)
        exact (raises_settle hraises t id' id image false).trans (raises_enterPass _ _ _ _ _ _)
  | begins hrendering hp =>
      exact absurd hserial (serial?_of_begins t id' _ _ hp image _ _)
  | ends => exact absurd hsome' (by simp)
  | drops => exact absurd hsome' (by simp)
  | stays hdiscard =>
      exact ⟨rfl, hopen, raises_settle (hraises (by rw [hdiscard]; rfl)) t id' id image false⟩

/-- An image on which the open pass stays open is not the one that is overwritten. -/
theorem Overwrites.within {id' : ImageId} (h : Overwrites id' t t')
    (hopen : Pass.isOpenOn t.pass? id = true) (hserial : t'.serial? = t.serial?) :
    Within id t [] t' := by
  have hsome' := isSome_of_serial? (Pass.isSome_of_isOpenOn hopen) hserial
  have hclosed : ¬ Pass.isOpenOn t.pass? id' = true := by
    intro hopen'
    rw [h.pass, pass?_closePassOn, if_pos hopen'] at hsome'
    exact absurd hsome' (by simp)
  have hid : id ≠ id' := fun hid => hclosed (hid ▸ hopen)
  have hsame : t.closePassOn id' = t := if_neg hclosed
  exact ⟨rfl, by rw [h.pass, hsame]; exact hopen, raises_of_eq (by rw [h.other id hid, hsame])⟩

theorem act_within {α : Action} (hα : ∀ id', α ≠ .relax id')
    (hopen : Pass.isOpenOn t.pass? id = true) (hserial : (t.act α).2.serial? = t.serial?) :
    Within id t (t.act α).1 (t.act α).2 := by
  cases α with
  | register info =>
      refine ⟨rfl, ?_, fun image hi => ⟨image, image?_register hi info, fun _ => Level.le_refl _⟩⟩
      obtain ⟨registry, hregistry⟩ := t.exists_register_eq info
      rw [act, hregistry]
      exact hopen
  | unregister id' => exact (t.overwrites_unregister id').within hopen hserial
  | seed id' levels => exact (t.overwrites_seed id' levels).within hopen hserial
  | record id' command =>
      rw [act] at hserial ⊢
      rcases t.record_cases id' command with
        ⟨e, -, he⟩ | ⟨image, -, -, he⟩ | ⟨image, x, request?, t', -, -, hrecords, he⟩
      · rw [he]
        exact within_refl hopen
      · rw [he]
        exact within_refl hopen
      · rw [he] at hserial ⊢
        exact hrecords.within hopen hserial
  | closePass =>
      have hsome' := isSome_of_serial? (Pass.isSome_of_isOpenOn hopen) hserial
      exact absurd hsome' (by simp [act])
  | relax id' => exact absurd rfl (hα id')

theorem acts_within {αs : List Action} (hαs : ∀ id', .relax id' ∉ αs)
    (hopen : Pass.isOpenOn t.pass? id = true) (hserial : (t.acts αs).2.serial? = t.serial?) :
    Within id t (t.acts αs).1 (t.acts αs).2 := by
  induction αs generalizing t with
  | nil => exact within_refl hopen
  | cons α αs ih =>
      obtain ⟨hfirst, hrest⟩ := serial?_act_of_acts (Pass.isSome_of_isOpenOn hopen) hserial
      have hact := act_within (fun id' hα => hαs id' (hα ▸ List.mem_cons_self)) hopen hfirst
      have hacts := ih (fun id' hid => hαs id' (List.mem_cons_of_mem α hid)) hact.stays hrest
      refine ⟨?_, hacts.stays, hact.raises.trans hacts.raises⟩
      rw [acts, hact.quiet, hacts.quiet]
      rfl

/-! ### Calls -/

theorem step_within {call : Call} (hopen : Pass.isOpenOn t.pass? id = true)
    (hserial : (t.step call).2.serial? = t.serial?) :
    Within id t (t.step call).1.requestList (t.step call).2 := by
  rw [requestList_step, step_snd]
  rw [step_snd] at hserial
  refine acts_within (fun id' hid => ?_) hopen hserial
  -- finishing leaves no pass open
  have hfinish : call = .finish := call_of_mem_actions hid rfl
  have hclosed : (t.step call).2.pass? = none := by
    rw [hfinish]
    exact (pass?_relaxAll _ _).trans (pass?_closePass t)
  have hsome' := isSome_of_serial? (Pass.isSome_of_isOpenOn hopen) hserial
  rw [← step_snd, hclosed] at hsome'
  exact absurd hsome' (by simp)

/-- While a pass is open, its image keeps the layouts that the pass committed to and meets the needs
of every draw and clear of the pass.  A call that leaves the pass open asks for no layouts and
lowers no level of the image. -/
theorem pass_keeps_layouts (policy : Policy) (calls : List Call) :
    let t := (empty policy).after calls
    let log := (empty policy).passCommands [] calls
    ∀ p, t.pass? = some p → ∃ image, t.image? p.image = some image ∧
      image.Commits p.levels policy.scheme ∧
      (∀ x ∈ log, ∀ a, ((x.needs policy).get a).demand.Meets (image.levels.get a)) ∧
      ∀ call, (t.step call).2.serial? = t.serial? → (t.step call).1.requestList = [] ∧
        ∃ image', (t.step call).2.image? p.image = some image' ∧
          ∀ a, image.levels.get a ≤ image'.levels.get a := by
  intro t log p hp
  have hpolicy : t.policy = policy := policy_after (empty policy) calls
  obtain ⟨image, hi, hholds⟩ := (consistent_after policy calls).holds p hp
  rw [hpolicy] at hholds
  refine ⟨image, hi, hholds.commits, fun x hx a => (hholds.met x hx a).2, fun call hserial => ?_⟩
  have hwithin := step_within (Pass.isOpenOn_iff.mpr ⟨p, hp, rfl⟩) hserial
  exact ⟨hwithin.quiet, hwithin.raises image hi⟩

/-- A draw that writes depth and tests stencil, and a clear of stencil in another pass. -/
def splitPass : List Call :=
  [.register { handle := 7, format := 129, extent := ⟨64, 64⟩ },
    .record ⟨0, 0⟩ (.draw ⟨⟨true, true⟩, ⟨true, false⟩⟩),
    .record ⟨0, 0⟩ (.clear ⟨false, true⟩ none)]

theorem pass_keeps_layouts_splitPass :
    ∃ p, ((empty {}).after splitPass).pass? = some p ∧
      ∃ image, ((empty {}).after splitPass).image? p.image = some image ∧
        image.Commits p.levels ({} : Policy).scheme ∧
        (∀ x ∈ (empty {}).passCommands [] splitPass, ∀ a,
          ((x.needs {}).get a).demand.Meets (image.levels.get a)) ∧
        ∀ call, (((empty {}).after splitPass).step call).2.serial? =
            ((empty {}).after splitPass).serial? →
          (((empty {}).after splitPass).step call).1.requestList = [] ∧
            ∃ image', (((empty {}).after splitPass).step call).2.image? p.image = some image' ∧
              ∀ a, image.levels.get a ≤ image'.levels.get a := by
  have hopen : ((empty {}).after splitPass).pass?.isSome = true := by decide
  obtain ⟨p, hp⟩ := Option.isSome_iff_exists.mp hopen
  exact ⟨p, hp, pass_keeps_layouts {} splitPass p hp⟩

end Tracker

end DepthStencil
