import DepthStencil.Proofs.Commitments
import DepthStencil.Proofs.Passes

/-! # What the open pass has recorded

The *pass log* lists the draws and clears of the open pass in normal form, the oldest first
(`Tracker.passLog`).  It starts anew whenever another pass is begun, and it is empty between passes.

`Tracker.Consistent` ties a tracker to its pass log: what the pass counts and marks as written comes
from the log, each image knows what the pass has written to it, and the image of the pass keeps what
the pass committed to and meets the needs of everything in the log.  Every action keeps this up
(`Tracker.act_consistent`), and so it holds after every run (`Tracker.consistent_after`). -/

namespace DepthStencil

/-! ### The log -/

namespace Tracker

/-- The draw or clear that an action records into a pass, in normal form. -/
def rendered? (t : Tracker) (α : Action) : Option Accepted :=
  α.settled?.bind fun id => (t.image? id).bind fun image =>
    (α.accepted? t.policy id image).filter fun x => x.command.isRendering

/-- What is left of the draws and clears of the open pass when `t` becomes `t'`. -/
def keptLog (t t' : Tracker) (log : List Accepted) : List Accepted :=
  if t'.serial? = t.serial? then log else []

/-- The draws and clears of the open pass after an action, where `log` are those before. -/
def extendLog (t : Tracker) (log : List Accepted) (α : Action) : List Accepted :=
  t.keptLog (t.act α).2 log ++ (t.rendered? α).toList

/-- The draws and clears of the open pass after some actions, where `log` are those before. -/
def passLog : Tracker → List Accepted → List Action → List Accepted
  | _, log, [] => log
  | t, log, α :: αs => (t.act α).2.passLog (t.extendLog log α) αs

/-- The draws and clears of the open pass after some calls, where `log` are those before. -/
def passCommands (t : Tracker) (log : List Accepted) : List Call → List Accepted
  | [] => log
  | call :: calls => (t.step call).2.passCommands (t.passLog log (t.actions call)) calls

end Tracker

/-! ### Consistency -/

/-- The aspects that the open pass has written, if it is one on the given image. -/
def Pass.writesOn (pass? : Option Pass) (id : ImageId) : PerAspect Bool :=
  match pass? with
  | none => .both false
  | some p => if p.image = id then p.writes else .both false

/-- Whether a pass and its image are what recording the commands of a log has made of them. -/
structure Pass.Holds (p : Pass) (policy : Policy) (image : TrackedImage) (log : List Accepted) :
    Prop where
  commits : image.Commits p.levels policy.scheme
  begun : log ≠ []
  operations : p.operations = .ofNat log.length
  writes : ∀ a, p.writes.get a = log.any fun x => x.command.writes.get a
  met : ∀ x ∈ log, ∀ a, ((x.needs policy).get a).demand.OnlyRaises ∧
    ((x.needs policy).get a).demand.Meets (image.levels.get a)

/-- Whether a tracker is what it should be when the open pass has recorded the commands of a log. -/
structure Tracker.Consistent (t : Tracker) (log : List Accepted) : Prop where
  idle : t.pass? = none → log = []
  pending : ∀ id image, t.image? id = some image →
    image.pendingWrites = Pass.writesOn t.pass? id
  holds : ∀ p, t.pass? = some p → ∃ image, t.image? p.image = some image ∧
    p.Holds t.policy image log

namespace Pass

/-- Short of the end of the counter, commands are counted one by one. -/
theorem toNat_operations_add {p : Pass} {n : Nat} (h : p.operations.toNat + n < UInt32.size) :
    (p.operations + .ofNat n).toNat = p.operations.toNat + n := by
  have hn : n < UInt32.size := Nat.lt_of_le_of_lt (Nat.le_add_left _ _) h
  rw [UInt32.toNat_add, UInt32.toNat_ofNat_of_lt' hn]
  exact Nat.mod_eq_of_lt h

theorem writesOn_of_not_open {pass? : Option Pass} {id : ImageId}
    (h : isOpenOn pass? id = false) : writesOn pass? id = .both false := by
  cases pass? with
  | none => rfl
  | some p =>
      have hne : ¬ p.image = id := by simpa [isOpenOn] using h
      rw [writesOn, if_neg hne]

end Pass

/-! ### Images -/

namespace Tracker

variable {t : Tracker} {id : ImageId} {image : TrackedImage} {log : List Accepted}

theorem image?_closePass (t : Tracker) (id : ImageId) : t.closePass.image? id =
    if Pass.isOpenOn t.pass? id then (t.image? id).map TrackedImage.endPass else t.image? id := by
  unfold closePass
  cases hp : t.pass? with
  | none => rfl
  | some p =>
      have hopen : Pass.isOpenOn (some p) id = decide (id = p.image) := by
        rw [Pass.isOpenOn, Option.any_some, decide_eq_decide]
        exact eq_comm
      rw [hopen]
      simp only [decide_eq_true_eq]
      exact Registry.get?_modify _ _ _ _

theorem image?_settle (t : Tracker) (id id' : ImageId) (image : TrackedImage)
    (needs : PerAspect Need) (endsPass : Bool) :
    (t.settle id image needs endsPass).2.image? id' =
      if id' = id then (t.image? id').map fun image => image.settle t.policy.scheme needs
      else t.image? id' := Registry.get?_modify _ _ _ _

theorem image?_enterPass (t : Tracker) (id id' : ImageId) (placement : Placement)
    (levels : PerAspect Level) (writes : PerAspect Bool) :
    (t.enterPass id placement levels writes).image? id' =
      if id' = id then (t.image? id').map fun image => image.markWritten writes
      else t.image? id' := Registry.get?_modify _ _ _ _

theorem image?_register (h : t.image? id = some image) (info : Registration) :
    (t.register info).2.image? id = some image := by
  unfold register
  split
  · exact h
  · have hid : id ≠ t.registry.nextId := fun hid => by
      rw [hid, image?, Registry.get?_nextId] at h
      exact absurd h (by simp)
    simp only [image?, Registry.get?_insert]
    rw [if_neg hid]
    exact h

/-! ### Each operation keeps consistency -/

theorem consistent_empty (policy : Policy) : (empty policy).Consistent [] where
  idle _ := rfl
  pending id image h := absurd (beliefs_of_image? h) (by rw [beliefs_empty]; simp)
  holds p h := absurd h (by simp [empty])

theorem Consistent.closePass (h : t.Consistent log) : t.closePass.Consistent [] := by
  refine ⟨fun _ => rfl, fun id image hi => ?_, fun p hp => absurd hp (by simp)⟩
  rw [pass?_closePass]
  rw [image?_closePass] at hi
  cases hopen : Pass.isOpenOn t.pass? id with
  | true =>
      rw [hopen, if_pos rfl] at hi
      obtain ⟨image', -, rfl⟩ := Option.map_eq_some_iff.mp hi
      rfl
  | false =>
      rw [hopen, if_neg (by simp)] at hi
      rw [h.pending id image hi, Pass.writesOn_of_not_open hopen]
      rfl

theorem Consistent.closePassOn (h : t.Consistent log) (id : ImageId) :
    (t.closePassOn id).Consistent (if Pass.isOpenOn t.pass? id then [] else log) := by
  unfold Tracker.closePassOn
  split
  · exact h.closePass
  · exact h

/-- Settling an image keeps consistency if no layout of the open pass moves and no level in it is
lowered. -/
theorem Consistent.settle {needs : PerAspect Need} (h : t.Consistent log)
    (hquiet : Pass.isOpenOn t.pass? id = true → t.image? id = some image ∧
      (∀ a, (needs.get a).demand.OnlyRaises) ∧
        (∀ a, (needs.get a).demand ≠ .any → image.has a = true) ∧
          image.moves t.policy.scheme needs = false) (endsPass : Bool) :
    (t.settle id image needs endsPass).2.Consistent log := by
  refine ⟨h.idle, fun id' image' hi' => ?_, fun p hp => ?_⟩
  · rw [image?_settle] at hi'
    split at hi'
    · obtain ⟨image₀, hi₀, rfl⟩ := Option.map_eq_some_iff.mp hi'
      exact h.pending id' image₀ hi₀
    · exact h.pending id' image' hi'
  · obtain ⟨image₀, hi₀, hholds⟩ := h.holds p hp
    rw [image?_settle]
    by_cases hid : p.image = id
    · obtain ⟨hi, hraises, hneeds, hmoves⟩ := hquiet (Pass.isOpenOn_iff.mpr ⟨p, hp, hid⟩)
      rw [hid, hi, Option.some_inj] at hi₀
      subst hi₀
      rw [if_pos hid, hid, hi]
      refine ⟨_, rfl, hholds.commits.settle hraises hneeds hmoves, hholds.begun,
        hholds.operations, hholds.writes, fun x hx a => ?_⟩
      obtain ⟨honly, hmeets⟩ := hholds.met x hx a
      exact ⟨honly, honly.meets hmeets (image.le_settledLevels hraises a)⟩
    · rw [if_neg hid]
      exact ⟨image₀, hi₀, hholds⟩

theorem Consistent.countDecays (h : t.Consistent log) (changes : PerAspect (Option Change)) :
    (t.countDecays changes).Consistent log := ⟨h.idle, h.pending, h.holds⟩

section enterPass

theorem pendingWrites_enterPass {before writes : PerAspect Bool}
    (h : ∀ id' image, t.image? id' = some image →
      image.pendingWrites = if id = id' then before else .both false)
    (placement : Placement) (levels : PerAspect Level) {p : Pass} (hid : p.image = id)
    (hwrites : p.writes = before.union writes) (id' : ImageId) (image : TrackedImage)
    (hi : (t.enterPass id placement levels writes).image? id' = some image) :
    image.pendingWrites = Pass.writesOn (some p) id' := by
  rw [image?_enterPass] at hi
  rw [Pass.writesOn, hid, hwrites]
  split
  · rename_i he
    rw [if_pos he.symm] at hi
    obtain ⟨image₀, hi₀, rfl⟩ := Option.map_eq_some_iff.mp hi
    have hpending := h id' image₀ hi₀
    rw [if_pos he] at hpending
    rw [TrackedImage.markWritten, hpending]
  · rename_i hne
    rw [if_neg (Ne.symm hne)] at hi
    have hpending := h id' image hi
    rwa [if_neg hne] at hpending

variable {x : Accepted} (hmet : ∀ a, ((x.needs t.policy).get a).demand.OnlyRaises ∧
  ((x.needs t.policy).get a).demand.Meets (image.levels.get a))

include hmet in
/-- A draw or clear that goes into the open pass extends the log. -/
theorem Consistent.enterPass_fold (h : t.Consistent log) (hi : t.image? id = some image)
    (hopen : Pass.isOpenOn t.pass? id = true) (levels : PerAspect Level) :
    (t.enterPass id .fold levels x.command.writes).Consistent (log ++ [x]) := by
  obtain ⟨p, hp, rfl⟩ := Pass.isOpenOn_iff.mp hopen
  obtain ⟨image₀, hi₀, hholds⟩ := h.holds p hp
  obtain rfl := Option.some_inj.mp (hi.symm.trans hi₀)
  have hpass : (t.enterPass p.image .fold levels x.command.writes).pass? =
      some (p.record x.command.writes) := by rw [pass?_enterPass_fold, hp]; rfl
  refine ⟨fun hnone => absurd (hpass.symm.trans hnone) (by simp), ?_, fun p' hp' => ?_⟩
  · rw [hpass]
    refine pendingWrites_enterPass (fun id' image' hi' => ?_) .fold levels rfl rfl
    rw [h.pending id' image' hi', hp]
    rfl
  · obtain rfl := Option.some_inj.mp (hpass.symm.trans hp')
    rw [image?_enterPass, Pass.image_record, if_pos rfl, hi]
    refine ⟨_, rfl, hholds.commits, by simp, ?_, fun a => ?_, fun y hy a => ?_⟩
    · rw [List.length_append, List.length_singleton, UInt32.ofNat_add, ← hholds.operations]
      rfl
    · rw [List.any_append, ← hholds.writes]
      simp [Pass.record]
    · rcases List.mem_append.mp hy with hy | hy
      · exact hholds.met y hy a
      · rw [List.mem_singleton.mp hy]
        exact hmet a

include hmet in
/-- A draw or clear that goes into a new pass starts a new log. -/
theorem Consistent.enterPass_begins (h : t.Consistent log) (hnone : t.pass? = none)
    (hi : t.image? id = some image) {placement : Placement} (hp : placement ≠ .fold) :
    (t.enterPass id placement image.levels x.command.writes).Consistent [x] := by
  have hpass := t.pass?_enterPass_of_ne id image.levels x.command.writes hp
  refine ⟨fun hnone' => absurd (hpass.symm.trans hnone') (by simp), ?_, fun p hp => ?_⟩
  · rw [hpass]
    refine pendingWrites_enterPass (fun id' image' hi' => ?_) placement image.levels rfl rfl
    rw [h.pending id' image' hi', hnone]
    exact (ite_self _).symm
  · obtain rfl := Option.some_inj.mp (hpass.symm.trans hp)
    rw [image?_enterPass, Pass.image_record, Pass.image_start, if_pos rfl, hi]
    refine ⟨_, rfl, image.commits_levels _, by simp, rfl, fun a => ?_, fun y hy a => ?_⟩
    · simp [Pass.record, Pass.start]
    · rw [List.mem_singleton.mp hy]
      exact hmet a

end enterPass

/-! ### Registration -/

theorem not_isOpenOn_closePassOn (t : Tracker) (id : ImageId) :
    Pass.isOpenOn (t.closePassOn id).pass? id = false := by
  rw [pass?_closePassOn]
  split
  · rfl
  · rename_i h
    exact Bool.eq_false_iff.mpr h

/-- A pass is only open on an image that is tracked. -/
theorem Consistent.not_isOpenOn (h : t.Consistent log) (hi : t.image? id = none) :
    Pass.isOpenOn t.pass? id = false := by
  by_contra hopen
  rw [Bool.not_eq_false] at hopen
  obtain ⟨p, hp, rfl⟩ := Pass.isOpenOn_iff.mp hopen
  obtain ⟨image, hi', -⟩ := h.holds p hp
  rw [hi] at hi'
  exact absurd hi' (by simp)

theorem pendingWrites_register {info : Registration} (h : t.image? id = none)
    (hi : (t.register info).2.image? id = some image) : image.pendingWrites = .both false := by
  unfold Tracker.register at hi
  split at hi
  · rw [h] at hi
    exact absurd hi (by simp)
  · simp only [image?, Registry.get?_insert] at hi
    split at hi
    · rw [← Option.some_inj.mp hi]
      rfl
    · exact absurd (h.symm.trans hi) (by simp)

theorem Consistent.register (h : t.Consistent log) (info : Registration) :
    (t.register info).2.Consistent log := by
  obtain ⟨registry, hregistry⟩ := t.exists_register_eq info
  have hpass : (t.register info).2.pass? = t.pass? := by rw [hregistry]
  have hpolicy : (t.register info).2.policy = t.policy := by rw [hregistry]
  refine ⟨fun hnone => h.idle (hpass ▸ hnone), fun id image hi => ?_, fun p hp => ?_⟩
  · rw [hpass]
    cases hi₀ : t.image? id with
    | none => rw [pendingWrites_register hi₀ hi, Pass.writesOn_of_not_open (h.not_isOpenOn hi₀)]
    | some image₀ =>
        rw [image?_register hi₀, Option.some_inj] at hi
        rw [← hi]
        exact h.pending id image₀ hi₀
  · obtain ⟨image, hi, hholds⟩ := h.holds p (hpass ▸ hp)
    rw [hpolicy]
    exact ⟨image, image?_register hi info, hholds⟩

/-- Replacing an image or giving it up keeps consistency, since no pass is open on it any more. -/
theorem Consistent.overwrites {t' : Tracker} (h : t.Consistent log) (ho : Overwrites id t t') :
    t'.Consistent (if Pass.isOpenOn t.pass? id then [] else log) := by
  have hclosed := h.closePassOn id
  have hnot := t.not_isOpenOn_closePassOn id
  refine ⟨fun hnone => hclosed.idle (ho.pass.symm.trans hnone), fun id' image hi => ?_,
    fun p hp => ?_⟩
  · rw [ho.pass]
    by_cases hid : id' = id
    · subst hid
      exact (ho.unwritten image hi).trans (Pass.writesOn_of_not_open hnot).symm
    · exact hclosed.pending id' image ((ho.other id' hid).symm.trans hi)
  · rw [ho.pass] at hp
    obtain ⟨image, hi, hholds⟩ := hclosed.holds p hp
    have hid : p.image ≠ id := fun hid =>
      absurd (Pass.isOpenOn_iff.mpr ⟨p, hp, hid⟩) (by rw [hnot]; simp)
    rw [ho.policy, ← policy_closePassOn t id]
    exact ⟨image, (ho.other p.image hid).trans hi, hholds⟩

/-! ### Each action extends the log -/

theorem Consistent.keptLog_of_closed {t' : Tracker} (h : t.Consistent log)
    (hclosed : t'.pass? = none) : t.keptLog t' log = [] := by
  unfold keptLog
  split
  · rename_i hserial
    rw [serial?, hclosed] at hserial
    exact h.idle (Option.map_eq_none_iff.mp hserial.symm)
  · rfl

theorem keptLog_of_serial {t' : Tracker} (h : t'.serial? = t.serial?) : t.keptLog t' log = log :=
  if_pos h

theorem Consistent.closePass_settle (h : t.Consistent log) (id : ImageId) (image : TrackedImage)
    (needs : PerAspect Need) (endsPass : Bool) :
    (t.closePass.settle id image needs endsPass).2.Consistent [] :=
  h.closePass.settle (fun hopen => absurd hopen (by rw [pass?_closePass]; simp [Pass.isOpenOn]))
    endsPass

theorem exists_image?_closePass_settle (hi : t.image? id = some image) (needs : PerAspect Need)
    (endsPass : Bool) : ∃ image',
      (t.closePass.settle id image needs endsPass).2.image? id = some image' ∧
        image'.levels = image.settledLevels needs := by
  rw [image?_settle, if_pos rfl, image?_closePass, hi]
  split
  · exact ⟨_, rfl, rfl⟩
  · exact ⟨_, rfl, rfl⟩

theorem Records.consistent {command : Command} {x : Accepted} {request? : Option Request}
    {t' : Tracker} (hrecords : Records t id image x request? t')
    (hm : image.missing? command = none) (hx : image.normalize command = some x)
    (h : t.Consistent log) (hi : t.image? id = some image) :
    t'.Consistent (t.keptLog t' log ++ if x.command.isRendering then [x] else []) := by
  have hneeds : ∀ a, ((x.needs t.policy).get a).demand ≠ .any → image.has a = true :=
    fun a => TrackedImage.has_of_normalize hm hx
  have hraises : x.command.isTransition = false →
      ∀ a, ((x.needs t.policy).get a).demand.OnlyRaises := fun hx => Command.only_raises hx _
  have hmeets := image.meets_settledLevels (x.needs t.policy)
  cases hrecords with
  | folds hrendering hopen hmoves =>
      have hraises := hraises (Command.isTransition_of_isRendering hrendering)
      have hsettled := h.settle (fun _ => ⟨hi, hraises, hneeds, hmoves⟩) false
      have himage : (t.settle id image (x.needs t.policy) false).2.image? id =
          some (image.settle t.policy.scheme (x.needs t.policy)) := by
        rw [image?_settle, if_pos rfl, hi]
        rfl
      rw [keptLog_of_serial (serial?_eq (by simp) (by simp)), if_pos hrendering]
      refine hsettled.enterPass_fold (fun a => ?_) himage hopen _
      exact ⟨hraises a, hmeets a⟩
  | begins hrendering hp hmoves =>
      have hraises := hraises (Command.isTransition_of_isRendering hrendering)
      obtain ⟨image', hi', hlevels⟩ :=
        exists_image?_closePass_settle hi (x.needs t.policy) t.pass?.isSome
      rw [keptLog, if_neg (serial?_of_begins t id _ _ hp image _ _), if_pos hrendering,
        List.nil_append, ← hlevels]
      refine (h.closePass_settle id image _ _).enterPass_begins (fun a => ?_)
        (pass?_closePass t) hi' hp
      have hpolicy : (t.closePass.settle id image (x.needs t.policy) t.pass?.isSome).2.policy =
          t.policy := policy_closePass t
      rw [hpolicy, hlevels]
      exact ⟨hraises a, hmeets a⟩
  | ends htransition =>
      have hrendering : x.command.isRendering = false := by
        cases hr : x.command.isRendering with
        | false => rfl
        | true => exact absurd htransition (by rw [Command.isTransition_of_isRendering hr]; simp)
      have hclosed : ((t.closePass.settle id image (x.needs t.policy) t.pass?.isSome).2.countDecays
          (image.changes (x.needs t.policy))).pass? = none := pass?_closePass t
      rw [h.keptLog_of_closed hclosed, hrendering]
      exact (h.closePass_settle id image _ _).countDecays _
  | drops hdiscard hmoves =>
      have hclosed : (t.closePass.settle id image (x.needs t.policy) t.pass?.isSome).2.pass? =
          none := pass?_closePass t
      rw [h.keptLog_of_closed hclosed, hdiscard]
      exact h.closePass_settle id image _ _
  | stays hdiscard hmoves =>
      have hraises := hraises (by rw [hdiscard]; rfl)
      have hsettled := h.settle (fun _ => ⟨hi, hraises, hneeds, hmoves⟩) false
      rw [keptLog_of_serial (serial?_eq (by simp) (by simp)), hdiscard]
      rw [← List.append_nil log] at hsettled
      exact hsettled

theorem rendered?_record (hi : t.image? id = some image) (command : Command) :
    t.rendered? (.record id command) =
      (image.accept id command).toOption.join.filter fun x => x.command.isRendering := by
  rw [rendered?, Action.settled?, Option.bind_some, hi, Option.bind_some, Action.accepted?,
    if_pos rfl]

theorem Consistent.record (h : t.Consistent log) (id : ImageId) (command : Command) :
    (t.act (.record id command)).2.Consistent (t.extendLog log (.record id command)) := by
  rcases t.record_cases id command with
    ⟨e, ha, he⟩ | ⟨image, hi, ha, he⟩ | ⟨image, x, request?, t', hi, ha, hrecords, he⟩
  · have hnone : t.rendered? (.record id command) = none := by
      cases hi : t.image? id with
      | none => rw [rendered?, Action.settled?, Option.bind_some, hi]; rfl
      | some image => rw [rendered?_record hi, ha image hi]; rfl
    rw [extendLog, act, he, hnone, keptLog_of_serial rfl]
    simpa using h
  · rw [extendLog, act, he, rendered?_record hi, ha, keptLog_of_serial rfl]
    simpa [Except.toOption] using h
  · obtain ⟨hm, hx⟩ := TrackedImage.normalize_of_accept ha
    have hrendered : (t.rendered? (.record id command)).toList =
        if x.command.isRendering then [x] else [] := by
      rw [rendered?_record hi, ha]
      cases hr : x.command.isRendering <;> simp [Except.toOption, Option.filter, hr]
    rw [extendLog, act, he, hrendered]
    exact hrecords.consistent hm hx h hi

theorem extendLog_of_serial (α : Action) (hα : t.rendered? α = none)
    (hserial : (t.act α).2.serial? = t.serial?) : t.extendLog log α = log := by
  rw [extendLog, hα, keptLog_of_serial hserial, Option.toList_none, List.append_nil]

theorem Consistent.extendLog_of_overwrites (h : t.Consistent log) (α : Action)
    (hα : t.rendered? α = none) (ho : Overwrites id t (t.act α).2) :
    t.extendLog log α = if Pass.isOpenOn t.pass? id then [] else log := by
  have hpass := ho.pass
  rw [pass?_closePassOn] at hpass
  split
  · rename_i hopen
    rw [if_pos hopen] at hpass
    rw [extendLog, hα, h.keptLog_of_closed hpass]
    rfl
  · rename_i hclosed
    rw [if_neg hclosed] at hpass
    exact extendLog_of_serial α hα (serial?_eq (by rw [hpass]) (by rw [ho.stats]))

theorem Consistent.relax (h : t.Consistent log) (hclosed : t.pass? = none) (id : ImageId) :
    (t.relax id).2.Consistent log := by
  rcases t.relax_cases id with ⟨hrelax, -⟩ | ⟨image, targets, -, -, hrelax⟩
  · rw [hrelax]
    exact h
  · rw [hrelax]
    refine (h.settle (fun hopen => ?_) false).countDecays _
    exact absurd hopen (by rw [hclosed]; simp [Pass.isOpenOn])

theorem rendered?_relax (t : Tracker) (id : ImageId) : t.rendered? (.relax id) = none := by
  rw [rendered?, Action.settled?, Option.bind_some]
  cases t.image? id with
  | none => rfl
  | some image =>
      rw [Option.bind_some, Action.accepted?, if_pos rfl]
      cases t.policy.restTargets? image.presentLevels <;> rfl

/-- Every action extends the log, as long as images are brought to rest between passes only. -/
theorem Consistent.act (h : t.Consistent log) (α : Action)
    (hrelax : ∀ id, α = .relax id → t.pass? = none) :
    (t.act α).2.Consistent (t.extendLog log α) := by
  cases α with
  | register info =>
      obtain ⟨registry, hregistry⟩ := t.exists_register_eq info
      rw [extendLog_of_serial (.register info) rfl (by rw [Tracker.act, hregistry]; rfl)]
      exact h.register info
  | unregister id =>
      have ho := t.overwrites_unregister id
      rw [h.extendLog_of_overwrites (.unregister id) rfl ho]
      exact h.overwrites ho
  | seed id levels =>
      have ho := t.overwrites_seed id levels
      rw [h.extendLog_of_overwrites (.seed id levels) rfl ho]
      exact h.overwrites ho
  | record id command => exact h.record id command
  | closePass =>
      have hclosed : (t.act .closePass).2.pass? = none := pass?_closePass t
      rw [extendLog, h.keptLog_of_closed hclosed]
      exact h.closePass
  | relax id =>
      have hserial : (t.relax id).2.serial? = t.serial? :=
        serial?_eq (by rw [pass?_relax]) (passes_relax t id)
      rw [extendLog_of_serial (.relax id) (rendered?_relax t id) hserial]
      exact h.relax (hrelax id rfl) id

/-! ### Runs -/

theorem Consistent.acts {αs : List Action} (h : t.Consistent log) (hαs : ∀ id, .relax id ∉ αs) :
    (t.acts αs).2.Consistent (t.passLog log αs) := by
  induction αs generalizing t log with
  | nil => exact h
  | cons α αs ih =>
      refine ih (h.act α fun id hα => ?_) fun id hid => hαs id (List.mem_cons_of_mem α hid)
      exact absurd (hα ▸ List.mem_cons_self) (hαs id)

theorem Consistent.acts_relax (h : t.Consistent log) (hclosed : t.pass? = none)
    (ids : List ImageId) :
    (t.acts (ids.map .relax)).2.Consistent (t.passLog log (ids.map .relax)) := by
  induction ids generalizing t log with
  | nil => exact h
  | cons id ids ih =>
      exact ih (h.act (.relax id) fun _ _ => hclosed) ((pass?_relax t id).trans hclosed)

theorem Consistent.step (h : t.Consistent log) (call : Call) :
    (t.step call).2.Consistent (t.passLog log (t.actions call)) := by
  rw [step_snd]
  by_cases hfinish : call = .finish
  · subst hfinish
    exact (h.act .closePass fun _ hα => absurd hα (by simp)).acts_relax (pass?_closePass t) _
  · refine h.acts fun id hid => hfinish ?_
    exact call_of_mem_actions hid rfl

theorem Consistent.after (h : t.Consistent log) (calls : List Call) :
    (t.after calls).Consistent (t.passCommands log calls) := by
  induction calls generalizing t log with
  | nil => exact h
  | cons call calls ih => exact ih (h.step call)

theorem consistent_after (policy : Policy) (calls : List Call) :
    ((empty policy).after calls).Consistent ((empty policy).passCommands [] calls) :=
  (consistent_empty policy).after calls

/-- The pass and the images agree on what was written.  An open pass is on an image that is tracked,
it counts the draws and clears since it was begun as far as its counter goes, and whatever they
wrote can still be written.  Between passes there are none, and no other image has writes
pending. -/
theorem pass_agrees_with_images (policy : Policy) (calls : List Call) :
    let t := (empty policy).after calls
    let log := (empty policy).passCommands [] calls
    (∀ p, t.pass? = some p → ∃ image, t.image? p.image = some image ∧
        (1 ≤ log.length ∧ p.operations = .ofNat log.length ∧
          (log.length < UInt32.size → 1 ≤ p.operations ∧ p.operations.toNat = log.length)) ∧
        (∀ a, p.writes.get a = log.any fun x => x.command.writes.get a) ∧
        image.pendingWrites = p.writes ∧
        ∀ a, p.writes.get a = true → image.levels.get a = .writable) ∧
      (t.pass? = none → log = []) ∧
      ∀ id image, t.image? id = some image → Pass.isOpenOn t.pass? id = false →
        image.pendingWrites = .both false := by
  intro t log
  have h : t.Consistent log := consistent_after policy calls
  refine ⟨fun p hp => ?_, h.idle, fun id image hi hclosed => ?_⟩
  · obtain ⟨image, hi, hholds⟩ := h.holds p hp
    have hbegun : 1 ≤ log.length := List.length_pos_iff.mpr hholds.begun
    refine ⟨image, hi, ⟨hbegun, hholds.operations, fun hlt => ?_⟩, hholds.writes, ?_,
      fun a hwrites => ?_⟩
    · have hcount : p.operations.toNat = log.length := by
        rw [hholds.operations, UInt32.toNat_ofNat_of_lt' hlt]
      exact ⟨UInt32.le_iff_toNat_le.mpr (hcount ▸ hbegun), hcount⟩
    · rw [h.pending p.image image hi, hp, Pass.writesOn, if_pos rfl]
    · rw [hholds.writes, List.any_eq_true] at hwrites
      obtain ⟨x, hx, hwrites⟩ := hwrites
      obtain ⟨discards, hneed⟩ := Accepted.needs_of_writes hwrites t.policy
      have hmeets := (hholds.met x hx a).2
      rw [hneed] at hmeets
      exact Level.eq_writable_of_le hmeets
  · rw [h.pending id image hi, Pass.writesOn_of_not_open hclosed]

end Tracker

end DepthStencil
