import DepthStencil.Proofs.CommandLog
import DepthStencil.Proofs.WriteHistories

/-! # Attachment writes and the barriers after them

An aspect that was written stays in its write layout until a barrier takes it in or it is forgotten
(`TrackedImage.Written.settle`).  The barrier makes the attachment write available if nothing but
writes came in between.  A test of the aspect takes the place of the write in what is owed, although
it was made inside the same pass and waited for nothing, and then the write is made available only
by chance: by the barrier of a shared layout that has to wait for a write to the other aspect
(`Tracker.flushed_iff`). -/

namespace DepthStencil

/-! ### Uses of an aspect by commands -/

namespace Command

/-- How a command accesses an aspect. -/
def access (command : Command) (a : Aspect) : Access := ((command.needs false).get a).access

/-- Whether a command gives an aspect the undefined level as its target. -/
def forgets (a : Aspect) : Command → Bool
  | transition targets => targets.get a = some .undefined
  | draw _ | clear _ _ | discard _ => false

/-- Whether an aspect was only tested since it was last written, after some commands and if `tested`
says so of the time before them. -/
def testedSince (a : Aspect) (tested : Bool) (commands : List Command) : Bool :=
  commands.foldl
    (fun tested command =>
      if command.access a = .none then tested else command.access a ≠ .write)
    tested

theorem testedSince_append (a : Aspect) (tested : Bool) (commands commands' : List Command) :
    testedSince a tested (commands ++ commands') =
      testedSince a (testedSince a tested commands) commands' := List.foldl_append

end Command

theorem Accepted.access_needs (x : Accepted) (policy : Policy) (a : Aspect) :
    ((x.needs policy).get a).access = x.command.access a := by
  rw [needs, Command.access]
  cases x.command with
  | draw uses => rfl
  | discard aspects => rfl
  | transition targets => rfl
  | clear aspects rect =>
      rw [Command.get_needs_clear, Command.get_needs_clear]
      cases aspects.get a <;> rfl

theorem Accepted.needs_ne_of_not_forgets {x : Accepted} {a : Aspect}
    (h : x.command.forgets a = false) (policy : Policy) :
    (x.needs policy).get a ≠ .toBe .undefined := by
  obtain ⟨command, coversImage⟩ := x
  intro hbe
  rw [needs] at hbe
  cases command with
  | draw uses =>
      rw [Command.get_needs_draw] at hbe
      unfold Use.need at hbe
      split at hbe
      · exact absurd hbe (by decide)
      · split at hbe <;> exact absurd hbe (by decide)
  | clear aspects rect =>
      rw [Command.get_needs_clear] at hbe
      split at hbe <;> exact absurd hbe (by simp [Need.toWrite, Need.none, Need.toBe])
  | discard aspects =>
      rw [Command.get_needs_discard] at hbe
      split at hbe <;> exact absurd hbe (by simp [Need.toWrite, Need.none, Need.toBe])
  | transition targets =>
      rw [Command.get_needs_transition] at hbe
      rw [Command.forgets] at h
      cases ht : targets.get a with
      | none =>
          rw [ht] at hbe
          exact absurd hbe (by decide)
      | some level =>
          rw [ht] at hbe h
          cases level with
          | undefined => exact absurd h (by decide)
          | readOnly => exact absurd hbe (by decide)
          | writable => exact absurd hbe (by decide)

/-! ### Written aspects -/

namespace TrackedImage

/-- An aspect in its write layout whose last write is on record, and maybe tests after it. -/
structure Written (image : TrackedImage) (a : Aspect) (tested : Bool) : Prop where
  present : image.has a = true
  level : image.levels.get a = .writable
  history : image.histories.get a =
    ⟨Access.write.writePart, if tested then Access.test.stages else 0⟩

variable {image : TrackedImage} {scheme : LayoutScheme} {needs : PerAspect Need} {a : Aspect}
  {tested : Bool}

theorem written_of_toWrite (hhas : image.has a = true) {discards : Bool}
    (hneed : needs.get a = .toWrite discards) : (image.settle scheme needs).Written a false := by
  have hlevel : (image.settledLevels needs).get a = .writable := by
    have hmeets := image.meets_settledLevels needs a
    rw [hneed, Need.toWrite, Demand.Meets] at hmeets
    cases hl : (image.settledLevels needs).get a with
    | undefined => rw [hl] at hmeets; exact absurd hmeets (by decide)
    | readOnly => rw [hl] at hmeets; exact absurd hmeets (by decide)
    | writable => rfl
  have haccess : (needs.get a).access = .write := by rw [hneed, Need.toWrite]
  have hne : Access.write ≠ Access.none := by decide
  refine ⟨hhas, hlevel, ?_⟩
  rw [get_histories_settle, effect]
  cases hc : (image.changes needs).get a with
  | some c =>
      rw [get_settledLevels_of_some hc] at hlevel
      simp only [hlevel, Level.isDefined, if_true, haccess]
      rfl
  | none =>
      simp only
      split
      · rw [carriedAccess, haccess, if_neg hne]
        rfl
      · rw [haccess]
        rfl

theorem Written.access (h : image.Written a tested) (hof : (needs.get a).OfCommand)
    (hforget : needs.get a ≠ .toBe .undefined) {id : ImageId} {endsPass : Bool}
    (hquiet : ∀ b ∈ (image.request scheme needs id endsPass).imageBarriers,
      b.step.planes.has a = false) :
    (image.changes needs).get a = none ∧ ((needs.get a).access = .none ∨
      (needs.get a).access = .test ∨ (needs.get a).access = .write) := by
  have hchange : ∀ need, needs.get a = need → need.demand.Meets .writable →
      (image.changes needs).get a = none := by
    intro need hneed hmeets
    rw [get_changes, hneed, h.level]
    exact Need.change?_eq_none.mpr hmeets
  rcases hof with hneed | hneed | ⟨discards, hneed⟩ | ⟨level, hneed⟩
  · exact ⟨hchange _ hneed trivial, .inl (by rw [hneed]; rfl)⟩
  · exact ⟨hchange _ hneed (by decide), .inr (.inl (by rw [hneed]; rfl))⟩
  · exact ⟨hchange _ hneed (by rw [Need.toWrite, Demand.Meets]; decide),
      .inr (.inr (by rw [hneed]; rfl))⟩
  · cases level with
    | undefined => exact absurd hneed hforget
    | writable => exact ⟨hchange _ hneed rfl, .inr (.inr (by rw [hneed]; rfl))⟩
    | readOnly =>
        -- giving up writing takes a barrier
        have hlevel : (image.settle scheme needs).levels.get a = .readOnly := by
          have hmeets := image.meets_settledLevels needs a
          rw [hneed] at hmeets
          exact hmeets
        have hdef : (image.settle scheme needs).levels.get a ≠ .undefined := by
          rw [hlevel]; decide
        have hhas : (image.settle scheme needs).has a = true := h.present
        have hknown := believedLayout_ne_undefined hhas hdef scheme
        have hsame := isWritable_of_not_moved id endsPass h.present hquiet hknown
        rw [show (image.settledLevels needs).get a = .readOnly from hlevel, h.level] at hsame
        exact absurd hsame (by decide)

/-- A written aspect stays written as long as no barrier takes it in. -/
theorem Written.settle (h : image.Written a tested) (hof : (needs.get a).OfCommand)
    (hforget : needs.get a ≠ .toBe .undefined) {id : ImageId} {endsPass : Bool}
    (hquiet : ∀ b ∈ (image.request scheme needs id endsPass).imageBarriers,
      b.step.planes.has a = false) :
    (image.settle scheme needs).Written a
      (if (needs.get a).access = .none then tested else (needs.get a).access ≠ .write) := by
  obtain ⟨hc, haccess⟩ := h.access hof hforget hquiet
  have hcarried := isCarried_of_quiet hquiet
  refine ⟨h.present, (get_settledLevels_of_none hc).trans h.level, ?_⟩
  rw [get_histories_settle, effect, hc]
  simp only [hcarried, Bool.false_eq_true, if_false]
  rw [HistoryEffect.apply, h.history]
  rcases haccess with hn | hn | hn
  · rw [hn]
    rfl
  · rw [hn]
    cases tested <;> decide
  · rw [hn]
    rfl

/-! ### Barriers that make writes available -/

theorem Written.flushes_owed (h : image.Written a tested) :
    (image.histories.get a).owed.kinds.contains AccessKind.depthStencilWrite = true ↔
      tested = false := by
  rw [h.history]
  cases tested <;> decide

theorem Clean.not_flushes_owed (h : image.Clean) (hl : image.levels.get a ≠ .writable) :
    (image.histories.get a).owed.kinds.contains AccessKind.depthStencilWrite ≠ true := by
  have hkinds : (image.histories.get a).owed.kinds = 0 := by
    unfold History.owed
    split
    · exact h.unwritten a hl
    · rfl
  rw [hkinds]
  decide

/-- What an aspect is owed decides whether the barrier of a shared layout makes its write available,
whether it takes part in the change of layout or not. -/
theorem Clean.flushes_dependency (hclean : image.Clean) {id : ImageId} {endsPass : Bool}
    {b : ImageBarrier} (h : b ∈ (image.request .shared needs id endsPass).imageBarriers)
    (a : Aspect) :
    (image.dependency .shared needs a).src.kinds.contains AccessKind.depthStencilWrite = true ↔
      (image.histories.get a).owed.kinds.contains AccessKind.depthStencilWrite = true := by
  by_cases hlayout : ∃ next, image.effect .shared needs a = .layout next
  · obtain ⟨next, he⟩ := hlayout
    rw [src_dependency_of_layout he]
  · have hnone : (image.dependency .shared needs a).src = .none := by
      rw [dependency]
      cases he : image.effect .shared needs a with
      | layout next => exact absurd ⟨next, he⟩ hlayout
      | access next => rfl
      | forget => rfl
    have hl : image.levels.get a ≠ .writable := by
      intro hwritable
      have hhas : image.has a = true := by
        cases hno : image.has a with
        | true => rfl
        | false => exact absurd (hwritable.symm.trans (hclean.absent a hno)) (by decide)
      have htaken : b.step.planes.has a = true := by
        rw [(barrier_shared h).2.1]
        exact hhas
      rcases effect_of_mem_barrier h htaken with he | ⟨-, -, hundefined⟩
      · exact hlayout he
      · exact absurd (hwritable.symm.trans hundefined) (by decide)
    rw [hnone]
    exact ⟨fun h' => absurd h' (by decide), fun h' => absurd h' (hclean.not_flushes_owed hl)⟩

/-- The barrier after a write makes it available if the aspect was not tested since, or if the other
aspect of a shared layout is owed a write as well. -/
theorem Written.flushes_iff (h : image.Written a tested) (hclean : image.Clean) {id : ImageId}
    {endsPass : Bool} {b : ImageBarrier}
    (hb : b ∈ (image.request scheme needs id endsPass).imageBarriers)
    (ha : b.step.planes.has a = true) :
    b.dependency.src.kinds.contains AccessKind.depthStencilWrite = true ↔
      tested = false ∨ (scheme = .shared ∧ (image.histories.get a.other).owed.kinds.contains
        AccessKind.depthStencilWrite = true) := by
  cases scheme with
  | separate =>
      have hlayout : ∃ next, image.effect .separate needs a = .layout next := by
        rcases effect_of_mem_barrier hb ha with he | ⟨hscheme, -, -⟩
        · exact he
        · exact absurd hscheme (by decide)
      obtain ⟨next, he⟩ := hlayout
      obtain ⟨a', c, -, hstep, hd⟩ := barrier_separate hb
      rw [(LayoutStep.between?_eq_some.mp hstep).2.2, PlaneSet.has_single, decide_eq_true_eq] at ha
      subst ha
      rw [hd, src_dependency_of_layout he, h.flushes_owed]
      simp
  | shared =>
      have hkinds : b.dependency.src.kinds = (image.dependency .shared needs a).src.kinds |||
          (image.dependency .shared needs a.other).src.kinds :=
        congrArg Access.kinds (src_barrier_shared hb a)
      rw [hkinds, Mask.contains_depthStencilWrite_or, hclean.flushes_dependency hb,
        hclean.flushes_dependency hb, h.flushes_owed]
      simp

end TrackedImage

/-! ### Turns -/

namespace Beliefs

variable {policy : Policy} {b b' : Beliefs} {α : Action} {rs : List Request} {id : ImageId}
  {a : Aspect} {tested : Bool}

/-- Whether an aspect of an image is written. -/
def Written (b : Beliefs) (id : ImageId) (a : Aspect) (tested : Bool) : Prop :=
  ∃ image, b id = some image ∧ image.Written a tested

theorem Turn.written {image : TrackedImage} (h : Turn policy b α rs b') (hid : b id = some image)
    (hw : image.Written a tested) (hunregister : α ≠ .unregister id)
    (hseed : ∀ levels, α ≠ .seed id levels)
    (hforget : ∀ x, α.accepted? policy id image = some x → x.command.forgets a = false)
    (hquiet : ∀ r ∈ rs, r.image = id → ∀ b ∈ r.imageBarriers, b.step.planes.has a = false) :
    b'.Written id a (Command.testedSince a tested
      ((α.accepted? policy id image).map Accepted.command).toList) := by
  rcases h.tracked hid hunregister hseed with ⟨hnone, hb', -⟩ | ⟨x, endsPass, hx, rfl, hb'⟩
  · rw [hnone]
    exact ⟨image, hb', hw⟩
  · have hquiet : ∀ b ∈ (image.request policy.scheme (x.needs policy) id endsPass).imageBarriers,
        b.step.planes.has a = false := by
      cases hmoves : image.moves policy.scheme (x.needs policy) with
      | true =>
          have hmem : image.request policy.scheme (x.needs policy) id endsPass ∈
              (image.request? policy.scheme (x.needs policy) id endsPass).toList := by
            rw [Option.mem_toList, TrackedImage.request?_eq_some]
            exact ⟨hmoves, rfl⟩
          exact hquiet _ hmem rfl
      | false =>
          rw [TrackedImage.imageBarriers_eq_nil_of_moves_eq_false hmoves]
          exact fun b hb => absurd hb List.not_mem_nil
    have hsettle := hw.settle (x.ofCommand_needs policy a)
      (Accepted.needs_ne_of_not_forgets (hforget x hx) policy) hquiet
    rw [x.access_needs] at hsettle
    rw [hx]
    exact ⟨_, hb', hsettle⟩

end Beliefs

/-! ### Runs -/

namespace Tracker

/-- Whether some calls leave an aspect where it is: they do not overwrite or give up the image, do
not forget the aspect, and ask for no barrier that takes it in. -/
structure Undisturbed (t : Tracker) (id : ImageId) (a : Aspect) (calls : List Call) : Prop where
  kept : ∀ call ∈ calls, call ≠ .unregister id ∧ ∀ levels, call ≠ .seed id levels
  remembered : ∀ command ∈ t.commands id calls, command.forgets a = false
  unmoved : ∀ result ∈ t.run calls, ∀ r ∈ result.1.requestList, r.image = id →
    ∀ b ∈ r.imageBarriers, b.step.planes.has a = false

variable {id : ImageId} {a : Aspect}

theorem acts_written : ∀ {αs : List Action} {t : Tracker} {tested : Bool},
    t.beliefs.Written id a tested →
    (∀ α ∈ αs, α ≠ .unregister id ∧ ∀ levels, α ≠ .seed id levels) →
    (∀ command ∈ log id t αs, command.forgets a = false) →
    (∀ r ∈ (t.acts αs).1, r.image = id → ∀ b ∈ r.imageBarriers, b.step.planes.has a = false) →
    (t.acts αs).2.beliefs.Written id a (Command.testedSince a tested (log id t αs))
  | [], _, _, hw, _, _, _ => hw
  | α :: αs, t, tested, hw, hkept, hremembered, hunmoved => by
      obtain ⟨image, hid, hw⟩ := hw
      rw [log_cons_of_beliefs hid] at hremembered ⊢
      rw [acts] at hunmoved
      obtain ⟨hunregister, hseed⟩ := hkept α List.mem_cons_self
      have hforget : ∀ x, α.accepted? t.policy id image = some x → x.command.forgets a = false := by
        intro x hx
        exact hremembered _ (List.mem_append_left _ (by rw [hx]; exact List.mem_singleton_self _))
      have hact := (act_turn t α).2.written hid hw hunregister hseed hforget
        fun r hr => hunmoved r (List.mem_append_left _ hr)
      rw [acts, Command.testedSince_append]
      exact acts_written hact (fun α' h => hkept α' (List.mem_cons_of_mem α h))
        (fun command h => hremembered command (List.mem_append_right _ h))
        fun r hr => hunmoved r (List.mem_append_right _ hr)

/-- A written aspect stays written through calls that leave it where it is. -/
theorem after_written {calls : List Call} {t : Tracker} {tested : Bool}
    (hw : t.beliefs.Written id a tested) (h : t.Undisturbed id a calls) :
    (t.after calls).beliefs.Written id a (Command.testedSince a tested (t.commands id calls)) := by
  induction calls generalizing t tested with
  | nil => exact hw
  | cons call calls ih =>
      obtain ⟨hkept, hremembered, hunmoved⟩ := h
      have hactions : ∀ α ∈ t.actions call, α ≠ .unregister id ∧ ∀ levels, α ≠ .seed id levels := by
        intro α hα
        obtain ⟨hunregister, hseed⟩ := hkept call List.mem_cons_self
        constructor
        · rintro rfl
          exact hunregister (call_of_mem_actions hα rfl)
        · rintro levels rfl
          exact hseed levels (call_of_mem_actions hα rfl)
      rw [commands] at hremembered ⊢
      have hstep := acts_written hw hactions
        (fun command h => hremembered command (List.mem_append_left _ h)) (by
          rw [← requestList_step]
          exact hunmoved (t.step call) List.mem_cons_self)
      rw [← step_snd] at hstep
      rw [Command.testedSince_append]
      exact ih hstep ⟨fun call' h => hkept call' (List.mem_cons_of_mem call h),
        fun command h => hremembered command (List.mem_append_right _ h),
        fun result h => hunmoved result (List.mem_cons_of_mem _ h)⟩

/-! ### Writes -/

theorem act_written {t : Tracker} {α : Action} {image : TrackedImage} {x : Accepted}
    (hid : t.beliefs id = some image) (hx : α.accepted? t.policy id image = some x)
    (hwrites : x.command.writes.get a = true) : (t.act α).2.beliefs.Written id a false := by
  obtain ⟨discards, hneed⟩ := Accepted.needs_of_writes hwrites t.policy
  have hhas : image.has a = true :=
    Action.has_of_accepted? hx (by rw [hneed, Need.toWrite]; simp)
  rcases act_of_settled? α (Action.settled?_of_accepted? hx) hid with
    ⟨hnone, -, -⟩ | ⟨x', endsPass, hx', -, hb'⟩
  · exact absurd (hnone.symm.trans hx) (by simp)
  · obtain rfl := Option.some_inj.mp (hx'.symm.trans hx)
    exact ⟨_, by rw [hb', Function.update_self], TrackedImage.written_of_toWrite hhas hneed⟩

theorem accepted?_of_mem_log_singleton {t : Tracker} {α : Action} {command : Command}
    (h : command ∈ log id t [α]) : ∃ image x, t.beliefs id = some image ∧
      α.accepted? t.policy id image = some x ∧ x.command = command := by
  cases hid : t.beliefs id with
  | none =>
      rw [log_singleton_of_not_tracked hid] at h
      exact absurd h List.not_mem_nil
  | some image =>
      rw [log_singleton_of_beliefs hid, Option.mem_toList] at h
      obtain ⟨x, hx, hc⟩ := Option.map_eq_some_iff.mp h
      exact ⟨image, x, rfl, hx, hc⟩

theorem acts_singleton_written {t : Tracker} {α : Action} {command : Command}
    (h : command ∈ log id t [α]) (hwrites : command.writes.get a = true) :
    (t.acts [α]).2.beliefs.Written id a false := by
  obtain ⟨image, x, hid, hx, rfl⟩ := accepted?_of_mem_log_singleton h
  rw [acts_singleton]
  exact act_written hid hx hwrites

theorem acts_clears_written {aspects : PerAspect Bool} (ha : aspects.get a = true) :
    ∀ {rects : List (Option Rect)} {t : Tracker},
      (t.beliefs.Written id a false ∨ log id t (Action.clears id aspects rects) ≠ []) →
      (t.acts (Action.clears id aspects rects)).2.beliefs.Written id a false
  | [], _, h => h.resolve_right fun hne => hne rfl
  | rect :: rects, t, h => by
      rw [Action.clears_cons] at h ⊢
      rw [acts]
      apply acts_clears_written ha
      cases hid : t.beliefs id with
      | none =>
          -- nothing is cleared of an image that is not tracked
          refine h.imp (fun hw => ?_) (fun hlog => ?_)
          · obtain ⟨image, himage, -⟩ := hw
            exact absurd (hid.symm.trans himage) (by simp)
          · rw [log, beliefs_eq_none.mp hid] at hlog
            exact hlog
      | some image =>
          rcases act_of_settled? (.record id (.clear aspects rect)) rfl hid with
            ⟨hnone, -, hb'⟩ | ⟨x, endsPass, hx, -, -⟩
          · rw [log_cons_of_beliefs hid, hnone] at h
            rw [hb']
            exact h
          · obtain ⟨rect', hc⟩ :=
              TrackedImage.command_of_normalize_clear (Action.accepted?_record.mp hx).2.2
            exact .inl (act_written hid hx (by rw [hc]; exact ha))

theorem step_written {t : Tracker} {call : Call}
    (h : ∃ command ∈ t.commands id [call], command.writes.get a = true) :
    (t.step call).2.beliefs.Written id a false := by
  obtain ⟨command, hmem, hwrites⟩ := h
  rw [commands_singleton] at hmem
  obtain ⟨α, hα, policy, image, x, hx, hc⟩ := accepted?_of_mem_log hmem
  rw [step_snd]
  rcases t.actions_cases call with ha | ⟨α', ha⟩ | ⟨id', aspects, rects, ha⟩ | ha
  · rw [ha] at hα
    exact absurd hα List.not_mem_nil
  · rw [ha] at hmem ⊢
    exact acts_singleton_written hmem hwrites
  · rw [ha] at hα hmem ⊢
    obtain ⟨rect, -, rfl⟩ := List.mem_map.mp hα
    obtain ⟨rfl, -, hnormal⟩ := Action.accepted?_record.mp hx
    obtain ⟨rect', hclear⟩ := TrackedImage.command_of_normalize_clear hnormal
    rw [← hc, hclear] at hwrites
    exact acts_clears_written hwrites (.inr (List.ne_nil_of_mem hmem))
  · -- nothing is written when images are brought to rest
    rw [ha, List.mem_cons, List.mem_map] at hα
    rcases Action.cases_of_accepted? hx with ⟨command', rfl, -⟩ | ⟨-, targets, -, rfl⟩
    · rcases hα with hα | ⟨id', -, hα⟩
      · exact absurd hα (by simp)
      · exact absurd hα (by simp)
    · rw [← hc, Command.writes, PerAspect.get_both] at hwrites
      exact absurd hwrites (by simp)

/-- The next barrier that takes in a written aspect makes the write available exactly if the aspect
was not tested since, or if a shared layout has to wait for a write to the other aspect. -/
theorem flushed_iff {policy : Policy} {earlier between : List Call} {write move : Call}
    {t t' : Tracker} (ht : t = (empty policy).after earlier)
    (hwrite : ∃ command ∈ t.commands id [write], command.writes.get a = true)
    (hbetween : (t.step write).2.Undisturbed id a between)
    (ht' : t' = (t.step write).2.after between) {r : Request}
    (hr : r ∈ (t'.step move).1.requestList) (hid : r.image = id) {b : ImageBarrier}
    (hb : b ∈ r.imageBarriers) (ha : b.step.planes.has a = true) :
    ∃ image, t'.image? id = some image ∧
      (b.dependency.src.kinds.contains AccessKind.depthStencilWrite = true ↔
        Command.testedSince a false ((t.step write).2.commands id between) = false ∨
          (policy.scheme = .shared ∧ (image.histories.get a.other).owed.kinds.contains
            AccessKind.depthStencilWrite = true)) := by
  obtain ⟨believed, hbelieved, hw⟩ := after_written (step_written hwrite) hbetween
  have hreached : t' = (empty policy).after (earlier ++ write :: between) := by
    rw [ht', ht, after, after, after, List.foldl_append, List.foldl_cons]
  have hpolicy : t'.policy = policy := by rw [hreached, policy_after]; rfl
  have hclean := clean_after policy (earlier ++ write :: between)
  rw [← hreached] at hclean
  rw [← ht'] at hbelieved
  obtain ⟨α, -, image, x, hi, -, hrequest⟩ := exists_image?_of_mem_step hr
  rw [hid] at hi
  have he := (beliefs_of_image? hi).symm.trans hbelieved
  rw [Option.some_inj] at he
  subst he
  refine ⟨image, hi, ?_⟩
  rw [hrequest, hpolicy] at hb
  exact TrackedImage.Written.flushes_iff ⟨hw.present, hw.level, hw.history⟩
    ⟨(hclean id _ hbelieved).absent, (hclean id _ hbelieved).unwritten⟩ hb ha

/-- A depth image that is sampled. -/
def sampledDepth : Tracker :=
  (empty {}).after
    [.register
      { handle := 0, format := 126, extent := ⟨64, 64⟩, initial := ⟨.readOnly, .undefined⟩ }]

/-- A draw on that image which tests depth and maybe writes it. -/
def drawDepth (write : Bool) : Call := .record ⟨0, 0⟩ (.draw ⟨⟨true, write⟩, .none⟩)

/-- The state of that image after a draw that writes and one that tests. -/
def testedDepth : Tracker := (sampledDepth.step (drawDepth true)).2.after [drawDepth false]

/-- The transition of that image back to sampling. -/
def sampleDepth : Call := .record ⟨0, 0⟩ (.transition ⟨some .readOnly, none⟩)

theorem undisturbed_drawDepth :
    (sampledDepth.step (drawDepth true)).2.Undisturbed ⟨0, 0⟩ .depth [drawDepth false] where
  kept := by simp [drawDepth]
  remembered := by decide
  unmoved := by decide

theorem flushed_iff_testedDepth :
    ∃ r ∈ (testedDepth.step sampleDepth).1.requestList, ∃ b ∈ r.imageBarriers,
      ∃ image, testedDepth.image? ⟨0, 0⟩ = some image ∧
        (b.dependency.src.kinds.contains AccessKind.depthStencilWrite = true ↔
          Command.testedSince .depth false
            ((sampledDepth.step (drawDepth true)).2.commands ⟨0, 0⟩ [drawDepth false]) = false ∨
          (LayoutScheme.shared = .shared ∧ (image.histories.get .stencil).owed.kinds.contains
            AccessKind.depthStencilWrite = true)) := by
  obtain ⟨r, hr, hid, b, hb, ha⟩ :
      ∃ r ∈ (testedDepth.step sampleDepth).1.requestList, r.image = ⟨0, 0⟩ ∧
        ∃ b ∈ r.imageBarriers, b.step.planes.has .depth = true := by
    decide
  exact ⟨r, hr, b, hb, flushed_iff rfl (by decide) undisturbed_drawDepth rfl hr hid hb ha⟩

/-- The write of the first draw is not made available by the transition after the second. -/
theorem testedDepth_not_flushed :
    (∃ command ∈ sampledDepth.commands ⟨0, 0⟩ [drawDepth true], command.writes.get .depth = true) ∧
      (sampledDepth.step (drawDepth true)).2.Undisturbed ⟨0, 0⟩ .depth [drawDepth false] ∧
        ∃ r ∈ (testedDepth.step sampleDepth).1.requestList, r.image = ⟨0, 0⟩ ∧
          ∃ b ∈ r.imageBarriers, b.step.planes.has .depth = true ∧
            b.dependency.src.kinds.contains AccessKind.depthStencilWrite = false :=
  ⟨by decide, undisturbed_drawDepth, by decide⟩

end Tracker

end DepthStencil
