import DepthStencil.Proofs.Outlines
import DepthStencil.Proofs.SingleImage

/-! # The two schemes compared

Two trackers whose policies differ only in the scheme are given the same calls (`Tracker.Twins`).
They always agree on the outlines of their images, so they accept the same commands and reach the
same levels.  They need not agree on what moves a layout:

* a draw or clear that moves a shared layout moves separate ones as well, but not the other way
  round (`TrackedImage.moves_separate_of_moves_shared`);
* a discard moves a shared layout exactly if it moves separate ones, since an aspect that cannot be
  written keeps the shared layout from being writable (`TrackedImage.moves_shared_of_writes`).

So with separate layouts a pass may have to split where it goes on with a shared layout, and that is
the only way in which passes differ. -/

namespace DepthStencil

/-! ### What moves a layout -/

namespace TrackedImage

variable {image : TrackedImage} {needs : PerAspect Need}

/-- Needs that only raise levels and move a shared layout move a separate one as well. -/
theorem moves_separate_of_moves_shared (hraises : ∀ a, (needs.get a).demand.OnlyRaises)
    (hneeds : ∀ a, (needs.get a).demand ≠ .any → image.has a = true)
    (h : image.moves .shared needs = true) : image.moves .separate needs = true := by
  by_contra hno
  rw [Bool.not_eq_true] at hno
  -- if no layout of its own moves, the needs are met from the start
  have hlevels := settledLevels_of_not_moves hraises hneeds hno
  have hmeets : ∀ a, (needs.get a).demand.Meets (image.levels.get a) := fun a => by
    rw [← hlevels]
    exact image.meets_settledLevels needs a
  rw [moves_of_meets hmeets] at h
  exact absurd h (by simp)

/-- Needs to write that move a separate layout move a shared one as well. -/
theorem moves_shared_of_writes
    (hwrites : ∀ a, (needs.get a).demand = .any ∨ (needs.get a).demand = .atLeast .writable)
    (hneeds : ∀ a, (needs.get a).demand ≠ .any → image.has a = true)
    (h : image.moves .separate needs = true) : image.moves .shared needs = true :=
  (moves_iff_of_writes hwrites hneeds).mpr ((moves_iff_of_writes hwrites hneeds).mp h)

end TrackedImage

/-! ### Passes -/

namespace Pass

/-- Whether two passes, if any are open, are on the same image, and the first has written whatever
the second has. -/
def Covers : Option Pass → Option Pass → Prop
  | none, none => True
  | some p, some q => p.image = q.image ∧ ∀ a, q.writes.get a = true → p.writes.get a = true
  | none, some _ | some _, none => False

variable {p? q? : Option Pass}

theorem get_writes_record (p : Pass) (writes : PerAspect Bool) (a : Aspect) :
    (p.record writes).writes.get a = (p.writes.get a || writes.get a) := PerAspect.get_union _ _ a

theorem Covers.agree (h : Covers p? q?) : p?.map Pass.image = q?.map Pass.image ∧
    ∀ p q, p? = some p → q? = some q → ∀ a, q.writes.get a = true → p.writes.get a = true := by
  cases p? with
  | none =>
      cases q? with
      | none => exact ⟨rfl, fun p q hp => absurd hp (by simp)⟩
      | some q => exact h.elim
  | some p =>
      cases q? with
      | none => exact h.elim
      | some q =>
          refine ⟨congrArg some h.1, fun p' q' hp hq => ?_⟩
          rw [← Option.some_inj.mp hp, ← Option.some_inj.mp hq]
          exact h.2

theorem Covers.isOpenOn (h : Covers p? q?) (id : ImageId) : isOpenOn p? id = isOpenOn q? id := by
  cases p? with
  | none =>
      cases q? with
      | none => rfl
      | some q => exact h.elim
  | some p =>
      cases q? with
      | none => exact h.elim
      | some q => rw [Pass.isOpenOn, Pass.isOpenOn, Option.any_some, Option.any_some, h.1]

theorem Covers.record (h : Covers p? q?) (writes : PerAspect Bool) :
    Covers (p?.map fun p => p.record writes) (q?.map fun q => q.record writes) := by
  cases p? with
  | none =>
      cases q? with
      | none => trivial
      | some q => exact h.elim
  | some p =>
      cases q? with
      | none => exact h.elim
      | some q =>
          refine ⟨h.1, fun a ha => ?_⟩
          rw [get_writes_record, Bool.or_eq_true] at ha ⊢
          exact ha.imp_left (h.2 a)

/-- A pass that goes on has written more than one that begins with the same command. -/
theorem covers_start {id : ImageId} (hopen : Pass.isOpenOn p? id = true) (levels : PerAspect Level)
    (writes : PerAspect Bool) :
    Covers (p?.map fun p => p.record writes) (some ((start id levels).record writes)) := by
  obtain ⟨p, rfl, rfl⟩ := isOpenOn_iff.mp hopen
  refine ⟨rfl, fun a ha => ?_⟩
  rw [get_writes_record, start, PerAspect.get_both, Bool.false_or] at ha
  rw [get_writes_record, ha, Bool.or_true]

/-- A draw or clear goes to the same place, or it splits only the second pass. -/
theorem Covers.place (h : Covers p? q?) (id : ImageId) {moves moves' : Bool}
    (hmoves : moves = true → moves' = true) :
    place p? id moves = place q? id moves' ∨
      (Pass.isOpenOn p? id = true ∧ place p? id moves = .fold ∧
        place q? id moves' = .split) := by
  rw [Pass.place, Pass.place, ← h.isOpenOn id]
  cases Pass.isOpenOn p? id with
  | false => exact .inl rfl
  | true =>
      cases moves with
      | true =>
          rw [hmoves rfl]
          exact .inl rfl
      | false =>
          cases moves' with
          | true => exact .inr ⟨rfl, rfl, rfl⟩
          | false => exact .inl rfl

end Pass

/-! ### Counters -/

namespace Stats

/-- Whether counters agree on the aspects that gave up writing and on the commands rendered, with no
more passes and splits on the first side. -/
structure Agrees (s s' : Stats) : Prop where
  decays : s.decays = s'.decays
  rendered : s.passes + s.folded = s'.passes + s'.folded
  splits : s.splits ≤ s'.splits
  passes : s.passes ≤ s'.passes

variable {s s' : Stats}

theorem Agrees.countRequest (h : Agrees s s') (r? r'? : Option Request) :
    Agrees (s.countRequest r?) (s'.countRequest r'?) := by
  cases r? <;> cases r'? <;> exact ⟨h.decays, h.rendered, h.splits, h.passes⟩

theorem Agrees.countDecays (h : Agrees s s') (changes : PerAspect (Option Change)) :
    Agrees (s.countDecays changes) (s'.countDecays changes) :=
  ⟨congrArg (· + _) h.decays, h.rendered, h.splits, h.passes⟩

theorem Agrees.countPlacement (h : Agrees s s') (placement : Placement) :
    Agrees (s.countPlacement placement) (s'.countPlacement placement) := by
  obtain ⟨hdecays, hrendered, hsplits, hpasses⟩ := h
  cases placement with
  | fold => exact ⟨hdecays, congrArg (· + 1) hrendered, hsplits, hpasses⟩
  | begins =>
      refine ⟨hdecays, ?_, hsplits, Nat.succ_le_succ hpasses⟩
      simp only [Stats.countPlacement]
      omega
  | split =>
      refine ⟨hdecays, ?_, Nat.succ_le_succ hsplits, Nat.succ_le_succ hpasses⟩
      simp only [Stats.countPlacement]
      omega

theorem Agrees.countPlacement_split (h : Agrees s s') :
    Agrees (s.countPlacement .fold) (s'.countPlacement .split) := by
  obtain ⟨hdecays, hrendered, hsplits, hpasses⟩ := h
  refine ⟨hdecays, ?_, Nat.le_succ_of_le hsplits, Nat.le_succ_of_le hpasses⟩
  simp only [Stats.countPlacement]
  omega

end Stats

/-! ### Twins -/

namespace Tracker

theorem pass?_recordRendering (t : Tracker) (id : ImageId) (image : TrackedImage)
    (command : Command) (needs : PerAspect Need) :
    (t.recordRendering id image command needs).2.pass? =
      (if Pass.place t.pass? id (image.moves t.policy.scheme needs) = .fold then t.pass?
        else some (.start id (image.settledLevels needs))).map
          fun p => p.record command.writes := by
  rw [recordRendering, enterPass]
  split
  · rw [pass?_settle]
  · rfl

theorem stats_recordRendering (t : Tracker) (id : ImageId) (image : TrackedImage)
    (command : Command) (needs : PerAspect Need) : ∃ request?,
    (t.recordRendering id image command needs).2.stats =
      (t.stats.countRequest request?).countPlacement
        (Pass.place t.pass? id (image.moves t.policy.scheme needs)) := by
  refine ⟨(t.recordRendering id image command needs).1, ?_⟩
  rw [recordRendering]
  split
  · rfl
  · simp only [enterPass, Tracker.settle, stats_closePass]

/-- Two trackers that came from the same calls under both schemes. -/
structure Twins (policy : Policy) (t s : Tracker) : Prop where
  shared : t.policy = { policy with scheme := .shared }
  separate : s.policy = { policy with scheme := .separate }
  outline : s.outline = t.outline
  pass : Pass.Covers t.pass? s.pass?
  stats : Stats.Agrees t.stats s.stats

theorem twins_empty (policy : Policy) :
    Twins policy (empty { policy with scheme := .shared })
      (empty { policy with scheme := .separate }) :=
  ⟨rfl, rfl, rfl, trivial, ⟨rfl, rfl, Nat.le_refl _, Nat.le_refl _⟩⟩

namespace Twins

variable {policy : Policy} {t s : Tracker} {id : ImageId} {image image' : TrackedImage}
  {needs : PerAspect Need}

theorem closePass (h : Twins policy t s) : Twins policy t.closePass s.closePass := by
  refine ⟨?_, ?_, ?_, ?_, ?_⟩
  · rw [policy_closePass, h.shared]
  · rw [policy_closePass, h.separate]
  · rw [outline_closePass, outline_closePass, h.outline]
  · rw [pass?_closePass, pass?_closePass]
    trivial
  · rw [stats_closePass, stats_closePass]
    exact h.stats

theorem closePassOn (h : Twins policy t s) (id : ImageId) :
    Twins policy (t.closePassOn id) (s.closePassOn id) := by
  rw [Tracker.closePassOn, Tracker.closePassOn, h.pass.isOpenOn id]
  split
  · exact h.closePass
  · exact h

theorem of_registry (h : Twins policy t s) {r r' : Registry}
    (hr : r'.map TrackedImage.outline = r.map TrackedImage.outline) :
    Twins policy { t with registry := r } { s with registry := r' } :=
  ⟨h.shared, h.separate, hr, h.pass, h.stats⟩

theorem register (h : Twins policy t s) (info : Registration) :
    Twins policy (t.register info).2 (s.register info).2 := by
  rw [Tracker.register, Tracker.register]
  cases Format.ofCode? info.format with
  | none => exact h
  | some format =>
      refine h.of_registry ?_
      rw [Registry.map_insert, Registry.map_insert]
      exact congrArg (fun r : Registry => r.insert _) h.outline

theorem unregister (h : Twins policy t s) (id : ImageId) :
    Twins policy (t.unregister id).2 (s.unregister id).2 := by
  have hclosed := h.closePassOn id
  rcases image?_cases (map_outline_image? hclosed.outline id) with
    ⟨ht, hs⟩ | ⟨image, image', ht, hs, -⟩
  · rw [unregister_of_error (lookup_eq_error.mpr ⟨ht, rfl⟩),
      unregister_of_error (lookup_eq_error.mpr ⟨hs, rfl⟩)]
    exact hclosed
  · rw [unregister_of_ok (lookup_eq_ok.mpr ht), unregister_of_ok (lookup_eq_ok.mpr hs)]
    refine hclosed.of_registry ?_
    rw [Registry.map_erase, Registry.map_erase]
    exact congrArg (fun r : Registry => r.erase id) hclosed.outline

theorem seed (h : Twins policy t s) (id : ImageId) (levels : PerAspect Level) :
    Twins policy (t.seed id levels).2 (s.seed id levels).2 := by
  have hclosed := h.closePassOn id
  rcases image?_cases (map_outline_image? hclosed.outline id) with
    ⟨ht, hs⟩ | ⟨image, image', ht, hs, -⟩
  · rw [seed_of_error (lookup_eq_error.mpr ⟨ht, rfl⟩) levels,
      seed_of_error (lookup_eq_error.mpr ⟨hs, rfl⟩) levels]
    exact hclosed
  · rw [seed_of_ok (lookup_eq_ok.mpr ht) levels, seed_of_ok (lookup_eq_ok.mpr hs) levels]
    refine hclosed.of_registry ?_
    have hseed : ∀ r : Registry,
        (r.modify id fun image => image.seed levels).map TrackedImage.outline =
          (r.map TrackedImage.outline).modify id fun image => (image.seed levels).outline := by
      intro r
      refine r.map_modify _ ?_ id
      exact fun _ => rfl
    rw [hseed, hseed]
    exact congrArg (fun r : Registry => r.modify id _) hclosed.outline

theorem settle (h : Twins policy t s) (id : ImageId) (image image' : TrackedImage)
    (needs : PerAspect Need) (endsPass endsPass' : Bool) :
    Twins policy (t.settle id image needs endsPass).2 (s.settle id image' needs endsPass').2 := by
  refine ⟨h.shared, h.separate, ?_, h.pass, h.stats.countRequest _ _⟩
  rw [outline_settle, outline_settle, h.outline]

theorem countDecays (h : Twins policy t s) (changes : PerAspect (Option Change)) :
    Twins policy (t.countDecays changes) (s.countDecays changes) :=
  ⟨h.shared, h.separate, h.outline, h.pass, h.stats.countDecays changes⟩

/-- A draw or clear goes to the same place under both schemes, or it splits the pass that it folds
into under the other one. -/
theorem recordRendering (h : Twins policy t s) (himage : image'.outline = image.outline)
    (hraises : ∀ a, (needs.get a).demand.OnlyRaises)
    (hneeds : ∀ a, (needs.get a).demand ≠ .any → image.has a = true) (id : ImageId)
    (command : Command) :
    Twins policy (t.recordRendering id image command needs).2
      (s.recordRendering id image' command needs).2 := by
  have hmoves : image.moves t.policy.scheme needs = true →
      image'.moves s.policy.scheme needs = true := by
    rw [h.shared, h.separate, TrackedImage.moves_congr himage]
    exact TrackedImage.moves_separate_of_moves_shared hraises hneeds
  obtain ⟨request?, hstats⟩ := t.stats_recordRendering id image command needs
  obtain ⟨request?', hstats'⟩ := s.stats_recordRendering id image' command needs
  have hpass := t.pass?_recordRendering id image command needs
  have hpass' := s.pass?_recordRendering id image' command needs
  have hcounted := h.stats.countRequest request? request?'
  refine ⟨?_, ?_, ?_, ?_, ?_⟩
  · rw [(settles_recordRendering t id image command needs).policy, h.shared]
  · rw [(settles_recordRendering s id image' command needs).policy, h.separate]
  · rw [outline_recordRendering, outline_recordRendering, h.outline]
  · rw [hpass, hpass']
    rcases h.pass.place id hmoves with hplace | ⟨hopen, hfold, hsplit⟩
    · rw [hplace, TrackedImage.settledLevels_congr himage]
      split
      · exact h.pass.record command.writes
      · exact ⟨rfl, fun a ha => ha⟩
    · rw [hfold, hsplit]
      exact Pass.covers_start hopen _ command.writes
  · rw [hstats, hstats']
    rcases h.pass.place id hmoves with hplace | ⟨-, hfold, hsplit⟩
    · rw [hplace]
      exact hcounted.countPlacement _
    · rw [hfold, hsplit]
      exact hcounted.countPlacement_split

theorem recordTransition (h : Twins policy t s) (himage : image'.outline = image.outline)
    (id : ImageId) (needs : PerAspect Need) :
    Twins policy (t.recordTransition id image needs).2 (s.recordTransition id image' needs).2 := by
  rw [Tracker.recordTransition, Tracker.recordTransition, TrackedImage.changes_congr himage]
  exact (h.closePass.settle id image image' needs _ _).countDecays _

theorem recordDiscard (h : Twins policy t s) (himage : image'.outline = image.outline)
    (hwrites : ∀ a, (needs.get a).demand = .any ∨ (needs.get a).demand = .atLeast .writable)
    (hneeds : ∀ a, (needs.get a).demand ≠ .any → image.has a = true) (id : ImageId) :
    Twins policy (t.recordDiscard id image needs).2 (s.recordDiscard id image' needs).2 := by
  have hraises : ∀ a, (needs.get a).demand.OnlyRaises := fun a => by
    rcases hwrites a with hany | hwrite
    · rw [hany]
      trivial
    · rw [hwrite]
      trivial
  have hmoves : image'.moves s.policy.scheme needs = image.moves t.policy.scheme needs := by
    rw [h.shared, h.separate, TrackedImage.moves_congr himage, Bool.eq_iff_iff]
    exact ⟨TrackedImage.moves_shared_of_writes hwrites hneeds,
      TrackedImage.moves_separate_of_moves_shared hraises hneeds⟩
  rw [Tracker.recordDiscard, Tracker.recordDiscard, hmoves]
  split
  · exact h.closePass.settle id image image' needs _ _
  · exact h.settle id image image' needs _ _

theorem recordAccepted (h : Twins policy t s) (himage : image'.outline = image.outline)
    {command : Command} {x : Accepted} (hm : image.missing? command = none)
    (hx : image.normalize command = some x) (id : ImageId) :
    Twins policy (t.recordAccepted id image x).2 (s.recordAccepted id image' x).2 := by
  have hneeds : ∀ a, ((x.needs t.policy).get a).demand ≠ .any → image.has a = true :=
    fun a => TrackedImage.has_of_normalize hm hx
  have hdiscards : s.policy.discardOnFullClear = t.policy.discardOnFullClear := by
    rw [h.separate, h.shared]
  obtain ⟨command', coversImage⟩ := x
  simp only [Tracker.recordAccepted, hdiscards]
  cases command' with
  | draw uses =>
      exact h.recordRendering himage (Command.only_raises rfl _) hneeds id (.draw uses)
  | clear aspects rect =>
      exact h.recordRendering himage (Command.only_raises rfl _) hneeds id (.clear aspects rect)
  | discard aspects =>
      refine h.recordDiscard himage (fun a => ?_) hneeds id
      rw [Accepted.needs, Command.get_needs_discard]
      split
      · exact .inr rfl
      · exact .inl rfl
  | transition targets => exact h.recordTransition himage id _

theorem record (h : Twins policy t s) (id : ImageId) (command : Command) :
    Twins policy (t.record id command).2 (s.record id command).2 := by
  rw [Tracker.record, Tracker.record]
  rcases image?_cases (map_outline_image? h.outline id) with
    ⟨ht, hs⟩ | ⟨image, image', ht, hs, himage⟩
  · rw [lookup_eq_error.mpr ⟨ht, rfl⟩, lookup_eq_error.mpr ⟨hs, rfl⟩]
    exact h
  · rw [lookup_eq_ok.mpr ht, lookup_eq_ok.mpr hs]
    simp only [TrackedImage.accept_congr himage]
    cases ha : image.accept id command with
    | error e => exact h
    | ok x? =>
        cases x? with
        | none => exact h
        | some x =>
            obtain ⟨hm, hx⟩ := TrackedImage.normalize_of_accept ha
            exact h.recordAccepted himage hm hx id

theorem relax (h : Twins policy t s) (id : ImageId) :
    Twins policy (t.relax id).2 (s.relax id).2 := by
  have hrest : ∀ levels, s.policy.restTargets? levels = t.policy.restTargets? levels := by
    intro levels
    rw [h.separate, h.shared]
    rfl
  rw [relax_eq, relax_eq]
  rcases image?_cases (map_outline_image? h.outline id) with
    ⟨ht, hs⟩ | ⟨image, image', ht, hs, himage⟩
  · rw [ht, hs]
    exact h
  · rw [ht, hs]
    simp only [hrest, TrackedImage.presentLevels_congr himage, TrackedImage.changes_congr himage]
    cases t.policy.restTargets? image.presentLevels with
    | none => exact h
    | some targets => exact (h.settle id image image' _ _ _).countDecays _

/-- Every action keeps twins. -/
theorem act (h : Twins policy t s) (α : Action) : Twins policy (t.act α).2 (s.act α).2 := by
  cases α with
  | register info => exact h.register info
  | unregister id => exact h.unregister id
  | seed id levels => exact h.seed id levels
  | record id command => exact h.record id command
  | closePass => exact h.closePass
  | relax id => exact h.relax id

/-- An action that records anything but a transition asks for a request with separate layouts if it
does so with a shared one. -/
theorem requests_act (h : Twins policy t s) {command : Command}
    (hcommand : command.isTransition = false) (hne : (t.act (.record id command)).1 ≠ []) :
    (s.act (.record id command)).1 ≠ [] := by
  obtain ⟨r, hr⟩ := List.exists_mem_of_ne_nil _ hne
  obtain ⟨image, x, hb, hx, hmoves, -⟩ := origin_of_mem_act hr
  obtain ⟨rfl, hm, hnormal⟩ := Action.accepted?_record.mp hx
  obtain ⟨image₁, ht, rfl⟩ := exists_image?_of_beliefs hb
  rcases image?_cases (map_outline_image? h.outline r.image) with
    ⟨hnone, -⟩ | ⟨image₂, image', ht', hs, himage⟩
  · rw [hnone] at ht
    exact absurd ht (by simp)
  · obtain rfl := Option.some_inj.mp (ht'.symm.trans ht)
    have hneeds : x.needs s.policy = x.needs t.policy := by
      rw [h.separate, h.shared]
      rfl
    have himage : image'.endPass.outline = image₂.endPass.outline := himage
    have hx' : (Action.record r.image command).accepted? s.policy r.image image'.endPass =
        some x :=
      (TrackedImage.accepted?_congr himage s.policy r.image (.record r.image command)).trans hx
    have hshared : t.policy.scheme = .shared := by rw [h.shared]
    have hseparate : s.policy.scheme = .separate := by rw [h.separate]
    have hraises : ∀ a, ((x.needs t.policy).get a).demand.OnlyRaises :=
      Command.only_raises ((TrackedImage.kind_of_normalize hnormal).2.trans hcommand) _
    -- what moves the shared layout moves a separate one as well
    have hmoves' : image'.endPass.moves s.policy.scheme (x.needs s.policy) = true := by
      rw [hshared] at hmoves
      rw [hneeds, hseparate, TrackedImage.moves_congr himage]
      exact TrackedImage.moves_separate_of_moves_shared hraises
        (fun a => TrackedImage.has_of_normalize hm hnormal) hmoves
    rcases act_of_settled? (.record r.image command) rfl (beliefs_of_image? hs) with
      ⟨hnone, -⟩ | ⟨x', endsPass, hx'', hrequests, -⟩
    · rw [hx'] at hnone
      exact absurd hnone (by simp)
    · obtain rfl := Option.some_inj.mp (hx'.symm.trans hx'')
      rw [hrequests, TrackedImage.request?_eq_some.mpr ⟨hmoves', rfl⟩]
      simp

theorem acts (h : Twins policy t s) (αs : List Action) :
    Twins policy (t.acts αs).2 (s.acts αs).2 := by
  induction αs generalizing t s with
  | nil => exact h
  | cons α αs ih => exact ih (h.act α)

theorem requests_acts (h : Twins policy t s) {αs : List Action}
    (hαs : ∀ α ∈ αs, ∃ id command, α = .record id command ∧ command.isTransition = false)
    (hne : (t.acts αs).1 ≠ []) : (s.acts αs).1 ≠ [] := by
  induction αs generalizing t s with
  | nil => exact hne
  | cons α αs ih =>
      obtain ⟨id, command, rfl, hcommand⟩ := hαs α List.mem_cons_self
      rw [Tracker.acts, Ne, List.append_eq_nil_iff, not_and_or] at hne ⊢
      rcases hne with hne | hne
      · exact .inl (h.requests_act hcommand hne)
      · exact .inr (ih (h.act _) (fun α hα => hαs α (List.mem_cons_of_mem _ hα)) hne)

theorem step (h : Twins policy t s) (call : Call) :
    Twins policy (t.step call).2 (s.step call).2 := by
  rw [step_snd, step_snd, actions_of_outline h.outline]
  exact h.acts _

theorem after (h : Twins policy t s) (calls : List Call) :
    Twins policy (t.after calls) (s.after calls) := by
  induction calls generalizing t s with
  | nil => exact h
  | cons call calls ih => exact ih (h.step call)

end Twins

end Tracker

/-! ### The same calls under both schemes -/

/-- Whether a call is a draw, a clear or a discard. -/
def Call.isUse : Call → Bool
  | record _ command => !command.isTransition
  | clearView _ _ _ | discardSubresources _ _ _ _ | drawPipeline _ _ _ => true
  | register _ | unregister _ | seed _ _ | closePass | finish | resourceBarrier _ _ _ => false

theorem Call.isUse_cases {motive : (call : Call) → call.isUse = true → Prop}
    (record : ∀ id command h, motive (.record id command) h)
    (clearView : ∀ id flags rects, motive (.clearView id flags rects) rfl)
    (discardSubresources : ∀ id first count hasRects,
      motive (.discardSubresources id first count hasRects) rfl)
    (drawPipeline : ∀ id pipeline view, motive (.drawPipeline id pipeline view) rfl)
    (call : Call) (h : call.isUse = true) : motive call h := by
  cases call with
  | record id command => exact record id command h
  | clearView id flags rects => exact clearView id flags rects
  | discardSubresources id first count hasRects => exact discardSubresources id first count hasRects
  | drawPipeline id pipeline view => exact drawPipeline id pipeline view
  | register info => exact absurd h (by simp [isUse])
  | unregister id => exact absurd h (by simp [isUse])
  | seed id levels => exact absurd h (by simp [isUse])
  | closePass => exact absurd h (by simp [isUse])
  | finish => exact absurd h (by simp [isUse])
  | resourceBarrier id subresource states => exact absurd h (by simp [isUse])

namespace Tracker

theorem actions_of_isUse {t : Tracker} {call : Call} (h : call.isUse = true) {α : Action}
    (hα : α ∈ t.actions call) :
    ∃ id command, α = .record id command ∧ command.isTransition = false := by
  cases call, h using Call.isUse_cases with
  | record id command h =>
      rw [Call.isUse, Bool.not_eq_true'] at h
      exact ⟨id, command, List.mem_singleton.mp hα, h⟩
  | clearView id flags rects =>
      rw [actions] at hα
      split at hα
      · exact absurd hα List.not_mem_nil
      · obtain ⟨rect, -, rfl⟩ := List.mem_map.mp hα
        exact ⟨id, _, rfl, rfl⟩
  | discardSubresources id first count hasRects =>
      rw [actions] at hα
      split at hα
      · exact absurd hα List.not_mem_nil
      · split at hα
        · exact absurd hα List.not_mem_nil
        · exact ⟨id, _, List.mem_singleton.mp hα, rfl⟩
  | drawPipeline id pipeline view => exact ⟨id, _, List.mem_singleton.mp hα, rfl⟩

/-- Both schemes agree on everything but layouts.  After the same calls they track the same images
at the same levels, have a pass open on the same image, and have counted the same aspects that gave
up writing and the same number of draws and clears.  With separate layouts there are no fewer passes
and splits, and the open pass has written no more.

The next call is rejected for the same reason or not at all, and a draw, clear or discard that asks
for a layout to move in the shared scheme does so in the separate one. -/
theorem schemes_agree (policy : Policy) (calls : List Call) :
    let t := (empty { policy with scheme := .shared }).after calls
    let s := (empty { policy with scheme := .separate }).after calls
    (t.registry.ids = s.registry.ids ∧
      (∀ id, (t.image? id).map TrackedImage.levels = (s.image? id).map TrackedImage.levels) ∧
      t.pass?.map Pass.image = s.pass?.map Pass.image ∧
      ∀ p q, t.pass? = some p → s.pass? = some q →
        ∀ a, q.writes.get a = true → p.writes.get a = true) ∧
    (t.stats.decays = s.stats.decays ∧
      t.stats.passes + t.stats.folded = s.stats.passes + s.stats.folded ∧
      t.stats.splits ≤ s.stats.splits ∧ t.stats.passes ≤ s.stats.passes) ∧
    ∀ call, (t.step call).1.rejection? = (s.step call).1.rejection? ∧
      (call.isUse = true → (t.step call).1.requestList ≠ [] →
        (s.step call).1.requestList ≠ []) := by
  intro t s
  have h : Twins policy t s := (twins_empty policy).after calls
  obtain ⟨himage, hwrites⟩ := h.pass.agree
  refine ⟨⟨(ids_of_outline h.outline).symm, fun id => ?_, himage, hwrites⟩,
    ⟨h.stats.decays, h.stats.rendered, h.stats.splits, h.stats.passes⟩,
    fun call => ⟨?_, fun huse hne => ?_⟩⟩
  · rcases image?_cases (map_outline_image? h.outline id) with
      ⟨ht, hs⟩ | ⟨image, image', ht, hs, himage⟩
    · rw [ht, hs]
    · rw [ht, hs, Option.map_some, Option.map_some, TrackedImage.levels_congr himage]
  · rw [(t.step_rejects call).1, (s.step_rejects call).1, rejection?_of_outline h.outline]
  · rw [requestList_step] at hne ⊢
    rw [actions_of_outline h.outline]
    exact h.requests_acts (fun α => actions_of_isUse huse) hne

end Tracker

end DepthStencil
