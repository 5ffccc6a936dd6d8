import Mathlib.Algebra.GroupWithZero.Nat
import DepthStencil.Proofs.Counters
import DepthStencil.Proofs.PassLog
import DepthStencil.Proofs.Schemes

/-! # The counters account for the run

A run consists of *moments*, each an action with the tracker that carries it out (`Tracker.trail`).
What happens in a moment can be told from what is handed out and from the images and passes on both
sides of it, without a look at the counters: the requests, whether a draw or clear is recorded, and
whether it goes into the open pass or splits it, the pass that ends, and the aspects that give up
writing.

Each counter says how often something of that kind happened.  `Tracker.AddsUp` puts this down for
any sequence of moments; it holds of one action (`Tracker.addsUp_act`) and adds up
(`Tracker.AddsUp.append`).

* Where a draw or clear goes is counted by its placement (`Tracker.Enters`).
* Operations are the draws and clears, spread over the passes that have ended and the open one.
* A request holds one image barrier if layouts are shared, and one or two if they are separate. -/

namespace DepthStencil

/-! ### Moments -/

/-- Whether recording a draw or clear on an image comes to anything. -/
def Command.renders (image : TrackedImage) : Command → Bool
  | draw _ => true
  | clear aspects rect => image.touchedBy aspects rect
  | discard _ | transition _ => false

/-- The level that is believed of an aspect. -/
def Tracker.level (t : Tracker) (id : ImageId) (a : Aspect) : Level :=
  (t.image? id).elim .undefined fun image => image.levels.get a

/-- An action together with the tracker that carries it out. -/
structure Moment where
  before : Tracker
  action : Action

namespace Moment

variable (m : Moment)

/-- The tracker afterwards. -/
def after : Tracker := (m.before.act m.action).2

/-- The requests handed out. -/
def requests : List Request := (m.before.act m.action).1

/-- Whether a draw or clear is recorded, that is, neither turned down nor without effect. -/
def renders : Bool :=
  match m.action with
  | .record id command =>
    (m.before.record id command).1.toOption.isSome &&
      (m.before.image? id).any fun image => command.renders image
  | .register _ | .unregister _ | .seed _ _ | .closePass | .relax _ => false

/-- Whether a pass is open on the image that the action works on. -/
def meetsPass : Bool := m.action.settled?.any fun id => Pass.isOpenOn m.before.pass? id

/-- Whether a draw or clear goes into the pass open on its image, since it asks for no layouts. -/
def folds : Bool := m.renders && m.meetsPass && m.requests.isEmpty

/-- Whether a draw or clear asks for layouts while a pass is open on its image. -/
def splits : Bool := m.renders && m.meetsPass && !m.requests.isEmpty

/-- Whether the counter of the open pass goes far enough for a draw or clear that is folded into the
pass. -/
def hasRoom : Bool :=
  !m.folds || m.before.pass?.all fun p => p.operations.toNat + 1 < UInt32.size

/-- The pass that ends, if any.  Either none is open afterwards, or a draw or clear goes into a pass
of its own. -/
def ended : List Pass :=
  if m.after.pass?.isNone || m.renders && !m.folds then m.before.pass?.toList else []

/-- The aspects that recording a command or finishing takes from writable to another level.  Seeding
an image is neither. -/
def relaxed : List Aspect :=
  Aspect.all.filter fun a => m.action.settled?.any fun id =>
    (m.before.level id a).relaxes (m.after.level id a)

theorem renders_record (t : Tracker) (id : ImageId) (command : Command) :
    renders ⟨t, .record id command⟩ = ((t.record id command).1.toOption.isSome &&
      (t.image? id).any fun image => command.renders image) := rfl

end Moment

namespace Tracker

/-- The moments of some actions. -/
def moments : Tracker → List Action → List Moment
  | _, [] => []
  | t, α :: αs => ⟨t, α⟩ :: (t.act α).2.moments αs

/-- The moments of some calls. -/
def trail (t : Tracker) : List Call → List Moment
  | [] => []
  | call :: calls => t.moments (t.actions call) ++ (t.step call).2.trail calls

theorem requests_moments (t : Tracker) (αs : List Action) :
    (t.moments αs).flatMap Moment.requests = (t.acts αs).1 := by
  induction αs generalizing t with
  | nil => rfl
  | cons α αs ih => rw [moments, List.flatMap_cons, ih]; rfl

theorem requests_trail (t : Tracker) (calls : List Call) :
    (t.trail calls).flatMap Moment.requests = t.requests calls := by
  induction calls generalizing t with
  | nil => rfl
  | cons call calls ih =>
      rw [trail, List.flatMap_append, requests_moments, ih, requests_cons, requestList_step]

end Tracker

/-! ### Draws and clears -/

/-- What is recorded of a command is a draw or clear exactly if the command is one that comes to
anything. -/
theorem TrackedImage.renders_of_normalize {image : TrackedImage} {command : Command}
    {x? : Option Accepted} (h : image.normalize command = x?) :
    command.renders image = x?.any fun x => x.command.isRendering := by
  subst h
  have hkind : ∀ x, image.normalize command = some x →
      x.command.isRendering = command.isRendering := fun x hx => (kind_of_normalize hx).1
  cases command with
  | draw uses => rfl
  | clear aspects rect =>
      rw [Command.renders, ← isSome_normalize_clear]
      cases hx : image.normalize (.clear aspects rect) with
      | none => rfl
      | some x => rw [Option.any_some, hkind x hx]; rfl
  | discard aspects =>
      cases hx : image.normalize (.discard aspects) with
      | none => rfl
      | some x => rw [Option.any_some, hkind x hx]; rfl
  | transition targets => rfl

/-- The counters that say where draws and clears went. -/
def Stats.placed (s : Stats) : Nat × Nat × Nat := (s.passes, s.splits, s.folded)

theorem Stats.placed_countPlacement (s : Stats) (placement : Placement) :
    (s.countPlacement placement).placed =
      (s.passes + if placement = .fold then 0 else 1,
        s.splits + if placement = .split then 1 else 0,
        s.folded + if placement = .fold then 1 else 0) := by
  cases placement <;> rfl

theorem Pass.place_eq_split {pass? : Option Pass} {id : ImageId} {moves : Bool} :
    place pass? id moves = .split ↔ isOpenOn pass? id = true ∧ moves = true := by
  unfold place
  cases isOpenOn pass? id <;> cases moves <;> simp

theorem TrackedImage.toList_request?_eq_nil {image : TrackedImage} {scheme : LayoutScheme}
    {needs : PerAspect Need} {id : ImageId} {endsPass : Bool} :
    (image.request? scheme needs id endsPass).toList = [] ↔ image.moves scheme needs = false := by
  rw [request?]
  cases image.moves scheme needs <;> simp

namespace Tracker

/-- What most actions do about passes: they enter none, and if anything the open one ends. -/
structure Apart (t : Tracker) (α : Action) : Prop where
  renders : Moment.renders ⟨t, α⟩ = false
  stats : (t.act α).2.stats.placed = t.stats.placed
  pass : (t.act α).2.pass? = t.pass? ∨ (t.act α).2.pass? = none

/-- What a draw or clear does about passes: it goes to its place, in the open pass or a new one. -/
structure Enters (t : Tracker) (α : Action) (id : ImageId) (moves : Bool)
    (levels : PerAspect Level) (writes : PerAspect Bool) : Prop where
  renders : Moment.renders ⟨t, α⟩ = true
  settled : α.settled? = some id
  requests : (t.act α).1 = [] ↔ moves = false
  stats : (t.act α).2.stats.placed = (t.stats.countPlacement (Pass.place t.pass? id moves)).placed
  pass : (t.act α).2.pass? =
    (if Pass.place t.pass? id moves = .fold then t.pass? else some (.start id levels)).map
      fun p => p.record writes

variable {t t' t'' : Tracker} {id : ImageId} {image : TrackedImage} {x : Accepted}
  {request? : Option Request} {α : Action}

theorem placed_settle (t : Tracker) (id : ImageId) (image : TrackedImage) (needs : PerAspect Need)
    (endsPass : Bool) : (t.settle id image needs endsPass).2.stats.placed = t.stats.placed := by
  have hcount : ∀ request?, (t.stats.countRequest request?).placed = t.stats.placed := by
    intro request?
    cases request? <;> rfl
  exact hcount _

theorem placed_closePass_settle (t : Tracker) (id : ImageId) (image : TrackedImage)
    (needs : PerAspect Need) (endsPass : Bool) :
    (t.closePass.settle id image needs endsPass).2.stats.placed = t.stats.placed := by
  rw [placed_settle, stats_closePass]

theorem placed_relax (t : Tracker) (id : ImageId) :
    (t.relax id).2.stats.placed = t.stats.placed := by
  rcases t.relax_cases id with ⟨h, -⟩ | ⟨image, targets, -, -, h⟩
  · rw [h]
  · rw [h]
    exact placed_settle t id image _ false

theorem Records.apart (h : Records t id image x request? t')
    (hx : x.command.isRendering = false) :
    t'.stats.placed = t.stats.placed ∧ (t'.pass? = t.pass? ∨ t'.pass? = none) := by
  cases h with
  | folds hx' => exact absurd hx (by rw [hx']; simp)
  | begins hx' => exact absurd hx (by rw [hx']; simp)
  | ends => exact ⟨placed_closePass_settle t id image _ _, .inr (pass?_closePass t)⟩
  | drops => exact ⟨placed_closePass_settle t id image _ _, .inr (pass?_closePass t)⟩
  | stays => exact ⟨placed_settle t id image _ false, .inl rfl⟩

theorem recordAccepted_of_isRendering (hx : x.command.isRendering = true) :
    t.recordAccepted id image x = t.recordRendering id image x.command (x.needs t.policy) := by
  obtain ⟨command, coversImage⟩ := x
  cases command with
  | draw uses => rfl
  | clear aspects rect => rfl
  | discard aspects => exact absurd hx (by simp [Command.isRendering])
  | transition targets => exact absurd hx (by simp [Command.isRendering])

theorem renders_of_accept {command : Command} {x? : Option Accepted}
    (hi : t.image? id = some image) (ha : image.accept id command = .ok x?) :
    Moment.renders ⟨t, .record id command⟩ = x?.any fun x => x.command.isRendering := by
  have hok : (t.record id command).1.toOption.isSome = true := by
    cases x? <;> simp only [record, lookup_eq_ok.mpr hi, ha] <;> rfl
  rw [Moment.renders_record, hok, Bool.true_and, hi, Option.any_some,
    TrackedImage.renders_of_normalize (TrackedImage.normalize_of_accept ha).2]

theorem apart_or_enters_record (t : Tracker) (id : ImageId) (command : Command) :
    Apart t (.record id command) ∨
      ∃ moves levels writes, Enters t (.record id command) id moves levels writes := by
  rcases t.record_cases id command with
    ⟨e, -, he⟩ | ⟨image, hi, ha, he⟩ | ⟨image, x, request?, t', hi, ha, hrecords, he⟩
  · refine .inl ⟨?_, by rw [act, he], .inl (by rw [act, he])⟩
    rw [Moment.renders_record, he]
    rfl
  · exact .inl ⟨renders_of_accept hi ha, by rw [act, he], .inl (by rw [act, he])⟩
  · have hrenders := renders_of_accept hi ha
    rw [Option.any_some] at hrenders
    cases hx : x.command.isRendering with
    | false =>
        obtain ⟨hstats, hpass⟩ := hrecords.apart hx
        exact .inl ⟨hrenders.trans hx, by rw [act, he, hstats], by rw [act, he]; exact hpass⟩
    | true =>
        have hact : t.act (.record id command) =
            ((t.recordRendering id image x.command (x.needs t.policy)).1.toList,
              (t.recordRendering id image x.command (x.needs t.policy)).2) := by
          rw [← recordAccepted_of_isRendering hx]
          simp only [act, record, lookup_eq_ok.mpr hi, ha]
          rfl
        obtain ⟨endsPass, hrequest⟩ :=
          (settles_recordRendering t id image x.command (x.needs t.policy)).request
        obtain ⟨counted, hstats⟩ := t.stats_recordRendering id image x.command (x.needs t.policy)
        refine .inr ⟨image.moves t.policy.scheme (x.needs t.policy),
          image.settledLevels (x.needs t.policy), x.command.writes, hrenders.trans hx, rfl,
          ?_, ?_, ?_⟩
        · rw [hact, hrequest]
          exact TrackedImage.toList_request?_eq_nil
        · rw [hact, hstats, Stats.placed_countPlacement, Stats.placed_countPlacement]
          cases counted <;> rfl
        · rw [hact]
          exact t.pass?_recordRendering id image x.command _

theorem apart_of_overwrites (hrenders : Moment.renders ⟨t, α⟩ = false)
    (h : Overwrites id t (t.act α).2) : Apart t α := by
  refine ⟨hrenders, by rw [h.stats], ?_⟩
  rw [h.pass, pass?_closePassOn]
  split
  · exact .inr rfl
  · exact .inl rfl

theorem apart_or_enters (t : Tracker) (α : Action) :
    Apart t α ∨ ∃ id moves levels writes, Enters t α id moves levels writes := by
  cases α with
  | register info =>
      obtain ⟨registry, hregistry⟩ := t.exists_register_eq info
      exact .inl ⟨rfl, by rw [act, hregistry], .inl (by rw [act, hregistry])⟩
  | unregister id => exact .inl (apart_of_overwrites rfl (t.overwrites_unregister id))
  | seed id levels => exact .inl (apart_of_overwrites rfl (t.overwrites_seed id levels))
  | record id command => exact (t.apart_or_enters_record id command).imp_right fun h => ⟨id, h⟩
  | closePass => exact .inl ⟨rfl, by rw [act, stats_closePass], .inr (pass?_closePass t)⟩
  | relax id => exact .inl ⟨rfl, t.placed_relax id, .inl (pass?_relax t id)⟩

/-! ### Passes that end -/

theorem Apart.ended_append (h : Apart t α) :
    Moment.ended ⟨t, α⟩ ++ (t.act α).2.pass?.toList = t.pass?.toList := by
  rw [Moment.ended, h.renders, Bool.false_and, Bool.or_false, Moment.after]
  rcases h.pass with hsame | hclosed
  · rw [hsame]
    cases t.pass? <;> rfl
  · rw [hclosed]
    exact List.append_nil _

section enters

variable {moves : Bool} {levels : PerAspect Level} {writes : PerAspect Bool}
  (h : Enters t α id moves levels writes)

include h

theorem Enters.meetsPass_eq : Moment.meetsPass ⟨t, α⟩ = Pass.isOpenOn t.pass? id := by
  rw [Moment.meetsPass, show (Moment.mk t α).action = α from rfl, h.settled]
  rfl

theorem Enters.isEmpty_requests : (Moment.requests ⟨t, α⟩).isEmpty = !moves := by
  rw [Bool.eq_iff_iff, List.isEmpty_iff, Bool.not_eq_true']
  exact h.requests

theorem Enters.folds_eq : Moment.folds ⟨t, α⟩ = decide (Pass.place t.pass? id moves = .fold) := by
  rw [Moment.folds, h.renders, h.meetsPass_eq, h.isEmpty_requests, Bool.eq_iff_iff,
    decide_eq_true_iff, Pass.place_eq_fold, Bool.true_and, Bool.and_eq_true, Bool.not_eq_true']

theorem Enters.splits_eq :
    Moment.splits ⟨t, α⟩ = decide (Pass.place t.pass? id moves = .split) := by
  rw [Moment.splits, h.renders, h.meetsPass_eq, h.isEmpty_requests, Bool.eq_iff_iff,
    decide_eq_true_iff, Pass.place_eq_split, Bool.true_and, Bool.and_eq_true, Bool.not_not]

/-- A draw or clear that goes into the open pass adds to it. -/
theorem Enters.fold (hfold : Pass.place t.pass? id moves = .fold) :
    ∃ p, t.pass? = some p ∧ (t.act α).2.pass? = some (p.record writes) ∧
      Moment.ended ⟨t, α⟩ = [] := by
  obtain ⟨p, hp, -⟩ := Pass.isOpenOn_iff.mp (Pass.place_eq_fold.mp hfold).1
  have hpass := h.pass
  rw [hfold, if_pos rfl, hp, Option.map_some] at hpass
  refine ⟨p, hp, hpass, ?_⟩
  rw [Moment.ended, h.folds_eq, hfold, Moment.after, hpass]
  simp

theorem Enters.lt_of_hasRoom (hfold : Pass.place t.pass? id moves = .fold)
    (hroom : Moment.hasRoom ⟨t, α⟩ = true) {p : Pass} (hp : t.pass? = some p) :
    p.operations.toNat + 1 < UInt32.size := by
  rw [Moment.hasRoom, h.folds_eq, hfold, hp] at hroom
  simpa using hroom

/-- Any other draw or clear begins a pass, and the open one ends. -/
theorem Enters.begins (hplace : Pass.place t.pass? id moves ≠ .fold) :
    (t.act α).2.pass? = some ((Pass.start id levels).record writes) ∧
      Moment.ended ⟨t, α⟩ = t.pass?.toList := by
  have hpass := h.pass
  rw [if_neg hplace] at hpass
  refine ⟨hpass, ?_⟩
  rw [Moment.ended, h.renders, h.folds_eq, decide_eq_false hplace, Bool.not_false, Bool.and_true,
    Bool.or_true, if_pos rfl]

end enters

/-- A moment that splits a pass ends it. -/
theorem ended_ne_nil_of_splits {m : Moment} (h : m.splits = true) : m.ended ≠ [] := by
  obtain ⟨t, α⟩ := m
  rcases t.apart_or_enters α with hapart | ⟨id, moves, levels, writes, henters⟩
  · rw [Moment.splits, hapart.renders] at h
    exact absurd h (by simp)
  · rw [henters.splits_eq, decide_eq_true_iff] at h
    obtain ⟨p, hp, -⟩ := Pass.isOpenOn_iff.mp (Pass.place_eq_split.mp h).1
    rw [(henters.begins (by rw [h]; simp)).2, hp]
    simp

/-! ### Aspects that give up writing -/

theorem level_eq (t : Tracker) (id : ImageId) (a : Aspect) :
    t.level id a = (t.beliefs id).elim .undefined fun image => image.levels.get a := by
  rw [level, beliefs]
  cases t.image? id <;> rfl

theorem stats_act_of_settled? (hα : α.settled? = none) : (t.act α).2.stats = t.stats := by
  cases α with
  | register info =>
      obtain ⟨registry, hregistry⟩ := t.exists_register_eq info
      rw [act, hregistry]
  | unregister id => exact (t.overwrites_unregister id).stats
  | seed id levels => exact (t.overwrites_seed id levels).stats
  | closePass => exact stats_closePass t
  | record id command => exact absurd hα (by simp [Action.settled?])
  | relax id => exact absurd hα (by simp [Action.settled?])

theorem decays_act_eq (t : Tracker) (α : Action) :
    (t.act α).2.stats.decays = t.stats.decays + (Moment.relaxed ⟨t, α⟩).length := by
  cases hα : α.settled? with
  | none =>
      rw [stats_act_of_settled? hα, Moment.relaxed, show (Moment.mk t α).action = α from rfl, hα]
      rfl
  | some id =>
      have hrelaxed : Moment.relaxed ⟨t, α⟩ = Aspect.all.filter fun a =>
          (t.level id a).relaxes ((t.act α).2.level id a) := by
        rw [Moment.relaxed, show (Moment.mk t α).action = α from rfl, hα]
        rfl
      rw [hrelaxed]
      cases hi : t.image? id with
      | none =>
          have hquiet : ∀ a, (t.level id a).relaxes (t.level id a) = false :=
            fun a => Level.relaxes_eq_false_of_le (Level.le_refl _)
          simp only [act_of_untracked α hα hi, hquiet]
          rfl
      | some image =>
          -- the levels on both sides are those that settling starts from and ends with
          have hb := beliefs_of_image? hi
          have hb' := (act_settles hα hb).2
          rw [decays_act hα hi, TrackedImage.decays_eq]
          simp only [level_eq, hb', Function.update_self, hb, Option.elim_some]
          rfl

/-! ### Accounts -/

/-- Whether the counters and the open pass account for some moments. -/
structure AddsUp (t : Tracker) (ms : List Moment) (t' : Tracker) : Prop where
  counts : t.stats.Counts (ms.flatMap Moment.requests) t'.stats
  folded : t'.stats.folded = t.stats.folded + ms.countP Moment.folds
  rendered : t'.stats.passes + t'.stats.folded =
    t.stats.passes + t.stats.folded + ms.countP Moment.renders
  passes : t'.stats.passes + t.pass?.toList.length =
    t.stats.passes + (ms.flatMap Moment.ended ++ t'.pass?.toList).length
  operations : (∀ m ∈ ms, m.hasRoom = true) →
    ((ms.flatMap Moment.ended ++ t'.pass?.toList).map fun p => p.operations.toNat).sum =
      (t.pass?.toList.map fun p => p.operations.toNat).sum + ms.countP Moment.renders
  splits : t'.stats.splits = t.stats.splits + ms.countP Moment.splits
  decays : t'.stats.decays = t.stats.decays + (ms.flatMap Moment.relaxed).length

theorem addsUp_nil (t : Tracker) : t.AddsUp [] t :=
  ⟨Stats.counts_nil _, rfl, rfl, rfl, fun _ => rfl, rfl, rfl⟩

theorem Apart.addsUp (h : Apart t α) : t.AddsUp [⟨t, α⟩] (t.act α).2 := by
  have hpasses : (t.act α).2.stats.passes = t.stats.passes := congrArg Prod.fst h.stats
  have hsplits : (t.act α).2.stats.splits = t.stats.splits := congrArg (fun s => s.2.1) h.stats
  have hfolded : (t.act α).2.stats.folded = t.stats.folded := congrArg (fun s => s.2.2) h.stats
  have hfolds : Moment.folds ⟨t, α⟩ = false := by rw [Moment.folds, h.renders]; rfl
  have hnot : Moment.splits ⟨t, α⟩ = false := by rw [Moment.splits, h.renders]; rfl
  refine ⟨?_, ?_, ?_, ?_, ?_, ?_, ?_⟩
  · rw [List.flatMap_singleton]
    exact t.counts_act α
  · rw [hfolded, List.countP_singleton, hfolds]
    rfl
  · rw [hpasses, hfolded, List.countP_singleton, h.renders]
    rfl
  · rw [List.flatMap_singleton, h.ended_append, hpasses]
  · intro _
    rw [List.flatMap_singleton, h.ended_append, List.countP_singleton, h.renders]
    rfl
  · rw [hsplits, List.countP_singleton, hnot]
    rfl
  · rw [List.flatMap_singleton]
    exact t.decays_act_eq α

theorem Enters.addsUp {moves : Bool} {levels : PerAspect Level} {writes : PerAspect Bool}
    (h : Enters t α id moves levels writes) : t.AddsUp [⟨t, α⟩] (t.act α).2 := by
  have hstats := h.stats
  rw [Stats.placed_countPlacement] at hstats
  have hpasses : (t.act α).2.stats.passes = _ := congrArg Prod.fst hstats
  have hsplits : (t.act α).2.stats.splits = _ := congrArg (fun s => s.2.1) hstats
  have hfolded : (t.act α).2.stats.folded = _ := congrArg (fun s => s.2.2) hstats
  refine ⟨?_, ?_, ?_, ?_, ?_, ?_, ?_⟩
  · rw [List.flatMap_singleton]
    exact t.counts_act α
  · rw [hfolded, List.countP_singleton, h.folds_eq]
    simp only [decide_eq_true_eq]
  · rw [hpasses, hfolded, List.countP_singleton, h.renders]
    split <;> simp only [if_true] <;> omega
  · rw [List.flatMap_singleton, hpasses]
    by_cases hfold : Pass.place t.pass? id moves = .fold
    · obtain ⟨p, hp, hp', hended⟩ := h.fold hfold
      rw [if_pos hfold, hp, hp', hended]
      rfl
    · obtain ⟨hp', hended⟩ := h.begins hfold
      rw [if_neg hfold, hp', hended, List.length_append, Option.toList_some, List.length_singleton]
      omega
  · intro hroom
    rw [List.flatMap_singleton, List.countP_singleton, h.renders, if_pos rfl]
    by_cases hfold : Pass.place t.pass? id moves = .fold
    · obtain ⟨p, hp, hp', hended⟩ := h.fold hfold
      have hlt := h.lt_of_hasRoom hfold (hroom _ List.mem_cons_self) hp
      rw [hp, hp', hended]
      exact Pass.toNat_operations_add hlt
    · obtain ⟨hp', hended⟩ := h.begins hfold
      rw [hp', hended, List.map_append, List.sum_append]
      rfl
  · rw [hsplits, List.countP_singleton, h.splits_eq]
    simp only [decide_eq_true_eq]
  · rw [List.flatMap_singleton]
    exact t.decays_act_eq α

theorem addsUp_act (t : Tracker) (α : Action) : t.AddsUp [⟨t, α⟩] (t.act α).2 := by
  rcases t.apart_or_enters α with hapart | ⟨id, moves, levels, writes, henters⟩
  · exact hapart.addsUp
  · exact henters.addsUp

theorem AddsUp.append {ms ms' : List Moment} (h : t.AddsUp ms t') (h' : t'.AddsUp ms' t'') :
    t.AddsUp (ms ++ ms') t'' := by
  have hpasses := h.passes
  have hpasses' := h'.passes
  simp only [List.length_append] at hpasses hpasses'
  refine ⟨?_, ?_, ?_, ?_, ?_, ?_, ?_⟩
  · rw [List.flatMap_append]
    exact h.counts.append h'.counts
  · rw [h'.folded, h.folded, List.countP_append, Nat.add_assoc]
  · rw [h'.rendered, h.rendered, List.countP_append, Nat.add_assoc]
  · simp only [List.flatMap_append, List.length_append]
    omega
  · intro hroom
    obtain ⟨hroom, hroom'⟩ := List.forall_mem_append.mp hroom
    have hoperations := h.operations hroom
    have hoperations' := h'.operations hroom'
    simp only [List.map_append, List.sum_append] at hoperations hoperations'
    simp only [List.flatMap_append, List.map_append, List.sum_append, List.countP_append]
    omega
  · rw [h'.splits, h.splits, List.countP_append, Nat.add_assoc]
  · rw [h'.decays, h.decays, List.flatMap_append, List.length_append, Nat.add_assoc]

theorem addsUp_acts (t : Tracker) (αs : List Action) :
    t.AddsUp (t.moments αs) (t.acts αs).2 := by
  induction αs generalizing t with
  | nil => exact t.addsUp_nil
  | cons α αs ih => exact (t.addsUp_act α).append (ih _)

theorem addsUp_after (t : Tracker) (calls : List Call) :
    t.AddsUp (t.trail calls) (t.after calls) := by
  induction calls generalizing t with
  | nil => exact t.addsUp_nil
  | cons call calls ih =>
      have hstep := t.addsUp_acts (t.actions call)
      rw [← step_snd] at hstep
      exact hstep.append (ih _)

end Tracker

/-! ### Image barriers -/

/-- The greatest number of layouts that a request moves. -/
def LayoutScheme.most : LayoutScheme → Nat
  | separate => 2
  | shared => 1

namespace TrackedImage

theorem length_steps_le (image : TrackedImage) (scheme : LayoutScheme) (needs : PerAspect Need) :
    (image.steps scheme needs).length ≤ scheme.most := by
  cases scheme with
  | separate =>
      rw [steps, LayoutScheme.steps]
      exact List.length_filterMap_le _ Aspect.all
  | shared =>
      rw [steps, LayoutScheme.steps]
      cases image.planeSet.step? image.levels (image.changes needs) with
      | none => exact Nat.zero_le _
      | some step => exact Nat.le_refl _

/-- A request that is made has an image barrier for each layout it moves. -/
theorem length_imageBarriers_request {image : TrackedImage} {scheme : LayoutScheme}
    {needs : PerAspect Need} (h : image.moves scheme needs = true) (id : ImageId)
    (endsPass : Bool) :
    1 ≤ (image.request scheme needs id endsPass).imageBarriers.length ∧
      (image.request scheme needs id endsPass).imageBarriers.length ≤ scheme.most := by
  rw [Request.imageBarriers, List.length_map, steps_request]
  rw [moves, Bool.not_eq_true', List.isEmpty_eq_false_iff] at h
  exact ⟨List.length_pos_iff.mpr h, image.length_steps_le scheme needs⟩

end TrackedImage

namespace Tracker

variable {t : Tracker}

theorem length_imageBarriers_of_mem {r : Request} {calls : List Call} (h : r ∈ t.requests calls) :
    1 ≤ r.imageBarriers.length ∧ r.imageBarriers.length ≤ t.policy.scheme.most := by
  induction calls generalizing t with
  | nil => exact absurd h List.not_mem_nil
  | cons call calls ih =>
      rw [requests_cons, List.mem_append] at h
      rcases h with h | h
      · obtain ⟨α, -, image, x, -, -, hmoves, hr⟩ := origin_of_mem_step h
        rw [hr]
        exact TrackedImage.length_imageBarriers_request hmoves _ _
      · have hcalls := ih h
        rw [policy_step] at hcalls
        exact hcalls

theorem length_flatMap_imageBarriers {rs : List Request} {n : Nat}
    (h : ∀ r ∈ rs, 1 ≤ r.imageBarriers.length ∧ r.imageBarriers.length ≤ n) :
    rs.length ≤ (rs.flatMap Request.imageBarriers).length ∧
      (rs.flatMap Request.imageBarriers).length ≤ n * rs.length := by
  induction rs with
  | nil => exact ⟨Nat.le_refl _, Nat.zero_le _⟩
  | cons r rs ih =>
      obtain ⟨hfirst, hrest⟩ := List.forall_mem_cons.mp h
      obtain ⟨hle, hle'⟩ := ih hrest
      rw [List.flatMap_cons, List.length_append, List.length_cons, Nat.mul_add]
      omega

/-! ### Runs -/

theorem countP_le_length_flatMap {α β : Type} {p : α → Bool} {f : α → List β} {xs : List α}
    (h : ∀ x, p x = true → f x ≠ []) : xs.countP p ≤ (xs.flatMap f).length := by
  induction xs with
  | nil => exact Nat.le_refl _
  | cons x xs ih =>
      rw [List.countP_cons, List.flatMap_cons, List.length_append, Nat.add_comm]
      refine Nat.add_le_add ?_ ih
      split
      · rename_i hx
        exact List.length_pos_iff.mpr (h x hx)
      · exact Nat.zero_le _

/-- The counters of a tracker are an exact account of its run.  Transitions are the requests handed
out, with one image barrier each if the layout is shared, and one or two otherwise.  The draws and
clears recorded are those that began a pass and those folded into one, and they are the operations
of the passes that have ended and of the open one, as long as no pass has more than it can count.
Splits are the draws and clears that asked for layouts while a pass was open on their image.  Decays
are the aspects that recording commands and finishing took from writable to another level. -/
theorem counters_account_for_run (policy : Policy) (calls : List Call) :
    let t := (empty policy).after calls
    let requests := (empty policy).requests calls
    let trail := (empty policy).trail calls
    let passes := trail.flatMap Moment.ended ++ t.pass?.toList
    (t.stats.transitions = requests.length ∧
      t.stats.imageBarriers = (requests.flatMap Request.imageBarriers).length ∧
      match policy.scheme with
      | .shared => t.stats.imageBarriers = t.stats.transitions
      | .separate => t.stats.transitions ≤ t.stats.imageBarriers ∧
          t.stats.imageBarriers ≤ 2 * t.stats.transitions) ∧
    (t.stats.passes = passes.length ∧ t.stats.folded = trail.countP Moment.folds ∧
      t.stats.passes + t.stats.folded = trail.countP Moment.renders ∧
      ((∀ m ∈ trail, m.hasRoom = true) →
        t.stats.passes + t.stats.folded = (passes.map fun p => p.operations.toNat).sum)) ∧
    (t.stats.splits = trail.countP Moment.splits ∧
      t.stats.splits ≤ t.stats.transitions ∧ t.stats.splits ≤ t.stats.passes) ∧
    t.stats.decays = (trail.flatMap Moment.relaxed).length := by
  intro t requests trail passes
  have h : (empty policy).AddsUp trail t := addsUp_after (empty policy) calls
  have htransitions : t.stats.transitions = requests.length := by
    rw [h.counts.transitions, requests_trail]
    exact Nat.zero_add _
  have hbarriers : t.stats.imageBarriers = (requests.flatMap Request.imageBarriers).length := by
    rw [h.counts.imageBarriers, requests_trail]
    exact Nat.zero_add _
  have hpasses : t.stats.passes = passes.length := h.passes.trans (Nat.zero_add _)
  have hfolded : t.stats.folded = trail.countP Moment.folds := h.folded.trans (Nat.zero_add _)
  have hrendered : t.stats.passes + t.stats.folded = trail.countP Moment.renders :=
    h.rendered.trans (Nat.zero_add _)
  have hsplits : t.stats.splits = trail.countP Moment.splits := h.splits.trans (Nat.zero_add _)
  have hdecays : t.stats.decays = (trail.flatMap Moment.relaxed).length :=
    h.decays.trans (Nat.zero_add _)
  refine ⟨⟨htransitions, hbarriers, ?_⟩,
    ⟨hpasses, hfolded, hrendered, fun hroom => ?_⟩, ⟨hsplits, ?_, ?_⟩, hdecays⟩
  · have hmost : ∀ r ∈ requests, 1 ≤ r.imageBarriers.length ∧
        r.imageBarriers.length ≤ policy.scheme.most := fun r hr => length_imageBarriers_of_mem hr
    obtain ⟨hle, hle'⟩ := length_flatMap_imageBarriers hmost
    rw [hbarriers, htransitions]
    split
    · rename_i hscheme
      rw [hscheme, LayoutScheme.most, Nat.one_mul] at hle'
      exact Nat.le_antisymm hle' hle
    · rename_i hscheme
      rw [hscheme] at hle'
      exact ⟨hle, hle'⟩
  · rw [hrendered, h.operations hroom]
    exact (Nat.zero_add _).symm
  · rw [hsplits, htransitions, ← show _ = requests from requests_trail _ _]
    refine countP_le_length_flatMap fun m hm => ?_
    rw [Moment.splits, Bool.and_eq_true, Bool.and_eq_true] at hm
    simpa using hm.2
  · rw [hsplits, hpasses, List.length_append]
    exact Nat.le_add_right_of_le (countP_le_length_flatMap fun m hm => ended_ne_nil_of_splits hm)

/-- Two draws that test depth, one that writes it, and the end of the recording. -/
def testThenWrite : List Call :=
  [.register { handle := 7, format := 129, extent := ⟨64, 64⟩ },
    .record ⟨0, 0⟩ (.draw ⟨⟨true, false⟩, .none⟩), .record ⟨0, 0⟩ (.draw ⟨⟨true, false⟩, .none⟩),
    .record ⟨0, 0⟩ (.draw ⟨⟨true, true⟩, .none⟩), .finish]

theorem counters_account_for_run_testThenWrite :
    let t := (empty {}).after testThenWrite
    let trail := (empty {}).trail testThenWrite
    let passes := trail.flatMap Moment.ended ++ t.pass?.toList
    (∀ m ∈ trail, m.hasRoom = true) ∧ passes.map Pass.operations = [2, 1] ∧
      t.stats.passes + t.stats.folded = (passes.map fun p => p.operations.toNat).sum ∧
      (t.stats.splits = 1 ∧ trail.countP Moment.splits = 1) ∧
      t.stats.decays = 1 ∧ (trail.flatMap Moment.relaxed).length = 1 := by
  intro t trail passes
  have hroom : ∀ m ∈ trail, m.hasRoom = true := by decide
  have hoperations : passes.map Pass.operations = [2, 1] := by decide
  have hsplits : trail.countP Moment.splits = 1 := by decide
  have hrelaxed : (trail.flatMap Moment.relaxed).length = 1 := by decide
  obtain ⟨-, ⟨-, -, -, hsum⟩, ⟨hcounted, -, -⟩, hdecays⟩ :=
    counters_account_for_run {} testThenWrite
  exact ⟨hroom, hoperations, hsum hroom, ⟨hcounted.trans hsplits, hsplits⟩,
    hdecays.trans hrelaxed, hrelaxed⟩

end Tracker

end DepthStencil
