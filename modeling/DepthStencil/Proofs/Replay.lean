import DepthStencil.Proofs.Origins
import DepthStencil.Proofs.PhysicalLayout

/-! # Replaying requests on physical images

A `Replay` runs a tracker beside the images it speaks of.  The layouts of the images change by the
barriers of the requests, one after another, and by nothing else (`Physical.recordAll`).  An image
that enters tracking, or whose levels are overwritten, is taken to be as it is believed to be; where
nothing is believed of it, it may be in any layout (`Physical.enter`).

Throughout a replay the images are as they are believed to be (`Replay.layouts_match`). -/

namespace DepthStencil

/-! ### Executable definitions -/

/-- The layouts that images are in. -/
abbrev Physical := ImageId → PerAspect ImageLayout

/-- Some layouts for an image: one for each aspect, or the first one for all of them. -/
def LayoutScheme.spread : LayoutScheme → PerAspect ImageLayout → PerAspect ImageLayout
  | separate, layouts => layouts
  | shared, layouts => .both layouts.depth

/-- The layouts of an image as it is believed to be, with those in `unknown` where nothing is. -/
def TrackedImage.entryLayouts (image : TrackedImage) (scheme : LayoutScheme)
    (unknown : PerAspect ImageLayout) : PerAspect ImageLayout :=
  .ofFn fun a =>
    if image.believedLayout scheme a = .undefined then (scheme.spread unknown).get a
    else image.believedLayout scheme a

/-- The image that a call brings into tracking or overwrites, by the answer to the call. -/
def Call.entered? : Call → Answer → Option ImageId
  | register _, .registered id => some id
  | seed id _, .seeded => some id
  | _, _ => none

namespace Physical

/-- The layouts after the barriers of a request. -/
def record (p : Physical) (r : Request) : Physical :=
  Function.update p r.image (ImageBarrier.executeAll (p r.image) r.imageBarriers)

/-- The layouts after the barriers of some requests. -/
def recordAll (p : Physical) (rs : List Request) : Physical := rs.foldl record p

/-- The layouts once an image has entered tracking. -/
def enter (p : Physical) (t : Tracker) (entered? : Option ImageId)
    (unknown : PerAspect ImageLayout) : Physical := fun id =>
  match t.image? id with
  | none => p id
  | some image =>
    if entered? = some id then image.entryLayouts t.policy.scheme unknown else p id

/-- Whether the barriers of some requests fit when they are executed one after another. -/
def Fits : Physical → List Request → Prop
  | _, [] => True
  | p, r :: rs => ImageBarrier.FitAll (p r.image) r.imageBarriers ∧ (p.record r).Fits rs

end Physical

/-- A tracker and the images it speaks of. -/
structure Replay where
  tracker : Tracker
  physical : Physical

namespace Replay

/-- A replay in which nothing is tracked. -/
def start (policy : Policy) (p : Physical) : Replay := ⟨.empty policy, p⟩

/-- Carries out a call and executes the barriers it asks for. -/
def step (s : Replay) (call : Call) (unknown : PerAspect ImageLayout) : Replay :=
  let result := s.tracker.step call
  ⟨result.2, (s.physical.recordAll result.1.requestList).enter result.2 (call.entered? result.1)
    unknown⟩

/-- Carries out calls one after another. -/
def run (s : Replay) (calls : List (Call × PerAspect ImageLayout)) : Replay :=
  calls.foldl (fun s c => s.step c.1 c.2) s

end Replay

/-! ### Entering images -/

theorem TrackedImage.matches_entryLayouts (image : TrackedImage) (scheme : LayoutScheme)
    (unknown : PerAspect ImageLayout) :
    image.Matches scheme (image.entryLayouts scheme unknown) := by
  constructor
  · intro a _ hdef
    rw [entryLayouts, PerAspect.get_ofFn, if_neg hdef]
  · intro hscheme a a' _ _
    subst hscheme
    rw [entryLayouts, PerAspect.get_ofFn, PerAspect.get_ofFn, LayoutScheme.spread,
      PerAspect.get_both, PerAspect.get_both]
    rfl

/-- Whether images in some layouts are as they are believed to be. -/
def Beliefs.Match (scheme : LayoutScheme) (b : Beliefs) (p : Physical) : Prop :=
  b.All fun id image => image.Matches scheme (p id)

theorem Physical.enter_none (p : Physical) (t : Tracker) (unknown : PerAspect ImageLayout) :
    p.enter t none unknown = p := by
  funext id
  unfold enter
  split
  · rfl
  · rw [if_neg (by simp)]

/-- Images match after one of them has entered tracking if the other ones matched before. -/
theorem Beliefs.Match.enter {b : Beliefs} {p : Physical} {t : Tracker} {id : ImageId}
    (hm : b.Match t.policy.scheme p) (hb : ∀ id', id' ≠ id → t.beliefs id' = b id')
    (unknown : PerAspect ImageLayout) :
    t.beliefs.Match t.policy.scheme (p.enter t (some id) unknown) := by
  intro id' image himage
  obtain ⟨image', himage', rfl⟩ := Tracker.exists_image?_of_beliefs himage
  simp only [Physical.enter, himage']
  by_cases hid : id' = id
  · rw [hid, if_pos rfl]
    exact image'.endPass.matches_entryLayouts t.policy.scheme unknown
  · rw [if_neg fun h => hid (Option.some_inj.mp h).symm]
    exact hm id' _ (hb id' hid ▸ himage)

/-! ### Actions -/

/-- Whether an action brings an image into tracking or overwrites what is believed of one. -/
def Action.enters : Action → Bool
  | register _ | seed _ _ => true
  | unregister _ | record _ _ | closePass | relax _ => false

/-- One action: its barriers fit, and the images match again once they are executed. -/
theorem Beliefs.Turn.matches {policy : Policy} {b b' : Beliefs} {α : Action} {rs : List Request}
    {p : Physical} (h : Turn policy b α rs b') (hα : α.enters = false)
    (hm : b.Match policy.scheme p) : p.Fits rs ∧ b'.Match policy.scheme (p.recordAll rs) := by
  cases h with
  | keep h => exact ⟨trivial, hm⟩
  | register hf hid => exact absurd hα (by simp [Action.enters])
  | seed levels hid => exact absurd hα (by simp [Action.enters])
  | unregister id => exact ⟨trivial, hm.erase id⟩
  | @settle _ id image x endsPass hid hx =>
      have hfit := (hm id image hid).fitAll (fun _ => Action.has_of_accepted? hx) id endsPass
      have hsettle := (hm id image hid).settle (x.needs policy) id endsPass
      have hupdate : ∀ layouts, (image.settle policy.scheme (x.needs policy)).Matches
          policy.scheme layouts → Match policy.scheme
            (Function.update b id (some (image.settle policy.scheme (x.needs policy))))
            (Function.update p id layouts) := by
        intro layouts hlayouts
        refine all_update ?_ fun id' image' hid' h' => ?_
        · rw [Function.update_self]
          exact hlayouts
        · rw [Function.update_of_ne hid']
          exact hm id' image' h'
      cases hmoves : image.moves policy.scheme (x.needs policy) with
      | true =>
          rw [TrackedImage.request?, hmoves]
          exact ⟨⟨hfit, trivial⟩, hupdate _ hsettle⟩
      | false =>
          rw [TrackedImage.imageBarriers_eq_nil_of_moves_eq_false hmoves] at hsettle
          have hsame := hupdate (p id) hsettle
          rw [Function.update_eq_self] at hsame
          rw [TrackedImage.request?, hmoves]
          exact ⟨trivial, hsame⟩

theorem Physical.fits_append : ∀ {rs rs' : List Request} {p : Physical},
    p.Fits (rs ++ rs') ↔ p.Fits rs ∧ (p.recordAll rs).Fits rs'
  | [], _, _ => ⟨fun h => ⟨trivial, h⟩, fun h => h.2⟩
  | r :: rs, rs', p => by
      rw [List.cons_append, Fits, Fits, fits_append, and_assoc]
      rfl

theorem Physical.recordAll_append (p : Physical) (rs rs' : List Request) :
    p.recordAll (rs ++ rs') = (p.recordAll rs).recordAll rs' := List.foldl_append

theorem Tracker.acts_matches : ∀ {αs : List Action} {t : Tracker} {p : Physical},
    (∀ α ∈ αs, α.enters = false) → t.beliefs.Match t.policy.scheme p →
      p.Fits (t.acts αs).1 ∧ (t.acts αs).2.beliefs.Match t.policy.scheme (p.recordAll (t.acts αs).1)
  | [], _, _, _, hm => ⟨trivial, hm⟩
  | α :: αs, t, p, hαs, hm => by
      obtain ⟨hfits, hm'⟩ := (act_turn t α).2.matches (hαs α List.mem_cons_self) hm
      rw [← policy_act t α] at hm'
      obtain ⟨hfits', hm''⟩ := acts_matches (fun α' h => hαs α' (List.mem_cons_of_mem α h)) hm'
      rw [policy_act] at hm''
      rw [acts, Physical.fits_append, Physical.recordAll_append]
      exact ⟨⟨hfits, hfits'⟩, hm''⟩

/-! ### Calls -/

namespace Replay

variable {s : Replay}

theorem step_matches_of_not_enters {call : Call} (unknown : PerAspect ImageLayout)
    (hregister : ∀ info, call ≠ .register info) (hseed : ∀ id levels, call ≠ .seed id levels)
    (hm : s.tracker.beliefs.Match s.tracker.policy.scheme s.physical) :
    s.physical.Fits (s.tracker.step call).1.requestList ∧
      (s.step call unknown).tracker.beliefs.Match s.tracker.policy.scheme
        (s.step call unknown).physical := by
  have hactions : ∀ α ∈ s.tracker.actions call, α.enters = false := by
    intro α hα
    cases α with
    | register info => exact absurd (Tracker.call_of_mem_actions hα rfl) (hregister info)
    | seed id levels => exact absurd (Tracker.call_of_mem_actions hα rfl) (hseed id levels)
    | unregister id => rfl
    | record id command => rfl
    | closePass => rfl
    | relax id => rfl
  have hnone : call.entered? (s.tracker.step call).1 = none := by
    unfold Call.entered?
    split
    · exact absurd rfl (hregister _)
    · exact absurd rfl (hseed _ _)
    · rfl
  obtain ⟨hfits, hm'⟩ := Tracker.acts_matches hactions hm
  rw [step]
  simp only
  rw [hnone, Physical.enter_none, Tracker.requestList_step, Tracker.step_snd]
  exact ⟨hfits, hm'⟩

theorem step_matches_register (info : Registration) (unknown : PerAspect ImageLayout)
    (hm : s.tracker.beliefs.Match s.tracker.policy.scheme s.physical) :
    (s.step (.register info) unknown).tracker.beliefs.Match s.tracker.policy.scheme
      (s.step (.register info) unknown).physical := by
  cases hf : Format.ofCode? info.format with
  | none =>
      have hrejected : s.tracker.step (.register info) =
          (.rejected (.notDepthStencil info.format), s.tracker) := by
        simp only [Tracker.step, Tracker.register, hf]
        rfl
      rw [step, hrejected]
      simp only
      rw [show Call.entered? (.register info) (.rejected (.notDepthStencil info.format)) = none
        from rfl, Physical.enter_none]
      exact hm
  | some format =>
      obtain ⟨hok, -, hb⟩ := Tracker.beliefs_register (t := s.tracker) hf
      have haccepted : s.tracker.step (.register info) =
          (.registered s.tracker.registry.nextId, (s.tracker.register info).2) := by
        rw [Tracker.step, Tracker.report, hok]
        rfl
      have hpolicy := (Tracker.register_turn s.tracker info).1
      rw [step, haccepted]
      simp only
      rw [← hpolicy] at hm ⊢
      refine Beliefs.Match.enter hm (fun id' hid => ?_) unknown
      rw [hb, Function.update_of_ne hid]

theorem step_matches_seed (id : ImageId) (levels : PerAspect Level)
    (unknown : PerAspect ImageLayout)
    (hm : s.tracker.beliefs.Match s.tracker.policy.scheme s.physical) :
    (s.step (.seed id levels) unknown).tracker.beliefs.Match s.tracker.policy.scheme
      (s.step (.seed id levels) unknown).physical := by
  cases hb : s.tracker.beliefs id with
  | none =>
      have hrejected : s.tracker.step (.seed id levels) =
          (.rejected (.untracked id), s.tracker.closePassOn id) := by
        rw [Tracker.step, Tracker.seed_of_beliefs_eq_none hb]
        rfl
      rw [step, hrejected]
      simp only
      rw [show Call.entered? (.seed id levels) (.rejected (.untracked id)) = none from rfl,
        Physical.enter_none, Tracker.beliefs_closePassOn]
      exact hm
  | some image =>
      obtain ⟨hok, hb'⟩ := Tracker.beliefs_seed hb levels
      have haccepted : s.tracker.step (.seed id levels) =
          (.seeded, (s.tracker.seed id levels).2) := by
        rw [Tracker.step, Tracker.report, hok]
        rfl
      have hpolicy := (Tracker.seed_turn s.tracker id levels).1
      rw [step, haccepted]
      simp only
      rw [← hpolicy] at hm ⊢
      refine Beliefs.Match.enter hm (fun id' hid => ?_) unknown
      rw [hb', Function.update_of_ne hid]

/-- One call: its barriers fit, and the images match again once they are executed. -/
theorem step_matches (call : Call) (unknown : PerAspect ImageLayout)
    (hm : s.tracker.beliefs.Match s.tracker.policy.scheme s.physical) :
    s.physical.Fits (s.tracker.step call).1.requestList ∧
      (s.step call unknown).tracker.beliefs.Match s.tracker.policy.scheme
        (s.step call unknown).physical := by
  by_cases hregister : ∃ info, call = .register info
  · obtain ⟨info, rfl⟩ := hregister
    refine ⟨?_, step_matches_register info unknown hm⟩
    rw [Tracker.requestList_step, Tracker.actions, Tracker.acts_singleton]
    trivial
  · by_cases hseed : ∃ id levels, call = .seed id levels
    · obtain ⟨id, levels, rfl⟩ := hseed
      refine ⟨?_, step_matches_seed id levels unknown hm⟩
      rw [Tracker.requestList_step, Tracker.actions, Tracker.acts_singleton]
      trivial
    · exact step_matches_of_not_enters unknown (fun info h => hregister ⟨info, h⟩)
        (fun id levels h => hseed ⟨id, levels, h⟩) hm

/-- In every replay the images are as they are believed to be. -/
theorem run_matches (s : Replay) (calls : List (Call × PerAspect ImageLayout))
    (hm : s.tracker.beliefs.Match s.tracker.policy.scheme s.physical) :
    (s.run calls).tracker.policy = s.tracker.policy ∧
      (s.run calls).tracker.beliefs.Match s.tracker.policy.scheme (s.run calls).physical := by
  induction calls generalizing s with
  | nil => exact ⟨rfl, hm⟩
  | cons c calls ih =>
      have hpolicy : (s.step c.1 c.2).tracker.policy = s.tracker.policy :=
        Tracker.policy_step s.tracker c.1
      have hstep := (step_matches c.1 c.2 hm).2
      rw [← hpolicy] at hstep ⊢
      exact ih (s.step c.1 c.2) hstep

/-- At every step of every replay the barriers of a call fit, they are well formed, and afterwards
each defined aspect is in the layout that its levels call for. -/
theorem layouts_match (policy : Policy) (p : Physical) (calls : List (Call × PerAspect ImageLayout))
    (call : Call) (unknown : PerAspect ImageLayout) :
    let s := (start policy p).run calls
    let s' := s.step call unknown
    (s.physical.Fits (s.tracker.step call).1.requestList ∧
        ∀ r ∈ (s.tracker.step call).1.requestList, ∃ image, s.tracker.image? r.image = some image ∧
          ∀ b ∈ r.imageBarriers, b.WellFormed policy.scheme image.planeSet) ∧
      ∀ id image, s'.tracker.image? id = some image →
        (∀ a, image.has a = true → image.levels.get a ≠ .undefined →
          (s'.physical id).get a = image.believedLayout policy.scheme a) ∧
        (policy.scheme = .shared → ∀ a a', image.has a = true → image.has a' = true →
          (s'.physical id).get a = (s'.physical id).get a') := by
  intro s s'
  have hstart : (start policy p).tracker.beliefs.Match policy.scheme p :=
    fun id image himage => absurd himage (by rw [start, Tracker.beliefs_empty]; simp)
  obtain ⟨hpolicy, hm⟩ := run_matches (start policy p) calls hstart
  have hscheme : s.tracker.policy.scheme = policy.scheme := congrArg Policy.scheme hpolicy
  obtain ⟨hfits, hm'⟩ := step_matches call unknown (hpolicy ▸ hm)
  rw [hscheme] at hm'
  refine ⟨⟨hfits, fun r hr => ?_⟩, fun id image himage => ?_⟩
  · obtain ⟨α, -, image, x, hi, -, hrequest⟩ := Tracker.exists_image?_of_mem_step hr
    refine ⟨image, hi, fun b hb => ?_⟩
    rw [hrequest, hscheme] at hb
    exact TrackedImage.wellFormed_of_mem_imageBarriers hb
  · have hmatches := hm' id _ (Tracker.beliefs_of_image? himage)
    exact ⟨fun a ha hl => hmatches.known a ha
      (TrackedImage.believedLayout_ne_undefined ha hl policy.scheme), hmatches.uniform⟩

end Replay

end DepthStencil
