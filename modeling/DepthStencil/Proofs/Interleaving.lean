import DepthStencil.Proofs.Counters
import DepthStencil.Proofs.Outlines
import DepthStencil.Proofs.SingleImage

/-! # Calls on different images

All images share one open pass, one registry and one set of counters, and a draw on one image may
end the pass on another.  Nevertheless what calls on an image come to depends on nothing but what is
believed of that image (`Tracker.AgreeOn`), apart from the note in a request that the open pass
ends.

So the calls on two images may be interleaved in any way, with the open pass ended anywhere in
between (`Interleaves`): each image ends as it would on its own, each call is answered in the same
way, and the counters of requests, barriers and aspects that gave up writing end the same
(`Tracker.images_independent`). -/

namespace DepthStencil

/-! ### Interleavings -/

/-- Whether a call works on an image that is tracked before and after. -/
def Call.WorksOn (id : ImageId) : Call → Prop
  | seed id' _ | record id' _ | resourceBarrier id' _ _ | clearView id' _ _
  | discardSubresources id' _ _ _ | drawPipeline id' _ _ => id' = id
  | register _ | unregister _ | closePass | finish => False

instance (id : ImageId) : (call : Call) → Decidable (call.WorksOn id)
  | .seed id' _ | .record id' _ | .resourceBarrier id' _ _ | .clearView id' _ _
  | .discardSubresources id' _ _ _ | .drawPipeline id' _ _ => inferInstanceAs (Decidable (id' = id))
  | .register _ | .unregister _ | .closePass | .finish => inferInstanceAs (Decidable False)

theorem Call.WorksOn.image? {id : ImageId} {call : Call} (h : call.WorksOn id) :
    call.image? = some id := by
  cases call with
  | seed id' levels => exact congrArg some h
  | record id' command => exact congrArg some h
  | resourceBarrier id' subresource states => exact congrArg some h
  | clearView id' flags rects => exact congrArg some h
  | discardSubresources id' first count hasRects => exact congrArg some h
  | drawPipeline id' pipeline view => exact congrArg some h
  | register info => exact h.elim
  | unregister id' => exact h.elim
  | closePass => exact h.elim
  | finish => exact h.elim

/-- Whether an action works on an image that is tracked before and after. -/
def Action.WorksOn (id : ImageId) : Action → Prop
  | seed id' _ | record id' _ => id' = id
  | register _ | unregister _ | closePass | relax _ => False

/-- The ways to merge two sequences of calls, with the open pass ended anywhere in between. -/
inductive Interleaves : List Call → List Call → List Call → Prop
  | nil : Interleaves [] [] []
  | left {call : Call} {A B calls : List Call} (h : Interleaves A B calls) :
      Interleaves (call :: A) B (call :: calls)
  | right {call : Call} {A B calls : List Call} (h : Interleaves A B calls) :
      Interleaves A (call :: B) (call :: calls)
  | pause {A B calls : List Call} (h : Interleaves A B calls) :
      Interleaves A B (.closePass :: calls)

theorem interleaves_append : ∀ A B : List Call, Interleaves A B (A ++ B)
  | [], [] => .nil
  | [], _ :: B => .right (interleaves_append [] B)
  | _ :: A, B => .left (interleaves_append A B)

/-! ### Answers -/

/-- The request without the note on the open pass. -/
def Request.bare (r : Request) : Request := { r with endsPass := false }

/-- The answer without notes on the open pass. -/
def Answer.bare : Answer → Answer
  | recorded request? => recorded (request?.map Request.bare)
  | requests rs => requests (rs.map Request.bare)
  | rejected reason => rejected reason
  | registered id => registered id
  | unregistered image => unregistered image
  | seeded => seeded
  | closed pass? => closed pass?

theorem TrackedImage.bare_request? (image : TrackedImage) (scheme : LayoutScheme)
    (needs : PerAspect Need) (id : ImageId) (endsPass : Bool) :
    (image.request? scheme needs id endsPass).toList.map Request.bare =
      (image.request? scheme needs id false).toList := by
  unfold request?
  split <;> rfl

theorem Request.flatMap_imageBarriers_bare (rs : List Request) :
    (rs.map bare).flatMap imageBarriers = rs.flatMap imageBarriers := List.flatMap_map ..

namespace Tracker

/-- Reports of the same kind that give the same reason or the same requests are the same. -/
theorem bare_report {α : Type} {f : α → Answer} {o o' : Outcome α}
    (hf : ∀ x, (f x).rejection? = none)
    (hbare : ∀ x x', (f x').requestList.map Request.bare = (f x).requestList.map Request.bare →
      (f x').bare = (f x).bare)
    (hreason : (report f o').1.rejection? = (report f o).1.rejection?)
    (hrequests : (report f o').1.requestList.map Request.bare =
      (report f o).1.requestList.map Request.bare) :
    (report f o').1.bare = (report f o).1.bare := by
  obtain ⟨result, t⟩ := o
  obtain ⟨result', t'⟩ := o'
  cases result with
  | error e =>
      cases result' with
      | error e' => exact congrArg Answer.rejected (Option.some_inj.mp hreason)
      | ok x' => exact absurd ((hf x').symm.trans hreason) (Option.some_ne_none e).symm
  | ok x =>
      cases result' with
      | error e' => exact absurd (hreason.trans (hf x)) (Option.some_ne_none e')
      | ok x' => exact hbare x x' hrequests

theorem bare_recorded (request? request?' : Option Request)
    (h : (Answer.recorded request?').requestList.map Request.bare =
      (Answer.recorded request?).requestList.map Request.bare) :
    (Answer.recorded request?').bare = (Answer.recorded request?).bare := by
  have h : request?'.toList.map Request.bare = request?.toList.map Request.bare := h
  cases request? with
  | none =>
      cases request?' with
      | none => rfl
      | some r' => exact absurd h (by simp)
  | some r =>
      cases request?' with
      | none => exact absurd h (by simp)
      | some r' => exact congrArg (fun r => Answer.recorded (some r)) (List.cons.inj h).1

theorem worksOn_of_mem_actions {t : Tracker} {id : ImageId} {call : Call} (h : call.WorksOn id)
    {α : Action} (hα : α ∈ t.actions call) : α.WorksOn id := by
  have hfinish : call ≠ .finish := fun hcall => by
    rw [hcall] at h
    exact h.elim
  have himage : α.image? = some id := (image?_of_mem_actions hfinish hα).trans h.image?
  cases α with
  | seed id' levels => exact Option.some_inj.mp himage
  | record id' command => exact Option.some_inj.mp himage
  | unregister id' =>
      rw [call_of_mem_actions hα rfl] at h
      exact h.elim
  | relax id' => exact absurd (call_of_mem_actions hα rfl) hfinish
  | register info => exact absurd himage (by simp [Action.image?])
  | closePass => exact absurd himage (by simp [Action.image?])

/-- The answers to the calls on an image, without notes on the open pass. -/
def answers (t : Tracker) (id : ImageId) : List Call → List Answer
  | [] => []
  | call :: calls =>
    let result := t.step call
    if call.image? = some id then result.1.bare :: result.2.answers id calls
    else result.2.answers id calls

/-! ### Trackers that agree on an image -/

/-- Whether two trackers believe the same of an image, under the same policy. -/
structure AgreeOn (id : ImageId) (t u : Tracker) : Prop where
  policy : u.policy = t.policy
  beliefs : u.beliefs id = t.beliefs id

/-- What a step on an image comes to in two trackers that agree on it. -/
structure Alike (id : ImageId) (t u : Tracker) (rs : List Request) (t' : Tracker)
    (rs' : List Request) (u' : Tracker) : Prop where
  agree : AgreeOn id t' u'
  requests : rs'.map Request.bare = rs.map Request.bare
  decays : t'.stats.decays + u.stats.decays = t.stats.decays + u'.stats.decays

variable {t u : Tracker} {id : ImageId}

theorem agreeOn_refl (id : ImageId) (t : Tracker) : AgreeOn id t t := ⟨rfl, rfl⟩

theorem AgreeOn.outline (h : AgreeOn id t u) :
    (u.image? id).map TrackedImage.outline = (t.image? id).map TrackedImage.outline := by
  have hbeliefs := congrArg (Option.map TrackedImage.outline) h.beliefs
  rw [Tracker.beliefs, Tracker.beliefs, Option.map_map, Option.map_map] at hbeliefs
  exact hbeliefs

theorem record_of_beliefs_eq_none (hb : t.beliefs id = none) (command : Command) :
    t.record id command = (.error (.untracked id), t) :=
  record_of_image?_eq_none (beliefs_eq_none.mp hb) command

theorem alike_record (h : AgreeOn id t u) (command : Command) :
    Alike id t u (t.act (.record id command)).1 (t.act (.record id command)).2
      (u.act (.record id command)).1 (u.act (.record id command)).2 := by
  have hpolicy : (u.act (.record id command)).2.policy = (t.act (.record id command)).2.policy := by
    rw [policy_act, policy_act, h.policy]
  cases hb : t.beliefs id with
  | none =>
      have hu := h.beliefs.trans hb
      rw [act, act, record_of_beliefs_eq_none hb, record_of_beliefs_eq_none hu]
      exact ⟨h, rfl, rfl⟩
  | some image =>
      have hu := h.beliefs.trans hb
      have hdecays := decays_act_of_beliefs (.record id command) rfl hb
      have hdecays' := decays_act_of_beliefs (.record id command) rfl hu
      rw [h.policy] at hdecays'
      have hcount : (t.act (.record id command)).2.stats.decays + u.stats.decays =
          t.stats.decays + (u.act (.record id command)).2.stats.decays := by
        rw [hdecays, hdecays']
        omega
      rcases act_of_settled? (.record id command) rfl hb with
        ⟨hx, hr, hb'⟩ | ⟨x, endsPass, hx, hr, hb'⟩
      · rcases act_of_settled? (.record id command) rfl hu with
          ⟨-, hr', hu'⟩ | ⟨x', -, hx', -, -⟩
        · exact ⟨⟨hpolicy, by rw [hu', hb', h.beliefs]⟩, by rw [hr, hr'], hcount⟩
        · rw [h.policy, hx] at hx'
          exact absurd hx' (by simp)
      · rcases act_of_settled? (.record id command) rfl hu with
          ⟨hx', -, -⟩ | ⟨x', endsPass', hx', hr', hu'⟩
        · rw [h.policy, hx] at hx'
          exact absurd hx' (by simp)
        · rw [h.policy, hx, Option.some_inj] at hx'
          subst hx'
          refine ⟨⟨hpolicy, ?_⟩, ?_, hcount⟩
          · rw [hu', hb', Function.update_self, Function.update_self, h.policy]
          · rw [hr, hr', h.policy, TrackedImage.bare_request?, TrackedImage.bare_request?]

theorem alike_seed (h : AgreeOn id t u) (levels : PerAspect Level) :
    Alike id t u (t.act (.seed id levels)).1 (t.act (.seed id levels)).2
      (u.act (.seed id levels)).1 (u.act (.seed id levels)).2 := by
  refine ⟨⟨by rw [policy_act, policy_act, h.policy], ?_⟩, rfl, ?_⟩
  · rw [act, act]
    cases hb : t.beliefs id with
    | none =>
        have hu := h.beliefs.trans hb
        rw [seed_of_beliefs_eq_none hb, seed_of_beliefs_eq_none hu, beliefs_closePassOn,
          beliefs_closePassOn, h.beliefs]
    | some image =>
        have hu := h.beliefs.trans hb
        rw [(beliefs_seed hb levels).2, (beliefs_seed hu levels).2, Function.update_self,
          Function.update_self]
  · rw [act, act, (t.overwrites_seed id levels).stats, (u.overwrites_seed id levels).stats]

theorem alike_act (h : AgreeOn id t u) {α : Action} (hα : α.WorksOn id) :
    Alike id t u (t.act α).1 (t.act α).2 (u.act α).1 (u.act α).2 := by
  cases α with
  | seed id' levels =>
      obtain rfl : id' = id := hα
      exact alike_seed h levels
  | record id' command =>
      obtain rfl : id' = id := hα
      exact alike_record h command
  | register info => exact hα.elim
  | unregister id' => exact hα.elim
  | closePass => exact hα.elim
  | relax id' => exact hα.elim

theorem alike_acts (h : AgreeOn id t u) {αs : List Action} (hαs : ∀ α ∈ αs, α.WorksOn id) :
    Alike id t u (t.acts αs).1 (t.acts αs).2 (u.acts αs).1 (u.acts αs).2 := by
  induction αs generalizing t u with
  | nil => exact ⟨h, rfl, rfl⟩
  | cons α αs ih =>
      obtain ⟨hagree, hrequests, hdecays⟩ := alike_act h (hαs α List.mem_cons_self)
      obtain ⟨hagree', hrequests', hdecays'⟩ :=
        ih hagree fun α' hα' => hαs α' (List.mem_cons_of_mem α hα')
      refine ⟨hagree', ?_, ?_⟩
      · rw [acts, acts, List.map_append, List.map_append, hrequests, hrequests']
      · simp only [acts]
        omega

theorem beliefs_act_of_ne {α : Action} (hα : α.WorksOn id) {id' : ImageId} (hne : id' ≠ id) :
    (t.act α).2.beliefs id' = t.beliefs id' := by
  cases α with
  | seed id₀ levels =>
      obtain rfl : id₀ = id := hα
      rw [act]
      cases hb : t.beliefs id₀ with
      | none => rw [seed_of_beliefs_eq_none hb, beliefs_closePassOn]
      | some image => rw [(beliefs_seed hb levels).2, Function.update_of_ne hne]
  | record id₀ command =>
      obtain rfl : id₀ = id := hα
      exact (act_turn t (.record id₀ command)).2.of_ne_settled? rfl hne
  | register info => exact hα.elim
  | unregister id' => exact hα.elim
  | closePass => exact hα.elim
  | relax id' => exact hα.elim

theorem beliefs_acts_of_ne {αs : List Action} (hαs : ∀ α ∈ αs, α.WorksOn id) {id' : ImageId}
    (hne : id' ≠ id) : (t.acts αs).2.beliefs id' = t.beliefs id' := by
  induction αs generalizing t with
  | nil => rfl
  | cons α αs ih =>
      have hrest := ih (t := (t.act α).2) fun α' hα' => hαs α' (List.mem_cons_of_mem α hα')
      rw [acts, hrest, beliefs_act_of_ne (hαs α List.mem_cons_self) hne]

/-! ### Calls -/

theorem beliefs_step_of_ne {call : Call} (hcall : call.WorksOn id) {id' : ImageId}
    (hne : id' ≠ id) : (t.step call).2.beliefs id' = t.beliefs id' := by
  rw [step_snd]
  exact beliefs_acts_of_ne (fun α => worksOn_of_mem_actions hcall) hne

/-- Trackers that agree on an image answer a call on it in the same way, and agree afterwards. -/
theorem alike_step (h : AgreeOn id t u) {call : Call} (hcall : call.WorksOn id) :
    Alike id t u (t.step call).1.requestList (t.step call).2 (u.step call).1.requestList
        (u.step call).2 ∧
      (u.step call).1.bare = (t.step call).1.bare := by
  have hworks : ∀ α ∈ t.actions call, α.WorksOn id := fun α => worksOn_of_mem_actions hcall
  have halike := alike_acts h hworks
  rw [← requestList_step, ← step_snd, ← actions_congr hcall.image? h.outline, ← requestList_step,
    ← step_snd] at halike
  refine ⟨halike, ?_⟩
  have hreason : (u.step call).1.rejection? = (t.step call).1.rejection? := by
    rw [(u.step_rejects call).1, (t.step_rejects call).1, rejection?_congr hcall.image? h.outline]
  have hrequests := halike.requests
  cases call with
  | seed id' levels => exact bare_report (fun _ => rfl) (fun _ _ _ => rfl) hreason hrequests
  | record id' command => exact bare_report (fun _ => rfl) bare_recorded hreason hrequests
  | resourceBarrier id' subresource states =>
      exact bare_report (fun _ => rfl) bare_recorded hreason hrequests
  | clearView id' flags rects =>
      exact bare_report (fun _ => rfl) (fun _ _ => congrArg Answer.requests) hreason hrequests
  | discardSubresources id' first count hasRects =>
      exact bare_report (fun _ => rfl) bare_recorded hreason hrequests
  | drawPipeline id' pipeline view =>
      exact bare_report (fun _ => rfl) bare_recorded hreason hrequests
  | register info => exact hcall.elim
  | unregister id' => exact hcall.elim
  | closePass => exact hcall.elim
  | finish => exact hcall.elim

/-- Requests that are the same but for the open pass are counted in the same way. -/
theorem gains_of_counts {s s' v v' : Stats} {rs rs' : List Request} (h : Stats.Counts s rs s')
    (h' : Stats.Counts v rs' v') (hrequests : rs'.map Request.bare = rs.map Request.bare) :
    s'.transitions + v.transitions = s.transitions + v'.transitions ∧
      s'.imageBarriers + v.imageBarriers = s.imageBarriers + v'.imageBarriers := by
  have hlength : rs'.length = rs.length := by
    rw [← List.length_map Request.bare, hrequests, List.length_map]
  have hbarriers : rs'.flatMap Request.imageBarriers = rs.flatMap Request.imageBarriers := by
    rw [← Request.flatMap_imageBarriers_bare, hrequests, Request.flatMap_imageBarriers_bare]
  constructor
  · rw [h.transitions, h'.transitions, hlength]
    omega
  · rw [h.imageBarriers, h'.imageBarriers, hbarriers]
    omega

/-! ### Interleaved calls -/

/-- What interleaved calls on two images come to, in terms of the calls on each image alone, made to
trackers `u` and `v` that agree on it. -/
structure Separates (a b : ImageId) (A B calls : List Call) (t u v : Tracker) : Prop where
  left : (t.after calls).beliefs a = (u.after A).beliefs a
  right : (t.after calls).beliefs b = (v.after B).beliefs b
  other : ∀ id, id ≠ a → id ≠ b → (t.after calls).beliefs id = t.beliefs id
  answers_left : t.answers a calls = u.answers a A
  answers_right : t.answers b calls = v.answers b B
  transitions : (t.after calls).stats.transitions + u.stats.transitions + v.stats.transitions =
    t.stats.transitions + (u.after A).stats.transitions + (v.after B).stats.transitions
  imageBarriers :
    (t.after calls).stats.imageBarriers + u.stats.imageBarriers + v.stats.imageBarriers =
      t.stats.imageBarriers + (u.after A).stats.imageBarriers + (v.after B).stats.imageBarriers
  decays : (t.after calls).stats.decays + u.stats.decays + v.stats.decays =
    t.stats.decays + (u.after A).stats.decays + (v.after B).stats.decays

theorem answers_cons_of_image? {call : Call} (h : call.image? = some id) (calls : List Call) :
    t.answers id (call :: calls) = (t.step call).1.bare :: (t.step call).2.answers id calls :=
  if_pos h

theorem answers_cons_of_ne {call : Call} (h : call.image? ≠ some id) (calls : List Call) :
    t.answers id (call :: calls) = (t.step call).2.answers id calls := if_neg h

variable {a b : ImageId} {A B calls : List Call} {v : Tracker}

theorem Separates.left_cons {call : Call} (hne : a ≠ b) (hcall : call.WorksOn a)
    (hu : AgreeOn a t u) (h : Separates a b A B calls (t.step call).2 (u.step call).2 v) :
    Separates a b (call :: A) B (call :: calls) t u v := by
  obtain ⟨halike, hanswer⟩ := alike_step hu hcall
  obtain ⟨htransitions, hbarriers⟩ :=
    gains_of_counts (t.counts_step call) (u.counts_step call) halike.requests
  have hdecays := halike.decays
  have hother : call.image? ≠ some b := by
    rw [hcall.image?]
    exact fun hab => hne (Option.some_inj.mp hab)
  refine ⟨h.left, h.right, fun id ha hb => ?_, ?_, ?_, ?_, ?_, ?_⟩
  · exact (h.other id ha hb).trans (beliefs_step_of_ne hcall ha)
  · rw [answers_cons_of_image? hcall.image?, answers_cons_of_image? hcall.image?, hanswer,
      h.answers_left]
  · rw [answers_cons_of_ne hother, h.answers_right]
  · have htotal := h.transitions
    rw [after_cons, after_cons]
    omega
  · have htotal := h.imageBarriers
    rw [after_cons, after_cons]
    omega
  · have htotal := h.decays
    rw [after_cons, after_cons]
    omega

theorem Separates.swap (h : Separates a b A B calls t u v) : Separates b a B A calls t v u where
  left := h.right
  right := h.left
  other id hb ha := h.other id ha hb
  answers_left := h.answers_right
  answers_right := h.answers_left
  transitions := by rw [Nat.add_right_comm, h.transitions, Nat.add_right_comm]
  imageBarriers := by rw [Nat.add_right_comm, h.imageBarriers, Nat.add_right_comm]
  decays := by rw [Nat.add_right_comm, h.decays, Nat.add_right_comm]

theorem Separates.pause (h : Separates a b A B calls t.closePass u v) :
    Separates a b A B (.closePass :: calls) t u v := by
  have hstats := t.stats_closePass
  have hnone : ∀ id, Call.image? .closePass ≠ some id := fun _ => by simp [Call.image?]
  have hstep : (t.step .closePass).2 = t.closePass := rfl
  refine ⟨h.left, h.right, fun id ha hb => ?_, ?_, ?_, ?_, ?_, ?_⟩
  · exact (h.other id ha hb).trans (congrFun (beliefs_closePass t) id)
  · rw [answers_cons_of_ne (hnone a), hstep, h.answers_left]
  · rw [answers_cons_of_ne (hnone b), hstep, h.answers_right]
  · rw [after_cons, hstep, h.transitions, hstats]
  · rw [after_cons, hstep, h.imageBarriers, hstats]
  · rw [after_cons, hstep, h.decays, hstats]

/-- However two sequences of calls are interleaved, each image sees only its own. -/
theorem separates (hne : a ≠ b) (h : Interleaves A B calls) (hA : ∀ call ∈ A, call.WorksOn a)
    (hB : ∀ call ∈ B, call.WorksOn b) (hu : AgreeOn a t u) (hv : AgreeOn b t v) :
    Separates a b A B calls t u v := by
  induction h generalizing t u v with
  | nil =>
      exact ⟨hu.beliefs.symm, hv.beliefs.symm, fun _ _ _ => rfl, rfl, rfl, rfl, rfl, rfl⟩
  | @left call A B calls h ih =>
      have hcall := hA call List.mem_cons_self
      refine .left_cons hne hcall hu (ih (fun c hc => hA c (List.mem_cons_of_mem call hc)) hB
        (alike_step hu hcall).1.agree ⟨?_, ?_⟩)
      · rw [policy_step, hv.policy]
      · rw [hv.beliefs, beliefs_step_of_ne hcall (Ne.symm hne)]
  | @right call A B calls h ih =>
      have hcall := hB call List.mem_cons_self
      refine .swap (.left_cons (Ne.symm hne) hcall hv (.swap (ih hA
        (fun c hc => hB c (List.mem_cons_of_mem call hc)) ⟨?_, ?_⟩ (alike_step hv hcall).1.agree)))
      · rw [policy_step, hu.policy]
      · rw [hu.beliefs, beliefs_step_of_ne hcall hne]
  | pause h ih =>
      refine .pause (ih hA hB ⟨?_, ?_⟩ ⟨?_, ?_⟩)
      · rw [policy_closePass, hu.policy]
      · rw [beliefs_closePass, hu.beliefs]
      · rw [policy_closePass, hv.policy]
      · rw [beliefs_closePass, hv.beliefs]

/-- Images do not interfere.  However calls on two images are interleaved, and wherever the open
pass is ended in between, the same is believed of every image in the end as when all calls on the
one are made before all calls on the other.  Each call gets the same answer, apart from the note on
the open pass, and as many requests and barriers are handed out and aspects give up writing. -/
theorem images_independent (hne : a ≠ b) (h : Interleaves A B calls)
    (hA : ∀ call ∈ A, call.WorksOn a) (hB : ∀ call ∈ B, call.WorksOn b) (t : Tracker) :
    let s := t.after calls
    let s' := t.after (A ++ B)
    (s.beliefs = s'.beliefs ∧ t.answers a calls = t.answers a (A ++ B) ∧
      t.answers b calls = t.answers b (A ++ B)) ∧
    s.stats.transitions = s'.stats.transitions ∧
      s.stats.imageBarriers = s'.stats.imageBarriers ∧ s.stats.decays = s'.stats.decays := by
  intro s s'
  have hs := separates hne h hA hB (agreeOn_refl a t) (agreeOn_refl b t)
  have hs' := separates hne (interleaves_append A B) hA hB (agreeOn_refl a t) (agreeOn_refl b t)
  have htransitions := hs.transitions.trans hs'.transitions.symm
  have hbarriers := hs.imageBarriers.trans hs'.imageBarriers.symm
  have hdecays := hs.decays.trans hs'.decays.symm
  refine ⟨⟨funext fun id => ?_, hs.answers_left.trans hs'.answers_left.symm,
    hs.answers_right.trans hs'.answers_right.symm⟩, ?_, ?_, ?_⟩
  · by_cases ha : id = a
    · rw [ha]
      exact hs.left.trans hs'.left.symm
    · by_cases hb : id = b
      · rw [hb]
        exact hs.right.trans hs'.right.symm
      · exact (hs.other id ha hb).trans (hs'.other id ha hb).symm
  · exact Nat.add_right_cancel (Nat.add_right_cancel htransitions)
  · exact Nat.add_right_cancel (Nat.add_right_cancel hbarriers)
  · exact Nat.add_right_cancel (Nat.add_right_cancel hdecays)

/-- A tracker with two images of a format with both aspects. -/
def twoImages : Tracker :=
  (empty {}).after (List.replicate 2 (.register { handle := 7, format := 129, extent := ⟨64, 64⟩ }))

/-- A draw that tests and writes depth. -/
def drawOn (id : ImageId) : Call := .record id (.draw ⟨⟨true, true⟩, .none⟩)

/-- A discard of both aspects. -/
def discardOn (id : ImageId) : Call := .record id (.discard (.both true))

/-- Calls on the first image. -/
def firstCalls : List Call := [drawOn ⟨0, 0⟩, discardOn ⟨0, 0⟩]

/-- Calls on the second image. -/
def secondCalls : List Call := [discardOn ⟨1, 0⟩, drawOn ⟨1, 0⟩]

/-- The calls on both images taken in turn. -/
def mixedCalls : List Call :=
  [drawOn ⟨0, 0⟩, discardOn ⟨1, 0⟩, .closePass, drawOn ⟨1, 0⟩, discardOn ⟨0, 0⟩]

theorem interleaves_mixedCalls : Interleaves firstCalls secondCalls mixedCalls :=
  .left (.right (.pause (.right (.left .nil))))

theorem images_independent_twoImages :
    (⟨0, 0⟩ : ImageId) ≠ ⟨1, 0⟩ ∧ Interleaves firstCalls secondCalls mixedCalls ∧
      let s := twoImages.after mixedCalls
      let s' := twoImages.after (firstCalls ++ secondCalls)
      (s.beliefs = s'.beliefs ∧
        twoImages.answers ⟨0, 0⟩ mixedCalls =
          twoImages.answers ⟨0, 0⟩ (firstCalls ++ secondCalls) ∧
        twoImages.answers ⟨1, 0⟩ mixedCalls =
          twoImages.answers ⟨1, 0⟩ (firstCalls ++ secondCalls)) ∧
      s.stats.transitions = s'.stats.transitions ∧
        s.stats.imageBarriers = s'.stats.imageBarriers ∧ s.stats.decays = s'.stats.decays := by
  have hne : (⟨0, 0⟩ : ImageId) ≠ ⟨1, 0⟩ := by decide
  have hfirst : ∀ call ∈ firstCalls, call.WorksOn ⟨0, 0⟩ := by decide
  have hsecond : ∀ call ∈ secondCalls, call.WorksOn ⟨1, 0⟩ := by decide
  exact ⟨hne, interleaves_mixedCalls,
    images_independent hne interleaves_mixedCalls hfirst hsecond twoImages⟩

end Tracker

end DepthStencil
