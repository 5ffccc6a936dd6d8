import DepthStencil.Proofs.Beliefs
import DepthStencil.Proofs.Settling

/-! # Where requests come from

Every request in the answer to a call is what settling one image asks for, and that image is as it
was believed to be before the call (`Tracker.origin_of_mem_step`).  A call of several actions could
get in its own way here, and there are two of them:

* finishing settles each image once, because no identifier is listed twice;
* a clear of several rectangles moves layouts at most once, because the first rectangle that is
  accepted leaves nothing to do for the others. -/

namespace DepthStencil

/-! ### Identifiers -/

theorem Slots.keys_eq_map_filter {α : Type} (s : Slots α) :
    s.keys = (s.entries.zipIdx.filter fun p => p.1.isSome).map Prod.snd := by
  unfold keys
  induction s.entries.zipIdx with
  | nil => rfl
  | cons p ps ih =>
      obtain ⟨entry, i⟩ := p
      cases he : entry.isSome <;> simp [he, ih]

theorem Slots.keys_sublist {α : Type} (s : Slots α) :
    s.keys.Sublist (List.range' 0 s.entries.length) := by
  rw [keys_eq_map_filter, ← List.zipIdx_map_snd]
  exact List.filter_sublist.map Prod.snd

theorem Slots.keys_nodup {α : Type} (s : Slots α) : s.keys.Nodup :=
  s.keys_sublist.nodup List.nodup_range'

theorem Registry.ids_nodup (r : Registry) : r.ids.Nodup :=
  List.Pairwise.map r.idAt (fun _ _ hne h => hne (ImageId.mk.inj h).1) r.numbers.keys_nodup

theorem Slots.mem_keys {α : Type} {s : Slots α} {i : Nat} :
    i ∈ s.keys ↔ s.contains i = true := by
  rw [keys, List.mem_filterMap, contains, get?]
  constructor
  · rintro ⟨⟨entry, j⟩, hmem, hkey⟩
    have hentry := List.mem_zipIdx_iff_getElem?.mp hmem
    simp only at hkey hentry
    split at hkey
    · rename_i hsome
      rw [← Option.some_inj.mp hkey, hentry]
      exact hsome
    · exact absurd hkey (by simp)
  · intro hsome
    obtain ⟨x, hx⟩ := Option.isSome_iff_exists.mp hsome
    exact ⟨(some x, i), List.mem_zipIdx_iff_getElem?.mpr (Option.join_eq_some_iff.mp hx), rfl⟩

theorem Registry.mem_ids {r : Registry} {id : ImageId} :
    id ∈ r.ids ↔ r.contains id = true := by
  have hstep := r.made.inStep
  rw [SlotTable.ids, List.mem_map, SlotTable.contains_iff]
  constructor
  · rintro ⟨i, hi, rfl⟩
    exact ⟨rfl, (hstep.inUse i).symm.trans (Slots.mem_keys.mp hi)⟩
  · rintro ⟨hgeneration, himage⟩
    exact ⟨id.index, Slots.mem_keys.mpr ((hstep.inUse id.index).trans himage),
      congrArg (ImageId.mk id.index) hgeneration⟩

/-! ### Turns -/

namespace Beliefs

variable {policy : Policy} {b b' : Beliefs} {α : Action} {rs : List Request} {r : Request}

/-- A request is what settling an image for an action asks for, and some layout really moves. -/
def Origin (policy : Policy) (b : Beliefs) (α : Action) (r : Request) : Prop :=
  ∃ image x, b r.image = some image ∧ α.accepted? policy r.image image = some x ∧
    image.moves policy.scheme (x.needs policy) = true ∧
    r = image.request policy.scheme (x.needs policy) r.image r.endsPass

theorem Turn.origin (h : Turn policy b α rs b') (hr : r ∈ rs) : Origin policy b α r := by
  cases h with
  | keep h => exact absurd hr List.not_mem_nil
  | register hf hid => exact absurd hr List.not_mem_nil
  | unregister id => exact absurd hr List.not_mem_nil
  | seed levels hid => exact absurd hr List.not_mem_nil
  | @settle _ id image x endsPass hid hx =>
      rw [Option.mem_toList, TrackedImage.request?_eq_some] at hr
      obtain ⟨hmoves, rfl⟩ := hr
      exact ⟨image, x, hid, hx, hmoves, rfl⟩

theorem Turn.of_ne_settled? (h : Turn policy b α rs b') {id id' : ImageId}
    (hα : α.settled? = some id) (hid : id' ≠ id) : b' id' = b id' := by
  cases h with
  | keep h => rfl
  | register hf hid => exact absurd hα (by simp [Action.settled?])
  | unregister id => exact absurd hα (by simp [Action.settled?])
  | seed levels hid => exact absurd hα (by simp [Action.settled?])
  | @settle _ id₀ image x endsPass hid₀ hx =>
      rw [Action.settled?_of_accepted? hx, Option.some_inj] at hα
      exact Function.update_of_ne (hα ▸ hid) _ _

/-- An action that neither overwrites nor gives up a tracked image leaves it alone, or settles it
for the command that is accepted. -/
theorem Turn.tracked {id : ImageId} {image : TrackedImage} (h : Turn policy b α rs b')
    (hid : b id = some image) (hunregister : α ≠ .unregister id)
    (hseed : ∀ levels, α ≠ .seed id levels) :
    (α.accepted? policy id image = none ∧ b' id = some image ∧ ∀ r ∈ rs, r.image ≠ id) ∨
      ∃ x endsPass, α.accepted? policy id image = some x ∧
        rs = (image.request? policy.scheme (x.needs policy) id endsPass).toList ∧
          b' id = some (image.settle policy.scheme (x.needs policy)) := by
  cases h with
  | keep h => exact .inl ⟨h id image hid, hid, by simp⟩
  | @register info format id' hf hid' =>
      have hne : id ≠ id' := fun he => by rw [he, hid'] at hid; exact absurd hid (by simp)
      exact .inl ⟨rfl, (Function.update_of_ne hne _ _).trans hid, by simp⟩
  | unregister id' =>
      have hne : id ≠ id' := fun he => hunregister (by rw [he])
      exact .inl ⟨rfl, (Function.update_of_ne hne _ _).trans hid, by simp⟩
  | @seed id' image' levels hid' =>
      have hne : id ≠ id' := fun he => hseed levels (by rw [he])
      exact .inl ⟨rfl, (Function.update_of_ne hne _ _).trans hid, by simp⟩
  | @settle _ id' image' x endsPass hid' hx =>
      by_cases hne : id = id'
      · subst hne
        obtain rfl := Option.some_inj.mp (hid'.symm.trans hid)
        exact .inr ⟨x, endsPass, hx, rfl, Function.update_self _ _ _⟩
      · refine .inl ⟨?_, (Function.update_of_ne hne _ _).trans hid, fun r hr => ?_⟩
        · cases hx' : α.accepted? policy id image with
          | none => rfl
          | some x' =>
              have hα := (Action.settled?_of_accepted? hx').symm.trans
                (Action.settled?_of_accepted? hx)
              exact absurd (Option.some_inj.mp hα) hne
        · rw [Option.mem_toList, TrackedImage.request?_eq_some] at hr
          rw [hr.2]
          exact Ne.symm hne

/-- What holds of images as they enter tracking and is preserved by settling is preserved. -/
theorem Turn.all {P : TrackedImage → Prop} (h : Turn policy b α rs b')
    (hseed : ∀ (image : TrackedImage) levels, P (image.seed levels))
    (hsettle : ∀ {α : Action} {id : ImageId} {image : TrackedImage} {x : Accepted}, P image →
      α.accepted? policy id image = some x → P (image.settle policy.scheme (x.needs policy)))
    (hb : b.All fun _ => P) : b'.All fun _ => P := by
  cases h with
  | keep h => exact hb
  | register hf hid => exact hb.update (hseed _ _)
  | unregister id => exact hb.erase id
  | seed levels hid => exact hb.update (hseed _ levels)
  | settle endsPass hid hx => exact hb.update (hsettle (hb _ _ hid) hx)

theorem Origin.congr (h : Origin policy b' α r) (hb : b' r.image = b r.image) :
    Origin policy b α r := by
  obtain ⟨image, x, hi, hx⟩ := h
  exact ⟨image, x, hb ▸ hi, hx⟩

theorem Origin.settled? (h : Origin policy b α r) : α.settled? = some r.image := by
  obtain ⟨image, x, -, hx, -⟩ := h
  exact Action.settled?_of_accepted? hx

end Beliefs

/-! ### Sequences of actions -/

namespace Tracker

theorem acts_singleton (t : Tracker) (α : Action) : t.acts [α] = t.act α := by
  rw [acts, acts, List.append_nil]

theorem origin_of_mem_act {t : Tracker} {α : Action} {r : Request} (h : r ∈ (t.act α).1) :
    Beliefs.Origin t.policy t.beliefs α r := (act_turn t α).2.origin h

theorem beliefs_acts_relax_of_not_mem :
    ∀ {ids : List ImageId} {t : Tracker} {id : ImageId}, id ∉ ids →
      (t.acts (ids.map .relax)).2.beliefs id = t.beliefs id
  | [], _, _, _ => rfl
  | id' :: ids, t, _, h => by
      rw [List.mem_cons, not_or] at h
      rw [List.map_cons, acts, beliefs_acts_relax_of_not_mem h.2]
      exact (act_turn t (.relax id')).2.of_ne_settled? rfl h.1

/-- Images brought to rest one after another do not get in each other's way. -/
theorem origin_of_mem_relax {r : Request} : ∀ {ids : List ImageId} {t : Tracker}, ids.Nodup →
    r ∈ (t.acts (ids.map .relax)).1 →
      ∃ id ∈ ids, Beliefs.Origin t.policy t.beliefs (.relax id) r
  | [], _, _, h => absurd h List.not_mem_nil
  | id :: ids, t, hnodup, h => by
      rw [List.nodup_cons] at hnodup
      rw [List.map_cons, acts, List.mem_append] at h
      rcases h with h | h
      · exact ⟨id, List.mem_cons_self, origin_of_mem_act h⟩
      · obtain ⟨id', hid', ho⟩ := origin_of_mem_relax hnodup.2 h
        rw [policy_act] at ho
        have himage : id' = r.image := Option.some_inj.mp ho.settled?
        have hne : r.image ≠ id := fun he => hnodup.1 (by rw [← he, ← himage]; exact hid')
        exact ⟨id', List.mem_cons_of_mem id hid',
          ho.congr ((act_turn t (.relax id)).2.of_ne_settled? rfl hne)⟩

end Tracker

/-! ### Clears of several rectangles -/

theorem TrackedImage.meets_needs_clear {image : TrackedImage} {aspects : PerAspect Bool}
    {rect : Option Rect} {x : Accepted} (policy : Policy)
    (hx : image.normalize (.clear aspects rect) = some x) (levels : PerAspect Level) (a : Aspect) :
    ((x.needs policy).get a).demand.Meets (levels.get a) ↔
      (aspects.get a = true → levels.get a = .writable) := by
  obtain ⟨rect', hc⟩ := command_of_normalize_clear hx
  rw [Accepted.needs, hc, Command.get_needs_clear]
  cases aspects.get a with
  | false => simp [Need.none, Demand.Meets]
  | true =>
      simp only [if_true, Need.toWrite, Demand.Meets, true_implies]
      cases levels.get a <;> decide

namespace Tracker

/-- Nothing is asked for by clears of aspects that can be written already. -/
theorem acts_clears_eq_nil {id : ImageId} {aspects : PerAspect Bool} :
    ∀ {rects : List (Option Rect)} {t : Tracker} {image : TrackedImage}, t.beliefs id = some image →
      (∀ a, aspects.get a = true → image.levels.get a = .writable) →
      (t.acts (Action.clears id aspects rects)).1 = []
  | [], _, _, _, _ => rfl
  | rect :: rects, t, image, hb, hw => by
      rw [Action.clears_cons, acts]
      rcases act_of_settled? (.record id (.clear aspects rect)) rfl hb with
        ⟨-, hr, hb'⟩ | ⟨x, endsPass, hx, hr, hb'⟩
      · rw [hr, acts_clears_eq_nil (by rw [hb']; exact hb) hw]
        rfl
      · have hmeets := TrackedImage.meets_needs_clear t.policy (Action.accepted?_record.mp hx).2.2
        have hmoves : image.moves t.policy.scheme (x.needs t.policy) = false :=
          TrackedImage.moves_of_meets fun a => (hmeets image.levels a).mpr (hw a)
        have hsettled : ∀ a, aspects.get a = true →
            (image.settle t.policy.scheme (x.needs t.policy)).levels.get a = .writable :=
          fun a => (hmeets _ a).mp (image.meets_settledLevels (x.needs t.policy) a)
        rw [hr, acts_clears_eq_nil (by rw [hb', Function.update_self]) hsettled,
          TrackedImage.request?, hmoves]
        rfl

/-- A clear of several rectangles asks for layouts before anything was cleared. -/
theorem origin_of_mem_clears {id : ImageId} {aspects : PerAspect Bool} {r : Request} :
    ∀ {rects : List (Option Rect)} {t : Tracker},
      r ∈ (t.acts (Action.clears id aspects rects)).1 →
        ∃ rect ∈ rects, Beliefs.Origin t.policy t.beliefs (.record id (.clear aspects rect)) r
  | [], _, h => absurd h List.not_mem_nil
  | rect :: rects, t, h => by
      rw [Action.clears_cons, acts, List.mem_append] at h
      rcases h with h | h
      · exact ⟨rect, List.mem_cons_self, origin_of_mem_act h⟩
      · have hkeep : (t.act (.record id (.clear aspects rect))).2.beliefs = t.beliefs := by
          cases hb : t.beliefs id with
          | none => exact (act_of_beliefs_eq_none _ rfl hb).2
          | some image =>
              rcases act_of_settled? (.record id (.clear aspects rect)) rfl hb with
                ⟨-, -, hb'⟩ | ⟨x, endsPass, hx, -, hb'⟩
              · exact hb'
              · -- the first rectangle was accepted, so the others ask for nothing
                have hx := (Action.accepted?_record.mp hx).2.2
                have hw := fun a => (TrackedImage.meets_needs_clear t.policy hx _ a).mp
                  (image.meets_settledLevels (x.needs t.policy) a)
                rw [acts_clears_eq_nil (by rw [hb', Function.update_self]) hw] at h
                exact absurd h List.not_mem_nil
        obtain ⟨rect', hrect', ho⟩ := origin_of_mem_clears h
        rw [policy_act] at ho
        exact ⟨rect', List.mem_cons_of_mem rect hrect', ho.congr (by rw [hkeep])⟩

/-! ### Calls -/

theorem record_clear_ok {t : Tracker} {id : ImageId} {image : TrackedImage}
    {aspects : PerAspect Bool} (rect : Option Rect) (hb : t.beliefs id = some image)
    (ha : image.planeSet.firstOutside? aspects = none) :
    ∃ request?, (t.record id (.clear aspects rect)).1 = .ok request? := by
  obtain ⟨image', hi, rfl⟩ := exists_image?_of_beliefs hb
  have hok : image'.accept id (.clear aspects rect) =
      .ok (image'.normalize (.clear aspects rect)) := by
    have hmissing : image'.missing? (.clear aspects rect) = none := ha
    simp only [TrackedImage.accept, hmissing]
  cases hn : image'.normalize (.clear aspects rect) with
  | none => exact ⟨none, by simp only [record, lookup_eq_ok.mpr hi, hok, hn]⟩
  | some x =>
      exact ⟨(t.recordAccepted id image' x).1, by simp only [record, lookup_eq_ok.mpr hi, hok, hn]⟩

theorem clearEach_eq_acts {id : ImageId} {aspects : PerAspect Bool} :
    ∀ (rects : List (Option Rect)) {t : Tracker} {image : TrackedImage}, t.beliefs id = some image →
      image.planeSet.firstOutside? aspects = none →
      clearEach id aspects rects t = (.ok (t.acts (Action.clears id aspects rects)).1,
        (t.acts (Action.clears id aspects rects)).2)
  | [], _, _, _, _ => rfl
  | rect :: rects, t, image, hb, ha => by
      obtain ⟨request?, hok⟩ := record_clear_ok rect hb ha
      have hrecord : t.record id (.clear aspects rect) =
          (.ok request?, (t.act (.record id (.clear aspects rect))).2) := Prod.ext hok rfl
      have hrequests : (t.act (.record id (.clear aspects rect))).1 = request?.toList := by
        rw [act, hok]; rfl
      have hnext : ∃ image', (t.act (.record id (.clear aspects rect))).2.beliefs id = some image' ∧
          image'.planeSet = image.planeSet := by
        rcases act_of_settled? (.record id (.clear aspects rect)) rfl hb with
          ⟨-, -, hb'⟩ | ⟨x, endsPass, -, -, hb'⟩
        · exact ⟨image, by rw [hb', hb], rfl⟩
        · exact ⟨image.settle t.policy.scheme (x.needs t.policy),
            by rw [hb', Function.update_self], rfl⟩
      obtain ⟨image', hb', hplanes⟩ := hnext
      have ih := clearEach_eq_acts rects hb' (by rw [hplanes]; exact ha)
      rw [Action.clears_cons, acts, hrequests]
      simp only [clearEach, hrecord, ih]

theorem relaxAll_eq_acts : ∀ (ids : List ImageId) (t : Tracker),
    relaxAll ids t = t.acts (ids.map .relax)
  | [], _ => rfl
  | id :: ids, t => by
      rw [relaxAll, relaxAll_eq_acts ids]
      rfl

theorem report_recorded (o : Outcome (Option Request)) :
    (report .recorded o).1.requestList = o.1.toOption.join.toList := by
  obtain ⟨result, t⟩ := o
  cases result <;> rfl

theorem presence_inside (planes : PlaneSet) (marked : PerAspect Bool) :
    planes.firstOutside? (.ofFn fun a => marked.get a && planes.has a) = none := by
  refine PlaneSet.firstOutside?_eq_none fun a h => ?_
  rw [PerAspect.get_ofFn, Bool.and_eq_true] at h
  exact h.2

/-- A call hands out what its actions ask for, and leaves the tracker they lead to. -/
theorem step_eq_acts (t : Tracker) (call : Call) :
    ((t.step call).1.requestList, (t.step call).2) = t.acts (t.actions call) := by
  cases call with
  | register info =>
      rw [actions, acts_singleton, act, step]
      cases h : (t.register info).1 <;> simp [report, h, Answer.ofExcept, Answer.requestList]
  | unregister id =>
      rw [actions, acts_singleton, act, step]
      cases h : (t.unregister id).1 <;> simp [report, h, Answer.ofExcept, Answer.requestList]
  | seed id levels =>
      rw [actions, acts_singleton, act, step]
      cases h : (t.seed id levels).1 <;> simp [report, h, Answer.ofExcept, Answer.requestList]
  | record id command =>
      rw [actions, acts_singleton, step, report_recorded]
      rfl
  | closePass => rw [actions, acts_singleton]; rfl
  | finish =>
      rw [step, finish, relaxAll_eq_acts]
      rfl
  | resourceBarrier id subresource states =>
      rw [step, report_recorded, actions, resourceBarrier]
      cases hlevel : states.level? with
      | none => rfl
      | some level =>
          cases haspects : t.subresourceAspects id subresource with
          | error e => simp only [report]; rfl
          | ok aspects =>
              simp only [report]
              rw [acts_singleton]
              rfl
  | clearView id flags rects =>
      rw [step, actions, clearView]
      cases hi : t.image? id with
      | none => simp only [lookup, hi]; rfl
      | some image =>
          have hlookup := lookup_eq_ok.mpr hi
          simp only [hlookup]
          have heach := clearEach_eq_acts (if rects.isEmpty then [none] else rects.map some)
            (beliefs_of_image? hi) (presence_inside image.planeSet (.ofFn flags.names))
          simp only [PerAspect.get_ofFn] at heach
          rw [show image.has = image.planeSet.has from rfl, heach]
          rfl
  | discardSubresources id first count hasRects =>
      rw [step, report_recorded, actions, discardSubresources]
      cases hi : t.image? id with
      | none => simp only [lookup, hi]; rfl
      | some image =>
          have hlookup := lookup_eq_ok.mpr hi
          simp only [report, hlookup]
          by_cases h : (hasRects || !(image.wholePlanes first count).any) = true
          · rw [if_pos h, if_pos h]; rfl
          · rw [if_neg h, if_neg h, acts_singleton]; rfl
  | drawPipeline id pipeline view =>
      rw [step, report_recorded, actions, acts_singleton]
      rfl

theorem requestList_step (t : Tracker) (call : Call) :
    (t.step call).1.requestList = (t.acts (t.actions call)).1 :=
  congrArg Prod.fst (step_eq_acts t call)

theorem step_snd (t : Tracker) (call : Call) : (t.step call).2 = (t.acts (t.actions call)).2 :=
  congrArg Prod.snd (step_eq_acts t call)

@[simp] theorem policy_step (t : Tracker) (call : Call) : (t.step call).2.policy = t.policy := by
  rw [step_snd, policy_acts]

theorem policy_after (t : Tracker) (calls : List Call) : (t.after calls).policy = t.policy := by
  induction calls generalizing t with
  | nil => rfl
  | cons call calls ih => exact (ih (t.step call).2).trans (policy_step t call)

/-! ### Invariants -/

theorem acts_preserves {policy : Policy} {P : Beliefs → Prop}
    (hturn : ∀ {b α rs b'}, Beliefs.Turn policy b α rs b' → P b → P b') (αs : List Action)
    {t : Tracker} (hpolicy : t.policy = policy) (h : P t.beliefs) : P (t.acts αs).2.beliefs := by
  induction αs generalizing t with
  | nil => exact h
  | cons α αs ih =>
      have hact : P (t.act α).2.beliefs := hturn (hpolicy ▸ (act_turn t α).2) h
      exact ih ((policy_act t α).trans hpolicy) hact

theorem after_preserves {policy : Policy} {P : Beliefs → Prop}
    (hturn : ∀ {b α rs b'}, Beliefs.Turn policy b α rs b' → P b → P b') (calls : List Call)
    {t : Tracker} (hpolicy : t.policy = policy) (h : P t.beliefs) : P (t.after calls).beliefs := by
  induction calls generalizing t with
  | nil => exact h
  | cons call calls ih =>
      have hstep : P (t.step call).2.beliefs := by
        rw [step_snd]
        exact acts_preserves hturn _ hpolicy h
      exact ih ((policy_step t call).trans hpolicy) hstep

/-- What holds of images as they enter tracking and is preserved by settling holds of every image in
every state that a tracker reaches. -/
theorem all_after (policy : Policy) {P : TrackedImage → Prop}
    (hseed : ∀ (image : TrackedImage) levels, P (image.seed levels))
    (hsettle : ∀ {α : Action} {id : ImageId} {image : TrackedImage} {x : Accepted}, P image →
      α.accepted? policy id image = some x → P (image.settle policy.scheme (x.needs policy)))
    (calls : List Call) :
    ((empty policy).after calls).beliefs.All fun _ => P := by
  have hempty : (empty policy).beliefs.All fun _ => P := by
    intro id image h
    rw [beliefs_empty] at h
    exact absurd h (by simp)
  exact after_preserves (fun hturn hb => hturn.all hseed hsettle hb) calls rfl hempty

/-! ### Requests -/

/-- The requests that the answers of a run hand out. -/
def requests (t : Tracker) (calls : List Call) : List Request :=
  (t.run calls).flatMap fun result => result.1.requestList

theorem requests_cons (t : Tracker) (call : Call) (calls : List Call) :
    t.requests (call :: calls) = (t.step call).1.requestList ++ (t.step call).2.requests calls :=
  List.flatMap_cons

/-- A request of a call is what one of its actions asks for in the beliefs before the call. -/
theorem origin_of_mem_step {t : Tracker} {call : Call} {r : Request}
    (h : r ∈ (t.step call).1.requestList) :
    ∃ α ∈ t.actions call, Beliefs.Origin t.policy t.beliefs α r := by
  rw [requestList_step] at h
  rcases t.actions_cases call with ha | ⟨α, ha⟩ | ⟨id, aspects, rects, ha⟩ | ha
  · rw [ha] at h
    exact absurd h List.not_mem_nil
  · rw [ha, acts_singleton] at h
    rw [ha]
    exact ⟨α, List.mem_singleton_self α, origin_of_mem_act h⟩
  · rw [ha] at h ⊢
    obtain ⟨rect, hrect, ho⟩ := origin_of_mem_clears h
    exact ⟨_, List.mem_map_of_mem hrect, ho⟩
  · rw [ha] at h ⊢
    have hclose : (t.acts (.closePass :: t.closePass.registry.ids.map .relax)).1 =
        (t.closePass.acts (t.closePass.registry.ids.map .relax)).1 := rfl
    rw [hclose] at h
    obtain ⟨id, hid, ho⟩ := origin_of_mem_relax (Registry.ids_nodup _) h
    rw [policy_closePass, beliefs_closePass] at ho
    exact ⟨.relax id, List.mem_cons_of_mem _ (List.mem_map_of_mem hid), ho⟩

theorem exists_image?_of_mem_step {t : Tracker} {call : Call} {r : Request}
    (h : r ∈ (t.step call).1.requestList) :
    ∃ α ∈ t.actions call, ∃ image x, t.image? r.image = some image ∧
      α.accepted? t.policy r.image image = some x ∧
      r = image.request t.policy.scheme (x.needs t.policy) r.image r.endsPass := by
  obtain ⟨α, hα, image, x, hb, hx, -, hr⟩ := origin_of_mem_step h
  obtain ⟨image', hi, rfl⟩ := exists_image?_of_beliefs hb
  exact ⟨α, hα, image', x, hi, hx, hr⟩

end Tracker

end DepthStencil
