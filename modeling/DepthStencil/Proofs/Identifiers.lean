import DepthStencil.Proofs.Outlines

/-! # Identifiers and what they name

A caller knows an image by the identifier that was given out for it.  `Tracker.issued` lists the
registrations of a run with their identifiers, and `Tracker.released` the identifiers that were
given up.

* The holdings of a tracker are its images without what is believed of them (`Tracker.holdings`).
  Registering an image and giving one up are all that changes them (`Tracker.holdings_act`).
* A registry accounts for what was issued and released (`Registry.Accounts`): it holds what was
  issued and not released since, and nothing else.  The generation of a slot has passed every
  identifier that was released, so none of them can come back.
* It follows that identifiers are never given out twice, and that each names what was registered
  under it until it is given up once (`Tracker.registry_holds_registrations`). -/

namespace DepthStencil

/-! ### Slots in order -/

namespace Slots

variable {α : Type}

theorem keys_pairwise (s : Slots α) : s.keys.Pairwise (· < ·) :=
  List.Pairwise.sublist s.keys_sublist List.pairwise_lt_range'

theorem size_eq_length_keys (s : Slots α) : s.size = s.keys.length := by
  have hentries : s.entries.zipIdx.map Prod.fst = s.entries := List.zipIdx_map_fst 0 s.entries
  calc s.size = (s.entries.zipIdx.map Prod.fst).countP Option.isSome := by rw [hentries, size]
    _ = s.entries.zipIdx.countP fun p => p.1.isSome := List.countP_map
    _ = s.keys.length := by
      rw [keys_eq_map_filter, List.length_map, List.countP_eq_length_filter]

end Slots

namespace Registry

variable {r : Registry} {id : ImageId}

theorem ids_pairwise (r : Registry) : r.ids.Pairwise fun id id' => id.index < id'.index :=
  r.numbers.keys_pairwise.map r.idAt fun _ _ h => h

theorem size_eq_length_ids (r : Registry) : r.size = r.ids.length := by
  rw [SlotTable.size, Slots.size_eq_length_keys, SlotTable.ids, List.length_map]

theorem numbers_contains_iff {i : Nat} :
    r.numbers.contains i = true ↔ ∃ id, r.contains id = true ∧ id.index = i := by
  rw [r.made.inStep.inUse]
  constructor
  · intro himage
    exact ⟨r.idAt i, SlotTable.contains_iff.mpr ⟨rfl, himage⟩, rfl⟩
  · rintro ⟨id, hid, rfl⟩
    exact (SlotTable.contains_iff.mp hid).2

theorem index_ne_of_contains (h : r.contains id = true) : id.index ≠ r.nextId.index := by
  intro he
  have hused : r.numbers.contains r.nextId.index = true :=
    numbers_contains_iff.mpr ⟨id, h, he⟩
  have hfree : r.numbers.get? r.nextId.index = none := r.numbers.get?_firstFree
  rw [Slots.contains, hfree] at hused
  exact absurd hused (by simp)

/-- All slots below the one that a new image takes are in use. -/
theorem exists_contains_of_lt {i : Nat} (h : i < r.nextId.index) :
    ∃ id, r.contains id = true ∧ id.index = i :=
  numbers_contains_iff.mp (Slots.contains_of_lt_firstFree h)

theorem generation_insert (r : Registry) (image : TrackedImage) (i : Nat) :
    ((r.insert image).slot i).generation = (r.slot i).generation := by
  have hslot : (r.insert image).slot i = _ :=
    SlotTable.slot_insert r.made.inStep.firstFree_lt image i
  rw [hslot]
  split <;> rfl

theorem generation_erase (h : r.contains id = true) (i : Nat) :
    ((r.erase id).slot i).generation =
      (r.slot i).generation + if id.index = i then 1 else 0 := by
  have hslot : (r.erase id).slot i = _ := SlotTable.slot_erase h i
  rw [hslot]
  split
  · rfl
  · exact (UInt32.add_zero _).symm

end Registry

/-! ### Accounts -/

/-- Whether an image is the one that a registration describes, whatever is believed of it by now.
Counts of zero stand for one. -/
structure Registration.Describes (info : Registration) (image : TrackedImage) : Prop where
  handle : image.handle = info.handle
  format : Format.ofCode? info.format = some image.format
  extent : image.extent = info.extent
  mipLevels : image.mipLevels = max info.mipLevels 1
  arrayLayers : image.arrayLayers = max info.arrayLayers 1

theorem Registration.describes_ofRegistration {info : Registration} {format : Format}
    (h : Format.ofCode? info.format = some format) :
    info.Describes (.ofRegistration info format) := ⟨rfl, h, rfl, rfl, rfl⟩

/-- Whether no slot was given up so often that its generations have started over. -/
def GenerationsLast (released : List ImageId) : Prop :=
  ∀ i, released.countP (fun id => id.index = i) < UInt32.size

theorem GenerationsLast.of_append {released ids : List ImageId}
    (h : GenerationsLast (released ++ ids)) : GenerationsLast released := by
  intro i
  refine Nat.lt_of_le_of_lt ?_ (h i)
  rw [List.countP_append]
  exact Nat.le_add_right _ _

/-- Whether a registry holds what was issued and not released since, and nothing else, as long as
generations last.  Even after that, its images are among those that were registered. -/
structure Registry.Accounts (r : Registry) (issued : List (ImageId × Registration))
    (released : List ImageId) : Prop where
  known : ∀ id ∈ released, id ∈ issued.map Prod.fst
  reached : ∀ id ∈ issued.map Prod.fst, id.index < r.slots.length
  generation : ∀ i, (r.slot i).generation = .ofNat (released.countP fun id => id.index = i)
  /-- The slot of an identifier that was released has gone on to a later generation. -/
  stale : ∀ id ∈ released,
    id.generation.toNat < released.countP fun id' => id'.index = id.index
  described : ∀ id image, r.get? id = some image →
    ∃ info, (id, info) ∈ issued ∧ info.Describes image
  distinct : GenerationsLast released → (issued.map Prod.fst).Nodup
  once : GenerationsLast released → released.Nodup
  held : GenerationsLast released → ∀ id info, (id, info) ∈ issued → id ∉ released →
    ∃ image, r.get? id = some image ∧ info.Describes image

namespace Registry.Accounts

variable {r : Registry} {issued : List (ImageId × Registration)} {released : List ImageId}
  {id : ImageId}

/-- The generation of a released identifier is none that its slot has come to. -/
theorem generation_ne_of_released (h : r.Accounts issued released)
    (hlast : GenerationsLast released) (hreleased : id ∈ released) :
    (r.slot id.index).generation ≠ id.generation := by
  intro hgeneration
  have hlt := h.stale id hreleased
  rw [← hgeneration, h.generation, UInt32.toNat_ofNat_of_lt' (hlast id.index)] at hlt
  exact absurd hlt (Nat.lt_irrefl _)

theorem not_released (h : r.Accounts issued released) (hlast : GenerationsLast released)
    (hid : r.contains id = true) : id ∉ released := fun hreleased =>
  h.generation_ne_of_released hlast hreleased (SlotTable.contains_iff.mp hid).1

theorem mem_issued (h : r.Accounts issued released) (hid : r.contains id = true) :
    id ∈ issued.map Prod.fst := by
  obtain ⟨image, hi⟩ := Option.isSome_iff_exists.mp hid
  obtain ⟨info, hentry, -⟩ := h.described id image hi
  exact List.mem_map_of_mem hentry

theorem contains_iff (h : r.Accounts issued released) (hlast : GenerationsLast released) :
    r.contains id = true ↔ id ∈ issued.map Prod.fst ∧ id ∉ released := by
  constructor
  · intro hid
    exact ⟨h.mem_issued hid, h.not_released hlast hid⟩
  · rintro ⟨hissued, hreleased⟩
    obtain ⟨⟨_, info⟩, hentry, rfl⟩ := List.mem_map.mp hissued
    obtain ⟨image, hi, -⟩ := h.held hlast _ info hentry hreleased
    rw [SlotTable.contains, hi]
    rfl

/-- The identifier of a new image was never issued before. -/
theorem nextId_fresh (h : r.Accounts issued released) (hlast : GenerationsLast released) :
    r.nextId ∉ issued.map Prod.fst := by
  intro hissued
  have hnone : r.contains r.nextId = false := by rw [SlotTable.contains, get?_nextId]; rfl
  have hreleased : r.nextId ∉ released := fun hreleased =>
    h.generation_ne_of_released hlast hreleased rfl
  rw [(h.contains_iff hlast).mpr ⟨hissued, hreleased⟩] at hnone
  exact absurd hnone (by simp)

theorem insert (h : r.Accounts issued released) {info : Registration} {image : TrackedImage}
    (hinfo : info.Describes image) :
    (r.insert image).Accounts (issued ++ [(r.nextId, info)]) released := by
  have hids : (issued ++ [(r.nextId, info)]).map Prod.fst = issued.map Prod.fst ++ [r.nextId] :=
    List.map_append
  refine ⟨fun id hid => ?_, fun id hid => ?_, fun i => ?_, h.stale, fun id image' hi => ?_,
    fun hlast => ?_, h.once, fun hlast id info' hentry hreleased => ?_⟩
  · rw [hids]
    exact List.mem_append_left _ (h.known id hid)
  · have hlength : (r.insert image).slots.length = _ := r.length_slots_insert image
    rw [hlength, r.made.inStep.length_grow]
    rw [hids] at hid
    rcases List.mem_append.mp hid with hid | hid
    · exact Nat.lt_of_lt_of_le (h.reached id hid) (Nat.le_max_left _ _)
    · rw [List.mem_singleton.mp hid]
      exact Nat.le_max_right _ _
  · rw [generation_insert]
    exact h.generation i
  · rw [get?_insert] at hi
    split at hi
    · rename_i he
      rw [he, ← Option.some_inj.mp hi]
      exact ⟨info, List.mem_append_right _ List.mem_cons_self, hinfo⟩
    · obtain ⟨info', hentry, hinfo'⟩ := h.described id image' hi
      exact ⟨info', List.mem_append_left _ hentry, hinfo'⟩
  · rw [hids, List.nodup_append]
    refine ⟨h.distinct hlast, List.pairwise_singleton _ _, fun id hid id' hid' he => ?_⟩
    rw [List.mem_singleton.mp hid'] at he
    exact h.nextId_fresh hlast (he ▸ hid)
  · rw [get?_insert]
    rcases List.mem_append.mp hentry with hentry | hentry
    · have hne : id ≠ r.nextId := fun he =>
        h.nextId_fresh hlast (he ▸ List.mem_map_of_mem hentry)
      rw [if_neg hne]
      exact h.held hlast id info' hentry hreleased
    · obtain ⟨rfl, rfl⟩ := Prod.mk.inj (List.mem_singleton.mp hentry)
      exact ⟨image, if_pos rfl, hinfo⟩

theorem erase (h : r.Accounts issued released) (hid : r.contains id = true) :
    (r.erase id).Accounts issued (released ++ [id]) := by
  have hcount : ∀ i, (released ++ [id]).countP (fun id' => id'.index = i) =
      released.countP (fun id' => id'.index = i) + if id.index = i then 1 else 0 := by
    intro i
    rw [List.countP_append, List.countP_singleton]
    simp only [decide_eq_true_eq]
  have hlength : (r.erase id).slots.length = _ := r.length_slots_erase id
  refine ⟨fun id' hid' => ?_, hlength ▸ h.reached, fun i => ?_, fun id' hid' => ?_,
    fun id' image hi => ?_, fun hlast => h.distinct hlast.of_append, fun hlast => ?_,
    fun hlast id' info hentry hreleased => ?_⟩
  · rcases List.mem_append.mp hid' with hid' | hid'
    · exact h.known id' hid'
    · rw [List.mem_singleton.mp hid']
      exact h.mem_issued hid
  · rw [generation_erase hid, h.generation, hcount, UInt32.ofNat_add]
    split <;> rfl
  · rw [hcount]
    rcases List.mem_append.mp hid' with hid' | hid'
    · exact Nat.lt_add_right _ (h.stale id' hid')
    · have hgeneration := (SlotTable.contains_iff.mp hid).1
      -- even if generations have started over, the current one is at most the count
      rw [List.mem_singleton.mp hid', if_pos rfl, ← hgeneration, h.generation]
      exact Nat.lt_succ_of_le (Nat.mod_le _ _)
  · rw [get?_erase] at hi
    split at hi
    · exact absurd hi (by simp)
    · exact h.described id' image hi
  · rw [List.nodup_append]
    refine ⟨h.once hlast.of_append, List.pairwise_singleton _ _, fun id' hid' id'' hid'' he => ?_⟩
    rw [List.mem_singleton.mp hid''] at he
    exact h.not_released hlast.of_append hid (he ▸ hid')
  · rw [List.mem_append, List.mem_singleton, not_or] at hreleased
    rw [get?_erase, if_neg hreleased.2]
    exact h.held hlast.of_append id' info hentry hreleased.1

end Registry.Accounts

/-! ### Holdings -/

/-- The image without anything that is believed of it. -/
def TrackedImage.blank (image : TrackedImage) : TrackedImage :=
  { image with
    levels := .both .undefined, histories := .both .empty, pendingWrites := .both false }

theorem Registration.describes_blank {info : Registration} {image : TrackedImage} :
    info.Describes image.blank ↔ info.Describes image :=
  ⟨fun h => ⟨h.handle, h.format, h.extent, h.mipLevels, h.arrayLayers⟩,
    fun h => ⟨h.handle, h.format, h.extent, h.mipLevels, h.arrayLayers⟩⟩

/-- The registry after an action that works on nothing but images and passes, or that registers an
image or gives one up. -/
def Action.hold (r : Registry) : Action → Registry
  | register info =>
    match Format.ofCode? info.format with
    | none => r
    | some format => r.insert (TrackedImage.ofRegistration info format).blank
  | unregister id => r.erase id
  | seed _ _ | record _ _ | closePass | relax _ => r

namespace Tracker

/-- The tracked images without anything that is believed of them. -/
def holdings (t : Tracker) : Registry := t.registry.map TrackedImage.blank

variable {t t' : Tracker} {id : ImageId} {image : TrackedImage} {x : Accepted}
  {request? : Option Request}

theorem holdings_modify {f : TrackedImage → TrackedImage}
    (h : t'.registry = t.registry.modify id f) (hf : ∀ image, (f image).blank = image.blank) :
    t'.holdings = t.holdings := by
  rw [holdings, h]
  exact Registry.map_modify_of_eq _ _ hf id

@[simp] theorem holdings_closePass (t : Tracker) : t.closePass.holdings = t.holdings := by
  unfold closePass
  split
  · rfl
  · exact holdings_modify rfl fun _ => rfl

@[simp] theorem holdings_closePassOn (t : Tracker) (id : ImageId) :
    (t.closePassOn id).holdings = t.holdings := by
  unfold closePassOn
  split
  · exact holdings_closePass t
  · rfl

@[simp] theorem holdings_settle (t : Tracker) (id : ImageId) (image : TrackedImage)
    (needs : PerAspect Need) (endsPass : Bool) :
    (t.settle id image needs endsPass).2.holdings = t.holdings :=
  holdings_modify rfl fun _ => rfl

@[simp] theorem holdings_enterPass (t : Tracker) (id : ImageId) (placement : Placement)
    (levels : PerAspect Level) (writes : PerAspect Bool) :
    (t.enterPass id placement levels writes).holdings = t.holdings :=
  holdings_modify rfl fun _ => rfl

@[simp] theorem holdings_countDecays (t : Tracker) (changes : PerAspect (Option Change)) :
    (t.countDecays changes).holdings = t.holdings := rfl

theorem Records.holdings (h : Records t id image x request? t') : t'.holdings = t.holdings := by
  cases h with
  | folds => rw [holdings_enterPass, holdings_settle]
  | begins => rw [holdings_enterPass, holdings_settle, holdings_closePass]
  | ends => rw [holdings_countDecays, holdings_settle, holdings_closePass]
  | drops => rw [holdings_settle, holdings_closePass]
  | stays => rw [holdings_settle]

theorem holdings_seed (t : Tracker) (id : ImageId) (levels : PerAspect Level) :
    (t.seed id levels).2.holdings = t.holdings := by
  cases hl : (t.closePassOn id).lookup id with
  | error e => rw [seed_of_error hl, holdings_closePassOn]
  | ok image =>
      rw [seed_of_ok hl, ← holdings_closePassOn t id]
      exact holdings_modify rfl fun _ => rfl

theorem holdings_unregister (t : Tracker) (id : ImageId) :
    (t.unregister id).2.holdings = t.holdings.erase id := by
  rw [← holdings_closePassOn t id]
  cases hl : (t.closePassOn id).lookup id with
  | error e =>
      have hnone : (t.closePassOn id).image? id = none := (lookup_eq_error.mp hl).1
      have hcontains : (t.closePassOn id).holdings.contains id = false := by
        rw [holdings, Registry.contains_map, SlotTable.contains]
        rw [image?] at hnone
        rw [hnone]
        rfl
      rw [unregister_of_error hl, Registry.erase_of_not_contains hcontains]
  | ok image =>
      rw [unregister_of_ok hl]
      exact Registry.map_erase _ _ id

/-- Nothing but registering an image and giving one up changes the holdings. -/
theorem holdings_act (t : Tracker) (α : Action) : (t.act α).2.holdings = α.hold t.holdings := by
  cases α with
  | register info =>
      rw [act, register, Action.hold]
      cases Format.ofCode? info.format with
      | none => rfl
      | some format => exact Registry.map_insert _ _ _
  | unregister id => exact holdings_unregister t id
  | seed id levels => exact holdings_seed t id levels
  | closePass => exact holdings_closePass t
  | record id command =>
      rw [act]
      rcases t.record_cases id command with
        ⟨e, -, he⟩ | ⟨image, -, -, he⟩ | ⟨image, x, request?, t', -, -, hrecords, he⟩
      · rw [he]
        rfl
      · rw [he]
        rfl
      · rw [he]
        exact hrecords.holdings
  | relax id =>
      rcases t.relax_cases id with ⟨h, -⟩ | ⟨image, targets, -, -, h⟩
      · rw [act, h]
        rfl
      · rw [act, h, holdings_countDecays, holdings_settle]
        rfl

theorem holdings_acts {αs : List Action} (h : ∀ α ∈ αs, ∀ r : Registry, α.hold r = r) :
    (t.acts αs).2.holdings = t.holdings := by
  induction αs generalizing t with
  | nil => rfl
  | cons α αs ih =>
      rw [acts, ih fun α' hα' => h α' (List.mem_cons_of_mem α hα'), holdings_act,
        h α List.mem_cons_self]

theorem contains_holdings (t : Tracker) (id : ImageId) :
    t.holdings.contains id = (t.image? id).isSome := Registry.contains_map _ _ id

/-- Where the holdings are the same, an image differs at most in what is believed of it. -/
theorem exists_image?_of_holdings {t' : Tracker} (h : t'.holdings = t.holdings)
    (hi : t.image? id = some image) :
    ∃ image', t'.image? id = some image' ∧ image'.blank = image.blank := by
  have hblank : (t'.image? id).map TrackedImage.blank = (t.image? id).map TrackedImage.blank := by
    rw [image?, image?, ← Registry.get?_map, ← Registry.get?_map]
    exact congrArg (fun r : Registry => r.get? id) h
  rw [hi, Option.map_some] at hblank
  exact Option.map_eq_some_iff.mp hblank

end Tracker

/-! ### Runs -/

/-- The registration that a call makes, with the identifier given out for it. -/
def Call.issue? : Call → Answer → Option (ImageId × Registration)
  | register info, .registered id => some (id, info)
  | _, _ => none

/-- The identifier that a call gives up. -/
def Call.release? : Call → Answer → Option ImageId
  | unregister id, .unregistered _ => some id
  | _, _ => none

namespace Tracker

/-- The registrations that calls make, with the identifiers given out for them. -/
def issued (t : Tracker) : List Call → List (ImageId × Registration)
  | [] => []
  | call :: calls => (call.issue? (t.step call).1).toList ++ (t.step call).2.issued calls

/-- The identifiers that calls give up. -/
def released (t : Tracker) : List Call → List ImageId
  | [] => []
  | call :: calls => (call.release? (t.step call).1).toList ++ (t.step call).2.released calls

variable {t : Tracker} {id : ImageId} {issued : List (ImageId × Registration)}
  {released : List ImageId}

theorem unregister_ok_iff :
    (∃ image, (t.unregister id).1 = .ok image) ↔ (t.image? id).isSome = true := by
  rw [← isSome_image?_closePassOn t id id]
  cases hl : (t.closePassOn id).lookup id with
  | error e =>
      rw [unregister_of_error hl, (lookup_eq_error.mp hl).1]
      simp
  | ok image =>
      rw [unregister_of_ok hl, lookup_eq_ok.mp hl]
      simp

/-- What a call does to the holdings.  It leaves them alone, or it registers an image under the next
identifier or gives one up. -/
theorem holdings_step (t : Tracker) (call : Call) :
    ((t.step call).2.holdings = t.holdings ∧
      call.issue? (t.step call).1 = none ∧ call.release? (t.step call).1 = none) ∨
    (∃ info image, info.Describes image ∧ (t.step call).2.holdings = t.holdings.insert image ∧
      call.issue? (t.step call).1 = some (t.holdings.nextId, info) ∧
      call.release? (t.step call).1 = none) ∨
    ∃ id, t.holdings.contains id = true ∧ (t.step call).2.holdings = t.holdings.erase id ∧
      call.issue? (t.step call).1 = none ∧ call.release? (t.step call).1 = some id := by
  -- a call that neither registers an image nor gives one up leaves the holdings alone
  have hkeep : (∀ info, call ≠ .register info) → (∀ id, call ≠ .unregister id) →
      (t.step call).2.holdings = t.holdings := by
    intro hregister hunregister
    rw [step_snd]
    refine holdings_acts fun α hα r => ?_
    cases α with
    | register info => exact absurd (call_of_mem_actions hα rfl) (hregister info)
    | unregister id => exact absurd (call_of_mem_actions hα rfl) (hunregister id)
    | seed id levels => rfl
    | record id command => rfl
    | closePass => rfl
    | relax id => rfl
  cases call with
  | register info =>
      rw [step_snd, actions, acts_singleton, holdings_act, Action.hold, step, register]
      cases hf : Format.ofCode? info.format with
      | none => exact .inl ⟨rfl, rfl, rfl⟩
      | some format =>
          have hdescribes := Registration.describes_blank.mpr
            (Registration.describes_ofRegistration hf)
          have hid : t.holdings.nextId = t.registry.nextId := Registry.nextId_map _ _
          exact .inr (.inl ⟨info, _, hdescribes, rfl, by rw [hid]; rfl, rfl⟩)
  | unregister id =>
      rw [step_snd, actions, acts_singleton, holdings_act, Action.hold, step]
      cases ho : (t.unregister id).1 with
      | error e =>
          have hnot : t.holdings.contains id = false := by
            rw [contains_holdings, ← Bool.not_eq_true, ← unregister_ok_iff, ho]
            simp
          refine .inl ⟨Registry.erase_of_not_contains hnot, ?_, ?_⟩ <;> rw [report, ho] <;> rfl
      | ok image =>
          have hid : t.holdings.contains id = true := by
            rw [contains_holdings, ← unregister_ok_iff]
            exact ⟨image, ho⟩
          refine .inr (.inr ⟨id, hid, rfl, ?_, ?_⟩) <;> rw [report, ho] <;> rfl
  | seed _ _ | record _ _ | closePass | finish | resourceBarrier _ _ _ | clearView _ _ _
  | discardSubresources _ _ _ _ | drawPipeline _ _ _ =>
      exact .inl ⟨hkeep (by simp) (by simp), rfl, rfl⟩

theorem accounts_step (h : t.holdings.Accounts issued released) (call : Call) :
    (t.step call).2.holdings.Accounts (issued ++ (call.issue? (t.step call).1).toList)
      (released ++ (call.release? (t.step call).1).toList) := by
  rcases t.holdings_step call with
    ⟨he, hissue, hrelease⟩ | ⟨info, image, hinfo, he, hissue, hrelease⟩ |
      ⟨id, hid, he, hissue, hrelease⟩
  · rw [he, hissue, hrelease]
    simpa using h
  · rw [he, hissue, hrelease]
    simpa using h.insert hinfo
  · rw [he, hissue, hrelease]
    simpa using h.erase hid

theorem accounts_after (h : t.holdings.Accounts issued released) (calls : List Call) :
    (t.after calls).holdings.Accounts (issued ++ t.issued calls)
      (released ++ t.released calls) := by
  induction calls generalizing t issued released with
  | nil =>
      rw [Tracker.issued, Tracker.released, List.append_nil, List.append_nil]
      exact h
  | cons call calls ih =>
      have hcalls := ih (accounts_step h call)
      rw [List.append_assoc, List.append_assoc] at hcalls
      exact hcalls

/-- Slots are only added when all of them are in use. -/
theorem length_slots_step (t : Tracker) (call : Call) : (t.step call).2.holdings.slots.length ≤
    max t.holdings.slots.length (t.step call).2.registry.size := by
  have hsize : (t.step call).2.registry.size = (t.step call).2.holdings.size := rfl
  rw [hsize]
  rcases t.holdings_step call with ⟨he, -, -⟩ | ⟨info, image, -, he, -, -⟩ | ⟨id, -, he, -, -⟩
  · rw [he]
    exact Nat.le_max_left _ _
  · rw [he, ← t.holdings.made.inStep.length,
      ← (t.holdings.insert image).made.inStep.length]
    exact t.holdings.numbers.length_insert_le ()
  · have hlength : (t.holdings.erase id).slots.length = _ := t.holdings.length_slots_erase id
    rw [he, hlength]
    exact Nat.le_max_left _ _

theorem length_slots_after {n : Nat} (h : t.holdings.slots.length ≤ n) {calls : List Call}
    (hn : ∀ before later, calls = before ++ later → (t.after before).registry.size ≤ n) :
    (t.after calls).holdings.slots.length ≤ n := by
  induction calls generalizing t with
  | nil => exact h
  | cons call calls ih =>
      refine ih (Nat.le_trans (t.length_slots_step call) (Nat.max_le.mpr ⟨h, ?_⟩)) ?_
      · exact hn [call] calls rfl
      · rintro before later rfl
        exact hn (call :: before) later rfl

theorem accounts_empty (policy : Policy) : (empty policy).holdings.Accounts [] [] where
  known _ h := absurd h List.not_mem_nil
  reached _ h := absurd h List.not_mem_nil
  generation _ := rfl
  stale _ h := absurd h List.not_mem_nil
  described id image hi := by
    have hcontains : (empty policy).holdings.contains id = true := by
      rw [SlotTable.contains, hi]
      rfl
    rw [contains_holdings, beliefs_eq_none.mp (beliefs_empty policy id)] at hcontains
    exact absurd hcontains (by simp)
  distinct _ := List.nodup_nil
  once _ := List.nodup_nil
  held _ _ _ h := absurd h List.not_mem_nil

/-- Every image that is tracked is described by what was registered under its identifier. -/
theorem exists_issued {policy : Policy} {calls : List Call} {image : TrackedImage}
    (hi : ((empty policy).after calls).image? id = some image) :
    ∃ info, (id, info) ∈ (empty policy).issued calls ∧ info.Describes image := by
  have h := accounts_after (accounts_empty policy) calls
  have hblank : ((empty policy).after calls).holdings.get? id = some image.blank := by
    rw [holdings, Registry.get?_map]
    exact congrArg (Option.map TrackedImage.blank) hi
  obtain ⟨info, hentry, hinfo⟩ := h.described id image.blank hblank
  exact ⟨info, hentry, Registration.describes_blank.mp hinfo⟩

theorem register_ok_iff (t : Tracker) (info : Registration) :
    (∃ id, (t.register info).1 = .ok id) ↔ (Format.ofCode? info.format).isSome = true := by
  rw [register]
  cases Format.ofCode? info.format <;> simp

theorem register_eq_nextId {info : Registration} (h : (t.register info).1 = .ok id) :
    id = t.registry.nextId := by
  rw [register] at h
  split at h
  · exact absurd h (by simp)
  · exact (Except.ok.inj h).symm

/-- Identifiers name what was registered under them, as long as generations last.  None is ever
given out twice, each is given up once at most, and until then it names the image of its
registration.  Images of all formats for depth or stencil can be registered, and an identifier can
be given up exactly while it is in use.  The identifiers in use are listed by their slots, and a new
one takes the lowest slot that is free.  At any time there is a slot for each number that was used,
and the numbers in use are those of the slots that keep an image.  Numbers stay below the greatest
count of images that were ever tracked at once. -/
theorem registry_holds_registrations (policy : Policy) (calls : List Call)
    (hlast : GenerationsLast ((empty policy).released calls)) :
    let t := (empty policy).after calls
    let issued := (empty policy).issued calls
    let released := (empty policy).released calls
    let live := (issued.map Prod.fst).filter fun id => id ∉ released
    ((issued.map Prod.fst).Nodup ∧ released.Nodup ∧ ∀ id ∈ released, id ∈ issued.map Prod.fst) ∧
    (∀ id, (t.image? id).isSome = true ↔ id ∈ live) ∧
    (∀ id info, (id, info) ∈ issued → id ∈ live →
      ∃ image, t.image? id = some image ∧ info.Describes image) ∧
    (∀ info, (∃ id, (t.register info).1 = .ok id) ↔
      (Format.ofCode? info.format).isSome = true) ∧
    (∀ id info, (t.register info).1 = .ok id → id ∉ issued.map Prod.fst ∧
      (∀ id' ∈ live, id'.index ≠ id.index) ∧ ∀ i < id.index, ∃ id' ∈ live, id'.index = i) ∧
    (t.registry.size = live.length ∧
      t.registry.ids.Pairwise (fun id id' => id.index < id'.index) ∧
      ∀ id, id ∈ t.registry.ids ↔ id ∈ live) ∧
    (∀ id, (∃ image, (t.unregister id).1 = .ok image) ↔ id ∈ live) ∧
    (t.registry.InStep ∧
      ∀ i, t.registry.numbers.contains i = true ↔ ∃ id ∈ live, id.index = i) ∧
    ∀ n, (∀ before later, calls = before ++ later →
        ((empty policy).after before).registry.size ≤ n) →
      ∀ id ∈ issued.map Prod.fst, id.index < n := by
  intro t issued released live
  have h : t.holdings.Accounts issued released := accounts_after (accounts_empty policy) calls
  have hcontains : ∀ id, t.registry.contains id = true ↔ id ∈ live := by
    intro id
    rw [show t.registry.contains id = t.holdings.contains id from
      (Registry.contains_map _ _ id).symm, h.contains_iff hlast, List.mem_filter,
      decide_eq_true_eq]
  have hids : ∀ id, id ∈ t.registry.ids ↔ id ∈ live := by
    intro id
    rw [Registry.mem_ids, hcontains]
  refine ⟨⟨h.distinct hlast, h.once hlast, h.known⟩, hcontains, fun id info hentry hlive => ?_,
    register_ok_iff t, fun id info hok => ?_, ⟨?_, t.registry.ids_pairwise, hids⟩, fun id => ?_,
    ⟨t.registry.made.inStep, fun i => ?_⟩, fun n hn id hid => ?_⟩
  · have hreleased : id ∉ released := by simpa using (List.mem_filter.mp hlive).2
    obtain ⟨image, hi, hinfo⟩ := h.held hlast id info hentry hreleased
    rw [holdings, Registry.get?_map] at hi
    obtain ⟨image', hi', rfl⟩ := Option.map_eq_some_iff.mp hi
    exact ⟨image', hi', Registration.describes_blank.mp hinfo⟩
  · obtain rfl := register_eq_nextId hok
    have hnext : t.holdings.nextId = t.registry.nextId := Registry.nextId_map _ _
    refine ⟨hnext ▸ h.nextId_fresh hlast, fun id' hid' => ?_, fun i hi => ?_⟩
    · exact Registry.index_ne_of_contains ((hcontains id').mpr hid')
    · obtain ⟨id', hid', he⟩ := Registry.exists_contains_of_lt hi
      exact ⟨id', (hcontains id').mp hid', he⟩
  · have hperm : t.registry.ids.Perm live :=
      (List.perm_ext_iff_of_nodup t.registry.ids_nodup ((h.distinct hlast).filter _)).mpr hids
    rw [Registry.size_eq_length_ids, hperm.length_eq]
  · rw [unregister_ok_iff]
    exact hcontains id
  · simp only [Registry.numbers_contains_iff, hcontains]
  · exact Nat.lt_of_lt_of_le (h.reached id hid) (length_slots_after (Nat.zero_le n) hn)

/-- A slot that is given up and used again.  In between its first identifier is turned down, and so
is an image that has no depth or stencil. -/
def reusedSlot : List Call :=
  [.register { handle := 7, format := 126, extent := ⟨64, 64⟩ },
    .register { handle := 8, format := 127, extent := ⟨32, 32⟩ },
    .unregister ⟨0, 0⟩, .unregister ⟨0, 0⟩,
    .register { handle := 9, format := 37, extent := ⟨16, 16⟩ },
    .register { handle := 9, format := 129, extent := ⟨16, 16⟩ }]

theorem registry_holds_registrations_reusedSlot :
    let t := (empty {}).after reusedSlot
    (GenerationsLast ((empty {}).released reusedSlot) ∧ t.registry.InStep) ∧
      ((empty {}).issued reusedSlot).map Prod.fst = [⟨0, 0⟩, ⟨1, 0⟩, ⟨0, 1⟩] ∧
      (empty {}).released reusedSlot = [⟨0, 0⟩] ∧
      (∀ id, (t.image? id).isSome = true ↔ id ∈ [⟨1, 0⟩, ⟨0, 1⟩]) ∧
      (∀ id, (∃ image, (t.unregister id).1 = .ok image) ↔ id ∈ [⟨1, 0⟩, ⟨0, 1⟩]) ∧
      t.registry.size = 2 ∧ t.registry.ids.Pairwise (fun id id' => id.index < id'.index) ∧
      (∀ id, id ∈ t.registry.ids ↔ id ∈ [⟨1, 0⟩, ⟨0, 1⟩]) ∧
      ∃ image, t.image? ⟨0, 1⟩ = some image ∧ image.handle = 9 := by
  intro t
  have hissued : ((empty {}).issued reusedSlot).map Prod.fst = [⟨0, 0⟩, ⟨1, 0⟩, ⟨0, 1⟩] := by decide
  have hreleased : (empty {}).released reusedSlot = [⟨0, 0⟩] := by decide
  have hlast : GenerationsLast ((empty {}).released reusedSlot) := fun i =>
    Nat.lt_of_le_of_lt List.countP_le_length (by rw [hreleased]; decide)
  have hlive : (((empty {}).issued reusedSlot).map Prod.fst).filter
      (fun id => id ∉ (empty {}).released reusedSlot) = [⟨1, 0⟩, ⟨0, 1⟩] := by
    rw [hissued, hreleased]
    decide
  obtain ⟨-, himage, hheld, -, -, ⟨hsize, hpairwise, hids⟩, hunregister, ⟨hstep, -⟩, -⟩ :=
    registry_holds_registrations {} reusedSlot hlast
  rw [hlive] at hsize
  simp only [hlive] at himage hheld hids hunregister
  obtain ⟨image, hi, hdescribes⟩ := hheld ⟨0, 1⟩
    { handle := 9, format := 129, extent := ⟨16, 16⟩ } (by decide) (by decide)
  exact ⟨⟨hlast, hstep⟩, hissued, hreleased, himage, hunregister, hsize, hpairwise, hids, image, hi,
    hdescribes.handle⟩

end Tracker

end DepthStencil
