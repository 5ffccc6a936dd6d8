import DepthStencil.Proofs.BarrierChains
import DepthStencil.Proofs.PassLog

/-! # Aspects that an image lacks

A format may have depth without stencil, or stencil without depth.  Everything is tracked in pairs
all the same, so there is a level and a history for an aspect that is not there.  Nothing ever
happens to them, whatever a caller claims of the aspect or asks for it.

* Commands need nothing of an absent aspect, so no level of it changes and no access to it is put on
  record (`TrackedImage.history_settle_of_absent`).
* Requests neither move it nor take it into a barrier (`TrackedImage.moves_request_of_absent`).
* A draw that uses it is recorded as one that does not (`Tracker.record_draw_leaveOut`). -/

namespace DepthStencil

/-! ### Levels and histories -/

theorem Need.OfCommand.eq_none {need : Need} (h : need.OfCommand) (hany : need.demand = .any) :
    need = .none := by
  rcases h with rfl | rfl | ⟨discards, rfl⟩ | ⟨level, rfl⟩
  · rfl
  · exact absurd hany (by simp [toTest])
  · exact absurd hany (by simp [toWrite])
  · exact absurd hany (by simp [toBe])

namespace TrackedImage

variable {image : TrackedImage} {scheme : LayoutScheme} {needs : PerAspect Need} {a : Aspect}

theorem history_seed_of_absent (ha : image.has a = false) (levels : PerAspect Level) :
    (image.seed levels).histories.get a = .empty := by
  have hhistory : (image.seed levels).histories.get a =
      .ofLevel ((image.seed levels).levels.get a) := PerAspect.get_map _ _ a
  rw [hhistory, (image.clean_seed levels).absent a ha]
  rfl

section absent

variable (hneeds : ∀ a, (needs.get a).demand ≠ .any → image.has a = true)
  (ha : image.has a = false)

include hneeds ha

/-- An absent aspect sees an access, if any, and commands make none. -/
theorem history_settle_of_absent (hof : ∀ a, (needs.get a).OfCommand) :
    (image.settle scheme needs).histories.get a = image.histories.get a := by
  have hchange := change_of_absent hneeds ha
  have hnone : needs.get a = .none := by
    refine (hof a).eq_none ?_
    by_contra hany
    rw [hneeds a hany] at ha
    exact absurd ha (by simp)
  have heffect : image.effect scheme needs a = .access .none := by
    have hcarried : image.isCarried scheme needs a = false := by simp [isCarried, ha]
    simp [effect, hchange, hcarried, hnone, Need.none]
  rw [get_histories_settle, heffect]
  rfl

theorem moves_request_of_absent (id : ImageId) (endsPass : Bool) :
    (image.request scheme needs id endsPass).moves.get a = none ∧
      ∀ b ∈ (image.request scheme needs id endsPass).imageBarriers,
        b.step.planes.has a = false := by
  constructor
  · rw [request, PerAspect.get_ofFn, moveOf, change_of_absent hneeds ha]
    rfl
  · intro b hb
    cases hplanes : b.step.planes.has a with
    | false => rfl
    | true => exact absurd (has_of_mem_barrier hneeds hb hplanes) (by rw [ha]; simp)

end absent

end TrackedImage

/-! ### Draws -/

/-- The uses without that of one aspect. -/
def Use.leaveOut (uses : PerAspect Use) (a : Aspect) : PerAspect Use :=
  .ofFn fun b => if b = a then .none else uses.get b

/-- A draw loses its use of an absent aspect, so that it does not matter. -/
theorem TrackedImage.accept_draw_leaveOut {image : TrackedImage} {a : Aspect}
    (ha : image.has a = false) (id : ImageId) (uses : PerAspect Use) :
    image.accept id (.draw (Use.leaveOut uses a)) = image.accept id (.draw uses) := by
  have hmask : ∀ b, ((Use.leaveOut uses a).get b).mask (image.has b) =
      (uses.get b).mask (image.has b) := by
    intro b
    rw [Use.leaveOut, PerAspect.get_ofFn]
    split
    · rename_i hb
      rw [hb, ha]
      simp [Use.mask, Use.none]
    · rfl
  simp only [accept, missing?, normalize, hmask]

namespace Tracker

theorem record_congr {t : Tracker} {id : ImageId} {image : TrackedImage}
    {command command' : Command} (hi : t.image? id = some image)
    (h : image.accept id command = image.accept id command') :
    t.record id command = t.record id command' := by
  simp only [record, lookup_eq_ok.mpr hi, h]

theorem record_draw_leaveOut {t : Tracker} {id : ImageId} {image : TrackedImage} {a : Aspect}
    (hi : t.image? id = some image) (ha : image.has a = false) (uses : PerAspect Use) :
    t.record id (.draw uses) = t.record id (.draw (Use.leaveOut uses a)) :=
  record_congr hi (TrackedImage.accept_draw_leaveOut ha id uses).symm

/-! ### Runs -/

theorem history_after_of_absent (policy : Policy) (calls : List Call) :
    ((empty policy).after calls).beliefs.All fun _ image =>
      ∀ a, image.has a = false → image.histories.get a = .empty :=
  all_after policy (fun _ levels _ ha => TrackedImage.history_seed_of_absent ha levels)
    (fun h hx a ha => (TrackedImage.history_settle_of_absent (fun _ => Action.has_of_accepted? hx)
      ha fun b => Accepted.ofCommand_needs _ policy b).trans (h a ha)) calls

/-- A pass neither commits an absent aspect of its image to a level nor writes it. -/
theorem pass_of_absent {policy : Policy} {calls : List Call} {p : Pass} {image : TrackedImage}
    {a : Aspect} (hp : ((empty policy).after calls).pass? = some p)
    (hi : ((empty policy).after calls).image? p.image = some image)
    (hlevel : image.levels.get a = .undefined) :
    p.writes.get a = false ∧ p.levels.get a = .undefined := by
  have hconsistent := consistent_after policy calls
  obtain ⟨image', hi', hholds⟩ := hconsistent.holds p hp
  obtain rfl := Option.some_inj.mp (hi.symm.trans hi')
  constructor
  · rw [hholds.writes, List.any_eq_false]
    intro x hx hwrites
    obtain ⟨discards, hneed⟩ := Accepted.needs_of_writes hwrites ((empty policy).after calls).policy
    have hmeets := (hholds.met x hx a).2
    rw [hneed, hlevel] at hmeets
    exact absurd (Level.eq_writable_of_le hmeets) (by simp)
  · have hcommits := hholds.commits
    cases hscheme : ((empty policy).after calls).policy.scheme with
    | separate =>
        rw [hscheme] at hcommits
        have hlevels : image.levels = p.levels := hcommits
        rw [← hlevels, hlevel]
    | shared =>
        rw [hscheme] at hcommits
        have hle := hcommits.2 a
        rw [hlevel] at hle
        exact Level.eq_of_le_of_le hle (Nat.zero_le _)

/-- An aspect that an image lacks does not exist anywhere.  Nothing is believed of it, nothing is
pending on it, and the pass open on the image has nothing to do with it.  No request for the image
moves it, and a draw that uses it has the same outcome as the draw that leaves it out. -/
theorem absent_aspect_untouched {policy : Policy} {calls : List Call} {id : ImageId}
    {image : TrackedImage} {a : Aspect}
    (hi : ((empty policy).after calls).image? id = some image) (ha : image.has a = false) :
    let t := (empty policy).after calls
    (image.levels.get a = .undefined ∧ image.histories.get a = .empty ∧
      image.pendingWrites.get a = false) ∧
    (∀ p, t.pass? = some p → p.image = id →
      p.writes.get a = false ∧ p.levels.get a = .undefined) ∧
    (∀ call, ∀ r ∈ (t.step call).1.requestList, r.image = id →
      r.moves.get a = none ∧ ∀ b ∈ r.imageBarriers, b.step.planes.has a = false) ∧
    (∀ uses, t.record id (.draw uses) = t.record id (.draw (Use.leaveOut uses a))) ∧
    ∀ pipeline view, t.drawPipeline id pipeline view =
      t.record id (.draw (Use.leaveOut (pipeline.uses view) a)) := by
  intro t
  have hlevel : image.levels.get a = .undefined :=
    (clean_after policy calls id image.endPass (beliefs_of_image? hi)).absent a ha
  have hhistory : image.histories.get a = .empty :=
    history_after_of_absent policy calls id image.endPass (beliefs_of_image? hi) a ha
  refine ⟨⟨hlevel, hhistory, ?_⟩, ?_, ?_, record_draw_leaveOut hi ha,
    fun pipeline view => record_draw_leaveOut hi ha (pipeline.uses view)⟩
  · rw [(consistent_after policy calls).pending id image hi]
    unfold Pass.writesOn
    split
    · exact PerAspect.get_both _ a
    · rename_i p hp
      split
      · rename_i hid
        exact (pass_of_absent hp (hid ▸ hi) hlevel).1
      · exact PerAspect.get_both _ a
  · intro p hp hid
    exact pass_of_absent hp (hid ▸ hi) hlevel
  · intro call r hr hid
    obtain ⟨α, -, image', x, hi', hx, hrequest⟩ := exists_image?_of_mem_step hr
    rw [hid, hi, Option.some_inj] at hi'
    subst hi'
    rw [hrequest]
    exact TrackedImage.moves_request_of_absent (fun _ => Action.has_of_accepted? hx) ha _ _

/-- A depth image that is claimed to hold stencil data, and a draw that writes both. -/
def claimedStencil : List Call :=
  [.register { handle := 7, format := 126, extent := ⟨64, 64⟩, initial := .both .writable },
    .record ⟨0, 0⟩ (.draw (.both ⟨true, true⟩))]

theorem absent_aspect_untouched_claimedStencil :
    ∃ image, ((empty {}).after claimedStencil).image? ⟨0, 0⟩ = some image ∧
      image.has .stencil = false ∧
      let t := (empty {}).after claimedStencil
      (image.levels.get .stencil = .undefined ∧ image.histories.get .stencil = .empty ∧
        image.pendingWrites.get .stencil = false) ∧
      (∀ p, t.pass? = some p → p.image = ⟨0, 0⟩ →
        p.writes.get .stencil = false ∧ p.levels.get .stencil = .undefined) ∧
      (∀ call, ∀ r ∈ (t.step call).1.requestList, r.image = ⟨0, 0⟩ →
        r.moves.get .stencil = none ∧ ∀ b ∈ r.imageBarriers, b.step.planes.has .stencil = false) ∧
      (∀ uses, t.record ⟨0, 0⟩ (.draw uses) =
        t.record ⟨0, 0⟩ (.draw (Use.leaveOut uses .stencil))) ∧
      ∀ pipeline view, t.drawPipeline ⟨0, 0⟩ pipeline view =
        t.record ⟨0, 0⟩ (.draw (Use.leaveOut (pipeline.uses view) .stencil)) := by
  have htracked : (((empty {}).after claimedStencil).image? ⟨0, 0⟩).isSome = true := by decide
  obtain ⟨image, hi⟩ := Option.isSome_iff_exists.mp htracked
  have hlacks : (((empty {}).after claimedStencil).image? ⟨0, 0⟩).all fun image =>
      !image.has .stencil := by decide
  rw [hi, Option.all_some, Bool.not_eq_true'] at hlacks
  exact ⟨image, hi, hlacks, absent_aspect_untouched hi hlacks⟩

end Tracker

end DepthStencil
