import DepthStencil.Proofs.Transitions

/-! # Subresources and the planes that own them

The planes of an image own the natural numbers in runs of one length, in the order of the planes
(`Subresource.Owns`).  Words of 64 bits are wide enough for all of this that is ever asked:

* the size of a plane and the number at which it starts are exact, since there are two planes at
  most (`Subresource.toNat_perPlane`, `Subresource.toNat_start`);
* the end of a plane may be too great for a word, but then it lies past every run that has an end
  (`Subresource.runCovers_iff`).

So the aspect of a subresource is the one whose plane owns it, and a discard takes the planes all of
whose subresources lie in its run (`Tracker.subresources_numbered`). -/

namespace DepthStencil

/-- The number of subresources in each plane of an image, where counts of zero stand for one. -/
def Registration.planeSize (info : Registration) : Nat :=
  max info.mipLevels.toNat 1 * max info.arrayLayers.toNat 1

namespace Subresource

/-- Whether the plane of an aspect owns a number, if planes of the given size follow each other. -/
def Owns (planes : PlaneSet) (size : Nat) (a : Aspect) (s : Nat) : Prop :=
  ∃ k, planes.planes[k]? = some a ∧ k * size ≤ s ∧ s < (k + 1) * size

/-- Whether a number lies in a run of subresources.  A run of `all` has no end. -/
def InRun (first count : UInt32) (s : Nat) : Prop :=
  first.toNat ≤ s ∧ (count = all ∨ s < first.toNat + count.toNat)

variable {planes : PlaneSet} {size : UInt64} {first count s : UInt32} {a : Aspect} {k : Nat}

/-! ### Words that do not overflow -/

/-- The size of a plane fits a word, whatever the counts. -/
theorem toNat_perPlane (m n : UInt32) : (perPlane m n).toNat = m.toNat * n.toNat := by
  have hm := m.toNat_lt
  have hn := n.toNat_lt
  have hlt : m.toNat * n.toNat < 2 ^ 64 := by
    calc m.toNat * n.toNat < 2 ^ 32 * 2 ^ 32 := Nat.mul_lt_mul'' hm hn
      _ = 2 ^ 64 := by decide
  rw [perPlane, UInt64.toNat_mul, UInt32.toNat_toUInt64, UInt32.toNat_toUInt64,
    Nat.mod_eq_of_lt hlt]

theorem toNat_boundedMul (m n : UInt64) :
    (boundedMul m n).toNat = min (m.toNat * n.toNat) maxWord := by
  rw [boundedMul, UInt64.toNat_ofNat']
  exact Nat.mod_eq_of_lt (Nat.lt_succ_of_le (Nat.min_le_right _ _))

theorem toNat_boundedAdd (m n : UInt64) :
    (boundedAdd m n).toNat = min (m.toNat + n.toNat) maxWord := by
  rw [boundedAdd, UInt64.toNat_ofNat']
  exact Nat.mod_eq_of_lt (Nat.lt_succ_of_le (Nat.min_le_right _ _))

/-- The first number of the first or second plane fits a word. -/
theorem toNat_start (size : UInt64) (hk : k ≤ 1) :
    (boundedMul (.ofNat k) size).toNat = k * size.toNat := by
  have hsize : size.toNat ≤ maxWord := Nat.le_of_lt_succ size.toNat_lt
  have hword : (UInt64.ofNat k).toNat = k := by
    rw [UInt64.toNat_ofNat']
    exact Nat.mod_eq_of_lt (by omega)
  have hle : k * size.toNat ≤ 1 * size.toNat := Nat.mul_le_mul_right _ hk
  rw [toNat_boundedMul, hword]
  omega

theorem toNat_runEnd (first : UInt32) (h : count ≠ all) :
    (runEnd first count).toNat = first.toNat + count.toNat := by
  have hfirst := first.toNat_lt
  have hcount := count.toNat_lt
  rw [runEnd, if_neg h, UInt64.toNat_add, UInt32.toNat_toUInt64, UInt32.toNat_toUInt64]
  omega

/-- Whether a run takes in a plane is decided as it would be without bounds. -/
theorem runCovers_iff (hk : k ≤ 1) : runCovers size first count k = true ↔
    first.toNat ≤ k * size.toNat ∧
      (count = all ∨ (k + 1) * size.toNat ≤ first.toNat + count.toNat) := by
  rw [runCovers, Bool.and_eq_true, decide_eq_true_eq, decide_eq_true_eq, UInt64.le_iff_toNat_le,
    UInt64.le_iff_toNat_le, toNat_boundedAdd, toNat_start size hk, UInt32.toNat_toUInt64,
    Nat.succ_mul]
  by_cases hall : count = all
  · have hend : (runEnd first count).toNat = maxWord := by
      rw [runEnd, if_pos hall]
      rfl
    rw [hend]
    simp only [hall, true_or, and_true, and_iff_left_iff_imp]
    exact fun _ => Nat.min_le_right _ _
  · have hfirst := first.toNat_lt
    have hcount := count.toNat_lt
    have hmax : maxWord = 2 ^ 64 - 1 := rfl
    rw [toNat_runEnd first hall]
    simp only [hall, false_or]
    omega

/-! ### Planes -/

theorem owns_iff (size n : Nat) (h : planes.has a = true) : Owns planes size a n ↔
    planes.planes.idxOf a * size ≤ n ∧ n < (planes.planes.idxOf a + 1) * size := by
  have hmem : a ∈ planes.planes := (planes.mem_planes a).mpr h
  have hnodup : planes.planes.Nodup := List.Pairwise.filter _ (by decide : Aspect.all.Nodup)
  constructor
  · rintro ⟨k, hk, hn⟩
    obtain ⟨hlt, he⟩ := List.getElem?_eq_some_iff.mp hk
    rw [← he, hnodup.idxOf_getElem k hlt]
    exact hn
  · intro hn
    refine ⟨planes.planes.idxOf a, ?_, hn⟩
    exact List.getElem?_eq_some_iff.mpr
      ⟨List.idxOf_lt_length_of_mem hmem, List.getElem_idxOf _⟩

theorem le_one_of_lt (h : k < planes.planes.length) : k ≤ 1 := by
  have hlength : planes.planes.length ≤ 2 := List.length_filter_le _ Aspect.all
  omega

theorem aspect?_eq_some (hsize : 0 < size.toNat) :
    aspect? planes size s = some a ↔ Owns planes size.toNat a s.toNat := by
  have hne : size ≠ 0 := by
    rintro rfl
    exact absurd hsize (by decide)
  rw [aspect?, if_neg hne, UInt64.toNat_div, UInt32.toNat_toUInt64]
  constructor
  · intro h
    exact ⟨_, h, Nat.div_mul_le_self _ _, Nat.lt_mul_of_div_lt (Nat.lt_succ_self _) hsize⟩
  · rintro ⟨k, hk, hle, hlt⟩
    rw [Nat.div_eq_of_lt_le hle hlt]
    exact hk

theorem aspect?_eq_none (hsize : 0 < size.toNat) :
    aspect? planes size s = none ↔ planes.planes.length * size.toNat ≤ s.toNat := by
  have hne : size ≠ 0 := by
    rintro rfl
    exact absurd hsize (by decide)
  rw [aspect?, if_neg hne, UInt64.toNat_div, UInt32.toNat_toUInt64, List.getElem?_eq_none_iff,
    Nat.le_div_iff_mul_le hsize]

theorem get_wholePlanes (hsize : 0 < size.toNat) :
    (wholePlanes planes size first count).get a = true ↔
      planes.has a = true ∧ ∀ n, Owns planes size.toNat a n → InRun first count n := by
  rw [wholePlanes, PerAspect.get_ofFn, Bool.and_eq_true]
  refine and_congr_right fun hhas => ?_
  have hlt := List.idxOf_lt_length_of_mem ((planes.mem_planes a).mpr hhas)
  rw [runCovers_iff (le_one_of_lt hlt)]
  simp only [owns_iff _ _ hhas]
  clear hlt
  generalize planes.planes.idxOf a = k
  rw [Nat.succ_mul]
  constructor
  · rintro ⟨hfirst, hend⟩ n ⟨hle, hlt⟩
    refine ⟨by omega, hend.imp id fun hend => ?_⟩
    omega
  · intro h
    -- a plane is not empty, so its first and last number decide
    obtain ⟨hfirst, -⟩ := h (k * size.toNat) ⟨Nat.le_refl _, by omega⟩
    obtain ⟨-, hend⟩ := h (k * size.toNat + size.toNat - 1) ⟨by omega, by omega⟩
    refine ⟨hfirst, hend.imp id fun hend => ?_⟩
    omega

theorem toNat_max_one (m : UInt32) : (max m 1).toNat = max m.toNat 1 := by
  have hmax : max m 1 = if m ≤ 1 then 1 else m := rfl
  rw [hmax]
  split
  · rename_i h
    exact (Nat.max_eq_right (UInt32.le_iff_toNat_le.mp h)).symm
  · rename_i h
    rw [UInt32.le_iff_toNat_le] at h
    exact (Nat.max_eq_left (Nat.le_of_not_le h)).symm

end Subresource

theorem Registration.planeSize_pos (info : Registration) : 0 < info.planeSize :=
  Nat.mul_pos (Nat.lt_of_lt_of_le Nat.zero_lt_one (Nat.le_max_right _ _))
    (Nat.lt_of_lt_of_le Nat.zero_lt_one (Nat.le_max_right _ _))

theorem Registration.Describes.toNat_subresourcesPerPlane {info : Registration}
    {image : TrackedImage} (h : info.Describes image) :
    image.subresourcesPerPlane.toNat = info.planeSize := by
  rw [TrackedImage.subresourcesPerPlane, Subresource.toNat_perPlane, h.mipLevels, h.arrayLayers,
    Subresource.toNat_max_one, Subresource.toNat_max_one, planeSize]

/-- Whether the words computed from an image number its subresources as the naturals do, in planes
of the given size.  The aspect of a subresource is the one whose plane owns it, and a run takes in
the aspects all of whose subresources lie in it.  Sizes, starts and ends are exact, and where the end
of a plane would not fit a word the answer is the same. -/
structure TrackedImage.NumbersExactly (image : TrackedImage) (size : Nat) : Prop where
  aspect : ∀ s a, image.subresourceAspect? s = some a ↔
    Subresource.Owns image.planeSet size a s.toNat
  beyond : ∀ s, image.subresourceAspect? s = none ↔
    image.planeSet.planes.length * size ≤ s.toNat
  whole : ∀ first count a, (image.wholePlanes first count).get a = true ↔
    image.has a = true ∧
      ∀ n, Subresource.Owns image.planeSet size a n → Subresource.InRun first count n
  perPlane : image.subresourcesPerPlane.toNat = size
  start : ∀ k < image.planeSet.planes.length,
    (Subresource.boundedMul (.ofNat k) image.subresourcesPerPlane).toNat = k * size
  runEnd : ∀ first count, count ≠ Subresource.all →
    (Subresource.runEnd first count).toNat = first.toNat + count.toNat
  covers : ∀ first count, ∀ k < image.planeSet.planes.length,
    (Subresource.runCovers image.subresourcesPerPlane first count k = true ↔
      first.toNat ≤ k * size ∧
        (count = Subresource.all ∨ (k + 1) * size ≤ first.toNat + count.toNat))

theorem Registration.Describes.numbersExactly {info : Registration} {image : TrackedImage}
    (h : info.Describes image) : image.NumbersExactly info.planeSize := by
  have hpos := info.planeSize_pos
  rw [← h.toNat_subresourcesPerPlane] at hpos ⊢
  exact {
    aspect := fun s a => Subresource.aspect?_eq_some hpos
    beyond := fun s => Subresource.aspect?_eq_none hpos
    whole := fun first count a => Subresource.get_wholePlanes hpos
    perPlane := rfl
    start := fun k hk => Subresource.toNat_start _ (Subresource.le_one_of_lt hk)
    runEnd := fun first count => Subresource.toNat_runEnd first
    covers := fun first count k hk => Subresource.runCovers_iff (Subresource.le_one_of_lt hk) }

/-! ### Discards -/

namespace TrackedImage

variable {image : TrackedImage} {aspects : PerAspect Bool}

theorem normalize_discard (image : TrackedImage) (aspects : PerAspect Bool) (policy : Policy) :
    ((image.normalize (.discard aspects)).elim (.both .none) fun x => x.needs policy) =
      (Command.discard aspects).needs false := by
  rw [normalize]
  split
  · rfl
  · rename_i hany
    rw [Bool.not_eq_true] at hany
    obtain ⟨hdepth, hstencil⟩ := Bool.or_eq_false_iff.mp hany
    refine PerAspect.ext_get fun a => ?_
    have hunmarked : aspects.get a = false := by
      cases a with
      | depth => exact hdepth
      | stencil => exact hstencil
    rw [Command.get_needs_discard, hunmarked, Option.elim_none, PerAspect.get_both]
    rfl

theorem get_settledLevels_discard (image : TrackedImage) (aspects : PerAspect Bool) (a : Aspect) :
    (image.settledLevels ((Command.discard aspects).needs false)).get a =
      if aspects.get a then .writable else image.levels.get a := by
  have hneed := Command.get_needs_discard false a aspects
  split
  · rename_i hmarked
    rw [if_pos hmarked] at hneed
    have hmeets := image.meets_settledLevels ((Command.discard aspects).needs false) a
    rw [hneed] at hmeets
    exact Level.eq_writable_of_le hmeets
  · rename_i hmarked
    rw [if_neg hmarked] at hneed
    refine get_settledLevels_of_none ?_
    rw [get_changes, hneed]
    rfl

/-- All that a discard changes are marked aspects, and it drops their contents. -/
theorem discards_of_moveOf {scheme : LayoutScheme} {a : Aspect} {m : Move}
    (h : image.moveOf scheme ((Command.discard aspects).needs false) a = some m) :
    aspects.get a = true ∧ m.change.discards = true := by
  obtain ⟨c, hc, rfl⟩ := Option.map_eq_some_iff.mp h
  rw [get_changes, Command.get_needs_discard] at hc
  split at hc
  · rename_i hmarked
    refine ⟨hmarked, ?_⟩
    rw [(Need.change?_eq_some hc).2.2.2]
    exact Bool.true_or _
  · exact absurd hc (by simp [Need.change?, Need.none, Demand.resolve])

end TrackedImage

/-! ### Calls that name subresources -/

namespace Tracker

variable {t : Tracker} {id : ImageId} {image : TrackedImage} {subresource : UInt32}
  {states : ResourceStates} {level : Level}

theorem step_resourceBarrier_of_none (hi : t.image? id = some image)
    (hl : states.level? = some level) (hall : subresource ≠ Subresource.all)
    (h : image.subresourceAspect? subresource = none) :
    t.step (.resourceBarrier id subresource states) =
      (.rejected (.subresourceOutOfRange id subresource), t) := by
  rw [step, resourceBarrier]
  simp only [hl, subresourceAspects, lookup_eq_ok.mpr hi, if_neg hall, h]
  rfl

/-- A barrier on a subresource moves the aspect that the subresource belongs to, and no other. -/
theorem step_resourceBarrier_of_some {a : Aspect} (hi : t.image? id = some image)
    (hl : states.level? = some level) (hall : subresource ≠ Subresource.all)
    (h : image.subresourceAspect? subresource = some a) :
    let result := t.step (.resourceBarrier id subresource states)
    (∃ request?, result.1 = .recorded request?) ∧
      ∃ image', result.2.image? id = some image' ∧ image'.levels.get a = level ∧
        image'.levels.get a.other = image.levels.get a.other := by
  intro result
  have htransits := transits_resourceBarrier_plane (beliefs_of_image? hi) hl hall h
  have hneeds := Command.needsOnly_transition ((PerAspect.both level).map some) a
  obtain ⟨image', hi', he⟩ := exists_image?_of_beliefs htransits.settled
  have hlevels := congrArg TrackedImage.levels he
  refine ⟨htransits.recorded, image', hi', ?_, ?_⟩
  · have hlevel : (image.endPass.settledLevels _).get a = (image.endPass.settledLevels _).get a :=
      hneeds.level rfl
    rw [image.endPass.settledLevels_transition, PerAspect.get_both] at hlevel
    exact (congrArg (fun levels => levels.get a) hlevels).trans hlevel
  · exact (congrArg (fun levels => levels.get a.other) hlevels).trans
      (hneeds.level_other image.endPass a.other_ne)

/-- A discard leaves the marked aspects writable and the other ones alone, and all that it changes
are marked aspects whose contents it drops. -/
theorem step_discard {aspects : PerAspect Bool} (hi : t.image? id = some image)
    (hpresent : ∀ a, aspects.get a = true → image.has a = true) :
    let result := t.step (.record id (.discard aspects))
    (∃ image', result.2.image? id = some image' ∧ ∀ a, image'.levels.get a =
      if aspects.get a then .writable else image.levels.get a) ∧
    ∀ r ∈ result.1.requestList, ∀ a m, r.moves.get a = some m →
      aspects.get a = true ∧ m.change.discards = true := by
  intro result
  have hneeds : ∀ image' : TrackedImage, image'.planeSet = image.planeSet →
      (Action.record id (.discard aspects)).needs t.policy id image' =
        (Command.discard aspects).needs false := by
    intro image' hplanes
    have hmissing : image'.missing? (.discard aspects) = none :=
      TrackedImage.missing?_eq_none fun a ha => by
        rw [TrackedImage.has, hplanes]
        exact hpresent a ha
    rw [Action.needs, Action.accepted?, if_pos rfl, TrackedImage.accept, hmissing]
    exact TrackedImage.normalize_discard image' aspects t.policy
  constructor
  · have hsettles := (act_settles (α := .record id (.discard aspects)) rfl
      (beliefs_of_image? hi)).2
    rw [hneeds image.endPass rfl] at hsettles
    have hbelief : result.2.beliefs id = some (image.endPass.settle t.policy.scheme
        ((Command.discard aspects).needs false)) := by
      rw [show result.2 = (t.act (.record id (.discard aspects))).2 from rfl, hsettles,
        Function.update_self]
    obtain ⟨image', hi', he⟩ := exists_image?_of_beliefs hbelief
    have hlevels := congrArg TrackedImage.levels he
    refine ⟨image', hi', fun a => ?_⟩
    exact (congrArg (fun levels => levels.get a) hlevels).trans
      (image.endPass.get_settledLevels_discard aspects a)
  · intro r hr a m hm
    obtain ⟨α, hα, image', x, hi', hx, he⟩ := exists_image?_of_mem_step hr
    obtain rfl := List.mem_singleton.mp hα
    obtain ⟨hid, -, -⟩ := Action.accepted?_record.mp hx
    rw [← hid] at hi' hx he
    obtain rfl := Option.some_inj.mp (hi.symm.trans hi')
    have hxneeds := hneeds image rfl
    rw [Action.needs, hx, Option.elim_some] at hxneeds
    rw [he, hxneeds] at hm
    exact TrackedImage.discards_of_moveOf ((PerAspect.get_ofFn _ a).symm.trans hm)

theorem has_of_wholePlanes {first count : UInt32} {a : Aspect}
    (h : (image.wholePlanes first count).get a = true) : image.has a = true := by
  rw [TrackedImage.wholePlanes, Subresource.wholePlanes, PerAspect.get_ofFn, Bool.and_eq_true] at h
  exact h.1

theorem step_discardSubresources (hi : t.image? id = some image) (first count : UInt32) :
    t.step (.discardSubresources id first count false) =
      t.step (.record id (.discard (image.wholePlanes first count))) := by
  have hmissing : image.missing? (.discard (image.wholePlanes first count)) = none :=
    TrackedImage.missing?_eq_none fun _ => has_of_wholePlanes
  rw [step, step, discardSubresources, lookup_eq_ok.mpr hi]
  cases hany : (image.wholePlanes first count).any with
  | true => simp only [hany, Bool.false_or, Bool.not_true, Bool.false_eq_true, if_false]
  | false =>
      have hrecord : t.record id (.discard (image.wholePlanes first count)) = (.ok none, t) := by
        simp only [record, lookup_eq_ok.mpr hi, TrackedImage.accept, hmissing,
          TrackedImage.normalize, hany]
        rfl
      simp only [hany, Bool.false_or, Bool.not_false, if_true, hrecord]

theorem step_discardSubresources_of_none {first count : UInt32} {hasRects : Bool}
    (hi : t.image? id = some image)
    (h : hasRects = true ∨ ∀ a, (image.wholePlanes first count).get a = false) :
    t.step (.discardSubresources id first count hasRects) = (.recorded none, t) := by
  have hskip : (hasRects || !(image.wholePlanes first count).any) = true := by
    rcases h with rfl | h
    · rfl
    · have hnone : (image.wholePlanes first count).any = false :=
        Bool.or_eq_false_iff.mpr ⟨h .depth, h .stencil⟩
      rw [hnone, Bool.not_false, Bool.or_true]
  rw [step, discardSubresources, lookup_eq_ok.mpr hi]
  simp only [hskip, if_true]
  rfl

/-- The numbers of subresources are exact for all images, whatever was registered.

A barrier on a subresource moves the aspect whose plane owns it and leaves the other one alone, and
it is rejected exactly if the subresource lies past the last plane.  A discard takes the aspects all
of whose subresources lie in its run.  They are writable afterwards, whatever it changes of them
drops the contents, and other aspects keep their level.  Nothing happens if there are none or if the
discard is limited to rectangles. -/
theorem subresources_numbered {policy : Policy} {calls : List Call}
    (hi : ((empty policy).after calls).image? id = some image) :
    ∃ info, (id, info) ∈ (empty policy).issued calls ∧ image.NumbersExactly info.planeSize ∧
      let t := (empty policy).after calls
      (∀ s states level, s ≠ Subresource.all → ResourceStates.level? states = some level →
        let result := t.step (.resourceBarrier id s states)
        (image.subresourceAspect? s = none →
          result = (.rejected (.subresourceOutOfRange id s), t)) ∧
        ∀ a, image.subresourceAspect? s = some a →
          (∃ request?, result.1 = .recorded request?) ∧
            ∃ image', result.2.image? id = some image' ∧ image'.levels.get a = level ∧
              image'.levels.get a.other = image.levels.get a.other) ∧
      ∀ first count,
        let result := t.step (.discardSubresources id first count false)
        result = t.step (.record id (.discard (image.wholePlanes first count))) ∧
        (∃ image', result.2.image? id = some image' ∧ ∀ a, image'.levels.get a =
          if (image.wholePlanes first count).get a then .writable else image.levels.get a) ∧
        (∀ r ∈ result.1.requestList, ∀ a m, r.moves.get a = some m →
          (image.wholePlanes first count).get a = true ∧ m.change.discards = true) ∧
        ((∀ a, (image.wholePlanes first count).get a = false) → result = (.recorded none, t)) ∧
        t.step (.discardSubresources id first count true) = (.recorded none, t) := by
  obtain ⟨info, hentry, hinfo⟩ := exists_issued hi
  refine ⟨info, hentry, hinfo.numbersExactly, fun s states level hall hl => ⟨?_, fun a => ?_⟩,
    fun first count => ?_⟩
  · exact step_resourceBarrier_of_none hi hl hall
  · exact step_resourceBarrier_of_some hi hl hall
  · intro result
    have hresult := step_discardSubresources hi first count
    obtain ⟨hlevels, hdiscards⟩ := step_discard hi fun a => has_of_wholePlanes
    rw [← hresult] at hlevels hdiscards
    exact ⟨hresult, hlevels, hdiscards, fun h => step_discardSubresources_of_none hi (.inr h),
      step_discardSubresources_of_none hi (.inl rfl)⟩

/-- An image with so many array layers that the numbers of its stencil plane exceed 32 bits. -/
def layered : Registration :=
  { handle := 7, format := 129, extent := ⟨64, 64⟩, mipLevels := 0, arrayLayers := 0x80000001,
    initial := .both .readOnly }

theorem subresources_numbered_layered :
    let t := (empty {}).after [.register layered]
    ∃ image, t.image? .first = some image ∧ image.NumbersExactly 0x80000001 ∧
      (∃ image', (t.step (.resourceBarrier .first 0x80000001 ResourceStates.depthWrite)).2.image?
          .first = some image' ∧
        image'.levels.get .stencil = .writable ∧
          image'.levels.get .depth = image.levels.get .depth) ∧
      t.step (.discardSubresources .first 0x80000001 0x80000000 false) = (.recorded none, t) ∧
      t.step (.discardSubresources .first 0x80000001 0x80000001 false) =
        t.step (.record .first (.discard ⟨false, true⟩)) := by
  intro t
  have htracked : (t.image? .first).isSome = true := by decide
  have haspect : (t.image? .first).all fun image =>
      image.subresourceAspect? 0x80000001 = some .stencil := by decide
  have hnone : (t.image? .first).all fun image =>
      image.wholePlanes 0x80000001 0x80000000 = .both false := by decide
  have hstencil : (t.image? .first).all fun image =>
      image.wholePlanes 0x80000001 0x80000001 = ⟨false, true⟩ := by decide
  obtain ⟨image, hi⟩ := Option.isSome_iff_exists.mp htracked
  rw [hi, Option.all_some, decide_eq_true_eq] at haspect hnone hstencil
  obtain ⟨info, hentry, hnumbers, hbarrier, hdiscard⟩ := subresources_numbered hi
  obtain rfl : info = layered := by
    have hissued : (empty {}).issued [.register layered] = [(ImageId.first, layered)] := rfl
    rw [hissued, List.mem_singleton] at hentry
    exact congrArg Prod.snd hentry
  obtain ⟨-, hmoved⟩ := (hbarrier 0x80000001 ResourceStates.depthWrite .writable (by decide)
    (by decide)).2 .stencil haspect
  refine ⟨image, hi, hnumbers, hmoved, (hdiscard _ _).2.2.2.1 fun a => ?_, ?_⟩
  · rw [hnone, PerAspect.get_both]
  · rw [(hdiscard _ _).1, hstencil]

end Tracker

end DepthStencil
