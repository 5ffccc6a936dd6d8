import DepthStencil.Proofs.Rectangles

/-! # Exactness of clipping

A texel of an image lies in a rectangle if it lies in both in unbounded coordinates (`Rect.Meets`).
Clipping ought to keep those texels and no others.  It keeps fewer if a rectangle is longer than the
greatest coordinate, for then the rectangle is cut short before it is cut to the image
(`Rect.keeps_iff`).  That is lost on nobody unless the rectangle begins before the image, so
clipping is exact as long as the visible part of the rectangle ends at most `maxCoordinate` texels
past its start on each axis (`Rect.clipsExactly_iff`). -/

namespace DepthStencil

/-! ### Along one axis -/

namespace Span

variable {s s' : Span} {size : UInt32} {x : Int}

/-- Whether a texel of an axis lies in the span. -/
def Meets (s : Span) (size : UInt32) (x : Int) : Prop := (whole size).Reaches x ∧ s.Reaches x

/-- Whether a coordinate is kept when the span is clipped. -/
def Keeps (s : Span) (size : UInt32) (x : Int) : Prop := s.first ≤ x ∧ x < s.past size

/-- Whether the visible part of the span ends at most `maxCoordinate` texels past its start. -/
def InReach (s : Span) (size : UInt32) : Prop :=
  min (s.start.toInt + (s.length.toNat : Int)) (size.toNat : Int) ≤ s.start.toInt + maxCoordinate

theorem meets_iff : s.Meets size x ↔
    s.first ≤ x ∧ x < s.start.toInt + (s.length.toNat : Int) ∧ x < (size.toNat : Int) := by
  unfold Meets
  rw [reaches_whole]
  unfold Reaches first
  omega

/-- Along an axis without texels beyond the greatest coordinate, clipping keeps the texels in the
span up to that many past its start. -/
theorem keeps_iff (hsize : (size.toNat : Int) ≤ maxCoordinate) :
    s.Keeps size x ↔ s.Meets size x ∧ x < s.start.toInt + maxCoordinate := by
  rw [meets_iff]
  unfold Keeps past
  omega

theorem whole_reaches_of_keeps (h : s.Keeps size x) : (whole size).Reaches x := by
  have hfirst := s.first_nonneg
  rw [reaches_whole]
  unfold Keeps past at h
  omega

theorem whole_reaches_zero (h : 0 < size) : (whole size).Reaches 0 := by
  rw [reaches_whole]
  rw [UInt32.lt_iff_toNat_lt] at h
  have hzero : (0 : UInt32).toNat = 0 := rfl
  omega

theorem clip?_eq_none_iff : s.clip? size = none ↔ ∀ x, ¬ s.Keeps size x := by
  unfold clip? Keeps
  constructor
  · intro h x hx
    split at h
    · omega
    · exact absurd h (by simp)
  · intro h
    rw [if_pos]
    have hfirst := h s.first
    omega

theorem reaches_clip?_iff (h : s.clip? size = some s') : s'.Reaches x ↔ s.Keeps size x := by
  obtain ⟨hstart, hend⟩ := ends_of_clip? h
  unfold Reaches Keeps
  rw [hend, hstart]

theorem exists_keeps (h : s.clip? size = some s') : ∃ x, s.Keeps size x := by
  unfold clip? at h
  split at h
  · exact absurd h (by simp)
  · rename_i hlt
    refine ⟨s.first, ?_⟩
    unfold Keeps
    omega

/-- A span is known by the coordinates it reaches, if there are any. -/
theorem eq_of_reaches (h : ∀ x, s.Reaches x ↔ s'.Reaches x) (hx : s.Reaches x) : s = s' := by
  have hleft := h s.start.toInt
  have hright := h s'.start.toInt
  have hend := h (s.start.toInt + (s.length.toNat : Int) - 1)
  have hend' := h (s'.start.toInt + (s'.length.toNat : Int) - 1)
  have hx' := (h x).mp hx
  unfold Reaches at *
  have hstart : s.start = s'.start := Int32.toInt_inj.mp (by omega)
  have hlength : s.length = s'.length := UInt32.toNat_inj.mp (by omega)
  cases s
  cases s'
  simp_all only

theorem InReach.lt (h : s.InReach size) (hx : s.Meets size x) :
    x < s.start.toInt + maxCoordinate := by
  rw [meets_iff] at hx
  unfold InReach at h
  omega

/-- If all visible texels are within the greatest coordinate of the start, so is their end. -/
theorem inReach_of_meets (hsize : (size.toNat : Int) ≤ maxCoordinate) (hx : s.Meets size x)
    (h : ∀ x, s.Meets size x → x < s.start.toInt + maxCoordinate) : s.InReach size := by
  rw [meets_iff] at hx
  have hfar := h (max 0 (s.start.toInt + maxCoordinate))
  rw [meets_iff] at hfar
  unfold InReach
  unfold first at hx hfar
  omega

end Span

/-! ### Rectangles -/

namespace Rect

variable {r r' : Rect} {e : Extent} {x y : Int}

/-- Whether a texel of an image lies in the rectangle. -/
def Meets (r : Rect) (e : Extent) (x y : Int) : Prop := (whole e).Reaches x y ∧ r.Reaches x y

/-- Whether a texel is kept when the rectangle is clipped. -/
def Keeps (r : Rect) (e : Extent) (x y : Int) : Prop :=
  r.columns.Keeps e.width x ∧ r.rows.Keeps e.height y

/-- Clipping is exact if it keeps the texels of the image that lie in the rectangle and no others,
and finds out whether these are all texels of an image that has any. -/
structure ClipsExactly (r : Rect) (e : Extent) : Prop where
  none_iff : r.clip? e = none ↔ ∀ x y, ¬ r.Meets e x y
  reaches_iff : ∀ r', r.clip? e = some r' → ∀ x y, r'.Reaches x y ↔ r.Meets e x y
  covers_iff : 0 < e.width → 0 < e.height → (r.covers e = true ↔ r.Fills e)

theorem meets_iff : r.Meets e x y ↔ r.columns.Meets e.width x ∧ r.rows.Meets e.height y :=
  and_and_and_comm

theorem keeps_iff (hw : (e.width.toNat : Int) ≤ maxCoordinate)
    (hh : (e.height.toNat : Int) ≤ maxCoordinate) : r.Keeps e x y ↔ r.Meets e x y ∧
      x < r.columns.start.toInt + maxCoordinate ∧ y < r.rows.start.toInt + maxCoordinate := by
  unfold Keeps
  rw [Span.keeps_iff hw, Span.keeps_iff hh, meets_iff]
  exact and_and_and_comm

theorem whole_reaches_of_keeps (h : r.Keeps e x y) : (whole e).Reaches x y :=
  ⟨Span.whole_reaches_of_keeps h.1, Span.whole_reaches_of_keeps h.2⟩

theorem fills_iff : r.Fills e ↔ ∀ x y, (whole e).Reaches x y → r.Reaches x y := by
  unfold Fills whole Reaches
  simp only [Span.reaches_whole, and_imp]

/-- A rectangle is known by the texels it reaches, if there are any. -/
theorem eq_of_reaches (h : ∀ x y, r.Reaches x y ↔ r'.Reaches x y) (hxy : r.Reaches x y) :
    r = r' := by
  have hxy' := (h x y).mp hxy
  have hcolumns : r.columns = r'.columns := Span.eq_of_reaches
    (fun x => ⟨fun hx => ((h x y).mp ⟨hx, hxy.2⟩).1, fun hx => ((h x y).mpr ⟨hx, hxy'.2⟩).1⟩) hxy.1
  have hrows : r.rows = r'.rows := Span.eq_of_reaches
    (fun y => ⟨fun hy => ((h x y).mp ⟨hxy.1, hy⟩).2, fun hy => ((h x y).mpr ⟨hxy'.1, hy⟩).2⟩) hxy.2
  cases r
  cases r'
  simp_all only

theorem clip?_eq_some_iff : r.clip? e = some r' ↔
    r.columns.clip? e.width = some r'.columns ∧ r.rows.clip? e.height = some r'.rows := by
  obtain ⟨columns, rows⟩ := r'
  unfold clip?
  cases r.columns.clip? e.width <;> cases r.rows.clip? e.height <;> simp

theorem reaches_clip?_iff (h : r.clip? e = some r') : r'.Reaches x y ↔ r.Keeps e x y := by
  obtain ⟨hcolumns, hrows⟩ := clip?_eq_some_iff.mp h
  exact and_congr (Span.reaches_clip?_iff hcolumns) (Span.reaches_clip?_iff hrows)

theorem clip?_eq_none_iff : r.clip? e = none ↔ ∀ x y, ¬ r.Keeps e x y := by
  constructor
  · intro h x y hxy
    cases hcolumns : r.columns.clip? e.width with
    | none => exact Span.clip?_eq_none_iff.mp hcolumns x hxy.1
    | some columns =>
        cases hrows : r.rows.clip? e.height with
        | none => exact Span.clip?_eq_none_iff.mp hrows y hxy.2
        | some rows =>
            have hsome : r.clip? e = some ⟨columns, rows⟩ :=
              clip?_eq_some_iff.mpr ⟨hcolumns, hrows⟩
            rw [h] at hsome
            exact absurd hsome (by simp)
  · intro h
    cases hclip : r.clip? e with
    | none => rfl
    | some r' =>
        obtain ⟨hcolumns, hrows⟩ := clip?_eq_some_iff.mp hclip
        obtain ⟨x, hx⟩ := Span.exists_keeps hcolumns
        obtain ⟨y, hy⟩ := Span.exists_keeps hrows
        exact absurd ⟨hx, hy⟩ (h x y)

theorem covers_iff_keeps (hw : 0 < e.width) (hh : 0 < e.height) :
    r.covers e = true ↔ ∀ x y, (whole e).Reaches x y → r.Keeps e x y := by
  rw [covers, decide_eq_true_eq]
  constructor
  · intro h x y hxy
    exact (reaches_clip?_iff h).mp hxy
  · intro h
    have hcorner : (whole e).Reaches 0 0 :=
      ⟨Span.whole_reaches_zero hw, Span.whole_reaches_zero hh⟩
    cases hclip : r.clip? e with
    | none => exact absurd (h 0 0 hcorner) (clip?_eq_none_iff.mp hclip 0 0)
    | some r' =>
        have hsame : ∀ x y, r'.Reaches x y ↔ (whole e).Reaches x y := fun x y =>
          (reaches_clip?_iff hclip).trans ⟨whole_reaches_of_keeps, h x y⟩
        rw [eq_of_reaches hsame ((hsame 0 0).mpr hcorner)]

theorem clipsExactly_iff_keeps :
    r.ClipsExactly e ↔ ∀ x y, r.Keeps e x y ↔ r.Meets e x y := by
  constructor
  · intro h x y
    cases hclip : r.clip? e with
    | none =>
        exact iff_of_false (clip?_eq_none_iff.mp hclip x y) (h.none_iff.mp hclip x y)
    | some r' => rw [← reaches_clip?_iff hclip, h.reaches_iff r' hclip]
  · intro h
    refine ⟨?_, ?_, ?_⟩
    · simp only [clip?_eq_none_iff, h]
    · intro r' hclip x y
      rw [reaches_clip?_iff hclip, h]
    · intro hw hh
      rw [covers_iff_keeps hw hh, fills_iff]
      refine forall_congr' fun x => forall_congr' fun y => ?_
      rw [h, Meets]
      exact ⟨fun hxy hin => (hxy hin).2, fun hxy hin => ⟨hin, hxy hin⟩⟩

/-- A rectangle on an image whose texels all have coordinates is clipped exactly if no texel of the
image lies in it, or its visible part ends within the greatest coordinate of its start. -/
theorem clipsExactly_iff (hw : (e.width.toNat : Int) ≤ maxCoordinate)
    (hh : (e.height.toNat : Int) ≤ maxCoordinate) :
    r.ClipsExactly e ↔
      ((∃ x y, r.Meets e x y) → r.columns.InReach e.width ∧ r.rows.InReach e.height) := by
  simp only [clipsExactly_iff_keeps, keeps_iff hw hh, meets_iff]
  constructor
  · rintro h ⟨x, y, hx, hy⟩
    -- otherwise the texel that far past the start, or the first one of the image, would be lost
    refine ⟨Span.inReach_of_meets hw hx fun x hx => ?_, Span.inReach_of_meets hh hy fun y hy => ?_⟩
    · exact ((h x y).mpr ⟨hx, hy⟩).2.1
    · exact ((h x y).mpr ⟨hx, hy⟩).2.2
  · intro h x y
    refine ⟨fun hkeeps => hkeeps.1, fun hmeets => ⟨hmeets, ?_⟩⟩
    obtain ⟨hcolumns, hrows⟩ := h ⟨x, y, hmeets⟩
    exact ⟨hcolumns.lt hmeets.1, hrows.lt hmeets.2⟩

theorem clipsExactly_iff_overhanging :
    (((1024 : UInt32).toNat : Int) ≤ maxCoordinate ∧
        ((1024 : UInt32).toNat : Int) ≤ maxCoordinate) ∧
      (∃ x y, Meets ⟨⟨-16, 4294967295⟩, ⟨512, 2048⟩⟩ ⟨1024, 1024⟩ x y) ∧
        ClipsExactly ⟨⟨-16, 4294967295⟩, ⟨512, 2048⟩⟩ ⟨1024, 1024⟩ := by
  have hw : ((1024 : UInt32).toNat : Int) ≤ maxCoordinate := by decide
  refine ⟨⟨hw, hw⟩, ⟨0, 512, ?_⟩, (clipsExactly_iff hw hw).mpr fun _ => ⟨?_, ?_⟩⟩
  · unfold Meets Reaches Span.Reaches
    decide
  · unfold Span.InReach
    decide
  · unfold Span.InReach
    decide

/-- A rectangle that begins as far left and as far up as can be, and is as large as can be. -/
def everywhere : Rect := ⟨⟨-2147483648, 4294967295⟩, ⟨-2147483648, 4294967295⟩⟩

/-- Nothing is left of the largest rectangle on a small image, although it reaches every texel. -/
theorem everywhere_not_clipsExactly :
    everywhere.clip? ⟨64, 64⟩ = none ∧ everywhere.Fills ⟨64, 64⟩ ∧
      ¬ everywhere.ClipsExactly ⟨64, 64⟩ := by
  have hclip : everywhere.clip? ⟨64, 64⟩ = none := by decide
  have hmeets : everywhere.Meets ⟨64, 64⟩ 0 0 := by
    unfold Meets Reaches Span.Reaches
    decide
  have hfills : everywhere.Fills ⟨64, 64⟩ := by
    intro x y hx hx' hy hy'
    have hstart : everywhere.columns.start.toInt = -2147483648 := by decide
    have hlength : (everywhere.columns.length.toNat : Int) = 4294967295 := by decide
    have hrows : everywhere.rows = everywhere.columns := rfl
    have hsize : ((64 : UInt32).toNat : Int) = 64 := by decide
    simp only [hsize] at hx' hy'
    unfold Reaches Span.Reaches
    rw [hrows, hstart, hlength]
    omega
  exact ⟨hclip, hfills, fun h => h.none_iff.mp hclip 0 0 hmeets⟩

end Rect

end DepthStencil
