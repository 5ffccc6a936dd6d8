import DepthStencil.Rect

/-! # Texels reached by rectangles

What a rectangle reaches is said in unbounded coordinates (`Rect.Reaches`).  Cutting a rectangle to
an image keeps no texel that was not there before (`Rect.reaches_of_clip?`), although lengths and
sizes beyond the greatest coordinate are cut as well.  A rectangle that is found to cover an image
therefore reaches every texel of it (`Rect.fills_of_covers`). -/

namespace DepthStencil

namespace Span

/-- Whether a coordinate lies in the span. -/
def Reaches (s : Span) (x : Int) : Prop :=
  s.start.toInt ≤ x ∧ x < s.start.toInt + (s.length.toNat : Int)

theorem first_nonneg (s : Span) : 0 ≤ s.first := by
  unfold first; omega

theorem first_lt (s : Span) : s.first < 2147483648 := by
  have h := s.start.toInt_lt
  unfold first; omega

theorem past_le (s : Span) (size : UInt32) : s.past size ≤ maxCoordinate := by
  unfold past; omega

theorem past_le_end (s : Span) (size : UInt32) :
    s.past size ≤ s.start.toInt + (s.length.toNat : Int) := by
  unfold past; omega

/-- The ends of a clipped span are numbers of the machine without being cut again. -/
theorem ends_of_clip? {s s' : Span} {size : UInt32} (h : s.clip? size = some s') :
    s'.start.toInt = s.first ∧ s'.start.toInt + (s'.length.toNat : Int) = s.past size := by
  unfold clip? at h
  split at h
  · exact absurd h (by simp)
  · rename_i hlt
    rw [Option.some_inj] at h
    subst h
    have hfirst := s.first_nonneg
    have hpast := s.past_le size
    unfold maxCoordinate at hpast
    have hstart : (Int32.ofInt s.first).toInt = s.first :=
      Int32.toInt_ofInt_of_le (by omega) s.first_lt
    have hlength : (UInt32.ofNat (s.past size - s.first).toNat).toNat =
        (s.past size - s.first).toNat := UInt32.toNat_ofNat_of_lt' (by rw [UInt32.size]; omega)
    refine ⟨hstart, ?_⟩
    simp only [hstart, hlength]
    omega

/-- Clipping keeps no coordinate that was not in the span before. -/
theorem reaches_of_clip? {s s' : Span} {size : UInt32} (h : s.clip? size = some s') {x : Int}
    (hx : s'.Reaches x) : s.Reaches x := by
  obtain ⟨hstart, hend⟩ := ends_of_clip? h
  have hfirst : s.start.toInt ≤ s.first := by unfold first; omega
  have hpast := s.past_le_end size
  unfold Reaches at hx ⊢
  omega

theorem reaches_whole {size : UInt32} {x : Int} :
    (whole size).Reaches x ↔ 0 ≤ x ∧ x < (size.toNat : Int) := by
  have hzero : (whole size).start.toInt = 0 := rfl
  unfold Reaches
  rw [hzero, Int.zero_add]
  rfl

end Span

namespace Rect

/-- Whether a texel lies in the rectangle. -/
def Reaches (r : Rect) (x y : Int) : Prop := r.columns.Reaches x ∧ r.rows.Reaches y

/-- Whether the rectangle reaches every texel of an image. -/
def Fills (r : Rect) (e : Extent) : Prop :=
  ∀ x y : Int, 0 ≤ x → x < (e.width.toNat : Int) → 0 ≤ y → y < (e.height.toNat : Int) →
    r.Reaches x y

theorem reaches_of_clip? {r r' : Rect} {e : Extent} (h : r.clip? e = some r') {x y : Int}
    (hxy : r'.Reaches x y) : r.Reaches x y := by
  unfold clip? at h
  split at h
  · rename_i columns rows hcolumns hrows
    rw [Option.some_inj] at h
    subst h
    exact ⟨Span.reaches_of_clip? hcolumns hxy.1, Span.reaches_of_clip? hrows hxy.2⟩
  · exact absurd h (by simp)

theorem Fills.of_clip? {r r' : Rect} {e : Extent} (hr : r'.Fills e) (h : r.clip? e = some r') :
    r.Fills e :=
  fun x y hx hx' hy hy' => reaches_of_clip? h (hr x y hx hx' hy hy')

theorem fills_whole (e : Extent) : (whole e).Fills e :=
  fun _ _ hx hx' hy hy' => ⟨Span.reaches_whole.mpr ⟨hx, hx'⟩, Span.reaches_whole.mpr ⟨hy, hy'⟩⟩

/-- A rectangle that is found to cover an image does. -/
theorem fills_of_covers {r : Rect} {e : Extent} (h : r.covers e = true) : r.Fills e :=
  (fills_whole e).of_clip? (of_decide_eq_true h)

/-- Whether a clear within a rectangle reaches every texel of an image, if it reaches any. -/
def coverage? (e : Extent) : Option Rect → Option Bool
  | none => some true
  | some r => (r.clip? e).map fun clipped => clipped.covers e

end Rect

end DepthStencil
