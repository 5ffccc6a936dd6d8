import DepthStencil.Proofs.Masks

/-! # Which reads a change of layout waits for

To wait for a graphics stage is to wait for the stages before it as well, so a mask of stages covers
another one if it ends no earlier in the pipeline and has all of the stages outside the order
(`Stage.Covers`).  A history keeps one mask for all reads since the last write.  Of two reads it
keeps the one that begins earlier, which need not be the one that ends later.

What is left of several reads is told from the first one that begins earliest (`Stage.Leads`).  It
puts aside the reads in graphics stages, and those before it altogether unless none of them was in a
graphics stage (`Stage.foldl_earlier_of_leads`).  A change of layout therefore waits for all reads
exactly if the leading one suffices (`Stage.LeaderSuffices`, `History.covers_reads_iff`). -/

namespace DepthStencil

namespace Stage

/-! ### Covering -/

/-- The graphics stages as one mask. -/
def graphics : Mask := order.foldl (· ||| ·) 0

/-- The stages of a mask outside the graphics pipeline. -/
def others (stages : Mask) : Mask := stages &&& ~~~graphics

/-- Whether the graphics stages of a mask come no later than the last one of `m`. -/
def EndsBy (m stages : Mask) : Prop :=
  ∀ s ∈ order, stages.contains s = true →
    ∃ t ∈ order, order.idxOf s ≤ order.idxOf t ∧ m.contains t = true

instance (m stages : Mask) : Decidable (EndsBy m stages) :=
  List.decidableBAll (fun s => stages.contains s = true →
    ∃ t ∈ order, order.idxOf s ≤ order.idxOf t ∧ m.contains t = true) order

/-- Whether to wait for `m` is to wait for all of the stages. -/
def Covers (m stages : Mask) : Prop := EndsBy m stages ∧ m.contains (others stages) = true

instance (m stages : Mask) : Decidable (Covers m stages) :=
  inferInstanceAs (Decidable (EndsBy m stages ∧ m.contains (others stages) = true))

theorem contains_or_of_mem_order {s : Mask} (hs : s ∈ order) (m n : Mask) :
    Mask.contains (m ||| n) s = true ↔ m.contains s = true ∨ n.contains s = true := by
  simp only [order, List.mem_cons, List.not_mem_nil, or_false] at hs
  rcases hs with rfl | rfl | rfl | rfl | rfl | rfl | rfl
  · exact Mask.contains_bit_or (k := 3) (by decide) (by decide) m n
  · exact Mask.contains_bit_or (k := 4) (by decide) (by decide) m n
  · exact Mask.contains_bit_or (k := 5) (by decide) (by decide) m n
  · exact Mask.contains_bit_or (k := 6) (by decide) (by decide) m n
  · exact Mask.contains_bit_or (k := 8) (by decide) (by decide) m n
  · exact Mask.contains_bit_or (k := 7) (by decide) (by decide) m n
  · exact Mask.contains_bit_or (k := 9) (by decide) (by decide) m n

theorem endsBy_congr {m n : Mask} (h : ∀ s ∈ order, m.contains s = n.contains s) (stages : Mask) :
    EndsBy m stages ↔ EndsBy n stages := by
  unfold EndsBy
  refine forall_congr' fun s => forall_congr' fun _ => forall_congr' fun _ => exists_congr fun t =>
    and_congr_right fun ht => and_congr_right fun _ => ?_
  rw [h t ht]

theorem covers_of_contains {m n : Mask} (h : m.contains n = true) : Covers m n := by
  rw [Mask.contains_iff] at h
  constructor
  · intro s hs hn
    rw [Mask.contains_iff] at hn
    exact ⟨s, hs, Nat.le_refl _, Mask.contains_iff.mpr fun i hi => h i (hn i hi)⟩
  · rw [Mask.contains_iff]
    intro i hi
    rw [others, UInt64.toBitVec_and, BitVec.getLsbD_and, Bool.and_eq_true] at hi
    exact h i hi.1

theorem covers_zero (m : Mask) : Covers m 0 := covers_of_contains (by simp [Mask.contains])

/-! ### Where masks begin -/

variable {m n : Mask} {ms : List Mask} {i j : Nat}

theorem first?_eq_none : first? m = none ↔ ∀ s ∈ order, m.contains s = false := by
  rw [first?, List.findIdx?_eq_none_iff]

theorem first?_zero : first? 0 = none := by decide

theorem first?_congr (h : ∀ s ∈ order, m.contains s = n.contains s) : first? m = first? n := by
  have hmap : order.map m.contains = order.map n.contains := List.map_congr_left h
  have hids := congrArg (List.findIdx? id) hmap
  rw [List.findIdx?_map, List.findIdx?_map] at hids
  exact hids

theorem first?_or (h : first? n = none) (m : Mask) : first? (m ||| n) = first? m := by
  refine first?_congr fun s hs => ?_
  rw [Bool.eq_iff_iff, contains_or_of_mem_order hs, first?_eq_none.mp h s hs]
  simp

/-! ### The earlier of two masks -/

theorem earlier_of_none_right (h : first? n = none) (m : Mask) : earlier m n = m ||| n := by
  unfold earlier compare?
  by_cases hmn : m = n
  · rw [if_pos hmn, hmn, UInt64.or_self]
  · rw [if_neg hmn, h]
    cases first? m <;> rfl

theorem earlier_of_none_left (h : first? m = none) (n : Mask) : earlier m n = m ||| n := by
  unfold earlier compare?
  by_cases hmn : m = n
  · rw [if_pos hmn, hmn, UInt64.or_self]
  · rw [if_neg hmn, h]

theorem earlier_of_le (hm : first? m = some i) (hn : first? n = some j) (h : i ≤ j) :
    earlier m n = m := by
  unfold earlier compare?
  by_cases hmn : m = n
  · rw [if_pos hmn]
  · rw [if_neg hmn, hm, hn]
    rcases Nat.lt_or_eq_of_le h with hlt | heq
    · simp [Nat.compare_eq_lt.mpr hlt]
    · simp [heq]

theorem earlier_of_lt (hm : first? m = some i) (hn : first? n = some j) (h : j < i) :
    earlier m n = n := by
  have hmn : m ≠ n := by
    rintro rfl
    rw [hm, Option.some_inj] at hn
    omega
  unfold earlier compare?
  rw [if_neg hmn, hm, hn]
  simp [Nat.compare_eq_gt.mpr h]

/-- What is kept of two masks begins where one of them does, if either begins at all. -/
theorem first?_earlier (m n : Mask) :
    (first? (earlier m n) = first? m ∨ first? (earlier m n) = first? n) ∧
      (first? (earlier m n) = none → first? m = none ∧ first? n = none) := by
  cases hm : first? m with
  | none =>
      rw [earlier_of_none_left hm, UInt64.or_comm, first?_or hm]
      exact ⟨.inr rfl, fun h => ⟨rfl, h⟩⟩
  | some i =>
      cases hn : first? n with
      | none =>
          rw [earlier_of_none_right hn, first?_or hn, hm]
          exact ⟨.inl rfl, fun h => ⟨h, rfl⟩⟩
      | some j =>
          rcases Nat.lt_or_ge j i with h | h
          · rw [earlier_of_lt hm hn h, hn]
            exact ⟨.inr rfl, fun h => absurd h (by simp)⟩
          · rw [earlier_of_le hm hn h, hm]
            exact ⟨.inl rfl, fun h => absurd h (by simp)⟩

/-! ### Unions -/

/-- The union of some masks. -/
def union (ms : List Mask) : Mask := ms.foldl (· ||| ·) 0

theorem contains_foldl_or (h : m.contains n = true) (ms : List Mask) :
    (ms.foldl (· ||| ·) m).contains n = true := by
  induction ms generalizing m with
  | nil => exact h
  | cons k ms ih => exact ih (Mask.contains_or_left k h)

theorem contains_union (h : m ∈ ms) : (union ms).contains m = true := by
  obtain ⟨before, after, rfl⟩ := List.append_of_mem h
  rw [union, List.foldl_append, List.foldl_cons]
  exact contains_foldl_or (Mask.contains_or_right _ (Mask.contains_refl m)) after

theorem contains_foldl_or_of_mem_order {s : Mask} (hs : s ∈ order)
    (h : ∀ k ∈ ms, first? k = none) (m : Mask) :
    (ms.foldl (· ||| ·) m).contains s = m.contains s := by
  induction ms generalizing m with
  | nil => rfl
  | cons k ms ih =>
      rw [List.forall_mem_cons] at h
      rw [List.foldl_cons, ih h.2, Bool.eq_iff_iff, contains_or_of_mem_order hs,
        first?_eq_none.mp h.1 s hs]
      simp

/-! ### What is left of several masks -/

theorem foldl_earlier_of_none (h : ∀ k ∈ ms, first? k = none) (m : Mask) :
    ms.foldl earlier m = ms.foldl (· ||| ·) m := by
  induction ms generalizing m with
  | nil => rfl
  | cons k ms ih =>
      rw [List.forall_mem_cons] at h
      rw [List.foldl_cons, List.foldl_cons, earlier_of_none_right h.1, ih h.2]

/-- After a mask none of the others begins before, those without graphics stages are kept. -/
theorem foldl_earlier_of_le (hm : first? m = some i)
    (h : ∀ k ∈ ms, ∀ j, first? k = some j → i ≤ j) :
    ms.foldl earlier m = (ms.filter fun k => (first? k).isNone).foldl (· ||| ·) m := by
  induction ms generalizing m with
  | nil => rfl
  | cons k ms ih =>
      rw [List.forall_mem_cons] at h
      rw [List.foldl_cons]
      cases hk : first? k with
      | none =>
          rw [earlier_of_none_right hk, ih ((first?_or hk m).trans hm) h.2,
            List.filter_cons_of_pos (by rw [hk]; rfl), List.foldl_cons]
      | some j =>
          rw [earlier_of_le hm hk (h.1 j hk), ih hm h.2,
            List.filter_cons_of_neg (by rw [hk]; simp)]

theorem first?_foldl_earlier (hm : ∀ j, first? m = some j → i < j)
    (h : ∀ k ∈ ms, ∀ j, first? k = some j → i < j) :
    ∀ j, first? (ms.foldl earlier m) = some j → i < j := by
  induction ms generalizing m with
  | nil => exact hm
  | cons k ms ih =>
      rw [List.forall_mem_cons] at h
      refine ih (fun j hj => ?_) h.2
      rcases (first?_earlier m k).1 with hfirst | hfirst
      · exact hm j (hfirst ▸ hj)
      · exact h.1 j (hfirst ▸ hj)

theorem first?_foldl_earlier_eq_none (h : first? (ms.foldl earlier m) = none) :
    first? m = none ∧ ∀ k ∈ ms, first? k = none := by
  induction ms generalizing m with
  | nil => exact ⟨h, by simp⟩
  | cons k ms ih =>
      obtain ⟨hearlier, hms⟩ := ih h
      obtain ⟨hm, hk⟩ := (first?_earlier m k).2 hearlier
      exact ⟨hm, List.forall_mem_cons.mpr ⟨hk, hms⟩⟩

/-- Whether a mask is the first one that begins earliest, namely at place `i`, among the masks
before and after it. -/
structure Leads (i : Nat) (before : List Mask) (leader : Mask) (after : List Mask) : Prop where
  first : first? leader = some i
  before : ∀ k ∈ before, ∀ j, first? k = some j → i < j
  after : ∀ k ∈ after, ∀ j, first? k = some j → i ≤ j

/-- The masks that are kept besides the leading one have no graphics stages.  Those before it are
kept only if there is no graphics stage among them at all. -/
def kept (before : List Mask) (leader : Mask) (after : List Mask) : List Mask :=
  (if before.all fun k => (first? k).isNone then before else []) ++
    leader :: after.filter fun k => (first? k).isNone

variable {before after : List Mask} {leader : Mask}

theorem foldl_earlier_of_leads (h : Leads i before leader after) :
    (before ++ leader :: after).foldl earlier 0 = union (kept before leader after) := by
  rw [List.foldl_append, List.foldl_cons, union, kept, List.foldl_append, List.foldl_cons]
  by_cases hbefore : ∀ k ∈ before, first? k = none
  · have hall : (before.all fun k => (first? k).isNone) = true := by simpa using hbefore
    have hfirst : first? (before.foldl (· ||| ·) 0) = none :=
      first?_eq_none.mpr fun s hs =>
        (contains_foldl_or_of_mem_order hs hbefore 0).trans (first?_eq_none.mp first?_zero s hs)
    rw [if_pos hall, foldl_earlier_of_none hbefore, earlier_of_none_left hfirst]
    refine foldl_earlier_of_le ?_ h.after
    rw [UInt64.or_comm, first?_or hfirst, h.first]
  · -- a mask before the leading one has graphics stages, so all of them are put aside
    have hsome : (before.all fun k => (first? k).isNone) ≠ true := by simpa using hbefore
    rw [if_neg hsome, List.foldl_nil, UInt64.zero_or]
    cases hfirst : first? (before.foldl earlier 0) with
    | none => exact absurd (first?_foldl_earlier_eq_none hfirst).2 hbefore
    | some j =>
        have hzero : ∀ j, first? 0 = some j → i < j := by simp [first?_zero]
        rw [earlier_of_lt hfirst h.first (first?_foldl_earlier hzero h.before j hfirst)]
        exact foldl_earlier_of_le h.first h.after

/-- Some mask leads unless none has graphics stages.  A mask in front of others leads if it begins
no later than the one that led so far. -/
theorem exists_leads (ms : List Mask) : (∀ k ∈ ms, first? k = none) ∨
    ∃ i before leader after, ms = before ++ leader :: after ∧ Leads i before leader after := by
  induction ms with
  | nil => exact .inl (by simp)
  | cons m ms ih =>
      rcases ih with hnone | ⟨i, before, leader, after, rfl, hleads⟩
      · cases hm : first? m with
        | none => exact .inl (List.forall_mem_cons.mpr ⟨hm, hnone⟩)
        | some i =>
            refine .inr ⟨i, [], m, ms, rfl, hm, by simp, fun k hk j hj => ?_⟩
            rw [hnone k hk] at hj
            exact absurd hj (by simp)
      · by_cases hstays : ∀ j, first? m = some j → i < j
        · exact .inr ⟨i, m :: before, leader, after, rfl, hleads.first,
            List.forall_mem_cons.mpr ⟨hstays, hleads.before⟩, hleads.after⟩
        · obtain ⟨j, hm, hji⟩ : ∃ j, first? m = some j ∧ j ≤ i := by simpa using hstays
          refine .inr ⟨j, [], m, before ++ leader :: after, rfl, hm, by simp, fun k hk j' hj' => ?_⟩
          rcases List.mem_append.mp hk with hk | hk
          · have hlt := hleads.before k hk j' hj'
            omega
          · rcases List.mem_cons.mp hk with rfl | hk
            · rw [hleads.first, Option.some_inj] at hj'
              omega
            · have hle := hleads.after k hk j' hj'
              omega

theorem eq_zero_of_foldl_earlier {ms : List Mask} (h : ms.foldl earlier 0 = 0) (hm : m ∈ ms) :
    m = 0 := by
  have hnone : ∀ k ∈ ms, first? k = none :=
    (first?_foldl_earlier_eq_none (by rw [h, first?_zero])).2
  have hcontains := contains_union hm
  rw [union, ← foldl_earlier_of_none hnone, h] at hcontains
  have hzero : 0 = m := by simpa [Mask.contains] using hcontains
  exact hzero.symm

/-- Whether the leading one of some masks, if there is one, ends no earlier than the others, and no
stage outside the graphics pipeline is put aside. -/
def LeaderSuffices (ms : List Mask) : Prop :=
  ∀ i before leader after, ms = before ++ leader :: after → Leads i before leader after →
    ∀ m ∈ ms, EndsBy leader m ∧ (union (kept before leader after)).contains (others m) = true

/-- The graphics stages that are kept are those of the leading mask. -/
theorem contains_kept {s : Mask} (hs : s ∈ order) :
    (union (kept before leader after)).contains s = leader.contains s := by
  have hafter : ∀ k ∈ after.filter fun k => (first? k).isNone, first? k = none := by
    intro k hk
    simpa using (List.mem_filter.mp hk).2
  have hbefore : ∀ k ∈ if before.all fun k => (first? k).isNone then before else [],
      first? k = none := by
    split
    · rename_i hall
      simpa using hall
    · simp
  rw [union, kept, List.foldl_append, List.foldl_cons, contains_foldl_or_of_mem_order hs hafter,
    Bool.eq_iff_iff, contains_or_of_mem_order hs, contains_foldl_or_of_mem_order hs hbefore,
    first?_eq_none.mp first?_zero s hs]
  simp

/-- What is left of some masks covers all of them exactly if the leading one suffices. -/
theorem covers_foldl_earlier_iff {ms : List Mask} :
    (∀ m ∈ ms, Covers (ms.foldl earlier 0) m) ↔ LeaderSuffices ms := by
  have hleft : ∀ {i before leader after}, ms = before ++ leader :: after →
      Leads i before leader after →
        ((∀ m ∈ ms, Covers (ms.foldl earlier 0) m) ↔ ∀ m ∈ ms, EndsBy leader m ∧
          (union (kept before leader after)).contains (others m) = true) := by
    intro i before leader after hms hleads
    have hfold : ms.foldl earlier 0 = union (kept before leader after) := by
      rw [hms, foldl_earlier_of_leads hleads]
    refine forall_congr' fun m => forall_congr' fun _ => ?_
    rw [Covers, hfold, endsBy_congr fun s hs => contains_kept hs]
  constructor
  · intro h i before leader after hms hleads
    exact (hleft hms hleads).mp h
  · intro h
    rcases exists_leads ms with hnone | ⟨i, before, leader, after, hms, hleads⟩
    · intro m hm
      rw [foldl_earlier_of_none hnone]
      exact covers_of_contains (contains_union hm)
    · exact (hleft hms hleads).mpr (h i before leader after hms hleads)

end Stage

/-! ### Histories of their own -/

namespace History

/-- What is put on record of an aspect. -/
inductive Entry where
  /-- An access that needs no barrier. -/
  | record (next : Access)
  /-- An access behind a barrier, which changes the layout if `moves`. -/
  | barrier (next : Access) (moves : Bool)
deriving DecidableEq, Repr

/-- The history after one more entry. -/
def enter (h : History) : Entry → History
  | .record next => h.record next
  | .barrier next moves => h.advance next moves

/-- The history after some entries. -/
def after (h : History) (entries : List Entry) : History := entries.foldl enter h

/-- The reads since the last write or change of layout, after one more access.  A write ends the
account of the reads before it, and no access at all leaves it alone. -/
def readsWith (reads : List Access) (next : Access) : List Access :=
  if next = .none then reads else if next.isReadOnly then reads ++ [next] else []

/-- The reads since the last write or change of layout, after one more entry.  The read that a
change of layout leads to comes after it. -/
def Entry.reads (reads : List Access) : Entry → List Access
  | record next => readsWith reads next
  | barrier next moves => readsWith (if moves then [] else reads) next

/-- The reads since the last write or change of layout. -/
def readsSince (entries : List Entry) : List Access := entries.foldl Entry.reads []

/-- A history keeps what is left of the stages of the reads. -/
def Summarizes (h : History) (reads : List Access) : Prop :=
  h.reads = (reads.map Access.stages).foldl Stage.earlier 0

variable {h : History} {reads : List Access}

theorem Summarizes.record (hreads : h.Summarizes reads) (next : Access) :
    (h.record next).Summarizes (readsWith reads next) := by
  unfold Summarizes History.record readsWith at *
  split
  · exact hreads
  · split
    · rw [List.map_append, List.foldl_append, ← hreads]
      rfl
    · rfl

theorem summarizes_afterLayout (next : Access) :
    (afterLayout next).Summarizes (readsWith [] next) := by
  have hzero : Stage.earlier 0 next.stages = next.stages := by
    rw [Stage.earlier_of_none_left Stage.first?_zero, UInt64.zero_or]
  unfold Summarizes afterLayout readsWith
  by_cases hnone : next = .none
  · rw [if_pos hnone, hnone]
    rfl
  · rw [if_neg hnone]
    cases next.isReadOnly with
    | true => exact hzero.symm
    | false => rfl

theorem Summarizes.enter (hreads : h.Summarizes reads) (entry : Entry) :
    (h.enter entry).Summarizes (entry.reads reads) := by
  cases entry with
  | record next => exact hreads.record next
  | barrier next moves =>
      cases moves with
      | false => exact hreads.record next
      | true => exact summarizes_afterLayout next

theorem Summarizes.after (hreads : h.Summarizes reads) (entries : List Entry) :
    (h.after entries).Summarizes (entries.foldl Entry.reads reads) := by
  induction entries generalizing h reads with
  | nil => exact hreads
  | cons entry entries ih => exact ih (hreads.enter entry)

/-- A change of layout waits for all reads since the last write or change of layout exactly if the
one of them that begins earliest suffices. -/
theorem covers_reads_iff (entries : List Entry) (next : Access) :
    (∀ a ∈ readsSince entries,
        Stage.Covers ((empty.after entries).barrier next true).src.stages a.stages) ↔
      Stage.LeaderSuffices ((readsSince entries).map Access.stages) := by
  have hempty : empty.Summarizes [] := rfl
  have hreads : (empty.after entries).Summarizes (readsSince entries) := hempty.after entries
  have hsrc : ((empty.after entries).barrier next true).src = (empty.after entries).owed := rfl
  rw [hsrc, ← Stage.covers_foldl_earlier_iff, List.forall_mem_map, ← hreads]
  refine forall_congr' fun a => forall_congr' fun ha => ?_
  unfold owed
  split
  · -- nothing is on record of the reads, so they were made in no stage
    rename_i hzero
    have hstages : a.stages = 0 := Stage.eq_zero_of_foldl_earlier (hreads.symm.trans hzero)
      (List.mem_map_of_mem ha)
    rw [hstages]
    exact iff_of_true (Stage.covers_zero _) (Stage.covers_zero _)
  · rfl

/-- An image that is sampled in the vertex shader and then in the fragment shader. -/
def sampledTwice : List Entry :=
  [.record ⟨Stage.vertexShader, AccessKind.sampledRead⟩,
    .record ⟨Stage.fragmentShader, AccessKind.sampledRead⟩]

/-- A write behind a change of layout does not wait for the fragment shader. -/
theorem sampledTwice_not_covered : ∃ a ∈ readsSince sampledTwice,
    ¬ Stage.Covers ((empty.after sampledTwice).barrier .write true).src.stages a.stages :=
  ⟨⟨Stage.fragmentShader, AccessKind.sampledRead⟩, by decide, by decide⟩

end History

end DepthStencil
