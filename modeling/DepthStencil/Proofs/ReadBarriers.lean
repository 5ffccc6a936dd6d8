import DepthStencil.Proofs.ReadStages

/-! # Barriers between reads

A read in the present layout waits for the last write if it is the first one since.  After that it
needs a barrier only if it begins earlier in the pipeline than every read before it, since all that
comes later already waits for the one that begins earliest (`History.read_cases`).  What is kept of
the reads is the first one that begins earliest (`History.exists_leader`).

Each barrier therefore moves the beginning of the reads to an earlier stage, and there are only so
many stages (`History.count_readBarriers_le`). -/

namespace DepthStencil

namespace Stage

/-! ### Where masks begin -/

/-- Whether a mask begins earlier in the pipeline than another one. -/
def BeginsBefore (m n : Mask) : Prop :=
  ∃ s ∈ order, m.contains s = true ∧
    ∀ t ∈ order, n.contains t = true → order.idxOf s < order.idxOf t

/-- The place where a mask begins, and past all places if it has no graphics stage. -/
def start (m : Mask) : Nat := (first? m).getD order.length

variable {m n : Mask} {i j : Nat}

theorem exists_first? (h : ∃ s ∈ order, m.contains s = true) : ∃ i, first? m = some i := by
  cases hm : first? m with
  | some i => exact ⟨i, rfl⟩
  | none =>
      obtain ⟨s, hs, hcontains⟩ := h
      rw [first?_eq_none.mp hm s hs] at hcontains
      exact absurd hcontains (by simp)

theorem stage_of_first? (h : first? m = some i) :
    (∃ s ∈ order, m.contains s = true ∧ order.idxOf s = i) ∧
      ∀ s ∈ order, m.contains s = true → i ≤ order.idxOf s := by
  obtain ⟨hlt, hcontains, hfirst⟩ := List.findIdx?_eq_some_iff_getElem.mp h
  have hnodup : order.Nodup := by decide
  refine ⟨⟨order[i], List.getElem_mem hlt, hcontains, hnodup.idxOf_getElem i hlt⟩, ?_⟩
  intro s hs hs'
  refine Nat.le_of_not_lt fun hlt' => ?_
  have hidx : order.idxOf s < order.length := List.idxOf_lt_length_of_mem hs
  have hnot := hfirst (order.idxOf s) hlt'
  rw [List.getElem_idxOf hidx, hs'] at hnot
  exact absurd rfl hnot

theorem first?_lt (h : first? m = some i) : i < order.length :=
  (List.findIdx?_eq_some_iff_getElem.mp h).1

theorem beginsBefore_iff (hm : first? m = some i) (hn : first? n = some j) :
    BeginsBefore m n ↔ i < j := by
  obtain ⟨⟨s, hs, hcontains, hi⟩, hfirst⟩ := stage_of_first? hm
  obtain ⟨⟨t, ht, hcontains', hj⟩, hfirst'⟩ := stage_of_first? hn
  constructor
  · rintro ⟨s', hs', hm', hbefore⟩
    have hle := hfirst s' hs' hm'
    have hlt := hbefore t ht hcontains'
    omega
  · intro hlt
    refine ⟨s, hs, hcontains, fun t' ht' hn' => ?_⟩
    have hle := hfirst' t' ht' hn'
    omega

theorem ne_zero_of_first? (h : first? m = some i) : m ≠ 0 := by
  rintro rfl
  rw [first?_zero] at h
  exact absurd h (by simp)

theorem compare?_of_lt (hm : first? m = some i) (hn : first? n = some j) (h : j < i) :
    compare? m n = some .gt := by
  have hmn : m ≠ n := by
    rintro rfl
    rw [hm, Option.some_inj] at hn
    omega
  rw [compare?, if_neg hmn, hm, hn]
  exact congrArg some (Nat.compare_eq_gt.mpr h)

theorem compare?_of_le (hm : first? m = some i) (hn : first? n = some j) (h : i ≤ j) :
    compare? m n = some .eq ∨ compare? m n = some .lt := by
  unfold compare?
  split
  · exact .inl rfl
  · rw [hm, hn]
    rcases Nat.lt_or_eq_of_le h with hlt | heq
    · exact .inr (congrArg some (Nat.compare_eq_lt.mpr hlt))
    · exact .inl (congrArg some (Nat.compare_eq_eq.mpr heq))

/-- If all masks have graphics stages, nothing but the leading one is left of them. -/
theorem foldl_earlier_eq_leader {before after : List Mask} {leader : Mask}
    (h : Leads i before leader after) (hbefore : ∀ k ∈ before, ∃ j, first? k = some j)
    (hafter : ∀ k ∈ after, ∃ j, first? k = some j) :
    (before ++ leader :: after).foldl earlier 0 = leader := by
  have hfilter : (after.filter fun k => (first? k).isNone) = [] := by
    rw [List.filter_eq_nil_iff]
    intro k hk
    obtain ⟨j, hj⟩ := hafter k hk
    simp [hj]
  have hnone : (if before.all fun k => (first? k).isNone then before else []) = [] := by
    cases before with
    | nil => rfl
    | cons k before =>
        obtain ⟨j, hj⟩ := hbefore k List.mem_cons_self
        simp [hj]
  rw [foldl_earlier_of_leads h, kept, hfilter, hnone]
  exact UInt64.zero_or

end Stage

/-! ### Reads in the present layout -/

/-- Whether an access only reads, and does so at some graphics stage. -/
def Access.ReadsInPipeline (r : Access) : Prop :=
  r.isReadOnly = true ∧ ∃ s ∈ Stage.order, r.stages.contains s = true

instance (r : Access) : Decidable r.ReadsInPipeline :=
  inferInstanceAs (Decidable (r.isReadOnly = true ∧ ∃ s ∈ Stage.order, r.stages.contains s = true))

namespace History

/-- The entries of reads that leave the layout alone. -/
def reading (rs : List Access) : List Entry := rs.map fun r => .barrier r false

/-- The barriers that reads in the present layout ask for, one after another. -/
def readBarriers (h : History) : List Access → List Dependency
  | [] => []
  | r :: rs => h.barrier r false :: (h.advance r false).readBarriers rs

variable {h : History} {r : Access} {rs before later : List Access} {j : Nat}

theorem ne_none_of_isReadOnly (hr : r.isReadOnly = true) : r ≠ .none := by
  rintro rfl
  exact absurd hr (by decide)

theorem advance_read (hr : r.isReadOnly = true) :
    h.advance r false = { h with reads := Stage.earlier h.reads r.stages } := by
  rw [advance, if_neg (by simp), record, if_neg (ne_none_of_isReadOnly hr), if_pos hr]

theorem barrier_read (hwrite : h.write ≠ .none) (hr : r.isReadOnly = true) :
    h.barrier r false = match Stage.compare? h.reads r.stages with
      | some .gt => .execution h.reads r.stages
      | some .eq | some .lt => .empty
      | none => ⟨h.write, r⟩ := by
  have hne : h ≠ empty := by
    rintro rfl
    exact hwrite rfl
  have haccess : h.barrier r false = h.accessBarrier r := if_neg (by simp)
  rcases hcompare : Stage.compare? h.reads r.stages with _ | _ | _ | _ <;>
    simp only [haccess, accessBarrier, if_neg hne, if_pos hr, hcompare]

/-- The first read since the last write waits for it.  A read after others waits for them if it
begins earlier, and otherwise needs no barrier and leaves no trace. -/
theorem read_cases (hwrite : h.write ≠ .none)
    (hreads : h.reads = 0 ∨ ∃ i, Stage.first? h.reads = some i) (hr : r.isReadOnly = true)
    (hj : Stage.first? r.stages = some j) :
    (h.reads = 0 ∧ h.barrier r false = ⟨h.write, r⟩ ∧
        h.advance r false = ⟨h.write, r.stages⟩) ∨
      (∃ i, Stage.first? h.reads = some i ∧ j < i ∧
        h.barrier r false = .execution h.reads r.stages ∧
          h.advance r false = ⟨h.write, r.stages⟩) ∨
      (∃ i, Stage.first? h.reads = some i ∧ i ≤ j ∧ h.barrier r false = .empty ∧
        h.advance r false = h) := by
  rw [barrier_read hwrite hr, advance_read hr]
  rcases hreads with hzero | ⟨i, hi⟩
  · have hne : 0 ≠ r.stages := (Stage.ne_zero_of_first? hj).symm
    have hcompare : Stage.compare? 0 r.stages = none := by
      rw [Stage.compare?, if_neg hne, Stage.first?_zero]
    rw [hzero, hcompare, Stage.earlier_of_none_left Stage.first?_zero, UInt64.zero_or]
    exact .inl ⟨rfl, rfl, rfl⟩
  · rcases Nat.lt_or_ge j i with hlt | hle
    · rw [Stage.compare?_of_lt hi hj hlt, Stage.earlier_of_lt hi hj hlt]
      exact .inr (.inl ⟨i, hi, hlt, rfl, rfl⟩)
    · rw [Stage.earlier_of_le hi hj hle]
      refine .inr (.inr ⟨i, hi, hle, ?_, rfl⟩)
      rcases Stage.compare?_of_le hi hj hle with hcompare | hcompare
      · rw [hcompare]
      · rw [hcompare]

/-! ### Runs of reads -/

theorem after_reading_cons (h : History) (r : Access) (rs : List Access) :
    h.after (reading (r :: rs)) = (h.advance r false).after (reading rs) := rfl

theorem readBarriers_append (h : History) (before : List Access) (rs : List Access) :
    h.readBarriers (before ++ rs) =
      h.readBarriers before ++ (h.after (reading before)).readBarriers rs := by
  induction before generalizing h with
  | nil => rfl
  | cons r before ih =>
      rw [List.cons_append, readBarriers, readBarriers, ih, after_reading_cons, List.cons_append]

theorem length_readBarriers (h : History) (rs : List Access) :
    (h.readBarriers rs).length = rs.length := by
  induction rs generalizing h with
  | nil => rfl
  | cons r rs ih => rw [readBarriers, List.length_cons, List.length_cons, ih]

theorem write_after_reading (hrs : ∀ r ∈ rs, r.isReadOnly = true) :
    (h.after (reading rs)).write = h.write := by
  induction rs generalizing h with
  | nil => rfl
  | cons r rs ih =>
      rw [List.forall_mem_cons] at hrs
      rw [after_reading_cons, ih hrs.2, advance_read hrs.1]

theorem foldl_reads_reading (hrs : ∀ r ∈ rs, r.isReadOnly = true) (before : List Access) :
    (reading rs).foldl Entry.reads before = before ++ rs := by
  induction rs generalizing before with
  | nil => exact (List.append_nil before).symm
  | cons r rs ih =>
      rw [List.forall_mem_cons] at hrs
      have hread : (Entry.barrier r false).reads before = before ++ [r] := by
        rw [Entry.reads, if_neg (by simp), readsWith, if_neg (ne_none_of_isReadOnly hrs.1),
          if_pos hrs.1]
      rw [reading, List.map_cons, List.foldl_cons, hread, ← reading, ih hrs.2, List.append_assoc,
        List.singleton_append]

theorem reads_after_reading (hreads : h.reads = 0) (hrs : ∀ r ∈ rs, r.isReadOnly = true) :
    (h.after (reading rs)).reads = (rs.map Access.stages).foldl Stage.earlier 0 := by
  have hnone : h.Summarizes [] := hreads
  have hsummary := hnone.after (reading rs)
  rw [foldl_reads_reading hrs, List.nil_append] at hsummary
  exact hsummary

/-- What is kept of some reads is the first one that begins earliest. -/
theorem exists_leader (hreads : h.reads = 0) (hne : rs ≠ [])
    (hrs : ∀ r ∈ rs, r.ReadsInPipeline) :
    ∃ earlier leader later, rs = earlier ++ leader :: later ∧
      (∀ q ∈ earlier, Stage.BeginsBefore leader.stages q.stages) ∧
      (∀ q ∈ later, ¬ Stage.BeginsBefore q.stages leader.stages) ∧
      (h.after (reading rs)).reads = leader.stages := by
  have hfirst : ∀ r ∈ rs, ∃ j, Stage.first? r.stages = some j :=
    fun r hr => Stage.exists_first? (hrs r hr).2
  rw [reads_after_reading hreads fun r hr => (hrs r hr).1]
  rcases Stage.exists_leads (rs.map Access.stages) with hnone | ⟨i, before, m, after, hms, hleads⟩
  · obtain ⟨r, hr⟩ := List.exists_mem_of_ne_nil rs hne
    obtain ⟨j, hj⟩ := hfirst r hr
    rw [hnone _ (List.mem_map_of_mem hr)] at hj
    exact absurd hj (by simp)
  · obtain ⟨earlier, rest, rfl, rfl, hrest⟩ := List.map_eq_append_iff.mp hms
    obtain ⟨leader, later, rfl, rfl, rfl⟩ := List.map_eq_cons_iff.mp hrest
    rw [List.forall_mem_append, List.forall_mem_cons] at hfirst
    refine ⟨earlier, leader, later, rfl, fun q hq => ?_, fun q hq => ?_, ?_⟩
    · obtain ⟨j, hj⟩ := hfirst.1 q hq
      rw [Stage.beginsBefore_iff hleads.first hj]
      exact hleads.before _ (List.mem_map_of_mem hq) j hj
    · obtain ⟨j, hj⟩ := hfirst.2.2 q hq
      have hle := hleads.after _ (List.mem_map_of_mem hq) j hj
      rw [Stage.beginsBefore_iff hj hleads.first]
      omega
    · rw [hms]
      exact Stage.foldl_earlier_eq_leader hleads (List.forall_mem_map.mpr hfirst.1)
        (List.forall_mem_map.mpr hfirst.2.2)

/-- A read begins before all reads made so far exactly if it begins before what is kept of them. -/
theorem beginsBefore_reads_iff (hreads : h.reads = 0) (hne : rs ≠ [])
    (hrs : ∀ r ∈ rs, r.ReadsInPipeline) (hr : r.ReadsInPipeline) :
    Stage.BeginsBefore r.stages (h.after (reading rs)).reads ↔
      ∀ q ∈ rs, Stage.BeginsBefore r.stages q.stages := by
  obtain ⟨earlier, leader, later, rfl, hearlier, hlater, he⟩ := exists_leader hreads hne hrs
  rw [he]
  obtain ⟨j, hj⟩ := Stage.exists_first? hr.2
  have hfirst : ∀ q ∈ earlier ++ leader :: later, ∃ k, Stage.first? q.stages = some k :=
    fun q hq => Stage.exists_first? (hrs q hq).2
  obtain ⟨i, hi⟩ := hfirst leader (by simp)
  constructor
  · intro hbefore q hq
    obtain ⟨k, hk⟩ := hfirst q hq
    rw [Stage.beginsBefore_iff hj hi] at hbefore
    rw [Stage.beginsBefore_iff hj hk]
    rw [List.mem_append, List.mem_cons] at hq
    rcases hq with hq | rfl | hq
    · have hlt := (Stage.beginsBefore_iff hi hk).mp (hearlier q hq)
      omega
    · rw [hi, Option.some_inj] at hk
      omega
    · have hnot := mt (Stage.beginsBefore_iff hk hi).mpr (hlater q hq)
      omega
  · intro hall
    exact hall leader (by simp)

theorem getElem?_readBarriers (h : History) (before : List Access) (r : Access)
    (later : List Access) : (h.readBarriers (before ++ r :: later))[before.length]? =
      some ((h.after (reading before)).barrier r false) := by
  have hle : (h.readBarriers before).length ≤ before.length :=
    Nat.le_of_eq (length_readBarriers h before)
  rw [readBarriers_append, List.getElem?_append_right hle, length_readBarriers, Nat.sub_self]
  rfl

theorem barrier_first (hwrite : h.write ≠ .none) (hreads : h.reads = 0)
    (hr : r.ReadsInPipeline) : h.barrier r false = ⟨h.write, r⟩ := by
  obtain ⟨j, hj⟩ := Stage.exists_first? hr.2
  rcases read_cases hwrite (.inl hreads) hr.1 hj with ⟨-, he, -⟩ | ⟨i, hi, -⟩ | ⟨i, hi, -⟩
  · exact he
  · exact absurd hreads (Stage.ne_zero_of_first? hi)
  · exact absurd hreads (Stage.ne_zero_of_first? hi)

/-- A later read waits for the reads before it if it begins before all of them, and otherwise for
nothing. -/
theorem barrier_later (hwrite : h.write ≠ .none) (hreads : h.reads = 0) (hne : before ≠ [])
    (hbefore : ∀ q ∈ before, q.ReadsInPipeline) (hr : r.ReadsInPipeline) :
    let now := h.after (reading before)
    (now.barrier r false = .empty ↔ ¬ ∀ q ∈ before, Stage.BeginsBefore r.stages q.stages) ∧
      (now.barrier r false ≠ .empty → now.barrier r false = .execution now.reads r.stages) := by
  intro now
  have hnow : now.write ≠ .none := by
    rw [write_after_reading fun q hq => (hbefore q hq).1]
    exact hwrite
  obtain ⟨_, leader, _, hsplit, -, -, hleader⟩ := exists_leader hreads hne hbefore
  obtain ⟨i, hi⟩ := Stage.exists_first? (hbefore leader (by simp [hsplit])).2
  rw [← hleader] at hi
  obtain ⟨j, hj⟩ := Stage.exists_first? hr.2
  rw [← beginsBefore_reads_iff hreads hne hbefore hr, Stage.beginsBefore_iff hj hi]
  rcases read_cases hnow (.inr ⟨i, hi⟩) hr.1 hj with
    ⟨hzero, -⟩ | ⟨i', hi', hlt, he, -⟩ | ⟨i', hi', hle, he, -⟩
  · exact absurd hzero (Stage.ne_zero_of_first? hi)
  · rw [hi, Option.some_inj] at hi'
    have hsome : Dependency.execution now.reads r.stages ≠ .empty :=
      fun hempty => Stage.ne_zero_of_first? hi (congrArg (fun d => d.src.stages) hempty)
    rw [he]
    exact ⟨iff_of_false hsome (by omega), fun _ => rfl⟩
  · rw [hi, Option.some_inj] at hi'
    rw [he]
    exact ⟨iff_of_true rfl (by omega), fun hne => absurd rfl hne⟩

/-- Every barrier moves the beginning of the reads, so there are no more than stages before it. -/
theorem count_readBarriers_le (hwrite : h.write ≠ .none)
    (hreads : h.reads = 0 ∨ ∃ i, Stage.first? h.reads = some i)
    (hrs : ∀ r ∈ rs, r.ReadsInPipeline) :
    (h.readBarriers rs).countP (fun d => !d.isEmpty) ≤ Stage.start h.reads := by
  induction rs generalizing h with
  | nil => exact Nat.zero_le _
  | cons r rs ih =>
      rw [List.forall_mem_cons] at hrs
      obtain ⟨j, hj⟩ := Stage.exists_first? hrs.1.2
      have hstart : Stage.start r.stages = j := by rw [Stage.start, hj]; rfl
      have hrest := @ih ⟨h.write, r.stages⟩ hwrite (.inr ⟨j, hj⟩) hrs.2
      rw [hstart] at hrest
      have hcount : (h.readBarriers (r :: rs)).countP (fun d => !d.isEmpty) ≤
          ((h.advance r false).readBarriers rs).countP (fun d => !d.isEmpty) + 1 := by
        rw [readBarriers, List.countP_cons]
        split <;> omega
      rcases read_cases hwrite hreads hrs.1.1 hj with
        ⟨hzero, -, he⟩ | ⟨i, hi, hlt, -, he⟩ | ⟨i, hi, -, hempty, he⟩
      · have hlength : Stage.start h.reads = Stage.order.length := by
          rw [Stage.start, hzero, Stage.first?_zero]
          rfl
        have hlt := Stage.first?_lt hj
        rw [he] at hcount
        omega
      · have hi' : Stage.start h.reads = i := by rw [Stage.start, hi]; rfl
        rw [he] at hcount
        omega
      · rw [readBarriers, hempty, he, List.countP_cons_of_neg (by decide)]
        exact ih hwrite hreads hrs.2

/-- Reads after a write wait for no more than they have to.  The first one waits for the write.  A
later one waits for the reads before it if it begins earlier than all of them, and needs no barrier
otherwise.  What is kept of the reads is the first one that begins earliest, and the write stays on
record.  There are at most as many barriers as graphics stages. -/
theorem reads_wait_least (hwrite : h.write ≠ .none) (hreads : h.reads = 0)
    (hrs : ∀ r ∈ rs, r.ReadsInPipeline) :
    (∀ before r later, rs = before ++ r :: later →
      let now := h.after (reading before)
      let next := h.after (reading (before ++ [r]))
      (h.readBarriers rs)[before.length]? = some (now.barrier r false) ∧
      (before = [] → now.barrier r false = ⟨h.write, r⟩) ∧
      (before ≠ [] →
        (now.barrier r false = .empty ↔
          ¬ ∀ q ∈ before, Stage.BeginsBefore r.stages q.stages) ∧
        (now.barrier r false ≠ .empty →
          now.barrier r false = .execution now.reads r.stages)) ∧
      next.write = h.write ∧
      ∃ earlier leader later', before ++ [r] = earlier ++ leader :: later' ∧
        (∀ q ∈ earlier, Stage.BeginsBefore leader.stages q.stages) ∧
        (∀ q ∈ later', ¬ Stage.BeginsBefore q.stages leader.stages) ∧
        next.reads = leader.stages) ∧
    (h.readBarriers rs).countP (fun d => !d.isEmpty) ≤ 7 := by
  refine ⟨?_, ?_⟩
  · rintro before r later rfl
    rw [List.forall_mem_append, List.forall_mem_cons] at hrs
    obtain ⟨hbefore, hr, -⟩ := hrs
    have hseen : ∀ q ∈ before ++ [r], q.ReadsInPipeline := by
      rw [List.forall_mem_append, List.forall_mem_singleton]
      exact ⟨hbefore, hr⟩
    refine ⟨getElem?_readBarriers h before r later, ?_, ?_,
      write_after_reading fun q hq => (hseen q hq).1, exists_leader hreads (by simp) hseen⟩
    · rintro rfl
      exact barrier_first hwrite hreads hr
    · exact fun hne => barrier_later hwrite hreads hne hbefore hr
  · have hstart : Stage.start h.reads = 7 := by rw [hreads]; rfl
    rw [← hstart]
    exact count_readBarriers_le hwrite (.inl hreads) hrs

/-- Reads at scattered stages, the first of them in a compute shader as well. -/
def scatteredReads : List Access :=
  [⟨Stage.fragmentShader ||| 0x800, AccessKind.sampledRead⟩,
    ⟨Stage.lateFragmentTests, AccessKind.depthStencilRead⟩,
    ⟨Stage.vertexShader, AccessKind.sampledRead⟩, .test]

theorem reads_wait_least_scatteredReads :
    let h := ofWrite Access.write.writePart
    let early : Access := ⟨Stage.vertexShader, AccessKind.sampledRead⟩
    let now := h.after (reading (scatteredReads.take 2))
    h.write ≠ .none ∧ h.reads = 0 ∧ (∀ r ∈ scatteredReads, r.ReadsInPipeline) ∧
      (h.readBarriers scatteredReads)[2]? =
        some (.execution (Stage.fragmentShader ||| 0x800) Stage.vertexShader) ∧
      now.barrier early false = .execution now.reads early.stages ∧
      (h.readBarriers scatteredReads).countP (fun d => !d.isEmpty) ≤ 7 := by
  intro h early now
  have hwrite : h.write ≠ .none := by decide
  have hreads : h.reads = 0 := rfl
  have hrs : ∀ r ∈ scatteredReads, r.ReadsInPipeline := by decide
  obtain ⟨hsteps, hcount⟩ := reads_wait_least hwrite hreads hrs
  obtain ⟨hthird, -, hlater, -⟩ := hsteps (scatteredReads.take 2) early [.test] rfl
  have hbarrier := (hlater (by decide)).2 (by decide)
  refine ⟨hwrite, hreads, hrs, ?_, hbarrier, hcount⟩
  rw [show (2 : Nat) = (scatteredReads.take 2).length from rfl, hthird, hbarrier]
  decide

end History

end DepthStencil
