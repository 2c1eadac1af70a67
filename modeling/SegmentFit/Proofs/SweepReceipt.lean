import SegmentFit.Proofs.Sweep

/-!
# Sweep receipts — the answer to a threshold, and what is written beside it

A sweep ends in one of three ways: with a pair of rows (`sweep_eq_pair`), or after all
horizontal segments were counted (`sweep_eq_counted`), with a pair that a column closes or
with nothing. So no sweep is ever refused, and it accepts a threshold iff two disjoint
segments fit (`accepts_iff`).

`SweepReceipt.Exact` spells out what each field of a receipt says about the placements of
a grid, without the sweep: `sweepReceipt_exact` proves it of every receipt.
-/

namespace SegmentFit

namespace Grid

variable {g : Grid} {k : Nat}

/-! ## Sweeps -/

/-- The row phase for segments without cells stops at the first cell. -/
theorem rowPhase_zero (g : Grid) : ∃ first, g.rowPhase 0 = .ok (.pair first 0) := by
  have hcorner : g.EndsAt .rows 0 ⟨⟨0, g.side_pos⟩, ⟨0, g.side_pos⟩⟩ :=
    ⟨Nat.zero_le _, fun c hc => nomatch hc⟩
  cases hlist : g.segmentEnds .rows 0 with
  | nil =>
      have hmem := mem_segmentEnds.mpr hcorner
      rw [hlist] at hmem
      exact nomatch hmem
  | cons first rest =>
      -- a segment without cells is disjoint from itself
      have hself : first.clears 0 first = true :=
        SegmentEnd.clears_iff.mpr (Or.inr ⟨rfl, Nat.le_refl _⟩)
      refine ⟨first, ?_⟩
      rw [rowPhase, hlist]
      show sweepRows 0 first (Tally.empty g.side) (first :: rest) = _
      rw [sweepRows, if_pos hself]
      rfl

theorem sweep_zero (g : Grid) : ∃ found, g.sweep 0 = .ok ⟨some found, 0, none⟩ := by
  obtain ⟨first, hphase⟩ := g.rowPhase_zero
  rw [sweep, hphase]
  exact ⟨_, rfl⟩

theorem pos_of_rowPhase_counted {tally : Tally g.side}
    (h : g.rowPhase k = .ok (.counted tally)) : 0 < k := by
  refine Nat.pos_of_ne_zero ?_
  rintro rfl
  obtain ⟨first, hphase⟩ := g.rowPhase_zero
  rw [hphase] at h
  exact nomatch h

/-- A pair of rows ends the sweep before anything is summed up. -/
theorem sweep_eq_pair (hk : 0 < k) (h : g.FitsPairAlong .rows k) :
    ∃ last, SegmentEnd.First (g.ClosesPair .rows k) last
      ∧ g.sweep k = .ok ⟨some ⟨.horizontalPair, last.cell .rows⟩,
          ((g.ends .rows k).filter fun e => e.Before last).card, none⟩ := by
  obtain ⟨last, hfirst, hphase⟩ := rowPhase_eq_pair hk ((fitsPairAlong_iff hk).mp h)
  refine ⟨last, hfirst, ?_⟩
  rw [sweep, hphase]
  rfl

/-- How many horizontal placements of length `k` contain each cell. -/
def coverage (g : Grid) (k : Nat) : Table Nat g.side g.side :=
  Table.ofFn fun i j =>
    ((g.ends .rows k).filter fun e => (⟨i, j⟩ : Cell) ∈ (e.placement .rows k).cells k).card

theorem entry_cover_eq (hk : 0 < k) (h : ¬ g.FitsPairAlong .rows k) {u : Tally g.side}
    (hu : u.Counts ((g.segmentEnds .rows k).map (SegmentEnd.interval k))) (i j : Fin g.side) :
    (u.cover.entry i j).toInt = (g.coverage k).entry i j := by
  have hlength := length_intervals_lt hk fun hex => h ((fitsPairAlong_iff hk).mpr hex)
  rw [Tally.entry_cover hu, Tally.toInt_ofInt_countP hlength, coverage, Table.entry_ofFn,
    ← length_filter_segmentEnds, List.countP_map, List.countP_eq_length_filter]
  have hfilter : (g.segmentEnds .rows k).filter
        ((fun v => decide (v.Contains i.val j.val)) ∘ SegmentEnd.interval k)
      = (g.segmentEnds .rows k).filter
        fun e => decide ((⟨i, j⟩ : Cell) ∈ (e.placement .rows k).cells k) := by
    refine List.filter_congr fun e he => ?_
    rw [mem_segmentEnds] at he
    exact decide_eq_decide.mpr (SegmentEnd.contains_interval_iff he.1)
  rw [hfilter]

/-- Without a pair of rows the sweep counts all horizontal segments, and its finding is the
first end where a column closes a pair, if there is one. -/
theorem sweep_eq_counted (hk : 0 < k) (h : ¬ g.FitsPairAlong .rows k) :
    ∃ found cover, g.sweep k = .ok ⟨found, (g.ends .rows k).card, some cover⟩
      ∧ (∀ i j, (cover.entry i j).toInt = (g.coverage k).entry i j)
      ∧ ((∃ e, g.ClosesColumn k e) →
          ∃ last why, SegmentEnd.First (g.ClosesColumn k) last
            ∧ found = some ⟨why, last.cell .columns⟩
            ∧ (why = .verticalPair ↔ g.ClosesPair .columns k last)
            ∧ (why = .unclaimedHorizontal ↔
                ¬ g.ClosesPair .columns k last ∧ g.ClosesCross k last))
      ∧ ((¬ ∃ e, g.ClosesColumn k e) → found = none) := by
  have hrows : ¬ ∃ e, g.ClosesPair .rows k e := fun hex => h ((fitsPairAlong_iff hk).mpr hex)
  obtain ⟨u, hu, hphase⟩ := rowPhase_eq_counted hk hrows
  have hwindow := u.cover.windowSums?_eq hk
  have hcount : u.count = (g.ends .rows k).card := by
    have hall := length_filter_segmentEnds g .rows k fun _ => True
    rw [hu.count, List.length_map]
    simpa using hall
  have hmeets (e : SegmentEnd g.side) (he : g.EndsAt .columns k e) :=
    unclaimed_iff hk hrows hu he
  refine ⟨(g.columnPhase k u.count (u.cover.windowSums k)).map fun x =>
    ⟨x.1, x.2.cell .columns⟩, u.cover, ?_, entry_cover_eq hk h hu, ?_, ?_⟩
  · rw [sweep, hphase, ← hcount]
    show (u.cover.windowSums? k >>= _) = _
    rw [hwindow]
    rfl
  · intro hex
    obtain ⟨last, why, hfirst, hrun, hpair, hcross⟩ := columnPhase_eq_some hk hmeets hex
    refine ⟨last, why, hfirst, ?_, hpair, hcross⟩
    rw [hrun]
    rfl
  · intro hno
    rw [columnPhase_eq_none hk hmeets hno]
    rfl

/-- **The oracle is exact**: a threshold is accepted iff two disjoint segments fit. -/
theorem accepts_iff (g : Grid) (k : Nat) : g.accepts k = true ↔ g.FitsPair k := by
  rcases Nat.eq_zero_or_pos k with rfl | hk
  · obtain ⟨found, hsweep⟩ := g.sweep_zero
    rw [accepts, hsweep]
    exact iff_of_true rfl g.fitsPair_zero
  · rw [fitsPair_iff hk]
    by_cases hrows : g.FitsPairAlong .rows k
    · obtain ⟨last, -, hsweep⟩ := sweep_eq_pair hk hrows
      rw [accepts, hsweep]
      exact iff_of_true rfl (Or.inl hrows)
    · obtain ⟨found, cover, hsweep, -, hsome, hnone⟩ := sweep_eq_counted hk hrows
      rw [accepts, hsweep]
      by_cases hcols : ∃ e, g.ClosesColumn k e
      · obtain ⟨last, why, -, hfound, -⟩ := hsome hcols
        rw [hfound]
        exact iff_of_true rfl (Or.inr hcols)
      · rw [hnone hcols]
        exact iff_of_false Bool.false_ne_true (not_or.mpr ⟨hrows, hcols⟩)

/-! ## Receipts -/

theorem sweepReceipt_eq_of_none {found : Option Finding} {count : Nat}
    (hsweep : g.sweep k = .ok ⟨found, count, none⟩) :
    g.sweepReceipt k = .ok ⟨k, found, count, none⟩ := by
  rw [sweepReceipt, if_neg (by omega), Int.toNat_natCast, hsweep]
  rfl

theorem sweepReceipt_eq_of_some {found : Option Finding} {count : Nat}
    {cover : Table Int64 g.side g.side} {digest : String}
    (hsweep : g.sweep k = .ok ⟨found, count, some cover⟩)
    (hdigest : cover.wordTensor.digest? = .ok digest) :
    g.sweepReceipt k = .ok ⟨k, found, count, some digest⟩ := by
  rw [sweepReceipt, if_neg (by omega), Int.toNat_natCast, hsweep]
  show ((cover.wordTensor.digest?.map some).mapError SweepFault.encoding >>= fun digest =>
    Except.ok (SweepReceipt.mk k found count digest)) = _
  rw [hdigest]
  rfl

/-- The array whose hash stands for the cover: as many as there are horizontal placements
on each cell. -/
def coverageTensor (g : Grid) (k : Nat) : Tensor :=
  (g.coverage k).tensor .signed fun n : Nat => (n : Int)

/-- A cover that counts the placements on each cell has a hash, that of the counts. -/
theorem exists_digest {cover : Table Int64 g.side g.side}
    (hcover : ∀ i j, (cover.entry i j).toInt = (g.coverage k).entry i j) :
    ∃ digest, (g.coverageTensor k).digest? = .ok digest
      ∧ cover.wordTensor.digest? = .ok digest := by
  have hside : g.side < Varint.limit := Nat.lt_of_succ_lt g.side_bound
  obtain ⟨digest, hdigest⟩ : ∃ digest, (g.coverageTensor k).digest? = .ok digest :=
    Table.digest?_tensor_isOk (by decide) (fun i j => Int.natCast_nonneg _) hside hside
  have htensor : cover.wordTensor = g.coverageTensor k := Table.tensor_congr hcover
  refine ⟨digest, hdigest, ?_⟩
  rw [htensor]
  exact hdigest

/-- Every sweep leaves a receipt, and the receipt has the threshold and the answer. -/
theorem exists_sweepReceipt (g : Grid) (k : Nat) :
    ∃ r, g.sweepReceipt k = .ok r ∧ r.threshold = k ∧ r.accepted = g.accepts k := by
  have hnone {found : Option Finding} {count : Nat}
      (hsweep : g.sweep k = .ok ⟨found, count, none⟩) :
      ∃ r, g.sweepReceipt k = .ok r ∧ r.threshold = k ∧ r.accepted = g.accepts k := by
    refine ⟨_, sweepReceipt_eq_of_none hsweep, rfl, ?_⟩
    rw [accepts, hsweep]
    rfl
  rcases Nat.eq_zero_or_pos k with rfl | hk
  · obtain ⟨found, hsweep⟩ := g.sweep_zero
    exact hnone hsweep
  · by_cases hrows : g.FitsPairAlong .rows k
    · obtain ⟨last, -, hsweep⟩ := sweep_eq_pair hk hrows
      exact hnone hsweep
    · obtain ⟨found, cover, hsweep, hcover, -⟩ := sweep_eq_counted hk hrows
      obtain ⟨digest, -, hdigest⟩ := exists_digest hcover
      refine ⟨_, sweepReceipt_eq_of_some hsweep hdigest, rfl, ?_⟩
      rw [accepts, hsweep]
      rfl

/-- The question for a threshold always has an answer. -/
theorem feasible_natCast (g : Grid) (k : Nat) : g.feasible k = .ok (g.accepts k) := by
  obtain ⟨r, hr, -, haccepted⟩ := g.exists_sweepReceipt k
  rw [feasible, hr, ← haccepted]
  rfl

/-- **The answers of the oracle** are those of the brute force over all pairs of placements.
Segments without cells fit anywhere, none is longer than the side, and a horizontal and a
vertical placement of one and the same cell are no pair. -/
theorem feasible_exact (g : Grid) :
    (∀ k : Nat, (g.feasible k = .ok true ↔ g.FitsPair k)
      ∧ (g.feasible k = .ok false ↔ ¬ g.FitsPair k))
    ∧ g.feasible 0 = .ok true
    ∧ (∀ k : Nat, g.side < k → g.feasible k = .ok false)
    ∧ ∀ row col, ¬ (⟨.rows, row, col⟩ : Placement).Disjoint 1 ⟨.columns, col, row⟩ := by
  have hanswer (k : Nat) : (g.feasible k = .ok true ↔ g.FitsPair k)
      ∧ (g.feasible k = .ok false ↔ ¬ g.FitsPair k) := by
    rw [g.feasible_natCast, ← g.accepts_iff]
    cases g.accepts k <;> simp
  refine ⟨hanswer, (hanswer 0).1.mpr g.fitsPair_zero, ?_, ?_⟩
  · intro k hk
    refine (hanswer k).2.mpr fun hpair => ?_
    exact Nat.not_le.mpr hk hpair.fitsOne.le_side
  · intro row col hdisj
    rw [Placement.disjoint_rows_columns_iff] at hdisj
    omega

/-- A row and the column that hangs from its middle. -/
def tee : Grid where
  side := 3
  cells := Table.ofFn fun i j => i == 0 || j == 1
  side_pos := by decide
  side_bound := by decide

theorem feasible_exact_tee : tee.feasible 2 = .ok true ∧ tee.feasible 4 = .ok false := by
  have hpair : tee.FitsPair 2 :=
    ⟨⟨.rows, 0, 0⟩, ⟨.columns, 1, 1⟩, by decide +kernel, by decide +kernel, by decide +kernel⟩
  exact ⟨((feasible_exact tee).1 2).1.mpr hpair, (feasible_exact tee).2.2.1 4 (by decide)⟩

end Grid

/-! ## What a receipt says -/

/-- The fields of a receipt, in terms of the placements of a grid. -/
structure SweepReceipt.Exact (g : Grid) (k : Nat) (r : SweepReceipt) : Prop where
  threshold : r.threshold = k
  /-- A pair of rows is certified whenever there is one. -/
  rows_iff : r.finding.map Finding.certificate = some .horizontalPair ↔ g.FitsPairAlong .rows k
  /-- Then the cell is the first end that closes a pair, in reading order. -/
  rows : g.FitsPairAlong .rows k →
    ∃ last, SegmentEnd.First (g.ClosesPair .rows k) last
      ∧ r.finding.map Finding.cell = some (last.cell .rows)
      ∧ r.count = ((g.ends .rows k).filter fun e => e.Before last).card
      ∧ r.coverDigest = none
  /-- Otherwise all horizontal placements are counted, and their cover is hashed. -/
  counted : ¬ g.FitsPairAlong .rows k →
    r.count = (g.ends .rows k).card
      ∧ ∃ digest, (g.coverageTensor k).digest? = .ok digest ∧ r.coverDigest = some digest
  /-- The cell is the first end, column by column, where a vertical placement closes a pair. -/
  columns : ¬ g.FitsPairAlong .rows k → (∃ e, g.ClosesColumn k e) →
    ∃ last why, SegmentEnd.First (g.ClosesColumn k) last
      ∧ r.finding = some ⟨why, last.cell .columns⟩
      ∧ (why = .verticalPair ↔ g.ClosesPair .columns k last)
      ∧ (why = .unclaimedHorizontal ↔ ¬ g.ClosesPair .columns k last ∧ g.ClosesCross k last)
  /-- Nothing is found, and the threshold refused, iff there is no such end. -/
  nothing : ¬ g.FitsPairAlong .rows k →
    (r.finding = none ↔ ¬ ∃ e, g.ClosesColumn k e)
      ∧ (r.accepted = false ↔ ¬ ∃ e, g.ClosesColumn k e)

namespace Grid

/-- **Receipts of sweeps are exact**, for every grid and every threshold but `0`. -/
theorem sweepReceipt_exact (g : Grid) (k : Nat) (hk : 0 < k) :
    ∃ r, g.sweepReceipt k = .ok r ∧ r.Exact g k := by
  by_cases hrows : g.FitsPairAlong .rows k
  · obtain ⟨last, hfirst, hsweep⟩ := sweep_eq_pair hk hrows
    refine ⟨_, sweepReceipt_eq_of_none hsweep, ?_⟩
    exact
      { threshold := rfl
        rows_iff := iff_of_true rfl hrows
        rows := fun _ => ⟨last, hfirst, rfl, rfl, rfl⟩
        counted := fun hno => absurd hrows hno
        columns := fun hno => absurd hrows hno
        nothing := fun hno => absurd hrows hno }
  · obtain ⟨found, cover, hsweep, hcover, hsome, hnone⟩ := sweep_eq_counted hk hrows
    obtain ⟨digest, hcounts, hdigest⟩ := exists_digest hcover
    have hfound : found = none ↔ ¬ ∃ e, g.ClosesColumn k e := by
      refine ⟨fun hf hex => ?_, hnone⟩
      obtain ⟨last, why, -, hs, -⟩ := hsome hex
      rw [hf] at hs
      exact nomatch hs
    have hcertificate : ¬ found.map Finding.certificate = some .horizontalPair := by
      intro hcert
      by_cases hex : ∃ e, g.ClosesColumn k e
      · -- an end that a column closes is certified as one of the two other kinds
        obtain ⟨last, why, hfirst, hs, hpair, hcross⟩ := hsome hex
        rw [hs] at hcert
        have hwhy : why = .horizontalPair := Option.some.inj hcert
        rw [hwhy] at hpair hcross
        have hnopair : ¬ g.ClosesPair .columns k last := fun hp => nomatch hpair.mpr hp
        exact nomatch hcross.mpr ⟨hnopair, hfirst.1.resolve_left hnopair⟩
      · rw [hnone hex] at hcert
        exact nomatch hcert
    refine ⟨_, sweepReceipt_eq_of_some hsweep hdigest, ?_⟩
    exact
      { threshold := rfl
        rows_iff := iff_of_false hcertificate hrows
        rows := fun hyes => absurd hyes hrows
        counted := fun _ => ⟨rfl, digest, hcounts, rfl⟩
        columns := fun _ => hsome
        nothing := fun _ => ⟨hfound, by rw [← hfound]; cases found <;> simp [SweepReceipt.accepted]⟩ }

theorem sweepReceipt_exact_tee :
    0 < 2 ∧ ∃ r, tee.sweepReceipt 2 = .ok r ∧ r.Exact tee 2 :=
  ⟨by decide, sweepReceipt_exact tee 2 (by decide)⟩

end Grid

end SegmentFit
