import Wombat33.Ncr53c96.Response

/-
  Every edge of a response's transfer keeps its invariant.

  A transfer information ends when its count expires, when
  the response runs out, or with its one byte; each way the
  bytes offered are accounted for, and STATUS shows once
  none is left.

  Key theorems include:
    * `response_sourceDone`, `response_lastByte`
    * `offerInv_step`
    * `responseInv_step`
-/

------------------------------------------------------------
-- The End of the Data
------------------------------------------------------------

namespace Ncr53c96

variable {cfg : Config} {b : Nat → Byte} {len goal : Nat}
variable {first : List Byte}
variable {s : Chip} {g : OfferLog} {i : In}

/- The source is exhausted once every byte is offered. -/
theorem response_sourceDone
    (hInv : ResponseInv b len goal first (s, g))
    (hOk : ResponseOk s i) :
    sourceDone s i = true ↔ g.offered.length = len := by
  have hSome := hInv.some
  have hWithin : g.offered.length ≤ len := hInv.within
  have hLen : s.sbufLen = len := hInv.build.sbufLen
  have hIdle := (noBlocks_idle hInv.noBlocks hOk).1
  rw [sourceDone_iff]
  constructor
  · rintro ⟨hNone, -, -, hOff⟩
    have hBuilt : s.synthLen = 0 := by
      simpa [synthOn] using hOff
    rcases hInv.build.built hBuilt with ⟨hValid, hPos, -⟩
    have hValid' : s.bufValid = true := hValid
    have hPos' : s.sbufPos = g.offered.length := hPos
    have hSpent : len ≤ s.sbufPos := by
      simpa [byteAvail, hValid', hLen] using hNone
    omega
  · intro hAll
    have hBuilt : s.synthLen = 0 := by
      by_contra hBuilding
      have hNone : g.offered = [] :=
        (hInv.build.building hBuilding).2.2.2.2.1
      rw [hNone, List.length_nil] at hAll
      omega
    have hPos : s.sbufPos = g.offered.length :=
      (hInv.build.built hBuilt).2.1
    exact ⟨by simp [byteAvail, hLen, hPos, hAll],
      hInv.noBlocks.left, hIdle, by simp [synthOn, hBuilt]⟩

/- The byte that moves is the last one. -/
theorem response_lastByte
    (hInv : ResponseInv b len goal first (s, g))
    (hOk : ResponseOk s i)
    (hIn : byteIn s i = true) :
    lastByte s i = true ↔ g.offered.length + 1 = len := by
  rcases offer_guard hInv hIn with ⟨hBuilt, hLt, -⟩
  have hShort := hInv.short
  have hLen : s.sbufLen = len := hInv.build.sbufLen
  have hPos : s.sbufPos = g.offered.length :=
    (hInv.build.built hBuilt).2.1
  have hLeft : s.blocksLeft = 0 := hInv.noBlocks.left
  have hIdle := (noBlocks_idle hInv.noBlocks hOk).1
  simp only [lastByte, hLen, hPos, hLeft, hIdle,
    Bool.not_false, Bool.and_true, beq_self_eq_true,
    beq_iff_eq]
  omega

/- A one-byte transfer information never runs out of data. -/
theorem response_noPioUnderflow
    (hInv : ResponseInv b len goal first (s, g))
    (hOk : ResponseOk s i) :
    pioInUnderflow s i = false := by
  by_contra hUnder
  simp only [pioInUnderflow, Bool.not_eq_false,
    Bool.and_eq_true] at hUnder
  have hLess : g.offered.length < len :=
    (hInv.offer.pio hUnder.1).2
  have hAll := (response_sourceDone hInv hOk).mp hUnder.2
  omega

/- With none open, DATA IN shows exactly while bytes are left. -/
theorem offered_lt_of_din
    (hInv : ResponseInv b len goal first (s, g))
    (hDin : s.phase = .din)
    (hIn : s.xferIn = false) :
    g.offered.length < len := by
  have hWithin : g.offered.length ≤ len := hInv.within
  have hPhase : s.phase =
      if g.offered.length = len ∧ s.xferIn = false then .stat
      else .din := hInv.offer.phase
  apply Nat.lt_of_le_of_ne hWithin
  intro hAll
  rw [if_pos ⟨hAll, hIn⟩, hDin] at hPhase
  exact Phase.noConfusion hPhase

/- While a pseudo-DMA transfer is open, DATA IN shows. -/
theorem din_of_open
    (hInv : ResponseInv b len goal first (s, g))
    (hIn : s.xferIn = true) :
    s.phase = .din := by
  have hPhase : s.phase =
      if g.offered.length = len ∧ s.xferIn = false then .stat
      else .din := hInv.offer.phase
  simpa [hIn] using hPhase

/- And the count is not written. -/
theorem latch_still
    (hOk : ResponseOk s i)
    (hIn : s.xferIn = true) :
    (regWr i 0x0#4 || regWr i 0x1#4) = false := by
  by_contra hLatch
  have hClosed : s.xferIn = false :=
    hOk.latch (by simpa only [Bool.not_eq_false] using hLatch)
  simp [hIn] at hClosed

/- The arm that moves a byte belongs to what is open. -/
theorem response_byteIn
    (hInv : ResponseInv b len goal first (s, g)) :
    byteIn s i =
      if s.xferIn then armFill s i else armPioIn s i := by
  unfold byteIn
  cases hIn : s.xferIn with
  | true =>
      have hNoPio : s.xferPioIn = false :=
        (hInv.offer.dma hIn).1
      have hNone : armPioIn s i = false := by
        simp [armPioIn, hNoPio]
      simp [hNone]
  | false =>
      have hNone : armFill s i = false := by
        simp [armFill, hIn]
      simp [hNone]

end Ncr53c96

------------------------------------------------------------
-- Transfer Informations after an Edge
------------------------------------------------------------

namespace Ncr53c96

variable {cfg : Config} {b : Nat → Byte} {len goal : Nat}
variable {first : List Byte}
variable {s : Chip} {g : OfferLog} {i : In}

/- The log's counts after an edge. -/
theorem noteOffer_counts
    (cfg : Config) (g : OfferLog) (s : Chip) (i : In) :
    (noteOffer cfg g s i).asked =
        g.asked +
          (if cmdIs i 0x10#7 then infoCount s i else 0) ∧
      (noteOffer cfg g s i).offered.length =
        g.offered.length + if byteIn s i then 1 else 0 := by
  refine ⟨rfl, ?_⟩
  rw [noteOffer, List.length_append]
  cases byteIn s i <;> rfl

/- A transfer information opens. -/
theorem offerInv_open
    (hInv : ResponseInv b len goal first (s, g))
    (hOk : ResponseOk s i)
    (hCmd : cmdIs i 0x10#7 = true) :
    OfferInv len goal (clock cfg s i, noteOffer cfg g s i) := by
  have hHost := inHost_of_response hOk
  rcases din_info hHost hCmd with ⟨hDin, hIn, hNoPio⟩
  have hLess := offered_lt_of_din hInv hDin hIn
  have hIdle := arm_of_fifoExt s i
    (command_cycle (regWr_of_cmdIs hCmd)).1
  have hNoPioIn : armPioIn s i = false := by
    simp [armPioIn_eq, hIdle]
  have hNoIn : byteIn s i = false := by
    simp [byteIn, armFill_eq, hNoPioIn, hIdle]
  have hBound : goal ≤ g.offered.length + owed s ∧
      g.offered.length + owed s ≤ g.asked :=
    hInv.offer.bound
  rw [show owed s = 0 by simp [owed, hIn, hNoPio]] at hBound
  have hLoad := tcLoad_bounds s
  have hPhase' : (clock cfg s i).phase = .din := by
    rw [din_nextPhase hInv.quiet hHost]
    simp [pioInUnderflow, dinUnderflow, dinDone, hIn, hNoPio,
      hNoPioIn, hDin]
  rcases @din_moves cfg s i hHost with ⟨hIn', hPio'⟩
  rcases @din_counter cfg s i hInv.quiet hHost with
    ⟨hCounter', hZero', hArmed', hActive'⟩
  rcases noteOffer_counts cfg g s i with ⟨hAsked', hCount'⟩
  simp only [hCmd, hNoIn, Bool.true_and, Bool.false_eq_true,
    if_true, if_false, Nat.add_zero]
    at hIn' hPio' hCounter' hZero' hArmed' hActive' hAsked'
      hCount'
  cases hDma : cmdDma i.wdata with
  | true =>
      simp only [hDma, Bool.not_true, Bool.false_and, if_true]
        at hIn' hPio' hCounter' hZero' hArmed' hActive'
      exact {
        bound := by
          simp only [owed, hIn', hZero', hCounter', hCount',
            hAsked', infoCount, hDma, if_true, if_false,
            Bool.false_eq_true]
          omega
        dma := fun _ => ⟨hPio', hArmed', hActive'⟩
        counting := by
          intro _ _
          simp only [hCounter']
          exact hLoad
        pio := by simp [hPio']
        phase := by simp [hPhase', hIn'] }
  | false =>
      simp only [hDma, Bool.not_false, Bool.true_and]
        at hIn' hPio'
      exact {
        bound := by
          simp only [owed, hIn', hPio', hCount', hAsked',
            infoCount, hDma, if_false, Bool.false_eq_true,
            decide_eq_true_eq]
          split <;> omega
        dma := by simp [hIn']
        counting := by simp [hIn']
        pio := by
          intro hPio
          have hEmpty : s.fifoCnt = 0 := by
            simpa [hPio'] using hPio
          simp only [hCount']
          exact ⟨din_staysEmpty hInv.quiet hHost hNoIn hEmpty,
            hLess⟩
        phase := by
          simp only [hPhase', hCount', hIn', and_true]
          rw [if_neg (by omega)] }

/- The count has expired: the FIFO is emptied, then it ends. -/
theorem offerInv_expired
    (hInv : ResponseInv b len goal first (s, g))
    (hOk : ResponseOk s i)
    (hNoCmd : cmdIs i 0x10#7 = false)
    (hIn : s.xferIn = true)
    (hZero : s.tcZero = true) :
    OfferInv len goal (clock cfg s i, noteOffer cfg g s i) := by
  have hHost := inHost_of_response hOk
  rcases hInv.offer.dma hIn with ⟨hNoPio, hArmed, hActive⟩
  have hNoPio' : s.xferPioIn = false := hNoPio
  have hArmed' : s.chunkIrqArmed = true := hArmed
  have hActive' : s.dmaActive = true := hActive
  have hBound : goal ≤ g.offered.length + owed s ∧
      g.offered.length + owed s ≤ g.asked :=
    hInv.offer.bound
  have hNoFill : armFill s i = false := by
    simp [armFill, hZero]
  have hNoPioIn : armPioIn s i = false := by
    simp [armPioIn, hNoPio']
  have hNoIn : byteIn s i = false := by
    simp [byteIn, hNoFill, hNoPioIn]
  have hNoUnder : dinUnderflow s i = false := by
    simp [dinUnderflow, hZero]
  have hDin := din_of_open hInv hIn
  have hDone := response_sourceDone hInv hOk
  have hNoLatch := latch_still hOk hIn
  have hPhaseN := @din_nextPhase cfg s i hInv.quiet hHost
  rcases @din_moves cfg s i hHost with ⟨hInN, hPioN⟩
  rcases @din_counter cfg s i hInv.quiet hHost with
    ⟨-, hZeroN, hArmedN, hActiveN⟩
  rcases noteOffer_counts cfg g s i with ⟨hAskedN, hCountN⟩
  simp only [hNoCmd, hIn, hZero, hNoPio', hArmed', hActive',
    hNoFill, hNoPioIn, hNoIn, hNoUnder, hNoLatch, hDin,
    response_noPioUnderflow hInv hOk, Bool.false_and,
    Bool.true_and, Bool.or_self, Bool.false_or, Bool.not_false,
    Bool.and_true, Bool.false_eq_true, if_false, Nat.add_zero]
    at hInN hPioN hZeroN hArmedN hActiveN hAskedN hCountN
      hPhaseN
  exact {
    bound := by
      simp only [owed, hIn, hZero, if_true] at hBound
      simp only [owed, hZeroN, hPioN, hCountN, hAskedN,
        Bool.false_eq_true, if_false, if_true, ite_self]
      exact hBound
    dma := by
      intro hStill
      have hNotDone : dinDone s = false := by
        simpa [hInN] using hStill
      simp [hPioN, hArmedN, hActiveN, hNotDone]
    counting := by simp [hZeroN]
    pio := by simp [hPioN]
    phase := by
      simp only [hPhaseN, hCountN, hInN]
      cases hEnd : dinDone s with
      | true => simp [hDone]
      | false => simp }

/- The count still runs: a byte moves, or the data runs out. -/
theorem offerInv_counting
    (hInv : ResponseInv b len goal first (s, g))
    (hOk : ResponseOk s i)
    (hNoCmd : cmdIs i 0x10#7 = false)
    (hIn : s.xferIn = true)
    (hZero : s.tcZero = false) :
    OfferInv len goal (clock cfg s i, noteOffer cfg g s i) := by
  have hHost := inHost_of_response hOk
  rcases hInv.offer.dma hIn with ⟨hNoPio, hArmed, hActive⟩
  have hNoPio' : s.xferPioIn = false := hNoPio
  have hArmed' : s.chunkIrqArmed = true := hArmed
  have hActive' : s.dmaActive = true := hActive
  rcases hInv.offer.counting hIn hZero with ⟨hPos, hLe⟩
  have hPos' : 0 < s.tcounter := hPos
  have hLe' : s.tcounter ≤ 65536 := hLe
  have hBound : goal ≤ g.offered.length + owed s ∧
      g.offered.length + owed s ≤ g.asked :=
    hInv.offer.bound
  have hNoPioIn : armPioIn s i = false := by
    simp [armPioIn, hNoPio']
  have hByte : byteIn s i = armFill s i := by
    rw [response_byteIn hInv, if_pos hIn]
  have hNotDone : dinDone s = false := by
    simp [dinDone, hZero]
  have hUnder : dinUnderflow s i = sourceDone s i := by
    simp [dinUnderflow, hIn, hArmed', hZero]
  have hDin := din_of_open hInv hIn
  have hDone := response_sourceDone hInv hOk
  have hGoal := hInv.goalLe
  have hNoLatch := latch_still hOk hIn
  have hPhaseN := @din_nextPhase cfg s i hInv.quiet hHost
  rcases @din_moves cfg s i hHost with ⟨hInN, hPioN⟩
  rcases @din_counter cfg s i hInv.quiet hHost with
    ⟨hCounterN, hZeroN, hArmedN, hActiveN⟩
  rcases noteOffer_counts cfg g s i with ⟨hAskedN, hCountN⟩
  simp only [hNoCmd, hIn, hZero, hNoPio', hArmed', hActive',
    hNoPioIn, hByte, hUnder, hNoLatch, hDin, hNotDone,
    response_noPioUnderflow hInv hOk, Bool.false_and,
    Bool.true_and, Bool.or_false, Bool.false_or,
    Bool.not_false, Bool.and_true, Bool.false_eq_true, if_false,
    Nat.add_zero]
    at hInN hPioN hCounterN hZeroN hArmedN hActiveN hAskedN
      hCountN hPhaseN
  simp only [owed, hIn, hZero, Bool.false_eq_true, if_true,
    if_false] at hBound
  cases hEnd : sourceDone s i with
  | true =>
      -- every byte is offered: the transfer ends short
      have hAll := hDone.mp hEnd
      have hNoFill : armFill s i = false := by
        rw [← hByte]
        by_contra hMoves
        have hLess :=
          (offer_guard hInv (by simpa using hMoves)).2.1
        omega
      simp only [hEnd, hNoFill, Bool.not_true,
        Bool.false_eq_true, if_true, if_false, Nat.add_zero]
        at hInN hPhaseN hCountN
      exact {
        bound := by
          simp only [owed, hInN, hPioN, hCountN, hAskedN,
            Bool.false_eq_true, if_false]
          omega
        dma := by simp [hInN]
        counting := by simp [hInN]
        pio := by simp [hPioN]
        phase := by simp [hPhaseN, hCountN, hInN, hAll] }
  | false =>
      have hStep : (s.tcounter + 131071) % 131072 =
          s.tcounter - 1 := by omega
      simp only [hEnd, hStep, Bool.not_false,
        Bool.false_eq_true, if_false]
        at hInN hPhaseN hCounterN hArmedN
      exact {
        bound := by
          simp only [owed, hInN, hZeroN, hCounterN, hCountN,
            hAskedN, if_true]
          cases hFill : armFill s i with
          | true =>
              by_cases hLast : s.tcounter = 1
              · simp only [hLast, beq_self_eq_true,
                  Bool.and_self, if_true]
                omega
              · simp [hLast]
                omega
          | false => simpa using hBound
        dma := fun _ => ⟨hPioN, hArmedN, hActiveN⟩
        counting := by
          intro _ hMore
          simp only [hZeroN] at hMore
          simp only [hCounterN]
          cases hFill : armFill s i with
          | true =>
              have hNotLast : s.tcounter ≠ 1 := by
                intro hLast
                simp [hFill, hLast] at hMore
              simp only [if_true]
              omega
          | false =>
              simp only [Bool.false_eq_true, if_false]
              omega
        pio := by simp [hPioN]
        phase := by simp [hPhaseN, hInN] }

/- A one-byte transfer information waits, or ends. -/
theorem offerInv_pio
    (hInv : ResponseInv b len goal first (s, g))
    (hOk : ResponseOk s i)
    (hNoCmd : cmdIs i 0x10#7 = false)
    (hIn : s.xferIn = false)
    (hPio : s.xferPioIn = true) :
    OfferInv len goal (clock cfg s i, noteOffer cfg g s i) := by
  have hHost := inHost_of_response hOk
  rcases hInv.offer.pio hPio with ⟨hEmpty, hLess⟩
  have hLess' : g.offered.length < len := hLess
  have hByte : byteIn s i = armPioIn s i := by
    simp [response_byteIn hInv, hIn]
  have hBound : goal ≤ g.offered.length + owed s ∧
      g.offered.length + owed s ≤ g.asked :=
    hInv.offer.bound
  have hPhase : s.phase =
      if g.offered.length = len ∧ s.xferIn = false then .stat
      else .din := hInv.offer.phase
  rw [if_neg (by omega)] at hPhase
  have hPhaseN := @din_nextPhase cfg s i hInv.quiet hHost
  rcases @din_moves cfg s i hHost with ⟨hInN, hPioN⟩
  rcases noteOffer_counts cfg g s i with ⟨hAskedN, hCountN⟩
  have hNotDone : dinDone s = false := by
    simp [dinDone, hIn]
  have hNoUnder : dinUnderflow s i = false := by
    simp [dinUnderflow, hIn]
  simp only [hNoCmd, hIn, hPio, hByte, hPhase, hNotDone,
    hNoUnder, response_noPioUnderflow hInv hOk, Bool.false_and,
    Bool.true_and, Bool.or_self, Bool.not_false, Bool.and_true,
    Bool.false_eq_true, if_false, Nat.add_zero]
    at hInN hPioN hAskedN hCountN hPhaseN
  simp only [owed, hIn, hPio, Bool.false_eq_true, if_false,
    if_true] at hBound
  cases hMove : armPioIn s i with
  | true =>
      have hLast :=
        response_lastByte hInv hOk (by rw [hByte, hMove])
      simp only [hMove, Bool.not_true, Bool.true_and, if_true]
        at hPioN hCountN hPhaseN
      exact {
        bound := by
          simp only [owed, hInN, hPioN, hCountN, hAskedN,
            Bool.false_eq_true, if_false]
          exact hBound
        dma := by simp [hInN]
        counting := by simp [hInN]
        pio := by simp [hPioN]
        phase := by
          simp only [hPhaseN, hCountN, hInN, hLast, and_true] }
  | false =>
      simp only [hMove, Bool.not_false, Bool.false_and,
        Bool.false_eq_true, if_false, Nat.add_zero]
        at hPioN hCountN hPhaseN
      exact {
        bound := by
          simp only [owed, hInN, hPioN, hCountN, hAskedN,
            Bool.false_eq_true, if_false, if_true]
          exact hBound
        dma := by simp [hInN]
        counting := by simp [hInN]
        pio := by
          intro _
          simp only [hCountN]
          exact ⟨din_staysEmpty hInv.quiet hHost
            (by rw [hByte, hMove]) hEmpty, hLess'⟩
        phase := by
          simp only [hPhaseN, hCountN]
          rw [if_neg (by omega)] }

/- Between two transfer informations nothing moves. -/
theorem offerInv_rest
    (hInv : ResponseInv b len goal first (s, g))
    (hOk : ResponseOk s i)
    (hNoCmd : cmdIs i 0x10#7 = false)
    (hIn : s.xferIn = false)
    (hPio : s.xferPioIn = false) :
    OfferInv len goal (clock cfg s i, noteOffer cfg g s i) := by
  have hHost := inHost_of_response hOk
  have hNone : armPioIn s i = false := by
    simp [armPioIn, hPio]
  have hNoIn : byteIn s i = false := by
    simp [response_byteIn hInv, hIn, hNone]
  have hBound : goal ≤ g.offered.length + owed s ∧
      g.offered.length + owed s ≤ g.asked :=
    hInv.offer.bound
  have hPhaseN := @din_nextPhase cfg s i hInv.quiet hHost
  rcases @din_moves cfg s i hHost with ⟨hInN, hPioN⟩
  rcases noteOffer_counts cfg g s i with ⟨hAskedN, hCountN⟩
  simp only [hNoCmd, hIn, hPio, hNone, hNoIn, pioInUnderflow,
    dinUnderflow, dinDone, Bool.false_and, Bool.or_self,
    Bool.false_eq_true, if_false, Nat.add_zero]
    at hInN hPioN hAskedN hCountN hPhaseN
  exact {
    bound := by
      simp only [owed, hIn, hPio, Bool.false_eq_true, if_false]
        at hBound
      simp only [owed, hInN, hPioN, hCountN, hAskedN,
        Bool.false_eq_true, if_false]
      exact hBound
    dma := by simp [hInN]
    counting := by simp [hInN]
    pio := by simp [hPioN]
    phase := by
      have hPhase : s.phase =
          if g.offered.length = len ∧ s.xferIn = false then
            .stat
          else .din := hInv.offer.phase
      simp only [hPhaseN, hCountN, hInN]
      simpa only [hIn] using hPhase }

theorem offerInv_step
    (hInv : ResponseInv b len goal first (s, g))
    (hOk : ResponseOk s i) :
    OfferInv len goal (clock cfg s i, noteOffer cfg g s i) := by
  cases hCmd : cmdIs i 0x10#7 with
  | true => exact offerInv_open hInv hOk hCmd
  | false =>
      cases hIn : s.xferIn with
      | true =>
          cases hZero : s.tcZero with
          | true => exact offerInv_expired hInv hOk hCmd hIn hZero
          | false =>
              exact offerInv_counting hInv hOk hCmd hIn hZero
      | false =>
          cases hPio : s.xferPioIn with
          | true => exact offerInv_pio hInv hOk hCmd hIn hPio
          | false => exact offerInv_rest hInv hOk hCmd hIn hPio

end Ncr53c96

------------------------------------------------------------
-- The Step Lemma
------------------------------------------------------------

namespace Ncr53c96

open Clocked

variable {cfg : Config} {b : Nat → Byte} {len goal : Nat}
variable {first : List Byte}

/- Every edge under the contract keeps the invariant. -/
theorem responseInv_step
    (x : Chip × OfferLog)
    (i : In)
    (hInv : ResponseInv b len goal first x)
    (hOk : ResponseOk x.1 i) :
    ResponseInv b len goal first
      (watch (step cfg) (noteOffer cfg) x i) := by
  rcases x with ⟨s, g⟩
  have hHost := inHost_of_response hOk
  have hOffered : g.offered =
      (List.range g.offered.length).map b := hInv.offered
  have hWithin : g.offered.length ≤ len := hInv.within
  have hStream : g.taken ++ queue s = first ++ g.offered :=
    hInv.stream
  have hCount := (noteOffer_counts cfg g s i).2
  show ResponseInv b len goal first
    (step cfg s i, noteOffer cfg g s i)
  rw [step_of_nreset cfg s i hOk.clocked]
  exact {
    some := hInv.some
    goalLe := hInv.goalLe
    short := hInv.short
    quiet := din_quiet hInv.quiet hHost
    noBlocks := noBlocks_clock hInv.quiet hInv.noBlocks hOk
    build := buildInv_step hInv hOk
    offer := offerInv_step hInv hOk
    offered := by
      rw [hCount]
      cases hIn : byteIn s i with
      | true =>
          have hByte := (offer_guard hInv hIn).2.2
          rw [if_pos rfl, List.range_succ, List.map_append,
            ← hOffered]
          simp [noteOffer, hIn, hByte]
      | false =>
          simpa [noteOffer, hIn] using hOffered
    within := by
      rw [hCount]
      cases hIn : byteIn s i with
      | true => exact (offer_guard hInv hIn).2.1
      | false => simpa using hWithin
    stream := by
      simp only [noteOffer, List.append_assoc,
        din_queue hInv.quiet hHost]
      rw [← List.append_assoc, hStream, List.append_assoc] }

end Ncr53c96
