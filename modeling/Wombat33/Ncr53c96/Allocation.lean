import Wombat33.Ncr53c96.ResponseStep

/-
  Responses and their allocation length, end to end.

  The target never looks at the allocation length: however it
  is asked for, the response is offered whole, and STATUS
  shows after its last byte and not before.

  Key definitions include:
    * `Honoured`

  Key theorems include:
    * `responseEnds_of_inv`
    * `responseInv_start`
    * `response_progress`
    * `response_exact`
-/

------------------------------------------------------------
-- Ends and Interrupts
------------------------------------------------------------

namespace Ncr53c96

variable {cfg : Config} {b : Nat → Byte} {len goal : Nat}
variable {first : List Byte}
variable {s : Chip} {g : OfferLog} {i : In}

/- With every byte offered, the last one ends at once. -/
theorem response_over
    (hInv : ResponseInv b len goal first (s, g))
    (hOk : ResponseOk s i)
    (hAll : g.offered.length = len)
    (hFew : s.fifoCnt < 2) :
    infoOpen (clock cfg s i) = false ∧
      (clock cfg s i).phase = .stat := by
  have hHost := inHost_of_response hOk
  have hNoCmd : cmdIs i 0x10#7 = false := by
    by_contra hCmd
    rcases din_info hHost (by simpa using hCmd) with
      ⟨hDin, hIn, -⟩
    have hLess := offered_lt_of_din hInv hDin hIn
    omega
  have hNoPio : s.xferPioIn = false := by
    by_contra hPio
    have hLess : g.offered.length < len :=
      (hInv.offer.pio (by simpa using hPio)).2
    omega
  have hNoIn : byteIn s i = false := by
    by_contra hIn
    have hLess := (offer_guard hInv (by simpa using hIn)).2.1
    omega
  have hDone := (response_sourceDone hInv hOk).mpr hAll
  rcases @din_moves cfg s i hHost with ⟨hIn', hPio'⟩
  simp only [hNoCmd, hNoPio, Bool.false_and,
    Bool.false_eq_true, if_false] at hIn' hPio'
  have hClosed : (clock cfg s i).xferIn = false := by
    rw [hIn']
    cases hIn : s.xferIn with
    | false => rfl
    | true =>
        have hArmed : s.chunkIrqArmed = true :=
          (hInv.offer.dma hIn).2.1
        cases hZero : s.tcZero with
        | true => simp [dinDone, hIn, hArmed, hZero, hFew]
        | false =>
            simp [dinUnderflow, hIn, hArmed, hZero, hDone]
  have hCount := (noteOffer_counts cfg g s i).2
  simp only [hNoIn, hAll, Bool.false_eq_true, if_false,
    Nat.add_zero] at hCount
  have hNext := (@offerInv_step cfg b len goal first s g i
    hInv hOk).phase
  simp only [hCount, hClosed, and_self, if_true] at hNext
  exact ⟨by simp [infoOpen, hClosed, hPio'], hNext⟩

theorem responseEnds_of_inv
    (x : Chip × OfferLog)
    (i : In)
    (hInv : ResponseInv b len goal first x)
    (hOk : ResponseOk x.1 i) :
    ResponseEnds cfg ((List.range len).map b) x i := by
  rcases x with ⟨s, g⟩
  have hStep := step_of_nreset cfg s i hOk.clocked
  constructor
  · rw [hStep]
    exact din_raised (inHost_of_response hOk)
  · intro hAll
    rw [List.length_map, List.length_range] at hAll
    rw [hStep]
    exact response_over hInv hOk hAll

end Ncr53c96

------------------------------------------------------------
-- The Start
------------------------------------------------------------

namespace Ncr53c96

variable {cfg : Config} {s₀ s : Chip}

/- Executing one of the CDBs sets its response up. -/
theorem clock_responds
    {i : In}
    (hExec : s₀.execPending = true)
    (hOp : responds (s₀.cdb 0) = true) :
    (clock cfg s₀ i).synthLen = responseLen (s₀.cdb 0) ∧
      (clock cfg s₀ i).sbufLen = responseLen (s₀.cdb 0) ∧
      (clock cfg s₀ i).synthIdx = 0 ∧
      ∀ j < responseLen (s₀.cdb 0),
        synthByte (clock cfg s₀ i)
            (clock cfg s₀ i).synthKind j =
          responseByte s₀ j := by
  simp only [responds, Bool.or_eq_true, beq_iff_eq] at hOp
  rw [clock_synthLen, clock_sbufLen, clock_synthIdx,
    clock_synthKind]
  unfold responseByte synthByte responseKind responseLen
  rcases hOp with (hOp | hOp) | hOp <;>
    simp [hExec, hOp, clock_senseR]

theorem responseLen_bounds (op : Byte) :
    0 < responseLen op ∧ responseLen op ≤ 36 := by
  unfold responseLen
  split
  · decide
  · split <;> decide

/- A response just asked for has everything before it. -/
theorem responseInv_start
    (hStart : ResponseStarted cfg s₀ s)
    (hClosed : allClosed s) :
    ResponseInv (responseByte s₀) (responseLen (s₀.cdb 0)) 0
      (queue s) (s, nothingOffered) := by
  rcases hStart with
    ⟨⟨hReach, hExec, hOp, i₀, hReset, rfl⟩, hRd, hWr, hAckD⟩
  rw [step_of_nreset cfg s₀ i₀ hReset]
    at hClosed hRd hWr hAckD ⊢
  rcases hClosed with ⟨hPhase, hIn, hOut, hPioIn, hPioOut,
    hMsg, hNoCdb⟩
  rcases responseLen_bounds (s₀.cdb 0) with ⟨hSome, hShort⟩
  rcases @clock_responds cfg s₀ i₀ hExec hOp with
    ⟨hLen, hBufLen, hIdx, hBytes⟩
  have hNotDue : flushDue s₀ i₀ = false := by
    by_contra hDue
    rw [clock_ioWr, if_pos (by simpa using hDue)] at hWr
    exact Bool.noConfusion hWr
  have hBlocks : (clock cfg s₀ i₀).blocksLeft = 0 := by
    simp only [responds, Bool.or_eq_true, beq_iff_eq] at hOp
    rcases hOp with (hOp | hOp) | hOp <;>
      simp [clock_blocksLeft, hNotDue, hExec, hOp]
  exact {
    some := hSome
    goalLe := Nat.zero_le _
    short := hShort
    quiet := {
      noCdb := hNoCdb
      noExec := by simp [clock_execPending, hExec]
      noMsg := hMsg
      noOut := hOut
      noPioOut := hPioOut
      fifo := reachable_fifoCnt_le
        (reachable_step hReach hReset) }
    noBlocks := {
      left := hBlocks
      noRd := hRd
      noWr := hWr
      noAckD := hAckD }
    build := {
      sbufLen := hBufLen
      building := by
        intro _
        refine ⟨hLen, ?_, by simp [clock_bufValid, hExec],
          by simp [clock_sbufPos, hNotDue, hExec], rfl, ?_,
          hBytes⟩
        · show (clock cfg s₀ i₀).synthIdx < _
          rw [hIdx]
          exact hSome
        · intro j hj
          rw [hIdx] at hj
          exact absurd hj (Nat.not_lt_zero j)
      built := by
        intro hNone
        rw [hLen] at hNone
        omega }
    offer := {
      bound := by simp [nothingOffered, owed, hIn, hPioIn]
      dma := by simp [hIn]
      counting := by simp [hIn]
      pio := by simp [hPioIn]
      phase := by
        have hNone : (0 : Nat) ≠ responseLen (s₀.cdb 0) := by
          omega
        simpa [nothingOffered, hNone] using hPhase }
    offered := rfl
    within := Nat.zero_le _
    stream := by simp [nothingOffered] }

end Ncr53c96

------------------------------------------------------------
-- Progress
------------------------------------------------------------

namespace Ncr53c96

open Clocked

variable {cfg : Config} {b : Nat → Byte} {len goal : Nat}
variable {first : List Byte}
variable {s : Chip} {g : OfferLog} {i : In}

/- The edges it takes to build and to offer the response. -/
def responseWork (len : Nat) (x : Chip × OfferLog) : Nat :=
  2 * (len - x.2.offered.length) +
    if x.1.synthLen = 0 then (if sbufRdOk x.1 then 0 else 1)
    else len - x.1.synthIdx + 1

/- The read-ahead follows while the position stays. -/
theorem response_sbufRdOk
    (hInv : ResponseInv b len goal first (s, g))
    (hOk : ResponseOk s i)
    (hBuilt : s.synthLen = 0)
    (hNoIn : byteIn s i = false) :
    sbufRdOk (clock cfg s i) = true := by
  have hNoDrain :=
    din_noDrain hInv.quiet (inHost_of_response hOk)
  have hPos := (@build_moves cfg b len goal first s g i
    hInv hOk).2.2.2.1
  simp only [hNoIn, Bool.false_eq_true, if_false,
    Nat.add_zero] at hPos
  rw [sbufRdOk, posWord, hPos, clock_eqAddr, clock_eqWr]
  simp [addrE, weE, synthOn, hBuilt, hNoDrain, posWord]

/- An edge never adds work, and a useful edge takes some. -/
theorem responseWork_le
    (hInv : ResponseInv b len goal first (s, g))
    (hOk : ResponseOk s i) :
    responseWork len (clock cfg s i, noteOffer cfg g s i) +
        (if synthOn s || byteIn s i || !sbufRdOk s then 1
          else 0) ≤
      responseWork len (s, g) := by
  have hShort := hInv.short
  have hCount := (noteOffer_counts cfg g s i).2
  rcases @build_moves cfg b len goal first s g i hInv hOk with
    ⟨hLen', hIdx', -, -, -⟩
  simp only [responseWork, hCount]
  by_cases hBuilt : s.synthLen = 0
  · have hOff : synthOn s = false := by simp [synthOn, hBuilt]
    have hNotLast : synthLast s = false := by
      simp [synthLast, hOff]
    simp only [hNotLast, hBuilt, Bool.false_eq_true, if_false]
      at hLen'
    simp only [hLen', hBuilt, hOff, Bool.false_or, if_true]
    cases hIn : byteIn s i with
    | true =>
        -- the next byte may lie in the next word
        have hRead := (byteIn_avail hIn).2
        have hLess := (offer_guard hInv hIn).2.1
        simp only [hRead, Bool.true_or, if_true]
        split <;> omega
    | false =>
        have hRead := @response_sbufRdOk cfg b len goal first
          s g i hInv hOk hBuilt hIn
        cases sbufRdOk s <;> simp [hRead]
  · -- one byte more is built
    have hOn : synthOn s = true := synthOn_iff.mpr hBuilt
    have hNoIn : byteIn s i = false := by
      by_contra hIn
      exact hBuilt (offer_guard hInv (by simpa using hIn)).1
    rcases hInv.build.building hBuilt with ⟨hAll, hIdx, -⟩
    have hAll' : s.synthLen = len := hAll
    have hIdx'' : s.synthIdx < len := hIdx
    simp only [hOn, if_true] at hIdx'
    simp only [hNoIn, hOn, hBuilt, hIdx', Bool.true_or,
      Bool.false_eq_true, if_true, if_false, Nat.add_zero]
    cases hLast : synthLast s with
    | true =>
        simp only [hLast, if_true] at hLen'
        simp only [hLen', if_true]
        split <;> omega
    | false =>
        simp only [hLast, Bool.false_eq_true, if_false] at hLen'
        simp only [hLen', hBuilt, if_false]
        have hNotEnd : s.synthIdx ≠ s.synthLen - 1 := by
          intro hEnd
          have hNow := synthLast_iff.mpr ⟨hBuilt, hEnd⟩
          simp [hLast] at hNow
        omega

/- A free edge with bytes owed takes some of the work. -/
theorem works_of_owed
    (hInv : ResponseInv b len goal first (s, g))
    (hOk : ResponseOk s i)
    (hFree : readFree s i = true)
    (hMore : g.offered.length < goal) :
    (synthOn s || byteIn s i || !sbufRdOk s) = true := by
  have hQuiet : InQuiet s := hInv.quiet
  have hGoal := hInv.goalLe
  have hBound : goal ≤ g.offered.length + owed s :=
    hInv.offer.bound.1
  simp only [readFree, Bool.and_eq_true, Bool.not_eq_true',
    decide_eq_true_eq] at hFree
  rcases hFree with ⟨⟨⟨⟨-, hExt⟩, hNoPop⟩, hNoIdle⟩, hRoom⟩
  cases hOn : synthOn s with
  | true => rfl
  | false =>
      cases hRead : sbufRdOk s with
      | false => simp
      | true =>
          have hBuilt : s.synthLen = 0 := by
            simpa [synthOn] using hOn
          rcases hInv.build.built hBuilt with ⟨hValid, hPos, -⟩
          have hPos' : s.sbufPos = g.offered.length := hPos
          have hLen : s.sbufLen = len := hInv.build.sbufLen
          have hAvail : byteAvail s = true :=
            byteAvail_iff.mpr ⟨hValid, by omega⟩
          have hNoDma : noDmaArm s i = true := by
            simp [noDmaArm, hNoPop, hNoIdle, armCdbDma,
              armOutDma, armSwallow, engWr, hOk.noDmaWrite]
          have hNoDrain :=
            din_noDrain hQuiet (inHost_of_response hOk)
          have hIn : byteIn s i = true := by
            rw [response_byteIn hInv]
            cases hDma : s.xferIn with
            | true =>
                have hActive : s.dmaActive = true :=
                  (hInv.offer.dma hDma).2.2
                have hZero : s.tcZero = false := by
                  by_contra hZero
                  rw [Bool.not_eq_false] at hZero
                  simp [owed, hDma, hZero] at hBound
                  omega
                simp [armFill, armCdbFf, hExt, hNoDma,
                  hQuiet.noCdb, hNoDrain, hDma, hActive, hZero,
                  hRoom, hAvail, hRead]
            | false =>
                have hPio : s.xferPioIn = true := by
                  by_contra hPio
                  simp [owed, hDma, hPio] at hBound
                  omega
                have hEmpty : s.fifoCnt = 0 :=
                  (hInv.offer.pio hPio).1
                simp [armPioIn, armFill, armCdbFf, hExt,
                  hNoDma, hQuiet.noCdb, hNoDrain, hDma, hPio,
                  hEmpty, hAvail, hRead]
          simp [hIn]

/- The work left until `goal` bytes are offered. -/
def workUntilOffered
    (len goal : Nat)
    (x : Chip × OfferLog) : Nat :=
  if goal ≤ x.2.offered.length then 0 else responseWork len x

/- It never grows, and a free edge takes some of it. -/
theorem workUntilOffered_le
    (x : Chip × OfferLog)
    (i : In)
    (hInv : ResponseInv b len goal first x)
    (hOk : ResponseOk x.1 i) :
    workUntilOffered len goal
          (watch (step cfg) (noteOffer cfg) x i) +
        (if readFree x.1 i &&
            decide (x.2.offered.length < goal) then 1
          else 0) ≤
      workUntilOffered len goal x := by
  rcases x with ⟨s, g⟩
  have hWork := @responseWork_le cfg b len goal first s g i
    hInv hOk
  have hCount := (noteOffer_counts cfg g s i).2
  show workUntilOffered len goal
    (step cfg s i, noteOffer cfg g s i) + _ ≤ _
  rw [step_of_nreset cfg s i hOk.clocked]
  simp only [workUntilOffered]
  by_cases hDone : goal ≤ g.offered.length
  · have hStill : goal ≤
        (noteOffer cfg g s i).offered.length := by omega
    simp [hDone, hStill]
  · have hLess : g.offered.length < goal :=
      Nat.lt_of_not_le hDone
    rw [if_neg hDone]
    cases hFree : readFree s i with
    | false =>
        simp only [Bool.false_and, Bool.false_eq_true,
          if_false]
        split <;> omega
    | true =>
        rw [if_pos (works_of_owed hInv hOk hFree hLess)]
          at hWork
        simp only [Bool.true_and, hLess, decide_true, if_true]
        split <;> omega

/- What is owed can be made the goal, up to the last byte. -/
theorem responseInv_aim
    {x : Chip × OfferLog}
    (hInv : ResponseInv b len goal first x) :
    ResponseInv b len
      (min (x.2.offered.length + owed x.1) len) first x :=
  { hInv with
    goalLe := Nat.min_le_right _ _
    offer := { hInv.offer with
      bound := ⟨Nat.min_le_left _ _, hInv.offer.bound.2⟩ } }

/- As many free edges as there is work left reach the goal. -/
theorem response_progress
    {x : Chip × OfferLog}
    {is : List In}
    (hInv : ResponseInv b len goal first x)
    (hOk : Along (watch (step cfg) (noteOffer cfg))
      (fun x i => ResponseOk x.1 i) x is)
    (hFree : responseWork len x ≤
      enabledCount (watch (step cfg) (noteOffer cfg))
        (fun x i => readFree x.1 i) x is) :
    goal ≤
      (run (watch (step cfg) (noteOffer cfg)) x
        is).2.offered.length := by
  have hEnd := invariant_run responseInv_step hOk hInv
  have hNone : workUntilOffered len goal
      (run (watch (step cfg) (noteOffer cfg)) x is) = 0 := by
    apply @measure_exhausted _ _ _ _
      (ResponseInv b len goal first)
      (fun x i => readFree x.1 i)
      (workUntilOffered len goal)
      responseInv_step _ _ x is hOk hInv
    · refine Nat.le_trans ?_ hFree
      unfold workUntilOffered
      split
      · exact Nat.zero_le _
      · exact Nat.le_refl _
    · intro y i hInv hOk
      exact Nat.le_trans (Nat.le_add_right _ _)
        (workUntilOffered_le y i hInv hOk)
    · intro y i hInv hOk hEnabled hWork
      have hLess : y.2.offered.length < goal := by
        apply Nat.lt_of_not_le
        intro hDone
        simp [workUntilOffered, hDone] at hWork
      have hStep := @workUntilOffered_le cfg _ _ _ _ y i hInv hOk
      rw [if_pos (by simp [hEnabled, hLess])] at hStep
      exact Nat.lt_of_succ_le hStep
  have hGoal := hEnd.goalLe
  rw [workUntilOffered] at hNone
  split at hNone
  next hDone => exact hDone
  next =>
      simp only [responseWork] at hNone
      omega

end Ncr53c96

------------------------------------------------------------
-- The Response, Whatever the Allocation Length
------------------------------------------------------------

namespace Ncr53c96

open Clocked

/-
  From an INQUIRY, REQUEST SENSE or MODE SENSE that executes
  with nothing open, whatever its allocation length and
  however it is read, the target offers its whole response in
  order while DATA IN shows and then STATUS; every transfer
  information ends with an interrupt and I_BUS; and what an
  open one asks for is offered after a bounded number of free
  edges, as far as the response goes.
-/
theorem response_exact
    (cfg : Config)
    (s₀ s : Chip)
    (is : List In)
    (hStart : ResponseStarted cfg s₀ s)
    (hClosed : allClosed s)
    (hOk : Along (step cfg) ResponseOk s is) :
    Always (watch (step cfg) (noteOffer cfg))
        (ResponseKept (responseTo s₀) (queue s))
        (s, nothingOffered) is ∧
      Along (watch (step cfg) (noteOffer cfg))
        (ResponseEnds cfg (responseTo s₀))
        (s, nothingOffered) is ∧
      ∀ pre post x, is = pre ++ post →
        x = run (watch (step cfg) (noteOffer cfg))
          (s, nothingOffered) pre →
        3 * (responseTo s₀).length + 1 ≤
          enabledCount (watch (step cfg) (noteOffer cfg))
            (fun x i => readFree x.1 i) x post →
        min (x.2.offered.length + owed x.1)
            (responseTo s₀).length ≤
          (run (watch (step cfg) (noteOffer cfg))
            (s, nothingOffered) is).2.offered.length := by
  have hInv := responseInv_start hStart hClosed
  have hEdge := (along_watch (step cfg) (noteOffer cfg)
    ResponseOk (s, nothingOffered) is).mpr hOk
  have hLength : (responseTo s₀).length =
      responseLen (s₀.cdb 0) := by
    simp [responseTo]
  refine ⟨?_, ?_, ?_⟩
  · exact always_mono (fun _ => responseKept_of_inv)
      (always_of_along responseInv_step hEdge hInv)
  · exact along_of_invariant responseInv_step
      responseEnds_of_inv hEdge hInv
  · rintro pre post x rfl rfl hFree
    rcases (along_append _ _ _).mp hEdge with ⟨hPre, hPost⟩
    have hHere := invariant_run responseInv_step hPre hInv
    rw [run_append, hLength]
    rw [hLength] at hFree
    apply response_progress (responseInv_aim hHere) hPost
    refine Nat.le_trans ?_ hFree
    unfold responseWork
    split
    · split <;> omega
    · omega

/- INQUIRY with allocation length `a`. -/
def inquiryOf (a : Byte) : List Byte :=
  [0x12#8, 0x00#8, 0x00#8, 0x00#8, a, 0x00#8]

/- The chip just before the edge that follows `is`. -/
def pendingAfter (is : List In) : Chip :=
  run (step ⟨0#4, false⟩) (powerOn ⟨0#4, false⟩ default) is

theorem executed_after
    (is : List In)
    (hClocked : (is.all (·.nreset)) = true)
    (hExec : ((pendingAfter is).execPending &&
      responds ((pendingAfter is).cdb 0)) = true) :
    ResponseExecuted ⟨0#4, false⟩ (pendingAfter is)
      (startedBy is) := by
  rw [Bool.and_eq_true] at hExec
  exact ⟨⟨default, is, List.all_eq_true.mp hClocked, rfl⟩,
    hExec.1, hExec.2, quiet, rfl, rfl⟩

/- A read of the FIFO register. -/
def fifoRead : In := { sel := true, rs := 0x2#4 }

/- `n` bytes by one-byte transfer informations. -/
def pioReads (n : Nat) : List In :=
  (List.replicate n
    [regWrite 0x3#4 0x10#8, quiet, quiet, fifoRead]).flatten

/- INQUIRY for 255 bytes. -/
def longInquiry : List In := cdbPending (inquiryOf 0xFF#8)

/- Three bytes one by one, the rest within a count of 252. -/
def mixedReads : List In :=
  List.replicate 40 quiet ++ pioReads 3 ++
    dmaInfo 0x00#8 0xFC#8 ++ List.replicate 4 quiet ++
    dmaReads 33

/- Go on with the log's count evaluated. -/
def forcedOffer (g : OfferLog) (k : OfferLog → Bool) : Bool :=
  forceNat g.asked fun asked => k { g with asked := asked }

theorem forcedOffer_eq (g : OfferLog) (k : OfferLog → Bool) :
    forcedOffer g k = k g := by
  simp [forcedOffer, forceNat_eq]

theorem mixedReads_ok :
    Along (step ⟨0#4, false⟩) ResponseOk
      (startedBy longInquiry) mixedReads :=
  (along_watch (step ⟨0#4, false⟩) (noteOffer ⟨0#4, false⟩)
    ResponseOk (startedBy longInquiry, nothingOffered) _).mp
    (along_of_eval forcedOffer_eq
      (fun x i => decide (ResponseOk x.1 i))
      (by simp) (by decide +kernel))

theorem response_exact_inquiry :
    Always (watch (step ⟨0#4, false⟩)
          (noteOffer ⟨0#4, false⟩))
        (ResponseKept (responseTo (pendingAfter longInquiry))
          (queue (startedBy longInquiry)))
        (startedBy longInquiry, nothingOffered) mixedReads ∧
      Along (watch (step ⟨0#4, false⟩)
          (noteOffer ⟨0#4, false⟩))
        (ResponseEnds ⟨0#4, false⟩
          (responseTo (pendingAfter longInquiry)))
        (startedBy longInquiry, nothingOffered) mixedReads ∧
      ∀ pre post x, mixedReads = pre ++ post →
        x = run (watch (step ⟨0#4, false⟩)
            (noteOffer ⟨0#4, false⟩))
          (startedBy longInquiry, nothingOffered) pre →
        3 * (responseTo (pendingAfter longInquiry)).length + 1 ≤
          enabledCount (watch (step ⟨0#4, false⟩)
              (noteOffer ⟨0#4, false⟩))
            (fun x i => readFree x.1 i) x post →
        min (x.2.offered.length + owed x.1)
            (responseTo (pendingAfter longInquiry)).length ≤
          (run (watch (step ⟨0#4, false⟩)
              (noteOffer ⟨0#4, false⟩))
            (startedBy longInquiry, nothingOffered)
            mixedReads).2.offered.length :=
  response_exact ⟨0#4, false⟩ (pendingAfter longInquiry)
    (startedBy longInquiry) mixedReads
    ⟨executed_after longInquiry (by decide +kernel)
        (by decide +kernel),
      by decide +kernel, by decide +kernel, by decide +kernel⟩
    (by decide +kernel) mixedReads_ok

/-
  What honouring an allocation length of `a` would mean: the
  first `a` bytes are offered at most, and after them, or at
  once where `a` is 0, STATUS shows.
-/
structure Honoured
    (a : Nat)
    (response : List Byte)
    (x : Chip × OfferLog) : Prop where
  offered : x.2.offered =
    (response.take a).take x.2.offered.length
  ended : x.2.offered.length = min a response.length →
    infoOpen x.1 = false → x.1.phase = .stat

theorem honoured_not_din
    {a n : Nat}
    {response : List Byte}
    {x : Chip × OfferLog}
    (hHonoured : Honoured a response x)
    (hAll : min a response.length = n)
    (hStill : (x.2.offered.length == n && !x.1.xferIn &&
      !x.1.xferPioIn && x.1.phase == .din) = true) :
    False := by
  simp only [Bool.and_eq_true, beq_iff_eq,
    Bool.not_eq_true'] at hStill
  rcases hStill with ⟨⟨⟨hOffered, hIn⟩, hPio⟩, hDin⟩
  have hStat := hHonoured.ended (hOffered.trans hAll.symm)
    (by rw [infoOpen, hIn, hPio, Bool.or_self])
  rw [hDin] at hStat
  exact Phase.noConfusion hStat

/- INQUIRY for five bytes, and for none. -/
def shortInquiry : List In := cdbPending (inquiryOf 0x05#8)

def emptyInquiry : List In := cdbPending (inquiryOf 0x00#8)

/-
  A READ is given up by a chip reset while its block is on
  the way, and an INQUIRY for 36 bytes follows.
-/
def inquiryInFlight : List In :=
  cdbPending readOne ++ List.replicate 3 quiet ++
    [regWrite 0x3#4 0x02#8] ++ cdbPending (inquiryOf 0x24#8)

/-
  The target does not: after five bytes of an INQUIRY for
  five, DATA IN still shows; and an INQUIRY for none has a
  data phase.  While a block transfer is in flight, STATUS
  may not show after the last byte.
-/
theorem allocation_not_honoured :
    (¬ ∀ (cfg : Config) (s₀ s : Chip) (is : List In),
      ResponseStarted cfg s₀ s → allClosed s →
      Along (step cfg) ResponseOk s is →
      Always (watch (step cfg) (noteOffer cfg))
        (Honoured (s₀.cdb 4).toNat (responseTo s₀))
        (s, nothingOffered) is) ∧
    (∃ s₀ s : Chip,
      ResponseStarted ⟨0#4, false⟩ s₀ s ∧ allClosed s ∧
        s₀.cdb 4 = 0x00#8 ∧ s.phase = .din) ∧
    ¬ ∀ (cfg : Config) (s₀ s : Chip) (is : List In),
      ResponseExecuted cfg s₀ s → allClosed s →
      Along (step cfg) ResponseOk s is →
      Always (watch (step cfg) (noteOffer cfg))
        (Honoured (s₀.cdb 4).toNat (responseTo s₀))
        (s, nothingOffered) is := by
  refine ⟨?_, ?_, ?_⟩
  · intro hAll
    have hRun := (@evalEdges_iff _ ⟨0#4, false⟩
      (noteOffer ⟨0#4, false⟩) _ forcedOffer_eq
      (fun x i => decide (ResponseOk x.1 i))
      (fun x => x.2.offered.length == 5 && !x.1.xferIn &&
        !x.1.xferPioIn && x.1.phase == .din)
      (List.replicate 40 quiet ++ pioReads 5)
      (startedBy shortInquiry) nothingOffered).mp
        (by decide +kernel)
    have hOk := (along_watch (step ⟨0#4, false⟩)
      (noteOffer ⟨0#4, false⟩) ResponseOk
      (startedBy shortInquiry, nothingOffered) _).mp
        (along_mono (by simp) hRun.1)
    have hEnd := hAll _ (pendingAfter shortInquiry) _ _
      ⟨executed_after shortInquiry (by decide +kernel)
          (by decide +kernel),
        by decide +kernel, by decide +kernel,
        by decide +kernel⟩
      (by decide +kernel) hOk _ (List.prefix_refl _)
    exact honoured_not_din hEnd (by decide +kernel) hRun.2
  · exact ⟨pendingAfter emptyInquiry, startedBy emptyInquiry,
      ⟨executed_after emptyInquiry (by decide +kernel)
          (by decide +kernel),
        by decide +kernel, by decide +kernel,
        by decide +kernel⟩,
      by decide +kernel, by decide +kernel, by decide +kernel⟩
  · intro hAll
    have hRun := (@evalEdges_iff _ ⟨0#4, false⟩
      (noteOffer ⟨0#4, false⟩) _ forcedOffer_eq
      (fun x i => decide (ResponseOk x.1 i))
      (fun x => x.2.offered.length == 36 && !x.1.xferIn &&
        !x.1.xferPioIn && x.1.phase == .din)
      (List.replicate 40 quiet ++ pioReads 36)
      (startedBy inquiryInFlight) nothingOffered).mp
        (by decide +kernel)
    have hOk := (along_watch (step ⟨0#4, false⟩)
      (noteOffer ⟨0#4, false⟩) ResponseOk
      (startedBy inquiryInFlight, nothingOffered) _).mp
        (along_mono (by simp) hRun.1)
    have hEnd := hAll _ (pendingAfter inquiryInFlight) _ _
      (executed_after inquiryInFlight (by decide +kernel)
        (by decide +kernel))
      (by decide +kernel) hOk _ (List.prefix_refl _)
    exact honoured_not_din hEnd (by decide +kernel) hRun.2

end Ncr53c96
