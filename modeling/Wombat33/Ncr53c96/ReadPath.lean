import Wombat33.Ncr53c96.ReadStep

/-
  The read path, end to end.

  A transfer information ends with an interrupt, the last one
  in STATUS; a READ just executed meets the invariant; and
  free edges work the transfer off.

  Key theorems include:
    * `readEnds_of_inv`
    * `readInv_start`
    * `read_progress`
    * `read_path`
-/

------------------------------------------------------------
-- Ends and Interrupts
------------------------------------------------------------

namespace Ncr53c96

variable {cfg : Config} {disk : Disk}
variable {start : BitVec 32} {count : Nat}
variable {s : Chip} {g : ReadLog} {i : In}

/- With every byte moved, the last one ends at once. -/
theorem end_over
    (hInv : ReadInv disk start count (s, g))
    (hOk : ReadOk cfg disk count (s, g) i)
    (hEmpty : PioEmpty (s, g) i)
    (hMoved : g.moved = 512 * count)
    (hFew : s.fifoCnt < 2) :
    infoOpen (clock cfg s i) = false ∧
      (clock cfg s i).phase = .stat := by
  have hBound : g.asked ≤ 512 * count := hInv.info.bound
  have hNoCmd : cmdIs i 0x10#7 = false := by
    by_contra hCmd
    rcases read_info hInv hOk (by simpa using hCmd) with
      ⟨-, -, -, hRest, hMore⟩
    have hPos := infoCount_pos s i
    omega
  have hNoPio : s.xferPioIn = false := by
    by_contra hPio
    have hOne : g.asked = g.moved + 1 :=
      (hInv.info.pio (by simpa using hPio)).1
    omega
  have hDone : s.xferIn = true → dinDone s = true := by
    intro hIn
    rw [dinDone_iff]
    refine ⟨hIn, (hInv.info.dma hIn).2.1, ?_, hFew⟩
    by_contra hZero
    rcases hInv.info.counting hIn (by simpa using hZero) with
      ⟨hPos, -, hCount⟩
    have hPos' : 0 < s.tcounter := hPos
    have hCount' : g.asked = g.moved + s.tcounter := hCount
    omega
  have hNoIn : byteIn s i = false := by
    by_contra hIn
    have hPos := (byteIn_guard hInv (by simpa using hIn)).2.1
    have hSpent : s.sbufPos = 512 :=
      (spent_of_moved hInv hMoved).2.1
    omega
  rcases info_moves hInv hOk with ⟨hIn', hPio'⟩
  simp only [hNoCmd, hNoPio, Bool.false_and,
    Bool.false_eq_true, if_false] at hIn' hPio'
  have hClosed : (clock cfg s i).xferIn = false := by
    rw [hIn']
    cases hIn : s.xferIn with
    | true => simp [hDone hIn]
    | false => rfl
  have hNext := (infoInv_step hInv hOk hEmpty).phase
  rw [noteRead_eq hInv hOk] at hNext
  simp only [hNoIn, hMoved, hClosed, Bool.false_eq_true,
    if_false, Nat.add_zero, and_self, if_true] at hNext
  exact ⟨by simp [infoOpen, hClosed, hPio'], hNext⟩

theorem readEnds_of_inv
    (x : Chip × ReadLog)
    (i : In)
    (hInv : ReadInv disk start count x)
    (hEdge : readEdge cfg disk count x i) :
    ReadEnds cfg count x i := by
  rcases x with ⟨s, g⟩
  rcases hEdge with ⟨hOk, hEmpty⟩
  have hStep := step_of_nreset cfg s i hOk.clocked
  constructor
  · rw [hStep]
    intro hOpen hClosed
    exact (din_raised (inHost_of_read hInv hOk)
      hOpen hClosed).1
  · rw [hStep]
    exact end_over hInv hOk hEmpty

end Ncr53c96

------------------------------------------------------------
-- The Start
------------------------------------------------------------

namespace Ncr53c96

variable {cfg : Config} {disk : Disk}
variable {start : BitVec 32} {count : Nat}
variable {s : Chip}

/- A READ that executes sets the range and the direction. -/
theorem clock_execRead
    {i : In}
    (hExec : execRead s = true)
    (hNotDue : flushDue s i = false) :
    (clock cfg s i).dataDirIn = true ∧
      (clock cfg s i).lba = (readStart s).1 ∧
      (clock cfg s i).blocksLeft = (readStart s).2 := by
  simp only [execRead, Bool.and_eq_true, Bool.or_eq_true,
    beq_iff_eq] at hExec
  rcases hExec with ⟨hPending, hOp | hOp⟩ <;>
    simp [clock_dataDirIn, clock_lba, clock_blocksLeft,
      readStart, hNotDue, hPending, hOp]

/- A READ just executed has everything still before it. -/
theorem readInv_start
    (hStart : ReadStarted cfg s start count)
    (hSettled : settled s) :
    ReadInv disk start count (s, nothingRead) := by
  rcases hStart with ⟨s₀, i₀, hReach, hReset, hExec, hRange,
    rfl, hCount, hRd, hWr, hAckD⟩
  have hCovered := reachable_flush_covered
    (reachable_step hReach hReset)
  rw [step_of_nreset cfg s₀ i₀ hReset]
    at hRd hWr hAckD hSettled ⊢
  rcases hSettled with ⟨hPhase, hFifo, hIn, hOut, hPioIn,
    hPioOut, hMsg, hNoCdb, hSynth⟩
  have hPending : s₀.execPending = true :=
    (Bool.and_eq_true_iff.mp hExec).1
  have hNotDue : flushDue s₀ i₀ = false := by
    by_contra hDue
    rw [clock_ioWr, if_pos (by simpa using hDue)] at hWr
    simp at hWr
  have hFree : (clock cfg s₀ i₀).flushPending = false := by
    by_contra hFlush
    rcases hCovered (by simpa using hFlush) with h | h
    · simp [hWr] at h
    · simp [hAckD] at h
  have hPos : (clock cfg s₀ i₀).sbufPos = 0 := by
    simp [clock_sbufPos, hNotDue, hPending]
  have hInvalid : (clock cfg s₀ i₀).bufValid = false := by
    simp [clock_bufValid, hPending]
  rcases @clock_execRead cfg s₀ i₀ hExec hNotDue with
    ⟨hDir, hLba, hLeft⟩
  have hNil : queue (clock cfg s₀ i₀) = [] := by
    rw [← List.length_eq_zero_iff, length_queue]
    exact hFifo
  exact {
    some := hCount
    quiet := {
      dir := hDir
      noWrite := hWr
      noFlush := hFree
      noCdb := hNoCdb
      noExec := by simp [clock_execPending, hPending]
      noSynth := hSynth
      noMsg := hMsg
      noOut := hOut
      noPioOut := hPioOut
      fifo := by simp [hFifo] }
    sector := {
      few := Nat.zero_le count
      strobes := rfl
      left := by simp [nothingRead, hLeft, hRange]
      lba := by simp [nothingRead, hLba, hRange]
      once := by simp [hRd]
      fresh := fun _ => ⟨hInvalid, rfl, hPos, hRd, hAckD⟩
      loading := by simp [nothingRead]
      valid := by simp [hInvalid] }
    info := {
      bound := Nat.zero_le _
      rest := fun _ => rfl
      dma := by simp [hIn]
      counting := by simp [hIn]
      expired := by simp [hIn]
      pio := by simp [hPioIn]
      phase := by
        have hSome : (0 : Nat) ≠ 512 * count := by omega
        simpa [nothingRead, hSome] using hPhase }
    stream := by simp [nothingRead, hNil, diskBytes] }

end Ncr53c96

------------------------------------------------------------
-- Progress
------------------------------------------------------------

namespace Ncr53c96

open Clocked

variable {cfg : Config} {disk : Disk}
variable {start : BitVec 32} {count : Nat}
variable {s : Chip} {g : ReadLog} {i : In}

/-
  No block is on its way, the FIFO has room, and neither the
  initiator nor the register interface takes the cycle.
-/
def readFree (s : Chip) (i : In) : Bool :=
  !ioBusy s i && !fifoExt i && !armPop s i &&
    !armRdIdle s i && decide (s.fifoCnt < 16)

/- The edges it takes to move what was asked for. -/
def readWork (count : Nat) (x : Chip × ReadLog) : Nat :=
  2 * (512 * count - x.2.moved) +
    (count - x.2.strobes.length) +
    if sbufRdOk x.1 then 0 else 1

/- The read-ahead follows unless the word changes. -/
theorem read_sbufRdOk
    (hInv : ReadInv disk start count (s, g))
    (hOk : ReadOk cfg disk count (s, g) i)
    (hSame : posWord (clock cfg s i) = posWord s) :
    sbufRdOk (clock cfg s i) = true := by
  have hSynth : s.synthLen = 0 := hInv.quiet.noSynth
  rw [sbufRdOk, hSame, clock_eqAddr, clock_eqWr,
    read_weE hInv hOk]
  simp [addrE, synthOn, hSynth]

/- An edge never adds work, and a useful edge takes some. -/
theorem readWork_le
    (hInv : ReadInv disk start count (s, g))
    (hOk : ReadOk cfg disk count (s, g) i) :
    readWork count (clock cfg s i, noteRead cfg g s i) +
        (if prefetchDue s i || byteIn s i || !sbufRdOk s then 1
          else 0) ≤
      readWork count (s, g) := by
  have hFew : g.strobes.length ≤ count := hInv.sector.few
  rcases read_moves hInv hOk with ⟨-, -, -, hPos'⟩
  rw [noteRead_eq hInv hOk]
  simp only [readWork]
  cases hIn : byteIn s i with
  | true =>
      -- the next byte may lie in the next word
      have hNotDue := (byteIn_alone hInv hIn).1
      have hRead : sbufRdOk s = true := by
        simp only [byteIn, Bool.or_eq_true] at hIn
        rcases hIn with h | h
        · exact (guard_fill s i (by
            simpa [armFill_eq] using h)).2.2.2.2.2
        · exact (guard_pioIn s i (by
            simpa [armPioIn_eq] using h)).2.2.2
      have hMore : g.moved < 512 * count := by
        rcases byteIn_guard hInv hIn with ⟨hValid, hPos, -⟩
        have hCount : g.moved + 512 =
            512 * g.strobes.length + s.sbufPos :=
          (hInv.sector.valid hValid).2.2.2.1
        omega
      simp only [hNotDue, hRead, List.append_nil,
        Bool.false_eq_true, if_false, if_true, Bool.false_or,
        Bool.not_true, Bool.or_false]
      split <;> omega
  | false =>
      have hSame : posWord (clock cfg s i) = posWord s := by
        rw [posWord, posWord, hPos']
        cases hPublish : publish s i with
        | false => simp [hIn]
        | true =>
            -- a sector is published at position 0 or 512
            have hAckD := (publish_iff.mp hPublish).1
            have hInvalid : s.bufValid = false := by
              by_contra hValid
              have hNo : s.ioAckD = false :=
                (hInv.sector.valid
                  (by simpa using hValid)).2.2.2.2.2.1
              simp [hNo] at hAckD
            have hSome : 0 < g.strobes.length := by
              apply Nat.pos_of_ne_zero
              intro hFresh
              have hNo : s.ioAckD = false :=
                (hInv.sector.fresh hFresh).2.2.2.2
              simp [hNo] at hAckD
            rcases (hInv.sector.loading hInvalid
              hSome).2.2.1 with h | h
            · simp [hIn, show s.sbufPos = 0 from h]
            · simp [hIn, show s.sbufPos = 512 from h]
      have hRead := read_sbufRdOk hInv hOk hSame
      simp only [hRead, Bool.false_eq_true, if_false, if_true,
        Nat.add_zero, Bool.or_false]
      cases hDue : prefetchDue s i with
      | true =>
          have hLeft : s.blocksLeft = count - g.strobes.length :=
            hInv.sector.left
          have hMore := (prefetchDue_iff.mp hDue).2.2.1
          simp only [if_true, List.length_append,
            List.length_singleton, Bool.true_or]
          omega
      | false =>
          cases sbufRdOk s <;> simp

/- An open transfer information takes a byte that is ready. -/
theorem byteIn_of_free
    (hInv : ReadInv disk start count (s, g))
    (hFree : readFree s i = true)
    (hMore : g.moved < g.asked)
    (hAvail : byteAvail s = true)
    (hRead : sbufRdOk s = true)
    (hOk : ReadOk cfg disk count (s, g) i) :
    byteIn s i = true := by
  simp only [readFree, Bool.and_eq_true, Bool.not_eq_true',
    decide_eq_true_eq] at hFree
  rcases hFree with ⟨⟨⟨⟨-, hExt⟩, hNoPop⟩, hNoIdle⟩, hRoom⟩
  have hNoWr : i.dmaWr = false := hOk.noDmaWrite
  have hNoCdb : s.cdbActive = false := hInv.quiet.noCdb
  have hNoOut : s.xferOut = false := hInv.quiet.noOut
  have hNoPioOut : s.xferPioOut = false := hInv.quiet.noPioOut
  have hNoDma : noDmaArm s i = true := by
    simp [noDmaArm, hNoPop, hNoIdle, armCdbDma, armOutDma,
      armSwallow, engWr, hNoWr]
  have hNoDrain : armDrain s i = false := by
    simp [armDrain, hNoOut, hNoPioOut]
  rw [byteIn_eq hInv]
  cases hIn : s.xferIn with
  | true =>
      have hActive : s.dmaActive = true :=
        (hInv.info.dma hIn).2.2
      have hZero : s.tcZero = false := by
        by_contra hZero
        have hAll : g.asked = g.moved :=
          hInv.info.expired hIn (by simpa using hZero)
        omega
      simp [armFill, armCdbFf, hExt, hNoDma, hNoCdb, hNoDrain,
        hIn, hActive, hZero, hRoom, hAvail, hRead]
  | false =>
      have hPio : s.xferPioIn = true := by
        by_contra hPio
        have hRest : g.asked = g.moved :=
          hInv.info.rest (by
            simpa [infoOpen, hIn] using hPio)
        omega
      have hEmpty : s.fifoCnt = 0 := (hInv.info.pio hPio).2
      simp [armPioIn, armFill, armCdbFf, hExt, hNoDma, hNoCdb,
        hNoDrain, hIn, hPio, hEmpty, hAvail, hRead]

/- A free edge with bytes to come takes some of the work. -/
theorem works_of_readFree
    (hInv : ReadInv disk start count (s, g))
    (hOk : ReadOk cfg disk count (s, g) i)
    (hFree : readFree s i = true)
    (hMore : g.moved < g.asked) :
    (prefetchDue s i || byteIn s i || !sbufRdOk s) = true := by
  have hBound : g.asked ≤ 512 * count := hInv.info.bound
  cases hRead : sbufRdOk s with
  | false => simp
  | true =>
      have hIdle : ioBusy s i = false := by
        simp only [readFree, Bool.and_eq_true,
          Bool.not_eq_true'] at hFree
        exact hFree.1.1.1.1
      cases hAvail : byteAvail s with
      | true =>
          have hIn := byteIn_of_free hInv hFree hMore hAvail
            hRead hOk
          simp [hIn]
      | false =>
          -- the sector is spent, and blocks are left
          have hPhase : s.phase =
              if g.moved = 512 * count ∧ s.xferIn = false then
                .stat
              else .din := hInv.info.phase
          rw [if_neg (by omega)] at hPhase
          have hDir : s.dataDirIn = true := hInv.quiet.dir
          have hLeft : s.blocksLeft ≠ 0 := by
            intro hZero
            have hDone : sourceDone s i = true := by
              rw [sourceDone_iff]
              have hSynth : s.synthLen = 0 :=
                hInv.quiet.noSynth
              exact ⟨hAvail, hZero, hIdle,
                by simp [synthOn, hSynth]⟩
            have hAll := (read_sourceDone hInv hOk).mp hDone
            omega
          have hSpent : s.bufValid = false ∨
              s.sbufLen ≤ s.sbufPos := by
            simpa [byteAvail, or_iff_not_imp_left]
              using hAvail
          have hDue : prefetchDue s i = true :=
            prefetchDue_iff.mpr
              ⟨hPhase, hDir, hLeft, hIdle, hSpent⟩
          simp [hDue]

/- The invariant, with at least `n` bytes asked for. -/
def Asked
    (disk : Disk)
    (start : BitVec 32)
    (count n : Nat)
    (x : Chip × ReadLog) : Prop :=
  ReadInv disk start count x ∧ n ≤ x.2.asked

theorem asked_step
    {n : Nat}
    (x : Chip × ReadLog)
    (i : In)
    (hAsked : Asked disk start count n x)
    (hEdge : readEdge cfg disk count x i) :
    Asked disk start count n
      (watch (step cfg) (noteRead cfg) x i) :=
  ⟨readInv_step x i hAsked.1 hEdge,
    Nat.le_trans hAsked.2 (Nat.le_add_right _ _)⟩

/- The work left until `n` bytes are moved. -/
def workUntil
    (count n : Nat)
    (x : Chip × ReadLog) : Nat :=
  if n ≤ x.2.moved then 0 else readWork count x

/- It never grows, and a free edge takes some of it. -/
theorem workUntil_le
    {n : Nat}
    (x : Chip × ReadLog)
    (i : In)
    (hAsked : Asked disk start count n x)
    (hEdge : readEdge cfg disk count x i) :
    workUntil count n (watch (step cfg) (noteRead cfg) x i) +
        (if readFree x.1 i && decide (x.2.moved < n) then 1
          else 0) ≤
      workUntil count n x := by
  rcases x with ⟨s, g⟩
  rcases hAsked with ⟨hInv, hAsked⟩
  have hWork := readWork_le hInv hEdge.1
  show workUntil count n (step cfg s i, noteRead cfg g s i) +
    _ ≤ _
  rw [step_of_nreset cfg s i hEdge.1.clocked]
  simp only [workUntil]
  by_cases hDone : n ≤ g.moved
  · have hStill : n ≤ (noteRead cfg g s i).moved :=
      Nat.le_trans hDone (Nat.le_add_right _ _)
    simp [hDone, hStill]
  · rw [if_neg hDone]
    have hMore : g.moved < g.asked :=
      Nat.lt_of_lt_of_le (Nat.lt_of_not_le hDone) hAsked
    have hLess : g.moved < n := Nat.lt_of_not_le hDone
    cases hFree : readFree s i with
    | false =>
        simp only [Bool.false_and, Bool.false_eq_true,
          if_false]
        split <;> omega
    | true =>
        rw [if_pos (works_of_readFree hInv hEdge.1 hFree hMore)]
          at hWork
        simp only [Bool.true_and, hLess, decide_true, if_true]
        split <;> omega

/-
  Of the bytes asked for, as many free edges as there is work
  left leave none that is not moved.
-/
theorem read_progress
    {x : Chip × ReadLog}
    {is : List In}
    (hInv : ReadInv disk start count x)
    (hEdge : Along (watch (step cfg) (noteRead cfg))
      (readEdge cfg disk count) x is)
    (hFree : readWork count x ≤
      enabledCount (watch (step cfg) (noteRead cfg))
        (fun x i => readFree x.1 i) x is) :
    x.2.asked ≤
      (run (watch (step cfg) (noteRead cfg)) x is).2.moved := by
  have hAsked : Asked disk start count x.2.asked x :=
    ⟨hInv, Nat.le_refl _⟩
  have hEnd := invariant_run asked_step hEdge hAsked
  have hNone : workUntil count x.2.asked
      (run (watch (step cfg) (noteRead cfg)) x is) = 0 := by
    apply @measure_exhausted _ _ _ _
      (Asked disk start count x.2.asked)
      (fun x i => readFree x.1 i)
      (workUntil count x.2.asked)
      asked_step _ _ x is hEdge hAsked
    · refine Nat.le_trans ?_ hFree
      unfold workUntil
      split
      · exact Nat.zero_le _
      · exact Nat.le_refl _
    · intro y i hInv hOk
      exact Nat.le_trans (Nat.le_add_right _ _)
        (workUntil_le y i hInv hOk)
    · intro y i hInv hOk hEnabled hWork
      have hLess : y.2.moved < x.2.asked := by
        apply Nat.lt_of_not_le
        intro hDone
        simp [workUntil, hDone] at hWork
      have hStep := workUntil_le y i hInv hOk
      rw [if_pos (by simp [hEnabled, hLess])] at hStep
      exact Nat.lt_of_succ_le hStep
  rw [workUntil] at hNone
  split at hNone
  next hDone => exact hDone
  next =>
      have hBound := hEnd.1.info.bound
      have hAll := hEnd.2
      simp only [readWork] at hNone
      omega

end Ncr53c96

------------------------------------------------------------
-- The Read Path
------------------------------------------------------------

namespace Ncr53c96

open Clocked

/-
  From a READ that starts with nothing left over, every run
  under the contract whose one-byte transfer informations
  find the FIFO empty hands over the blocks of its range in
  order; every transfer information ends with an interrupt,
  the last one in STATUS; and what was asked for at any time
  is moved after a bounded number of free edges.
-/
theorem read_path
    (cfg : Config)
    (disk : Disk)
    (start : BitVec 32)
    (count : Nat)
    (s : Chip)
    (is : List In)
    (hStart : ReadStarted cfg s start count)
    (hSettled : settled s)
    (hOk : Along (watch (step cfg) (noteRead cfg))
      (ReadOk cfg disk count) (s, nothingRead) is)
    (hEmpty : Along (watch (step cfg) (noteRead cfg))
      PioEmpty (s, nothingRead) is) :
    Always (watch (step cfg) (noteRead cfg))
        (ReadKept disk start count) (s, nothingRead) is ∧
      Along (watch (step cfg) (noteRead cfg))
        (ReadEnds cfg count) (s, nothingRead) is ∧
      ∀ pre post x, is = pre ++ post →
        x = run (watch (step cfg) (noteRead cfg))
          (s, nothingRead) pre →
        1025 * count + 1 ≤
          enabledCount (watch (step cfg) (noteRead cfg))
            (fun x i => readFree x.1 i) x post →
        x.2.asked ≤
          (run (watch (step cfg) (noteRead cfg))
            (s, nothingRead) is).2.moved := by
  have hInv : ReadInv disk start count (s, nothingRead) :=
    readInv_start hStart hSettled
  have hEdge := along_and.mpr ⟨hOk, hEmpty⟩
  refine ⟨?_, ?_, ?_⟩
  · exact always_mono (fun _ => readKept_of_inv)
      (always_of_along readInv_step hEdge hInv)
  · exact along_of_invariant readInv_step readEnds_of_inv
      hEdge hInv
  · rintro pre post x rfl rfl hFree
    rcases (along_append _ _ _).mp hEdge with ⟨hPre, hPost⟩
    rw [run_append]
    apply read_progress
      (invariant_run readInv_step hPre hInv) hPost
    refine Nat.le_trans ?_ hFree
    unfold readWork
    split <;> omega

/- The log's next value, from the lean step. -/
def noteReadQuick
    (cfg : Config)
    (g : ReadLog)
    (s : Chip)
    (i : In) : ReadLog :=
  let n := stepQuick cfg s i
  let strobe := !s.ioRd && n.ioRd
  { asked :=
      g.asked + if cmdIs i 0x10#7 then infoCount s i else 0
    moved := g.moved + if byteIn s i then 1 else 0
    taken := g.taken ++ delivered cfg s i
    strobes := g.strobes ++ if strobe then [n.ioLba] else []
    written :=
      if strobe then 0#256
      else if i.sdBuffWr then
        g.written ||| 1#256 <<< i.sdBuffAddr.toNat
      else g.written }

theorem noteReadQuick_eq (cfg : Config) :
    noteReadQuick cfg = noteRead cfg := by
  funext g s i
  simp only [noteReadQuick, stepQuick_eq]
  rfl

/- Go on with the log's counters evaluated. -/
def forcedRead (g : ReadLog) (k : ReadLog → Bool) : Bool :=
  forceNat g.asked fun asked =>
  forceNat g.moved fun moved =>
  forceNat g.written.toNat fun written =>
  k { g with
    asked := asked, moved := moved
    written := BitVec.ofNat 256 written }

theorem forcedRead_eq (g : ReadLog) (k : ReadLog → Bool) :
    forcedRead g k = k g := by
  simp [forcedRead, forceNat_eq]

/- `cdb` preloaded and selected, up to the edge it executes. -/
def cdbPending (cdb : List Byte) : List In :=
  [mountImage] ++ cdb.map (regWrite 0x2#4) ++
    [regWrite 0x3#4 0x41#8] ++ List.replicate 7 quiet

/- READ(6) of one block at 5. -/
def readOne : List Byte :=
  [0x08#8, 0x00#8, 0x00#8, 0x05#8, 0x01#8, 0x00#8]

/- A disk on which byte `j` of each block is `j` modulo 256. -/
def countingDisk : Disk := fun _ j => BitVec.ofNat 8 j

/- The platform serves a block of it, word after word. -/
def serveBlock : List In :=
  (List.range 256).map fun k =>
    { ioAck := true, sdBuffWr := true
      sdBuffAddr := BitVec.ofNat 8 k
      sdBuffDout :=
        BitVec.ofNat 8 (2 * k + 1) ++ BitVec.ofNat 8 (2 * k) }

/- The count is loaded and a pseudo-DMA transfer opened. -/
def dmaInfo (hi lo : Byte) : List In :=
  [regWrite 0x1#4 hi, regWrite 0x0#4 lo, regWrite 0x3#4 0x90#8]

/- `n` bytes read by pseudo-DMA, with a cycle to fill each. -/
def dmaReads (n : Nat) : List In :=
  (List.replicate n [{ dmaRd := true }, quiet]).flatten

theorem readStarted_readOne :
    ReadStarted ⟨0#4, false⟩ (startedBy (cdbPending readOne))
      5#32 1 :=
  ⟨_, quiet,
    ⟨default, cdbPending readOne, by decide +kernel, rfl⟩,
    rfl, by decide +kernel, by decide +kernel, rfl,
    by decide, by decide +kernel, by decide +kernel,
    by decide +kernel⟩

/- A block is served, and its first two bytes are taken. -/
def firstBytes : List In :=
  dmaInfo 0x02#8 0x00#8 ++ serveBlock ++
    List.replicate 4 quiet ++ dmaReads 2

theorem read_path_firstBytes :
    Always (watch (step ⟨0#4, false⟩) (noteRead ⟨0#4, false⟩))
        (ReadKept countingDisk 5#32 1)
        (startedBy (cdbPending readOne), nothingRead)
        firstBytes ∧
      Along (watch (step ⟨0#4, false⟩) (noteRead ⟨0#4, false⟩))
        (ReadEnds ⟨0#4, false⟩ 1)
        (startedBy (cdbPending readOne), nothingRead)
        firstBytes ∧
      ∀ pre post x, firstBytes = pre ++ post →
        x = run (watch (step ⟨0#4, false⟩)
            (noteRead ⟨0#4, false⟩))
          (startedBy (cdbPending readOne), nothingRead) pre →
        1025 * 1 + 1 ≤
          enabledCount (watch (step ⟨0#4, false⟩)
              (noteRead ⟨0#4, false⟩))
            (fun x i => readFree x.1 i) x post →
        x.2.asked ≤
          (run (watch (step ⟨0#4, false⟩)
              (noteRead ⟨0#4, false⟩))
            (startedBy (cdbPending readOne), nothingRead)
            firstBytes).2.moved :=
  read_path ⟨0#4, false⟩ countingDisk 5#32 1
    (startedBy (cdbPending readOne)) firstBytes
    readStarted_readOne (by decide +kernel)
    (along_of_eval forcedRead_eq
      (fun x i =>
        decide (ReadOk ⟨0#4, false⟩ countingDisk 1 x i))
      (by simp) (by decide +kernel))
    (along_of_eval forcedRead_eq
      (fun x i => decide (PioEmpty x i))
      (by simp) (by decide +kernel))

/-
  511 bytes by pseudo-DMA, of which one stays in the FIFO, and
  a one-byte transfer information for the last byte: the byte
  that waits answers it.
-/
def oddThenOne : List In :=
  dmaInfo 0x01#8 0xFF#8 ++ serveBlock ++
    List.replicate 4 quiet ++ dmaReads 510 ++
    [regWrite 0x3#4 0x10#8, quiet]

/-
  Both conditions are needed: a one-byte transfer information
  that finds a byte in the FIFO moves none, and bytes left
  behind the CDB are read first.
-/
theorem read_not_always_exact :
    (¬ ∀ (cfg : Config) (disk : Disk) (start : BitVec 32)
      (count : Nat) (s : Chip) (is : List In),
      ReadStarted cfg s start count → settled s →
      Along (watch (step cfg) (noteRead cfg))
        (ReadOk cfg disk count) (s, nothingRead) is →
      Always (watch (step cfg) (noteRead cfg))
        (ReadKept disk start count) (s, nothingRead) is) ∧
    ¬ ∀ (cfg : Config) (disk : Disk) (start : BitVec 32)
      (count : Nat) (s : Chip) (is : List In),
      ReadStarted cfg s start count →
      Along (watch (step cfg) (noteRead cfg))
        (ReadOk cfg disk count) (s, nothingRead) is →
      Along (watch (step cfg) (noteRead cfg))
        PioEmpty (s, nothingRead) is →
      Always (watch (step cfg) (noteRead cfg))
        (ReadKept disk start count) (s, nothingRead) is := by
  constructor
  · intro hAll
    have hRun := (@evalEdges_iff _ ⟨0#4, false⟩
      (noteRead ⟨0#4, false⟩) _ forcedRead_eq
      (fun x i =>
        decide (ReadOk ⟨0#4, false⟩ countingDisk 1 x i))
      (fun x => x.2.asked == 512 && !x.1.xferIn &&
        !x.1.xferPioIn && x.2.moved != 512)
      oddThenOne (startedBy (cdbPending readOne))
      nothingRead).mp (by
        rw [← noteReadQuick_eq]
        decide +kernel)
    have hEnd := hAll _ countingDisk _ _ _ oddThenOne
      readStarted_readOne (by decide +kernel)
      (along_mono (by simp) hRun.1) _ (List.prefix_refl _)
    have hTest := hRun.2
    simp only [Bool.and_eq_true, beq_iff_eq,
      Bool.not_eq_true', bne_iff_ne] at hTest
    rcases hTest with ⟨⟨⟨hAsked, hIn⟩, hPio⟩, hMoved⟩
    exact hMoved (hEnd.all hAsked hIn hPio).1
  · intro hAll
    have hStart : ReadStarted ⟨0#4, false⟩
        (startedBy (cdbPending (readOne ++ [0xAA#8, 0xAA#8])))
        5#32 1 :=
      ⟨_, quiet,
        ⟨default, cdbPending (readOne ++ [0xAA#8, 0xAA#8]),
          by decide +kernel, rfl⟩,
        rfl, by decide +kernel, by decide +kernel, rfl,
        by decide, by decide +kernel, by decide +kernel,
        by decide +kernel⟩
    have hEnd := hAll _ countingDisk _ _ _ [] hStart
      (along_nil _) (along_nil _) _ (List.prefix_refl _)
    have hLength := congrArg List.length hEnd.bytes
    revert hLength
    decide +kernel

end Ncr53c96
