import Wombat33.Ncr53c96.WriteEdge

/-
  The write path, end to end.

  An edge of a write arms a flush, drains a byte into the
  buffer, or only takes what the initiator supplies; each
  keeps the stream invariant.

  Key theorems include:
    * `writeInv_step`
    * `write_path`
-/

------------------------------------------------------------
-- Groups of the Supplied Bytes
------------------------------------------------------------

namespace Ncr53c96

open Clocked

/- Bytes supplied later leave a group as it is. -/
theorem groupByte_append
    {bytes : List Byte} {k j : Nat} {b : Byte}
    (more : List Byte)
    (h : groupByte bytes k j = some b) :
    groupByte (bytes ++ more) k j = some b := by
  unfold groupByte at h ⊢
  rcases List.getElem?_eq_some_iff.mp h with ⟨hLt, -⟩
  rw [List.getElem?_append_left hLt, h]

end Ncr53c96

------------------------------------------------------------
-- The Step Lemma
------------------------------------------------------------

namespace Ncr53c96

open Clocked

variable {cfg : Config} {start : BitVec 32} {count : Nat}
variable {s : Chip} {g : SupplyLog} {i : In}

theorem noteSupply_eq
    (hInv : WriteInv start count (s, g))
    (hOk : WriteOk cfg count (s, g) i) :
    noteSupply cfg g s i =
      ⟨g.bytes ++ taken s i,
        g.blocks ++ if flushDue s i then [s.lba] else []⟩ := by
  unfold noteSupply
  rw [writeStrobe_eq cfg hOk.clocked, supplied_eq hInv hOk,
    step_of_nreset cfg s i hOk.clocked]
  cases hDue : flushDue s i with
  | true => simp [clock_ioLba, hDue]
  | false => rfl

/- The buffer is full: the block is strobed. -/
theorem writeInv_flush
    (hInv : WriteInv start count (s, g))
    (hOk : WriteOk cfg count (s, g) i)
    (hDue : flushDue s i = true) :
    WriteInv start count
      (clock cfg s i,
        ⟨g.bytes ++ taken s i, g.blocks ++ [s.lba]⟩) := by
  have hFull : s.sbufPos = 512 := (flushDue_iff.mp hDue).2.1
  have hNoDrain : armDrain s i = false := by
    rw [armDrain_eq]
    by_contra hArm
    have hGuard := guard_drain s i (by simpa using hArm)
    omega
  have hFew := write_left hInv hFull
  have hTotal : g.bytes.length =
      512 * g.blocks.length + s.sbufPos + s.fifoCnt :=
    hInv.total
  have hQueue := (write_queue hInv hOk).2 hNoDrain
  have hCount : (clock cfg s i).fifoCnt =
      s.fifoCnt + (taken s i).length := by
    rw [← length_queue, hQueue]
    simp
  have hMoves := write_moves hInv hOk
  simp only [hDue, hNoDrain, if_true] at hMoves
  rcases hMoves with ⟨hLeft, hLba, hPos⟩
  have hMem : (clock cfg s i).mem = s.mem := by
    simp [write_mem hInv hOk, hNoDrain]
  have hOldLeft : s.blocksLeft = count - g.blocks.length :=
    hInv.left
  have hOldLba : s.lba =
      start + BitVec.ofNat 32 g.blocks.length := hInv.lba
  have hOldPhase : s.phase =
      if g.blocks.length < count then .dout else .stat :=
    hInv.phase
  have hBlocks : g.blocks =
      (List.range g.blocks.length).map
        (fun k => start + BitVec.ofNat 32 k) := hInv.blocks
  exact {
    toWriteQuiet := writeQuiet_clock hInv hOk
    few := by
      simp only [List.length_append, List.length_singleton]
      exact hFew
    blocks := by
      simp only [List.length_append, List.length_singleton]
      rw [← blocks_snoc, ← hBlocks, ← hOldLba]
    left := by
      simp only [List.length_append, List.length_singleton]
      omega
    lba := by
      simp only [List.length_append, List.length_singleton]
      rw [hLba, hOldLba, next_block]
    phase := by
      simp only [List.length_append, List.length_singleton]
      rw [write_phase hInv hOk, hDue, hOldPhase, if_pos hFew,
        hOldLeft]
      by_cases hLast : count - g.blocks.length = 1
      · rw [if_pos (by simp [hLast]), if_neg (by omega)]
      · rw [if_neg (by simp [hLast]), if_pos (by omega)]
    pos := by simp [hPos]
    full := by simp [hPos]
    empty := by simp [hPos]
    total := by
      simp only [List.length_append, List.length_singleton]
      omega
    stream := by
      have hOld : queue s = g.bytes.drop
          (512 * g.blocks.length + s.sbufPos) := hInv.stream
      simp only [List.length_append, List.length_singleton]
      rw [hQueue, hOld, hPos, hFull,
        List.drop_append_of_le_length (by omega)]
      rfl
    buffer := by simp [hPos]
    flushed := by
      intro _ j hj
      have hOld : groupByte g.bytes g.blocks.length j =
          some (bufByte s.mem j) :=
        hInv.buffer j (by rw [hFull]; exact hj)
      rw [hMem]
      simpa using groupByte_append (taken s i) hOld
    bound := by
      have hBound := hOk.bound
      rw [supplied_eq hInv hOk] at hBound
      simpa using hBound }

/- The FIFO's head goes into the buffer. -/
theorem writeInv_drain
    (hInv : WriteInv start count (s, g))
    (hOk : WriteOk cfg count (s, g) i)
    (hDrain : armDrain s i = true) :
    WriteInv start count (clock cfg s i, g) := by
  have hArm : arm s i = .drain := by
    simpa [armDrain_eq] using hDrain
  rcases guard_drain s i hArm with
    ⟨hOpen, hLive, hFree, hRoom⟩
  have hNotDue : flushDue s i = false := by
    rw [write_flushDue hInv hOk]
    simp [Nat.ne_of_lt hRoom]
  have hTotal : g.bytes.length =
      512 * g.blocks.length + s.sbufPos + s.fifoCnt :=
    hInv.total
  have hStream : queue s = g.bytes.drop
      (512 * g.blocks.length + s.sbufPos) := hInv.stream
  rcases (write_queue hInv hOk).1 hDrain with
    ⟨-, hQueue⟩
  have hCount : (clock cfg s i).fifoCnt = s.fifoCnt - 1 := by
    rw [← length_queue, hQueue]
    simp
  have hHead : g.bytes[512 * g.blocks.length + s.sbufPos]? =
      some (s.fifo 0) := by
    have hFirst : (queue s)[0]? = some (s.fifo 0) := by
      rcases Nat.exists_eq_succ_of_ne_zero hLive with ⟨m, hm⟩
      rw [queue, hm, contents_succ_head]
      rfl
    rw [hStream, List.getElem?_drop] at hFirst
    simpa using hFirst
  have hMoves := write_moves hInv hOk
  simp only [hNotDue, hDrain, Bool.false_eq_true, if_false,
    if_true] at hMoves
  rcases hMoves with ⟨hLeft, hLba, hPos⟩
  have hMem := write_mem hInv hOk
  rw [if_pos hDrain] at hMem
  have hStillFree : (clock cfg s i).flushPending = false := by
    simp [clock_flushPending, hNotDue, hFree]
  exact {
    toWriteQuiet := writeQuiet_clock hInv hOk
    few := hInv.few
    blocks := hInv.blocks
    left := hLeft.trans hInv.left
    lba := hLba.trans hInv.lba
    phase := by
      rw [write_phase hInv hOk, hNotDue]
      simpa using hInv.phase
    pos := by simp only [hPos]; omega
    full := by
      intro _
      refine ⟨hStillFree, ?_⟩
      -- the transfer stays open while the FIFO holds a byte
      have hCmd : ∀ op, cmdIs i op = false := by
        intro op
        apply cmdIs_of_not_regWr
        cases hExt : fifoExt i with
        | true => simp [arm_of_fifoExt s i hExt] at hArm
        | false => exact (regs_of_not_fifoExt hExt).2.1
      have hNotDone : doutDone s i = false := by
        simp [doutDone, hLive]
      have hNotPio : pioOutDone s = false := by
        simp [pioOutDone, hLive]
      simpa [clock_xferOut, clock_xferPioOut, hCmd, hNotDone,
        hNotPio] using hOpen
    empty := by simp [hStillFree]
    total := by
      simp only [hPos, hCount]
      omega
    stream := by
      simp only [hPos]
      rw [hQueue, hStream, List.tail_drop, Nat.add_assoc]
    buffer := by
      intro j hj
      simp only [hPos] at hj
      rw [show (clock cfg s i, g).1.mem = _ from hMem, posWord,
        bufByte_update s.mem _ hRoom (by omega)]
      by_cases hNew : j = s.sbufPos
      · rw [if_pos hNew, hNew]
        exact hHead
      · rw [if_neg hNew]
        exact hInv.buffer j
          (Nat.lt_of_le_of_ne (Nat.le_of_lt_succ hj) hNew)
    flushed := by simp [hStillFree]
    bound := hInv.bound }

/- The buffer stays as it is. -/
theorem writeInv_hold
    (hInv : WriteInv start count (s, g))
    (hOk : WriteOk cfg count (s, g) i)
    (hNotDue : flushDue s i = false)
    (hNoDrain : armDrain s i = false) :
    WriteInv start count
      (clock cfg s i, ⟨g.bytes ++ taken s i, g.blocks⟩) := by
  have hTotal : g.bytes.length =
      512 * g.blocks.length + s.sbufPos + s.fifoCnt :=
    hInv.total
  have hStream : queue s = g.bytes.drop
      (512 * g.blocks.length + s.sbufPos) := hInv.stream
  have hQueue := (write_queue hInv hOk).2 hNoDrain
  have hCount : (clock cfg s i).fifoCnt =
      s.fifoCnt + (taken s i).length := by
    rw [← length_queue, hQueue]
    simp
  have hMoves := write_moves hInv hOk
  simp only [hNotDue, hNoDrain, Bool.false_eq_true, if_false]
    at hMoves
  rcases hMoves with ⟨hLeft, hLba, hPos⟩
  have hMem : (clock cfg s i).mem = s.mem := by
    simp [write_mem hInv hOk, hNoDrain]
  have hNotFull : s.sbufPos ≠ 512 := by
    simpa [write_flushDue hInv hOk] using hNotDue
  have hOnlyOld : (clock cfg s i).flushPending = true →
      s.flushPending = true := by
    rw [clock_flushPending, hNotDue]
    cases ackFall s i <;> simp
  exact {
    toWriteQuiet := writeQuiet_clock hInv hOk
    few := hInv.few
    blocks := hInv.blocks
    left := hLeft.trans hInv.left
    lba := hLba.trans hInv.lba
    phase := by
      rw [write_phase hInv hOk, hNotDue]
      simpa using hInv.phase
    pos := by
      rw [hPos]
      exact hInv.pos
    full := by simp [hPos, hNotFull]
    empty := by
      intro hPending
      rw [hPos]
      exact hInv.empty (hOnlyOld hPending)
    total := by
      simp only [hPos, hCount, List.length_append]
      omega
    stream := by
      show queue (clock cfg s i) =
        (g.bytes ++ taken s i).drop
          (512 * g.blocks.length + (clock cfg s i).sbufPos)
      rw [hPos, hQueue, hStream,
        List.drop_append_of_le_length (by omega)]
    buffer := by
      intro j hj
      rw [hPos] at hj
      rw [hMem]
      exact groupByte_append _ (hInv.buffer j hj)
    flushed := by
      intro hPending j hj
      rw [hMem]
      exact groupByte_append _
        (hInv.flushed (hOnlyOld hPending) j hj)
    bound := by
      have hBound := hOk.bound
      rw [supplied_eq hInv hOk] at hBound
      simpa using hBound }

/- Every edge of a write keeps the invariant. -/
theorem writeInv_step
    (x : Chip × SupplyLog)
    (i : In)
    (hInv : WriteInv start count x)
    (hOk : WriteOk cfg count x i) :
    WriteInv start count
      (watch (step cfg) (noteSupply cfg) x i) := by
  rcases x with ⟨s, g⟩
  show WriteInv start count
    (step cfg s i, noteSupply cfg g s i)
  rw [step_of_nreset cfg s i hOk.clocked,
    noteSupply_eq hInv hOk]
  cases hDue : flushDue s i with
  | true => simpa using writeInv_flush hInv hOk hDue
  | false =>
      cases hDrain : armDrain s i with
      | true =>
          have hNone :=
            ((write_queue hInv hOk).1 hDrain).1
          simpa [hNone] using writeInv_drain hInv hOk hDrain
      | false =>
          simpa using writeInv_hold hInv hOk hDue hDrain

end Ncr53c96

------------------------------------------------------------
-- The Start
------------------------------------------------------------

namespace Ncr53c96

open Clocked

variable {cfg : Config} {start : BitVec 32} {count : Nat}
variable {s : Chip}

/- A WRITE that executes turns the data direction out. -/
theorem clock_dataDirIn_of_execWrite
    {i : In} (hExec : execWrite s = true) :
    (clock cfg s i).dataDirIn = false := by
  simp only [execWrite, Bool.and_eq_true, Bool.or_eq_true,
    beq_iff_eq] at hExec
  rcases hExec with ⟨hPending, hOp | hOp⟩ <;>
    simp [clock_dataDirIn, hPending, hOp]

/- A WRITE just executed has everything still before it. -/
theorem writeInv_start
    (hStart : WriteStarted cfg s start count)
    (hClear : untangled s) :
    WriteInv start count (s, supplyStart s) := by
  rcases hStart with ⟨s₀, i₀, hReach, hReset, hExec, hRange,
    rfl, hCount, hRd, hWr, hAckD⟩
  have hFifo := reachable_fifoCnt_le
    (reachable_step hReach hReset)
  have hCovered := reachable_flush_covered
    (reachable_step hReach hReset)
  rw [step_of_nreset cfg s₀ i₀ hReset] at hRd hWr hAckD hClear ⊢
  rcases hClear with ⟨hPhase, hMsg, hNoCdb, hSynth⟩
  have hPending : s₀.execPending = true :=
    (Bool.and_eq_true_iff.mp hExec).1
  have hNotDue : flushDue s₀ i₀ = false := by
    by_contra hDue
    rw [clock_ioWr, if_pos (by simpa using hDue)] at hWr
    simp at hWr
  have hFree : (clock cfg s₀ i₀).flushPending = false := by
    by_contra hFlush
    rcases hCovered (by simpa using hFlush) with h | h
    · rw [hWr] at h
      simp at h
    · rw [hAckD] at h
      simp at h
  have hPos : (clock cfg s₀ i₀).sbufPos = 0 := by
    simp [clock_sbufPos, hPending]
  rcases clock_execWrite cfg hExec hNotDue with ⟨hLba, hLeft⟩
  exact {
    dir := clock_dataDirIn_of_execWrite hExec
    invalid := by simp [clock_bufValid, hPending]
    noRead := hRd
    noCdb := hNoCdb
    noExec := by simp [clock_execPending, hPending]
    noSynth := hSynth
    noMsg := hMsg
    fifo := hFifo
    pending := by simp [hFree, hWr, hAckD]
    once := by simp [hWr]
    few := Nat.zero_le count
    blocks := rfl
    left := by simp [supplyStart, hLeft, hRange]
    lba := by simp [supplyStart, hLba, hRange]
    phase := by simp [supplyStart, hPhase, hCount]
    pos := by simp [hPos]
    full := by simp [hPos]
    empty := by simp [hFree]
    total := by simp [supplyStart, hPos]
    stream := by simp [supplyStart, hPos]
    buffer := by simp [hPos]
    flushed := by simp [hFree]
    bound := by
      simp only [supplyStart, length_queue]
      omega }

end Ncr53c96

------------------------------------------------------------
-- Progress
------------------------------------------------------------

namespace Ncr53c96

open Clocked

variable {cfg : Config} {start : BitVec 32} {count : Nat}
variable {s : Chip} {g : SupplyLog} {i : In}

/-
  A transfer information is open, no flush is outstanding,
  and the register interface leaves the FIFO alone.
-/
def drainFree (s : Chip) (i : In) : Bool :=
  (s.xferOut || s.xferPioOut) && !s.flushPending && !fifoExt i

/- The edges it takes to strobe what was supplied. -/
def writeWork (s : Chip) : Nat :=
  2 * s.fifoCnt + if s.sbufPos = 512 then 1 else 0

/- Once everything is supplied nothing more can be. -/
theorem nothing_taken
    (hInv : WriteInv start count (s, g))
    (hOk : WriteOk cfg count (s, g) i)
    (hAll : g.bytes.length = 512 * count) :
    taken s i = [] := by
  have hBound : g.bytes.length + (supplied cfg s i).length ≤
      512 * count := hOk.bound
  rw [supplied_eq hInv hOk] at hBound
  exact List.length_eq_zero_iff.mp (by omega)

/- An edge that supplies nothing only works off. -/
theorem writeWork_le
    (hInv : WriteInv start count (s, g))
    (hOk : WriteOk cfg count (s, g) i)
    (hNone : taken s i = []) :
    writeWork (clock cfg s i) +
        (if flushDue s i || armDrain s i then 1 else 0) ≤
      writeWork s := by
  rcases write_moves hInv hOk with ⟨-, -, hPos⟩
  rcases write_queue hInv hOk with ⟨hTail, hKeep⟩
  unfold writeWork
  rw [hPos]
  cases hDrain : armDrain s i with
  | true =>
      have hArm : arm s i = .drain := by
        simpa [armDrain_eq] using hDrain
      rcases guard_drain s i hArm with ⟨-, hLive, -, hRoom⟩
      have hCount : (clock cfg s i).fifoCnt =
          s.fifoCnt - 1 := by
        rw [← length_queue, (hTail hDrain).2]
        simp
      rw [hCount]
      split_ifs <;> omega
  | false =>
      have hCount : (clock cfg s i).fifoCnt = s.fifoCnt := by
        rw [← length_queue, hKeep hDrain, hNone]
        simp
      rw [hCount]
      cases hDue : flushDue s i with
      | true =>
          have hFull := (flushDue_iff.mp hDue).2.1
          simp [hFull]
      | false => simp

/- A free edge with work left flushes or drains. -/
theorem works_of_free
    (hInv : WriteInv start count (s, g))
    (hOk : WriteOk cfg count (s, g) i)
    (hNone : taken s i = [])
    (hFree : drainFree s i = true)
    (hWork : 0 < writeWork s) :
    (flushDue s i || armDrain s i) = true := by
  simp only [drainFree, Bool.and_eq_true,
    Bool.not_eq_true'] at hFree
  rcases hFree with ⟨⟨hOpen, hNoFlush⟩, hExt⟩
  rw [write_flushDue hInv hOk]
  by_cases hFull : s.sbufPos = 512
  · simp [hFull]
  · have hLive : s.fifoCnt ≠ 0 := by
      simp only [writeWork, if_neg hFull] at hWork
      omega
    have hPos : s.sbufPos ≤ 512 := hInv.pos
    have hRoom : s.sbufPos < 512 := by omega
    -- no pseudo-DMA arm stands in the way
    have hNoCdb : s.cdbActive = false := hInv.noCdb
    rcases write_arm hInv hOk with hArm | hArm | hArm
    · simp [taken, armOutDma_eq, hArm] at hNone
    · simp [armDrain_eq, hArm]
    · have hDrain : armDrain s i = true := by
        simp only [armDrain, noDmaArm, armCdbFf, armPop_eq,
          armRdIdle_eq, armCdbDma_eq, armOutDma_eq,
          armSwallow_eq, hArm, hExt, hNoCdb, hOpen, hNoFlush]
        simp [hLive, hRoom]
      simp [hDrain]

/- The invariant, with every byte supplied. -/
def AllSupplied
    (start : BitVec 32)
    (count : Nat)
    (x : Chip × SupplyLog) : Prop :=
  WriteInv start count x ∧ x.2.bytes.length = 512 * count

theorem allSupplied_step
    (x : Chip × SupplyLog)
    (i : In)
    (hAll : AllSupplied start count x)
    (hOk : WriteOk cfg count x i) :
    AllSupplied start count
      (watch (step cfg) (noteSupply cfg) x i) := by
  refine ⟨writeInv_step x i hAll.1 hOk, ?_⟩
  rcases x with ⟨s, g⟩
  have hNone := nothing_taken hAll.1 hOk hAll.2
  simp only [watch_snd, noteSupply_eq hAll.1 hOk, hNone,
    List.append_nil]
  exact hAll.2

/- With the work done every block is strobed. -/
theorem strobed_of_no_work
    {x : Chip × SupplyLog}
    (hAll : AllSupplied start count x)
    (hWork : writeWork x.1 = 0) :
    x.2.blocks.length = count := by
  have hTotal := hAll.1.total
  have hPos := hAll.1.pos
  have hSupplied := hAll.2
  unfold writeWork at hWork
  split at hWork <;> omega

/-
  Once every byte is supplied, as many free edges as there is
  work left strobe every block.
-/
theorem write_progress
    {x : Chip × SupplyLog}
    {is : List In}
    (hAll : AllSupplied start count x)
    (hOk : Along (watch (step cfg) (noteSupply cfg))
      (WriteOk cfg count) x is)
    (hFree : writeWork x.1 ≤
      enabledCount (watch (step cfg) (noteSupply cfg))
        (fun x i => drainFree x.1 i) x is) :
    (run (watch (step cfg) (noteSupply cfg))
      x is).2.blocks.length = count := by
  have hLe : ∀ (x : Chip × SupplyLog) i,
      AllSupplied start count x → WriteOk cfg count x i →
      writeWork (step cfg x.1 i) +
          (if flushDue x.1 i || armDrain x.1 i then 1 else 0) ≤
        writeWork x.1 := by
    rintro ⟨s, g⟩ i hAll hOk
    rw [step_of_nreset cfg s i hOk.clocked]
    exact writeWork_le hAll.1 hOk
      (nothing_taken hAll.1 hOk hAll.2)
  apply strobed_of_no_work
    (invariant_run allSupplied_step hOk hAll)
  apply @measure_exhausted _ _ _ _ (AllSupplied start count)
    (fun x i => drainFree x.1 i) (fun x => writeWork x.1)
    allSupplied_step _ _ x is hOk hAll hFree
  · intro x i hAll hOk
    exact Nat.le_trans (Nat.le_add_right _ _) (hLe x i hAll hOk)
  · rintro ⟨s, g⟩ i hAll hOk hEnabled hWork
    have hStep := hLe (s, g) i hAll hOk
    rw [works_of_free hAll.1 hOk
      (nothing_taken hAll.1 hOk hAll.2) hEnabled hWork,
      if_pos rfl] at hStep
    exact Nat.lt_of_succ_le hStep

end Ncr53c96

------------------------------------------------------------
-- The Write Path
------------------------------------------------------------

namespace Ncr53c96

open Clocked

/-
  From a WRITE that starts with nothing left over, every run
  under the contract strobes the blocks of its range in order
  with the bytes supplied; and once all bytes are supplied,
  no more free edges than twice the FIFO and one are needed
  to strobe the last one.
-/
theorem write_path
    (cfg : Config)
    (start : BitVec 32)
    (count : Nat)
    (s : Chip)
    (is : List In)
    (hStart : WriteStarted cfg s start count)
    (hClear : untangled s)
    (hOk : Along (watch (step cfg) (noteSupply cfg))
      (WriteOk cfg count) (s, supplyStart s) is) :
    Always (watch (step cfg) (noteSupply cfg))
        (WriteKept cfg start count) (s, supplyStart s) is ∧
      ∀ pre post x, is = pre ++ post →
        x = run (watch (step cfg) (noteSupply cfg))
          (s, supplyStart s) pre →
        x.2.bytes.length = 512 * count →
        2 * x.1.fifoCnt + 1 ≤
          enabledCount (watch (step cfg) (noteSupply cfg))
            (fun x i => drainFree x.1 i) x post →
        (run (watch (step cfg) (noteSupply cfg))
          (s, supplyStart s) is).2.blocks.length = count := by
  have hInv := writeInv_start hStart hClear
  constructor
  · exact always_mono (fun _ => writeKept_of_inv)
      (always_of_along writeInv_step hOk hInv)
  · rintro pre post x rfl rfl hSupplied hFree
    rcases (along_append _ _ _).mp hOk with ⟨hPre, hPost⟩
    rw [run_append]
    apply write_progress
      ⟨invariant_run writeInv_step hPre hInv, hSupplied⟩ hPost
    refine Nat.le_trans ?_ hFree
    unfold writeWork
    split <;> omega

/- WRITE(6) of one block at 5, up to the edge it executes. -/
def writePending : List In :=
  [mountImage] ++
    [0x0A#8, 0x00#8, 0x00#8, 0x05#8, 0x01#8, 0x00#8].map
      (regWrite 0x2#4) ++
    [regWrite 0x3#4 0x41#8] ++ List.replicate 7 quiet

theorem writeStarted_writePending :
    WriteStarted ⟨0#4, false⟩ (startedBy writePending) 5#32 1 :=
  ⟨_, quiet, ⟨default, writePending, by decide +kernel, rfl⟩,
    rfl, by decide +kernel, by decide +kernel, rfl,
    by decide, by decide +kernel, by decide +kernel,
    by decide +kernel⟩

/- A transfer information and its first byte. -/
def firstByte : List In :=
  [regWrite 0x3#4 0x90#8, { dmaWr := true, dmaWdata := 0xAA#8 },
    quiet]

theorem write_path_firstByte :
    Always (watch (step ⟨0#4, false⟩)
          (noteSupply ⟨0#4, false⟩))
        (WriteKept ⟨0#4, false⟩ 5#32 1)
        (startedBy writePending,
          supplyStart (startedBy writePending)) firstByte ∧
      ∀ pre post x, firstByte = pre ++ post →
        x = run (watch (step ⟨0#4, false⟩)
            (noteSupply ⟨0#4, false⟩))
          (startedBy writePending,
            supplyStart (startedBy writePending)) pre →
        x.2.bytes.length = 512 * 1 →
        2 * x.1.fifoCnt + 1 ≤
          enabledCount (watch (step ⟨0#4, false⟩)
              (noteSupply ⟨0#4, false⟩))
            (fun x i => drainFree x.1 i) x post →
        (run (watch (step ⟨0#4, false⟩)
            (noteSupply ⟨0#4, false⟩))
          (startedBy writePending,
            supplyStart (startedBy writePending))
          firstByte).2.blocks.length = 1 :=
  write_path ⟨0#4, false⟩ 5#32 1 (startedBy writePending)
    firstByte writeStarted_writePending (by decide +kernel)
    (by decide +kernel)

/-
  An IDENTIFY and a WRITE(6) with two more bytes in the FIFO,
  a message-out transfer opened after `$43`, and a `$41`
  select before the message is sent.
-/
def writeInMessage : List In :=
  [mountImage] ++
    [0x80#8, 0x0A#8, 0x00#8, 0x00#8, 0x05#8, 0x01#8, 0x00#8,
      0xAA#8, 0xAA#8, 0xAA#8].map (regWrite 0x2#4) ++
    [regWrite 0x3#4 0x43#8, regWrite 0x3#4 0x10#8,
      regWrite 0x3#4 0x41#8] ++ List.replicate 7 quiet

theorem write_leaves_dout :
    ¬ ∀ (cfg : Config) (start : BitVec 32) (count : Nat)
      (s : Chip) (is : List In),
      WriteStarted cfg s start count →
      Along (watch (step cfg) (noteSupply cfg))
        (WriteOk cfg count) (s, supplyStart s) is →
      Always (watch (step cfg) (noteSupply cfg))
        (WriteKept cfg start count) (s, supplyStart s) is := by
  intro hAll
  have hStart : WriteStarted ⟨0#4, false⟩
      (startedBy writeInMessage) 5#32 1 :=
    ⟨_, quiet, ⟨default, writeInMessage, by decide +kernel, rfl⟩,
      rfl, by decide +kernel, by decide +kernel, rfl,
      by decide, by decide +kernel, by decide +kernel,
      by decide +kernel⟩
  have hEnd := hAll _ _ _ _ (List.replicate 3 quiet) hStart
    (by decide +kernel) _ (List.prefix_refl _)
  have hPhase := hEnd.phase
  revert hPhase
  decide +kernel

end Ncr53c96
