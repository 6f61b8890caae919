import Wombat33.Ncr53c96.Reachable
import Wombat33.Ncr53c96.StrayWrite

/-
  A write in progress, and what one clock edge does to it.

  Beside the run a log keeps the bytes the initiator has
  supplied and the blocks strobed.  At every edge the bytes
  supplied are the blocks flushed, then the part of a sector
  in the buffer, then the FIFO.

  Key definitions include:
    * `WriteStarted`, `untangled`
    * `SupplyLog`, `noteSupply`
    * `WriteOk`
    * `WriteKept`
    * `WriteInv`

  Key theorems include:
    * `writeKept_of_inv`
    * `write_phase`, `write_queue`, `write_moves`
-/

------------------------------------------------------------
-- Start, Contract and Property
------------------------------------------------------------

namespace Ncr53c96

open Clocked

variable (cfg : Config)

/-
  A WRITE of `count` blocks from `start` has just executed,
  and no block transfer is in flight.
-/
def WriteStarted
    (s : Chip)
    (start : BitVec 32)
    (count : Nat) : Prop :=
  ∃ s₀ i₀, Reachable cfg s₀ ∧ i₀.nreset = true ∧
    execWrite s₀ = true ∧ writeStart s₀ = (start, count) ∧
    s = step cfg s₀ i₀ ∧ 0 < count ∧
    s.ioRd = false ∧ s.ioWr = false ∧ s.ioAckD = false

/-
  Nothing of an earlier command is left over: the target is
  in DATA OUT, and no message, no collection and no response
  still takes or makes bytes.
-/
def untangled (s : Chip) : Prop :=
  s.phase = .dout ∧ s.xferMsgOut = false ∧
    s.cdbActive = false ∧ s.synthLen = 0

instance decidableUntangled (s : Chip) :
    Decidable (untangled s) :=
  inferInstanceAs (Decidable
    (s.phase = .dout ∧ s.xferMsgOut = false ∧
      s.cdbActive = false ∧ s.synthLen = 0))

/- The bytes supplied and the blocks strobed so far. -/
structure SupplyLog where
  bytes : List Byte
  blocks : List (BitVec 32)

def noteSupply (g : SupplyLog) (s : Chip) (i : In) :
    SupplyLog where
  bytes := g.bytes ++ supplied cfg s i
  blocks :=
    g.blocks ++
      if writeStrobe cfg s i then [(step cfg s i).ioLba]
      else []

/- The log at the start: the FIFO may hold bytes already. -/
def supplyStart (s : Chip) : SupplyLog := ⟨queue s, []⟩

/-
  What the initiator and the platform keep to: transfer
  informations in DATA OUT only, pseudo-DMA bytes only while
  one is open, no push into a full FIFO, nothing taken back
  out of it, no more bytes than the blocks hold; the platform
  acknowledges what was strobed and writes no sector.
-/
structure WriteOk
    (cfg : Config)
    (count : Nat)
    (x : Chip × SupplyLog)
    (i : In) : Prop where
  clocked : i.nreset = true
  noDmaRead : i.dmaRd = false
  noFifoRead : regRd i 0x2#4 = false
  command : regWr i 0x3#4 = true →
    cmdOp i.wdata = 0x10#7 ∧ x.1.phase = .dout
  room : regWr i 0x2#4 = true → x.1.fifoCnt < 16
  dmaOpen : i.dmaWr = true → x.1.xferOut = true
  noLoad : i.sdBuffWr = false
  ack : i.ioAck = true →
    x.1.ioWr = true ∨ x.1.ioAckD = true
  bound : x.2.bytes.length + (supplied cfg x.1 i).length ≤
    512 * count

instance decidableWriteOk
    (count : Nat)
    (x : Chip × SupplyLog)
    (i : In) :
    Decidable (WriteOk cfg count x i) :=
  decidable_of_iff
    (i.nreset = true ∧ i.dmaRd = false ∧
      regRd i 0x2#4 = false ∧
      (regWr i 0x3#4 = true →
        cmdOp i.wdata = 0x10#7 ∧ x.1.phase = .dout) ∧
      (regWr i 0x2#4 = true → x.1.fifoCnt < 16) ∧
      (i.dmaWr = true → x.1.xferOut = true) ∧
      i.sdBuffWr = false ∧
      (i.ioAck = true →
        x.1.ioWr = true ∨ x.1.ioAckD = true) ∧
      x.2.bytes.length + (supplied cfg x.1 i).length ≤
        512 * count)
    ⟨fun ⟨h₁, h₂, h₃, h₄, h₅, h₆, h₇, h₈, h₉⟩ =>
        ⟨h₁, h₂, h₃, h₄, h₅, h₆, h₇, h₈, h₉⟩,
      fun ⟨h₁, h₂, h₃, h₄, h₅, h₆, h₇, h₈, h₉⟩ =>
        ⟨h₁, h₂, h₃, h₄, h₅, h₆, h₇, h₈, h₉⟩⟩

/- Byte `j` of the `k`-th group of 512 bytes supplied. -/
def groupByte (bytes : List Byte) (k j : Nat) : Option Byte :=
  bytes[512 * k + j]?

/-
  What the claim of the write path comes to in one state: the
  blocks strobed so far are the first ones of the range; the
  phase; the word the platform's port shows after any cycle
  of a flush; and the number of strobes once every byte was
  supplied and the last transfer information is over.
-/
structure WriteKept
    (start : BitVec 32)
    (count : Nat)
    (x : Chip × SupplyLog) : Prop where
  few : x.2.blocks.length ≤ count
  blocks : x.2.blocks =
    (List.range x.2.blocks.length).map
      (fun k => start + BitVec.ofNat 32 k)
  phase : x.1.phase =
    if x.2.blocks.length < count then .dout else .stat
  port : x.1.flushPending = true → ∀ i,
    i.nreset = true → ∃ hi lo,
      groupByte x.2.bytes (x.2.blocks.length - 1)
        (2 * i.sdBuffAddr.toNat) = some hi ∧
      groupByte x.2.bytes (x.2.blocks.length - 1)
        (2 * i.sdBuffAddr.toNat + 1) = some lo ∧
      sdBuffDin cfg (step cfg x.1 i) = platSwap cfg (hi ++ lo)
  all : x.2.bytes.length = 512 * count →
    x.1.fifoCnt = 0 → x.1.xferOut = false →
    x.1.xferPioOut = false → x.2.blocks.length = count

end Ncr53c96

------------------------------------------------------------
-- The Stream Invariant
------------------------------------------------------------

namespace Ncr53c96

open Clocked

/-
  Nothing but the data-out transfer is going on, and the
  handshake belongs to the flush.
-/
structure WriteQuiet (s : Chip) : Prop where
  dir : s.dataDirIn = false
  invalid : s.bufValid = false
  noRead : s.ioRd = false
  noCdb : s.cdbActive = false
  noExec : s.execPending = false
  noSynth : s.synthLen = 0
  noMsg : s.xferMsgOut = false
  fifo : s.fifoCnt ≤ 16
  pending : s.flushPending = (s.ioWr || s.ioAckD)
  once : s.ioWr = true → s.ioAckD = false

/-
  A write in progress.  The bytes supplied are the blocks
  strobed, then `sbufPos` bytes in the buffer, then the FIFO.
-/
structure WriteInv
    (start : BitVec 32)
    (count : Nat)
    (x : Chip × SupplyLog) : Prop extends WriteQuiet x.1 where
  few : x.2.blocks.length ≤ count
  blocks : x.2.blocks =
    (List.range x.2.blocks.length).map
      (fun k => start + BitVec.ofNat 32 k)
  left : x.1.blocksLeft = count - x.2.blocks.length
  lba : x.1.lba = start + BitVec.ofNat 32 x.2.blocks.length
  phase : x.1.phase =
    if x.2.blocks.length < count then .dout else .stat
  pos : x.1.sbufPos ≤ 512
  full : x.1.sbufPos = 512 →
    x.1.flushPending = false ∧
      (x.1.xferOut = true ∨ x.1.xferPioOut = true)
  empty : x.1.flushPending = true →
    x.1.sbufPos = 0 ∧ 0 < x.2.blocks.length
  total : x.2.bytes.length =
    512 * x.2.blocks.length + x.1.sbufPos + x.1.fifoCnt
  stream : queue x.1 =
    x.2.bytes.drop (512 * x.2.blocks.length + x.1.sbufPos)
  buffer : ∀ j < x.1.sbufPos,
    groupByte x.2.bytes x.2.blocks.length j =
      some (bufByte x.1.mem j)
  flushed : x.1.flushPending = true → ∀ j < 512,
    groupByte x.2.bytes (x.2.blocks.length - 1) j =
      some (bufByte x.1.mem j)
  bound : x.2.bytes.length ≤ 512 * count

variable {cfg : Config} {start : BitVec 32} {count : Nat}
variable {s : Chip} {g : SupplyLog} {i : In}

/- The invariant is all that is asked for. -/
theorem writeKept_of_inv
    {x : Chip × SupplyLog}
    (hInv : WriteInv start count x) :
    WriteKept cfg start count x where
  few := hInv.few
  blocks := hInv.blocks
  phase := hInv.phase
  port := by
    intro hPending i hReset
    have hAddr := i.sdBuffAddr.isLt
    refine ⟨_, _, hInv.flushed hPending _ (by omega),
      hInv.flushed hPending _ (by omega), ?_⟩
    rw [step_of_nreset cfg _ i hReset, sdBuffDin, clock_qS,
      word_eq_bytes x.1.mem i.sdBuffAddr]
  all := by
    intro hAll hEmpty hOut hPio
    have hTotal := hInv.total
    have hPos := hInv.pos
    have hFew := hInv.few
    have hNotFull : x.1.sbufPos ≠ 512 := by
      intro hFull
      rcases (hInv.full hFull).2 with h | h
      · rw [hOut] at h
        simp at h
      · rw [hPio] at h
        simp at h
    omega

end Ncr53c96

------------------------------------------------------------
-- What an Edge of a Write Does
------------------------------------------------------------

namespace Ncr53c96

open Clocked

variable {cfg : Config} {start : BitVec 32} {count : Nat}
variable {s : Chip} {g : SupplyLog} {i : In}

/- The only command is a transfer information. -/
theorem write_command
    (hOk : WriteOk cfg count (s, g) i) :
    (∀ op, op ≠ 0x10#7 → cmdIs i op = false) ∧
      selectCmd i = false := by
  cases hWr : regWr i 0x3#4 with
  | false =>
      exact ⟨fun op _ => cmdIs_of_not_regWr hWr,
        by simp [selectCmd, hWr]⟩
  | true =>
      have hOp := (hOk.command hWr).1
      constructor
      · intro op hNe
        simp [cmdIs, hOp, Ne.symm hNe]
      · simp [selectCmd, hOp, selectOp]

/- The FIFO engine takes bytes or drains them. -/
theorem write_arm
    (hInv : WriteInv start count (s, g))
    (hOk : WriteOk cfg count (s, g) i) :
    arm s i = .outDma ∨ arm s i = .drain ∨
      arm s i = .idle := by
  have hNoRead : i.dmaRd = false := hOk.noDmaRead
  have hNoCdb : s.cdbActive = false := hInv.noCdb
  have hInvalid : s.bufValid = false := hInv.invalid
  have hNoByte : byteAvail s = false := by
    simp [byteAvail, hInvalid]
  have hNoMsg : s.xferMsgOut = false := hInv.noMsg
  cases hArm : arm s i with
  | pop => simpa [hNoRead] using (guard_pop s i hArm).1
  | rdIdle =>
      have hGuard : armRdIdle s i = true := by
        simp [armRdIdle_eq, hArm]
      simp [armRdIdle, engRd, hNoRead] at hGuard
  | cdbDma => simpa [hNoCdb] using (guard_cdbDma s i hArm).2.1
  | outDma => exact .inl rfl
  | swallow =>
      rcases guard_swallow s i hArm with ⟨hWr, -, hClosed⟩
      rw [hOk.dmaOpen hWr] at hClosed
      simp at hClosed
  | cdbFf => simpa [hNoCdb] using (guard_cdbFf s i hArm).1
  | drain => exact .inr (.inl rfl)
  | fill =>
      simpa [hNoByte] using (guard_fill s i hArm).2.2.2.2.1
  | pioIn => simpa [hNoByte] using (guard_pioIn s i hArm).2.1
  | msgOut => simpa [hNoMsg] using (guard_msgOut s i hArm).1
  | idle => exact .inr (.inr rfl)

/- The byte the FIFO takes. -/
def taken (s : Chip) (i : In) : List Byte :=
  if armOutDma s i then [i.dmaWdata]
  else if regWr i 0x2#4 && decide (s.fifoCnt < 16) then
    [i.wdata]
  else []

/- What the initiator gets rid of, the FIFO takes. -/
theorem supplied_eq
    (hInv : WriteInv start count (s, g))
    (hOk : WriteOk cfg count (s, g) i) :
    supplied cfg s i = taken s i := by
  have hRoom : (regWr i 0x2#4 && decide (s.fifoCnt < 16)) =
      regWr i 0x2#4 := by
    cases hPush : regWr i 0x2#4 with
    | true =>
        have hLt : s.fifoCnt < 16 := hOk.room hPush
        simp [hLt]
    | false => rfl
  have hValid : (i.dmaWr && (step cfg s i).dmaValid) =
      armOutDma s i := by
    rw [step_of_nreset cfg s i hOk.clocked, clock_dmaValid]
    rcases write_arm hInv hOk with hArm | hArm | hArm
    · have hWr := (guard_outDma s i hArm).1
      simp [armSwallow_eq, armOutDma_eq, hArm, hWr]
    · simp [armSwallow_eq, armOutDma_eq, armCdbDma_eq,
        armRdIdle_eq, armPop_eq, hArm]
    · simp [armSwallow_eq, armOutDma_eq, armCdbDma_eq,
        armRdIdle_eq, armPop_eq, hArm]
  rw [supplied, taken, hValid, hRoom]

/- With no flush outstanding the handshake is at rest. -/
theorem write_rest
    (hInv : WriteInv start count (s, g))
    (hOk : WriteOk cfg count (s, g) i)
    (hFree : s.flushPending = false) :
    ioBusy s i = false := by
  have hOpen : s.flushPending = (s.ioWr || s.ioAckD) :=
    hInv.pending
  rw [hFree] at hOpen
  rcases Bool.or_eq_false_iff.mp hOpen.symm with
    ⟨hWr, hAckD⟩
  have hAck : i.ioAck = false := by
    by_contra h
    rcases hOk.ack (by simpa using h) with h' | h'
    · simp [hWr] at h'
    · simp [hAckD] at h'
  have hRd : s.ioRd = false := hInv.noRead
  simp [ioBusy, hRd, hWr, hAck, hAckD]

/- A full buffer is flushed at once. -/
theorem write_flushDue
    (hInv : WriteInv start count (s, g))
    (hOk : WriteOk cfg count (s, g) i) :
    flushDue s i = decide (s.sbufPos = 512) := by
  by_cases hFull : s.sbufPos = 512
  · rcases hInv.full hFull with ⟨hFree, hOpen⟩
    have hRest := write_rest hInv hOk hFree
    rw [decide_eq_true hFull, flushDue_iff]
    exact ⟨hOpen, hFull, hFree, hRest⟩
  · rw [decide_eq_false hFull]
    simp [flushDue, hFull]

/- A flush leaves at least its own block counted. -/
theorem write_left
    (hInv : WriteInv start count (s, g))
    (hFull : s.sbufPos = 512) :
    g.blocks.length < count := by
  have hTotal : g.bytes.length =
      512 * g.blocks.length + s.sbufPos + s.fifoCnt :=
    hInv.total
  have hBound : g.bytes.length ≤ 512 * count := hInv.bound
  omega

/- How the strobe, the acknowledge and the flush move on. -/
theorem handshake_bits :
    ∀ pending wr ackD ack : Bool,
      pending = (wr || ackD) →
      (ack = true → wr = true ∨ ackD = true) →
      (wr = true → ackD = false) →
      (if ackD && !ack then false else pending) =
          ((if ack then false else wr) || ack) ∧
        ((if ack then false else wr) = true → ack = false) := by
  decide

theorem write_handshake
    (hInv : WriteInv start count (s, g))
    (hOk : WriteOk cfg count (s, g) i) :
    ((clock cfg s i).flushPending =
        ((clock cfg s i).ioWr || (clock cfg s i).ioAckD)) ∧
      ((clock cfg s i).ioWr = true →
        (clock cfg s i).ioAckD = false) := by
  have hOpen : s.flushPending = (s.ioWr || s.ioAckD) :=
    hInv.pending
  have hAck : i.ioAck = true →
      s.ioWr = true ∨ s.ioAckD = true := hOk.ack
  rw [clock_flushPending, clock_ioWr, clock_ioAckD]
  cases hDue : flushDue s i with
  | true =>
      have hRest := (flushDue_iff.mp hDue).2.2.2
      simp only [ioBusy, Bool.or_eq_false_iff] at hRest
      simp [hRest.1.2]
  | false =>
      exact handshake_bits s.flushPending s.ioWr s.ioAckD
        i.ioAck hOpen hAck hInv.once

/- The platform's answer to a flush publishes nothing. -/
theorem write_noPublish
    (hInv : WriteInv start count (s, g)) :
    publish s i = false := by
  have hOpen : s.flushPending = (s.ioWr || s.ioAckD) :=
    hInv.pending
  by_contra hPublish
  have hGuard := publish_iff.mp (by simpa using hPublish)
  have hFree := hGuard.2.2
  rw [hOpen, hGuard.1] at hFree
  simp at hFree

theorem write_noFetch
    (hInv : WriteInv start count (s, g)) :
    prefetchDue s i = false := by
  have hDir : s.dataDirIn = false := hInv.dir
  simp [prefetchDue, hDir]

/- The source is exhausted only when nothing is left. -/
theorem write_sourceDone
    (hInv : WriteInv start count (s, g))
    (hDone : sourceDone s i = true) :
    s.phase = .stat := by
  have hLeft : s.blocksLeft = count - g.blocks.length :=
    hInv.left
  have hPhase : s.phase =
      if g.blocks.length < count then .dout else .stat :=
    hInv.phase
  rw [sourceDone_iff] at hDone
  rw [hPhase, if_neg (by omega)]

theorem write_phase
    (hInv : WriteInv start count (s, g))
    (hOk : WriteOk cfg count (s, g) i) :
    (clock cfg s i).phase =
      if flushDue s i && s.blocksLeft == 1 then .stat
      else s.phase := by
  rcases write_command hOk with ⟨hCmd, hSelect⟩
  have hInfo : (cmdIs i 0x10#7 && s.phase == .stat) = false := by
    by_contra hInfo
    simp only [Bool.not_eq_false, Bool.and_eq_true,
      beq_iff_eq] at hInfo
    have hWr : regWr i 0x3#4 = true := by
      rw [regWr_of_cmdIs hInfo.1]
      rfl
    have hOut : s.phase = .dout := (hOk.command hWr).2
    simp [hOut] at hInfo
  have hPhase : s.phase =
      if g.blocks.length < count then .dout else .stat :=
    hInv.phase
  have hLeft : s.blocksLeft = count - g.blocks.length :=
    hInv.left
  have hPioIn : armPioIn s i = false := by
    rw [armPioIn_eq]
    rcases write_arm hInv hOk with h | h | h <;> simp [h]
  have hMsg : s.xferMsgOut = false := hInv.noMsg
  have hNoMsg : msgOutDone s = false := by
    simp [msgOutDone, hMsg]
  have hNoExec : s.execPending = false := hInv.noExec
  have hDir : s.dataDirIn = false := hInv.dir
  rw [clock_phase]
  simp only [hCmd 0x12#7 (by decide), hCmd 0x11#7 (by decide),
    hCmd 0x43#7 (by decide), hCmd 0x02#7 (by decide), hSelect,
    hInfo, hNoMsg, hPioIn, hNoExec, hDir,
    Bool.false_and, Bool.false_eq_true, if_false]
  by_cases hStat : s.phase = .stat
  · simp [hStat]
  · -- nothing but the last flush leaves DATA OUT
    have hMore : s.blocksLeft ≠ 0 := by
      intro hNone
      rw [hPhase, if_neg (by omega)] at hStat
      exact hStat rfl
    have hNotDone : sourceDone s i = false := by
      by_contra hDone
      exact hStat (write_sourceDone hInv (by simpa using hDone))
    simp [pioInUnderflow, dinUnderflow, hNotDone, hMore]

/- An edge of a write starts nothing else. -/
theorem writeQuiet_clock
    (hInv : WriteInv start count (s, g))
    (hOk : WriteOk cfg count (s, g) i) :
    WriteQuiet (clock cfg s i) := by
  rcases write_command hOk with ⟨hCmd, hSelect⟩
  have hInfo : (cmdIs i 0x10#7 && s.phase == .mout) = false := by
    by_contra hInfo
    simp only [Bool.not_eq_false, Bool.and_eq_true,
      beq_iff_eq] at hInfo
    have hWr : regWr i 0x3#4 = true := by
      rw [regWr_of_cmdIs hInfo.1]
      rfl
    have hOut : s.phase = .dout := (hOk.command hWr).2
    simp [hOut] at hInfo
  have hMsg : s.xferMsgOut = false := hInv.noMsg
  have hNoExec : s.execPending = false := hInv.noExec
  have hSynth : s.synthLen = 0 := hInv.noSynth
  have hNoLast : synthLast s = false := by
    simp [synthLast, synthOn, hSynth]
  have hDir : s.dataDirIn = false := hInv.dir
  have hInvalid : s.bufValid = false := hInv.invalid
  have hRd : s.ioRd = false := hInv.noRead
  have hNoCdb : s.cdbActive = false := hInv.noCdb
  have hNoFetch := write_noFetch hInv (i := i)
  have hNoPublish := write_noPublish hInv (i := i)
  have hNoMsg : msgOutDone s = false := by
    simp [msgOutDone, hMsg]
  have hNotComplete : cdbComplete s = false := by
    simp [cdbComplete, hNoCdb]
  have hFlush := write_handshake hInv hOk
  exact {
    dir := by simp [clock_dataDirIn, hNoExec, hDir]
    invalid := by
      simp [clock_bufValid, hNoExec, hNoLast, hNoPublish,
        hInvalid]
    noRead := by simp [clock_ioRd, hNoFetch, hRd]
    noCdb := by
      simp [clock_cdbActive, hCmd, hSelect, hNoMsg,
        hNotComplete, hNoCdb]
    noExec := by
      simp [clock_execPending, hNoExec, hNotComplete]
    noSynth := by
      simp [clock_synthLen, hNoExec, hSynth]
    noMsg := by simp [clock_xferMsgOut, hInfo, hMsg]
    fifo := clock_fifoCnt_le cfg hInv.fifo
    pending := hFlush.1
    once := hFlush.2 }

/- How the counters move on. -/
theorem write_moves
    (hInv : WriteInv start count (s, g))
    (hOk : WriteOk cfg count (s, g) i) :
    ((clock cfg s i).blocksLeft =
        if flushDue s i then s.blocksLeft - 1
        else s.blocksLeft) ∧
      ((clock cfg s i).lba =
        if flushDue s i then s.lba + 1#32 else s.lba) ∧
      ((clock cfg s i).sbufPos =
        if flushDue s i then 0
        else if armDrain s i then s.sbufPos + 1
        else s.sbufPos) := by
  have hNoExec : s.execPending = false := hInv.noExec
  have hNoFetch := write_noFetch hInv (i := i)
  have hNoPublish := write_noPublish hInv (i := i)
  have hPioIn : armPioIn s i = false := by
    rw [armPioIn_eq]
    rcases write_arm hInv hOk with h | h | h <;> simp [h]
  have hFill : armFill s i = false := by
    rw [armFill_eq]
    rcases write_arm hInv hOk with h | h | h <;> simp [h]
  refine ⟨?_, ?_, ?_⟩
  · rw [clock_blocksLeft]
    cases hDue : flushDue s i with
    | true =>
        have hFew := write_left hInv (flushDue_iff.mp hDue).2.1
        have hLeft : s.blocksLeft = count - g.blocks.length :=
          hInv.left
        have hMore : s.blocksLeft ≠ 0 := by omega
        simp [hMore]
    | false => simp [hNoExec, hNoFetch]
  · simp [clock_lba, hNoExec, hNoFetch]
  · have hPos : s.sbufPos ≤ 512 := hInv.pos
    have hStep : (s.sbufPos + 1) % 1024 = s.sbufPos + 1 := by
      omega
    simp [clock_sbufPos, hNoExec, hPioIn, hFill, hNoPublish,
      hStep]

/- Only the drain writes the sector buffer. -/
theorem write_mem
    (hInv : WriteInv start count (s, g))
    (hOk : WriteOk cfg count (s, g) i) :
    (clock cfg s i).mem =
      if armDrain s i then
        Function.update s.mem (posWord s)
          (setByte (s.mem (posWord s)) (s.sbufPos % 2 == 1)
            (s.fifo 0))
      else s.mem := by
  have hSynth : synthOn s = false := by
    simp [synthOn, show s.synthLen = 0 from hInv.noSynth]
  have hNoLoad : i.sdBuffWr = false := hOk.noLoad
  simp [clock_mem, engineMem, weE, addrE, wbyteE, woddE, hSynth,
    hNoLoad]

/-
  The FIFO gives its head to the buffer, or takes what the
  initiator supplies.
-/
theorem write_queue
    (hInv : WriteInv start count (s, g))
    (hOk : WriteOk cfg count (s, g) i) :
    (armDrain s i = true → taken s i = [] ∧
        queue (clock cfg s i) = (queue s).tail) ∧
      (armDrain s i = false →
        queue (clock cfg s i) = queue s ++ taken s i) := by
  have hNoRd : regRd i 0x2#4 = false := hOk.noFifoRead
  have hLe : s.fifoCnt ≤ 16 := hInv.fifo
  rw [clock_queue cfg hLe, fifoAct]
  cases hExt : fifoExt i with
  | true =>
      have hIdle := arm_of_fifoExt s i hExt
      have hCmd := (write_command hOk).1
      have hInfo : ∀ p, p ≠ .dout →
          (cmdIs i 0x10#7 && s.phase == p) = false := by
        intro p hNe
        by_contra hInfo
        simp only [Bool.not_eq_false, Bool.and_eq_true,
          beq_iff_eq] at hInfo
        have hWr : regWr i 0x3#4 = true := by
          rw [regWr_of_cmdIs hInfo.1]
          rfl
        exact hNe (hInfo.2 ▸ (hOk.command hWr).2)
      have hNoDrain : armDrain s i = false := by
        rw [armDrain_eq, hIdle]
        rfl
      have hNoDma : armOutDma s i = false := by
        rw [armOutDma_eq, hIdle]
        rfl
      simp only [hNoDrain, hNoDma, taken, registerAct, hNoRd, hCmd 0x12#7 (by decide),
        hCmd 0x11#7 (by decide), hCmd 0x43#7 (by decide),
        hCmd 0x02#7 (by decide), hCmd 0x01#7 (by decide),
        hInfo .min (by decide), hInfo .stat (by decide),
        Bool.false_eq_true, if_false]
      split_ifs <;> simp [QueueAct.apply]
  | false =>
      have hPush := (regs_of_not_fifoExt hExt).1
      rcases write_arm hInv hOk with hArm | hArm | hArm <;>
        simp [armDrain_eq, armOutDma_eq, taken, engineAct,
          hArm, hPush, QueueAct.apply]

end Ncr53c96
