import Mathlib.Tactic.SplitIfs
import Wombat33.Clocked.ShiftQueue
import Wombat33.Ncr53c96.Next

/-
  The FIFO as a queue.

  In one clock edge either the register interface touches
  the FIFO or at most one engine arm does; either way the
  queue of live bytes undergoes one action.

  Key definitions include:
    * `Arm`, `arm`
    * `queue`, `fifoAct`

  Key theorems include:
    * `clock_queue`
-/

------------------------------------------------------------
-- The One Arm
------------------------------------------------------------

namespace Ncr53c96

variable (s : Chip) (i : In)

/- The arms of the FIFO engine, by priority. -/
inductive Arm where
  | pop
  | rdIdle
  | cdbDma
  | outDma
  | swallow
  | cdbFf
  | drain
  | fill
  | pioIn
  | msgOut
  | idle
  deriving DecidableEq

/- The arm that fires in this cycle. -/
def arm : Arm :=
  if armPop s i then .pop
  else if armRdIdle s i then .rdIdle
  else if armCdbDma s i then .cdbDma
  else if armOutDma s i then .outDma
  else if armSwallow s i then .swallow
  else if armCdbFf s i then .cdbFf
  else if armDrain s i then .drain
  else if armFill s i then .fill
  else if armPioIn s i then .pioIn
  else if armMsgOut s i then .msgOut
  else .idle

theorem armPop_eq : armPop s i = (arm s i == .pop) := by
  cases hArm : armPop s i with
  | false => simp [arm, hArm, apply_ite (· == Arm.pop)]
  | true => simp [arm, hArm]

theorem armRdIdle_eq : armRdIdle s i = (arm s i == .rdIdle) := by
  cases hArm : armRdIdle s i with
  | false =>
      simp [arm, hArm, apply_ite (· == Arm.rdIdle)]
  | true =>
      have hAbove := hArm
      simp only [armRdIdle, Bool.and_eq_true,
        Bool.not_eq_true'] at hAbove
      simp [arm, hArm, hAbove]

theorem armCdbDma_eq : armCdbDma s i = (arm s i == .cdbDma) := by
  cases hArm : armCdbDma s i with
  | false =>
      simp [arm, hArm, apply_ite (· == Arm.cdbDma)]
  | true =>
      have hAbove := hArm
      simp only [armCdbDma, Bool.and_eq_true,
        Bool.not_eq_true'] at hAbove
      simp [arm, hArm, hAbove]

theorem armOutDma_eq : armOutDma s i = (arm s i == .outDma) := by
  cases hArm : armOutDma s i with
  | false =>
      simp [arm, hArm, apply_ite (· == Arm.outDma)]
  | true =>
      have hAbove := hArm
      simp only [armOutDma, Bool.and_eq_true,
        Bool.not_eq_true'] at hAbove
      simp [arm, hArm, hAbove]

theorem armSwallow_eq : armSwallow s i = (arm s i == .swallow) := by
  cases hArm : armSwallow s i with
  | false =>
      simp [arm, hArm, apply_ite (· == Arm.swallow)]
  | true =>
      have hAbove := hArm
      simp only [armSwallow, Bool.and_eq_true,
        Bool.not_eq_true'] at hAbove
      simp [arm, hArm, hAbove]

theorem armCdbFf_eq : armCdbFf s i = (arm s i == .cdbFf) := by
  cases hArm : armCdbFf s i with
  | false =>
      simp [arm, hArm, apply_ite (· == Arm.cdbFf)]
  | true =>
      have hAbove := hArm
      simp only [armCdbFf, noDmaArm, Bool.and_eq_true,
        Bool.not_eq_true'] at hAbove
      simp [arm, hArm, hAbove]

theorem armDrain_eq : armDrain s i = (arm s i == .drain) := by
  cases hArm : armDrain s i with
  | false =>
      simp [arm, hArm, apply_ite (· == Arm.drain)]
  | true =>
      have hAbove := hArm
      simp only [armDrain, noDmaArm, Bool.and_eq_true,
        Bool.not_eq_true'] at hAbove
      simp [arm, hArm, hAbove]

theorem armFill_eq : armFill s i = (arm s i == .fill) := by
  cases hArm : armFill s i with
  | false =>
      simp [arm, hArm, apply_ite (· == Arm.fill)]
  | true =>
      have hAbove := hArm
      simp only [armFill, noDmaArm, Bool.and_eq_true,
        Bool.not_eq_true'] at hAbove
      simp [arm, hArm, hAbove]

theorem armPioIn_eq : armPioIn s i = (arm s i == .pioIn) := by
  cases hArm : armPioIn s i with
  | false =>
      simp [arm, hArm, apply_ite (· == Arm.pioIn)]
  | true =>
      have hAbove := hArm
      simp only [armPioIn, noDmaArm, Bool.and_eq_true,
        Bool.not_eq_true'] at hAbove
      simp [arm, hArm, hAbove]

theorem armMsgOut_eq : armMsgOut s i = (arm s i == .msgOut) := by
  cases hArm : armMsgOut s i with
  | false =>
      simp [arm, hArm, apply_ite (· == Arm.msgOut)]
  | true =>
      have hAbove := hArm
      simp only [armMsgOut, noDmaArm, Bool.and_eq_true,
        Bool.not_eq_true'] at hAbove
      simp [arm, hArm, hAbove]

/- What each arm's guard says, once the arm is known. -/
theorem guard_pop (h : arm s i = .pop) :
    i.dmaRd = true ∧ s.fifoCnt ≠ 0 := by
  have hArm : armPop s i = true := by simp [armPop_eq, h]
  simp_all [armPop, engRd]

theorem guard_cdbDma (h : arm s i = .cdbDma) :
    i.dmaWr = true ∧ s.cdbActive = true ∧
      s.dmaActive = true ∧ s.tcZero = false := by
  have hArm : armCdbDma s i = true := by
    simp [armCdbDma_eq, h]
  simp_all [armCdbDma, engWr]

theorem guard_outDma (h : arm s i = .outDma) :
    i.dmaWr = true ∧ s.xferOut = true ∧
      s.dmaActive = true ∧ s.tcZero = false ∧
      s.fifoCnt < 16 := by
  have hArm : armOutDma s i = true := by
    simp [armOutDma_eq, h]
  simp_all [armOutDma, engWr]

theorem guard_swallow (h : arm s i = .swallow) :
    i.dmaWr = true ∧ s.cdbActive = false ∧
      s.xferOut = false := by
  have hArm : armSwallow s i = true := by
    simp [armSwallow_eq, h]
  simp_all [armSwallow, engWr]

theorem guard_cdbFf (h : arm s i = .cdbFf) :
    s.cdbActive = true ∧ s.fifoCnt ≠ 0 := by
  have hArm : armCdbFf s i = true := by
    simp [armCdbFf_eq, h]
  simp_all [armCdbFf]

theorem guard_drain (h : arm s i = .drain) :
    (s.xferOut = true ∨ s.xferPioOut = true) ∧
      s.fifoCnt ≠ 0 ∧ s.flushPending = false ∧
      s.sbufPos < 512 := by
  have hArm : armDrain s i = true := by
    simp [armDrain_eq, h]
  simp_all [armDrain]

theorem guard_fill (h : arm s i = .fill) :
    s.xferIn = true ∧ s.dmaActive = true ∧
      s.tcZero = false ∧ s.fifoCnt < 16 ∧
      byteAvail s = true ∧ sbufRdOk s = true := by
  have hArm : armFill s i = true := by simp [armFill_eq, h]
  simp_all [armFill]

theorem guard_pioIn (h : arm s i = .pioIn) :
    s.xferPioIn = true ∧ byteAvail s = true ∧
      s.fifoCnt = 0 ∧ sbufRdOk s = true := by
  have hArm : armPioIn s i = true := by
    simp [armPioIn_eq, h]
  simp_all [armPioIn]

theorem guard_msgOut (h : arm s i = .msgOut) :
    s.xferMsgOut = true ∧ s.fifoCnt ≠ 0 := by
  have hArm : armMsgOut s i = true := by
    simp [armMsgOut_eq, h]
  simp_all [armMsgOut]

/- A register access to the FIFO idles every arm. -/
theorem arm_of_fifoExt (h : fifoExt i = true) :
    arm s i = .idle := by
  simp [arm, armPop, armRdIdle, armCdbDma, armOutDma,
    armSwallow, armCdbFf, armDrain, armFill, armPioIn,
    armMsgOut, engRd, engWr, h]

end Ncr53c96

------------------------------------------------------------
-- The Queue
------------------------------------------------------------

namespace Ncr53c96

open Clocked

variable (cfg : Config) (s : Chip) (i : In)

/- The bytes in the FIFO, the next one out first. -/
def queue : List Byte := contents s.fifo s.fifoCnt

@[simp] theorem length_queue :
    (queue s).length = s.fifoCnt := by
  simp [queue]

/-
  The byte the initiator gets rid of at an edge: a pseudo-DMA
  byte once the chip answers it, or a write to the FIFO.
-/
def supplied (s : Chip) (i : In) : List Byte :=
  if i.dmaWr && (step cfg s i).dmaValid then [i.dmaWdata]
  else if regWr i 0x2#4 then [i.wdata]
  else []

/- What the register interface does to the queue. -/
def registerAct : QueueAct Byte :=
  if regRd i 0x2#4 then .pop
  else if cmdIs i 0x12#7 then .load []
  else if cmdIs i 0x11#7 then .load [s.scsiStatus, 0x00#8]
  else if cmdIs i 0x10#7 && s.phase == .min then
    .load [s.msginByte]
  else if cmdIs i 0x10#7 && s.phase == .stat then
    .load [s.scsiStatus, 0x00#8]
  else if cmdIs i 0x43#7 then
    (if selected cfg s then .pop else .load [])
  else if cmdIs i 0x02#7 then .load []
  else if cmdIs i 0x01#7 then .load []
  else if regWr i 0x2#4 && decide (s.fifoCnt < 16) then
    .push i.wdata
  else .keep

/- What the engine does to the queue. -/
def engineAct : QueueAct Byte :=
  match arm s i with
  | .pop => .pop
  | .cdbFf => .pop
  | .drain => .pop
  | .msgOut => .pop
  | .outDma => .push i.dmaWdata
  | .fill => .push (sbufByte s)
  | .pioIn => .push (sbufByte s)
  | .rdIdle => .keep
  | .cdbDma => .keep
  | .swallow => .keep
  | .idle => .keep

/- What one clock edge does to the queue. -/
def fifoAct : QueueAct Byte :=
  if fifoExt i then registerAct cfg s i else engineAct s i

variable {n : Chip} {s i}

theorem queue_of_keep
    (hCnt : n.fifoCnt = s.fifoCnt)
    (hKept : ∀ k < s.fifoCnt, n.fifo k = s.fifo k) :
    queue n = queue s := by
  unfold queue
  rw [hCnt]
  exact contents_congr hKept

theorem queue_of_push
    {b : Byte}
    (hCnt : n.fifoCnt = s.fifoCnt + 1)
    (hKept : ∀ k < s.fifoCnt, n.fifo k = s.fifo k)
    (hWritten : n.fifo s.fifoCnt = b) :
    queue n = queue s ++ [b] := by
  unfold queue
  rw [hCnt]
  exact contents_push hKept hWritten

theorem queue_of_pop
    (hCnt : n.fifoCnt = s.fifoCnt - 1)
    (hShift : ∀ k, k + 1 < s.fifoCnt →
      n.fifo k = s.fifo (k + 1)) :
    queue n = (queue s).tail := by
  unfold queue
  rw [hCnt]
  cases hLive : s.fifoCnt with
  | zero => rfl
  | succ m =>
      apply contents_pop
      intro k hk
      exact hShift k (by omega)

/- The count after a pop, in the source's 5-bit spelling. -/
theorem popped_count
    {c : Nat} (hLe : c ≤ 16) (hLive : c ≠ 0) :
    (c + 31) % 32 = c - 1 := by
  omega

/- A cycle that writes a register reads none. -/
theorem regRd_of_regWr
    {r r' : BitVec 4}
    (h : regWr i r = true) :
    regRd i r' = false := by
  by_contra hRd
  rw [regWr_of_regRd (by simpa using hRd)] at h
  exact absurd h (by decide)

theorem regRd_of_cmdIs
    {op : BitVec 7} {r : BitVec 4}
    (h : cmdIs i op = true) :
    regRd i r = false := by
  simp only [cmdIs, Bool.and_eq_true] at h
  exact regRd_of_regWr h.1

/-
  The access decides what the register interface does: what
  holds of the action of every access holds of its action.
-/
theorem registerAct_cases
    {P : QueueAct Byte → Prop}
    (hRead : regRd i 0x2#4 = true → P .pop)
    (hAccept : cmdIs i 0x12#7 = true → P (.load []))
    (hDone : cmdIs i 0x11#7 = true →
      P (.load [s.scsiStatus, 0x00#8]))
    (hMin : cmdIs i 0x10#7 = true → s.phase = .min →
      P (.load [s.msginByte]))
    (hStat : cmdIs i 0x10#7 = true → s.phase = .stat →
      P (.load [s.scsiStatus, 0x00#8]))
    (hSelected : cmdIs i 0x43#7 = true →
      selected cfg s = true → P .pop)
    (hStop : cmdIs i 0x43#7 = true →
      selected cfg s = false → P (.load []))
    (hReset : cmdIs i 0x02#7 = true → P (.load []))
    (hFlush : cmdIs i 0x01#7 = true → P (.load []))
    (hPush : regWr i 0x2#4 = true → s.fifoCnt < 16 →
      P (.push i.wdata))
    (hKeep : regRd i 0x2#4 = false →
      (∀ op ∈ [0x12#7, 0x11#7, 0x43#7, 0x02#7, 0x01#7],
        cmdIs i op = false) →
      (cmdIs i 0x10#7 && s.phase == .min) = false →
      (cmdIs i 0x10#7 && s.phase == .stat) = false →
      (regWr i 0x2#4 && decide (s.fifoCnt < 16)) = false →
      P .keep) :
    P (registerAct cfg s i) := by
  unfold registerAct
  refine iteInduction hRead fun hNoRead => ?_
  refine iteInduction hAccept fun hNoAccept => ?_
  refine iteInduction hDone fun hNoDone => ?_
  refine iteInduction (fun h => ?_) fun hNoMin => ?_
  · simp only [Bool.and_eq_true, beq_iff_eq] at h
    exact hMin h.1 h.2
  refine iteInduction (fun h => ?_) fun hNoStat => ?_
  · simp only [Bool.and_eq_true, beq_iff_eq] at h
    exact hStat h.1 h.2
  refine iteInduction (fun h => ?_) fun hNoStop => ?_
  · exact iteInduction (hSelected h) fun hNot =>
      hStop h (by simpa using hNot)
  refine iteInduction hReset fun hNoReset => ?_
  refine iteInduction hFlush fun hNoFlush => ?_
  refine iteInduction (fun h => ?_) fun hNoPush => ?_
  · simp only [Bool.and_eq_true, decide_eq_true_eq] at h
    exact hPush h.1 h.2
  apply hKeep
  · simpa using hNoRead
  · simp [hNoAccept, hNoDone, hNoStop, hNoReset, hNoFlush]
  · exact Bool.eq_false_iff.mpr hNoMin
  · exact Bool.eq_false_iff.mpr hNoStat
  · exact Bool.eq_false_iff.mpr hNoPush

/- An edge on which the register interface acts. -/
theorem clock_queue_register
    (hLe : s.fifoCnt ≤ 16)
    (hExt : fifoExt i = true) :
    queue (clock cfg s i) =
      (registerAct cfg s i).apply (queue s) := by
  have hCnt := clock_fifoCnt cfg s i
  have hFifo := clock_fifo cfg s i
  have hArms :
      armMsgOut s i = false ∧ armPioIn s i = false ∧
        armFill s i = false ∧ armDrain s i = false ∧
        armCdbFf s i = false ∧ armOutDma s i = false ∧
        armPop s i = false := by
    simp [armMsgOut_eq, armPioIn_eq, armFill_eq,
      armDrain_eq, armCdbFf_eq, armOutDma_eq, armPop_eq,
      arm_of_fifoExt s i hExt]
  simp only [hArms, Bool.false_and, Bool.false_eq_true,
    if_false] at hCnt hFifo
  apply registerAct_cases cfg
    (P := fun a => queue (clock cfg s i) = a.apply (queue s))
  case hRead =>
    intro hRd
    have hWr : ∀ r, regWr i r = false :=
      fun r => regWr_of_regRd hRd
    have hCmd : ∀ op, cmdIs i op = false :=
      fun op => cmdIs_of_not_regWr (hWr 0x3#4)
    simp [hRd, hWr, hCmd] at hCnt hFifo
    apply queue_of_pop
    · rw [hCnt]
      split_ifs <;> omega
    · intro k hk
      rw [hFifo, if_pos (by omega)]
  case hSelected =>
    intro hStop hSelected
    simp [hSelected, cmdIs_of_cmdIs hStop,
      regRd_of_cmdIs hStop, regWr_of_cmdIs hStop] at hCnt hFifo
    apply queue_of_pop
    · rw [hCnt]
      split_ifs <;> omega
    · intro k hk
      rw [hFifo, if_pos (by omega)]
  case hPush =>
    intro hWr hRoom
    have hCmd : ∀ op, cmdIs i op = false :=
      fun op => cmdIs_of_not_regWr (regWr_of_regWr hWr)
    simp [hWr, hRoom, hCmd, regRd_of_regWr hWr] at hCnt hFifo
    apply queue_of_push hCnt
    · intro k hk
      rw [hFifo, if_neg (by omega)]
    · simp [hFifo]
  case hKeep =>
    intro hRd hCmd hMin hStat hPush
    simp at hCmd
    simp only [hRd, hCmd, hMin, hStat, hPush, Bool.false_and,
      Bool.false_eq_true, if_false] at hCnt hFifo
    exact queue_of_keep hCnt fun k _ => hFifo k
  -- a command that loads the FIFO, whatever was there
  case hMin | hStat | hStop =>
    intro hCmd hWhen
    simp [hWhen, cmdIs_of_cmdIs hCmd,
      regRd_of_cmdIs hCmd] at hCnt hFifo
    simp [queue, QueueAct.apply, contents_succ, hCnt, hFifo]
  all_goals
    intro hCmd
    simp [cmdIs_of_cmdIs hCmd, regRd_of_cmdIs hCmd] at hCnt hFifo
    simp [queue, QueueAct.apply, contents_succ, hCnt, hFifo]

/- A command write takes the FIFO, and reads nothing. -/
theorem command_cycle (hWr : regWr i 0x3#4 = true) :
    fifoExt i = true ∧ regRd i 0x2#4 = false := by
  simp only [regWr, regWrCyc, Bool.and_eq_true,
    beq_iff_eq] at hWr
  simp [fifoExt, regWrCyc, regRd, regRdCyc, hWr]

/- A cycle that leaves the FIFO to the engine. -/
theorem regs_of_not_fifoExt (hExt : fifoExt i = false) :
    regWr i 0x2#4 = false ∧ regWr i 0x3#4 = false ∧
      regRd i 0x2#4 = false := by
  simp only [fifoExt, Bool.or_eq_false_iff,
    Bool.and_eq_false_iff] at hExt
  simp only [regWr, regRd, Bool.and_eq_false_iff]
  grind

/- An edge on which the register interface stays away. -/
theorem clock_queue_engine
    (hLe : s.fifoCnt ≤ 16)
    (hExt : fifoExt i = false) :
    queue (clock cfg s i) =
      (engineAct s i).apply (queue s) := by
  rcases regs_of_not_fifoExt hExt with ⟨hPush, hWr, hRd⟩
  have hCmd : ∀ op, cmdIs i op = false :=
    fun op => cmdIs_of_not_regWr hWr
  have hCnt := clock_fifoCnt cfg s i
  have hFifo := clock_fifo cfg s i
  simp only [armMsgOut_eq, armPioIn_eq, armFill_eq,
    armDrain_eq, armCdbFf_eq, armOutDma_eq, armPop_eq,
    hPush, hRd, hCmd] at hCnt hFifo
  unfold engineAct
  cases hArm : arm s i with
  | pop =>
      have hLive := (guard_pop s i hArm).2
      simp [hArm] at hCnt hFifo
      apply queue_of_pop
      · rw [hCnt, popped_count hLe hLive]
      · intro k hk
        rw [hFifo, if_pos (by omega)]
  | cdbFf =>
      have hLive := (guard_cdbFf s i hArm).2
      simp [hArm] at hCnt hFifo
      apply queue_of_pop
      · rw [hCnt, popped_count hLe hLive]
      · intro k hk
        rw [hFifo, if_pos (by omega)]
  | drain =>
      have hLive := (guard_drain s i hArm).2.1
      simp [hArm] at hCnt hFifo
      apply queue_of_pop
      · rw [hCnt, popped_count hLe hLive]
      · intro k hk
        rw [hFifo, if_pos (by omega)]
  | msgOut =>
      have hLive := (guard_msgOut s i hArm).2
      simp [hArm] at hCnt hFifo
      apply queue_of_pop
      · rw [hCnt, popped_count hLe hLive]
      · intro k hk
        rw [hFifo, if_pos (by omega)]
  | outDma =>
      have hRoom := (guard_outDma s i hArm).2.2.2.2
      simp [hArm, hRoom] at hCnt hFifo
      apply queue_of_push hCnt
      · intro k hk
        rw [hFifo, if_neg (by omega)]
      · simp [hFifo]
  | fill =>
      have hRoom := (guard_fill s i hArm).2.2.2.1
      simp [hArm, hRoom] at hCnt hFifo
      apply queue_of_push hCnt
      · intro k hk
        rw [hFifo, if_neg (by omega)]
      · simp [hFifo]
  | pioIn =>
      have hEmpty := (guard_pioIn s i hArm).2.2.1
      simp [hArm, hEmpty] at hCnt hFifo
      apply queue_of_push
      · rw [hCnt, hEmpty]
      · intro k hk
        omega
      · simp [hFifo, hEmpty]
  | rdIdle | cdbDma | swallow | idle =>
      simp [hArm] at hCnt hFifo
      exact queue_of_keep hCnt (fun k _ => hFifo k)

/- One clock edge is one action on the queue. -/
theorem clock_queue (hLe : s.fifoCnt ≤ 16) :
    queue (clock cfg s i) =
      (fifoAct cfg s i).apply (queue s) := by
  unfold fifoAct
  split
  next hExt => exact clock_queue_register cfg hLe hExt
  next hExt =>
      exact clock_queue_engine cfg hLe (by simpa using hExt)

/- Neither the registers nor the engine overfill the FIFO. -/
theorem registerAct_length (hLe : s.fifoCnt ≤ 16) :
    ((registerAct cfg s i).apply (queue s)).length ≤ 16 := by
  apply registerAct_cases cfg
    (P := fun a => (a.apply (queue s)).length ≤ 16)
  case hPush =>
    intro _ hRoom
    simp only [QueueAct.apply, List.length_append,
      length_queue, List.length_singleton]
    omega
  all_goals
    intros
    simp only [QueueAct.apply, List.length_tail,
      length_queue, List.length_cons, List.length_nil]
    omega

theorem engineAct_length (hLe : s.fifoCnt ≤ 16) :
    ((engineAct s i).apply (queue s)).length ≤ 16 := by
  unfold engineAct
  cases hArm : arm s i with
  | outDma =>
      have hRoom := (guard_outDma s i hArm).2.2.2.2
      simp only [QueueAct.apply, List.length_append,
        length_queue, List.length_singleton]
      omega
  | fill =>
      have hRoom := (guard_fill s i hArm).2.2.2.1
      simp only [QueueAct.apply, List.length_append,
        length_queue, List.length_singleton]
      omega
  | pioIn =>
      have hEmpty := (guard_pioIn s i hArm).2.2.1
      simp [QueueAct.apply, hEmpty]
  | pop | cdbFf | drain | msgOut =>
      simp [QueueAct.apply]
      omega
  | rdIdle | cdbDma | swallow | idle =>
      simpa [QueueAct.apply] using hLe

/- The FIFO never holds more than its sixteen bytes. -/
theorem clock_fifoCnt_le (hLe : s.fifoCnt ≤ 16) :
    (clock cfg s i).fifoCnt ≤ 16 := by
  rw [← length_queue, clock_queue cfg hLe]
  unfold fifoAct
  split
  · exact registerAct_length cfg hLe
  · exact engineAct_length hLe

end Ncr53c96
