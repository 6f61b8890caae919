import Wombat33.Ncr53c96.CdbCollect

/-
  The FIFO is a bounded queue with one action per cycle.

  Each cycle runs some of the chip's FIFO tasks: those of the
  engine's arms, those of the register interface and those of
  the command being written.  At most one of them runs, and
  the queue is what it makes of it; the sector-buffer pointer
  and the index of a CDB write stay in their arrays.

  Key definitions include:
    * `fifoTasks`
    * `cdbIndex`
    * `FifoBounded`
    * `cdbRoom`

  Key theorems include:
    * `fifoTasks_eq`
    * `fifo_bounded_iff`
-/

------------------------------------------------------------
-- The Tasks of One Cycle
------------------------------------------------------------

namespace Ncr53c96

open Clocked

variable (cfg : Config) (s : Chip) (i : In)

/- `fifo_push` under an enable: a full FIFO drops the byte. -/
def pushTask (go : Bool) (b : Byte) : List (QueueAct Byte) :=
  if go && decide (s.fifoCnt < 16) then [.push b] else []

/- `fifo_shift` under an enable. -/
def shiftTask (go : Bool) : List (QueueAct Byte) :=
  if go then [.pop] else []

/- The count is set, with these bytes below it. -/
def loadTask (go : Bool) (bytes : List Byte) :
    List (QueueAct Byte) :=
  if go then [.load bytes] else []

/- The tasks of the engine's arms, in source order. -/
def engineTasks : List (QueueAct Byte) :=
  shiftTask (armPop s i) ++
    pushTask s (armOutDma s i) i.dmaWdata ++
    shiftTask (armCdbFf s i) ++
    shiftTask (armDrain s i) ++
    pushTask s (armFill s i) (sbufByte s) ++
    pushTask s (armPioIn s i) (sbufByte s) ++
    shiftTask (armMsgOut s i)

/- The tasks of the command being written. -/
def commandTasks : List (QueueAct Byte) :=
  loadTask (cmdIs i 0x01#7) [] ++
    loadTask (cmdIs i 0x02#7) [] ++
    shiftTask (cmdIs i 0x43#7 && selected cfg s &&
      s.fifoCnt != 0) ++
    loadTask (cmdIs i 0x43#7 && !selected cfg s) [] ++
    loadTask (cmdIs i 0x10#7 && s.phase == .stat)
      [s.scsiStatus, 0x00#8] ++
    loadTask (cmdIs i 0x10#7 && s.phase == .min)
      [s.msginByte] ++
    loadTask (cmdIs i 0x11#7) [s.scsiStatus, 0x00#8] ++
    loadTask (cmdIs i 0x12#7) []

/- The tasks of the register interface. -/
def registerTasks : List (QueueAct Byte) :=
  pushTask s (regWr i 0x2#4) i.wdata ++
    commandTasks cfg s i ++
    shiftTask (regRd i 0x2#4 && s.fifoCnt != 0)

/- Every FIFO task that runs in this cycle. -/
def fifoTasks : List (QueueAct Byte) :=
  if i.nreset then engineTasks s i ++ registerTasks cfg s i
  else [.load []]

end Ncr53c96

------------------------------------------------------------
-- At Most One Task
------------------------------------------------------------

namespace Ncr53c96

open Clocked

variable (cfg : Config) {s : Chip} {i : In}

theorem queue_eq_cons (hLive : s.fifoCnt ≠ 0) :
    ∃ b rest, queue s = b :: rest := by
  cases hQueue : queue s with
  | nil => exact absurd (contents_eq_nil_iff.mp hQueue) hLive
  | cons b rest => exact ⟨b, rest, rfl⟩

theorem effects_pop_live (hLive : s.fifoCnt ≠ 0) :
    QueueAct.pop.effects (queue s) = [.pop] := by
  rcases queue_eq_cons hLive with ⟨b, rest, hQueue⟩
  rw [hQueue]
  rfl

/- A cycle of the register interface stops every arm. -/
theorem engineTasks_of_fifoExt (hExt : fifoExt i = true) :
    engineTasks s i = [] := by
  have hIdle := arm_of_fifoExt s i hExt
  simp [engineTasks, shiftTask, pushTask, armPop_eq,
    armOutDma_eq, armCdbFf_eq, armDrain_eq, armFill_eq,
    armPioIn_eq, armMsgOut_eq, hIdle]

/- A cycle of the engine runs none of the register tasks. -/
theorem registerTasks_of_not_fifoExt
    (hExt : fifoExt i = false) :
    registerTasks cfg s i = [] := by
  rcases regs_of_not_fifoExt hExt with ⟨hPush, hWr, hRd⟩
  have hCmd : ∀ op, cmdIs i op = false :=
    fun op => cmdIs_of_not_regWr hWr
  simp [registerTasks, commandTasks, shiftTask, pushTask,
    loadTask, hPush, hRd, hCmd]

/- The engine runs the task of the arm that fires. -/
theorem engineTasks_eq :
    engineTasks s i = (engineAct s i).effects (queue s) := by
  unfold engineAct
  simp only [engineTasks, shiftTask, pushTask, armPop_eq,
    armOutDma_eq, armCdbFf_eq, armDrain_eq, armFill_eq,
    armPioIn_eq, armMsgOut_eq]
  cases hArm : arm s i with
  | pop =>
      have hLive := (guard_pop s i hArm).2
      simp [effects_pop_live hLive]
  | cdbFf =>
      have hLive := (guard_cdbFf s i hArm).2
      simp [effects_pop_live hLive]
  | drain =>
      have hLive := (guard_drain s i hArm).2.1
      simp [effects_pop_live hLive]
  | msgOut =>
      have hLive := (guard_msgOut s i hArm).2
      simp [effects_pop_live hLive]
  | outDma =>
      have hRoom := (guard_outDma s i hArm).2.2.2.2
      simp [hRoom, QueueAct.effects]
  | fill =>
      have hRoom := (guard_fill s i hArm).2.2.2.1
      simp [hRoom, QueueAct.effects]
  | pioIn =>
      have hEmpty := (guard_pioIn s i hArm).2.2.1
      simp [hEmpty, QueueAct.effects]
  | rdIdle | cdbDma | swallow | idle =>
      simp [QueueAct.effects]

/- A pop of the empty queue has no effect. -/
theorem effects_pop_empty (hEmpty : s.fifoCnt = 0) :
    QueueAct.pop.effects (queue s) = [] := by
  have hQueue : queue s = [] := contents_eq_nil_iff.mpr hEmpty
  rw [hQueue]
  rfl

/- The register interface runs the task of its access. -/
theorem registerTasks_eq :
    registerTasks cfg s i =
      (registerAct cfg s i).effects (queue s) := by
  simp only [registerTasks, commandTasks, pushTask, shiftTask,
    loadTask]
  apply registerAct_cases cfg
    (P := fun a => _ = a.effects (queue s))
  case hRead =>
    intro hRd
    have hWr : ∀ r, regWr i r = false :=
      fun r => regWr_of_regRd hRd
    have hCmd : ∀ op, cmdIs i op = false :=
      fun op => cmdIs_of_not_regWr (hWr 0x3#4)
    by_cases hLive : s.fifoCnt = 0
    · simp [hWr, hCmd, hLive, effects_pop_empty hLive]
    · simp [hWr, hCmd, hRd, hLive, effects_pop_live hLive]
  case hSelected =>
    intro hStop hSelected
    by_cases hLive : s.fifoCnt = 0
    · simp [cmdIs_of_cmdIs hStop, regWr_of_cmdIs hStop,
        hSelected, hLive, effects_pop_empty hLive]
    · simp [regRd_of_cmdIs hStop, cmdIs_of_cmdIs hStop,
        regWr_of_cmdIs hStop, hSelected, hLive,
        effects_pop_live hLive]
  case hPush =>
    intro hWr hRoom
    have hCmd : ∀ op, cmdIs i op = false :=
      fun op => cmdIs_of_not_regWr (regWr_of_regWr hWr)
    simp [regRd_of_regWr hWr, hCmd, hWr, hRoom,
      QueueAct.effects]
  case hKeep =>
    intro hRd hCmd hMin hStat hPush
    simp at hCmd
    simp [hRd, hCmd, hMin, hStat, hPush, QueueAct.effects]
  -- a command that loads the FIFO, whatever was there
  case hMin | hStat | hStop =>
    intro hCmd hWhen
    simp [regRd_of_cmdIs hCmd, cmdIs_of_cmdIs hCmd,
      regWr_of_cmdIs hCmd, hWhen, QueueAct.effects]
  all_goals
    intro hCmd
    simp [regRd_of_cmdIs hCmd, cmdIs_of_cmdIs hCmd,
      regWr_of_cmdIs hCmd, QueueAct.effects]

/- The tasks of a cycle are the effects of one action. -/
theorem fifoTasks_eq (hReset : i.nreset = true) :
    fifoTasks cfg s i =
      (fifoAct cfg s i).effects (queue s) := by
  rw [fifoTasks, if_pos hReset, fifoAct]
  cases hExt : fifoExt i with
  | true =>
      rw [engineTasks_of_fifoExt hExt, List.nil_append,
        if_pos rfl, registerTasks_eq]
  | false =>
      rw [registerTasks_of_not_fifoExt cfg hExt,
        List.append_nil, engineTasks_eq]
      rfl

end Ncr53c96

------------------------------------------------------------
-- The Bounds
------------------------------------------------------------

namespace Ncr53c96

open Clocked

variable (cfg : Config) (s : Chip) (i : In)

/- The cell of `cdb[]` that this cycle writes. -/
def cdbIndex : Option Nat :=
  if i.nreset && (collected s i).isSome && s.skipCnt == 0 then
    some s.cdbPos
  else none

/- What is asked of one cycle. -/
structure FifoBounded : Prop where
  count : s.fifoCnt ≤ 16
  one : (fifoTasks cfg s i).length ≤ 1
  queue : queue (step cfg s i) =
    QueueAct.applyAll (fifoTasks cfg s i) (queue s)
  live : QueueAct.pop ∈ fifoTasks cfg s i → s.fifoCnt ≠ 0
  full : i.nreset = true → regWr i 0x2#4 = true →
    s.fifoCnt = 16 → fifoTasks cfg s i = []
  pos : s.sbufPos ≤ 512
  index : ∀ k, cdbIndex s i = some k → k < 10

/-
  No byte reaches the collector in the cycle in which it
  finds a CDB of ten bytes complete.
-/
def cdbRoom : Prop :=
  i.nreset = true → cdbComplete s = true →
    s.cdbNeed = 10 → collected s i = none

/- What every state keeps, whatever the inputs. -/
structure BoundsInv : Prop where
  count : s.fifoCnt ≤ 16
  len : s.sbufLen ≤ 512
  pos : s.sbufPos ≤ 512
  need : s.cdbNeed = 0 ∨ s.cdbNeed = 6 ∨ s.cdbNeed = 10
  collect : s.cdbActive = true → s.cdbPos ≤ s.cdbNeed
  skips : s.cdbPos ≠ 0 → s.skipCnt = 0

end Ncr53c96

------------------------------------------------------------
-- The Bounds Hold
------------------------------------------------------------

namespace Ncr53c96

open Clocked

variable (cfg : Config) {s : Chip} {i : In}

/- A cycle that starts a collection anew. -/
def restarts (s : Chip) (i : In) : Bool :=
  (cmdIs i 0x12#7 && s.msginReject) ||
    (selectCmd i && selected cfg s) ||
    (msgOutDone s && s.msgFirst != 0x01#8)

theorem restart_fields (hRestart : restarts cfg s i = true) :
    (clock cfg s i).cdbPos = 0 ∧
      (clock cfg s i).cdbNeed = 0 := by
  simp only [restarts, Bool.or_eq_true] at hRestart
  rw [clock_cdbPos, clock_cdbNeed]
  rcases hRestart with (hResume | hSelect) | hCommand
  · simp [hResume]
  · simp [hSelect]
  · simp [hCommand]

/- Otherwise the collector takes the byte that reaches it. -/
theorem collector_pos
    (hRestart : restarts cfg s i = false) :
    (clock cfg s i).cdbPos =
      if (collected s i).isSome && s.skipCnt == 0 then
        (s.cdbPos + 1) % 16
      else s.cdbPos := by
  simp only [restarts, Bool.or_eq_false_iff] at hRestart
  rcases hRestart with ⟨⟨hResume, hSelect⟩, hCommand⟩
  simp only [clock_cdbPos, hResume, hSelect, hCommand,
    Bool.false_eq_true, if_false]
  rw [collected]
  cases hDma : armCdbDma s i <;>
    cases hFf : armCdbFf s i <;>
    by_cases hSkip : s.skipCnt = 0 <;> simp [hSkip]

theorem collector_need
    (hRestart : restarts cfg s i = false) :
    (clock cfg s i).cdbNeed =
        (if (collected s i).isSome && s.skipCnt == 0 &&
            s.cdbPos == 0 then (clock cfg s i).cdbNeed
          else s.cdbNeed) ∧
      ((collected s i).isSome = true → s.skipCnt = 0 →
        s.cdbPos = 0 → (clock cfg s i).cdbNeed = 6 ∨
          (clock cfg s i).cdbNeed = 10) := by
  simp only [restarts, Bool.or_eq_false_iff] at hRestart
  rcases hRestart with ⟨⟨hResume, hSelect⟩, hCommand⟩
  simp only [clock_cdbNeed, hResume, hSelect, hCommand,
    Bool.false_eq_true, if_false, collected]
  have hFifo := groupLen_cases (s.fifo 0)
  have hBus := groupLen_cases i.dmaWdata
  constructor
  · cases hDma : armCdbDma s i <;>
      cases hFf : armCdbFf s i <;>
      simp <;> grind
  · intro hByte hSkip hPos
    cases hDma : armCdbDma s i <;>
      cases hFf : armCdbFf s i <;>
      simp_all

/- A collection that goes on was not found complete. -/
theorem collector_active
    (hRestart : restarts cfg s i = false)
    (hActive : (clock cfg s i).cdbActive = true) :
    s.cdbActive = true ∧ cdbComplete s = false := by
  simp only [restarts, Bool.or_eq_false_iff] at hRestart
  rcases hRestart with ⟨⟨hResume, hSelect⟩, hCommand⟩
  rw [clock_cdbActive] at hActive
  simp only [hResume, hSelect, hCommand, Bool.false_eq_true,
    if_false] at hActive
  cases hComplete : cdbComplete s with
  | true => simp [hComplete] at hActive
  | false =>
      refine ⟨?_, rfl⟩
      simp only [hComplete, Bool.false_eq_true, if_false]
        at hActive
      grind

/- Once bytes are kept none is left to skip. -/
theorem collector_skip
    (hRestart : restarts cfg s i = false)
    (hSkip : s.skipCnt = 0) :
    (clock cfg s i).skipCnt = 0 := by
  simp only [restarts, Bool.or_eq_false_iff] at hRestart
  rcases hRestart with ⟨⟨hResume, hSelect⟩, hCommand⟩
  simp [clock_skipCnt, hResume, hSelect, hCommand, hSkip]

theorem collect_step
    (hInv : BoundsInv s)
    (hActive : (clock cfg s i).cdbActive = true) :
    (clock cfg s i).cdbPos ≤ (clock cfg s i).cdbNeed := by
  cases hRestart : restarts cfg s i with
  | true =>
      rw [(restart_fields cfg hRestart).1]
      exact Nat.zero_le _
  | false =>
      rcases collector_active cfg hRestart hActive with
        ⟨hWas, hComplete⟩
      rcases collector_need cfg hRestart with ⟨hKept, hFirst⟩
      have hLe := hInv.collect hWas
      have hMore : s.cdbNeed ≠ 0 → s.cdbPos ≠ s.cdbNeed := by
        intro hNeed hEq
        simp [cdbComplete, hWas, hNeed, hEq] at hComplete
      rw [collector_pos cfg hRestart]
      cases hByte : (collected s i).isSome with
      | false => simpa [hKept, hByte] using hLe
      | true =>
          by_cases hSkip : s.skipCnt = 0
          · by_cases hPos : s.cdbPos = 0
            · have hLen := hFirst hByte hSkip hPos
              simp [hSkip, hPos]
              omega
            · have hSame : (clock cfg s i).cdbNeed =
                  s.cdbNeed := by
                simpa [hPos] using hKept
              have hNeed := hInv.need
              rw [hSame]
              simp [hSkip]
              omega
          · simpa [hKept, hByte, hSkip] using hLe

theorem need_step (hInv : BoundsInv s) :
    (clock cfg s i).cdbNeed = 0 ∨
      (clock cfg s i).cdbNeed = 6 ∨
      (clock cfg s i).cdbNeed = 10 := by
  cases hRestart : restarts cfg s i with
  | true => exact .inl (restart_fields cfg hRestart).2
  | false =>
      rcases collector_need cfg hRestart with ⟨hKept, hFirst⟩
      cases hOpcode : (collected s i).isSome &&
          s.skipCnt == 0 && s.cdbPos == 0 with
      | false =>
          rw [hOpcode] at hKept
          simpa [hKept] using hInv.need
      | true =>
          simp only [Bool.and_eq_true, beq_iff_eq] at hOpcode
          exact .inr
            (hFirst hOpcode.1.1 hOpcode.1.2 hOpcode.2)

theorem skips_step
    (hInv : BoundsInv s)
    (hPos : (clock cfg s i).cdbPos ≠ 0) :
    (clock cfg s i).skipCnt = 0 := by
  cases hRestart : restarts cfg s i with
  | true => exact absurd (restart_fields cfg hRestart).1 hPos
  | false =>
      apply collector_skip cfg hRestart
      by_contra hSkip
      apply hPos
      rw [collector_pos cfg hRestart]
      have hZero : s.cdbPos = 0 := by
        by_contra hLate
        exact hSkip (hInv.skips hLate)
      simp [hSkip, hZero]

/- The buffer holds at most a sector, and is not overrun. -/
theorem len_step (hInv : BoundsInv s) :
    (clock cfg s i).sbufLen ≤ 512 := by
  have hLe := hInv.len
  rw [clock_sbufLen]
  split_ifs <;> omega

theorem pos_step (hInv : BoundsInv s) :
    (clock cfg s i).sbufPos ≤ 512 := by
  have hLe := hInv.pos
  have hLen := hInv.len
  have hRead : byteAvail s = true → s.sbufPos < 512 := by
    intro hAvail
    simp only [byteAvail, Bool.and_eq_true,
      decide_eq_true_eq] at hAvail
    omega
  rw [clock_sbufPos]
  split_ifs with hFlush hExec hPio hFill hDrain hPublish
  · exact Nat.zero_le _
  · exact Nat.zero_le _
  · rw [armPioIn_eq, beq_iff_eq] at hPio
    have hLt := hRead (guard_pioIn s i hPio).2.1
    omega
  · rw [armFill_eq, beq_iff_eq] at hFill
    have hLt := hRead (guard_fill s i hFill).2.2.2.2.1
    omega
  · rw [armDrain_eq, beq_iff_eq] at hDrain
    have hLt := (guard_drain s i hDrain).2.2.2
    omega
  · exact Nat.zero_le _
  · exact hLe

/- What every edge keeps. -/
theorem boundsInv_clock (hInv : BoundsInv s) :
    BoundsInv (clock cfg s i) where
  count := clock_fifoCnt_le cfg hInv.count
  len := len_step cfg hInv
  pos := pos_step cfg hInv
  need := need_step cfg hInv
  collect := collect_step cfg hInv
  skips := skips_step cfg hInv

theorem boundsInv_reset
    (s : Chip)
    (hReset : i.nreset = false) :
    BoundsInv (step cfg s i) := by
  simp only [step, hReset, Bool.false_eq_true, if_false]
  constructor <;> simp [sbufPorts, resetRegs]

theorem boundsInv_step
    (s : Chip)
    (i : In)
    (hInv : BoundsInv s) :
    BoundsInv (step cfg s i) := by
  cases hReset : i.nreset with
  | false => exact boundsInv_reset cfg s hReset
  | true =>
      rw [step_of_nreset cfg s i hReset]
      exact boundsInv_clock cfg hInv

end Ncr53c96

------------------------------------------------------------
-- Every Run
------------------------------------------------------------

namespace Ncr53c96

open Clocked

variable (cfg : Config) {s : Chip} {i : In}

/- A collected byte finds the collector open. -/
theorem active_of_collected
    (hByte : (collected s i).isSome = true) :
    s.cdbActive = true := by
  rw [collected] at hByte
  cases hDma : armCdbDma s i with
  | true =>
      rw [armCdbDma_eq, beq_iff_eq] at hDma
      exact (guard_cdbDma s i hDma).2.1
  | false =>
      cases hFf : armCdbFf s i with
      | true =>
          rw [armCdbFf_eq, beq_iff_eq] at hFf
          exact (guard_cdbFf s i hFf).1
      | false => simp [hDma, hFf] at hByte

/- The index is in range exactly when there is room. -/
theorem index_iff (hInv : BoundsInv s) :
    (∀ k, cdbIndex s i = some k → k < 10) ↔
      cdbRoom s i := by
  have hNeed := hInv.need
  constructor
  · intro hIndex hReset hComplete hTen
    by_contra hSome
    simp only [cdbComplete, Bool.and_eq_true, bne_iff_ne,
      beq_iff_eq] at hComplete
    have hByte := Option.isSome_iff_ne_none.mpr hSome
    have hSkip := hInv.skips (by omega)
    have hLt := hIndex s.cdbPos
      (by simp [cdbIndex, hReset, hByte, hSkip])
    omega
  · intro hRoom k hIndex
    simp only [cdbIndex, Option.ite_none_right_eq_some,
      Option.some.injEq, Bool.and_eq_true, beq_iff_eq]
      at hIndex
    rcases hIndex with ⟨⟨⟨hReset, hByte⟩, hSkip⟩, rfl⟩
    have hActive := active_of_collected hByte
    have hLe := hInv.collect hActive
    by_contra hLate
    have hComplete : cdbComplete s = true := by
      simp only [cdbComplete, hActive, Bool.true_and,
        Bool.and_eq_true, bne_iff_ne, beq_iff_eq]
      omega
    have hNone := hRoom hReset hComplete (by omega)
    simp [hNone] at hByte

/- The queue half of the property needs no condition. -/
theorem queue_step (hLe : s.fifoCnt ≤ 16) :
    (fifoTasks cfg s i).length ≤ 1 ∧
      queue (step cfg s i) =
        QueueAct.applyAll (fifoTasks cfg s i) (queue s) ∧
      (QueueAct.pop ∈ fifoTasks cfg s i →
        s.fifoCnt ≠ 0) := by
  cases hReset : i.nreset with
  | false =>
      have hTasks : fifoTasks cfg s i = [.load []] := by
        simp [fifoTasks, hReset]
      rw [hTasks]
      refine ⟨Nat.le_refl 1, ?_, by simp⟩
      simp [step, hReset, queue, sbufPorts, resetRegs,
        QueueAct.applyAll, QueueAct.apply]
  | true =>
      rw [fifoTasks_eq cfg hReset,
        step_of_nreset cfg s i hReset]
      refine ⟨QueueAct.length_effects _ _, ?_, ?_⟩
      · rw [QueueAct.applyAll_effects]
        exact clock_queue cfg hLe
      · intro hPop hEmpty
        exact QueueAct.ne_nil_of_pop_mem_effects hPop
          (contents_eq_nil_iff.mpr hEmpty)

theorem full_push
    (hReset : i.nreset = true)
    (hPush : regWr i 0x2#4 = true)
    (hFull : s.fifoCnt = 16) :
    fifoTasks cfg s i = [] := by
  have hExt : fifoExt i = true := by
    simp only [regWr, Bool.and_eq_true] at hPush
    simp [fifoExt, hPush]
  have hRd : regRd i 0x2#4 = false := by
    cases hRd : regRd i 0x2#4 with
    | false => rfl
    | true =>
        rw [regWr_of_regRd hRd] at hPush
        cases hPush
  have hCmd : ∀ op, cmdIs i op = false := by
    intro op
    cases hOp : cmdIs i op with
    | false => rfl
    | true =>
        rw [regWr_of_cmdIs hOp] at hPush
        cases hPush
  rw [fifoTasks_eq cfg hReset, fifoAct, if_pos hExt]
  simp [registerAct, hRd, hCmd, hFull, QueueAct.effects]

theorem fifoBounded_iff (hInv : BoundsInv s) :
    FifoBounded cfg s i ↔ cdbRoom s i := by
  constructor
  · intro hBounded
    exact (index_iff hInv).mp hBounded.index
  · intro hRoom
    rcases queue_step cfg hInv.count with ⟨hOne, hQueue, hLive⟩
    exact {
      count := hInv.count
      one := hOne
      queue := hQueue
      live := hLive
      full := full_push cfg
      pos := hInv.pos
      index := (index_iff hInv).mpr hRoom }

/-
  In every run from reset, whatever the inputs, every cycle
  keeps the FIFO a bounded queue exactly when no cycle gives
  the collector an eleventh CDB byte.
-/
theorem fifo_bounded_iff (s₀ : Chip) (is : List In) :
    Along (step cfg) (FifoBounded cfg) (powerOn cfg s₀) is ↔
      Along (step cfg) cdbRoom (powerOn cfg s₀) is := by
  have hKeep : ∀ (s : Chip) (i : In), BoundsInv s → True →
      FifoBounded cfg s i → BoundsInv (step cfg s i) := by
    intro s i hInv _ _
    exact boundsInv_step cfg s i hInv
  have hStep : ∀ (s : Chip) (i : In), BoundsInv s → True →
      (FifoBounded cfg s i ↔ cdbRoom s i) := by
    intro s i hInv _
    exact fifoBounded_iff cfg hInv
  have hAny : Along (step cfg) (fun _ _ => True)
      (powerOn cfg s₀) is := along_of_mem (fun _ _ => trivial)
  exact along_iff_along_under hKeep hStep hAny
    (boundsInv_reset cfg s₀ rfl)

/- A ten-byte CDB and one byte more behind it. -/
def longRead : List Byte :=
  [0x28#8, 0x00#8, 0x00#8, 0x00#8, 0x00#8, 0x05#8, 0x00#8,
    0x00#8, 0x01#8, 0x00#8, 0xAA#8]

/- Up to the cycle in which the collector has all ten. -/
def longReadRun : List In :=
  [mountImage] ++ longRead.map (regWrite 0x2#4) ++
    [regWrite 0x3#4 0x41#8] ++ List.replicate 10 quiet

theorem cdb_overrun :
    ¬ ∀ (cfg : Config) (s₀ : Chip) (is : List In),
      Along (step cfg) (FifoBounded cfg)
        (powerOn cfg s₀) is := by
  intro hAll
  have hRun := hAll ⟨0#4, false⟩ default
    (longReadRun ++ [quiet])
  have hLast := ((along_append _ _ _).mp hRun).2.1
  exact absurd (hLast.index 10 (by decide +kernel))
    (Nat.lt_irrefl 10)

end Ncr53c96
