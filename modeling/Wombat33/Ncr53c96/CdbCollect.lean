import Wombat33.Ncr53c96.Reachable

/-
  Collecting a command descriptor block.

  Beside the run a log keeps the bytes the host has delivered
  and the bytes the collector has consumed.  The bytes
  delivered are the consumed ones, then the FIFO; at the edge
  that executes the CDB exactly its bytes were consumed.

  Key definitions include:
    * `Selected`, `CollectOk`
    * `orderly`
    * `CdbKept`
    * `CdbInv`

  Key theorems include:
    * `execCdb_congr`
    * `cdb_exact`
-/

------------------------------------------------------------
-- Selection, Contract and Property
------------------------------------------------------------

namespace Ncr53c96

open Clocked

variable (cfg : Config)

/-
  The mounted target has just accepted a select form with
  `skip` leading message bytes.
-/
def Selected (skip : Nat) (s : Chip) : Prop :=
  ∃ s₀ i₀, Reachable cfg s₀ ∧ i₀.nreset = true ∧
    selectCmd i₀ = true ∧ selected cfg s₀ = true ∧
    skip = selectSkip (cmdOp i₀.wdata) ∧ s = step cfg s₀ i₀

/- The bytes delivered and the bytes consumed so far. -/
structure CdbLog where
  stream : List Byte
  consumed : List Byte

/- The byte an edge gives to the collector. -/
def collected (s : Chip) (i : In) : Option Byte :=
  if armCdbDma s i then some i.dmaWdata
  else if armCdbFf s i then some (s.fifo 0)
  else none

def noteCdb (g : CdbLog) (s : Chip) (i : In) : CdbLog where
  stream := g.stream ++ supplied cfg s i
  consumed := g.consumed ++ (collected s i).toList

/- The FIFO may hold preloaded bytes. -/
def cdbStart (s : Chip) : CdbLog := ⟨queue s, []⟩

/-
  What the host keeps to until the CDB executes: it delivers
  bytes, never into a full FIFO, takes none back and writes
  no other command.
-/
structure CollectOk (s : Chip) (i : In) : Prop where
  clocked : i.nreset = true
  waiting : s.execPending = false
  noDmaRead : i.dmaRd = false
  noFifoRead : regRd i 0x2#4 = false
  noCommand : regWr i 0x3#4 = false
  room : regWr i 0x2#4 = true → s.fifoCnt < 16

instance decidableCollectOk (s : Chip) (i : In) :
    Decidable (CollectOk s i) :=
  decidable_of_iff
    (i.nreset = true ∧ s.execPending = false ∧
      i.dmaRd = false ∧ regRd i 0x2#4 = false ∧
      regWr i 0x3#4 = false ∧
      (regWr i 0x2#4 = true → s.fifoCnt < 16))
    ⟨fun ⟨h₁, h₂, h₃, h₄, h₅, h₆⟩ => ⟨h₁, h₂, h₃, h₄, h₅, h₆⟩,
      fun ⟨h₁, h₂, h₃, h₄, h₅, h₆⟩ => ⟨h₁, h₂, h₃, h₄, h₅, h₆⟩⟩

/-
  No pseudo-DMA byte overtakes the FIFO, nothing is consumed
  in the cycle the CDB is found complete, no data-in transfer
  pushes into the FIFO, and no message-out transfer ends.
-/
def orderly (s : Chip) (i : In) : Prop :=
  (armCdbDma s i = true → s.fifoCnt = 0) ∧
    (cdbComplete s = true → collected s i = none) ∧
    armFill s i = false ∧ armPioIn s i = false ∧
    msgOutDone s = false

instance decidableOrderly (s : Chip) (i : In) :
    Decidable (orderly s i) :=
  inferInstanceAs (Decidable
    ((armCdbDma s i = true → s.fifoCnt = 0) ∧
      (cdbComplete s = true → collected s i = none) ∧
      armFill s i = false ∧ armPioIn s i = false ∧
      msgOutDone s = false))

/-
  What the claim of the collector comes to in one state.  The
  opcode is the first byte after the skipped ones.
-/
structure CdbKept
    (skip : Nat)
    (x : Chip × CdbLog) : Prop where
  order : x.2.stream = x.2.consumed ++ queue x.1
  most : ∀ op, x.2.stream[skip]? = some op →
    x.2.consumed.length ≤ skip + groupLen op
  exact : x.1.execPending = true →
    ∃ op, x.2.stream[skip]? = some op ∧
      x.2.consumed = x.2.stream.take (skip + groupLen op) ∧
      x.2.consumed.length = skip + groupLen op ∧
      queue x.1 = x.2.stream.drop (skip + groupLen op) ∧
      ∀ k < groupLen op,
        x.2.stream[skip + k]? = some (x.1.cdb k)

end Ncr53c96

------------------------------------------------------------
-- The Collector
------------------------------------------------------------

namespace Ncr53c96

variable (cfg : Config) {s : Chip} {i : In}

/- What an edge of a collection does to the collector. -/
theorem clock_collector
    (hOk : CollectOk s i)
    (hMsg : msgOutDone s = false) :
    (clock cfg s i).cdbActive =
        (if cdbComplete s then false else s.cdbActive) ∧
      (clock cfg s i).execPending = cdbComplete s ∧
      (clock cfg s i).skipCnt =
        (if (collected s i).isSome && s.skipCnt != 0 then
          s.skipCnt - 1 else s.skipCnt) ∧
      (clock cfg s i).cdbPos =
        (if (collected s i).isSome && s.skipCnt == 0 then
          (s.cdbPos + 1) % 16 else s.cdbPos) := by
  have hCmd : ∀ op, cmdIs i op = false :=
    fun op => cmdIs_of_not_regWr hOk.noCommand
  have hSelect : selectCmd i = false := by
    simp [selectCmd, hOk.noCommand]
  have hWait := hOk.waiting
  refine ⟨?_, ?_, ?_, ?_⟩
  · simp [clock_cdbActive, hCmd, hSelect, hMsg]
  · simp [clock_execPending, hCmd, hWait]
  · rw [clock_skipCnt, collected]
    by_cases hSkip : s.skipCnt = 0 <;>
      cases armCdbDma s i <;> cases armCdbFf s i <;>
      simp [hCmd, hSelect, hMsg, hSkip]
  · rw [clock_cdbPos, collected]
    by_cases hSkip : s.skipCnt = 0 <;>
      cases armCdbDma s i <;> cases armCdbFf s i <;>
      simp [hCmd, hSelect, hMsg, hSkip]

/- The length and the cells, for the byte collected. -/
theorem clock_cdb_byte
    {b : Byte}
    (hOk : CollectOk s i)
    (hMsg : msgOutDone s = false)
    (hByte : collected s i = some b) :
    (clock cfg s i).cdbNeed =
        (if s.skipCnt == 0 && s.cdbPos == 0 then groupLen b
          else s.cdbNeed) ∧
      ∀ k, (clock cfg s i).cdb k =
        if s.skipCnt == 0 && k == s.cdbPos then b
        else s.cdb k := by
  have hCmd : ∀ op, cmdIs i op = false :=
    fun op => cmdIs_of_not_regWr hOk.noCommand
  have hSelect : selectCmd i = false := by
    simp [selectCmd, hOk.noCommand]
  have hOne : armCdbDma s i = true → armCdbFf s i = false := by
    intro hDma
    simp [armCdbFf, noDmaArm, hDma]
  simp only [clock_cdbNeed, clock_cdb]
  simp only [collected] at hByte
  cases hDma : armCdbDma s i with
  | true =>
      have hFf := hOne hDma
      simp_all
  | false =>
      cases hFf : armCdbFf s i <;> simp_all

theorem clock_cdb_idle
    (hOk : CollectOk s i)
    (hMsg : msgOutDone s = false)
    (hNone : collected s i = none) :
    (clock cfg s i).cdbNeed = s.cdbNeed ∧
      (clock cfg s i).cdb = s.cdb := by
  have hCmd : ∀ op, cmdIs i op = false :=
    fun op => cmdIs_of_not_regWr hOk.noCommand
  have hSelect : selectCmd i = false := by
    simp [selectCmd, hOk.noCommand]
  have hArms : armCdbDma s i = false ∧ armCdbFf s i = false := by
    simp only [collected] at hNone
    cases hDma : armCdbDma s i <;>
      cases hFf : armCdbFf s i <;> simp_all
  refine ⟨?_, funext fun k => ?_⟩
  · simp [clock_cdbNeed, hCmd, hSelect, hMsg, hArms]
  · simp [clock_cdb, hArms]

/- While the collector is open the FIFO gives to it alone. -/
theorem collect_arm
    (hOk : CollectOk s i)
    (hActive : s.cdbActive = true)
    (hFill : armFill s i = false)
    (hPioIn : armPioIn s i = false) :
    arm s i = .cdbDma ∨ arm s i = .cdbFf ∨ arm s i = .idle := by
  have hNoRead : i.dmaRd = false := hOk.noDmaRead
  cases hArm : arm s i with
  | pop => simpa [hNoRead] using (guard_pop s i hArm).1
  | rdIdle =>
      have hGuard : armRdIdle s i = true := by
        simp [armRdIdle_eq, hArm]
      simp [armRdIdle, engRd, hNoRead] at hGuard
  | cdbDma => exact .inl rfl
  | outDma =>
      have hGuard : armOutDma s i = true := by
        simp [armOutDma_eq, hArm]
      simp only [armOutDma, armCdbDma, hActive] at hGuard
      grind
  | swallow =>
      simpa [hActive] using (guard_swallow s i hArm).2.1
  | cdbFf => exact .inr (.inl rfl)
  | drain =>
      have hGuard : armDrain s i = true := by
        simp [armDrain_eq, hArm]
      simp only [armDrain, armCdbFf, hActive] at hGuard
      grind
  | fill => simp [armFill_eq, hArm] at hFill
  | pioIn => simp [armPioIn_eq, hArm] at hPioIn
  | msgOut =>
      have hGuard : armMsgOut s i = true := by
        simp [armMsgOut_eq, hArm]
      simp only [armMsgOut, armCdbFf, hActive] at hGuard
      grind
  | idle => exact .inr (.inr rfl)

end Ncr53c96

------------------------------------------------------------
-- The Collection Invariant
------------------------------------------------------------

namespace Ncr53c96

open Clocked

/-
  The collector's registers, read off the bytes consumed.
-/
structure CdbInv
    (skip : Nat)
    (x : Chip × CdbLog) : Prop where
  fifo : x.1.fifoCnt ≤ 16
  order : x.2.stream = x.2.consumed ++ queue x.1
  active : x.1.cdbActive = !x.1.execPending
  skips : x.1.skipCnt = skip - x.2.consumed.length
  pos : x.1.cdbPos = x.2.consumed.length - skip
  need : x.1.cdbNeed = x.2.consumed[skip]?.elim 0 groupLen
  most : x.1.cdbNeed ≠ 0 → x.1.cdbPos ≤ x.1.cdbNeed
  cdb : ∀ k < x.1.cdbPos,
    x.2.consumed[skip + k]? = some (x.1.cdb k)
  full : x.1.execPending = true →
    x.1.cdbNeed ≠ 0 ∧ x.1.cdbPos = x.1.cdbNeed

variable {cfg : Config} {skip : Nat}
variable {s : Chip} {g : CdbLog} {i : In}

theorem groupLen_cases (op : Byte) :
    groupLen op = 6 ∨ groupLen op = 10 := by
  unfold groupLen
  split
  · exact .inr rfl
  · exact .inl rfl

/- Once the opcode is consumed the length is known. -/
theorem need_of_opcode
    {x : Chip × CdbLog} {op : Byte}
    (hInv : CdbInv skip x)
    (hOp : x.2.stream[skip]? = some op)
    (hLate : skip < x.2.consumed.length) :
    x.1.cdbNeed = groupLen op := by
  rw [hInv.order, List.getElem?_append_left hLate] at hOp
  rw [hInv.need, hOp]
  rfl

/- The invariant is all that is asked for. -/
theorem cdbKept_of_inv
    {x : Chip × CdbLog}
    (hInv : CdbInv skip x) :
    CdbKept skip x where
  order := hInv.order
  most := by
    intro op hOp
    by_cases hLate : skip < x.2.consumed.length
    · have hNeed := need_of_opcode hInv hOp hLate
      have hSome := groupLen_cases op
      have hMost := hInv.most (by omega)
      have hPos := hInv.pos
      omega
    · omega
  exact := by
    intro hExec
    rcases hInv.full hExec with ⟨hNeed, hFull⟩
    have hPos := hInv.pos
    have hLate : skip < x.2.consumed.length := by omega
    have hOp : x.2.stream[skip]? =
        some x.2.consumed[skip] := by
      rw [hInv.order, List.getElem?_append_left hLate,
        List.getElem?_eq_getElem hLate]
    have hLen := need_of_opcode hInv hOp hLate
    have hCount : x.2.consumed.length =
        skip + groupLen x.2.consumed[skip] := by omega
    refine ⟨_, hOp, ?_, hCount, ?_, ?_⟩
    · rw [hInv.order, ← hCount, List.take_left]
    · rw [hInv.order, ← hCount, List.drop_left]
    · intro k hk
      rw [hInv.order, List.getElem?_append_left (by omega)]
      exact hInv.cdb k (by omega)

/- What is delivered is consumed or waits, in order. -/
theorem collect_order
    (cfg : Config)
    (hFifo : s.fifoCnt ≤ 16)
    (hActive : s.cdbActive = true)
    (hOk : CollectOk s i)
    (hClean : orderly s i) :
    queue s ++ supplied cfg s i =
      (collected s i).toList ++ queue (clock cfg s i) := by
  rcases hClean with ⟨hNoOvertake, -, hFill, hPioIn, -⟩
  have hNoRd : regRd i 0x2#4 = false := hOk.noFifoRead
  have hCmd : ∀ op, cmdIs i op = false :=
    fun op => cmdIs_of_not_regWr hOk.noCommand
  rw [clock_queue cfg hFifo, fifoAct, supplied,
    step_of_nreset cfg s i hOk.clocked, clock_dmaValid]
  cases hExt : fifoExt i with
  | true =>
      have hIdle := arm_of_fifoExt s i hExt
      cases hPush : regWr i 0x2#4 with
      | true =>
          have hRoom : s.fifoCnt < 16 := hOk.room hPush
          simp [collected, registerAct, armSwallow_eq,
            armOutDma_eq, armCdbDma_eq, armRdIdle_eq, armPop_eq,
            armCdbFf_eq, hIdle, hNoRd, hCmd, hPush, hRoom,
            QueueAct.apply]
      | false =>
          simp [collected, registerAct, armSwallow_eq,
            armOutDma_eq, armCdbDma_eq, armRdIdle_eq, armPop_eq,
            armCdbFf_eq, hIdle, hNoRd, hCmd, hPush,
            QueueAct.apply]
  | false =>
      have hPush := (regs_of_not_fifoExt hExt).1
      rcases collect_arm hOk hActive hFill hPioIn with
        hArm | hArm | hArm
      · have hDma : armCdbDma s i = true := by
          simp [armCdbDma_eq, hArm]
        have hEmpty : queue s = [] :=
          contents_eq_nil_iff.mpr (hNoOvertake hDma)
        have hWr := (guard_cdbDma s i hArm).1
        simp [collected, engineAct, hArm, hDma, hEmpty, hWr,
          QueueAct.apply]
      · have hLive := (guard_cdbFf s i hArm).2
        have hQueue : queue s = s.fifo 0 :: (queue s).tail := by
          rcases Nat.exists_eq_succ_of_ne_zero hLive with
            ⟨m, hm⟩
          rw [queue, hm, contents_succ_head]
          rfl
        simpa [collected, engineAct, armSwallow_eq,
          armOutDma_eq, armCdbDma_eq, armRdIdle_eq, armPop_eq,
          armCdbFf_eq, hArm, hPush, QueueAct.apply]
          using hQueue
      · simp [collected, engineAct, armSwallow_eq,
          armOutDma_eq, armCdbDma_eq, armRdIdle_eq, armPop_eq,
          armCdbFf_eq, hArm, hPush, QueueAct.apply]

/- Nothing is consumed: the CDB may be found complete. -/
theorem cdbInv_idle
    (hInv : CdbInv skip (s, g))
    (hOk : CollectOk s i)
    (hClean : orderly s i)
    (hNone : collected s i = none) :
    CdbInv skip (clock cfg s i, noteCdb cfg g s i) := by
  have hWait : s.execPending = false := hOk.waiting
  have hActive : s.cdbActive = true := by
    rw [show s.cdbActive = !s.execPending from hInv.active,
      hWait]
    rfl
  have hOrder := collect_order cfg hInv.fifo hActive hOk
    hClean
  rcases clock_collector cfg hOk hClean.2.2.2.2 with
    ⟨hActive', hExec', hSkip', hPos'⟩
  rcases clock_cdb_idle cfg hOk hClean.2.2.2.2 hNone with
    ⟨hNeed', hCdb'⟩
  simp only [hNone, Option.isSome_none, Bool.false_and,
    Bool.false_eq_true, if_false] at hSkip' hPos'
  have hConsumed : (noteCdb cfg g s i).consumed =
      g.consumed := by
    simp [noteCdb, hNone]
  exact {
    fifo := clock_fifoCnt_le cfg hInv.fifo
    order := by
      have hOld : g.stream = g.consumed ++ queue s :=
        hInv.order
      simp only [hNone, Option.toList_none, List.nil_append]
        at hOrder
      show g.stream ++ supplied cfg s i = _
      rw [hConsumed, hOld, List.append_assoc, hOrder]
    active := by
      rw [hActive', hExec', hActive]
      cases cdbComplete s <;> rfl
    skips := by
      rw [hConsumed, hSkip']
      exact hInv.skips
    pos := by
      rw [hConsumed, hPos']
      exact hInv.pos
    need := by
      rw [hConsumed, hNeed']
      exact hInv.need
    most := by
      rw [hNeed', hPos']
      exact hInv.most
    cdb := by
      rw [hConsumed, hPos', hCdb']
      exact hInv.cdb
    full := by
      rw [hExec', hNeed', hPos', cdbComplete_iff]
      exact And.right }

/- A byte is consumed: skipped, or stored in its cell. -/
theorem cdbInv_byte
    {b : Byte}
    (hInv : CdbInv skip (s, g))
    (hOk : CollectOk s i)
    (hClean : orderly s i)
    (hByte : collected s i = some b) :
    CdbInv skip (clock cfg s i, noteCdb cfg g s i) := by
  have hWait : s.execPending = false := hOk.waiting
  have hActive : s.cdbActive = true := by
    rw [show s.cdbActive = !s.execPending from hInv.active,
      hWait]
    rfl
  have hNotYet : cdbComplete s = false := by
    by_contra hComplete
    rw [hClean.2.1 (by simpa using hComplete)] at hByte
    simp at hByte
  have hOrder := collect_order cfg hInv.fifo hActive hOk
    hClean
  rcases clock_collector cfg hOk hClean.2.2.2.2 with
    ⟨hActive', hExec', hSkip', hPos'⟩
  rcases clock_cdb_byte cfg hOk hClean.2.2.2.2 hByte with
    ⟨hNeed', hCdb'⟩
  simp only [hByte, Option.isSome_some, Bool.true_and]
    at hSkip' hPos'
  have hConsumed : (noteCdb cfg g s i).consumed =
      g.consumed ++ [b] := by
    simp [noteCdb, hByte]
  have hSkip : s.skipCnt = skip - g.consumed.length :=
    hInv.skips
  have hPos : s.cdbPos = g.consumed.length - skip := hInv.pos
  have hNeed : s.cdbNeed = g.consumed[skip]?.elim 0 groupLen :=
    hInv.need
  have hMost : s.cdbNeed ≠ 0 → s.cdbPos ≤ s.cdbNeed :=
    hInv.most
  have hCdb : ∀ k < s.cdbPos,
      g.consumed[skip + k]? = some (s.cdb k) := hInv.cdb
  have hLen : (g.consumed ++ [b]).length =
      g.consumed.length + 1 := by simp
  -- the opcode, once consumed, stays in its place
  have hLate : skip < g.consumed.length →
      (g.consumed ++ [b])[skip]? = g.consumed[skip]? :=
    List.getElem?_append_left
  have hRoom : s.cdbPos ≠ 0 →
      s.cdbNeed ≠ 0 ∧ s.cdbPos < s.cdbNeed ∧
        s.cdbNeed ≤ 10 := by
    intro hStarted
    have hOp := List.getElem?_eq_getElem
      (show skip < g.consumed.length by omega)
    rw [hOp] at hNeed
    have hKnown : s.cdbNeed = groupLen g.consumed[skip] :=
      hNeed
    have hSome := groupLen_cases g.consumed[skip]
    have hNotFull : s.cdbPos ≠ s.cdbNeed := by
      intro hFull
      have hComplete := cdbComplete_iff.mpr
        ⟨hActive, by omega, hFull⟩
      rw [hNotYet] at hComplete
      simp at hComplete
    have hLe := hMost (by omega)
    omega
  have hOrder' : (noteCdb cfg g s i).stream =
      (noteCdb cfg g s i).consumed ++
        queue (clock cfg s i) := by
    have hOld : g.stream = g.consumed ++ queue s := hInv.order
    simp only [hByte, Option.toList_some] at hOrder
    show g.stream ++ supplied cfg s i = _
    rw [hConsumed, hOld, List.append_assoc, hOrder,
      List.append_assoc]
  have hRest : (clock cfg s i).execPending = false ∧
      (clock cfg s i).cdbActive = true := by
    rw [hExec', hActive', hNotYet]
    exact ⟨rfl, hActive⟩
  by_cases hSkipping : s.skipCnt = 0
  · simp only [hSkipping, bne_self_eq_false, beq_self_eq_true,
      Bool.false_eq_true, if_false, if_true, Bool.true_and]
      at hSkip' hPos' hNeed' hCdb'
    have hNext : (s.cdbPos + 1) % 16 = s.cdbPos + 1 := by
      by_cases hStarted : s.cdbPos = 0
      · simp [hStarted]
      · have := hRoom hStarted
        omega
    rw [hNext] at hPos'
    have hNeedNext : (clock cfg s i).cdbNeed =
        (g.consumed ++ [b])[skip]?.elim 0 groupLen := by
      rw [hNeed']
      by_cases hStarted : s.cdbPos = 0
      · have hHere : skip = g.consumed.length := by omega
        rw [if_pos (by simpa using hStarted), hHere,
          List.getElem?_concat_length]
        rfl
      · rw [if_neg (by simpa using hStarted),
          hLate (by omega)]
        exact hNeed
    exact {
      fifo := clock_fifoCnt_le cfg hInv.fifo
      order := hOrder'
      active := by rw [hRest.1, hRest.2]; rfl
      skips := by
        rw [hConsumed, hLen, hSkip']
        omega
      pos := by
        rw [hConsumed, hLen, hPos']
        omega
      need := by rw [hConsumed]; exact hNeedNext
      most := by
        intro _
        rw [hPos', hNeed']
        by_cases hStarted : s.cdbPos = 0
        · have hSome := groupLen_cases b
          rw [if_pos (by simpa using hStarted)]
          omega
        · have := hRoom hStarted
          rw [if_neg (by simpa using hStarted)]
          omega
      cdb := by
        intro k hk
        rw [hPos'] at hk
        rw [hConsumed, hCdb' k]
        by_cases hNew : k = s.cdbPos
        · have hHere : skip + k = g.consumed.length := by omega
          rw [if_pos (by simpa using hNew), hHere,
            List.getElem?_concat_length]
        · rw [if_neg (by simpa using hNew),
            List.getElem?_append_left (by omega)]
          exact hCdb k (by omega)
      full := by simp [hRest.1] }
  · simp only [beq_eq_false_iff_ne.mpr hSkipping,
      bne_iff_ne.mpr hSkipping, Bool.false_eq_true, if_false,
      if_true, Bool.false_and] at hSkip' hPos' hNeed' hCdb'
    have hEarly : g.consumed.length < skip := by omega
    exact {
      fifo := clock_fifoCnt_le cfg hInv.fifo
      order := hOrder'
      active := by rw [hRest.1, hRest.2]; rfl
      skips := by
        rw [hConsumed, hLen, hSkip']
        omega
      pos := by
        rw [hConsumed, hLen, hPos']
        omega
      need := by
        rw [hConsumed, hNeed', hNeed,
          List.getElem?_eq_none (by omega),
          List.getElem?_eq_none (by omega)]
      most := by
        rw [hNeed', hPos']
        exact hMost
      cdb := by
        intro k hk
        rw [hPos'] at hk
        omega
      full := by simp [hRest.1] }

theorem cdbInv_step
    (x : Chip × CdbLog)
    (i : In)
    (hInv : CdbInv skip x)
    (hOk : CollectOk x.1 i ∧ orderly x.1 i) :
    CdbInv skip (watch (step cfg) (noteCdb cfg) x i) := by
  rcases x with ⟨s, g⟩
  show CdbInv skip (step cfg s i, noteCdb cfg g s i)
  rw [step_of_nreset cfg s i hOk.1.clocked]
  cases hByte : collected s i with
  | none => exact cdbInv_idle hInv hOk.1 hOk.2 hByte
  | some b => exact cdbInv_byte hInv hOk.1 hOk.2 hByte

end Ncr53c96

------------------------------------------------------------
-- The Start
------------------------------------------------------------

namespace Ncr53c96

open Clocked

variable {cfg : Config} {skip : Nat}
variable {s : Chip} {i : In}

/- An accepted select opens an empty collection. -/
theorem clock_select
    (hSelect : selectCmd i = true)
    (hHit : selected cfg s = true) :
    (clock cfg s i).cdbActive = true ∧
      (clock cfg s i).cdbPos = 0 ∧
      (clock cfg s i).cdbNeed = 0 ∧
      (clock cfg s i).skipCnt =
        selectSkip (cmdOp i.wdata) := by
  have hOther {op : BitVec 7} (hNot : selectOp op = false) :=
    cmdIs_of_selectCmd hSelect hNot
  simp [clock_cdbActive, clock_cdbPos, clock_cdbNeed,
    clock_skipCnt, @hOther 0x12#7 (by decide),
    @hOther 0x43#7 (by decide), hSelect, hHit]

theorem cdbInv_start
    (hSelected : Selected cfg skip s)
    (hFresh : s.execPending = false) :
    CdbInv skip (s, cdbStart s) := by
  rcases hSelected with
    ⟨s₀, i₀, hReach, hReset, hSelect, hHit, rfl, rfl⟩
  have hFifo := reachable_fifoCnt_le
    (reachable_step hReach hReset)
  rw [step_of_nreset cfg s₀ i₀ hReset] at hFresh ⊢
  rcases clock_select hSelect hHit with
    ⟨hActive, hPos, hNeed, hSkip⟩
  exact {
    fifo := hFifo
    order := by simp [cdbStart]
    active := by simp [hActive, hFresh]
    skips := by simp [cdbStart, hSkip]
    pos := by simp [cdbStart, hPos]
    need := by simp [cdbStart, hNeed]
    most := by simp [hNeed]
    cdb := by simp [hPos]
    full := by simp [hFresh] }

end Ncr53c96

------------------------------------------------------------
-- Progress
------------------------------------------------------------

namespace Ncr53c96

open Clocked

variable {cfg : Config} {skip : Nat} {op : Byte}
variable {s : Chip} {g : CdbLog} {i : In}

/- The whole CDB was delivered. -/
structure Delivered
    (skip : Nat)
    (op : Byte)
    (x : Chip × CdbLog) : Prop where
  inv : CdbInv skip x
  opcode : x.2.stream[skip]? = some op
  enough : skip + groupLen op ≤ x.2.stream.length

/- The edges it takes to consume it and find it complete. -/
def cdbWork
    (skip : Nat)
    (op : Byte)
    (x : Chip × CdbLog) : Nat :=
  skip + groupLen op - x.2.consumed.length +
    if x.1.execPending then 0 else 1

theorem cdbWork_le
    {x : Chip × CdbLog}
    (hMost : x.2.consumed.length ≤ skip + groupLen op) :
    cdbWork skip op x ≤
      skip + groupLen op + 1 - x.2.consumed.length := by
  unfold cdbWork
  split <;> omega

theorem delivered_step
    (x : Chip × CdbLog)
    (i : In)
    (hAll : Delivered skip op x)
    (hOk : CollectOk x.1 i ∧ orderly x.1 i) :
    Delivered skip op
      (watch (step cfg) (noteCdb cfg) x i) where
  inv := cdbInv_step x i hAll.inv hOk
  opcode := by
    rcases List.getElem?_eq_some_iff.mp hAll.opcode with
      ⟨hLt, -⟩
    simp only [watch_snd, noteCdb]
    rw [List.getElem?_append_left hLt]
    exact hAll.opcode
  enough := by
    simp only [watch_snd, noteCdb, List.length_append]
    exact Nat.le_add_right_of_le hAll.enough

/- With the FIFO left alone, a byte goes or the end is found. -/
theorem collects_of_free
    (hAll : Delivered skip op (s, g))
    (hOk : CollectOk s i)
    (hClean : orderly s i)
    (hFree : fifoExt i = false)
    (hNone : collected s i = none) :
    cdbComplete s = true := by
  have hInv := hAll.inv
  have hWait : s.execPending = false := hOk.waiting
  have hActive : s.cdbActive = true := by
    rw [show s.cdbActive = !s.execPending from hInv.active,
      hWait]
    rfl
  have hIdle : armCdbFf s i = false := by
    simp only [collected] at hNone
    cases hFf : armCdbFf s i with
    | true => cases hDma : armCdbDma s i <;> simp_all
    | false => rfl
  have hArm : arm s i = .idle := by
    rcases collect_arm hOk hActive hClean.2.2.1
      hClean.2.2.2.1 with hArm | hArm | hArm
    · simp [collected, armCdbDma_eq, hArm] at hNone
    · simp [armCdbFf_eq, hArm] at hIdle
    · exact hArm
  have hEmpty : s.fifoCnt = 0 := by
    simpa [armCdbFf, noDmaArm, armPop_eq, armRdIdle_eq,
      armCdbDma_eq, armOutDma_eq, armSwallow_eq, hArm, hFree,
      hActive] using hIdle
  have hOrder : g.stream = g.consumed ++ queue s :=
    hInv.order
  have hLength := congrArg List.length hOrder
  simp only [List.length_append, length_queue, hEmpty,
    Nat.add_zero] at hLength
  have hEnough : skip + groupLen op ≤ g.stream.length :=
    hAll.enough
  have hLen := groupLen_cases op
  have hLate : skip < g.consumed.length := by omega
  have hNeed : s.cdbNeed = groupLen op :=
    need_of_opcode hInv hAll.opcode hLate
  have hPos : s.cdbPos = g.consumed.length - skip := hInv.pos
  have hMost : s.cdbNeed ≠ 0 → s.cdbPos ≤ s.cdbNeed :=
    hInv.most
  have hLe := hMost (by omega)
  exact cdbComplete_iff.mpr ⟨hActive, by omega, by omega⟩

theorem cdbWork_step
    (hAll : Delivered skip op (s, g))
    (hOk : CollectOk s i)
    (hClean : orderly s i) :
    cdbWork skip op (clock cfg s i, noteCdb cfg g s i) +
        (if fifoExt i then 0 else 1) ≤
      cdbWork skip op (s, g) := by
  have hWait : s.execPending = false := hOk.waiting
  have hExec' := (clock_collector cfg hOk hClean.2.2.2.2).2.1
  have hNext := @delivered_step cfg skip op (s, g) i hAll
    ⟨hOk, hClean⟩
  rw [show watch (step cfg) (noteCdb cfg) (s, g) i =
    (step cfg s i, noteCdb cfg g s i) from rfl,
    step_of_nreset cfg s i hOk.clocked] at hNext
  have hMost : (noteCdb cfg g s i).consumed.length ≤
      skip + groupLen op :=
    (cdbKept_of_inv hNext.inv).most op hNext.opcode
  simp only [cdbWork, hExec', hWait, Bool.false_eq_true,
    if_false]
  cases hByte : collected s i with
  | some b =>
      have hConsumed : (noteCdb cfg g s i).consumed.length =
          g.consumed.length + 1 := by
        simp [noteCdb, hByte]
      simp only [hConsumed] at hMost ⊢
      split_ifs <;> omega
  | none =>
      have hConsumed : (noteCdb cfg g s i).consumed =
          g.consumed := by
        simp [noteCdb, hByte]
      simp only [hConsumed]
      cases hExt : fifoExt i with
      | true =>
          simp only [if_true]
          split_ifs <;> omega
      | false =>
          have hDone := collects_of_free hAll hOk hClean hExt
            hByte
          simp [hDone]

/-
  Once the CDB is delivered, as many edges that leave the
  FIFO alone as there is work left make it execute.
-/
theorem collect_progress
    {x : Chip × CdbLog}
    {is : List In}
    (hAll : Delivered skip op x)
    (hOk : Along (watch (step cfg) (noteCdb cfg))
      (fun x i => CollectOk x.1 i ∧ orderly x.1 i) x is)
    (hFree : cdbWork skip op x ≤
      enabledCount (watch (step cfg) (noteCdb cfg))
        (fun _ i => !fifoExt i) x is) :
    (run (watch (step cfg) (noteCdb cfg))
      x is).1.execPending = true := by
  have hLe : ∀ (x : Chip × CdbLog) i, Delivered skip op x →
      CollectOk x.1 i ∧ orderly x.1 i →
      cdbWork skip op (watch (step cfg) (noteCdb cfg) x i) +
          (if fifoExt i then 0 else 1) ≤
        cdbWork skip op x := by
    rintro ⟨s, g⟩ i hAll ⟨hOk, hClean⟩
    rw [show watch (step cfg) (noteCdb cfg) (s, g) i =
      (step cfg s i, noteCdb cfg g s i) from rfl,
      step_of_nreset cfg s i hOk.clocked]
    exact cdbWork_step hAll hOk hClean
  have hDone : cdbWork skip op
      (run (watch (step cfg) (noteCdb cfg)) x is) = 0 := by
    apply @measure_exhausted _ _ _ _ (Delivered skip op)
      (fun _ i => !fifoExt i) (cdbWork skip op)
      delivered_step _ _ x is hOk hAll hFree
    · intro x i hAll hOk
      exact Nat.le_trans (Nat.le_add_right _ _)
        (hLe x i hAll hOk)
    · intro x i hAll hOk hEnabled _
      have hStep := hLe x i hAll hOk
      rw [if_neg (by simpa using hEnabled)] at hStep
      exact Nat.lt_of_succ_le hStep
  by_contra hNot
  simp [cdbWork, hNot] at hDone

end Ncr53c96

------------------------------------------------------------
-- Execution Depends on the CDB Alone
------------------------------------------------------------

namespace Ncr53c96

variable {s t : Chip}

theorem startBlocks_false
    (lba : BitVec 32) (count : Nat) (dirIn : Bool) (n : Chip) :
    startBlocks false lba count dirIn n = n := rfl

theorem readCapacity_congr
    (hDisk : s.diskBlocks = t.diskBlocks)
    (go : Bool) (n : Chip) :
    readCapacity go s n = readCapacity go t n := by
  rw [readCapacity, readCapacity, hDisk]

theorem requestSense_congr
    (hSense : s.senseKey = t.senseKey)
    (go : Bool) (n : Chip) :
    requestSense go s n = requestSense go t n := by
  rw [requestSense, requestSense, hSense]

/- A block command reads no more than its own CDB. -/
theorem startBlocks_congr
    {op : Byte} {n : Chip} {dirIn : Bool}
    {lba : Chip → BitVec 32} {count : Chip → Nat}
    (hSame : s.cdb 0 = op → lba s = lba t ∧ count s = count t) :
    startBlocks (s.cdb 0 == op) (lba s) (count s) dirIn n =
      startBlocks (s.cdb 0 == op) (lba t) (count t) dirIn n := by
  by_cases hOp : s.cdb 0 = op
  · rw [(hSame hOp).1, (hSame hOp).2]
  · rw [beq_eq_false_iff_ne.mpr hOp, startBlocks_false,
      startBlocks_false]

/-
  What a CDB does depends on its own bytes, on the sense key
  and on the size of the disk.
-/
theorem execCdb_congr
    (hCdb : ∀ k < groupLen (s.cdb 0), s.cdb k = t.cdb k)
    (hSense : s.senseKey = t.senseKey)
    (hDisk : s.diskBlocks = t.diskBlocks)
    (n : Chip) :
    execCdb true s n = execCdb true t n := by
  have hOp : s.cdb 0 = t.cdb 0 := by
    apply hCdb
    have hLen := groupLen_cases (s.cdb 0)
    omega
  have hLong : ∀ op, groupLen op = 10 → s.cdb 0 = op →
      lba10 s = lba10 t ∧ count10 s = count10 t := by
    intro op hTen hIs
    rw [hIs, hTen] at hCdb
    simp [lba10, count10, hCdb]
  have hShort : ∀ op, groupLen op = 6 → s.cdb 0 = op →
      lba6 s = lba6 t ∧ count6 s = count6 t := by
    intro op hSix hIs
    rw [hIs, hSix] at hCdb
    simp [lba6, count6, hCdb]
  simp only [execCdb, Bool.true_and, ← hOp,
    readCapacity_congr hDisk, requestSense_congr hSense,
    startBlocks_congr (hLong 0x2A#8 rfl),
    startBlocks_congr (hLong 0x28#8 rfl),
    startBlocks_congr (hShort 0x0A#8 rfl),
    startBlocks_congr (hShort 0x08#8 rfl)]

/- Two collections of one CDB execute alike. -/
theorem execArm_congr
    {skip skip' : Nat}
    {x y : Chip × CdbLog}
    {op : Byte}
    (hKept : CdbKept skip x)
    (hKept' : CdbKept skip' y)
    (hExec : x.1.execPending = true)
    (hExec' : y.1.execPending = true)
    (hOp : x.2.stream[skip]? = some op)
    (hSame : ∀ k < groupLen op,
      x.2.stream[skip + k]? = y.2.stream[skip' + k]?)
    (hSense : x.1.senseKey = y.1.senseKey)
    (hDisk : x.1.diskBlocks = y.1.diskBlocks)
    (n : Chip) :
    execArm x.1 n = execArm y.1 n := by
  rcases hKept.exact hExec with ⟨op₁, hOp₁, -, -, -, hCdb⟩
  rcases hKept'.exact hExec' with ⟨op₂, hOp₂, -, -, -, hCdb'⟩
  have hLen := groupLen_cases op
  have hOne : op₁ = op := by
    rw [hOp₁] at hOp
    exact Option.some.inj hOp
  have hTwo : op₂ = op := by
    have hFirst := hSame 0 (by omega)
    simp only [Nat.add_zero, hOp₂, hOp] at hFirst
    exact (Option.some.inj hFirst).symm
  subst hOne
  rw [hTwo] at hCdb'
  have hCells : ∀ k < groupLen op₁,
      x.1.cdb k = y.1.cdb k := by
    intro k hk
    have hCell := hCdb k hk
    rw [hSame k hk, hCdb' k hk] at hCell
    exact (Option.some.inj hCell).symm
  have hHead : x.1.cdb 0 = op₁ := by
    have hCell := hCdb 0 (by omega)
    simp only [Nat.add_zero, hOp₁] at hCell
    exact (Option.some.inj hCell).symm
  rw [execArm, execArm, hExec, hExec']
  exact execCdb_congr (by rw [hHead]; exact hCells)
    hSense hDisk _

end Ncr53c96

------------------------------------------------------------
-- Exact Collection
------------------------------------------------------------

namespace Ncr53c96

open Clocked

/-
  A run from an accepted select under the host's contract.
-/
structure Collection
    (cfg : Config)
    (skip : Nat)
    (s : Chip)
    (is : List In) : Prop where
  select : Selected cfg skip s
  ok : Along (step cfg) CollectOk s is

/-
  No earlier CDB is about to execute, and every edge of the
  collection is orderly.
-/
def Orderly (cfg : Config) (s : Chip) (is : List In) : Prop :=
  s.execPending = false ∧ Along (step cfg) orderly s is

/- The state and the log a collection ends in. -/
def collectRun
    (cfg : Config)
    (s : Chip)
    (is : List In) : Chip × CdbLog :=
  run (watch (step cfg) (noteCdb cfg)) (s, cdbStart s) is

/-
  Every orderly collection consumes exactly its CDB, in order;
  once the CDB is delivered it executes after at most its
  remaining bytes and one edge that leaves the FIFO alone; and
  two collections of one CDB, through whatever forms and
  ports, execute alike on the same target.
-/
theorem cdb_exact
    (cfg : Config)
    (skip : Nat)
    (s : Chip)
    (is : List In)
    (hRun : Collection cfg skip s is)
    (hOrderly : Orderly cfg s is) :
    Always (watch (step cfg) (noteCdb cfg)) (CdbKept skip)
        (s, cdbStart s) is ∧
      (∀ pre post op, is = pre ++ post →
        (collectRun cfg s pre).2.stream[skip]? = some op →
        skip + groupLen op ≤
          (collectRun cfg s pre).2.stream.length →
        skip + groupLen op + 1 ≤
          (collectRun cfg s pre).2.consumed.length +
            enabledCount (watch (step cfg) (noteCdb cfg))
              (fun _ i => !fifoExt i)
              (collectRun cfg s pre) post →
        (collectRun cfg s is).1.execPending = true) ∧
      ∀ skip' t js op,
        Collection cfg skip' t js → Orderly cfg t js →
        (collectRun cfg s is).1.execPending = true →
        (collectRun cfg t js).1.execPending = true →
        (collectRun cfg s is).2.stream[skip]? = some op →
        (∀ k < groupLen op,
          (collectRun cfg s is).2.stream[skip + k]? =
            (collectRun cfg t js).2.stream[skip' + k]?) →
        (collectRun cfg s is).1.senseKey =
          (collectRun cfg t js).1.senseKey →
        (collectRun cfg s is).1.diskBlocks =
          (collectRun cfg t js).1.diskBlocks →
        ∀ n, execArm (collectRun cfg s is).1 n =
          execArm (collectRun cfg t js).1 n := by
  have hAlong : ∀ s is, Along (step cfg) CollectOk s is →
      Along (step cfg) orderly s is →
      Along (watch (step cfg) (noteCdb cfg))
        (fun x i => CollectOk x.1 i ∧ orderly x.1 i)
        (s, cdbStart s) is := by
    intro s is hOk hClean
    exact (along_watch _ _ (fun s i => CollectOk s i ∧
      orderly s i) _ _).mpr (along_and.mpr ⟨hOk, hClean⟩)
  have hBoth := hAlong s is hRun.ok hOrderly.2
  have hInv := cdbInv_start hRun.select hOrderly.1
  refine ⟨?_, ?_, ?_⟩
  · exact always_mono (fun _ => cdbKept_of_inv)
      (always_of_along cdbInv_step hBoth hInv)
  · rintro pre post op rfl hOp hEnough hFree
    rcases (along_append _ _ _).mp hBoth with ⟨hPre, hPost⟩
    rw [collectRun, run_append]
    apply collect_progress
      ⟨invariant_run cdbInv_step hPre hInv, hOp, hEnough⟩ hPost
    have hKept := cdbKept_of_inv
      (invariant_run cdbInv_step hPre hInv)
    exact Nat.le_trans (cdbWork_le (hKept.most op hOp))
      (Nat.sub_le_iff_le_add'.mpr hFree)
  · intro skip' t js op hRun' hOrderly' hExec hExec' hOp hSame
      hSense hDisk n
    have hInv' := cdbInv_start hRun'.select hOrderly'.1
    have hKept := cdbKept_of_inv
      (invariant_run cdbInv_step hBoth hInv)
    have hKept' := cdbKept_of_inv
      (invariant_run cdbInv_step
        (hAlong t js hRun'.ok hOrderly'.2) hInv')
    exact execArm_congr hKept hKept' hExec hExec' hOp hSame
      hSense hDisk n

/-
  A TEST UNIT READY delivered as the ROM does it: a DMA
  select, five bytes through the FIFO and the last one by
  pseudo-DMA.
-/
def romReady : List In :=
  List.replicate 5 (regWrite 0x2#4 0x00#8) ++
    List.replicate 5 quiet ++
    [{ dmaWr := true, dmaWdata := 0x00#8 }, quiet]

/- The state a select with command byte `c` leaves. -/
def selectedBy (pushes : List Byte) (c : Byte) : Chip :=
  step ⟨0#4, false⟩
    (run (step ⟨0#4, false⟩) (powerOn ⟨0#4, false⟩ default)
      ([mountImage] ++ pushes.map (regWrite 0x2#4)))
    (regWrite 0x3#4 c)

theorem collection_romReady :
    Collection ⟨0#4, false⟩ 0 (selectedBy [] 0xC1#8) romReady :=
  ⟨⟨_, _, ⟨default, _, by decide +kernel, rfl⟩, rfl,
      by decide +kernel, by decide +kernel, by decide, rfl⟩,
    by decide +kernel⟩

theorem cdb_exact_romReady :
    Always (watch (step ⟨0#4, false⟩) (noteCdb ⟨0#4, false⟩))
        (CdbKept 0)
        (selectedBy [] 0xC1#8, cdbStart (selectedBy [] 0xC1#8))
        romReady :=
  (cdb_exact ⟨0#4, false⟩ 0 (selectedBy [] 0xC1#8) romReady
    collection_romReady
    ⟨by decide +kernel, by decide +kernel⟩).1

/- A TEST UNIT READY with one byte more behind it. -/
def longReady : List Byte :=
  [0x00#8, 0x00#8, 0x00#8, 0x00#8, 0x00#8, 0x00#8, 0xAA#8]

theorem later_byte_consumed :
    ¬ ∀ (cfg : Config) (skip : Nat) (s : Chip)
      (is : List In), Collection cfg skip s is →
      Always (watch (step cfg) (noteCdb cfg)) (CdbKept skip)
        (s, cdbStart s) is := by
  intro hAll
  have hRun : Collection ⟨0#4, false⟩ 0
      (selectedBy longReady 0x41#8)
      (List.replicate 7 quiet) :=
    ⟨⟨_, _, ⟨default, _, by decide +kernel, rfl⟩, rfl,
        by decide +kernel, by decide +kernel, by decide, rfl⟩,
      by decide +kernel⟩
  have hEnd := hAll _ _ _ _ hRun _ (List.prefix_refl _)
  have hMost := hEnd.most 0x00#8 (by decide +kernel)
  revert hMost
  decide +kernel

end Ncr53c96
