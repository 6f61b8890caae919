import Wombat33.Ncr53c96.ReadEdge

/-
  Every edge of a read keeps its invariant.

  An edge of a read strobes the next block, publishes a loaded
  one, moves a byte from the buffer into the FIFO, or leaves
  the buffer alone; beside that a transfer information opens,
  counts, or ends.

  Key theorems include:
    * `sectorInv_step`
    * `infoInv_step`
    * `readInv_step`
-/

------------------------------------------------------------
-- The Sector
------------------------------------------------------------

namespace Ncr53c96

open Clocked

variable {cfg : Config} {disk : Disk}
variable {start : BitVec 32} {count : Nat}
variable {s : Chip} {g : ReadLog} {i : In}

theorem readStrobe_eq (hReset : i.nreset = true) :
    readStrobe cfg s i = prefetchDue s i := by
  unfold readStrobe
  rw [step_of_nreset cfg s i hReset, clock_ioRd]
  cases hDue : prefetchDue s i with
  | true =>
      have hIdle := (prefetchDue_iff.mp hDue).2.2.2.1
      simp only [ioBusy, Bool.or_eq_false_iff] at hIdle
      simp [hIdle.1.1.1]
  | false => cases s.ioRd <;> simp

theorem noteRead_eq
    (hInv : ReadInv disk start count (s, g))
    (hOk : ReadOk cfg disk count (s, g) i) :
    noteRead cfg g s i = {
      asked :=
        g.asked + if cmdIs i 0x10#7 then infoCount s i else 0
      moved := g.moved + if byteIn s i then 1 else 0
      taken := g.taken ++ delivered cfg s i
      strobes :=
        g.strobes ++ if prefetchDue s i then [s.lba] else []
      written :=
        if prefetchDue s i then 0#256
        else if i.sdBuffWr then
          g.written ||| 1#256 <<< i.sdBuffAddr.toNat
        else g.written } := by
  have hIoLba := (read_moves hInv hOk).2.2.1
  unfold noteRead
  rw [readStrobe_eq hOk.clocked,
    step_of_nreset cfg s i hOk.clocked]
  cases hDue : prefetchDue s i with
  | true => simp [hIoLba, hDue]
  | false => rfl

/- Only the platform's port writes the buffer. -/
theorem read_mem
    (hInv : ReadInv disk start count (s, g))
    (hOk : ReadOk cfg disk count (s, g) i) :
    (clock cfg s i).mem =
      if i.sdBuffWr then
        Function.update s.mem i.sdBuffAddr (platDinS cfg i)
      else s.mem := by
  simp [clock_mem, engineMem, read_weE hInv hOk]

theorem read_bufValid
    (hInv : ReadInv disk start count (s, g)) :
    (clock cfg s i).bufValid =
      if prefetchDue s i then false
      else if publish s i then true
      else s.bufValid := by
  have hNoExec : s.execPending = false := hInv.quiet.noExec
  have hSynth : s.synthLen = 0 := hInv.quiet.noSynth
  simp [clock_bufValid, hNoExec, synthLast, synthOn, hSynth]

/- The words the platform has written after an edge. -/
theorem written_word
    (hInv : ReadInv disk start count (s, g))
    (hOk : ReadOk cfg disk count (s, g) i)
    (hLoaded : ∀ a : BitVec 8,
      g.written.getLsbD a.toNat = true →
      s.mem a = disk s.ioLba (2 * a.toNat) ++
        disk s.ioLba (2 * a.toNat + 1))
    (a : BitVec 8)
    (hWritten :
      (if i.sdBuffWr then
        g.written ||| 1#256 <<< i.sdBuffAddr.toNat
      else g.written).getLsbD a.toNat = true) :
    (clock cfg s i).mem a =
      disk s.ioLba (2 * a.toNat) ++
        disk s.ioLba (2 * a.toNat + 1) := by
  rw [read_mem hInv hOk]
  cases hWr : i.sdBuffWr with
  | false =>
      rw [hWr] at hWritten
      exact hLoaded a (by simpa using hWritten)
  | true =>
      rw [hWr, if_pos rfl] at hWritten
      by_cases hHere : a = i.sdBuffAddr
      · rw [if_pos rfl, hHere, Function.update_self]
        exact (hOk.serves hWr).2
      · rw [if_pos rfl, Function.update_of_ne hHere]
        rcases marked_word hWritten with hOld | hNew
        · exact hLoaded a hOld
        · exact absurd hNew hHere

end Ncr53c96

------------------------------------------------------------
-- The Sector after an Edge
------------------------------------------------------------

namespace Ncr53c96

open Clocked

variable {cfg : Config} {disk : Disk}
variable {start : BitVec 32} {count : Nat}
variable {s : Chip} {g : ReadLog} {i : In}

/- The next block is strobed. -/
theorem sectorInv_fetch
    (hInv : ReadInv disk start count (s, g))
    (hOk : ReadOk cfg disk count (s, g) i)
    (hDue : prefetchDue s i = true)
    (asked : Nat)
    (taken : List Byte) :
    SectorInv disk start count
      (clock cfg s i,
        ⟨asked, g.moved, taken, g.strobes ++ [s.lba],
          0#256⟩) := by
  rcases prefetchDue_iff.mp hDue with
    ⟨-, -, hLeft, hIdle, hSpent⟩
  have hNoIn : byteIn s i = false := by
    by_contra hIn
    have hNot := (byteIn_alone hInv (by simpa using hIn)).1
    simp [hDue] at hNot
  have hNoPublish : publish s i = false := by
    by_contra hPublish
    have hAckD := (publish_iff.mp (by simpa using hPublish)).1
    simp [ioBusy, hAckD] at hIdle
  rcases read_moves hInv hOk with
    ⟨hLeft', hLba', hIoLba', hPos'⟩
  simp only [hDue, hNoIn, hNoPublish, Bool.false_eq_true,
    if_false, if_true] at hLeft' hLba' hIoLba' hPos'
  have hAckD' : (clock cfg s i).ioAckD = false := by
    rw [clock_ioAckD]
    exact (noAck_of_idle hIdle).1
  have hRd' : (clock cfg s i).ioRd = true := by
    simp [clock_ioRd, hDue]
  have hValid' : (clock cfg s i).bufValid = false := by
    simp [read_bufValid hInv, hDue]
  have hOldLeft : s.blocksLeft = count - g.strobes.length :=
    hInv.sector.left
  have hOldLba : s.lba =
      start + BitVec.ofNat 32 g.strobes.length :=
    hInv.sector.lba
  have hStrobes : g.strobes =
      (List.range g.strobes.length).map
        (fun k => start + BitVec.ofNat 32 k) :=
    hInv.sector.strobes
  have hCount : g.moved = 512 * g.strobes.length ∧
      (s.sbufPos = 0 ∨ s.sbufPos = 512) := by
    cases hValid : s.bufValid with
    | true =>
        rcases hInv.sector.valid hValid with
          ⟨-, hLen, hPos, hCount, -⟩
        have hLen' : s.sbufLen = 512 := hLen
        have hPos' : s.sbufPos ≤ 512 := hPos
        have hCount' : g.moved + 512 =
            512 * g.strobes.length + s.sbufPos := hCount
        rcases hSpent with h | h
        · simp [hValid] at h
        · omega
    | false =>
        by_cases hFresh : g.strobes.length = 0
        · rcases hInv.sector.fresh hFresh with
            ⟨-, hMoved, hPos, -⟩
          have hMoved' : g.moved = 0 := hMoved
          exact ⟨by omega, .inl hPos⟩
        · -- a load in flight keeps the handshake busy
          have hBusy :=
            (hInv.sector.loading hValid
              (Nat.pos_of_ne_zero hFresh)).2.1
          have hBusy' : s.ioRd = true ∨ s.ioAckD = true :=
            hBusy
          simp only [ioBusy, Bool.or_eq_false_iff] at hIdle
          rcases hBusy' with h | h
          · simp [hIdle.1.1.1] at h
          · simp [hIdle.2] at h
  exact {
    few := by
      simp only [List.length_append, List.length_singleton]
      omega
    strobes := by
      simp only [List.length_append, List.length_singleton]
      rw [← blocks_snoc, ← hStrobes, ← hOldLba]
    left := by
      simp only [List.length_append, List.length_singleton]
      omega
    lba := by
      simp only [List.length_append, List.length_singleton]
      rw [hLba', hOldLba, next_block]
    once := fun _ => hAckD'
    fresh := by simp
    loading := by
      intro _ _
      simp only [List.length_append, List.length_singleton,
        Nat.add_sub_cancel, hPos', hIoLba']
      refine ⟨?_, .inl hRd', hCount.2, hOldLba, by simp⟩
      rw [hCount.1, Nat.mul_succ]
    valid := by
      intro hValid
      rw [show (clock cfg s i).bufValid = true from hValid]
        at hValid'
      simp at hValid' }

/- The load is complete: its sector is published. -/
theorem sectorInv_publish
    (hInv : ReadInv disk start count (s, g))
    (hOk : ReadOk cfg disk count (s, g) i)
    (hPublish : publish s i = true)
    (asked : Nat)
    (taken : List Byte)
    (written : BitVec 256) :
    SectorInv disk start count
      (clock cfg s i,
        ⟨asked, g.moved, taken, g.strobes, written⟩) := by
  rcases publish_iff.mp hPublish with ⟨hAckD, hAck, -⟩
  have hNotDue : prefetchDue s i = false := by
    simp [prefetchDue, ioBusy, hAckD]
  have hNoIn : byteIn s i = false := by
    by_contra hIn
    have hNot := (byteIn_alone hInv (by simpa using hIn)).2
    simp [hPublish] at hNot
  have hInvalid : s.bufValid = false := by
    by_contra hValid
    rcases hInv.sector.valid (by simpa using hValid) with
      ⟨-, -, -, -, -, hNoAckD, -⟩
    simp [show s.ioAckD = false from hNoAckD] at hAckD
  have hSome : 0 < g.strobes.length := by
    apply Nat.pos_of_ne_zero
    intro hFresh
    rcases hInv.sector.fresh hFresh with ⟨-, -, -, -, hNoAckD⟩
    simp [show s.ioAckD = false from hNoAckD] at hAckD
  rcases hInv.sector.loading hInvalid hSome with
    ⟨hCount, -, hPos, hIoLba, hWords⟩
  have hCount' : g.moved + 512 = 512 * g.strobes.length :=
    hCount
  have hRd : s.ioRd = false := by
    by_contra hRd
    have hNo := hInv.sector.once (by simpa using hRd)
    simp [show s.ioAckD = false from hNo] at hAckD
  have hNoLoad : i.sdBuffWr = false := by
    by_contra hWr
    have hNo := (hOk.serves (by simpa using hWr)).1
    simp [hAck] at hNo
  have hAll : g.written = BitVec.allOnes 256 :=
    hOk.whole (ackFall_iff.mpr ⟨hAckD, hAck⟩)
  rcases read_moves hInv hOk with
    ⟨hLeft', hLba', -, hPos'⟩
  simp only [hNotDue, hNoIn, hPublish, Bool.false_eq_true,
    if_false, if_true] at hLeft' hLba' hPos'
  have hMem : (clock cfg s i).mem = s.mem := by
    simp [read_mem hInv hOk, hNoLoad]
  have hAckD' : (clock cfg s i).ioAckD = false := by
    rw [clock_ioAckD]
    exact hAck
  have hRd' : (clock cfg s i).ioRd = false := by
    simp [clock_ioRd, hNotDue, hRd]
  have hNoExec : s.execPending = false := hInv.quiet.noExec
  have hValid' : (clock cfg s i).bufValid = true := by
    simp [read_bufValid hInv, hNotDue, hPublish]
  exact {
    few := hInv.sector.few
    strobes := hInv.sector.strobes
    left := hLeft'.trans hInv.sector.left
    lba := hLba'.trans hInv.sector.lba
    once := fun _ => hAckD'
    fresh := by
      intro hFresh
      exact absurd hFresh (Nat.ne_of_gt hSome)
    loading := by
      intro hNot
      rw [show (clock cfg s i).bufValid = false from hNot]
        at hValid'
      simp at hValid'
    valid := by
      intro _
      refine ⟨hSome, ?_, by simp [hPos'], ?_, hRd', hAckD', ?_,
        ?_⟩
      · simp [clock_sbufLen, hNoExec, hPublish]
      · simpa [hPos'] using hCount'
      · simp [clock_qE, clock_eqAddr, hMem]
      · intro j hj
        have hHalf : (BitVec.ofNat 8 (j / 2)).toNat = j / 2 := by
          rw [BitVec.toNat_ofNat]
          omega
        have hWord := hWords (BitVec.ofNat 8 (j / 2)) (by
          show g.written.getLsbD _ = true
          rw [hAll, BitVec.getLsbD_allOnes, hHalf]
          simp
          omega)
        have hIoLba' : s.ioLba = start +
            BitVec.ofNat 32 (g.strobes.length - 1) := hIoLba
        rw [hHalf] at hWord
        simp only [hMem, ← hIoLba']
        exact bufByte_of_word hWord }

/- No block is strobed or published; a byte may move. -/
theorem sectorInv_move
    (hInv : ReadInv disk start count (s, g))
    (hOk : ReadOk cfg disk count (s, g) i)
    (hNotDue : prefetchDue s i = false)
    (hNoPublish : publish s i = false)
    (asked : Nat)
    (taken : List Byte) :
    SectorInv disk start count
      (clock cfg s i,
        ⟨asked, g.moved + if byteIn s i then 1 else 0, taken,
          g.strobes,
          if i.sdBuffWr then
            g.written ||| 1#256 <<< i.sdBuffAddr.toNat
          else g.written⟩) := by
  rcases read_moves hInv hOk with
    ⟨hLeft', hLba', hIoLba', hPos'⟩
  simp only [hNotDue, hNoPublish, Bool.false_eq_true,
    if_false] at hLeft' hLba' hIoLba' hPos'
  have hValid' : (clock cfg s i).bufValid = s.bufValid := by
    simp [read_bufValid hInv, hNotDue, hNoPublish]
  have hAckD' : (clock cfg s i).ioAckD = i.ioAck :=
    clock_ioAckD cfg s i
  have hRd' : (clock cfg s i).ioRd =
      if i.ioAck then false else s.ioRd := by
    simp [clock_ioRd, hNotDue]
  have hNoFlush : s.flushPending = false := hInv.quiet.noFlush
  have hAck : i.ioAck = true →
      s.ioRd = true ∨ s.ioAckD = true := hOk.ack
  have hNoIn : s.bufValid = false → byteIn s i = false := by
    intro hInvalid
    by_contra hIn
    have hValid := (byteIn_guard hInv (by simpa using hIn)).1
    simp [hInvalid] at hValid
  exact {
    few := hInv.sector.few
    strobes := hInv.sector.strobes
    left := hLeft'.trans hInv.sector.left
    lba := hLba'.trans hInv.sector.lba
    once := by
      intro hRd
      rw [hRd'] at hRd
      rw [hAckD']
      cases hAck' : i.ioAck with
      | true => simp [hAck'] at hRd
      | false => rfl
    fresh := by
      intro hFresh
      rcases hInv.sector.fresh hFresh with
        ⟨hInvalid, hMoved, hPos, hRd, hAckD⟩
      have hInvalid' : s.bufValid = false := hInvalid
      have hMoved' : g.moved = 0 := hMoved
      have hPos'' : s.sbufPos = 0 := hPos
      have hRd'' : s.ioRd = false := hRd
      have hAckD'' : s.ioAckD = false := hAckD
      have hNoAck : i.ioAck = false := by
        by_contra h
        rcases hAck (by simpa using h) with h' | h'
        · simp [hRd''] at h'
        · simp [hAckD''] at h'
      simp [hValid', hInvalid', hMoved', hNoIn hInvalid', hPos',
        hPos'', hRd', hRd'', hAckD', hNoAck]
    loading := by
      intro hInvalid hSome
      rw [hValid'] at hInvalid
      rcases hInv.sector.loading hInvalid hSome with
        ⟨hCount, hBusy, hPos, hIoLba, hWords⟩
      have hBusy' : s.ioRd = true ∨ s.ioAckD = true := hBusy
      simp only [hNoIn hInvalid, hIoLba', Bool.false_eq_true,
        if_false] at hPos' ⊢
      rw [hPos', hRd', hAckD']
      refine ⟨hCount, ?_, hPos, hIoLba, ?_⟩
      · cases hAck' : i.ioAck with
        | true => simp
        | false =>
            -- a falling acknowledge would publish
            have hNoAckD : s.ioAckD = false := by
              simpa [publish, ackFall, hAck', hNoFlush]
                using hNoPublish
            simpa [hNoAckD] using hBusy'
      · exact written_word hInv hOk hWords
    valid := by
      intro hValid
      rw [hValid'] at hValid
      rcases hInv.sector.valid hValid with
        ⟨hSome, hLen, hPos, hCount, hRd, hAckD, hRead, hBytes⟩
      have hPos'' : s.sbufPos ≤ 512 := hPos
      have hCount' : g.moved + 512 =
          512 * g.strobes.length + s.sbufPos := hCount
      have hRd'' : s.ioRd = false := hRd
      have hNoAck : i.ioAck = false := by
        by_contra h
        rcases hAck (by simpa using h) with h' | h'
        · simp [hRd''] at h'
        · simp [show s.ioAckD = false from hAckD] at h'
      have hNoLoad : i.sdBuffWr = false := by
        by_contra hWr
        have hNo := (hOk.serves (by simpa using hWr)).1
        simp [hNoAck] at hNo
      have hMem : (clock cfg s i).mem = s.mem := by
        simp [read_mem hInv hOk, hNoLoad]
      have hNoExec : s.execPending = false := hInv.quiet.noExec
      have hLen' : (clock cfg s i).sbufLen = 512 := by
        simpa [clock_sbufLen, hNoExec, hNoPublish] using hLen
      have hNext : (clock cfg s i).sbufPos =
          s.sbufPos + if byteIn s i then 1 else 0 := by
        rw [hPos']
        split <;> rfl
      refine ⟨hSome, hLen', ?_, ?_, by simp [hRd', hRd''],
        by simp [hAckD', hNoAck], ?_, ?_⟩
      · rw [hNext]
        cases hIn : byteIn s i with
        | true =>
            have hLt := (byteIn_guard hInv hIn).2.1
            rw [if_pos rfl]
            omega
        | false => simpa using hPos''
      · simp only [hNext]
        omega
      · simp [clock_qE, clock_eqAddr, hMem]
      · rw [hMem]
        exact hBytes }

/- Every edge of a read keeps the sector. -/
theorem sectorInv_step
    (hInv : ReadInv disk start count (s, g))
    (hOk : ReadOk cfg disk count (s, g) i) :
    SectorInv disk start count
      (clock cfg s i, noteRead cfg g s i) := by
  rw [noteRead_eq hInv hOk]
  cases hDue : prefetchDue s i with
  | true =>
      have hNoIn : byteIn s i = false := by
        by_contra hIn
        have hNot := (byteIn_alone hInv (by simpa using hIn)).1
        simp [hDue] at hNot
      simpa [hNoIn] using sectorInv_fetch hInv hOk hDue _ _
  | false =>
      cases hPublish : publish s i with
      | true =>
          have hNoIn : byteIn s i = false := by
            by_contra hIn
            have hNot :=
              (byteIn_alone hInv (by simpa using hIn)).2
            simp [hPublish] at hNot
          simpa [hNoIn] using
            sectorInv_publish hInv hOk hPublish _ _ _
      | false =>
          simpa using
            sectorInv_move hInv hOk hDue hPublish _ _

end Ncr53c96

------------------------------------------------------------
-- Transfer Informations
------------------------------------------------------------

namespace Ncr53c96

open Clocked

variable {cfg : Config} {disk : Disk}
variable {start : BitVec 32} {count : Nat}
variable {s : Chip} {g : ReadLog} {i : In}

/- How the open transfer information moves on. -/
theorem info_moves
    (hInv : ReadInv disk start count (s, g))
    (hOk : ReadOk cfg disk count (s, g) i) :
    ((clock cfg s i).xferIn =
        if cmdIs i 0x10#7 then cmdDma i.wdata
        else s.xferIn && !dinDone s) ∧
      ((clock cfg s i).xferPioIn =
        if cmdIs i 0x10#7 then
          !cmdDma i.wdata && decide (s.fifoCnt = 0)
        else s.xferPioIn && !armPioIn s i) := by
  rcases read_noUnderflow hInv hOk with ⟨hDma, hPio⟩
  rcases @din_moves cfg s i (inHost_of_read hInv hOk) with
    ⟨hIn', hPio'⟩
  exact ⟨by simpa [hDma] using hIn',
    by simpa [hPio] using hPio'⟩

/- How its counter moves on. -/
theorem counter_moves
    (hInv : ReadInv disk start count (s, g))
    (hOk : ReadOk cfg disk count (s, g) i) :
    ((clock cfg s i).tcounter =
        if cmdIs i 0x10#7 && cmdDma i.wdata then tcLoad s
        else if armFill s i then
          (s.tcounter + 131071) % 131072
        else s.tcounter) ∧
      ((clock cfg s i).tcZero =
        if cmdIs i 0x10#7 && cmdDma i.wdata then false
        else if regWr i 0x0#4 || regWr i 0x1#4 then false
        else if armFill s i && s.tcounter == 1 then true
        else s.tcZero) ∧
      ((clock cfg s i).chunkIrqArmed =
        if cmdIs i 0x10#7 && cmdDma i.wdata then true
        else if dinDone s then false
        else s.chunkIrqArmed) ∧
      ((clock cfg s i).dmaActive =
        if cmdIs i 0x10#7 then cmdDma i.wdata
        else s.dmaActive) := by
  have hUnder := (read_noUnderflow hInv hOk).1
  rcases @din_counter cfg s i (inQuiet_of_read hInv)
    (inHost_of_read hInv hOk) with
    ⟨hCounter, hZero, hArmed, hActive⟩
  exact ⟨hCounter, hZero, by simpa [hUnder] using hArmed,
    hActive⟩

/- With no byte moving an empty FIFO stays empty. -/
theorem fifo_stays_empty
    (hInv : ReadInv disk start count (s, g))
    (hOk : ReadOk cfg disk count (s, g) i)
    (hNoIn : byteIn s i = false)
    (hEmpty : s.fifoCnt = 0) :
    (clock cfg s i).fifoCnt = 0 :=
  din_staysEmpty (inQuiet_of_read hInv)
    (inHost_of_read hInv hOk) hNoIn hEmpty

/- A transfer information opens. -/
theorem infoInv_open
    (hInv : ReadInv disk start count (s, g))
    (hOk : ReadOk cfg disk count (s, g) i)
    (hEmpty : PioEmpty (s, g) i)
    (hCmd : cmdIs i 0x10#7 = true) :
    InfoInv count (clock cfg s i, noteRead cfg g s i) := by
  rcases read_info hInv hOk hCmd with
    ⟨hPhase, hIn, hNoPio, hRest, hBound⟩
  have hExt : fifoExt i = true :=
    (command_cycle (regWr_of_cmdIs hCmd)).1
  have hIdle := arm_of_fifoExt s i hExt
  have hNoIn : byteIn s i = false := by
    simp [byteIn, armFill_eq, armPioIn_eq, hIdle]
  have hNotDone : dinDone s = false := by
    simp [dinDone, hIn]
  rcases info_moves hInv hOk with ⟨hIn', hPio'⟩
  rcases counter_moves hInv hOk with
    ⟨hCounter', hZero', hArmed', hActive'⟩
  have hPhase' := read_phase hInv hOk
  have hPioIn : armPioIn s i = false := by
    simp [armPioIn_eq, hIdle]
  simp only [hNotDone, hPioIn, hPhase, Bool.false_and,
    Bool.false_eq_true, if_false] at hPhase'
  have hLoad := tcLoad_bounds s
  have hMore : g.moved < 512 * count := by
    have hPos := infoCount_pos s i
    omega
  rw [noteRead_eq hInv hOk]
  simp only [hCmd, hNoIn, Bool.false_eq_true, if_true, if_false,
    Nat.add_zero]
  cases hDma : cmdDma i.wdata with
  | true =>
      simp only [hCmd, hDma, Bool.not_true, Bool.false_and,
        Bool.and_true, if_true]
        at hIn' hPio' hCounter' hZero' hArmed' hActive'
      have hOne : infoCount s i = tcLoad s := by
        simp [infoCount, hDma]
      exact {
        bound := hBound
        rest := by simp [infoOpen, hIn']
        dma := fun _ => ⟨hPio', hArmed', hActive'⟩
        counting := by
          intro _ _
          simp only [hCounter']
          omega
        expired := by simp [hZero']
        pio := by simp [hPio']
        phase := by
          rw [hPhase', if_neg (by simp [hIn'])] }
  | false =>
      have hNone : s.fifoCnt = 0 := hEmpty hCmd hDma
      simp only [hCmd, hDma, hNone, Bool.not_false,
        Bool.true_and, decide_true, if_true] at hIn' hPio'
      have hOne : infoCount s i = 1 := by
        simp [infoCount, hDma]
      exact {
        bound := hBound
        rest := by simp [infoOpen, hPio']
        dma := by simp [hIn']
        counting := by simp [hIn']
        expired := by simp [hIn']
        pio := by
          intro _
          exact ⟨by simp only [hOne, hRest],
            fifo_stays_empty hInv hOk hNoIn hNone⟩
        phase := by
          simp only [hPhase', hIn', and_true]
          rw [if_neg (by omega)] }

/- The arm that moves a byte belongs to what is open. -/
theorem byteIn_eq
    (hInv : ReadInv disk start count (s, g)) :
    byteIn s i =
      if s.xferIn then armFill s i else armPioIn s i := by
  unfold byteIn
  cases hIn : s.xferIn with
  | true =>
      have hNoPio : s.xferPioIn = false := (hInv.info.dma hIn).1
      have hNone : armPioIn s i = false := by
        simp [armPioIn, hNoPio]
      simp [hNone]
  | false =>
      have hNone : armFill s i = false := by
        simp [armFill, hIn]
      simp [hNone]

/- A pseudo-DMA transfer information counts, or ends. -/
theorem infoInv_dma
    (hInv : ReadInv disk start count (s, g))
    (hOk : ReadOk cfg disk count (s, g) i)
    (hNoCmd : cmdIs i 0x10#7 = false)
    (hIn : s.xferIn = true) :
    InfoInv count (clock cfg s i, noteRead cfg g s i) := by
  rcases hInv.info.dma hIn with ⟨hNoPio, hArmed, hActive⟩
  have hNoPio' : s.xferPioIn = false := hNoPio
  have hArmed' : s.chunkIrqArmed = true := hArmed
  have hActive' : s.dmaActive = true := hActive
  have hByte : byteIn s i = armFill s i := by
    rw [byteIn_eq hInv, if_pos hIn]
  have hNoPioIn : armPioIn s i = false := by
    simp [armPioIn, hNoPio']
  have hNoLatch : (regWr i 0x0#4 || regWr i 0x1#4) = false := by
    by_contra hLatch
    have hClosed : s.xferIn = false :=
      hOk.latch (by simpa only [Bool.not_eq_false] using hLatch)
    simp [hIn] at hClosed
  have hBound : g.asked ≤ 512 * count := hInv.info.bound
  have hPhase : s.phase =
      if g.moved = 512 * count ∧ s.xferIn = false then .stat
      else .din := hInv.info.phase
  rw [if_neg (by simp [hIn])] at hPhase
  have hPhaseN := read_phase hInv hOk
  have hDone := read_sourceDone hInv hOk
  rcases info_moves hInv hOk with ⟨hInN, hPioN⟩
  rcases counter_moves hInv hOk with
    ⟨hCounterN, hZeroN, hArmedN, hActiveN⟩
  simp only [hNoCmd, hIn, hNoPio', hArmed', hActive', hNoLatch,
    hNoPioIn, hPhase, Bool.false_and, Bool.true_and,
    Bool.false_eq_true, if_false]
    at hInN hPioN hCounterN hZeroN hArmedN hActiveN hPhaseN
  rw [noteRead_eq hInv hOk]
  simp only [hNoCmd, hByte, Bool.false_eq_true, if_false,
    Nat.add_zero]
  cases hZero : s.tcZero with
  | true =>
      have hNoFill : armFill s i = false := by
        simp [armFill, hZero]
      have hAll : g.asked = g.moved :=
        hInv.info.expired hIn hZero
      simp only [hNoFill, hZero, Bool.false_and,
        Bool.false_eq_true, if_false] at hCounterN hZeroN
      simp only [hNoFill, Bool.false_eq_true, if_false,
        Nat.add_zero]
      exact {
        bound := hBound
        rest := fun _ => hAll
        dma := by
          intro hStill
          have hNotDone : dinDone s = false := by
            simpa [hInN] using hStill
          simp [hPioN, hArmedN, hActiveN, hNotDone]
        counting := by simp [hZeroN]
        expired := fun _ _ => hAll
        pio := by simp [hPioN]
        phase := by
          simp only [hPhaseN, hInN]
          cases hEnd : dinDone s with
          | true => simp [hDone]
          | false => simp }
  | false =>
      have hNotDone : dinDone s = false := by
        simp [dinDone, hZero]
      rcases hInv.info.counting hIn hZero with
        ⟨hPos, hLe, hCount⟩
      have hPos' : 0 < s.tcounter := hPos
      have hLe' : s.tcounter ≤ 65536 := hLe
      have hCount' : g.asked = g.moved + s.tcounter := hCount
      simp only [hNotDone, Bool.false_and, Bool.not_false,
        Bool.false_eq_true, if_false]
        at hInN hArmedN hPhaseN
      have hStep : (s.tcounter + 131071) % 131072 =
          s.tcounter - 1 := by omega
      exact {
        bound := hBound
        rest := by simp [infoOpen, hInN]
        dma := fun _ => ⟨hPioN, hArmedN, hActiveN⟩
        counting := by
          intro _ hMore
          simp only [hZeroN, hZero] at hMore
          simp only [hCounterN, hStep]
          cases hFill : armFill s i with
          | true =>
              have hNotLast : s.tcounter ≠ 1 := by
                intro hLast
                simp [hFill, hLast] at hMore
              simp only [if_true]
              omega
          | false =>
              simp only [Bool.false_eq_true, if_false]
              omega
        expired := by
          intro _ hLast
          simp only [hZeroN, hZero] at hLast
          cases hFill : armFill s i with
          | true =>
              have hOne : s.tcounter = 1 := by
                by_contra hNe
                simp [hFill, hNe] at hLast
              simp only [if_true]
              omega
          | false => simp [hFill] at hLast
        pio := by simp [hPioN]
        phase := by simp [hPhaseN, hInN] }

/- A one-byte transfer information waits, or ends. -/
theorem infoInv_pio
    (hInv : ReadInv disk start count (s, g))
    (hOk : ReadOk cfg disk count (s, g) i)
    (hNoCmd : cmdIs i 0x10#7 = false)
    (hPio : s.xferPioIn = true) :
    InfoInv count (clock cfg s i, noteRead cfg g s i) := by
  have hIn : s.xferIn = false := by
    by_contra hIn
    have hNo : s.xferPioIn = false :=
      (hInv.info.dma (by simpa using hIn)).1
    simp [hPio] at hNo
  rcases hInv.info.pio hPio with ⟨hOne, hEmpty⟩
  have hOne' : g.asked = g.moved + 1 := hOne
  have hByte : byteIn s i = armPioIn s i := by
    simp [byteIn_eq hInv, hIn]
  have hBound : g.asked ≤ 512 * count := hInv.info.bound
  have hPhase : s.phase =
      if g.moved = 512 * count ∧ s.xferIn = false then .stat
      else .din := hInv.info.phase
  rw [if_neg (by omega)] at hPhase
  have hNotDone : dinDone s = false := by
    simp [dinDone, hIn]
  have hPhaseN := read_phase hInv hOk
  rcases info_moves hInv hOk with ⟨hInN, hPioN⟩
  simp only [hNoCmd, hIn, hPio, hNotDone, hPhase,
    Bool.false_and, Bool.true_and, Bool.false_eq_true, if_false]
    at hInN hPioN hPhaseN
  rw [noteRead_eq hInv hOk]
  simp only [hNoCmd, hByte, Bool.false_eq_true, if_false,
    Nat.add_zero]
  cases hMove : armPioIn s i with
  | true =>
      have hLast := read_lastByte hInv hOk (by rw [hByte, hMove])
      exact {
        bound := hBound
        rest := fun _ => hOne'
        dma := by simp [hInN]
        counting := by simp [hInN]
        expired := by simp [hInN]
        pio := by simp [hPioN, hMove]
        phase := by
          simp only [hPhaseN, hMove, hInN, Bool.true_and,
            hLast, and_true, if_true] }
  | false =>
      have hNoIn : byteIn s i = false := by rw [hByte, hMove]
      exact {
        bound := hBound
        rest := by simp [infoOpen, hPioN, hMove]
        dma := by simp [hInN]
        counting := by simp [hInN]
        expired := by simp [hInN]
        pio := fun _ =>
          ⟨hOne', fifo_stays_empty hInv hOk hNoIn hEmpty⟩
        phase := by
          simp only [hPhaseN, hMove, Bool.false_and,
            Bool.false_eq_true, if_false, Nat.add_zero]
          rw [if_neg (by omega)] }

/- Between two transfer informations nothing moves. -/
theorem infoInv_rest
    (hInv : ReadInv disk start count (s, g))
    (hOk : ReadOk cfg disk count (s, g) i)
    (hNoCmd : cmdIs i 0x10#7 = false)
    (hIn : s.xferIn = false)
    (hPio : s.xferPioIn = false) :
    InfoInv count (clock cfg s i, noteRead cfg g s i) := by
  have hNone : armPioIn s i = false := by
    simp [armPioIn, hPio]
  have hNoIn : byteIn s i = false := by
    simp [byteIn_eq hInv, hIn, hNone]
  have hNotDone : dinDone s = false := by
    simp [dinDone, hIn]
  have hPhaseN := read_phase hInv hOk
  rcases info_moves hInv hOk with ⟨hInN, hPioN⟩
  simp only [hNoCmd, hIn, hPio, hNotDone, hNone,
    Bool.false_and, Bool.false_eq_true, if_false]
    at hInN hPioN hPhaseN
  rw [noteRead_eq hInv hOk]
  simp only [hNoCmd, hNoIn, Bool.false_eq_true, if_false,
    Nat.add_zero]
  exact {
    bound := hInv.info.bound
    rest := fun _ =>
      hInv.info.rest (by simp [infoOpen, hIn, hPio])
    dma := by simp [hInN]
    counting := by simp [hInN]
    expired := by simp [hInN]
    pio := by simp [hPioN]
    phase := by
      simp only [hPhaseN, hInN]
      simpa only [hIn] using hInv.info.phase }

theorem infoInv_step
    (hInv : ReadInv disk start count (s, g))
    (hOk : ReadOk cfg disk count (s, g) i)
    (hEmpty : PioEmpty (s, g) i) :
    InfoInv count (clock cfg s i, noteRead cfg g s i) := by
  cases hCmd : cmdIs i 0x10#7 with
  | true => exact infoInv_open hInv hOk hEmpty hCmd
  | false =>
      cases hIn : s.xferIn with
      | true => exact infoInv_dma hInv hOk hCmd hIn
      | false =>
          cases hPio : s.xferPioIn with
          | true => exact infoInv_pio hInv hOk hCmd hPio
          | false => exact infoInv_rest hInv hOk hCmd hIn hPio

end Ncr53c96

------------------------------------------------------------
-- The Step Lemma
------------------------------------------------------------

namespace Ncr53c96

open Clocked

variable {cfg : Config} {disk : Disk}
variable {start : BitVec 32} {count : Nat}

/- What both contracts allow at an edge. -/
def readEdge
    (cfg : Config)
    (disk : Disk)
    (count : Nat)
    (x : Chip × ReadLog)
    (i : In) : Prop :=
  ReadOk cfg disk count x i ∧ PioEmpty x i

theorem diskBytes_succ (n : Nat) :
    diskBytes disk start (n + 1) =
      diskBytes disk start n ++ [diskByte disk start n] := by
  simp [diskBytes, List.range_succ]

/- Every edge of a read keeps the invariant. -/
theorem readInv_step
    (x : Chip × ReadLog)
    (i : In)
    (hInv : ReadInv disk start count x)
    (hEdge : readEdge cfg disk count x i) :
    ReadInv disk start count
      (watch (step cfg) (noteRead cfg) x i) := by
  rcases x with ⟨s, g⟩
  rcases hEdge with ⟨hOk, hEmpty⟩
  show ReadInv disk start count
    (step cfg s i, noteRead cfg g s i)
  rw [step_of_nreset cfg s i hOk.clocked]
  exact {
    some := hInv.some
    quiet := readQuiet_clock hInv hOk
    sector := sectorInv_step hInv hOk
    info := infoInv_step hInv hOk hEmpty
    stream := by
      have hStream : g.taken ++ queue s =
          diskBytes disk start g.moved := hInv.stream
      rw [noteRead_eq hInv hOk]
      simp only [List.append_assoc,
        din_queue (inQuiet_of_read hInv)
          (inHost_of_read hInv hOk)]
      rw [← List.append_assoc, hStream]
      cases hIn : byteIn s i with
      | true =>
          have hByte := (byteIn_guard hInv hIn).2.2
          simp [diskBytes_succ, hByte]
      | false => simp }

end Ncr53c96
