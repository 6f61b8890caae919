import Wombat33.Ncr53c96.Interrupt

/-
  Transfers and the phase they belong to.

  A transfer information sets a flag that its completion arm
  clears.  The phase is kept apart from the flags: besides
  the completion arms the flush of a write's last block, the
  command register and the CDB executor change it.

  Key definitions include:
    * `InPhase`, `TurnEnds`
    * `InTurn`
    * `PhaseInv`

  Key theorems include:
    * `phaseInv_clock`
    * `in_phase`
    * `long_write_outlives`
-/

------------------------------------------------------------
-- Property and Condition
------------------------------------------------------------

namespace Ncr53c96

open Clocked

variable (cfg : Config) (s : Chip) (i : In)

/- A transfer that is pending shows its data phase. -/
structure InPhase (s : Chip) : Prop where
  dataIn : s.xferIn = true ∨ s.xferPioIn = true →
    s.phase = .din
  dataOut : s.xferOut = true ∨ s.xferPioOut = true →
    s.phase = .dout

/- A data transfer is pending. -/
def underWay : Bool :=
  s.xferIn || s.xferPioIn || s.xferOut || s.xferPioOut

/-
  When the phase changes to STATUS the pending transfer is
  ended and I_BUS, bit 4, raised in that cycle.  In MESSAGE IN
  the engine takes from the FIFO what the host reads and puts
  nothing there.
-/
structure TurnEnds : Prop where
  status : s.phase ≠ .stat → (step cfg s i).phase = .stat →
    underWay (step cfg s i) = false ∧
      (raised cfg s i).getLsbD 4 = true
  message : s.phase = .min →
    engineAct s i = .pop ∧ armPop s i = true ∨
      engineAct s i = .keep

/- A data transfer is pending that this cycle does not end. -/
def outlives : Bool :=
  (s.xferIn && !dinDone s && !dinUnderflow s i) ||
    (s.xferPioIn && !armPioIn s i && !pioInUnderflow s i) ||
    (s.xferOut && !doutDone s i) ||
    (s.xferPioOut && !pioOutDone s)

/- The flush that takes the last block of a WRITE. -/
def lastFlush : Bool :=
  flushDue s i && s.blocksLeft == 1 && !s.dataDirIn

/- A select that is answered, $11 or $12. -/
def turnsCmd : Bool :=
  cmdIs i 0x11#7 || cmdIs i 0x12#7 ||
    (cmdIs i 0x43#7 && selected cfg s) ||
    (selectCmd i && selected cfg s)

/- A transfer information that starts a transfer. -/
def startsTransfer : Bool :=
  cmdIs i 0x10#7 &&
    (s.phase == .din || s.phase == .dout || s.phase == .mout)

/-
  The flush of the last block finds nothing left to send: the
  FIFO is empty and a DMA transfer's count has expired.  The
  host changes the phase by a command only when no transfer
  outlives the cycle, no message is going out and no CDB is
  being collected, and starts one transfer at a time.
-/
structure InTurn : Prop where
  last : lastFlush s i = true →
    s.fifoCnt = 0 ∧ (s.xferOut = true → s.tcZero = true)
  turn : turnsCmd cfg s i = true →
    outlives s i = false ∧ s.xferMsgOut = false ∧
      s.cdbActive = false
  info : startsTransfer s i = true →
    underWay s = false ∧ s.xferMsgOut = false

instance decidableInTurn : Decidable (InTurn cfg s i) :=
  decidable_of_iff
    ((lastFlush s i = true →
        s.fifoCnt = 0 ∧ (s.xferOut = true → s.tcZero = true)) ∧
      (turnsCmd cfg s i = true →
        outlives s i = false ∧ s.xferMsgOut = false ∧
          s.cdbActive = false) ∧
      (startsTransfer s i = true →
        underWay s = false ∧ s.xferMsgOut = false))
    ⟨fun ⟨h₁, h₂, h₃⟩ => ⟨h₁, h₂, h₃⟩,
      fun ⟨h₁, h₂, h₃⟩ => ⟨h₁, h₂, h₃⟩⟩

end Ncr53c96

------------------------------------------------------------
-- The Invariant
------------------------------------------------------------

namespace Ncr53c96

open Clocked

variable {cfg : Config} {s : Chip} {i : In}

/-
  Everything under way belongs to the phase shown, and there
  is one of it.
-/
structure PhaseInv (s : Chip) : Prop where
  inPhase : InPhase s
  oneIn : s.xferIn = true → s.xferPioIn = false
  oneOut : s.xferOut = true → s.xferPioOut = false
  armed : s.xferOut = true → s.chunkIrqArmed = true
  message : s.xferMsgOut = true → s.phase = .mout
  collects : s.cdbActive = true → s.phase = .cmd
  executes : s.execPending = true →
    s.phase = .cmd ∧ s.cdbActive = false

/- Outside its phase nothing is under way. -/
theorem notIn_of_phase
    (hInv : PhaseInv s) (hPhase : s.phase ≠ .din) :
    s.xferIn = false ∧ s.xferPioIn = false := by
  have hNone := mt hInv.inPhase.dataIn hPhase
  simpa using hNone

theorem notOut_of_phase
    (hInv : PhaseInv s) (hPhase : s.phase ≠ .dout) :
    s.xferOut = false ∧ s.xferPioOut = false := by
  have hNone := mt hInv.inPhase.dataOut hPhase
  simpa using hNone

theorem notMessage_of_phase
    (hInv : PhaseInv s) (hPhase : s.phase ≠ .mout) :
    s.xferMsgOut = false := by
  simpa using mt hInv.message hPhase

theorem notCdb_of_phase
    (hInv : PhaseInv s) (hPhase : s.phase ≠ .cmd) :
    s.cdbActive = false ∧ s.execPending = false := by
  constructor
  · simpa using mt hInv.collects hPhase
  · have hNone := mt (fun h => (hInv.executes h).1) hPhase
    simpa using hNone

/- Where no data transfer is pending, three things are left. -/
theorem phaseInv_of_idle
    (hData : underWay s = false)
    (hMessage : s.xferMsgOut = true → s.phase = .mout)
    (hCollects : s.cdbActive = true → s.phase = .cmd)
    (hExecutes : s.execPending = true →
      s.phase = .cmd ∧ s.cdbActive = false) :
    PhaseInv s := by
  simp only [underWay, Bool.or_eq_false_iff] at hData
  rcases hData with ⟨⟨⟨hIn, hPioIn⟩, hOut⟩, hPioOut⟩
  exact {
    inPhase := ⟨by simp [hIn, hPioIn], by simp [hOut, hPioOut]⟩
    oneIn := by simp [hIn]
    oneOut := by simp [hOut]
    armed := by simp [hOut]
    message := hMessage
    collects := hCollects
    executes := hExecutes }

end Ncr53c96

------------------------------------------------------------
-- Commands that Change the Phase
------------------------------------------------------------

namespace Ncr53c96

open Clocked

variable {cfg : Config} {s : Chip} {i : In}

/- Such a command is no transfer and no reset. -/
theorem turnsCmd_of_other
    {op : BitVec 7}
    (hOp : cmdIs i op = true)
    (hOther : op = 0x10#7 ∨ op = 0x18#7 ∨ op = 0x02#7) :
    turnsCmd cfg s i = false := by
  have hCmd : ∀ op', cmdIs i op' = (op == op') :=
    fun op' => cmdIs_of_cmdIs hOp
  have hSelect := selectCmd_of_cmdIs hOp
  rcases hOther with rfl | rfl | rfl <;>
    simp [turnsCmd, hCmd, hSelect, selectOp]

theorem notOther_of_turnsCmd
    (hTurn : turnsCmd cfg s i = true) :
    cmdIs i 0x10#7 = false ∧ cmdIs i 0x18#7 = false ∧
      cmdIs i 0x02#7 = false := by
  have hNot {op : BitVec 7}
      (hOther : op = 0x10#7 ∨ op = 0x18#7 ∨ op = 0x02#7) :
      cmdIs i op = false := by
    by_contra hOp
    have hNone := @turnsCmd_of_other cfg s i op
      (by simpa using hOp) hOther
    exact Bool.false_ne_true (hNone.symm.trans hTurn)
  exact ⟨hNot (by simp), hNot (by simp), hNot (by simp)⟩

/- What outlives no cycle is over after it. -/
theorem underWay_of_turn
    (hTurn : turnsCmd cfg s i = true)
    (hEnds : outlives s i = false) :
    underWay (clock cfg s i) = false := by
  rcases notOther_of_turnsCmd hTurn with
    ⟨hInfo, hPad, hReset⟩
  simp only [outlives, Bool.or_eq_false_iff] at hEnds
  rcases hEnds with ⟨⟨⟨hIn, hPioIn⟩, hOut⟩, hPioOut⟩
  simp only [underWay, clock_xferIn, clock_xferPioIn,
    clock_xferOut, clock_xferPioOut, hInfo, hPad, hReset]
  grind

theorem phaseInv_turn
    (hOk : InTurn cfg s i)
    (hTurn : turnsCmd cfg s i = true) :
    PhaseInv (clock cfg s i) := by
  rcases hOk.turn hTurn with ⟨hEnds, hMessage, hCdb⟩
  rcases notOther_of_turnsCmd hTurn with
    ⟨hInfo, hPad, hReset⟩
  have hNotDone : msgOutDone s = false := by
    simp [msgOutDone, hMessage]
  have hNotComplete : cdbComplete s = false := by
    simp [cdbComplete, hCdb]
  apply phaseInv_of_idle
  · exact underWay_of_turn hTurn hEnds
  · simp [clock_xferMsgOut, hInfo, hReset, hMessage]
  · intro hActive
    rw [clock_cdbActive] at hActive
    split_ifs at hActive with hResume hStop hSelect
    · rw [clock_phase, if_pos hResume]
    · simp only [Bool.and_eq_true] at hSelect
      have hOther {op : BitVec 7} (hNot : selectOp op = false) :=
        cmdIs_of_selectCmd hSelect.1 hNot
      simp [clock_phase, hSelect, hInfo,
        @hOther 0x12#7 (by decide),
        @hOther 0x11#7 (by decide),
        @hOther 0x43#7 (by decide)]
    · simp [hNotDone] at *
    · simp [hCdb] at hActive
  · simp [clock_execPending, hReset, hNotComplete]

theorem phaseInv_chipReset (hReset : cmdIs i 0x02#7 = true) :
    PhaseInv (clock cfg s i) := by
  have hCmd : ∀ op, cmdIs i op = (0x02#7 == op) :=
    fun op => cmdIs_of_cmdIs hReset
  apply phaseInv_of_idle
  · simp [underWay, clock_xferIn, clock_xferPioIn,
      clock_xferOut, clock_xferPioOut, hCmd]
  · simp [clock_xferMsgOut, hCmd]
  · have hSelect := selectCmd_of_cmdIs hReset
    simp [clock_cdbActive, hCmd, hSelect, selectOp]
  · simp [clock_execPending, hCmd]

end Ncr53c96

------------------------------------------------------------
-- The Engine, Phase by Phase
------------------------------------------------------------

namespace Ncr53c96

open Clocked

variable {cfg : Config} {s : Chip} {i : In}

/- No command changes the phase; $10 in STATUS may. -/
structure Steady (cfg : Config) (s : Chip) (i : In) : Prop where
  turn : turnsCmd cfg s i = false
  reset : cmdIs i 0x02#7 = false

theorem steady_cmds (hSteady : Steady cfg s i) :
    cmdIs i 0x11#7 = false ∧ cmdIs i 0x12#7 = false ∧
      (cmdIs i 0x43#7 && selected cfg s) = false ∧
      (selectCmd i && selected cfg s) = false := by
  have hTurn := hSteady.turn
  simp only [turnsCmd, Bool.or_eq_false_iff] at hTurn
  exact ⟨hTurn.1.1.1, hTurn.1.1.2, hTurn.1.2, hTurn.2⟩

theorem steady_phase (hSteady : Steady cfg s i) :
    (clock cfg s i).phase =
      if cmdIs i 0x10#7 && s.phase == .stat then .min
      else if pioInUnderflow s i then .stat
      else if msgOutDone s && s.msgFirst != 0x01#8 then .cmd
      else if msgOutDone s && s.msgFirst == 0x01#8 then .min
      else if doutDone s i && s.blocksLeft == 0 then .stat
      else if flushDue s i && s.blocksLeft != 0 &&
          s.blocksLeft == 1 && !s.dataDirIn then .stat
      else if dinUnderflow s i then .stat
      else if dinDone s && sourceDone s i then .stat
      else if s.execPending && !knownCdb (s.cdb 0) then .stat
      else if s.execPending && s.cdb 0 == 0x2A#8 then .dout
      else if s.execPending && s.cdb 0 == 0x0A#8 then .dout
      else if s.execPending && s.cdb 0 == 0x28#8 then .din
      else if s.execPending && s.cdb 0 == 0x08#8 then .din
      else if s.execPending && s.cdb 0 == 0x25#8 then .din
      else if s.execPending && s.cdb 0 == 0x1A#8 then .din
      else if s.execPending && s.cdb 0 == 0x12#8 then .din
      else if s.execPending && s.cdb 0 == 0x03#8 then .din
      else if s.execPending && s.cdb 0 == 0x00#8 then .stat
      else if armPioIn s i && lastByte s i then .stat
      else s.phase := by
  rcases steady_cmds hSteady with
    ⟨hDone, hAccept, hStop, hSelect⟩
  rw [clock_phase]
  simp only [hDone, hAccept, hStop, hSelect, hSteady.reset,
    Bool.false_and, Bool.false_eq_true, if_false]

theorem steady_cdbActive (hSteady : Steady cfg s i) :
    (clock cfg s i).cdbActive =
      if msgOutDone s && s.msgFirst != 0x01#8 then true
      else if cdbComplete s then false
      else s.cdbActive := by
  rcases steady_cmds hSteady with
    ⟨hDone, hAccept, hStop, hSelect⟩
  rw [clock_cdbActive]
  simp only [hAccept, hStop, hSelect, hSteady.reset,
    Bool.false_and, Bool.false_eq_true, if_false]

theorem steady_xferMsgOut (hSteady : Steady cfg s i) :
    (clock cfg s i).xferMsgOut =
      if cmdIs i 0x10#7 && s.phase == .mout then true
      else if msgOutDone s then false
      else s.xferMsgOut := by
  rcases steady_cmds hSteady with
    ⟨hDone, hAccept, hStop, hSelect⟩
  rw [clock_xferMsgOut]
  simp only [hStop, hSteady.reset, Bool.false_eq_true,
    if_false]

theorem steady_execPending (hSteady : Steady cfg s i) :
    (clock cfg s i).execPending =
      if s.execPending then false
      else if cdbComplete s then true
      else s.execPending := by
  rw [clock_execPending]
  simp only [hSteady.reset, Bool.false_eq_true, if_false]

/- The flush of the last block ends what is pending. -/
theorem ends_of_lastFlush
    (hInv : PhaseInv s)
    (hOk : InTurn cfg s i)
    (hLast : lastFlush s i = true) :
    (s.xferOut = true → doutDone s i = true) ∧
      (s.xferPioOut = true → pioOutDone s = true) := by
  rcases hOk.last hLast with ⟨hEmpty, hCount⟩
  simp only [lastFlush, Bool.and_eq_true] at hLast
  rcases flushDue_iff.mp hLast.1.1 with
    ⟨-, -, hPending, hBusy⟩
  constructor
  · intro hOut
    exact doutDone_iff.mpr ⟨hOut, hInv.armed hOut, hCount hOut,
      hEmpty, hPending, hBusy⟩
  · intro hPio
    simp [pioOutDone, hPio, hEmpty]

/- In DATA OUT the engine goes to STATUS or stays. -/
theorem dout_phase
    (hInv : PhaseInv s)
    (hSteady : Steady cfg s i)
    (hPhase : s.phase = .dout) :
    (clock cfg s i).phase =
      if doutDone s i && s.blocksLeft == 0 then .stat
      else if lastFlush s i then .stat
      else .dout := by
  rcases notIn_of_phase hInv (by simp [hPhase]) with
    ⟨hIn, hPioIn⟩
  have hMessage := notMessage_of_phase hInv (by simp [hPhase])
  have hExec := (notCdb_of_phase hInv (by simp [hPhase])).2
  rw [steady_phase hSteady]
  simp only [pioInUnderflow, msgOutDone, dinUnderflow, dinDone,
    armPioIn, lastFlush, hIn, hPioIn, hMessage, hExec, hPhase]
  grind

theorem phaseInv_dout
    (hInv : PhaseInv s)
    (hOk : InTurn cfg s i)
    (hSteady : Steady cfg s i)
    (hPhase : s.phase = .dout) :
    PhaseInv (clock cfg s i) := by
  rcases notIn_of_phase hInv (by simp [hPhase]) with
    ⟨hIn, hPioIn⟩
  have hMessage := notMessage_of_phase hInv (by simp [hPhase])
  rcases notCdb_of_phase hInv (by simp [hPhase]) with
    ⟨hCdb, hExec⟩
  have hPhase' := dout_phase hInv hSteady hPhase
  have hInfo : cmdIs i 0x10#7 = true →
      s.xferOut = false ∧ s.xferPioOut = false := by
    intro hCmd
    have hNone :=
      (hOk.info (by simp [startsTransfer, hCmd, hPhase])).1
    simp only [underWay, Bool.or_eq_false_iff] at hNone
    exact ⟨hNone.1.2, hNone.2⟩
  have hLast := @ends_of_lastFlush cfg s i hInv hOk
  have hOut' := clock_xferOut cfg s i
  have hPioOut' := clock_xferPioOut cfg s i
  have hArmed' := clock_chunkIrqArmed cfg s i
  have hNotDone : dinDone s = false ∧
      dinUnderflow s i = false := by
    simp [dinDone, dinUnderflow, hIn]
  have hDone : doutDone s i = true → s.xferOut = true :=
    fun h => (doutDone_iff.mp h).1
  have hFlush : lastFlush s i = true →
      s.xferOut = true ∨ s.xferPioOut = true := by
    intro h
    simp only [lastFlush, Bool.and_eq_true] at h
    exact (flushDue_iff.mp h.1.1).1
  have hReset := hSteady.reset
  have hOne := hInv.oneOut
  have hArmed := hInv.armed
  constructor
  · constructor
    · intro hSet
      simp [clock_xferIn, clock_xferPioIn, hIn, hPioIn,
        hPhase] at hSet
    · intro hSet
      rw [hPhase']
      rw [hOut', hPioOut'] at hSet
      grind
  · intro hSet
    simp [clock_xferIn, hIn, hPhase] at hSet
  · rw [hOut', hPioOut']
    grind
  · rw [hOut', hArmed']
    grind
  · simp [steady_xferMsgOut hSteady, hMessage, hPhase]
  · simp [steady_cdbActive hSteady, msgOutDone, hMessage, hCdb]
  · simp [steady_execPending hSteady, cdbComplete, hCdb, hExec]

/- In DATA IN the engine goes to STATUS or stays. -/
theorem din_phase
    (hInv : PhaseInv s)
    (hSteady : Steady cfg s i)
    (hPhase : s.phase = .din) :
    (clock cfg s i).phase =
      if pioInUnderflow s i then .stat
      else if dinUnderflow s i then .stat
      else if dinDone s && sourceDone s i then .stat
      else if armPioIn s i && lastByte s i then .stat
      else .din := by
  rcases notOut_of_phase hInv (by simp [hPhase]) with
    ⟨hOut, hPioOut⟩
  have hMessage := notMessage_of_phase hInv (by simp [hPhase])
  have hExec := (notCdb_of_phase hInv (by simp [hPhase])).2
  rw [steady_phase hSteady]
  simp only [msgOutDone, doutDone, flushDue, hOut, hPioOut,
    hMessage, hExec, hPhase]
  grind

theorem phaseInv_din
    (hInv : PhaseInv s)
    (hOk : InTurn cfg s i)
    (hSteady : Steady cfg s i)
    (hPhase : s.phase = .din) :
    PhaseInv (clock cfg s i) := by
  rcases notOut_of_phase hInv (by simp [hPhase]) with
    ⟨hOut, hPioOut⟩
  have hMessage := notMessage_of_phase hInv (by simp [hPhase])
  rcases notCdb_of_phase hInv (by simp [hPhase]) with
    ⟨hCdb, hExec⟩
  have hPhase' := din_phase hInv hSteady hPhase
  have hInfo : cmdIs i 0x10#7 = true →
      s.xferIn = false ∧ s.xferPioIn = false := by
    intro hCmd
    have hNone :=
      (hOk.info (by simp [startsTransfer, hCmd, hPhase])).1
    simp only [underWay, Bool.or_eq_false_iff] at hNone
    exact hNone.1.1
  have hIn' := clock_xferIn cfg s i
  have hPioIn' := clock_xferPioIn cfg s i
  have hReset := hSteady.reset
  have hOne := hInv.oneIn
  -- an arm that ends a transfer finds its flag set
  have hDone : dinDone s = true → s.xferIn = true :=
    fun h => (dinDone_iff.mp h).1
  have hDry : dinUnderflow s i = true → s.xferIn = true := by
    intro h
    simp only [dinUnderflow, Bool.and_eq_true] at h
    exact h.1.1.1
  have hPioDry : pioInUnderflow s i = true →
      s.xferPioIn = true := by
    intro h
    simp only [pioInUnderflow, Bool.and_eq_true] at h
    exact h.1
  have hByte : armPioIn s i = true → s.xferPioIn = true :=
    fun h => (guard_pioIn s i
      (by simpa [armPioIn_eq] using h)).1
  constructor
  · constructor
    · intro hSet
      rw [hPhase']
      rw [hIn', hPioIn'] at hSet
      grind
    · intro hSet
      simp [clock_xferOut, clock_xferPioOut, hOut, hPioOut,
        hPhase] at hSet
  · rw [hIn', hPioIn']
    grind
  · intro hSet
    simp [clock_xferOut, hOut, hPhase] at hSet
  · intro hSet
    simp [clock_xferOut, hOut, hPhase] at hSet
  · simp [steady_xferMsgOut hSteady, hMessage, hPhase]
  · simp [steady_cdbActive hSteady, msgOutDone, hMessage, hCdb]
  · simp [steady_execPending hSteady, cdbComplete, hCdb, hExec]

/- Where no transfer can start, none is pending. -/
theorem underWay_idle
    (hInv : PhaseInv s)
    (hIn : s.phase ≠ .din)
    (hOut : s.phase ≠ .dout) :
    underWay (clock cfg s i) = false := by
  rcases notIn_of_phase hInv hIn with ⟨hDma, hPio⟩
  rcases notOut_of_phase hInv hOut with ⟨hDma', hPio'⟩
  simp [underWay, clock_xferIn, clock_xferPioIn,
    clock_xferOut, clock_xferPioOut, hDma, hPio, hDma', hPio',
    hIn, hOut]

/- Outside the data phases no engine arm ends a transfer. -/
theorem away_phase
    (hInv : PhaseInv s)
    (hSteady : Steady cfg s i)
    (hIn : s.phase ≠ .din)
    (hOut : s.phase ≠ .dout)
    (hExec : s.execPending = false) :
    (clock cfg s i).phase =
      if cmdIs i 0x10#7 && s.phase == .stat then .min
      else if msgOutDone s && s.msgFirst != 0x01#8 then .cmd
      else if msgOutDone s && s.msgFirst == 0x01#8 then .min
      else s.phase := by
  rcases notIn_of_phase hInv hIn with ⟨hDma, hPio⟩
  rcases notOut_of_phase hInv hOut with ⟨hDma', hPio'⟩
  rw [steady_phase hSteady]
  simp [pioInUnderflow, doutDone, flushDue, dinUnderflow,
    dinDone, armPioIn, hDma, hPio, hDma', hPio', hExec]

theorem phaseInv_cmd
    (hInv : PhaseInv s)
    (hSteady : Steady cfg s i)
    (hPhase : s.phase = .cmd) :
    PhaseInv (clock cfg s i) := by
  have hMessage := notMessage_of_phase hInv (by simp [hPhase])
  have hData := @underWay_idle cfg s i hInv
    (by simp [hPhase]) (by simp [hPhase])
  have hMessage' : (clock cfg s i).xferMsgOut = false := by
    simp [steady_xferMsgOut hSteady, hMessage, hPhase]
  have hActive' := steady_cdbActive hSteady
  have hExec' := steady_execPending hSteady
  cases hExec : s.execPending with
  | true =>
      have hCdb := (hInv.executes hExec).2
      apply phaseInv_of_idle hData
      · simp [hMessage']
      · simp [hActive', msgOutDone, hMessage, hCdb]
      · simp [hExec', hExec]
  | false =>
      have hStays : (clock cfg s i).phase = .cmd := by
        rw [away_phase hInv hSteady (by simp [hPhase])
          (by simp [hPhase]) hExec]
        simp [msgOutDone, hMessage, hPhase]
      apply phaseInv_of_idle hData
      · simp [hMessage']
      · exact fun _ => hStays
      · intro hNow
        refine ⟨hStays, ?_⟩
        have hComplete : cdbComplete s = true := by
          simpa [hExec', hExec] using hNow
        simp [hActive', msgOutDone, hMessage, hComplete]

theorem phaseInv_mout
    (hInv : PhaseInv s)
    (hOk : InTurn cfg s i)
    (hSteady : Steady cfg s i)
    (hPhase : s.phase = .mout) :
    PhaseInv (clock cfg s i) := by
  rcases notCdb_of_phase hInv (by simp [hPhase]) with
    ⟨hCdb, hExec⟩
  have hData := @underWay_idle cfg s i hInv
    (by simp [hPhase]) (by simp [hPhase])
  have hInfo : cmdIs i 0x10#7 = true →
      s.xferMsgOut = false := by
    intro hCmd
    exact (hOk.info
      (by simp [startsTransfer, hCmd, hPhase])).2
  have hDone : msgOutDone s = true → s.xferMsgOut = true := by
    intro h
    simp only [msgOutDone, Bool.and_eq_true] at h
    exact h.1
  have hPhase' := away_phase hInv hSteady
    (by simp [hPhase]) (by simp [hPhase]) hExec
  have hMessage' := steady_xferMsgOut hSteady
  apply phaseInv_of_idle hData
  · rw [hMessage', hPhase']
    grind
  · rw [steady_cdbActive hSteady, hPhase']
    simp [cdbComplete, hCdb]
    grind
  · simp [steady_execPending hSteady, cdbComplete, hCdb, hExec]

theorem phaseInv_still
    (hInv : PhaseInv s)
    (hSteady : Steady cfg s i)
    (hPhase : s.phase = .stat ∨ s.phase = .min) :
    PhaseInv (clock cfg s i) := by
  have hAway : s.phase ≠ .din ∧ s.phase ≠ .dout ∧
      s.phase ≠ .mout ∧ s.phase ≠ .cmd := by
    rcases hPhase with h | h <;> simp [h]
  rcases hAway with ⟨hIn, hOut, hMout, hCmd⟩
  have hMessage := notMessage_of_phase hInv hMout
  rcases notCdb_of_phase hInv hCmd with ⟨hCdb, hExec⟩
  apply phaseInv_of_idle
  · exact underWay_idle hInv hIn hOut
  · simp [steady_xferMsgOut hSteady, hMessage, hMout]
  · simp [steady_cdbActive hSteady, msgOutDone, hMessage, hCdb]
  · simp [steady_execPending hSteady, cdbComplete, hCdb, hExec]

/- One edge keeps every transfer in its phase. -/
theorem phaseInv_clock
    (hInv : PhaseInv s)
    (hOk : InTurn cfg s i) :
    PhaseInv (clock cfg s i) := by
  cases hTurn : turnsCmd cfg s i with
  | true => exact phaseInv_turn hOk hTurn
  | false =>
      cases hReset : cmdIs i 0x02#7 with
      | true => exact phaseInv_chipReset hReset
      | false =>
          have hSteady : Steady cfg s i := ⟨hTurn, hReset⟩
          cases hPhase : s.phase with
          | dout => exact phaseInv_dout hInv hOk hSteady hPhase
          | din => exact phaseInv_din hInv hOk hSteady hPhase
          | cmd => exact phaseInv_cmd hInv hSteady hPhase
          | stat =>
              exact phaseInv_still hInv hSteady (.inl hPhase)
          | mout => exact phaseInv_mout hInv hOk hSteady hPhase
          | min =>
              exact phaseInv_still hInv hSteady (.inr hPhase)

end Ncr53c96

------------------------------------------------------------
-- Changes to STATUS
------------------------------------------------------------

namespace Ncr53c96

open Clocked

variable {cfg : Config} {s : Chip} {i : In}

/- Only an ended transfer or an executed CDB shows STATUS. -/
theorem busEvent_of_status
    (hInv : PhaseInv s)
    (hOk : InTurn cfg s i)
    (hBefore : s.phase ≠ .stat)
    (hStatus : (clock cfg s i).phase = .stat) :
    busEvent s i = true := by
  by_contra hNone
  simp only [busEvent, Bool.not_eq_true,
    Bool.or_eq_false_iff] at hNone
  rcases hNone with
    ⟨⟨⟨⟨⟨⟨⟨hByte, hExec⟩, hDone⟩, hDry⟩, hOutDone⟩, hPioDone⟩,
      hMessage⟩, hPioDry⟩
  have hNotLast : lastFlush s i = false := by
    by_contra hLast
    have hFlush : lastFlush s i = true := by simpa using hLast
    rcases ends_of_lastFlush hInv hOk hFlush with
      ⟨hOut, hPioOut⟩
    simp only [hOutDone, hPioDone, Bool.false_eq_true,
      imp_false] at hOut hPioOut
    simp [lastFlush, flushDue, hOut, hPioOut] at hFlush
  have hNotCounted : (flushDue s i && s.blocksLeft != 0 &&
      s.blocksLeft == 1 && !s.dataDirIn) = false := by
    simp only [lastFlush] at hNotLast
    grind
  rw [clock_phase] at hStatus
  simp only [hByte, hExec, hDone, hDry, hOutDone, hMessage,
    hPioDry, hNotCounted, Bool.false_and, Bool.false_eq_true,
    if_false] at hStatus
  split_ifs at hStatus
  exact hBefore hStatus

/- In MESSAGE IN only the host takes from the FIFO. -/
theorem host_takes
    (hInv : PhaseInv s)
    (hPhase : s.phase = .min) :
    engineAct s i = .pop ∧ armPop s i = true ∨
      engineAct s i = .keep := by
  have hIn := notIn_of_phase hInv (by simp [hPhase])
  have hOut := notOut_of_phase hInv (by simp [hPhase])
  have hMessage := notMessage_of_phase hInv (by simp [hPhase])
  have hCdb := (notCdb_of_phase hInv (by simp [hPhase])).1
  unfold engineAct
  cases hArm : arm s i with
  | pop => exact .inl ⟨rfl, by simp [armPop_eq, hArm]⟩
  | cdbFf =>
      have hGuard := (guard_cdbFf s i hArm).1
      simp [hCdb] at hGuard
  | outDma =>
      have hGuard := (guard_outDma s i hArm).2.1
      simp [hOut] at hGuard
  | drain =>
      have hGuard := (guard_drain s i hArm).1
      simp [hOut] at hGuard
  | fill =>
      have hGuard := (guard_fill s i hArm).1
      simp [hIn] at hGuard
  | pioIn =>
      have hGuard := (guard_pioIn s i hArm).1
      simp [hIn] at hGuard
  | msgOut =>
      have hGuard := (guard_msgOut s i hArm).1
      simp [hMessage] at hGuard
  | rdIdle | cdbDma | swallow | idle => exact .inr rfl

end Ncr53c96

------------------------------------------------------------
-- Runs
------------------------------------------------------------

namespace Ncr53c96

open Clocked

/- The condition, on the cycles out of reset. -/
def inTurn (cfg : Config) (s : Chip) (i : In) : Prop :=
  i.nreset = true → InTurn cfg s i

instance (cfg : Config) (s : Chip) (i : In) :
    Decidable (inTurn cfg s i) :=
  inferInstanceAs (Decidable (_ → _))

variable {cfg : Config}

theorem phaseInv_reset
    {s : Chip} {i : In}
    (hReset : i.nreset = false) :
    PhaseInv (step cfg s i) := by
  apply phaseInv_of_idle <;>
    simp [step, sbufPorts, resetRegs, underWay, hReset]

theorem phaseInv_step
    (s : Chip)
    (i : In)
    (hInv : PhaseInv s)
    (hOk : inTurn cfg s i) :
    PhaseInv (step cfg s i) := by
  cases hReset : i.nreset with
  | false => exact phaseInv_reset hReset
  | true =>
      rw [step_of_nreset cfg s i hReset]
      exact phaseInv_clock hInv (hOk hReset)

theorem turnEnds_of_inv
    (s : Chip)
    (i : In)
    (hInv : PhaseInv s)
    (hOk : inTurn cfg s i) :
    TurnEnds cfg s i := by
  constructor
  · intro hBefore hStatus
    have hNext := phaseInv_step s i hInv hOk
    have hIn := notIn_of_phase hNext (by simp [hStatus])
    have hOut := notOut_of_phase hNext (by simp [hStatus])
    refine ⟨by simp [underWay, hIn, hOut], ?_⟩
    cases hReset : i.nreset with
    | false =>
        simp [step, sbufPorts, resetRegs, hReset] at hStatus
    | true =>
        rw [step_of_nreset cfg s i hReset] at hStatus
        exact raised_of_busEvent cfg s i
          (busEvent_of_status hInv (hOk hReset) hBefore hStatus)
  · exact host_takes hInv

/-
  From reset, every pending transfer shows its phase, every
  change to STATUS ends it with I_BUS, and the host alone
  takes the status and message bytes, in every run that meets
  the condition in each cycle.
-/
theorem in_phase
    (cfg : Config)
    (b₀ : Chip)
    (is : List In)
    (hTurn : Along (step cfg) (inTurn cfg)
      (powerOn cfg b₀) is) :
    Always (step cfg) InPhase (powerOn cfg b₀) is ∧
      Along (step cfg) (TurnEnds cfg) (powerOn cfg b₀) is := by
  have hStart : PhaseInv (powerOn cfg b₀) :=
    phaseInv_reset rfl
  have hAlways := always_of_along phaseInv_step hTurn hStart
  constructor
  · exact always_mono (fun _ hInv => hInv.inPhase) hAlways
  · exact along_of_invariant phaseInv_step turnEnds_of_inv
      hTurn hStart

/-
  MODE SENSE, its four bytes by a transfer of four, then $11
  and $12.
-/
def modeSense : List In :=
  [mountImage] ++
    runCdb [0x1A#8, 0x00#8, 0x3F#8, 0x00#8, 0x04#8, 0x00#8] ++
    [regWrite 0x0#4 0x04#8, regWrite 0x3#4 0x90#8] ++
    List.replicate 10 { dmaRd := true } ++
    [regWrite 0x3#4 0x11#8, quiet, regWrite 0x3#4 0x12#8]

theorem in_phase_modeSense :
    Always (step ⟨0#4, false⟩) InPhase
        (powerOn ⟨0#4, false⟩ default) modeSense ∧
      Along (step ⟨0#4, false⟩) (TurnEnds ⟨0#4, false⟩)
        (powerOn ⟨0#4, false⟩ default) modeSense :=
  in_phase ⟨0#4, false⟩ default modeSense (by decide +kernel)

/-
  What the host writes once a CDB has executed: $10, $11, $12
  and $01.
-/
def executed (seen : Bool) (s : Chip) (_ : In) : Bool :=
  seen || s.execPending

def hostKeeps (x : Chip × Bool) (i : In) : Bool :=
  !(x.2 && regWr i 0x3#4) || cmdIs i 0x10#7 ||
    cmdIs i 0x11#7 || cmdIs i 0x12#7 || cmdIs i 0x01#7

/-
  WRITE(6) of one block by a transfer of 1024 bytes, and the
  block: its flush shows STATUS with the transfer pending.
-/
def longWrite : List In :=
  [mountImage] ++
    runCdb [0x0A#8, 0x00#8, 0x00#8, 0x05#8, 0x01#8, 0x00#8] ++
    [regWrite 0x1#4 0x04#8, regWrite 0x3#4 0x90#8] ++
    dmaBytes 512 0xAA#8 ++ [quiet, quiet]

theorem long_write_outlives :
    ¬ ∀ (cfg : Config) (b₀ : Chip) (is : List In),
      Along (watch (step cfg) executed)
        (fun x i => hostKeeps x i = true)
        (powerOn cfg b₀, false) is →
      Always (step cfg) InPhase (powerOn cfg b₀) is := by
  intro hAll
  have hEval := @evalEdges_iff Bool ⟨0#4, false⟩ executed
    (fun g k => forceBool g k) forceBool_eq hostKeeps
    (fun x => x.1.xferOut && x.1.phase == .stat) longWrite
    (powerOn ⟨0#4, false⟩ default) false
  have hRun : evalEdges ⟨0#4, false⟩ executed
      (fun g k => forceBool g k) hostKeeps
      (fun x => x.1.xferOut && x.1.phase == .stat) longWrite
      (powerOn ⟨0#4, false⟩ default) false = true := by
    decide +kernel
  rcases hEval.mp hRun with ⟨hEnv, hEnd⟩
  have hLaw := hAll ⟨0#4, false⟩ default longWrite hEnv
    longWrite (List.prefix_refl _)
  simp only [run_watch_fst, Bool.and_eq_true,
    beq_iff_eq] at hEnd
  have hPhase := hLaw.dataOut (.inl hEnd.1)
  rw [hEnd.2] at hPhase
  exact Phase.noConfusion hPhase

end Ncr53c96
