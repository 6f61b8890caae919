import Wombat33.Iosb.Inbound
import Wombat33.Via6522.Flags

/-
  The CPU reads what the transceiver has shown.

  Where the auxiliary control register selects no shift mode or
  an external clock, the pins never clock the shift register:
  CB1 is tied low.  So a byte that was shown while the direction
  was inward is what the CPU reads next, and the interrupt flag
  is set until it does.

  Key definitions include:
    * `ReadLog`, `noteRead`
    * `External`, `ReadsByte`
    * `Stage`, `ReadInv`

  Key theorems include:
    * `shiftReg_step`
    * `stage_step`
    * `talk_byte_read`
-/

------------------------------------------------------------
-- The Serial Flag
------------------------------------------------------------

namespace Via6522

variable {s : Via} {i : In}

/- An access that clears the flag of the shift register. -/
def clearsSerial (i : In) : Bool :=
  i.writes rSR || i.reads rSR ||
    (i.writes rIFR && i.dataIn.getLsbD 2)

theorem accessed_serial :
    (accessed s i).getLsbD 2 = (i.writes rSR || i.reads rSR) := by
  unfold accessed
  repeat rw [BitVec.getLsbD_append]
  cases i.writes rSR || i.reads rSR <;> rfl

theorem serialFlag_kept
    (hReset : i.reset = false)
    (hFlag : s.irqFlags.getLsbD 2 = true)
    (hKeeps : clearsSerial i = false) :
    (s.step i).irqFlags.getLsbD 2 = true := by
  simp only [clearsSerial, Bool.or_eq_false_iff] at hKeeps
  show (irqFlagsEdge s i).getLsbD 2 = true
  rw [irqFlagsEdge, if_neg (by simp [hReset])]
  cases hWrite : i.writes rIFR with
  | true =>
      have hBit : i.dataIn.getLsbD 2 = false := by
        simpa [hWrite] using hKeeps.2
      rw [flags_named hWrite, BitVec.getLsbD_and, hFlag, named,
        if_pos hWrite, BitVec.getLsbD_not,
        BitVec.getLsbD_setWidth, hBit]
      rfl
  | false =>
      rw [flags_accessed hWrite, BitVec.getLsbD_and,
        BitVec.getLsbD_or, hFlag, BitVec.getLsbD_not,
        accessed_serial, hKeeps.1.1, hKeeps.1.2]
      rfl

/- A completion sets it, away from the falling edge. -/
theorem serialFlag_set
    (hReset : i.reset = false)
    (hDone : i.srExtComplete = true)
    (hFalling : i.falling = false) :
    (s.step i).irqFlags.getLsbD 2 = true := by
  have hWrites (a : BitVec 4) : i.writes a = false := by
    simp [In.writes, hFalling]
  have hReads (a : BitVec 4) : i.reads a = false := by
    simp [In.reads, hFalling]
  have hEvent : (irqEvents s i).getLsbD 2 = true := by
    unfold irqEvents
    repeat rw [BitVec.getLsbD_append]
    simp [hDone]
  show (irqFlagsEdge s i).getLsbD 2 = true
  rw [irqFlagsEdge, if_neg (by simp [hReset]),
    flags_accessed (hWrites _), BitVec.getLsbD_and,
    BitVec.getLsbD_or, hEvent, BitVec.getLsbD_not,
    accessed_serial, hWrites, hReads, Bool.or_true]
  rfl

end Via6522

------------------------------------------------------------
-- The Shift Register
------------------------------------------------------------

namespace Iosb

namespace AdbPath

variable {cfg : Config} {s : AdbPath} {i : PathIn}

/- The control register selects no clock of VIA1's own. -/
def external (acr : Byte) : Bool :=
  acr.extractLsb' 2 3 == 0b000#3 || acr.extractLsb' 2 2 == 0b11#2

/- So do the writes of it. -/
def External (s : AdbPath) (i : PathIn) : Prop :=
  (via1In s i).writes Via6522.rACR = true →
    external (via1In s i).dataIn = true

/- CB1 is low, and has been since the first cycle of E. -/
structure Unclocked (s : AdbPath) : Prop where
  acr : external s.via1.acr = true
  clock : s.via1.serial.shiftClock = true →
    phase s ≤ 20 ∧ s.via1.acr = 0x00#8
  clockD : s.via1.serial.shiftClockD = true →
    phase s ≤ 20 ∨ s.via1.acr = 0x00#8

theorem unclocked_reset (hReset : i.asic.nreset = false) :
    Unclocked (step cfg s i) := by
  have hOff : (via1In s i).reset = true := by
    simp [via1In, hReset]
  have hAcr : (step cfg s i).via1.acr = 0x00#8 := by
    simp [step, Via6522.Via.step, Via6522.written, hOff]
  have hPhase := @phase_reset cfg s i hReset
  refine ⟨?_, ?_, ?_⟩
  · rw [hAcr]
    rfl
  · exact fun _ => ⟨by rw [hPhase.2]; omega, hAcr⟩
  · exact fun _ => Or.inr hAcr

theorem acr_step (hReset : i.asic.nreset = true) :
    (step cfg s i).via1.acr =
      if (via1In s i).writes Via6522.rACR then (via1In s i).dataIn
      else s.via1.acr := by
  have hOn : (via1In s i).reset = false := by
    simp [via1In, hReset]
  simp [step, Via6522.Via.step, Via6522.written, hOn]

theorem shiftClock_step
    (hExternal : external s.via1.acr = true)
    (hReset : i.asic.nreset = true) :
    (step cfg s i).via1.serial.shiftClock =
        (!eRising s && s.via1.serial.shiftClock) ∧
      (step cfg s i).via1.serial.shiftClockD =
        if eRising s then s.via1.serial.shiftClock
        else s.via1.serial.shiftClockD := by
  have hOn : (via1In s i).reset = false := by
    simp [via1In, hReset]
  have hPins : (via1In s i).rising = eRising s ∧
      (via1In s i).cb1I = false := ⟨rfl, rfl⟩
  have hMode : (Via6522.shiftModeControl s.via1 == 0b000#3 ||
      Via6522.shiftClkSel s.via1 == 0b11#2) = true := hExternal
  refine ⟨?_, ?_⟩
  · show Via6522.shiftClockEdge s.via1 (via1In s i) = _
    rw [Via6522.shiftClockEdge, hOn, hPins.1, hPins.2, hMode]
    cases eRising s <;> rfl
  · simp [step, Via6522.Via.step, Via6522.serialEdge, hOn,
      hPins.1]

theorem unclocked_step
    (hDiv : Divided s)
    (hClock : Unclocked s)
    (hWrites : External s i)
    (hReset : i.asic.nreset = true) :
    Unclocked (step cfg s i) := by
  have hPhase := @phase_step cfg s i hDiv hReset
  have hAcr := @acr_step cfg s i hReset
  have hNext := @shiftClock_step cfg s i hClock.acr hReset
  have hRise := rising_iff hDiv
  have hKept (hFalling : eFalling s = false) :
      (step cfg s i).via1.acr = s.via1.acr := by
    rw [hAcr, via1In_writes _ hFalling]
    rfl
  refine ⟨?_, ?_, ?_⟩
  · rw [hAcr]
    split_ifs with hWrite
    · exact hWrites hWrite
    · exact hClock.acr
  · intro hHigh
    rw [hNext.1, Bool.and_eq_true, Bool.not_eq_true'] at hHigh
    have hNow := hClock.clock hHigh.2
    have hFalling := not_falling hDiv (by omega)
    have hEarly : phase s ≠ 20 := by
      rw [ne_eq, ← hRise, hHigh.1]
      decide
    rw [hPhase.2, hFalling, hKept hFalling]
    exact ⟨by simp only [Bool.false_eq_true, if_false]; omega,
      hNow.2⟩
  · intro hHigh
    rw [hNext.2] at hHigh
    cases hRising : eRising s with
    | true =>
        rw [hRising, if_pos rfl] at hHigh
        have hNow := hClock.clock hHigh
        have hFalling := not_falling hDiv (by omega)
        exact Or.inr ((hKept hFalling).trans hNow.2)
    | false =>
        rw [hRising, if_neg Bool.false_ne_true] at hHigh
        cases hFalling : eFalling s with
        | true =>
            refine Or.inl ?_
            rw [hPhase.2, hFalling]
            simp
        | false =>
            rcases hClock.clockD hHigh with hEarly | hZero
            · have hNot : phase s ≠ 20 := by
                rw [ne_eq, ← hRise, hRising]
                decide
              refine Or.inl ?_
              rw [hPhase.2, hFalling, if_neg Bool.false_ne_true]
              omega
            · exact Or.inr ((hKept hFalling).trans hZero)

/- The register is loaded or written, and never shifted. -/
theorem shiftReg_step
    (hDiv : Divided s)
    (hClock : Unclocked s)
    (hReset : i.asic.nreset = true) :
    (step cfg s i).via1.serial.shiftReg =
      if s.shim.via1SrExtComplete && s.shim.via1SrExtLoad then
        s.shim.via1SrExtData
      else if (via1In s i).writes Via6522.rSR then
        (via1In s i).dataIn
      else s.via1.serial.shiftReg := by
  have hOn : (via1In s i).reset = false := by
    simp [via1In, hReset]
  have hPins : (via1In s i).falling = eFalling s := rfl
  show Via6522.shiftRegEdge s.via1 (via1In s i) = _
  rw [Via6522.shiftRegEdge, hOn, hPins]
  cases hFalling : eFalling s with
  | false =>
      simp [via1In_writes _ hFalling]
      rfl
  | true =>
      have hEnd := (falling_iff hDiv).mp hFalling
      have hLow : s.via1.serial.shiftClock = false := by
        by_contra hHigh
        have hNow := hClock.clock (eq_true_of_ne_false hHigh)
        omega
      have hRise : Via6522.shiftTickR s.via1 = false := by
        simp [Via6522.shiftTickR, hLow]
      have hFall : (Via6522.shiftDir s.via1 &&
          Via6522.shiftTickF s.via1) = false := by
        cases hHigh : s.via1.serial.shiftClockD with
        | false => simp [Via6522.shiftTickF, hHigh]
        | true =>
            rcases hClock.clockD hHigh with hEarly | hZero
            · omega
            · simp [Via6522.shiftDir, hZero]
      simp [Via6522.In.writes, hPins, hFalling, hRise, hFall]
      rfl

end AdbPath

end Iosb

------------------------------------------------------------
-- The Log
------------------------------------------------------------

namespace Iosb

namespace AdbPath

open Clocked

variable (cfg : Config) (s : AdbPath) (i : PathIn)

/- The byte shown last, if it is to be read, and if it is new. -/
structure ReadLog where
  recent : Option Byte
  news : Bool

def noRead : ReadLog := ⟨none, false⟩

def noteRead (g : ReadLog) : ReadLog :=
  if !i.asic.nreset then noRead
  else if Adb.entersData s.adbx (adbIn s i) then
    (if s.shim.via1ShiftDir then noRead
    else ⟨some (Adb.talkByte s.adbx), true⟩)
  else if (via1In s i).writes Via6522.rSR then noRead
  else
    { recent := g.recent
      news := g.news && !Via6522.clearsSerial (via1In s i) }

/-
  The CPU reads the byte shown last, as it was shown, and finds
  its interrupt flag set if no access has cleared it.
-/
def ReadsByte
    (x : AdbPath × ReadLog)
    (i : PathIn) : Prop :=
  i.asic.nreset = true → i.asic.ce = true →
    (via1In x.1 i).reads Via6522.rSR = true →
    ∀ b, x.2.recent = some b →
      (x.2.news = true → x.1.via1.irqFlags.getLsbD 2 = true) ∧
        ∀ j : PathIn,
          j.asic.nreset = true → j.asic.ce = true →
          (step cfg (step cfg x.1 i) j).asic.beat.ack = true ∧
            (step cfg (step cfg x.1 i) j).asic.beat.rdata =
              rep4 b

/- Where a byte is on its way to the shift register. -/
inductive Stage (s : AdbPath) (b : Byte) (news : Bool) : Prop where
  | shown
      (strobe : s.adbx.host.adbDoutStrobe = true)
      (byte : s.adbx.host.adbDout = b)
      (dir : s.shim.via1ShiftDir = false)
  | taken
      (fresh : s.shim.via1KbdToMacFresh = true)
      (byte : s.shim.kbdToMac = b)
      (dir : s.shim.via1ShiftDir = false)
  | loading
      (strobe : s.adbx.host.adbDoutStrobe = false)
      (fresh : s.shim.via1KbdToMacFresh = false)
      (byte : s.shim.kbdToMac = b)
      (complete : s.shim.via1SrExtComplete = true)
      (load : s.shim.via1SrExtLoad = true)
      (data : s.shim.via1SrExtData = b)
      (early : phase s ≤ 9)
  | settled
      (strobe : s.adbx.host.adbDoutStrobe = false)
      (fresh : s.shim.via1KbdToMacFresh = false)
      (byte : s.shim.kbdToMac = b)
      (data : s.shim.via1SrExtLoad = true →
        s.shim.via1SrExtData = b)
      (reg : s.via1.serial.shiftReg = b)
      (flag : news = true → s.via1.irqFlags.getLsbD 2 = true)

structure ReadInv (x : AdbPath × ReadLog) : Prop where
  talk : ∃ g, TalkInv (x.1, g)
  clock : Unclocked x.1
  beat : x.1.asic.beat.via1Ren = true →
    x.1.asic.beat.astate = .via
  stage : ∀ b, x.2.recent = some b → Stage x.1 b x.2.news

end AdbPath

end Iosb

------------------------------------------------------------
-- One Clock
------------------------------------------------------------

namespace Iosb

namespace AdbPath

open Clocked

variable {cfg : Config} {s : AdbPath} {i : PathIn}
variable {g : TalkLog} {b : Byte} {news : Bool}

/- A beat for another device leaves VIA1's access as it is. -/
theorem ren_other
    {t : Asic}
    {j : In}
    {m : Beat}
    (hOther : ¬ selVia1 j = true) :
    (beatAccept t j m).via1Ren = m.via1Ren := by
  rw [beatAccept, if_neg hOther]
  simp only [apply_ite Beat.via1Ren, ite_self]

/- VIA1 is read only in the beat slave's own state for it. -/
theorem ren_accept
    {t : Asic}
    {j : In}
    {m : Beat}
    (hIdle : m.via1Ren = false)
    (hRen : (beatAccept t j m).via1Ren = true) :
    (beatAccept t j m).astate = .via := by
  by_cases hVia : selVia1 j = true
  · rw [beatAccept, if_pos hVia]
  · rw [ren_other hVia, hIdle] at hRen
    exact absurd hRen (by decide)

theorem ren_next
    {t : Asic}
    {j : In}
    (hBeat : t.beat.via1Ren = true → t.beat.astate = .via)
    (hRen : (beatNext cfg t j).via1Ren = true) :
    (beatNext cfg t j).astate = .via := by
  have hNot (hState : t.beat.astate ≠ .via) :
      t.beat.via1Ren = false :=
    Bool.eq_false_iff.mpr fun hOn => hState (hBeat hOn)
  unfold beatNext at hRen ⊢
  simp only [] at hRen ⊢
  cases hState : t.beat.astate with
  | idle =>
      have hOff := hNot (by simp [hState])
      simp only [hState] at hRen ⊢
      split_ifs at hRen ⊢
      · exact ren_accept hOff hRen
      · exact absurd (hOff.symm.trans hRen) (by decide)
  | via =>
      simp only [hState] at hRen ⊢
      split_ifs at hRen ⊢
      rfl
  | sdma =>
      have hOff := hNot (by simp [hState])
      simp only [hState, beatSdma] at hRen
      split_ifs at hRen <;>
        exact absurd (hOff.symm.trans hRen) (by decide)
  | capture =>
      have hOff := hNot (by simp [hState])
      simp [hState, hOff] at hRen
  | asc =>
      have hOff := hNot (by simp [hState])
      simp [hState, hOff] at hRen
  | sccAcc =>
      have hOff := hNot (by simp [hState])
      simp only [hState] at hRen
      split_ifs at hRen <;>
        exact absurd (hOff.symm.trans hRen) (by decide)
  | sccRel =>
      have hOff := hNot (by simp [hState])
      simp only [hState] at hRen
      split_ifs at hRen <;>
        exact absurd (hOff.symm.trans hRen) (by decide)

theorem ren_step
    (hBeat : s.asic.beat.via1Ren = true →
      s.asic.beat.astate = .via)
    (hRen : (step cfg s i).asic.beat.via1Ren = true) :
    (step cfg s i).asic.beat.astate = .via := by
  simp only [step, Iosb.step] at hRen ⊢
  split_ifs at hRen ⊢
  · exact absurd hRen (by decide)
  · exact ren_next hBeat hRen
  · exact hBeat hRen

theorem shown_step
    (hInv : TalkInv (s, g))
    (hReset : i.asic.nreset = true)
    (hStrobe : s.adbx.host.adbDoutStrobe = true)
    (hByte : s.adbx.host.adbDout = b)
    (hDir : s.shim.via1ShiftDir = false) :
    Stage (step cfg s i) b news := by
  have hShown := @adbx_step cfg s i hReset
  have hHeld := @inbound_step cfg s i hReset
  have hFalling : eFalling s = false := by
    by_contra hEnd
    have hNone := @settled_of_falling s i g hInv
      (eq_true_of_ne_false hEnd)
    exact absurd (hStrobe.symm.trans hNone.2.2.1) (by decide)
  have hTurn := (@dir_between cfg s i hReset hFalling).trans hDir
  have hFresh : s.shim.via1KbdToMacFresh = false := by
    by_contra hWas
    have hNow := (hInv.fresh (eq_true_of_ne_false hWas) hDir).2.1
    exact absurd (hStrobe.symm.trans hNow) (by decide)
  have hIdle : Shim.completesFresh s.shim = false := by
    simp [Shim.completesFresh, hFresh]
  have hLate : Adb.entersData s.adbx (adbIn s i) = false := by
    by_contra hEnters
    have hEarly := early_of_enters hInv
      (eq_true_of_ne_false hEnters)
    have hThree := Shim.adbEn_iff.mp hEarly.1
    have hNow := (hInv.showing hStrobe).1
    simp only at hNow
    omega
  cases hOn : Shim.adbEn s.shim with
  | true =>
      have hTakes : Shim.captures s.shim (shimIn s i) = true := by
        simp [Shim.captures, shimIn, hOn, hStrobe]
      refine Stage.taken ?_ ?_ hTurn
      · rw [hHeld.1, hIdle, hTakes]
        rfl
      · rw [hHeld.2, hTakes, if_pos rfl, hByte]
  | false =>
      refine Stage.shown ?_ ?_ hTurn
      · rw [hShown.2.2, hOn, if_neg Bool.false_ne_true, hStrobe]
      · rw [hShown.2.1, hLate, if_neg Bool.false_ne_true, hByte]

theorem taken_step
    (hInv : TalkInv (s, g))
    (hReset : i.asic.nreset = true)
    (hFresh : s.shim.via1KbdToMacFresh = true)
    (hByte : s.shim.kbdToMac = b)
    (hDir : s.shim.via1ShiftDir = false) :
    Stage (step cfg s i) b news := by
  have hShown := @adbx_step cfg s i hReset
  have hHeld := @inbound_step cfg s i hReset
  have hDone : Shim.completesFresh s.shim = true := by
    simp [Shim.completesFresh, hFresh, hDir]
  have hNow := hInv.fresh hFresh hDir
  simp only at hNow
  have hComing := @coming_step cfg s i g hInv hReset hDone
  have hTakes : Shim.captures s.shim (shimIn s i) = false := by
    simp [Shim.captures, shimIn, hNow.2.1]
  have hNone : Adb.entersData s.adbx (adbIn s i) = false := by
    simp [Adb.entersData, adbIn, hNow.1]
  refine Stage.loading ?_ ?_ ?_ hComing.1 hComing.2.1 ?_ hComing.2.2
  · rw [hShown.2.2, hNone, hNow.2.1, ite_self]
  · rw [hHeld.1, hDone]
    rfl
  · rw [hHeld.2, hTakes, if_neg Bool.false_ne_true, hByte]
  · show (Shim.step s.shim (shimIn s i)).via1SrExtData = b
    rw [(Shim.step_loads (i := shimIn s i) hReset).2, hDone]
    exact hByte

/- A byte that is there stays, if no other one comes. -/
theorem held_step
    (hReset : i.asic.nreset = true)
    (hNone : Adb.entersData s.adbx (adbIn s i) = false)
    (hStrobe : s.adbx.host.adbDoutStrobe = false)
    (hFresh : s.shim.via1KbdToMacFresh = false)
    (hByte : s.shim.kbdToMac = b) :
    (step cfg s i).adbx.host.adbDoutStrobe = false ∧
      (step cfg s i).shim.via1KbdToMacFresh = false ∧
      (step cfg s i).shim.kbdToMac = b ∧
      ((step cfg s i).shim.via1SrExtLoad = true →
        (step cfg s i).shim.via1SrExtData = b) := by
  have hShown := @adbx_step cfg s i hReset
  have hHeld := @inbound_step cfg s i hReset
  have hLoads := Shim.step_loads (s := s.shim) (i := shimIn s i)
    hReset
  have hTakes : Shim.captures s.shim (shimIn s i) = false := by
    simp [Shim.captures, shimIn, hStrobe]
  refine ⟨?_, ?_, ?_, ?_⟩
  · rw [hShown.2.2, hNone, hStrobe, ite_self]
  · rw [hHeld.1, hTakes, hFresh]
    simp
  · rw [hHeld.2, hTakes, if_neg Bool.false_ne_true, hByte]
  · show (Shim.step s.shim (shimIn s i)).via1SrExtLoad = true →
      (Shim.step s.shim (shimIn s i)).via1SrExtData = b
    rw [hLoads.1, hLoads.2]
    intro hLoad
    rw [if_pos hLoad, hByte]

/- A byte moves to the next stage, or stays at the last one. -/
theorem stage_step
    (hInv : TalkInv (s, g))
    (hClock : Unclocked s)
    (hReset : i.asic.nreset = true)
    (hNone : Adb.entersData s.adbx (adbIn s i) = false)
    (hOther : (via1In s i).writes Via6522.rSR = false)
    (hStage : Stage s b news) :
    Stage (step cfg s i) b
      (news && !Via6522.clearsSerial (via1In s i)) := by
  have hOn : (via1In s i).reset = false := by
    simp [via1In, hReset]
  have hReg := @shiftReg_step cfg s i hInv.divided hClock hReset
  cases hStage with
  | shown strobe byte dir =>
      exact shown_step hInv hReset strobe byte dir
  | taken fresh byte dir =>
      exact taken_step hInv hReset fresh byte dir
  | loading strobe fresh byte complete load data early =>
      have hNext := @held_step cfg s i b hReset hNone strobe fresh
        byte
      have hFalling := not_falling hInv.divided
        (Nat.lt_of_le_of_lt early (by decide))
      refine Stage.settled hNext.1 hNext.2.1 hNext.2.2.1
        hNext.2.2.2 ?_ fun _ => ?_
      · rw [hReg, complete, load, data]
        rfl
      · exact Via6522.serialFlag_set hOn complete hFalling
  | settled strobe fresh byte data reg flag =>
      have hNext := @held_step cfg s i b hReset hNone strobe fresh
        byte
      refine Stage.settled hNext.1 hNext.2.1 hNext.2.2.1
        hNext.2.2.2 ?_ fun hNews => ?_
      · rw [hReg, hOther, if_neg Bool.false_ne_true, reg]
        split_ifs with hLoad
        · exact data (Bool.and_eq_true_iff.mp hLoad).2
        · rfl
      · simp only [Bool.and_eq_true, Bool.not_eq_true'] at hNews
        exact Via6522.serialFlag_kept hOn (flag hNews.1) hNews.2

end AdbPath

end Iosb

------------------------------------------------------------
-- Runs
------------------------------------------------------------

namespace Iosb

namespace AdbPath

open Clocked

variable {cfg : Config} {s : AdbPath} {i : PathIn}
variable {g : ReadLog}

theorem readInv_reset (hReset : i.asic.nreset = false) :
    ReadInv (step cfg s i, noRead) where
  talk := ⟨noTalk, talkInv_reset hReset⟩
  clock := unclocked_reset hReset
  beat := by simp [step, Iosb.step, asicIn, hReset, resetBeat]
  stage := by simp [noRead]

/- The system with its log. -/
abbrev readWatch (cfg : Config) :
    AdbPath × ReadLog → PathIn → AdbPath × ReadLog :=
  watch (step cfg) (fun g s i => noteRead s i g)

theorem stage_next
    (hInv : ReadInv (s, g))
    (hReset : i.asic.nreset = true)
    (b : Byte)
    (hRecent : (noteRead s i g).recent = some b) :
    Stage (step cfg s i) b (noteRead s i g).news := by
  obtain ⟨t, hTalk⟩ : ∃ t, TalkInv (s, t) := hInv.talk
  have hShown := @adbx_step cfg s i hReset
  unfold noteRead at hRecent ⊢
  simp only [hReset, Bool.not_true, Bool.false_eq_true, if_false]
    at hRecent ⊢
  cases hEnters : Adb.entersData s.adbx (adbIn s i) with
  | true =>
      have hEarly := early_of_enters hTalk hEnters
      have hFalling := not_falling hTalk.divided
        (Nat.lt_of_le_of_lt hEarly.2 (by decide))
      have hTurn := @dir_between cfg s i hReset hFalling
      cases hDir : s.shim.via1ShiftDir with
      | true => simp [hEnters, hDir, noRead] at hRecent
      | false =>
          simp only [hEnters, hDir, if_true, Bool.false_eq_true,
            if_false, Option.some.injEq] at hRecent ⊢
          refine Stage.shown ?_ ?_ (hTurn.trans hDir)
          · rw [hShown.2.2, hEarly.1, if_pos rfl, hEnters]
          · rw [hShown.2.1, hEnters, if_pos rfl, hRecent]
  | false =>
      simp only [hEnters, Bool.false_eq_true, if_false]
        at hRecent ⊢
      cases hWrite : (via1In s i).writes Via6522.rSR with
      | true => simp [hWrite, noRead] at hRecent
      | false =>
          simp only [hWrite, Bool.false_eq_true, if_false]
            at hRecent ⊢
          exact stage_step hTalk hInv.clock hReset hEnters hWrite
            (hInv.stage b hRecent)

theorem readInv_step
    (x : AdbPath × ReadLog)
    (i : PathIn)
    (hInv : ReadInv x)
    (hExternal : External x.1 i) :
    ReadInv (readWatch cfg x i) := by
  rcases x with ⟨s, g⟩
  show ReadInv (step cfg s i, noteRead s i g)
  obtain ⟨t, hTalk⟩ : ∃ t, TalkInv (s, t) := hInv.talk
  cases hReset : i.asic.nreset with
  | false =>
      have hLog : noteRead s i g = noRead := by
        simp [noteRead, hReset]
      rw [hLog]
      exact readInv_reset hReset
  | true =>
      exact
        { talk := ⟨noteTalk s i t, talkInv_step (s, t) i hTalk⟩
          clock := unclocked_step hTalk.divided hInv.clock
            hExternal hReset
          beat := ren_step hInv.beat
          stage := stage_next hInv hReset }

/- At the falling edge a byte has reached its last stage. -/
theorem settled_of_stage
    {b : Byte}
    (hInv : ReadInv (s, g))
    (hFalling : eFalling s = true)
    (hRecent : g.recent = some b) :
    s.via1.serial.shiftReg = b ∧
      (g.news = true → s.via1.irqFlags.getLsbD 2 = true) := by
  obtain ⟨t, hTalk⟩ : ∃ t, TalkInv (s, t) := hInv.talk
  have hLast := (falling_iff hTalk.divided).mp hFalling
  simp only at hLast
  cases hInv.stage b hRecent with
  | shown strobe byte dir =>
      have hNow := hTalk.showing strobe
      have hDiv := s.shim.adbdiv.isLt
      simp only at hNow
      omega
  | taken fresh byte dir =>
      have hNow := hTalk.fresh fresh dir
      simp only at hNow
      omega
  | loading strobe fresh byte complete load data early =>
      simp only at early
      omega
  | settled strobe fresh byte data reg flag => exact ⟨reg, flag⟩

/- What VIA1 shows at a read reaches the bus two clocks later. -/
theorem read_answer
    (hBeat : s.asic.beat.astate = .via)
    (hFalling : eFalling s = true)
    (hAddr : s.asic.beat.via1Addr = Via6522.rSR)
    (hReset : i.asic.nreset = true)
    (hCe : i.asic.ce = true)
    {j : PathIn}
    (hReset' : j.asic.nreset = true)
    (hCe' : j.asic.ce = true) :
    (step cfg (step cfg s i) j).asic.beat.ack = true ∧
      (step cfg (step cfg s i) j).asic.beat.rdata =
        rep4 s.via1.serial.shiftReg := by
  have hShows : (step cfg s i).via1.dataOut =
      s.via1.serial.shiftReg := by
    simp [step, Via6522.Via.step, Via6522.dataOutEdge, via1In,
      hAddr, Via6522.rSR, Via6522.rORB, Via6522.rORA,
      Via6522.rORANoHs, Via6522.rDDRB, Via6522.rDDRA,
      Via6522.rT1CL, Via6522.rT1CH, Via6522.rT1LL, Via6522.rT1LH,
      Via6522.rT2CL, Via6522.rT2CH]
  have hNext : (step cfg s i).asic.beat.astate = .capture := by
    simp [step, Iosb.step, asicIn, beatNext, hReset, hCe, hBeat,
      hFalling]
  have hBeatNext :
      (step cfg (step cfg s i) j).asic.beat =
        beatNext cfg (step cfg s i).asic
          (asicIn (step cfg s i) j) := by
    simp [step, Iosb.step, asicIn, hReset', hCe']
  rw [hBeatNext]
  simp only [beatNext, hNext, asicIn, hShows]
  exact ⟨trivial, trivial⟩

theorem readsByte_of_inv
    (x : AdbPath × ReadLog)
    (i : PathIn)
    (hInv : ReadInv x) :
    ReadsByte cfg x i := by
  rcases x with ⟨s, g⟩
  intro hReset hCe hRead b hRecent
  simp only [Via6522.In.reads, via1In, Bool.and_eq_true,
    beq_iff_eq] at hRead
  have hThere := settled_of_stage hInv hRead.1.2 hRecent
  have hBeat := hInv.beat hRead.1.1
  refine ⟨hThere.2, fun j hReset' hCe' => ?_⟩
  have hAnswer := @read_answer cfg s i hBeat hRead.1.2 hRead.2
    hReset hCe j hReset' hCe'
  rw [hThere.1] at hAnswer
  exact hAnswer

end AdbPath

end Iosb
