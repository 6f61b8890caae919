import Wombat33.Lanes.Bytes
import Mathlib.Tactic.SplitIfs

/-
  The shift shim between VIA1 and the ADB transceiver.

  The shim watches the accesses to VIA1's shift register and
  auxiliary control register, times a shift, completes it at
  VIA1, and hands command bytes to the transceiver once in
  four clocks.  All of it is one clocked block; where two arms
  assign one register, the later arm wins.

  Key definitions include:
    * `Access`, `Shim`, `ShimIn`
    * `Shim.step`
    * `armedDelay`, `cancels`

  Key theorems include:
    * `step_via1ShiftTimer`, `step_via1ShiftDir`
    * `step_handshake`, `step_outputs`
-/

------------------------------------------------------------
-- State
------------------------------------------------------------

namespace Iosb

/- An access to VIA1, at the falling edge of its clock. -/
inductive Access where
  | write (addr : BitVec 4) (din : BitVec 8)
  | read (addr : BitVec 4)
  deriving DecidableEq

structure Shim where
  adbdiv : BitVec 2
  via1AcrShiftMode : BitVec 3
  via1SrShadow : BitVec 8
  via1ShiftTimer : BitVec 22
  via1ShiftDir : Bool
  via1SrExtComplete : Bool
  via1SrExtLoad : Bool
  via1SrExtData : BitVec 8
  via1SrOutPending : Bool
  via1SrOutAck : Bool
  via1KbdToMacFresh : Bool
  kbdToMac : BitVec 8
  adbDin : BitVec 8
  adbDinStrobe : Bool
  deriving DecidableEq, Inhabited

structure ShimIn where
  nreset : Bool := true
  access : Option Access := none
  adbDout : BitVec 8 := 0x00#8
  adbDoutStrobe : Bool := false
  adbRespPending : Bool := false
  adbBusIdle : Bool := true
  via1SrActive : Bool := false
  deriving DecidableEq

end Iosb

------------------------------------------------------------
-- The Clocked Block
------------------------------------------------------------

namespace Iosb

namespace Shim

def shiftDelay : BitVec 22 := 100000#22

def idleDelay : BitVec 22 := 363000#22

/- The shift mode of an ACR value: out, in, or none. -/
def shiftOut : BitVec 3 := 0b111#3

def shiftIn : BitVec 3 := 0b011#3

/- The accesses the shim watches, and the byte written. -/
def via1SrWr (i : ShimIn) : Bool :=
  match i.access with
  | some (.write addr _) => addr == 0xA#4
  | _ => false

def via1AcrWr (i : ShimIn) : Bool :=
  match i.access with
  | some (.write addr _) => addr == 0xB#4
  | _ => false

def via1SrRd (i : ShimIn) : Bool :=
  match i.access with
  | some (.read addr) => addr == 0xA#4
  | _ => false

def via1Din (i : ShimIn) : BitVec 8 :=
  match i.access with
  | some (.write _ din) => din
  | _ => 0x00#8

/- The shift mode an ACR write selects. -/
def selectedMode (i : ShimIn) : BitVec 3 :=
  (via1Din i).extractLsb' 2 3

variable (s : Shim) (i : ShimIn) (n : Shim)

def adbEn : Bool := s.adbdiv == 3#2

/- A completed shift-out is handed to the transceiver. -/
def delivers : Bool :=
  adbEn s && (s.via1SrOutPending && !s.via1SrOutAck)

def handshakeArm : Shim :=
  if adbEn s then
    let n :=
      { n with adbDinStrobe := false, via1SrOutAck := false }
    let n :=
      if i.adbDoutStrobe then
        { n with kbdToMac := i.adbDout, via1KbdToMacFresh := true }
      else n
    if s.via1SrOutPending && !s.via1SrOutAck then
      { n with
        adbDin := s.via1SrShadow
        adbDinStrobe := true
        via1SrOutAck := true
        via1SrOutPending := false }
    else n
  else n

/- A write of the auxiliary control register. -/
def acrArm : Shim :=
  if via1AcrWr i then
    let mode := selectedMode i
    let n := { n with via1AcrShiftMode := mode }
    if mode == shiftOut && s.via1AcrShiftMode != shiftOut then
      { n with
        via1ShiftTimer := shiftDelay, via1ShiftDir := true }
    else if mode == shiftIn &&
        s.via1AcrShiftMode != shiftIn then
      { n with
        via1ShiftTimer := shiftDelay, via1ShiftDir := false }
    else if mode == 0b000#3 then
      { n with via1ShiftTimer := 0#22 }
    else n
  else n

/- A read of the shift register arms the next shift-in. -/
def srReadArm : Shim :=
  if via1SrRd i && s.via1AcrShiftMode == shiftIn then
    { n with
      via1ShiftTimer :=
        if i.adbRespPending then shiftDelay else idleDelay
      via1ShiftDir := false }
  else n

def srWriteArm : Shim :=
  if via1SrWr i then
    let n := { n with via1SrShadow := via1Din i }
    let n :=
      if s.via1AcrShiftMode == shiftOut then
        { n with
          via1ShiftTimer := shiftDelay, via1ShiftDir := true }
      else n
    if s.via1AcrShiftMode == shiftIn then
      { n with
        via1ShiftTimer := shiftDelay, via1ShiftDir := false }
    else n
  else n

def countArm : Shim :=
  if s.via1ShiftTimer > 1#22 then
    { n with via1ShiftTimer := s.via1ShiftTimer - 1#22 }
  else n

/- A shift-out ends with the timer. -/
def completesOut : Bool :=
  s.via1ShiftDir && s.via1ShiftTimer == 1#22

/- A shift-in ends with the byte that has come. -/
def completesFresh : Bool :=
  !s.via1ShiftDir && s.via1KbdToMacFresh

/- Or with the timer, where VIA1 waits and no byte comes. -/
def completesIdle : Bool :=
  !s.via1ShiftDir && !s.via1KbdToMacFresh &&
    (s.via1ShiftTimer == 1#22 && i.via1SrActive) &&
    (!i.adbRespPending || i.adbBusIdle)

def completeArm : Shim :=
  if completesOut s then
    { n with
      via1ShiftTimer := 0#22
      via1SrExtComplete := true
      via1SrOutPending := true }
  else if completesFresh s then
    { n with
      via1ShiftTimer := 0#22
      via1SrExtComplete := true
      via1SrExtLoad := true
      via1SrExtData := s.kbdToMac
      via1KbdToMacFresh := false }
  else if completesIdle s i then
    { n with
      via1ShiftTimer := 0#22
      via1SrExtComplete := true
      via1SrExtLoad := true
      via1SrExtData := s.kbdToMac }
  else n

/- The reset values of the block's registers. -/
def resetState : Shim where
  adbdiv := 0#2
  via1AcrShiftMode := 0b000#3
  via1SrShadow := 0x00#8
  via1ShiftTimer := 0#22
  via1ShiftDir := false
  via1SrExtComplete := false
  via1SrExtLoad := false
  via1SrExtData := 0x00#8
  via1SrOutPending := false
  via1SrOutAck := false
  via1KbdToMacFresh := false
  kbdToMac := 0x00#8
  adbDin := 0x00#8
  adbDinStrobe := false

/- The completion outputs are pulses. -/
def quiet (s : Shim) : Shim :=
  { s with
    adbdiv := s.adbdiv + 1#2
    via1SrExtComplete := false
    via1SrExtLoad := false }

def step : Shim :=
  if !i.nreset then resetState
  else
    completeArm s i <| countArm s <| srWriteArm s i <|
      srReadArm s i <| acrArm s i <| handshakeArm s i <|
        quiet s

end Shim

end Iosb

------------------------------------------------------------
-- Accesses
------------------------------------------------------------

namespace Iosb

namespace Shim

variable (s : Shim) (i : ShimIn)

/- The delay an access arms the timer with, and if outward. -/
def armedDelay : Option (BitVec 22 × Bool) :=
  if via1AcrWr i && selectedMode i == shiftOut &&
      s.via1AcrShiftMode != shiftOut then
    some (shiftDelay, true)
  else if via1AcrWr i && selectedMode i == shiftIn &&
      s.via1AcrShiftMode != shiftIn then
    some (shiftDelay, false)
  else if via1SrWr i && s.via1AcrShiftMode == shiftOut then
    some (shiftDelay, true)
  else if via1SrWr i && s.via1AcrShiftMode == shiftIn then
    some (shiftDelay, false)
  else if via1SrRd i && s.via1AcrShiftMode == shiftIn then
    some (if i.adbRespPending then shiftDelay else idleDelay,
      false)
  else none

/- The shift mode 000 stops the timer. -/
def cancels : Bool :=
  via1AcrWr i && selectedMode i == 0b000#3

/- The timer as the accesses load it. -/
def loadedTimer : BitVec 22 :=
  match armedDelay s i with
  | some armed => armed.1
  | none => if cancels i then 0#22 else s.via1ShiftTimer

/- The direction as the accesses set it. -/
def loadedDir : Bool :=
  match armedDelay s i with
  | some armed => armed.2
  | none => s.via1ShiftDir

end Shim

end Iosb

------------------------------------------------------------
-- The Next Timer
------------------------------------------------------------

namespace Iosb

namespace Shim

variable {s n : Shim} {i : ShimIn}

/- At most one of the watched accesses is there. -/
theorem access_cases (i : ShimIn) :
    (via1AcrWr i = false ∧ via1SrWr i = false ∧
        via1SrRd i = false) ∨
      (via1AcrWr i = true ∧ via1SrWr i = false ∧
        via1SrRd i = false) ∨
      (via1AcrWr i = false ∧ via1SrWr i = true ∧
        via1SrRd i = false) ∨
      (via1AcrWr i = false ∧ via1SrWr i = false ∧
        via1SrRd i = true) := by
  unfold via1AcrWr via1SrWr via1SrRd
  cases i.access with
  | none => simp
  | some access =>
      cases access with
      | write addr din =>
          simp only [beq_eq_false_iff_ne, beq_iff_eq]
          by_cases hA : addr = 0xA#4
          · simp [hA]
          · simp [hA]
            exact (em (addr = 0xB#4)).symm
      | read addr =>
          simp only [beq_eq_false_iff_ne, beq_iff_eq]
          by_cases hA : addr = 0xA#4 <;> simp [hA]

/- The arms of the accesses load timer and direction. -/
theorem accessArms_timer
    (hTimer : n.via1ShiftTimer = s.via1ShiftTimer)
    (hDir : n.via1ShiftDir = s.via1ShiftDir) :
    let n' := srWriteArm s i (srReadArm s i (acrArm s i n))
    n'.via1ShiftTimer = loadedTimer s i ∧
      n'.via1ShiftDir = loadedDir s i := by
  unfold srWriteArm srReadArm acrArm loadedTimer loadedDir
    armedDelay cancels
  rcases access_cases i with h | h | h | h
  · simp only [h, Bool.false_and, Bool.false_eq_true, if_false]
    exact ⟨hTimer, hDir⟩
  · simp only [h, Bool.false_and, Bool.true_and,
      Bool.false_eq_true, if_false, if_true]
    split_ifs <;> first
      | exact ⟨rfl, rfl⟩
      | exact ⟨rfl, hDir⟩
      | exact ⟨hTimer, hDir⟩
  · simp only [h, Bool.false_and, Bool.true_and,
      Bool.false_eq_true, if_false, if_true]
    split_ifs with hOut hIn
    · rw [beq_iff_eq] at hOut hIn
      exact absurd (hOut.symm.trans hIn) (by decide)
    · exact ⟨rfl, rfl⟩
    · exact ⟨rfl, rfl⟩
    · exact ⟨hTimer, hDir⟩
  · simp only [h, Bool.false_and, Bool.true_and,
      Bool.false_eq_true, if_false]
    split_ifs <;> first
      | exact ⟨rfl, rfl⟩
      | exact ⟨hTimer, hDir⟩

/- The handshake does not touch the timer. -/
theorem handshakeArm_timer :
    (handshakeArm s i n).via1ShiftTimer = n.via1ShiftTimer := by
  unfold handshakeArm
  simp only []
  split_ifs <;> rfl

theorem handshakeArm_dir :
    (handshakeArm s i n).via1ShiftDir = n.via1ShiftDir := by
  unfold handshakeArm
  simp only []
  split_ifs <;> rfl

theorem countArm_timer :
    (countArm s n).via1ShiftTimer =
      if s.via1ShiftTimer > 1#22 then s.via1ShiftTimer - 1#22
      else n.via1ShiftTimer := by
  unfold countArm
  split_ifs <;> rfl

theorem countArm_dir :
    (countArm s n).via1ShiftDir = n.via1ShiftDir := by
  unfold countArm
  split_ifs <;> rfl

/- A completion of any kind. -/
def completes (s : Shim) (i : ShimIn) : Bool :=
  completesOut s || completesFresh s || completesIdle s i

theorem completeArm_timer :
    (completeArm s i n).via1ShiftTimer =
      if completes s i then 0#22 else n.via1ShiftTimer := by
  unfold completeArm completes
  split_ifs <;> simp_all

theorem completeArm_dir :
    (completeArm s i n).via1ShiftDir = n.via1ShiftDir := by
  unfold completeArm
  split_ifs <;> rfl

/- A completion wins over the count, the count over loads. -/
theorem step_via1ShiftTimer
    (hReset : i.nreset = true) :
    (step s i).via1ShiftTimer =
      if completes s i then 0#22
      else if s.via1ShiftTimer > 1#22 then
        s.via1ShiftTimer - 1#22
      else loadedTimer s i := by
  simp only [step, hReset, Bool.not_true, Bool.false_eq_true,
    if_false]
  have hLoads := @accessArms_timer s
    (handshakeArm s i (quiet s)) i handshakeArm_timer
    handshakeArm_dir
  rw [completeArm_timer, countArm_timer, hLoads.1]

theorem step_via1ShiftDir
    (hReset : i.nreset = true) :
    (step s i).via1ShiftDir = loadedDir s i := by
  simp only [step, hReset, Bool.not_true, Bool.false_eq_true,
    if_false]
  have hLoads := @accessArms_timer s
    (handshakeArm s i (quiet s)) i handshakeArm_timer
    handshakeArm_dir
  rw [completeArm_dir, countArm_dir, hLoads.2]

end Shim

end Iosb

------------------------------------------------------------
-- The Next Handshake
------------------------------------------------------------

namespace Iosb

namespace Shim

variable {s n : Shim} {i : ShimIn}

/- The registers that accesses and count leave alone. -/
def handshake (n : Shim) :
    BitVec 2 × Bool × Bool × Bool × Bool × BitVec 8 :=
  (n.adbdiv, n.via1SrOutPending, n.via1SrOutAck,
    n.via1SrExtComplete, n.adbDinStrobe, n.adbDin)

theorem acrArm_handshake :
    handshake (acrArm s i n) = handshake n := by
  unfold acrArm
  simp only []
  split_ifs <;> rfl

theorem srReadArm_handshake :
    handshake (srReadArm s i n) = handshake n := by
  unfold srReadArm
  split_ifs <;> rfl

theorem srWriteArm_handshake :
    handshake (srWriteArm s i n) = handshake n := by
  unfold srWriteArm
  simp only []
  split_ifs <;> rfl

theorem countArm_handshake :
    handshake (countArm s n) = handshake n := by
  unfold countArm
  split_ifs <;> rfl

/- So they are as the handshake left them. -/
theorem arms_handshake :
    handshake (countArm s (srWriteArm s i
      (srReadArm s i (acrArm s i n)))) = handshake n := by
  rw [countArm_handshake, srWriteArm_handshake,
    srReadArm_handshake, acrArm_handshake]

theorem completeArm_handshake :
    (completeArm s i n).adbdiv = n.adbdiv ∧
      (completeArm s i n).via1SrOutPending =
        (completesOut s || n.via1SrOutPending) ∧
      (completeArm s i n).via1SrOutAck = n.via1SrOutAck := by
  unfold completeArm
  split_ifs <;> simp_all

theorem handshakeArm_handshake
    (hPending : n.via1SrOutPending = s.via1SrOutPending)
    (hAck : n.via1SrOutAck = s.via1SrOutAck) :
    (handshakeArm s i n).adbdiv = n.adbdiv ∧
      (handshakeArm s i n).via1SrOutPending =
        (s.via1SrOutPending && !delivers s) ∧
      (handshakeArm s i n).via1SrOutAck =
        (if adbEn s then delivers s else s.via1SrOutAck) := by
  unfold handshakeArm delivers
  simp only []
  split_ifs <;> simp_all

theorem step_handshake
    (hReset : i.nreset = true) :
    (step s i).adbdiv = s.adbdiv + 1#2 ∧
      (step s i).via1SrOutPending =
        (completesOut s ||
          s.via1SrOutPending && !delivers s) ∧
      (step s i).via1SrOutAck =
        (if adbEn s then delivers s else s.via1SrOutAck) := by
  simp only [step, hReset, Bool.not_true, Bool.false_eq_true,
    if_false]
  have hArms :=
    @arms_handshake s (handshakeArm s i (quiet s)) i
  simp only [handshake, Prod.mk.injEq] at hArms
  rw [completeArm_handshake.1, completeArm_handshake.2.1,
    completeArm_handshake.2.2, hArms.1, hArms.2.1,
    hArms.2.2.1]
  have hHandshake :=
    @handshakeArm_handshake s (quiet s) i rfl rfl
  exact ⟨hHandshake.1, by rw [hHandshake.2.1],
    hHandshake.2.2⟩

theorem completeArm_outputs :
    (completeArm s i n).via1SrExtComplete =
        (completes s i || n.via1SrExtComplete) ∧
      (completeArm s i n).adbDinStrobe = n.adbDinStrobe ∧
      (completeArm s i n).adbDin = n.adbDin := by
  unfold completeArm completes
  split_ifs <;> simp_all

theorem handshakeArm_outputs :
    (handshakeArm s i n).via1SrExtComplete =
        n.via1SrExtComplete ∧
      (delivers s = true →
        (handshakeArm s i n).adbDinStrobe = true ∧
          (handshakeArm s i n).adbDin = s.via1SrShadow) := by
  unfold handshakeArm delivers
  simp only []
  split_ifs <;> simp_all

/- What VIA1 and the transceiver see of an edge. -/
theorem step_outputs
    (hReset : i.nreset = true) :
    (step s i).via1SrExtComplete = completes s i ∧
      (delivers s = true →
        (step s i).adbDinStrobe = true ∧
          (step s i).adbDin = s.via1SrShadow) := by
  simp only [step, hReset, Bool.not_true, Bool.false_eq_true,
    if_false]
  have hArms :=
    @arms_handshake s (handshakeArm s i (quiet s)) i
  simp only [handshake, Prod.mk.injEq] at hArms
  rw [completeArm_outputs.1, completeArm_outputs.2.1,
    completeArm_outputs.2.2, hArms.2.2.2.1, hArms.2.2.2.2.1,
    hArms.2.2.2.2.2, handshakeArm_outputs.1]
  exact ⟨Bool.or_false _, handshakeArm_outputs.2⟩

end Shim

end Iosb
