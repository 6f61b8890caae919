import Wombat33.Adb.Transceiver
import Wombat33.Iosb.Core
import Wombat33.Iosb.Shim
import Wombat33.Via6522.Chip

/-
  VIA1, its shift shim and the ADB transceiver as one system.

  The beat slave holds an access to VIA1 until the falling edge
  of the E clock.  The shim runs at every clock, the transceiver
  at one in four; its bus state is two pins of VIA1's port B.
  What the other devices do at their pins is left free.

  Key definitions include:
    * `AdbPath`, `PathIn`
    * `adbSt`, `via1Access`
    * `AdbPath.step`, `phase`

  Key theorems include:
    * `phase_step`
    * `adbSt_step`
-/

------------------------------------------------------------
-- The System
------------------------------------------------------------

namespace Iosb

structure AdbPath where
  asic : Asic
  ediv : BitVec 5
  ephase : Bool
  via1 : Via6522.Via
  shim : Shim
  adbx : Adb.Transceiver
  deriving Inhabited

/- The pins of the asic, the ticks, the RTC line and PS/2. -/
structure PathIn where
  asic : In := {}
  tick60Hz : Bool := false
  onesec : Bool := false
  rtcLine : Bool := true
  ps2Mouse : BitVec 25 := 0#25
  ps2Key : BitVec 11 := 0#11
  deriving DecidableEq

namespace AdbPath

variable (cfg : Config) (s : AdbPath) (i : PathIn)

/- Clocks in a phase of E. -/
def eHalf : BitVec 5 := 21#5

def ePulse : Bool := s.ediv == eHalf - 1#5

def eRising : Bool := ePulse s && !s.ephase

def eFalling : Bool := ePulse s && s.ephase

/- The bus state pins, pulled up where they are inputs. -/
def adbSt0 : Bool :=
  !(Via6522.portBT s.via1).getLsbD 4 ||
    (Via6522.portBO s.via1).getLsbD 4

def adbSt1 : Bool :=
  !(Via6522.portBT s.via1).getLsbD 5 ||
    (Via6522.portBO s.via1).getLsbD 5

def adbSt : Adb.BusState :=
  match adbSt1 s, adbSt0 s with
  | false, false => .command
  | false, true => .data1
  | true, false => .data2
  | true, true => .idle

def adbBusIdle : Bool := adbSt0 s && adbSt1 s

/- The interrupt line of the transceiver, low when asserted. -/
def adbIntN : Bool :=
  !(match adbSt s with
    | .command => false
    | .data1 =>
        !s.adbx.host.cmdValid && Adb.respEmpty s.adbx.host
    | _ => Adb.kbdSrq s.adbx.kbd || s.adbx.mouse.mouseHasEvent)

/- The access to VIA1 at the falling edge, as the shim sees it. -/
def via1Access : Option Access :=
  let b := s.asic.beat
  if b.astate == .via && eFalling s then
    (if b.via1Wen then some (.write b.via1Addr b.via1Din)
    else if b.via1Ren then some (.read b.via1Addr)
    else none)
  else none

def asicIn : In :=
  { i.asic with
    eFalling := eFalling s
    via1Dout := s.via1.dataOut }

def via1In : Via6522.In where
  rising := eRising s
  falling := eFalling s
  timerTick := eFalling s
  reset := !i.asic.nreset
  addr := s.asic.beat.via1Addr
  wen := s.asic.beat.via1Wen
  ren := s.asic.beat.via1Ren
  dataIn := s.asic.beat.via1Din
  portAI := 0x12#8
  portBI :=
    0b0000#4 ++ BitVec.ofBool (adbIntN s) ++ 0b00#2 ++
      BitVec.ofBool i.rtcLine
  ca1I := i.tick60Hz
  ca2I := i.onesec
  cb1I := false
  cb2I := false
  ca2LvlI := false
  cb2LvlI := false
  srExtComplete := s.shim.via1SrExtComplete
  srExtLoad := s.shim.via1SrExtLoad
  srExtData := s.shim.via1SrExtData

def shimIn : ShimIn where
  nreset := i.asic.nreset
  access := via1Access s
  adbDout := s.adbx.host.adbDout
  adbDoutStrobe := s.adbx.host.adbDoutStrobe
  adbRespPending := !Adb.respEmpty s.adbx.host
  adbBusIdle := adbBusIdle s
  via1SrActive := s.via1.serial.shiftActive

def adbIn : Adb.In where
  reset := !i.asic.nreset
  clkEn := Shim.adbEn s.shim
  st := adbSt s
  adbDin := s.shim.adbDin
  adbDinStrobe := s.shim.adbDinStrobe
  ps2Mouse := i.ps2Mouse
  ps2Key := i.ps2Key

def step : AdbPath where
  asic := Iosb.step cfg s.asic (asicIn s i)
  ediv :=
    if !i.asic.nreset || ePulse s then 0#5 else s.ediv + 1#5
  ephase :=
    if !i.asic.nreset then false else s.ephase ^^ ePulse s
  via1 := s.via1.step (via1In s i)
  shim := Shim.step s.shim (shimIn s i)
  adbx := Adb.step s.adbx (adbIn s i)

/- The machine's build options, and a clock of reset. -/
def shipped : Config := ⟨⟨0#4, false⟩, 18⟩

def inReset : PathIn := { asic := { nreset := false } }

end AdbPath

end Iosb

------------------------------------------------------------
-- The Phase of E
------------------------------------------------------------

namespace Iosb

namespace AdbPath

variable {cfg : Config} {s : AdbPath} {i : PathIn}

/- The clocks since the last falling edge. -/
def phase (s : AdbPath) : Nat :=
  (if s.ephase then 21 else 0) + s.ediv.toNat

/- The divider is in its range. -/
def Divided (s : AdbPath) : Prop := s.ediv.toNat < 21

theorem ePulse_iff (s : AdbPath) :
    ePulse s = true ↔ s.ediv.toNat = 20 := by
  have hLast : eHalf - 1#5 = 20#5 := rfl
  rw [ePulse, hLast, beq_iff_eq]
  exact ⟨fun hPulse => by rw [hPulse]; rfl,
    fun hPulse => BitVec.eq_of_toNat_eq hPulse⟩

theorem falling_iff (hDiv : Divided s) :
    eFalling s = true ↔ phase s = 41 := by
  unfold Divided at hDiv
  rw [eFalling, Bool.and_eq_true, ePulse_iff, phase]
  cases s.ephase with
  | true => simp only [if_true, and_true]; omega
  | false => simp; omega

theorem rising_iff (hDiv : Divided s) :
    eRising s = true ↔ phase s = 20 := by
  unfold Divided at hDiv
  rw [eRising, Bool.and_eq_true, ePulse_iff, phase]
  cases s.ephase with
  | true => simp; omega
  | false => simp

theorem not_falling
    (hDiv : Divided s)
    (hEarly : phase s < 41) :
    eFalling s = false := by
  refine Bool.eq_false_iff.mpr fun hFalling => ?_
  have hLast := (falling_iff hDiv).mp hFalling
  omega

theorem phase_le (hDiv : Divided s) : phase s ≤ 41 := by
  unfold Divided at hDiv
  unfold phase
  split_ifs <;> omega

/- The phase counts to 41, the falling edge, and starts again. -/
theorem phase_step
    (hDiv : Divided s)
    (hReset : i.asic.nreset = true) :
    Divided (step cfg s i) ∧
      phase (step cfg s i) =
        if eFalling s then 0 else phase s + 1 := by
  unfold Divided at hDiv ⊢
  have hPulse := ePulse_iff s
  unfold phase eFalling
  simp only [step, hReset, Bool.not_true, Bool.false_or,
    Bool.false_eq_true, if_false]
  cases hEnd : ePulse s with
  | true =>
      rw [hEnd, eq_self_iff_true, true_iff] at hPulse
      cases s.ephase <;> simp [hPulse]
  | false =>
      have hLess : s.ediv.toNat < 20 := by
        simp only [hEnd, Bool.false_eq_true, false_iff] at hPulse
        omega
      have hNext : (s.ediv + 1#5).toNat = s.ediv.toNat + 1 := by
        rw [BitVec.toNat_add]
        simp only [BitVec.toNat_ofNat]
        omega
      simp only [Bool.false_eq_true, if_false, hNext,
        Bool.xor_false, Bool.false_and]
      omega

theorem phase_reset (hReset : i.asic.nreset = false) :
    Divided (step cfg s i) ∧ phase (step cfg s i) = 0 := by
  simp [Divided, phase, step, hReset]

theorem shim_reset (hReset : i.asic.nreset = false) :
    (step cfg s i).shim = Shim.resetState := by
  simp [step, Shim.step, shimIn, hReset]

theorem host_reset (hReset : i.asic.nreset = false) :
    (step cfg s i).adbx.host = Adb.resetHost s.adbx.host := by
  simp [step, Adb.step, adbIn, hReset, Adb.resetState]

end AdbPath

end Iosb

------------------------------------------------------------
-- Between Falling Edges
------------------------------------------------------------

namespace Iosb

namespace AdbPath

variable {cfg : Config} {s : AdbPath} {i : PathIn}

/- VIA1 is accessed only at the falling edge. -/
theorem via1Access_none (hFalling : eFalling s = false) :
    via1Access s = none := by
  simp [via1Access, hFalling]

theorem via1In_writes (a : BitVec 4)
    (hFalling : eFalling s = false) :
    (via1In s i).writes a = false := by
  simp [Via6522.In.writes, via1In, hFalling]

theorem via1In_reads (a : BitVec 4)
    (hFalling : eFalling s = false) :
    (via1In s i).reads a = false := by
  simp [Via6522.In.reads, via1In, hFalling]

/- Outside reset a port B register keeps its value. -/
theorem pio_kept
    (hReset : i.asic.nreset = true)
    (hB : (via1In s i).writes Via6522.rORB = false)
    (hDdr : (via1In s i).writes Via6522.rDDRB = false) :
    (step cfg s i).via1.pio.prb = s.via1.pio.prb ∧
      (step cfg s i).via1.pio.ddrb = s.via1.pio.ddrb := by
  have hOn : (via1In s i).reset = false := by
    simp [via1In, hReset]
  simp [step, Via6522.Via.step, Via6522.pioEdge, Via6522.written,
    hOn, hB, hDdr]

/- The bus state is that of two port B registers. -/
theorem adbSt_pio
    {t : AdbPath}
    (hPrb : t.via1.pio.prb = s.via1.pio.prb)
    (hDdrb : t.via1.pio.ddrb = s.via1.pio.ddrb) :
    adbSt t = adbSt s := by
  have hOut (v : Via6522.Via) (k : Nat) (hK : k < 7) :
      (Via6522.portBO v).getLsbD k = v.pio.prb.getLsbD k := by
    unfold Via6522.portBO
    split_ifs
    · rw [BitVec.getLsbD_append, if_pos hK]
      simp [hK]
    · rfl
  have hDir (v : Via6522.Via) (k : Nat) (hK : k < 7) :
      (Via6522.portBT v).getLsbD k = v.pio.ddrb.getLsbD k := by
    unfold Via6522.portBT
    rw [BitVec.getLsbD_or, BitVec.getLsbD_append, if_pos hK]
    simp
  have hZero : adbSt0 t = adbSt0 s := by
    simp only [adbSt0, hOut _ 4 (by decide), hDir _ 4 (by decide),
      hPrb, hDdrb]
  have hOne : adbSt1 t = adbSt1 s := by
    simp only [adbSt1, hOut _ 5 (by decide), hDir _ 5 (by decide),
      hPrb, hDdrb]
  rw [adbSt, adbSt, hZero, hOne]

/- It changes only by a write of these. -/
theorem adbSt_step
    (hReset : i.asic.nreset = true)
    (hB : (via1In s i).writes Via6522.rORB = false)
    (hDdr : (via1In s i).writes Via6522.rDDRB = false) :
    adbSt (step cfg s i) = adbSt s :=
  adbSt_pio (pio_kept hReset hB hDdr).1 (pio_kept hReset hB hDdr).2

end AdbPath

end Iosb
