import Mathlib.Algebra.Group.Nat.Defs
import Wombat33.Lanes.Bytes

/-
  The sound chip `easc`: two sample FIFOs in FIFO mode, four
  voices in wavetable mode, and the sample RAM they share.

  The registers only the host reads back (volume, FIFO mode,
  clock) and the read-back path itself are left out.

  Key definitions include:
    * `Chip`, `In`
    * `pushDo`, `pop`, `fifoByte`
    * `bankPorts`, `pointers`, `registers`, `step`
-/

------------------------------------------------------------
-- State
------------------------------------------------------------

namespace Easc

abbrev Byte := BitVec 8

/- FIFO A feeds the left channel, FIFO B the right. -/
inductive Side where
  | a
  | b
  deriving DecidableEq, Inhabited

structure Fifo where
  wrptr : BitVec 10
  rdptr : BitVec 10
  cap : Nat
  deriving Inhabited

structure Chip where
  mode : Byte
  control : Byte
  phase : BitVec 2 → BitVec 24
  incr : BitVec 2 → BitVec 24
  fifoA : Fifo
  fifoB : Fifo
  pushData : BitVec 32
  pushBe : BitVec 4
  pushToB : Bool
  bank : BitVec 2 → BitVec 7 → BitVec 32
  bankQb : BitVec 2 → BitVec 32
  laneR : BitVec 2 → BitVec 2
  sdiv : Nat
  outL : BitVec 16
  outR : BitVec 16
  irqR : Bool
  deriving Inhabited

/- The registers of one FIFO. -/
def Chip.fifo (s : Chip) : Side → Fifo
  | .a => s.fifoA
  | .b => s.fifoB

/- One longword beat; `a` is the address above the lanes. -/
structure In where
  nreset : Bool := true
  ce : Bool := true
  sel : Bool := false
  write : Bool := false
  a : BitVec 10 := 0#10
  be : BitVec 4 := 0#4
  wdata : BitVec 32 := 0#32
  deriving DecidableEq

/- `SAMPLE_DIV`: clocks from one sample to the next. -/
structure Config where
  sampleDiv : Nat
  slower : 1 < sampleDiv

end Easc

------------------------------------------------------------
-- Decoding
------------------------------------------------------------

namespace Easc

variable (cfg : Config) (s : Chip) (i : In)

def fifoMode : Bool := s.mode == 1#8

def wtMode : Bool := s.mode == 2#8

/- Bit 11 of the byte address: registers, not samples. -/
def a11 : Bool := i.a.getLsbD 9

def cpuWr : Bool :=
  i.ce && i.sel && i.write && !a11 i && !fifoMode s

/- A sample write in FIFO mode: up to four lanes to push. -/
def sampleWr : Bool :=
  i.ce && i.sel && i.write && !a11 i && fifoMode s

def statRead : Bool :=
  i.ce && i.sel && !i.write && a11 i &&
    (i.a ++ 0#2) &&& 0x7FC#12 == 0x004#12

def regWr : Bool := i.ce && i.sel && i.write && a11 i

def modeWr : Bool :=
  regWr i && (i.a ++ 0#2) &&& 0x7FC#12 == 0x000#12 &&
    i.be.getLsbD 2

def modeChange : Bool :=
  modeWr i && (Lanes.byte 2 i.wdata &&& 0x03#8) != s.mode

/- A mode change, or `fifomode` bit 7, resets both FIFOs. -/
def fifoClear : Bool :=
  (regWr i && (i.a ++ 0#2) &&& 0x7FC#12 == 0x000#12 &&
    i.be.getLsbD 0 && i.wdata.getLsbD 7) || modeChange s i

def tick : Bool := s.sdiv == cfg.sampleDiv - 1

end Easc

------------------------------------------------------------
-- Lane Drain and Sample RAM
------------------------------------------------------------

namespace Easc

variable (cfg : Config) (s : Chip) (i : In)

/- Lane 0 is the byte at the lowest address. -/
def laneByte (q : BitVec 32) (lane : BitVec 2) : Byte :=
  Lanes.byte (3 - lane.toNat) q

def pushBusy : Bool := s.pushBe != 0#4

def pushLane : BitVec 2 :=
  if s.pushBe.getLsbD 3 then 0#2
  else if s.pushBe.getLsbD 2 then 1#2
  else if s.pushBe.getLsbD 1 then 2#2
  else 3#2

def pushByte : Byte := laneByte s.pushData (pushLane s)

def pushSide : Side := if s.pushToB then .b else .a

def fifoFull : Bool :=
  decide (1024 ≤ (s.fifo (pushSide s)).cap)

def pushDo : Bool := pushBusy s && !fifoFull s

def pushPtr : BitVec 10 := (s.fifo (pushSide s)).wrptr

/- Port A is the CPU's, except while a push drains. -/
def paAddr : BitVec 7 :=
  if pushDo s then (pushPtr s).extractLsb' 2 7
  else i.a.extractLsb' 0 7

def paBe : BitVec 4 :=
  if pushDo s then 0b1000#4 >>> ((pushPtr s).extractLsb' 0 2)
  else i.be

def paData : BitVec 32 :=
  if pushDo s then
    pushByte s ++ pushByte s ++ pushByte s ++ pushByte s
  else i.wdata

def paBank : BitVec 2 :=
  if pushDo s then
    BitVec.ofBool s.pushToB ++ (pushPtr s).extractLsb' 9 1
  else i.a.extractLsb' 7 2

def bankWe (gi : BitVec 2) : Bool :=
  (pushDo s && paBank s i == gi) ||
    (cpuWr s i && i.a.extractLsb' 7 2 == gi)

/- Port B: the FIFO's read pointer, or the voice's phase. -/
def pbAddr (gi : BitVec 2) : BitVec 7 :=
  if fifoMode s then
    (s.fifo (if gi.getLsbD 1 then .b else .a)).rdptr.extractLsb'
      2 7
  else (s.phase gi).extractLsb' 17 7

/- The enabled lanes of `d` over a stored longword. -/
def mergeLanes (be : BitVec 4) (d old : BitVec 32) :
    BitVec 32 :=
  (if be.getLsbD 3 then Lanes.byte 3 d else Lanes.byte 3 old) ++
    (if be.getLsbD 2 then Lanes.byte 2 d
      else Lanes.byte 2 old) ++
    (if be.getLsbD 1 then Lanes.byte 1 d
      else Lanes.byte 1 old) ++
    (if be.getLsbD 0 then Lanes.byte 0 d else Lanes.byte 0 old)

/-
  The four banks: a write with byte enables and a registered
  read, which shows the word as it was before the write.
-/
def bankPorts (n : Chip) : Chip :=
  { n with
    bank := fun gi =>
      if bankWe s i gi then
        Function.update (s.bank gi) (paAddr s i)
          (mergeLanes (paBe s i) (paData s i)
            (s.bank gi (paAddr s i)))
      else s.bank gi
    bankQb := fun gi => s.bank gi (pbAddr s gi)
    laneR := fun gi => (s.phase gi).extractLsb' 15 2 }

/- The two banks of a FIFO, by bit 9 of its read pointer. -/
def fifoBank (f : Side) : BitVec 2 :=
  BitVec.ofBool (f == .b) ++ (s.fifo f).rdptr.extractLsb' 9 1

/- `fifo_a_byte` and `fifo_b_byte`. -/
def fifoByte (f : Side) : Byte :=
  laneByte (s.bankQb (fifoBank s f))
    ((s.fifo f).rdptr.extractLsb' 0 2)

end Easc

------------------------------------------------------------
-- Pops and Pushes
------------------------------------------------------------

namespace Easc

variable (cfg : Config) (s : Chip) (i : In)

def pop (f : Side) : Bool :=
  tick cfg s && fifoMode s && (s.fifo f).cap != 0

def psh (f : Side) : Bool := pushDo s && pushSide s == f

def halfCross (f : Side) : Bool :=
  pop cfg s f && (s.fifo f).cap == 511

def fill (f : Side) : Bool :=
  psh s f && decide (1022 ≤ (s.fifo f).cap)

/- One FIFO's pointers; a push and a pop may coincide. -/
def fifoNext (f : Side) : Fifo where
  rdptr :=
    if pop cfg s f then (s.fifo f).rdptr + 1#10
    else (s.fifo f).rdptr
  wrptr :=
    if psh s f then (s.fifo f).wrptr + 1#10
    else (s.fifo f).wrptr
  cap :=
    match psh s f, pop cfg s f with
    | true, false => (s.fifo f).cap + 1
    | false, true => (s.fifo f).cap - 1
    | _, _ => (s.fifo f).cap

/- A cleared FIFO. -/
def emptyFifo : Fifo := ⟨0#10, 0#10, 0⟩

/- The pointers, and the latch that is drained lane by lane. -/
def pointers (n : Chip) : Chip :=
  if fifoClear s i then
    { n with
      fifoA := emptyFifo, fifoB := emptyFifo, pushBe := 0#4 }
  else
    { n with
      fifoA := fifoNext cfg s .a, fifoB := fifoNext cfg s .b
      pushData := if sampleWr s i then i.wdata else n.pushData
      pushToB :=
        if sampleWr s i then i.a.getLsbD 8 else n.pushToB
      pushBe :=
        if sampleWr s i then i.be
        else if pushDo s then
          s.pushBe &&& ~~~(0b1000#4 >>> (pushLane s))
        else if pushBusy s && fifoFull s then 0#4
        else n.pushBe }

end Easc

------------------------------------------------------------
-- Output and Registers
------------------------------------------------------------

namespace Easc

variable (cfg : Config) (s : Chip) (i : In)

/- A FIFO byte is offset binary, at full amplitude. -/
def sampleOf (b : Byte) : BitVec 16 :=
  BitVec.ofBool (!b.getLsbD 7) ++ b.extractLsb' 0 7 ++ 0x00#8

/- The sum of the four voices about its centre. -/
def acc : BitVec 11 :=
  let voice (k : BitVec 2) : BitVec 11 :=
    (laneByte (s.bankQb k) (s.laneR k)).setWidth 11
  voice 0#2 + voice 1#2 + voice 2#2 + voice 3#2 - 512#11

def output (n : Chip) : Chip :=
  if tick cfg s then
    if wtMode s then
      { n with
        phase := fun k => s.phase k + s.incr k
        outL := (acc s).signExtend 16 <<< 6
        outR := (acc s).signExtend 16 <<< 6 }
    else if fifoMode s then
      { n with
        outL :=
          if (s.fifo .a).cap != 0 then sampleOf (fifoByte s .a)
          else n.outL
        outR :=
          if s.control.getLsbD 1 && (s.fifo .b).cap != 0 then
            sampleOf (fifoByte s .b)
          else if (s.fifo .a).cap != 0 && !s.control.getLsbD 1
          then sampleOf (fifoByte s .a)
          else n.outR }
    else n
  else n

/- The interrupt is raised by edges and cleared by a read. -/
def interrupt (n : Chip) : Chip :=
  { n with
    irqR :=
      if statRead i then false
      else if halfCross cfg s .a || halfCross cfg s .b ||
          fill s .a || fill s .b then true
      else n.irqR }

/- Byte `k` of a voice's 24-bit slot; byte 0 is not there. -/
def setVoiceByte (k : BitVec 2) (d : Byte) (v : BitVec 24) :
    BitVec 24 :=
  if k == 1#2 then d ++ v.extractLsb' 0 16
  else if k == 2#2 then
    v.extractLsb' 16 8 ++ d ++ v.extractLsb' 0 8
  else if k == 3#2 then v.extractLsb' 8 16 ++ d
  else v

/- One byte of a register write; only mode bits 0 and 1 are. -/
def wrByte (ba : BitVec 12) (d : Byte) (n : Chip) : Chip :=
  let r := ba.extractLsb' 0 11
  if r == 0x001#11 then
    { n with mode := (d.extractLsb' 0 2).setWidth 8 }
  else if r == 0x002#11 then { n with control := d }
  else if 0x010#11 ≤ r ∧ r < 0x030#11 then
    let ch := ba.extractLsb' 3 2
    let k := ba.extractLsb' 0 2
    if ba.getLsbD 2 then
      { n with
        incr := Function.update n.incr ch
          (setVoiceByte k d (n.incr ch)) }
    else
      { n with
        phase := Function.update n.phase ch
          (setVoiceByte k d (n.phase ch)) }
  else n

def wrLane (lane : BitVec 2) (n : Chip) : Chip :=
  if i.be.getLsbD (3 - lane.toNat) then
    wrByte (i.a ++ lane) (laneByte i.wdata lane) n
  else n

def registers (n : Chip) : Chip :=
  if regWr i then
    wrLane i 3#2 <| wrLane i 2#2 <| wrLane i 1#2 <|
      wrLane i 0#2 n
  else n

end Easc

------------------------------------------------------------
-- Clock Edge
------------------------------------------------------------

namespace Easc

variable (cfg : Config) (s : Chip) (i : In)

/- The reset branch; the RAM survives. -/
def resetRegs : Chip :=
  { s with
    mode := 0x00#8, control := 0x00#8
    phase := fun _ => 0#24, incr := fun _ => 0#24
    sdiv := 0, outL := 0#16, outR := 0#16
    fifoA := emptyFifo, fifoB := emptyFifo
    pushBe := 0#4, pushData := 0#32, pushToB := false
    irqR := false }

/- The divider is as wide as its last value needs. -/
def divider (n : Chip) : Chip :=
  { n with
    sdiv :=
      if tick cfg s then 0
      else (s.sdiv + 1) % 2 ^ (Nat.log2 (cfg.sampleDiv - 1) + 1) }

def step : Chip :=
  bankPorts s i <|
    if !i.nreset then resetRegs s
    else
      registers i <| interrupt cfg s i <| pointers cfg s i <|
        output cfg s <| divider cfg s s

end Easc
