import Mathlib.Algebra.Group.Nat.Defs
import Wombat33.Rtc.Store
import Mathlib.Data.Nat.Log

/-
  The RTC/PRAM chip `rtc3430042`.

  The host drives the enable, clock and data lines; a bit is
  taken on the clock's falling edge.  The RAM has one write
  port and one registered read port, both decoded outside the
  command state machine, so a read lands one clock late.

  Key definitions include:
    * `Chip`, `In`
    * `execNow`, `pramWe`, `pramRaddr`
    * `execCmd`, `bitEngine`, `step`
-/

------------------------------------------------------------
-- State
------------------------------------------------------------

namespace Rtc

/- `ST_NORMAL`, `ST_WRITE`, `ST_XPCMD` and `ST_XPWRITE`. -/
inductive Mode where
  | normal
  | write
  | xpcmd
  | xpwrite
  deriving DecidableEq, Inhabited

structure Chip where
  seconds : BitVec 2 → Byte
  state : Mode
  cmd : Byte
  dataByte : Byte
  bitCount : BitVec 4
  dirOut : Bool
  outBit : Bool
  wprot : Bool
  xpaddr : Byte
  ceD : Bool
  clkD : Bool
  rtcInit : Bool
  secdiv : Nat
  pram : Byte → Byte
  pramQ : Byte
  rdPend : Bool
  deriving Inhabited

structure In where
  nreset : Bool := true
  timestamp : BitVec 33 := 0#33
  ceN : Bool := true
  clkIn : Bool := false
  dataIn : Bool := false

/- `SEC_DIV`: core clocks in a second. -/
structure Config where
  secDiv : Nat

/- The chip drives the data line. -/
def dataOe (s : Chip) (i : In) : Bool := s.dirOut && !i.ceN

def dataOut (s : Chip) : Bool := s.outBit

/- One bit shifted in behind the seven before it. -/
def shiftIn (b : Byte) (d : Bool) : Byte :=
  b.extractLsb' 0 7 ++ BitVec.ofBool d

end Rtc

------------------------------------------------------------
-- The RAM's Ports
------------------------------------------------------------

namespace Rtc

variable (s : Chip) (i : In)

/- The byte completing on this clock. -/
def bnow : Byte := shiftIn s.dataByte i.dataIn

/- The one cycle in which a received byte is executed. -/
def execNow : Bool :=
  if !i.nreset then false
  else
    (i.ceN == s.ceD) && !i.ceN && s.clkD && !i.clkIn &&
      !s.dirOut && s.bitCount == 7#4

def pramRaddr : Byte :=
  if s.state == .xpcmd then
    s.cmd.extractLsb' 0 3 ++ (bnow s i).extractLsb' 2 5
  else 0#3 ++ (bnow s i).extractLsb' 2 5

def pramWe : Bool :=
  execNow s i &&
    ((s.state == .xpwrite && !s.wprot) ||
      (s.state == .write && !s.wprot &&
        (s.cmd.getLsbD 6 || s.cmd.extractLsb' 4 3 == 0b010#3)))

def pramWaddr : Byte :=
  if s.state == .xpwrite then s.xpaddr
  else 0#3 ++ s.cmd.extractLsb' 2 5

def pramPorts (n : Chip) : Chip :=
  { n with
    pram :=
      if pramWe s i then
        Function.update s.pram (pramWaddr s) (bnow s i)
      else s.pram
    pramQ := s.pram (pramRaddr s i) }

end Rtc

------------------------------------------------------------
-- The Command State Machine
------------------------------------------------------------

namespace Rtc

/- One received byte, dispatched by the state. -/
def execCmd (s : Chip) (b : Byte) (n : Chip) : Chip :=
  let n := { n with dataByte := 0x00#8, bitCount := 0#4 }
  match s.state with
  | .xpcmd =>
      let n := { n with
        xpaddr := s.cmd.extractLsb' 0 3 ++ b.extractLsb' 2 5 }
      if s.cmd.getLsbD 7 then
        { n with
          dirOut := true, rdPend := true, bitCount := 8#4
          state := .normal }
      else { n with state := .xpwrite }
  | .xpwrite => { n with state := .normal }
  | .write =>
      let r := s.cmd.extractLsb' 2 5
      let n := { n with state := .normal }
      if !s.wprot || r == 13#5 then
        if r.extractLsb' 3 2 == 0b00#2 then
          { n with
            seconds :=
              Function.update n.seconds (r.extractLsb' 0 2) b }
        else if r.extractLsb' 2 3 == 0b010#3 then n
        else if r == 13#5 then { n with wprot := b.getLsbD 7 }
        else n
      else n
  | .normal =>
      let n := { n with cmd := b }
      if b.extractLsb' 3 4 == 0b0111#4 then
        { n with state := .xpcmd }
      else if b.getLsbD 7 then
        let n := { n with dirOut := true, bitCount := 8#4 }
        let r := b.extractLsb' 2 5
        if r.extractLsb' 3 2 == 0b00#2 then
          { n with dataByte := s.seconds (b.extractLsb' 2 2) }
        else if r.extractLsb' 2 3 == 0b010#3 then
          { n with rdPend := true }
        else if r.getLsbD 4 then { n with rdPend := true }
        else { n with dataByte := 0x00#8 }
      else { n with state := .write }

end Rtc

------------------------------------------------------------
-- Clock Edge
------------------------------------------------------------

namespace Rtc

variable (cfg : Config) (s : Chip) (i : In)

/- A read launched one clock ago lands. -/
def landRead (n : Chip) : Chip :=
  if s.rdPend then
    { n with dataByte := s.pramQ, rdPend := false }
  else n

/- From 1904-01-01 to 1970-01-01. -/
def macUnixDelta : BitVec 32 := 2082844800#32

/- The four bytes of the seconds register. -/
def secondsOf (q : BitVec 32) (k : BitVec 2) : Byte :=
  q.extractLsb' (8 * k.toNat) 8

def secQ : BitVec 32 :=
  s.seconds 3#2 ++ s.seconds 2#2 ++ s.seconds 1#2 ++
    s.seconds 0#2

/- Seeded once from the host, then counting. -/
def wallClock (n : Chip) : Chip :=
  let secTick := s.secdiv == cfg.secDiv - 1
  if !s.rtcInit && i.timestamp.extractLsb' 0 32 != 0#32 then
    { n with
      seconds := secondsOf
        (i.timestamp.extractLsb' 0 32 + macUnixDelta)
      rtcInit := true }
  else
    { n with
      secdiv :=
        if secTick then 0
        else (s.secdiv + 1) % 2 ^ Nat.clog 2 cfg.secDiv
      seconds :=
        if secTick then secondsOf (secQ s + 1#32)
        else n.seconds }

/- A change of the enable line aborts; else a bit moves. -/
def bitEngine (n : Chip) : Chip :=
  if i.ceN != s.ceD then
    { n with
      dataByte := 0x00#8, bitCount := 0#4
      dirOut := false, outBit := false, state := .normal }
  else if !i.ceN && s.clkD && !i.clkIn then
    if s.dirOut then
      { n with
        outBit := s.dataByte.getLsbD (s.bitCount - 1#4).toNat
        bitCount := s.bitCount - 1#4 }
    else if s.bitCount == 7#4 then execCmd s (bnow s i) n
    else
      { n with
        dataByte := bnow s i
        bitCount := s.bitCount + 1#4 }
  else n

/- The reset branch; the RAM survives. -/
def resetRegs : Chip :=
  { s with
    state := .normal, cmd := 0x00#8, dataByte := 0x00#8
    bitCount := 0#4, dirOut := false, outBit := false
    wprot := false, xpaddr := 0x00#8
    ceD := true, clkD := false, rdPend := false
    secdiv := 0, seconds := fun _ => 0x00#8
    rtcInit := false }

def step : Chip :=
  pramPorts s i <|
    if !i.nreset then resetRegs s
    else
      bitEngine s i
        { wallClock cfg s i (landRead s s) with
          ceD := i.ceN, clkD := i.clkIn }

end Rtc
