import Wombat33.MacQuadra800.Boot
import Wombat33.Quadra800.Service
import Wombat33.Sdram.Bridge

/-
  The DDR3 bridge of the MiSTer top level: the boot.rom
  upload and the machine's ROM reads share one busy-gated
  port; VRAM beats are answered by the same block.

  The machine's side is the beat service of `quadra800`.
  Behind the port stands a DDR3 memory of 64-bit words with
  byte enables, which takes a request in a cycle that is not
  busy and returns the word read in that cycle or later.  The
  acks of the SDRAM bridge share the machine's port; of that
  bridge the side on the machine's clock is here.

  Key definitions include:
    * `Ddr`, `Ddr.next`
    * `Sdr`, `Sdr.next`
    * `Memory`, `Memory.next`
    * `Rom`, `Rom.step`

  Key theorems include:
    * `Sdr.of_sysNext`
-/

------------------------------------------------------------
-- Registers and Pins
------------------------------------------------------------

namespace MacQuadra800

abbrev Byte := BitVec 8

structure Ddr where
  memRdataR : BitVec 32
  memAckR : Bool
  vramPh : Bool
  ddramBurstcnt : BitVec 8
  ddramAddr : BitVec 29
  ddramDin : BitVec 64
  ddramBe : BitVec 8
  ddramWe : Bool
  ddramRd : Bool
  ioctlPend : Bool
  ioctlWait : Bool
  ioctlA : BitVec 27
  ioctlD : BitVec 16
  ddrWaitData : Bool
  ddrRdHi : Bool
  deriving DecidableEq, Inhabited

/-
  What the framework, the CPU's side and the other memories
  drive in one cycle.  `ready` says that the DDR3 memory
  returns a word it owes; `ackTgl` and `hold` are what the
  SDRAM bridge finds on its other clock.
-/
structure RomIn extends Pins where
  ioctlWr : Bool := false
  ioctlAddr : BitVec 27 := 0#27
  ioctlDout : BitVec 16 := 0#16
  busy : Bool := false
  ready : Bool := false
  vramQa : BitVec 32 := 0#32
  ackTgl : Bool := false
  hold : BitVec 32 := 0#32
  cpu : Quadra800.Pins := {}

def ddrRomBase : BitVec 29 := 0x07000000#29

/- A beat as the memory port presents it. -/
structure Beat where
  req : Bool
  write : Bool
  addr : BitVec 30
  memsel : BitVec 2

def Beat.isRam (b : Beat) : Bool := b.memsel == 0#2

def Beat.isRom (b : Beat) : Bool := b.memsel == 1#2

def Beat.isVram (b : Beat) : Bool := !b.isRam && !b.isRom

/- What the two memories answer in this cycle. -/
structure Reply where
  busy : Bool
  doutReady : Bool
  dout : BitVec 64
  sdrAck : Bool
  sdrRdata : BitVec 32

end MacQuadra800

------------------------------------------------------------
-- The Bridge
------------------------------------------------------------

namespace MacQuadra800

namespace Ddr

variable (s : Ddr) (b : Beat) (r : Reply) (i : RomIn)
variable (reset : Bool)

/- The ack the machine sees: this block's or the SDRAM's. -/
def memAck : Bool := s.memAckR || r.sdrAck

def memRdata : BitVec 32 :=
  if r.sdrAck then r.sdrRdata else s.memRdataR

/- A halfword of boot.rom arrives. -/
def capture : Bool :=
  i.ioctlDownload && i.romIndex && i.ioctlWr

/- The port takes no request before the last one is done. -/
def portFree : Bool :=
  !s.ddrWaitData && !r.busy && !s.ddramWe && !s.ddramRd

/- The captured halfword goes out. -/
def issue : Bool := s.portFree r && s.ioctlPend

/- A beat nobody has answered yet. -/
def waiting : Bool := b.req && !s.memAck r

def vramBeat : Bool := s.waiting b r && b.isVram

def vramDeliver : Bool := s.vramBeat b r && s.vramPh

def romBeat : Bool :=
  s.portFree r && !s.ioctlPend && s.waiting b r && b.isRom

/- ROM writes are discarded. -/
def romWrite : Bool := s.romBeat b r && b.write

def romRead : Bool := s.romBeat b r && !b.write

def dataIn : Bool := s.ddrWaitData && r.doutReady

/- The longword of the returned word. -/
def dataHalf : BitVec 32 :=
  if s.ddrRdHi then r.dout.extractLsb' 32 32
  else r.dout.extractLsb' 0 32

/- File bytes are big-endian in the 32-bit lane. -/
def swapHalf (d : BitVec 16) : BitVec 16 :=
  d.extractLsb' 0 8 ++ d.extractLsb' 8 8

def romWord (a : BitVec 17) : BitVec 29 :=
  ddrRomBase ||| a.setWidth 29

/- Where a halfword of the file goes, and how. -/
def haddr (a : BitVec 27) : BitVec 29 :=
  romWord (a.extractLsb' 3 17)

def hdin (d : BitVec 16) : BitVec 64 :=
  swapHalf d ++ swapHalf d ++ swapHalf d ++ swapHalf d

def hbe (a : BitVec 27) : BitVec 8 :=
  if a.getLsbD 1 then
    (if a.getLsbD 2 then 0x30#8 else 0x03#8)
  else if a.getLsbD 2 then 0xC0#8
  else 0x0C#8

def next : Ddr where
  memAckR :=
    if s.romWrite b r then true
    else if s.dataIn r then true
    else s.vramDeliver b r
  memRdataR :=
    if s.dataIn r then s.dataHalf r
    else if s.vramDeliver b r then i.vramQa
    else s.memRdataR
  vramPh :=
    if reset && !i.ioctlDownload then false
    else if s.vramBeat b r then !s.vramPh
    else s.vramPh
  ddramBurstcnt :=
    if s.issue r || s.romRead b r then 1#8
    else s.ddramBurstcnt
  ddramAddr :=
    if s.issue r then haddr s.ioctlA
    else if s.romRead b r then
      romWord (b.addr.extractLsb' 1 17)
    else s.ddramAddr
  ddramDin := if s.issue r then hdin s.ioctlD else s.ddramDin
  ddramBe := if s.issue r then hbe s.ioctlA else s.ddramBe
  ddramWe :=
    if s.issue r then true
    else if !r.busy then false
    else s.ddramWe
  ddramRd :=
    if s.romRead b r then true
    else if !r.busy then false
    else s.ddramRd
  ioctlPend :=
    if i.resetPin then false
    else if s.issue r then false
    else if capture i then true
    else s.ioctlPend
  ioctlWait :=
    if i.resetPin then false
    else if s.issue r then false
    else if capture i then true
    else s.ioctlWait
  ioctlA := if capture i then i.ioctlAddr else s.ioctlA
  ioctlD := if capture i then i.ioctlDout else s.ioctlD
  ddrWaitData :=
    if reset && !i.ioctlDownload then false
    else if s.romRead b r then true
    else if s.dataIn r then false
    else s.ddrWaitData
  ddrRdHi :=
    if s.romRead b r then b.addr.getLsbD 0 else s.ddrRdHi

end Ddr

end MacQuadra800

------------------------------------------------------------
-- The SDRAM Bridge, on the Machine's Clock
------------------------------------------------------------

namespace MacQuadra800

/- The handshake registers of `sdram_beat32`. -/
structure Sdr where
  ack : Bool
  rdata : BitVec 32
  busy : Bool
  ackSeen : Bool
  ackSync0 : Bool
  ackSync1 : Bool
  posted : Bool
  deriving DecidableEq, Inhabited

namespace Sdr

variable (s : Sdr) (req we ackTgl : Bool) (hold : BitVec 32)

def captures : Bool := req && !s.busy && !s.ack

/- The beat in flight is done on the other clock. -/
def returns : Bool := s.busy && s.ackSync1 != s.ackSeen

/- A write is acked as it is captured. -/
def next : Sdr where
  ack :=
    if s.captures req then we
    else s.returns && !s.posted
  rdata :=
    if s.captures req then s.rdata
    else if s.returns && !s.posted then hold
    else s.rdata
  busy :=
    if s.captures req then true
    else if s.returns then false
    else s.busy
  ackSeen :=
    if s.captures req then s.ackSeen
    else if s.returns then s.ackSync1
    else s.ackSeen
  ackSync0 := ackTgl
  ackSync1 := s.ackSync0
  posted :=
    if s.captures req then we
    else if s.returns then false
    else s.posted

def of (s : Sdram.SysSide) : Sdr where
  ack := s.ack
  rdata := s.rdata
  busy := s.busy
  ackSeen := s.ackSeen
  ackSync0 := s.ackSync0
  ackSync1 := s.ackSync1
  posted := s.posted

/- So the whole bridge does at an edge of this clock. -/
theorem of_sysNext (b : Sdram.Bridge) (i : Sdram.In) :
    of (b.sysNext i) =
      (of b.sys).next i.req i.we b.ram.ackTgl b.ram.hold := by
  unfold Sdram.Bridge.sysNext next captures returns of
  cases hCapture : (i.req && !b.sys.busy && !b.sys.ack) with
  | true => simp [hCapture]
  | false =>
      cases hReturn :
          (b.sys.busy && b.sys.ackSync1 != b.sys.ackSeen) with
      | true =>
          cases hPosted : b.sys.posted <;>
            simp [hCapture, hReturn, hPosted]
      | false => simp [hCapture, hReturn]

end Sdr

end MacQuadra800

------------------------------------------------------------
-- The DDR3 Memory
------------------------------------------------------------

namespace MacQuadra800

/- Eight byte lanes a word, lane 0 rightmost. -/
abbrev Cells := BitVec 29 → Nat → Byte

/- A write request as the memory takes it. -/
structure BusWrite where
  addr : BitVec 29
  din : BitVec 64
  be : BitVec 8
  deriving DecidableEq

/- The word at `a` with the enabled lanes written. -/
def Cells.put (m : Cells) (w : BusWrite) : Cells :=
  fun a k =>
    if a = w.addr ∧ w.be.getLsbD k then
      w.din.extractLsb' (8 * k) 8
    else m a k

def Cells.half (m : Cells) (a : BitVec 29) (k : Nat) :
    BitVec 32 :=
  m a (k + 3) ++ m a (k + 2) ++ m a (k + 1) ++ m a k

def Cells.word (m : Cells) (a : BitVec 29) : BitVec 64 :=
  m.half a 4 ++ m.half a 0

/- The cells, and the word read but not yet returned. -/
structure Memory where
  cells : Cells
  owed : Option (BitVec 64)

namespace Memory

variable (m : Memory) (s : Ddr) (i : RomIn)

def takesWrite : Bool := s.ddramWe && !i.busy

def takesRead : Bool := s.ddramRd && !i.busy

/- The word read: earlier, or in this very cycle. -/
def due : Option (BitVec 64) :=
  match m.owed with
  | some d => some d
  | none =>
      if takesRead s i then some (m.cells.word s.ddramAddr)
      else none

def doutReady : Bool := i.ready && (m.due s i).isSome

def dout : BitVec 64 := (m.due s i).getD 0#64

def next : Memory where
  cells :=
    if takesWrite s i then
      m.cells.put ⟨s.ddramAddr, s.ddramDin, s.ddramBe⟩
    else m.cells
  owed := if i.ready then none else m.due s i

end Memory

end MacQuadra800

------------------------------------------------------------
-- The Machine
------------------------------------------------------------

namespace MacQuadra800

structure Rom where
  boot : Boot
  service : Quadra800.Service
  ddr : Ddr
  sdr : Sdr
  memory : Memory

namespace Rom

variable (s : Rom) (i : RomIn)

def reset : Bool := s.boot.reset i.toPins

def beat : Beat where
  req := s.service.memReq
  write := s.service.memWrite
  addr := s.service.memAddr
  memsel := s.service.memMemsel

def reply : Reply where
  busy := i.busy
  doutReady := s.memory.doutReady s.ddr i
  dout := s.memory.dout s.ddr i
  sdrAck := s.sdr.ack
  sdrRdata := s.sdr.rdata

def cpuPins : Quadra800.Pins :=
  { i.cpu with
    nreset := !s.reset i
    ce := true
    memAck := s.ddr.memAck (s.reply i)
    memRdata := s.ddr.memRdata (s.reply i) }

def step : Rom where
  boot := s.boot.next i.toPins
  service := Quadra800.step s.service (s.cpuPins i)
  ddr := s.ddr.next s.beat (s.reply i) i (s.reset i)
  sdr := s.sdr.next (s.beat.req && s.beat.isRam) s.beat.write
    i.ackTgl i.hold
  memory := s.memory.next s.ddr i

end Rom

end MacQuadra800
