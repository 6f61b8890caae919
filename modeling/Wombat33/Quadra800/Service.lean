import Wombat33.Bus32.Adapter

/-
  The beat service of `quadra800`: one state machine takes
  beats from the CPU's bus adapter and from the table
  walker, decodes their addresses, and hands each answer
  back to the beat's owner.

  Key definitions include:
    * `decode`
    * `Service`, `Pins`
    * `step`, `resetState`
    * `Board`, `Board.step`
-/

------------------------------------------------------------
-- Registers and Pins
------------------------------------------------------------

namespace Quadra800

/- A beat: one longword with byte enables. -/
structure Beat where
  write : Bool
  addr : BitVec 30
  be : BitVec 4
  wdata : BitVec 32
  deriving DecidableEq

/- What `decode` says of an address. -/
inductive Target
  | ram
  | rom
  | vram
  | iosb
  | berr
  | dafb
  | openBus
  deriving DecidableEq

/- The states of the service. -/
inductive Svc
  | idle
  | mem
  | iosb
  | berr
  | dafb
  | openBus
  deriving DecidableEq

def mselRam : BitVec 2 := 0#2

def mselRom : BitVec 2 := 1#2

def mselVram : BitVec 2 := 2#2

structure Arbiter where
  overlay : Bool
  svc : Svc
  svcWalker : Bool
  svcAddr : BitVec 30
  walkerArmed : Bool

structure Answers where
  walkerAck : Bool
  walkerData : BitVec 32
  walkerBerr : Bool
  bAck : Bool
  bRdata : BitVec 32
  cpuBerr : Bool

structure MemPort where
  memReq : Bool
  memWrite : Bool
  memAddr : BitVec 30
  memBe : BitVec 4
  memWdata : BitVec 32
  memMemsel : BitVec 2

structure IosbPort where
  iosbSel : Bool
  iosbWrite : Bool
  iosbAddr : BitVec 26
  iosbBe : BitVec 4
  iosbWdata : BitVec 32

structure DafbPort where
  dafbSel : Bool
  dafbWrite : Bool
  dafbAddr : BitVec 8
  dafbWdata : BitVec 32

structure Service extends
  Arbiter, Answers, MemPort, IosbPort, DafbPort

structure Pins where
  nreset : Bool := true
  ce : Bool := true
  ramCfg : BitVec 2 := 0#2
  bReq : Bool := false
  bWrite : Bool := false
  bAddr : BitVec 30 := 0#30
  bBe : BitVec 4 := 0#4
  bWdata : BitVec 32 := 0#32
  walkerReq : Bool := false
  walkerWe : Bool := false
  walkerAddr : BitVec 32 := 0#32
  walkerWdat : BitVec 32 := 0#32
  memAck : Bool := false
  memRdata : BitVec 32 := 0#32
  iosbAck : Bool := false
  iosbFault : Bool := false
  iosbRdata : BitVec 32 := 0#32
  dafbAck : Bool := false
  dafbRdata : BitVec 32 := 0#32

end Quadra800

------------------------------------------------------------
-- Address Decode
------------------------------------------------------------

namespace Quadra800

/- The installed RAM, in longwords. -/
def ramLimit (ramCfg : BitVec 2) : BitVec 28 :=
  if ramCfg == 0#2 then 0x0800000#28
  else if ramCfg == 1#2 then 0x1000000#28
  else 0x2000000#28

/- An address carries its bits 31 to 2. -/
def decode
    (overlay : Bool)
    (ramCfg : BitVec 2)
    (a : BitVec 30) : Target :=
  if a.extractLsb' 26 4 == 4#4 then .rom
  else if overlay && a.extractLsb' 20 10 == 0#10 then .rom
  else if a.extractLsb' 28 2 == 0#2 then
    (if a.extractLsb' 0 28 < ramLimit ramCfg then .ram
      else .openBus)
  else if a.extractLsb' 19 11 == 0b11111001000#11 then .vram
  else if a.extractLsb' 8 22 ==
      0b1111100110000000000000#22 then .dafb
  else if a.extractLsb' 26 4 == 5#4 then .iosb
  else .berr

/- The read of the ROM's own window ends the overlay. -/
def endsOverlay (b : Beat) : Bool :=
  b.addr.extractLsb' 26 4 == 4#4 && !b.write

end Quadra800

------------------------------------------------------------
-- Arbitration and Dispatch
------------------------------------------------------------

namespace Quadra800

variable (s : Service) (i : Pins)

def walkerPend : Bool := i.walkerReq && s.walkerArmed

/- A registered answer is not a new request. -/
def cpuPend : Bool := i.bReq && !s.bAck && !s.cpuBerr

def walkerBeat : Beat where
  write := i.walkerWe
  addr := i.walkerAddr.extractLsb' 2 30
  be := 0b1111#4
  wdata := i.walkerWdat

def cpuBeat : Beat where
  write := i.bWrite
  addr := i.bAddr
  be := i.bBe
  wdata := i.bWdata

/- The walker goes first. -/
def nextBeat : Beat :=
  if walkerPend s i then walkerBeat i else cpuBeat i

/- Every answer lasts one cycle; a dropped request re-arms. -/
def settle : Service :=
  { s with
    walkerAck := false
    walkerBerr := false
    bAck := false
    cpuBerr := false
    walkerArmed := if !i.walkerReq then true else s.walkerArmed }

def startMem (b : Beat) (memsel : BitVec 2) : Service :=
  { s with
    memReq := true
    memWrite := b.write
    memAddr := b.addr
    memBe := b.be
    memWdata := b.wdata
    memMemsel := memsel
    svc := .mem }

def startIosb (b : Beat) : Service :=
  { s with
    iosbSel := true
    iosbWrite := b.write
    iosbAddr := b.addr.extractLsb' 0 26
    iosbBe := b.be
    iosbWdata := b.wdata
    svc := .iosb }

def startDafb (b : Beat) : Service :=
  { s with
    dafbSel := true
    dafbWrite := b.write
    dafbAddr := b.addr.extractLsb' 0 8
    dafbWdata := b.wdata
    svc := .dafb }

def dispatch (target : Target) (b : Beat) : Service :=
  match target with
  | .ram => startMem s b mselRam
  | .rom => startMem s b mselRom
  | .vram => startMem s b mselVram
  | .iosb => startIosb s b
  | .dafb => startDafb s b
  | .openBus => { s with svc := .openBus }
  | .berr => { s with svc := .berr }

/- Take a beat: note its owner, then dispatch it. -/
def take (walker : Bool) (ramCfg : BitVec 2) (b : Beat) :
    Service :=
  dispatch
    { s with
      svcWalker := walker
      walkerArmed := if walker then false else s.walkerArmed
      svcAddr := b.addr
      overlay := if endsOverlay b then false else s.overlay }
    (decode s.overlay ramCfg b.addr) b

/- Answer the beat's owner. -/
def answer (data : BitVec 32) : Service :=
  if s.svcWalker then
    { s with walkerAck := true, walkerData := data
             svc := .idle }
  else { s with bAck := true, bRdata := data, svc := .idle }

def fault : Service :=
  if s.svcWalker then
    { s with walkerBerr := true, svc := .idle }
  else { s with cpuBerr := true, svc := .idle }

end Quadra800

------------------------------------------------------------
-- Clock Edge
------------------------------------------------------------

namespace Quadra800

variable (s : Service) (i : Pins)

def resetState : Service where
  overlay := true
  svc := .idle
  svcWalker := false
  svcAddr := 0#30
  walkerArmed := true
  walkerAck := false
  walkerData := 0#32
  walkerBerr := false
  bAck := false
  bRdata := 0#32
  cpuBerr := false
  memReq := false
  memWrite := false
  memAddr := 0#30
  memBe := 0#4
  memWdata := 0#32
  memMemsel := mselRam
  iosbSel := false
  iosbWrite := false
  iosbAddr := 0#26
  iosbBe := 0#4
  iosbWdata := 0#32
  dafbSel := false
  dafbWrite := false
  dafbAddr := 0#8
  dafbWdata := 0#32

def idle : Service :=
  if walkerPend s i || cpuPend s i then
    take (settle s i) (walkerPend s i) i.ramCfg (nextBeat s i)
  else settle s i

def mem : Service :=
  if i.memAck then
    { answer (settle s i) i.memRdata with memReq := false }
  else settle s i

/- A pseudo-DMA beat the IOSB gave up on is a bus error. -/
def iosb : Service :=
  if i.iosbAck then
    (if i.iosbFault then
      { fault (settle s i) with iosbSel := false }
    else
      { answer (settle s i) i.iosbRdata with iosbSel := false })
  else settle s i

def dafb : Service :=
  if i.dafbAck then
    { answer (settle s i) i.dafbRdata with dafbSel := false }
  else settle s i

def clock : Service :=
  match s.svc with
  | .idle => idle s i
  | .mem => mem s i
  | .iosb => iosb s i
  | .dafb => dafb s i
  | .berr => fault (settle s i)
  | .openBus => answer (settle s i) 0#32

def step : Service :=
  if !i.nreset then resetState
  else if i.ce then clock s i
  else s

end Quadra800

------------------------------------------------------------
-- The Board
------------------------------------------------------------

namespace Quadra800

/- The service with the CPU's bus adapter. -/
structure Board where
  bus : Bus32.Adapter
  service : Service

/- What the CPU, the walker and the targets drive. -/
structure Env where
  nreset : Bool := true
  ce : Bool := true
  ramCfg : BitVec 2 := 0#2
  busReq : Bool := false
  busWrite : Bool := false
  busSize : BitVec 2 := 0#2
  busAddr : BitVec 32 := 0#32
  busWdata : BitVec 32 := 0#32
  walkerReq : Bool := false
  walkerWe : Bool := false
  walkerAddr : BitVec 32 := 0#32
  walkerWdat : BitVec 32 := 0#32
  memAck : Bool := false
  memRdata : BitVec 32 := 0#32
  iosbAck : Bool := false
  iosbFault : Bool := false
  iosbRdata : BitVec 32 := 0#32
  dafbAck : Bool := false
  dafbRdata : BitVec 32 := 0#32

variable (m : Board) (e : Env)

def busIn : Bus32.In where
  nreset := e.nreset
  ce := e.ce
  tReq := e.busReq
  tWrite := e.busWrite
  tSize := e.busSize
  tAddr := e.busAddr
  tWdata := e.busWdata
  tBerr := m.service.cpuBerr
  bAck := m.service.bAck
  bRdata := m.service.bRdata

def pins : Pins where
  nreset := e.nreset
  ce := e.ce
  ramCfg := e.ramCfg
  bReq := m.bus.bReq
  bWrite := m.bus.bWrite
  bAddr := m.bus.bAddr
  bBe := m.bus.bBe
  bWdata := m.bus.bWdata
  walkerReq := e.walkerReq
  walkerWe := e.walkerWe
  walkerAddr := e.walkerAddr
  walkerWdat := e.walkerWdat
  memAck := e.memAck
  memRdata := e.memRdata
  iosbAck := e.iosbAck
  iosbFault := e.iosbFault
  iosbRdata := e.iosbRdata
  dafbAck := e.dafbAck
  dafbRdata := e.dafbRdata

def Board.step : Board where
  bus := Bus32.step m.bus (busIn m e)
  service := Quadra800.step m.service (pins m e)

def Board.reset : Board where
  bus := Bus32.resetState
  service := resetState

end Quadra800
