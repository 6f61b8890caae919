import Wombat33.Clocked.Replay
import Wombat33.MacQuadra800.PhysicalMap
import Wombat33.MacQuadra800.RomRun
import Wombat33.Quadra800.Delivery
import Wombat33.Sdram.Law

/-
  The machine with its memories, as the MiSTer top level
  wires them: the board, the display's registers, the ROM
  behind the DDR3 bridge, the RAM behind the SDRAM bridge and
  the video memory.

  A step is an edge of the machine's clock.  The SDRAM's
  clock is three times as fast and has an edge with every
  edge of the machine's; so in a step it has three.

  The CPU, the walker, the I/O ASIC and the framework are
  outside, and may do whatever they like.

  Key definitions include:
    * `Emu`, `EmuIn`, `Emu.step`
    * `Emu.rom`, `Emu.vramState`
    * `Books`, `Books.note`

  Key theorems include:
    * `rom_step`
    * `board_step`
-/

------------------------------------------------------------
-- Registers and Pins
------------------------------------------------------------

namespace MacQuadra800

/- A byte-wide array for each lane, and port A's read. -/
structure VramArrays where
  vram0 : BitVec 17 → Byte
  vram1 : BitVec 17 → Byte
  vram2 : BitVec 17 → Byte
  vram3 : BitVec 17 → Byte
  vramQa : BitVec 32

structure Emu where
  boot : Boot
  board : Quadra800.Board
  dafb : Dafb.File
  ddr : Ddr
  ddr3 : Memory
  sdram : Sdram.Bridge
  vram : VramArrays

/-
  What the surroundings drive.  Of `env` the machine makes its
  own reset, the answers of the memories and those of the
  display; `float` is what the SDRAM's undriven pins show at
  its three edges.
-/
structure EmuIn extends Pins where
  ioctlWr : Bool := false
  ioctlAddr : BitVec 27 := 0#27
  ioctlDout : BitVec 16 := 0#16
  busy : Bool := false
  ready : Bool := false
  vblStart : Bool := false
  env : Quadra800.Env := {}
  float : BitVec 16 × BitVec 16 × BitVec 16 := (0#16, 0#16, 0#16)

end MacQuadra800

------------------------------------------------------------
-- Wires
------------------------------------------------------------

namespace MacQuadra800

namespace Emu

variable (m : Emu) (d : EmuIn)

def reset : Bool := m.boot.reset d.toPins

/- The beat on the memory port. -/
def beat : Beat where
  req := m.board.service.memReq
  write := m.board.service.memWrite
  addr := m.board.service.memAddr
  memsel := m.board.service.memMemsel

/- What comes in on the memory port. -/
def memAck : Bool := m.ddr.memAckR || m.sdram.sys.ack

def memRdata : BitVec 32 :=
  if m.sdram.sys.ack then m.sdram.sys.rdata
  else m.ddr.memRdataR

def env : Quadra800.Env :=
  { d.env with
    nreset := !m.reset d
    ce := true
    memAck := m.memAck
    memRdata := m.memRdata
    dafbAck := m.dafb.ack
    dafbRdata := m.dafb.rdata }

def dafbBus : Dafb.Bus where
  nreset := !m.reset d
  sel := m.board.service.dafbSel
  write := m.board.service.dafbWrite
  addr := m.board.service.dafbAddr
  wdata := m.board.service.dafbWdata

/- The part around the DDR3 bridge, and what it finds. -/
def rom : Rom where
  boot := m.boot
  service := m.board.service
  ddr := m.ddr
  sdr := Sdr.of m.sdram.sys
  memory := m.ddr3

def romIn : RomIn :=
  { d.toPins with
    ioctlWr := d.ioctlWr
    ioctlAddr := d.ioctlAddr
    ioctlDout := d.ioctlDout
    busy := d.busy
    ready := d.ready
    vramQa := m.vram.vramQa
    ackTgl := m.sdram.ram.ackTgl
    hold := m.sdram.ram.hold
    cpu := Quadra800.pins m.board (m.env d) }

/- The video memory, with the registers it shares. -/
def vramState : Vram.State where
  vram0 := m.vram.vram0
  vram1 := m.vram.vram1
  vram2 := m.vram.vram2
  vram3 := m.vram.vram3
  vramQa := m.vram.vramQa
  vramPh := m.ddr.vramPh
  memRdataR := m.ddr.memRdataR
  memAckR := m.ddr.memAckR

def vramIn : Vram.Beat where
  reset := m.reset d
  ioctlDownload := d.ioctlDownload
  memReq := m.board.service.memReq
  memMemsel := m.board.service.memMemsel
  memWrite := m.board.service.memWrite
  memAddr := m.board.service.memAddr
  memBe := m.board.service.memBe
  memWdata := m.board.service.memWdata
  memAck := m.memAck
  stride := m.dafb.stride

/- The edge of both clocks, and the two that follow. -/
def sdramEdge : Sdram.In where
  init := !d.pllLocked
  sys := true
  req := m.beat.req && m.beat.isRam
  we := m.beat.write
  addr := m.beat.addr.extractLsb' 0 25
  be := m.board.service.memBe
  wdata := m.board.service.memWdata
  float := d.float.1

end Emu

/- An edge of the SDRAM's clock alone. -/
def EmuIn.between (d : EmuIn) (float : BitVec 16) :
    Sdram.In where
  init := !d.pllLocked
  sys := false
  float := float

def Emu.sdramEdges (m : Emu) (d : EmuIn) :
    List Sdram.In :=
  [m.sdramEdge d, d.between d.float.2.1,
    d.between d.float.2.2]

end MacQuadra800

------------------------------------------------------------
-- One Edge
------------------------------------------------------------

namespace MacQuadra800

namespace Emu

variable (m : Emu) (d : EmuIn)

def step : Emu :=
  let v := m.vramState.step (m.vramIn d)
  { boot := m.boot.next d.toPins
    board := m.board.step (m.env d)
    dafb := m.dafb.step (m.dafbBus d) d.vblStart
    ddr := m.ddr.next m.beat (m.rom.reply (m.romIn d))
      (m.romIn d) (m.reset d)
    ddr3 := m.ddr3.next m.ddr (m.romIn d)
    sdram := Clocked.run Sdram.Bridge.step m.sdram
      (m.sdramEdges d)
    vram := {
      vram0 := v.vram0
      vram1 := v.vram1
      vram2 := v.vram2
      vram3 := v.vram3
      vramQa := v.vramQa } }

theorem board_step :
    (m.step d).board = m.board.step (m.env d) := rfl

/- The board's service sees the pins the DDR3 side sets. -/
theorem service_step :
    (m.step d).board.service =
      Quadra800.step m.board.service
        (m.rom.cpuPins (m.romIn d)) := rfl

/- Between two machine edges the machine's side waits. -/
theorem sys_between (b : Sdram.Bridge) (f : BitVec 16) :
    (b.step (d.between f)).sys = b.sys := rfl

theorem sys_step :
    (m.step d).sdram.sys = m.sdram.sysNext (m.sdramEdge d) := rfl

theorem rom_step :
    (m.step d).rom = m.rom.step (m.romIn d) := by
  have hSdr : Sdr.of (m.step d).sdram.sys =
      (Sdr.of m.sdram.sys).next (m.beat.req && m.beat.isRam)
        m.beat.write m.sdram.ram.ackTgl m.sdram.ram.hold := by
    rw [sys_step, Sdr.of_sysNext]
    rfl
  unfold rom
  rw [hSdr]
  rfl

end Emu

end MacQuadra800

------------------------------------------------------------
-- Books
------------------------------------------------------------

namespace MacQuadra800

open Clocked (watch run)

/-
  The ledger of the board, the log of the SDRAM and the list
  of the downloads; `base` is what the memories held when the
  machine last came out of reset.
-/
structure Books where
  ledger : Quadra800.Ledger
  log : Sdram.Log
  upload : Upload
  base : Phys

/- What the memories hold. -/
def contents (cells₀ : Cells) (m : Emu) (log : Sdram.Log)
    (upload : Upload) : Phys where
  ram := log.mem
  rom := upload.rom cells₀
  vram := m.vramState.word
  strideWords := m.dafb.strideWords

def logEdges (m : Emu) (d : EmuIn) (g : Sdram.Log) :
    Sdram.Log :=
  (run Sdram.logged (m.sdram, g) (m.sdramEdges d)).2

def Books.note
    (cells₀ : Cells)
    (g : Books)
    (m : Emu)
    (d : EmuIn) : Books :=
  let log := logEdges m d g.log
  let upload := noteUpload g.upload m.rom (m.romIn d)
  { ledger := g.ledger.note m.board (m.env d)
    log := log
    upload := upload
    base :=
      if m.reset d then contents cells₀ (m.step d) log upload
      else g.base }

/- A step, with the books. -/
abbrev emuEdge (cells₀ : Cells) :
    Emu × Books → EmuIn → Emu × Books :=
  watch Emu.step (Books.note cells₀)

end MacQuadra800
