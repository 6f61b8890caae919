import Wombat33.Clocked.Run
import Wombat33.Sdram.Controller

/-
  The memory bridge `sdram_beat32`, with its controller and
  the chips behind it.

  The bridge lives on two clocks of one source.  A cycle here
  is an edge of the faster one; the slower one has an edge in
  some of them.  The chips' clock is the faster one inverted:
  a chip samples the pins half a cycle after the controller
  has set them, before the next edge.

  Key definitions include:
    * `SysSide`, `RamSide`, `Bridge`, `In`
    * `Bridge.step`
    * `powerOn`
-/

------------------------------------------------------------
-- Registers
------------------------------------------------------------

namespace Sdram

/- The machine's side, with the beat it has captured. -/
structure SysSide where
  ack : Bool
  rdata : BitVec 32
  busy : Bool
  reqTgl : Bool
  ackSeen : Bool
  ackSync0 : Bool
  ackSync1 : Bool
  posted : Bool
  rAddr : BitVec 25
  rWdata : BitVec 32
  rBe : BitVec 4
  rWe : Bool

/- The controller's side. -/
structure RamSide where
  reqSeen : Bool
  reqSync0 : Bool
  reqSync1 : Bool
  busyR : Bool
  acc : Bool
  rd2 : Bool
  readyD : Bool
  hold : BitVec 32
  ackTgl : Bool

/- Both sides, the refresh timer, controller and chips. -/
structure Bridge where
  sys : SysSide
  ram : RamSide
  refresh : Bool
  refcnt : Nat
  ctl : Ctl
  chips : Bool → Chip

/-
  What a cycle finds at the ports; `sys` says whether the
  machine's clock has an edge, and `float` is what undriven
  data pins show.
-/
structure In where
  init : Bool := false
  sys : Bool := true
  req : Bool := false
  we : Bool := false
  addr : BitVec 25 := 0#25
  be : BitVec 4 := 0#4
  wdata : BitVec 32 := 0#32
  float : BitVec 16 := 0#16
  deriving DecidableEq

end Sdram

------------------------------------------------------------
-- Wires
------------------------------------------------------------

namespace Sdram

namespace Bridge

variable (b : Bridge) (i : In)

/- Data pins before a controller edge. -/
def dq : BitVec 16 :=
  if b.ctl.dqOe then b.ctl.dqOut
  else if (b.chips false).dqDrive then (b.chips false).dqVal
  else if (b.chips true).dqDrive then (b.chips true).dqVal
  else i.float

def rd : Bool := b.ram.busyR && !b.sys.rWe && !b.ram.rd2

def wr : Bool := b.ram.busyR && b.sys.rWe

/- The halfword address: `acc` picks the half. -/
def word : BitVec 26 := b.sys.rAddr ++ BitVec.ofBool b.ram.acc

def din : BitVec 16 :=
  if b.ram.acc then b.sys.rWdata.extractLsb' 0 16
  else b.sys.rWdata.extractLsb' 16 16

def bs : BitVec 2 :=
  if b.ram.acc then b.sys.rBe.extractLsb' 0 2
  else b.sys.rBe.extractLsb' 2 2

/- The controller's ports, as the bridge wires them. -/
def ports : Ports where
  init := i.init
  addr := b.word
  din := b.din
  wr := b.wr
  bs := b.bs
  rd := b.rd
  refresh := b.refresh
  dq := b.dq i

/- A beat is captured in this cycle. -/
def captures : Bool :=
  i.sys && i.req && !b.sys.busy && !b.sys.ack

/- The acknowledge toggle has come across in this cycle. -/
def returns : Bool :=
  i.sys && b.sys.busy && b.sys.ackSync1 != b.sys.ackSeen

/- A rising edge of `ready` is taken as a completion. -/
def completes : Bool :=
  b.ram.busyR && !b.ram.rd2 && b.ctl.ready && !b.ram.readyD

/- A request has come across in this cycle. -/
def arrives : Bool :=
  !b.ram.rd2 && !b.ram.busyR && b.ram.reqSync1 != b.ram.reqSeen

end Bridge

/- A chip's pins; the select line picks one of the two. -/
def pins (c : Ctl) (which : Bool) (float : BitVec 16) :
    Pins where
  nCS := c.chip != which
  cmd := c.command
  ba := c.ba
  a := c.a
  dq := if c.dqOe then c.dqOut else float

end Sdram

------------------------------------------------------------
-- One Cycle
------------------------------------------------------------

namespace Sdram

namespace Bridge

variable (b : Bridge) (i : In)

/- The machine's side, at an edge of its clock. -/
def sysNext : SysSide :=
  let s := b.sys
  let n := { s with
    ack := false
    ackSync0 := b.ram.ackTgl
    ackSync1 := s.ackSync0 }
  if i.req && !s.busy && !s.ack then
    { n with
      rAddr := i.addr
      rWdata := i.wdata
      rBe := i.be
      rWe := i.we
      reqTgl := !s.reqTgl
      busy := true
      posted := i.we
      ack := i.we }
  else if s.busy && s.ackSync1 != s.ackSeen then
    { n with
      ackSeen := s.ackSync1
      busy := false
      posted := false
      rdata := if s.posted then s.rdata else b.ram.hold
      ack := !s.posted }
  else n

/- The controller's side. -/
def ramNext : RamSide :=
  let r := b.ram
  let n := { r with
    reqSync0 := b.sys.reqTgl
    reqSync1 := r.reqSync0
    readyD := b.ctl.ready }
  if r.rd2 then
    { n with
      rd2 := false
      hold := r.hold.extractLsb' 16 16 ++ b.ctl.dout
      busyR := false
      ackTgl := !r.ackTgl }
  else if !r.busyR then
    (if r.reqSync1 != r.reqSeen then
      { n with
        reqSeen := r.reqSync1, acc := false, busyR := true }
    else n)
  else if b.ctl.ready && !r.readyD then
    (if !b.sys.rWe then
      { n with
        hold := b.ctl.dout ++ r.hold.extractLsb' 0 16
        rd2 := true }
    else if !r.acc then { n with acc := true }
    else { n with busyR := false, ackTgl := !r.ackTgl })
  else n

/-
  An edge of the faster clock, on both sides where both
  clocks have one, and then the chips' edge.
-/
def step : Bridge :=
  let c := b.ctl.step (b.ports i)
  { sys := if i.sys then b.sysNext i else b.sys
    ram := b.ramNext
    refresh := if b.refcnt = 771 then !b.refresh else b.refresh
    refcnt :=
      if b.refcnt = 771 then 0 else (b.refcnt + 1) % 1024
    ctl := c
    chips := fun which =>
      (b.chips which).step (pins c which i.float) }

end Bridge

/- Power-up values; what has none keeps its value. -/
def powerOn (b : Bridge) : Bridge :=
  { b with
    sys := { b.sys with
      ack := false, rdata := 0#32, busy := false
      reqTgl := false, ackSeen := false
      ackSync0 := false, ackSync1 := false, posted := false }
    ram := {
      reqSeen := false, reqSync0 := false, reqSync1 := false
      busyR := false, acc := false, rd2 := false
      readyD := false, hold := 0#32, ackTgl := false }
    refresh := false
    refcnt := 0
    ctl := { b.ctl with
      refreshCount := startupRefreshMax - sdramStartupCycles
      dataReadyDelay := 0#3
      oldCpreq := false
      state := .startup
      refreshOld := false } }

end Sdram
