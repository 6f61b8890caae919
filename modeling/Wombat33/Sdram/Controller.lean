import Wombat33.Sdram.Chip

/-
  The SDRAM controller `sdram`.

  A state machine with a power-up sequence, refreshes, single
  accesses and a block copy.  Every register is assigned from
  the values before the clock edge.

  Key definitions include:
    * `State`, `Ctl`, `Ports`
    * `Ctl.step`
-/

------------------------------------------------------------
-- Registers and Ports
------------------------------------------------------------

namespace Sdram

inductive State where
  | startup
  | wait
  | rw
  | waitCp
  | cp
  | idle
  | idle1
  | idle2
  | idle3
  | idle4
  | idle5
  | rfsh
  deriving DecidableEq, Repr, Inhabited

/- The controller's registers. -/
structure Ctl where
  a : BitVec 13
  ba : BitVec 2
  dqOut : BitVec 16
  dqOe : Bool
  refreshCount : BitVec 14
  command : Cmd
  chip : Bool
  dataReadyDelay : BitVec 3
  savedWr : Bool
  casAddr : BitVec 13
  savedData : BitVec 16
  cpcnt : BitVec 9
  oldCpreq : Bool
  state : State
  refreshOld : Bool
  dout : BitVec 16
  ready : Bool
  cprd : Bool
  cpbusy : Bool

/-
  The controller's ports; `addr` and `cpaddr` count words,
  their highest bit selects the chip, and `dq` is what the
  data pins show.
-/
structure Ports where
  init : Bool := false
  en : Bool := true
  sel : Bool := true
  addr : BitVec 26
  din : BitVec 16
  wr : Bool
  bs : BitVec 2
  rd : Bool
  refresh : Bool
  cpsel : Bool := false
  cpaddr : BitVec 26 := 0#26
  cpdin : BitVec 16 := 0#16
  cpreq : Bool := false
  dq : BitVec 16

def startupRefreshMax : BitVec 14 := 0x3FFF#14

def sdramStartupCycles : BitVec 14 := 12100#14

/- Burst of four, CAS latency two, single writes. -/
def mode : BitVec 13 :=
  0b000#3 ++ 1#1 ++ 0b00#2 ++ 2#3 ++ 0#1 ++ 0b010#3

/- Bank, row and column of a word address. -/
def bankOf (w : BitVec 26) : BitVec 2 := w.extractLsb' 22 2

def rowOf (w : BitVec 26) : BitVec 13 := w.extractLsb' 9 13

def colOf (w : BitVec 26) : BitVec 10 :=
  w.extractLsb' 24 1 ++ w.extractLsb' 0 9

end Sdram

------------------------------------------------------------
-- One Edge
------------------------------------------------------------

namespace Sdram

namespace Ctl

variable (s : Ctl) (p : Ports)

/- What every edge does. -/
def base : Ctl :=
  { s with
    refreshCount := s.refreshCount + 1
    dataReadyDelay := s.dataReadyDelay >>> 1
    ready := if s.dataReadyDelay.getLsbD 0 then true else s.ready
    dout := p.dq
    dqOe := false }

/- The power-up counter stands `k` before its end. -/
def before (k : Nat) : Bool :=
  s.refreshCount == startupRefreshMax - BitVec.ofNat 14 k

/- The power-up sequence, once for each chip. -/
def startup (n : Ctl) : Ctl :=
  let close := s.before 63 || s.before 31
  let refresh :=
    s.before 55 || s.before 23 || s.before 47 || s.before 15
  let load := s.before 39 || s.before 7
  let done := s.refreshCount == 0#14
  { n with
    a := if load then mode else if close then 0x400#13 else 0#13
    ba := 0#2
    chip :=
      if s.before 32 then true
      else if s.before 64 then false
      else n.chip
    command :=
      if load then .loadMode
      else if refresh then .autoRefresh
      else if close then .precharge
      else n.command
    state := if done then .idle else n.state
    ready := if done then true else n.ready
    refreshCount := if done then 0#14 else n.refreshCount
    cpbusy := false }

/- A request opens its row; a write carries its byte mask. -/
def accept (n : Ctl) : Ctl :=
  { n with
    casAddr :=
      (if p.wr then ~~~p.bs else 0#2) ++ 1#1 ++ colOf p.addr
    ba := bankOf p.addr
    a := rowOf p.addr
    chip := p.addr.getLsbD 25
    savedData := p.din
    savedWr := p.wr
    command := .active
    state := .wait
    ready := false }

/- The block copy begins. -/
def beginCopy (n : Ctl) : Ctl :=
  { n with
    casAddr := 0b00#2 ++ 0#1 ++ colOf p.cpaddr
    ba := bankOf p.cpaddr
    a := rowOf p.cpaddr
    chip := p.cpaddr.getLsbD 25
    cpbusy := true
    cpcnt := 511#9
    command := .active
    state := .waitCp
    cprd := true }

def idle (n : Ctl) : Ctl :=
  if p.refresh != s.refreshOld then
    { n with
      state := .rfsh
      command := .autoRefresh
      chip := false
      refreshOld := p.refresh }
  else if p.sel && (p.rd || p.wr) then accept p n
  else
    let n :=
      { n with
        cpbusy := false, cprd := false, oldCpreq := p.cpreq }
    if !s.oldCpreq && p.cpreq && p.cpsel then beginCopy p n
    else n

/- The column access, with auto-precharge. -/
def rw (n : Ctl) : Ctl :=
  let n := { n with state := .idle4, a := s.casAddr }
  if s.savedWr then
    { n with
      command := .write
      dqOut := s.savedData
      dqOe := true
      ready := true }
  else
    { n with
      command := .read
      dataReadyDelay := n.dataReadyDelay ||| 0b100#3 }

/- One word of the block copy. -/
def copy (n : Ctl) : Ctl :=
  let last := s.cpcnt == 0#9
  { n with
    a := 0b00#2 ++ BitVec.ofBool last ++ s.casAddr.extractLsb' 0 10
    casAddr :=
      s.casAddr.extractLsb' 9 4 ++ (s.casAddr.extractLsb' 0 9 + 1)
    cpcnt := s.cpcnt - 1
    command := .write
    dqOut := p.cpdin
    dqOe := true
    state := if last then .idle4 else n.state
    cprd := if last then false else n.cprd }

/- The state machine, while the chip is enabled. -/
def machine (n : Ctl) : Ctl :=
  match s.state with
  | .startup => s.startup n
  | .rfsh =>
      { n with
        state := .idle5, command := .autoRefresh, chip := true }
  | .idle5 => { n with state := .idle4 }
  | .idle4 => { n with state := .idle3 }
  | .idle3 => { n with state := .idle2 }
  | .idle2 => { n with state := .idle1 }
  | .idle1 => { n with state := .idle }
  | .idle => s.idle p n
  | .wait => { n with state := .rw }
  | .rw => s.rw n
  | .waitCp => { n with state := .cp }
  | .cp => s.copy p n

/- One edge of the controller's clock. -/
def step : Ctl :=
  let n := s.base p
  if p.en then
    let n := s.machine p { n with command := .nop }
    if p.init then
      { n with
        state := .startup
        refreshCount := startupRefreshMax - sdramStartupCycles }
    else n
  else
    { n with
      ready := true, cpbusy := false, cprd := false
      dout := 0#16, a := 0#13, ba := 0#2
      command := .loadMode, chip := false }

end Ctl

end Sdram
