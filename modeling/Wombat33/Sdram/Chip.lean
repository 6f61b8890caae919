import Mathlib.Logic.Function.Basic
import Mathlib.Tactic.SplitIfs

/-
  The SDRAM chip, as the test bench's `sdram_model` has it.

  The chip keeps the row open in each of its four banks, a
  mode register, the cells, and a pipeline of words on their
  way to the data pins.  It counts the protocol errors it
  sees.  What it measures of the timing is left out.

  Key definitions include:
    * `Cmd`, `Pins`
    * `Chip`, `Chip.step`
-/

------------------------------------------------------------
-- Pins and State
------------------------------------------------------------

namespace Sdram

/- The commands, by the lines {nRAS, nCAS, nWE}. -/
inductive Cmd where
  | loadMode
  | autoRefresh
  | precharge
  | active
  | write
  | read
  | burstStop
  | nop
  deriving DecidableEq, Repr, Inhabited

/- What a chip samples at its clock edge. -/
structure Pins where
  nCS : Bool
  cmd : Cmd
  ba : BitVec 2
  a : BitVec 13
  dq : BitVec 16

/-
  The chip.  A word at place `j` of the pipeline is driven
  `j` edges after the next one; the pipeline has eight
  places.
-/
structure Chip where
  mem : BitVec 25 → BitVec 16
  modeSet : Bool
  cl : Nat
  bl : Nat
  rowOpen : BitVec 2 → Bool
  row : BitVec 2 → BitVec 13
  pipeV : Nat → Bool
  pipeD : Nat → BitVec 16
  dqDrive : Bool
  dqVal : BitVec 16
  errors : Nat

/- The cell at a bank, row and column. -/
def key (b : BitVec 2) (r : BitVec 13) (c : BitVec 10) :
    BitVec 25 :=
  b ++ r ++ c

/-
  Column `j` of a burst: sequential, wrapping inside the
  block of `bl` columns.
-/
def burstCol (bl : Nat) (col : BitVec 10) (j : Nat) :
    BitVec 10 :=
  BitVec.ofNat 10
    (col.toNat / bl * bl + (col.toNat + j) % bl)

end Sdram

------------------------------------------------------------
-- One Edge
------------------------------------------------------------

namespace Sdram

namespace Chip

variable (c : Chip) (p : Pins)

/- An unselected chip sees no command. -/
def seen : Cmd := if p.nCS then .nop else p.cmd

/- The word that is due goes to the pins, the rest move up. -/
def shift : Chip :=
  { c with
    dqDrive := c.pipeV 0
    dqVal := c.pipeD 0
    pipeV := fun k => decide (k < 7) && c.pipeV (k + 1)
    pipeD := fun k =>
      if k < 7 then c.pipeD (k + 1) else c.pipeD k }

def openRows : Nat :=
  (List.range 4).countP (fun k => c.rowOpen (BitVec.ofNat 2 k))

def loadMode (n : Chip) : Chip :=
  { n with
    modeSet := true
    cl := (p.a.extractLsb' 4 3).toNat
    bl := 1 <<< (p.a.extractLsb' 0 3).toNat
    errors := n.errors + c.openRows }

def refresh (n : Chip) : Chip :=
  { n with errors := n.errors + c.openRows }

/- A[10] selects every bank. -/
def precharge (n : Chip) : Chip :=
  { n with
    rowOpen := fun b =>
      if p.a.getLsbD 10 || b == p.ba then false
      else n.rowOpen b }

def activate (n : Chip) : Chip :=
  { n with
    rowOpen := fun b => if b == p.ba then true else n.rowOpen b
    row := fun b => if b == p.ba then p.a else n.row b
    errors :=
      n.errors + (if c.rowOpen p.ba then 1 else 0) +
        if c.modeSet then 0 else 1 }

/- A[10] closes the row after the access. -/
def autoPrecharge (n : Chip) : Chip :=
  { n with
    rowOpen := fun b =>
      if p.a.getLsbD 10 && b == p.ba then false
      else n.rowOpen b }

/- A burst enters the pipeline at the CAS latency. -/
def burst (n : Chip) : Chip :=
  let col := p.a.extractLsb' 0 10
  let placed (k : Nat) : Bool :=
    decide (c.cl ≤ k + 1) && decide (k + 1 < c.cl + c.bl) &&
      decide (k < 8)
  { n with
    pipeV := fun k => if placed k then true else n.pipeV k
    pipeD := fun k =>
      if placed k then
        c.mem (key p.ba (c.row p.ba)
          (burstCol c.bl col (k + 1 - c.cl)))
      else n.pipeD k
    errors := n.errors + if c.dqDrive then 1 else 0 }

/- One word, the bytes masked by A[12] and A[11]. -/
def writeWord (n : Chip) : Chip :=
  let cell := key p.ba (c.row p.ba) (p.a.extractLsb' 0 10)
  { n with
    mem := Function.update c.mem cell
      ((if p.a.getLsbD 12 then (c.mem cell).extractLsb' 8 8
          else p.dq.extractLsb' 8 8) ++
        (if p.a.getLsbD 11 then (c.mem cell).extractLsb' 0 8
          else p.dq.extractLsb' 0 8))
    errors := n.errors + if c.dqDrive then 1 else 0 }

/- An access without an open row does nothing. -/
def access (act n : Chip) : Chip :=
  if c.rowOpen p.ba then autoPrecharge p act
  else { n with errors := n.errors + 1 }

/- One edge of the chip's clock. -/
def step : Chip :=
  let n := c.shift
  match seen p with
  | .loadMode => c.loadMode p n
  | .autoRefresh => c.refresh n
  | .precharge => precharge p n
  | .active => c.activate p n
  | .read => c.access p (c.burst p n) n
  | .write => c.access p (c.writeWord p n) n
  | .burstStop => n
  | .nop => n

end Chip

end Sdram
