import Wombat33.Clocked.Run
import Wombat33.Lanes.Bytes

/-
  The bus adapter `wombat_bus32`: a transaction of a byte, a
  word or a longword at any address becomes one or two
  longword beats with byte enables.

  Key definitions include:
    * `Adapter`, `In`
    * `lanes`
    * `step`, `resetState`
-/

------------------------------------------------------------
-- Registers and Pins
------------------------------------------------------------

namespace Bus32

structure Adapter where
  active : Bool
  second : Bool
  rOff : BitVec 2
  rBytes : Nat
  rEnd : Nat
  rWsh : BitVec 32
  rStream : BitVec 32
  tAck : Bool
  tRdata : BitVec 32
  bReq : Bool
  bWrite : Bool
  bAddr : BitVec 30
  bBe : BitVec 4
  bWdata : BitVec 32
  deriving DecidableEq

structure In where
  nreset : Bool := true
  ce : Bool := true
  tReq : Bool := false
  tWrite : Bool := false
  tSize : BitVec 2 := 0#2
  tAddr : BitVec 32 := 0#32
  tWdata : BitVec 32 := 0#32
  tBerr : Bool := false
  bAck : Bool := false
  bRdata : BitVec 32 := 0#32
  deriving DecidableEq

end Bus32

------------------------------------------------------------
-- Lanes and Alignment
------------------------------------------------------------

namespace Bus32

/- Operand bytes of a transaction. -/
def fBytes (size : BitVec 2) : Nat :=
  if size == 0#2 then 1 else if size == 1#2 then 2 else 4

/- The operand moved to the top of a longword. -/
def fWsh (size : BitVec 2) (wdata : BitVec 32) : BitVec 32 :=
  if size == 0#2 then wdata.extractLsb' 0 8 ++ 0#24
  else if size == 1#2 then wdata.extractLsb' 0 16 ++ 0#16
  else wdata

def fOff (addr : BitVec 32) : BitVec 2 := addr.extractLsb' 0 2

/- One past the operand's last lane; above 4 means a split. -/
def fEnd (size : BitVec 2) (addr : BitVec 32) : Nat :=
  (fOff addr).toNat + fBytes size

/- Operand bytes in the first beat. -/
def fN0 (size : BitVec 2) (addr : BitVec 32) : Nat :=
  if 4 < fEnd size addr then 4 - (fOff addr).toNat
  else fBytes size

/- The enables of `count` lanes from lane `start` on. -/
def lanes (start count : Nat) : BitVec 4 :=
  (0b1111#4 <<< (4 - count)) >>> start

variable (s : Adapter)

def rN0 : Nat := 4 - s.rOff.toNat

/- The operand bytes of the first read beat, at the top. -/
def rdStream0 (rdata : BitVec 32) : BitVec 32 :=
  rdata <<< (8 * s.rOff.toNat)

end Bus32

------------------------------------------------------------
-- Clock Edge
------------------------------------------------------------

namespace Bus32

variable (s : Adapter) (i : In)

def resetState : Adapter where
  active := false
  second := false
  rOff := 0#2
  rBytes := 0
  rEnd := 0
  rWsh := 0#32
  rStream := 0#32
  tAck := false
  tRdata := 0#32
  bReq := false
  bWrite := false
  bAddr := 0#30
  bBe := 0#4
  bWdata := 0#32

/- Nothing happens; an answer lasts one cycle. -/
def wait : Adapter := { s with tAck := false }

/- A bus error drops the transaction. -/
def abort : Adapter :=
  { s with
    tAck := false
    active := false
    second := false
    bReq := false }

/- Latch a new transaction and issue its first beat. -/
def accept : Adapter :=
  { s with
    tAck := false
    active := true
    second := false
    rOff := fOff i.tAddr
    rBytes := fBytes i.tSize
    rEnd := fEnd i.tSize i.tAddr
    rWsh := fWsh i.tSize i.tWdata
    bReq := true
    bWrite := i.tWrite
    bAddr := i.tAddr.extractLsb' 2 30
    bBe := lanes (fOff i.tAddr).toNat (fN0 i.tSize i.tAddr)
    bWdata :=
      fWsh i.tSize i.tWdata >>> (8 * (fOff i.tAddr).toNat) }

/- Issue the tail beat of a split at the next longword. -/
def splitBeat : Adapter :=
  { s with
    tAck := false
    second := true
    rStream := rdStream0 s i.bRdata
    bAddr := s.bAddr + 1
    bBe := lanes 0 (s.rEnd - 4)
    bWdata := s.rWsh <<< (8 * rN0 s) }

/- The last beat: answer the transaction. -/
def finish : Adapter :=
  { s with
    active := false
    second := false
    bReq := false
    tAck := true
    tRdata :=
      (if s.second then s.rStream ||| i.bRdata >>> (8 * rN0 s)
        else rdStream0 s i.bRdata) >>> (8 * (4 - s.rBytes)) }

/- A beat that is not the operand's last one. -/
def firstOfTwo : Bool := !s.second && decide (4 < s.rEnd)

def clock : Adapter :=
  if s.active && i.tBerr then abort s
  else if !s.active then
    (if i.tReq && !s.tAck then accept s i
      else wait s)
  else if i.bAck then
    (if firstOfTwo s then splitBeat s i else finish s i)
  else wait s

def step : Adapter :=
  if !i.nreset then resetState
  else if i.ce then clock s i
  else s

end Bus32
