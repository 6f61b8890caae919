import Wombat33.Dafb.Scan

/-
  The register file of the display controller, on the host's
  clock.

  A register beat is taken when no acknowledge is up.  It
  reads and writes one of three blocks: the frame buffer, the
  timing generator with the vertical-blank interrupt, and the
  palette.  The fourth, the clock generator, is inert.

  Key definitions include:
    * `File`, `Bus`
    * `setStatus`, `clears`
    * `vblIrq`
    * `File.step`
-/

------------------------------------------------------------
-- Registers
------------------------------------------------------------

namespace Dafb

/- The registers, the acknowledge and the read data. -/
structure File extends Regs where
  ack : Bool
  rdata : BitVec 32
  senseDrive : BitVec 3
  timingCtrl : BitVec 12
  configR : BitVec 12
  testR : BitVec 12
  swatchMode : BitVec 12
  swatchTest : BitVec 12
  hparam : Nat → BitVec 12
  vparam : Nat → BitVec 12
  intEn : BitVec 3
  intStatus : BitVec 3
  cursorLine : BitVec 12
  animLine : BitVec 12
  palAddr : Byte
  palIdx : Nat
  pbctrl : Byte
  deriving Inhabited

/- A register beat; the port's address starts at bit 2. -/
structure Bus where
  nreset : Bool := true
  ce : Bool := true
  sel : Bool := false
  write : Bool := false
  addr : BitVec 8 := 0#8
  wdata : BitVec 32 := 0#32
  deriving DecidableEq

variable (f : File) (b : Bus)

/- The interrupt line: a status bit that is enabled. -/
def vblIrq : Bool := f.intStatus &&& f.intEn != 0#3

/- A beat is taken in this cycle. -/
def taken : Bool := b.nreset && b.ce && b.sel && !f.ack

def rsel : Nat := (b.addr.extractLsb' 0 6).toNat

def blk : BitVec 2 := b.addr.extractLsb' 6 2

/- The twelve bits a register holds. -/
def low12 : BitVec 12 := b.wdata.extractLsb' 0 12

end Dafb

------------------------------------------------------------
-- Frame Buffer Block
------------------------------------------------------------

namespace Dafb

variable (f : File) (b : Bus)

def dafbWrite (n : File) : File :=
  match rsel b with
  | 0x00 => { n with baseHi := low12 b }
  | 0x01 => { n with baseLo := b.wdata.extractLsb' 0 4 }
  | 0x02 => { n with strideWords := low12 b }
  | 0x03 => { n with timingCtrl := low12 b }
  | 0x04 => { n with configR := low12 b }
  | 0x07 => { n with senseDrive := b.wdata.extractLsb' 0 3 }
  | 0x0B => { n with testR := low12 b }
  | _ => n

/- The sense lines answer a 13-inch monitor. -/
def dafbRead : BitVec 32 :=
  match rsel b with
  | 0x00 => f.baseHi.setWidth 32
  | 0x01 => f.baseLo.setWidth 32
  | 0x02 => f.strideWords.setWidth 32
  | 0x03 => f.timingCtrl.setWidth 32
  | 0x04 => f.configR.setWidth 32
  | 0x07 => (0b001#3 ||| ~~~f.senseDrive).setWidth 32
  | 0x0B => (0b011#3 ++ f.testR.extractLsb' 0 9).setWidth 32
  | _ => 0#32

end Dafb

------------------------------------------------------------
-- Timing Block
------------------------------------------------------------

namespace Dafb

variable (f : File) (b : Bus)

/- The status bits a taken beat of this block clears. -/
def swatchClears : BitVec 3 :=
  match rsel b, b.write with
  | 0x01, true =>
      BitVec.ofBool (!b.wdata.getLsbD 2) ++ 0#1 ++
        BitVec.ofBool (!b.wdata.getLsbD 0)
  | 0x03, _ => 0b111#3
  | 0x05, _ => 0b111#3
  | _, _ => 0#3

def swatchWrite (n : File) : File :=
  match rsel b with
  | 0x00 => { n with swatchMode := low12 b }
  | 0x01 => { n with intEn := b.wdata.extractLsb' 0 3 }
  | 0x06 => { n with cursorLine := low12 b }
  | 0x07 => { n with animLine := low12 b }
  | 0x08 => { n with swatchTest := low12 b }
  | r =>
      if 0x09 ≤ r ∧ r ≤ 0x12 then
        { n with
          hparam := Function.update n.hparam (r - 0x09) (low12 b) }
      else if 0x13 ≤ r ∧ r ≤ 0x19 then
        { n with
          vparam := Function.update n.vparam (r - 0x13) (low12 b) }
      else n

def swatchRead : BitVec 32 :=
  match rsel b with
  | 0x02 => f.intStatus.setWidth 32
  | 0x08 => f.swatchTest.setWidth 32
  | r =>
      if 0x09 ≤ r ∧ r ≤ 0x12 then
        (f.hparam (r - 0x09)).setWidth 32
      else if 0x13 ≤ r ∧ r ≤ 0x19 then
        (f.vparam (r - 0x13)).setWidth 32
      else 0#32

end Dafb

------------------------------------------------------------
-- Palette Block
------------------------------------------------------------

namespace Dafb

variable (f : File) (b : Bus)

/- One of the three colours of the addressed entry. -/
def palWrite (n : File) : File :=
  let v : Byte := b.wdata.extractLsb' 0 8
  match f.palIdx with
  | 0 => { n with palR := Function.update n.palR f.palAddr v }
  | 1 => { n with palG := Function.update n.palG f.palAddr v }
  | _ => { n with palB := Function.update n.palB f.palAddr v }

def palRead : Byte :=
  match f.palIdx with
  | 0 => f.palR f.palAddr
  | 1 => f.palG f.palAddr
  | _ => f.palB f.palAddr

/- The depth the pixel bus control selects. -/
def depth (v : BitVec 3) : BitVec 3 :=
  match v with
  | 0b000 => 0#3
  | 0b010 => 1#3
  | 0b100 => 2#3
  | 0b110 => 3#3
  | _ => 4#3

def ramdacWrite (n : File) : File :=
  match rsel b with
  | 0x00 =>
      { n with palAddr := b.wdata.extractLsb' 0 8, palIdx := 0 }
  | 0x04 =>
      let n := palWrite f b n
      if f.palIdx = 2 then
        { n with palIdx := 0, palAddr := f.palAddr + 1#8 }
      else { n with palIdx := (f.palIdx + 1) % 4 }
  | 0x08 =>
      { n with
        pbctrl := b.wdata.extractLsb' 0 8
        mode := depth (b.wdata.extractLsb' 2 3) }
  | _ => n

/- Reading the address restarts the colour cycle. -/
def ramdacRead (n : File) : File :=
  match rsel b with
  | 0x00 =>
      { n with rdata := f.palAddr.setWidth 32, palIdx := 0 }
  | 0x04 =>
      { n with
        rdata := (palRead f).setWidth 32
        palIdx :=
          if f.palIdx = 2 then 0 else (f.palIdx + 1) % 4 }
  | 0x08 => { n with rdata := f.pbctrl.setWidth 32 }
  | _ => n

end Dafb

------------------------------------------------------------
-- Register Clock
------------------------------------------------------------

namespace Dafb

variable (f : File) (b : Bus)

/- The blank sets bits 0 and 2, whatever is enabled. -/
def setStatus (vblStart : Bool) (n : File) : File :=
  { n with
    intStatus :=
      if vblStart then n.intStatus ||| 0b101#3
      else n.intStatus }

/- A taken beat; its clearing comes after the blank's set. -/
def access (n : File) : File :=
  let n := { n with ack := true, rdata := 0#32 }
  match blk b with
  | 0 =>
      if b.write then dafbWrite b n
      else { n with rdata := dafbRead f b }
  | 1 =>
      let n :=
        { n with intStatus := n.intStatus &&& ~~~swatchClears b }
      if b.write then swatchWrite b n
      else { n with rdata := swatchRead f b }
  | 2 =>
      if b.write then ramdacWrite f b n else ramdacRead f b n
  | _ => n

/- The timing parameters and the palette are not reset. -/
def resetFile : File :=
  { f with
    ack := false, rdata := 0#32
    baseHi := 0#12, baseLo := 0#4, strideWords := 256#12
    senseDrive := 0b111#3
    timingCtrl := 0#12, configR := 0#12, swatchMode := 1#12
    testR := 0#12, swatchTest := 0#12
    intEn := 0#3, intStatus := 0#3
    cursorLine := 0#12, animLine := 0#12
    palAddr := 0#8, palIdx := 0, pbctrl := 0#8, mode := 0#3 }

def File.step (vblStart : Bool) : File :=
  if !b.nreset then resetFile f
  else if b.ce then
    let n := setStatus vblStart { f with ack := false }
    if b.sel && !f.ack then access f b n else n
  else f

/- The status bits the beat of this cycle clears. -/
def clears : BitVec 3 :=
  if taken f b && blk b == 1#2 then swatchClears b else 0#3

end Dafb

------------------------------------------------------------
-- Status and Interrupt
------------------------------------------------------------

namespace Dafb

variable {f : File} {b : Bus} {vblStart : Bool}

theorem dafbWrite_intStatus (n : File) :
    (dafbWrite b n).intStatus = n.intStatus := by
  unfold dafbWrite
  split <;> rfl

theorem swatchWrite_intStatus (n : File) :
    (swatchWrite b n).intStatus = n.intStatus := by
  unfold swatchWrite
  split
  case h_6 => split_ifs <;> rfl
  all_goals rfl

theorem palWrite_intStatus (n : File) :
    (palWrite f b n).intStatus = n.intStatus := by
  unfold palWrite
  simp only
  split <;> rfl

theorem ramdacWrite_intStatus (n : File) :
    (ramdacWrite f b n).intStatus = n.intStatus := by
  unfold ramdacWrite
  split
  case h_2 =>
      simp only
      split_ifs <;> exact palWrite_intStatus n
  all_goals rfl

theorem ramdacRead_intStatus (n : File) :
    (ramdacRead f b n).intStatus = n.intStatus := by
  unfold ramdacRead
  split <;> rfl

theorem access_intStatus (n : File) :
    (access f b n).intStatus =
      if blk b = 1#2 then n.intStatus &&& ~~~swatchClears b
      else n.intStatus := by
  unfold access
  split
  next hBlk =>
      have hOther : blk b ≠ 1#2 := by
        rw [hBlk]
        decide
      rw [if_neg hOther]
      split_ifs
      · exact dafbWrite_intStatus _
      · rfl
  next hBlk =>
      rw [if_pos hBlk]
      split_ifs
      · exact swatchWrite_intStatus _
      · rfl
  next hBlk =>
      have hOther : blk b ≠ 1#2 := by
        rw [hBlk]
        decide
      rw [if_neg hOther]
      split_ifs
      · exact ramdacWrite_intStatus _
      · exact ramdacRead_intStatus _
  next _ hOne _ => rw [if_neg hOne]

/- The status bits after an enabled register clock. -/
theorem step_intStatus
    (hReset : b.nreset = true)
    (hCe : b.ce = true) :
    (f.step b vblStart).intStatus =
      (if vblStart then f.intStatus ||| 0b101#3
        else f.intStatus) &&& ~~~clears f b := by
  have hAll (v : BitVec 3) : v &&& ~~~0#3 = v :=
    BitVec.and_allOnes
  simp only [File.step, hReset, hCe, Bool.not_true,
    Bool.false_eq_true, if_false, if_true]
  unfold clears taken
  rw [hReset, hCe]
  cases hTaken : b.sel && !f.ack with
  | false =>
      simp only [Bool.true_and, hTaken, Bool.false_and,
        Bool.false_eq_true, if_false, hAll]
      rfl
  | true =>
      simp only [Bool.true_and, hTaken, beq_iff_eq, if_true,
        access_intStatus]
      by_cases hBlk : blk b = 1#2
      · rw [if_pos hBlk, if_pos hBlk]
        rfl
      · rw [if_neg hBlk, if_neg hBlk, hAll]
        rfl

end Dafb
