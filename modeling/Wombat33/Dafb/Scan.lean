import Wombat33.Lanes.Bytes

/-
  The scanout process of the display controller `dafb`.

  A 640 by 480 window in a frame of 800 by 525 pixel clocks.
  Each line is primed three clocks before it starts; in the
  window a shift register hands out pixels and asks for the
  next word whenever it takes one up.

  The register file is seen through the registers the process
  reads: the frame buffer base and the stride, of which some
  bits cannot be programmed, the depth and the palette.

  Key definitions include:
    * `Regs`, `Scan`, `In`
    * `vidAddr`, `cur`, `clutIdx`
    * `step`
-/

------------------------------------------------------------
-- Registers
------------------------------------------------------------

namespace Dafb

abbrev Byte := BitVec 8

/- What the host has programmed. -/
structure Regs where
  baseHi : BitVec 12
  baseLo : BitVec 4
  strideWords : BitVec 12
  mode : BitVec 3
  palR : Byte → Byte
  palG : Byte → Byte
  palB : Byte → Byte
  deriving Inhabited

/- Bits 20 to 9 and 8 to 5 are written, the rest are zero. -/
def Regs.fbBase (r : Regs) : BitVec 21 :=
  r.baseHi ++ r.baseLo ++ 0#5

/- In bytes; written in longwords. -/
def Regs.stride (r : Regs) : BitVec 14 := r.strideWords ++ 0#2

/- The counters and the fetch pipeline. -/
structure Line where
  hcnt : Nat
  vcnt : Nat
  shreg : BitVec 32
  shcnt : Nat
  fetchAddr : BitVec 22
  fetchWord : BitVec 32
  fpipe : BitVec 2
  lineBaseNext : BitVec 22
  deriving Inhabited

/- What comes over from the host's clock, and the VRAM read. -/
structure Crossing where
  fbBaseMeta : BitVec 21
  fbBaseV : BitVec 21
  strideMeta : BitVec 14
  strideV : BitVec 14
  modeMeta : BitVec 3
  modeV : BitVec 3
  vidRdata : BitVec 32
  deriving Inhabited

/- The registered outputs. -/
structure Video where
  outR : Byte
  outG : Byte
  outB : Byte
  vgaHs : Bool
  vgaVs : Bool
  hbR : Bool
  vbR : Bool
  deriving Inhabited

structure Scan extends Line, Crossing, Video where
  deriving Inhabited

/- The registers and the VRAM a pixel clock finds. -/
structure In where
  nresetVid : Bool := true
  regs : Regs
  vram : BitVec 20 → BitVec 32

end Dafb

------------------------------------------------------------
-- Decoding
------------------------------------------------------------

namespace Dafb

variable (s : Scan)

def hactive : Bool := decide (s.hcnt < 640)

def vactive : Bool := decide (s.vcnt < 480)

/- Pixels in a longword, by depth. -/
def pixPerWord (mode : BitVec 3) : Nat :=
  if mode == 0#3 then 32
  else if mode == 1#3 then 16
  else if mode == 2#3 then 8
  else 4

def vidAddr : BitVec 20 := s.fetchAddr.extractLsb' 2 20

/- The current word: freshly fetched on a refill boundary. -/
def cur : BitVec 32 :=
  if s.shcnt == 0 then s.fetchWord else s.shreg

/- The leftmost pixel of a word. -/
def clutIdx (mode : BitVec 3) (w : BitVec 32) : Byte :=
  if mode == 3#3 then w.extractLsb' 24 8
  else if mode == 0#3 then 0#7 ++ w.extractLsb' 31 1
  else if mode == 1#3 then 0#6 ++ w.extractLsb' 30 2
  else 0#4 ++ w.extractLsb' 28 4

/- A word without its leftmost pixel. -/
def shiftOut (mode : BitVec 3) (w : BitVec 32) : BitVec 32 :=
  if mode == 0#3 then w.extractLsb' 0 31 ++ 0#1
  else if mode == 1#3 then w.extractLsb' 0 30 ++ 0#2
  else if mode == 2#3 then w.extractLsb' 0 28 ++ 0#4
  else w.extractLsb' 0 24 ++ 0#8

/- The line after this one is in the window. -/
def primeNext : Bool :=
  decide (s.vcnt < 479) || s.vcnt == 524

end Dafb

------------------------------------------------------------
-- Pixel Clock
------------------------------------------------------------

namespace Dafb

variable (s : Scan) (i : In)

def counters (n : Scan) : Scan :=
  if s.hcnt == 799 then
    { n with
      hcnt := 0
      vcnt :=
        if s.vcnt == 524 then 0 else (s.vcnt + 1) % 1024 }
  else { n with hcnt := (s.hcnt + 1) % 1024 }

def syncs (n : Scan) : Scan :=
  { n with
    vgaHs := !(decide (656 ≤ s.hcnt) && decide (s.hcnt < 752))
    vgaVs := !(decide (490 ≤ s.vcnt) && decide (s.vcnt < 492))
    hbR := !hactive s
    vbR := !vactive s }

/- A word asked for two clocks ago is there. -/
def fetchPipe (n : Scan) : Scan :=
  { n with
    fpipe := s.fpipe.extractLsb' 0 1 ++ 0#1
    fetchWord :=
      if s.fpipe.getLsbD 1 then s.vidRdata else n.fetchWord }

/- Prime the next line, or the first of the next frame. -/
def prime (n : Scan) : Scan :=
  if primeNext s then
    { n with
      fetchAddr :=
        if s.vcnt == 524 then s.fbBaseV.setWidth 22
        else s.fbBaseV.setWidth 22 + s.lineBaseNext
      fpipe := 0b01#2
      shcnt := 0 }
  else n

/- The offset of the line after the one that begins. -/
def lineBase (n : Scan) : Scan :=
  if s.vcnt == 524 then
    { n with lineBaseNext := s.strideV.setWidth 22 }
  else if s.vcnt < 480 then
    { n with
      lineBaseNext := s.lineBaseNext + s.strideV.setWidth 22 }
  else n

/- One pixel leaves the shift register. -/
def shiftPixel (n : Scan) : Scan :=
  if s.shcnt == 0 then
    { n with
      shreg := shiftOut s.modeV (cur s)
      shcnt := pixPerWord s.modeV - 1
      fetchAddr := s.fetchAddr + 4#22
      fpipe := 0b01#2 }
  else
    { n with
      shcnt := s.shcnt - 1
      shreg := shiftOut s.modeV s.shreg }

def lineArms (n : Scan) : Scan :=
  if s.hcnt == 797 then prime s n
  else if s.hcnt == 799 then lineBase s n
  else if hactive s && vactive s then shiftPixel s n
  else n

def output (n : Scan) : Scan :=
  if hactive s && vactive s then
    { n with
      outR := i.regs.palR (clutIdx s.modeV (cur s))
      outG := i.regs.palG (clutIdx s.modeV (cur s))
      outB := i.regs.palB (clutIdx s.modeV (cur s)) }
  else { n with outR := 0#8, outG := 0#8, outB := 0#8 }

def resetRegs (n : Scan) : Scan :=
  { n with
    hcnt := 0, vcnt := 0
    vgaHs := true, vgaVs := true, hbR := true, vbR := true
    shreg := 0#32, shcnt := 0
    fetchAddr := 0#22, fetchWord := 0#32, fpipe := 0#2
    outR := 0#8, outG := 0#8, outB := 0#8
    lineBaseNext := 0#22 }

/-
  Two registers per bit bring the programmed values over from
  the host's clock; the VRAM registers its read.  Neither is
  reset.
-/
def crossings (n : Scan) : Scan :=
  { n with
    fbBaseMeta := i.regs.fbBase
    fbBaseV := s.fbBaseMeta
    strideMeta := i.regs.stride
    strideV := s.strideMeta
    modeMeta := i.regs.mode
    modeV := s.modeMeta
    vidRdata := i.vram (vidAddr s) }

def step : Scan :=
  crossings s i <|
    if !i.nresetVid then resetRegs s
    else
      output s i <| lineArms s <| fetchPipe s <| syncs s <|
        counters s s

end Dafb
