import Wombat33.Clocked.Replay
import Wombat33.Dafb.Registers
import Wombat33.MacQuadra800.RomImage
import Wombat33.Quadra800.Ledger
import Wombat33.Vram.Mapper

/-
  The memory of the machine as software sees it.

  What the RAM, the boot ROM and the video memory hold, with
  the display's pitch, by which the video memory is folded.
  A beat sent to a memory or to the display controller reads
  or changes these contents at once.

  Key definitions include:
    * `Phys`, `Phys.load`, `Phys.store`
    * `Phys.exec`, `Phys.shown`
    * `memories`
    * `lastWrite`

  Key theorems include:
    * `ram_after`
-/

------------------------------------------------------------
-- Contents
------------------------------------------------------------

namespace MacQuadra800

open Lanes (Mem loadWord storeLanes)
open Quadra800 (Wire mselRam mselRom)

/- The video memory by the words of its array. -/
structure Phys where
  ram : Mem 25
  rom : Mem 18
  vram : BitVec 17 → BitVec 32
  strideWords : BitVec 12

namespace Phys

variable (p : Phys)

/- Where the array keeps a longword, at the pitch set. -/
def place (a : BitVec 30) : BitVec 17 :=
  Vram.vramMap (Vram.vramCompact (p.strideWords ++ 0#2))
    (a.extractLsb' 0 17)

def load (memsel : BitVec 2) (a : BitVec 30) : BitVec 32 :=
  if memsel == mselRam then
    loadWord p.ram (a.extractLsb' 0 25)
  else if memsel == mselRom then
    loadWord p.rom (a.extractLsb' 0 18)
  else p.vram (p.place a)

/- The ROM takes no writes. -/
def store (memsel : BitVec 2) (b : Quadra800.Beat) : Phys :=
  if memsel == mselRam then
    { p with
      ram := storeLanes p.ram (b.addr.extractLsb' 0 25) b.be
        b.wdata }
  else if memsel == mselRom then p
  else
    { p with
      vram := Mapped.modify p.vram (p.place b.addr)
        (Vram.merge b.be b.wdata) }

/- The display's third register is its pitch. -/
def isStride (addr : BitVec 8) : Bool := addr == 2#8

def exec : Wire → Phys
  | .mem memsel b => if b.write then p.store memsel b else p
  | .dafb write addr wdata =>
      if write && isStride addr then
        { p with strideWords := wdata.extractLsb' 0 12 }
      else p
  | .iosb _ _ _ _ => p

/- What a read of these contents is to return. -/
def shown : Wire → Option (BitVec 32)
  | .mem memsel b =>
      if b.write then none else some (p.load memsel b.addr)
  | .dafb write addr _ =>
      if !write && isStride addr then
        some (p.strideWords.setWidth 32)
      else none
  | .iosb _ _ _ _ => none

end Phys

/- The contents as a device on the wires of the service. -/
def memories : Clocked.Device Phys Wire Quadra800.Reply where
  exec := Phys.exec
  agrees p w r := ∀ d, p.shown w = some d → r = .data d

end MacQuadra800

------------------------------------------------------------
-- The Last Write of a Byte
------------------------------------------------------------

namespace MacQuadra800

open Lanes (Mem byte offset word)
open Quadra800 (Wire mselRam)

/- The byte of the RAM at `x` that a wire writes. -/
def ramByte (x : BitVec 27) : Wire → Option Byte
  | .mem memsel b =>
      if b.write && memsel == mselRam &&
          word x == b.addr.extractLsb' 0 25 &&
          b.be.getLsbD (3 - offset x) then
        some (byte (3 - offset x) b.wdata)
      else none
  | _ => none

/- The byte last written at `x`. -/
def lastWrite
    (x : BitVec 27)
    (sent : List (Wire × Quadra800.Reply)) : Option Byte :=
  (sent.filterMap (fun e => ramByte x e.1)).getLast?

theorem ram_exec (x : BitVec 27) (p : Phys) (w : Wire) :
    (p.exec w).ram x = (ramByte x w).getD (p.ram x) := by
  cases w with
  | mem memsel b =>
      cases hWrite : b.write with
      | false => simp [Phys.exec, ramByte, hWrite]
      | true =>
          by_cases hRam : memsel = mselRam
          · by_cases hWord : word x = b.addr.extractLsb' 0 25
            · cases hLane : b.be.getLsbD (3 - offset x) <;>
                simp [Phys.exec, Phys.store, ramByte, hWrite,
                  hRam, hWord, hLane, Lanes.storeLanes]
            · simp [Phys.exec, Phys.store, ramByte, hWrite,
                hRam, hWord, Lanes.storeLanes]
          · simp only [Phys.exec, Phys.store, ramByte, hWrite,
              hRam, if_true, beq_iff_eq, if_false, Bool.and_eq_true,
              false_and, and_false]
            split <;> rfl
  | iosb write addr be wdata => rfl
  | dafb write addr wdata =>
      simp only [Phys.exec, ramByte, Option.getD_none]
      split <;> rfl

/- The RAM after some beats holds what was last written. -/
theorem ram_after
    (x : BitVec 27)
    (p : Phys)
    (sent : List (Wire × Quadra800.Reply)) :
    (memories.after p sent).ram x =
      (lastWrite x sent).getD (p.ram x) :=
  @Clocked.Device.cell_after _ _ _ _ memories p sent
    (fun p => p.ram x) (ramByte x) (ram_exec x)

end MacQuadra800
