/-
  The machine reset of the MiSTer top level: it holds the
  machine until the PLL has locked and boot.rom has been
  downloaded once, and follows the reset requests of the
  framework after that.

  Key definitions include:
    * `Pins`, `Boot`
    * `Boot.reset`, `Boot.next`
-/

------------------------------------------------------------
-- Machine Reset
------------------------------------------------------------

namespace MacQuadra800

/- What the framework drives that the reset depends on. -/
structure Pins where
  resetPin : Bool := false
  status0 : Bool := false
  buttons1 : Bool := false
  pllLocked : Bool := true
  ioctlDownload : Bool := false
  ioctlIndex : BitVec 16 := 0#16
  deriving DecidableEq, Inhabited

structure Boot where
  romLoaded : Bool
  dlD : Bool
  deriving DecidableEq, Inhabited

/- The download is boot.rom. -/
def Pins.romIndex (p : Pins) : Bool :=
  p.ioctlIndex.extractLsb' 0 6 == 0#6

namespace Boot

variable (b : Boot) (p : Pins)

def start : Boot := ⟨false, false⟩

/- The `reset` wire. -/
def reset : Bool :=
  p.resetPin || p.status0 || p.buttons1 ||
    p.ioctlDownload || !b.romLoaded || !p.pllLocked

def next : Boot where
  romLoaded :=
    if b.dlD && !p.ioctlDownload && p.romIndex then true
    else b.romLoaded
  dlD := p.ioctlDownload

/- Out of reset the ROM is there, and stays. -/
theorem loaded_of_not_reset (h : b.reset p = false) :
    b.romLoaded = true := by
  simp only [reset, Bool.or_eq_false_iff,
    Bool.not_eq_false'] at h
  exact h.1.2

theorem next_loaded (h : b.romLoaded = true) :
    (b.next p).romLoaded = true := by
  simp [next, h]

end Boot

end MacQuadra800
