import Wombat33.Adb.Transceiver
import Wombat33.Clocked.Run
import Wombat33.Clocked.ShiftQueue
import Mathlib.Tactic.SplitIfs

/-
  What a command does to the two devices.

  In an enabled edge at most one command is carried out; a
  device then takes in its own key or packet on top of what
  the command left of it.

  Key definitions include:
    * `kbdCommanded`, `mouseCommanded`
    * `kbdAfter`, `mouseAfter`
    * `keyed`, `moved`

  Key theorems include:
    * `tick_kbd`, `tick_mouse`
    * `step_kbd`, `step_mouse`
    * `tick_host_of_executes`
-/

------------------------------------------------------------
-- The Devices After a Command
------------------------------------------------------------

namespace Adb

variable (s n : Transceiver) (i : In) (finish : Bool)

/- The keyboard after the command byte is carried out. -/
def kbdCommanded : Keyboard :=
  let k := s.kbd
  if cmdType s.host.cmdByte == .reset then resetKeyboard k
  else if cmdAddr s.host.cmdByte == k.kbdAddr then
    (match cmdType s.host.cmdByte with
    | .flush =>
        { k with
          kbdFifoRd := 0#3, kbdFifoWr := 0#3
          kbdReg0 := 0xFFFF#16 }
    | .listen => if finish then kbdListen s.host k else k
    | .talk => (kbdTalk s s).kbd
    | .reset => k)
  else k

/- The mouse after the command byte is carried out. -/
def mouseCommanded : Mouse :=
  let m := s.mouse
  if cmdType s.host.cmdByte == .reset then resetMouse
  else if cmdAddr s.host.cmdByte == s.kbd.kbdAddr then m
  else if cmdAddr s.host.cmdByte == m.mouseAddr then
    (match cmdType s.host.cmdByte with
    | .flush =>
        { m with
          mouseX := 0#7, mouseY := 0#7, mouseHasEvent := false }
    | .listen => if finish then mouseListen s.host m else m
    | .talk => (mouseTalk s s).mouse
    | .reset => m)
  else m

variable {s n i finish}

theorem kbdTalk_kbd (hKbd : n.kbd = s.kbd) :
    (kbdTalk s n).kbd = (kbdTalk s s).kbd := by
  unfold kbdTalk
  simp only [hKbd]
  split_ifs <;> simp [hKbd]

theorem kbdTalk_mouse :
    (kbdTalk s n).mouse = n.mouse := by
  unfold kbdTalk
  simp only []
  split_ifs <;> rfl

theorem mouseTalk_mouse (hMouse : n.mouse = s.mouse) :
    (mouseTalk s n).mouse = (mouseTalk s s).mouse := by
  unfold mouseTalk
  simp only [hMouse]
  split_ifs <;> simp [hMouse]

theorem mouseTalk_kbd :
    (mouseTalk s n).kbd = n.kbd := by
  unfold mouseTalk
  simp only []
  split_ifs <;> rfl

theorem processCommand_kbd (hKbd : n.kbd = s.kbd) :
    (processCommand s n finish).kbd =
      kbdCommanded s finish := by
  unfold processCommand kbdCommanded kbdCommand mouseCommand
  cases hType : cmdType s.host.cmdByte with
  | reset => simp [hKbd]
  | flush =>
      simp only [hKbd]
      split_ifs <;> simp_all
  | listen =>
      simp only [hKbd]
      split_ifs <;> simp_all
  | talk =>
      simp only
      split_ifs <;> simp_all [kbdTalk_kbd, mouseTalk_kbd]

theorem processCommand_mouse (hMouse : n.mouse = s.mouse) :
    (processCommand s n finish).mouse =
      mouseCommanded s finish := by
  unfold processCommand mouseCommanded kbdCommand mouseCommand
  cases hType : cmdType s.host.cmdByte with
  | reset => simp
  | flush =>
      simp only [hMouse]
      split_ifs <;> simp_all
  | listen =>
      simp only [hMouse]
      split_ifs <;> simp_all
  | talk =>
      simp only
      split_ifs <;> simp_all [kbdTalk_mouse, mouseTalk_mouse]

end Adb

------------------------------------------------------------
-- The Devices After an Edge
------------------------------------------------------------

namespace Adb

variable (s : Transceiver) (i : In)

/- The keyboard after the command of this edge, if any. -/
def kbdAfter : Keyboard :=
  if finishes s i then kbdCommanded s true
  else if executes s i then kbdCommanded s false
  else s.kbd

def mouseAfter : Mouse :=
  if finishes s i then mouseCommanded s true
  else if executes s i then mouseCommanded s false
  else s.mouse

/- The keyboard with the key event of this edge, if any. -/
def keyed (k : Keyboard) : Keyboard :=
  if keyEvent s then
    { k with
      kbdFifo :=
        Function.update k.kbdFifo s.kbd.kbdFifoWr
          s.keySync.keyData
      kbdFifoWr := s.kbd.kbdFifoWr + 1#3 }
  else k

/- The mouse with the packet of this edge, if any. -/
def moved (m : Mouse) : Mouse :=
  if mouseEvent s then
    { m with
      mouseX := squeezeX s.mouseSync.mouseXrawS2
      mouseY := squeezeY s.mouseSync.mouseYrawS2
      mouseButton := s.mouseSync.mouseBtnS2
      mouseHasEvent := true }
  else m

/- The response, as far as it is long. -/
def responseBytes (h : Host) : List Byte :=
  Clocked.contents (fun k => h.response (BitVec.ofNat 3 k))
    h.respLen.toNat

variable {s i} {n : Transceiver}

/- A command is either finished or executed. -/
theorem not_executes_of_finishes
    (hFinishes : finishes s i = true) :
    executes s i = false := by
  unfold finishes at hFinishes
  unfold executes
  simp only [Bool.and_eq_true, beq_iff_eq] at hFinishes
  simp [hFinishes.2.1.2]

/- A command that finishes is processed on the way in. -/
theorem transitionArm_of_finishes
    (hFinishes : finishes s i = true) :
    (transitionArm s i n).kbd =
        (processCommand s { n with host.stPrev := i.st }
          true).kbd ∧
      (transitionArm s i n).mouse =
        (processCommand s { n with host.stPrev := i.st }
          true).mouse := by
  have hBoth := hFinishes
  simp only [finishes, Bool.and_eq_true, beq_iff_eq] at hBoth
  rw [transitionArm, if_pos hBoth.1.1]
  simp only [hBoth.1.2, enterCommand, hFinishes, if_true,
    and_self]

/- Otherwise the devices are left alone. -/
theorem transitionArm_of_not_finishes
    (hFinishes : finishes s i = false) :
    (transitionArm s i n).kbd = n.kbd ∧
      (transitionArm s i n).mouse = n.mouse := by
  unfold transitionArm
  split_ifs
  · cases hState : i.st with
    | command => simp [enterCommand, hFinishes]
    | data1 => exact ⟨rfl, rfl⟩
    | data2 => exact ⟨rfl, rfl⟩
    | idle => exact ⟨rfl, rfl⟩
  · exact ⟨rfl, rfl⟩

theorem transitionArm_kbd (hKbd : n.kbd = s.kbd) :
    (transitionArm s i n).kbd =
      if finishes s i then kbdCommanded s true else s.kbd := by
  cases hFinishes : finishes s i with
  | true =>
      rw [if_pos rfl, (transitionArm_of_finishes hFinishes).1]
      exact processCommand_kbd hKbd
  | false =>
      rw [(transitionArm_of_not_finishes hFinishes).1, hKbd]
      rfl

theorem transitionArm_mouse (hMouse : n.mouse = s.mouse) :
    (transitionArm s i n).mouse =
      if finishes s i then mouseCommanded s true
      else s.mouse := by
  cases hFinishes : finishes s i with
  | true =>
      rw [if_pos rfl, (transitionArm_of_finishes hFinishes).2]
      exact processCommand_mouse hMouse
  | false =>
      rw [(transitionArm_of_not_finishes hFinishes).2, hMouse]
      rfl

@[simp] theorem receiveArm_kbd :
    (receiveArm s i n).kbd = n.kbd := by
  unfold receiveArm
  split_ifs <;> rfl

@[simp] theorem receiveArm_mouse :
    (receiveArm s i n).mouse = n.mouse := by
  unfold receiveArm
  split_ifs <;> rfl

@[simp] theorem listenArm_kbd :
    (listenArm s i n).kbd = n.kbd := by
  unfold listenArm
  split_ifs <;> rfl

@[simp] theorem listenArm_mouse :
    (listenArm s i n).mouse = n.mouse := by
  unfold listenArm
  split_ifs <;> rfl

theorem keyArm_kbd :
    (keyArm s n).kbd = keyed s n.kbd := by
  unfold keyArm keyed
  split_ifs <;> rfl

@[simp] theorem keyArm_mouse :
    (keyArm s n).mouse = n.mouse := by
  unfold keyArm
  split_ifs <;> rfl

@[simp] theorem mouseArm_kbd :
    (mouseArm s n).kbd = n.kbd := by
  unfold mouseArm
  split_ifs <;> rfl

theorem mouseArm_mouse :
    (mouseArm s n).mouse = moved s n.mouse := by
  unfold mouseArm moved
  split_ifs <;> rfl

theorem keyArm_host : (keyArm s n).host = n.host := by
  unfold keyArm
  split_ifs <;> rfl

theorem mouseArm_host : (mouseArm s n).host = n.host := by
  unfold mouseArm
  split_ifs <;> rfl

/- An edge carries out a command and then adds the key. -/
theorem tick_kbd :
    (tick s i).kbd = keyed s (kbdAfter s i) := by
  unfold tick
  rw [mouseArm_kbd, keyArm_kbd, listenArm_kbd]
  congr 1
  unfold processArm kbdAfter
  by_cases hFinishes : finishes s i = true
  · simp [not_executes_of_finishes hFinishes, hFinishes,
      transitionArm_kbd]
  · split_ifs with hExecutes
    · simp [processCommand_kbd, transitionArm_kbd, hFinishes]
    · simp [transitionArm_kbd, hFinishes]

theorem tick_mouse :
    (tick s i).mouse = moved s (mouseAfter s i) := by
  unfold tick
  rw [mouseArm_mouse, keyArm_mouse, listenArm_mouse]
  congr 1
  unfold processArm mouseAfter
  by_cases hFinishes : finishes s i = true
  · simp [not_executes_of_finishes hFinishes, hFinishes,
      transitionArm_mouse]
  · split_ifs with hExecutes
    · simp [processCommand_mouse, transitionArm_mouse,
        hFinishes]
    · simp [transitionArm_mouse, hFinishes]

theorem step_kbd (hReset : i.reset = false) :
    (step s i).kbd =
      if i.clkEn then keyed s (kbdAfter s i) else s.kbd := by
  simp only [step, hReset, Bool.false_eq_true, if_false]
  split_ifs
  · exact tick_kbd
  · rfl

theorem step_mouse (hReset : i.reset = false) :
    (step s i).mouse =
      if i.clkEn then moved s (mouseAfter s i)
      else s.mouse := by
  simp only [step, hReset, Bool.false_eq_true, if_false]
  split_ifs
  · exact tick_mouse
  · rfl

theorem listenArm_of_command
    {n : Transceiver}
    (hState : i.st = .command) :
    listenArm s i n = n := by
  simp [listenArm, hState]

/- The host's side before the command is executed. -/
def received (s : Transceiver) (i : In) : Transceiver :=
  receiveArm s i (transitionArm s i
    { s with
      host.adbDoutStrobe := false
      host.listen := false })

/- What an edge that executes a command leaves to the host. -/
theorem tick_host_of_executes
    (hExecutes : executes s i = true) :
    (tick s i).host =
      { (processCommand s (received s i) false).host with
        cmdValid := false } := by
  have hState : i.st = .command := by
    simp only [executes, Bool.and_eq_true, beq_iff_eq]
      at hExecutes
    exact hExecutes.1.2
  rw [tick, mouseArm_host, keyArm_host,
    listenArm_of_command hState, processArm, if_pos hExecutes,
    received]

end Adb
