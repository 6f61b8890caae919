import Wombat33.Adb.Transceiver
import Mathlib.Tactic.SplitIfs

/-
  The byte of a data state.

  The transceiver shows one byte each time the bus enters a data
  state, with a strobe that lasts to its next enabled edge.

  Key definitions include:
    * `entersData`
    * `shown`

  Key theorems include:
    * `step_shown`
-/

------------------------------------------------------------
-- What Is Shown
------------------------------------------------------------

namespace Adb

variable (s : Transceiver) (i : In)

/- The bus enters a data state. -/
def entersData : Bool :=
  i.clkEn && i.st != s.host.stPrev &&
    (i.st == .data1 || i.st == .data2)

/- The next byte of the response, or zero. -/
def talkByte : Byte :=
  if respEmpty s.host then 0x00#8
  else s.host.response (s.host.respIdx.setWidth 3)

/- The registers a byte is shown with. -/
def shown (n : Transceiver) : BusState × Byte × Bool :=
  (n.host.stPrev, n.host.adbDout, n.host.adbDoutStrobe)

end Adb

------------------------------------------------------------
-- Arms
------------------------------------------------------------

namespace Adb

variable {s n : Transceiver} {i : In}

theorem kbdTalk_shown : shown (kbdTalk s n) = shown n := by
  unfold kbdTalk
  simp only []
  split_ifs <;> rfl

theorem mouseTalk_shown : shown (mouseTalk s n) = shown n := by
  unfold mouseTalk
  simp only []
  split_ifs <;> rfl

theorem kbdCommand_shown (finish : Bool) :
    shown (kbdCommand s n finish) = shown n := by
  unfold kbdCommand
  cases cmdType s.host.cmdByte with
  | reset => rfl
  | flush => rfl
  | listen => cases finish <;> rfl
  | talk => exact kbdTalk_shown

theorem mouseCommand_shown (finish : Bool) :
    shown (mouseCommand s n finish) = shown n := by
  unfold mouseCommand
  cases cmdType s.host.cmdByte with
  | reset => rfl
  | flush => rfl
  | listen => cases finish <;> rfl
  | talk => exact mouseTalk_shown

/- No command shows a byte. -/
theorem processCommand_shown (finish : Bool) :
    shown (processCommand s n finish) = shown n := by
  unfold processCommand
  simp only []
  split_ifs
  · rfl
  · exact kbdCommand_shown finish
  · exact mouseCommand_shown finish
  · rfl

theorem enterCommand_shown :
    shown (enterCommand s i n) = shown n := by
  unfold enterCommand
  simp only []
  split_ifs
  · exact processCommand_shown true
  · rfl

theorem transitionArm_shown :
    shown (transitionArm s i n) =
      if i.st != s.host.stPrev then
        (i.st,
          if i.st == .data1 || i.st == .data2 then talkByte s
          else n.host.adbDout,
          i.st == .data1 || i.st == .data2 ||
            n.host.adbDoutStrobe)
      else shown n := by
  unfold transitionArm
  cases hChange : i.st != s.host.stPrev with
  | false => rfl
  | true =>
      simp only [if_true]
      cases hSt : i.st with
      | idle => rfl
      | command => exact enterCommand_shown
      | data1 => rfl
      | data2 => rfl

theorem receiveArm_shown :
    shown (receiveArm s i n) = shown n := by
  unfold receiveArm
  split_ifs <;> rfl

theorem processArm_shown :
    shown (processArm s i n) = shown n := by
  unfold processArm
  split_ifs
  · exact processCommand_shown false
  · rfl

theorem listenArm_shown :
    shown (listenArm s i n) = shown n := by
  unfold listenArm
  split_ifs <;> rfl

theorem keyArm_shown : shown (keyArm s n) = shown n := by
  unfold keyArm
  split_ifs <;> rfl

theorem mouseArm_shown : shown (mouseArm s n) = shown n := by
  unfold mouseArm
  split_ifs <;> rfl

/- An enabled edge, field by field. -/
theorem tick_shown :
    shown (tick s i) =
      (i.st,
        if i.st != s.host.stPrev &&
            (i.st == .data1 || i.st == .data2) then talkByte s
        else s.host.adbDout,
        i.st != s.host.stPrev &&
          (i.st == .data1 || i.st == .data2)) := by
  unfold tick
  rw [mouseArm_shown, keyArm_shown, listenArm_shown,
    processArm_shown, receiveArm_shown, transitionArm_shown]
  cases hChange : i.st != s.host.stPrev with
  | false =>
      have hSame : i.st = s.host.stPrev := by simpa using hChange
      simp [shown, hSame]
  | true => simp

/- A byte is shown from the data state's edge to the next. -/
theorem step_shown (hReset : i.reset = false) :
    (step s i).host.stPrev =
        (if i.clkEn then i.st else s.host.stPrev) ∧
      (step s i).host.adbDout =
        (if entersData s i then talkByte s
        else s.host.adbDout) ∧
      (step s i).host.adbDoutStrobe =
        if i.clkEn then entersData s i
        else s.host.adbDoutStrobe := by
  have hTick := @tick_shown s i
  simp only [shown, Prod.mk.injEq] at hTick
  simp only [step, hReset, Bool.false_eq_true, if_false,
    entersData]
  by_cases hEn : i.clkEn = true
  · simp only [hEn, if_true, Bool.true_and]
    exact hTick
  · simp [hEn]

end Adb
