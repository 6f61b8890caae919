import Wombat33.Adb.Command
import Mathlib.Data.List.Basic

/-
  Which device a command touches.

  A command is for one device, a Flush clears what its device
  has pending, and a Listen changes a register when it ends
  with its data.  Beside the run go the data bytes taken since
  the last command byte.  The low nibbles 1, 2 and 3 have the
  type bits of a Reset, and are carried out as one.

  Key definitions include:
    * `noteData`
    * `AddressedOnly`
    * `asReset`

  Key theorems include:
    * `addressed_only`
    * `addressed_only_iff`
    * `flush_resets_addresses`
-/

------------------------------------------------------------
-- Addressed Commands
------------------------------------------------------------

namespace Adb

variable (s : Transceiver) (i : In)

/- A data byte behind the command byte. -/
def takesData : Bool :=
  i.adbDinStrobe && s.host.cmdValid &&
    (i.st == .command ||
      (i.st == .data1 || i.st == .data2) &&
        cmdType s.host.cmdByte == .listen)

/- The data bytes taken since the last command byte. -/
def noteData (received : List Byte) : List Byte :=
  if i.reset then []
  else if !i.clkEn then received
  else if takesData s i then received ++ [i.adbDin]
  else if i.st == .command &&
      (i.adbDinStrobe || i.st != s.host.stPrev) then []
  else received

def lowNibble (cmd : Byte) : BitVec 4 := cmd.extractLsb' 0 4

/- What a device does by itself: it takes in its own input. -/
def kbdAlone : Keyboard :=
  if i.clkEn then keyed s s.kbd else s.kbd

def mouseAlone : Mouse :=
  if i.clkEn then moved s s.mouse else s.mouse

/- The keyboard's and the mouse's registers. -/
def registers :
    BitVec 4 × BitVec 16 × BitVec 16 × BitVec 4 :=
  (s.kbd.kbdAddr, s.kbd.kbdReg0, s.kbd.kbdReg2,
    s.mouse.mouseAddr)

/- A Flush of the keyboard: its keys are gone. -/
def kbdFlushed : Keyboard :=
  { s.kbd with
    kbdFifoRd := 0#3, kbdFifoWr := 0#3, kbdReg0 := 0xFFFF#16 }

def mouseFlushed : Mouse :=
  { s.mouse with
    mouseX := 0#7, mouseY := 0#7, mouseHasEvent := false }

/- The Listen has ended, with the data its register takes. -/
def listenEnds (received : List Byte) : Prop :=
  i.clkEn = true ∧ finishes s i = true ∧
    ((cmdReg s.host.cmdByte = 2#2 ∧ 1 ≤ received.length) ∨
      (cmdReg s.host.cmdByte = 3#2 ∧ 2 ≤ received.length))

/-
  In one edge the command touches only what it is for: short
  of the broadcast, a device at another address does what it
  does by itself; a Flush clears the pending data of its
  device and nothing else; a Listen that has not ended with
  its data changes no register.
-/
structure AddressedOnly
    (x : Transceiver × List Byte)
    (i : In) : Prop where
  kbd : lowNibble x.1.host.cmdByte ≠ 0#4 →
    cmdAddr x.1.host.cmdByte ≠ x.1.kbd.kbdAddr →
    (step x.1 i).kbd = kbdAlone x.1 i
  mouse : lowNibble x.1.host.cmdByte ≠ 0#4 →
    cmdAddr x.1.host.cmdByte ≠ x.1.mouse.mouseAddr →
    (step x.1 i).mouse = mouseAlone x.1 i
  flushKbd : lowNibble x.1.host.cmdByte = 1#4 →
    i.clkEn = true → executes x.1 i = true →
    cmdAddr x.1.host.cmdByte = x.1.kbd.kbdAddr →
    (step x.1 i).kbd = keyed x.1 (kbdFlushed x.1)
  flushMouse : lowNibble x.1.host.cmdByte = 1#4 →
    i.clkEn = true → executes x.1 i = true →
    cmdAddr x.1.host.cmdByte ≠ x.1.kbd.kbdAddr →
    cmdAddr x.1.host.cmdByte = x.1.mouse.mouseAddr →
    (step x.1 i).mouse = moved x.1 (mouseFlushed x.1)
  flushAddresses : lowNibble x.1.host.cmdByte = 1#4 →
    (step x.1 i).kbd.kbdAddr = x.1.kbd.kbdAddr ∧
      (step x.1 i).mouse.mouseAddr = x.1.mouse.mouseAddr
  listen : cmdType x.1.host.cmdByte = .listen →
    registers (step x.1 i) ≠ registers x.1 →
    listenEnds x.1 i x.2

/- Low nibbles that are no Reset but have its type bits. -/
def asReset (cmd : Byte) : Bool :=
  lowNibble cmd == 1#4 || lowNibble cmd == 2#4 ||
    lowNibble cmd == 3#4

end Adb

------------------------------------------------------------
-- The Count of the Data
------------------------------------------------------------

namespace Adb

variable {s n : Transceiver} {i : In} {finish : Bool}
variable {received : List Byte}

theorem processCommand_listenLen :
    (processCommand s n finish).host.listenLen =
      n.host.listenLen := by
  unfold processCommand kbdCommand mouseCommand
  cases hType : cmdType s.host.cmdByte with
  | reset => rfl
  | flush =>
      simp only
      split_ifs <;> rfl
  | listen =>
      simp only
      split_ifs <;> rfl
  | talk =>
      simp only [kbdTalk, mouseTalk]
      split_ifs <;> rfl

theorem transitionArm_listenLen :
    (transitionArm s i n).host.listenLen =
      if i.st == .command && i.st != s.host.stPrev then 0#4
      else n.host.listenLen := by
  unfold transitionArm
  cases hState : i.st with
  | command =>
      simp only [enterCommand]
      split_ifs <;> simp_all
  | data1 =>
      simp only [enterData]
      split_ifs <;> simp_all
  | data2 =>
      simp only [enterData]
      split_ifs <;> simp_all
  | idle => split_ifs <;> simp_all

theorem receiveArm_listenLen :
    (receiveArm s i n).host.listenLen =
      if i.st == .command && i.adbDinStrobe then
        (if s.host.cmdValid then s.host.listenLen + 1 else 0#4)
      else n.host.listenLen := by
  unfold receiveArm takeData
  split_ifs <;> simp_all

theorem processArm_listenLen :
    (processArm s i n).host.listenLen = n.host.listenLen := by
  unfold processArm
  split_ifs
  · exact processCommand_listenLen
  · rfl

theorem listenArm_listenLen :
    (listenArm s i n).host.listenLen =
      if (i.st == .data1 || i.st == .data2) &&
          i.adbDinStrobe &&
          (s.host.cmdValid &&
            cmdType s.host.cmdByte == .listen)
      then s.host.listenLen + 1
      else n.host.listenLen := by
  unfold listenArm takeData
  split_ifs <;> rfl

theorem tick_listenLen :
    (tick s i).host.listenLen =
      if takesData s i then s.host.listenLen + 1
      else if i.st == .command &&
          (i.adbDinStrobe || i.st != s.host.stPrev) then 0#4
      else s.host.listenLen := by
  unfold tick takesData
  rw [mouseArm_host, keyArm_host, listenArm_listenLen,
    processArm_listenLen, receiveArm_listenLen,
    transitionArm_listenLen]
  cases hState : i.st with
  | command => split_ifs <;> simp_all
  | data1 => split_ifs <;> simp_all
  | data2 => split_ifs <;> simp_all
  | idle => split_ifs <;> simp_all

/- The counter counts the data bytes, up to its width. -/
def Counted (x : Transceiver × List Byte) : Prop :=
  x.1.host.listenLen = BitVec.ofNat 4 x.2.length

end Adb
------------------------------------------------------------
-- Edges of the Devices
------------------------------------------------------------

namespace Adb

open Clocked

variable {s : Transceiver} {i : In} {received : List Byte}

theorem counted_step
    {x : Transceiver × List Byte}
    (hCounted : Counted x) :
    Counted (watch step (fun g s i => noteData s i g) x i) := by
  unfold Counted at hCounted ⊢
  simp only [watch_fst, watch_snd, step, noteData]
  cases hReset : i.reset with
  | true => simp [resetState, resetHost]
  | false =>
      cases hEn : i.clkEn with
      | false => simpa using hCounted
      | true =>
          simp only [Bool.false_eq_true, if_false, if_true,
            Bool.not_true, tick_listenLen]
          split_ifs
          · rw [hCounted, List.length_append,
              List.length_singleton, BitVec.ofNat_add]
            rfl
          · rfl
          · exact hCounted

/- A command with another address leaves the device alone. -/
theorem kbdAfter_of_ne
    (hType : cmdType s.host.cmdByte ≠ .reset)
    (hAddr : cmdAddr s.host.cmdByte ≠ s.kbd.kbdAddr) :
    kbdAfter s i = s.kbd := by
  simp [kbdAfter, kbdCommanded, hType, hAddr]

theorem mouseAfter_of_ne
    (hType : cmdType s.host.cmdByte ≠ .reset)
    (hAddr : cmdAddr s.host.cmdByte ≠ s.mouse.mouseAddr) :
    mouseAfter s i = s.mouse := by
  simp [mouseAfter, mouseCommanded, hType, hAddr]

/- Only low nibbles below 4 have the type bits of a Reset. -/
theorem cmdType_reset_iff
    (cmd : Byte) :
    cmdType cmd = .reset ↔
      lowNibble cmd = 0#4 ∨ asReset cmd = true := by
  revert cmd
  decide

/- A counter that reads `m` has counted that many bytes. -/
theorem counted_le
    {m : Nat}
    (hLen : s.host.listenLen =
      BitVec.ofNat 4 received.length)
    (hSmall : m < 16)
    (hLe : BitVec.ofNat 4 m ≤ s.host.listenLen) :
    m ≤ received.length := by
  rw [hLen, BitVec.le_def] at hLe
  simp only [BitVec.toNat_ofNat] at hLe
  have hMod := Nat.mod_le received.length (2 ^ 4)
  omega

/- What a Listen changes, by its register and its length. -/
theorem kbdListen_registers
    (k : Keyboard)
    (hLen : s.host.listenLen =
      BitVec.ofNat 4 received.length)
    (hChanged : ((kbdListen s.host k).kbdAddr,
      (kbdListen s.host k).kbdReg0,
      (kbdListen s.host k).kbdReg2) ≠
        (k.kbdAddr, k.kbdReg0, k.kbdReg2)) :
    (cmdReg s.host.cmdByte = 2#2 ∧ 1 ≤ received.length) ∨
      (cmdReg s.host.cmdByte = 3#2 ∧
        2 ≤ received.length) := by
  unfold kbdListen at hChanged
  split_ifs at hChanged with h2 h3 hFe
  · simp only [Bool.and_eq_true, beq_iff_eq,
      decide_eq_true_eq] at h2
    exact Or.inl ⟨h2.1, counted_le hLen (by decide) h2.2⟩
  · simp only [Bool.and_eq_true, beq_iff_eq,
      decide_eq_true_eq] at h3
    exact Or.inr ⟨h3.1, counted_le hLen (by decide) h3.2⟩
  · exact (hChanged rfl).elim
  · exact (hChanged rfl).elim

end Adb

------------------------------------------------------------
-- Every Other Command
------------------------------------------------------------

namespace Adb

open Clocked

variable {s : Transceiver} {i : In} {received : List Byte}

theorem keyed_registers (k : Keyboard) :
    ((keyed s k).kbdAddr, (keyed s k).kbdReg0,
      (keyed s k).kbdReg2) =
        (k.kbdAddr, k.kbdReg0, k.kbdReg2) := by
  unfold keyed
  split_ifs <;> rfl

theorem moved_mouseAddr (m : Mouse) :
    (moved s m).mouseAddr = m.mouseAddr := by
  unfold moved
  split_ifs <;> rfl

/- A Listen that has not ended leaves the registers alone. -/
theorem kbdAfter_listen
    (hListen : cmdType s.host.cmdByte = .listen) :
    kbdAfter s i =
      if finishes s i &&
          cmdAddr s.host.cmdByte == s.kbd.kbdAddr then
        kbdListen s.host s.kbd
      else s.kbd := by
  simp only [kbdAfter, kbdCommanded, hListen]
  split_ifs <;> simp_all

theorem mouseAfter_listen
    (hListen : cmdType s.host.cmdByte = .listen) :
    mouseAfter s i =
      if finishes s i &&
          cmdAddr s.host.cmdByte != s.kbd.kbdAddr &&
          cmdAddr s.host.cmdByte == s.mouse.mouseAddr then
        mouseListen s.host s.mouse
      else s.mouse := by
  simp only [mouseAfter, mouseCommanded, hListen]
  split_ifs <;> simp_all

theorem mouseListen_registers
    (m : Mouse)
    (hLen : s.host.listenLen =
      BitVec.ofNat 4 received.length)
    (hChanged : (mouseListen s.host m).mouseAddr ≠
      m.mouseAddr) :
    cmdReg s.host.cmdByte = 3#2 ∧ 2 ≤ received.length := by
  unfold mouseListen at hChanged
  split_ifs at hChanged with h3 hFe
  · simp only [Bool.and_eq_true, beq_iff_eq,
      decide_eq_true_eq] at h3
    exact ⟨h3.1, counted_le hLen (by decide) h3.2⟩
  · exact (hChanged rfl).elim
  · exact (hChanged rfl).elim

/- A Listen changes registers at its end, with its data. -/
theorem listen_ends
    (hReset : i.reset = false)
    (hLen : s.host.listenLen =
      BitVec.ofNat 4 received.length)
    (hListen : cmdType s.host.cmdByte = .listen)
    (hChanged : registers (step s i) ≠ registers s) :
    listenEnds s i received := by
  simp only [registers, step_kbd hReset, step_mouse hReset]
    at hChanged
  cases hEn : i.clkEn with
  | false =>
      simp only [hEn, Bool.false_eq_true, if_false] at hChanged
      exact (hChanged rfl).elim
  | true =>
      have hKeyed := @keyed_registers s (kbdAfter s i)
      simp only [Prod.mk.injEq] at hKeyed
      simp only [hEn, if_true, moved_mouseAddr, hKeyed]
        at hChanged
      rw [kbdAfter_listen hListen, mouseAfter_listen hListen]
        at hChanged
      cases hFinishes : finishes s i with
      | false =>
          simp only [hFinishes, Bool.false_and,
            Bool.false_eq_true, if_false] at hChanged
          exact (hChanged rfl).elim
      | true =>
          refine ⟨hEn, hFinishes, ?_⟩
          simp only [hFinishes, Bool.true_and] at hChanged
          by_cases hKbd :
              cmdAddr s.host.cmdByte = s.kbd.kbdAddr
          · apply kbdListen_registers s.kbd hLen
            intro hSame
            simp only [Prod.mk.injEq] at hSame
            exact hChanged (by simp [hKbd, hSame])
          · apply Or.inr
            apply mouseListen_registers s.mouse hLen
            intro hSame
            apply hChanged
            simp only [hKbd, beq_iff_eq]
            split_ifs <;> simp_all

/-
  A command whose type bits are right touches only what it
  is for.
-/
theorem addressed_only
    {x : Transceiver × List Byte}
    (hCounted : Counted x)
    (hRight : asReset x.1.host.cmdByte = false)
    (hReset : i.reset = false) :
    AddressedOnly x i := by
  have hType (hShort : lowNibble x.1.host.cmdByte ≠ 0#4) :
      cmdType x.1.host.cmdByte ≠ .reset := by
    rw [ne_eq, cmdType_reset_iff, hRight]
    simp [hShort]
  have hFlush : lowNibble x.1.host.cmdByte ≠ 1#4 := by
    intro hOne
    simp [asReset, hOne] at hRight
  constructor
  case kbd =>
    intro hShort hAddr
    rw [step_kbd hReset, kbdAfter_of_ne (hType hShort) hAddr,
      kbdAlone]
  case mouse =>
    intro hShort hAddr
    rw [step_mouse hReset,
      mouseAfter_of_ne (hType hShort) hAddr, mouseAlone]
  case flushKbd =>
    intro hOne
    exact (hFlush hOne).elim
  case flushMouse =>
    intro hOne
    exact (hFlush hOne).elim
  case flushAddresses =>
    intro hOne
    exact (hFlush hOne).elim
  case listen =>
    intro hListen hChanged
    exact listen_ends hReset hCounted hListen hChanged

end Adb

------------------------------------------------------------
-- Commands Carried Out as a Reset
------------------------------------------------------------

namespace Adb

open Clocked

variable {s : Transceiver} {i : In}

/- The transceiver beside the data bytes of its command. -/
def Watched (x : Transceiver × List Byte) : Prop :=
  ∃ s₀ i₀ is, x =
    run (watch step (fun g s i => noteData s i g))
      (resetState s₀ i₀, []) is

theorem counted_of_watched
    {x : Transceiver × List Byte}
    (hWatched : Watched x) :
    Counted x := by
  rcases hWatched with ⟨s₀, i₀, is, hRun⟩
  rw [hRun]
  exact invariant_always (fun y i hy => counted_step hy) is rfl

/- The host sends a command byte in the command state. -/
def sendCommand (cmd : Byte) : In :=
  { st := .command, adbDin := cmd, adbDinStrobe := true }

/- Listen register 3: the device moves to another address. -/
def sendAddress (cmd addr : Byte) : List In :=
  [sendCommand cmd,
    { st := .data1, adbDin := addr, adbDinStrobe := true },
    { st := .data2, adbDin := 0xFE#8, adbDinStrobe := true },
    { st := .command }]

/- The mouse moves to address 5 and the keyboard to 6. -/
def reassign : List In :=
  sendAddress 0x3B#8 0x05#8 ++ sendAddress 0x2B#8 0x06#8

def reassigned : Transceiver :=
  run step (resetState default {}) reassign

theorem reassigned_addresses :
    reassigned.kbd.kbdAddr = 6#4 ∧
      reassigned.mouse.mouseAddr = 5#4 := by
  decide

theorem reassigned_ready :
    reassigned.host.cmdValid = false ∧
      reassigned.host.stPrev = .command := by
  decide

/- A command byte is taken and touches neither device. -/
theorem step_sendCommand
    (cmd : Byte)
    (hIdle : s.host.cmdValid = false)
    (hState : s.host.stPrev = .command) :
    let s' := step s (sendCommand cmd)
    s'.host.cmdByte = cmd ∧ s'.host.cmdValid = true ∧
      s'.host.cmdProcessed = false ∧
      s'.kbd.kbdAddr = s.kbd.kbdAddr ∧
      s'.mouse.mouseAddr = s.mouse.mouseAddr := by
  have hFinishes : finishes s (sendCommand cmd) = false := by
    simp [finishes, hIdle]
  have hExecutes : executes s (sendCommand cmd) = false := by
    simp [executes, hIdle]
  have hKbd : (step s (sendCommand cmd)).kbd =
      keyed s s.kbd := by
    rw [step_kbd rfl, kbdAfter, hFinishes, hExecutes]
    rfl
  have hMouse : (step s (sendCommand cmd)).mouse =
      moved s s.mouse := by
    rw [step_mouse rfl, mouseAfter, hFinishes, hExecutes]
    rfl
  have hKeyed := @keyed_registers s s.kbd
  simp only [Prod.mk.injEq] at hKeyed
  have hHost : (step s (sendCommand cmd)).host =
      (tick s (sendCommand cmd)).host := rfl
  have hStay : (BusState.command != s.host.stPrev) = false := by
    simp [hState]
  simp only [hKbd, hMouse, hKeyed.1, moved_mouseAddr, hHost,
    tick, mouseArm_host, keyArm_host, listenArm, processArm,
    hExecutes, receiveArm, transitionArm, hIdle]
  simp [sendCommand, hStay]

/- A command with the type bits of a Reset resets both. -/
theorem step_asReset
    (hReset : i.reset = false)
    (hEn : i.clkEn = true)
    (hType : cmdType s.host.cmdByte = .reset)
    (hExecutes : executes s i = true) :
    (step s i).kbd.kbdAddr = addrKeyboard ∧
      (step s i).mouse.mouseAddr = addrMouse := by
  have hFinishes : finishes s i = false := by
    simp [finishes, hType]
  have hKeyed := @keyed_registers s (resetKeyboard s.kbd)
  simp only [Prod.mk.injEq] at hKeyed
  rw [step_kbd hReset, step_mouse hReset, hEn]
  simp only [if_true, moved_mouseAddr, kbdAfter, mouseAfter,
    hFinishes, Bool.false_eq_true, if_false, hExecutes,
    kbdCommanded, mouseCommanded, hType, beq_self_eq_true,
    hKeyed]
  exact ⟨rfl, rfl⟩

theorem kbdAlone_kbdAddr :
    (kbdAlone s i).kbdAddr = s.kbd.kbdAddr := by
  have hKeyed := @keyed_registers s s.kbd
  simp only [Prod.mk.injEq] at hKeyed
  unfold kbdAlone
  split_ifs
  · exact hKeyed.1
  · rfl

theorem mouseAlone_mouseAddr :
    (mouseAlone s i).mouseAddr = s.mouse.mouseAddr := by
  unfold mouseAlone
  split_ifs
  · exact moved_mouseAddr s.mouse
  · rfl

/-
  With both devices moved, a command that is no broadcast but
  is carried out as one touches a device it does not address.
-/
theorem not_addressed_of_asReset
    {x : Transceiver × List Byte}
    (hReset : i.reset = false)
    (hEn : i.clkEn = true)
    (hExecutes : executes x.1 i = true)
    (hType : cmdType x.1.host.cmdByte = .reset)
    (hShort : lowNibble x.1.host.cmdByte ≠ 0#4)
    (hKbd : x.1.kbd.kbdAddr ≠ addrKeyboard)
    (hMouse : x.1.mouse.mouseAddr ≠ addrMouse)
    (hApart : x.1.kbd.kbdAddr ≠ x.1.mouse.mouseAddr) :
    ¬ AddressedOnly x i := by
  intro hOnly
  have hGone := step_asReset hReset hEn hType hExecutes
  by_cases hAddr :
      cmdAddr x.1.host.cmdByte = x.1.kbd.kbdAddr
  · have hAlone := hOnly.mouse hShort (by rw [hAddr]; exact hApart)
    rw [hAlone, mouseAlone_mouseAddr] at hGone
    exact hMouse hGone.2
  · have hAlone := hOnly.kbd hShort hAddr
    rw [hAlone, kbdAlone_kbdAddr] at hGone
    exact hKbd hGone.1

/-
  The command bytes that touch only what they address, in
  every reachable state, are those whose low nibble is not
  1, 2 or 3.
-/
theorem addressed_only_iff
    (cmd : Byte) :
    (∀ x, Watched x → x.1.host.cmdByte = cmd →
      ∀ i : In, i.reset = false → AddressedOnly x i) ↔
        asReset cmd = false := by
  constructor
  · intro hAll
    by_contra hAs
    rw [Bool.not_eq_false] at hAs
    have hShort : lowNibble cmd ≠ 0#4 := by
      intro hZero
      simp [asReset, hZero] at hAs
    rcases reassigned_addresses with ⟨hKbd6, hMouse5⟩
    rcases step_sendCommand cmd reassigned_ready.1
      reassigned_ready.2 with
        ⟨hByte, hValid, hNew, hKbd, hMouse⟩
    let x := run (watch step (fun g s i => noteData s i g))
      (resetState default {}, [])
      (reassign ++ [sendCommand cmd])
    have hState : x.1 = step reassigned (sendCommand cmd) := by
      simp only [x, run_watch_fst, run_append]
      rfl
    have hWatched : Watched x := ⟨default, {}, _, rfl⟩
    have hOnly := hAll x hWatched (by rw [hState, hByte])
      { st := .command } rfl
    have hType : cmdType cmd = .reset :=
      (cmdType_reset_iff cmd).mpr (Or.inr hAs)
    have hExecutes :
        executes x.1 { st := .command } = true := by
      simp [executes, hState, hByte, hValid, hNew, hType]
    exact not_addressed_of_asReset rfl rfl hExecutes
      (by rw [hState, hByte, hType])
      (by rw [hState, hByte]; exact hShort)
      (by rw [hState, hKbd, hKbd6]; decide)
      (by rw [hState, hMouse, hMouse5]; decide)
      (by rw [hState, hKbd, hMouse, hKbd6, hMouse5]; decide)
      hOnly
  · intro hRight x hWatched hByte i hReset
    exact addressed_only (counted_of_watched hWatched)
      (by rw [hByte]; exact hRight) hReset

/- A Flush of the mouse at 5 moves both devices back. -/
theorem flush_resets_addresses :
    let x := run (watch step (fun g s i => noteData s i g))
      (resetState default {}, [])
      (reassign ++ [sendCommand 0x51#8])
    lowNibble x.1.host.cmdByte = 1#4 ∧
      cmdAddr x.1.host.cmdByte = x.1.mouse.mouseAddr ∧
      (step x.1 { st := .command }).mouse.mouseAddr ≠
        x.1.mouse.mouseAddr ∧
      (step x.1 { st := .command }).kbd.kbdAddr ≠
        x.1.kbd.kbdAddr ∧
      ¬ AddressedOnly x { st := .command } := by
  intro x
  have hFlush : lowNibble x.1.host.cmdByte = 1#4 := by decide
  have hMouse : (step x.1 { st := .command }).mouse.mouseAddr ≠
      x.1.mouse.mouseAddr := by decide
  refine ⟨hFlush, by decide, hMouse, by decide, ?_⟩
  intro hOnly
  exact hMouse (hOnly.flushAddresses hFlush).2

end Adb
