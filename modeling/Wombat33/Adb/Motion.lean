import Wombat33.Adb.Command

/-
  The motion of the mouse.

  A log beside the transceiver keeps the packets at the port
  and those taken in behind the synchronizer, and since the
  last poll, flush or reset the sums of their deltas.  A
  packet overwrites the motion that waits, and the squeeze to
  seven bits has holes, so the log and the mouse agree in the
  runs that keep clear of both.

  Key definitions include:
    * `saturate`
    * `MouseLog`, `noteMouse`
    * `MotionKept`, `PollReports`
    * `takesMotion`

  Key theorems include:
    * `squeezeX_iff`, `squeezeY_iff`
    * `motion_kept`
    * `second_packet_overwrites`
-/

------------------------------------------------------------
-- Seven Bits
------------------------------------------------------------

namespace Adb

/- The nearest value of seven bits. -/
def saturate (n : Int) : Int := max (-64) (min 63 n)

theorem sign_saturate (n : Int) :
    (saturate n).sign = n.sign := by
  unfold saturate
  rcases Int.lt_trichotomy n 0 with hNeg | hZero | hPos
  · rw [Int.sign_eq_neg_one_of_neg hNeg]
    exact Int.sign_eq_neg_one_of_neg (by omega)
  · subst hZero
    rfl
  · rw [Int.sign_eq_one_of_pos hPos]
    exact Int.sign_eq_one_of_pos (by omega)

theorem saturate_eq_zero {n : Int} (hZero : saturate n = 0) :
    n = 0 := by
  unfold saturate at hZero
  omega

/- Horizontal deltas that lose their size. -/
def wrapsX (raw : BitVec 9) : Bool :=
  -191 ≤ raw.toInt && raw.toInt ≤ -129

/- Vertical deltas that lose their size or their sign. -/
def wrapsY (raw : BitVec 9) : Bool :=
  raw.toInt == -192 || raw.toInt == -64 ||
    (-190 ≤ raw.toInt && raw.toInt ≤ -129)

theorem squeezeX_iff (raw : BitVec 9) :
    (squeezeX raw).toInt = saturate raw.toInt ↔
      wrapsX raw = false := by
  revert raw
  decide +kernel

theorem squeezeY_iff (raw : BitVec 9) :
    (squeezeY raw).toInt = saturate (-raw.toInt) ↔
      wrapsY raw = false := by
  revert raw
  decide +kernel

end Adb

------------------------------------------------------------
-- The Log
------------------------------------------------------------

namespace Adb

open Clocked

variable (s : Transceiver) (i : In)

structure Packet where
  dx : BitVec 9
  dy : BitVec 9
  button : Bool
  deriving DecidableEq

/- The packet at the PS/2 port. -/
def portPacket : Packet where
  dx := i.ps2Mouse.extractLsb' 4 1 ++ i.ps2Mouse.extractLsb' 8 8
  dy := i.ps2Mouse.extractLsb' 5 1 ++
    i.ps2Mouse.extractLsb' 16 8
  button := i.ps2Mouse.getLsbD 0

/- The packets in the two stages of the synchronizer. -/
def firstPacket (y : MouseSync) : Packet :=
  ⟨y.mouseXrawS1, y.mouseYrawS1, y.mouseBtnS1⟩

def secondPacket (y : MouseSync) : Packet :=
  ⟨y.mouseXrawS2, y.mouseYrawS2, y.mouseBtnS2⟩

/- A packet is on its way while a stage has yet to see it. -/
def onTheWay (y : MouseSync) : List Packet :=
  if y.mstbS1 == y.mstbD then [] else [firstPacket y]

/- The mouse is reset with all devices. -/
def resetsMouse : Bool :=
  executes s i && cmdType s.host.cmdByte == .reset

def mouseAddressed : Bool :=
  cmdAddr s.host.cmdByte != s.kbd.kbdAddr &&
    cmdAddr s.host.cmdByte == s.mouse.mouseAddr

def flushesMouse : Bool :=
  executes s i && mouseAddressed s &&
    cmdType s.host.cmdByte == .flush

/- The mouse is asked for its motion. -/
def pollsMouse : Bool :=
  executes s i && mouseAddressed s &&
    (cmdType s.host.cmdByte == .talk &&
      cmdReg s.host.cmdByte == 0#2)

def clearsMotion : Bool :=
  resetsMouse s i || flushesMouse s i || pollsMouse s i

/-
  The packets since reset, sent and taken in; since the last
  poll, flush or reset the sums of the deltas and whether the
  mouse moved or its button changed; and its button.
-/
structure MouseLog where
  sent : List Packet
  taken : List Packet
  sumX : Int
  sumY : Int
  button : Bool
  event : Bool

def noMotion : MouseLog := ⟨[], [], 0, 0, false, false⟩

def MouseLog.clear (g : MouseLog) : MouseLog :=
  { g with sumX := 0, sumY := 0, event := false }

/- A packet without motion or a change of the button is void. -/
def MouseLog.add (g : MouseLog) (p : Packet) (void : Bool) :
    MouseLog :=
  if void then g
  else
    { g with
      sumX := g.sumX + p.dx.toInt
      sumY := g.sumY - p.dy.toInt
      button := p.button
      event := true }

def voidPacket (g : MouseLog) (p : Packet) : Bool :=
  p.dx == 0#9 && p.dy == 0#9 && p.button == g.button

/- The log after the command of an edge. -/
def clearedLog (g : MouseLog) : MouseLog :=
  if resetsMouse s i then { g.clear with button := false }
  else if clearsMotion s i then g.clear
  else g

/- The log after an enabled edge, with its packet. -/
def noteTick (g : MouseLog) : MouseLog :=
  let p := secondPacket s.mouseSync
  if mouseStrobe s then
    { (clearedLog s i g).add p (voidPacket g p) with
      taken := g.taken ++ [p] }
  else clearedLog s i g

def noteMouse (g : MouseLog) : MouseLog :=
  if i.reset then noMotion
  else
    { (if i.clkEn then noteTick s i g else g) with
      sent := g.sent ++
        (if i.ps2Mouse.getLsbD 24 != s.mouseSync.mstbS1 then
          [portPacket i]
        else []) }

/-
  Each packet sent is taken in once, in order, or still on its
  way; the mouse holds the sums of the deltas, saturated, with
  their signs, and the last button.
-/
structure MotionKept (x : Transceiver × MouseLog) : Prop where
  packets : x.2.sent = x.2.taken ++ onTheWay x.1.mouseSync
  motionX : x.1.mouse.mouseX.toInt = saturate x.2.sumX
  motionY : x.1.mouse.mouseY.toInt = saturate x.2.sumY
  signX : x.1.mouse.mouseX.toInt.sign = x.2.sumX.sign
  signY : x.1.mouse.mouseY.toInt.sign = x.2.sumY.sign
  button : x.1.mouse.mouseButton = x.2.button
  event : x.1.mouse.mouseHasEvent = x.2.event

/- A poll returns the button and the saturated sums. -/
def PollReports (x : Transceiver × MouseLog) (i : In) : Prop :=
  i.reset = false → i.clkEn = true →
    pollsMouse x.1 i = true →
      responseBytes (step x.1 i).host =
        if x.2.event then
          [BitVec.ofBool (!x.2.button) ++
              BitVec.ofInt 7 (saturate x.2.sumY),
            1#1 ++ BitVec.ofInt 7 (saturate x.2.sumX)]
        else []

/-
  The port holds its packet until it is taken in; a packet
  with motion or a change is taken in while no motion waits,
  or as the motion is polled or cleared, and neither of its
  deltas wraps.
-/
def takesMotion : Bool :=
  i.reset ||
    (s.mouseSync.mstbS1 == s.mouseSync.mstbD ||
      portPacket i == firstPacket s.mouseSync &&
        i.ps2Mouse.getLsbD 24 == s.mouseSync.mstbS1) &&
    (!i.clkEn || !mouseEvent s ||
      (clearsMotion s i ||
        s.mouse.mouseX == 0#7 && s.mouse.mouseY == 0#7) &&
      !wrapsX s.mouseSync.mouseXrawS2 &&
      !wrapsY s.mouseSync.mouseYrawS2)

end Adb

------------------------------------------------------------
-- The Synchronizer
------------------------------------------------------------

namespace Adb

/- The stages see a packet one after the other. -/
structure SyncInv
    (y : MouseSync)
    (sent taken : List Packet) : Prop where
  second : y.mstbS1 = y.mstbD → y.mstbS2 = y.mstbD
  third : y.mstbS2 = y.mstbD → y.mstbS3 = y.mstbD
  held : y.mstbS2 ≠ y.mstbD → secondPacket y = firstPacket y
  packets : sent = taken ++ onTheWay y

variable {y : MouseSync} {i : In} {sent taken : List Packet}

theorem syncInv_reset (i : In) :
    SyncInv (mouseSyncReset i) [] [] where
  second _ := rfl
  third _ := rfl
  held hNe := (hNe rfl).elim
  packets := by simp [onTheWay, mouseSyncReset]

theorem secondPacket_next :
    secondPacket (mouseSyncNext y i) = firstPacket y := rfl

theorem onTheWay_of_rest
    (hRest : y.mstbS1 = y.mstbD) :
    onTheWay y = [] := by
  simp [onTheWay, hRest]

theorem onTheWay_of_ne
    (hNe : y.mstbS1 ≠ y.mstbD) :
    onTheWay y = [firstPacket y] := by
  simp [onTheWay, hNe]

/- At rest, a toggle at the port sends its packet. -/
theorem syncInv_rest
    (hInv : SyncInv y sent taken)
    (hRest : y.mstbS1 = y.mstbD) :
    SyncInv (mouseSyncNext y i)
        (sent ++
          if i.ps2Mouse.getLsbD 24 != y.mstbS1 then
            [portPacket i] else []) taken ∧
      y.mstbS3 = y.mstbD := by
  have hSecond := hInv.second hRest
  have hThird := hInv.third hSecond
  have hD : (mouseSyncNext y i).mstbD = y.mstbD := by
    simp only [mouseSyncNext, hThird, ite_self]
  have hS2 : (mouseSyncNext y i).mstbS2 = y.mstbD := hRest
  have hS3 : (mouseSyncNext y i).mstbS3 = y.mstbD := hSecond
  refine ⟨?_, hThird⟩
  constructor
  case second => exact fun _ => hS2.trans hD.symm
  case third => exact fun _ => hS3.trans hD.symm
  case held => exact fun hNe => (hNe (hS2.trans hD.symm)).elim
  case packets =>
    rw [hInv.packets, onTheWay_of_rest hRest, List.append_nil]
    by_cases hBit : i.ps2Mouse.getLsbD 24 = y.mstbS1
    · rw [onTheWay_of_rest ((hBit.trans hRest).trans hD.symm)]
      rw [hBit, bne_self_eq_false, if_neg Bool.false_ne_true]
    · rw [onTheWay_of_ne]
      · rw [if_pos (bne_iff_ne.mpr hBit)]
        rfl
      · rw [hD, ← hRest]
        exact hBit

/- On its way, a held packet is taken in once it is through. -/
theorem syncInv_moves
    (hInv : SyncInv y sent taken)
    (hNe : y.mstbS1 ≠ y.mstbD)
    (hPort : portPacket i = firstPacket y)
    (hBit : i.ps2Mouse.getLsbD 24 = y.mstbS1) :
    SyncInv (mouseSyncNext y i) sent
      (taken ++
        if i.clkEn && y.mstbD != y.mstbS3 then
          [secondPacket y] else []) := by
  have hS1 : (mouseSyncNext y i).mstbS1 = y.mstbS1 := hBit
  have hS2 : (mouseSyncNext y i).mstbS2 = y.mstbS1 := rfl
  have hS3 : (mouseSyncNext y i).mstbS3 = y.mstbS2 := rfl
  have hPacket : firstPacket (mouseSyncNext y i) =
      firstPacket y := hPort
  have hSent := hInv.packets
  rw [onTheWay_of_ne hNe] at hSent
  have hOther (b : Bool) (hb : b ≠ y.mstbD) : b = y.mstbS1 := by
    cases b <;> cases hD : y.mstbD <;>
      cases h1 : y.mstbS1 <;> simp_all
  cases hTakes : i.clkEn && y.mstbD != y.mstbS3 with
  | true =>
      rw [Bool.and_eq_true, bne_iff_ne] at hTakes
      have hThrough : y.mstbS3 = y.mstbS1 :=
        hOther _ (Ne.symm hTakes.2)
      have hReached : y.mstbS2 ≠ y.mstbD := by
        intro hEq
        exact hTakes.2 (hInv.third hEq).symm
      have hD : (mouseSyncNext y i).mstbD = y.mstbS1 := by
        simp only [mouseSyncNext, hTakes.1, if_true, hThrough]
      constructor
      case second => exact fun _ => hS2.trans hD.symm
      case third =>
        intro _
        rw [hS3, hD]
        exact hOther _ hReached
      case held => exact fun h => (h (hS2.trans hD.symm)).elim
      case packets =>
        rw [hSent, if_pos rfl, hInv.held hReached,
          onTheWay_of_rest (hS1.trans hD.symm), List.append_nil]
  | false =>
      have hD : (mouseSyncNext y i).mstbD = y.mstbD := by
        cases hEn : i.clkEn with
        | false => simp [mouseSyncNext, hEn]
        | true =>
            rw [hEn, Bool.true_and, bne_eq_false_iff_eq]
              at hTakes
            simp [mouseSyncNext, hEn, hTakes]
      constructor
      case second =>
        rw [hS1, hD]
        exact fun h => (hNe h).elim
      case third =>
        rw [hS2, hD]
        exact fun h => (hNe h).elim
      case held =>
        intro _
        rw [secondPacket_next, hPacket]
      case packets =>
        rw [hSent, if_neg Bool.false_ne_true, List.append_nil,
          onTheWay_of_ne (by rw [hS1, hD]; exact hNe), hPacket]

/- The port's packet passes the stages and is taken in once. -/
theorem syncInv_step
    (hInv : SyncInv y sent taken)
    (hHeld : y.mstbS1 = y.mstbD ∨
      (portPacket i = firstPacket y ∧
        i.ps2Mouse.getLsbD 24 = y.mstbS1)) :
    SyncInv (mouseSyncNext y i)
      (sent ++
        if i.ps2Mouse.getLsbD 24 != y.mstbS1 then
          [portPacket i] else [])
      (taken ++
        if i.clkEn && y.mstbD != y.mstbS3 then
          [secondPacket y] else []) := by
  by_cases hRest : y.mstbS1 = y.mstbD
  · rcases @syncInv_rest y i sent taken hInv hRest with
      ⟨hNext, hThird⟩
    simpa [hThird] using hNext
  · rcases hHeld with hEq | ⟨hPort, hBit⟩
    · exact (hRest hEq).elim
    · have hNext := syncInv_moves hInv hRest hPort hBit
      rw [hBit, bne_self_eq_false, if_neg Bool.false_ne_true,
        List.append_nil]
      exact hNext

end Adb

------------------------------------------------------------
-- The Sums
------------------------------------------------------------

namespace Adb

/- The mouse holds what the log has summed up. -/
structure Agrees (m : Mouse) (g : MouseLog) : Prop where
  motionX : m.mouseX.toInt = saturate g.sumX
  motionY : m.mouseY.toInt = saturate g.sumY
  button : m.mouseButton = g.button
  event : m.mouseHasEvent = g.event
  still : g.event = false → g.sumX = 0 ∧ g.sumY = 0

variable {s : Transceiver} {i : In} {g : MouseLog} {m : Mouse}

theorem agrees_clear
    (hX : m.mouseX = 0#7)
    (hY : m.mouseY = 0#7)
    (hEvent : m.mouseHasEvent = false)
    (hButton : m.mouseButton = g.button) :
    Agrees m g.clear where
  motionX := by rw [hX]; rfl
  motionY := by rw [hY]; rfl
  button := hButton
  event := hEvent
  still _ := ⟨rfl, rfl⟩

/- Without an event no motion waits. -/
theorem still_of_agrees
    (hAgrees : Agrees m g)
    (hEvent : m.mouseHasEvent = false) :
    m.mouseX = 0#7 ∧ m.mouseY = 0#7 := by
  have hSums := hAgrees.still (hAgrees.event.symm.trans hEvent)
  have hX := hAgrees.motionX
  have hY := hAgrees.motionY
  rw [hSums.1] at hX
  rw [hSums.2] at hY
  exact ⟨BitVec.eq_of_toInt_eq hX, BitVec.eq_of_toInt_eq hY⟩

/- A packet added to no motion is its own sum. -/
theorem agrees_add
    (hAgrees : Agrees m g)
    (hX : m.mouseX = 0#7)
    (hY : m.mouseY = 0#7)
    (hEvent : mouseEvent s = true)
    (hWrapsX : wrapsX s.mouseSync.mouseXrawS2 = false)
    (hWrapsY : wrapsY s.mouseSync.mouseYrawS2 = false) :
    Agrees (moved s m)
      (g.add (secondPacket s.mouseSync) false) := by
  have hSumX : g.sumX = 0 := by
    apply saturate_eq_zero
    rw [← hAgrees.motionX, hX]
    rfl
  have hSumY : g.sumY = 0 := by
    apply saturate_eq_zero
    rw [← hAgrees.motionY, hY]
    rfl
  unfold moved
  rw [if_pos hEvent]
  constructor
  case motionX =>
    have hSqueeze := (squeezeX_iff _).mpr hWrapsX
    simpa [MouseLog.add, secondPacket, hSumX] using hSqueeze
  case motionY =>
    have hSqueeze := (squeezeY_iff _).mpr hWrapsY
    simpa [MouseLog.add, secondPacket, hSumY] using hSqueeze
  case button => rfl
  case event => rfl
  case still => exact fun hNone => Bool.noConfusion hNone

/- The mouse after the command of an edge. -/
theorem mouseAfter_of_resets
    (hResets : resetsMouse s i = true) :
    mouseAfter s i = resetMouse := by
  simp only [resetsMouse, Bool.and_eq_true, beq_iff_eq]
    at hResets
  have hFinishes : finishes s i = false := by
    simp [finishes, hResets.2]
  simp [mouseAfter, hFinishes, hResets.1, mouseCommanded,
    hResets.2]

theorem mouseAfter_of_flushes
    (hFlushes : flushesMouse s i = true) :
    mouseAfter s i =
      { s.mouse with
        mouseX := 0#7, mouseY := 0#7
        mouseHasEvent := false } := by
  simp only [flushesMouse, mouseAddressed, Bool.and_eq_true,
    bne_iff_ne, beq_iff_eq] at hFlushes
  rcases hFlushes with ⟨⟨hExecutes, hKbd, hMouse⟩, hType⟩
  have hFinishes : finishes s i = false := by
    simp [finishes, hType]
  rw [hMouse] at hKbd
  simp [mouseAfter, hFinishes, hExecutes, mouseCommanded,
    hType, hKbd, hMouse]

theorem mouseAfter_of_polls
    (hPolls : pollsMouse s i = true) :
    mouseAfter s i =
      if s.mouse.mouseHasEvent then
        { s.mouse with
          mouseX := 0#7, mouseY := 0#7
          mouseHasEvent := false }
      else s.mouse := by
  simp only [pollsMouse, mouseAddressed, Bool.and_eq_true,
    bne_iff_ne, beq_iff_eq] at hPolls
  rcases hPolls with ⟨⟨hExecutes, hKbd, hMouse⟩, hType, hReg⟩
  have hFinishes : finishes s i = false := by
    simp [finishes, hType]
  rw [hMouse] at hKbd
  simp [mouseAfter, hFinishes, hExecutes, mouseCommanded,
    hType, hKbd, hMouse, mouseTalk, hReg,
    apply_ite Transceiver.mouse]

/- The motion that waits, with the button. -/
def mouseMotion (m : Mouse) :
    BitVec 7 × BitVec 7 × Bool × Bool :=
  (m.mouseX, m.mouseY, m.mouseButton, m.mouseHasEvent)

theorem mouseListen_motion (h : Host) (m : Mouse) :
    mouseMotion (mouseListen h m) = mouseMotion m := by
  unfold mouseListen
  split_ifs <;> rfl

theorem mouseTalk_motion
    (hReg : (cmdReg s.host.cmdByte == 0#2) = false) :
    mouseMotion (mouseTalk s s).mouse =
      mouseMotion s.mouse := by
  unfold mouseTalk
  simp only [hReg, Bool.false_eq_true, if_false]
  split_ifs <;> rfl

theorem mouseCommanded_of_not_addressed
    {finish : Bool}
    (hType : (cmdType s.host.cmdByte == .reset) = false)
    (hNot : mouseAddressed s = false) :
    mouseCommanded s finish = s.mouse := by
  simp only [mouseAddressed, Bool.and_eq_false_iff,
    bne_eq_false_iff_eq, beq_eq_false_iff_ne] at hNot
  unfold mouseCommanded
  simp only [hType, Bool.false_eq_true, if_false]
  rcases hNot with hKbd | hMouse
  · simp [hKbd]
  · simp [hMouse]

/- A Listen moves the mouse to another address, no more. -/
theorem mouseCommanded_listen_motion
    {finish : Bool}
    (hListen : cmdType s.host.cmdByte = .listen) :
    mouseMotion (mouseCommanded s finish) =
      mouseMotion s.mouse := by
  simp only [mouseCommanded, hListen]
  split_ifs <;> simp_all [mouseListen_motion]

/- No other command touches the motion. -/
theorem mouseAfter_of_not_clears
    (hKept : clearsMotion s i = false) :
    mouseMotion (mouseAfter s i) = mouseMotion s.mouse := by
  unfold mouseAfter
  split_ifs with hFinishes hExecutes
  · apply mouseCommanded_listen_motion
    simp only [finishes, Bool.and_eq_true, beq_iff_eq]
      at hFinishes
    exact hFinishes.2.1.2
  · simp only [clearsMotion, resetsMouse, flushesMouse,
      pollsMouse, hExecutes, Bool.true_and,
      Bool.or_eq_false_iff] at hKept
    rcases hKept with ⟨⟨hReset, hFlush⟩, hPoll⟩
    cases hAddr : mouseAddressed s with
    | false =>
        rw [mouseCommanded_of_not_addressed hReset hAddr]
    | true =>
        have hMatch := hAddr
        simp only [mouseAddressed, Bool.and_eq_true,
          bne_iff_ne, beq_iff_eq] at hMatch
        rcases hMatch with ⟨hKbd, hMouse⟩
        rw [hMouse] at hKbd
        cases hType : cmdType s.host.cmdByte with
        | reset => simp [hType] at hReset
        | flush => simp [hType, hAddr] at hFlush
        | listen => exact mouseCommanded_listen_motion hType
        | talk =>
            have hReg :
                (cmdReg s.host.cmdByte == 0#2) = false := by
              simpa [hType, hAddr] using hPoll
            rw [← mouseTalk_motion hReg]
            simp [mouseCommanded, hType, hMouse, hKbd]
  · rfl

end Adb

------------------------------------------------------------
-- Runs With Room for the Motion
------------------------------------------------------------

namespace Adb

open Clocked

variable {s : Transceiver} {i : In} {g : MouseLog}

theorem agrees_of_motion
    {m m' : Mouse}
    (hSame : mouseMotion m' = mouseMotion m)
    (hAgrees : Agrees m g) :
    Agrees m' g := by
  simp only [mouseMotion, Prod.mk.injEq] at hSame
  rcases hSame with ⟨hX, hY, hButton, hEvent⟩
  constructor
  case motionX => rw [hX, hAgrees.motionX]
  case motionY => rw [hY, hAgrees.motionY]
  case button => rw [hButton, hAgrees.button]
  case event => rw [hEvent, hAgrees.event]
  case still => exact hAgrees.still

/- What was taken in does not matter to the sums. -/
theorem agrees_taken
    {m : Mouse}
    {taken : List Packet}
    (hAgrees : Agrees m g) :
    Agrees m { g with taken := taken } where
  motionX := hAgrees.motionX
  motionY := hAgrees.motionY
  button := hAgrees.button
  event := hAgrees.event
  still := hAgrees.still

theorem agrees_sent
    {m : Mouse}
    {sent : List Packet}
    (hAgrees : Agrees m g) :
    Agrees m { g with sent := sent } where
  motionX := hAgrees.motionX
  motionY := hAgrees.motionY
  button := hAgrees.button
  event := hAgrees.event
  still := hAgrees.still

/- The command leaves mouse and log in agreement. -/
theorem agrees_command (hAgrees : Agrees s.mouse g) :
    Agrees (mouseAfter s i) (clearedLog s i g) := by
  unfold clearedLog
  split_ifs with hResets hClears
  · rw [mouseAfter_of_resets hResets]
    exact agrees_clear (g := { g with button := false })
      rfl rfl rfl rfl
  · simp only [clearsMotion, Bool.or_eq_true] at hClears
    rcases hClears with (hReset | hFlush) | hPoll
    · exact (hResets hReset).elim
    · rw [mouseAfter_of_flushes hFlush]
      exact agrees_clear rfl rfl rfl hAgrees.button
    · rw [mouseAfter_of_polls hPoll]
      split_ifs with hEvent
      · exact agrees_clear rfl rfl rfl hAgrees.button
      · rw [Bool.not_eq_true] at hEvent
        rcases still_of_agrees hAgrees hEvent with ⟨hX, hY⟩
        exact agrees_clear hX hY hEvent hAgrees.button
  · rw [Bool.not_eq_true] at hClears
    exact agrees_of_motion (mouseAfter_of_not_clears hClears)
      hAgrees

/- Once cleared, no motion waits. -/
theorem still_of_clears
    (hAgrees : Agrees s.mouse g)
    (hClears : clearsMotion s i = true) :
    (mouseAfter s i).mouseX = 0#7 ∧
      (mouseAfter s i).mouseY = 0#7 := by
  apply still_of_agrees (@agrees_command s i g hAgrees)
  rw [(@agrees_command s i g hAgrees).event, clearedLog]
  split_ifs <;> rfl

theorem mouseEvent_eq (hAgrees : Agrees s.mouse g) :
    mouseEvent s =
      (mouseStrobe s &&
        !voidPacket g (secondPacket s.mouseSync)) := by
  simp only [mouseEvent, voidPacket, secondPacket,
    hAgrees.button]
  cases mouseStrobe s <;> simp [Bool.or_assoc, bne]

/- An enabled edge that takes the motion in keeps agreement. -/
theorem agrees_tick
    (hAgrees : Agrees s.mouse g)
    (hTakes : mouseEvent s = true →
      (clearsMotion s i = true ∨
        (s.mouse.mouseX = 0#7 ∧ s.mouse.mouseY = 0#7)) ∧
      wrapsX s.mouseSync.mouseXrawS2 = false ∧
      wrapsY s.mouseSync.mouseYrawS2 = false) :
    Agrees (moved s (mouseAfter s i)) (noteTick s i g) := by
  have hCommand := @agrees_command s i g hAgrees
  have hEventEq := mouseEvent_eq hAgrees
  unfold noteTick
  cases hEvent : mouseEvent s with
  | false =>
      have hMoved : moved s (mouseAfter s i) =
          mouseAfter s i := by
        simp [moved, hEvent]
      rw [hMoved]
      split_ifs with hStrobe
      · rw [hEvent, hStrobe, Bool.true_and, eq_comm,
          Bool.not_eq_false'] at hEventEq
        simp only [hEventEq]
        exact agrees_taken hCommand
      · exact hCommand
  | true =>
      rw [hEvent, eq_comm, Bool.and_eq_true,
        Bool.not_eq_true'] at hEventEq
      rcases hEventEq with ⟨hStrobe, hVoid⟩
      rcases hTakes hEvent with ⟨hStill, hX, hY⟩
      have hZero : (mouseAfter s i).mouseX = 0#7 ∧
          (mouseAfter s i).mouseY = 0#7 := by
        cases hClears : clearsMotion s i with
        | true => exact still_of_clears hAgrees hClears
        | false =>
            have hSame := mouseAfter_of_not_clears hClears
            simp only [mouseMotion, Prod.mk.injEq] at hSame
            rw [hSame.1, hSame.2.1]
            rcases hStill with hTrue | hWaits
            · rw [hClears] at hTrue
              exact Bool.noConfusion hTrue
            · exact hWaits
      rw [if_pos hStrobe]
      simp only [hVoid]
      exact agrees_taken
        (agrees_add hCommand hZero.1 hZero.2 hEvent hX hY)

/- What a poll leaves to the host. -/
theorem processCommand_poll
    {n : Transceiver}
    (hPolls : pollsMouse s i = true) :
    (processCommand s n false).host =
      processed (mouseTalk s
        { n with
          host := { n.host with
            respLen := 0#4, respIdx := 0#4 } }).host := by
  simp only [pollsMouse, mouseAddressed, Bool.and_eq_true,
    bne_iff_ne, beq_iff_eq] at hPolls
  rcases hPolls with ⟨⟨-, hKbd, hMouse⟩, hType, -⟩
  rw [hMouse] at hKbd
  simp [processCommand, hType, hMouse, hKbd, mouseCommand]

theorem pollReports
    (hAgrees : Agrees s.mouse g) :
    PollReports (s, g) i := by
  intro hReset hEn hPolls
  have hReg : cmdReg s.host.cmdByte = 0#2 := by
    simp only [pollsMouse, Bool.and_eq_true, beq_iff_eq]
      at hPolls
    exact hPolls.2.2
  have hExecutes : executes s i = true := by
    simp only [pollsMouse, Bool.and_eq_true] at hPolls
    exact hPolls.1.1
  have hStep : (step s i).host = (tick s i).host := by
    simp [step, hReset, hEn]
  rw [hStep, tick_host_of_executes hExecutes,
    processCommand_poll hPolls]
  have hX : BitVec.ofInt 7 (saturate g.sumX) =
      s.mouse.mouseX := by
    rw [← hAgrees.motionX, BitVec.ofInt_toInt]
  have hY : BitVec.ofInt 7 (saturate g.sumY) =
      s.mouse.mouseY := by
    rw [← hAgrees.motionY, BitVec.ofInt_toInt]
  simp only [hX, hY, ← hAgrees.button, ← hAgrees.event,
    mouseTalk, hReg, beq_self_eq_true, if_true]
  split_ifs <;> rfl

/- The agreement of a state, and its packets. -/
structure MotionInv (x : Transceiver × MouseLog) : Prop where
  sync : SyncInv x.1.mouseSync x.2.sent x.2.taken
  agrees : Agrees x.1.mouse x.2

/- The transceiver beside its log. -/
abbrev mouseWatch :
    Transceiver × MouseLog → In → Transceiver × MouseLog :=
  watch step (fun g s i => noteMouse s i g)

variable {x : Transceiver × MouseLog}

theorem motionKept_of_inv (hInv : MotionInv x) :
    MotionKept x where
  packets := hInv.sync.packets
  motionX := hInv.agrees.motionX
  motionY := hInv.agrees.motionY
  signX := by rw [hInv.agrees.motionX, sign_saturate]
  signY := by rw [hInv.agrees.motionY, sign_saturate]
  button := hInv.agrees.button
  event := hInv.agrees.event

theorem clearedLog_packets :
    (clearedLog s i g).sent = g.sent ∧
      (clearedLog s i g).taken = g.taken := by
  unfold clearedLog
  split_ifs <;> exact ⟨rfl, rfl⟩

theorem add_packets
    (p : Packet)
    (void : Bool) :
    (g.add p void).sent = g.sent ∧
      (g.add p void).taken = g.taken := by
  unfold MouseLog.add
  split_ifs <;> exact ⟨rfl, rfl⟩

/- An enabled edge takes in the packet it sees, once. -/
theorem noteTick_packets :
    (noteTick s i g).sent = g.sent ∧
      (noteTick s i g).taken = g.taken ++
        if mouseStrobe s then [secondPacket s.mouseSync]
        else [] := by
  have hCleared := @clearedLog_packets s i g
  unfold noteTick
  split_ifs
  · refine ⟨?_, rfl⟩
    simp only [(add_packets _ _).1, hCleared.1]
  · rw [List.append_nil]
    exact hCleared

theorem motionInv_reset (s : Transceiver) (i : In) :
    MotionInv (resetState s i, noMotion) where
  sync := syncInv_reset i
  agrees := agrees_clear (g := noMotion) rfl rfl rfl rfl

/- What a step that takes the motion in has checked. -/
theorem takesMotion_held
    (hReset : i.reset = false)
    (hTakes : takesMotion s i = true) :
    s.mouseSync.mstbS1 = s.mouseSync.mstbD ∨
      (portPacket i = firstPacket s.mouseSync ∧
        i.ps2Mouse.getLsbD 24 = s.mouseSync.mstbS1) := by
  simp only [takesMotion, hReset, Bool.false_or,
    Bool.and_eq_true, Bool.or_eq_true, beq_iff_eq] at hTakes
  exact hTakes.1

theorem takesMotion_room
    (hReset : i.reset = false)
    (hEn : i.clkEn = true)
    (hTakes : takesMotion s i = true)
    (hEvent : mouseEvent s = true) :
    (clearsMotion s i = true ∨
      (s.mouse.mouseX = 0#7 ∧ s.mouse.mouseY = 0#7)) ∧
      wrapsX s.mouseSync.mouseXrawS2 = false ∧
      wrapsY s.mouseSync.mouseYrawS2 = false := by
  simp only [takesMotion, hReset, hEn, hEvent, Bool.false_or,
    Bool.not_true, Bool.and_eq_true, Bool.or_eq_true,
    beq_iff_eq, Bool.not_eq_true'] at hTakes
  exact ⟨hTakes.2.1.1, hTakes.2.1.2, hTakes.2.2⟩

/- A step that takes the motion in keeps the agreement. -/
theorem motionInv_step
    (hInv : MotionInv x)
    (hTakes : takesMotion x.1 i = true) :
    MotionInv (mouseWatch x i) := by
  rcases x with ⟨s, g⟩
  cases hReset : i.reset with
  | true =>
      have hStep : step s i = resetState s i := by
        simp [step, hReset]
      have hNote : noteMouse s i g = noMotion := by
        simp [noteMouse, hReset]
      show MotionInv (step s i, noteMouse s i g)
      rw [hStep, hNote]
      exact motionInv_reset s i
  | false =>
      have hSync :=
        syncInv_step hInv.sync (takesMotion_held hReset hTakes)
      have hNext : (step s i).mouseSync =
          mouseSyncNext s.mouseSync i := by
        simp [step, hReset]
      have hMouse := @step_mouse s i hReset
      have hNote : noteMouse s i g =
          { (if i.clkEn then noteTick s i g else g) with
            sent := g.sent ++
              (if i.ps2Mouse.getLsbD 24 != s.mouseSync.mstbS1
                then [portPacket i] else []) } := by
        simp [noteMouse, hReset]
      show MotionInv (step s i, noteMouse s i g)
      rw [hNote]
      cases hEn : i.clkEn with
      | false =>
          rw [hEn, Bool.false_and, if_neg Bool.false_ne_true,
            List.append_nil, ← hNext] at hSync
          rw [hEn, if_neg Bool.false_ne_true] at hMouse
          exact ⟨hSync, agrees_sent (by
            rw [hMouse]; exact hInv.agrees)⟩
      | true =>
          rw [hEn, Bool.true_and, ← hNext] at hSync
          rw [hEn, if_pos rfl] at hMouse
          have hTick := agrees_tick hInv.agrees
            (takesMotion_room hReset hEn hTakes)
          have hTaken := (@noteTick_packets s i g).2
          refine ⟨?_, agrees_sent (by rw [hMouse]; exact hTick)⟩
          simp only [if_true, hTaken]
          exact hSync

/-
  In a run whose steps all take the motion in, every packet
  is taken in once and in order, the mouse holds the sums in
  every state, and every poll reports them.
-/
theorem motion_kept
    (s₀ : Transceiver)
    (i₀ : In)
    (is : List In)
    (hTakes : Along step (fun s i => takesMotion s i = true)
      (resetState s₀ i₀) is) :
    Always mouseWatch MotionKept
        (resetState s₀ i₀, noMotion) is ∧
      Along mouseWatch PollReports
        (resetState s₀ i₀, noMotion) is := by
  have hWatched := (along_watch step
    (fun g s i => noteMouse s i g)
    (fun s i => takesMotion s i = true)
    (resetState s₀ i₀, noMotion) is).mpr hTakes
  have hStart := motionInv_reset s₀ i₀
  constructor
  · apply always_mono (fun _ hInv => motionKept_of_inv hInv)
    exact always_of_along
      (fun _ _ hInv hOk => motionInv_step hInv hOk)
      hWatched hStart
  · exact along_of_invariant
      (fun _ _ hInv hOk => motionInv_step hInv hOk)
      (fun _ _ hInv _ => pollReports hInv.agrees)
      hWatched hStart

/- A packet on the port, held until it is taken in. -/
def packetWord
    (toggle : Bool)
    (dx dy : BitVec 9)
    (button : Bool) : BitVec 25 :=
  BitVec.ofBool toggle ++ dy.extractLsb' 0 8 ++
    dx.extractLsb' 0 8 ++ 0#2 ++ dy.extractLsb' 8 1 ++
    dx.extractLsb' 8 1 ++ 0#3 ++ BitVec.ofBool button

def hold (word : BitVec 25) : List In :=
  List.replicate 4 { ps2Mouse := word }

/- One packet, and a poll that takes its motion. -/
def packetAndPoll : List In :=
  let word := packetWord true 0x005#9 0x003#9 true
  hold word ++
    [{ ps2Mouse := word, st := .command, adbDin := 0x3C#8
       adbDinStrobe := true },
      { ps2Mouse := word, st := .command }]

theorem motion_kept_poll :
    Always mouseWatch MotionKept
        (resetState default {}, noMotion) packetAndPoll ∧
      Along mouseWatch PollReports
        (resetState default {}, noMotion) packetAndPoll :=
  motion_kept default {} packetAndPoll (by decide +kernel)

/-
  Five to the right and three to the left come out as three to
  the left; sixty-four down comes out as sixty-four up.
-/
theorem second_packet_overwrites :
    let x := run mouseWatch (resetState default {}, noMotion)
      (hold (packetWord true 0x005#9 0#9 false) ++
        hold (packetWord false 0x1FD#9 0#9 false))
    let y := run mouseWatch (resetState default {}, noMotion)
      (hold (packetWord true 0#9 0x1C0#9 false))
    (x.2.sumX = 2 ∧ x.1.mouse.mouseX.toInt = -3 ∧
        ¬ MotionKept x) ∧
      (y.2.sumY = 64 ∧ y.1.mouse.mouseY.toInt = -64 ∧
        ¬ MotionKept y) := by
  intro x y
  have hSumX : x.2.sumX = 2 := by decide +kernel
  have hX : x.1.mouse.mouseX.toInt = -3 := by decide +kernel
  have hSumY : y.2.sumY = 64 := by decide +kernel
  have hY : y.1.mouse.mouseY.toInt = -64 := by decide +kernel
  refine ⟨⟨hSumX, hX, ?_⟩, hSumY, hY, ?_⟩
  · intro hKept
    have hSign := hKept.signX
    rw [hSumX, hX] at hSign
    revert hSign
    decide
  · intro hKept
    have hSign := hKept.signY
    rw [hSumY, hY] at hSign
    revert hSign
    decide

end Adb
