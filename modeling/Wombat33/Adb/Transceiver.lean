import Mathlib.Logic.Function.Basic

/-
  The ADB transceiver `adb`.

  The host moves the bus through its four states and writes
  command and data bytes; the keyboard and the mouse are
  emulated inside.  The whole of the state machine is clocked
  by `clk_en`; only the input synchronizers run freely.

  Key definitions include:
    * `Keyboard`, `Mouse`, `Host`, `Transceiver`
    * `processCommand`
    * `tick`, `step`
-/

------------------------------------------------------------
-- State
------------------------------------------------------------

namespace Adb

abbrev Byte := BitVec 8

/- The bus states of `st`. -/
inductive BusState where
  | command
  | data1
  | data2
  | idle
  deriving DecidableEq, Repr, Inhabited

structure Keyboard where
  kbdAddr : BitVec 4
  kbdReg0 : BitVec 16
  kbdReg2 : BitVec 16
  kbdFifo : BitVec 3 → Byte
  kbdFifoRd : BitVec 3
  kbdFifoWr : BitVec 3
  deriving Inhabited

structure Mouse where
  mouseAddr : BitVec 4
  mouseX : BitVec 7
  mouseY : BitVec 7
  mouseButton : Bool
  mouseHasEvent : Bool
  deriving DecidableEq, Inhabited

/- The host's side: the command, its data and the response. -/
structure Host where
  stPrev : BusState
  cmdByte : Byte
  cmdValid : Bool
  cmdProcessed : Bool
  response : BitVec 3 → Byte
  respLen : BitVec 4
  respIdx : BitVec 4
  listenData : BitVec 3 → Byte
  listenLen : BitVec 4
  listen : Bool
  adbDout : Byte
  adbDoutStrobe : Bool
  deriving Inhabited

structure MouseSync where
  mstbS1 : Bool
  mstbS2 : Bool
  mstbS3 : Bool
  mstbD : Bool
  mouseXrawS1 : BitVec 9
  mouseXrawS2 : BitVec 9
  mouseYrawS1 : BitVec 9
  mouseYrawS2 : BitVec 9
  mouseBtnS1 : Bool
  mouseBtnS2 : Bool
  deriving DecidableEq, Inhabited

structure KeySync where
  kstbS1 : Bool
  kstbS2 : Bool
  kstbS3 : Bool
  kstb : Bool
  keyRawS1 : BitVec 10
  keyRawS2 : BitVec 10
  keyStrobe : Bool
  keyData : Byte
  capslock : Bool
  deriving DecidableEq, Inhabited

structure Transceiver where
  kbd : Keyboard
  mouse : Mouse
  host : Host
  mouseSync : MouseSync
  keySync : KeySync
  deriving Inhabited

structure In where
  reset : Bool := false
  clkEn : Bool := true
  st : BusState := .idle
  adbDin : Byte := 0x00#8
  adbDinStrobe : Bool := false
  ps2Mouse : BitVec 25 := 0#25
  ps2Key : BitVec 11 := 0#11
  deriving DecidableEq

end Adb

------------------------------------------------------------
-- Commands
------------------------------------------------------------

namespace Adb

def addrKeyboard : BitVec 4 := 2#4

def addrMouse : BitVec 4 := 3#4

inductive CmdType where
  | reset
  | flush
  | listen
  | talk
  deriving DecidableEq, Repr

def cmdAddr (cmd : Byte) : BitVec 4 := cmd.extractLsb' 4 4

def cmdType (cmd : Byte) : CmdType :=
  if cmd.extractLsb' 2 2 == 0b00#2 then .reset
  else if cmd.extractLsb' 2 2 == 0b01#2 then .flush
  else if cmd.extractLsb' 2 2 == 0b10#2 then .listen
  else .talk

def cmdReg (cmd : Byte) : BitVec 2 := cmd.extractLsb' 0 2

def kbdFifoEmpty (k : Keyboard) : Bool :=
  k.kbdFifoRd == k.kbdFifoWr

/- The keyboard requests service. -/
def kbdSrq (k : Keyboard) : Bool := !kbdFifoEmpty k

def respEmpty (h : Host) : Bool := h.respLen ≤ h.respIdx

/- A response of two bytes. -/
def respond (first second : Byte) (h : Host) : Host :=
  { h with
    response :=
      Function.update (Function.update h.response 0#3 first)
        1#3 second
    respLen := 2#4 }

/- Register 3: the flags, the address and the handler. -/
def respondReg3 (addr : BitVec 4) (handler : Byte) :
    Host → Host :=
  respond (0b0110#4 ++ addr) handler

def processed (h : Host) : Host := { h with cmdProcessed := true }

def resetKeyboard (k : Keyboard) : Keyboard :=
  { k with
    kbdAddr := addrKeyboard
    kbdReg0 := 0xFFFF#16
    kbdReg2 := 0xFFFF#16
    kbdFifoRd := 0#3
    kbdFifoWr := 0#3 }

def resetMouse : Mouse where
  mouseAddr := addrMouse
  mouseX := 0#7
  mouseY := 0#7
  mouseButton := false
  mouseHasEvent := false

end Adb

------------------------------------------------------------
-- Command Processing
------------------------------------------------------------

namespace Adb

variable (s n : Transceiver)

/- Listen data for the keyboard: its LEDs or its address. -/
def kbdListen (h : Host) (k : Keyboard) : Keyboard :=
  if cmdReg h.cmdByte == 2#2 && 1#4 ≤ h.listenLen then
    { k with
      kbdReg2 :=
        k.kbdReg2.extractLsb' 3 13 ++
          (h.listenData 0#3).extractLsb' 0 3 }
  else if cmdReg h.cmdByte == 3#2 && 2#4 ≤ h.listenLen then
    (if h.listenData 1#3 == 0xFE#8 then
      { k with kbdAddr := (h.listenData 0#3).extractLsb' 0 4 }
    else k)
  else k

def mouseListen (h : Host) (m : Mouse) : Mouse :=
  if cmdReg h.cmdByte == 3#2 && 2#4 ≤ h.listenLen then
    (if h.listenData 1#3 == 0xFE#8 then
      { m with mouseAddr := (h.listenData 0#3).extractLsb' 0 4 }
    else m)
  else m

/- Talk to the keyboard; register 0 takes up to two keys. -/
def kbdTalk : Transceiver :=
  let k := s.kbd
  if cmdReg s.host.cmdByte == 0#2 then
    (if kbdFifoEmpty k then
      { n with kbd.kbdReg0 := 0xFFFF#16 }
    else if k.kbdFifoRd + 1#3 != k.kbdFifoWr then
      { n with
        kbd := { n.kbd with
          kbdReg0 := 0xFFFF#16, kbdFifoRd := k.kbdFifoRd + 2#3 }
        host := respond (k.kbdFifo k.kbdFifoRd)
          (k.kbdFifo (k.kbdFifoRd + 1#3)) n.host }
    else
      { n with
        kbd := { n.kbd with
          kbdReg0 := 0xFFFF#16, kbdFifoRd := k.kbdFifoRd + 1#3 }
        host := respond (k.kbdFifo k.kbdFifoRd) 0xFF#8 n.host })
  else if cmdReg s.host.cmdByte == 2#2 then
    { n with
      host := respond (k.kbdReg2.extractLsb' 8 8)
        (k.kbdReg2.extractLsb' 0 8) n.host }
  else if cmdReg s.host.cmdByte == 3#2 then
    { n with host := respondReg3 k.kbdAddr 0x02#8 n.host }
  else n

/- Talk to the mouse; register 0 takes its motion. -/
def mouseTalk : Transceiver :=
  let m := s.mouse
  if cmdReg s.host.cmdByte == 0#2 then
    (if m.mouseHasEvent then
      { n with
        mouse := { n.mouse with
          mouseX := 0#7, mouseY := 0#7, mouseHasEvent := false }
        host := respond (BitVec.ofBool (!m.mouseButton) ++ m.mouseY)
          (1#1 ++ m.mouseX) n.host }
    else n)
  else if cmdReg s.host.cmdByte == 3#2 then
    { n with host := respondReg3 m.mouseAddr 0x01#8 n.host }
  else n

/- A command for the keyboard; a Listen waits for its end. -/
def kbdCommand (finish : Bool) : Transceiver :=
  match cmdType s.host.cmdByte with
  | .flush =>
      { n with
        kbd := { n.kbd with
          kbdFifoRd := 0#3, kbdFifoWr := 0#3
          kbdReg0 := 0xFFFF#16 }
        host := processed n.host }
  | .listen =>
      if finish then
        { n with
          kbd := kbdListen s.host n.kbd
          host := processed n.host }
      else n
  | .talk =>
      let n := kbdTalk s n
      { n with host := processed n.host }
  | .reset => { n with host := processed n.host }

/- A command for the mouse. -/
def mouseCommand (finish : Bool) : Transceiver :=
  match cmdType s.host.cmdByte with
  | .flush =>
      { n with
        mouse := { n.mouse with
          mouseX := 0#7, mouseY := 0#7, mouseHasEvent := false }
        host := processed n.host }
  | .listen =>
      if finish then
        { n with
          mouse := mouseListen s.host n.mouse
          host := processed n.host }
      else n
  | .talk =>
      let n := mouseTalk s n
      { n with host := processed n.host }
  | .reset => { n with host := processed n.host }

/- A Reset goes to both devices, whatever its address. -/
def processCommand (finish : Bool) : Transceiver :=
  let n := { n with
    host := { n.host with respLen := 0#4, respIdx := 0#4 } }
  if cmdType s.host.cmdByte == .reset then
    { n with
      kbd := resetKeyboard n.kbd
      mouse := resetMouse
      host := processed n.host }
  else if cmdAddr s.host.cmdByte == s.kbd.kbdAddr then
    kbdCommand s n finish
  else if cmdAddr s.host.cmdByte == s.mouse.mouseAddr then
    mouseCommand s n finish
  else { n with host := processed n.host }

end Adb

------------------------------------------------------------
-- The State Machine
------------------------------------------------------------

namespace Adb

variable (s : Transceiver) (i : In)

/- A Listen that the bus state ends. -/
def finishes : Bool :=
  i.st != s.host.stPrev && i.st == .command &&
    (s.host.cmdValid && cmdType s.host.cmdByte == .listen &&
      !s.host.cmdProcessed)

/- Any other command is processed as soon as it is there. -/
def executes : Bool :=
  s.host.cmdValid && !s.host.cmdProcessed &&
    i.st == .command && cmdType s.host.cmdByte != .listen

/- The bus enters the command state. -/
def enterCommand (n : Transceiver) : Transceiver :=
  let n := if finishes s i then processCommand s n true else n
  { n with
    host := { n.host with
      cmdValid := false
      cmdProcessed := false
      respLen := 0#4
      respIdx := 0#4
      listenLen := 0#4 } }

/- The bus enters a data state: the next response byte. -/
def enterData (n : Transceiver) : Transceiver :=
  let h := s.host
  { n with
    host := { n.host with
      adbDout :=
        if respEmpty h then 0x00#8
        else h.response (h.respIdx.setWidth 3)
      adbDoutStrobe := true
      respIdx :=
        if respEmpty h then n.host.respIdx else h.respIdx + 1 } }

def transitionArm (n : Transceiver) : Transceiver :=
  if i.st != s.host.stPrev then
    let n := { n with host.stPrev := i.st }
    match i.st with
    | .idle => n
    | .command => enterCommand s i n
    | .data1 => enterData s n
    | .data2 => enterData s n
  else n

/- One more data byte; the buffer has eight places. -/
def takeData (n : Host) : Host :=
  let h := s.host
  { n with
    listenData :=
      if h.listenLen < 8#4 then
        Function.update n.listenData (h.listenLen.setWidth 3)
          i.adbDin
      else n.listenData
    listenLen := h.listenLen + 1 }

/- In the command state the first byte is the command. -/
def receiveArm (n : Transceiver) : Transceiver :=
  if i.st == .command && i.adbDinStrobe then
    (if !s.host.cmdValid then
      { n with
        host := { n.host with
          cmdByte := i.adbDin
          cmdValid := true
          cmdProcessed := false
          listenLen := 0#4 } }
    else { n with host := takeData s i n.host })
  else n

def processArm (n : Transceiver) : Transceiver :=
  if executes s i then
    let n := processCommand s n false
    { n with host.cmdValid := false }
  else n

/- In the data states the bytes are for a Listen. -/
def listenArm (n : Transceiver) : Transceiver :=
  if (i.st == .data1 || i.st == .data2) && i.adbDinStrobe &&
      (s.host.cmdValid && cmdType s.host.cmdByte == .listen)
  then
    { n with
      host := { takeData s i n.host with listen := true } }
  else n

/- A key the keyboard has, pressed or released. -/
def keyEvent : Bool :=
  s.keySync.keyStrobe &&
    s.keySync.keyData.extractLsb' 0 7 != 0x7F#7

def keyArm (n : Transceiver) : Transceiver :=
  if keyEvent s then
    { n with
      kbd := { n.kbd with
        kbdFifo :=
          Function.update n.kbd.kbdFifo s.kbd.kbdFifoWr
            s.keySync.keyData
        kbdFifoWr := s.kbd.kbdFifoWr + 1#3 } }
  else n

def mouseStrobe : Bool :=
  s.mouseSync.mstbD != s.mouseSync.mstbS3

/- A packet that moves the mouse or changes its button. -/
def mouseEvent : Bool :=
  mouseStrobe s &&
    (s.mouseSync.mouseXrawS2 != 0#9 ||
      s.mouseSync.mouseYrawS2 != 0#9 ||
      s.mouseSync.mouseBtnS2 != s.mouse.mouseButton)

/- A horizontal delta in seven bits. -/
def squeezeX (raw : BitVec 9) : BitVec 7 :=
  if !raw.getLsbD 8 && raw.extractLsb' 6 2 != 0#2 then 0x3F#7
  else if raw.getLsbD 8 && !raw.getLsbD 6 then 0x40#7
  else raw.extractLsb' 0 7

/- A vertical delta, turned around, in seven bits. -/
def squeezeY (raw : BitVec 9) : BitVec 7 :=
  if !raw.getLsbD 8 && raw.extractLsb' 6 2 != 0#2 then 0x40#7
  else if raw.getLsbD 8 && !raw.getLsbD 6 then 0x3F#7
  else -raw.extractLsb' 0 7

def mouseArm (n : Transceiver) : Transceiver :=
  if mouseEvent s then
    { n with
      mouse := { n.mouse with
        mouseX := squeezeX s.mouseSync.mouseXrawS2
        mouseY := squeezeY s.mouseSync.mouseYrawS2
        mouseButton := s.mouseSync.mouseBtnS2
        mouseHasEvent := true } }
  else n

/- An enabled edge of the state machine. -/
def tick : Transceiver :=
  mouseArm s <| keyArm s <| listenArm s i <| processArm s i <|
    receiveArm s i <| transitionArm s i
      { s with
        host.adbDoutStrobe := false
        host.listen := false }

end Adb

------------------------------------------------------------
-- Synchronizers
------------------------------------------------------------

namespace Adb

/- The ADB key codes; a scan code without one gives `7F`. -/
def keyCodes : List (BitVec 9 × BitVec 7) :=
  [(0x001#9, 0x65#7), (0x003#9, 0x60#7), (0x004#9, 0x63#7),
    (0x005#9, 0x7A#7), (0x006#9, 0x78#7), (0x009#9, 0x6D#7),
    (0x00A#9, 0x64#7), (0x00B#9, 0x61#7), (0x00D#9, 0x30#7),
    (0x00E#9, 0x32#7), (0x011#9, 0x37#7), (0x012#9, 0x38#7),
    (0x014#9, 0x36#7), (0x015#9, 0x0C#7), (0x016#9, 0x12#7),
    (0x01A#9, 0x06#7), (0x01B#9, 0x01#7), (0x01C#9, 0x00#7),
    (0x01D#9, 0x0D#7), (0x01E#9, 0x13#7), (0x021#9, 0x08#7),
    (0x022#9, 0x07#7), (0x023#9, 0x02#7), (0x024#9, 0x0E#7),
    (0x025#9, 0x15#7), (0x026#9, 0x14#7), (0x029#9, 0x31#7),
    (0x02A#9, 0x09#7), (0x02B#9, 0x03#7), (0x02C#9, 0x11#7),
    (0x02D#9, 0x0F#7), (0x02E#9, 0x17#7), (0x031#9, 0x2D#7),
    (0x032#9, 0x0B#7), (0x033#9, 0x04#7), (0x034#9, 0x05#7),
    (0x035#9, 0x10#7), (0x036#9, 0x16#7), (0x03A#9, 0x2E#7),
    (0x03B#9, 0x26#7), (0x03C#9, 0x20#7), (0x03D#9, 0x1A#7),
    (0x03E#9, 0x1C#7), (0x041#9, 0x2B#7), (0x042#9, 0x28#7),
    (0x043#9, 0x22#7), (0x044#9, 0x1F#7), (0x045#9, 0x1D#7),
    (0x046#9, 0x19#7), (0x049#9, 0x2F#7), (0x04A#9, 0x2C#7),
    (0x04B#9, 0x25#7), (0x04C#9, 0x29#7), (0x04D#9, 0x23#7),
    (0x04E#9, 0x1B#7), (0x052#9, 0x27#7), (0x054#9, 0x21#7),
    (0x055#9, 0x18#7), (0x058#9, 0x39#7), (0x059#9, 0x7B#7),
    (0x05A#9, 0x24#7), (0x05B#9, 0x1E#7), (0x05D#9, 0x2A#7),
    (0x066#9, 0x33#7), (0x069#9, 0x53#7), (0x06B#9, 0x56#7),
    (0x06C#9, 0x59#7), (0x070#9, 0x52#7), (0x071#9, 0x41#7),
    (0x072#9, 0x54#7), (0x073#9, 0x57#7), (0x074#9, 0x58#7),
    (0x075#9, 0x5B#7), (0x076#9, 0x35#7), (0x077#9, 0x47#7),
    (0x078#9, 0x67#7), (0x079#9, 0x45#7), (0x07A#9, 0x55#7),
    (0x07B#9, 0x4E#7), (0x07C#9, 0x43#7), (0x07D#9, 0x5C#7),
    (0x083#9, 0x62#7), (0x111#9, 0x37#7), (0x11F#9, 0x3A#7),
    (0x14A#9, 0x4B#7), (0x15A#9, 0x4C#7), (0x169#9, 0x77#7),
    (0x16B#9, 0x3B#7), (0x16C#9, 0x73#7), (0x170#9, 0x72#7),
    (0x171#9, 0x75#7), (0x172#9, 0x3D#7), (0x174#9, 0x3C#7),
    (0x175#9, 0x3E#7), (0x17A#9, 0x79#7), (0x17C#9, 0x69#7),
    (0x17D#9, 0x74#7), (0x17E#9, 0x71#7)]

def keyCode (scan : BitVec 9) : BitVec 7 :=
  (keyCodes.lookup scan).getD 0x7F#7

/- A packet's toggle passes one stage more than its data. -/
def mouseSyncNext (y : MouseSync) (i : In) : MouseSync where
  mstbS1 := i.ps2Mouse.getLsbD 24
  mstbS2 := y.mstbS1
  mstbS3 := y.mstbS2
  mstbD := if i.clkEn then y.mstbS3 else y.mstbD
  mouseXrawS1 :=
    i.ps2Mouse.extractLsb' 4 1 ++ i.ps2Mouse.extractLsb' 8 8
  mouseXrawS2 := y.mouseXrawS1
  mouseYrawS1 :=
    i.ps2Mouse.extractLsb' 5 1 ++ i.ps2Mouse.extractLsb' 16 8
  mouseYrawS2 := y.mouseYrawS1
  mouseBtnS1 := i.ps2Mouse.getLsbD 0
  mouseBtnS2 := y.mouseBtnS1

def mouseSyncReset (i : In) : MouseSync where
  mstbS1 := i.ps2Mouse.getLsbD 24
  mstbS2 := i.ps2Mouse.getLsbD 24
  mstbS3 := i.ps2Mouse.getLsbD 24
  mstbD := i.ps2Mouse.getLsbD 24
  mouseXrawS1 := 0#9
  mouseXrawS2 := 0#9
  mouseYrawS1 := 0#9
  mouseYrawS2 := 0#9
  mouseBtnS1 := false
  mouseBtnS2 := false

/-
  A key's toggle makes a strobe and its ADB code; caps lock
  locks, so it is silent while it is on.
-/
def keySyncNext (y : KeySync) (i : In) : KeySync :=
  let pressed := y.keyRawS2.getLsbD 9
  let scan := y.keyRawS2.extractLsb' 0 9
  let arrives := i.clkEn && y.kstb != y.kstbS3
  let locks := scan == 0x058#9
  let silent := locks && y.capslock
  { kstbS1 := i.ps2Key.getLsbD 10
    kstbS2 := y.kstbS1
    kstbS3 := y.kstbS2
    kstb := if i.clkEn then y.kstbS3 else y.kstb
    keyRawS1 := i.ps2Key.extractLsb' 0 10
    keyRawS2 := y.keyRawS1
    keyStrobe :=
      if arrives then (if silent then y.keyStrobe else true)
      else if i.clkEn then false
      else y.keyStrobe
    keyData :=
      if arrives then
        (if silent then y.keyData.extractLsb' 7 1
          else BitVec.ofBool (!pressed)) ++ keyCode scan
      else y.keyData
    capslock :=
      if arrives && locks && pressed then !y.capslock
      else y.capslock }

def keySyncReset (i : In) : KeySync where
  kstbS1 := i.ps2Key.getLsbD 10
  kstbS2 := i.ps2Key.getLsbD 10
  kstbS3 := i.ps2Key.getLsbD 10
  kstb := i.ps2Key.getLsbD 10
  keyRawS1 := 0#10
  keyRawS2 := 0#10
  keyStrobe := false
  keyData := 0x7F#8
  capslock := false

end Adb

------------------------------------------------------------
-- Clock Edge
------------------------------------------------------------

namespace Adb

variable (s : Transceiver) (i : In)

/- The buffers and the command byte survive a reset. -/
def resetHost (h : Host) : Host :=
  { h with
    stPrev := .idle
    cmdValid := false
    cmdProcessed := false
    respLen := 0#4
    respIdx := 0#4
    listen := false
    listenLen := 0#4
    adbDout := 0x00#8
    adbDoutStrobe := false }

def resetState : Transceiver where
  kbd := resetKeyboard s.kbd
  mouse := resetMouse
  host := resetHost s.host
  mouseSync := mouseSyncReset i
  keySync := keySyncReset i

def step : Transceiver :=
  if i.reset then resetState s i
  else
    { (if i.clkEn then tick s i else s) with
      mouseSync := mouseSyncNext s.mouseSync i
      keySync := keySyncNext s.keySync i }

end Adb
