import Wombat33.MacQuadra800.Coherence
import Wombat33.Quadra800.Progress

/-
  One memory for the CPU and the table walker.

  In every run of the machine, from power-up on, the
  exchanges with the memories are a replay of one device, in
  the order the service makes them: a read returns what the
  exchanges before it have left, whichever party made them.

  Key definitions include:
    * `emuStart`
    * `OneMemory`, `LatestRead`

  Key theorems include:
    * `one_memory`
    * `latest_write_read`
-/

------------------------------------------------------------
-- Whole Runs
------------------------------------------------------------

namespace MacQuadra800

open Clocked
open Lanes (byte offset word)
open Quadra800 (Wire onWire mselRam)

/-
  Power-up: the memories hold what they hold, and so do the
  registers that no reset reaches.
-/
def Emu.start
    (cells₀ : Cells)
    (b₀ : Sdram.Bridge)
    (v : VramArrays)
    (f : Dafb.File) : Emu where
  boot := Boot.start
  board := Quadra800.Board.reset
  dafb := Dafb.resetFile f
  ddr := default
  ddr3 := ⟨cells₀, none⟩
  sdram := Sdram.powerOn b₀
  vram := v

def emuStart
    (cells₀ : Cells)
    (b₀ : Sdram.Bridge)
    (v : VramArrays)
    (f : Dafb.File) : Emu × Books :=
  let m := Emu.start cells₀ b₀ v f
  let log := Sdram.fresh (Sdram.powerOn b₀)
  (m, {
    ledger := {}
    log := log
    upload := Upload.start
    base := contents cells₀ m log Upload.start })

/-
  One memory.  Each party's beats are taken once, routed by
  their address and answered with their own replies; in the
  order they are served these are a replay of one device.
  With no request up and nothing in the bridges the memories
  themselves hold what the exchanges have left.
-/
structure OneMemory (x : Emu × Books) : Prop where
  delivered : Quadra800.Delivered x.1.board x.2.ledger
  replays : memories.Replays x.2.base x.2.sent
  ram : onWire x.1.board.service = none →
    x.1.sdram.sys.busy = false →
    Sdram.stored x.1.sdram = x.2.current.ram
  rom : onWire x.1.board.service = none →
    x.1.ddr.ddramWe = false → x.1.ddr.ioctlPend = false →
    romCells x.1.ddr3.cells = x.2.current.rom
  vram : onWire x.1.board.service = none →
    x.1.vramState.word = x.2.current.vram
  pitch : onWire x.1.board.service = none →
    x.1.dafb.strideWords = x.2.current.strideWords

variable {cells₀ : Cells} {b₀ : Sdram.Bridge}
variable {v : VramArrays} {f : Dafb.File}
variable {x : Emu × Books}

theorem phases_start :
    Phases cells₀ (emuStart cells₀ b₀ v f) where
  rom := by
    have hRom : (emuStart cells₀ b₀ v f).1.rom =
        Rom.start cells₀ := rfl
    rw [hRom]
    exact romInv_start cells₀
  board := Quadra800.boardInv_reset
  serves := ⟨Sdram.sound_powerOn b₀, fun _ => rfl⟩
  posted := fun hAck => absurd hAck Bool.noConfusion
  capture := fun hPhase => absurd hPhase Bool.noConfusion
  shown := fun hAck => absurd hAck Bool.noConfusion

theorem held_start :
    Held cells₀ (emuStart cells₀ b₀ v f) := by
  apply held_fresh phases_start
  · trivial
  · rfl
  · exact fun hReq => absurd hReq Bool.noConfusion
  · exact fun hSel => absurd hSel Bool.noConfusion

theorem oneMemory_of_held
    (hPhases : Phases cells₀ x)
    (hHeld : Held cells₀ x) :
    OneMemory x := by
  have hContents : onWire x.1.board.service = none →
      contents cells₀ x.1 x.2.log x.2.upload =
        x.2.current := by
    intro hNone
    rw [hHeld.contents, hNone]
    rfl
  refine ⟨Quadra800.delivered_of_boardInv hPhases.board,
    hHeld.replays, ?_, ?_, ?_, ?_⟩
  · intro hNone hFree
    rw [← hContents hNone]
    exact (Sdram.law_of_sound hPhases.serves.sound).settled
      hFree |>.1
  · intro hNone hWe hPend
    rw [← hContents hNone]
    exact landed hPhases.rom hWe hPend
  · intro hNone
    rw [← hContents hNone]
    rfl
  · intro hNone
    rw [← hContents hNone]
    rfl

theorem always_oneMemory
    {ds : List EmuIn}
    (hOk : Along (emuEdge cells₀) EmuOk
      (emuStart cells₀ b₀ v f) ds) :
    Always (emuEdge cells₀) OneMemory
      (emuStart cells₀ b₀ v f) ds := by
  have hStep : ∀ y d, Phases cells₀ y ∧ Held cells₀ y →
      EmuOk y d →
      Phases cells₀ (emuEdge cells₀ y d) ∧
        Held cells₀ (emuEdge cells₀ y d) :=
    fun y d hInv hNow => ⟨phases_step hInv.1 hNow,
      held_step hInv.1 hNow hInv.2⟩
  exact always_mono
    (fun y hInv => oneMemory_of_held hInv.1 hInv.2)
    (always_of_along hStep hOk ⟨phases_start, held_start⟩)

theorem one_memory
    (cells₀ : Cells)
    (b₀ : Sdram.Bridge)
    (v : VramArrays)
    (f : Dafb.File)
    (ds : List EmuIn)
    (hOk : Along (emuEdge cells₀) EmuOk
      (emuStart cells₀ b₀ v f) ds) :
    Always (emuEdge cells₀) OneMemory
      (emuStart cells₀ b₀ v f) ds :=
  always_oneMemory hOk

instance (x : Emu × Books) (d : EmuIn) :
    Decidable (EmuOk x d) :=
  decidable_of_iff
    (RomOk x.1.rom (x.1.romIn d) ∧
      Quadra800.Contract (x.1.board, x.2.ledger) (x.1.env d) ∧
      (d.pllLocked = false →
        x.1.sdram.ctl.state = .startup) ∧
      (x.1.sdram.ctl.state = .startup →
        (x.1.beat.req && x.1.beat.isRam) = false) ∧
      (d.ioctlDownload = true → x.1.vramCaptures = false))
    ⟨fun h => ⟨h.1, h.2.1, h.2.2.1, h.2.2.2.1, h.2.2.2.2⟩,
      fun h => ⟨h.1, h.2, h.3, h.4, h.5⟩⟩

/- A file of four bytes is downloaded. -/
def download : List EmuIn := [
  { ioctlDownload := true, ioctlWr := true
    ioctlDout := 0xADDE#16 },
  { ioctlDownload := true }, { ioctlDownload := true },
  { ioctlDownload := true, ioctlWr := true
    ioctlAddr := 2#27, ioctlDout := 0xEFBE#16 },
  { ioctlDownload := true }, { ioctlDownload := true }, {}]

/- A longword is written to the video memory. -/
def writeVram : EmuIn :=
  { ready := true
    env := {
      busReq := true, busWrite := true, busSize := 2#2
      busAddr := 0xF9000000#32, busWdata := 0x12345678#32 } }

/- One is read across it and the next. -/
def readVram : EmuIn :=
  { ready := true
    env := {
      busReq := true, busSize := 2#2
      busAddr := 0xF9000002#32 } }

/- The same, as the walker reads the first. -/
def readVramWalk : EmuIn :=
  { readVram with
    env := { readVram.env with
      walkerReq := true, walkerAddr := 0xF9000000#32 } }

def vramRun : List EmuIn :=
  download ++ List.replicate 6 writeVram ++ [({} : EmuIn)] ++
    List.replicate 4 readVramWalk ++
    List.replicate 10 readVram ++ List.replicate 3 ({} : EmuIn)

def blankVram : VramArrays :=
  ⟨fun _ => 0#8, fun _ => 0#8, fun _ => 0#8, fun _ => 0#8, 0#32⟩

def blankStart : Emu × Books :=
  emuStart blankCells Sdram.blankBridge blankVram default

theorem one_memory_vram :
    Always (emuEdge blankCells) OneMemory blankStart vramRun ∧
      (run (emuEdge blankCells) blankStart
        vramRun).2.ledger.cpu.told =
          [.data 0#32, .data 0x56780000#32] ∧
      Quadra800.repliesOf .walker (run (emuEdge blankCells)
        blankStart vramRun).2.ledger.traffic.heard =
          [.data 0x12345678#32] :=
  ⟨one_memory blankCells Sdram.blankBridge blankVram default
    vramRun (by decide +kernel), by decide +kernel,
    by decide +kernel⟩

/-
  A read of the RAM returns, byte by byte, what was written
  last before it, by the CPU or by the walker; where nothing
  was, what the RAM held as the machine came out of reset.
-/
def LatestRead (x : Emu × Books) : Prop :=
  ∀ before later b r,
    x.2.sent = before ++ (.mem mselRam b, r) :: later →
    b.write = false →
    ∀ a : BitVec 27, word a = b.addr.extractLsb' 0 25 →
    ∃ w, r = .data w ∧
      byte (3 - offset a) w =
        (lastWrite a before).getD (x.2.base.ram a)

theorem latestRead_of_replays
    (hReplays : memories.Replays x.2.base x.2.sent) :
    LatestRead x := by
  intro before later b r hSent hRead a hWord
  rw [hSent] at hReplays
  have hAgrees := Device.agrees_within hReplays
  have hShown := hAgrees _ (by
    simp only [memories, Phys.shown, hRead]
    rfl)
  refine ⟨_, hShown, ?_⟩
  have hByte := Lanes.byte_loadWord
    (memories.after x.2.base before).ram a
  rw [hWord] at hByte
  rw [← ram_after a]
  exact hByte

theorem latest_write_read
    (cells₀ : Cells)
    (b₀ : Sdram.Bridge)
    (v : VramArrays)
    (f : Dafb.File)
    (ds : List EmuIn)
    (hOk : Along (emuEdge cells₀) EmuOk
      (emuStart cells₀ b₀ v f) ds) :
    Always (emuEdge cells₀) LatestRead
      (emuStart cells₀ b₀ v f) ds :=
  always_mono (fun _ hOne => latestRead_of_replays hOne.replays)
    (always_oneMemory hOk)

end MacQuadra800

------------------------------------------------------------
-- A Run with the RAM
------------------------------------------------------------

namespace MacQuadra800

open Clocked

variable {x : Emu × Books} {ds : List EmuIn}

/- The CPU asks for one longword of the RAM all the time. -/
def readRamLong : EmuIn :=
  { ready := true
    env := {
      busReq := true, busSize := 2#2
      busAddr := 0x00800000#32 } }

/- The SDRAM has started after its 12102 cycles. -/
theorem started_run
    (b₀ : Sdram.Bridge)
    {is : List Sdram.In}
    (hInit : ∀ i ∈ is, i.init = false)
    (hLong : 12102 ≤ is.length) :
    (run Sdram.Bridge.step (Sdram.powerOn b₀) is).ctl.state ≠
      .startup := by
  induction is using List.reverseRecOn with
  | nil => simp at hLong
  | append_singleton is i ih =>
      have hBefore : ∀ j ∈ is, j.init = false :=
        fun j hJ => hInit j (by simp [hJ])
      have hLow : i.init = false := hInit i (by simp)
      rw [run_append, run_cons, run_nil]
      by_cases hMore : 12102 ≤ is.length
      · have hState := ih hBefore hMore
        have hPrepared := Sdram.prepared_of_reached
          ⟨b₀, is, rfl⟩
        exact (Sdram.running_step hState
          (hPrepared.running hState) hLow).2
      · rw [List.length_append, List.length_singleton] at hLong
        have hRun := @Sdram.startup_run b₀ is hBefore (by omega)
        have hNext := @Sdram.startup_state
          (run Sdram.Bridge.step (Sdram.powerOn b₀) is).ctl
          ((run Sdram.Bridge.step (Sdram.powerOn b₀) is).ports i)
          rfl hRun.1
        have hPos : Sdram.pos (run Sdram.Bridge.step
            (Sdram.powerOn b₀) is).ctl = 16384 := by
          rw [hRun.2.1]
          omega
        rw [if_pos ⟨hLow, hPos⟩] at hNext
        have hIdle : ((run Sdram.Bridge.step (Sdram.powerOn b₀)
            is).step i).ctl.state = .idle := hNext
        rw [hIdle]
        exact Sdram.State.noConfusion

/- What the SDRAM has gone through in a run of the machine. -/
def sdramRun (cells₀ : Cells) :
    Emu × Books → List EmuIn → List Sdram.In
  | _, [] => []
  | x, d :: ds =>
      x.1.sdramEdges d ++
        sdramRun cells₀ (emuEdge cells₀ x d) ds

theorem sdram_run (cells₀ : Cells) :
    (run (emuEdge cells₀) x ds).1.sdram =
      run Sdram.Bridge.step x.1.sdram (sdramRun cells₀ x ds) := by
  induction ds generalizing x with
  | nil => rfl
  | cons d ds ih =>
      rw [run_cons, ih, sdramRun, run_append]
      rfl

theorem sdramRun_length (cells₀ : Cells) :
    (sdramRun cells₀ x ds).length = 3 * ds.length := by
  induction ds generalizing x with
  | nil => rfl
  | cons d ds ih =>
      rw [sdramRun, List.length_append, ih, List.length_cons]
      simp only [Emu.sdramEdges, List.length_cons,
        List.length_nil]
      omega

theorem sdramRun_init
    (cells₀ : Cells)
    (hLocked : ∀ d ∈ ds, d.pllLocked = true) :
    ∀ i ∈ sdramRun cells₀ x ds, i.init = false := by
  induction ds generalizing x with
  | nil => simp [sdramRun]
  | cons d ds ih =>
      have hHigh : d.pllLocked = true := hLocked d (by simp)
      intro i hMem
      rcases List.mem_append.mp hMem with hNow | hLater
      · simp only [Emu.sdramEdges, List.mem_cons,
          List.not_mem_nil, or_false] at hNow
        rcases hNow with rfl | rfl | rfl
        · simp [Emu.sdramEdge, hHigh]
        · simp [EmuIn.between, hHigh]
        · simp [EmuIn.between, hHigh]
      · exact ih (fun e hE => hLocked e (by simp [hE])) i hLater

/- Out of reset with nothing asked for. -/
structure Resting (x : Emu × Books) : Prop where
  loaded : x.1.boot.romLoaded = true
  bus : x.1.board.bus.active = false ∧
    x.1.board.bus.bReq = false
  svc : x.1.board.service.svc = .idle
  mem : x.1.board.service.memReq = false
  iosb : x.1.board.service.iosbSel = false
  now : x.2.ledger.cpu.now = none
  walk : x.2.ledger.walker.walk = .idle

/- Out of reset with at most the one read asked for. -/
structure Reading (x : Emu × Books) : Prop where
  loaded : x.1.boot.romLoaded = true
  prepared : Sdram.Prepared x.1.sdram
  started : x.1.sdram.ctl.state ≠ .startup
  now : ∀ t, x.2.ledger.cpu.now = some t →
    t.txn = Quadra800.busTxn readRamLong.env
  walk : x.2.ledger.walker.walk = .idle

/- The framework leaves a loaded machine alone. -/
theorem running_of_pins
    {m : Emu} {d : EmuIn}
    (hPins : d.toPins = {})
    (hLoaded : m.boot.romLoaded = true) :
    m.reset d = false := by
  simp [Emu.reset, hPins, Boot.reset, hLoaded]

theorem emuOk_of_pins
    {d : EmuIn}
    (hPins : d.toPins = {})
    (hLoaded : x.1.boot.romLoaded = true)
    (hBoard : Quadra800.Contract (x.1.board, x.2.ledger)
      (x.1.env d))
    (hStarted : x.1.sdram.ctl.state = .startup →
      (x.1.beat.req && x.1.beat.isRam) = false) :
    EmuOk x d := by
  have hReset : x.1.rom.reset (x.1.romIn d) = false :=
    running_of_pins hPins hLoaded
  have hDownload : d.ioctlDownload = false := by
    rw [hPins]
  have hLocked : d.pllLocked = true := by
    rw [hPins]
  have hPin : d.resetPin = false := by
    rw [hPins]
  refine ⟨⟨?_, ?_, ?_⟩, hBoard, ?_, hStarted, ?_⟩
  · intro hCapture
    simp [Ddr.capture, Emu.romIn, hDownload] at hCapture
  · intro hHigh
    exact Bool.noConfusion (hHigh.symm.trans hReset)
  · intro hHigh
    exact Bool.noConfusion (hHigh.symm.trans hPin)
  · intro hLow
    exact Bool.noConfusion (hLow.symm.trans hLocked)
  · intro hHigh
    exact Bool.noConfusion (hHigh.symm.trans hDownload)

theorem bus_rests
    {b : Bus32.Adapter} {i : Bus32.In}
    (hReset : i.nreset = true)
    (hReq : i.tReq = false)
    (hBus : b.active = false ∧ b.bReq = false) :
    (Bus32.step b i).active = false ∧
      (Bus32.step b i).bReq = false := by
  rw [Bus32.step]
  cases i.ce <;>
    simp [hReset, hReq, hBus, Bus32.clock, Bus32.wait]

theorem service_rests
    {s : Quadra800.Service} {i : Quadra800.Pins}
    (hReset : i.nreset = true)
    (hCpu : i.bReq = false)
    (hWalker : i.walkerReq = false)
    (hSvc : s.svc = .idle) :
    (Quadra800.step s i).svc = .idle ∧
      (Quadra800.step s i).memReq = s.memReq ∧
      (Quadra800.step s i).iosbSel = s.iosbSel := by
  rw [Quadra800.step]
  cases i.ce <;>
    simp [hReset, hCpu, hWalker, hSvc, Quadra800.clock,
      Quadra800.idle, Quadra800.walkerPend,
      Quadra800.cpuPend, Quadra800.settle]

theorem resting_ok (hResting : Resting x) : EmuOk x {} := by
  refine emuOk_of_pins rfl hResting.loaded ⟨?_, ?_⟩ ?_
  · intro v hNow
    exact absurd (hNow.symm.trans hResting.now)
      (Option.some_ne_none v)
  · intro b hAsking
    exact absurd (hAsking.symm.trans hResting.walk)
      Quadra800.Walk.noConfusion
  · intro _
    have hReq : x.1.beat.req = false := hResting.mem
    rw [hReq]
    rfl

theorem resting_step
    (cells₀ : Cells)
    (hResting : Resting x) :
    Resting (emuEdge cells₀ x {}) := by
  have hReset : x.1.reset {} = false :=
    running_of_pins rfl hResting.loaded
  have hHigh : (x.1.env {}).nreset = true := by
    simp [Emu.env, hReset]
  have hCe : (x.1.env {}).ce = true := rfl
  have hNote : (emuEdge cells₀ x {}).2.ledger =
      { traffic := x.2.ledger.traffic.note x.1.board.service
          (Quadra800.pins x.1.board (x.1.env {}))
        cpu := x.2.ledger.cpu.note x.1.board (x.1.env {})
        walker :=
          x.2.ledger.walker.note x.1.board (x.1.env {}) } := by
    show x.2.ledger.note x.1.board (x.1.env {}) = _
    simp [Quadra800.Ledger.note, hHigh, hCe]
  have hBus := @bus_rests x.1.board.bus
    (Quadra800.busIn x.1.board (x.1.env {})) hHigh rfl
    hResting.bus
  have hService := @service_rests x.1.board.service
    (Quadra800.pins x.1.board (x.1.env {})) hHigh
    hResting.bus.2 rfl hResting.svc
  refine ⟨Boot.next_loaded _ _ hResting.loaded, hBus,
    hService.1, hService.2.1.trans hResting.mem,
    hService.2.2.trans hResting.iosb, ?_, ?_⟩
  · rw [hNote]
    simp [Quadra800.CpuBook.note, hResting.now, Emu.env]
  · rw [hNote]
    simp [Quadra800.WalkBook.note, hResting.walk, Emu.env]

theorem reading_ok (hReading : Reading x) :
    EmuOk x readRamLong := by
  refine emuOk_of_pins rfl hReading.loaded ⟨?_, ?_⟩
    (fun hState => absurd hState hReading.started)
  · intro t hNow _
    exact ⟨rfl, (hReading.now t hNow).symm⟩
  · intro b hAsking
    exact absurd (hAsking.symm.trans hReading.walk)
      Quadra800.Walk.noConfusion

theorem hear_txn
    (m : Quadra800.Board) (t : Quadra800.Visit) :
    (Quadra800.Visit.hear m t).txn = t.txn := rfl

/- A drive of that read, from one edge to the next. -/
theorem reading_books
    (cells₀ : Cells)
    (hReading : Reading x) :
    (∀ t, (emuEdge cells₀ x readRamLong).2.ledger.cpu.now =
        some t → t.txn = Quadra800.busTxn readRamLong.env) ∧
      (emuEdge cells₀ x readRamLong).2.ledger.walker.walk =
        .idle := by
  have hReset : x.1.reset readRamLong = false :=
    running_of_pins rfl hReading.loaded
  have hHigh : (x.1.env readRamLong).nreset = true := by
    simp [Emu.env, hReset]
  have hCe : (x.1.env readRamLong).ce = true := rfl
  have hNote : (emuEdge cells₀ x readRamLong).2.ledger =
      { traffic := x.2.ledger.traffic.note x.1.board.service
          (Quadra800.pins x.1.board (x.1.env readRamLong))
        cpu := x.2.ledger.cpu.note x.1.board
          (x.1.env readRamLong)
        walker := x.2.ledger.walker.note x.1.board
          (x.1.env readRamLong) } := by
    show x.2.ledger.note x.1.board (x.1.env readRamLong) = _
    simp [Quadra800.Ledger.note, hHigh, hCe]
  rw [hNote]
  constructor
  · intro t hNow
    simp only [Quadra800.CpuBook.note] at hNow
    cases hBefore : x.2.ledger.cpu.now with
    | none =>
        simp only [hBefore] at hNow
        split at hNow
        · rw [← Option.some.inj hNow]
          rfl
        · exact absurd hNow (Option.some_ne_none t).symm
    | some t' =>
        simp only [hBefore] at hNow
        split at hNow
        · rw [← Option.some.inj hNow, hear_txn]
          exact hReading.now t' hBefore
        · exact absurd hNow (Option.some_ne_none t).symm
  · simp [Quadra800.WalkBook.note, hReading.walk, Emu.env,
      readRamLong]

theorem reading_step
    (cells₀ : Cells)
    (hReading : Reading x) :
    Reading (emuEdge cells₀ x readRamLong) := by
  have hNext {b : Sdram.Bridge} {i : Sdram.In}
      (hLow : i.init = false)
      (hBefore : Sdram.Prepared b ∧ b.ctl.state ≠ .startup) :
      Sdram.Prepared (b.step i) ∧
        (b.step i).ctl.state ≠ .startup :=
    ⟨Sdram.prepared_step b i hBefore.1,
      (Sdram.running_step hBefore.2
        (hBefore.1.running hBefore.2) hLow).2⟩
  have hThird := hNext (i := readRamLong.between 0#16) rfl
    (hNext (i := readRamLong.between 0#16) rfl
      (hNext (i := x.1.sdramEdge readRamLong) rfl
        ⟨hReading.prepared, hReading.started⟩))
  rcases reading_books cells₀ hReading with ⟨hNow, hWalk⟩
  exact ⟨Boot.next_loaded _ _ hReading.loaded, hThird.1,
    hThird.2, hNow, hWalk⟩

/- The download, the SDRAM's start-up, and then the reads. -/
def startRun : List EmuIn :=
  download ++ List.replicate 4100 ({} : EmuIn)

def ramRun : List EmuIn :=
  startRun ++ List.replicate 200 readRamLong

theorem resting_download :
    Resting (run (emuEdge blankCells) blankStart download) :=
  ⟨rfl, ⟨rfl, rfl⟩, rfl, rfl, rfl, rfl, rfl⟩

theorem resting_run
    (n : Nat)
    (hResting : Resting x) :
    Along (emuEdge blankCells) EmuOk x
        (List.replicate n ({} : EmuIn)) ∧
      Resting (run (emuEdge blankCells) x
        (List.replicate n ({} : EmuIn))) := by
  induction n generalizing x with
  | zero => exact ⟨trivial, hResting⟩
  | succ n ih =>
      rcases ih (resting_step blankCells hResting) with
        ⟨hAlong, hAfter⟩
      exact ⟨⟨resting_ok hResting, hAlong⟩, hAfter⟩

theorem reading_run
    (n : Nat)
    (hReading : Reading x) :
    Along (emuEdge blankCells) EmuOk x
      (List.replicate n readRamLong) := by
  induction n generalizing x with
  | zero => trivial
  | succ n ih =>
      exact ⟨reading_ok hReading,
        ih (reading_step blankCells hReading)⟩

theorem reading_start :
    Reading (run (emuEdge blankCells) blankStart startRun) := by
  have hResting : Resting
      (run (emuEdge blankCells) blankStart startRun) := by
    rw [startRun, run_append]
    exact (resting_run 4100 resting_download).2
  have hPower : blankStart.1.sdram =
      Sdram.powerOn Sdram.blankBridge := rfl
  have hSdram := @sdram_run blankStart startRun blankCells
  rw [hPower] at hSdram
  have hLocked : ∀ d ∈ startRun, d.pllLocked = true := by
    intro d hMem
    rcases List.mem_append.mp hMem with hFile | hIdle
    · simp only [download, List.mem_cons, List.not_mem_nil,
        or_false] at hFile
      rcases hFile with rfl | rfl | rfl | rfl | rfl | rfl | rfl <;>
        rfl
    · rw [List.eq_of_mem_replicate hIdle]
  have hInit := @sdramRun_init blankStart startRun blankCells
    hLocked
  have hLong : 12102 ≤
      (sdramRun blankCells blankStart startRun).length := by
    have hFile : download.length = 7 := rfl
    rw [sdramRun_length, startRun, List.length_append,
      List.length_replicate, hFile]
    omega
  have hReached : Sdram.Reached
      (run (emuEdge blankCells) blankStart
        startRun).1.sdram :=
    ⟨Sdram.blankBridge, _, hSdram⟩
  refine ⟨hResting.loaded, Sdram.prepared_of_reached hReached,
    ?_, ?_, hResting.walk⟩
  · rw [hSdram]
    exact started_run Sdram.blankBridge hInit hLong
  · intro t hNow
    exact absurd (hNow.symm.trans hResting.now)
      (Option.some_ne_none t)

theorem latest_write_read_ram :
    Always (emuEdge blankCells) LatestRead blankStart
      ramRun := by
  apply latest_write_read blankCells Sdram.blankBridge
    blankVram default ramRun
  rw [ramRun, startRun, along_append, along_append]
  refine ⟨⟨by decide +kernel,
    (resting_run 4100 resting_download).1⟩, ?_⟩
  exact reading_run 200 reading_start

end MacQuadra800
