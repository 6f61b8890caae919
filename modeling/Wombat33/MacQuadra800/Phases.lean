import Wombat33.Dafb.Pitch
import Wombat33.MacQuadra800.Emu
import Wombat33.Quadra800.Request

/-
  How far a memory is with the beat on the port.

  Each memory answers in its own number of steps.  What is
  kept on the way: the bridges answer only the beat they were
  asked for, the video memory's phase belongs to a beat of
  its own, and an answer is withdrawn with its request.

  Key definitions include:
    * `EmuOk`
    * `Phases`

  Key theorems include:
    * `phases_step`
-/

------------------------------------------------------------
-- The Contract
------------------------------------------------------------

namespace MacQuadra800

/- A longword of the video memory is captured. -/
def Emu.vramCaptures (m : Emu) : Bool :=
  m.beat.req && m.beat.isVram && !m.memAck && !m.ddr.vramPh

/-
  What the surroundings keep to.  The CPU and the walker hold
  their requests; downloads are paced, and neither they nor a
  reset cut off a read; the PLL stays locked once the SDRAM
  has started, no beat of the RAM comes before that, and no
  download begins as the video memory captures a beat.
-/
structure EmuOk (x : Emu × Books) (d : EmuIn) : Prop where
  rom : RomOk x.1.rom (x.1.romIn d)
  board : Quadra800.Contract (x.1.board, x.2.ledger)
    (x.1.env d)
  locked : d.pllLocked = false →
    x.1.sdram.ctl.state = .startup
  started : x.1.sdram.ctl.state = .startup →
    (x.1.beat.req && x.1.beat.isRam) = false
  download : d.ioctlDownload = true →
    x.1.vramCaptures = false

end MacQuadra800

------------------------------------------------------------
-- The Invariant
------------------------------------------------------------

namespace MacQuadra800

/- The SDRAM bridge is sound, and idle while it starts up. -/
structure Serves (x : Sdram.Bridge × Sdram.Log) : Prop where
  sound : Sdram.Sound x
  free : x.1.ctl.state = .startup → x.1.sys.busy = false

/-
  `posted`: an acknowledge over a busy bridge is a write's.
  `capture`: the second phase of the video memory is for the
  beat on the port.  `shown`: the display acknowledges a
  request that is up.
-/
structure Phases (cells₀ : Cells) (x : Emu × Books) :
    Prop where
  rom : RomInv cells₀ (x.1.rom, x.2.upload)
  board : Quadra800.BoardInv (x.1.board, x.2.ledger)
  serves : Serves (x.1.sdram, x.2.log)
  posted : x.1.sdram.sys.ack = true →
    x.1.sdram.sys.busy = true → x.1.beat.req = true →
      x.1.beat.write = true
  capture : x.1.ddr.vramPh = true →
    x.1.beat.req = true ∧ x.1.beat.isVram = true ∧
      x.1.ddr.memAckR = false
  shown : x.1.dafb.ack = true →
    x.1.board.service.dafbSel = true

end MacQuadra800

------------------------------------------------------------
-- The SDRAM in Three Edges
------------------------------------------------------------

namespace MacQuadra800

variable {m : Emu} {d : EmuIn}

theorem serves_logged
    {x : Sdram.Bridge × Sdram.Log} {i : Sdram.In}
    (hServes : Serves x)
    (hOk : Sdram.InService x.1 i) :
    Serves (Sdram.logged x i) where
  sound := Sdram.sound_step hServes.sound hOk.1
    (Sdram.unclaimed_of_free hServes.sound.hand hServes.free)
  free := Sdram.free_step hServes.sound.prepared hOk
    hServes.free

theorem startup_of_init
    {b : Sdram.Bridge} {i : Sdram.In}
    (hInit : i.init = true) :
    (b.step i).ctl.state = .startup :=
  (@Sdram.pos_of_init b.ctl (b.ports i) rfl hInit).1

/- Between two edges of the machine no beat is captured. -/
theorem captures_between (b : Sdram.Bridge) (f : BitVec 16) :
    b.captures (d.between f) = false := by
  simp [Sdram.Bridge.captures, EmuIn.between]

theorem between_inService
    {b : Sdram.Bridge} {f : BitVec 16}
    (hLocked : d.pllLocked = false → b.ctl.state = .startup) :
    Sdram.InService b (d.between f) := by
  refine ⟨fun hInit => hLocked (by simpa [EmuIn.between] using
    hInit), fun hCaptures => ?_⟩
  rw [captures_between] at hCaptures
  exact Bool.noConfusion hCaptures

theorem serves_edges
    {g : Sdram.Log}
    (hServes : Serves (m.sdram, g))
    (hLocked : d.pllLocked = false →
      m.sdram.ctl.state = .startup)
    (hStarted : m.sdram.ctl.state = .startup →
      (m.beat.req && m.beat.isRam) = false) :
    Serves ((m.step d).sdram, logEdges m d g) := by
  have hFirst : Sdram.InService m.sdram (m.sdramEdge d) := by
    refine ⟨fun hInit => hLocked (by simpa [Emu.sdramEdge] using
      hInit), fun hCaptures hState => ?_⟩
    have hNone := hStarted hState
    simp only [Sdram.Bridge.captures, Emu.sdramEdge, hNone,
      Bool.and_false, Bool.false_and] at hCaptures
    exact Bool.noConfusion hCaptures
  have hServes₁ := serves_logged hServes hFirst
  have hState₁ : d.pllLocked = false →
      (m.sdram.step (m.sdramEdge d)).ctl.state = .startup :=
    fun hLow => startup_of_init (by simp [Emu.sdramEdge, hLow])
  have hServes₂ := serves_logged hServes₁
    (@between_inService d _ d.float.2.1 hState₁)
  have hState₂ : d.pllLocked = false →
      ((m.sdram.step (m.sdramEdge d)).step
        (d.between d.float.2.1)).ctl.state = .startup :=
    fun hLow => startup_of_init (by simp [EmuIn.between, hLow])
  exact serves_logged hServes₂
    (@between_inService d _ d.float.2.2 hState₂)

/- Only the common edge takes a beat. -/
theorem log_edges (m : Emu) (d : EmuIn) (g : Sdram.Log) :
    (logEdges m d g).mem =
        (Sdram.noteBeat g m.sdram (m.sdramEdge d)).mem ∧
      (logEdges m d g).want =
        (Sdram.noteBeat g m.sdram (m.sdramEdge d)).want := by
  constructor <;>
    simp [logEdges, Emu.sdramEdges, Sdram.logged,
      Clocked.watch, Sdram.noteBeat, captures_between]

end MacQuadra800

------------------------------------------------------------
-- One Edge
------------------------------------------------------------

namespace MacQuadra800

variable {cells₀ : Cells} {x : Emu × Books} {d : EmuIn}
variable {m : Emu}

theorem acked_eq (m : Emu) (d : EmuIn) :
    m.rom.acked (m.romIn d) = m.memAck := rfl

/- Only a waiting beat of the RAM is captured. -/
def Emu.captures (m : Emu) : Bool :=
  m.rom.sdr.captures (m.beat.req && m.beat.isRam)

theorem captures_iff :
    m.captures = true ↔
      m.beat.req = true ∧ m.beat.isRam = true ∧
        m.sdram.sys.busy = false ∧ m.sdram.sys.ack = false := by
  have hSdr : m.rom.sdr = Sdr.of m.sdram.sys := rfl
  simp [Emu.captures, Sdr.captures, hSdr, Sdr.of, and_assoc]

theorem captures_sdram (m : Emu) (d : EmuIn) :
    m.sdram.captures (m.sdramEdge d) = m.captures := by
  simp [Sdram.Bridge.captures, Emu.sdramEdge, Emu.captures,
    Sdr.captures, Emu.rom, Sdr.of]

/- The machine's side of the SDRAM bridge, an edge on. -/
theorem sdr_step (m : Emu) (d : EmuIn) :
    Sdr.of (m.step d).sdram.sys =
      m.rom.sdr.next (m.beat.req && m.beat.isRam) m.beat.write
        m.sdram.ram.ackTgl m.sdram.ram.hold :=
  congrArg Rom.sdr (m.rom_step d)

theorem sys_ack_step (m : Emu) (d : EmuIn) :
    (m.step d).sdram.sys.ack =
      if m.captures then m.beat.write
      else m.rom.sdr.returns && !m.sdram.sys.posted :=
  congrArg Sdr.ack (sdr_step m d)

theorem sys_busy_step (m : Emu) (d : EmuIn) :
    (m.step d).sdram.sys.busy =
      if m.captures then true
      else if m.rom.sdr.returns then false
      else m.sdram.sys.busy :=
  congrArg Sdr.busy (sdr_step m d)

theorem sys_posted_step (m : Emu) (d : EmuIn) :
    (m.step d).sdram.sys.posted =
      if m.captures then m.beat.write
      else if m.rom.sdr.returns then false
      else m.sdram.sys.posted :=
  congrArg Sdr.posted (sdr_step m d)

theorem dafb_ack_step (m : Emu) (d : EmuIn) :
    (m.step d).dafb.ack =
      (!m.reset d && (m.board.service.dafbSel && !m.dafb.ack)) :=
  Dafb.step_ack rfl

/- Out of reset the service takes a step. -/
theorem service_running (hReset : m.reset d = false) :
    (m.step d).board.service =
      Quadra800.clock m.board.service
        (Quadra800.pins m.board (m.env d)) :=
  @Quadra800.service_enabled m.board (m.env d)
    (by simp [Emu.env, hReset]) rfl

theorem reset_of_req
    (hReq : (m.step d).beat.req = true) :
    m.reset d = false := by
  have hRom : (m.rom.step (m.romIn d)).beat.req = true := by
    rw [← m.rom_step d]
    exact hReq
  exact running_of_req hRom

/- A beat nobody has answered stays on the port. -/
theorem port_kept
    (hPort : PortInv m.board.service)
    (hReset : m.reset d = false)
    (hReq : m.beat.req = true)
    (hAck : m.memAck = false) :
    (m.step d).beat = m.beat := by
  have hKept := @beat_kept m.rom (m.romIn d) hPort hReset hReq
    hAck
  rw [← m.rom_step d] at hKept
  exact hKept

end MacQuadra800

------------------------------------------------------------
-- The Phases
------------------------------------------------------------

namespace MacQuadra800

variable {cells₀ : Cells} {x : Emu × Books} {d : EmuIn}
variable {m : Emu} {g : Books}

/- A beat of the RAM that is captured has no answer yet. -/
theorem captures_unacked
    (hPhases : Phases cells₀ (m, g))
    (hCaptures : m.captures = true) :
    m.memAck = false := by
  rcases captures_iff.mp hCaptures with ⟨hReq, hRam, -, hAck⟩
  have hOurs := @ram_unacked m.rom (m.romIn {})
    hPhases.rom.other hReq hRam hAck
  exact hOurs

/- The SDRAM has no answer for a beat that is not its own. -/
theorem sdram_quiet
    (hPhases : Phases cells₀ (m, g))
    (hReq : m.beat.req = true)
    (hRam : m.beat.isRam = false) :
    m.sdram.sys.ack = false :=
  sdr_quiet hPhases.rom.sdr hReq hRam

/- The second phase is a beat waiting for its answer. -/
theorem capture_waits
    (hPhases : Phases cells₀ (m, g))
    (hPhase : m.ddr.vramPh = true) :
    m.beat.req = true ∧ m.beat.isVram = true ∧
      m.memAck = false := by
  rcases hPhases.capture hPhase with ⟨hReq, hVram, hOurs⟩
  have hRam : m.beat.isRam = false := by
    simp only [Beat.isVram, Bool.and_eq_true,
      Bool.not_eq_true'] at hVram
    exact hVram.1
  have hOther := sdram_quiet hPhases hReq hRam
  have hNone : m.memAck = false := by
    have hOurs' : m.ddr.memAckR = false := hOurs
    simp [Emu.memAck, hOurs', hOther]
  exact ⟨hReq, hVram, hNone⟩

theorem posted_step
    (hPhases : Phases cells₀ (m, g))
    (hAck' : (m.step d).sdram.sys.ack = true)
    (hBusy' : (m.step d).sdram.sys.busy = true)
    (hReq' : (m.step d).beat.req = true) :
    (m.step d).beat.write = true := by
  rw [sys_ack_step] at hAck'
  rw [sys_busy_step] at hBusy'
  cases hCaptures : m.captures with
  | true =>
      rw [hCaptures, if_pos rfl] at hAck'
      have hUnacked := captures_unacked hPhases hCaptures
      rw [port_kept hPhases.rom.port (reset_of_req hReq')
        (captures_iff.mp hCaptures).1 hUnacked]
      exact hAck'
  | false =>
      simp only [hCaptures, Bool.false_eq_true, if_false,
        Bool.and_eq_true] at hAck' hBusy'
      simp [hAck'.1] at hBusy'

/- The phase of the video memory, an edge on. -/
theorem vramPh_step (m : Emu) (d : EmuIn) :
    (m.step d).ddr.vramPh =
      if m.reset d && !d.ioctlDownload then false
      else if m.beat.req && !m.memAck && m.beat.isVram then
        !m.ddr.vramPh
      else m.ddr.vramPh := rfl

theorem capture_step
    (hPhases : Phases cells₀ (m, g))
    (hOk : EmuOk (m, g) d)
    (hPhase' : (m.step d).ddr.vramPh = true) :
    (m.step d).beat.req = true ∧
      (m.step d).beat.isVram = true ∧
      (m.step d).ddr.memAckR = false := by
  have hTurns : (m.beat.req && !m.memAck && m.beat.isVram) =
        true ∧ m.ddr.vramPh = false := by
    rw [vramPh_step] at hPhase'
    cases hPhase : m.ddr.vramPh with
    | true =>
        rcases capture_waits hPhases hPhase with
          ⟨hReq, hVram, hUnacked⟩
        simp [hPhase, hReq, hVram, hUnacked] at hPhase'
    | false =>
        simp only [hPhase, Bool.not_false] at hPhase'
        split at hPhase'
        · exact absurd hPhase' Bool.noConfusion
        · split at hPhase'
          · exact ⟨by assumption, rfl⟩
          · exact absurd hPhase' Bool.noConfusion
  rcases hTurns with ⟨hTurn, hPhase⟩
  simp only [Bool.and_eq_true, Bool.not_eq_true'] at hTurn
  rcases hTurn with ⟨⟨hReq, hUnacked⟩, hVram⟩
  have hReset : m.reset d = false := by
    rw [← Bool.not_eq_true]
    intro hReset
    cases hDownload : d.ioctlDownload with
    | true =>
        have hNone := hOk.download hDownload
        simp [Emu.vramCaptures, hReq, hVram, hUnacked,
          hPhase] at hNone
    | false =>
        rw [vramPh_step, hReset, hDownload] at hPhase'
        exact absurd hPhase' Bool.noConfusion
  have hBeat := port_kept hPhases.rom.port hReset hReq hUnacked
  rw [hBeat]
  refine ⟨hReq, hVram, ?_⟩
  have hNext := @ackR_next m.rom (m.romIn d)
  rw [← m.rom_step d] at hNext
  have hRom : m.beat.isRom = false := by
    simp only [Beat.isVram, Bool.and_eq_true,
      Bool.not_eq_true'] at hVram
    exact hVram.2
  have hWait : m.ddr.ddrWaitData = false := by
    rw [← Bool.not_eq_true]
    intro hWait
    have hReading := (hPhases.rom.fetch hWait).reading
    have hIsRom := (reading_iff.mp hReading).2.1
    rw [show m.rom.beat.isRom = m.beat.isRom from rfl, hRom]
      at hIsRom
    exact Bool.noConfusion hIsRom
  have hPhaseRom : m.rom.ddr.vramPh = false := hPhase
  have hWaitRom : m.rom.ddr.ddrWaitData = false := hWait
  have hBeatRom : m.rom.beat.isRom = false := hRom
  show (m.step d).rom.ddr.memAckR = false
  rw [hNext]
  simp [Ddr.romWrite, Ddr.romBeat, Ddr.dataIn, Ddr.vramDeliver,
    hPhaseRom, hWaitRom, hBeatRom]

theorem shown_step
    (hPhases : Phases cells₀ (m, g))
    (hAck' : (m.step d).dafb.ack = true) :
    (m.step d).board.service.dafbSel = true := by
  rw [dafb_ack_step] at hAck'
  simp only [Bool.and_eq_true, Bool.not_eq_true'] at hAck'
  rcases hAck' with ⟨hReset, hSel, hAck⟩
  have hTraffic := hPhases.board.traffic
  have hWire := Quadra800.onWire_dafb hTraffic hSel
  have hPort := Quadra800.requested_onWire hTraffic
  rw [hWire] at hPort
  have hNone : Quadra800.exchanges m.board.service
      (Quadra800.pins m.board (m.env d)) = [] := by
    have hPin : (Quadra800.pins m.board (m.env d)).dafbAck =
        false := hAck
    rw [Quadra800.exchanges_dafb hPort, hPin]
    rfl
  rw [service_running hReset]
  rcases Quadra800.request_cases hTraffic with
    ⟨w, r, -, hEnds, -⟩ | ⟨-, -, hStays⟩ | ⟨hIdle, -⟩
  · rw [hNone] at hEnds
    exact absurd hEnds (List.cons_ne_nil _ _).symm
  · rw [hWire] at hStays
    exact hStays.2.2.1
  · rw [hWire] at hIdle
    exact absurd hIdle (Option.some_ne_none _)

theorem phases_step
    (hPhases : Phases cells₀ x)
    (hOk : EmuOk x d) :
    Phases cells₀ (emuEdge cells₀ x d) := by
  rcases x with ⟨m, g⟩
  refine ⟨?_, ?_, ?_, posted_step hPhases,
    capture_step hPhases hOk, shown_step hPhases⟩
  · show RomInv cells₀ ((m.step d).rom, _)
    rw [m.rom_step d]
    exact romInv_step hPhases.rom hOk.rom
  · exact Quadra800.boardInv_step _ _ hPhases.board hOk.board
  · exact serves_edges hPhases.serves hOk.locked hOk.started

end MacQuadra800
