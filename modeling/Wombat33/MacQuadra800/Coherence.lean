import Wombat33.MacQuadra800.Contents

/-
  The memories as one device, edge by edge.

  Every exchange with the RAM, the ROM, the video memory and
  the display's pitch is one more operation of the device;
  what the memories hold and what is on its way to an answer
  stay those of the device, with the beat on the port done or
  not yet.

  Key definitions include:
    * `Emu.done`, `Books.current`
    * `Held`

  Key theorems include:
    * `answer_read`
    * `held_step`
-/

------------------------------------------------------------
-- Exchanges so far
------------------------------------------------------------

namespace MacQuadra800

open Quadra800 (Wire onWire mselRam)

/- The exchanges since the last reset. -/
def Books.sent (g : Books) : List (Wire × Quadra800.Reply) :=
  g.ledger.traffic.sent

/- What they have left. -/
def Books.current (g : Books) : Phys :=
  memories.after g.base g.sent

/- The contents have the beat on the port in them. -/
def Emu.done (m : Emu) : Bool :=
  if m.beat.req then
    (if m.beat.isRam then m.sdram.sys.ack
    else m.ddr.vramPh || m.ddr.memAckR)
  else m.dafb.ack

/-
  `contents`: the memories hold what the exchanges have left,
  with the beat on the port done or not.  The rest is where a
  read's answer is on its way.
-/
structure Held (cells₀ : Cells) (x : Emu × Books) : Prop where
  replays : memories.Replays x.2.base x.2.sent
  contents : contents cells₀ x.1 x.2.log x.2.upload =
    memories.ahead x.2.current (onWire x.1.board.service)
      x.1.done
  want : x.1.beat.req = true → x.1.beat.isRam = true →
    x.1.beat.write = false →
    x.1.sdram.sys.ack = true ∨ (x.1.sdram.sys.busy = true ∧
      x.1.sdram.sys.posted = false) →
    x.2.log.want = x.2.current.load mselRam x.1.beat.addr
  word : x.1.ddr.vramPh = true → x.1.beat.write = false →
    x.1.vram.vramQa =
      x.2.current.load x.1.beat.memsel x.1.beat.addr
  data : x.1.ddr.memAckR = true → x.1.beat.req = true →
    x.1.beat.isVram = true → x.1.beat.write = false →
    x.1.ddr.memRdataR =
      x.2.current.load x.1.beat.memsel x.1.beat.addr
  pitch : x.1.dafb.ack = true →
    x.1.board.service.dafbWrite = false →
    Phys.isStride x.1.board.service.dafbAddr = true →
    x.1.dafb.rdata = x.2.current.strideWords.setWidth 32

end MacQuadra800

------------------------------------------------------------
-- Done or Not
------------------------------------------------------------

namespace MacQuadra800

open Quadra800 (Wire onWire exchanges pins)

variable {cells₀ : Cells} {m : Emu} {g : Books} {d : EmuIn}
variable {w : Wire} {r : Quadra800.Reply}

/- A beat of the memory port, from its wires. -/
theorem onWire_beat
    (hPhases : Phases cells₀ (m, g))
    (hReq : m.beat.req = true) :
    onWire m.board.service =
      some (.mem m.beat.memsel (portBeat m)) :=
  Quadra800.onWire_mem hPhases.board.traffic hReq

theorem exchanges_beat
    (hPhases : Phases cells₀ (m, g))
    (hReq : m.beat.req = true) :
    exchanges m.board.service (pins m.board (m.env d)) =
      if m.memAck then
        [(.mem m.beat.memsel (portBeat m), .data m.memRdata)]
      else [] := by
  have hPort := Quadra800.requested_onWire hPhases.board.traffic
  rw [onWire_beat hPhases hReq] at hPort
  exact Quadra800.exchanges_mem hPort

/- An answered beat is done. -/
theorem done_of_memAck
    (hPhases : Phases cells₀ (m, g))
    (hReq : m.beat.req = true)
    (hAck : m.memAck = true) :
    m.done = true := by
  have hEither : m.ddr.memAckR = true ∨
      m.sdram.sys.ack = true := by
    simpa [Emu.memAck] using hAck
  cases hRam : m.beat.isRam with
  | true =>
      have hNotOurs : m.ddr.memAckR = false := by
        rw [← Bool.not_eq_true]
        intro hOurs
        have hOther : m.beat.isRam = false :=
          hPhases.rom.other hOurs hReq
        rw [hOther] at hRam
        exact Bool.noConfusion hRam
      rcases hEither with hOurs | hSdram
      · rw [hOurs] at hNotOurs
        exact Bool.noConfusion hNotOurs
      · simp [Emu.done, hReq, hRam, hSdram]
  | false =>
      have hQuiet := sdram_quiet hPhases hReq hRam
      rcases hEither with hOurs | hSdram
      · simp [Emu.done, hReq, hRam, hOurs]
      · rw [hSdram] at hQuiet
        exact Bool.noConfusion hQuiet

/- The second phase of the video memory is its answer. -/
theorem deliver_step
    (hReq : m.beat.req = true)
    (hAck : m.memAck = false)
    (hVram : m.beat.isVram = true)
    (hPhase : m.ddr.vramPh = true) :
    (m.step d).ddr.memAckR = true := by
  have hNext := @ackR_next m.rom (m.romIn d)
  rw [← m.rom_step d] at hNext
  have hWaiting : m.rom.ddr.waiting m.rom.beat
      (m.rom.reply (m.romIn d)) = true := by
    have hOpen : m.rom.ddr.memAck
        (m.rom.reply (m.romIn d)) = false := hAck
    have hUp : m.rom.beat.req = true := hReq
    simp [Ddr.waiting, hOpen, hUp]
  have hOurs : m.rom.beat.isVram = true := hVram
  have hTurn : m.rom.ddr.vramPh = true := hPhase
  have hUp : (m.step d).rom.ddr.memAckR = true := by
    simp [hNext, Ddr.vramDeliver, Ddr.vramBeat, hWaiting,
      hOurs, hTurn]
  exact hUp

/- A beat with no answer yet is done as the edge does it. -/
theorem done_waits
    (hPhases : Phases cells₀ (m, g))
    (hReset : m.reset d = false)
    (hReq : m.beat.req = true)
    (hAck : m.memAck = false)
    (hActive : passive (.mem m.beat.memsel (portBeat m)) =
      false) :
    (m.step d).done = (m.done || m.touched) := by
  have hBeat := port_kept hPhases.rom.port hReset hReq hAck
  have hWrite : m.beat.write = true := by
    have hPort : (portBeat m).write = m.beat.write := rfl
    simp only [passive, hPort, Bool.or_eq_false_iff,
      Bool.not_eq_false'] at hActive
    exact hActive.1
  have hNone : m.ddr.memAckR = false ∧
      m.sdram.sys.ack = false := by
    simpa [Emu.memAck] using hAck
  unfold Emu.done Emu.touched
  rw [hBeat, hReq]
  cases hRam : m.beat.isRam with
  | true =>
      have hIdle : (m.rom.sdr.returns &&
          !m.sdram.sys.posted) = false := by
        rw [← Bool.not_eq_true]
        intro hReturns
        simp only [Bool.and_eq_true, Bool.not_eq_true',
          Sdr.returns] at hReturns
        have hRead : m.beat.write = false :=
          (hPhases.rom.sdr.busy hReturns.1.1 hReturns.2).2.2.1
        rw [hRead] at hWrite
        exact Bool.noConfusion hWrite
      rw [sys_ack_step, hIdle]
      simp [hNone, hWrite]
  | false =>
      have hVram : m.beat.isVram = true := by
        have hSel : m.beat.isRom = false := by
          simp only [passive, Bool.or_eq_false_iff] at hActive
          exact hActive.2
        simp [Beat.isVram, hRam, hSel]
      cases hPhase : m.ddr.vramPh with
      | true =>
          simp [deliver_step (d := d) hReq hAck hVram hPhase]
      | false =>
          have hTurn : (m.step d).ddr.vramPh = true := by
            rw [vramPh_step]
            simp [hReset, hReq, hAck, hVram, hPhase]
          simp [hTurn]

end MacQuadra800

------------------------------------------------------------
-- Nothing Under Way
------------------------------------------------------------

namespace MacQuadra800

open Quadra800 (Wire onWire exchanges pins)

variable {cells₀ : Cells} {y : Emu × Books}

/- A beat that no memory has begun is not in the contents. -/
theorem held_fresh
    (hPhases : Phases cells₀ y)
    (hReplays : memories.Replays y.2.base y.2.sent)
    (hContents : contents cells₀ y.1 y.2.log y.2.upload =
      y.2.current)
    (hBeat : y.1.beat.req = true →
      y.1.memAck = false ∧ y.1.ddr.vramPh = false ∧
        (y.1.sdram.sys.busy = true →
          y.1.sdram.sys.posted = true))
    (hDafb : y.1.board.service.dafbSel = true →
      y.1.dafb.ack = false) :
    Held cells₀ y := by
  have hNone : y.1.beat.req = true →
      y.1.ddr.memAckR = false ∧ y.1.sdram.sys.ack = false := by
    intro hReq
    simpa [Emu.memAck] using (hBeat hReq).1
  refine ⟨hReplays, ?_, ?_, ?_, ?_, ?_⟩
  · rw [hContents]
    have hPort := Quadra800.requested_onWire
      hPhases.board.traffic
    rcases hWire : onWire y.1.board.service with
      _ | (⟨memsel, b⟩ | _ | ⟨write, addr, wdata⟩)
    · rfl
    · rw [hWire] at hPort
      have hReq : y.1.beat.req = true := hPort.1
      have hDone : y.1.done = false := by
        simp [Emu.done, hReq, hNone hReq, (hBeat hReq).2.1]
      rw [hDone]
      rfl
    · exact (ahead_passive rfl _ _).symm
    · rw [hWire] at hPort
      have hReq : y.1.beat.req = false := hPort.1
      have hDone : y.1.done = false := by
        simp [Emu.done, hReq, hDafb hPort.2.2.1]
      rw [hDone]
      rfl
  · intro hReq _ _ hWay
    rcases hWay with hAck | ⟨hBusy, hPosted⟩
    · rw [(hNone hReq).2] at hAck
      exact Bool.noConfusion hAck
    · rw [(hBeat hReq).2.2 hBusy] at hPosted
      exact Bool.noConfusion hPosted
  · intro hPhase
    rw [(hBeat (hPhases.capture hPhase).1).2.1] at hPhase
    exact Bool.noConfusion hPhase
  · intro hAck hReq
    rw [(hNone hReq).1] at hAck
    exact Bool.noConfusion hAck
  · intro hAck
    rw [hDafb (hPhases.shown hAck)] at hAck
    exact Bool.noConfusion hAck

end MacQuadra800

------------------------------------------------------------
-- Answers
------------------------------------------------------------

namespace MacQuadra800

open Lanes (loadWord)
open Quadra800 (Wire onWire exchanges pins mselRam mselRom)

variable {cells₀ : Cells} {m : Emu} {g : Books} {d : EmuIn}

/- A read's contents are what the exchanges have left. -/
theorem contents_passive
    (hPhases : Phases cells₀ (m, g))
    (hHeld : Held cells₀ (m, g))
    (hReq : m.beat.req = true)
    (hPassive : passive (.mem m.beat.memsel (portBeat m)) =
      true) :
    contents cells₀ m g.log g.upload = g.current := by
  have hContents := hHeld.contents
  simp only [onWire_beat hPhases hReq,
    ahead_passive hPassive] at hContents
  exact hContents

theorem passive_read
    {memsel : BitVec 2}
    (hRead : m.beat.write = false) :
    passive (.mem memsel (portBeat m)) = true := by
  have hPort : (portBeat m).write = false := hRead
  simp [passive, hPort]

/- The answer to a read is what the device shows. -/
theorem answer_read
    (hPhases : Phases cells₀ (m, g))
    (hHeld : Held cells₀ (m, g))
    (hReq : m.beat.req = true)
    (hAck : m.memAck = true)
    (hRead : m.beat.write = false) :
    m.memRdata =
      g.current.load m.beat.memsel m.beat.addr := by
  have hEither : m.ddr.memAckR = true ∨
      m.sdram.sys.ack = true := by
    simpa [Emu.memAck] using hAck
  cases hRam : m.beat.isRam with
  | true =>
      have hSdram : m.sdram.sys.ack = true := by
        have hDone := done_of_memAck hPhases hReq hAck
        simpa [Emu.done, hReq, hRam] using hDone
      have hFree : m.sdram.sys.busy = false := by
        rw [← Bool.not_eq_true]
        intro hBusy
        rw [hPhases.posted hSdram hBusy hReq] at hRead
        exact Bool.noConfusion hRead
      have hLaw := Sdram.law_of_sound hPhases.serves.sound
      have hAnswer := hLaw.answer hFree hSdram
      have hWant := hHeld.want hReq hRam hRead (.inl hSdram)
      have hSel : m.beat.memsel = mselRam := beq_iff_eq.mp hRam
      rw [hSel, Emu.memRdata, if_pos hSdram]
      exact hAnswer.trans hWant
  | false =>
      have hSdram := sdram_quiet hPhases hReq hRam
      have hOurs : m.ddr.memAckR = true := by
        simpa [hSdram] using hEither
      have hData : m.memRdata = m.ddr.memRdataR := by
        simp [Emu.memRdata, hSdram]
      cases hVram : m.beat.isVram with
      | true =>
          rw [hData]
          exact hHeld.data hOurs hReq hVram hRead
      | false =>
          have hRom : m.beat.isRom = true := by
            simpa [Beat.isVram, hRam] using hVram
          have hReading : m.rom.reading = true :=
            reading_iff.mpr ⟨hReq, hRom, hRead⟩
          have hSel : m.beat.memsel = mselRom :=
            beq_iff_eq.mp hRom
          have hKept := hPhases.rom.data hOurs hReading
          have hContents := congrArg Phys.rom
            (contents_passive hPhases hHeld hReq
              (passive_read hRead))
          have hLoad : g.current.load mselRom m.beat.addr =
              loadWord g.current.rom
                (m.beat.addr.extractLsb' 0 18) := rfl
          rw [hData, hSel, hLoad, ← hContents]
          exact hKept

/- So an exchange with a memory agrees with the device. -/
theorem agrees_beat
    (hPhases : Phases cells₀ (m, g))
    (hHeld : Held cells₀ (m, g))
    (hReq : m.beat.req = true)
    (hAck : m.memAck = true) :
    memories.agrees g.current
      (.mem m.beat.memsel (portBeat m))
      (.data m.memRdata) := by
  intro v hShown
  cases hWrite : m.beat.write with
  | true =>
      have hPort : (portBeat m).write = true := hWrite
      simp [Phys.shown, hPort] at hShown
  | false =>
      have hPort : (portBeat m).write = false := hWrite
      simp only [Phys.shown, hPort, Bool.false_eq_true,
        if_false, Option.some.injEq] at hShown
      rw [← hShown, answer_read hPhases hHeld hReq hAck hWrite]
      rfl

theorem agrees_pitch
    (hHeld : Held cells₀ (m, g))
    (hAck : m.dafb.ack = true) :
    memories.agrees g.current
      (.dafb m.board.service.dafbWrite
        m.board.service.dafbAddr m.board.service.dafbWdata)
      (.data m.dafb.rdata) := by
  intro v hShown
  simp only [Phys.shown] at hShown
  split at hShown
  next hRead =>
      simp only [Bool.and_eq_true, Bool.not_eq_true'] at hRead
      rw [← Option.some.inj hShown]
      exact congrArg _ (hHeld.pitch hAck hRead.1 hRead.2)
  next => exact absurd hShown (Option.some_ne_none v).symm

end MacQuadra800

------------------------------------------------------------
-- One Edge
------------------------------------------------------------

namespace MacQuadra800

open Clocked (Device.replays_snoc Device.after_snoc)
open Quadra800 (Wire onWire exchanges pins)

variable {cells₀ : Cells} {m : Emu} {g : Books} {d : EmuIn}
variable {w : Wire} {r : Quadra800.Reply}

theorem sent_step (hReset : m.reset d = false) :
    (g.note cells₀ m d).sent = g.sent ++
        exchanges m.board.service (pins m.board (m.env d)) ∧
      (g.note cells₀ m d).base = g.base := by
  have hRunning : (m.env d).nreset = true := by
    simp [Emu.env, hReset]
  have hCe : (m.env d).ce = true := rfl
  constructor
  · simp [Books.note, Books.sent, Quadra800.Ledger.note,
      hRunning, hCe, Quadra800.Traffic.note]
  · simp [Books.note, hReset]

/- An exchange that ends is one more of the device's. -/
theorem current_step
    (hReset : m.reset d = false)
    (hEnds : exchanges m.board.service
      (pins m.board (m.env d)) = [(w, r)])
    (hReplays : memories.Replays g.base g.sent)
    (hAgrees : memories.agrees g.current w r) :
    memories.Replays (g.note cells₀ m d).base
        (g.note cells₀ m d).sent ∧
      (g.note cells₀ m d).current = g.current.exec w := by
  rcases @sent_step cells₀ m g d hReset with ⟨hSent, hBase⟩
  rw [hEnds] at hSent
  unfold Books.current
  rw [hBase, hSent]
  exact ⟨Device.replays_snoc.mpr ⟨hReplays, hAgrees⟩,
    Device.after_snoc⟩

theorem current_kept
    (hReset : m.reset d = false)
    (hNone : exchanges m.board.service
      (pins m.board (m.env d)) = []) :
    (g.note cells₀ m d).sent = g.sent ∧
      (g.note cells₀ m d).base = g.base ∧
      (g.note cells₀ m d).current = g.current := by
  rcases @sent_step cells₀ m g d hReset with ⟨hSent, hBase⟩
  rw [hNone, List.append_nil] at hSent
  exact ⟨hSent, hBase, by rw [Books.current, hBase, hSent]; rfl⟩

/- The contents after an edge, from those before it. -/
theorem contents_held
    (hPhases : Phases cells₀ (m, g))
    (hHeld : Held cells₀ (m, g))
    (hReset : m.reset d = false) :
    contents cells₀ (m.step d) (g.note cells₀ m d).log
        (g.note cells₀ m d).upload =
      memories.ahead g.current (onWire m.board.service)
        (m.done || m.touched) := by
  have hStep := @contents_step cells₀ m d g.log g.upload _
    hPhases.board.traffic hReset
  have hContents := hHeld.contents
  simp only at hContents
  rw [hContents, ahead_ahead] at hStep
  exact hStep

/- A reset withdraws whatever was on the wires. -/
theorem held_reset
    (hPhases' : Phases cells₀ (emuEdge cells₀ (m, g) d))
    (hReset : m.reset d = true) :
    Held cells₀ (emuEdge cells₀ (m, g) d) := by
  have hLow : (m.env d).nreset = false := by
    simp [Emu.env, hReset]
  have hService : (m.step d).board.service =
      Quadra800.resetState := by
    show Quadra800.step m.board.service
      (pins m.board (m.env d)) = _
    simp [Quadra800.step, pins, hLow]
  have hSent : (g.note cells₀ m d).sent = [] := by
    simp [Books.note, Books.sent, Quadra800.Ledger.note, hLow]
  have hBase : (g.note cells₀ m d).base =
      contents cells₀ (m.step d) (g.note cells₀ m d).log
        (g.note cells₀ m d).upload := by
    simp [Books.note, hReset]
  have hReq : (m.step d).beat.req = false := by
    show (m.step d).board.service.memReq = false
    rw [hService]
    rfl
  have hSel : (m.step d).board.service.dafbSel = false := by
    rw [hService]
    rfl
  apply held_fresh hPhases'
  · show memories.Replays _ (g.note cells₀ m d).sent
    rw [hSent]
    trivial
  · show _ = memories.after (g.note cells₀ m d).base
      (g.note cells₀ m d).sent
    rw [hSent, hBase]
    rfl
  · intro hReq'
    rw [show (m.step d).beat.req = true from hReq'] at hReq
    exact Bool.noConfusion hReq
  · intro hSel'
    rw [show (m.step d).board.service.dafbSel = true from hSel']
      at hSel
    exact Bool.noConfusion hSel

/- With an exchange its request is withdrawn. -/
theorem held_ends
    (hPhases : Phases cells₀ (m, g))
    (hPhases' : Phases cells₀ (emuEdge cells₀ (m, g) d))
    (hHeld : Held cells₀ (m, g))
    (hReset : m.reset d = false)
    (hWire : onWire m.board.service = some w)
    (hEnds : exchanges m.board.service
      (pins m.board (m.env d)) = [(w, r)])
    (hAgrees : memories.agrees g.current w r)
    (hDone : passive w = true ∨
      (m.done || m.touched) = true) :
    Held cells₀ (emuEdge cells₀ (m, g) d) := by
  rcases @current_step cells₀ m g d w r hReset hEnds
    hHeld.replays hAgrees with ⟨hReplays, hCurrent⟩
  have hNone : onWire (m.step d).board.service = none := by
    rw [service_running hReset]
    rcases Quadra800.request_cases hPhases.board.traffic with
      ⟨w', r', -, -, hOver⟩ | ⟨hNone, -⟩ | ⟨-, hNone⟩
    · exact hOver
    · exact absurd (hEnds.symm.trans hNone)
        (List.cons_ne_nil _ _)
    · exact absurd (hEnds.symm.trans hNone)
        (List.cons_ne_nil _ _)
  have hPort := Quadra800.requested_onWire
    hPhases'.board.traffic
  rw [show onWire (emuEdge cells₀ (m, g) d).1.board.service =
    none from hNone] at hPort
  apply held_fresh hPhases' hReplays
  · refine (contents_held hPhases hHeld hReset).trans ?_
    refine Eq.trans ?_ hCurrent.symm
    rw [hWire]
    rcases hDone with hPassive | hDone
    · have hSame := ahead_passive hPassive g.current true
      rw [ahead_passive hPassive]
      exact hSame.symm
    · rw [hDone]
      rfl
  · intro hReq
    exact absurd (hPort.1.symm.trans hReq) Bool.noConfusion
  · intro hSel
    exact absurd (hPort.2.2.symm.trans hSel) Bool.noConfusion

end MacQuadra800

------------------------------------------------------------
-- Waiting
------------------------------------------------------------

namespace MacQuadra800

open Lanes (loadWord)
open Quadra800 (Wire onWire exchanges pins mselRam mselRom)

variable {cells₀ : Cells} {m : Emu} {g : Books} {d : EmuIn}

/- Where nothing is asked for nothing is begun. -/
theorem held_idle
    (hPhases : Phases cells₀ (m, g))
    (hPhases' : Phases cells₀ (emuEdge cells₀ (m, g) d))
    (hHeld : Held cells₀ (m, g))
    (hReset : m.reset d = false)
    (hReq : m.beat.req = false)
    (hSel : m.board.service.dafbSel = false)
    (hNone : exchanges m.board.service
      (pins m.board (m.env d)) = []) :
    Held cells₀ (emuEdge cells₀ (m, g) d) := by
  rcases @current_kept cells₀ m g d hReset hNone with
    ⟨hSent, hBase, hCurrent⟩
  have hOwed : m.sdram.sys.busy = true →
      m.sdram.sys.posted = true := by
    intro hBusy
    cases hPosted : m.sdram.sys.posted with
    | true => rfl
    | false =>
        have hUp : m.beat.req = true :=
          (hPhases.rom.sdr.busy hBusy hPosted).1
        rw [hReq] at hUp
        exact Bool.noConfusion hUp
  have hPhase : m.ddr.vramPh = false := by
    rw [← Bool.not_eq_true]
    intro hPhase
    have hUp : m.beat.req = true := (hPhases.capture hPhase).1
    rw [hReq] at hUp
    exact Bool.noConfusion hUp
  have hCaptures := captures_idle hReq
  apply held_fresh hPhases'
  · show memories.Replays (g.note cells₀ m d).base
      (g.note cells₀ m d).sent
    rw [hSent, hBase]
    exact hHeld.replays
  · refine (contents_held hPhases hHeld hReset).trans ?_
    refine Eq.trans ?_ hCurrent.symm
    have hPort := Quadra800.requested_onWire
      hPhases.board.traffic
    rcases hWire : onWire m.board.service with
      _ | (_ | _ | _)
    · rfl
    · rw [hWire] at hPort
      exact absurd (hPort.1.symm.trans hReq) Bool.noConfusion
    · exact ahead_passive rfl _ _
    · rw [hWire] at hPort
      exact absurd (hPort.2.2.1.symm.trans hSel)
        Bool.noConfusion
  · intro _
    refine ⟨?_, ?_, ?_⟩
    · have hOurs : (m.step d).ddr.memAckR = false := by
        rw [← Bool.not_eq_true]
        intro hOurs
        have hRom : (m.rom.step (m.romIn d)).ddr.memAckR =
            true := by
          rw [← m.rom_step d]
          exact hOurs
        have hUp : m.beat.req = true :=
          (ackR_cases hPhases.rom.fetch hPhases.rom.sdr hRom).1
        rw [hReq] at hUp
        exact Bool.noConfusion hUp
      have hTheirs : (m.step d).sdram.sys.ack = false := by
        rw [sys_ack_step, hCaptures]
        rw [← Bool.not_eq_true]
        intro hReturns
        simp only [Bool.false_eq_true, if_false,
          Bool.and_eq_true, Bool.not_eq_true',
          Sdr.returns] at hReturns
        rw [hOwed hReturns.1.1] at hReturns
        exact Bool.noConfusion hReturns.2
      show ((m.step d).ddr.memAckR ||
        (m.step d).sdram.sys.ack) = false
      rw [hOurs, hTheirs]
      rfl
    · show (m.step d).ddr.vramPh = false
      rw [vramPh_step, hReq, hPhase]
      simp
    · show (m.step d).sdram.sys.busy = true →
        (m.step d).sdram.sys.posted = true
      rw [sys_busy_step, sys_posted_step, hCaptures]
      cases m.rom.sdr.returns with
      | true => simp
      | false => simpa using hOwed
  · intro _
    show (m.step d).dafb.ack = false
    rw [dafb_ack_step, hSel]
    simp

/- A register beat is done as it is taken. -/
theorem held_waits_pitch
    (hPhases : Phases cells₀ (m, g))
    (hPhases' : Phases cells₀ (emuEdge cells₀ (m, g) d))
    (hHeld : Held cells₀ (m, g))
    (hReset : m.reset d = false)
    (hSel : m.board.service.dafbSel = true)
    (hAck : m.dafb.ack = false)
    (hNone : exchanges m.board.service
      (pins m.board (m.env d)) = [])
    (hStays : onWire (m.step d).board.service =
      onWire m.board.service) :
    Held cells₀ (emuEdge cells₀ (m, g) d) := by
  rcases @current_kept cells₀ m g d hReset hNone with
    ⟨hSent, hBase, hCurrent⟩
  have hWire := Quadra800.onWire_dafb hPhases.board.traffic hSel
  have hPort := Quadra800.requested_onWire
    hPhases.board.traffic
  rw [hWire] at hPort
  have hReq : m.beat.req = false := hPort.1
  have hPort' := Quadra800.requested_onWire
    hPhases'.board.traffic
  rw [show onWire (emuEdge cells₀ (m, g) d).1.board.service =
    onWire m.board.service from hStays, hWire] at hPort'
  have hReq' : (m.step d).beat.req = false := hPort'.1
  have hAck' : (m.step d).dafb.ack = true := by
    rw [dafb_ack_step, hReset, hSel, hAck]
    rfl
  have hNoReq : (m.step d).beat.req ≠ true := by
    rw [hReq']
    exact Bool.noConfusion
  refine ⟨?_, ?_, fun h => absurd h hNoReq,
    fun h => absurd (hPhases'.capture h).1 hNoReq,
    fun _ h => absurd h hNoReq, ?_⟩
  · show memories.Replays (g.note cells₀ m d).base
      (g.note cells₀ m d).sent
    rw [hSent, hBase]
    exact hHeld.replays
  · refine (contents_held hPhases hHeld hReset).trans ?_
    have hTouched : m.touched = true := by
      simp [Emu.touched, hReq, hSel, hAck]
    have hDone : (m.step d).done = true := by
      simp [Emu.done, hReq', hAck']
    show _ = memories.ahead (g.note cells₀ m d).current
      (onWire (m.step d).board.service) (m.step d).done
    rw [hTouched, hDone, hStays, hCurrent, Bool.or_true]
  · intro _ hRead hPitch
    have hSame : (m.step d).board.service.dafbWrite =
        m.board.service.dafbWrite ∧
        (m.step d).board.service.dafbAddr =
          m.board.service.dafbAddr :=
      ⟨hPort'.2.2.2.1, hPort'.2.2.2.2.1⟩
    have hRead' : m.board.service.dafbWrite = false :=
      hSame.1.symm.trans hRead
    have hPitch' : Phys.isStride m.board.service.dafbAddr =
        true := by
      rw [← hSame.2]
      exact hPitch
    have hContents := hHeld.contents
    simp only [hWire] at hContents
    rw [ahead_passive (by simp [passive, hRead'])] at hContents
    have hShown : (m.step d).dafb.rdata =
        m.dafb.strideWords.setWidth 32 :=
      Dafb.step_rdata (by simp [Emu.dafbBus, hReset]) rfl
        (by simp [Emu.dafbBus, hSel, hAck]) hRead' hPitch'
    have hWords : m.dafb.strideWords = g.current.strideWords :=
      congrArg Phys.strideWords hContents
    show (m.step d).dafb.rdata =
      (g.note cells₀ m d).current.strideWords.setWidth 32
    rw [hCurrent, ← hWords]
    exact hShown

/- What a read of the RAM is to return, from its capture. -/
theorem want_waits
    (hHeld : Held cells₀ (m, g))
    (hContents : contents cells₀ m g.log g.upload = g.current)
    (hReq : m.beat.req = true)
    (hRam : m.beat.isRam = true)
    (hRead : m.beat.write = false)
    (hWay : (m.step d).sdram.sys.ack = true ∨
      ((m.step d).sdram.sys.busy = true ∧
        (m.step d).sdram.sys.posted = false)) :
    (g.note cells₀ m d).log.want =
      g.current.load mselRam m.beat.addr := by
  have hWant : (g.note cells₀ m d).log.want =
      (logEdges m d g.log).want := rfl
  rw [hWant, want_step, hRead]
  rw [sys_ack_step, sys_busy_step, sys_posted_step] at hWay
  cases hCaptures : m.captures with
  | true =>
      have hMem : g.log.mem = g.current.ram :=
        congrArg Phys.ram hContents
      simp only [Bool.not_false, Bool.and_self, if_true, hMem]
      rfl
  | false =>
      have hOwed : m.sdram.sys.busy = true ∧
          m.sdram.sys.posted = false := by
        simp only [hCaptures, Bool.false_eq_true, if_false,
          Sdr.returns, Bool.and_eq_true,
          Bool.not_eq_true'] at hWay
        rcases hWay with ⟨⟨hBusy, -⟩, hPosted⟩ | hStill
        · exact ⟨hBusy, hPosted⟩
        · split at hStill
          · exact absurd hStill.1 Bool.noConfusion
          · exact hStill
      simp only [Bool.false_and, Bool.false_eq_true, if_false]
      exact hHeld.want hReq hRam hRead (.inr hOwed)

/- What port A has read, and then hands over. -/
theorem word_waits
    (hPhases : Phases cells₀ (m, g))
    (hContents : contents cells₀ m g.log g.upload = g.current)
    (hReset : m.reset d = false)
    (hPhase' : (m.step d).ddr.vramPh = true) :
    (m.step d).vram.vramQa =
      g.current.load m.beat.memsel m.beat.addr := by
  have hVram : m.beat.isVram = true := by
    rw [vramPh_step, hReset] at hPhase'
    cases hVram : m.beat.isVram with
    | true => rfl
    | false =>
        simp only [Bool.false_and, hVram, Bool.and_false,
          Bool.false_eq_true, if_false] at hPhase'
        exact hVram.symm.trans (hPhases.capture hPhase').2.1
  have hSel : (m.beat.memsel == mselRam) = false ∧
      (m.beat.memsel == mselRom) = false := by
    simp only [Beat.isVram, Bool.and_eq_true,
      Bool.not_eq_true'] at hVram
    exact hVram
  have hLoad : g.current.load m.beat.memsel m.beat.addr =
      g.current.vram (g.current.place m.beat.addr) := by
    simp [Phys.load, hSel]
  rw [hLoad, ← hContents]
  rfl

theorem data_waits
    (hPhases : Phases cells₀ (m, g))
    (hHeld : Held cells₀ (m, g))
    (hVram : m.beat.isVram = true)
    (hRead : m.beat.write = false)
    (hOurs' : (m.step d).ddr.memAckR = true) :
    (m.step d).ddr.memRdataR =
      g.current.load m.beat.memsel m.beat.addr := by
  have hRom : m.beat.isRom = false := by
    simp only [Beat.isVram, Bool.and_eq_true,
      Bool.not_eq_true'] at hVram
    exact hVram.2
  have hBeatRom : m.rom.beat.isRom = false := hRom
  have hWait : m.rom.ddr.ddrWaitData = false := by
    rw [← Bool.not_eq_true]
    intro hWait
    have hReading := (hPhases.rom.fetch hWait).reading
    have hIsRom := (reading_iff.mp hReading).2.1
    exact Bool.noConfusion (hIsRom.symm.trans hBeatRom)
  have hNext := @ackR_next m.rom (m.romIn d)
  rw [← m.rom_step d] at hNext
  have hDeliver : m.rom.ddr.vramDeliver m.rom.beat
      (m.rom.reply (m.romIn d)) = true := by
    have hUp : (m.step d).rom.ddr.memAckR = true := hOurs'
    rw [hNext] at hUp
    simpa [Ddr.romWrite, Ddr.romBeat, Ddr.dataIn, hBeatRom,
      hWait] using hUp
  have hPhase : m.ddr.vramPh = true := by
    simp only [Ddr.vramDeliver, Bool.and_eq_true] at hDeliver
    exact hDeliver.2
  have hData : (m.rom.step (m.romIn d)).ddr.memRdataR =
      m.vram.vramQa := by
    simp only [Rom.step, Ddr.next, Ddr.dataIn, hWait, hDeliver,
      Bool.false_and, Bool.false_eq_true, if_false, if_true]
    rfl
  rw [← m.rom_step d] at hData
  exact hData.trans (hHeld.word hPhase hRead)

/- A beat that waits for its memory. -/
theorem held_waits_beat
    (hPhases : Phases cells₀ (m, g))
    (hHeld : Held cells₀ (m, g))
    (hReset : m.reset d = false)
    (hReq : m.beat.req = true)
    (hAck : m.memAck = false)
    (hNone : exchanges m.board.service
      (pins m.board (m.env d)) = [])
    (hStays : onWire (m.step d).board.service =
      onWire m.board.service) :
    Held cells₀ (emuEdge cells₀ (m, g) d) := by
  rcases @current_kept cells₀ m g d hReset hNone with
    ⟨hSent, hBase, hCurrent⟩
  have hWire := onWire_beat hPhases hReq
  have hBeat := port_kept hPhases.rom.port hReset hReq hAck
  have hRight (hRead : m.beat.write = false) :
      contents cells₀ m g.log g.upload = g.current :=
    contents_passive hPhases hHeld hReq (passive_read hRead)
  refine ⟨?_, ?_, ?_, ?_, ?_, ?_⟩
  · show memories.Replays (g.note cells₀ m d).base
      (g.note cells₀ m d).sent
    rw [hSent, hBase]
    exact hHeld.replays
  · refine (contents_held hPhases hHeld hReset).trans ?_
    show _ = memories.ahead (g.note cells₀ m d).current
      (onWire (m.step d).board.service) (m.step d).done
    rw [hStays, hCurrent, hWire]
    cases hPassive : passive
        (.mem m.beat.memsel (portBeat m)) with
    | true => rw [ahead_passive hPassive, ahead_passive hPassive]
    | false =>
        rw [done_waits hPhases hReset hReq hAck hPassive]
  · intro _ hRam' hRead' hWay
    have hRead : m.beat.write = false := by
      rw [← hBeat]
      exact hRead'
    have hRam : m.beat.isRam = true := by
      rw [← hBeat]
      exact hRam'
    show (g.note cells₀ m d).log.want =
      (g.note cells₀ m d).current.load mselRam
        (m.step d).beat.addr
    rw [hCurrent, hBeat]
    exact want_waits hHeld (hRight hRead) hReq hRam hRead
      hWay
  · intro hPhase' hRead'
    show (m.step d).vram.vramQa =
      (g.note cells₀ m d).current.load (m.step d).beat.memsel
        (m.step d).beat.addr
    have hRead : m.beat.write = false := by
      rw [← hBeat]
      exact hRead'
    rw [hCurrent, hBeat]
    exact word_waits hPhases (hRight hRead) hReset hPhase'
  · intro hOurs' _ hVram' hRead'
    show (m.step d).ddr.memRdataR =
      (g.note cells₀ m d).current.load (m.step d).beat.memsel
        (m.step d).beat.addr
    have hRead : m.beat.write = false := by
      rw [← hBeat]
      exact hRead'
    have hVram : m.beat.isVram = true := by
      rw [← hBeat]
      exact hVram'
    rw [hCurrent, hBeat]
    exact data_waits hPhases hHeld hVram hRead hOurs'
  · intro hAck'
    have hPort := Quadra800.requested_onWire
      hPhases.board.traffic
    rw [hWire] at hPort
    have hShown : (m.step d).dafb.ack = true := hAck'
    rw [dafb_ack_step, hPort.2.2.1] at hShown
    simp at hShown

theorem held_step
    {x : Emu × Books}
    (hPhases : Phases cells₀ x)
    (hOk : EmuOk x d)
    (hHeld : Held cells₀ x) :
    Held cells₀ (emuEdge cells₀ x d) := by
  rcases x with ⟨m, g⟩
  have hPhases' := phases_step hPhases hOk
  cases hReset : m.reset d with
  | true => exact held_reset hPhases' hReset
  | false =>
      have hTraffic := hPhases.board.traffic
      have hPort := Quadra800.requested_onWire hTraffic
      have hService := service_running hReset
      rcases @Quadra800.request_cases _
          (pins m.board (m.env d)) _ hTraffic with
        ⟨w, r, hWire, hEnds, -⟩ | ⟨hNone, hStays, -⟩ |
        ⟨hWire, hNone⟩
      · have hEnded := @held_ends cells₀ m g d w r hPhases
          hPhases' hHeld hReset hWire hEnds
        rw [hWire] at hPort
        cases w with
        | mem memsel b =>
            have hReq : m.beat.req = true := hPort.1
            have hAck : m.memAck = true := by
              by_contra hAck
              rw [exchanges_beat hPhases hReq, if_neg hAck]
                at hEnds
              exact List.cons_ne_nil _ _ hEnds.symm
            rw [exchanges_beat hPhases hReq, if_pos hAck,
              List.singleton_inj, Prod.mk.injEq] at hEnds
            apply hEnded
            · rw [← hEnds.1, ← hEnds.2]
              exact agrees_beat hPhases hHeld hReq hAck
            · right
              rw [done_of_memAck hPhases hReq hAck]
              rfl
        | iosb write addr be wdata =>
            exact hEnded
              (fun v hShown => absurd hShown (Option.some_ne_none v).symm)
              (.inl rfl)
        | dafb write addr wdata =>
            have hReq : m.beat.req = false := hPort.1
            rw [Quadra800.exchanges_dafb hPort] at hEnds
            have hAck : m.dafb.ack = true := by
              by_contra hAck
              have hPin : (pins m.board (m.env d)).dafbAck =
                  false := by
                rw [← Bool.not_eq_true]
                exact hAck
              rw [hPin] at hEnds
              exact List.cons_ne_nil _ _ hEnds.symm
            have hPin : (pins m.board (m.env d)).dafbAck =
                true := hAck
            rw [hPin, if_pos rfl, List.singleton_inj,
              Prod.mk.injEq] at hEnds
            rcases hPort with ⟨-, -, -, rfl, rfl, rfl⟩
            apply hEnded
            · rw [← hEnds.2]
              exact agrees_pitch hHeld hAck
            · right
              simp [Emu.done, hReq, hAck]
      · rcases hWire : onWire m.board.service with
          _ | (⟨memsel, b⟩ | _ | ⟨write, addr, wdata⟩)
        · rw [hWire] at hPort
          exact held_idle hPhases hPhases' hHeld hReset hPort.1
            hPort.2.2 hNone
        · rw [hWire] at hPort
          have hReq : m.beat.req = true := hPort.1
          have hAck : m.memAck = false := by
            rw [← Bool.not_eq_true]
            intro hAck
            rw [exchanges_beat hPhases hReq, if_pos hAck]
              at hNone
            exact List.cons_ne_nil _ _ hNone
          exact held_waits_beat hPhases hHeld hReset hReq hAck
            hNone (by rw [hService]; exact hStays)
        · rw [hWire] at hPort
          exact held_idle hPhases hPhases' hHeld hReset hPort.1
            hPort.2.2.1 hNone
        · rw [hWire] at hPort
          have hAck : m.dafb.ack = false := by
            rw [← Bool.not_eq_true]
            intro hAck
            have hPin : (pins m.board (m.env d)).dafbAck =
                true := hAck
            rw [Quadra800.exchanges_dafb hPort, hPin] at hNone
            exact List.cons_ne_nil _ _ hNone
          exact held_waits_pitch hPhases hPhases' hHeld hReset
            hPort.2.2.1 hAck hNone
            (by rw [hService]; exact hStays)
      · rw [hWire] at hPort
        exact held_idle hPhases hPhases' hHeld hReset hPort.1
          hPort.2.2 hNone

end MacQuadra800
