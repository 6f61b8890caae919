import Wombat33.Iosb.PdmaBeat
import Wombat33.Quadra800.Delivery

/-
  The board with its I/O ASIC.

  The service's request, held until the acknowledge, is what
  the beat slave accepts; the beat slave's acknowledge, with
  its fault, is what the service waits for.  The clock enable
  is tied high, as at the top level.

  Key definitions include:
    * `Machine`, `Drive`, `Machine.step`
    * `AtRest`, `Linked`

  Key theorems include:
    * `ended_iff`
    * `linked_step`
-/

------------------------------------------------------------
-- The Machine
------------------------------------------------------------

namespace Quadra800

structure Machine where
  board : Board
  asic : Iosb.Asic

/- What the CPU, the walker, the platform and the rest drive. -/
structure Drive where
  env : Env := {}
  asic : Iosb.In := {}

variable (cfg : Iosb.Config) (m : Machine) (d : Drive)

def boardIn : Env :=
  { d.env with
    ce := true
    iosbAck := m.asic.beat.ack
    iosbFault := m.asic.beat.sdmaFault
    iosbRdata := m.asic.beat.rdata }

def asicIn : Iosb.In :=
  { d.asic with
    nreset := d.env.nreset
    ce := true
    sel := m.board.service.iosbSel
    write := m.board.service.iosbWrite
    addr := m.board.service.iosbAddr
    be := m.board.service.iosbBe
    wdata := m.board.service.iosbWdata }

def Machine.step : Machine where
  board := m.board.step (boardIn m d)
  asic := Iosb.step cfg m.asic (asicIn m d)

end Quadra800

------------------------------------------------------------
-- The Beat Slave's Acknowledge
------------------------------------------------------------

namespace Iosb

variable {cfg : Config} {s : Asic} {i : In}

/- No beat is in work and none is acknowledged. -/
structure AtRest (s : Asic) : Prop where
  idle : s.beat.astate = .idle
  ack : s.beat.ack = false
  rest : Resting s

theorem beatAccept_ended
    {b : Beat}
    (hIdle : b.astate = .idle)
    (hAck : b.ack = false) :
    (beatAccept s i b).ack = true ↔
      (beatAccept s i b).astate = .idle := by
  unfold beatAccept
  by_cases hVia1 : selVia1 i = true
  · rw [if_pos hVia1]
    simp [hAck]
  by_cases hVia2 : selVia2 i = true
  · rw [if_neg hVia1, if_pos hVia2]
    simp [hIdle]
  by_cases hRegs : selRegs i = true
  · rw [if_neg hVia1, if_neg hVia2, if_pos hRegs]
    simp [hIdle]
  by_cases hDjmemc : selDjmemc i = true
  · rw [if_neg hVia1, if_neg hVia2, if_neg hRegs,
      if_pos hDjmemc]
    simp [hIdle]
  rw [if_neg hVia1, if_neg hVia2, if_neg hRegs, if_neg hDjmemc]
  by_cases hAsc : selAsc i = true
  · rw [if_pos hAsc]
    cases i.write with
    | true => simp [hIdle]
    | false => simp [hAck]
  by_cases hScc : selScc i = true
  · rw [if_neg hAsc, if_pos hScc]
    simp [hAck]
  by_cases hScsi : selScsi i = true
  · rw [if_neg hAsc, if_neg hScc, if_pos hScsi]
    simp [hIdle]
  rw [if_neg hAsc, if_neg hScc, if_neg hScsi]
  by_cases hSdma : selSdma i = true
  · rw [if_pos hSdma]
    simp [hAck]
  rw [if_neg hSdma]
  split
  · simp [hIdle]
  · simp [hIdle]

/- A beat is acknowledged as its work ends, and only then. -/
theorem ended_iff
    (hReset : i.nreset = true)
    (hCe : i.ce = true)
    (hWork : s.beat.astate ≠ .idle ∨ accept s i = true) :
    (step cfg s i).beat.ack = true ↔
      (step cfg s i).beat.astate = .idle := by
  rw [beat_enabled hReset hCe]
  cases hState : s.beat.astate with
  | idle =>
      have hAccept : accept s i = true := by
        simpa [hState] using hWork
      rcases accept_iff.mp hAccept with ⟨-, -, hSel, hAck⟩
      rw [beatNext_of_idle hState]
      simp only [hSel, hAck, Bool.not_false, Bool.and_self,
        if_true]
      exact beatAccept_ended hState rfl
  | capture | asc => simp [beatNext, hState]
  | via | sccAcc | sccRel =>
      simp only [beatNext, hState]
      split <;> simp
  | sdma =>
      simp only [beatNext, hState, beatSdma]
      split_ifs <;> simp [*]

/- Otherwise it goes back to rest. -/
theorem atRest_step
    (hReset : i.nreset = true)
    (hCe : i.ce = true)
    (hIdle : s.beat.astate = .idle)
    (hRest : Resting s)
    (hNone : accept s i = false) :
    AtRest (step cfg s i) := by
  have hOther : accept s i = true → device i ≠ .sdma := by
    simp [hNone]
  have hQuiet : (i.sel && !s.beat.ack) = false := by
    simpa [accept, hCe, hIdle] using hNone
  have hBeat : (step cfg s i).beat =
      { s.beat with ack := false, sdmaFault := false } := by
    rw [beat_enabled hReset hCe, beatNext_of_idle hIdle, hQuiet]
    simp
  exact {
    idle := by rw [hBeat]; exact hIdle
    ack := by rw [hBeat]
    rest := (resting_step hReset hRest hOther).1 }

theorem atRest_reset
    (hReset : i.nreset = false) :
    AtRest (step cfg s i) where
  idle := by simp [step, hReset, resetBeat]
  ack := by simp [step, hReset, resetBeat]
  rest := (resting_reset hReset).1

end Iosb

------------------------------------------------------------
-- The Link
------------------------------------------------------------

namespace Quadra800

open Iosb (Asic Present AtRest BeatOpen BeatDone)

/- The port's address is in the pseudo-DMA window. -/
def sdmaPort (sv : Service) : Prop :=
  Iosb.device { addr := sv.iosbAddr } = .sdma

/- The beat accepted last is the one on the port. -/
structure OnPort (sv : Service) (p : Present) : Prop where
  write : p.write = sv.iosbWrite
  be : p.be = sv.iosbBe
  wdata : p.wdata = sv.iosbWdata

/-
  Where the service's IOSB beat is: nowhere, requested and
  not accepted, in work, or acknowledged.
-/
inductive Linked (sv : Service) (s : Asic) (p : Present) : Prop
  | free
      (hSvc : sv.svc ≠ .iosb)
      (hRest : AtRest s)
  | pending
      (hSvc : sv.svc = .iosb)
      (hRest : AtRest s)
  | working
      (hSvc : sv.svc = .iosb)
      (hWork : s.beat.astate ≠ .idle)
      (hAck : s.beat.ack = false)
      (hPort : OnPort sv p)
      (hOpen : sdmaPort sv → ∃ earlier, BeatOpen s p earlier)
      (hOther : ¬ sdmaPort sv → Iosb.Resting s)
  | answered
      (hSvc : sv.svc = .iosb)
      (hIdle : s.beat.astate = .idle)
      (hAck : s.beat.ack = true)
      (hRest : Iosb.Resting s)
      (hPort : OnPort sv p)
      (hDone : sdmaPort sv → s.beat.sdmaFault = false →
        BeatDone s.beat.rdata p)

variable {cfg : Iosb.Config} {m : Machine} {d : Drive}
variable {g : Traffic} {p : Present}

/- The request line says which service is on. -/
theorem iosbSel_iff
    {s : Service}
    (hTraffic : TrafficInv s g) :
    s.iosbSel = true ↔ s.svc = .iosb := by
  cases hServing : g.serving with
  | none =>
      have hFree := hTraffic.free hServing
      simp [hFree.svc, hFree.port.2.1]
  | some j =>
      have hBusy := hTraffic.busy j hServing
      have hPort := hBusy.port
      rw [hBusy.svc]
      unfold Job.wire at hPort
      cases hTarget : j.target <;>
        simp only [hTarget, Requested] at hPort <;>
        simp [Target.svc, hPort]

/- The board's service in a cycle out of reset. -/
theorem service_step (hReset : d.env.nreset = true) :
    (m.board.step (boardIn m d)).service =
      clock m.board.service (pins m.board (boardIn m d)) :=
  service_enabled hReset rfl

/- An unacknowledged beat stays on the port. -/
theorem service_waits
    (hSvc : m.board.service.svc = .iosb)
    (hAck : m.asic.beat.ack = false) :
    clock m.board.service (pins m.board (boardIn m d)) =
      settle m.board.service (pins m.board (boardIn m d)) := by
  apply clock_waiting
  · rw [hSvc]
    exact Svc.noConfusion
  · simp [replied, hSvc, pins, boardIn, hAck]

/- The beat slave accepts what is requested. -/
theorem accept_asicIn :
    Iosb.accept m.asic (asicIn m d) = true ↔
      m.asic.beat.astate = .idle ∧
        m.board.service.iosbSel = true ∧
        m.asic.beat.ack = false := by
  rw [Iosb.accept_iff]
  simp [asicIn]

theorem device_asicIn :
    Iosb.device (asicIn m d) = .sdma ↔
      sdmaPort m.board.service := Iff.rfl

/- The accepted beat is the one on the port. -/
theorem onPort_accept
    (hReset : d.env.nreset = true)
    (hAccept : Iosb.accept m.asic (asicIn m d) = true) :
    OnPort m.board.service (p.note m.asic (asicIn m d)) := by
  have hNote : p.note m.asic (asicIn m d) =
      { write := m.board.service.iosbWrite
        be := m.board.service.iosbBe
        wdata := m.board.service.iosbWdata
        moved := [] } := by
    simp only [Iosb.Present.note, hAccept]
    simp [asicIn, hReset]
  rw [hNote]
  exact ⟨rfl, rfl, rfl⟩

theorem onPort_work
    (hReset : d.env.nreset = true)
    (hNone : Iosb.accept m.asic (asicIn m d) = false)
    (hPort : OnPort m.board.service p) :
    OnPort m.board.service (p.note m.asic (asicIn m d)) := by
  have hNote : p.note m.asic (asicIn m d) =
      { p with
        moved := p.moved ++ Iosb.poppedNow m.asic (asicIn m d) ++
          Iosb.takenNow m.asic (asicIn m d) } := by
    simp only [Iosb.Present.note, hNone]
    simp [asicIn, hReset]
  rw [hNote]
  exact ⟨hPort.write, hPort.be, hPort.wdata⟩

/- A pending beat is accepted. -/
theorem linked_accept
    (hReset : d.env.nreset = true)
    (hSvc : m.board.service.svc = .iosb)
    (hRest : AtRest m.asic)
    (hAccept : Iosb.accept m.asic (asicIn m d) = true) :
    Linked m.board.service (Iosb.step cfg m.asic (asicIn m d))
      (p.note m.asic (asicIn m d)) := by
  have hPort := @onPort_accept m d p hReset hAccept
  by_cases hSdma : sdmaPort m.board.service
  · have hOpen := @Iosb.beatOpen_accept cfg m.asic (asicIn m d) p
      hReset hAccept hSdma hRest.rest
    refine .working hSvc ?_ hOpen.ack hPort (fun _ => ⟨_, hOpen⟩)
      (fun hOther => absurd hSdma hOther)
    rw [hOpen.state]
    exact Iosb.AState.noConfusion
  · have hNext := (@Iosb.resting_step cfg m.asic (asicIn m d)
      hReset hRest.rest (fun _ => hSdma)).1
    have hEnded := @Iosb.ended_iff cfg m.asic (asicIn m d) hReset
      rfl (Or.inr hAccept)
    cases hAck :
        (Iosb.step cfg m.asic (asicIn m d)).beat.ack with
    | true =>
        exact .answered hSvc (hEnded.mp hAck) hAck hNext hPort
          (fun hIn => absurd hIn hSdma)
    | false =>
        refine .working hSvc ?_ hAck hPort
          (fun hIn => absurd hIn hSdma) (fun _ => hNext)
        intro hIdle
        rw [hEnded.mpr hIdle] at hAck
        exact Bool.noConfusion hAck

/- A beat in work goes on or ends. -/
theorem linked_work
    (hReset : d.env.nreset = true)
    (hSvc : m.board.service.svc = .iosb)
    (hWork : m.asic.beat.astate ≠ .idle)
    (hPort : OnPort m.board.service p)
    (hOpen : sdmaPort m.board.service →
      ∃ earlier, BeatOpen m.asic p earlier)
    (hOther : ¬ sdmaPort m.board.service →
      Iosb.Resting m.asic) :
    Linked m.board.service (Iosb.step cfg m.asic (asicIn m d))
      (p.note m.asic (asicIn m d)) := by
  have hNone : Iosb.accept m.asic (asicIn m d) = false := by
    simp [Iosb.accept, hWork]
  have hNextPort := onPort_work hReset hNone hPort
  by_cases hSdma : sdmaPort m.board.service
  · rcases hOpen hSdma with ⟨earlier, hBeat⟩
    have hOn (hNext : ∃ earlier,
        BeatOpen (Iosb.step cfg m.asic (asicIn m d))
          (p.note m.asic (asicIn m d)) earlier) :
        Linked m.board.service
          (Iosb.step cfg m.asic (asicIn m d))
          (p.note m.asic (asicIn m d)) := by
      rcases hNext with ⟨later, hNext⟩
      refine .working hSvc ?_ hNext.ack hNextPort
        (fun _ => ⟨later, hNext⟩) (fun hNot => absurd hSdma hNot)
      rw [hNext.state]
      exact Iosb.AState.noConfusion
    cases hShown : m.asic.scsi.dmaValid with
    | true =>
        by_cases hLast : m.asic.beat.sdmaLeft = 1
        · rcases @Iosb.beat_finished cfg m.asic (asicIn m d) p
            earlier hReset rfl hBeat hShown hLast with
            ⟨hAck, -, hIdle, hRest, hSame, hDone⟩
          rw [hSame] at hNextPort ⊢
          exact .answered hSvc hIdle hAck hRest hNextPort
            (fun _ _ => hDone)
        · exact hOn ⟨_, Iosb.beatOpen_take hReset rfl hBeat hShown
            hLast⟩
    | false =>
        cases hExpires : Iosb.expires cfg m.asic (asicIn m d) with
        | true =>
            rcases Iosb.beat_failed hExpires with
              ⟨hAck, hFault, hIdle, hRest⟩
            exact .answered hSvc hIdle hAck hRest hNextPort
              (fun _ hGood => absurd hGood (by simp [hFault]))
        | false =>
            exact hOn ⟨_, Iosb.beatOpen_wait hReset hBeat hShown
              hExpires⟩
  · have hNext := (@Iosb.resting_step cfg m.asic (asicIn m d)
      hReset (hOther hSdma) (fun _ => hSdma)).1
    have hEnded := @Iosb.ended_iff cfg m.asic (asicIn m d) hReset
      rfl (Or.inl hWork)
    cases hAck :
        (Iosb.step cfg m.asic (asicIn m d)).beat.ack with
    | true =>
        exact .answered hSvc (hEnded.mp hAck) hAck hNext hNextPort
          (fun hIn => absurd hIn hSdma)
    | false =>
        refine .working hSvc ?_ hAck hNextPort
          (fun hIn => absurd hIn hSdma) (fun _ => hNext)
        intro hIdle
        rw [hEnded.mpr hIdle] at hAck
        exact Bool.noConfusion hAck

/- A waiting service keeps its port. -/
theorem linked_settle
    {s : Asic}
    {i : Pins}
    (hLinked : Linked m.board.service s p) :
    Linked (settle m.board.service i) s p := by
  cases hLinked with
  | free hSvc hRest => exact .free hSvc hRest
  | pending hSvc hRest => exact .pending hSvc hRest
  | working hSvc hWork hAck hPort hOpen hOther =>
      exact .working hSvc hWork hAck
        ⟨hPort.write, hPort.be, hPort.wdata⟩ hOpen hOther
  | answered hSvc hIdle hAck hRest hPort hDone =>
      exact .answered hSvc hIdle hAck hRest
        ⟨hPort.write, hPort.be, hPort.wdata⟩ hDone

/- A beat slave at rest is so whatever the service does. -/
theorem linked_rest
    {sv : Service}
    {s : Asic}
    (hRest : AtRest s) :
    Linked sv s p := by
  by_cases hSvc : sv.svc = .iosb
  · exact .pending hSvc hRest
  · exact .free hSvc hRest

/- One cycle keeps the link. -/
theorem linked_step
    (hReset : d.env.nreset = true)
    (hTraffic : TrafficInv m.board.service g)
    (hLinked : Linked m.board.service m.asic p) :
    Linked
      (clock m.board.service (pins m.board (boardIn m d)))
      (Iosb.step cfg m.asic (asicIn m d))
      (p.note m.asic (asicIn m d)) := by
  cases hLinked with
  | free hSvc hRest =>
      have hNone : Iosb.accept m.asic (asicIn m d) = false := by
        rw [Bool.eq_false_iff, ne_eq, accept_asicIn,
          iosbSel_iff hTraffic]
        exact fun h => hSvc h.2.1
      exact linked_rest (Iosb.atRest_step hReset rfl hRest.idle
        hRest.rest hNone)
  | pending hSvc hRest =>
      have hAccept : Iosb.accept m.asic (asicIn m d) = true :=
        accept_asicIn.mpr
          ⟨hRest.idle, (iosbSel_iff hTraffic).mpr hSvc, hRest.ack⟩
      rw [service_waits hSvc hRest.ack]
      exact linked_settle
        (linked_accept hReset hSvc hRest hAccept)
  | working hSvc hWork hAck hPort hOpen hOther =>
      rw [service_waits hSvc hAck]
      exact linked_settle
        (linked_work hReset hSvc hWork hPort hOpen hOther)
  | answered hSvc hIdle hAck hRest hPort hDone =>
      have hNone : Iosb.accept m.asic (asicIn m d) = false := by
        rw [Bool.eq_false_iff, ne_eq, accept_asicIn, hAck]
        exact fun h => Bool.noConfusion h.2.2
      exact linked_rest (Iosb.atRest_step hReset rfl hIdle hRest
        hNone)

end Quadra800
