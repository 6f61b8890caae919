import Wombat33.Clocked.Run
import Wombat33.MacQuadra800.RomImage

/-
  The boot ROM, from the download to the CPU.

  Beside the run a ledger keeps the halfwords the framework
  handed over and the writes the DDR3 memory took.  The
  memory's writes and those still in flight are the
  halfwords, each once and in order; a ROM read is answered
  with the bytes downloaded.

  Key definitions include:
    * `Upload`, `noteUpload`
    * `RomOk`
    * `RomKept`, `RomInv`

  Key theorems include:
    * `inFlight_next`
    * `romInv_step`
    * `romKept_of_romInv`
-/

------------------------------------------------------------
-- Ledger, Contract and Property
------------------------------------------------------------

namespace MacQuadra800

open Lanes (Mem loadWord)

/-
  The halfwords handed over, the writes the memory took, and
  whether the last cycle was a reset.
-/
structure Upload where
  downloads : List Halfword
  bus : List BusWrite
  wasReset : Bool

def Upload.start : Upload := ⟨[], [], true⟩

/- The write on the port. -/
def Ddr.portWrite (s : Ddr) : BusWrite :=
  ⟨s.ddramAddr, s.ddramDin, s.ddramBe⟩

def noteUpload (g : Upload) (s : Rom) (i : RomIn) :
    Upload where
  downloads := g.downloads ++
    if Ddr.capture i then [⟨i.ioctlAddr, i.ioctlDout⟩] else []
  bus := g.bus ++
    if Memory.takesWrite s.ddr i then [s.ddr.portWrite] else []
  wasReset := s.reset i

/- The write on the port, then the one still to be issued. -/
def Ddr.inFlight (s : Ddr) : List BusWrite :=
  (if s.ddramWe then [s.portWrite] else []) ++
    if s.ioctlPend then [busWrite ⟨s.ioctlA, s.ioctlD⟩] else []

namespace Rom

variable (s : Rom) (i : RomIn)

def acked : Bool := s.ddr.memAck (s.reply i)

/- The machine has a read of the ROM on the port. -/
def reading : Bool :=
  s.beat.req && s.beat.isRom && !s.beat.write

/- A read of the ROM or of the RAM nobody has answered. -/
def outstanding : Bool :=
  s.beat.req && !s.beat.write && !s.beat.isVram && !s.acked i

/- The longword the beat addresses, modulo 1 MB. -/
def romAddr : BitVec 18 := s.beat.addr.extractLsb' 0 18

end Rom

/-
  What the surroundings keep to: no halfword while the bridge
  holds one, no machine reset while a read is outstanding,
  and no RESET that drops a halfword.
-/
structure RomOk (s : Rom) (i : RomIn) : Prop where
  paced : Ddr.capture i = true → s.ddr.ioctlWait = false
  quiet : s.reset i = true → s.outstanding i = false
  kept : i.resetPin = true → Ddr.capture i = false ∧
    (s.ddr.ioctlPend = true →
      s.ddr.issue (s.reply i) = true)

instance (s : Rom) (i : RomIn) : Decidable (RomOk s i) :=
  decidable_of_iff
    ((Ddr.capture i = true → s.ddr.ioctlWait = false) ∧
      (s.reset i = true → s.outstanding i = false) ∧
      (i.resetPin = true → Ddr.capture i = false ∧
        (s.ddr.ioctlPend = true →
          s.ddr.issue (s.reply i) = true)))
    ⟨fun h => ⟨h.1, h.2.1, h.2.2⟩,
      fun h => ⟨h.paced, h.quiet, h.kept⟩⟩

/- The bytes of the ROM as downloaded so far. -/
def Upload.rom (g : Upload) (cells₀ : Cells) : Mem 18 :=
  image (romCells cells₀) g.downloads

/-
  What is asked of an edge.  Every halfword is on its way or
  taken by the memory, once and in order; the bytes of those
  taken are in the memory and every other byte is as it was;
  a read returns the downloaded bytes; an ack is for a
  waiting beat, lasts one cycle and ends the beat.
-/
structure RomKept
    (cells₀ : Cells)
    (x : Rom × Upload)
    (i : RomIn) : Prop where
  once : x.2.bus ++ x.1.ddr.inFlight =
    x.2.downloads.map busWrite
  lanes : romCells x.1.memory.cells =
    image (romCells cells₀) (x.2.downloads.take x.2.bus.length)
  outside : ∀ a, (∀ w, a ≠ Ddr.romWord w) →
    x.1.memory.cells a = cells₀ a
  single : (x.1.ddr.ddramWe || x.1.ddr.ddramRd) = true →
    x.1.ddr.ddramBurstcnt = 1#8
  read : x.1.reading = true → x.1.acked i = true →
    x.1.ddr.memRdata (x.1.reply i) =
      loadWord (x.2.rom cells₀) x.1.romAddr
  ack : x.1.ddr.memAckR = true →
    x.1.beat.req = true ∨ x.2.wasReset = true
  pulse : x.1.ddr.memAckR = true →
    (x.1.step i).ddr.memAckR = false
  ended : x.1.beat.req = true → x.1.acked i = true →
    (x.1.step i).beat.req = false

end MacQuadra800

------------------------------------------------------------
-- The Machine's Side
------------------------------------------------------------

namespace MacQuadra800

variable {s : Rom} {i : RomIn}

/- The service presents a beat exactly while it waits. -/
def PortInv (s : Quadra800.Service) : Prop :=
  s.memReq = decide (s.svc = .mem)

theorem portInv_take
    {s : Quadra800.Service}
    (hReq : s.memReq = false)
    (walker : Bool)
    (ramCfg : BitVec 2)
    (b : Quadra800.Beat) :
    PortInv (Quadra800.take s walker ramCfg b) := by
  unfold PortInv Quadra800.take Quadra800.dispatch
  split <;>
    simp [hReq, Quadra800.startMem, Quadra800.startIosb,
      Quadra800.startDafb]

theorem portInv_step
    {s : Quadra800.Service} {i : Quadra800.Pins}
    (hInv : PortInv s) :
    PortInv (Quadra800.step s i) := by
  have hHeld : ∀ t : Quadra800.Svc, s.svc = t →
      s.memReq = decide (t = .mem) := by
    rintro t rfl
    exact hInv
  unfold Quadra800.step
  split
  · rfl
  · split
    · unfold Quadra800.clock
      split <;> rename_i hSvc
      · have hReq : (Quadra800.settle s i).memReq = false :=
          hHeld _ hSvc
        unfold Quadra800.idle
        split
        · exact portInv_take hReq _ _ _
        · exact hInv
      · unfold Quadra800.mem Quadra800.answer
        split
        · split <;> rfl
        · exact hInv
      · have hReq := hHeld _ hSvc
        unfold Quadra800.iosb Quadra800.answer Quadra800.fault
        split
        · split <;> split <;> exact hReq
        · exact hInv
      · have hReq := hHeld _ hSvc
        unfold Quadra800.dafb Quadra800.answer
        split
        · split <;> exact hReq
        · exact hInv
      · have hReq := hHeld _ hSvc
        unfold Quadra800.fault
        split <;> exact hReq
      · have hReq := hHeld _ hSvc
        unfold Quadra800.answer
        split <;> exact hReq
    · exact hInv

/- A waiting service stays in its state but for an ack. -/
theorem service_waiting
    (hPort : PortInv s.service)
    (hReset : s.reset i = false)
    (hReq : s.beat.req = true) :
    (s.step i).service =
      Quadra800.mem s.service (s.cpuPins i) := by
  have hSvc : s.service.svc = .mem := by
    have hMem : s.service.memReq = true := hReq
    rw [hPort] at hMem
    exact of_decide_eq_true hMem
  show Quadra800.step s.service (s.cpuPins i) = _
  simp [Quadra800.step, Rom.cpuPins, hReset, Quadra800.clock,
    hSvc]

/- An unanswered beat stays. -/
theorem beat_kept
    (hPort : PortInv s.service)
    (hReset : s.reset i = false)
    (hReq : s.beat.req = true)
    (hAck : s.acked i = false) :
    (s.step i).beat = s.beat := by
  have hService := service_waiting hPort hReset hReq
  have hPin : (s.cpuPins i).memAck = false := hAck
  unfold Rom.beat
  rw [hService, Quadra800.mem, hPin]
  rfl

/- A reset withdraws any beat. -/
theorem beat_reset (hReset : s.reset i = true) :
    (s.step i).beat.req = false := by
  show (Quadra800.step s.service (s.cpuPins i)).memReq = false
  simp [Quadra800.step, Rom.cpuPins, hReset,
    Quadra800.resetState]

/- An answered one is withdrawn. -/
theorem beat_over
    (hPort : PortInv s.service)
    (hReq : s.beat.req = true)
    (hAck : s.acked i = true) :
    (s.step i).beat.req = false := by
  cases hReset : s.reset i with
  | true => exact beat_reset hReset
  | false =>
      have hService := service_waiting hPort hReset hReq
      have hPin : (s.cpuPins i).memAck = true := hAck
      show (s.step i).service.memReq = false
      rw [hService, Quadra800.mem, hPin]
      rfl

end MacQuadra800

------------------------------------------------------------
-- The Invariant
------------------------------------------------------------

namespace MacQuadra800

open Lanes (Mem loadWord)

/- The word of a ROM longword. -/
def Rom.romPlace (s : Rom) : BitVec 29 :=
  Ddr.romWord (s.romAddr.extractLsb' 1 17)

/- A read is on the port, or the memory owes its word. -/
def Rom.Fetching (s : Rom) : Prop :=
  (s.ddr.ddramRd = true ∧ s.memory.owed = none ∧
    s.ddr.ddramAddr = s.romPlace) ∨
  (s.ddr.ddramRd = false ∧
    s.memory.owed = some (s.memory.cells.word s.romPlace))

/- The bridge waits for the word of a ROM read. -/
structure FetchInv (s : Rom) : Prop where
  reading : s.reading = true
  noAck : s.ddr.memAckR = false
  noWe : s.ddr.ddramWe = false
  noPend : s.ddr.ioctlPend = false
  hi : s.ddr.ddrRdHi = s.romAddr.getLsbD 0
  stage : s.Fetching

/- The SDRAM bridge acks beats of the RAM only. -/
structure SdrInv (s : Rom) : Prop where
  ack : s.sdr.ack = true → s.beat.req = true →
    s.beat.isRam = true
  busy : s.sdr.busy = true → s.sdr.posted = false →
    s.beat.req = true ∧ s.beat.isRam = true ∧
      s.beat.write = false ∧ s.sdr.ack = false

structure RomInv
    (cells₀ : Cells)
    (x : Rom × Upload) : Prop where
  port : PortInv x.1.service
  once : x.2.bus ++ x.1.ddr.inFlight =
    x.2.downloads.map busWrite
  stored : x.1.memory.cells = x.2.bus.foldl Cells.put cells₀
  single : (x.1.ddr.ddramWe || x.1.ddr.ddramRd) = true →
    x.1.ddr.ddramBurstcnt = 1#8
  wait : x.1.ddr.ioctlWait = x.1.ddr.ioctlPend
  free : x.1.ddr.ddrWaitData = false →
    x.1.ddr.ddramRd = false ∧ x.1.memory.owed = none
  fetch : x.1.ddr.ddrWaitData = true → FetchInv x.1
  sdr : SdrInv x.1
  other : x.1.ddr.memAckR = true → x.1.beat.req = true →
    x.1.beat.isRam = false
  data : x.1.ddr.memAckR = true → x.1.reading = true →
    x.1.ddr.memRdataR = loadWord (x.2.rom cells₀) x.1.romAddr
  ack : x.1.ddr.memAckR = true →
    x.1.beat.req = true ∨ x.2.wasReset = true

end MacQuadra800

------------------------------------------------------------
-- Writes in Flight
------------------------------------------------------------

namespace MacQuadra800

variable {s : Rom} {i : RomIn}

/- A download holds the machine in reset. -/
theorem capture_reset (hCapture : Ddr.capture i = true) :
    s.reset i = true := by
  have hDownload : i.ioctlDownload = true := by
    simp only [Ddr.capture, Bool.and_eq_true] at hCapture
    exact hCapture.1.1
  simp [Rom.reset, Boot.reset, hDownload]

theorem no_capture (hReset : s.reset i = false) :
    Ddr.capture i = false := by
  cases hCapture : Ddr.capture i with
  | false => rfl
  | true =>
      rw [capture_reset hCapture] at hReset
      exact Bool.noConfusion hReset

theorem resetPin_reset (hPin : i.resetPin = true) :
    s.reset i = true := by
  simp [Rom.reset, Boot.reset, hPin]

theorem portFree_iff {r : Reply} :
    s.ddr.portFree r = true ↔
      s.ddr.ddrWaitData = false ∧ r.busy = false ∧
        s.ddr.ddramWe = false ∧ s.ddr.ddramRd = false := by
  simp [Ddr.portFree, and_assoc]

/- The port's write, while it is there. -/
theorem portWrite_next (hWe : s.ddr.ddramWe = true) :
    (s.step i).ddr.portWrite = s.ddr.portWrite := by
  have hFree : s.ddr.portFree (s.reply i) = false := by
    simp [Ddr.portFree, hWe]
  simp [Rom.step, Ddr.next, Ddr.portWrite, Ddr.issue,
    Ddr.romRead, Ddr.romBeat, hFree]

theorem issued_next
    (hIssue : s.ddr.issue (s.reply i) = true) :
    (s.step i).ddr.ddramWe = true ∧
      (s.step i).ddr.portWrite =
        busWrite ⟨s.ddr.ioctlA, s.ddr.ioctlD⟩ ∧
      (s.step i).ddr.ioctlPend = false := by
  simp [Rom.step, Ddr.next, Ddr.portWrite, busWrite, hIssue]

theorem we_next (hIssue : s.ddr.issue (s.reply i) = false) :
    (s.step i).ddr.ddramWe = (s.ddr.ddramWe && i.busy) := by
  have hPin : (s.reply i).busy = i.busy := rfl
  cases hBusy : i.busy <;>
    simp [Rom.step, Ddr.next, hIssue, hPin, hBusy]

/- A halfword not yet issued stays, under the contract. -/
theorem pend_next
    (hOk : RomOk s i)
    (hIssue : s.ddr.issue (s.reply i) = false) :
    (s.step i).ddr.ioctlPend =
      (Ddr.capture i || s.ddr.ioctlPend) := by
  cases hPin : i.resetPin with
  | true =>
      rcases hOk.kept hPin with ⟨hCapture, hIssued⟩
      have hPend : s.ddr.ioctlPend = false := by
        by_contra hPend
        rw [hIssued (by simpa using hPend)] at hIssue
        exact Bool.noConfusion hIssue
      simp [Rom.step, Ddr.next, hPin, hCapture, hPend]
  | false =>
      cases hCapture : Ddr.capture i <;>
        simp [Rom.step, Ddr.next, hPin, hIssue, hCapture]

/- What the port's write and the pending halfword become. -/
theorem inFlight_next
    (hOk : RomOk s i)
    (hWait : s.ddr.ioctlWait = s.ddr.ioctlPend) :
    (if Memory.takesWrite s.ddr i then [s.ddr.portWrite]
        else []) ++ (s.step i).ddr.inFlight =
      s.ddr.inFlight ++
        if Ddr.capture i then
          [busWrite ⟨i.ioctlAddr, i.ioctlDout⟩]
        else [] := by
  have hPaced : Ddr.capture i = true →
      s.ddr.ioctlPend = false := by
    intro hCapture
    rw [← hWait]
    exact hOk.paced hCapture
  cases hIssue : s.ddr.issue (s.reply i) with
  | true =>
      rcases issued_next hIssue with ⟨hWe', hWrite, hPend'⟩
      have hIssue' := hIssue
      simp only [Ddr.issue, Bool.and_eq_true,
        portFree_iff] at hIssue'
      rcases hIssue' with ⟨⟨-, -, hWe, -⟩, hPend⟩
      have hCapture : Ddr.capture i = false := by
        by_contra hCapture
        rw [hPaced (by simpa using hCapture)] at hPend
        exact Bool.noConfusion hPend
      simp [Ddr.inFlight, Memory.takesWrite, hWe, hPend, hWe',
        hPend', hWrite, hCapture]
  | false =>
      have hWe' := we_next hIssue
      have hPend' := pend_next hOk hIssue
      have hPort : ((if Memory.takesWrite s.ddr i then
            [s.ddr.portWrite] else []) ++
          if (s.step i).ddr.ddramWe then
            [(s.step i).ddr.portWrite] else []) =
          if s.ddr.ddramWe then [s.ddr.portWrite] else [] := by
        rw [hWe']
        cases hWe : s.ddr.ddramWe with
        | false => simp [Memory.takesWrite, hWe]
        | true =>
            rw [portWrite_next hWe]
            cases hBusy : i.busy <;>
              simp [Memory.takesWrite, hWe, hBusy]
      have hHalf : (if (s.step i).ddr.ioctlPend then
            [busWrite ⟨(s.step i).ddr.ioctlA,
              (s.step i).ddr.ioctlD⟩] else []) =
          (if s.ddr.ioctlPend then
            [busWrite ⟨s.ddr.ioctlA, s.ddr.ioctlD⟩]
          else []) ++ if Ddr.capture i then
            [busWrite ⟨i.ioctlAddr, i.ioctlDout⟩] else [] := by
        rw [hPend']
        cases hCapture : Ddr.capture i with
        | false => simp [Rom.step, Ddr.next, hCapture]
        | true =>
            rw [hPaced hCapture]
            simp [Rom.step, Ddr.next, hCapture]
      rw [Ddr.inFlight, Ddr.inFlight, ← List.append_assoc,
        hPort, hHalf, List.append_assoc]

end MacQuadra800

------------------------------------------------------------
-- Reads
------------------------------------------------------------

namespace MacQuadra800

open Lanes (Mem loadWord)

variable {s : Rom} {i : RomIn}

/- What the machine sees of a kept beat. -/
theorem reading_of_beat {t : Rom} (hBeat : t.beat = s.beat) :
    t.reading = s.reading ∧ t.romAddr = s.romAddr ∧
      t.romPlace = s.romPlace := by
  simp only [Rom.reading, Rom.romAddr, Rom.romPlace, hBeat,
    and_self]

theorem acked_false_iff :
    s.acked i = false ↔
      s.ddr.memAckR = false ∧ s.sdr.ack = false := by
  simp [Rom.acked, Ddr.memAck, Rom.reply]

theorem reading_iff :
    s.reading = true ↔
      s.beat.req = true ∧ s.beat.isRom = true ∧
        s.beat.write = false := by
  simp [Rom.reading, and_assoc]

/- The contract keeps a read out of reset. -/
theorem read_running
    (hOk : RomOk s i)
    (hReq : s.beat.req = true)
    (hWrite : s.beat.write = false)
    (hVram : s.beat.isVram = false)
    (hUnacked : s.acked i = false) :
    s.reset i = false := by
  cases hReset : s.reset i with
  | false => rfl
  | true =>
      have hQuiet := hOk.quiet hReset
      simp [Rom.outstanding, hReq, hWrite, hVram,
        hUnacked] at hQuiet

theorem ram_of_rom {b : Beat} (hRom : b.isRom = true) :
    b.isRam = false ∧ b.isVram = false := by
  have hSel : b.memsel = 1#2 := by
    simpa [Beat.isRom] using hRom
  simp [Beat.isVram, Beat.isRom, Beat.isRam, hSel]

/- The SDRAM bridge has no answer for a beat of the ROM. -/
theorem sdr_quiet
    (hSdr : SdrInv s)
    (hReq : s.beat.req = true)
    (hRam : s.beat.isRam = false) :
    s.sdr.ack = false := by
  cases hAck : s.sdr.ack with
  | false => rfl
  | true =>
      rw [hSdr.ack hAck hReq] at hRam
      exact Bool.noConfusion hRam

/- A fetch has nothing else going on. -/
theorem fetch_unacked
    (hFetch : FetchInv s)
    (hSdr : SdrInv s) :
    s.acked i = false := by
  rcases reading_iff.mp hFetch.reading with ⟨hReq, hRom, -⟩
  exact acked_false_iff.mpr
    ⟨hFetch.noAck, sdr_quiet hSdr hReq (ram_of_rom hRom).1⟩

theorem fetch_running
    (hOk : RomOk s i)
    (hFetch : FetchInv s)
    (hSdr : SdrInv s) :
    s.reset i = false := by
  rcases reading_iff.mp hFetch.reading with
    ⟨hReq, hRom, hWrite⟩
  exact read_running hOk hReq hWrite (ram_of_rom hRom).2
    (fetch_unacked hFetch hSdr)

/- No request starts while the bridge waits. -/
theorem busy_port (hWait : s.ddr.ddrWaitData = true) :
    s.ddr.issue (s.reply i) = false ∧
      s.ddr.romBeat s.beat (s.reply i) = false := by
  simp [Ddr.issue, Ddr.romBeat, Ddr.portFree, hWait]

/- A word comes back once the request has been taken. -/
theorem doutReady_cases
    (hStage : s.Fetching) :
    s.memory.doutReady s.ddr i =
        (i.ready && (!s.ddr.ddramRd || !i.busy)) ∧
      (s.memory.doutReady s.ddr i = true →
        s.memory.dout s.ddr i =
          s.memory.cells.word s.romPlace) := by
  rcases hStage with ⟨hRd, hOwed, hAddr⟩ | ⟨hRd, hOwed⟩
  · cases hBusy : i.busy <;>
      simp [Memory.doutReady, Memory.dout, Memory.due, hOwed,
        Memory.takesRead, hRd, hBusy, hAddr]
  · simp [Memory.doutReady, Memory.dout, Memory.due, hOwed,
      hRd]

/- Without a new request the port's read goes out. -/
theorem rd_next
    (hRead : s.ddr.romRead s.beat (s.reply i) = false) :
    (s.step i).ddr.ddramRd = (s.ddr.ddramRd && i.busy) := by
  have hPin : (s.reply i).busy = i.busy := rfl
  cases hBusy : i.busy <;>
    simp [Rom.step, Ddr.next, hRead, hPin, hBusy]

/- The cells change with the port's write alone. -/
theorem cells_next (hWe : s.ddr.ddramWe = false) :
    (s.step i).memory.cells = s.memory.cells := by
  simp [Rom.step, Memory.next, Memory.takesWrite, hWe]

/- The port and the memory, while the word is not back. -/
theorem fetching_next
    (hWait : s.ddr.ddrWaitData = true)
    (hWe : s.ddr.ddramWe = false)
    (hStage : s.Fetching)
    (hMore : s.memory.doutReady s.ddr i = false)
    (hPlace : (s.step i).romPlace = s.romPlace) :
    (s.step i).Fetching := by
  rcases busy_port (i := i) hWait with ⟨hIssue, hNoBeat⟩
  have hRead : s.ddr.romRead s.beat (s.reply i) = false := by
    simp [Ddr.romRead, hNoBeat]
  have hRd' := rd_next hRead
  have hAddr' : (s.step i).ddr.ddramAddr = s.ddr.ddramAddr := by
    simp [Rom.step, Ddr.next, hIssue, hRead]
  have hOwed' : (s.step i).memory.owed =
      if i.ready then none else s.memory.due s.ddr i := rfl
  rw [(doutReady_cases (i := i) hStage).1] at hMore
  unfold Rom.Fetching
  rw [hRd', hAddr', hOwed', hPlace, cells_next hWe]
  rcases hStage with ⟨hRd, hOwed, hAddr⟩ | ⟨hRd, hOwed⟩
  · cases hBusy : i.busy with
    | true =>
        left
        simp [hRd, Memory.due, Memory.takesRead, hOwed, hBusy,
          hAddr]
    | false =>
        right
        have hReady : i.ready = false := by
          simpa [hBusy] using hMore
        simp [Memory.due, Memory.takesRead, hOwed, hRd, hBusy,
          hAddr, hReady]
  · right
    have hReady : i.ready = false := by
      simpa [hRd] using hMore
    simp [hRd, Memory.due, hOwed, hReady]

/- A fetch without its word goes on. -/
theorem fetch_next
    (hPort : PortInv s.service)
    (hOk : RomOk s i)
    (hFetch : FetchInv s)
    (hSdr : SdrInv s)
    (hWait : s.ddr.ddrWaitData = true)
    (hMore : s.memory.doutReady s.ddr i = false) :
    FetchInv (s.step i) := by
  have hReset := fetch_running hOk hFetch hSdr
  have hUnacked := fetch_unacked (i := i) hFetch hSdr
  rcases reading_iff.mp hFetch.reading with
    ⟨hReq, hRom, hWrite⟩
  have hBeat := beat_kept hPort hReset hReq hUnacked
  rcases reading_of_beat hBeat with ⟨hRead, hAddr, hPlace⟩
  rcases busy_port (i := i) hWait with ⟨hIssue, hNoBeat⟩
  have hNoCapture := no_capture hReset
  have hReady : (s.reply i).doutReady = false := hMore
  have hVram : s.ddr.vramDeliver s.beat (s.reply i) = false := by
    simp [Ddr.vramDeliver, Ddr.vramBeat, (ram_of_rom hRom).2]
  refine ⟨hRead.trans hFetch.reading, ?_, ?_, ?_, ?_, ?_⟩
  · simp [Rom.step, Ddr.next, Ddr.romWrite, hNoBeat,
      Ddr.dataIn, hReady, hVram]
  · simp [we_next hIssue, hFetch.noWe]
  · simp [pend_next hOk hIssue, hNoCapture, hFetch.noPend]
  · rw [hAddr, ← hFetch.hi]
    simp [Rom.step, Ddr.next, Ddr.romRead, hNoBeat]
  · exact fetching_next hWait hFetch.noWe hFetch.stage hMore
      hPlace

/- The bits of the address, by the longword. -/
theorem romAddr_place (s : Rom) :
    s.romPlace = Ddr.romWord (s.beat.addr.extractLsb' 1 17) := by
  unfold Rom.romPlace Rom.romAddr
  congr 1
  apply BitVec.eq_of_getLsbD_eq
  intro k hk
  simp [hk]

theorem romAddr_low (s : Rom) :
    s.romAddr.getLsbD 0 = s.beat.addr.getLsbD 0 := by
  simp [Rom.romAddr]

/- A request starts a fetch. -/
theorem fetch_start
    (hPort : PortInv s.service)
    (hOk : RomOk s i)
    (hOwed : s.memory.owed = none)
    (hRead : s.ddr.romRead s.beat (s.reply i) = true) :
    FetchInv (s.step i) ∧ s.reset i = false := by
  have hRead' := hRead
  simp only [Ddr.romRead, Ddr.romBeat, Ddr.waiting,
    Bool.and_eq_true, Bool.not_eq_true',
    portFree_iff] at hRead'
  rcases hRead' with
    ⟨⟨⟨⟨⟨hNoWait, hBusy, hWe, hRd⟩, hPend⟩, hReq, hUnacked⟩,
      hRom⟩, hWrite⟩
  have hReset := read_running hOk hReq hWrite
    (ram_of_rom hRom).2 hUnacked
  have hBeat := beat_kept hPort hReset hReq hUnacked
  rcases reading_of_beat hBeat with ⟨hReading, hAddr, hPlace⟩
  have hIssue : s.ddr.issue (s.reply i) = false := by
    simp [Ddr.issue, hPend]
  have hNoCapture := no_capture hReset
  have hVram : s.ddr.vramDeliver s.beat (s.reply i) = false := by
    simp [Ddr.vramDeliver, Ddr.vramBeat, (ram_of_rom hRom).2]
  refine ⟨⟨?_, ?_, ?_, ?_, ?_, Or.inl ⟨?_, ?_, ?_⟩⟩, hReset⟩
  · rw [hReading]
    exact reading_iff.mpr ⟨hReq, hRom, hWrite⟩
  · simp [Rom.step, Ddr.next, Ddr.romWrite, hWrite, Ddr.dataIn,
      hNoWait, hVram]
  · simp [we_next hIssue, hWe]
  · simp [pend_next hOk hIssue, hNoCapture, hPend]
  · rw [hAddr, romAddr_low]
    simp [Rom.step, Ddr.next, hRead]
  · simp [Rom.step, Ddr.next, hRead]
  · simp [Rom.step, Memory.next, Memory.due, Memory.takesRead,
      hOwed, hRd]
  · rw [hPlace, romAddr_place]
    simp [Rom.step, Ddr.next, hRead, hIssue]

end MacQuadra800

------------------------------------------------------------
-- Acks
------------------------------------------------------------

namespace MacQuadra800

open Lanes (Mem loadWord)

variable {s : Rom} {i : RomIn}

theorem ackR_next :
    (s.step i).ddr.memAckR =
      (s.ddr.romWrite s.beat (s.reply i) ||
        s.ddr.dataIn (s.reply i) ||
        s.ddr.vramDeliver s.beat (s.reply i)) := by
  cases hWrite : s.ddr.romWrite s.beat (s.reply i) <;>
    cases hData : s.ddr.dataIn (s.reply i) <;>
      simp [Rom.step, Ddr.next, hWrite, hData]

/- The three beats an ack of the bridge may be for. -/
theorem ackR_cases
    (hFetch : s.ddr.ddrWaitData = true → FetchInv s)
    (hSdr : SdrInv s)
    (hNext : (s.step i).ddr.memAckR = true) :
    s.beat.req = true ∧ s.acked i = false ∧
      s.beat.isRam = false ∧
      (s.reading = true → s.ddr.ddrWaitData = true ∧
        s.memory.doutReady s.ddr i = true) := by
  rw [ackR_next, Bool.or_eq_true, Bool.or_eq_true] at hNext
  rcases hNext with (hWrite | hData) | hVram
  · simp only [Ddr.romWrite, Ddr.romBeat, Ddr.waiting,
      Bool.and_eq_true, Bool.not_eq_true'] at hWrite
    rcases hWrite with ⟨⟨⟨-, hReq, hUnacked⟩, hRom⟩, hWrite⟩
    refine ⟨hReq, hUnacked, (ram_of_rom hRom).1, ?_⟩
    intro hReading
    rw [(reading_iff.mp hReading).2.2] at hWrite
    exact Bool.noConfusion hWrite
  · simp only [Ddr.dataIn, Bool.and_eq_true] at hData
    have hNow := hFetch hData.1
    rcases reading_iff.mp hNow.reading with ⟨hReq, hRom, -⟩
    exact ⟨hReq, fetch_unacked hNow hSdr, (ram_of_rom hRom).1,
      fun _ => hData⟩
  · simp only [Ddr.vramDeliver, Ddr.vramBeat, Ddr.waiting,
      Bool.and_eq_true, Bool.not_eq_true'] at hVram
    rcases hVram with ⟨⟨⟨hReq, hUnacked⟩, hVram⟩, -⟩
    have hOther := hVram
    simp only [Beat.isVram, Bool.and_eq_true,
      Bool.not_eq_true'] at hOther
    refine ⟨hReq, hUnacked, hOther.1, ?_⟩
    intro hReading
    rw [(reading_iff.mp hReading).2.1] at hOther
    exact Bool.noConfusion hOther.2

/- A beat of the RAM that the SDRAM bridge has not answered. -/
theorem ram_unacked
    (hOther : s.ddr.memAckR = true → s.beat.req = true →
      s.beat.isRam = false)
    (hReq : s.beat.req = true)
    (hRam : s.beat.isRam = true)
    (hAck : s.sdr.ack = false) :
    s.acked i = false := by
  refine acked_false_iff.mpr ⟨?_, hAck⟩
  cases hOurs : s.ddr.memAckR with
  | false => rfl
  | true =>
      rw [hOther hOurs hReq] at hRam
      exact Bool.noConfusion hRam

theorem running_of_req (hReq : (s.step i).beat.req = true) :
    s.reset i = false := by
  cases hReset : s.reset i with
  | false => rfl
  | true =>
      rw [beat_reset hReset] at hReq
      exact Bool.noConfusion hReq

theorem sdrInv_step
    (hPort : PortInv s.service)
    (hOk : RomOk s i)
    (hOther : s.ddr.memAckR = true → s.beat.req = true →
      s.beat.isRam = false)
    (hSdr : SdrInv s) :
    SdrInv (s.step i) := by
  have hNext : (s.step i).sdr =
      s.sdr.next (s.beat.req && s.beat.isRam) s.beat.write
        i.ackTgl i.hold := rfl
  have hNotVram : s.beat.isRam = true →
      s.beat.isVram = false := by
    intro hRam
    simp [Beat.isVram, hRam]
  cases hCapture :
      s.sdr.captures (s.beat.req && s.beat.isRam) with
  | true =>
      have hNow := hCapture
      simp only [Sdr.captures, Bool.and_eq_true,
        Bool.not_eq_true'] at hNow
      rcases hNow with ⟨⟨⟨hReq, hRam⟩, -⟩, hAck⟩
      have hUnacked := ram_unacked (i := i)
        hOther hReq hRam hAck
      constructor
      · intro hAck' hReq'
        have hReset := running_of_req hReq'
        rw [beat_kept hPort hReset hReq hUnacked]
        exact hRam
      · intro hBusy' hPosted'
        have hWrite : s.beat.write = false := by
          simpa [hNext, Sdr.next, hCapture] using hPosted'
        have hReset := read_running hOk hReq hWrite
          (hNotVram hRam) hUnacked
        rw [beat_kept hPort hReset hReq hUnacked]
        refine ⟨hReq, hRam, hWrite, ?_⟩
        simp [hNext, Sdr.next, hCapture, hWrite]
  | false =>
      constructor
      · intro hAck' hReq'
        have hDone : s.sdr.returns = true ∧
            s.sdr.posted = false := by
          simpa [hNext, Sdr.next, hCapture] using hAck'
        have hBusy : s.sdr.busy = true := by
          have hReturns := hDone.1
          simp only [Sdr.returns, Bool.and_eq_true] at hReturns
          exact hReturns.1
        rcases hSdr.busy hBusy hDone.2 with
          ⟨hReq, hRam, -, hAck⟩
        have hUnacked := ram_unacked (i := i)
          hOther hReq hRam hAck
        have hReset := running_of_req hReq'
        rw [beat_kept hPort hReset hReq hUnacked]
        exact hRam
      · intro hBusy' hPosted'
        cases hReturns : s.sdr.returns with
        | true =>
            simp [hNext, Sdr.next, hCapture,
              hReturns] at hBusy'
        | false =>
            have hBusy : s.sdr.busy = true := by
              simpa [hNext, Sdr.next, hCapture,
                hReturns] using hBusy'
            have hPosted : s.sdr.posted = false := by
              simpa [hNext, Sdr.next, hCapture,
                hReturns] using hPosted'
            rcases hSdr.busy hBusy hPosted with
              ⟨hReq, hRam, hWrite, hAck⟩
            have hUnacked := ram_unacked (i := i)
              hOther hReq hRam hAck
            have hReset := read_running hOk hReq hWrite
              (hNotVram hRam) hUnacked
            rw [beat_kept hPort hReset hReq hUnacked]
            refine ⟨hReq, hRam, hWrite, ?_⟩
            simp [hNext, Sdr.next, hCapture, hReturns]

end MacQuadra800
