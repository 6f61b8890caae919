import Wombat33.MacQuadra800.RomUpload

/-
  Runs of the boot ROM: what one edge keeps, every run
  keeps; nothing handed over or asked for is left waiting.

  Key definitions include:
    * `romEdge`
    * `uploadOwed`, `romOwed`

  Key theorems include:
    * `romInv_step`
    * `romKept_of_romInv`
    * `upload_written`
    * `rom_answered`
    * `rom_round_trip`
-/

------------------------------------------------------------
-- One Edge
------------------------------------------------------------

namespace MacQuadra800

open Lanes (Mem loadWord)

/- An edge, with its ledger. -/
def romEdge : Rom × Upload → RomIn → Rom × Upload :=
  Clocked.watch Rom.step noteUpload

variable {cells₀ : Cells} {x : Rom × Upload} {i : RomIn}
variable {s : Rom}

/- The bridge waits for a word, or owes none. -/
theorem wait_next
    (hPort : PortInv s.service)
    (hOk : RomOk s i)
    (hSdr : SdrInv s)
    (hFree : s.ddr.ddrWaitData = false →
      s.ddr.ddramRd = false ∧ s.memory.owed = none)
    (hFetch : s.ddr.ddrWaitData = true → FetchInv s) :
    ((s.step i).ddr.ddrWaitData = false ∧
      (s.step i).ddr.ddramRd = false ∧
      (s.step i).memory.owed = none) ∨
    ((s.step i).ddr.ddrWaitData = true ∧
      FetchInv (s.step i)) := by
  have hOwed' : (s.step i).memory.owed =
      if i.ready then none else s.memory.due s.ddr i := rfl
  cases hWait : s.ddr.ddrWaitData with
  | true =>
      have hNow := hFetch hWait
      have hReset := fetch_running hOk hNow hSdr
      have hNoBeat := (busy_port (i := i) hWait).2
      have hRead : s.ddr.romRead s.beat (s.reply i) = false := by
        simp [Ddr.romRead, hNoBeat]
      cases hBack : s.memory.doutReady s.ddr i with
      | true =>
          left
          have hPin : (s.reply i).doutReady = true := hBack
          rw [(doutReady_cases (i := i) hNow.stage).1] at hBack
          simp only [Bool.and_eq_true, Bool.or_eq_true,
            Bool.not_eq_true'] at hBack
          refine ⟨?_, ?_, ?_⟩
          · simp [Rom.step, Ddr.next, hRead, Ddr.dataIn, hPin,
              hWait]
          · rw [rd_next hRead]
            rcases hBack.2 with hRd | hBusy
            · simp [hRd]
            · simp [hBusy]
          · rw [hOwed', hBack.1, if_pos rfl]
      | false =>
          right
          have hPin : (s.reply i).doutReady = false := hBack
          refine ⟨?_, fetch_next hPort hOk hNow hSdr hWait hBack⟩
          simp [Rom.step, Ddr.next, hRead, Ddr.dataIn, hPin,
            hWait, hReset]
  | false =>
      rcases hFree hWait with ⟨hRd, hOwed⟩
      cases hRead : s.ddr.romRead s.beat (s.reply i) with
      | true =>
          right
          rcases fetch_start hPort hOk hOwed hRead with
            ⟨hNext, hReset⟩
          refine ⟨?_, hNext⟩
          simp [Rom.step, Ddr.next, hRead, hReset]
      | false =>
          left
          refine ⟨?_, ?_, ?_⟩
          · simp [Rom.step, Ddr.next, hRead, Ddr.dataIn, hWait]
          · simp [rd_next hRead, hRd]
          · simp [hOwed', Memory.due, Memory.takesRead, hRd,
              hOwed]

/- Every request asks for one word. -/
theorem single_next
    (hSingle : (s.ddr.ddramWe || s.ddr.ddramRd) = true →
      s.ddr.ddramBurstcnt = 1#8)
    (hNext : ((s.step i).ddr.ddramWe ||
      (s.step i).ddr.ddramRd) = true) :
    (s.step i).ddr.ddramBurstcnt = 1#8 := by
  cases hIssue : s.ddr.issue (s.reply i) with
  | true => simp [Rom.step, Ddr.next, hIssue]
  | false =>
      cases hRead : s.ddr.romRead s.beat (s.reply i) with
      | true => simp [Rom.step, Ddr.next, hRead]
      | false =>
          rw [we_next hIssue, rd_next hRead] at hNext
          have hHeld :
              (s.ddr.ddramWe || s.ddr.ddramRd) = true := by
            revert hNext
            cases s.ddr.ddramWe <;> cases s.ddr.ddramRd <;> simp
          simpa [Rom.step, Ddr.next, hIssue, hRead] using
            hSingle hHeld

/- Nothing in flight: the memory holds the download. -/
theorem landed
    (hInv : RomInv cells₀ x)
    (hWe : x.1.ddr.ddramWe = false)
    (hPend : x.1.ddr.ioctlPend = false) :
    romCells x.1.memory.cells = x.2.rom cells₀ := by
  have hOnce := hInv.once
  simp only [Ddr.inFlight, hWe, hPend, Bool.false_eq_true,
    if_false, List.append_nil] at hOnce
  rw [hInv.stored, hOnce, romCells_puts]
  rfl

/- The word that comes back holds the downloaded bytes. -/
theorem data_next
    (hInv : RomInv cells₀ x)
    (hWait : x.1.ddr.ddrWaitData = true)
    (hBack : x.1.memory.doutReady x.1.ddr i = true) :
    (x.1.step i).ddr.memRdataR =
      loadWord (x.2.rom cells₀) x.1.romAddr := by
  have hNow := hInv.fetch hWait
  have hPin : (x.1.reply i).doutReady = true := hBack
  have hWord := (doutReady_cases (i := i) hNow.stage).2 hBack
  have hHalf := dataHalf_word (r := x.1.reply i) hNow.hi hWord
  rw [landed hInv hNow.noWe hNow.noPend] at hHalf
  rw [← hHalf]
  simp [Rom.step, Ddr.next, Ddr.dataIn, hWait, hPin]

theorem romInv_step
    (hInv : RomInv cells₀ x)
    (hOk : RomOk x.1 i) :
    RomInv cells₀ (romEdge x i) := by
  rcases x with ⟨s, g⟩
  have hNextWait := wait_next hInv.port hOk hInv.sdr hInv.free
    hInv.fetch
  have hAck := ackR_cases (i := i) hInv.fetch hInv.sdr
  refine ⟨portInv_step hInv.port, ?_, ?_,
    single_next hInv.single, ?_, ?_, ?_,
    sdrInv_step hInv.port hOk hInv.other hInv.sdr, ?_, ?_, ?_⟩
  · show (g.bus ++ _) ++ (s.step i).ddr.inFlight =
      (g.downloads ++ _).map busWrite
    rw [List.append_assoc, inFlight_next hOk hInv.wait,
      ← List.append_assoc, hInv.once, List.map_append]
    split <;> rfl
  · show (if Memory.takesWrite s.ddr i then _
      else s.memory.cells) = (g.bus ++ _).foldl Cells.put cells₀
    rw [List.foldl_append, ← hInv.stored]
    split <;> rfl
  · have hSame : s.ddr.ioctlWait = s.ddr.ioctlPend := hInv.wait
    show (s.step i).ddr.ioctlWait = (s.step i).ddr.ioctlPend
    simp [Rom.step, Ddr.next, hSame]
  · intro hWait
    rcases hNextWait with hIdle | ⟨hBusy, -⟩
    · exact hIdle.2
    · rw [show (s.step i).ddr.ddrWaitData = false from hWait]
        at hBusy
      exact Bool.noConfusion hBusy
  · intro hWait
    rcases hNextWait with ⟨hIdle, -⟩ | ⟨-, hFetch⟩
    · rw [show (s.step i).ddr.ddrWaitData = true from hWait]
        at hIdle
      exact Bool.noConfusion hIdle
    · exact hFetch
  · intro hAck' hReq'
    rcases hAck hAck' with ⟨hReq, hUnacked, hRam, -⟩
    have hReset := running_of_req hReq'
    have hBeat := beat_kept hInv.port hReset hReq hUnacked
    show (s.step i).beat.isRam = false
    rw [hBeat]
    exact hRam
  · intro hAck' hReading'
    rcases hAck hAck' with ⟨hReq, hUnacked, -, hWord⟩
    have hReset := running_of_req (reading_iff.mp hReading').1
    have hBeat := beat_kept hInv.port hReset hReq hUnacked
    rcases reading_of_beat hBeat with ⟨hReading, hAddr, -⟩
    rcases hWord (hReading.symm.trans hReading') with
      ⟨hWait, hBack⟩
    have hData := data_next hInv hWait hBack
    have hRom : (noteUpload g s i).rom cells₀ =
        g.rom cells₀ := by
      simp [Upload.rom, noteUpload, no_capture hReset]
    show (s.step i).ddr.memRdataR =
      loadWord ((noteUpload g s i).rom cells₀)
        (s.step i).romAddr
    rw [hRom, hAddr]
    exact hData
  · intro hAck'
    rcases hAck hAck' with ⟨hReq, hUnacked, -, -⟩
    cases hReset : s.reset i with
    | true => exact Or.inr hReset
    | false =>
        left
        have hBeat := beat_kept hInv.port hReset hReq hUnacked
        show (s.step i).beat.req = true
        rw [hBeat]
        exact hReq

/- What the invariant says of an edge. -/
theorem romKept_of_romInv (hInv : RomInv cells₀ x) :
    RomKept cells₀ x i := by
  have hBus : x.2.bus =
      (x.2.downloads.take x.2.bus.length).map busWrite := by
    rw [List.map_take, ← hInv.once, List.take_left]
  have hCells := hInv.stored
  rw [hBus] at hCells
  refine ⟨hInv.once, ?_, ?_, hInv.single, ?_, hInv.ack, ?_, ?_⟩
  · rw [hCells, romCells_puts]
  · intro a hOutside
    funext k
    rw [hCells]
    exact puts_outside hOutside cells₀ _ k
  · intro hReading hAcked
    rcases reading_iff.mp hReading with ⟨hReq, hRom, -⟩
    have hQuiet := sdr_quiet hInv.sdr hReq (ram_of_rom hRom).1
    have hOurs : x.1.ddr.memAckR = true := by
      simpa [Rom.acked, Ddr.memAck, Rom.reply, hQuiet] using
        hAcked
    rw [← hInv.data hOurs hReading]
    simp [Ddr.memRdata, Rom.reply, hQuiet]
  · intro hOurs
    cases hNext : (x.1.step i).ddr.memAckR with
    | false => rfl
    | true =>
        have hUnacked :=
          (ackR_cases hInv.fetch hInv.sdr hNext).2.1
        rw [(acked_false_iff.mp hUnacked).1] at hOurs
        exact Bool.noConfusion hOurs
  · exact beat_over hInv.port

end MacQuadra800

------------------------------------------------------------
-- Nothing Is Left Waiting
------------------------------------------------------------

namespace MacQuadra800

open Clocked

variable {cells₀ : Cells} {x : Rom × Upload} {i : RomIn}
variable {s : Rom} {n : Nat} {b : Beat}

/- The cycles the port needs before the `n`-th write. -/
def uploadOwed (n : Nat) (x : Rom × Upload) : Nat :=
  if n ≤ x.2.bus.length then 0
  else if x.1.ddr.ddramWe then
    (if n = x.2.bus.length + 1 then 1 else 3)
  else 2

def notBusy (_ : Rom × Upload) (i : RomIn) : Bool := !i.busy

/- A write that is still owed is on the port or pending. -/
theorem owed_inFlight
    (hInv : RomInv cells₀ x)
    (hTotal : n ≤ x.2.downloads.length) :
    n ≤ x.2.bus.length +
      ((if x.1.ddr.ddramWe then 1 else 0) +
        if x.1.ddr.ioctlPend then 1 else 0) := by
  have hLength := congrArg List.length hInv.once
  rw [List.length_append, List.length_map] at hLength
  have hFlight : x.1.ddr.inFlight.length =
      (if x.1.ddr.ddramWe then 1 else 0) +
        if x.1.ddr.ioctlPend then 1 else 0 := by
    rw [Ddr.inFlight, List.length_append]
    congr 1 <;> split <;> rfl
  omega

theorem uploadOwed_step
    (hInv : RomInv cells₀ x)
    (hTotal : n ≤ x.2.downloads.length) :
    uploadOwed n (romEdge x i) ≤ uploadOwed n x ∧
      (notBusy x i = true → 0 < uploadOwed n x →
        uploadOwed n (romEdge x i) < uploadOwed n x) := by
  rcases x with ⟨s, g⟩
  have hBus : (romEdge (s, g) i).2.bus.length = g.bus.length +
      if s.ddr.ddramWe && !i.busy then 1 else 0 := by
    show (g.bus ++ _).length = _
    rw [List.length_append, Memory.takesWrite]
    split <;> rfl
  have hWe : (romEdge (s, g) i).1.ddr.ddramWe =
      (s.step i).ddr.ddramWe := rfl
  unfold uploadOwed notBusy
  rw [hBus, hWe]
  by_cases hDone : n ≤ g.bus.length
  · have hStill : n ≤ g.bus.length +
        if s.ddr.ddramWe && !i.busy then 1 else 0 := by omega
    rw [if_pos hStill, if_pos hDone]
    omega
  · have hFlight := owed_inFlight hInv hTotal
    rw [if_neg hDone]
    cases hPortWe : s.ddr.ddramWe with
    | true =>
        have hIssue : s.ddr.issue (s.reply i) = false := by
          simp [Ddr.issue, Ddr.portFree, hPortWe]
        rw [we_next hIssue, hPortWe]
        cases hBusy : i.busy with
        | true => simp [hDone]
        | false =>
            by_cases hNext : n = g.bus.length + 1
            · simp [hNext]
            · have hMore : ¬ n ≤ g.bus.length + 1 := by omega
              simp [hNext, hMore]
    | false =>
        have hPend : s.ddr.ioctlPend = true := by
          cases hPend : s.ddr.ioctlPend with
          | true => rfl
          | false =>
              simp only [hPortWe, hPend, Bool.false_eq_true,
                if_false] at hFlight
              exact absurd hFlight hDone
        have hNext : n = g.bus.length + 1 := by
          simp only [hPortWe, hPend, Bool.false_eq_true,
            if_false, if_true] at hFlight
          omega
        cases hBusy : i.busy with
        | true =>
            have hIssue : s.ddr.issue (s.reply i) = false := by
              simp [Ddr.issue, Ddr.portFree, Rom.reply, hBusy]
            simp [we_next hIssue, hPortWe, hDone]
        | false =>
            have hWait : s.ddr.ddrWaitData = false := by
              cases hWait : s.ddr.ddrWaitData with
              | false => rfl
              | true =>
                  have hNone := (hInv.fetch hWait).noPend
                  rw [show s.ddr.ioctlPend = false from hNone]
                    at hPend
                  exact Bool.noConfusion hPend
            have hRd : s.ddr.ddramRd = false :=
              (hInv.free hWait).1
            have hIssue : s.ddr.issue (s.reply i) = true := by
              simp [Ddr.issue, portFree_iff, Rom.reply, hWait,
                hBusy, hPortWe, hRd, hPend]
            have hLater : ¬ g.bus.length + 1 ≤ g.bus.length := by
              omega
            simp [(issued_next hIssue).1, hNext, hLater]

/- After three cycles that are not busy it is written. -/
theorem upload_written
    {is : List RomIn}
    (hInv : RomInv cells₀ x)
    (hAlong : Along romEdge (fun y i => RomOk y.1 i) x is)
    (hCount : 3 ≤ enabledCount romEdge notBusy x is) :
    x.2.downloads.map busWrite <+:
      (run romEdge x is).2.bus := by
  have hGrows : ∀ (y : Rom × Upload) (i : RomIn),
      y.2.downloads <+: (romEdge y i).2.downloads :=
    fun y i => List.prefix_append _ _
  have hKeep : ∀ (y : Rom × Upload) (i : RomIn),
      (RomInv cells₀ y ∧ x.2.downloads <+: y.2.downloads) →
      RomOk y.1 i →
      (RomInv cells₀ (romEdge y i) ∧
        x.2.downloads <+: (romEdge y i).2.downloads) :=
    fun y i hNow hOk => ⟨romInv_step hNow.1 hOk,
      hNow.2.trans (hGrows y i)⟩
  have hStart : RomInv cells₀ x ∧
      x.2.downloads <+: x.2.downloads :=
    ⟨hInv, List.prefix_refl _⟩
  rcases invariant_run hKeep hAlong hStart with
    ⟨hInv', hPrefix⟩
  have hLt : ∀ (y : Rom × Upload) (i : RomIn),
      (RomInv cells₀ y ∧ x.2.downloads <+: y.2.downloads) →
      RomOk y.1 i → notBusy y i = true →
      0 < uploadOwed x.2.downloads.length y →
      uploadOwed x.2.downloads.length (romEdge y i) <
        uploadOwed x.2.downloads.length y :=
    fun y i hNow _ =>
      (uploadOwed_step hNow.1 hNow.2.length_le).2
  have hLe : uploadOwed x.2.downloads.length x ≤ 3 := by
    unfold uploadOwed
    split
    · omega
    · split
      · split <;> omega
      · omega
  have hDone := measure_exhausted hKeep
    (fun y i hNow _ =>
      (uploadOwed_step hNow.1 hNow.2.length_le).1)
    hLt hAlong hStart (by omega)
  have hLength : x.2.downloads.length ≤
      (run romEdge x is).2.bus.length := by
    unfold uploadOwed at hDone
    by_contra hShort
    rw [if_neg hShort] at hDone
    split at hDone
    · split at hDone <;> omega
    · omega
  have hOnce := hInv'.once
  have hBus : (run romEdge x is).2.bus <+:
      (run romEdge x is).2.downloads.map busWrite := by
    rw [← hOnce]
    exact List.prefix_append _ _
  refine List.prefix_of_prefix_length_le
    (hPrefix.map busWrite) hBus ?_
  rw [List.length_map]
  exact hLength

end MacQuadra800

------------------------------------------------------------
-- Every ROM Beat Is Answered
------------------------------------------------------------

namespace MacQuadra800

open Clocked

variable {cells₀ : Cells} {x : Rom × Upload} {i : RomIn}
variable {s : Rom} {b : Beat}

/- The cycles the DDR3 memory must help before the ack. -/
def romOwed (s : Ddr) : Nat :=
  if s.memAckR then 0
  else if s.ddrWaitData then (if s.ddramRd then 2 else 1)
  else 3 + ((if s.ddramWe then 1 else 0) +
    if s.ioctlPend then 2 else 0)

/- It takes a request, or returns the word it owes. -/
def helps (x : Rom × Upload) (i : RomIn) : Bool :=
  if x.1.ddr.ddrWaitData && !x.1.ddr.ddramRd then i.ready
  else !i.busy

theorem romOwed_le (s : Ddr) :
    romOwed s ≤ 6 ∧ (s.memAckR = true → romOwed s = 0) ∧
      (s.ddrWaitData = true →
        romOwed s ≤ if s.ddramRd then 2 else 1) ∧
      (s.ddrWaitData = false →
        romOwed s ≤ 3 + ((if s.ddramWe then 1 else 0) +
          if s.ioctlPend then 2 else 0)) := by
  unfold romOwed
  cases s.memAckR <;> cases s.ddrWaitData <;>
    cases s.ddramRd <;> cases s.ddramWe <;>
    cases s.ioctlPend <;> simp

theorem romOwed_fetch
    (hInv : RomInv cells₀ x)
    (hOk : RomOk x.1 i)
    (hWait : x.1.ddr.ddrWaitData = true) :
    romOwed (x.1.step i).ddr ≤ romOwed x.1.ddr ∧
      (helps x i = true →
        romOwed (x.1.step i).ddr < romOwed x.1.ddr) := by
  have hNow := hInv.fetch hWait
  have hOwed : romOwed x.1.ddr =
      if x.1.ddr.ddramRd then 2 else 1 := by
    simp [romOwed, hNow.noAck, hWait]
  rw [hOwed]
  cases hBack : x.1.memory.doutReady x.1.ddr i with
  | true =>
      have hAck : (x.1.step i).ddr.memAckR = true := by
        have hPin : (x.1.reply i).doutReady = true := hBack
        simp [ackR_next, Ddr.dataIn, hWait, hPin]
      rw [(romOwed_le _).2.1 hAck]
      split <;> simp
  | false =>
      have hNext := fetch_next hInv.port hOk hNow hInv.sdr
        hWait hBack
      have hNoBeat := (busy_port (i := i) hWait).2
      have hRead :
          x.1.ddr.romRead x.1.beat (x.1.reply i) = false := by
        simp [Ddr.romRead, hNoBeat]
      have hReset := fetch_running hOk hNow hInv.sdr
      have hPin : (x.1.reply i).doutReady = false := hBack
      have hWait' : (x.1.step i).ddr.ddrWaitData = true := by
        simp [Rom.step, Ddr.next, hRead, Ddr.dataIn, hPin,
          hWait, hReset]
      have hLe := (romOwed_le (x.1.step i).ddr).2.2.1 hWait'
      rw [rd_next hRead] at hLe
      rw [(doutReady_cases (i := i) hNow.stage).1] at hBack
      unfold helps
      cases hRd : x.1.ddr.ddramRd with
      | true =>
          cases hBusy : i.busy <;>
            simp [hRd, hBusy, hWait] at hLe ⊢ <;> omega
      | false =>
          have hReady : i.ready = false := by
            simpa [hRd] using hBack
          simp [hRd, hWait, hReady] at hLe ⊢
          omega

theorem romOwed_idle
    (hInv : RomInv cells₀ x)
    (hOk : RomOk x.1 i)
    (hReset : x.1.reset i = false)
    (hReq : x.1.beat.req = true)
    (hRom : x.1.beat.isRom = true)
    (hAck : x.1.ddr.memAckR = false)
    (hWait : x.1.ddr.ddrWaitData = false) :
    romOwed (x.1.step i).ddr ≤ romOwed x.1.ddr ∧
      (helps x i = true →
        romOwed (x.1.step i).ddr < romOwed x.1.ddr) := by
  rcases hInv.free hWait with ⟨hRd, -⟩
  have hUnacked : x.1.acked i = false := acked_false_iff.mpr
    ⟨hAck, sdr_quiet hInv.sdr hReq (ram_of_rom hRom).1⟩
  have hNoCapture := no_capture hReset
  have hOwed : romOwed x.1.ddr =
      3 + ((if x.1.ddr.ddramWe then 1 else 0) +
        if x.1.ddr.ioctlPend then 2 else 0) := by
    simp [romOwed, hAck, hWait]
  have hHelps : helps x i = !i.busy := by
    simp [helps, hWait]
  have hPin : (x.1.reply i).busy = i.busy := rfl
  rw [hOwed, hHelps]
  cases hIssue : x.1.ddr.issue (x.1.reply i) with
  | true =>
      have hIssue' := hIssue
      simp only [Ddr.issue, Bool.and_eq_true,
        portFree_iff] at hIssue'
      rcases hIssue' with ⟨⟨-, -, hWe, -⟩, hPend⟩
      have hNoRead :
          x.1.ddr.romRead x.1.beat (x.1.reply i) = false := by
        simp [Ddr.romRead, Ddr.romBeat, hPend]
      have hWait' : (x.1.step i).ddr.ddrWaitData = false := by
        simp [Rom.step, Ddr.next, hNoRead, Ddr.dataIn, hWait]
      have hLe := (romOwed_le (x.1.step i).ddr).2.2.2 hWait'
      rcases issued_next hIssue with ⟨hWe', -, hPend'⟩
      rw [hWe', hPend'] at hLe
      simp [hWe, hPend] at hLe ⊢
      omega
  | false =>
      cases hRead : x.1.ddr.romRead x.1.beat (x.1.reply i) with
      | true =>
          have hWait' : (x.1.step i).ddr.ddrWaitData = true := by
            simp [Rom.step, Ddr.next, hRead, hReset]
          have hLe := (romOwed_le (x.1.step i).ddr).2.2.1 hWait'
          have hTwo : (if (x.1.step i).ddr.ddramRd then 2
              else 1) ≤ 2 := by
            split <;> omega
          omega
      | false =>
          have hWait' : (x.1.step i).ddr.ddrWaitData = false := by
            simp [Rom.step, Ddr.next, hRead, Ddr.dataIn, hWait]
          have hLe := (romOwed_le (x.1.step i).ddr).2.2.2 hWait'
          rw [we_next hIssue, pend_next hOk hIssue,
            hNoCapture] at hLe
          cases hBusy : i.busy with
          | true =>
              simp [hBusy] at hLe ⊢
              omega
          | false =>
              cases hWe : x.1.ddr.ddramWe with
              | true =>
                  simp [hBusy, hWe] at hLe ⊢
                  omega
              | false =>
                  have hFree :
                      x.1.ddr.portFree (x.1.reply i) = true :=
                    portFree_iff.mpr
                      ⟨hWait, hPin.trans hBusy, hWe, hRd⟩
                  have hPend : x.1.ddr.ioctlPend = false := by
                    simpa [Ddr.issue, hFree] using hIssue
                  have hBeat :
                      x.1.ddr.romBeat x.1.beat (x.1.reply i) =
                        true := by
                    have hOpen : x.1.ddr.memAck (x.1.reply i) =
                        false := hUnacked
                    simp [Ddr.romBeat, hFree, hPend,
                      Ddr.waiting, hReq, hOpen, hRom]
                  have hWrite : x.1.beat.write = true := by
                    simpa [Ddr.romRead, hBeat] using hRead
                  have hAck' :
                      (x.1.step i).ddr.memAckR = true := by
                    simp [ackR_next, Ddr.romWrite, hBeat,
                      hWrite]
                  rw [(romOwed_le _).2.1 hAck', hPend]
                  simp

/- After six cycles in which the memory helps it is acked. -/
theorem rom_answered
    {is : List RomIn}
    (hInv : RomInv cells₀ x)
    (hAlong : Along romEdge (fun y i => RomOk y.1 i ∧
      y.1.reset i = false) x is)
    (hReq : x.1.beat.req = true)
    (hRom : x.1.beat.isRom = true)
    (hCount : 6 ≤ enabledCount romEdge helps x is) :
    ∃ pre, pre <+: is ∧
      (run romEdge x pre).1.beat = x.1.beat ∧
      (run romEdge x pre).1.ddr.memAckR = true := by
  have hStep : ∀ (y : Rom × Upload) (i : RomIn),
      (RomInv cells₀ y ∧ y.1.beat = x.1.beat) →
      (RomOk y.1 i ∧ y.1.reset i = false) →
      0 < romOwed y.1.ddr →
      (RomInv cells₀ (romEdge y i) ∧
        (romEdge y i).1.beat = x.1.beat) ∧
      romOwed (romEdge y i).1.ddr ≤ romOwed y.1.ddr ∧
      (helps y i = true →
        romOwed (romEdge y i).1.ddr < romOwed y.1.ddr) := by
    rintro y i ⟨hInvY, hBeat⟩ ⟨hOk, hReset⟩ hPos
    have hReqY : y.1.beat.req = true := by rw [hBeat, hReq]
    have hRomY : y.1.beat.isRom = true := by rw [hBeat, hRom]
    have hAck : y.1.ddr.memAckR = false := by
      cases hAck : y.1.ddr.memAckR with
      | false => rfl
      | true =>
          rw [(romOwed_le y.1.ddr).2.1 hAck] at hPos
          omega
    have hUnacked : y.1.acked i = false := acked_false_iff.mpr
      ⟨hAck, sdr_quiet hInvY.sdr hReqY (ram_of_rom hRomY).1⟩
    have hSame := beat_kept hInvY.port hReset hReqY hUnacked
    refine ⟨⟨romInv_step hInvY hOk, hSame.trans hBeat⟩, ?_⟩
    cases hWait : y.1.ddr.ddrWaitData with
    | true => exact romOwed_fetch hInvY hOk hWait
    | false =>
        exact romOwed_idle hInvY hOk hReset hReqY hRomY hAck
          hWait
  have hLt : ∀ (y : Rom × Upload) (i : RomIn),
      (RomInv cells₀ y ∧ y.1.beat = x.1.beat) →
      (RomOk y.1 i ∧ y.1.reset i = false) →
      0 < romOwed y.1.ddr → helps y i = true →
      romOwed (romEdge y i).1.ddr < romOwed y.1.ddr :=
    fun y i hNow hOk hPos => (hStep y i hNow hOk hPos).2.2
  have hGoal : ∀ y : Rom × Upload,
      (RomInv cells₀ y ∧ y.1.beat = x.1.beat) →
      romOwed y.1.ddr = 0 →
      y.1.beat = x.1.beat ∧ y.1.ddr.memAckR = true := by
    intro y hNow hZero
    refine ⟨hNow.2, ?_⟩
    unfold romOwed at hZero
    cases hAck : y.1.ddr.memAckR with
    | true => rfl
    | false =>
        rw [hAck] at hZero
        split at hZero
        · assumption
        · split at hZero
          · split at hZero <;> omega
          · omega
  have hLe := (romOwed_le x.1.ddr).1
  exact goal_reached hGoal
    (fun y i hNow hOk hPos => (hStep y i hNow hOk hPos).1)
    (fun y i hNow hOk hPos => (hStep y i hNow hOk hPos).2.1)
    hLt hAlong ⟨hInv, rfl⟩ (by omega)

end MacQuadra800

------------------------------------------------------------
-- The Round Trip
------------------------------------------------------------

namespace MacQuadra800

open Clocked

/- Power-up: the cells are what they are. -/
def Rom.start (cells : Cells) : Rom where
  boot := Boot.start
  service := Quadra800.resetState
  ddr := default
  sdr := default
  memory := ⟨cells, none⟩

def romStart (cells : Cells) : Rom × Upload :=
  (Rom.start cells, Upload.start)

def romContract (x : Rom × Upload) (i : RomIn) : Prop :=
  RomOk x.1 i

def romAwake (x : Rom × Upload) (i : RomIn) : Prop :=
  RomOk x.1 i ∧ x.1.reset i = false

instance (x : Rom × Upload) (i : RomIn) :
    Decidable (romContract x i) :=
  inferInstanceAs (Decidable (RomOk x.1 i))

instance (x : Rom × Upload) (i : RomIn) :
    Decidable (romAwake x i) :=
  inferInstanceAs
    (Decidable (RomOk x.1 i ∧ x.1.reset i = false))

/- What was handed over is written while the port moves. -/
def Written (x : Rom × Upload) : Prop :=
  ∀ js, Along romEdge romContract x js →
    3 ≤ enabledCount romEdge notBusy x js →
    x.2.downloads.map busWrite <+: (run romEdge x js).2.bus

/- A ROM beat is acked while the memory helps. -/
def Answered (x : Rom × Upload) : Prop :=
  x.1.beat.req = true → x.1.beat.isRom = true →
    ∀ js, Along romEdge romAwake x js →
      6 ≤ enabledCount romEdge helps x js →
      ∃ pre, pre <+: js ∧
        (run romEdge x pre).1.beat = x.1.beat ∧
        (run romEdge x pre).1.ddr.memAckR = true

/- Reads return the file that was downloaded last. -/
def Readable (cells₀ : Cells) (x : Rom × Upload) : Prop :=
  ∀ F before ds, x.2.downloads = before ++ ds →
    Carries F ds → ReadsAs (x.2.rom cells₀) F

theorem romInv_start (cells₀ : Cells) :
    RomInv cells₀ (romStart cells₀) := by
  refine ⟨rfl, rfl, rfl, ?_, rfl, fun _ => ⟨rfl, rfl⟩, ?_,
    ⟨?_, ?_⟩, ?_, ?_, ?_⟩
  all_goals
    intro hFlag
    exact Bool.noConfusion hFlag

def blankCells : Cells := fun _ _ => 0#8

/- A beat of the CPU that reads the ROM's first longword. -/
def readRom : Quadra800.Pins :=
  { bReq := true, bAddr := 0x10000000#30, bBe := 0xF#4 }

/- A file of four bytes, then a read of the ROM. -/
def bootRun : List RomIn := [
  { ioctlDownload := true, ioctlWr := true
    ioctlDout := 0xADDE#16 },
  { ioctlDownload := true, busy := true },
  { ioctlDownload := true },
  { ioctlDownload := true, ioctlWr := true
    ioctlAddr := 2#27, ioctlDout := 0xEFBE#16 },
  {},
  { cpu := readRom },
  { cpu := readRom }]

/- The memory takes its time over the read. -/
def serveRun : List RomIn := [
  { busy := true }, {}, {}, { ready := true }, {}, {}, {}, {}]

/- A contract on the downloads and on the ROM's reads only. -/
def romPaced (x : Rom × Upload) (i : RomIn) : Prop :=
  (Ddr.capture i = true → x.1.ddr.ioctlWait = false) ∧
    (x.1.reset i = true → x.1.reading = false)

instance (x : Rom × Upload) (i : RomIn) :
    Decidable (romPaced x i) :=
  inferInstanceAs (Decidable (_ ∧ _))

/- RESET while the port is busy and a halfword waits. -/
def dropRun : List RomIn := [
  { ioctlDownload := true, ioctlWr := true
    ioctlDout := 0xADDE#16 },
  { ioctlDownload := true, resetPin := true, busy := true },
  { ioctlDownload := true },
  { ioctlDownload := true }]

def readRam : Quadra800.Pins :=
  { bReq := true, bAddr := 0x00200000#30, bBe := 0xF#4 }

/-
  The machine is reset while the SDRAM has a read in hand,
  and reads the ROM before that word is back.
-/
def strayRead : List RomIn := [
  { cpu := readRam }, {}, { status0 := true },
  { cpu := readRom }, {}, {},
  { ackTgl := true, hold := 0x12345678#32 },
  { ackTgl := true, hold := 0x12345678#32 },
  { ackTgl := true, hold := 0x12345678#32 }]

def strayRun : List RomIn := bootRun.take 5 ++ strayRead

end MacQuadra800
