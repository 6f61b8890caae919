import Wombat33.Bus32.Operand
import Wombat33.Iosb.Images
import Wombat33.Iosb.Watchdog
import Wombat33.Ncr53c96.Next

/-
  The bytes of a pseudo-DMA beat.

  The beat slave holds a request strobe to the SCSI
  controller until a handshake for each byte has come back, a
  cycle after the controller acted.  Beside the beat go the
  bytes that moved for it; between two handshakes the shift
  register holds those taken over and those still to send.

  Key definitions include:
    * `pops`, `takes`
    * `laneBytes`, `recognised`
    * `Present`, `BeatOpen`

  Key theorems include:
    * `leading_align`, `laneBytes_sdmaRdata`
    * `beatOpen_accept`, `beatOpen_wait`, `beatOpen_take`
    * `beat_finished`
-/

------------------------------------------------------------
-- The Handshake
------------------------------------------------------------

namespace Ncr53c96

variable (s : Chip) (i : In)

/- The FIFO engine answers a pseudo-DMA read in this cycle. -/
def pops : Bool := armPop s i || armRdIdle s i

/- Or a pseudo-DMA write. -/
def takes : Bool :=
  armCdbDma s i || armOutDma s i || armSwallow s i

/- With nothing pending a read is answered with all ones. -/
def popByte : Byte := if armPop s i then s.fifo 0 else 0xFF#8

variable {cfg : Config} {s : Chip} {i : In}

theorem dmaValid_clock :
    (clock cfg s i).dmaValid = (pops s i || takes s i) := by
  rw [clock_dmaValid, pops, takes]
  cases armPop s i <;> cases armRdIdle s i <;>
    cases armCdbDma s i <;> cases armOutDma s i <;>
      cases armSwallow s i <;> rfl

theorem not_pops (hRd : engRd s i = false) :
    pops s i = false := by
  simp [pops, armPop, armRdIdle, hRd]

theorem not_takes (hWr : engWr s i = false) :
    takes s i = false := by
  simp [takes, armCdbDma, armOutDma, armSwallow, hWr]

/- A byte answered to a read is latched for the beat slave. -/
theorem dmaRlatch_clock (hPops : pops s i = true) :
    (clock cfg s i).dmaRlatch = popByte s i := by
  rw [clock_dmaRlatch, popByte]
  cases hPop : armPop s i with
  | true => simp [armRdIdle, hPop]
  | false =>
      have hIdle : armRdIdle s i = true := by
        simpa [pops, hPop] using hPops
      simp [hIdle]

end Ncr53c96

------------------------------------------------------------
-- Lanes
------------------------------------------------------------

namespace Iosb

open Lanes

/- The places whose lanes are enabled, lowest address first. -/
def lanePlaces (be : BitVec 4) : List Nat :=
  (List.range 4).filter (fun k => be.getLsbD (3 - k))

/- The bytes on the enabled lanes. -/
def laneBytes (be : BitVec 4) (d : BitVec 32) : List Byte :=
  (lanePlaces be).map (fun k => byte (3 - k) d)

/- The byte enables the beat slave has cases for. -/
def recognised (be : BitVec 4) : Bool :=
  be == 0b1111#4 || be == 0b1100#4 || be == 0b0011#4 ||
    be == 0b1000#4 || be == 0b0100#4 || be == 0b0010#4 ||
    be == 0b0001#4

/- The first `n` bytes of a longword. -/
def leading (n : Nat) (d : BitVec 32) : List Byte :=
  (List.range n).map (fun k => byte (3 - k) d)

/- The last `n` bytes of a longword. -/
def trailing (n : Nat) (d : BitVec 32) : List Byte :=
  (List.range n).map (fun k => byte (n - 1 - k) d)

theorem leading_succ (n : Nat) (d : BitVec 32) :
    leading (n + 1) d = leading n d ++ [byte (3 - n) d] := by
  simp [leading, List.range_succ]

theorem leading_prefix
    {m n : Nat}
    (hLe : m ≤ n)
    (d : BitVec 32) :
    leading m d <+: leading n d := by
  induction n with
  | zero =>
      have hZero : m = 0 := by omega
      subst hZero
      exact List.prefix_rfl
  | succ n ih =>
      rcases Nat.le_or_eq_of_le_succ hLe with hLess | rfl
      · rw [leading_succ]
        exact (ih hLess).trans (List.prefix_append _ _)
      · exact List.prefix_rfl

/- A byte shifted in from the right. -/
theorem byte_shiftIn_zero (d : BitVec 32) (b : Byte) :
    byte 0 (d.extractLsb' 0 24 ++ b) = b :=
  low_append _ _

theorem byte_shiftIn
    {k : Nat}
    (hk : k < 3)
    (d : BitVec 32)
    (b : Byte) :
    byte (k + 1) (d.extractLsb' 0 24 ++ b) = byte k d := by
  apply BitVec.eq_of_getLsbD_eq
  intro j hj
  have hHigh : ¬ 8 * (k + 1) + j < 8 := by omega
  have hIn : 8 * k + j < 24 := by omega
  have hIndex : 8 * (k + 1) + j - 8 = 8 * k + j := by omega
  simp only [byte, BitVec.getLsbD_extractLsb',
    BitVec.getLsbD_append, hHigh, hIndex, hIn, hj, decide_true,
    Bool.true_and, if_false, Nat.zero_add]

theorem trailing_shiftIn
    {n : Nat}
    (hn : n < 4)
    (d : BitVec 32)
    (b : Byte) :
    trailing (n + 1) (d.extractLsb' 0 24 ++ b) =
      trailing n d ++ [b] := by
  unfold trailing
  rw [List.range_succ, List.map_append]
  congr 1
  · apply List.map_congr_left
    intro k hk
    have hLess := List.mem_range.mp hk
    have hIndex : n + 1 - 1 - k = n - 1 - k + 1 := by omega
    rw [hIndex, byte_shiftIn (by omega)]
  · have hLast : n + 1 - 1 - n = 0 := by omega
    rw [List.map_singleton, hLast, byte_shiftIn_zero]

/- How many bytes up a beat's write data is moved. -/
def alignBy (be : BitVec 4) : Nat :=
  if be == 0b1111#4 || be == 0b1100#4 || be == 0b1000#4 then 0
  else if be == 0b0100#4 then 1
  else if be == 0b0011#4 || be == 0b0010#4 then 2
  else 3

theorem sdmaAlign_eq (be : BitVec 4) (d : BitVec 32) :
    sdmaAlign be d = d <<< (8 * alignBy be) := by
  unfold sdmaAlign alignBy
  split_ifs
  · simp
  · exact @Bus32.append_zero_eq_shift 24 8 d
  · exact @Bus32.append_zero_eq_shift 16 16 d
  · exact @Bus32.append_zero_eq_shift 8 24 d

theorem byte_sdmaAlign
    {be : BitVec 4}
    {k : Nat}
    (hk : k < 4)
    (hLow : alignBy be ≤ k)
    (d : BitVec 32) :
    byte k (sdmaAlign be d) = byte (k - alignBy be) d := by
  rw [sdmaAlign_eq, byte_shiftLeft k _ d hk, if_neg (by omega)]

theorem recognised_cases
    {be : BitVec 4}
    (hBe : recognised be = true) :
    be = 0b1111#4 ∨ be = 0b1100#4 ∨ be = 0b0011#4 ∨
      be = 0b1000#4 ∨ be = 0b0100#4 ∨ be = 0b0010#4 ∨
      be = 0b0001#4 := by
  simpa [recognised, or_assoc] using hBe

/- Its lanes are as many as it counts, from its place on. -/
theorem laneBytes_eq
    {be : BitVec 4}
    (hBe : recognised be = true)
    (d : BitVec 32) :
    laneBytes be d =
      (List.range (sdmaCount be)).map
        (fun k => byte (3 - alignBy be - k) d) := by
  rcases recognised_cases hBe with
    rfl | rfl | rfl | rfl | rfl | rfl | rfl <;>
    rfl

theorem alignBy_fits
    {be : BitVec 4}
    (hBe : recognised be = true) :
    alignBy be + sdmaCount be ≤ 4 := by
  revert be
  decide

/- A beat in a recognised place sends its lanes in order. -/
theorem leading_align
    {be : BitVec 4}
    (hBe : recognised be = true)
    (d : BitVec 32) :
    leading (sdmaCount be) (sdmaAlign be d) =
      laneBytes be d := by
  have hFits := alignBy_fits hBe
  rw [laneBytes_eq hBe, leading]
  apply List.map_congr_left
  intro k hk
  have hLess := List.mem_range.mp hk
  have hIndex : 3 - k - alignBy be = 3 - alignBy be - k := by
    omega
  rw [byte_sdmaAlign (by omega) (by omega), hIndex]

end Iosb

------------------------------------------------------------
-- Read Data
------------------------------------------------------------

namespace Iosb

open Lanes

/- Two bytes in the upper half, and in the lower. -/
theorem byte_upperHalf (a b : Byte) :
    byte 3 (a ++ b ++ 0#16) = a ∧
      byte 2 (a ++ b ++ 0#16) = b := by
  constructor
  all_goals
    apply BitVec.eq_of_getLsbD_eq
    intro k hk
    simp only [byte, BitVec.getLsbD_extractLsb',
      BitVec.getLsbD_append, hk, decide_true, Bool.true_and]
    grind

theorem byte_lowerHalf (a b : Byte) :
    byte 1 (0#16 ++ a ++ b) = a ∧
      byte 0 (0#16 ++ a ++ b) = b := by
  refine ⟨?_, low_append _ _⟩
  apply BitVec.eq_of_getLsbD_eq
  intro k hk
  simp only [byte, BitVec.getLsbD_extractLsb',
    BitVec.getLsbD_append, hk, decide_true, Bool.true_and]
  grind

/- A finished read shows its bytes on the enabled lanes. -/
theorem laneBytes_sdmaRdata
    {b : Beat}
    {be : BitVec 4}
    (hSame : b.sdmaBe = be)
    (hBe : recognised be = true)
    (rbyte : Byte) :
    laneBytes be (sdmaRdata b rbyte) =
      trailing (sdmaCount be - 1) b.sdmaShift ++ [rbyte] := by
  have hLong := trailing_shiftIn (show 3 < 4 by omega)
    b.sdmaShift rbyte
  rcases byte_upperHalf (b.sdmaShift.extractLsb' 0 8) rbyte with
    ⟨hUpper, hUpper'⟩
  rcases byte_lowerHalf (b.sdmaShift.extractLsb' 0 8) rbyte with
    ⟨hLower, hLower'⟩
  rcases byte_append rbyte rbyte rbyte rbyte with
    ⟨hThree, hTwo, hOne, hZero⟩
  rcases recognised_cases hBe with
    rfl | rfl | rfl | rfl | rfl | rfl | rfl
  · rw [sdmaRdata, hSame]
    exact hLong
  · rw [sdmaRdata, hSame]
    exact congrArg₂ (fun x y => [x, y]) hUpper hUpper'
  · rw [sdmaRdata, hSame]
    exact congrArg₂ (fun x y => [x, y]) hLower hLower'
  · rw [sdmaRdata, hSame]
    exact congrArg (fun x => [x]) hThree
  · rw [sdmaRdata, hSame]
    exact congrArg (fun x => [x]) hTwo
  · rw [sdmaRdata, hSame]
    exact congrArg (fun x => [x]) hOne
  · rw [sdmaRdata, hSame]
    exact congrArg (fun x => [x]) hZero

end Iosb

------------------------------------------------------------
-- The Beat and its Bytes
------------------------------------------------------------

namespace Iosb

open Lanes

variable (s : Asic) (i : In)

/- A byte moves to the host in this cycle. -/
def pops : Bool :=
  i.nreset && Ncr53c96.pops s.scsi (scsiIn s i)

/- A byte moves from the host in this cycle. -/
def takes : Bool :=
  i.nreset && Ncr53c96.takes s.scsi (scsiIn s i)

def poppedNow : List Byte :=
  if pops s i then [Ncr53c96.popByte s.scsi (scsiIn s i)] else []

def takenNow : List Byte :=
  if takes s i then [s.beat.sdmaWbyte] else []

/- The beat accepted last and the bytes that moved since. -/
structure Present where
  write : Bool
  be : BitVec 4
  wdata : BitVec 32
  moved : List Byte
  deriving DecidableEq

def Present.note (p : Present) : Present :=
  if !i.nreset then { p with moved := [] }
  else if accept s i then
    { write := i.write, be := i.be, wdata := i.wdata
      moved := [] }
  else { p with moved := p.moved ++ poppedNow s i ++ takenNow s i }

/- The byte a handshake shows, not yet taken over. -/
def fresh (p : Present) : List Byte :=
  if s.scsi.dmaValid then
    [if p.write then s.beat.sdmaWbyte else s.scsi.dmaRlatch]
  else []

/-
  A beat is open: `earlier` are the bytes taken over, and the
  shift register holds them below those still to send.
-/
structure BeatOpen (p : Present) (earlier : List Byte) :
    Prop where
  state : s.beat.astate = .sdma
  ack : s.beat.ack = false
  fault : s.beat.sdmaFault = false
  be : s.beat.sdmaBe = p.be
  rd : s.beat.sdmaRd = !p.write
  wr : s.beat.sdmaWr = p.write
  moved : p.moved = earlier ++ fresh s p
  left : s.beat.sdmaLeft + earlier.length = sdmaCount p.be
  some : 0 < s.beat.sdmaLeft
  wbyte : s.beat.sdmaWbyte =
    byte (3 - earlier.length) (sdmaAlign p.be p.wdata)
  ahead : ∀ k, k + earlier.length < 4 →
    byte (k + earlier.length) s.beat.sdmaShift =
      byte k (sdmaAlign p.be p.wdata)
  writes : p.write = true →
    earlier = leading earlier.length (sdmaAlign p.be p.wdata)
  reads : p.write = false →
    earlier = trailing earlier.length s.beat.sdmaShift

/- No pseudo-DMA beat is open. -/
structure Resting : Prop where
  state : s.beat.astate ≠ .sdma
  rd : s.beat.sdmaRd = false
  wr : s.beat.sdmaWr = false

end Iosb

------------------------------------------------------------
-- Handshakes of a Beat
------------------------------------------------------------

namespace Iosb

open Lanes

variable {cfg : Config} {s : Asic} {i : In} {p : Present}
variable {earlier : List Byte}

theorem sdmaCount_bounds (be : BitVec 4) :
    0 < sdmaCount be ∧ sdmaCount be ≤ 4 := by
  unfold sdmaCount
  split_ifs <;> omega

theorem scsi_step (hReset : i.nreset = true) :
    (step cfg s i).scsi =
      Ncr53c96.clock cfg.scsi s.scsi (scsiIn s i) :=
  Ncr53c96.step_of_nreset cfg.scsi _ _ hReset

theorem dmaValid_step (hReset : i.nreset = true) :
    (step cfg s i).scsi.dmaValid = (pops s i || takes s i) := by
  rw [scsi_step hReset, Ncr53c96.dmaValid_clock, pops, takes,
    hReset, Bool.true_and, Bool.true_and]

/- The strobe and the handshake shown decide who moves. -/
theorem not_pops
    (hQuiet : s.beat.sdmaRd = false ∨ s.scsi.dmaValid = true) :
    pops s i = false := by
  have hNone : Ncr53c96.engRd s.scsi (scsiIn s i) = false := by
    rcases hQuiet with hRd | hShown
    · simp [Ncr53c96.engRd, scsiIn, hRd]
    · simp [Ncr53c96.engRd, hShown]
  rw [pops, Ncr53c96.not_pops hNone, Bool.and_false]

theorem not_takes
    (hQuiet : s.beat.sdmaWr = false ∨ s.scsi.dmaValid = true) :
    takes s i = false := by
  have hNone : Ncr53c96.engWr s.scsi (scsiIn s i) = false := by
    rcases hQuiet with hWr | hShown
    · simp [Ncr53c96.engWr, scsiIn, hWr]
    · simp [Ncr53c96.engWr, hShown]
  rw [takes, Ncr53c96.not_takes hNone, Bool.and_false]

theorem dmaRlatch_step (hPops : pops s i = true) :
    (step cfg s i).scsi.dmaRlatch =
      Ncr53c96.popByte s.scsi (scsiIn s i) := by
  simp only [pops, Bool.and_eq_true] at hPops
  rw [scsi_step hPops.1, Ncr53c96.dmaRlatch_clock hPops.2]

/- The bytes that moved for an open beat, in its direction. -/
theorem moved_of_write
    (hOpen : BeatOpen s p earlier)
    (hWrite : p.write = true) :
    p.moved = leading p.moved.length
      (sdmaAlign p.be p.wdata) := by
  have hEarlier := hOpen.writes hWrite
  rw [hOpen.moved]
  unfold fresh
  cases s.scsi.dmaValid with
  | false => simpa using hEarlier
  | true =>
      simp only [hWrite, if_true, List.length_append,
        List.length_singleton]
      rw [leading_succ, ← hEarlier, hOpen.wbyte]

/- No more bytes than the beat counts. -/
theorem moved_length
    (hOpen : BeatOpen s p earlier) :
    p.moved.length ≤ sdmaCount p.be := by
  have hLeft := hOpen.left
  have hSome := hOpen.some
  rw [hOpen.moved, List.length_append]
  unfold fresh
  cases s.scsi.dmaValid with
  | false => simp; omega
  | true => simp; omega

end Iosb

------------------------------------------------------------
-- One Cycle of a Beat
------------------------------------------------------------

namespace Iosb

open Lanes

variable {cfg : Config} {s : Asic} {i : In} {p : Present}
variable {earlier : List Byte}

/- The pseudo-DMA window is decoded last but one. -/
theorem device_sdma_iff :
    device i = .sdma ↔
      selVia1 i = false ∧ selVia2 i = false ∧
        selRegs i = false ∧ selDjmemc i = false ∧
        selAsc i = false ∧ selScc i = false ∧
        selScsi i = false ∧ selSdma i = true := by
  unfold device
  cases selVia1 i <;> cases selVia2 i <;> cases selRegs i <;>
    cases selDjmemc i <;> cases selAsc i <;>
      cases selScc i <;> cases selScsi i <;>
        cases selSdma i <;> cases selId i <;> decide

theorem beatAccept_sdma
    (hDevice : device i = .sdma)
    (b : Beat) :
    beatAccept s i b =
      { b with
        sdmaBe := i.be
        sdmaLeft := sdmaCount i.be
        sdmaShift := sdmaAlign i.be i.wdata
        sdmaWbyte := (sdmaAlign i.be i.wdata).extractLsb' 24 8
        sdmaRd := !i.write, sdmaWr := i.write
        sdmaWatch := 0, astate := .sdma } := by
  rcases device_sdma_iff.mp hDevice with
    ⟨hVia1, hVia2, hRegs, hDjmemc, hAsc, hScc, hScsi, hSdma⟩
  simp only [beatAccept, hVia1, hVia2, hRegs, hDjmemc, hAsc,
    hScc, hScsi, hSdma, Bool.false_eq_true, if_false, if_true]

theorem beatAccept_other
    (hDevice : device i ≠ .sdma)
    {b : Beat}
    (hIdle : b.astate = .idle) :
    (beatAccept s i b).astate ≠ .sdma ∧
      (beatAccept s i b).sdmaRd = b.sdmaRd ∧
      (beatAccept s i b).sdmaWr = b.sdmaWr ∧
      (beatAccept s i b).sdmaFault = b.sdmaFault := by
  have hStays : b.astate ≠ .sdma := by
    rw [hIdle]
    exact AState.noConfusion
  unfold beatAccept
  by_cases hVia1 : selVia1 i = true
  · rw [if_pos hVia1]
    exact ⟨AState.noConfusion, rfl, rfl, rfl⟩
  by_cases hVia2 : selVia2 i = true
  · rw [if_neg hVia1, if_pos hVia2]
    exact ⟨hStays, rfl, rfl, rfl⟩
  by_cases hRegs : selRegs i = true
  · rw [if_neg hVia1, if_neg hVia2, if_pos hRegs]
    exact ⟨hStays, rfl, rfl, rfl⟩
  by_cases hDjmemc : selDjmemc i = true
  · rw [if_neg hVia1, if_neg hVia2, if_neg hRegs,
      if_pos hDjmemc]
    exact ⟨hStays, rfl, rfl, rfl⟩
  rw [if_neg hVia1, if_neg hVia2, if_neg hRegs, if_neg hDjmemc]
  by_cases hAsc : selAsc i = true
  · rw [if_pos hAsc]
    cases i.write with
    | true => exact ⟨hStays, rfl, rfl, rfl⟩
    | false => exact ⟨AState.noConfusion, rfl, rfl, rfl⟩
  by_cases hScc : selScc i = true
  · rw [if_neg hAsc, if_pos hScc]
    exact ⟨AState.noConfusion, rfl, rfl, rfl⟩
  by_cases hScsi : selScsi i = true
  · rw [if_neg hAsc, if_neg hScc, if_pos hScsi]
    exact ⟨hStays, rfl, rfl, rfl⟩
  have hSdma : ¬ selSdma i = true := by
    intro hSdma
    rw [Bool.not_eq_true] at hVia1 hVia2 hRegs hDjmemc
    rw [Bool.not_eq_true] at hAsc hScc hScsi
    exact hDevice (device_sdma_iff.mpr
      ⟨hVia1, hVia2, hRegs, hDjmemc, hAsc, hScc, hScsi, hSdma⟩)
  rw [if_neg hAsc, if_neg hScc, if_neg hScsi, if_neg hSdma]
  split
  · exact ⟨hStays, rfl, rfl, rfl⟩
  · exact ⟨hStays, rfl, rfl, rfl⟩

/- The beat slave under an enabled clock edge. -/
theorem beat_enabled
    (hReset : i.nreset = true)
    (hCe : i.ce = true) :
    (step cfg s i).beat = beatNext cfg s i := by
  simp [step, hReset, hCe]

theorem beat_disabled
    (hReset : i.nreset = true)
    (hCe : i.ce = false) :
    (step cfg s i).beat = s.beat := by
  simp [step, hReset, hCe]

theorem accept_iff :
    accept s i = true ↔
      i.ce = true ∧ s.beat.astate = .idle ∧ i.sel = true ∧
        s.beat.ack = false := by
  simp [accept, and_assoc]

/- An accepted beat has moved nothing. -/
theorem beatOpen_accept
    (hReset : i.nreset = true)
    (hAccept : accept s i = true)
    (hDevice : device i = .sdma)
    (hRest : Resting s) :
    BeatOpen (step cfg s i) (p.note s i) [] := by
  rcases accept_iff.mp hAccept with ⟨hCe, hIdle, hSel, hAck⟩
  have hBeat : (step cfg s i).beat =
      beatAccept s i
        { s.beat with ack := false, sdmaFault := false } := by
    rw [beat_enabled hReset hCe, beatNext_of_idle hIdle]
    simp [hSel, hAck]
  rw [beatAccept_sdma hDevice] at hBeat
  have hNote : p.note s i =
      { write := i.write, be := i.be, wdata := i.wdata
        moved := [] } := by
    simp [Present.note, hReset, hAccept]
  have hShown : (step cfg s i).scsi.dmaValid = false := by
    rw [dmaValid_step hReset, not_pops (Or.inl hRest.rd),
      not_takes (Or.inl hRest.wr)]
    rfl
  rw [hNote]
  exact {
    state := by rw [hBeat]
    ack := by rw [hBeat]
    fault := by rw [hBeat]
    be := by rw [hBeat]
    rd := by rw [hBeat]
    wr := by rw [hBeat]
    moved := by simp [fresh, hShown]
    left := by rw [hBeat]; rfl
    some := by rw [hBeat]; exact (sdmaCount_bounds i.be).1
    wbyte := by rw [hBeat]; rfl
    ahead := by rw [hBeat]; exact fun _ _ => rfl
    writes := fun _ => rfl
    reads := fun _ => rfl }

end Iosb

------------------------------------------------------------
-- Waiting, Taking Over, Ending
------------------------------------------------------------

namespace Iosb

open Lanes

variable {cfg : Config} {s : Asic} {i : In} {p : Present}
variable {earlier : List Byte}

/- A waiting beat's last count. -/
def expires (cfg : Config) (s : Asic) (i : In) : Bool :=
  waiting s i && s.beat.sdmaWatch == expiry cfg

theorem note_of_open
    (hReset : i.nreset = true)
    (hState : s.beat.astate = .sdma) :
    p.note s i =
      { p with
        moved := p.moved ++ poppedNow s i ++ takenNow s i } := by
  have hBusy : accept s i = false := by
    simp [accept, hState]
  simp [Present.note, hReset, hBusy]

/- What moves for a waiting beat is shown a cycle later. -/
theorem fresh_step
    (hReset : i.nreset = true)
    (hRd : s.beat.sdmaRd = !p.write)
    (hWr : s.beat.sdmaWr = p.write)
    (hWbyte : (step cfg s i).beat.sdmaWbyte = s.beat.sdmaWbyte)
    (q : Present)
    (hSame : q.write = p.write) :
    fresh (step cfg s i) q = poppedNow s i ++ takenNow s i := by
  unfold fresh poppedNow takenNow
  rw [dmaValid_step hReset, hSame, hWbyte]
  cases hWrite : p.write with
  | true =>
      rw [hWrite] at hRd
      rw [not_pops (Or.inl hRd)]
      cases takes s i <;> rfl
  | false =>
      rw [hWrite] at hWr
      rw [not_takes (Or.inl hWr)]
      cases hPops : pops s i with
      | true => simp [dmaRlatch_step hPops]
      | false => rfl

theorem beat_cleared
    {b : Beat}
    (hAck : b.ack = false)
    (hFault : b.sdmaFault = false) :
    { b with ack := false, sdmaFault := false } = b := by
  cases b
  simp only at hAck hFault
  simp only [hAck, hFault]

/- Only the watchdog of a waiting beat moves. -/
theorem beat_waits
    (hReset : i.nreset = true)
    (hOpen : BeatOpen s p earlier)
    (hShown : s.scsi.dmaValid = false)
    (hKept : expires cfg s i = false) :
    ∃ w, (step cfg s i).beat =
      { s.beat with sdmaWatch := w } := by
  cases hCe : i.ce with
  | false => exact ⟨_, beat_disabled hReset hCe⟩
  | true =>
      have hWaiting : waiting s i = true := by
        simp [waiting, hReset, hCe, hOpen.state, hShown]
      have hShort :
          s.beat.sdmaWatch ≠ 2 ^ cfg.sdmaTimeoutBits - 1 := by
        simpa [expires, hWaiting, expiry] using hKept
      rw [beat_of_waiting hWaiting,
        beat_cleared hOpen.ack hOpen.fault]
      simp only [beatSdma, hShown, Bool.false_eq_true, if_false,
        beq_iff_eq, hShort]
      split_ifs
      · exact ⟨_, rfl⟩
      · exact ⟨_, rfl⟩

theorem beatOpen_wait
    (hReset : i.nreset = true)
    (hOpen : BeatOpen s p earlier)
    (hShown : s.scsi.dmaValid = false)
    (hKept : expires cfg s i = false) :
    BeatOpen (step cfg s i) (p.note s i) earlier := by
  rcases beat_waits hReset hOpen hShown hKept with ⟨w, hBeat⟩
  have hWbyte : (step cfg s i).beat.sdmaWbyte =
      s.beat.sdmaWbyte := by rw [hBeat]
  have hBefore : p.moved = earlier := by
    simpa [fresh, hShown] using hOpen.moved
  have hFresh := fresh_step hReset hOpen.rd hOpen.wr hWbyte
    { p with moved := p.moved ++ poppedNow s i ++ takenNow s i } rfl
  rw [note_of_open hReset hOpen.state]
  exact {
    state := by rw [hBeat]; exact hOpen.state
    ack := by rw [hBeat]; exact hOpen.ack
    fault := by rw [hBeat]; exact hOpen.fault
    be := by rw [hBeat]; exact hOpen.be
    rd := by rw [hBeat]; exact hOpen.rd
    wr := by rw [hBeat]; exact hOpen.wr
    moved := by
      rw [hFresh, ← List.append_assoc, hBefore]
    left := by rw [hBeat]; exact hOpen.left
    some := by rw [hBeat]; exact hOpen.some
    wbyte := by rw [hBeat]; exact hOpen.wbyte
    ahead := by rw [hBeat]; exact hOpen.ahead
    writes := hOpen.writes
    reads := by rw [hBeat]; exact hOpen.reads }

/- While a handshake is shown no other byte moves. -/
theorem moves_of_shown (hShown : s.scsi.dmaValid = true) :
    pops s i = false ∧ takes s i = false :=
  ⟨not_pops (Or.inr hShown), not_takes (Or.inr hShown)⟩

theorem note_of_shown
    (hReset : i.nreset = true)
    (hState : s.beat.astate = .sdma)
    (hShown : s.scsi.dmaValid = true) :
    p.note s i = p := by
  rcases @moves_of_shown s i hShown with ⟨hPops, hTakes⟩
  rw [note_of_open hReset hState]
  simp [poppedNow, takenNow, hPops, hTakes]

/- What has moved when a handshake is shown. -/
theorem moved_of_shown
    (hOpen : BeatOpen s p earlier)
    (hShown : s.scsi.dmaValid = true) :
    p.moved = earlier ++
      [if p.write then s.beat.sdmaWbyte else s.scsi.dmaRlatch] := by
  rw [hOpen.moved, fresh, if_pos hShown]

/- A byte taken over, with more to come. -/
theorem beatOpen_take
    (hReset : i.nreset = true)
    (hCe : i.ce = true)
    (hOpen : BeatOpen s p earlier)
    (hShown : s.scsi.dmaValid = true)
    (hMore : s.beat.sdmaLeft ≠ 1) :
    BeatOpen (step cfg s i) (p.note s i) p.moved := by
  have hBeat : (step cfg s i).beat =
      { s.beat with
        ack := false, sdmaFault := false
        sdmaWatch := 0
        sdmaShift :=
          s.beat.sdmaShift.extractLsb' 0 24 ++ s.scsi.dmaRlatch
        sdmaWbyte := s.beat.sdmaShift.extractLsb' 16 8
        sdmaLeft := (s.beat.sdmaLeft + 7) % 8 } := by
    rw [beat_enabled hReset hCe]
    simp [beatNext, hOpen.state, beatSdma, hShown, hMore]
  have hNext : (step cfg s i).scsi.dmaValid = false := by
    rcases @moves_of_shown s i hShown with ⟨hPops, hTakes⟩
    rw [dmaValid_step hReset, hPops, hTakes]
    rfl
  have hMoved := moved_of_shown hOpen hShown
  have hLength : p.moved.length = earlier.length + 1 := by
    rw [hMoved, List.length_append, List.length_singleton]
  have hLeft := hOpen.left
  have hSome := hOpen.some
  have hCount := (sdmaCount_bounds p.be).2
  rw [note_of_shown hReset hOpen.state hShown]
  exact {
    state := by rw [hBeat]; exact hOpen.state
    ack := by rw [hBeat]
    fault := by rw [hBeat]
    be := by rw [hBeat]; exact hOpen.be
    rd := by rw [hBeat]; exact hOpen.rd
    wr := by rw [hBeat]; exact hOpen.wr
    moved := by simp [fresh, hNext]
    left := by
      rw [hBeat, hLength]
      show (s.beat.sdmaLeft + 7) % 8 + (earlier.length + 1) =
        sdmaCount p.be
      omega
    some := by
      rw [hBeat]
      show 0 < (s.beat.sdmaLeft + 7) % 8
      omega
    wbyte := by
      have hTop := hOpen.ahead (2 - earlier.length) (by omega)
      have hIndex : 2 - earlier.length + earlier.length = 2 := by
        omega
      have hIndex' : 3 - p.moved.length = 2 - earlier.length := by
        omega
      rw [hIndex] at hTop
      rw [hBeat, hIndex', ← hTop]
      rfl
    ahead := by
      intro k hk
      have hIndex : k + p.moved.length =
          k + earlier.length + 1 := by omega
      rw [hBeat, hIndex]
      show byte (k + earlier.length + 1)
        (s.beat.sdmaShift.extractLsb' 0 24 ++
          s.scsi.dmaRlatch) = _
      rw [byte_shiftIn (by omega)]
      exact hOpen.ahead k (by omega)
    writes := fun hWrite => moved_of_write hOpen hWrite
    reads := by
      intro hRead
      rw [hBeat, hLength]
      show p.moved = trailing (earlier.length + 1)
        (s.beat.sdmaShift.extractLsb' 0 24 ++
          s.scsi.dmaRlatch)
      rw [trailing_shiftIn (by omega), ← hOpen.reads hRead,
        hMoved, hRead]
      rfl }

end Iosb

------------------------------------------------------------
-- The End of a Beat
------------------------------------------------------------

namespace Iosb

open Lanes

variable {cfg : Config} {s : Asic} {i : In} {p : Present}
variable {earlier : List Byte}

/-
  What a beat that ends well has moved: its count of bytes, a
  write those it aligned, a read those its data is made of.
-/
structure BeatDone (rdata : BitVec 32) (p : Present) : Prop where
  count : p.moved.length = sdmaCount p.be
  writes : p.write = true →
    p.moved = leading (sdmaCount p.be) (sdmaAlign p.be p.wdata)
  reads : p.write = false → recognised p.be = true →
    laneBytes p.be rdata = p.moved

theorem beat_finished
    (hReset : i.nreset = true)
    (hCe : i.ce = true)
    (hOpen : BeatOpen s p earlier)
    (hShown : s.scsi.dmaValid = true)
    (hLast : s.beat.sdmaLeft = 1) :
    (step cfg s i).beat.ack = true ∧
      (step cfg s i).beat.sdmaFault = false ∧
      (step cfg s i).beat.astate = .idle ∧
      Resting (step cfg s i) ∧
      p.note s i = p ∧
      BeatDone (step cfg s i).beat.rdata p := by
  have hBeat : (step cfg s i).beat =
      { s.beat with
        sdmaFault := false
        sdmaWatch := 0, sdmaRd := false, sdmaWr := false
        ack := true
        rdata := sdmaRdata s.beat s.scsi.dmaRlatch
        astate := .idle } := by
    rw [beat_enabled hReset hCe]
    simp [beatNext, hOpen.state, beatSdma, hShown, hLast,
      sdmaRdata]
  have hMoved := moved_of_shown hOpen hShown
  have hLength : p.moved.length = sdmaCount p.be := by
    have hLeft := hOpen.left
    rw [hMoved, List.length_append, List.length_singleton]
    omega
  rw [hBeat]
  refine ⟨rfl, rfl, rfl, ?_,
    note_of_shown hReset hOpen.state hShown, hLength, ?_, ?_⟩
  · exact ⟨by rw [hBeat]; exact AState.noConfusion,
      by rw [hBeat], by rw [hBeat]⟩
  · intro hWrite
    rw [← hLength]
    exact moved_of_write hOpen hWrite
  · intro hRead hBe
    have hCount : sdmaCount p.be - 1 = earlier.length := by
      have hLeft := hOpen.left
      omega
    rw [laneBytes_sdmaRdata hOpen.be hBe, hCount,
      ← hOpen.reads hRead, hMoved, hRead]
    rfl

/- A beat given up on drops its strobes. -/
theorem beat_failed
    (hExpires : expires cfg s i = true) :
    (step cfg s i).beat.ack = true ∧
      (step cfg s i).beat.sdmaFault = true ∧
      (step cfg s i).beat.astate = .idle ∧
      Resting (step cfg s i) := by
  simp only [expires, Bool.and_eq_true, beq_iff_eq]
    at hExpires
  rcases hExpires with ⟨hWaiting, hLast⟩
  have hShown : s.scsi.dmaValid = false := by
    simp only [waiting, Bool.and_eq_true, Bool.not_eq_true']
      at hWaiting
    exact hWaiting.2
  have hBeat : (step cfg s i).beat =
      { s.beat with
        sdmaRd := false, sdmaWr := false
        ack := true, sdmaFault := true, rdata := 0#32
        sdmaWatch := 0, astate := .idle } := by
    rw [beat_of_waiting hWaiting]
    simp [beatSdma, hShown, hLast, expiry]
  rw [hBeat]
  exact ⟨rfl, rfl, rfl, by rw [hBeat]; exact AState.noConfusion,
    by rw [hBeat], by rw [hBeat]⟩

/- Between beats nothing moves. -/
theorem moves_of_resting (hRest : Resting s) :
    pops s i = false ∧ takes s i = false :=
  ⟨not_pops (Or.inl hRest.rd), not_takes (Or.inl hRest.wr)⟩

theorem shown_of_resting
    (hReset : i.nreset = true)
    (hRest : Resting s) :
    (step cfg s i).scsi.dmaValid = false := by
  rcases @moves_of_resting s i hRest with ⟨hPops, hTakes⟩
  rw [dmaValid_step hReset, hPops, hTakes]
  rfl

/- No pseudo-DMA beat is accepted: none is open. -/
theorem resting_step
    (hReset : i.nreset = true)
    (hRest : Resting s)
    (hOther : accept s i = true → device i ≠ .sdma) :
    Resting (step cfg s i) ∧
      (step cfg s i).beat.sdmaFault =
        (!i.ce && s.beat.sdmaFault) := by
  cases hCe : i.ce with
  | false =>
      have hBeat := @beat_disabled cfg s i hReset hCe
      exact ⟨⟨by rw [hBeat]; exact hRest.state,
        by rw [hBeat]; exact hRest.rd,
        by rw [hBeat]; exact hRest.wr⟩, by rw [hBeat]; rfl⟩
  | true =>
      have hBeat := @beat_enabled cfg s i hReset hCe
      suffices hNext : (beatNext cfg s i).astate ≠ .sdma ∧
          (beatNext cfg s i).sdmaRd = s.beat.sdmaRd ∧
          (beatNext cfg s i).sdmaWr = s.beat.sdmaWr ∧
          (beatNext cfg s i).sdmaFault = false by
        rcases hNext with ⟨hState, hRd, hWr, hFault⟩
        exact ⟨⟨by rw [hBeat]; exact hState,
          by rw [hBeat, hRd]; exact hRest.rd,
          by rw [hBeat, hWr]; exact hRest.wr⟩,
          by rw [hBeat]; exact hFault⟩
      cases hState : s.beat.astate with
      | sdma => exact absurd hState hRest.state
      | idle =>
          rw [beatNext_of_idle hState]
          split
          next hGo =>
              simp only [Bool.and_eq_true, Bool.not_eq_true']
                at hGo
              have hAccept : accept s i = true :=
                accept_iff.mpr ⟨hCe, hState, hGo⟩
              exact beatAccept_other (hOther hAccept) hState
          next => simp [hState]
      | capture | asc => simp [beatNext, hState]
      | via | sccAcc | sccRel =>
          simp only [beatNext, hState]
          split_ifs <;> simp

/- A reset clears the beat slave and the handshake. -/
theorem resting_reset
    (hReset : i.nreset = false) :
    Resting (step cfg s i) ∧
      (step cfg s i).beat.sdmaFault = false ∧
      (step cfg s i).scsi.dmaValid = false := by
  have hBeat : (step cfg s i).beat = resetBeat := by
    simp [step, hReset]
  have hShown : (step cfg s i).scsi.dmaValid = false := by
    have hLow : (scsiIn s i).nreset = false := hReset
    simp [step, Ncr53c96.step, hLow, Ncr53c96.sbufPorts,
      Ncr53c96.resetRegs]
  exact ⟨⟨by rw [hBeat]; exact AState.noConfusion,
    by rw [hBeat]; rfl, by rw [hBeat]; rfl⟩,
    by rw [hBeat]; rfl, hShown⟩

end Iosb
