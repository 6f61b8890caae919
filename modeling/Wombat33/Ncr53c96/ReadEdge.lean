import Wombat33.Ncr53c96.DataIn
import Wombat33.Ncr53c96.OwnAnswer

/-
  A read in progress, and what one clock edge does to it.

  Beside the run a log keeps the count of bytes asked for and
  of bytes moved into the FIFO, the bytes the initiator has
  taken out of it, and the blocks strobed.  At every edge the
  bytes taken and the FIFO together are the bytes moved.

  Key definitions include:
    * `ReadStarted`, `settled`
    * `ReadLog`, `noteRead`
    * `ReadOk`, `PioEmpty`
    * `ReadKept`, `ReadEnds`
    * `ReadInv`

  Key theorems include:
    * `readKept_of_inv`
    * `read_sourceDone`, `read_lastByte`, `read_phase`
    * `read_moves`, `readQuiet_clock`
-/

------------------------------------------------------------
-- Start and Log
------------------------------------------------------------

namespace Ncr53c96

open Clocked

variable (cfg : Config)

/- Byte `j` of each block the platform serves. -/
abbrev Disk := BitVec 32 → Nat → Byte

/- Byte `b` of the blocks from `start` on. -/
def diskByte (disk : Disk) (start : BitVec 32) (b : Nat) :
    Byte :=
  disk (start + BitVec.ofNat 32 (b / 512)) (b % 512)

/- The first `n` bytes of the blocks from `start` on. -/
def diskBytes (disk : Disk) (start : BitVec 32) (n : Nat) :
    List Byte :=
  (List.range n).map (diskByte disk start)

/- Start block and block count of a collected READ. -/
def readStart (s : Chip) : BitVec 32 × Nat :=
  if s.cdb 0 == 0x28#8 then (lba10 s, count10 s)
  else (lba6 s, count6 s)

/-
  A READ of `count` blocks from `start` has just executed, and
  no block transfer is in flight.
-/
def ReadStarted
    (s : Chip)
    (start : BitVec 32)
    (count : Nat) : Prop :=
  ∃ s₀ i₀, Reachable cfg s₀ ∧ i₀.nreset = true ∧
    execRead s₀ = true ∧ readStart s₀ = (start, count) ∧
    s = step cfg s₀ i₀ ∧ 0 < count ∧
    s.ioRd = false ∧ s.ioWr = false ∧ s.ioAckD = false

/-
  Nothing of an earlier command is left over: DATA IN shows,
  the FIFO is empty, and no transfer, no collection and no
  response is open.
-/
def settled (s : Chip) : Prop :=
  s.phase = .din ∧ s.fifoCnt = 0 ∧ s.xferIn = false ∧
    s.xferOut = false ∧ s.xferPioIn = false ∧
    s.xferPioOut = false ∧ s.xferMsgOut = false ∧
    s.cdbActive = false ∧ s.synthLen = 0

instance decidableSettled (s : Chip) :
    Decidable (settled s) :=
  inferInstanceAs (Decidable
    (s.phase = .din ∧ s.fifoCnt = 0 ∧ s.xferIn = false ∧
      s.xferOut = false ∧ s.xferPioIn = false ∧
      s.xferPioOut = false ∧ s.xferMsgOut = false ∧
      s.cdbActive = false ∧ s.synthLen = 0))

/-
  The bytes asked for by transfer informations, the bytes
  moved into the FIFO, the bytes taken out of it, the blocks
  strobed, and the words of the load in flight that the
  platform has written.
-/
structure ReadLog where
  asked : Nat
  moved : Nat
  taken : List Byte
  strobes : List (BitVec 32)
  written : BitVec 256

/- The edge raises `ioRd`. -/
def readStrobe (s : Chip) (i : In) : Bool :=
  !s.ioRd && (step cfg s i).ioRd

def noteRead (g : ReadLog) (s : Chip) (i : In) : ReadLog where
  asked :=
    g.asked + if cmdIs i 0x10#7 then infoCount s i else 0
  moved := g.moved + if byteIn s i then 1 else 0
  taken := g.taken ++ delivered cfg s i
  strobes :=
    g.strobes ++
      if readStrobe cfg s i then [(step cfg s i).ioLba] else []
  written :=
    if readStrobe cfg s i then 0#256
    else if i.sdBuffWr then
      g.written ||| 1#256 <<< i.sdBuffAddr.toNat
    else g.written

/- Nothing is asked for yet. -/
def nothingRead : ReadLog := ⟨0, 0, [], [], 0#256⟩

end Ncr53c96

------------------------------------------------------------
-- Contract and Property
------------------------------------------------------------

namespace Ncr53c96

/-
  What the initiator and the platform keep to: one transfer
  information after the other, with the count loaded between
  them, for no more bytes than the blocks hold; nothing is put
  into the FIFO; the platform acknowledges what was strobed
  and serves the block asked for, all its words before it
  drops the acknowledge.
-/
structure ReadOk
    (cfg : Config)
    (disk : Disk)
    (count : Nat)
    (x : Chip × ReadLog)
    (i : In) : Prop where
  clocked : i.nreset = true
  noDmaWrite : i.dmaWr = false
  noFifoWrite : regWr i 0x2#4 = false
  command : regWr i 0x3#4 = true →
    cmdOp i.wdata = 0x10#7 ∧ x.1.xferIn = false ∧
      x.1.xferPioIn = false ∧
      x.2.asked + infoCount x.1 i ≤ 512 * count
  latch : (regWr i 0x0#4 || regWr i 0x1#4) = true →
    x.1.xferIn = false
  ack : i.ioAck = true →
    x.1.ioRd = true ∨ x.1.ioAckD = true
  serves : i.sdBuffWr = true → i.ioAck = true ∧
    platDinS cfg i =
      disk x.1.ioLba (2 * i.sdBuffAddr.toNat) ++
        disk x.1.ioLba (2 * i.sdBuffAddr.toNat + 1)
  whole : ackFall x.1 i = true →
    x.2.written = BitVec.allOnes 256

instance decidableReadOk
    (cfg : Config)
    (disk : Disk)
    (count : Nat)
    (x : Chip × ReadLog)
    (i : In) :
    Decidable (ReadOk cfg disk count x i) :=
  decidable_of_iff
    (i.nreset = true ∧ i.dmaWr = false ∧
      regWr i 0x2#4 = false ∧
      (regWr i 0x3#4 = true →
        cmdOp i.wdata = 0x10#7 ∧ x.1.xferIn = false ∧
          x.1.xferPioIn = false ∧
          x.2.asked + infoCount x.1 i ≤ 512 * count) ∧
      ((regWr i 0x0#4 || regWr i 0x1#4) = true →
        x.1.xferIn = false) ∧
      (i.ioAck = true →
        x.1.ioRd = true ∨ x.1.ioAckD = true) ∧
      (i.sdBuffWr = true → i.ioAck = true ∧
        platDinS cfg i =
          disk x.1.ioLba (2 * i.sdBuffAddr.toNat) ++
            disk x.1.ioLba (2 * i.sdBuffAddr.toNat + 1)) ∧
      (ackFall x.1 i = true →
        x.2.written = BitVec.allOnes 256))
    ⟨fun ⟨h₁, h₂, h₃, h₄, h₅, h₆, h₇, h₈⟩ =>
        ⟨h₁, h₂, h₃, h₄, h₅, h₆, h₇, h₈⟩,
      fun ⟨h₁, h₂, h₃, h₄, h₅, h₆, h₇, h₈⟩ =>
        ⟨h₁, h₂, h₃, h₄, h₅, h₆, h₇, h₈⟩⟩

/- A one-byte transfer information finds the FIFO empty. -/
def PioEmpty (x : Chip × ReadLog) (i : In) : Prop :=
  cmdIs i 0x10#7 = true → cmdDma i.wdata = false →
    x.1.fifoCnt = 0

instance decidablePioEmpty (x : Chip × ReadLog) (i : In) :
    Decidable (PioEmpty x i) :=
  inferInstanceAs (Decidable
    (cmdIs i 0x10#7 = true → cmdDma i.wdata = false →
      x.1.fifoCnt = 0))

/-
  What the claim of the read path comes to in one state: the
  blocks strobed are the first ones of the range; what was
  taken, and the FIFO behind it, are the first bytes of the
  blocks; DATA IN shows until the last byte has entered the
  FIFO; and once every byte was asked for and no transfer
  information is open, every byte has been moved, every block
  strobed, and STATUS shows.
-/
structure ReadKept
    (disk : Disk)
    (start : BitVec 32)
    (count : Nat)
    (x : Chip × ReadLog) : Prop where
  few : x.2.strobes.length ≤ count
  strobes : x.2.strobes =
    (List.range x.2.strobes.length).map
      (fun k => start + BitVec.ofNat 32 k)
  bytes : x.2.taken ++ queue x.1 =
    diskBytes disk start x.2.moved
  phase : x.2.moved < 512 * count → x.1.phase = .din
  all : x.2.asked = 512 * count → x.1.xferIn = false →
    x.1.xferPioIn = false →
    x.2.moved = 512 * count ∧
      x.2.strobes.length = count ∧ x.1.phase = .stat

/-
  What it comes to at one edge: a transfer information ends
  with an interrupt; and once the last byte has entered the
  FIFO, the transfer information is over and STATUS shows
  after the first edge that finds fewer than two bytes there.
-/
structure ReadEnds
    (cfg : Config)
    (count : Nat)
    (x : Chip × ReadLog)
    (i : In) : Prop where
  raised : infoOpen x.1 = true →
    infoOpen (step cfg x.1 i) = false →
    (step cfg x.1 i).irq = true
  ended : x.2.moved = 512 * count → x.1.fifoCnt < 2 →
    infoOpen (step cfg x.1 i) = false ∧
      (step cfg x.1 i).phase = .stat

end Ncr53c96

------------------------------------------------------------
-- The Read Invariant
------------------------------------------------------------

namespace Ncr53c96

/- Nothing but the data-in transfer is going on. -/
structure ReadQuiet (s : Chip) : Prop where
  dir : s.dataDirIn = true
  noWrite : s.ioWr = false
  noFlush : s.flushPending = false
  noCdb : s.cdbActive = false
  noExec : s.execPending = false
  noSynth : s.synthLen = 0
  noMsg : s.xferMsgOut = false
  noOut : s.xferOut = false
  noPioOut : s.xferPioOut = false
  fifo : s.fifoCnt ≤ 16

/-
  The blocks strobed, and the last of them on its way: not yet
  strobed, loading, or valid with `sbufPos` bytes moved on.
-/
structure SectorInv
    (disk : Disk)
    (start : BitVec 32)
    (count : Nat)
    (x : Chip × ReadLog) : Prop where
  few : x.2.strobes.length ≤ count
  strobes : x.2.strobes =
    (List.range x.2.strobes.length).map
      (fun k => start + BitVec.ofNat 32 k)
  left : x.1.blocksLeft = count - x.2.strobes.length
  lba : x.1.lba = start + BitVec.ofNat 32 x.2.strobes.length
  once : x.1.ioRd = true → x.1.ioAckD = false
  fresh : x.2.strobes.length = 0 →
    x.1.bufValid = false ∧ x.2.moved = 0 ∧
      x.1.sbufPos = 0 ∧ x.1.ioRd = false ∧
      x.1.ioAckD = false
  loading : x.1.bufValid = false → 0 < x.2.strobes.length →
    x.2.moved + 512 = 512 * x.2.strobes.length ∧
      (x.1.ioRd = true ∨ x.1.ioAckD = true) ∧
      (x.1.sbufPos = 0 ∨ x.1.sbufPos = 512) ∧
      x.1.ioLba =
        start + BitVec.ofNat 32 (x.2.strobes.length - 1) ∧
      ∀ a : BitVec 8, x.2.written.getLsbD a.toNat = true →
        x.1.mem a = disk x.1.ioLba (2 * a.toNat) ++
          disk x.1.ioLba (2 * a.toNat + 1)
  valid : x.1.bufValid = true →
    0 < x.2.strobes.length ∧ x.1.sbufLen = 512 ∧
      x.1.sbufPos ≤ 512 ∧
      x.2.moved + 512 =
        512 * x.2.strobes.length + x.1.sbufPos ∧
      x.1.ioRd = false ∧ x.1.ioAckD = false ∧
      x.1.qE = x.1.mem x.1.eqAddr ∧
      ∀ j < 512, bufByte x.1.mem j =
        disk (start +
          BitVec.ofNat 32 (x.2.strobes.length - 1)) j

/- What was asked for, and what is still to come of it. -/
structure InfoInv
    (count : Nat)
    (x : Chip × ReadLog) : Prop where
  bound : x.2.asked ≤ 512 * count
  rest : infoOpen x.1 = false → x.2.asked = x.2.moved
  dma : x.1.xferIn = true →
    x.1.xferPioIn = false ∧ x.1.chunkIrqArmed = true ∧
      x.1.dmaActive = true
  counting : x.1.xferIn = true → x.1.tcZero = false →
    0 < x.1.tcounter ∧ x.1.tcounter ≤ 65536 ∧
      x.2.asked = x.2.moved + x.1.tcounter
  expired : x.1.xferIn = true → x.1.tcZero = true →
    x.2.asked = x.2.moved
  pio : x.1.xferPioIn = true →
    x.2.asked = x.2.moved + 1 ∧ x.1.fifoCnt = 0
  phase : x.1.phase =
    if x.2.moved = 512 * count ∧ x.1.xferIn = false then .stat
    else .din

structure ReadInv
    (disk : Disk)
    (start : BitVec 32)
    (count : Nat)
    (x : Chip × ReadLog) : Prop where
  some : 0 < count
  quiet : ReadQuiet x.1
  sector : SectorInv disk start count x
  info : InfoInv count x
  stream : x.2.taken ++ queue x.1 =
    diskBytes disk start x.2.moved

variable {disk : Disk} {start : BitVec 32} {count : Nat}

/- Once every byte is moved the last sector is spent. -/
theorem spent_of_moved
    {x : Chip × ReadLog}
    (hInv : ReadInv disk start count x)
    (hMoved : x.2.moved = 512 * count) :
    x.1.bufValid = true ∧ x.1.sbufPos = 512 ∧
      x.2.strobes.length = count := by
  have hSome := hInv.some
  have hFew := hInv.sector.few
  have hStarted : x.2.strobes.length ≠ 0 := by
    intro hZero
    have hNone := (hInv.sector.fresh hZero).2.1
    omega
  cases hValid : x.1.bufValid with
  | true =>
      rcases hInv.sector.valid hValid with
        ⟨-, -, hPos, hCount, -⟩
      refine ⟨rfl, ?_, ?_⟩ <;> omega
  | false =>
      have hCount :=
        (hInv.sector.loading hValid (by omega)).1
      omega

/- The invariant is all that is asked for of a state. -/
theorem readKept_of_inv
    {x : Chip × ReadLog}
    (hInv : ReadInv disk start count x) :
    ReadKept disk start count x where
  few := hInv.sector.few
  strobes := hInv.sector.strobes
  bytes := hInv.stream
  phase := by
    intro hMore
    rw [hInv.info.phase, if_neg (by omega)]
  all := by
    intro hAsked hIn hPio
    have hRest := hInv.info.rest (by simp [infoOpen, hIn, hPio])
    have hMoved : x.2.moved = 512 * count := by omega
    refine ⟨hMoved, (spent_of_moved hInv hMoved).2.2, ?_⟩
    rw [hInv.info.phase, if_pos ⟨hMoved, hIn⟩]

end Ncr53c96

------------------------------------------------------------
-- What an Edge of a Read Can Do
------------------------------------------------------------

namespace Ncr53c96

variable {cfg : Config} {disk : Disk}
variable {start : BitVec 32} {count : Nat}
variable {s : Chip} {g : ReadLog} {i : In}

/- A transfer information is issued in DATA IN, none open. -/
theorem read_info
    (hInv : ReadInv disk start count (s, g))
    (hOk : ReadOk cfg disk count (s, g) i)
    (hCmd : cmdIs i 0x10#7 = true) :
    s.phase = .din ∧ s.xferIn = false ∧
      s.xferPioIn = false ∧ g.asked = g.moved ∧
      g.asked + infoCount s i ≤ 512 * count := by
  rcases hOk.command (regWr_of_cmdIs hCmd) with
    ⟨-, hIn, hPio, hBound⟩
  have hIn' : s.xferIn = false := hIn
  have hPio' : s.xferPioIn = false := hPio
  have hRest : g.asked = g.moved :=
    hInv.info.rest (by simp [infoOpen, hIn', hPio'])
  have hPos := infoCount_pos s i
  have hMore : g.moved ≠ 512 * count := by
    have hBound' : g.asked + infoCount s i ≤ 512 * count :=
      hBound
    omega
  refine ⟨?_, hIn', hPio', hRest, hBound⟩
  have hPhase : s.phase =
      if g.moved = 512 * count ∧ s.xferIn = false then .stat
      else .din := hInv.info.phase
  rw [hPhase, if_neg (fun h => hMore h.1)]

/- Nothing else goes on, and the initiator keeps to it. -/
theorem inQuiet_of_read
    (hInv : ReadInv disk start count (s, g)) :
    InQuiet s where
  noCdb := hInv.quiet.noCdb
  noExec := hInv.quiet.noExec
  noMsg := hInv.quiet.noMsg
  noOut := hInv.quiet.noOut
  noPioOut := hInv.quiet.noPioOut
  fifo := hInv.quiet.fifo

theorem inHost_of_read
    (hInv : ReadInv disk start count (s, g))
    (hOk : ReadOk cfg disk count (s, g) i) :
    InHost s i where
  clocked := hOk.clocked
  noDmaWrite := hOk.noDmaWrite
  noFifoWrite := hOk.noFifoWrite
  command := by
    intro hWr
    have hOp := (hOk.command hWr).1
    rcases read_info hInv hOk (by simp [cmdIs, hWr, hOp]) with
      ⟨hPhase, hIn, hPio, -⟩
    exact ⟨hOp, hPhase, hIn, hPio⟩

/- The engine writes nothing into the sector buffer. -/
theorem read_weE
    (hInv : ReadInv disk start count (s, g))
    (hOk : ReadOk cfg disk count (s, g) i) :
    weE s i = false := by
  have hSynth : s.synthLen = 0 := hInv.quiet.noSynth
  simp [weE, synthOn, hSynth,
    din_noDrain (inQuiet_of_read hInv) (inHost_of_read hInv hOk)]

/- With no load in flight the handshake is at rest. -/
theorem read_rest
    (hInv : ReadInv disk start count (s, g))
    (hOk : ReadOk cfg disk count (s, g) i)
    (hRd : s.ioRd = false)
    (hAckD : s.ioAckD = false) :
    ioBusy s i = false := by
  have hAck : i.ioAck = false := by
    by_contra h
    rcases hOk.ack (by simpa using h) with h' | h'
    · simp [hRd] at h'
    · simp [hAckD] at h'
  have hWr : s.ioWr = false := hInv.quiet.noWrite
  simp [ioBusy, hRd, hWr, hAck, hAckD]

/- A byte that moves is the one `sbufPos` selects. -/
theorem byteIn_guard
    (hInv : ReadInv disk start count (s, g))
    (hIn : byteIn s i = true) :
    s.bufValid = true ∧ s.sbufPos < 512 ∧
      sbufByte s = diskByte disk start g.moved := by
  have hAvail := byteIn_avail hIn
  rcases byteAvail_iff.mp hAvail.1 with ⟨hValid, hLt⟩
  rcases hInv.sector.valid hValid with
    ⟨hSome, hLen, -, hCount, -, -, hRead, hBytes⟩
  have hCount' : g.moved + 512 =
      512 * g.strobes.length + s.sbufPos := hCount
  have hSome' : 0 < g.strobes.length := hSome
  have hPos : s.sbufPos < 512 := by
    rw [show s.sbufLen = 512 from hLen] at hLt
    exact hLt
  have hByte : sbufByte s = bufByte s.mem s.sbufPos :=
    sbufByte_eq hRead hAvail.2
  have hBlock : g.moved / 512 = g.strobes.length - 1 := by omega
  have hIndex : g.moved % 512 = s.sbufPos := by omega
  refine ⟨hValid, hPos, ?_⟩
  rw [hByte, diskByte, hBlock, hIndex]
  exact hBytes _ hPos

/- While a byte moves nothing is fetched or published. -/
theorem byteIn_alone
    (hInv : ReadInv disk start count (s, g))
    (hIn : byteIn s i = true) :
    prefetchDue s i = false ∧ publish s i = false := by
  rcases byteIn_guard hInv hIn with ⟨hValid, hPos, -⟩
  rcases hInv.sector.valid hValid with
    ⟨-, hLen, -, -, -, hAckD, -⟩
  have hLen' : s.sbufLen = 512 := hLen
  have hAckD' : s.ioAckD = false := hAckD
  have hMore : ¬s.sbufLen ≤ s.sbufPos := by omega
  have hValid' : s.bufValid = true := hValid
  constructor
  · simp [prefetchDue, hValid', hMore]
  · simp [publish, ackFall, hAckD']

end Ncr53c96

------------------------------------------------------------
-- The End of the Data
------------------------------------------------------------

namespace Ncr53c96

variable {cfg : Config} {disk : Disk}
variable {start : BitVec 32} {count : Nat}
variable {s : Chip} {g : ReadLog} {i : In}

/- The source is exhausted once every byte has been moved. -/
theorem read_sourceDone
    (hInv : ReadInv disk start count (s, g))
    (hOk : ReadOk cfg disk count (s, g) i) :
    sourceDone s i = true ↔ g.moved = 512 * count := by
  have hSome := hInv.some
  have hFew : g.strobes.length ≤ count := hInv.sector.few
  have hLeft : s.blocksLeft = count - g.strobes.length :=
    hInv.sector.left
  rw [sourceDone_iff]
  constructor
  · rintro ⟨hNone, hZero, hIdle, -⟩
    have hAll : g.strobes.length = count := by omega
    cases hValid : s.bufValid with
    | true =>
        rcases hInv.sector.valid hValid with
          ⟨-, hLen, hPos, hCount, -⟩
        have hLen' : s.sbufLen = 512 := hLen
        have hPos' : s.sbufPos ≤ 512 := hPos
        have hCount' : g.moved + 512 =
            512 * g.strobes.length + s.sbufPos := hCount
        have hSpent : 512 ≤ s.sbufPos := by
          simpa [byteAvail, hValid, hLen'] using hNone
        omega
    | false =>
        exfalso
        have hBusy :=
          (hInv.sector.loading hValid (by
            show 0 < g.strobes.length
            omega)).2.1
        have hBusy' : s.ioRd = true ∨ s.ioAckD = true := hBusy
        simp only [ioBusy, Bool.or_eq_false_iff] at hIdle
        rcases hBusy' with h | h
        · simp [hIdle.1.1.1] at h
        · simp [hIdle.2] at h
  · intro hMoved
    rcases spent_of_moved hInv hMoved with
      ⟨hValid, hPos, hAll⟩
    have hPos' : s.sbufPos = 512 := hPos
    have hAll' : g.strobes.length = count := hAll
    rcases hInv.sector.valid hValid with
      ⟨-, hLen, -, -, hRd, hAckD, -⟩
    have hLen' : s.sbufLen = 512 := hLen
    have hSynth : s.synthLen = 0 := hInv.quiet.noSynth
    exact ⟨by simp [byteAvail, hLen', hPos'], by omega,
      read_rest hInv hOk hRd hAckD, by simp [synthOn, hSynth]⟩

/- The byte that moves is the last one. -/
theorem read_lastByte
    (hInv : ReadInv disk start count (s, g))
    (hOk : ReadOk cfg disk count (s, g) i)
    (hIn : byteIn s i = true) :
    lastByte s i = true ↔ g.moved + 1 = 512 * count := by
  rcases byteIn_guard hInv hIn with ⟨hValid, hPos, -⟩
  rcases hInv.sector.valid hValid with
    ⟨hSome, hLen, -, hCount, hRd, hAckD, -⟩
  have hRest := read_rest hInv hOk hRd hAckD
  have hLen' : s.sbufLen = 512 := hLen
  have hSome' : 0 < g.strobes.length := hSome
  have hCount' : g.moved + 512 =
      512 * g.strobes.length + s.sbufPos := hCount
  have hFew : g.strobes.length ≤ count := hInv.sector.few
  have hLeft : s.blocksLeft = count - g.strobes.length :=
    hInv.sector.left
  simp only [lastByte, hLen', hRest, Bool.and_eq_true,
    beq_iff_eq, Bool.not_false, and_true]
  omega

/- No transfer information runs out of data. -/
theorem read_noUnderflow
    (hInv : ReadInv disk start count (s, g))
    (hOk : ReadOk cfg disk count (s, g) i) :
    dinUnderflow s i = false ∧ pioInUnderflow s i = false := by
  have hDone := read_sourceDone hInv hOk
  have hBound : g.asked ≤ 512 * count := hInv.info.bound
  constructor
  · by_contra hUnder
    simp only [dinUnderflow, Bool.not_eq_false,
      Bool.and_eq_true, Bool.not_eq_true'] at hUnder
    rcases hUnder with ⟨⟨⟨hIn, -⟩, hZero⟩, hNone⟩
    rcases hInv.info.counting hIn hZero with
      ⟨hPos, -, hCount⟩
    have hPos' : 0 < s.tcounter := hPos
    have hCount' : g.asked = g.moved + s.tcounter := hCount
    have hMoved := hDone.mp hNone
    omega
  · by_contra hUnder
    simp only [pioInUnderflow, Bool.not_eq_false,
      Bool.and_eq_true] at hUnder
    have hCount : g.asked = g.moved + 1 :=
      (hInv.info.pio hUnder.1).1
    have hMoved := hDone.mp hUnder.2
    omega

/- DATA IN ends with the last byte, or with its TI. -/
theorem read_phase
    (hInv : ReadInv disk start count (s, g))
    (hOk : ReadOk cfg disk count (s, g) i) :
    (clock cfg s i).phase =
      if dinDone s && sourceDone s i then .stat
      else if armPioIn s i && lastByte s i then .stat
      else s.phase := by
  rcases read_noUnderflow hInv hOk with ⟨hDma, hPio⟩
  rw [din_nextPhase (inQuiet_of_read hInv)
    (inHost_of_read hInv hOk)]
  simp [hDma, hPio]

end Ncr53c96

------------------------------------------------------------
-- Counters and Flags after an Edge
------------------------------------------------------------

namespace Ncr53c96

open Clocked

variable {cfg : Config} {disk : Disk}
variable {start : BitVec 32} {count : Nat}
variable {s : Chip} {g : ReadLog} {i : In}

/- How the block counters and the buffer position move on. -/
theorem read_moves
    (hInv : ReadInv disk start count (s, g))
    (hOk : ReadOk cfg disk count (s, g) i) :
    ((clock cfg s i).blocksLeft =
        if prefetchDue s i then s.blocksLeft - 1
        else s.blocksLeft) ∧
      ((clock cfg s i).lba =
        if prefetchDue s i then s.lba + 1#32 else s.lba) ∧
      ((clock cfg s i).ioLba =
        if prefetchDue s i then s.lba else s.ioLba) ∧
      ((clock cfg s i).sbufPos =
        if byteIn s i then s.sbufPos + 1
        else if publish s i then 0
        else s.sbufPos) := by
  have hNoExec : s.execPending = false := hInv.quiet.noExec
  have hNoFlush :=
    (@din_noOtherEnd s i (inQuiet_of_read hInv)).1
  refine ⟨?_, ?_, ?_, ?_⟩
  · simp [clock_blocksLeft, hNoFlush, hNoExec]
  · simp [clock_lba, hNoFlush, hNoExec]
  · simp [clock_ioLba, hNoFlush]
  · rw [din_sbufPos (inQuiet_of_read hInv)
      (inHost_of_read hInv hOk)]
    cases hIn : byteIn s i with
    | true =>
        have hPos := (byteIn_guard hInv hIn).2.1
        have hStep : (s.sbufPos + 1) % 1024 =
            s.sbufPos + 1 := by
          omega
        simp [hStep]
    | false => simp

/- An edge of a read starts nothing else. -/
theorem readQuiet_clock
    (hInv : ReadInv disk start count (s, g))
    (hOk : ReadOk cfg disk count (s, g) i) :
    ReadQuiet (clock cfg s i) := by
  have hQuiet : ReadQuiet s := hInv.quiet
  have hNext := @din_quiet cfg s i (inQuiet_of_read hInv)
    (inHost_of_read hInv hOk)
  have hNoFlush :=
    (@din_noOtherEnd s i (inQuiet_of_read hInv)).1
  exact {
    dir := by
      simp [clock_dataDirIn, hQuiet.noExec, hQuiet.dir]
    noWrite := by simp [clock_ioWr, hNoFlush, hQuiet.noWrite]
    noFlush := by
      simp [clock_flushPending, hNoFlush, hQuiet.noFlush]
    noCdb := hNext.noCdb
    noExec := hNext.noExec
    noSynth := by
      simp [clock_synthLen, hQuiet.noExec, hQuiet.noSynth]
    noMsg := hNext.noMsg
    noOut := hNext.noOut
    noPioOut := hNext.noPioOut
    fifo := hNext.fifo }

end Ncr53c96
