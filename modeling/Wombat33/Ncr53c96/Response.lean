import Wombat33.Ncr53c96.ReadPath

/-
  The response to an INQUIRY, REQUEST SENSE or MODE SENSE.

  The target builds its response in the sector buffer, one
  byte a clock, and publishes it with the last one; transfer
  informations then move it into the FIFO.  A log beside the
  run keeps what was asked for, what the target offered and
  what the initiator took.

  Key definitions include:
    * `responseTo`, `ResponseStarted`, `allClosed`
    * `OfferLog`, `noteOffer`
    * `ResponseOk`, `ResponseKept`, `ResponseEnds`
    * `ResponseInv`

  Key theorems include:
    * `responseKept_of_inv`
    * `offer_guard`
    * `buildInv_step`
-/

------------------------------------------------------------
-- The Response and the Log
------------------------------------------------------------

namespace Ncr53c96

variable (cfg : Config)

/- A CDB the target answers with a response of its own. -/
def responds (op : Byte) : Bool :=
  op == 0x03#8 || op == 0x12#8 || op == 0x1A#8

def responseKind (op : Byte) : SynthKind :=
  if op == 0x03#8 then .sense
  else if op == 0x12#8 then .inq
  else .mode

def responseLen (op : Byte) : Nat :=
  if op == 0x03#8 then 18 else if op == 0x12#8 then 36 else 4

/- Byte `j` of it; the sense key is the one before the CDB. -/
def responseByte (s : Chip) (j : Nat) : Byte :=
  synthByte { s with senseR := s.senseKey }
    (responseKind (s.cdb 0)) j

/-
  The response to the CDB that executes in `s`.  Byte 4, the
  allocation length, does not occur in it.
-/
def responseTo (s : Chip) : List Byte :=
  (List.range (responseLen (s.cdb 0))).map (responseByte s)

/- In `s₀` a CDB with a response executes, leading to `s`. -/
def ResponseExecuted (s₀ s : Chip) : Prop :=
  Reachable cfg s₀ ∧ s₀.execPending = true ∧
    responds (s₀.cdb 0) = true ∧
    ∃ i₀, i₀.nreset = true ∧ s = step cfg s₀ i₀

/- It does so with no block transfer in flight. -/
def ResponseStarted (s₀ s : Chip) : Prop :=
  ResponseExecuted cfg s₀ s ∧
    s.ioRd = false ∧ s.ioWr = false ∧ s.ioAckD = false

/-
  DATA IN shows, and no transfer information, message or
  collection of an earlier command is still open.
-/
def allClosed (s : Chip) : Prop :=
  s.phase = .din ∧ s.xferIn = false ∧ s.xferOut = false ∧
    s.xferPioIn = false ∧ s.xferPioOut = false ∧
    s.xferMsgOut = false ∧ s.cdbActive = false

instance decidableAllClosed (s : Chip) :
    Decidable (allClosed s) :=
  inferInstanceAs (Decidable
    (s.phase = .din ∧ s.xferIn = false ∧ s.xferOut = false ∧
      s.xferPioIn = false ∧ s.xferPioOut = false ∧
      s.xferMsgOut = false ∧ s.cdbActive = false))

/-
  The bytes asked for by transfer informations, the bytes the
  target has put into the FIFO, and those taken out of it.
-/
structure OfferLog where
  asked : Nat
  offered : List Byte
  taken : List Byte

def noteOffer (g : OfferLog) (s : Chip) (i : In) :
    OfferLog where
  asked :=
    g.asked + if cmdIs i 0x10#7 then infoCount s i else 0
  offered :=
    g.offered ++ if byteIn s i then [sbufByte s] else []
  taken := g.taken ++ delivered cfg s i

/- Nothing is asked for yet. -/
def nothingOffered : OfferLog := ⟨0, [], []⟩

/- The bytes the open transfer information still asks for. -/
def owed (s : Chip) : Nat :=
  if s.xferIn then (if s.tcZero then 0 else s.tcounter)
  else if s.xferPioIn then 1
  else 0

end Ncr53c96

------------------------------------------------------------
-- Contract and Property
------------------------------------------------------------

namespace Ncr53c96

/-
  What the initiator and the platform keep to: one transfer
  information after the other while DATA IN shows, with the
  count loaded between them; nothing is put into the FIFO;
  and the platform acknowledges only what was strobed.
-/
structure ResponseOk (s : Chip) (i : In) : Prop where
  clocked : i.nreset = true
  noDmaWrite : i.dmaWr = false
  noFifoWrite : regWr i 0x2#4 = false
  command : regWr i 0x3#4 = true →
    cmdOp i.wdata = 0x10#7 ∧ s.phase = .din ∧
      s.xferIn = false ∧ s.xferPioIn = false
  latch : (regWr i 0x0#4 || regWr i 0x1#4) = true →
    s.xferIn = false
  ack : i.ioAck = true → s.ioRd = true ∨ s.ioAckD = true
  serves : i.sdBuffWr = true → i.ioAck = true

instance decidableResponseOk (s : Chip) (i : In) :
    Decidable (ResponseOk s i) :=
  decidable_of_iff
    (i.nreset = true ∧ i.dmaWr = false ∧
      regWr i 0x2#4 = false ∧
      (regWr i 0x3#4 = true →
        cmdOp i.wdata = 0x10#7 ∧ s.phase = .din ∧
          s.xferIn = false ∧ s.xferPioIn = false) ∧
      ((regWr i 0x0#4 || regWr i 0x1#4) = true →
        s.xferIn = false) ∧
      (i.ioAck = true → s.ioRd = true ∨ s.ioAckD = true) ∧
      (i.sdBuffWr = true → i.ioAck = true))
    ⟨fun ⟨h₁, h₂, h₃, h₄, h₅, h₆, h₇⟩ =>
        ⟨h₁, h₂, h₃, h₄, h₅, h₆, h₇⟩,
      fun ⟨h₁, h₂, h₃, h₄, h₅, h₆, h₇⟩ =>
        ⟨h₁, h₂, h₃, h₄, h₅, h₆, h₇⟩⟩

/-
  What holds in each state: the target has offered the first
  bytes of its response, no more of them than were asked for,
  behind the bytes `first` that were in the FIFO; DATA IN
  shows as long as bytes are left, so also while fewer bytes
  were asked for than there are; and once all are offered
  and no transfer information is open, STATUS shows.
-/
structure ResponseKept
    (response first : List Byte)
    (x : Chip × OfferLog) : Prop where
  offered : x.2.offered =
    response.take x.2.offered.length
  order : x.2.taken ++ queue x.1 = first ++ x.2.offered
  within : x.2.offered.length ≤ x.2.asked
  short : x.2.asked < response.length → x.1.phase = .din
  more : x.2.offered.length < response.length →
    x.1.phase = .din
  whole : x.2.offered.length = response.length →
    infoOpen x.1 = false → x.1.phase = .stat

/-
  What holds at each edge: a transfer information ends with
  an interrupt and I_BUS; and once all bytes are offered, it
  is over and STATUS shows after the first edge that finds
  fewer than two bytes in the FIFO.
-/
structure ResponseEnds
    (cfg : Config)
    (response : List Byte)
    (x : Chip × OfferLog)
    (i : In) : Prop where
  raised : infoOpen x.1 = true →
    infoOpen (step cfg x.1 i) = false →
    (step cfg x.1 i).irq = true ∧
      (step cfg x.1 i).istatus.getLsbD 4 = true
  ended : x.2.offered.length = response.length →
    x.1.fifoCnt < 2 →
    infoOpen (step cfg x.1 i) = false ∧
      (step cfg x.1 i).phase = .stat

end Ncr53c96

------------------------------------------------------------
-- The Response Invariant
------------------------------------------------------------

namespace Ncr53c96

/- No block is transferred, and none is due. -/
structure NoBlocks (s : Chip) : Prop where
  left : s.blocksLeft = 0
  noRd : s.ioRd = false
  noWr : s.ioWr = false
  noAckD : s.ioAckD = false

/-
  The response of `len` bytes `b` is being built, or stands
  in the buffer with the bytes offered behind `sbufPos`.
-/
structure BuildInv
    (b : Nat → Byte)
    (len : Nat)
    (x : Chip × OfferLog) : Prop where
  sbufLen : x.1.sbufLen = len
  building : x.1.synthLen ≠ 0 →
    x.1.synthLen = len ∧ x.1.synthIdx < len ∧
      x.1.bufValid = false ∧ x.1.sbufPos = 0 ∧
      x.2.offered = [] ∧
      (∀ j < x.1.synthIdx, bufByte x.1.mem j = b j) ∧
      ∀ j < len, synthByte x.1 x.1.synthKind j = b j
  built : x.1.synthLen = 0 →
    x.1.bufValid = true ∧
      x.1.sbufPos = x.2.offered.length ∧
      (∀ j < len, bufByte x.1.mem j = b j) ∧
      (x.1.eqWr = false → x.1.qE = x.1.mem x.1.eqAddr)

/-
  What the open transfer information is still to move: with
  it `goal` bytes are offered, and no more than asked for.
-/
structure OfferInv
    (len goal : Nat)
    (x : Chip × OfferLog) : Prop where
  bound : goal ≤ x.2.offered.length + owed x.1 ∧
    x.2.offered.length + owed x.1 ≤ x.2.asked
  dma : x.1.xferIn = true →
    x.1.xferPioIn = false ∧ x.1.chunkIrqArmed = true ∧
      x.1.dmaActive = true
  counting : x.1.xferIn = true → x.1.tcZero = false →
    0 < x.1.tcounter ∧ x.1.tcounter ≤ 65536
  pio : x.1.xferPioIn = true →
    x.1.fifoCnt = 0 ∧ x.2.offered.length < len
  phase : x.1.phase =
    if x.2.offered.length = len ∧ x.1.xferIn = false then
      .stat
    else .din

structure ResponseInv
    (b : Nat → Byte)
    (len goal : Nat)
    (first : List Byte)
    (x : Chip × OfferLog) : Prop where
  some : 0 < len
  goalLe : goal ≤ len
  short : len ≤ 36
  quiet : InQuiet x.1
  noBlocks : NoBlocks x.1
  build : BuildInv b len x
  offer : OfferInv len goal x
  offered : x.2.offered =
    (List.range x.2.offered.length).map b
  within : x.2.offered.length ≤ len
  stream : x.2.taken ++ queue x.1 = first ++ x.2.offered

variable {b : Nat → Byte} {len goal : Nat}
variable {first : List Byte}

/- The invariant is all that is asked for of a state. -/
theorem responseKept_of_inv
    {x : Chip × OfferLog}
    (hInv : ResponseInv b len goal first x) :
    ResponseKept ((List.range len).map b) first x := by
  have hBound := hInv.offer.bound
  have hMore : x.2.offered.length < len →
      x.1.phase = .din := by
    intro hLess
    rw [hInv.offer.phase, if_neg (by omega)]
  exact {
    offered := by
      rw [← List.map_take, List.take_range,
        Nat.min_eq_left hInv.within]
      exact hInv.offered
    order := hInv.stream
    within := by omega
    short := by
      intro hShort
      rw [List.length_map, List.length_range] at hShort
      exact hMore (by omega)
    more := by
      intro hLess
      rw [List.length_map, List.length_range] at hLess
      exact hMore hLess
    whole := by
      intro hAll hClosed
      rw [List.length_map, List.length_range] at hAll
      have hIn : x.1.xferIn = false := by
        rw [infoOpen, Bool.or_eq_false_iff] at hClosed
        exact hClosed.1
      rw [hInv.offer.phase, if_pos ⟨hAll, hIn⟩] }

end Ncr53c96

------------------------------------------------------------
-- The Handshake at Rest
------------------------------------------------------------

namespace Ncr53c96

variable {cfg : Config} {b : Nat → Byte} {len goal : Nat}
variable {first : List Byte}
variable {s : Chip} {g : OfferLog} {i : In}

theorem inHost_of_response (hOk : ResponseOk s i) :
    InHost s i where
  clocked := hOk.clocked
  noDmaWrite := hOk.noDmaWrite
  noFifoWrite := hOk.noFifoWrite
  command := hOk.command

/- With nothing strobed the platform keeps still. -/
theorem platform_still
    (hNone : NoBlocks s)
    (hOk : ResponseOk s i) :
    i.ioAck = false ∧ i.sdBuffWr = false := by
  have hAck : i.ioAck = false := by
    by_contra hAck
    rcases hOk.ack (by simpa using hAck) with h | h
    · simp [hNone.noRd] at h
    · simp [hNone.noAckD] at h
  refine ⟨hAck, ?_⟩
  by_contra hWr
  have hBusy := hOk.serves (by simpa using hWr)
  simp [hAck] at hBusy

theorem noBlocks_idle
    (hNone : NoBlocks s)
    (hOk : ResponseOk s i) :
    ioBusy s i = false ∧ prefetchDue s i = false ∧
      publish s i = false := by
  have hAck := (platform_still hNone hOk).1
  simp [ioBusy, prefetchDue, publish, ackFall, hNone.left,
    hNone.noRd, hNone.noWr, hNone.noAckD, hAck]

theorem noBlocks_clock
    (hQuiet : InQuiet s)
    (hNone : NoBlocks s)
    (hOk : ResponseOk s i) :
    NoBlocks (clock cfg s i) := by
  have hNoFlush := (@din_noOtherEnd s i hQuiet).1
  have hNotDue := (noBlocks_idle hNone hOk).2.1
  have hAck := (platform_still hNone hOk).1
  exact {
    left := by
      simp [clock_blocksLeft, hNoFlush, hNotDue,
        hQuiet.noExec, hNone.left]
    noRd := by simp [clock_ioRd, hNotDue, hNone.noRd]
    noWr := by simp [clock_ioWr, hNoFlush, hNone.noWr]
    noAckD := by simp [clock_ioAckD, hAck] }

end Ncr53c96

------------------------------------------------------------
-- Building the Response
------------------------------------------------------------

namespace Ncr53c96

variable {cfg : Config} {b : Nat → Byte} {len goal : Nat}
variable {first : List Byte}
variable {s : Chip} {g : OfferLog} {i : In}

/- A byte that moves is the next one of the response. -/
theorem offer_guard
    (hInv : ResponseInv b len goal first (s, g))
    (hIn : byteIn s i = true) :
    s.synthLen = 0 ∧ g.offered.length < len ∧
      sbufByte s = b g.offered.length := by
  rcases byteIn_avail hIn with ⟨hAvail, hRead⟩
  rcases byteAvail_iff.mp hAvail with ⟨hValid, hLt⟩
  have hBuilt : s.synthLen = 0 := by
    by_contra hBuilding
    have hNot : s.bufValid = false :=
      (hInv.build.building hBuilding).2.2.1
    simp [hNot] at hValid
  rcases hInv.build.built hBuilt with
    ⟨-, hPos, hBytes, hShown⟩
  have hPos' : s.sbufPos = g.offered.length := hPos
  have hLen : s.sbufLen = len := hInv.build.sbufLen
  have hNoWr : s.eqWr = false := by
    simp only [sbufRdOk, Bool.and_eq_true,
      Bool.not_eq_true'] at hRead
    exact hRead.2
  rw [hLen, hPos'] at hLt
  refine ⟨hBuilt, hLt, ?_⟩
  rw [sbufByte_eq (hShown hNoWr) hRead, hPos']
  exact hBytes _ hLt

/- How the response and the buffer move on. -/
theorem build_moves
    (hInv : ResponseInv b len goal first (s, g))
    (hOk : ResponseOk s i) :
    ((clock cfg s i).synthLen =
        if synthLast s then 0 else s.synthLen) ∧
      ((clock cfg s i).synthIdx =
        if synthOn s then (s.synthIdx + 1) % 64
        else s.synthIdx) ∧
      ((clock cfg s i).bufValid =
        if synthLast s then true else s.bufValid) ∧
      ((clock cfg s i).sbufPos =
        s.sbufPos + if byteIn s i then 1 else 0) ∧
      ((clock cfg s i).mem =
        if synthOn s then
          Function.update s.mem
            (BitVec.ofNat 8 (s.synthIdx / 2))
            (setByte (s.mem (BitVec.ofNat 8 (s.synthIdx / 2)))
              (s.synthIdx % 2 == 1)
              (synthByte s s.synthKind s.synthIdx))
        else s.mem) := by
  have hQuiet := hInv.quiet
  have hNoExec : s.execPending = false := hQuiet.noExec
  have hHost := inHost_of_response hOk
  rcases noBlocks_idle hInv.noBlocks hOk with
    ⟨-, hNotDue, hNoPublish⟩
  have hNoWr := (platform_still hInv.noBlocks hOk).2
  refine ⟨?_, ?_, ?_, ?_, ?_⟩
  · simp [clock_synthLen, hNoExec]
  · simp [clock_synthIdx, hNoExec]
  · simp [clock_bufValid, hNoExec, hNotDue, hNoPublish]
  · rw [din_sbufPos hQuiet hHost, hNoPublish]
    cases hIn : byteIn s i with
    | true =>
        rcases offer_guard hInv hIn with ⟨hBuilt, hLt, -⟩
        have hPos : s.sbufPos = g.offered.length :=
          (hInv.build.built hBuilt).2.1
        have hShort := hInv.short
        simp only [if_true]
        omega
    | false => simp
  · have hNoDrain := din_noDrain hQuiet hHost
    simp only [clock_mem, hNoWr, Bool.false_eq_true, if_false,
      engineMem, weE, hNoDrain, Bool.or_false]
    cases hOn : synthOn s with
    | true => simp [addrE, woddE, wbyteE, hOn]
    | false => simp

/- What is built with stays: its kind and the sense key. -/
theorem clock_synthByte
    (hQuiet : InQuiet s)
    (j : Nat) :
    synthByte (clock cfg s i) (clock cfg s i).synthKind j =
      synthByte s s.synthKind j := by
  have hKind : (clock cfg s i).synthKind = s.synthKind := by
    simp [clock_synthKind, hQuiet.noExec]
  have hSense : (clock cfg s i).senseR = s.senseR := by
    simp [clock_senseR, hQuiet.noExec]
  have hCap : (clock cfg s i).capR = s.capR := by
    simp [clock_capR, hQuiet.noExec]
  rw [hKind]
  unfold synthByte
  rw [hSense, hCap]

/- Every edge goes on with the response, or leaves it. -/
theorem buildInv_step
    (hInv : ResponseInv b len goal first (s, g))
    (hOk : ResponseOk s i) :
    BuildInv b len (clock cfg s i, noteOffer cfg g s i) := by
  have hNoExec : s.execPending = false := hInv.quiet.noExec
  have hShort := hInv.short
  have hNoPublish := (noBlocks_idle hInv.noBlocks hOk).2.2
  rcases @build_moves cfg b len goal first s g i hInv hOk with
    ⟨hLen', hIdx', hValid', hPos', hMem'⟩
  have hNoIn : s.synthLen ≠ 0 → byteIn s i = false := by
    intro hOn
    by_contra hIn
    exact hOn (offer_guard hInv (by simpa using hIn)).1
  -- the byte written in this cycle is one more that is right
  have hWritten : s.synthLen ≠ 0 →
      ∀ j ≤ s.synthIdx, bufByte (clock cfg s i).mem j = b j := by
    intro hOn j hj
    rcases hInv.build.building hOn with
      ⟨-, hIdx, -, -, -, hBytes, hKind⟩
    have hIdx'' : s.synthIdx < len := hIdx
    have hBytes' : ∀ j < s.synthIdx, bufByte s.mem j = b j :=
      hBytes
    rw [hMem', if_pos (synthOn_iff.mpr hOn),
      bufByte_update _ _ (by omega) (by omega)]
    by_cases hHere : j = s.synthIdx
    · rw [if_pos hHere, hHere]
      exact hKind _ hIdx
    · rw [if_neg hHere]
      exact hBytes' j (by omega)
  exact {
    sbufLen := by
      show (clock cfg s i).sbufLen = len
      rw [← hInv.build.sbufLen]
      simp [clock_sbufLen, hNoExec, hNoPublish]
    building := by
      intro hOn'
      rw [hLen'] at hOn'
      have hNotLast : synthLast s = false := by
        by_contra hLast
        simp [hLast] at hOn'
      simp only [hNotLast, Bool.false_eq_true, if_false]
        at hOn' hLen' hValid'
      rcases hInv.build.building hOn' with
        ⟨hAll, hIdx, hNotValid, hPos, hNone, -, hKind⟩
      have hAll' : s.synthLen = len := hAll
      have hIdx'' : s.synthIdx < len := hIdx
      have hNotEnd : s.synthIdx ≠ len - 1 := by
        intro hEnd
        have hLast : synthLast s = true :=
          synthLast_iff.mpr ⟨hOn', by rw [hAll', hEnd]⟩
        simp [hNotLast] at hLast
      have hNextIdx : (clock cfg s i).synthIdx =
          s.synthIdx + 1 := by
        rw [hIdx', if_pos (synthOn_iff.mpr hOn')]
        omega
      refine ⟨hLen'.trans hAll, ?_, hValid'.trans hNotValid,
        ?_, ?_, ?_, ?_⟩
      · show (clock cfg s i).synthIdx < len
        omega
      · simpa [hNoIn hOn'] using hPos'.trans
          (congrArg (· + _) hPos)
      · simpa [noteOffer, hNoIn hOn'] using hNone
      · intro j hj
        rw [hNextIdx] at hj
        exact hWritten hOn' j (by omega)
      · intro j hj
        rw [clock_synthByte hInv.quiet]
        exact hKind j hj
    built := by
      intro hOff'
      rw [hLen'] at hOff'
      cases hLast : synthLast s with
      | true =>
          -- the last byte is written and publishes the rest
          rcases synthLast_iff.mp hLast with ⟨hOn, hEnd⟩
          rcases hInv.build.building hOn with
            ⟨hAll, -, -, hPos, hNone, -, -⟩
          have hAll' : s.synthLen = len := hAll
          have hPos'' : s.sbufPos = 0 := hPos
          have hNone' : g.offered = [] := hNone
          refine ⟨by simp [hValid', hLast], ?_, ?_, ?_⟩
          · simp [noteOffer, hPos', hNoIn hOn, hPos'', hNone']
          · intro j hj
            exact hWritten hOn j (by omega)
          · intro hNoWr
            simp [clock_eqWr, weE, synthOn_iff.mpr hOn]
              at hNoWr
      | false =>
          simp only [hLast, Bool.false_eq_true, if_false]
            at hOff' hValid'
          have hOff : synthOn s = false := by
            simp [synthOn, hOff']
          rcases hInv.build.built hOff' with
            ⟨hValid, hPos, hBytes, -⟩
          have hMem : (clock cfg s i).mem = s.mem := by
            simpa [hOff] using hMem'
          have hPos'' : s.sbufPos = g.offered.length := hPos
          refine ⟨hValid'.trans hValid, ?_, ?_, ?_⟩
          · rw [hPos', hPos'']
            cases hIn : byteIn s i <;> simp [noteOffer, hIn]
          · rw [hMem]
            exact hBytes
          · intro _
            rw [clock_qE, clock_eqAddr, hMem] }

end Ncr53c96
