import Wombat33.Ncr53c96.Provenance

/-
  In DATA IN the initiator gets the answer to its own CDB.

  The invariant follows a load from its strobe to the words
  written, the published sector and the FIFO, and a response
  from its first byte; every byte on the way is tagged with
  the CDB executed last.

  Key definitions include:
    * `LoadInv`

  Key theorems include:
    * `ownAnswer_of_inv`
    * `loadInv_step`
    * `own_answer`
-/

------------------------------------------------------------
-- The Load Invariant
------------------------------------------------------------

namespace Ncr53c96

open Clocked

/- The tags carry the bytes that are there. -/
structure TagInv (x : Chip × LoadLog) : Prop where
  fifoCnt : x.1.fifoCnt ≤ 16
  synthIdx : x.1.synthIdx < 64
  bytes : ∀ j < 512, (x.2.tags j).byte = bufByte x.1.mem j
  queue : x.2.fifo.map Tag.byte = queue x.1

/- The handshake, and the load in flight. -/
structure ShakeInv (x : Chip × LoadLog) : Prop where
  flush : x.1.ioWr = true → x.1.flushPending = true
  strobed : x.1.ioRd = true → x.2.loading = true
  served : x.1.ioAckD = true → x.1.flushPending = false →
    x.2.loading = true
  inFlight : x.2.loading = true →
    x.1.ioRd = true ∨ x.1.ioAckD = true
  onceWr : x.1.ioWr = true → x.1.ioAckD = false
  onceRd : x.1.ioRd = true → x.1.ioAckD = false

/- A load and a response belong to the CDB executed last. -/
structure OwnerInv (x : Chip × LoadLog) : Prop where
  load : x.2.loading = true →
    x.2.owner = x.2.cmd ∧ x.2.answer = some .disk ∧
      x.1.bufValid = false
  disk : x.2.answer = some .disk → x.1.synthLen = 0
  synth : x.2.answer = some .synth → x.2.stream = x.2.cmd
  write : x.2.writing = true → x.2.answer = none
  known : x.2.answer ≠ some .other
  current : x.1.bufValid = true →
    x.1.eqWr = true ∨ x.1.qE = x.1.mem x.1.eqAddr

/- In DATA IN: what is valid, loaded, streamed or in the FIFO. -/
structure DinInv (x : Chip × LoadLog) : Prop where
  answer : x.2.answer ≠ none
  last : x.2.answer = some .synth → x.1.blocksLeft = 0
  valid : x.1.bufValid = true → x.1.sbufLen ≤ 512 ∧
    ∀ j < x.1.sbufLen, ofCdb x.2 (x.2.tags j)
  loaded : x.2.loading = true → ∀ a : BitVec 8,
    x.2.written.getLsbD a.toNat = true →
    ofCdb x.2 (x.2.tags (2 * a.toNat)) ∧
      ofCdb x.2 (x.2.tags (2 * a.toNat + 1))
  streamed : x.1.synthLen ≠ 0 →
    x.1.sbufLen = x.1.synthLen ∧ x.1.synthLen ≤ 36 ∧
      x.1.synthIdx < x.1.synthLen ∧
      ∀ j < x.1.synthIdx, ofCdb x.2 (x.2.tags j)
  fifo : ∀ t ∈ x.2.fifo, ofCdb x.2 t

structure LoadInv (x : Chip × LoadLog) : Prop where
  tag : TagInv x
  shake : ShakeInv x
  owner : OwnerInv x
  din : x.1.phase = .din → DinInv x

end Ncr53c96

------------------------------------------------------------
-- Tags and Bytes
------------------------------------------------------------

namespace Ncr53c96

open Clocked Lanes

variable (cfg : Config) {s : Chip} {g : LoadLog} {i : In}

/- A word written at `a` changes its two bytes. -/
theorem bufByte_updateWord
    (m : BitVec 8 → BitVec 16)
    (a : BitVec 8)
    (w : BitVec 16)
    {j : Nat}
    (hj : j < 512) :
    bufByte (Function.update m a w) j =
      if j / 2 = a.toNat then bufByte (fun _ => w) j
      else bufByte m j := by
  by_cases hWord : j / 2 = a.toNat
  · simp [bufByte, hWord]
  · have hOther : BitVec.ofNat 8 (j / 2) ≠ a := by
      intro hEq
      apply hWord
      rw [← hEq, BitVec.toNat_ofNat]
      omega
    simp [bufByte, Function.update_of_ne hOther, hWord]

/- The byte the FIFO's head carries. -/
theorem head_byte
    (hQueue : g.fifo.map Tag.byte = queue s)
    (hLive : s.fifoCnt ≠ 0) :
    ∃ t, g.fifo.head? = some t ∧ t ∈ g.fifo ∧
      t.byte = s.fifo 0 := by
  rcases Nat.exists_eq_succ_of_ne_zero hLive with ⟨m, hm⟩
  have hHead : queue s = s.fifo 0 ::
      contents (fun k => s.fifo (k + 1)) m := by
    rw [queue, hm, contents_succ_head]
  cases hFifo : g.fifo with
  | nil =>
      rw [hFifo, hHead] at hQueue
      simp at hQueue
  | cons t rest =>
      rw [hFifo, hHead] at hQueue
      refine ⟨t, rfl, List.mem_cons_self, ?_⟩
      exact (List.cons.inj hQueue).1

/- The engine port writes the byte its tag carries. -/
theorem engineTags_byte
    (hInv : TagInv (s, g))
    {j : Nat}
    (hj : j < 512) :
    (engineTags g s i j).byte = bufByte (engineMem s i) j := by
  have hBytes : ∀ j < 512,
      (g.tags j).byte = bufByte s.mem j := hInv.bytes
  have hIdx : s.synthIdx < 64 := hInv.synthIdx
  unfold engineTags engineMem
  cases hSynth : synthOn s with
  | true =>
      simp only [weE, addrE, wbyteE, woddE, hSynth,
        Bool.true_or, if_true]
      rw [bufByte_update s.mem _ (by omega) hj]
      by_cases hHere : j = s.synthIdx
      · simp [hHere]
      · simp [hHere, hBytes j hj]
  | false =>
      cases hDrain : armDrain s i with
      | false => simp [weE, hSynth, hDrain, hBytes j hj]
      | true =>
          have hArm : arm s i = .drain := by
            simpa [armDrain_eq] using hDrain
          have hGuard := guard_drain s i hArm
          rcases head_byte hInv.queue hGuard.2.1 with
            ⟨t, hHead, -, hByte⟩
          simp only [weE, addrE, wbyteE, woddE, posWord, hSynth,
            hDrain, Bool.or_true, Bool.false_eq_true, if_false,
            if_true]
          rw [bufByte_update s.mem _ hGuard.2.2.2 hj]
          by_cases hHere : j = s.sbufPos
          · simp [hHere, List.headD_eq_head?_getD, hHead, hByte]
          · simp [hHere, hBytes j hj]

theorem tagInv_step
    (hInv : TagInv (s, g)) :
    TagInv (clock cfg s i, noteLoad cfg g s i) where
  fifoCnt := clock_fifoCnt_le cfg hInv.fifoCnt
  synthIdx := by
    have hIdx : s.synthIdx < 64 := hInv.synthIdx
    simp only [clock_synthIdx]
    split_ifs <;> omega
  bytes := by
    intro j hj
    have hEngine := @engineTags_byte s g i hInv j hj
    simp only [noteLoad, platformTags, clock_mem]
    cases hWr : i.sdBuffWr with
    | false => simpa using hEngine
    | true =>
        rw [if_pos rfl, if_pos rfl,
          bufByte_updateWord _ _ _ hj]
        split
        · rfl
        · exact hEngine
  queue := by
    have hCarry : ∀ b, (pushTag g s i b).byte = b := by
      intro b
      unfold pushTag
      split <;> rfl
    simp only [noteLoad]
    rw [QueueAct.map_apply hCarry, hInv.queue,
      clock_queue cfg hInv.fifoCnt]

end Ncr53c96

------------------------------------------------------------
-- The Handshake
------------------------------------------------------------

namespace Ncr53c96

variable (cfg : Config) {s : Chip} {g : LoadLog} {i : In}

/- A strobe is only raised while the platform is at rest. -/
theorem noAck_of_idle (hBusy : ioBusy s i = false) :
    i.ioAck = false ∧ s.ioAckD = false := by
  simp only [ioBusy, Bool.or_eq_false_iff] at hBusy
  exact ⟨hBusy.1.2, hBusy.2⟩

/- An acknowledge that lasts releases nothing. -/
theorem ackFall_of_ack (hAck : i.ioAck = true) :
    ackFall s i = false := by
  simp [ackFall, hAck]

theorem shakeInv_step
    (hInv : ShakeInv (s, g))
    (hOk : PlatformOk (s, g) i) :
    ShakeInv (clock cfg s i, noteLoad cfg g s i) := by
  have hFlush : s.ioWr = true → s.flushPending = true :=
    hInv.flush
  have hStrobed : s.ioRd = true → g.loading = true :=
    hInv.strobed
  have hServed : s.ioAckD = true → s.flushPending = false →
      g.loading = true := hInv.served
  have hInFlight : g.loading = true →
      s.ioRd = true ∨ s.ioAckD = true := hInv.inFlight
  have hOnceWr : s.ioWr = true → s.ioAckD = false :=
    hInv.onceWr
  have hOnceRd : s.ioRd = true → s.ioAckD = false :=
    hInv.onceRd
  have hAck : i.ioAck = true →
      s.ioRd = true ∨ s.ioWr = true ∨ s.ioAckD = true :=
    hOk.ack
  have hDueFlush : flushDue s i = true →
      i.ioAck = false ∧ s.ioAckD = false :=
    fun h => noAck_of_idle (flushDue_iff.mp h).2.2.2
  have hDueLoad : prefetchDue s i = true →
      i.ioAck = false ∧ s.ioAckD = false :=
    fun h => noAck_of_idle (prefetchDue_iff.mp h).2.2.2.1
  constructor <;>
    simp only [noteLoad, clock_ioWr, clock_ioRd, clock_ioAckD,
      clock_flushPending, ackFall] <;>
    grind

end Ncr53c96

------------------------------------------------------------
-- Owners
------------------------------------------------------------

namespace Ncr53c96

variable (cfg : Config) {s : Chip} {g : LoadLog} {i : In}

/- A block load is strobed only for a READ. -/
theorem disk_of_prefetch
    (hInv : LoadInv (s, g))
    (hDue : prefetchDue s i = true) :
    g.answer = some .disk := by
  rcases prefetchDue_iff.mp hDue with ⟨hPhase, -, hLeft, -⟩
  have hDin := hInv.din hPhase
  cases hAnswer : g.answer with
  | none => exact absurd hAnswer hDin.answer
  | some o =>
      cases o with
      | disk => rfl
      | synth => exact absurd (hDin.last hAnswer) hLeft
      | other => exact absurd hAnswer hInv.owner.known

/- The load that is in flight after an edge without a CDB. -/
theorem load_idle
    (hInv : LoadInv (s, g))
    (hIdle : s.execPending = false)
    (hLoading : (noteLoad cfg g s i).loading = true) :
    (noteLoad cfg g s i).owner = g.cmd ∧
      g.answer = some .disk ∧
      (clock cfg s i).bufValid = false := by
  simp only [noteLoad, Bool.or_eq_true, Bool.and_eq_true,
    Bool.not_eq_true'] at hLoading ⊢
  have hNoLast : g.answer = some .disk →
      synthLast s = false := by
    intro hDisk
    have hLen : s.synthLen = 0 := hInv.owner.disk hDisk
    simp [synthLast, synthOn, hLen]
  cases hDue : prefetchDue s i with
  | true =>
      have hDisk := disk_of_prefetch hInv hDue
      simp [clock_bufValid, hIdle, hNoLast hDisk, hDue, hDisk]
  | false =>
      rw [hDue] at hLoading
      have hOld : g.loading = true ∧ ackFall s i = false := by
        simpa using hLoading
      rcases hInv.owner.load hOld.1 with
        ⟨hOwner, hDisk, hInvalid⟩
      have hNoPublish : publish s i = false := by
        simp [publish, hOld.2]
      simp only [Bool.false_eq_true, if_false]
      refine ⟨hOwner, hDisk, ?_⟩
      simp [clock_bufValid, hIdle, hNoLast hDisk, hNoPublish,
        show s.bufValid = false from hInvalid]

/- An executed CDB finds no load in flight afterwards. -/
theorem load_exec
    (hSep : Separate (s, g) i)
    (hExec : s.execPending = true) :
    (noteLoad cfg g s i).loading = false := by
  rcases hSep.load hExec with ⟨hNotDue, hFall⟩
  have hNotDue' : prefetchDue s i = false := hNotDue
  cases hLoading : g.loading with
  | false => simp [noteLoad, hNotDue', hLoading]
  | true =>
      have hFall' : ackFall s i = true := hFall hLoading
      simp [noteLoad, hNotDue', hFall']

/- The registered read shows what is in the buffer. -/
theorem current_clock
    (hInv : LoadInv (s, g))
    (hOk : PlatformOk (s, g) i)
    (hValid : (clock cfg s i).bufValid = true) :
    (clock cfg s i).eqWr = true ∨
      (clock cfg s i).qE =
        (clock cfg s i).mem (clock cfg s i).eqAddr := by
  rw [clock_eqWr, clock_qE, clock_eqAddr, clock_mem]
  cases hWrite : weE s i with
  | true => exact .inl rfl
  | false =>
      right
      cases hWr : i.sdBuffWr with
      | false => simp [engineMem, hWrite]
      | true =>
          -- while a load is served the buffer is not valid
          exfalso
          rcases hOk.serves hWr with ⟨hLoading, hAck⟩
          rcases hInv.owner.load hLoading with
            ⟨-, hDisk, hInvalid⟩
          have hLen : s.synthLen = 0 := hInv.owner.disk hDisk
          have hNoLast : synthLast s = false := by
            simp [synthLast, synthOn, hLen]
          have hNoPublish : publish s i = false := by
            simp [publish, ackFall_of_ack hAck]
          simp [clock_bufValid, hNoLast, hNoPublish,
            show s.bufValid = false from hInvalid] at hValid

/- A response executed streams for its own CDB. -/
theorem execRead_of_execSynth (hExec : execSynth s = true) :
    execRead s = false ∧ execWrite s = false := by
  simp only [execSynth, Bool.and_eq_true, Bool.or_eq_true,
    beq_iff_eq] at hExec
  rcases hExec with ⟨hPending, ((hOp | hOp) | hOp) | hOp⟩ <;>
    simp [execRead, execWrite, hPending, hOp]

theorem ownerInv_step
    (hInv : LoadInv (s, g))
    (hOk : PlatformOk (s, g) i)
    (hSep : Separate (s, g) i) :
    OwnerInv (clock cfg s i, noteLoad cfg g s i) := by
  have hCurrent := @current_clock cfg s g i hInv hOk
  cases hExec : s.execPending with
  | true =>
      have hAnswer : (noteLoad cfg g s i).answer =
          answerOf s := by
        simp [noteLoad, hExec]
      have hNoLoad := load_exec cfg hSep hExec
      constructor
      · simp [hNoLoad]
      · intro hDisk
        rw [hAnswer] at hDisk
        have hRead : execRead s = true := by
          by_contra hRead
          simp only [answerOf, hRead, if_false] at hDisk
          split at hDisk <;> simp at hDisk
        have hNoSynth : execSynth s = false := by
          by_contra hSynth
          have hNot := (execRead_of_execSynth
            (by simpa using hSynth)).1
          simp [hRead] at hNot
        show (clock cfg s i).synthLen = 0
        rw [(clock_synth_of_other cfg (i := i) hNoSynth).1]
        by_cases hOn : synthOn s = true
        · simp [hSep.response hRead hOn]
        · have hLen : s.synthLen = 0 := by
            simpa [synthOn] using hOn
          simp [hLen]
      · intro hSynth
        rw [hAnswer] at hSynth
        have hIs : execSynth s = true := by
          by_contra hNot
          simp only [answerOf, hNot, if_false] at hSynth
          split at hSynth <;> simp at hSynth
        simp [noteLoad, hExec, hIs]
      · intro hWriting
        simp only [noteLoad, hExec, if_true] at hWriting ⊢
        have hRead : execRead s = false := by
          simp only [execWrite, execRead, hExec] at hWriting ⊢
          grind
        have hSynth : execSynth s = false := by
          by_contra hSynth
          have hNot := (execRead_of_execSynth
            (by simpa using hSynth)).2
          simp [hWriting] at hNot
        simp [answerOf, hRead, hSynth]
      · rw [hAnswer]
        unfold answerOf
        split_ifs <;> simp
      · exact hCurrent
  | false =>
      have hAnswer : (noteLoad cfg g s i).answer =
          g.answer := by
        simp [noteLoad, hExec]
      have hNoSynth : execSynth s = false := by
        simp [execSynth, hExec]
      constructor
      · intro hLoading
        have hCmd : (noteLoad cfg g s i).cmd = g.cmd := by
          simp [noteLoad, hExec]
        rw [hAnswer, hCmd]
        exact load_idle cfg hInv hExec hLoading
      · intro hDisk
        rw [hAnswer] at hDisk
        have hLen : s.synthLen = 0 := hInv.owner.disk hDisk
        show (clock cfg s i).synthLen = 0
        rw [(clock_synth_of_other cfg (i := i) hNoSynth).1, hLen]
        simp
      · intro hSynth
        rw [hAnswer] at hSynth
        have hStream : g.stream = g.cmd :=
          hInv.owner.synth hSynth
        simp [noteLoad, hExec, hNoSynth, hStream]
      · intro hWriting
        rw [hAnswer]
        exact hInv.owner.write
          (by simpa [noteLoad, hExec] using hWriting)
      · rw [hAnswer]
        exact hInv.owner.known
      · exact hCurrent

end Ncr53c96

------------------------------------------------------------
-- Into DATA IN
------------------------------------------------------------

namespace Ncr53c96

open Clocked

variable (cfg : Config) {s : Chip} {g : LoadLog} {i : In}

theorem of_ite_ne
    {c : Prop} [Decidable c] {p q r : Phase}
    (hNe : p ≠ r)
    (h : (if c then p else q) = r) :
    ¬ c ∧ q = r := by
  by_cases hc : c
  · rw [if_pos hc] at h
    exact absurd h hNe
  · rw [if_neg hc] at h
    exact ⟨hc, h⟩

/- DATA IN begins with a CDB that answers with data. -/
theorem din_next (hDin : (clock cfg s i).phase = .din) :
    (cmdIs i 0x11#7 = false ∧
      (cmdIs i 0x10#7 && s.phase == .stat) = false) ∧
    ((s.execPending = true ∧
        (execRead s || execSynth s) = true) ∨
      (s.execPending = false ∧ s.phase = .din)) := by
  rw [clock_phase] at hDin
  -- the commands and the ends of transfers lead elsewhere
  rcases of_ite_ne (by decide) hDin with ⟨-, hDin⟩
  rcases of_ite_ne (by decide) hDin with ⟨-, hDin⟩
  rcases of_ite_ne (by decide) hDin with ⟨hDone, hDin⟩
  rcases of_ite_ne (by decide) hDin with ⟨hStat, hDin⟩
  rcases of_ite_ne (by decide) hDin with ⟨-, hDin⟩
  rcases of_ite_ne (by decide) hDin with ⟨-, hDin⟩
  rcases of_ite_ne (by decide) hDin with ⟨-, hDin⟩
  rcases of_ite_ne (by decide) hDin with ⟨-, hDin⟩
  rcases of_ite_ne (by decide) hDin with ⟨-, hDin⟩
  rcases of_ite_ne (by decide) hDin with ⟨-, hDin⟩
  rcases of_ite_ne (by decide) hDin with ⟨-, hDin⟩
  rcases of_ite_ne (by decide) hDin with ⟨-, hDin⟩
  rcases of_ite_ne (by decide) hDin with ⟨-, hDin⟩
  rcases of_ite_ne (by decide) hDin with ⟨-, hDin⟩
  refine ⟨⟨by simpa using hDone, by simpa using hStat⟩, ?_⟩
  cases hExec : s.execPending with
  | false =>
      right
      simp only [hExec, Bool.false_and, Bool.false_eq_true,
        if_false] at hDin
      exact ⟨rfl, (of_ite_ne (by decide) hDin).2⟩
  | true =>
      left
      simp only [hExec, Bool.true_and] at hDin
      refine ⟨rfl, ?_⟩
      by_contra hOther
      simp only [execRead, execSynth, hExec, Bool.true_and,
        Bool.or_eq_true, beq_iff_eq, not_or] at hOther
      rcases hOther with
        ⟨⟨h08, h28⟩, ⟨⟨h03, h12⟩, h1A⟩, h25⟩
      rcases of_ite_ne (by decide) hDin with ⟨hKnown, hDin⟩
      rcases of_ite_ne (by decide) hDin with ⟨h2A, hDin⟩
      rcases of_ite_ne (by decide) hDin with ⟨h0A, hDin⟩
      simp only [h08, h28, h03, h12, h1A, h25, beq_iff_eq,
        if_false] at hDin h2A h0A
      rcases of_ite_ne (by decide) hDin with ⟨h00, -⟩
      simp [knownCdb, h08, h28, h03, h12, h1A, h25, h2A, h0A,
        h00] at hKnown

/- The FIFO is empty when DATA IN begins. -/
theorem fifoCnt_of_exec
    (hEmpty : s.fifoCnt = 0)
    (hQuiet : pushes s i = false)
    (hDin : (clock cfg s i).phase = .din) :
    (clock cfg s i).fifoCnt = 0 := by
  rcases (din_next cfg hDin).1 with ⟨hDone, hStat⟩
  simp only [pushes, Bool.or_eq_false_iff] at hQuiet
  rcases hQuiet with ⟨⟨⟨⟨hFill, hPio⟩, hDma⟩, hReg⟩, hMin⟩
  have hCdb : armCdbFf s i = false := by
    simp [armCdbFf, hEmpty]
  have hDrain : armDrain s i = false := by
    simp [armDrain, hEmpty]
  have hMsg : armMsgOut s i = false := by
    simp [armMsgOut, hEmpty]
  have hPop : armPop s i = false := by
    simp [armPop, hEmpty]
  rw [clock_fifoCnt]
  simp [hEmpty, hDone, hStat, hMin, hReg, hMsg, hPio, hFill,
    hDrain, hCdb, hDma, hPop]

/- A response executed is as long as its buffer. -/
theorem clock_sbufLen_of_exec (hExec : execSynth s = true) :
    (clock cfg s i).sbufLen = (clock cfg s i).synthLen := by
  simp only [execSynth, Bool.and_eq_true, Bool.or_eq_true,
    beq_iff_eq] at hExec
  rcases hExec with ⟨hPending, ((hOp | hOp) | hOp) | hOp⟩ <;>
    simp [clock_sbufLen, clock_synthLen, hPending, hOp]

/- A response executed leaves no block to fetch. -/
theorem clock_blocksLeft_of_exec
    (hExec : execSynth s = true)
    (hFlush : flushDue s i = true → s.blocksLeft ≤ 1) :
    (clock cfg s i).blocksLeft = 0 := by
  have hNone : execRead s = false ∧ execWrite s = false :=
    execRead_of_execSynth hExec
  have hPending : s.execPending = true :=
    (Bool.and_eq_true_iff.mp hExec).1
  simp only [execRead, execWrite, hPending, Bool.true_and,
    Bool.or_eq_false_iff] at hNone
  rw [clock_blocksLeft]
  cases hDue : flushDue s i with
  | true =>
      have hLeft := hFlush hDue
      by_cases hZero : s.blocksLeft = 0
      · simp [hZero, hPending, hNone]
      · have hOne : s.blocksLeft = 1 := by omega
        simp [hOne]
  | false => simp [hPending, hNone]

/- At the edge that executes the CDB. -/
theorem dinInv_exec
    (hInv : LoadInv (s, g))
    (hSep : Separate (s, g) i)
    (hExec : s.execPending = true)
    (hData : (execRead s || execSynth s) = true)
    (hDin : (clock cfg s i).phase = .din) :
    DinInv (clock cfg s i, noteLoad cfg g s i) := by
  have hAnswer : (noteLoad cfg g s i).answer = answerOf s := by
    simp [noteLoad, hExec]
  have hInvalid : (clock cfg s i).bufValid = false := by
    simp [clock_bufValid, hExec]
  rcases hSep.drained hData with ⟨hEmpty, hQuiet⟩
  have hCount := fifoCnt_of_exec cfg hEmpty hQuiet hDin
  have hTags := tagInv_step cfg hInv.tag (i := i)
  constructor
  · rw [hAnswer, answerOf]
    cases hRead : execRead s with
    | true => simp
    | false =>
        have hSynth : execSynth s = true := by
          simpa [hRead] using hData
        simp [hSynth]
  · intro hSynth
    rw [hAnswer] at hSynth
    have hIs : execSynth s = true := by
      by_contra hNot
      simp only [answerOf, hNot, if_false] at hSynth
      split at hSynth <;> simp at hSynth
    exact clock_blocksLeft_of_exec cfg hIs (hSep.flush hIs)
  · simp [hInvalid]
  · simp [load_exec cfg hSep hExec]
  · intro hLen
    cases hSynth : execSynth s with
    | true =>
        rcases clock_synth_of_exec cfg (i := i) hSynth with
          ⟨hIdx, hPos, hShort, -⟩
        refine ⟨clock_sbufLen_of_exec cfg hSynth, hShort, ?_,
          ?_⟩
        · show (clock cfg s i).synthIdx <
            (clock cfg s i).synthLen
          rw [hIdx]
          exact hPos
        · intro j hj
          have hj' : j < (clock cfg s i).synthIdx := hj
          rw [hIdx] at hj'
          omega
    | false =>
        -- a READ finds no response going on
        exfalso
        have hRead : execRead s = true := by
          simpa [hSynth] using hData
        apply hLen
        show (clock cfg s i).synthLen = 0
        rw [(clock_synth_of_other cfg (i := i) hSynth).1]
        by_cases hOn : synthOn s = true
        · simp [hSep.response hRead hOn]
        · have hZero : s.synthLen = 0 := by
            simpa [synthOn] using hOn
          simp [hZero]
  · have hNone : (noteLoad cfg g s i).fifo = [] := by
      apply List.length_eq_zero_iff.mp
      have hLength := congrArg List.length hTags.queue
      simpa [hCount] using hLength
    simp [hNone]

end Ncr53c96

------------------------------------------------------------
-- Within DATA IN
------------------------------------------------------------

namespace Ncr53c96

open Clocked

variable (cfg : Config) {s : Chip} {g : LoadLog} {i : In}

/- Without a CDB the same tags belong to the answer. -/
theorem ofCdb_idle
    (hIdle : s.execPending = false) (t : Tag) :
    ofCdb (noteLoad cfg g s i) t ↔ ofCdb g t := by
  simp [ofCdb, noteLoad, hIdle]

/- A response that streams in DATA IN is the current one. -/
theorem synth_of_streaming
    (hInv : LoadInv (s, g))
    (hDin : s.phase = .din)
    (hLen : s.synthLen ≠ 0) :
    g.answer = some .synth ∧ g.stream = g.cmd := by
  have hSynth : g.answer = some .synth := by
    cases hAnswer : g.answer with
    | none => exact absurd hAnswer (hInv.din hDin).answer
    | some o =>
        cases o with
        | disk => exact absurd (hInv.owner.disk hAnswer) hLen
        | synth => rfl
        | other => exact absurd hAnswer hInv.owner.known
  exact ⟨hSynth, hInv.owner.synth hSynth⟩

/- In DATA IN only the answer is written into the buffer. -/
theorem tags_next
    (hInv : LoadInv (s, g))
    (hOk : PlatformOk (s, g) i)
    (hDin : s.phase = .din)
    (j : Nat) :
    (noteLoad cfg g s i).tags j = g.tags j ∨
      ofCdb g ((noteLoad cfg g s i).tags j) := by
  have hEngine : engineTags g s i j = g.tags j ∨
      ofCdb g (engineTags g s i j) := by
    unfold engineTags
    cases hOn : synthOn s with
    | true =>
        have hLen := synthOn_iff.mp hOn
        rcases synth_of_streaming hInv hDin hLen with
          ⟨hAnswer, hStream⟩
        by_cases hHere : j = s.synthIdx
        · right
          simp [hHere, ofCdb, hAnswer, hStream]
        · simp [hHere]
    | false =>
        cases hDrain : armDrain s i with
        | false => simp
        | true =>
            have hArm : arm s i = .drain := by
              simpa [armDrain_eq] using hDrain
            rcases head_byte hInv.tag.queue
                (guard_drain s i hArm).2.1 with
              ⟨t, hHead, hMem, -⟩
            by_cases hHere : j = s.sbufPos
            · right
              simpa [hHere, List.headD_eq_head?_getD, hHead]
                using (hInv.din hDin).fifo t hMem
            · simp [hHere]
  simp only [noteLoad, platformTags]
  cases hWr : i.sdBuffWr with
  | false => simpa using hEngine
  | true =>
      rcases hInv.owner.load (hOk.serves hWr).1 with
        ⟨hOwner, hDisk, -⟩
      by_cases hHere : j / 2 = i.sdBuffAddr.toNat
      · right
        simp [hHere, ofCdb, show g.owner = g.cmd from hOwner,
          show g.answer = some .disk from hDisk]
      · simpa [hHere] using hEngine

/- What belonged to the answer still does. -/
theorem ofCdb_next
    (hInv : LoadInv (s, g))
    (hOk : PlatformOk (s, g) i)
    (hDin : s.phase = .din)
    (hIdle : s.execPending = false)
    {j : Nat}
    (hOld : ofCdb g (g.tags j)) :
    ofCdb (noteLoad cfg g s i)
      ((noteLoad cfg g s i).tags j) := by
  rw [ofCdb_idle cfg hIdle]
  rcases tags_next cfg hInv hOk hDin j with hSame | hNew
  · rw [hSame]
    exact hOld
  · exact hNew

/- A published sector was loaded for the current READ. -/
theorem loading_of_publish
    (hInv : LoadInv (s, g))
    (hPublish : publish s i = true) :
    g.loading = true ∧ ackFall s i = true := by
  rcases publish_iff.mp hPublish with ⟨hAckD, hAck, hFree⟩
  exact ⟨hInv.shake.served hAckD hFree,
    ackFall_iff.mpr ⟨hAckD, hAck⟩⟩

/- The whole sector belongs to the READ once loaded. -/
theorem sector_ofCdb
    (hInv : LoadInv (s, g))
    (hOk : PlatformOk (s, g) i)
    (hDin : s.phase = .din)
    (hPublish : publish s i = true)
    {j : Nat}
    (hj : j < 512) :
    ofCdb g (g.tags j) := by
  rcases loading_of_publish hInv hPublish with
    ⟨hLoading, hFall⟩
  have hAll : g.written = BitVec.allOnes 256 :=
    hOk.whole hFall hLoading
  have hHalf : (BitVec.ofNat 8 (j / 2)).toNat = j / 2 := by
    rw [BitVec.toNat_ofNat]
    omega
  have hWord := (hInv.din hDin).loaded hLoading
    (BitVec.ofNat 8 (j / 2)) (by
      show g.written.getLsbD _ = true
      rw [hAll, BitVec.getLsbD_allOnes, hHalf]
      simp
      omega)
  rw [hHalf] at hWord
  rcases Nat.mod_two_eq_zero_or_one j with hEven | hOdd
  · have hj' : 2 * (j / 2) = j := by omega
    simpa [hj'] using hWord.1
  · have hj' : 2 * (j / 2) + 1 = j := by omega
    simpa [hj'] using hWord.2

/- A valid buffer holds the answer. -/
theorem valid_next
    (hInv : LoadInv (s, g))
    (hOk : PlatformOk (s, g) i)
    (hDin : s.phase = .din)
    (hIdle : s.execPending = false)
    (hValid : (clock cfg s i).bufValid = true) :
    (clock cfg s i).sbufLen ≤ 512 ∧
      ∀ j < (clock cfg s i).sbufLen,
        ofCdb (noteLoad cfg g s i)
          ((noteLoad cfg g s i).tags j) := by
  have hDinInv := hInv.din hDin
  rw [clock_sbufLen]
  simp only [hIdle, Bool.false_and, Bool.false_eq_true,
    if_false]
  cases hPublish : publish s i with
  | true =>
      refine ⟨Nat.le_refl 512, fun j hj => ?_⟩
      exact ofCdb_next cfg hInv hOk hDin hIdle
        (sector_ofCdb hInv hOk hDin hPublish hj)
  | false =>
      simp only [Bool.false_eq_true, if_false]
      cases hLast : synthLast s with
      | true =>
          rcases synthLast_iff.mp hLast with ⟨hLen, hEnd⟩
          rcases hDinInv.streamed hLen with
            ⟨hBuf, hShort, hIdx, hDone⟩
          have hBuf' : s.sbufLen = s.synthLen := hBuf
          have hShort' : s.synthLen ≤ 36 := hShort
          rcases synth_of_streaming hInv hDin hLen with
            ⟨hAnswer, hStream⟩
          refine ⟨by omega, fun j hj => ?_⟩
          by_cases hHere : j = s.synthIdx
          · -- the byte written in this very cycle
            rw [ofCdb_idle cfg hIdle]
            have hNoWr : i.sdBuffWr = false := by
              by_contra hWr
              have hDisk := (hInv.owner.load (hOk.serves
                (by simpa using hWr)).1).2.1
              rw [show g.answer = some .disk from hDisk]
                at hAnswer
              simp at hAnswer
            simp [noteLoad, platformTags, hNoWr, engineTags,
              synthOn_iff.mpr hLen, hHere, ofCdb, hAnswer,
              hStream]
          · exact ofCdb_next cfg hInv hOk hDin hIdle
              (hDone j (show j < s.synthIdx by omega))
      | false =>
          have hOld : s.bufValid = true := by
            rw [clock_bufValid] at hValid
            simp only [hIdle, hLast, hPublish,
              Bool.false_eq_true, if_false] at hValid
            split at hValid
            · simp at hValid
            · exact hValid
          rcases hDinInv.valid hOld with ⟨hLe, hGood⟩
          exact ⟨hLe, fun j hj =>
            ofCdb_next cfg hInv hOk hDin hIdle (hGood j hj)⟩

/- A byte that a data-in arm pushes belongs to the answer. -/
theorem pushed_ofCdb
    (hInv : LoadInv (s, g))
    (hDin : s.phase = .din)
    (hPush : armFill s i = true ∨ armPioIn s i = true) :
    ofCdb g (g.tags s.sbufPos) ∧
      (g.tags s.sbufPos).byte = sbufByte s := by
  have hGuard : byteAvail s = true ∧ sbufRdOk s = true := by
    rcases hPush with hFill | hPio
    · have hArm : arm s i = .fill := by
        simpa [armFill_eq] using hFill
      have hFacts := guard_fill s i hArm
      exact ⟨hFacts.2.2.2.2.1, hFacts.2.2.2.2.2⟩
    · have hArm : arm s i = .pioIn := by
        simpa [armPioIn_eq] using hPio
      have hFacts := guard_pioIn s i hArm
      exact ⟨hFacts.2.1, hFacts.2.2.2⟩
  rcases byteAvail_iff.mp hGuard.1 with ⟨hValid, hPos⟩
  rcases (hInv.din hDin).valid hValid with ⟨hLe, hGood⟩
  have hLe' : s.sbufLen ≤ 512 := hLe
  refine ⟨hGood _ hPos, ?_⟩
  have hBytes : (g.tags s.sbufPos).byte =
      bufByte s.mem s.sbufPos :=
    hInv.tag.bytes s.sbufPos
      (show s.sbufPos < 512 by omega)
  have hRead := hGuard.2
  simp only [sbufRdOk, posWord, Bool.and_eq_true, beq_iff_eq,
    Bool.not_eq_true'] at hRead
  have hWord : s.qE =
      s.mem (BitVec.ofNat 8 (s.sbufPos / 2)) := by
    rcases hInv.owner.current hValid with hWr | hSame
    · have hWr' : s.eqWr = true := hWr
      rw [hRead.2] at hWr'
      simp at hWr'
    · rw [← hRead.1]
      exact hSame
  rw [hBytes, sbufByte, bufByte, hWord]

/- Only the answer enters the FIFO. -/
theorem fifo_next
    (hInv : LoadInv (s, g))
    (hSep : Separate (s, g) i)
    (hDin : s.phase = .din)
    (hNext : (clock cfg s i).phase = .din) :
    ∀ t ∈ (noteLoad cfg g s i).fifo, ofCdb g t := by
  have hOld : ∀ t ∈ g.fifo, ofCdb g t := (hInv.din hDin).fifo
  have hTail : ∀ t ∈ g.fifo.tail, ofCdb g t :=
    fun t ht => hOld t (List.mem_of_mem_tail ht)
  rcases hSep.quiet hDin with ⟨hNoPush, hNoDma, -, -⟩
  have hNoPush' : regWr i 0x2#4 = false := hNoPush
  rcases (din_next cfg hNext).1 with ⟨hDone, hStat⟩
  have hMin : (cmdIs i 0x10#7 && s.phase == .min) = false := by
    simp [hDin]
  simp only [noteLoad]
  unfold fifoAct
  split
  next hExt =>
      unfold registerAct
      simp only [hDone, hMin, hStat, hNoPush', Bool.false_and,
        Bool.false_eq_true, if_false]
      split_ifs <;>
        simp only [QueueAct.map, QueueAct.apply, List.map_nil,
          List.not_mem_nil, false_implies, implies_true] <;>
        assumption
  next hExt =>
      have hPushed : (armFill s i = true ∨
          armPioIn s i = true) → ∀ b,
          ofCdb g (pushTag g s i b) := by
        intro hPush b
        have hGood := (pushed_ofCdb hInv hDin hPush).1
        have hAny : (armFill s i || armPioIn s i) = true := by
          simpa using hPush
        rw [pushTag, if_pos hAny]
        exact hGood
      unfold engineAct
      cases hArm : arm s i with
      | outDma =>
          have hDma : armOutDma s i = true := by
            simp [armOutDma_eq, hArm]
          rw [show armOutDma s i = false from hNoDma] at hDma
          simp at hDma
      | fill =>
          have hGood := hPushed
            (.inl (by simp [armFill_eq, hArm]))
          intro t ht
          rcases List.mem_append.mp ht with ht | ht
          · exact hOld t ht
          · rw [List.mem_singleton.mp ht]
            exact hGood _
      | pioIn =>
          have hGood := hPushed
            (.inr (by simp [armPioIn_eq, hArm]))
          intro t ht
          rcases List.mem_append.mp ht with ht | ht
          · exact hOld t ht
          · rw [List.mem_singleton.mp ht]
            exact hGood _
      | pop | cdbFf | drain | msgOut => exact hTail
      | rdIdle | cdbDma | swallow | idle => exact hOld

end Ncr53c96

------------------------------------------------------------
-- The Step Lemma
------------------------------------------------------------

namespace Ncr53c96

open Clocked

variable {cfg : Config} {s : Chip} {g : LoadLog} {i : In}

/- A word is marked, or it is the one marked now. -/
theorem marked_word
    {w : BitVec 256}
    {a b : BitVec 8}
    (hMarked :
      (w ||| 1#256 <<< b.toNat).getLsbD a.toNat = true) :
    w.getLsbD a.toNat = true ∨ a = b := by
  rw [BitVec.getLsbD_or, Bool.or_eq_true] at hMarked
  rcases hMarked with hOld | hNew
  · exact .inl hOld
  · right
    apply BitVec.eq_of_toNat_eq
    simp only [BitVec.getLsbD_shiftLeft,
      BitVec.getLsbD_one, Bool.and_eq_true,
      decide_eq_true_eq, Bool.not_eq_true'] at hNew
    have hLow := hNew.1.2
    simp only [decide_eq_false_iff_not] at hLow
    omega

/- The words written so far, with the one written now. -/
theorem written_next
    (a : BitVec 8)
    (hNotDue : prefetchDue s i = false)
    (hWritten :
      (noteLoad cfg g s i).written.getLsbD a.toNat = true) :
    g.written.getLsbD a.toNat = true ∨
      (i.sdBuffWr = true ∧ a = i.sdBuffAddr) := by
  simp only [noteLoad, hNotDue, Bool.false_eq_true, if_false]
    at hWritten
  cases hWr : i.sdBuffWr with
  | false =>
      left
      simpa [hWr] using hWritten
  | true =>
      rw [hWr, if_pos rfl] at hWritten
      rcases marked_word hWritten with hOld | hNew
      · exact .inl hOld
      · exact .inr ⟨rfl, hNew⟩

/- A word the platform writes carries its own load's tag. -/
theorem loaded_next
    (hInv : LoadInv (s, g))
    (hOk : PlatformOk (s, g) i)
    (hDin : s.phase = .din)
    (hIdle : s.execPending = false)
    (hLoading : (noteLoad cfg g s i).loading = true)
    (a : BitVec 8)
    (hWritten :
      (noteLoad cfg g s i).written.getLsbD a.toNat = true) :
    ofCdb (noteLoad cfg g s i)
        ((noteLoad cfg g s i).tags (2 * a.toNat)) ∧
      ofCdb (noteLoad cfg g s i)
        ((noteLoad cfg g s i).tags (2 * a.toNat + 1)) := by
  cases hDue : prefetchDue s i with
  | true => simp [noteLoad, hDue] at hWritten
  | false =>
      have hOpen : g.loading = true := by
        simp only [noteLoad, hDue, Bool.false_or,
          Bool.and_eq_true] at hLoading
        exact hLoading.1
      rcases written_next a hDue hWritten with
        hOld | ⟨hWr, rfl⟩
      · have hGood := (hInv.din hDin).loaded hOpen a hOld
        exact ⟨ofCdb_next cfg hInv hOk hDin hIdle hGood.1,
          ofCdb_next cfg hInv hOk hDin hIdle hGood.2⟩
      · rcases hInv.owner.load hOpen with
          ⟨hOwner, hDisk, -⟩
        have hHalf : (2 * i.sdBuffAddr.toNat + 1) / 2 =
            i.sdBuffAddr.toNat := by omega
        simp [hIdle, noteLoad, platformTags, hWr, hHalf, ofCdb, show g.owner = g.cmd from hOwner,
          show g.answer = some .disk from hDisk]

/- A response goes on streaming. -/
theorem streamed_next
    (hInv : LoadInv (s, g))
    (hOk : PlatformOk (s, g) i)
    (hDin : s.phase = .din)
    (hIdle : s.execPending = false)
    (hLen : (clock cfg s i).synthLen ≠ 0) :
    (clock cfg s i).sbufLen = (clock cfg s i).synthLen ∧
      (clock cfg s i).synthLen ≤ 36 ∧
      (clock cfg s i).synthIdx < (clock cfg s i).synthLen ∧
      ∀ j < (clock cfg s i).synthIdx,
        ofCdb (noteLoad cfg g s i)
          ((noteLoad cfg g s i).tags j) := by
  have hNoSynth : execSynth s = false := by
    simp [execSynth, hIdle]
  rcases clock_synth_of_other cfg (i := i) hNoSynth with
    ⟨hNextLen, hNextIdx⟩
  rw [hNextLen] at hLen ⊢
  rw [hNextIdx]
  have hOn : s.synthLen ≠ 0 := by
    intro hZero
    simp [hZero] at hLen
  have hMore : ¬ synthLast s = true := by
    intro hLast
    simp [hLast] at hLen
  rcases (hInv.din hDin).streamed hOn with
    ⟨hBuf, hShort, hIdx, hDone⟩
  have hBuf' : s.sbufLen = s.synthLen := hBuf
  have hShort' : s.synthLen ≤ 36 := hShort
  have hIdx' : s.synthIdx < s.synthLen := hIdx
  rcases synth_of_streaming hInv hDin hOn with
    ⟨hAnswer, hStream⟩
  have hNoLoad : g.loading = false := by
    by_contra hLoading
    have hDisk := (hInv.owner.load (by simpa using hLoading)).2.1
    rw [show g.answer = some .disk from hDisk] at hAnswer
    simp at hAnswer
  have hNoPublish : publish s i = false := by
    by_contra hPublish
    have hLoading := (loading_of_publish hInv
      (by simpa using hPublish)).1
    simp [hNoLoad] at hLoading
  rw [if_neg hMore, if_pos (synthOn_iff.mpr hOn)]
  have hNotEnd : s.synthIdx ≠ s.synthLen - 1 := by
    intro hEnd
    exact hMore (synthLast_iff.mpr ⟨hOn, hEnd⟩)
  refine ⟨?_, hShort', by omega, fun j hj => ?_⟩
  · rw [clock_sbufLen]
    simp [hIdle, hNoPublish, hBuf']
  · by_cases hHere : j = s.synthIdx
    · have hNoWr : i.sdBuffWr = false := by
        by_contra hWr
        have hLoading : g.loading = true :=
          (hOk.serves (by simpa using hWr)).1
        simp [hNoLoad] at hLoading
      rw [ofCdb_idle cfg hIdle]
      simp [noteLoad, platformTags, hNoWr, engineTags,
        synthOn_iff.mpr hOn, hHere, ofCdb, hAnswer, hStream]
    · exact ofCdb_next cfg hInv hOk hDin hIdle
        (hDone j (show j < s.synthIdx by omega))

/- At an edge within DATA IN. -/
theorem dinInv_idle
    (hInv : LoadInv (s, g))
    (hOk : PlatformOk (s, g) i)
    (hSep : Separate (s, g) i)
    (hDin : s.phase = .din)
    (hIdle : s.execPending = false)
    (hNext : (clock cfg s i).phase = .din) :
    DinInv (clock cfg s i, noteLoad cfg g s i) where
  answer := by
    simpa [noteLoad, hIdle] using (hInv.din hDin).answer
  last := by
    intro hSynth
    have hLeft : s.blocksLeft = 0 := by
      apply (hInv.din hDin).last
      simpa [noteLoad, hIdle] using hSynth
    have hNotDue : prefetchDue s i = false := by
      simp [prefetchDue, hLeft]
    simp [clock_blocksLeft, hIdle, hLeft, hNotDue]
  valid := valid_next cfg hInv hOk hDin hIdle
  loaded := loaded_next hInv hOk hDin hIdle
  streamed := streamed_next hInv hOk hDin hIdle
  fifo := by
    intro t ht
    rw [ofCdb_idle cfg hIdle]
    exact fifo_next cfg hInv hSep hDin hNext t ht

/- Every separate edge keeps the invariant. -/
theorem loadInv_step
    (x : Chip × LoadLog)
    (i : In)
    (hInv : LoadInv x)
    (hBoth : PlatformOk x i ∧ Separate x i) :
    LoadInv (watch (step cfg) (noteLoad cfg) x i) := by
  rcases x with ⟨s, g⟩
  rcases hBoth with ⟨hOk, hSep⟩
  show LoadInv (step cfg s i, noteLoad cfg g s i)
  rw [step_of_nreset cfg s i hOk.clocked]
  exact {
    tag := tagInv_step cfg hInv.tag
    shake := shakeInv_step cfg hInv.shake hOk
    owner := ownerInv_step cfg hInv hOk hSep
    din := by
      intro hNext
      rcases (din_next cfg hNext).2 with
        ⟨hExec, hData⟩ | ⟨hIdle, hDin⟩
      · exact dinInv_exec cfg hInv hSep hExec hData hNext
      · exact dinInv_idle hInv hOk hSep hDin hIdle hNext }

/- The invariant gives an edge all that is asked for. -/
theorem ownAnswer_of_inv
    (x : Chip × LoadLog)
    (i : In)
    (hInv : LoadInv x)
    (hBoth : PlatformOk x i ∧ Separate x i) :
    OwnAnswer x i where
  published := by
    intro hPublish
    exact (hInv.owner.load
      (loading_of_publish hInv hPublish).1).1
  filled := fun hDin => pushed_ofCdb hInv hDin
  handed := by
    intro hDin hTake
    have hLive : x.1.fifoCnt ≠ 0 := by
      rcases hTake with hPop | hFiller | hRd
      · have hArm : arm x.1 i = .pop := by
          simpa [armPop_eq] using hPop
        exact (guard_pop x.1 i hArm).2
      · rw [(hBoth.2.quiet hDin).2.2.1] at hFiller
        simp at hFiller
      · exact (hBoth.2.quiet hDin).2.2.2 hRd
    rcases head_byte hInv.tag.queue hLive with
      ⟨t, hHead, hMem, hByte⟩
    exact ⟨t, hHead, (hInv.din hDin).fifo t hMem, hByte⟩
  untouched := by
    intro hWriting
    by_contra hWr
    have hLoading := (hBoth.1.serves (by simpa using hWr)).1
    have hDisk := (hInv.owner.load hLoading).2.1
    rw [hInv.owner.write hWriting] at hDisk
    simp at hDisk

theorem loadInv_start (s : Chip) :
    LoadInv (powerOn cfg s, noLoads (powerOn cfg s)) := by
  exact {
    tag := {
      fifoCnt := by simp [powerOn, step, sbufPorts, resetRegs]
      synthIdx := by simp [powerOn, step, sbufPorts, resetRegs]
      bytes := fun j _ => rfl
      queue := by
        simp [noLoads, queue, powerOn, step, sbufPorts,
          resetRegs] }
    shake := by
      constructor <;>
        simp [noLoads, powerOn, step, sbufPorts, resetRegs]
    owner := by
      constructor <;>
        simp [noLoads, powerOn, step, sbufPorts, resetRegs]
    din := by
      simp [powerOn, step, sbufPorts, resetRegs] }

/-
  In every run from reset whose edges keep commands separate,
  every edge of DATA IN hands over the answer to the CDB
  executed last, and a load is published for its own READ.
-/
theorem own_answer
    (cfg : Config)
    (s : Chip)
    (is : List In)
    (hOk : Along (watch (step cfg) (noteLoad cfg)) PlatformOk
      (powerOn cfg s, noLoads (powerOn cfg s)) is)
    (hSep : Along (watch (step cfg) (noteLoad cfg)) Separate
      (powerOn cfg s, noLoads (powerOn cfg s)) is) :
    Along (watch (step cfg) (noteLoad cfg)) OwnAnswer
      (powerOn cfg s, noLoads (powerOn cfg s)) is :=
  along_of_invariant loadInv_step ownAnswer_of_inv
    (along_and.mpr ⟨hOk, hSep⟩) (loadInv_start s)

/-
  An INQUIRY answered by a one-byte transfer information,
  and the byte read from the FIFO.
-/
def inquiryByte : List In :=
  inquiryAlone ++ List.replicate 36 quiet ++
    [regWrite 0x3#4 0x10#8, quiet, quiet,
      { sel := true, rs := 0x2#4 }]

theorem own_answer_inquiryByte :
    Along (watch (step ⟨0#4, false⟩) (noteLoad ⟨0#4, false⟩))
      OwnAnswer
      (powerOn ⟨0#4, false⟩ default,
        noLoads (powerOn ⟨0#4, false⟩ default)) inquiryByte :=
  own_answer ⟨0#4, false⟩ default inquiryByte
    (along_of_eval forcedLog_eq
      (fun x i => decide (PlatformOk x i))
      (by simp) (by decide +kernel))
    (along_of_eval forcedLog_eq
      (fun x i => decide (Separate x i))
      (by simp) (by decide +kernel))

/- The platform serves a load: 256 words, in order. -/
def serveLoad : List In :=
  (List.range 256).map fun k =>
    { ioAck := true, sdBuffWr := true
      sdBuffAddr := BitVec.ofNat 8 k }

/-
  A READ(6) is abandoned by a chip reset while its strobe is
  up; an INQUIRY executes; then the platform answers.
-/
def abandonedRead : List In :=
  [mountImage] ++
    runCdb [0x08#8, 0x00#8, 0x00#8, 0x05#8, 0x01#8, 0x00#8] ++
    [quiet, regWrite 0x3#4 0x02#8] ++
    runCdb [0x12#8, 0x00#8, 0x00#8, 0x00#8, 0x24#8, 0x00#8] ++
    serveLoad ++ [quiet]

theorem abandoned_load_published :
    ¬ ∀ (cfg : Config) (s : Chip) (is : List In),
      Along (watch (step cfg) (noteLoad cfg)) PlatformOk
        (powerOn cfg s, noLoads (powerOn cfg s)) is →
      Along (watch (step cfg) (noteLoad cfg)) OwnAnswer
        (powerOn cfg s, noLoads (powerOn cfg s)) is := by
  intro hAll
  have hOk : Along
      (watch (step ⟨0#4, false⟩) (noteLoad ⟨0#4, false⟩))
      PlatformOk
      (powerOn ⟨0#4, false⟩ default,
        noLoads (powerOn ⟨0#4, false⟩ default))
      abandonedRead :=
    along_of_eval forcedLog_eq
      (fun x i => decide (PlatformOk x i))
      (by simp) (by decide +kernel)
  have hOwn := hAll _ _ _ hOk
  have hEval := eval_of_along forcedLog_eq
    (fun x i => !publish x.1 i || x.2.owner == x.2.cmd)
    (fun x i hOwn => by
      cases hPublish : publish x.1 i with
      | false => rfl
      | true => simp [hOwn.published hPublish]) hOwn
  revert hEval
  decide +kernel

end Ncr53c96
