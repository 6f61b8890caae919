import Wombat33.Preboot.ResultRegion

/-
  What writing a batch does to the disk.

  A batch is written in slices of at most 16 KB, each at its
  own place; the slices together put the padded buffer on the
  disk, and an error of any of them is noted.

  Key definitions include:
    * `Disk`, `Disk.after`
    * `Slices`, `BatchWritten`
    * `Noted`

  Key theorems include:
    * `driverWriteLoop_spec`
    * `writeCurrentBatch_spec`
    * `noted_run`
-/

------------------------------------------------------------
-- The Disk
------------------------------------------------------------

namespace Preboot

abbrev Disk := Nat → Byte

/- The disk with a request written. -/
def Disk.write (d : Disk) (r : Request) : Disk :=
  fun x =>
    if r.posOffset.toNat ≤ x ∧
        x < r.posOffset.toNat + r.buffer.length then
      r.buffer.getD (x - r.posOffset.toNat) 0#8
    else d x

/- Every request in turn, where the driver served them all. -/
def Disk.after (d : Disk) (log : List Served) : Disk :=
  log.foldl (fun d e => d.write e.request) d

/- The driver has no errors. -/
def Faultless (driver : Driver) : Prop :=
  ∀ log r, driver log r = 0#16

/- The region in whole batches. -/
def regionSize (batch : Nat) (ctx : JwCtx) : Nat :=
  roundUp batch ctx.maxBytes.toNat

/- The region can be addressed with 32 bits. -/
structure Addressable (batch : Nat) (ctx : JwCtx) : Prop where
  positive : 0 < batch
  ends : ctx.baseOffset.toNat + regionSize batch ctx ≤
    0x100000000
  counts : regionSize batch ctx < 0x100000000

theorem length_bytesAt (sector : Nat → Byte) (off len : Nat) :
    (bytesAt sector off len).length = len := by
  simp [bytesAt]

theorem getD_bytesAt
    {k len : Nat}
    (hk : k < len)
    (sector : Nat → Byte)
    (off : Nat) :
    (bytesAt sector off len).getD k 0#8 = sector (off + k) := by
  simp [bytesAt, hk]

theorem after_append (d : Disk) (log more : List Served) :
    d.after (log ++ more) = (d.after log).after more :=
  List.foldl_append

end Preboot

------------------------------------------------------------
-- One Batch
------------------------------------------------------------

namespace Preboot

variable {batch : Nat} {driver : Driver}

/- The request is a slice of the batch at its own place. -/
def IsSlice
    (batch : Nat)
    (sector : Nat → Byte)
    (base : BitVec 32)
    (r : Request) : Prop :=
  ∃ off len, off < batch ∧ off + len ≤ batch ∧
    r.posOffset = base + BitVec.ofNat 32 off ∧
    r.buffer = bytesAt sector off len

/- What the slicing loop has the driver serve. -/
structure Slices
    (batch : Nat)
    (driver : Driver)
    (s : Session)
    (base : BitVec 32)
    (off : Nat)
    (p : Session × BitVec 16)
    (served : List Served) : Prop where
  session : p.1 = { s with log := s.log ++ served }
  slices : ∀ e ∈ served, IsSlice batch s.w.sector base e.request
  errors : (∃ e ∈ served, e.ioResult ≠ 0#16) → p.2 ≠ 0#16
  written : Faultless driver →
    base.toNat + batch ≤ 0x100000000 → off ≤ batch →
    ∀ d : Disk, ∀ x, d.after served x =
      if base.toNat + off ≤ x ∧ x < base.toNat + batch then
        s.w.sector (x - base.toNat)
      else d x

/- A slice on the disk. -/
theorem write_slice
    {base : BitVec 32}
    {off len : Nat}
    (hEnd : base.toNat + batch ≤ 0x100000000)
    (hOff : off < batch)
    {r : Request}
    (hPos : r.posOffset = base + BitVec.ofNat 32 off)
    {sector : Nat → Byte}
    (hBuffer : r.buffer = bytesAt sector off len)
    (d : Disk)
    (x : Nat) :
    d.write r x =
      if base.toNat + off ≤ x ∧ x < base.toNat + (off + len)
      then sector (x - base.toNat) else d x := by
  have hPlace : r.posOffset.toNat = base.toNat + off := by
    rw [hPos, BitVec.toNat_add, BitVec.toNat_ofNat]
    omega
  rw [Disk.write, hPlace, hBuffer, length_bytesAt,
    Nat.add_assoc base.toNat off len]
  split
  next hHere =>
    rw [getD_bytesAt (by omega)]
    congr 1
    omega
  next => rfl

/- The request the loop makes at an offset. -/
def sliceRequest
    (s : Session)
    (base : BitVec 32)
    (off len : Nat) : Request where
  refnum := s.w.ctx.refnum
  vRefnum := s.w.ctx.drive
  posOffset := base + BitVec.ofNat 32 off
  buffer := bytesAt s.w.sector off len

theorem slices_cons
    {s : Session}
    {base : BitVec 32}
    {off len : Nat}
    {r : BitVec 16}
    {q : Session × BitVec 16}
    {served : List Served}
    (hOff : off < batch)
    (hLen : off + len ≤ batch)
    (hNone : r = 0#16)
    (hRest : Slices batch driver
      { s with log := s.log ++ [⟨sliceRequest s base off len, r⟩] }
      base (off + len) q served) :
    Slices batch driver s base off q
      (⟨sliceRequest s base off len, r⟩ :: served) := by
  refine ⟨?_, ?_, ?_, ?_⟩
  · rw [hRest.session]
    simp
  · intro e hMem
    rcases List.mem_cons.mp hMem with rfl | hLater
    · exact ⟨off, len, hOff, hLen, rfl, rfl⟩
    · exact hRest.slices e hLater
  · rintro ⟨e, hMem, hError⟩
    rcases List.mem_cons.mp hMem with rfl | hLater
    · exact absurd hNone hError
    · exact hRest.errors ⟨e, hLater, hError⟩
  · intro hFaultless hEnd _ d x
    have hTail := hRest.written hFaultless hEnd hLen
      (d.write (sliceRequest s base off len)) x
    have hHead := write_slice hEnd hOff
      (r := sliceRequest s base off len) rfl rfl d x
    show Disk.after (d.write _) served x = _
    rw [hTail, hHead]
    by_cases hLow : base.toNat + off ≤ x
    · by_cases hNext : base.toNat + (off + len) ≤ x
      · have hAfter : ¬ x < base.toNat + (off + len) := by omega
        simp [hLow, hNext, hAfter]
      · have hBelow : x < base.toNat + (off + len) := by omega
        have hIn : x < base.toNat + batch := by omega
        simp [hLow, hNext, hBelow, hIn]
    · have hNext : ¬ base.toNat + (off + len) ≤ x := by omega
      simp [hLow, hNext]

theorem driverWriteLoop_spec
    (batch : Nat)
    (driver : Driver)
    (s : Session)
    (base : BitVec 32)
    (off : Nat) :
    ∃ served, Slices batch driver s base off
      (driverWriteLoop batch driver s base off) served := by
  induction s, off using
    driverWriteLoop.induct batch driver base with
  | case1 s off hMore len p hError =>
      rw [driverWriteLoop, if_pos hMore]
      refine ⟨[⟨sliceRequest s base off len, p.2⟩], ?_⟩
      have hStop : (if p.2 ≠ 0#16 then p else
          driverWriteLoop batch driver p.1 base (off + len)) =
          p := if_pos hError
      show Slices batch driver s base off (if p.2 ≠ 0#16 then p
        else _) _
      rw [hStop]
      refine ⟨rfl, ?_, fun _ => hError, ?_⟩
      · intro e hMem
        rw [List.mem_singleton] at hMem
        subst hMem
        exact ⟨off, len, hMore, by omega, rfl, rfl⟩
      · intro hFaultless
        exact absurd (hFaultless _ _) hError
  | case2 s off hMore len p hNone ih =>
      rw [driverWriteLoop, if_pos hMore]
      rcases ih with ⟨served, hRest⟩
      refine ⟨⟨sliceRequest s base off len, p.2⟩ :: served, ?_⟩
      have hGo : (if p.2 ≠ 0#16 then p else
          driverWriteLoop batch driver p.1 base (off + len)) =
          driverWriteLoop batch driver p.1 base (off + len) :=
        if_neg hNone
      show Slices batch driver s base off (if p.2 ≠ 0#16 then p
        else _) _
      rw [hGo]
      exact slices_cons hMore (by omega)
        (Decidable.not_not.mp hNone) hRest
  | case3 s off hDone =>
      rw [driverWriteLoop, if_neg hDone]
      refine ⟨[], by simp, by simp, by simp, ?_⟩
      intro _ _ hOff d x
      have hNone : ¬ (base.toNat + off ≤ x ∧
          x < base.toNat + batch) := by omega
      rw [if_neg hNone]
      rfl

/- The batch buffer as it is written. -/
def padded (w : JsonlWriter) (k : Nat) : Byte :=
  if w.used.toNat ≤ k then 0#8 else w.sector k

/- What writing the current batch does, at batch `q`. -/
structure BatchWritten
    (batch : Nat)
    (driver : Driver)
    (q : Nat)
    (s s' : Session)
    (served : List Served) : Prop where
  ctx : s'.w.ctx = s.w.ctx
  used : s'.w.used = s.w.used
  count : s'.w.written = s.w.written
  sector : ∀ k < batch, s'.w.sector k = padded s.w k
  log : s'.log = s.log ++ served
  inside : ∀ e ∈ served,
    s.w.ctx.baseOffset.toNat + q * batch ≤
      e.request.posOffset.toNat ∧
    e.request.posOffset.toNat + e.request.buffer.length ≤
      s.w.ctx.baseOffset.toNat + q * batch + batch
  disk : Faultless driver → ∀ d : Disk, ∀ x,
    d.after served x =
      if s.w.ctx.baseOffset.toNat + q * batch ≤ x ∧
          x < s.w.ctx.baseOffset.toNat + q * batch + batch then
        padded s.w (x - (s.w.ctx.baseOffset.toNat + q * batch))
      else d x

theorem jwBatchBytes_toNat (hBatch : batch < 0x100000000) :
    (jwBatchBytes batch).toNat = batch := by
  rw [jwBatchBytes, BitVec.toNat_ofNat]
  exact Nat.mod_eq_of_lt hBatch

theorem padBatch_sector
    {k : Nat}
    (hBatch : batch < 0x100000000)
    (w : JsonlWriter)
    (hk : k < batch) :
    (padBatch batch w).sector k = padded w k := by
  have hLess : w.used < jwBatchBytes batch ↔
      w.used.toNat < batch := by
    rw [BitVec.lt_def, jwBatchBytes_toNat hBatch]
  unfold padBatch padded
  simp only [hLess]
  by_cases hUsed : w.used.toNat < batch
  · simp [hUsed, hk]
  · have hBelow : ¬ w.used.toNat ≤ k := by omega
    simp [hUsed, hBelow]

/- Padding touches the buffer alone. -/
theorem padBatch_same (batch : Nat) (w : JsonlWriter) :
    (padBatch batch w).ctx = w.ctx ∧
      (padBatch batch w).used = w.used ∧
      (padBatch batch w).written = w.written ∧
      (padBatch batch w).lastErr = w.lastErr := by
  unfold padBatch
  split <;> exact ⟨rfl, rfl, rfl, rfl⟩

theorem noteError_same (w : JsonlWriter) (r : BitVec 16) :
    (noteError w r).ctx = w.ctx ∧
      (noteError w r).used = w.used ∧
      (noteError w r).written = w.written ∧
      (noteError w r).sector = w.sector := by
  unfold noteError
  split <;> exact ⟨rfl, rfl, rfl, rfl⟩

/- A batch inside the region has 32-bit places. -/
theorem batch_base
    {ctx : JwCtx}
    {written : BitVec 32}
    {q : Nat}
    (hFit : Addressable batch ctx)
    (hCount : written.toNat = q * batch)
    (hRoom : q * batch + batch ≤ regionSize batch ctx) :
    (ctx.baseOffset + written / jwBatchBytes batch *
      jwBatchBytes batch).toNat =
      ctx.baseOffset.toNat + q * batch := by
  have hPos := hFit.positive
  have hEnds := hFit.ends
  have hCounts := hFit.counts
  have hBatch : batch < 0x100000000 := by omega
  have hSize := jwBatchBytes_toNat hBatch
  have hIdx : (written / jwBatchBytes batch).toNat = q := by
    rw [BitVec.toNat_udiv, hSize, hCount,
      Nat.mul_div_cancel q hPos]
  rw [BitVec.toNat_add, BitVec.toNat_mul, hIdx, hSize]
  have hLow : q * batch % 4294967296 = q * batch :=
    Nat.mod_eq_of_lt (by omega)
  omega

theorem writeCurrentBatch_spec
    {s : Session}
    {q : Nat}
    (hFit : Addressable batch s.w.ctx)
    (hCount : s.w.written.toNat = q * batch)
    (hRoom : q * batch + batch ≤ regionSize batch s.w.ctx) :
    ∃ served, BatchWritten batch driver q s
      (writeCurrentBatch batch driver s) served := by
  have hEnds := hFit.ends
  have hCounts := hFit.counts
  have hBatch : batch < 0x100000000 := by omega
  rcases padBatch_same batch s.w with
    ⟨hCtx, hUsed, hWritten, -⟩
  have hBase := batch_base hFit hCount hRoom
  rw [← hCtx, ← hWritten] at hBase
  rcases driverWriteLoop_spec batch driver
    { s with w := padBatch batch s.w }
    ((padBatch batch s.w).ctx.baseOffset +
      (padBatch batch s.w).written / jwBatchBytes batch *
        jwBatchBytes batch) 0 with ⟨served, hLoop⟩
  have hLog := congrArg Session.log hLoop.session
  have hW := congrArg Session.w hLoop.session
  have hOut : (writeCurrentBatch batch driver s).w =
      noteError (padBatch batch s.w)
        (driverWriteSector batch driver
          { s with w := padBatch batch s.w }
          ((padBatch batch s.w).written /
            jwBatchBytes batch)).2 := by
    show noteError _ _ = _
    congr 1
  rcases noteError_same (padBatch batch s.w)
    (driverWriteSector batch driver
      { s with w := padBatch batch s.w }
      ((padBatch batch s.w).written /
        jwBatchBytes batch)).2 with
    ⟨hCtx', hUsed', hWritten', hSector'⟩
  refine ⟨served, ?_, ?_, ?_, ?_, hLog, ?_, ?_⟩
  · rw [hOut, hCtx', hCtx]
  · rw [hOut, hUsed', hUsed]
  · rw [hOut, hWritten', hWritten]
  · intro k hk
    rw [hOut, hSector']
    exact padBatch_sector hBatch s.w hk
  · intro e hMem
    rcases hLoop.slices e hMem with
      ⟨off, len, hOff, hLen, hPos, hBuffer⟩
    have hPlace : e.request.posOffset.toNat =
        s.w.ctx.baseOffset.toNat + q * batch + off := by
      rw [hPos, BitVec.toNat_add, hBase, hCtx,
        BitVec.toNat_ofNat]
      omega
    rw [hPlace, hBuffer, length_bytesAt]
    omega
  · intro hFaultless d x
    have hDisk := hLoop.written hFaultless
      (by rw [hBase, hCtx]; omega) (Nat.zero_le _) d x
    rw [hBase, hCtx, Nat.add_zero] at hDisk
    rw [hDisk]
    split
    next hIn => exact padBatch_sector hBatch s.w (by omega)
    next => rfl

end Preboot

------------------------------------------------------------
-- Errors
------------------------------------------------------------

namespace Preboot

variable {batch : Nat} {driver : Driver} {s : Session}

/- The buffer with one more character. -/
def takeChar (s : Session) (c : Byte) : Session :=
  { s with w := { s.w with
      sector := fun k =>
        if k = s.w.used.toNat then c else s.w.sector k
      used := s.w.used + 1#32 } }

theorem jwPutc_eq (s : Session) (c : Byte) :
    jwPutc batch driver s c =
      if s.w.ctx.maxBytes ≤ s.w.written + s.w.used then s
      else if (takeChar s c).w.used = jwBatchBytes batch then
        flushSector batch driver (takeChar s c)
      else takeChar s c := rfl

/-
  A call changes the buffer and the counters, or writes the
  current batch; what depends on neither is kept.
-/
theorem invariant_call
    {P : Session → Prop}
    (hWrite : ∀ t, P t → P (writeCurrentBatch batch driver t))
    (hBuffer : ∀ t w, w.lastErr = t.w.lastErr → P t →
      P { t with w := w })
    (hHolds : P s)
    (c : Call) :
    P (call batch driver s c) := by
  have hFlush : ∀ t, P t → P (flushSector batch driver t) :=
    fun t hT => hBuffer _ _ rfl (hWrite t hT)
  have hPutc : ∀ t d, P t → P (jwPutc batch driver t d) := by
    intro t d hT
    have hTaken : P (takeChar t d) := hBuffer t _ rfl hT
    rw [jwPutc_eq]
    split
    · exact hT
    · split
      · exact hFlush _ hTaken
      · exact hTaken
  have hFold : ∀ (cs : List Byte) t, P t →
      P (cs.foldl (jwPutc batch driver) t) := by
    intro cs
    induction cs with
    | nil => exact fun t hT => hT
    | cons d cs ih => exact fun t hT => ih _ (hPutc t d hT)
  have hPuts : ∀ (cs : List Byte) t, P t →
      P (jwPuts batch driver t cs) := by
    intro cs
    induction cs with
    | nil => exact fun t hT => hT
    | cons d cs ih =>
        intro t hT
        unfold jwPuts
        split
        · exact hT
        · exact ih _ (hPutc t d hT)
  cases c with
  | putc d => exact hPutc s d hHolds
  | puts cs => exact hPuts cs s hHolds
  | putul v => exact hFold _ s hHolds
  | commitLine =>
      show P (jwCommitLine batch driver s)
      unfold jwCommitLine
      split
      · exact hHolds
      · exact hWrite s hHolds
  | flush =>
      show P (jwFlush batch driver s)
      unfold jwFlush
      split
      · exact hFlush s hHolds
      · exact hHolds

theorem noteError_kept
    {r : BitVec 16}
    (w : JsonlWriter)
    (hError : w.lastErr ≠ 0#16 ∨ r ≠ 0#16) :
    (noteError w r).lastErr ≠ 0#16 := by
  unfold noteError
  split
  next hNote => exact hNote.1
  next hNone =>
    intro hZero
    rcases hError with hOld | hNew
    · exact hOld hZero
    · exact hNone ⟨hNew, hZero⟩

/- No request is taken back, and no error forgotten. -/
def Noted (log : List Served) (s : Session) : Prop :=
  log <+: s.log ∧
    ((∃ e ∈ s.log, e.ioResult ≠ 0#16) → s.w.lastErr ≠ 0#16)

theorem noted_write
    {log : List Served}
    (hNoted : Noted log s) :
    Noted log (writeCurrentBatch batch driver s) := by
  rcases driverWriteLoop_spec batch driver
    { s with w := padBatch batch s.w }
    ((padBatch batch s.w).ctx.baseOffset +
      (padBatch batch s.w).written / jwBatchBytes batch *
        jwBatchBytes batch) 0 with ⟨served, hLoop⟩
  have hLog : (writeCurrentBatch batch driver s).log =
      s.log ++ served := congrArg Session.log hLoop.session
  have hErr := (padBatch_same batch s.w).2.2.2
  constructor
  · rw [hLog]
    exact hNoted.1.trans (List.prefix_append _ _)
  · rintro ⟨e, hMem, hError⟩
    have hW := congrArg Session.w hLoop.session
    apply noteError_kept
    rw [hLog, List.mem_append] at hMem
    rcases hMem with hOld | hNew
    · left
      show (driverWriteLoop batch driver _ _ 0).1.w.lastErr ≠ _
      rw [hW]
      show (padBatch batch s.w).lastErr ≠ _
      rw [hErr]
      exact hNoted.2 ⟨e, hOld, hError⟩
    · right
      exact hLoop.errors ⟨e, hNew, hError⟩

/- From a failed request on the error is there. -/
theorem noted_run
    {log : List Served}
    (hNoted : Noted log s)
    (calls : List Call) :
    Noted log (Clocked.run (call batch driver) s calls) := by
  apply Clocked.invariant_always ?_ calls hNoted
  intro t c hT
  refine invariant_call (fun _ hU => noted_write hU) ?_ hT c
  intro u w hErr hU
  refine ⟨hU.1, fun hFailed => ?_⟩
  show w.lastErr ≠ 0#16
  rw [hErr]
  exact hU.2 hFailed

end Preboot
