import Wombat33.Preboot.JsonlBatch

/-
  The writer fills the results region as its purpose says.

  Key definitions include:
    * `Matches`, `Ready`
    * `Stored`

  Key theorems include:
    * `ready_written`
    * `matches_put`, `matches_call`
    * `results_stored`
-/

------------------------------------------------------------
-- The Writer and the Region
------------------------------------------------------------

namespace Preboot

variable {batch : Nat} {driver : Driver} {ctx : JwCtx}
variable {s : Session} {a : Results}

/- The batch a position lies in, and its place there. -/
theorem place_unique
    {n q u : Nat}
    (hPlace : n = q * batch + u)
    (hLess : u < batch) :
    n / batch = q ∧ n % batch = u := by
  rw [Nat.div_mod_unique (by omega), Nat.mul_comm batch q]
  omega

/- The requests so far are in place. -/
structure LogOk
    (batch : Nat)
    (ctx : JwCtx)
    (s : Session) : Prop where
  same : s.w.ctx = ctx
  inside : ∀ e ∈ s.log,
    ctx.baseOffset.toNat ≤ e.request.posOffset.toNat ∧
    e.request.posOffset.toNat + e.request.buffer.length ≤
      ctx.baseOffset.toNat + regionSize batch ctx

/- The region, if it was blank and nothing has failed. -/
def Shows
    (batch : Nat)
    (ctx : JwCtx)
    (driver : Driver)
    (s : Session)
    (content : Nat → Byte) : Prop :=
  Faultless driver → ∀ d : Disk,
    (∀ p < regionSize batch ctx,
      d (ctx.baseOffset.toNat + p) = 0#8) →
    ∀ p < regionSize batch ctx,
      d.after s.log (ctx.baseOffset.toNat + p) = content p

/- The writer's buffer and counters hold the positions. -/
structure Matches
    (batch : Nat)
    (ctx : JwCtx)
    (driver : Driver)
    (s : Session)
    (a : Results) : Prop where
  log : LogOk batch ctx s
  ok : a.Ok batch ctx.maxBytes.toNat
  written : s.w.written.toNat = a.filled.length / batch * batch
  used : s.w.used.toNat = a.filled.length % batch
  sector : ∀ k < a.filled.length % batch, s.w.sector k =
    a.filled.getD (a.filled.length / batch * batch + k) 0#8
  shows : Shows batch ctx driver s a.content

/-
  A batch ready to be written: the buffer holds the end of
  the stream `f`, of which the region shows all the batches
  before.
-/
structure Ready
    (batch : Nat)
    (ctx : JwCtx)
    (driver : Driver)
    (s : Session)
    (a : Results)
    (f : List Byte)
    (q : Nat) : Prop where
  log : LogOk batch ctx s
  written : s.w.written.toNat = q * batch
  used : f.length = q * batch + s.w.used.toNat
  some : 0 < s.w.used.toNat
  within : s.w.used.toNat ≤ batch
  room : q * batch + batch ≤ regionSize batch ctx
  sector : ∀ k < s.w.used.toNat,
    s.w.sector k = f.getD (q * batch + k) 0#8
  start : a.filled <+: f
  whole : q * batch ≤ a.synced
  synced : a.synced ≤ a.filled.length
  shows : Shows batch ctx driver s a.content

/- A stream shows nothing past its end. -/
theorem getD_past {f : List Byte} {p : Nat}
    (hp : f.length ≤ p) : f.getD p 0#8 = 0#8 := by
  rw [List.getD_eq_getElem?_getD, List.getElem?_eq_none hp]
  rfl

theorem getD_prefix
    {f g : List Byte}
    {p : Nat}
    (hPrefix : f <+: g)
    (hp : p < f.length) :
    f.getD p 0#8 = g.getD p 0#8 := by
  rcases hPrefix with ⟨rest, rfl⟩
  rw [List.getD_eq_getElem?_getD, List.getD_eq_getElem?_getD,
    List.getElem?_append_left hp]

/- The region after the batch, position by position. -/
theorem ready_content
    {f : List Byte}
    {q : Nat}
    (hReady : Ready batch ctx driver s a f q)
    (p : Nat) :
    (if q * batch ≤ p ∧ p < q * batch + batch then
        padded s.w (p - q * batch)
      else a.content p) = f.getD p 0#8 := by
  have hUsed := hReady.used
  have hWithin := hReady.within
  have hSynced := hReady.synced
  have hWhole := hReady.whole
  have hLength := hReady.start.length_le
  split
  next hIn =>
    unfold padded
    split
    next hTail => rw [getD_past (by omega)]
    next hHead =>
      rw [hReady.sector _ (by omega)]
      congr 1
      omega
  next hOut =>
    unfold Results.content
    split
    next hBefore =>
      exact getD_prefix hReady.start (by omega)
    next hAfter => rw [getD_past (by omega)]

/- Writing it, the region shows the whole stream. -/
theorem ready_written
    {f : List Byte}
    {q : Nat}
    (hFit : Addressable batch ctx)
    (hReady : Ready batch ctx driver s a f q) :
    LogOk batch ctx (writeCurrentBatch batch driver s) ∧
      Shows batch ctx driver (writeCurrentBatch batch driver s)
        (fun p => f.getD p 0#8) ∧
      (writeCurrentBatch batch driver s).w.written =
        s.w.written ∧
      (writeCurrentBatch batch driver s).w.used = s.w.used ∧
      ∀ k < s.w.used.toNat,
        (writeCurrentBatch batch driver s).w.sector k =
          s.w.sector k := by
  have hCtx := hReady.log.same
  have hUsed := hReady.used
  have hSome := hReady.some
  have hWithin := hReady.within
  have hRoom := hReady.room
  have hSpec : ∃ served, BatchWritten batch driver q s
      (writeCurrentBatch batch driver s) served :=
    writeCurrentBatch_spec (by rw [hCtx]; exact hFit)
      hReady.written (by rw [hCtx]; exact hRoom)
  rcases hSpec with ⟨served, hWrite⟩
  refine ⟨⟨hWrite.ctx.trans hCtx, ?_⟩, ?_, hWrite.count,
    hWrite.used, ?_⟩
  · intro e hMem
    rw [hWrite.log, List.mem_append] at hMem
    rcases hMem with hOld | hNew
    · exact hReady.log.inside e hOld
    · have hInside := hWrite.inside e hNew
      rw [hCtx] at hInside
      omega
  · intro hFaultless d hBlank p hp
    have hOld := hReady.shows hFaultless d hBlank p hp
    have hContent := ready_content hReady p
    show _ = f.getD p 0#8
    rw [hWrite.log, after_append, hWrite.disk hFaultless, hOld,
      hCtx, ← hContent]
    have hPlace : ctx.baseOffset.toNat + p -
        (ctx.baseOffset.toNat + q * batch) = p - q * batch := by
      omega
    rw [hPlace]
    congr 1
    apply propext
    omega
  · intro k hk
    rw [hWrite.sector k (by omega), padded,
      if_neg (by omega)]

/- A finished batch is left behind. -/
theorem matches_flushed
    {f : List Byte}
    {q : Nat}
    {b : Results}
    (hFit : Addressable batch ctx)
    (hReady : Ready batch ctx driver s a f q)
    (hOk : b.Ok batch ctx.maxBytes.toNat)
    (hLength : b.filled.length = q * batch + batch)
    (hContent : ∀ p, b.content p = f.getD p 0#8) :
    Matches batch ctx driver (flushSector batch driver s) b := by
  have hPos := hFit.positive
  have hCounts := hFit.counts
  have hRoom := hReady.room
  have hBatch : batch < 0x100000000 := by omega
  have hSize := jwBatchBytes_toNat hBatch
  rcases ready_written hFit hReady with
    ⟨hLog, hShows, hWritten, -, -⟩
  have hPlace : b.filled.length / batch = q + 1 ∧
      b.filled.length % batch = 0 :=
    place_unique (by rw [hLength, Nat.succ_mul]; rfl) hPos
  refine ⟨⟨hLog.same, hLog.inside⟩, hOk, ?_, ?_,
    ?_, ?_⟩
  · show (_ + jwBatchBytes batch).toNat = _
    rw [BitVec.toNat_add, hWritten, hReady.written, hSize,
      hPlace.1, Nat.succ_mul]
    exact Nat.mod_eq_of_lt (by omega)
  · rw [hPlace.2]
    rfl
  · intro k hk
    omega
  · intro hFaultless d hBlank p hp
    rw [hContent]
    exact hShows hFaultless d hBlank p hp

/- A batch partly filled can be written. -/
theorem ready_of_matches
    (hFit : Addressable batch ctx)
    (hMatches : Matches batch ctx driver s a)
    (hSome : a.filled.length % batch ≠ 0) :
    Ready batch ctx driver s a a.filled
      (a.filled.length / batch) := by
  have hPos := hFit.positive
  have hLess := Nat.mod_lt a.filled.length hPos
  have hSplit := Nat.div_add_mod a.filled.length batch
  rw [Nat.mul_comm] at hSplit
  have hFits := hMatches.ok.fits
  have hUsed := hMatches.used
  refine ⟨hMatches.log, hMatches.written, by omega, by omega,
    by omega, ?_, ?_, List.prefix_refl _, hMatches.ok.whole,
    hMatches.ok.synced, hMatches.shows⟩
  · have hBatch : a.filled.length / batch * batch + batch ≤
        roundUp batch (roundUp batch ctx.maxBytes.toNat) :=
      batch_le_roundUp hPos (by omega)
    rw [roundUp_of_dvd hPos (dvd_roundUp _ _)] at hBatch
    exact hBatch
  · intro k hk
    exact hMatches.sector k (by omega)

/- A stream that ends with a batch is synchronised. -/
theorem synced_of_whole
    (hOk : a.Ok batch ctx.maxBytes.toNat)
    (hNone : a.filled.length % batch = 0) :
    a.commit = a := by
  have hSplit := Nat.div_add_mod a.filled.length batch
  rw [Nat.mul_comm, hNone] at hSplit
  have hWhole := hOk.whole
  have hSynced := hOk.synced
  have hEq : a.filled.length = a.synced := by omega
  rw [Results.commit, hEq]

theorem used_zero
    (hMatches : Matches batch ctx driver s a) :
    s.w.used = 0#32 ↔ a.filled.length % batch = 0 := by
  rw [← hMatches.used, BitVec.toNat_eq]
  rfl

theorem matches_commit
    (hFit : Addressable batch ctx)
    (hMatches : Matches batch ctx driver s a) :
    Matches batch ctx driver (jwCommitLine batch driver s)
      a.commit := by
  unfold jwCommitLine
  split
  next hZero =>
    rw [synced_of_whole hMatches.ok
      ((used_zero hMatches).mp hZero)]
    exact hMatches
  next hSome =>
    have hReady := ready_of_matches hFit hMatches
      (fun hZero => hSome ((used_zero hMatches).mpr hZero))
    rcases ready_written hFit hReady with
      ⟨hLog, hShows, hWritten, hUsed, hSector⟩
    refine ⟨hLog, Results.ok_commit hMatches.ok, ?_, ?_, ?_, ?_⟩
    · rw [hWritten]
      exact hMatches.written
    · rw [hUsed]
      exact hMatches.used
    · intro k hk
      rw [hSector k (by rw [hMatches.used]; exact hk)]
      exact hMatches.sector k hk
    · intro hFaultless d hBlank p hp
      have hDisk := hShows hFaultless d hBlank p hp
      rw [hDisk]
      unfold Results.content Results.commit
      split
      next => rfl
      next hPast => exact getD_past (by simpa using hPast)

/- A batch partly filled is rounded up to its end. -/
theorem roundUp_part
    {n : Nat}
    (hPos : 0 < batch)
    (hSome : n % batch ≠ 0) :
    roundUp batch n = n / batch * batch + batch := by
  have hSplit := Nat.div_add_mod n batch
  have hLess := Nat.mod_lt n hPos
  rw [Nat.mul_comm] at hSplit
  apply Nat.le_antisymm
  · apply roundUp_le hPos
    · exact Nat.dvd_add (Nat.dvd_mul_left _ _) (Nat.dvd_refl _)
    · omega
  · exact batch_le_roundUp hPos (by omega)

theorem matches_flush
    (hFit : Addressable batch ctx)
    (hMatches : Matches batch ctx driver s a) :
    Matches batch ctx driver (jwFlush batch driver s)
      (a.flush batch) := by
  have hPos := hFit.positive
  unfold jwFlush
  split
  next hUsed =>
    have hSome : a.filled.length % batch ≠ 0 := by
      intro hZero
      rw [(used_zero hMatches).mpr hZero] at hUsed
      exact absurd hUsed (BitVec.lt_irrefl _)
    have hReady := ready_of_matches hFit hMatches hSome
    have hLength := Results.flush_length hPos a
    refine matches_flushed hFit hReady
      (Results.ok_flush hPos hMatches.ok) ?_ ?_
    · rw [hLength, roundUp_part hPos hSome]
    · intro p
      by_cases hp : p < a.filled.length
      · have hIn : p < (a.flush batch).synced := by
          have hUp := le_roundUp (n := a.filled.length) hPos
          show p < (a.flush batch).filled.length
          omega
        have hStart : a.filled <+: (a.flush batch).filled :=
          List.prefix_append _ _
        rw [Results.content, if_pos hIn, getD_prefix hStart hp]
      · rw [getD_past (by omega)]
        unfold Results.content
        split
        next hIn =>
          show (a.filled ++ List.replicate _ 0#8).getD p 0#8 = _
          rw [List.getD_eq_getElem?_getD,
            List.getElem?_append_right (by omega),
            List.getElem?_replicate]
          split <;> rfl
        next => rfl
  next hUsed =>
    have hZero : s.w.used = 0#32 := by
      apply BitVec.eq_of_toNat_eq
      have hNat : ¬ 0 < s.w.used.toNat := hUsed
      show s.w.used.toNat = 0
      omega
    have hNone := (used_zero hMatches).mp hZero
    have hPad : a.padding batch = 0 := by
      rw [Results.padding, roundUp_of_dvd hPos
        (Nat.dvd_of_mod_eq_zero hNone), Nat.sub_self]
    have hSame : a.flush batch = a := by
      rw [Results.flush, hPad, List.replicate_zero,
        List.append_nil]
      exact synced_of_whole hMatches.ok hNone
    rw [hSame]
    exact hMatches

/- The capacity check adds up without wrapping. -/
theorem full_iff
    (hFit : Addressable batch ctx)
    (hMatches : Matches batch ctx driver s a) :
    s.w.ctx.maxBytes ≤ s.w.written + s.w.used ↔
      ctx.maxBytes.toNat ≤ a.filled.length := by
  have hSplit := Nat.div_add_mod a.filled.length batch
  have hFits := hMatches.ok.fits
  have hCounts := hFit.counts
  unfold regionSize at hCounts
  rw [Nat.mul_comm] at hSplit
  rw [BitVec.le_def, hMatches.log.same, BitVec.toNat_add,
    hMatches.written, hMatches.used, hSplit,
    Nat.mod_eq_of_lt (by omega)]

theorem takeChar_used
    (hFit : Addressable batch ctx)
    (hMatches : Matches batch ctx driver s a)
    (hRoom : a.filled.length < ctx.maxBytes.toNat)
    (c : Byte) :
    (takeChar s c).w.used.toNat =
      a.filled.length % batch + 1 := by
  have hUp := le_roundUp (n := ctx.maxBytes.toNat)
    hFit.positive
  have hCounts := hFit.counts
  have hMod := Nat.mod_le a.filled.length batch
  unfold regionSize at hCounts
  have hOne : (1#32).toNat = 1 := rfl
  show (s.w.used + 1#32).toNat = _
  rw [BitVec.toNat_add, hMatches.used, hOne]
  exact Nat.mod_eq_of_lt (by omega)

theorem takeChar_sector
    (hMatches : Matches batch ctx driver s a)
    (c : Byte)
    (k : Nat)
    (hk : k < a.filled.length % batch + 1) :
    (takeChar s c).w.sector k = (a.filled ++ [c]).getD
      (a.filled.length / batch * batch + k) 0#8 := by
  have hSplit := Nat.div_add_mod a.filled.length batch
  rw [Nat.mul_comm] at hSplit
  have hUsed := hMatches.used
  show (if k = s.w.used.toNat then c else s.w.sector k) = _
  by_cases hLast : k = a.filled.length % batch
  · rw [if_pos (by omega), hLast, hSplit]
    simp
  · rw [if_neg (by omega), hMatches.sector k (by omega)]
    exact getD_prefix (List.prefix_append _ _) (by omega)

theorem matches_put
    (hFit : Addressable batch ctx)
    (hMatches : Matches batch ctx driver s a)
    (c : Byte) :
    Matches batch ctx driver (jwPutc batch driver s c)
      (a.put batch ctx.maxBytes.toNat c) := by
  have hPos := hFit.positive
  have hCounts := hFit.counts
  have hOk := Results.ok_put hPos hMatches.ok c
  rw [jwPutc_eq]
  by_cases hFull : ctx.maxBytes.toNat ≤ a.filled.length
  · rw [if_pos ((full_iff hFit hMatches).mpr hFull),
      Results.put, if_pos hFull]
    exact hMatches
  · rw [if_neg (fun h => hFull ((full_iff hFit hMatches).mp h))]
    rw [Results.put, if_neg hFull] at hOk ⊢
    have hSplit := Nat.div_add_mod a.filled.length batch
    have hLess := Nat.mod_lt a.filled.length hPos
    rw [Nat.mul_comm] at hSplit
    have hUsed := takeChar_used hFit hMatches (by omega) c
    have hSector := takeChar_sector hMatches c
    have hRoom : a.filled.length / batch * batch + batch ≤
        regionSize batch ctx :=
      batch_le_roundUp hPos (by omega)
    have hBatch : batch < 0x100000000 := by omega
    have hSize := jwBatchBytes_toNat hBatch
    have hLength : (a.filled ++ [c]).length =
        a.filled.length + 1 := by simp
    have hLog : LogOk batch ctx (takeChar s c) :=
      ⟨hMatches.log.same, hMatches.log.inside⟩
    have hLast : (takeChar s c).w.used = jwBatchBytes batch ↔
        a.filled.length % batch + 1 = batch := by
      rw [BitVec.toNat_eq, hUsed, hSize]
    by_cases hEnd : a.filled.length % batch + 1 = batch
    · have hWhole : batch ∣ a.filled.length + 1 :=
        ⟨a.filled.length / batch + 1, by
          rw [Nat.mul_comm, Nat.succ_mul]
          omega⟩
      rw [if_pos (hLast.mpr hEnd)]
      rw [if_pos hWhole] at hOk ⊢
      have hReady : Ready batch ctx driver (takeChar s c) a
          (a.filled ++ [c]) (a.filled.length / batch) :=
        ⟨hLog, hMatches.written, by omega, by omega, by omega,
          hRoom, fun k hk => hSector k (by omega),
          List.prefix_append _ _, hMatches.ok.whole,
          hMatches.ok.synced, hMatches.shows⟩
      refine matches_flushed hFit hReady hOk
        (by show (a.filled ++ [c]).length = _; omega) ?_
      intro p
      unfold Results.content
      split
      next => rfl
      next hPast => rw [getD_past (by simpa using hPast)]
    · have hPlace : (a.filled.length + 1) / batch =
            a.filled.length / batch ∧
          (a.filled.length + 1) % batch =
            a.filled.length % batch + 1 :=
        place_unique (by omega) (by omega)
      have hPart : ¬ batch ∣ a.filled.length + 1 := by
        intro hWhole
        have hZero := Nat.mod_eq_zero_of_dvd hWhole
        omega
      rw [if_neg (fun h => hEnd (hLast.mp h))]
      rw [if_neg hPart] at hOk ⊢
      refine ⟨hLog, hOk, ?_, ?_, ?_, ?_⟩
      · rw [hLength, hPlace.1]
        exact hMatches.written
      · rw [hLength, hPlace.2]
        exact hUsed
      · intro k hk
        rw [hLength, hPlace.2] at hk
        rw [hLength, hPlace.1]
        exact hSector k hk
      · intro hFaultless d hBlank p hp
        have hOld := hMatches.shows hFaultless d hBlank p hp
        have hSynced := hMatches.ok.synced
        show d.after s.log _ = _
        rw [hOld]
        unfold Results.content
        split
        next hIn =>
          exact getD_prefix (List.prefix_append _ _) (by omega)
        next => rfl

end Preboot

------------------------------------------------------------
-- Calls
------------------------------------------------------------

namespace Preboot

variable {batch : Nat} {driver : Driver} {ctx : JwCtx}
variable {s : Session} {a : Results}

theorem jwPuts_eq (s : Session) (cs : List Byte) :
    jwPuts batch driver s cs =
      (cs.takeWhile (· ≠ 0#8)).foldl (jwPutc batch driver) s := by
  induction cs generalizing s with
  | nil => rfl
  | cons c cs ih =>
      by_cases hEnd : c = 0#8
      · simp [jwPuts, hEnd]
      · simp [jwPuts, hEnd, ih]

theorem lowDigits_eq (v : Nat) :
    lowDigits v = (Nat.digits 10 v).map
      fun d => BitVec.ofNat 8 (0x30 + d) := by
  induction v using lowDigits.induct with
  | case1 => simp [lowDigits]
  | case2 v hSome ih =>
      rw [lowDigits, if_neg hSome, ih, Nat.digits_def'
        (by omega) (Nat.pos_of_ne_zero hSome)]
      rfl

/- The digits come out in the order they are read. -/
theorem fPutul_eq (v : BitVec 32) :
    fPutul v = (Call.putul v).chars := by
  simp only [fPutul, Call.chars]
  by_cases hZero : v = 0#32
  · rw [if_pos hZero, if_pos hZero]
    rfl
  · rw [if_neg hZero, if_neg hZero, lowDigits_eq,
      List.map_reverse]

theorem matches_puts
    (hFit : Addressable batch ctx)
    (hMatches : Matches batch ctx driver s a)
    (cs : List Byte) :
    Matches batch ctx driver
      (cs.foldl (jwPutc batch driver) s)
      (cs.foldl (Results.put batch ctx.maxBytes.toNat) a) := by
  induction cs generalizing s a with
  | nil => exact hMatches
  | cons c cs ih => exact ih (matches_put hFit hMatches c)

theorem matches_call
    (hFit : Addressable batch ctx)
    (hMatches : Matches batch ctx driver s a)
    (c : Call) :
    Matches batch ctx driver (call batch driver s c)
      (a.call batch ctx.maxBytes.toNat c) := by
  cases c with
  | putc d => exact matches_put hFit hMatches d
  | puts cs =>
      show Matches batch ctx driver (jwPuts batch driver s cs) _
      rw [jwPuts_eq]
      exact matches_puts hFit hMatches _
  | putul v =>
      show Matches batch ctx driver
        ((fPutul v).foldl (jwPutc batch driver) s) _
      rw [fPutul_eq]
      exact matches_puts hFit hMatches _
  | commitLine => exact matches_commit hFit hMatches
  | flush => exact matches_flush hFit hMatches

theorem matches_init (ctx : JwCtx) :
    Matches batch ctx driver (jwInit ctx) Results.empty := by
  refine ⟨⟨rfl, fun e hMem => ?_⟩, Results.ok_empty _ _, ?_, ?_,
    ?_, ?_⟩
  · exact absurd hMem List.not_mem_nil
  · simp [jwInit, Results.empty]
  · simp [jwInit, Results.empty]
  · intro k hk
    simp [Results.empty] at hk
  · intro _ d hBlank p hp
    exact hBlank p hp

end Preboot

------------------------------------------------------------
-- The Results
------------------------------------------------------------

namespace Preboot

variable {batch : Nat} {ctx : JwCtx}

/- The region as it is on a disk. -/
def regionBytes (batch : Nat) (ctx : JwCtx) (d : Disk) :
    List Byte :=
  (List.range (regionSize batch ctx)).map
    fun p => d (ctx.baseOffset.toNat + p)

/- A disk whose results region is all zero. -/
def Blank (batch : Nat) (ctx : JwCtx) (d : Disk) : Prop :=
  ∀ p < regionSize batch ctx,
    d (ctx.baseOffset.toNat + p) = 0#8

/- The positions used: characters and padding. -/
def positions (s : Session) : Nat :=
  s.w.written.toNat + s.w.used.toNat

/-
  What is asked of a session.  Every byte goes to the region;
  a failed request leaves its error for good; on a blank disk
  without errors nothing shown is lost later, and after a
  commit or a flush all characters are shown, cut off only by
  the capacity.
-/
structure Stored
    (batch : Nat)
    (driver : Driver)
    (ctx : JwCtx)
    (calls : List Call) : Prop where
  inside : ∀ e ∈ (session batch driver ctx calls).log,
    ctx.baseOffset.toNat ≤ e.request.posOffset.toNat ∧
    e.request.posOffset.toNat + e.request.buffer.length ≤
      ctx.baseOffset.toNat + regionSize batch ctx
  whole : batch ∣ ctx.maxBytes.toNat →
    regionSize batch ctx = ctx.maxBytes.toNat
  error : ∀ more,
    (∃ e ∈ (session batch driver ctx calls).log,
      e.ioResult ≠ 0#16) →
    (session batch driver ctx (calls ++ more)).w.lastErr ≠ 0#16
  kept : Faultless driver → ∀ d, Blank batch ctx d → ∀ more,
    (regionBytes batch ctx
      (d.after (session batch driver ctx calls).log)).filter
        shown <+:
    (regionBytes batch ctx (d.after
      (session batch driver ctx (calls ++ more)).log)).filter
        shown
  results : Faultless driver → ∀ d, Blank batch ctx d →
    (∃ c ∈ calls.getLast?, c.syncs = true) →
    ∃ k, k ≤ (emitted calls).length ∧
      (regionBytes batch ctx
        (d.after (session batch driver ctx calls).log)).filter
          shown = ((emitted calls).take k).filter shown ∧
      (k < (emitted calls).length →
        ctx.maxBytes.toNat ≤
          positions (session batch driver ctx calls))

/- The positions as the region is meant to have them. -/
def resultsAfter
    (batch : Nat)
    (ctx : JwCtx)
    (calls : List Call) : Results :=
  Clocked.run (Results.call batch ctx.maxBytes.toNat)
    Results.empty calls

variable {driver : Driver} {s : Session} {a : Results}

theorem matches_session
    (hFit : Addressable batch ctx)
    (driver : Driver)
    (calls : List Call) :
    Matches batch ctx driver (session batch driver ctx calls)
      (resultsAfter batch ctx calls) := by
  have hRun : ∀ s a, Matches batch ctx driver s a →
      Matches batch ctx driver
        (Clocked.run (call batch driver) s calls)
        (Clocked.run (Results.call batch ctx.maxBytes.toNat) a
          calls) := by
    induction calls with
    | nil => exact fun s a hMatches => hMatches
    | cons c calls ih =>
        exact fun s a hMatches =>
          ih _ _ (matches_call hFit hMatches c)
  exact hRun _ _ (matches_init ctx)

/- The region shows what was synchronised. -/
theorem regionBytes_stored
    (hMatches : Matches batch ctx driver s a)
    (hFaultless : Faultless driver)
    {d : Disk}
    (hBlank : Blank batch ctx d) :
    (regionBytes batch ctx (d.after s.log)).filter shown =
      a.stored := by
  have hSynced := hMatches.ok.synced
  have hIn : a.synced ≤ regionSize batch ctx :=
    hSynced.trans hMatches.ok.fits
  rw [← Results.stored_eq hSynced hIn]
  congr 1
  apply List.map_congr_left
  intro p hp
  exact hMatches.shows hFaultless d hBlank p
    (List.mem_range.mp hp)

theorem kept_session (batch capacity : Nat)
    (calls : List Call) :
    Kept capacity (emitted calls)
      (Clocked.run (Results.call batch capacity) Results.empty
        calls).filled := by
  have hRun : ∀ (cs : List Byte) (a : Results),
      Kept capacity cs a.filled →
      Kept capacity (cs ++ emitted calls)
        (Clocked.run (Results.call batch capacity) a
          calls).filled := by
    induction calls with
    | nil =>
        intro cs a hKept
        simpa [emitted] using hKept
    | cons c calls ih =>
        intro cs a hKept
        have hCall : Kept capacity (cs ++ c.chars)
            (a.call batch capacity c).filled :=
          Results.kept_call hKept c
        have hNext := ih (cs ++ c.chars) _ hCall
        rw [List.append_assoc] at hNext
        exact hNext
  exact hRun [] Results.empty
    ⟨0, Nat.le_refl _, rfl, fun hLess => absurd hLess (by simp)⟩

/- Later calls lose nothing that was synchronised. -/
theorem grows_session
    (hFit : Addressable batch ctx)
    (calls more : List Call) :
    Results.Grows (resultsAfter batch ctx calls)
      (resultsAfter batch ctx (calls ++ more)) := by
  have hNow := (matches_session hFit (fun _ _ => 0#16)
    calls).ok
  have hStep : ∀ (b : Results) (c : Call),
      (b.Ok batch ctx.maxBytes.toNat ∧
        Results.Grows (resultsAfter batch ctx calls) b) →
      ((b.call batch ctx.maxBytes.toNat c).Ok batch
          ctx.maxBytes.toNat ∧
        Results.Grows (resultsAfter batch ctx calls)
          (b.call batch ctx.maxBytes.toNat c)) := by
    rintro b c ⟨hOk, hGrows⟩
    have hCall := Results.grows_call hFit.positive hOk c
    exact ⟨Results.ok_call hFit.positive hOk c,
      hGrows.1.trans hCall.1, hGrows.2.trans hCall.2⟩
  have hLater := Clocked.invariant_always hStep more
    ⟨hNow, List.prefix_refl _, Nat.le_refl _⟩
  unfold resultsAfter at hLater ⊢
  rw [Clocked.run_append]
  exact hLater.2

/- After a commit or a flush every position is. -/
theorem stored_of_syncs
    (calls : List Call)
    (hSyncs : ∃ c ∈ calls.getLast?, c.syncs = true) :
    (resultsAfter batch ctx calls).stored =
      (resultsAfter batch ctx calls).filled.filter shown := by
  rcases hSyncs with ⟨c, hLast, hSync⟩
  rcases List.getLast?_eq_some_iff.mp hLast with ⟨init, rfl⟩
  have hAll : (resultsAfter batch ctx (init ++ [c])).synced =
      (resultsAfter batch ctx (init ++ [c])).filled.length := by
    unfold resultsAfter
    rw [Clocked.run_append, Clocked.run_cons, Clocked.run_nil]
    cases c with
    | commitLine => rfl
    | flush => rfl
    | putc d => exact Bool.noConfusion hSync
    | puts cs => exact Bool.noConfusion hSync
    | putul v => exact Bool.noConfusion hSync
  rw [Results.stored, hAll, List.take_length]

theorem results_stored
    (hFit : Addressable batch ctx)
    (driver : Driver)
    (calls : List Call) :
    Stored batch driver ctx calls := by
  have hMatches := matches_session hFit driver calls
  refine ⟨hMatches.log.inside, roundUp_of_dvd hFit.positive,
    ?_, ?_, ?_⟩
  · rintro more ⟨e, hMem, hError⟩
    have hNow : Noted [] (session batch driver ctx calls) := by
      refine noted_run ⟨List.nil_prefix, ?_⟩ calls
      rintro ⟨e, hNone, -⟩
      exact absurd hNone List.not_mem_nil
    have hStart : Noted (session batch driver ctx calls).log
        (session batch driver ctx calls) :=
      ⟨List.prefix_refl _, hNow.2⟩
    have hLater : Noted (session batch driver ctx calls).log
        (Clocked.run (call batch driver)
          (session batch driver ctx calls) more) :=
      noted_run hStart more
    unfold session at hMem hLater ⊢
    rw [Clocked.run_append]
    exact hLater.2 ⟨e, hLater.1.subset hMem, hError⟩
  · intro hFaultless d hBlank more
    have hAfter := matches_session hFit driver (calls ++ more)
    rw [regionBytes_stored hMatches hFaultless hBlank,
      regionBytes_stored hAfter hFaultless hBlank]
    exact Results.stored_prefix hMatches.ok.synced
      (grows_session hFit calls more)
  · intro hFaultless d hBlank hSyncs
    rcases kept_session batch ctx.maxBytes.toNat calls with
      ⟨k, hk, hFilter, hCut⟩
    refine ⟨k, hk, ?_, ?_⟩
    · rw [regionBytes_stored hMatches hFaultless hBlank,
        stored_of_syncs calls hSyncs]
      exact hFilter
    · intro hLess
      have hSplit := Nat.div_add_mod
        (resultsAfter batch ctx calls).filled.length batch
      have hFull := hCut hLess
      rw [Nat.mul_comm] at hSplit
      rw [positions, hMatches.written, hMatches.used, hSplit]
      exact hFull

/- Two batches at the start of a medium. -/
def floppyCtx : JwCtx := ⟨0xFFFB#16, 1#16, 0#32, 1024#32⟩

def noErrors : Driver := fun _ _ => 0#16

/- `hi`, committed, then a number and a flush. -/
def lineCalls : List Call :=
  [.puts [0x68#8, 0x69#8], .commitLine, .putul 42#32, .flush]

theorem results_stored_line :
    Stored 512 noErrors floppyCtx lineCalls ∧
      ∃ k, k ≤ 4 ∧
        (regionBytes 512 floppyCtx (Disk.after (fun _ => 0#8)
          (session 512 noErrors floppyCtx
            lineCalls).log)).filter shown =
          ([0x68#8, 0x69#8, 0x34#8, 0x32#8].take k).filter
            shown ∧
        (k < 4 → 1024 ≤
          positions (session 512 noErrors floppyCtx
            lineCalls)) := by
  have hFit : Addressable 512 floppyCtx :=
    ⟨by decide, by decide, by decide⟩
  have hStored := results_stored hFit noErrors lineCalls
  have hEmitted : emitted lineCalls =
      [0x68#8, 0x69#8, 0x34#8, 0x32#8] := by
    simp [emitted, lineCalls, Call.chars]
  have hResults := hStored.results (fun _ _ => rfl)
    (fun _ => 0#8) (fun _ _ => rfl) ⟨.flush, rfl, rfl⟩
  rw [hEmitted] at hResults
  exact ⟨hStored, hResults⟩

/- A region that runs over the end of 32 bits. -/
def wrapCtx : JwCtx := ⟨0xFFFB#16, 1#16, 0xFFFFC000#32, 1#32⟩

theorem region_wraps :
    ¬ Stored 49152 noErrors wrapCtx
      [.putc 0x41#8, .commitLine] := by
  intro hStored
  have hLog : ∃ e ∈ (session 49152 noErrors wrapCtx
      [.putc 0x41#8, .commitLine]).log,
      e.request.posOffset = 0#32 := by
    simp [session, Clocked.run, call, jwPutc, jwInit, wrapCtx,
      jwCommitLine, writeCurrentBatch, driverWriteSector,
      driverWriteLoop, driverWriteChunk, noErrors, padBatch,
      jwBatchBytes]
  rcases hLog with ⟨e, hMem, hPos⟩
  have hInside := (hStored.inside e hMem).1
  rw [hPos] at hInside
  exact absurd hInside (by decide)

end Preboot
