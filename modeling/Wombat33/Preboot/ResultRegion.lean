import Wombat33.Preboot.JsonlWriter

/-
  What the results region is for: a stream of positions, each
  taken by a character or by the padding of a flush.

  The region shows the positions that were synchronised; with
  its zeros removed it is the beginning of the characters
  that were put, cut off only by the capacity.

  Key definitions include:
    * `roundUp`
    * `Results`, `Results.put`, `Results.flush`
    * `Results.content`

  Key theorems include:
    * `Results.kept_run`
    * `Results.stored_eq`
-/

------------------------------------------------------------
-- Whole Batches
------------------------------------------------------------

namespace Preboot

/- `n` bytes in whole batches. -/
def roundUp (batch n : Nat) : Nat :=
  (n + batch - 1) / batch * batch

variable {batch n q : Nat}

theorem le_roundUp (hBatch : 0 < batch) : n ≤ roundUp batch n := by
  have hMod := Nat.div_add_mod (n + batch - 1) batch
  have hLt := Nat.mod_lt (n + batch - 1) hBatch
  rw [Nat.mul_comm] at hMod
  unfold roundUp
  omega

/- A batch that starts below `n` ends within its batches. -/
theorem batch_le_roundUp
    (hBatch : 0 < batch)
    (hStart : q * batch < n) :
    q * batch + batch ≤ roundUp batch n := by
  have hNext : q + 1 ≤ (n + batch - 1) / batch := by
    rw [Nat.le_div_iff_mul_le hBatch, Nat.succ_mul]
    omega
  have hMul := Nat.mul_le_mul_right batch hNext
  rw [Nat.succ_mul] at hMul
  exact hMul

theorem dvd_roundUp (batch n : Nat) : batch ∣ roundUp batch n :=
  Nat.dvd_mul_left _ _

theorem roundUp_le
    {m : Nat}
    (hBatch : 0 < batch)
    (hWhole : batch ∣ m)
    (hLe : n ≤ m) :
    roundUp batch n ≤ m := by
  rcases hWhole with ⟨q, rfl⟩
  have hDiv : (n + batch - 1) / batch < q + 1 := by
    rw [Nat.div_lt_iff_lt_mul hBatch, Nat.succ_mul,
      Nat.mul_comm]
    omega
  rw [Nat.mul_comm]
  exact Nat.mul_le_mul_right batch (by omega)

theorem roundUp_of_dvd
    (hBatch : 0 < batch)
    (hWhole : batch ∣ n) :
    roundUp batch n = n :=
  Nat.le_antisymm (roundUp_le hBatch hWhole (Nat.le_refl n))
    (le_roundUp hBatch)

end Preboot

------------------------------------------------------------
-- Positions
------------------------------------------------------------

namespace Preboot

/- The positions taken, and how many are synchronised. -/
structure Results where
  filled : List Byte
  synced : Nat

namespace Results

variable (batch capacity : Nat) (a : Results)

def empty : Results := ⟨[], 0⟩

/- A batch that is full is synchronised at once. -/
def put (c : Byte) : Results :=
  if capacity ≤ a.filled.length then a
  else
    { filled := a.filled ++ [c]
      synced :=
        if batch ∣ a.filled.length + 1 then
          a.filled.length + 1
        else a.synced }

def commit : Results := ⟨a.filled, a.filled.length⟩

def padding : Nat :=
  roundUp batch a.filled.length - a.filled.length

def flush : Results :=
  commit
    { a with filled :=
        a.filled ++ List.replicate (a.padding batch) 0#8 }

def call (c : Call) : Results :=
  let a' := c.chars.foldl (put batch capacity) a
  match c with
  | .commitLine => a'.commit
  | .flush => a'.flush batch
  | _ => a'

/- The region's byte at a position. -/
def content (p : Nat) : Byte :=
  if p < a.synced then a.filled.getD p 0#8 else 0#8

end Results

end Preboot

------------------------------------------------------------
-- What Is Kept
------------------------------------------------------------

namespace Preboot

/- A zero in the region is no result. -/
def shown (c : Byte) : Bool := c != 0#8

/- The characters of a run of calls. -/
def emitted (calls : List Call) : List Byte :=
  calls.flatMap Call.chars

/-
  Without their zeros the positions are the beginning of the
  characters, all of them unless the capacity is used up.
-/
def Kept (capacity : Nat) (cs filled : List Byte) : Prop :=
  ∃ k, k ≤ cs.length ∧
    filled.filter shown = (cs.take k).filter shown ∧
    (k < cs.length → capacity ≤ filled.length)

namespace Results

variable {batch capacity : Nat} {a : Results}

def stored (a : Results) : List Byte :=
  (a.filled.take a.synced).filter shown

structure Ok (batch capacity : Nat) (a : Results) :
    Prop where
  synced : a.synced ≤ a.filled.length
  whole : a.filled.length / batch * batch ≤ a.synced
  fits : a.filled.length ≤ roundUp batch capacity

theorem ok_empty (batch capacity : Nat) :
    Ok batch capacity empty := by
  constructor <;> simp [empty]

theorem ok_put
    (hBatch : 0 < batch)
    (hOk : Ok batch capacity a)
    (c : Byte) :
    Ok batch capacity (a.put batch capacity c) := by
  have hWhole := hOk.whole
  have hSynced := hOk.synced
  unfold put
  split
  · exact hOk
  next hRoom =>
    have hUp := le_roundUp (n := capacity) hBatch
    by_cases hFull : batch ∣ a.filled.length + 1
    · have hDiv := Nat.div_mul_cancel hFull
      constructor <;> simp [hFull, hDiv]
      omega
    · have hSame : (a.filled.length + 1) / batch =
          a.filled.length / batch := Nat.succ_div_of_not_dvd hFull
      constructor <;> simp [hFull, hSame] <;> omega

theorem ok_commit (hOk : Ok batch capacity a) :
    Ok batch capacity a.commit :=
  ⟨Nat.le_refl _, Nat.div_mul_le_self _ _, hOk.fits⟩

theorem flush_length
    (hBatch : 0 < batch)
    (a : Results) :
    (a.flush batch).filled.length =
      roundUp batch a.filled.length := by
  have hUp := le_roundUp (n := a.filled.length) hBatch
  show (a.filled ++ List.replicate _ 0#8).length = _
  rw [List.length_append, List.length_replicate, padding]
  omega

theorem ok_flush
    (hBatch : 0 < batch)
    (hOk : Ok batch capacity a) :
    Ok batch capacity (a.flush batch) := by
  refine ⟨Nat.le_refl _, Nat.div_mul_le_self _ _, ?_⟩
  rw [flush_length hBatch]
  exact roundUp_le hBatch (dvd_roundUp batch capacity) hOk.fits

/- The calls that put characters put them one by one. -/
theorem invariant_call
    {P : Results → Prop}
    (hPut : ∀ b c, P b → P (b.put batch capacity c))
    (hCommit : ∀ b, P b → P b.commit)
    (hFlush : ∀ b, P b → P (b.flush batch))
    (hHolds : P a)
    (c : Call) :
    P (a.call batch capacity c) := by
  have hPuts : ∀ (cs : List Byte) (b : Results), P b →
      P (cs.foldl (put batch capacity) b) := by
    intro cs
    induction cs with
    | nil => exact fun b hB => hB
    | cons d cs ih => exact fun b hB => ih _ (hPut b d hB)
  cases c with
  | putc d => exact hPut a d hHolds
  | puts cs => exact hPuts _ a hHolds
  | putul v => exact hPuts _ a hHolds
  | commitLine => exact hCommit a hHolds
  | flush => exact hFlush a hHolds

theorem ok_call
    (hBatch : 0 < batch)
    (hOk : Ok batch capacity a)
    (c : Call) :
    Ok batch capacity (a.call batch capacity c) :=
  invariant_call (P := Ok batch capacity)
    (fun _ d hB => ok_put hBatch hB d)
    (fun _ hB => ok_commit hB) (fun _ hB => ok_flush hBatch hB)
    hOk c

/- One more character, and where it goes. -/
theorem kept_put
    {cs : List Byte}
    (hKept : Kept capacity cs a.filled)
    (c : Byte) :
    Kept capacity (cs ++ [c])
      (a.put batch capacity c).filled := by
  rcases hKept with ⟨k, hk, hFilter, hCut⟩
  unfold put
  split
  next hFull =>
    refine ⟨k, by simp; omega, ?_, fun _ => hFull⟩
    rw [List.take_append_of_le_length hk]
    exact hFilter
  next hRoom =>
    have hAll : k = cs.length := by
      by_contra hLess
      exact hRoom (hCut (by omega))
    refine ⟨k + 1, by simp [hAll], ?_, ?_⟩
    · rw [hAll, List.take_length] at hFilter
      rw [hAll, List.take_of_length_le (by simp),
        List.filter_append, List.filter_append, hFilter]
    · intro hLess
      simp [hAll] at hLess

theorem kept_puts
    {cs : List Byte}
    (hKept : Kept capacity cs a.filled)
    (ds : List Byte) :
    Kept capacity (cs ++ ds)
      (ds.foldl (put batch capacity) a).filled := by
  induction ds generalizing a cs with
  | nil => simpa using hKept
  | cons d ds ih =>
      have hPut : Kept capacity (cs ++ [d])
          (a.put batch capacity d).filled := kept_put hKept d
      have hNext := ih hPut
      rw [List.append_assoc] at hNext
      exact hNext

/- Padding takes positions, but shows nothing. -/
theorem kept_flush
    {cs : List Byte}
    (hKept : Kept capacity cs a.filled) :
    Kept capacity cs (a.flush batch).filled := by
  rcases hKept with ⟨k, hk, hFilter, hCut⟩
  refine ⟨k, hk, ?_, ?_⟩
  · show (a.filled ++ List.replicate _ 0#8).filter shown = _
    rw [List.filter_append, hFilter]
    simp [shown]
  · intro hLess
    have hFull := hCut hLess
    show capacity ≤ (a.filled ++ _).length
    rw [List.length_append]
    omega

theorem kept_call
    {cs : List Byte}
    (hKept : Kept capacity cs a.filled)
    (c : Call) :
    Kept capacity (cs ++ c.chars)
      (a.call batch capacity c).filled := by
  have hPuts : Kept capacity (cs ++ c.chars)
      (c.chars.foldl (put batch capacity) a).filled :=
    kept_puts hKept c.chars
  cases c with
  | putc d => exact hPuts
  | puts ds => exact hPuts
  | putul v => exact hPuts
  | commitLine => exact hPuts
  | flush => exact kept_flush hPuts

/- What was synchronised stays, and stays in place. -/
def Grows (a b : Results) : Prop :=
  a.filled <+: b.filled ∧ a.synced ≤ b.synced

theorem grows_call
    (hBatch : 0 < batch)
    (hOk : Ok batch capacity a)
    (c : Call) :
    Grows a (a.call batch capacity c) := by
  have hBoth : Ok batch capacity (a.call batch capacity c) ∧
      Grows a (a.call batch capacity c) := by
    refine invariant_call
      (P := fun b => Ok batch capacity b ∧ Grows a b)
      ?_ ?_ ?_ ⟨hOk, List.prefix_refl _, Nat.le_refl _⟩ c
    · rintro b d ⟨hB, hFilled, hSynced⟩
      refine ⟨ok_put hBatch hB d, ?_⟩
      have hLe := hB.synced
      unfold put
      split
      · exact ⟨hFilled, hSynced⟩
      · refine ⟨hFilled.trans (List.prefix_append _ _), ?_⟩
        have hNext : a.synced ≤ b.filled.length + 1 := by omega
        show a.synced ≤ if _ then _ else _
        split
        · exact hNext
        · exact hSynced
    · rintro b ⟨hB, hFilled, hSynced⟩
      exact ⟨ok_commit hB, hFilled, hSynced.trans hB.synced⟩
    · rintro b ⟨hB, hFilled, hSynced⟩
      refine ⟨ok_flush hBatch hB,
        hFilled.trans (List.prefix_append _ _), ?_⟩
      show a.synced ≤ (b.filled ++ _).length
      have hLe := hB.synced
      rw [List.length_append]
      omega
  exact hBoth.2

theorem stored_prefix
    {b : Results}
    (hSynced : a.synced ≤ a.filled.length)
    (hGrows : Grows a b) :
    a.stored <+: b.stored := by
  rcases hGrows with ⟨⟨rest, hFilled⟩, hLater⟩
  have hTake : a.filled.take a.synced =
      b.filled.take a.synced := by
    rw [← hFilled, List.take_append_of_le_length hSynced]
  unfold stored
  rw [hTake]
  exact (List.take_prefix_take_left hLater).filter shown

/- The region's bytes, and what they show. -/
theorem stored_eq
    {n : Nat}
    (hSynced : a.synced ≤ a.filled.length)
    (hIn : a.synced ≤ n) :
    ((List.range n).map a.content).filter shown =
      a.stored := by
  have hSplit : List.range n = List.range a.synced ++
      (List.range (n - a.synced)).map (a.synced + ·) := by
    rw [← List.range_add]
    congr 1
    omega
  have hHead : (List.range a.synced).map a.content =
      a.filled.take a.synced := by
    apply List.ext_getElem
    · simp [hSynced]
    · intro p hLeft hRight
      have hp : p < a.synced := by simpa using hLeft
      have hLength : p < a.filled.length := by omega
      simp [content, hp, hLength]
  have hTail : (((List.range (n - a.synced)).map
      (a.synced + ·)).map a.content).filter shown = [] := by
    rw [List.filter_eq_nil_iff]
    intro c hMem
    simp only [List.mem_map] at hMem
    rcases hMem with ⟨p, ⟨q, -, rfl⟩, rfl⟩
    simp [content, shown]
  rw [hSplit, List.map_append, List.filter_append, hHead,
    hTail, List.append_nil]
  rfl

end Results

end Preboot
