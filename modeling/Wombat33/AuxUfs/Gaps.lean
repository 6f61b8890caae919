import Mathlib.Data.List.ReduceOption

/-
  Lists with gaps.

  A list of optional entries can be read with a default in
  each gap, or with the gaps left out.  The first gap shifts
  every later entry, so the two readings begin alike exactly
  when they show nothing but the default from there on.

  Key definitions include:
    * `Gaps.fill`, `Gaps.lead`

  Key theorems include:
    * `Gaps.take_eq_iff_entries`
    * `Gaps.getElem?_flatMap`
    * `Gaps.getElem?_flatten`
-/

namespace Gaps

variable {α : Type}

/- The entries, with a default in the gaps. -/
def fill (z : α) (l : List (Option α)) : List α :=
  l.map fun x => x.getD z

/- The number of entries before the first gap. -/
def lead (l : List (Option α)) : Nat :=
  (l.takeWhile Option.isSome).length

@[simp] theorem length_fill (z : α) (l : List (Option α)) :
    (fill z l).length = l.length := by
  simp [fill]

theorem fill_append (z : α) (l m : List (Option α)) :
    fill z (l ++ m) = fill z l ++ fill z m := by
  simp [fill]

/- Without the gaps an entry comes earlier. -/
theorem reduce_earlier
    {l : List (Option α)}
    {j : Nat}
    {b : α}
    (hEntry : l[j]? = some (some b)) :
    l.reduceOption[(l.take j).reduceOption.length]? = some b := by
  have hj : j < l.length := by
    rcases List.getElem?_eq_some_iff.mp hEntry with ⟨hj, -⟩
    exact hj
  have hHere : l[j] = some b := by
    rw [List.getElem?_eq_getElem hj] at hEntry
    exact Option.some.inj hEntry
  have hSplit : l = l.take j ++ some b :: l.drop (j + 1) := by
    rw [← hHere, List.getElem_cons_drop, List.take_append_drop]
  have hReduce : l.reduceOption = (l.take j).reduceOption ++
      b :: (l.drop (j + 1)).reduceOption := by
    conv_lhs => rw [hSplit]
    rw [List.reduceOption_append,
      List.reduceOption_cons_of_some]
  rw [hReduce, List.getElem?_append_right (Nat.le_refl _),
    Nat.sub_self]
  rfl

theorem getElem?_fill
    (z : α)
    {l : List (Option α)}
    {j : Nat}
    {x : Option α}
    (hEntry : l[j]? = some x) :
    (fill z l)[j]? = some (x.getD z) := by
  simp [fill, hEntry]

/- Behind a gap the two readings agree on the default only. -/
theorem default_of_eq
    {z : α}
    {l : List (Option α)}
    {n : Nat}
    (hEq : (none :: l).reduceOption.take n =
      (fill z (none :: l)).take n)
    (j : Nat)
    (hj : j < n)
    (hIn : j < (none :: l).length) :
    (fill z (none :: l))[j]? = some z := by
  induction j using Nat.strongRecOn with
  | ind j ih =>
      have hEntry := List.getElem?_eq_getElem hIn
      cases hValue : (none :: l)[j] with
      | none =>
          rw [hValue] at hEntry
          exact getElem?_fill z hEntry
      | some b =>
          rw [hValue] at hEntry
          have hFirst : 0 < j := by
            rcases Nat.eq_zero_or_pos j with rfl | hPos
            · simp at hEntry
            · exact hPos
          have hGap : none ∈ (none :: l).take j := by
            rcases Nat.exists_eq_succ_of_ne_zero
              (Nat.ne_of_gt hFirst) with ⟨k, rfl⟩
            simp
          have hBefore : ((none :: l).take j).reduceOption.length
              < j := by
            have hLess := List.reduceOption_length_lt_iff.mpr hGap
            rw [List.length_take] at hLess
            omega
          have hEarlier := reduce_earlier hEntry
          have hDefault := ih _ hBefore (by omega) (by omega)
          have hSame := congrArg
            (fun m => m[((none :: l).take j).reduceOption.length]?)
            hEq
          have hLess : ((none :: l).take j).reduceOption.length
              < n := by omega
          simp only [List.getElem?_take, hLess, if_true] at hSame
          rw [hEarlier, hDefault] at hSame
          rw [getElem?_fill z hEntry]
          exact hSame

/-
  The readings begin alike for `n` entries exactly when there
  are as many without the gaps, and neither reading has
  anything but the default behind the first gap.
-/
theorem take_eq_iff (z : α) (l : List (Option α)) (n : Nat) :
    (n ≤ l.length ∧ l.reduceOption.take n = (fill z l).take n) ↔
      n ≤ l.reduceOption.length ∧
        (∀ x ∈ (l.reduceOption.take n).drop (lead l), x = z) ∧
        ∀ x ∈ ((fill z l).take n).drop (lead l), x = z := by
  have hShorter := List.reduceOption_length_le l
  induction l generalizing n with
  | nil => simp [fill]
  | cons a l ih =>
      cases a with
      | some a =>
          cases n with
          | zero => simp
          | succ n =>
              have hRest := ih n (List.reduceOption_length_le l)
              simp only [List.length_cons,
                Nat.add_le_add_iff_right,
                List.reduceOption_cons_of_some, fill, lead,
                List.map_cons, Option.getD_some,
                List.take_succ_cons, List.cons.injEq, true_and,
                Option.isSome_some, List.takeWhile_cons_of_pos,
                List.drop_succ_cons]
              exact hRest
      | none =>
          have hLead : lead (none :: l) = 0 := by simp [lead]
          rw [hLead, List.drop_zero, List.drop_zero]
          constructor
          · rintro ⟨hIn, hEq⟩
            have hFill : ∀ x ∈ (fill z (none :: l)).take n,
                x = z := by
              intro x hMem
              rcases List.mem_iff_getElem?.mp hMem with ⟨j, hj⟩
              rw [List.getElem?_take] at hj
              split at hj
              next hLess =>
                have hDefault := default_of_eq hEq j hLess
                  (by omega)
                rw [hDefault] at hj
                exact (Option.some.inj hj).symm
              next => simp at hj
            refine ⟨?_, hEq ▸ hFill, hFill⟩
            have hLength := congrArg List.length hEq
            rw [List.length_take, List.length_take,
              length_fill] at hLength
            omega
          · rintro ⟨hIn, hReduce, hFill⟩
            refine ⟨by omega, ?_⟩
            have hLeft := List.eq_replicate_of_mem hReduce
            have hRight := List.eq_replicate_of_mem hFill
            rw [hLeft, hRight, List.length_take,
              List.length_take, length_fill]
            congr 1
            omega

theorem lead_le (l : List (Option α)) :
    lead l ≤ l.reduceOption.length := by
  induction l with
  | nil => simp [lead]
  | cons a l ih =>
      cases a with
      | none => simp [lead]
      | some a =>
          unfold lead at ih ⊢
          simpa using ih

/- The same, entry by entry. -/
theorem take_eq_iff_entries
    (z : α)
    (l : List (Option α))
    (n : Nat) :
    (n ≤ l.length ∧ l.reduceOption.take n = (fill z l).take n) ↔
      ∀ j, lead l ≤ j → j < n →
        (fill z l)[j]? = some z ∧
          l.reduceOption[j]? = some z := by
  have hLead := lead_le l
  have hShorter := List.reduceOption_length_le l
  have hEntries : ∀ m : List α, n ≤ m.length →
      ((∀ x ∈ (m.take n).drop (lead l), x = z) ↔
        ∀ j, lead l ≤ j → j < n → m[j]? = some z) := by
    intro m hLength
    constructor
    · intro hAll j hLow hHigh
      have hIn : j < m.length := by omega
      rw [List.getElem?_eq_getElem hIn]
      congr 1
      apply hAll
      apply List.mem_iff_getElem?.mpr
      refine ⟨j - lead l, ?_⟩
      have hIndex : lead l + (j - lead l) = j := by omega
      rw [List.getElem?_drop, hIndex, List.getElem?_take,
        if_pos hHigh, List.getElem?_eq_getElem hIn]
    · intro hAll x hMem
      rcases List.mem_iff_getElem?.mp hMem with ⟨j, hj⟩
      rw [List.getElem?_drop, List.getElem?_take] at hj
      split at hj
      next hLess =>
        rw [hAll _ (Nat.le_add_right _ _) hLess] at hj
        exact (Option.some.inj hj).symm
      next => simp at hj
  rw [take_eq_iff]
  constructor
  · rintro ⟨hLength, hReduce, hFill⟩ j hLow hHigh
    have hIn : n ≤ (fill z l).length := by
      rw [length_fill]
      omega
    exact ⟨(hEntries _ hIn).mp hFill j hLow hHigh,
      (hEntries _ hLength).mp hReduce j hLow hHigh⟩
  · intro hAll
    have hLength : n ≤ l.reduceOption.length := by
      by_contra hShort
      have hLast := (hAll (n - 1) (by omega) (by omega)).2
      rcases List.getElem?_eq_some_iff.mp hLast with ⟨hIn, -⟩
      omega
    have hIn : n ≤ (fill z l).length := by
      rw [length_fill]
      omega
    refine ⟨hLength, ?_, ?_⟩
    · exact (hEntries _ hLength).mpr
        fun j hLow hHigh => (hAll j hLow hHigh).2
    · exact (hEntries _ hIn).mpr
        fun j hLow hHigh => (hAll j hLow hHigh).1

/- Lists of one length side by side, by index. -/
theorem getElem?_flatMap
    {f : Nat → List α}
    {size : Nat}
    (hSize : ∀ k, (f k).length = size)
    (count n : Nat)
    (hn : n < count * size) :
    ((List.range count).flatMap f)[n]? =
      (f (n / size))[n % size]? := by
  have hPos : 0 < size := by
    rcases Nat.eq_zero_or_pos size with rfl | hPos
    · simp at hn
    · exact hPos
  have hLength : ∀ c, ((List.range c).flatMap f).length =
      c * size := by
    intro c
    induction c with
    | zero => simp
    | succ c ih =>
        rw [List.range_succ, List.flatMap_append,
          List.length_append, ih, Nat.succ_mul]
        simp [hSize]
  induction count with
  | zero => simp at hn
  | succ count ih =>
      rw [List.range_succ, List.flatMap_append]
      by_cases hBefore : n < count * size
      · rw [List.getElem?_append_left
          (by rw [hLength]; exact hBefore)]
        exact ih hBefore
      · rw [Nat.succ_mul] at hn
        have hUnique : n / size = count ∧
            n % size = n - count * size := by
          rw [Nat.div_mod_unique hPos, Nat.mul_comm size count]
          omega
        rw [List.getElem?_append_right
          (by rw [hLength]; omega), hLength,
          hUnique.1, hUnique.2]
        simp

/- Only the chunks before must have the common length. -/
theorem getElem?_flatten
    {size : Nat}
    {chunks : List (List α)}
    {n j : Nat}
    {chunk : List α}
    (hChunk : chunks[n]? = some chunk)
    (hBefore : ∀ b ∈ chunks.take n, b.length = size)
    (hj : j < chunk.length) :
    chunks.flatten[n * size + j]? = chunk[j]? := by
  induction chunks generalizing n with
  | nil => simp at hChunk
  | cons d chunks ih =>
      cases n with
      | zero =>
          have hSame : d = chunk := by simpa using hChunk
          rw [hSame, Nat.zero_mul, Nat.zero_add,
            List.flatten_cons, List.getElem?_append_left hj]
      | succ n =>
          have hHead : d.length = size := hBefore d (by simp)
          have hRest := ih (n := n) (by simpa using hChunk)
            (fun b hMem => hBefore b (by simp [hMem]))
          rw [List.flatten_cons, List.getElem?_append_right
            (by rw [Nat.succ_mul]; omega), ← hRest, hHead]
          congr 1
          rw [Nat.succ_mul]
          omega

end Gaps
