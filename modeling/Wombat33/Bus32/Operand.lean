import Wombat33.Bus32.Adapter

/-
  An operand as one or two beats.

  The shift networks of the adapter are compared with plain
  byte-memory loads and stores: on the write side the beats'
  lanes together are the operand's bytes, on the read side
  the merged streams are.

  Key theorems include:
    * `storeLanes_single`, `storeLanes_split`
    * `load_single`, `load_split`
-/

------------------------------------------------------------
-- Addresses and Lanes
------------------------------------------------------------

namespace Bus32

open Lanes

/- Distances from the first byte of an operand. -/
theorem distance_same {x a : BitVec 32}
    (hWord : word (w := 30) x = word (w := 30) a)
    (hLe : offset (w := 30) a ≤ offset (w := 30) x) :
    (x - a).toNat = offset (w := 30) x - offset (w := 30) a := by
  have hx := toNat_eq_word_offset (w := 30) x
  have ha := toNat_eq_word_offset (w := 30) a
  have hEq := congrArg BitVec.toNat hWord
  rw [BitVec.toNat_sub]
  omega

theorem distance_below {x a : BitVec 32}
    (hWord : word (w := 30) x = word (w := 30) a)
    (hLt : offset (w := 30) x < offset (w := 30) a) :
    4 ≤ (x - a).toNat := by
  have hx := toNat_eq_word_offset (w := 30) x
  have ha := toNat_eq_word_offset (w := 30) a
  have hEq := congrArg BitVec.toNat hWord
  have hOff := offset_lt (w := 30) a
  rw [BitVec.toNat_sub]
  omega

theorem distance_next {x a : BitVec 32}
    (hWord : word (w := 30) x = word (w := 30) a + 1) :
    (x - a).toNat =
      4 + offset (w := 30) x - offset (w := 30) a := by
  have hx := toNat_eq_word_offset (w := 30) x
  have ha := toNat_eq_word_offset (w := 30) a
  have hEq := congrArg BitVec.toNat hWord
  have hOff := offset_lt (w := 30) a
  have hOffx := offset_lt (w := 30) x
  rw [BitVec.toNat_add] at hEq
  rw [BitVec.toNat_sub]
  simp at hEq
  omega

theorem distance_other {x a : BitVec 32}
    (hSame : word (w := 30) x ≠ word (w := 30) a)
    (hNext : word (w := 30) x ≠ word (w := 30) a + 1) :
    4 ≤ (x - a).toNat := by
  have hx := toNat_eq_word_offset (w := 30) x
  have ha := toNat_eq_word_offset (w := 30) a
  have hNe : (word (w := 30) x).toNat ≠
      (word (w := 30) a).toNat :=
    fun h => hSame (BitVec.eq_of_toNat_eq h)
  have hNe' : (word (w := 30) x).toNat ≠
      (word (w := 30) a + 1).toNat :=
    fun h => hNext (BitVec.eq_of_toNat_eq h)
  have hOff := offset_lt (w := 30) a
  have hOffx := offset_lt (w := 30) x
  rw [BitVec.toNat_add] at hNe'
  rw [BitVec.toNat_sub]
  simp at hNe'
  omega

/- The enable of the lane at place `k`. -/
theorem getLsbD_lanes {start count k : Nat}
    (hStart : start < 4) (hCount : count ≤ 4) (hk : k < 4) :
    (lanes start count).getLsbD (3 - k) =
      decide (start ≤ k ∧ k < start + count) := by
  have hAll : ∀ start < 4, ∀ count < 5, ∀ k < 4,
      (lanes start count).getLsbD (3 - k) =
        decide (start ≤ k ∧ k < start + count) := by
    decide
  exact hAll start hStart count (by omega) k hk

/- Low bits moved to the top, as one shift. -/
theorem append_zero_eq_shift {k j : Nat} (d : BitVec (k + j)) :
    d.extractLsb' 0 k ++ 0#j = d <<< j := by
  apply BitVec.eq_of_getLsbD_eq
  intro b hb
  rw [BitVec.getLsbD_append, BitVec.getLsbD_shiftLeft]
  have hIn : b - j < k ∨ b < j := by omega
  rcases hIn with hIn | hIn <;> simp [hIn, hb]

theorem fWsh_eq (size : BitVec 2) (d : BitVec 32) :
    fWsh size d = d <<< (8 * (4 - fBytes size)) := by
  rcases offset_cases size with h | h | h | h
  · simpa [h, fWsh, fBytes] using @append_zero_eq_shift 8 24 d
  · simpa [h, fWsh, fBytes] using @append_zero_eq_shift 16 16 d
  · simp [h, fWsh, fBytes]
  · simp [h, fWsh, fBytes]

theorem fBytes_le (size : BitVec 2) : fBytes size ≤ 4 := by
  unfold fBytes
  split_ifs <;> omega

theorem fOff_eq (a : BitVec 32) :
    (fOff a).toNat = offset (w := 30) a := rfl

end Bus32

------------------------------------------------------------
-- Writes
------------------------------------------------------------

namespace Bus32

open Lanes

variable (m : Mem 30) (a d : BitVec 32) (size : BitVec 2)

/- The byte of an operand that belongs at place `k`. -/
theorem byte_fWsh {k : Nat} (hk : k < 4) :
    byte (3 - k) (fWsh size d) =
      if k < fBytes size then byte (fBytes size - 1 - k) d
      else 0#8 := by
  have hn := fBytes_le size
  rw [fWsh_eq, byte_shiftLeft _ _ _ (by omega)]
  have hSplit : 3 - k < 4 - fBytes size ↔ ¬ k < fBytes size := by
    omega
  have hIndex :
      3 - k - (4 - fBytes size) = fBytes size - 1 - k := by
    omega
  simp only [hSplit, hIndex, ite_not]

/- The byte a beat of the low part puts at place `k`. -/
theorem byte_fWsh_right {k o : Nat} (hk : k < 4)
    (hLow : o ≤ k) (hHigh : k < o + fBytes size) :
    byte (3 - k) (fWsh size d >>> (8 * o)) =
      byte (fBytes size - 1 - (k - o)) d := by
  have hIndex : 3 - k + o = 3 - (k - o) := by omega
  rw [byte_shiftRight, hIndex, byte_fWsh _ _ (by omega),
    if_pos (by omega)]

/- The byte the tail beat puts at place `k`. -/
theorem byte_fWsh_left {k o : Nat} (hk : k < 4) (ho : o < 4)
    (hHigh : 4 + k < o + fBytes size) :
    byte (3 - k) (fWsh size d <<< (8 * (4 - o))) =
      byte (fBytes size - 1 - (4 + k - o)) d := by
  have hn := fBytes_le size
  have hIndex : 3 - k - (4 - o) = 3 - (4 + k - o) := by omega
  rw [byte_shiftLeft _ _ _ (by omega), if_neg (by omega),
    hIndex, byte_fWsh _ _ (by omega), if_pos (by omega)]

/- One beat writes an operand that fits in its longword. -/
theorem storeLanes_single (hFits : fEnd size a ≤ 4) :
    storeLanes m (word (w := 30) a)
        (lanes (fOff a).toNat (fBytes size))
        (fWsh size d >>> (8 * (fOff a).toNat)) =
      store m a (fBytes size) d := by
  funext x
  have hx := offset_lt (w := 30) x
  have hn := fBytes_le size
  unfold fEnd at hFits
  rw [fOff_eq] at hFits ⊢
  simp only [storeLanes, store,
    getLsbD_lanes (offset_lt (w := 30) a) hn hx,
    decide_eq_true_eq]
  by_cases hWord : word (w := 30) x = word (w := 30) a
  · by_cases hBelow :
        offset (w := 30) x < offset (w := 30) a
    · have hFar := distance_below hWord hBelow
      rw [if_neg (by omega), if_neg (by omega)]
    · have hNear := distance_same hWord (by omega)
      rw [hNear]
      by_cases hIn : offset (w := 30) x <
          offset (w := 30) a + fBytes size
      · rw [if_pos ⟨hWord, by omega, hIn⟩, if_pos (by omega),
          byte_fWsh_right _ _ hx (by omega) hIn]
      · rw [if_neg (by omega), if_neg (by omega)]
  · have hOut : ¬ (x - a).toNat < fBytes size := by
      by_cases hNext :
          word (w := 30) x = word (w := 30) a + 1
      · have hNear := distance_next hNext
        omega
      · have hFar := distance_other hWord hNext
        omega
    rw [if_neg (fun h => hWord h.1), if_neg hOut]

/- Two beats write an operand that crosses its longword. -/
theorem storeLanes_split (hSplit : 4 < fEnd size a) :
    storeLanes
        (storeLanes m (word (w := 30) a)
          (lanes (fOff a).toNat (4 - (fOff a).toNat))
          (fWsh size d >>> (8 * (fOff a).toNat)))
        (word (w := 30) a + 1)
        (lanes 0 (fEnd size a - 4))
        (fWsh size d <<< (8 * (4 - (fOff a).toNat))) =
      store m a (fBytes size) d := by
  funext x
  have hx := offset_lt (w := 30) x
  have ha := offset_lt (w := 30) a
  have hn := fBytes_le size
  have hNe : word (w := 30) a ≠ word (w := 30) a + 1 := by
    intro h
    have hNat := congrArg BitVec.toNat h
    rw [BitVec.toNat_add] at hNat
    simp at hNat
    omega
  unfold fEnd at hSplit ⊢
  rw [fOff_eq] at hSplit ⊢
  have hLanes₀ :=
    @getLsbD_lanes (offset (w := 30) a)
      (4 - offset (w := 30) a) _ ha (by omega) hx
  have hLanes₁ :=
    @getLsbD_lanes 0
      (offset (w := 30) a + fBytes size - 4) _
      (by omega) (by omega) hx
  simp only [storeLanes, store, hLanes₀, hLanes₁,
    decide_eq_true_eq]
  by_cases hNext : word (w := 30) x = word (w := 30) a + 1
  · have hNear := distance_next hNext
    rw [hNear]
    by_cases hIn : 4 + offset (w := 30) x <
        offset (w := 30) a + fBytes size
    · rw [if_pos ⟨hNext, by omega, by omega⟩, if_pos (by omega),
        byte_fWsh_left _ _ hx ha hIn]
    · rw [if_neg (by omega), if_neg (by
        rw [hNext]
        exact fun h => hNe h.1.symm), if_neg (by omega)]
  · rw [if_neg (fun h => hNext h.1)]
    by_cases hWord : word (w := 30) x = word (w := 30) a
    · by_cases hBelow :
          offset (w := 30) x < offset (w := 30) a
      · have hFar := distance_below hWord hBelow
        rw [if_neg (by omega), if_neg (by omega)]
      · have hNear := distance_same hWord (by omega)
        rw [hNear, if_pos ⟨hWord, by omega, by omega⟩,
          if_pos (by omega),
          byte_fWsh_right _ _ hx (by omega) (by omega)]
    · have hFar := distance_other hWord hNext
      rw [if_neg (fun h => hWord h.1), if_neg (by omega)]

end Bus32

------------------------------------------------------------
-- Reads
------------------------------------------------------------

namespace Bus32

open Lanes

variable (m : Mem 30) (a : BitVec 32) (size : BitVec 2)

/- The byte at distance `j` from the operand's first one. -/
theorem byte_loadWord_same {j : Nat}
    (hIn : offset (w := 30) a + j < 4) :
    byte (3 - (offset (w := 30) a + j))
        (loadWord m (word (w := 30) a)) =
      m (a + BitVec.ofNat 32 j) := by
  have ha := toNat_eq_word_offset (w := 30) a
  have hx :=
    toNat_eq_word_offset (w := 30) (a + BitVec.ofNat 32 j)
  have hoff := offset_lt (w := 30) (a + BitVec.ofNat 32 j)
  have hLt := (word (w := 30) a).isLt
  rw [BitVec.toNat_add, BitVec.toNat_ofNat] at hx
  have hWord :
      word (w := 30) (a + BitVec.ofNat 32 j) =
        word (w := 30) a :=
    BitVec.eq_of_toNat_eq (by omega)
  have hOffset :
      offset (w := 30) (a + BitVec.ofNat 32 j) =
        offset (w := 30) a + j := by
    omega
  rw [← hWord, ← hOffset]
  exact byte_loadWord (w := 30) m _

theorem byte_loadWord_next {j : Nat} (hj : j < 4)
    (hOut : 4 ≤ offset (w := 30) a + j) :
    byte (3 - (offset (w := 30) a + j - 4))
        (loadWord m (word (w := 30) a + 1)) =
      m (a + BitVec.ofNat 32 j) := by
  have ha := toNat_eq_word_offset (w := 30) a
  have hx :=
    toNat_eq_word_offset (w := 30) (a + BitVec.ofNat 32 j)
  have hoff := offset_lt (w := 30) (a + BitVec.ofNat 32 j)
  have hoff' := offset_lt (w := 30) a
  have hNext :
      (word (w := 30) a + 1).toNat =
        ((word (w := 30) a).toNat + 1) % 1073741824 := by
    rw [BitVec.toNat_add]
    rfl
  rw [BitVec.toNat_add, BitVec.toNat_ofNat] at hx
  have hWord :
      word (w := 30) (a + BitVec.ofNat 32 j) =
        word (w := 30) a + 1 :=
    BitVec.eq_of_toNat_eq (by omega)
  have hOffset :
      offset (w := 30) (a + BitVec.ofNat 32 j) =
        offset (w := 30) a + j - 4 := by
    omega
  rw [← hWord, ← hOffset]
  exact byte_loadWord (w := 30) m _

/- One beat reads an operand that fits in its longword. -/
theorem load_single (hFits : fEnd size a ≤ 4) :
    (loadWord m (word (w := 30) a) <<<
        (8 * (fOff a).toNat)) >>>
        (8 * (4 - fBytes size)) =
      load m a (fBytes size) := by
  have hn := fBytes_le size
  unfold fEnd at hFits
  rw [fOff_eq] at hFits ⊢
  apply ext_bytes
  intro k hk
  rw [byte_shiftRight, byte_load (w := 30) _ _ _ _ hk]
  split
  next hIn =>
      have hIndex :
          k + (4 - fBytes size) - offset (w := 30) a =
            3 - (offset (w := 30) a +
              (fBytes size - 1 - k)) := by
        omega
      rw [byte_shiftLeft _ _ _ (by omega), if_neg (by omega),
        hIndex, byte_loadWord_same _ _ (by omega)]
  next hOut => exact byte_of_ge _ (by omega)

/- Two beats read an operand that crosses its longword. -/
theorem load_split (hSplit : 4 < fEnd size a) :
    (loadWord m (word (w := 30) a) <<<
          (8 * (fOff a).toNat) |||
        loadWord m (word (w := 30) a + 1) >>>
          (8 * (4 - (fOff a).toNat))) >>>
        (8 * (4 - fBytes size)) =
      load m a (fBytes size) := by
  have hn := fBytes_le size
  have ha := offset_lt (w := 30) a
  unfold fEnd at hSplit
  rw [fOff_eq] at hSplit ⊢
  apply ext_bytes
  intro k hk
  rw [byte_shiftRight, byte_load (w := 30) _ _ _ _ hk]
  split
  next hIn =>
      rw [byte_or, byte_shiftLeft _ _ _ (by omega),
        byte_shiftRight]
      by_cases hLow :
          k + (4 - fBytes size) < offset (w := 30) a
      · have hIndex :
            k + (4 - fBytes size) + (4 - offset (w := 30) a) =
              3 - (offset (w := 30) a +
                (fBytes size - 1 - k) - 4) := by
          omega
        rw [if_pos hLow, hIndex,
          byte_loadWord_next _ _ (by omega) (by omega)]
        simp
      · have hIndex :
            k + (4 - fBytes size) - offset (w := 30) a =
              3 - (offset (w := 30) a +
                (fBytes size - 1 - k)) := by
          omega
        rw [if_neg hLow, hIndex,
          byte_loadWord_same _ _ (by omega),
          byte_of_ge _ (by omega)]
        simp
  next hOut => exact byte_of_ge _ (by omega)

end Bus32
