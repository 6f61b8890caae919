import Mathlib.Logic.Function.Basic
import Mathlib.Tactic.SplitIfs

/-
  Byte-addressable memory behind a longword port.

  A longword carries its bytes big-endian: the byte at the
  lowest address is in the highest lane.  An operand of up to
  four bytes is right-aligned in a longword.

  Key definitions include:
    * `Lanes.byte`
    * `Lanes.load`, `Lanes.store`
    * `Lanes.loadWord`, `Lanes.storeLanes`

  Key theorems include:
    * `Lanes.load_store_same`
    * `Lanes.byte_loadWord`
-/

------------------------------------------------------------
-- Bytes of a Longword
------------------------------------------------------------

namespace Lanes

/- The `k`-th byte of a longword, counted from the right. -/
def byte (k : Nat) (d : BitVec 32) : BitVec 8 :=
  d.extractLsb' (8 * k) 8

theorem byte_shiftLeft (k j : Nat) (d : BitVec 32)
    (hk : k < 4) :
    byte k (d <<< (8 * j)) =
      if k < j then 0#8 else byte (k - j) d := by
  apply BitVec.eq_of_getLsbD_eq
  intro b hb
  split
  next hLow =>
      simp [byte]
      omega
  next hHigh =>
      have hIndex : 8 * k + b - 8 * j = 8 * (k - j) + b := by
        omega
      simp [byte, hb, hIndex]
      omega

theorem byte_shiftRight (k j : Nat) (d : BitVec 32) :
    byte k (d >>> (8 * j)) = byte (k + j) d := by
  apply BitVec.eq_of_getLsbD_eq
  intro b hb
  have hIndex : 8 * j + (8 * k + b) = 8 * (k + j) + b := by
    omega
  simp [byte, hb, hIndex]

theorem byte_or (k : Nat) (d e : BitVec 32) :
    byte k (d ||| e) = byte k d ||| byte k e := by
  apply BitVec.eq_of_getLsbD_eq
  intro b hb
  simp [byte, hb]

/- A longword has no fifth byte. -/
theorem byte_of_ge {k : Nat} (d : BitVec 32) (hk : 4 ≤ k) :
    byte k d = 0#8 := by
  apply BitVec.eq_of_getLsbD_eq
  intro b hb
  have hIndex : 32 ≤ 8 * k + b := by omega
  simp [byte, hb, hIndex]

/- Two longwords with the same four bytes are equal. -/
theorem ext_bytes {d e : BitVec 32}
    (hBytes : ∀ k < 4, byte k d = byte k e) : d = e := by
  apply BitVec.eq_of_getLsbD_eq
  intro b hb
  have hByte := congrArg (fun x => x.getLsbD (b % 8))
    (hBytes (b / 8) (by omega))
  have hIndex : 8 * (b / 8) + b % 8 = b := by omega
  have hBit : b % 8 < 8 := by omega
  simpa [byte, hIndex, hBit] using hByte

end Lanes

------------------------------------------------------------
-- Operands in Memory
------------------------------------------------------------

namespace Lanes

variable {w : Nat}

/- A byte memory of `2 ^ w` longwords. -/
abbrev Mem (w : Nat) := BitVec (w + 2) → BitVec 8

/- The `n` bytes at `a`, big-endian and right-aligned. -/
def load (m : Mem w) (a : BitVec (w + 2)) :
    Nat → BitVec 32
  | 0 => 0#32
  | n + 1 =>
      load m a n <<< 8 |||
        (m (a + BitVec.ofNat (w + 2) n)).setWidth 32

/- The memory with the low `n` bytes of `d` put at `a`. -/
def store (m : Mem w) (a : BitVec (w + 2)) (n : Nat)
    (d : BitVec 32) : Mem w :=
  fun x =>
    if (x - a).toNat < n then byte (n - 1 - (x - a).toNat) d
    else m x

/- The low `n` bytes of a longword, zero-extended. -/
def operand (n : Nat) (d : BitVec 32) : BitVec 32 :=
  (d.setWidth (8 * n)).setWidth 32

theorem byte_operand (k n : Nat) (d : BitVec 32)
    (hn : n ≤ 4) :
    byte k (operand n d) = if k < n then byte k d else 0#8 := by
  apply BitVec.eq_of_getLsbD_eq
  intro b hb
  split
  next hLow =>
      have hIndex : 8 * k + b < 32 := by omega
      have hIndex' : 8 * k + b < 8 * n := by omega
      simp [operand, byte, hb, hIndex, hIndex']
  next hHigh =>
      have hIndex : ¬ 8 * k + b < 8 * n := by omega
      simp [operand, byte, hIndex]

theorem byte_setWidth (k : Nat) (b : BitVec 8) :
    byte k (b.setWidth 32) = if k = 0 then b else 0#8 := by
  apply BitVec.eq_of_getLsbD_eq
  intro j hj
  split
  next hZero =>
      have hIndex : j < 32 := by omega
      simp [byte, hZero, hj, hIndex]
  next hPos =>
      have hIndex : 8 ≤ 8 * k + j := by omega
      simp [byte, hIndex]

theorem byte_load (m : Mem w) (a : BitVec (w + 2))
    (k n : Nat) (hk : k < 4) :
    byte k (load m a n) =
      if k < n then m (a + BitVec.ofNat (w + 2) (n - 1 - k))
      else 0#8 := by
  induction n generalizing k with
  | zero => simp [load, byte]
  | succ n ih =>
      have hShift := byte_shiftLeft k 1 (load m a n) hk
      simp only [Nat.mul_one] at hShift
      rw [load, byte_or, hShift, byte_setWidth]
      rcases Nat.eq_zero_or_pos k with hZero | hPos
      · simp [hZero]
      · have hOne : ¬ k < 1 := by omega
        have hNe : k ≠ 0 := by omega
        have hIndex : n - 1 - (k - 1) = n - k := by omega
        have hLess : k - 1 < n ↔ k < n + 1 := by omega
        simp [hOne, hNe, ih (k - 1) (by omega), hIndex, hLess]

/- What was stored is what is loaded. -/
theorem load_store_same (m : Mem w) (a : BitVec (w + 2))
    (d : BitVec 32) {n : Nat} (hn : n ≤ 4) :
    load (store m a n d) a n = operand n d := by
  apply ext_bytes
  intro k hk
  rw [byte_load _ _ _ _ hk, byte_operand _ _ _ hn]
  split
  next hLess =>
      have hWrap : n - 1 - k < 2 ^ (w + 2) := by
        have hFour : 4 ≤ 2 ^ (w + 2) := by
          rw [Nat.pow_add]
          exact Nat.le_mul_of_pos_left _ (Nat.two_pow_pos w)
        omega
      have hDistance :
          (a + BitVec.ofNat (w + 2) (n - 1 - k) - a).toNat =
            n - 1 - k := by
        rw [BitVec.add_comm, BitVec.add_sub_cancel,
          BitVec.toNat_ofNat, Nat.mod_eq_of_lt hWrap]
      have hBack : n - 1 - (n - 1 - k) = k := by omega
      have hIn : n - 1 - k < n := by omega
      simp only [store, hDistance, hBack, hIn, if_true]
  next => rfl

end Lanes

------------------------------------------------------------
-- The Longword Port
------------------------------------------------------------

namespace Lanes

variable {w : Nat}

/- The longword an address lies in, and its place there. -/
def word (x : BitVec (w + 2)) : BitVec w := x.extractLsb' 2 w

def offset (x : BitVec (w + 2)) : Nat :=
  (x.extractLsb' 0 2).toNat

/- Four bytes side by side, the first one highest. -/
def ofBytes (b₀ b₁ b₂ b₃ : BitVec 8) : BitVec 32 :=
  b₀.setWidth 32 <<< 24 ||| b₁.setWidth 32 <<< 16 |||
    b₂.setWidth 32 <<< 8 ||| b₃.setWidth 32

/- The four bytes of a longword, lowest address first. -/
def loadWord (m : Mem w) (a : BitVec w) : BitVec 32 :=
  ofBytes (m (a ++ 0#2)) (m (a ++ 1#2)) (m (a ++ 2#2))
    (m (a ++ 3#2))

/-
  The memory with the enabled lanes of `d` put in longword
  `a`; the highest enable bit belongs to the lowest address.
-/
def storeLanes (m : Mem w) (a : BitVec w) (be : BitVec 4)
    (d : BitVec 32) : Mem w :=
  fun x =>
    if word x = a ∧ be.getLsbD (3 - offset x) then
      byte (3 - offset x) d
    else m x

theorem offset_lt (x : BitVec (w + 2)) : offset x < 4 := by
  unfold offset
  omega

theorem high_append {v w : Nat} (h : BitVec v) (l : BitVec w) :
    (h ++ l).extractLsb' w v = h := by
  rw [BitVec.extractLsb'_append_eq_of_le (Nat.le_refl w)]
  simp

theorem low_append {v w : Nat} (h : BitVec v) (l : BitVec w) :
    (h ++ l).extractLsb' 0 w = l := by
  rw [BitVec.extractLsb'_append_eq_of_add_le (by omega)]
  simp

theorem word_append (a : BitVec w) (o : BitVec 2) :
    word (a ++ o) = a :=
  high_append a o

theorem toNat_eq_word_offset (x : BitVec (w + 2)) :
    x.toNat = 4 * (word x).toNat + offset x := by
  have hLt : x.toNat / 2 ^ 2 < 2 ^ w := by
    have hPow : 2 ^ (w + 2) = 2 ^ 2 * 2 ^ w := by
      rw [Nat.pow_add, Nat.mul_comm]
    exact Nat.div_lt_of_lt_mul (hPow ▸ x.isLt)
  simp only [word, offset, BitVec.extractLsb'_toNat,
    Nat.shiftRight_eq_div_pow, Nat.mod_eq_of_lt hLt]
  omega

/- The bytes of a longword, by lane. -/
theorem byte_ofBytes (b₀ b₁ b₂ b₃ : BitVec 8) :
    byte 3 (ofBytes b₀ b₁ b₂ b₃) = b₀ ∧
      byte 2 (ofBytes b₀ b₁ b₂ b₃) = b₁ ∧
      byte 1 (ofBytes b₀ b₁ b₂ b₃) = b₂ ∧
      byte 0 (ofBytes b₀ b₁ b₂ b₃) = b₃ := by
  have hShift₁ := fun k hk d => byte_shiftLeft k 1 d hk
  have hShift₂ := fun k hk d => byte_shiftLeft k 2 d hk
  have hShift₃ := fun k hk d => byte_shiftLeft k 3 d hk
  simp [ofBytes, byte_or, byte_setWidth, hShift₁, hShift₂,
    hShift₃]

/- The bytes of four appended ones, by lane. -/
theorem byte_append (b₃ b₂ b₁ b₀ : BitVec 8) :
    byte 3 (b₃ ++ b₂ ++ b₁ ++ b₀) = b₃ ∧
      byte 2 (b₃ ++ b₂ ++ b₁ ++ b₀) = b₂ ∧
      byte 1 (b₃ ++ b₂ ++ b₁ ++ b₀) = b₁ ∧
      byte 0 (b₃ ++ b₂ ++ b₁ ++ b₀) = b₀ := by
  refine ⟨?_, ?_, ?_, ?_⟩
  all_goals
    apply BitVec.eq_of_getLsbD_eq
    intro k hk
    simp only [byte, BitVec.getLsbD_extractLsb',
      BitVec.getLsbD_append, hk, decide_true, Bool.true_and]
    grind

theorem offset_cases (o : BitVec 2) :
    o = 0#2 ∨ o = 1#2 ∨ o = 2#2 ∨ o = 3#2 := by
  decide +revert

/- An address is its longword and its place there. -/
theorem word_append_place (x : BitVec (w + 2)) :
    word x ++ x.extractLsb' 0 2 = x := by
  apply BitVec.eq_of_getLsbD_eq
  intro b hb
  rw [BitVec.getLsbD_append]
  split
  next hLow => simp [hLow]
  next hHigh =>
      have hIndex : 2 + (b - 2) = b := by omega
      have hIn : b - 2 < w := by omega
      simp [word, hIndex, hIn]

/- A byte of a longword, found by its address. -/
theorem byte_loadWord (m : Mem w) (x : BitVec (w + 2)) :
    byte (3 - offset x) (loadWord m (word x)) = m x := by
  have hAppend := (word_append_place x).symm
  have hOffset : (x.extractLsb' 0 2).toNat = offset x := rfl
  generalize x.extractLsb' 0 2 = o at hAppend hOffset
  conv => rhs; rw [hAppend]
  rw [← hOffset, loadWord]
  rcases offset_cases o with h | h | h | h <;>
    simp [h, byte_ofBytes]

/- Storing some lanes and then others stores them all. -/
theorem storeLanes_storeLanes
    (m : Mem w)
    (a : BitVec w)
    (be be' : BitVec 4)
    (d : BitVec 32) :
    storeLanes (storeLanes m a be d) a be' d =
      storeLanes m a (be ||| be') d := by
  funext x
  simp only [storeLanes, BitVec.getLsbD_or, Bool.or_eq_true]
  by_cases hWord : word x = a
  · by_cases hLast : be'.getLsbD (3 - offset x) = true
    · simp [hWord, hLast]
    · simp [hWord, hLast]
  · simp [hWord]

end Lanes
