import Wombat33.Ncr53c96.Evaluate
import Wombat33.Ncr53c96.Queue
import Wombat33.Lanes.Bytes

/-
  States reachable from reset, and what holds in all of them.

  Key definitions include:
    * `Reachable`
    * `bufByte`

  Key theorems include:
    * `reachable_fifoCnt_le`
    * `reachable_flush_covered`
-/

------------------------------------------------------------
-- Reachable States
------------------------------------------------------------

namespace Ncr53c96

open Clocked

variable (cfg : Config)

/- A state some run out of reset ends in. -/
def Reachable (s : Chip) : Prop :=
  ∃ s₀ is, (∀ i ∈ is, i.nreset = true) ∧
    s = run (step cfg) (powerOn cfg s₀) is

variable {cfg}

/- An invariant of every edge out of reset. -/
theorem reachable_invariant
    {Inv : Chip → Prop}
    (hStart : ∀ s, Inv (powerOn cfg s))
    (hStep : ∀ s i, Inv s → Inv (clock cfg s i))
    {s : Chip}
    (hReach : Reachable cfg s) :
    Inv s := by
  rcases hReach with ⟨s₀, is, hClocked, rfl⟩
  have hEdge : ∀ s i, Inv s → i.nreset = true →
      Inv (step cfg s i) := by
    intro s i hInv hReset
    rw [step_of_nreset cfg s i hReset]
    exact hStep s i hInv
  exact invariant_run hEdge
    (along_of_mem hClocked) (hStart s₀)

theorem reachable_step
    {s : Chip} {i : In}
    (hReach : Reachable cfg s)
    (hReset : i.nreset = true) :
    Reachable cfg (clock cfg s i) := by
  rcases hReach with ⟨s₀, is, hClocked, rfl⟩
  refine ⟨s₀, is ++ [i], ?_, ?_⟩
  · intro j hj
    rcases List.mem_append.mp hj with hj | hj
    · exact hClocked j hj
    · rw [List.mem_singleton.mp hj]
      exact hReset
  · rw [run_append, run_cons, run_nil,
      step_of_nreset cfg _ i hReset]

theorem reachable_fifoCnt_le
    {s : Chip} (hReach : Reachable cfg s) :
    s.fifoCnt ≤ 16 := by
  refine @reachable_invariant cfg (fun s => s.fifoCnt ≤ 16)
    ?_ ?_ s hReach
  · intro s
    simp [powerOn, step, sbufPorts, resetRegs]
  · intro s i hLe
    exact clock_fifoCnt_le cfg hLe

/- A flush is outstanding only while the handshake runs. -/
theorem reachable_flush_covered
    {s : Chip} (hReach : Reachable cfg s) :
    s.flushPending = true →
      s.ioWr = true ∨ s.ioAckD = true := by
  refine @reachable_invariant cfg
    (fun s => s.flushPending = true →
      s.ioWr = true ∨ s.ioAckD = true) ?_ ?_ s hReach
  · intro s
    simp [powerOn, step, sbufPorts, resetRegs]
  · intro s i hCovered hPending
    rw [clock_flushPending] at hPending
    rw [clock_ioWr, clock_ioAckD]
    cases hDue : flushDue s i with
    | true => simp
    | false =>
        simp only [hDue, Bool.false_eq_true, if_false]
          at hPending ⊢
        cases hAck : i.ioAck with
        | true => simp
        | false =>
            have hFall : ackFall s i = false := by
              by_contra hFall
              simp [hFall] at hPending
            simp [ackFall, hAck] at hFall
            simp only [ackFall, hFall, Bool.false_and,
              Bool.false_eq_true, if_false] at hPending
            simpa [hFall] using hCovered hPending

end Ncr53c96

------------------------------------------------------------
-- Bytes of the Sector Buffer
------------------------------------------------------------

namespace Ncr53c96

open Lanes

/- Byte `j` of the buffer; the first of a word is its high. -/
def bufByte (m : BitVec 8 → BitVec 16) (j : Nat) : Byte :=
  if j % 2 == 1 then (m (BitVec.ofNat 8 (j / 2))).extractLsb' 0 8
  else (m (BitVec.ofNat 8 (j / 2))).extractLsb' 8 8

/- A buffer word is its two bytes. -/
theorem word_eq_bytes
    (m : BitVec 8 → BitVec 16) (a : BitVec 8) :
    m a = bufByte m (2 * a.toNat) ++
      bufByte m (2 * a.toNat + 1) := by
  have hEven : 2 * a.toNat % 2 = 0 := by omega
  have hOdd : (2 * a.toNat + 1) % 2 = 1 := by omega
  have hHalf : 2 * a.toNat / 2 = a.toNat := by omega
  have hHalf' : (2 * a.toNat + 1) / 2 = a.toNat := by omega
  simp only [bufByte, hEven, hOdd, hHalf, hHalf',
    BitVec.ofNat_toNat, BitVec.setWidth_eq]
  exact (@BitVec.extractLsb'_append_extractLsb' 8 8 _).symm

/- A byte written at `p` changes byte `p` and no other. -/
theorem bufByte_update
    (m : BitVec 8 → BitVec 16)
    (b : Byte)
    {p j : Nat}
    (hp : p < 512)
    (hj : j < 512) :
    bufByte
        (Function.update m (BitVec.ofNat 8 (p / 2))
          (setByte (m (BitVec.ofNat 8 (p / 2)))
            (p % 2 == 1) b)) j =
      if j = p then b else bufByte m j := by
  by_cases hWord : j / 2 = p / 2
  · have hParity : j = p ↔ j % 2 = p % 2 := by omega
    unfold bufByte
    rw [hWord, Function.update_self, setByte]
    rcases Nat.mod_two_eq_zero_or_one p with hp' | hp' <;>
      rcases Nat.mod_two_eq_zero_or_one j with hj' | hj' <;>
      simp [hp', hj', hParity, @high_append 8 8,
        @low_append 8 8]
  · have hOther :
        BitVec.ofNat 8 (j / 2) ≠ BitVec.ofNat 8 (p / 2) := by
      intro hEq
      have hNat := congrArg BitVec.toNat hEq
      simp only [BitVec.toNat_ofNat] at hNat
      omega
    have hNe : j ≠ p := by
      rintro rfl
      exact hWord rfl
    simp [bufByte, Function.update_of_ne hOther, hNe]

/- A word made of two bytes shows each of them. -/
theorem bufByte_of_word
    {m : BitVec 8 → BitVec 16}
    {b : Nat → Byte}
    {j : Nat}
    (hWord : m (BitVec.ofNat 8 (j / 2)) =
      b (2 * (j / 2)) ++ b (2 * (j / 2) + 1)) :
    bufByte m j = b j := by
  unfold bufByte
  rw [hWord]
  rcases Nat.mod_two_eq_zero_or_one j with hPar | hPar
  · have hj : 2 * (j / 2) = j := by omega
    simp [hPar, hj, @high_append 8 8]
  · have hj : 2 * (j / 2) + 1 = j := by omega
    simp [hPar, hj, @low_append 8 8]

end Ncr53c96

------------------------------------------------------------
-- Blocks of a Range
------------------------------------------------------------

namespace Ncr53c96

/- The blocks strobed, with one more. -/
theorem blocks_snoc (start : BitVec 32) (k : Nat) :
    (List.range k).map
        (fun k => start + BitVec.ofNat 32 k) ++
        [start + BitVec.ofNat 32 k] =
      (List.range (k + 1)).map
        (fun k => start + BitVec.ofNat 32 k) := by
  simp [List.range_succ]

theorem next_block (start : BitVec 32) (k : Nat) :
    start + BitVec.ofNat 32 k + 1#32 =
      start + BitVec.ofNat 32 (k + 1) := by
  rw [BitVec.add_assoc, BitVec.ofNat_add]

end Ncr53c96
