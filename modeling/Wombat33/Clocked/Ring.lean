import Mathlib.Algebra.Group.Nat.Defs
import Wombat33.Clocked.ShiftQueue
import Mathlib.Logic.Function.Basic

/-
  Queues kept in a ring of cells.

  The ring has `2 ^ w` cells and its indices wrap.  The live
  entries are the `count` cells from the read pointer on; a
  push writes the cell behind them, a pop moves the read
  pointer over the first.  Where the count is the distance of
  two pointers, a push into the last free cell empties the
  ring.

  Key definitions include:
    * `Clocked.ring`
    * `Clocked.between`
    * `Clocked.Sifted`

  Key rules include:
    * `Clocked.ring_push`
    * `Clocked.ring_pop`
    * `Clocked.ring_push_pop`
    * `Clocked.between_push`
    * `Clocked.sifted_iff_of_none`
-/

------------------------------------------------------------
-- Rings
------------------------------------------------------------

namespace Clocked

variable {α : Type} {w : Nat}

/- The live entries, head first. -/
def ring
    (cells : BitVec w → α)
    (rd : BitVec w)
    (count : Nat) : List α :=
  contents (fun k => cells (rd + BitVec.ofNat w k)) count

@[simp] theorem length_ring
    (cells : BitVec w → α) (rd : BitVec w) (count : Nat) :
    (ring cells rd count).length = count := by
  simp [ring]

@[simp] theorem ring_zero
    (cells : BitVec w → α) (rd : BitVec w) :
    ring cells rd 0 = [] := rfl

/- Two live cells, or the free one behind them, differ. -/
theorem ring_index_ne
    (rd : BitVec w)
    {j k : Nat}
    (hLess : j < k)
    (hBound : k < 2 ^ w) :
    rd + BitVec.ofNat w j ≠ rd + BitVec.ofNat w k := by
  intro hEq
  have hNat := congrArg BitVec.toNat
    ((BitVec.add_right_inj rd).mp hEq)
  simp only [BitVec.toNat_ofNat] at hNat
  rw [Nat.mod_eq_of_lt (by omega), Nat.mod_eq_of_lt hBound]
    at hNat
  omega

/- Only the live cells matter. -/
theorem ring_congr
    {cells cells' : BitVec w → α}
    {rd : BitVec w}
    {count : Nat}
    (hCells : ∀ k < count,
      cells (rd + BitVec.ofNat w k) =
        cells' (rd + BitVec.ofNat w k)) :
    ring cells rd count = ring cells' rd count :=
  contents_congr hCells

/- A pop takes the entry under the read pointer. -/
theorem ring_pop
    (cells : BitVec w → α) (rd : BitVec w) (count : Nat) :
    ring cells rd (count + 1) =
      cells rd :: ring cells (rd + 1#w) count := by
  unfold ring
  rw [contents_succ_head]
  simp only [BitVec.add_zero]
  congr 1
  apply contents_congr
  intro k _
  rw [BitVec.add_assoc, Nat.add_comm, BitVec.ofNat_add]

/- A push into a ring that is not full appends. -/
theorem ring_push
    {cells : BitVec w → α}
    {rd : BitVec w}
    {count : Nat}
    (entry : α)
    (hRoom : count < 2 ^ w) :
    ring
        (Function.update cells (rd + BitVec.ofNat w count)
          entry) rd (count + 1) =
      ring cells rd count ++ [entry] := by
  have hKept : ring
      (Function.update cells (rd + BitVec.ofNat w count)
        entry) rd count = ring cells rd count := by
    apply ring_congr
    intro k hk
    exact Function.update_of_ne
      (ring_index_ne rd hk hRoom) _ _
  have hLast := contents_succ
    (fun k => Function.update cells
      (rd + BitVec.ofNat w count) entry
        (rd + BitVec.ofNat w k)) count
  rw [Function.update_self] at hLast
  exact hLast.trans (congrArg (· ++ [entry]) hKept)

/- A push and a pop at once, into a ring that is not full. -/
theorem ring_push_pop
    {cells : BitVec w → α}
    {rd : BitVec w}
    {count : Nat}
    (entry : α)
    (hRoom : count < 2 ^ w) :
    ring
        (Function.update cells
          (rd + BitVec.ofNat w (count + 1)) entry)
        (rd + 1#w) (count + 1) =
      ring cells (rd + 1#w) count ++ [entry] := by
  have hIndex : rd + BitVec.ofNat w (count + 1) =
      rd + 1#w + BitVec.ofNat w count := by
    rw [BitVec.add_assoc, Nat.add_comm, BitVec.ofNat_add]
  rw [hIndex]
  exact ring_push entry hRoom

end Clocked

------------------------------------------------------------
-- Between Two Pointers
------------------------------------------------------------

namespace Clocked

variable {α : Type} {w : Nat}
variable {cells : BitVec w → α} {rd wr : BitVec w}

/- The entries from the read pointer to the write pointer. -/
def between
    (cells : BitVec w → α)
    (rd wr : BitVec w) : List α :=
  ring cells rd (wr - rd).toNat

@[simp] theorem length_between :
    (between cells rd wr).length = (wr - rd).toNat :=
  length_ring cells rd _

@[simp] theorem between_self :
    between cells rd rd = [] := by
  simp [between]

theorem between_eq_nil_iff :
    between cells rd wr = [] ↔ rd = wr := by
  rw [← List.length_eq_zero_iff, length_between]
  constructor
  · intro hZero
    have hSub : wr - rd = 0#w := BitVec.eq_of_toNat_eq hZero
    have hAdd := congrArg (· + rd) hSub
    simp only [BitVec.sub_add_cancel, BitVec.zero_add] at hAdd
    exact hAdd.symm
  · intro hEq
    simp [hEq]

/- One step of the write pointer is one more entry. -/
theorem distance_succ
    (hRoom : (wr - rd).toNat + 1 < 2 ^ w) :
    (wr + 1#w - rd).toNat = (wr - rd).toNat + 1 := by
  have hSub : wr + 1#w - rd = wr - rd + 1#w := by
    rw [BitVec.sub_eq_add_neg, BitVec.sub_eq_add_neg,
      BitVec.add_assoc, BitVec.add_comm 1#w,
      ← BitVec.add_assoc]
  have hOne : (1#w).toNat = 1 :=
    Nat.mod_eq_of_lt (by omega)
  rw [hSub, BitVec.toNat_add, hOne, Nat.mod_eq_of_lt hRoom]

theorem between_push
    (entry : α)
    (hRoom : (wr - rd).toNat + 1 < 2 ^ w) :
    between (Function.update cells wr entry) rd (wr + 1#w) =
      between cells rd wr ++ [entry] := by
  have hIndex : rd + BitVec.ofNat w (wr - rd).toNat = wr := by
    rw [BitVec.ofNat_toNat, BitVec.setWidth_eq,
      BitVec.add_comm, BitVec.sub_add_cancel]
  have hPush := @ring_push α w cells rd (wr - rd).toNat entry
    (by omega)
  rw [hIndex] at hPush
  rw [between, distance_succ hRoom, hPush, between]

theorem between_pop
    (cells : BitVec w → α)
    (hNonempty : rd ≠ wr) :
    between cells rd wr =
      cells rd :: between cells (rd + 1#w) wr := by
  have hPos : 0 < (wr - rd).toNat := by
    have hLength := @length_between α w cells rd wr
    rw [← hLength, List.length_pos_iff]
    exact fun hNil => hNonempty (between_eq_nil_iff.mp hNil)
  have hBound := (wr - rd).isLt
  have hSub : wr - (rd + 1#w) = wr - rd - 1#w := by
    rw [BitVec.sub_eq_add_neg, BitVec.neg_add,
      BitVec.sub_eq_add_neg, BitVec.sub_eq_add_neg,
      BitVec.sub_eq_add_neg, ← BitVec.add_assoc]
  have hOne : (1#w).toNat = 1 :=
    Nat.mod_eq_of_lt (by omega)
  have hNext : (wr - rd - 1#w).toNat = (wr - rd).toNat - 1 := by
    rw [BitVec.toNat_sub_of_le, hOne]
    rw [BitVec.le_def, hOne]
    exact hPos
  have hCount : (wr - rd).toNat =
      (wr - (rd + 1#w)).toNat + 1 := by
    rw [hSub, hNext]
    exact (Nat.sub_add_cancel hPos).symm
  rw [between, hCount, ring_pop, between]

end Clocked

------------------------------------------------------------
-- Refused Entries
------------------------------------------------------------

namespace Clocked

variable {α : Type}

/-
  What is left of the offers, in their order.  An offer comes
  with whether it may be refused; no other may be missing.
-/
inductive Sifted : List (α × Bool) → List α → Prop where
  | nil : Sifted [] []
  | take
      (entry : α)
      (refused : Bool)
      {offers : List (α × Bool)}
      {kept : List α}
      (hRest : Sifted offers kept) :
      Sifted ((entry, refused) :: offers) (entry :: kept)
  | drop
      (entry : α)
      {offers : List (α × Bool)}
      {kept : List α}
      (hRest : Sifted offers kept) :
      Sifted ((entry, true) :: offers) kept

/- The kept entries are a subsequence of the offers. -/
theorem sifted_sublist
    {offers : List (α × Bool)}
    {kept : List α}
    (hSifted : Sifted offers kept) :
    kept.Sublist (offers.map Prod.fst) := by
  induction hSifted with
  | nil => exact List.Sublist.slnil
  | take entry refused _ ih => exact ih.cons_cons entry
  | drop entry _ ih => exact ih.cons entry

/- As many are missing as were refused, at most. -/
theorem sifted_length
    {offers : List (α × Bool)}
    {kept : List α}
    (hSifted : Sifted offers kept) :
    offers.length ≤
      kept.length + (offers.filter Prod.snd).length := by
  induction hSifted with
  | nil => exact Nat.le_refl _
  | take entry refused _ ih =>
      cases refused with
      | true => simp; omega
      | false => simp; omega
  | drop entry _ ih => simp; omega

theorem sifted_all
    (offers : List (α × Bool)) :
    Sifted offers (offers.map Prod.fst) := by
  induction offers with
  | nil => exact Sifted.nil
  | cons offer offers ih => exact Sifted.take offer.1 offer.2 ih

/- Where nothing may be refused, all of it is kept. -/
theorem sifted_iff_of_none
    {offers : List (α × Bool)}
    {kept : List α}
    (hNone : offers.filter Prod.snd = []) :
    Sifted offers kept ↔ kept = offers.map Prod.fst := by
  constructor
  · intro hSifted
    apply (sifted_sublist hSifted).eq_of_length_le
    have hLength := sifted_length hSifted
    rw [hNone] at hLength
    simpa using hLength
  · rintro rfl
    exact sifted_all offers

end Clocked
