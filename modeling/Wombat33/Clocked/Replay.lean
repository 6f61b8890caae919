import Mathlib.Data.List.Induction

/-
  Replays of a device.

  A device has contents that an operation changes, and says
  which replies to an operation agree with the contents it
  finds.  A list of operations with their replies is a replay
  where every reply agrees with what the operations before it
  have left.

  Key definitions include:
    * `Device`, `Device.after`, `Device.Replays`
    * `Device.ahead`

  Key rules include:
    * `Device.replays_snoc`
    * `Device.agrees_within`
    * `Device.cell_after`
-/

------------------------------------------------------------
-- Devices
------------------------------------------------------------

namespace Clocked

variable {M O R C : Type}

structure Device (M O R : Type) where
  exec : M → O → M
  agrees : M → O → R → Prop

namespace Device

variable (D : Device M O R)

/- The contents after a list of operations. -/
def after (m : M) (xs : List (O × R)) : M :=
  xs.foldl (fun m x => D.exec m x.1) m

def Replays : M → List (O × R) → Prop
  | _, [] => True
  | m, x :: xs =>
      D.agrees m x.1 x.2 ∧ Replays (D.exec m x.1) xs

/- The contents, with an operation under way maybe done. -/
def ahead (m : M) (pending : Option O) (done : Bool) : M :=
  match pending with
  | some o => if done then D.exec m o else m
  | none => m

end Device

end Clocked

------------------------------------------------------------
-- One More Operation
------------------------------------------------------------

namespace Clocked

namespace Device

variable {M O R C : Type} {D : Device M O R}
variable {m : M} {xs ys : List (O × R)} {x : O × R}

@[simp] theorem after_nil : D.after m [] = m := rfl

theorem after_append :
    D.after m (xs ++ ys) = D.after (D.after m xs) ys :=
  List.foldl_append

@[simp] theorem after_snoc :
    D.after m (xs ++ [x]) = D.exec (D.after m xs) x.1 :=
  after_append

theorem replays_append :
    D.Replays m (xs ++ ys) ↔
      D.Replays m xs ∧ D.Replays (D.after m xs) ys := by
  induction xs generalizing m with
  | nil => simp [Replays]
  | cons x xs ih =>
      rw [List.cons_append, Replays, Replays, ih, and_assoc]
      rfl

theorem replays_snoc :
    D.Replays m (xs ++ [x]) ↔
      D.Replays m xs ∧ D.agrees (D.after m xs) x.1 x.2 := by
  rw [replays_append]
  simp [Replays]

/- Every reply agrees with what came before it. -/
theorem agrees_within
    (hReplays : D.Replays m (xs ++ x :: ys)) :
    D.agrees (D.after m xs) x.1 x.2 :=
  (replays_append.mp hReplays).2.1

/-
  Where an operation puts at most one value into a cell, the
  cell holds the value put last, or what it held at first.
-/
theorem cell_after
    {cell : M → C} {puts : O → Option C}
    (hPuts : ∀ m o, cell (D.exec m o) =
      (puts o).getD (cell m)) :
    cell (D.after m xs) =
      ((xs.filterMap (fun x => puts x.1)).getLast?).getD
        (cell m) := by
  induction xs using List.reverseRecOn with
  | nil => rfl
  | append_singleton xs x ih =>
      rw [after_snoc, hPuts, List.filterMap_append]
      cases hNew : puts x.1 with
      | none => simp [hNew, ih]
      | some c => simp [hNew]

end Device

end Clocked
