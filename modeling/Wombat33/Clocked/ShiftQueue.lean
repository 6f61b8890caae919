import Mathlib.Data.List.Range

/-
  Queues kept in a register array.

  The live entries are the first `count` cells; a pop shifts
  every cell down by one and a push writes the cell at
  `count`.  An action says what one clock edge does to the
  entries, as a list.

  Key definitions include:
    * `Clocked.contents`
    * `Clocked.QueueAct`
    * `Clocked.QueueAct.effects`
-/

------------------------------------------------------------
-- Contents
------------------------------------------------------------

namespace Clocked

variable {α : Type}

/- The live entries, head first. -/
def contents (cells : Nat → α) (count : Nat) : List α :=
  (List.range count).map cells

@[simp] theorem length_contents
    (cells : Nat → α) (count : Nat) :
    (contents cells count).length = count := by
  simp [contents]

@[simp] theorem contents_zero (cells : Nat → α) :
    contents cells 0 = [] := rfl

theorem contents_succ (cells : Nat → α) (count : Nat) :
    contents cells (count + 1) =
      contents cells count ++ [cells count] := by
  simp [contents, List.range_succ]

theorem contents_succ_head (cells : Nat → α) (count : Nat) :
    contents cells (count + 1) =
      cells 0 :: contents (fun k => cells (k + 1)) count := by
  simp [contents, List.range_succ_eq_map, Function.comp_def]

/- Only the live cells matter. -/
theorem contents_congr
    {cells cells' : Nat → α}
    {count : Nat}
    (hCells : ∀ k < count, cells k = cells' k) :
    contents cells count = contents cells' count := by
  apply List.map_congr_left
  intro k hk
  exact hCells k (List.mem_range.mp hk)

theorem contents_eq_nil_iff
    {cells : Nat → α} {count : Nat} :
    contents cells count = [] ↔ count = 0 := by
  simp [contents]

end Clocked

------------------------------------------------------------
-- Actions
------------------------------------------------------------

namespace Clocked

variable {α : Type}

/- What one clock edge does to the entries. -/
inductive QueueAct (α : Type) where
  | keep
  | push (entry : α)
  | pop
  | load (entries : List α)

/- The entries after an action. -/
def QueueAct.apply : QueueAct α → List α → List α
  | keep, entries => entries
  | push entry, entries => entries ++ [entry]
  | pop, entries => entries.tail
  | load entries, _ => entries

/- The same action on entries of another type. -/
def QueueAct.map {β : Type} (f : α → β) :
    QueueAct α → QueueAct β
  | keep => keep
  | push entry => push (f entry)
  | pop => pop
  | load entries => load (entries.map f)

/- Entries that carry the originals stay in step with them. -/
theorem QueueAct.map_apply
    {β : Type}
    {f : α → β}
    {g : β → α}
    (hCarry : ∀ a, g (f a) = a)
    (act : QueueAct α)
    (entries : List β) :
    ((act.map f).apply entries).map g =
      act.apply (entries.map g) := by
  cases act with
  | keep => rfl
  | push entry => simp [QueueAct.map, QueueAct.apply, hCarry]
  | pop => simp [QueueAct.map, QueueAct.apply]
  | load loaded =>
      simp [QueueAct.map, QueueAct.apply, hCarry,
        Function.comp_def]

/- Two lists of one length stay of one length. -/
theorem QueueAct.length_map_apply
    {β : Type}
    {f : α → β}
    {marks : List β}
    {entries : List α}
    (hLength : marks.length = entries.length)
    (act : QueueAct α) :
    ((act.map f).apply marks).length =
      (act.apply entries).length := by
  cases act with
  | keep => exact hLength
  | push entry => simp [QueueAct.map, QueueAct.apply, hLength]
  | pop => simp [QueueAct.map, QueueAct.apply, hLength]
  | load loaded => simp [QueueAct.map, QueueAct.apply]

/- A mark that no entry is given does not become more. -/
theorem QueueAct.count_map_apply
    {β : Type}
    [BEq β] [LawfulBEq β]
    {f : α → β}
    {mark : β}
    (hOther : ∀ entry, f entry ≠ mark)
    (act : QueueAct α)
    (marks : List β) :
    ((act.map f).apply marks).count mark ≤
      marks.count mark := by
  cases act with
  | keep => exact Nat.le_refl _
  | push entry =>
      simp [QueueAct.map, QueueAct.apply, List.count_append,
        hOther entry]
  | pop =>
      exact (List.tail_sublist marks).count_le mark
  | load loaded =>
      have hNone : mark ∉ loaded.map f := by
        simp [hOther]
      simp [QueueAct.map, QueueAct.apply,
        List.count_eq_zero_of_not_mem hNone]

/- An edge that writes the first free cell pushes. -/
theorem contents_push
    {cells cells' : Nat → α}
    {count : Nat}
    {entry : α}
    (hKept : ∀ k < count, cells' k = cells k)
    (hWritten : cells' count = entry) :
    contents cells' (count + 1) =
      (QueueAct.push entry).apply (contents cells count) := by
  rw [contents_succ, contents_congr hKept, hWritten]
  rfl

/- An edge that shifts every live cell down pops. -/
theorem contents_pop
    {cells cells' : Nat → α}
    {count : Nat}
    (hShift : ∀ k < count, cells' k = cells (k + 1)) :
    contents cells' count =
      QueueAct.pop.apply (contents cells (count + 1)) := by
  rw [contents_succ_head, contents_congr hShift]
  rfl

end Clocked

------------------------------------------------------------
-- Effective Actions
------------------------------------------------------------

namespace Clocked

variable {α : Type}

/-
  The actions that take effect: keeping the entries is none,
  and neither is a pop with nothing to drop.
-/
def QueueAct.effects : QueueAct α → List α → List (QueueAct α)
  | keep, _ => []
  | pop, [] => []
  | pop, _ :: _ => [pop]
  | push entry, _ => [push entry]
  | load loaded, _ => [load loaded]

/- One action after the other. -/
def QueueAct.applyAll
    (acts : List (QueueAct α))
    (entries : List α) : List α :=
  acts.foldl (fun entries act => act.apply entries) entries

theorem QueueAct.length_effects
    (act : QueueAct α) (entries : List α) :
    (act.effects entries).length ≤ 1 := by
  cases act with
  | keep => exact Nat.zero_le 1
  | push entry => exact Nat.le_refl 1
  | load loaded => exact Nat.le_refl 1
  | pop =>
      cases entries with
      | nil => exact Nat.zero_le 1
      | cons entry rest => exact Nat.le_refl 1

theorem QueueAct.applyAll_effects
    (act : QueueAct α) (entries : List α) :
    applyAll (act.effects entries) entries =
      act.apply entries := by
  cases act with
  | keep => rfl
  | push entry => rfl
  | load loaded => rfl
  | pop => cases entries <;> rfl

theorem QueueAct.ne_nil_of_pop_mem_effects
    {act : QueueAct α} {entries : List α}
    (hPop : pop ∈ act.effects entries) :
    entries ≠ [] := by
  rintro rfl
  cases act <;> simp [effects] at hPop

end Clocked
