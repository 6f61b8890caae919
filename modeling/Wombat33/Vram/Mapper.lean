import Mathlib.Algebra.Group.Nat.Defs
import Wombat33.Clocked.Run
import Wombat33.Lanes.Bytes

/-
  The video memory behind its mapper.

  The window's longwords are kept in an array that does not
  back all of them.  At a pitch of 1024 bytes the mapper keeps
  the first 640 bytes of every row and folds what is left of
  all rows onto one block.

  Key definitions include:
    * `vramMap`
    * `State`, `Beat`, `State.step`
    * `scanPort`
    * `plainBeat`

  Key theorems include:
    * `vramMap_toNat`
    * `vramMap_lt`
    * `plain_run`
-/

------------------------------------------------------------
-- Through a Map
------------------------------------------------------------

namespace Mapped

variable {A B D : Type} [DecidableEq A] [DecidableEq B]

/- No other address is kept where these are. -/
def Alone (f : A → B) (V : A → Prop) : Prop :=
  ∀ a, V a → ∀ b, f b = f a → b = a

/- One place of a store changed. -/
def modify (s : B → D) (b : B) (g : D → D) : B → D :=
  Function.update s b (g (s b))

/-
  A change made through the map is seen, at the addresses that
  are alone, as the same change of what was seen.
-/
theorem modify_map
    {f : A → B} {V : A → Prop}
    (hAlone : Alone f V)
    {s : B → D} {m : A → D}
    (hSame : ∀ v, V v → s (f v) = m v)
    (a : A) (g : D → D) :
    ∀ v, V v → modify s (f a) g (f v) = modify m a g v := by
  intro v hV
  unfold modify
  by_cases hHere : v = a
  · rw [← hHere, Function.update_self, Function.update_self,
      hSame v hV]
  · have hAway : f v ≠ f a := fun hMap =>
      hHere (hAlone v hV a hMap.symm).symm
    rw [Function.update_of_ne hAway,
      Function.update_of_ne hHere]
    exact hSame v hV

end Mapped

------------------------------------------------------------
-- The Mapper
------------------------------------------------------------

namespace Vram

/- 512 rows of 160 words and the tail they share. -/
def vramWords : Nat := 82016

def vramFold : BitVec 17 := 52224#17

def vramTail : BitVec 17 := 81920#17

/- A word of the window, and where the array keeps it. -/
def vramMap (compact : Bool) (w : BitVec 17) : BitVec 17 :=
  let row := w.extractLsb' 8 9
  let col := w.extractLsb' 0 8
  if !compact then
    if vramWords ≤ w.toNat then w - vramFold else w
  else if col < 160#8 then
    (row ++ 0#7).setWidth 17 + (0#2 ++ row ++ 0#5).setWidth 17 +
      (0#9 ++ col)
  else vramTail + (0#9 ++ (col - 160#8))

/- Whether the programmed pitch is the one compacted. -/
def vramCompact (stride : BitVec 14) : Bool :=
  stride == 1024#14

theorem toNat_append_zero {n : Nat} (x : BitVec n) (k : Nat) :
    (x ++ 0#k).toNat = x.toNat * 2 ^ k := by
  simp [BitVec.toNat_append, Nat.shiftLeft_eq]

theorem toNat_zero_append {n : Nat} (k : Nat) (x : BitVec n) :
    (0#k ++ x).toNat = x.toNat := by
  simp [BitVec.toNat_append]

/- A visible column has a place of its own in its row. -/
theorem vramMap_toNat (w : BitVec 17) :
    (vramMap true w).toNat =
      if w.toNat % 256 < 160 then
        w.toNat / 256 * 160 + w.toNat % 256
      else 81920 + (w.toNat % 256 - 160) := by
  have hLt := w.isLt
  have hRow : (w.extractLsb' 8 9).toNat = w.toNat / 256 := by
    rw [BitVec.extractLsb'_toNat, Nat.shiftRight_eq_div_pow]
    omega
  have hCol : (w.extractLsb' 0 8).toNat = w.toNat % 256 := by
    rw [BitVec.extractLsb'_toNat, Nat.shiftRight_zero]
  have hWidth : (160#8).toNat = 160 := rfl
  simp only [vramMap, Bool.not_true, Bool.false_eq_true,
    if_false, BitVec.lt_def, hCol, hWidth]
  by_cases hSeen : w.toNat % 256 < 160
  · rw [if_pos hSeen, if_pos hSeen]
    simp only [BitVec.toNat_add, BitVec.toNat_setWidth,
      toNat_append_zero, toNat_zero_append, hRow, hCol]
    omega
  · have hTail : (w.extractLsb' 0 8 - 160#8).toNat =
        w.toNat % 256 - 160 := by
      rw [BitVec.toNat_sub, hCol, BitVec.toNat_ofNat]
      omega
    rw [if_neg hSeen, if_neg hSeen]
    simp only [BitVec.toNat_add, toNat_zero_append, hTail,
      vramTail, BitVec.toNat_ofNat]
    omega

/- Every word of the window has a word of the array. -/
theorem vramMap_lt (compact : Bool) (w : BitVec 17) :
    (vramMap compact w).toNat < vramWords := by
  have hLt := w.isLt
  cases compact with
  | true =>
      rw [vramMap_toNat, vramWords]
      split_ifs <;> omega
  | false =>
      have hSize : vramWords = 82016 := rfl
      simp only [vramMap, Bool.not_false, if_true]
      split_ifs with hEnd
      · rw [BitVec.toNat_sub, vramFold, BitVec.toNat_ofNat]
        omega
      · omega

end Vram

------------------------------------------------------------
-- Both Ports
------------------------------------------------------------

namespace Vram

open Lanes

/- A byte-wide array for each lane, and port A's registers. -/
structure State where
  vram0 : BitVec 17 → BitVec 8
  vram1 : BitVec 17 → BitVec 8
  vram2 : BitVec 17 → BitVec 8
  vram3 : BitVec 17 → BitVec 8
  vramQa : BitVec 32
  vramPh : Bool
  memRdataR : BitVec 32
  memAckR : Bool

/-
  What a machine clock finds at port A; `memAck` is what this
  port or another answers, and `stride` is the display's.
-/
structure Beat where
  reset : Bool := false
  ioctlDownload : Bool := false
  memReq : Bool := false
  memMemsel : BitVec 2 := 2#2
  memWrite : Bool := false
  memAddr : BitVec 30 := 0#30
  memBe : BitVec 4 := 0#4
  memWdata : BitVec 32 := 0#32
  memAck : Bool := false
  stride : BitVec 14

namespace State

variable (s : State) (i : Beat)

def memIsVram : Bool :=
  !(i.memMemsel == 0#2) && !(i.memMemsel == 1#2)

/- Address bits 18 to 2: the window repeats. -/
def windowWord : BitVec 17 := i.memAddr.extractLsb' 0 17

def vaAddr : BitVec 17 :=
  vramMap (vramCompact i.stride) (windowWord i)

def vaWe : Bool :=
  i.memReq && memIsVram i && i.memWrite && !s.vramPh

/- The word at an address of the array. -/
def word (a : BitVec 17) : BitVec 32 :=
  s.vram3 a ++ s.vram2 a ++ s.vram1 a ++ s.vram0 a

/- One lane's array after a clock. -/
def lane (k : Nat) (m : BitVec 17 → BitVec 8) :
    BitVec 17 → BitVec 8 :=
  if s.vaWe i && i.memBe.getLsbD k then
    Function.update m (vaAddr i) (byte k i.memWdata)
  else m

/- A machine clock at port A: capture, then deliver. -/
def step : State :=
  let turn := i.memReq && !i.memAck && memIsVram i
  { vram0 := s.lane i 0 s.vram0
    vram1 := s.lane i 1 s.vram1
    vram2 := s.lane i 2 s.vram2
    vram3 := s.lane i 3 s.vram3
    vramQa := s.word (vaAddr i)
    vramPh :=
      if i.reset && !i.ioctlDownload then false
      else if turn then !s.vramPh else s.vramPh
    memRdataR :=
      if turn && s.vramPh then s.vramQa else s.memRdataR
    memAckR := turn && s.vramPh }

/- What port B reads, for the display's addresses. -/
def scanPort (stride : BitVec 14) (a : BitVec 20) :
    BitVec 32 :=
  s.word (vramMap (vramCompact stride) (a.extractLsb' 0 17))

end State

/- The enabled bytes of one word over another. -/
def merge (be : BitVec 4) (d w : BitVec 32) : BitVec 32 :=
  (if be.getLsbD 3 then byte 3 d else byte 3 w) ++
    (if be.getLsbD 2 then byte 2 d else byte 2 w) ++
    (if be.getLsbD 1 then byte 1 d else byte 1 w) ++
    (if be.getLsbD 0 then byte 0 d else byte 0 w)

/- A plain memory of the window, written by the same beats. -/
def plainBeat (m : BitVec 17 → BitVec 32) (s : State)
    (i : Beat) : BitVec 17 → BitVec 32 :=
  if s.vaWe i then
    Mapped.modify m (State.windowWord i)
      (merge i.memBe i.memWdata)
  else m

variable {s : State} {i : Beat}

/- A clock changes the array's words as it does one word. -/
theorem word_step :
    (s.step i).word =
      if s.vaWe i then
        Mapped.modify s.word (State.vaAddr i)
          (merge i.memBe i.memWdata)
      else s.word := by
  funext a
  simp only [State.step, State.word, State.lane]
  cases hWrite : s.vaWe i with
  | false => simp [State.word]
  | true =>
      by_cases hHere : a = State.vaAddr i
      · rcases byte_append (s.vram3 a) (s.vram2 a) (s.vram1 a)
          (s.vram0 a) with ⟨h3, h2, h1, h0⟩
        simp only [Bool.true_and, if_true, Mapped.modify,
          merge, State.word, ← hHere, Function.update_self,
          h3, h2, h1, h0]
        cases i.memBe.getLsbD 0 <;> cases i.memBe.getLsbD 1 <;>
          cases i.memBe.getLsbD 2 <;>
          cases i.memBe.getLsbD 3 <;>
          simp [Function.update_self]
      · simp only [Bool.true_and, if_true, Mapped.modify,
          Function.update_of_ne hHere]
        split_ifs <;> simp [Function.update_of_ne hHere,
          State.word]

/-
  At the addresses that are alone, and whatever is written
  where, the array goes on looking like a plain memory.
-/
theorem plain_run
    {stride : BitVec 14}
    {V : BitVec 17 → Prop}
    (hAlone : Mapped.Alone (vramMap (vramCompact stride)) V)
    {is : List Beat}
    (hStride : ∀ i ∈ is, i.stride = stride)
    {x : State × (BitVec 17 → BitVec 32)}
    (hSame : ∀ v, V v →
      x.1.word (vramMap (vramCompact stride) v) = x.2 v) :
    ∀ v, V v →
      (Clocked.run (Clocked.watch State.step plainBeat) x
          is).1.word (vramMap (vramCompact stride) v) =
        (Clocked.run (Clocked.watch State.step plainBeat) x
          is).2 v := by
  induction is generalizing x with
  | nil => exact hSame
  | cons i is ih =>
      rw [Clocked.run_cons]
      apply ih (fun j hJ => hStride j (by simp [hJ]))
      have hAddr : State.vaAddr i =
          vramMap (vramCompact stride) (State.windowWord i) := by
        rw [State.vaAddr, hStride i (by simp)]
      simp only [Clocked.watch_fst, Clocked.watch_snd,
        word_step, plainBeat]
      split_ifs
      · rw [hAddr]
        exact Mapped.modify_map hAlone hSame _ _
      · exact hSame

end Vram
