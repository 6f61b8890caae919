import Wombat33.Iosb.Pdma
import Wombat33.Quadra800.PdmaVisit
import Wombat33.Quadra800.Progress

/-
  A pseudo-DMA access moves its operand.

  The splitter's lanes are compared with the operand's bytes
  in address order, on the write side and on the read side.
  The beat slave moves just these where it has a case for the
  lanes of each beat.

  Key definitions include:
    * `placed`
    * `MovesOperand`

  Key theorems include:
    * `lanes_written`, `lanes_read_single`, `lanes_read_split`
    * `operand_moved_iff`
-/

------------------------------------------------------------
-- Lanes of the Splitter
------------------------------------------------------------

namespace Iosb

open Lanes Bus32

/- Consecutive lanes are consecutive places. -/
theorem lanePlaces_lanes
    {start count : Nat}
    (hFits : start + count ≤ 4) :
    lanePlaces (lanes start count) =
      (List.range count).map (start + ·) := by
  have hAll : ∀ start < 5, ∀ count < 5, start + count ≤ 4 →
      lanePlaces (lanes start count) =
        (List.range count).map (start + ·) := by
    decide
  exact hAll start (by omega) count (by omega) hFits

theorem laneBytes_lanes
    {start count : Nat}
    (hFits : start + count ≤ 4)
    (d : BitVec 32) :
    laneBytes (lanes start count) d =
      (List.range count).map
        (fun k => byte (3 - (start + k)) d) := by
  rw [laneBytes, lanePlaces_lanes hFits, List.map_map]
  rfl

/- The operand's first bytes, then the others. -/
theorem trailing_add (m n : Nat) (d : BitVec 32) :
    trailing (m + n) d =
      (List.range m).map (fun k => byte (m + n - 1 - k) d) ++
        (List.range n).map
          (fun k => byte (m + n - 1 - (m + k)) d) := by
  rw [trailing, List.range_add, List.map_append, List.map_map]
  rfl

end Iosb

------------------------------------------------------------
-- The Operand on the Lanes
------------------------------------------------------------

namespace Quadra800

open Lanes Bus32
open Iosb (laneBytes trailing laneBytes_lanes)

variable {t : Txn}

/- The beats of a transaction that is not cut short. -/
def beatsAsked (t : Txn) : List Beat :=
  if isSplit t then [firstBeat t, tailBeat t] else [firstBeat t]

/- The operand bytes in the first beat, and in the second. -/
theorem first_lanes (hOne : isSplit t = false) :
    (firstBeat t).be =
        lanes (fOff t.addr).toNat (fBytes t.size) ∧
      (fOff t.addr).toNat + fBytes t.size ≤ 4 := by
  have hFits : ¬ 4 < fEnd t.size t.addr := by
    simpa [isSplit] using hOne
  constructor
  · simp [firstBeat, fN0, hFits]
  · simpa [fEnd] using hFits

theorem split_lanes (hTwo : isSplit t = true) :
    (firstBeat t).be =
        lanes (fOff t.addr).toNat (4 - (fOff t.addr).toNat) ∧
      (tailBeat t).be =
        lanes 0 ((fOff t.addr).toNat + fBytes t.size - 4) ∧
      4 < (fOff t.addr).toNat + fBytes t.size := by
  have hOver : 4 < fEnd t.size t.addr := by
    simpa [isSplit] using hTwo
  refine ⟨?_, rfl, hOver⟩
  simp [firstBeat, fN0, hOver]

/- A write's lanes are the operand's bytes in address order. -/
theorem lanes_written :
    (beatsAsked t).flatMap (fun b => laneBytes b.be b.wdata) =
      trailing (fBytes t.size) t.data := by
  have hOff : (fOff t.addr).toNat < 4 := (fOff t.addr).isLt
  have hBytes := fBytes_le t.size
  cases hSplit : isSplit t with
  | false =>
      rcases first_lanes hSplit with ⟨hBe, hFits⟩
      simp only [beatsAsked, hSplit, Bool.false_eq_true, if_false,
        List.flatMap_cons, List.flatMap_nil, List.append_nil]
      rw [hBe, laneBytes_lanes hFits, trailing]
      apply List.map_congr_left
      intro k hk
      have hLess := List.mem_range.mp hk
      have hIndex : (fOff t.addr).toNat + k -
          (fOff t.addr).toNat = k := by
        omega
      rw [firstBeat, byte_fWsh_right _ _ (by omega) (by omega)
        (by omega), hIndex]
  | true =>
      rcases split_lanes hSplit with ⟨hFirst, hTail, hOver⟩
      simp only [beatsAsked, hSplit, if_true,
        List.flatMap_cons, List.flatMap_nil, List.append_nil]
      have hCount : fBytes t.size =
          (4 - (fOff t.addr).toNat) +
            ((fOff t.addr).toNat + fBytes t.size - 4) := by
        omega
      have hOperand := Iosb.trailing_add
        (4 - (fOff t.addr).toNat)
        ((fOff t.addr).toNat + fBytes t.size - 4) t.data
      rw [← hCount] at hOperand
      rw [hOperand, hFirst, hTail, laneBytes_lanes (by omega),
        laneBytes_lanes (by omega)]
      congr 1
      · apply List.map_congr_left
        intro k hk
        have hLess := List.mem_range.mp hk
        have hIndex : (fOff t.addr).toNat + k -
            (fOff t.addr).toNat = k := by
          omega
        rw [firstBeat, byte_fWsh_right _ _ (by omega) (by omega)
          (by omega), hIndex]
      · apply List.map_congr_left
        intro k hk
        have hLess := List.mem_range.mp hk
        have hIndex : 4 + (0 + k) - (fOff t.addr).toNat =
            4 - (fOff t.addr).toNat + k := by
          omega
        rw [tailBeat, byte_fWsh_left _ _ (by omega) hOff
          (by omega), hIndex]

/- A read in one beat is made of its lanes. -/
theorem lanes_read_single
    (hOne : isSplit t = false)
    (w : BitVec 32) :
    trailing (fBytes t.size)
        (stream t w >>> (8 * (4 - fBytes t.size))) =
      laneBytes (firstBeat t).be w := by
  have hBytes := fBytes_le t.size
  rcases first_lanes hOne with ⟨hBe, hFits⟩
  rw [hBe, laneBytes_lanes hFits, trailing]
  apply List.map_congr_left
  intro k hk
  have hLess := List.mem_range.mp hk
  have hIndex : fBytes t.size - 1 - k + (4 - fBytes t.size) -
      (fOff t.addr).toNat = 3 - ((fOff t.addr).toNat + k) := by
    omega
  rw [byte_shiftRight, stream, byte_shiftLeft _ _ _ (by omega),
    if_neg (by omega), hIndex]

/- A read in two, of the lanes of both. -/
theorem lanes_read_split
    (hTwo : isSplit t = true)
    (w w' : BitVec 32) :
    trailing (fBytes t.size)
        ((stream t w |||
            w' >>> (8 * (4 - (fOff t.addr).toNat))) >>>
          (8 * (4 - fBytes t.size))) =
      laneBytes (firstBeat t).be w ++
        laneBytes (tailBeat t).be w' := by
  have hOff : (fOff t.addr).toNat < 4 := (fOff t.addr).isLt
  have hBytes := fBytes_le t.size
  rcases split_lanes hTwo with ⟨hFirst, hTail, hOver⟩
  have hCount : fBytes t.size =
      (4 - (fOff t.addr).toNat) +
        ((fOff t.addr).toNat + fBytes t.size - 4) := by
    omega
  have hOperand := Iosb.trailing_add
    (4 - (fOff t.addr).toNat)
    ((fOff t.addr).toNat + fBytes t.size - 4)
    ((stream t w |||
        w' >>> (8 * (4 - (fOff t.addr).toNat))) >>>
      (8 * (4 - fBytes t.size)))
  rw [← hCount] at hOperand
  rw [hOperand, hFirst, hTail, laneBytes_lanes (by omega),
    laneBytes_lanes (by omega)]
  congr 1
  · apply List.map_congr_left
    intro k hk
    have hLess := List.mem_range.mp hk
    have hIndex : fBytes t.size - 1 - k +
        (4 - fBytes t.size) - (fOff t.addr).toNat =
          3 - ((fOff t.addr).toNat + k) := by
      omega
    -- the second beat's longword is shifted out of this byte
    rw [byte_shiftRight, byte_or, stream,
      byte_shiftLeft _ _ _ (by omega), if_neg (by omega),
      byte_shiftRight, byte_of_ge w' (by omega), hIndex]
    exact BitVec.or_zero
  · apply List.map_congr_left
    intro k hk
    have hLess := List.mem_range.mp hk
    have hIndex : fBytes t.size - 1 -
          (4 - (fOff t.addr).toNat + k) +
        (4 - fBytes t.size) + (4 - (fOff t.addr).toNat) =
          3 - (0 + k) := by
      omega
    rw [byte_shiftRight, byte_or, stream,
      byte_shiftLeft _ _ _ (by omega), if_pos (by omega),
      byte_shiftRight, hIndex]
    exact BitVec.zero_or

end Quadra800

------------------------------------------------------------
-- Lanes the Beat Slave Knows
------------------------------------------------------------

namespace Quadra800

open Bus32
open Iosb (sdmaCount recognised)

variable {t : Txn}

/- Neither a word at offset 1 nor a long at an odd offset. -/
def placed (t : Txn) : Bool :=
  !(fBytes t.size == 2 && fOff t.addr == 1#2) &&
    !(fBytes t.size == 4 && (fOff t.addr).getLsbD 0)

/- The byte enables of a transaction's beats. -/
def masks (size off : BitVec 2) : List (BitVec 4) :=
  if 4 < off.toNat + fBytes size then
    [lanes off.toNat (4 - off.toNat),
      lanes 0 (off.toNat + fBytes size - 4)]
  else [lanes off.toNat (fBytes size)]

theorem masks_eq :
    (beatsAsked t).map Beat.be =
      masks t.size (fOff t.addr) := by
  cases hSplit : isSplit t with
  | false =>
      rcases first_lanes hSplit with ⟨hBe, hFits⟩
      simp [beatsAsked, hSplit, masks, hBe, hFits]
  | true =>
      rcases split_lanes hSplit with ⟨hFirst, hTail, hOver⟩
      simp [beatsAsked, hSplit, masks, hFirst, hTail, hOver]

/- Of a placed transaction it knows every beat. -/
theorem placed_recognised
    (hPlaced : placed t = true) :
    ∀ b ∈ beatsAsked t, recognised b.be = true := by
  have hAll : ∀ size off : BitVec 2,
      (!(fBytes size == 2 && off == 1#2) &&
        !(fBytes size == 4 && off.getLsbD 0)) = true →
      ∀ be ∈ masks size off, recognised be = true := by
    decide
  intro b hBeat
  apply hAll t.size (fOff t.addr) hPlaced
  rw [← masks_eq]
  exact List.mem_map_of_mem hBeat

/- What it counts for beats with these enables. -/
def counted (masks : List (BitVec 4)) : Nat :=
  masks.foldr (fun be n => sdmaCount be + n) 0

@[simp] theorem counted_nil : counted [] = 0 :=
  rfl

@[simp] theorem counted_cons
    (be : BitVec 4)
    (masks : List (BitVec 4)) :
    counted (be :: masks) = sdmaCount be + counted masks :=
  rfl

/- It counts the operand's bytes just then. -/
theorem counted_iff :
    counted ((beatsAsked t).map Beat.be) = fBytes t.size ↔
      placed t = true := by
  have hAll : ∀ size off : BitVec 2,
      counted (masks size off) = fBytes size ↔
        (!(fBytes size == 2 && off == 1#2) &&
          !(fBytes size == 4 && off.getLsbD 0)) = true := by
    decide
  rw [masks_eq]
  exact hAll t.size (fOff t.addr)

end Quadra800

------------------------------------------------------------
-- The Answered Transaction
------------------------------------------------------------

namespace Quadra800

open Bus32
open Iosb (sdmaCount recognised laneBytes trailing)

variable {s : Adapter} {v : Visit} {moved : List Iosb.Byte}
variable {chunks : List (List Iosb.Byte)} {w w' : BitVec 32}

def Reply.word : Reply → BitVec 32
  | .data w => w
  | .fault => 0#32

/- What a beat and its reply have on the enabled lanes. -/
def onLanes (p : Beat × Reply) : List Iosb.Byte :=
  laneBytes p.1.be (if p.1.write then p.1.wdata else p.2.word)

/-
  An answered transaction has moved its operand: its bytes,
  no more and no less, in address order, and on every enabled
  lane of its beats the byte that moved.
-/
structure MovesOperand
    (v : Visit)
    (rdata : BitVec 32)
    (moved : List Iosb.Byte) : Prop where
  count : moved.length = fBytes v.txn.size
  writes : v.txn.write = true →
    moved = trailing (fBytes v.txn.size) v.txn.data
  reads : v.txn.write = false →
    trailing (fBytes v.txn.size) rdata = moved
  lanes : (v.presented.zip v.replies).flatMap onLanes = moved

/- The beats and replies of an answered transaction. -/
inductive Completed (v : Visit) (rdata : BitVec 32) : Prop
  | single
      (w : BitVec 32)
      (hOne : isSplit v.txn = false)
      (hReplies : v.replies = [.data w])
      (hData : rdata =
        stream v.txn w >>> (8 * (4 - fBytes v.txn.size)))
  | double
      (w w' : BitVec 32)
      (hTwo : isSplit v.txn = true)
      (hReplies : v.replies = [.data w, .data w'])
      (hData : rdata =
        (stream v.txn w |||
            w' >>> (8 * (4 - (fOff v.txn.addr).toNat))) >>>
          (8 * (4 - fBytes v.txn.size)))

theorem completed_of_telling (hTelling : Telling s v) :
    Completed v s.tRdata := by
  have hWhole := hTelling.whole
  have hOutcome := hTelling.outcome
  unfold Visit.Whole at hWhole
  unfold Visit.outcome at hOutcome
  split at hOutcome
  next w hReplies =>
      cases hSplit : isSplit v.txn with
      | false =>
          exact .single w hSplit hReplies
            (Reply.data.inj hOutcome).symm
      | true =>
          simp [Visit.presented, hReplies, hSplit] at hWhole
  next w w' hReplies =>
      cases hSplit : isSplit v.txn with
      | false =>
          simp [Visit.presented, hReplies, hSplit] at hWhole
      | true =>
          exact .double w w' hSplit hReplies
            (Reply.data.inj hOutcome).symm
  next => cases hOutcome

/- A recognised beat has its bytes on its lanes. -/
theorem lanes_carried
    {b : Beat}
    {bytes : List Iosb.Byte}
    (hBe : recognised b.be = true)
    (hCarried : Carried b w bytes) :
    onLanes (b, .data w) = bytes := by
  cases hWrite : b.write with
  | true =>
      have hBytes : bytes = Iosb.leading (sdmaCount b.be)
          (Iosb.sdmaAlign b.be b.wdata) := hCarried.writes hWrite
      rw [Iosb.leading_align hBe] at hBytes
      rw [onLanes, hBytes, if_pos hWrite]
  | false =>
      rw [onLanes, if_neg (by simp [hWrite])]
      exact hCarried.reads hWrite hBe

/- The chunks of the beats, as many as there are replies. -/
theorem chunks_single
    (hChunks : Chunks v chunks)
    (hReplies : v.replies = [.data w]) :
    ∃ bytes, chunks = [bytes] ∧
      Carried (firstBeat v.txn) w bytes := by
  have hLength := hChunks.count
  rw [hReplies, List.length_singleton,
    List.length_eq_one_iff] at hLength
  rcases hLength with ⟨bytes, rfl⟩
  exact ⟨bytes, rfl,
    hChunks.carried 0 w bytes (by rw [hReplies]; rfl) rfl⟩

theorem chunks_double
    (hChunks : Chunks v chunks)
    (hReplies : v.replies = [.data w, .data w']) :
    ∃ bytes bytes', chunks = [bytes, bytes'] ∧
      Carried (firstBeat v.txn) w bytes ∧
      Carried (tailBeat v.txn) w' bytes' := by
  have hLength : chunks.length = 2 := by
    rw [hChunks.count, hReplies]
    rfl
  rcases List.length_eq_two.mp hLength with
    ⟨bytes, bytes', rfl⟩
  exact ⟨bytes, bytes', rfl,
    hChunks.carried 0 w bytes (by rw [hReplies]; rfl) rfl,
    hChunks.carried 1 w' bytes' (by rw [hReplies]; rfl) rfl⟩

/- How many bytes moved for it. -/
theorem moved_count
    {rdata : BitVec 32}
    (hCompleted : Completed v rdata)
    (hChunks : Chunks v chunks)
    (hMoved : moved = chunks.flatten) :
    moved.length =
      counted ((beatsAsked v.txn).map Beat.be) := by
  cases hCompleted with
  | single w hOne hReplies hData =>
      rcases chunks_single hChunks hReplies with
        ⟨bytes, rfl, hCarried⟩
      simpa [hMoved, beatsAsked, hOne] using hCarried.count
  | double w w' hTwo hReplies hData =>
      rcases chunks_double hChunks hReplies with
        ⟨bytes, bytes', rfl, hCarried, hCarried'⟩
      have hFirst : bytes.length =
          sdmaCount (firstBeat v.txn).be := hCarried.count
      have hTail : bytes'.length =
          sdmaCount (tailBeat v.txn).be := hCarried'.count
      simp [hMoved, beatsAsked, hTwo, hFirst, hTail]

end Quadra800

------------------------------------------------------------
-- The Operand Moved
------------------------------------------------------------

namespace Quadra800

open Bus32
open Iosb (sdmaCount laneBytes trailing)

variable {v : Visit} {rdata : BitVec 32}
variable {moved : List Iosb.Byte}
variable {chunks : List (List Iosb.Byte)}

/- What is on the lanes of a completed transaction. -/
theorem lanes_single
    {w : BitVec 32}
    (hOne : isSplit v.txn = false)
    (hReplies : v.replies = [.data w]) :
    (v.presented.zip v.replies).flatMap onLanes =
      onLanes (firstBeat v.txn, .data w) := by
  simp [Visit.presented, hReplies, hOne]

theorem lanes_double
    {w w' : BitVec 32}
    (hTwo : isSplit v.txn = true)
    (hReplies : v.replies = [.data w, .data w']) :
    (v.presented.zip v.replies).flatMap onLanes =
      onLanes (firstBeat v.txn, .data w) ++
        onLanes (tailBeat v.txn, .data w') := by
  simp [Visit.presented, hReplies, hTwo]

/- The bytes that moved are on the lanes. -/
theorem moved_on_lanes
    (hPlaced : placed v.txn = true)
    (hCompleted : Completed v rdata)
    (hChunks : Chunks v chunks)
    (hMoved : moved = chunks.flatten) :
    (v.presented.zip v.replies).flatMap onLanes = moved := by
  have hKnown := placed_recognised hPlaced
  cases hCompleted with
  | single w hOne hReplies hData =>
      rcases chunks_single hChunks hReplies with
        ⟨bytes, rfl, hCarried⟩
      have hFirst := hKnown (firstBeat v.txn)
        (by simp [beatsAsked, hOne])
      rw [lanes_single hOne hReplies,
        lanes_carried hFirst hCarried, hMoved]
      simp
  | double w w' hTwo hReplies hData =>
      rcases chunks_double hChunks hReplies with
        ⟨bytes, bytes', rfl, hCarried, hCarried'⟩
      have hFirst := hKnown (firstBeat v.txn)
        (by simp [beatsAsked, hTwo])
      have hTail := hKnown (tailBeat v.txn)
        (by simp [beatsAsked, hTwo])
      rw [lanes_double hTwo hReplies,
        lanes_carried hFirst hCarried,
        lanes_carried hTail hCarried', hMoved]
      simp

/- On the lanes of a write is its operand. -/
theorem operand_written
    (hCompleted : Completed v rdata)
    (hWrite : v.txn.write = true) :
    (v.presented.zip v.replies).flatMap onLanes =
      trailing (fBytes v.txn.size) v.txn.data := by
  have hFirst (r : Reply) : onLanes (firstBeat v.txn, r) =
      laneBytes (firstBeat v.txn).be (firstBeat v.txn).wdata := by
    simp [onLanes, firstBeat, hWrite]
  have hTail (r : Reply) : onLanes (tailBeat v.txn, r) =
      laneBytes (tailBeat v.txn).be (tailBeat v.txn).wdata := by
    simp [onLanes, tailBeat, hWrite]
  rw [← lanes_written]
  cases hCompleted with
  | single w hOne hReplies hData =>
      rw [lanes_single hOne hReplies, hFirst]
      simp [beatsAsked, hOne]
  | double w w' hTwo hReplies hData =>
      rw [lanes_double hTwo hReplies, hFirst, hTail]
      simp [beatsAsked, hTwo]

/- On the lanes of a read is what it is answered. -/
theorem operand_read
    (hCompleted : Completed v rdata)
    (hRead : v.txn.write = false) :
    trailing (fBytes v.txn.size) rdata =
      (v.presented.zip v.replies).flatMap onLanes := by
  have hFirst (w : BitVec 32) :
      onLanes (firstBeat v.txn, .data w) =
        laneBytes (firstBeat v.txn).be w := by
    simp [onLanes, firstBeat, hRead, Reply.word]
  have hTail (w : BitVec 32) :
      onLanes (tailBeat v.txn, .data w) =
        laneBytes (tailBeat v.txn).be w := by
    simp [onLanes, tailBeat, hRead, Reply.word]
  cases hCompleted with
  | single w hOne hReplies hData =>
      rw [lanes_single hOne hReplies, hFirst, hData]
      exact lanes_read_single hOne w
  | double w w' hTwo hReplies hData =>
      rw [lanes_double hTwo hReplies, hFirst, hTail, hData]
      exact lanes_read_split hTwo w w'

/- A completed transaction has moved its operand if placed. -/
theorem movesOperand_iff
    (hCompleted : Completed v rdata)
    (hChunks : Chunks v chunks)
    (hMoved : moved = chunks.flatten) :
    MovesOperand v rdata moved ↔ placed v.txn = true := by
  have hCount := moved_count hCompleted hChunks hMoved
  constructor
  · intro hMoves
    rw [← counted_iff, ← hCount]
    exact hMoves.count
  · intro hPlaced
    have hLanes :=
      moved_on_lanes hPlaced hCompleted hChunks hMoved
    exact {
      count := by
        rw [hCount]
        exact counted_iff.mpr hPlaced
      writes := by
        intro hWrite
        rw [← hLanes]
        exact operand_written hCompleted hWrite
      reads := by
        intro hRead
        rw [← hLanes]
        exact operand_read hCompleted hRead
      lanes := hLanes }

end Quadra800

------------------------------------------------------------
-- Runs
------------------------------------------------------------

namespace Quadra800

open Bus32 Clocked

/- The CPU and the walker hold their requests. -/
def Held (x : Machine × Book) (d : Drive) : Prop :=
  Contract (x.1.board, x.2.ledger) (boardIn x.1 d)

instance (x : Machine × Book) (d : Drive) :
    Decidable (Held x d) :=
  inferInstanceAs
    (Decidable (Contract (x.1.board, x.2.ledger)
      (boardIn x.1 d)))

/- Any machine after a cycle of reset, nothing booked. -/
def machineStart (cfg : Iosb.Config) (m : Machine) :
    Machine × Book :=
  machineEdge cfg (m, {}) { env := { nreset := false } }

/- In an answered state its transaction is complete. -/
theorem answered_iff
    {x : Machine × Book}
    (hInv : MachineInv x)
    {v : Visit}
    (hNow : x.2.ledger.cpu.now = some v)
    (hAck : x.1.board.bus.tAck = true)
    (hInside : Inside v.txn) :
    MovesOperand v x.1.board.bus.tRdata x.2.moved ↔
      placed v.txn = true := by
  have hTelling : Telling x.1.board.bus v := by
    have hPhase := hInv.board.cpu.phase
    rw [hNow] at hPhase
    rcases hPhase with hFirst | hTail | hTelling
    · exact absurd hFirst.ack (by simp [hAck])
    · exact absurd hTail.ack (by simp [hAck])
    · exact hTelling
  rcases @cpu_idle x.1.board (boardIn x.1 {})
    x.2.ledger.traffic x.2.ledger.cpu hInv.board.cpu
    hTelling.active with ⟨hIn, hNoAck, hNoBerr, -, -⟩
  rcases hInv.visit v hNow hInside hNoBerr with
    ⟨chunks, rest, hMoved, hChunks, hCurrent⟩
  have hRest : rest = [] := hCurrent.waiting hNoAck hIn
  rw [hRest, List.append_nil] at hMoved
  exact movesOperand_iff (completed_of_telling hTelling) hChunks
    hMoved

/-
  In every run, resets included, and for every transaction in
  the window that is answered without a fault: it has moved
  its operand just when its beats' lanes are known.
-/
theorem operand_moved_iff
    (cfg : Iosb.Config)
    (m : Machine)
    (ds : List Drive)
    (hHeld : Along (machineEdge cfg) Held (machineStart cfg m)
      ds) :
    Always (machineEdge cfg)
      (fun x => ∀ v, x.2.ledger.cpu.now = some v →
        x.1.board.bus.tAck = true → Inside v.txn →
          (MovesOperand v x.1.board.bus.tRdata x.2.moved ↔
            placed v.txn = true))
      (machineStart cfg m) ds := by
  have hStart : MachineInv (machineStart cfg m) :=
    machineInv_reset rfl
  exact always_mono
    (fun x hInv v hNow hAck hInside =>
      answered_iff hInv hNow hAck hInside)
    (always_of_along machineInv_step hHeld hStart)

end Quadra800

------------------------------------------------------------
-- Words at Odd Addresses
------------------------------------------------------------

namespace Quadra800

open Bus32 Clocked

deriving instance DecidableEq for Visit

/- A word write, held on the pins. -/
def wordWrite (addr : BitVec 32) : Drive where
  env := {
    busReq := true
    busWrite := true
    busSize := 1#2
    busAddr := addr
    busWdata := 0x1122#32 }

def wordVisit (addr : BitVec 32) (replies : List Reply) :
    Visit where
  txn := ⟨true, 1#2, addr, 0x1122#32⟩
  replies := replies

/- An idle machine, as built, after so many cycles of it. -/
def wordState (addr : BitVec 32) (cycles : Nat) :
    Machine × Book :=
  run (machineEdge Iosb.built)
    (machineStart Iosb.built ⟨Board.reset, default⟩)
    (List.replicate cycles (wordWrite addr))

/- Across longwords: on the last lane and on the first. -/
theorem operand_moved_splitWord :
    MovesOperand
        (wordVisit 0x50010103#32 [.data 0#32, .data 0#32])
        (wordState 0x50010103#32 13).1.board.bus.tRdata
        (wordState 0x50010103#32 13).2.moved ∧
      (wordState 0x50010103#32 13).2.moved =
        [0x11#8, 0x22#8] := by
  have hHeld : Along (machineEdge Iosb.built) Held
      (machineStart Iosb.built ⟨Board.reset, default⟩)
      (List.replicate 13 (wordWrite 0x50010103#32)) := by
    decide +kernel
  have hMoves := operand_moved_iff Iosb.built
    ⟨Board.reset, default⟩ _ hHeld _ List.prefix_rfl
    (wordVisit 0x50010103#32 [.data 0#32, .data 0#32])
    (by decide +kernel) (by decide +kernel)
    ⟨⟨rfl, rfl⟩, fun _ => ⟨rfl, rfl⟩⟩
  exact ⟨hMoves.mpr (by decide), by decide +kernel⟩

/- Within a longword, on the middle lanes: one byte moves. -/
theorem odd_word_cut_short :
    ¬ ∀ (cfg : Iosb.Config) (m : Machine) (ds : List Drive),
      Along (machineEdge cfg) Held (machineStart cfg m) ds →
        Always (machineEdge cfg)
          (fun x => ∀ v, x.2.ledger.cpu.now = some v →
            x.1.board.bus.tAck = true → Inside v.txn →
              MovesOperand v x.1.board.bus.tRdata x.2.moved)
          (machineStart cfg m) ds := by
  intro hAll
  have hHeld : Along (machineEdge Iosb.built) Held
      (machineStart Iosb.built ⟨Board.reset, default⟩)
      (List.replicate 7 (wordWrite 0x50010101#32)) := by
    decide +kernel
  have hMoves := hAll Iosb.built ⟨Board.reset, default⟩ _ hHeld _
    List.prefix_rfl (wordVisit 0x50010101#32 [.data 0#32])
    (by decide +kernel) (by decide +kernel)
    ⟨⟨rfl, rfl⟩, fun hSplit => Bool.noConfusion hSplit⟩
  have hCount := hMoves.count
  revert hCount
  decide +kernel

end Quadra800
