import Mathlib.Logic.Function.Basic

/-
  The byte store the RTC/PRAM chip is meant to be.

  A selection is the bytes the host clocks in between a
  select and the next change of the enable line.  The bytes
  are read as commands, one after another: a classic command
  and its data byte, an extended command with an address byte
  and its data byte, or a read.  A read ends the selection:
  from there on the chip sends.

  Key definitions include:
    * `Store`
    * `serve`
    * `feed`

  Key theorems include:
    * `serve_snoc`
-/

------------------------------------------------------------
-- Command Bytes
------------------------------------------------------------

namespace Rtc

abbrev Byte := BitVec 8

/- The register a classic command names. -/
def register (c : Byte) : BitVec 5 := c.extractLsb' 2 5

def isRead (c : Byte) : Bool := c.getLsbD 7

/- The $38 family: a second byte completes the address. -/
def isExtended (c : Byte) : Bool :=
  c.extractLsb' 3 4 == 0b0111#4

/- The classic PRAM slots 8 to 11 and 16 to 31. -/
def isSlot (r : BitVec 5) : Bool :=
  decide (8 ≤ r.toNat ∧ r.toNat ≤ 11) || decide (16 ≤ r.toNat)

/- A classic slot is the byte of the same index. -/
def slotAddr (r : BitVec 5) : Byte := BitVec.ofNat 8 r.toNat

/- The address of an extended command and its second byte. -/
def extAddr (c a : Byte) : Byte :=
  c.extractLsb' 0 3 ++ a.extractLsb' 2 5

end Rtc

------------------------------------------------------------
-- The Store
------------------------------------------------------------

namespace Rtc

/- 256 bytes and the write-protect bit. -/
structure Store where
  mem : Byte → Byte
  wprot : Bool

namespace Store

/- Change one byte, unless the store is protected. -/
def put (st : Store) (a d : Byte) : Store :=
  if st.wprot then st
  else { st with mem := Function.update st.mem a d }

/- A classic write; register 13 is the write-protect bit. -/
def writeRegister
    (st : Store) (r : BitVec 5) (d : Byte) : Store :=
  if isSlot r then st.put (slotAddr r) d
  else if r == 13#5 then { st with wprot := d.getLsbD 7 }
  else st

end Store

/- What the next byte of a selection will be. -/
inductive Wants where
  | command
  | data (r : BitVec 5)
  | address (c : Byte)
  | extData (a : Byte)
  | clocks (b : Option Byte)
  deriving DecidableEq

/-
  Serve the bytes of a selection.  What is missing at the end
  is what the chip waits for; a read waits for clocks, and
  knows the byte to send if it is a byte of the store.
-/
def serve : Store → List Byte → Store × Wants
  | st, [] => (st, .command)
  | st, c :: bs =>
      if isExtended c then
        match bs with
        | [] => (st, .address c)
        | a :: bs =>
            if isRead c then
              (st, .clocks (some (st.mem (extAddr c a))))
            else
              match bs with
              | [] => (st, .extData (extAddr c a))
              | d :: bs => serve (st.put (extAddr c a) d) bs
      else if isRead c then
        (st, .clocks (if isSlot (register c) then
          some (st.mem (slotAddr (register c))) else none))
      else
        match bs with
        | [] => (st, .data (register c))
        | d :: bs => serve (st.writeRegister (register c) d) bs

/- The same, one byte at a time. -/
def feed : Store × Wants → Byte → Store × Wants
  | (st, .command), c =>
      (st,
        if isExtended c then .address c
        else if isRead c then
          .clocks (if isSlot (register c) then
            some (st.mem (slotAddr (register c))) else none)
        else .data (register c))
  | (st, .data r), d => (st.writeRegister r d, .command)
  | (st, .address c), a =>
      (st,
        if isRead c then .clocks (some (st.mem (extAddr c a)))
        else .extData (extAddr c a))
  | (st, .extData a), d => (st.put a d, .command)
  | (st, .clocks b), _ => (st, .clocks b)

section

variable {st : Store} {c : Byte}

theorem feed_extended (hExt : isExtended c = true) :
    feed (st, .command) c = (st, .address c) := by
  simp [feed, hExt]

theorem feed_readSlot
    (hExt : isExtended c = false)
    (hRead : isRead c = true)
    (hSlot : isSlot (register c) = true) :
    feed (st, .command) c =
      (st, .clocks (some (st.mem (slotAddr (register c))))) := by
  simp [feed, hExt, hRead, hSlot]

theorem feed_readOther
    (hExt : isExtended c = false)
    (hRead : isRead c = true)
    (hSlot : isSlot (register c) = false) :
    feed (st, .command) c = (st, .clocks none) := by
  simp [feed, hExt, hRead, hSlot]

theorem feed_write
    (hExt : isExtended c = false)
    (hRead : isRead c = false) :
    feed (st, .command) c = (st, .data (register c)) := by
  simp [feed, hExt, hRead]

theorem feed_extRead {a : Byte} (hRead : isRead c = true) :
    feed (st, .address c) a =
      (st, .clocks (some (st.mem (extAddr c a)))) := by
  simp [feed, hRead]

theorem feed_extWrite {a : Byte} (hRead : isRead c = false) :
    feed (st, .address c) a =
      (st, .extData (extAddr c a)) := by
  simp [feed, hRead]

/- A write to the store, as the RAM's port does it. -/
theorem mem_put (st : Store) (a d : Byte) :
    (st.put a d).mem =
      if !st.wprot then Function.update st.mem a d
      else st.mem := by
  unfold Store.put
  cases st.wprot <;> rfl

theorem wprot_put (st : Store) (a d : Byte) :
    (st.put a d).wprot = st.wprot := by
  unfold Store.put
  split <;> rfl

/- A classic write changes the RAM through its slots only. -/
theorem mem_writeRegister
    (st : Store) (r : BitVec 5) (d : Byte) :
    (st.writeRegister r d).mem =
      if !st.wprot && isSlot r then
        Function.update st.mem (slotAddr r) d
      else st.mem := by
  unfold Store.writeRegister
  cases hSlot : isSlot r with
  | true =>
      simp only [if_true, mem_put, Bool.and_true]
  | false =>
      simp only [Bool.and_false, Bool.false_eq_true, if_false]
      split <;> rfl

/- Register 13 is not a slot. -/
theorem wprot_writeRegister
    (st : Store) (r : BitVec 5) (d : Byte) :
    (st.writeRegister r d).wprot =
      if r == 13#5 then d.getLsbD 7 else st.wprot := by
  unfold Store.writeRegister
  by_cases hProtect : r = 13#5
  · rw [hProtect]
    rfl
  · have hOther : (r == 13#5) = false := by
      simpa using hProtect
    simp only [hOther, Bool.false_eq_true, if_false]
    split
    · exact wprot_put st _ d
    · rfl

end

/- One more byte is served after the bytes before it. -/
theorem serve_snoc (st : Store) (bs : List Byte) (b : Byte) :
    serve st (bs ++ [b]) = feed (serve st bs) b := by
  fun_induction serve st bs with
  | case1 st =>
      simp only [List.nil_append, serve, feed]
      split
      · rfl
      · split <;> rfl
  | case2 st c hExt =>
      simp only [List.cons_append, List.nil_append, serve, feed,
        hExt, if_true]
      split <;> rfl
  | case3 st c hExt a bs hRead =>
      rw [List.cons_append, serve.eq_def]
      simp [feed, hExt, hRead]
  | case4 st c hExt a hRead =>
      simp [serve, feed, hExt, hRead]
  | case5 st c hExt a hRead d bs ih =>
      simpa [serve, hExt, hRead] using ih
  | case6 st c bs hExt hRead =>
      rw [List.cons_append, serve.eq_def]
      simp [feed, hExt, hRead]
  | case7 st c hExt hRead =>
      simp [serve, feed, hExt, hRead]
  | case8 st c hExt hRead d bs ih =>
      rw [List.cons_append, serve.eq_def]
      simpa [hExt, hRead] using ih

end Rtc
