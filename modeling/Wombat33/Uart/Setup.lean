import Wombat33.Clocked.Sender

/-
  The setup words of the serial ports and their frames.

  A setup word holds the clocks of a bit, the kind of parity,
  the number of stop bits and the number of data bits.  The
  transmitter has one bit more than the receiver, and it is not
  about frames.  A frame is a start bit, the data bits from
  the lowest up, the parity bit if there is one, and the stop
  bits.

  Key definitions include:
    * `clocksPerBaud`, `breakCondition`, `dataBits`
    * `dataLevels`, `payload`, `lineCode`
    * `shown`

  Key theorems include:
    * `dataLevels_succ`
    * `payload_length`
    * `lineCode_append`
-/

------------------------------------------------------------
-- The Setup Word
------------------------------------------------------------

namespace Uart

open Clocked

abbrev Byte := BitVec 8

section Fields

variable {w : Nat} (u : BitVec w)

def clocksPerBaud : BitVec 28 :=
  0#4 ++ (u.extractLsb' 0 24 : BitVec 24)

def breakCondition : BitVec 28 :=
  (u.extractLsb' 0 24 : BitVec 24) ++ 0#4

def halfBaud : BitVec 28 :=
  (0#5 ++ (u.extractLsb' 1 23 : BitVec 23)) - 1#28

def hwFlowControl : Bool := !u.getLsbD 30

def dataBits : BitVec 2 := u.extractLsb' 28 2

def dblstop : Bool := u.getLsbD 27

def useParity : Bool := u.getLsbD 26

def fixdParity : Bool := u.getLsbD 25

/- The fixed parity bit; `parity_odd` and `parity_even`. -/
def parityBit : Bool := u.getLsbD 24

/- The clocks of a bit, as a number. -/
def baud : Nat := (u.extractLsb' 0 24 : BitVec 24).toNat

/- The data bits of a frame: five to eight. -/
def dataCount : Nat := 8 - (dataBits u).toNat

end Fields

variable {w : Nat} {u : BitVec w}

theorem baud_lt : baud u < 0x1000000 :=
  (u.extractLsb' 0 24 : BitVec 24).isLt

theorem clocksPerBaud_toNat :
    (clocksPerBaud u).toNat = baud u := by
  rw [clocksPerBaud, BitVec.toNat_append]
  simp [baud]

theorem breakCondition_toNat :
    (breakCondition u).toNat = 16 * baud u := by
  rw [breakCondition, BitVec.toNat_append, baud,
    Nat.shiftLeft_eq]
  simp [Nat.mul_comm]

theorem halfBaud_toNat (hBaud : 2 ≤ baud u) :
    (halfBaud u).toNat = baud u / 2 - 1 := by
  have hLt := baud_lt (u := u)
  have hHalf : (0#5 ++ (u.extractLsb' 1 23 : BitVec 23)).toNat =
      baud u / 2 := by
    rw [BitVec.toNat_append, baud]
    simp only [BitVec.extractLsb'_toNat,
      Nat.shiftRight_eq_div_pow]
    simp
    omega
  rw [halfBaud, BitVec.toNat_sub, hHalf]
  have hOne : (1#28).toNat = 1 := rfl
  omega

theorem dataCount_bounds :
    5 ≤ dataCount u ∧ dataCount u ≤ 8 := by
  have hLt := (dataBits u).isLt
  unfold dataCount
  omega

end Uart

------------------------------------------------------------
-- Frames
------------------------------------------------------------

namespace Uart

open Clocked

/- The lowest bits of a byte, as they are sent. -/
def dataLevels (d : Byte) (count : Nat) : List Bool :=
  (List.range count).map d.getLsbD

def parityOf (levels : List Bool) : Bool :=
  levels.foldr (· ^^ ·) false

section Format

variable {w : Nat} (u : BitVec w)

/- The parity of data that has the value `odd` without it. -/
def parityLevels (odd : Bool) : List Bool :=
  if useParity u then
    [if fixdParity u then parityBit u else parityBit u ^^ odd]
  else []

def stopLevels : List Bool :=
  if dblstop u then [true, true] else [true]

/- What follows the start bit. -/
def payload (d : Byte) : List Bool :=
  dataLevels d (dataCount u) ++
    parityLevels u (parityOf (dataLevels d (dataCount u))) ++
    stopLevels u

def lineCode : LineCode Bool Byte where
  symbol := baud u
  mark := true
  start := false
  payload := payload u

/- A byte as the receiver shows it: its data bits only. -/
def shown (d : Byte) : Byte :=
  d &&& (0xFF#8 >>> (8 - dataCount u))

end Format

variable {w : Nat} {u : BitVec w}

@[simp] theorem dataLevels_zero (d : Byte) :
    dataLevels d 0 = [] :=
  rfl

@[simp] theorem dataLevels_length (d : Byte) (count : Nat) :
    (dataLevels d count).length = count := by
  simp [dataLevels]

theorem dataLevels_succ (d : Byte) (count : Nat) :
    dataLevels d (count + 1) =
      d.getLsbD 0 :: dataLevels (d >>> 1) count := by
  rw [dataLevels, List.range_succ_eq_map, List.map_cons,
    List.map_map, dataLevels]
  congr 1
  apply List.map_congr_left
  intro k hk
  simp [Nat.add_comm]

@[simp] theorem parityOf_cons (b : Bool) (levels : List Bool) :
    parityOf (b :: levels) = (b ^^ parityOf levels) :=
  rfl

/- The bit that follows in a state machine's count of bits. -/
theorem nextBit_toNat
    {k : BitVec 3}
    (hLess : k.toNat < 7) :
    (k + 1#3).toNat = k.toNat + 1 := by
  have hOne : (1#3).toNat = 1 := rfl
  rw [BitVec.toNat_add, hOne]
  omega

theorem payload_length (d : Byte) :
    (payload u d).length ≤ 11 := by
  have hCount := dataCount_bounds (u := u)
  have hParity (odd : Bool) :
      (parityLevels u odd).length ≤ 1 := by
    unfold parityLevels
    split_ifs <;> simp
  have hStop : (stopLevels u).length ≤ 2 := by
    unfold stopLevels
    split_ifs <;> simp
  simp only [payload, List.length_append, dataLevels_length]
  have hOne := hParity (parityOf (dataLevels d (dataCount u)))
  omega

/- The further bit of the transmitter's word. -/
theorem fields_append (b : BitVec 1) (v : BitVec 30) :
    baud (b ++ v) = baud v ∧ dataBits (b ++ v) = dataBits v ∧
      dblstop (b ++ v) = dblstop v ∧
      useParity (b ++ v) = useParity v ∧
      fixdParity (b ++ v) = fixdParity v ∧
      parityBit (b ++ v) = parityBit v := by
  have hBit (i : Nat) (hi : i < 30) :
      (b ++ v).getLsbD i = v.getLsbD i := by
    rw [BitVec.getLsbD_append, if_pos hi]
  have hBaud : (b ++ v).extractLsb' 0 24 =
      v.extractLsb' 0 24 := by
    apply BitVec.eq_of_getLsbD_eq
    intro i hi
    rw [BitVec.getLsbD_extractLsb', BitVec.getLsbD_extractLsb',
      hBit (0 + i) (by omega)]
  have hBits : (b ++ v).extractLsb' 28 2 =
      v.extractLsb' 28 2 := by
    apply BitVec.eq_of_getLsbD_eq
    intro i hi
    rw [BitVec.getLsbD_extractLsb', BitVec.getLsbD_extractLsb',
      hBit (28 + i) (by omega)]
  refine ⟨?_, hBits, hBit 27 (by decide), hBit 26 (by decide),
    hBit 25 (by decide), hBit 24 (by decide)⟩
  rw [baud, hBaud, baud]

theorem lineCode_append (b : BitVec 1) (v : BitVec 30) :
    lineCode (b ++ v) = lineCode v := by
  rcases fields_append b v with
    ⟨hBaud, hBits, hStop, hUse, hFixed, hParity⟩
  have hPayload : payload (b ++ v) = payload v := by
    funext d
    simp only [payload, dataCount, parityLevels, stopLevels,
      hBits, hStop, hUse, hFixed, hParity]
  simp only [lineCode, hBaud, hPayload]

end Uart
