import Wombat33.Uart.Transmitter
import Wombat33.Uart.Reception

/-
  A serial channel in local loopback.

  In this mode the line of a channel's transmitter is the
  input of its receiver.  Both have the fields of one setup;
  no break is sent and the flow control is off.  What is
  written while the transmitter is not busy comes back, each
  byte once and in order, in bounded time.

  Key definitions include:
    * `Channel`, `Channel.edge`, `booted`
    * `Linked`

  Key theorems include:
    * `linked_step`
    * `loopback_in_order`
    * `loopback_in_time`
-/

------------------------------------------------------------
-- The Channel
------------------------------------------------------------

namespace Uart

open Clocked

structure Channel where
  tx : Transmitter
  rx : Receiver
  deriving DecidableEq, Inhabited

structure Write where
  reset : Bool := false
  wr : Bool := false
  data : Byte := 0#8
  deriving DecidableEq

/- The bytes taken over from the host and those strobed. -/
structure Book where
  accepted : List Byte := []
  delivered : List Byte := []
  deriving DecidableEq

variable (v : BitVec 30)

def txIn (w : Write) : TxIn where
  reset := w.reset
  setup := 1#1 ++ v
  wr := w.wr
  data := w.data

def rxIn (c : Channel) (w : Write) : RxIn where
  reset := w.reset
  setup := 0#1 ++ v
  uartRx := c.tx.uartTx

def Channel.edge (c : Channel) (w : Write) : Channel where
  tx := c.tx.step (txIn v w)
  rx := c.rx.step (rxIn v c w)

def note (b : Book) (c : Channel) (w : Write) : Book where
  accepted := b.accepted ++ (taken c.tx (txIn v w)).toList
  delivered := b.delivered ++ strobed c.rx

def channelEdge : Channel × Book → Write → Channel × Book :=
  watch (Channel.edge v) (note v)

/- The registers' initial values; others are arbitrary. -/
def powerUp : Channel where
  tx := {
    rSetup := 868#31
    state := .idle
    rBusy := true
    lclData := 0xFF#8
    uartTx := true
    calcParity := false
    baudCounter := 5#28
    zeroBaudCounter := false
    lastState := false
    qCtsN := false
    qqCtsN := false
    ckCts := false }
  rx := {
    rSetup := 868#30
    qUart := false
    qqUart := false
    ckUart := false
    chgCounter := 0#28
    oBreak := false
    lineSynch := false
    halfBaudTime := false
    state := .resetIdle
    dataReg := 0x00#8
    calcParity := false
    oParityErr := false
    oFrameErr := false
    preWr := false
    oData := 0x00#8
    oWr := false
    baudCounter := 0#28
    zeroBaudCounter := false }

/- The channel after some clocks of reset. -/
def booted (c : Channel) : Channel :=
  run (Channel.edge v) c
    (List.replicate 5 ({ reset := true } : Write))

end Uart

------------------------------------------------------------
-- Line and Receiver Linked
------------------------------------------------------------

namespace Uart

open Clocked

variable {v : BitVec 30} {e : Echo Bool Byte}
variable {x : Channel × Book} {w : Write}

/- A frame under way is of bounded length. -/
def Short (v : BitVec 30) (s : Sender Bool Byte) : Prop :=
  s.sent = [] ∨ s.total (lineCode v) < 12 * baud v

theorem short_next
    (hBaud : 3 ≤ baud v)
    {s : Sender Bool Byte}
    (hShort : Short v s)
    (offer : Option Byte) :
    Short v (s.next (lineCode v) offer) := by
  have hSymbol : 0 < (lineCode v).symbol := by
    show 0 < baud v
    omega
  rcases Sender.sent_next (c := lineCode v) (s := s) offer with
    hSame | ⟨hLeft, hRest, d, hOffer, -⟩
  · rcases hShort with hNone | hBound
    · exact .inl (hSame.trans hNone)
    · rw [Short, Sender.total_next hSymbol hSame]
      exact .inr (by omega)
  · have hLength := payload_length (u := v) d
    have hFull : baud v * (payload v d).length ≤ baud v * 11 :=
      Nat.mul_le_mul_left _ hLength
    refine .inr ?_
    rw [hOffer, Sender.next_start d hLeft hRest]
    show baud v * (payload v d).length + (baud v - 1) < _
    omega

/- The bytes of the complete frames are the first ones sent. -/
theorem phase_bytes
    {s : Sender Bool Byte}
    {r : Receiver}
    {bytes : List Byte}
    (hPhase : Phase v s r bytes) :
    bytes = s.sent ∨ ∃ d, s.sent = bytes ++ [d] := by
  cases hPhase with
  | waiting hState hLine hRest hSent => exact .inl hSent.symm
  | resting => exact .inl rfl
  | starting d bytes hSent => exact .inr ⟨d, hSent⟩
  | receiving d bytes hSent => exact .inr ⟨d, hSent⟩

/- The line's past beside the channel and its book. -/
structure Linked
    (v : BitVec 30)
    (e : Echo Bool Byte)
    (x : Channel × Book) : Prop where
  follows : e.Follows (lineCode v)
  short : Short v e.now
  sends : Sends (1#1 ++ v) x.1.tx e.now
  first : x.1.rx.qUart = e.one.level
  second : x.1.rx.qqUart = e.two.level
  accepted : e.now.sent = x.2.accepted
  delivered : ∃ bytes, Tuned v e.three x.1.rx bytes ∧
    x.2.delivered ++ owed x.1.rx = bytes.map (shown v)

theorem baud_tx : baud (1#1 ++ v) = baud v :=
  (fields_append 1#1 v).1

theorem steady_rxIn {c : Channel} (hOn : w.reset = false) :
    Steady v (rxIn v c w) where
  reset := hOn
  setup := by
    show (0#1 ++ v).setWidth 30 = v
    apply BitVec.eq_of_getLsbD_eq
    intro k hk
    rw [BitVec.getLsbD_setWidth, BitVec.getLsbD_append,
      if_pos hk, decide_eq_true hk, Bool.true_and]

theorem linked_step
    (hBaud : 3 ≤ baud v)
    (hLinked : Linked v e x)
    (hOn : w.reset = false) :
    Linked v
      (e.next (lineCode v) (taken x.1.tx (txIn v w)))
      (channelEdge v x w) := by
  rcases hLinked.delivered with ⟨bytes, hTuned, hDelivered⟩
  rcases hLinked.follows.two with ⟨late, hLate⟩
  have hPlain : Plain (1#1 ++ v) (txIn v w) := ⟨hOn, rfl, rfl⟩
  have hSends := sends_step (u := 1#1 ++ v)
    (by rw [baud_tx]; exact hBaud) hPlain hLinked.sends
  rw [lineCode_append] at hSends
  have hQueue : x.1.rx.qqUart =
      (e.three.next (lineCode v) late).level := by
    rw [hLinked.second, hLate]
  rcases tuned_step hBaud (steady_rxIn (c := x.1) hOn) hTuned
      hQueue with ⟨new, hTuned', hOwed⟩
  rw [← hLate] at hTuned'
  refine ⟨Echo.follows_next hLinked.follows _,
    short_next hBaud hLinked.short _, hSends,
    hLinked.sends.level, hLinked.first, ?_,
    bytes ++ new, hTuned', ?_⟩
  · show (e.now.next (lineCode v) (taken x.1.tx (txIn v w))).sent =
      x.2.accepted ++ (taken x.1.tx (txIn v w)).toList
    rw [sent_taken hLinked.sends, hLinked.accepted]
  · show x.2.delivered ++ strobed x.1.rx ++
      owed (x.1.rx.step (rxIn v x.1 w)) = _
    rw [List.append_assoc, hOwed, ← List.append_assoc, hDelivered,
      List.map_append]

end Uart

------------------------------------------------------------
-- After Reset
------------------------------------------------------------

namespace Uart

open Clocked Receiver

variable {v : BitVec 30} {c : Channel} {r : Receiver} {i : RxIn}

/- What reset does to the receiver at once. -/
theorem rx_reset (hReset : i.reset = true) :
    (r.step i).state = .resetIdle ∧
      (r.step i).chgCounter = 0#28 ∧
      (r.step i).preWr = false ∧
      (r.step i).oWr = false := by
  simp [step, stateEdge, chgCounterEdge, preWrEdge, oWrEdge,
    hReset]

/- What it does to a receiver that waits. -/
theorem rx_reset_waiting
    (hSetup : i.setup.setWidth 30 = v)
    (hState : r.state = .resetIdle) :
    (r.step i).rSetup = v ∧ (r.step i).oFrameErr = false := by
  simp [step, oFrameErrEdge, RxState.quiet, RxState.waits, hState,
    hSetup]

/- What it does to a waiting receiver at the right setup. -/
theorem rx_reset_tuned
    (hBaud : 3 ≤ baud v)
    (hReset : i.reset = true)
    (hSetup : r.rSetup = v)
    (hState : r.state = .resetIdle)
    (hChg : r.chgCounter = 0#28) :
    (r.step i).baudCounter.toNat = baud v - 1 ∧
      (r.step i).lineSynch = false ∧
      (r.step i).oBreak = false ∧
      (r.step i).zeroBaudCounter = (r.baudCounter == 1#28) := by
  have hShort : r.unchanged = false := by
    rw [unchanged_eq hSetup, hChg]
    simp
    omega
  refine ⟨?_, ?_, ?_, ?_⟩
  · show (r.baudCounterEdge i).toNat = _
    simp [baudCounterEdge, hReset, reload_toNat hBaud hSetup]
  · show (r.unchanged && r.ckUart) = false
    rw [hShort, Bool.false_and]
  · show (r.unchanged && !r.ckUart) = false
    rw [hShort, Bool.false_and]
  · show (if r.state == .idle then false
      else r.baudCounter == 1#28) = _
    rw [hState]
    rfl

theorem tx_reset
    {t : Transmitter}
    {i : TxIn}
    (hReset : i.reset = true) :
    (t.step i).uartTx = true ∧ (t.step i).rBusy = true ∧
      (t.step i).rSetup =
        (if t.rBusy then t.rSetup else i.setup) := by
  refine ⟨?_, ?_, ?_⟩
  · simp [Transmitter.step, Transmitter.uartTxEdge, hReset]
  · simp [Transmitter.step, Transmitter.stateEdge, hReset]
  · show (if !t.rBusy then i.setup else t.rSetup) = _
    cases t.rBusy <;> rfl

/- A reset at a slow enough setup leaves it slow enough. -/
theorem slow_reset
    {t : Transmitter}
    (hSlow : baud v ≤ baud t.rSetup) :
    baud v ≤
      baud (t.step (txIn v { reset := true })).rSetup := by
  rw [(tx_reset rfl).2.2]
  split_ifs
  · exact hSlow
  · exact Nat.le_of_eq baud_tx.symm

/- The sender after a reset, and as it would have been. -/
def quietEcho (left : Nat) : Echo Bool Byte where
  now := quietSender left
  one := quietSender (left + 1)
  two := quietSender (left + 2)
  three := quietSender (left + 3)

theorem quiet_follows (left : Nat) :
    (quietEcho left).Follows (lineCode v) where
  now := ⟨none, rfl⟩
  one := ⟨none, rfl⟩
  two := ⟨none, rfl⟩

theorem linked_booted
    (hBaud : 3 ≤ baud v)
    (hSlow : baud v ≤ baud c.tx.rSetup) :
    ∃ e, Linked v e (booted v c, {}) := by
  let reset : Write := { reset := true }
  let one := c.edge v reset
  let two := one.edge v reset
  let three := two.edge v reset
  let four := three.edge v reset
  have hBooted : booted v c = four.edge v reset := rfl
  have hSetup (d : Channel) :
      (rxIn v d reset).setup.setWidth 30 = v := by
    have hSteady : Steady v (rxIn v d { reset := false }) :=
      steady_rxIn rfl
    exact hSteady.setup
  -- the transmitter counts sixteen of its own bits
  have hSlowFour : baud v ≤ baud four.tx.rSetup :=
    slow_reset (slow_reset (slow_reset (slow_reset hSlow)))
  have hSends := sends_reset (u := 1#1 ++ v) (t := four.tx)
    (i := txIn v reset) (by omega) rfl
  -- the receiver: reset, set up, ready, and past its old line
  rcases rx_reset (r := two.rx) (i := rxIn v two reset) rfl with
    ⟨hThreeState, hThreeChg, -, -⟩
  rcases rx_reset (r := three.rx) (i := rxIn v three reset) rfl
    with ⟨hFourState, hFourChg, -, -⟩
  rcases rx_reset (r := four.rx) (i := rxIn v four reset) rfl
    with ⟨hState, hChg, hPre, hWr⟩
  have hTwoState : two.rx.state = .resetIdle :=
    (rx_reset (r := one.rx) (i := rxIn v one reset) rfl).1
  have hThreeSetup : three.rx.rSetup = v :=
    (rx_reset_waiting (hSetup two) hTwoState).1
  have hFourSetup : four.rx.rSetup = v :=
    (rx_reset_waiting (hSetup three) hThreeState).1
  rcases rx_reset_waiting (r := four.rx) (hSetup four) hFourState
    with ⟨hRSetup, hFrame⟩
  have hFourBaud : four.rx.baudCounter.toNat = baud v - 1 :=
    (rx_reset_tuned hBaud rfl hThreeSetup hThreeState
      hThreeChg).1
  rcases rx_reset_tuned (i := rxIn v four reset) hBaud rfl
      hFourSetup hFourState hFourChg
    with ⟨hCounter, hSynch, hBreak, hZero⟩
  have hHigh (t : Transmitter) :
      (t.step (txIn v reset)).uartTx = true :=
    (tx_reset rfl).1
  have hZero' : (four.rx.step (rxIn v four reset)).zeroBaudCounter =
      false := by
    rw [hZero, ← Bool.not_eq_true, counter_eq_one, hFourBaud]
    omega
  refine ⟨quietEcho (16 * baud four.tx.rSetup + 1),
    quiet_follows _, .inl rfl, ?_, ?_, ?_, rfl, [], ?_, ?_⟩
  · rw [hBooted]
    exact hSends
  · exact hHigh three.tx
  · exact hHigh two.tx
  · refine ⟨hRSetup, hHigh one.tx, hBreak, hFrame, ?_, ?_⟩
    · intro hStrobe
      rw [hBooted] at hStrobe
      exact absurd (hWr.symm.trans hStrobe) (by decide)
    · refine .waiting hState rfl rfl rfl ⟨hCounter, hZero'⟩
        ⟨hPre, hWr⟩ ?_ ?_
      · show 16 * baud v + 3 ≤ 16 * baud four.tx.rSetup + 1 + 3 +
          _ + _
        omega
      · rw [hBooted]
        have hNone :
            (four.rx.step (rxIn v four reset)).chgCounter.toNat =
              0 := by
          rw [hChg]
          rfl
        refine Nat.le_trans (Nat.le_of_eq hNone) ?_
        exact Nat.zero_le _
  · rw [hBooted]
    show [] ++ owed (four.rx.step (rxIn v four reset)) = []
    simp [owed, strobed, hPre, hWr]

end Uart

------------------------------------------------------------
-- What Comes Back
------------------------------------------------------------

namespace Uart

open Clocked Receiver

variable {v : BitVec 30} {e : Echo Bool Byte}
variable {x : Channel × Book} {c : Channel}
variable {ws pre : List Write}

theorem linked_run
    (hBaud : 3 ≤ baud v)
    (hLinked : Linked v e x)
    (hOn : ∀ w ∈ ws, w.reset = false) :
    ∃ offers, offers.length = ws.length ∧
      Linked v (run (Echo.next (lineCode v)) e offers)
        (run (channelEdge v) x ws) := by
  induction ws generalizing e x with
  | nil => exact ⟨[], rfl, hLinked⟩
  | cons w ws ih =>
      have hFirst : w.reset = false := hOn w List.mem_cons_self
      have hRest : ∀ w ∈ ws, w.reset = false :=
        fun w' hMem => hOn w' (List.mem_cons_of_mem w hMem)
      rcases ih (linked_step hBaud hLinked hFirst) hRest with
        ⟨offers, hLength, hLater⟩
      exact ⟨taken x.1.tx (txIn v w) :: offers,
        by rw [List.length_cons, hLength, List.length_cons],
        hLater⟩

/- The complete frames are among the first bytes accepted. -/
theorem bytes_prefix
    {bytes : List Byte}
    (hLinked : Linked v e x)
    (hTuned : Tuned v e.three x.1.rx bytes) :
    bytes <+: x.2.accepted := by
  have hSent : bytes <+: e.three.sent := by
    rcases phase_bytes hTuned.phase with rfl | ⟨d, hSent⟩
    · exact List.prefix_rfl
    · rw [hSent]
      exact List.prefix_append bytes [d]
  rw [← hLinked.accepted]
  exact hSent.trans hLinked.follows.grows

/- A sender that is done has had its last frame received. -/
theorem phase_done
    (hBaud : 3 ≤ baud v)
    {s : Sender Bool Byte}
    {r : Receiver}
    {bytes : List Byte}
    (hPhase : Phase v s r bytes)
    (hRest : s.rest = [])
    (hLeft : s.left = 0) :
    bytes = s.sent := by
  have hBounds := half_bounds hBaud
  cases hPhase with
  | waiting hState hLine hNone hSent => exact hSent.symm
  | resting => rfl
  | starting d bytes hSent hState hLine hFrame =>
      have hMore : payload v d ≠ [] := by
        unfold payload stopLevels
        split_ifs <;> simp
      exact absurd (hFrame.symm.trans hRest) hMore
  | receiving d bytes hSent hIn hLevels hReceives =>
      have hLate : ¬ since v s ≤ half v := by
        unfold since
        omega
      have hNone : unsampled v s = [] := by
        rw [unsampled, if_neg hLate, hRest]
      exact absurd hNone (receives_more hReceives)

/- What was accepted is complete a frame's time later. -/
theorem complete_after
    (hBaud : 3 ≤ baud v)
    {s s' : Sender Bool Byte}
    {r : Receiver}
    {bytes : List Byte}
    {offers : List (Option Byte)}
    (hShort : Short v s)
    (hTime : 12 * baud v ≤ offers.length)
    (hLater : s' = run (Sender.next (lineCode v)) s offers)
    (hPhase : Phase v s' r bytes) :
    s.sent <+: bytes := by
  have hSymbol : 0 < (lineCode v).symbol := by
    show 0 < baud v
    omega
  have hGrown : s.sent <+: s'.sent :=
    hLater ▸ Sender.sent_run offers
  rcases hShort with hNone | hTotal
  · rw [hNone]
    exact List.nil_prefix
  · have hDone := Sender.done_run (s := s) hSymbol offers
      (by omega)
    rw [← hLater] at hDone
    rcases hDone with hMore | ⟨hSame, hZero⟩
    · rcases phase_bytes hPhase with hAll | ⟨d, hAll⟩
      · rw [hAll]
        exact hGrown
      · rw [hAll] at hGrown hMore
        rw [List.length_append, List.length_singleton] at hMore
        exact List.prefix_of_prefix_length_le hGrown
          (List.prefix_append bytes [d]) (by omega)
    · rcases (Sender.total_eq_zero hSymbol).mp hZero with
        ⟨hRest, hLeft⟩
      rw [phase_done hBaud hPhase hRest hLeft]
      exact hGrown

/- Two clocks on, what was owed has been strobed. -/
theorem owed_two
    {r : Receiver}
    {i : RxIn}
    (hReset : i.reset = false) :
    owed r <+: strobed r ++ strobed (r.step i) := by
  by_cases hDue : r.preWr = true ∧ r.state = .idle
  · rcases hDue with ⟨hPre, hState⟩
    have hStep : (r.step i).oWr = true ∧
        (r.step i).oData = r.oData := by
      simp [step, oWrEdge, preWrEdge, hReset, hPre, hState]
    simp [owed, strobed, hPre, hState, hStep]
  · have hNone : (r.preWr && r.state == .idle) = false := by
      simpa using hDue
    simp [owed, hNone]

/- Five clocks on, the line of now has come to be strobed. -/
theorem strobed_five
    (hBaud : 3 ≤ baud v)
    (hLinked : Linked v e x)
    (hFive : ws.length = 5)
    (hOn : ∀ w ∈ ws, w.reset = false) :
    ∃ r bytes, Phase v e.now r bytes ∧
      bytes.map (shown v) <+:
        (run (channelEdge v) x ws).2.delivered := by
  rcases ws with _ | ⟨w₁, _ | ⟨w₂, _ | ⟨w₃, _ | ⟨w₄, _ | ⟨w₅, ws⟩⟩⟩⟩⟩
  case cons.cons.cons.cons.cons =>
    have hNil : ws = [] := by simpa using hFive
    subst hNil
    simp only [List.forall_mem_cons] at hOn
    rcases hOn with ⟨hFirst, hSecond, hThird, hFourth, -, -⟩
    have hOne := linked_step hBaud hLinked hFirst
    have hTwo := linked_step hBaud hOne hSecond
    have hThree := linked_step hBaud hTwo hThird
    rcases hThree.delivered with ⟨bytes, hTuned, hDelivered⟩
    refine ⟨_, bytes, hTuned.phase, ?_⟩
    rw [← hDelivered]
    have hOwed := owed_two (r := (channelEdge v (channelEdge v
      (channelEdge v x w₁) w₂) w₃).1.rx)
      (i := rxIn v (channelEdge v (channelEdge v
        (channelEdge v x w₁) w₂) w₃).1 w₄) hFourth
    show _ <+: (_ ++ strobed _) ++ strobed _
    rw [List.append_assoc]
    exact (List.prefix_append_right_inj _).mpr hOwed
  all_goals
    simp at hFive

/-
  After a reset: what the receiver strobes is what was accepted
  for the transmitter, in order, each byte cut down to its data
  bits; and the receiver sees neither a break nor a frame error.
-/
theorem loopback_in_order
    (v : BitVec 30)
    (c : Channel)
    (ws : List Write)
    (hBaud : 3 ≤ baud v)
    (hSlow : baud v ≤ baud c.tx.rSetup)
    (hOn : ∀ w ∈ ws, w.reset = false) :
    let x := run (channelEdge v) (booted v c, {}) ws
    x.2.delivered <+: x.2.accepted.map (shown v) ∧
      x.1.rx.oBreak = false ∧ x.1.rx.oFrameErr = false := by
  intro x
  rcases linked_booted hBaud hSlow with ⟨e, hLinked⟩
  rcases linked_run hBaud hLinked hOn with ⟨offers, -, hLater⟩
  rcases hLater.delivered with ⟨bytes, hTuned, hDelivered⟩
  have hBytes := bytes_prefix hLater hTuned
  refine ⟨?_, hTuned.noBreak, hTuned.noFrameErr⟩
  have hComplete : x.2.delivered <+: bytes.map (shown v) :=
    ⟨owed x.1.rx, hDelivered⟩
  exact hComplete.trans (hBytes.map (shown v))

/- The ROM's self-test: four clocks a bit, one byte. -/
def selftest : Channel :=
  { powerUp with tx.rSetup := 4#31 }

def oneByte : List Write :=
  List.replicate 68 ({} : Write) ++
    [({ wr := true, data := 0xA5#8 } : Write)]

theorem oneByte_on : ∀ w ∈ oneByte, w.reset = false := by
  intro w hMem
  rcases List.mem_append.mp hMem with hQuiet | hByte
  · rw [List.eq_of_mem_replicate hQuiet]
  · rw [List.mem_singleton.mp hByte]

theorem loopback_in_order_selftest :
    let x := run (channelEdge 4#30) (booted 4#30 selftest, {})
      oneByte
    x.2.delivered <+: x.2.accepted.map (shown 4#30) ∧
      x.1.rx.oBreak = false ∧ x.1.rx.oFrameErr = false :=
  loopback_in_order 4#30 selftest oneByte (by decide) (by decide)
    oneByte_on

/-
  And in time: twelve bits and five clocks after a byte was
  accepted it has been strobed, whatever is written since.
-/
theorem loopback_in_time
    (v : BitVec 30)
    (c : Channel)
    (ws later : List Write)
    (hBaud : 3 ≤ baud v)
    (hSlow : baud v ≤ baud c.tx.rSetup)
    (hOn : ∀ w ∈ ws ++ later, w.reset = false)
    (hTime : 12 * baud v + 5 ≤ later.length) :
    let x := run (channelEdge v) (booted v c, {}) ws
    let y := run (channelEdge v) x later
    x.2.accepted.map (shown v) <+: y.2.delivered := by
  intro x y
  rcases linked_booted hBaud hSlow with ⟨e₀, hBoot⟩
  rcases linked_run hBaud hBoot
      (fun w hMem => hOn w (List.mem_append_left later hMem))
    with ⟨earlier, -, hNow⟩
  let e := run (Echo.next (lineCode v)) e₀ earlier
  let before := later.take (later.length - 5)
  let last := later.drop (later.length - 5)
  have hSplit : later = before ++ last :=
    (List.take_append_drop _ later).symm
  have hOnLater (w : Write) (hMem : w ∈ later) :
      w.reset = false :=
    hOn w (List.mem_append_right ws hMem)
  have hLast : last.length = 5 := by
    show (later.drop (later.length - 5)).length = 5
    rw [List.length_drop]
    omega
  have hBefore : 12 * baud v ≤ before.length := by
    show 12 * baud v ≤ (later.take (later.length - 5)).length
    rw [List.length_take]
    omega
  have hOnBefore : ∀ w ∈ before, w.reset = false :=
    fun w hMem => hOnLater w (List.mem_of_mem_take hMem)
  rcases linked_run hBaud hNow hOnBefore with
    ⟨offers, hOffers, hLinked⟩
  rcases strobed_five hBaud hLinked hLast
      (fun w hMem => hOnLater w (List.mem_of_mem_drop hMem))
    with ⟨r, bytes, hPhase, hStrobed⟩
  have hComplete : e.now.sent <+: bytes :=
    complete_after hBaud hNow.short (by omega)
      (Echo.now_run offers) hPhase
  have hAccepted : e.now.sent = x.2.accepted := hNow.accepted
  have hRun : y = run (channelEdge v)
      (run (channelEdge v) x before) last := by
    rw [← run_append, ← hSplit]
  rw [hRun, ← hAccepted]
  exact (hComplete.map (shown v)).trans hStrobed

/- The byte is accepted, and 53 clocks on it is there. -/
theorem loopback_in_time_selftest :
    (run (channelEdge 4#30) (booted 4#30 selftest, {})
      oneByte).2.accepted = [0xA5#8] ∧
    (run (channelEdge 4#30) (booted 4#30 selftest, {})
      oneByte).2.accepted.map (shown 4#30) <+:
        (run (channelEdge 4#30)
          (run (channelEdge 4#30) (booted 4#30 selftest, {})
            oneByte)
          (List.replicate 53 ({} : Write))).2.delivered := by
  refine ⟨by decide +kernel, ?_⟩
  refine loopback_in_time 4#30 selftest oneByte
    (List.replicate 53 ({} : Write)) (by decide) (by decide) ?_
    (by decide)
  intro w hMem
  rcases List.mem_append.mp hMem with hFirst | hQuiet
  · exact oneByte_on w hFirst
  · rw [List.eq_of_mem_replicate hQuiet]

/-
  A computed parity is flagged in every frame, a fixed one in
  none; but the flag is there with the strobe only where there
  are two stop bits.
-/
theorem loopback_parity
    (v : BitVec 30)
    (c : Channel)
    (ws : List Write)
    (hBaud : 3 ≤ baud v)
    (hSlow : baud v ≤ baud c.tx.rSetup)
    (hOn : ∀ w ∈ ws, w.reset = false) :
    let x := run (channelEdge v) (booted v c, {}) ws
    (x.1.rx.state = .stop ∨ x.1.rx.state = .secondStop →
      x.1.rx.oParityErr = (useParity v && !fixdParity v)) ∧
    (x.1.rx.oWr = true →
      x.1.rx.oParityErr =
        (dblstop v && (useParity v && !fixdParity v))) := by
  intro x
  rcases linked_booted hBaud hSlow with ⟨e, hLinked⟩
  rcases linked_run hBaud hLinked hOn with ⟨offers, -, hLater⟩
  rcases hLater.delivered with ⟨bytes, hTuned, -⟩
  exact ⟨phase_judged hTuned.phase, hTuned.verdict⟩

theorem loopback_parity_selftest :
    let x := run (channelEdge 0x04000004#30)
      (booted 0x04000004#30 selftest, {}) oneByte
    (x.1.rx.state = .stop ∨ x.1.rx.state = .secondStop →
      x.1.rx.oParityErr =
        (useParity 0x04000004#30 &&
          !fixdParity 0x04000004#30)) ∧
    (x.1.rx.oWr = true →
      x.1.rx.oParityErr =
        (dblstop 0x04000004#30 &&
          (useParity 0x04000004#30 &&
            !fixdParity 0x04000004#30))) :=
  loopback_parity 0x04000004#30 selftest oneByte (by decide)
    (by decide) oneByte_on

end Uart
