import Wombat33.Sdram.Bridge

/-
  The handshake between the bridge's two sides.

  A beat crosses as a toggle, is worked on, and its end
  crosses back as a toggle.  At any time a beat is in one of
  these three places, or there is none.

  Key definitions include:
    * `asking`, `answering`
    * `finishes`
    * `Hand`

  Key theorems include:
    * `hand_step`
-/

------------------------------------------------------------
-- Both Sides after a Cycle
------------------------------------------------------------

namespace Sdram

namespace Bridge

variable (b : Bridge) (i : In)

/- The controller's side is done with its beat. -/
def finishes : Bool :=
  b.ram.rd2 || (b.completes && b.sys.rWe && b.ram.acc)

/- A beat is on its way to the controller's side. -/
def asking : Bool := b.sys.reqTgl != b.ram.reqSeen

/- Its end is on the way back. -/
def answering : Bool := b.ram.ackTgl != b.sys.ackSeen

end Bridge

variable {b : Bridge} {i : In}

/- The machine's side after a cycle. -/
theorem sys_step :
    (b.step i).sys.busy =
        (if b.captures i then true
        else if b.returns i then false else b.sys.busy) ∧
      (b.step i).sys.posted =
        (if b.captures i then i.we
        else if b.returns i then false else b.sys.posted) ∧
      (b.step i).sys.reqTgl =
        (if b.captures i then !b.sys.reqTgl else b.sys.reqTgl) ∧
      (b.step i).sys.ackSeen =
        (if b.returns i then b.sys.ackSync1 else b.sys.ackSeen) ∧
      (b.step i).sys.ackSync0 =
        (if i.sys then b.ram.ackTgl else b.sys.ackSync0) ∧
      (b.step i).sys.ackSync1 =
        (if i.sys then b.sys.ackSync0 else b.sys.ackSync1) := by
  unfold Bridge.captures Bridge.returns
  simp only [Bridge.step, Bridge.sysNext]
  cases i.sys
  · simp
  · cases b.sys.busy <;> cases i.req <;> cases b.sys.ack <;>
      cases b.sys.ackSync1 != b.sys.ackSeen <;> simp

/- What the machine's side has captured. -/
theorem beat_step :
    (b.step i).sys.rAddr =
        (if b.captures i then i.addr else b.sys.rAddr) ∧
      (b.step i).sys.rWdata =
        (if b.captures i then i.wdata else b.sys.rWdata) ∧
      (b.step i).sys.rBe =
        (if b.captures i then i.be else b.sys.rBe) ∧
      (b.step i).sys.rWe =
        (if b.captures i then i.we else b.sys.rWe) := by
  unfold Bridge.captures
  simp only [Bridge.step, Bridge.sysNext]
  cases i.sys
  · simp
  · cases b.sys.busy <;> cases i.req <;> cases b.sys.ack <;>
      cases b.sys.ackSync1 != b.sys.ackSeen <;> simp

/- The controller's side after a cycle. -/
theorem ram_step :
    (b.step i).ram.busyR =
        (if b.finishes then false
        else if b.arrives then true else b.ram.busyR) ∧
      (b.step i).ram.reqSeen =
        (if b.arrives then b.ram.reqSync1 else b.ram.reqSeen) ∧
      (b.step i).ram.reqSync0 = b.sys.reqTgl ∧
      (b.step i).ram.reqSync1 = b.ram.reqSync0 ∧
      (b.step i).ram.readyD = b.ctl.ready ∧
      (b.step i).ram.ackTgl =
        (if b.finishes then !b.ram.ackTgl else b.ram.ackTgl) := by
  unfold Bridge.finishes Bridge.arrives Bridge.completes
  simp only [Bridge.step, Bridge.ramNext]
  cases b.ram.rd2 <;> cases b.ram.busyR <;>
    cases b.ram.reqSync1 != b.ram.reqSeen <;>
    cases b.ctl.ready <;> cases b.ram.readyD <;>
    cases b.sys.rWe <;> cases b.ram.acc <;> simp

end Sdram

------------------------------------------------------------
-- One Beat at a Time
------------------------------------------------------------

namespace Sdram

/-
  A beat taken is asking, worked on or answering, one of the
  three; a toggle comes across one register after the other.
-/
structure Hand (b : Bridge) : Prop where
  asked : b.asking = true →
    b.sys.busy = true ∧ b.ram.busyR = false ∧
      b.answering = false
  working : b.ram.busyR = true →
    b.sys.busy = true ∧ b.asking = false ∧ b.answering = false
  answered : b.answering = true →
    b.sys.busy = true ∧ b.ram.busyR = false ∧ b.asking = false
  taken : b.sys.busy = true →
    b.asking = true ∨ b.ram.busyR = true ∨ b.answering = true
  reqs : (b.ram.reqSync1 ≠ b.ram.reqSeen →
      b.ram.reqSync0 ≠ b.ram.reqSeen) ∧
    (b.ram.reqSync0 ≠ b.ram.reqSeen → b.asking = true)
  acks : (b.sys.ackSync1 ≠ b.sys.ackSeen →
      b.sys.ackSync0 ≠ b.sys.ackSeen) ∧
    (b.sys.ackSync0 ≠ b.sys.ackSeen → b.answering = true)
  posted : b.sys.posted = (b.sys.busy && b.sys.rWe)
  second : b.ram.rd2 = true → b.ram.busyR = true

variable {b : Bridge} {i : In}

/- Two bits that differ from a third are equal. -/
theorem eq_of_both_ne {x y z : Bool}
    (hX : x ≠ z) (hY : y ≠ z) : x = y := by
  cases x <;> cases y <;> cases z <;> simp at hX hY ⊢

/- A beat is captured only when there is none. -/
theorem idle_of_captures (hCaptures : b.captures i = true) :
    b.sys.busy = false ∧ b.returns i = false := by
  simp only [Bridge.captures, Bridge.returns, Bool.and_eq_true,
    Bool.not_eq_true'] at hCaptures ⊢
  simp [hCaptures.1.2]

/- A toggle that has come across finds the beat asking. -/
theorem asking_of_arrives
    (hHand : Hand b)
    (hArrives : b.arrives = true) :
    b.asking = true ∧ b.finishes = false ∧
      b.ram.reqSync1 = b.sys.reqTgl := by
  simp only [Bridge.arrives, Bool.and_eq_true,
    Bool.not_eq_true', bne_iff_ne] at hArrives
  rcases hArrives with ⟨⟨hRd, hBusy⟩, hSeen⟩
  have hAsking := hHand.reqs.2 (hHand.reqs.1 hSeen)
  refine ⟨hAsking, ?_, ?_⟩
  · simp [Bridge.finishes, Bridge.completes, hRd, hBusy]
  · simp only [Bridge.asking, bne_iff_ne] at hAsking
    exact eq_of_both_ne hSeen hAsking

/- The first register is never behind the second. -/
theorem req_in_order
    (hHand : Hand b)
    (hArrives : b.arrives = true) :
    b.ram.reqSync0 = b.ram.reqSync1 := by
  simp only [Bridge.arrives, Bool.and_eq_true, bne_iff_ne]
    at hArrives
  have hFirst := hHand.reqs.1 hArrives.2
  exact eq_of_both_ne hFirst hArrives.2

theorem ack_in_order
    (hHand : Hand b)
    (hReturns : b.returns i = true) :
    b.sys.ackSync0 = b.sys.ackSync1 := by
  simp only [Bridge.returns, Bool.and_eq_true, bne_iff_ne]
    at hReturns
  have hFirst := hHand.acks.1 hReturns.2
  exact eq_of_both_ne hFirst hReturns.2

/- A beat that ends was being worked on. -/
theorem working_of_finishes
    (hHand : Hand b)
    (hFinishes : b.finishes = true) :
    b.ram.busyR = true := by
  simp only [Bridge.finishes, Bridge.completes,
    Bool.or_eq_true, Bool.and_eq_true] at hFinishes
  rcases hFinishes with hSecond | hDone
  · exact hHand.second hSecond
  · exact hDone.1.1.1.1.1

/- An end that has come across finds the beat answering. -/
theorem answering_of_returns
    (hHand : Hand b)
    (hReturns : b.returns i = true) :
    b.answering = true ∧ b.sys.ackSync1 = b.ram.ackTgl := by
  simp only [Bridge.returns, Bool.and_eq_true, bne_iff_ne]
    at hReturns
  have hAnswering := hHand.acks.2 (hHand.acks.1 hReturns.2)
  refine ⟨hAnswering, ?_⟩
  simp only [Bridge.answering, bne_iff_ne] at hAnswering
  exact eq_of_both_ne hReturns.2 hAnswering

/- Where the beat is after a cycle. -/
theorem asking_step (hHand : Hand b) :
    (b.step i).asking =
      if b.captures i then true
      else if b.arrives then false else b.asking := by
  rcases @sys_step b i with ⟨-, -, hTgl, -⟩
  rcases @ram_step b i with ⟨-, hSeen, -⟩
  unfold Bridge.asking
  rw [hTgl, hSeen]
  cases hCaptures : b.captures i with
  | true =>
      have hFree := (idle_of_captures hCaptures).1
      have hNone : b.asking = false := by
        rw [← Bool.not_eq_true]
        intro hAsking
        simp [(hHand.asked hAsking).1] at hFree
      have hStay : b.arrives = false := by
        rw [← Bool.not_eq_true]
        intro hArrives
        simp [(asking_of_arrives hHand hArrives).1] at hNone
      simp only [Bridge.asking, bne_eq_false_iff_eq] at hNone
      simp [hStay, hNone]
  | false =>
      cases hArrives : b.arrives with
      | true =>
          simp [(asking_of_arrives hHand hArrives).2.2]
      | false => simp

theorem answering_step (hHand : Hand b) :
    (b.step i).answering =
      if b.finishes then true
      else if b.returns i then false else b.answering := by
  rcases @sys_step b i with ⟨-, -, -, hSeen, -⟩
  rcases @ram_step b i with ⟨-, -, -, -, -, hTgl⟩
  unfold Bridge.answering
  rw [hTgl, hSeen]
  cases hFinishes : b.finishes with
  | true =>
      have hNone : b.answering = false :=
        (hHand.working (working_of_finishes hHand hFinishes)).2.2
      have hStay : b.returns i = false := by
        rw [← Bool.not_eq_true]
        intro hReturns
        simp [(answering_of_returns hHand hReturns).1] at hNone
      simp only [Bridge.answering, bne_eq_false_iff_eq] at hNone
      simp [hStay, hNone]
  | false =>
      cases hReturns : b.returns i with
      | true =>
          simp [(answering_of_returns hHand hReturns).2]
      | false => simp

/- A beat stays in one place, or goes on to the next. -/
theorem hand_step
    (hHand : Hand b)
    (hSecond : (b.step i).ram.rd2 = true →
      (b.step i).ram.busyR = true) :
    Hand (b.step i) := by
  rcases @sys_step b i with
    ⟨hBusy, hPosted, hTgl, hAckSeen, hAck0, hAck1⟩
  rcases @ram_step b i with
    ⟨hWorking, hReqSeen, hReq0, hReq1, -, hAckTgl⟩
  have hAsking := @asking_step b i hHand
  have hAnswering := @answering_step b i hHand
  have hCaptures := @idle_of_captures b i
  have hArrives := asking_of_arrives hHand
  have hFinishes := working_of_finishes hHand
  have hReturns := @answering_of_returns b i hHand
  have hWe := (@beat_step b i).2.2.2
  have hAsked := hHand.asked
  have hWorked := hHand.working
  have hAnswered := hHand.answered
  have hTaken := hHand.taken
  refine ⟨?_, ?_, ?_, ?_, ⟨?_, ?_⟩, ⟨?_, ?_⟩, ?_, hSecond⟩
  · rw [hAsking, hBusy, hWorking, hAnswering]
    grind
  · rw [hAsking, hBusy, hWorking, hAnswering]
    grind
  · rw [hAsking, hBusy, hWorking, hAnswering]
    grind
  · rw [hAsking, hBusy, hWorking, hAnswering]
    grind
  · rw [hReq0, hReq1, hReqSeen]
    cases hCome : b.arrives with
    | true =>
        have hSync := (hArrives hCome).2.2
        have hBoth := req_in_order hHand hCome
        simp [hBoth]
    | false =>
        intro hFirst
        simpa [Bridge.asking] using hHand.reqs.2 hFirst
  · rw [hReq0, hReqSeen, hAsking]
    cases hCome : b.arrives with
    | true => simp [(hArrives hCome).2.2]
    | false =>
        intro hTgl
        have hNow : b.asking = true := by
          simpa [Bridge.asking] using hTgl
        simp [hNow]
  · rw [hAck0, hAck1, hAckSeen]
    cases hBack : b.returns i with
    | true =>
        have hBoth := ack_in_order hHand hBack
        have hSys : i.sys = true := by
          simp only [Bridge.returns, Bool.and_eq_true] at hBack
          exact hBack.1.1
        simp [hSys, hBoth]
    | false =>
        cases i.sys with
        | true =>
            intro hFirst
            simpa [Bridge.answering] using hHand.acks.2 hFirst
        | false => exact hHand.acks.1
  · rw [hAck0, hAckSeen, hAnswering]
    cases hBack : b.returns i with
    | true =>
        have hSys : i.sys = true := by
          simp only [Bridge.returns, Bool.and_eq_true] at hBack
          exact hBack.1.1
        simp [hSys, (hReturns hBack).2]
    | false =>
        intro hFirst
        have hNow : b.answering = true := by
          cases hSys : i.sys with
          | true =>
              rw [hSys] at hFirst
              simpa [Bridge.answering] using hFirst
          | false =>
              rw [hSys] at hFirst
              exact hHand.acks.2 hFirst
        simp [hNow]
  · rw [hPosted, hBusy, hWe]
    have hOld := hHand.posted
    grind

end Sdram
