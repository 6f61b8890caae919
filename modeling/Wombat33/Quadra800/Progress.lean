import Wombat33.Quadra800.Delivery

/-
  No request is dropped.

  A cycle moves the board unless the clock enable is off or a
  target keeps its beat waiting.  A request is answered after
  a bounded number of moving cycles.

  Key definitions include:
    * `moves`
    * `distance`

  Key theorems include:
    * `distance_step`
    * `answers_delivered`
-/

------------------------------------------------------------
-- Distance to an Answer
------------------------------------------------------------

namespace Quadra800

variable {s : Service} {i : Pins} {t : Traffic}

/- No target keeps the service waiting in this cycle. -/
def unstalled (s : Service) (i : Pins) : Bool :=
  decide (s.svc = .idle) || (replied s i).isSome

/- The answer to this owner is up. -/
def told (o : Owner) (s : Service) : Bool :=
  (answers s).any (fun p => p.1 = o)

/-
  How many unstalled cycles until a shown beat has been
  answered: the walker may go once before the CPU.
-/
def distance (o : Owner) (s : Service) (t : Traffic) : Nat :=
  if told o s then 1
  else if inService o t then 2
  else if s.svc = .idle then
    (if o = .cpu ∧ s.walkerArmed then 5 else 3)
  else 4

theorem distance_bounds (o : Owner) (s : Service) (t : Traffic) :
    1 ≤ distance o s t ∧ distance o s t ≤ 5 := by
  unfold distance
  split
  · omega
  · split
    · omega
    · split
      · split <;> omega
      · omega

/- A shown beat comes nearer in every unstalled cycle. -/
theorem distance_step {o : Owner}
    (hInv : TrafficInv s t)
    (hUntold : told o s = false)
    (hShown : s.svc = .idle → takes o s i = true ∨
      (o = .cpu ∧ s.walkerArmed = true ∧
        takes .walker s i = true))
    (hDisarmed : engaged .walker (clock s i) (t.note s i) = true →
      (clock s i).walkerArmed = false) :
    distance o (clock s i) (t.note s i) ≤ distance o s t ∧
      (unstalled s i = true →
        distance o (clock s i) (t.note s i) <
          distance o s t) := by
  cases hServing : t.serving with
  | none =>
      have hFree := hInv.free hServing
      have hNext : (t.note s i).serving = taken s i := by
        simp [Traffic.note, hServing]
      have hOut : inService o t = false := by
        simp [inService, hServing]
      cases hTaken : taken s i with
      | none => simp [takes, hTaken, hFree.svc] at hShown
      | some j =>
          have hJob := (clock_taken hFree hTaken).serving
          have hBusy : (clock s i).svc ≠ .idle := by
            rw [hJob.svc]
            exact svc_ne_idle j.target
          have hQuiet : told o (clock s i) = false := by
            simp [told, hJob.quiet]
          have hIn : inService o (t.note s i) = takes o s i := by
            simp [inService, takes, hNext]
          have hNow : distance o s t =
              if o = .cpu ∧ s.walkerArmed then 5 else 3 := by
            simp [distance, hUntold, hOut, hFree.svc]
          have hThen : distance o (clock s i) (t.note s i) =
              if takes o s i then 2 else 4 := by
            simp [distance, hQuiet, hIn, hBusy]
          rw [hNow, hThen]
          rcases hShown hFree.svc with hTakes | ⟨rfl, hArmed, -⟩
          · simp only [hTakes, if_true]
            split <;> simp
          · simp only [hArmed, and_self, if_true]
            split <;> simp
  | some j =>
      have hJob := hInv.busy j hServing
      have hBusy : s.svc ≠ .idle := by
        rw [hJob.svc]
        exact svc_ne_idle j.target
      have hNow : distance o s t =
          if owns o j then 2 else 4 := by
        simp [distance, hUntold, inService, hServing, hBusy]
      have hNext : (t.note s i).serving =
          if (replied s i).isSome then none else some j := by
        simp [Traffic.note, hServing]
      cases hReply : replied s i with
      | none =>
          have hSame := clock_waiting hBusy hReply
          have hThen : distance o (clock s i) (t.note s i) =
              distance o s t := by
            have hQuiet : told o (settle s i) = false := by
              simp [told]
            have hSvc : (settle s i).svc = s.svc := rfl
            rw [hNow, hSame]
            simp [distance, hQuiet, inService, hNext, hReply,
              hSvc, hBusy]
          rw [hThen]
          simp [unstalled, hBusy, hReply]
      | some r =>
          have hReleased := clock_released hJob hReply
          have hTold : told o (clock s i) = owns o j := by
            simp [told, hReleased.answers, owns]
          have hOut : inService o (t.note s i) = false := by
            simp [inService, hNext, hReply]
          cases hOwns : owns o j with
          | true =>
              simp [distance, hTold, hOwns, hUntold, inService,
                hServing]
          | false =>
              have hNear :
                  ¬(o = .cpu ∧ (clock s i).walkerArmed = true) := by
                rintro ⟨rfl, hArmed⟩
                have hWalker : j.owner = .walker := by
                  cases hOwner : j.owner with
                  | walker => rfl
                  | cpu => simp [owns, hOwner] at hOwns
                have hEngaged :
                    engaged .walker (clock s i) (t.note s i) =
                      true := by
                  simp [engaged, hReleased.answers, hWalker]
                rw [hDisarmed hEngaged] at hArmed
                exact Bool.noConfusion hArmed
              rw [hNow]
              simp [distance, hTold, hOwns, hOut, hReleased.svc,
                hNear]

end Quadra800

------------------------------------------------------------
-- The CPU's Wait
------------------------------------------------------------

namespace Quadra800

open Clocked

/- A cycle in which nothing keeps the board waiting. -/
def moves (x : Board × Ledger) (e : Env) : Bool :=
  e.ce && unstalled x.1.service (pins x.1 e)

/- To the end of the CPU's transaction: perhaps two beats. -/
def cpuLeft (m : Board) (t : Traffic) : Nat :=
  if m.bus.tAck then 1
  else
    distance .cpu m.service t +
      (if Bus32.firstOfTwo m.bus then 6 else 1)

/- What the first `n` requests of the CPU still wait for. -/
def cpuOwed (n : Nat) (x : Board × Ledger) : Nat :=
  if n ≤ x.2.cpu.told.length then 0
  else cpuLeft x.1 x.2.traffic

variable {x : Board × Ledger} {e : Env} {n : Nat}
variable {m : Board} {t : Traffic}

theorem told_cpu (s : Service) :
    told .cpu s = (s.bAck || s.cpuBerr) := answers_cpu s

theorem told_walker : told .walker m.service = walkerTold m :=
  answers_walker m.service

theorem walker_disarmed
    {s : Service} {g : WalkBook}
    (hInv : WalkInv s t g)
    (hEngaged : engaged .walker s t = true) :
    s.walkerArmed = false := by
  rcases hInv.asking hEngaged with ⟨b, hWalk⟩
  rw [hInv.armed, hEngaged, hWalk]
  rfl

/- A disabled cycle leaves the board and its books. -/
theorem edge_disabled
    (hReset : e.nreset = true)
    (hCe : e.ce = false) :
    edge x e = x := by
  rcases x with ⟨m, g⟩
  simp [edge, watch, Board.step, Ledger.note, Bus32.step, step,
    busIn, pins, hReset, hCe]

theorem edge_enabled
    (hReset : e.nreset = true)
    (hCe : e.ce = true) :
    edge x e =
      (⟨Bus32.clock x.1.bus (busIn x.1 e),
          clock x.1.service (pins x.1 e)⟩,
        { traffic := x.2.traffic.note x.1.service (pins x.1 e)
          cpu := x.2.cpu.note x.1 e
          walker := x.2.walker.note x.1 e }) := by
  simp [edge, watch, Board.step, Ledger.note,
    bus_enabled hReset hCe, service_enabled hReset hCe, hReset, hCe]

/- The adapter's own part of the distance. -/
theorem cpuLeft_answered
    (hActive : m.bus.active = true)
    (hAck : m.bus.tAck = false)
    (hBeat : m.service.bAck = true)
    (hBerr : m.service.cpuBerr = false) :
    cpuLeft
        ⟨Bus32.clock m.bus (busIn m e),
          clock m.service (pins m e)⟩
        (t.note m.service (pins m e)) < cpuLeft m t := by
  have hOne : distance .cpu m.service t = 1 := by
    simp [distance, told_cpu, hBeat]
  cases hTwo : Bus32.firstOfTwo m.bus with
  | true =>
      have hClock : Bus32.clock m.bus (busIn m e) =
          Bus32.splitBeat m.bus (busIn m e) := by
        simp [Bus32.clock, busIn, hActive, hBerr, hBeat, hTwo]
      have hBound := (distance_bounds .cpu
        (clock m.service (pins m e))
        (t.note m.service (pins m e))).2
      have hNextAck :
          (Bus32.splitBeat m.bus (busIn m e)).tAck = false := rfl
      have hNextTwo : Bus32.firstOfTwo
          (Bus32.splitBeat m.bus (busIn m e)) = false := rfl
      rw [hClock]
      simp only [cpuLeft, hAck, hOne, hTwo, hNextAck, hNextTwo,
        Bool.false_eq_true, if_false, if_true]
      omega
  | false =>
      have hClock : Bus32.clock m.bus (busIn m e) =
          Bus32.finish m.bus (busIn m e) := by
        simp [Bus32.clock, busIn, hActive, hBerr, hBeat, hTwo]
      rw [hClock]
      simp [cpuLeft, hAck, hOne, hTwo, Bus32.finish]

/- While its beat waits, the CPU comes nearer. -/
theorem cpuLeft_waiting
    (hTraffic : TrafficInv m.service t)
    (hActive : m.bus.active = true)
    (hReq : m.bus.bReq = true)
    (hAck : m.bus.tAck = false)
    (hBeat : m.service.bAck = false)
    (hBerr : m.service.cpuBerr = false)
    (hDisarmed : engaged .walker (clock m.service (pins m e))
        (t.note m.service (pins m e)) = true →
      (clock m.service (pins m e)).walkerArmed = false) :
    cpuLeft
        ⟨Bus32.clock m.bus (busIn m e),
          clock m.service (pins m e)⟩
        (t.note m.service (pins m e)) ≤ cpuLeft m t ∧
      (unstalled m.service (pins m e) = true →
        cpuLeft
            ⟨Bus32.clock m.bus (busIn m e),
              clock m.service (pins m e)⟩
            (t.note m.service (pins m e)) < cpuLeft m t) := by
  have hClock : Bus32.clock m.bus (busIn m e) =
      Bus32.wait m.bus := by
    simp [Bus32.clock, busIn, hActive, hBerr, hBeat]
  have hUntold : told .cpu m.service = false := by
    simp [told_cpu, hBeat, hBerr]
  have hShown : m.service.svc = .idle →
      takes .cpu m.service (pins m e) = true ∨
        (Owner.cpu = .cpu ∧ m.service.walkerArmed = true ∧
          takes .walker m.service (pins m e) = true) := by
    intro hSvc
    rw [takes_cpu_pins, takes_walker_pins]
    cases hPend : walkerPend m.service (pins m e) with
    | false => simp [hSvc, hReq, hBeat, hBerr]
    | true =>
        have hBoth : (e.walkerReq && m.service.walkerArmed) =
            true := hPend
        simp only [Bool.and_eq_true] at hBoth
        simp [hSvc, hBoth.1, hBoth.2]
  have hNear := distance_step hTraffic hUntold hShown hDisarmed
  have hTwo : Bus32.firstOfTwo (Bus32.wait m.bus) =
      Bus32.firstOfTwo m.bus := rfl
  have hWaitAck : (Bus32.wait m.bus).tAck = false := rfl
  rw [hClock]
  simp only [cpuLeft, hAck, hWaitAck, hTwo, Bool.false_eq_true,
    if_false]
  constructor
  · have hLe := hNear.1
    omega
  · intro hMoves
    have hLt := hNear.2 hMoves
    omega

theorem cpuLeft_pos (m : Board) (t : Traffic) :
    0 < cpuLeft m t := by
  have hBound := distance_bounds .cpu m.service t
  unfold cpuLeft
  split <;> omega

/- The requests asked are the told ones and the open one. -/
theorem asked_length (hInv : BoardInv x) :
    x.2.cpu.asked.length =
      x.2.cpu.told.length + x.2.cpu.now.toList.length := by
  rw [hInv.cpu.asked, hInv.cpu.told]
  simp [CpuBook.visits]

theorem cpuOwed_edge
    (hInv : BoardInv x)
    (hAsked : n ≤ x.2.cpu.asked.length)
    (hHeld : Contract x e)
    (hReset : e.nreset = true) :
    cpuOwed n (edge x e) ≤ cpuOwed n x ∧
      (moves x e = true → 0 < cpuOwed n x →
        cpuOwed n (edge x e) < cpuOwed n x) := by
  cases hCe : e.ce with
  | false =>
      rw [edge_disabled hReset hCe]
      simp [moves, hCe]
  | true =>
      have hNext := (boardInv_step x e hInv hHeld).walker
      rw [edge_enabled hReset hCe] at hNext ⊢
      have hTold : (x.2.cpu.note x.1 e).told =
          x.2.cpu.told ++ tells x.1 := rfl
      have hLength := asked_length hInv
      have hPos := cpuLeft_pos x.1 x.2.traffic
      simp only [cpuOwed, hTold, List.length_append]
      by_cases hDone : n ≤ x.2.cpu.told.length
      · rw [if_pos hDone, if_pos (by omega)]
        simp
      · rw [if_neg hDone]
        cases hNow : x.2.cpu.now with
        | none =>
            rw [hNow] at hLength
            simp at hLength
            omega
        | some v =>
            rw [hNow] at hLength
            simp at hLength
            by_cases hTells : tells x.1 = []
            · have hQuiet := hTells
              simp only [tells, List.append_eq_nil_iff,
                ite_eq_right_iff, List.cons_ne_nil, imp_false,
                Bool.not_eq_true] at hQuiet
              rcases hQuiet with ⟨hAck, hBerr⟩
              have hActive : x.1.bus.active = true := by
                have hPhase := hInv.cpu.phase
                rw [hNow] at hPhase
                rcases hPhase with hFirst | hTail | hTelling
                · exact hFirst.active
                · exact hTail.active
                · exact absurd hTelling.ack (by simp [hAck])
              have hBusReq : x.1.bus.bReq = true := by
                rw [hInv.cpu.req, hActive]
              rw [hTells, if_neg (by simpa using hDone)]
              cases hBeat : x.1.service.bAck with
              | true =>
                  have hLess := cpuLeft_answered (e := e)
                    (t := x.2.traffic) hActive hAck hBeat hBerr
                  exact ⟨Nat.le_of_lt hLess, fun _ _ => hLess⟩
              | false =>
                  have hNear := cpuLeft_waiting (e := e)
                    hInv.traffic hActive hBusReq hAck hBeat hBerr
                    (walker_disarmed hNext)
                  refine ⟨hNear.1, ?_⟩
                  intro hMoves _
                  apply hNear.2
                  simpa [moves, hCe] using hMoves
            · have hSome : 0 < (tells x.1).length :=
                List.length_pos_of_ne_nil hTells
              rw [if_pos (by omega)]
              omega

end Quadra800

------------------------------------------------------------
-- The Walker's Wait
------------------------------------------------------------

namespace Quadra800

open Clocked

variable {x : Board × Ledger} {e : Env} {n : Nat}

def walkerHeard (x : Board × Ledger) : Nat :=
  (repliesOf .walker x.2.traffic.heard).length

/- What the walker's first `n` requests still wait for. -/
def walkerOwed (n : Nat) (x : Board × Ledger) : Nat :=
  if n ≤ walkerHeard x then 0
  else distance .walker x.1.service x.2.traffic

/- As many of an owner's replies as of its jobs served. -/
theorem replies_served
    (o : Owner)
    (served : List (Job × Reply)) :
    (repliesOf o (served.map owed)).length =
      (beatsOf o (served.map Prod.fst)).length := by
  induction served with
  | nil => rfl
  | cons p served ih =>
      by_cases hOwner : p.1.owner = o
      · simpa [repliesOf, beatsOf, owed, hOwner] using ih
      · simpa [repliesOf, beatsOf, owed, hOwner] using ih

theorem answers_walker_length
    {s : Service}
    (hOnce : (answers s).length ≤ 1) :
    (repliesOf .walker (answers s)).length =
      if told .walker s then 1 else 0 := by
  unfold told
  cases hAnswers : answers s with
  | nil => rfl
  | cons p rest =>
      rw [hAnswers] at hOnce
      have hRest : rest = [] := by
        cases rest with
        | nil => rfl
        | cons q rest => simp at hOnce
      rw [hRest]
      by_cases hOwner : p.1 = .walker <;>
        simp [repliesOf, hOwner]

/- Where the requests shown have got to. -/
theorem walks_length (hInv : BoardInv x) :
    x.2.walker.walks.length =
      walkerHeard x +
        (if told .walker x.1.service then 1 else 0) +
        (if inService .walker x.2.traffic then 1 else 0) +
        (x.2.walker.waiting
          (engaged .walker x.1.service x.2.traffic)).length := by
  have hAnswers :=
    answers_walker_length (answers_once hInv.traffic)
  have hCount := replies_served .walker x.2.traffic.served
  rw [← hInv.traffic.heard] at hCount
  have hServing :
      (beatsOf .walker x.2.traffic.serving.toList).length =
        if inService .walker x.2.traffic then 1 else 0 := by
    cases hServing : x.2.traffic.serving with
    | none => simp [beatsOf, inService, hServing]
    | some j =>
        by_cases hOwner : j.owner = .walker <;>
          simp [beatsOf, inService, hServing, owns, hOwner]
  have hSplit : (beatsOf .walker x.2.traffic.jobs).length =
      (beatsOf .walker
        (x.2.traffic.served.map Prod.fst)).length +
      (beatsOf .walker x.2.traffic.serving.toList).length := by
    rw [hInv.traffic.jobs]
    simp [beatsOf]
  have hHeard : (repliesOf .walker
        (x.2.traffic.heard ++ answers x.1.service)).length =
      walkerHeard x +
        (repliesOf .walker (answers x.1.service)).length := by
    simp [walkerHeard, repliesOf]
  rw [hInv.walker.walks, List.length_append, hSplit, hServing,
    ← hCount, hHeard, hAnswers]

theorem walkerOwed_edge
    (hInv : BoardInv x)
    (hWalks : n ≤ x.2.walker.walks.length)
    (hHeld : Contract x e)
    (hReset : e.nreset = true) :
    walkerOwed n (edge x e) ≤ walkerOwed n x ∧
      (moves x e = true → 0 < walkerOwed n x →
        walkerOwed n (edge x e) < walkerOwed n x) := by
  cases hCe : e.ce with
  | false =>
      rw [edge_disabled hReset hCe]
      simp [moves, hCe]
  | true =>
      have hNext := (boardInv_step x e hInv hHeld).walker
      rw [edge_enabled hReset hCe] at hNext ⊢
      have hLength := walks_length hInv
      have hAnswers :=
        answers_walker_length (answers_once hInv.traffic)
      have hWaiting := walker_waiting_le x.2.walker
        (engaged .walker x.1.service x.2.traffic)
      have hEngaged := @engaged_walker x.1 x.2.traffic
      have hBound := distance_bounds .walker x.1.service
        x.2.traffic
      have hHeard : (repliesOf .walker
            (x.2.traffic.heard ++ answers x.1.service)).length =
          walkerHeard x +
            (repliesOf .walker (answers x.1.service)).length := by
        simp [walkerHeard, repliesOf]
      have hGrow : walkerHeard
          (⟨Bus32.clock x.1.bus (busIn x.1 e),
              clock x.1.service (pins x.1 e)⟩,
            { traffic :=
                x.2.traffic.note x.1.service (pins x.1 e)
              cpu := x.2.cpu.note x.1 e
              walker := x.2.walker.note x.1 e }) =
          walkerHeard x +
            (if told .walker x.1.service then 1 else 0) := by
        rw [← hAnswers, ← hHeard]
        rfl
      simp only [walkerOwed, hGrow]
      by_cases hDone : n ≤ walkerHeard x
      · rw [if_pos hDone, if_pos (by omega)]
        simp
      · rw [if_neg hDone]
        cases hTold : told .walker x.1.service with
        | true =>
            have hBusy : inService .walker x.2.traffic = false := by
              cases hService : inService .walker x.2.traffic with
              | false => rfl
              | true =>
                  have hQuiet :=
                    (inService_busy hInv.traffic hService).2
                  simp [told, hQuiet] at hTold
            have hNone : x.2.walker.waiting
                (engaged .walker x.1.service x.2.traffic) = [] := by
              rw [hEngaged, ← told_walker, hTold]
              simp only [Bool.or_true, WalkBook.waiting]
              split <;> rfl
            rw [hTold, hBusy, hNone] at hLength
            simp at hLength
            rw [if_pos (by simp; omega)]
            omega
        | false =>
            have hShown : x.1.service.svc = .idle →
                takes .walker x.1.service (pins x.1 e) = true ∨
                  (Owner.walker = .cpu ∧
                    x.1.service.walkerArmed = true ∧
                    takes .walker x.1.service (pins x.1 e) =
                      true) := by
              intro hSvc
              left
              have hOut : inService .walker x.2.traffic = false := by
                cases hService : inService .walker x.2.traffic with
                | false => rfl
                | true =>
                    exact absurd hSvc
                      (inService_busy hInv.traffic hService).1
              have hIdle : engaged .walker x.1.service
                  x.2.traffic = false := by
                rw [hEngaged, ← told_walker, hTold, hOut]
                rfl
              have hArmed := hInv.walker.armed
              rw [hTold, hOut, hIdle] at hLength
              rw [hIdle] at hArmed
              cases hWalk : x.2.walker.walk with
              | idle =>
                  simp [WalkBook.waiting, hWalk] at hLength
                  omega
              | closing =>
                  simp [WalkBook.waiting, hWalk] at hLength
                  omega
              | asking b =>
                  rw [hWalk] at hArmed
                  have hAsk := (hHeld.walker b hWalk
                    (by rw [← told_walker]; exact hTold)).1
                  rw [takes_walker_pins, hSvc, hAsk, hArmed]
                  rfl
            have hNear := distance_step (i := pins x.1 e)
              hInv.traffic hTold hShown (walker_disarmed hNext)
            simp only [Bool.false_eq_true, if_false, Nat.add_zero,
              if_neg hDone]
            refine ⟨hNear.1, ?_⟩
            intro hMoves _
            apply hNear.2
            simpa [moves, hCe] using hMoves

end Quadra800

------------------------------------------------------------
-- Delivery
------------------------------------------------------------

namespace Quadra800

open Clocked

/- The board and its ledger after a list of cycles. -/
def after (es : List Env) : Board × Ledger :=
  run edge (Board.reset, {}) es

/- How many cycles of a run from `x` move the board. -/
def movingCycles (x : Board × Ledger) (es : List Env) : Nat :=
  enabledCount edge moves x es

theorem asked_grows (x : Board × Ledger) (e : Env)
    (hReset : e.nreset = true) :
    x.2.cpu.asked.length ≤ (edge x e).2.cpu.asked.length ∧
      x.2.walker.walks.length ≤
        (edge x e).2.walker.walks.length := by
  cases hCe : e.ce with
  | false =>
      rw [edge_disabled hReset hCe]
      exact ⟨Nat.le_refl _, Nat.le_refl _⟩
  | true =>
      rw [edge_enabled hReset hCe]
      refine ⟨by simp [CpuBook.note], ?_⟩
      simp only [WalkBook.note]
      cases x.2.walker.walk with
      | idle =>
          cases e.walkerReq <;> simp
      | asking b =>
          cases walkerTold x.1 <;> simp
      | closing =>
          cases e.walkerReq <;> simp

/-
  What an owner asked before is answered once the board has
  moved often enough since.
-/
theorem owed_answered
    {x : Board × Ledger} {es : List Env}
    {μ : Board × Ledger → Nat}
    {asked : Board × Ledger → Nat} {n : Nat}
    (hGrow : ∀ y e, e.nreset = true → asked y ≤ asked (edge y e))
    (hEdge : ∀ y e, BoardInv y → n ≤ asked y → Contract y e →
      e.nreset = true →
        μ (edge y e) ≤ μ y ∧
          (moves y e = true → 0 < μ y → μ (edge y e) < μ y))
    (hInv : BoardInv x)
    (hAsked : n ≤ asked x)
    (hAlong : Along edge
      (fun y e => Contract y e ∧ e.nreset = true) x es)
    (hCount : μ x ≤ movingCycles x es) :
    μ (run edge x es) = 0 :=
  @measure_exhausted _ _ edge
    (fun y e => Contract y e ∧ e.nreset = true)
    (fun y => BoardInv y ∧ n ≤ asked y) moves μ
    (fun y e hy he =>
      ⟨boardInv_step y e hy.1 he.1,
        Nat.le_trans hy.2 (hGrow y e he.2)⟩)
    (fun y e hy he => (hEdge y e hy.1 hy.2 he.1 he.2).1)
    (fun y e hy he => (hEdge y e hy.1 hy.2 he.1 he.2).2)
    x es hAlong ⟨hInv, hAsked⟩ hCount

theorem cpuOwed_le (n : Nat) (x : Board × Ledger) :
    cpuOwed n x ≤ 11 := by
  have hBound := distance_bounds .cpu x.1.service x.2.traffic
  unfold cpuOwed cpuLeft
  split
  · omega
  · split
    · omega
    · split <;> omega

theorem walkerOwed_le (n : Nat) (x : Board × Ledger) :
    walkerOwed n x ≤ 11 := by
  have hBound := distance_bounds .walker x.1.service x.2.traffic
  unfold walkerOwed
  split <;> omega

/-
  In every run under the contract, resets included: every
  beat and every walker request is taken once, sent to the
  one target its address decodes to, and answered once to its
  owner with the data of its own access; and whatever was
  asked is answered within eleven moving cycles.
-/
theorem answers_delivered
    (es : List Env)
    (hHeld : Along edge Contract (Board.reset, {}) es) :
    Delivered (after es).1 (after es).2 ∧
      ∀ es', Along edge
          (fun x e => Contract x e ∧ e.nreset = true)
          (after es) es' →
        11 ≤ movingCycles (after es) es' →
        (after es).2.cpu.asked.length ≤
            (after (es ++ es')).2.cpu.told.length ∧
          (after es).2.walker.walks.length ≤
            walkerHeard (after (es ++ es')) := by
  have hInv : BoardInv (after es) :=
    invariant_run boardInv_step hHeld boardInv_reset
  refine ⟨delivered_of_boardInv hInv, ?_⟩
  intro es' hAlong hCount
  have hAfter : after (es ++ es') = run edge (after es) es' :=
    run_append _ es es'
  rw [hAfter]
  constructor
  · have hZero := owed_answered
      (fun y e hReset => (asked_grows y e hReset).1)
      (fun _ _ hy hn hc hr => cpuOwed_edge hy hn hc hr)
      hInv (Nat.le_refl _) hAlong
      (Nat.le_trans (cpuOwed_le _ _) hCount)
    by_contra hLess
    have hPos := cpuLeft_pos (run edge (after es) es').1
      (run edge (after es) es').2.traffic
    rw [cpuOwed, if_neg hLess] at hZero
    omega
  · have hZero := owed_answered
      (fun y e hReset => (asked_grows y e hReset).2)
      (fun _ _ hy hn hc hr => walkerOwed_edge hy hn hc hr)
      hInv (Nat.le_refl _) hAlong
      (Nat.le_trans (walkerOwed_le _ _) hCount)
    by_contra hLess
    have hPos := distance_bounds .walker
      (run edge (after es) es').1.service
      (run edge (after es) es').2.traffic
    rw [walkerOwed, if_neg hLess] at hZero
    omega

end Quadra800

------------------------------------------------------------
-- A Split Read Around a Walk
------------------------------------------------------------

namespace Quadra800

open Clocked

deriving instance DecidableEq for Bus32.Txn

/- The walker's open request. -/
def Walk.beat : Walk → Option Beat
  | .asking b => some b
  | _ => none

theorem contract_iff (x : Board × Ledger) (e : Env) :
    Contract x e ↔
      (∀ v ∈ x.2.cpu.now, tells x.1 = [] →
        e.busReq = true ∧ busTxn e = v.txn) ∧
      ∀ b ∈ x.2.walker.walk.beat, walkerTold x.1 = false →
        e.walkerReq = true ∧ walkerBeat (pins x.1 e) = b := by
  have hBeat : ∀ b, b ∈ x.2.walker.walk.beat ↔
      x.2.walker.walk = .asking b := by
    intro b
    cases x.2.walker.walk <;> simp [Walk.beat]
  constructor
  · rintro ⟨hCpu, hWalker⟩
    exact ⟨hCpu, fun b hB => hWalker b ((hBeat b).mp hB)⟩
  · rintro ⟨hCpu, hWalker⟩
    exact ⟨hCpu, fun b hB => hWalker b ((hBeat b).mpr hB)⟩

instance (x : Board × Ledger) (e : Env) :
    Decidable (Contract x e) :=
  decidable_of_iff _ (contract_iff x e).symm

/- A longword read from the ROM, across two longwords. -/
def splitRead : Env where
  busReq := true
  busSize := 2#2
  busAddr := 0x40000002#32
  memAck := true
  memRdata := 0x11223344#32

/- The same, with a table walk to RAM beside it. -/
def splitReadWalk : Env :=
  { splitRead with
    walkerReq := true
    walkerAddr := 0x00001000#32
    memRdata := 0x55667788#32 }

def splitReadRun : List Env :=
  [splitRead, splitRead, splitRead, splitReadWalk, splitReadWalk,
    splitReadWalk, splitRead, splitRead, splitRead, {}, {}, {}]

theorem answers_delivered_splitRead :
    (Delivered (after (splitReadRun.take 1)).1
        (after (splitReadRun.take 1)).2 ∧
      1 ≤ (after splitReadRun).2.cpu.told.length ∧
      0 ≤ walkerHeard (after splitReadRun)) ∧
    (after splitReadRun).2.cpu.told =
      [.data 0x33441122#32] ∧
    repliesOf .walker (after splitReadRun).2.traffic.heard =
      [.data 0x55667788#32] := by
  have hRun := answers_delivered (splitReadRun.take 1) (by decide)
  exact ⟨⟨hRun.1, hRun.2 (splitReadRun.drop 1) (by decide)
    (by decide)⟩, by decide, by decide⟩

end Quadra800
