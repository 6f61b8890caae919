import Wombat33.Quadra800.Traffic

/-
  Every answer once and to its owner.

  The books of the CPU and of the walker need two facts of
  the service: which beats it takes, and whether a requester
  is engaged, from its beat's taking to its answer.

  Key definitions include:
    * `takes`, `engaged`
    * `CpuInv`, `WalkInv`, `BoardInv`

  Key theorems include:
    * `cpu_step`, `walk_step`
    * `boardInv_step`, `delivered_of_boardInv`
-/

------------------------------------------------------------
-- Taken and Engaged
------------------------------------------------------------

namespace Quadra800

variable {s : Service} {i : Pins} {g : Traffic}

def owns (o : Owner) (j : Job) : Bool := decide (j.owner = o)

/- The service takes a beat of this owner in this cycle. -/
def takes (o : Owner) (s : Service) (i : Pins) : Bool :=
  (taken s i).any (owns o)

def inService (o : Owner) (g : Traffic) : Bool :=
  g.serving.any (owns o)

/- The owner's beat is in service, or its answer is up. -/
def engaged (o : Owner) (s : Service) (g : Traffic) : Bool :=
  inService o g || (answers s).any (fun p => p.1 = o)

/- The beat each requester shows. -/
def shown (i : Pins) : Owner → Beat
  | .cpu => cpuBeat i
  | .walker => walkerBeat i

theorem takes_cpu :
    takes .cpu s i =
      (decide (s.svc = .idle) && !walkerPend s i &&
        cpuPend s i) := by
  unfold takes taken
  by_cases hSvc : s.svc = .idle <;>
    cases hWalk : walkerPend s i <;>
      cases hCpu : cpuPend s i <;> simp [hSvc, owns]

theorem takes_walker :
    takes .walker s i =
      (decide (s.svc = .idle) && walkerPend s i) := by
  unfold takes taken
  by_cases hSvc : s.svc = .idle <;>
    cases hWalk : walkerPend s i <;>
      cases hCpu : cpuPend s i <;> simp [hSvc, owns]

/- What is taken of an owner is the beat it shows. -/
theorem beatsOf_note (o : Owner) :
    beatsOf o (g.note s i).jobs =
      beatsOf o g.jobs ++
        (if takes o s i then [shown i o] else []) := by
  have hJobs : (g.note s i).jobs =
      g.jobs ++ (taken s i).toList := rfl
  rw [hJobs]
  cases hTaken : taken s i with
  | none => simp [takes, hTaken]
  | some j =>
      rcases taken_some hTaken with ⟨-, -, hOwner, hBeat, -, -⟩
      cases hWalk : walkerPend s i <;> cases o <;>
        simp [beatsOf, takes, owns, hTaken, hOwner, hBeat, hWalk,
          nextBeat, shown]

theorem inService_busy {o : Owner}
    (hInv : TrafficInv s g)
    (hService : inService o g = true) :
    s.svc ≠ .idle ∧ answers s = [] := by
  cases hServing : g.serving with
  | none => simp [inService, hServing] at hService
  | some j =>
      have hBusy := hInv.busy j hServing
      refine ⟨?_, hBusy.quiet⟩
      rw [hBusy.svc]
      exact svc_ne_idle j.target

/- An owner is engaged from the taking of its beat on. -/
theorem engaged_note
    (hInv : TrafficInv s g)
    (o : Owner) :
    engaged o (clock s i) (g.note s i) =
      (takes o s i || inService o g) := by
  cases hServing : g.serving with
  | none =>
      have hFree := hInv.free hServing
      have hNext : (g.note s i).serving = taken s i := by
        simp [Traffic.note, hServing]
      cases hTaken : taken s i with
      | none =>
          simp [engaged, inService, takes, hNext, hTaken,
            hServing, clock_untaken hFree.svc hTaken]
      | some j =>
          have hQuiet := (clock_taken hFree hTaken).serving.quiet
          simp [engaged, inService, takes, hNext, hTaken,
            hServing, hQuiet]
  | some j =>
      have hBusy := hInv.busy j hServing
      have hSvc : s.svc ≠ .idle := by
        rw [hBusy.svc]
        exact svc_ne_idle j.target
      have hNext : (g.note s i).serving =
          if (replied s i).isSome then none else some j := by
        simp [Traffic.note, hServing]
      cases hReply : replied s i with
      | none =>
          simp [engaged, inService, takes, taken_busy hSvc, hNext,
            hReply, hServing, clock_waiting hSvc hReply]
      | some r =>
          simp [engaged, inService, takes, taken_busy hSvc, hNext,
            hReply, hServing, (clock_released hBusy hReply).answers,
            owns]

/- Only taking its beat disarms the walker. -/
theorem armed_note
    (hInv : TrafficInv s g) :
    (clock s i).walkerArmed =
      (if takes .walker s i then false
        else (settle s i).walkerArmed) := by
  cases hServing : g.serving with
  | none =>
      have hFree := hInv.free hServing
      cases hTaken : taken s i with
      | none =>
          simp [takes, hTaken, clock_untaken hFree.svc hTaken]
      | some j =>
          rw [(clock_taken hFree hTaken).armed]
          simp [takes, hTaken, owns]
  | some j =>
      have hBusy := hInv.busy j hServing
      have hSvc : s.svc ≠ .idle := by
        rw [hBusy.svc]
        exact svc_ne_idle j.target
      have hNone : takes .walker s i = false := by
        simp [takes, taken_busy hSvc]
      rw [hNone]
      cases hReply : replied s i with
      | none => rw [clock_waiting hSvc hReply]; simp
      | some r => simpa using (clock_released hBusy hReply).armed

theorem answers_once (hInv : TrafficInv s g) :
    (answers s).length ≤ 1 := by
  cases hServing : g.serving with
  | none => exact (hInv.free hServing).once
  | some j => simp [(hInv.busy j hServing).quiet]

end Quadra800

------------------------------------------------------------
-- The Walker's Book
------------------------------------------------------------

namespace Quadra800

variable {m : Board} {e : Env} {t : Traffic} {g : WalkBook}

theorem answers_walker (s : Service) :
    (answers s).any (fun p => p.1 = .walker) =
      (s.walkerAck || s.walkerBerr) := by
  simp only [answers]
  cases s.walkerAck <;> cases s.walkerBerr <;>
    cases s.bAck <;> cases s.cpuBerr <;> simp

/- The request the walker has shown and not had taken. -/
def WalkBook.waiting (g : WalkBook) (busy : Bool) : List Beat :=
  match g.walk with
  | .asking b => if busy then [] else [b]
  | _ => []

def Walk.armed (busy : Bool) : Walk → Bool
  | .idle => true
  | .asking _ => !busy
  | .closing => false

structure WalkInv
    (s : Service) (t : Traffic) (g : WalkBook) : Prop where
  armed : s.walkerArmed = g.walk.armed (engaged .walker s t)
  asking : engaged .walker s t = true → ∃ b, g.walk = .asking b
  walks : g.walks =
    beatsOf .walker t.jobs ++ g.waiting (engaged .walker s t)

/- One cycle, from what the service does in it. -/
theorem walk_note
    (hTraffic : TrafficInv m.service t)
    {takesNow busy : Bool}
    (hTakes : takes .walker m.service (pins m e) = takesNow)
    (hBusy : inService .walker t = busy)
    (hArmed : (if takesNow then false
        else (settle m.service (pins m e)).walkerArmed) =
      (g.note m e).walk.armed (takesNow || busy))
    (hAsking : (takesNow || busy) = true →
      ∃ b, (g.note m e).walk = .asking b)
    (hWalks : (g.note m e).walks =
      beatsOf .walker t.jobs ++
        (if takesNow then [walkerBeat (pins m e)] else []) ++
        (g.note m e).waiting (takesNow || busy)) :
    WalkInv (clock m.service (pins m e))
      (t.note m.service (pins m e)) (g.note m e) where
  armed := by
    rw [armed_note hTraffic, engaged_note hTraffic, hTakes, hBusy]
    exact hArmed
  asking := by
    rw [engaged_note hTraffic, hTakes, hBusy]
    exact hAsking
  walks := by
    rw [engaged_note hTraffic, beatsOf_note, hTakes, hBusy, hWalks]
    rfl

theorem engaged_walker :
    engaged .walker m.service t =
      (inService .walker t || walkerTold m) := by
  rw [engaged, answers_walker]
  rfl

theorem settle_armed :
    (settle m.service (pins m e)).walkerArmed =
      (if !e.walkerReq then true else m.service.walkerArmed) :=
  rfl

theorem takes_walker_pins :
    takes .walker m.service (pins m e) =
      (decide (m.service.svc = .idle) &&
        (e.walkerReq && m.service.walkerArmed)) :=
  takes_walker

/- A walk that asks for nothing is not in service. -/
theorem walk_free
    (hInv : WalkInv m.service t g)
    (hNone : ∀ b, g.walk ≠ .asking b) :
    inService .walker t = false := by
  have hFree : engaged .walker m.service t = false := by
    apply Bool.eq_false_iff.mpr
    intro hEngaged
    rcases hInv.asking hEngaged with ⟨b, hAsking⟩
    exact hNone b hAsking
  rw [engaged_walker, Bool.or_eq_false_iff] at hFree
  exact hFree.1

/- No request: the walker may show one, and have it taken. -/
theorem walk_idle
    (hTraffic : TrafficInv m.service t)
    (hInv : WalkInv m.service t g)
    (hWalk : g.walk = .idle) :
    WalkInv (clock m.service (pins m e))
      (t.note m.service (pins m e)) (g.note m e) := by
  have hArmed : m.service.walkerArmed = true := by
    rw [hInv.armed, hWalk]
    rfl
  have hWalks : g.walks = beatsOf .walker t.jobs := by
    simpa [WalkBook.waiting, hWalk] using hInv.walks
  have hService := walk_free hInv (by simp [hWalk])
  apply walk_note hTraffic rfl hService
  all_goals
    rw [takes_walker_pins]
    simp only [WalkBook.note, hWalk, settle_armed, hArmed]
    cases e.walkerReq <;> by_cases hSvc : m.service.svc = .idle <;>
      simp [hSvc, hWalk, hWalks, Walk.armed, WalkBook.waiting]

/- The request is held: until it is taken, and until told. -/
theorem walk_asking {b : Beat}
    (hTraffic : TrafficInv m.service t)
    (hInv : WalkInv m.service t g)
    (hWalk : g.walk = .asking b)
    (hHeld : walkerTold m = false →
      e.walkerReq = true ∧ walkerBeat (pins m e) = b) :
    WalkInv (clock m.service (pins m e))
      (t.note m.service (pins m e)) (g.note m e) := by
  have hArmed := hInv.armed
  have hWalks := hInv.walks
  rw [engaged_walker, hWalk] at hArmed
  rw [engaged_walker] at hWalks
  simp only [Walk.armed] at hArmed
  simp only [WalkBook.waiting, hWalk] at hWalks
  cases hService : inService .walker t with
  | true =>
      -- the beat is in service: it is neither told nor taken
      rcases inService_busy hTraffic hService with ⟨hSvc, hQuiet⟩
      have hUntold : walkerTold m = false := by
        have hNone := answers_walker m.service
        rw [hQuiet] at hNone
        simpa [walkerTold] using hNone.symm
      rcases hHeld hUntold with ⟨hReq, hBeat⟩
      apply walk_note hTraffic rfl hService
      all_goals
        rw [takes_walker_pins]
        simp [WalkBook.note, hWalk, hUntold, hSvc, hWalks,
          hService, settle_armed, hReq, hArmed, Walk.armed,
          WalkBook.waiting]
  | false =>
      cases hTold : walkerTold m with
      | false =>
          rcases hHeld hTold with ⟨hReq, hBeat⟩
          apply walk_note hTraffic rfl hService
          all_goals
            rw [takes_walker_pins]
            by_cases hSvc : m.service.svc = .idle <;>
              simp [WalkBook.note, hWalk, hTold, hSvc, hWalks,
                hService, settle_armed, hReq, hArmed, hBeat,
                Walk.armed, WalkBook.waiting]
      | true =>
          apply walk_note hTraffic rfl hService
          all_goals
            rw [takes_walker_pins]
            cases hReq : e.walkerReq <;>
              simp [WalkBook.note, hWalk, hTold, hWalks,
                hService, settle_armed, hReq, hArmed, Walk.armed,
                WalkBook.waiting]

/- After its answer the request is not taken again. -/
theorem walk_closing
    (hTraffic : TrafficInv m.service t)
    (hInv : WalkInv m.service t g)
    (hWalk : g.walk = .closing) :
    WalkInv (clock m.service (pins m e))
      (t.note m.service (pins m e)) (g.note m e) := by
  have hArmed : m.service.walkerArmed = false := by
    rw [hInv.armed, hWalk]
    rfl
  have hWalks : g.walks = beatsOf .walker t.jobs := by
    simpa [WalkBook.waiting, hWalk] using hInv.walks
  have hService := walk_free hInv (by simp [hWalk])
  apply walk_note hTraffic rfl hService
  all_goals
    rw [takes_walker_pins]
    cases hReq : e.walkerReq <;>
      simp [WalkBook.note, hWalk, hReq, settle_armed, hArmed, hWalks,
        Walk.armed, WalkBook.waiting]

theorem walk_step
    (hTraffic : TrafficInv m.service t)
    (hInv : WalkInv m.service t g)
    (hHeld : ∀ b, g.walk = .asking b → walkerTold m = false →
      e.walkerReq = true ∧ walkerBeat (pins m e) = b) :
    WalkInv (clock m.service (pins m e))
      (t.note m.service (pins m e)) (g.note m e) := by
  cases hWalk : g.walk with
  | idle => exact walk_idle hTraffic hInv hWalk
  | asking b =>
      exact walk_asking hTraffic hInv hWalk (hHeld b hWalk)
  | closing => exact walk_closing hTraffic hInv hWalk

end Quadra800

------------------------------------------------------------
-- The CPU's Book
------------------------------------------------------------

namespace Quadra800

open Bus32

/- No transaction: the adapter may accept one. -/
structure Resting (s : Adapter) : Prop where
  active : s.active = false
  ack : s.tAck = false

/- The first beat is presented. -/
structure FirstOut (s : Adapter) (v : Visit) : Prop where
  active : s.active = true
  second : s.second = false
  ack : s.tAck = false
  latched : Latched s v.txn
  beat : busBeat s = firstBeat v.txn
  replies : v.replies = []

/- The second of two beats is presented. -/
structure TailOut (s : Adapter) (v : Visit) : Prop where
  active : s.active = true
  second : s.second = true
  ack : s.tAck = false
  latched : Latched s v.txn
  split : isSplit v.txn = true
  beat : busBeat s = tailBeat v.txn
  replies : ∃ d, v.replies = [.data d] ∧
    s.rStream = stream v.txn d

/- The answer is up. -/
structure Telling (s : Adapter) (v : Visit) : Prop where
  active : s.active = false
  ack : s.tAck = true
  whole : v.Whole
  outcome : v.outcome = .data s.tRdata

def Phase (s : Adapter) : Option Visit → Prop
  | none => Resting s
  | some v => FirstOut s v ∨ TailOut s v ∨ Telling s v

/- The beat presented and not taken. -/
def waiting (s : Adapter) (busy : Bool) : List Beat :=
  if s.active && !busy then [busBeat s] else []

structure CpuInv
    (m : Board) (t : Traffic) (g : CpuBook) : Prop where
  phase : Phase m.bus g.now
  req : m.bus.bReq = m.bus.active
  busy : engaged .cpu m.service t = true →
    m.bus.active = true
  taken : g.beats =
    beatsOf .cpu t.jobs ++
      waiting m.bus (engaged .cpu m.service t)
  asked : g.asked = g.visits.map Visit.txn
  beats : g.beats = g.visits.flatMap Visit.presented
  replies : repliesOf .cpu t.heard =
    g.visits.flatMap Visit.replies
  told : g.told = g.past.map Visit.outcome
  whole : ∀ v ∈ g.past, v.Whole

variable {m : Board} {e : Env} {t : Traffic} {g : CpuBook}

theorem answers_cpu (s : Service) :
    (answers s).any (fun p => p.1 = .cpu) =
      (s.bAck || s.cpuBerr) := by
  simp only [answers]
  cases s.walkerAck <;> cases s.walkerBerr <;>
    cases s.bAck <;> cases s.cpuBerr <;> simp

theorem repliesOf_answers (s : Service) :
    repliesOf .cpu (answers s) =
      (if s.bAck then [.data s.bRdata] else []) ++
        (if s.cpuBerr then [.fault] else []) := by
  simp only [repliesOf, answers]
  cases s.walkerAck <;> cases s.walkerBerr <;>
    cases s.bAck <;> cases s.cpuBerr <;> simp

theorem repliesOf_note :
    repliesOf .cpu (t.note m.service (pins m e)).heard =
      repliesOf .cpu t.heard ++
        repliesOf .cpu (answers m.service) := by
  simp [Traffic.note, repliesOf]

theorem engaged_cpu :
    engaged .cpu m.service t =
      (inService .cpu t || (m.service.bAck ||
        m.service.cpuBerr)) := by
  rw [engaged, answers_cpu]

theorem takes_cpu_pins :
    takes .cpu m.service (pins m e) =
      (decide (m.service.svc = .idle) &&
        !walkerPend m.service (pins m e) &&
          (m.bus.bReq && !m.service.bAck &&
            !m.service.cpuBerr)) :=
  takes_cpu

/- One cycle, from what the adapter and the book do in it. -/
theorem cpu_note {b : Adapter} {n : CpuBook} {takesNow busy : Bool}
    (hTraffic : TrafficInv m.service t)
    (hTakes : takes .cpu m.service (pins m e) = takesNow)
    (hBusy : inService .cpu t = busy)
    (hPhase : Phase b n.now)
    (hReq : b.bReq = b.active)
    (hEngaged : (takesNow || busy) = true → b.active = true)
    (hTaken : n.beats =
      beatsOf .cpu t.jobs ++
        (if takesNow then [busBeat m.bus] else []) ++
          waiting b (takesNow || busy))
    (hAsked : n.asked = n.visits.map Visit.txn)
    (hBeats : n.beats = n.visits.flatMap Visit.presented)
    (hReplies : repliesOf .cpu t.heard ++
        repliesOf .cpu (answers m.service) =
      n.visits.flatMap Visit.replies)
    (hTold : n.told = n.past.map Visit.outcome)
    (hWhole : ∀ v ∈ n.past, v.Whole) :
    CpuInv ⟨b, clock m.service (pins m e)⟩
      (t.note m.service (pins m e)) n where
  phase := hPhase
  req := hReq
  busy := by
    rw [engaged_note hTraffic, hTakes, hBusy]
    exact hEngaged
  taken := by
    rw [engaged_note hTraffic, beatsOf_note, hTakes, hBusy,
      hTaken]
    rfl
  asked := hAsked
  beats := hBeats
  replies := by rw [repliesOf_note]; exact hReplies
  told := hTold
  whole := hWhole

/- Nothing is answered and nothing new is asked. -/
theorem cpu_wait
    (hTraffic : TrafficInv m.service t)
    (hInv : CpuInv m t g)
    (hAck : m.bus.tAck = false)
    (hNoAck : m.service.bAck = false)
    (hNoBerr : m.service.cpuBerr = false) :
    CpuInv ⟨wait m.bus, clock m.service (pins m e)⟩
      (t.note m.service (pins m e)) g := by
  have hEngaged : engaged .cpu m.service t = inService .cpu t := by
    rw [engaged_cpu, hNoAck, hNoBerr]
    simp
  have hTaken := hInv.taken
  rw [hEngaged] at hTaken
  have hPhase : Phase (wait m.bus) g.now := by
    have hOld := hInv.phase
    cases hNow : g.now with
    | none =>
        rw [hNow] at hOld
        exact ⟨hOld.active, rfl⟩
    | some v =>
        rw [hNow] at hOld
        rcases hOld with hFirst | hTail | hTelling
        · exact Or.inl ⟨hFirst.active, hFirst.second, rfl,
            ⟨hFirst.latched.write, hFirst.latched.off,
              hFirst.latched.bytes, hFirst.latched.last,
              hFirst.latched.wsh⟩,
            hFirst.beat, hFirst.replies⟩
        · exact Or.inr (Or.inl ⟨hTail.active, hTail.second, rfl,
            ⟨hTail.latched.write, hTail.latched.off,
              hTail.latched.bytes, hTail.latched.last,
              hTail.latched.wsh⟩,
            hTail.split, hTail.beat, hTail.replies⟩)
        · exact absurd hTelling.ack (by simp [hAck])
  apply cpu_note hTraffic rfl rfl hPhase hInv.req
  · intro hNext
    rcases Bool.or_eq_true_iff.mp hNext with hTakes | hService
    · rw [takes_cpu_pins] at hTakes
      simp only [Bool.and_eq_true] at hTakes
      exact hInv.req ▸ hTakes.2.1.1
    · exact hInv.busy (by rw [hEngaged]; exact hService)
  · rw [hTaken]
    cases hService : inService .cpu t with
    | true =>
        have hSvc := (inService_busy hTraffic hService).1
        simp [takes_cpu_pins, hSvc, waiting]
    | false =>
        cases hTakes : takes .cpu m.service (pins m e) with
        | false => simp [waiting, wait, busBeat]
        | true =>
            rw [takes_cpu_pins] at hTakes
            simp only [Bool.and_eq_true] at hTakes
            have hActive : m.bus.active = true :=
              hInv.req ▸ hTakes.2.1.1
            simp [waiting, hActive]
  · exact hInv.asked
  · exact hInv.beats
  · rw [repliesOf_answers, hNoAck, hNoBerr]
    simpa using hInv.replies
  · exact hInv.told
  · exact hInv.whole

end Quadra800

------------------------------------------------------------
-- Asking and Being Told
------------------------------------------------------------

namespace Quadra800

open Bus32

variable {m : Board} {e : Env} {t : Traffic} {g : CpuBook}
variable {v : Visit}

/- The visits, when one is in progress. -/
theorem visits_some (hNow : g.now = some v) :
    g.visits = g.past ++ [v] := by
  simp [CpuBook.visits, hNow]

theorem visits_none (hNow : g.now = none) :
    g.visits = g.past := by
  simp [CpuBook.visits, hNow]

/- An idle adapter has nothing taken and nothing answered. -/
theorem cpu_idle
    (hInv : CpuInv m t g)
    (hIdle : m.bus.active = false) :
    inService .cpu t = false ∧ m.service.bAck = false ∧
      m.service.cpuBerr = false ∧
      takes .cpu m.service (pins m e) = false ∧
      g.beats = beatsOf .cpu t.jobs := by
  have hFree : engaged .cpu m.service t = false := by
    cases hEngaged : engaged .cpu m.service t with
    | false => rfl
    | true => exact absurd (hInv.busy hEngaged) (by simp [hIdle])
  have hReq : m.bus.bReq = false := by rw [hInv.req, hIdle]
  have hTaken := hInv.taken
  rw [hFree] at hTaken
  rw [engaged_cpu] at hFree
  simp only [Bool.or_eq_false_iff] at hFree
  exact ⟨hFree.1, hFree.2.1, hFree.2.2,
    by simp [takes_cpu_pins, hReq],
    by simpa [waiting, hIdle] using hTaken⟩

/- A new request is presented as its first beat. -/
theorem cpu_ask
    (hTraffic : TrafficInv m.service t)
    (hInv : CpuInv m t g)
    (hNow : g.now = none) :
    CpuInv
      ⟨accept m.bus (busIn m e), clock m.service (pins m e)⟩
      (t.note m.service (pins m e))
      { g with
        asked := g.asked ++ [busTxn e]
        beats := g.beats ++ [firstBeat (busTxn e)]
        now := some ⟨busTxn e, []⟩ } := by
  have hRest : Resting m.bus := by
    simpa [Phase, hNow] using hInv.phase
  rcases cpu_idle (e := e) hInv hRest.active with
    ⟨hService, hAck, hBerr, hTakes, hBeats⟩
  have hVisits := visits_none hNow
  have hOld := hInv.beats
  have hReplies := hInv.replies
  have hAsked := hInv.asked
  rw [hVisits] at hOld hReplies hAsked
  apply cpu_note hTraffic hTakes hService
  · exact Or.inl ⟨rfl, rfl, rfl, ⟨rfl, rfl, rfl, rfl, rfl⟩, rfl, rfl⟩
  · rfl
  · simp
  · simp [hBeats, waiting, accept, busBeat, firstBeat, busTxn, busIn]
  · simp [CpuBook.visits, hAsked]
  · simp [CpuBook.visits, hOld, Visit.presented]
  · rw [repliesOf_answers, hAck, hBerr]
    simp [CpuBook.visits, hReplies]
  · exact hInv.told
  · exact hInv.whole

/- The CPU sees its answer; the visit is over. -/
theorem cpu_told
    (hTraffic : TrafficInv m.service t)
    (hInv : CpuInv m t g)
    (hNow : g.now = some v)
    (hTelling : Telling m.bus v) :
    CpuInv ⟨wait m.bus, clock m.service (pins m e)⟩
      (t.note m.service (pins m e))
      { g with
        told := g.told ++ [.data m.bus.tRdata]
        past := g.past ++ [v]
        now := none } := by
  rcases cpu_idle (e := e) hInv hTelling.active with
    ⟨hService, hAck, hBerr, hTakes, hBeats⟩
  have hVisits := visits_some hNow
  have hOld := hInv.beats
  have hReplies := hInv.replies
  have hAsked := hInv.asked
  rw [hVisits] at hOld hReplies hAsked
  apply cpu_note hTraffic hTakes hService
  · exact ⟨hTelling.active, rfl⟩
  · exact hInv.req
  · simp
  · simp [hBeats, waiting, wait, hTelling.active]
  · simpa [CpuBook.visits] using hAsked
  · simpa [CpuBook.visits] using hOld
  · rw [repliesOf_answers, hAck, hBerr]
    simpa [CpuBook.visits] using hReplies
  · simp [hInv.told, hTelling.outcome]
  · intro u hU
    rcases List.mem_append.mp hU with hPast | hLast
    · exact hInv.whole u hPast
    · rw [List.mem_singleton.mp hLast]
      exact hTelling.whole

end Quadra800

------------------------------------------------------------
-- Answers to the Adapter
------------------------------------------------------------

namespace Quadra800

open Bus32

variable {m : Board} {e : Env} {t : Traffic} {g : CpuBook}
variable {v : Visit} {d : BitVec 32}

/- While its answer is up no beat of the CPU is taken. -/
theorem cpu_answered
    (hTraffic : TrafficInv m.service t)
    (hInv : CpuInv m t g)
    (hAnswer : (m.service.bAck || m.service.cpuBerr) = true) :
    inService .cpu t = false ∧
      takes .cpu m.service (pins m e) = false ∧
      m.bus.active = true ∧
      g.beats = beatsOf .cpu t.jobs := by
  have hEngaged : engaged .cpu m.service t = true := by
    rw [engaged_cpu, hAnswer]
    simp
  have hTaken := hInv.taken
  rw [hEngaged] at hTaken
  refine ⟨?_, ?_, hInv.busy hEngaged, ?_⟩
  · cases hService : inService .cpu t with
    | false => rfl
    | true =>
        have hQuiet := (inService_busy hTraffic hService).2
        have hNone := answers_cpu m.service
        rw [hQuiet, hAnswer] at hNone
        exact absurd hNone (by simp)
  · rw [takes_cpu_pins]
    cases hAck : m.service.bAck with
    | true => simp
    | false =>
        rw [hAck] at hAnswer
        simp [show m.service.cpuBerr = true from hAnswer]
  · simpa [waiting] using hTaken

/- A presented beat's visit. -/
theorem active_cases
    (hInv : CpuInv m t g)
    (hActive : m.bus.active = true) :
    ∃ v, g.now = some v ∧ (FirstOut m.bus v ∨ TailOut m.bus v) := by
  have hPhase := hInv.phase
  cases hNow : g.now with
  | none =>
      rw [hNow] at hPhase
      exact absurd hPhase.active (by simp [hActive])
  | some v =>
      rw [hNow] at hPhase
      rcases hPhase with hFirst | hTail | hTelling
      · exact ⟨v, rfl, Or.inl hFirst⟩
      · exact ⟨v, rfl, Or.inr hTail⟩
      · exact absurd hTelling.active (by simp [hActive])

/- What a reply adds to a visit in progress. -/
def Visit.reply (v : Visit) (r : Reply) : Visit :=
  { v with replies := v.replies ++ [r] }

/- A fault ends the visit with the beats already presented. -/
theorem fault_ends
    (hOut : FirstOut m.bus v ∨ TailOut m.bus v) :
    (v.reply .fault).presented = v.presented ∧
      (v.reply .fault).Whole ∧
      (v.reply .fault).outcome = .fault := by
  rcases hOut with hFirst | hTail
  · simp [Visit.reply, Visit.presented, Visit.Whole,
      Visit.outcome, hFirst.replies]
  · rcases hTail.replies with ⟨d, hReplies, -⟩
    simp [Visit.reply, Visit.presented, Visit.Whole,
      Visit.outcome, hReplies, hTail.split]

/- A bus error ends the transaction at once. -/
theorem cpu_fault
    (hTraffic : TrafficInv m.service t)
    (hInv : CpuInv m t g)
    (hNow : g.now = some v)
    (hOut : FirstOut m.bus v ∨ TailOut m.bus v)
    (hAck : m.service.bAck = false)
    (hBerr : m.service.cpuBerr = true) :
    CpuInv ⟨abort m.bus, clock m.service (pins m e)⟩
      (t.note m.service (pins m e))
      { g with
        told := g.told ++ [.fault]
        past := g.past ++ [v.reply .fault]
        now := none } := by
  rcases cpu_answered (e := e) hTraffic hInv (by simp [hBerr]) with
    ⟨hService, hTakes, -, hBeats⟩
  rcases fault_ends hOut with ⟨hPresented, hWhole, hOutcome⟩
  have hVisits := visits_some hNow
  have hOld := hInv.beats
  have hReplies := hInv.replies
  have hAsked := hInv.asked
  rw [hVisits] at hOld hReplies hAsked
  apply cpu_note hTraffic hTakes hService
  · exact ⟨rfl, rfl⟩
  · rfl
  · simp
  · simp [hBeats, waiting, abort]
  · simpa [CpuBook.visits, Visit.reply] using hAsked
  · simpa [CpuBook.visits, hPresented] using hOld
  · rw [repliesOf_answers, hAck, hBerr, hReplies]
    simp [CpuBook.visits, Visit.reply]
  · simp [hInv.told, hOutcome]
  · intro u hU
    rcases List.mem_append.mp hU with hPast | hLast
    · exact hInv.whole u hPast
    · rw [List.mem_singleton.mp hLast]
      exact hWhole

/- The second of two beats, once the first is answered. -/
theorem split_shows (hFirst : FirstOut m.bus v) :
    busBeat (splitBeat m.bus (busIn m e)) = tailBeat v.txn := by
  have hAddr : m.bus.bAddr = v.txn.addr.extractLsb' 2 30 :=
    congrArg Beat.addr hFirst.beat
  simp [busBeat, splitBeat, tailBeat, rN0, hAddr,
    hFirst.latched.write, hFirst.latched.off,
    hFirst.latched.last, hFirst.latched.wsh]

/- The first of two beats is answered: the second is shown. -/
theorem cpu_split
    (hTraffic : TrafficInv m.service t)
    (hInv : CpuInv m t g)
    (hNow : g.now = some v)
    (hFirst : FirstOut m.bus v)
    (hTwo : firstOfTwo m.bus = true)
    (hAck : m.service.bAck = true)
    (hBerr : m.service.cpuBerr = false) :
    CpuInv
      ⟨splitBeat m.bus (busIn m e), clock m.service (pins m e)⟩
      (t.note m.service (pins m e))
      { g with
        beats := g.beats ++ [tailBeat v.txn]
        now := some (v.reply (.data m.service.bRdata)) } := by
  rcases cpu_answered (e := e) hTraffic hInv (by simp [hAck]) with
    ⟨hService, hTakes, hActive, hBeats⟩
  have hVisits := visits_some hNow
  have hOld := hInv.beats
  have hReplies := hInv.replies
  have hAsked := hInv.asked
  rw [hVisits] at hOld hReplies hAsked
  have hSplit : isSplit v.txn = true := by
    simpa [isSplit, firstOfTwo, hFirst.second,
      hFirst.latched.last] using hTwo
  have hTail : TailOut (splitBeat m.bus (busIn m e))
      (v.reply (.data m.service.bRdata)) := {
    active := hActive
    second := rfl
    ack := rfl
    latched := ⟨hFirst.latched.write, hFirst.latched.off,
      hFirst.latched.bytes, hFirst.latched.last,
      hFirst.latched.wsh⟩
    split := hSplit
    beat := (split_shows hFirst).trans rfl
    replies := ⟨m.service.bRdata,
      by simp [Visit.reply, hFirst.replies],
      by simp [splitBeat, rdStream0, stream, busIn, Visit.reply,
        hFirst.latched.off]⟩ }
  apply cpu_note hTraffic hTakes hService
  · exact Or.inr (Or.inl hTail)
  · exact hInv.req
  · simp
  · rw [hBeats]
    simp [waiting, hTail.active, hTail.beat, Visit.reply]
  · simpa [CpuBook.visits, Visit.reply] using hAsked
  · simp [CpuBook.visits, hOld, Visit.presented, Visit.reply,
      hFirst.replies, hSplit]
  · rw [repliesOf_answers, hAck, hBerr, hReplies]
    simp [CpuBook.visits, Visit.reply]
  · exact hInv.told
  · exact hInv.whole

/- What the last answer makes of a visit. -/
theorem last_reply
    (hOut : FirstOut m.bus v ∨ TailOut m.bus v)
    (hLast : firstOfTwo m.bus = false)
    (hData : m.service.bRdata = d) :
    (v.reply (.data d)).presented = v.presented ∧
      Telling (finish m.bus (busIn m e)) (v.reply (.data d)) := by
  rcases hOut with hFirst | hTail
  · have hSingle : isSplit v.txn = false := by
      simpa [isSplit, firstOfTwo, hFirst.second,
        hFirst.latched.last] using hLast
    refine ⟨by simp [Visit.presented, Visit.reply,
      hFirst.replies, hSingle], rfl, rfl, ?_, ?_⟩
    · simp [Visit.Whole, Visit.presented, Visit.reply,
        hFirst.replies, hSingle]
    · simp [Visit.outcome, Visit.reply, hFirst.replies, finish,
        hFirst.second, rdStream0, stream, busIn, hData,
        hFirst.latched.off, hFirst.latched.bytes]
  · rcases hTail.replies with ⟨d0, hReplies, hStream⟩
    refine ⟨by simp [Visit.presented, Visit.reply, hReplies],
      rfl, rfl, ?_, ?_⟩
    · simp [Visit.Whole, Visit.presented, Visit.reply, hReplies,
        hTail.split]
    · simp [Visit.outcome, Visit.reply, hReplies, finish,
        hTail.second, rN0, busIn, hData, hStream,
        hTail.latched.off, hTail.latched.bytes]

/- The last beat is answered: the answer goes up. -/
theorem cpu_finish
    (hTraffic : TrafficInv m.service t)
    (hInv : CpuInv m t g)
    (hNow : g.now = some v)
    (hOut : FirstOut m.bus v ∨ TailOut m.bus v)
    (hLast : firstOfTwo m.bus = false)
    (hAck : m.service.bAck = true)
    (hBerr : m.service.cpuBerr = false) :
    CpuInv
      ⟨finish m.bus (busIn m e), clock m.service (pins m e)⟩
      (t.note m.service (pins m e))
      { g with
        now := some (v.reply (.data m.service.bRdata)) } := by
  rcases cpu_answered (e := e) hTraffic hInv (by simp [hAck]) with
    ⟨hService, hTakes, -, hBeats⟩
  rcases last_reply (e := e) hOut hLast rfl with
    ⟨hPresented, hTelling⟩
  have hVisits := visits_some hNow
  have hOld := hInv.beats
  have hReplies := hInv.replies
  have hAsked := hInv.asked
  rw [hVisits] at hOld hReplies hAsked
  apply cpu_note hTraffic hTakes hService
  · exact Or.inr (Or.inr hTelling)
  · rfl
  · simp
  · simp [hBeats, waiting, finish]
  · simpa [CpuBook.visits, Visit.reply] using hAsked
  · simpa [CpuBook.visits, hPresented] using hOld
  · rw [repliesOf_answers, hAck, hBerr, hReplies]
    simp [CpuBook.visits, Visit.reply]
  · exact hInv.told
  · exact hInv.whole

end Quadra800

------------------------------------------------------------
-- One Cycle of the CPU's Book
------------------------------------------------------------

namespace Quadra800

open Bus32

variable {m : Board} {e : Env} {t : Traffic} {g : CpuBook}

theorem bus_enabled
    (hReset : e.nreset = true)
    (hCe : e.ce = true) :
    Bus32.step m.bus (busIn m e) =
      Bus32.clock m.bus (busIn m e) := by
  simp [Bus32.step, busIn, hReset, hCe]

theorem service_enabled
    (hReset : e.nreset = true)
    (hCe : e.ce = true) :
    step m.service (pins m e) = clock m.service (pins m e) := by
  simp [step, pins, hReset, hCe]

theorem berr_excludes_ack
    (hTraffic : TrafficInv m.service t)
    (hBerr : m.service.cpuBerr = true) :
    m.service.bAck = false := by
  cases hAck : m.service.bAck with
  | false => rfl
  | true =>
      have hOnce := answers_once hTraffic
      simp [answers, hAck, hBerr] at hOnce

/- An idle adapter: it is asked, it is telling, or neither. -/
theorem cpu_step_idle
    (hTraffic : TrafficInv m.service t)
    (hInv : CpuInv m t g)
    (hStep : Bus32.step m.bus (busIn m e) =
      Bus32.clock m.bus (busIn m e))
    (hActive : m.bus.active = false) :
    CpuInv
      ⟨Bus32.clock m.bus (busIn m e), clock m.service (pins m e)⟩
      (t.note m.service (pins m e)) (g.note m e) := by
  rcases cpu_idle (e := e) hInv hActive with
    ⟨-, hNoAck, hNoBerr, -, -⟩
  have hPhase := hInv.phase
  cases hNow : g.now with
  | none =>
      rw [hNow] at hPhase
      have hAck : m.bus.tAck = false := hPhase.ack
      have hTells : tells m = [] := by simp [tells, hAck, hNoBerr]
      cases hReq : e.busReq with
      | false =>
          have hClock : Bus32.clock m.bus (busIn m e) =
              wait m.bus := by
            simp [Bus32.clock, busIn, hActive, hReq]
          have hNote : g.note m e = g := by
            simp [CpuBook.note, hNow, hReq, hTells, presents,
              busIn, hActive]
            rw [← hNow]
          rw [hClock, hNote]
          exact cpu_wait hTraffic hInv hAck hNoAck hNoBerr
      | true =>
          have hClock : Bus32.clock m.bus (busIn m e) =
              accept m.bus (busIn m e) := by
            simp [Bus32.clock, busIn, hActive, hReq, hAck]
          have hNote : g.note m e =
              { g with
                asked := g.asked ++ [busTxn e]
                beats := g.beats ++ [firstBeat (busTxn e)]
                now := some ⟨busTxn e, []⟩ } := by
            simp only [CpuBook.note, hNow, hReq, hTells, hStep,
              hClock]
            simp [presents, busIn, hActive, hReq, hAck, busBeat,
              accept, firstBeat, busTxn]
          rw [hClock, hNote]
          exact cpu_ask hTraffic hInv hNow
  | some v =>
      rw [hNow] at hPhase
      rcases hPhase with hFirst | hTail | hTelling
      · exact absurd hFirst.active (by simp [hActive])
      · exact absurd hTail.active (by simp [hActive])
      · have hClock : Bus32.clock m.bus (busIn m e) =
            wait m.bus := by
          simp [Bus32.clock, busIn, hActive, hTelling.ack]
        have hNote : g.note m e =
            { g with
              told := g.told ++ [.data m.bus.tRdata]
              past := g.past ++ [v]
              now := none } := by
          simp [CpuBook.note, hNow, tells, hTelling.ack, hNoBerr,
            hNoAck, presents, busIn, hActive, Visit.hear]
        rw [hClock, hNote]
        exact cpu_told hTraffic hInv hNow hTelling

/- An active adapter: its beat is answered, or it waits. -/
theorem cpu_step_active
    (hTraffic : TrafficInv m.service t)
    (hInv : CpuInv m t g)
    (hStep : Bus32.step m.bus (busIn m e) =
      Bus32.clock m.bus (busIn m e))
    (hActive : m.bus.active = true) :
    CpuInv
      ⟨Bus32.clock m.bus (busIn m e), clock m.service (pins m e)⟩
      (t.note m.service (pins m e)) (g.note m e) := by
  rcases active_cases hInv hActive with ⟨v, hNow, hOut⟩
  have hAck : m.bus.tAck = false := by
    rcases hOut with hFirst | hTail
    · exact hFirst.ack
    · exact hTail.ack
  cases hBerr : m.service.cpuBerr with
  | true =>
      have hNoAck := berr_excludes_ack hTraffic hBerr
      have hClock : Bus32.clock m.bus (busIn m e) =
          abort m.bus := by
        simp [Bus32.clock, busIn, hActive, hBerr]
      have hNote : g.note m e =
          { g with
            told := g.told ++ [.fault]
            past := g.past ++ [v.reply .fault]
            now := none } := by
        simp [CpuBook.note, hNow, tells, hAck, hBerr, hNoAck,
          presents, busIn, hActive, Visit.hear, Visit.reply]
      rw [hClock, hNote]
      exact cpu_fault hTraffic hInv hNow hOut hNoAck hBerr
  | false =>
      have hTells : tells m = [] := by simp [tells, hAck, hBerr]
      cases hBeat : m.service.bAck with
      | false =>
          have hClock : Bus32.clock m.bus (busIn m e) =
              wait m.bus := by
            simp [Bus32.clock, busIn, hActive, hBerr, hBeat]
          have hNote : g.note m e = g := by
            simp [CpuBook.note, hNow, hTells, presents, busIn,
              hActive, hBeat, hBerr, Visit.hear]
            rw [← hNow]
          rw [hClock, hNote]
          exact cpu_wait hTraffic hInv hAck hBeat hBerr
      | true =>
          have hHear : v.hear m =
              v.reply (.data m.service.bRdata) := by
            simp [Visit.hear, Visit.reply, hBeat, hBerr]
          cases hTwo : firstOfTwo m.bus with
          | true =>
              rcases hOut with hFirst | hTail
              · have hClock : Bus32.clock m.bus (busIn m e) =
                    splitBeat m.bus (busIn m e) := by
                  simp [Bus32.clock, busIn, hActive, hBerr, hBeat,
                    hTwo]
                have hNext := @cpu_split m e t g v hTraffic hInv
                  hNow hFirst hTwo hBeat hBerr
                have hShown :
                    busBeat (splitBeat m.bus (busIn m e)) =
                      tailBeat v.txn :=
                  split_shows hFirst
                have hNote : g.note m e =
                    { g with
                      beats := g.beats ++ [tailBeat v.txn]
                      now :=
                        some (v.reply (.data m.service.bRdata)) } := by
                  simp only [CpuBook.note, hNow, hTells, hStep,
                    hClock, hShown, hHear]
                  simp [presents, busIn, hActive, hBerr, hBeat, hTwo]
                rw [hClock, hNote]
                exact hNext
              · simp [firstOfTwo, hTail.second] at hTwo
          | false =>
              have hClock : Bus32.clock m.bus (busIn m e) =
                  finish m.bus (busIn m e) := by
                simp [Bus32.clock, busIn, hActive, hBerr, hBeat,
                  hTwo]
              have hNote : g.note m e =
                  { g with
                    now :=
                      some (v.reply (.data m.service.bRdata)) } := by
                simp [CpuBook.note, hNow, hTells, presents, busIn,
                  hActive, hBerr, hBeat, hTwo, hHear]
              rw [hClock, hNote]
              exact cpu_finish hTraffic hInv hNow hOut hTwo hBeat
                hBerr

theorem cpu_step
    (hTraffic : TrafficInv m.service t)
    (hInv : CpuInv m t g)
    (hStep : Bus32.step m.bus (busIn m e) =
      Bus32.clock m.bus (busIn m e)) :
    CpuInv
      ⟨Bus32.clock m.bus (busIn m e), clock m.service (pins m e)⟩
      (t.note m.service (pins m e)) (g.note m e) := by
  cases hActive : m.bus.active with
  | false => exact cpu_step_idle hTraffic hInv hStep hActive
  | true => exact cpu_step_active hTraffic hInv hStep hActive

end Quadra800

------------------------------------------------------------
-- The Board
------------------------------------------------------------

namespace Quadra800

open Clocked

structure BoardInv (x : Board × Ledger) : Prop where
  traffic : TrafficInv x.1.service x.2.traffic
  cpu : CpuInv x.1 x.2.traffic x.2.cpu
  walker : WalkInv x.1.service x.2.traffic x.2.walker

/- The board with its ledger, one clock edge on. -/
abbrev edge : Board × Ledger → Env → Board × Ledger :=
  watch Board.step (fun g m e => g.note m e)

/- A reset starts over, whatever came before. -/
theorem boardInv_reset : BoardInv (Board.reset, {}) where
  traffic := {
    free := fun _ => ⟨rfl, ⟨rfl, rfl, rfl⟩, by decide⟩
    busy := by
      intro j hServing
      cases hServing
    jobs := rfl
    heard := rfl
    sent := rfl
    honest := fun _ hServed => absurd hServed List.not_mem_nil
    overlay := rfl
    routed := by
      intro before j hPrefix
      simp at hPrefix }
  cpu := {
    phase := ⟨rfl, rfl⟩
    req := rfl
    busy := fun hEngaged => absurd hEngaged (by decide)
    taken := rfl
    asked := rfl
    beats := rfl
    replies := rfl
    told := rfl
    whole := fun _ hPast => absurd hPast List.not_mem_nil }
  walker := {
    armed := rfl
    asking := fun hEngaged => absurd hEngaged (by decide)
    walks := rfl }

theorem boardInv_step
    (x : Board × Ledger) (e : Env)
    (hInv : BoardInv x)
    (hHeld : Contract x e) :
    BoardInv (edge x e) := by
  rcases x with ⟨m, g⟩
  simp only [edge, watch, Board.step, Ledger.note]
  cases hReset : e.nreset with
  | false =>
      have hBus : Bus32.step m.bus (busIn m e) =
          Bus32.resetState := by
        simp [Bus32.step, busIn, hReset]
      have hService : step m.service (pins m e) = resetState := by
        simp [step, pins, hReset]
      rw [hBus, hService]
      exact boardInv_reset
  | true =>
      cases hCe : e.ce with
      | false =>
          have hBus : Bus32.step m.bus (busIn m e) = m.bus := by
            simp [Bus32.step, busIn, hReset, hCe]
          have hService : step m.service (pins m e) =
              m.service := by
            simp [step, pins, hReset, hCe]
          rw [hBus, hService]
          exact hInv
      | true =>
          have hBus := @bus_enabled m e hReset hCe
          rw [hBus, service_enabled hReset hCe]
          exact {
            traffic := traffic_step hInv.traffic
            cpu := cpu_step hInv.traffic hInv.cpu hBus
            walker := walk_step hInv.traffic hInv.walker
              hHeld.walker }

theorem waiting_le (s : Bus32.Adapter) (busy : Bool) :
    (waiting s busy).length ≤ 1 := by
  unfold waiting
  split <;> simp

theorem walker_waiting_le (g : WalkBook) (busy : Bool) :
    (g.waiting busy).length ≤ 1 := by
  unfold WalkBook.waiting
  cases g.walk <;> cases busy <;> simp

/- What the invariants say of the books. -/
theorem delivered_of_boardInv
    {m : Board} {g : Ledger}
    (hInv : BoardInv (m, g)) : Delivered m g where
  taken_cpu := ⟨_, waiting_le _ _, hInv.cpu.taken⟩
  taken_walker :=
    ⟨_, walker_waiting_le _ _, hInv.walker.walks⟩
  routed := hInv.traffic.routed
  jobs := hInv.traffic.jobs
  sent := hInv.traffic.sent
  lines := by
    cases hServing : g.traffic.serving with
    | none =>
        simpa using
          lines_of_requested (hInv.traffic.free hServing).port
    | some j =>
        simpa using
          lines_of_requested (hInv.traffic.busy j hServing).port
  honest := hInv.traffic.honest
  heard := hInv.traffic.heard
  once := answers_once hInv.traffic
  asked := hInv.cpu.asked
  beats := hInv.cpu.beats
  replies := hInv.cpu.replies
  told := hInv.cpu.told
  whole := hInv.cpu.whole

end Quadra800
