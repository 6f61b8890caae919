import Wombat33.Clocked.Run
import Wombat33.Quadra800.Ledger

/-
  The service's traffic: a beat is taken, is in service until
  its target replies, and its owner is answered.

  Key definitions include:
    * `Free`, `Serving`
    * `TrafficInv`

  Key theorems include:
    * `clock_taken`, `clock_waiting`, `clock_released`
    * `traffic_step`
-/

------------------------------------------------------------
-- A Beat's Life
------------------------------------------------------------

namespace Quadra800

variable {s : Service} {i : Pins} {j : Job} {r : Reply}

/- The state that serves a target. -/
def Target.svc : Target → Svc
  | .ram => .mem
  | .rom => .mem
  | .vram => .mem
  | .iosb => .iosb
  | .berr => .berr
  | .dafb => .dafb
  | .openBus => .openBus

/- Exactly this request is up. -/
def Requested (s : Service) : Option Wire → Prop
  | none =>
      s.memReq = false ∧ s.iosbSel = false ∧ s.dafbSel = false
  | some (.mem memsel b) =>
      s.memReq = true ∧ s.iosbSel = false ∧
        s.dafbSel = false ∧ s.memMemsel = memsel ∧
        (⟨s.memWrite, s.memAddr, s.memBe, s.memWdata⟩ : Beat) = b
  | some (.iosb write addr be wdata) =>
      s.memReq = false ∧ s.iosbSel = true ∧
        s.dafbSel = false ∧ s.iosbWrite = write ∧
        s.iosbAddr = addr ∧ s.iosbBe = be ∧
        s.iosbWdata = wdata
  | some (.dafb write addr wdata) =>
      s.memReq = false ∧ s.iosbSel = false ∧
        s.dafbSel = true ∧ s.dafbWrite = write ∧
        s.dafbAddr = addr ∧ s.dafbWdata = wdata

/- No beat is in service; an answer may be up. -/
structure Free (s : Service) : Prop where
  svc : s.svc = .idle
  port : Requested s none
  once : (answers s).length ≤ 1

/- A job is in service. -/
structure Serving (s : Service) (j : Job) : Prop where
  svc : s.svc = j.target.svc
  owner : s.svcWalker = decide (j.owner = .walker)
  port : Requested s j.wire
  quiet : answers s = []

theorem lines_of_requested {w : Option Wire}
    (hPort : Requested s w) :
    lines s = w.toList := by
  rcases w with _ | (_ | _ | _)
  · rcases hPort with ⟨hMem, hIosb, hDafb⟩
    simp [lines, hMem, hIosb, hDafb]
  · rcases hPort with ⟨hMem, hIosb, hDafb, rfl, rfl⟩
    simp [lines, hMem, hIosb, hDafb]
  · rcases hPort with ⟨hMem, hIosb, hDafb, rfl, rfl, rfl, rfl⟩
    simp [lines, hMem, hIosb, hDafb]
  · rcases hPort with ⟨hMem, hIosb, hDafb, rfl, rfl, rfl⟩
    simp [lines, hMem, hIosb, hDafb]

@[simp] theorem answers_settle (s : Service) (i : Pins) :
    answers (settle s i) = [] := rfl

@[simp] theorem settle_overlay (s : Service) (i : Pins) :
    (settle s i).overlay = s.overlay := rfl

/- A job in service is not idle. -/
theorem svc_ne_idle (t : Target) : t.svc ≠ .idle := by
  cases t <;> exact Svc.noConfusion

/- Without its reply a beat stays in service. -/
theorem clock_waiting
    (hBusy : s.svc ≠ .idle)
    (hNone : replied s i = none) :
    clock s i = settle s i := by
  unfold replied at hNone
  unfold clock
  split
  next h => exact absurd h hBusy
  next h =>
      simp only [h] at hNone
      cases hAck : i.memAck with
      | true => simp [hAck] at hNone
      | false => simp [mem, hAck]
  next h =>
      simp only [h] at hNone
      cases hAck : i.iosbAck with
      | true => simp [hAck] at hNone
      | false => simp [iosb, hAck]
  next h =>
      simp only [h] at hNone
      cases hAck : i.dafbAck with
      | true => simp [hAck] at hNone
      | false => simp [dafb, hAck]
  next h => simp [h] at hNone
  next h => simp [h] at hNone

/- The state after a reply. -/
structure Released (s s' : Service) (i : Pins) (j : Job) (r : Reply) :
    Prop where
  svc : s'.svc = .idle
  port : Requested s' none
  answers : answers s' = [(j.owner, r)]
  overlay : s'.overlay = s.overlay
  armed : s'.walkerArmed = (settle s i).walkerArmed

end Quadra800

------------------------------------------------------------
-- Replies
------------------------------------------------------------

namespace Quadra800

variable {s : Service} {i : Pins} {j : Job} {r : Reply}

/- The owner of the beat in service, from the register. -/
def ownerOf (walker : Bool) : Owner :=
  if walker then .walker else .cpu

theorem ownerOf_serving
    (hOwner : s.svcWalker = decide (j.owner = .walker)) :
    ownerOf s.svcWalker = j.owner := by
  rw [hOwner]
  cases j.owner <;> rfl

/- `answer` or `fault`, as the reply asks. -/
def respond (s : Service) : Reply → Service
  | .data d => answer s d
  | .fault => fault s

@[simp] theorem respond_svc (s : Service) (r : Reply) :
    (respond s r).svc = .idle := by
  cases r <;> simp only [respond, answer, fault] <;> split <;> rfl

theorem answers_respond
    (hQuiet : answers s = [])
    (r : Reply) :
    answers (respond s r) = [(ownerOf s.svcWalker, r)] := by
  simp only [answers, List.append_eq_nil_iff, ite_eq_right_iff,
    imp_false, Bool.not_eq_true, List.cons_ne_nil] at hQuiet
  rcases hQuiet with ⟨⟨⟨hAck, hBerr⟩, hWalkAck⟩, hWalkBerr⟩
  cases hWalker : s.svcWalker <;> cases r <;>
    simp [respond, answer, fault, ownerOf, answers, hWalker,
      hAck, hBerr, hWalkAck, hWalkBerr]

/- What a reply does once its request is withdrawn. -/
theorem released_of_respond {s' : Service}
    (hOwner : s.svcWalker = decide (j.owner = .walker))
    (hAnswers : answers s' = answers (respond (settle s i) r))
    (hSvc : s'.svc = .idle)
    (hPort : Requested s' none)
    (hOverlay : s'.overlay = s.overlay)
    (hArmed : s'.walkerArmed = (settle s i).walkerArmed) :
    Released s s' i j r where
  svc := hSvc
  port := hPort
  answers := by
    have hOwned : ownerOf (settle s i).svcWalker = j.owner :=
      ownerOf_serving hOwner
    rw [hAnswers, answers_respond (answers_settle s i), hOwned]
  overlay := hOverlay
  armed := hArmed

@[simp] theorem respond_overlay (s : Service) (r : Reply) :
    (respond s r).overlay = s.overlay := by
  cases r <;> simp only [respond, answer, fault] <;> split <;> rfl

@[simp] theorem respond_armed (s : Service) (r : Reply) :
    (respond s r).walkerArmed = s.walkerArmed := by
  cases r <;> simp only [respond, answer, fault] <;> split <;> rfl

@[simp] theorem respond_memReq (s : Service) (r : Reply) :
    (respond s r).memReq = s.memReq := by
  cases r <;> simp only [respond, answer, fault] <;> split <;> rfl

@[simp] theorem respond_iosbSel (s : Service) (r : Reply) :
    (respond s r).iosbSel = s.iosbSel := by
  cases r <;> simp only [respond, answer, fault] <;> split <;> rfl

@[simp] theorem respond_dafbSel (s : Service) (r : Reply) :
    (respond s r).dafbSel = s.dafbSel := by
  cases r <;> simp only [respond, answer, fault] <;> split <;> rfl

/- A service that replies answers and drops its request. -/
theorem clock_respond
    (hReply : replied s i = some r) :
    clock s i =
      { respond (settle s i) r with
        memReq := if s.svc = .mem then false else s.memReq
        iosbSel := if s.svc = .iosb then false else s.iosbSel
        dafbSel :=
          if s.svc = .dafb then false else s.dafbSel } := by
  unfold replied at hReply
  unfold clock
  cases hSvc : s.svc with
  | idle => simp [hSvc] at hReply
  | mem =>
      cases hAck : i.memAck with
      | false => simp [hSvc, hAck] at hReply
      | true =>
          simp only [hSvc, hAck, if_true, Option.some.injEq]
            at hReply
          subst hReply
          simp only [mem, hAck, respond, answer]
          cases hWalker : s.svcWalker <;> simp [settle, hWalker, hSvc]
  | iosb =>
      cases hAck : i.iosbAck with
      | false => simp [hSvc, hAck] at hReply
      | true =>
          simp only [hSvc, hAck, if_true, Option.some.injEq]
            at hReply
          subst hReply
          cases hFault : i.iosbFault <;>
            cases hWalker : s.svcWalker <;>
              simp [iosb, respond, answer, fault, settle, hAck,
                hFault, hWalker, hSvc]
  | dafb =>
      cases hAck : i.dafbAck with
      | false => simp [hSvc, hAck] at hReply
      | true =>
          simp only [hSvc, hAck, if_true, Option.some.injEq]
            at hReply
          subst hReply
          cases hWalker : s.svcWalker <;>
            simp [dafb, respond, answer, settle, hAck, hWalker,
              hSvc]
  | berr =>
      simp only [hSvc, Option.some.injEq] at hReply
      subst hReply
      cases hWalker : s.svcWalker <;>
        simp [respond, fault, settle, hWalker]
  | openBus =>
      simp only [hSvc, Option.some.injEq] at hReply
      subst hReply
      cases hWalker : s.svcWalker <;>
        simp [respond, answer, settle, hWalker]

/- The request withdrawn is the one that was up. -/
theorem port_withdrawn (hServing : Serving s j) :
    (if s.svc = .mem then false else s.memReq) = false ∧
      (if s.svc = .iosb then false else s.iosbSel) = false ∧
      (if s.svc = .dafb then false else s.dafbSel) = false := by
  have hSvc := hServing.svc
  have hPort := hServing.port
  unfold Job.wire at hPort
  cases hTarget : j.target <;>
    simp only [hTarget, Target.svc, Requested] at hSvc hPort <;>
    simp [hSvc, hPort]

theorem clock_released
    (hServing : Serving s j)
    (hReply : replied s i = some r) :
    Released s (clock s i) i j r := by
  rw [clock_respond hReply]
  apply released_of_respond hServing.owner
  · rfl
  · exact respond_svc _ _
  · exact port_withdrawn hServing
  · exact respond_overlay _ _
  · exact respond_armed _ _

/- The exchange at the target is the job and its reply. -/
theorem exchanges_serving (hServing : Serving s j) :
    exchanges s i =
      ((replied s i).map (fun r => (j, r))).toList.filterMap
        exchanged := by
  have hSvc := hServing.svc
  have hPort := hServing.port
  unfold Job.wire at hPort
  unfold replied exchanges exchanged Job.wire
  cases hTarget : j.target with
  | ram | rom | vram =>
      simp only [hTarget, Target.svc, Requested] at hSvc hPort
      rcases hPort with ⟨hMem, hIosb, hDafb, hSel, hBeat⟩
      cases hAck : i.memAck <;>
        simp [hSvc, hMem, hIosb, hDafb, hSel, hBeat, hTarget]
  | iosb =>
      simp only [hTarget, Target.svc, Requested] at hSvc hPort
      rcases hPort with
        ⟨hMem, hIosb, hDafb, hWrite, hAddr, hBe, hData⟩
      cases hAck : i.iosbAck <;>
        simp [hSvc, hMem, hIosb, hDafb, hWrite, hAddr, hBe, hData,
          hTarget]
  | dafb =>
      simp only [hTarget, Target.svc, Requested] at hSvc hPort
      rcases hPort with ⟨hMem, hIosb, hDafb, hWrite, hAddr, hData⟩
      cases hAck : i.dafbAck <;>
        simp [hSvc, hMem, hIosb, hDafb, hWrite, hAddr, hData,
          hTarget]
  | berr | openBus =>
      simp only [hTarget, Target.svc, Requested] at hSvc hPort
      rcases hPort with ⟨hMem, hIosb, hDafb⟩
      simp [hSvc, hMem, hIosb, hDafb, hTarget]

theorem honest_reply
    (hServing : Serving s j)
    (hReply : replied s i = some r) :
    Honest (j, r) := by
  have hSvc := hServing.svc
  unfold replied at hReply
  cases hTarget : j.target <;>
    simp only [hTarget, Target.svc] at hSvc <;>
    simp only [hSvc] at hReply <;>
    simp only [Honest, hTarget] <;>
    grind

end Quadra800

------------------------------------------------------------
-- Taking a Beat
------------------------------------------------------------

namespace Quadra800

variable {s : Service} {i : Pins} {j : Job}

@[simp] theorem answers_dispatch
    (s : Service) (t : Target) (b : Beat) :
    answers (dispatch s t b) = answers s := by
  cases t <;> rfl

@[simp] theorem dispatch_svc
    (s : Service) (t : Target) (b : Beat) :
    (dispatch s t b).svc = t.svc := by
  cases t <;> rfl

@[simp] theorem dispatch_svcWalker
    (s : Service) (t : Target) (b : Beat) :
    (dispatch s t b).svcWalker = s.svcWalker := by
  cases t <;> rfl

@[simp] theorem dispatch_overlay
    (s : Service) (t : Target) (b : Beat) :
    (dispatch s t b).overlay = s.overlay := by
  cases t <;> rfl

@[simp] theorem dispatch_armed
    (s : Service) (t : Target) (b : Beat) :
    (dispatch s t b).walkerArmed = s.walkerArmed := by
  cases t <;> rfl

/- Only the request of the job's target goes up. -/
theorem requested_dispatch
    (hPort : Requested s none)
    (j : Job) :
    Requested (dispatch s j.target j.beat) j.wire := by
  rcases hPort with ⟨hMem, hIosb, hDafb⟩
  unfold Job.wire
  cases j.target <;>
    simp [dispatch, startMem, startIosb, startDafb, Requested,
      hMem, hIosb, hDafb]

/- The state after the service takes a job. -/
structure Taken (s s' : Service) (i : Pins) (j : Job) : Prop where
  serving : Serving s' j
  overlay : s'.overlay = (s.overlay && !endsOverlay j.beat)
  armed : s'.walkerArmed =
    (if j.owner = .walker then false
      else (settle s i).walkerArmed)

theorem taken_some (hTaken : taken s i = some j) :
    s.svc = .idle ∧ (walkerPend s i || cpuPend s i) = true ∧
      j.owner = (if walkerPend s i then .walker else .cpu) ∧
      j.beat = nextBeat s i ∧
      j.target = decode s.overlay j.ramCfg j.beat.addr ∧
      j.ramCfg = i.ramCfg := by
  unfold taken at hTaken
  split at hTaken
  next hPend =>
      rw [← Option.some.inj hTaken]
      exact ⟨hPend.1, hPend.2, rfl, rfl, rfl, rfl⟩
  next => exact absurd hTaken (by simp)

theorem clock_taken
    (hFree : Free s)
    (hTaken : taken s i = some j) :
    Taken s (clock s i) i j := by
  rcases taken_some hTaken with
    ⟨hSvc, hPend, hOwner, hBeat, hTarget, hCfg⟩
  have hClock : clock s i =
      dispatch
        { settle s i with
          svcWalker := walkerPend s i
          walkerArmed :=
            if walkerPend s i then false
            else (settle s i).walkerArmed
          svcAddr := j.beat.addr
          overlay :=
            if endsOverlay j.beat then false
            else s.overlay }
        j.target j.beat := by
    unfold clock
    rw [hSvc]
    simp only [idle, hPend, if_true, take, hTarget, hBeat, hCfg]
    rfl
  rw [hClock]
  have hWalker :
      walkerPend s i = decide (j.owner = .walker) := by
    rw [hOwner]
    cases walkerPend s i <;> rfl
  exact {
    serving := {
      svc := dispatch_svc _ _ _
      owner := by rw [dispatch_svcWalker]; exact hWalker
      port := requested_dispatch (by exact hFree.port) j
      quiet := by rw [answers_dispatch]; rfl }
    overlay := by
      rw [dispatch_overlay]
      cases endsOverlay j.beat <;> simp
    armed := by
      rw [dispatch_armed, hWalker]
      simp }

/- Nothing is taken: the service stays free. -/
theorem clock_untaken
    (hSvc : s.svc = .idle)
    (hNone : taken s i = none) :
    clock s i = settle s i := by
  have hPend : (walkerPend s i || cpuPend s i) = false := by
    simpa [taken, hSvc] using hNone
  unfold clock
  rw [hSvc]
  simp [idle, hPend]

theorem free_settle (hFree : Free s) : Free (settle s i) where
  svc := hFree.svc
  port := hFree.port
  once := by simp

end Quadra800

------------------------------------------------------------
-- Traffic
------------------------------------------------------------

namespace Quadra800

variable {s : Service} {i : Pins} {g : Traffic}

structure TrafficInv (s : Service) (g : Traffic) : Prop where
  free : g.serving = none → Free s
  busy : ∀ j, g.serving = some j → Serving s j
  jobs : g.jobs = g.served.map Prod.fst ++ g.serving.toList
  heard : g.heard ++ answers s = g.served.map owed
  sent : g.sent = g.served.filterMap exchanged
  honest : ∀ p ∈ g.served, Honest p
  overlay : s.overlay = g.jobs.all (fun k => !endsOverlay k.beat)
  routed : Routed g.jobs

/- A free service asks no target for anything. -/
theorem exchanges_free (hFree : Free s) : exchanges s i = [] := by
  rcases hFree.port with ⟨hMem, hIosb, hDafb⟩
  simp [exchanges, hMem, hIosb, hDafb]

theorem ending_none
    (hNone : g.serving = none) : ending s i g = none := by
  simp [ending, hNone]

theorem ending_some {j : Job}
    (hSome : g.serving = some j) :
    ending s i g = (replied s i).map (fun r => (j, r)) := by
  simp [ending, hSome]

/- A job taken while busy: there is none. -/
theorem taken_busy (hBusy : s.svc ≠ .idle) :
    taken s i = none := by
  simp [taken, hBusy]

theorem routed_append {jobs : List Job} {j : Job}
    (hRouted : Routed jobs)
    (hNew : j.target =
      decode (jobs.all (fun k => !endsOverlay k.beat))
        j.ramCfg j.beat.addr) :
    Routed (jobs ++ [j]) := by
  intro before k hPrefix
  rcases List.prefix_concat_iff.mp hPrefix with hAll | hOld
  · have hBoth := List.append_inj' hAll rfl
    rcases hBoth with ⟨rfl, hLast⟩
    rw [List.singleton_inj.mp hLast]
    exact hNew
  · exact hRouted before k hOld

/- One cycle of a free service. -/
theorem traffic_free
    (hInv : TrafficInv s g)
    (hNone : g.serving = none) :
    TrafficInv (clock s i) (g.note s i) := by
  have hFree := hInv.free hNone
  have hServed : (g.note s i).served = g.served := by
    simp [Traffic.note, ending_none hNone]
  have hSent : (g.note s i).sent = g.sent := by
    simp [Traffic.note, exchanges_free hFree]
  have hHeard : (g.note s i).heard = g.heard ++ answers s := rfl
  have hServing : (g.note s i).serving = taken s i := by
    simp [Traffic.note, hNone]
  have hJobs : (g.note s i).jobs =
      g.jobs ++ (taken s i).toList := rfl
  have hBefore : g.jobs = g.served.map Prod.fst := by
    simpa [hNone] using hInv.jobs
  cases hTaken : taken s i with
  | none =>
      have hClock := clock_untaken hFree.svc hTaken
      rw [hTaken] at hServing hJobs
      rw [hClock]
      exact {
        free := fun _ => free_settle hFree
        busy := by simp [hServing]
        jobs := by
          rw [hJobs, hServing, hServed]
          simp [hBefore]
        heard := by
          rw [hHeard, hServed, answers_settle]
          simpa using hInv.heard
        sent := by rw [hSent, hServed, hInv.sent]
        honest := by rw [hServed]; exact hInv.honest
        overlay := by simpa [hJobs] using hInv.overlay
        routed := by simpa [hJobs] using hInv.routed }
  | some j =>
      have hNext := clock_taken hFree hTaken
      rw [hTaken] at hServing hJobs
      have hTarget := (taken_some hTaken).2.2.2.2.1
      rw [hInv.overlay] at hTarget
      exact {
        free := by simp [hServing]
        busy := by
          intro k hSome
          rw [hServing] at hSome
          exact Option.some.inj hSome ▸ hNext.serving
        jobs := by
          rw [hJobs, hServing, hServed, hBefore]
        heard := by
          rw [hHeard, hServed, hNext.serving.quiet]
          simpa using hInv.heard
        sent := by rw [hSent, hServed, hInv.sent]
        honest := by rw [hServed]; exact hInv.honest
        overlay := by
          rw [hNext.overlay, hJobs, hInv.overlay]
          simp
        routed := by
          rw [hJobs]
          exact routed_append hInv.routed hTarget }

/- One cycle of a busy service. -/
theorem traffic_busy {j : Job}
    (hInv : TrafficInv s g)
    (hSome : g.serving = some j) :
    TrafficInv (clock s i) (g.note s i) := by
  have hServing := hInv.busy j hSome
  have hBusy : s.svc ≠ .idle := by
    rw [hServing.svc]
    exact svc_ne_idle j.target
  have hJobs : (g.note s i).jobs = g.jobs := by
    simp [Traffic.note, taken_busy hBusy]
  have hHeard : (g.note s i).heard = g.heard := by
    simp [Traffic.note, hServing.quiet]
  have hOld : g.heard = g.served.map owed := by
    simpa [hServing.quiet] using hInv.heard
  have hSent : (g.note s i).sent =
      g.sent ++ ((replied s i).map
        (fun r => (j, r))).toList.filterMap exchanged := by
    simp [Traffic.note, exchanges_serving hServing]
  have hServed : (g.note s i).served =
      g.served ++
        ((replied s i).map (fun r => (j, r))).toList := by
    simp [Traffic.note, ending_some hSome]
  have hNext : (g.note s i).serving =
      if (replied s i).isSome then none else some j := by
    simp [Traffic.note, hSome]
  have hBefore : g.jobs = g.served.map Prod.fst ++ [j] := by
    simpa [hSome] using hInv.jobs
  cases hReply : replied s i with
  | none =>
      have hClock := clock_waiting hBusy hReply
      rw [hReply] at hSent hServed hNext
      rw [hClock]
      exact {
        free := by simp [hNext]
        busy := by
          intro k hK
          have hSame : j = k := by simpa [hNext] using hK
          rw [← hSame]
          exact ⟨hServing.svc, hServing.owner, hServing.port,
            rfl⟩
        jobs := by simp [hJobs, hNext, hServed, hBefore]
        heard := by simp [hHeard, hServed, hOld]
        sent := by simp [hSent, hServed, hInv.sent]
        honest := by simpa [hServed] using hInv.honest
        overlay := by simpa [hJobs] using hInv.overlay
        routed := by simpa [hJobs] using hInv.routed }
  | some r =>
      have hReleased := clock_released hServing hReply
      rw [hReply] at hSent hServed hNext
      exact {
        free := fun _ =>
          ⟨hReleased.svc, hReleased.port, by
            simp [hReleased.answers]⟩
        busy := by simp [hNext]
        jobs := by simp [hJobs, hNext, hServed, hBefore]
        heard := by
          simp [hHeard, hServed, hOld, hReleased.answers, owed]
        sent := by simp [hSent, hServed, hInv.sent]
        honest := by
          intro p hP
          simp only [hServed, Option.map_some, Option.toList_some,
            List.mem_append, List.mem_singleton] at hP
          rcases hP with hP | rfl
          · exact hInv.honest p hP
          · exact honest_reply hServing hReply
        overlay := by
          rw [hReleased.overlay, hJobs, hInv.overlay]
        routed := by rw [hJobs]; exact hInv.routed }

theorem traffic_step
    (hInv : TrafficInv s g) :
    TrafficInv (clock s i) (g.note s i) := by
  cases hServing : g.serving with
  | none => exact traffic_free hInv hServing
  | some j => exact traffic_busy hInv hServing

end Quadra800
