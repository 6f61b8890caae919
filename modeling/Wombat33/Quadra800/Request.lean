import Wombat33.Quadra800.Delivery

/-
  The request on the service's wires, edge by edge.

  At most one target is asked at a time.  An edge either ends
  its exchange, or leaves the request as it is, or may put a
  new one up where there was none.

  Key definitions include:
    * `onWire`

  Key theorems include:
    * `requested_onWire`
    * `request_cases`
-/

------------------------------------------------------------
-- The Request
------------------------------------------------------------

namespace Quadra800

variable {s : Service} {i : Pins} {g : Traffic}
variable {w : Option Wire}

/- What the one target that is asked is asked for. -/
def onWire (s : Service) : Option Wire := (lines s).head?

theorem onWire_of_requested (hPort : Requested s w) :
    onWire s = w := by
  rw [onWire, lines_of_requested hPort]
  cases w <;> rfl

/- The beat in service is the one request that is up. -/
theorem requested_serving (hInv : TrafficInv s g) :
    Requested s (g.serving.bind Job.wire) := by
  cases hServing : g.serving with
  | none => exact (hInv.free hServing).port
  | some j => exact (hInv.busy j hServing).port

theorem requested_onWire (hInv : TrafficInv s g) :
    Requested s (onWire s) := by
  rw [onWire_of_requested (requested_serving hInv)]
  exact requested_serving hInv

/- A target's select says what the request is. -/
theorem onWire_mem
    (hInv : TrafficInv s g)
    (hReq : s.memReq = true) :
    onWire s = some (.mem s.memMemsel
      ⟨s.memWrite, s.memAddr, s.memBe, s.memWdata⟩) := by
  have hPort := requested_onWire hInv
  rcases hWire : onWire s with _ | (_ | _ | _) <;>
    simp_all [Requested]

theorem onWire_dafb
    (hInv : TrafficInv s g)
    (hSel : s.dafbSel = true) :
    onWire s =
      some (.dafb s.dafbWrite s.dafbAddr s.dafbWdata) := by
  have hPort := requested_onWire hInv
  rcases hWire : onWire s with _ | (_ | _ | _) <;>
    simp_all [Requested]

theorem requested_settle (hPort : Requested s w) :
    Requested (settle s i) w := by
  cases w with
  | none => exact hPort
  | some w => cases w <;> exact hPort

end Quadra800

------------------------------------------------------------
-- One Edge
------------------------------------------------------------

namespace Quadra800

variable {s : Service} {i : Pins} {g : Traffic}

/- An exchange ends, or a request stays, or there is none. -/
theorem request_cases (hInv : TrafficInv s g) :
    (∃ w r, onWire s = some w ∧ exchanges s i = [(w, r)] ∧
      onWire (clock s i) = none) ∨
    (exchanges s i = [] ∧ onWire (clock s i) = onWire s ∧
      Requested (clock s i) (onWire s)) ∨
    (onWire s = none ∧ exchanges s i = []) := by
  have hPort := onWire_of_requested (requested_serving hInv)
  cases hServing : g.serving with
  | none =>
      right; right
      rw [hServing] at hPort
      exact ⟨hPort, exchanges_free (hInv.free hServing)⟩
  | some j =>
      have hBusy := hInv.busy j hServing
      rw [hServing, Option.bind_some] at hPort
      cases hReply : replied s i with
      | none =>
          right; left
          have hSvc : s.svc ≠ .idle := by
            rw [hBusy.svc]
            exact svc_ne_idle j.target
          have hNone : exchanges s i = [] := by
            rw [exchanges_serving hBusy, hReply]
            rfl
          rw [clock_waiting hSvc hReply, hPort]
          have hStays : Requested (settle s i) j.wire :=
            requested_settle hBusy.port
          exact ⟨hNone, onWire_of_requested hStays, hStays⟩
      | some r =>
          have hReleased := clock_released hBusy hReply
          have hExchange := @exchanges_serving _ i _ hBusy
          rw [hReply] at hExchange
          cases hWire : j.wire with
          | none =>
              right; right
              rw [hExchange]
              exact ⟨hPort.trans hWire, by
                simp [exchanged, hWire]⟩
          | some w =>
              left
              refine ⟨w, r, hPort.trans hWire, ?_,
                onWire_of_requested hReleased.port⟩
              rw [hExchange]
              simp [exchanged, hWire]

/- A memory's exchange ends with its acknowledge. -/
theorem exchanges_mem
    {memsel : BitVec 2} {b : Beat}
    (hPort : Requested s (some (.mem memsel b))) :
    exchanges s i =
      if i.memAck then [(.mem memsel b, .data i.memRdata)]
      else [] := by
  rcases hPort with ⟨hMem, hIosb, hDafb, rfl, rfl⟩
  simp [exchanges, hMem, hIosb, hDafb]

theorem exchanges_dafb
    {write : Bool} {addr : BitVec 8} {wdata : BitVec 32}
    (hPort : Requested s (some (.dafb write addr wdata))) :
    exchanges s i =
      if i.dafbAck then
        [(.dafb write addr wdata, .data i.dafbRdata)]
      else [] := by
  rcases hPort with ⟨hMem, hIosb, hDafb, rfl, rfl, rfl⟩
  simp [exchanges, hMem, hIosb, hDafb]

end Quadra800
