/-
  Networking/Broadcast.lean --- whom a broadcast reaches.

  `broadcastData` increments its iterator also after an `erase`, which has moved
  it already.  A failed send so hides the next client, or leaves the vector when
  there is none: the loop makes as many sends as there are clients only if none
  of them fails (`broadcastDataLoop_sends`), and `broadcastData` serves every
  client exactly then (`servesEveryClient_iff`).  That iterators are positions does not
  matter for this: by the standard a broadcast is undefined after a failed send.
-/
import XplaneServer.Networking.Connections

set_option autoImplicit false

namespace XplaneServer.Networking

open Foundation

/-- The sends that were made, in order: to whom, what, and the result. -/
def transmissions (trace : List Event) : List (SOCKET × Bytes × Int) :=
  trace.filterMap fun
    | .send s data result => some (s, data, result)
    | _ => none

@[simp] theorem transmissions_append (es es' : List Event) :
    transmissions (es ++ es') = transmissions es ++ transmissions es' :=
  List.filterMap_append

/-- The call returns, so no iterator left the vector; it sends the whole data to
each client of the list once, in order; and the clients left are those whose send
did not fail. -/
structure ServesEveryClient (data : Bytes) (sends : Nat → Int) (w : World) : Prop where
  returns : (exec (broadcastData data sends) w).1 = .ok (data.length : Int)
  sent : ∃ es, (exec (broadcastData data sends) w).2.trace = w.trace ++ es ∧
    transmissions es = w.server.clients.zipIdx.map fun p => (p.1.sock, data, sends p.2)
  kept : (exec (broadcastData data sends) w).2.server.clients =
    (w.server.clients.zipIdx.filter fun p => sends p.2 ≠ SOCKET_ERROR).map Prod.fst

/-- **A loop that ends makes one send fewer for each client its iterator steps
over**: never more sends than clients, and as many only without a failure. -/
theorem broadcastDataLoop_sends (data : Bytes) (sends : Nat → Int) (n : Nat)
    (before after : List Client) (w : World)
    (hok : (exec (broadcastDataLoop data sends n before after) w).1 = .ok ()) :
    ∃ es, (exec (broadcastDataLoop data sends n before after) w).2.trace = w.trace ++ es ∧
      (transmissions es).length ≤ after.length ∧
      ((transmissions es).length = after.length →
        ∀ i, n ≤ i → i < n + after.length → sends i ≠ SOCKET_ERROR) := by
  induction n, before, after using broadcastDataLoop.induct generalizing w with
  | case1 n before =>
      refine ⟨[], by simp [broadcastDataLoop], Nat.le_refl 0, fun _ i hlow hhigh => ?_⟩
      rw [List.length_nil] at hhigh
      omega
  | case2 n before it after ihskip ih =>
      unfold broadcastDataLoop at hok ⊢
      rw [exec_bind_ok (exec_sendTCPData it data (sends n) w)] at hok ⊢
      by_cases hfailed : sends n = SOCKET_ERROR
      · rw [if_pos hfailed, exec_bind_ok (exec_log _ _), exec_bind_ok (exec_modify _ _)] at hok ⊢
        cases after with
        | nil => cases hok
        | cons next after =>
            obtain ⟨es, htrace, hle, -⟩ := ihskip _ hok
            refine ⟨.send it.sock data (sends n) :: .erase it.sock :: es, ?_, ?_, ?_⟩
            · rw [htrace]
              simp
            · simp only [transmissions, List.filterMap_cons, List.length_cons] at hle ⊢
              omega
            · intro hlength
              simp only [transmissions, List.filterMap_cons, List.length_cons] at hle hlength
              omega
      · rw [if_neg hfailed] at hok ⊢
        obtain ⟨es, htrace, hle, hfull⟩ := ih _ hok
        refine ⟨.send it.sock data (sends n) :: es, ?_, ?_, fun hlength i hlow hhigh => ?_⟩
        · rw [htrace]
          simp
        · simp only [transmissions, List.filterMap_cons, List.length_cons] at hle ⊢
          omega
        · simp only [transmissions, List.filterMap_cons, List.length_cons] at hfull hlength hhigh
          rcases Nat.eq_or_lt_of_le hlow with rfl | hlater
          · exact hfailed
          · exact hfull (by omega) i hlater (by omega)

/-- The call returns exactly when its loop ends. -/
theorem broadcastData_returns {data : Bytes} {sends : Nat → Int} {w : World} {r : Int}
    (h : (exec (broadcastData data sends) w).1 = .ok r) :
    (exec (broadcastDataLoop data sends 0 [] w.server.clients)
      (w.record [.broadcast data])).1 = .ok () := by
  rw [broadcastData, exec_bind_ok (exec_log _ w), exec_bind_ok (exec_get _), exec_bind] at h
  rcases hloop : exec (broadcastDataLoop data sends 0 [] w.server.clients)
    (w.record [.broadcast data]) with ⟨halt | _, w'⟩
  · rw [World.record_server, hloop] at h
    cases h
  · rfl

/-- **Serving every client, exactly**: no send to a client of the list fails. -/
theorem servesEveryClient_iff (data : Bytes) (sends : Nat → Int) (w : World) :
    ServesEveryClient data sends w ↔
      ∀ i < w.server.clients.length, sends i ≠ SOCKET_ERROR := by
  constructor
  · rintro ⟨hreturns, ⟨es, htrace, hsent⟩, -⟩
    obtain ⟨es', htrace', -, hfull⟩ :=
      broadcastDataLoop_sends data sends 0 [] _ _ (broadcastData_returns hreturns)
    rw [exec_broadcastData] at htrace
    rw [htrace, World.record_trace, List.append_assoc] at htrace'
    have hes := List.append_cancel_left htrace'
    have hlength := congrArg List.length hsent
    rw [hes, transmissions_append, List.length_map, List.length_zipIdx] at hlength
    exact fun i hi => hfull hlength i (Nat.zero_le i) (by omega)
  · intro hsends
    have hcall := exec_broadcastData_lossless data hsends
    refine ⟨by rw [hcall], ⟨_, by rw [hcall, World.record_record, World.record_trace], ?_⟩, ?_⟩
    · unfold transmissions
      simp [List.filterMap_map]
    · rw [hcall]
      have hall : (w.server.clients.zipIdx.filter fun p => sends p.2 ≠ SOCKET_ERROR) =
          w.server.clients.zipIdx := by
        rw [List.filter_eq_self]
        intro p hp
        obtain ⟨-, hi, -⟩ := List.mem_zipIdx hp
        simpa using hsends p.2 (by omega)
      rw [hall, List.zipIdx_map_fst]
      rfl

/-- The first of two clients is broken: the second is not sent the data.  And the
iterator leaves the vector behind a broken last client. -/
theorem not_servesEveryClient_samples :
    ¬ ServesEveryClient (lit "a : 1\n") (fun n => if n = 0 then SOCKET_ERROR else 6)
        (serverAfter [acceptCall 7, acceptCall 8]) ∧
      ¬ ServesEveryClient (lit "a : 1\n") (fun _ => SOCKET_ERROR) (serverAfter [acceptCall 7]) := by
  constructor
  · rintro ⟨-, ⟨es, htrace, hsent⟩, -⟩
    have hmade : (exec (broadcastData (lit "a : 1\n") fun n => if n = 0 then SOCKET_ERROR else 6)
        (serverAfter [acceptCall 7, acceptCall 8])).2.trace =
          (serverAfter [acceptCall 7, acceptCall 8]).trace ++
            [.broadcast (lit "a : 1\n"), .send 7 (lit "a : 1\n") SOCKET_ERROR, .erase 7] := rfl
    rw [hmade] at htrace
    rw [← List.append_cancel_left htrace] at hsent
    cases hsent
  · rintro ⟨hreturns, -, -⟩
    have hfault : (exec (broadcastData (lit "a : 1\n") fun _ => SOCKET_ERROR)
        (serverAfter [acceptCall 7])).1 = .error (.ub .iterator) := rfl
    rw [hfault] at hreturns
    cases hreturns

end XplaneServer.Networking
