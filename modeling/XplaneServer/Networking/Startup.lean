/-
  Networking/Startup.lean --- what the answer of `initServer` is worth.

  The first three exits return `_isValid`, which the constructors leave
  uninitialized and no failure resets; the next two return 1, which is true.
  The exits of a call are one case distinction (`initServer_exit`).  From it
  follow the calls that are answered truthfully, and then the sequences in which
  every call is (`initServer_truthful_iff`).
-/
import XplaneServer.Main

set_option autoImplicit false

namespace XplaneServer.Networking

open Foundation

/-- The calls of `initServer` all succeed. -/
def InitEnv.Succeeds (env : InitEnv) : Prop :=
  env.startup = 0 ∧ env.socket ≠ none ∧ env.bind = 0 ∧ env.listen ≠ SOCKET_ERROR ∧
    env.ioctlsocket ≠ SOCKET_ERROR

/-- The exits of `initServer`: what it returns, and the world it leaves. -/
inductive InitExit (env : InitEnv) (w : World) : Except Halt Bool × World → Prop
  /-- No socket is created, and `_isValid` is returned as it is. -/
  | noSocket {w' : World} : env.startup ≠ 0 ∨ env.socket = none →
      w'.server.isValid = w.server.isValid → InitExit env w (.ok w.server.isValid, w')
  /-- The socket is not bound, and stays open. -/
  | unbound {s : SOCKET} {w' : World} {es : List Event} : env.startup = 0 → env.socket = some s →
      env.bind ≠ 0 → w'.server.isValid = w.server.isValid → w'.trace = w.trace ++ es →
      .closesocket s ∉ es → InitExit env w (.ok w.server.isValid, w')
  /-- A later call fails: the answer is true, or the text for the log is read
  outside its literal. -/
  | failed {result : Except Halt Bool} {w' : World} : env.startup = 0 → env.socket ≠ none →
      env.listen = SOCKET_ERROR ∨ env.ioctlsocket = SOCKET_ERROR → result ≠ .ok false →
      w'.server.isValid = w.server.isValid → InitExit env w (result, w')
  /-- Everything succeeds. -/
  | succeeded {w' : World} : env.Succeeds → w'.server.isValid = true →
      InitExit env w (.ok true, w')

/-- **Everything `initServer` does to its answer.** -/
theorem initServer_exit (env : InitEnv) (w : World) :
    InitExit env w (exec (initServer env) w) := by
  unfold initServer
  by_cases hstartup : env.startup ≠ 0
  · rw [if_pos hstartup, exec_bind_ok (exec_get w)]
    exact .noSocket (Or.inl hstartup) rfl
  rw [if_neg hstartup, exec_bind_ok (exec_modify _ w)]
  cases hsocket : env.socket with
  | none => exact .noSocket (Or.inr hsocket) rfl
  | some s =>
      have hstarted : env.startup = 0 := not_not.mp hstartup
      have hcreated : env.socket ≠ none := by simp [hsocket]
      simp only
      rw [exec_bind_ok (exec_get _), exec_bind_ok (exec_log _ _)]
      by_cases hbind : env.bind ≠ 0
      · rw [if_pos hbind]
        exact .unbound hstarted hsocket hbind rfl rfl (by simp)
      rw [if_neg hbind, exec_bind_ok (exec_log _ _)]
      by_cases hlisten : env.listen = SOCKET_ERROR
      · rw [if_pos hlisten]
        exact .failed hstarted hcreated (Or.inl hlisten) nofun rfl
      rw [if_neg hlisten, exec_bind_ok (exec_log _ _)]
      by_cases hioctl : env.ioctlsocket = SOCKET_ERROR
      · rw [if_pos hioctl]
        split
        · exact .failed hstarted hcreated (Or.inr hioctl) nofun rfl
        · exact .failed hstarted hcreated (Or.inr hioctl) nofun rfl
      · rw [if_neg hioctl]
        exact .succeeded ⟨hstarted, hcreated, not_not.mp hbind, hlisten, hioctl⟩ rfl

/-! ## One call -/

/-- The call returns true exactly when everything succeeded, `_isValid` is then
what it returned, and a failure closes the socket the call created. -/
structure AnswersTruly (env : InitEnv) (w : World) : Prop where
  answer : ∃ b, (exec (initServer env) w).1 = .ok b ∧ (b = true ↔ env.Succeeds) ∧
    (exec (initServer env) w).2.server.isValid = b
  closed : ¬ env.Succeeds → ∀ s, env.startup = 0 → env.socket = some s →
    ∃ es, (exec (initServer env) w).2.trace = w.trace ++ es ∧ .closesocket s ∈ es

/-- **A call that is answered truthfully, exactly**: everything succeeds, or no
socket is created and `_isValid` was false before. -/
theorem answersTruly_iff (env : InitEnv) (w : World) :
    AnswersTruly env w ↔
      env.Succeeds ∨ (env.startup ≠ 0 ∨ env.socket = none) ∧ w.server.isValid = false := by
  have hexit := initServer_exit env w
  rcases hexec : exec (initServer env) w with ⟨result, w'⟩
  rw [hexec] at hexit
  cases hexit with
  | noSocket hnone hkept =>
      have hfails : ¬ env.Succeeds := fun h => hnone.elim (· h.1) h.2.1
      simp only [hfails, hnone, false_or, true_and]
      constructor
      · rintro ⟨⟨b, hb, htrue, -⟩, -⟩
        rw [hexec] at hb
        rw [Except.ok.inj hb]
        exact Bool.eq_false_iff.mpr fun h => hfails (htrue.mp h)
      · intro hinvalid
        refine ⟨⟨false, ?_, by simp [hfails], ?_⟩, fun _ s hstarted hs => ?_⟩
        · rw [hexec, hinvalid]
        · rw [hexec, hkept, hinvalid]
        · simp [hstarted, hs] at hnone
  | @unbound s _ es hstarted hsocket hbind hkept htrace hopen =>
      have hfails : ¬ env.Succeeds := fun h => hbind h.2.2.1
      simp only [hfails, hstarted, hsocket, ne_eq, not_true, reduceCtorEq, or_self, false_and,
        iff_false]
      intro h
      obtain ⟨es', htrace', hclosed⟩ := h.closed hfails s hstarted hsocket
      rw [hexec, htrace] at htrace'
      exact hopen (List.append_cancel_left htrace' ▸ hclosed)
  | failed hstarted hcreated hfailed hanswer hkept =>
      have hfails : ¬ env.Succeeds := fun h => hfailed.elim h.2.2.2.1 h.2.2.2.2
      simp only [hfails, hstarted, hcreated, ne_eq, not_true, or_self, false_and, iff_false]
      rintro ⟨⟨b, hb, htrue, -⟩, -⟩
      rw [hexec] at hb
      cases b with
      | false => exact hanswer hb
      | true => exact hfails (htrue.mp rfl)
  | succeeded hsucceeds hvalid =>
      refine iff_of_true ⟨⟨true, ?_, by simp [hsucceeds], ?_⟩, fun h => absurd hsucceeds h⟩
        (Or.inl hsucceeds)
      · rw [hexec]
      · rw [hexec, hvalid]

/-! ## Sequences of calls -/

/-- The operations before the callbacks are bound. -/
inductive StartOp where
  | setBindAddress (port : UInt16) (bindAddress : Bytes)
  | initServer (env : InitEnv)

/-- Carry out an operation. -/
def StartOp.run : StartOp → Plugin Unit
  | .setBindAddress port bindAddress => Networking.setBindAddress port bindAddress
  | .initServer env => do let _ ← Networking.initServer env

/-- The world after some operations. -/
def afterOps (ops : List StartOp) (w : World) : World :=
  ops.foldl (fun w op => (exec op.run w).2) w

/-- A server one of the constructors made, with this byte left in `_isValid`. -/
def Constructed (uninitialized : Bool) (server : TCPServer) : Prop :=
  server = TCPServer.default uninitialized ∨
    ∃ port bindAddress, server = TCPServer.ofAddress port bindAddress uninitialized

/-- A call sets `_isValid` when everything succeeds, and never clears it. -/
theorem initServer_isValid (env : InitEnv) (w : World) :
    (exec (initServer env) w).2.server.isValid = true ↔
      env.Succeeds ∨ w.server.isValid = true := by
  have hexit := initServer_exit env w
  rcases hexec : exec (initServer env) w with ⟨result, w'⟩
  rw [hexec] at hexit
  cases hexit with
  | noSocket hnone hkept =>
      have hfails : ¬ env.Succeeds := fun h => hnone.elim (· h.1) h.2.1
      simp [hkept, hfails]
  | unbound _ _ hbind hkept _ _ =>
      have hfails : ¬ env.Succeeds := fun h => hbind h.2.2.1
      simp [hkept, hfails]
  | failed _ _ hfailed _ hkept =>
      have hfails : ¬ env.Succeeds := fun h => hfailed.elim h.2.2.2.1 h.2.2.2.2
      simp [hkept, hfails]
  | succeeded hsucceeds hvalid => simp [hvalid, hsucceeds]

/-- **`_isValid` over a sequence**: it was true at the start, or some call
succeeded. -/
theorem afterOps_isValid (ops : List StartOp) (w : World) :
    (afterOps ops w).server.isValid = true ↔
      w.server.isValid = true ∨ ∃ env, .initServer env ∈ ops ∧ env.Succeeds := by
  induction ops generalizing w with
  | nil => simp [afterOps]
  | cons op ops ih =>
      have hstep : afterOps (op :: ops) w = afterOps ops (exec op.run w).2 := rfl
      rw [hstep, ih]
      cases op with
      | setBindAddress port bindAddress => simp [StartOp.run, setBindAddress]
      | initServer env =>
          rw [StartOp.run, exec_bind_pure_snd, initServer_isValid]
          simp only [List.mem_cons, StartOp.initServer.injEq]
          constructor
          · rintro ((hsucceeds | hvalid) | ⟨env', hmem, hsucceeds⟩)
            · exact Or.inr ⟨env, Or.inl rfl, hsucceeds⟩
            · exact Or.inl hvalid
            · exact Or.inr ⟨env', Or.inr hmem, hsucceeds⟩
          · rintro (hvalid | ⟨env', rfl | hmem, hsucceeds⟩)
            · exact Or.inl (Or.inr hvalid)
            · exact Or.inl (Or.inl hsucceeds)
            · exact Or.inr ⟨env', hmem, hsucceeds⟩

/-- **Truthful answers, exactly.**  In a sequence of calls on a constructed
server all answers are truthful exactly when each call succeeds, or creates no
socket while `_isValid` was left false and no earlier call has succeeded. -/
theorem initServer_truthful_iff {uninitialized : Bool} {w : World}
    (hmade : Constructed uninitialized w.server) (ops : List StartOp) :
    (∀ before env after, ops = before ++ .initServer env :: after →
      AnswersTruly env (afterOps before w)) ↔
    ∀ before env after, ops = before ++ .initServer env :: after →
      env.Succeeds ∨ (env.startup ≠ 0 ∨ env.socket = none) ∧ uninitialized = false ∧
        ∀ env', .initServer env' ∈ before → ¬ env'.Succeeds := by
  have hvalid : w.server.isValid = uninitialized := by
    rcases hmade with h | ⟨port, bindAddress, h⟩ <;> rw [h] <;> rfl
  have hinvalid : ∀ before, (afterOps before w).server.isValid = false ↔
      uninitialized = false ∧ ∀ env', .initServer env' ∈ before → ¬ env'.Succeeds := by
    intro before
    rw [← Bool.not_eq_true, afterOps_isValid, hvalid, not_or, Bool.not_eq_true]
    simp
  refine forall_congr' fun before => forall_congr' fun env => forall_congr' fun after => ?_
  rw [answersTruly_iff, hinvalid]

/-- A start in which everything succeeds. -/
def goodStart : InitEnv := ⟨0, some 3, 0, 0, 0, 0⟩

/-- The first start of a server of the default constructor. -/
theorem initServer_truthful_iff_goodStart : AnswersTruly goodStart World.initial := by
  have hmade : Constructed false World.initial.server := Or.inl rfl
  apply (initServer_truthful_iff hmade [.initServer goodStart]).mpr _ [] goodStart [] rfl
  intro before env after hsplit
  cases before with
  | nil =>
      cases hsplit
      exact Or.inl ⟨rfl, by simp [goodStart], rfl, by decide, by decide⟩
  | cons op before => simp at hsplit

/-- A failed `bind` leaves its socket open, a failed `listen` and a failed
`ioctlsocket` are answered with true, and a failed `WSAStartup` with what the
constructor left in memory, or with the success before it. -/
theorem not_answersTruly_samples :
    ¬ AnswersTruly { goodStart with bind := SOCKET_ERROR } World.initial ∧
      ¬ AnswersTruly { goodStart with listen := SOCKET_ERROR } World.initial ∧
      ¬ AnswersTruly { goodStart with ioctlsocket := SOCKET_ERROR } World.initial ∧
      ¬ AnswersTruly { goodStart with startup := 10091 }
        { World.initial with server := TCPServer.default true } ∧
      ¬ AnswersTruly { goodStart with startup := 10091 }
        (afterOps [.initServer goodStart] World.initial) := by
  simp only [answersTruly_iff, InitEnv.Succeeds, goodStart, TCPServer.default]
  decide

end XplaneServer.Networking
