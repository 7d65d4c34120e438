/-
  Networking/UDPConnection.lean --- `UDPConnection`, from
  src/Networking/UDPConnection.cpp.

  A connection sends datagrams and keeps a log of what it does, in a file to which
  every connection appends.  The file can be read back, and tells which datagrams
  were passed to `sendto`, unless a datagram has a newline (`readLog_of_run`); it does
  not tell which of them were sent.  The answer of `initServer` is that of all the
  calls so far (`initServer_of_run`).

  What depends on `_DEBUG` is a parameter `debug`.  Its copy of the log on the standard
  output is left out.
-/
import XplaneServer.Readback

set_option autoImplicit false

namespace XplaneServer.Networking

open Foundation

/-- The members of `std::tm` that the log prints. -/
structure Tm where
  tmYear : Int
  tmMon : Int
  tmMday : Int
  tmHour : Int
  tmMin : Int
  tmSec : Int
  deriving DecidableEq, Repr

/-- `sockaddr_in` -/
structure SockaddrIn where
  addr : UInt32
  port : UInt16
  deriving DecidableEq, Repr

/-- The data members of `class UDPConnection` that its functions use.  A socket
that is not open is `none`. -/
structure UDPConnection where
  serverSocket : Option SOCKET
  port : UInt16
  ip : Bytes
  isValid : Bool

namespace UDPConnection

/-- The calls of the operating system. -/
inductive Event where
  | bind (sock : SOCKET) (ip : Bytes) (port : UInt16) (result : Int)
  | sendto (sock : Option SOCKET) (target : SockaddrIn) (data : Bytes) (result : Int)

/-- A connection, the characters in the file `./UDP_LOG.log`, and the calls that were
made. -/
structure State where
  connection : UDPConnection
  logFile : Bytes
  trace : List Event

/-- A function of the class. -/
abbrev Program (α : Type) : Type := Exec State Empty α

/-- The time, and whether the file could be opened and written. -/
structure LogEnv where
  now : Tm
  opened : Bool

/-- The time as the log prints it: the month is the number of months since
January. -/
def timeText (now : Tm) : Bytes :=
  toStringInt (now.tmYear + 1900) ++ lit "/" ++ toStringInt now.tmMon ++ lit "/" ++
    toStringInt now.tmMday ++ lit " " ++ toStringInt now.tmHour ++ lit ":" ++
    toStringInt now.tmMin ++ lit ":" ++ toStringInt now.tmSec

/-- `UDPConnection::log`.  A line is lost when the file cannot be opened or written. -/
def log (env : LogEnv) (dataIn : Bytes) : Program Unit := do
  let logString := timeText env.now ++ lit " : " ++ dataIn ++ lit "\n"
  if env.opened then
    modify fun w => { w with logFile := w.logFile ++ logString }

/-- `UDPConnection::UDPConnection`, beside a file that may be there already. -/
def ofAddress (port : UInt16) (bindAddress logFile : Bytes) : State :=
  { connection := { serverSocket := none, port, ip := bindAddress, isValid := false }
    logFile, trace := [] }

/-- What the calls of `initServer` return. -/
structure InitEnv where
  startup : Int
  socket : Option SOCKET
  bind : Int
  /-- `WSAGetLastError()` after a failed call -/
  lastError : Int
  /-- for the line after `WSAStartup` of a debug build -/
  startupLog : LogEnv
  /-- for the line after `socket` of a debug build -/
  socketLog : LogEnv
  /-- for the last line -/
  log : LogEnv

/-- `UDPConnection::initServer`.  It binds to the loopback address, and not to the
one that the constructor was given. -/
def initServer (debug : Bool) (env : InitEnv) : Program Bool := do
  if env.startup ≠ 0 then
    log env.log
      (lit "UDPConnection WSA Startup Failed with error : " ++ toStringInt env.startup)
    return (← get).connection.isValid
  if debug then
    log env.startupLog (lit "WSA Startup Sucessfull !")
  modify fun w => { w with connection := { w.connection with serverSocket := env.socket } }
  match env.socket with
  | none =>
      log env.log (lit "socket creation failed with error" ++ toStringInt env.lastError)
      return (← get).connection.isValid
  | some s =>
      if debug then
        log env.socketLog (lit "socket creation Sucessfull !")
      let port := (← get).connection.port
      modify fun w => { w with trace := w.trace ++ [.bind s (lit "127.0.0.1") port env.bind] }
      if env.bind ≠ 0 then
        log env.log (lit "bind failed with error: " ++ toStringInt env.lastError)
        return (← get).connection.isValid
      log env.log
        (lit "UDP Connection initalization sucessful on " ++ toStringInt port.toNat)
      modify fun w => { w with connection := { w.connection with isValid := true } }
      return true

/-- `UDPConnection::sendData`.  The log is the same whatever `sendto` returned. -/
def sendData (target : SockaddrIn) (data : Bytes) (result : Int) (env : LogEnv) :
    Program Int := do
  let sock := (← get).connection.serverSocket
  modify fun w => { w with trace := w.trace ++ [.sendto sock target data result] }
  log env (lit "Sending " ++ data)
  return result

/-! ## Calls -/

/-- A call of a connection, with the answers from outside. -/
inductive Call where
  | initServer (env : InitEnv)
  | sendData (target : SockaddrIn) (data : Bytes) (result : Int) (env : LogEnv)

/-- Make a call. -/
def Call.run (debug : Bool) : Call → Program Unit
  | .initServer env => do let _ ← UDPConnection.initServer debug env
  | .sendData target data result env => do
      let _ ← UDPConnection.sendData target data result env

/-- One step of a run of calls. -/
def Step (debug : Bool) (w : State) (c : Call) (w' : State) : Prop :=
  (exec (c.run debug) w).2 = w'

/-- The call is an `initServer` in which everything succeeds. -/
def Call.succeeds : Call → Bool
  | .initServer env => env.startup = 0 && env.socket.isSome && env.bind = 0
  | .sendData .. => false

/-- The socket a call leaves the connection with, if it opens one. -/
def Call.socket : Call → Option (Option SOCKET)
  | .initServer env => if env.startup = 0 then some env.socket else none
  | .sendData .. => none

/-- What a call logs, line by line, with the circumstances of each. -/
def Call.messages (debug : Bool) (port : UInt16) : Call → List (LogEnv × Bytes)
  | .initServer env =>
      if env.startup ≠ 0 then
        [(env.log,
          lit "UDPConnection WSA Startup Failed with error : " ++ toStringInt env.startup)]
      else
        (if debug then [(env.startupLog, lit "WSA Startup Sucessfull !")] else []) ++
          if env.socket = none then
            [(env.log, lit "socket creation failed with error" ++ toStringInt env.lastError)]
          else
            (if debug then [(env.socketLog, lit "socket creation Sucessfull !")] else []) ++
              if env.bind ≠ 0 then
                [(env.log, lit "bind failed with error: " ++ toStringInt env.lastError)]
              else
                [(env.log,
                  lit "UDP Connection initalization sucessful on " ++ toStringInt port.toNat)]
  | .sendData _ data _ env => [(env, lit "Sending " ++ data)]

/-- The entry of a line in the log, if the file could be opened. -/
def entry (line : LogEnv × Bytes) : Option (Tm × Bytes) :=
  if line.1.opened then some (line.1.now, line.2) else none

/-- The entries of a call. -/
def Call.entries (debug : Bool) (port : UInt16) (c : Call) : List (Tm × Bytes) :=
  (c.messages debug port).filterMap entry

/-- The text of entries. -/
def logText (entries : List (Tm × Bytes)) : Bytes :=
  entries.flatMap fun e => timeText e.1 ++ lineEnding e.2

/-- The datagrams that were passed to `sendto`. -/
def attempted (trace : List Event) : List Bytes :=
  trace.filterMap fun
    | .sendto _ _ data _ => some data
    | .bind .. => none

/-- Those of them for which it did not fail. -/
def sent (trace : List Event) : List Bytes :=
  trace.filterMap fun
    | .sendto _ _ data result => if result = SOCKET_ERROR then none else some data
    | .bind .. => none

/-- The datagram a call passes to `sendto`. -/
def Call.datagram : Call → Option Bytes
  | .sendData _ data _ _ => some data
  | .initServer _ => none

/-! ## What a call does -/

/-- What `log` does to the file. -/
theorem exec_log (env : LogEnv) (dataIn : Bytes) (w : State) :
    exec (log env dataIn) w =
      (.ok (), { w with logFile := w.logFile ++ logText (entry (env, dataIn)).toList }) := by
  unfold log entry
  cases env.opened with
  | false => simp [logText]
  | true => simp [logText, lineEnding]

@[simp] theorem logText_nil : logText [] = [] := rfl

/-- The log of a line, and of those after it. -/
theorem logText_cons (line : LogEnv × Bytes) (lines : List (LogEnv × Bytes)) :
    logText ((line :: lines).filterMap entry) =
      logText (entry line).toList ++ logText (lines.filterMap entry) := by
  rw [List.filterMap_cons]
  cases entry line <;> simp [logText]

/-- **Everything a call does**: it opens a socket or not, it makes the connection
valid or not, it logs its lines, and it passes a datagram to `sendto` or none. -/
theorem exec_run (debug : Bool) (c : Call) (w : State) :
    (exec (c.run debug) w).2.connection =
        { w.connection with
          serverSocket := c.socket.getD w.connection.serverSocket
          isValid := w.connection.isValid || c.succeeds } ∧
      (exec (c.run debug) w).2.logFile =
        w.logFile ++ logText (c.entries debug w.connection.port) ∧
      attempted (exec (c.run debug) w).2.trace = attempted w.trace ++ c.datagram.toList := by
  cases c with
  | initServer env =>
      rw [Call.run, exec_bind_pure_snd]
      unfold initServer
      by_cases hstartup : env.startup = 0
      · cases hsocket : env.socket with
        | none =>
            cases debug <;>
              simp [exec_bind, exec_log, exec_map, hstartup, hsocket, Call.socket,
                Call.succeeds, Call.entries, Call.messages, Call.datagram, logText_cons]
        | some s =>
            by_cases hbind : env.bind = 0 <;> cases debug <;>
              simp [exec_bind, exec_log, exec_map, hstartup, hsocket, hbind, Call.socket,
                Call.succeeds, Call.entries, Call.messages, Call.datagram, logText_cons,
                attempted]
      · simp [exec_bind, exec_log, exec_map, hstartup, Call.socket, Call.succeeds,
          Call.entries, Call.messages, Call.datagram, logText_cons]
  | sendData target data result env =>
      rw [Call.run, exec_bind_pure_snd]
      unfold sendData
      simp [exec_bind, exec_log, exec_map, Call.socket, Call.succeeds, Call.entries,
        Call.messages, Call.datagram, logText_cons, attempted]

/-- The answer of `initServer` is that of `_isValid`. -/
theorem exec_initServer (debug : Bool) (env : InitEnv) (w : State) :
    (exec (initServer debug env) w).1 =
      .ok (w.connection.isValid || (Call.initServer env).succeeds) := by
  unfold initServer
  by_cases hstartup : env.startup = 0
  · cases hsocket : env.socket with
    | none =>
        cases debug <;>
          simp [exec_bind, exec_log, exec_map, Except.map, hstartup, hsocket, Call.succeeds]
    | some s =>
        by_cases hbind : env.bind = 0 <;> cases debug <;>
          simp [exec_bind, exec_log, exec_map, Except.map, hstartup, hsocket, hbind,
            Call.succeeds]
  · simp [exec_bind, exec_log, exec_map, Except.map, hstartup, Call.succeeds]

/-- What was sent was passed to `sendto`, and is all that was exactly when no `sendto`
failed. -/
theorem sent_sublist (trace : List Event) :
    (sent trace).Sublist (attempted trace) ∧
      (sent trace = attempted trace ↔
        ∀ sock target data, Event.sendto sock target data SOCKET_ERROR ∉ trace) := by
  induction trace with
  | nil => simp [sent, attempted]
  | cons e trace ih =>
      obtain ⟨hsublist, hall⟩ := ih
      cases e with
      | bind sock ip port result =>
          have hsent : sent (.bind sock ip port result :: trace) = sent trace := rfl
          have hattempted : attempted (.bind sock ip port result :: trace) = attempted trace :=
            rfl
          rw [hsent, hattempted, hall]
          exact ⟨hsublist, by simp⟩
      | sendto sock target data result =>
          have hattempted : attempted (.sendto sock target data result :: trace) =
              data :: attempted trace := rfl
          rw [hattempted]
          by_cases hfailed : result = SOCKET_ERROR
          · subst hfailed
            have hsent : sent (.sendto sock target data SOCKET_ERROR :: trace) = sent trace := by
              simp [sent]
            rw [hsent]
            refine ⟨hsublist.cons data, fun heq => ?_, fun hnone => ?_⟩
            · have hle := hsublist.length_le
              rw [heq, List.length_cons] at hle
              omega
            · exact absurd List.mem_cons_self (hnone sock target data)
          · have hsent : sent (.sendto sock target data result :: trace) = data :: sent trace := by
              simp [sent, hfailed]
            rw [hsent]
            refine ⟨hsublist.cons_cons data, ?_⟩
            rw [List.cons_inj_right, hall]
            simp [Ne.symm hfailed]

/-! ## The times of the log -/

/-- A byte of a printed integer separates nothing. -/
theorem not_mem_toStringInt {b : UInt8} (hb : b = 47 ∨ b = 32 ∨ b = 58) (i : Int) :
    b ∉ toStringInt i := by
  intro h
  rcases mem_toStringInt h with rfl | ⟨hlow, hhigh⟩
  · revert hb
    decide
  · rcases hb with rfl | rfl | rfl <;> revert hlow hhigh <;> decide

/-- Two texts that are split at the same separator. -/
theorem split_inj {b : UInt8} {l l' r r' : Bytes} (hl : b ∉ l) (hl' : b ∉ l')
    (h : l ++ b :: r = l' ++ b :: r') : l = l' ∧ r = r' := by
  obtain ⟨rfl, -⟩ := append_cons_inj h hl (Or.inl hl')
  exact ⟨rfl, by simpa using h⟩

/-- The fields of a time, and what separates them. -/
theorem timeText_eq (now : Tm) :
    timeText now = toStringInt (now.tmYear + 1900) ++ 47 :: (toStringInt now.tmMon ++ 47 ::
      (toStringInt now.tmMday ++ 32 :: (toStringInt now.tmHour ++ 58 ::
        (toStringInt now.tmMin ++ 58 :: toStringInt now.tmSec)))) := by
  have hslash : lit "/" = [47] := by decide
  have hspace : lit " " = [32] := by decide
  have hcolon : lit ":" = [58] := by decide
  simp [timeText, hslash, hspace, hcolon]

/-- **Different times are printed differently.** -/
theorem timeText_injective : Function.Injective timeText := by
  intro now now' h
  rw [timeText_eq, timeText_eq] at h
  have hslash := fun i => not_mem_toStringInt (Or.inl rfl : (47 : UInt8) = 47 ∨ _) i
  have hspace := fun i => not_mem_toStringInt (Or.inr (Or.inl rfl) : (32 : UInt8) = 47 ∨ _) i
  have hcolon := fun i => not_mem_toStringInt (Or.inr (Or.inr rfl) : (58 : UInt8) = 47 ∨ _) i
  obtain ⟨hyear, h⟩ := split_inj (hslash _) (hslash _) h
  obtain ⟨hmon, h⟩ := split_inj (hslash _) (hslash _) h
  obtain ⟨hmday, h⟩ := split_inj (hspace _) (hspace _) h
  obtain ⟨hhour, h⟩ := split_inj (hcolon _) (hcolon _) h
  obtain ⟨hmin, hsec⟩ := split_inj (hcolon _) (hcolon _) h
  have hyear' := toStringInt_injective hyear
  obtain ⟨year, mon, mday, hour, min, sec⟩ := now
  obtain ⟨year', mon', mday', hour', min', sec'⟩ := now'
  simp only [Tm.mk.injEq]
  refine ⟨?_, toStringInt_injective hmon, toStringInt_injective hmday,
    toStringInt_injective hhour, toStringInt_injective hmin, toStringInt_injective hsec⟩
  simpa using hyear'

/-! ## Reading the log -/

/-- The lines of a log: the printed time, and what was logged. -/
def readLog (text : Bytes) : Option (List (Bytes × Bytes)) :=
  readAll (lineEnd fun _ => true) text

/-- An entry as it is printed. -/
def printed (e : Tm × Bytes) : Bytes × Bytes := (timeText e.1, e.2)

/-- The datagram a line of the log is about. -/
def datagramOf (line : Bytes × Bytes) : Option Bytes :=
  if (lit "Sending ").isPrefixOf line.2 then some (line.2.drop (lit "Sending ").length) else none

/-- A time contains no start of the end of a line: its only space is before the
hour. -/
theorem not_infix_timeText (now : Tm) : ¬ [32, 58] <:+: timeText now := by
  rintro ⟨s, t, h⟩
  have hspace := fun i => not_mem_toStringInt (Or.inr (Or.inl rfl) : (32 : UInt8) = 47 ∨ _) i
  have hcolon := fun i => not_mem_toStringInt (Or.inr (Or.inr rfl) : (58 : UInt8) = 47 ∨ _) i
  have hdate : timeText now = (toStringInt (now.tmYear + 1900) ++ 47 ::
      (toStringInt now.tmMon ++ 47 :: toStringInt now.tmMday)) ++
        32 :: (toStringInt now.tmHour ++ 58 :: (toStringInt now.tmMin ++ 58 ::
          toStringInt now.tmSec)) := by
    rw [timeText_eq]
    simp
  rw [hdate, List.append_assoc] at h
  have hbefore : (32 : UInt8) ∉ toStringInt (now.tmYear + 1900) ++ 47 ::
      (toStringInt now.tmMon ++ 47 :: toStringInt now.tmMday) := by
    simp [hspace]
  have hafter : (32 : UInt8) ∉ toStringInt now.tmHour ++ 58 :: (toStringInt now.tmMin ++ 58 ::
      toStringInt now.tmSec) := by
    simp [hspace]
  obtain ⟨rfl, -⟩ := append_cons_inj h.symm hbefore (Or.inr hafter)
  have hclock : 58 :: t = toStringInt now.tmHour ++ 58 :: (toStringInt now.tmMin ++ 58 ::
      toStringInt now.tmSec) := by
    simpa using h
  rcases List.cons_eq_append_iff.mp hclock with ⟨hnil, -⟩ | ⟨rest, hhour, -⟩
  · exact toStringInt_ne_nil _ hnil
  · exact hcolon now.tmHour (hhour ▸ List.mem_cons_self)

/-- A line is read as it was written. -/
theorem quiet_timeText (now : Tm) (message : Bytes) :
    Quiet (lineEnd fun _ => true) lineEnding (timeText now) message := by
  rintro u rest hu hsuffix
  by_contra hfound
  obtain ⟨⟨value, rest'⟩, hfound⟩ := Option.ne_none_iff_exists'.mp hfound
  obtain ⟨-, -, htext⟩ := lineEnd_sound hfound
  rw [lineEnding_eq, lineEnding_eq] at htext
  rcases u with _ | ⟨b, _ | ⟨b', u⟩⟩
  · exact hu rfl
  · simp at htext
  · simp only [List.cons_append, List.cons.injEq] at htext
    obtain ⟨rfl, rfl, -⟩ := htext
    have hinfix : [32, 58] <:+: timeText now := by
      obtain ⟨before, hbefore⟩ := hsuffix
      exact ⟨before, u, by simp [← hbefore]⟩
    exact not_infix_timeText now hinfix

/-- Entries without a newline are read back. -/
theorem readLog_logText {entries : List (Tm × Bytes)} (h : ∀ e ∈ entries, (10 : UInt8) ∉ e.2) :
    readLog (logText entries) = some (entries.map printed) := by
  have htext : logText entries =
      (entries.map printed).flatMap fun p => p.1 ++ lineEnding p.2 := by
    rw [List.flatMap_map]
    rfl
  rw [readLog, htext]
  apply readAll_text
  intro p hp
  obtain ⟨e, he, rfl⟩ := List.mem_map.mp hp
  refine ⟨by simp [lineEnding_eq], lineEnd_lineEnding rfl (h e he), ?_⟩
  exact quiet_timeText e.1 e.2

/-- The texts with which the lines of `initServer` begin. -/
def initTexts : List Bytes :=
  [lit "UDPConnection WSA Startup Failed with error : ", lit "WSA Startup Sucessfull !",
    lit "socket creation failed with error", lit "socket creation Sucessfull !",
    lit "bind failed with error: ", lit "UDP Connection initalization sucessful on "]

/-- What `initServer` logs: a text, with a number or without. -/
theorem messages_initServer {debug : Bool} {port : UInt16} {env : InitEnv}
    {line : LogEnv × Bytes} (hline : line ∈ (Call.initServer env).messages debug port) :
    ∃ text ∈ initTexts, line.2 = text ∨ ∃ i, line.2 = text ++ toStringInt i := by
  simp only [Call.messages] at hline
  split at hline
  · rw [List.mem_singleton.mp hline]
    exact ⟨_, by simp [initTexts], Or.inr ⟨_, rfl⟩⟩
  · rcases List.mem_append.mp hline with hdebug | hline
    · split at hdebug
      · rw [List.mem_singleton.mp hdebug]
        exact ⟨_, by simp [initTexts], Or.inl rfl⟩
      · cases hdebug
    · split at hline
      · rw [List.mem_singleton.mp hline]
        exact ⟨_, by simp [initTexts], Or.inr ⟨_, rfl⟩⟩
      · rcases List.mem_append.mp hline with hdebug | hline
        · split at hdebug
          · rw [List.mem_singleton.mp hdebug]
            exact ⟨_, by simp [initTexts], Or.inl rfl⟩
          · cases hdebug
        · split at hline <;> rw [List.mem_singleton.mp hline]
          · exact ⟨_, by simp [initTexts], Or.inr ⟨_, rfl⟩⟩
          · exact ⟨_, by simp [initTexts], Or.inr ⟨_, rfl⟩⟩

/-- Only datagrams bring a newline into the log. -/
theorem not_mem_messages {debug : Bool} {port : UInt16} {c : Call} {line : LogEnv × Bytes}
    (hline : line ∈ c.messages debug port)
    (h : ∀ data, c.datagram = some data → (10 : UInt8) ∉ data) : (10 : UInt8) ∉ line.2 := by
  cases c with
  | initServer env =>
      obtain ⟨text, htext, hmessage⟩ := messages_initServer hline
      have hplain : (10 : UInt8) ∉ text := by
        clear hmessage
        revert text
        decide
      rcases hmessage with hmessage | ⟨i, hmessage⟩
      · rwa [hmessage]
      · rw [hmessage, List.mem_append, not_or]
        refine ⟨hplain, fun hmem => ?_⟩
        rcases mem_toStringInt hmem with hminus | ⟨hlow, -⟩
        · revert hminus
          decide
        · revert hlow
          decide
  | sendData target data result env =>
      have hsending : (10 : UInt8) ∉ lit "Sending " := by decide
      rw [List.mem_singleton.mp hline]
      simp [hsending, h data rfl]

/-- No line of `initServer` is about a datagram. -/
theorem datagramOf_initText {text rest : Bytes} (htext : text ∈ initTexts) (now : Tm) :
    datagramOf (printed (now, text ++ rest)) = none := by
  simp only [initTexts, List.mem_cons, List.not_mem_nil, or_false] at htext
  rcases htext with rfl | rfl | rfl | rfl | rfl | rfl <;> rfl

/-- The datagram of a call is that of its lines, where the file can be opened. -/
theorem datagramOf_entries {debug : Bool} {port : UInt16} {c : Call}
    (hopened : ∀ line ∈ c.messages debug port, line.1.opened = true) :
    ((c.entries debug port).map printed).filterMap datagramOf = c.datagram.toList := by
  cases c with
  | initServer env =>
      apply List.filterMap_eq_nil_iff.mpr
      intro p hp
      obtain ⟨e, he, rfl⟩ := List.mem_map.mp hp
      obtain ⟨line, hline, hentry⟩ := List.mem_filterMap.mp he
      rw [entry, if_pos (hopened line hline)] at hentry
      cases hentry
      obtain ⟨text, htext, hmessage | ⟨i, hmessage⟩⟩ := messages_initServer hline
      · rw [hmessage, ← List.append_nil text]
        exact datagramOf_initText htext _
      · rw [hmessage]
        exact datagramOf_initText htext _
  | sendData target data result env =>
      have hopen : env.opened = true := hopened (env, lit "Sending " ++ data) (by
        simp [Call.messages])
      have hprefix : (lit "Sending ").isPrefixOf (lit "Sending " ++ data) = true := by
        rw [List.isPrefixOf_iff_prefix]
        exact List.prefix_append _ _
      simp [Call.entries, Call.messages, entry, hopen, datagramOf, printed, hprefix,
        Call.datagram]

/-- The datagrams of calls are those of their lines. -/
theorem datagramOf_calls {debug : Bool} {port : UInt16} {calls : List Call}
    (hopened : ∀ c ∈ calls, ∀ line ∈ c.messages debug port, line.1.opened = true) :
    ((calls.flatMap (Call.entries debug port)).map printed).filterMap datagramOf =
      calls.filterMap Call.datagram := by
  induction calls with
  | nil => rfl
  | cons c calls ih =>
      have hrest := ih fun c' hc' => hopened c' (List.mem_cons_of_mem c hc')
      have hfirst := datagramOf_entries (hopened c List.mem_cons_self)
      rw [List.flatMap_cons, List.map_append, List.filterMap_append, hfirst, hrest]
      cases hdatagram : c.datagram <;> simp [hdatagram]

/-! ## Runs -/

/-- **Everything a run does.** -/
theorem run_effect {debug : Bool} {w w' : State} {calls : List Call}
    (hrun : Run (Step debug) w calls w') :
    w'.connection =
        { w.connection with
          serverSocket :=
            (calls.filterMap Call.socket).getLast?.getD w.connection.serverSocket
          isValid := w.connection.isValid || calls.any Call.succeeds } ∧
      w'.logFile = w.logFile ++ logText (calls.flatMap (Call.entries debug w.connection.port)) ∧
      attempted w'.trace = attempted w.trace ++ calls.filterMap Call.datagram := by
  induction hrun with
  | nil => simp [logText]
  | @snoc v u calls c hbefore hlast ih =>
      obtain ⟨hconnection, hfile, hattempted⟩ := ih
      obtain ⟨hconnection', hfile', hattempted'⟩ := exec_run debug c v
      rw [hlast] at hconnection' hfile' hattempted'
      refine ⟨?_, ?_, ?_⟩
      · rw [hconnection', hconnection]
        cases hsocket : c.socket <;>
          simp [hsocket, Bool.or_assoc]
      · rw [hfile', hfile, hconnection]
        simp [logText]
      · rw [hattempted', hattempted]
        cases hdatagram : c.datagram <;> simp [hdatagram]

/-- **The log tells what was tried.**  After any calls on a connection, beside a log
that was there already, the file is read back as the old entries and an entry for each
line of a call for which it could be opened, unless a datagram has a newline; the times
of the entries are determined; if it could always be opened, the datagrams in it are
those that were passed to `sendto`; and what was sent is a part of these, and all of
them exactly when no `sendto` failed, of which the log tells nothing. -/
theorem readLog_of_run {debug : Bool} {port : UInt16} {ip : Bytes} {old : List (Tm × Bytes)}
    (hold : ∀ e ∈ old, (10 : UInt8) ∉ e.2) {calls : List Call} {w : State}
    (hrun : Run (Step debug) (ofAddress port ip (logText old)) calls w)
    (hdata : ∀ data ∈ calls.filterMap Call.datagram, (10 : UInt8) ∉ data) :
    readLog w.logFile =
        some ((old ++ calls.flatMap (Call.entries debug port)).map printed) ∧
      (∀ entries : List (Tm × Bytes), readLog w.logFile = some (entries.map printed) →
        entries = old ++ calls.flatMap (Call.entries debug port)) ∧
      ((∀ c ∈ calls, ∀ line ∈ c.messages debug port, line.1.opened = true) →
        ∀ lines, readLog w.logFile = some lines →
          (lines.drop old.length).filterMap datagramOf = attempted w.trace) ∧
      (sent w.trace).Sublist (attempted w.trace) ∧
      (sent w.trace = attempted w.trace ↔
        ∀ sock target data, Event.sendto sock target data SOCKET_ERROR ∉ w.trace) := by
  obtain ⟨-, hfile, hattempted⟩ := run_effect hrun
  have hentries : ∀ e ∈ old ++ calls.flatMap (Call.entries debug port), (10 : UInt8) ∉ e.2 := by
    intro e he
    rcases List.mem_append.mp he with he | he
    · exact hold e he
    · obtain ⟨c, hc, he⟩ := List.mem_flatMap.mp he
      obtain ⟨line, hline, hentry⟩ := List.mem_filterMap.mp he
      have hmessage := not_mem_messages hline fun data hdatagram =>
        hdata data (List.mem_filterMap.mpr ⟨c, hc, hdatagram⟩)
      unfold entry at hentry
      split at hentry
      · cases hentry
        exact hmessage
      · cases hentry
  have hread : readLog w.logFile =
      some ((old ++ calls.flatMap (Call.entries debug port)).map printed) := by
    rw [← readLog_logText hentries, hfile]
    simp [logText, ofAddress]
  have hprinted : Function.Injective printed := fun e e' h =>
    Prod.ext (timeText_injective (Prod.mk.inj h).1) (Prod.mk.inj h).2
  refine ⟨hread, fun entries h => ?_, fun hopened lines hlines => ?_, sent_sublist w.trace⟩
  · rw [hread] at h
    exact (List.map_injective_iff.mpr hprinted (Option.some.inj h)).symm
  · rw [hread] at hlines
    obtain rfl := Option.some.inj hlines
    have hnone : attempted (ofAddress port ip (logText old)).trace = [] := rfl
    rw [hattempted, hnone, List.nil_append, List.map_append,
      List.drop_left' (List.length_map _)]
    exact datagramOf_calls hopened

/-- A connection of a debug build that is set up and fails to send a datagram, in a log
with an entry. -/
theorem readLog_of_run_sample :
    ∃ w, Run (Step true) (ofAddress 49000 (lit "0.0.0.0")
          (logText [(⟨124, 11, 31, 9, 5, 0⟩, lit "Sending x")]))
        [.initServer ⟨0, some 3, 0, 0, ⟨⟨125, 0, 1, 11, 59, 59⟩, true⟩,
            ⟨⟨125, 0, 1, 12, 0, 0⟩, false⟩, ⟨⟨125, 0, 1, 12, 0, 0⟩, true⟩⟩,
          .sendData ⟨0x0100007F, 5000⟩ (lit "a : 1") (-1) ⟨⟨125, 0, 1, 12, 0, 1⟩, true⟩] w ∧
      readLog w.logFile = some
        [(lit "2024/11/31 9:5:0", lit "Sending x"),
          (lit "2025/0/1 11:59:59", lit "WSA Startup Sucessfull !"),
          (lit "2025/0/1 12:0:0", lit "UDP Connection initalization sucessful on 49000"),
          (lit "2025/0/1 12:0:1", lit "Sending a : 1")] := by
  have hrun := ((Run.nil (ofAddress 49000 (lit "0.0.0.0")
    (logText [(⟨124, 11, 31, 9, 5, 0⟩, lit "Sending x")]))).snoc
      (show Step true _ (.initServer ⟨0, some 3, 0, 0, ⟨⟨125, 0, 1, 11, 59, 59⟩, true⟩,
        ⟨⟨125, 0, 1, 12, 0, 0⟩, false⟩, ⟨⟨125, 0, 1, 12, 0, 0⟩, true⟩⟩) _ from rfl)).snoc
      (show Step true _ (.sendData ⟨0x0100007F, 5000⟩ (lit "a : 1") (-1)
        ⟨⟨125, 0, 1, 12, 0, 1⟩, true⟩) _ from rfl)
  refine ⟨_, hrun, ?_⟩
  rw [(readLog_of_run (by decide) hrun (by decide)).1]
  decide

/-- **The answer of `initServer`** is whether it or an earlier call on the connection
succeeded, and not whether it did; the socket is the one of the last call that asked
for one. -/
theorem initServer_of_run {debug : Bool} {port : UInt16} {ip file : Bytes} {calls : List Call}
    {w : State} (hrun : Run (Step debug) (ofAddress port ip file) calls w) :
    (w.connection.isValid = true ↔ ∃ c ∈ calls, c.succeeds = true) ∧
      w.connection.serverSocket = (calls.filterMap Call.socket).getLast?.getD none ∧
      ∀ env, (exec (initServer debug env) w).1 =
        .ok ((calls ++ [Call.initServer env]).any Call.succeeds) := by
  obtain ⟨hconnection, -, -⟩ := run_effect hrun
  refine ⟨?_, by rw [hconnection]; rfl, fun env => ?_⟩
  · rw [hconnection]
    simp [ofAddress]
  · rw [exec_initServer, hconnection]
    simp [ofAddress]

/-- Two calls, of which the second fails and answers true, without a socket. -/
theorem initServer_of_run_sample :
    (exec (initServer false ⟨0, none, 0, 10024, ⟨⟨125, 0, 1, 12, 0, 5⟩, true⟩,
        ⟨⟨125, 0, 1, 12, 0, 5⟩, true⟩, ⟨⟨125, 0, 1, 12, 0, 5⟩, true⟩⟩)
      (exec (Call.run false (.initServer ⟨0, some 3, 0, 0, ⟨⟨125, 0, 1, 12, 0, 0⟩, true⟩,
          ⟨⟨125, 0, 1, 12, 0, 0⟩, true⟩, ⟨⟨125, 0, 1, 12, 0, 0⟩, true⟩⟩))
        (ofAddress 49000 (lit "0.0.0.0") [])).2).1 = .ok true :=
  (initServer_of_run ((Run.nil _).snoc rfl)).2.2 _

end UDPConnection

end XplaneServer.Networking
