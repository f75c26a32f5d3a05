import Zaza.CallLife
import Zaza.WsServer

/-!
Which connection of a user a message goes to.

The registry is kept by user, and the close callbacks are run by sessions. A
session that is registered has run no close callback and is the latest of its
user; what is not registered, though, may well be open: the callback of any
session of a user takes the user's entry, whichever session it names. So messages
reach the latest open session of every user exactly as long as a session that runs
a close callback is the only open one of its user.
-/
namespace Zaza.Registry
open Zaza CallLife

abbrev Step := Transition Backend BackendInput (List (Nat × Json))

/-- The session that runs its close callback on the input, if one does. -/
def closeEvent (b : Backend) : BackendInput → Option Nat
  | .readFails k =>
    if b.ws.accepted[k]?.any (fun s => s.phase = .closed ∧ s.reading) then some k else none
  | .writeFails k =>
    if b.ws.accepted[k]?.any (fun s => s.phase = .closed ∧ 0 < s.writes) then some k else none
  | _ => none

/-- The session has run a close callback. -/
def HasClosed (ts : List Step) (k : Nat) : Prop :=
  ∃ t ∈ ts, closeEvent t.before t.input = some k

/-- The users of the sessions, in the order of `accept`. -/
def users (ws : WsServer) : List Bytes := ws.accepted.map WsSession.userId

/-- The session is one of the user, and has not closed. -/
def Open (ts : List Step) (ws : WsServer) (u : Bytes) (k : Nat) : Prop :=
  (users ws)[k]? = some u ∧ ¬ HasClosed ts k

/-- The session is the one of those most recently accepted. -/
def Latest (ts : List Step) (ws : WsServer) (u : Bytes) (k : Nat) : Prop :=
  Open ts ws u k ∧ ∀ j, Open ts ws u j → j ≤ k

/-- A message to a user is handed to the latest open session, and to none only when
there is none. -/
def LiveReached (ts : List Step) (ws : WsServer) : Prop :=
  ∀ u, (∀ k, Latest ts ws u k → ws.send u =
      (some k, ws.modify k fun session => { session with writes := session.writes + 1 })) ∧
    ((ws.send u).1 = none → ∀ k, ¬ Open ts ws u k)

/-- A session that runs a close callback is the only open one of its user. -/
def ClosesLast (earlier : List Step) (t : Step) : Prop :=
  ∀ k u, closeEvent t.before t.input = some k → (users t.before.ws)[k]? = some u →
    ∀ j, Open earlier t.before.ws u j → j = k

/-! ## One step -/

/-- What a step does to the registry: nothing, or it enters a session, or a session that
closes takes the entry of its user. -/
inductive Effect (ws ws' : WsServer) : Option Nat → Prop where
  | quiet : users ws' = users ws → ws'.sessions = ws.sessions → Effect ws ws' none
  | enters (u : Bytes) : users ws' = users ws ++ [u] →
      ws'.sessions = ws.sessions.insert u (users ws).length → Effect ws ws' none
  | closes (k : Nat) (u : Bytes) : (users ws)[k]? = some u → users ws' = users ws →
      ws'.sessions = ws.sessions.erase u → Effect ws ws' (some k)

variable {ws : WsServer} {b : Backend} {u : Bytes} {k : Nat}

theorem users_modify (ws : WsServer) (k : Nat) {f : WsSession → WsSession}
    (user : ∀ s, (f s).userId = s.userId) : users (ws.modify k f) = users ws := by
  apply List.ext_getElem?
  intro j
  simp only [users, WsServer.modify, List.getElem?_map, List.getElem?_modify]
  split
  · cases ws.accepted[j]? with
    | none => rfl
    | some s => exact congrArg some (user s)
  · simp

theorem sendAll_registry (sent : List Outgoing) (ws : WsServer) :
    users (ws.sendAll sent).2 = users ws ∧ (ws.sendAll sent).2.sessions = ws.sessions := by
  induction sent generalizing ws with
  | nil => exact ⟨rfl, rfl⟩
  | cons out rest ih =>
    simp only [WsServer.sendAll, WsServer.send]
    cases ws.sessions.lookup out.userId with
    | none => exact ih ws
    | some k =>
      obtain ⟨sameUsers, sameSessions⟩ := ih (ws.modify k _)
      exact ⟨sameUsers.trans (users_modify ws k fun _ => rfl), sameSessions⟩

theorem answer_effect (b : Backend) (result : CallManager × List Outgoing) :
    Effect b.ws (b.answer result).1.ws none := by
  obtain ⟨sameUsers, sameSessions⟩ := sendAll_registry result.2 b.ws
  exact .quiet sameUsers sameSessions

theorem accept_effect (verifyToken : Bytes → Option Bytes) (target : Bytes) (ws : WsServer) :
    Effect ws (ws.accept verifyToken target) none := by
  unfold WsServer.accept
  simp only
  split
  · exact .quiet rfl rfl
  · cases verifyToken (WsServer.extractToken target) with
    | none => exact .quiet rfl rfl
    | some userId => exact .enters userId (by simp [users]) (by simp [users])

/-- Something that happens to a session without closing it. -/
theorem onSession_effect {enabled : WsSession → Bool}
    {act : WsSession → Backend × List (Nat × Json)}
    (acts : ∀ s, Effect b.ws (act s).1.ws none) :
    Effect b.ws (b.onSession k enabled act).1.ws none := by
  unfold Backend.onSession
  cases b.ws.accepted[k]? with
  | none => exact .quiet rfl rfl
  | some s =>
    simp only
    split
    · exact acts s
    · exact .quiet rfl rfl

/-- Something that closes the session it happens to. -/
theorem onSession_closes {enabled : WsSession → Bool} {f : WsSession → WsSession}
    (user : ∀ s, (f s).userId = s.userId) :
    Effect b.ws (b.onSession k enabled fun s =>
        b.setWs ((b.ws.modify k f).removeSession s.userId)).1.ws
      (if b.ws.accepted[k]?.any enabled then some k else none) := by
  unfold Backend.onSession
  cases found : b.ws.accepted[k]? with
  | none => exact .quiet rfl rfl
  | some s =>
    simp only [Option.any_some]
    split
    · exact .closes k s.userId (by simp [users, found]) (users_modify b.ws k user) rfl
    · exact .quiet rfl rfl

/-- **What one step does to the registry.** -/
theorem step_effect (cfg : RouterConfig) (b : Backend) (input : BackendInput) :
    Effect b.ws (b.step cfg input).1.ws (closeEvent b input) := by
  cases input with
  | accept verifyToken target => exact accept_effect verifyToken target b.ws
  | handshake k => exact onSession_effect fun _ => .quiet (users_modify b.ws k fun _ => rfl) rfl
  | message k raw env => exact onSession_effect fun s => answer_effect b _
  | close k => exact onSession_effect fun _ => .quiet (users_modify b.ws k fun _ => rfl) rfl
  | readFails k => exact onSession_closes fun _ => rfl
  | writeDone k => exact onSession_effect fun _ => .quiet (users_modify b.ws k fun _ => rfl) rfl
  | writeFails k => exact onSession_closes fun _ => rfl
  | checkExpired env => exact answer_effect b _

/-! ## Every run -/

variable {ts : List Step} {t : Step} {cfg : RouterConfig} {ringTimeout : Int}

theorem hasClosed_snoc : HasClosed (ts ++ [t]) k ↔
    HasClosed ts k ∨ closeEvent t.before t.input = some k := by
  simp [HasClosed, or_and_right, exists_or]

/-- What holds of the registry in every run: only sessions there have been close, and a
registered session is an open one of its user, and the latest. -/
structure Sound (ts : List Step) (ws : WsServer) : Prop where
  closed : ∀ k, HasClosed ts k → k < (users ws).length
  registered : ∀ u k, ws.sessions.lookup u = some k →
    Open ts ws u k ∧ ∀ j, (users ws)[j]? = some u → j ≤ k

/-- Who is not registered has no open session. -/
def NoneMissed (ts : List Step) (ws : WsServer) : Prop :=
  ∀ u, ws.sessions.lookup u = none → ∀ k, ¬ Open ts ws u k

/-- What is registered is right, so only what is not registered can be wrong. -/
theorem Sound.liveReached_iff (sound : Sound ts ws) : LiveReached ts ws ↔ NoneMissed ts ws := by
  constructor
  · intro reached u missing
    apply (reached u).2
    simp [WsServer.send, missing]
  · intro noneMissed u
    cases entry : ws.sessions.lookup u with
    | none =>
      have nobody := noneMissed u entry
      exact ⟨fun k latest => absurd latest.1 (nobody k), fun _ => nobody⟩
    | some k =>
      obtain ⟨isOpen, newest⟩ := sound.registered u k entry
      refine ⟨fun j latest => ?_, ?_⟩
      · obtain rfl : j = k := Nat.le_antisymm (newest j latest.1.1) (latest.2 k isOpen)
        simp [WsServer.send, entry]
      · simp [WsServer.send, entry]

/-- A session that enters has not closed. -/
theorem Sound.fresh (sound : Sound ts ws) : ¬ HasClosed ts (users ws).length :=
  fun closed => absurd (sound.closed _ closed) (Nat.lt_irrefl _)

theorem sound_init : Sound [] (backendMachine cfg ringTimeout).init.ws where
  closed := by simp [HasClosed]
  registered := by simp [backendMachine]

/-- The sessions open after a step that closes none. -/
theorem open_snoc (quiet : closeEvent t.before t.input = none) :
    Open (ts ++ [t]) ws u k ↔ Open ts ws u k := by
  simp [Open, hasClosed_snoc, quiet]

/-- The sessions open after one has closed. -/
theorem open_snoc_closed {j : Nat} (closes : closeEvent t.before t.input = some k) :
    Open (ts ++ [t]) ws u j ↔ Open ts ws u j ∧ j ≠ k := by
  simp only [Open, hasClosed_snoc, closes, Option.some.injEq, not_or, ne_eq, and_assoc,
    eq_comm (a := k)]

theorem open_congr {ws' : WsServer} (same : users ws' = users ws) :
    Open ts ws' u k ↔ Open ts ws u k := by
  simp [Open, same]

/-- The sessions open when one has entered. -/
theorem Sound.open_enters (sound : Sound ts ws) {ws' : WsServer} {v : Bytes}
    (enters : users ws' = users ws ++ [v]) :
    Open ts ws' u k ↔ Open ts ws u k ∨ v = u ∧ k = (users ws).length := by
  simp only [Open, enters, List.getElem?_append]
  split
  · rename_i old
    simp [old.ne]
  · rename_i new
    rcases Nat.eq_or_lt_of_le (Nat.le_of_not_lt new) with rfl | later
    · simp [sound.fresh]
    · obtain ⟨d, past⟩ := Nat.exists_eq_add_of_lt later
      simp [past, Nat.add_assoc]

/-- **One step keeps the registry sound.** -/
theorem Sound.preserved (sound : Sound ts t.before.ws)
    (effect : Effect t.before.ws t.after.ws (closeEvent t.before t.input)) :
    Sound (ts ++ [t]) t.after.ws := by
  generalize event : closeEvent t.before t.input = closing at effect
  cases effect with
  | quiet sameUsers sameSessions =>
    constructor
    · intro k closed
      rw [sameUsers]
      exact sound.closed k (by simpa [hasClosed_snoc, event] using closed)
    · intro u k entry
      rw [open_snoc event, open_congr sameUsers, sameUsers]
      exact sound.registered u k (sameSessions ▸ entry)
  | enters v newUsers newSessions =>
    constructor
    · intro k closed
      have before := sound.closed k (by simpa [hasClosed_snoc, event] using closed)
      rw [newUsers, List.length_append]
      omega
    · intro u k entry
      rw [open_snoc event, sound.open_enters newUsers, newUsers]
      rw [newSessions] at entry
      by_cases mine : u = v
      · subst mine
        obtain rfl : (users t.before.ws).length = k := by simpa using entry
        refine ⟨.inr ⟨rfl, rfl⟩, fun j found => ?_⟩
        have inside := (List.getElem?_eq_some_iff.mp found).1
        simp only [List.length_append, List.length_singleton] at inside
        omega
      · rw [AList.lookup_insert_ne mine] at entry
        obtain ⟨isOpen, newest⟩ := sound.registered u k entry
        refine ⟨.inl isOpen, fun j found => newest j ?_⟩
        rw [List.getElem?_append] at found
        split at found
        · exact found
        · simp [List.getElem?_singleton, Ne.symm mine] at found
  | closes k v mine sameUsers newSessions =>
    constructor
    · intro j closed
      rw [sameUsers]
      rcases hasClosed_snoc.mp closed with before | now
      · exact sound.closed j before
      · obtain rfl := Option.some.inj (event.symm.trans now)
        exact (List.getElem?_eq_some_iff.mp mine).1
    · intro u j entry
      rw [open_snoc_closed event, open_congr sameUsers, sameUsers]
      rw [newSessions] at entry
      by_cases other : u = v
      · subst other
        simp at entry
      · rw [AList.lookup_erase_ne other] at entry
        obtain ⟨isOpen, newest⟩ := sound.registered u j entry
        refine ⟨⟨isOpen, ?_⟩, newest⟩
        rintro rfl
        exact other (Option.some.inj (isOpen.1.symm.trans mine))

/-- **One step misses nobody** exactly if what it closes is the last of its user. -/
theorem Sound.noneMissed_iff (sound : Sound ts t.before.ws)
    (noneMissed : NoneMissed ts t.before.ws)
    (effect : Effect t.before.ws t.after.ws (closeEvent t.before t.input)) :
    NoneMissed (ts ++ [t]) t.after.ws ↔ ClosesLast ts t := by
  unfold ClosesLast
  generalize event : closeEvent t.before t.input = closing at effect
  cases effect with
  | quiet sameUsers sameSessions =>
    have kept : NoneMissed (ts ++ [t]) t.after.ws := by
      intro u missing k
      rw [open_snoc event, open_congr sameUsers]
      exact noneMissed u (sameSessions ▸ missing) k
    simp [kept]
  | enters v newUsers newSessions =>
    have kept : NoneMissed (ts ++ [t]) t.after.ws := by
      intro u missing k
      rw [newSessions] at missing
      have other : u ≠ v := by
        rintro rfl
        simp at missing
      rw [AList.lookup_insert_ne other] at missing
      rw [open_snoc event, sound.open_enters newUsers]
      rintro (isOpen | ⟨rfl, -⟩)
      · exact noneMissed u missing k isOpen
      · exact other rfl
    simp [kept]
  | closes k v mine sameUsers newSessions =>
    constructor
    · intro noneMissed k' u closing found j isOpen
      obtain rfl := Option.some.inj closing
      obtain rfl := Option.some.inj (mine.symm.trans found)
      have closed := noneMissed v (by simp [newSessions]) j
      rw [open_snoc_closed event, open_congr sameUsers] at closed
      exact Decidable.not_not.mp fun other => closed ⟨isOpen, other⟩
    · intro last u missing j
      rw [open_snoc_closed event, open_congr sameUsers]
      rintro ⟨isOpen, other⟩
      by_cases its : u = v
      · subst its
        exact other (last k u rfl mine j isOpen)
      · rw [newSessions, AList.lookup_erase_ne its] at missing
        exact noneMissed u missing j isOpen

/-- The step is the one of the machine. -/
theorem takes_effect (taken : (backendMachine cfg ringTimeout).Takes t) :
    Effect t.before.ws t.after.ws (closeEvent t.before t.input) := by
  have after : (t.before.step cfg t.input).1 = t.after := congrArg Prod.fst (Except.ok.inj taken)
  rw [← after]
  exact step_effect cfg t.before t.input

theorem sound_of_run (run : Run (backendMachine cfg ringTimeout) ts b) : Sound ts b.ws :=
  run.invariant_with_history (fun ts b => Sound ts b.ws) sound_init
    fun _ _ sound taken => sound.preserved (takes_effect taken)

/-- **An open connection stays reachable**: along a run of the backend a message to a
user is always handed to the latest open session, and to none only when there is none,
exactly if every session that runs a close callback is the only open one of its user. -/
theorem live_reached_iff (run : Run (backendMachine cfg ringTimeout) ts b) :
    (∀ earlier b', earlier <+: ts → Run (backendMachine cfg ringTimeout) earlier b' →
        LiveReached earlier b'.ws) ↔
      ∀ earlier t, earlier ++ [t] <+: ts → ClosesLast earlier t := by
  refine run.always_iff (fun ts b => LiveReached ts b.ws) ClosesLast ?_ ?_
  · rw [sound_init.liveReached_iff]
    intro u _ k isOpen
    simp [Open, users, backendMachine] at isOpen
  · intro earlier t run taken reached
    have sound := sound_of_run run
    have effect := takes_effect taken
    rw [(sound.preserved effect).liveReached_iff]
    exact sound.noneMissed_iff (sound.liveReached_iff.mp reached) effect

/-- Alice connects. -/
def connects : BackendInput := .accept some (ascii "/ws?token=alice")

/-- Alice's connection ends, and she connects again when it has been cleared away. -/
theorem live_reached_iff_reconnects : ∃ ts b, Run (backendMachine deployed 30) ts b ∧
    (∃ t ∈ ts, (closeEvent t.before t.input).isSome) ∧
    ∀ earlier b', earlier <+: ts → Run (backendMachine deployed 30) earlier b' →
      LiveReached earlier b'.ws := by
  obtain ⟨ts, b, run, check⟩ := Run.of_exec (backendMachine deployed 30)
    [connects, .handshake 0, .close 0, .readFails 0, connects, .handshake 1]
    (fun ts _ => (∃ t ∈ ts, (closeEvent t.before t.input).isSome) ∧
      ∀ t ∈ ts, ∀ k ∈ closeEvent t.before t.input, (users t.before.ws).length = 1)
    (by decide +kernel)
  obtain ⟨closes, alone⟩ := of_decide_eq_true check
  refine ⟨ts, b, run, closes, (live_reached_iff run).mpr ?_⟩
  intro earlier t inside k u event mine j isOpen
  have member : t ∈ ts := inside.subset (by simp)
  have one := alone t member k event
  have first := (List.getElem?_eq_some_iff.mp mine).1
  have second := (List.getElem?_eq_some_iff.mp isOpen.1).1
  omega

/-- Alice connects again before the read of the connection that ended has failed; when
it does, it takes the new connection's entry. -/
theorem late_close_takes_new_session : ¬ ∀ cfg ringTimeout ts b,
    Run (backendMachine cfg ringTimeout) ts b → LiveReached ts b.ws := by
  intro all
  obtain ⟨ts, b, run, check⟩ := Run.of_exec (backendMachine deployed 30)
    [connects, .handshake 0, .close 0, connects, .handshake 1, .readFails 0]
    (fun ts b => (b.ws.send (ascii "alice")).1 = none ∧ (users b.ws)[1]? = some (ascii "alice") ∧
      ∀ t ∈ ts, closeEvent t.before t.input ≠ some 1) (by decide +kernel)
  obtain ⟨unsent, second, stays⟩ := of_decide_eq_true check
  refine (all deployed 30 ts b run (ascii "alice")).2 unsent 1 ⟨second, ?_⟩
  rintro ⟨t, member, closes⟩
  exact stays t member closes

end Zaza.Registry
