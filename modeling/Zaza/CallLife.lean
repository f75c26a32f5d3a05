import Zaza.CallInvariant
import Zaza.Router

/-!
The life of each call, over every run of the router.

A request for a call is an operation of the call manager (`operation`), and what
the router sends is what the operation's reply is announced with (`handle_cases`).
So the events of a call are read off the operations, and each event has its
messages (`announce`). `Life` lists the courses a call can take; that every call
of every run takes one of them, and that all and only its events are announced,
is `calls_live_once`.
-/
namespace Zaza.CallLife
open Zaza CallManager CallInvariant

/-- The operation a message asks for, if it has what the operation needs. -/
def operation (userId : Bytes) (raw : Option Json) : Option CallOp := do
  let msg ← raw
  let type ← msg.stringMember "type"
  if type = ascii "call.create" then (msg.stringMember "to").map (.create userId)
  else if type = ascii "call.accept" then (msg.stringMember "callId").map (.accept · userId)
  else if type = ascii "call.reject" then (msg.stringMember "callId").map (.reject · userId)
  else if type = ascii "call.hangup" then (msg.stringMember "callId").map (.hangup · userId)
  else none

/-- A message of one of the types `call.*`. -/
def callRequest (raw : Option Json) : Prop :=
  ∃ msg, raw = some msg ∧ (msg.stringMember "type" = some (ascii "call.create") ∨
    msg.stringMember "type" = some (ascii "call.accept") ∨
    msg.stringMember "type" = some (ascii "call.reject") ∨
    msg.stringMember "type" = some (ascii "call.hangup"))

/-- The participant who hears that a user has hung up: the other one, or the user himself
in a call to oneself. -/
def counterpart (s : CallSession) (userId : Bytes) : Bytes :=
  if s.callerId = userId then s.calleeId else s.callerId

/-- A message of a type about a call, with what else it says. -/
def notice (type : String) (c : Bytes) (rest : List (Bytes × Json)) : Json :=
  .object ((ascii "type", .text type) :: (ascii "callId", .string c) :: rest)

/-- The configuration a participant gets: a TURN server with credentials for himself. -/
def configuration (cfg : RouterConfig) (wall : Int) (c userId : Bytes) : Json :=
  .object [(ascii "iceServers", .array [Routes.iceServer cfg.host cfg.turn wall userId]),
    (ascii "type", .text "rtc.config"), (ascii "callId", .string c)]

/-- The messages an event of a call is announced with. -/
def announce (cfg : RouterConfig) (env : BackendEnv) (c : Bytes) : CallEvent → List Outgoing
  | .created s =>
    [⟨s.callerId, notice "call.created" c []⟩,
      ⟨s.calleeId, notice "call.incoming" c [(ascii "from", .string s.callerId)]⟩]
  | .accepted s =>
    [⟨s.callerId, configuration cfg (env.wall 0) c s.callerId⟩,
      ⟨s.calleeId, configuration cfg (env.wall 1) c s.calleeId⟩]
  | .rejected s => [⟨s.callerId, notice "call.ended" c [(ascii "reason", .text "rejected")]⟩]
  | .hungUp s userId =>
    [⟨counterpart s userId, notice "call.ended" c [(ascii "reason", .text "hangup")]⟩]
  | .expired s =>
    [⟨s.callerId, notice "call.failed" c [(ascii "reason", .text "timeout")]⟩,
      ⟨s.calleeId, notice "call.failed" c [(ascii "reason", .text "timeout")]⟩]

/-- The message that says what is wrong with a request. -/
def failure (reason : Bytes) : Json :=
  .object [(ascii "type", .text "error"), (ascii "message", .string reason)]

/-- The call an operation is about, and its event there. -/
def eventOf (env : BackendEnv) : CallOp → CallReply → Option (Bytes × CallEvent)
  | .create callerId calleeId, .callId id =>
    some (id, .created ⟨id, callerId, calleeId, .ringing, env.now⟩)
  | .accept callId _, .session s => some (callId, .accepted s)
  | .reject callId _, .session s => some (callId, .rejected s)
  | .hangup callId userId, .session s => some (callId, .hungUp s userId)
  | _, _ => none

/-- What the router does with a message. -/
inductive Handled (cfg : RouterConfig) (env : BackendEnv) (m : CallManager) (userId : Bytes)
    (raw : Option Json) : CallManager × List Outgoing → Prop where
  | done (op : CallOp) (reply : CallReply) (c : Bytes) (event : CallEvent)
      (asked : operation userId raw = some op) (done : (m.call env op).1 = .ok reply)
      (named : eventOf env op reply = some (c, event)) :
      Handled cfg env m userId raw ((m.call env op).2, announce cfg env c event)
  | refused (op : CallOp) (e : Bytes) (asked : operation userId raw = some op)
      (failed : (m.call env op).1 = .error e) :
      Handled cfg env m userId raw (m, [⟨userId, failure (cString e)⟩])
  | error (reason : Bytes) (asked : operation userId raw = none) :
      Handled cfg env m userId raw (m, [⟨userId, failure reason⟩])
  | relay (msg : Json) (callId : Bytes) (s : CallSession) (asked : operation userId raw = none)
      (text : raw = some msg) (type : msg.stringMember "type" = some (ascii "webrtc.offer") ∨
        msg.stringMember "type" = some (ascii "webrtc.answer") ∨
        msg.stringMember "type" = some (ascii "webrtc.ice"))
      (named : msg.stringMember "callId" = some callId) (found : m.find callId = some s) :
      Handled cfg env m userId raw (m, [⟨counterpart s userId, msg⟩])

variable {cfg : RouterConfig} {env : BackendEnv} {m : CallManager} {userId : Bytes}

theorem Handled.of_ok {raw : Option Json} (asked : operation userId raw = some op)
    (result : m.call env op = (.ok reply, m')) (named : eventOf env op reply = some (c, event)) :
    Handled cfg env m userId raw (m', announce cfg env c event) := by
  have handled : Handled cfg env m userId raw _ :=
    .done op reply c event asked (congrArg Prod.fst result) named
  rwa [result] at handled

theorem Handled.of_error {raw : Option Json} (asked : operation userId raw = some op)
    (result : m.call env op = (.error e, m')) :
    Handled cfg env m userId raw (m', [⟨userId, failure (cString e)⟩]) := by
  have failed := congrArg Prod.fst result
  have same : m' = m := by
    rw [← call_error failed, result]
  rw [same]
  exact .refused op e asked failed

section Handlers
variable {msg : Json}

theorem onCallCreate_handled (type : msg.stringMember "type" = some (ascii "call.create")) :
    Handled cfg env m userId (some msg) (Router.onCallCreate env m userId msg) := by
  have asked : operation userId (some msg) = (msg.stringMember "to").map (.create userId) := by
    simp [operation, type]
  unfold Router.onCallCreate
  cases member : msg.stringMember "to" with
  | none => exact .error _ (by simp [asked, member])
  | some calleeId =>
    rw [member, Option.map_some] at asked
    have calls : m.call env (.create userId calleeId) =
        (m.create env userId calleeId).map (·.map .callId) id := rfl
    cases result : m.create env userId calleeId with
    | mk reply m' =>
      simp only [result] at calls ⊢
      cases reply with
      | error e => exact .of_error asked calls
      | ok id => exact .of_ok asked calls rfl

theorem onCallAccept_handled (type : msg.stringMember "type" = some (ascii "call.accept")) :
    Handled cfg env m userId (some msg) (Router.onCallAccept cfg env m userId msg) := by
  have asked : operation userId (some msg) =
      (msg.stringMember "callId").map (.accept · userId) := by
    simp [operation, type,
      show ascii "call.accept" ≠ ascii "call.create" by decide]
  unfold Router.onCallAccept
  cases member : msg.stringMember "callId" with
  | none => exact .error _ (by simp [asked, member])
  | some callId =>
    rw [member, Option.map_some] at asked
    have calls : m.call env (.accept callId userId) =
        (m.accept callId userId).map (·.map .session) id := rfl
    cases result : m.accept callId userId with
    | mk reply m' =>
      simp only [result] at calls ⊢
      cases reply with
      | error e => exact .of_error asked calls
      | ok s => exact .of_ok asked calls rfl

theorem onCallReject_handled (type : msg.stringMember "type" = some (ascii "call.reject")) :
    Handled cfg env m userId (some msg) (Router.onCallReject m userId msg) := by
  have asked : operation userId (some msg) =
      (msg.stringMember "callId").map (.reject · userId) := by
    simp [operation, type,
      show ascii "call.reject" ≠ ascii "call.create" by decide,
      show ascii "call.reject" ≠ ascii "call.accept" by decide]
  unfold Router.onCallReject
  cases member : msg.stringMember "callId" with
  | none => exact .error _ (by simp [asked, member])
  | some callId =>
    rw [member, Option.map_some] at asked
    have calls : m.call env (.reject callId userId) =
        (m.reject callId userId).map (·.map .session) id := rfl
    cases result : m.reject callId userId with
    | mk reply m' =>
      simp only [result] at calls ⊢
      cases reply with
      | error e => exact .of_error asked calls
      | ok s => exact .of_ok asked calls rfl

theorem onCallHangup_handled (type : msg.stringMember "type" = some (ascii "call.hangup")) :
    Handled cfg env m userId (some msg) (Router.onCallHangup m userId msg) := by
  have asked : operation userId (some msg) =
      (msg.stringMember "callId").map (.hangup · userId) := by
    simp [operation, type,
      show ascii "call.hangup" ≠ ascii "call.create" by decide,
      show ascii "call.hangup" ≠ ascii "call.accept" by decide,
      show ascii "call.hangup" ≠ ascii "call.reject" by decide]
  unfold Router.onCallHangup
  cases member : msg.stringMember "callId" with
  | none => exact .error _ (by simp [asked, member])
  | some callId =>
    rw [member, Option.map_some] at asked
    have calls : m.call env (.hangup callId userId) =
        (m.hangup callId userId).map (·.map .session) id := rfl
    cases result : m.hangup callId userId with
    | mk reply m' =>
      simp only [result] at calls ⊢
      cases reply with
      | error e => exact .of_error asked calls
      | ok s => exact .of_ok asked calls rfl

theorem onWebrtcRelay_handled (asked : operation userId (some msg) = none)
    (type : msg.stringMember "type" = some (ascii "webrtc.offer") ∨
      msg.stringMember "type" = some (ascii "webrtc.answer") ∨
      msg.stringMember "type" = some (ascii "webrtc.ice")) :
    Handled cfg env m userId (some msg) (m, Router.onWebrtcRelay m userId msg) := by
  unfold Router.onWebrtcRelay
  cases named : msg.stringMember "callId" with
  | none => exact .error _ asked
  | some callId =>
    simp only
    cases found : m.find callId with
    | none => exact .error _ asked
    | some s => exact .relay msg callId s asked rfl type named found

end Handlers

/-- **What the router does with a message.** -/
theorem handle_cases (cfg : RouterConfig) (env : BackendEnv) (m : CallManager) (userId : Bytes)
    (raw : Option Json) : Handled cfg env m userId raw (Router.handle cfg env m userId raw) := by
  cases raw with
  | none => exact .error _ rfl
  | some msg =>
    unfold Router.handle
    simp only
    cases type : msg.stringMember "type" with
    | none => exact .error _ (by simp [operation, type])
    | some type' =>
      simp only
      split
      · subst_vars
        exact onCallCreate_handled type
      · split
        · subst_vars
          exact onCallAccept_handled type
        · split
          · subst_vars
            exact onCallReject_handled type
          · split
            · subst_vars
              exact onCallHangup_handled type
            · rename_i notCreate notAccept notReject notHangup
              have asked : operation userId (some msg) = none := by
                simp [operation, type, notCreate, notAccept, notReject, notHangup]
              split
              · rename_i relayed
                exact onWebrtcRelay_handled asked (by rw [type]; simpa using relayed)
              · exact .error _ asked

/-- A request is announced or answered, as its operation succeeds or fails. -/
theorem handle_asked (cfg : RouterConfig) (env : BackendEnv) (m : CallManager)
    {raw : Option Json} (asked : operation userId raw = some op) :
    (∃ reply c event, (m.call env op).1 = .ok reply ∧ eventOf env op reply = some (c, event) ∧
      Router.handle cfg env m userId raw = ((m.call env op).2, announce cfg env c event)) ∨
    ∃ e, (m.call env op).1 = .error e ∧
      Router.handle cfg env m userId raw = (m, [⟨userId, failure (cString e)⟩]) := by
  have handled := handle_cases cfg env m userId raw
  generalize Router.handle cfg env m userId raw = sent at handled ⊢
  cases handled with
  | done op' reply c event asked' done named =>
    obtain rfl := Option.some.inj (asked.symm.trans asked')
    exact .inl ⟨reply, c, event, done, named, rfl⟩
  | refused op' e asked' failed =>
    obtain rfl := Option.some.inj (asked.symm.trans asked')
    exact .inr ⟨e, failed, rfl⟩
  | error reason asked' =>
    rw [asked] at asked'
    cases asked'
  | relay msg callId s asked' =>
    rw [asked] at asked'
    cases asked'

/-- A request that succeeds is announced. -/
theorem handle_done {raw : Option Json} (asked : operation userId raw = some op)
    (result : m.call env op = (.ok reply, m')) (named : eventOf env op reply = some (c, event)) :
    Router.handle cfg env m userId raw = (m', announce cfg env c event) := by
  rcases handle_asked cfg env m asked with
    ⟨reply', c', event', done, named', handled⟩ | ⟨e, failed, _⟩
  · rw [result] at done handled
    obtain rfl := Except.ok.inj done
    obtain ⟨rfl, rfl⟩ := Prod.mk.inj (Option.some.inj (named.symm.trans named'))
    exact handled
  · rw [result] at failed
    cases failed

/-- A request that fails is answered. -/
theorem handle_refused {raw : Option Json} (asked : operation userId raw = some op)
    (failed : (m.call env op).1 = .error e) :
    Router.handle cfg env m userId raw = (m, [⟨userId, failure (cString e)⟩]) := by
  rcases handle_asked cfg env m asked with ⟨_, _, _, done, _⟩ | ⟨e', failed', handled⟩
  · rw [failed] at done
    cases done
  · obtain rfl := Except.error.inj (failed.symm.trans failed')
    exact handled

/-! ## Events -/

/-- One step of the router. -/
abbrev RouterStep := Transition CallManager (RouterInput × BackendEnv) (List Outgoing)

/-- The operation of the call manager that a step performs. -/
def performed : RouterInput → Option CallOp
  | .message userId raw => operation userId raw
  | .checkExpired => some .expireRinging

/-- The events of a call in a step. -/
def events (c : Bytes) (t : RouterStep) : List CallEvent :=
  match performed t.input.1 with
  | none => []
  | some op => eventsOf t.input.2 c op (t.before.call t.input.2 op).1

/-- The events of a call in a run. -/
def life (c : Bytes) (ts : List RouterStep) : List CallEvent := ts.flatMap (events c)

def isCreated : CallEvent → Bool
  | .created _ => true
  | _ => false

/-- No id is drawn for two calls. -/
def FreshIds (ts : List RouterStep) : Prop := ∀ c, (life c ts).countP isCreated ≤ 1

/-- The courses a call can take: its events, and the session that is stored for it. -/
inductive Life (c : Bytes) : List CallEvent → Option CallSession → Prop where
  | unborn : Life c [] none
  | ringing (s : CallSession) (rings : s.state = .ringing) : Life c [.created s] (some s)
  | active (s : CallSession) (rings : s.state = .ringing) :
      Life c [.created s, .accepted { s with state := .active }] (some { s with state := .active })
  | rejected (s : CallSession) (rings : s.state = .ringing) :
      Life c [.created s, .rejected (ended s)] none
  | expired (s : CallSession) (rings : s.state = .ringing) :
      Life c [.created s, .expired (ended s)] none
  | cancelled (s : CallSession) (userId : Bytes) (rings : s.state = .ringing)
      (member : userId ∈ participants s) : Life c [.created s, .hungUp (ended s) userId] none
  | finished (s : CallSession) (userId : Bytes) (rings : s.state = .ringing)
      (member : userId ∈ participants s) :
      Life c [.created s, .accepted { s with state := .active }, .hungUp (ended s) userId] none

variable {c : Bytes} {t : RouterStep} {ts : List RouterStep} {ringTimeout : Int}

/-- Whatever has happened to a call began with its creation. -/
theorem Life.created (course : Life c es stored) : es = [] ∨ es.countP isCreated = 1 := by
  cases course with
  | unborn => exact .inl rfl
  | _ => exact .inr rfl

/-- A move continues the course of a call. -/
theorem Life.extend (course : Life c es stored) (moves : Moves env m c stored later stored')
    (fresh : (es ++ later).countP isCreated ≤ 1) : Life c (es ++ later) stored' := by
  cases moves with
  | stay =>
    rw [List.append_nil]
    exact course
  | create callerId calleeId _ free drawn =>
    rcases course.created with none | one
    · subst none
      exact .ringing _ rfl
    · rw [List.countP_append, one] at fresh
      simp [isCreated] at fresh
  | accept s rings =>
    cases course with
    | ringing => exact .active s rings
    | active s' => simp at rings
  | reject s rings =>
    cases course with
    | ringing => exact .rejected s rings
    | active s' => simp at rings
  | hangup s userId member =>
    cases course with
    | ringing _ rings => exact .cancelled s userId rings member
    | active s' rings => exact .finished s' userId rings member
  | expire s overdue =>
    have rings : s.state = .ringing := (of_decide_eq_true overdue).1
    cases course with
    | ringing => exact .expired s rings
    | active s' => simp at rings

/-! ## One step -/

/-- A step leaves the calls as its operation leaves them. -/
theorem step_after (taken : (routerMachine cfg ringTimeout).Takes t) :
    (performed t.input.1 = none ∧ t.after = t.before) ∨
    ∃ op, performed t.input.1 = some op ∧ t.after = (t.before.call t.input.2 op).2 := by
  obtain ⟨before, ⟨input, env⟩, after, output⟩ := t
  cases input with
  | message userId raw =>
    have result : Router.handle cfg env before userId raw = (after, output) := Except.ok.inj taken
    have handled := handle_cases cfg env before userId raw
    rw [result] at handled
    cases handled with
    | done op reply c event asked done named => exact .inr ⟨op, asked, rfl⟩
    | refused op e asked failed => exact .inr ⟨op, asked, (call_error failed).symm⟩
    | error reason asked => exact .inl ⟨asked, rfl⟩
    | relay msg callId s asked text type named found => exact .inl ⟨asked, rfl⟩
  | checkExpired =>
    have result : Router.checkExpired env before = (after, output) := Except.ok.inj taken
    exact .inr ⟨.expireRinging, rfl, (congrArg Prod.fst result).symm⟩

theorem table_of_router_run (run : Run (routerMachine cfg ringTimeout) ts m) : Table m := by
  refine run.invariant Table (Table.new ringTimeout) fun t before taken => ?_
  rcases step_after taken with ⟨_, same⟩ | ⟨op, _, result⟩
  · rw [same]
    exact before
  · rw [result]
    exact before.preserved _ _

/-- In a step each call moves by its events. -/
theorem step_moves (table : Table t.before) (taken : (routerMachine cfg ringTimeout).Takes t)
    (c : Bytes) : Moves t.input.2 t.before c (t.before.find c) (events c t) (t.after.find c) := by
  rcases step_after taken with ⟨none, same⟩ | ⟨op, some, result⟩
  · rw [same, events, none]
    exact .stay _
  · rw [result, events, some]
    exact call_moves table.own t.input.2 op c

/-! ## Announcements -/

/-- The types of message that tell a user about a call. -/
def noticeTypes : List Bytes :=
  [ascii "call.created", ascii "call.incoming", ascii "rtc.config", ascii "call.ended",
    ascii "call.failed"]

/-- A message that tells its receiver about the call `c`. -/
def isAbout (c : Bytes) (out : Outgoing) : Bool :=
  (out.msg.stringMember "type").any (· ∈ noticeTypes) && out.msg.stringMember "callId" = some c

/-- The announcements of a call are about this call. -/
theorem announce_about (event : CallEvent) (member : out ∈ announce cfg env c' event) :
    isAbout c out = decide (c' = c) := by
  have typed : ∀ type ∈ noticeTypes, out.msg.stringMember "type" = some type →
      out.msg.stringMember "callId" = some c' → isAbout c out = decide (c' = c) := by
    intro type listed found named
    simp [isAbout, found, named, listed]
  cases event with
  | created s =>
    rcases List.mem_pair.mp member with rfl | rfl
    · exact typed (ascii "call.created") (by decide) rfl rfl
    · exact typed (ascii "call.incoming") (by decide) rfl rfl
  | accepted s =>
    rcases List.mem_pair.mp member with rfl | rfl
    · exact typed (ascii "rtc.config") (by decide) rfl rfl
    · exact typed (ascii "rtc.config") (by decide) rfl rfl
  | rejected s =>
    obtain rfl := List.mem_singleton.mp member
    exact typed (ascii "call.ended") (by decide) rfl rfl
  | hungUp s userId =>
    obtain rfl := List.mem_singleton.mp member
    exact typed (ascii "call.ended") (by decide) rfl rfl
  | expired s =>
    rcases List.mem_pair.mp member with rfl | rfl
    · exact typed (ascii "call.failed") (by decide) rfl rfl
    · exact typed (ascii "call.failed") (by decide) rfl rfl

theorem filter_announce (event : CallEvent) :
    (announce cfg env c' event).filter (isAbout c) =
      if c' = c then announce cfg env c' event else [] := by
  split
  · rename_i same
    refine List.filter_eq_self.mpr fun out member => ?_
    rw [announce_about event member]
    exact decide_eq_true same
  · rename_i other
    refine List.filter_eq_nil_iff.mpr fun out member => ?_
    rw [announce_about event member]
    simpa using other

/-- Errors are about no call, nor is what clients send each other. -/
theorem filter_failure (userId reason : Bytes) :
    [(⟨userId, failure reason⟩ : Outgoing)].filter (isAbout c) = [] := rfl

theorem filter_relay {msg : Json}
    (type : msg.stringMember "type" = some (ascii "webrtc.offer") ∨
      msg.stringMember "type" = some (ascii "webrtc.answer") ∨
      msg.stringMember "type" = some (ascii "webrtc.ice")) (receiver : Bytes) :
    [(⟨receiver, msg⟩ : Outgoing)].filter (isAbout c) = [] := by
  have other : isAbout c ⟨receiver, msg⟩ = false := by
    rcases type with offer | answer | ice
    · simp only [isAbout, offer]
      rfl
    · simp only [isAbout, answer]
      rfl
    · simp only [isAbout, ice]
      rfl
  rw [List.filter_singleton, other]
  rfl

/-- The events of a call are those of the operation that names it. -/
theorem eventsOf_eventOf (named : eventOf env op reply = some (c', event)) :
    eventsOf env c op (.ok reply) = if c' = c then [event] else [] := by
  cases op <;> cases reply <;> simp only [eventOf, Option.some.injEq, Prod.mk.injEq, reduceCtorEq]
    at named
  all_goals
    obtain ⟨rfl, rfl⟩ := named
    rfl

theorem eventsOf_error (op : CallOp) (e : Bytes) : eventsOf env c op (.error e) = [] := by
  cases op <;> rfl

/-- The sweep announces the calls it ends, in the order in which it meets them. -/
theorem sweep_about (expired : List CallSession) :
    (expired.flatMap fun s => announce cfg env s.callId (.expired s)).filter (isAbout c) =
      ((expired.filter (·.callId = c)).map .expired).flatMap (announce cfg env c) := by
  induction expired with
  | nil => rfl
  | cons s rest ih =>
    rw [List.flatMap_cons, List.filter_append, filter_announce, ih]
    by_cases mine : s.callId = c
    · rw [if_pos mine, List.filter_cons_of_pos (by exact decide_eq_true mine), List.map_cons,
        List.flatMap_cons, mine]
    · rw [if_neg mine, List.filter_cons_of_neg (by exact fun hit => mine (of_decide_eq_true hit)),
        List.nil_append]

/-- What a step of the router says, and to whom. -/
structure Announced (cfg : RouterConfig) (t : RouterStep) : Prop where
  /-- The events of each call are announced, and nothing else is said about it. -/
  about : ∀ c, t.output.filter (isAbout c) = (events c t).flatMap (announce cfg t.input.2 c)
  /-- A request that succeeds has one event, and its announcement is all that is sent. -/
  request : ∀ userId raw, t.input.1 = .message userId raw → ∀ c, ∀ event ∈ events c t,
    t.output = announce cfg t.input.2 c event
  /-- A `call.*` request without an event has failed: one error, to the requester. -/
  refused : ∀ userId raw, t.input.1 = .message userId raw → callRequest raw →
    (∀ c, events c t = []) →
    t.after = t.before ∧ ∃ reason, t.output = [⟨userId, failure reason⟩]
  /-- The timer ends the calls that ring for longer than the timeout, and no other. -/
  sweep : t.input.1 = .checkExpired → ∀ c, events c t =
    (((t.before.find c).filter fun s => s.state = .ringing ∧
      t.input.2.now - s.createdAt > t.before.ringTimeout * 1000000000).map
        (CallEvent.expired ∘ ended)).toList

/-- A request that succeeds. -/
theorem announced_done {before : CallManager} {raw : Option Json}
    (asked : operation userId raw = some op) (done : (before.call env op).1 = .ok reply)
    (named : eventOf env op reply = some (c', event)) :
    Announced cfg ⟨before, (.message userId raw, env), (before.call env op).2,
      announce cfg env c' event⟩ := by
  have happened : ∀ c, events c ⟨before, (.message userId raw, env), (before.call env op).2,
      announce cfg env c' event⟩ = if c' = c then [event] else [] := by
    intro c
    simp only [events, performed, asked, done]
    exact eventsOf_eventOf named
  refine ⟨fun c => ?_, fun _ _ _ c event' member => ?_, fun _ _ _ _ silent => ?_, nofun⟩
  · rw [happened, filter_announce]
    split
    · subst_vars
      simp
    · rfl
  · rw [happened] at member
    split at member
    · subst_vars
      obtain rfl := List.mem_singleton.mp member
      rfl
    · simp at member
  · have spoke := silent c'
    rw [happened, if_pos rfl] at spoke
    simp at spoke

/-- A message that concerns no call. -/
theorem announced_silent {before : CallManager} {raw : Option Json} {output : List Outgoing}
    (silent : ∀ c, events c ⟨before, (.message userId raw, env), before, output⟩ = [])
    (unsaid : ∀ c, output.filter (isAbout c) = [])
    (failed : callRequest raw → ∃ reason, output = [⟨userId, failure reason⟩]) :
    Announced cfg ⟨before, (.message userId raw, env), before, output⟩ := by
  refine ⟨fun c => ?_, fun _ _ _ c event member => ?_, fun _ _ same request _ => ?_, nofun⟩
  · rw [silent]
    exact unsaid c
  · simp [silent] at member
  · obtain ⟨rfl, rfl⟩ := RouterInput.message.inj same
    exact ⟨rfl, failed request⟩

/-- The timer. -/
theorem announced_sweep (table : Table m) : Announced cfg ⟨m, (.checkExpired, env),
    (Router.checkExpired env m).1, (Router.checkExpired env m).2⟩ := by
  refine ⟨fun c => sweep_about _, nofun, nofun, fun _ c => ?_⟩
  have expired := expireRinging_expired table.own env c
  have late : (m.find c).filter (fun s => s.state = .ringing ∧
      env.now - s.createdAt > m.ringTimeout * 1000000000) =
      (m.sessions.lookup c).filter (m.overdue env.now) := rfl
  simp only [events, performed, call, Prod.map, Function.comp_apply, eventsOf]
  rw [expired, late]
  cases (m.sessions.lookup c).filter (m.overdue env.now) <;> rfl

/-- A relayed message is no `call.*` request. -/
theorem not_callRequest {msg : Json} (type : msg.stringMember "type" = some (ascii "webrtc.offer") ∨
    msg.stringMember "type" = some (ascii "webrtc.answer") ∨
    msg.stringMember "type" = some (ascii "webrtc.ice")) : ¬ callRequest (some msg) := by
  rintro ⟨_, ⟨⟩, type'⟩
  rcases type with offer | answer | ice
  · rw [offer] at type'
    simp only [Option.some.injEq] at type'
    exact absurd type' (by decide)
  · rw [answer] at type'
    simp only [Option.some.injEq] at type'
    exact absurd type' (by decide)
  · rw [ice] at type'
    simp only [Option.some.injEq] at type'
    exact absurd type' (by decide)

theorem step_announced (table : Table t.before) (taken : (routerMachine cfg ringTimeout).Takes t) :
    Announced cfg t := by
  obtain ⟨before, ⟨input, env⟩, after, output⟩ := t
  cases input with
  | message userId raw =>
    have result : Router.handle cfg env before userId raw = (after, output) := Except.ok.inj taken
    have handled := handle_cases cfg env before userId raw
    rw [result] at handled
    cases handled with
    | done op reply c' event asked done named => exact announced_done asked done named
    | refused op e asked failed =>
      refine announced_silent (fun c => ?_) (fun c => filter_failure userId _) fun _ => ⟨_, rfl⟩
      simp only [events, performed, asked, failed]
      exact eventsOf_error op e
    | error reason asked =>
      refine announced_silent (fun c => ?_) (fun c => filter_failure userId reason) fun _ =>
        ⟨reason, rfl⟩
      simp only [events, performed, asked]
    | relay msg callId s asked text type named found =>
      subst text
      refine announced_silent (fun c => ?_) (fun c => filter_relay type _) fun request =>
        absurd request (not_callRequest type)
      simp only [events, performed, asked]
  | checkExpired =>
    have result : Router.checkExpired env before = (after, output) := Except.ok.inj taken
    obtain ⟨rfl, rfl⟩ := Prod.mk.inj result
    exact announced_sweep table

/-! ## Every run -/

/-- **Each call lives once, and the right people are told.** In every run of the
router with fresh call ids, whoever sends whatever, every call takes one of the
courses of `Life`, and every step announces the events of every call to the users
concerned, says nothing else about it, and answers a request that fails with one
error. -/
theorem calls_live_once (cfg : RouterConfig) (ringTimeout : Int)
    (run : Run (routerMachine cfg ringTimeout) ts m) (fresh : FreshIds ts) :
    (∀ c, Life c (life c ts) (m.find c)) ∧ ∀ t ∈ ts, Announced cfg t := by
  constructor
  · intro c
    -- Over the run: the last step extends the course the earlier steps have taken.
    induction run with
    | start => exact .unborn
    | @step ts m i m' o run taken ih =>
      have extended : life c (ts ++ [⟨m, i, m', o⟩]) = life c ts ++ events c ⟨m, i, m', o⟩ := by
        simp [life]
      have earlier : FreshIds ts := by
        intro c'
        have bound := fresh c'
        rw [life, List.flatMap_append, List.countP_append] at bound
        exact (Nat.le_add_right _ _).trans bound
      have bound := fresh c
      rw [extended] at bound ⊢
      exact (ih earlier).extend (step_moves (t := ⟨m, i, m', o⟩) (table_of_router_run run)
        taken c) bound
  · intro t member
    obtain ⟨earlier, before, _, taken⟩ := run.history member
    exact step_announced (table_of_router_run before) taken

/-- A backend, with the digests of two users' names. -/
def deployed : RouterConfig where
  host :=
    let alice : Vector UInt8 20 := #v[98, 22, 148, 117, 184, 87, 204, 46, 156, 3, 21, 0, 92, 66,
      86, 182, 214, 84, 195, 25]
    let bob : Vector UInt8 20 := #v[251, 153, 69, 118, 237, 158, 37, 150, 78, 25, 216, 8, 218, 69,
      149, 199, 155, 230, 99, 164]
    Host.posix [((ascii "secret", ascii "1700007200:alice"), alice),
      ((ascii "secret", ascii "1700007200:bob"), bob)] []
      [(alice.toList, ascii "YhaUdbhXzC6cAxUAXEJWttZUwxk="),
        (bob.toList, ascii "+5lFdu2eJZZOGdgI2kWVx5vmY6Q=")]
  turn := ⟨ascii "turn.example", 3478, 5349, ascii "secret", 7200⟩

/-- A call between two users, taken up by one and hung up by the other. -/
def oneCall : List (RouterInput × BackendEnv) :=
  let request (type key : String) (value : Bytes) : Option Json :=
    some (.object [(ascii "type", .text type), (ascii key, .string value)])
  [(.message (ascii "alice") (request "call.create" "to" (ascii "bob")), surroundings 0 1),
    (.message (ascii "bob") (request "call.accept" "callId" (generateUuid (1, 1))),
      surroundings 1000000000 0),
    (.checkExpired, surroundings 60000000000 0),
    (.message (ascii "alice") (request "call.hangup" "callId" (generateUuid (1, 1))),
      surroundings 61000000000 0),
    (.message (ascii "bob") (request "call.hangup" "callId" (generateUuid (1, 1))),
      surroundings 62000000000 0)]

/-- An operation that makes a call. -/
def makesCall : CallOp → Bool
  | .create _ _ => true
  | _ => false

/-- A step that asks for a call. -/
def creates (t : RouterStep) : Bool := (performed t.input.1).any makesCall

/-- Only a request for a call creates one. -/
theorem countP_created (op : CallOp) (reply : Except Bytes CallReply) :
    (eventsOf env c op reply).countP isCreated ≤ if makesCall op then 1 else 0 := by
  cases reply with
  | error e => simp [eventsOf_error]
  | ok reply =>
    cases op <;> cases reply <;> simp only [eventsOf, List.countP_nil, Nat.zero_le]
    case create.callId => split <;> simp [makesCall, isCreated]
    case expireRinging.expired =>
      rw [List.countP_map, List.countP_eq_zero.mpr]
      · exact Nat.zero_le _
      · exact fun s _ => Bool.false_ne_true
    all_goals split <;> simp [isCreated]

theorem created_le (c : Bytes) (t : RouterStep) :
    (events c t).countP isCreated ≤ if creates t then 1 else 0 := by
  unfold events creates
  cases performed t.input.1 with
  | none => simp
  | some op => exact countP_created op _

theorem freshIds_of_one (one : ts.countP creates ≤ 1) : FreshIds ts := by
  intro c
  refine le_trans ?_ one
  clear one
  induction ts with
  | nil => simp [life]
  | cons t ts ih =>
    rw [life, List.flatMap_cons, List.countP_append, List.countP_cons, Nat.add_comm]
    exact Nat.add_le_add ih (created_le c t)

theorem calls_live_once_one_call :
    ∃ ts m, Run (routerMachine deployed 30) ts m ∧
      (life (generateUuid (1, 1)) ts).length = 3 ∧
      (∀ c, Life c (life c ts) (m.find c)) ∧ ∀ t ∈ ts, Announced deployed t := by
  obtain ⟨ts, m, run, check⟩ := Run.of_exec (routerMachine deployed 30) oneCall
    (fun ts _ => ts.countP creates = 1 ∧ (life (generateUuid (1, 1)) ts).length = 3)
    (by decide +kernel)
  obtain ⟨one, three⟩ := of_decide_eq_true check
  exact ⟨ts, m, run, three, calls_live_once deployed 30 run (freshIds_of_one one.le)⟩

end Zaza.CallLife
