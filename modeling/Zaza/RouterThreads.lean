import Zaza.CallLife
import Zaza.Interleaving

/-!
The router on the threads of the backend's `main`.

`main` runs the `io_context` on at least two threads, so handlers of different
connections, and the expiry timer, run at the same time. What they share is the
call manager, whose methods hold its mutex, and the WebSocket server, whose
`send` holds its own. The handlers are written out here step by step; run alone
they are those of `Zaza.Router` (`run_program`), and each calls the manager at
most once, before it sends anything (`program_once`).
-/
namespace Zaza.RouterThreads
open Zaza Interleaving CallManager CallInvariant CallLife

/-! ## The call manager as a shared object -/

/-- A call of one of the manager's methods. What `create` and `expireRinging` read from
their surroundings comes with it. -/
inductive ManagerCall where
  | create (env : BackendEnv) (callerId calleeId : Bytes)
  | accept (callId calleeId : Bytes)
  | reject (callId calleeId : Bytes)
  | hangup (callId userId : Bytes)
  | find (callId : Bytes)
  | expireRinging (env : BackendEnv)

abbrev Reply : ManagerCall → Type
  | .create _ _ _ => Except Bytes Bytes
  | .accept _ _ => Except Bytes CallSession
  | .reject _ _ => Except Bytes CallSession
  | .hangup _ _ => Except Bytes CallSession
  | .find _ => Option CallSession
  | .expireRinging _ => List CallSession

def perform : Object ManagerCall Reply CallManager
  | .create env callerId calleeId, m => m.create env callerId calleeId
  | .accept callId calleeId, m => m.accept callId calleeId
  | .reject callId calleeId, m => m.reject callId calleeId
  | .hangup callId userId, m => m.hangup callId userId
  | .find callId, m => (m.find callId, m)
  | .expireRinging env, m => m.expireRinging env

/-! ## The handlers -/

/-- Code of the router: calls of the manager, and calls of `ws_.send`. -/
abbrev Handler := Code ManagerCall Reply Outgoing

def sendError (userId reason : Bytes) : Handler := .emit ⟨userId, Router.error reason⟩ .done

def onCallCreate (env : BackendEnv) (userId : Bytes) (msg : Json) : Handler :=
  match msg.stringMember "to" with
  | none => sendError userId (ascii "missing to")
  | some calleeId =>
    .call (.create env userId calleeId) fun
      | .error e => sendError userId (cString e)
      | .ok callId =>
        .emit ⟨userId, Router.callCreated callId⟩
          (.emit ⟨calleeId, Router.callIncoming callId userId⟩ .done)

def onCallAccept (cfg : RouterConfig) (env : BackendEnv) (userId : Bytes) (msg : Json) : Handler :=
  match msg.stringMember "callId" with
  | none => sendError userId (ascii "missing callId")
  | some callId =>
    .call (.accept callId userId) fun
      | .error e => sendError userId (cString e)
      | .ok session =>
        let callerRtc := Router.rtcConfig cfg (env.wall 0) session.callerId callId
        let calleeRtc := Router.rtcConfig cfg (env.wall 1) session.calleeId callId
        .emit ⟨session.callerId, callerRtc⟩ (.emit ⟨session.calleeId, calleeRtc⟩ .done)

def onCallReject (userId : Bytes) (msg : Json) : Handler :=
  match msg.stringMember "callId" with
  | none => sendError userId (ascii "missing callId")
  | some callId =>
    .call (.reject callId userId) fun
      | .error e => sendError userId (cString e)
      | .ok session => .emit ⟨session.callerId, Router.callEnded callId "rejected"⟩ .done

def onCallHangup (userId : Bytes) (msg : Json) : Handler :=
  match msg.stringMember "callId" with
  | none => sendError userId (ascii "missing callId")
  | some callId =>
    .call (.hangup callId userId) fun
      | .error e => sendError userId (cString e)
      | .ok session =>
        .emit ⟨Router.other session userId, Router.callEnded callId "hangup"⟩ .done

def onWebrtcRelay (userId : Bytes) (msg : Json) : Handler :=
  match msg.stringMember "callId" with
  | none => sendError userId (ascii "missing callId")
  | some callId =>
    .call (.find callId) fun
      | none => sendError userId (ascii "call not found")
      | some session => .emit ⟨Router.other session userId, msg⟩ .done

def handle (cfg : RouterConfig) (env : BackendEnv) (userId : Bytes) (raw : Option Json) :
    Handler :=
  match raw with
  | none => sendError userId (ascii "invalid json")
  | some msg =>
    match msg.stringMember "type" with
    | none => sendError userId (ascii "missing type")
    | some type =>
      if type = ascii "call.create" then onCallCreate env userId msg
      else if type = ascii "call.accept" then onCallAccept cfg env userId msg
      else if type = ascii "call.reject" then onCallReject userId msg
      else if type = ascii "call.hangup" then onCallHangup userId msg
      else if type = ascii "webrtc.offer" ∨ type = ascii "webrtc.answer" ∨
          type = ascii "webrtc.ice" then onWebrtcRelay userId msg
      else sendError userId (ascii "unknown type: " ++ type)

/-- The loop of `checkExpired` over the calls that have expired. -/
def announceExpired : List CallSession → Handler
  | [] => .done
  | session :: rest =>
    .emit ⟨session.callerId, Router.callFailed session.callId⟩
      (.emit ⟨session.calleeId, Router.callFailed session.callId⟩ (announceExpired rest))

def checkExpired (env : BackendEnv) : Handler := .call (.expireRinging env) announceExpired

/-- What runs on a thread when a message has been read, or the timer has fired. What the
handler will read from its surroundings is drawn when it starts. -/
def program (cfg : RouterConfig) : RouterInput × BackendEnv → Handler
  | (.message userId raw, env) => handle cfg env userId raw
  | (.checkExpired, env) => checkExpired env

/-- The router and its call manager, on any number of threads. -/
def threadedRouter (cfg : RouterConfig) (ringTimeout : Int) :
    Machine (Pool ManagerCall Reply CallManager (RouterInput × BackendEnv) Outgoing)
      (Turn (RouterInput × BackendEnv)) (Option (Nat × Outgoing)) Empty :=
  threads perform (program cfg) (CallManager.new ringTimeout)

/-! ## Each handler alone -/

section
variable (cfg : RouterConfig) (env : BackendEnv) (m : CallManager) (userId : Bytes) (msg : Json)

theorem run_sendError (reason : Bytes) :
    (sendError userId reason).run perform m = (m, Router.sendError userId reason) := rfl

theorem run_onCallCreate :
    (onCallCreate env userId msg).run perform m = Router.onCallCreate env m userId msg := by
  unfold onCallCreate Router.onCallCreate
  cases msg.stringMember "to" with
  | none => rfl
  | some calleeId =>
    simp only [Code.run, perform]
    rcases m.create env userId calleeId with ⟨reply | reply, m'⟩ <;> rfl

theorem run_onCallAccept :
    (onCallAccept cfg env userId msg).run perform m = Router.onCallAccept cfg env m userId msg := by
  unfold onCallAccept Router.onCallAccept
  cases msg.stringMember "callId" with
  | none => rfl
  | some callId =>
    simp only [Code.run, perform]
    rcases m.accept callId userId with ⟨reply | reply, m'⟩ <;> rfl

theorem run_onCallReject :
    (onCallReject userId msg).run perform m = Router.onCallReject m userId msg := by
  unfold onCallReject Router.onCallReject
  cases msg.stringMember "callId" with
  | none => rfl
  | some callId =>
    simp only [Code.run, perform]
    rcases m.reject callId userId with ⟨reply | reply, m'⟩ <;> rfl

theorem run_onCallHangup :
    (onCallHangup userId msg).run perform m = Router.onCallHangup m userId msg := by
  unfold onCallHangup Router.onCallHangup
  cases msg.stringMember "callId" with
  | none => rfl
  | some callId =>
    simp only [Code.run, perform]
    rcases m.hangup callId userId with ⟨reply | reply, m'⟩ <;> rfl

theorem run_onWebrtcRelay :
    (onWebrtcRelay userId msg).run perform m = (m, Router.onWebrtcRelay m userId msg) := by
  unfold onWebrtcRelay Router.onWebrtcRelay
  cases msg.stringMember "callId" with
  | none => rfl
  | some callId =>
    simp only [Code.run, perform]
    cases m.find callId <;> rfl

theorem run_announceExpired (expired : List CallSession) :
    (announceExpired expired).run perform m = (m, expired.flatMap fun session =>
      [⟨session.callerId, Router.callFailed session.callId⟩,
        ⟨session.calleeId, Router.callFailed session.callId⟩]) := by
  induction expired with
  | nil => rfl
  | cons session rest ih => simp [announceExpired, Code.run, ih]

theorem run_handle (raw : Option Json) :
    (handle cfg env userId raw).run perform m = Router.handle cfg env m userId raw := by
  unfold handle Router.handle
  cases raw with
  | none => rfl
  | some msg =>
    simp only
    cases msg.stringMember "type" with
    | none => rfl
    | some type =>
      simp only
      split_ifs
      · exact run_onCallCreate env m userId msg
      · exact run_onCallAccept cfg env m userId msg
      · exact run_onCallReject m userId msg
      · exact run_onCallHangup m userId msg
      · exact run_onWebrtcRelay m userId msg
      · exact run_sendError m userId _

end

theorem run_program (cfg : RouterConfig) (ringTimeout : Int) (input : RouterInput × BackendEnv)
    (m : CallManager) :
    (routerMachine cfg ringTimeout).step m input = .ok ((program cfg input).run perform m) := by
  obtain ⟨input, env⟩ := input
  cases input with
  | message userId raw => exact congrArg Except.ok (run_handle cfg env m userId raw).symm
  | checkExpired => exact congrArg Except.ok (run_announceExpired _ _).symm

/-- The handlers one after the other are the router. -/
theorem sequential_eq (cfg : RouterConfig) (ringTimeout : Int) :
    sequential perform (program cfg) (CallManager.new ringTimeout) =
      routerMachine cfg ringTimeout := by
  have steps : (routerMachine cfg ringTimeout).step = fun m input =>
      .ok ((program cfg input).run perform m) :=
    funext fun m => funext fun input => run_program cfg ringTimeout input m
  unfold sequential
  rw [← steps]
  rfl

theorem announceExpired_silent (expired : List CallSession) : (announceExpired expired).Silent := by
  induction expired with
  | nil => trivial
  | cons session rest ih => exact ih

theorem handle_once (cfg : RouterConfig) (env : BackendEnv) (userId : Bytes) (raw : Option Json) :
    (handle cfg env userId raw).Once := by
  unfold handle
  cases raw with
  | none => trivial
  | some msg =>
    simp only
    cases msg.stringMember "type" with
    | none => trivial
    | some type =>
      simp only
      split_ifs
      · unfold onCallCreate
        cases msg.stringMember "to" with
        | none => trivial
        | some calleeId => rintro (e | callId) <;> trivial
      · unfold onCallAccept
        cases msg.stringMember "callId" with
        | none => trivial
        | some callId => rintro (e | session) <;> trivial
      · unfold onCallReject
        cases msg.stringMember "callId" with
        | none => trivial
        | some callId => rintro (e | session) <;> trivial
      · unfold onCallHangup
        cases msg.stringMember "callId" with
        | none => trivial
        | some callId => rintro (e | session) <;> trivial
      · unfold onWebrtcRelay
        cases msg.stringMember "callId" with
        | none => trivial
        | some callId => rintro (_ | session) <;> trivial
      · trivial

theorem program_once (cfg : RouterConfig) (input : RouterInput × BackendEnv) :
    (program cfg input).Once := by
  obtain ⟨input, env⟩ := input
  cases input with
  | message userId raw => exact handle_once cfg env userId raw
  | checkExpired => exact announceExpired_silent

/-! ## Every interleaving -/

abbrev RouterPool := Pool ManagerCall Reply CallManager (RouterInput × BackendEnv) Outgoing

abbrev ThreadStep := Step ManagerCall Reply CallManager (RouterInput × BackendEnv) Outgoing

/-- The threads have done what the router does in a run in which every handler is one
step, in the order of their calls of the manager. -/
structure Refines (cfg : RouterConfig) (ringTimeout : Int) (ts : List ThreadStep)
    (p : RouterPool) (seq : List RouterStep) : Prop where
  run : Run (routerMachine cfg ringTimeout) seq p.shared
  /-- Each handler has sent a beginning of what its step sends, and all of it at its end. -/
  each : List.Forall₂ (fun k t => ∃ job, p.jobs[k]? = some job ∧ job.input = t.input ∧
    job.emitted <+: t.output ∧ (job.code = .done → job.emitted = t.output))
    (order (program cfg) ts) seq
  nodup : (order (program cfg) ts).Nodup
  /-- A handler that is not among them has sent nothing. -/
  others : ∀ k job, p.jobs[k]? = some job → k ∉ order (program cfg) ts → job.emitted = []
  /-- A handler that had finished comes before every handler that had not started. -/
  realTime : ∀ earlier p₀, earlier <+: ts → Run (threadedRouter cfg ringTimeout) earlier p₀ →
    ∃ before after, order (program cfg) ts = before ++ after ∧
      (∀ k ∈ before, k < p₀.jobs.length) ∧
      ∀ k job, p₀.jobs[k]? = some job → job.code = .done → k ∈ before

variable {cfg : RouterConfig} {ringTimeout : Int} {ts : List ThreadStep} {p : RouterPool}
  {seq : List RouterStep}

theorem refines_of_linearized (lin : Linearized perform (program cfg)
    (CallManager.new ringTimeout) (order (program cfg) ts) p seq) :
    Refines cfg ringTimeout ts p seq where
  run := by
    rw [← sequential_eq]
    exact lin.run
  each := by
    refine lin.explains.imp fun k t explains => ?_
    obtain ⟨job, found, _, input, output⟩ := explains
    refine ⟨job, found, input, ⟨_, output⟩, fun code => ?_⟩
    simpa [code, Code.rest] using output
  nodup := lin.nodup
  others k job found missing := by
    rcases lin.settled k job found with ⟨_, _, _, none⟩ | ⟨_, member⟩
    · exact none
    · exact absurd member missing
  realTime earlier p₀ inside early := by
    obtain ⟨later, whole, started, finished⟩ := finished_first (program_once cfg) early inside
    exact ⟨_, later, whole, started, finished⟩

/-- **Every interleaving of the router's handlers is a sequential run.** However the
threads are scheduled, the calls are as after a run of the router in which each handler
is one step, and each handler sends what its step sends. -/
theorem threads_refine_router (cfg : RouterConfig) (ringTimeout : Int)
    (run : Run (threadedRouter cfg ringTimeout) ts p) : ∃ seq, Refines cfg ringTimeout ts p seq := by
  obtain ⟨seq, lin⟩ := linearizable (program_once cfg) run
  exact ⟨seq, refines_of_linearized lin⟩

/-- Two users call each other at the same time. The second handler gets to the manager
first, and its messages go out around the other's error; then the call is taken up. -/
def crossedCalls : List (Turn (RouterInput × BackendEnv)) :=
  let request (type key : String) (value : Bytes) : Option Json :=
    some (.object [(ascii "type", .text type), (ascii key, .string value)])
  [.start (.message (ascii "alice") (request "call.create" "to" (ascii "bob")), surroundings 0 1),
    .start (.message (ascii "bob") (request "call.create" "to" (ascii "alice")), surroundings 0 2),
    .advance 1, .advance 0, .advance 1, .advance 0, .advance 1,
    .start (.message (ascii "alice") (request "call.accept" "callId" (generateUuid (2, 2))),
      surroundings 1000000000 0),
    .advance 2, .advance 2, .advance 2]

theorem threads_refine_router_crossed :
    ∃ ts p seq, Run (threadedRouter deployed 30) ts p ∧ order (program deployed) ts = [1, 0, 2] ∧
      Refines deployed 30 ts p seq := by
  obtain ⟨ts, p, run, check⟩ := Run.of_exec (threadedRouter deployed 30) crossedCalls
    (fun ts _ => order (program deployed) ts = [1, 0, 2]) (by decide +kernel)
  obtain ⟨seq, refines⟩ := threads_refine_router deployed 30 run
  exact ⟨ts, p, seq, run, of_decide_eq_true check, refines⟩

/-! ## The calls -/

/-- The id that a handler draws for the call it is asked for. -/
def drawn (input : RouterInput × BackendEnv) : Option Bytes :=
  if (performed input.1).any makesCall then some (generateUuid input.2.draws) else none

/-- A call is created by a handler that has drawn its id. -/
theorem created_le_drawn (c : Bytes) (t : RouterStep) :
    (events c t).countP isCreated ≤ if drawn t.input = some c then 1 else 0 := by
  have bound := created_le c t
  by_cases same : drawn t.input = some c
  · rw [if_pos same]
    refine bound.trans ?_
    split <;> omega
  · cases asked : performed t.input.1 with
    | none => simp [events, asked]
    | some op =>
      cases op with
      | create callerId calleeId =>
        have other : generateUuid t.input.2.draws ≠ c := by
          simpa [drawn, asked, makesCall] using same
        simp only [events, asked, call, create]
        split_ifs <;> simp [eventsOf, other, Except.map]
      | _ =>
        rw [if_neg same]
        simpa [creates, asked, makesCall] using bound

theorem freshIds_of_drawn (distinct : ((seq.map Transition.input).filterMap drawn).Nodup) :
    FreshIds seq := by
  intro c
  refine le_trans ?_ (List.nodup_iff_count_le_one.mp distinct c)
  clear distinct
  induction seq with
  | nil => simp [life]
  | cons t seq ih =>
    have first := created_le_drawn c t
    rw [life, List.flatMap_cons, List.countP_append]
    cases id : drawn t.input with
    | none =>
      rw [List.map_cons, List.filterMap_cons_none id]
      simp only [id, reduceCtorEq, if_false, Nat.le_zero_eq] at first
      rw [first, Nat.zero_add]
      exact ih
    | some id' =>
      rw [List.map_cons, List.filterMap_cons_some id, List.count_cons, Nat.add_comm]
      refine Nat.add_le_add ih (first.trans_eq ?_)
      simp [id]

/-- In a run without a repeated id every call takes one of the courses. -/
theorem life_of_run (run : Run (routerMachine cfg ringTimeout) seq m) (fresh : FreshIds seq)
    (c : Bytes) : Life c (life c seq) (m.find c) := by
  induction run with
  | start => exact .unborn
  | @step seq m i m' o run taken ih =>
    have extended : life c (seq ++ [⟨m, i, m', o⟩]) = life c seq ++ events c ⟨m, i, m', o⟩ := by
      simp [life]
    have earlier : FreshIds seq := by
      intro c'
      have bound := fresh c'
      rw [life, List.flatMap_append, List.countP_append] at bound
      exact (Nat.le_add_right _ _).trans bound
    have bound := fresh c
    rw [extended] at bound ⊢
    exact (ih earlier).extend (step_moves (t := ⟨m, i, m', o⟩) (table_of_router_run run) taken c)
      bound

/-- What the router has said about a call in a run, step by step. -/
def announcements (cfg : RouterConfig) (c : Bytes) (seq : List RouterStep) : List Outgoing :=
  seq.flatMap fun t => (events c t).flatMap (announce cfg t.input.2 c)

theorem announcements_of_run (run : Run (routerMachine cfg ringTimeout) seq m) (c : Bytes) :
    (seq.flatMap Transition.output).filter (isAbout c) = announcements cfg c seq := by
  rw [List.filter_flatMap]
  refine List.flatMap_congr fun t member => ?_
  obtain ⟨earlier, before, _, taken⟩ := run.history member
  exact (step_announced (table_of_router_run before) taken).about c

/-- **Calls live once on any number of threads.** However the handlers are interleaved,
once all of them have finished, and no id has been drawn twice, they have done what the
router does in some order of the same messages: every call has taken one of the courses of
`Life`, and what was sent about it are the announcements of its events, each exactly as
often as it happened. -/
theorem interleaved_calls_live_once (cfg : RouterConfig) (ringTimeout : Int)
    (run : Run (threadedRouter cfg ringTimeout) ts p)
    (finished : ∀ job ∈ p.jobs, job.code = .done)
    (distinct : ((p.jobs.map Job.input).filterMap drawn).Nodup) :
    ∃ seq, Run (routerMachine cfg ringTimeout) seq p.shared ∧
      (seq.map Transition.input).Perm (p.jobs.map Job.input) ∧
      ∀ c, Life c (life c seq) (p.shared.find c) ∧
        ((sent ts).filter (isAbout c)).Perm (announcements cfg c seq) := by
  obtain ⟨seq, lin⟩ := linearizable (program_once cfg) run
  obtain ⟨ordered, perm, inputs, outputs⟩ := lin.finished finished
  have ordinary := (refines_of_linearized lin).run
  have fresh : FreshIds seq := by
    refine freshIds_of_drawn ?_
    rw [inputs]
    exact ((perm.map Job.input).filterMap drawn).nodup_iff.mpr distinct
  refine ⟨seq, ordinary, ?_, fun c => ⟨life_of_run ordinary fresh c, ?_⟩⟩
  · rw [inputs]
    exact perm.map _
  · rw [← announcements_of_run ordinary c, outputs]
    exact ((sent_perm run).trans (perm.flatMap_right _).symm).filter _

theorem interleaved_calls_live_once_crossed :
    ∃ ts p seq, Run (threadedRouter deployed 30) ts p ∧ p.jobs.length = 3 ∧
      Run (routerMachine deployed 30) seq p.shared ∧
      (seq.map Transition.input).Perm (p.jobs.map Job.input) ∧
      ∀ c, Life c (life c seq) (p.shared.find c) ∧
        ((sent ts).filter (isAbout c)).Perm (announcements deployed c seq) := by
  obtain ⟨ts, p, run, check⟩ := Run.of_exec (threadedRouter deployed 30) crossedCalls
    (fun _ p => p.jobs.length = 3 ∧ (∀ job ∈ p.jobs, job.code.isDone) ∧
      ((p.jobs.map Job.input).filterMap drawn).Nodup) (by decide +kernel)
  obtain ⟨three, finished, distinct⟩ := of_decide_eq_true check
  obtain ⟨seq, result⟩ := interleaved_calls_live_once deployed 30 run
    (fun job member => Code.isDone_iff.mp (finished job member)) distinct
  exact ⟨ts, p, seq, run, three, result⟩

end Zaza.RouterThreads
