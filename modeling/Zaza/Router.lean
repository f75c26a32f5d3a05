import Zaza.CallManager
import Zaza.Routes

/-!
The backend's message router: `backend/signaling/router.cpp`.

A handler runs to its end as one step. What it hands to `ws_.send` is returned,
in order, as the receivers and the messages; what is logged is left out. Of an
exception of the call manager the user is sent what `what()` returns, which ends at
its first NUL. The generator of rtc configurations is the one `main` passes, so the
text it returns always parses.
-/
namespace Zaza

/-- A call of `ws_.send`. -/
structure Outgoing where
  userId : Bytes
  msg : Json

/-- What `main` gives the router. -/
structure RouterConfig where
  host : Host
  turn : TurnConfig

namespace Router

/-! ## Messages -/

def error (reason : Bytes) : Json :=
  .object [(ascii "type", .text "error"), (ascii "message", .string reason)]

def callCreated (callId : Bytes) : Json :=
  .object [(ascii "type", .text "call.created"), (ascii "callId", .string callId)]

def callIncoming (callId caller : Bytes) : Json :=
  .object [(ascii "type", .text "call.incoming"), (ascii "callId", .string callId),
    (ascii "from", .string caller)]

def callEnded (callId : Bytes) (reason : String) : Json :=
  .object [(ascii "type", .text "call.ended"), (ascii "callId", .string callId),
    (ascii "reason", .text reason)]

def callFailed (callId : Bytes) : Json :=
  .object [(ascii "type", .text "call.failed"), (ascii "callId", .string callId),
    (ascii "reason", .text "timeout")]

/-- The configuration for a user, with the type and the call added. -/
def rtcConfig (cfg : RouterConfig) (wall : Int) (userId callId : Bytes) : Json :=
  ((Routes.generateRtcConfig cfg.host cfg.turn wall userId).set "type" (.text "rtc.config")).set
    "callId" (.string callId)

/-! ## Handlers -/

def sendError (userId reason : Bytes) : List Outgoing := [⟨userId, error reason⟩]

def onCallCreate (env : BackendEnv) (m : CallManager) (userId : Bytes) (msg : Json) :
    CallManager × List Outgoing :=
  match msg.stringMember "to" with
  | none => (m, sendError userId (ascii "missing to"))
  | some calleeId =>
    match m.create env userId calleeId with
    | (.error e, m) => (m, sendError userId (cString e))
    | (.ok callId, m) =>
      (m, [⟨userId, callCreated callId⟩, ⟨calleeId, callIncoming callId userId⟩])

def onCallAccept (cfg : RouterConfig) (env : BackendEnv) (m : CallManager) (userId : Bytes)
    (msg : Json) : CallManager × List Outgoing :=
  match msg.stringMember "callId" with
  | none => (m, sendError userId (ascii "missing callId"))
  | some callId =>
    match m.accept callId userId with
    | (.error e, m) => (m, sendError userId (cString e))
    | (.ok session, m) =>
      (m, [⟨session.callerId, rtcConfig cfg (env.wall 0) session.callerId callId⟩,
        ⟨session.calleeId, rtcConfig cfg (env.wall 1) session.calleeId callId⟩])

def onCallReject (m : CallManager) (userId : Bytes) (msg : Json) : CallManager × List Outgoing :=
  match msg.stringMember "callId" with
  | none => (m, sendError userId (ascii "missing callId"))
  | some callId =>
    match m.reject callId userId with
    | (.error e, m) => (m, sendError userId (cString e))
    | (.ok session, m) => (m, [⟨session.callerId, callEnded callId "rejected"⟩])

/-- `otherId`. -/
def other (session : CallSession) (userId : Bytes) : Bytes :=
  if session.callerId = userId then session.calleeId else session.callerId

def onCallHangup (m : CallManager) (userId : Bytes) (msg : Json) : CallManager × List Outgoing :=
  match msg.stringMember "callId" with
  | none => (m, sendError userId (ascii "missing callId"))
  | some callId =>
    match m.hangup callId userId with
    | (.error e, m) => (m, sendError userId (cString e))
    | (.ok session, m) => (m, [⟨other session userId, callEnded callId "hangup"⟩])

/-- Only the existence of the call is asked for, not who takes part in it. -/
def onWebrtcRelay (m : CallManager) (userId : Bytes) (msg : Json) : List Outgoing :=
  match msg.stringMember "callId" with
  | none => sendError userId (ascii "missing callId")
  | some callId =>
    match m.find callId with
    | none => sendError userId (ascii "call not found")
    | some session => [⟨other session userId, msg⟩]

/-- A message text from a user, as `parse` reads it. -/
def handle (cfg : RouterConfig) (env : BackendEnv) (m : CallManager) (userId : Bytes)
    (raw : Option Json) : CallManager × List Outgoing :=
  match raw with
  | none => (m, sendError userId (ascii "invalid json"))
  | some msg =>
    match msg.stringMember "type" with
    | none => (m, sendError userId (ascii "missing type"))
    | some type =>
      if type = ascii "call.create" then onCallCreate env m userId msg
      else if type = ascii "call.accept" then onCallAccept cfg env m userId msg
      else if type = ascii "call.reject" then onCallReject m userId msg
      else if type = ascii "call.hangup" then onCallHangup m userId msg
      else if type = ascii "webrtc.offer" ∨ type = ascii "webrtc.answer" ∨
          type = ascii "webrtc.ice" then (m, onWebrtcRelay m userId msg)
      else (m, sendError userId (ascii "unknown type: " ++ type))

def checkExpired (env : BackendEnv) (m : CallManager) : CallManager × List Outgoing :=
  let (expired, m) := m.expireRinging env
  (m, expired.flatMap fun session =>
    [⟨session.callerId, callFailed session.callId⟩, ⟨session.calleeId, callFailed session.callId⟩])

end Router

/-! ## The backend -/

/-- What makes the router act: a message from a user, or the expiry timer. -/
inductive RouterInput where
  | message (userId : Bytes) (raw : Option Json)
  | checkExpired

/-- The router and its call manager, as `main` constructs them. -/
def routerMachine (cfg : RouterConfig) (ringTimeout : Int) :
    Machine CallManager (RouterInput × BackendEnv) (List Outgoing) Empty where
  init := CallManager.new ringTimeout
  step m input :=
    match input.1 with
    | .message userId raw => .ok (Router.handle cfg input.2 m userId raw)
    | .checkExpired => .ok (Router.checkExpired input.2 m)

end Zaza
