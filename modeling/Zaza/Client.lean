import Zaza.Json

/-!
The command line client: `client_cli/src/`, that is the session, the call
commands, the handlers of server messages, and the callbacks `main` wires up.

A step that can throw returns what it throws beside the client it leaves
behind, since a `catch` may go on from there. What `main` captures by reference
is part of the client: the objects of the running call, by whether they are
there, and the flag of `cleanupCall`. What is printed is left out.

libdatachannel is outside the sources. Whether it accepts what it is given is up
to `Rtc`; nothing else of it matters to a message's handler.
-/
namespace Zaza

/-! ## `session/` -/

inductive AppState where
  | idle
  | calling
  | ringing
  | inCall
  deriving DecidableEq

structure CallContext where
  callId : Bytes := []
  remoteUser : Bytes := []
  state : AppState := .idle
  muted : Bool := false
  isCaller : Bool := false
  deriving DecidableEq

/-- The `turnConfig` of a session. -/
structure TurnAccess where
  turnUrl : Bytes := []
  turnsUrl : Bytes := []
  username : Bytes := []
  credential : Bytes := []
  deriving DecidableEq

structure RecordContext where
  active : Bool := false
  filename : Bytes := []
  deriving DecidableEq

structure Session where
  userId : Bytes := []
  jwt : Bytes := []
  turnConfig : TurnAccess := {}
  call : CallContext := {}
  record : RecordContext := {}
  deriving DecidableEq

def Session.isLoggedIn (s : Session) : Bool := s.jwt ≠ []

def Session.isInCall (s : Session) : Bool := s.call.state ≠ .idle

/-! ## `cli/commands.cpp` -/

structure CommandResult where
  ok : Bool
  message : Bytes
  deriving DecidableEq

/-- The message of a command that names the current call. -/
def callMessage (type : String) (callId : Bytes) : Json :=
  .object [(ascii "type", .text type), (ascii "callId", .string callId)]

def createMessage (callee : Bytes) : Json :=
  .object [(ascii "type", .text "call.create"), (ascii "to", .string callee)]

/-- Each command returns its result, the session and what it gives to `ws_send_`,
which `main` has set. -/
abbrev Command := Session → CommandResult × Session × List Json

namespace Commands

/-- A command that is turned down. -/
def fail (reason : String) : Command := fun s => (⟨false, ascii reason⟩, s, [])

def call (args : List Bytes) : Command := fun s =>
  match args with
  | [] => fail "usage: call <userId>" s
  | callee :: _ =>
    if !s.isLoggedIn then fail "not logged in" s
    else if callee = s.userId then fail "cannot call yourself" s
    else if s.isInCall then fail "already in call" s
    else (⟨true, ascii "calling " ++ callee⟩,
      { s with call := { s.call with remoteUser := callee, state := .calling, isCaller := true } },
      [createMessage callee])

def accept : Command := fun s =>
  if s.call.state ≠ .ringing then fail "no incoming call" s
  else (⟨true, ascii "call accepted"⟩, { s with call := { s.call with state := .inCall } },
    [callMessage "call.accept" s.call.callId])

def reject : Command := fun s =>
  if s.call.state ≠ .ringing then fail "no incoming call" s
  else (⟨true, ascii "call rejected"⟩, { s with call := {} },
    [callMessage "call.reject" s.call.callId])

def hangup : Command := fun s =>
  if !s.isInCall then fail "not in call" s
  else (⟨true, ascii "call ended"⟩, { s with call := {} },
    [callMessage "call.hangup" s.call.callId])

end Commands

/-! ## The client's objects -/

/-- `rtc_client::PeerConnection`, by whether its `pc_` is there. -/
structure PeerConnection where
  live : Bool
  deriving DecidableEq

/-- Whether libdatachannel takes what it is given, or throws. -/
structure Rtc where
  init : TurnAccess → Bool
  createOffer : Bool
  applyOffer : (sdp : Bytes) → Bool
  applyAnswer : (sdp : Bytes) → Bool
  addRemoteCandidate : (candidate mid : Bytes) → Bool

/-- The variables of `main`. -/
structure Client where
  session : Session := {}
  callCleanupDone : Bool := false
  pc : Option PeerConnection := none
  /-- Whether `sdp_handler` is there. -/
  sdpHandler : Bool := false
  /-- Whether `ice_handler` is there. -/
  iceHandler : Bool := false
  /-- Whether `initRtc` has set the handler's three callbacks. -/
  callbacks : Bool := false
  /-- The capture, by whether it is running. -/
  capture : Option Bool := none
  /-- The playback, by whether it is running. -/
  playback : Option Bool := none
  deriving DecidableEq

/-- How a step of the client can fail to return. -/
inductive ClientFault where
  | parse
  | json (e : JsonError)
  | rtc
  /-- A null or dangling pointer, or an absent member of a constant value. -/
  | undefined
  deriving DecidableEq

/-- What a step ends with, and the client after it. -/
abbrev Outcome (α : Type) := Except ClientFault α × Client

namespace Client

def setCall (c : Client) (call : CallContext) : Client :=
  { c with session := { c.session with call } }

def setTurnConfig (c : Client) (turnConfig : TurnAccess) : Client :=
  { c with session := { c.session with turnConfig } }

/-! ## `rtc/sdp_handler.cpp`, `rtc/ice_handler.cpp` -/

/-- A call of a handler that passes something on to the peer connection. -/
def viaPeer (c : Client) (handler accepts : Bool) : Outcome Unit :=
  if !handler then (.error .undefined, c)
  else match c.pc with
  | none => (.error .undefined, c)
  | some pc =>
    if !pc.live then (.ok (), c)
    else if accepts then (.ok (), c)
    else (.error .rtc, c)

/-- `sdp_handler->handleOffer(sdp)`. -/
def handleOffer (rtc : Rtc) (c : Client) (sdp : Bytes) : Outcome Unit :=
  c.viaPeer c.sdpHandler (rtc.applyOffer sdp)

/-- `sdp_handler->handleAnswer(sdp)`. -/
def handleAnswer (rtc : Rtc) (c : Client) (sdp : Bytes) : Outcome Unit :=
  c.viaPeer c.sdpHandler (rtc.applyAnswer sdp)

/-- `sdp_handler->startCall()`. -/
def startCall (rtc : Rtc) (c : Client) : Outcome Unit := c.viaPeer c.sdpHandler rtc.createOffer

/-- `ice_handler->handleRemoteCandidate(candidate, mid, mlineindex)`, which drops the
index. -/
def handleRemoteCandidate (rtc : Rtc) (c : Client) (candidate mid : Bytes) : Outcome Unit :=
  c.viaPeer c.iceHandler (rtc.addRemoteCandidate candidate mid)

/-- What libdatachannel hands to the callbacks of `SdpHandler` and `IceHandler`. -/
inductive LocalSignal where
  | offer (sdp : Bytes)
  | answer (sdp : Bytes)
  | ice (candidate mid : Bytes)

/-- What a handler that is there gives to `ws_send` then. The line index is always 0. -/
def sendSignal (c : Client) : LocalSignal → List Json
  | .offer sdp =>
    if c.sdpHandler then
      [.object [(ascii "type", .text "webrtc.offer"),
        (ascii "callId", .string c.session.call.callId), (ascii "sdp", .string sdp)]]
    else []
  | .answer sdp =>
    if c.sdpHandler then
      [.object [(ascii "type", .text "webrtc.answer"),
        (ascii "callId", .string c.session.call.callId), (ascii "sdp", .string sdp)]]
    else []
  | .ice candidate mid =>
    if c.iceHandler then
      [.object [(ascii "type", .text "webrtc.ice"),
        (ascii "callId", .string c.session.call.callId), (ascii "candidate", .string candidate),
        (ascii "mid", .string mid), (ascii "mlineindex", .integer 0)]]
    else []

/-! ## `signaling/message_handler.cpp` -/

/-- A handler that converts members first and then acts on the client. -/
def convert (c : Client) (converted : Except JsonError α) (act : α → Outcome β) : Outcome β :=
  match converted with
  | .error e => (.error (.json e), c)
  | .ok a => act a

def handleCallIncoming (c : Client) (msg : Json) : Outcome Unit :=
  c.convert (msg.value "callId" Json.getString []) fun callId =>
    c.convert (msg.value "from" Json.getString []) fun caller =>
      (.ok (), c.setCall { c.session.call with
        callId, remoteUser := caller, state := .ringing, isCaller := false })

def handleCallCreated (c : Client) (msg : Json) : Outcome Unit :=
  c.convert (msg.value "callId" Json.getString []) fun callId =>
    (.ok (), c.setCall { c.session.call with callId })

/-- `handleCallEnded` and `handleCallFailed`, which print different texts. -/
def handleCallOver (c : Client) (msg : Json) : Outcome Unit :=
  c.convert (msg.value "reason" Json.getString (ascii "unknown")) fun _ => (.ok (), c.setCall {})

def handleCallEnded (c : Client) (msg : Json) : Outcome Unit := c.handleCallOver msg

def handleCallFailed (c : Client) (msg : Json) : Outcome Unit := c.handleCallOver msg

/-- `s.rfind(t, 0) == 0`. -/
def startsWith (t : String) (s : Bytes) : Bool := (ascii t).isPrefixOf s

/-- `s.find(t) != npos`. -/
def containsText (t : String) (s : Bytes) : Bool := s.tails.any (startsWith t)

/-- Which of the two urls a string is stored as. -/
def storeUrl (c : Client) (u : Bytes) : Client :=
  if startsWith "turn:" u && !containsText "turns:" u then
    c.setTurnConfig { c.session.turnConfig with turnUrl := u }
  else if startsWith "turns:" u then c.setTurnConfig { c.session.turnConfig with turnsUrl := u }
  else c

/-- The inner loop of `handleRtcConfig`. -/
def storeUrls : List Json → Client → Outcome Unit
  | [], c => (.ok (), c)
  | url :: rest, c => c.convert url.getString fun u => storeUrls rest (c.storeUrl u)

/-- What a range-based `for` over a value goes through. -/
def elements : Json → List Json
  | .null => []
  | .array values => values
  | .object members => members.map Prod.snd
  | other => [other]

/-- The body of the outer loop, for a server with a username. -/
def storeServer (c : Client) (server : Json) : Outcome Unit :=
  match server.member "urls" with
  | none => (.error .undefined, c)
  | some urls =>
    match storeUrls (elements urls) c with
    | (.error e, c) => (.error e, c)
    | (.ok (), c) =>
      c.convert (server.value "username" Json.getString []) fun username =>
        let c := c.setTurnConfig { c.session.turnConfig with username }
        c.convert (server.value "credential" Json.getString []) fun credential =>
          (.ok (), c.setTurnConfig { c.session.turnConfig with credential })

/-- The outer loop of `handleRtcConfig`. -/
def storeServers : List Json → Client → Outcome Unit
  | [], c => (.ok (), c)
  | server :: rest, c =>
    if !server.contains "username" then storeServers rest c
    else match c.storeServer server with
    | (.error e, c) => (.error e, c)
    | (.ok (), c) => storeServers rest c

def handleRtcConfig (c : Client) (msg : Json) : Outcome Unit :=
  match msg.member "iceServers" with
  | some (.array servers) => storeServers servers c
  | _ => (.ok (), c)

/-- A session description: a member that is passed to a callback, unless this side
has no use for it. -/
def handleSdp (c : Client) (msg : Json) (dropped : Bool) (callback : Bytes → Outcome Unit) :
    Outcome Unit :=
  match msg.member "sdp" with
  | none => (.ok (), c)
  | some sdp =>
    if dropped then (.ok (), c)
    else if c.callbacks then c.convert sdp.getString callback
    else (.ok (), c)

def handleWebrtcOffer (rtc : Rtc) (c : Client) (msg : Json) : Outcome Unit :=
  c.handleSdp msg c.session.call.isCaller (c.handleOffer rtc)

def handleWebrtcAnswer (rtc : Rtc) (c : Client) (msg : Json) : Outcome Unit :=
  c.handleSdp msg (!c.session.call.isCaller) (c.handleAnswer rtc)

/-- The three arguments are converted before the callback is called; in which order
makes no difference. -/
def handleWebrtcIce (rtc : Rtc) (c : Client) (msg : Json) : Outcome Unit :=
  match msg.member "candidate" with
  | none => (.ok (), c)
  | some candidate =>
    if c.callbacks then
      c.convert candidate.getString fun candidate =>
        c.convert (msg.value "mid" Json.getString []) fun mid =>
          c.convert (msg.value "mlineindex" Json.getInt 0) fun _ =>
            c.handleRemoteCandidate rtc candidate mid
    else (.ok (), c)

def handleError (c : Client) (msg : Json) : Outcome Unit :=
  c.convert (msg.value "error" Json.getString (ascii "unknown error")) fun fallback =>
    c.convert (msg.value "message" Json.getString fallback) fun _ => (.ok (), c)

/-- `MessageHandler::handle`. -/
def handle (rtc : Rtc) (c : Client) (raw : Option Json) : Outcome Unit :=
  match raw with
  | none => (.ok (), c)
  | some msg =>
    match msg.stringMember "type" with
    | none => (.ok (), c)
    | some type =>
      if type = ascii "call.incoming" then c.handleCallIncoming msg
      else if type = ascii "call.created" then c.handleCallCreated msg
      else if type = ascii "call.ended" then c.handleCallEnded msg
      else if type = ascii "call.failed" then c.handleCallFailed msg
      else if type = ascii "rtc.config" then c.handleRtcConfig msg
      else if type = ascii "webrtc.offer" then c.handleWebrtcOffer rtc msg
      else if type = ascii "webrtc.answer" then c.handleWebrtcAnswer rtc msg
      else if type = ascii "webrtc.ice" then c.handleWebrtcIce rtc msg
      else if type = ascii "error" then c.handleError msg
      else (.ok (), c)

/-! ## `main.cpp` -/

/-- `cleanupCall`: the second of two calls in a row does nothing. -/
def cleanupCall (c : Client) : Client :=
  if c.callCleanupDone then c
  else
    { c with
      callCleanupDone := true
      capture := c.capture.map fun _ => false
      playback := c.playback.map fun _ => false
      pc := none
      sdpHandler := false
      iceHandler := false
      session := { c.session with call := {} } }

/-- `initRtc`. When `pc->init()` throws, the handlers are gone and the callbacks are
still those of an earlier call. -/
def initRtc (rtc : Rtc) (c : Client) : Outcome Unit :=
  let c := { c with callCleanupDone := false, sdpHandler := false, iceHandler := false }
  if !rtc.init c.session.turnConfig then (.error .rtc, { c with pc := some ⟨false⟩ })
  else (.ok (), { c with
    pc := some ⟨true⟩, sdpHandler := true, iceHandler := true, callbacks := true
    capture := some true, playback := some false })

/-- `initRtc` and the caller's `startCall`, as they follow on `rtc.config`. -/
def startRtc (rtc : Rtc) (c : Client) : Outcome Unit :=
  match c.initRtc rtc with
  | (.error e, c) => (.error e, c)
  | (.ok (), c) => if c.session.call.state = .calling then c.startCall rtc else (.ok (), c)

/-- The `try` block of the message callback: whether it ended with `return`. -/
def tryBlock (rtc : Rtc) (c : Client) (raw : Option Json) : Outcome Bool :=
  match raw with
  | none => (.error .parse, c)
  | some j =>
    c.convert (j.value "type" Json.getString []) fun type =>
      if type = ascii "error" then
        match c.handle rtc raw with
        | (.error e, c) => (.error e, c)
        | (.ok (), c) => (.ok true, if c.session.call.state = .calling then c.cleanupCall else c)
      else if type = ascii "rtc.config" then
        match c.handle rtc raw with
        | (.error e, c) => (.error e, c)
        | (.ok (), c) =>
          match c.startRtc rtc with
          | (.error e, c) => (.error e, c)
          | (.ok (), c) => (.ok true, c)
      else if type = ascii "call.ended" ∨ type = ascii "call.failed" then
        match c.handle rtc raw with
        | (.error e, c) => (.error e, c)
        | (.ok (), c) => (.ok true, c.cleanupCall)
      else (.ok false, c)

/-- The callback `main` gives to `ws_client.onMessage`. The `catch` takes every
exception, and the message is then handled once more. -/
def onMessage (rtc : Rtc) (c : Client) (raw : Option Json) : Outcome Unit :=
  match c.tryBlock rtc raw with
  | (.ok true, c) => (.ok (), c)
  | (.ok false, c) => c.handle rtc raw
  | (.error .undefined, c) => (.error .undefined, c)
  | (.error _, c) => c.handle rtc raw

end Client

end Zaza
