import Zaza.Client
import Zaza.Machine

/-!
The command line client as a program: the rest of `cli/commands.cpp`, the REPL, the
state changes of `rtc/peer_connection.cpp`, and what `main` puts together.

The lines of the user, the messages and the end of the WebSocket connection, the
callbacks of libdatachannel and the signals of the operating system come on threads of
their own. Each is handled in one step here, and they come in any order. A line is text
in UTF-8. How `login` makes the WebSocket client connect, what the commands do to a
recording and to the samples that are played, and what is printed is left out.
-/
namespace Zaza

/-! ## `cli/commands.cpp` -/

structure HttpResponse where
  status : Nat
  body : Bytes
  /-- What `json::parse` makes of the body, or the text of what it throws. -/
  parsed : Except Bytes Json

/-- `net::HttpClient`, whose server and connection are outside. -/
structure HttpClient where
  /-- The response to a body that is dumped and posted, or the text of an exception. -/
  post : (path : String) → (body : Json) → Except Bytes HttpResponse
  /-- `what()` of an exception of a JSON value. -/
  what : JsonError → Bytes

namespace AppState

def toString : AppState → Bytes
  | idle => ascii "Idle"
  | calling => ascii "Calling"
  | ringing => ascii "Ringing"
  | inCall => ascii "InCall"

end AppState

namespace Commands

/-- The body both account commands post. -/
def accountBody (userId password : Bytes) : Json :=
  .object [(ascii "userId", .string userId), (ascii "password", .string password)]

/-- The session keeps the user id of a response whose `token` does not convert. -/
def login (http : HttpClient) (args : List Bytes) : Command := fun s =>
  let throws (what : Bytes) (s : Session) := (⟨false, ascii "login error: " ++ what⟩, s, [])
  match args with
  | userId :: password :: _ =>
    match http.post "/api/auth/login" (accountBody userId password) with
    | .error what => throws what s
    | .ok resp =>
      if resp.status ≠ 200 then (⟨false, ascii "login failed: " ++ resp.body⟩, s, [])
      else match resp.parsed with
      | .error what => throws what s
      | .ok j =>
        match j.value "userId" Json.getString userId with
        | .error e => throws (http.what e) s
        | .ok name =>
          let s := { s with userId := name }
          match j.value "token" Json.getString [] with
          | .error e => throws (http.what e) s
          | .ok token =>
            let s := { s with jwt := token }
            if token = [] then fail "login failed: no token in response" s
            else (⟨true, ascii "logged in as " ++ s.userId⟩, s, [])
  | _ => fail "usage: login <userId> <password>" s

/-- `mute` and `unmute`. -/
def setMuted (muted : Bool) (already done : String) : Command := fun s =>
  if s.call.state ≠ .inCall then fail "not in call" s
  else if s.call.muted = muted then fail already s
  else (⟨true, ascii done⟩, { s with call := { s.call with muted } }, [])

def mute : Command := setMuted true "already muted" "muted"

def unmute : Command := setMuted false "not muted" "unmuted"

def status : Command := fun s =>
  let user := if s.userId = [] then ascii "(not logged in)" else s.userId
  let text := ascii "user:  " ++ user ++ ascii "\nstate: " ++ s.call.state.toString
  let call :=
    if s.isInCall then
      ascii "\ncall:  " ++ s.call.callId ++ ascii "\npeer:  " ++ s.call.remoteUser ++
        ascii "\nmuted: " ++ (if s.call.muted then ascii "yes" else ascii "no")
    else []
  (⟨true, text ++ call⟩, s, [])

def isWav (filename : Bytes) : Bool := (ascii ".wav").isSuffixOf filename

def record (args : List Bytes) : Command := fun s =>
  match args with
  | [] => fail "usage: record <filename.wav>" s
  | filename :: _ =>
    if s.record.active then fail "already recording, use stop first" s
    else if !isWav filename then fail "only .wav format supported" s
    else (⟨true, ascii "recording to " ++ filename⟩, { s with record := ⟨true, filename⟩ }, [])

def stop : Command := fun s =>
  if !s.record.active then fail "not recording" s
  else (⟨true, ascii "saved to " ++ s.record.filename⟩, { s with record := {} }, [])

def sendfile (args : List Bytes) : Command := fun s =>
  match args with
  | [] => fail "usage: sendfile <filename.wav>" s
  | filename :: _ =>
    if !s.isInCall then fail "not in call" s
    else if !isWav filename then fail "only .wav format supported" s
    else (⟨true, ascii "sending " ++ filename⟩, s, [])

/-- It also sets `quit_`. -/
def quit : Command := fun s =>
  if s.isInCall then
    (⟨true, ascii "bye"⟩, { s with call := {} }, [callMessage "call.hangup" s.call.callId])
  else (⟨true, ascii "bye"⟩, s, [])

def register (http : HttpClient) (args : List Bytes) : Command := fun s =>
  match args with
  | userId :: password :: _ =>
    match http.post "/api/auth/register" (accountBody userId password) with
    | .error what => (⟨false, ascii "register error: " ++ what⟩, s, [])
    | .ok resp =>
      if resp.status ≠ 200 ∧ resp.status ≠ 201 then
        (⟨false, ascii "register failed: " ++ resp.body⟩, s, [])
      else (⟨true, ascii "registered as " ++ userId⟩, s, [])
  | _ => fail "usage: register <userId> <password>" s

/-- A name that `processLine` does not know. -/
def unknown (name : Bytes) : Command := fun s =>
  (⟨false, ascii "unknown command: " ++ name ++ ascii (" (try: login register call accept " ++
    "reject hangup mute unmute record stop sendfile status quit)")⟩, s, [])

end Commands

/-! ## `cli/parser.cpp`, `cli/repl.cpp` -/

namespace Repl

/-- The words of a line. The first is the command's name. -/
def parse (line : Bytes) : List Bytes := (line.splitOnP isSpace).filter (· ≠ [])

/-- Whether a command sets `quit_`. -/
def quits (name : Bytes) : Bool := name = ascii "quit" ∨ name = ascii "exit"

/-- The command `processLine` calls. -/
def dispatch (http : HttpClient) (name : Bytes) (args : List Bytes) : Command :=
  if name = ascii "login" then Commands.login http args
  else if name = ascii "call" then Commands.call args
  else if name = ascii "accept" then Commands.accept
  else if name = ascii "reject" then Commands.reject
  else if name = ascii "hangup" then Commands.hangup
  else if name = ascii "mute" then Commands.mute
  else if name = ascii "unmute" then Commands.unmute
  else if name = ascii "record" then Commands.record args
  else if name = ascii "register" then Commands.register http args
  else if name = ascii "stop" then Commands.stop
  else if name = ascii "sendfile" then Commands.sendfile args
  else if name = ascii "status" then Commands.status
  else if quits name then Commands.quit
  else Commands.unknown name

end Repl

/-! ## `main.cpp` -/

/-- How far `main` is. -/
inductive Stage where
  /-- The loop of `Repl::run` reads lines. -/
  | reading
  /-- The loop is done, and `main` has not returned yet. -/
  | done
  | returned
  /-- An exception has left a thread, or worse. -/
  | terminated
  deriving DecidableEq

structure Program where
  client : Client := {}
  /-- `quit_` of the REPL. -/
  quit : Bool := false
  stage : Stage := .reading
  deriving DecidableEq

/-- `rtc::PeerConnection::State`. -/
inductive RtcState where
  | new
  | connecting
  | connected
  | disconnected
  | failed
  | closed
  deriving DecidableEq

inductive ClientInput where
  /-- The user enters a line. -/
  | line (http : HttpClient) (line : Bytes)
  /-- There are no more lines. -/
  | endOfInput
  /-- The WebSocket client calls `on_message_`. -/
  | message (rtc : Rtc) (raw : Option Json)
  /-- It calls `on_close_`. -/
  | close
  /-- The peer connection calls `handleStateChange`. -/
  | stateChange (state : RtcState)
  /-- It calls `on_track_`. -/
  | track
  /-- `signal_handler` is called. -/
  | signal
  /-- `main` returns. -/
  | returns

namespace Client

/-- There is a peer connection that has not been closed. -/
def connectionOpen (c : Client) : Bool := c.pc.any PeerConnection.live

/-- The callback `main` gives to `ws_client.onClose`. -/
def onClose (c : Client) : Client := if c.session.isInCall then c.cleanupCall else c

/-- The callback `initRtc` gives to `pc->onFailed`. -/
def onFailed (c : Client) : Client × List Json :=
  (c.cleanupCall,
    if c.session.call.callId = [] then [] else [callMessage "call.hangup" c.session.call.callId])

/-- `PeerConnection::handleStateChange`. -/
def handleStateChange (c : Client) : RtcState → Client × List Json
  | .connected => (c.setCall { c.session.call with state := .inCall }, [])
  | .failed => c.onFailed
  | .disconnected => (c.setCall {}, [])
  | .new | .connecting | .closed => (c, [])

/-- The callback `initRtc` gives to `pc->onTrack`. -/
def onTrack (c : Client) : Client := { c with playback := c.playback.map fun _ => true }

/-- `signal_handler`, which also sets `quit_`. -/
def signalHandler (c : Client) : Client := if c.session.isInCall then c.setCall {} else c

/-- The destructors of `main`'s variables. -/
def destroy (c : Client) : Client :=
  { c with pc := none, sdpHandler := false, iceHandler := false, capture := none, playback := none }

end Client

namespace Program

/-- `Repl::processLine`, and the loop's next look at `quit_`. -/
def processLine (http : HttpClient) (line : Bytes) (p : Program) : Program × List Json :=
  match Repl.parse line with
  | [] => ({ p with stage := if p.quit then .done else .reading }, [])
  | name :: args =>
    let (_, session, sent) := Repl.dispatch http name args p.client.session
    let quit := p.quit || Repl.quits name
    ({ client := { p.client with session }, quit, stage := if quit then .done else .reading }, sent)

/-- What leaves the message callback ends the program. -/
def onMessage (rtc : Rtc) (raw : Option Json) (p : Program) : Program :=
  match p.client.onMessage rtc raw with
  | (.ok (), client) => { p with client }
  | (.error _, client) => { p with client, stage := .terminated }

/-- The program runs. -/
def runs (p : Program) : Bool := p.stage = .reading ∨ p.stage = .done

/-- One step, with what is given to `ws_client.send`. -/
def step (p : Program) (input : ClientInput) : Program × List Json :=
  if !p.runs then (p, [])
  else match input with
  | .line http line => if p.stage = .reading then p.processLine http line else (p, [])
  | .endOfInput => ({ p with stage := .done }, [])
  | .message rtc raw => (p.onMessage rtc raw, [])
  | .close => ({ p with client := p.client.onClose }, [])
  | .stateChange state =>
    if p.client.connectionOpen then
      let (client, sent) := p.client.handleStateChange state
      ({ p with client }, sent)
    else (p, [])
  | .track =>
    if p.client.connectionOpen then ({ p with client := p.client.onTrack }, []) else (p, [])
  | .signal => ({ p with client := p.client.signalHandler, quit := true }, [])
  | .returns =>
    if p.stage = .done then ({ p with client := p.client.destroy, stage := .returned }, [])
    else (p, [])

end Program

/-- The client, from the start of `main` on. -/
def clientMachine : Machine Program ClientInput (List Json) Empty where
  init := {}
  step p input := .ok (p.step input)

end Zaza
