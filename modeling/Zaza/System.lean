import Zaza.Client
import Zaza.Router
import Mathlib.Logic.Function.Basic

/-!
The backend and the clients connected to it.

Every client has a channel to the backend and one back, which lose nothing and
keep the order. A user's command, a description or candidate of the user's peer
connection, a message that arrives at a client, one that arrives at the backend,
and the expiry timer are each one step, and they come in any order. The backend
has one connection for a user, so a user is a client here; what is sent to
anybody else is lost, as `ws_.send` says.
-/
namespace Zaza

/-- A client and its two channels, oldest message first. -/
structure Site where
  client : Client
  /-- On the way to the backend. -/
  up : List Json := []
  /-- On the way to the client. -/
  down : List Json := []

structure SystemConfig where
  cfg : RouterConfig
  /-- In seconds. -/
  ringTimeout : Int
  /-- The users who are logged in and connected. -/
  users : List Bytes
  /-- Their tokens. -/
  jwt : Bytes → Bytes

structure World where
  server : CallManager
  site : Bytes → Site

/-- A line of the command line that is about calls. -/
inductive UserCommand where
  | call (args : List Bytes)
  | accept
  | reject
  | hangup

def UserCommand.run : UserCommand → Command
  | .call args => Commands.call args
  | .accept => Commands.accept
  | .reject => Commands.reject
  | .hangup => Commands.hangup

inductive SystemInput where
  | command (u : Bytes) (command : UserCommand)
  | signal (u : Bytes) (signal : Client.LocalSignal)
  /-- The first message on the way to a client arrives. -/
  | receive (u : Bytes) (rtc : Rtc)
  /-- The first message on the way from a client arrives. -/
  | serve (u : Bytes) (env : BackendEnv)
  | checkExpired (env : BackendEnv)

namespace World

def start (sys : SystemConfig) : World where
  server := CallManager.new sys.ringTimeout
  site u := { client := { session := { userId := u, jwt := sys.jwt u } } }

def setSite (w : World) (u : Bytes) (s : Site) : World :=
  { w with site := Function.update w.site u s }

/-- The messages among some that a user gets. -/
def sentTo (sys : SystemConfig) (u : Bytes) (sent : List Outgoing) : List Json :=
  if sys.users.contains u then (sent.filter fun out => out.userId = u).map Outgoing.msg else []

/-- What the backend does: its calls, and the messages it hands out. -/
def answer (sys : SystemConfig) (w : World) (result : CallManager × List Outgoing) : World where
  server := result.1
  site u := { w.site u with down := (w.site u).down ++ sentTo sys u result.2 }

def command (sys : SystemConfig) (w : World) (u : Bytes) (command : UserCommand) : World :=
  if sys.users.contains u then
    let s := w.site u
    let (_, session, sent) := command.run s.client.session
    w.setSite u { s with client := { s.client with session }, up := s.up ++ sent }
  else w

def signal (sys : SystemConfig) (w : World) (u : Bytes) (signal : Client.LocalSignal) : World :=
  if sys.users.contains u then
    let s := w.site u
    w.setSite u { s with up := s.up ++ s.client.sendSignal signal }
  else w

/-- An exception out of the callback ends the client. -/
def receive (w : World) (u : Bytes) (rtc : Rtc) : Except ClientFault World :=
  let s := w.site u
  match s.down with
  | [] => .ok w
  | msg :: rest =>
    match s.client.onMessage rtc (some msg) with
    | (.error e, _) => .error e
    | (.ok (), client) => .ok (w.setSite u { s with client, down := rest })

def serve (sys : SystemConfig) (w : World) (u : Bytes) (env : BackendEnv) : World :=
  let s := w.site u
  match s.up with
  | [] => w
  | msg :: rest =>
    (w.setSite u { s with up := rest }).answer sys (Router.handle sys.cfg env w.server u (some msg))

def checkExpired (sys : SystemConfig) (w : World) (env : BackendEnv) : World :=
  w.answer sys (Router.checkExpired env w.server)

end World

/-- The backend and its clients, from the start on. -/
def systemMachine (sys : SystemConfig) : Machine World SystemInput Unit ClientFault where
  init := World.start sys
  step w input :=
    match input with
    | .command u command => .ok (w.command sys u command, ())
    | .signal u signal => .ok (w.signal sys u signal, ())
    | .receive u rtc => (w.receive u rtc).map (·, ())
    | .serve u env => .ok (w.serve sys u env, ())
    | .checkExpired env => .ok (w.checkExpired sys env, ())

end Zaza
