import Zaza.Repl

/-!
What a command that fails leaves behind.

A command checks first and acts then, so one that is turned down has done nothing.
`login` is the exception: it stores the user id of a response before it looks at the
token, and the token before it asks whether there is one.
-/
namespace Zaza.CommandEffects
open Zaza

/-- The commands that can fail, with what they are given. -/
inductive CliCommand where
  | login (http : HttpClient) (args : List Bytes)
  | call (args : List Bytes)
  | accept (args : List Bytes)
  | reject (args : List Bytes)
  | hangup (args : List Bytes)
  | mute (args : List Bytes)
  | unmute (args : List Bytes)
  | record (args : List Bytes)
  | stop (args : List Bytes)
  | sendfile (args : List Bytes)
  | register (http : HttpClient) (args : List Bytes)

namespace CliCommand

/-- Some take arguments and do not look at them. -/
def run : CliCommand → Command
  | login http args => Commands.login http args
  | call args => Commands.call args
  | accept _ => Commands.accept
  | reject _ => Commands.reject
  | hangup _ => Commands.hangup
  | mute _ => Commands.mute
  | unmute _ => Commands.unmute
  | record args => Commands.record args
  | stop _ => Commands.stop
  | sendfile args => Commands.sendfile args
  | register http args => Commands.register http args

/-- The type of the message that goes with a command about a call. -/
def messageType : CliCommand → Option String
  | call _ => some "call.create"
  | accept _ => some "call.accept"
  | reject _ => some "call.reject"
  | hangup _ => some "call.hangup"
  | _ => none

end CliCommand

variable {http : HttpClient} {args : List Bytes} {s : Session}

/-- A command that fails changes nothing and sends nothing; one about a call that succeeds sends
its one message. -/
structure AllOrNothing (command : CliCommand) (s : Session) : Prop where
  fails : (command.run s).1.ok = false → (command.run s).2 = (s, [])
  sends : ∀ type, command.messageType = some type → (command.run s).1.ok = true →
    ∃ msg, (command.run s).2.2 = [msg] ∧ msg.stringMember "type" = some (ascii type)

/-! ## `login` -/

/-- The user id and the token in the response to a login, as far as `login` gets: the status is
200, the body is an object, and its user id converts. -/
def loginAnswer (http : HttpClient) (args : List Bytes) :
    Option (Bytes × Except JsonError Bytes) :=
  match args with
  | userId :: password :: _ =>
    match http.post "/api/auth/login" (Commands.accountBody userId password) with
    | .error _ => none
    | .ok resp =>
      if resp.status ≠ 200 then none
      else match resp.parsed with
      | .error _ => none
      | .ok j =>
        match j.value "userId" Json.getString userId with
        | .error _ => none
        | .ok name => some (name, j.value "token" Json.getString [])
  | _ => none

/-- The response is not one that fails after its user id: or it has the user's own id, and
leaves a session without a token. -/
def HarmlessAnswer (s : Session) : Bytes × Except JsonError Bytes → Prop
  | (name, .error _) => name = s.userId
  | (name, .ok token) => token ≠ [] ∨ name = s.userId ∧ s.jwt = []

/-- What `login` does, by what it gets. -/
inductive LoginOutcome (s : Session) :
    Option (Bytes × Except JsonError Bytes) → CommandResult × Session × List Json → Prop where
  | unanswered (message : Bytes) : LoginOutcome s none (⟨false, message⟩, s, [])
  | badToken (name : Bytes) (e : JsonError) (message : Bytes) :
    LoginOutcome s (some (name, .error e)) (⟨false, message⟩, { s with userId := name }, [])
  | noToken (name message : Bytes) :
    LoginOutcome s (some (name, .ok []))
      (⟨false, message⟩, { s with userId := name, jwt := [] }, [])
  | loggedIn (name token message : Bytes) (present : token ≠ []) :
    LoginOutcome s (some (name, .ok token))
      (⟨true, message⟩, { s with userId := name, jwt := token }, [])

theorem login_outcome (http : HttpClient) (args : List Bytes) (s : Session) :
    LoginOutcome s (loginAnswer http args) (Commands.login http args s) := by
  unfold Commands.login loginAnswer
  match args with
  | [] => exact .unanswered _
  | [_] => exact .unanswered _
  | userId :: password :: _ =>
    simp only
    cases http.post "/api/auth/login" (Commands.accountBody userId password) with
    | error what => exact .unanswered _
    | ok resp =>
      simp only
      by_cases refused : resp.status ≠ 200
      · rw [if_pos refused, if_pos refused]
        exact .unanswered _
      · rw [if_neg refused, if_neg refused]
        cases resp.parsed with
        | error what => exact .unanswered _
        | ok j =>
          simp only
          cases j.value "userId" Json.getString userId with
          | error e => exact .unanswered _
          | ok name =>
            simp only
            cases j.value "token" Json.getString [] with
            | error e => exact .badToken name e _
            | ok token =>
              simp only
              split
              · rename_i empty
                rw [empty]
                exact .noToken name _
              · rename_i present
                exact .loggedIn name token _ present

/-- A login leaves the session alone when it fails, exactly if the answer is harmless. -/
theorem login_fails_iff (http : HttpClient) (args : List Bytes) (s : Session) :
    ((Commands.login http args s).1.ok = false → (Commands.login http args s).2 = (s, [])) ↔
      ∀ answer, loginAnswer http args = some answer → HarmlessAnswer s answer := by
  have outcome := login_outcome http args s
  generalize loginAnswer http args = answer at outcome
  generalize Commands.login http args s = done at outcome
  obtain ⟨userId, jwt, turnConfig, call, record⟩ := s
  cases outcome with
  | unanswered message => simp
  | badToken name e message => simp [HarmlessAnswer]
  | noToken name message => simp [HarmlessAnswer, eq_comm]
  | loggedIn name token message present => simp [HarmlessAnswer, present]

/-! ## The others -/

/-- A command is turned down as it came, or done with the message that goes with it. -/
def Clean (type : Option String) (s : Session) (done : CommandResult × Session × List Json) :
    Prop :=
  done.1.ok = false ∧ done.2 = (s, []) ∨
    done.1.ok = true ∧ ∀ t, type = some t → ∃ msg, done.2.2 = [msg] ∧
      msg.stringMember "type" = some (ascii t)

variable {type : Option String} {done : CommandResult × Session × List Json}

theorem clean_fail (reason : String) (s : Session) : Clean type s (Commands.fail reason s) :=
  .inl ⟨rfl, rfl⟩

/-- A check in front of a command. -/
theorem Clean.guard (rest : Clean type s done) (condition : Prop) [Decidable condition]
    (reason : String) : Clean type s (if condition then Commands.fail reason s else done) :=
  iteInduction (fun _ => clean_fail reason s) fun _ => rest

theorem clean_silent (message : Bytes) (s s' : Session) :
    Clean none s (⟨true, message⟩, s', []) :=
  .inr ⟨rfl, fun t none => by simp at none⟩

theorem clean_callMessage (type : String) (message callId : Bytes) (s s' : Session) :
    Clean (some type) s (⟨true, message⟩, s', [callMessage type callId]) := by
  refine .inr ⟨rfl, fun t same => ⟨_, rfl, ?_⟩⟩
  obtain rfl := Option.some.inj same
  rfl

theorem setMuted_clean (muted : Bool) (already done : String) (s : Session) :
    Clean none s (Commands.setMuted muted already done s) :=
  ((clean_silent _ _ _).guard _ _).guard _ _

/-- Every command but `login`. -/
theorem other_clean {command : CliCommand} (other : ∀ http args, command ≠ .login http args)
    (s : Session) : Clean command.messageType s (command.run s) := by
  cases command with
  | login http args => exact absurd rfl (other http args)
  | call args =>
    cases args with
    | nil => exact clean_fail _ s
    | cons callee _ =>
      refine Clean.guard (Clean.guard (Clean.guard (.inr ⟨rfl, fun t same => ?_⟩) _ _) _ _) _ _
      obtain rfl := Option.some.inj same
      exact ⟨createMessage callee, rfl, rfl⟩
  | accept _ => exact (clean_callMessage _ _ _ _ _).guard _ _
  | reject _ => exact (clean_callMessage _ _ _ _ _).guard _ _
  | hangup _ => exact (clean_callMessage _ _ _ _ _).guard _ _
  | mute _ => exact setMuted_clean _ _ _ s
  | unmute _ => exact setMuted_clean _ _ _ s
  | record args =>
    cases args with
    | nil => exact clean_fail _ s
    | cons filename _ => exact ((clean_silent _ _ _).guard _ _).guard _ _
  | stop _ => exact (clean_silent _ _ _).guard _ _
  | sendfile args =>
    cases args with
    | nil => exact clean_fail _ s
    | cons filename _ => exact ((clean_silent _ _ _).guard _ _).guard _ _
  | register http args =>
    match args with
    | [] => exact clean_fail _ s
    | [_] => exact clean_fail _ s
    | userId :: password :: _ =>
      simp only [CliCommand.run, Commands.register]
      cases http.post "/api/auth/register" (Commands.accountBody userId password) with
      | error what => exact .inl ⟨rfl, rfl⟩
      | ok resp => exact iteInduction (fun _ => .inl ⟨rfl, rfl⟩) fun _ => clean_silent _ _ _

theorem Clean.allOrNothing {command : CliCommand}
    (clean : Clean command.messageType s (command.run s)) : AllOrNothing command s := by
  rcases clean with ⟨failed, unchanged⟩ | ⟨succeeded, sent⟩
  · exact ⟨fun _ => unchanged, fun type _ succeeded => by simp [failed] at succeeded⟩
  · exact ⟨fun failed => by simp [succeeded] at failed, fun type isType _ => sent type isType⟩

/-- **All or nothing**: a command changes nothing and sends nothing when it fails, and sends its
message when it succeeds, exactly if it is no login whose answer fails halfway. -/
theorem command_all_or_nothing_iff (command : CliCommand) (s : Session) :
    AllOrNothing command s ↔ ∀ http args answer, command = .login http args →
      loginAnswer http args = some answer → HarmlessAnswer s answer := by
  by_cases isLogin : ∃ http args, command = .login http args
  · obtain ⟨http, args, rfl⟩ := isLogin
    have fails := login_fails_iff http args s
    constructor
    · rintro whole http' args' answer same answered
      obtain ⟨rfl, rfl⟩ := CliCommand.login.inj same
      exact fails.mp whole.fails answer answered
    · intro harmless
      refine ⟨fails.mpr fun answer => harmless http args answer rfl, fun type none => ?_⟩
      simp [CliCommand.messageType] at none
  · have other : ∀ http args, command ≠ .login http args :=
      fun http args same => isLogin ⟨http, args, same⟩
    refine iff_of_true (other_clean other s).allOrNothing fun http args answer same => ?_
    exact absurd same (other http args)

/-- A server that knows alice, and gives her no token. -/
def tokenless : HttpClient where
  post _ _ := .ok ⟨200, ascii "\x7b\"userId\":\"alice\"\x7d",
    .ok (.object [(ascii "userId", .text "alice")])⟩
  what _ := []

/-- Bob is logged in and tries to log in as alice: the login fails, and he is alice without a
token. -/
theorem failed_login_changes_user : ¬ ∀ command s, AllOrNothing command s := by
  intro all
  let bob : Session := { userId := ascii "bob", jwt := ascii "token" }
  have failed := (all (.login tokenless [ascii "alice", ascii "secret"]) bob).fails rfl
  have changed : (Commands.login tokenless [ascii "alice", ascii "secret"] bob).2.1.userId =
      ascii "alice" := rfl
  have kept := congrArg (fun after => after.1.userId) failed
  exact absurd (changed.symm.trans kept) (by decide)

end Zaza.CommandEffects
