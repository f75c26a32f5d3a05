import Zaza.ClientSafety
import Zaza.Repl

/-!
What one step of the client does to the objects of a call.

The call of the session is reset in many places, and the objects only by `cleanupCall`
and `initRtc`. `kindOf` says of a step, from its input and the state before it, which of
these it comes to, and `Change` what the client is then (`takes_change`). Everything
about whole runs of the client starts from there.
-/
namespace Zaza.ClientSteps
open Zaza Client ClientSafety

/-- What a step comes to. -/
inductive Kind where
  /-- `initRtc` makes the objects. -/
  | setsUp
  /-- `initRtc` throws, after it has dropped the old objects. -/
  | setupFails
  /-- `cleanupCall` is called. -/
  | cleansUp
  /-- The call is reset, and nothing else. -/
  | resets
  /-- `main` returns. -/
  | destroys
  /-- The objects stay as they are, and a call is not reset. -/
  | keeps
  deriving DecidableEq

/-- Of a message from the server. -/
def messageKind (rtc : Rtc) (c : Client) (msg : Json) : Kind :=
  match msg.stringMember "type" with
  | none => .keeps
  | some type =>
    if type = ascii "error" then
      if (c.handleError msg).1 = .ok () ∧ c.session.call.state = .calling then .cleansUp else .keeps
    else if type = ascii "rtc.config" then
      match c.handleRtcConfig msg with
      | (.error _, _) => .keeps
      | (.ok (), c) => if rtc.init c.session.turnConfig then .setsUp else .setupFails
    else if type = ascii "call.ended" ∨ type = ascii "call.failed" then
      if (c.handleCallOver msg).1 = .ok () then .cleansUp else .keeps
    else .keeps

/-- Of a command. -/
def commandKind (s : Session) (name : Bytes) : Kind :=
  if name = ascii "reject" ∧ s.call.state = .ringing ∨
      (name = ascii "hangup" ∨ Repl.quits name) ∧ s.isInCall then .resets
  else .keeps

/-- Of a line. -/
def lineKind (s : Session) (line : Bytes) : Kind :=
  match Repl.parse line with
  | [] => .keeps
  | name :: _ => commandKind s name

def kindOf (p : Program) (input : ClientInput) : Kind :=
  if !p.runs then .keeps
  else match input with
  | .line _ line => if p.stage = .reading then lineKind p.client.session line else .keeps
  | .message _ none => .keeps
  | .message rtc (some msg) => messageKind rtc p.client msg
  | .close => if p.client.session.isInCall then .cleansUp else .keeps
  | .stateChange .failed => if p.client.connectionOpen then .cleansUp else .keeps
  | .stateChange .disconnected => if p.client.connectionOpen then .resets else .keeps
  | .stateChange _ => .keeps
  | .signal => if p.client.session.isInCall then .resets else .keeps
  | .returns => if p.stage = .done then .destroys else .keeps
  | .endOfInput => .keeps
  | .track => .keeps

/-- The session after some step whose call was not reset. -/
def Continues (s s' : Session) : Prop := s'.call.state = s.call.state ∨ s'.call.state ≠ .idle

/-- The client a step leaves. -/
inductive Change (c : Client) : Kind → Client → Prop where
  | setsUp (session : Session) (same : session.call = c.session.call) :
    Change c .setsUp { c with
      session, callCleanupDone := false, pc := some ⟨true⟩, sdpHandler := true, iceHandler := true
      callbacks := true, capture := some true, playback := some false }
  | setupFails (session : Session) (same : session.call = c.session.call) :
    Change c .setupFails { c with
      session, callCleanupDone := false, pc := some ⟨false⟩, sdpHandler := false
      iceHandler := false }
  | cleansUp (call : CallContext) : Change c .cleansUp (c.setCall call).cleanupCall
  | resets : Change c .resets (c.setCall {})
  | destroys : Change c .destroys c.destroy
  | keeps (session : Session) (playback : Option Bool) (continues : Continues c.session session) :
    Change c .keeps { c with session, playback }

variable {rtc : Rtc} {c c' : Client} {msg : Json}

theorem Change.same : Change c .keeps c := .keeps c.session c.playback (.inl rfl)

/-! ## Messages -/

/-- Only the servers of the session are different. -/
def Configured (c c' : Client) : Prop := ∃ turnConfig, c' = c.setTurnConfig turnConfig

theorem Configured.refl (c : Client) : Configured c c := ⟨c.session.turnConfig, rfl⟩

theorem Configured.trans {c₁ c₂ c₃ : Client} (first : Configured c₁ c₂)
    (second : Configured c₂ c₃) : Configured c₁ c₃ := by
  obtain ⟨_, rfl⟩ := first
  obtain ⟨turnConfig, rfl⟩ := second
  exact ⟨turnConfig, rfl⟩

theorem storeUrls_configured (urls : List Json) (c : Client) :
    Configured c (storeUrls urls c).2 := by
  induction urls generalizing c with
  | nil => exact .refl c
  | cons url rest ih =>
    unfold storeUrls convert
    cases url.getString with
    | error e => exact .refl c
    | ok u => exact (show Configured c _ from storeUrl_eq c u).trans (ih _)

theorem storeServer_configured (server : Json) (c : Client) :
    Configured c (c.storeServer server).2 := by
  unfold storeServer
  cases server.member "urls" with
  | none => exact .refl c
  | some urls =>
    have stored := storeUrls_configured (elements urls) c
    cases done : storeUrls (elements urls) c with
    | mk result c₁ =>
      rw [done] at stored
      simp only [done]
      cases result with
      | error e => exact stored
      | ok _ =>
        refine stored.trans ?_
        cases server.value "username" Json.getString [] with
        | error e => exact .refl c₁
        | ok username =>
          cases server.value "credential" Json.getString [] with
          | error e => exact ⟨_, rfl⟩
          | ok credential => exact ⟨_, rfl⟩

theorem storeServers_configured (servers : List Json) (c : Client) :
    Configured c (storeServers servers c).2 := by
  induction servers generalizing c with
  | nil => exact .refl c
  | cons server rest ih =>
    unfold storeServers
    split
    · exact ih c
    · have stored := storeServer_configured server c
      cases done : c.storeServer server with
      | mk result c₁ =>
        rw [done] at stored
        cases result with
        | error e => exact stored
        | ok _ => exact stored.trans (ih c₁)

theorem handleRtcConfig_configured (c : Client) (msg : Json) :
    Configured c (c.handleRtcConfig msg).2 := by
  unfold handleRtcConfig
  split
  · exact storeServers_configured _ c
  · exact .refl c

/-- An error is only printed, if its members convert. -/
theorem handleError_eq (c : Client) (msg : Json) :
    c.handleError msg = (.ok (), c) ∨ ∃ e, c.handleError msg = (.error (.json e), c) := by
  unfold handleError
  cases msg.value "error" Json.getString (ascii "unknown error") with
  | error e => exact .inr ⟨e, rfl⟩
  | ok fallback =>
    rw [convert_ok]
    cases msg.value "message" Json.getString fallback with
    | error e => exact .inr ⟨e, rfl⟩
    | ok text => exact .inl rfl

theorem handleCallOver_eq (c : Client) (msg : Json) :
    c.handleCallOver msg = (.ok (), c.setCall {}) ∨
      ∃ e, c.handleCallOver msg = (.error (.json e), c) := by
  unfold handleCallOver
  cases msg.value "reason" Json.getString (ascii "unknown") with
  | error e => exact .inr ⟨e, rfl⟩
  | ok reason => exact .inl rfl

/-- A member that is no string is not what `value` returns. -/
theorem value_eq_default {key : String} {default text : Bytes} (no : msg.stringMember key = none)
    (converted : msg.value key Json.getString default = .ok text) : text = default := by
  cases found : msg.member key with
  | none =>
    cases msg with
    | object members =>
      have found : members.lookup (ascii key) = none := found
      simpa [Json.value, found] using converted.symm
    | _ => simp [Json.value] at converted
  | some v =>
    rw [Json.value_of_member found, getString_eq_ok] at converted
    rw [Json.stringMember_eq_some.mpr (found.trans (congrArg some converted))] at no
    simp at no

/-- A message without a type is only complained about. -/
theorem onMessage_untyped (untyped : msg.stringMember "type" = none) :
    (c.onMessage rtc (some msg)).2 = c := by
  have handled : c.handle rtc (some msg) = (.ok (), c) := by simp only [handle, untyped]
  cases converted : msg.value "type" Json.getString [] with
  | error e => simp only [onMessage, tryBlock, converted, convert, handled]
  | ok type =>
    obtain rfl := value_eq_default untyped converted
    simp only [onMessage, tryBlock, converted, convert, handled,
      show ([] : Bytes) ≠ ascii "error" by decide, show ([] : Bytes) ≠ ascii "rtc.config" by decide,
      show ([] : Bytes) ≠ ascii "call.ended" by decide,
      show ([] : Bytes) ≠ ascii "call.failed" by decide, ↓reduceIte, or_self]

/-- The `catch` handles the message once more. -/
theorem onMessage_throws {e : ClientFault} {c₁ : Client}
    (threw : c.tryBlock rtc (some msg) = (.error e, c₁)) :
    (c.onMessage rtc (some msg)).2 = c₁ ∨
      (c.onMessage rtc (some msg)).2 = (c₁.handle rtc (some msg)).2 := by
  unfold onMessage
  cases e <;> simp only [threw, true_or, or_true]

/-- What changes nothing changes nothing when it is done twice. -/
theorem onMessage_throws_same {e : ClientFault} (threw : c.tryBlock rtc (some msg) = (.error e, c))
    (again : (c.handle rtc (some msg)).2 = c) : (c.onMessage rtc (some msg)).2 = c := by
  rcases onMessage_throws threw with same | same
  · exact same
  · exact same.trans again

/-- An error cleans up after a call that has been asked for. -/
theorem onMessage_error_change (typed : msg.stringMember "type" = some (ascii "error")) :
    Change c (messageKind rtc c msg) (c.onMessage rtc (some msg)).2 := by
  have value : msg.value "type" Json.getString [] = .ok (ascii "error") :=
    Json.value_of_stringMember typed []
  have handled := @handle_of_error rtc c msg typed
  simp only [messageKind, typed, ↓reduceIte]
  rcases handleError_eq c msg with printed | ⟨e, threw⟩
  · simp only [onMessage, tryBlock, value, convert_ok, handled, printed, true_and, ↓reduceIte]
    split
    · exact .cleansUp c.session.call
    · exact .same
  · have block : c.tryBlock rtc (some msg) = (.error (.json e), c) := by
      simp only [tryBlock, value, convert_ok, handled, threw, ↓reduceIte]
    simp only [threw, reduceCtorEq, false_and, ↓reduceIte]
    rw [onMessage_throws_same block (by rw [handled, threw])]
    exact .same

/-- The end of a call cleans up after it. -/
theorem onMessage_over_change {type : Bytes} (typed : msg.stringMember "type" = some type)
    (ends : type = ascii "call.ended" ∨ type = ascii "call.failed") :
    Change c (messageKind rtc c msg) (c.onMessage rtc (some msg)).2 := by
  have value : msg.value "type" Json.getString [] = .ok type :=
    Json.value_of_stringMember typed []
  have handled := @handle_of_over rtc c msg type typed ends
  have notError : type ≠ ascii "error" := by rcases ends with rfl | rfl <;> decide
  have notConfig : type ≠ ascii "rtc.config" := by rcases ends with rfl | rfl <;> decide
  simp only [messageKind, typed, notError, notConfig, ends, ↓reduceIte]
  rcases handleCallOver_eq c msg with ended | ⟨e, threw⟩
  · simp only [onMessage, tryBlock, value, convert_ok, handled, ended, notError, notConfig, ends,
      ↓reduceIte]
    exact .cleansUp {}
  · have block : c.tryBlock rtc (some msg) = (.error (.json e), c) := by
      simp only [tryBlock, value, convert_ok, handled, threw, notError, notConfig, ends, ↓reduceIte]
    simp only [threw, reduceCtorEq, ↓reduceIte]
    rw [onMessage_throws_same block (by rw [handled, threw])]
    exact .same

/-- What `initRtc` makes, or leaves when it throws. -/
theorem startRtc_client (rtc : Rtc) (c : Client) :
    (c.startRtc rtc).2 = if rtc.init c.session.turnConfig then
        { c with
          callCleanupDone := false, pc := some ⟨true⟩, sdpHandler := true, iceHandler := true
          callbacks := true, capture := some true, playback := some false }
      else { c with
        callCleanupDone := false, pc := some ⟨false⟩, sdpHandler := false
        iceHandler := false } := by
  cases made : rtc.init c.session.turnConfig with
  | false => simp [startRtc, initRtc, made]
  | true =>
    simp only [startRtc, initRtc, made, Bool.not_true, Bool.false_eq_true, ↓reduceIte]
    split
    · exact viaPeer_client _ _ _
    · rfl

/-- When the `try` block of a configuration throws, what follows changes no more than the
servers. -/
theorem onMessage_throws_configured {e : ClientFault} {c₁ : Client}
    (typed : msg.stringMember "type" = some (ascii "rtc.config"))
    (threw : c.tryBlock rtc (some msg) = (.error e, c₁)) :
    Configured c₁ (c.onMessage rtc (some msg)).2 := by
  have handled : c₁.handle rtc (some msg) = c₁.handleRtcConfig msg := by
    simp only [handle, typed]
    rfl
  rcases onMessage_throws threw with same | same
  · rw [same]
    exact .refl c₁
  · rw [same, handled]
    exact handleRtcConfig_configured c₁ msg

/-- A configuration makes `initRtc` run, and is handled once more if that throws. -/
theorem onMessage_config_change (typed : msg.stringMember "type" = some (ascii "rtc.config")) :
    Change c (messageKind rtc c msg) (c.onMessage rtc (some msg)).2 := by
  have value : msg.value "type" Json.getString [] = .ok (ascii "rtc.config") :=
    Json.value_of_stringMember typed []
  have handled := @handle_of_config rtc c msg typed
  have notError : ascii "rtc.config" ≠ ascii "error" := by decide
  have configured := handleRtcConfig_configured c msg
  simp only [messageKind, typed, notError, ↓reduceIte]
  cases stored : c.handleRtcConfig msg with
  | mk result c₁ =>
    rw [stored] at configured
    obtain ⟨turnConfig, rfl⟩ := configured
    cases result with
    | error e =>
      have block : c.tryBlock rtc (some msg) = (.error e, c.setTurnConfig turnConfig) := by
        simp only [tryBlock, value, convert_ok, handled, stored, notError, ↓reduceIte]
      obtain ⟨turnConfig', last⟩ := onMessage_throws_configured typed block
      rw [last]
      exact .keeps { c.session with turnConfig := turnConfig' } c.playback (.inl rfl)
    | ok _ =>
      have made := startRtc_client rtc (c.setTurnConfig turnConfig)
      -- With or without an exception, only the servers can still change.
      have last : Configured ((c.setTurnConfig turnConfig).startRtc rtc).2
          (c.onMessage rtc (some msg)).2 := by
        cases started : (c.setTurnConfig turnConfig).startRtc rtc with
        | mk result c₂ =>
          cases result with
          | error e =>
            refine onMessage_throws_configured (e := e) typed ?_
            simp only [tryBlock, value, convert_ok, handled, stored, started, notError, ↓reduceIte]
          | ok _ =>
            simp only [onMessage, tryBlock, value, convert_ok, handled, stored, started, notError,
              ↓reduceIte]
            exact .refl c₂
      obtain ⟨turnConfig', last⟩ := last
      rw [last, made]
      dsimp only
      cases rtc.init (c.setTurnConfig turnConfig).session.turnConfig with
      | true => exact .setsUp { c.session with turnConfig := turnConfig' } rfl
      | false => exact .setupFails { c.session with turnConfig := turnConfig' } rfl

/-- Every other message changes the session at most, and does not end a call. -/
theorem onMessage_other_change {type : Bytes} (typed : msg.stringMember "type" = some type)
    (other : type ∉ [ascii "error", ascii "rtc.config", ascii "call.ended", ascii "call.failed"]) :
    Change c (messageKind rtc c msg) (c.onMessage rtc (some msg)).2 := by
  have only : c.onMessage rtc (some msg) = c.handle rtc (some msg) :=
    onMessage_eq_handle typed other
  simp only [List.mem_cons, List.not_mem_nil, or_false, not_or] at other
  obtain ⟨notError, notConfig, notEnded, notFailed⟩ := other
  simp only [messageKind, typed, notError, notConfig, notEnded, notFailed, or_self, ↓reduceIte]
  by_cases relayed : SignalingScope.relayed msg
  · rw [onMessage_relayed rtc c relayed]
    exact .same
  simp only [SignalingScope.relayed, typed, Option.some.injEq, not_or] at relayed
  obtain ⟨notOffer, notAnswer, notIce⟩ := relayed
  rw [only]
  simp only [handle, typed, notError, notConfig, notEnded, notFailed, notOffer, notAnswer, notIce,
    ↓reduceIte]
  split
  · -- An incoming call makes the client ring.
    unfold handleCallIncoming
    cases msg.value "callId" Json.getString [] with
    | error e => exact .same
    | ok callId =>
      cases msg.value "from" Json.getString [] with
      | error e => exact .same
      | ok caller => exact .keeps _ c.playback (.inr (by simp))
  · split
    · unfold handleCallCreated
      cases msg.value "callId" Json.getString [] with
      | error e => exact .same
      | ok callId => exact .keeps _ c.playback (.inl rfl)
    · exact .same

theorem onMessage_change (rtc : Rtc) (c : Client) (msg : Json) :
    Change c (messageKind rtc c msg) (c.onMessage rtc (some msg)).2 := by
  cases typed : msg.stringMember "type" with
  | none =>
    rw [onMessage_untyped typed, messageKind, typed]
    exact .same
  | some type =>
    by_cases error : type = ascii "error"
    · exact onMessage_error_change (typed.trans (congrArg some error))
    by_cases config : type = ascii "rtc.config"
    · exact onMessage_config_change (typed.trans (congrArg some config))
    by_cases ends : type = ascii "call.ended" ∨ type = ascii "call.failed"
    · exact onMessage_over_change typed ends
    · refine onMessage_other_change typed ?_
      simpa [error, config] using ends

/-! ## Commands -/

variable {http : HttpClient} {args : List Bytes} {name : Bytes}

theorem login_call (s : Session) : (Commands.login http args s).2.1.call = s.call := by
  unfold Commands.login
  split
  · split
    · rfl
    · split
      · rfl
      · split
        · rfl
        · split
          · rfl
          · split
            · rfl
            · dsimp only
              split <;> rfl
  · rfl

theorem call_continues (s : Session) : Continues s (Commands.call args s).2.1 := by
  unfold Commands.call
  cases args with
  | nil => exact .inl rfl
  | cons callee _ =>
    simp only
    split
    · exact .inl rfl
    · split
      · exact .inl rfl
      · split
        · exact .inl rfl
        · exact .inr (by simp)

theorem accept_continues (s : Session) : Continues s (Commands.accept s).2.1 := by
  unfold Commands.accept
  split
  · exact .inl rfl
  · exact .inr (by simp)

theorem setMuted_state (muted : Bool) (already done : String) (s : Session) :
    (Commands.setMuted muted already done s).2.1.call.state = s.call.state := by
  unfold Commands.setMuted
  split
  · rfl
  · split <;> rfl

theorem record_call (s : Session) : (Commands.record args s).2.1.call = s.call := by
  unfold Commands.record
  cases args with
  | nil => rfl
  | cons filename _ =>
    simp only
    split
    · rfl
    · split <;> rfl

theorem stop_call (s : Session) : (Commands.stop s).2.1.call = s.call := by
  unfold Commands.stop
  split <;> rfl

theorem sendfile_session (s : Session) : (Commands.sendfile args s).2.1 = s := by
  unfold Commands.sendfile
  cases args with
  | nil => rfl
  | cons filename _ =>
    simp only
    split
    · rfl
    · split <;> rfl

theorem register_session (s : Session) : (Commands.register http args s).2.1 = s := by
  unfold Commands.register
  split
  · split
    · rfl
    · split <;> rfl
  · rfl

theorem commandKind_eq_resets {s : Session} : commandKind s name = .resets ↔
    name = ascii "reject" ∧ s.call.state = .ringing ∨
      (name = ascii "hangup" ∨ Repl.quits name) ∧ s.isInCall := by
  unfold commandKind
  split
  · rename_i ends
    exact iff_of_true rfl ends
  · rename_i other
    exact iff_of_false (by simp) other

theorem commandKind_cases (s : Session) (name : Bytes) :
    commandKind s name = .resets ∨ commandKind s name = .keeps := by
  unfold commandKind
  split
  · exact .inl rfl
  · exact .inr rfl

/-- A command that does not reset the call. -/
theorem command_continues {s : Session} (other : commandKind s name ≠ .resets) :
    Continues s (Repl.dispatch http name args s).2.1 := by
  rw [Ne, commandKind_eq_resets] at other
  let Good (command : Command) : Prop := Continues s (command s).2.1
  have reject (named : name = ascii "reject") : Good Commands.reject := by
    have quiet : s.call.state ≠ .ringing := fun ringing => other (.inl ⟨named, ringing⟩)
    exact .inl (by rw [Commands.reject, if_pos quiet]; rfl)
  have hangup (named : name = ascii "hangup") : Good Commands.hangup := by
    have idle : ¬ s.isInCall = true := fun busy => other (.inr ⟨.inl named, busy⟩)
    exact .inl (by rw [Commands.hangup, if_pos (by simpa using idle)]; rfl)
  have quit (named : Repl.quits name = true) : Good Commands.quit := by
    have idle : ¬ s.isInCall = true := fun busy => other (.inr ⟨.inr named, busy⟩)
    exact .inl (by rw [Commands.quit, if_neg idle])
  show Good (Repl.dispatch http name args)
  unfold Repl.dispatch
  refine iteInduction (fun _ => .inl (congrArg CallContext.state (login_call s))) fun _ => ?_
  refine iteInduction (fun _ => call_continues s) fun _ => ?_
  refine iteInduction (fun _ => accept_continues s) fun _ => ?_
  refine iteInduction reject fun _ => ?_
  refine iteInduction hangup fun _ => ?_
  refine iteInduction (fun _ => .inl (setMuted_state _ _ _ s)) fun _ => ?_
  refine iteInduction (fun _ => .inl (setMuted_state _ _ _ s)) fun _ => ?_
  refine iteInduction (fun _ => .inl (congrArg CallContext.state (record_call s))) fun _ => ?_
  refine iteInduction (fun _ => .inl (by rw [register_session])) fun _ => ?_
  refine iteInduction (fun _ => .inl (congrArg CallContext.state (stop_call s))) fun _ => ?_
  refine iteInduction (fun _ => .inl (by rw [sendfile_session])) fun _ => ?_
  refine iteInduction (fun _ => .inl rfl) fun _ => ?_
  exact iteInduction quit fun _ => .inl rfl

theorem command_resets {s : Session} (ends : commandKind s name = .resets) :
    (Repl.dispatch http name args s).2.1 = { s with call := {} } := by
  rcases commandKind_eq_resets.mp ends with ⟨rfl, ringing⟩ | ⟨rfl | quits, busy⟩
  · have command : Repl.dispatch http (ascii "reject") args = Commands.reject := rfl
    rw [command, Commands.reject, if_neg (by simp [ringing])]
  · have command : Repl.dispatch http (ascii "hangup") args = Commands.hangup := rfl
    rw [command, Commands.hangup, if_neg (by simp [busy])]
  · have command : Repl.dispatch http name args = Commands.quit := by
      rcases of_decide_eq_true quits with rfl | rfl <;> rfl
    rw [command, Commands.quit, if_pos busy]

/-! ## Every step -/

theorem processLine_change (p : Program) (http : HttpClient) (line : Bytes) :
    Change p.client (lineKind p.client.session line) (p.processLine http line).1.client := by
  unfold Program.processLine lineKind
  cases Repl.parse line with
  | nil => exact .same
  | cons name args =>
    simp only
    by_cases ends : commandKind p.client.session name = .resets
    · rw [ends, command_resets ends]
      exact .resets
    · rw [(commandKind_cases p.client.session name).resolve_left ends]
      exact .keeps _ p.client.playback (command_continues ends)

theorem message_client (p : Program) (rtc : Rtc) (raw : Option Json) :
    (p.onMessage rtc raw).client = (p.client.onMessage rtc raw).2 := by
  unfold Program.onMessage
  split <;> rename_i outcome <;> rw [outcome]

/-- **What one step does to the client.** -/
theorem step_change (p : Program) (input : ClientInput) :
    Change p.client (kindOf p input) (p.step input).1.client := by
  unfold kindOf Program.step
  cases p.runs with
  | false => exact .same
  | true =>
    simp only [Bool.not_true, Bool.false_eq_true, ↓reduceIte]
    cases input with
    | line http line =>
      by_cases reading : p.stage = .reading
      · simp only [reading, ↓reduceIte]
        exact processLine_change p http line
      · simp only [reading, ↓reduceIte]
        exact .same
    | endOfInput => exact .same
    | message rtc raw =>
      simp only [message_client]
      cases raw with
      | none => exact .same
      | some msg => exact onMessage_change rtc p.client msg
    | close =>
      simp only [onClose]
      cases p.client.session.isInCall with
      | false => exact .same
      | true => exact .cleansUp p.client.session.call
    | stateChange state =>
      cases p.client.connectionOpen with
      | false => cases state <;> exact .same
      | true =>
        cases state with
        | connected => exact .keeps _ p.client.playback (.inr (by simp))
        | failed => exact .cleansUp p.client.session.call
        | disconnected => exact .resets
        | new => exact .same
        | connecting => exact .same
        | closed => exact .same
    | track =>
      cases p.client.connectionOpen with
      | false => exact .same
      | true => exact .keeps p.client.session _ (.inl rfl)
    | signal =>
      simp only [signalHandler]
      cases p.client.session.isInCall with
      | false => exact .same
      | true => exact .resets
    | returns =>
      by_cases done : p.stage = .done
      · simp only [done, ↓reduceIte]
        exact .destroys
      · simp only [done, ↓reduceIte]
        exact .same

abbrev Step := Transition Program ClientInput (List Json)

def Step.kind (t : Step) : Kind := kindOf t.before t.input

theorem takes_change {t : Step} (taken : clientMachine.Takes t) :
    Change t.before.client t.kind t.after.client := by
  have after : t.before.step t.input = (t.after, t.output) := Except.ok.inj taken
  have changed := step_change t.before t.input
  rwa [after] at changed

/-! ## What always holds -/

/-- The client between two steps. -/
structure Sound (c : Client) : Prop where
  /-- The flag of `cleanupCall` is set only when there is nothing to clean up. -/
  cleaned : c.callCleanupDone = true →
    c.pc = none ∧ c.sdpHandler = false ∧ c.iceHandler = false ∧ c.capture ≠ some true
  /-- Both handlers are there or none. -/
  both : c.iceHandler = c.sdpHandler
  /-- They refer to a peer connection that is open. -/
  connected : c.sdpHandler = true → c.connectionOpen = true

theorem sound_init : Sound {} := by
  constructor <;> simp

/-- What `cleanupCall` leaves, whatever the flag says. -/
theorem Sound.cleanupCall (sound : Sound c) (call : CallContext) :
    (c.setCall call).cleanupCall.pc = none ∧ (c.setCall call).cleanupCall.sdpHandler = false ∧
      (c.setCall call).cleanupCall.iceHandler = false ∧
      (c.setCall call).cleanupCall.capture ≠ some true := by
  cases done : c.callCleanupDone with
  | true =>
    have same : (c.setCall call).cleanupCall = c.setCall call := if_pos done
    rw [same]
    exact sound.cleaned done
  | false =>
    simp only [Client.cleanupCall, setCall, done, Bool.false_eq_true, ↓reduceIte]
    cases c.capture <;> simp

theorem Sound.change {kind : Kind} (sound : Sound c) (change : Change c kind c') : Sound c' := by
  cases change with
  | setsUp session same => constructor <;> simp [connectionOpen]
  | setupFails session same => constructor <;> simp
  | cleansUp call =>
    obtain ⟨noPc, noSdp, noIce, quiet⟩ := sound.cleanupCall call
    exact ⟨fun _ => ⟨noPc, noSdp, noIce, quiet⟩, noIce.trans noSdp.symm, by simp [noSdp]⟩
  | resets => exact ⟨sound.cleaned, sound.both, sound.connected⟩
  | destroys => constructor <;> simp [destroy]
  | keeps session playback continues => exact ⟨sound.cleaned, sound.both, sound.connected⟩

theorem sound_of_reachable {p : Program} (reached : Reachable clientMachine p) :
    Sound p.client := by
  obtain ⟨ts, run⟩ := reached
  exact run.invariant (fun p => Sound p.client) sound_init
    fun t sound taken => sound.change (takes_change taken)

end Zaza.ClientSteps
