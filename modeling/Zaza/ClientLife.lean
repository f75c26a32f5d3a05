import Zaza.ClientSteps

/-!
The objects of a call over whole runs of the client.

`initRtc` makes them and sets the handler's callbacks, which stay set when
`cleanupCall` drops the objects. A signal that arrives then finds nothing. And the
session forgets its call in more places than `cleanupCall` is called from: where it does,
the peer connection stays open and the microphone on.
-/
namespace Zaza.ClientLife
open Zaza CallManager CallInvariant CallLife Client ClientSafety ClientSteps

variable {rtc : Rtc} {c c' : Client} {msg : Json} {p : Program} {t : Step} {ts : List Step}

/-! ## Signals -/

/-- A call of one of the callbacks `initRtc` gives to the message handler. -/
inductive Callback where
  | offer (sdp : Bytes)
  | answer (sdp : Bytes)
  | ice (candidate mid : Bytes) (mlineindex : Int32)

/-- What the callback does. -/
def invoke (rtc : Rtc) (c : Client) : Callback → Outcome Unit
  | .offer sdp => c.handleOffer rtc sdp
  | .answer sdp => c.handleAnswer rtc sdp
  | .ice candidate mid _ => c.handleRemoteCandidate rtc candidate mid

/-- Which callback is called for a candidate: all three arguments have to convert. -/
def iceCallback (msg : Json) : Option Callback :=
  match msg.stringMember "candidate", msg.value "mid" Json.getString [],
    msg.value "mlineindex" Json.getInt 0 with
  | some candidate, .ok mid, .ok mlineindex => some (.ice candidate mid mlineindex)
  | _, _, _ => none

/-- Which callback the message handler calls, if any. -/
def calledBack (c : Client) (msg : Json) : Option Callback :=
  if !c.callbacks then none
  else if msg.stringMember "type" = some (ascii "webrtc.offer") then
    if c.session.call.isCaller then none else (msg.stringMember "sdp").map .offer
  else if msg.stringMember "type" = some (ascii "webrtc.answer") then
    if c.session.call.isCaller then (msg.stringMember "sdp").map .answer else none
  else if msg.stringMember "type" = some (ascii "webrtc.ice") then iceCallback msg
  else none

/-- What the callbacks refer to is there. -/
def ObjectsThere (c : Client) : Prop :=
  c.sdpHandler = true ∧ c.iceHandler = true ∧ c.pc.isSome = true

instance (c : Client) : Decidable (ObjectsThere c) := inferInstanceAs (Decidable (_ ∧ _))

theorem objectsThere_iff (sound : Sound c) : ObjectsThere c ↔ c.sdpHandler = true := by
  constructor
  · exact fun there => there.1
  · intro there
    have isOpen := sound.connected there
    refine ⟨there, sound.both.trans there, ?_⟩
    cases held : c.pc with
    | none => simp [connectionOpen, held] at isOpen
    | some pc => rfl

theorem viaPeer_undefined {handler accepts : Bool} :
    (c.viaPeer handler accepts).1 = .error .undefined ↔ handler = false ∨ c.pc = none := by
  unfold viaPeer
  cases handler with
  | false => simp
  | true =>
    cases c.pc with
    | none => simp
    | some pc => cases live : pc.live <;> cases accepts <;> simp [live]

theorem invoke_undefined (sound : Sound c) (callback : Callback) :
    (invoke rtc c callback).1 = .error .undefined ↔ ¬ ObjectsThere c := by
  have handlers : (c.sdpHandler = false ∨ c.pc = none) ↔ ¬ ObjectsThere c := by
    rw [objectsThere_iff sound]
    constructor
    · rintro (absent | absent) there
      · simp [absent] at there
      · simpa [connectionOpen, absent] using sound.connected there
    · exact fun absent => .inl (by simpa using absent)
  cases callback with
  | offer sdp => exact viaPeer_undefined.trans handlers
  | answer sdp => exact viaPeer_undefined.trans handlers
  | ice candidate mid index =>
    refine viaPeer_undefined.trans ?_
    rw [sound.both]
    exact handlers

/-- A description reaches its callback, or ends with a harmless exception at worst. -/
theorem handleSdp_cases (c : Client) (msg : Json) (dropped : Bool)
    (callback : Bytes → Outcome Unit) :
    (c.callbacks = true ∧ dropped = false ∧ ∃ sdp, msg.stringMember "sdp" = some sdp ∧
      c.handleSdp msg dropped callback = callback sdp) ∨
    ((c.callbacks = false ∨ dropped = true ∨ msg.stringMember "sdp" = none) ∧
      (c.handleSdp msg dropped callback).1 ≠ .error .undefined) := by
  unfold handleSdp
  cases found : msg.member "sdp" with
  | none => exact .inr ⟨.inr (.inr (by simp [Json.stringMember, found])), by simp⟩
  | some value =>
    cases dropped with
    | true => exact .inr ⟨.inr (.inl rfl), by simp⟩
    | false =>
      cases installed : c.callbacks with
      | false => exact .inr ⟨.inl rfl, by simp⟩
      | true =>
        cases value with
        | string sdp => exact .inl ⟨rfl, rfl, sdp, by simp [Json.stringMember, found], rfl⟩
        | _ => exact .inr ⟨.inr (.inr (by simp [Json.stringMember, found])),
            by simp [convert, Json.getString]⟩

theorem handleWebrtcIce_cases (installed : c.callbacks = true) :
    (∃ callback, iceCallback msg = some callback ∧
      c.handleWebrtcIce rtc msg = invoke rtc c callback) ∨
    (iceCallback msg = none ∧ (c.handleWebrtcIce rtc msg).1 ≠ .error .undefined) := by
  unfold handleWebrtcIce iceCallback
  simp only [installed, ↓reduceIte]
  cases found : msg.member "candidate" with
  | none => exact .inr (by simp [Json.stringMember, found])
  | some value =>
    cases value with
    | string candidate =>
      simp only [Json.stringMember, found, Json.getString, convert_ok]
      cases msg.value "mid" (fun j => j.getString) [] with
      | error e => exact .inr (by simp [convert])
      | ok mid =>
        cases msg.value "mlineindex" Json.getInt 0 with
        | error e => exact .inr (by simp [convert])
        | ok mlineindex => exact .inl ⟨.ice candidate mid mlineindex, rfl, rfl⟩
    | _ => exact .inr (by simp [Json.stringMember, found, convert, Json.getString])

/-- What becomes of signaling from the peer. -/
theorem onMessage_signal (rtc : Rtc) (c : Client) (type : SignalingScope.relayed msg) :
    (∃ callback, calledBack c msg = some callback ∧
      c.onMessage rtc (some msg) = invoke rtc c callback) ∨
    (calledBack c msg = none ∧ (c.onMessage rtc (some msg)).1 ≠ .error .undefined) := by
  have offerOther : some (ascii "webrtc.answer") ≠ some (ascii "webrtc.offer") := by decide
  have iceOther : some (ascii "webrtc.ice") ≠ some (ascii "webrtc.offer") ∧
      some (ascii "webrtc.ice") ≠ some (ascii "webrtc.answer") := by decide
  unfold calledBack
  rcases type with offer | answer | ice
  · rw [onMessage_offer offer, handleWebrtcOffer]
    rcases handleSdp_cases c msg c.session.call.isCaller (c.handleOffer rtc) with
      ⟨installed, callee, sdp, found, reached⟩ | ⟨absent, harmless⟩
    · exact .inl ⟨.offer sdp, by simp [installed, offer, callee, found], reached⟩
    · exact .inr ⟨by rcases absent with absent | absent | absent <;> simp [offer, absent], harmless⟩
  · rw [onMessage_answer answer, handleWebrtcAnswer]
    rcases handleSdp_cases c msg (!c.session.call.isCaller) (c.handleAnswer rtc) with
      ⟨installed, caller, sdp, found, reached⟩ | ⟨absent, harmless⟩
    · have caller : c.session.call.isCaller = true := by simpa using caller
      exact .inl ⟨.answer sdp, by simp [installed, answer, offerOther, caller, found], reached⟩
    · exact .inr ⟨by rcases absent with absent | absent | absent <;> simp_all, harmless⟩
  · rw [onMessage_ice ice]
    cases installed : c.callbacks with
    | false =>
      refine .inr ⟨by simp, ?_⟩
      unfold handleWebrtcIce
      cases msg.member "candidate" <;> simp [installed]
    | true =>
      simp only [Bool.not_true, Bool.false_eq_true, ↓reduceIte, ice, iceOther.1, iceOther.2]
      exact handleWebrtcIce_cases installed

/-- **Signaling goes wrong exactly when it is called back without the objects.** -/
theorem signal_undefined_iff (sound : Sound c) (type : SignalingScope.relayed msg) :
    (c.onMessage rtc (some msg)).1 = .error .undefined ↔
      (calledBack c msg).isSome = true ∧ ¬ ObjectsThere c := by
  rcases onMessage_signal rtc c type with ⟨callback, called, reached⟩ | ⟨uncalled, harmless⟩
  · rw [called, reached, invoke_undefined sound]
    simp
  · rw [uncalled]
    simpa using harmless

/-- The client with nothing behind its callbacks. -/
def withoutObjects (c : Client) : Client :=
  { c with sdpHandler := false, iceHandler := false, pc := none }

/-- Signaling goes to the handler as it is. -/
theorem handle_relayed (rtc : Rtc) (c : Client) (type : SignalingScope.relayed msg) :
    c.handle rtc (some msg) = c.onMessage rtc (some msg) := by
  rcases type with offer | answer | ice
  · exact (onMessage_eq_handle offer (by decide)).symm
  · exact (onMessage_eq_handle answer (by decide)).symm
  · exact (onMessage_eq_handle ice (by decide)).symm

/-- Signaling reaches a callback exactly if it goes wrong for want of what is behind it. -/
theorem calledBack_isSome_iff (rtc : Rtc) (c : Client) (type : SignalingScope.relayed msg) :
    (calledBack c msg).isSome = true ↔
      ((withoutObjects c).handle rtc (some msg)).1 = .error .undefined := by
  have same : calledBack (withoutObjects c) msg = calledBack c msg := rfl
  have missing : ∀ callback, (invoke rtc (withoutObjects c) callback).1 = .error .undefined := by
    rintro (sdp | sdp | ⟨candidate, mid, index⟩) <;> exact viaPeer_undefined.mpr (.inl rfl)
  rw [handle_relayed rtc _ type, ← same]
  rcases onMessage_signal rtc (withoutObjects c) type with
    ⟨callback, called, reached⟩ | ⟨uncalled, harmless⟩
  · rw [called, reached, missing]
    simp
  · rw [uncalled]
    simpa using harmless

/-! ## Late signaling -/

/-- Which callback a step calls, if any. -/
def callbackOf (t : Step) : Option Callback :=
  match t.input with
  | .message _ (some msg) => if t.before.runs then calledBack t.before.client msg else none
  | _ => none

/-- `initRtc` makes the objects. -/
def SetsUp (t : Step) : Prop := t.kind = .setsUp

/-- The objects are dropped: by `cleanupCall`, by an `initRtc` that throws, or by the end
of `main`. -/
def TearsDown (t : Step) : Prop :=
  t.kind = .setupFails ∨ t.kind = .cleansUp ∨ t.kind = .destroys

theorem objectsThere_change {kind : Kind} (sound : Sound c) (change : Change c kind c') :
    ObjectsThere c' ↔ kind = .setsUp ∨
      ObjectsThere c ∧ ¬ (kind = .setupFails ∨ kind = .cleansUp ∨ kind = .destroys) := by
  rw [objectsThere_iff sound, objectsThere_iff (sound.change change)]
  cases change with
  | setsUp session same => simp
  | setupFails session same => simp
  | cleansUp call => simp [(sound.cleanupCall call).2.1]
  | resets => simp [setCall]
  | destroys => simp [destroy]
  | keeps session playback continues => simp

/-- The objects are there exactly if they have been made and not been dropped since. -/
theorem objectsThere_iff_since (run : Run clientMachine ts p) :
    ObjectsThere p.client ↔ Since SetsUp TearsDown ts :=
  run.holds_iff_since (fun p => ObjectsThere p.client) SetsUp TearsDown
    (by simp [ObjectsThere, clientMachine])
    fun _ reached taken => objectsThere_change (sound_of_reachable reached) (takes_change taken)

/-- **Late signaling**: along a run every callback finds its objects, exactly if none is
called but when a configuration has set the call up and nothing has torn it down since. -/
theorem callbacks_find_objects_iff (run : Run clientMachine ts p) :
    (∀ t ∈ ts, (callbackOf t).isSome = true → ObjectsThere t.before.client) ↔
      ∀ earlier t, earlier ++ [t] <+: ts → (callbackOf t).isSome = true →
        Since SetsUp TearsDown earlier := by
  constructor
  · rintro found earlier t ⟨later, rfl⟩ called
    rw [List.append_assoc] at run found
    have there := found t (by simp) called
    exact (objectsThere_iff_since run.split.1).mp there
  · intro inTime t member called
    obtain ⟨earlier, before, inside, _⟩ := run.history member
    exact (objectsThere_iff_since before).mpr (inTime earlier t inside called)

/-- A server that bob has an account at. -/
def bobsServer : HttpClient where
  post _ _ :=
    .ok ⟨200, ascii "\x7b\"token\":\"t\",\"userId\":\"bob\"\x7d",
      .ok (.object [(ascii "token", .text "t"), (ascii "userId", .text "bob")])⟩
  what _ := []

/-- Bob logs in, and takes up alice's call. -/
def takesCallUp : List ClientInput :=
  let callId := generateUuid (1, 1)
  [.line bobsServer (ascii "login bob secret"),
    .message acceptAll (some (Router.callIncoming callId (ascii "alice"))),
    .line bobsServer (ascii "accept"),
    .message acceptAll (some (Router.rtcConfig deployed 1700000000 (ascii "bob") callId))]

/-- One of alice's candidates. -/
def alicesCandidate : ClientInput :=
  .message acceptAll (some (.object [(ascii "type", .text "webrtc.ice"),
    (ascii "callId", .string (generateUuid (1, 1))), (ascii "candidate", .text "candidate:1")]))

/-- Alice hangs up. -/
def aliceHangsUp : ClientInput :=
  .message acceptAll (some (Router.callEnded (generateUuid (1, 1)) "hangup"))

theorem callbacks_find_objects_iff_in_call : ∃ ts p, Run clientMachine ts p ∧
    (∃ t ∈ ts, (callbackOf t).isSome = true) ∧
    ∀ earlier t, earlier ++ [t] <+: ts → (callbackOf t).isSome = true →
      Since SetsUp TearsDown earlier := by
  obtain ⟨ts, p, run, check⟩ := Run.of_exec clientMachine (takesCallUp ++ [alicesCandidate])
    (fun ts _ => (∃ t ∈ ts, (callbackOf t).isSome = true) ∧
      ∀ t ∈ ts, (callbackOf t).isSome = true → ObjectsThere t.before.client) (by decide +kernel)
  obtain ⟨called, found⟩ := of_decide_eq_true check
  exact ⟨ts, p, run, called, (callbacks_find_objects_iff run).mp found⟩

/-- Alice's candidate arrives after the call has ended. -/
theorem late_candidate_finds_nothing : ¬ ∀ ts p, Run clientMachine ts p →
    ∀ t ∈ ts, (callbackOf t).isSome = true → ObjectsThere t.before.client := by
  intro all
  obtain ⟨ts, p, run, check⟩ := Run.of_exec clientMachine
    (takesCallUp ++ [aliceHangsUp, alicesCandidate])
    (fun ts _ => ∃ t ∈ ts, (callbackOf t).isSome = true ∧ ¬ ObjectsThere t.before.client)
    (by decide +kernel)
  obtain ⟨t, member, called, absent⟩ := of_decide_eq_true check
  exact absent (all ts p run t member called)

/-! ## Media -/

/-- No peer connection is open, and the microphone is off. -/
def Quiet (c : Client) : Prop := c.connectionOpen = false ∧ c.capture ≠ some true

instance (c : Client) : Decidable (Quiet c) := inferInstanceAs (Decidable (_ ∧ _))

def QuietWhenIdle (c : Client) : Prop := c.session.call.state = .idle → Quiet c

/-- The call is reset without `cleanupCall` only when there is nothing to clean up, and set
up only when there is one. -/
def EndsQuietly (t : Step) : Prop :=
  (t.kind = .resets → Quiet t.before.client) ∧
    (t.kind = .setsUp → t.before.client.session.call.state ≠ .idle)

instance (t : Step) : Decidable (EndsQuietly t) := inferInstanceAs (Decidable (_ ∧ _))

/-- **One step**, from a state that is quiet when idle. -/
theorem quietWhenIdle_change {kind : Kind} (sound : Sound c) (quiet : QuietWhenIdle c)
    (change : Change c kind c') : QuietWhenIdle c' ↔
      (kind = .resets → Quiet c) ∧ (kind = .setsUp → c.session.call.state ≠ .idle) := by
  cases change with
  | setsUp session same => simp [QuietWhenIdle, Quiet, connectionOpen, same]
  | setupFails session same =>
    refine iff_of_true (fun idle => ?_) (by simp)
    have before := quiet (same ▸ idle)
    exact ⟨rfl, before.2⟩
  | cleansUp call =>
    obtain ⟨noPc, _, _, off⟩ := sound.cleanupCall call
    refine iff_of_true (fun _ => ⟨?_, off⟩) (by simp)
    rw [connectionOpen, noPc]
    rfl
  | resets =>
    have idle : (c.setCall {}).session.call.state = .idle := rfl
    constructor
    · exact fun after => ⟨fun _ => after idle, by simp⟩
    · exact fun before _ => before.1 rfl
  | destroys => exact iff_of_true (fun _ => ⟨rfl, by simp [destroy]⟩) (by simp)
  | keeps session playback continues =>
    refine iff_of_true (fun idle => ?_) (by simp)
    rcases continues with same | busy
    · exact quiet (same.symm.trans idle)
    · exact absurd idle busy

/-- **No media outside a call**: along a run the client is quiet whenever it is idle, exactly
if no step resets the call and leaves its objects, and none sets up objects without a
call. -/
theorem quiet_when_idle_iff (run : Run clientMachine ts p) :
    (∀ earlier p', earlier <+: ts → Run clientMachine earlier p' → QuietWhenIdle p'.client) ↔
      ∀ t ∈ ts, EndsQuietly t := by
  have steps := run.always_iff (fun _ p => QuietWhenIdle p.client) (fun _ t => EndsQuietly t)
    (fun _ => ⟨rfl, by simp [clientMachine]⟩) fun earlier t before taken quiet =>
      quietWhenIdle_change (sound_of_reachable ⟨earlier, before⟩) quiet (takes_change taken)
  rw [steps]
  constructor
  · intro meets t member
    obtain ⟨earlier, _, inside, _⟩ := run.history member
    exact meets earlier t inside
  · exact fun meets earlier t inside => meets t (inside.subset (by simp))

/-- Alice hangs up, and bob's microphone is turned off. -/
theorem quiet_when_idle_iff_other_hangs_up : ∃ ts p, Run clientMachine ts p ∧
    (∃ t ∈ ts, t.before.client.capture = some true) ∧ p.client.session.call.state = .idle ∧
    ∀ earlier p', earlier <+: ts → Run clientMachine earlier p' → QuietWhenIdle p'.client := by
  obtain ⟨ts, p, run, check⟩ := Run.of_exec clientMachine
    (takesCallUp ++ [.stateChange .connected, aliceHangsUp])
    (fun ts p => (∃ t ∈ ts, t.before.client.capture = some true) ∧
      p.client.session.call.state = .idle ∧ ∀ t ∈ ts, EndsQuietly t) (by decide +kernel)
  obtain ⟨captured, idle, meets⟩ := of_decide_eq_true check
  exact ⟨ts, p, run, captured, idle, (quiet_when_idle_iff run).mpr meets⟩

/-- Bob hangs up himself, and it stays on. -/
theorem hangup_leaves_microphone_on : ¬ ∀ ts p, Run clientMachine ts p →
    QuietWhenIdle p.client := by
  intro all
  obtain ⟨ts, p, run, check⟩ := Run.of_exec clientMachine
    (takesCallUp ++ [.stateChange .connected, .line bobsServer (ascii "hangup")])
    (fun _ p => p.client.session.call.state = .idle ∧ p.client.connectionOpen = true ∧
      p.client.capture = some true) (by decide +kernel)
  obtain ⟨idle, _, on⟩ := of_decide_eq_true check
  exact (all ts p run idle).2 on

end Zaza.ClientLife
