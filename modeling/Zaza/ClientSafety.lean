import Zaza.Client
import Zaza.SignalingScope

/-!
Which messages a client survives.

What the router makes itself is handled without an exception in every state of
the client (`returns_announced`). What it relays is the sender's own JSON: there
the client converts members to the types it expects, outside any `try`, and hands
them to objects that need not be there. `Tolerates` is what such a message must be
like for the client's state, and it is exact.
-/
namespace Zaza.ClientSafety
open Zaza CallManager CallInvariant CallLife Client

/-- The callback returns, without an exception or worse. -/
def Returns (rtc : Rtc) (c : Client) (msg : Json) : Prop :=
  (c.onMessage rtc (some msg)).1 = .ok ()

/-- The handler and its peer connection are there, and libdatachannel accepts. -/
def Reaches (c : Client) (handler accepts : Bool) : Prop :=
  handler = true ∧ ∃ pc, c.pc = some pc ∧ (pc.live = true → accepts = true)

/-- An offer or answer that is dropped, or whose `sdp` is a string that gets
through. -/
def ToleratesSdp (c : Client) (msg : Json) (dropped : Bool) (accepts : Bytes → Bool) : Prop :=
  msg.member "sdp" = none ∨ dropped = true ∨ c.callbacks = false ∨
    ∃ sdp, msg.member "sdp" = some (.string sdp) ∧ Reaches c c.sdpHandler (accepts sdp)

/-- A candidate that is dropped, or all of whose members have the types they should
and that gets through. -/
def ToleratesIce (rtc : Rtc) (c : Client) (msg : Json) : Prop :=
  msg.member "candidate" = none ∨ c.callbacks = false ∨
    ∃ candidate mid index, msg.member "candidate" = some (.string candidate) ∧
      msg.value "mid" Json.getString [] = .ok mid ∧
      msg.value "mlineindex" Json.getInt 0 = .ok index ∧
      Reaches c c.iceHandler (rtc.addRemoteCandidate candidate mid)

/-- What a message must be like for a client in a given state. -/
structure Tolerates (rtc : Rtc) (c : Client) (msg : Json) : Prop where
  offer : msg.stringMember "type" = some (ascii "webrtc.offer") →
    ToleratesSdp c msg c.session.call.isCaller rtc.applyOffer
  answer : msg.stringMember "type" = some (ascii "webrtc.answer") →
    ToleratesSdp c msg (!c.session.call.isCaller) rtc.applyAnswer
  ice : msg.stringMember "type" = some (ascii "webrtc.ice") → ToleratesIce rtc c msg

variable {rtc : Rtc} {c : Client} {msg : Json}

/-! ## Handlers -/

@[simp] theorem convert_ok (c : Client) (a : α) (act : α → Outcome β) :
    c.convert (.ok a) act = act a := rfl

/-- The type of a message picks its handler. -/
theorem handle_of_error (typed : msg.stringMember "type" = some (ascii "error")) :
    c.handle rtc (some msg) = c.handleError msg := by
  simp only [handle, typed]
  rfl

theorem handle_of_config (typed : msg.stringMember "type" = some (ascii "rtc.config")) :
    c.handle rtc (some msg) = c.handleRtcConfig msg := by
  simp only [handle, typed]
  rfl

theorem handle_of_over {type : Bytes} (typed : msg.stringMember "type" = some type)
    (ends : type = ascii "call.ended" ∨ type = ascii "call.failed") :
    c.handle rtc (some msg) = c.handleCallOver msg := by
  simp only [handle, typed]
  rcases ends with rfl | rfl <;> rfl

/-- A conversion followed by an action returns when both do. -/
theorem convert_returns {converted : Except JsonError α} {act : α → Outcome Unit} :
    (c.convert converted act).1 = .ok () ↔ ∃ a, converted = .ok a ∧ (act a).1 = .ok () := by
  cases converted with
  | error e => simp [convert]
  | ok a => simp [convert]

theorem viaPeer_returns {handler accepts : Bool} :
    (c.viaPeer handler accepts).1 = .ok () ↔ Reaches c handler accepts := by
  unfold viaPeer Reaches
  cases handler with
  | false => simp
  | true =>
    cases c.pc with
    | none => simp
    | some pc => cases live : pc.live <;> cases accepts <;> simp [live]

theorem getString_eq_ok {j : Json} : j.getString = .ok s ↔ j = .string s := by
  cases j <;> simp [Json.getString]

theorem sdp_returns {dropped : Bool} {accepts : Bytes → Bool} :
    (c.handleSdp msg dropped fun sdp => c.viaPeer c.sdpHandler (accepts sdp)).1 = .ok () ↔
      ToleratesSdp c msg dropped accepts := by
  unfold handleSdp ToleratesSdp
  cases msg.member "sdp" with
  | none => simp
  | some sdp =>
    cases dropped with
    | true => simp
    | false =>
      cases c.callbacks with
      | false => simp
      | true => simp [convert_returns, viaPeer_returns, getString_eq_ok]

theorem ice_returns : (c.handleWebrtcIce rtc msg).1 = .ok () ↔ ToleratesIce rtc c msg := by
  unfold handleWebrtcIce ToleratesIce
  cases msg.member "candidate" with
  | none => simp
  | some candidate =>
    cases c.callbacks with
    | false => simp
    | true =>
      simp only [↓reduceIte, convert_returns, handleRemoteCandidate, viaPeer_returns,
        getString_eq_ok, reduceCtorEq, Bool.true_eq_false, Option.some.injEq, false_or]
      constructor
      · rintro ⟨text, rfl, mid, hmid, index, hindex, reaches⟩
        exact ⟨text, mid, index, rfl, hmid, hindex, reaches⟩
      · rintro ⟨text, mid, index, rfl, hmid, hindex, reaches⟩
        exact ⟨text, rfl, mid, hmid, index, hindex, reaches⟩

/-! ## What the router makes -/

theorem onMessage_incoming (callId caller : Bytes) :
    c.onMessage rtc (some (Router.callIncoming callId caller)) =
      (.ok (), c.setCall { c.session.call with
        callId, remoteUser := caller, state := .ringing, isCaller := false }) := rfl

theorem onMessage_created (callId : Bytes) :
    c.onMessage rtc (some (Router.callCreated callId)) =
      (.ok (), c.setCall { c.session.call with callId }) := rfl

theorem onMessage_ended (callId : Bytes) (reason : String) :
    c.onMessage rtc (some (Router.callEnded callId reason)) =
      (.ok (), (c.setCall {}).cleanupCall) := rfl

theorem onMessage_failed (callId : Bytes) :
    c.onMessage rtc (some (Router.callFailed callId)) =
      (.ok (), (c.setCall {}).cleanupCall) := rfl

theorem onMessage_error (reason : Bytes) :
    c.onMessage rtc (some (Router.error reason)) =
      (.ok (), if c.session.call.state = .calling then c.cleanupCall else c) := rfl

theorem storeUrl_eq (c : Client) (u : Bytes) :
    ∃ turnConfig, c.storeUrl u = c.setTurnConfig turnConfig := by
  unfold storeUrl
  split
  · exact ⟨_, rfl⟩
  · split
    · exact ⟨_, rfl⟩
    · exact ⟨c.session.turnConfig, rfl⟩

/-- Both urls of a server are strings. -/
theorem storeUrls_pair (c : Client) (plain tls : Bytes) : ∃ turnConfig,
    storeUrls (elements (.array [.string plain, .string tls])) c =
      (.ok (), c.setTurnConfig turnConfig) := by
  obtain ⟨first, stored⟩ := storeUrl_eq c plain
  obtain ⟨second, stored'⟩ := storeUrl_eq (c.setTurnConfig first) tls
  refine ⟨second, ?_⟩
  simp only [elements, storeUrls, Json.getString, convert_ok, stored, stored']
  rfl

/-- A server with all the members it should have. -/
theorem storeServers_one {server : Json} {plain tls name password : Bytes}
    (named : server.contains "username" = true)
    (urls : server.member "urls" = some (.array [.string plain, .string tls]))
    (username : server.value "username" Json.getString [] = .ok name)
    (credential : server.value "credential" Json.getString [] = .ok password) (c : Client) :
    ∃ turnConfig, storeServers [server] c = (.ok (), c.setTurnConfig turnConfig) := by
  obtain ⟨turnConfig, stored⟩ := storeUrls_pair c plain tls
  simp only [storeServers, named, Bool.not_true, Bool.false_eq_true, ↓reduceIte, storeServer, urls,
    stored, username, credential, convert_ok]
  exact ⟨_, rfl⟩

/-- A configuration from the router has one such server. -/
theorem handle_rtcConfig (rtc : Rtc) (c : Client) (cfg : RouterConfig) (wall : Int)
    (userId callId : Bytes) :
    ∃ turnConfig, c.handle rtc (some (Router.rtcConfig cfg wall userId callId)) =
      (.ok (), c.setTurnConfig turnConfig) := by
  have type : (Router.rtcConfig cfg wall userId callId).stringMember "type" =
      some (ascii "rtc.config") := rfl
  have servers : (Router.rtcConfig cfg wall userId callId).member "iceServers" =
      some (.array [Routes.iceServer cfg.host cfg.turn wall userId]) := rfl
  rw [handle_of_config type]
  simp only [handleRtcConfig, servers]
  exact storeServers_one rfl rfl rfl rfl c

/-- Setting up a call leaves the session as it is, also when the setup throws. -/
theorem startRtc_frame (rtc : Rtc) (c : Client) : ∃ result c', c.startRtc rtc = (result, c') ∧
    result ≠ .error .undefined ∧ c'.session = c.session := by
  cases made : rtc.init c.session.turnConfig with
  | false =>
    have failed : c.startRtc rtc = (.error .rtc, { c with
        callCleanupDone := false, sdpHandler := false, iceHandler := false
        pc := some ⟨false⟩ }) := by
      simp [startRtc, initRtc, made]
    exact ⟨_, _, failed, by simp, rfl⟩
  | true =>
    have started : c.startRtc rtc = (if c.session.call.state = .calling ∧ rtc.createOffer = false
          then .error .rtc else .ok (), { c with
        callCleanupDone := false, sdpHandler := true, iceHandler := true, callbacks := true
        pc := some ⟨true⟩, capture := some true, playback := some false }) := by
      by_cases calling : c.session.call.state = .calling <;>
        cases offered : rtc.createOffer <;>
        simp [startRtc, initRtc, made, calling, startCall, viaPeer, offered]
    exact ⟨_, _, started, by split <;> simp, rfl⟩

/-- The configuration a call starts with changes the session's servers only, whatever
becomes of the setup. -/
theorem onMessage_rtcConfig (rtc : Rtc) (c : Client) (cfg : RouterConfig) (wall : Int)
    (userId callId : Bytes) :
    ∃ c', c.onMessage rtc (some (Router.rtcConfig cfg wall userId callId)) = (.ok (), c') ∧
      ∃ turnConfig, c'.session = { c.session with turnConfig } := by
  have type : (Router.rtcConfig cfg wall userId callId).value "type" Json.getString [] =
      .ok (ascii "rtc.config") := rfl
  obtain ⟨turnConfig, handled⟩ := handle_rtcConfig rtc c cfg wall userId callId
  obtain ⟨result, c₁, started, caught, kept⟩ := startRtc_frame rtc (c.setTurnConfig turnConfig)
  unfold onMessage tryBlock
  simp only [type, convert_ok, handled, started,
    show ascii "rtc.config" ≠ ascii "error" by decide, ↓reduceIte]
  cases result with
  | ok _ => exact ⟨c₁, rfl, turnConfig, kept⟩
  | error e =>
    -- The setup has thrown, and the message is handled once more.
    obtain ⟨turnConfig', handled'⟩ := handle_rtcConfig rtc c₁ cfg wall userId callId
    refine ⟨c₁.setTurnConfig turnConfig', ?_, turnConfig', by rw [setTurnConfig, kept]; rfl⟩
    cases e with
    | undefined => exact absurd rfl caught
    | parse => exact handled'
    | json e => exact handled'
    | rtc => exact handled'

/-- **What the router makes itself never harms a client.** -/
theorem returns_announced (event : CallEvent) (member : out ∈ announce cfg env callId event)
    (rtc : Rtc) (c : Client) : Returns rtc c out.msg := by
  cases event with
  | created s =>
    rcases List.mem_pair.mp member with rfl | rfl
    · exact congrArg Prod.fst (onMessage_created callId)
    · exact congrArg Prod.fst (onMessage_incoming callId s.callerId)
  | accepted s =>
    rcases List.mem_pair.mp member with rfl | rfl <;>
      obtain ⟨c', result, _⟩ := onMessage_rtcConfig rtc c cfg _ _ callId
    · exact congrArg Prod.fst result
    · exact congrArg Prod.fst result
  | rejected s =>
    obtain rfl := List.mem_singleton.mp member
    exact congrArg Prod.fst (onMessage_ended callId "rejected")
  | hungUp s userId =>
    obtain rfl := List.mem_singleton.mp member
    exact congrArg Prod.fst (onMessage_ended callId "hangup")
  | expired s =>
    rcases List.mem_pair.mp member with rfl | rfl <;>
      exact congrArg Prod.fst (onMessage_failed callId)

/-! ## What the router relays -/

/-- A message of a type the callback does not treat itself is only handled. -/
theorem onMessage_eq_handle {type : Bytes} (typed : msg.stringMember "type" = some type)
    (other : type ∉ [ascii "error", ascii "rtc.config", ascii "call.ended", ascii "call.failed"]) :
    c.onMessage rtc (some msg) = c.handle rtc (some msg) := by
  simp only [List.mem_cons, List.not_mem_nil, or_false, not_or] at other
  obtain ⟨notError, notConfig, notEnded, notFailed⟩ := other
  have value : msg.value "type" Json.getString [] = .ok type :=
    Json.value_of_stringMember typed []
  simp only [onMessage, tryBlock, value, convert_ok, notError, notConfig, notEnded, notFailed,
    ↓reduceIte, or_self]

theorem onMessage_offer (offer : msg.stringMember "type" = some (ascii "webrtc.offer")) :
    c.onMessage rtc (some msg) = c.handleWebrtcOffer rtc msg := by
  rw [onMessage_eq_handle offer (by decide)]
  simp only [handle, offer]
  rfl

theorem onMessage_answer (answer : msg.stringMember "type" = some (ascii "webrtc.answer")) :
    c.onMessage rtc (some msg) = c.handleWebrtcAnswer rtc msg := by
  rw [onMessage_eq_handle answer (by decide)]
  simp only [handle, answer]
  rfl

theorem onMessage_ice (ice : msg.stringMember "type" = some (ascii "webrtc.ice")) :
    c.onMessage rtc (some msg) = c.handleWebrtcIce rtc msg := by
  rw [onMessage_eq_handle ice (by decide)]
  simp only [handle, ice]
  rfl

theorem relayed_returns_iff (type : SignalingScope.relayed msg) :
    Returns rtc c msg ↔ Tolerates rtc c msg := by
  unfold Returns
  rcases type with offer | answer | ice
  · rw [onMessage_offer offer]
    refine sdp_returns.trans ⟨fun tolerates => ⟨fun _ => tolerates, ?_, ?_⟩,
      fun all => all.offer offer⟩
    · exact fun answer => absurd answer (Json.stringMember_ne offer (by decide))
    · exact fun ice => absurd ice (Json.stringMember_ne offer (by decide))
  · rw [onMessage_answer answer]
    refine sdp_returns.trans ⟨fun tolerates => ⟨?_, fun _ => tolerates, ?_⟩,
      fun all => all.answer answer⟩
    · exact fun offer => absurd offer (Json.stringMember_ne answer (by decide))
    · exact fun ice => absurd ice (Json.stringMember_ne answer (by decide))
  · rw [onMessage_ice ice]
    refine ice_returns.trans ⟨fun tolerates => ⟨?_, ?_, fun _ => tolerates⟩, fun all => all.ice ice⟩
    · exact fun offer => absurd offer (Json.stringMember_ne ice (by decide))
    · exact fun answer => absurd answer (Json.stringMember_ne ice (by decide))

theorem viaPeer_client (c : Client) (handler accepts : Bool) :
    (c.viaPeer handler accepts).2 = c := by
  unfold viaPeer
  cases handler with
  | false => rfl
  | true =>
    cases c.pc with
    | none => rfl
    | some pc => cases live : pc.live <;> cases accepts <;> simp [live]

theorem convert_client {converted : Except JsonError α} {act : α → Outcome Unit}
    (kept : ∀ a, (act a).2 = c) : (c.convert converted act).2 = c := by
  cases converted with
  | error e => rfl
  | ok a => exact kept a

theorem handleSdp_client {dropped : Bool} {callback : Bytes → Outcome Unit}
    (kept : ∀ sdp, (callback sdp).2 = c) : (c.handleSdp msg dropped callback).2 = c := by
  unfold handleSdp
  cases msg.member "sdp" with
  | none => rfl
  | some sdp =>
    cases dropped with
    | true => rfl
    | false =>
      cases c.callbacks with
      | false => rfl
      | true => exact convert_client kept

/-- Signaling from the peer changes nothing of what `main` keeps. -/
theorem onMessage_relayed (rtc : Rtc) (c : Client) (type : SignalingScope.relayed msg) :
    (c.onMessage rtc (some msg)).2 = c := by
  rcases type with offer | answer | ice
  · rw [onMessage_offer offer]
    exact handleSdp_client fun sdp => viaPeer_client c _ _
  · rw [onMessage_answer answer]
    exact handleSdp_client fun sdp => viaPeer_client c _ _
  · rw [onMessage_ice ice, handleWebrtcIce]
    cases msg.member "candidate" with
    | none => rfl
    | some candidate =>
      cases c.callbacks with
      | false => rfl
      | true =>
        refine convert_client fun candidate => ?_
        refine convert_client fun mid => ?_
        exact convert_client fun index => viaPeer_client c _ _

/-- A message that is not relayed asks for nothing. -/
theorem tolerates_of_other {type : Bytes} (typed : msg.stringMember "type" = some type)
    (other : type ∉ [ascii "webrtc.offer", ascii "webrtc.answer", ascii "webrtc.ice"]) :
    Tolerates rtc c msg := by
  simp only [List.mem_cons, List.not_mem_nil, or_false, not_or] at other
  constructor
  · exact fun offer => absurd offer (Json.stringMember_ne typed other.1)
  · exact fun answer => absurd answer (Json.stringMember_ne typed other.2.1)
  · exact fun ice => absurd ice (Json.stringMember_ne typed other.2.2)

/-- The type of an announcement is none that clients send each other. -/
theorem announced_tolerates (event : CallEvent) (member : out ∈ announce cfg env callId event) :
    Tolerates rtc c out.msg := by
  have about := announce_about (c := callId) event member
  rw [decide_eq_true rfl, isAbout, Bool.and_eq_true] at about
  cases typed : out.msg.stringMember "type" with
  | none => simp [typed] at about
  | some type =>
    have listed : type ∈ noticeTypes := by simpa [typed] using about.1
    refine tolerates_of_other typed fun other => ?_
    simp only [noticeTypes, List.mem_cons, List.not_mem_nil, or_false] at listed other
    rcases listed with rfl | rfl | rfl | rfl | rfl <;> exact absurd other (by decide)

/-- **What a peer can do to a client.** For every message a user sends to the backend,
in every state, and everything the router sends to another user because of it: the
receiving client's callback returns if and only if the message is one the client
tolerates in its state. -/
theorem callback_returns_iff (cfg : RouterConfig) (env : BackendEnv) (m : CallManager)
    (userId : Bytes) (raw : Option Json)
    (sent : out ∈ (Router.handle cfg env m userId raw).2) (other : out.userId ≠ userId)
    (rtc : Rtc) (c : Client) : Returns rtc c out.msg ↔ Tolerates rtc c out.msg := by
  have handled := handle_cases cfg env m userId raw
  generalize Router.handle cfg env m userId raw = result at handled sent
  cases handled with
  | done op reply callId event asked done named =>
    exact iff_of_true (returns_announced event sent rtc c) (announced_tolerates event sent)
  | refused op e asked failed =>
    obtain rfl := List.mem_singleton.mp sent
    exact absurd rfl other
  | error reason asked =>
    obtain rfl := List.mem_singleton.mp sent
    exact absurd rfl other
  | relay msg callId s asked text type named found =>
    obtain rfl := List.mem_singleton.mp sent
    exact relayed_returns_iff type

/-- A libdatachannel that takes what it is given. -/
def acceptAll : Rtc := ⟨fun _ => true, true, fun _ => true, fun _ => true, fun _ _ => true⟩

/-- Bob's client hears of alice's call. -/
theorem callback_returns_iff_incoming :
    ∃ out ∈ (Router.handle deployed (surroundings 0 1) (CallManager.new 30) (ascii "alice")
        (some (createMessage (ascii "bob")))).2,
      out.userId ≠ ascii "alice" ∧ Tolerates acceptAll {} out.msg ∧
        Returns acceptAll {} out.msg := by
  let incoming : Outgoing :=
    ⟨ascii "bob", Router.callIncoming (generateUuid (1, 1)) (ascii "alice")⟩
  have sent : incoming ∈ (Router.handle deployed (surroundings 0 1) (CallManager.new 30)
      (ascii "alice") (some (createMessage (ascii "bob")))).2 :=
    List.mem_cons_of_mem _ List.mem_cons_self
  have tolerates : Tolerates acceptAll {} incoming.msg :=
    tolerates_of_other (show _ = some (ascii "call.incoming") from rfl) (by decide)
  have other : incoming.userId ≠ ascii "alice" := by decide
  exact ⟨incoming, sent, other, tolerates, (callback_returns_iff deployed (surroundings 0 1)
    (CallManager.new 30) (ascii "alice") _ sent other acceptAll {}).mpr tolerates⟩

/-- Bob's client after he has taken up alice's call and got his configuration. -/
def inCall : Client :=
  let callId := generateUuid (1, 1)
  let c : Client := { session := { userId := ascii "bob", jwt := ascii "token" } }
  let c := (c.onMessage acceptAll (some (Router.callIncoming callId (ascii "alice")))).2
  let c := { c with session := (Commands.accept c.session).2.1 }
  (c.onMessage acceptAll (some (Router.rtcConfig deployed 1700000000 (ascii "bob") callId))).2

/-- An offer whose `sdp` is a number. -/
def badOffer : Json :=
  .object [(ascii "type", .text "webrtc.offer"), (ascii "callId", .string (generateUuid (1, 1))),
    (ascii "sdp", .integer 5)]

/-- Alice sends it, and bob's client is gone. -/
theorem bad_offer_crashes : ¬ ∀ cfg timeout env m userId raw out rtc c,
    Reachable (routerMachine cfg timeout) m → out ∈ (Router.handle cfg env m userId raw).2 →
    out.userId ≠ userId → Returns rtc c out.msg := by
  intro all
  obtain ⟨ts, m, run, check⟩ := Run.of_exec (routerMachine deployed 30) (oneCall.take 2)
    (fun _ m => m.find (generateUuid (1, 1)) =
      some ⟨generateUuid (1, 1), ascii "alice", ascii "bob", .active, 0⟩) (by decide +kernel)
  have found := of_decide_eq_true check
  have sent : (Router.handle deployed (surroundings 0 0) m (ascii "alice") (some badOffer)).2 =
      [⟨ascii "bob", badOffer⟩] := by
    rw [SignalingScope.handle_relayed (.inl rfl)]
    have named : badOffer.stringMember "callId" = some (generateUuid (1, 1)) := rfl
    simp only [Router.onWebrtcRelay, named, found]
    rfl
  have returns := all deployed 30 (surroundings 0 0) m (ascii "alice") (some badOffer)
    ⟨ascii "bob", badOffer⟩ acceptAll inCall ⟨ts, run⟩ (by rw [sent]; exact List.mem_cons_self)
    (by decide)
  have thrown : (inCall.onMessage acceptAll (some badOffer)).1 = .error (.json .typeError302) := by
    decide +kernel
  rw [Returns, thrown] at returns
  cases returns

end Zaza.ClientSafety
