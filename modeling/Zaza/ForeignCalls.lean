import Zaza.ClientLife

/-!
Messages about another call.

Every message about a call says which one. The handlers of the client do not look:
the end of any call ends the current one, and signaling is passed on whatever call it
belongs to. What keeps a message out is only the client's role in its own call, and
callbacks that are not there yet.
-/
namespace Zaza.ForeignCalls
open Zaza Client ClientSafety ClientSteps ClientLife CallManager

variable {rtc : Rtc} {c : Client} {msg : Json}

/-- The members `signaling.json` gives the five messages, besides their type. -/
def WellFormed (msg : Json) : Prop :=
  (msg.stringMember "type" = some (ascii "call.ended") ∨
      msg.stringMember "type" = some (ascii "call.failed")) ∧
    (msg.stringMember "reason").isSome = true ∨
  (msg.stringMember "type" = some (ascii "webrtc.offer") ∨
      msg.stringMember "type" = some (ascii "webrtc.answer")) ∧
    (msg.stringMember "sdp").isSome = true ∨
  msg.stringMember "type" = some (ascii "webrtc.ice") ∧
    (msg.stringMember "candidate").isSome = true ∧ (msg.stringMember "mid").isSome = true ∧
    ∃ n, msg.member "mlineindex" = some (.integer n)

/-- The message names a call, and the client is in another one. -/
def Foreign (c : Client) (msg : Json) : Prop :=
  c.session.call.callId ≠ [] ∧
    ∃ callId, msg.stringMember "callId" = some callId ∧ callId ≠ c.session.call.callId

/-- The handler leaves the call as it is, and calls nobody back: nothing goes wrong even with
nothing behind the callbacks. -/
structure NoEffect (rtc : Rtc) (c : Client) (msg : Json) : Prop where
  call : (c.handle rtc (some msg)).2.session.call = c.session.call
  uncalled : calledBack c msg = none
  unreached : ((withoutObjects c).handle rtc (some msg)).1 ≠ .error .undefined

/-- What the handlers do keep out: signaling that has no callback yet, an offer to a caller and
an answer to a callee. -/
def KeptOut (c : Client) (msg : Json) : Prop :=
  SignalingScope.relayed msg ∧
    (c.callbacks = false ∨
      msg.stringMember "type" = some (ascii "webrtc.offer") ∧ c.session.call.isCaller = true ∨
      msg.stringMember "type" = some (ascii "webrtc.answer") ∧ c.session.call.isCaller = false)

/-! ## The end of a call -/

/-- The end of any call resets the current one. -/
theorem handle_over {type : Bytes} (typed : msg.stringMember "type" = some type)
    (ends : type = ascii "call.ended" ∨ type = ascii "call.failed")
    (reason : (msg.stringMember "reason").isSome = true) :
    c.handle rtc (some msg) = (.ok (), c.setCall {}) := by
  obtain ⟨text, found⟩ := Option.isSome_iff_exists.mp reason
  have handled := @handle_of_over rtc c msg type typed ends
  have value : msg.value "reason" Json.getString (ascii "unknown") = .ok text :=
    Json.value_of_stringMember found _
  rw [handled, handleCallOver, value, convert_ok]

theorem over_has_effect (rtc : Rtc) {type : Bytes} (typed : msg.stringMember "type" = some type)
    (ends : type = ascii "call.ended" ∨ type = ascii "call.failed")
    (reason : (msg.stringMember "reason").isSome = true) (busy : c.session.call.callId ≠ []) :
    ¬ NoEffect rtc c msg ∧ ¬ KeptOut c msg := by
  constructor
  · intro noEffect
    have same := noEffect.call
    rw [handle_over typed ends reason] at same
    exact busy (by rw [← same]; rfl)
  · rintro ⟨relayed, -⟩
    simp only [SignalingScope.relayed, typed, Option.some.injEq] at relayed
    rcases ends with rfl | rfl <;> revert relayed <;> decide

/-! ## Signaling -/

/-- Signaling leaves the client alone, so all that matters is who is called back. -/
theorem relayed_noEffect (relayed : SignalingScope.relayed msg) :
    NoEffect rtc c msg ↔ calledBack c msg = none := by
  refine ⟨NoEffect.uncalled, fun uncalled => ⟨?_, uncalled, fun reached => ?_⟩⟩
  · rw [handle_relayed rtc c relayed, onMessage_relayed rtc c relayed]
  · have called := (calledBack_isSome_iff rtc c relayed).mpr reached
    simp [uncalled] at called

/-- A candidate whose members are there is passed on. -/
theorem iceCallback_isSome (candidate : (msg.stringMember "candidate").isSome = true)
    (mid : (msg.stringMember "mid").isSome = true)
    (index : ∃ n, msg.member "mlineindex" = some (.integer n)) : iceCallback msg ≠ none := by
  obtain ⟨candidate, found⟩ := Option.isSome_iff_exists.mp candidate
  obtain ⟨mid, foundMid⟩ := Option.isSome_iff_exists.mp mid
  obtain ⟨n, foundIndex⟩ := index
  have midValue : msg.value "mid" Json.getString [] = .ok mid :=
    Json.value_of_stringMember foundMid _
  have indexValue : msg.value "mlineindex" Json.getInt 0 = .ok (Int32.ofInt n) :=
    Json.value_of_member foundIndex _ _
  simp [iceCallback, found, midValue, indexValue]

/-- **Messages about another call**: one that the protocol knows has no effect exactly if it is
signaling, and there is no callback or the wrong role for it. -/
theorem foreign_no_effect_iff (rtc : Rtc) (c : Client) (msg : Json) (form : WellFormed msg)
    (foreign : Foreign c msg) : NoEffect rtc c msg ↔ KeptOut c msg := by
  rcases form with ⟨ended | failed, reason⟩ | ⟨offer | answer, sdp⟩ | ⟨ice, candidate, mid, index⟩
  · obtain ⟨effect, passed⟩ := over_has_effect rtc ended (.inl rfl) reason foreign.1
    exact iff_of_false effect passed
  · obtain ⟨effect, passed⟩ := over_has_effect rtc failed (.inr rfl) reason foreign.1
    exact iff_of_false effect passed
  · rw [relayed_noEffect (.inl offer)]
    obtain ⟨sdp, found⟩ := Option.isSome_iff_exists.mp sdp
    have notAnswer : some (ascii "webrtc.offer") ≠ some (ascii "webrtc.answer") := by decide
    cases callbacks : c.callbacks <;> cases role : c.session.call.isCaller <;>
      simp [calledBack, KeptOut, SignalingScope.relayed, callbacks, role, offer, found, notAnswer]
  · rw [relayed_noEffect (.inr (.inl answer))]
    obtain ⟨sdp, found⟩ := Option.isSome_iff_exists.mp sdp
    have notOffer : some (ascii "webrtc.answer") ≠ some (ascii "webrtc.offer") := by decide
    cases callbacks : c.callbacks <;> cases role : c.session.call.isCaller <;>
      simp [calledBack, KeptOut, SignalingScope.relayed, callbacks, role, answer, found, notOffer]
  · rw [relayed_noEffect (.inr (.inr ice))]
    have called := iceCallback_isSome candidate mid index
    have notOffer : some (ascii "webrtc.ice") ≠ some (ascii "webrtc.offer") := by decide
    have notAnswer : some (ascii "webrtc.ice") ≠ some (ascii "webrtc.answer") := by decide
    cases callbacks : c.callbacks <;>
      simp [calledBack, KeptOut, SignalingScope.relayed, callbacks, ice, notOffer, notAnswer,
        called]

/-- An offer of another call. -/
def otherOffer : Json :=
  .object [(ascii "type", .text "webrtc.offer"), (ascii "callId", .string (generateUuid (2, 2))),
    (ascii "sdp", .text "v=0")]

/-- It does not concern a caller. -/
theorem foreign_no_effect_iff_caller :
    let c : Client := { inCall with
      session := { inCall.session with call := { inCall.session.call with isCaller := true } } }
    WellFormed otherOffer ∧ Foreign c otherOffer ∧ KeptOut c otherOffer ∧
      NoEffect acceptAll c otherOffer := by
  intro c
  have form : WellFormed otherOffer := .inr (.inl ⟨.inl rfl, rfl⟩)
  have foreign : Foreign c otherOffer :=
    ⟨by decide +kernel, generateUuid (2, 2), rfl, by decide +kernel⟩
  have kept : KeptOut c otherOffer := ⟨.inl rfl, .inr (.inl ⟨rfl, rfl⟩)⟩
  exact ⟨form, foreign, kept, (foreign_no_effect_iff acceptAll c otherOffer form foreign).mpr kept⟩

/-- The end of an earlier call arrives late, and bob's call with alice is over. -/
theorem late_end_ends_call : ¬ ∀ rtc c msg, WellFormed msg → Foreign c msg →
    NoEffect rtc c msg := by
  intro all
  have effect := all acceptAll inCall (Router.callEnded (generateUuid (2, 2)) "hangup")
    (.inl ⟨.inl rfl, rfl⟩) ⟨by decide +kernel, generateUuid (2, 2), rfl, by decide +kernel⟩
  have ended : (inCall.handle acceptAll
      (some (Router.callEnded (generateUuid (2, 2)) "hangup"))).2.session.call ≠
        inCall.session.call := by decide +kernel
  exact ended effect.1

end Zaza.ForeignCalls
