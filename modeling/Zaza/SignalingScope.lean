import Zaza.CallLife

/-!
Who can send WebRTC signaling to whom.

`onWebrtcRelay` looks the call up and forwards the message to the caller or, if
the sender is the caller, to the callee. That the sender takes part in the call
is not asked, and the manager also admits calls of a user to itself; so the
message stays inside the call exactly when neither matters.
-/
namespace Zaza.SignalingScope
open Zaza CallManager CallInvariant CallLife

/-- One of the three types that are relayed. -/
def relayed (msg : Json) : Prop :=
  msg.stringMember "type" = some (ascii "webrtc.offer") ∨
    msg.stringMember "type" = some (ascii "webrtc.answer") ∨
    msg.stringMember "type" = some (ascii "webrtc.ice")

/-- The message goes to the other participant of a call its sender is in, once, or
the sender hears of an error and nobody hears anything else. -/
def StaysInside (m : CallManager) (userId : Bytes) (msg : Json) (sent : List Outgoing) : Prop :=
  (∃ c s receiver, msg.stringMember "callId" = some c ∧ m.find c = some s ∧
    participants s = {userId, receiver} ∧ receiver ≠ userId ∧ sent = [⟨receiver, msg⟩]) ∨
  ∃ reason, sent = [⟨userId, failure reason⟩]

variable {m : CallManager} {userId : Bytes} {msg : Json}

/-- A message to relay is handled by `onWebrtcRelay` and leaves the calls alone. -/
theorem handle_relayed (type : relayed msg) (cfg : RouterConfig) (env : BackendEnv)
    (m : CallManager) (userId : Bytes) :
    Router.handle cfg env m userId (some msg) = (m, Router.onWebrtcRelay m userId msg) := by
  rcases type with offer | answer | ice
  · simp only [Router.handle, offer]
    rfl
  · simp only [Router.handle, answer]
    rfl
  · simp only [Router.handle, ice]
    rfl

/-- An error is not a message to relay. -/
theorem relayed_ne_failure (type : relayed msg) (reason : Bytes) : msg ≠ failure reason := by
  rintro rfl
  have own : (failure reason).stringMember "type" = some (ascii "error") := rfl
  simp only [relayed, own, Option.some.injEq] at type
  exact absurd type (by decide)

/-- In a call of two, the other participant of a member is the other one. -/
theorem participants_eq_other {s : CallSession} (member : userId ∈ participants s)
    (two : s.callerId ≠ s.calleeId) :
    participants s = {userId, Router.other s userId} ∧ Router.other s userId ≠ userId := by
  by_cases caller : s.callerId = userId
  · subst caller
    rw [Router.other, if_pos rfl]
    refine ⟨?_, two.symm⟩
    ext u
    simp [participants, eq_comm]
  · have callee : s.calleeId = userId := member.resolve_left caller
    subst callee
    rw [Router.other, if_neg two]
    refine ⟨?_, two⟩
    ext u
    simp [participants, eq_comm, or_comm]

/-- **Signaling stays inside a call exactly when its sender is in it.** For every
state of the backend and every message to relay: what the router sends stays
inside the call if and only if, where the message names a stored call, the sender
takes part in it and it is not a call of a user to itself. -/
theorem signaling_inside_iff (cfg : RouterConfig) (env : BackendEnv) (m : CallManager)
    (userId : Bytes) (msg : Json) (type : relayed msg) :
    StaysInside m userId msg (Router.handle cfg env m userId (some msg)).2 ↔
      ∀ c s, msg.stringMember "callId" = some c → m.find c = some s →
        userId ∈ participants s ∧ s.callerId ≠ s.calleeId := by
  rw [handle_relayed type]
  constructor
  · intro inside c s named found
    have sent : Router.onWebrtcRelay m userId msg = [⟨Router.other s userId, msg⟩] := by
      simp only [Router.onWebrtcRelay, named, found]
    simp only [sent] at inside
    rcases inside with ⟨c', s', receiver, named', found', members, differs, _⟩ | ⟨reason, error⟩
    · obtain rfl := Option.some.inj (named.symm.trans named')
      obtain rfl := Option.some.inj (found.symm.trans found')
      have sender : userId ∈ participants s := by simp [members]
      have other : receiver ∈ participants s := by simp [members]
      refine ⟨sender, fun self => differs ?_⟩
      -- In a call to oneself all participants are the same user.
      have only : ∀ u ∈ participants s, u = s.calleeId := by
        rintro u (rfl | rfl)
        · exact self
        · rfl
      rw [only userId sender, only receiver other]
    · have same : msg = failure reason := (Outgoing.mk.inj (List.cons.inj error).1).2
      exact absurd same (relayed_ne_failure type reason)
  · intro condition
    unfold Router.onWebrtcRelay
    cases named : msg.stringMember "callId" with
    | none => exact .inr ⟨_, rfl⟩
    | some c =>
      cases found : m.find c with
      | none =>
        simp only [found]
        exact .inr ⟨_, rfl⟩
      | some s =>
        obtain ⟨member, two⟩ := condition c s named found
        obtain ⟨both, differs⟩ := participants_eq_other member two
        simp only [found]
        exact .inl ⟨c, s, _, named, found, both, differs, rfl⟩

/-- An offer for the call of the first run. -/
def offer : Json :=
  .object [(ascii "type", .text "webrtc.offer"), (ascii "callId", .string (generateUuid (1, 1))),
    (ascii "sdp", .text "v=0")]

/-- Alice calls bob. -/
theorem alice_calls_bob : ∃ m, Reachable (routerMachine deployed 30) m ∧
    m.find (generateUuid (1, 1)) =
      some ⟨generateUuid (1, 1), ascii "alice", ascii "bob", .ringing, 0⟩ := by
  obtain ⟨ts, m, run, check⟩ := Run.of_exec (routerMachine deployed 30) (oneCall.take 1)
    (fun _ m => m.find (generateUuid (1, 1)) =
      some ⟨generateUuid (1, 1), ascii "alice", ascii "bob", .ringing, 0⟩) (by decide +kernel)
  exact ⟨m, ⟨ts, run⟩, of_decide_eq_true check⟩

/-- Her offer goes to bob. -/
theorem signaling_inside_iff_caller : ∃ m, Reachable (routerMachine deployed 30) m ∧
    StaysInside m (ascii "alice") offer
      (Router.handle deployed (surroundings 0 0) m (ascii "alice") (some offer)).2 := by
  obtain ⟨m, reached, found⟩ := alice_calls_bob
  refine ⟨m, reached, (signaling_inside_iff deployed _ m _ offer (.inl rfl)).mpr ?_⟩
  intro c s named found'
  obtain rfl : generateUuid (1, 1) = c := Option.some.inj named
  obtain rfl := Option.some.inj (found.symm.trans found')
  exact ⟨.inl rfl, by decide⟩

/-- So does one from mallory, who is in no call: it goes to alice. -/
theorem outsider_offer_forwarded : ¬ ∀ cfg timeout env m userId msg,
    Reachable (routerMachine cfg timeout) m → relayed msg →
    StaysInside m userId msg (Router.handle cfg env m userId (some msg)).2 := by
  intro all
  obtain ⟨m, reached, found⟩ := alice_calls_bob
  have inside := all deployed 30 (surroundings 0 0) m (ascii "mallory") offer reached (.inl rfl)
  have sent : (Router.handle deployed (surroundings 0 0) m (ascii "mallory") (some offer)).2 =
      [⟨ascii "alice", offer⟩] := by
    rw [handle_relayed (.inl rfl)]
    have named : offer.stringMember "callId" = some (generateUuid (1, 1)) := rfl
    simp only [Router.onWebrtcRelay, named, found]
    rfl
  rw [sent] at inside
  rcases inside with ⟨c, s, receiver, named, found', members, _⟩ | ⟨reason, error⟩
  · obtain rfl : generateUuid (1, 1) = c := Option.some.inj named
    obtain rfl := Option.some.inj (found.symm.trans found')
    have outsider : ascii "mallory" ∈ participants
        ⟨generateUuid (1, 1), ascii "alice", ascii "bob", .ringing, 0⟩ := by simp [members]
    rcases outsider with same | same
    · exact absurd same (by decide)
    · exact absurd same (by decide)
  · have same := (Outgoing.mk.inj (List.cons.inj error).1).2
    exact relayed_ne_failure (.inl rfl) reason same

end Zaza.SignalingScope
