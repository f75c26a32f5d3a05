import Zaza.SignalingScope
import Zaza.System

/-!
One user's side of the call protocol.

The backend gives a user at most one seat in a call. The user's client knows of
it only what has reached it, and the backend knows of the client's wishes only
what has reached it: between the two are the requests and the notices on their
way. `Coherent` says how the seat, the requests, the notices and the client's
call fit together, and each rule below says that one thing that can happen to
them keeps them so. Who causes it, and what it does to others, is none of this
module's business.
-/
namespace Zaza.Protocol
open Zaza

/-- A user's place in a call. -/
structure Seat where
  callId : Bytes
  /-- Whether the call waits for the user to take it up. -/
  rings : Bool
  deriving DecidableEq

/-- What a client sends. -/
inductive Request where
  | create (callee : Bytes)
  | accept (callId : Bytes)
  | reject (callId : Bytes)
  | hangup (callId : Bytes)
  | signal (msg : Json) (type : SignalingScope.relayed msg)

/-- What a client is sent. -/
inductive Notice where
  | created (callId : Bytes)
  | incoming (callId caller : Bytes)
  | config (wall : Int) (userId callId : Bytes)
  | ended (callId : Bytes) (reason : String)
  | failed (callId : Bytes)
  | error (reason : Bytes)
  | signal (msg : Json) (type : SignalingScope.relayed msg)

def Request.json : Request → Json
  | .create callee => createMessage callee
  | .accept callId => callMessage "call.accept" callId
  | .reject callId => callMessage "call.reject" callId
  | .hangup callId => callMessage "call.hangup" callId
  | .signal msg _ => msg

def Notice.json (cfg : RouterConfig) : Notice → Json
  | .created callId => Router.callCreated callId
  | .incoming callId caller => Router.callIncoming callId caller
  | .config wall userId callId => Router.rtcConfig cfg wall userId callId
  | .ended callId reason => Router.callEnded callId reason
  | .failed callId => Router.callFailed callId
  | .error reason => Router.error reason
  | .signal msg _ => msg

/-- The call a request is about. -/
def Request.names : Request → Option Bytes
  | .accept callId => some callId
  | .reject callId => some callId
  | .hangup callId => some callId
  | .create _ => none
  | .signal _ _ => none

/-- The seat a notice tells its receiver of, if it tells of any change. -/
def Notice.tells : Notice → Option (Option Seat)
  | .created callId => some (some ⟨callId, false⟩)
  | .incoming callId _ => some (some ⟨callId, true⟩)
  | .ended _ _ => some none
  | .failed _ => some none
  | .config _ _ _ => none
  | .error _ => none
  | .signal _ _ => none

/-- The changes on the way to a client. -/
def news (down : List Notice) : List (Option Seat) := down.filterMap Notice.tells

/-- The calls among them. -/
def entered (down : List Notice) : List Bytes :=
  (news down).filterMap fun seat => seat.map Seat.callId

/-- The client is in the call of the seat, and has not asked to leave it. -/
structure InCall (p : Seat) (up : List Request) (call : CallContext) : Prop where
  callId : call.callId = p.callId
  state : call.state ≠ .idle
  stays : .hangup p.callId ∉ up ∧ .reject p.callId ∉ up
  rings : call.state = .ringing → p.rings = true ∧ .accept p.callId ∉ up

/-- The client is in no call, though it may wait for one, and a seat it still has is
one it has asked to leave. -/
structure Outside (seat : Option Seat) (up : List Request) (down : List Notice)
    (call : CallContext) : Prop where
  callId : call.callId = []
  state : call.state = .idle ∨
    call.state = .calling ∧ ((∃ v, .create v ∈ up) ∨ ∃ reason, .error reason ∈ down)
  leaves : ∀ p, seat = some p → .hangup p.callId ∈ up ∨
    .reject p.callId ∈ up ∧ p.rings = true ∧ .accept p.callId ∉ up

/-- How the seat of a user, what is on its way in both directions and the client's
call fit together. -/
structure Coherent (user : Bytes) (seat : Option Seat) (up : List Request) (down : List Notice)
    (call : CallContext) : Prop where
  others : ∀ v, .create v ∈ up → v ≠ user
  named : ∀ p, seat = some p → p.callId ≠ []
  distinct : (entered down).Nodup
  /-- The client knows nothing of a call it has yet to hear of. -/
  ahead : ∀ id ∈ entered down, id ≠ [] ∧ id ≠ call.callId ∧ ∀ r ∈ up, r.names ≠ some id
  /-- The last change on the way is the present seat. -/
  last : ∀ p, (news down).getLast? = some p → p = seat
  /-- With no change on the way, the client is where it should be. -/
  settled : news down = [] → (∃ p, seat = some p ∧ InCall p up call) ∨ Outside seat up down call

variable {user : Bytes} {seat : Option Seat} {up up' : List Request} {down : List Notice}
  {call call' : CallContext} {p : Seat} {n : Notice} {r : Request}

@[simp] theorem news_append (down later : List Notice) :
    news (down ++ later) = news down ++ news later := List.filterMap_append

theorem news_cons (n : Notice) (down : List Notice) :
    news (n :: down) = n.tells.toList ++ news down := by
  unfold news
  cases told : n.tells with
  | none => rw [List.filterMap_cons_none told]; rfl
  | some p => rw [List.filterMap_cons_some told]; rfl

/-- A client that has just logged in. -/
theorem Coherent.start (user : Bytes) : Coherent user none [] [] {} where
  others v member := by simp at member
  named p same := by simp at same
  distinct := List.nodup_nil
  ahead id member := by simp [entered, news] at member
  last p found := by simp [news] at found
  settled _ := .inr ⟨rfl, .inl rfl, fun p same => by simp at same⟩

/-- With nothing on the way, client and backend agree. -/
theorem Coherent.at_rest (coherent : Coherent user seat [] [] call) :
    (call.state ≠ .idle ↔ seat ≠ none) ∧ ∀ p, seat = some p → call.callId = p.callId := by
  rcases coherent.settled rfl with ⟨p, rfl, inCall⟩ | outside
  · refine ⟨iff_of_true inCall.state (by simp), fun q same => ?_⟩
    rw [← Option.some.inj same]
    exact inCall.callId
  · have unseated : seat = none := by
      cases seat with
      | none => rfl
      | some p => rcases outside.leaves p rfl with leaving | ⟨leaving, _⟩ <;> simp at leaving
    have idle : call.state = .idle := by
      rcases outside.state with idle | ⟨_, ⟨v, member⟩ | ⟨reason, member⟩⟩
      · exact idle
      · simp at member
      · simp at member
    exact ⟨iff_of_false (not_not.mpr idle) (not_not.mpr unseated), by simp [unseated]⟩

/-! ## What the backend does for others -/

/-- A notice that tells of no change. -/
theorem Coherent.told (coherent : Coherent user seat up down call) (quiet : n.tells = none) :
    Coherent user seat up (down ++ [n]) call := by
  have same : news (down ++ [n]) = news down := by simp [news, quiet]
  have calls : entered (down ++ [n]) = entered down := by rw [entered, same, entered]
  refine ⟨coherent.others, coherent.named, ?_, ?_, ?_, ?_⟩
  · rw [calls]
    exact coherent.distinct
  · rw [calls]
    exact coherent.ahead
  · rw [same]
    exact coherent.last
  · rw [same]
    refine fun none => (coherent.settled none).imp_right fun outside =>
      { outside with state := outside.state.imp_right (And.imp_right ?_) }
    refine Or.imp_right fun ⟨reason, member⟩ => ⟨reason, List.mem_append_left _ member⟩

/-- A new call, under an id that nothing on the way and not the client knows. -/
theorem Coherent.seated (coherent : Coherent user none up down call) (fewer : up' ⊆ up)
    (told : n.tells = some (some p)) (text : p.callId ≠ []) (new : p.callId ∉ entered down)
    (unknown : p.callId ≠ call.callId) (unasked : ∀ r ∈ up, r.names ≠ some p.callId) :
    Coherent user (some p) up' (down ++ [n]) call := by
  have changes : news (down ++ [n]) = news down ++ [some p] := by simp [news, told]
  have calls : entered (down ++ [n]) = entered down ++ [p.callId] := by
    rw [entered, changes, List.filterMap_append]
    rfl
  refine ⟨fun v member => coherent.others v (fewer member), ?_, ?_, ?_, ?_, ?_⟩
  · rintro q ⟨⟩
    exact text
  · rw [calls, List.nodup_append]
    refine ⟨coherent.distinct, List.nodup_singleton _, fun id member id' last same => ?_⟩
    obtain rfl := List.mem_singleton.mp last
    exact new (same ▸ member)
  · rw [calls]
    intro id member
    rcases List.mem_append.mp member with before | last
    · obtain ⟨text', unknown', unasked'⟩ := coherent.ahead id before
      exact ⟨text', unknown', fun r member => unasked' r (fewer member)⟩
    · obtain rfl := List.mem_singleton.mp last
      exact ⟨text, unknown, fun r member => unasked r (fewer member)⟩
  · rw [changes, List.getLast?_concat]
    rintro q ⟨⟩
    rfl
  · rw [changes]
    intro none
    simp at none

/-- The call is over. -/
theorem Coherent.unseated (coherent : Coherent user seat up down call)
    (told : n.tells = some none) : Coherent user none up (down ++ [n]) call := by
  have changes : news (down ++ [n]) = news down ++ [none] := by simp [news, told]
  have calls : entered (down ++ [n]) = entered down := by
    rw [entered, changes, List.filterMap_append, entered]
    simp
  refine ⟨coherent.others, fun q same => by simp at same, ?_, ?_, ?_, ?_⟩
  · rw [calls]
    exact coherent.distinct
  · rw [calls]
    exact coherent.ahead
  · rw [changes, List.getLast?_concat]
    rintro q ⟨⟩
    rfl
  · rw [changes]
    intro none
    simp at none

/-! ## What the backend does with a request -/

/-- The request asks to leave the seat, and the backend will let the user go. -/
def Leaves (r : Request) (p : Seat) : Prop :=
  r = .hangup p.callId ∨ r = .reject p.callId ∧ p.rings = true

/-- A request that names no call, or takes one up, leaves none. -/
theorem not_leaves (r : Request) (stays : r.names = none ∨ ∃ id, r = .accept id)
    (p : Seat) : ¬ Leaves r p := by
  rintro (rfl | ⟨rfl, _⟩)
  · rcases stays with none | ⟨id, accept⟩
    · cases none
    · cases accept
  · rcases stays with none | ⟨id, accept⟩
    · cases none
    · cases accept

/-- A client whose seat is on its way has asked nothing about it. -/
theorem Coherent.unasked (coherent : Coherent user (some p) up down call)
    (told : news down ≠ []) (member : r ∈ up) : r.names ≠ some p.callId := by
  have found := List.getLast?_eq_some_getLast told
  rw [coherent.last _ found] at found
  refine (coherent.ahead p.callId ?_).2.2 r member
  exact List.mem_filterMap.mpr ⟨some p, List.mem_of_getLast? found, rfl⟩

/-- A request that does not leave the seat, answered by an error if it asked for a call. -/
theorem Coherent.passed (coherent : Coherent user seat (r :: up) down call)
    (stays : ∀ p, seat = some p → ¬ Leaves r p)
    (answered : ∀ v, r = .create v → ∃ reason, .error reason ∈ down) :
    Coherent user seat up down call := by
  refine ⟨fun v member => coherent.others v (List.mem_cons_of_mem _ member), coherent.named,
    coherent.distinct, ?_, coherent.last, ?_⟩
  · intro id member
    obtain ⟨text, unknown, unasked⟩ := coherent.ahead id member
    exact ⟨text, unknown, fun r member => unasked r (List.mem_cons_of_mem _ member)⟩
  · intro none
    rcases coherent.settled none with ⟨p, same, inCall⟩ | outside
    · refine .inl ⟨p, same, inCall.callId, inCall.state, ?_, fun rings => ?_⟩
      · exact ⟨fun member => inCall.stays.1 (List.mem_cons_of_mem _ member),
          fun member => inCall.stays.2 (List.mem_cons_of_mem _ member)⟩
      · obtain ⟨waits, unaccepted⟩ := inCall.rings rings
        exact ⟨waits, fun member => unaccepted (List.mem_cons_of_mem _ member)⟩
    · refine .inr ⟨outside.callId, ?_, fun p same => ?_⟩
      · refine outside.state.imp_right (And.imp_right ?_)
        rintro (⟨v, member⟩ | error)
        · rcases List.mem_cons.mp member with first | later
          · exact .inr (answered v first.symm)
          · exact .inl ⟨v, later⟩
        · exact .inr error
      · -- What leaves the seat is still on its way.
        have stays := stays p same
        rcases outside.leaves p same with hangup | ⟨reject, rings, unaccepted⟩
        · rcases List.mem_cons.mp hangup with first | later
          · exact absurd (.inl first.symm) stays
          · exact .inl later
        · rcases List.mem_cons.mp reject with first | later
          · exact absurd (.inr ⟨first.symm, rings⟩) stays
          · exact .inr ⟨later, rings, fun member => unaccepted (List.mem_cons_of_mem _ member)⟩

/-- A refused request. -/
theorem Coherent.refused (coherent : Coherent user seat (r :: up) down call)
    (stays : ∀ p, seat = some p → ¬ Leaves r p) (reason : Bytes) :
    Coherent user seat up (down ++ [.error reason]) call :=
  (coherent.told rfl).passed stays fun _ _ => ⟨reason, by simp⟩

/-- The call is taken up. -/
theorem Coherent.accepted {id : Bytes}
    (coherent : Coherent user (some ⟨id, true⟩) (.accept id :: up) down call) :
    Coherent user (some ⟨id, false⟩) up down call := by
  -- The client has asked for the call, so no change is on its way.
  have settled : news down = [] := by
    by_contra told
    exact coherent.unasked told List.mem_cons_self rfl
  have passed := coherent.passed (fun p _ => not_leaves (.accept id) (.inr ⟨id, rfl⟩) p) nofun
  refine ⟨passed.others, ?_, passed.distinct, passed.ahead, by simp [settled], fun _ => ?_⟩
  · rintro p ⟨⟩
    exact coherent.named ⟨id, true⟩ rfl
  · rcases coherent.settled settled with ⟨p, same, inCall⟩ | outside
    · obtain rfl := Option.some.inj same
      rcases passed.settled settled with ⟨q, same, now⟩ | now
      · obtain rfl := Option.some.inj same
        exact .inl ⟨_, rfl, now.callId, now.state, now.stays, fun rings =>
          absurd List.mem_cons_self (inCall.rings rings).2⟩
      · exact absurd (inCall.callId.symm.trans now.callId) (coherent.named _ rfl)
    · rcases passed.settled settled with ⟨q, same, now⟩ | now
      · obtain rfl := Option.some.inj same
        exact absurd (now.callId.symm.trans outside.callId) (coherent.named _ rfl)
      · refine .inr ⟨now.callId, now.state, ?_⟩
        rintro p ⟨⟩
        rcases outside.leaves _ rfl with hangup | ⟨_, _, unaccepted⟩
        · exact .inl ((List.mem_cons.mp hangup).resolve_left nofun)
        · exact absurd List.mem_cons_self unaccepted

/-- The user is let go. -/
theorem Coherent.left (coherent : Coherent user (some p) (r :: up) down call)
    (leaves : Leaves r p) : Coherent user none up down call := by
  have asked : r.names = some p.callId := by
    rcases leaves with rfl | ⟨rfl, _⟩ <;> rfl
  have settled : news down = [] := by
    by_contra told
    exact coherent.unasked told List.mem_cons_self asked
  refine ⟨fun v member => coherent.others v (List.mem_cons_of_mem _ member),
    fun q same => by simp at same, coherent.distinct, ?_, by simp [settled], fun _ => .inr ?_⟩
  · intro id member
    simp [entered, settled] at member
  · rcases coherent.settled settled with ⟨q, same, inCall⟩ | outside
    · obtain rfl := Option.some.inj same
      rcases leaves with rfl | ⟨rfl, _⟩
      · exact absurd List.mem_cons_self inCall.stays.1
      · exact absurd List.mem_cons_self inCall.stays.2
    · refine ⟨outside.callId, ?_, fun q same => by simp at same⟩
      refine outside.state.imp_right (And.imp_right (Or.imp_left ?_))
      rintro ⟨v, member⟩
      refine ⟨v, (List.mem_cons.mp member).resolve_left ?_⟩
      rintro rfl
      simp [Request.names] at asked

/-- What an action of the backend does to a user: the seat before, the user's own
request if it is what the backend acts on, the notices the user gets, and the seat
after. -/
inductive Befalls : Option Seat → Option Request → List Notice → Option Seat → Prop where
  | nothing (seat : Option Seat) : Befalls seat none [] seat
  | told (seat : Option Seat) (n : Notice) (quiet : n.tells = none) : Befalls seat none [n] seat
  | seated (p : Seat) (n : Notice) (told : n.tells = some (some p)) :
      Befalls none none [n] (some p)
  | unseated (seat : Option Seat) (n : Notice) (told : n.tells = some none) :
      Befalls seat none [n] none
  | created (v : Bytes) (p : Seat) (n : Notice) (told : n.tells = some (some p)) :
      Befalls none (some (.create v)) [n] (some p)
  | accepted (id : Bytes) (n : Notice) (quiet : n.tells = none) :
      Befalls (some ⟨id, true⟩) (some (.accept id)) [n] (some ⟨id, false⟩)
  | left (r : Request) (p : Seat) (leaves : Leaves r p) : Befalls (some p) (some r) [] none
  | refused (seat : Option Seat) (r : Request) (reason : Bytes)
      (stays : ∀ p, seat = some p → ¬ Leaves r p) : Befalls seat (some r) [.error reason] seat
  | relayed (seat : Option Seat) (msg : Json) (type : SignalingScope.relayed msg) :
      Befalls seat (some (.signal msg type)) [] seat

/-- **Whatever the backend does keeps a user's side coherent**, if the id of a new
call is one that nothing on the way and not the client knows. -/
theorem Coherent.befalls {seat' : Option Seat} {request : Option Request} {notices : List Notice}
    (befalls : Befalls seat request notices seat')
    (coherent : Coherent user seat (request.toList ++ up) down call)
    (fresh : ∀ p, seat = none → seat' = some p → p.callId ≠ [] ∧ p.callId ∉ entered down ∧
      p.callId ≠ call.callId ∧ ∀ r ∈ request.toList ++ up, r.names ≠ some p.callId) :
    Coherent user seat' up (down ++ notices) call := by
  cases befalls with
  | nothing =>
    rw [List.append_nil]
    exact coherent
  | told _ n quiet => exact coherent.told quiet
  | seated p n told =>
    obtain ⟨text, new, unknown, unasked⟩ := fresh p rfl rfl
    exact coherent.seated (List.Subset.refl _) told text new unknown unasked
  | unseated _ n told => exact coherent.unseated told
  | created v p n told =>
    obtain ⟨text, new, unknown, unasked⟩ := fresh p rfl rfl
    exact coherent.seated (List.subset_cons_self _ _) told text new unknown unasked
  | accepted id n quiet => exact coherent.accepted.told quiet
  | left r p leaves =>
    rw [List.append_nil]
    exact coherent.left leaves
  | refused _ r reason stays => exact coherent.refused stays reason
  | relayed _ msg type =>
    rw [List.append_nil]
    exact coherent.passed (fun p _ => not_leaves (.signal msg type) (.inl rfl) p) nofun

/-! ## What the client hears -/

/-- The first notice has arrived. -/
theorem Coherent.hears (coherent : Coherent user seat up (n :: down) call)
    (known : call'.callId ∉ entered down) (settled : news down = [] →
      (∃ p, seat = some p ∧ InCall p up call') ∨ Outside seat up down call') :
    Coherent user seat up down call' := by
  have changes := news_cons n down
  have calls : entered (n :: down) =
      (n.tells.toList.filterMap fun seat => seat.map Seat.callId) ++ entered down := by
    rw [entered, changes, List.filterMap_append, entered]
  refine ⟨coherent.others, coherent.named, ?_, ?_, ?_, settled⟩
  · have distinct := coherent.distinct
    rw [calls] at distinct
    exact distinct.of_append_right
  · intro id member
    obtain ⟨text, _, unasked⟩ :=
      coherent.ahead id (by rw [calls]; exact List.mem_append_right _ member)
    exact ⟨text, fun same => known (same ▸ member), unasked⟩
  · intro p found
    refine coherent.last p ?_
    rw [changes, List.getLast?_append, found]
    rfl

/-- What the client has not heard of is not its call, nor no call. -/
theorem Coherent.unheard (coherent : Coherent user seat up (n :: down) call) :
    call.callId ∉ entered down ∧ [] ∉ entered down := by
  have later : ∀ id ∈ entered down, id ∈ entered (n :: down) := by
    intro id member
    rw [entered, news_cons, List.filterMap_append]
    exact List.mem_append_right _ member
  exact ⟨fun member => (coherent.ahead _ (later _ member)).2.1 rfl,
    fun member => (coherent.ahead _ (later _ member)).1 rfl⟩

/-- The client hears of a call, in a state that fits it. -/
theorem Coherent.hears_seat (coherent : Coherent user seat up (n :: down) call)
    (told : n.tells = some (some p)) (callId : call'.callId = p.callId)
    (fits : news down = [] → call'.state ≠ .idle ∧ (call'.state = .ringing → p.rings = true)) :
    Coherent user seat up down call' := by
  have changes : news (n :: down) = some p :: news down := by rw [news_cons, told]; rfl
  have calls : entered (n :: down) = p.callId :: entered down := by
    rw [entered, changes]
    rfl
  have ahead := coherent.ahead p.callId (by rw [calls]; exact List.mem_cons_self)
  refine coherent.hears ?_ fun none => .inl ⟨p, ?_, callId, (fits none).1, ?_, fun rings => ?_⟩
  · have distinct := coherent.distinct
    rw [calls, List.nodup_cons] at distinct
    rw [callId]
    exact distinct.1
  · exact (coherent.last (some p) (by rw [changes, none]; rfl)).symm
  · exact ⟨fun member => ahead.2.2 _ member rfl, fun member => ahead.2.2 _ member rfl⟩
  · exact ⟨(fits none).2 rings, fun member => ahead.2.2 _ member rfl⟩

/-- The client hears that its call is over. -/
theorem Coherent.hears_end (coherent : Coherent user seat up (n :: down) call)
    (told : n.tells = some none) : Coherent user seat up down {} := by
  refine coherent.hears coherent.unheard.2 fun none => .inr ⟨rfl, .inl rfl, fun p same => ?_⟩
  have unseated := coherent.last Option.none (by rw [news_cons, told, none]; rfl)
  rw [same] at unseated
  cases unseated

/-- A notice that changes nothing at the client. -/
theorem Coherent.hears_nothing (coherent : Coherent user seat up (n :: down) call)
    (quiet : n.tells = none) (waits : news down = [] → ∀ reason, n = .error reason →
      call.state = .calling → call.callId ≠ [] ∨ (∃ v, .create v ∈ up) ∨
        ∃ reason, .error reason ∈ down) : Coherent user seat up down call := by
  refine coherent.hears coherent.unheard.1 fun none => ?_
  have settled := coherent.settled (by rw [news_cons, quiet, none]; rfl)
  refine settled.imp_right fun outside => { outside with state := outside.state.imp_right ?_ }
  rintro ⟨calling, create | ⟨reason, member⟩⟩
  · exact ⟨calling, .inl create⟩
  · rcases List.mem_cons.mp member with first | later
    · have waits := waits none reason first.symm calling
      exact ⟨calling, waits.resolve_left (not_not.mpr outside.callId)⟩
    · exact ⟨calling, .inr ⟨reason, later⟩⟩

/-- An error on which the client gives up its call. -/
theorem Coherent.hears_error {reason : Bytes}
    (coherent : Coherent user seat up (.error reason :: down) call)
    (unknown : news down = [] → call.callId = []) : Coherent user seat up down {} := by
  refine coherent.hears coherent.unheard.2 fun none => .inr ?_
  rcases coherent.settled none with ⟨p, same, inCall⟩ | outside
  · exact absurd (inCall.callId.symm.trans (unknown none)) (coherent.named p same)
  · exact ⟨rfl, .inl rfl, outside.leaves⟩

/-! ## What the client asks -/

/-- The client sends a request about its call, or one that names none. -/
theorem Coherent.asks (coherent : Coherent user seat up down call)
    (others : ∀ v, r = .create v → v ≠ user) (about : ∀ id, r.names = some id → id = call.callId)
    (callId : call'.callId = call.callId ∨ call'.callId = [])
    (settled : news down = [] →
      (∃ p, seat = some p ∧ InCall p (up ++ [r]) call') ∨ Outside seat (up ++ [r]) down call') :
    Coherent user seat (up ++ [r]) down call' := by
  refine ⟨fun v member => ?_, coherent.named, coherent.distinct, fun id member => ?_,
    coherent.last, settled⟩
  · rcases List.mem_append.mp member with before | last
    · exact coherent.others v before
    · exact others v (List.mem_singleton.mp last).symm
  · obtain ⟨text, unknown, unasked⟩ := coherent.ahead id member
    refine ⟨text, ?_, fun r' member' => ?_⟩
    · rcases callId with same | gone
      · rw [same]
        exact unknown
      · rw [gone]
        exact text
    · rcases List.mem_append.mp member' with before | last
      · exact unasked r' before
      · obtain rfl := List.mem_singleton.mp last
        exact fun named => unknown (about id named)

/-- A request that leaves the client's call as it is and concerns no seat. -/
theorem InCall.also (inCall : InCall p up call) (other : r.names = none) :
    InCall p (up ++ [r]) call := by
  have new : ∀ r', r'.names ≠ none → r' ∈ up ++ [r] → r' ∈ up := by
    intro r' named member
    rcases List.mem_append.mp member with before | last
    · exact before
    · obtain rfl := List.mem_singleton.mp last
      exact absurd other named
  refine ⟨inCall.callId, inCall.state, ?_, fun rings => ?_⟩
  · exact ⟨fun member => inCall.stays.1 (new _ nofun member),
      fun member => inCall.stays.2 (new _ nofun member)⟩
  · exact ⟨(inCall.rings rings).1, fun member => (inCall.rings rings).2 (new _ nofun member)⟩

theorem Outside.not_ringing (outside : Outside seat up down call) : call.state ≠ .ringing := by
  rcases outside.state with idle | ⟨calling, _⟩
  · simp [idle]
  · simp [calling]

theorem Outside.also (outside : Outside seat up down call) (other : ∀ id, r ≠ .accept id) :
    Outside seat (up ++ [r]) down call := by
  refine ⟨outside.callId, ?_, fun p same => ?_⟩
  · exact outside.state.imp_right (And.imp_right (Or.imp_left fun ⟨v, member⟩ =>
      ⟨v, List.mem_append_left _ member⟩))
  · refine (outside.leaves p same).imp (List.mem_append_left _) ?_
    rintro ⟨reject, rings, unaccepted⟩
    refine ⟨List.mem_append_left _ reject, rings, fun member => ?_⟩
    rcases List.mem_append.mp member with before | last
    · exact unaccepted before
    · exact other p.callId (List.mem_singleton.mp last).symm

/-- The client signals. -/
theorem Coherent.signals (coherent : Coherent user seat up down call)
    (msg : Json) (type : SignalingScope.relayed msg) :
    Coherent user seat (up ++ [.signal msg type]) down call := by
  refine coherent.asks nofun nofun (.inl rfl) fun none => ?_
  rcases coherent.settled none with ⟨p, same, inCall⟩ | outside
  · exact .inl ⟨p, same, inCall.also rfl⟩
  · exact .inr (outside.also nofun)

/-- The client asks for a call. -/
theorem Coherent.calls (coherent : Coherent user seat up down call) (idle : call.state = .idle)
    (other : v ≠ user) (callId : call'.callId = call.callId) (calling : call'.state = .calling) :
    Coherent user seat (up ++ [.create v]) down call' := by
  refine coherent.asks ?_ nofun (.inl callId) fun none => ?_
  · rintro v' ⟨⟩
    exact other
  · rcases coherent.settled none with ⟨p, same, inCall⟩ | outside
    · exact absurd idle inCall.state
    · have also := outside.also (r := .create v) nofun
      exact .inr ⟨callId.trans outside.callId, .inr ⟨calling, .inl ⟨v, by simp⟩⟩, also.leaves⟩

/-- The client takes its call up. -/
theorem Coherent.accepts (coherent : Coherent user seat up down call)
    (rings : call.state = .ringing) (callId : call'.callId = call.callId)
    (state : call'.state = .inCall) :
    Coherent user seat (up ++ [.accept call.callId]) down call' := by
  refine coherent.asks nofun ?_ (.inl callId) fun none => ?_
  · rintro id ⟨⟩
    rfl
  · rcases coherent.settled none with ⟨p, same, inCall⟩ | outside
    · refine .inl ⟨p, same, callId.trans inCall.callId, by simp [state], ?_, by simp [state]⟩
      simp [inCall.stays]
    · exact absurd rings outside.not_ringing

/-- The client turns its call down. -/
theorem Coherent.rejects (coherent : Coherent user seat up down call)
    (rings : call.state = .ringing) :
    Coherent user seat (up ++ [.reject call.callId]) down {} := by
  refine coherent.asks nofun ?_ (.inr rfl) fun none => .inr ?_
  · rintro id ⟨⟩
    rfl
  · rcases coherent.settled none with ⟨p, same, inCall⟩ | outside
    · refine ⟨rfl, .inl rfl, fun q same' => .inr ?_⟩
      obtain rfl := Option.some.inj (same.symm.trans same')
      obtain ⟨waits, unaccepted⟩ := inCall.rings rings
      simp [inCall.callId, waits, unaccepted]
    · exact absurd rings outside.not_ringing

/-- The client hangs up. -/
theorem Coherent.hangsUp (coherent : Coherent user seat up down call) :
    Coherent user seat (up ++ [.hangup call.callId]) down {} := by
  refine coherent.asks nofun ?_ (.inr rfl) fun none => .inr ?_
  · rintro id ⟨⟩
    rfl
  · rcases coherent.settled none with ⟨p, same, inCall⟩ | outside
    · refine ⟨rfl, .inl rfl, fun q same' => .inl ?_⟩
      obtain rfl := Option.some.inj (same.symm.trans same')
      simp [inCall.callId]
    · have also := outside.also (r := .hangup call.callId) nofun
      exact ⟨rfl, .inl rfl, also.leaves⟩

end Zaza.Protocol
