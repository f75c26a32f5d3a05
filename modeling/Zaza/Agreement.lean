import Zaza.ClientSafety
import Zaza.Seats

/-!
When client and backend agree at rest.

A client changes its call before the backend has answered, and an answer does
not say which request it is for. So an answer can come too late: the client has
gone on and takes it for something else. `Timely` says of a step that it delivers
no such answer, and `Agreed` is the invariant of every run of such steps; with
no message on its way it is the agreement.
-/
namespace Zaza.Agreement
open Zaza CallManager CallInvariant Protocol Seats

def hasType (type : String) (msg : Json) : Prop := msg.stringMember "type" = some (ascii type)

instance (type : String) (msg : Json) : Decidable (hasType type msg) :=
  inferInstanceAs (Decidable (_ = _))

/-- A message on which the client's call starts or ends, whatever it was before. -/
def setsCall (msg : Json) : Prop :=
  hasType "call.created" msg ∨ hasType "call.incoming" msg ∨ hasType "call.ended" msg ∨
    hasType "call.failed" msg

instance (msg : Json) : Decidable (setsCall msg) := inferInstanceAs (Decidable (_ ∨ _))

/-- The client still waits for the message, or one that sets its call anew is behind
it. For `call.created` this means that the client is calling; for an error that finds
it calling, that the client has not heard of its call yet and gives it up, or that it
does not give it up, and has heard of it or has more answers to come. -/
def Awaits (site : Site) (msg : Json) (rest : List Json) : Prop :=
  (∃ later ∈ rest, setsCall later) ∨
  (hasType "call.created" msg → site.client.session.call.state = .calling) ∧
  (hasType "error" msg → site.client.session.call.state = .calling →
    if site.client.callCleanupDone then site.client.session.call.callId ≠ [] ∨
      (∃ request ∈ site.up, hasType "call.create" request) ∨ ∃ later ∈ rest, hasType "error" later
    else site.client.session.call.callId = [])

instance (site : Site) (msg : Json) (rest : List Json) : Decidable (Awaits site msg rest) :=
  inferInstanceAs (Decidable (_ ∨ _))

/-- Every message that arrives at a client is one it still waits for. -/
def Timely (w : World) : SystemInput → Prop
  | .receive u _ =>
    match (w.site u).down with
    | [] => True
    | msg :: rest => Awaits (w.site u) msg rest
  | _ => True

/-- Nobody knows an id yet. -/
def Unused (sys : SystemConfig) (w : World) (id : Bytes) : Prop :=
  w.server.find id = none ∧ ∀ u ∈ sys.users, (w.site u).client.session.call.callId ≠ id ∧
    ∀ msg ∈ (w.site u).up ++ (w.site u).down, msg.stringMember "callId" ≠ some id

/-- A call that is asked for gets an id nobody knows yet. -/
def Fresh (sys : SystemConfig) (w : World) : SystemInput → Prop
  | .serve u env =>
    match (w.site u).up with
    | [] => True
    | msg :: _ => hasType "call.create" msg → Unused sys w (generateUuid env.draws)
  | _ => True

/-- No message is on its way. -/
def AtRest (sys : SystemConfig) (w : World) : Prop :=
  ∀ u ∈ sys.users, (w.site u).up = [] ∧ (w.site u).down = []

/-- A user's client is in a call exactly when the backend holds the user for busy, and
then it is the call the user takes part in. -/
def Agrees (m : CallManager) (u : Bytes) (s : Session) : Prop :=
  (s.isInCall = true ↔ m.isBusy u = true) ∧
    (m.isBusy u = true → ∃ call, m.find s.call.callId = some call ∧ u ∈ participants call)

/-! ## The invariant -/

/-- A client and its channels fit the seat of its user. -/
structure Fits (cfg : RouterConfig) (u : Bytes) (seat : Option Seat) (site : Site) : Prop where
  userId : site.client.session.userId = u
  coherent : ∃ up down, site.up = up.map Request.json ∧ site.down = down.map (Notice.json cfg) ∧
    Coherent u seat up down site.client.session.call

/-- The invariant: the backend's calls are sound and between two users each, every
client fits its user's seat, and nobody else says anything. -/
structure Agreed (sys : SystemConfig) (w : World) : Prop where
  table : Table w.server
  two : TwoUsers w.server
  absent : ∀ u, u ∉ sys.users → (w.site u).up = []
  sites : ∀ u ∈ sys.users, Fits sys.cfg u (seatOf w.server u) (w.site u)

theorem Agreed.start (sys : SystemConfig) : Agreed sys (World.start sys) where
  table := Table.new sys.ringTimeout
  two id s stored := by simp [World.start, CallManager.new] at stored
  absent u _ := rfl
  sites u _ := ⟨rfl, [], [], rfl, rfl, Coherent.start u⟩

/-- A step of one client leaves the others alone. -/
theorem Agreed.setSite {sys : SystemConfig} {w : World} {u : Bytes} {site : Site}
    (agreed : Agreed sys w) (fits : u ∈ sys.users → Fits sys.cfg u (seatOf w.server u) site)
    (absent : u ∉ sys.users → site.up = []) : Agreed sys (w.setSite u site) := by
  refine ⟨agreed.table, agreed.two, fun x outside => ?_, fun x member => ?_⟩
  · by_cases mine : x = u
    · subst mine
      simpa [World.setSite] using absent outside
    · simpa [World.setSite, mine] using agreed.absent x outside
  · by_cases mine : x = u
    · subst mine
      simpa [World.setSite] using fits member
    · simpa [World.setSite, mine] using agreed.sites x member

/-! ## What a client does -/

section Client
variable {cfg : RouterConfig} {u : Bytes} {seat : Option Seat} {site : Site}

/-- The client goes on to another call and sends a request. -/
theorem Fits.asks {r : Request} {call : CallContext} (fits : Fits cfg u seat site)
    (asks : ∀ {up down}, Coherent u seat up down site.client.session.call →
      Coherent u seat (up ++ [r]) down call) :
    Fits cfg u seat { site with
      client := { site.client with session := { site.client.session with call } }
      up := site.up ++ [r.json] } := by
  obtain ⟨userId, up, down, sent, under, coherent⟩ := fits
  exact ⟨userId, up ++ [r], down, by simp [sent], under, asks coherent⟩

theorem fits_command (fits : Fits cfg u seat site) (command : UserCommand) :
    Fits cfg u seat { site with
      client := { site.client with session := (command.run site.client.session).2.1 }
      up := site.up ++ (command.run site.client.session).2.2 } := by
  have failed : ∀ reason, Fits cfg u seat { site with
      client := { site.client with
        session := (Commands.fail reason site.client.session).2.1 }
      up := site.up ++ (Commands.fail reason site.client.session).2.2 } := by
    intro reason
    simpa [Commands.fail] using fits
  cases command with
  | call args =>
    simp only [UserCommand.run, Commands.call]
    cases args with
    | nil => exact failed _
    | cons callee args =>
      simp only
      split
      · exact failed _
      split
      · exact failed _
      split
      · exact failed _
      rename_i other idle
      rw [fits.userId] at other
      simp only [Session.isInCall, ne_eq, decide_not, Bool.not_eq_true, Bool.not_eq_false',
        decide_eq_true_eq] at idle
      exact fits.asks (r := .create callee) fun coherent => coherent.calls idle other rfl rfl
  | accept =>
    simp only [UserCommand.run, Commands.accept]
    split
    · exact failed _
    rename_i rings
    exact fits.asks (r := .accept _) fun coherent => coherent.accepts (not_not.mp rings) rfl rfl
  | reject =>
    simp only [UserCommand.run, Commands.reject]
    split
    · exact failed _
    rename_i rings
    exact fits.asks (r := .reject _) fun coherent => coherent.rejects (not_not.mp rings)
  | hangup =>
    simp only [UserCommand.run, Commands.hangup]
    split
    · exact failed _
    exact fits.asks (r := .hangup _) fun coherent => coherent.hangsUp

theorem fits_signal (fits : Fits cfg u seat site) (signal : Client.LocalSignal) :
    Fits cfg u seat { site with up := site.up ++ site.client.sendSignal signal } := by
  have asks : ∀ msg, SignalingScope.relayed msg →
      Fits cfg u seat { site with up := site.up ++ [msg] } := fun msg type =>
    fits.asks (r := .signal msg type) fun coherent => coherent.signals msg type
  have silent : Fits cfg u seat { site with up := site.up ++ [] } := by simpa using fits
  cases signal with
  | offer sdp =>
    simp only [Client.sendSignal]
    split
    · exact asks _ (.inl rfl)
    · exact silent
  | answer sdp =>
    simp only [Client.sendSignal]
    split
    · exact asks _ (.inr (.inl rfl))
    · exact silent
  | ice candidate mid =>
    simp only [Client.sendSignal]
    split
    · exact asks _ (.inr (.inr rfl))
    · exact silent

/-! ## What a client hears -/

theorem not_hasType_relayed {msg : Json} {other : String} (type : SignalingScope.relayed msg)
    (differ : ascii "webrtc.offer" ≠ ascii other ∧ ascii "webrtc.answer" ≠ ascii other ∧
      ascii "webrtc.ice" ≠ ascii other) : ¬ hasType other msg := by
  rcases type with offer | answer | ice
  · exact Json.stringMember_ne offer differ.1
  · exact Json.stringMember_ne answer differ.2.1
  · exact Json.stringMember_ne ice differ.2.2

/-- A notice whose message sets the client's call tells of a change. -/
theorem tells_of_setsCall (n : Notice) (sets : setsCall (n.json cfg)) : n.tells ≠ none := by
  intro quiet
  have other : ∀ type, ascii type ≠ ascii "call.created" ∧ ascii type ≠ ascii "call.incoming" ∧
      ascii type ≠ ascii "call.ended" ∧ ascii type ≠ ascii "call.failed" →
      (n.json cfg).stringMember "type" ≠ some (ascii type) := by
    rintro type ⟨created, incoming, ended, failed⟩ typed
    rcases sets with sets | sets | sets | sets
    · exact Json.stringMember_ne typed created sets
    · exact Json.stringMember_ne typed incoming sets
    · exact Json.stringMember_ne typed ended sets
    · exact Json.stringMember_ne typed failed sets
  cases n with
  | created | incoming | ended | failed => cases quiet
  | config => exact other "rtc.config" (by decide) rfl
  | error => exact other "error" (by decide) rfl
  | signal msg type =>
    rcases type with offer | answer | ice
    · exact other "webrtc.offer" (by decide) offer
    · exact other "webrtc.answer" (by decide) answer
    · exact other "webrtc.ice" (by decide) ice

theorem error_of_hasType (n : Notice) (typed : hasType "error" (n.json cfg)) :
    ∃ reason, n = .error reason := by
  cases n with
  | error reason => exact ⟨reason, rfl⟩
  | created => exact absurd typed (Json.stringMember_ne (s := ascii "call.created") rfl (by decide))
  | incoming =>
    exact absurd typed (Json.stringMember_ne (s := ascii "call.incoming") rfl (by decide))
  | config => exact absurd typed (Json.stringMember_ne (s := ascii "rtc.config") rfl (by decide))
  | ended => exact absurd typed (Json.stringMember_ne (s := ascii "call.ended") rfl (by decide))
  | failed => exact absurd typed (Json.stringMember_ne (s := ascii "call.failed") rfl (by decide))
  | signal msg type => exact absurd typed (not_hasType_relayed type (by decide))

theorem create_of_hasType (r : Request) (typed : hasType "call.create" r.json) :
    ∃ v, r = .create v := by
  cases r with
  | create v => exact ⟨v, rfl⟩
  | accept => exact absurd typed (Json.stringMember_ne (s := ascii "call.accept") rfl (by decide))
  | reject => exact absurd typed (Json.stringMember_ne (s := ascii "call.reject") rfl (by decide))
  | hangup => exact absurd typed (Json.stringMember_ne (s := ascii "call.hangup") rfl (by decide))
  | signal msg type => exact absurd typed (not_hasType_relayed type (by decide))

theorem cleanupCall_userId (c : Client) : c.cleanupCall.session.userId = c.session.userId := by
  unfold Client.cleanupCall
  split <;> rfl

theorem cleanupCall_call (c : Client) :
    c.cleanupCall.session.call = if c.callCleanupDone then c.session.call else {} := by
  unfold Client.cleanupCall
  split <;> rfl

/-- The client has heard the first notice. -/
theorem Fits.hears {c : Client} {up : List Request} {down : List Notice}
    (fits : Fits cfg u seat site) (sent : site.up = up.map Request.json)
    (userId : c.session.userId = site.client.session.userId)
    (coherent : Coherent u seat up down c.session.call) :
    Fits cfg u seat { site with client := c, down := down.map (Notice.json cfg) } :=
  ⟨userId.trans fits.userId, up, down, sent, rfl, coherent⟩

/-- An error, which a client that is calling takes for the end of its call unless
`cleanupCall` has already run. -/
theorem coherent_error {c : Client} {up : List Request} {down : List Notice} {reason : Bytes}
    (coherent : Coherent u seat up (.error reason :: down) c.session.call)
    (waits : news down = [] → c.session.call.state = .calling →
      if c.callCleanupDone then c.session.call.callId ≠ [] ∨ (∃ v, .create v ∈ up) ∨
        ∃ reason, .error reason ∈ down
      else c.session.call.callId = []) :
    Coherent u seat up down
      (if c.session.call.state = .calling then c.cleanupCall else c).session.call := by
  by_cases calling : c.session.call.state = .calling
  · rw [if_pos calling, cleanupCall_call]
    split
    · rename_i cleaned
      refine coherent.hears_nothing rfl fun none _ _ _ => ?_
      have more := waits none calling
      rwa [if_pos cleaned] at more
    · rename_i cleaned
      refine coherent.hears_error fun none => ?_
      have unknown := waits none calling
      rwa [if_neg cleaned] at unknown
  · rw [if_neg calling]
    exact coherent.hears_nothing rfl fun _ _ _ now => absurd now calling

/-- What a client awaits, in terms of the protocol. -/
theorem Awaits.settled {n : Notice} {up : List Request} {down : List Notice}
    (sent : site.up = up.map Request.json)
    (awaits : Awaits site (n.json cfg) (down.map (Notice.json cfg))) (none : news down = []) :
    (hasType "call.created" (n.json cfg) → site.client.session.call.state = .calling) ∧
    (hasType "error" (n.json cfg) → site.client.session.call.state = .calling →
      if site.client.callCleanupDone then site.client.session.call.callId ≠ [] ∨
        (∃ v, .create v ∈ up) ∨ ∃ reason, .error reason ∈ down
      else site.client.session.call.callId = []) := by
  obtain ⟨created, error⟩ := awaits.resolve_left (by
    rintro ⟨later, member, sets⟩
    obtain ⟨n', member', rfl⟩ := List.mem_map.mp member
    exact tells_of_setsCall n' sets (List.filterMap_eq_nil_iff.mp none n' member'))
  refine ⟨created, fun typed calling => ?_⟩
  have waits := error typed calling
  split
  · rename_i cleaned
    rw [if_pos cleaned] at waits
    refine waits.imp_right (Or.imp ?_ ?_)
    · rintro ⟨request, member, typed⟩
      rw [sent] at member
      obtain ⟨r, asked, rfl⟩ := List.mem_map.mp member
      obtain ⟨v, rfl⟩ := create_of_hasType r typed
      exact ⟨v, asked⟩
    · rintro ⟨later, member, typed⟩
      obtain ⟨n, told, rfl⟩ := List.mem_map.mp member
      obtain ⟨reason, rfl⟩ := error_of_hasType n typed
      exact ⟨reason, told⟩
  · rename_i cleaned
    rwa [if_neg cleaned] at waits

/-- One case a notice: the client after it is the one `ClientSafety` computes. -/
theorem fits_receive {msg : Json} {rest : List Json} {rtc : Rtc} {c : Client}
    (fits : Fits cfg u seat site) (first : site.down = msg :: rest)
    (awaits : Awaits site msg rest) (heard : site.client.onMessage rtc (some msg) = (.ok (), c)) :
    Fits cfg u seat { site with client := c, down := rest } := by
  obtain ⟨up, down, sent, under, coherent⟩ := fits.coherent
  rw [first] at under
  cases down with
  | nil => cases under
  | cons n down =>
    rw [List.map_cons, List.cons.injEq] at under
    obtain ⟨rfl, rfl⟩ := under
    have awaits := Awaits.settled sent awaits
    cases n with
    | created id =>
      rw [Notice.json, ClientSafety.onMessage_created] at heard
      obtain rfl := (Prod.mk.inj heard).2
      refine fits.hears sent rfl (coherent.hears_seat rfl rfl fun none => ?_)
      have calling := (awaits none).1 rfl
      simp [Client.setCall, calling]
    | incoming id caller =>
      rw [Notice.json, ClientSafety.onMessage_incoming] at heard
      obtain rfl := (Prod.mk.inj heard).2
      exact fits.hears sent rfl (coherent.hears_seat rfl rfl fun none => by simp [Client.setCall])
    | config wall user id =>
      obtain ⟨c', result, turnConfig, kept⟩ :=
        ClientSafety.onMessage_rtcConfig rtc site.client cfg wall user id
      obtain rfl := (Prod.mk.inj (heard.symm.trans result)).2
      refine fits.hears sent (by rw [kept]) ?_
      rw [kept]
      exact coherent.hears_nothing rfl fun _ _ same => by cases same
    | ended id reason =>
      rw [Notice.json, ClientSafety.onMessage_ended] at heard
      obtain rfl := (Prod.mk.inj heard).2
      refine fits.hears sent (cleanupCall_userId _) ?_
      rw [cleanupCall_call, Client.setCall, ite_self]
      exact coherent.hears_end rfl
    | failed id =>
      rw [Notice.json, ClientSafety.onMessage_failed] at heard
      obtain rfl := (Prod.mk.inj heard).2
      refine fits.hears sent (cleanupCall_userId _) ?_
      rw [cleanupCall_call, Client.setCall, ite_self]
      exact coherent.hears_end rfl
    | error reason =>
      rw [Notice.json, ClientSafety.onMessage_error] at heard
      obtain rfl := (Prod.mk.inj heard).2
      refine fits.hears sent ?_ (coherent_error coherent fun none => (awaits none).2 rfl)
      split
      · exact cleanupCall_userId _
      · rfl
    | signal msg type =>
      have kept := ClientSafety.onMessage_relayed rtc site.client type
      rw [Notice.json] at heard
      rw [heard] at kept
      subst kept
      exact fits.hears sent rfl (coherent.hears_nothing rfl fun _ _ same => by cases same)

end Client

/-! ## What the backend does -/

theorem generateUuid_ne_nil (draws : UInt64 × UInt64) : generateUuid draws ≠ [] := by
  intro none
  have length := congrArg List.length none
  simp [generateUuid, List.intercalate, hexField] at length

section Backend
variable {sys : SystemConfig} {w : World} {env : BackendEnv}

/-- An id nobody knows is not on the way to a client either. -/
theorem Unused.fresh {id x : Bytes} {up : List Request} {down : List Notice}
    (unused : Unused sys w id) (member : x ∈ sys.users) (sent : (w.site x).up = up.map Request.json)
    (under : (w.site x).down = down.map (Notice.json sys.cfg)) :
    id ∉ entered down ∧ id ≠ (w.site x).client.session.call.callId ∧
      ∀ r ∈ up, r.names ≠ some id := by
  obtain ⟨unknown, unnamed⟩ := unused.2 x member
  rw [sent, under] at unnamed
  refine ⟨fun ahead => ?_, unknown.symm, fun r asked names => ?_⟩
  · obtain ⟨seat, told, same⟩ := List.mem_filterMap.mp ahead
    obtain ⟨n, member, tells⟩ := List.mem_filterMap.mp told
    refine unnamed _ (List.mem_append_right _ (List.mem_map_of_mem member)) ?_
    cases n <;> cases tells <;> cases same <;> rfl
  · refine unnamed _ (List.mem_append_left _ (List.mem_map_of_mem asked)) ?_
    cases r <;> cases names <;> rfl

/-- What the backend does, once the request it acts on is taken from its channel. -/
theorem Agreed.answer {asked : Bytes → Option Request} {result : CallManager × List Outgoing}
    {taken : World} (agreed : Agreed sys w) (serves : Serves sys.cfg env w.server asked result)
    (unused : ∀ u v, asked u = some (.create v) → Unused sys w (generateUuid env.draws))
    (absent : ∀ x, x ∉ sys.users → (taken.site x).up = [])
    (sites : ∀ x ∈ sys.users, ∃ up down, (w.site x).up = ((asked x).toList ++ up).map Request.json ∧
      (w.site x).down = down.map (Notice.json sys.cfg) ∧
      taken.site x = { w.site x with up := up.map Request.json } ∧
      Coherent x (seatOf w.server x) ((asked x).toList ++ up) down
        (w.site x).client.session.call) : Agreed sys (taken.answer sys result) := by
  refine ⟨serves.table, serves.two, absent, fun x member => ?_⟩
  obtain ⟨up, down, sent, under, popped, coherent⟩ := sites x member
  obtain ⟨notices, told, befalls⟩ := serves.befalls x
  have site : (taken.answer sys result).site x = { w.site x with
      up := up.map Request.json, down := (down ++ notices).map (Notice.json sys.cfg) } := by
    rw [World.answer, List.map_append, ← told, ← under]
    simp only [popped, World.sentTo, List.contains_iff_mem, if_pos member]
    rfl
  rw [site]
  refine ⟨(agreed.sites x member).userId, up, down ++ notices, rfl, rfl, ?_⟩
  refine Coherent.befalls befalls coherent fun p free given => ?_
  obtain ⟨drawn, u, v, asking⟩ := serves.new x p free given
  rw [drawn]
  exact ⟨generateUuid_ne_nil _, (unused u v asking).fresh member sent under⟩

theorem Agreed.checkExpired (agreed : Agreed sys w) : Agreed sys (w.checkExpired sys env) := by
  refine agreed.answer (serves_checkExpired agreed.table agreed.two) nofun agreed.absent ?_
  intro x member
  obtain ⟨up, down, sent, under, coherent⟩ := (agreed.sites x member).coherent
  exact ⟨up, down, sent, under, by rw [← sent], coherent⟩

theorem Agreed.serve {u : Bytes} (agreed : Agreed sys w) (fresh : Fresh sys w (.serve u env)) :
    Agreed sys (w.serve sys u env) := by
  unfold World.serve
  cases first : (w.site u).up with
  | nil =>
    simp only [first]
    exact agreed
  | cons msg rest =>
    have user : u ∈ sys.users := by
      by_contra outside
      rw [agreed.absent u outside] at first
      cases first
    simp only [Fresh, first] at fresh ⊢
    obtain ⟨up, down, sent, under, coherent⟩ := (agreed.sites u user).coherent
    rw [first] at sent
    cases up with
    | nil => cases sent
    | cons r up =>
      rw [List.map_cons, List.cons.injEq] at sent
      obtain ⟨rfl, rfl⟩ := sent
      have serves : Serves sys.cfg env w.server (only u r)
          (Router.handle sys.cfg env w.server u (some r.json)) := by
        refine serves_request r agreed.table agreed.two ?_
        rintro v rfl
        exact ⟨coherent.others v List.mem_cons_self, (fresh rfl).1⟩
      refine agreed.answer serves (fun x v asking => ?_) (fun x outside => ?_) fun x member => ?_
      · by_cases mine : x = u
        · subst mine
          rw [only_self] at asking
          obtain rfl := Option.some.inj asking
          exact fresh rfl
        · rw [only_ne mine] at asking
          cases asking
      · have other : x ≠ u := by
          rintro rfl
          exact outside user
        simpa [World.setSite, other] using agreed.absent x outside
      · by_cases mine : x = u
        · subst mine
          refine ⟨up, down, ?_, under, ?_, ?_⟩
          · rw [only_self]
            exact first
          · simp [World.setSite]
          · rw [only_self]
            exact coherent
        · obtain ⟨up', down', sent', under', coherent'⟩ := (agreed.sites x member).coherent
          refine ⟨up', down', ?_, under', ?_, ?_⟩
          · rw [only_ne mine]
            exact sent'
          · rw [← sent']
            simp [World.setSite, mine]
          · rw [only_ne mine]
            exact coherent'

/-! ## Every run -/

/-- One step of the system. -/
abbrev SystemStep := Transition World SystemInput Unit

/-- **One step preserves the invariant**, if it is timely and the id it draws is new. -/
theorem Agreed.preserved {t : SystemStep} (agreed : Agreed sys t.before)
    (taken : (systemMachine sys).Takes t) (fresh : Fresh sys t.before t.input)
    (timely : Timely t.before t.input) : Agreed sys t.after := by
  obtain ⟨w, input, w', _⟩ := t
  cases input with
  | command u command =>
    obtain rfl : w.command sys u command = w' := (Prod.mk.inj (Except.ok.inj taken)).1
    simp only [World.command, List.contains_iff_mem]
    split
    · rename_i user
      exact agreed.setSite (fun _ => fits_command (agreed.sites u user) command)
        fun outside => absurd user outside
    · exact agreed
  | signal u signal =>
    obtain rfl : w.signal sys u signal = w' := (Prod.mk.inj (Except.ok.inj taken)).1
    simp only [World.signal, List.contains_iff_mem]
    split
    · rename_i user
      exact agreed.setSite (fun _ => fits_signal (agreed.sites u user) signal)
        fun outside => absurd user outside
    · exact agreed
  | receive u rtc =>
    have taken : (w.receive u rtc).map (·, ()) = .ok (w', ()) := taken
    simp only [World.receive, Timely] at taken timely
    cases first : (w.site u).down with
    | nil =>
      simp only [first] at taken
      obtain rfl := (Prod.mk.inj (Except.ok.inj taken)).1
      exact agreed
    | cons msg rest =>
      simp only [first] at taken timely
      cases heard : (w.site u).client.onMessage rtc (some msg) with
      | mk outcome c =>
        rw [heard] at taken
        cases outcome with
        | error e => cases taken
        | ok _ =>
          obtain rfl := (Prod.mk.inj (Except.ok.inj taken)).1
          exact agreed.setSite
            (fun user => fits_receive (agreed.sites u user) first timely heard)
            (agreed.absent u)
  | serve u env =>
    obtain rfl : w.serve sys u env = w' := (Prod.mk.inj (Except.ok.inj taken)).1
    exact agreed.serve fresh
  | checkExpired env =>
    obtain rfl : w.checkExpired sys env = w' := (Prod.mk.inj (Except.ok.inj taken)).1
    exact agreed.checkExpired

theorem Agreed.agrees {u : Bytes} (agreed : Agreed sys w) (user : u ∈ sys.users)
    (rest : AtRest sys w) : Agrees w.server u (w.site u).client.session := by
  obtain ⟨up, down, sent, under, coherent⟩ := (agreed.sites u user).coherent
  obtain ⟨noUp, noDown⟩ := rest u user
  rw [noUp] at sent
  rw [noDown] at under
  obtain rfl := List.map_eq_nil_iff.mp sent.symm
  obtain rfl := List.map_eq_nil_iff.mp under.symm
  obtain ⟨inCall, callId⟩ := coherent.at_rest
  have busy := isBusy_iff_seatOf (u := u) agreed.table
  constructor
  · rw [busy, ← inCall]
    simp [Session.isInCall]
  · intro isBusy
    obtain ⟨p, seat⟩ := Option.ne_none_iff_exists'.mp (busy.mp isBusy)
    obtain ⟨call, found, member, _⟩ := (seatOf_eq_some agreed.table).mp seat
    rw [← callId p seat] at found
    exact ⟨call, found, member⟩

end Backend

/-- **Client and backend agree at rest**, in every run of the backend and any clients
in which the ids drawn are new and no client is handed an answer it no longer waits
for. -/
theorem agree_at_rest (sys : SystemConfig) (run : Run (systemMachine sys) ts w)
    (fresh : ∀ t ∈ ts, Fresh sys t.before t.input) (timely : ∀ t ∈ ts, Timely t.before t.input)
    (rest : AtRest sys w) : ∀ u ∈ sys.users, Agrees w.server u (w.site u).client.session := by
  intro u user
  have agreed : Agreed sys w := run.invariant_when (Agreed sys)
    (fun t => Fresh sys t.before t.input ∧ Timely t.before t.input) (Agreed.start sys)
    (fun t before taken meets => before.preserved taken meets.1 meets.2)
    (fun t member => ⟨fresh t member, timely t member⟩)
  exact agreed.agrees user rest

instance (w : World) (input : SystemInput) : Decidable (Timely w input) :=
  match input with
  | .receive u _ =>
    match first : (w.site u).down with
    | [] => isTrue (by simp [Timely, first])
    | msg :: rest => decidable_of_iff (Awaits (w.site u) msg rest) (by simp [Timely, first])
  | .command _ _ => isTrue trivial
  | .signal _ _ => isTrue trivial
  | .serve _ _ => isTrue trivial
  | .checkExpired _ => isTrue trivial

instance (sys : SystemConfig) (w : World) (id : Bytes) : Decidable (Unused sys w id) :=
  inferInstanceAs (Decidable (_ ∧ _))

instance (sys : SystemConfig) (w : World) (input : SystemInput) : Decidable (Fresh sys w input) :=
  match input with
  | .serve u env =>
    match first : (w.site u).up with
    | [] => isTrue (by simp [Fresh, first])
    | msg :: _ =>
      decidable_of_iff (hasType "call.create" msg → Unused sys w (generateUuid env.draws))
        (by simp [Fresh, first])
  | .command _ _ => isTrue trivial
  | .signal _ _ => isTrue trivial
  | .receive _ _ => isTrue trivial
  | .checkExpired _ => isTrue trivial

instance (sys : SystemConfig) (w : World) : Decidable (AtRest sys w) :=
  inferInstanceAs (Decidable (∀ u ∈ sys.users, _ = [] ∧ _ = []))

/-- Two users and their backend. -/
def twoUsers : SystemConfig :=
  ⟨CallLife.deployed, 30, [ascii "alice", ascii "bob"], fun _ => ascii "token"⟩

/-- Alice calls bob, who takes the call up. -/
def takenUp : List SystemInput :=
  [.command (ascii "alice") (.call [ascii "bob"]), .serve (ascii "alice") (surroundings 0 1),
    .receive (ascii "alice") ClientSafety.acceptAll, .receive (ascii "bob") ClientSafety.acceptAll,
    .command (ascii "bob") .accept, .serve (ascii "bob") (surroundings 1 0),
    .receive (ascii "alice") ClientSafety.acceptAll, .receive (ascii "bob") ClientSafety.acceptAll]

theorem agree_at_rest_taken_up :
    ∃ ts w, Run (systemMachine twoUsers) ts w ∧ AtRest twoUsers w ∧
      w.server.isBusy (ascii "bob") = true ∧
      ∀ u ∈ twoUsers.users, Agrees w.server u (w.site u).client.session := by
  obtain ⟨ts, w, run, check⟩ := Run.of_exec (systemMachine twoUsers) takenUp
    (fun ts w => AtRest twoUsers w ∧ w.server.isBusy (ascii "bob") = true ∧
      (∀ t ∈ ts, Fresh twoUsers t.before t.input) ∧ ∀ t ∈ ts, Timely t.before t.input)
    (by decide +kernel)
  obtain ⟨rest, busy, fresh, timely⟩ := of_decide_eq_true check
  exact ⟨ts, w, run, rest, busy, agree_at_rest twoUsers run fresh timely rest⟩

/-- Alice calls bob and hangs up before she has heard of the call's id. -/
def hungUpEarly : List SystemInput :=
  [.command (ascii "alice") (.call [ascii "bob"]), .command (ascii "alice") .hangup,
    .serve (ascii "alice") (surroundings 0 1), .serve (ascii "alice") (surroundings 1 0),
    .receive (ascii "alice") ClientSafety.acceptAll,
    .receive (ascii "alice") ClientSafety.acceptAll,
    .receive (ascii "bob") ClientSafety.acceptAll]

/-- Her client is idle then, and the backend holds her for busy. -/
theorem early_hangup_leaves_busy : ¬ ∀ sys ts w, Run (systemMachine sys) ts w →
    (∀ t ∈ ts, Fresh sys t.before t.input) → AtRest sys w →
    ∀ u ∈ sys.users, Agrees w.server u (w.site u).client.session := by
  intro all
  obtain ⟨ts, w, run, check⟩ := Run.of_exec (systemMachine twoUsers) hungUpEarly
    (fun ts w => AtRest twoUsers w ∧ (∀ t ∈ ts, Fresh twoUsers t.before t.input) ∧
      (w.site (ascii "alice")).client.session.isInCall = false ∧
      w.server.isBusy (ascii "alice") = true) (by decide +kernel)
  obtain ⟨rest, fresh, idle, busy⟩ := of_decide_eq_true check
  have agrees := all twoUsers ts w run fresh rest (ascii "alice") List.mem_cons_self
  have inCall := agrees.1.mpr busy
  rw [idle] at inCall
  cases inCall

end Zaza.Agreement
