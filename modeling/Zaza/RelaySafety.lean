import Zaza.RelaySteps

/-!
What the relay lets through, over whole runs.

Towards peers the server asks the sender's permissions, and those are clean:
no allocation ever holds a permission or a channel for a denied address
(`Clean`), so nothing is forwarded to one.

Towards its own clients there are three delivery sites. `handlePeerData` asks
the receiver's permissions; the two sites that deliver from one local client to
another ask only the sender's (`LocalPermitted` is what then is missing). None
of the three knows the receiver's transport (`SharedTransport`).
-/
namespace Zaza

/-- The client and the peer of a packet that carries the client's payload on. -/
def Purpose.forwards : Purpose → Option (Endpoint × Endpoint)
  | .toPeer client peer => some (client, peer)
  | .toLocal client peer _ _ => some (client, peer)
  | _ => none

/-- The source and the receiving allocation of a packet that carries peer data
to a client. -/
def Purpose.delivers : Purpose → Option (Endpoint × Ptr)
  | .toLocal _ _ source receiver => some (source, receiver)
  | .fromPeer source receiver => some (source, receiver)
  | _ => none

namespace RelaySafety
open AllocationManager AllocationSteps AllocationInvariant TurnDispatcher DispatcherSteps RelaySteps

variable {host : Host} {cfg : Config} {env : Env} {d : TurnDispatcher} {a b : Allocation}
  {t : Transition TurnDispatcher (Event × Env) (List Sent)}
  {ts : List (Transition TurnDispatcher (Event × Env) (List Sent))}
  {source : Endpoint} {q : Ptr} {via : Transport}

/-! ## Clean allocations -/

/-- Text the server wrote for an address it allows. -/
def Written (host : Host) (address : Bytes) : Prop :=
  isDeniedAddress host address = false ∧ ∃ ip, address = host.addressToString ip

/-- Every permission and every channel is for an allowed address, under its own
key or a valid channel number. -/
structure Clean (host : Host) (a : Allocation) : Prop where
  permissions : ∀ address permission, a.permissions.lookup address = some permission →
    permission.address = address ∧ Written host address
  channels : ∀ num binding, a.channels.lookup num = some binding →
    (0x4000 ≤ num ∧ num ≤ 0x4FFF) ∧ Written host binding.peer.address

/-- An IPv4 address in none of the denied ranges. -/
def Allowed (host : Host) (address : Bytes) : Prop :=
  ∃ ip, host.makeAddressV4 address = some ip ∧ deniedIp ip = false

theorem Written.allowed (law : host.AddressesRoundTrip) (written : Written host address) :
    Allowed host address := by
  obtain ⟨allowed, ip, rfl⟩ := written
  refine ⟨ip, law ip, ?_⟩
  simpa [isDeniedAddress, law ip] using allowed

theorem Clean.touch (clean : Clean host a) (write : Touch host env a a') : Clean host a' := by
  cases write with
  | refresh expiresAt => exact ⟨clean.permissions, clean.channels⟩
  | permit ip allowed =>
    refine ⟨?_, clean.channels⟩
    intro address permission found
    simp only [Allocation.permit] at found
    by_cases new : address = host.addressToString ip
    · subst new
      rw [AList.lookup_insert] at found
      obtain rfl := Option.some.inj found
      exact ⟨rfl, allowed, ip, rfl⟩
    · rw [AList.lookup_insert_ne new] at found
      exact clean.permissions address permission found
  | bind num ip port valid allowed free =>
    refine ⟨clean.permissions, ?_⟩
    intro num' binding found
    simp only [Allocation.bind] at found
    by_cases new : num' = num
    · subst new
      rw [AList.lookup_insert] at found
      obtain rfl := Option.some.inj found
      exact ⟨valid, allowed, ip, rfl⟩
    · rw [AList.lookup_insert_ne new] at found
      exact clean.channels num' binding found

/-- Every live allocation of a reachable server is clean. -/
theorem clean_of_reachable (reached : Reachable (turnServer host cfg) d) :
    ∀ p a, Live d.manager p a → Clean host a := by
  refine live_of_reachable (fun m client username realm port expiresAt => ?_)
    (fun env a a' write clean => clean.touch write) reached
  constructor <;> intro _ _ found <;> simp [fresh] at found

/-- An address a clean allocation permits is one the server wrote. -/
theorem Clean.written (clean : Clean host a) (permitted : a.hasPermission now address = true) :
    Written host address := by
  unfold Allocation.hasPermission at permitted
  split at permitted
  · simp at permitted
  · rename_i permission held
    exact (clean.permissions address permission held).2

/-! ## Egress -/

/-- What is sent in answer to a packet or a peer's datagram: where it goes and
on which transport. -/
theorem step_sent (taken : (turnServer host cfg).Takes t) (member : sent ∈ t.output) :
    (sent.purpose = .reply ∧ ∃ data via, t.input.1 = .packet data sent.dest via) ∨
    (∃ data sender via a peer payload, t.input.1 = .packet data sender via ∧ sent.via = via ∧
      relayRequest host t.input.2 t.before.manager data sender = some (a, peer, payload) ∧
      ((t.before.manager.find t.before.manager.byRelay peer = none ∧ sent.dest = peer ∧
          sent.purpose = .toPeer sender peer) ∨
        ∃ q b, t.before.manager.find t.before.manager.byRelay peer = some (q, b) ∧
          sent.dest = b.clientAddr ∧ sent.purpose = .toLocal sender peer a.relayedAddr q)) ∨
    ∃ data peer relayAddr q b, t.input.1 = .peerData data peer relayAddr ∧
      t.before.manager.find t.before.manager.byRelay relayAddr = some (q, b) ∧
      b.hasPermission t.input.2.now peer.address = true ∧
      t.before.currentTransport = some sent.via ∧ sent.purpose = .fromPeer peer q ∧
      sent.dest = b.clientAddr := by
  obtain ⟨before, ⟨event, env⟩, after, output⟩ := t
  cases event with
  | packet data sender via =>
    rcases onPacket_sent taken member with
      ⟨reply, dest⟩ | ⟨onto, a, peer, payload, request, goes⟩
    · exact .inl ⟨reply, data, via, by rw [dest]⟩
    · refine .inr (.inl ⟨data, sender, via, a, peer, payload, rfl, onto, request, ?_⟩)
      rcases goes with ⟨outside, rfl⟩ | ⟨q, b, found, dest, purpose⟩
      · exact .inl ⟨outside, rfl, rfl⟩
      · exact .inr ⟨q, b, found, dest, purpose⟩
  | peerData data peer relayAddr =>
    have produced : output = before.callback
        (before.manager.handlePeerData host cfg.manager env data peer relayAddr) :=
      (Prod.mk.inj (Except.ok.inj taken)).2.symm
    subst produced
    obtain ⟨q, b, found, permitted, current, purpose, dest⟩ :=
      (peerData_sent cfg.manager rfl).mp ⟨sent, member, rfl, rfl, rfl⟩
    exact .inr (.inr ⟨data, peer, relayAddr, q, b, rfl, found, permitted, current, purpose, dest⟩)

/-- Whatever is sent goes back to the client that has sent the packet, or it carries the
payload of that client and goes where payload for its peer goes, or it carries a datagram of
a peer to the client behind the relayed address. -/
theorem forwarded_cases (taken : (turnServer host cfg).Takes t) (member : sent ∈ t.output) :
    (sent.purpose = .reply ∧ ∃ data via, t.input.1 = .packet data sent.dest via) ∨
    (∃ data client peer, t.input.1 = .packet data client sent.via ∧
      sent.purpose.forwards = some (client, peer) ∧ Leads t.before.manager peer sent.dest ∧
      ∃ a, t.before.manager.findByClient client = some a ∧
        a.hasPermission t.input.2.now peer.address = true) ∨
    ∃ data peer relayAddr q b, t.input.1 = .peerData data peer relayAddr ∧
      sent.purpose = .fromPeer peer q ∧
      t.before.manager.find t.before.manager.byRelay relayAddr = some (q, b) ∧
      b.hasPermission t.input.2.now peer.address = true ∧ sent.dest = b.clientAddr := by
  rcases step_sent taken member with
    reply | ⟨data, sender, via, a, peer, payload, input, rfl, request, goes⟩ |
      ⟨data, peer, relayAddr, q, b, input, found, permitted, _, purpose, dest⟩
  · exact .inl reply
  · refine .inr (.inl ⟨data, sender, peer, input, ?_, ?_, a, relayRequest_permitted request⟩)
    · rcases goes with ⟨_, _, purpose⟩ | ⟨_, _, _, _, purpose⟩ <;> rw [purpose] <;> rfl
    · rcases goes with ⟨outside, dest, _⟩ | ⟨q, b, inside, dest, _⟩
      · exact .inl ⟨outside, dest⟩
      · exact .inr ⟨q, b, inside, dest⟩
  · exact .inr (.inr ⟨data, peer, relayAddr, q, b, input, purpose, found, permitted, dest⟩)

/-- A packet leaves the server as it should. -/
structure Egress (host : Host) (t : Transition TurnDispatcher (Event × Env) (List Sent))
    (sent : Sent) : Prop where
  /-- An answer goes back to the client that has asked. -/
  reply : sent.purpose = .reply → ∃ data via, t.input.1 = .packet data sent.dest via
  /-- What came from outside goes to the client behind the relayed address. -/
  inbound : ∀ peer q, sent.purpose = .fromPeer peer q → ∃ data relayAddr b,
    t.input.1 = .peerData data peer relayAddr ∧
    t.before.manager.find t.before.manager.byRelay relayAddr = some (q, b) ∧
    sent.dest = b.clientAddr
  /-- Payload of a client goes to its peer, or to the client behind the peer's relayed
  address, and the client's allocation permits the peer, which lies in no denied range. -/
  forwarded : ∀ client peer, sent.purpose.forwards = some (client, peer) →
    (∃ data via, t.input.1 = .packet data client via) ∧
    Leads t.before.manager peer sent.dest ∧
    ∃ a, t.before.manager.findByClient client = some a ∧
      a.hasPermission t.input.2.now peer.address = true ∧ Allowed host peer.address

/-- **The egress filter.** In every run, whatever is forwarded for a client goes
to an address that the client's allocation permits at that moment and that lies
in no denied range; and no allocation holds a permission or a channel for a
denied address, expired or not. -/
theorem egress_filter (host : Host) (cfg : Config) (law : host.AddressesRoundTrip)
    (run : Run (turnServer host cfg) ts d) :
    (∀ t ∈ ts, ∀ sent ∈ t.output, Egress host t sent) ∧
    ∀ p a, Live d.manager p a → (∀ address ∈ a.permissions, Allowed host address) ∧
      ∀ num binding, a.channels.lookup num = some binding →
        Allowed host binding.peer.address := by
  constructor
  · intro t member sent inside
    rcases forwarded_cases (run.takes member) inside with
      ⟨reply, input⟩ | ⟨data, sender, target, input, forwards, leads, a, found, permitted⟩ |
        ⟨data, peer, relayAddr, q, b, input, purpose, found, _, dest⟩
    · exact ⟨fun _ => input, by simp [reply], by simp [reply, Purpose.forwards]⟩
    · refine ⟨fun reply => ?_, fun peer q inbound => ?_, fun client peer same => ?_⟩
      · simp [reply, Purpose.forwards] at forwards
      · simp [inbound, Purpose.forwards] at forwards
      · obtain ⟨rfl, rfl⟩ := Prod.mk.inj (Option.some.inj (forwards.symm.trans same))
        refine ⟨⟨data, _, input⟩, leads, a, found, permitted, ?_⟩
        obtain ⟨p, located⟩ := findByClient_eq_some.mp found
        have clean := clean_of_reachable (run.reachable_before member) p a (live_of_find located)
        exact (clean.written permitted).allowed law
    · refine ⟨by simp [purpose], fun peer' q' inbound => ?_, by simp [purpose, Purpose.forwards]⟩
      obtain ⟨rfl, rfl⟩ := Purpose.fromPeer.inj (purpose.symm.trans inbound)
      exact ⟨data, relayAddr, b, input, found, dest⟩
  · intro p a lives
    have clean := clean_of_reachable ⟨ts, run⟩ p a lives
    constructor
    · intro address held
      obtain ⟨permission, found⟩ := Option.isSome_iff_exists.mp (AList.lookup_isSome.mpr held)
      exact (clean.permissions address permission found).2.allowed law
    · intro num binding found
      exact (clean.channels num binding found).2.allowed law

/-- Both accounts allocate, and one sends to the other's relayed address. -/
theorem egress_filter_relayed :
    ∃ ts d, Run (turnServer Deployment.host Deployment.config) ts d ∧
      (∃ t ∈ ts, ∃ sent ∈ t.output, sent.dest = Deployment.bobAddr ∧ sent.purpose.forwards =
        some (Deployment.aliceAddr, ⟨Deployment.config.relayAddress, 50001⟩)) ∧
      (∀ t ∈ ts, ∀ sent ∈ t.output, Egress Deployment.host t sent) ∧
      ∀ p a, Live d.manager p a → (∀ address ∈ a.permissions, Allowed Deployment.host address) ∧
        ∀ num binding, a.channels.lookup num = some binding →
          Allowed Deployment.host binding.peer.address := by
  obtain ⟨ts, d, run, check⟩ := Run.of_exec (turnServer Deployment.host Deployment.config)
    (Deployment.aliceSends .udp)
    (fun ts _ => ts.any fun t => t.output.any fun sent => sent.dest = Deployment.bobAddr ∧
      sent.purpose.forwards =
        some (Deployment.aliceAddr, ⟨Deployment.config.relayAddress, 50001⟩)) (by decide +kernel)
  exact ⟨ts, d, run, by simpa using check,
    egress_filter Deployment.host Deployment.config Host.posix_roundTrip run⟩

/-! ## Deliveries -/

/-- The step is a client's packet whose relay request ends at the local
allocation `b`. -/
def RelaysTo (host : Host) (t : Transition TurnDispatcher (Event × Env) (List Sent))
    (source : Endpoint) (q : Ptr) (b : Allocation) (via : Transport) : Prop :=
  ∃ data sender a peer payload, t.input.1 = .packet data sender via ∧
    relayRequest host t.input.2 t.before.manager data sender = some (a, peer, payload) ∧
    t.before.manager.find t.before.manager.byRelay peer = some (q, b) ∧ source = a.relayedAddr

/-- The step is a peer's datagram for `b`, which permits it. `via` is the
transport of the last STUN message the server has handled. -/
def PeerReaches (t : Transition TurnDispatcher (Event × Env) (List Sent))
    (source : Endpoint) (q : Ptr) (b : Allocation) (via : Transport) : Prop :=
  ∃ data relayAddr, t.input.1 = .peerData data source relayAddr ∧
    t.before.manager.find t.before.manager.byRelay relayAddr = some (q, b) ∧
    b.hasPermission t.input.2.now source.address = true ∧ t.before.currentTransport = some via

/-- The relay address is IPv4 text whenever a request for it was permitted. -/
theorem relay_text (law : host.AddressesRoundTrip) (reached : Reachable (turnServer host cfg) d)
    (request : relayRequest host env d.manager data sender = some (a, peer, payload))
    (found : d.manager.find d.manager.byRelay peer = some (q, b)) :
    ∃ ip, host.makeAddressV4 a.relayedAddr.address = some ip := by
  have inv := (serverInv_of_reachable reached).tables
  obtain ⟨mine, permitted⟩ := relayRequest_permitted request
  obtain ⟨p, located⟩ := findByClient_eq_some.mp mine
  obtain ⟨_, ip, written⟩ :=
    (clean_of_reachable reached p a (live_of_find located)).written permitted
  obtain ⟨same, lives⟩ := inv.relay_exact found
  have shared : a.relayedAddr.address = peer.address := by
    rw [← same, (inv.relayed p a (live_of_find located)).1, (inv.relayed q b lives).1]
  exact ⟨ip, by rw [shared, written, law ip]⟩

/-- Peer data reaches a client in exactly these two ways. -/
theorem delivered_iff (law : host.AddressesRoundTrip)
    (reached : Reachable (turnServer host cfg) t.before) (taken : (turnServer host cfg).Takes t) :
    (∃ sent ∈ t.output, sent.purpose.delivers = some (source, q) ∧ sent.dest = dest ∧
        sent.via = via) ↔
      ∃ b, (RelaysTo host t source q b via ∨ PeerReaches t source q b via) ∧
        dest = b.clientAddr := by
  constructor
  · rintro ⟨sent, member, delivers, rfl, rfl⟩
    rcases step_sent taken member with
      reply | ⟨data, sender, via, a, peer, payload, input, onto, request, goes⟩ |
        ⟨data, peer, relayAddr, q', b, input, found, permitted, current, purpose, dest⟩
    · simp [reply, Purpose.delivers] at delivers
    · rcases goes with purpose | ⟨q', b, found, dest, purpose⟩
      · simp [purpose, Purpose.delivers] at delivers
      · obtain ⟨rfl, rfl⟩ := by simpa [purpose, Purpose.delivers] using delivers
        exact ⟨b, .inl ⟨data, sender, a, peer, payload, onto ▸ input, request, found, rfl⟩, dest⟩
    · obtain ⟨rfl, rfl⟩ := by simpa [purpose, Purpose.delivers] using delivers
      exact ⟨b, .inr ⟨data, relayAddr, input, found, permitted, current⟩, dest⟩
  · obtain ⟨before, ⟨event, env⟩, after, output⟩ := t
    rintro ⟨b, ⟨data, sender, a, peer, payload, input, request, found, rfl⟩ |
      ⟨data, relayAddr, input, found, permitted, current⟩, rfl⟩
    · obtain rfl : event = .packet data sender via := input
      obtain ⟨ip, text⟩ := relay_text law reached request found
      obtain ⟨d', frame, sends, _⟩ := relay_local cfg via request found text
      obtain ⟨_, rfl⟩ := Prod.mk.inj (Except.ok.inj (sends.symm.trans taken))
      exact ⟨_, List.mem_singleton_self _, rfl, rfl, rfl⟩
    · obtain rfl : event = .peerData data source relayAddr := input
      have produced : output = before.callback
          (before.manager.handlePeerData host cfg.manager env data source relayAddr) :=
        (Prod.mk.inj (Except.ok.inj taken)).2.symm
      subst produced
      obtain ⟨sent, member, purpose, dest, onto⟩ := (peerData_sent cfg.manager rfl).mpr
        ⟨q, b, found, permitted, current, rfl, rfl⟩
      exact ⟨sent, member, by rw [purpose, Purpose.delivers], dest, onto⟩

/-- The receiver is a live allocation. -/
theorem receiver_lives (reached : Reachable (turnServer host cfg) t.before)
    (how : RelaysTo host t source q b via ∨ PeerReaches t source q b via) :
    Live t.before.manager q b := by
  have inv := (serverInv_of_reachable reached).tables
  rcases how with ⟨_, _, _, _, _, _, _, found, _⟩ | ⟨_, _, _, found, _⟩
  · exact (inv.relay_exact found).2
  · exact (inv.relay_exact found).2

/-- In the deployment, one account's data is delivered to the other. -/
theorem delivery_run : ∃ ts d, Run (turnServer Deployment.host Deployment.config) ts d ∧
    ∃ t ∈ ts, ∃ sent ∈ t.output, sent.purpose.delivers.isSome := by
  obtain ⟨ts, d, run, check⟩ := Run.of_exec (turnServer Deployment.host Deployment.config)
    (Deployment.aliceSends .udp)
    (fun ts _ => ts.any fun t => t.output.any fun sent => sent.purpose.delivers.isSome)
    (by decide +kernel)
  exact ⟨ts, d, run, by simpa using check⟩

/-! ## The receiver's permission -/

/-- Every packet that carries peer data to a client is permitted, at that
moment, by the client's own allocation. -/
def DeliveriesPermitted (t : Transition TurnDispatcher (Event × Env) (List Sent)) : Prop :=
  ∀ sent ∈ t.output, ∀ source q, sent.purpose.delivers = some (source, q) →
    ∃ b, Live t.before.manager q b ∧ sent.dest = b.clientAddr ∧
      b.hasPermission t.input.2.now source.address = true

/-- A request that ends at a local allocation finds a permission there for the
relayed address of its sender. -/
def LocalPermitted (host : Host) (t : Transition TurnDispatcher (Event × Env) (List Sent)) : Prop :=
  ∀ source q b via, RelaysTo host t source q b via →
    b.hasPermission t.input.2.now source.address = true

theorem deliveriesPermitted_iff_step (law : host.AddressesRoundTrip)
    (reached : Reachable (turnServer host cfg) t.before) (taken : (turnServer host cfg).Takes t) :
    DeliveriesPermitted t ↔ LocalPermitted host t := by
  constructor
  · intro permitted source q b via relays
    obtain ⟨sent, member, delivers, dest, _⟩ :=
      (delivered_iff law reached taken).mpr ⟨b, .inl relays, rfl⟩
    obtain ⟨b', known, _, holds⟩ := permitted sent member source q delivers
    obtain rfl : b' = b := Option.some.inj
      (known.1.symm.trans (receiver_lives reached (.inl relays)).1)
    exact holds
  · intro permitted sent member source q delivers
    obtain ⟨b, how, dest⟩ :=
      (delivered_iff law reached taken).mp ⟨sent, member, delivers, rfl, rfl⟩
    refine ⟨b, receiver_lives reached how, dest, ?_⟩
    rcases how with relays | ⟨_, _, _, _, holds, _⟩
    · exact permitted source q b sent.via relays
    · exact holds

/-- **When deliveries are permitted by their receivers.** A run delivers peer
data only with the receiver's permission exactly when, at every relay request
that ends at a local allocation, that allocation happens to permit the sender's
relayed address: the two local paths do not ask for it. -/
theorem deliveries_permitted_iff (host : Host) (cfg : Config) (law : host.AddressesRoundTrip)
    (run : Run (turnServer host cfg) ts d) :
    (∀ t ∈ ts, DeliveriesPermitted t) ↔ ∀ t ∈ ts, LocalPermitted host t := by
  have step : ∀ t ∈ ts, (DeliveriesPermitted t ↔ LocalPermitted host t) := fun t member =>
    deliveriesPermitted_iff_step law (run.reachable_before member) (run.takes member)
  exact forall₂_congr step

/-- The same on the run in which one account sends to the other. -/
theorem deliveries_permitted_iff_relayed :
    ∃ ts d, Run (turnServer Deployment.host Deployment.config) ts d ∧
      (∃ t ∈ ts, ∃ sent ∈ t.output, sent.purpose.delivers.isSome) ∧
      ((∀ t ∈ ts, DeliveriesPermitted t) ↔ ∀ t ∈ ts, LocalPermitted Deployment.host t) := by
  obtain ⟨ts, d, run, delivery⟩ := delivery_run
  exact ⟨ts, d, run, delivery,
    deliveries_permitted_iff Deployment.host Deployment.config Host.posix_roundTrip run⟩

/-- The second account has permitted nobody, and is sent the first one's data. -/
theorem delivery_without_permission : ¬ ∀ host cfg ts d, Host.AddressesRoundTrip host →
    Run (turnServer host cfg) ts d → ∀ t ∈ ts, DeliveriesPermitted t := by
  intro all
  obtain ⟨ts, d, run, check⟩ := Run.of_exec (turnServer Deployment.host Deployment.config)
    (Deployment.aliceSends .udp)
    (fun ts _ => ts.any fun t => t.output.any fun sent =>
      sent.purpose.delivers.any fun delivery =>
        !(t.before.manager.heap[delivery.2]?.any fun b =>
          b.hasPermission t.input.2.now delivery.1.address)) (by decide +kernel)
  simp only [List.any_eq_true, Option.any_eq_true, Bool.not_eq_true', Prod.exists] at check
  obtain ⟨t, member, sent, inside, source, q, delivers, refused⟩ := check
  obtain ⟨b, lives, _, permitted⟩ :=
    all _ _ ts d Host.posix_roundTrip run t member sent inside source q delivers
  simp [lives.1, permitted] at refused

/-! ## The receiver's transport -/

/-- The transport a packet came in on. -/
def arrivedOn : Event → Option Transport
  | .packet _ _ via => some via
  | .peerData .. => none

/-- The allocation at `q` was made by a packet that came in on `via`. -/
def AllocatedOn (earlier : List (Transition TurnDispatcher (Event × Env) (List Sent))) (q : Ptr)
    (via : Transport) : Prop :=
  ∃ t ∈ earlier, arrivedOn t.input.1 = some via ∧
    t.before.manager.heap.length = q ∧ t.after.manager.heap.length = q + 1

instance (earlier : List (Transition TurnDispatcher (Event × Env) (List Sent))) (q : Ptr)
    (via : Transport) : Decidable (AllocatedOn earlier q via) :=
  inferInstanceAs (Decidable (∃ t ∈ earlier, arrivedOn t.input.1 = some via ∧
    t.before.manager.heap.length = q ∧ t.after.manager.heap.length = q + 1))

/-- Whatever carries peer data to a client goes to the client of its allocation, and leaves on
the transport the allocation was made on. -/
def OwnTransport (ts : List (Transition TurnDispatcher (Event × Env) (List Sent))) : Prop :=
  ∀ earlier t, earlier ++ [t] <+: ts → ∀ sent ∈ t.output, ∀ source q,
    sent.purpose.delivers = some (source, q) →
      (∃ b, Live t.before.manager q b ∧ sent.dest = b.clientAddr) ∧ AllocatedOn earlier q sent.via

/-- Whoever sends to a local client uses that client's transport, and so did
the last STUN message before a peer's datagram. -/
def SharedTransport (host : Host)
    (ts : List (Transition TurnDispatcher (Event × Env) (List Sent))) : Prop :=
  ∀ earlier t, earlier ++ [t] <+: ts → ∀ source q b via,
    RelaysTo host t source q b via ∨ PeerReaches t source q b via → AllocatedOn earlier q via

/-- **When data reaches a client on its own transport.** A run delivers on the
receivers' transports exactly when every sender to a local client uses that
client's transport, and the last STUN message before every delivered peer
datagram came in on it. -/
theorem own_transport_iff (host : Host) (cfg : Config) (law : host.AddressesRoundTrip)
    (run : Run (turnServer host cfg) ts d) : OwnTransport ts ↔ SharedTransport host ts := by
  have step : ∀ {earlier t}, earlier ++ [t] <+: ts →
      Reachable (turnServer host cfg) t.before ∧ (turnServer host cfg).Takes t := by
    intro earlier t initial
    have member : t ∈ ts := initial.subset (by simp)
    exact ⟨run.reachable_before member, run.takes member⟩
  constructor
  · intro own earlier t initial source q b via how
    obtain ⟨reached, taken⟩ := step initial
    obtain ⟨sent, member, delivers, _, rfl⟩ :=
      (delivered_iff law reached taken).mpr ⟨b, how, rfl⟩
    exact (own earlier t initial sent member source q delivers).2
  · intro shared earlier t initial sent member source q delivers
    obtain ⟨reached, taken⟩ := step initial
    obtain ⟨b, how, dest⟩ :=
      (delivered_iff law reached taken).mp ⟨sent, member, delivers, rfl, rfl⟩
    exact ⟨⟨b, receiver_lives reached how, dest⟩,
      shared earlier t initial source q b sent.via how⟩

/-- The same on a run in which both clients use one transport. -/
theorem own_transport_iff_relayed :
    ∃ ts d, Run (turnServer Deployment.host Deployment.config) ts d ∧
      (∃ t ∈ ts, ∃ sent ∈ t.output, sent.purpose.delivers.isSome) ∧
      (OwnTransport ts ↔ SharedTransport Deployment.host ts) := by
  obtain ⟨ts, d, run, delivery⟩ := delivery_run
  exact ⟨ts, d, run, delivery,
    own_transport_iff Deployment.host Deployment.config Host.posix_roundTrip run⟩

/-- The second account has come over TCP and is sent the data of the first over
UDP. -/
theorem delivery_on_sender_transport : ¬ ∀ host cfg ts d, Host.AddressesRoundTrip host →
    Run (turnServer host cfg) ts d → OwnTransport ts := by
  intro all
  obtain ⟨ts, d, run, check⟩ := Run.of_exec (turnServer Deployment.host Deployment.config)
    (Deployment.aliceSends .tcp)
    (fun ts _ => ts.getLast?.any (fun t => t.output.any fun sent =>
        sent.purpose.delivers.any fun delivery =>
          ¬ AllocatedOn ts.dropLast delivery.2 sent.via)) (by decide +kernel)
  simp only [Option.any_eq_true, List.any_eq_true, decide_eq_true_eq, Prod.exists] at check
  obtain ⟨t, last, sent, inside, source, q, delivers, elsewhere⟩ := check
  have initial : ts.dropLast ++ [t] <+: ts := by
    rw [List.dropLast_append_getLast? t last]
  exact elsewhere
    (all _ _ ts d Host.posix_roundTrip run _ t initial sent inside source q delivers).2

end RelaySafety

end Zaza
