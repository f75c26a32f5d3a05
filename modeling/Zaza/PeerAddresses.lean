import Zaza.FailedRequests
import Zaza.RelaySteps

/-!
The values a peer address is read from.

Three handlers take an address and a port out of an XOR-PEER-ADDRESS value, and
all three ask only that the value has eight bytes. `MessageBuilder` writes eight
bytes with family 0x01 in front; the readers look at neither the family nor the
end of the value. So what they read is what the encoder would write for it
exactly if the value has the encoder's length and family (`xorAddress_iff`), and
a value of the other family is taken for the address of some IPv4 host. What counts
as a use is read off what the handlers leave behind and send, and they do nothing
else with an address (`onlyUses`).
-/
namespace Zaza.PeerAddresses
open Zaza StunCodec AllocationManager AllocationSteps Responses FailedRequests RelaySteps

variable {host : Host} {cfg : ManagerConfig} {env : Env} {m : AllocationManager}
  {msg : TurnMessage} {client : Endpoint} {v : Bytes} {ip : UInt32} {port : UInt16}

/-- Eight bytes, of family IPv4. -/
def Canonical (v : Bytes) : Prop :=
  v.length = 8 ∧ byteAt v 0 = 0x00 ∧ byteAt v 1 = 0x01

/-- The decoder's result is what the encoder writes the value for exactly if the value
has the encoder's form. -/
theorem xorAddress_iff (v : Bytes) :
    v = MessageBuilder.xorAddress (peerIp v) (peerPort v) ↔ Canonical v := by
  constructor
  · intro same
    rw [same]
    exact ⟨rfl, rfl, rfl⟩
  · rintro ⟨size, zero, family⟩
    match v, size with
    | [b0, b1, b2, b3, b4, b5, b6, b7], _ =>
      obtain rfl : b0 = 0x00 := zero
      obtain rfl : b1 = 0x01 := family
      have address : xorAddrV4 (peerIp [0x00, 0x01, b2, b3, b4, b5, b6, b7]) =
          be32 b4 b5 b6 b7 := by
        change be32 b4 b5 b6 b7 ^^^ kMagicCookie ^^^ kMagicCookie = _
        rw [UInt32.xor_assoc, UInt32.xor_self, UInt32.xor_zero]
      have number : xorPort (peerPort [0x00, 0x01, b2, b3, b4, b5, b6, b7]) = be16 b2 b3 := by
        change be16 b2 b3 ^^^ (kMagicCookie >>> 16).toUInt16 ^^^ (kMagicCookie >>> 16).toUInt16 = _
        rw [UInt16.xor_assoc, UInt16.xor_self, UInt16.xor_zero]
      rw [MessageBuilder.xorAddress, address, number, bytes16_be16, bytes32_be32]
      rfl

/-- An encoder's value is decoded to what it was written for, so another address or
port has another value. -/
theorem eq_xorAddress_iff (v : Bytes) (ip : UInt32) (port : UInt16) :
    v = MessageBuilder.xorAddress ip port ↔
      Canonical v ∧ peerIp v = ip ∧ peerPort v = port := by
  constructor
  · rintro rfl
    exact ⟨⟨rfl, rfl, rfl⟩, peerIp_xorAddress ip port, peerPort_xorAddress ip port⟩
  · rintro ⟨canonical, rfl, rfl⟩
    exact (xorAddress_iff v).mpr canonical

/-! ## Uses -/

/-- An XOR-PEER-ADDRESS attribute with this value. -/
def addressAttr (v : Bytes) : Attribute := ⟨AttrType.xorPeerAddress, v⟩

/-- CreatePermission takes the value for the address. -/
structure CreatesPermission (host : Host) (env : Env) (m : AllocationManager) (msg : TurnMessage)
    (client : Endpoint) (v : Bytes) (ip : UInt32) : Prop where
  /-- The request has the value, and is granted if it ends there. -/
  reached : ∃ front rest, msg.attributes = front ++ addressAttr v :: rest ∧
    responseClass (handleCreatePermission host env m
      { msg with attributes := front ++ [addressAttr v] } client).2 = .successResponse
  /-- With the value alone it is granted and writes the permission for the address, and nothing
  else, into the client's allocation. -/
  writes : responseClass (handleCreatePermission host env m
      { msg with attributes := [addressAttr v] } client).2 = .successResponse ∧
    ∃ a, m.findByClient client = some a ∧
      (handleCreatePermission host env m { msg with attributes := [addressAttr v] }
        client).1.findByClient client = some (a.permit env.now (host.addressToString ip))
  /-- As it stands it leaves the permission there. -/
  leaves : permissionOf (handleCreatePermission host env m msg client).1 client
    (host.addressToString ip) = some (grant env (host.addressToString ip))

/-- The peer the client's allocation binds a channel to. -/
def channelOf (m : AllocationManager) (client : Endpoint) (num : UInt16) :
    Option ChannelBinding :=
  (m.findByClient client).bind fun alloc => alloc.channels.lookup num

/-- ChannelBind takes the value for its peer, and then the number of the request is
bound to the endpoint. -/
def BindsChannel (host : Host) (env : Env) (m : AllocationManager) (msg : TurnMessage)
    (client : Endpoint) (v : Bytes) (ip : UInt32) (port : UInt16) : Prop :=
  ∃ chAttr, msg.findAttr AttrType.channelNumber = some chAttr ∧
    (msg.findAttr AttrType.xorPeerAddress).map Attribute.value = some v ∧
    responseClass (handleChannelBind host env m msg client).2 = .successResponse ∧
    (channelOf (handleChannelBind host env m msg client).1 client
      (be16 (byteAt chAttr.value 0) (byteAt chAttr.value 1))).map ChannelBinding.peer =
        some ⟨host.addressToString ip, port⟩

/-- The datagram carries payload of a client on to a peer: as it is to the peer, or in a Data
indication to the client behind the peer's relayed address. -/
def CarriesTo (host : Host) (m : AllocationManager) (client : Endpoint) (payload : Bytes)
    (peer : Endpoint) (datagram : Datagram) : Prop :=
  (m.find m.byRelay peer = none ∧ datagram = ⟨payload, peer, .toPeer client peer⟩) ∨
    ∃ a q b, m.findByClient client = some a ∧ m.find m.byRelay peer = some (q, b) ∧
      datagram = ⟨makeDataIndication zeroTid
        ((host.makeAddressV4 a.relayedAddr.address).getD 0) a.relayedAddr.port payload,
        b.clientAddr, .toLocal client peer a.relayedAddr q⟩

/-- Send takes the value for its peer and carries its data on to the endpoint. -/
def Forwards (host : Host) (cfg : ManagerConfig) (env : Env) (m : AllocationManager)
    (msg : TurnMessage) (client : Endpoint) (v : Bytes) (ip : UInt32) (port : UInt16) : Prop :=
  (msg.findAttr AttrType.xorPeerAddress).map Attribute.value = some v ∧
  ∃ dataAttr, msg.findAttr AttrType.data = some dataAttr ∧
    ∃ datagram ∈ handleSend host cfg env m msg client,
      CarriesTo host m client dataAttr.value ⟨host.addressToString ip, port⟩ datagram

/-- Whatever a handler grants, binds or sends, it has taken a value for it. -/
structure OnlyUses (host : Host) (cfg : ManagerConfig) (env : Env) (m : AllocationManager)
    (msg : TurnMessage) (client : Endpoint) : Prop where
  permission : ∀ address, permissionOf (handleCreatePermission host env m msg client).1 client
      address ≠ permissionOf m client address →
    ∃ v ip, address = host.addressToString ip ∧ CreatesPermission host env m msg client v ip
  channel : ∀ num, channelOf (handleChannelBind host env m msg client).1 client num ≠
      channelOf m client num →
    ∃ v ip port, BindsChannel host env m msg client v ip port ∧
      (channelOf (handleChannelBind host env m msg client).1 client num).map
        ChannelBinding.peer = some ⟨host.addressToString ip, port⟩
  boundPermission : ∀ address, permissionOf (handleChannelBind host env m msg client).1 client
      address ≠ permissionOf m client address →
    ∃ v ip port, address = host.addressToString ip ∧
      BindsChannel host env m msg client v ip port
  send : ∀ datagram ∈ handleSend host cfg env m msg client, ∃ v ip port dataAttr,
    (msg.findAttr AttrType.xorPeerAddress).map Attribute.value = some v ∧
    msg.findAttr AttrType.data = some dataAttr ∧
    CarriesTo host m client dataAttr.value ⟨host.addressToString ip, port⟩ datagram

/-! ## What the handlers read -/

theorem addressToString_injective (roundTrip : host.AddressesRoundTrip)
    (same : host.addressToString ip = host.addressToString ip') : ip = ip' := by
  have read := roundTrip ip
  rw [same, roundTrip ip'] at read
  exact (Option.some.inj read).symm

/-- A permission that is written says for which address. -/
theorem permit_address {a : Allocation} {now : TimePoint} {address address' : Bytes}
    (same : a.permit now address = a.permit now address') : address = address' := by
  have keys := congrArg (fun b : Allocation => b.permissions.keys) same
  simp only [Allocation.permit, AList.keys_insert, List.cons.injEq] at keys
  exact keys.1

/-- A request with one peer value. -/
theorem createPermission_one {p : Ptr} {a : Allocation}
    (found : m.find m.byClient client = some (p, a)) (v : Bytes) :
    handleCreatePermission host env m { msg with attributes := [addressAttr v] } client =
      if v.length < 8 then (m.store p a, makeError msg.transactionId 400 "Bad Request")
      else if isDeniedAddress host (host.addressToString (peerIp v)) then
        (m.store p a, makeError msg.transactionId 403 "Forbidden")
      else (m.store p (a.permit env.now (host.addressToString (peerIp v))),
        (MessageBuilder.new .createPermission .successResponse msg.transactionId).build) := by
  have loop : permitPeers host env.now [addressAttr v] a false =
      if v.length < 8 then (a, some false)
      else if isDeniedAddress host (host.addressToString (peerIp v)) then (a, none)
      else (a.permit env.now (host.addressToString (peerIp v)), some true) := by
    change permitPeers host env.now [⟨AttrType.xorPeerAddress, v⟩] a false = _
    simp [permitPeers]
  unfold handleCreatePermission
  rw [found]
  simp only [loop]
  by_cases short : v.length < 8
  · simp [short]
  · cases stopped : isDeniedAddress host (host.addressToString (peerIp v)) <;> simp [short]

theorem CreatesPermission.read (roundTrip : host.AddressesRoundTrip)
    (use : CreatesPermission host env m msg client v ip) : 8 ≤ v.length ∧ peerIp v = ip := by
  obtain ⟨granted, a, known, written⟩ := use.writes
  obtain ⟨p, found⟩ := findByClient_eq_some.mp known
  rw [createPermission_one found] at granted written
  split at granted
  · exact absurd granted not_granted
  · rename_i long
    split at granted
    · exact absurd granted not_granted
    · rename_i allowed
      rw [if_neg long, if_neg allowed, findByClient_store _ found] at written
      have address := permit_address (Option.some.inj written)
      exact ⟨by omega, addressToString_injective roundTrip address⟩

/-- A peer before the first denied one stands behind peers that are not denied. -/
theorem beforeDenied_split {attrs : List Attribute} {attr : Attribute}
    (member : attr ∈ beforeDenied host attrs) :
    attr.type = AttrType.xorPeerAddress ∧ 8 ≤ attr.value.length ∧ denied host attr = false ∧
      ∃ front rest, attrs = front ++ attr :: rest ∧
        (peerAttrs front).any (denied host) = false := by
  induction attrs with
  | nil => simp [beforeDenied, peerAttrs] at member
  | cons first attrs ih =>
    by_cases isPeer : first.type = AttrType.xorPeerAddress ∧ 8 ≤ first.value.length
    · have kept : peerAttrs (first :: attrs) = first :: peerAttrs attrs := by
        simp [peerAttrs, isPeer]
      rw [beforeDenied, kept, List.takeWhile_cons] at member
      split at member
      · rename_i allowed
        have allowed : denied host first = false := by simpa using allowed
        rcases List.mem_cons.mp member with rfl | later
        · exact ⟨isPeer.1, isPeer.2, allowed, [], attrs, rfl, rfl⟩
        · obtain ⟨type, long, goes, front, rest, rfl, clean⟩ := ih later
          refine ⟨type, long, goes, first :: front, rest, rfl, ?_⟩
          rw [peerAttrs, List.filter_cons_of_pos (by simpa using isPeer), List.any_cons, allowed]
          exact clean
      · simp at member
    · have skipped : ∀ rest, peerAttrs (first :: rest) = peerAttrs rest := fun rest =>
        List.filter_cons_of_neg (by simpa using isPeer)
      rw [beforeDenied, skipped] at member
      obtain ⟨type, long, goes, front, rest, rfl, clean⟩ := ih member
      exact ⟨type, long, goes, first :: front, rest, rfl, by rw [skipped]; exact clean⟩

/-- A value that is long enough, for an address that is not denied, behind peers that are not
denied either. -/
theorem createsPermission_of {p : Ptr} {a : Allocation} {front rest : List Attribute}
    (found : m.find m.byClient client = some (p, a))
    (split : msg.attributes = front ++ addressAttr v :: rest)
    (clean : (peerAttrs front).any (denied host) = false) (long : 8 ≤ v.length)
    (allowed : denied host (addressAttr v) = false) :
    CreatesPermission host env m msg client v (peerIp v) := by
  have allowed' : isDeniedAddress host (host.addressToString (peerIp v)) = false := allowed
  have together : ∀ rest, peerAttrs (front ++ addressAttr v :: rest) =
      peerAttrs front ++ addressAttr v :: peerAttrs rest := by
    intro rest
    rw [peerAttrs, List.filter_append, List.filter_cons_of_pos (by simp [addressAttr, long])]
    rfl
  constructor
  · obtain ⟨_, answer⟩ := createPermission_found host env
      { msg with attributes := front ++ [addressAttr v] } found
    refine ⟨front, rest, split, ?_⟩
    have none : peerAttrs [] = [] := rfl
    rw [answer, together, if_neg]
    simp [List.any_append, clean, allowed, none]
  · refine ⟨?_, a, findByClient_eq_some.mpr ⟨p, found⟩, ?_⟩
    · rw [createPermission_one found, if_neg (by omega), if_neg (by simp [allowed'])]
      exact responseClass_build _ rfl
    · rw [createPermission_one found, if_neg (by omega), if_neg (by simp [allowed'])]
      exact findByClient_store _ found
  · obtain ⟨after, _⟩ := createPermission_found host env msg found
    have inside : addressAttr v ∈ beforeDenied host msg.attributes := by
      have all : (peerAttrs front).takeWhile (fun attr => !denied host attr) = peerAttrs front := by
        refine List.takeWhile_eq_self_iff.mpr fun attr member => ?_
        simpa using List.any_eq_false.mp clean attr member
      rw [beforeDenied, split, together, List.takeWhile_append, all, if_pos rfl,
        List.takeWhile_cons, if_pos (by simp [allowed])]
      simp
    rw [after]
    exact permitAll_lookup_of_mem inside a

/-- Every permission a CreatePermission changes comes from a value. -/
theorem createPermission_uses {address : Bytes}
    (changed : permissionOf (handleCreatePermission host env m msg client).1 client address ≠
      permissionOf m client address) :
    ∃ v ip, address = host.addressToString ip ∧
      CreatesPermission host env m msg client v ip := by
  cases found : m.find m.byClient client with
  | none => simp [handleCreatePermission, found] at changed
  | some entry =>
    obtain ⟨p, a⟩ := entry
    rw [(createPermission_found host env msg found).1, permissionOf_found found] at changed
    obtain ⟨attr, member, named⟩ : ∃ attr ∈ beforeDenied host msg.attributes,
        peerAddress host attr = address := by
      by_contra nobody
      exact changed (permitAll_lookup_of_notMem
        (fun attr member named => nobody ⟨attr, member, named⟩) a)
    obtain ⟨type, long, allowed, front, rest, split, clean⟩ := beforeDenied_split member
    obtain ⟨_, v⟩ := attr
    obtain rfl := type
    exact ⟨v, peerIp v, named.symm, createsPermission_of found split clean long allowed⟩

/-- A ChannelBind that is granted has written the binding and the permission. -/
theorem handleChannelBind_granted
    (granted : responseClass (handleChannelBind host env m msg client).2 = .successResponse) :
    ∃ p a chAttr peerAttr, m.find m.byClient client = some (p, a) ∧
      msg.findAttr AttrType.channelNumber = some chAttr ∧
      msg.findAttr AttrType.xorPeerAddress = some peerAttr ∧ 8 ≤ peerAttr.value.length ∧
      (handleChannelBind host env m msg client).1 = m.store p
        ((a.bind env.now (be16 (byteAt chAttr.value 0) (byteAt chAttr.value 1))
          (peerEndpoint host peerAttr.value)).permit env.now
          (peerEndpoint host peerAttr.value).address) := by
  revert granted
  unfold handleChannelBind
  split
  · exact fun success => absurd success not_granted
  rename_i p a found
  split
  · rename_i chAttr peerAttr numbered addressed
    split
    · exact fun success => absurd success not_granted
    rename_i long
    simp only
    split
    · exact fun success => absurd success not_granted
    split
    · exact fun success => absurd success not_granted
    split
    · exact fun success => absurd success not_granted
    · exact fun _ => ⟨p, a, chAttr, peerAttr, found, numbered, addressed, by omega, rfl⟩
  · exact fun success => absurd success not_granted

theorem bind_lookup (a : Allocation) (now : TimePoint) (num : UInt16) (peer : Endpoint)
    (address : Bytes) : ((a.bind now num peer).permit now address).channels.lookup num =
      some ⟨num, peer, now + seconds Allocation.kChannelTTL⟩ := by
  simp only [Allocation.permit, Allocation.bind, AList.lookup_insert]

theorem BindsChannel.read (roundTrip : host.AddressesRoundTrip)
    (use : BindsChannel host env m msg client v ip port) :
    8 ≤ v.length ∧ peerIp v = ip ∧ peerPort v = port := by
  obtain ⟨chAttr, numbered, addressed, granted, bound⟩ := use
  obtain ⟨p, a, chAttr', peerAttr, found, numbered', addressed', long, after⟩ :=
    handleChannelBind_granted granted
  obtain rfl := Option.some.inj (numbered.symm.trans numbered')
  obtain rfl : peerAttr.value = v := by simpa [addressed'] using addressed
  rw [channelOf, after, findByClient_store _ found, Option.bind_some, bind_lookup,
    Option.map_some, Option.some.injEq, peerEndpoint, Endpoint.mk.injEq] at bound
  exact ⟨long, addressToString_injective roundTrip bound.1, bound.2⟩

/-- What a ChannelBind changes comes from the value of a request that is granted: the channel of
its number, and the permission for its address. -/
theorem channelBind_uses
    (changed : (handleChannelBind host env m msg client).1 ≠ m) :
    ∃ v num, BindsChannel host env m msg client v (peerIp v) (peerPort v) ∧
      (channelOf (handleChannelBind host env m msg client).1 client num).map
        ChannelBinding.peer = some ⟨host.addressToString (peerIp v), peerPort v⟩ ∧
      (∀ num', num' ≠ num → channelOf (handleChannelBind host env m msg client).1 client num' =
        channelOf m client num') ∧
      ∀ address, address ≠ host.addressToString (peerIp v) →
        permissionOf (handleChannelBind host env m msg client).1 client address =
          permissionOf m client address := by
  have granted := (handleChannelBind_settled host env m msg client).resolve_left changed
  obtain ⟨p, a, chAttr, peerAttr, found, numbered, addressed, long, after⟩ :=
    handleChannelBind_granted granted
  have before : m.findByClient client = some a := findByClient_eq_some.mpr ⟨p, found⟩
  have bound : (channelOf (handleChannelBind host env m msg client).1 client
      (be16 (byteAt chAttr.value 0) (byteAt chAttr.value 1))).map ChannelBinding.peer =
        some (peerEndpoint host peerAttr.value) := by
    rw [channelOf, after, findByClient_store _ found, Option.bind_some, bind_lookup]
    rfl
  refine ⟨peerAttr.value, _, ⟨chAttr, numbered, by rw [addressed]; rfl, granted, bound⟩, bound,
    fun num' other => ?_, fun address other => ?_⟩
  · rw [channelOf, channelOf, after, findByClient_store _ found, before]
    exact AList.lookup_insert_ne other
  · rw [permissionOf, permissionOf, after, findByClient_store _ found, before]
    exact AList.lookup_insert_ne other

/-- The peer a packet carries payload on to, by its label. -/
def addressee : Purpose → Option Endpoint
  | .toPeer _ peer => some peer
  | .toLocal _ peer _ _ => some peer
  | .reply => none
  | .fromPeer _ _ => none

theorem CarriesTo.addressee {payload : Bytes} {peer : Endpoint} {datagram : Datagram}
    (carries : CarriesTo host m client payload peer datagram) :
    addressee datagram.purpose = some peer := by
  rcases carries with ⟨_, rfl⟩ | ⟨_, _, _, _, _, rfl⟩ <;> rfl

/-- Whatever `handleSend` sends carries the data on to the peer it has read. -/
theorem handleSend_carries {datagram : Datagram}
    (sent : datagram ∈ handleSend host cfg env m msg client) :
    ∃ peerAttr dataAttr, msg.findAttr AttrType.xorPeerAddress = some peerAttr ∧
      8 ≤ peerAttr.value.length ∧ msg.findAttr AttrType.data = some dataAttr ∧
      CarriesTo host m client dataAttr.value (peerEndpoint host peerAttr.value) datagram := by
  rw [handleSend_eq] at sent
  cases request : sendRequest host env m msg client with
  | none => simp [request] at sent
  | some asked =>
    obtain ⟨a, peer, payload⟩ := asked
    simp only [request] at sent
    have read : ∃ peerAttr dataAttr, m.findByClient client = some a ∧
        msg.findAttr AttrType.xorPeerAddress = some peerAttr ∧ 8 ≤ peerAttr.value.length ∧
        msg.findAttr AttrType.data = some dataAttr ∧ peer = peerEndpoint host peerAttr.value ∧
        payload = dataAttr.value := by
      unfold sendRequest at request
      split at request
      · rename_i known addressed carried
        split at request
        · rename_i permitted
          obtain ⟨rfl, rfl, rfl⟩ := by simpa using request
          exact ⟨_, _, known, addressed, permitted.1, carried, rfl, rfl⟩
        · simp at request
      · simp at request
    obtain ⟨peerAttr, dataAttr, known, addressed, long, carried, rfl, rfl⟩ := read
    refine ⟨peerAttr, dataAttr, addressed, long, carried, ?_⟩
    split at sent
    · rename_i q b inside
      split at sent
      · rw [List.mem_singleton.mp sent]
        exact .inr ⟨a, q, b, known, inside, rfl⟩
      · simp at sent
    · rename_i outside
      split at sent
      · rw [List.mem_singleton.mp sent]
        exact .inl ⟨outside, rfl⟩
      · simp at sent

theorem Forwards.read (roundTrip : host.AddressesRoundTrip)
    (use : Forwards host cfg env m msg client v ip port) :
    8 ≤ v.length ∧ peerIp v = ip ∧ peerPort v = port := by
  obtain ⟨addressed, dataAttr, _, datagram, sent, carries⟩ := use
  obtain ⟨peerAttr, _, addressed', long, _, carries'⟩ := handleSend_carries sent
  obtain rfl : peerAttr.value = v := by simpa [addressed'] using addressed
  have named := carries'.addressee.symm.trans carries.addressee
  rw [Option.some.injEq, peerEndpoint, Endpoint.mk.injEq] at named
  exact ⟨long, addressToString_injective roundTrip named.1, named.2⟩

/-- The handlers do nothing for a peer but by a value. -/
theorem onlyUses (host : Host) (cfg : ManagerConfig) (env : Env) (m : AllocationManager)
    (msg : TurnMessage) (client : Endpoint) : OnlyUses host cfg env m msg client where
  permission _ := createPermission_uses
  channel num changed := by
    obtain ⟨v, num', binds, bound, others, _⟩ :=
      channelBind_uses fun same => changed (by rw [same])
    have its : num = num' := by
      by_contra other
      exact changed (others num other)
    exact ⟨v, _, _, binds, its ▸ bound⟩
  boundPermission address changed := by
    obtain ⟨v, _, binds, _, _, others⟩ :=
      channelBind_uses fun same => changed (by rw [same])
    have its : address = host.addressToString (peerIp v) := by
      by_contra other
      exact changed (others address other)
    exact ⟨v, _, _, its, binds⟩
  send datagram sent := by
    obtain ⟨peerAttr, dataAttr, addressed, _, carried, carries⟩ := handleSend_carries sent
    exact ⟨peerAttr.value, peerIp peerAttr.value, peerPort peerAttr.value, dataAttr,
      by rw [addressed]; rfl, carried, carries⟩

/-! ## What the encoder writes -/

/-- All three handlers take the value for this address and port, when nothing else in
the request is in the way. -/
structure Accepted (host : Host) (cfg : ManagerConfig) (env : Env) (m : AllocationManager)
    (msg : TurnMessage) (client : Endpoint) (v : Bytes) (ip : UInt32) (port : UInt16) : Prop where
  permission : ∀ front rest, (m.findByClient client).isSome →
    msg.attributes = front ++ addressAttr v :: rest →
    (peerAttrs front).any (denied host) = false →
    CreatesPermission host env m msg client v ip
  granted : (m.findByClient client).isSome →
    addressAttr v ∈ msg.attributes →
    (peerAttrs msg.attributes).any (denied host) = false →
    responseClass (handleCreatePermission host env m msg client).2 = .successResponse ∧
    permissionOf (handleCreatePermission host env m msg client).1 client
      (host.addressToString ip) = some (grant env (host.addressToString ip))
  channel : ∀ a chAttr, m.findByClient client = some a →
    msg.findAttr AttrType.channelNumber = some chAttr → 2 ≤ chAttr.value.length →
    0x4000 ≤ be16 (byteAt chAttr.value 0) (byteAt chAttr.value 1) →
    be16 (byteAt chAttr.value 0) (byteAt chAttr.value 1) ≤ 0x4FFF →
    (msg.findAttr AttrType.xorPeerAddress).map Attribute.value = some v →
    channelConflict env.order a (be16 (byteAt chAttr.value 0) (byteAt chAttr.value 1))
      ⟨host.addressToString ip, port⟩ = false →
    BindsChannel host env m msg client v ip port
  send : ∀ a, m.findByClient client = some a →
    a.hasPermission env.now (host.addressToString ip) = true →
    (msg.findAttr AttrType.xorPeerAddress).map Attribute.value = some v →
    (msg.findAttr AttrType.data).isSome → cfg.clientSend = true → cfg.peerSend = true →
    Forwards host cfg env m msg client v ip port

theorem isDeniedAddress_addressToString (roundTrip : host.AddressesRoundTrip) (ip : UInt32) :
    isDeniedAddress host (host.addressToString ip) = deniedIp ip := by
  rw [isDeniedAddress, roundTrip ip]

section Encoded
variable (roundTrip : host.AddressesRoundTrip) (allowed : deniedIp ip = false)
include roundTrip allowed

theorem createsPermission_xorAddress {front rest : List Attribute}
    (known : (m.findByClient client).isSome)
    (split : msg.attributes = front ++ addressAttr (MessageBuilder.xorAddress ip port) :: rest)
    (clean : (peerAttrs front).any (denied host) = false) :
    CreatesPermission host env m msg client (MessageBuilder.xorAddress ip port) ip := by
  obtain ⟨a, known⟩ := Option.isSome_iff_exists.mp known
  obtain ⟨p, found⟩ := findByClient_eq_some.mp known
  have goes : denied host (addressAttr (MessageBuilder.xorAddress ip port)) = false := by
    rw [denied, peerAddress, addressAttr, peerIp_xorAddress,
      isDeniedAddress_addressToString roundTrip, allowed]
  have long : 8 ≤ (MessageBuilder.xorAddress ip port).length := by
    simp [MessageBuilder.xorAddress]
  have uses := @createsPermission_of host env m msg client _ p a front rest found split clean long
    goes
  rwa [peerIp_xorAddress] at uses

omit roundTrip allowed in
theorem createPermission_xorAddress
    (known : (m.findByClient client).isSome)
    (member : addressAttr (MessageBuilder.xorAddress ip port) ∈ msg.attributes)
    (clean : (peerAttrs msg.attributes).any (denied host) = false) :
    responseClass (handleCreatePermission host env m msg client).2 = .successResponse ∧
    permissionOf (handleCreatePermission host env m msg client).1 client
      (host.addressToString ip) = some (grant env (host.addressToString ip)) := by
  obtain ⟨a, known⟩ := Option.isSome_iff_exists.mp known
  obtain ⟨p, found⟩ := findByClient_eq_some.mp known
  obtain ⟨after, answer⟩ := createPermission_found host env msg found
  have isPeer : addressAttr (MessageBuilder.xorAddress ip port) ∈ peerAttrs msg.attributes :=
    List.mem_filter.mpr ⟨member, by simp [addressAttr, MessageBuilder.xorAddress]⟩
  have all : beforeDenied host msg.attributes = peerAttrs msg.attributes := by
    refine List.takeWhile_eq_self_iff.mpr fun attr inside => ?_
    have allowed := List.any_eq_false.mp clean attr inside
    simpa using allowed
  have somebody : peerAttrs msg.attributes ≠ [] := List.ne_nil_of_mem isPeer
  have address : peerAddress host (addressAttr (MessageBuilder.xorAddress ip port)) =
      host.addressToString ip := by
    rw [peerAddress, addressAttr, peerIp_xorAddress]
  constructor
  · rw [answer, if_neg (by simp [clean, somebody])]
  · rw [after, ← address, all]
    exact permitAll_lookup_of_mem isPeer a

theorem bindsChannel_xorAddress {a : Allocation} {chAttr : Attribute}
    (known : m.findByClient client = some a)
    (numbered : msg.findAttr AttrType.channelNumber = some chAttr)
    (long : 2 ≤ chAttr.value.length)
    (low : 0x4000 ≤ be16 (byteAt chAttr.value 0) (byteAt chAttr.value 1))
    (high : be16 (byteAt chAttr.value 0) (byteAt chAttr.value 1) ≤ 0x4FFF)
    (addressed : (msg.findAttr AttrType.xorPeerAddress).map Attribute.value =
      some (MessageBuilder.xorAddress ip port))
    (free : channelConflict env.order a (be16 (byteAt chAttr.value 0) (byteAt chAttr.value 1))
      ⟨host.addressToString ip, port⟩ = false) :
    BindsChannel host env m msg client (MessageBuilder.xorAddress ip port) ip port := by
  obtain ⟨p, found⟩ := findByClient_eq_some.mp known
  obtain ⟨peerAttr, addressed', value⟩ := Option.map_eq_some_iff.mp addressed
  have peer : peerEndpoint host peerAttr.value = ⟨host.addressToString ip, port⟩ := by
    rw [value, peerEndpoint_xorAddress]
  have size : peerAttr.value.length = 8 := by
    rw [value]
    rfl
  have denied := isDeniedAddress_addressToString roundTrip ip
  have bound : handleChannelBind host env m msg client =
      (m.store p ((a.bind env.now (be16 (byteAt chAttr.value 0) (byteAt chAttr.value 1))
        ⟨host.addressToString ip, port⟩).permit env.now (host.addressToString ip)),
        (MessageBuilder.new .channelBind .successResponse msg.transactionId).build) := by
    unfold handleChannelBind
    rw [found, numbered, addressed']
    simp only [peer]
    rw [if_neg (by omega), if_neg (by simp only [not_or, UInt16.not_lt]; exact ⟨low, high⟩),
      denied, allowed, free]
    rfl
  have granted : responseClass (handleChannelBind host env m msg client).2 =
      .successResponse := by
    rw [bound]
    exact responseClass_build _ rfl
  have located := findByClient_store ((a.bind env.now
    (be16 (byteAt chAttr.value 0) (byteAt chAttr.value 1))
    ⟨host.addressToString ip, port⟩).permit env.now (host.addressToString ip)) found
  refine ⟨chAttr, numbered, addressed, granted, ?_⟩
  rw [channelOf, bound, located, Option.bind_some, bind_lookup]
  rfl

omit roundTrip allowed in
theorem forwards_xorAddress {a : Allocation} (known : m.findByClient client = some a)
    (permitted : a.hasPermission env.now (host.addressToString ip) = true)
    (addressed : (msg.findAttr AttrType.xorPeerAddress).map Attribute.value =
      some (MessageBuilder.xorAddress ip port))
    (payload : (msg.findAttr AttrType.data).isSome) (toClients : cfg.clientSend = true)
    (toPeers : cfg.peerSend = true) :
    Forwards host cfg env m msg client (MessageBuilder.xorAddress ip port) ip port := by
  obtain ⟨peerAttr, addressed', value⟩ := Option.map_eq_some_iff.mp addressed
  obtain ⟨dataAttr, payload⟩ := Option.isSome_iff_exists.mp payload
  have peer : peerEndpoint host peerAttr.value = ⟨host.addressToString ip, port⟩ := by
    rw [value, peerEndpoint_xorAddress]
  have size : peerAttr.value.length = 8 := by
    rw [value]
    rfl
  have request : sendRequest host env m msg client =
      some (a, ⟨host.addressToString ip, port⟩, dataAttr.value) := by
    simp only [sendRequest, known, addressed', payload, peer, permitted, size]
    rfl
  refine ⟨addressed, dataAttr, payload, ?_⟩
  rw [handleSend_eq, request]
  simp only [toClients, toPeers, ↓reduceIte]
  cases target : m.find m.byRelay ⟨host.addressToString ip, port⟩ with
  | none => exact ⟨_, List.mem_singleton_self _, .inl ⟨target, rfl⟩⟩
  | some entry =>
    exact ⟨_, List.mem_singleton_self _, .inr ⟨a, entry.1, entry.2, known, target, rfl⟩⟩

theorem accepted_xorAddress :
    Accepted host cfg env m msg client (MessageBuilder.xorAddress ip port) ip port where
  permission _ _ := createsPermission_xorAddress roundTrip allowed
  granted := createPermission_xorAddress
  channel _ _ := bindsChannel_xorAddress roundTrip allowed
  send _ := forwards_xorAddress

end Encoded

/-- **When a peer address is used as it was written.** A value that a handler uses for an
address (and port) is the value the encoder writes for it exactly if it has eight bytes
and family 0x01; a shorter one is never used; the encoder's value for an address that
is not denied is accepted by all three handlers and read as that address and port; and the
handlers grant, bind and send nothing for a peer that they have not used a value for. -/
theorem peer_value_iff (host : Host) (cfg : ManagerConfig) (env : Env) (m : AllocationManager)
    (msg : TurnMessage) (client : Endpoint) (v : Bytes) (ip : UInt32) (port : UInt16)
    (roundTrip : host.AddressesRoundTrip) :
    (CreatesPermission host env m msg client v ip →
      ((∃ port, v = MessageBuilder.xorAddress ip port) ↔ Canonical v)) ∧
    (BindsChannel host env m msg client v ip port →
      (v = MessageBuilder.xorAddress ip port ↔ Canonical v)) ∧
    (Forwards host cfg env m msg client v ip port →
      (v = MessageBuilder.xorAddress ip port ↔ Canonical v)) ∧
    (v.length < 8 → ¬ CreatesPermission host env m msg client v ip ∧
      ¬ BindsChannel host env m msg client v ip port ∧
      ¬ Forwards host cfg env m msg client v ip port) ∧
    (v = MessageBuilder.xorAddress ip port → deniedIp ip = false →
      Accepted host cfg env m msg client v ip port) ∧
    OnlyUses host cfg env m msg client := by
  refine ⟨fun use => ?_, fun use => ?_, fun use => ?_, fun short => ⟨?_, ?_, ?_⟩, ?_,
    onlyUses host cfg env m msg client⟩
  · obtain ⟨_, address⟩ := use.read roundTrip
    constructor
    · rintro ⟨port, written⟩
      exact ((eq_xorAddress_iff v ip port).mp written).1
    · intro canonical
      exact ⟨peerPort v, (eq_xorAddress_iff v ip _).mpr ⟨canonical, address, rfl⟩⟩
  · obtain ⟨_, address, number⟩ := use.read roundTrip
    rw [eq_xorAddress_iff]
    exact and_iff_left ⟨address, number⟩
  · obtain ⟨_, address, number⟩ := use.read roundTrip
    rw [eq_xorAddress_iff]
    exact and_iff_left ⟨address, number⟩
  · exact fun use => absurd (use.read roundTrip).1 (by omega)
  · exact fun use => absurd (use.read roundTrip).1 (by omega)
  · exact fun use => absurd (use.read roundTrip).1 (by omega)
  · rintro rfl allowed
    exact accepted_xorAddress roundTrip allowed

/-- A CreatePermission with one peer address. -/
def permitting (v : Bytes) : TurnMessage :=
  ⟨.request, .createPermission, 12, Vector.replicate 12 2, [addressAttr v]⟩

/-- 198.51.100.7 is permitted when it is written as the encoder writes it. -/
theorem peer_value_iff_permitted :
    responseClass (handleCreatePermission (Host.posix [] [] []) calm allocated
        (permitting (MessageBuilder.xorAddress 0xC6336407 4000)) aClient).2 = .successResponse ∧
      permissionOf (handleCreatePermission (Host.posix [] [] []) calm allocated
        (permitting (MessageBuilder.xorAddress 0xC6336407 4000)) aClient).1 aClient
        (dottedQuad 0xC6336407) = some (grant calm (dottedQuad 0xC6336407)) := by
  obtain ⟨_, _, _, _, accepted, _⟩ := peer_value_iff (Host.posix [] [] [])
    AllocationInvariant.wideRange calm allocated
    (permitting (MessageBuilder.xorAddress 0xC6336407 4000)) aClient _ 0xC6336407 4000
    Host.posix_roundTrip
  exact (accepted rfl (by decide)).granted (by decide +kernel) (by simp [permitting])
    (by decide +kernel)

/-- The twenty bytes of an IPv6 peer, 2001:db8::1 port 4000. -/
def ipv6Peer : Bytes :=
  [0x00, 0x02, 0x2E, 0xB2, 0x01, 0x13, 0xA9, 0xFA] ++ List.replicate 11 2 ++ [3]

/-- Its first eight bytes are taken for 32.1.13.184, which is then permitted. -/
theorem ipv6_peer_permitted : ¬ ∀ host env m msg client v ip, host.AddressesRoundTrip →
    CreatesPermission host env m msg client v ip →
      ∃ port, v = MessageBuilder.xorAddress ip port := by
  intro written
  have known : (allocated.find allocated.byClient aClient).isSome = true := by decide +kernel
  obtain ⟨⟨p, a⟩, found⟩ := Option.isSome_iff_exists.mp known
  have allowed : denied (Host.posix [] [] []) (addressAttr ipv6Peer) = false := by
    decide +kernel
  have permits := @createsPermission_of (Host.posix [] [] []) calm allocated (permitting ipv6Peer)
    aClient ipv6Peer p a [] [] found rfl rfl (by decide) allowed
  obtain ⟨port, same⟩ := written _ _ _ _ _ _ _ Host.posix_roundTrip permits
  have sizes := congrArg List.length same
  simp [ipv6Peer, MessageBuilder.xorAddress] at sizes

end Zaza.PeerAddresses
