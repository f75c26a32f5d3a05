import Zaza.DispatcherSteps

/-!
Who can change an allocation: only its own client, with a request that passed
the credential check under the name the allocation was made with.

A change made for one client leaves every other client's allocation where and
as it was (`ConfinedTo`). The name is compared by the credential check only if
the client has an allocation and its name is not empty, so the result rests on
`ServerInv.named`; for Allocate it is not compared at all, but Allocate never
touches an allocation that is already there.
-/
namespace Zaza.Ownership
open Zaza AllocationManager AllocationSteps AllocationInvariant TurnDispatcher
open DispatcherSteps

/-- What may differ when only the allocation of `client` has changed. -/
structure ConfinedTo (client : Endpoint) (m m' : AllocationManager) : Prop where
  clients : ∀ other, other ≠ client → m'.find m'.byClient other = m.find m.byClient other
  relays : ∀ relay p a, a.clientAddr ≠ client →
    (m'.find m'.byRelay relay = some (p, a) ↔ m.find m.byRelay relay = some (p, a))
  ports : ∀ port, m'.usedPorts.lookup port ≠ m.usedPorts.lookup port →
    (∃ a, m.findByClient client = some a ∧ a.relayedAddr.port = port) ∨
      ∃ a, m'.findByClient client = some a ∧ a.relayedAddr.port = port

variable {host : Host} {env : Env} {client : Endpoint} {username : Bytes}

section
variable {cfg : ManagerConfig} {m m' : AllocationManager}

/-- Tables that agree on a key, and objects that agree on its pointer, agree on
what is found. -/
private theorem find_congr {table table' : UnorderedMap Bytes Ptr}
    (known : table'.lookup (endpointKey ep) = table.lookup (endpointKey ep))
    (held : ∀ p, table.lookup (endpointKey ep) = some p → m'.heap[p]? = m.heap[p]?) :
    m'.find table' ep = m.find table ep := by
  unfold AllocationManager.find
  rw [known]
  cases found : table.lookup (endpointKey ep) with
  | none => rfl
  | some p => simp only [Option.bind_some, held p found]

/-- A call leaves every other client's entry and object alone. -/
theorem find_client_frame (inv : Inv cfg m) (change : Change host cfg env client username m m')
    (apart : other ≠ client) : m'.find m'.byClient other = m.find m.byClient other := by
  have keys : endpointKey other ≠ endpointKey client :=
    fun same => apart (endpointKey_injective same)
  cases change with
  | same => rfl
  | create realm port expiresAt absent quota unused drawn =>
    apply find_congr
    · simp only [create, fresh_clientAddr]
      exact AList.lookup_insert_ne keys
    · intro p found
      obtain ⟨a, held, _⟩ := inv.clients found
      exact List.getElem?_append_left (List.getElem?_eq_some_iff.mp held).1
  | touch p a a' located writes =>
    apply find_congr rfl
    intro q found
    have elsewhere : p ≠ q := by
      rintro rfl
      have theirs := inv.client_exact (find_eq_some.mpr ⟨found, (find_eq_some.mp located).2⟩)
      exact apart (theirs.symm.trans (inv.client_exact located))
    exact List.getElem?_set_ne elsewhere
  | release p a located =>
    apply find_congr
    · exact AList.lookup_erase_ne keys
    · exact fun _ _ => rfl

/-- The relay table finds what the client table has, by the other address. -/
theorem find_relay_iff (inv : Inv cfg m) : m.find m.byRelay relay = some (p, a) ↔
    a.relayedAddr = relay ∧ m.find m.byClient a.clientAddr = some (p, a) := by
  constructor
  · intro found
    obtain ⟨exact, lives⟩ := inv.relay_exact found
    exact ⟨exact, inv.live_client lives⟩
  · rintro ⟨rfl, found⟩
    exact inv.live_relay (live_of_find found)

/-- A port whose mark differs belongs to the client, before or after. -/
private theorem ports_frame (inv : Inv cfg m) (inv' : Inv cfg m')
    (clients : ∀ other, other ≠ client → m'.find m'.byClient other = m.find m.byClient other)
    (differs : m'.usedPorts.lookup port ≠ m.usedPorts.lookup port) :
    (∃ a, m.findByClient client = some a ∧ a.relayedAddr.port = port) ∨
      ∃ a, m'.findByClient client = some a ∧ a.relayedAddr.port = port := by
  by_contra neither
  obtain ⟨notBefore, notAfter⟩ := not_or.mp neither
  apply differs
  have moves : (∃ p a, Live m' p a ∧ a.relayedAddr.port = port) ↔
      ∃ p a, Live m p a ∧ a.relayedAddr.port = port := by
    constructor
    · rintro ⟨p, a, lives, has⟩
      have found := inv'.live_client lives
      have apart : a.clientAddr ≠ client := by
        rintro rfl
        exact notAfter ⟨a, findByClient_eq_some.mpr ⟨p, found⟩, has⟩
      rw [clients _ apart] at found
      exact ⟨p, a, live_of_find found, has⟩
    · rintro ⟨p, a, lives, has⟩
      have found := inv.live_client lives
      have apart : a.clientAddr ≠ client := by
        rintro rfl
        exact notBefore ⟨a, findByClient_eq_some.mpr ⟨p, found⟩, has⟩
      rw [← clients _ apart] at found
      exact ⟨p, a, live_of_find found, has⟩
  apply Option.ext
  intro used
  rw [inv'.ports, inv.ports, inv'.marked_port, inv.marked_port, moves]

/-- A call made for a client is confined to that client's allocation. -/
theorem confinedTo_of_change (inv : Inv cfg m)
    (change : Change host cfg env client username m m') : ConfinedTo client m m' := by
  have inv' := inv.preserved change
  have clients : ∀ other, other ≠ client →
      m'.find m'.byClient other = m.find m.byClient other :=
    fun other apart => find_client_frame inv change apart
  refine ⟨clients, ?_, fun port => ports_frame inv inv' clients⟩
  intro relay p a apart
  rw [find_relay_iff inv', find_relay_iff inv, clients _ apart]

end

variable {cfg : Config} {d : TurnDispatcher} {msg : TurnMessage} {sender : Endpoint}

/-- Allocate leaves an existing allocation alone. -/
theorem allocate_existing {m : AllocationManager} (found : m.findByClient sender = some a)
    (mcfg : ManagerConfig) (user realm : Bytes) :
    (m.handleAllocate host mcfg env msg sender user realm).1 = m := by
  obtain ⟨p, located⟩ := findByClient_eq_some.mp found
  simp [handleAllocate, (find_eq_some.mp located).1]

/-- An accepted request that changes the tables goes by the name of the
sender's allocation, if there is one. -/
theorem owner_of_change (inv : ServerInv cfg d) (class_ne : msg.msgClass ≠ .indication)
    (accepted : d.authResult host cfg env msg data sender = .ok)
    (changed : (handleRequest host cfg env d.manager msg sender).1 ≠ d.manager)
    (found : d.manager.findByClient sender = some a) :
    ∃ attr, msg.findAttr AttrType.username = some attr ∧ attr.value = a.username := by
  obtain ⟨attr, named, _, _, matching⟩ := authenticate_ok class_ne accepted
  refine ⟨attr, named, ?_⟩
  have notAllocate : msg.method ≠ .allocate := by
    intro isAllocate
    apply changed
    rw [handleRequest, isAllocate]
    exact allocate_existing found _ _ _
  have allocated : d.allocatedUsername msg sender = a.username := by
    simp [allocatedUsername, notAllocate, found]
  obtain ⟨p, located⟩ := findByClient_eq_some.mp found
  have nonempty := inv.named p a (live_of_find located)
  rw [← allocated]
  exact matching notAllocate (by rwa [allocated])

/-- **Only the authenticated owner changes an allocation.** In every run, a step
after which anything in the manager differs is a STUN message, not an
indication, that passed the credential check; only the sender's allocation
differs; and if the sender had one, the message names the user it was made for. -/
theorem only_owner_changes (host : Host) (cfg : Config) (run : Run (turnServer host cfg) ts d)
    (member : t ∈ ts) (changed : t.after.manager ≠ t.before.manager) :
    ∃ data sender via msg, t.input.1 = .packet data sender via ∧ parse data = .ok msg ∧
      msg.msgClass ≠ .indication ∧
      t.before.authResult host cfg t.input.2 msg data sender = .ok ∧
      ConfinedTo sender t.before.manager t.after.manager ∧
      ∀ a, t.before.manager.findByClient sender = some a →
        ∃ attr, msg.findAttr AttrType.username = some attr ∧ attr.value = a.username := by
  have inv := serverInv_of_reachable (run.reachable_before member)
  rcases step_manager (run.takes member) with
    same | ⟨data, sender, via, msg, input, parsed, class_ne, accepted, result, change⟩
  · exact absurd same changed
  · refine ⟨data, sender, via, msg, input, parsed, class_ne, accepted,
      confinedTo_of_change inv.tables change, fun a found => ?_⟩
    exact owner_of_change inv class_ne accepted (by rwa [← result]) found

/-- The step in which an account with an allocation permits an address. -/
theorem only_owner_changes_permission :
    ∃ ts d, ∃ t ∈ ts, Run (turnServer Deployment.host Deployment.config) ts d ∧
      t.after.manager ≠ t.before.manager ∧
      (t.before.manager.findByClient Deployment.aliceAddr).isSome ∧
      ∃ data sender via msg, t.input.1 = .packet data sender via ∧ parse data = .ok msg ∧
        msg.msgClass ≠ .indication ∧
        t.before.authResult Deployment.host Deployment.config t.input.2 msg data sender = .ok ∧
        ConfinedTo sender t.before.manager t.after.manager ∧
        ∀ a, t.before.manager.findByClient sender = some a →
          ∃ attr, msg.findAttr AttrType.username = some attr ∧ attr.value = a.username := by
  -- The permissions of the first allocation, which is what the step changes.
  let permitted (d : TurnDispatcher) := d.manager.heap.map fun a => a.permissions.keys
  obtain ⟨ts, d, run, check⟩ := Run.of_exec (turnServer Deployment.host Deployment.config)
    (Deployment.bothAllocate .udp)
    (fun ts _ => ts.any fun t => permitted t.before ≠ permitted t.after ∧
      (t.before.manager.findByClient Deployment.aliceAddr).isSome) (by decide +kernel)
  obtain ⟨t, member, differs, known⟩ := by simpa using check
  have changed : t.after.manager ≠ t.before.manager := by
    intro same
    exact differs (by simp [permitted, same])
  exact ⟨ts, d, t, member, run, changed, known,
    only_owner_changes Deployment.host Deployment.config run member changed⟩

end Zaza.Ownership
