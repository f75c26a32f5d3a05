import Zaza.AllocationInvariant
import Zaza.Dispatcher

/-!
The channel bindings of an allocation.

`handleChannelBind` binds a number that is bound to no other peer to a peer that is
bound to no other number. Nothing unbinds a number, a binding that has expired
included, so the bindings of an allocation stay one-to-one and a number keeps its
peer as long as the allocation lives. Two loops search the bindings for a peer and
take the first hit; with one-to-one bindings there is no second.
-/
namespace Zaza.Channels
open Zaza AllocationManager AllocationSteps AllocationInvariant

/-- Every binding is stored under its own number, which is a channel number, and no two
are to the same peer. -/
structure OneToOne (a : Allocation) : Prop where
  own : ∀ num b, a.channels.lookup num = some b →
    b.channelNumber = num ∧ 0x4000 ≤ num ∧ num ≤ 0x4FFF
  distinct : ∀ num num' b b', a.channels.lookup num = some b → a.channels.lookup num' = some b' →
    b.peer = b'.peer → num = num'

/-- What is bound stays bound to its peer. -/
def Keeps (a a' : Allocation) : Prop :=
  ∀ num b, a.channels.lookup num = some b →
    ∃ b', a'.channels.lookup num = some b' ∧ b'.peer = b.peer

/-- Every object keeps its bindings. -/
def AllKeep (m m' : AllocationManager) : Prop :=
  ∀ (p : Ptr) a, m.heap[p]? = some a → ∃ a', m'.heap[p]? = some a' ∧ Keeps a a'

/-! ## One write -/

variable {host : Host} {cfg : ManagerConfig} {env : Env} {a a' : Allocation}
  {m m' : AllocationManager} {client : Endpoint} {username : Bytes}

/-- How the loops compare endpoints. -/
theorem same_endpoint_iff {e e' : Endpoint} :
    e = e' ↔ e.address = e'.address ∧ e.port = e'.port := by
  cases e
  cases e'
  exact Endpoint.mk.injEq .. ▸ Iff.rfl

/-- What the two checks before a binding have established. -/
theorem free_iff {order : IterOrder} {num : UInt16} {peer : Endpoint} :
    channelConflict order a num peer = false ↔
      ∀ num' b, a.channels.lookup num' = some b → (num' = num ↔ b.peer = peer) := by
  simp only [channelConflict, Bool.or_eq_false_iff, List.any_eq_false, decide_eq_true_eq]
  constructor
  · rintro ⟨numbered, addressed⟩ num' b bound
    constructor
    · rintro rfl
      rw [bound] at numbered
      rw [same_endpoint_iff]
      simpa using numbered
    · intro same
      by_contra other
      exact addressed (num', b) (UnorderedMap.mem_iterate.mpr bound)
        ⟨other, same_endpoint_iff.mp same⟩
  · intro free
    constructor
    · cases bound : a.channels.lookup num with
      | none => rfl
      | some b =>
        have same := (free num b bound).mp rfl
        simp [same]
    · rintro ⟨num', b⟩ member ⟨other, same⟩
      have bound := UnorderedMap.mem_iterate.mp member
      exact other ((free num' b bound).mpr (same_endpoint_iff.mpr same))

theorem OneToOne.touch (oneToOne : OneToOne a) (write : Touch host env a a') : OneToOne a' := by
  cases write with
  | refresh expiresAt => exact ⟨oneToOne.own, oneToOne.distinct⟩
  | permit ip allowed => exact ⟨oneToOne.own, oneToOne.distinct⟩
  | bind num ip port valid allowed free =>
    have free := free_iff.mp free
    constructor
    · intro num' b bound
      simp only [Allocation.bind] at bound
      by_cases new : num' = num
      · subst new
        obtain rfl := by simpa using bound
        exact ⟨rfl, valid⟩
      · rw [AList.lookup_insert_ne new] at bound
        exact oneToOne.own num' b bound
    · intro num₁ num₂ b₁ b₂ bound₁ bound₂ same
      simp only [Allocation.bind] at bound₁ bound₂
      by_cases new₁ : num₁ = num
      · by_cases new₂ : num₂ = num
        · rw [new₁, new₂]
        · subst new₁
          obtain rfl := by simpa using bound₁
          rw [AList.lookup_insert_ne new₂] at bound₂
          exact absurd ((free num₂ b₂ bound₂).mpr same.symm) new₂
      · rw [AList.lookup_insert_ne new₁] at bound₁
        by_cases new₂ : num₂ = num
        · subst new₂
          obtain rfl := by simpa using bound₂
          exact absurd ((free num₁ b₁ bound₁).mpr same) new₁
        · rw [AList.lookup_insert_ne new₂] at bound₂
          exact oneToOne.distinct num₁ num₂ b₁ b₂ bound₁ bound₂ same

theorem Keeps.refl (a : Allocation) : Keeps a a := fun _ b bound => ⟨b, bound, rfl⟩

theorem Keeps.trans {a'' : Allocation} (first : Keeps a a') (second : Keeps a' a'') :
    Keeps a a'' := by
  intro num b bound
  obtain ⟨b', bound', same⟩ := first num b bound
  obtain ⟨b'', bound'', same'⟩ := second num b' bound'
  exact ⟨b'', bound'', same'.trans same⟩

theorem keeps_touch (write : Touch host env a a') : Keeps a a' := by
  cases write with
  | refresh expiresAt => exact .refl a
  | permit ip allowed => exact .refl a
  | bind num ip port valid allowed free =>
    intro num' b bound
    simp only [Allocation.bind]
    by_cases rebound : num' = num
    · subst rebound
      exact ⟨_, AList.lookup_insert _, ((free_iff.mp free num' b bound).mp rfl).symm⟩
    · exact ⟨b, (AList.lookup_insert_ne rebound).trans bound, rfl⟩

theorem keeps_touches (writes : Touches host env a a') : Keeps a a' := by
  induction writes with
  | refl => exact .refl a
  | tail _ write ih => exact ih.trans (keeps_touch write)

/-! ## One call -/

/-- **One call keeps what is bound.** -/
theorem allKeep_change (change : Change host cfg env client username m m') : AllKeep m m' := by
  intro q b held
  cases change with
  | same => exact ⟨b, held, .refl b⟩
  | create realm port expiresAt absent quota unused drawn =>
    have inside := (List.getElem?_eq_some_iff.mp held).1
    exact ⟨b, (List.getElem?_append_left inside).trans held, .refl b⟩
  | touch p a a' located writes =>
    obtain ⟨_, object⟩ := find_eq_some.mp located
    by_cases same : q = p
    · subst same
      obtain rfl := Option.some.inj (object.symm.trans held)
      have inside := (List.getElem?_eq_some_iff.mp object).1
      exact ⟨a', List.getElem?_set_self inside, keeps_touches writes⟩
    · exact ⟨b, (List.getElem?_set_ne (Ne.symm same)).trans held, .refl b⟩
  | release p a located => exact ⟨b, held, .refl b⟩

theorem AllKeep.trans (m₁ m₂ m₃ : AllocationManager) (first : AllKeep m₁ m₂)
    (second : AllKeep m₂ m₃) : AllKeep m₁ m₃ := by
  intro p a held
  obtain ⟨a', held', keeps⟩ := first p a held
  obtain ⟨a'', held'', keeps'⟩ := second p a' held'
  exact ⟨a'', held'', keeps.trans keeps'⟩

/-! ## Searches -/

theorem OneToOne.findChannelByPeer (oneToOne : OneToOne a) (order order' : IterOrder)
    (now : TimePoint) (peer : Endpoint) :
    a.findChannelByPeer order now peer = a.findChannelByPeer order' now peer := by
  unfold Allocation.findChannelByPeer
  refine congrArg _ (UnorderedMap.find?_iterate ?_ order order')
  intro num num' b b' bound bound' hit hit'
  obtain ⟨address, port, _⟩ := of_decide_eq_true hit
  obtain ⟨address', port', _⟩ := of_decide_eq_true hit'
  have toPeer : b.peer = peer := same_endpoint_iff.mpr ⟨address, port⟩
  have toPeer' : b'.peer = peer := same_endpoint_iff.mpr ⟨address', port'⟩
  exact oneToOne.distinct num num' b b' bound bound' (toPeer.trans toPeer'.symm)

theorem OneToOne.peerChannel (oneToOne : OneToOne a) (order order' : IterOrder)
    (peer : Endpoint) :
    TurnDispatcher.peerChannel order a peer = TurnDispatcher.peerChannel order' a peer := by
  unfold TurnDispatcher.peerChannel
  rw [UnorderedMap.find?_iterate ?_ order order']
  intro num num' b b' bound bound' hit hit'
  have toPeer : b.peer = peer := same_endpoint_iff.mpr (of_decide_eq_true hit)
  have toPeer' : b'.peer = peer := same_endpoint_iff.mpr (of_decide_eq_true hit')
  exact oneToOne.distinct num num' b b' bound bound' (toPeer.trans toPeer'.symm)

/-! ## Every sequence of calls -/

/-- **Channel bindings are a stable one-to-one map.** After any calls of the handlers, the
bindings of every live allocation are stored under their own channel numbers and no two
are to the same peer; every number that was bound to a peer at any earlier time in the
life of the allocation is bound to that peer; and both searches for the channel of a peer
find the same one in every iteration order. -/
theorem channels_one_to_one (host : Host) (cfg : ManagerConfig)
    (run : Run (managerMachine host cfg) ts m) (lives : Live m p a) :
    OneToOne a ∧
      (∀ earlier m₀ a₀, earlier <+: ts → Run (managerMachine host cfg) earlier m₀ →
        Live m₀ p a₀ → ∀ num b₀, a₀.channels.lookup num = some b₀ →
          ∃ b, a.channels.lookup num = some b ∧ b.peer = b₀.peer) ∧
      (∀ order order' now peer,
        a.findChannelByPeer order now peer = a.findChannelByPeer order' now peer) ∧
      ∀ order order' peer,
        TurnDispatcher.peerChannel order a peer = TurnDispatcher.peerChannel order' a peer := by
  have oneToOne : OneToOne a := by
    refine run.invariant (fun m => ∀ p a, Live m p a → OneToOne a) ?_ (fun t before taken => ?_)
      p a lives
    · rintro p a ⟨held, _⟩
      simp [managerMachine, AllocationManager.empty] at held
    · obtain ⟨client, username, change⟩ := takes_change taken
      refine forall_live change (fun realm port expiresAt => ?_)
        (fun a a' write good => good.touch write) before
      constructor <;> simp [fresh]
  refine ⟨oneToOne, ?_, oneToOne.findChannelByPeer, oneToOne.peerChannel⟩
  intro earlier m₀ a₀ inside early lives₀
  have keep : AllKeep m₀ m := by
    refine run.related AllKeep ?_ AllKeep.trans (fun t taken => ?_) early inside
    · exact fun m p a held => ⟨a, held, .refl a⟩
    · obtain ⟨client, username, change⟩ := takes_change taken
      exact allKeep_change change
  obtain ⟨a', held, keeps⟩ := keep p a₀ lives₀.1
  obtain rfl := Option.some.inj (lives.1.symm.trans held)
  exact keeps

/-- A client allocates, and binds a channel to a peer twice. -/
def bindCalls : List (ManagerCall × Env) :=
  let surroundings (now : TimePoint) : Env := ⟨now, 0, fun _ => 7, [], .listed⟩
  let client : Endpoint := ⟨ascii "198.51.100.1", 4000⟩
  let transport : Attribute := ⟨AttrType.requestedTransport, [17, 0, 0, 0]⟩
  let number : Attribute := ⟨AttrType.channelNumber, [0x40, 0x01, 0, 0]⟩
  let peer : Attribute := ⟨AttrType.xorPeerAddress, [0, 1, 0x2E, 0x38, 0xE7, 0x21, 0xC0, 0x45]⟩
  let bind : TurnMessage := ⟨.request, .channelBind, 24, Vector.replicate 12 2, [number, peer]⟩
  [(.allocate ⟨.request, .allocate, 8, Vector.replicate 12 1, [transport]⟩ client (ascii "a") [],
      surroundings 0),
    (.channelBind bind client, surroundings 1), (.channelBind bind client, surroundings 2)]

theorem channels_one_to_one_bound :
    ∃ ts m p a, Run (managerMachine (Host.posix [] [] []) wideRange) ts m ∧ Live m p a ∧
      (a.channels.lookup 0x4001).isSome ∧ OneToOne a ∧
      ∀ order order' peer,
        TurnDispatcher.peerChannel order a peer = TurnDispatcher.peerChannel order' a peer := by
  obtain ⟨ts, m, run, check⟩ := Run.of_exec (managerMachine (Host.posix [] [] []) wideRange)
    bindCalls (fun _ m => (m.find m.byClient ⟨ascii "198.51.100.1", 4000⟩).any
      fun found => (found.2.channels.lookup 0x4001).isSome) (by decide +kernel)
  obtain ⟨⟨p, a⟩, found, bound⟩ := (Option.any_eq_true _ _).mp check
  have lives := live_of_find found
  obtain ⟨oneToOne, _, _, search⟩ :=
    channels_one_to_one (Host.posix [] [] []) wideRange run lives
  exact ⟨ts, m, p, a, run, lives, bound, oneToOne, search⟩

end Zaza.Channels
