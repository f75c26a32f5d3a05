import Zaza.Authority
import Zaza.Nonces

/-!
Where an accepted request comes from in time.

A nonce gets into the store by being sent to a client in a challenge, and stays
valid for an hour (`issued_of_run`). So whatever the server does for a request, its
sender has seen an answer of this very server less than an hour before, and the
name it goes by has not run out either. The nonce is not tied to the client it was
sent to.
-/
namespace Zaza.Challenges
open Zaza AllocationManager TurnDispatcher DispatcherSteps RelaySteps Replies Authority

/-- The answer to a step is a challenge with this nonce. -/
def Challenged (cfg : Config) (t : ServerStep) (nonce : Bytes) : Prop :=
  ∃ msg client via code reason, t.output =
    [⟨⟨(Call.challenge cfg msg code reason nonce).build, client, .reply⟩, via⟩]

/-- Every nonce in the store was sent in a challenge, an hour before it runs out. -/
def Issued (cfg : Config) (ts : List ServerStep) (d : TurnDispatcher) : Prop :=
  ∀ nonce deadline, d.nonces.lookup nonce = some deadline →
    ∃ t ∈ ts, Challenged cfg t nonce ∧ deadline = t.input.2.now + seconds NonceManager.ttl

variable {host : Host} {cfg : Config} {e : Endpoint} {t : ServerStep} {ts : List ServerStep}
  {d : TurnDispatcher} {msg : TurnMessage}

theorem challenge_issues {d d' : TurnDispatcher} {env : Env} {sender : Endpoint} {via : Transport}
    {code : UInt16} {reason : String} {out : List Sent}
    (taken : d.challenge cfg env msg sender via code reason = .ok (d', out)) :
    ∃ nonce, drawNonce d.nonces env.randBytes = .ok nonce ∧
      d'.nonces = d.nonces.insert nonce (env.now + seconds NonceManager.ttl) ∧
      out = [⟨⟨(Call.challenge cfg msg code reason nonce).build, sender, .reply⟩, via⟩] := by
  unfold challenge NonceManager.generate at taken
  cases drawn : drawNonce d.nonces env.randBytes with
  | error failed => simp [drawn] at taken
  | ok nonce =>
    simp only [drawn, Except.ok.injEq, Prod.mk.injEq] at taken
    obtain ⟨rfl, rfl⟩ := taken
    exact ⟨nonce, rfl, rfl, rfl⟩

/-- A step leaves the store alone, or adds the nonce it sends, which is new. -/
theorem step_nonces (taken : (turnServer host cfg).Takes t) :
    t.after.nonces = t.before.nonces ∨ ∃ nonce, Challenged cfg t nonce ∧
      t.before.nonces.lookup nonce = none ∧
      t.after.nonces = t.before.nonces.insert nonce (t.input.2.now + seconds NonceManager.ttl) := by
  obtain ⟨before, ⟨event, env⟩, after, output⟩ := t
  cases event with
  | peerData data peer relayAddr =>
    have same : before = after := (Prod.mk.inj (Except.ok.inj taken)).1
    exact .inl (congrArg TurnDispatcher.nonces same.symm)
  | packet data sender via =>
    have result : before.onPacket host cfg env data sender via = .ok (after, output) := taken
    cases parsed : parse data with
    | error failed =>
      exact .inl (congrArg TurnDispatcher.nonces (onPacket_of_error parsed result))
    | ok msg =>
      have challenged : ∀ code reason, challenge cfg env
          { before with currentTransport := some via } msg sender via code reason =
            .ok (after, output) → after.nonces = before.nonces ∨ ∃ nonce, Challenged cfg
              ⟨before, (.packet data sender via, env), after, output⟩ nonce ∧
              before.nonces.lookup nonce = none ∧
              after.nonces = before.nonces.insert nonce (env.now + seconds NonceManager.ttl) := by
        intro code reason issued
        obtain ⟨nonce, drawn, stored, sent⟩ := challenge_issues issued
        exact .inr ⟨nonce, ⟨msg, sender, via, code, reason, sent⟩, Nonces.drawNonce_fresh drawn,
          stored⟩
      rw [onPacket_of_parse parsed, handleStun] at result
      simp only at result
      split at result
      · split at result <;> obtain ⟨rfl, _⟩ := Prod.mk.inj (Except.ok.inj result) <;> exact .inl rfl
      · split at result
        · exact challenged _ _ result
        · exact challenged _ _ result
        · exact challenged _ _ result
        · exact challenged _ _ result
        · obtain ⟨rfl, _⟩ := Prod.mk.inj (Except.ok.inj result)
          exact .inl rfl
        · split at result <;> obtain ⟨rfl, _⟩ := Prod.mk.inj (Except.ok.inj result) <;>
            exact .inl rfl

theorem issued_of_run (run : Run (turnServer host cfg) ts d) : Issued cfg ts d := by
  refine run.invariant_with_history (Issued cfg) (fun nonce deadline held => ?_)
    fun earlier t before taken nonce deadline held => ?_
  · simp [turnServer, TurnDispatcher.init] at held
  · have kept : t.before.nonces.lookup nonce = some deadline → ∃ t' ∈ earlier ++ [t],
        Challenged cfg t' nonce ∧ deadline = t'.input.2.now + seconds NonceManager.ttl := by
      intro old
      obtain ⟨t', member, issued⟩ := before nonce deadline old
      exact ⟨t', List.mem_append_left _ member, issued⟩
    rcases step_nonces taken with same | ⟨fresh, challenged, _, stored⟩
    · exact kept (same ▸ held)
    · rw [stored] at held
      by_cases mine : nonce = fresh
      · subst mine
        rw [AList.lookup_insert] at held
        exact ⟨t, by simp, challenged, (Option.some.inj held).symm⟩
      · rw [AList.lookup_insert_ne mine] at held
        exact kept held

/-! ## Accepted requests -/

/-- The time up to which a name is good, as the server reads it. -/
def nameExpiry (username : Bytes) : Option Int :=
  (find username 58).bind fun pos => stoll (username.take pos)

/-- What an accepted request carries. -/
theorem request_carries (asked : request host cfg e t = some msg) :
    ∃ username nonce, msg.findAttr AttrType.username = some username ∧
      msg.findAttr AttrType.nonce = some nonce ∧
      NonceManager.isValid t.input.2 t.before.nonces nonce.value = true ∧
      ∃ expiry, nameExpiry username.value = some expiry ∧ t.input.2.wall ≤ expiry := by
  obtain ⟨data, via, _, _, class_ne, accepted⟩ := request_eq_some.mp asked
  unfold authResult LongTermCred.authenticate at accepted
  rw [if_neg class_ne] at accepted
  split at accepted
  · rename_i username _ nonce named _ challenged
    simp only at accepted
    split at accepted
    · refine ⟨username, nonce, named, challenged, (authenticateWith_ok accepted).1, ?_⟩
      unfold LongTermCred.authenticateWith at accepted
      split at accepted
      · cases accepted
      split at accepted
      · cases accepted
      rename_i pos colon
      split at accepted
      · cases accepted
      rename_i expiry number
      split at accepted
      · cases accepted
      · rename_i current
        exact ⟨expiry, by simp [nameExpiry, colon, number], Int.not_lt.mp current⟩
    · cases accepted
  · cases accepted

/-- **Accepted requests are fresh.** In every run, a request that passes the credential
check goes by a name that has not run out, and carries a nonce that the server has sent,
less than an hour before, in the challenge with which it answered some earlier packet. -/
theorem accepted_was_challenged (host : Host) (cfg : Config) (run : Run (turnServer host cfg) ts d)
    (before : List ServerStep) (t : ServerStep) (after : List ServerStep)
    (inside : ts = before ++ t :: after) (e : Endpoint) (msg : TurnMessage)
    (asked : request host cfg e t = some msg) :
    (∃ username expiry, msg.findAttr AttrType.username = some username ∧
      nameExpiry username.value = some expiry ∧ t.input.2.wall ≤ expiry) ∧
    ∃ nonce, msg.findAttr AttrType.nonce = some nonce ∧ ∃ t₀ ∈ before,
      Challenged cfg t₀ nonce.value ∧
      t.input.2.now < t₀.input.2.now + seconds NonceManager.ttl := by
  subst inside
  obtain ⟨early, _⟩ := run.split
  obtain ⟨username, nonce, named, carried, valid, expiry, number, current⟩ := request_carries asked
  refine ⟨⟨username, expiry, named, number, current⟩, nonce, carried, ?_⟩
  unfold NonceManager.isValid at valid
  split at valid
  · cases valid
  · rename_i deadline held
    obtain ⟨t₀, member, challenged, rfl⟩ := issued_of_run early nonce.value deadline held
    exact ⟨t₀, member, challenged, of_decide_eq_true valid⟩

/-- The first account's Allocate, with the nonce its first packet was answered with. -/
theorem accepted_was_challenged_alice :
    ∃ ts d, Run (turnServer Deployment.host Deployment.config) ts d ∧
      ∃ before t after, ts = before ++ t :: after ∧ ∃ msg nonce,
        request Deployment.host Deployment.config Deployment.aliceAddr t = some msg ∧
        msg.findAttr AttrType.nonce = some nonce ∧ ∃ t₀ ∈ before,
          Challenged Deployment.config t₀ nonce.value ∧
          t.input.2.now < t₀.input.2.now + seconds NonceManager.ttl := by
  obtain ⟨ts, d, run, check⟩ := Run.of_exec (turnServer Deployment.host Deployment.config)
    (Deployment.bothAllocate .udp) (fun ts _ => ts.any fun t =>
      (request Deployment.host Deployment.config Deployment.aliceAddr t).isSome)
    (by decide +kernel)
  obtain ⟨t, member, passes⟩ := List.any_eq_true.mp check
  obtain ⟨msg, asked⟩ := Option.isSome_iff_exists.mp passes
  obtain ⟨before, after, split⟩ := List.append_of_mem member
  obtain ⟨nonce, carried, challenged⟩ := (accepted_was_challenged Deployment.host
    Deployment.config run before t after split Deployment.aliceAddr msg asked).2
  exact ⟨ts, d, run, before, t, after, split, msg, nonce, asked, carried, challenged⟩

end Zaza.Challenges
