import Zaza.ClientLife

/-!
Recovery from a refused call and from a lost connection.

Both go through `cleanupCall`, which resets the call only if its flag is not set.
The flag is set by every cleanup and taken back by `initRtc` alone, so what a client
comes to depends on its earlier calls: after one that was cleaned up, a call that does
not get as far as its configuration is not reset.
-/
namespace Zaza.ClientRecovery
open Zaza Client ClientSafety ClientSteps ClientLife

variable {rtc : Rtc} {c c' : Client} {msg : Json} {p : Program} {t : Step} {ts : List Step}

/-- The server refuses a call that the user has asked for, and the callback returns. -/
def refused (t : Step) : Bool :=
  match t.input with
  | .message _ (some msg) =>
    msg.stringMember "type" = some (ascii "error") ∧
      t.before.client.session.call.state = .calling ∧ t.after.runs
  | _ => false

/-- The connection is lost in a call. -/
def disconnected (t : Step) : Bool :=
  match t.input with
  | .close => t.before.client.session.isInCall
  | _ => false

/-- A step of the running client after which the call has to be reset. -/
def Interrupted (t : Step) : Prop :=
  t.before.runs = true ∧ (refused t = true ∨ disconnected t = true)

instance (t : Step) : Decidable (Interrupted t) := inferInstanceAs (Decidable (_ ∧ _))

/-- The call is reset, and the next one is not refused for it. -/
def Recovers (t : Step) : Prop :=
  t.after.client.session.call = {} ∧
    ∀ args, (Commands.call args t.after.client.session).1 ≠ ⟨false, ascii "already in call"⟩

/-- `cleanupCall` is called. -/
def CleansUp (t : Step) : Prop := t.kind = .cleansUp

/-- `initRtc` is called, whether it succeeds or not. -/
def Rearms (t : Step) : Prop := t.kind = .setsUp ∨ t.kind = .setupFails

/-! ## The flag -/

theorem cleanupCall_done (c : Client) : c.cleanupCall.callCleanupDone = true := by
  unfold cleanupCall
  split
  · assumption
  · rfl

/-- What a step does to the flag. -/
theorem callCleanupDone_change {kind : Kind} (change : Change c kind c') :
    c'.callCleanupDone = true ↔ kind = .cleansUp ∨
      c.callCleanupDone = true ∧ ¬ (kind = .setsUp ∨ kind = .setupFails) := by
  cases change with
  | setsUp session same => simp
  | setupFails session same => simp
  | cleansUp call => simp [cleanupCall_done]
  | resets => simp [setCall]
  | destroys => simp [destroy]
  | keeps session playback continues => simp

/-- The flag is set exactly if there has been a cleanup and no `initRtc` since. -/
theorem callCleanupDone_iff_since (run : Run clientMachine ts p) :
    p.client.callCleanupDone = true ↔ Since CleansUp Rearms ts :=
  run.holds_iff_since (fun p => p.client.callCleanupDone = true) CleansUp Rearms
    (by simp [clientMachine]) fun _ _ taken => callCleanupDone_change (takes_change taken)

/-! ## One step -/

/-- An error that is handled while a call is asked for. -/
theorem onMessage_refused (typed : msg.stringMember "type" = some (ascii "error"))
    (calling : c.session.call.state = .calling)
    (returns : (c.onMessage rtc (some msg)).1 = .ok ()) :
    c.onMessage rtc (some msg) = (.ok (), c.cleanupCall) := by
  have value : msg.value "type" Json.getString [] = .ok (ascii "error") :=
    Json.value_of_stringMember typed []
  have handled := @handle_of_error rtc c msg typed
  rcases handleError_eq c msg with printed | ⟨e, threw⟩
  · simp only [onMessage, tryBlock, value, convert_ok, handled, printed, calling, ↓reduceIte]
  · -- The second attempt throws as well, and leaves the callback.
    simp only [onMessage, tryBlock, value, convert_ok, handled, threw, ↓reduceIte] at returns
    simp at returns

/-- A refusal comes to `cleanupCall`. -/
theorem refused_client (taken : clientMachine.Takes t) (runs : t.before.runs = true)
    (isRefused : refused t = true) : t.after.client = t.before.client.cleanupCall ∧
      t.before.client.session.call.state ≠ .idle := by
  obtain ⟨before, input, after, output⟩ := t
  unfold refused at isRefused
  split at isRefused
  · rename_i rtc msg isMessage
    obtain ⟨typed, calling, continues⟩ := of_decide_eq_true isRefused
    have isMessage : input = .message rtc (some msg) := isMessage
    subst isMessage
    have step : before.step (.message rtc (some msg)) = (after, output) := Except.ok.inj taken
    simp only [Program.step, runs, Bool.not_true, Bool.false_eq_true, ↓reduceIte] at step
    obtain ⟨rfl, -⟩ := Prod.mk.inj step
    have returns : (before.client.onMessage rtc (some msg)).1 = .ok () := by
      unfold Program.onMessage at continues
      cases outcome : before.client.onMessage rtc (some msg) with
      | mk result client =>
        cases result with
        | ok _ => rfl
        | error e => simp [outcome, Program.runs] at continues
    have calling : before.client.session.call.state = .calling := calling
    refine ⟨?_, by simp [calling]⟩
    rw [message_client, onMessage_refused typed calling returns]
  · simp at isRefused

/-- So does a lost connection. -/
theorem disconnected_client (taken : clientMachine.Takes t) (runs : t.before.runs = true)
    (isLost : disconnected t = true) : t.after.client = t.before.client.cleanupCall ∧
      t.before.client.session.call.state ≠ .idle := by
  obtain ⟨before, input, after, output⟩ := t
  unfold disconnected at isLost
  split at isLost
  · rename_i isClose
    have isClose : input = .close := isClose
    subst isClose
    have step : before.step .close = (after, output) := Except.ok.inj taken
    simp only [Program.step, runs, Bool.not_true, Bool.false_eq_true, ↓reduceIte, onClose,
      isLost] at step
    obtain ⟨rfl, -⟩ := Prod.mk.inj step
    exact ⟨rfl, by simpa [Session.isInCall] using isLost⟩
  · simp at isLost

theorem interrupted_client (taken : clientMachine.Takes t) (interrupted : Interrupted t) :
    t.after.client = t.before.client.cleanupCall ∧
      t.before.client.session.call.state ≠ .idle := by
  obtain ⟨runs, isRefused | isLost⟩ := interrupted
  · exact refused_client taken runs isRefused
  · exact disconnected_client taken runs isLost

/-- A call that is reset is not in the way of the next one. -/
theorem call_not_refused {s : Session} (idle : s.call = {}) (args : List Bytes) :
    (Commands.call args s).1 ≠ ⟨false, ascii "already in call"⟩ := by
  have other {reason : String} (differ : ascii reason ≠ ascii "already in call") :
      (Commands.fail reason s).1 ≠ ⟨false, ascii "already in call"⟩ := by
    simpa [Commands.fail] using differ
  have free : s.isInCall = false := by
    rw [Session.isInCall, idle]
    rfl
  unfold Commands.call
  cases args with
  | nil => exact other (by decide)
  | cons callee _ =>
    simp only [free, Bool.false_eq_true, ↓reduceIte]
    split
    · exact other (by decide)
    · split
      · exact other (by decide)
      · simp

/-- **One interruption**: the client recovers exactly if the flag is not set. -/
theorem recovers_step (taken : clientMachine.Takes t) (interrupted : Interrupted t) :
    Recovers t ↔ ¬ t.before.client.callCleanupDone = true := by
  obtain ⟨after, busy⟩ := interrupted_client taken interrupted
  constructor
  · rintro ⟨reset, -⟩ done
    rw [after, cleanupCall, if_pos done] at reset
    exact busy (by rw [reset])
  · intro armed
    have reset : t.after.client.session.call = {} := by
      rw [after, cleanupCall, if_neg armed]
    exact ⟨reset, call_not_refused reset⟩

/-! ## Every run -/

/-- **Recovery**: along a run the client recovers from every refusal and every lost connection,
exactly if none of them comes after a cleanup with no `initRtc` in between. -/
theorem recovers_iff (run : Run clientMachine ts p) :
    (∀ t ∈ ts, Interrupted t → Recovers t) ↔
      ∀ earlier t, earlier ++ [t] <+: ts → Interrupted t → ¬ Since CleansUp Rearms earlier := by
  constructor
  · rintro recovers earlier t ⟨later, rfl⟩ interrupted
    rw [List.append_assoc] at run recovers
    obtain ⟨before, taken⟩ := run.split
    have step := (recovers_step taken interrupted).mp (recovers t (by simp) interrupted)
    rwa [callCleanupDone_iff_since before] at step
  · intro armed t member interrupted
    obtain ⟨earlier, before, inside, taken⟩ := run.history member
    rw [recovers_step taken interrupted, callCleanupDone_iff_since before]
    exact armed earlier t inside interrupted

/-- Bob calls alice, who is in another call. -/
def callBusy : List ClientInput :=
  [.line bobsServer (ascii "call alice"),
    .message acceptAll (some (Router.error (ascii "callee is busy")))]

theorem recovers_iff_first_refusal : ∃ ts p, Run clientMachine ts p ∧
    (∃ t ∈ ts, Interrupted t) ∧ ∀ earlier t, earlier ++ [t] <+: ts → Interrupted t →
      ¬ Since CleansUp Rearms earlier := by
  obtain ⟨ts, p, run, check⟩ := Run.of_exec clientMachine
    (.line bobsServer (ascii "login bob secret") :: callBusy)
    (fun ts _ => (∃ t ∈ ts, Interrupted t) ∧
      ∀ t ∈ ts, Interrupted t → ¬ t.before.client.callCleanupDone = true) (by decide +kernel)
  obtain ⟨interrupted, armed⟩ := of_decide_eq_true check
  refine ⟨ts, p, run, interrupted, (recovers_iff run).mp fun t member interrupted => ?_⟩
  exact (recovers_step (run.takes member) interrupted).mpr (armed t member interrupted)

/-- He tries again, and is left calling. -/
theorem second_refusal_stays : ¬ ∀ ts p, Run clientMachine ts p →
    ∀ t ∈ ts, Interrupted t → Recovers t := by
  intro all
  obtain ⟨ts, p, run, check⟩ := Run.of_exec clientMachine
    (.line bobsServer (ascii "login bob secret") :: (callBusy ++ callBusy))
    (fun ts _ => ∃ t ∈ ts, Interrupted t ∧ t.after.client.session.call.state = .calling)
    (by decide +kernel)
  obtain ⟨t, member, interrupted, calling⟩ := of_decide_eq_true check
  have reset := (all ts p run t member interrupted).1
  simp [reset] at calling

end Zaza.ClientRecovery
