import Mathlib.Algebra.Order.Group.Nat
import Zaza.Credentials
import Zaza.Lease
import Zaza.Machine

/-!
`NonceManager` and the history of the nonces it has issued.

The class is modelled with any `ttl_` and over any clock; the dispatcher has one
whose nonces live for an hour (`generate_deployed`). A nonce is a lease: issued
until `ttl_` from now, given up by `invalidate`, and forgotten by `cleanup` once it
has run out. Against the history of the calls, the store tracks exactly the leases
that have not run out, whatever `cleanup` has done.
-/
namespace Zaza

/-- `turn_auth::NonceManager`. -/
structure Nonces (τ : Type) where
  ttl : τ
  store : UnorderedMap Bytes τ := ∅

namespace Nonces

variable {τ : Type} [LinearOrder τ] [Add τ]

/-- The nonce it returns, or what it throws. -/
def generate (now : τ) (randBytes : List (Vector UInt8 16)) (m : Nonces τ) :
    Except Exn Bytes × Nonces τ :=
  match drawNonce m.store randBytes with
  | .error e => (.error e, m)
  | .ok nonce => (.ok nonce, { m with store := m.store.insert nonce (now + m.ttl) })

def isValid (now : τ) (nonce : Bytes) (m : Nonces τ) : Bool :=
  match m.store.lookup nonce with
  | none => false
  | some expiry => now < expiry

def invalidate (nonce : Bytes) (m : Nonces τ) : Nonces τ :=
  { m with store := m.store.erase nonce }

def cleanup (now : τ) (order : IterOrder) (m : Nonces τ) : Nonces τ :=
  { m with store := UnorderedMap.eraseLoop (now ≥ ·) (m.store.iterate order) m.store }

/-! ## Any sequence of calls -/

/-- A call of one of the methods, with what it draws and the order it iterates in. -/
inductive Op where
  | generate (randBytes : List (Vector UInt8 16))
  | isValid (nonce : Bytes)
  | invalidate (nonce : Bytes)
  | cleanup (order : IterOrder)

inductive Result where
  | nonce (nonce : Bytes)
  | threw (e : Exn)
  | verdict (valid : Bool)
  | done
  deriving DecidableEq

/-- A call and what the clock says when it is made. -/
structure Call (τ : Type) where
  now : τ
  op : Op

def call (m : Nonces τ) (c : Call τ) : Nonces τ × Result :=
  match c.op with
  | .generate randBytes =>
    match m.generate c.now randBytes with
    | (.ok nonce, m') => (m', .nonce nonce)
    | (.error e, m') => (m', .threw e)
  | .isValid nonce => (m, .verdict (m.isValid c.now nonce))
  | .invalidate nonce => (m.invalidate nonce, .done)
  | .cleanup order => (m.cleanup c.now order, .done)

/-- A manager from its construction on. -/
def machine (ttl : τ) : Machine (Nonces τ) (Call τ) Result Empty where
  init := { ttl }
  step m c := .ok (m.call c)

abbrev Step (τ : Type) := Transition (Nonces τ) (Call τ) Result

/-- The clock does not go back. -/
def ClockRuns (ts : List (Step τ)) : Prop :=
  ts.Pairwise fun t t' => t.input.now ≤ t'.input.now

/-- The time is not before any of the calls. -/
def NotBefore (ts : List (Step τ)) (now : τ) : Prop := ∀ t ∈ ts, t.input.now ≤ now

/-- `generate` has returned the nonce at a time. -/
def Issued (ts : List (Step τ)) (nonce : Bytes) (t₀ : τ) : Prop :=
  ∃ t ∈ ts, t.output = .nonce nonce ∧ t.input.now = t₀

/-- The nonce has been invalidated after its latest issue. -/
def InvalidatedSince (ts : List (Step τ)) (nonce : Bytes) : Prop :=
  ∃ before t after, ts = before ++ t :: after ∧ t.input.op = .invalidate nonce ∧
    ∀ t' ∈ after, t'.output ≠ .nonce nonce

/-- What is called besides `cleanup`, with the nonce that `generate` returns. -/
inductive Seen (τ : Type) where
  | generated (now : τ) (returned : Option Bytes)
  | asked (now : τ) (nonce : Bytes)
  | invalidated (now : τ) (nonce : Bytes)

def seen (t : Step τ) : Option (Seen τ) :=
  match t.input.op, t.output with
  | .generate _, .nonce nonce => some (.generated t.input.now (some nonce))
  | .generate _, _ => some (.generated t.input.now none)
  | .isValid nonce, _ => some (.asked t.input.now nonce)
  | .invalidate nonce, _ => some (.invalidated t.input.now nonce)
  | .cleanup _, _ => none

/-- What `isValid` answers. -/
def verdict (t : Step τ) : Option Bool :=
  match t.output with
  | .verdict valid => some valid
  | _ => none

/-! ## One call -/

variable {ttl : τ} {t : Step τ} {ts : List (Step τ)} {m : Nonces τ} {nonce : Bytes} {now : τ}

/-- What a call does to the lease of a nonce. -/
def lease (ttl : τ) : Seen τ → Option (Lease.Event Bytes τ)
  | .generated now returned => returned.map fun nonce => .grant nonce (now + ttl)
  | .asked _ _ => none
  | .invalidated _ nonce => some (.revoke nonce)

def event (ttl : τ) (t : Step τ) : Option (Lease.Event Bytes τ) := (seen t).bind (lease ttl)

omit [LinearOrder τ] [Add τ] in
/-- `generate` returns what is not in the store. -/
theorem drawNonce_fresh {store : UnorderedMap Bytes τ} {bufs : List (Vector UInt8 16)}
    (drawn : drawNonce store bufs = .ok nonce) : store.lookup nonce = none := by
  induction bufs with
  | nil => simp [drawNonce] at drawn
  | cons buf rest ih =>
    simp only [drawNonce] at drawn
    split at drawn
    · exact ih drawn
    · rename_i free
      obtain rfl := Except.ok.inj drawn
      simpa using free

/-- What a call does: one that returns a nonce has drawn a new one and issues it, and
the others do to the store what their names say. -/
inductive Effect (m : Nonces τ) (now : τ) : Op → Nonces τ → Result → Prop where
  | issues (randBytes : List (Vector UInt8 16)) (nonce : Bytes) : m.store.lookup nonce = none →
      Effect m now (.generate randBytes)
        { m with store := m.store.insert nonce (now + m.ttl) } (.nonce nonce)
  | throws (randBytes : List (Vector UInt8 16)) (e : Exn) :
      Effect m now (.generate randBytes) m (.threw e)
  | answers (nonce : Bytes) : Effect m now (.isValid nonce) m (.verdict (m.isValid now nonce))
  | revokes (nonce : Bytes) : Effect m now (.invalidate nonce) (m.invalidate nonce) .done
  | sweeps (order : IterOrder) : Effect m now (.cleanup order) (m.cleanup now order) .done

theorem call_effect (m : Nonces τ) (c : Call τ) :
    Effect m c.now c.op (m.call c).1 (m.call c).2 := by
  obtain ⟨now, op⟩ := c
  cases op with
  | generate randBytes =>
    simp only [call, generate]
    cases drawn : drawNonce m.store randBytes with
    | error e => exact .throws randBytes e
    | ok nonce => exact .issues randBytes nonce (drawNonce_fresh drawn)
  | isValid nonce => exact .answers nonce
  | invalidate nonce => exact .revokes nonce
  | cleanup order => exact .sweeps order

theorem takes_effect (taken : (machine ttl).Takes t) :
    Effect t.before t.input.now t.input.op t.after t.output := by
  have result : t.before.call t.input = (t.after, t.output) := Except.ok.inj taken
  have effect := call_effect t.before t.input
  rwa [result] at effect

theorem event_grant_iff (taken : (machine ttl).Takes t) {e : τ} :
    event ttl t = some (.grant nonce e) ↔ t.output = .nonce nonce ∧ t.input.now + ttl = e := by
  obtain ⟨before, ⟨now, op⟩, after, output⟩ := t
  have effect : Effect before now op after output := takes_effect taken
  cases effect <;> simp [event, seen, lease]

theorem event_revoke_iff (taken : (machine ttl).Takes t) :
    event ttl t = some (.revoke nonce) ↔ t.input.op = .invalidate nonce := by
  obtain ⟨before, ⟨now, op⟩, after, output⟩ := t
  have effect : Effect before now op after output := takes_effect taken
  cases effect <;> simp [event, seen, lease]

/-- **One call keeps track of the leases**, at the time it is made. -/
theorem tracks_call (taken : (machine ttl).Takes t) (lives : t.before.ttl = ttl)
    (tracks : Lease.Tracks (event ttl) t.input.now t.before.store ts) :
    t.after.ttl = ttl ∧ Lease.Tracks (event ttl) t.input.now t.after.store (ts ++ [t]) := by
  obtain ⟨before, ⟨now, op⟩, after, output⟩ := t
  have effect : Effect before now op after output := takes_effect taken
  subst lives
  cases effect with
  | issues randBytes nonce fresh => exact ⟨rfl, tracks.grant rfl⟩
  | throws randBytes e => exact ⟨rfl, tracks.quiet rfl⟩
  | answers nonce => exact ⟨rfl, tracks.quiet rfl⟩
  | revokes nonce => exact ⟨rfl, tracks.revoke rfl⟩
  | sweeps order =>
    refine ⟨rfl, (tracks.sweep fun nonce => ?_).quiet rfl⟩
    rw [cleanup, UnorderedMap.lookup_eraseLoop]
    simp only [ge_iff_le, ← decide_not, not_le]

/-! ## Every run -/

omit [Add τ] in
theorem clockRuns_snoc : ClockRuns (ts ++ [t]) ↔ ClockRuns ts ∧ NotBefore ts t.input.now := by
  simp [ClockRuns, NotBefore, List.pairwise_append]

/-- The store tracks the leases from the last call on. -/
theorem tracks_of_run (run : Run (machine ttl) ts m) (clock : ClockRuns ts) :
    m.ttl = ttl ∧ ∀ now, NotBefore ts now → Lease.Tracks (event ttl) now m.store ts := by
  refine run.invariant_with_history (fun ts m => ClockRuns ts → m.ttl = ttl ∧
    ∀ now, NotBefore ts now → Lease.Tracks (event ttl) now m.store ts) ?_ ?_ clock
  · exact fun _ => ⟨rfl, fun now _ => Lease.Tracks.empty⟩
  · intro earlier t ih taken clock
    obtain ⟨before, runs⟩ := clockRuns_snoc.mp clock
    obtain ⟨lives, tracks⟩ := ih before
    obtain ⟨lives', tracks'⟩ := tracks_call taken lives (tracks t.input.now runs)
    exact ⟨lives', fun now past => tracks'.later (past t (by simp))⟩

omit [Add τ] in
theorem isValid_iff : m.isValid now nonce = true ↔
    ∃ expiry, m.store.lookup nonce = some expiry ∧ now < expiry := by
  unfold isValid
  cases m.store.lookup nonce <;> simp

/-- The answer of `isValid` in terms of what was seen before. -/
def answer (ttl : τ) (past : List (Seen τ)) : Seen τ → Option Bool
  | .asked now nonce => some ((Lease.deadline (lease ttl) nonce past).any (now < ·))
  | _ => none

/-- The answers of `isValid` in terms of what is seen. -/
def answers (ttl : τ) (past : List (Seen τ)) : List (Seen τ) → List Bool
  | [] => []
  | s :: rest => (answer ttl past s).toList ++ answers ttl (past ++ [s]) rest

theorem answers_snoc (past ss : List (Seen τ)) (s : Seen τ) :
    answers ttl past (ss ++ [s]) =
      answers ttl past ss ++ (answer ttl (past ++ ss) s).toList := by
  induction ss generalizing past with
  | nil => simp [answers]
  | cons s' ss ih => simp [answers, ih]

/-- What `isValid` answers, it answers by what was seen before. -/
theorem verdict_call (taken : (machine ttl).Takes t)
    (tracks : Lease.Tracks (event ttl) t.input.now t.before.store ts) :
    verdict t = (seen t).bind (answer ttl (ts.filterMap seen)) := by
  obtain ⟨before, ⟨now, op⟩, after, output⟩ := t
  have effect : Effect before now op after output := takes_effect taken
  cases effect with
  | answers nonce =>
    have same : before.isValid now nonce =
        (Lease.deadline (lease ttl) nonce (ts.filterMap seen)).any (now < ·) := by
      rw [Bool.eq_iff_iff, isValid_iff, tracks.live, Lease.deadline_filterMap]
      simp only [Option.any_eq_true, decide_eq_true_eq]
      rfl
    simp [verdict, seen, answer, same]
  | issues | throws | revokes | sweeps => simp [verdict, seen, answer]

/-- The answers of a whole run, by what is seen of it. -/
theorem verdicts_of_run (run : Run (machine ttl) ts m) (clock : ClockRuns ts) :
    ts.filterMap verdict = answers ttl [] (ts.filterMap seen) := by
  induction run with
  | start => rfl
  | @step ts m c m' result run taken ih =>
    obtain ⟨before, runs⟩ := clockRuns_snoc.mp clock
    have tracks := (tracks_of_run run before).2 c.now runs
    have one : verdict ⟨m, c, m', result⟩ = _ := verdict_call taken tracks
    rw [List.filterMap_append, List.filterMap_append, ih before]
    cases visible : seen (⟨m, c, m', result⟩ : Step τ) with
    | none => simp [one, visible]
    | some s =>
      have last : [(⟨m, c, m', result⟩ : Step τ)].filterMap seen = [s] := by simp [visible]
      rw [last, answers_snoc, List.nil_append]
      cases said : answer ttl (ts.filterMap seen) s <;> simp [one, visible, said]

/-- Nonces issued later do not run out earlier. -/
theorem ordered_of_clock [AddRightMono τ] (taken : ∀ t ∈ ts, (machine ttl).Takes t)
    (clock : ClockRuns ts) : Lease.Ordered (event ttl) ts := by
  refine List.Pairwise.imp_of_mem ?_ clock
  intro t t' member member' before nonce e e' grants grants'
  obtain ⟨-, rfl⟩ := (event_grant_iff (taken t member)).mp grants
  obtain ⟨-, rfl⟩ := (event_grant_iff (taken t' member')).mp grants'
  exact add_le_add_left before ttl

theorem granted_iff (taken : ∀ t ∈ ts, (machine ttl).Takes t) {e : τ} :
    Lease.Granted (event ttl) nonce e ts ↔ ∃ t₀, Issued ts nonce t₀ ∧ t₀ + ttl = e := by
  constructor
  · rintro ⟨t, member, grants⟩
    obtain ⟨returned, rfl⟩ := (event_grant_iff (taken t member)).mp grants
    exact ⟨t.input.now, ⟨t, member, returned, rfl⟩, rfl⟩
  · rintro ⟨_, ⟨t, member, returned, rfl⟩, rfl⟩
    exact ⟨t, member, (event_grant_iff (taken t member)).mpr ⟨returned, rfl⟩⟩

theorem revokedSince_iff (taken : ∀ t ∈ ts, (machine ttl).Takes t) :
    Lease.RevokedSince (event ttl) nonce ts ↔ InvalidatedSince ts nonce := by
  constructor
  · rintro ⟨before, t, after, rfl, revokes, ungranted⟩
    refine ⟨before, t, after, rfl, (event_revoke_iff (taken t (by simp))).mp revokes, ?_⟩
    intro t' member returned
    have granted := (event_grant_iff (taken t' (by simp [member]))).mpr ⟨returned, rfl⟩
    exact ungranted t' member _ granted
  · rintro ⟨before, t, after, rfl, invalidates, unissued⟩
    refine ⟨before, t, after, rfl, (event_revoke_iff (taken t (by simp))).mpr invalidates, ?_⟩
    intro t' member e grants
    exact unissued t' member ((event_grant_iff (taken t' (by simp [member]))).mp grants).1

/-- `generate` returns no nonce that is valid at that moment. -/
theorem issued_fresh (taken : (machine ttl).Takes t) (returned : t.output = .nonce nonce) :
    t.before.isValid t.input.now nonce = false := by
  obtain ⟨before, ⟨now, op⟩, after, output⟩ := t
  have effect : Effect before now op after output := takes_effect taken
  cases effect with
  | issues randBytes nonce' fresh =>
    obtain rfl := Result.nonce.inj returned
    simp [isValid, fresh]
  | throws | answers | revokes | sweeps => cases returned

/-- **The manager refines the history of what it has issued.** In every run with a clock
that does not go back: a nonce is valid exactly if some issue of it has not run out and
it has not been invalidated since the latest; `generate` returns none that is valid; and
runs that differ in calls of `cleanup` only, and in what is drawn to get the same nonces,
get the same answers. -/
theorem refines_history [AddRightMono τ] (ttl : τ) (run : Run (machine ttl) ts m)
    (clock : ClockRuns ts) :
    (∀ now, NotBefore ts now → ∀ nonce, m.isValid now nonce = true ↔
        (∃ t₀, Issued ts nonce t₀ ∧ now < t₀ + ttl) ∧ ¬ InvalidatedSince ts nonce) ∧
      (∀ t ∈ ts, ∀ nonce, t.output = .nonce nonce → t.before.isValid t.input.now nonce = false) ∧
      ∀ ts' m', Run (machine ttl) ts' m' → ClockRuns ts' →
        ts'.filterMap seen = ts.filterMap seen → ts'.filterMap verdict = ts.filterMap verdict := by
  have taken : ∀ t ∈ ts, (machine ttl).Takes t := fun t member => run.takes member
  refine ⟨fun now past nonce => ?_, fun t member nonce returned => ?_,
    fun ts' m' run' clock' same => ?_⟩
  · have tracks := (tracks_of_run run clock).2 now past
    rw [isValid_iff, tracks.live, Lease.live_iff (ordered_of_clock taken clock),
      revokedSince_iff taken]
    simp only [granted_iff taken]
    refine and_congr_left fun _ => ⟨?_, ?_⟩
    · rintro ⟨_, ⟨t₀, issued, rfl⟩, early⟩
      exact ⟨t₀, issued, early⟩
    · rintro ⟨t₀, issued, early⟩
      exact ⟨_, ⟨t₀, issued, rfl⟩, early⟩
  · exact issued_fresh (taken t member) returned
  · rw [verdicts_of_run run' clock', verdicts_of_run run clock, same]

instance (ts : List (Step τ)) : Decidable (ClockRuns ts) :=
  inferInstanceAs (Decidable (ts.Pairwise _))

instance (ts : List (Step τ)) (now : τ) : Decidable (NotBefore ts now) :=
  inferInstanceAs (Decidable (∀ t ∈ ts, _))

/-- A nonce is issued, invalidated and, drawn again, issued again. -/
def reissue : List (Call TimePoint) :=
  let zeros : Vector UInt8 16 := Vector.replicate 16 0
  [⟨0, .generate [zeros]⟩, ⟨1, .invalidate (hex zeros.toList)⟩, ⟨2, .generate [zeros]⟩,
    ⟨3, .cleanup .listed⟩]

theorem refines_history_reissued : ∃ ts m, Run (machine (seconds NonceManager.ttl)) ts m ∧
    ∃ nonce, m.isValid 4 nonce = true ∧
      (∃ t₀, Issued ts nonce t₀ ∧ 4 < t₀ + seconds NonceManager.ttl) ∧
      ¬ InvalidatedSince ts nonce := by
  obtain ⟨ts, m, run, check⟩ := Run.of_exec (machine (seconds NonceManager.ttl)) reissue
    (fun ts m => ClockRuns ts ∧ NotBefore ts 4 ∧
      m.isValid 4 (hex (Vector.replicate 16 0).toList)) (by decide +kernel)
  obtain ⟨clock, past, valid⟩ := of_decide_eq_true check
  have history := (refines_history (seconds NonceManager.ttl) run clock).1 4 past
  exact ⟨ts, m, run, _, valid, (history _).mp valid⟩

/-- The dispatcher's manager is one whose nonces live for an hour. -/
theorem generate_deployed (env : Env) (store : NonceStore) :
    (⟨seconds NonceManager.ttl, store⟩ : Nonces TimePoint).generate env.now env.randBytes =
      ((NonceManager.generate env store).map Prod.fst, ⟨seconds NonceManager.ttl,
        ((NonceManager.generate env store).toOption.map Prod.snd).getD store⟩) := by
  simp only [NonceManager.generate, generate]
  cases drawNonce store env.randBytes <;> rfl

theorem isValid_deployed (env : Env) (store : NonceStore) (nonce : Bytes) :
    (⟨seconds NonceManager.ttl, store⟩ : Nonces TimePoint).isValid env.now nonce =
      NonceManager.isValid env store nonce := by
  simp only [NonceManager.isValid, isValid]
  cases store.lookup nonce with
  | none => rfl
  | some expiry => simp

end Nonces

end Zaza
