import Mathlib.Data.List.Forall2
import Mathlib.Data.List.Nodup
import Zaza.Machine

/-!
Pieces of code that share one object and run on any number of threads.

A `Code` calls the object's methods, each of which holds the object's lock from
its first line to its last, and emits things. Between two such steps the
scheduler may run any other piece. If every piece calls the object at most once,
and before it emits anything, then every interleaving is explained by running the
pieces one after the other, in the order in which they made their calls
(`linearizable`). This order is read off the history (`order`), so it agrees with
real time: a piece that had finished comes before one that had not started
(`finished_first`).
-/
namespace Zaza.Interleaving

inductive Code (Op : Type) (Reply : Op → Type) (ο : Type) where
  | done
  | call (op : Op) (next : Reply op → Code Op Reply ο)
  | emit (o : ο) (next : Code Op Reply ο)

/-- An object: what a call of it returns, and what it leaves behind. -/
abbrev Object (Op : Type) (Reply : Op → Type) (σ : Type) := (op : Op) → σ → Reply op × σ

variable {Op : Type} {Reply : Op → Type} {σ ι ο : Type}

namespace Code

/-- The code run to its end with nothing in between. -/
def run (obj : Object Op Reply σ) : Code Op Reply ο → σ → σ × List ο
  | .done, s => (s, [])
  | .call op next, s => (next (obj op s).1).run obj (obj op s).2
  | .emit o next, s => ((next.run obj s).1, o :: (next.run obj s).2)

/-- The next step is a call. -/
def isCall : Code Op Reply ο → Bool
  | .call _ _ => true
  | _ => false

def isDone : Code Op Reply ο → Bool
  | .done => true
  | _ => false

/-- No call is left. -/
def Silent : Code Op Reply ο → Prop
  | .done => True
  | .call _ _ => False
  | .emit _ next => next.Silent

/-- At most one call, before anything is emitted. -/
def Once : Code Op Reply ο → Prop
  | .done => True
  | .call _ next => ∀ reply, (next reply).Silent
  | .emit _ next => next.Silent

/-- What code without calls still emits. -/
def rest : Code Op Reply ο → List ο
  | .done => []
  | .call _ _ => []
  | .emit o next => o :: next.rest

variable {code : Code Op Reply ο}

theorem isDone_iff : code.isDone = true ↔ code = .done := by
  cases code <;> simp [isDone]

theorem Silent.run (silent : code.Silent) (obj : Object Op Reply σ) (s : σ) :
    code.run obj s = (s, code.rest) := by
  induction code with
  | done => rfl
  | call op next => exact silent.elim
  | emit o next ih => simp [Code.run, rest, ih silent]

/-- Code that calls at most once has made its call, or is about to. -/
theorem Once.silent (once : code.Once) (made : code.isCall = false) : code.Silent := by
  cases code with
  | done => trivial
  | call op next => simp [isCall] at made
  | emit o next => exact once

end Code

/-! ## The threads and the sequential machine -/

/-- A piece of code that has been started. -/
structure Job (Op : Type) (Reply : Op → Type) (ι ο : Type) where
  /-- What it was started for. -/
  input : ι
  /-- What is left of it. -/
  code : Code Op Reply ο
  /-- What it has emitted. -/
  emitted : List ο

structure Pool (Op : Type) (Reply : Op → Type) (σ ι ο : Type) where
  shared : σ
  /-- All jobs there have been, in the order of their starts. -/
  jobs : List (Job Op Reply ι ο)

/-- What the scheduler does next. -/
inductive Turn (ι : Type) where
  | start (i : ι)
  | advance (k : Nat)

/-- A step of a job; what it emits, with its number. -/
def Pool.advance (obj : Object Op Reply σ) (p : Pool Op Reply σ ι ο) (k : Nat)
    (job : Job Op Reply ι ο) : Pool Op Reply σ ι ο × Option (Nat × ο) :=
  match job.code with
  | .done => (p, none)
  | .call op next =>
    (⟨(obj op p.shared).2, p.jobs.set k { job with code := next (obj op p.shared).1 }⟩, none)
  | .emit o next =>
    (⟨p.shared, p.jobs.set k ⟨job.input, next, job.emitted ++ [o]⟩⟩, some (k, o))

/-- The threads, under any scheduler. -/
def threads (obj : Object Op Reply σ) (program : ι → Code Op Reply ο) (init : σ) :
    Machine (Pool Op Reply σ ι ο) (Turn ι) (Option (Nat × ο)) Empty where
  init := ⟨init, []⟩
  step p
    | .start i => .ok (⟨p.shared, p.jobs ++ [⟨i, program i, []⟩]⟩, none)
    | .advance k =>
      match p.jobs[k]? with
      | none => .ok (p, none)
      | some job => .ok (p.advance obj k job)

/-- One piece of code after the other, each run to its end. -/
def sequential (obj : Object Op Reply σ) (program : ι → Code Op Reply ο) (init : σ) :
    Machine σ ι (List ο) Empty where
  init := init
  step s i := .ok ((program i).run obj s)

/-! ## The order of the calls -/

abbrev Step (Op : Type) (Reply : Op → Type) (σ ι ο : Type) :=
  Transition (Pool Op Reply σ ι ο) (Turn ι) (Option (Nat × ο))

/-- The job that takes effect in a step: one that makes its call, or one that is
started and has none to make. -/
def commit (program : ι → Code Op Reply ο) (t : Step Op Reply σ ι ο) : Option Nat :=
  match t.input with
  | .start i => if (program i).isCall then none else some t.before.jobs.length
  | .advance k => if t.before.jobs[k]?.any (·.code.isCall) then some k else none

/-- The jobs that have taken effect, in the order in which they did. -/
def order (program : ι → Code Op Reply ο) (ts : List (Step Op Reply σ ι ο)) : List Nat :=
  ts.filterMap (commit program)

/-- A job has emitted, or is still going to emit, what its input emits at its place in a
sequential run. -/
def Explains (p : Pool Op Reply σ ι ο) (k : Nat) (t : Transition σ ι (List ο)) : Prop :=
  ∃ job, p.jobs[k]? = some job ∧ job.code.Silent ∧ job.input = t.input ∧
    job.emitted ++ job.code.rest = t.output

/-- A job waits with its call and nothing emitted, or it has taken effect. -/
def Settled (program : ι → Code Op Reply ο) (done : List Nat) (k : Nat)
    (job : Job Op Reply ι ο) : Prop :=
  (job.code.isCall = true ∧ k ∉ done ∧ job.code = program job.input ∧ job.emitted = []) ∨
    job.code.Silent ∧ k ∈ done

/-- The threads have done what a sequential run in the order of their calls does. -/
structure Linearized (obj : Object Op Reply σ) (program : ι → Code Op Reply ο) (init : σ)
    (done : List Nat) (p : Pool Op Reply σ ι ο) (seq : List (Transition σ ι (List ο))) :
    Prop where
  run : Run (sequential obj program init) seq p.shared
  explains : List.Forall₂ (Explains p) done seq
  nodup : done.Nodup
  started : ∀ k ∈ done, k < p.jobs.length
  settled : ∀ k job, p.jobs[k]? = some job → Settled program done k job

variable {obj : Object Op Reply σ} {program : ι → Code Op Reply ο} {init : σ}
  {ts : List (Step Op Reply σ ι ο)} {p p' : Pool Op Reply σ ι ο} {done : List Nat}
  {seq : List (Transition σ ι (List ο))} {k : Nat} {job job' : Job Op Reply ι ο}

theorem order_concat (t : Step Op Reply σ ι ο) :
    order program (ts ++ [t]) = order program ts ++ (commit program t).toList := by
  unfold order
  rw [List.filterMap_append]
  cases committed : commit program t <;> simp [committed]

/-- What has taken effect stays so: no step takes back what a job has emitted. -/
theorem Explains.later {t : Transition σ ι (List ο)} (explains : Explains p k t)
    (kept : ∀ job, p.jobs[k]? = some job → job.code.Silent → ∃ job',
      p'.jobs[k]? = some job' ∧ job'.code.Silent ∧ job'.input = job.input ∧
        job'.emitted ++ job'.code.rest = job.emitted ++ job.code.rest) :
    Explains p' k t := by
  obtain ⟨job, found, silent, input, output⟩ := explains
  obtain ⟨job', found', silent', input', output'⟩ := kept job found silent
  exact ⟨job', found', silent', input'.trans input, output'.trans output⟩

theorem settled_concat (settled : Settled program done k job) (other : k ≠ j) :
    Settled program (done ++ [j]) k job := by
  rcases settled with ⟨calls, waits, rest⟩ | ⟨silent, member⟩
  · exact .inl ⟨calls, by simp [waits, other], rest⟩
  · exact .inr ⟨silent, List.mem_append_left _ member⟩

/-- The jobs after a start: the old ones, and a new one behind them. -/
theorem found_concat (found : (p.jobs ++ [job])[k]? = some job') :
    (k < p.jobs.length ∧ p.jobs[k]? = some job') ∨ k = p.jobs.length ∧ job' = job := by
  rcases Nat.lt_or_ge k p.jobs.length with old | new
  · rw [List.getElem?_append_left old] at found
    exact .inl ⟨old, found⟩
  · rw [List.getElem?_append_right new] at found
    obtain ⟨zero, rfl⟩ : k - p.jobs.length = 0 ∧ job = job' := by
      simpa [List.getElem?_singleton] using found
    exact .inr ⟨by omega, rfl⟩

/-- The jobs after a step of one of them. -/
theorem found_set {j : Nat} (found : (p.jobs.set k job)[j]? = some job') :
    (j = k ∧ job' = job) ∨ j ≠ k ∧ p.jobs[j]? = some job' := by
  rw [List.getElem?_set] at found
  split at found
  · subst_vars
    split at found
    · exact .inl ⟨rfl, (Option.some.inj found).symm⟩
    · cases found
  · exact .inr ⟨by omega, found⟩

namespace Linearized

theorem initial : Linearized obj program init [] (threads obj program init).init [] where
  run := .start
  explains := .nil
  nodup := List.nodup_nil
  started := by simp
  settled := by simp [threads]

/-- What is explained stays explained when a job is started. -/
theorem explains_start (lin : Linearized obj program init done p seq) (s : σ) :
    List.Forall₂ (Explains ⟨s, p.jobs ++ [job]⟩) done seq := by
  refine lin.explains.imp fun k t explains => explains.later fun job found silent => ?_
  have old := (List.getElem?_eq_some_iff.mp found).1
  exact ⟨job, by rw [List.getElem?_append_left old, found], silent, rfl, rfl⟩

/-- A new job whose first step is a call waits with it. -/
theorem start_waits (lin : Linearized obj program init done p seq) {i : ι}
    (calls : (program i).isCall = true) :
    Linearized obj program init done ⟨p.shared, p.jobs ++ [⟨i, program i, []⟩]⟩ seq where
  run := lin.run
  explains := lin.explains_start p.shared
  nodup := lin.nodup
  started k member := by
    have before := lin.started k member
    simp only [List.length_append, List.length_singleton]
    omega
  settled k job found := by
    rcases found_concat found with ⟨_, old⟩ | ⟨rfl, rfl⟩
    · exact lin.settled k job old
    · exact .inl ⟨calls, fun member => (lin.started _ member).false, rfl, rfl⟩

/-- A new job without a call takes effect at once. -/
theorem start_commits (lin : Linearized obj program init done p seq) {i : ι}
    (silent : (program i).Silent) :
    Linearized obj program init (done ++ [p.jobs.length])
      ⟨p.shared, p.jobs ++ [⟨i, program i, []⟩]⟩
      (seq ++ [⟨p.shared, i, p.shared, (program i).rest⟩]) where
  run := lin.run.step (congrArg Except.ok (silent.run obj p.shared))
  explains := by
    refine List.rel_append (lin.explains_start p.shared) (.cons ?_ .nil)
    exact ⟨⟨i, program i, []⟩, List.getElem?_concat_length, silent, rfl, rfl⟩
  nodup := by
    refine List.nodup_append.mpr ⟨lin.nodup, List.nodup_singleton _, fun k member j last => ?_⟩
    have before := lin.started k member
    simp only [List.mem_singleton] at last
    omega
  started k member := by
    simp only [List.length_append, List.length_singleton]
    rcases List.mem_append.mp member with old | new
    · have before := lin.started k old
      omega
    · simp only [List.mem_singleton] at new
      omega
  settled k job found := by
    rcases found_concat found with ⟨bound, old⟩ | ⟨rfl, rfl⟩
    · exact settled_concat (lin.settled k job old) bound.ne
    · exact .inr ⟨silent, by simp⟩

/-- A job that makes its call takes effect. -/
theorem calls (lin : Linearized obj program init done p seq) (once : ∀ i, (program i).Once)
    (found : p.jobs[k]? = some job) {op : Op} {next : Reply op → Code Op Reply ο}
    (code : job.code = .call op next) :
    Linearized obj program init (done ++ [k])
      ⟨(obj op p.shared).2, p.jobs.set k { job with code := next (obj op p.shared).1 }⟩
      (seq ++ [⟨p.shared, job.input, (obj op p.shared).2, (next (obj op p.shared).1).rest⟩]) := by
  have bound := (List.getElem?_eq_some_iff.mp found).1
  -- It has been waiting, so what it runs is its program from the start.
  obtain ⟨fresh, same, none⟩ : k ∉ done ∧ job.code = program job.input ∧ job.emitted = [] := by
    rcases lin.settled k job found with ⟨_, waits⟩ | ⟨silent, _⟩
    · exact waits
    · rw [code] at silent
      exact silent.elim
  have silent : (next (obj op p.shared).1).Silent := by
    have whole := once job.input
    rw [← same, code] at whole
    exact whole _
  constructor
  case run =>
    refine lin.run.step (congrArg Except.ok ?_)
    rw [← same, code]
    exact silent.run obj _
  case explains =>
    refine List.rel_append (lin.explains.imp fun j t explains => ?_) (.cons ?_ .nil)
    · refine explains.later fun job' found' silent' => ⟨job', ?_, silent', rfl, rfl⟩
      rw [List.getElem?_set_ne, found']
      rintro rfl
      obtain rfl := Option.some.inj (found.symm.trans found')
      rw [code] at silent'
      exact silent'.elim
    · refine ⟨{ job with code := next (obj op p.shared).1 }, ?_, silent, rfl, by simp [none]⟩
      exact List.getElem?_set_self bound
  case nodup =>
    refine List.nodup_append.mpr ⟨lin.nodup, List.nodup_singleton _, fun j member _ last => ?_⟩
    obtain rfl := List.mem_singleton.mp last
    exact fun same => fresh (same ▸ member)
  case started =>
    intro j member
    rw [List.length_set]
    rcases List.mem_append.mp member with old | new
    · exact lin.started j old
    · rwa [List.mem_singleton.mp new]
  case settled =>
    intro j job' found'
    rcases found_set found' with ⟨rfl, rfl⟩ | ⟨other, old⟩
    · exact .inr ⟨silent, by simp⟩
    · exact settled_concat (lin.settled j job' old) other

/-- A job that emits something has taken effect before. -/
theorem emits (lin : Linearized obj program init done p seq) (found : p.jobs[k]? = some job)
    {o : ο} {next : Code Op Reply ο} (code : job.code = .emit o next) :
    Linearized obj program init done
      ⟨p.shared, p.jobs.set k ⟨job.input, next, job.emitted ++ [o]⟩⟩ seq := by
  have bound := (List.getElem?_eq_some_iff.mp found).1
  obtain ⟨silent, member⟩ : next.Silent ∧ k ∈ done := by
    rcases lin.settled k job found with ⟨calls, _⟩ | effect
    · simp [code, Code.isCall] at calls
    · rwa [code] at effect
  refine ⟨lin.run, lin.explains.imp fun j t explains => ?_, lin.nodup, fun j member => ?_,
    fun j job' found' => ?_⟩
  · refine explains.later fun job' found' silent' => ?_
    by_cases same : k = j
    · subst same
      obtain rfl := Option.some.inj (found.symm.trans found')
      refine ⟨_, List.getElem?_set_self bound, silent, rfl, ?_⟩
      simp [code, Code.rest]
    · exact ⟨job', by rw [List.getElem?_set_ne same, found'], silent', rfl, rfl⟩
  · rw [List.length_set]
    exact lin.started j member
  · rcases found_set found' with ⟨rfl, rfl⟩ | ⟨_, old⟩
    · exact .inr ⟨silent, member⟩
    · exact lin.settled j job' old

/-- Every step of the scheduler extends the sequential run, or leaves it as it is. -/
theorem preserved (once : ∀ i, (program i).Once) {t : Step Op Reply σ ι ο}
    (lin : Linearized obj program init done t.before seq)
    (taken : (threads obj program init).Takes t) :
    ∃ seq', Linearized obj program init (done ++ (commit program t).toList) t.after seq' := by
  obtain ⟨p, turn, p', o⟩ := t
  simp only [Machine.Takes, threads] at taken
  cases turn with
  | start i =>
    simp only [Except.ok.injEq, Prod.mk.injEq] at taken
    obtain ⟨rfl, rfl⟩ := taken
    cases calls : (program i).isCall with
    | true => exact ⟨seq, by simpa [commit, calls] using lin.start_waits calls⟩
    | false =>
      exact ⟨_, by simpa [commit, calls] using lin.start_commits ((once i).silent calls)⟩
  | advance k =>
    cases found : p.jobs[k]? with
    | none =>
      simp only [found, Except.ok.injEq, Prod.mk.injEq] at taken
      obtain ⟨rfl, rfl⟩ := taken
      exact ⟨seq, by simpa [commit, found] using lin⟩
    | some job =>
      simp only [found, Except.ok.injEq, Pool.advance] at taken
      cases code : job.code with
      | done =>
        simp only [code, Prod.mk.injEq] at taken
        obtain ⟨rfl, rfl⟩ := taken
        exact ⟨seq, by simpa [commit, found, code, Code.isCall] using lin⟩
      | call op next =>
        simp only [code, Prod.mk.injEq] at taken
        obtain ⟨rfl, rfl⟩ := taken
        exact ⟨_, by simpa [commit, found, code, Code.isCall] using lin.calls once found code⟩
      | emit o next =>
        simp only [code, Prod.mk.injEq] at taken
        obtain ⟨rfl, rfl⟩ := taken
        exact ⟨seq, by simpa [commit, found, code, Code.isCall] using lin.emits found code⟩

end Linearized

/-! ## Every interleaving -/

/-- Every interleaving of pieces of code that call the object at most once is explained
by a sequential run in the order of their calls. -/
theorem linearizable (once : ∀ i, (program i).Once) (run : Run (threads obj program init) ts p) :
    ∃ seq, Linearized obj program init (order program ts) p seq := by
  refine run.invariant_with_history
    (fun ts p => ∃ seq, Linearized obj program init (order program ts) p seq)
    ⟨[], Linearized.initial⟩ fun earlier t ih taken => ?_
  obtain ⟨seq, lin⟩ := ih
  rw [order_concat]
  exact lin.preserved once taken

/-- What has been emitted, in the order in which it was. -/
def sent (ts : List (Step Op Reply σ ι ο)) : List ο :=
  ts.filterMap fun t => t.output.map Prod.snd

/-- What one of the jobs has emitted in addition. -/
theorem flatMap_set_perm {τ : Type} {f : τ → List ο} {l : List τ} {x x' : τ}
    (found : l[k]? = some x) {added : List ο} (more : f x' = f x ++ added) :
    (l.flatMap f ++ added).Perm ((l.set k x').flatMap f) := by
  induction l generalizing k with
  | nil => simp at found
  | cons y l ih =>
    cases k with
    | zero =>
      obtain rfl : y = x := by simpa using found
      rw [List.set_cons_zero, List.flatMap_cons, List.flatMap_cons, more, List.append_assoc,
        List.append_assoc]
      exact List.perm_append_comm.append_left _
    | succ k =>
      rw [List.set_cons_succ, List.flatMap_cons, List.flatMap_cons, List.append_assoc]
      exact (ih (by simpa using found)).append_left _

/-- A step adds what it emits, and nothing else, to what the jobs have emitted. -/
theorem emitted_step {t : Step Op Reply σ ι ο} (taken : (threads obj program init).Takes t) :
    (t.before.jobs.flatMap Job.emitted ++ (t.output.map Prod.snd).toList).Perm
      (t.after.jobs.flatMap Job.emitted) := by
  obtain ⟨p, turn, p', o⟩ := t
  simp only [Machine.Takes, threads] at taken
  cases turn with
  | start i =>
    simp only [Except.ok.injEq, Prod.mk.injEq] at taken
    obtain ⟨rfl, rfl⟩ := taken
    simp
  | advance k =>
    cases found : p.jobs[k]? with
    | none =>
      simp only [found, Except.ok.injEq, Prod.mk.injEq] at taken
      obtain ⟨rfl, rfl⟩ := taken
      simp
    | some job =>
      simp only [found, Except.ok.injEq, Pool.advance] at taken
      cases code : job.code with
      | done =>
        simp only [code, Prod.mk.injEq] at taken
        obtain ⟨rfl, rfl⟩ := taken
        simp
      | call op next =>
        simp only [code, Prod.mk.injEq] at taken
        obtain ⟨rfl, rfl⟩ := taken
        exact flatMap_set_perm found (by simp)
      | emit o next =>
        simp only [code, Prod.mk.injEq] at taken
        obtain ⟨rfl, rfl⟩ := taken
        exact flatMap_set_perm found rfl

theorem sent_perm (run : Run (threads obj program init) ts p) :
    (sent ts).Perm (p.jobs.flatMap Job.emitted) := by
  refine run.invariant_with_history
    (fun ts p => (sent ts).Perm (p.jobs.flatMap Job.emitted)) (by simp [sent, threads])
    fun earlier t ih taken => ?_
  have last : sent (earlier ++ [t]) = sent earlier ++ (t.output.map Prod.snd).toList := by
    unfold sent
    rw [List.filterMap_append]
    cases output : t.output <;> simp [output]
  rw [last]
  exact (ih.append_right _).trans (emitted_step taken)

/-- A list read by its indices. -/
theorem filterMap_range {τ : Type} (l : List τ) :
    (List.range l.length).filterMap (l[·]?) = l := by
  induction l with
  | nil => rfl
  | cons x l ih =>
    rw [List.length_cons, List.range_succ_eq_map, List.filterMap_cons_some List.getElem?_cons_zero,
      List.filterMap_map]
    exact congrArg (x :: ·) ih

/-- Once every job has finished, the jobs in the order of their calls are the steps of
the sequential run. -/
theorem Linearized.finished (lin : Linearized obj program init done p seq)
    (finished : ∀ job ∈ p.jobs, job.code = .done) :
    ∃ ordered : List (Job Op Reply ι ο), ordered.Perm p.jobs ∧
      seq.map Transition.input = ordered.map Job.input ∧
      seq.flatMap Transition.output = ordered.flatMap Job.emitted := by
  have all : done.Perm (List.range p.jobs.length) := by
    refine (List.perm_ext_iff_of_nodup lin.nodup List.nodup_range).mpr fun k => ?_
    rw [List.mem_range]
    refine ⟨lin.started k, fun bound => ?_⟩
    rcases lin.settled k _ (List.getElem?_eq_getElem bound) with ⟨calls, _⟩ | ⟨_, member⟩
    · simp [finished _ (List.getElem_mem bound), Code.isCall] at calls
    · exact member
  have perm := all.filterMap (p.jobs[·]?)
  rw [filterMap_range] at perm
  refine ⟨_, perm, ?_⟩
  have explains := lin.explains
  clear lin all perm
  induction explains with
  | nil => exact ⟨rfl, rfl⟩
  | cons explained _ ih =>
    obtain ⟨job, found, _, input, output⟩ := explained
    have code := finished job (List.mem_of_getElem? found)
    rw [code, Code.rest, List.append_nil] at output
    rw [List.filterMap_cons_some found]
    simp only [List.map_cons, List.flatMap_cons]
    exact ⟨by rw [input, ih.1], by rw [output, ih.2]⟩

/-- The order of the calls agrees with real time: it extends the order at any earlier
time, when every finished job was in it, and no job started later. -/
theorem finished_first (once : ∀ i, (program i).Once)
    {earlier : List (Step Op Reply σ ι ο)} {p₀ : Pool Op Reply σ ι ο}
    (early : Run (threads obj program init) earlier p₀) (inside : earlier <+: ts) :
    ∃ later, order program ts = order program earlier ++ later ∧
      (∀ k ∈ order program earlier, k < p₀.jobs.length) ∧
      ∀ k job, p₀.jobs[k]? = some job → job.code = .done → k ∈ order program earlier := by
  obtain ⟨rest, rfl⟩ := inside
  obtain ⟨_, lin⟩ := linearizable once early
  refine ⟨order program rest, List.filterMap_append, lin.started, fun k job found code => ?_⟩
  rcases lin.settled k job found with ⟨calls, _⟩ | ⟨_, member⟩
  · simp [code, Code.isCall] at calls
  · exact member

end Zaza.Interleaving
