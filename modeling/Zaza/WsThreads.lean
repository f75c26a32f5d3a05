import Zaza.WsClient

/-!
The two thread handles of the client's connection.

Both loops join the thread they are about to replace, and while they are the only ones
to start threads, nothing goes wrong: a thread that has not returned is the one its
handle names, and a handle is free between the `join` and the assignment (`Handles`).
`connect` itself joins nothing. So the one to break it is the REPL, with a login while the
client is connected, or while a reconnection has attempts left: the REPL's `connect` does
not stop the others, and between it and the login they go on as they like. Where the
client is `Quiet` when a login is given, it still is when `connect` has succeeded
(`Proceeds`), and the REPL's assignment finds the handle free.
-/
namespace Zaza.WsThreads
open Zaza WsClient

variable {calm : Prop} {c : WsClient} {id i : Nat} {t t' : WsThread}

/-! ## Threads and their handles -/

def isReader : WsThread → Bool
  | .reader _ => true
  | .reconnecter _ _ => false

/-- The thread is between its look at `read_thread_` and the end of its `connect`. -/
def reconnects : WsThread → Bool
  | .reconnecter stage _ => stage = .resetting ∨ stage = .connecting ∨ stage = .assigning
  | .reader _ => false

/-- The thread is about to assign `reconnect_thread_`. -/
def replaces : WsThread → Bool
  | .reader stage => stage = .assigning
  | .reconnecter _ _ => false

theorem reconnects_running (underWay : reconnects t = true) :
    isReader t = false ∧ t.isFinished = false := by
  cases t with
  | reader stage => simp [reconnects] at underWay
  | reconnecter stage attempt =>
    cases stage <;> simp_all [reconnects, isReader, WsThread.isFinished]

theorem replaces_running (assigns : replaces t = true) :
    isReader t = true ∧ t.isFinished = false := by
  cases t with
  | reader stage =>
    obtain rfl : stage = .assigning := by simpa [replaces] using assigns
    exact ⟨rfl, rfl⟩
  | reconnecter stage attempt => simp [replaces] at assigns

/-- What a handle says about the threads of its kind. -/
structure Names (reader : Bool) (handle : Option Nat) (threads : List WsThread) : Prop where
  kind : ∀ i : Nat, handle = some i → ∃ t : WsThread, threads[i]? = some t ∧ isReader t = reader
  /-- A thread that has not returned is the one the handle names. -/
  running : ∀ (i : Nat) (t : WsThread), threads[i]? = some t → isReader t = reader →
    t.isFinished = false → handle = some i

/-- What the handles say about the threads; `calm` stands for what has to hold of the logins
for a reconnection to find `read_thread_` as it left it. -/
structure Handles (calm : Prop) (c : WsClient) : Prop where
  read : Names true c.readThread c.threads
  reconnect : Names false c.reconnectThread c.threads
  /-- While a reconnection is under way, `read_thread_` is free. -/
  reconnecting : calm → ∀ t ∈ c.threads, reconnects t = true → c.readThread = none
  /-- So is `reconnect_thread_` when it is about to be assigned. -/
  replacing : ∀ t ∈ c.threads, replaces t = true → c.reconnectThread = none

theorem handles_init : Handles calm {} := by
  refine ⟨⟨?_, ?_⟩, ⟨?_, ?_⟩, ?_, ?_⟩ <;> simp

namespace Names

variable {reader : Bool} {handle : Option Nat} {threads : List WsThread}

/-- The threads when one of them has gone on. -/
theorem lookup_set (found : threads[id]? = some t) (t' : WsThread) (i : Nat) :
    (threads.set id t')[i]? = if i = id then some t' else threads[i]? := by
  have inside := (List.getElem?_eq_some_iff.mp found).1
  by_cases same : i = id
  · rw [if_pos same, same, List.getElem?_set_self inside]
  · rw [if_neg same, List.getElem?_set_ne (Ne.symm same)]

/-- The threads when one has been started. -/
theorem lookup_started (threads : List WsThread) (t : WsThread) (i : Nat) :
    (threads ++ [t])[i]? = if i = threads.length then some t else threads[i]? := by
  by_cases same : i = threads.length
  · rw [if_pos same, same, List.getElem?_concat_length]
  · rw [if_neg same]
    by_cases old : i < threads.length
    · exact List.getElem?_append_left old
    · rw [List.getElem?_eq_none (by simp; omega), List.getElem?_eq_none (by omega)]

/-- A thread goes on, and the handle stays. -/
theorem advance (names : Names reader handle threads) (found : threads[id]? = some t)
    (t' : WsThread) (kind : isReader t' = isReader t)
    (started : t'.isFinished = false → t.isFinished = false) :
    Names reader handle (threads.set id t') := by
  have lookup := lookup_set found t'
  constructor
  · intro i named
    obtain ⟨u, held, isKind⟩ := names.kind i named
    rw [lookup]
    split
    · rename_i same
      subst same
      obtain rfl := Option.some.inj (held.symm.trans found)
      exact ⟨t', rfl, kind.trans isKind⟩
    · exact ⟨u, held, isKind⟩
  · intro i u held isKind runs
    rw [lookup] at held
    split at held
    · rename_i same
      obtain rfl := Option.some.inj held
      exact same ▸ names.running id t found (kind.symm.trans isKind) (started runs)
    · exact names.running i u held isKind runs

/-- Its thread has returned and been joined. -/
theorem join (names : Names reader (some i) threads) (found : threads[i]? = some t)
    (finished : t.isFinished = true) : Names reader none threads := by
  refine ⟨by simp, ?_⟩
  intro j u held isKind runs
  obtain rfl := Option.some.inj (names.running j u held isKind runs)
  obtain rfl := Option.some.inj (found.symm.trans held)
  simp [finished] at runs

/-- A thread of its kind is started, with the handle free. -/
theorem start (names : Names reader none threads) (isKind : isReader t = reader) :
    Names reader (some threads.length) (threads ++ [t]) := by
  have lookup := lookup_started threads t
  constructor
  · intro i named
    obtain rfl := Option.some.inj named
    exact ⟨t, by rw [lookup, if_pos rfl], isKind⟩
  · intro i u held isKind runs
    rw [lookup] at held
    split at held
    · rename_i same
      rw [same]
    · have named := names.running i u held isKind runs
      simp at named

/-- A thread of the other kind is started. -/
theorem startOther (names : Names reader handle threads) (other : isReader t ≠ reader) :
    Names reader handle (threads ++ [t]) := by
  have lookup := lookup_started threads t
  constructor
  · intro i named
    obtain ⟨u, held, isKind⟩ := names.kind i named
    have old := (List.getElem?_eq_some_iff.mp held).1
    exact ⟨u, by rw [lookup, if_neg (by omega), held], isKind⟩
  · intro i u held isKind runs
    rw [lookup] at held
    split at held
    · obtain rfl := Option.some.inj held
      exact absurd isKind other
    · exact names.running i u held isKind runs

/-- There is one running thread of a kind at most. -/
theorem only (names : Names reader handle threads) {u : WsThread}
    (found : threads[id]? = some t) (held : threads[i]? = some u) (kind : isReader t = reader)
    (kind' : isReader u = reader) (runs : t.isFinished = false) (runs' : u.isFinished = false) :
    i = id :=
  Option.some.inj
    ((names.running i u held kind' runs').symm.trans (names.running id t found kind runs))

/-- When the running thread of a kind is done with what running threads of its kind do, no
thread does it. -/
theorem alone (names : Names reader handle threads) (found : threads[id]? = some t)
    (kind : isReader t = reader) (runs : t.isFinished = false) (t' : WsThread)
    (busy : WsThread → Bool)
    (running : ∀ u, busy u = true → isReader u = reader ∧ u.isFinished = false)
    (done : busy t' = false) : ∀ u ∈ threads.set id t', busy u = false := by
  intro u member
  obtain ⟨i, held⟩ := List.mem_iff_getElem?.mp member
  rw [lookup_set found] at held
  split at held
  · obtain rfl := Option.some.inj held
    exact done
  · rename_i differs
    by_contra isBusy
    obtain ⟨kind', runs'⟩ := running u (by simpa using isBusy)
    exact differs (names.only found held kind kind' runs runs')

/-- A handle does not name a thread of the other kind. -/
theorem ne (names : Names reader handle threads) (found : threads[id]? = some t)
    (other : isReader t ≠ reader) : handle ≠ some id := by
  intro named
  obtain ⟨u, held, isKind⟩ := names.kind id named
  obtain rfl := Option.some.inj (held.symm.trans found)
  exact other isKind

end Names

namespace Handles

/-- A thread goes on, and the handles stay. -/
theorem advance (handles : Handles calm c) (found : c.threads[id]? = some t) (t' : WsThread)
    (kind : isReader t' = isReader t) (started : t'.isFinished = false → t.isFinished = false)
    (read : calm → reconnects t' = true → c.readThread = none)
    (reconnect : replaces t' = true → c.reconnectThread = none) :
    Handles calm (c.setThread id t') := by
  refine ⟨handles.read.advance found t' kind started,
    handles.reconnect.advance found t' kind started, ?_, ?_⟩
  · intro isCalm u member isUnderWay
    rcases List.mem_or_eq_of_mem_set member with old | rfl
    · exact handles.reconnecting isCalm u old isUnderWay
    · exact read isCalm isUnderWay
  · intro u member isReplacing
    rcases List.mem_or_eq_of_mem_set member with old | rfl
    · exact handles.replacing u old isReplacing
    · exact reconnect isReplacing

theorem finished_thread (finished : c.hasFinished i = true) :
    ∃ t, c.threads[i]? = some t ∧ t.isFinished = true := by
  unfold hasFinished at finished
  split at finished
  · exact ⟨_, by assumption, finished⟩
  · simp at finished

/-- The read thread has been joined. -/
theorem joinRead (handles : Handles calm c) (named : c.readThread = some i)
    (finished : c.hasFinished i = true) : Handles calm { c with readThread := none } := by
  obtain ⟨t, found, returned⟩ := finished_thread finished
  have read := handles.read
  rw [named] at read
  exact ⟨read.join found returned, handles.reconnect, fun _ _ _ _ => rfl, handles.replacing⟩

/-- The reconnection thread has been joined. -/
theorem joinReconnect (handles : Handles calm c) (named : c.reconnectThread = some i)
    (finished : c.hasFinished i = true) : Handles calm { c with reconnectThread := none } := by
  obtain ⟨t, found, returned⟩ := finished_thread finished
  have reconnect := handles.reconnect
  rw [named] at reconnect
  exact ⟨handles.read, reconnect.join found returned, handles.reconnecting, fun _ _ _ => rfl⟩

/-- A read thread is started, with its handle free and no reconnection under way. -/
theorem startReader (handles : Handles calm c) (free : c.readThread = none)
    (quiet : calm → ∀ t ∈ c.threads, reconnects t = false) :
    Handles calm { c with
      readThread := some c.threads.length, threads := c.threads ++ [.reader .top] } := by
  have read := handles.read
  rw [free] at read
  refine ⟨read.start rfl, handles.reconnect.startOther (by simp [isReader]), ?_, ?_⟩
  · intro isCalm u member isUnderWay
    rcases List.mem_append.mp member with old | new
    · simp [quiet isCalm u old] at isUnderWay
    · obtain rfl := List.mem_singleton.mp new
      simp [reconnects] at isUnderWay
  · intro u member isReplacing
    rcases List.mem_append.mp member with old | new
    · exact handles.replacing u old isReplacing
    · obtain rfl := List.mem_singleton.mp new
      simp [replaces] at isReplacing

/-- A reconnection is started, with its handle free and no other thread about to do so. -/
theorem startReconnecter (handles : Handles calm c) (free : c.reconnectThread = none)
    (quiet : ∀ t ∈ c.threads, replaces t = false) :
    Handles calm { c with
      reconnectThread := some c.threads.length
      threads := c.threads ++ [.reconnecter .waiting 1] } := by
  have reconnect := handles.reconnect
  rw [free] at reconnect
  refine ⟨handles.read.startOther (by simp [isReader]), reconnect.start rfl, ?_, ?_⟩
  · intro isCalm u member isUnderWay
    rcases List.mem_append.mp member with old | new
    · exact handles.reconnecting isCalm u old isUnderWay
    · obtain rfl := List.mem_singleton.mp new
      simp [reconnects] at isUnderWay
  · intro u member isReplacing
    rcases List.mem_append.mp member with old | new
    · simp [quiet u old] at isReplacing
    · obtain rfl := List.mem_singleton.mp new
      simp [replaces] at isReplacing

/-- A read thread goes on. -/
theorem advanceReader {stage : ReadStage} (handles : Handles calm c)
    (found : c.threads[id]? = some (.reader stage)) (next : ReadStage) (runs : stage ≠ .finished)
    (free : next = .assigning → c.reconnectThread = none) :
    Handles calm (c.setThread id (.reader next)) := by
  apply handles.advance found
  · rfl
  · simp [WsThread.isFinished, runs]
  · simp [reconnects]
  · simpa [replaces] using free

/-- A reconnection goes on. -/
theorem advanceReconnecter {stage : ReconnectStage} {attempt : Nat} (handles : Handles calm c)
    (found : c.threads[id]? = some (.reconnecter stage attempt)) (next : ReconnectStage)
    (attempt' : Nat) (runs : stage ≠ .finished)
    (free : calm → reconnects (.reconnecter next attempt') = true → c.readThread = none) :
    Handles calm (c.setThread id (.reconnecter next attempt')) := by
  apply handles.advance found
  · rfl
  · simp [WsThread.isFinished, runs]
  · exact free
  · simp [replaces]

/-- The other fields do not matter. -/
theorem rest (handles : Handles calm c) (stop ws : Bool) (repl : ReplStage) (main : MainStage) :
    Handles calm { c with stop, ws, repl, main } :=
  ⟨handles.read, handles.reconnect, handles.reconnecting, handles.replacing⟩

/-- Less is asked of the handles when more is asked of the logins. -/
theorem weaken {calmer : Prop} (handles : Handles calm c) (less : calmer → calm) :
    Handles calmer c :=
  ⟨handles.read, handles.reconnect, fun isCalmer => handles.reconnecting (less isCalmer),
    handles.replacing⟩

end Handles

/-! ## Steps -/

/-- What a step may come to: a state in order, a `join` that comes too late, or, if the
REPL has `spoiled` it, a handle overwritten. -/
def Sound (calm spoiled : Prop) : Except ThreadFault WsClient → Prop
  | .ok c => Handles calm c
  | .error e => e = .notJoinable ∨ (e = .overwritten ∧ spoiled)

/-- If the REPL is about to assign `read_thread_`, it is free, and no reconnection is past its
own look at it. -/
def Clear (c : WsClient) : Prop :=
  c.repl = .assigning → c.readThread = none ∧ ∀ t ∈ c.threads, reconnects t = false

/-- A `join` by a thread its handle does not name. -/
theorem tryJoin_cases (c : WsClient) (handle joiner : Option Nat)
    (other : ∀ i, handle = some i → joiner ≠ some i) :
    (handle = none ∧ c.tryJoin handle joiner = .error .notJoinable) ∨
      ∃ i, handle = some i ∧ c.tryJoin handle joiner = .ok (c.hasFinished i) := by
  cases handle with
  | none => exact .inl ⟨rfl, rfl⟩
  | some i => exact .inr ⟨i, rfl, if_neg (other i rfl)⟩

theorem readStep_sound {stage : ReadStage} (handles : Handles calm c)
    (found : c.threads[id]? = some (.reader stage)) (net : NetResult) :
    Sound calm False (c.readStep id net stage) := by
  have other := handles.reconnect.ne found (by simp [isReader])
  cases stage with
  | top =>
    simp only [readStep]
    split
    · exact handles.advanceReader found .finished (by simp) (by simp)
    · exact handles.advanceReader found .reading (by simp) (by simp)
  | reading =>
    simp only [readStep]
    split
    · exact handles.advanceReader found .failed (by simp) (by simp)
    · exact handles.advanceReader found .top (by simp) (by simp)
  | failed =>
    simp only [readStep]
    split
    · exact handles.advanceReader found .finished (by simp) (by simp)
    · exact handles.advanceReader found .closed (by simp) (by simp)
  | closed =>
    simp only [readStep]
    split
    · exact handles.advanceReader found .joining (by simp) (by simp)
    · rename_i free
      have none : c.reconnectThread = none := by simpa [other] using free
      exact handles.advanceReader found .assigning (by simp) fun _ => none
  | joining =>
    simp only [readStep]
    rcases tryJoin_cases c c.reconnectThread (some id)
      (fun i named same => other (same ▸ named)) with ⟨-, result⟩ | ⟨i, named, result⟩
    · rw [result]
      exact .inl rfl
    · rw [result]
      cases finished : c.hasFinished i with
      | false => exact handles
      | true =>
        have joined := handles.joinReconnect named finished
        exact joined.advanceReader found .assigning (by simp) fun _ => rfl
  | assigning =>
    have free := handles.replacing _ (List.mem_of_getElem? found) (by simp [replaces])
    have advanced := handles.advanceReader found .finished (by simp) (by simp)
    have quiet := handles.read.alone found rfl rfl (.reader .finished) replaces
      (fun _ => replaces_running) (by simp [replaces])
    have started := advanced.startReconnecter free quiet
    simp only [readStep, assignReconnect]
    have free' : (c.setThread id (.reader .finished)).reconnectThread = none := free
    rw [free']
    exact started
  | finished => exact handles

theorem reconnectStep_sound {stage : ReconnectStage} {attempt : Nat} (handles : Handles calm c)
    (found : c.threads[id]? = some (.reconnecter stage attempt)) (net : NetResult) :
    Sound calm (¬ calm) (c.reconnectStep id net attempt stage) := by
  have other := handles.read.ne found (by simp [isReader])
  cases stage with
  | waiting =>
    simp only [reconnectStep]
    split
    · exact handles.advanceReconnecter found .finished attempt (by simp) (by simp [reconnects])
    · exact handles.advanceReconnecter found .checking attempt (by simp) (by simp [reconnects])
  | checking =>
    simp only [reconnectStep]
    split
    · exact handles.advanceReconnecter found .joining attempt (by simp) (by simp [reconnects])
    · rename_i free
      have none : c.readThread = none := by simpa using free
      exact handles.advanceReconnecter found .resetting attempt (by simp) fun _ _ => none
  | joining =>
    simp only [reconnectStep]
    rcases tryJoin_cases c c.readThread (some id)
      (fun i named same => other (same ▸ named)) with ⟨-, result⟩ | ⟨i, named, result⟩
    · rw [result]
      exact .inl rfl
    · rw [result]
      cases finished : c.hasFinished i with
      | false => exact handles
      | true =>
        have joined := handles.joinRead named finished
        exact joined.advanceReconnecter found .resetting attempt (by simp) fun _ _ => rfl
  | resetting =>
    have free (isCalm : calm) := handles.reconnecting isCalm _ (List.mem_of_getElem? found)
      (by simp [reconnects])
    have advanced := handles.advanceReconnecter found .connecting attempt (by simp)
      fun isCalm _ => free isCalm
    exact advanced.rest c.stop false c.repl c.main
  | connecting =>
    have free (isCalm : calm) := handles.reconnecting isCalm _ (List.mem_of_getElem? found)
      (by simp [reconnects])
    simp only [reconnectStep]
    cases net.handshake with
    | fails wsSet =>
      have advanced := handles.advanceReconnecter found .waiting (attempt + 1) (by simp)
        fun isCalm _ => free isCalm
      exact advanced.rest c.stop (c.ws || wsSet) c.repl c.main
    | succeeds =>
      have advanced := handles.advanceReconnecter found .assigning attempt (by simp)
        fun isCalm _ => free isCalm
      exact advanced.rest c.stop true c.repl c.main
  | assigning =>
    have free (isCalm : calm) := handles.reconnecting isCalm _ (List.mem_of_getElem? found)
      (by simp [reconnects])
    have advanced := handles.advanceReconnecter found .finished attempt (by simp)
      (by simp [reconnects])
    have quiet := handles.reconnect.alone found rfl rfl (.reconnecter .finished attempt) reconnects
      (fun _ => reconnects_running) (by simp [reconnects])
    have kept : (c.setThread id (.reconnecter .finished attempt)).readThread = c.readThread := rfl
    simp only [reconnectStep, assignRead, kept]
    cases named : c.readThread with
    | some i =>
      -- The REPL has connected since this thread looked at the handle.
      refine .inr ⟨rfl, fun isCalm => ?_⟩
      simp [free isCalm] at named
    | none => exact advanced.startReader named fun _ => quiet
  | finished => exact handles

/-- The REPL's own `connect`, which joins nothing. -/
theorem replStep_sound (handles : Handles calm c) (net : NetResult) (next : calm → Clear c) :
    Sound calm (¬ calm) (c.replStep net) := by
  unfold replStep
  cases stage : c.repl with
  | idle => exact handles
  | connecting =>
    dsimp only
    cases net.handshake with
    | fails wsSet => exact handles.rest c.stop (c.ws || wsSet) .idle c.main
    | succeeds => exact handles.rest c.stop true .assigning c.main
  | assigning =>
    simp only [assignRead]
    cases named : c.readThread with
    | some i =>
      refine .inr ⟨rfl, fun isCalm => ?_⟩
      simp [(next isCalm stage).1] at named
    | none =>
      have started := handles.startReader named fun isCalm => (next isCalm stage).2
      exact started.rest c.stop c.ws .idle c.main

theorem mainStep_sound (handles : Handles calm c) : Sound calm False c.mainStep := by
  unfold mainStep
  cases c.main with
  | running =>
    dsimp only
    split
    · exact handles.rest true c.ws c.repl .checkingRead
    · exact handles
  | checkingRead => exact handles.rest c.stop c.ws c.repl _
  | joiningRead =>
    dsimp only
    rcases tryJoin_cases c c.readThread none (by simp) with ⟨-, result⟩ | ⟨i, named, result⟩
    · rw [result]
      exact .inl rfl
    · rw [result]
      cases finished : c.hasFinished i with
      | false => exact handles
      | true => exact (handles.joinRead named finished).rest c.stop c.ws c.repl .resetting
  | resetting => exact handles.rest c.stop false c.repl .checkingReconnect
  | checkingReconnect => exact handles.rest c.stop c.ws c.repl _
  | joiningReconnect =>
    dsimp only
    rcases tryJoin_cases c c.reconnectThread none (by simp) with ⟨-, result⟩ | ⟨i, named, result⟩
    · rw [result]
      exact .inl rfl
    · rw [result]
      cases finished : c.hasFinished i with
      | false => exact handles
      | true => exact (handles.joinReconnect named finished).rest c.stop c.ws c.repl .disconnected
  | disconnected => exact handles

/-- What is sound for every run is sound for the others. -/
theorem Sound.spoil {spoiled : Prop} {result : Except ThreadFault WsClient}
    (sound : Sound calm False result) : Sound calm spoiled result := by
  cases result with
  | ok c => exact sound
  | error e => exact sound.imp_right fun overwritten => overwritten.2.elim

/-- One step of any thread. -/
theorem step_sound (handles : Handles calm c) (input : WsInput) (next : calm → Clear c) :
    Sound calm (¬ calm) (c.step input) := by
  cases input with
  | login =>
    simp only [step]
    split
    · exact handles.rest c.stop c.ws .connecting c.main
    · exact handles
  | repl net => exact replStep_sound handles net next
  | thread id net =>
    simp only [step]
    split
    · exact handles
    · exact (readStep_sound handles (by assumption) net).spoil
    · exact reconnectStep_sound handles (by assumption) net
  | main => exact (mainStep_sound handles).spoil

/-! ## Logins -/

/-- The thread can come to `connect` while `read_thread_` is free: it is a reconnection with
attempts left, and not in `join`. -/
def mayConnect : WsThread → Bool
  | .reader _ => false
  | .reconnecter .waiting attempt => attempt ≤ kMaxRetries
  | .reconnecter .joining _ => false
  | .reconnecter .finished _ => false
  | .reconnecter _ _ => true

/-- `read_thread_` is free, and no thread of the client will connect. -/
def Quiet (c : WsClient) : Prop := c.readThread = none ∧ ∀ t ∈ c.threads, mayConnect t = false

instance (c : WsClient) : Decidable (Quiet c) :=
  inferInstanceAs (Decidable (c.readThread = none ∧ ∀ t ∈ c.threads, mayConnect t = false))

abbrev WsStep := Transition WsClient WsInput Unit

/-- A login command is carried out. -/
def logsIn (t : WsStep) : Bool :=
  match t.input with
  | .login => t.before.repl = .idle ∧ t.before.main = .running
  | _ => false

/-- The `connect` of the REPL succeeds. -/
def connects (t : WsStep) : Bool :=
  match t.input with
  | .repl net => t.before.repl = .connecting ∧ net.handshake = .succeeds
  | _ => false

/-- The last login has found the client quiet. -/
def LoggedInQuietly (earlier : List WsStep) : Prop :=
  Since (fun t => logsIn t = true ∧ Quiet t.before) (fun t => logsIn t = true) earlier

/-- Every login whose `connect` succeeds has been given while the client was quiet. -/
def CalmRun (ts : List WsStep) : Prop :=
  EachAfter (fun earlier t => connects t = true → LoggedInQuietly earlier) ts

theorem mayConnect_of_reconnects (underWay : reconnects t = true) : mayConnect t = true := by
  cases t with
  | reader => simp [reconnects] at underWay
  | reconnecter stage attempt =>
    cases stage with
    | waiting | checking | joining | finished => simp [reconnects] at underWay
    | resetting | connecting | assigning => rfl

theorem Quiet.clear (quiet : Quiet c) : Clear c := by
  refine fun _ => ⟨quiet.1, fun t member => ?_⟩
  by_contra underWay
  have connects := mayConnect_of_reconnects (by simpa using underWay)
  simp [quiet.2 t member] at connects

/-- A thread of the client leaves the REPL and `main` where they are. -/
theorem thread_rest {c' : WsClient} {net : NetResult} (taken : c.step (.thread id net) = .ok c') :
    c'.repl = c.repl ∧ c'.main = c.main ∧ c'.stop = c.stop := by
  simp only [step] at taken
  split at taken
  · obtain rfl := Except.ok.inj taken
    exact ⟨rfl, rfl, rfl⟩
  · rename_i stage found
    cases stage <;> grind [readStep, setThread, assignReconnect]
  · rename_i stage attempt found
    cases stage <;> grind [reconnectStep, setThread, assignRead, afterHandshake]

/-- In a quiet client all that still happens is that a reconnection gives up. -/
theorem Quiet.thread {c' : WsClient} {net : NetResult} (quiet : Quiet c)
    (handles : Handles calm c) (taken : c.step (.thread id net) = .ok c') : Quiet c' := by
  simp only [step] at taken
  split at taken
  · obtain rfl := Except.ok.inj taken
    exact quiet
  · rename_i stage found
    by_cases runs : stage = .finished
    · subst runs
      obtain rfl := Except.ok.inj taken
      exact quiet
    · have named := handles.read.running id _ found rfl (by simpa [WsThread.isFinished] using runs)
      simp [quiet.1] at named
  · rename_i stage attempt found
    have waits := quiet.2 _ (List.mem_of_getElem? found)
    cases stage with
    | checking | resetting | connecting | assigning => simp [mayConnect] at waits
    | joining => simp [reconnectStep, tryJoin, quiet.1] at taken
    | finished =>
      obtain rfl := Except.ok.inj taken
      exact quiet
    | waiting =>
      have exhausted : attempt > kMaxRetries := by simpa [mayConnect] using waits
      simp only [reconnectStep, exhausted, decide_true, Bool.or_true, ↓reduceIte] at taken
      obtain rfl := Except.ok.inj taken
      refine ⟨quiet.1, fun u member => ?_⟩
      rcases List.mem_or_eq_of_mem_set member with old | rfl
      · exact quiet.2 u old
      · rfl

theorem Quiet.main {c' : WsClient} (quiet : Quiet c) (taken : c.step .main = .ok c') :
    Quiet c' := by
  have kept : c'.readThread = none ∧ c'.threads = c.threads := by
    have free := quiet.1
    simp only [step, mainStep] at taken
    cases stage : c.main <;> simp only [stage] at taken <;> grind [tryJoin]
  exact ⟨kept.1, by rw [kept.2]; exact quiet.2⟩

theorem main_rest {c' : WsClient} (taken : c.step .main = .ok c') :
    c'.repl = c.repl ∧ (c'.main = .running → c.main = .running ∧ c'.stop = c.stop) := by
  simp only [step, mainStep] at taken
  cases stage : c.main <;> simp only [stage] at taken <;> grind

/-- What a step does to the stages of the REPL and to the quiet. -/
structure Proceeds (t : WsStep) : Prop where
  /-- Only a login brings the REPL to `connect`, and it changes nothing else. -/
  connecting : t.after.repl = .connecting →
    (logsIn t = true ∧ (Quiet t.before → Quiet t.after)) ∨
      logsIn t = false ∧ t.before.repl = .connecting ∧ (Quiet t.before → Quiet t.after)
  /-- Only a `connect` that succeeds brings it to the assignment. -/
  assigning : t.after.repl = .assigning →
    (connects t = true ∧ t.before.repl = .connecting ∧ (Quiet t.before → Quiet t.after)) ∨
      t.before.repl = .assigning ∧ (Quiet t.before → Quiet t.after)
  running : t.after.main = .running → t.before.main = .running ∧ t.after.stop = t.before.stop

/-- A step during which the REPL stays where it is. -/
theorem Proceeds.stays {t : WsStep} (same : t.after.repl = t.before.repl)
    (login : logsIn t = false) (quiet : Quiet t.before → Quiet t.after)
    (running : t.after.main = .running → t.before.main = .running ∧ t.after.stop = t.before.stop) :
    Proceeds t :=
  ⟨fun stage => .inr ⟨login, same ▸ stage, quiet⟩, fun stage => .inr ⟨same ▸ stage, quiet⟩, running⟩

theorem step_of_takes {t : WsStep} (taken : wsClientMachine.Takes t) :
    t.before.step t.input = .ok t.after := by
  cases result : t.before.step t.input with
  | error e => simp [Machine.Takes, wsClientMachine, result, Except.map] at taken
  | ok next => simpa [Machine.Takes, wsClientMachine, result, Except.map] using taken

theorem proceeds {t : WsStep} (handles : Handles calm t.before)
    (taken : t.before.step t.input = .ok t.after) : Proceeds t := by
  obtain ⟨c, input, c', _⟩ := t
  change c.step input = .ok c' at taken
  cases input with
  | login =>
    by_cases carried : c.repl = .idle ∧ c.main = .running
    · obtain rfl := Except.ok.inj ((congrArg Except.ok (if_pos carried).symm).trans taken)
      have login : logsIn ⟨c, .login, { c with repl := .connecting }, ()⟩ = true := by
        simp [logsIn, carried]
      exact ⟨fun _ => .inl ⟨login, id⟩, nofun, fun running => ⟨running, rfl⟩⟩
    · obtain rfl := Except.ok.inj ((congrArg Except.ok (if_neg carried).symm).trans taken)
      exact .stays rfl (by simpa [logsIn] using carried) id fun running => ⟨running, rfl⟩
  | repl net =>
    simp only [step, replStep] at taken
    cases stage : c.repl with
    | idle =>
      simp only [stage] at taken
      obtain rfl := Except.ok.inj taken
      exact .stays rfl rfl id fun running => ⟨running, rfl⟩
    | connecting =>
      simp only [stage] at taken
      obtain rfl := Except.ok.inj taken
      cases handshake : net.handshake with
      | fails wsSet => exact ⟨nofun, nofun, fun running => ⟨running, rfl⟩⟩
      | succeeds =>
        refine ⟨nofun, fun _ => .inl ⟨?_, stage, id⟩, fun running => ⟨running, rfl⟩⟩
        simp [connects, stage, handshake]
    | assigning =>
      simp only [stage, assignRead] at taken
      split at taken
      · cases taken
      · obtain rfl := Except.ok.inj taken
        exact ⟨nofun, nofun, fun running => ⟨running, rfl⟩⟩
  | thread id net =>
    obtain ⟨repl, main, stop⟩ := thread_rest taken
    exact .stays repl rfl (fun quiet => quiet.thread handles taken) fun running =>
      ⟨main ▸ running, stop⟩
  | main =>
    obtain ⟨repl, running⟩ := main_rest taken
    exact .stays repl rfl (fun quiet => quiet.main taken) running

/-! ## Runs -/

/-- How far a login has come, and what it has found. -/
structure Logins (ts : List WsStep) (c : WsClient) : Prop where
  handles : Handles (CalmRun ts) c
  connecting : c.repl = .connecting → LoggedInQuietly ts → Quiet c
  assigning : CalmRun ts → c.repl = .assigning → Quiet c
  running : c.main = .running → c.stop = false

theorem logins_of_run {ts : List WsStep} (run : Run wsClientMachine ts c) : Logins ts c := by
  refine run.invariant_with_history Logins
    ⟨handles_init, fun stage => (by cases stage), fun _ stage => (by cases stage), fun _ => rfl⟩
    fun earlier t before taken => ?_
  have taken := step_of_takes taken
  have moved := proceeds before.handles taken
  have calmer (calm : CalmRun (earlier ++ [t])) : CalmRun earlier :=
    EachAfter.earlier calm (List.prefix_append _ _)
  refine ⟨?_, fun stage quietly => ?_, fun calm stage => ?_, fun running => ?_⟩
  · have sound := step_sound (before.handles.weaken calmer) t.input fun calm stage =>
      (before.assigning (calmer calm) stage).clear stage
    simpa [Sound, taken] using sound
  · -- The login has found the client quiet, and it has stayed so.
    rcases moved.connecting stage with ⟨login, kept⟩ | ⟨other, before', kept⟩
    · rcases since_concat.mp quietly with ⟨_, quiet⟩ | ⟨_, ends⟩
      · exact kept quiet
      · exact absurd login ends
    · rcases since_concat.mp quietly with ⟨login, _⟩ | ⟨since, _⟩
      · simp [other] at login
      · exact kept (before.connecting before' since)
  · rcases moved.assigning stage with ⟨succeeds, before', kept⟩ | ⟨before', kept⟩
    · exact kept (before.connecting before' (EachAfter.last calm succeeds))
    · exact kept (before.assigning (calmer calm) before')
  · obtain ⟨running, same⟩ := moved.running running
    rw [same]
    exact before.running running

/-- Some way to go on from here overwrites a handle. -/
def MayOverwrite (c : WsClient) : Prop := ∃ more, wsClientMachine.exec c more = .error .overwritten

theorem MayOverwrite.now (input : WsInput) (fails : c.step input = .error .overwritten) :
    MayOverwrite c :=
  ⟨[input], by simp [Machine.exec, wsClientMachine, fails, Except.map]⟩

theorem MayOverwrite.later {c' : WsClient} (input : WsInput) (taken : c.step input = .ok c')
    (later : MayOverwrite c') : MayOverwrite c := by
  obtain ⟨more, fails⟩ := later
  refine ⟨input :: more, ?_⟩
  have first : wsClientMachine.step c input = .ok (c', ()) := by
    simp [wsClientMachine, taken, Except.map]
  simp [Machine.exec, first, fails, Except.map]

theorem overwrites_assigning {attempt : Nat}
    (found : c.threads[id]? = some (.reconnecter .assigning attempt))
    (named : c.readThread = some i) : MayOverwrite c :=
  .now (.thread id ⟨false, .succeeds⟩)
    (by simp [step, found, reconnectStep, assignRead, setThread, named])

theorem overwrites_connecting {attempt : Nat}
    (found : c.threads[id]? = some (.reconnecter .connecting attempt))
    (named : c.readThread = some i) : MayOverwrite c := by
  have taken : c.step (.thread id ⟨false, .succeeds⟩) =
      .ok ((c.setThread id (.reconnecter .assigning attempt)).afterHandshake .succeeds) := by
    simp only [step, found, reconnectStep]
  have moved := (Names.lookup_set found (.reconnecter .assigning attempt) id).trans (if_pos rfl)
  exact .later _ taken (overwrites_assigning moved named)

/-- A reconnection under way that finds `read_thread_` joinable overwrites it, if its
`connect` succeeds. -/
theorem overwrites_of_reconnects (found : c.threads[id]? = some t)
    (underWay : reconnects t = true) (named : c.readThread = some i) : MayOverwrite c := by
  cases t with
  | reader => simp [reconnects] at underWay
  | reconnecter stage attempt =>
    cases stage with
    | waiting | checking | joining | finished => simp [reconnects] at underWay
    | assigning => exact overwrites_assigning found named
    | connecting => exact overwrites_connecting found named
    | resetting =>
      have taken : c.step (.thread id ⟨false, .succeeds⟩) =
          .ok { c.setThread id (.reconnecter .connecting attempt) with ws := false } := by
        simp only [step, found, reconnectStep]
      have moved := (Names.lookup_set found (.reconnecter .connecting attempt) id).trans
        (if_pos rfl)
      exact .later _ taken (overwrites_connecting moved named)

/-- A login whose `connect` succeeds, with nothing else happening until its assignment. -/
theorem MayOverwrite.of_login (idle : c.repl = .idle) (running : c.main = .running)
    (later : c.readThread = none → MayOverwrite { c with
      ws := true, readThread := some c.threads.length, threads := c.threads ++ [.reader .top] }) :
    MayOverwrite c := by
  have login : c.step .login = .ok { c with repl := .connecting } :=
    congrArg Except.ok (if_pos ⟨idle, running⟩)
  have connected : WsClient.step { c with repl := .connecting } (.repl ⟨false, .succeeds⟩) =
      .ok { c with repl := .assigning, ws := true } := rfl
  refine .later .login login (.later _ connected ?_)
  rcases Option.eq_none_or_eq_some c.readThread with named | ⟨i, named⟩
  · have assigned : WsClient.step { c with repl := .assigning, ws := true }
        (.repl ⟨false, .succeeds⟩) = .ok { c with
          ws := true, readThread := some c.threads.length,
          threads := c.threads ++ [.reader .top] } := by
      simp [step, replStep, assignRead, named, idle]
    exact .later _ assigned (later named)
  · exact .now (.repl ⟨false, .succeeds⟩) (by simp [step, replStep, assignRead, named])

/-- A login while a reconnection is past its look at `read_thread_`. -/
theorem overwrites_login (idle : c.repl = .idle) (running : c.main = .running)
    (found : c.threads[id]? = some t) (underWay : reconnects t = true) : MayOverwrite c := by
  refine .of_login idle running fun _ => ?_
  have old := (List.getElem?_eq_some_iff.mp found).1
  refine @overwrites_of_reconnects _ id c.threads.length t ?_ underWay rfl
  rw [Names.lookup_started, if_neg (by omega), found]

/-- A login before such a look, which finds the handle free. -/
theorem overwrites_login_checking {attempt : Nat} (idle : c.repl = .idle)
    (running : c.main = .running) (free : c.readThread = none)
    (found : c.threads[id]? = some (.reconnecter .checking attempt)) : MayOverwrite c := by
  have taken : c.step (.thread id ⟨false, .succeeds⟩) =
      .ok (c.setThread id (.reconnecter .resetting attempt)) := by
    simp [step, found, reconnectStep, free]
  have moved := (Names.lookup_set found (.reconnecter .resetting attempt) id).trans (if_pos rfl)
  exact .later _ taken (overwrites_login idle running moved (by simp [reconnects]))

/-- **Every other login may end the client**: where it is not quiet, a login whose `connect`
succeeds overwrites the handle, or a reconnection does. -/
theorem overwrites_of_not_quiet (idle : c.repl = .idle) (running : c.main = .running)
    (stop : c.stop = false) (noisy : ¬ Quiet c) : MayOverwrite c := by
  cases free : c.readThread with
  | some i => exact .of_login idle running fun none => by simp [free] at none
  | none =>
    obtain ⟨t, member, connects⟩ : ∃ t ∈ c.threads, mayConnect t = true := by
      simpa [Quiet, free] using noisy
    obtain ⟨id, found⟩ := List.mem_iff_getElem?.mp member
    cases t with
    | reader => simp [mayConnect] at connects
    | reconnecter stage attempt =>
      cases stage with
      | joining | finished => simp [mayConnect] at connects
      | resetting | connecting | assigning =>
        exact overwrites_login idle running found (by simp [reconnects])
      | checking => exact overwrites_login_checking idle running free found
      | waiting =>
        have left : ¬ attempt > kMaxRetries := by simpa [mayConnect] using connects
        have taken : c.step (.thread id ⟨false, .succeeds⟩) =
            .ok (c.setThread id (.reconnecter .checking attempt)) := by
          simp [step, found, reconnectStep, stop, left]
        have moved := (Names.lookup_set found (.reconnecter .checking attempt) id).trans
          (if_pos rfl)
        exact .later _ taken (overwrites_login_checking idle running free moved)

/-- **The client's thread handles.** No thread joins itself and no read thread overwrites
`reconnect_thread_`, in any order of steps. Nothing overwrites `read_thread_` as long as every
login whose `connect` succeeds is given while `read_thread_` is free and no reconnection has
attempts left; and wherever a login can be given while that is not so, there is a way to go
on in which a handle is overwritten. -/
theorem handles_overwritten_only_by_login {ts : List WsStep} (run : Run wsClientMachine ts c)
    (input : WsInput) :
    c.step input ≠ .error .selfJoin ∧
    (∀ id net stage, c.threads[id]? = some (.reader stage) →
      c.step (.thread id net) ≠ .error .overwritten) ∧
    (CalmRun ts → c.step input ≠ .error .overwritten) ∧
    (c.repl = .idle → c.main = .running → ¬ Quiet c → MayOverwrite c) := by
  have logins := logins_of_run run
  have sound := step_sound logins.handles input fun calm stage =>
    (logins.assigning calm stage).clear stage
  refine ⟨fun fails => ?_, fun id net stage found fails => ?_, fun calm fails => ?_,
    fun idle running => overwrites_of_not_quiet idle running (logins.running running)⟩
  · simp [fails, Sound] at sound
  · have sound := readStep_sound logins.handles found net
    simp only [step, found] at fails
    simp [fails, Sound] at sound
  · rw [fails] at sound
    rcases sound with late | ⟨-, spoiled⟩
    · cases late
    · exact spoiled calm

/-- A login, a read error and a reconnection, up to the start of the new read thread. -/
def reconnection : List WsInput :=
  let net : NetResult := ⟨true, .succeeds⟩
  .login :: .repl net :: .repl net :: List.replicate 5 (.thread 0 net) ++
    List.replicate 5 (.thread 1 net)

/-- A run that begins with a login, and in which no later one succeeds. -/
theorem calmRun_of_first {ts : List WsStep}
    (first : ∀ t ∈ ts.head?, logsIn t = true ∧ Quiet t.before)
    (others : ∀ t ∈ ts.drop 2, connects t = false) : CalmRun ts := by
  rintro before t after rfl succeeds
  cases before with
  | nil =>
    obtain ⟨login, _⟩ := first t rfl
    unfold logsIn at login
    unfold connects at succeeds
    split at login
    · rename_i asked
      simp [asked] at succeeds
    · cases login
  | cons login before =>
    cases before with
    | nil => exact ⟨[], login, [], rfl, first login rfl, by simp⟩
    | cons connect before =>
      have fails := others t (by simp)
      simp [fails] at succeeds

theorem handles_overwritten_only_by_login_reconnection : ∃ ts c,
    Run wsClientMachine ts c ∧ CalmRun ts ∧
    c.threads = [.reader .finished, .reconnecter .assigning 1] ∧
    c.step (.thread 1 ⟨true, .succeeds⟩) ≠ .error .overwritten := by
  obtain ⟨ts, c, run, passed⟩ := Run.of_exec wsClientMachine reconnection
    (fun ts c => (∀ t ∈ ts.head?, logsIn t = true ∧ Quiet t.before) ∧
      (∀ t ∈ ts.drop 2, connects t = false) ∧
      c.threads = [.reader .finished, .reconnecter .assigning 1]) (by decide +kernel)
  obtain ⟨first, others, threads⟩ := of_decide_eq_true passed
  have calm := calmRun_of_first first others
  have safe := handles_overwritten_only_by_login run (.thread 1 ⟨true, .succeeds⟩)
  exact ⟨ts, c, run, calm, threads, safe.2.2.1 calm⟩

/-- Logging in again while connected. -/
theorem second_login_overwrites : ¬ ∀ ts c input, Run wsClientMachine ts c →
    c.step input ≠ .error .overwritten ∧ c.step input ≠ .error .selfJoin := by
  intro safe
  obtain ⟨ts, c, run, passed⟩ := Run.of_exec wsClientMachine
    [.login, .repl ⟨false, .succeeds⟩, .repl ⟨false, .succeeds⟩, .login,
      .repl ⟨false, .succeeds⟩]
    (fun _ c => decide (c.repl = .assigning ∧ c.readThread = some 0)) (by decide +kernel)
  obtain ⟨stage, named⟩ := of_decide_eq_true passed
  refine (safe ts c (.repl ⟨false, .succeeds⟩) run).1 ?_
  simp [step, replStep, stage, assignRead, named]

end Zaza.WsThreads
