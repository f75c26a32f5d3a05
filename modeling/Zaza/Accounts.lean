import Zaza.Auth
import Zaza.Machine

/-!
Who can log in after a sequence of registrations.

A user id is a string to everybody but the database, to which it is the text before
its first NUL. So of the user ids with the same such text the first that is
registered takes the account: the others cannot be registered, and log in with its
password, under their own ids. For a user id the accounts are as they should be
exactly if the first registration with its text was its own, or there was none.
-/
namespace Zaza.Accounts
open Zaza

/-- A registration, with the user id and the password, and what became of it. -/
abbrev Registration := Transition AuthService (Bytes × Bytes) (Except Bytes Unit)

/-- A service from its start on, with an empty database; a failed registration throws to
its caller. -/
def authMachine (host : Host) (ttl : Int) :
    Machine AuthService (Bytes × Bytes) (Except Bytes Unit) Empty where
  init := { ttl }
  step a input :=
    match a.registerUser host input.1 input.2 with
    | .error e => .ok (a, .error e)
    | .ok a' => .ok (a', .ok ())

def Succeeds (result : Except Bytes α) : Prop := ∃ value, result = .ok value

/-- The user id, exactly as it is, has been registered. -/
def Registered (ts : List Registration) (u : Bytes) : Prop :=
  ∃ t ∈ ts, t.input.1 = u ∧ Succeeds t.output

/-- The first registration of exactly this user id that succeeded had this password. -/
def FirstRegistered (ts : List Registration) (u p : Bytes) : Prop :=
  ∃ before t after, ts = before ++ t :: after ∧ t.input = (u, p) ∧ Succeeds t.output ∧
    ¬ Registered before u

/-- A user id logs in with the password it was registered with, can be registered if it is
not, and gets tokens of registered users only. -/
structure AcceptsRegistered (host : Host) (wall : Int) (ts : List Registration) (a : AuthService)
    (u p : Bytes) : Prop where
  login : Succeeds (a.login host wall u p) ↔ FirstRegistered ts u p
  register : ∀ q, Succeeds (a.registerUser host u q) ↔ ¬ Registered ts u
  token : ∀ result, a.login host wall u p = .ok result → Registered ts result.token.userId

/-- The first registration asked for with the text of this user id. -/
def firstWith (ts : List Registration) (text : Bytes) : Option Registration :=
  ts.find? fun t => cString t.input.1 = text

/-- The user id is the first, of those with the same text up to the first NUL, that was
asked to be registered; or there is none. -/
def FirstOfItsText (ts : List Registration) (u : Bytes) : Prop :=
  ∀ t ∈ firstWith ts (cString u), t.input.1 = u

/-! ## Strings -/

theorem cString_of_notMem {s : Bytes} (clean : 0 ∉ s) : cString s = s := by
  rw [cString, List.takeWhile_eq_self_iff]
  intro b member
  refine decide_eq_true ?_
  rintro rfl
  exact clean member

theorem cString_hashPassword (host : Host) (p : Bytes) :
    cString (UserStore.hashPassword host p) = UserStore.hashPassword host p :=
  cString_of_notMem (nul_notMem_hex _)

theorem hashPassword_inj {host : Host} {p q : Bytes} :
    UserStore.hashPassword host p = UserStore.hashPassword host q ↔
      host.sha256 p = host.sha256 q := by
  constructor
  · intro same
    exact Vector.toList_inj.mp (hex_injective same)
  · intro same
    rw [UserStore.hashPassword, UserStore.hashPassword, same]

/-! ## One call -/

variable {host : Host} {wall : Int} {a : AuthService} {u p q : Bytes} {ts : List Registration}
  {t : Registration} {ttl : Int}

theorem succeeds_register_iff : Succeeds (a.registerUser host u q) ↔
    a.store.users.lookup (cString u) = none := by
  cases found : a.store.users.lookup (cString u) <;>
    simp [AuthService.registerUser, UserStore.addUser, UserStore.findUser, found, Succeeds]

theorem succeeds_login_iff : Succeeds (a.login host wall u p) ↔
    ∃ hash, a.store.users.lookup (cString u) = some hash ∧
      cString hash = UserStore.hashPassword host p := by
  cases found : a.store.users.lookup (cString u) with
  | none => simp [AuthService.login, UserStore.checkPassword, UserStore.findUser, found, Succeeds]
  | some hash =>
    by_cases same : cString hash = UserStore.hashPassword host p <;>
      simp [AuthService.login, UserStore.checkPassword, UserStore.findUser, found, Succeeds, same]

/-- A token is of the user id that logs in. -/
theorem login_token {result : LoginResult} (done : a.login host wall u p = .ok result) :
    result.token.userId = u := by
  unfold AuthService.login at done
  split at done
  · cases done
  · obtain rfl := Except.ok.inj done
    rfl

/-- The store has a row for each text there was a registration with, by the first. -/
def Rows (host : Host) (ts : List Registration) (a : AuthService) : Prop :=
  ∀ text, a.store.users.lookup text =
    (firstWith ts text).map fun t => UserStore.hashPassword host t.input.2

/-- What one registration does: the text is taken, and nothing happens, or it is entered. -/
theorem takes_cases (taken : (authMachine host ttl).Takes t) :
    (∃ hash e, t.before.store.users.lookup (cString t.input.1) = some hash ∧
      t.output = .error e ∧ t.after = t.before) ∨
    t.before.store.users.lookup (cString t.input.1) = none ∧ t.output = .ok () ∧
      t.after.store.users = t.before.store.users.insert (cString t.input.1)
        (UserStore.hashPassword host t.input.2) := by
  obtain ⟨before, ⟨u, q⟩, after, output⟩ := t
  cases found : before.store.users.lookup (cString u) with
  | none =>
    simp only [Machine.Takes, authMachine, AuthService.registerUser, UserStore.addUser,
      UserStore.findUser, found, Option.map_none, Option.isSome_none, Bool.false_eq_true,
      ↓reduceIte, cString_hashPassword, Except.ok.injEq, Prod.mk.injEq] at taken
    obtain ⟨rfl, rfl⟩ := taken
    exact .inr ⟨rfl, rfl, rfl⟩
  | some hash =>
    simp only [Machine.Takes, authMachine, AuthService.registerUser, UserStore.addUser,
      UserStore.findUser, found, Option.map_some, Option.isSome_some, ↓reduceIte,
      Except.ok.injEq, Prod.mk.injEq] at taken
    obtain ⟨rfl, rfl⟩ := taken
    exact .inl ⟨hash, _, rfl, rfl, rfl⟩

theorem firstWith_snoc (ts : List Registration) (t : Registration) (text : Bytes) :
    firstWith (ts ++ [t]) text =
      (firstWith ts text).or (if cString t.input.1 = text then some t else none) := by
  simp only [firstWith, List.find?_append, List.find?_singleton, decide_eq_true_eq]

theorem Rows.preserved (rows : Rows host ts t.before) (taken : (authMachine host ttl).Takes t) :
    Rows host (ts ++ [t]) t.after := by
  intro text
  rw [firstWith_snoc]
  have before := rows text
  rcases takes_cases taken with ⟨hash, e, found, _, unchanged⟩ | ⟨free, _, entered⟩
  · rw [unchanged, before]
    by_cases its : cString t.input.1 = text
    · subst its
      rw [found] at before
      cases first : firstWith ts (cString t.input.1) with
      | none => simp [first] at before
      | some t' => rfl
    · simp [its]
  · rw [entered]
    by_cases its : cString t.input.1 = text
    · subst its
      rw [free] at before
      have none : firstWith ts (cString t.input.1) = none := by simpa using before.symm
      simp [none]
    · rw [AList.lookup_insert_ne (Ne.symm its), before]
      simp [its]

theorem rows_of_run (run : Run (authMachine host ttl) ts a) : Rows host ts a :=
  run.invariant_with_history (Rows host) (fun _ => rfl) fun _ _ rows taken => rows.preserved taken

/-- A registration succeeded if it was the first with its text. -/
theorem succeeded_iff {before after : List Registration}
    (run : Run (authMachine host ttl) (before ++ t :: after) a) :
    Succeeds t.output ↔ firstWith before (cString t.input.1) = none := by
  obtain ⟨early, taken⟩ := run.split
  have row := rows_of_run early (cString t.input.1)
  rcases takes_cases taken with ⟨hash, e, found, failed, _⟩ | ⟨free, done, _⟩
  · rw [found] at row
    refine iff_of_false ?_ ?_
    · rintro ⟨_, succeeded⟩
      rw [failed] at succeeded
      cases succeeded
    · intro none
      simp [none] at row
  · rw [free] at row
    refine iff_of_true ⟨(), done⟩ ?_
    simpa using row.symm

/-- The user id that is registered is the first with its text. -/
theorem registered_iff (run : Run (authMachine host ttl) ts a) :
    Registered ts u ↔ ∃ t, firstWith ts (cString u) = some t ∧ t.input.1 = u := by
  constructor
  · rintro ⟨t, member, rfl, succeeded⟩
    obtain ⟨before, after, rfl⟩ := List.append_of_mem member
    have first := (succeeded_iff run).mp succeeded
    refine ⟨t, ?_, rfl⟩
    have none : before.find? (fun t' => cString t'.input.1 = cString t.input.1) = none := first
    simp [firstWith, List.find?_append, none]
  · rintro ⟨t, first, rfl⟩
    obtain ⟨-, before, after, rfl, earlier⟩ := List.find?_eq_some_iff_append.mp first
    refine ⟨t, by simp, rfl, (succeeded_iff run).mpr ?_⟩
    exact List.find?_eq_none.mpr fun t' member => by simpa using earlier t' member

theorem firstRegistered_iff (run : Run (authMachine host ttl) ts a) :
    FirstRegistered ts u p ↔ ∃ t, firstWith ts (cString u) = some t ∧ t.input = (u, p) := by
  constructor
  · rintro ⟨before, t, after, rfl, input, succeeded, _⟩
    have first := (succeeded_iff run).mp succeeded
    rw [input] at first
    refine ⟨t, ?_, input⟩
    have none : before.find? (fun t' => cString t'.input.1 = cString u) = none := first
    simp [firstWith, List.find?_append, none, input]
  · rintro ⟨t, first, input⟩
    obtain ⟨-, before, after, rfl, earlier⟩ := List.find?_eq_some_iff_append.mp first
    have none : firstWith before (cString u) = none :=
      List.find?_eq_none.mpr fun t' member => by simpa using earlier t' member
    refine ⟨before, t, after, rfl, input, (succeeded_iff run).mpr (by rw [input]; exact none), ?_⟩
    intro registered
    obtain ⟨t', first', _⟩ := (registered_iff run.split.1).mp registered
    simp [none] at first'

/-- **Login accepts what was registered** for a user id exactly if it was the first with
its text up to the first NUL. -/
theorem accepts_registered_iff (run : Run (authMachine host ttl) ts a) (wall : Int)
    (injective : ∀ t ∈ ts, host.sha256 t.input.2 = host.sha256 p → t.input.2 = p) :
    AcceptsRegistered host wall ts a u p ↔ FirstOfItsText ts u := by
  have row := rows_of_run run (cString u)
  cases first : firstWith ts (cString u) with
  | none =>
    rw [first] at row
    have unregistered : ¬ Registered ts u := by
      simp [registered_iff run, first]
    refine iff_of_true ⟨?_, fun q => ?_, fun result done => ?_⟩ (by simp [FirstOfItsText, first])
    · simp [succeeds_login_iff, firstRegistered_iff run, first, row]
    · simp [succeeds_register_iff, row, unregistered]
    · obtain ⟨_, found, _⟩ := succeeds_login_iff.mp ⟨result, done⟩
      simp [row] at found
  | some t =>
    rw [first] at row
    have member : t ∈ ts := List.mem_of_find?_eq_some first
    have registered : Registered ts u ↔ t.input.1 = u := by
      simp [registered_iff run, first]
    constructor
    · intro accepts
      -- The text is taken, so the user id cannot be registered, so it is.
      have taken : ¬ Succeeds (a.registerUser host u p) := by
        simp [succeeds_register_iff, row]
      have its := registered.mp (not_not.mp (mt (accepts.register p).mpr taken))
      simpa [FirstOfItsText, first] using its
    · intro its
      have its : t.input.1 = u := its t first
      have logsIn : Succeeds (a.login host wall u p) ↔ t.input.2 = p := by
        rw [succeeds_login_iff]
        simp only [row, Option.map_some, Option.some.injEq, exists_eq_left', cString_hashPassword,
          hashPassword_inj]
        exact ⟨injective t member, congrArg _⟩
      refine ⟨?_, fun q => ?_, fun result done => ?_⟩
      · rw [logsIn, firstRegistered_iff run, first]
        simp [Prod.ext_iff, its]
      · simp [succeeds_register_iff, row, registered, its]
      · rw [login_token done]
        exact registered.mpr its

/-- A host that knows the SHA-256 digest of one password. -/
def passwordHost : Host :=
  { Host.posix [] [] [] with
    sha256 := fun data =>
      if data = ascii "pw" then
        #v[0x30, 0xC9, 0x52, 0xFA, 0xB1, 0x22, 0xC3, 0xF9, 0x75, 0x9F, 0x02, 0xA6, 0xD9, 0x5C, 0x37,
          0x58, 0xB2, 0x46, 0xB4, 0xFE, 0xE2, 0x39, 0x95, 0x7B, 0x2D, 0x4F, 0xEE, 0x46, 0xE2, 0x61,
          0x70, 0xC4]
      else Vector.replicate 32 0 }

/-- Alice registers, and again. -/
theorem accepts_registered_iff_alice : ∃ ts a, Run (authMachine passwordHost 86400) ts a ∧
    FirstOfItsText ts (ascii "alice") ∧
    AcceptsRegistered passwordHost 0 ts a (ascii "alice") (ascii "pw") := by
  obtain ⟨ts, a, run, check⟩ := Run.of_exec (authMachine passwordHost 86400)
    [(ascii "alice", ascii "pw"), (ascii "alice", ascii "pw")]
    (fun ts _ => ∀ t ∈ ts, t.input = (ascii "alice", ascii "pw")) (by decide +kernel)
  have inputs := of_decide_eq_true check
  have first : FirstOfItsText ts (ascii "alice") := by
    intro t found
    rw [inputs t (List.mem_of_find?_eq_some found)]
  refine ⟨ts, a, run, first, (accepts_registered_iff run 0 ?_).mpr first⟩
  intro t member _
  rw [inputs t member]

/-- With the account of `a`, one logs in as `a`, NUL, `b`. -/
theorem nul_logs_in : ¬ ∀ host ttl wall ts a u p, Run (authMachine host ttl) ts a →
    (∀ t ∈ ts, host.sha256 t.input.2 = host.sha256 p → t.input.2 = p) →
    AcceptsRegistered host wall ts a u p := by
  intro all
  obtain ⟨ts, a, run, check⟩ := Run.of_exec (authMachine passwordHost 86400)
    [(ascii "a", ascii "pw")] (fun ts a => (∀ t ∈ ts, t.input = (ascii "a", ascii "pw")) ∧
      a.store.checkPassword passwordHost (ascii "a" ++ 0 :: ascii "b") (ascii "pw"))
    (by decide +kernel)
  obtain ⟨inputs, checked⟩ := of_decide_eq_true check
  have accepts := all passwordHost 86400 0 ts a (ascii "a" ++ 0 :: ascii "b") (ascii "pw") run
    fun t member _ => by rw [inputs t member]
  have loggedIn : a.login passwordHost 0 (ascii "a" ++ 0 :: ascii "b") (ascii "pw") =
      .ok ⟨AuthService.sign 0 (ascii "a" ++ 0 :: ascii "b") a.ttl,
        ascii "a" ++ 0 :: ascii "b"⟩ := by
    simp [AuthService.login, checked]
  obtain ⟨t, member, registered, _⟩ := accepts.token _ loggedIn
  rw [inputs t member] at registered
  have differ : ascii "a" ≠ ascii "a" ++ 0 :: ascii "b" := by decide
  exact differ registered

end Zaza.Accounts
