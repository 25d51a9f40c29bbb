import SipWitch.Connection

/-! The connection of the authorization thread. It is chosen when the database has been
configured: the database's own for a file, one of its own for a server, which it opens again by
itself. The two threads take their steps in any order. -/
namespace SipWitch

inductive AuthConnection.Pointer where
  | nullptr
  | database
  | own
  deriving DecidableEq

/-- Both threads; what is not of the database is of `local`. -/
structure AuthConnection where
  database : Connection := {}
  /-- What `updateAuthorize` has been emitted with and `activate` has not been run for. -/
  signals : List Bool := []
  db : AuthConnection.Pointer := .nullptr
  driver : String := ""
  address : DatabaseAddress := { name := "" }
  isOpen : Bool := false
  isValid : Bool := false
  failed : Bool := false
  calls : List DriverCall := []

namespace AuthConnection

abbrev Program := StateT AuthConnection Option

variable (driver auth : SqlDriver) (schema : SqlSchema) (depth : Nat)

def called (s : AuthConnection) (call : DriverCall) : AuthConnection := { s with calls := s.calls ++ [call] }

def onDatabase (program : Connection.Program A) : Program A :=
  fun s => (program s.database).map fun done => (done.1,{ s with database := done.2 })

def close (s : AuthConnection) : AuthConnection :=
  if s.isOpen then { s with isOpen := false }.called .disconnect else s

/-- `local = QSqlDatabase()` and `QSqlDatabase::removeDatabase`. -/
def removeDatabase (s : AuthConnection) : AuthConnection := { s with isValid := false }.called .removeDatabase

/-- A connection that is open is given up before another one is chosen. -/
def released (s : AuthConnection) : AuthConnection :=
  if s.isValid && s.isOpen then { s.close.removeDatabase with db := .nullptr } else { s with db := .nullptr }

def addDatabase : Program Bool := do
  let s ← get
  let name := s.database.settings.driver
  let valid := auth.valid s.calls name
  modify fun s => { s with driver := name, isOpen := false, isValid := valid }.called (.addDatabase name valid)
  pure valid

def connect : Program Bool := do
  let s ← get
  let opened := auth.opens s.calls s.address
  modify fun s => { s with isOpen := opened }.called (.connect s.driver s.address opened)
  pure opened

def exec (request : String) : Program (Option SqlResult) := do
  let s ← get
  let result := auth.executes s.calls request
  modify fun s => s.called (.execute request result)
  pure result

def checkConnection : Program Bool := do
  let s ← get
  if s.db = .own then
    if s.isOpen && s.isValid then pure true
    else
      modify close
      let opened ← connect auth
      modify fun s => { s with failed := !opened }
      pure opened
  else pure (s.db ≠ .nullptr)

def resume : Program Bool := do
  let s ← get
  if s.failed || s.db ≠ .own then pure false
  else
    modify close
    checkConnection auth

def query (request : String) : Program (Option SqlResult) := do
  let s ← get
  if s.db ≠ .own then onDatabase (Connection.query driver depth request)
  else if ← checkConnection auth then retry (exec auth request) (resume auth) 3
  else pure none

def activate (opened : Bool) : Program Unit := do
  modify released
  let s ← get
  if s.database.isFile && opened then modify fun s => { s with db := .database }
  else if opened then
    if ← addDatabase auth then
      modify fun s => { s with db := .own, address := s.database.address }
      if ← connect auth then modify fun s => { s with failed := false }
      else modify fun s => { s.removeDatabase with db := .nullptr, failed := true }
    else pure ()
  else pure ()

inductive Action where
  | database (a : Connection.Action)
  | activate
  /-- `runQuery`, `getRecord` or `getRecords` of the authorization. -/
  | query (request : String)
  deriving DecidableEq

def updateAuthorize (s : AuthConnection) : Connection.Action → AuthConnection
  | .applyConfig .. => if s.database.exited then s else { s with signals := s.signals ++ [s.database.isOpen] }
  | _ => s

def perform : Action → Program Unit
  | .database a => do
    onDatabase (Connection.perform driver schema depth a)
    modify fun s => s.updateAuthorize a
  | .activate => do
    let s ← get
    modify fun s => { s with signals := s.signals.tail }
    activate auth (s.signals.headD false)
  | .query request => do
    let _ ← query driver auth depth request
    pure ()

def enabled (s : AuthConnection) : Action → Bool
  | .database a => s.database.enabled a
  | .activate => !s.database.exited && !s.signals.isEmpty
  | .query _ => !s.database.exited

def step (s : AuthConnection) (a : Action) : Option AuthConnection :=
  if s.enabled a then (perform driver auth schema depth a s).map Prod.snd else none

end AuthConnection

/-- Where the authorization's connection is for its driver, with what it was told. -/
inductive AuthPhase where
  | closed
  | added (driver : String) (address : Option DatabaseAddress)
  | opened (driver : String) (address : DatabaseAddress)
  deriving DecidableEq

namespace AuthPhase

/-- There is none to a file, which has one connection only. One that has been lost may be
connected again, to where it was before, or another one added in its place; one that is open
may not. -/
def next : AuthPhase → DriverCall → Option AuthPhase
  | .opened driver address, .execute _ _ => some (.opened driver address)
  | .opened driver address, .disconnect => some (.added driver (some address))
  | .opened .., _ => none
  | .added _ _, .removeDatabase => some .closed
  | .added driver told, .connect other address ok =>
    if other = driver ∧ (told = none ∨ told = some address) then
      some (if ok then .opened driver address else .added driver (some address))
    else none
  | _, .addDatabase driver valid =>
    if Util.dbIsFile driver then none else some (if valid then .added driver none else .closed)
  | _, _ => none

end AuthPhase

namespace AuthConnection

open Mealy

variable {driver auth : SqlDriver} {schema : SqlSchema} {depth : Nat} {s next final : AuthConnection}

def phase (s : AuthConnection) : AuthPhase :=
  if s.isOpen then .opened s.driver s.address
  else if s.isValid then .added s.driver (some s.address) else .closed

/-- What holds of the two connections. -/
structure Sound (s : AuthConnection) : Prop where
  database : s.database.Sound
  passed : accept AuthPhase.next .closed s.calls = some s.phase
  valid : s.isOpen = true → s.isValid = true
  failed : s.failed = true → s.isOpen = false
  own : s.db = .own → s.isValid = true

/-- It is left unopened only by a driver that refuses. -/
def Refused (s : AuthConnection) : Prop :=
  s.isValid = true → s.isOpen = false → ∃ name address, s.calls.getLast? = some (.connect name address false)

@[simp] theorem onDatabase_iff {program : Connection.Program A} {post : A → AuthConnection → Prop} :
    Ensures (onDatabase program) s post ↔
      Ensures program s.database fun a database => post a { s with database } := by
  constructor
  · rintro ⟨_,_,done,holds⟩
    obtain ⟨⟨a,database⟩,ran,same⟩ := Option.map_eq_some_iff.mp done
    obtain ⟨rfl,rfl⟩ := Prod.mk.inj same
    exact ⟨a,database,ran,holds⟩
  · rintro ⟨a,database,ran,holds⟩
    exact ⟨a,_,Option.map_eq_some_iff.mpr ⟨(a,database),ran,rfl⟩,holds⟩

@[simp] theorem exec_iff {request : String} {post : Option SqlResult → AuthConnection → Prop} :
    Ensures (exec auth request) s post ↔
      post (auth.executes s.calls request) (s.called (.execute request (auth.executes s.calls request))) := by
  simp [exec]

@[simp] theorem addDatabase_iff {post : Bool → AuthConnection → Prop} :
    Ensures (addDatabase auth) s post ↔ post (auth.valid s.calls s.database.settings.driver)
      ({ s with
        driver := s.database.settings.driver, isOpen := false
        isValid := auth.valid s.calls s.database.settings.driver }.called
          (.addDatabase s.database.settings.driver (auth.valid s.calls s.database.settings.driver))) := by
  simp [addDatabase]

@[simp] theorem connect_iff {post : Bool → AuthConnection → Prop} :
    Ensures (connect auth) s post ↔ post (auth.opens s.calls s.address)
      ({ s with isOpen := auth.opens s.calls s.address }.called
        (.connect s.driver s.address (auth.opens s.calls s.address))) := by
  simp [connect]

theorem Sound.unfailed (sound : s.Sound) (isOpen : s.isOpen = true) : s.failed = false := by
  by_contra failed
  have shut := sound.failed (by simpa using failed)
  simp [isOpen] at shut

theorem close_sound (sound : s.Sound) : s.close.Sound ∧ s.close.isOpen = false ∧
    ∃ new, s.close = { s with isOpen := false, calls := s.calls ++ new } ∧ ∀ call ∈ new, call = .disconnect := by
  have passed := sound.passed
  cases isOpen : s.isOpen with
  | true =>
    have same : s.close = { s with isOpen := false, calls := s.calls ++ [.disconnect] } := by
      simp [close,isOpen,called]
    rw [same]
    refine ⟨⟨sound.database,?_,by simp,by simp,sound.own⟩,rfl,[.disconnect],rfl,by simp⟩
    simp [accept_append,passed,phase,AuthPhase.next,isOpen,sound.valid isOpen]
  | false =>
    have same : s.close = s := by simp [close,isOpen]
    rw [same]
    refine ⟨sound,isOpen,[],?_,by simp⟩
    cases s
    simp_all

/-- What a request keeps. -/
structure Follows (s s' : AuthConnection) : Prop where
  sound : s'.Sound
  refused : s'.Refused
  settings : s'.database.settings = s.database.settings
  signals : s'.signals = s.signals
  db : s'.db = s.db
  driver : s'.driver = s.driver
  address : s'.address = s.address

theorem Follows.refl (sound : s.Sound) (refused : s.Refused) : Follows s s := ⟨sound,refused,rfl,rfl,rfl,rfl,rfl⟩

theorem Follows.trans {s' s'' : AuthConnection} (first : Follows s s') (second : Follows s' s'') : Follows s s'' :=
  ⟨second.sound,second.refused,second.settings.trans first.settings,second.signals.trans first.signals,
    second.db.trans first.db,second.driver.trans first.driver,second.address.trans first.address⟩

def Reopening (call : DriverCall) : Prop := call = .disconnect ∨ call.isConnect = true

structure Checked (s : AuthConnection) (ok : Bool) (s' : AuthConnection) : Prop where
  follows : Follows s s'
  database : s'.database = s.database
  isOpen : s'.isOpen = ok
  failed : s'.failed = !ok
  calls : ∃ new, s'.calls = s.calls ++ new ∧ new.countP DriverCall.isConnect ≤ 1 ∧ ∀ call ∈ new, Reopening call

theorem checkConnection_spec (sound : s.Sound) (own : s.db = .own) :
    Ensures (checkConnection auth) s fun ok s' => Checked s ok s' := by
  simp only [checkConnection,Ensures.bind_iff,Ensures.get_iff,own,if_true]
  have valid := sound.own own
  cases isOpen : s.isOpen with
  | true =>
    simp only [valid,Bool.and_self,if_true,Ensures.pure_iff]
    have unfailed := sound.unfailed isOpen
    refine ⟨.refl sound fun _ shut => ?_,rfl,isOpen,unfailed,[],by simp,by simp,by simp⟩
    simp [isOpen] at shut
  | false =>
    have same : s.close = s := by simp [close,isOpen]
    simp only [Bool.false_and,Bool.false_eq_true,if_false,Ensures.bind_iff,Ensures.modify_iff,same,connect_iff,
      Ensures.pure_iff]
    generalize auth.opens s.calls s.address = opened
    refine ⟨⟨⟨sound.database,?_,fun _ => valid,?_,fun _ => valid⟩,?_,rfl,rfl,rfl,rfl,rfl⟩,rfl,rfl,rfl,
      [.connect s.driver s.address opened],rfl,by simp [DriverCall.isConnect],
      by simp [Reopening,DriverCall.isConnect]⟩
    · cases opened <;> simp [called,accept_append,sound.passed,phase,isOpen,valid,AuthPhase.next]
    · simp [called]
    · rintro - shut
      obtain rfl : opened = false := shut
      exact ⟨s.driver,s.address,by simp [called]⟩

theorem resume_spec (sound : s.Sound) (own : s.db = .own) (isOpen : s.isOpen = true) :
    Ensures (resume auth) s fun ok s' => Checked s ok s' := by
  have unfailed := sound.unfailed isOpen
  obtain ⟨shut,-,new,same,quiet⟩ := close_sound sound
  simp only [resume,Ensures.bind_iff,Ensures.get_iff,unfailed,own,ne_eq,not_true_eq_false,decide_false,Bool.or_self,
    Bool.false_eq_true,if_false,Ensures.modify_iff]
  rw [same] at shut ⊢
  refine (checkConnection_spec shut own).mono fun ok s' checked => ?_
  obtain ⟨more,calls,one,reopening⟩ := checked.calls
  have follows := checked.follows
  refine ⟨⟨follows.sound,follows.refused,follows.settings,follows.signals,follows.db,follows.driver,follows.address⟩,
    checked.database,checked.isOpen,checked.failed,new ++ more,?_,?_,?_⟩
  · rw [calls,List.append_assoc]
  · have none : new.countP DriverCall.isConnect = 0 :=
      List.countP_eq_zero.mpr fun call member => by simp [quiet call member,DriverCall.isConnect]
    rw [List.countP_append,none]
    omega
  · intro call member
    rcases List.mem_append.mp member with member | member
    · exact .inl (quiet call member)
    · exact reopening call member

theorem called_follows (sound : s.Sound) (isOpen : s.isOpen = true) (request : String)
    (result : Option SqlResult) : Follows s (s.called (.execute request result)) := by
  refine ⟨⟨sound.database,?_,sound.valid,sound.failed,sound.own⟩,fun _ shut => ?_,rfl,rfl,rfl,rfl,rfl⟩
  · simp [called,accept_append,sound.passed,phase,isOpen,AuthPhase.next]
  · simp [called,isOpen] at shut

theorem Reopening.apart {call : DriverCall} (reopening : Reopening call) (request : String) :
    call.attempts request = false ∧ call.succeeds request = false := by
  rcases reopening with rfl | connects
  · exact ⟨rfl,rfl⟩
  · cases call <;> simp_all [DriverCall.isConnect,DriverCall.attempts,DriverCall.succeeds]

/-- A request to the connection of its own leaves the database's alone. -/
theorem query_own (sound : s.Sound) (own : s.db = .own) (request : String) :
    Ensures (query driver auth depth request) s fun result s' => Follows s s' ∧ s'.database = s.database ∧
      ∃ new, s'.calls = s.calls ++ new ∧ Connection.Queried request false result new := by
  simp only [query,Ensures.bind_iff,Ensures.get_iff,own,ne_eq,not_true_eq_false,if_false]
  refine (checkConnection_spec sound own).mono fun ok opened checked => ?_
  obtain ⟨opening,called,one,reopening⟩ := checked.calls
  have quiet (other : String) : opening.countP (DriverCall.attempts other) = 0 ∧
      opening.countP (DriverCall.succeeds other) = 0 :=
    ⟨List.countP_eq_zero.mpr fun call member => by simp [(reopening call member).apart other],
      List.countP_eq_zero.mpr fun call member => by simp [(reopening call member).apart other]⟩
  cases ok with
  | false =>
    refine Ensures.pure_iff.mpr ⟨checked.follows,checked.database,opening,called,?_,by simp,?_,?_,?_⟩
    · simp [quiet]
    · simp [quiet]
    · simp
      omega
    · simp [quiet]
  | true =>
    refine (retry_log calls (.execute request) Reopening (DriverCall.attempts request)
      (DriverCall.succeeds request) DriverCall.isConnect
      (fun now => Follows s now ∧ now.database = s.database ∧ now.isOpen = true)
      (fun now => Follows s now ∧ now.database = s.database) ?_ ?_ ?_ ?_ 3 opened
      ⟨checked.follows,checked.database,checked.isOpen⟩).mono ?_
    · intro r
      cases r <;> simp [DriverCall.attempts,DriverCall.succeeds,DriverCall.isConnect]
    · exact fun call reopening => reopening.apart request
    · exact fun now ready => ⟨ready.1,ready.2.1⟩
    · rintro now ⟨follows,same,isOpen⟩
      have tried := called_follows follows.sound isOpen request
      refine exec_iff.mpr ⟨rfl,?_⟩
      cases auth.executes now.calls request with
      | some answer => exact ⟨follows.trans (tried _),same⟩
      | none =>
        refine (resume_spec (tried none).sound (follows.db.trans own) isOpen).mono fun again later checked => ?_
        have whole := (follows.trans (tried none)).trans checked.follows
        have kept := checked.database.trans same
        refine ⟨?_,checked.calls⟩
        cases again with
        | true => exact ⟨whole,kept,checked.isOpen⟩
        | false => exact ⟨whole,kept⟩
    · rintro result last ⟨⟨follows,same⟩,new,added,retried⟩
      refine ⟨follows,same,opening ++ new,by rw [added,called,List.append_assoc],?_,?_,?_,?_,?_⟩
      · simpa [quiet] using retried.once
      · intro answer found
        have tail := retried.last answer found
        rw [List.getLast?_append,tail,found]
        rfl
      · simpa [quiet] using retried.tries
      · have := retried.costs
        simp
        omega
      · intro other _ differs
        have others : new.countP (DriverCall.attempts other) = 0 := by
          refine List.countP_eq_zero.mpr fun call member => ?_
          rcases retried.rest call member with reopening | ⟨r,rfl⟩
          · simp [reopening.apart other]
          · simp [DriverCall.attempts,differs.symm]
        simp [quiet,others]

/-- Any request, whichever connection it is for. -/
theorem query_follows (sound : s.Sound) (refused : s.Refused) (request : String) :
    Ensures (query driver auth (depth + 2) request) s fun _ s' => Follows s s' := by
  by_cases own : s.db = .own
  · exact (query_own sound own request).mono fun _ _ holds => holds.1
  · simp only [query,Ensures.bind_iff,Ensures.get_iff,ne_eq,own,not_false_eq_true,if_true,onDatabase_iff]
    refine (Connection.query_follows depth sound.database request).mono fun _ database kept => ?_
    exact ⟨⟨kept.sound,sound.passed,sound.valid,sound.failed,sound.own⟩,refused,kept.settings,rfl,rfl,rfl,rfl⟩

theorem released_sound (sound : s.Sound) (refused : s.Refused) : s.released.Sound ∧ s.released.Refused ∧
    s.released.isOpen = false ∧ s.released.database = s.database ∧ s.released.signals = s.signals ∧
    s.released.db = .nullptr := by
  cases isOpen : s.isOpen with
  | true =>
    have same : s.released = { s with
        isOpen := false, isValid := false, db := .nullptr, calls := s.calls ++ [.disconnect,.removeDatabase] } := by
      simp [released,sound.valid isOpen,isOpen,close,removeDatabase,called]
    rw [same]
    refine ⟨⟨sound.database,?_,by simp,by simp,by simp⟩,by simp [Refused],rfl,rfl,rfl,rfl⟩
    simp [accept_append,sound.passed,phase,isOpen,AuthPhase.next]
  | false =>
    have same : s.released = { s with db := .nullptr } := by simp [released,isOpen]
    rw [same]
    exact ⟨⟨sound.database,sound.passed,sound.valid,sound.failed,by simp⟩,refused,isOpen,rfl,rfl,rfl⟩

/-- What `activate` chooses is of the settings that the database has. -/
def Chosen (s : AuthConnection) : Prop :=
  match s.db with
  | .nullptr => True
  | .database => s.database.isFile = true
  | .own => s.database.isFile = false ∧ s.driver = s.database.settings.driver ∧ s.address = s.database.address

theorem activate_spec (sound : s.Sound) (refused : s.Refused) (opened : Bool) :
    Ensures (activate auth opened) s fun _ s' => s'.Sound ∧ s'.Refused ∧ Chosen s' ∧
      s'.signals = s.signals ∧ s'.database = s.database := by
  simp only [activate,Ensures.bind_iff,Ensures.modify_iff,Ensures.get_iff]
  obtain ⟨sound,refused,shut,database,signals,chosen⟩ := released_sound sound refused
  rw [← database,← signals]
  generalize s.released = now at *
  split
  · rename_i file
    obtain ⟨file,-⟩ := Bool.and_eq_true_iff.mp file
    refine Ensures.modify_iff.mpr ⟨⟨sound.database,?_,sound.valid,sound.failed,by simp⟩,refused,file,rfl,rfl⟩
    exact sound.passed
  rename_i server
  split
  · rename_i opened
    have server : now.database.isFile = false := by simpa [opened] using server
    have named : Util.dbIsFile now.database.settings.driver = false := server
    have before := sound.passed
    simp only [Ensures.bind_iff,addDatabase_iff]
    generalize auth.valid now.calls now.database.settings.driver = valid
    have added : accept AuthPhase.next .closed (now.calls ++ [.addDatabase now.database.settings.driver valid]) =
        some (if valid then .added now.database.settings.driver none else .closed) := by
      cases isValid : now.isValid <;> simp [accept_append,before,phase,shut,isValid,AuthPhase.next,named]
    cases valid with
    | false =>
      simp only [Bool.false_eq_true,if_false,Ensures.pure_iff]
      refine ⟨⟨sound.database,?_,by simp [called],by simp [called],?_⟩,by simp [Refused,called],?_,rfl,rfl⟩
      · simpa [called,phase] using added
      · simp [called,chosen]
      · simp [Chosen,called,chosen]
    | true =>
      simp only [if_true,Ensures.bind_iff,Ensures.modify_iff,connect_iff]
      generalize auth.opens _ _ = ok
      cases ok with
      | true =>
        simp only [if_true,Ensures.modify_iff]
        refine ⟨⟨sound.database,?_,by simp [called],by simp,by simp [called]⟩,by simp [Refused,called],
          ⟨server,rfl,rfl⟩,rfl,rfl⟩
        rw [called,called,accept_append,added]
        simp [AuthPhase.next,phase]
      | false =>
        simp only [Bool.false_eq_true,if_false,Ensures.modify_iff]
        refine ⟨⟨sound.database,?_,by simp [called,removeDatabase],by simp [called,removeDatabase],by simp⟩,
          by simp [Refused,called,removeDatabase],by simp [Chosen],rfl,rfl⟩
        rw [called,called,removeDatabase,called,accept_append,accept_append,added]
        simp [AuthPhase.next,phase]
  · refine Ensures.pure_iff.mpr ⟨sound,refused,?_,rfl,rfl⟩
    simp [Chosen,chosen]

/-- Everything signalled is heard in the end, and the connection is then of the settings. -/
def Current (s : AuthConnection) : Prop := s.database.exited = false → s.signals = [] → Chosen s

theorem Chosen.follows {s' : AuthConnection} (chosen : Chosen s)
    (settings : s'.database.settings = s.database.settings) (db : s'.db = s.db)
    (driver : s'.driver = s.driver) (address : s'.address = s.address) : Chosen s' := by
  have file : s'.database.isFile = s.database.isFile := by rw [Connection.isFile,settings,Connection.isFile]
  have told : s'.database.address = s.database.address := by simp only [Connection.address,file,settings]
  simpa only [Chosen,db,driver,address,settings,file,told] using chosen

theorem perform_settings (depth : Nat) {c : Connection} (sound : c.Sound) (a : Connection.Action)
    (other : ∀ settings existing, a ≠ .applyConfig settings existing) :
    Ensures (Connection.perform driver schema (depth + 2) a) c fun _ c' => c'.settings = c.settings := by
  cases a with
  | query request =>
    refine Ensures.bind_iff.mpr ((Connection.query_follows depth sound request).mono fun _ _ follows => ?_)
    exact Ensures.pure_iff.mpr follows.settings
  | queries list =>
    refine Ensures.bind_iff.mpr ((Connection.runQueries_follows depth sound list).mono fun _ _ follows => ?_)
    exact Ensures.pure_iff.mpr follows.settings
  | timeout =>
    simp only [Connection.perform,Connection.onTimeout,Ensures.bind_iff,Ensures.modify_iff,Ensures.get_iff]
    split
    · exact Connection.close_iff.mpr rfl
    · exact Ensures.pure_iff.mpr rfl
  | applyConfig settings existing => exact absurd rfl (other settings existing)

/-- What every step keeps. -/
structure Kept (s : AuthConnection) : Prop where
  sound : s.Sound
  refused : s.Refused
  current : s.Current

theorem perform_database (kept : s.Kept) (running : s.database.exited = false) (a : Connection.Action) :
    Ensures (perform driver auth schema (depth + 2) (.database a)) s fun _ s' => s'.Kept := by
  have sound := kept.sound
  simp only [perform,Ensures.bind_iff,onDatabase_iff,Ensures.modify_iff]
  have within (c : Connection) (whole : c.Sound) (signals : List Bool) :
      ({ s with database := c, signals } : AuthConnection).Sound :=
    ⟨whole,sound.passed,sound.valid,sound.failed,sound.own⟩
  by_cases configures : ∃ settings existing, a = .applyConfig settings existing
  · obtain ⟨settings,existing,rfl⟩ := configures
    refine (Connection.perform_spec depth sound.database _).mono ?_
    rintro _ c ⟨whole,-⟩
    cases exited : c.exited with
    | true =>
      simp only [updateAuthorize,exited,if_true]
      exact ⟨within c whole s.signals,kept.refused,fun here => by simp [exited] at here⟩
    | false =>
      simp only [updateAuthorize,exited,Bool.false_eq_true,if_false]
      exact ⟨within c whole _,kept.refused,fun _ heard => by simp at heard⟩
  · have other : ∀ settings existing, a ≠ .applyConfig settings existing :=
      fun settings existing same => configures ⟨settings,existing,same⟩
    obtain ⟨_,c,done,whole,-⟩ := (Connection.perform_spec depth sound.database a :
      Ensures (Connection.perform driver schema (depth + 2) a) s.database _)
    have settings := (perform_settings depth sound.database a other).holds done
    refine ⟨_,c,done,?_⟩
    have same : ({ s with database := c } : AuthConnection).updateAuthorize a = { s with database := c } := by
      cases a <;> first | rfl | exact absurd rfl (other _ _)
    change (updateAuthorize _ a).Kept
    rw [same]
    exact ⟨within c whole s.signals,kept.refused,
      fun _ heard => (kept.current running heard).follows settings rfl rfl rfl⟩

theorem perform_spec (kept : s.Kept) (a : Action) (enabled : s.enabled a = true) :
    Ensures (perform driver auth schema (depth + 2) a) s fun _ s' => s'.Kept := by
  cases a with
  | database a =>
    apply perform_database kept
    cases a <;> simp_all [AuthConnection.enabled,Connection.enabled]
  | activate =>
    simp only [perform,Ensures.bind_iff,Ensures.get_iff,Ensures.modify_iff]
    have heard : ({ s with signals := s.signals.tail } : AuthConnection).Sound :=
      ⟨kept.sound.database,kept.sound.passed,kept.sound.valid,kept.sound.failed,kept.sound.own⟩
    refine (activate_spec heard kept.refused _).mono ?_
    rintro _ s' ⟨sound,refused,chosen,-⟩
    exact ⟨sound,refused,fun _ _ => chosen⟩
  | query request =>
    have running : s.database.exited = false := by simpa [AuthConnection.enabled] using enabled
    simp only [perform,Ensures.bind_iff,Ensures.pure_iff]
    refine (query_follows kept.sound kept.refused request).mono fun _ s' follows => ?_
    refine ⟨follows.sound,follows.refused,fun _ heard => ?_⟩
    exact (kept.current running (follows.signals ▸ heard)).follows follows.settings follows.db follows.driver
      follows.address

abbrev Run (driver auth : SqlDriver) (schema : SqlSchema) (depth : Nat) :=
  Transition.Run (step driver auth schema (depth + 2))

theorem run_kept (run : Run driver auth schema depth {} trace final) : final.Kept := by
  refine run.invariant Kept (fun s a next kept moved => ?_) ?_
  · simp only [step] at moved
    split at moved
    · rename_i enabled
      obtain ⟨⟨_,_⟩,done,rfl⟩ := Option.map_eq_some_iff.mp moved
      exact (perform_spec kept a enabled).holds done
    · contradiction
  · exact ⟨⟨⟨rfl,by simp,by simp,by simp⟩,rfl,by simp,by simp,by simp⟩,by simp [Refused],fun _ _ => trivial⟩

/-- Whatever the drivers answer and however the two threads take turns: the authorization's
connection is never to a file, is run on when it is open and connected again when it is not, to
where it was before; when it is in use and not open, the last thing that happened was that the
driver refused; and every step that is due can be taken. -/
theorem protocol_kept (run : Run driver auth schema depth {} trace final) :
    (∃ phase, accept AuthPhase.next .closed final.calls = some phase) ∧
    (final.db = .own → final.isOpen = true ∨
      ∃ name address, final.calls.getLast? = some (.connect name address false)) ∧
    ∀ a, final.enabled a = true → (step driver auth schema (depth + 2) final a).isSome := by
  have kept := run_kept run
  refine ⟨⟨_,kept.sound.passed⟩,fun own => ?_,fun a enabled => ?_⟩
  · cases isOpen : final.isOpen with
    | true => exact .inl rfl
    | false => exact .inr (kept.refused (kept.sound.own own) isOpen)
  · obtain ⟨_,_,done,-⟩ := (perform_spec kept a enabled :
      Ensures (perform driver auth schema (depth + 2) a) final _)
    simp [step,enabled,done]

def flaky : SqlDriver where
  valid _ _ := true
  opens calls _ := calls.countP DriverCall.isConnect != 1
  executes calls _ := if calls.countP DriverCall.isConnect = 1 then none else some {}

def outage : List Action :=
  [.database (.applyConfig { driver := "QMYSQL", name := "sip" } false),.activate,.query "SELECT 1;"]

theorem protocol_kept_outage : ∃ trace final, Run Connection.steady flaky Connection.bare 0 {} trace final ∧
    final.db = .own ∧ final.isOpen = false ∧
    (final.isOpen = true ∨ ∃ name address, final.calls.getLast? = some (.connect name address false)) := by
  have ran : ((Transition.execute (step Connection.steady flaky Connection.bare 2) outage {}).map fun s =>
      (s.db,s.isOpen)) = some (.own,false) := by decide +kernel
  obtain ⟨final,done,own⟩ := Option.map_eq_some_iff.mp ran
  obtain ⟨db,isOpen⟩ := Prod.mk.inj own
  obtain ⟨trace,run,-⟩ := Transition.execute_run _ _ _ done
  exact ⟨trace,final,run,db,isOpen,(protocol_kept run).2.1 db⟩

/-- When the authorization has heard of every configuration, the connection in use is of the
last of them: the database's if that is a file, and else one to the same server. -/
theorem configuration_settled (run : Run driver auth schema depth {} trace final)
    (running : final.database.exited = false) (heard : final.signals = []) :
    (final.db = .database → final.database.isFile = true) ∧
    (final.db = .own → final.database.isFile = false ∧ final.driver = final.database.settings.driver ∧
      final.address = final.database.address) := by
  have chosen := (run_kept run).current running heard
  refine ⟨fun shared => ?_,fun own => ?_⟩
  · simpa only [Chosen,shared] using chosen
  · simpa only [Chosen,own] using chosen

/-- From a server to a file. -/
theorem configuration_settled_file : ∃ trace final, Run Connection.steady flaky Connection.bare 0 {} trace final ∧
    final.db = .database ∧ final.database.isFile = true := by
  have ran : ((Transition.execute (step Connection.steady flaky Connection.bare 2) (outage ++
      [.database (.applyConfig { driver := "QSQLITE", name := "local.db" } true),.activate]) {}).map fun s =>
      (s.db,s.database.exited,s.signals)) = some (.database,false,[]) := by decide +kernel
  obtain ⟨final,done,chosen⟩ := Option.map_eq_some_iff.mp ran
  obtain ⟨db,chosen⟩ := Prod.mk.inj chosen
  obtain ⟨running,heard⟩ := Prod.mk.inj chosen
  obtain ⟨trace,run,-⟩ := Transition.execute_run _ _ _ done
  exact ⟨trace,final,run,db,(configuration_settled run running heard).1 db⟩

/-- A request takes effect once if it has a result and not at all if it has none, on the
connection that is in use and on no other. -/
theorem query_served (run : Run driver auth schema depth {} trace final) (request : String)
    (plain : request ∉ Util.sqlitePragmas) :
    ∃ result s' new shared, query driver auth (depth + 2) request final = some (result,s') ∧
      s'.calls = final.calls ++ new ∧ s'.database.calls = final.database.calls ++ shared ∧
      (if final.db = .own then shared = [] else new = []) ∧
      (new ++ shared).countP (DriverCall.succeeds request) = result.isSome.toNat ∧
      (new ++ shared).countP (DriverCall.attempts request) ≤ 3 ∧
      (∀ answer, result = some answer → (new ++ shared).getLast? = some (.execute request (some answer))) ∧
      ∀ other ∉ Util.sqlitePragmas, other ≠ request →
        (new ++ shared).countP (DriverCall.attempts other) = 0 := by
  have sound := (run_kept run).sound
  by_cases own : final.db = .own
  · obtain ⟨result,s',done,-,same,new,calls,queried⟩ :=
      (query_own sound own request : Ensures (query driver auth (depth + 2) request) final _)
    refine ⟨result,s',new,[],done,calls,by simp [same],by simp [own],?_⟩
    rw [List.append_nil]
    exact ⟨queried.once,queried.attempts,queried.answer,queried.others⟩
  · obtain ⟨result,database,done,-,shared,calls,queried⟩ := (Connection.queryWith_spec (Connection.reopen_opens depth)
      sound.database plain : Ensures (Connection.query driver (depth + 2) request) final.database _)
    refine ⟨result,{ final with database },[],shared,?_,by simp,calls,by simp [own],?_⟩
    · simp [query,own,onDatabase,bind,StateT.bind,get,getThe,MonadStateOf.get,StateT.get]
      exact done
    rw [List.nil_append]
    have attempts := queried.attempts
    refine ⟨queried.once,?_,queried.answer,queried.others⟩
    split at attempts <;> omega

theorem query_served_outage : ∃ trace final, Run Connection.steady flaky Connection.bare 0 {} trace final ∧
    final.db = .own ∧ ∃ result s' new, query Connection.steady flaky 2 "SELECT 1;" final = some (result,s') ∧
      s'.calls = final.calls ++ new ∧ new.countP (DriverCall.succeeds "SELECT 1;") = result.isSome.toNat := by
  have ran : ((Transition.execute (step Connection.steady flaky Connection.bare 2) outage {}).map fun s =>
      s.db) = some .own := by decide +kernel
  obtain ⟨final,done,own⟩ := Option.map_eq_some_iff.mp ran
  obtain ⟨trace,run,-⟩ := Transition.execute_run _ _ _ done
  obtain ⟨result,s',new,shared,served,calls,-,apart,once,-⟩ := query_served run "SELECT 1;" (by decide)
  obtain rfl : shared = [] := by simpa [own] using apart
  exact ⟨trace,final,run,own,result,s',new,served,calls,by simpa using once⟩

/-- Once the server answers again, so does the connection of the authorization, however often
it has failed before. -/
theorem query_recovers (run : Run driver auth schema depth {} trace final) (own : final.db = .own)
    (request : String) (back : ∀ log, final.calls <+: log →
      (∀ address, auth.opens log address = true) ∧ (auth.executes log request).isSome = true) :
    ∃ answer s', query driver auth (depth + 2) request final = some (some answer,s') ∧
      s'.isOpen = true ∧ s'.failed = false ∧ s'.calls.length ≤ final.calls.length + 2 := by
  have sound := (run_kept run).sound
  have valid := sound.own own
  have served : Ensures (query driver auth (depth + 2) request) final fun result s' => result.isSome = true ∧
      s'.isOpen = true ∧ s'.failed = false ∧ s'.calls.length ≤ final.calls.length + 2 := by
    simp only [query,checkConnection,retry,Ensures.bind_iff,Ensures.get_iff,own,ne_eq,not_true_eq_false,if_false,
      if_true]
    cases isOpen : final.isOpen with
    | true =>
      have unfailed := sound.unfailed isOpen
      obtain ⟨answer,found⟩ := Option.isSome_iff_exists.mp (back final.calls List.prefix_rfl).2
      simp [valid,found,called,isOpen,unfailed]
    | false =>
      have same : final.close = final := by simp [close,isOpen]
      have opened := (back final.calls List.prefix_rfl).1 final.address
      obtain ⟨answer,found⟩ := Option.isSome_iff_exists.mp
        (back (final.calls ++ [.connect final.driver final.address true]) (List.prefix_append _ _)).2
      simp [same,opened,called,found]
  obtain ⟨result,s',done,found,rest⟩ := served
  obtain ⟨answer,rfl⟩ := Option.isSome_iff_exists.mp found
  exact ⟨answer,s',done,rest⟩

/-- The request that failed is made again. -/
theorem query_recovers_outage : ∃ trace final, Run Connection.steady flaky Connection.bare 0 {} trace final ∧
    final.failed = true ∧ ∃ answer s', query Connection.steady flaky 2 "SELECT 1;" final = some (some answer,s') ∧
      s'.failed = false := by
  have ran : ((Transition.execute (step Connection.steady flaky Connection.bare 2) outage {}).map fun s =>
      (s.db,s.failed,s.calls.countP DriverCall.isConnect)) = some (.own,true,2) := by decide +kernel
  obtain ⟨final,done,lost⟩ := Option.map_eq_some_iff.mp ran
  obtain ⟨own,lost⟩ := Prod.mk.inj lost
  obtain ⟨failed,connects⟩ := Prod.mk.inj lost
  obtain ⟨trace,run,-⟩ := Transition.execute_run _ _ _ done
  have back : ∀ log, final.calls <+: log →
      (∀ address, flaky.opens log address = true) ∧ (flaky.executes log "SELECT 1;").isSome = true := by
    intro log later
    have most : final.calls.countP DriverCall.isConnect ≤ log.countP DriverCall.isConnect := later.sublist.countP_le
    have twice : log.countP DriverCall.isConnect ≠ 1 := by omega
    simp [flaky,twice]
  obtain ⟨answer,s',served,-,sound,-⟩ := query_recovers run own "SELECT 1;" back
  exact ⟨trace,final,run,failed,answer,s',served,sound⟩

end AuthConnection

end SipWitch
