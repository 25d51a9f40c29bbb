import SipWitch.Ensures
import SipWitch.Mealy
import SipWitch.Transition

/-! The connection of the database thread: it is opened when a query needs it, closed when a
file has not been used for a while, and opened again when a server has dropped it. The driver
may answer anything; the values that are bound to a query are left out. -/
namespace SipWitch

abbrev SqlRecord := List (String × String)

structure SqlResult where
  lastInsertId : Int := 0
  rows : List SqlRecord := []
  deriving DecidableEq

structure DatabaseSettings where
  realm : String := ""
  uuid : String := ""
  driver : String := ""
  name : String := ""
  host : String := ""
  port : Nat := 0
  user : String := ""
  pass : String := ""
  deriving DecidableEq

structure DatabaseAddress where
  name : String
  host : Option String := none
  port : Option Nat := none
  user : Option String := none
  pass : Option String := none
  deriving DecidableEq

inductive DriverCall where
  | addDatabase (driver : String) (valid : Bool)
  | connect (driver : String) (address : DatabaseAddress) (opened : Bool)
  | execute (request : String) (result : Option SqlResult)
  | disconnect
  | removeDatabase
  deriving DecidableEq

/-- The answers depend on all that was asked before. -/
structure SqlDriver where
  valid : List DriverCall → String → Bool
  opens : List DriverCall → DatabaseAddress → Bool
  executes : List DriverCall → String → Option SqlResult

structure Connection where
  settings : DatabaseSettings := {}
  isOpen : Bool := false
  isValid : Bool := false
  failed : Bool := false
  /-- The timer is active. -/
  timer : Bool := false
  config : SqlRecord := []
  firstNumber : Int := -1
  lastNumber : Int := -1
  calls : List DriverCall := []
  /-- The process has ended itself. -/
  exited : Bool := false

namespace Util

def sqlitePragmas : List String :=
  ["PRAGMA locking_mode = EXCLUSIVE;","PRAGMA synchronous = OFF;","PRAGMA temp_store = MEMORY;"]

def dbIsFile (name : String) : Bool := name = "QSQLITE"

def pragmaQuery (name : String) : List String := if dbIsFile name then sqlitePragmas else []

end Util

namespace Connection

abbrev Program := StateT Connection Option

variable (driver : SqlDriver)

def isFile (s : Connection) : Bool := Util.dbIsFile s.settings.driver

def address (s : Connection) : DatabaseAddress :=
  if s.isFile then { name := s.settings.name }
  else
    { name := s.settings.name
      host := if s.settings.host.isEmpty then none else some s.settings.host
      port := if s.settings.port = 0 then none else some s.settings.port
      user := if s.settings.user.isEmpty then none else some s.settings.user
      pass := if s.settings.pass.isEmpty then none else some s.settings.pass }

def called (s : Connection) (call : DriverCall) : Connection := { s with calls := s.calls ++ [call] }

def exec (request : String) : Program (Option SqlResult) := do
  let s ← get
  let result := driver.executes s.calls request
  modify fun s => s.called (.execute request result)
  pure result

def close : Program Unit := do
  modify fun s => { s with timer := false }
  let s ← get
  if s.isOpen then modify fun s => { s with isOpen := false }.called .disconnect else pure ()
  if s.isValid then modify fun s => { s with isValid := false }.called .removeDatabase else pure ()
  modify fun s => { s with failed := false }

def addDatabase : Program Bool := do
  let s ← get
  let valid := driver.valid s.calls s.settings.driver
  modify fun s => { s with isValid := valid }.called (.addDatabase s.settings.driver valid)
  pure valid

def connect : Program Bool := do
  let s ← get
  let opened := driver.opens s.calls s.address
  modify fun s => { s with isOpen := opened }.called (.connect s.settings.driver s.address opened)
  pure opened

section

variable (reopen : Program Bool)

def resumeWith : Program Bool := do
  let s ← get
  if s.isFile then pure false
  else if s.failed then pure false
  else
    close
    let result ← reopen
    if result then pure true
    else
      modify fun s => { s with failed := true }
      pure false

/-- The loop that `runQuery`, `insert`, `getRecord` and `getRecords` have. -/
def queryWith (request : String) : Program (Option SqlResult) := do
  if ← reopen then retry (exec driver request) (resumeWith reopen) 3 else pure none

def runQueryWith (request : String) : Program Bool := Option.isSome <$> queryWith driver reopen request

def runQueriesWith : List String → Program Nat
  | [] => pure 0
  | request :: rest => do
    if ← runQueryWith driver reopen request then
      let count ← runQueriesWith rest
      pure (count + 1)
    else pure 0

/-- The queries that prepare a connection open it again in their turn. -/
def reopenWith : Program Bool := do
  let s ← get
  if s.failed then pure false
  else if s.isOpen then pure true
  else
    close
    if ← addDatabase driver then
      if ← connect driver then
        let _ ← runQueriesWith driver reopen (Util.pragmaQuery s.settings.driver)
        modify fun s => { s with timer := true }
        pure true
      else pure false
    else
      modify fun s => { s with failed := true }
      pure false

end

/-- With so many calls inside each other. -/
def reopen : Nat → Program Bool
  | 0 => fun _ => none
  | depth + 1 => reopenWith driver (reopen depth)

variable (depth : Nat)

def resume : Program Bool := resumeWith (reopen driver depth)

def query (request : String) : Program (Option SqlResult) := queryWith driver (reopen driver depth) request

def runQuery (request : String) : Program Bool := runQueryWith driver (reopen driver depth) request

def runQueries (list : List String) : Program Nat := runQueriesWith driver (reopen driver depth) list

def insert (request : String) : Program (Option Int) :=
  (fun result => result.map SqlResult.lastInsertId) <$> query driver depth request

def getRecord (request : String) : Program SqlRecord :=
  (fun result => (result.bind fun result => result.rows.head?).getD []) <$> query driver depth request

def getRecords (request : String) : Program (Option (List SqlRecord)) :=
  (fun result => result.map SqlResult.rows) <$> query driver depth request

end Connection

namespace DatabaseSettings

def ofConfig (upper : String → String) (config : String → String) (port : Nat) (network uuid : String) :
    DatabaseSettings :=
  let realm := config "realm"
  let realm :=
    if realm.isEmpty then
      if network.isEmpty ∨ network = "local" ∨ network = "localhost" ∨ network = "localdomain" then uuid
      else network
    else realm
  let host := config "database/host"
  let user := config "database/username"
  let driver := config "database"
  let driver := if driver.isEmpty ∧ host.isEmpty then "QSQLITE" else if driver.isEmpty then "QMYSQL" else driver
  let driver := upper driver
  let driver := if driver.toList.head? = some 'Q' then driver else "Q" ++ driver
  let driver := if driver = "QSQLITE3" then "QSQLITE" else driver
  let name := config "database/name"
  { realm
    uuid
    driver
    name := if Util.dbIsFile driver then "local.db" else if name.isEmpty then "REALM_" ++ upper realm else name
    host
    port
    user := if user.isEmpty then config "database/user" else user
    pass := config "database/password" }

end DatabaseSettings

/-- The tables of a new file and what is in them from the start, as lists of requests. -/
structure SqlSchema where
  sqliteTables : List String
  sqlitePreload : List String

namespace Util

def createQuery (schema : SqlSchema) (name : String) : List String :=
  if dbIsFile name then schema.sqliteTables else []

def preloadConfig (schema : SqlSchema) (name : String) : List String :=
  if dbIsFile name then schema.sqlitePreload else []

end Util

namespace SqlRecord

def value (record : SqlRecord) (column : String) : String := (record.lookup column).getD ""

end SqlRecord

namespace Connection

variable (driver : SqlDriver) (schema : SqlSchema) (depth : Nat)

/-- Requests that are run whether or not the others are. -/
def runEach : List String → Program Unit
  | [] => pure ()
  | request :: rest => do
    let _ ← runQuery driver depth request
    runEach rest

def insertAuthorize : String := "INSERT INTO Authorize(authname, authtype, authaccess) VALUES(?,?,?);"

def insertSwitch : String := "INSERT INTO Switches(uuid, version) VALUES (?,?);"

def cleanupMessages : Program Unit := runEach driver depth ["DELETE FROM Messages WHERE posted < ?"]

def readConfig (s : Connection) (result : Option SqlResult) : Connection :=
  let config := ((result.bind fun result => result.rows.head?)).getD s.config
  if config.length < 1 then { s with config, exited := true }
  else if config.value "dialplan" = "STD3" then { s with config, firstNumber := 100, lastNumber := 699 }
  else { s with config }

/-- What `create` has a new file filled with, or an old one tidied up by. -/
def fill (init : Bool) : Program Unit := do
  let s ← get
  if init then
    let _ ← runQueries driver depth (Util.createQuery schema s.settings.driver)
    runEach driver depth ["INSERT INTO Config(realm) VALUES(?);",insertSwitch,insertAuthorize,insertAuthorize,
      insertAuthorize,insertAuthorize,"INSERT INTO Extensions(extnbr, authname, display) VALUES (?,?,?);"]
    let _ ← runQueries driver depth (Util.preloadConfig schema s.settings.driver)
    pure ()
  else runEach driver depth (if s.isFile then ["UPDATE Config SET realm=? WHERE id=1;","VACUUM"] else [])

def updateSwitch : Program Unit := do
  if ← runQuery driver depth "UPDATE Switches SET version=? WHERE uuid=?;" then pure ()
  else runEach driver depth [insertSwitch]

/-- The end of `create`, unless the process has ended. -/
def loaded (init : Bool) : Program Unit := do
  let s ← get
  if s.exited then pure ()
  else
    updateSwitch driver depth
    if init then pure () else cleanupMessages driver depth

def create (existing : Bool) : Program Bool := do
  modify fun s => { s with failed := false }
  let s ← get
  let init := s.isFile && !existing
  if ← reopen driver depth then
    fill driver schema depth init
    let result ← exec driver "SELECT * FROM Config;"
    modify fun s => s.readConfig result
    loaded driver depth init
    pure true
  else pure false

def applyConfig (settings : DatabaseSettings) (existing : Bool) : Program Unit := do
  modify fun s => { s with settings, failed := false }
  let _ ← create driver schema depth existing
  pure ()

/-- The timer is a single shot. -/
def onTimeout : Program Unit := do
  modify fun s => { s with timer := false }
  let s ← get
  if s.isFile then close else pure ()

inductive Action where
  /-- `runQuery`, `insert`, `getRecord` or `getRecords`. -/
  | query (request : String)
  | queries (list : List String)
  | timeout
  /-- Whether there is a file of that name. -/
  | applyConfig (settings : DatabaseSettings) (existing : Bool)
  deriving DecidableEq

def perform : Action → Program Unit
  | .query request => do
    let _ ← query driver depth request
    pure ()
  | .queries list => do
    let _ ← runQueries driver depth list
    pure ()
  | .timeout => onTimeout
  | .applyConfig settings existing => applyConfig driver schema depth settings existing

def enabled (s : Connection) : Action → Bool
  | .timeout => !s.exited && s.timer
  | _ => !s.exited

def step (s : Connection) (a : Action) : Option Connection :=
  if s.enabled a then (perform driver schema depth a s).map Prod.snd else none

end Connection

inductive SqlPhase where
  | closed
  | added
  /-- With the requests that come before all others. -/
  | opened (pending : List String)
  deriving DecidableEq

namespace SqlPhase

/-- What the driver is asked and when: nothing is run on a connection that is not open, or
before the pragmas have been run or one of them has failed. -/
def next : SqlPhase → DriverCall → Option SqlPhase
  | .closed, .addDatabase _ valid => some (if valid then .added else .closed)
  | .added, .removeDatabase => some .closed
  | .added, .connect driver _ ok => some (if ok then .opened (Util.pragmaQuery driver) else .added)
  | .opened [], .execute _ _ => some (.opened [])
  | .opened (pragma :: rest), .execute request result =>
    if request = pragma then some (.opened (if result.isSome then rest else [])) else none
  | .opened [], .disconnect => some .added
  | _, _ => none

end SqlPhase

namespace DriverCall

def isConnect : DriverCall → Bool
  | .connect .. => true
  | _ => false

def attempts (request : String) : DriverCall → Bool
  | .execute other _ => other = request
  | _ => false

def succeeds (request : String) : DriverCall → Bool
  | .execute other result => other = request && result.isSome
  | _ => false

end DriverCall

namespace Connection

open Mealy

variable {driver : SqlDriver} {schema : SqlSchema} {s next : Connection} {reopen : Program Bool}

def phase (s : Connection) : SqlPhase :=
  if s.isOpen then .opened [] else if s.isValid then .added else .closed

/-- What holds of the connection between the queries. -/
structure Sound (s : Connection) : Prop where
  passed : accept SqlPhase.next .closed s.calls = some s.phase
  valid : s.isOpen = true → s.isValid = true
  failed : s.failed = true → s.isOpen = false
  timer : s.timer = true → s.isOpen = true

def closed (s : Connection) : Connection :=
  { s with
    timer := false, isOpen := false, isValid := false, failed := false
    calls := s.calls ++ ((if s.isOpen then [.disconnect] else []) ++ if s.isValid then [.removeDatabase] else []) }

theorem close_eq : close s = some ((),s.closed) := by
  cases isOpen : s.isOpen <;> cases isValid : s.isValid <;>
    simp [close,closed,isOpen,isValid,called,bind,pure,modify,modifyGet,MonadStateOf.modifyGet,StateT.modifyGet,
      StateT.bind,get,getThe,MonadStateOf.get,StateT.get]

@[simp] theorem close_iff {post : Unit → Connection → Prop} : Ensures close s post ↔ post () s.closed := by
  constructor
  · exact fun ensures => ensures.holds close_eq
  · exact fun holds => ⟨(),s.closed,close_eq,holds⟩

theorem closed_sound (sound : s.Sound) : s.closed.Sound := by
  refine ⟨?_,by simp [closed],by simp [closed],by simp [closed]⟩
  have passed := sound.passed
  cases isOpen : s.isOpen with
  | true =>
    simp [closed,phase,accept_append,passed,isOpen,sound.valid isOpen,SqlPhase.next]
  | false => cases isValid : s.isValid <;> simp [closed,phase,accept_append,passed,isOpen,isValid,SqlPhase.next]

@[simp] theorem exec_iff {request : String} {post : Option SqlResult → Connection → Prop} :
    Ensures (exec driver request) s post ↔
      post (driver.executes s.calls request) (s.called (.execute request (driver.executes s.calls request))) := by
  simp [exec]

@[simp] theorem addDatabase_iff {post : Bool → Connection → Prop} :
    Ensures (addDatabase driver) s post ↔
      post (driver.valid s.calls s.settings.driver)
        ({ s with isValid := driver.valid s.calls s.settings.driver }.called
          (.addDatabase s.settings.driver (driver.valid s.calls s.settings.driver))) := by
  simp [addDatabase]

@[simp] theorem connect_iff {post : Bool → Connection → Prop} :
    Ensures (connect driver) s post ↔
      post (driver.opens s.calls s.address)
        ({ s with isOpen := driver.opens s.calls s.address }.called
          (.connect s.settings.driver s.address (driver.opens s.calls s.address))) := by
  simp [connect]

/-- It leaves a connection alone that is open. -/
def Reuses (reopen : Program Bool) : Prop :=
  ∀ s : Connection, s.isOpen = true → s.failed = false → reopen s = some (true,s)

theorem Reuses.ensures (reuses : Reuses reopen) (isOpen : s.isOpen = true) (sound : s.failed = false)
    {post : Bool → Connection → Prop} (holds : post true s) : Ensures reopen s post :=
  ⟨true,s,reuses s isOpen sound,holds⟩

theorem reopenWith_reuses : Reuses (reopenWith driver reopen) := by
  intro s isOpen sound
  have opened : Ensures (reopenWith driver reopen) s fun ok s' => ok = true ∧ s' = s := by
    simp [reopenWith,isOpen,sound]
  obtain ⟨_,_,done,rfl,rfl⟩ := opened
  exact done

/-- A file is not opened again, so that a request is tried once. -/
theorem retry_file (file : s.isFile = true) (request : String) (n : Nat) :
    Ensures (retry (exec driver request) (resumeWith reopen) (n + 1)) s fun result s' =>
      s' = s.called (.execute request result) := by
  simp only [retry,Ensures.bind_iff,exec_iff]
  cases result : driver.executes s.calls request with
  | some _ => simp
  | none =>
    have same : (s.called (.execute request none)).isFile = true := file
    simp [resumeWith,same]

theorem queryWith_file (reuses : Reuses reopen) (file : s.isFile = true) (isOpen : s.isOpen = true)
    (sound : s.failed = false) (request : String) :
    Ensures (queryWith driver reopen request) s fun result s' =>
      s' = s.called (.execute request result) := by
  apply Ensures.bind_iff.mpr
  apply reuses.ensures isOpen sound
  exact retry_file file request 2

/-- The pragmas, up to the first that fails. -/
theorem runQueriesWith_file (reuses : Reuses reopen) (list : List String) (file : s.isFile = true)
    (isOpen : s.isOpen = true) (sound : s.failed = false) :
    Ensures (runQueriesWith driver reopen list) s fun _ s' => ∃ new, s' = { s with calls := s.calls ++ new } ∧
      accept SqlPhase.next (.opened list) new = some (.opened []) ∧
      ∀ call ∈ new, ∃ request ∈ list, ∃ result, call = .execute request result := by
  induction list generalizing s with
  | nil => exact Ensures.pure_iff.mpr ⟨[],by simp,rfl,by simp⟩
  | cons request rest ih =>
    simp only [runQueriesWith,runQueryWith,Ensures.bind_iff,Ensures.map_iff]
    refine (queryWith_file reuses file isOpen sound request).mono fun result s' same => ?_
    subst same
    cases result with
    | none => exact Ensures.pure_iff.mpr ⟨[.execute request none],rfl,by simp [SqlPhase.next],by simp⟩
    | some result =>
      simp only [Option.isSome_some,if_true,Ensures.bind_iff,Ensures.pure_iff]
      refine (ih (s := s.called (.execute request (some result))) file isOpen sound).mono ?_
      rintro - _ ⟨new,rfl,passed,all⟩
      refine ⟨.execute request (some result) :: new,by simp [called],by simp [SqlPhase.next,passed],?_⟩
      intro call member
      rcases List.mem_cons.mp member with rfl | later
      · exact ⟨request,List.mem_cons_self,_,rfl⟩
      · obtain ⟨other,listed,result,rfl⟩ := all call later
        exact ⟨other,List.mem_cons_of_mem _ listed,result,rfl⟩

theorem pragmas_spec (reuses : Reuses reopen) (isOpen : s.isOpen = true) (sound : s.failed = false)
    {name : String} (named : s.settings.driver = name) :
    Ensures (runQueriesWith driver reopen (Util.pragmaQuery name)) s fun _ s' =>
      ∃ new, s' = { s with calls := s.calls ++ new } ∧
      accept SqlPhase.next (.opened (Util.pragmaQuery name)) new = some (.opened []) ∧
      ∀ call ∈ new, ∃ request ∈ Util.sqlitePragmas, ∃ result, call = .execute request result := by
  subst named
  cases file : s.isFile with
  | true =>
    have listed : Util.pragmaQuery s.settings.driver = Util.sqlitePragmas := if_pos file
    rw [listed]
    exact runQueriesWith_file reuses _ file isOpen sound
  | false =>
    have empty : Util.pragmaQuery s.settings.driver = [] := if_neg (by simpa [isFile] using file)
    rw [empty]
    exact Ensures.pure_iff.mpr ⟨[],by simp,rfl,by simp⟩

structure Follows (s s' : Connection) : Prop where
  sound : s'.Sound
  settings : s'.settings = s.settings
  exited : s'.exited = s.exited
  idle : (s.isOpen = true → s.timer = true) → s'.isOpen = true → s'.timer = true
  file : s.isFile = true → s.isOpen = true → s'.isOpen = true

theorem Follows.refl (sound : s.Sound) : Follows s s := ⟨sound,rfl,rfl,id,fun _ => id⟩

theorem Follows.trans {s' s'' : Connection} (first : Follows s s') (second : Follows s' s'') : Follows s s'' := by
  refine ⟨second.sound,second.settings.trans first.settings,second.exited.trans first.exited,
    fun idle => second.idle (first.idle idle),fun file isOpen => second.file ?_ (first.file file isOpen)⟩
  simpa only [isFile,first.settings] using file

/-- The calls of a connection that is opened: the driver is asked once to connect, and runs
nothing but pragmas. -/
structure Opening (new : List DriverCall) : Prop where
  connects : new.countP DriverCall.isConnect ≤ 1
  runs : ∀ request ∉ Util.sqlitePragmas, new.countP (DriverCall.attempts request) = 0

theorem reopenWith_spec (reuses : Reuses reopen) (sound : s.Sound) :
    Ensures (reopenWith driver reopen) s fun ok s' => Follows s s' ∧ (ok = true ↔ s'.isOpen = true) ∧
      ∃ new, s'.calls = s.calls ++ new ∧ Opening new := by
  have same : Follows s s := Follows.refl sound
  have none : ∃ new, s.calls = s.calls ++ new ∧ Opening new := ⟨[],by simp,by simp,by simp⟩
  simp only [reopenWith,Ensures.bind_iff,Ensures.get_iff]
  split
  · rename_i failed
    exact Ensures.pure_iff.mpr ⟨same,by simp [sound.failed failed],none⟩
  rename_i fresh
  split
  · rename_i isOpen
    exact Ensures.pure_iff.mpr ⟨same,by simp [isOpen],none⟩
  rename_i shut
  have shut : s.isOpen = false := by simpa using shut
  have closed := (closed_sound sound).passed
  have phase : s.closed.phase = .closed := by simp [Connection.closed,Connection.phase]
  rw [phase] at closed
  obtain ⟨before,calls,quiet⟩ : ∃ before, s.closed.calls = s.calls ++ before ∧
      before.countP DriverCall.isConnect = 0 ∧
      ∀ request, before.countP (DriverCall.attempts request) = 0 := by
    refine ⟨_,rfl,?_,fun request => ?_⟩
    · cases s.isValid <;> simp [shut,DriverCall.isConnect]
    · cases s.isValid <;> simp [shut,DriverCall.attempts]
  have closedSettings : s.closed.settings = s.settings := rfl
  have closedExited : s.closed.exited = s.exited := rfl
  have closedOpen : s.closed.isOpen = false := rfl
  have closedTimer : s.closed.timer = false := rfl
  have closedFailed : s.closed.failed = false := rfl
  have file : s.closed.isFile = Util.dbIsFile s.settings.driver := rfl
  simp only [Ensures.bind_iff,close_iff,addDatabase_iff]
  generalize s.closed = c at *
  obtain ⟨unconnected,idle⟩ := quiet
  cases valid : driver.valid c.calls c.settings.driver with
  | false =>
    simp only [Bool.false_eq_true,if_false,Ensures.bind_iff,Ensures.modify_iff,Ensures.pure_iff]
    refine ⟨⟨⟨?_,?_,?_,?_⟩,closedSettings,closedExited,?_,by simp [shut]⟩,?_,
      before ++ [.addDatabase c.settings.driver false],
      ?_,?_,?_⟩
    · simp [called,accept_append,closed,SqlPhase.next,Connection.phase,closedOpen]
    · simp [called,closedOpen]
    · simp [called,closedOpen]
    · simp [called,closedTimer]
    · simp [called,closedOpen]
    · simp [called,closedOpen]
    · simp [called,calls]
    · simp [unconnected,DriverCall.isConnect]
    · simp [idle,DriverCall.attempts]
  | true =>
    simp only [if_true,Ensures.bind_iff,connect_iff]
    generalize ({ c with isValid := true }.called (.addDatabase c.settings.driver true)).address = address
    generalize driver.opens _ address = opened
    cases opened with
    | false =>
      simp only [Bool.false_eq_true,if_false,Ensures.pure_iff]
      refine ⟨⟨⟨?_,?_,?_,?_⟩,closedSettings,closedExited,?_,by simp [shut]⟩,?_,
      before ++ [.addDatabase c.settings.driver true,
        .connect c.settings.driver address false],?_,?_,?_⟩
      · simp [called,accept_append,closed,SqlPhase.next,Connection.phase]
      · simp [called]
      · simp [called]
      · simp [called,closedTimer]
      · simp [called]
      · simp [called]
      · simp [called,calls]
      · simp [unconnected,DriverCall.isConnect]
      · simp [idle,DriverCall.attempts]
    | true =>
      simp only [if_true,Ensures.bind_iff]
      refine Ensures.mono (pragmas_spec reuses ?_ ?_ ?_) ?_
      · rfl
      · exact closedFailed
      · exact congrArg DatabaseSettings.driver closedSettings
      rintro - _ ⟨new,rfl,passed,runs⟩
      simp only [Ensures.modify_iff,Ensures.pure_iff]
      have pragmas : new.countP DriverCall.isConnect = 0 ∧
          ∀ request ∉ Util.sqlitePragmas, new.countP (DriverCall.attempts request) = 0 := by
        refine ⟨List.countP_eq_zero.mpr fun call member => ?_,fun request other =>
          List.countP_eq_zero.mpr fun call member => ?_⟩
        · obtain ⟨pragma,-,result,rfl⟩ := runs call member
          simp [DriverCall.isConnect]
        · obtain ⟨pragma,listed,result,rfl⟩ := runs call member
          have apart : pragma ≠ request := fun here => other (here ▸ listed)
          simp [DriverCall.attempts,apart]
      refine ⟨⟨⟨?_,?_,?_,?_⟩,closedSettings,closedExited,?_,by simp [shut]⟩,?_,
      before ++ [.addDatabase c.settings.driver true,
        .connect c.settings.driver address true] ++ new,?_,?_,?_⟩
      · simp only [called,List.append_assoc,accept_append,closed,Connection.phase,if_true,Option.bind_some]
        simp [SqlPhase.next,closedSettings,passed]
      · simp [called]
      · simp [called,closedFailed]
      · simp [called]
      · simp [called]
      · simp [called]
      · simp [called,calls]
      · simp [List.countP_cons,unconnected,pragmas.1,DriverCall.isConnect]
      · intro request other
        simp [idle,pragmas.2 request other,DriverCall.attempts]

/-- It opens a connection that is not open. -/
def Opens (reopen : Program Bool) : Prop :=
  ∀ s : Connection, s.Sound → Ensures reopen s fun ok s' => Follows s s' ∧ (ok = true ↔ s'.isOpen = true) ∧
    ∃ new, s'.calls = s.calls ++ new ∧ Opening new

theorem resumeWith_spec (opens : Opens reopen) (sound : s.Sound) :
    Ensures (resumeWith reopen) s fun again s' => Follows s s' ∧
      (again = true → s'.isOpen = true ∧ s.isFile = false) ∧
      ∃ new, s'.calls = s.calls ++ new ∧ Opening new ∧ (s.isFile = true → new = []) := by
  have same : Follows s s := Follows.refl sound
  have none : ∃ new, s.calls = s.calls ++ new ∧ Opening new ∧ (s.isFile = true → new = []) :=
    ⟨[],by simp,⟨by simp,by simp⟩,by simp⟩
  simp only [resumeWith,Ensures.bind_iff,Ensures.get_iff]
  split
  · exact Ensures.pure_iff.mpr ⟨same,by simp,none⟩
  rename_i server
  split
  · exact Ensures.pure_iff.mpr ⟨same,by simp,none⟩
  simp only [Ensures.bind_iff,close_iff]
  refine (opens _ (closed_sound sound)).mono ?_
  rintro ok s' ⟨follows,opened,new,calls,opening⟩
  obtain ⟨before,quiet,unconnected,idle⟩ : ∃ before, s.closed.calls = s.calls ++ before ∧
      before.countP DriverCall.isConnect = 0 ∧
      ∀ request, before.countP (DriverCall.attempts request) = 0 := by
    refine ⟨_,rfl,?_,fun request => ?_⟩
    · cases s.isOpen <;> cases s.isValid <;> simp [DriverCall.isConnect]
    · cases s.isOpen <;> cases s.isValid <;> simp [DriverCall.attempts]
  have called : s'.calls = s.calls ++ (before ++ new) := by rw [calls,quiet,List.append_assoc]
  have within : Opening (before ++ new) := by
    refine ⟨?_,fun request other => ?_⟩
    · simpa [unconnected] using opening.connects
    · simp [idle,opening.runs request other]
  have idle : s'.isOpen = true → s'.timer = true := follows.idle (by simp [closed])
  cases ok with
  | true =>
    simp only [if_true,Ensures.pure_iff]
    exact ⟨⟨follows.sound,follows.settings,follows.exited,fun _ => idle,fun file => absurd file server⟩,
      fun _ => ⟨opened.mp rfl,by simpa using server⟩,_,called,within,fun file => absurd file server⟩
  | false =>
    have shut : s'.isOpen = false := by simpa using opened
    simp only [Bool.false_eq_true,if_false,Ensures.bind_iff,Ensures.modify_iff,Ensures.pure_iff]
    exact ⟨⟨⟨follows.sound.passed,follows.sound.valid,fun _ => shut,follows.sound.timer⟩,follows.settings,
      follows.exited,fun _ => idle,fun file => absurd file server⟩,by simp,_,called,within,
        fun file => absurd file server⟩

theorem called_follows (sound : s.Sound) (isOpen : s.isOpen = true) (request : String)
    (result : Option SqlResult) : Follows s (s.called (.execute request result)) := by
  refine ⟨⟨?_,sound.valid,sound.failed,sound.timer⟩,rfl,rfl,id,fun _ => id⟩
  simp [called,accept_append,sound.passed,phase,isOpen,SqlPhase.next]

structure Queried (request : String) (file : Bool) (result : Option SqlResult) (new : List DriverCall) : Prop where
  once : new.countP (DriverCall.succeeds request) = result.isSome.toNat
  answer : ∀ answer, result = some answer → new.getLast? = some (.execute request (some answer))
  attempts : new.countP (DriverCall.attempts request) ≤ if file then 1 else 3
  connects : new.countP DriverCall.isConnect ≤ if file then 1 else 4
  others : ∀ other ∉ Util.sqlitePragmas, other ≠ request → new.countP (DriverCall.attempts other) = 0

/-- Calls that run nothing but pragmas. -/
def Aside (call : DriverCall) : Prop := ∀ request ∉ Util.sqlitePragmas, call.attempts request = false

theorem Opening.aside {new : List DriverCall} (opening : Opening new) (call : DriverCall) (member : call ∈ new) :
    Aside call := by
  intro request plain
  have none := List.countP_eq_zero.mp (opening.runs request plain) call member
  simpa using none

theorem Aside.apart {call : DriverCall} {request : String} (aside : Aside call)
    (plain : request ∉ Util.sqlitePragmas) :
    call.attempts request = false ∧ call.succeeds request = false := by
  have quiet := aside request plain
  refine ⟨quiet,?_⟩
  cases call <;> simp_all [DriverCall.succeeds,DriverCall.attempts]

theorem Opening.queried {new : List DriverCall} (opening : Opening new) {request : String}
    (plain : request ∉ Util.sqlitePragmas) (file : Bool) : Queried request file none new := by
  have one := opening.connects
  have quiet := opening.runs request plain
  have none : new.countP (DriverCall.succeeds request) = 0 :=
    List.countP_eq_zero.mpr fun call member => by simp [((opening.aside call member).apart plain).2]
  refine ⟨by simpa using none,by simp,by simp [quiet],?_,fun other apart _ => opening.runs other apart⟩
  split <;> omega

/-- What is run on a connection that is open for it. -/
theorem retry_spec (opens : Opens reopen) (sound : s.Sound) (isOpen : s.isOpen = true) {request : String}
    (plain : request ∉ Util.sqlitePragmas) :
    Ensures (retry (exec driver request) (resumeWith reopen) 3) s fun result s' => Follows s s' ∧
      ∃ new, s'.calls = s.calls ++ new ∧ Retried (DriverCall.execute request) Aside (DriverCall.attempts request)
        (DriverCall.succeeds request) DriverCall.isConnect 3 result new := by
  apply retry_log calls (.execute request) Aside (DriverCall.attempts request) (DriverCall.succeeds request)
    DriverCall.isConnect (fun now => Follows s now ∧ now.isOpen = true) (Follows s)
  · intro r
    cases r <;> simp [DriverCall.attempts,DriverCall.succeeds,DriverCall.isConnect]
  · exact fun call aside => aside.apart plain
  · exact fun now ready => ready.1
  · rintro now ⟨follows,isOpen⟩
    have tried := called_follows follows.sound isOpen request
    refine exec_iff.mpr ⟨rfl,?_⟩
    cases driver.executes now.calls request with
    | some answer => exact follows.trans (tried _)
    | none =>
      refine (resumeWith_spec opens (tried none).sound).mono ?_
      rintro again later ⟨next,resumed,new,calls,opening,-⟩
      have whole := (follows.trans (tried none)).trans next
      refine ⟨?_,new,calls,opening.connects,opening.aside⟩
      cases again with
      | true => exact ⟨whole,(resumed rfl).1⟩
      | false => exact whole
  · exact ⟨.refl sound,isOpen⟩

theorem queryWith_spec (opens : Opens reopen) (sound : s.Sound) {request : String}
    (plain : request ∉ Util.sqlitePragmas) :
    Ensures (queryWith driver reopen request) s fun result s' => Follows s s' ∧
      ∃ new, s'.calls = s.calls ++ new ∧ Queried request s.isFile result new := by
  refine Ensures.bind_iff.mpr ((opens s sound).mono ?_)
  rintro ok opened ⟨follows,isOpen,opening,calls,quiet⟩
  cases ok with
  | false => exact Ensures.pure_iff.mpr ⟨follows,opening,calls,quiet.queried plain _⟩
  | true =>
    have isOpen := isOpen.mp rfl
    have before := quiet.queried plain s.isFile
    have one := quiet.connects
    have same : opened.isFile = s.isFile :=
      congrArg (fun settings : DatabaseSettings => Util.dbIsFile settings.driver) follows.settings
    cases file : s.isFile with
    | true =>
      refine (retry_file (same.trans file) request 2).mono ?_
      rintro result _ rfl
      refine ⟨follows.trans (called_follows follows.sound isOpen request result),
        opening ++ [.execute request result],by rw [called,calls,List.append_assoc],?_,?_,?_,?_,?_⟩
      · cases result <;> simp [before.once,DriverCall.succeeds]
      · rintro answer rfl
        simp
      · simp [quiet.runs request plain,DriverCall.attempts]
      · simpa [DriverCall.isConnect] using one
      · intro other apart differs
        simp [quiet.runs other apart,DriverCall.attempts,differs.symm]
    | false =>
      refine (retry_spec opens follows.sound isOpen plain).mono ?_
      rintro result last ⟨next,new,added,retried⟩
      refine ⟨follows.trans next,opening ++ new,by rw [added,calls,List.append_assoc],?_,?_,?_,?_,?_⟩
      · simpa [before.once] using retried.once
      · intro answer found
        have tail := retried.last answer found
        rw [List.getLast?_append,tail,found]
        rfl
      · simpa [quiet.runs request plain] using retried.tries
      · have := retried.costs
        simp
        omega
      · intro other apart differs
        have others : new.countP (DriverCall.attempts other) = 0 := by
          refine List.countP_eq_zero.mpr fun call member => ?_
          rcases retried.rest call member with aside | ⟨r,rfl⟩
          · simp [aside other apart]
          · simp [DriverCall.attempts,differs.symm]
        simp [quiet.runs other apart,others]

theorem queryWith_follows (opens : Opens reopen) (sound : s.Sound) (request : String) :
    Ensures (queryWith driver reopen request) s fun _ s' => Follows s s' := by
  refine Ensures.bind_iff.mpr ((opens s sound).mono ?_)
  rintro ok s' ⟨follows,opened,-⟩
  cases ok with
  | false => exact Ensures.pure_iff.mpr follows
  | true =>
    refine (retry_ensures (fun left now => Follows s now ∧ (0 < left → now.isOpen = true))
      (fun _ now => Follows s now) (Follows s) ?_ (fun _ now => now.1) 3 s'
      ⟨follows,fun _ => opened.mp rfl⟩).mono ?_
    · rintro n now ⟨follows,isOpen⟩
      refine exec_iff.mpr ?_
      have here := called_follows follows.sound (isOpen (by omega)) request (driver.executes now.calls request)
      generalize driver.executes now.calls request = result at *
      cases result with
      | some answer => exact follows.trans here
      | none =>
        refine (resumeWith_spec opens here.sound).mono ?_
        rintro again later ⟨next,resumed,-⟩
        have whole := (follows.trans here).trans next
        cases again with
        | true => exact ⟨whole,fun _ => (resumed rfl).1⟩
        | false => exact whole
    · intro result now holds
      cases result <;> exact holds

/-- Two calls inside each other are all it takes. -/
theorem reopen_opens (depth : Nat) : Opens (Connection.reopen driver (depth + 2)) :=
  fun _ => reopenWith_spec reopenWith_reuses

section

variable (depth : Nat) (sound : s.Sound)

include sound

theorem query_follows (request : String) :
    Ensures (query driver (depth + 2) request) s fun _ s' => Follows s s' :=
  queryWith_follows (reopen_opens depth) sound request

theorem runQuery_follows (request : String) :
    Ensures (runQuery driver (depth + 2) request) s fun _ s' => Follows s s' :=
  Ensures.map_iff.mpr (query_follows depth sound request)

theorem runQueries_follows (list : List String) :
    Ensures (runQueries driver (depth + 2) list) s fun _ s' => Follows s s' := by
  induction list generalizing s with
  | nil => exact Ensures.pure_iff.mpr (.refl sound)
  | cons request rest ih =>
    refine Ensures.bind_iff.mpr ((runQuery_follows depth sound request).mono fun ok middle first => ?_)
    cases ok with
    | false => exact Ensures.pure_iff.mpr first
    | true =>
      refine Ensures.bind_iff.mpr ((ih first.sound).mono fun _ _ second => ?_)
      exact Ensures.pure_iff.mpr (first.trans second)

theorem runEach_follows (list : List String) :
    Ensures (runEach driver (depth + 2) list) s fun _ s' => Follows s s' := by
  induction list generalizing s with
  | nil => exact Ensures.pure_iff.mpr (.refl sound)
  | cons request rest ih =>
    refine Ensures.bind_iff.mpr ((runQuery_follows depth sound request).mono fun _ _ first => ?_)
    exact (ih first.sound).mono fun _ _ second => first.trans second

/-- A connection that was open stays so: what a server is asked could close it. -/
theorem fill_follows (init : Bool) (file : init = true → s.isFile = true) :
    Ensures (fill driver schema (depth + 2) init) s fun _ s' =>
      Follows s s' ∧ (s.isOpen = true → s'.isOpen = true) := by
  simp only [fill,Ensures.bind_iff,Ensures.get_iff]
  split
  · rename_i init
    simp only [Ensures.bind_iff,Ensures.pure_iff]
    refine (runQueries_follows depth sound _).mono fun _ _ first => ?_
    refine (runEach_follows depth first.sound _).mono fun _ _ second => ?_
    refine (runQueries_follows depth second.sound _).mono fun _ _ third => ?_
    have whole := (first.trans second).trans third
    exact ⟨whole,whole.file (file init)⟩
  · cases server : s.isFile with
    | true => exact (runEach_follows depth sound _).mono fun _ _ whole => ⟨whole,whole.file server⟩
    | false => exact Ensures.pure_iff.mpr ⟨.refl sound,id⟩

theorem updateSwitch_follows : Ensures (updateSwitch driver (depth + 2)) s fun _ s' => Follows s s' := by
  refine Ensures.bind_iff.mpr ((runQuery_follows depth sound _).mono fun ok _ first => ?_)
  cases ok with
  | true => exact Ensures.pure_iff.mpr first
  | false => exact (runEach_follows depth first.sound _).mono fun _ _ second => first.trans second

theorem loaded_follows (init : Bool) : Ensures (loaded driver (depth + 2) init) s fun _ s' => Follows s s' := by
  simp only [loaded,Ensures.bind_iff,Ensures.get_iff]
  split
  · exact Ensures.pure_iff.mpr (.refl sound)
  refine Ensures.bind_iff.mpr ((updateSwitch_follows depth sound).mono fun _ _ first => ?_)
  cases init with
  | true => exact Ensures.pure_iff.mpr first
  | false => exact (runEach_follows depth first.sound _).mono fun _ _ later => first.trans later

end

structure Keeps (s s' : Connection) : Prop where
  sound : s'.Sound
  idle : (s.isOpen = true → s.timer = true) → s'.isOpen = true → s'.timer = true

theorem Follows.keeps {s' : Connection} (follows : Follows s s') : Keeps s s' := ⟨follows.sound,follows.idle⟩

theorem Keeps.trans {s' s'' : Connection} (first : Keeps s s') (second : Keeps s' s'') : Keeps s s'' :=
  ⟨second.sound,fun idle => second.idle (first.idle idle)⟩

theorem readConfig_keeps (sound : s.Sound) (result : Option SqlResult) : Keeps s (s.readConfig result) := by
  simp only [readConfig]
  split
  · exact ⟨⟨sound.passed,sound.valid,sound.failed,sound.timer⟩,id⟩
  split
  · exact ⟨⟨sound.passed,sound.valid,sound.failed,sound.timer⟩,id⟩
  · exact ⟨⟨sound.passed,sound.valid,sound.failed,sound.timer⟩,id⟩

theorem create_keeps (depth : Nat) (sound : s.Sound) (existing : Bool) :
    Ensures (create driver schema (depth + 2) existing) s fun _ s' => Keeps s s' := by
  have reset : Keeps s { s with failed := false } := ⟨⟨sound.passed,sound.valid,by simp,sound.timer⟩,id⟩
  simp only [create,Ensures.bind_iff,Ensures.get_iff,Ensures.modify_iff]
  generalize { s with failed := false } = fresh at *
  refine (reopen_opens depth fresh reset.sound).mono ?_
  rintro ok opened ⟨first,isOpen,-⟩
  cases ok with
  | false => exact Ensures.pure_iff.mpr (reset.trans first.keeps)
  | true =>
    simp only [if_true,Ensures.bind_iff,exec_iff,Ensures.modify_iff,Ensures.pure_iff]
    have same : opened.isFile = fresh.isFile := by simp only [isFile,first.settings]
    refine (fill_follows depth first.sound _ fun init => ?_).mono ?_
    · rw [same]
      exact (Bool.and_eq_true_iff.mp init).1
    rintro _ filled ⟨second,kept⟩
    have isOpen := kept (isOpen.mp rfl)
    have third := called_follows second.sound isOpen "SELECT * FROM Config;"
      (driver.executes filled.calls "SELECT * FROM Config;")
    have fourth := readConfig_keeps third.sound (driver.executes filled.calls "SELECT * FROM Config;")
    refine (loaded_follows depth fourth.sound _).mono fun _ _ fifth => ?_
    exact ((reset.trans (first.trans (second.trans third)).keeps).trans fourth).trans fifth.keeps

theorem onTimeout_spec (sound : s.Sound) :
    Ensures onTimeout s fun _ s' => s'.Sound ∧ (s.isFile = true → s'.isOpen = false) := by
  simp only [onTimeout,Ensures.bind_iff,Ensures.get_iff,Ensures.modify_iff]
  have fired : Sound { s with timer := false } := ⟨sound.passed,sound.valid,sound.failed,by simp⟩
  split
  · exact close_iff.mpr ⟨closed_sound fired,fun _ => rfl⟩
  · rename_i server
    exact Ensures.pure_iff.mpr ⟨fired,fun file => absurd file server⟩

/-- A file is in use, or its timer is not. -/
def Idle (s : Connection) : Prop := s.isOpen = true → s.timer = true

theorem perform_spec (depth : Nat) (sound : s.Sound) (a : Action) :
    Ensures (perform driver schema (depth + 2) a) s fun _ s' => s'.Sound ∧
      ((a = .timeout → s.isFile = true) → Idle s → Idle s') := by
  cases a with
  | query request =>
    refine Ensures.bind_iff.mpr ((query_follows depth sound request).mono fun _ _ follows => ?_)
    exact Ensures.pure_iff.mpr ⟨follows.sound,fun _ => follows.idle⟩
  | queries list =>
    refine Ensures.bind_iff.mpr ((runQueries_follows depth sound list).mono fun _ _ follows => ?_)
    exact Ensures.pure_iff.mpr ⟨follows.sound,fun _ => follows.idle⟩
  | timeout =>
    refine (onTimeout_spec sound).mono ?_
    rintro _ s' ⟨later,shut⟩
    refine ⟨later,fun file _ isOpen => ?_⟩
    simp [shut (file rfl)] at isOpen
  | applyConfig settings existing =>
    simp only [perform,applyConfig,Ensures.bind_iff,Ensures.modify_iff,Ensures.pure_iff]
    have told : Sound { s with settings, failed := false } := ⟨sound.passed,sound.valid,by simp,sound.timer⟩
    exact (create_keeps depth told existing).mono fun _ _ keeps => ⟨keeps.sound,fun _ => keeps.idle⟩

section

variable {depth : Nat} {a : Action}

theorem step_spec (sound : s.Sound) (moved : step driver schema (depth + 2) s a = some next) :
    next.Sound ∧ ((a = .timeout → s.isFile = true) → Idle s → Idle next) := by
  simp only [step] at moved
  split at moved
  · obtain ⟨⟨_,_⟩,done,rfl⟩ := Option.map_eq_some_iff.mp moved
    exact (perform_spec depth sound a).holds done
  · contradiction

abbrev Run (driver : SqlDriver) (schema : SqlSchema) (depth : Nat) :=
  Transition.Run (step driver schema (depth + 2))

theorem run_sound (run : Run driver schema depth {} trace final) : final.Sound :=
  run.invariant Sound (fun _ _ _ sound moved => (step_spec sound moved).1) ⟨rfl,by simp,by simp,by simp⟩

/-- Whatever the driver answers, however often it fails and the connection is lost: nothing is
run on a connection that is not open, or before the pragmas of a file; the connection is closed
before it is added again; and every operation comes to an end. -/
theorem calls_ordered (run : Run driver schema depth {} trace final) :
    (∃ phase, accept SqlPhase.next .closed final.calls = some phase) ∧
    ∀ a, final.enabled a = true → (step driver schema (depth + 2) final a).isSome := by
  have sound := run_sound run
  refine ⟨⟨_,sound.passed⟩,fun a enabled => ?_⟩
  obtain ⟨_,_,done,-⟩ := (perform_spec depth sound a : Ensures (perform driver schema (depth + 2) a) final _)
  simp [step,enabled,done]

def steady : SqlDriver where
  valid _ _ := true
  opens _ _ := true
  executes _ _ := some { rows := [[("dialplan","STD3")]] }

/-- A server that is lost when it has been connected once and has sent the site's row. -/
def lost : SqlDriver where
  valid _ _ := true
  opens calls _ := calls.all fun call => !call.isConnect
  executes _ request := if request = "SELECT * FROM Config;" then some { rows := [[("dialplan","STD3")]] } else none

def bare : SqlSchema := ⟨["CREATE TABLE Config"],[]⟩

/-- A file is made, left alone and used again. -/
theorem calls_ordered_file : ∃ trace final, Run steady bare 0 {} trace final ∧ final.calls.length = 23 ∧
    ∃ phase, accept SqlPhase.next .closed final.calls = some phase := by
  have ran : ((Transition.execute (step steady bare 2) [.applyConfig { driver := "QSQLITE", name := "local.db" } false,
      .timeout,.query "SELECT 1;"] {}).map fun s => s.calls.length) = some 23 := by decide +kernel
  obtain ⟨final,done,length⟩ := Option.map_eq_some_iff.mp ran
  obtain ⟨trace,run,-⟩ := Transition.execute_run _ _ _ done
  exact ⟨trace,final,run,length,(calls_ordered run).1⟩

/-- A query takes effect once if it has a result, and not at all if it has none. It is tried
three times at most, and once on a file, and besides it only pragmas are run. -/
theorem query_once (run : Run driver schema depth {} trace final) (request : String)
    (plain : request ∉ Util.sqlitePragmas) :
    ∃ result s' new, query driver (depth + 2) request final = some (result,s') ∧ s'.calls = final.calls ++ new ∧
      new.countP (DriverCall.succeeds request) = result.isSome.toNat ∧
      new.countP (DriverCall.attempts request) ≤ (if final.isFile then 1 else 3) ∧
      new.countP DriverCall.isConnect ≤ (if final.isFile then 1 else 4) ∧
      (∀ answer, result = some answer → new.getLast? = some (.execute request (some answer))) ∧
      ∀ other ∉ Util.sqlitePragmas, other ≠ request → new.countP (DriverCall.attempts other) = 0 := by
  obtain ⟨result,s',done,-,new,calls,queried⟩ :=
    (queryWith_spec (reopen_opens depth) (run_sound run) plain : Ensures (query driver (depth + 2) request) final _)
  exact ⟨result,s',new,done,calls,queried.once,queried.attempts,queried.connects,queried.answer,queried.others⟩

/-- A server drops the connection when it has sent the site's row, and is not there again. -/
theorem query_once_lost : ∃ trace final, Run lost bare 0 {} trace final ∧ ∃ result s' new,
    query lost 2 "SELECT 1;" final = some (result,s') ∧ s'.calls = final.calls ++ new ∧
    new.countP (DriverCall.succeeds "SELECT 1;") = result.isSome.toNat := by
  have ran : (Transition.execute (step lost bare 2) [.applyConfig { driver := "QMYSQL", name := "sip" } false]
      {}).isSome = true := by decide +kernel
  obtain ⟨final,done⟩ := Option.isSome_iff_exists.mp ran
  obtain ⟨trace,run,-⟩ := Transition.execute_run _ _ _ done
  obtain ⟨result,s',new,done,calls,once,-⟩ := query_once run "SELECT 1;" (by decide)
  exact ⟨trace,final,run,result,s',new,done,calls,once⟩

/-- A file is open as long as its timer runs, so that it does not stay open when it is not
used. -/
theorem file_idle (run : Run driver schema depth {} trace final)
    (file : ∀ edge ∈ trace, edge.action = .timeout → edge.source.isFile = true) :
    final.isOpen = final.timer := by
  obtain ⟨sound,idle⟩ := run.invariant_of (fun s => s.Sound ∧ Idle s)
    (fun s a => a = .timeout → s.isFile = true)
    (fun _ _ _ ⟨sound,idle⟩ file moved =>
      ⟨(step_spec sound moved).1,(step_spec sound moved).2 file idle⟩)
    ⟨⟨rfl,by simp,by simp,by simp⟩,by simp [Idle]⟩ file
  exact Bool.eq_iff_iff.mpr ⟨idle,sound.timer⟩

/-- A file is opened by its first query and left to its timer. -/
theorem file_idle_closed : ∃ trace final, Run steady bare 0 {} trace final ∧ final.calls.length = 17 ∧
    final.isOpen = final.timer := by
  have ran : ((Transition.execute (Transition.guarded (fun s a => a != .timeout || s.isFile)
      (step steady bare 2)) [.applyConfig { driver := "QSQLITE", name := "local.db" } false,.timeout] {}).map
      fun s => s.calls.length) = some 17 := by decide +kernel
  obtain ⟨final,done,length⟩ := Option.map_eq_some_iff.mp ran
  obtain ⟨trace,guarded,-⟩ := Transition.execute_run _ _ _ done
  obtain ⟨run,file⟩ := guarded.of_guarded
  refine ⟨trace,final,run,length,file_idle run fun edge member fired => ?_⟩
  simpa [fired] using file edge member

theorem query_failed (failed : s.failed = true) (request : String) :
    query driver (depth + 2) request s = some (none,s) := by
  have quiet : Ensures (query driver (depth + 2) request) s fun result s' => result = none ∧ s' = s := by
    simp [query,queryWith,Connection.reopen,reopenWith,failed]
  obtain ⟨_,_,done,rfl,rfl⟩ := quiet
  exact done

/-- Once the connection has failed, nothing is asked of the driver until there is another
configuration. -/
theorem failed_quiet (run : Run driver schema depth {} trace s) (failed : s.failed = true)
    (later : Run driver schema depth s more final)
    (same : ∀ edge ∈ more, ∀ settings existing, edge.action ≠ .applyConfig settings existing) : final = s := by
  have sound := run_sound run
  refine later.invariant_of (fun now => now = s) (fun _ a => ∀ settings existing, a ≠ .applyConfig settings existing)
    ?_ rfl same
  rintro s a next rfl other moved
  simp only [step] at moved
  split at moved
  · rename_i enabled
    obtain ⟨⟨_,_⟩,done,rfl⟩ := Option.map_eq_some_iff.mp moved
    cases a with
    | query request =>
      have quiet : Ensures (perform driver schema (depth + 2) (.query request)) s fun _ s' => s' = s := by
        refine Ensures.bind_iff.mpr ⟨none,s,query_failed failed request,?_⟩
        exact Ensures.pure_iff.mpr rfl
      exact quiet.holds done
    | queries list =>
      have quiet : Ensures (perform driver schema (depth + 2) (.queries list)) s fun _ s' => s' = s := by
        refine Ensures.bind_iff.mpr ?_
        cases list with
        | nil => exact Ensures.pure_iff.mpr (Ensures.pure_iff.mpr rfl)
        | cons request rest =>
          refine Ensures.bind_iff.mpr (Ensures.map_iff.mpr ⟨none,s,query_failed failed request,?_⟩)
          exact Ensures.pure_iff.mpr (Ensures.pure_iff.mpr rfl)
      exact quiet.holds done
    | timeout =>
      have armed : s.timer = true := (Bool.and_eq_true_iff.mp enabled).2
      have isOpen := sound.timer armed
      simp [sound.failed failed] at isOpen
    | applyConfig settings existing => exact absurd rfl (other settings existing)
  · contradiction

/-- The server is lost before the switch is entered. -/
theorem failed_quiet_lost : ∃ trace s more final, Run lost bare 0 {} trace s ∧ Run lost bare 0 s more final ∧
    more.length = 2 ∧ final = s := by
  have ran : ((Transition.execute (step lost bare 2) [.applyConfig { driver := "QMYSQL", name := "sip" } false]
      {}).map fun s => s.failed && (Transition.execute (step lost bare 2) [.query "SELECT 1;",.queries []]
      s).isSome) = some true := by decide +kernel
  obtain ⟨s,done,lost⟩ := Option.map_eq_some_iff.mp ran
  obtain ⟨failed,again⟩ := Bool.and_eq_true_iff.mp lost
  obtain ⟨final,later⟩ := Option.isSome_iff_exists.mp again
  obtain ⟨trace,run,-⟩ := Transition.execute_run _ _ _ done
  obtain ⟨more,rest,asked⟩ := Transition.execute_run _ _ _ later
  refine ⟨trace,s,more,final,run,rest,by simpa using congrArg List.length asked,failed_quiet run failed rest ?_⟩
  intro edge member settings existing here
  have listed : edge.action ∈ [Action.query "SELECT 1;",.queries []] := asked ▸ List.mem_map_of_mem member
  simp [here] at listed

end

end Connection

end SipWitch
