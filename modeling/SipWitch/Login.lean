import SipWitch.UString
import SipWitch.Transition
import Mathlib.Logic.Function.Basic

/-! The credentials of the desktop client, from the login window over its listener to the
table `Credentials` of its databases. There is a database for each extension and label that
has logged in on the device, and one of them may be open. -/
namespace SipWitch

namespace UString

def isAlpha (c : UInt8) : Bool := (65 ≤ c && c ≤ 90) || (97 ≤ c && c ≤ 122)

def isLabel (s : UString) : Bool :=
  (s.head?.any isAlpha) && s.all fun c => isAlpha c || isDigit c

def serverUri (schema server : UString) (port : Int) : UString :=
  let scheme := toLower schema
  let host := unquote server (91,93)
  let port := port % 65536
  let port := if scheme = "sip:" ∧ port = 5060 ∨ scheme = "sips:" ∧ port = 5061 then 0 else port
  scheme ++ (if 58 ∈ host then quote host (91,93) else host) ++
    if 0 < port then ascii ":" ++ number port else []

end UString

namespace Login

/-- A hash of credentials, by its keys. Those of the login window and of the table have the
first nine. -/
structure Creds where
  extension : Int
  label : UString
  user : UString
  display : UString
  secret : UString
  host : UString
  port : Int
  type : UString
  realm : UString
  schema : Option UString := none
  /-- The key `initialize`. -/
  init : Option UString := none
  nonce : Option UString := none
  algorithm : Option UString := none
  privs : Option UString := none
  rootkey : Option UString := none
  devkey : Option UString := none
  deriving DecidableEq

structure Row where
  extension : Int
  user : UString
  display : UString
  label : UString
  secret : UString
  schema : UString
  server : UString
  host : UString
  port : Int
  realm : UString
  type : UString
  rootkey : Option UString
  devkey : Option UString
  deriving DecidableEq

abbrev KeyPair := UString × UString

namespace Row

variable (row : Row)

def creds : Creds where
  extension := row.extension
  label := row.label
  user := row.user
  display := row.display
  secret := row.secret
  host := row.host
  port := row.port
  type := row.type
  realm := row.realm
  schema := some row.schema
  rootkey := row.rootkey
  devkey := row.devkey

def createKeys (pair : KeyPair) : Row :=
  if row.rootkey = none ∨ row.devkey = none then { row with devkey := some pair.1, rootkey := some pair.2 }
  else row

/-- `Storage::updateCredentials`, for an update that is not empty. -/
def updateCredentials (pair : KeyPair) (update : Creds) : Row :=
  let schema := update.schema.getD row.schema
  { row.createKeys pair with
    server := UString.serverUri schema update.host update.port
    schema
    host := update.host
    port := update.port
    user := update.user
    secret := update.secret
    type := update.type
    realm := update.realm }

end Row

def Creds.row (cred : Creds) (pair : KeyPair) : Row :=
  let keys := if cred.rootkey = none ∨ cred.devkey = none then (some pair.1,some pair.2)
    else (cred.devkey,cred.rootkey)
  { extension := cred.extension
    user := cred.user
    display := cred.display
    label := cred.label
    secret := cred.secret
    schema := cred.schema.getD []
    server := UString.serverUri (cred.schema.getD []) cred.host cred.port
    host := cred.host
    port := cred.port
    realm := cred.realm
    type := cred.type
    rootkey := keys.2
    devkey := keys.1 }

/-- The fields of the login window; `host` and `port` are of the address that they make. -/
structure Form where
  ext : UString
  host : Option UString
  port : Int
  secret : UString
  label : UString

def Form.credentials (form : Form) : Option Creds :=
  let label := UString.toLower form.label
  match form.host with
  | none => none
  | some host =>
    if form.ext = [] ∨ UString.isNumber form.ext = false then none
    else if UString.toInt form.ext < 100 ∨ 699 < UString.toInt form.ext then none
    else if form.secret = [] ∨ UString.isLabel label = false then none
    else some {
      extension := UString.toInt form.ext
      label
      user := form.ext
      display := []
      secret := form.secret
      host
      port := form.port
      type := "unknown"
      realm := "unknown"
      init := some "label" }

structure Client where
  databases : UString → Option Row := fun _ => none
  /-- The setting `database`. -/
  database : UString := []
  /-- The database that is open. -/
  storage : Option UString := none
  credentials : Option Creds := none
  /-- The credentials of the listener, while there is one. -/
  listener : Option Creds := none
  connector : Bool := false
  /-- The signals `authorize` on their way. -/
  authorizations : List Creds := []

def fresh : Client := {}

section Client

variable (sha256 : UString → UString)

def name (creds : Creds) : UString :=
  UString.ascii "sipwitchqt-" ++ UString.toHex (sha256
    (UString.number creds.extension ++ UString.ascii ":" ++ UString.toLower creds.label ++ UString.ascii ":desktop"))

namespace Client

variable (c : Client)

def write (dbName : UString) (row : Row) : Client :=
  { c with databases := Function.update c.databases dbName (some row) }

def listen (cred : Creds) : Client :=
  { c with listener := some { cred with init := some [], schema := some "sip:" } }

def offline : Client := { c with listener := none, connector := false }

/-- `Storage::initialLogin`. The storage that it makes updates a database that exists. -/
def initialLogin (dbName : UString) (creds : Creds) (pair : KeyPair) : Client × Creds :=
  let (c,creds) := match c.databases dbName with
    | some row =>
      let creds := { creds with init := some "user" }
      let row := row.updateCredentials pair creds
      (c.write dbName row,{ creds with devkey := row.devkey, rootkey := row.rootkey })
    | none => (c,creds)
  (c,if creds.rootkey = none ∨ creds.devkey = none then { creds with devkey := some pair.1, rootkey := some pair.2 }
    else creds)

def initial (form : Form) (pair : KeyPair) : Client :=
  match form.credentials with
  | none => { c with credentials := none }
  | some creds =>
    let (c,creds) := c.initialLogin (name sha256 creds) creds pair
    { c with credentials := some creds }.listen creds

/-- `Desktop::authorized`. The credentials are applied after a successful authorization. -/
def authorized (creds : Creds) (pair : KeyPair) : Client :=
  let c := { c with credentials := some { creds with init := some [] }, connector := true }
  match c.storage with
  | some dbName =>
    match c.databases dbName with
    | some row => c.write dbName (row.updateCredentials pair creds)
    | none => c
  | none =>
    let dbName := name sha256 creds
    let row := match c.databases dbName with
      | some row => row.updateCredentials pair creds
      | none => creds.row pair
    { c with database := dbName, storage := some dbName }.write dbName row

def restart : Client :=
  let c := { c with credentials := none, listener := none, connector := false, authorizations := [] }
  match c.databases c.database with
  | some row => { c with storage := some c.database }.listen row.creds
  | none => { c with storage := none }

def reconnect : Client :=
  match c.storage.bind c.databases with
  | some row => c.listen row.creds
  | none => c

def changePassword (password : UString) : Client :=
  match c.credentials with
  | some creds =>
    if password = creds.secret ∨ c.connector = false then c
    else { c.offline with credentials := some { creds with secret := password } }
  | none => c

def closeLogout : Client := { c.offline with database := [], storage := none }

end Client

inductive Action where
  | initial (form : Form) (pair : KeyPair)
  /-- A registration is refused, with what `get_authentication` takes from the response. -/
  | challenge (user : Option UString) (realm algorithm nonce : UString)
  /-- A registration succeeds, with what `parseXdp` takes from the response. -/
  | registered (display privs : Option UString)
  | authorized (pair : KeyPair)
  /-- The listener fails or finishes. -/
  | offline
  | changePassword (password : UString)
  /-- The timer after a change of the password. -/
  | listen
  | reconnect
  | closeLogout
  | restart

/-- The login window is there without a storage, and a listener is made where there is none. -/
def step (c : Client) : Action → Option Client
  | .initial form pair => if c.storage = none ∧ c.listener = none then some (c.initial sha256 form pair) else none
  | .challenge user realm algorithm nonce => c.listener.map fun creds => { c with
      listener := some { creds with
        user := user.getD creds.user, realm, nonce := some nonce, algorithm := some (UString.toUpper algorithm) } }
  | .registered display privs => c.listener.map fun creds =>
      let creds := { creds with display := display.getD creds.display, privs := privs.or creds.privs }
      { c with listener := some creds, authorizations := c.authorizations ++ [creds] }
  | .authorized pair =>
    match c.authorizations with
    | [] => none
    | creds :: rest => some ({ c with authorizations := rest }.authorized sha256 creds pair)
  | .offline => some c.offline
  | .changePassword password => some (c.changePassword password)
  | .listen =>
    if c.connector = false ∧ c.listener = none then (c.credentials.map c.listen) else none
  | .reconnect => if c.connector = false ∧ c.listener = none then some c.reconnect else none
  | .closeLogout => if c.storage = none then none else some c.closeLogout
  | .restart => some c.restart

structure Row.Agrees (row : Row) (creds : Creds) : Prop where
  host : row.host = creds.host
  port : row.port = creds.port
  user : row.user = creds.user
  secret : row.secret = creds.secret
  type : row.type = creds.type
  realm : row.realm = creds.realm

structure Row.Stored (row : Row) : Prop where
  server : row.server = UString.serverUri row.schema row.host row.port
  rootkey : row.rootkey ≠ none
  devkey : row.devkey ≠ none

/-- A login to a database that exists is with the credentials it has. -/
def Action.Agrees (a : Action) (c : Client) : Prop :=
  ∀ form pair, a = .initial form pair → ∀ creds, form.credentials = some creds →
    ∀ row, c.databases (name sha256 creds) = some row → row.Agrees creds

def Applied (edge : Transition.Edge Client Action) (dbName : UString) (row : Row) : Prop :=
  ∃ pair creds rest, edge.action = .authorized pair ∧ edge.source.authorizations = creds :: rest ∧
    edge.target.databases dbName = some (row.updateCredentials pair creds)

/-- Stored credentials are as they were, or those of an authorization. -/
def Guarded (trace : List (Transition.Edge Client Action)) : Prop :=
  ∀ edge ∈ trace, ∀ dbName row, edge.source.databases dbName = some row →
    edge.target.databases dbName = some row ∨ Applied edge dbName row

section Rows

variable {row : Row} {creds : Creds} {pair : KeyPair} {form : Form}

theorem createKeys_keys : (row.createKeys pair).rootkey ≠ none ∧ (row.createKeys pair).devkey ≠ none := by
  rw [Row.createKeys]
  split
  · simp
  · rename_i present
    exact not_or.mp present

theorem updateCredentials_stored : (row.updateCredentials pair creds).Stored :=
  ⟨rfl,createKeys_keys.1,createKeys_keys.2⟩

theorem row_stored : (creds.row pair).Stored := by
  by_cases absent : creds.rootkey = none ∨ creds.devkey = none
  · exact ⟨rfl,by simp [Creds.row,absent],by simp [Creds.row,absent]⟩
  · obtain ⟨rootkey,devkey⟩ := not_or.mp absent
    exact ⟨rfl,by simp [Creds.row,rootkey,devkey],by simp [Creds.row,rootkey,devkey]⟩

/-- An update changes nothing exactly when the row has these credentials already. -/
theorem updateCredentials_same (stored : row.Stored) (plain : creds.schema = none) :
    row.updateCredentials pair creds = row ↔ row.Agrees creds := by
  have keys : row.createKeys pair = row := if_neg (not_or.mpr ⟨stored.rootkey,stored.devkey⟩)
  constructor
  · intro same
    rw [← same]
    exact ⟨rfl,rfl,rfl,rfl,rfl,rfl⟩
  · intro agrees
    rw [Row.updateCredentials,keys,plain,← agrees.host,← agrees.port,← agrees.user,← agrees.secret,
      ← agrees.type,← agrees.realm,Option.getD_none,← stored.server]

theorem credentials_schema (made : form.credentials = some creds) : creds.schema = none := by
  simp only [Form.credentials] at made
  repeat' split at made
  all_goals first
    | contradiction
    | rw [← Option.some.inj made]

end Rows

section Steps

variable {sha256} {c next : Client} {a : Action} {dbName : UString} {row : Row}

theorem write_databases (given : UString) (new : Row) :
    (c.write given new).databases dbName = if dbName = given then some new else c.databases dbName :=
  Function.update_apply ..

/-- A login updates the database of its name. -/
theorem initial_databases (form : Form) (pair : KeyPair) : (c.initial sha256 form pair).databases dbName =
    match form.credentials with
    | none => c.databases dbName
    | some creds =>
      if dbName = name sha256 creds then
        (c.databases dbName).map fun row => row.updateCredentials pair creds
      else c.databases dbName := by
  cases made : form.credentials with
  | none => simp only [Client.initial,made]
  | some creds =>
    cases found : c.databases (name sha256 creds) with
    | none =>
      simp only [Client.initial,made,Client.initialLogin,found,Client.listen]
      split
      · rename_i same
        rw [same,found]
        rfl
      · rfl
    | some row =>
      simp only [Client.initial,made,Client.initialLogin,found,Client.listen,write_databases]
      split
      · rename_i same
        rw [same,found]
        rfl
      · rfl

/-- An authorization updates the database that is open, or opens that of its credentials. -/
theorem authorized_databases (creds : Creds) (pair : KeyPair) (found : c.databases dbName = some row) :
    (c.authorized sha256 creds pair).databases dbName = some row ∨
      (c.authorized sha256 creds pair).databases dbName = some (row.updateCredentials pair creds) := by
  have written (c' : Client) (given : UString) (new : Row) (same : c'.databases = c.databases)
      (own : dbName = given → new = row.updateCredentials pair creds) :
      (c'.write given new).databases dbName = some row ∨
        (c'.write given new).databases dbName = some (row.updateCredentials pair creds) := by
    rw [write_databases]
    split
    · rename_i here
      exact .inr (congrArg some (own here))
    · rw [same]
      exact .inl found
  simp only [Client.authorized]
  split
  · rename_i given _
    split
    · rename_i old there
      apply written _ _ _ rfl
      rintro rfl
      rw [Option.some.inj (there.symm.trans found)]
    · exact .inl found
  · apply written _ _ _ rfl
    rintro rfl
    simp only [found]

theorem authorized_stored (creds : Creds) (pair : KeyPair) (stored : ∀ dbName row, c.databases dbName = some row → row.Stored)
    (found : (c.authorized sha256 creds pair).databases dbName = some row) : row.Stored := by
  have written (c' : Client) (given : UString) (new : Row) (same : c'.databases = c.databases)
      (sound : new.Stored) (found : (c'.write given new).databases dbName = some row) : row.Stored := by
    rw [write_databases] at found
    split at found
    · rw [← Option.some.inj found]
      exact sound
    · exact stored dbName row (same ▸ found)
  simp only [Client.authorized] at found
  split at found
  · split at found
    · exact written _ _ _ (by rfl) updateCredentials_stored found
    · exact stored dbName row found
  · refine written _ _ _ (by rfl) ?_ found
    split
    · exact updateCredentials_stored
    · exact row_stored

/-- Every other action leaves the databases alone. -/
theorem step_databases (moved : step sha256 c a = some next) :
    (∃ form pair, a = .initial form pair ∧ next = c.initial sha256 form pair) ∨
      (∃ pair creds rest, a = .authorized pair ∧ c.authorizations = creds :: rest ∧
        next = ({ c with authorizations := rest } : Client).authorized sha256 creds pair) ∨
      next.databases = c.databases := by
  cases a with
  | initial form pair =>
    simp only [step] at moved
    split at moved
    · exact .inl ⟨form,pair,rfl,(Option.some.inj moved).symm⟩
    · contradiction
  | authorized pair =>
    simp only [step] at moved
    split at moved
    · contradiction
    · rename_i creds rest waiting
      exact .inr (.inl ⟨pair,creds,rest,rfl,waiting,(Option.some.inj moved).symm⟩)
  | challenge user realm algorithm nonce =>
    obtain ⟨creds,-,rfl⟩ := Option.map_eq_some_iff.mp moved
    exact .inr (.inr rfl)
  | registered display privs =>
    obtain ⟨creds,-,rfl⟩ := Option.map_eq_some_iff.mp moved
    exact .inr (.inr rfl)
  | offline =>
    obtain rfl := Option.some.inj moved
    exact .inr (.inr rfl)
  | changePassword password =>
    obtain rfl := Option.some.inj moved
    simp only [Client.changePassword]
    split
    · split <;> exact .inr (.inr rfl)
    · exact .inr (.inr rfl)
  | listen =>
    simp only [step] at moved
    split at moved
    · obtain ⟨creds,-,rfl⟩ := Option.map_eq_some_iff.mp moved
      exact .inr (.inr rfl)
    · contradiction
  | reconnect =>
    simp only [step] at moved
    split at moved
    · obtain rfl := Option.some.inj moved
      simp only [Client.reconnect]
      split <;> exact .inr (.inr rfl)
    · contradiction
  | closeLogout =>
    simp only [step] at moved
    split at moved
    · contradiction
    · obtain rfl := Option.some.inj moved
      exact .inr (.inr rfl)
  | restart =>
    obtain rfl := Option.some.inj moved
    simp only [Client.restart]
    split <;> exact .inr (.inr rfl)

/-- What a login does to a row: nothing, exactly when the row has the credentials. -/
theorem initial_kept {form : Form} {pair : KeyPair} (stored : row.Stored) (found : c.databases dbName = some row) :
    (c.initial sha256 form pair).databases dbName = some row ↔
      ∀ creds, form.credentials = some creds → dbName = name sha256 creds → row.Agrees creds := by
  rw [initial_databases]
  cases made : form.credentials with
  | none => simp [found]
  | some creds =>
    have plain := credentials_schema made
    by_cases here : dbName = name sha256 creds
    · simp only [if_pos here,found,Option.map_some,Option.some.injEq]
      rw [updateCredentials_same stored plain]
      constructor
      · rintro agrees other rfl -
        exact agrees
      · intro all
        exact all creds rfl here
    · simp [found,here]

theorem step_stored (stored : ∀ dbName row, c.databases dbName = some row → row.Stored)
    (moved : step sha256 c a = some next) (dbName : UString) (row : Row)
    (found : next.databases dbName = some row) : row.Stored := by
  rcases step_databases moved with ⟨form,pair,-,rfl⟩ | ⟨pair,creds,rest,-,-,rfl⟩ | same
  · rw [initial_databases] at found
    split at found
    · exact stored dbName row found
    · split at found
      · obtain ⟨old,-,rfl⟩ := Option.map_eq_some_iff.mp found
        exact updateCredentials_stored
      · exact stored dbName row found
  · exact authorized_stored (c := { c with authorizations := rest }) creds pair stored found
  · exact stored dbName row (same ▸ found)

end Steps

variable {trace : List (Transition.Edge Client Action)} {final : Client}

theorem run_stored (run : Transition.Run (step sha256) fresh trace final) (dbName : UString) (row : Row)
    (found : final.databases dbName = some row) : row.Stored := by
  have invariant : ∀ dbName row, final.databases dbName = some row → row.Stored :=
    run.invariant (fun c => ∀ dbName row, c.databases dbName = some row → row.Stored)
      (fun _ _ _ stored moved => step_stored stored moved) (fun _ _ found => by simp [fresh] at found)
  exact invariant dbName row found

/-- As long as logins to a database that exists are with its own credentials, stored credentials
change by authorizations alone. -/
theorem credentials_guarded (run : Transition.Run (step sha256) fresh trace final)
    (agree : ∀ edge ∈ trace, edge.action.Agrees sha256 edge.source) : Guarded trace := by
  intro edge member dbName row found
  obtain ⟨before,-,reached⟩ := run.edge_reached edge member
  have stored := run_stored sha256 reached dbName row found
  rcases step_databases (run.edge_step edge member) with ⟨form,pair,action,next⟩ | ⟨pair,creds,rest,action,waiting,next⟩ | same
  · left
    rw [next]
    apply (initial_kept stored found).mpr
    rintro creds made rfl
    exact agree edge member form pair action creds made row found
  · rw [next]
    have given : ({ edge.source with authorizations := rest } : Client).databases dbName = some row := found
    rcases authorized_databases creds pair given with same | changed
    · exact .inl same
    · exact .inr ⟨pair,creds,rest,action,waiting,by rw [next]; exact changed⟩
  · left
    rw [same]
    exact found

def typed (secret : UString) : Form where
  ext := "101"
  host := some "localhost"
  port := 4060
  secret
  label := "phone"

def keys : KeyPair := ([1],[2])

def session : List Action :=
  [.initial (typed "right") keys,.challenge (some "alice") "site" "sha-256" "nonce",.registered none none,
    .authorized keys,.closeLogout]

theorem mistyped_login_stored :
    ¬∀ trace final, Transition.Run (step id) fresh trace final → Guarded trace := by
  intro all
  have before : (Transition.execute (step id) session fresh).map (fun c =>
      ((typed "right").credentials.bind fun creds => c.databases (name id creds)).map Row.secret) =
        some (some (UString.ascii "right")) := by decide +kernel
  have after : (Transition.execute (step id) (session ++ [.initial (typed "wrong") keys]) fresh).map (fun c =>
      ((typed "right").credentials.bind fun creds => c.databases (name id creds)).map Row.secret) =
        some (some (UString.ascii "wrong")) := by decide +kernel
  obtain ⟨c,done,secret⟩ := Option.map_eq_some_iff.mp before
  obtain ⟨next,done',secret'⟩ := Option.map_eq_some_iff.mp after
  rw [Transition.execute_append,done,Option.bind_some] at done'
  obtain ⟨next',moved,same⟩ := Option.bind_eq_some_iff.mp done'
  obtain rfl : next' = next := Option.some.inj same
  obtain ⟨row,found,right⟩ := Option.map_eq_some_iff.mp secret
  obtain ⟨creds,made,found⟩ := Option.bind_eq_some_iff.mp found
  obtain ⟨trace,run,-⟩ := Transition.execute_run session fresh c done
  have guarded := all _ _ (run.next moved)
  rw [made,Option.bind_some] at secret'
  rcases guarded ⟨c,_,next'⟩ (List.mem_append_right _ (List.mem_singleton.mpr rfl)) _ row found with kept | applied
  · rw [kept,Option.map_some,right] at secret'
    exact absurd secret' (by decide)
  · obtain ⟨pair,creds,rest,action,-⟩ := applied
    contradiction

theorem credentials_guarded_login : ∃ trace final, Transition.Run (step id) fresh trace final ∧ Guarded trace ∧
    final.storage ≠ none := by
  have first : Transition.Run (step id) fresh [⟨fresh,.initial (typed "right") keys,_⟩] _ := .next .start rfl
  have second := (first.next (a := .registered none none) rfl).next (a := .authorized keys) rfl
  refine ⟨_,_,second,credentials_guarded id second ?_,?_⟩
  · intro edge member form pair action creds made row found
    simp at member
    rcases member with rfl | rfl | rfl <;> simp [fresh] at action found
  · decide +kernel

end Client

end Login

end SipWitch
