import SipWitch.Transition
import SipWitch.Manager
import SipWitch.Handlers

/-! The threads of the server and the queues between them. Contexts receive requests
and signal the manager, the manager signals the authorize and database threads, and
these signal the manager back; a thread runs the oldest slot queued for it. -/
namespace SipWitch

def Method.name : Method → UString
  | .roster => "X-ROSTER" | .profile => "X-PROFILE" | .coverage => "X-COVERAGE"
  | .forwarding => "X-FORWARDING" | .admin => "X-ADMIN" | .drop => "X-DROP"
  | .membership => "X-MEMBERSHIP" | .topic => "X-TOPIC" | .devlist => "X-DEVLIST"
  | .devkill => "X-DEVKILL" | .deauthorize => "X-DEAUTHORIZE" | .authorize => "X-AUTHORIZE"
  | .pending => "X-PENDING" | .ackPending => "A-PENDING"

/-- In the order in which `process` compares them. -/
def Method.all : List Method := [.roster,.profile,.coverage,.forwarding,.admin,.drop,
  .membership,.topic,.devlist,.devkill,.deauthorize,.authorize,.pending,.ackPending]

namespace Context

def checks (method : Method) (ev : Event) : List (Bool × Nat) :=
  let stranger : Bool := ev.number < 1
  let addressless := (ev.toUser.isNone,Sip.addressIncomplete)
  let foreign := (stranger || !ev.toLocal,Sip.forbidden)
  let unlabelled : Bool := ev.label = "NONE"
  let untrusted : Bool := unlabelled || ev.context.netProto ≠ .tcp
  let body : Bool := ev.body ≠ []
  match method with
  | .roster | .devlist | .devkill | .pending => [(stranger || untrusted,Sip.methodNotAllowed)]
  | .profile => [addressless,foreign,(untrusted,Sip.methodNotAllowed),
      (ev.contentType ≠ "profile/json" && body,Sip.notAcceptableHere)]
  | .coverage | .forwarding | .topic => [addressless,foreign,(untrusted,Sip.methodNotAllowed)]
  | .admin | .drop | .membership => [addressless,foreign,(untrusted,Sip.methodNotAllowed),
      (body,Sip.notAcceptableHere)]
  | .deauthorize => [(stranger || untrusted,Sip.methodNotAllowed),addressless,
      (!ev.toLocal,Sip.forbidden)]
  | .authorize => [(stranger || untrusted,Sip.methodNotAllowed),addressless,
      (!ev.toLocal,Sip.forbidden),
      (ev.contentType ≠ "authorize/json" || !body,Sip.notAcceptableHere)]
  | .ackPending => [(stranger || unlabelled,Sip.methodNotAllowed)]

/-- The first check that fails decides the refusal. -/
def refusal (checks : List (Bool × Nat)) : Option Nat := (checks.find? Prod.fst).map Prod.snd

/-- What processing a request does: an answer, and a signal where a slot is connected
to it. A context connects registration when it permits it, and the management requests
only when it is a TCP one. -/
def process (ev : Event) : Option Nat × Option Slot :=
  if ev.method = "REGISTER" then
    if ev.context.registry = false then (some Sip.methodNotAllowed,none)
    else if ev.number < 1 then (some Sip.forbidden,none)
    else (none,some (.refreshRegistration ev))
  else
    match Method.all.find? fun method => ev.method = method.name with
    | none => (none,none)
    | some method =>
      match refusal (checks method ev) with
      | some code => (some code,none)
      | none =>
        if ev.context.netProto = .tcp then (none,some (.request method ev)) else (none,none)

end Context

structure Server where
  manager : Manager := {}
  database : Database := {}
  /-- Queued for the manager, the authorize thread and the database thread. -/
  inbox : List Slot := []
  lookups : List Signal := []
  requests : List Signal := []
  /-- Answers of the contexts. -/
  wire : List Output := []

inductive Action where
  | pass (ms : Nat)
  | receive (ev : Event)
  | manage (fresh : Nonce)
  | cleanup
  | authorize
  | database
  /-- What else the database threads do: messages, label copies, maintenance. -/
  | other (tables : Tables) (drops : List Int) (messages : List (Int × MessageData))

def Signal.isLookup : Signal → Bool
  | .findEndpoint _ | .removeAuthorize _ => true
  | _ => false

namespace Server

variable (hash : HashFunction) (s : Server)

def receive (ev : Event) : Server :=
  let (answer,slot) := Context.process ev
  { s with
    wire := s.wire ++ (answer.map fun code => .reply ev code).toList
    inbox := s.inbox ++ slot.toList }

def managed (manager : Manager) : Server :=
  { s with
    manager := { manager with emitted := [] }
    lookups := s.lookups ++ manager.emitted.filter Signal.isLookup
    requests := s.requests ++ manager.emitted.filter fun signal => !signal.isLookup }

def served (database : Database) : Server :=
  { s with
    database := { database with emitted := [] }
    manager := { s.manager with rosterSequence := database.rosterSequence }
    inbox := s.inbox ++ database.emitted.map .notice }

def step : Action → Option Server
  | .pass ms => some { s with manager := { s.manager with now := s.manager.now + ms } }
  | .receive ev => some (s.receive ev)
  | .manage fresh =>
    match s.inbox with
    | [] => none
    | slot :: rest => some ({ s with inbox := rest }.managed (s.manager.handle hash slot fresh))
  | .cleanup => some { s with manager := s.manager.cleanup }
  | .authorize =>
    match s.lookups with
    | [] => none
    | signal :: rest => some ({ s with lookups := rest }.served (s.database.handle signal))
  | .database =>
    match s.requests with
    | [] => none
    | signal :: rest => some ({ s with requests := rest }.served (s.database.handle signal))
  | .other tables drops messages => some { s with
      database := { s.database with tables }
      inbox := s.inbox ++ (drops.map Notice.dropEndpoint ++
        messages.map fun message => Notice.sendMessage message.1 message.2).map .notice }

abbrev Run (hash : HashFunction) := Transition.Run (step hash)

variable {hash s} {next : Server} {a : Action} {Q : Registries → List Output → Prop}

theorem manage_some {fresh : Nonce} (moved : s.step hash (.manage fresh) = some next) :
    ∃ slot rest, s.inbox = slot :: rest ∧
      next = { s with inbox := rest }.managed (s.manager.handle hash slot fresh) := by
  cases queue : s.inbox with
  | nil => simp [step,queue] at moved
  | cons slot rest =>
    simp only [step,queue,Option.some.injEq] at moved
    exact ⟨slot,rest,rfl,moved.symm⟩

theorem authorize_some (moved : s.step hash .authorize = some next) :
    ∃ signal rest, s.lookups = signal :: rest ∧
      next = { s with lookups := rest }.served (s.database.handle signal) := by
  cases queue : s.lookups with
  | nil => simp [step,queue] at moved
  | cons signal rest =>
    simp only [step,queue,Option.some.injEq] at moved
    exact ⟨signal,rest,rfl,moved.symm⟩

theorem database_some (moved : s.step hash .database = some next) :
    ∃ signal rest, s.requests = signal :: rest ∧
      next = { s with requests := rest }.served (s.database.handle signal) := by
  cases queue : s.requests with
  | nil => simp [step,queue] at moved
  | cons signal rest =>
    simp only [step,queue,Option.some.injEq] at moved
    exact ⟨signal,rest,rfl,moved.symm⟩

/-- Only the manager's thread touches the registrations and what it has sent. -/
theorem step_kept (kept : Manager.Kept hash fun m => Q m.registries m.wire)
    (holds : Q s.manager.registries s.manager.wire)
    (created : ∀ ev ep fresh, a = .manage fresh →
      s.inbox.head? = some (.notice (.createRegistration ev (some ep))) →
      Q (s.manager.createRegistration ev (some ep) fresh).registries
        (s.manager.createRegistration ev (some ep) fresh).wire)
    (moved : s.step hash a = some next) : Q next.manager.registries next.manager.wire := by
  cases a with
  | manage fresh =>
    obtain ⟨slot,rest,queue,rfl⟩ := manage_some moved
    refine kept.handle holds slot fresh fun ev ep made => created ev ep fresh rfl ?_
    rw [queue,made,List.head?_cons]
  | cleanup =>
    simp only [step,Option.some.injEq] at moved
    rw [← moved]
    exact kept.cleanup holds
  | authorize =>
    obtain ⟨signal,rest,-,rfl⟩ := authorize_some moved
    exact holds
  | database =>
    obtain ⟨signal,rest,-,rfl⟩ := database_some moved
    exact holds
  | pass ms => cases moved; exact holds
  | receive ev => cases moved; exact holds
  | other tables drops messages => cases moved; exact holds

end Server

/-! A site with one account of the preloaded test users, its archive endpoint and a
labelled device, for concrete runs. -/
namespace Site

def md5 : List (UString × UString) := [
  ("test1:testing:testing","74d0a5bd38ed78708aacb9f056e40120"),
  ("REGISTER:sip:localhost","1ee62ecb3ce6e584fee8129c08551099"),
  ("X-ROSTER:sip:localhost","996d35a5c1141eb3dbf8e1988ae7d7a8"),
  ("74d0a5bd38ed78708aacb9f056e40120:0707070707070707:1ee62ecb3ce6e584fee8129c08551099",
    "0476139b44ef0de547a92625ae3bc490"),
  ("74d0a5bd38ed78708aacb9f056e40120::996d35a5c1141eb3dbf8e1988ae7d7a8",
    "c1c6eb1094e36edbee9fdffe801dad76"),
  ("74d0a5bd38ed78708aacb9f056e40120:0707070707070707:996d35a5c1141eb3dbf8e1988ae7d7a8",
    "4849617fd472c4991accdadf35947100")]

def unhex : UString → List UInt8
  | high :: low :: rest => UString.hexByte high low :: unhex rest
  | _ => []

def hash : HashFunction
  | .md5,text => unhex ((md5.lookup text).getD [])
  | _,_ => []

def account : AuthorizeRow where
  authname := "test1"
  authdigest := "MD5"
  realm := "testing"
  secret := "74d0a5bd38ed78708aacb9f056e40120"

def tables : Tables where
  authorize := { rows := [account] }
  extensions := { rows := [{ extnbr := 101, authname := "test1" }] }
  endpoints := {
    table := { rows := [{ endpoint := 1, extnbr := 101 },
      { endpoint := 2, extnbr := 101, label := "desk" }] }
    next := 3 }

def server : Server := { database := { tables } }

def users : Table AuthorizeRow UString AuthorizeRow.authname where
  rows := [account,{ account with authname := "test2" }]

def numbers : Table ExtensionRow Int ExtensionRow.extnbr where
  rows := [{ extnbr := 101, authname := "test1" },{ extnbr := 102, authname := "test2" }]

def members : Table AuthorizeRow UString AuthorizeRow.authname where
  rows := [account,{ authname := "team", authtype := "GROUP" }]

def memberNumbers : Table ExtensionRow Int ExtensionRow.extnbr where
  rows := [{ extnbr := 101, authname := "test1" },{ extnbr := 200, authname := "team" }]

def request (method : String) : Event where
  context := { index := 1, proto := .TCP }
  method
  request := "sip:localhost"
  number := 101
  label := "desk"
  expires := 300

def register : Event := request "REGISTER"

def signed (ev : Event) (nonce response : UString) : Event :=
  { ev with
    authorization := some {
      userid := "test1"
      digest := response
      nonce
      realm := "testing"
      algorithm := "MD5" } }

def nonce (b : UInt8) : Nonce := Vector.replicate 8 b

def registration : List Action := [.receive register,.manage (nonce 0),.authorize,.manage (nonce 7),
  .receive (signed register "0707070707070707" "0476139b44ef0de547a92625ae3bc490"),
  .manage (nonce 0)]

end Site

end SipWitch
