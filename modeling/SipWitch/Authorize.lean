import SipWitch.Signals
import SipWitch.Tables

/-! The database threads: the state `Database` and `Authorize` work on, and the slots
of `Authorize`. A slot sends to `wire` and leaves its signals in `emitted`; the outbox
requests of `Authorize` to `Database` are kept apart in `copies`. -/
namespace SipWitch

inductive OutboxRequest where
  | copy (source target : Int)
  | sync (endpoint : Int)
  deriving DecidableEq

structure Database where
  tables : Tables := {}
  opened : Bool := true
  firstNumber : Int := 100
  lastNumber : Int := 699
  expiresNat : Int := 80
  expiresUdp : Int := 300
  expiresTcp : Int := 600
  operatorPolicy : UString := []
  operatorDisplay : UString := "Operators"
  /-- `Server::sym(CURRENT_NETWORK)`. -/
  network : UString := []
  /-- `CURRENT_TIMESTAMP`. -/
  clock : Int := 0
  rosterSequence : Nat := 1
  wire : List Output := []
  emitted : List Notice := []
  copies : List OutboxRequest := []

namespace Database

variable (d : Database)

def send (output : Output) : Database := { d with wire := d.wire ++ [output] }

def reply (ev : Event) (code : Nat) : Database := d.send (.reply ev code)

def emit (notice : Notice) : Database := { d with emitted := d.emitted ++ [notice] }

def request (outbox : OutboxRequest) : Database := { d with copies := d.copies ++ [outbox] }

def runQuery (statement : Tables → Tables) : Database := { d with tables := statement d.tables }

def updateRoster : Database := { d with rosterSequence := d.rosterSequence + 1 }

def disconnect (endpoints : List EndpointRow) : Database :=
  { d with emitted := d.emitted ++ endpoints.map fun row => .dropEndpoint row.endpoint }

end Database

namespace Authorize

open Database

/-- What follows the `@` of the request address, or else its scheme. -/
def origin (request : UString) : UString :=
  let user := request.idxOf 64
  let scheme := request.idxOf 58
  if 0 < user ∧ user < request.length then request.drop (user + 1)
  else if 0 < scheme ∧ scheme < request.length then request.drop (scheme + 1)
  else request

/-- The expiry granted, by protocol and kind of label. -/
def granted (d : Database) (ev : Event) : Int :=
  let udp : Bool := ev.protocol = "udp"
  if ev.label ≠ "NONE" ∧ udp ∧ ev.expires > d.expiresNat then d.expiresNat
  else if udp ∧ ev.expires > d.expiresUdp then d.expiresUdp
  else if ev.expires > d.expiresTcp then d.expiresTcp
  else ev.expires

def privs (t : Tables) (number : Int) : UString :=
  if t.isSysadmin number then "sysadmin"
  else if t.isMember 0 number then "operator"
  else "none"

def displayOf (extension : ExtensionRow) (account : AuthorizeRow) : UString :=
  if extension.display ≠ [] then extension.display
  else if account.fullname ≠ [] then account.fullname
  else account.authname

/-- The number of the endpoint row, 0 for an empty record. -/
def endpointId (row : Option EndpointRow) : Int := (row.map EndpointRow.endpoint).getD 0

/-- A client that (re)starts a label has its endpoint made, or its outbox synced. -/
def initializeLabel (d : Database) (ev : Event) : Database × Option EndpointRow :=
  let endpoint := d.tables.endpoint? ev.number ev.label
  match endpoint with
  | some row => (d.request (.sync row.endpoint),some row)
  | none =>
    let d := d.runQuery (·.insertEndpoint ev.number ev.label d.clock)
    let endpoint := d.tables.endpoint? ev.number ev.label
    let origin := d.tables.endpoint? ev.number "NONE"
    (d.request (.copy (endpointId origin) (endpointId endpoint)),endpoint)

/-- The rest of `findEndpoint`, once the endpoint is known: the account's checks. -/
def createEndpoint (d : Database) (ev : Event) (extension : ExtensionRow)
    (endpoint : Option EndpointRow) : Database :=
  match d.tables.account? extension.authname with
  | none => d.reply ev Sip.forbidden
  | some account =>
    if account.authaccess = "SUSPEND" then d.reply ev Sip.forbidden
    else if account.authtype ≠ "USER" ∧ account.authtype ≠ "DEVICE" then d.reply ev Sip.forbidden
    else d.emit (.createRegistration ev (some {
      realm := account.realm
      user := account.authname
      display := displayOf extension account
      digest := account.authdigest
      secret := account.secret
      number := ev.number
      label := ev.label
      endpoint := endpointId endpoint
      origin := origin ev.request
      expires := granted d ev
      privs := privs d.tables ev.number }))

def findEndpoint (d : Database) (ev : Event) : Database :=
  if d.firstNumber < 1 ∨ d.opened = false then d.reply ev Sip.internalServerError
  -- a release that got here is ignored
  else if ev.expires < 1 then d.reply ev Sip.ok
  else if ev.number < d.firstNumber ∨ ev.number > d.lastNumber then
    d.reply ev Sip.doesNotExistAnywhere
  else
    match d.tables.extension? ev.number,d.tables.endpoint? ev.number ev.label with
    | none,_ => d.reply ev Sip.notFound
    | some extension,endpoint =>
      if ev.initialization = "label" then
        let (d,endpoint) := initializeLabel d ev
        createEndpoint d ev extension endpoint
      else if endpoint.isNone then d.reply ev Sip.forbidden
      else createEndpoint d ev extension endpoint

/-- The account named in the To address, by a sysadmin. -/
def removeAuthorization (d : Database) (ev : Event) : Database :=
  let auth := UString.unquote (ev.toUser.getD [])
  if d.tables.isSysadmin ev.number = false then d.reply ev Sip.forbidden
  else
    match d.tables.account? auth with
    | none => d.reply ev Sip.notFound
    | some account =>
      if UString.toUpper account.authtype = "SYSTEM" then d.reply ev Sip.forbidden
      else
        -- early reply for the client in case the deletion is slow
        let d := (d.reply ev Sip.ok).runQuery (·.deleteAuthorize auth)
        let labelled := d.tables.endpoints.select EndpointRow.labelled
        (labelled.foldl (fun d row => d.runQuery (·.insertDelete
          { authname := auth, endpoint := row.endpoint, created := account.created })) d).updateRoster

end Authorize

end SipWitch
