import SipWitch.Messages

/-! The database handlers of the management requests. The request's target is the user
of its To address, which the context has checked to be there. -/
namespace SipWitch

namespace Database

variable (d : Database)

def target (ev : Event) : Int := UString.atoi (ev.toUser.getD [])

def inRange (number : Int) : Bool := d.firstNumber ≤ number && number ≤ d.lastNumber

/-- An extension of the plan, or the operators' 0. -/
def reachable (number : Int) : Bool := number = 0 || d.inRange number

def isGroup (type : UString) : Bool := type = "GROUP" || type = "PILOT"
def isUser (type : UString) : Bool := type = "DEVICE" || type = "USER"

/-- The account's own name for a record without one. -/
def fullName (account : AuthorizeRow) : UString :=
  if account.fullname = [] then account.authname else account.fullname

def priority (value : Int) : Int := if 3 < value then 3 else if value < 0 then -1 else value

def deviceEntry (row : EndpointRow) : DeviceEntry where
  e := UString.number row.endpoint
  k := UString.toHex row.devkey
  u := row.label
  a := row.agent
  l := row.lasturi
  r := row.created
  o := row.lastaccess

def publicUri (account : AuthorizeRow) : UString :=
  if account.authaccess = "REMOTE" then account.authname ++ UString.ascii "@" ++ d.network else []

def profilePrivs (number : Int) (account : AuthorizeRow) : UString :=
  if account.authaccess = "SUSPEND" then "suspend" else Authorize.privs d.tables number

def separated (numbers : List Int) : UString :=
  (numbers.map UString.number).intersperse (UString.ascii ",") |>.flatten

/-- What a group's record says of the requester, and the members it may see. -/
def groupAccess (number : Int) (account : AuthorizeRow) (requester : Int) : UString × UString :=
  if isGroup account.authtype ∨ number = 0 then
    let t := d.tables
    let list := separated ((t.groups.select fun row => row.grpnbr = number).map GroupRow.extnbr)
    if t.isAdmin account.authname requester then ("admin",list)
    else if t.isMember number requester then
      match t.admin.find? fun row => row.authname = account.authname with
      | some row => (UString.number row.extnbr,list)
      | none => ("member",list)
    else ("none",if t.isSysadmin requester then list else [])
  else ("none",[])

def groupPriority (number : Int) (account : AuthorizeRow) (requester : Int) : Int :=
  if isGroup account.authtype ∨ number = 0 then
    match d.tables.groups.rows.find? fun row => row.grpnbr = number && row.extnbr = requester with
    | some row => if number = 0 then 0 else row.extpriority
    | none => -1
  else -1

def coverage (account : AuthorizeRow) (requester : Int) : Int :=
  match d.tables.calling.find? fun row =>
      row.authname = account.authname && row.extnbr = requester with
  | some row => row.extpriority
  | none => -1

/-- Speed dials and the other devices, in one's own profile only. -/
def ownProfile (ev : Event) (account : AuthorizeRow) (profile : Profile) : Profile :=
  if profile.n = ev.number then
    let speeds := d.tables.speeds.filter fun row =>
      row.authname = account.authname && row.extnbr < 10 && 1 ≤ row.extnbr
    let others := (d.tables.endpointsOf ev.number).filter fun row =>
      row.labelled && row.label ≠ ev.label
    let devices := others.mergeSort fun a b => a.label ≤ b.label
    { profile with
      speeds := speeds.map fun row => (UString.number row.extnbr,row.target)
      ep := some (devices.map deviceEntry) }
  else profile

def profileOf (ev : Event) (extension : ExtensionRow) (account : AuthorizeRow) : Profile :=
  let number := extension.extnbr
  let (g,m) := d.groupAccess number account ev.number
  d.ownProfile ev account {
    a := account.authname
    c := account.created
    k := UString.toHex extension.pubkey
    n := number
    d := if number = 0 then d.operatorDisplay else Authorize.displayOf extension account
    g
    m
    u := ev.uriTo (UString.number number)
    t := account.authtype
    e := account.email
    p := d.publicUri account
    i := []
    s := d.profilePrivs number account
    busy := account.fwdbusy
    noanswer := account.fwdnoanswer
    away := account.fwdaway
    cc := priority (d.coverage account ev.number)
    gp := priority (d.groupPriority number account ev.number)
    rp := priority extension.extpriority }

/-- The access a change of access ends in, when it is one the account can make. -/
def changedAccess (account : AuthorizeRow) (wanted : UString) : Option UString :=
  if wanted = "LOCAL" ∧ account.authaccess = "REMOTE" then some "LOCAL"
  else if wanted = "REMOTE" ∧ account.authaccess = "LOCAL" then some "REMOTE"
  else if wanted = [] then some account.authaccess
  else none

/-- The part of `sendProfile` for a request with a body: what the requester may change
is changed in the tables and in the profile that answers. -/
def updateProfile (ev : Event) (authuser : UString) (endpoint : Int) (extension : ExtensionRow)
    (account : AuthorizeRow) (profile : Profile) : Database :=
  let admin := d.tables.isSysadmin ev.number
  let allowed : Bool := admin || account.authname = authuser
  let operAllowed : Bool := admin || d.tables.isMember 0 ev.number
  let wanted := UString.toUpper (ev.json "a")
  let secret := ev.json "s"
  if !allowed && !operAllowed then d.reply ev Sip.forbidden
  else if wanted ≠ [] ∧ admin = false then d.reply ev Sip.forbidden
  else
    match changedAccess account wanted with
    | none => d.reply ev Sip.forbidden
    | some access =>
      let display := if wanted ≠ [] then profile.d
        else if ev.json "d" = [] then fullName account else ev.json "d"
      let email := if wanted = [] ∧ allowed then ev.json "e" else profile.e
      let publicUri := if wanted = [] then profile.p
        else d.publicUri { account with authaccess := access }
      let replaced : Bool := UString.textLength secret = UString.textLength account.secret &&
        0 < UString.textLength secret
      let d := if replaced then d.emit (.dropEndpoint endpoint) else d
      let d := d.runQuery (·.updateExtension extension.extnbr
        (fun row => { row with display }) fun _ => rfl)
      let d := d.runQuery (·.updateAuthorize account.authname
        (fun row => { row with
          email
          authaccess := access
          secret := if replaced then secret else account.secret }) fun _ => rfl)
      d.updateRoster.send (.answerWithJson ev
        (.profile { profile with d := display, e := email, p := publicUri }))

def sendProfile (ev : Event) (authuser : UString) (endpoint : Int) : Database :=
  if d.reachable (target ev) = false then d.reply ev Sip.forbidden
  else
    match d.tables.profile? (target ev) with
    | none => d.reply ev Sip.notFound
    | some (extension,account) =>
      let profile := d.profileOf ev extension account
      if ev.body = [] then d.send (.answerWithJson ev (.profile profile))
      else d.updateProfile ev authuser endpoint extension account profile

/-- The outcome of a check that every management of another record starts with. -/
def found (ev : Event) : Except Nat (ExtensionRow × AuthorizeRow) :=
  if d.reachable (target ev) = false then .error Sip.forbidden
  else
    match d.tables.profile? (target ev) with
    | none => .error Sip.notFound
    | some row => .ok row

def changeAuthorize (ev : Event) : Database :=
  let number := target ev
  if d.inRange number = false then d.reply ev Sip.forbidden
  else if d.tables.isSysadmin ev.number = false then d.reply ev Sip.forbidden
  else
    let exists_ := d.tables.hasExtension number
    let user := ev.json "a"
    let extend (d : Database) (user : UString) (group : Bool) : Database :=
      let d := d.runQuery (·.insertExtension { extnbr := number, authname := user })
      let d := if group then d else d.runQuery (·.insertEndpoint number "NONE" d.clock)
      d.updateRoster.reply ev Sip.ok
    if user ≠ [] then
      if exists_ || d.tables.hasAccount user then d.reply ev Sip.conflict
      else
        let account : AuthorizeRow := {
          authname := user
          fullname := ev.json "f"
          authtype := ev.json "t"
          created := d.clock }
        if isGroup (ev.json "t") then extend (d.runQuery (·.insertAuthorize account)) user true
        else extend (d.runQuery (·.insertAuthorize { account with
          authdigest := ev.json "d"
          realm := ev.json "r"
          secret := ev.json "s" })) user false
    else
      let user := ev.json "e"
      if d.tables.hasAccount user = false then d.reply ev Sip.notFound
      else if user = [] then d.reply ev Sip.ok
      else if exists_ then d.reply ev Sip.conflict
      else extend d user false

def changeTopic (ev : Event) : Database :=
  let number := target ev
  if d.inRange number = false then d.reply ev Sip.forbidden
  else
    match d.tables.profile? number with
    | none => d.reply ev Sip.notFound
    | some (extension,account) =>
      let text := if ev.body ≠ [] then UString.ascii "--- " ++ ev.body
        else UString.ascii "--- changing topic to \"" ++ ev.subject ++ UString.ascii "\""
      if isGroup account.authtype = false then
        let display := Authorize.displayOf extension account
        ((d.reply ev Sip.ok).adminMessage ev number text ev.number display).adminMessage ev
          ev.number text number ev.display
      else if d.tables.isMember number ev.number = false then d.reply ev Sip.forbidden
      else
        let members := d.tables.groups.select fun row => row.grpnbr = number
        members.foldl (fun d row => d.adminMessage ev row.extnbr text number ev.display)
          (d.reply ev Sip.ok)

/-- A number header; a text that is no number counts as -1. -/
def numberOf (text : UString) : Int := if UString.isNumber text then UString.toInt text else -1

def changeForwarding (ev : Event) (authuser : UString) (endpoint : Int) : Database :=
  match d.found ev with
  | .error code => d.reply ev code
  | .ok (_,account) =>
    let number := target ev
    let sysadmin := d.tables.isSysadmin ev.number
    let own : Bool := number ≠ 0 && !isGroup account.authtype
    if !sysadmin && own && number ≠ ev.number then d.reply ev Sip.notAcceptableHere
    else if !sysadmin && !own && !d.tables.isAdmin account.authname ev.number then
      d.reply ev Sip.forbidden
    else
      match ev.header "x-destination" with
      | none => d.reply ev Sip.notAcceptableHere
      | some destination =>
        let fwdTo := numberOf destination
        if 0 < fwdTo ∧ d.inRange fwdTo = false then d.reply ev Sip.forbidden
        else
          let forward (change : AuthorizeRow → AuthorizeRow)
              (same : ∀ row, (change row).authname = row.authname) : Database :=
            (d.runQuery (·.updateAuthorize account.authname change same)).sendProfile ev authuser
              endpoint
          if ev.header "subject" = some (UString.ascii "NA") then
            forward (fun row => { row with fwdnoanswer := fwdTo }) fun _ => rfl
          else if ev.header "subject" = some (UString.ascii "BUSY") then
            forward (fun row => { row with fwdbusy := fwdTo }) fun _ => rfl
          else if ev.header "subject" = some (UString.ascii "AWAY") then
            forward (fun row => { row with fwdaway := fwdTo }) fun _ => rfl
          else d.reply ev Sip.notAcceptableHere

def changeCoverage (ev : Event) (authuser : UString) (endpoint : Int) : Database :=
  match d.found ev with
  | .error code => d.reply ev code
  | .ok (_,account) =>
    match ev.header "x-priority" with
    | none => d.reply ev Sip.notAcceptableHere
    | some value =>
      let priority := numberOf value
      if priority < -1 ∨ 3 < priority then d.reply ev Sip.notAcceptableHere
      else
        let d := if account.authname = authuser then
            d.runQuery (·.updateExtension ev.number
              (fun row => { row with extpriority := priority }) fun _ => rfl)
          else
            let d := d.runQuery fun t => { t with calling := t.calling.filter fun row =>
              !(row.authname = account.authname && row.extnbr = ev.number) }
            if priority = -1 then d
            else d.runQuery (·.insertCalling
              { authname := account.authname, extnbr := ev.number, extpriority := priority })
        d.sendProfile ev authuser endpoint

def dropExtension (ev : Event) (authuser : UString) (endpoint : Int) : Database :=
  match d.found ev with
  | .error code => d.reply ev code
  | .ok (_,account) =>
    if d.tables.isSysadmin ev.number = false then d.reply ev Sip.forbidden
    else if isUser account.authtype = false then d.reply ev Sip.notAcceptableHere
    else
      let d := d.sendProfile ev authuser endpoint
      d.disconnect (d.tables.endpointsOf (target ev))

def changeAdmin (ev : Event) (authuser : UString) (endpoint : Int) : Database :=
  match d.found ev with
  | .error code => d.reply ev code
  | .ok (_,account) =>
    let number := target ev
    if d.tables.isSysadmin ev.number = false then d.reply ev Sip.forbidden
    else
      let d := match ev.header "x-system" with
        | none => d
        | some value =>
          if UString.toBool value then
            d.runQuery (·.insertAdmin { authname := "system", extnbr := number })
          else d.runQuery fun t => { t with admin := t.admin.filter fun row =>
            !(row.authname = "system" && row.extnbr = number) }
      match ev.header "x-suspend" with
      | none => d.sendProfile ev authuser endpoint
      | some value =>
        if isUser account.authtype = false then d.reply ev Sip.notAcceptableHere
        else
          let suspend := UString.toBool value
          let access : UString := if suspend then "SUSPEND" else "LOCAL"
          let d := d.runQuery (·.updateAuthorize account.authname
            (fun row => { row with authaccess := access }) fun _ => rfl)
          let d := d.sendProfile ev authuser endpoint
          if suspend then
            d.disconnect (d.tables.endpoints.select fun row => d.tables.extensions.rows.any
              fun extension => extension.extnbr = row.extnbr && extension.authname = account.authname)
          else d

def numbers (values : List UString) : List Int :=
  ((values.map UString.atoi).filter fun number => 0 < number).dedup

def changeMembership (ev : Event) (authuser : UString) (endpoint : Int) : Database :=
  match d.found ev with
  | .error code => d.reply ev code
  | .ok (extension,account) =>
    let number := target ev
    let display := Authorize.displayOf extension account
    if number ≠ 0 ∧ isGroup account.authtype = false then d.reply ev Sip.notAcceptableHere
    else if !d.tables.isSysadmin ev.number && !d.tables.isAdmin account.authname ev.number then
      d.reply ev Sip.forbidden
    else
      let d := d.runQuery fun t => { t with groups := t.groups.delete fun row => row.grpnbr = number }
      let members := numbers (ev.headersOf "x-group-member")
      let d := members.foldl (fun d member => d.runQuery (·.insertGroup
        { grpnbr := number, extnbr := member })) d
      -- operators have no group admin
      let admin := if number = 0 then 0 else ((ev.header "x-group-admin").map UString.atoi).getD 0
      let d := if 0 < admin then
          let d := d.runQuery (·.insertGroup { grpnbr := number, extnbr := admin })
          let d := d.runQuery fun t => { t with
            admin := t.admin.filter fun row => row.authname ≠ account.authname }
          d.runQuery (·.insertAdmin { authname := account.authname, extnbr := admin })
        else d
      let d := d.sendProfile ev authuser endpoint
      match ev.header "x-reason" with
      | none => d
      | some reason =>
        let text := UString.ascii "--- " ++ UString.unescape reason
        (numbers (ev.headersOf "x-notify")).foldl
          (fun d recipient => d.adminMessage ev recipient text number display) d

def removeDevice (ev : Event) (authuser : UString) (endpoint : Int) : Database :=
  if target ev ≠ ev.number ∨ d.inRange ev.number = false then d.reply ev Sip.forbidden
  else
    match ev.header "x-remove" with
    | none => d.reply ev Sip.notAcceptableHere
    | some label =>
      -- a device cannot remove itself
      if label = ev.label then d.reply ev Sip.forbidden
      else
        match d.tables.endpoint? ev.number label with
        | none => d.reply ev Sip.notFound
        | some row =>
          ((d.emit (.dropEndpoint row.endpoint)).runQuery (·.deleteEndpoint row.endpoint)).sendProfile
            ev authuser endpoint

def sendDeviceList (ev : Event) : Database :=
  let entry (row : EndpointRow) : DeviceEntry :=
    { deviceEntry row with n := UString.number row.extnbr, k := [] }
  d.send (.answerWithJson ev (.devices ((d.tables.endpointsOf ev.number).map entry)))

def rosterEntry (ev : Event) (extension : ExtensionRow) (account : AuthorizeRow) : RosterEntry :=
  let display : UString := if extension.extnbr = 0 then
      if d.operatorPolicy = "public" then "Lobby" else "Operators"
    else Authorize.displayOf extension account
  .contact account.authname (UString.toHex extension.pubkey) account.created extension.extnbr
    (ev.uriTo (UString.number extension.extnbr)) display account.authtype account.email
    (d.publicUri account)
    (if extension.extnbr = ev.number then some extension.extpriority else none)

def sendRoster (ev : Event) (endpoint : Int) : Database :=
  let d := d.runQuery fun t => { t with deletes := t.deletes.map fun row =>
    if row.endpoint = endpoint then { row with delstatus := 1 } else row }
  let removed := (d.tables.deletes.filter fun row => row.endpoint = endpoint).map fun row =>
    RosterEntry.remove row.authname row.created
  let extensions := d.tables.extensions.rows.mergeSort fun a b => a.extnbr ≤ b.extnbr
  let contacts := extensions.filterMap fun extension => do
    let account ← d.tables.account? extension.authname
    if account.authname = "anonymous" then none else some (d.rosterEntry ev extension account)
  d.send (.answerWithJson ev (.roster (removed ++ contacts)))

def lastAccess (endpoint timestamp : Int) (agent : UString) (deviceKey : List UInt8)
    (uri : UString) : Database :=
  d.runQuery (·.updateEndpoint endpoint
    (fun row => { row with
      lastaccess := timestamp
      lasturi := uri
      devkey := if deviceKey = [] then row.devkey else deviceKey
      agent }) (fun _ => rfl) fun _ => rfl)

def handle : Signal → Database
  | .findEndpoint ev => Authorize.findEndpoint d ev
  | .removeAuthorize ev => Authorize.removeAuthorization d ev
  | .changeAuthorize ev => d.changeAuthorize ev
  | .changeTopic ev => d.changeTopic ev
  | .sendDevlist ev => d.sendDeviceList ev
  | .sendRoster ev endpoint => d.sendRoster ev endpoint
  | .sendPending ev endpoint => d.sendPending ev endpoint
  | .changePending endpoint => d.changePending endpoint
  | .removeDevice ev authuser endpoint => d.removeDevice ev authuser endpoint
  | .changeForwarding ev authuser endpoint => d.changeForwarding ev authuser endpoint
  | .changeCoverage ev authuser endpoint => d.changeCoverage ev authuser endpoint
  | .dropExtension ev authuser endpoint => d.dropExtension ev authuser endpoint
  | .changeAdmin ev authuser endpoint => d.changeAdmin ev authuser endpoint
  | .changeMembership ev authuser endpoint => d.changeMembership ev authuser endpoint
  | .changeProfile ev authuser endpoint => d.sendProfile ev authuser endpoint
  | .lastAccess endpoint timestamp agent deviceKey uri =>
    d.lastAccess endpoint timestamp agent deviceKey uri

end Database

end SipWitch
