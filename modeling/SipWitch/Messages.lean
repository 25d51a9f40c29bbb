import SipWitch.Authorize

/-! The message slots of `Database`: storing a message with one outbox row for each
endpoint it is for, the state of these rows, and the copies a new label is given. -/
namespace SipWitch

namespace Database

variable (d : Database)

def isFile : Bool := !d.tables.enforced

def day : Int := 86400000

def expiry (posted expires : Int) : Int :=
  if 0 < expires then posted + expires * 1000 else posted + 30 * day

/-- One outbox row and, unless it needs none, one transmission. -/
def post (d : Database) (mid : Int) (data : MessageData) (box : Int × Int) : Database :=
  let d := d.runQuery (·.insertOutbox { mid, endpoint := box.1, msgstatus := box.2 })
  if box.2 = Sip.ok then d else d.emit (.sendMessage box.1 data)

def adminRow (ev : Event) (recipient : Int) (text : UString) (sender : Int) (display : UString)
    (expires : Int) : MessageRow where
  mid := d.tables.messages.next
  msgseq := ev.sequence
  msgfrom := UString.number sender
  msgto := UString.number recipient
  subject := UString.fromUtf8 ev.subject
  display := UString.fromUtf8 display
  posted := ev.timestamp
  msgtype := "admin"
  msgtext := UString.fromUtf8 text
  expires := expiry ev.timestamp expires

def adminData (ev : Event) (recipient expires : Int) (stored : MessageRow) : MessageData where
  f := stored.msgfrom
  t := recipient
  d := stored.display
  c := "text/admin"
  b := stored.msgtext
  s := ev.subject
  p := ev.timestamp
  u := ev.sequence
  e := expires
  r := UString.number stored.mid

/-- The second half of `adminMessage`, with the endpoints it has read. -/
def storeAdmin (ev : Event) (recipient : Int) (text : UString) (sender : Int)
    (display : UString) (expires : Int) (sendList : List Int) : Database :=
  let stored := d.adminRow ev recipient text sender display expires
  let d := d.runQuery (·.insertMessage stored)
  (sendList.map fun endpoint => (endpoint,0)).foldl
    (fun d box => d.post stored.mid (adminData ev recipient expires stored) box) d

def adminMessage (ev : Event) (recipient : Int) (text : UString) (sender : Int)
    (display : UString) (expires : Int := 0) : Database :=
  d.storeAdmin ev recipient text sender display expires
    ((d.tables.endpointsOf recipient).map EndpointRow.endpoint)

/-- What the sender's own endpoints tell: how many they are, the sending device and
the archive of its extension, and the endpoints to keep in step. -/
structure Scan where
  count : Nat := 0
  self : Int := -1
  none : Int := -1
  sendList : List Int := []

def scan (ev : Event) (acc : Scan) (row : EndpointRow) : Scan :=
  let acc := { acc with count := acc.count + 1 }
  let listed := { acc with sendList := acc.sendList.insert row.endpoint }
  if ev.isLabeled && row.label = ev.label then { listed with self := row.endpoint }
  else if !ev.isLabeled then acc
  else if row.label = "NONE" then { listed with none := row.endpoint }
  else listed

def scanSender (ev : Event) : Scan :=
  if 0 < ev.number then (d.tables.endpointsOf ev.number).foldl (scan ev) {} else {}

def targets (ev : Event) (recipient : UString) : List Int :=
  if UString.isNumber recipient then
    let number := UString.toInt recipient
    let members := d.tables.groups.select fun row => row.grpnbr = number
    if members = [] then [number]
    -- a message is not sent back to its sender
    else (members.map GroupRow.extnbr).filter fun member => member ≠ ev.number
  else
    let name := UString.fromUtf8 recipient
    (d.tables.extensions.select fun row => row.authname = name).map ExtensionRow.extnbr

def isLobby (targets : List Int) : Bool := targets = [0] && d.operatorPolicy = "public"

def addressed (targets : List Int) : List EndpointRow :=
  if d.isLobby targets then d.tables.endpoints.select EndpointRow.labelled
  else targets.flatMap d.tables.endpointsOf

def storedMessage (ev : Event) (recipient : UString) : MessageRow where
  mid := d.tables.messages.next
  msgseq := ev.sequence
  msgfrom := UString.fromUtf8 (if ev.number < 1 then ev.fromUri.toString
    else UString.unquote ev.fromUser)
  msgto := UString.fromUtf8 recipient
  subject := UString.fromUtf8 ev.subject
  display := UString.fromUtf8 ev.display
  posted := ev.timestamp
  msgtype := "text"
  msgtext := if ev.contentType = "text/plain" then UString.fromUtf8 ev.body else []
  expires := expiry ev.timestamp ev.expires

def messageData (ev : Event) (stored : MessageRow) : MessageData where
  f := stored.msgfrom
  t := UString.textToInt stored.msgto
  d := ev.display
  c := ev.contentType
  b := ev.body
  s := ev.subject
  p := ev.timestamp
  u := ev.sequence
  e := ev.expires
  r := UString.number stored.mid

/-- The second half of `localMessage`, with the endpoints it has read. -/
def storeLocal (ev : Event) (sender : Scan) (sendList : List Int) : Database :=
  let isLabeled := ev.isLabeled
  if sendList = [] then if isLabeled then d else d.reply ev Sip.notFound
  else
    let stored := d.storedMessage ev (ev.toUser.getD [])
    let d := d.runQuery (·.insertMessage stored)
    -- labelled clients were answered when the message arrived
    let d := if isLabeled then d else d.reply ev Sip.ok
    let boxes := sendList.map fun endpoint =>
      (endpoint,if endpoint = sender.self ∨ endpoint = sender.none then (Sip.ok : Int) else 0)
    boxes.foldl (fun d box => d.post stored.mid (messageData ev stored) box) d

def localMessage (ev : Event) : Database :=
  let sender := d.scanSender ev
  if 0 < ev.number ∧ sender.count = 0 then d.reply ev Sip.forbidden
  else
    let targets := d.targets ev (ev.toUser.getD [])
    if targets = [] ∧ ev.isLabeled = false then d.reply ev Sip.notFound
    else d.storeLocal ev sender ((d.addressed targets).foldl
      (fun list row => list.insert row.endpoint) sender.sendList)

/-- `mid` and `ep` are the headers of the transmission that was answered. -/
def messageResponse (mid ep : UString) (status : Int) : Database :=
  d.runQuery (·.setStatus status fun row =>
    row.mid = UString.toLongLong mid && row.endpoint = UString.toLongLong ep)

def changePending (endpoint : Int) : Database :=
  d.runQuery (·.setStatus 200 fun row => row.msgstatus = 100 && row.endpoint = endpoint)

def pendingRows (endpoint : Int) : List MessageRow :=
  (d.tables.outboxes.select fun row => row.endpoint = endpoint && row.msgstatus ≠ 200).filterMap
    fun row => d.tables.messages.rows.find? fun message => message.mid = row.mid

def pendingEntry (row : MessageRow) : PendingEntry where
  f := row.msgfrom
  t := row.msgto
  d := row.display
  b := row.msgtext
  c := row.msgtype
  s := row.subject
  p := row.posted
  u := row.msgseq
  e := row.expires

def sendPending (ev : Event) (endpoint : Int) : Database :=
  let d := d.runQuery fun t => { t with
    deletes := t.deletes.filter fun row => !(row.delstatus = 1 && row.endpoint = endpoint) }
  -- each row is put before the ones already listed
  let list := (d.pendingRows endpoint).reverse.map pendingEntry
  let d := d.runQuery (·.setStatus 100 fun row => row.msgstatus ≠ 200 && row.endpoint = endpoint)
  if list = [] then d.reply ev Sip.ok else d.send (.answerWithJson ev (.pending list))

/-- The loop of `copyOutbox`. A refused row makes a networked driver close and reopen
the connection, which ends the query that is being read. -/
def copyRows (target : Int) : List OutboxRow → Tables → Tables
  | [],t => t
  | row :: rest,t =>
    let copy : OutboxRow := { mid := row.mid, endpoint := target }
    if t.accepts (t.hasMessage copy.mid && t.hasEndpoint copy.endpoint) ∧ t.outboxes.Admits copy then
      copyRows target rest (t.insertOutbox copy)
    else if t.enforced then t
    else copyRows target rest t

/-- The rows of the source come in the order that the driver returns them in. -/
def copyOutbox (target : Int) (rows : List OutboxRow) : Database :=
  d.runQuery (copyRows target rows)

def syncOutbox (endpoint : Int) : Database :=
  d.runQuery (·.setStatus 0 fun row => row.endpoint = endpoint)

def cleanupMessages (retention : Int) : Database :=
  d.runQuery (·.deleteMessages (d.clock - retention * day))

end Database

end SipWitch
