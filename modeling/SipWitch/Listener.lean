import SipWitch.RequestUri

/-! The two ways of a message to a labelled device: as a MESSAGE of its own, which the
client's listener takes apart again, and as an entry of the answer to X-PENDING. Both
end in `Sessions::receiveText`. -/
namespace SipWitch

namespace Sip

def undecipherable : Nat := 493
def messageTooLarge : Nat := 513

end Sip

/-- An address after `osip_uri_parse`; `text` is what `osip_uri_to_str` prints of it. -/
structure OsipUri where
  username : Option UString
  host : UString
  port : Option UString := none
  text : UString

structure OsipMessage where
  sender : OsipUri
  recipient : OsipUri
  contentType : Option (UString × Option UString)
  body : Option UString
  headers : List (UString × UString)

namespace OsipMessage

def header (msg : OsipMessage) (name : UString) : Option UString := msg.headers.lookup name

end OsipMessage

/-- A server's address as `UString::uri` prints it behind the scheme or the user: the
port is left out when it is the scheme's own. -/
def UString.hostPort (secure : Bool) (server : UString) (port : UInt16) : UString :=
  let host := UString.unquote server (91,93)
  let suffix := if port = (if secure then 5061 else 5060) then []
    else UString.ascii ":" ++ UString.number port.toNat
  (if 58 ∈ host then UString.quote host (91,93) else host) ++ suffix

def UString.schema (secure : Bool) : UString := if secure then "sips:" else "sip:"

namespace Osip

/-- `__osip_quote_find`: what follows the next quote that is not escaped. -/
def quoteFind : Bool → UString → Option UString
  | _,[] => none
  | escaped,c :: rest =>
    if c = 34 ∧ escaped = false then some rest else quoteFind (c = 92 && !escaped) rest

/-- A display that is one quoted string when it is put between quotes. -/
def Quotable (display : UString) : Prop := quoteFind false (display ++ [34]) = some []

instance (display : UString) : Decidable (Quotable display) :=
  inferInstanceAs (Decidable (_ = _))

/-- `osip_from_parse` of a header with angle brackets: the text of its address. -/
def fromParse (header : UString) : Option UString := do
  let rest ← match header.dropWhile fun c => c = 32 with
    | 34 :: display => (quoteFind false display).map (List.dropWhile fun c => c = 32)
    | rest => some rest
  match rest with
  | 60 :: url => if 62 ∈ url then some (url.takeWhile fun c => c ≠ 62) else none
  | _ => none

def contentType (value : UString) : Option (UString × Option UString) :=
  some (value.takeWhile fun c => c ≠ 47,
    if 47 ∈ value then some ((value.dropWhile fun c => c ≠ 47).drop 1) else none)

def Numeral (id : UString) : Prop := id ≠ [] ∧ ∀ c ∈ id, UString.isDigit c ∨ c = 45

def HostName (host : UString) : Prop := host ≠ [] ∧ ∀ c ∈ host,
  UString.isDigit c ∨ (97 ≤ c ∧ c ≤ 122) ∨ (65 ≤ c ∧ c ≤ 90) ∨ c = 45 ∨ c = 46 ∨ c = 58

end Osip

/-- The libraries that both programs are built with. `read` is what the client's osip
has of an address that the server's osip was given. -/
structure Libraries where
  read : UString → Option OsipUri
  /-- `QDateTime::toString(Qt::ISODate)` and `QDateTime::fromString`. -/
  isoDate : Int → UString
  fromIso : UString → Option Int
  /-- A number at a host is read as it is. -/
  reads : ∀ secure tls id server port, Osip.Numeral id →
    Osip.HostName (UString.unquote server (91,93)) →
    let text := UString.schema secure ++ id ++ UString.ascii "@" ++
      UString.hostPort tls server port
    read text = some {
      username := some id
      host := UString.unquote server (91,93)
      port := if port = (if tls then 5061 else 5060) then none else some (UString.number port.toNat)
      text }
  printed : ∀ time, Osip.clrncpy (isoDate time) = isoDate time

structure TextArguments where
  sipFrom : UString
  sipTo : UString
  text : UString
  /-- Not every text is a time. -/
  timestamp : Option Int
  sequence : Int
  subject : UString
  type : UString
  deriving DecidableEq

def TextArguments.isAdmin (args : TextArguments) : Bool := args.type = "text/admin"

/-- A connected client: the server it was given, and the numbers it goes by. -/
structure Listener where
  serverHost : UString
  serverPort : UInt16
  tls : Bool := false
  serverId : UString
  serverUser : UString := []

namespace Listener

variable (l : Listener)

def basePort : UInt16 := if l.tls then 5061 else 5060

def uriRoute : UString := UString.schema l.tls ++ UString.hostPort l.tls l.serverHost l.serverPort

def portOf (url : OsipUri) : UInt16 :=
  match url.port with
  | some text => UInt16.ofInt (UString.atoi text)
  | none => l.basePort

def isLocal (url : OsipUri) : Bool :=
  let port := l.portOf url
  if url.host = l.serverHost ∧ port = l.serverPort then true
  else if url.host ≠ l.serverHost then false
  else if l.serverPort = 0 ∧ port = l.basePort then true
  else l.serverPort = l.basePort && port = 0

/-- The party that an address names to the client, which has one name for itself. -/
def party (url : OsipUri) (id : UString) : UString :=
  if l.isLocal url then if id ≠ l.serverId ∧ id ≠ l.serverUser then id else l.serverId
  else url.text

def receiveMessage (lib : Libraries) (msg : OsipMessage) : Except Nat TextArguments :=
  match msg.body,msg.contentType with
  | some body,some (type,subtype) =>
    match msg.recipient.username,msg.sender.username with
    | some toUser,some fromUser =>
      let sipTo := l.party msg.recipient toUser
      let sipFrom := l.party msg.sender fromUser
      let msgType : UString := match subtype with
        | some subtype => type ++ UString.ascii "/" ++ subtype
        | none => type
      -- cant be to and from same identity
      if sipTo = sipFrom then .error Sip.ambiguous
      else if msgType ≠ "text/plain" ∧ msgType ≠ "text/admin" then .error Sip.notAcceptableHere
      else if 160 < body.length then .error Sip.messageTooLarge
      else .ok {
        sipFrom
        sipTo
        text := body
        timestamp := (msg.header "x-ts").bind lib.fromIso
        sequence := ((msg.header "x-ms").map UString.atoi).getD 0
        subject := (msg.header "subject").getD "None"
        type := msgType }
    | _,_ => .error Sip.addressIncomplete
  | _,_ => .error Sip.undecipherable

end Listener

inductive Relay where
  | localMessage
  | outboundMessage
  deriving DecidableEq

/-- The branch of `Context::process` for a MESSAGE. Once it has been signalled, control
falls through to the answer for methods that are not known. -/
def Context.processMessage (ev : Event) : List Output × Option Relay :=
  let unknown := Output.reply ev Sip.notAcceptableHere
  if ev.toUser = none then ([.reply ev Sip.addressIncomplete],none)
  else if ev.number < 1 ∧ ev.toLocal = false then ([.reply ev Sip.forbidden],none)
  else if ev.toLocal ∧ ev.number < 0 then ([unknown],some .localMessage)
  else if ev.fromUser = [] then ([.reply ev Sip.addressIncomplete],none)
  else if ev.contentType ≠ "text/plain" ∨ 160 < ev.body.length then ([.reply ev Sip.forbidden],none)
  else if ev.toLocal then
    ((if ev.isLabeled then [.answerWithTimestamp ev Sip.ok] else []) ++ [unknown],some .localMessage)
  else ([unknown],some .outboundMessage)

/-- `Context::message` and the way to the client; the header's names are compared
without their case. -/
def Libraries.transmit (lib : Libraries) (sent : SipMessage) : Option OsipMessage := do
  let sender ← lib.read (← Osip.fromParse sent.sender)
  let recipient ← lib.read (← Osip.fromParse sent.recipient)
  return {
    sender
    recipient
    contentType := Osip.contentType sent.type
    body := if sent.body = [] then none else some sent.body
    headers := [("subject",Osip.clrncpy sent.subject),("x-mid",Osip.clrncpy sent.mid),
      ("x-ep",Osip.clrncpy sent.ep),("x-ts",Osip.clrncpy (lib.isoDate sent.ts)),
      ("x-ms",Osip.clrncpy sent.ms)] }

/-- An entry of the pending answer as the `syncPending` handler takes it apart. -/
def Libraries.syncPending (lib : Libraries) (entry : PendingEntry) : Option TextArguments :=
  if entry.c = "text" ∨ entry.c = "admin" then some {
    sipFrom := entry.f
    sipTo := entry.t
    text := entry.b
    timestamp := lib.fromIso (lib.isoDate entry.p)
    sequence := entry.u
    subject := entry.s
    type := UString.ascii "text/" ++ entry.c }
  else none

end SipWitch
