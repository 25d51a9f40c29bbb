import SipWitch.UString

/-! Requests as the server sees them: what `Event::Data` keeps of a SIP message
(`EXOSIP_MESSAGE_NEW`) and of the context it came through. -/

namespace SipWitch

namespace Sip

def ok : Nat := 200
def unauthorized : Nat := 401
def forbidden : Nat := 403
def notFound : Nat := 404
def methodNotAllowed : Nat := 405
def conflict : Nat := 409
def temporarilyUnavailable : Nat := 480
def addressIncomplete : Nat := 484
def ambiguous : Nat := 485
def notAcceptableHere : Nat := 488
def internalServerError : Nat := 500
def doesNotExistAnywhere : Nat := 604

end Sip

structure Contact where
  hostName : UString := []
  hostPort : UInt16 := 0
  userName : UString := []
  deriving DecidableEq

def Contact.toString (c : Contact) : UString :=
  if c.hostPort = 0 then "invalid"
  else
    let port : UString := UString.ascii ":" ++ UString.number c.hostPort.toNat
    if 58 ∈ c.hostName ∧ c.hostName.head? ≠ some 91 then
      UString.quote c.hostName (91,93) ++ port
    else c.hostName ++ port

inductive Transport where
  | udp | tcp
  deriving DecidableEq

structure Schema where
  name : UString
  uri : UString
  inPort : Nat
  inProto : Transport
  deriving DecidableEq

inductive Protocol where
  | UDP | TCP | TLS | DTLS
  deriving DecidableEq

def Protocol.schema : Protocol → Schema
  | .UDP => ⟨"udp","sip:",5060,.udp⟩
  | .TCP => ⟨"tcp","sip:",5060,.tcp⟩
  | .TLS => ⟨"tls","sips:",5061,.tcp⟩
  | .DTLS => ⟨"dtls","sips:",5061,.udp⟩

/-- A bound context; `index` tells the bindings of one protocol apart. -/
structure Context where
  index : Nat
  proto : Protocol
  registry : Bool := true
  deriving DecidableEq

namespace Context

def type (c : Context) : UString := c.proto.schema.name
def uriPrefix (c : Context) : UString := c.proto.schema.uri
def netProto (c : Context) : Transport := c.proto.schema.inProto

end Context

/-- `osip_authorization_t`: each parameter is the text of the header, quotes and
all, or was not sent. -/
structure OsipAuthorization where
  username : Option UString := none
  realm : Option UString := none
  nonce : Option UString := none
  uri : Option UString := none
  response : Option UString := none
  algorithm : Option UString := none
  deriving DecidableEq

/-- What `Event::Data` keeps of an authorization: one without a user name or a
response is dropped. -/
structure Authorization where
  userid : UString
  digest : UString
  nonce : UString
  realm : UString
  algorithm : UString
  deriving DecidableEq

def Authorization.parse (header : OsipAuthorization) : Option Authorization := do
  let username ← header.username
  let response ← header.response
  return {
    userid := UString.unquote username
    digest := UString.toLower (UString.unquote response)
    nonce := (header.nonce.map (UString.unquote ·)).getD []
    realm := (header.realm.map (UString.unquote ·)).getD []
    algorithm := (header.algorithm.map fun a => UString.toUpper (UString.unquote a)).getD [] }

/-- The defaults are those of a message without the header concerned. -/
structure Event where
  context : Context
  method : UString
  request : UString := []
  number : Int := -1
  label : UString := "NONE"
  initialization : UString := []
  expires : Int := -1
  authorization : Option Authorization := none
  source : Contact := {}
  contacts : List Contact := []
  fromUri : Contact := {}
  fromUser : UString := []
  toUser : Option UString := none
  toLocal : Bool := false
  display : UString := []
  subject : UString := []
  contentType : UString := []
  body : UString := []
  agent : UString := []
  deviceKey : UString := []
  headers : List (UString × UString) := []
  /-- The text members of the JSON object that Qt reads from the body. -/
  members : List (UString × UString) := []
  timestamp : Int := 0
  sequence : Int := 0
  deriving DecidableEq

namespace Event

def authorizingId (ev : Event) : UString := (ev.authorization.map Authorization.userid).getD []
def authorizingDigest (ev : Event) : UString := (ev.authorization.map Authorization.digest).getD []
def authorizingOnce (ev : Event) : UString := (ev.authorization.map Authorization.nonce).getD []
def authorizingRealm (ev : Event) : UString := (ev.authorization.map Authorization.realm).getD []
def authorizingAlgorithm (ev : Event) : UString :=
  (ev.authorization.map Authorization.algorithm).getD []

def protocol (ev : Event) : UString := ev.context.type

/-- Only events with a single contact have one. -/
def contact (ev : Event) : Contact :=
  match ev.contacts with
  | [c] => c
  | _ => {}

def key (ev : Event) : Int × UString := (ev.number,ev.label)

def isLabeled (ev : Event) : Bool := 0 < ev.number && ev.label ≠ "NONE"

def headersOf (ev : Event) (name : UString) : List UString :=
  (ev.headers.filter fun h => h.1 = name).map Prod.snd

def header (ev : Event) (name : UString) : Option UString := (ev.headersOf name).head?

def json (ev : Event) (name : UString) : UString := (ev.members.lookup name).getD []

def uriTo (ev : Event) (id : UString) : UString :=
  if 64 ∈ id ∧ id.head? ≠ some 64 then id
  else if ev.request.take 5 = "sips:" then
    UString.ascii "sips:" ++ id ++ UString.ascii "@" ++ ev.request.drop 5
  else UString.ascii "sip:" ++ id ++ UString.ascii "@" ++ ev.request.drop 4

end Event

end SipWitch
