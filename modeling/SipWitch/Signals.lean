import SipWitch.Registries

/-! What the server's threads hand to the SIP stack and to one another. -/
namespace SipWitch

structure Challenge where
  realm : UString
  nonce : UString
  algorithm : UString
  expires : Int
  user : Option UString
  deriving DecidableEq

/-- The data of a stored message on its way to the manager, by the source's keys:
from, to, display, content type, body, subject, posted, sequence, expires, row id. -/
structure MessageData where
  f : UString
  t : Int
  d : UString
  c : UString
  b : UString
  s : UString
  p : Int
  u : Int
  e : Int
  r : UString
  deriving DecidableEq

/-- An outgoing MESSAGE. `ts` is printed as ISO text to the second. -/
structure SipMessage where
  sender : UString
  recipient : UString
  route : UString
  subject : UString
  mid : UString
  ep : UString
  ts : Int
  ms : UString
  type : UString
  body : UString
  deriving DecidableEq

structure PendingEntry where
  f : UString
  t : UString
  d : UString
  b : UString
  c : UString
  s : UString
  p : Int
  u : Int
  e : Int
  deriving DecidableEq

structure DeviceEntry where
  e : UString
  n : UString := []
  k : UString := []
  u : UString
  a : UString
  l : UString
  r : Int
  o : Int
  deriving DecidableEq

structure Profile where
  a : UString
  c : Int
  k : UString
  n : Int
  d : UString
  g : UString
  m : UString
  u : UString
  t : UString
  e : UString
  p : UString
  i : UString
  s : UString
  busy : Int
  noanswer : Int
  away : Int
  cc : Int
  gp : Int
  rp : Int
  speeds : List (UString × UString) := []
  ep : Option (List DeviceEntry) := none
  deriving DecidableEq

inductive RosterEntry where
  | remove (a : UString) (c : Int)
  | contact (a k : UString) (c n : Int) (u d t e p : UString) (rp : Option Int)
  deriving DecidableEq

inductive Document where
  | devices (list : List DeviceEntry)
  | profile (profile : Profile)
  | roster (list : List RosterEntry)
  | pending (list : List PendingEntry)
  deriving DecidableEq

inductive Output where
  | reply (ev : Event) (code : Nat)
  | challenge (ev : Event) (registry : Handle) (answer : Challenge) (reuse : Bool)
  | authorize (ev : Event) (expires : Int) (xdp : UString)
  | answerWithTimestamp (ev : Event) (code : Nat)
  | answerWithJson (ev : Event) (document : Document)
  | message (registry : Handle) (sent : SipMessage)
  deriving DecidableEq

def Output.isChallenge : Output → Bool
  | .challenge .. => true
  | _ => false

/-- The signals of the manager, received by the authorize and database threads. -/
inductive Signal where
  | findEndpoint (ev : Event)
  | removeAuthorize (ev : Event)
  | changeAuthorize (ev : Event)
  | changeTopic (ev : Event)
  | sendDevlist (ev : Event)
  | sendRoster (ev : Event) (endpoint : Int)
  | sendPending (ev : Event) (endpoint : Int)
  | changePending (endpoint : Int)
  | removeDevice (ev : Event) (authuser : UString) (endpoint : Int)
  | changeForwarding (ev : Event) (authuser : UString) (endpoint : Int)
  | changeCoverage (ev : Event) (authuser : UString) (endpoint : Int)
  | dropExtension (ev : Event) (authuser : UString) (endpoint : Int)
  | changeAdmin (ev : Event) (authuser : UString) (endpoint : Int)
  | changeMembership (ev : Event) (authuser : UString) (endpoint : Int)
  | changeProfile (ev : Event) (authuser : UString) (endpoint : Int)
  | lastAccess (endpoint : Int) (timestamp : Int) (agent : UString) (deviceKey : List UInt8)
      (uri : UString)
  deriving DecidableEq

inductive Method where
  | roster | profile | coverage | forwarding | admin | drop | membership | topic
  | devlist | devkill | deauthorize | authorize | pending | ackPending
  deriving DecidableEq

inductive Notice where
  | createRegistration (ev : Event) (endpoint : Option EndpointInfo)
  | dropEndpoint (endpoint : Int)
  | sendMessage (endpoint : Int) (data : MessageData)
  deriving DecidableEq

inductive Slot where
  | refreshRegistration (ev : Event)
  | request (method : Method) (ev : Event)
  | notice (notice : Notice)
  deriving DecidableEq

end SipWitch
