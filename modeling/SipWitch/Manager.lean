import SipWitch.Signals

/-! The members of `Manager`. Each runs to its end on the manager's thread, reads the
clock as one instant, sends to `wire` and leaves its signals in `emitted`. -/
namespace SipWitch

abbrev Nonce := Vector UInt8 8

structure Manager where
  registries : Registries := {}
  now : Nat := 0
  /-- `Database::range`, `Database::sequence` and the roster counter, as last set. -/
  range : Int × Int := (100,699)
  sequence : Int := 0
  rosterSequence : Nat := 1
  banner : UString := []
  wire : List Output := []
  emitted : List Signal := []

namespace Manager

variable (hash : HashFunction) (m : Manager)

def send (output : Output) : Manager := { m with wire := m.wire ++ [output] }

def reply (ev : Event) (code : Nat) : Manager := m.send (.reply ev code)

def emit (signal : Signal) : Manager := { m with emitted := m.emitted ++ [signal] }

def write (a : Handle) (reg : Registry) : Manager :=
  { m with registries := m.registries.write a reg }

/-- The headers in which a record's challenge is sent. -/
def answer (ev : Event) (reg : Registry) (random : List UInt8) : Challenge where
  realm := UString.quote reg.authRealm
  nonce := UString.quote (Registry.nonceText random)
  algorithm := UString.quote reg.authDigest
  expires := reg.expires
  user := if ev.initialization = "label" ∨ ev.initialization = "user" then some reg.userId
    else none

/-- `Context::challenge`; without fresh bytes the current nonce is sent again. -/
def challenge (ev : Event) (a : Handle) (reg : Registry) (fresh : Option Nonce) : Manager :=
  match fresh with
  | none => m.send (.challenge ev a (answer ev reg reg.random) true)
  | some bytes =>
    let random := bytes.toList
    (m.write a (reg.setNounce random)).send (.challenge ev a (answer ev reg random) false)

def find (ev : Event) : Manager × Option (Handle × Registry) :=
  let (registries,found) := m.registries.findByEvent ev m.now
  ({ m with registries },found)

def dropEndpoint (endpoint : Int) : Manager :=
  let (registries,found) := m.registries.findById endpoint m.now
  match found with
  | none => { m with registries }
  | some (a,_) => { m with registries := registries.delete a }

def cleanup : Manager := { m with registries := m.registries.cleanup m.now }

/-- The party of a delivery as the registered device is told it. -/
def party (reg : Registry) (context : Context) (id : UString) : UString :=
  let origin : UString := UString.ascii "@" ++ reg.userOrigin
  if UString.toInt id = reg.number ∨ id = reg.userId then
    context.uriPrefix ++ UString.number reg.number ++ origin
  else if 64 ∈ id ∧ id.head? ≠ some 64 then id
  else context.uriPrefix ++ id ++ origin

def compose (reg : Registry) (context : Context) (data : MessageData) : Option SipMessage :=
  let admin : Bool := reg.userLabel = "NONE" && data.c = "text/admin"
  let type : UString := if admin then "text/plain" else data.c
  let topic : UString := if admin then "X-Admin" else data.s
  if reg.userLabel = "NONE" ∧ type ≠ "text/plain" then none
  else some {
    sender := UString.quote data.d ++ UString.ascii " <" ++ party reg context data.f ++
      UString.ascii ">"
    recipient := UString.ascii "<" ++ party reg context (UString.number data.t) ++
      UString.ascii ">"
    route := context.uriPrefix ++ reg.route
    subject := topic
    mid := data.r
    ep := UString.number reg.endpointId
    ts := data.p
    ms := UString.number data.u
    type
    body := data.b }

def sendMessage (endpoint : Int) (data : MessageData) : Manager :=
  let (registries,found) := m.registries.findById endpoint m.now
  let m := { m with registries }
  match found with
  | none => m
  | some (a,reg) =>
    match reg.active,reg.serverContext with
    | true,some context =>
      match compose reg context data with
      | none => m
      | some sent => m.send (.message a sent)
    -- will be queued in db only for now; an active record has a context
    | _,_ => m

/-- What every management request goes through before it is granted: a registration
of its number and label, credentials, and their check. -/
def vet (ev : Event) : Manager × Option Registry :=
  match m.find ev with
  | (m,none) => (m.reply ev Sip.forbidden,none)
  | (m,some (a,reg)) =>
    match ev.authorization with
    | none => (m.challenge ev a reg none,none)
    | some _ =>
      let result := reg.authenticate hash ev m.now
      if result ≠ Sip.ok then (m.reply ev result,none) else (m,some reg)

def request (ev : Event) (signal : Registry → Signal) : Manager :=
  match m.vet hash ev with
  | (m,none) => m
  | (m,some reg) => m.emit (signal reg)

def ackPending (ev : Event) : Manager :=
  match m.vet hash ev with
  | (m,none) => m
  | (m,some reg) => (m.reply ev Sip.ok).emit (.changePending reg.endpointId)

def requestDeauthorize (ev : Event) := m.request hash ev fun _ => .removeAuthorize ev
def requestAuthorize (ev : Event) := m.request hash ev fun _ => .changeAuthorize ev
def requestPending (ev : Event) := m.request hash ev fun reg => .sendPending ev reg.endpointId
def requestDevkill (ev : Event) :=
  m.request hash ev fun reg => .removeDevice ev reg.userId reg.endpointId
def requestDevlist (ev : Event) := m.request hash ev fun _ => .sendDevlist ev
def requestTopic (ev : Event) := m.request hash ev fun _ => .changeTopic ev
def requestForwarding (ev : Event) :=
  m.request hash ev fun reg => .changeForwarding ev reg.userId reg.endpointId
def requestCoverage (ev : Event) :=
  m.request hash ev fun reg => .changeCoverage ev reg.userId reg.endpointId
def requestDrop (ev : Event) :=
  m.request hash ev fun reg => .dropExtension ev reg.userId reg.endpointId
def requestAdmin (ev : Event) :=
  m.request hash ev fun reg => .changeAdmin ev reg.userId reg.endpointId
def requestMembership (ev : Event) :=
  m.request hash ev fun reg => .changeMembership ev reg.userId reg.endpointId
def requestProfile (ev : Event) :=
  m.request hash ev fun reg => .changeProfile ev reg.userId reg.endpointId
def requestRoster (ev : Event) := m.request hash ev fun reg => .sendRoster ev reg.endpointId

def xdp (reg : Registry) : UString :=
  let line (key : String) (value : UString) : UString :=
    UString.ascii key ++ value ++ UString.ascii "\n"
  UString.ascii "v=0\n" ++ line "b=" m.banner ++ line "p=" reg.userPrivs ++
    line "d=" reg.userDisplay ++ line "f=" (UString.number m.range.1) ++
    line "l=" (UString.number m.range.2) ++
    line "r=" (UString.number (m.rosterSequence % 8192 : Nat)) ++
    line "s=" (UString.number m.sequence) ++ line "c=" reg.route ++
    line "a=" m.registries.bitmask

def authorized (ev : Event) (before reg : Registry) : Manager :=
  let m := if before.active then m else
    m.emit (.lastAccess reg.endpointId ev.timestamp ev.agent ev.deviceKey reg.uri)
  m.send (.authorize ev reg.expires (if ev.label ≠ "NONE" then m.xdp reg else []))

/-- Releasing a registration expires its record. -/
def release (a : Handle) (reg : Registry) : Manager :=
  if reg.hasExpired m.now then { m with registries := m.registries.delete a } else m

def refreshRegistration (ev : Event) (fresh : Nonce) : Manager :=
  match m.find ev with
  | (m,none) => m.emit (.findEndpoint ev)
  | (m,some (a,reg)) =>
    match ev.authorization with
    | none => m.challenge ev a reg (some fresh)
    | some _ =>
      let (reg',result) := reg.authorize hash ev m.now
      let m := m.write a reg'
      let m := if result = Sip.ok then m.authorized ev reg reg' else m.reply ev result
      m.release a reg'

def createRegistration (ev : Event) (endpoint : Option EndpointInfo) (fresh : Nonce) : Manager :=
  match endpoint with
  | none => m.reply ev Sip.notFound
  | some ep =>
    let (registries,a) := m.registries.create ep m.range m.now
    { m with registries }.challenge ev a (Registry.create ep m.now) (some fresh)

def requestOf (method : Method) (ev : Event) : Manager :=
  match method with
  | .roster => m.requestRoster hash ev
  | .profile => m.requestProfile hash ev
  | .coverage => m.requestCoverage hash ev
  | .forwarding => m.requestForwarding hash ev
  | .admin => m.requestAdmin hash ev
  | .drop => m.requestDrop hash ev
  | .membership => m.requestMembership hash ev
  | .topic => m.requestTopic hash ev
  | .devlist => m.requestDevlist hash ev
  | .devkill => m.requestDevkill hash ev
  | .deauthorize => m.requestDeauthorize hash ev
  | .authorize => m.requestAuthorize hash ev
  | .pending => m.requestPending hash ev
  | .ackPending => m.ackPending hash ev

def handle (slot : Slot) (fresh : Nonce) : Manager :=
  match slot with
  | .refreshRegistration ev => m.refreshRegistration hash ev fresh
  | .request method ev => m.requestOf hash method ev
  | .notice (.createRegistration ev endpoint) => m.createRegistration ev endpoint fresh
  | .notice (.dropEndpoint endpoint) => m.dropEndpoint endpoint
  | .notice (.sendMessage endpoint data) => m.sendMessage endpoint data

section Rules

variable {hash : HashFunction} {m : Manager} {ev : Event} {P : Manager → Prop}

theorem find_cases (m : Manager) (ev : Event) :
    (∃ a reg, m.find ev = (m,some (a,reg)) ∧ m.registries.registries.lookup ev.key = some a ∧
      m.registries.heap.lookup a = some reg ∧ reg.hasExpired m.now = false) ∨
    (m.find ev = (m,none)) ∨
    (∃ a, m.find ev = ({ m with registries := m.registries.delete a },none)) := by
  rcases Registries.unexpired_cases m.registries (m.registries.registries.lookup ev.key) m.now with
    ⟨a,reg,found,entry,live,fresh⟩ | ⟨a,reg,found,-⟩ | ⟨found,-⟩
  · exact .inl ⟨a,reg,by rw [find,Registries.findByEvent,found],entry,live,fresh⟩
  · exact .inr (.inr ⟨a,by rw [find,Registries.findByEvent,found]⟩)
  · exact .inr (.inl (by rw [find,Registries.findByEvent,found]))

/-- What the manager's members do to its state, apart from the making of a record. A
property that these keep is kept by every member. -/
structure Kept (hash : HashFunction) (P : Manager → Prop) : Prop where
  delete : ∀ m a, P m → P { m with registries := m.registries.delete a }
  authorize : ∀ m a reg ev, m.registries.heap.lookup a = some reg → P m →
    P (m.write a (reg.authorize hash ev m.now).1)
  challenge : ∀ m a reg ev fresh, m.registries.heap.lookup a = some reg → P m →
    P (m.challenge ev a reg fresh)
  send : ∀ m output, output.isChallenge = false → P m → P (m.send output)
  emit : ∀ m signal, P m → P (m.emit signal)

namespace Kept

variable (kept : Kept hash P) (holds : P m)

include kept holds

theorem reply (ev : Event) (code : Nat) : P (m.reply ev code) := kept.send _ _ rfl holds

theorem cleanup : P m.cleanup := by
  have loop (snapshot : List Handle) : ∀ t, P { m with registries := t } →
      P { m with registries := snapshot.foldl (Registries.expire m.now) t } := by
    induction snapshot with
    | nil => exact fun t holds => holds
    | cons a rest ih =>
      refine fun t holds => ih _ ?_
      simp only [Registries.expire]
      split
      · split
        · exact kept.delete _ a holds
        · exact holds
      · exact holds
  exact loop _ _ holds

theorem findById (endpoint : Int) :
    P { m with registries := (m.registries.findById endpoint m.now).1 } := by
  rcases Registries.unexpired_cases m.registries (m.registries.endpoints.lookup endpoint) m.now with
    ⟨a,reg,found,-⟩ | ⟨a,reg,found,-⟩ | ⟨found,-⟩ <;> rw [Registries.findById,found]
  · exact holds
  · exact kept.delete _ a holds
  · exact holds

theorem vet (ev : Event) : P (m.vet hash ev).1 := by
  rcases m.find_cases ev with ⟨a,reg,found,-,live,-⟩ | found | ⟨a,found⟩ <;>
    simp only [Manager.vet,found]
  · cases ev.authorization with
    | none => exact kept.challenge m a reg ev none live holds
    | some creds =>
      dsimp only
      split
      · exact kept.reply holds _ _
      · exact holds
  · exact kept.reply holds _ _
  · exact kept.reply (kept.delete _ a holds) _ _

theorem request (ev : Event) (signal : Registry → Signal) : P (m.request hash ev signal) := by
  have admitted := kept.vet holds ev
  simp only [Manager.request]
  split <;> rename_i shape <;> rw [shape] at admitted
  · exact admitted
  · exact kept.emit _ _ admitted

theorem ackPending (ev : Event) : P (m.ackPending hash ev) := by
  have admitted := kept.vet holds ev
  simp only [Manager.ackPending]
  split <;> rename_i shape <;> rw [shape] at admitted
  · exact admitted
  · exact kept.emit _ _ (kept.reply admitted _ _)

theorem requestOf (method : Method) (ev : Event) : P (m.requestOf hash method ev) := by
  cases method <;> first | exact kept.ackPending holds ev | exact kept.request holds ev _

theorem authorized (ev : Event) (before reg : Registry) : P (m.authorized ev before reg) := by
  simp only [Manager.authorized]
  split
  · exact kept.send _ _ rfl holds
  · exact kept.send _ _ rfl (kept.emit _ _ holds)

theorem release (a : Handle) (reg : Registry) : P (m.release a reg) := by
  simp only [Manager.release]
  split
  · exact kept.delete _ a holds
  · exact holds

theorem refreshRegistration (ev : Event) (fresh : Nonce) :
    P (m.refreshRegistration hash ev fresh) := by
  rcases m.find_cases ev with ⟨a,reg,found,-,live,-⟩ | found | ⟨a,found⟩ <;>
    simp only [Manager.refreshRegistration,found]
  · cases ev.authorization with
    | none => exact kept.challenge m a reg ev (some fresh) live holds
    | some creds =>
      have written := kept.authorize m a reg ev live holds
      refine kept.release ?_ _ _
      split
      · exact kept.authorized written _ _ _
      · exact kept.reply written _ _
  · exact kept.emit _ _ holds
  · exact kept.emit _ _ (kept.delete _ a holds)

theorem dropEndpoint (endpoint : Int) : P (m.dropEndpoint endpoint) := by
  have looked := kept.findById holds endpoint
  simp only [Manager.dropEndpoint]
  split
  · exact looked
  · exact kept.delete _ _ looked

theorem sendMessage (endpoint : Int) (data : MessageData) : P (m.sendMessage endpoint data) := by
  have looked := kept.findById holds endpoint
  simp only [Manager.sendMessage]
  split
  · exact looked
  · split
    · split
      · exact looked
      · exact kept.send _ _ rfl looked
    · exact looked

theorem handle (slot : Slot) (fresh : Nonce)
    (created : ∀ ev ep, slot = .notice (.createRegistration ev (some ep)) →
      P (m.createRegistration ev (some ep) fresh)) : P (m.handle hash slot fresh) := by
  cases slot with
  | refreshRegistration ev => exact kept.refreshRegistration holds ev fresh
  | request method ev => exact kept.requestOf holds method ev
  | notice notice =>
    cases notice with
    | createRegistration ev endpoint =>
      cases endpoint with
      | none => exact kept.reply holds _ _
      | some ep => exact created ev ep rfl
    | dropEndpoint endpoint => exact kept.dropEndpoint holds endpoint
    | sendMessage endpoint data => exact kept.sendMessage holds endpoint data

end Kept

end Rules

end Manager

end SipWitch
