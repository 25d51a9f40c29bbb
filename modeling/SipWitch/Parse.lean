import SipWitch.Addressee

/-! `Event::Data::parseMessage`: what an event keeps of a message, as the parser of the
SIP library hands it over. That library's `osip_atoi` is a parameter. -/
namespace SipWitch

namespace Osip

structure FullUri extends Uri where
  scheme : Option UString := none
  port : Option UString := none

/-- `rport` and `received` are the values of these parameters. -/
structure Via where
  host : Option UString
  port : Option UString := none
  rport : Option UString := none
  received : Option UString := none

structure ContactHeader where
  url : Option FullUri
  expires : Option UString := none

structure Party where
  displayname : Option UString := none
  url : Option FullUri

structure ContentType where
  type : Option UString
  subtype : Option UString

structure Message where
  vias : List Via := []
  headers : List (UString × Option UString) := []
  allows : List (Option UString) := []
  contacts : List ContactHeader := []
  recordRoutes : List (Option FullUri) := []
  routes : List (Option FullUri) := []
  fromHeader : Option Party := none
  toHeader : Option Party := none
  contentType : Option ContentType := none
  body : UString := []

def Message.header (m : Message) (name : UString) : Option UString :=
  (m.headers.find? fun h => UString.toLower h.1 = name).bind Prod.snd

end Osip

open Osip

namespace Contact

def bool (c : Contact) : Bool := c.hostPort ≠ 0 && c.hostName ≠ []

def not (c : Contact) : Bool := c.hostPort = 0 && c.hostName ≠ []

end Contact

def portNumber (text : UString) : UInt16 := UInt16.ofInt (UString.atoi text)

def Contact.ofUri (uri : Option FullUri) : Contact :=
  match uri with
  | none => {}
  | some uri =>
    match uri.host with
    | none | some [] => {}
    | some host => {
        hostName := host
        userName := uri.username.getD []
        hostPort :=
          match uri.port with
          | none | some [] => if uri.scheme = some (UString.ascii "sips") then 5061 else 5060
          | some port => portNumber port }

/-- A contact with its `expiration`, a time in seconds that is 0 without one. -/
structure TimedContact extends Contact where
  expiration : Int := 0
  deriving DecidableEq

def TimedContact.refresh (c : TimedContact) (seconds now : Int) : TimedContact :=
  if seconds < 0 then { c with expiration := 0 }
  else { c with expiration := (if c.expiration = 0 then now else c.expiration) + seconds }

/-- The value of a header that is looked for under two names, -1 without one. -/
def headerExpires (m : Osip.Message) : Int :=
  match m.header (UString.ascii "session-expires") with
  | some value => UString.atoi value
  | none =>
    match m.header (UString.ascii "expires") with
    | some value => UString.atoi value
    | none => -1

structure Parsed where
  hops : Nat
  natted : Bool
  source : Contact
  agent : UString
  expires : Int
  label : UString
  initialization : UString
  deviceKey : UString
  subject : UString
  allows : List UString
  contacts : List TimedContact
  routes : List Contact
  record : Bool
  fromUri : Contact
  display : UString
  toUri : Contact
  content : UString
  body : UString
  contentType : UString

/-- What the loop over the Via headers carries: the last address and the nat. -/
structure Trail where
  hops : Nat := 0
  source : Contact := {}
  nat : Contact := {}

section Vias

variable (defaultPort : UInt16)

/-- The address a Via names. -/
def Osip.Via.address (via : Via) (host : UString) : Contact :=
  { hostName := host, hostPort := (via.port.map portNumber).getD defaultPort }

def parseVia (s : Trail) (via : Via) : Trail :=
  let s := { s with hops := s.hops + 1 }
  match via.host with
  | none => s
  | some addr =>
    let rport := (via.rport.map portNumber).getD 0
    let s := { s with source := via.address defaultPort addr }
    -- top nat only
    if s.nat.not ∧ rport ≠ 0 then
      match via.received with
      | some received => { s with nat := { hostName := received, hostPort := rport } }
      | none => s
    else s

def parseVias (vias : List Via) : Trail := vias.foldl (parseVia defaultPort) {}

end Vias

variable (osipAtoi : UString → Int)

/-- `Contact::Contact(osip_contact_t *)`; the caller has made sure of the host. -/
def TimedContact.ofContact (now : Int) (contact : ContactHeader) : TimedContact :=
  let base : TimedContact := { Contact.ofUri contact.url with }
  match contact.url.bind (·.host) with
  | none | some [] => base
  | some _ =>
    match contact.expires with
    | some value => base.refresh (osipAtoi value) now
    | none => base

def hasHost (uri : Option FullUri) : Bool := (uri.bind (·.host)).isSome

def displayOf (party : Party) : UString :=
  match party.displayname,party.url.bind (·.username) with
  | some name,_ => UString.unquote name
  | none,some username => UString.unquote username
  | none,none => []

def contentOf (type subtype : UString) : UString := type ++ UString.ascii "/" ++ subtype

def parseMessage (defaultPort : UInt16) (now : Int) (m : Osip.Message) : Parsed :=
  let trail := parseVias defaultPort m.vias
  let recorded := (m.recordRoutes.filter hasHost).map Contact.ofUri
  { hops := trail.hops
    -- nat overrides last via contact source address
    natted := trail.nat.bool
    source := if trail.nat.bool then trail.nat else trail.source
    agent := (m.header (UString.ascii "user-agent")).getD []
    expires := headerExpires m
    label :=
      match m.header (UString.ascii "x-label") with
      | some value => UString.unquote (UString.toLower value)
      | none => UString.ascii "NONE"
    initialization := ((m.header (UString.ascii "x-initialize")).map UString.toLower).getD []
    deviceKey := ((m.header (UString.ascii "x-device")).map UString.fromHex).getD []
    subject := (m.header (UString.ascii "subject")).getD []
    allows := (m.allows.filterMap id).map UString.toLower
    contacts := (m.contacts.filter fun c => hasHost c.url).map (TimedContact.ofContact osipAtoi now)
    routes := if recorded ≠ [] then recorded else (m.routes.filter hasHost).map Contact.ofUri
    record := recorded ≠ []
    fromUri := Contact.ofUri (m.fromHeader.bind Party.url)
    display := (m.fromHeader.map displayOf).getD []
    toUri := Contact.ofUri (m.toHeader.bind Party.url)
    content :=
      match m.contentType with
      | some ⟨some type,some subtype⟩ => contentOf type subtype
      | some ⟨some type,none⟩ => type
      | _ => []
    body := m.body
    contentType :=
      if m.body = [] then []
      else
        match m.contentType with
        | some ⟨type,some subtype⟩ => contentOf (type.getD []) subtype
        | some ⟨some type,none⟩ => type
        | _ => [] }

def Parsed.event (p : Parsed) (ev : Event) : Event :=
  { ev with
    label := p.label
    initialization := p.initialization
    expires := p.expires
    source := p.source
    contacts := p.contacts.map TimedContact.toContact
    fromUri := p.fromUri
    display := p.display
    subject := p.subject
    contentType := p.contentType
    body := p.body
    agent := p.agent
    deviceKey := p.deviceKey }

/-! ## The source address -/

/-- `!c` is the negation of `bool(c)` for the contacts with a host only. -/
theorem Contact.not_eq_iff (c : Contact) : c.not = (!c.bool) ↔ c.hostName ≠ [] := by
  by_cases host : c.hostName = [] <;> by_cases port : c.hostPort = 0 <;>
    simp [Contact.not,Contact.bool,host,port]

/-- The address behind a nat that a Via carries: `received` with the port of `rport`. -/
def Osip.Via.reflexive (via : Via) : Option Contact :=
  match via.rport,via.received with
  | some port,some received =>
    if portNumber port ≠ 0 ∧ received ≠ [] then
      some { hostName := received, hostPort := portNumber port }
    else none
  | _,_ => none

section Source

variable (defaultPort : UInt16)

/-- The loop starts from a contact that `operator!` does not take to be unset. -/
theorem parseVia_nat (unset : s.nat = {}) (via : Via) : (parseVia defaultPort s via).nat = {} := by
  unfold parseVia
  cases via.host with
  | none => exact unset
  | some host => simp [Contact.not,unset]

theorem parseVia_source (unset : s.nat = {}) (via : Via) :
    (parseVia defaultPort s via).source =
      (via.host.map (via.address defaultPort)).getD s.source := by
  unfold parseVia
  cases via.host with
  | none => rfl
  | some host => simp [Contact.not,unset]

def lastOr (before : Contact) (hosts : List Contact) : Contact := hosts.getLast?.getD before

@[simp] theorem lastOr_cons (before c : Contact) (hosts : List Contact) :
    lastOr before (c :: hosts) = lastOr c hosts := by
  simp [lastOr,List.getLast?_cons]

def addresses (vias : List Via) : List Contact :=
  vias.filterMap fun via => via.host.map (via.address defaultPort)

theorem addresses_cons (via : Via) (vias : List Via) (before : Contact) :
    lastOr before (addresses defaultPort (via :: vias)) =
      lastOr ((via.host.map (via.address defaultPort)).getD before)
        (addresses defaultPort vias) := by
  cases host : via.host with
  | none => simp [addresses,host]
  | some host => simp [addresses,host]

theorem foldl_parseVia (s : Trail) (vias : List Via) (unset : s.nat = {}) :
    (vias.foldl (parseVia defaultPort) s).nat = {} ∧
    (vias.foldl (parseVia defaultPort) s).source =
      lastOr s.source (addresses defaultPort vias) := by
  induction vias generalizing s with
  | nil => exact ⟨unset,rfl⟩
  | cons via rest ih =>
    have next := ih _ (parseVia_nat defaultPort unset via)
    refine ⟨next.1,?_⟩
    rw [List.foldl_cons,next.2,parseVia_source defaultPort unset,addresses_cons]

/-- Where a message is to be taken to come from, and whether from behind a nat. -/
def apparent (vias : List Via) : Contact × Bool :=
  match vias.findSome? Via.reflexive with
  | some nat => (nat,true)
  | none => (lastOr {} (addresses defaultPort vias),false)

variable (osipAtoi : UString → Int) (now : Int) (m : Osip.Message)

theorem parseMessage_source :
    (parseMessage osipAtoi defaultPort now m).natted = false ∧
    (parseMessage osipAtoi defaultPort now m).source =
      lastOr {} (addresses defaultPort m.vias) := by
  have ⟨nat,source⟩ := foldl_parseVia defaultPort {} m.vias rfl
  have unset : (parseVias defaultPort m.vias).nat.bool = false := by
    rw [parseVias,nat]
    rfl
  refine ⟨unset,?_⟩
  rw [← source]
  exact if_neg (Bool.eq_false_iff.mp unset)

/-- The source is right for the messages that no nat was found for, and the operators
are opposites for the contacts with a host. -/
theorem source_apparent :
    (((parseMessage osipAtoi defaultPort now m).source,
      (parseMessage osipAtoi defaultPort now m).natted) = apparent defaultPort m.vias ↔
        ∀ via ∈ m.vias, via.reflexive = none) ∧
    ∀ c : Contact, c.not = (!c.bool) ↔ c.hostName ≠ [] := by
  refine ⟨?_,Contact.not_eq_iff⟩
  have ⟨natted,source⟩ := parseMessage_source defaultPort osipAtoi now m
  rw [natted,source,apparent,← List.findSome?_eq_none_iff]
  cases m.vias.findSome? Via.reflexive with
  | none => simp
  | some nat => simp

/-- A Via as the parser of the library completes it for a client behind a nat. -/
def behindNat : Osip.Message where
  vias := [{
    host := some (UString.ascii "10.0.0.7")
    port := some (UString.ascii "5060")
    rport := some (UString.ascii "40123")
    received := some (UString.ascii "203.0.113.9") }]

theorem source_misses_nat :
    (parseMessage UString.atoi 5060 0 behindNat).natted = false ∧
    (parseMessage UString.atoi 5060 0 behindNat).source =
      { hostName := UString.ascii "10.0.0.7", hostPort := 5060 } ∧
    apparent 5060 behindNat.vias =
      ({ hostName := UString.ascii "203.0.113.9", hostPort := 40123 },true) ∧
    Contact.not {} = false ∧ Contact.bool {} = false := by
  decide +kernel

end Source

/-! ## The requested expiry -/

section Expiry

open Database Authorize

/-- `findEndpoint` either leaves the answer to the manager or refuses. -/
def Withheld (d after : Database) (ev : Event) : Prop :=
  after.wire = d.wire ∨ ∃ code, code ≠ Sip.ok ∧ after.wire = d.wire ++ [.reply ev code]

theorem createEndpoint_withheld (d : Database) (ev : Event) (extension : ExtensionRow)
    (endpoint : Option EndpointRow) : Withheld d (createEndpoint d ev extension endpoint) ev := by
  simp only [createEndpoint]
  split
  · exact .inr ⟨Sip.forbidden,by simp [Sip.forbidden,Sip.ok],rfl⟩
  split
  · exact .inr ⟨Sip.forbidden,by simp [Sip.forbidden,Sip.ok],rfl⟩
  split
  · exact .inr ⟨Sip.forbidden,by simp [Sip.forbidden,Sip.ok],rfl⟩
  · exact .inl rfl

theorem findEndpoint_withheld (live : 1 ≤ ev.expires) (d : Database) :
    Withheld d (findEndpoint d ev) ev := by
  simp only [findEndpoint]
  split
  · exact .inr ⟨Sip.internalServerError,by simp [Sip.internalServerError,Sip.ok],rfl⟩
  split
  · omega
  split
  · exact .inr ⟨Sip.doesNotExistAnywhere,by simp [Sip.doesNotExistAnywhere,Sip.ok],rfl⟩
  split
  · exact .inr ⟨Sip.notFound,by simp [Sip.notFound,Sip.ok],rfl⟩
  split
  · have wire : (initializeLabel d ev).1.wire = d.wire := by
      simp only [initializeLabel]
      split <;> rfl
    have := createEndpoint_withheld (initializeLabel d ev).1 ev ‹_› (initializeLabel d ev).2
    rwa [Withheld,wire] at this
  split
  · exact .inr ⟨Sip.forbidden,by simp [Sip.forbidden,Sip.ok],rfl⟩
  · exact createEndpoint_withheld _ _ _ _

theorem Withheld.ne_reply (withheld : Withheld d after ev) : after ≠ d.reply ev Sip.ok := by
  rintro rfl
  rcases withheld with silent | ⟨code,other,wire⟩
  · simp [Database.reply,Database.send] at silent
  · simp [Database.reply,Database.send] at wire
    exact other wire.symm

/-- A request that is not taken for the release of a registration: `findEndpoint` does
not answer it as one, and a registration that accepts it is active. -/
structure Registers (ev : Event) : Prop where
  endpoint : ∀ d : Database, findEndpoint d ev ≠ d.reply ev Sip.ok
  registry : ∀ (hash : HashFunction) (reg : Registry) (now : Nat),
    (reg.authorize hash ev now).2 = Sip.ok → (reg.authorize hash ev now).1.active = true

/-- Both functions go by the expiry alone. -/
theorem registers_iff : Registers ev ↔ 1 ≤ ev.expires := by
  constructor
  · intro registers
    by_contra short
    refine registers.endpoint {} ?_
    have released : ev.expires < 1 := by omega
    simp [findEndpoint,released]
  · intro live
    refine ⟨fun d => (findEndpoint_withheld live d).ne_reply,fun hash reg now accepted => ?_⟩
    rw [Registry.authorize_accepted accepted live]

variable (osipAtoi : UString → Int) (m : Osip.Message)

/-- The number that a text starts with, however large. -/
def written (text : UString) : Int := (UString.signed (text.dropWhile UString.isSpace)).1

def expiryHeader : Option Int :=
  ((m.header (UString.ascii "session-expires")).or (m.header (UString.ascii "expires"))).map written

def contactExpiries : List Int := m.contacts.filterMap fun c => c.expires.map written

def requestedExpiries : List Int := (expiryHeader m).toList ++ contactExpiries m

/-- The expiry of a request is the longest that it asks for; a request that asks for one
in its contacts is not a release. -/
structure LongestExpiry (defaultPort : UInt16) (now : Int) (ev : Event) : Prop where
  longest : (parseMessage osipAtoi defaultPort now m).expires = (requestedExpiries m).max?.getD (-1)
  absent : (parseMessage osipAtoi defaultPort now m).expires = -1 → requestedExpiries m = []
  registers : (∀ e ∈ expiryHeader m, e < 1) → (∃ e ∈ contactExpiries m, 0 < e) →
    Registers ((parseMessage osipAtoi defaultPort now m).event ev)

/-- The header asks for no less than the contacts. A number that no `int` holds is cut down: it
may still come out as what the contacts ask for, if it is less than all of these. -/
def HeaderLongest (n : Int) : Prop :=
  UString.narrow n ≠ -1 ∧ (∀ e ∈ contactExpiries m, e ≤ UString.narrow n) ∧
    ((UString.intMin ≤ n ∧ n ≤ UString.intMax) ∨ n < UString.intMin ∧ UString.narrow n ∈ contactExpiries m)

theorem headerExpires_eq : headerExpires m = ((expiryHeader m).map UString.narrow).getD (-1) := by
  unfold headerExpires expiryHeader
  cases m.header (UString.ascii "session-expires") with
  | some value => rfl
  | none =>
    cases m.header (UString.ascii "expires") with
    | some value => rfl
    | none => rfl

theorem max_requested {n e : Int} (header : expiryHeader m = some n) :
    (requestedExpiries m).max? = some e ↔
      (e = n ∨ e ∈ contactExpiries m) ∧ n ≤ e ∧ ∀ e' ∈ contactExpiries m, e' ≤ e := by
  rw [List.max?_eq_some_iff]
  simp [requestedExpiries,header]

/-- What an `int` holds of the header's number is the longest expiry that is asked for. -/
theorem max_headerLongest {n : Int} (header : expiryHeader m = some n) :
    (UString.narrow n ≠ -1 ∧ (requestedExpiries m).max? = some (UString.narrow n)) ↔ HeaderLongest m n := by
  rw [max_requested m header,HeaderLongest]
  obtain ⟨low,high⟩ := UString.narrow_range n
  by_cases small : UString.intMin ≤ n ∧ n ≤ UString.intMax
  · have same := UString.narrow_small small.1 small.2
    simp [same,small]
  · have other : UString.narrow n ≠ n := fun same => small (same ▸ ⟨low,high⟩)
    constructor
    · rintro ⟨lasting,(same | asked),above,most⟩
      · exact absurd same other
      · exact ⟨lasting,most,.inr ⟨by omega,asked⟩⟩
    · rintro ⟨lasting,most,(within | ⟨below,asked⟩)⟩
      · exact absurd within small
      · exact ⟨lasting,.inr asked,by omega,most⟩

/-- The contacts are not looked at: the longest is found where nothing asks for an
expiry, or where the header asks for more than any contact. -/
theorem expires_longest (defaultPort : UInt16) (now : Int) (ev : Event) :
    LongestExpiry osipAtoi m defaultPort now ev ↔
      requestedExpiries m = [] ∨ ∃ n ∈ expiryHeader m, HeaderLongest m n := by
  have parsed : (parseMessage osipAtoi defaultPort now m).expires = headerExpires m := rfl
  have value := headerExpires_eq m
  cases header : expiryHeader m with
  | none =>
    rw [header] at value
    constructor
    · rintro ⟨-,absent,-⟩
      exact .inl (absent (parsed.trans value))
    · rintro (nothing | ⟨n,other,-⟩)
      · refine ⟨by rw [parsed,value,nothing]; rfl,fun _ => nothing,?_⟩
        rintro - ⟨e,asked,-⟩
        rw [requestedExpiries,List.append_eq_nil_iff] at nothing
        simp [nothing.2] at asked
      · contradiction
  | some n =>
    have expires : (parseMessage osipAtoi defaultPort now m).expires = UString.narrow n := by
      rw [parsed,value,header]
      rfl
    have some_ : requestedExpiries m ≠ [] := by simp [requestedExpiries,header]
    have longest := max_headerLongest m header
    constructor
    · rintro ⟨top,absent,-⟩
      refine .inr ⟨n,rfl,longest.mp ⟨fun none => some_ (absent (expires.trans none)),?_⟩⟩
      obtain ⟨e,found⟩ := Option.ne_none_iff_exists'.mp (List.max?_eq_none_iff.not.mpr some_)
      rw [found,expires] at top
      rw [found,top]
      rfl
    · rintro (nothing | ⟨n',same,holds⟩)
      · exact absurd nothing some_
      · obtain rfl : n = n' := Option.some.inj same
        obtain ⟨lasting,top⟩ := longest.mpr holds
        refine ⟨by rw [expires,top]; rfl,fun none => absurd (expires.symm.trans none) lasting,?_⟩
        rintro - ⟨e,asked,positive⟩
        have most := holds.2.1 e asked
        exact registers_iff.mpr (show 1 ≤ (parseMessage osipAtoi defaultPort now m).expires by omega)

/-- A registration as many clients ask for it. -/
def contactOnly : Osip.Message where
  contacts := [{
    url := some { host := some (UString.ascii "10.0.0.7"), username := some (UString.ascii "101") }
    expires := some (UString.ascii "300") }]

/-- It asks for 300 seconds, and it is taken for a release. -/
theorem contact_expiry_released :
    (parseMessage UString.atoi 5060 0 contactOnly).expires = -1 ∧
    requestedExpiries contactOnly = [300] ∧
    ∀ ev, ¬Registers ((parseMessage UString.atoi 5060 0 contactOnly).event ev) := by
  have expires : (parseMessage UString.atoi 5060 0 contactOnly).expires = -1 := by decide +kernel
  refine ⟨expires,by decide +kernel,fun ev registers => ?_⟩
  have live : 1 ≤ (parseMessage UString.atoi 5060 0 contactOnly).expires :=
    registers_iff.mp registers
  omega

end Expiry

end SipWitch
