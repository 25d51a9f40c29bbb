import SipWitch.Event

/-! One registration record: the fields of `Registry`, its nonce pair and the two
checks of a digest authorization. The hash functions are a parameter. -/
namespace SipWitch

inductive Algorithm where
  | md4 | md5 | sha1 | sha256 | sha512
  deriving DecidableEq

abbrev HashFunction := Algorithm → UString → List UInt8

def digests : List (UString × Algorithm) := [
  ("MD5",.md5),("SHA",.sha1),("SHA1",.sha1),("SHA2",.sha256),("SHA256",.sha256),
  ("SHA512",.sha512),("SHA-1",.sha1),("SHA-256",.sha256),("SHA-512",.sha512)]

/-- `QHash::operator[]`: a name the table lacks gets the enumeration's first value. -/
def algorithmOf (name : UString) : Algorithm := (digests.lookup name).getD .md4

structure EndpointInfo where
  realm : UString := []
  user : UString := []
  display : UString := []
  digest : UString := []
  secret : UString := []
  number : Int
  label : UString
  endpoint : Int
  origin : UString := []
  expires : Int
  privs : UString := []
  deriving DecidableEq

structure Registry where
  userId : UString
  userLabel : UString
  userSecret : UString
  authRealm : UString
  authDigest : UString
  userDisplay : UString
  userOrigin : UString
  userPrivs : UString
  number : Int
  active : Bool
  endpointId : Int
  timeout : Int
  random : List UInt8
  prior : List UInt8
  serverContext : Option Context
  address : Contact
  updated : Nat
  deriving DecidableEq

namespace Registry

def create (ep : EndpointInfo) (now : Nat) : Registry where
  userId := ep.user
  userLabel := ep.label
  userSecret := ep.secret
  authRealm := ep.realm
  authDigest := UString.toUpper ep.digest
  userDisplay := ep.display
  userOrigin := ep.origin
  userPrivs := ep.privs
  number := ep.number
  active := false
  endpointId := ep.endpoint
  timeout := ep.expires * 1000
  random := []
  prior := []
  serverContext := none
  address := {}
  updated := now

def key (reg : Registry) : Int × UString := (reg.number,reg.userLabel)

def route (reg : Registry) : UString := reg.address.toString

def expires (reg : Registry) : Int := reg.timeout.tdiv 1000

/-- Both sides of the comparison are `quint64`, so a negative timeout never ends. -/
def hasExpired (reg : Registry) (now : Nat) : Bool :=
  reg.timeout % 18446744073709551616 < ((now - reg.updated : Nat) : Int)

def setNounce (reg : Registry) (value : List UInt8) : Registry :=
  { reg with prior := reg.random, random := value }

def nonceText (bytes : List UInt8) : UString := UString.toLower (UString.toHex bytes)

def uri (reg : Registry) : UString :=
  match reg.serverContext with
  | some context => if reg.active then context.uriPrefix ++ reg.address.toString else "none"
  | none => "none"

variable (hash : HashFunction)

def hex (digest : Algorithm) (text : UString) : UString :=
  UString.toLower (UString.toHex (hash digest text))

def expected (reg : Registry) (ev : Event) (nonce : UString) : UString :=
  let digest := algorithmOf reg.authDigest
  let ha2 := hex hash digest (ev.method ++ UString.ascii ":" ++ ev.request)
  hex hash digest (reg.userSecret ++ UString.ascii ":" ++ nonce ++ UString.ascii ":" ++ ha2)

def authenticate (reg : Registry) (ev : Event) (now : Nat) : Nat :=
  let nonce := nonceText reg.random
  let ponce := nonceText reg.prior
  if reg.hasExpired now || reg.serverContext.isNone then Sip.temporarilyUnavailable
  else if ev.authorizingRealm ≠ reg.authRealm then Sip.forbidden
  else if ev.authorizingId ≠ reg.userId then Sip.forbidden
  else if ev.authorizingAlgorithm ≠ reg.authDigest then Sip.forbidden
  else if ev.authorizingOnce ≠ nonce ∧ ev.authorizingOnce ≠ ponce then Sip.forbidden
  else if reg.expected hash ev ev.authorizingOnce ≠ ev.authorizingDigest then Sip.forbidden
  else Sip.ok

def authorize (reg : Registry) (ev : Event) (now : Nat) : Registry × Nat :=
  let nonce := nonceText reg.random
  let reg := { reg with active := false }
  if ev.authorizingRealm ≠ reg.authRealm then (reg,Sip.forbidden)
  else if ev.authorizingId ≠ reg.userId then (reg,Sip.forbidden)
  else if ev.authorizingAlgorithm ≠ reg.authDigest then (reg,Sip.forbidden)
  else if ev.authorizingOnce ≠ nonce then (reg,Sip.forbidden)
  else if reg.expected hash ev nonce ≠ ev.authorizingDigest then (reg,Sip.forbidden)
  -- de-registration
  else if ev.expires < 1 then ({ reg with timeout := 0 },Sip.ok)
  else
    -- for nat, the appearing origin is used
    let address := if ev.protocol = "udp" then ev.source else ev.contact
    ({ reg with address, serverContext := some ev.context, updated := now, active := true },Sip.ok)

/-- The credentials of a request fit a registration, whatever the nonce. -/
structure Matches (reg : Registry) (ev : Event) : Prop where
  realm : ev.authorizingRealm = reg.authRealm
  user : ev.authorizingId = reg.userId
  algorithm : ev.authorizingAlgorithm = reg.authDigest
  response : reg.expected hash ev ev.authorizingOnce = ev.authorizingDigest

variable {hash} {reg : Registry} {ev : Event} {now : Nat}

@[simp] theorem setNounce_key : (reg.setNounce value).key = reg.key := rfl
@[simp] theorem setNounce_userId : (reg.setNounce value).userId = reg.userId := rfl
@[simp] theorem setNounce_number : (reg.setNounce value).number = reg.number := rfl
@[simp] theorem setNounce_endpointId : (reg.setNounce value).endpointId = reg.endpointId := rfl

theorem nonceText_eq_nil {bytes : List UInt8} : nonceText bytes = [] ↔ bytes = [] := by
  simp [nonceText]

theorem refused_ok {p : Prop} [Decidable p] {code rest : Nat} (refusal : code ≠ Sip.ok) :
    (if p then code else rest) = Sip.ok ↔ ¬p ∧ rest = Sip.ok := by
  split <;> simp_all

theorem authenticate_ok_iff : reg.authenticate hash ev now = Sip.ok ↔
    reg.hasExpired now = false ∧ reg.serverContext ≠ none ∧ reg.Matches hash ev ∧
    (ev.authorizingOnce = nonceText reg.random ∨ ev.authorizingOnce = nonceText reg.prior) := by
  have forbidden : Sip.forbidden ≠ Sip.ok := by decide
  have unavailable : Sip.temporarilyUnavailable ≠ Sip.ok := by decide
  simp only [authenticate,refused_ok forbidden,refused_ok unavailable]
  constructor
  · rintro ⟨fresh,realm,user,algorithm,nonce,response,-⟩
    rw [Bool.or_eq_true,not_or,Bool.not_eq_true,Option.isNone_iff_eq_none] at fresh
    refine ⟨fresh.1,fresh.2,?_,?_⟩
    · exact ⟨not_not.mp realm,not_not.mp user,not_not.mp algorithm,not_not.mp response⟩
    · simpa only [not_and_or,ne_eq,not_not] using nonce
  · rintro ⟨fresh,context,credentials,nonce⟩
    have usable : ¬(reg.hasExpired now || reg.serverContext.isNone) := by simp [fresh,context]
    refine ⟨usable,?_,?_,?_,?_,?_,trivial⟩
    · exact not_not.mpr credentials.realm
    · exact not_not.mpr credentials.user
    · exact not_not.mpr credentials.algorithm
    · simpa only [not_and_or,ne_eq,not_not] using nonce
    · exact not_not.mpr credentials.response

variable (hash reg ev now) in
/-- A rejected authorization still deactivates; what else it changes is nothing. -/
theorem authorize_cases :
    (reg.authorize hash ev now = ({ reg with active := false },Sip.forbidden) ∧
      ¬(reg.Matches hash ev ∧ ev.authorizingOnce = nonceText reg.random)) ∨
    ((reg.authorize hash ev now).2 = Sip.ok ∧
      reg.Matches hash ev ∧ ev.authorizingOnce = nonceText reg.random) := by
  by_cases fit : reg.Matches hash ev ∧ ev.authorizingOnce = nonceText reg.random
  · right
    obtain ⟨⟨realm,user,algorithm,response⟩,nonce⟩ := fit
    refine ⟨?_,⟨realm,user,algorithm,response⟩,nonce⟩
    have answer : expected hash { reg with active := false } ev (nonceText reg.random) =
        ev.authorizingDigest := by
      rw [← nonce]; exact response
    simp only [authorize]
    rw [if_neg (not_not.mpr realm),if_neg (not_not.mpr user),if_neg (not_not.mpr algorithm),
      if_neg (not_not.mpr nonce),if_neg (not_not.mpr answer)]
    split <;> rfl
  · left
    refine ⟨?_,fit⟩
    simp only [authorize]
    iterate 5 (split; rfl)
    rename_i realm user algorithm nonce response
    refine absurd ⟨⟨not_not.mp realm,not_not.mp user,not_not.mp algorithm,?_⟩,not_not.mp nonce⟩ fit
    rw [not_not.mp nonce]
    exact not_not.mp response

theorem authorize_ok_iff : (reg.authorize hash ev now).2 = Sip.ok ↔
    reg.Matches hash ev ∧ ev.authorizingOnce = nonceText reg.random := by
  rcases authorize_cases hash reg ev now with h | h
  · rw [h.1]
    exact ⟨fun ok => absurd (show Sip.forbidden = Sip.ok from ok) (by decide),
      fun fit => absurd fit h.2⟩
  · exact ⟨fun _ => h.2,fun _ => h.1⟩

theorem authorize_rejected (rejected : (reg.authorize hash ev now).2 ≠ Sip.ok) :
    reg.authorize hash ev now = ({ reg with active := false },Sip.forbidden) := by
  rcases authorize_cases hash reg ev now with h | h
  · exact h.1
  · exact absurd h.1 rejected

/-- An accepted request that is no release restarts the record's term as it stands. -/
theorem authorize_accepted (accepted : (reg.authorize hash ev now).2 = Sip.ok)
    (lasting : 1 ≤ ev.expires) : (reg.authorize hash ev now).1 = { reg with
      address := if ev.protocol = "udp" then ev.source else ev.contact
      serverContext := some ev.context
      updated := now
      active := true } := by
  obtain ⟨fits,nonce⟩ := authorize_ok_iff.mp accepted
  have answer : expected hash { reg with active := false } ev (nonceText reg.random) =
      ev.authorizingDigest := nonce ▸ fits.response
  have kept : ¬ev.expires < 1 := by omega
  simp [authorize,fits.realm,fits.user,fits.algorithm,nonce,answer,kept]

variable (hash reg ev now) in
/-- Authorizing never changes what a record is filed under, nor its nonces. -/
theorem authorize_frame : ∃ active timeout address context updated,
    (reg.authorize hash ev now).1 = { reg with
      active := active, timeout := timeout, address := address,
      serverContext := context, updated := updated } := by
  simp only [authorize]
  iterate 5 (split; exact ⟨_,_,_,_,_,rfl⟩)
  split <;> exact ⟨_,_,_,_,_,rfl⟩

end Registry

end SipWitch
