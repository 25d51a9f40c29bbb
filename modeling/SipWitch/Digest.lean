import SipWitch.RequestUri

/-! The client's side of a digest authorization, and its agreement with the server's.
The two programs have a table of algorithms each, quote and unquote the parameters on
their own, and each print the request address for themselves. Credentials are texts,
which a `QVariant` holds unchanged. -/
namespace SipWitch

open Index Registries

namespace Crypto

def digests : List (UString × Algorithm) := [
  ("MD5",.md5),("SHA",.sha1),("SHA1",.sha1),("SHA2",.sha256),("SHA256",.sha256),
  ("SHA512",.sha512),("SHA-1",.sha1),("SHA-256",.sha256),("SHA-512",.sha512)]

def algorithmOf (name : UString) : Algorithm := (digests.lookup name).getD .md4

end Crypto

structure Credentials where
  user : UString
  secret : UString
  realm : UString
  algorithm : UString
  nonce : UString

namespace Client

variable (hash : HashFunction)

/-- The secret that a client has stored for an account it creates, or whose password it
changes; `digest` is the algorithm of the credentials it is logged in with. -/
def accountSecret (digest user realm password : UString) : UString :=
  UString.toHex (hash (Crypto.algorithmOf (UString.toUpper digest))
    (user ++ UString.ascii ":" ++ realm ++ UString.ascii ":" ++ password))

/-- `Listener::get_authentication`: the challenge, taken into the credentials. -/
def getAuthentication (user password : UString) (answer : Challenge) : Credentials where
  user := answer.user.getD user
  secret := password
  realm := UString.unquote answer.realm
  nonce := UString.unquote answer.nonce
  algorithm := UString.toUpper (UString.unquote answer.algorithm)

/-- `Message::add_authorization`, each parameter as it stands in the header. -/
def addAuthorization (creds : Credentials) (method uri : UString) : OsipAuthorization :=
  let digest := Crypto.algorithmOf creds.algorithm
  let colon : UString := UString.ascii ":"
  let ha1 := UString.toLower (UString.toHex (hash digest
    (creds.user ++ colon ++ creds.realm ++ colon ++ creds.secret)))
  let ha2 := UString.toLower (UString.toHex (hash digest (method ++ colon ++ uri)))
  let response := UString.toLower (UString.toHex (hash digest
    (ha1 ++ colon ++ creds.nonce ++ colon ++ ha2)))
  { username := some (UString.quote creds.user)
    realm := some (UString.quote creds.realm)
    uri := some (UString.quote uri)
    response := some (UString.quote response)
    nonce := some (UString.quote creds.nonce)
    algorithm := some (UString.quote creds.algorithm) }

end Client

/-- `Event::Data` of a request with this text as its address and this authorization header. -/
def Event.received (base : Event) (method line : UString) (header : OsipAuthorization) : Event :=
  { base with
    method
    request := ((Osip.requestUri line).bind fun uri =>
      if uri.host.isSome then Osip.uriToStr uri else none).getD []
    authorization := Authorization.parse header }

/-- The request that a client signs: the address is printed for the header and, when the
request is sent, for the request line. -/
def Event.signed (hash : HashFunction) (base : Event) (creds : Credentials) (method : UString)
    (uri : Osip.Address) : Event :=
  let text := (Osip.uriToStr uri).getD []
  received base method text (Client.addAuthorization hash creds method text)

variable {hash : HashFunction}

/-- Both programs print an address that is read as it is printed alike. -/
theorem received_request {buf : UString} {uri : Osip.Address} (parsed : Osip.uriParse buf = some uri)
    (readable : uri.Readable) (base : Event) (method : UString) (header : OsipAuthorization) :
    (Event.received base method ((Osip.uriToStr uri).getD []) header).request =
      (Osip.uriToStr uri).getD [] := by
  obtain ⟨text,shown,again⟩ := Osip.requestUri_str parsed readable
  obtain ⟨host,hosted,-⟩ := (Osip.uriParse_parsed parsed readable.sip).host
  have back := (Osip.uriToStr_again uri).trans shown
  rw [shown,Option.getD_some]
  simp only [Event.received,again,Option.bind_some]
  rw [if_pos (by rw [hosted]; rfl),back,Option.getD_some]

/-- Quoting and unquoting cancel, so the server holds the credentials as they were. -/
theorem parse_addAuthorization (creds : Credentials) (method uri : UString) :
    Authorization.parse (Client.addAuthorization hash creds method uri) = some {
      userid := creds.user
      digest :=
        let digest := Crypto.algorithmOf creds.algorithm
        let colon : UString := UString.ascii ":"
        Registry.hex hash digest (Registry.hex hash digest
          (creds.user ++ colon ++ creds.realm ++ colon ++ creds.secret) ++ colon ++
          creds.nonce ++ colon ++ Registry.hex hash digest (method ++ colon ++ uri))
      nonce := creds.nonce
      realm := creds.realm
      algorithm := UString.toUpper creds.algorithm } := by
  simp [Authorization.parse,Client.addAuthorization,Registry.hex]

/-- A record holds the account of a user, under any spelling of its digest's name. -/
structure Registry.HoldsAccount (hash : HashFunction) (reg : Registry)
    (digest user realm password : UString) : Prop where
  holder : reg.userId = user
  site : reg.authRealm = realm
  named : reg.authDigest = UString.toUpper digest
  secret : reg.userSecret = Client.accountSecret hash digest user realm password

structure Challenge.For (answer : Challenge) (reg : Registry) : Prop where
  realm : answer.realm = UString.quote reg.authRealm
  algorithm : answer.algorithm = UString.quote reg.authDigest
  user : ∀ name, answer.user = some name → name = reg.userId

variable {reg reg' : Registry} {answer : Challenge} {digest user realm password : UString}

theorem answer_for (ev : Event) (reg : Registry) (random : List UInt8) :
    (Manager.answer ev reg random).For reg where
  realm := rfl
  algorithm := rfl
  user name named := by
    simp only [Manager.answer] at named
    split at named
    · exact (Option.some.inj named).symm
    · contradiction

/-- The credentials built from a challenge fit the record that it is for. -/
theorem client_matches (account : reg.HoldsAccount hash digest user realm password)
    (challenged : answer.For reg) (base : Event) (method : UString) {buf : UString}
    {uri : Osip.Address} (address : Osip.uriParse buf = some uri) (readable : uri.Readable) :
    let creds := Client.getAuthentication user password answer
    let ev := Event.signed hash base creds method uri
    reg.Matches hash ev ∧ ev.authorizingOnce = UString.unquote answer.nonce := by
  intro creds ev
  have holder : creds.user = user := by
    cases given : answer.user with
    | none => simp [creds,Client.getAuthentication,given]
    | some other =>
      simp [creds,Client.getAuthentication,given,challenged.user other given,account.holder]
  have site : creds.realm = reg.authRealm := by
    simp [creds,Client.getAuthentication,challenged.realm]
  have named : creds.algorithm = reg.authDigest := by
    simp [creds,Client.getAuthentication,challenged.algorithm,account.named]
  have parsed : ev.authorization = _ :=
    parse_addAuthorization creds method ((Osip.uriToStr uri).getD [])
  have request : ev.request = (Osip.uriToStr uri).getD [] :=
    received_request address readable base method _
  have once : ev.authorizingOnce = creds.nonce := by simp [Event.authorizingOnce,parsed]
  refine ⟨⟨?_,?_,?_,?_⟩,once⟩
  · simp [Event.authorizingRealm,parsed,site]
  · simp [Event.authorizingId,parsed,account.holder,holder]
  · simp [Event.authorizingAlgorithm,parsed,named,account.named]
  · have secret : reg.userSecret = Registry.hex hash (Crypto.algorithmOf creds.algorithm)
        (creds.user ++ UString.ascii ":" ++ creds.realm ++ UString.ascii ":" ++ creds.secret) := by
      rw [account.secret,named,site,holder,account.site,account.named]
      simp [Client.accountSecret,Registry.hex,creds,Client.getAuthentication]
    rw [once]
    simp only [Registry.expected,Event.authorizingDigest,parsed,request,secret,named,
      Option.map_some,Option.getD_some]
    rfl

/-- Every challenge sent is for the record it names, as long as that one lives, and
only a record with a context is active. -/
structure Challenged (t : Registries) (wire : List Output) : Prop where
  linked : Linked t
  used : ∀ ev a answer reuse, .challenge ev a answer reuse ∈ wire → a < t.next
  issued : ∀ ev a answer reuse reg, .challenge ev a answer reuse ∈ wire →
    t.heap.lookup a = some reg → answer.For reg
  context : ∀ a reg, t.heap.lookup a = some reg → reg.active = true → reg.serverContext ≠ none

variable {t t' : Registries} {wire : List Output} {a : Handle} {m : Manager}

theorem Challenge.For.same (challenged : answer.For reg) (same : SameFiling reg' reg)
    (realm : reg'.authRealm = reg.authRealm) (digest : reg'.authDigest = reg.authDigest) :
    answer.For reg' where
  realm := realm ▸ challenged.realm
  algorithm := digest ▸ challenged.algorithm
  user := same.user ▸ challenged.user

/-- Changing a record's state keeps the account of its challenges. -/
theorem Challenged.write (reg' : Registry) (challenged : Challenged t wire)
    (live : t.heap.lookup a = some reg)
    (same : SameFiling reg' reg) (realm : reg'.authRealm = reg.authRealm)
    (digest : reg'.authDigest = reg.authDigest)
    (context : reg'.active = true → reg'.serverContext ≠ none) :
    Challenged (t.write a reg') wire where
  linked := challenged.linked.write live same
  used := challenged.used
  issued ev b answer reuse other sent alive := by
    rw [Registries.write,lookup_insert_cases] at alive
    split at alive
    · rename_i here
      cases alive
      exact (challenged.issued ev b answer reuse reg sent (here ▸ live)).same same realm digest
    · exact challenged.issued ev b answer reuse other sent alive
  context b other alive := by
    rw [Registries.write,lookup_insert_cases] at alive
    split at alive
    · cases alive
      exact context
    · exact challenged.context b other alive

theorem Challenged.send (challenged : Challenged t wire) (ev : Event) (reuse : Bool)
    (live : t.heap.lookup a = some reg) (answered : answer.For reg) :
    Challenged t (wire ++ [.challenge ev a answer reuse]) where
  linked := challenged.linked
  used ev b answer reuse sent := by
    rcases List.mem_append.mp sent with before | last
    · exact challenged.used ev b answer reuse before
    · cases List.mem_singleton.mp last
      exact challenged.linked.used a reg live
  issued ev b answer reuse other sent alive := by
    rcases List.mem_append.mp sent with before | last
    · exact challenged.issued ev b answer reuse other before alive
    · cases List.mem_singleton.mp last
      cases live.symm.trans alive
      exact answered
  context := challenged.context

theorem Challenged.challenge (challenged : Challenged m.registries m.wire)
    (live : m.registries.heap.lookup a = some reg) (ev : Event) (fresh : Option Nonce) :
    Challenged (m.challenge ev a reg fresh).registries (m.challenge ev a reg fresh).wire := by
  cases fresh with
  | none => exact challenged.send ev true live (answer_for ev reg _)
  | some bytes =>
    have written := challenged.write (reg.setNounce bytes.toList) live ⟨rfl,rfl,rfl⟩ rfl
      rfl (challenged.context a reg live)
    have renewed : (m.registries.write a (reg.setNounce bytes.toList)).heap.lookup a =
        some (reg.setNounce bytes.toList) := AList.lookup_insert _
    exact written.send ev false renewed ((answer_for ev reg _).same ⟨rfl,rfl,rfl⟩ rfl rfl)

theorem authorize_context (hash : HashFunction) (reg : Registry) (ev : Event) (now : Nat) :
    (reg.authorize hash ev now).1.active = true →
    (reg.authorize hash ev now).1.serverContext ≠ none := by
  simp only [Registry.authorize]
  iterate 5 (split; exact fun active => absurd active Bool.false_ne_true)
  split
  · exact fun active => absurd active Bool.false_ne_true
  · exact fun _ => Option.some_ne_none _

theorem challenged_kept : Manager.Kept hash fun m => Challenged m.registries m.wire where
  delete m a challenged := by
    refine ⟨challenged.linked.delete a,?_,?_,?_⟩
    · intro ev b answer reuse sent
      rw [delete_next]
      exact challenged.used ev b answer reuse sent
    · intro ev b answer reuse reg sent alive
      exact challenged.issued ev b answer reuse reg sent (live_of_delete alive)
    · exact fun b reg alive => challenged.context b reg (live_of_delete alive)
  authorize m a reg ev live challenged := by
    obtain ⟨active,timeout,address,context,updated,frame⟩ :=
      Registry.authorize_frame hash reg ev m.now
    have usable := authorize_context hash reg ev m.now
    rw [frame] at usable ⊢
    exact challenged.write _ live ⟨rfl,rfl,rfl⟩ rfl rfl usable
  challenge m a reg ev fresh live challenged := challenged.challenge live ev fresh
  send m output plain challenged := by
    have older : ∀ ev a answer reuse, .challenge ev a answer reuse ∈ m.wire ++ [output] →
        .challenge ev a answer reuse ∈ m.wire := by
      intro ev a answer reuse sent
      rcases List.mem_append.mp sent with before | last
      · exact before
      · rw [← List.mem_singleton.mp last] at plain
        contradiction
    exact ⟨challenged.linked,fun ev a answer reuse sent =>
        challenged.used ev a answer reuse (older ev a answer reuse sent),
      fun ev a answer reuse reg sent =>
        challenged.issued ev a answer reuse reg (older ev a answer reuse sent),challenged.context⟩
  emit _ _ challenged := challenged

theorem Challenged.create (challenged : Challenged m.registries m.wire) (ev : Event)
    (ep : EndpointInfo) (fresh : Nonce) :
    Challenged (m.createRegistration ev (some ep) fresh).registries
      (m.createRegistration ev (some ep) fresh).wire := by
  let made : Manager := { m with registries := (m.registries.create ep m.range m.now).1 }
  have live : made.registries.heap.lookup m.registries.next = some (Registry.create ep m.now) := by
    simp [made,Registries.create]
  have older (b : Handle) (reg : Registry) (alive : made.registries.heap.lookup b = some reg) :
      reg = Registry.create ep m.now ∧ b = m.registries.next ∨
        m.registries.heap.lookup b = some reg := by
    simp only [made,Registries.create,lookup_insert_cases] at alive
    split at alive
    · rename_i here
      exact .inl ⟨(Option.some.inj alive).symm,here⟩
    · exact .inr alive
  have created : Challenged made.registries made.wire := by
    refine ⟨challenged.linked.create ep m.range m.now,?_,?_,?_⟩
    · intro ev b answer reuse sent
      exact Nat.lt_succ_of_lt (challenged.used ev b answer reuse sent)
    · intro ev b answer reuse reg sent alive
      rcases older b reg alive with ⟨-,here⟩ | before
      · exact absurd (challenged.used ev b answer reuse sent) (here ▸ Nat.lt_irrefl _)
      · exact challenged.issued ev b answer reuse reg sent before
    · intro b reg alive
      rcases older b reg alive with ⟨new,-⟩ | before
      · rw [new]
        exact fun active => absurd active Bool.false_ne_true
      · exact challenged.context b reg before
  exact created.challenge live ev (some fresh)

theorem challenged_empty : Challenged {} [] where
  linked := linked_empty
  used _ _ _ _ sent := absurd sent List.not_mem_nil
  issued _ _ _ _ _ sent := absurd sent List.not_mem_nil
  context _ _ live := by simp at live

theorem Server.run_challenged (run : Server.Run hash s trace final)
    (challenged : Challenged s.manager.registries s.manager.wire) :
    Challenged final.manager.registries final.manager.wire :=
  run.invariant (fun s => Challenged s.manager.registries s.manager.wire)
    (fun _ _ _ holds moved => Server.step_kept challenged_kept holds
      (fun ev ep fresh _ _ => holds.create ev ep fresh) moved) challenged

/-- In every run, a request that a client signs in answer to a challenge of a record, with
the password of the account the record holds, is accepted by `authorize` as long as the
challenge's nonce is the record's current one, and by `authenticate` as long as the record is
also active; its address is one that is read as it is printed. -/
theorem client_authorized (hash : HashFunction) (s : Server) (trace final)
    (start : s.manager.registries = {}) (silent : s.manager.wire = [])
    (run : Server.Run hash s trace final) (a : Handle) (reg : Registry)
    (live : final.manager.registries.heap.lookup a = some reg)
    (digest user realm password : UString)
    (account : reg.HoldsAccount hash digest user realm password)
    (challenged : Event) (answer : Challenge) (reuse : Bool)
    (sent : .challenge challenged a answer reuse ∈ final.manager.wire)
    (newest : UString.unquote answer.nonce = Registry.nonceText reg.random)
    (base : Event) (method buf : UString) (uri : Osip.Address)
    (address : Osip.uriParse buf = some uri) (readable : uri.Readable) :
    let ev := Event.signed hash base (Client.getAuthentication user password answer) method uri
    (reg.active = true → reg.hasExpired final.manager.now = false →
      reg.authenticate hash ev final.manager.now = Sip.ok) ∧
    (reg.authorize hash ev final.manager.now).2 = Sip.ok := by
  intro ev
  have issued := Server.run_challenged run (by rw [start,silent]; exact challenged_empty)
  obtain ⟨fits,once⟩ := client_matches account (issued.issued _ _ _ _ _ sent live) base method
    address readable
  have nonce : ev.authorizingOnce = Registry.nonceText reg.random := once.trans newest
  constructor
  · intro active current
    exact Registry.authenticate_ok_iff.mpr
      ⟨current,issued.context a reg live active,fits,.inl nonce⟩
  · exact Registry.authorize_ok_iff.mpr ⟨fits,nonce⟩

namespace Site

def localhost : Osip.Address where
  scheme := some "sip"
  host := some "localhost"

theorem localhost_readable : localhost.Readable where
  sip := rfl
  user := by decide
  host := by simp [localhost,UString.ascii]
  plain := by simp [localhost,UString.ascii,Osip.isBlank]
  params := by simp [localhost]
  headers := by simp [localhost]

/-- The record is the user's, and this is the challenge of its current nonce. -/
def challenged (s : Server) (reg : Registry) : Prop :=
  (reg.userId = UString.ascii "test1" ∧ reg.authRealm = UString.ascii "testing" ∧
    reg.authDigest = UString.toUpper (UString.ascii "md5") ∧
    reg.userSecret = Client.accountSecret Site.hash (UString.ascii "md5") (UString.ascii "test1")
      (UString.ascii "testing") (UString.ascii "testing")) ∧
  .challenge register 0 (Manager.answer register reg reg.random) false ∈ s.manager.wire

instance (s : Server) (reg : Registry) : Decidable (challenged s reg) :=
  inferInstanceAs (Decidable (_ ∧ _))

/-- The device's request in answer to the challenge of this record. -/
def answered (reg : Registry) (method : String) (uri : Osip.Address) : Event :=
  Event.signed Site.hash (request method) (Client.getAuthentication "test1" "testing"
    (Manager.answer register reg reg.random)) method uri

end Site

theorem registration_challenged : (Transition.execute (Server.step Site.hash) Site.registration
      Site.server).map (fun s => (s.manager.registries.heap.lookup 0).map fun reg =>
        decide ((reg.active = true ∧ reg.hasExpired s.manager.now = false) ∧ Site.challenged s reg)) =
    some (some true) := by
  decide +kernel

/-- The first request of a device, whose record is not active before it is accepted. -/
theorem request_challenged : (Transition.execute (Server.step Site.hash) (Site.registration.take 4)
      Site.server).map (fun s => (s.manager.registries.heap.lookup 0).map fun reg =>
        decide (reg.active = false ∧ Site.challenged s reg)) =
    some (some true) := by
  decide +kernel

theorem client_authorized_registration :
    (∃ trace final, ∃ reg : Registry, Server.Run Site.hash Site.server trace final ∧
      reg.active = false ∧
      (reg.authorize Site.hash (Site.answered reg "REGISTER" Site.localhost) final.manager.now).2 =
        Sip.ok) ∧
    ∃ trace final, ∃ reg : Registry, Server.Run Site.hash Site.server trace final ∧
      reg.authenticate Site.hash (Site.answered reg "X-ROSTER" Site.localhost) final.manager.now =
        Sip.ok ∧
      (reg.authorize Site.hash (Site.answered reg "X-ROSTER" Site.localhost) final.manager.now).2 =
        Sip.ok := by
  have address : Osip.uriParse "sip:localhost" = some Site.localhost := by decide +kernel
  constructor
  · obtain ⟨final,done,checked⟩ := Option.map_eq_some_iff.mp request_challenged
    obtain ⟨reg,live,facts⟩ := Option.map_eq_some_iff.mp checked
    obtain ⟨trace,run,-⟩ := Transition.execute_run _ _ _ done
    obtain ⟨inactive,⟨holder,site,named,secret⟩,sent⟩ := of_decide_eq_true facts
    exact ⟨trace,final,reg,run,inactive,(client_authorized Site.hash Site.server trace final rfl rfl
      run 0 reg live "md5" "test1" "testing" "testing" ⟨holder,site,named,secret⟩ _ _ false sent
      (UString.unquote_quote _) (Site.request "REGISTER") "REGISTER" "sip:localhost" Site.localhost
      address Site.localhost_readable).2⟩
  · obtain ⟨final,done,checked⟩ := Option.map_eq_some_iff.mp registration_challenged
    obtain ⟨reg,live,facts⟩ := Option.map_eq_some_iff.mp checked
    obtain ⟨trace,run,-⟩ := Transition.execute_run _ _ _ done
    obtain ⟨⟨active,current⟩,⟨holder,site,named,secret⟩,sent⟩ := of_decide_eq_true facts
    obtain ⟨authenticated,authorized⟩ := client_authorized Site.hash Site.server trace final rfl rfl
      run 0 reg live "md5" "test1" "testing" "testing" ⟨holder,site,named,secret⟩ _ _ false sent
      (UString.unquote_quote _) (Site.request "X-ROSTER") "X-ROSTER" "sip:localhost" Site.localhost
      address Site.localhost_readable
    exact ⟨trace,final,reg,run,authenticated active current,authorized⟩

/-- The address `sip:localhost;a=%20`. The blank goes when the parameter is kept, and what is
printed of it is not read. -/
def Site.blankParameter : Osip.Address := { Site.localhost with params := [("a",some [])] }

theorem blank_parameter_challenged : (Transition.execute (Server.step Site.hash) Site.registration
      Site.server).map (fun s => (s.manager.registries.heap.lookup 0).map fun reg =>
        let ev := Site.answered reg "X-ROSTER" Site.blankParameter
        decide ((reg.active = true ∧ reg.hasExpired s.manager.now = false) ∧ Site.challenged s reg ∧
          reg.authenticate Site.hash ev s.manager.now ≠ Sip.ok ∧
          (reg.authorize Site.hash ev s.manager.now).2 ≠ Sip.ok)) =
    some (some true) := by
  decide +kernel

/-- The device's request with that address, which the server has as `sip:localhost`. -/
theorem blank_parameter_refused :
    Osip.uriParse "sip:localhost;a=%20" = some Site.blankParameter ∧
    ∃ trace final, ∃ reg : Registry, Server.Run Site.hash Site.server trace final ∧
      final.manager.registries.heap.lookup 0 = some reg ∧
      (reg.active = true ∧ reg.hasExpired final.manager.now = false) ∧ Site.challenged final reg ∧
      reg.authenticate Site.hash (Site.answered reg "X-ROSTER" Site.blankParameter)
        final.manager.now ≠ Sip.ok ∧
      (reg.authorize Site.hash (Site.answered reg "X-ROSTER" Site.blankParameter)
        final.manager.now).2 ≠ Sip.ok := by
  refine ⟨by decide +kernel,?_⟩
  obtain ⟨final,done,checked⟩ := Option.map_eq_some_iff.mp blank_parameter_challenged
  obtain ⟨reg,live,facts⟩ := Option.map_eq_some_iff.mp checked
  obtain ⟨trace,run,-⟩ := Transition.execute_run _ _ _ done
  exact ⟨trace,final,reg,run,live,of_decide_eq_true facts⟩

end SipWitch
