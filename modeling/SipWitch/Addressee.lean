import SipWitch.Answers

/-! The To addresses that the slots of the database threads read. The context checks the
address where it takes a request in, and the slot that reads it runs two signals later. -/
namespace SipWitch

namespace Osip

/-- `osip_uri_t`; none is a null pointer. -/
structure Uri where
  username : Option UString := none
  host : Option UString := none

structure From where
  url : Option Uri := none

/-- The user name of an address, if none of `to`, `to->url` and `to->url->username` is null. -/
def From.username (address : Option From) : Option UString := do (← (← address).url).username

end Osip

structure Request where
  address : Option Osip.From := none
  ev : Event
  user : ev.toUser = Osip.From.username address

def Request.Addressed (request : Request) : Prop :=
  ∃ header uri user, request.address = some header ∧ header.url = some uri ∧ uri.username = some user

theorem Request.addressed_iff {request : Request} :
    request.Addressed ↔ request.ev.toUser ≠ none := by
  rw [request.user,Option.ne_none_iff_exists']
  constructor
  · rintro ⟨header,uri,user,here,url,name⟩
    exact ⟨user,by simp [Osip.From.username,here,url,name]⟩
  · rintro ⟨user,read⟩
    obtain ⟨header,here,rest⟩ := Option.bind_eq_some_iff.mp read
    obtain ⟨uri,url,name⟩ := Option.bind_eq_some_iff.mp rest
    exact ⟨header,uri,user,here,url,name⟩

inductive Database.Slot where
  | signal (signal : Signal)
  | localMessage (ev : Event)

/-- Whether a slot reads `message()->to->url->username`. One that does begins with it,
and has no check of its own. -/
def Database.Slot.reads : Database.Slot → Bool
  | .localMessage _ => true
  | .signal emitted =>
    match emitted with
    | .removeAuthorize _ | .changeAuthorize _ | .changeTopic _ | .removeDevice .. => true
    | .changeForwarding .. | .changeCoverage .. | .dropExtension .. | .changeAdmin .. => true
    | .changeMembership .. | .changeProfile .. => true
    | .findEndpoint _ | .sendDevlist _ | .sendRoster .. | .sendPending .. => false
    | .changePending _ | .lastAccess .. => false

/-- The slots of the database threads that a request leads to: the one that its context
signals a MESSAGE to, and those that the manager's slot signals. -/
def Manager.slots (hash : HashFunction) (m : Manager) (ev : Event) (fresh : Nonce) :
    List Database.Slot :=
  if ev.method = "MESSAGE" then
    match (Context.processMessage ev).2 with
    | some .localMessage => [.localMessage ev]
    | _ => []
  else
    match (Context.process ev).2 with
    | none => []
    | some slot => ({ m with emitted := [] }.handle hash slot fresh).emitted.map .signal

namespace Context

variable {ev : Event} {method : Method} {reg : Registry}

/-- Of the requests whose slots read the address, all but one are checked for it. -/
theorem checks_addressed (passed : refusal (checks method ev) = none) (here : method ≠ .devkill)
    (reading : Database.Slot.reads (.signal (Method.signal ev reg method))) : ev.toUser ≠ none := by
  rw [refusal_none] at passed
  have checked (listed : (ev.toUser.isNone,Sip.addressIncomplete) ∈ checks method ev) :
      ev.toUser ≠ none := by
    simpa [Option.isSome_iff_ne_none] using passed _ listed
  cases method with
  | devkill => contradiction
  | roster | devlist | pending | ackPending => simp [Database.Slot.reads,Method.signal] at reading
  | _ =>
    apply checked
    simp [checks]

theorem process_devkill (named : ev.method = Method.devkill.name) (entitled : ev.Entitled) :
    (process ev).2 = some (.request .devkill ev) := by
  have passed : refusal (checks .devkill ev) = none := by
    have stranger := entitled.number
    simp [refusal_none,checks,entitled.tcp,entitled.label]
    omega
  rw [process_passed named passed,if_pos entitled.tcp]

theorem process_request (received : (process ev).2 = some (.request method ev)) :
    ev.method = method.name ∧ refusal (checks method ev) = none ∧ ev.Entitled := by
  have entitled : ev.Entitled := by
    rcases process_slot received with other | ⟨-,-,entitled⟩
    · contradiction
    · exact entitled
  simp only [process] at received
  split at received
  · split at received
    · contradiction
    · split at received <;> cases received
  · split at received
    · contradiction
    · rename_i named
      split at received
      · contradiction
      · rename_i passed
        rw [if_pos entitled.tcp] at received
        cases received
        exact ⟨by simpa using List.find?_some named,passed,entitled⟩

end Context

namespace Manager

variable {hash : HashFunction} {m : Manager} {ev : Event} {fresh : Nonce} {method : Method}

theorem vet_silent : ({ m with emitted := [] }.vet hash ev).2 = (m.vet hash ev).2 := by
  simp only [vet,find]
  rcases m.registries.findByEvent ev m.now with ⟨registries,_ | ⟨a,reg⟩⟩
  · rfl
  · cases ev.authorization with
    | none => rfl
    | some creds =>
      dsimp only
      split <;> rfl

theorem slots_request (received : (Context.process ev).2 = some (.request method ev))
    (other : ev.method ≠ "MESSAGE") : m.slots hash ev fresh =
      ((m.vet hash ev).2.map fun reg => Database.Slot.signal (Method.signal ev reg method)).toList := by
  have silent : ({ m with emitted := [] }.vet hash ev).1.emitted = [] := by
    rcases vet_cases hash { m with emitted := [] } ev with ⟨-,same⟩ | ⟨a,reg,same,-⟩
    · exact same
    · rw [same]
  simp only [slots,other,if_false,received,handle,requestOf_emitted,silent,vet_silent,List.nil_append]
  cases (m.vet hash ev).2 <;> rfl

/-- Registering leads to slots that read no address. -/
theorem slots_register (received : (Context.process ev).2 = some (.refreshRegistration ev))
    (other : ev.method ≠ "MESSAGE") : ∀ slot ∈ m.slots hash ev fresh, slot.reads = false := by
  simp only [slots,other,if_false,received,List.mem_map]
  rintro slot ⟨signal,sent,rfl⟩
  rcases refreshRegistration_emitted signal sent with earlier | registering
  · contradiction
  · cases signal <;> first | rfl | contradiction

end Manager

open Manager in
/-- A slot reads the user of a To address only where there is one, unless the request
removes a device: the context takes it in without looking at the address. -/
theorem addressee_present_iff (hash : HashFunction) (m : Manager) (request : Request) (fresh : Nonce) :
    (∀ slot ∈ m.slots hash request.ev fresh, slot.reads → request.Addressed) ↔
      ¬(request.ev.method = Method.devkill.name ∧ request.ev.Entitled ∧
        (m.vet hash request.ev).2.isSome ∧ ¬request.Addressed) := by
  rw [Request.addressed_iff]
  by_cases text : request.ev.method = "MESSAGE"
  · have other : request.ev.method ≠ Method.devkill.name := by
      rw [text]
      decide
    simp only [other,false_and,not_false_eq_true,iff_true]
    intro slot reached _ missing
    simp [slots,text,Context.processMessage,missing] at reached
  cases received : (Context.process request.ev).2 with
  | none =>
    constructor
    · rintro - ⟨removing,entitled,-⟩
      rw [Context.process_devkill removing entitled] at received
      contradiction
    · intro _ slot reached
      simp [slots,text,received] at reached
  | some slot =>
    rcases Context.process_slot received with rfl | ⟨method,rfl,-⟩
    · constructor
      · rintro - ⟨removing,entitled,-⟩
        rw [Context.process_devkill removing entitled] at received
        cases received
      · intro _ slot reached reading
        rw [slots_register received text slot reached] at reading
        contradiction
    · obtain ⟨named,passed,entitled⟩ := Context.process_request received
      rw [slots_request received text]
      cases granted : (m.vet hash request.ev).2 with
      | none => simp
      | some reg =>
        by_cases removing : method = .devkill
        · subst removing
          simp [named,entitled,Method.signal,Database.Slot.reads]
        · have other : request.ev.method ≠ Method.devkill.name := by
            rw [named]
            exact fun same => removing (Method.name_injective same)
          simp only [other,false_and,not_false_eq_true,iff_true]
          intro slot reached reading
          obtain rfl : slot = .signal (Method.signal request.ev reg method) := by simpa using reached
          exact Context.checks_addressed passed removing reading

def Site.removalSums : List (UString × UString) := [
  ("X-DEVKILL:sip:localhost","8fb31e5760cfcbed3cf3fb10712a67f3"),
  ("74d0a5bd38ed78708aacb9f056e40120:0707070707070707:8fb31e5760cfcbed3cf3fb10712a67f3",
    "dfedf18913750d2bc5b773839c4eb39d")]

def Site.removalHash : HashFunction
  | .md5,text => unhex (((removalSums ++ md5).lookup text).getD [])
  | _,_ => []

/-- The registered device asks to remove one, of nobody: `To: <sip:localhost>`. -/
def Site.removal : Request where
  address := some { url := some { host := some (UString.ascii "localhost") } }
  ev := signed (request "X-DEVKILL") "0707070707070707" "dfedf18913750d2bc5b773839c4eb39d"
  user := rfl

theorem removal_granted : (Transition.execute (Server.step Site.removalHash) Site.registration
    Site.server).map (fun s => (s.manager.vet Site.removalHash Site.removal.ev).2.isSome) =
      some true := by
  decide +kernel

theorem addressee_missing : ¬∀ (hash : HashFunction) (m : Manager) (request : Request) (fresh : Nonce),
    ∀ slot ∈ m.slots hash request.ev fresh, slot.reads → request.Addressed := by
  intro present
  obtain ⟨s,-,accepted⟩ := Option.map_eq_some_iff.mp removal_granted
  obtain ⟨reg,granted⟩ := Option.isSome_iff_exists.mp accepted
  have received : (Context.process Site.removal.ev).2 = some (.request .devkill Site.removal.ev) :=
    Context.process_devkill (by decide) ⟨by decide,by decide,by decide⟩
  have reached := @Manager.slots_request Site.removalHash s.manager Site.removal.ev (Site.nonce 0)
    .devkill received (by decide)
  rw [granted] at reached
  have addressed := present Site.removalHash s.manager Site.removal (Site.nonce 0)
    (.signal (Method.signal Site.removal.ev reg .devkill)) (by simp [reached]) rfl
  exact Request.addressed_iff.mp addressed rfl

end SipWitch
