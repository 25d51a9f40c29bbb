import SipWitch.Removal

/-! The contacts that a device has of its server. Every change of what the roster shows is
counted, the answers to registrations carry the count, and a device that is told another
count than before asks for the roster. -/
namespace SipWitch

open Tables

namespace RosterEntry

def isContact : RosterEntry → Bool
  | .remove .. => false
  | .contact .. => true

def contacts (list : List RosterEntry) : List RosterEntry := (list.filter isContact).map unranked

end RosterEntry

namespace Database

variable {d d' d'' : Database} {ev client : Event}

def contacts (d : Database) (client : Event) : List RosterEntry :=
  ((d.tables.extensions.rows.mergeSort fun a b => a.extnbr ≤ b.extnbr).filterMap
    (d.contact client)).map RosterEntry.unranked

theorem contacts_roster (d : Database) (client : Event) (endpoint : Int) :
    RosterEntry.contacts (d.roster client endpoint) = d.contacts client := by
  have notices : (d.removed endpoint).filter RosterEntry.isContact = [] := by
    refine List.filter_eq_nil_iff.mpr fun entry member => ?_
    obtain ⟨row,-,rfl⟩ := List.mem_map.mp member
    simp [RosterEntry.isContact]
  have shown (row : ExtensionRow) (entry : RosterEntry) (here : d.contact client row = some entry) :
      entry.isContact = true := by
    obtain ⟨account,-,rfl⟩ := contact_some here
    rfl
  rw [RosterEntry.contacts,roster,List.filter_append,notices,List.nil_append,contacts]
  congr 1
  refine List.filter_eq_self.mpr fun entry member => ?_
  obtain ⟨row,-,here⟩ := List.mem_filterMap.mp member
  exact shown row entry here

/-- What the server does next shows the same contacts, or the count is another one. -/
structure Counted (d d' : Database) : Prop where
  sequence : d.rosterSequence ≤ d'.rosterSequence
  contacts : d'.rosterSequence = d.rosterSequence → ∀ client, d'.contacts client = d.contacts client

theorem Counted.trans (first : Counted d d') (second : Counted d' d'') : Counted d d'' where
  sequence := first.sequence.trans second.sequence
  contacts same client := by
    have before : d'.rosterSequence = d.rosterSequence :=
      Nat.le_antisymm (same ▸ second.sequence) first.sequence
    rw [second.contacts (same.trans before.symm),first.contacts before]

theorem Listed.contacts (listed : Listed d d') (client : Event) : d'.contacts client = d.contacts client := by
  have plain (d : Database) : d.contacts client =
      ((d.roster client 0).map RosterEntry.unranked).filter RosterEntry.isContact := by
    have kind : RosterEntry.isContact ∘ RosterEntry.unranked = RosterEntry.isContact := by
      funext entry
      cases entry <;> rfl
    rw [List.filter_map,kind,← contacts_roster d client 0]
    rfl
  rw [plain,plain,listed.roster client 0]

theorem Announced.counted (announced : Announced d d') : Counted d d' := by
  rcases announced with more | listed
  · exact ⟨more.le,fun same => absurd same more.ne'⟩
  · exact ⟨listed.sequence,fun _ => listed.contacts⟩

theorem counted_of (authorize : d'.tables.authorize = d.tables.authorize)
    (extensions : d'.tables.extensions = d.tables.extensions)
    (settings : (d'.operatorPolicy,d'.network) = (d.operatorPolicy,d.network))
    (sequence : d'.rosterSequence = d.rosterSequence) : Counted d d' := by
  have listed : Listed { d with tables := { d.tables with deletes := d'.tables.deletes } } d' :=
    listed_of authorize extensions rfl settings sequence.ge
  exact ⟨sequence.ge,fun _ => listed.contacts⟩

theorem changeTopic_counted (d : Database) (ev : Event) : Counted d (d.changeTopic ev) := by
  have replied (code : Nat) : Counted d (d.reply ev code) := counted_of rfl rfl rfl rfl
  have told {after : Database} (listed : Listed (d.reply ev Sip.ok) after) : Counted d after :=
    (replied _).trans (Announced.counted (Or.inr listed))
  simp only [changeTopic]
  split
  · exact replied _
  split
  · exact replied _
  split
  · exact told ((adminMessage_listed _ _ _ _ _).trans (adminMessage_listed _ _ _ _ _))
  split
  · exact replied _
  · exact told (foldl_kept (P := fun after => Listed _ after) _ _
      (fun after row listed => listed.trans (adminMessage_listed row.extnbr _ _ _ _)) (Listed.refl _))

theorem removeDevice_counted (d : Database) (ev : Event) (authuser : UString) (endpoint : Int) :
    Counted d (d.removeDevice ev authuser endpoint) := by
  have replied (code : Nat) : Counted d (d.reply ev code) := counted_of rfl rfl rfl rfl
  simp only [removeDevice]
  split
  · exact replied _
  split
  · exact replied _
  split
  · exact replied _
  split
  · exact replied _
  · rename_i row _
    obtain ⟨authorize,extensions,-,-⟩ := deleteEndpoint_frame d.tables row.endpoint
    have deleted : Counted d ((d.emit (.dropEndpoint row.endpoint)).runQuery (·.deleteEndpoint row.endpoint)) :=
      counted_of authorize extensions rfl rfl
    exact deleted.trans (sendProfile_announced _ ev authuser endpoint).counted

theorem findEndpoint_counted (d : Database) (ev : Event) : Counted d (Authorize.findEndpoint d ev) := by
  have created (d : Database) (extension : ExtensionRow) (endpoint : Option EndpointRow) :
      Counted d (Authorize.createEndpoint d ev extension endpoint) := by
    simp only [Authorize.createEndpoint]
    repeat' split
    all_goals exact counted_of rfl rfl rfl rfl
  have labelled : Counted d (Authorize.initializeLabel d ev).1 := by
    obtain ⟨extensions,authorize⟩ := Authorize.insertEndpoint_accounts d.tables ev.number ev.label d.clock
    simp only [Authorize.initializeLabel]
    split
    · exact counted_of rfl rfl rfl rfl
    · exact counted_of authorize extensions rfl rfl
  have replied (code : Nat) : Counted d (d.reply ev code) := counted_of rfl rfl rfl rfl
  simp only [Authorize.findEndpoint]
  split
  · exact replied _
  split
  · exact replied _
  split
  · exact replied _
  split
  · exact replied _
  split
  · exact labelled.trans (created _ _ _)
  split
  · exact replied _
  · exact created d _ _

/-- Every slot but one counts what it changes of the roster. -/
theorem handle_counted (d : Database) (signal : Signal)
    (kept : ∀ ev authuser endpoint, signal = .changeAdmin ev authuser endpoint → ¬d.Withdraws ev) :
    Counted d (d.handle signal) := by
  cases signal with
  | findEndpoint ev => exact findEndpoint_counted d ev
  | removeAuthorize ev => exact (removeAuthorization_announced d ev).counted
  | changeAuthorize ev => exact (changeAuthorize_announced d ev).counted
  | changeTopic ev => exact changeTopic_counted d ev
  | sendDevlist ev => exact counted_of rfl rfl rfl rfl
  | sendRoster ev endpoint => exact counted_of rfl rfl rfl rfl
  | sendPending ev endpoint =>
    simp only [handle,sendPending]
    split <;> exact counted_of rfl rfl rfl rfl
  | changePending endpoint => exact counted_of rfl rfl rfl rfl
  | removeDevice ev authuser endpoint => exact removeDevice_counted d ev authuser endpoint
  | changeForwarding ev authuser endpoint => exact (changeForwarding_announced d ev authuser endpoint).counted
  | changeCoverage ev authuser endpoint => exact (changeCoverage_announced d ev authuser endpoint).counted
  | dropExtension ev authuser endpoint => exact (dropExtension_announced d ev authuser endpoint).counted
  | changeAdmin ev authuser endpoint =>
    exact (changeAdmin_announced d ev authuser endpoint (kept _ _ _ rfl)).counted
  | changeMembership ev authuser endpoint => exact (changeMembership_announced d ev authuser endpoint).counted
  | changeProfile ev authuser endpoint => exact (sendProfile_announced d ev authuser endpoint).counted
  | lastAccess endpoint timestamp agent deviceKey uri => exact counted_of rfl rfl rfl rfl

end Database

structure SentRequest where
  request : RosterRequest
  connector : Nat
  deriving DecidableEq

structure MadeRoster where
  answer : RosterAnswer
  made : Nat
  connector : Nat
  deriving DecidableEq

/-- The database of the server, a device, and what is on its way between them. The
connectors that the device has made are numbered. -/
structure Synchronization where
  database : Database
  device : RosterClient
  connector : Nat := 0
  requests : List SentRequest := []
  answers : List MadeRoster := []
  /-- The answers to registrations that are on their way, as their counts. -/
  registrations : List Nat := []
  /-- The count of the last one that the device has. -/
  heard : Option Nat := none
  /-- The roster that the device's contacts are from. -/
  shown : Option MadeRoster := none

namespace Synchronization

inductive Action where
  /-- The server runs a slot for some client. -/
  | handle (signal : Signal)
  /-- The server answers a registration of the device. -/
  | answer
  | register (sequence : Nat)
  | offline
  | logout
  /-- A backup of the device's database takes its place. -/
  | importDb
  | login (request : RosterRequest)
  | hourly
  | serve (sent : SentRequest)
  | changeRoster (reply : MadeRoster)
  | loseRegistration (sequence : Nat)
  | loseRequest (sent : SentRequest)
  | loseAnswer (reply : MadeRoster)

variable (client : Event) (endpoint : Int) (s : Synchronization)

def send (requests : List RosterRequest) : Synchronization :=
  { s with requests := s.requests ++ requests.map fun request => ⟨request,s.connector⟩ }

def register (sequence : Nat) : Synchronization :=
  let (device,sent) := s.device.registered sequence
  let connector := if s.device.connected then s.connector else s.connector + 1
  { s with device, connector }.send sent

def serve (sent : SentRequest) : Synchronization :=
  match sent.request with
  | .roster => { s with
      database := s.database.sendRoster client endpoint
      answers := s.answers ++
        [⟨⟨s.database.roster client endpoint,0⟩,s.database.rosterSequence,sent.connector⟩] }
  | .pending => { s with database := s.database.sendPending client endpoint }

def step (s : Synchronization) : Action → Option Synchronization
  | .handle signal => some { s with database := s.database.handle signal }
  | .answer => some { s with registrations := s.registrations ++ [s.database.rosterSequence] }
  | .register sequence =>
    if sequence ∈ s.registrations then
      some { { s with registrations := s.registrations.erase sequence }.register (checkRoster sequence) with
        heard := some sequence }
    else none
  | .offline => some { s with device := s.device.offline }
  | .logout => some { s with device := s.device.logout }
  | .importDb => some { s with device := s.device.offline, shown := none }
  | .login request =>
    if request ∈ s.device.logins then
      some ({ s with device := { s.device with logins := s.device.logins.erase request } }.send
        (if s.device.connected then [request] else []))
    else none
  | .hourly =>
    if s.device.refreshRoster ∧ s.device.connected then some (s.send [.roster]) else none
  | .serve sent =>
    if sent ∈ s.requests then
      some ({ s with requests := s.requests.erase sent }.serve client endpoint sent)
    else none
  | .changeRoster reply =>
    if reply ∈ s.answers then
      let (device,sent) := s.device.changeRoster reply.answer
      let shown := if s.device.connected then some reply else s.shown
      some ({ s with device, shown, answers := s.answers.erase reply }.send sent)
    else none
  | .loseRegistration sequence => some { s with registrations := s.registrations.erase sequence }
  | .loseRequest sent => some { s with requests := s.requests.erase sent }
  | .loseAnswer reply => some { s with answers := s.answers.erase reply }

abbrev Run (client : Event) (endpoint : Int) := Transition.Run (step client endpoint)

end Synchronization

namespace RosterClient

variable {dev : RosterClient}

theorem offline_eq : dev.offline = { dev with
    connected := false
    requestPending := if dev.connected then false else dev.requestPending
    refreshRoster := if dev.connected then false else dev.refreshRoster } := by
  cases here : dev.connected <;> simp [offline,changeConnector,here]
  rw [← here]

/-- After a registration the device has a connector, and a device that is marked either was
so before or sends a request, unless the new connector's timer is going to. -/
theorem registered_spec (sequence : Nat) :
    (dev.registered sequence).1.rosterSequence = sequence ∧
    (dev.registered sequence).1.connected = true ∧
    ((dev.registered sequence).1.updateRoster = false →
      sequence = dev.rosterSequence ∧ dev.updateRoster = false) ∧
    (dev.connected = false → (dev.registered sequence).1.updateRoster = true →
      .roster ∈ (dev.registered sequence).1.logins) ∧
    (dev.connected = true → (dev.registered sequence).1.logins = dev.logins) ∧
    (dev.connected = true → (dev.registered sequence).1.updateRoster = true →
      dev.updateRoster = true ∨ (dev.registered sequence).2 = [.roster]) := by
  by_cases same : sequence = dev.rosterSequence <;> cases connected : dev.connected <;>
    cases marked : dev.updateRoster <;>
    simp [registered,authorized,noteRoster,changeConnector,same,connected,marked]

theorem changeRoster_offline (answer : RosterAnswer) (idle : dev.connected = false) :
    dev.changeRoster answer = (dev,[]) := by
  simp [changeRoster,idle]

/-- A device that keeps its connector has the roster that it asked for. -/
theorem changeRoster_spec (answer : RosterAnswer) (connected : dev.connected = true) :
    (dev.changeRoster answer).1.rosterSequence = dev.rosterSequence ∧
    ((dev.changeRoster answer).1.connected = true → (dev.changeRoster answer).1.updateRoster = false) := by
  simp only [changeRoster,connected,Bool.true_eq_false,if_false]
  split
  · simp [logout,offline_eq]
  · split <;> simp

end RosterClient

namespace Synchronization

variable {client : Event} {endpoint : Int} {s next : Synchronization} {a : Action}

/-- A roster request of the present connector is still to be answered. -/
def Asked (s : Synchronization) : Prop :=
  .roster ∈ s.device.logins ∨ ⟨.roster,s.connector⟩ ∈ s.requests ∨
    ∃ reply ∈ s.answers, reply.connector = s.connector

structure Dated (client : Event) (s : Synchronization) : Prop where
  heard : ∀ sequence, s.heard = some sequence ∨ sequence ∈ s.registrations →
    sequence ≤ s.database.rosterSequence
  made : ∀ reply, s.shown = some reply ∨ reply ∈ s.answers → reply.made ≤ s.database.rosterSequence ∧
    (reply.made = s.database.rosterSequence →
      RosterEntry.contacts reply.answer.list = s.database.contacts client)

structure Marked (s : Synchronization) : Prop where
  told : s.device.rosterSequence = (s.heard.map checkRoster).getD 65535
  idle : s.heard = none → s.device.connected = false
  recent : s.device.updateRoster = false → ∃ reply, s.shown = some reply ∧
    ∀ sequence, s.heard = some sequence → sequence ≤ reply.made
  asked : s.device.connected = true → s.device.updateRoster = true → s.Asked

/-- No remote account is withdrawn. Less than a round of changes lies between two answers to
registrations that the device hears, and an answer with a roster is not older than them. What
belongs to the present connector is not lost, and a backup is imported when the roster is
due anyway. -/
def Timely (s : Synchronization) : Action → Prop
  | .handle signal => ∀ ev authuser endpoint, signal = .changeAdmin ev authuser endpoint →
      ¬s.database.Withdraws ev
  | .register sequence => ∀ last, s.heard = some last → sequence < last + 8192 ∧ last < sequence + 8192
  | .importDb => s.device.updateRoster = true
  | .changeRoster reply => s.device.connected = true →
      ∀ sequence, s.heard = some sequence → sequence ≤ reply.made
  | .loseRequest sent => s.device.connected = false ∨ sent.connector ≠ s.connector
  | .loseAnswer reply => s.device.connected = false ∨ reply.connector ≠ s.connector
  | _ => True

theorem Dated.database (dated : Dated client s) (counted : Database.Counted s.database next.database)
    (heard : next.heard = s.heard) (registrations : next.registrations = s.registrations)
    (shown : next.shown = s.shown) (answers : next.answers = s.answers) : Dated client next := by
  refine ⟨fun sequence known => ?_,fun reply known => ?_⟩
  · rw [heard,registrations] at known
    exact (dated.heard sequence known).trans counted.sequence
  · rw [shown,answers] at known
    obtain ⟨past,current⟩ := dated.made reply known
    refine ⟨past.trans counted.sequence,fun same => ?_⟩
    have kept : next.database.rosterSequence = s.database.rosterSequence :=
      Nat.le_antisymm (same ▸ past) counted.sequence
    rw [current (same.trans kept),counted.contacts kept]

theorem Dated.fewer (dated : Dated client s) (database : next.database = s.database)
    (heard : ∀ sequence, next.heard = some sequence ∨ sequence ∈ next.registrations →
      s.heard = some sequence ∨ sequence ∈ s.registrations)
    (made : ∀ reply, next.shown = some reply ∨ reply ∈ next.answers →
      s.shown = some reply ∨ reply ∈ s.answers) : Dated client next := by
  refine ⟨fun sequence known => ?_,fun reply known => ?_⟩
  · rw [database]
    exact dated.heard sequence (heard sequence known)
  · rw [database]
    exact dated.made reply (made reply known)

theorem serve_dated (dated : Dated client s) (sent : SentRequest) :
    Dated client (s.serve client endpoint sent) := by
  rcases sent with ⟨_ | _,connector⟩
  · have counted : Database.Counted s.database (s.database.sendRoster client endpoint) :=
      Database.counted_of rfl rfl rfl rfl
    have before : Dated client { s with database := s.database.sendRoster client endpoint } :=
      dated.database counted rfl rfl rfl rfl
    refine ⟨before.heard,fun reply known => ?_⟩
    rw [serve,List.mem_append,List.mem_singleton,← or_assoc] at known
    rcases known with old | rfl
    · exact before.made reply old
    · exact ⟨le_refl _,fun _ => (Database.contacts_roster s.database client endpoint).trans
        (counted.contacts rfl client).symm⟩
  · exact dated.database (Database.handle_counted s.database (.sendPending client endpoint) (by simp))
      rfl rfl rfl rfl

theorem step_dated (dated : Dated client s) (timely : s.Timely a)
    (moved : s.step client endpoint a = some next) : Dated client next := by
  cases a with
  | handle signal =>
    obtain rfl := Option.some.inj moved
    exact dated.database (Database.handle_counted s.database signal timely) rfl rfl rfl rfl
  | answer =>
    obtain rfl := Option.some.inj moved
    refine ⟨fun sequence known => ?_,dated.made⟩
    simp only [List.mem_append,List.mem_singleton,← or_assoc] at known
    rcases known with old | rfl
    · exact dated.heard sequence old
    · exact le_refl _
  | register sequence =>
    simp only [step] at moved
    split at moved
    · rename_i flying
      obtain rfl := Option.some.inj moved
      refine dated.fewer rfl (fun other known => .inr ?_) fun _ known => known
      rcases known with here | later
      · rw [← Option.some.inj here]
        exact flying
      · exact List.mem_of_mem_erase later
    · contradiction
  | offline | logout =>
    obtain rfl := Option.some.inj moved
    exact dated.fewer rfl (fun _ known => known) fun _ known => known
  | importDb =>
    obtain rfl := Option.some.inj moved
    refine dated.fewer rfl (fun _ known => known) fun reply known => known.imp_left fun none => ?_
    exact absurd none (by simp)
  | login _ | hourly =>
    simp only [step] at moved
    split at moved
    · obtain rfl := Option.some.inj moved
      exact dated.fewer rfl (fun _ known => known) fun _ known => known
    · contradiction
  | serve sent =>
    simp only [step] at moved
    split at moved
    · obtain rfl := Option.some.inj moved
      exact @serve_dated client endpoint { s with requests := s.requests.erase sent }
        (dated.fewer rfl (fun _ known => known) fun _ known => known) sent
    · contradiction
  | changeRoster reply =>
    simp only [step] at moved
    split at moved
    · rename_i flying
      obtain rfl := Option.some.inj moved
      refine dated.fewer rfl (fun _ known => known) fun other known => ?_
      rcases known with taken | later
      · simp only [send] at taken
        split at taken
        · exact .inr (Option.some.inj taken ▸ flying)
        · exact .inl taken
      · exact .inr (List.mem_of_mem_erase later)
    · contradiction
  | loseRegistration sequence =>
    obtain rfl := Option.some.inj moved
    exact dated.fewer rfl (fun _ known => known.imp_right List.mem_of_mem_erase) fun _ known => known
  | loseRequest sent =>
    obtain rfl := Option.some.inj moved
    exact dated.fewer rfl (fun _ known => known) fun _ known => known
  | loseAnswer reply =>
    obtain rfl := Option.some.inj moved
    exact dated.fewer rfl (fun _ known => known) fun _ known => known.imp_right List.mem_of_mem_erase

theorem checkRoster_near {first second : Nat} (same : checkRoster first = checkRoster second)
    (before : first < second + 8192) (after : second < first + 8192) : first = second := by
  simp only [checkRoster] at same
  omega

theorem Asked.kept (asked : s.Asked)
    (logins : .roster ∈ s.device.logins → .roster ∈ next.device.logins ∨
      ⟨.roster,next.connector⟩ ∈ next.requests)
    (requests : ⟨.roster,s.connector⟩ ∈ s.requests → ⟨.roster,next.connector⟩ ∈ next.requests ∨
      ∃ reply ∈ next.answers, reply.connector = next.connector)
    (answers : ∀ reply ∈ s.answers, reply.connector = s.connector →
      reply ∈ next.answers ∧ reply.connector = next.connector) : next.Asked := by
  rcases asked with login | request | ⟨reply,flying,present⟩
  · exact (logins login).imp_right .inl
  · exact .inr (requests request)
  · exact .inr (.inr ⟨reply,answers reply flying present⟩)

theorem register_marked (marked : Marked s) (sequence : Nat)
    (near : ∀ last, s.heard = some last → sequence < last + 8192 ∧ last < sequence + 8192) :
    Marked { s.register (checkRoster sequence) with heard := some sequence } := by
  obtain ⟨told,connected,unmarked,new,logins,old⟩ := s.device.registered_spec (checkRoster sequence)
  refine ⟨told,by simp,fun clear => ?_,fun _ mark => ?_⟩
  · obtain ⟨same,before⟩ := unmarked clear
    obtain ⟨reply,shown,past⟩ := marked.recent before
    refine ⟨reply,shown,fun other here => ?_⟩
    obtain rfl := Option.some.inj here
    rw [marked.told] at same
    cases last : s.heard with
    | none =>
      rw [last] at same
      have small : checkRoster sequence < 8192 := Nat.mod_lt _ (by decide)
      have large : checkRoster sequence = 65535 := same
      omega
    | some last' =>
      rw [last] at same
      obtain ⟨ahead,behind⟩ := near last' last
      rw [checkRoster_near same ahead behind]
      exact past last' last
  · cases here : s.device.connected with
    | false => exact .inl (new here mark)
    | true =>
      have present : (s.register (checkRoster sequence)).connector = s.connector := by
        simp [register,send,here]
      have sent : (s.register (checkRoster sequence)).requests = s.requests ++
          (s.device.registered (checkRoster sequence)).2.map fun request => ⟨request,s.connector⟩ := by
        simp [register,send,here]
      rcases old here mark with before | request
      · refine (marked.asked here before).kept (fun login => .inl ?_) (fun request => .inl ?_)
          fun reply flying own => ⟨flying,own.trans present.symm⟩
        · exact (logins here).symm ▸ login
        · simp only [sent,present]
          exact List.mem_append_left _ request
      · refine .inr (.inl ?_)
        simp only [sent,present,request]
        simp

theorem changeRoster_marked (marked : Marked s) (reply : MadeRoster)
    (timely : s.Timely (.changeRoster reply))
    (moved : s.step client endpoint (.changeRoster reply) = some next) : Marked next := by
  simp only [step] at moved
  split at moved
  · obtain rfl := Option.some.inj moved
    cases connected : s.device.connected with
    | false =>
      rw [RosterClient.changeRoster_offline _ connected]
      refine ⟨marked.told,fun _ => connected,fun clear => ?_,fun live => ?_⟩
      · simpa [send] using marked.recent clear
      · exact absurd live (by simp [send,connected])
    | true =>
      obtain ⟨sequence,clear⟩ := RosterClient.changeRoster_spec reply.answer connected
      refine ⟨sequence.trans marked.told,fun none => ?_,fun _ => ⟨reply,rfl,timely connected⟩,
        fun live mark => ?_⟩
      · exact absurd (marked.idle none) (by simp [connected])
      · have unmarked := clear live
        exact absurd mark (by simp [send,unmarked])
  · contradiction

theorem step_marked (marked : Marked s) (timely : s.Timely a)
    (moved : s.step client endpoint a = some next) : Marked next := by
  cases a with
  | handle _ | answer | loseRegistration _ =>
    obtain rfl := Option.some.inj moved
    exact ⟨marked.told,marked.idle,marked.recent,marked.asked⟩
  | register sequence =>
    simp only [step] at moved
    split at moved
    · obtain rfl := Option.some.inj moved
      exact @register_marked { s with registrations := s.registrations.erase sequence }
        ⟨marked.told,marked.idle,marked.recent,marked.asked⟩ sequence timely
    · contradiction
  | offline =>
    obtain rfl := Option.some.inj moved
    simp only [RosterClient.offline_eq]
    exact ⟨marked.told,fun _ => rfl,marked.recent,by simp⟩
  | logout =>
    obtain rfl := Option.some.inj moved
    simp only [RosterClient.logout,RosterClient.offline_eq]
    exact ⟨marked.told,fun _ => rfl,by simp,by simp⟩
  | importDb =>
    obtain rfl := Option.some.inj moved
    have due : s.device.updateRoster = true := timely
    simp only [RosterClient.offline_eq]
    exact ⟨marked.told,fun _ => rfl,by simp [due],by simp⟩
  | login request =>
    simp only [step] at moved
    split at moved
    · obtain rfl := Option.some.inj moved
      refine ⟨marked.told,marked.idle,marked.recent,fun live mark => ?_⟩
      have connected : s.device.connected = true := live
      refine (marked.asked live mark).kept (fun login => ?_)
        (fun before => .inl (List.mem_append_left _ before)) fun reply flying own => ⟨flying,own⟩
      by_cases here : request = .roster
      · exact .inr (by simp [send,connected,here])
      · exact .inl ((List.mem_erase_of_ne (Ne.symm here)).mpr login)
    · contradiction
  | hourly =>
    simp only [step] at moved
    split at moved
    · obtain rfl := Option.some.inj moved
      refine ⟨marked.told,marked.idle,marked.recent,fun live mark => ?_⟩
      exact (marked.asked live mark).kept .inl (fun before => .inl (List.mem_append_left _ before))
        fun reply flying own => ⟨flying,own⟩
    · contradiction
  | serve sent =>
    simp only [step] at moved
    split at moved
    · obtain rfl := Option.some.inj moved
      rcases sent with ⟨_ | _,connector⟩
      · refine ⟨marked.told,marked.idle,marked.recent,fun live mark => ?_⟩
        refine (marked.asked live mark).kept .inl (fun before => ?_) fun reply flying own =>
          ⟨List.mem_append_left _ flying,own⟩
        by_cases here : connector = s.connector
        · exact .inr ⟨_,List.mem_append_right _ (List.mem_singleton_self _),here⟩
        · exact .inl ((List.mem_erase_of_ne (by simpa [serve] using Ne.symm here)).mpr before)
      · refine ⟨marked.told,marked.idle,marked.recent,fun live mark => ?_⟩
        exact (marked.asked live mark).kept .inl
          (fun before => .inl ((List.mem_erase_of_ne (by simp)).mpr before)) fun reply flying own => ⟨flying,own⟩
    · contradiction
  | changeRoster reply => exact changeRoster_marked marked reply timely moved
  | loseRequest sent =>
    obtain rfl := Option.some.inj moved
    refine ⟨marked.told,marked.idle,marked.recent,fun live mark => ?_⟩
    have connected : s.device.connected = true := live
    refine (marked.asked live mark).kept .inl (fun before => .inl ?_) fun reply flying own => ⟨flying,own⟩
    rcases timely with idle | other
    · simp [connected] at idle
    · refine (List.mem_erase_of_ne fun same => other ?_).mpr before
      rw [← same]
  | loseAnswer reply =>
    obtain rfl := Option.some.inj moved
    refine ⟨marked.told,marked.idle,marked.recent,fun live mark => ?_⟩
    have connected : s.device.connected = true := live
    refine (marked.asked live mark).kept .inl .inl fun answer flying own => ⟨?_,own⟩
    rcases timely with idle | other
    · simp [connected] at idle
    · refine (List.mem_erase_of_ne fun same => other ?_).mpr flying
      rw [← same,own]

/-- A device that has just been started, before the first answer to a registration. -/
structure Start (s : Synchronization) : Prop where
  device : ∃ user, s.device = { user }
  unheard : s.heard = none ∧ s.registrations = []
  empty : s.requests = [] ∧ s.answers = [] ∧ s.shown = none

/-- Nothing is on its way from which the device would learn of contacts. -/
structure Quiet (s : Synchronization) : Prop where
  logins : .roster ∉ s.device.logins
  requests : ∀ sent ∈ s.requests, sent.request ≠ .roster
  answers : s.answers = []

def prompt (s : Synchronization) : Action → Bool
  | .handle signal => signal = .removeAuthorize Site.deauthorize
  | .register sequence => s.heard.all fun last => sequence < last + 8192 && last < sequence + 8192
  | .changeRoster reply => s.heard.all fun sequence => sequence ≤ reply.made
  | .answer | .login _ | .serve _ => true
  | _ => false

theorem timely_of_prompt (here : s.prompt a = true) : s.Timely a := by
  cases a with
  | handle signal =>
    obtain rfl := of_decide_eq_true here
    simp [Timely]
  | register sequence =>
    intro last heard
    simpa [prompt,heard] using here
  | changeRoster reply =>
    intro _ sequence heard
    simpa [prompt,heard] using here
  | answer | login _ | serve _ => trivial
  | _ => contradiction

end Synchronization

namespace Site

def subscriber : Synchronization := { database := pair, device := { user := "test1" } }

/-- The device logs in, and an account is removed before the first roster reaches it. -/
def subscription : List Synchronization.Action := [.answer,.register 1,.login .roster,
  .serve ⟨.roster,1⟩,.handle (.removeAuthorize deauthorize),.changeRoster ⟨rosterOf pair 0,1,1⟩,
  .answer,.register 2,.serve ⟨.roster,1⟩,.changeRoster ⟨rosterOf removed 0,2,1⟩]

end Site

namespace Synchronization

end Synchronization

end SipWitch
