import SipWitch.Registration

/-! The gate of the management requests: the checks of the context that receives one,
the registration and the credentials that the manager asks for, and the row that the
sysadmins' slots look for. What gets through is followed to the database threads. -/
namespace SipWitch

open Index Registries

def Method.signal (ev : Event) (reg : Registry) : Method → Signal
  | .roster => .sendRoster ev reg.endpointId
  | .profile => .changeProfile ev reg.userId reg.endpointId
  | .coverage => .changeCoverage ev reg.userId reg.endpointId
  | .forwarding => .changeForwarding ev reg.userId reg.endpointId
  | .admin => .changeAdmin ev reg.userId reg.endpointId
  | .drop => .dropExtension ev reg.userId reg.endpointId
  | .membership => .changeMembership ev reg.userId reg.endpointId
  | .topic => .changeTopic ev
  | .devlist => .sendDevlist ev
  | .devkill => .removeDevice ev reg.userId reg.endpointId
  | .deauthorize => .removeAuthorize ev
  | .authorize => .changeAuthorize ev
  | .pending => .sendPending ev reg.endpointId
  | .ackPending => .changePending reg.endpointId

/-- The signals that registering sends are no management. -/
def Signal.isManagement : Signal → Bool
  | .findEndpoint _ | .lastAccess .. => false
  | _ => true

/-- The request of a signal whose slot acts for sysadmins only. -/
def Signal.privileged : Signal → Option Event
  | .changeAuthorize ev | .removeAuthorize ev | .changeAdmin ev _ _ | .dropExtension ev _ _ => some ev
  | _ => none

/-- A labelled device of a local extension sent the request over TCP. -/
structure Event.Entitled (ev : Event) : Prop where
  tcp : ev.context.netProto = .tcp
  number : 1 ≤ ev.number
  label : ev.label ≠ "NONE"

/-- The slot handles an entitled request whose own registration, as `find` returns it, has
not expired and accepts its credentials, and the signal is the one of that request. -/
def Granted (hash : HashFunction) (m : Manager) (slot : Slot) (signal : Signal) : Prop :=
  ∃ method ev a reg, slot = .request method ev ∧ signal = Method.signal ev reg method ∧ ev.Entitled ∧
    m.find ev = (m,some (a,reg)) ∧ reg.key = ev.key ∧ reg.hasExpired m.now = false ∧
    reg.authenticate hash ev m.now = Sip.ok

namespace Context

variable {ev : Event} {slot : Slot}

theorem refusal_none {checks : List (Bool × Nat)} :
    refusal checks = none ↔ ∀ check ∈ checks, check.1 = false := by
  simp [refusal]

/-- All lists of checks include the ones on the number and the label. -/
theorem checks_passed (method : Method) (passed : refusal (checks method ev) = none) :
    1 ≤ ev.number ∧ ev.label ≠ "NONE" := by
  rw [refusal_none] at passed
  cases method <;>
  · simp [checks] at passed
    grind

theorem process_slot (received : (process ev).2 = some slot) :
    slot = .refreshRegistration ev ∨ ∃ method, slot = .request method ev ∧ ev.Entitled := by
  simp only [process] at received
  split at received
  · split at received
    · contradiction
    · split at received
      · contradiction
      · exact .inl (Option.some.inj received).symm
  · split at received
    · contradiction
    · rename_i method _
      split at received
      · contradiction
      · rename_i passed
        split at received
        · rename_i tcp
          obtain ⟨number,label⟩ := checks_passed method passed
          exact .inr ⟨method,(Option.some.inj received).symm,tcp,number,label⟩
        · contradiction

end Context

namespace Manager

variable {hash : HashFunction} {m m' : Manager} {ev : Event} {reg : Registry}

theorem challenge_emitted (m : Manager) (ev : Event) (a : Handle) (reg : Registry)
    (fresh : Option Nonce) : (m.challenge ev a reg fresh).emitted = m.emitted := by
  cases fresh <;> rfl

theorem vet_cases (hash : HashFunction) (m : Manager) (ev : Event) :
    (m.vet hash ev).2 = none ∧ (m.vet hash ev).1.emitted = m.emitted ∨
    ∃ a reg, m.vet hash ev = (m,some reg) ∧ m.find ev = (m,some (a,reg)) ∧
      m.registries.registries.lookup ev.key = some a ∧
      m.registries.heap.lookup a = some reg ∧ reg.hasExpired m.now = false ∧
      reg.authenticate hash ev m.now = Sip.ok := by
  rcases m.find_cases ev with ⟨a,reg,found,entry,live,fresh⟩ | found | ⟨a,found⟩ <;>
    simp only [vet,found]
  · cases ev.authorization with
    | none => exact .inl ⟨rfl,challenge_emitted m ev a reg none⟩
    | some creds =>
      by_cases accepted : reg.authenticate hash ev m.now = Sip.ok
      · exact .inr ⟨a,reg,if_neg (not_not.mpr accepted),rfl,entry,live,fresh,accepted⟩
      · exact .inl (by simp [accepted,reply,send])
  · exact .inl ⟨trivial,rfl⟩
  · exact .inl ⟨trivial,rfl⟩

/-- The fourteen requests differ in the signal only, and in one reply. -/
theorem requestOf_emitted (hash : HashFunction) (m : Manager) (method : Method) (ev : Event) :
    (m.requestOf hash method ev).emitted = (m.vet hash ev).1.emitted ++
      ((m.vet hash ev).2.map fun reg => Method.signal ev reg method).toList := by
  cases method <;>
    simp only [requestOf,requestRoster,requestProfile,requestCoverage,requestForwarding,
      requestAdmin,requestDrop,requestMembership,requestTopic,requestDevlist,requestDevkill,
      requestDeauthorize,requestAuthorize,requestPending,request,ackPending] <;>
    rcases m.vet hash ev with ⟨after,_ | reg⟩ <;>
    simp [emit,reply,send,Method.signal]

theorem authorized_emitted (signal : Signal)
    (member : signal ∈ (m.authorized ev before reg).emitted) :
    signal ∈ m.emitted ∨ signal.isManagement = false := by
  simp only [authorized,send] at member
  split at member
  · exact .inl member
  · rcases List.mem_append.mp member with earlier | last
    · exact .inl earlier
    · rw [List.mem_singleton.mp last]
      exact .inr rfl

theorem release_emitted : (m.release a reg).emitted = m.emitted := by
  simp only [release]
  split <;> rfl

theorem refreshRegistration_emitted (signal : Signal)
    (member : signal ∈ (m.refreshRegistration hash ev fresh).emitted) :
    signal ∈ m.emitted ∨ signal.isManagement = false := by
  rcases m.find_cases ev with ⟨a,reg,found,-⟩ | found | ⟨a,found⟩ <;>
    simp only [refreshRegistration,found] at member
  · cases creds : ev.authorization with
    | none =>
      simp only [creds] at member
      rw [challenge_emitted] at member
      exact .inl member
    | some given =>
      simp only [creds,release_emitted] at member
      split at member
      · exact authorized_emitted (m := m.write a _) signal member
      · exact .inl member
  all_goals
    rcases List.mem_append.mp member with earlier | last
    · exact .inl earlier
    · rw [List.mem_singleton.mp last]
      exact .inr rfl

theorem notified_emitted (notice : Notice) :
    (m.handle hash (.notice notice) fresh).emitted = m.emitted := by
  cases notice with
  | createRegistration ev endpoint =>
    cases endpoint with
    | none => rfl
    | some ep => rfl
  | dropEndpoint endpoint =>
    simp only [handle,dropEndpoint]
    split <;> rfl
  | sendMessage endpoint data =>
    simp only [handle,sendMessage]
    repeat' split
    all_goals rfl

/-- Management is signalled for a request only, and only for one that is granted. -/
theorem handle_granted (linked : Linked m.registries) (silent : m.emitted = [])
    (entitled : ∀ method ev, slot = .request method ev → ev.Entitled) (signal : Signal)
    (member : signal ∈ (m.handle hash slot fresh).emitted) (management : signal.isManagement) :
    Granted hash m slot signal := by
  cases slot with
  | refreshRegistration ev =>
    rcases refreshRegistration_emitted signal member with earlier | other
    · simp [silent] at earlier
    · rw [other] at management
      contradiction
  | notice notice =>
    rw [notified_emitted,silent] at member
    contradiction
  | request method ev =>
    rw [handle,requestOf_emitted] at member
    rcases vet_cases hash m ev with ⟨refused,same⟩ | ⟨a,reg,admitted,found,entry,live,fresh,ok⟩
    · simp [refused,same,silent] at member
    · obtain ⟨other,known,key⟩ := linked.registries _ _ entry
      rw [live] at known
      cases known
      simp only [admitted,silent,List.nil_append,Option.map_some,Option.toList_some,
        List.mem_singleton] at member
      exact ⟨method,ev,a,reg,rfl,member,entitled method ev rfl,found,key,fresh,ok⟩

end Manager

namespace Database

variable {d : Database} {ev : Event}

theorem isSysadmin_iff {t : Tables} {number : Int} : t.isSysadmin number = true ↔
    ∃ row ∈ t.admin, row.authname = "system" ∧ row.extnbr = number := by
  simp [Tables.isSysadmin,Tables.isAdmin]

/-- A slot that acts for sysadmins only answers anybody else, and does no more. -/
theorem handle_privileged (signal : Signal) (privileged : signal.privileged = some ev)
    (stranger : d.tables.isSysadmin ev.number = false) :
    (d.handle signal).tables = d.tables ∧ (d.handle signal).emitted = d.emitted := by
  cases signal <;> simp only [Signal.privileged,Option.some.injEq,reduceCtorEq] at privileged <;>
    subst privileged
  case changeAuthorize ev =>
    simp only [handle,changeAuthorize,stranger,if_true]
    split <;> exact ⟨rfl,rfl⟩
  case removeAuthorize ev =>
    simp only [handle,Authorize.removeAuthorization,stranger,if_true]
    exact ⟨rfl,rfl⟩
  case dropExtension ev authuser endpoint =>
    simp only [handle,dropExtension,stranger,if_true]
    split <;> exact ⟨rfl,rfl⟩
  case changeAdmin ev authuser endpoint =>
    simp only [handle,changeAdmin,stranger,if_true]
    split <;> exact ⟨rfl,rfl⟩

end Database

namespace Server

variable {hash : HashFunction} {s next : Server} {a : Action}

/-- What the manager signals in a step. -/
def signalled (hash : HashFunction) (s : Server) : Action → List Signal
  | .manage fresh =>
    match s.inbox with
    | [] => []
    | slot :: _ => (s.manager.handle hash slot fresh).emitted
  | _ => []

def queue (s : Server) (authorize : Bool) : List Signal :=
  if authorize then s.lookups else s.requests

/-- What one of the two threads runs in a step. -/
def runs (s : Server) (authorize : Bool) : Action → List Signal
  | .authorize => if authorize then s.lookups.head?.toList else []
  | .database => if authorize then [] else s.requests.head?.toList
  | _ => []

structure Idle (s : Server) : Prop where
  inbox : s.inbox = []
  lookups : s.lookups = []
  requests : s.requests = []
  manager : s.manager.emitted = []
  database : s.database.emitted = []

structure Gated (s : Server) : Prop where
  linked : Linked s.manager.registries
  entitled : ∀ method ev, .request method ev ∈ s.inbox → ev.Entitled
  manager : s.manager.emitted = []
  database : s.database.emitted = []

theorem receive_entitled (gated : s.Gated) (ev : Event) (method : Method) (ev' : Event)
    (queued : .request method ev' ∈ (s.receive ev).inbox) : ev'.Entitled := by
  rcases List.mem_append.mp queued with earlier | new
  · exact gated.entitled method ev' earlier
  · rcases Context.process_slot (Option.mem_toList.mp new) with other | ⟨_,same,entitled⟩
    · contradiction
    · cases same
      exact entitled

theorem notice_entitled (gated : s.Gated) (notices : List Notice) (method : Method) (ev : Event)
    (queued : .request method ev ∈ s.inbox ++ notices.map .notice) : ev.Entitled := by
  rcases List.mem_append.mp queued with earlier | new
  · exact gated.entitled method ev earlier
  · obtain ⟨_,_,other⟩ := List.mem_map.mp new
    contradiction

theorem step_gated (gated : s.Gated) (moved : s.step hash a = some next) : next.Gated := by
  have linked : Linked next.manager.registries :=
    step_stable linked_stable gated.linked (fun ep _ => gated.linked.create ep _ _) moved
  cases a with
  | pass ms => cases moved; exact ⟨linked,gated.entitled,gated.manager,gated.database⟩
  | receive ev =>
    cases moved
    exact ⟨linked,receive_entitled gated ev,gated.manager,gated.database⟩
  | manage fresh =>
    obtain ⟨slot,rest,waiting,rfl⟩ := manage_some moved
    refine ⟨linked,fun method ev queued => gated.entitled method ev ?_,rfl,gated.database⟩
    rw [waiting]
    exact List.mem_cons_of_mem _ queued
  | cleanup => cases moved; exact ⟨linked,gated.entitled,gated.manager,gated.database⟩
  | authorize =>
    obtain ⟨signal,rest,-,rfl⟩ := authorize_some moved
    exact ⟨linked,notice_entitled gated _,gated.manager,rfl⟩
  | database =>
    obtain ⟨signal,rest,-,rfl⟩ := database_some moved
    exact ⟨linked,notice_entitled gated _,gated.manager,rfl⟩
  | other tables drops messages =>
    cases moved
    exact ⟨linked,notice_entitled gated _,gated.manager,gated.database⟩

theorem run_gated (run : Server.Run hash s trace final) (gated : s.Gated) : final.Gated :=
  run.invariant Gated (fun _ _ _ holds moved => step_gated holds moved) gated

/-- A thread takes its signals in the order in which they were queued for it. -/
theorem step_queue (moved : s.step hash a = some next) (authorize : Bool) :
    s.queue authorize ++ (s.signalled hash a).filter (fun signal => signal.isLookup = authorize) =
      s.runs authorize a ++ next.queue authorize := by
  cases a with
  | manage fresh =>
    obtain ⟨slot,rest,waiting,rfl⟩ := manage_some moved
    cases authorize <;> simp [queue,signalled,runs,managed,waiting]
  | authorize =>
    obtain ⟨first,rest,waiting,rfl⟩ := authorize_some moved
    cases authorize <;> simp [queue,signalled,runs,served,waiting]
  | database =>
    obtain ⟨first,rest,waiting,rfl⟩ := database_some moved
    cases authorize <;> simp [queue,signalled,runs,served,waiting]
  | _ => cases moved; simp [queue,signalled,runs,receive]

theorem run_queue (run : Server.Run hash s trace final) (authorize : Bool) :
    s.queue authorize ++ trace.flatMap (fun edge => (edge.source.signalled hash edge.action).filter
      fun signal => signal.isLookup = authorize) =
    trace.flatMap (fun edge => edge.source.runs authorize edge.action) ++
      final.queue authorize := by
  induction run with
  | start => simp
  | next _ h ih =>
    simp only [List.flatMap_append,List.flatMap_cons,List.flatMap_nil,List.append_nil]
    rw [← List.append_assoc,ih,List.append_assoc,step_queue h authorize,List.append_assoc]

theorem step_granted (gated : s.Gated) (signal : Signal) (member : signal ∈ s.signalled hash a)
    (management : signal.isManagement) : ∃ slot, s.inbox.head? = some slot ∧ Granted hash s.manager slot signal := by
  cases a with
  | manage fresh =>
    cases waiting : s.inbox with
    | nil => simp [signalled,waiting] at member
    | cons slot rest =>
      simp only [signalled,waiting] at member
      refine ⟨slot,rfl,?_⟩
      refine Manager.handle_granted gated.linked gated.manager (fun method ev same => ?_) signal
        member management
      exact gated.entitled method ev (by rw [waiting,same]; exact List.mem_cons_self)
  | _ => contradiction

/-- The tables and the queue that a step of the database threads leaves. -/
theorem step_runs (moved : s.step hash a = some next) (signal : Signal)
    (running : signal ∈ s.runs authorize a) :
    next.database.tables = (s.database.handle signal).tables ∧
    next.inbox = s.inbox ++ (s.database.handle signal).emitted.map .notice := by
  cases a with
  | authorize =>
    obtain ⟨first,rest,waiting,rfl⟩ := authorize_some moved
    cases authorize <;> simp [runs,waiting] at running
    subst running
    exact ⟨rfl,rfl⟩
  | database =>
    obtain ⟨first,rest,waiting,rfl⟩ := database_some moved
    cases authorize <;> simp [runs,waiting] at running
    subst running
    exact ⟨rfl,rfl⟩
  | _ => contradiction

theorem step_tables (moved : s.step hash a = some next)
    (internal : ∀ tables drops messages, a ≠ .other tables drops messages)
    (resting : ∀ authorize, s.runs authorize a = []) :
    next.database.tables = s.database.tables := by
  cases a with
  | manage fresh =>
    obtain ⟨slot,rest,-,rfl⟩ := manage_some moved
    rfl
  | authorize =>
    have empty : s.lookups = [] := by simpa [runs] using resting true
    simp [step,empty] at moved
  | database =>
    have empty : s.requests = [] := by simpa [runs] using resting false
    simp [step,empty] at moved
  | other tables drops messages => exact absurd rfl (internal tables drops messages)
  | _ => cases moved; rfl

/-- In every run, management is signalled only by the slot of a request, which a labelled device
sent over TCP and its own unexpired registration accepts, with that registration's user and endpoint.
Each database thread runs what was signalled for it, in that order, and only by running
a signal changes the tables. Without an admin row for its sender, a signal for sysadmins
changes no table and disconnects no endpoint. -/
theorem management_granted (hash : HashFunction) (s : Server) (trace final)
    (linked : Linked s.manager.registries) (idle : s.Idle) (run : Server.Run hash s trace final) :
    (∀ edge ∈ trace, ∀ signal ∈ edge.source.signalled hash edge.action, signal.isManagement →
      ∃ slot, edge.source.inbox.head? = some slot ∧ Granted hash edge.source.manager slot signal) ∧
    (∀ authorize, trace.flatMap (fun edge => edge.source.runs authorize edge.action) <+:
      trace.flatMap fun edge => (edge.source.signalled hash edge.action).filter
        fun signal => signal.isLookup = authorize) ∧
    (∀ edge ∈ trace, (∀ tables drops messages, edge.action ≠ .other tables drops messages) →
      (∀ authorize, edge.source.runs authorize edge.action = []) →
      edge.target.database.tables = edge.source.database.tables) ∧
    (∀ edge ∈ trace, ∀ authorize, ∀ signal ∈ edge.source.runs authorize edge.action, ∀ ev,
      signal.privileged = some ev →
      (¬∃ row ∈ edge.source.database.tables.admin,
        row.authname = "system" ∧ row.extnbr = ev.number) →
      edge.target.database.tables = edge.source.database.tables ∧
        edge.target.inbox = edge.source.inbox) := by
  have start : s.Gated :=
    ⟨linked,by simp [idle.inbox],idle.manager,idle.database⟩
  have gated (edge) (member : edge ∈ trace) : edge.source.Gated := by
    obtain ⟨before,-,reached⟩ := run.edge_reached edge member
    exact run_gated reached start
  refine ⟨?_,?_,?_,?_⟩
  · exact fun edge member signal signalled => step_granted (gated edge member) signal signalled
  · intro authorize
    have conserved := run_queue run authorize
    have empty : s.queue authorize = [] := by
      cases authorize <;> simp [queue,idle.lookups,idle.requests]
    rw [empty,List.nil_append] at conserved
    rw [conserved]
    exact List.prefix_append _ _
  · exact fun edge member => step_tables (run.edge_step edge member)
  · intro edge member authorize signal running ev privileged stranger
    rw [← Database.isSysadmin_iff,Bool.not_eq_true] at stranger
    obtain ⟨tables,inbox⟩ := step_runs (run.edge_step edge member) signal running
    obtain ⟨same,silent⟩ := Database.handle_privileged signal privileged stranger
    rw [tables,inbox,same,silent,(gated edge member).database]
    exact ⟨rfl,List.append_nil _⟩

def rosterRequest : Event := Site.signed (Site.request "X-ROSTER") "0707070707070707"
  "4849617fd472c4991accdadf35947100"

theorem roster_signalled : (Transition.execute (step Site.hash)
      (Site.registration ++ [.receive rosterRequest]) Site.server).map (fun s =>
        decide (s.signalled Site.hash (.manage (Site.nonce 0)) = [.sendRoster rosterRequest 2] ∧
          (s.step Site.hash (.manage (Site.nonce 0))).isSome)) = some true := by
  decide +kernel

theorem management_granted_roster : ∃ s trace final, Server.Run Site.hash s trace final ∧
    ∃ edge ∈ trace, ∃ slot, edge.source.inbox.head? = some slot ∧
      Granted Site.hash edge.source.manager slot (.sendRoster rosterRequest 2) := by
  obtain ⟨asked,done,facts⟩ := Option.map_eq_some_iff.mp roster_signalled
  obtain ⟨signals,enabled⟩ := of_decide_eq_true facts
  obtain ⟨final,granted⟩ := Option.isSome_iff_exists.mp enabled
  obtain ⟨trace,run,-⟩ := Transition.execute_run _ _ _ done
  have whole : Server.Run Site.hash Site.server (trace ++ [⟨asked,_,final⟩]) final :=
    .next run granted
  have last : (⟨asked,.manage (Site.nonce 0),final⟩ : Transition.Edge Server Action) ∈
      trace ++ [⟨asked,.manage (Site.nonce 0),final⟩] := by simp
  refine ⟨Site.server,_,final,whole,_,last,?_⟩
  exact (management_granted Site.hash Site.server _ final linked_empty ⟨rfl,rfl,rfl,rfl,rfl⟩
    whole).1 _ last _ (by rw [signals]; exact List.mem_singleton_self _) rfl

end Server

end SipWitch
