import SipWitch.Roster

/-! Removal notices on their way to a labelled device. The server keeps a row for each
account that the device is to forget, marks it once a roster answer tells of it, and takes
the device's next request for pending messages as the receipt. -/
namespace SipWitch

inductive RosterRequest where
  | roster | pending
  deriving DecidableEq

/-- A roster answer, with the number of removals before the server made it. -/
structure RosterAnswer where
  list : List RosterEntry
  removals : Nat
  deriving DecidableEq

/-- What the classes `Desktop`, `Phonebook` and `Listener` of the device keep of the roster. -/
structure RosterClient where
  /-- `Phonebook::self()->user()`. -/
  user : UString
  /-- There is a connector. -/
  connected : Bool := false
  updateRoster : Bool := true
  requestPending : Bool := false
  /-- The hourly timer runs. -/
  refreshRoster : Bool := false
  rosterSequence : Nat := 65535
  /-- What the timers of new connectors are going to request. -/
  logins : List RosterRequest := []
  processed : List RosterAnswer := []
  deriving DecidableEq

namespace RosterClient

variable (dev : RosterClient)

def changeConnector (connected : Bool) : RosterClient :=
  if connected then
    if dev.updateRoster then { dev with requestPending := true, logins := dev.logins ++ [.roster] }
    else { dev with requestPending := false, logins := dev.logins ++ [.pending] }
  else { dev with requestPending := false, refreshRoster := false }

def offline : RosterClient :=
  if dev.connected then { dev with connected := false }.changeConnector false else dev

def logout : RosterClient := { dev.offline with updateRoster := true }

/-- The slot of the listener's signal `updateRoster`. -/
def noteRoster : RosterClient × List RosterRequest :=
  ({ dev with updateRoster := true },
    if dev.updateRoster = false ∧ dev.connected then [.roster] else [])

def authorized : RosterClient :=
  if dev.connected then dev else { dev with connected := true }.changeConnector true

def registered (sequence : Nat) : RosterClient × List RosterRequest :=
  if sequence = dev.rosterSequence then (dev.authorized,[])
  else
    let (dev,sent) := { dev with rosterSequence := sequence }.noteRoster
    (dev.authorized,sent)

/-- The slot of the connector's signal `changeRoster`. A device that is told to remove its
own user logs out. -/
def changeRoster (answer : RosterAnswer) : RosterClient × List RosterRequest :=
  if dev.connected = false then (dev,[])
  else
    let dev := { dev with
      updateRoster := false
      refreshRoster := true
      processed := dev.processed ++ [answer] }
    if answer.list.any fun entry => match entry with
      | .remove user _ => user = dev.user
      | .contact .. => false
    then (dev.logout,[])
    else if dev.requestPending then ({ dev with requestPending := false },[.pending])
    else (dev,[])

end RosterClient

structure Removal where
  database : Database
  device : RosterClient
  requests : List RosterRequest := []
  answers : List RosterAnswer := []
  /-- How many removals have left a notice for the device. -/
  removals : Nat := 0
  /-- What the last roster answer for the device has of these. -/
  told : Option Nat := none

namespace Removal

inductive Action where
  | remove (ev : Event)
  | register
  | offline
  | logout
  | login (request : RosterRequest)
  | hourly
  /-- The server takes up a request of the device. -/
  | serve (request : RosterRequest)
  /-- The device processes an answer. -/
  | changeRoster (answer : RosterAnswer)
  | loseRequest (request : RosterRequest)
  | loseAnswer (answer : RosterAnswer)
  /-- The server takes up a request of another device. -/
  | other (request : RosterRequest) (client : Event) (endpoint : Int)

variable (client : Event) (endpoint : Int) (s : Removal)

def send (requests : List RosterRequest) : Removal := { s with requests := s.requests ++ requests }

def remove (ev : Event) : Removal :=
  let database := Authorize.removeAuthorization s.database ev
  { s with
    database
    removals := if database.removed endpoint = s.database.removed endpoint then s.removals
      else s.removals + 1 }

def serve : RosterRequest → Removal
  | .roster => { s with
      database := s.database.sendRoster client endpoint
      answers := s.answers ++ [⟨s.database.roster client endpoint,s.removals⟩]
      told := some s.removals }
  | .pending => { s with database := s.database.sendPending client endpoint }

def step (s : Removal) : Action → Option Removal
  | .remove ev => some (s.remove endpoint ev)
  | .register =>
    let (device,sent) := s.device.registered (checkRoster s.database.rosterSequence)
    some ({ s with device }.send sent)
  | .offline => some { s with device := s.device.offline }
  | .logout => some { s with device := s.device.logout }
  | .login request =>
    if request ∈ s.device.logins then
      some ({ s with device := { s.device with logins := s.device.logins.erase request } }.send
        (if s.device.connected then [request] else []))
    else none
  | .hourly =>
    if s.device.refreshRoster ∧ s.device.connected then some (s.send [.roster]) else none
  | .serve request =>
    if request ∈ s.requests then
      some ({ s with requests := s.requests.erase request }.serve client endpoint request)
    else none
  | .changeRoster answer =>
    if answer ∈ s.answers then
      let (device,sent) := s.device.changeRoster answer
      some ({ s with device, answers := s.answers.erase answer }.send sent)
    else none
  | .loseRequest request => some { s with requests := s.requests.erase request }
  | .loseAnswer answer => some { s with answers := s.answers.erase answer }
  | .other request other target =>
    if target = endpoint then none
    else
      match request with
      | .roster => some { s with database := s.database.sendRoster other target }
      | .pending => some { s with database := s.database.sendPending other target }

abbrev Run (client : Event) (endpoint : Int) := Transition.Run (step client endpoint)

end Removal

open Tables

namespace Database

def farewells (d : Database) (endpoint : Int) : List DeleteRow :=
  d.tables.deletes.filter fun row => row.endpoint = endpoint

end Database

def DeleteRow.entry (row : DeleteRow) : RosterEntry := .remove row.authname row.created

def Tables.OwnDevice (t : Tables) (auth : UString) (endpoint : Int) : Prop :=
  ∃ row ∈ t.endpoints, row.endpoint = endpoint ∧
    ∃ extension ∈ t.extensions, extension.extnbr = row.extnbr ∧ extension.authname = auth

namespace Database

variable {d : Database} {ev client : Event} {endpoint target : Int}

theorem removed_eq : d.removed endpoint = (d.farewells endpoint).map DeleteRow.entry := rfl

theorem sendRoster_farewells : (d.sendRoster client target).farewells endpoint =
    if target = endpoint then (d.farewells endpoint).map fun row => { row with delstatus := 1 }
    else d.farewells endpoint := by
  have marked : (d.sendRoster client target).tables.deletes = d.tables.deletes.map fun row =>
    if row.endpoint = target then { row with delstatus := 1 } else row := rfl
  have same (row : DeleteRow) : (if row.endpoint = target then { row with delstatus := 1 } else row).endpoint =
      row.endpoint := by
    split <;> rfl
  simp only [farewells,marked,List.filter_map,Function.comp_def,same]
  split
  · rename_i here
    apply List.map_congr_left
    intro row member
    have mine := of_decide_eq_true (List.mem_filter.mp member).2
    rw [if_pos (mine.trans here.symm)]
  · rename_i other
    conv_rhs => rw [← List.map_id (d.tables.deletes.filter fun row => row.endpoint = endpoint)]
    apply List.map_congr_left
    intro row member
    have mine := of_decide_eq_true (List.mem_filter.mp member).2
    rw [if_neg fun sent => other (sent.symm.trans mine)]
    rfl

theorem sendPending_farewells : (d.sendPending client target).farewells endpoint =
    if target = endpoint then (d.farewells endpoint).filter fun row => row.delstatus ≠ 1
    else d.farewells endpoint := by
  have kept : (d.sendPending client target).tables.deletes =
      d.tables.deletes.filter fun row => !(row.delstatus = 1 && row.endpoint = target) := by
    simp only [sendPending]
    split <;> rfl
  simp only [farewells,kept,List.filter_filter]
  by_cases here : target = endpoint
  · rw [if_pos here]
    apply List.filter_congr
    intro row _
    by_cases mine : row.endpoint = endpoint <;> simp [mine,here]
  · rw [if_neg here]
    apply List.filter_congr
    intro row _
    by_cases mine : row.endpoint = endpoint
    · simp [mine,Ne.symm here]
    · simp [mine]

theorem insertDeletes_farewells (auth : UString) (created : Int) (rows : List EndpointRow) (d : Database) :
    ∃ new, (∀ row ∈ new, row.delstatus = 0) ∧
      (rows.foldl (fun d row => d.runQuery (·.insertDelete
        { authname := auth, endpoint := row.endpoint, created })) d).farewells endpoint =
          d.farewells endpoint ++ new := by
  induction rows generalizing d with
  | nil => exact ⟨[],by simp,by simp⟩
  | cons row rest ih =>
    obtain ⟨new,fresh,later⟩ := ih (d.runQuery (·.insertDelete
      { authname := auth, endpoint := row.endpoint, created }))
    rw [List.foldl_cons,later]
    simp only [farewells,runQuery_tables,insertDelete]
    split
    · refine ⟨([{ authname := auth, endpoint := row.endpoint, created }] : List DeleteRow).filter
        (fun row => row.endpoint = endpoint) ++ new,?_,by simp⟩
      intro other member
      rcases List.mem_append.mp member with first | old
      · rw [List.mem_singleton.mp (List.mem_filter.mp first).1]
      · exact fresh other old
    · exact ⟨new,fresh,rfl⟩

/-- The endpoint of a device stays when an account is removed that is not its own. -/
theorem cascade_endpoint {auth : UString} (foreign : ¬d.tables.OwnDevice auth endpoint)
    (listed : d.tables.hasEndpoint endpoint = true) :
    let t : Tables := { d.tables with authorize := d.tables.authorize.delete fun row => row.authname = auth }
    (t.cascade d.tables).hasEndpoint endpoint = true := by
  intro t
  obtain ⟨row,member,number⟩ := hasEndpoint_iff.mp listed
  have account (extension : ExtensionRow) (here : extension ∈ d.tables.extensions)
      (own : extension.extnbr = row.extnbr) : t.lostAccount d.tables extension.authname = false := by
    have other : extension.authname ≠ auth := fun same =>
      foreign ⟨row,member,number,extension,here,own,same⟩
    by_contra lost
    simp only [lostAccount,Bool.not_eq_false,Bool.and_eq_true,Bool.not_eq_true'] at lost
    obtain ⟨old,stored,named⟩ := hasAccount_iff.mp lost.1
    have kept : t.hasAccount extension.authname = true :=
      hasAccount_iff.mpr ⟨old,Table.mem_delete.mpr ⟨stored,by simpa [named] using other⟩,named⟩
    rw [kept] at lost
    simp at lost
  rw [hasEndpoint_iff]
  refine ⟨row,Serial.mem_delete.mpr ⟨member,?_⟩,number⟩
  rw [lostExtension,Bool.and_eq_false_iff]
  by_cases extended : d.tables.hasExtension row.extnbr = true
  · right
    obtain ⟨extension,here,own⟩ := hasExtension_iff.mp extended
    rw [Bool.not_eq_false',hasExtension_iff]
    exact ⟨extension,Table.mem_delete.mpr ⟨here,account extension here own⟩,own⟩
  · left
    simpa using extended

theorem deleteAuthorize_farewells {auth : UString} (foreign : ¬d.tables.OwnDevice auth endpoint) :
    (d.runQuery (·.deleteAuthorize auth)).farewells endpoint = d.farewells endpoint := by
  simp only [farewells,runQuery_tables,deleteAuthorize,sweep]
  split
  · simp only [cascade,List.filter_filter]
    apply List.filter_congr
    intro row _
    by_cases mine : row.endpoint = endpoint
    · simp only [mine,decide_true,Bool.true_and,Bool.not_eq_true',lostEndpoint,Bool.and_eq_false_iff]
      by_cases listed : d.tables.hasEndpoint endpoint = true
      · right
        rw [Bool.not_eq_false']
        exact cascade_endpoint foreign listed
      · left
        simpa using listed
    · simp [mine]
  · rfl

/-- An account that the device does not belong to is removed with notices that are new. -/
theorem removeAuthorization_farewells
    (foreign : ¬d.tables.OwnDevice (UString.unquote (ev.toUser.getD [])) endpoint) :
    ∃ new, (∀ row ∈ new, row.delstatus = 0) ∧
      (Authorize.removeAuthorization d ev).farewells endpoint = d.farewells endpoint ++ new := by
  have same : ∃ new : List DeleteRow, (∀ row ∈ new, row.delstatus = 0) ∧
      d.farewells endpoint = d.farewells endpoint ++ new := ⟨[],by simp,by simp⟩
  simp only [Authorize.removeAuthorization]
  split
  · exact same
  split
  · exact same
  split
  · exact same
  · rename_i account _ _
    rw [← deleteAuthorize_farewells foreign]
    exact insertDeletes_farewells _ account.created _ ((d.reply ev Sip.ok).runQuery (·.deleteAuthorize _))

end Database

namespace RosterClient

variable {dev : RosterClient}

theorem changeConnector_processed (connected : Bool) :
    (dev.changeConnector connected).processed = dev.processed := by
  rw [changeConnector]
  split
  · split <;> rfl
  · rfl

theorem offline_processed : dev.offline.processed = dev.processed := by
  rw [offline]
  split
  · rw [changeConnector_processed]
  · rfl

theorem registered_processed (sequence : Nat) : (dev.registered sequence).1.processed = dev.processed := by
  have authorized (dev : RosterClient) : dev.authorized.processed = dev.processed := by
    rw [RosterClient.authorized]
    split
    · rfl
    · rw [changeConnector_processed]
  rw [registered]
  split
  · exact authorized dev
  · exact authorized _

/-- An answer counts as processed once the device has a connector for it. -/
theorem changeRoster_processed (answer : RosterAnswer) :
    (dev.changeRoster answer).1.processed = dev.processed ∨
    (dev.changeRoster answer).1.processed = dev.processed ++ [answer] := by
  rw [changeRoster]
  split
  · exact .inl rfl
  · right
    dsimp only
    split
    · rw [logout,offline_processed]
    · split <;> rfl

end RosterClient

namespace Removal

variable {client : Event} {endpoint : Int} {s next : Removal} {a : Action}

/-- The answers that the device has processed or may still process. -/
def heard (s : Removal) : List RosterAnswer := s.device.processed ++ s.answers

structure Telling (endpoint : Int) (s : Removal) : Prop where
  past : ∀ answer ∈ s.heard, answer.removals ≤ s.removals
  current : ∀ answer ∈ s.heard, answer.removals = s.removals →
    ∀ row ∈ s.database.farewells endpoint, row.entry ∈ answer.list
  marked : ∀ row ∈ s.database.farewells endpoint, row.delstatus = 1 → ∃ told, s.told = some told ∧
    ∀ answer ∈ s.heard, told ≤ answer.removals → row.entry ∈ answer.list

/-- A removal is not that of the device's own account. A request for pending messages finds
that the device has processed an answer made since the last removal that it was told of. -/
def Receipted (endpoint : Int) (s : Removal) : Action → Prop
  | .remove ev => ¬s.database.tables.OwnDevice (UString.unquote (ev.toUser.getD [])) endpoint
  | .serve .pending => ∀ told ∈ s.told, ∃ answer ∈ s.device.processed, told ≤ answer.removals
  | _ => True

theorem Telling.frame (telling : Telling endpoint s) (database : next.database.farewells endpoint =
    s.database.farewells endpoint) (removals : next.removals = s.removals) (told : next.told = s.told)
    (heard : ∀ answer ∈ next.heard, answer ∈ s.heard) : Telling endpoint next := by
  obtain ⟨past,current,marked⟩ := telling
  refine ⟨fun answer member => ?_,fun answer member same row listed => ?_,fun row listed sent => ?_⟩
  · rw [removals]
    exact past answer (heard answer member)
  · rw [removals] at same
    rw [database] at listed
    exact current answer (heard answer member) same row listed
  · rw [database] at listed
    obtain ⟨count,built,all⟩ := marked row listed sent
    exact ⟨count,told.trans built,fun answer member => all answer (heard answer member)⟩

theorem remove_telling (telling : Telling endpoint s) (ev : Event)
    (foreign : ¬s.database.tables.OwnDevice (UString.unquote (ev.toUser.getD [])) endpoint) :
    Telling endpoint (s.remove endpoint ev) := by
  obtain ⟨new,fresh,appended⟩ := Database.removeAuthorization_farewells foreign
  obtain ⟨past,current,marked⟩ := telling
  have removed : (Authorize.removeAuthorization s.database ev).removed endpoint =
      s.database.removed endpoint ↔ new = [] := by
    rw [Database.removed_eq,Database.removed_eq,appended,List.map_append]
    simp
  have old (row : DeleteRow) (listed : row ∈ (s.remove endpoint ev).database.farewells endpoint)
      (sent : row.delstatus = 1) : row ∈ s.database.farewells endpoint := by
    rw [remove] at listed
    simp only [appended,List.mem_append] at listed
    rcases listed with old | new
    · exact old
    · rw [fresh row new] at sent
      contradiction
  refine ⟨fun answer member => ?_,fun answer member same row listed => ?_,fun row listed sent => ?_⟩
  · have before := past answer member
    simp only [remove]
    split <;> omega
  · have before := past answer member
    simp only [remove,removed] at same listed
    split at same
    · rename_i none
      rw [appended,none,List.append_nil] at listed
      exact current answer member same row listed
    · omega
  · exact marked row (old row listed sent) sent

theorem serve_telling (telling : Telling endpoint s) (request : RosterRequest) :
    Telling endpoint (s.serve client endpoint request) := by
  obtain ⟨past,current,marked⟩ := telling
  cases request with
  | roster =>
    have rows (row : DeleteRow) (listed : row ∈ (s.database.sendRoster client endpoint).farewells endpoint) :
        ∃ old ∈ s.database.farewells endpoint, old.entry = row.entry := by
      rw [Database.sendRoster_farewells,if_pos rfl] at listed
      obtain ⟨old,member,rfl⟩ := List.mem_map.mp listed
      exact ⟨old,member,rfl⟩
    have all (answer : RosterAnswer) (member : answer ∈ (s.serve client endpoint .roster).heard)
        (same : answer.removals = s.removals) (row : DeleteRow)
        (listed : row ∈ (s.database.sendRoster client endpoint).farewells endpoint) :
        row.entry ∈ answer.list := by
      obtain ⟨old,known,entry⟩ := rows row listed
      rw [← entry]
      simp only [serve,heard,← List.append_assoc] at member
      rcases List.mem_append.mp member with earlier | last
      · exact current answer earlier same old known
      · rw [List.mem_singleton.mp last]
        exact List.mem_append_left _ (List.mem_map_of_mem known)
    have bound (answer : RosterAnswer) (member : answer ∈ (s.serve client endpoint .roster).heard) :
        answer.removals ≤ s.removals := by
      simp only [serve,heard,← List.append_assoc] at member
      rcases List.mem_append.mp member with earlier | last
      · exact past answer earlier
      · rw [List.mem_singleton.mp last]
    refine ⟨bound,all,fun row listed _ => ⟨s.removals,rfl,fun answer member told => ?_⟩⟩
    exact all answer member (Nat.le_antisymm (bound answer member) told) row listed
  | pending =>
    have rows (row : DeleteRow) (listed : row ∈ (s.database.sendPending client endpoint).farewells endpoint) :
        row ∈ s.database.farewells endpoint := by
      rw [Database.sendPending_farewells,if_pos rfl] at listed
      exact (List.mem_filter.mp listed).1
    exact ⟨past,fun answer member same row listed => current answer member same row (rows row listed),
      fun row listed sent => marked row (rows row listed) sent⟩

theorem step_telling (telling : Telling endpoint s) (receipted : s.Receipted endpoint a)
    (moved : s.step client endpoint a = some next) : Telling endpoint next := by
  cases a with
  | remove ev =>
    obtain rfl := Option.some.inj moved
    exact remove_telling telling ev receipted
  | register =>
    obtain rfl := Option.some.inj moved
    refine telling.frame rfl rfl rfl fun answer member => ?_
    have same := s.device.registered_processed (checkRoster s.database.rosterSequence)
    exact List.mem_append.mpr ((List.mem_append.mp member).imp_left fun processed => same ▸ processed)
  | offline =>
    obtain rfl := Option.some.inj moved
    refine telling.frame rfl rfl rfl fun answer member => ?_
    simpa only [heard,RosterClient.offline_processed] using member
  | logout =>
    obtain rfl := Option.some.inj moved
    refine telling.frame rfl rfl rfl fun answer member => ?_
    simpa only [heard,RosterClient.logout,RosterClient.offline_processed] using member
  | login request =>
    simp only [step] at moved
    split at moved
    · obtain rfl := Option.some.inj moved
      exact telling.frame rfl rfl rfl fun _ member => member
    · contradiction
  | hourly =>
    simp only [step] at moved
    split at moved
    · obtain rfl := Option.some.inj moved
      exact telling.frame rfl rfl rfl fun _ member => member
    · contradiction
  | serve request =>
    simp only [step] at moved
    split at moved
    · obtain rfl := Option.some.inj moved
      apply serve_telling
      exact telling.frame rfl rfl rfl fun _ member => member
    · contradiction
  | changeRoster answer =>
    simp only [step] at moved
    split at moved
    · rename_i listed
      obtain rfl := Option.some.inj moved
      refine telling.frame rfl rfl rfl fun other member => ?_
      rcases List.mem_append.mp member with processed | flying
      · rcases s.device.changeRoster_processed answer with same | more
        · exact List.mem_append_left _ (same ▸ processed)
        · rcases List.mem_append.mp (more ▸ processed) with earlier | last
          · exact List.mem_append_left _ earlier
          · exact List.mem_append_right _ (List.mem_singleton.mp last ▸ listed)
      · exact List.mem_append_right _ (List.mem_of_mem_erase flying)
    · contradiction
  | loseRequest request =>
    obtain rfl := Option.some.inj moved
    exact telling.frame rfl rfl rfl fun _ member => member
  | loseAnswer answer =>
    obtain rfl := Option.some.inj moved
    refine telling.frame rfl rfl rfl fun other member => ?_
    rcases List.mem_append.mp member with processed | flying
    · exact List.mem_append_left _ processed
    · exact List.mem_append_right _ (List.mem_of_mem_erase flying)
  | other request client target =>
    simp only [step] at moved
    split at moved
    · contradiction
    · rename_i apart
      cases request with
      | roster =>
        obtain rfl := Option.some.inj moved
        refine telling.frame ?_ rfl rfl fun _ member => member
        exact Database.sendRoster_farewells.trans (if_neg apart)
      | pending =>
        obtain rfl := Option.some.inj moved
        refine telling.frame ?_ rfl rfl fun _ member => member
        exact Database.sendPending_farewells.trans (if_neg apart)

/-- Rows that a filter discards are among those it does not let through. -/
theorem discarded {rows : List DeleteRow} {passes : DeleteRow → Bool} {entry : RosterEntry}
    (fewer : ((rows.filter passes).map DeleteRow.entry).count entry < (rows.map DeleteRow.entry).count entry) :
    ∃ row ∈ rows, passes row = false ∧ row.entry = entry := by
  by_contra none
  push Not at none
  apply Nat.ne_of_lt fewer
  simp only [List.count,List.countP_map,List.countP_filter]
  apply List.countP_congr
  intro row member
  simp only [Function.comp_apply,Bool.and_eq_true,beq_iff_eq]
  constructor
  · exact fun both => both.1
  · intro same
    refine ⟨same,?_⟩
    by_contra other
    exact none row member (by simpa using other) same

/-- The step discards no notice that the device has not processed. -/
def Processed (endpoint : Int) (s next : Removal) : Prop :=
  ∀ entry, (next.database.removed endpoint).count entry < (s.database.removed endpoint).count entry →
    ∃ answer ∈ s.device.processed, entry ∈ answer.list

theorem processed_same (same : next.database.removed endpoint = s.database.removed endpoint) :
    Processed endpoint s next := by
  intro entry fewer
  rw [same] at fewer
  omega

theorem serve_processed (telling : Telling endpoint s) (request : RosterRequest)
    (receipted : s.Receipted endpoint (.serve request)) :
    Processed endpoint s (s.serve client endpoint request) := by
  cases request with
  | roster =>
    apply processed_same
    rw [serve,Database.removed_eq,Database.removed_eq,Database.sendRoster_farewells,if_pos rfl,List.map_map]
    rfl
  | pending =>
    intro entry fewer
    rw [serve,Database.removed_eq,Database.removed_eq,Database.sendPending_farewells,if_pos rfl] at fewer
    obtain ⟨row,listed,sent,rfl⟩ := discarded fewer
    obtain ⟨told,built,all⟩ := telling.marked row listed (by simpa using sent)
    obtain ⟨answer,processed,recent⟩ := receipted told built
    exact ⟨answer,processed,all answer (List.mem_append_left _ processed) recent⟩

theorem step_processed (telling : Telling endpoint s) (receipted : s.Receipted endpoint a)
    (moved : s.step client endpoint a = some next) : Processed endpoint s next := by
  cases a with
  | remove ev =>
    obtain rfl := Option.some.inj moved
    obtain ⟨new,-,appended⟩ := Database.removeAuthorization_farewells receipted
    have grown : (s.remove endpoint ev).database.removed endpoint =
        s.database.removed endpoint ++ new.map DeleteRow.entry := by
      rw [Database.removed_eq,Database.removed_eq,← List.map_append,← appended]
      rfl
    intro entry fewer
    rw [grown,List.count_append] at fewer
    omega
  | register | offline | logout | loseRequest _ | loseAnswer _ =>
    obtain rfl := Option.some.inj moved
    exact processed_same rfl
  | login _ | hourly | changeRoster _ =>
    simp only [step] at moved
    split at moved
    · obtain rfl := Option.some.inj moved
      exact processed_same rfl
    · contradiction
  | serve request =>
    simp only [step] at moved
    split at moved
    · obtain rfl := Option.some.inj moved
      exact @serve_processed client endpoint { s with requests := s.requests.erase request }
        (telling.frame rfl rfl rfl fun _ member => member) request receipted
    · contradiction
  | other request client target =>
    simp only [step] at moved
    split at moved
    · contradiction
    · rename_i apart
      apply processed_same
      cases request with
      | roster =>
        obtain rfl := Option.some.inj moved
        rw [Database.removed_eq,Database.sendRoster_farewells,if_neg apart,Database.removed_eq]
      | pending =>
        obtain rfl := Option.some.inj moved
        rw [Database.removed_eq,Database.sendPending_farewells,if_neg apart,Database.removed_eq]

structure Start (endpoint : Int) (s : Removal) : Prop where
  silent : s.heard = []
  unsent : ∀ row ∈ s.database.farewells endpoint, row.delstatus ≠ 1

/-- In every run in which the requests for pending messages are receipts, and which leaves
the device's own account alone, a notice is discarded only after the device has processed an
answer with it. -/
theorem discarded_processed (client : Event) (endpoint : Int) (s : Removal) (trace final)
    (start : s.Start endpoint) (run : Removal.Run client endpoint s trace final)
    (receipted : ∀ edge ∈ trace, edge.source.Receipted endpoint edge.action) :
    ∀ edge ∈ trace, Processed endpoint edge.source edge.target := by
  intro edge member
  obtain ⟨before,front,reached⟩ := run.edge_reached edge member
  have initial : Telling endpoint s := by
    refine ⟨?_,?_,fun row listed sent => absurd sent (start.unsent row listed)⟩
    · simp [start.silent]
    · simp [start.silent]
  have telling : Telling endpoint edge.source := reached.invariant_of (Telling endpoint)
    (Receipted endpoint) (fun _ _ _ telling receipted moved => step_telling telling receipted moved) initial
    fun earlier member => receipted earlier (front.subset member)
  exact step_processed telling (receipted edge member) (run.edge_step edge member)

instance (t : Tables) (auth : UString) (endpoint : Int) : Decidable (t.OwnDevice auth endpoint) :=
  inferInstanceAs (Decidable (∃ row ∈ t.endpoints.rows, row.endpoint = endpoint ∧
    ∃ extension ∈ t.extensions.rows, extension.extnbr = row.extnbr ∧ extension.authname = auth))

instance (endpoint : Int) (s : Removal) : ∀ a, Decidable (s.Receipted endpoint a)
  | .remove _ => inferInstanceAs (Decidable (¬_))
  | .serve .pending =>
    inferInstanceAs (Decidable (∀ told ∈ s.told, ∃ answer ∈ s.device.processed, told ≤ answer.removals))
  | .serve .roster | .register | .offline | .logout | .login _ | .hourly | .changeRoster _
  | .loseRequest _ | .loseAnswer _ | .other .. => isTrue trivial

end Removal

namespace Site

def pair : Database where
  tables := { tables with
    authorize := users
    admin := [{ authname := "system", extnbr := 102 }] }

def deauthorize : Event :=
  { request "X-DEAUTHORIZE" with number := 102, toUser := some "test2", toLocal := true }

def rosterOf (d : Database) (removals : Nat) : RosterAnswer := ⟨d.roster (request "X-ROSTER") 2,removals⟩

def removed : Database := Authorize.removeAuthorization pair deauthorize

def listening : Removal := { database := pair, device := { user := "test1" } }

end Site

namespace Removal

theorem start_listening : Site.listening.Start 2 := ⟨rfl,by decide⟩

def informed : List Action := [.register,.login .roster,.remove Site.deauthorize,.serve .roster,
  .changeRoster (Site.rosterOf Site.removed 1),.serve .pending]

theorem discarded_processed_informed : ∃ trace final,
    Removal.Run (Site.request "X-ROSTER") 2 Site.listening trace final ∧ final.database.removed 2 = [] ∧
    ∀ edge ∈ trace, Processed 2 edge.source edge.target := by
  have done : (Transition.execute (Transition.guarded (fun s a => decide (Receipted 2 s a))
      (step (Site.request "X-ROSTER") 2)) informed Site.listening).map (fun s => s.database.removed 2) =
        some [] := by
    decide +kernel
  obtain ⟨final,executed,empty⟩ := Option.map_eq_some_iff.mp done
  obtain ⟨trace,run,-⟩ := Transition.execute_run _ _ _ executed
  obtain ⟨run,receipted⟩ := run.of_guarded
  exact ⟨trace,final,run,empty,discarded_processed _ 2 _ trace final start_listening run
    fun edge member => of_decide_eq_true (receipted edge member)⟩

/-- The account is removed while the answer to the first request is on its way. The answer
to the hourly request is lost, and the device logs in again. -/
def uninformed : List Action := [.register,.login .roster,.serve .roster,.remove Site.deauthorize,
  .register,.changeRoster (Site.rosterOf Site.pair 0),.serve .pending,.hourly,.serve .roster,
  .loseAnswer (Site.rosterOf Site.removed 1),.offline,.register,.login .pending]

theorem notice_lost : ¬∀ (client : Event) (endpoint : Int) (s : Removal) (trace final),
    s.Start endpoint → Removal.Run client endpoint s trace final →
    ∀ edge ∈ trace, Processed endpoint edge.source edge.target := by
  intro processed
  have lost : (Transition.execute (step (Site.request "X-ROSTER") 2) uninformed Site.listening).map (fun s =>
      (s.database.removed 2,s.device.processed.all fun answer => .remove (UString.ascii "test2") 0 ∉ answer.list,
        (s.step (Site.request "X-ROSTER") 2 (.serve .pending)).map fun next => next.database.removed 2)) =
      some ([.remove (UString.ascii "test2") 0],true,some []) := by
    decide +kernel
  obtain ⟨s,executed,facts⟩ := Option.map_eq_some_iff.mp lost
  obtain ⟨here,facts⟩ := Prod.mk.inj facts
  obtain ⟨unheard,there⟩ := Prod.mk.inj facts
  obtain ⟨next,moved,gone⟩ := Option.map_eq_some_iff.mp there
  obtain ⟨trace,run,-⟩ := Transition.execute_run _ _ _ executed
  obtain ⟨answer,member,told⟩ := processed _ 2 _ _ next start_listening (.next run moved)
    ⟨s,.serve .pending,next⟩ (by simp) (.remove (UString.ascii "test2") 0) (by simp [here,gone])
  exact absurd told (of_decide_eq_true (List.all_eq_true.mp unheard answer member))

end Removal

end SipWitch
