import SipWitch.Eviction
import SipWitch.Gate
import SipWitch.History
import SipWitch.Profile

/-! A user is suspended while its devices register. The authorize slots run on the
database thread when the database is a file, and on a thread of their own otherwise; a
slot posts its signals one by one, so that between the tables a slot has read or changed
and a signal of it the other threads may run. -/
namespace SipWitch

open Database Tables Registries

def Tables.Owned (t : Tables) (user : UString) (number : Int) : Prop :=
  ∃ row ∈ t.extensions, row.extnbr = number ∧ row.authname = user

def Tables.Known (t : Tables) (x : Identity) : Prop :=
  ∃ row ∈ t.endpoints, row.endpoint = x.endpoint ∧ row.key = (x.number,x.label)

def Tables.Suspended (t : Tables) (user : UString) : Prop :=
  ∀ row ∈ t.authorize, row.authname = user → row.authaccess = "SUSPEND"

namespace Database

variable {d d' : Database} {ev : Event} {user : UString}

def registering : Signal → Bool
  | .findEndpoint _ | .lastAccess .. | .changeAdmin .. => true
  | _ => false

/-- Whose access a change of access changes, and whether that is to suspend it. -/
def accessChange (d : Database) (ev : Event) : Option (UString × Bool) :=
  match d.found ev with
  | .error _ => none
  | .ok (_,account) =>
    if d.tables.isSysadmin ev.number && isUser account.authtype then
      (ev.header "x-suspend").map fun value => (account.authname,UString.toBool value)
    else none

/-- Extensions stay with their accounts and endpoints with their extensions. -/
structure Settled (t t' : Tables) : Prop where
  owned : ∀ user number, t'.Owned user number ↔ t.Owned user number
  known : ∀ x, t.Known x → t'.Known x

theorem settled_of {t t' : Tables} (extensions : t'.extensions = t.extensions)
    (endpoints : t'.endpoints = t.endpoints) : Settled t t' := by
  refine ⟨fun user number => ?_,fun x known => ?_⟩
  · rw [Tables.Owned,Tables.Owned,extensions]
  · rwa [Tables.Known,endpoints]

theorem Settled.refl (t : Tables) : Settled t t := settled_of rfl rfl

theorem Settled.trans {t t' t'' : Tables} (first : Settled t t') (second : Settled t' t'') :
    Settled t t'' :=
  ⟨fun user number => (second.owned user number).trans (first.owned user number),
    fun x known => second.known x (first.known x known)⟩

theorem owned_updateExtension {t : Tables} {number other : Int} {change : ExtensionRow → ExtensionRow}
    (same : ∀ row, (change row).extnbr = row.extnbr) (kept : ∀ row, (change row).authname = row.authname) :
    (t.updateExtension number change same).Owned user other ↔ t.Owned user other := by
  have fields (row : ExtensionRow) :
      (if row.extnbr = number then change row else row).extnbr = row.extnbr ∧
      (if row.extnbr = number then change row else row).authname = row.authname := by
    split
    · exact ⟨same row,kept row⟩
    · exact ⟨rfl,rfl⟩
  constructor
  · rintro ⟨_,member,numbered,named⟩
    obtain ⟨row,known,rfl⟩ := mem_updateExtension.mp member
    exact ⟨row,known,(fields row).1 ▸ numbered,(fields row).2 ▸ named⟩
  · rintro ⟨row,known,numbered,named⟩
    refine ⟨_,mem_updateExtension.mpr ⟨row,known,rfl⟩,?_,?_⟩
    · exact (fields row).1.trans numbered
    · exact (fields row).2.trans named

theorem sendProfile_settled (d : Database) (ev : Event) (authuser : UString) (endpoint : Int) :
    Settled d.tables (d.sendProfile ev authuser endpoint).tables := by
  have endpoints := (History.sendProfile_boxes d ev authuser endpoint).1.endpoints
  refine ⟨fun user number => ?_,fun x known => by rwa [Tables.Known,endpoints]⟩
  rcases sendProfile_cases d ev authuser endpoint with
    ⟨-,code,-,replied⟩ | ⟨-,-,document,shown⟩ | ⟨-,-,_,_,-,⟨updated⟩⟩
  · rw [replied]
    rfl
  · rw [shown]
    rfl
  · rw [updated.tables]
    apply owned_updateExtension
    · exact fun _ => rfl
    · exact fun _ => rfl

theorem changedAccess_suspended {account : AuthorizeRow} {wanted access : UString}
    (suspended : account.authaccess = "SUSPEND") (changed : changedAccess account wanted = some access) :
    access = "SUSPEND" := by
  simp only [changedAccess,suspended] at changed
  split at changed
  · rename_i asked
    exact absurd asked.2 (by decide)
  split at changed
  · rename_i asked
    exact absurd asked.2 (by decide)
  split at changed
  · exact (Option.some.inj changed).symm
  · contradiction

theorem suspended_updateAuthorize {t : Tables} {name : UString} {change : AuthorizeRow → AuthorizeRow}
    (same : ∀ row, (change row).authname = row.authname) (suspended : name ≠ user → t.Suspended user)
    (kept : name = user → ∀ row, (change row).authaccess = "SUSPEND") :
    (t.updateAuthorize name change same).Suspended user := by
  intro row member named
  obtain ⟨old,known,rfl⟩ := mem_updateAuthorize.mp member
  split
  · rename_i here
    rw [if_pos here,same] at named
    exact kept (here.symm.trans named) old
  · rename_i here
    rw [if_neg here] at named
    exact suspended (fun same => here (named.trans same.symm)) old known named

/-- No body of a profile lifts a suspension. -/
theorem sendProfile_suspended (suspended : d.tables.Suspended user) (authuser : UString)
    (endpoint : Int) : (d.sendProfile ev authuser endpoint).tables.Suspended user := by
  simp only [sendProfile]
  split
  · exact suspended
  split
  · exact suspended
  rename_i extension account joined
  have stored := (account?_eq_some.mp (profile?_some joined).2).1
  split
  · exact suspended
  simp only [updateProfile]
  split
  · exact suspended
  split
  · exact suspended
  split
  · exact suspended
  rename_i access changed
  have extended (d' : Database) (same : d'.tables = d.tables) (display : UString) :
      (d'.runQuery (·.updateExtension extension.extnbr (fun row => { row with display })
        fun _ => rfl)).tables.Suspended user := by
    rw [runQuery_tables,same]
    exact suspended
  apply suspended_updateAuthorize
  · exact fun _ => rfl
  · refine fun _ => extended _ ?_ _
    split <;> rfl
  · exact fun here _ => changedAccess_suspended (suspended account stored here) changed

theorem changeSystem_settled (d : Database) (ev : Event) :
    Settled d.tables (d.changeSystem ev).tables := by
  obtain ⟨admin,same⟩ := changeSystem_frame d ev
  rw [same]
  exact settled_of rfl rfl

theorem changeSystem_suspended (suspended : d.tables.Suspended user) :
    (d.changeSystem ev).tables.Suspended user := by
  obtain ⟨admin,same⟩ := changeSystem_frame d ev
  rw [same]
  exact suspended

theorem changeSuspend_settled (d : Database) (ev : Event) (authuser : UString) (endpoint : Int)
    (account : AuthorizeRow) (suspend : Bool) :
    Settled d.tables (d.changeSuspend ev authuser endpoint account suspend).tables := by
  have granted (access : UString) : Settled d.tables (d.runQuery (·.updateAuthorize account.authname
      (fun row => { row with authaccess := access }) fun _ => rfl)).tables :=
    settled_of rfl rfl
  cases suspend with
  | true => exact (granted "SUSPEND").trans (sendProfile_settled _ ev authuser endpoint)
  | false => exact (granted "LOCAL").trans (sendProfile_settled _ ev authuser endpoint)

theorem changeSuspend_suspended (suspended : d.tables.Suspended user) (authuser : UString)
    (endpoint : Int) (account : AuthorizeRow) (suspend : Bool)
    (kept : account.authname = user → suspend = true) :
    (d.changeSuspend ev authuser endpoint account suspend).tables.Suspended user := by
  have granted (access : UString) (here : account.authname = user → access = "SUSPEND") :
      (d.runQuery (·.updateAuthorize account.authname
        (fun row => { row with authaccess := access }) fun _ => rfl)).tables.Suspended user := by
    apply suspended_updateAuthorize
    · exact fun _ => rfl
    · exact fun _ => suspended
    · exact fun same _ => here same
  cases suspend with
  | true => exact sendProfile_suspended (granted "SUSPEND" fun _ => rfl) authuser endpoint
  | false =>
    refine sendProfile_suspended (granted "LOCAL" fun same => ?_) authuser endpoint
    exact absurd (kept same) Bool.false_ne_true

/-- A suspension is written before it drops the endpoints of the user's extensions. -/
theorem changeSuspend_suspends (d : Database) (ev : Event) (authuser : UString) (endpoint : Int)
    (account : AuthorizeRow) :
    let d' := d.changeSuspend ev authuser endpoint account true
    d'.tables.Suspended account.authname ∧ ∀ row ∈ d'.tables.endpoints,
      d'.tables.Owned account.authname row.extnbr → .dropEndpoint row.endpoint ∈ d'.emitted := by
  have granted : (d.runQuery (·.updateAuthorize account.authname
      (fun row => { row with authaccess := "SUSPEND" }) fun _ => rfl)).tables.Suspended
        account.authname := by
    apply suspended_updateAuthorize
    · exact fun _ => rfl
    · exact fun other => absurd rfl other
    · exact fun _ _ => rfl
  refine ⟨sendProfile_suspended granted authuser endpoint,fun row member owned => ?_⟩
  obtain ⟨extension,known,numbered,named⟩ := owned
  refine List.mem_append_right _ (List.mem_map.mpr ⟨row,?_,rfl⟩)
  refine Serial.mem_select.mpr ⟨member,List.any_eq_true.mpr ⟨extension,known,?_⟩⟩
  simp [numbered,named]

theorem changeAdmin_settled (d : Database) (ev : Event) (authuser : UString) (endpoint : Int) :
    Settled d.tables (d.changeAdmin ev authuser endpoint).tables := by
  have system := changeSystem_settled d ev
  rw [changeAdmin_eq]
  split
  · exact Settled.refl d.tables
  split
  · exact Settled.refl d.tables
  split
  · exact system.trans (sendProfile_settled _ ev authuser endpoint)
  split
  · exact system
  · exact system.trans (changeSuspend_settled _ ev authuser endpoint _ _)

/-- An accepted change of access comes to `changeSuspend`. -/
theorem changeAdmin_access (change : d.accessChange ev = some (user,suspend)) (authuser : UString)
    (endpoint : Int) : ∃ account, account.authname = user ∧
      d.changeAdmin ev authuser endpoint =
        (d.changeSystem ev).changeSuspend ev authuser endpoint account suspend := by
  simp only [accessChange] at change
  split at change
  · contradiction
  rename_i extension account found
  split at change
  · rename_i allowed
    obtain ⟨sysadmin,kind⟩ := Bool.and_eq_true_iff.mp allowed
    obtain ⟨value,named,same⟩ := Option.map_eq_some_iff.mp change
    obtain ⟨rfl,rfl⟩ := Prod.mk.inj same
    refine ⟨account,rfl,?_⟩
    simp only [changeAdmin_eq,found,named]
    rw [if_neg (by simp [sysadmin]),if_neg (by simp [kind])]
  · contradiction

theorem changeAdmin_suspended (suspended : d.tables.Suspended user) (authuser : UString)
    (endpoint : Int) (kept : d.accessChange ev ≠ some (user,false)) :
    (d.changeAdmin ev authuser endpoint).tables.Suspended user := by
  have system : (d.changeSystem ev).tables.Suspended user := changeSystem_suspended suspended
  cases change : d.accessChange ev with
  | some access =>
    obtain ⟨name,suspend⟩ := access
    obtain ⟨account,rfl,changed⟩ := changeAdmin_access change authuser endpoint
    rw [changed]
    refine changeSuspend_suspended system authuser endpoint account suspend fun here => ?_
    by_contra lifted
    rw [change,here,Bool.eq_false_iff.mpr lifted] at kept
    exact kept rfl
  | none =>
    rw [changeAdmin_eq]
    split
    · exact suspended
    rename_i extension account found
    split
    · exact suspended
    rename_i sysadmin
    split
    · exact sendProfile_suspended system authuser endpoint
    rename_i value named
    split
    · exact system
    · rename_i kind
      simp only [accessChange,found,named] at change
      rw [if_pos (by simpa using And.intro sysadmin kind)] at change
      contradiction

end Database

/-- The server, with what the last slot of each database thread has still to post. -/
structure Threads where
  server : Server := {}
  /-- The authorize slots run on the database thread. -/
  shared : Bool
  looked : List Notice := []
  changed : List Notice := []

namespace Threads

inductive Action where
  | pass (ms : Nat)
  | receive (ev : Event)
  | manage (fresh : Nonce)
  | cleanup
  | authorize
  | database
  | postLooked
  | postChanged

variable (hash : HashFunction) (t : Threads)

def tables : Tables := t.server.database.tables

def registries : Registries := t.server.manager.registries

/-- The manager and the contexts run on threads of their own. -/
def outer (a : SipWitch.Action) : Option Threads :=
  (t.server.step hash a).map fun server => { t with server }

def ran (d : Database) : Server := { t.server with
  database := { d with emitted := [] }
  manager := { t.server.manager with rosterSequence := d.rosterSequence } }

def post (notice : Notice) : Server := { t.server with inbox := t.server.inbox ++ [.notice notice] }

/-- A thread starts a slot when its last one has posted all signals. -/
def step : Action → Option Threads
  | .pass ms => t.outer hash (.pass ms)
  | .receive ev => t.outer hash (.receive ev)
  | .manage fresh => t.outer hash (.manage fresh)
  | .cleanup => t.outer hash .cleanup
  | .authorize =>
    match t.server.lookups with
    | [] => none
    | signal :: rest =>
      if t.looked ≠ [] ∨ (t.shared ∧ t.changed ≠ []) then none
      else
        let d := t.server.database.handle signal
        some { t with server := { t.ran d with lookups := rest }, looked := d.emitted }
  | .database =>
    match t.server.requests with
    | [] => none
    | signal :: rest =>
      if t.changed ≠ [] ∨ (t.shared ∧ t.looked ≠ []) then none
      else
        let d := t.server.database.handle signal
        some { t with server := { t.ran d with requests := rest }, changed := d.emitted }
  | .postLooked =>
    match t.looked with
    | [] => none
    | notice :: rest => some { t with server := t.post notice, looked := rest }
  | .postChanged =>
    match t.changed with
    | [] => none
    | notice :: rest => some { t with server := t.post notice, changed := rest }

abbrev Run (hash : HashFunction) := Transition.Run (step hash)

def taken : Action → Option Signal
  | .authorize => t.server.lookups.head?
  | .database => t.server.requests.head?
  | _ => none

def making : Action → Option Identity
  | .manage _ => t.server.inbox.head?.bind Slot.makes
  | _ => none

/-- Registration and the changes of access, and nothing else, on the database threads. -/
def Registering (a : Action) : Prop := ∀ signal, t.taken a = some signal →
  Database.registering signal = true

def change : Action → Option (UString × Bool)
  | .database =>
    match t.server.requests with
    | .changeAdmin ev _ _ :: _ => t.server.database.accessChange ev
    | _ => none
  | _ => none

def Changes (user : UString) (suspend : Bool) (a : Action) : Prop := t.change a = some (user,suspend)

/-- The step makes no record of the user for an endpoint that has a live one. -/
def Single (user : UString) (a : Action) : Prop :=
  ∀ x, t.making a = some x → t.tables.Owned user x.number →
    Index.Vacant t.registries.heap Registry.endpointId x.endpoint

/-- No lookup has still to post a record of the user. -/
def Posted (user : UString) : Prop :=
  ∀ notice ∈ t.looked, ∀ x, (Slot.notice notice).makes = some x → ¬t.tables.Owned user x.number

end Threads

namespace Registries

variable {T T' : Tables} {owned : Int → Prop} {t : Registries} {hash : HashFunction} {m : Manager}

/-- Live records have endpoints of their number and label, and each record of the user
is the one that the table of endpoints leads to. -/
structure Tracks (T : Tables) (owned : Int → Prop) (t : Registries) : Prop where
  linked : Linked t
  known : ∀ a reg, t.heap.lookup a = some reg → T.Known reg.identity
  single : ∀ a reg, t.heap.lookup a = some reg → owned reg.number →
    t.endpoints.lookup reg.endpointId = some a

theorem known_number {x y : Identity} (first : T.Known x) (second : T.Known y)
    (same : x.endpoint = y.endpoint) : x.number = y.number := by
  obtain ⟨row,member,numbered,key⟩ := first
  obtain ⟨other,stored,named,key'⟩ := second
  obtain rfl := Serial.unique_id member stored (numbered.trans (same.trans named.symm))
  exact congrArg Prod.fst (key.symm.trans key')

theorem tracks_stable (T : Tables) (owned : Int → Prop) : Stable (Tracks T owned) where
  delete t b tracks := by
    refine ⟨tracks.linked.delete b,fun a reg live => tracks.known a reg (live_of_delete live),?_⟩
    intro a reg live own
    have before := live_of_delete live
    have entry := tracks.single a reg before own
    cases gone : t.heap.lookup b with
    | none => rwa [delete_dead gone]
    | some other =>
      have apart : a ≠ b := by
        rintro rfl
        rw [lookup_delete,if_pos rfl] at live
        contradiction
      simp only [Registries.delete,gone]
      rw [Index.lookup_erase_cases,if_neg fun same => ?_]
      · exact entry
      · have number : reg.number = other.number :=
          known_number (tracks.known a reg before) (tracks.known b other gone) same
        have taken := tracks.single b other gone (number ▸ own)
        rw [← same,entry] at taken
        exact apart (Option.some.inj taken)
  write t b reg reg' live same tracks := by
    have identified : T.Known reg'.identity := by
      obtain ⟨row,member,numbered,key⟩ := tracks.known b reg live
      exact ⟨row,member,numbered.trans same.endpoint.symm,key.trans same.key.symm⟩
    refine ⟨tracks.linked.write live same,fun a other alive => ?_,fun a other alive own => ?_⟩
    all_goals
      simp only [Registries.write,Index.lookup_insert_cases] at alive
      split at alive
    · obtain rfl := Option.some.inj alive
      exact identified
    · exact tracks.known a other alive
    · rename_i here
      obtain rfl := Option.some.inj alive
      rw [here]
      exact same.endpoint ▸ tracks.single b reg live (same.number ▸ own)
    · exact tracks.single a other alive own

theorem Tracks.create (tracks : Tracks T owned t) (ep : EndpointInfo) (range : Int × Int) (now : Nat)
    (known : T.Known ep.identity)
    (single : owned ep.number → Index.Vacant t.heap Registry.endpointId ep.endpoint) :
    Tracks T owned (t.create ep range now).1 := by
  refine ⟨tracks.linked.create ep range now,fun a reg live => ?_,fun a reg live own => ?_⟩
  all_goals
    simp only [Registries.create,Index.lookup_insert_cases] at live ⊢
    split at live
  · obtain rfl := Option.some.inj live
    exact known
  · exact tracks.known a reg live
  · rename_i new
    obtain rfl := Option.some.inj live
    rw [new]
    exact if_pos rfl
  · rw [if_neg fun same => ?_]
    · exact tracks.single a reg live own
    · have number : reg.number = ep.number := known_number (tracks.known a reg live) known same
      exact single (number ▸ own) a reg live same

theorem Tracks.handle (tracks : Tracks T owned m.registries) (slot : Slot) (fresh : Nonce)
    (known : ∀ x, slot.makes = some x → T.Known x)
    (single : ∀ x, slot.makes = some x → owned x.number →
      Index.Vacant m.registries.heap Registry.endpointId x.endpoint) :
    Tracks T owned (m.handle hash slot fresh).registries := by
  have stable := tracks_stable T owned
  refine stable.kept.handle tracks slot fresh fun ev ep made => ?_
  subst made
  exact stable.createRegistration ev ep fresh
    (tracks.create ep _ _ (known _ rfl) (single _ rfl))

theorem Tracks.settled {user : UString} (tracks : Tracks T (T.Owned user) t) (settled : Settled T T') :
    Tracks T' (T'.Owned user) t :=
  ⟨tracks.linked,fun a reg live => settled.known _ (tracks.known a reg live),
    fun a reg live own => tracks.single a reg live ((settled.owned user reg.number).mp own)⟩

end Registries

namespace Database

variable {d : Database} {user : UString}

theorem lastAccess_known (d : Database) (endpoint timestamp : Int) (agent : UString)
    (deviceKey : List UInt8) (uri : UString) :
    Settled d.tables (d.lastAccess endpoint timestamp agent deviceKey uri).tables := by
  refine ⟨fun _ _ => Iff.rfl,fun x known => ?_⟩
  obtain ⟨row,member,numbered,key⟩ := known
  simp only [lastAccess,runQuery_tables]
  refine ⟨_,mem_updateEndpoint.mpr ⟨row,member,rfl⟩,?_⟩
  split <;> exact ⟨numbered,key⟩

theorem findEndpoint_settled (d : Database) (ev : Event) :
    Settled d.tables (Authorize.findEndpoint d ev).tables := by
  rcases Authorize.findEndpoint_tables d ev with same | ⟨extension,vacant,same⟩
  · rw [same]
    exact Settled.refl d.tables
  · obtain ⟨extensions,-⟩ := Authorize.insertEndpoint_accounts d.tables ev.number ev.label d.clock
    rw [same]
    refine ⟨fun user number => by rw [Tables.Owned,Tables.Owned,extensions],fun x known => ?_⟩
    obtain ⟨row,member,here⟩ := known
    exact ⟨row,(mem_insertEndpoint d.clock extension vacant row).mpr (.inl member),here⟩

theorem handle_settled (signal : Signal) (registers : registering signal = true) :
    Settled d.tables (d.handle signal).tables := by
  cases signal with
  | findEndpoint ev => exact findEndpoint_settled d ev
  | lastAccess endpoint timestamp agent deviceKey uri => exact lastAccess_known d _ _ _ _ _
  | changeAdmin ev authuser endpoint => exact changeAdmin_settled d ev authuser endpoint
  | _ => contradiction

/-- Only a change of access that restores the user lifts its suspension. -/
theorem handle_suspended (suspended : d.tables.Suspended user) (signal : Signal)
    (registers : registering signal = true)
    (kept : ∀ ev authuser endpoint, signal = .changeAdmin ev authuser endpoint →
      d.accessChange ev ≠ some (user,false)) : (d.handle signal).tables.Suspended user := by
  cases signal with
  | findEndpoint ev =>
    rw [Tables.Suspended,handle,findEndpoint_authorize]
    exact suspended
  | lastAccess endpoint timestamp agent deviceKey uri => exact suspended
  | changeAdmin ev authuser endpoint =>
    exact changeAdmin_suspended suspended authuser endpoint (kept ev authuser endpoint rfl)
  | _ => contradiction

/-- A lookup makes records for endpoints that are there, and none for a suspended user. -/
theorem findEndpoint_makes {ev : Event} (silent : d.emitted = []) {notice : Notice}
    (emitted : notice ∈ (Authorize.findEndpoint d ev).emitted) {x : Identity}
    (made : (Slot.notice notice).makes = some x) : (Authorize.findEndpoint d ev).tables.Known x ∧
      ∀ user, (Authorize.findEndpoint d ev).tables.Suspended user →
        ¬(Authorize.findEndpoint d ev).tables.Owned user x.number := by
  cases Authorize.findEndpoint_outcome d ev with
  | refused code wire quiet =>
    rw [quiet,silent] at emitted
    contradiction
  | found ep looked wire signalled =>
    rw [signalled,silent,List.nil_append,List.mem_singleton] at emitted
    subst emitted
    obtain rfl := Option.some.inj made
    refine ⟨?_,fun user suspended owned => ?_⟩
    · obtain ⟨row,member,endpoint,key⟩ := looked.endpoint
      refine ⟨row,member,endpoint,key.trans ?_⟩
      exact Prod.ext looked.number.symm looked.label.symm
    · obtain ⟨extension,known,numbered,named⟩ := looked.extension
      obtain ⟨account,stored,same,-,access⟩ := looked.account
      obtain ⟨other,listed,number,owner⟩ := owned
      have here : other.extnbr = extension.extnbr :=
        number.trans (looked.number.trans numbered.symm)
      obtain rfl := Table.unique listed known here
      exact access (suspended account stored (same.trans (named.symm.trans owner)))

/-- What a slot of registration makes. -/
theorem handle_makes (silent : d.emitted = []) (signal : Signal) (notice : Notice)
    (emitted : notice ∈ (d.handle signal).emitted) (x : Identity)
    (made : (Slot.notice notice).makes = some x) : (d.handle signal).tables.Known x ∧
      ∀ user, (d.handle signal).tables.Suspended user → ¬(d.handle signal).tables.Owned user x.number := by
  by_cases lookup : ∃ ev, signal = .findEndpoint ev
  · obtain ⟨ev,rfl⟩ := lookup
    exact findEndpoint_makes silent emitted made
  · have other : ∀ ev, signal ≠ .findEndpoint ev := fun ev here => lookup ⟨ev,here⟩
    rw [handle_makes_none silent signal other notice emitted] at made
    contradiction

end Database

namespace Threads

variable {hash : HashFunction} {t next : Threads} {user : UString} {a : Action}

theorem changes_some (changes : t.Changes user suspend a) : a = .database ∧
    ∃ ev authuser endpoint rest, t.server.requests = .changeAdmin ev authuser endpoint :: rest ∧
      t.server.database.accessChange ev = some (user,suspend) := by
  simp only [Changes,change] at changes
  split at changes
  · split at changes
    · rename_i ev authuser endpoint rest queue
      exact ⟨rfl,ev,authuser,endpoint,rest,queue,changes⟩
    · contradiction
  · contradiction

structure Sorted (lookups requests : List Signal) : Prop where
  lookups : ∀ signal ∈ lookups, signal.isLookup = true
  requests : ∀ signal ∈ requests, signal.isLookup = false

theorem Sorted.managed {s : Server} (sorted : Sorted s.lookups s.requests) (manager : Manager) :
    Sorted (s.managed manager).lookups (s.managed manager).requests := by
  refine ⟨fun signal member => ?_,fun signal member => ?_⟩
  · refine (List.mem_append.mp member).elim (sorted.lookups signal) fun new => ?_
    exact (List.mem_filter.mp new).2
  · refine (List.mem_append.mp member).elim (sorted.requests signal) fun new => ?_
    simpa using (List.mem_filter.mp new).2

structure Tracked (user : UString) (t : Threads) : Prop where
  registries : Tracks t.tables (t.tables.Owned user) t.registries
  queued : ∀ slot ∈ t.server.inbox, ∀ x, slot.makes = some x → t.tables.Known x
  looked : ∀ notice ∈ t.looked, ∀ x, (Slot.notice notice).makes = some x → t.tables.Known x
  changed : ∀ notice ∈ t.changed, (Slot.notice notice).makes = none
  sorted : Sorted t.server.lookups t.server.requests
  silent : t.server.database.emitted = []

theorem outer_some {action : SipWitch.Action} (moved : t.outer hash action = some next) :
    ∃ server, t.server.step hash action = some server ∧ next = { t with server } := by
  obtain ⟨server,stepped,rfl⟩ := Option.map_eq_some_iff.mp moved
  exact ⟨server,stepped,rfl⟩

theorem manage_some {fresh : Nonce} (moved : t.step hash (.manage fresh) = some next) :
    ∃ slot rest, t.server.inbox = slot :: rest ∧ next.server.inbox = rest ∧
      next.tables = t.tables ∧ next.registries = (t.server.manager.handle hash slot fresh).registries ∧
      next.looked = t.looked ∧ next.changed = t.changed ∧
      (Sorted t.server.lookups t.server.requests →
        Sorted next.server.lookups next.server.requests) ∧
      next.server.database = t.server.database := by
  obtain ⟨server,stepped,rfl⟩ := outer_some moved
  obtain ⟨slot,rest,queue,rfl⟩ := Server.manage_some stepped
  refine ⟨slot,rest,queue,rfl,rfl,rfl,rfl,rfl,fun sorted => ?_,rfl⟩
  exact Sorted.managed sorted _

theorem authorize_some (moved : t.step hash .authorize = some next) :
    ∃ signal rest, t.taken .authorize = some signal ∧ t.server.lookups = signal :: rest ∧
      t.looked = [] ∧
      next = { t with
        server := { t.ran (t.server.database.handle signal) with lookups := rest }
        looked := (t.server.database.handle signal).emitted } := by
  simp only [step] at moved
  split at moved
  · contradiction
  · rename_i signal rest waiting
    split at moved
    · contradiction
    · rename_i idle
      obtain rfl := Option.some.inj moved
      refine ⟨signal,rest,by simp [taken,waiting],waiting,?_,rfl⟩
      by_contra busy
      exact idle (.inl busy)

theorem database_some (moved : t.step hash .database = some next) :
    ∃ signal rest, t.taken .database = some signal ∧ t.server.requests = signal :: rest ∧
      t.changed = [] ∧
      next = { t with
        server := { t.ran (t.server.database.handle signal) with requests := rest }
        changed := (t.server.database.handle signal).emitted } := by
  simp only [step] at moved
  split at moved
  · contradiction
  · rename_i signal rest waiting
    split at moved
    · contradiction
    · rename_i idle
      obtain rfl := Option.some.inj moved
      refine ⟨signal,rest,by simp [taken,waiting],waiting,?_,rfl⟩
      by_contra busy
      exact idle (.inl busy)

theorem postLooked_some (moved : t.step hash .postLooked = some next) :
    ∃ notice rest, t.looked = notice :: rest ∧
      next = { t with server := t.post notice, looked := rest } := by
  simp only [step] at moved
  split at moved
  · contradiction
  · rename_i notice rest waiting
    obtain rfl := Option.some.inj moved
    exact ⟨notice,rest,waiting,rfl⟩

theorem postChanged_some (moved : t.step hash .postChanged = some next) :
    ∃ notice rest, t.changed = notice :: rest ∧
      next = { t with server := t.post notice, changed := rest } := by
  simp only [step] at moved
  split at moved
  · contradiction
  · rename_i notice rest waiting
    obtain rfl := Option.some.inj moved
    exact ⟨notice,rest,waiting,rfl⟩

theorem Tracked.manage {fresh : Nonce} (tracked : t.Tracked user)
    (single : ∀ x, t.making (.manage fresh) = some x → t.tables.Owned user x.number →
      Index.Vacant t.registries.heap Registry.endpointId x.endpoint)
    (moved : t.step hash (.manage fresh) = some next) : next.Tracked user := by
  obtain ⟨slot,rest,queue,inbox,tables,registries,looked,changed,sorted,database⟩ := manage_some moved
  have here : slot ∈ t.server.inbox := queue ▸ List.mem_cons_self
  refine ⟨?_,?_,?_,changed ▸ tracked.changed,sorted tracked.sorted,database ▸ tracked.silent⟩
  · rw [tables,registries]
    refine tracked.registries.handle slot fresh (tracked.queued slot here) fun x made => ?_
    exact single x (by simp [making,queue,made])
  · rw [tables,inbox]
    exact fun other member => tracked.queued other (queue ▸ List.mem_cons_of_mem _ member)
  · rw [tables,looked]
    exact tracked.looked

theorem Tracked.authorize (tracked : t.Tracked user) (registers : t.Registering .authorize)
    (moved : t.step hash .authorize = some next) : next.Tracked user := by
  obtain ⟨signal,rest,taken,queue,idle,rfl⟩ := authorize_some moved
  have settled : Settled t.tables (t.server.database.handle signal).tables :=
    Database.handle_settled signal (registers signal taken)
  refine ⟨tracked.registries.settled settled,?_,?_,tracked.changed,⟨?_,tracked.sorted.requests⟩,rfl⟩
  · exact fun slot queued x made => settled.known x (tracked.queued slot queued x made)
  · exact fun notice emitted x made => (Database.handle_makes tracked.silent signal
      notice emitted x made).1
  · exact fun other member => tracked.sorted.lookups other (queue ▸ List.mem_cons_of_mem _ member)

theorem Tracked.database (tracked : t.Tracked user) (registers : t.Registering .database)
    (moved : t.step hash .database = some next) : next.Tracked user := by
  obtain ⟨signal,rest,taken,queue,idle,rfl⟩ := database_some moved
  have settled : Settled t.tables (t.server.database.handle signal).tables :=
    Database.handle_settled signal (registers signal taken)
  refine ⟨tracked.registries.settled settled,?_,?_,?_,⟨tracked.sorted.lookups,?_⟩,rfl⟩
  · exact fun slot queued x made => settled.known x (tracked.queued slot queued x made)
  · exact fun notice held x made => settled.known x (tracked.looked notice held x made)
  · refine Database.handle_makes_none tracked.silent signal ?_
    rintro ev rfl
    exact absurd (tracked.sorted.requests _ (queue ▸ List.mem_cons_self)) (by simp [Signal.isLookup])
  · exact fun other member => tracked.sorted.requests other (queue ▸ List.mem_cons_of_mem _ member)

/-- A slot whose record is known joins the queue. -/
theorem Tracked.queue (tracked : t.Tracked user) {slot : Slot}
    (known : ∀ x, slot.makes = some x → t.tables.Known x) :
    ∀ other ∈ t.server.inbox ++ [slot], ∀ x, other.makes = some x → t.tables.Known x := by
  intro other queued
  rcases List.mem_append.mp queued with before | new
  · exact tracked.queued other before
  · obtain rfl := List.mem_singleton.mp new
    exact known

theorem step_tracked (tracked : t.Tracked user) (registers : t.Registering a)
    (single : ∀ x, t.making a = some x → t.tables.Owned user x.number →
      Index.Vacant t.registries.heap Registry.endpointId x.endpoint)
    (moved : t.step hash a = some next) : next.Tracked user := by
  cases a with
  | pass ms =>
    obtain ⟨server,stepped,rfl⟩ := outer_some moved
    cases stepped
    exact ⟨tracked.registries,tracked.queued,tracked.looked,tracked.changed,
      tracked.sorted,tracked.silent⟩
  | cleanup =>
    obtain ⟨server,stepped,rfl⟩ := outer_some moved
    cases stepped
    have stable := tracks_stable t.tables (t.tables.Owned user)
    have kept : Manager.Kept hash fun m => Tracks t.tables (t.tables.Owned user) m.registries :=
      stable.kept
    exact ⟨kept.cleanup tracked.registries,tracked.queued,tracked.looked,tracked.changed,
      tracked.sorted,tracked.silent⟩
  | receive ev =>
    obtain ⟨server,stepped,rfl⟩ := outer_some moved
    cases stepped
    refine ⟨tracked.registries,fun slot queued x made => ?_,tracked.looked,tracked.changed,
      tracked.sorted,tracked.silent⟩
    rcases List.mem_append.mp queued with before | new
    · exact tracked.queued slot before x made
    · rw [Context.process_makes (Option.mem_toList.mp new)] at made
      contradiction
  | manage fresh => exact tracked.manage single moved
  | authorize => exact tracked.authorize registers moved
  | database => exact tracked.database registers moved
  | postLooked =>
    obtain ⟨notice,rest,held,rfl⟩ := postLooked_some moved
    have known := tracked.looked notice (held ▸ List.mem_cons_self)
    exact ⟨tracked.registries,tracked.queue known,
      fun other later => tracked.looked other (held ▸ List.mem_cons_of_mem _ later),tracked.changed,
      tracked.sorted,tracked.silent⟩
  | postChanged =>
    obtain ⟨notice,rest,held,rfl⟩ := postChanged_some moved
    have none := tracked.changed notice (held ▸ List.mem_cons_self)
    refine ⟨tracked.registries,tracked.queue fun x made => ?_,tracked.looked,
      fun other later => tracked.changed other (held ▸ List.mem_cons_of_mem _ later),
      tracked.sorted,tracked.silent⟩
    rw [none] at made
    contradiction

def pending (t : Threads) : List Slot := t.server.inbox ++ t.changed.map .notice

/-- The user is suspended, and the slots of `due` drop the records it has still. -/
structure Draining (user : UString) (due : List Slot) (t : Threads) : Prop where
  clearing : Inflight.Clearing Slot.makes Slot.drops Identity.endpoint t.registries.Holds
    (fun x => t.tables.Owned user x.number) due t.pending
  looked : ∀ notice ∈ t.looked, ∀ x, (Slot.notice notice).makes = some x →
    ¬t.tables.Owned user x.number
  suspended : t.tables.Suspended user

def Action.deliveries : Action → Nat
  | .manage _ => 1
  | _ => 0

/-- A lookup finds the user suspended. -/
theorem Draining.authorize {due : List Slot} (draining : t.Draining user due) (tracked : t.Tracked user)
    (registers : t.Registering .authorize) (moved : t.step hash .authorize = some next) :
    next.Draining user due ∧ next.server.inbox = t.server.inbox := by
  obtain ⟨clearing,looked,suspended⟩ := draining
  obtain ⟨signal,rest,taken,queue,idle,rfl⟩ := authorize_some moved
  have settled : Settled t.tables (t.server.database.handle signal).tables :=
    Database.handle_settled signal (registers signal taken)
  have still : (t.server.database.handle signal).tables.Suspended user := by
    refine Database.handle_suspended suspended signal (registers signal taken) ?_
    rintro ev authuser endpoint rfl
    exact absurd (tracked.sorted.lookups _ (queue ▸ List.mem_cons_self)) (by simp [Signal.isLookup])
  refine ⟨⟨?_,fun notice emitted x made => ?_,still⟩,rfl⟩
  · exact clearing.condemn fun x => (settled.owned user x.number).mp
  · exact (Database.handle_makes tracked.silent signal notice emitted x made).2 user still

/-- What the database emits makes no records. -/
theorem Draining.database {due : List Slot} (draining : t.Draining user due) (tracked : t.Tracked user)
    (registers : t.Registering .database) (kept : ¬t.Changes user false .database)
    (moved : t.step hash .database = some next) :
    next.Draining user due ∧ next.server.inbox = t.server.inbox := by
  obtain ⟨clearing,looked,suspended⟩ := draining
  obtain ⟨signal,rest,taken,queue,idle,rfl⟩ := database_some moved
  have settled : Settled t.tables (t.server.database.handle signal).tables :=
    Database.handle_settled signal (registers signal taken)
  have still : (t.server.database.handle signal).tables.Suspended user := by
    refine Database.handle_suspended suspended signal (registers signal taken) ?_
    rintro ev authuser endpoint rfl lifted
    exact kept (by simp only [Changes,change,queue,lifted])
  have other : ∀ ev, signal ≠ .findEndpoint ev := by
    rintro ev rfl
    exact absurd (tracked.sorted.requests _ (queue ▸ List.mem_cons_self)) (by simp [Signal.isLookup])
  refine ⟨⟨?_,fun notice held x made => ?_,still⟩,rfl⟩
  · have clearing := clearing.condemn fun x => (settled.owned user x.number).mp
    rw [pending,idle,List.map_nil,List.append_nil] at clearing
    refine clearing.append fun slot member x made => ?_
    obtain ⟨notice,emitted,rfl⟩ := List.mem_map.mp member
    rw [Database.handle_makes_none tracked.silent signal other notice emitted] at made
    contradiction
  · exact fun owned => looked notice held x made ((settled.owned user x.number).mp owned)

/-- One slot less is due, and one less is queued. -/
theorem Draining.manage {due : List Slot} {fresh : Nonce} (draining : t.Draining user due)
    (tracked : t.Tracked user) (moved : t.step hash (.manage fresh) = some next) :
    next.Draining user due.tail ∧ t.server.inbox.length = next.server.inbox.length + 1 := by
  obtain ⟨clearing,looked,suspended⟩ := draining
  obtain ⟨slot,rest,queue,inbox,tables,registries,held,changed,-,-⟩ := manage_some moved
  refine ⟨⟨?_,?_,?_⟩,by rw [queue,inbox,List.length_cons]⟩
  · rw [pending,queue,List.cons_append] at clearing
    rw [pending,inbox,changed,tables,registries]
    exact clearing.deliver fun x holds => Manager.handle_holds tracked.registries.linked slot fresh holds
  · rw [held,tables]
    exact looked
  · rw [tables]
    exact suspended

theorem step_draining {due : List Slot} (draining : t.Draining user due) (tracked : t.Tracked user)
    (registers : t.Registering a) (kept : ¬t.Changes user false a)
    (moved : t.step hash a = some next) :
    ∃ due', next.Draining user due' ∧ (due.length ≤ t.server.inbox.length →
      due'.length ≤ next.server.inbox.length ∧ due'.length ≤ due.length - a.deliveries) := by
  obtain ⟨clearing,looked,suspended⟩ := id draining
  cases a with
  | pass ms =>
    obtain ⟨server,stepped,rfl⟩ := outer_some moved
    cases stepped
    exact ⟨due,⟨clearing,looked,suspended⟩,fun short => ⟨short,Nat.le_refl _⟩⟩
  | cleanup =>
    obtain ⟨server,stepped,rfl⟩ := outer_some moved
    cases stepped
    have fewer : Manager.Kept hash fun m => ∀ x, m.registries.Holds x → t.registries.Holds x :=
      Manager.held_kept t.registries.Holds
    have cleaned := fewer.cleanup (m := t.server.manager) fun _ holds => holds
    exact ⟨due,⟨clearing.mono cleaned,looked,suspended⟩,fun short => ⟨short,Nat.le_refl _⟩⟩
  | receive ev =>
    obtain ⟨server,stepped,rfl⟩ := outer_some moved
    cases stepped
    cases received : (Context.process ev).2 with
    | none =>
      have same : (t.server.receive ev).inbox = t.server.inbox := by
        simp [Server.receive,received]
      refine ⟨due,⟨?_,looked,suspended⟩,fun short => ⟨same ▸ short,Nat.le_refl _⟩⟩
      rw [pending,same]
      exact clearing
    | some slot =>
      have same : (t.server.receive ev).inbox = t.server.inbox ++ [slot] := by
        simp [Server.receive,received]
      obtain ⟨due',inserted,length⟩ := clearing.insert (m := slot) fun x made => by
        rw [Context.process_makes received] at made
        contradiction
      refine ⟨due',⟨?_,looked,suspended⟩,fun short => ?_⟩
      · rw [pending,same,List.append_assoc]
        exact inserted
      · have := length short
        rw [same,List.length_append]
        exact ⟨by omega,Nat.le_of_eq this⟩
  | manage fresh =>
    obtain ⟨left,queue⟩ := draining.manage tracked moved
    refine ⟨due.tail,left,fun short => ?_⟩
    rw [List.length_tail,Action.deliveries]
    exact ⟨by omega,Nat.le_refl _⟩
  | authorize =>
    obtain ⟨left,inbox⟩ := draining.authorize tracked registers moved
    exact ⟨due,left,fun short => ⟨inbox ▸ short,Nat.le_refl _⟩⟩
  | database =>
    obtain ⟨left,inbox⟩ := draining.database tracked registers kept moved
    exact ⟨due,left,fun short => ⟨inbox ▸ short,Nat.le_refl _⟩⟩
  | postLooked =>
    obtain ⟨notice,rest,held,rfl⟩ := postLooked_some moved
    obtain ⟨due',inserted,length⟩ := clearing.insert (m := .notice notice)
      (looked notice (held ▸ List.mem_cons_self))
    refine ⟨due',⟨?_,?_,suspended⟩,fun short => ?_⟩
    · rw [pending,post,List.append_assoc]
      exact inserted
    · exact fun other member => looked other (held ▸ List.mem_cons_of_mem _ member)
    · have := length short
      rw [post,List.length_append]
      exact ⟨by omega,Nat.le_of_eq this⟩
  | postChanged =>
    obtain ⟨notice,rest,held,rfl⟩ := postChanged_some moved
    refine ⟨due,⟨?_,looked,suspended⟩,fun short => ⟨?_,Nat.le_refl _⟩⟩
    · rw [pending,held,List.map_cons] at clearing
      rw [pending,post,List.append_assoc]
      exact clearing
    · rw [post,List.length_append]
      omega

/-- Every record of the user that is live or queued has an endpoint of the user's extensions,
which the suspension drops. -/
theorem step_suspends (tracked : t.Tracked user) (settled : t.Posted user)
    (suspends : t.Changes user true a) (moved : t.step hash a = some next) :
    next.Draining user next.pending := by
  obtain ⟨rfl,ev,authuser,endpoint,rest,queue,change⟩ := changes_some suspends
  obtain ⟨signal,rest',-,queue',idle,rfl⟩ := database_some moved
  obtain ⟨rfl,rfl⟩ := List.cons.inj (queue.symm.trans queue')
  obtain ⟨account,rfl,changed⟩ := Database.changeAdmin_access change authuser endpoint
  have kept := Database.changeAdmin_settled t.server.database ev authuser endpoint
  obtain ⟨suspended,drops⟩ :=
    Database.changeSuspend_suspends (t.server.database.changeSystem ev) ev authuser endpoint account
  rw [← changed] at suspended drops
  have dropped (x : Identity) (known : t.tables.Known x)
      (owned : (t.server.database.changeAdmin ev authuser endpoint).tables.Owned account.authname
        x.number) : Inflight.Doomed Slot.drops
          ((t.server.database.changeAdmin ev authuser endpoint).emitted.map .notice) x.endpoint := by
    obtain ⟨row,member,numbered,key⟩ := kept.known x known
    have number : row.extnbr = x.number := congrArg Prod.fst key
    have emitted := drops row member (number ▸ owned)
    exact ⟨_,List.mem_map.mpr ⟨_,emitted,rfl⟩,congrArg some numbered⟩
  refine ⟨⟨⟨?_,?_⟩,[],(List.append_nil _).symm,fun _ member => absurd member List.not_mem_nil⟩,?_,
    suspended⟩
  · rintro x ⟨b,reg,live,-,rfl⟩ owned
    exact (dropped _ (tracked.registries.known b reg live) owned).mono (List.subset_append_right _ _)
  · refine Inflight.covered_before (fun slot queued x made owned => ?_) ?_
    · exact dropped x (tracked.queued slot queued x made) owned
    · refine Inflight.covered_harmless fun slot member x made => ?_
      obtain ⟨notice,emitted,rfl⟩ := List.mem_map.mp member
      rw [Database.handle_makes_none tracked.silent (.changeAdmin ev authuser endpoint) (by simp)
        notice emitted] at made
      contradiction
  · exact fun notice held x made owned =>
      settled notice held x made ((kept.owned account.authname x.number).mp owned)

structure Idle (t : Threads) : Prop where
  registries : t.registries = {}
  inbox : t.server.inbox = []
  lookups : t.server.lookups = []
  requests : t.server.requests = []
  looked : t.looked = []
  changed : t.changed = []
  silent : t.server.database.emitted = []

theorem Idle.tracked (idle : t.Idle) (user : UString) : t.Tracked user where
  registries := by
    rw [idle.registries]
    exact ⟨linked_empty,fun a reg live => by simp at live,fun a reg live => by simp at live⟩
  queued := by simp [idle.inbox]
  looked := by simp [idle.looked]
  changed := by simp [idle.changed]
  sorted := ⟨by simp [idle.lookups],by simp [idle.requests]⟩
  silent := idle.silent

theorem run_tracked (run : Run hash t trace final) (tracked : t.Tracked user)
    (registers : ∀ edge ∈ trace, edge.source.Registering edge.action)
    (single : ∀ edge ∈ trace, edge.source.Single user edge.action) : final.Tracked user :=
  run.invariant_of (Tracked user) (fun t a => t.Registering a ∧ t.Single user a)
    (fun _ _ _ tracked guard moved => step_tracked tracked guard.1 guard.2 moved) tracked
    fun edge member => ⟨registers edge member,single edge member⟩

def deliveries (trace : List (Transition.Edge Threads Action)) : Nat :=
  (trace.map fun edge => edge.action.deliveries).sum

theorem run_draining {due : List Slot} (run : Run hash t trace final) (tracked : t.Tracked user)
    (draining : t.Draining user due)
    (registers : ∀ edge ∈ trace, edge.source.Registering edge.action)
    (single : ∀ edge ∈ trace, edge.source.Single user edge.action)
    (kept : ∀ edge ∈ trace, ¬edge.source.Changes user false edge.action) :
    ∃ due', final.Draining user due' ∧ (due.length ≤ t.server.inbox.length →
      due'.length ≤ final.server.inbox.length ∧ due'.length ≤ due.length - deliveries trace) := by
  induction run with
  | start => exact ⟨due,draining,fun short => ⟨short,Nat.le_refl _⟩⟩
  | @next trace middle a final earlier moved ih =>
    have front (edge) (member : edge ∈ trace) := List.mem_append_left [⟨middle,a,final⟩] member
    have last := List.mem_append_right trace (List.mem_singleton_self ⟨middle,a,final⟩)
    obtain ⟨due',reached,within⟩ := ih (fun edge member => registers edge (front edge member))
      (fun edge member => single edge (front edge member))
      (fun edge member => kept edge (front edge member))
    have followed := run_tracked earlier tracked (fun edge member => registers edge (front edge member))
      (fun edge member => single edge (front edge member))
    obtain ⟨due'',final,later⟩ := step_draining reached followed (registers _ last) (kept _ last) moved
    refine ⟨due'',final,fun short => ?_⟩
    obtain ⟨inside,counted⟩ := within short
    obtain ⟨inside',counted'⟩ := later inside
    simp only [deliveries,List.map_append,List.sum_append,List.map_cons,List.map_nil,List.sum_cons,
      List.sum_nil] at counted counted' ⊢
    exact ⟨inside',by omega⟩

theorem registering_of_changes (changes : t.Changes user suspend a) : t.Registering a := by
  obtain ⟨rfl,ev,authuser,endpoint,rest,queue,-⟩ := changes_some changes
  intro signal running
  simp only [taken,queue,List.head?_cons,Option.some.injEq] at running
  rw [← running]
  rfl

/-- A run in which the user is suspended and not restored, and in the end the manager has
been delivered what was queued for it when the slot of the suspension had posted its signals. -/
structure Suspension (hash : HashFunction) (user : UString) where
  start : Threads
  suspending : Threads
  suspended : Threads
  posted : Threads
  final : Threads
  before : List (Transition.Edge Threads Action)
  slot : List (Transition.Edge Threads Action)
  after : List (Transition.Edge Threads Action)
  idle : start.Idle
  reached : Run hash start before suspending
  suspends : suspending.Changes user true .database
  changed : suspending.step hash .database = some suspended
  posting : Run hash suspended slot posted
  ended : posted.changed = []
  delivering : Run hash posted after final
  delivered : posted.server.inbox.length ≤ deliveries after
  registers : ∀ edge ∈ before ++ slot ++ after, edge.source.Registering edge.action
  unrestored : ∀ edge ∈ slot ++ after, ¬edge.source.Changes user false edge.action

def Cleared (t : Threads) (user : UString) : Prop :=
  ∀ a reg, t.registries.heap.lookup a = some reg → ¬t.tables.Owned user reg.number

def registration (t : Threads) (a : Action) : Bool :=
  (t.taken a).all Database.registering && (t.change a).all Prod.snd

def plain (t : Threads) (a : Action) : Bool :=
  t.registration a && ((t.making a).isNone || t.registries.heap.entries.isEmpty)

theorem registration_registering (passed : t.registration a = true) : t.Registering a := by
  intro signal running
  simp only [registration,running,Option.all_some,Bool.and_eq_true] at passed
  exact passed.1

theorem registration_unrestored (passed : t.registration a = true) : ¬t.Changes user false a := by
  intro changes
  simp only [registration,show t.change a = some (user,false) from changes,Option.all_some,
    Bool.and_false] at passed
  contradiction

theorem plain_single (passed : t.plain a = true) : t.Single user a := by
  intro x made owned b reg live
  simp only [plain,made,Option.isNone_some,Bool.false_or,Bool.and_eq_true] at passed
  have empty := List.isEmpty_iff.mp passed.2
  have member := AList.mem_lookup_iff.mp live
  rw [empty] at member
  exact absurd member List.not_mem_nil

def play (guard : Threads → Action → Bool) (hash : HashFunction) (user : UString)
    (before slot after : List Action) (start : Threads) : Option (Threads × Threads) := do
  let suspending ← Transition.execute (Transition.guarded guard (step hash)) before start
  let suspended ← suspending.step hash .database
  let posted ← Transition.execute (Transition.guarded guard (step hash)) slot suspended
  let final ← Transition.execute (Transition.guarded guard (step hash)) after posted
  if suspending.change .database = some (user,true) ∧ posted.changed.isEmpty = true ∧
      posted.server.inbox.length ≤ (after.map Action.deliveries).sum then
    return (suspending,final)
  else none

theorem play_suspension {guard : Threads → Action → Bool} {before slot after : List Action}
    {start suspending final : Threads}
    (guarded : ∀ t a, guard t a = true → t.registration a = true) (idle : start.Idle)
    (played : play guard hash user before slot after start = some (suspending,final)) :
    ∃ s : Suspension hash user, s.start = start ∧ s.suspending = suspending ∧ s.final = final ∧
      ∀ edge ∈ s.before ++ s.slot ++ s.after, guard edge.source edge.action = true := by
  simp only [play,Option.bind_eq_bind,Option.bind_eq_some_iff] at played
  obtain ⟨t,first,suspended,changed,posted,second,last,third,facts⟩ := played
  split at facts
  · rename_i within
    obtain ⟨suspends,ended,delivered⟩ := within
    obtain ⟨rfl,rfl⟩ := Prod.mk.inj (Option.some.inj facts)
    obtain ⟨before,reached,-⟩ := Transition.execute_run _ _ _ first
    obtain ⟨slot,posting,-⟩ := Transition.execute_run _ _ _ second
    obtain ⟨after',delivering,actions⟩ := Transition.execute_run _ _ _ third
    obtain ⟨reached,one⟩ := reached.of_guarded
    obtain ⟨posting,two⟩ := posting.of_guarded
    obtain ⟨delivering,three⟩ := delivering.of_guarded
    have all : ∀ edge ∈ before ++ slot ++ after', guard edge.source edge.action = true := by
      intro edge member
      simp only [List.mem_append] at member
      exact member.elim (fun early => early.elim (one edge) (two edge)) (three edge)
    refine ⟨⟨start,t,suspended,posted,last,before,slot,after',idle,reached,suspends,changed,posting,
      List.isEmpty_iff.mp ended,delivering,?_,fun edge member => ?_,fun edge member => ?_⟩,
      rfl,rfl,rfl,all⟩
    · rw [← actions,List.map_map] at delivered
      exact delivered
    · exact registration_registering (guarded _ _ (all edge member))
    · refine registration_unrestored (guarded _ _ (all edge ?_))
      rw [List.append_assoc]
      exact List.mem_append_right _ member
  · contradiction

end Threads

/-! The sysadmin of the site suspends its own user. -/
namespace Admin

open Threads
def md5 : List (UString × UString) := [
  ("X-ADMIN:sip:localhost","06287c57d34fa8d9f5932521a13eaa7f"),
  ("74d0a5bd38ed78708aacb9f056e40120:0707070707070707:06287c57d34fa8d9f5932521a13eaa7f",
    "aa76ba822788cc810248a18fdc218224")]

def hash : HashFunction
  | .md5,text => Site.unhex (((Site.md5 ++ md5).lookup text).getD [])
  | _,_ => []

def start (shared : Bool) : Threads where
  server := { database := { tables := { Site.tables with
    admin := [{ authname := "system", extnbr := 101 }] } } }
  shared

theorem start_idle (shared : Bool) : (start shared).Idle := ⟨rfl,rfl,rfl,rfl,rfl,rfl,rfl⟩

def suspend : Event :=
  Site.signed { Site.request "X-ADMIN" with
    toUser := some "101"
    toLocal := true
    headers := [("x-suspend","true")] } "0707070707070707" "aa76ba822788cc810248a18fdc218224"

def authenticate : List Threads.Action := [
  .receive (Site.signed Site.register "0707070707070707" "0476139b44ef0de547a92625ae3bc490"),
  .manage (Site.nonce 0),.database]

def register : List Threads.Action := [.receive Site.register,.manage (Site.nonce 0),.authorize,.postLooked,
  .manage (Site.nonce 7)] ++ authenticate

def request : List Threads.Action := [.receive suspend,.manage (Site.nonce 0)]

def crossing : List Threads.Action := [.receive Site.register,.receive Site.register,.manage (Site.nonce 0),
  .manage (Site.nonce 0),.authorize,.postLooked,.authorize,.postLooked,.manage (Site.nonce 7),
  .manage (Site.nonce 7)] ++ authenticate ++ request

/-- Another device of the user is looked up before the user is suspended. -/
def overtaken : List Threads.Action := register ++ [.receive { Site.register with label := "NONE" },
  .manage (Site.nonce 0),.authorize] ++ request

def posts : List Threads.Action := [.postChanged,.postChanged]

def drops : List Threads.Action := [.manage (Site.nonce 0),.manage (Site.nonce 0)]

end Admin

namespace Threads

variable {hash : HashFunction} {t next : Threads} {user : UString}

def outlived (t : Threads) (a : Handle) (user : UString) : Bool :=
  (t.registries.heap.lookup a).any fun reg =>
    t.tables.extensions.rows.any fun row => row.extnbr = reg.number && row.authname = user

theorem outlived_not_cleared {a : Handle} (live : t.outlived a user = true) : ¬t.Cleared user := by
  intro cleared
  simp only [outlived,Option.any_eq_true,List.any_eq_true,Bool.and_eq_true,decide_eq_true_eq] at live
  obtain ⟨reg,known,row,member,numbered,named⟩ := live
  exact cleared a reg known ⟨row,member,numbered,named⟩

/-- On one thread a lookup has posted all its signals when the next slot runs. -/
theorem posted_of_shared (shared : t.shared = true) (moved : t.step hash .database = some next) :
    t.Posted user := by
  simp only [step] at moved
  split at moved
  · contradiction
  split at moved
  · contradiction
  · rename_i idle
    intro notice held
    exact absurd (.inr ⟨shared,List.ne_nil_of_mem held⟩) idle

/-- Where the records of the user have endpoints of their own, and no lookup on another thread has
still to post a record of the user when it is suspended, no record outlives the suspension. -/
theorem suspension_holds (s : Suspension hash user)
    (separate : s.suspending.shared = false → s.suspending.Posted user)
    (single : ∀ edge ∈ s.before ++ s.slot ++ s.after, edge.source.Single user edge.action) :
    s.final.Cleared user := by
  have of_before (edge) (member : edge ∈ s.before) : edge ∈ s.before ++ s.slot ++ s.after :=
    List.mem_append_left _ (List.mem_append_left _ member)
  have of_slot (edge) (member : edge ∈ s.slot) : edge ∈ s.before ++ s.slot ++ s.after :=
    List.mem_append_left _ (List.mem_append_right _ member)
  have of_after (edge) (member : edge ∈ s.after) : edge ∈ s.before ++ s.slot ++ s.after :=
    List.mem_append_right _ member
  have tracked := run_tracked s.reached (s.idle.tracked user)
    (fun edge member => s.registers edge (of_before edge member))
    (fun edge member => single edge (of_before edge member))
  have followed : s.suspended.Tracked user :=
    step_tracked tracked (registering_of_changes s.suspends) (fun x made => by cases made) s.changed
  have posted : s.suspending.Posted user := by
    cases layout : s.suspending.shared with
    | true => exact posted_of_shared layout s.changed
    | false => exact separate layout
  have draining := step_suspends tracked posted s.suspends s.changed
  have reached := run_tracked s.posting followed
    (fun edge member => s.registers edge (of_slot edge member))
    (fun edge member => single edge (of_slot edge member))
  obtain ⟨due,draining,-⟩ := run_draining s.posting followed draining
    (fun edge member => s.registers edge (of_slot edge member))
    (fun edge member => single edge (of_slot edge member))
    fun edge member => s.unrestored edge (List.mem_append_left _ member)
  have short : due.length ≤ s.posted.server.inbox.length := by
    obtain ⟨rest,parts,-⟩ := draining.clearing.rest
    rw [pending,s.ended,List.map_nil,List.append_nil] at parts
    rw [parts,List.length_append]
    exact Nat.le_add_right _ _
  obtain ⟨last,drained,counted⟩ := run_draining s.delivering reached draining
    (fun edge member => s.registers edge (of_after edge member))
    (fun edge member => single edge (of_after edge member))
    fun edge member => s.unrestored edge (List.mem_append_right _ member)
  obtain rfl : last = [] := by
    have := (counted short).2
    have := s.delivered
    exact List.length_eq_zero_iff.mp (by omega)
  have final := run_tracked s.delivering reached
    (fun edge member => s.registers edge (of_after edge member))
    (fun edge member => single edge (of_after edge member))
  intro a reg live owned
  have entry := final.registries.single a reg live owned
  exact drained.clearing.swept.empty reg.identity ⟨a,reg,live,entry,rfl⟩ owned

/-- A second record of a device outlives the suspension, and so does one that is made from a
lookup before it. -/
theorem suspension_outlived :
    (¬∀ (hash : HashFunction) (user : UString) (s : Suspension hash user), s.start.shared = true →
      s.final.Cleared user) ∧
    ¬∀ (hash : HashFunction) (user : UString) (s : Suspension hash user), s.start.shared = false →
      s.final.Cleared user := by
  have twice : (play registration Admin.hash "test1" Admin.crossing Admin.posts Admin.drops
      (Admin.start true)).map (fun played => played.2.outlived 0 "test1") = some true := by
    decide +kernel
  have late : (play registration Admin.hash "test1" Admin.overtaken Admin.posts
      (Admin.drops ++ [.postLooked,.manage (Site.nonce 7)]) (Admin.start false)).map
        (fun played => played.2.outlived 1 "test1") = some true := by
    decide +kernel
  constructor
  · intro claim
    obtain ⟨⟨_,final⟩,played,live⟩ := Option.map_eq_some_iff.mp twice
    obtain ⟨s,started,-,ended,-⟩ := play_suspension (fun _ _ passed => passed)
      (Admin.start_idle true) played
    exact outlived_not_cleared live (ended ▸ claim Admin.hash "test1" s (started ▸ rfl))
  · intro claim
    obtain ⟨⟨_,final⟩,played,live⟩ := Option.map_eq_some_iff.mp late
    obtain ⟨s,started,-,ended,-⟩ := play_suspension (fun _ _ passed => passed)
      (Admin.start_idle false) played
    exact outlived_not_cleared live (ended ▸ claim Admin.hash "test1" s (started ▸ rfl))

/-- The one record of a registered device is dropped. -/
theorem suspension_holds_registered : ∃ s : Suspension Admin.hash "test1",
    s.start = Admin.start false ∧ s.final.Cleared "test1" := by
  have played : (play plain Admin.hash "test1" (Admin.register ++ Admin.request) Admin.posts Admin.drops
      (Admin.start false)).map (fun played => played.1.looked.isEmpty) = some true := by
    decide +kernel
  obtain ⟨⟨suspending,final⟩,played,posted⟩ := Option.map_eq_some_iff.mp played
  obtain ⟨s,started,here,-,plain⟩ := play_suspension
    (fun _ _ passed => (Bool.and_eq_true_iff.mp passed).1) (Admin.start_idle false) played
  refine ⟨s,started,suspension_holds s (fun _ => ?_) fun edge member => plain_single (plain edge member)⟩
  rw [Posted,here,List.isEmpty_iff.mp posted]
  exact fun _ member => absurd member List.not_mem_nil

end Threads

end SipWitch
