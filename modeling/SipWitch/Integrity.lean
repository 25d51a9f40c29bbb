import SipWitch.History
import SipWitch.Profile

/-! Referential integrity of the file database. Its connection is opened without the
pragma that has foreign keys enforced, so that it rests on what the server's own
statements insert and delete. -/
namespace SipWitch

open Tables

/-- The statements a file connection is opened with. -/
def sqlitePragmas : List UString := ["PRAGMA locking_mode = EXCLUSIVE;","PRAGMA synchronous = OFF;",
  "PRAGMA temp_store = MEMORY;"]

/-- SQLite enforces foreign keys for a connection that has asked for it. -/
def enforcesKeys (pragmas : List UString) : Bool :=
  pragmas.any fun pragma => pragma.filter (· ≠ 32) = "PRAGMAforeign_keys=ON;"

structure Referential (t : Tables) : Prop where
  extensions : ∀ row ∈ t.extensions, t.hasAccount row.authname = true
  endpoints : ∀ row ∈ t.endpoints, t.hasExtension row.extnbr = true
  groups : ∀ row ∈ t.groups, t.hasExtension row.grpnbr = true ∧ t.hasExtension row.extnbr = true
  admin : ∀ row ∈ t.admin, t.hasAccount row.authname = true ∧ t.hasExtension row.extnbr = true
  calling : ∀ row ∈ t.calling, t.hasAccount row.authname = true ∧ t.hasExtension row.extnbr = true
  outboxes : ∀ row ∈ t.outboxes, t.hasEndpoint row.endpoint = true ∧ t.hasMessage row.mid = true
  deletes : ∀ row ∈ t.deletes, t.hasEndpoint row.endpoint = true

/-- With the account that sysadmins are rows of, which is not deleted. -/
structure Intact (t : Tables) : Prop extends Referential t where
  files : t.enforced = false
  system : ∃ row ∈ t.authorize, row.authname = "system" ∧ UString.toUpper row.authtype = "SYSTEM"

namespace Tables

variable {t : Tables}

theorem hasAccount_insertAuthorize {row : AuthorizeRow} {name : UString} :
    (t.insertAuthorize row).hasAccount name = true ↔ t.hasAccount name = true ∨ row.authname = name := by
  simp only [hasAccount_iff,insertAuthorize,Table.exists_key_insert]

theorem hasExtension_insertExtension {row : ExtensionRow} {number : Int}
    (accepted : t.accepts (t.hasAccount row.authname) = true) :
    (t.insertExtension row).hasExtension number = true ↔
      t.hasExtension number = true ∨ row.extnbr = number := by
  simp only [hasExtension_iff,insertExtension,if_pos accepted,Table.exists_key_insert]

def SameParents (t t' : Tables) : Prop :=
  (∀ name, t'.hasAccount name = t.hasAccount name) ∧ ∀ number, t'.hasExtension number = t.hasExtension number

theorem insertEndpoint_parents (t : Tables) (number : Int) (label : UString) (created : Int) :
    SameParents t (t.insertEndpoint number label created) := by
  simp only [insertEndpoint]
  split <;> exact ⟨fun _ => rfl,fun _ => rfl⟩

theorem insertGroup_parents (t : Tables) (row : GroupRow) : SameParents t (t.insertGroup row) := by
  simp only [insertGroup]
  split <;> exact ⟨fun _ => rfl,fun _ => rfl⟩

theorem insertAdmin_parents (t : Tables) (row : AdminRow) : SameParents t (t.insertAdmin row) := by
  simp only [insertAdmin]
  split <;> exact ⟨fun _ => rfl,fun _ => rfl⟩

theorem hasAccount_insertExtension (row : ExtensionRow) (name : UString) :
    (t.insertExtension row).hasAccount name = t.hasAccount name := by
  simp only [insertExtension]
  split <;> rfl

theorem insertExtension_enforced (row : ExtensionRow) : (t.insertExtension row).enforced = t.enforced := by
  simp only [insertExtension]
  split <;> rfl

end Tables

namespace Intact

variable {t : Tables} (intact : Intact t)

include intact

theorem accepts (parents : Bool) : t.accepts parents = true := by
  simp [Tables.accepts,intact.files]

theorem hasSystem : t.hasAccount "system" = true :=
  hasAccount_iff.mpr (intact.system.imp fun _ row => ⟨row.1,row.2.1⟩)

theorem insertAuthorize (row : AuthorizeRow) : Intact (t.insertAuthorize row) := by
  have kept (name : UString) (known : t.hasAccount name = true) :
      (t.insertAuthorize row).hasAccount name = true :=
    hasAccount_insertAuthorize.mpr (.inl known)
  obtain ⟨system,member,founded⟩ := intact.system
  exact { intact with
    extensions := fun row member => kept _ (intact.extensions row member)
    admin := fun row member => (intact.admin row member).imp_left (kept _)
    calling := fun row member => (intact.calling row member).imp_left (kept _)
    system := ⟨system,Table.mem_insert.mpr (.inl member),founded⟩ }

theorem insertExtension (row : ExtensionRow) (account : t.hasAccount row.authname = true) :
    Intact (t.insertExtension row) := by
  have inserted : t.insertExtension row = { t with extensions := t.extensions.insert row } := by
    rw [Tables.insertExtension,if_pos (intact.accepts _)]
  have kept (number : Int) (known : t.hasExtension number = true) :
      ({ t with extensions := t.extensions.insert row } : Tables).hasExtension number = true :=
    inserted ▸ (hasExtension_insertExtension (intact.accepts _)).mpr (.inl known)
  rw [inserted]
  refine { intact with
    extensions := fun other member => ?_
    endpoints := fun row member => kept _ (intact.endpoints row member)
    groups := fun row member => (intact.groups row member).imp (kept _) (kept _)
    admin := fun row member => (intact.admin row member).imp_right (kept _)
    calling := fun row member => (intact.calling row member).imp_right (kept _) }
  rcases Table.mem_insert.mp member with old | ⟨-,rfl⟩
  · exact intact.extensions other old
  · exact account

theorem insertEndpoint (number : Int) (label : UString) (created : Int)
    (extension : t.hasExtension number = true) : Intact (t.insertEndpoint number label created) := by
  have inserted : t.insertEndpoint number label created = { t with
      endpoints := t.endpoints.insert
        (fun endpoint => { endpoint, extnbr := number, label, created }) rfl } := by
    rw [Tables.insertEndpoint,if_pos (intact.accepts _)]
  rw [inserted]
  have kept (endpoint : Int) (known : t.hasEndpoint endpoint = true) :
      ({ t with
        endpoints := t.endpoints.insert
          (fun endpoint => { endpoint, extnbr := number, label, created }) rfl } : Tables).hasEndpoint
        endpoint = true := by
    obtain ⟨old,member,numbered⟩ := hasEndpoint_iff.mp known
    exact hasEndpoint_iff.mpr ⟨old,Serial.mem_insert.mpr (.inl member),numbered⟩
  refine { intact with
    endpoints := fun other member => ?_
    outboxes := fun row member => (intact.outboxes row member).imp_left (kept _)
    deletes := fun row member => kept _ (intact.deletes row member) }
  rcases Serial.mem_insert.mp member with old | ⟨-,rfl⟩
  · exact intact.endpoints other old
  · exact extension

theorem insertDelete (row : DeleteRow) (endpoint : t.hasEndpoint row.endpoint = true) :
    Intact (t.insertDelete row) := by
  rw [Tables.insertDelete,if_pos (intact.accepts _)]
  refine { intact with deletes := fun other member => ?_ }
  rcases List.mem_append.mp member with old | new
  · exact intact.deletes other old
  · obtain rfl := List.mem_singleton.mp new
    exact endpoint

theorem insertCalling (row : CallingRow) (account : t.hasAccount row.authname = true)
    (extension : t.hasExtension row.extnbr = true) : Intact (t.insertCalling row) := by
  rw [Tables.insertCalling,if_pos (intact.accepts _)]
  refine { intact with calling := fun other member => ?_ }
  rcases List.mem_append.mp member with old | new
  · exact intact.calling other old
  · obtain rfl := List.mem_singleton.mp new
    exact ⟨account,extension⟩

theorem insertAdmin (row : AdminRow) (account : t.hasAccount row.authname = true)
    (extension : t.hasExtension row.extnbr = true) : Intact (t.insertAdmin row) := by
  rw [Tables.insertAdmin,if_pos (intact.accepts _)]
  refine { intact with admin := fun other member => ?_ }
  rcases List.mem_append.mp member with old | new
  · exact intact.admin other old
  · obtain rfl := List.mem_singleton.mp new
    exact ⟨account,extension⟩

theorem insertGroup (row : GroupRow) (group : t.hasExtension row.grpnbr = true)
    (extension : t.hasExtension row.extnbr = true) : Intact (t.insertGroup row) := by
  rw [Tables.insertGroup,if_pos (intact.accepts _)]
  refine { intact with groups := fun other member => ?_ }
  rcases Table.mem_insert.mp member with old | ⟨-,rfl⟩
  · exact intact.groups other old
  · exact ⟨group,extension⟩

theorem insertMessage (row : MessageRow) : Intact (t.insertMessage row) := by
  have kept (mid : Int) (known : t.hasMessage mid = true) :
      (t.insertMessage row).hasMessage mid = true := by
    obtain ⟨old,member,numbered⟩ := hasMessage_iff.mp known
    exact hasMessage_iff.mpr ⟨old,Serial.mem_insert.mpr (.inl member),numbered⟩
  exact { intact with
    outboxes := fun row member => (intact.outboxes row member).imp_right (kept _) }

theorem outbox (row : OutboxRow) (endpoint : t.hasEndpoint row.endpoint = true)
    (message : t.hasMessage row.mid = true) : Intact { t with outboxes := t.outboxes.insert row } := by
  refine { intact with outboxes := fun other member => ?_ }
  rcases Table.mem_insert.mp member with old | ⟨-,rfl⟩
  · exact intact.outboxes other old
  · exact ⟨endpoint,message⟩

theorem updateAuthorize (name : UString) (change : AuthorizeRow → AuthorizeRow)
    (same : ∀ row, (change row).authname = row.authname)
    (typed : ∀ row, (change row).authtype = row.authtype) :
    Intact (t.updateAuthorize name change same) := by
  have kept (other : UString) : (t.updateAuthorize name change same).hasAccount other =
      t.hasAccount other := by
    simp [hasAccount]
  obtain ⟨row,member,named,type⟩ := intact.system
  refine { intact with
    extensions := fun row member => (kept _).trans (intact.extensions row member)
    admin := fun row member => (intact.admin row member).imp_left (kept _).trans
    calling := fun row member => (intact.calling row member).imp_left (kept _).trans
    system := ⟨_,mem_updateAuthorize.mpr ⟨row,member,rfl⟩,?_⟩ }
  split
  · rw [same,typed]
    exact ⟨named,type⟩
  · exact ⟨named,type⟩

theorem updateExtension (number : Int) (change : ExtensionRow → ExtensionRow)
    (same : ∀ row, (change row).extnbr = row.extnbr)
    (owned : ∀ row, (change row).authname = row.authname) :
    Intact (t.updateExtension number change same) := by
  have kept (other : Int) : (t.updateExtension number change same).hasExtension other =
      t.hasExtension other := by
    simp [hasExtension]
  refine { intact with
    extensions := fun row member => ?_
    endpoints := fun row member => (kept _).trans (intact.endpoints row member)
    groups := fun row member => (intact.groups row member).imp (kept _).trans (kept _).trans
    admin := fun row member => (intact.admin row member).imp_right (kept _).trans
    calling := fun row member => (intact.calling row member).imp_right (kept _).trans }
  obtain ⟨old,known,rfl⟩ := mem_updateExtension.mp member
  have account := intact.extensions old known
  split
  · rw [owned]
    exact account
  · exact account

theorem updateEndpoint (endpoint : Int) (change : EndpointRow → EndpointRow)
    (same : ∀ row, (change row).key = row.key)
    (numbered : ∀ row, (change row).endpoint = row.endpoint) :
    Intact (t.updateEndpoint endpoint change same numbered) := by
  have kept (other : Int) (known : t.hasEndpoint other = true) :
      (t.updateEndpoint endpoint change same numbered).hasEndpoint other = true := by
    obtain ⟨old,member,rfl⟩ := hasEndpoint_iff.mp known
    refine hasEndpoint_iff.mpr ⟨_,mem_updateEndpoint.mpr ⟨old,member,rfl⟩,?_⟩
    split
    · exact numbered old
    · rfl
  refine { intact with
    endpoints := fun row member => ?_
    outboxes := fun row member => (intact.outboxes row member).imp_left (kept _)
    deletes := fun row member => kept _ (intact.deletes row member) }
  obtain ⟨old,known,rfl⟩ := mem_updateEndpoint.mp member
  have extension := intact.endpoints old known
  split
  · rw [show (change old).extnbr = old.extnbr from congrArg Prod.fst (same old)]
    exact extension
  · exact extension

theorem setStatus (status : Int) (condition : OutboxRow → Bool) :
    Intact (t.setStatus status condition) := by
  refine { intact with outboxes := fun row member => ?_ }
  obtain ⟨old,known,rfl⟩ := mem_setStatus.mp member
  have parents := intact.outboxes old known
  split <;> exact parents

theorem writeProfile (extnbr : Int) (authname display email access secret : UString) :
    Intact (t.writeProfile extnbr authname display email access secret) := by
  have displayed : Intact (t.updateExtension extnbr (fun row => { row with display }) fun _ => rfl) :=
    intact.updateExtension extnbr (fun row => { row with display }) _ fun _ => rfl
  exact displayed.updateAuthorize authname (fun row => { row with email, authaccess := access, secret })
    _ fun _ => rfl

/-- What is left of a table refers to what it did before. -/
theorem withDeletes {deletes : List DeleteRow}
    (left : ∀ row ∈ deletes, ∃ old ∈ t.deletes, old.endpoint = row.endpoint) :
    Intact { t with deletes } :=
  { intact with
    deletes := fun row member => by
      obtain ⟨old,known,same⟩ := left row member
      exact same ▸ intact.deletes old known }

theorem withCalling (condition : CallingRow → Bool) :
    Intact { t with calling := t.calling.filter condition } :=
  { intact with calling := fun row member => intact.calling row (List.mem_filter.mp member).1 }

theorem withAdmin (condition : AdminRow → Bool) : Intact { t with admin := t.admin.filter condition } :=
  { intact with admin := fun row member => intact.admin row (List.mem_filter.mp member).1 }

theorem withGroups (condition : GroupRow → Bool) :
    Intact { t with groups := t.groups.delete condition } :=
  { intact with groups := fun row member => intact.groups row (Table.mem_delete.mp member).1 }

/-- Without an account that nothing refers to the rest stays as it is. -/
theorem deleteAuthorize (name : UString) (other : ∀ row ∈ t.authorize, row.authname = name →
      UString.toUpper row.authtype ≠ "SYSTEM")
    (extensions : ∀ row ∈ t.extensions, row.authname ≠ name)
    (admin : ∀ row ∈ t.admin, row.authname ≠ name)
    (calling : ∀ row ∈ t.calling, row.authname ≠ name) : Intact (t.deleteAuthorize name) := by
  have deleted : t.deleteAuthorize name =
      { t with authorize := t.authorize.delete fun row => row.authname = name } := by
    simp [Tables.deleteAuthorize,Tables.sweep,intact.files]
  rw [deleted]
  have kept (owner : UString) (differs : owner ≠ name) (known : t.hasAccount owner = true) :
      ({ t with authorize := t.authorize.delete fun row => row.authname = name } : Tables).hasAccount
        owner = true := by
    obtain ⟨row,member,rfl⟩ := hasAccount_iff.mp known
    exact hasAccount_iff.mpr ⟨row,Table.mem_delete.mpr ⟨member,by simpa using differs⟩,rfl⟩
  obtain ⟨row,member,named,type⟩ := intact.system
  exact { intact with
    extensions := fun row member => kept _ (extensions row member) (intact.extensions row member)
    admin := fun row member => (intact.admin row member).imp_left (kept _ (admin row member))
    calling := fun row member => (intact.calling row member).imp_left (kept _ (calling row member))
    system := ⟨row,Table.mem_delete.mpr ⟨member,by simpa using fun same => other row member same type⟩,
      named,type⟩ }

theorem deleteEndpoint (endpoint : Int) (outboxes : ∀ row ∈ t.outboxes, row.endpoint ≠ endpoint)
    (deletes : ∀ row ∈ t.deletes, row.endpoint ≠ endpoint) : Intact (t.deleteEndpoint endpoint) := by
  have deleted : t.deleteEndpoint endpoint =
      { t with endpoints := t.endpoints.delete fun row => row.endpoint = endpoint } := by
    simp [Tables.deleteEndpoint,Tables.sweep,intact.files]
  rw [deleted]
  have kept (other : Int) (differs : other ≠ endpoint) (known : t.hasEndpoint other = true) :
      ({ t with endpoints := t.endpoints.delete fun row => row.endpoint = endpoint } :
        Tables).hasEndpoint other = true := by
    obtain ⟨row,member,rfl⟩ := hasEndpoint_iff.mp known
    exact hasEndpoint_iff.mpr ⟨row,Serial.mem_delete.mpr ⟨member,by simpa using differs⟩,rfl⟩
  exact { intact with
    endpoints := fun row member => intact.endpoints row (Serial.mem_delete.mp member).1
    outboxes := fun row member => (intact.outboxes row member).imp_left (kept _ (outboxes row member))
    deletes := fun row member => kept _ (deletes row member) (intact.deletes row member) }

theorem deleteMessages (before : Int)
    (outboxes : ∀ row ∈ t.outboxes, ∀ message ∈ t.messages, message.mid = row.mid →
      before ≤ message.posted) : Intact (t.deleteMessages before) := by
  have deleted : t.deleteMessages before =
      { t with messages := t.messages.delete fun row => row.posted < before } := by
    simp [Tables.deleteMessages,Tables.sweep,intact.files]
  rw [deleted]
  refine { intact with outboxes := fun row member => ?_ }
  refine (intact.outboxes row member).imp_right fun known => ?_
  obtain ⟨message,stored,numbered⟩ := hasMessage_iff.mp known
  have recent := outboxes row member message stored numbered
  exact hasMessage_iff.mpr ⟨message,Serial.mem_delete.mpr ⟨stored,by simpa using recent⟩,numbered⟩

end Intact

namespace Database

variable {d after : Database} {ev : Event} {mid : Int} {data : MessageData}
  {boxes : List (Int × Int)}

theorem foldl_post_intact (intact : Intact d.tables) (message : d.tables.hasMessage mid = true)
    (endpoints : ∀ box ∈ boxes, d.tables.hasEndpoint box.1 = true) :
    Intact (boxes.foldl (fun d box => d.post mid data box) d).tables := by
  induction boxes generalizing d with
  | nil => exact intact
  | cons box rest ih =>
    have here := endpoints box List.mem_cons_self
    have tables := post_tables data message here
    rw [List.foldl_cons]
    refine ih ?_ ?_ ?_
    · rw [tables]
      exact intact.outbox (boxRow mid box) here message
    · rw [tables]
      exact message
    · intro other member
      rw [tables]
      exact endpoints other (List.mem_cons_of_mem _ member)

/-- Messages are posted to endpoints that have been read. -/
theorem Stored.intact {row : MessageRow} (stored : Stored d after row data boxes)
    (intact : Intact d.tables) (endpoints : ∀ box ∈ boxes, d.tables.hasEndpoint box.1 = true) :
    Intact after.tables := by
  obtain ⟨ready,rfl,fresh,tables,-,-⟩ := stored
  refine foldl_post_intact ?_ ?_ ?_
  · rw [tables]
    exact intact.insertMessage row
  · rw [tables,fresh]
    exact hasMessage_insertMessage d.tables row
  · intro box member
    rw [tables]
    exact endpoints box member

theorem adminMessage_intact (intact : Intact d.tables) (recipient : Int) (text : UString)
    (sender : Int) (display : UString) (expires : Int) :
    Intact (d.adminMessage ev recipient text sender display expires).tables := by
  refine (storeAdmin_stored d ev recipient text sender display expires _).intact intact ?_
  intro box member
  obtain ⟨endpoint,listed,rfl⟩ := List.mem_map.mp member
  obtain ⟨row,known,rfl⟩ := List.mem_map.mp listed
  exact hasEndpoint_iff.mpr ⟨row,(Serial.mem_select.mp known).1,rfl⟩

theorem localMessage_intact (intact : Intact d.tables) : Intact (d.localMessage ev).tables := by
  rcases localMessage_cases d ev with ⟨same,-⟩ | stored
  · exact same ▸ intact
  · refine stored.intact intact fun box member => ?_
    obtain ⟨row,known,-,endpoint,-⟩ := mem_postings.mp member
    exact hasEndpoint_iff.mpr ⟨row,known,endpoint.symm⟩

theorem sendProfile_intact (intact : Intact d.tables) (authuser : UString) (endpoint : Int) :
    Intact (d.sendProfile ev authuser endpoint).tables := by
  rcases sendProfile_cases d ev authuser endpoint with
    ⟨-,code,-,replied⟩ | ⟨-,-,document,shown⟩ | ⟨-,-,_,_,-,⟨updated⟩⟩
  · exact replied ▸ intact
  · exact shown ▸ intact
  · rw [updated.tables]
    exact intact.writeProfile _ _ _ _ _ _

theorem changeAuthorize_intact (intact : Intact d.tables) : Intact (d.changeAuthorize ev).tables := by
  have extended (t : Tables) (intact : Intact t) (number clock : Int) (user : UString)
      (account : t.hasAccount user = true) :
      Intact (t.insertExtension { extnbr := number, authname := user }) ∧
      Intact ((t.insertExtension { extnbr := number, authname := user }).insertEndpoint number "NONE"
        clock) := by
    have first := intact.insertExtension { extnbr := number, authname := user } account
    exact ⟨first,first.insertEndpoint _ _ _ 
      ((hasExtension_insertExtension (intact.accepts _)).mpr (.inr rfl))⟩
  simp only [changeAuthorize]
  split
  · exact intact
  split
  · exact intact
  split
  · split
    · exact intact
    split
    · exact (extended _ (intact.insertAuthorize _) _ 0 _ (hasAccount_insertAuthorize.mpr (.inr rfl))).1
    · exact (extended _ (intact.insertAuthorize _) _ _ _ (hasAccount_insertAuthorize.mpr (.inr rfl))).2
  · split
    · exact intact
    rename_i account
    split
    · exact intact
    split
    · exact intact
    · exact (extended _ intact _ _ _ (by simpa using account)).2

theorem changeTopic_intact (intact : Intact d.tables) : Intact (d.changeTopic ev).tables := by
  have replied : Intact (d.reply ev Sip.ok).tables := intact
  simp only [changeTopic]
  split
  · exact intact
  split
  · exact intact
  split
  · exact adminMessage_intact (adminMessage_intact replied _ _ _ _ _) _ _ _ _ _
  split
  · exact intact
  · exact foldl_kept (P := fun after => Intact after.tables) _ _
      (fun _ _ holds => adminMessage_intact holds _ _ _ _ _) replied

theorem forwards_update {statement : Tables → Tables} (ok : d.forwards ev = .ok statement) :
    ∃ name change same, statement = (fun t => t.updateAuthorize name change same) ∧
      ∀ row, (change row).authtype = row.authtype := by
  simp only [forwards] at ok
  repeat' split at ok
  all_goals cases ok
  all_goals exact ⟨_,_,_,rfl,fun _ => rfl⟩

theorem changeForwarding_intact (intact : Intact d.tables) (authuser : UString) (endpoint : Int) :
    Intact (d.changeForwarding ev authuser endpoint).tables := by
  rw [changeForwarding_eq]
  split
  · exact intact
  · rename_i statement checked
    obtain ⟨name,change,same,rfl,typed⟩ := forwards_update checked
    have forwarded : Intact (d.runQuery (·.updateAuthorize name change same)).tables :=
      intact.updateAuthorize name change same typed
    exact sendProfile_intact forwarded _ _

theorem dropExtension_intact (intact : Intact d.tables) (authuser : UString) (endpoint : Int) :
    Intact (d.dropExtension ev authuser endpoint).tables := by
  simp only [dropExtension]
  split
  · exact intact
  split
  · exact intact
  split
  · exact intact
  · exact sendProfile_intact intact _ _

/-- A profile that is found has its extension, of an account that is there. -/
theorem found_parents {extension : ExtensionRow} {account : AuthorizeRow}
    (found : d.found ev = .ok (extension,account)) :
    d.tables.hasExtension (target ev) = true ∧ d.tables.hasAccount account.authname = true := by
  obtain ⟨extended,stored⟩ := profile?_some (found_ok found).2
  obtain ⟨member,named⟩ := account?_eq_some.mp stored
  exact ⟨by simp [hasExtension,extended],hasAccount_iff.mpr ⟨account,member,rfl⟩⟩

theorem changeSystem_intact (intact : Intact d.tables)
    (extension : d.tables.hasExtension (target ev) = true) : Intact (d.changeSystem ev).tables := by
  simp only [changeSystem]
  split
  · exact intact
  split
  · exact intact.insertAdmin _ intact.hasSystem extension
  · exact intact.withAdmin _

theorem changeSuspend_intact (intact : Intact d.tables) (authuser : UString) (endpoint : Int)
    (account : AuthorizeRow) (suspend : Bool) :
    Intact (d.changeSuspend ev authuser endpoint account suspend).tables := by
  have granted (access : UString) : Intact (d.runQuery (·.updateAuthorize account.authname
      (fun row => { row with authaccess := access }) fun _ => rfl)).tables :=
    intact.updateAuthorize _ (fun row => { row with authaccess := access }) (fun _ => rfl) fun _ => rfl
  simp only [changeSuspend]
  split
  · exact sendProfile_intact (granted _) _ _
  · exact sendProfile_intact (granted _) _ _

theorem changeAdmin_intact (intact : Intact d.tables) (authuser : UString) (endpoint : Int) :
    Intact (d.changeAdmin ev authuser endpoint).tables := by
  rw [changeAdmin_eq]
  split
  · exact intact
  rename_i found
  have system := changeSystem_intact intact (found_parents found).1
  split
  · exact intact
  split
  · exact sendProfile_intact system _ _
  split
  · exact system
  · exact changeSuspend_intact system _ _ _ _

theorem cover_intact (intact : Intact d.tables) {authuser : UString} {account : AuthorizeRow}
    {priority : Int} (owner : d.tables.hasAccount account.authname = true)
    (extension : account.authname ≠ authuser → priority ≠ -1 →
      d.tables.hasExtension ev.number = true) :
    Intact (d.cover ev authuser account priority).tables := by
  simp only [cover]
  split
  · exact intact.updateExtension _ (fun row => { row with extpriority := priority }) (fun _ => rfl)
      fun _ => rfl
  rename_i other
  have cleared := intact.withCalling fun row =>
    !(row.authname = account.authname && row.extnbr = ev.number)
  split
  · exact cleared
  · rename_i chosen
    exact cleared.insertCalling _ owner (extension other chosen)

theorem changeCoverage_intact (intact : Intact d.tables) (authuser : UString) (endpoint : Int)
    (extension : ∀ account priority, d.covers ev = .ok (account,priority) →
      account.authname ≠ authuser → priority ≠ -1 → d.tables.hasExtension ev.number = true) :
    Intact (d.changeCoverage ev authuser endpoint).tables := by
  rw [changeCoverage_eq]
  split
  · exact intact
  rename_i account found
  split
  · exact intact
  rename_i value named
  split
  · exact intact
  · rename_i inside
    have covered : d.covers ev = .ok (account,numberOf value) := by
      simp only [covers,found,named,if_neg inside]
    exact sendProfile_intact
      (cover_intact intact (found_parents found).2 (extension _ _ covered)) _ _

theorem insertGroups_intact (intact : Intact d.tables) (number : Int)
    (group : d.tables.hasExtension number = true) (members : List Int)
    (known : ∀ member ∈ members, d.tables.hasExtension member = true) :
    let after := members.foldl (fun d member => d.runQuery (·.insertGroup
      { grpnbr := number, extnbr := member })) d
    Intact after.tables ∧ ∃ groups, after.tables = { d.tables with groups } := by
  induction members generalizing d with
  | nil => exact ⟨intact,d.tables.groups,rfl⟩
  | cons member rest ih =>
    obtain ⟨groups,inserted⟩ := insertGroup_frame d.tables { grpnbr := number, extnbr := member }
    have here := intact.insertGroup { grpnbr := number, extnbr := member } group
      (known member List.mem_cons_self)
    have extension (other : Int) (found : d.tables.hasExtension other = true) :
        (d.runQuery (·.insertGroup { grpnbr := number, extnbr := member })).tables.hasExtension
          other = true := by
      rw [runQuery_tables,inserted]
      exact found
    rw [List.foldl_cons]
    obtain ⟨filled,more,same⟩ := ih here (extension _ group) fun other listed =>
      extension _ (known other (List.mem_cons_of_mem _ listed))
    refine ⟨filled,more,same.trans ?_⟩
    rw [runQuery_tables,inserted]

theorem replaceMembers_intact (intact : Intact d.tables) (account : AuthorizeRow)
    (group : d.tables.hasExtension (target ev) = true)
    (owner : d.tables.hasAccount account.authname = true)
    (members : ∀ member ∈ numbers (ev.headersOf "x-group-member"), d.tables.hasExtension member = true)
    (admin : ∀ value, ev.header "x-group-admin" = some value → target ev ≠ 0 →
      0 < UString.atoi value → d.tables.hasExtension (UString.atoi value) = true) :
    Intact (d.replaceMembers ev account).tables := by
  have emptied : Intact (d.runQuery fun t => { t with
      groups := t.groups.delete fun row => row.grpnbr = target ev }).tables :=
    intact.withGroups fun row => row.grpnbr = target ev
  obtain ⟨filled,frame⟩ := insertGroups_intact emptied (target ev) group
    (numbers (ev.headersOf "x-group-member")) members
  simp only [replaceMembers]
  generalize chosen : (if target ev = 0 then 0 else
    ((ev.header "x-group-admin").map UString.atoi).getD 0) = number
  generalize (numbers (ev.headersOf "x-group-member")).foldl _ _ = d' at filled frame
  obtain ⟨groups,frame⟩ := frame
  split
  · rename_i appointed
    have extension : d.tables.hasExtension number = true := by
      split at chosen
      · omega
      · rename_i listed
        cases named : ev.header "x-group-admin" with
        | none => simp [named] at chosen; omega
        | some value =>
          obtain rfl : UString.atoi value = number := by simpa [named] using chosen
          exact admin value named listed appointed
    have extended (other : Int) : d'.tables.hasExtension other = d.tables.hasExtension other := by
      rw [frame]
      rfl
    have joined := filled.insertGroup { grpnbr := target ev, extnbr := number }
      ((extended _).trans group) ((extended _).trans extension)
    obtain ⟨more,inserted⟩ := insertGroup_frame d'.tables { grpnbr := target ev, extnbr := number }
    rw [inserted] at joined
    simp only [runQuery_tables,inserted]
    refine (joined.withAdmin fun row => row.authname ≠ account.authname).insertAdmin _ ?_
      ((extended _).trans extension)
    rw [frame]
    exact owner
  · exact filled

def Enlisted (d : Database) (ev : Event) : Prop :=
  (∀ member ∈ numbers (ev.headersOf "x-group-member"), d.tables.hasExtension member = true) ∧
  ∀ value, ev.header "x-group-admin" = some value → target ev ≠ 0 → 0 < UString.atoi value →
    d.tables.hasExtension (UString.atoi value) = true

theorem changeMembership_intact (intact : Intact d.tables) (authuser : UString) (endpoint : Int)
    (enlisted : d.Enlisted ev) : Intact (d.changeMembership ev authuser endpoint).tables := by
  rw [changeMembership_eq]
  split
  · exact intact
  rename_i extension account found
  split
  · exact intact
  split
  · exact intact
  obtain ⟨group,owner⟩ := found_parents found
  have members := replaceMembers_intact intact account group owner enlisted.1 enlisted.2
  have replaced : Intact ((d.replaceMembers ev account).sendProfile ev authuser endpoint).tables :=
    sendProfile_intact members authuser endpoint
  simp only [notifyMembers]
  split
  · exact replaced
  · exact foldl_kept (P := fun after => Intact after.tables) _ _
      (fun _ _ holds => adminMessage_intact holds _ _ _ _ _) replaced

theorem removeDevice_intact (intact : Intact d.tables) (authuser : UString) (endpoint : Int)
    (idle : ∀ row, d.removes ev = .ok row →
      (∀ box ∈ d.tables.outboxes, box.endpoint ≠ row.endpoint) ∧
      ∀ delete ∈ d.tables.deletes, delete.endpoint ≠ row.endpoint) :
    Intact (d.removeDevice ev authuser endpoint).tables := by
  have removed (row : EndpointRow) (found : d.removes ev = .ok row) : Intact
      (((d.emit (.dropEndpoint row.endpoint)).runQuery (·.deleteEndpoint row.endpoint)).sendProfile
        ev authuser endpoint).tables :=
    sendProfile_intact (intact.deleteEndpoint row.endpoint (idle row found).1 (idle row found).2) _ _
  simp only [removeDevice]
  split
  · exact intact
  rename_i allowed
  split
  · exact intact
  rename_i label named
  split
  · exact intact
  rename_i other
  split
  · exact intact
  · rename_i row known
    exact removed row (by simp only [removes,if_neg allowed,named,if_neg other,known])

theorem sendRoster_intact (intact : Intact d.tables) (endpoint : Int) :
    Intact (d.sendRoster ev endpoint).tables := by
  refine intact.withDeletes fun row member => ?_
  obtain ⟨old,known,rfl⟩ := List.mem_map.mp member
  refine ⟨old,known,?_⟩
  split <;> rfl

theorem sendPending_intact (intact : Intact d.tables) (endpoint : Int) :
    Intact (d.sendPending ev endpoint).tables := by
  have told : Intact { d.tables with deletes := d.tables.deletes.filter fun row =>
      !(row.delstatus = 1 && row.endpoint = endpoint) } :=
    intact.withDeletes fun row member => ⟨row,(List.mem_filter.mp member).1,rfl⟩
  simp only [sendPending]
  split
  · exact told.setStatus _ _
  · exact told.setStatus _ _

theorem lastAccess_intact (intact : Intact d.tables) (endpoint timestamp : Int) (agent : UString)
    (deviceKey : List UInt8) (uri : UString) :
    Intact (d.lastAccess endpoint timestamp agent deviceKey uri).tables :=
  intact.updateEndpoint endpoint (fun row => { row with
    lastaccess := timestamp
    lasturi := uri
    devkey := if deviceKey = [] then row.devkey else deviceKey
    agent }) (fun _ => rfl) fun _ => rfl

theorem insertDeletes_intact (intact : Intact d.tables) (auth : UString) (created : Int)
    (rows : List EndpointRow) (known : ∀ row ∈ rows, row ∈ d.tables.endpoints) :
    Intact (rows.foldl (fun d row => d.runQuery (·.insertDelete
      { authname := auth, endpoint := row.endpoint, created })) d).tables := by
  induction rows generalizing d with
  | nil => exact intact
  | cons row rest ih =>
    have endpoint : d.tables.hasEndpoint row.endpoint = true :=
      hasEndpoint_iff.mpr ⟨row,known row List.mem_cons_self,rfl⟩
    have inserted := intact.insertDelete { authname := auth, endpoint := row.endpoint, created } endpoint
    rw [List.foldl_cons]
    refine ih inserted fun other listed => ?_
    have stored := known other (List.mem_cons_of_mem _ listed)
    simpa only [runQuery_tables,insertDelete,if_pos (intact.accepts _)] using stored

/-- The account that a sysadmin has removed. -/
def deletes (d : Database) (ev : Event) : Option AuthorizeRow :=
  if d.tables.isSysadmin ev.number then
    (d.tables.account? (UString.unquote (ev.toUser.getD []))).filter fun account =>
      UString.toUpper account.authtype ≠ "SYSTEM"
  else none

theorem removeAuthorization_intact (intact : Intact d.tables)
    (unused : ∀ account, d.deletes ev = some account →
      (∀ row ∈ d.tables.extensions, row.authname ≠ account.authname) ∧
      (∀ row ∈ d.tables.admin, row.authname ≠ account.authname) ∧
      ∀ row ∈ d.tables.calling, row.authname ≠ account.authname) :
    Intact (Authorize.removeAuthorization d ev).tables := by
  simp only [Authorize.removeAuthorization]
  split
  · exact intact
  rename_i sysadmin
  split
  · exact intact
  rename_i account known
  split
  · exact intact
  rename_i ordinary
  have chosen : d.deletes ev = some account := by simp [deletes,sysadmin,known,ordinary]
  obtain ⟨member,named⟩ := account?_eq_some.mp known
  obtain ⟨extensions,admin,calling⟩ := unused account chosen
  rw [named] at extensions admin calling
  have deleted : Intact (d.tables.deleteAuthorize (UString.unquote (ev.toUser.getD []))) := by
    refine intact.deleteAuthorize _ (fun row stored same => ?_) extensions admin calling
    rw [Table.unique stored member (same.trans named.symm)]
    exact ordinary
  refine insertDeletes_intact (d := (d.reply ev Sip.ok).runQuery (·.deleteAuthorize _)) deleted _ _ _
    fun row listed => (Serial.mem_select.mp listed).1

theorem copyRows_intact {t : Tables} (intact : Intact t) (target : Int)
    (endpoint : t.hasEndpoint target = true) (rows : List OutboxRow)
    (messages : ∀ row ∈ rows, t.hasMessage row.mid = true) : Intact (copyRows target rows t) := by
  induction rows generalizing t with
  | nil => exact intact
  | cons row rest ih =>
    have message := messages row List.mem_cons_self
    have left : ∀ row ∈ rest, t.hasMessage row.mid = true := fun row listed =>
      messages row (List.mem_cons_of_mem _ listed)
    simp only [copyRows]
    split
    · have copied : t.insertOutbox { mid := row.mid, endpoint := target } =
          { t with outboxes := t.outboxes.insert { mid := row.mid, endpoint := target } } := by
        rw [insertOutbox,if_pos (intact.accepts _)]
      rw [copied]
      exact ih (intact.outbox { mid := row.mid, endpoint := target } endpoint message) endpoint left
    split
    · exact intact
    · exact ih intact endpoint left

/-- What the one thread of a file database runs, for a signal or by itself. `rows` is the
order in which a copy reads its source. -/
inductive Task where
  | handle (signal : Signal) (rows : List OutboxRow)
  | localMessage (ev : Event)
  | messageResponse (mid ep : UString) (status : Int)
  | cleanupMessages (retention : Int)

/-- On the one thread the outbox request of a slot is a call. -/
def serveOutbox (d : Database) (rows : List OutboxRow) : Option Database :=
  match d.copies with
  | [] => some d
  | .copy source target :: rest =>
    if rows.Perm (d.tables.outboxes.select fun row => row.endpoint = source) then
      some ({ d with copies := rest }.copyOutbox target rows)
    else none
  | .sync endpoint :: rest => some ({ d with copies := rest }.syncOutbox endpoint)

def perform (d : Database) : Task → Option Database
  | .handle signal rows => (d.handle signal).serveOutbox rows
  | .localMessage ev => some (d.localMessage ev)
  | .messageResponse mid ep status => some (d.messageResponse mid ep status)
  | .cleanupMessages retention => some (d.cleanupMessages retention)

/-- A task that names rows which are there, and deletes none that others refer to. -/
def Spares (d : Database) : Task → Prop
  | .handle (.removeAuthorize ev) _ => ∀ account, d.deletes ev = some account →
    (∀ row ∈ d.tables.extensions, row.authname ≠ account.authname) ∧
    (∀ row ∈ d.tables.admin, row.authname ≠ account.authname) ∧
    ∀ row ∈ d.tables.calling, row.authname ≠ account.authname
  | .handle (.removeDevice ev _ _) _ => ∀ row, d.removes ev = .ok row →
    (∀ box ∈ d.tables.outboxes, box.endpoint ≠ row.endpoint) ∧
    ∀ delete ∈ d.tables.deletes, delete.endpoint ≠ row.endpoint
  | .handle (.changeCoverage ev authuser _) _ => ∀ account priority,
    d.covers ev = .ok (account,priority) → account.authname ≠ authuser → priority ≠ -1 →
      d.tables.hasExtension ev.number = true
  | .handle (.changeMembership ev _ _) _ => d.Enlisted ev
  | .cleanupMessages retention => ∀ box ∈ d.tables.outboxes, ∀ message ∈ d.tables.messages,
    message.mid = box.mid → d.clock - retention * day ≤ message.posted
  | _ => True

theorem serveOutbox_intact {rows : List OutboxRow} (intact : Intact d.tables)
    (endpoints : ∀ source target rest, d.copies = .copy source target :: rest →
      d.tables.hasEndpoint target = true)
    (served : d.serveOutbox rows = some after) : Intact after.tables := by
  simp only [serveOutbox] at served
  split at served
  · obtain rfl := Option.some.inj served
    exact intact
  · rename_i source target rest requested
    split at served
    · rename_i listing
      obtain rfl := Option.some.inj served
      refine copyRows_intact intact target (endpoints _ _ _ requested) rows fun row member => ?_
      exact (intact.outboxes row (Table.mem_select.mp (listing.subset member)).1).2
    · contradiction
  · obtain rfl := Option.some.inj served
    exact intact.setStatus _ _

theorem findEndpoint_intact (intact : Intact d.tables) (idle : d.copies = []) :
    let found := Authorize.findEndpoint d ev
    Intact found.tables ∧ ∀ source target rest, found.copies = .copy source target :: rest →
      found.tables.hasEndpoint target = true := by
  intro found
  rcases History.findEndpoint_boxes d ev with ⟨tables,copies⟩ | ⟨endpoint,tables,copies⟩ |
    ⟨extension,vacant,tables,copies⟩
  · refine ⟨?_,fun source target rest requested => ?_⟩
    · exact tables ▸ intact
    · simp [found,copies,idle] at requested
  · refine ⟨?_,fun source target rest requested => ?_⟩
    · exact tables ▸ intact
    · simp [found,copies,idle] at requested
  · refine ⟨?_,fun source target rest requested => ?_⟩
    · exact tables ▸ intact.insertEndpoint _ _ _ extension
    · have made := (mem_insertEndpoint d.clock extension vacant _).mpr (.inr rfl)
      have stored := endpoint?_eq_some.mpr ⟨made,rfl⟩
      simp only [found,copies,idle,stored,List.nil_append,List.cons.injEq,OutboxRequest.copy.injEq]
        at requested
      obtain ⟨⟨-,rfl⟩,-⟩ := requested
      rw [tables]
      exact hasEndpoint_iff.mpr ⟨_,made,rfl⟩

structure Sound (d : Database) : Prop where
  intact : Intact d.tables
  direct : d.copies = []

theorem serveOutbox_direct {rows : List OutboxRow} (single : d.copies.length ≤ 1)
    (served : d.serveOutbox rows = some after) : after.copies = [] := by
  simp only [serveOutbox] at served
  split at served
  · rename_i none
    obtain rfl := Option.some.inj served
    exact none
  · rename_i source target rest requested
    split at served
    · obtain rfl := Option.some.inj served
      have last : rest = [] := by simpa [requested] using single
      exact last
    · contradiction
  · rename_i endpoint rest requested
    obtain rfl := Option.some.inj served
    have last : rest = [] := by simpa [requested] using single
    exact last

theorem handle_intact (sound : d.Sound) (signal : Signal) (rows : List OutboxRow)
    (spares : d.Spares (.handle signal rows)) : Intact (d.handle signal).tables := by
  have intact := sound.intact
  cases signal with
  | findEndpoint ev => exact (findEndpoint_intact intact sound.direct).1
  | removeAuthorize ev => exact removeAuthorization_intact intact spares
  | changeAuthorize ev => exact changeAuthorize_intact intact
  | changeTopic ev => exact changeTopic_intact intact
  | sendDevlist ev => exact intact
  | sendRoster ev endpoint => exact sendRoster_intact intact endpoint
  | sendPending ev endpoint => exact sendPending_intact intact endpoint
  | changePending endpoint => exact intact.setStatus _ _
  | removeDevice ev authuser endpoint => exact removeDevice_intact intact _ _ spares
  | changeForwarding ev authuser endpoint => exact changeForwarding_intact intact _ _
  | changeCoverage ev authuser endpoint => exact changeCoverage_intact intact _ _ spares
  | dropExtension ev authuser endpoint => exact dropExtension_intact intact _ _
  | changeAdmin ev authuser endpoint => exact changeAdmin_intact intact _ _
  | changeMembership ev authuser endpoint => exact changeMembership_intact intact _ _ spares
  | changeProfile ev authuser endpoint => exact sendProfile_intact intact _ _
  | lastAccess endpoint timestamp agent deviceKey uri => exact lastAccess_intact intact _ _ _ _ _

/-- A slot other than a lookup is all that its signal runs. -/
theorem perform_slot (direct : d.copies = []) (signal : Signal) (rows : List OutboxRow)
    (other : ∀ ev, signal ≠ .findEndpoint ev) :
    d.perform (.handle signal rows) = some (d.handle signal) := by
  have copies := (kept_copies []).handle direct signal other
  simp only [perform,serveOutbox,copies]

theorem perform_sound (sound : d.Sound) (task : Task) (spares : d.Spares task)
    (done : d.perform task = some after) : after.Sound := by
  cases task with
  | handle signal rows =>
    have kept := handle_intact sound signal rows spares
    by_cases lookup : ∃ ev, signal = .findEndpoint ev
    · obtain ⟨ev,rfl⟩ := lookup
      have calls := (History.findEndpoint_calls d ev).2
      rw [sound.direct] at calls
      exact ⟨serveOutbox_intact kept (findEndpoint_intact sound.intact sound.direct).2 done,
        serveOutbox_direct calls done⟩
    · have other : ∀ ev, signal ≠ .findEndpoint ev := fun ev here => lookup ⟨ev,here⟩
      rw [perform_slot sound.direct signal rows other] at done
      obtain rfl := Option.some.inj done
      exact ⟨kept,(kept_copies []).handle sound.direct signal other⟩
  | localMessage ev =>
    obtain rfl := Option.some.inj done
    exact ⟨localMessage_intact sound.intact,(kept_copies []).localMessage sound.direct ev⟩
  | messageResponse mid ep status =>
    obtain rfl := Option.some.inj done
    exact ⟨sound.intact.setStatus _ _,sound.direct⟩
  | cleanupMessages retention =>
    obtain rfl := Option.some.inj done
    exact ⟨sound.intact.deleteMessages _ spares,sound.direct⟩

end Database

def founded (clock : Int) : Tables :=
  let account (name type access : UString) : AuthorizeRow :=
    { authname := name, authtype := type, authaccess := access, created := clock }
  ({ enforced := enforcesKeys sqlitePragmas } : Tables)
    |>.insertAuthorize (account "system" "SYSTEM" "LOCAL")
    |>.insertAuthorize (account "nobody" "SYSTEM" "LOCAL")
    |>.insertAuthorize (account "anonymous" "SYSTEM" "DISABLED")
    |>.insertAuthorize (account "operators" "SYSTEM" "PILOT")
    |>.insertExtension { extnbr := 0, authname := "operators", display := "Operators" }

def sqlitePreload (clock : Int) (t : Tables) : Tables :=
  t.insertAuthorize {
      authname := "test1"
      authdigest := "MD5"
      realm := "testing"
      secret := "74d0a5bd38ed78708aacb9f056e40120"
      fullname := "Test User #1"
      created := clock }
    |>.insertAuthorize {
      authname := "test2"
      authdigest := "MD5"
      realm := "testing"
      secret := "6d292c665b1ed72b8bfdbb5d45173d98"
      fullname := "Test User #2"
      authaccess := "REMOTE"
      email := "test2@localhost"
      created := clock }
    |>.insertAuthorize {
      authname := "test"
      fullname := "Test Group"
      authtype := "GROUP"
      created := clock }
    |>.insertExtension { extnbr := 100, authname := "test" }
    |>.insertExtension { extnbr := 101, authname := "test1" }
    |>.insertExtension { extnbr := 102, authname := "test2" }
    |>.insertEndpoint 101 "NONE" clock
    |>.insertEndpoint 102 "NONE" clock
    |>.insertGroup { grpnbr := 100, extnbr := 101 }
    |>.insertGroup { grpnbr := 100, extnbr := 102 }
    |>.insertAdmin { authname := "system", extnbr := 101 }
    |>.insertAdmin { authname := "test", extnbr := 101 }

/-- A server on a file that is not there yet. -/
def Database.create (d : Database) (preloaded : Bool) : Database :=
  let t := founded d.clock
  { d with tables := if preloaded then sqlitePreload d.clock t else t, copies := [] }

theorem unenforced : enforcesKeys sqlitePragmas = false := by decide

theorem founded_intact (clock : Int) : Intact (founded clock) := by
  have first : Intact (({} : Tables).insertAuthorize
      { authname := "system", authtype := "SYSTEM", created := clock }) := {
    extensions := fun _ member => absurd member Table.not_mem_empty
    endpoints := fun _ member => absurd member Table.not_mem_empty
    groups := fun _ member => absurd member Table.not_mem_empty
    admin := fun _ member => absurd member List.not_mem_nil
    calling := fun _ member => absurd member List.not_mem_nil
    outboxes := fun _ member => absurd member Table.not_mem_empty
    deletes := fun _ member => absurd member List.not_mem_nil
    files := rfl
    system := by
      refine ⟨_,Table.mem_insert.mpr (.inr ⟨Table.admits_iff.mpr fun _ member => ?_,rfl⟩),rfl,?_⟩
      · exact absurd member Table.not_mem_empty
      · change UString.toUpper "SYSTEM" = "SYSTEM"
        decide }
  simp only [founded,unenforced]
  refine Intact.insertExtension ?_ _ (hasAccount_insertAuthorize.mpr (.inr rfl))
  exact ((first.insertAuthorize _).insertAuthorize _).insertAuthorize _

theorem sqlitePreload_intact {t : Tables} (intact : Intact t) (clock : Int) :
    Intact (sqlitePreload clock t) := by
  have enforced (row : AuthorizeRow) (t : Tables) : (t.insertAuthorize row).enforced = t.enforced := rfl
  simp only [sqlitePreload]
  refine Intact.insertAdmin ?_ _ ?_ ?_
  refine Intact.insertAdmin ?_ _ ?_ ?_
  refine Intact.insertGroup ?_ _ ?_ ?_
  refine Intact.insertGroup ?_ _ ?_ ?_
  refine Intact.insertEndpoint ?_ _ _ _ ?_
  refine Intact.insertEndpoint ?_ _ _ _ ?_
  refine Intact.insertExtension ?_ _ ?_
  refine Intact.insertExtension ?_ _ ?_
  refine Intact.insertExtension ?_ _ ?_
  · exact ((intact.insertAuthorize _).insertAuthorize _).insertAuthorize _
  all_goals simp only [(insertAdmin_parents _ _).1,(insertAdmin_parents _ _).2,
    (insertGroup_parents _ _).1,(insertGroup_parents _ _).2,(insertEndpoint_parents _ _ _ _).1,
    (insertEndpoint_parents _ _ _ _).2,hasAccount_insertExtension,hasAccount_insertAuthorize,
    hasExtension_insertExtension,insertExtension_enforced,accepts,intact.files,intact.hasSystem,
    enforced,Bool.not_false,Bool.true_or,or_true,true_or]

namespace Database

variable {d final : Database} {trace : List (Transition.Edge Database Task)}

theorem create_sound (d : Database) (preloaded : Bool) : (d.create preloaded).Sound := by
  refine ⟨?_,rfl⟩
  simp only [create]
  split
  · exact sqlitePreload_intact (founded_intact _) _
  · exact founded_intact _

def owner (ev : Event) : UString := if ev.json "a" ≠ [] then ev.json "a" else ev.json "e"

/-- An account to be made has a new name, one to be extended is there. -/
def Ownable (d : Database) (ev : Event) : Prop :=
  owner ev ≠ [] ∧ d.tables.hasAccount (owner ev) = decide (ev.json "a" = [])

/-- The extension is made, and the request answered with it. -/
structure Extended (d after : Database) (ev : Event) : Prop where
  answered : after.wire = d.wire ++ [.reply ev Sip.ok]
  made : ∃ row ∈ after.tables.extensions, row.extnbr = target ev ∧ row.authname = owner ev

/-- A number that no account has an extension at can be given to one by a sysadmin. -/
def Creatable (d : Database) : Prop :=
  ∀ ev, d.inRange (target ev) = true → d.tables.isSysadmin ev.number = true → d.Ownable ev →
    (∀ row ∈ d.tables.extensions, row.extnbr = target ev → d.tables.hasAccount row.authname = false) →
    Extended d (d.changeAuthorize ev) ev

theorem Sound.creatable (sound : d.Sound) : d.Creatable := by
  intro ev planned sysadmin ⟨named,known⟩ vacated
  have vacant : d.tables.hasExtension (target ev) = false := by
    by_contra taken
    obtain ⟨row,member,number⟩ := hasExtension_iff.mp (by simpa using taken)
    have account := sound.intact.extensions row member
    rw [vacated row member number] at account
    contradiction
  have made {t : Tables} (intact : Intact t) (same : t.extensions = d.tables.extensions)
      {user : UString} (owned : user = owner ev) :
      ∃ row ∈ (t.insertExtension { extnbr := target ev, authname := user }).extensions,
        row.extnbr = target ev ∧ row.authname = owner ev := by
    refine ⟨{ extnbr := target ev, authname := user },?_,rfl,owned⟩
    rw [insertExtension,if_pos (intact.accepts _)]
    refine Table.mem_insert.mpr (.inr ⟨Table.admits_iff.mpr fun old member taken => ?_,rfl⟩)
    have here := hasExtension_iff.mpr ⟨old,same ▸ member,taken⟩
    rw [vacant] at here
    contradiction
  have kept (t : Tables) (number created : Int) (label : UString) :
      (t.insertEndpoint number label created).extensions = t.extensions :=
    (Authorize.insertEndpoint_accounts t number label created).1
  simp only [changeAuthorize,planned,sysadmin,vacant,Bool.true_eq_false,Bool.false_eq_true,if_false,
    if_true,Bool.false_or]
  split
  · rename_i new
    have user : owner ev = ev.json "a" := if_pos new
    rw [user,decide_eq_false new] at known
    rw [if_neg (by simp [known])]
    split
    · exact ⟨rfl,made (sound.intact.insertAuthorize _) rfl user.symm⟩
    · refine ⟨rfl,?_⟩
      obtain ⟨row,member,here⟩ := made (sound.intact.insertAuthorize _) rfl user.symm
      exact ⟨row,(kept _ _ _ _).symm ▸ member,here⟩
  · rename_i old
    have user : owner ev = ev.json "e" := if_neg old
    rw [user] at known named
    rw [if_neg (by simp [known,not_not.mp old]),if_neg named]
    refine ⟨rfl,?_⟩
    obtain ⟨row,member,here⟩ := made sound.intact rfl user.symm
    exact ⟨row,(kept _ _ _ _).symm ▸ member,here⟩

/-- In every run from a new file whose tasks spare the rows that others refer to, each row
refers to rows that are there, and a number without an account can be created. -/
theorem references_intact (d : Database) (preloaded : Bool)
    (run : Transition.Run perform (d.create preloaded) trace final)
    (spared : ∀ edge ∈ trace, edge.source.Spares edge.action) :
    Referential final.tables ∧ final.Creatable := by
  have sound : final.Sound := run.invariant_of Sound Spares
    (fun _ _ _ sound spares done => perform_sound sound _ spares done) (create_sound d preloaded) spared
  exact ⟨sound.intact.toReferential,sound.creatable⟩

/-- The sysadmin of the preloaded file removes the user of extension 102. -/
def removal : Event := { Site.request "X-DEAUTHORIZE" with toUser := some "test2", toLocal := true }

def creation (number : UString) : Event :=
  { Site.request "X-AUTHORIZE" with
    toUser := some number
    toLocal := true
    contentType := "authorize/json"
    body := "\x7b\"a\":\"test3\"\x7d"
    members := [("a","test3")] }

theorem removal_dangles :
    (¬∀ (d : Database) (preloaded : Bool) (trace : List (Transition.Edge Database Task)) (final : Database),
      Transition.Run perform (d.create preloaded) trace final → Referential final.tables) ∧
    ¬∀ (d : Database) (preloaded : Bool) (trace : List (Transition.Edge Database Task)) (final : Database),
      Transition.Run perform (d.create preloaded) trace final → final.Creatable := by
  have done : (({} : Database).create true).perform (.handle (.removeAuthorize removal) []) =
      some ((({} : Database).create true).handle (.removeAuthorize removal)) :=
    perform_slot rfl _ _ (by simp)
  have run : Transition.Run perform (({} : Database).create true) _ _ := .next .start done
  have gone : ((({} : Database).create true).handle (.removeAuthorize removal)).tables.hasAccount
      "test2" = false := by
    decide +kernel
  refine ⟨fun referential => ?_,fun creatable => ?_⟩
  · have stays : { extnbr := 102, authname := "test2" } ∈ ((({} : Database).create true).handle
        (.removeAuthorize removal)).tables.extensions := by
      decide +kernel
    have account := (referential _ _ _ _ run).extensions _ stays
    rw [gone] at account
    contradiction
  · have extended := creatable _ _ _ _ run (creation "102") (by decide +kernel) (by decide +kernel)
      ⟨by decide +kernel,by decide +kernel⟩ (by decide +kernel)
    have answered := extended.answered
    revert answered
    decide +kernel

def coverRequest : Event :=
  { Site.request "X-COVERAGE" with
    toUser := some "103"
    toLocal := true
    headers := [("x-priority","2")] }

def created : Database := (({} : Database).create true).handle (.changeAuthorize (creation "103"))

def covered : Database := created.handle (.changeCoverage coverRequest "test1" 1)

/-- The number next to the preloaded ones is created and covered from a number that is there. -/
theorem references_intact_created :
    { authname := "test3", extnbr := 101, extpriority := 2 } ∈ covered.tables.calling ∧
    Referential covered.tables ∧ covered.Creatable := by
  have first : (({} : Database).create true).perform (.handle (.changeAuthorize (creation "103")) []) = some created :=
    perform_slot rfl _ _ (by simp)
  have second : created.perform (.handle (.changeCoverage coverRequest "test1" 1) []) = some covered :=
    perform_slot (by decide +kernel) _ _ (by simp)
  have run : Transition.Run perform (({} : Database).create true) _ _ := .next (.next .start first) second
  refine ⟨by decide +kernel,references_intact {} true run fun edge member => ?_⟩
  rcases List.mem_cons.mp member with rfl | last
  · trivial
  · rw [List.mem_singleton.mp last]
    have here : created.tables.hasExtension coverRequest.number = true := by decide +kernel
    exact fun _ _ _ _ _ => here

end Database

end SipWitch
