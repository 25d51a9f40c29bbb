import SipWitch.Table
import SipWitch.UString

/-! The database schema and the statements the server runs on it. Text columns that
are NULL read as empty text. The file driver leaves foreign keys unenforced; with a
networked one a row whose parents are missing is refused, and goes with its parents. -/
namespace SipWitch

structure AuthorizeRow where
  authname : UString
  authtype : UString := "USER"
  authdigest : UString := "NONE"
  created : Int := 0
  realm : UString := []
  secret : UString := []
  authaccess : UString := "LOCAL"
  email : UString := []
  fullname : UString := []
  fwdaway : Int := -1
  fwdbusy : Int := -1
  fwdnoanswer : Int := -1
  deriving DecidableEq

structure ExtensionRow where
  extnbr : Int
  authname : UString := "@nobody"
  extpriority : Int := 0
  display : UString := []
  pubkey : List UInt8 := []
  deriving DecidableEq

structure EndpointRow where
  endpoint : Int
  extnbr : Int
  label : UString := "NONE"
  agent : UString := []
  devkey : List UInt8 := []
  created : Int := 0
  lastaccess : Int := 0
  lasturi : UString := []
  deriving DecidableEq

/-- The endpoint of a client device; the others are the archives of their extensions. -/
def EndpointRow.labelled (row : EndpointRow) : Bool := row.label ≠ "NONE"

def EndpointRow.key (row : EndpointRow) : Int × UString := (row.extnbr,row.label)

structure DeleteRow where
  authname : UString
  delstatus : Int := 0
  endpoint : Int
  created : Int
  deriving DecidableEq

structure SpeedRow where
  authname : UString
  target : UString
  extnbr : Int
  deriving DecidableEq

structure CallingRow where
  authname : UString
  extnbr : Int
  extpriority : Int := 0
  deriving DecidableEq

structure AdminRow where
  authname : UString
  extnbr : Int
  deriving DecidableEq

structure GroupRow where
  grpnbr : Int
  extnbr : Int
  extpriority : Int := 0
  deriving DecidableEq

def GroupRow.key (row : GroupRow) : Int × Int := (row.grpnbr,row.extnbr)

structure MessageRow where
  mid : Int
  msgseq : Int
  msgfrom : UString
  msgto : UString
  subject : UString
  display : UString
  posted : Int
  msgtype : UString
  msgtext : UString
  expires : Int
  deriving DecidableEq

structure OutboxRow where
  mid : Int
  endpoint : Int
  msgstatus : Int := 0
  deriving DecidableEq

def OutboxRow.key (row : OutboxRow) : Int × Int := (row.endpoint,row.mid)

structure Tables where
  authorize : Table AuthorizeRow UString AuthorizeRow.authname := default
  extensions : Table ExtensionRow Int ExtensionRow.extnbr := default
  endpoints : Serial EndpointRow (Int × UString) EndpointRow.key EndpointRow.endpoint := .empty
  deletes : List DeleteRow := []
  speeds : List SpeedRow := []
  calling : List CallingRow := []
  admin : List AdminRow := []
  groups : Table GroupRow (Int × Int) GroupRow.key := default
  messages : Serial MessageRow Int MessageRow.mid MessageRow.mid := .empty
  outboxes : Table OutboxRow (Int × Int) OutboxRow.key := default
  /-- Foreign keys are enforced. -/
  enforced : Bool := false

namespace Tables

variable (t : Tables)

def account? (authname : UString) : Option AuthorizeRow :=
  t.authorize.rows.find? fun row => row.authname = authname

def extension? (extnbr : Int) : Option ExtensionRow :=
  t.extensions.rows.find? fun row => row.extnbr = extnbr

def endpoint? (extnbr : Int) (label : UString) : Option EndpointRow :=
  t.endpoints.rows.find? fun row => row.extnbr = extnbr && row.label = label

def profile? (extnbr : Int) : Option (ExtensionRow × AuthorizeRow) := do
  let extension ← t.extension? extnbr
  let account ← t.account? extension.authname
  return (extension,account)

def isAdmin (authname : UString) (extnbr : Int) : Bool :=
  t.admin.any fun row => row.authname = authname && row.extnbr = extnbr

def isSysadmin (extnbr : Int) : Bool := t.isAdmin "system" extnbr

def isMember (grpnbr extnbr : Int) : Bool :=
  t.groups.rows.any fun row => row.grpnbr = grpnbr && row.extnbr = extnbr

def endpointsOf (extnbr : Int) : List EndpointRow := t.endpoints.select fun row => row.extnbr = extnbr

def hasAccount (authname : UString) : Bool := (t.account? authname).isSome
def hasExtension (extnbr : Int) : Bool := (t.extension? extnbr).isSome
def hasEndpoint (endpoint : Int) : Bool := t.endpoints.rows.any fun row => row.endpoint = endpoint
def hasMessage (mid : Int) : Bool := t.messages.rows.any fun row => row.mid = mid

/-- A row is accepted when its foreign keys have parents or are not enforced. -/
def accepts (parents : Bool) : Bool := !t.enforced || parents

def insertAuthorize (row : AuthorizeRow) : Tables := { t with authorize := t.authorize.insert row }

def insertExtension (row : ExtensionRow) : Tables :=
  if t.accepts (t.hasAccount row.authname) then { t with extensions := t.extensions.insert row }
  else t

def insertEndpoint (extnbr : Int) (label : UString) (created : Int) : Tables :=
  if t.accepts (t.hasExtension extnbr) then
    { t with
      endpoints := t.endpoints.insert
        (fun endpoint => { endpoint, extnbr, label, created }) rfl }
  else t

def insertDelete (row : DeleteRow) : Tables :=
  if t.accepts (t.hasEndpoint row.endpoint) then { t with deletes := t.deletes ++ [row] } else t

def insertCalling (row : CallingRow) : Tables :=
  if t.accepts (t.hasAccount row.authname && t.hasExtension row.extnbr) then
    { t with calling := t.calling ++ [row] }
  else t

def insertAdmin (row : AdminRow) : Tables :=
  if t.accepts (t.hasAccount row.authname && t.hasExtension row.extnbr) then
    { t with admin := t.admin ++ [row] }
  else t

def insertGroup (row : GroupRow) : Tables :=
  if t.accepts (t.hasExtension row.grpnbr && t.hasExtension row.extnbr) then
    { t with groups := t.groups.insert row }
  else t

def insertMessage (row : MessageRow) : Tables :=
  { t with messages := t.messages.insert (fun mid => { row with mid }) rfl }

def insertOutbox (row : OutboxRow) : Tables :=
  if t.accepts (t.hasMessage row.mid && t.hasEndpoint row.endpoint) then
    { t with outboxes := t.outboxes.insert row }
  else t

/-- The parent that a row had is there no more. -/
def lostAccount (was : Tables) (authname : UString) : Bool :=
  was.hasAccount authname && !t.hasAccount authname
def lostExtension (was : Tables) (extnbr : Int) : Bool :=
  was.hasExtension extnbr && !t.hasExtension extnbr
def lostEndpoint (was : Tables) (endpoint : Int) : Bool :=
  was.hasEndpoint endpoint && !t.hasEndpoint endpoint
def lostMessage (was : Tables) (mid : Int) : Bool := was.hasMessage mid && !t.hasMessage mid

/-- `ON DELETE CASCADE`, from the accounts down. -/
def cascade (was : Tables) : Tables :=
  let t := { t with extensions := t.extensions.delete fun row => t.lostAccount was row.authname }
  let t := { t with endpoints := t.endpoints.delete fun row => t.lostExtension was row.extnbr }
  { t with
    deletes := t.deletes.filter fun row => !t.lostEndpoint was row.endpoint
    speeds := t.speeds.filter fun row => !t.lostAccount was row.authname
    calling := t.calling.filter fun row =>
      !(t.lostAccount was row.authname || t.lostExtension was row.extnbr)
    admin := t.admin.filter fun row =>
      !(t.lostAccount was row.authname || t.lostExtension was row.extnbr)
    groups := t.groups.delete fun row =>
      t.lostExtension was row.grpnbr || t.lostExtension was row.extnbr
    outboxes := t.outboxes.delete fun row =>
      t.lostMessage was row.mid || t.lostEndpoint was row.endpoint }

def sweep (was : Tables) : Tables := if t.enforced then t.cascade was else t

def deleteAuthorize (authname : UString) : Tables :=
  sweep { t with authorize := t.authorize.delete fun row => row.authname = authname } t

def deleteEndpoint (endpoint : Int) : Tables :=
  sweep { t with endpoints := t.endpoints.delete fun row => row.endpoint = endpoint } t

def deleteMessages (before : Int) : Tables :=
  sweep { t with messages := t.messages.delete fun row => row.posted < before } t

def updateAuthorize (authname : UString) (change : AuthorizeRow → AuthorizeRow)
    (same : ∀ row, (change row).authname = row.authname) : Tables :=
  { t with
    authorize := t.authorize.update
      (fun row => if row.authname = authname then change row else row)
      (by intro row; split <;> simp [same]) }

def updateExtension (extnbr : Int) (change : ExtensionRow → ExtensionRow)
    (same : ∀ row, (change row).extnbr = row.extnbr) : Tables :=
  { t with
    extensions := t.extensions.update
      (fun row => if row.extnbr = extnbr then change row else row)
      (by intro row; split <;> simp [same]) }

def updateEndpoint (endpoint : Int) (change : EndpointRow → EndpointRow)
    (same : ∀ row, (change row).key = row.key)
    (numbered : ∀ row, (change row).endpoint = row.endpoint) : Tables :=
  { t with
    endpoints := t.endpoints.update
      (fun row => if row.endpoint = endpoint then change row else row)
      (by intro row; split <;> simp [same]) (by intro row; split <;> simp [numbered]) }

def setStatus (status : Int) (condition : OutboxRow → Bool) : Tables :=
  { t with
    outboxes := t.outboxes.update
      (fun row => if condition row then { row with msgstatus := status } else row)
      (by intro row; split <;> rfl) }

section Lookup

variable {t : Tables}

theorem account?_eq_some {authname : UString} {row : AuthorizeRow} :
    t.account? authname = some row ↔ row ∈ t.authorize ∧ row.authname = authname := by
  constructor
  · intro found
    exact ⟨List.mem_of_find?_eq_some found,by simpa using List.find?_some found⟩
  · rintro ⟨known,rfl⟩
    cases found : t.account? row.authname with
    | none => simpa using List.find?_eq_none.mp found row known
    | some other =>
      have same : other.authname = row.authname := by simpa using List.find?_some found
      rw [Table.unique (List.mem_of_find?_eq_some found) known same]

theorem extension?_eq_some {extnbr : Int} {row : ExtensionRow} :
    t.extension? extnbr = some row ↔ row ∈ t.extensions ∧ row.extnbr = extnbr := by
  constructor
  · intro found
    exact ⟨List.mem_of_find?_eq_some found,by simpa using List.find?_some found⟩
  · rintro ⟨known,rfl⟩
    cases found : t.extension? row.extnbr with
    | none => simpa using List.find?_eq_none.mp found row known
    | some other =>
      have same : other.extnbr = row.extnbr := by simpa using List.find?_some found
      rw [Table.unique (List.mem_of_find?_eq_some found) known same]

theorem hasAccount_iff {authname : UString} : t.hasAccount authname = true ↔
    ∃ row ∈ t.authorize, row.authname = authname := by
  simp [hasAccount,Option.isSome_iff_exists,account?_eq_some]

theorem hasExtension_iff {extnbr : Int} : t.hasExtension extnbr = true ↔
    ∃ row ∈ t.extensions, row.extnbr = extnbr := by
  simp [hasExtension,Option.isSome_iff_exists,extension?_eq_some]

theorem hasMessage_iff {mid : Int} : t.hasMessage mid = true ↔
    ∃ row ∈ t.messages, row.mid = mid := by
  simp [hasMessage]

theorem hasEndpoint_iff {endpoint : Int} : t.hasEndpoint endpoint = true ↔
    ∃ row ∈ t.endpoints, row.endpoint = endpoint := by
  simp [hasEndpoint]

theorem mem_insertEndpoint {number : Int} {label : UString} (created : Int)
    (extension : t.hasExtension number) (vacant : t.endpoint? number label = none)
    (row : EndpointRow) : row ∈ (t.insertEndpoint number label created).endpoints ↔
      row ∈ t.endpoints ∨ row = { endpoint := t.endpoints.next, extnbr := number, label, created } := by
  have accepted : t.accepts (t.hasExtension number) = true := by simp [accepts,extension]
  have admitted : t.endpoints.table.Admits
      { endpoint := t.endpoints.next, extnbr := number, label, created } := by
    rw [Table.admits_iff]
    intro old known same
    obtain ⟨extnbr,name⟩ := Prod.mk.inj same
    have absent := List.find?_eq_none.mp vacant old known
    simp [extnbr,name] at absent
  simp only [insertEndpoint,accepted,if_true,Serial.mem_insert,admitted,true_and]

theorem endpoint?_eq_some {number : Int} {label : UString} {row : EndpointRow} :
    t.endpoint? number label = some row ↔ row ∈ t.endpoints ∧ row.key = (number,label) := by
  constructor
  · intro found
    have fits := List.find?_some found
    simp only [Bool.and_eq_true,decide_eq_true_eq] at fits
    exact ⟨List.mem_of_find?_eq_some found,Prod.ext fits.1 fits.2⟩
  · rintro ⟨known,key⟩
    cases found : t.endpoint? number label with
    | none =>
      have absent := List.find?_eq_none.mp found row known
      obtain ⟨extnbr,name⟩ := Prod.mk.inj key
      simp [extnbr,name] at absent
    | some other =>
      have fits := List.find?_some found
      simp only [Bool.and_eq_true,decide_eq_true_eq] at fits
      have same : other.key = row.key := (Prod.ext fits.1 fits.2).trans key.symm
      rw [Serial.unique_key (List.mem_of_find?_eq_some found) known same]

theorem insertEndpoint_next (t : Tables) (number : Int) (label : UString) (created : Int) :
    t.endpoints.next ≤ (t.insertEndpoint number label created).endpoints.next := by
  simp only [insertEndpoint,Serial.insert]
  split
  · split
    · exact Int.le_add_one (Int.le_refl _)
    · exact Int.le_refl _
  · exact Int.le_refl _

@[simp] theorem insertEndpoint_outboxes (number : Int) (label : UString) (created : Int) :
    (t.insertEndpoint number label created).outboxes = t.outboxes := by
  simp only [insertEndpoint]
  split <;> rfl

@[simp] theorem insertEndpoint_messages (number : Int) (label : UString) (created : Int) :
    (t.insertEndpoint number label created).messages = t.messages := by
  simp only [insertEndpoint]
  split <;> rfl

@[simp] theorem insertEndpoint_enforced (number : Int) (label : UString) (created : Int) :
    (t.insertEndpoint number label created).enforced = t.enforced := by
  simp only [insertEndpoint]
  split <;> rfl

theorem insertCalling_frame (t : Tables) (row : CallingRow) :
    ∃ calling, t.insertCalling row = { t with calling } := by
  simp only [insertCalling]
  split
  · exact ⟨_,rfl⟩
  · exact ⟨t.calling,rfl⟩

theorem insertAdmin_frame (t : Tables) (row : AdminRow) :
    ∃ admin, t.insertAdmin row = { t with admin } := by
  simp only [insertAdmin]
  split
  · exact ⟨_,rfl⟩
  · exact ⟨t.admin,rfl⟩

theorem insertGroup_frame (t : Tables) (row : GroupRow) :
    ∃ groups, t.insertGroup row = { t with groups } := by
  simp only [insertGroup]
  split
  · exact ⟨_,rfl⟩
  · exact ⟨t.groups,rfl⟩

@[simp] theorem account?_updateAuthorize {authname name : UString}
    {change : AuthorizeRow → AuthorizeRow} {same : ∀ row, (change row).authname = row.authname} :
    (t.updateAuthorize authname change same).account? name =
      (t.account? name).map fun row => if row.authname = authname then change row else row := by
  simp only [account?,updateAuthorize,Table.update,List.find?_map]
  congr 2
  funext row
  by_cases here : row.authname = authname <;> simp [here,same]

@[simp] theorem extension?_updateExtension {extnbr number : Int}
    {change : ExtensionRow → ExtensionRow} {same : ∀ row, (change row).extnbr = row.extnbr} :
    (t.updateExtension extnbr change same).extension? number =
      (t.extension? number).map fun row => if row.extnbr = extnbr then change row else row := by
  simp only [extension?,updateExtension,Table.update,List.find?_map]
  congr 2
  funext row
  by_cases here : row.extnbr = extnbr <;> simp [here,same]

@[simp] theorem profile?_updateAuthorize {authname : UString} {number : Int}
    {change : AuthorizeRow → AuthorizeRow} {same : ∀ row, (change row).authname = row.authname} :
    (t.updateAuthorize authname change same).profile? number = (t.profile? number).map fun row =>
      (row.1,if row.2.authname = authname then change row.2 else row.2) := by
  simp only [profile?,account?_updateAuthorize]
  change (t.extension? number).bind _ = _
  cases t.extension? number with
  | none => rfl
  | some extension => cases owner : t.account? extension.authname <;> simp [owner]

theorem mem_updateAuthorize {name : UString} {change : AuthorizeRow → AuthorizeRow}
    {same : ∀ row, (change row).authname = row.authname} {row : AuthorizeRow} :
    row ∈ (t.updateAuthorize name change same).authorize ↔
      ∃ old ∈ t.authorize, (if old.authname = name then change old else old) = row := by
  simp only [updateAuthorize,Table.mem_update]

theorem mem_updateExtension {number : Int} {change : ExtensionRow → ExtensionRow}
    {same : ∀ row, (change row).extnbr = row.extnbr} {row : ExtensionRow} :
    row ∈ (t.updateExtension number change same).extensions ↔
      ∃ old ∈ t.extensions, (if old.extnbr = number then change old else old) = row := by
  simp only [updateExtension,Table.mem_update]

theorem mem_updateEndpoint {endpoint : Int} {change : EndpointRow → EndpointRow}
    {same : ∀ row, (change row).key = row.key}
    {numbered : ∀ row, (change row).endpoint = row.endpoint} {row : EndpointRow} :
    row ∈ (t.updateEndpoint endpoint change same numbered).endpoints ↔
      ∃ old ∈ t.endpoints, (if old.endpoint = endpoint then change old else old) = row := by
  simp only [updateEndpoint,Serial.mem_update]

theorem mem_setStatus {status : Int} {condition : OutboxRow → Bool} {row : OutboxRow} :
    row ∈ (t.setStatus status condition).outboxes ↔
      ∃ old ∈ t.outboxes, (if condition old then { old with msgstatus := status } else old) = row := by
  simp only [setStatus,Table.mem_update]

/-- A change that the row has already. -/
theorem updateAuthorize_fixed {change : AuthorizeRow → AuthorizeRow}
    {same : ∀ row, (change row).authname = row.authname} {row : AuthorizeRow}
    (known : row ∈ t.authorize) (fixed : change row = row) :
    t.updateAuthorize row.authname change same = t := by
  have unchanged : t.authorize.update
      (fun other => if other.authname = row.authname then change other else other)
      (by intro other; split <;> simp [same]) = t.authorize := by
    refine Table.update_fixed fun other member => ?_
    split
    · rename_i here
      rw [Table.unique member known here,fixed]
    · rfl
  simp only [updateAuthorize,unchanged]

/-- Without a device the rows of other parents stay. -/
theorem deleteEndpoint_frame (t : Tables) (endpoint : Int) :
    (t.deleteEndpoint endpoint).authorize = t.authorize ∧
    (t.deleteEndpoint endpoint).extensions = t.extensions ∧
    (t.deleteEndpoint endpoint).admin = t.admin ∧
    (t.deleteEndpoint endpoint).groups = t.groups := by
  have account (name : UString) (t' : Tables) (same : t'.authorize = t.authorize) :
      t'.lostAccount t name = false := by
    simp [lostAccount,hasAccount,account?,same]
  have extension (number : Int) (t' : Tables) (same : t'.extensions = t.extensions) :
      t'.lostExtension t number = false := by
    simp [lostExtension,hasExtension,extension?,same]
  have kept : (t.extensions.delete fun row => Tables.lostAccount
      { t with endpoints := t.endpoints.delete fun row => row.endpoint = endpoint } t row.authname) =
      t.extensions :=
    Table.delete_none fun row _ => account row.authname _ rfl
  simp only [deleteEndpoint,sweep]
  split
  · simp only [cascade,kept]
    refine ⟨trivial,trivial,?_,?_⟩
    · refine List.filter_eq_self.mpr fun row _ => ?_
      simp [account,extension]
    · refine Table.delete_none fun row _ => ?_
      simp [extension]
  · exact ⟨rfl,rfl,rfl,rfl⟩

end Lookup

end Tables

end SipWitch
