import SipWitch.Handlers

/-! What a slot of the database threads can do besides changing the tables. Every slot is
made of answers, statements, signals and roster updates, so a property that these keep is
kept by every slot. -/
namespace SipWitch

open Tables

def Notice.Plain : Notice → Prop
  | .createRegistration .. => False
  | _ => True

namespace Database

variable {d : Database} {ev : Event} {P : Database → Prop}

@[simp] theorem send_tables (output : Output) : (d.send output).tables = d.tables := rfl
@[simp] theorem reply_tables (code : Nat) : (d.reply ev code).tables = d.tables := rfl
@[simp] theorem emit_tables (notice : Notice) : (d.emit notice).tables = d.tables := rfl
@[simp] theorem runQuery_tables (statement : Tables → Tables) :
    (d.runQuery statement).tables = statement d.tables := rfl
@[simp] theorem updateRoster_tables : d.updateRoster.tables = d.tables := rfl
@[simp] theorem request_tables (outbox : OutboxRequest) : (d.request outbox).tables = d.tables := rfl
@[simp] theorem disconnect_tables (rows : List EndpointRow) :
    (d.disconnect rows).tables = d.tables := rfl

@[simp] theorem send_emitted (output : Output) : (d.send output).emitted = d.emitted := rfl
@[simp] theorem reply_emitted (code : Nat) : (d.reply ev code).emitted = d.emitted := rfl
@[simp] theorem runQuery_emitted (statement : Tables → Tables) :
    (d.runQuery statement).emitted = d.emitted := rfl
@[simp] theorem updateRoster_emitted : d.updateRoster.emitted = d.emitted := rfl
@[simp] theorem emit_emitted (notice : Notice) :
    (d.emit notice).emitted = d.emitted ++ [notice] := rfl

@[simp] theorem send_wire (output : Output) : (d.send output).wire = d.wire ++ [output] := rfl
@[simp] theorem reply_wire (code : Nat) : (d.reply ev code).wire = d.wire ++ [.reply ev code] := rfl
@[simp] theorem emit_wire (notice : Notice) : (d.emit notice).wire = d.wire := rfl
@[simp] theorem runQuery_wire (statement : Tables → Tables) :
    (d.runQuery statement).wire = d.wire := rfl
@[simp] theorem updateRoster_wire : d.updateRoster.wire = d.wire := rfl
@[simp] theorem disconnect_wire (rows : List EndpointRow) : (d.disconnect rows).wire = d.wire := rfl

structure Kept (P : Database → Prop) : Prop where
  send : ∀ d output, P d → P (d.send output)
  runQuery : ∀ d statement, P d → P (d.runQuery statement)
  emit : ∀ d notice, Notice.Plain notice → P d → P (d.emit notice)
  updateRoster : ∀ d, P d → P d.updateRoster

/-- A loop of a slot, over rows that it has read. -/
theorem foldl_kept {R : Type} (rows : List R) (run : Database → R → Database)
    (one : ∀ d row, P d → P (run d row)) (holds : P d) : P (rows.foldl run d) := by
  induction rows generalizing d with
  | nil => exact holds
  | cons row rest ih => exact ih (one d row holds)

theorem ite_kept {c : Prop} [Decidable c] {first second : Database} (yes : P first)
    (no : P second) : P (if c then first else second) := by
  split
  · exact yes
  · exact no

def changeSystem (d : Database) (ev : Event) : Database :=
  match ev.header "x-system" with
  | none => d
  | some value =>
    if UString.toBool value then
      d.runQuery (·.insertAdmin { authname := "system", extnbr := target ev })
    else d.runQuery fun t => { t with admin := t.admin.filter fun row =>
      !(row.authname = "system" && row.extnbr = target ev) }

theorem changeSystem_frame (d : Database) (ev : Event) :
    ∃ admin, d.changeSystem ev = { d with tables := { d.tables with admin } } := by
  simp only [changeSystem]
  split
  · exact ⟨d.tables.admin,rfl⟩
  split
  · obtain ⟨admin,inserted⟩ := insertAdmin_frame d.tables { authname := "system", extnbr := target ev }
    exact ⟨admin,by rw [← inserted]; rfl⟩
  · exact ⟨_,rfl⟩

def endpointsOfUser (t : Tables) (authname : UString) : List EndpointRow :=
  t.endpoints.select fun row => t.extensions.rows.any
    fun extension => extension.extnbr = row.extnbr && extension.authname = authname

def changeSuspend (d : Database) (ev : Event) (authuser : UString) (endpoint : Int)
    (account : AuthorizeRow) (suspend : Bool) : Database :=
  let d := (d.runQuery (·.updateAuthorize account.authname
    (fun row => { row with authaccess := if suspend then "SUSPEND" else "LOCAL" })
    fun _ => rfl)).sendProfile ev authuser endpoint
  if suspend then d.disconnect (endpointsOfUser d.tables account.authname) else d

theorem changeAdmin_eq (d : Database) (ev : Event) (authuser : UString) (endpoint : Int) :
    d.changeAdmin ev authuser endpoint =
      match d.found ev with
      | .error code => d.reply ev code
      | .ok (_,account) =>
        if d.tables.isSysadmin ev.number = false then d.reply ev Sip.forbidden
        else
          match ev.header "x-suspend" with
          | none => (d.changeSystem ev).sendProfile ev authuser endpoint
          | some value =>
            if isUser account.authtype = false then (d.changeSystem ev).reply ev Sip.notAcceptableHere
            else (d.changeSystem ev).changeSuspend ev authuser endpoint account (UString.toBool value) :=
  rfl

/-- What `changeMembership` does to the tables: the members, and the group's admin. -/
def replaceMembers (d : Database) (ev : Event) (account : AuthorizeRow) : Database :=
  let number := target ev
  let d := d.runQuery fun t => { t with groups := t.groups.delete fun row => row.grpnbr = number }
  let d := (numbers (ev.headersOf "x-group-member")).foldl (fun d member =>
    d.runQuery (·.insertGroup { grpnbr := number, extnbr := member })) d
  let admin := if number = 0 then 0 else ((ev.header "x-group-admin").map UString.atoi).getD 0
  if 0 < admin then
    let d := d.runQuery (·.insertGroup { grpnbr := number, extnbr := admin })
    let d := d.runQuery fun t => { t with
      admin := t.admin.filter fun row => row.authname ≠ account.authname }
    d.runQuery (·.insertAdmin { authname := account.authname, extnbr := admin })
  else d

theorem replaceMembers_frame (d : Database) (ev : Event) (account : AuthorizeRow) :
    ∃ admin groups, d.replaceMembers ev account =
      { d with tables := { d.tables with admin, groups } } := by
  have filled : ∃ groups, (numbers (ev.headersOf "x-group-member")).foldl (fun d member =>
      d.runQuery (·.insertGroup { grpnbr := target ev, extnbr := member }))
        (d.runQuery fun t => { t with groups := t.groups.delete fun row => row.grpnbr = target ev }) =
      { d with tables := { d.tables with groups } } := by
    refine foldl_kept (P := fun after => ∃ groups, after =
      { d with tables := { d.tables with groups } }) _ _ ?_ ⟨_,rfl⟩
    rintro _ member ⟨groups,rfl⟩
    obtain ⟨more,inserted⟩ := insertGroup_frame { d.tables with groups }
      { grpnbr := target ev, extnbr := member }
    exact ⟨more,by simp only [runQuery,inserted]⟩
  obtain ⟨groups,filled⟩ := filled
  simp only [replaceMembers,filled]
  generalize (if target ev = 0 then 0 else
    ((ev.header "x-group-admin").map UString.atoi).getD 0) = chosen
  split
  · simp only [runQuery]
    obtain ⟨more,inserted⟩ := insertGroup_frame { d.tables with groups }
      { grpnbr := target ev, extnbr := chosen }
    rw [inserted]
    obtain ⟨admin,appointed⟩ := insertAdmin_frame { d.tables with
      groups := more, admin := d.tables.admin.filter fun row => row.authname ≠ account.authname }
      { authname := account.authname, extnbr := chosen }
    rw [appointed]
    exact ⟨admin,more,rfl⟩
  · exact ⟨d.tables.admin,groups,rfl⟩

def notifyMembers (d : Database) (ev : Event) (display : UString) : Database :=
  match ev.header "x-reason" with
  | none => d
  | some reason =>
    (numbers (ev.headersOf "x-notify")).foldl (fun d recipient => d.adminMessage ev recipient
      (UString.ascii "--- " ++ UString.unescape reason) (target ev) display) d

theorem changeMembership_eq (d : Database) (ev : Event) (authuser : UString) (endpoint : Int) :
    d.changeMembership ev authuser endpoint =
      match d.found ev with
      | .error code => d.reply ev code
      | .ok (extension,account) =>
        if target ev ≠ 0 ∧ isGroup account.authtype = false then d.reply ev Sip.notAcceptableHere
        else if !d.tables.isSysadmin ev.number && !d.tables.isAdmin account.authname ev.number then
          d.reply ev Sip.forbidden
        else ((d.replaceMembers ev account).sendProfile ev authuser endpoint).notifyMembers ev
          (Authorize.displayOf extension account) :=
  rfl

/-- What `changeCoverage` does to the tables. -/
def cover (d : Database) (ev : Event) (authuser : UString) (account : AuthorizeRow)
    (priority : Int) : Database :=
  if account.authname = authuser then
    d.runQuery (·.updateExtension ev.number
      (fun row => { row with extpriority := priority }) fun _ => rfl)
  else
    let d := d.runQuery fun t => { t with calling := t.calling.filter fun row =>
      !(row.authname = account.authname && row.extnbr = ev.number) }
    if priority = -1 then d
    else d.runQuery (·.insertCalling
      { authname := account.authname, extnbr := ev.number, extpriority := priority })

theorem changeCoverage_eq (d : Database) (ev : Event) (authuser : UString) (endpoint : Int) :
    d.changeCoverage ev authuser endpoint =
      match d.found ev with
      | .error code => d.reply ev code
      | .ok (_,account) =>
        match ev.header "x-priority" with
        | none => d.reply ev Sip.notAcceptableHere
        | some value =>
          if numberOf value < -1 ∨ 3 < numberOf value then d.reply ev Sip.notAcceptableHere
          else (d.cover ev authuser account (numberOf value)).sendProfile ev authuser endpoint :=
  rfl

namespace Kept

variable (kept : Kept P) (holds : P d)

include kept holds

theorem reply (ev : Event) (code : Nat) : P (d.reply ev code) := kept.send _ _ holds

theorem disconnect (rows : List EndpointRow) : P (d.disconnect rows) := by
  have one : d.disconnect rows = rows.foldl (fun d row => d.emit (.dropEndpoint row.endpoint)) d := by
    induction rows generalizing d with
    | nil => simp [Database.disconnect]
    | cons row rest ih =>
      rw [List.foldl_cons,← ih (kept.emit _ (.dropEndpoint row.endpoint) trivial holds)]
      simp [Database.disconnect,Database.emit]
  rw [one]
  exact foldl_kept rows _ (fun d row holds => kept.emit _ _ trivial holds) holds

theorem post (mid : Int) (data : MessageData) (box : Int × Int) : P (d.post mid data box) := by
  have stored := kept.runQuery d (·.insertOutbox { mid, endpoint := box.1, msgstatus := box.2 }) holds
  simp only [Database.post]
  split
  · exact stored
  · exact kept.emit _ _ trivial stored

theorem adminMessage (ev : Event) (recipient : Int) (text : UString) (sender : Int)
    (display : UString) (expires : Int) :
    P (d.adminMessage ev recipient text sender display expires) :=
  foldl_kept _ _ (fun _ _ holds => kept.post holds _ _ _) (kept.runQuery _ _ holds)

theorem updateProfile (ev : Event) (authuser : UString) (endpoint : Int)
    (extension : ExtensionRow) (account : AuthorizeRow) (profile : Profile) :
    P (d.updateProfile ev authuser endpoint extension account profile) := by
  simp only [Database.updateProfile]
  split
  · exact kept.reply holds _ _
  split
  · exact kept.reply holds _ _
  split
  · exact kept.reply holds _ _
  · refine kept.send _ _ (kept.updateRoster _ (kept.runQuery _ _ (kept.runQuery _ _ ?_)))
    split
    · exact kept.emit _ _ trivial holds
    · exact holds

theorem sendProfile (ev : Event) (authuser : UString) (endpoint : Int) :
    P (d.sendProfile ev authuser endpoint) := by
  simp only [Database.sendProfile]
  split
  · exact kept.reply holds _ _
  split
  · exact kept.reply holds _ _
  split
  · exact kept.send _ _ holds
  · exact kept.updateProfile holds _ _ _ _ _ _

theorem changeAuthorize (ev : Event) : P (d.changeAuthorize ev) := by
  have extended (number : Int) (user : UString) (group : Bool) (d : Database) (holds : P d) :
      P ((if group then d.runQuery (·.insertExtension { extnbr := number, authname := user })
        else (d.runQuery (·.insertExtension { extnbr := number, authname := user })).runQuery
          (·.insertEndpoint number "NONE" d.clock)).updateRoster.reply ev Sip.ok) := by
    refine kept.reply (kept.updateRoster _ ?_) _ _
    split
    · exact kept.runQuery _ _ holds
    · exact kept.runQuery _ _ (kept.runQuery _ _ holds)
  simp only [Database.changeAuthorize]
  split
  · exact kept.reply holds _ _
  split
  · exact kept.reply holds _ _
  split
  · split
    · exact kept.reply holds _ _
    split
    · exact extended _ _ true _ (kept.runQuery _ _ holds)
    · exact extended _ _ false _ (kept.runQuery _ _ holds)
  · split
    · exact kept.reply holds _ _
    split
    · exact kept.reply holds _ _
    split
    · exact kept.reply holds _ _
    · exact extended _ _ false _ holds

theorem changeTopic (ev : Event) : P (d.changeTopic ev) := by
  have replied := kept.reply holds ev Sip.ok
  simp only [Database.changeTopic]
  split
  · exact kept.reply holds _ _
  split
  · exact kept.reply holds _ _
  split
  · exact kept.adminMessage (kept.adminMessage replied _ _ _ _ _ _) _ _ _ _ _ _
  split
  · exact kept.reply holds _ _
  · exact foldl_kept _ _ (fun _ _ holds => kept.adminMessage holds _ _ _ _ _ _) replied

theorem changeForwarding (ev : Event) (authuser : UString) (endpoint : Int) :
    P (d.changeForwarding ev authuser endpoint) := by
  have forwarded (statement : Tables → Tables) :
      P ((d.runQuery statement).sendProfile ev authuser endpoint) :=
    kept.sendProfile (kept.runQuery _ _ holds) _ _ _
  simp only [Database.changeForwarding]
  repeat' split
  all_goals first | exact kept.reply holds _ _ | exact forwarded _

theorem cover (ev : Event) (authuser : UString) (account : AuthorizeRow) (priority : Int) :
    P (d.cover ev authuser account priority) := by
  simp only [Database.cover]
  split
  · exact kept.runQuery _ _ holds
  split
  · exact kept.runQuery _ _ holds
  · exact kept.runQuery _ _ (kept.runQuery _ _ holds)

theorem changeCoverage (ev : Event) (authuser : UString) (endpoint : Int) :
    P (d.changeCoverage ev authuser endpoint) := by
  rw [changeCoverage_eq]
  split
  · exact kept.reply holds _ _
  split
  · exact kept.reply holds _ _
  split
  · exact kept.reply holds _ _
  · exact kept.sendProfile (kept.cover holds _ _ _ _) _ _ _

theorem dropExtension (ev : Event) (authuser : UString) (endpoint : Int) :
    P (d.dropExtension ev authuser endpoint) := by
  simp only [Database.dropExtension]
  split
  · exact kept.reply holds _ _
  split
  · exact kept.reply holds _ _
  split
  · exact kept.reply holds _ _
  · exact kept.disconnect (kept.sendProfile holds _ _ _) _

theorem changeSystem (ev : Event) : P (d.changeSystem ev) := by
  simp only [Database.changeSystem]
  split
  · exact holds
  · split <;> exact kept.runQuery _ _ holds

theorem changeSuspend (ev : Event) (authuser : UString) (endpoint : Int) (account : AuthorizeRow)
    (suspend : Bool) : P (d.changeSuspend ev authuser endpoint account suspend) := by
  simp only [Database.changeSuspend]
  split
  · exact kept.disconnect (kept.sendProfile (kept.runQuery _ _ holds) _ _ _) _
  · exact kept.sendProfile (kept.runQuery _ _ holds) _ _ _

theorem changeAdmin (ev : Event) (authuser : UString) (endpoint : Int) :
    P (d.changeAdmin ev authuser endpoint) := by
  rw [changeAdmin_eq]
  split
  · exact kept.reply holds _ _
  split
  · exact kept.reply holds _ _
  split
  · exact kept.sendProfile (kept.changeSystem holds _) _ _ _
  split
  · exact kept.reply (kept.changeSystem holds _) _ _
  · exact kept.changeSuspend (kept.changeSystem holds _) _ _ _ _ _

theorem replaceMembers (ev : Event) (account : AuthorizeRow) : P (d.replaceMembers ev account) := by
  have filled := foldl_kept (numbers (ev.headersOf "x-group-member"))
    (fun d member => d.runQuery (·.insertGroup { grpnbr := target ev, extnbr := member }))
    (fun d member holds => kept.runQuery d _ holds) (kept.runQuery d (fun t => { t with
      groups := t.groups.delete fun row => row.grpnbr = target ev }) holds)
  exact ite_kept (kept.runQuery _ _ (kept.runQuery _ _ (kept.runQuery _ _ filled))) filled

theorem notifyMembers (ev : Event) (display : UString) : P (d.notifyMembers ev display) := by
  simp only [Database.notifyMembers]
  split
  · exact holds
  · exact foldl_kept _ _ (fun _ _ holds => kept.adminMessage holds _ _ _ _ _ _) holds

theorem changeMembership (ev : Event) (authuser : UString) (endpoint : Int) :
    P (d.changeMembership ev authuser endpoint) := by
  rw [changeMembership_eq]
  split
  · exact kept.reply holds _ _
  split
  · exact kept.reply holds _ _
  split
  · exact kept.reply holds _ _
  · exact kept.notifyMembers (kept.sendProfile (kept.replaceMembers holds _ _) _ _ _) _ _

theorem removeDevice (ev : Event) (authuser : UString) (endpoint : Int) :
    P (d.removeDevice ev authuser endpoint) := by
  simp only [Database.removeDevice]
  split
  · exact kept.reply holds _ _
  split
  · exact kept.reply holds _ _
  split
  · exact kept.reply holds _ _
  split
  · exact kept.reply holds _ _
  · exact kept.sendProfile (kept.runQuery _ _ (kept.emit _ (.dropEndpoint _) trivial holds)) _ _ _

theorem sendRoster (ev : Event) (endpoint : Int) : P (d.sendRoster ev endpoint) :=
  kept.send _ _ (kept.runQuery _ _ holds)

theorem sendPending (ev : Event) (endpoint : Int) : P (d.sendPending ev endpoint) := by
  have marked := kept.runQuery _ (·.setStatus 100 fun row =>
    row.msgstatus ≠ 200 && row.endpoint = endpoint) (kept.runQuery d (fun t => { t with
      deletes := t.deletes.filter fun row => !(row.delstatus = 1 && row.endpoint = endpoint) }) holds)
  simp only [Database.sendPending]
  split
  · exact kept.reply marked _ _
  · exact kept.send _ _ marked

theorem removeAuthorization (ev : Event) : P (Authorize.removeAuthorization d ev) := by
  simp only [Authorize.removeAuthorization]
  split
  · exact kept.reply holds _ _
  split
  · exact kept.reply holds _ _
  split
  · exact kept.reply holds _ _
  · exact kept.updateRoster _ (foldl_kept _ _ (fun d row holds => kept.runQuery d _ holds)
      (kept.runQuery _ _ (kept.reply holds _ _)))

theorem localMessage (ev : Event) : P (d.localMessage ev) := by
  simp only [Database.localMessage,storeLocal]
  split
  · exact kept.reply holds _ _
  split
  · exact kept.reply holds _ _
  split
  · exact ite_kept holds (kept.reply holds _ _)
  · refine foldl_kept _ _ (fun d box holds => kept.post holds _ _ box) ?_
    exact ite_kept (kept.runQuery _ _ holds) (kept.reply (kept.runQuery _ _ holds) _ _)

/-- The slots of all signals but a lookup. -/
theorem handle (signal : Signal) (other : ∀ ev, signal ≠ .findEndpoint ev) :
    P (d.handle signal) := by
  cases signal with
  | findEndpoint ev => exact absurd rfl (other ev)
  | removeAuthorize ev => exact kept.removeAuthorization holds ev
  | changeAuthorize ev => exact kept.changeAuthorize holds ev
  | changeTopic ev => exact kept.changeTopic holds ev
  | sendDevlist ev => exact kept.send _ _ holds
  | sendRoster ev endpoint => exact kept.sendRoster holds ev endpoint
  | sendPending ev endpoint => exact kept.sendPending holds ev endpoint
  | changePending endpoint =>
    rw [Database.handle,Database.changePending]
    exact kept.runQuery _ _ holds
  | removeDevice ev authuser endpoint => exact kept.removeDevice holds ev authuser endpoint
  | changeForwarding ev authuser endpoint => exact kept.changeForwarding holds ev authuser endpoint
  | changeCoverage ev authuser endpoint => exact kept.changeCoverage holds ev authuser endpoint
  | dropExtension ev authuser endpoint => exact kept.dropExtension holds ev authuser endpoint
  | changeAdmin ev authuser endpoint => exact kept.changeAdmin holds ev authuser endpoint
  | changeMembership ev authuser endpoint => exact kept.changeMembership holds ev authuser endpoint
  | changeProfile ev authuser endpoint => exact kept.sendProfile holds ev authuser endpoint
  | lastAccess endpoint timestamp agent deviceKey uri =>
    rw [Database.handle,Database.lastAccess]
    exact kept.runQuery _ _ holds

end Kept

theorem kept_numbering (range : Int × Int) :
    Kept fun d => (d.firstNumber,d.lastNumber) = range where
  send _ _ holds := holds
  runQuery _ _ holds := holds
  emit _ _ _ holds := holds
  updateRoster _ holds := holds

/-- No slot but a lookup makes an outbox request. -/
theorem kept_copies (copies : List OutboxRequest) : Kept fun d => d.copies = copies where
  send _ _ holds := holds
  runQuery _ _ holds := holds
  emit _ _ _ holds := holds
  updateRoster _ holds := holds

/-- No slot but a lookup signals the making of a record. -/
theorem kept_plain (Q : Notice → Prop) (plain : ∀ notice, Notice.Plain notice → Q notice) :
    Kept fun d => ∀ notice ∈ d.emitted, Q notice where
  send _ _ holds := holds
  runQuery _ _ holds := holds
  emit d notice plainly holds := by
    intro other member
    rcases List.mem_append.mp member with before | new
    · exact holds other before
    · exact List.mem_singleton.mp new ▸ plain notice plainly
  updateRoster _ holds := holds

end Database

namespace Authorize

open Database Tables

variable {d : Database} {ev : Event} {ep : EndpointInfo}

/-- What a lookup has read when it hands out an endpoint, in the tables it leaves. -/
structure Looked (d : Database) (ev : Event) (ep : EndpointInfo) : Prop where
  number : ep.number = ev.number
  label : ep.label = ev.label
  planned : d.firstNumber ≤ ev.number ∧ ev.number ≤ d.lastNumber
  extension : ∃ row ∈ d.tables.extensions, row.extnbr = ev.number ∧ row.authname = ep.user
  account : ∃ row ∈ d.tables.authorize, row.authname = ep.user ∧ row.secret = ep.secret ∧
    row.authaccess ≠ "SUSPEND"
  endpoint : ∃ row ∈ d.tables.endpoints, row.endpoint = ep.endpoint ∧
    row.key = (ev.number,ev.label)

inductive Outcome (d after : Database) (ev : Event) : Prop where
  | refused (code : Nat) (wire : after.wire = d.wire ++ [.reply ev code])
      (emitted : after.emitted = d.emitted)
  | found (ep : EndpointInfo) (looked : Looked after ev ep) (wire : after.wire = d.wire)
      (emitted : after.emitted = d.emitted ++ [.createRegistration ev (some ep)])

theorem createEndpoint_outcome (d : Database) (ev : Event) {extension : ExtensionRow}
    {endpoint : EndpointRow} (planned : d.firstNumber ≤ ev.number ∧ ev.number ≤ d.lastNumber)
    (known : extension ∈ d.tables.extensions) (number : extension.extnbr = ev.number)
    (listed : endpoint ∈ d.tables.endpoints) (key : endpoint.key = (ev.number,ev.label)) :
    Outcome d (createEndpoint d ev extension (some endpoint)) ev := by
  simp only [createEndpoint]
  split
  · exact .refused _ rfl rfl
  rename_i account stored
  obtain ⟨member,name⟩ := account?_eq_some.mp stored
  split
  · exact .refused _ rfl rfl
  rename_i access
  split
  · exact .refused _ rfl rfl
  · refine .found _ ?_ rfl rfl
    exact {
      number := rfl
      label := rfl
      planned
      extension := ⟨extension,known,number,name.symm⟩
      account := ⟨account,member,rfl,rfl,access⟩
      endpoint := ⟨endpoint,listed,rfl,key⟩ }

theorem createEndpoint_tables (extension : ExtensionRow) (endpoint : Option EndpointRow) :
    (createEndpoint d ev extension endpoint).tables = d.tables := by
  simp only [createEndpoint]
  repeat' split
  all_goals rfl

theorem createEndpoint_kept {P : Database → Prop} (extension : ExtensionRow)
    (endpoint : Option EndpointRow) (holds : P d) (kept : Kept P)
    (created : ∀ ep, P d → P (d.emit (.createRegistration ev (some ep)))) :
    P (createEndpoint d ev extension endpoint) := by
  simp only [createEndpoint]
  split
  · exact kept.reply holds _ _
  split
  · exact kept.reply holds _ _
  split
  · exact kept.reply holds _ _
  · exact created _ holds

/-- A new label gets its endpoint, an old one has it. -/
theorem initializeLabel_endpoint (d : Database) (ev : Event)
    (extension : d.tables.hasExtension ev.number) :
    ∃ row, (initializeLabel d ev).2 = some row ∧ row ∈ (initializeLabel d ev).1.tables.endpoints ∧
      row.key = (ev.number,ev.label) := by
  cases vacant : d.tables.endpoint? ev.number ev.label with
  | some row =>
    obtain ⟨member,key⟩ := endpoint?_eq_some.mp vacant
    exact ⟨row,by simp [initializeLabel,vacant],by simpa [initializeLabel,vacant] using member,key⟩
  | none =>
    have listed := mem_insertEndpoint d.clock extension vacant
    have found := endpoint?_eq_some.mpr ⟨(listed _).mpr (.inr rfl),rfl⟩
    refine ⟨_,by simp [initializeLabel,vacant]; exact found,?_,rfl⟩
    simpa [initializeLabel,vacant,Database.request] using (listed _).mpr (.inr rfl)

theorem initializeLabel_kept {P : Database → Prop} (kept : Kept P) (holds : P d)
    (requested : ∀ d' outbox, P d' → P (d'.request outbox)) : P (initializeLabel d ev).1 := by
  simp only [initializeLabel]
  split
  · exact requested _ _ holds
  · exact requested _ _ (kept.runQuery _ _ holds)

/-- Making an endpoint leaves the accounts and the extensions alone. -/
theorem insertEndpoint_accounts (t : Tables) (number : Int) (label : UString) (created : Int) :
    (t.insertEndpoint number label created).extensions = t.extensions ∧
    (t.insertEndpoint number label created).authorize = t.authorize := by
  simp only [Tables.insertEndpoint]
  split <;> exact ⟨rfl,rfl⟩

theorem initializeLabel_tables (d : Database) (ev : Event) :
    (initializeLabel d ev).1.tables = d.tables ∨
    d.tables.endpoint? ev.number ev.label = none ∧
    (initializeLabel d ev).1.tables = d.tables.insertEndpoint ev.number ev.label d.clock := by
  simp only [initializeLabel]
  split
  · exact .inl rfl
  · rename_i vacant
    exact .inr ⟨vacant,rfl⟩

/-- All that a lookup does to the tables is to make the endpoint of a new label. -/
theorem findEndpoint_tables (d : Database) (ev : Event) :
    (findEndpoint d ev).tables = d.tables ∨
    d.tables.hasExtension ev.number ∧ d.tables.endpoint? ev.number ev.label = none ∧
    (findEndpoint d ev).tables = d.tables.insertEndpoint ev.number ev.label d.clock := by
  simp only [findEndpoint]
  split
  · exact .inl rfl
  split
  · exact .inl rfl
  split
  · exact .inl rfl
  split
  · exact .inl rfl
  rename_i extension known
  split
  · rw [createEndpoint_tables]
    refine (initializeLabel_tables d ev).imp_right fun ⟨vacant,made⟩ => ⟨?_,vacant,made⟩
    simp [Tables.hasExtension,known]
  split
  · exact .inl rfl
  · exact .inl (createEndpoint_tables _ _)

theorem findEndpoint_kept {P : Database → Prop} (kept : Kept P) (holds : P d)
    (requested : ∀ d' outbox, P d' → P (d'.request outbox))
    (created : ∀ d' ep, P d' → P (d'.emit (.createRegistration ev (some ep)))) :
    P (findEndpoint d ev) := by
  simp only [findEndpoint]
  split
  · exact kept.reply holds _ _
  split
  · exact kept.reply holds _ _
  split
  · exact kept.reply holds _ _
  split
  · exact kept.reply holds _ _
  split
  · exact createEndpoint_kept _ _ (initializeLabel_kept kept holds requested) kept (created _)
  split
  · exact kept.reply holds _ _
  · exact createEndpoint_kept _ _ holds kept (created _)

theorem findEndpoint_outcome (d : Database) (ev : Event) :
    Outcome d (findEndpoint d ev) ev := by
  simp only [findEndpoint]
  split
  · exact .refused _ rfl rfl
  split
  · exact .refused _ rfl rfl
  split
  · exact .refused _ rfl rfl
  rename_i inside
  have planned : d.firstNumber ≤ ev.number ∧ ev.number ≤ d.lastNumber := by omega
  split
  · exact .refused _ rfl rfl
  rename_i extension known
  obtain ⟨member,number⟩ := extension?_eq_some.mp known
  split
  · have extension : d.tables.hasExtension ev.number := by simp [Tables.hasExtension,known]
    obtain ⟨row,made,listed,key⟩ := initializeLabel_endpoint d ev extension
    have same : (initializeLabel d ev).1.tables.extensions = d.tables.extensions := by
      rcases initializeLabel_tables d ev with old | ⟨-,new⟩
      · rw [old]
      · rw [new,(insertEndpoint_accounts _ _ _ _).1]
    have numbering : ((initializeLabel d ev).1.firstNumber,(initializeLabel d ev).1.lastNumber) =
        (d.firstNumber,d.lastNumber) := initializeLabel_kept (kept_numbering _) rfl fun _ _ same => same
    have wire : (initializeLabel d ev).1.wire = d.wire := by
      simp only [initializeLabel]
      split <;> rfl
    have emitted : (initializeLabel d ev).1.emitted = d.emitted := by
      simp only [initializeLabel]
      split <;> rfl
    obtain ⟨first,last⟩ := Prod.mk.inj numbering
    rw [made]
    cases createEndpoint_outcome (initializeLabel d ev).1 ev (first ▸ last ▸ planned)
        (same ▸ member) number listed key with
    | refused code sent silent => exact .refused code (wire ▸ sent) (emitted ▸ silent)
    | found ep looked sent signalled => exact .found ep looked (wire ▸ sent) (emitted ▸ signalled)
  split
  · exact .refused _ rfl rfl
  · rename_i present
    obtain ⟨row,found⟩ := Option.ne_none_iff_exists'.mp (by simpa using present)
    obtain ⟨listed,key⟩ := endpoint?_eq_some.mp found
    rw [found]
    exact createEndpoint_outcome d ev planned member number listed key

end Authorize

end SipWitch
