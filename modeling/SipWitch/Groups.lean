import SipWitch.Profile

/-! Who is told of the members of a group: two states that differ in them only answer a
requester outside of the group alike, by all requests that end in `sendProfile`. -/
namespace SipWitch

open Tables

namespace Database

variable {d d' : Database} {ev : Event} {authuser : UString} {endpoint : Int}
  {extension : ExtensionRow} {account : AuthorizeRow}

/-- The statement neither reads nor changes the members of groups. -/
def Blind (statement : Tables → Tables) : Prop :=
  ∀ t groups, statement { t with groups } = { statement t with groups }

theorem Blind.groups {statement : Tables → Tables} (blind : Blind statement) (t : Tables) :
    (statement t).groups = t.groups := by
  have same := congrArg Tables.groups (blind t t.groups)
  exact same

theorem blind_insertCalling (row : CallingRow) : Blind (·.insertCalling row) := by
  intro t groups
  by_cases accepted : t.accepts (t.hasAccount row.authname && t.hasExtension row.extnbr) = true
  · have left : ({ t with groups } : Tables).insertCalling row =
        { t with groups, calling := t.calling ++ [row] } := if_pos accepted
    have right : t.insertCalling row = { t with calling := t.calling ++ [row] } := if_pos accepted
    simp only [left,right]
  · have left : ({ t with groups } : Tables).insertCalling row = { t with groups } := if_neg accepted
    have right : t.insertCalling row = t := if_neg accepted
    simp only [left,right]

theorem blind_deleteEndpoint (endpoint : Int) : Blind (·.deleteEndpoint endpoint) := by
  intro t groups
  have kept := (deleteEndpoint_frame { t with groups } endpoint).2.2.2
  have eta (t : Tables) (same : t.groups = groups) : t = { t with groups } := by
    subst same
    rfl
  refine (eta _ kept).trans ?_
  by_cases enforced : t.enforced = true
  · have left : ({ t with groups } : Tables).deleteEndpoint endpoint = cascade
        { t with groups, endpoints := t.endpoints.delete fun row => row.endpoint = endpoint }
        { t with groups } := if_pos enforced
    have right : t.deleteEndpoint endpoint = cascade
        { t with endpoints := t.endpoints.delete fun row => row.endpoint = endpoint } t := if_pos enforced
    simp only [left,right]
    rfl
  · have left : ({ t with groups } : Tables).deleteEndpoint endpoint =
        { t with groups, endpoints := t.endpoints.delete fun row => row.endpoint = endpoint } :=
      if_neg enforced
    have right : t.deleteEndpoint endpoint =
        { t with endpoints := t.endpoints.delete fun row => row.endpoint = endpoint } := if_neg enforced
    simp only [left,right]

structure Twins (number : Int) (d d' : Database) : Prop where
  same : ∃ groups, d' = { d with tables := { d.tables with groups } }
  others : ∀ row, row.grpnbr ≠ number → (row ∈ d'.tables.groups ↔ row ∈ d.tables.groups)

/-- The requester is no sysadmin, and neither in the target's group nor its admin. -/
structure Outsider (d : Database) (ev : Event) : Prop where
  sysadmin : d.tables.isSysadmin ev.number = false
  member : d.tables.isMember (target ev) ev.number = false
  admin : ∀ extension account, d.found ev = .ok (extension,account) →
    d.tables.isAdmin account.authname ev.number = false

namespace Twins

variable {number : Int} (twins : Twins number d d')

include twins

theorem isMember {group : Int} (other : group ≠ number) (member : Int) :
    d'.tables.isMember group member = d.tables.isMember group member := by
  rw [Bool.eq_iff_iff]
  simp only [Tables.isMember,List.any_eq_true,Bool.and_eq_true,decide_eq_true_eq,Table.mem_rows]
  constructor
  · rintro ⟨row,known,rfl,named⟩
    exact ⟨row,(twins.others row other).mp known,rfl,named⟩
  · rintro ⟨row,known,rfl,named⟩
    exact ⟨row,(twins.others row other).mpr known,rfl,named⟩

theorem wire : d'.wire = d.wire := by
  obtain ⟨groups,rfl⟩ := twins.same
  rfl

theorem reachable (target : Int) : d'.reachable target = d.reachable target := by
  obtain ⟨groups,rfl⟩ := twins.same
  rfl

theorem profile? (target : Int) : d'.tables.profile? target = d.tables.profile? target := by
  obtain ⟨groups,rfl⟩ := twins.same
  rfl

theorem isSysadmin (requester : Int) :
    d'.tables.isSysadmin requester = d.tables.isSysadmin requester := by
  obtain ⟨groups,rfl⟩ := twins.same
  rfl

theorem isAdmin (authname : UString) (requester : Int) :
    d'.tables.isAdmin authname requester = d.tables.isAdmin authname requester := by
  obtain ⟨groups,rfl⟩ := twins.same
  rfl

theorem publicUri (account : AuthorizeRow) : d'.publicUri account = d.publicUri account := by
  obtain ⟨groups,rfl⟩ := twins.same
  rfl

theorem ownProfile (ev : Event) (account : AuthorizeRow) (profile : Profile) :
    d'.ownProfile ev account profile = d.ownProfile ev account profile := by
  obtain ⟨groups,rfl⟩ := twins.same
  rfl

theorem coverage (account : AuthorizeRow) (requester : Int) :
    d'.coverage account requester = d.coverage account requester := by
  obtain ⟨groups,rfl⟩ := twins.same
  rfl

theorem operatorDisplay : d'.operatorDisplay = d.operatorDisplay := by
  obtain ⟨groups,rfl⟩ := twins.same
  rfl

theorem inRange (number : Int) : d'.inRange number = d.inRange number := by
  obtain ⟨groups,rfl⟩ := twins.same
  rfl

theorem endpoint? (number : Int) (label : UString) :
    d'.tables.endpoint? number label = d.tables.endpoint? number label := by
  obtain ⟨groups,rfl⟩ := twins.same
  rfl

theorem profilePrivs (plain : number ≠ 0) (other : Int) (account : AuthorizeRow) :
    d'.profilePrivs other account = d.profilePrivs other account := by
  simp only [Database.profilePrivs,Authorize.privs,twins.isMember plain.symm,twins.isSysadmin]

theorem found (ev : Event) : d'.found ev = d.found ev := by
  simp only [Database.found,twins.reachable,twins.profile?]

theorem runQuery {statement : Tables → Tables} (blind : Blind statement) :
    Twins number (d.runQuery statement) (d'.runQuery statement) := by
  have others := twins.others
  obtain ⟨members,rfl⟩ := twins.same
  have left := blind d.tables members
  refine ⟨⟨members,?_⟩,fun row other => ?_⟩
  · simp only [Database.runQuery,left]
  · rw [runQuery_tables,runQuery_tables,left,blind.groups]
    exact others row other

theorem emit (notice : Notice) : Twins number (d.emit notice) (d'.emit notice) := by
  have others := twins.others
  obtain ⟨members,rfl⟩ := twins.same
  exact ⟨⟨members,rfl⟩,others⟩

theorem forwards (ev : Event) : d'.forwards ev = d.forwards ev := by
  simp only [Database.forwards,twins.found,twins.isSysadmin,twins.isAdmin,twins.inRange]

theorem cover (ev : Event) (authuser : UString) (account : AuthorizeRow) (priority : Int) :
    Twins number (d.cover ev authuser account priority) (d'.cover ev authuser account priority) := by
  simp only [Database.cover]
  split
  · exact twins.runQuery fun _ _ => rfl
  have blind : Blind fun t => { t with calling := t.calling.filter fun row =>
      !(row.authname = account.authname && row.extnbr = ev.number) } := fun _ _ => rfl
  have cleared := twins.runQuery blind
  split
  · exact cleared
  · exact cleared.runQuery (blind_insertCalling _)

/-- A slot that calls `sendProfile` comes to it in twin states. -/
theorem begun (ev : Event) (authuser : UString) (method : Method) :
    (∃ code, d.begun ev authuser method = .error code ∧ d'.begun ev authuser method = .error code) ∨
    ∃ next next', d.begun ev authuser method = .ok next ∧ d'.begun ev authuser method = .ok next' ∧
      Twins number next next' := by
  cases method
  case forwarding =>
    simp only [Database.begun,twins.forwards]
    cases checked : d.forwards ev with
    | error code => exact .inl ⟨code,rfl,rfl⟩
    | ok statement =>
      refine .inr ⟨_,_,rfl,rfl,twins.runQuery ?_⟩
      simp only [Database.forwards] at checked
      repeat' split at checked
      all_goals cases checked
      all_goals exact fun _ _ => rfl
  case coverage =>
    simp only [Database.begun,covers,twins.found]
    cases d.found ev with
    | error code => exact .inl ⟨code,rfl,rfl⟩
    | ok row =>
      dsimp only
      cases ev.header "x-priority" with
      | none => exact .inl ⟨_,rfl,rfl⟩
      | some value =>
        dsimp only
        split
        · exact .inl ⟨_,rfl,rfl⟩
        · exact .inr ⟨_,_,rfl,rfl,twins.cover ev authuser _ _⟩
  case devkill =>
    simp only [Database.begun,removes,twins.inRange,twins.endpoint?]
    split
    · exact .inl ⟨_,rfl,rfl⟩
    cases ev.header "x-remove" with
    | none => exact .inl ⟨_,rfl,rfl⟩
    | some label =>
      dsimp only
      split
      · exact .inl ⟨_,rfl,rfl⟩
      cases d.tables.endpoint? ev.number label with
      | none => exact .inl ⟨_,rfl,rfl⟩
      | some row =>
        exact .inr ⟨_,_,rfl,rfl,(twins.emit _).runQuery (blind_deleteEndpoint row.endpoint)⟩
  all_goals exact .inr ⟨_,_,rfl,rfl,twins⟩

theorem outsider (outside : Outsider d ev) (absent : d'.tables.isMember (target ev) ev.number = false) :
    Outsider d' ev where
  sysadmin := (twins.isSysadmin ev.number).trans outside.sysadmin
  member := absent
  admin extension account known := (twins.isAdmin account.authname ev.number).trans
    (outside.admin extension account ((twins.found ev).symm.trans known))

end Twins

theorem groupAccess_outsider (outside : Outsider d ev) (known : d.found ev = .ok (extension,account)) :
    d.groupAccess (target ev) account ev.number = (UString.ascii "none",[]) := by
  simp only [groupAccess,outside.admin extension account known,outside.member,outside.sysadmin,
    Bool.false_eq_true,if_false,ite_self]

theorem groupPriority_outsider (outside : Outsider d ev) (account : AuthorizeRow) :
    d.groupPriority (target ev) account ev.number = -1 := by
  have none : (d.tables.groups.rows.find?
      fun row => row.grpnbr = target ev && row.extnbr = ev.number) = none := by
    rw [List.find?_eq_none]
    exact List.any_eq_false.mp outside.member
  simp only [groupPriority,none,ite_self]

/-- The profile of a group says nothing of its members to an outsider. -/
theorem profileOf_alike (plain : target ev ≠ 0) (twins : Twins (target ev) d d') (outside : Outsider d ev)
    (outside' : Outsider d' ev) (known : d.found ev = .ok (extension,account)) :
    d'.profileOf ev extension account = d.profileOf ev extension account := by
  have number : extension.extnbr = target ev :=
    (extension?_eq_some.mp (profile?_some (found_ok known).2).1).2
  have known' : d'.found ev = .ok (extension,account) := (twins.found ev).trans known
  simp only [profileOf,number,groupAccess_outsider outside known,groupAccess_outsider outside' known',
    groupPriority_outsider outside,groupPriority_outsider outside',twins.profilePrivs plain,
    twins.publicUri,twins.ownProfile,twins.coverage,twins.operatorDisplay]

theorem updateProfile_alike (plain : target ev ≠ 0) (twins : Twins (target ev) d d') (authuser : UString)
    (endpoint : Int) (profile : Profile) :
    (d'.updateProfile ev authuser endpoint extension account profile).wire =
      (d.updateProfile ev authuser endpoint extension account profile).wire := by
  simp only [updateProfile,twins.isSysadmin,twins.isMember plain.symm,twins.publicUri]
  split
  · simp only [reply,send,twins.wire]
  split
  · simp only [reply,send,twins.wire]
  split
  · simp only [reply,send,twins.wire]
  · simp only [send_wire,updateRoster_wire,runQuery_wire]
    split <;> simp only [emit_wire,twins.wire]

theorem sendProfile_alike (plain : target ev ≠ 0) (twins : Twins (target ev) d d') (outside : Outsider d ev)
    (outside' : Outsider d' ev) (authuser : UString) (endpoint : Int) :
    (d'.sendProfile ev authuser endpoint).wire = (d.sendProfile ev authuser endpoint).wire := by
  simp only [sendProfile,twins.reachable,twins.profile?]
  split
  · simp only [reply,send,twins.wire]
  rename_i reached
  cases known : d.tables.profile? (target ev) with
  | none => simp only [reply,send,twins.wire]
  | some row =>
    obtain ⟨extension,account⟩ := row
    dsimp only
    rw [profileOf_alike plain twins outside outside' (by simp only [found,if_neg reached,known])]
    split
    · simp only [send,twins.wire]
    · exact updateProfile_alike plain twins authuser endpoint _

/-- A slot's own statements leave an outsider one. -/
theorem begun_outsider {method : Method} {next : Database} (begun : d.begun ev authuser method = .ok next)
    (outside : Outsider d ev) : Outsider next ev := by
  have same := begun_unaltered begun
  refine ⟨(same.isSysadmin ev.number).trans outside.sysadmin,?_,fun extension account known => ?_⟩
  · simpa only [Tables.isMember,same.groups] using outside.member
  · obtain ⟨extension',account',known',equal⟩ := same.symm.found known
    have name : account'.authname = account.authname := (congrArg AuthorizeRow.authname equal :)
    have admin := outside.admin extension' account' known'
    rw [name] at admin
    simpa only [Tables.isAdmin,same.admin] using admin

def managing : List Method := [.admin,.drop,.membership]

theorem managing_refused (outside : Outsider d ev) (reg : Registry) {method : Method}
    (manages : method ∈ managing) : d.handle (Method.signal ev reg method) = d.reply ev
      (match d.found ev with
      | .error code => code
      | .ok (_,account) => if method = .membership ∧ target ev ≠ 0 ∧ isGroup account.authtype = false then
          Sip.notAcceptableHere else Sip.forbidden) := by
  simp only [managing,List.mem_cons,List.not_mem_nil,or_false] at manages
  have plain := outside.sysadmin
  cases known : d.found ev with
  | error code =>
    rcases manages with rfl | rfl | rfl
    · simp only [Method.signal,handle,changeAdmin,known]
    · simp only [Method.signal,handle,dropExtension,known]
    · simp only [Method.signal,handle,changeMembership,known]
  | ok row =>
    obtain ⟨extension,account⟩ := row
    have stranger := outside.admin extension account known
    rcases manages with rfl | rfl | rfl
    · simp [Method.signal,handle,changeAdmin,known,plain]
    · simp [Method.signal,handle,dropExtension,known,plain]
    · simp only [Method.signal,handle,changeMembership,known,plain,stranger,true_and]
      by_cases kind : target ev ≠ 0 ∧ isGroup account.authtype = false
      · rw [if_pos kind,if_pos kind]
      · rw [if_neg kind,if_neg kind]
        rfl

def showing : List Method := profiling ++ managing

/-- A requester outside of a group is answered the same whoever is in the group. -/
theorem members_confidential (d d' : Database) (ev : Event) (reg : Registry) (method : Method)
    (shows : method ∈ showing) (plain : target ev ≠ 0) (twins : Twins (target ev) d d')
    (outside : Outsider d ev) (absent : d'.tables.isMember (target ev) ev.number = false) :
    (d'.handle (Method.signal ev reg method)).wire = (d.handle (Method.signal ev reg method)).wire := by
  have outside' := twins.outsider outside absent
  rcases List.mem_append.mp shows with profiled | manages
  · rw [handle_begun d ev reg profiled,handle_begun d' ev reg profiled]
    rcases twins.begun ev reg.userId method with ⟨code,refused,refused'⟩ | ⟨next,next',begun,begun',alike⟩
    · rw [refused,refused']
      simp only [reply,send,twins.wire]
    · rw [begun,begun']
      exact sendProfile_alike plain alike (begun_outsider begun outside) (begun_outsider begun' outside')
        reg.userId reg.endpointId
  · rw [managing_refused outside reg manages,managing_refused outside' reg manages,twins.found]
    simp only [reply,send,twins.wire]

end Database

namespace Site

def grouped (member : Int) : Database where
  tables := { tables with
    authorize := members
    extensions := memberNumbers
    groups := { rows := [{ grpnbr := 200, extnbr := member }], distinct := List.nodup_singleton _ } }

def groupProfile : Event := { request "X-PROFILE" with toUser := some "200", toLocal := true }

def device : Registry :=
  .create { user := "test1", number := 101, label := "desk", endpoint := 2, expires := 300 } 0

theorem grouped_twins (member member' : Int) :
    Database.Twins 200 (grouped member) (grouped member') := by
  refine ⟨⟨(grouped member').tables.groups,rfl⟩,fun row other => ?_⟩
  have absent (member : Int) : row ∉ (grouped member).tables.groups := by
    intro known
    obtain rfl := List.mem_singleton.mp known
    exact other rfl
  exact iff_of_false (absent member') (absent member)

end Site

namespace Database

theorem members_confidential_profile :
    ((Site.grouped 103).handle (Method.signal Site.groupProfile Site.device .profile)).wire =
      ((Site.grouped 102).handle (Method.signal Site.groupProfile Site.device .profile)).wire := by
  refine members_confidential (Site.grouped 102) (Site.grouped 103) Site.groupProfile Site.device .profile
    (by decide) (by decide) (Site.grouped_twins 102 103) ⟨by decide,by decide,?_⟩ (by decide)
  intro extension account _
  rfl

end Database

end SipWitch
