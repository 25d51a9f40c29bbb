import SipWitch.Answers

/-! The requests that end in `sendProfile`: what a profile may be changed in and by whom,
and what a refusal leaves behind when it comes after a slot's own statements. -/
namespace SipWitch

open Tables

def Tables.writeProfile (t : Tables) (extnbr : Int) (authname display email access secret : UString) :
    Tables :=
  (t.updateExtension extnbr (fun row => { row with display }) fun _ => rfl).updateAuthorize authname
    (fun row => { row with email, authaccess := access, secret }) fun _ => rfl

@[simp] theorem Tables.account?_writeProfile {t : Tables} {extnbr : Int} {name : UString} :
    (t.writeProfile extnbr authname display email access secret).account? name =
      (t.account? name).map fun row => if row.authname = authname then
        { row with email, authaccess := access, secret } else row :=
  account?_updateAuthorize

/-- An account without its forwarding, which `sendProfile` shows and does not write. -/
def AuthorizeRow.unforwarded (row : AuthorizeRow) : AuthorizeRow :=
  { row with fwdaway := -1, fwdbusy := -1, fwdnoanswer := -1 }

def ExtensionRow.unranked (row : ExtensionRow) : ExtensionRow := { row with extpriority := 0 }

namespace Database

variable {d d' : Database} {ev : Event} {authuser : UString} {endpoint : Int}
  {extension : ExtensionRow} {account : AuthorizeRow} {code : Nat}

def wantedAccess (ev : Event) : UString := UString.toUpper (ev.json "a")

/-- A secret is taken when it is as long as the old one. -/
def takesSecret (ev : Event) (account : AuthorizeRow) : Bool :=
  UString.textLength (ev.json "s") = UString.textLength account.secret &&
    0 < UString.textLength (ev.json "s")

/-- The checks of `sendProfile` for a request with a body. -/
def updateRefused (d : Database) (ev : Event) (authuser : UString) (account : AuthorizeRow) : Bool :=
  let admin := d.tables.isSysadmin ev.number
  let allowed : Bool := admin || account.authname = authuser
  let operAllowed : Bool := admin || d.tables.isMember 0 ev.number
  if !allowed && !operAllowed then true
  else if wantedAccess ev ≠ [] ∧ admin = false then true
  else (changedAccess account (wantedAccess ev)).isNone

/-- What `sendProfile` does for a body that it accepts. -/
def applyProfile (d : Database) (ev : Event) (endpoint extnbr : Int) (account : AuthorizeRow)
    (profile : Profile) (display email access publicUri : UString) : Database :=
  let d := if takesSecret ev account then d.emit (.dropEndpoint endpoint) else d
  (d.runQuery (·.writeProfile extnbr account.authname display email access
    (if takesSecret ev account then ev.json "s" else account.secret))).updateRoster.send
    (.answerWithJson ev (.profile { profile with d := display, e := email, p := publicUri }))

def profileRefused (d : Database) (ev : Event) (authuser : UString) : Bool :=
  match d.found ev with
  | .error _ => true
  | .ok (_,account) => ev.body ≠ [] && d.updateRefused ev authuser account

theorem found_ok (ok : d.found ev = .ok (extension,account)) :
    d.reachable (target ev) = true ∧ d.tables.profile? (target ev) = some (extension,account) := by
  simp only [found] at ok
  split at ok
  · contradiction
  · rename_i reached
    split at ok <;> cases ok
    rename_i row
    exact ⟨by simpa using reached,row⟩

theorem found_error (error : d.found ev = .error code) : code = Sip.forbidden ∨ code = Sip.notFound := by
  simp only [found] at error
  split at error
  · cases error
    exact .inl rfl
  · split at error <;> cases error
    exact .inr rfl

/-- The slot writes the row it has found, of the account it belongs to. -/
theorem profile?_some {t : Tables} {number : Int}
    (some : t.profile? number = some (extension,account)) :
    t.extension? number = .some extension ∧ t.account? extension.authname = .some account := by
  simp only [profile?,Option.bind_eq_bind,Option.bind_eq_some_iff,Option.pure_def,
    Option.some.injEq,Prod.mk.injEq] at some
  obtain ⟨found,extended,owner,stored,rfl,rfl⟩ := some
  exact ⟨extended,stored⟩

/-- What the body of a request has done to the profile it is answered with. -/
structure Updated (d : Database) (ev : Event) (authuser : UString) (endpoint : Int)
    (account : AuthorizeRow) (after : Database) where
  display : UString
  email : UString
  access : UString
  document : Document
  editor : d.tables.isSysadmin ev.number = true ∨ account.authname = authuser ∨
    d.tables.isMember 0 ev.number = true
  mailed : email = account.email ∨ d.tables.isSysadmin ev.number = true ∨ account.authname = authuser
  granted : access = account.authaccess ∨ d.tables.isSysadmin ev.number = true
  tables : after.tables = d.tables.writeProfile (target ev) account.authname display email access
    (if takesSecret ev account then ev.json "s" else account.secret)
  emitted : after.emitted = d.emitted ++
    if takesSecret ev account then [.dropEndpoint endpoint] else []
  wire : after.wire = d.wire ++ [.answerWithJson ev document]

theorem changedAccess_granted {wanted access : UString}
    (changed : changedAccess account wanted = some access) :
    access = account.authaccess ∨ wanted ≠ [] := by
  simp only [changedAccess] at changed
  split at changed
  · rename_i asked
    exact .inr (asked.1 ▸ by decide)
  split at changed
  · rename_i asked
    exact .inr (asked.1 ▸ by decide)
  split at changed
  · exact .inl (Option.some.inj changed).symm
  · contradiction

theorem applyProfile_updated (extnbr : Int) (profile : Profile)
    (display email access publicUri : UString) (number : extnbr = target ev)
    (editor : d.tables.isSysadmin ev.number = true ∨ account.authname = authuser ∨
      d.tables.isMember 0 ev.number = true)
    (mailed : email = account.email ∨ d.tables.isSysadmin ev.number = true ∨
      account.authname = authuser)
    (granted : access = account.authaccess ∨ d.tables.isSysadmin ev.number = true) :
    Nonempty (Updated d ev authuser endpoint account
      (d.applyProfile ev endpoint extnbr account profile display email access publicUri)) := by
  subst number
  refine ⟨⟨display,email,access,.profile { profile with d := display, e := email, p := publicUri },
    editor,mailed,granted,?_,?_,?_⟩⟩
  · simp only [applyProfile,send_tables,updateRoster_tables,runQuery_tables]
    split <;> rfl
  · simp only [applyProfile,send_emitted,updateRoster_emitted,runQuery_emitted]
    split
    · rfl
    · exact (List.append_nil _).symm
  · simp only [applyProfile,send_wire,updateRoster_wire,runQuery_wire]
    split <;> rfl

theorem updateProfile_cases (d : Database) (ev : Event) (authuser : UString) (endpoint : Int)
    (profile : Profile) (number : extension.extnbr = target ev) (mail : profile.e = account.email) :
    (d.updateRefused ev authuser account = true ∧
      d.updateProfile ev authuser endpoint extension account profile = d.reply ev Sip.forbidden) ∨
    (d.updateRefused ev authuser account = false ∧ Nonempty (Updated d ev authuser endpoint account
      (d.updateProfile ev authuser endpoint extension account profile))) := by
  simp only [updateProfile,updateRefused,wantedAccess]
  split
  · exact .inl ⟨rfl,rfl⟩
  rename_i editor
  split
  · rename_i unasked
    exact .inl ⟨if_pos unasked,rfl⟩
  rename_i asked
  simp only [asked,if_false]
  cases changed : changedAccess account (UString.toUpper (ev.json "a")) with
  | none => exact .inl ⟨rfl,rfl⟩
  | some access =>
    refine .inr ⟨rfl,applyProfile_updated extension.extnbr profile _ _ access _ number ?_ ?_ ?_⟩
    · by_contra stranger
      rw [not_or,not_or] at stranger
      exact editor (by simp [stranger])
    · split
      · rename_i own
        simp only [Bool.or_eq_true,decide_eq_true_eq] at own
        exact .inr own.2
      · exact .inl mail
    · refine (changedAccess_granted changed).imp_right fun wanted => ?_
      by_contra plain
      exact asked ⟨wanted,by simpa using plain⟩

theorem profileOf_e (d : Database) (ev : Event) (extension : ExtensionRow) (account : AuthorizeRow) :
    (d.profileOf ev extension account).e = account.email := by
  simp only [profileOf,ownProfile]
  split <;> rfl

theorem changedAccess_nil (account : AuthorizeRow) :
    changedAccess account [] = some account.authaccess := by
  have restricted : ([] : UString) ≠ "LOCAL" := by decide
  have remote : ([] : UString) ≠ "REMOTE" := by decide
  simp [changedAccess,restricted,remote]

/-- `sendProfile` refuses, shows the profile or changes it. -/
theorem sendProfile_cases (d : Database) (ev : Event) (authuser : UString) (endpoint : Int) :
    (d.profileRefused ev authuser = true ∧
      ∃ code, code ≠ Sip.ok ∧ d.sendProfile ev authuser endpoint = d.reply ev code) ∨
    (d.profileRefused ev authuser = false ∧ ev.body = [] ∧ ∃ document,
      d.sendProfile ev authuser endpoint = d.send (.answerWithJson ev document)) ∨
    (d.profileRefused ev authuser = false ∧ ev.body ≠ [] ∧ ∃ extension account,
      d.found ev = .ok (extension,account) ∧
      Nonempty (Updated d ev authuser endpoint account (d.sendProfile ev authuser endpoint))) := by
  cases known : d.found ev with
  | error code =>
    left
    refine ⟨by simp only [profileRefused,known],code,?_,?_⟩
    · rcases found_error known with rfl | rfl <;> decide
    · simp only [found] at known
      simp only [sendProfile]
      split at known
      · rename_i outside
        cases known
        rw [if_pos outside]
      · rename_i inside
        rw [if_neg inside]
        split at known <;> cases known
        rename_i missing
        simp only [missing]
  | ok row =>
    obtain ⟨extension,account⟩ := row
    obtain ⟨inside,found⟩ := found_ok known
    have shown : d.sendProfile ev authuser endpoint =
        if ev.body = [] then d.send (.answerWithJson ev (.profile (d.profileOf ev extension account)))
        else d.updateProfile ev authuser endpoint extension account
          (d.profileOf ev extension account) := by
      simp only [sendProfile,inside,found,Bool.true_eq_false,if_false]
    rw [shown]
    by_cases body : ev.body = []
    · right; left
      rw [if_pos body]
      exact ⟨by simp [profileRefused,known,body],body,_,rfl⟩
    rw [if_neg body]
    have number : extension.extnbr = target ev := (extension?_eq_some.mp (profile?_some found).1).2
    have checked : d.profileRefused ev authuser = d.updateRefused ev authuser account := by
      simp [profileRefused,known,body]
    rw [checked]
    rcases updateProfile_cases d ev authuser endpoint _ number (profileOf_e d ev extension account)
      with ⟨refused,replied⟩ | ⟨accepted,updated⟩
    · exact .inl ⟨refused,_,by decide,replied⟩
    · exact .inr (.inr ⟨accepted,body,extension,account,rfl,updated⟩)

section Forwards

variable (destination : UString) (row : AuthorizeRow)

theorem fwdnoanswer_authname : { row with fwdnoanswer := numberOf destination }.authname = row.authname := rfl

theorem fwdbusy_authname : { row with fwdbusy := numberOf destination }.authname = row.authname := rfl

theorem fwdaway_authname : { row with fwdaway := numberOf destination }.authname = row.authname := rfl

end Forwards

def forwards (d : Database) (ev : Event) : Except Nat (Tables → Tables) :=
  match d.found ev with
  | .error code => .error code
  | .ok (_,account) =>
    let sysadmin := d.tables.isSysadmin ev.number
    let own : Bool := target ev ≠ 0 && !isGroup account.authtype
    if !sysadmin && own && target ev ≠ ev.number then .error Sip.notAcceptableHere
    else if !sysadmin && !own && !d.tables.isAdmin account.authname ev.number then
      .error Sip.forbidden
    else
      match ev.header "x-destination" with
      | none => .error Sip.notAcceptableHere
      | some destination =>
        let fwdTo := numberOf destination
        if 0 < fwdTo ∧ d.inRange fwdTo = false then .error Sip.forbidden
        else if ev.header "subject" = some (UString.ascii "NA") then
          .ok (·.updateAuthorize account.authname
            (fun row => { row with fwdnoanswer := fwdTo }) (fwdnoanswer_authname destination))
        else if ev.header "subject" = some (UString.ascii "BUSY") then
          .ok (·.updateAuthorize account.authname
            (fun row => { row with fwdbusy := fwdTo }) (fwdbusy_authname destination))
        else if ev.header "subject" = some (UString.ascii "AWAY") then
          .ok (·.updateAuthorize account.authname
            (fun row => { row with fwdaway := fwdTo }) (fwdaway_authname destination))
        else .error Sip.notAcceptableHere

theorem changeForwarding_eq (d : Database) (ev : Event) (authuser : UString) (endpoint : Int) :
    d.changeForwarding ev authuser endpoint =
      match d.forwards ev with
      | .error code => d.reply ev code
      | .ok statement => (d.runQuery statement).sendProfile ev authuser endpoint := by
  simp only [changeForwarding,forwards]
  cases d.found ev with
  | error code => rfl
  | ok row =>
    dsimp only
    split
    · rfl
    split
    · rfl
    cases ev.header "x-destination" with
    | none => rfl
    | some destination =>
      dsimp only
      split
      · rfl
      split
      · rfl
      split
      · rfl
      split <;> rfl

def covers (d : Database) (ev : Event) : Except Nat (AuthorizeRow × Int) :=
  match d.found ev with
  | .error code => .error code
  | .ok (_,account) =>
    match ev.header "x-priority" with
    | none => .error Sip.notAcceptableHere
    | some value =>
      if numberOf value < -1 ∨ 3 < numberOf value then .error Sip.notAcceptableHere
      else .ok (account,numberOf value)

def removes (d : Database) (ev : Event) : Except Nat EndpointRow :=
  if target ev ≠ ev.number ∨ d.inRange ev.number = false then .error Sip.forbidden
  else
    match ev.header "x-remove" with
    | none => .error Sip.notAcceptableHere
    | some label =>
      if label = ev.label then .error Sip.forbidden
      else
        match d.tables.endpoint? ev.number label with
        | none => .error Sip.notFound
        | some row => .ok row

/-- A slot until it calls `sendProfile`: refused, or with its own statements done. -/
def begun (d : Database) (ev : Event) (authuser : UString) : Method → Except Nat Database
  | .forwarding => (d.forwards ev).map d.runQuery
  | .coverage => (d.covers ev).map fun change => d.cover ev authuser change.1 change.2
  | .devkill => (d.removes ev).map fun row =>
    (d.emit (.dropEndpoint row.endpoint)).runQuery (·.deleteEndpoint row.endpoint)
  | _ => .ok d

def profiling : List Method := [.profile,.coverage,.forwarding,.devkill]

theorem handle_begun (d : Database) (ev : Event) (reg : Registry) {method : Method}
    (profiled : method ∈ profiling) : d.handle (Method.signal ev reg method) =
      match d.begun ev reg.userId method with
      | .error code => d.reply ev code
      | .ok d' => d'.sendProfile ev reg.userId reg.endpointId := by
  simp only [profiling,List.mem_cons,List.not_mem_nil,or_false] at profiled
  rcases profiled with rfl | rfl | rfl | rfl
  · rfl
  · simp only [Method.signal,handle,changeCoverage_eq,begun,covers]
    cases d.found ev with
    | error code => rfl
    | ok row =>
      dsimp only
      cases ev.header "x-priority" with
      | none => rfl
      | some value =>
        dsimp only
        split <;> rfl
  · simp only [Method.signal,handle,changeForwarding_eq,begun]
    cases d.forwards ev <;> rfl
  · simp only [Method.signal,handle,removeDevice,begun,removes]
    split
    · rfl
    cases ev.header "x-remove" with
    | none => rfl
    | some label =>
      dsimp only
      split
      · rfl
      cases d.tables.endpoint? ev.number label <;> rfl

structure Unaltered (d d' : Database) : Prop where
  numbers : (d'.firstNumber,d'.lastNumber) = (d.firstNumber,d.lastNumber)
  accounts : ∀ name, (d'.tables.account? name).map AuthorizeRow.unforwarded =
    (d.tables.account? name).map AuthorizeRow.unforwarded
  extensions : ∀ number, (d'.tables.extension? number).map ExtensionRow.unranked =
    (d.tables.extension? number).map ExtensionRow.unranked
  admin : d'.tables.admin = d.tables.admin
  groups : d'.tables.groups = d.tables.groups

namespace Unaltered

variable (same : Unaltered d d')

include same

theorem isSysadmin (number : Int) : d'.tables.isSysadmin number = d.tables.isSysadmin number := by
  simp only [Tables.isSysadmin,Tables.isAdmin,same.admin]

theorem isMember (number : Int) : d'.tables.isMember 0 number = d.tables.isMember 0 number := by
  simp only [Tables.isMember,same.groups]

theorem stored {name : UString} (known : d.tables.account? name = some account) :
    ∃ account', d'.tables.account? name = some account' ∧
      account'.unforwarded = account.unforwarded := by
  have stored := same.accounts name
  rw [known] at stored
  exact Option.map_eq_some_iff.mp stored

theorem found (ok : d.found ev = .ok (extension,account)) : ∃ extension' account',
    d'.found ev = .ok (extension',account') ∧ account'.unforwarded = account.unforwarded := by
  obtain ⟨inside,joined⟩ := found_ok ok
  obtain ⟨extended,stored⟩ := profile?_some joined
  have other := same.extensions (target ev)
  rw [extended] at other
  obtain ⟨extension',extended',rank⟩ := Option.map_eq_some_iff.mp other
  have owner : extension'.authname = extension.authname :=
    (congrArg ExtensionRow.authname rank :)
  obtain ⟨account',stored',equal⟩ := same.stored stored
  obtain ⟨first,last⟩ := Prod.mk.inj same.numbers
  refine ⟨extension',account',?_,equal⟩
  have reached : d'.reachable (target ev) = true := by
    simpa only [reachable,inRange,first,last] using inside
  simp [Database.found,reached,Tables.profile?,extended',owner,stored']

theorem symm : Unaltered d' d where
  numbers := same.numbers.symm
  accounts name := (same.accounts name).symm
  extensions number := (same.extensions number).symm
  admin := same.admin.symm
  groups := same.groups.symm

theorem profileRefused : d'.profileRefused ev authuser = d.profileRefused ev authuser := by
  simp only [Database.profileRefused]
  cases known : d.found ev with
  | ok row =>
    obtain ⟨extension,account⟩ := row
    obtain ⟨extension',account',known',equal⟩ := same.found known
    have name : account'.authname = account.authname :=
      (congrArg AuthorizeRow.authname equal :)
    have access : account'.authaccess = account.authaccess :=
      (congrArg AuthorizeRow.authaccess equal :)
    simp only [known',updateRefused,same.isSysadmin,same.isMember,name,changedAccess,access]
  | error code =>
    cases known' : d'.found ev with
    | error code => rfl
    | ok row =>
      obtain ⟨_,_,found,-⟩ := same.symm.found known'
      rw [known] at found
      contradiction

end Unaltered

theorem unaltered_of (numbers : (d'.firstNumber,d'.lastNumber) = (d.firstNumber,d.lastNumber))
    (authorize : d'.tables.authorize = d.tables.authorize)
    (extensions : d'.tables.extensions = d.tables.extensions)
    (admin : d'.tables.admin = d.tables.admin) (groups : d'.tables.groups = d.tables.groups) :
    Unaltered d d' where
  numbers
  accounts name := by simp only [account?,authorize]
  extensions number := by simp only [extension?,extensions]
  admin
  groups

/-- A change of one account that leaves all but its forwarding. -/
theorem unaltered_forward {change : AuthorizeRow → AuthorizeRow}
    {same : ∀ row, (change row).authname = row.authname} (name : UString)
    (forward : ∀ row, (change row).unforwarded = row.unforwarded) :
    Unaltered d (d.runQuery (·.updateAuthorize name change same)) where
  numbers := rfl
  accounts other := by
    simp only [runQuery_tables,account?_updateAuthorize,Option.map_map]
    congr 1
    funext row
    simp only [Function.comp_apply]
    split
    · exact forward row
    · rfl
  extensions _ := rfl
  admin := rfl
  groups := rfl

theorem forwards_unaltered {statement : Tables → Tables} (ok : d.forwards ev = .ok statement) :
    Unaltered d (d.runQuery statement) := by
  simp only [forwards] at ok
  repeat' split at ok
  all_goals cases ok
  all_goals exact unaltered_forward _ fun _ => rfl

theorem cover_unaltered (account : AuthorizeRow) (priority : Int) :
    Unaltered d (d.cover ev authuser account priority) := by
  simp only [cover]
  split
  · refine ⟨rfl,fun _ => rfl,fun number => ?_,rfl,rfl⟩
    simp only [runQuery_tables,extension?_updateExtension,Option.map_map]
    congr 1
    funext row
    simp only [Function.comp_apply]
    split <;> rfl
  split
  · exact unaltered_of rfl rfl rfl rfl rfl
  · simp only [runQuery]
    obtain ⟨calling,inserted⟩ := insertCalling_frame { d.tables with
      calling := d.tables.calling.filter fun row =>
        !(row.authname = account.authname && row.extnbr = ev.number) }
      { authname := account.authname, extnbr := ev.number, extpriority := priority }
    rw [inserted]
    exact unaltered_of rfl rfl rfl rfl rfl

/-- A slot's own statements leave the profile columns alone. -/
theorem begun_unaltered {method : Method} (ok : d.begun ev authuser method = .ok d') :
    Unaltered d d' := by
  have unchanged : Unaltered d d := unaltered_of rfl rfl rfl rfl rfl
  cases method <;> simp only [begun] at ok
  case forwarding =>
    cases checked : d.forwards ev with
    | error code => simp [checked,Except.map] at ok
    | ok statement =>
      simp only [checked,Except.map,Except.ok.injEq] at ok
      exact ok ▸ forwards_unaltered checked
  case coverage =>
    cases checked : d.covers ev with
    | error code => simp [checked,Except.map] at ok
    | ok change =>
      simp only [checked,Except.map,Except.ok.injEq] at ok
      exact ok ▸ cover_unaltered _ _
  case devkill =>
    cases checked : d.removes ev with
    | error code => simp [checked,Except.map] at ok
    | ok row =>
      simp only [checked,Except.map,Except.ok.injEq] at ok
      obtain ⟨authorize,extensions,admin,groups⟩ := deleteEndpoint_frame d.tables row.endpoint
      exact ok ▸ unaltered_of rfl authorize extensions admin groups
  all_goals
    cases ok
    exact unchanged

/-- Credentials change for their user and the sysadmins, the access for sysadmins only.
Of an operator who is neither, `sendProfile` takes a display name. The statements of the
slots that call it leave the profile columns alone. -/
structure Confined (d : Database) (ev : Event) (reg : Registry) (method : Method)
    (after : Tables) : Prop where
  credentials : ∀ old ∈ d.tables.authorize, ∀ new ∈ after.authorize, new.authname = old.authname →
    (new.secret ≠ old.secret ∨ new.email ≠ old.email) →
    old.authname = reg.userId ∨ d.tables.isSysadmin ev.number = true
  access : ∀ old ∈ d.tables.authorize, ∀ new ∈ after.authorize, new.authname = old.authname →
    new.authaccess ≠ old.authaccess → d.tables.isSysadmin ev.number = true
  own : ∀ d', d.begun ev reg.userId method = .ok d' → Unaltered d d'
  operator : d.tables.isMember 0 ev.number = true → d.tables.isSysadmin ev.number = false →
    (∀ extension account, d.found ev = .ok (extension,account) → account.authname ≠ reg.userId) →
    match d.begun ev reg.userId method with
    | .error _ => after = d.tables
    | .ok d' => after = d'.tables ∨ ∃ display, after = d'.tables.updateExtension (target ev)
        (fun row => { row with display }) fun _ => rfl

/-- An operator's body brings a secret of the right length for somebody else's account, and
no access. -/
structure Exposed (d : Database) (ev : Event) (reg : Registry) (method : Method) : Prop where
  passed : ∃ d', d.begun ev reg.userId method = .ok d'
  found : ∃ extension account, d.found ev = .ok (extension,account) ∧
    account.authname ≠ reg.userId ∧ takesSecret ev account = true ∧ ev.json "s" ≠ account.secret
  operator : d.tables.isMember 0 ev.number = true
  plain : d.tables.isSysadmin ev.number = false
  body : ev.body ≠ []
  unasked : wantedAccess ev = []

/-- What a change of the profile of a found account leaves of the accounts. -/
theorem Updated.account? {after : Database} (updated : Updated d ev authuser endpoint account after)
    (name : UString) : after.tables.account? name = (d.tables.account? name).map fun row =>
      if row.authname = account.authname then
        { row with
          email := updated.email
          authaccess := updated.access
          secret := if takesSecret ev account then ev.json "s" else account.secret }
      else row := by
  rw [updated.tables,account?_writeProfile]

theorem Unaltered.columns (same : Unaltered d d') {old new : AuthorizeRow}
    (known : old ∈ d.tables.authorize) (stored : new ∈ d'.tables.authorize)
    (name : new.authname = old.authname) : new.unforwarded = old.unforwarded := by
  obtain ⟨other,found,equal⟩ := same.stored (account?_eq_some.mpr ⟨known,rfl⟩)
  obtain ⟨member,named⟩ := account?_eq_some.mp found
  rw [Table.unique stored member (name.trans named.symm),equal]

/-- The account that was found is rewritten, the others stay. -/
theorem Updated.columns {after : Database} (same : Unaltered d d')
    (updated : Updated d' ev authuser endpoint account after)
    (stored : account ∈ d'.tables.authorize) {old new : AuthorizeRow}
    (known : old ∈ d.tables.authorize) (left : new ∈ after.tables.authorize)
    (name : new.authname = old.authname) :
    new.unforwarded = old.unforwarded ∨
    (account.authname = old.authname ∧ account.unforwarded = old.unforwarded ∧
      new.email = updated.email ∧ new.authaccess = updated.access ∧
      new.secret = if takesSecret ev account then ev.json "s" else account.secret) := by
  have row := updated.account? new.authname
  rw [account?_eq_some.mpr ⟨left,rfl⟩] at row
  obtain ⟨before,found,rewritten⟩ := Option.map_eq_some_iff.mp row.symm
  obtain ⟨member,named⟩ := account?_eq_some.mp found
  by_cases here : before.authname = account.authname
  · rw [if_pos here] at rewritten
    have owner : account.authname = old.authname := here.symm.trans (named.trans name)
    exact .inr ⟨owner,same.columns known stored owner,by simp [← rewritten],by simp [← rewritten],
      by simp [← rewritten]⟩
  · rw [if_neg here] at rewritten
    exact .inl (same.columns known (rewritten ▸ member) name)

/-- Of somebody else's account an operator without system rights changes the display. -/
theorem Updated.displayed {after : Database}
    (updated : Updated d ev authuser endpoint account after)
    (stored : account ∈ d.tables.authorize) (plain : d.tables.isSysadmin ev.number = false)
    (other : account.authname ≠ authuser)
    (kept : takesSecret ev account = true → ev.json "s" = account.secret) :
    ∃ display, after.tables = d.tables.updateExtension (target ev)
      (fun row => { row with display }) fun _ => rfl := by
  have email : updated.email = account.email := by
    rcases updated.mailed with same | admin | own
    · exact same
    · rw [plain] at admin; contradiction
    · exact absurd own other
  have access : updated.access = account.authaccess := by
    rcases updated.granted with same | admin
    · exact same
    · rw [plain] at admin; contradiction
  have secret : (if takesSecret ev account then ev.json "s" else account.secret) =
      account.secret := by
    split
    · rename_i taken
      exact kept taken
    · rfl
  refine ⟨updated.display,?_⟩
  rw [updated.tables,email,access,secret,writeProfile]
  exact updateAuthorize_fixed (t := d.tables.updateExtension (target ev) _ _) stored rfl

theorem confined_unaltered {reg : Registry} {method : Method}
    (begun : d.begun ev reg.userId method = .ok d') : Confined d ev reg method d'.tables := by
  have same := begun_unaltered begun
  refine ⟨?_,?_,fun _ => begun_unaltered,?_⟩
  · intro old known new stored name changed
    have equal := same.columns known stored name
    have secret : new.secret = old.secret := (congrArg AuthorizeRow.secret equal :)
    have email : new.email = old.email := (congrArg AuthorizeRow.email equal :)
    simp [secret,email] at changed
  · intro old known new stored name changed
    exact absurd (congrArg AuthorizeRow.authaccess (same.columns known stored name) :) changed
  · intro _ _ _
    simp only [begun]
    exact .inl trivial

theorem confined_refused {reg : Registry} {method : Method}
    (refused : d.begun ev reg.userId method = .error code) :
    Confined d ev reg method d.tables := by
  refine ⟨?_,?_,fun _ => begun_unaltered,?_⟩
  · intro old known new stored name changed
    rw [Table.unique stored known name] at changed
    simp at changed
  · intro old known new stored name changed
    exact absurd (congrArg AuthorizeRow.authaccess (Table.unique stored known name)) changed
  · intro _ _ _
    simp only [refused]

/-- A secret of an account that is not one's own needs the system row. -/
theorem secret_guarded {reg : Registry} {method : Method} {after : Database}
    (begun : d.begun ev reg.userId method = .ok d')
    (found : d'.found ev = .ok (extension,account)) (body : ev.body ≠ [])
    (accepted : d'.profileRefused ev reg.userId = false)
    (updated : Updated d' ev reg.userId endpoint account after)
    (safe : ¬Exposed d ev reg method) (taken : takesSecret ev account = true)
    (fresh : ev.json "s" ≠ account.secret) :
    account.authname = reg.userId ∨ d.tables.isSysadmin ev.number = true := by
  have same := begun_unaltered begun
  have editor := updated.editor
  rw [same.isSysadmin,same.isMember] at editor
  by_contra stranger
  rw [not_or,Bool.not_eq_true] at stranger
  obtain ⟨other,plain⟩ := stranger
  obtain ⟨extension',account',known,equal⟩ := same.symm.found found
  have name : account'.authname = account.authname := (congrArg AuthorizeRow.authname equal :)
  have secret : account'.secret = account.secret := (congrArg AuthorizeRow.secret equal :)
  refine safe ⟨⟨d',begun⟩,⟨extension',account',known,name ▸ other,?_,secret ▸ fresh⟩,?_,plain,body,?_⟩
  · rw [takesSecret,secret]
    exact taken
  · rcases editor with admin | own | member
    · rw [plain] at admin; contradiction
    · exact absurd own other
    · exact member
  · by_contra wanted
    have refused : d'.updateRefused ev reg.userId account = true := by
      simp [updateRefused,same.isSysadmin,plain,wanted]
    simp [profileRefused,found,body,refused] at accepted

theorem confined_updated {reg : Registry} {method : Method} {after : Database}
    (begun : d.begun ev reg.userId method = .ok d')
    (found : d'.found ev = .ok (extension,account)) (body : ev.body ≠ [])
    (accepted : d'.profileRefused ev reg.userId = false)
    (updated : Updated d' ev reg.userId endpoint account after)
    (safe : ¬Exposed d ev reg method) : Confined d ev reg method after.tables := by
  have same := begun_unaltered begun
  have stored : account ∈ d'.tables.authorize :=
    (account?_eq_some.mp (profile?_some (found_ok found).2).2).1
  have guarded := secret_guarded begun found body accepted updated safe
  refine ⟨?_,?_,fun _ => begun_unaltered,?_⟩
  · intro old known new left name changed
    rcases updated.columns same stored known left name with
      equal | ⟨owner,before,email,-,secret⟩
    · have unread : new.secret = old.secret := (congrArg AuthorizeRow.secret equal :)
      have unsent : new.email = old.email := (congrArg AuthorizeRow.email equal :)
      simp [unread,unsent] at changed
    · rw [← owner]
      rcases changed with fresh | sent
      · split at secret
        · rename_i taken
          refine guarded taken fun kept => fresh ?_
          rw [secret,kept]
          exact (congrArg AuthorizeRow.secret before :)
        · exact absurd (secret.trans (congrArg AuthorizeRow.secret before :)) fresh
      · rcases updated.mailed with kept | admin | own
        · exact absurd (email.trans (kept.trans (congrArg AuthorizeRow.email before :))) sent
        · exact .inr (same.isSysadmin _ ▸ admin)
        · exact .inl own
  · intro old known new left name changed
    rcases updated.columns same stored known left name with equal | ⟨owner,before,-,access,-⟩
    · exact absurd (congrArg AuthorizeRow.authaccess equal :) changed
    · rcases updated.granted with kept | admin
      · exact absurd (access.trans (kept.trans (congrArg AuthorizeRow.authaccess before :))) changed
      · exact same.isSysadmin _ ▸ admin
  · intro _ plain neither
    simp only [begun]
    obtain ⟨extension',account',known,equal⟩ := same.symm.found found
    have name : account'.authname = account.authname := (congrArg AuthorizeRow.authname equal :)
    have other : account.authname ≠ reg.userId := name ▸ neither _ _ known
    refine .inr (updated.displayed stored ((same.isSysadmin _).trans plain) other fun taken => ?_)
    by_contra fresh
    rcases guarded taken fresh with own | admin
    · exact other own
    · rw [plain] at admin; contradiction

/-- A request that ends in `sendProfile` confines credentials to their user and the
sysadmins, unless an operator sets another user's secret: the branch that takes a secret
asks for no right of its own. -/
theorem credentials_confined_iff (d : Database) (ev : Event) (reg : Registry) (method : Method)
    (profiled : method ∈ profiling) :
    Confined d ev reg method (d.handle (Method.signal ev reg method)).tables ↔
      ¬Exposed d ev reg method := by
  rw [handle_begun d ev reg profiled]
  constructor
  · rintro confined ⟨⟨d',begun⟩,⟨extension,account,known,other,taken,fresh⟩,operator,plain,body,unasked⟩
    have same := begun_unaltered begun
    have accepted : d.profileRefused ev reg.userId = false := by
      simp [profileRefused,known,updateRefused,operator,unasked,changedAccess_nil]
    simp only [begun] at confined
    rcases sendProfile_cases d' ev reg.userId reg.endpointId with
      ⟨refused,-⟩ | ⟨-,bodyless,-⟩ | ⟨-,-,extension',account',found,⟨updated⟩⟩
    · rw [same.profileRefused,accepted] at refused
      contradiction
    · exact body bodyless
    · obtain ⟨_,_,found',equal⟩ := same.found known
      rw [found] at found'
      obtain ⟨rfl,rfl⟩ := Prod.mk.inj (Except.ok.inj found')
      have name : account'.authname = account.authname := (congrArg AuthorizeRow.authname equal :)
      have secret : account'.secret = account.secret := (congrArg AuthorizeRow.secret equal :)
      have stored := (profile?_some (found_ok known).2).2
      have stored' := (profile?_some (found_ok found).2).2
      have left := updated.account? account'.authname
      rw [account?_eq_some.mpr ⟨(account?_eq_some.mp stored').1,rfl⟩,Option.map_some,if_pos rfl,
        takesSecret,secret,← takesSecret,if_pos taken] at left
      obtain ⟨member,named⟩ := account?_eq_some.mp left
      rcases confined.credentials account (account?_eq_some.mp stored).1 _ member (named.trans name)
          (.inl fresh) with own | admin
      · exact other own
      · rw [plain] at admin; contradiction
  · intro safe
    cases begun : d.begun ev reg.userId method with
    | error code => exact confined_refused begun
    | ok d' =>
      dsimp only
      rcases sendProfile_cases d' ev reg.userId reg.endpointId with
        ⟨-,code,-,replied⟩ | ⟨-,-,document,shown⟩ | ⟨accepted,body,extension,account,found,⟨updated⟩⟩
      · rw [replied,reply_tables]
        exact confined_unaltered begun
      · rw [shown,send_tables]
        exact confined_unaltered begun
      · exact confined_updated begun found body accepted updated safe

def operatorSecret : Event :=
  { Site.request "X-PROFILE" with
    number := 102
    toUser := some "101"
    toLocal := true
    contentType := "profile/json"
    body := "\x7b\"s\":\"00000000000000000000000000000000\"\x7d"
    members := [("s","00000000000000000000000000000000")] }

def operatorSite : Database where
  tables := {
    authorize := Site.users
    extensions := Site.numbers
    groups := { rows := [{ grpnbr := 0, extnbr := 102 }] } }

def operatorRecord : Registry := Registry.create
  { user := "test2", number := 102, label := "desk", endpoint := 4, expires := 600 } 0

theorem operator_sets_secret : ¬Confined operatorSite operatorSecret operatorRecord .profile
    (operatorSite.handle (Method.signal operatorSecret operatorRecord .profile)).tables := by
  intro confined
  have changed : (operatorSite.handle (Method.signal operatorSecret operatorRecord
      .profile)).tables.account? "test1" =
        some { Site.account with secret := "00000000000000000000000000000000" } := by
    decide +kernel
  have own := confined.credentials Site.account (by decide) _ (account?_eq_some.mp changed).1 rfl
    (.inl (by decide))
  revert own
  decide

def operatorRename : Event := { operatorSecret with members := [("d","Test One")] }

theorem credentials_confined_iff_rename : Confined operatorSite operatorRename operatorRecord .profile
    (operatorSite.handle (Method.signal operatorRename operatorRecord .profile)).tables :=
  (credentials_confined_iff operatorSite operatorRename operatorRecord .profile
    (by decide)).mpr fun exposed => by
      obtain ⟨extension,account,-,-,taken,-⟩ := exposed.found
      have unsent : operatorRename.json "s" = [] := by decide
      simp [takesSecret,unsent,UString.textLength] at taken

def fresh (d : Database) : Database := { d with wire := [], emitted := [] }

/-- The requests whose slots change what is not the requester's own. -/
def changing : List Method := [.authorize,.forwarding,.coverage,.drop,.admin,.membership,.devkill,
  .profile,.deauthorize]

/-- What has failed by its reply has changed no table and disconnected no endpoint. -/
def Harmless (ev : Event) (before : Tables) (after : Database) : Prop :=
  ∀ code, .reply ev code ∈ after.wire → code ≠ Sip.ok →
    after.tables = before ∧ ∀ endpoint, .dropEndpoint endpoint ∉ after.emitted

/-- A request passes the checks of its slot, something is changed for it, and a check that
the slot makes later refuses it. -/
inductive Botched (d : Database) (ev : Event) (reg : Registry) : Method → Prop where
  | forwarding (statement : Tables → Tables) (checked : d.forwards ev = .ok statement)
      (changes : statement d.tables ≠ d.tables)
      (refused : d.profileRefused ev reg.userId = true) : Botched d ev reg .forwarding
  | coverage (account : AuthorizeRow) (priority : Int) (checked : d.covers ev = .ok (account,priority))
      (changes : (d.cover ev reg.userId account priority).tables ≠ d.tables)
      (refused : d.profileRefused ev reg.userId = true) : Botched d ev reg .coverage
  | devkill (row : EndpointRow) (checked : d.removes ev = .ok row)
      (refused : d.profileRefused ev reg.userId = true) : Botched d ev reg .devkill
  | admin (extension : ExtensionRow) (account : AuthorizeRow)
      (found : d.found ev = .ok (extension,account))
      (sysadmin : d.tables.isSysadmin ev.number = true)
      (changes : (d.changeSystem ev).tables ≠ d.tables)
      (suspending : ev.header "x-suspend" ≠ none)
      (shared : isUser account.authtype = false) : Botched d ev reg .admin

theorem harmless_unchanged {before : Tables} {after : Database} (tables : after.tables = before)
    (silent : after.emitted = []) : Harmless ev before after :=
  fun _ _ _ => ⟨tables,by simp [silent]⟩

theorem harmless_ok {before : Tables} {after : Database} (wire : after.wire = [.reply ev Sip.ok]) :
    Harmless ev before after := by
  intro code sent failed
  rw [wire,List.mem_singleton] at sent
  cases sent
  contradiction

theorem harmless_json {before : Tables} {after : Database} (document : Document)
    (wire : after.wire = [.answerWithJson ev document]) : Harmless ev before after := by
  intro code sent
  rw [wire,List.mem_singleton] at sent
  contradiction

/-- What was changed before `sendProfile` does harm when that refuses. -/
theorem sendProfile_harmless (before : Tables) (unsent : d.wire = []) :
    Harmless ev before (d.sendProfile ev authuser endpoint) ↔
      (d.profileRefused ev authuser = true →
        d.tables = before ∧ ∀ endpoint, .dropEndpoint endpoint ∉ d.emitted) := by
  rcases sendProfile_cases d ev authuser endpoint with
    ⟨refused,code,failed,replied⟩ | ⟨accepted,-,document,shown⟩ | ⟨accepted,-,_,_,-,⟨updated⟩⟩
  · rw [replied]
    constructor
    · intro harmless _
      exact harmless code (by simp [unsent]) failed
    · intro clean other _ _
      exact clean refused
  · rw [shown]
    refine iff_of_true (harmless_json document (by rw [send_wire,unsent]; rfl)) fun refused => ?_
    rw [accepted] at refused
    contradiction
  · refine iff_of_true (harmless_json _ (by rw [updated.wire,unsent]; rfl)) fun refused => ?_
    rw [accepted] at refused
    contradiction

/-- Without a body a profile that is found is shown. -/
theorem sendProfile_shown (authuser : UString) (endpoint : Int) (body : ev.body = [])
    (found : d.found ev = .ok (extension,account)) :
    ∃ document, d.sendProfile ev authuser endpoint = d.send (.answerWithJson ev document) := by
  rcases sendProfile_cases d ev authuser endpoint with ⟨refused,-⟩ | ⟨-,-,shown⟩ | ⟨-,full,-⟩
  · simp [profileRefused,found,body] at refused
  · exact shown
  · contradiction

theorem found_congr (numbers : (d'.firstNumber,d'.lastNumber) = (d.firstNumber,d.lastNumber))
    (authorize : d'.tables.authorize = d.tables.authorize)
    (extensions : d'.tables.extensions = d.tables.extensions) : d'.found ev = d.found ev := by
  obtain ⟨first,last⟩ := Prod.mk.inj numbers
  simp only [found,reachable,inRange,first,last,profile?,account?,extension?,authorize,extensions]
  rfl

theorem changeAuthorize_harmless : Harmless ev d.tables (d.fresh.changeAuthorize ev) := by
  simp only [changeAuthorize]
  split
  · exact harmless_unchanged rfl rfl
  split
  · exact harmless_unchanged rfl rfl
  split
  · split
    · exact harmless_unchanged rfl rfl
    split
    · exact harmless_ok rfl
    · exact harmless_ok rfl
  · split
    · exact harmless_unchanged rfl rfl
    split
    · exact harmless_unchanged rfl rfl
    split
    · exact harmless_unchanged rfl rfl
    · exact harmless_ok rfl

theorem removeAuthorization_harmless :
    Harmless ev d.tables (Authorize.removeAuthorization d.fresh ev) := by
  simp only [Authorize.removeAuthorization]
  split
  · exact harmless_unchanged rfl rfl
  split
  · exact harmless_unchanged rfl rfl
  split
  · exact harmless_unchanged rfl rfl
  · refine harmless_ok ?_
    rw [updateRoster_wire]
    exact foldl_kept (P := fun after => after.wire = [.reply ev Sip.ok]) _ _
      (fun _ _ holds => holds) rfl

theorem dropExtension_harmless (body : ev.body = []) :
    Harmless ev d.tables (d.fresh.dropExtension ev authuser endpoint) := by
  simp only [dropExtension]
  split
  · exact harmless_unchanged rfl rfl
  rename_i extension account found
  split
  · exact harmless_unchanged rfl rfl
  split
  · exact harmless_unchanged rfl rfl
  obtain ⟨document,shown⟩ := sendProfile_shown authuser endpoint body found
  rw [shown]
  exact harmless_json document rfl

theorem changeMembership_harmless (body : ev.body = []) :
    Harmless ev d.tables (d.fresh.changeMembership ev authuser endpoint) := by
  rw [changeMembership_eq]
  split
  · exact harmless_unchanged rfl rfl
  rename_i extension account found
  split
  · exact harmless_unchanged rfl rfl
  split
  · exact harmless_unchanged rfl rfl
  obtain ⟨admin,groups,replaced⟩ := replaceMembers_frame d.fresh ev account
  have still : (d.fresh.replaceMembers ev account).found ev = .ok (extension,account) := by
    rw [replaced]
    exact (found_congr rfl rfl rfl).trans found
  obtain ⟨document,shown⟩ := sendProfile_shown authuser endpoint body still
  refine harmless_json document ?_
  rw [notifyMembers_wire,shown,send_wire,replaceMembers_wire]
  rfl

theorem changeSuspend_harmless (suspend : Bool) (body : ev.body = []) (unsent : d.wire = [])
    (found : d.found ev = .ok (extension,account)) (before : Tables) :
    Harmless ev before (d.changeSuspend ev authuser endpoint account suspend) := by
  obtain ⟨inside,joined⟩ := found_ok found
  have still : ∃ account', (d.runQuery (·.updateAuthorize account.authname
      (fun row => { row with authaccess := if suspend then "SUSPEND" else "LOCAL" })
      fun _ => rfl)).found ev = .ok (extension,account') := by
    have reached : (d.runQuery (·.updateAuthorize account.authname
      (fun row => { row with authaccess := if suspend then "SUSPEND" else "LOCAL" })
      fun _ => rfl)).reachable (target ev) = true := inside
    simp [Database.found,reached,joined]
  obtain ⟨account',known⟩ := still
  obtain ⟨document,shown⟩ := sendProfile_shown authuser endpoint body known
  refine harmless_json document ?_
  simp only [changeSuspend,shown]
  split
  · rw [disconnect_wire,send_wire,runQuery_wire,unsent]
    rfl
  · rw [send_wire,runQuery_wire,unsent]
    rfl

theorem changeAdmin_harmless (reg : Registry) (body : ev.body = []) :
    Harmless ev d.tables (d.fresh.changeAdmin ev authuser endpoint) ↔ ¬Botched d ev reg .admin := by
  rw [changeAdmin_eq]
  have same : d.fresh.found ev = d.found ev := rfl
  rw [same]
  cases found : d.found ev with
  | error code =>
    refine iff_of_true (harmless_unchanged rfl rfl) ?_
    rintro (_ | _ | _ | ⟨_,_,known,_,_,_,_⟩)
    rw [found] at known
    contradiction
  | ok row =>
    obtain ⟨extension,account⟩ := row
    obtain ⟨admin,system⟩ := changeSystem_frame d.fresh ev
    have still : (d.fresh.changeSystem ev).found ev = .ok (extension,account) := by
      rw [system]
      exact (found_congr (d := d) rfl rfl rfl).trans found
    have unsent : (d.fresh.changeSystem ev).wire = [] := changeSystem_wire
    have silent : (d.fresh.changeSystem ev).emitted = [] := by rw [system]; rfl
    have tables : (d.fresh.changeSystem ev).tables = (d.changeSystem ev).tables := by
      simp only [changeSystem]
      split
      · rfl
      · split <;> rfl
    dsimp only
    split
    · rename_i plain
      refine iff_of_true (harmless_unchanged rfl rfl) ?_
      rintro (_ | _ | _ | ⟨_,_,_,sysadmin,_,_,_⟩)
      rw [show d.tables.isSysadmin ev.number = false from plain] at sysadmin
      contradiction
    rename_i sysadmin
    cases header : ev.header "x-suspend" with
    | none =>
      obtain ⟨document,shown⟩ := sendProfile_shown authuser endpoint
        body still
      refine iff_of_true (harmless_json document ?_) ?_
      · rw [shown,send_wire,unsent]
        rfl
      · rintro (_ | _ | _ | ⟨_,_,_,_,_,suspending,_⟩)
        exact suspending header
    | some value =>
      dsimp only
      split
      · rename_i shared
        constructor
        · rintro harmless (_ | _ | _ | ⟨_,_,_,_,changes,_,_⟩)
          refine changes ?_
          rw [← tables]
          exact (harmless Sip.notAcceptableHere (by simp) (by decide)).1
        · intro safe
          refine harmless_unchanged ?_ silent
          rw [reply_tables,tables]
          by_contra changes
          have admin : d.tables.isSysadmin ev.number = true := Bool.of_not_eq_false sysadmin
          exact safe (.admin extension account found admin changes (by simp [header]) shared)
      · rename_i user
        refine iff_of_true (changeSuspend_harmless _ body unsent still _) ?_
        rintro (_ | _ | _ | ⟨_,_,known,_,_,_,shared⟩)
        rw [found] at known
        cases known
        exact user shared

@[simp] theorem cover_emitted (priority : Int) :
    (d.cover ev authuser account priority).emitted = d.emitted := by
  simp only [cover]
  repeat' split
  all_goals rfl

theorem fresh_cover (priority : Int) :
    (d.fresh.cover ev authuser account priority).tables =
      (d.cover ev authuser account priority).tables := by
  simp only [cover]
  repeat' split
  all_goals rfl

theorem changeCoverage_harmless (reg : Registry) :
    Harmless ev d.tables (d.fresh.handle (Method.signal ev reg .coverage)) ↔
      ¬Botched d ev reg .coverage := by
  rw [handle_begun d.fresh ev reg (by decide)]
  have same : d.fresh.covers ev = d.covers ev := rfl
  simp only [begun,same]
  cases checked : d.covers ev with
  | error code =>
    refine iff_of_true (harmless_unchanged rfl rfl) ?_
    rintro (_ | ⟨_,_,passed,_,_⟩)
    rw [checked] at passed
    contradiction
  | ok change =>
    simp only [Except.map]
    rw [sendProfile_harmless d.tables (cover_wire _ _ _),
      (cover_unaltered (d := d.fresh) change.1 change.2).profileRefused,fresh_cover,cover_emitted]
    constructor
    · rintro clean (_ | ⟨account,priority,passed,changes,refused⟩)
      rw [checked] at passed
      cases passed
      exact changes (clean refused).1
    · intro safe refused
      refine ⟨?_,by simp [fresh]⟩
      by_contra changes
      exact safe (.coverage change.1 change.2 checked changes refused)

theorem changeForwarding_harmless (reg : Registry) :
    Harmless ev d.tables (d.fresh.handle (Method.signal ev reg .forwarding)) ↔
      ¬Botched d ev reg .forwarding := by
  rw [handle_begun d.fresh ev reg (by decide)]
  have same : d.fresh.forwards ev = d.forwards ev := rfl
  simp only [begun,same]
  cases checked : d.forwards ev with
  | error code =>
    refine iff_of_true (harmless_unchanged rfl rfl) ?_
    rintro ⟨_,passed,_,_⟩
    rw [checked] at passed
    contradiction
  | ok statement =>
    simp only [Except.map]
    rw [sendProfile_harmless d.tables (by rfl),
      (forwards_unaltered (d := d.fresh) checked).profileRefused,runQuery_tables,runQuery_emitted]
    constructor
    · rintro clean ⟨statement',passed,changes,refused⟩
      rw [checked] at passed
      cases passed
      exact changes (clean refused).1
    · intro safe refused
      refine ⟨?_,by simp [fresh]⟩
      by_contra changes
      exact safe (.forwarding statement checked changes refused)

theorem removeDevice_harmless (reg : Registry) :
    Harmless ev d.tables (d.fresh.handle (Method.signal ev reg .devkill)) ↔
      ¬Botched d ev reg .devkill := by
  rw [handle_begun d.fresh ev reg (by decide)]
  cases checked : d.removes ev with
  | error code =>
    have refused : d.fresh.begun ev reg.userId .devkill = .error code := by
      rw [begun,show d.fresh.removes ev = d.removes ev from rfl,checked]
      rfl
    rw [refused]
    refine iff_of_true (harmless_unchanged rfl rfl) ?_
    rintro (_ | _ | ⟨_,passed,_⟩)
    rw [checked] at passed
    contradiction
  | ok row =>
    have removed : d.fresh.begun ev reg.userId .devkill = .ok
        ((d.fresh.emit (.dropEndpoint row.endpoint)).runQuery (·.deleteEndpoint row.endpoint)) := by
      rw [begun,show d.fresh.removes ev = d.removes ev from rfl,checked]
      rfl
    rw [removed]
    dsimp only
    rw [sendProfile_harmless d.tables (by rfl),(begun_unaltered removed).profileRefused]
    constructor
    · rintro clean (_ | _ | ⟨_,_,refused⟩)
      exact (clean refused).2 row.endpoint (by simp [fresh])
    · intro safe refused
      exact absurd (.devkill row checked refused) safe

/-- The requests whose slots check anything have no body when they reach a slot of these. -/
theorem checks_bodyless {method : Method} (bodyless : method ∈ [Method.admin,.drop,.membership])
    (passed : Context.refusal (Context.checks method ev) = none) : ev.body = [] := by
  rw [Context.refusal_none] at passed
  simp only [List.mem_cons,List.not_mem_nil,or_false] at bodyless
  rcases bodyless with rfl | rfl | rfl <;>
  · simp [Context.checks] at passed
    exact passed.2.2.2

/-- A request that its context lets through and that fails by its reply has changed nothing,
unless a slot's statements come before a check that refuses: `sendProfile` after a
forwarding, a coverage or a removed device, the type of the account after the header that
makes or unmakes a sysadmin. -/
theorem failure_harmless_iff (d : Database) (ev : Event) (reg : Registry) (method : Method)
    (changes : method ∈ changing)
    (passed : Context.refusal (Context.checks method ev) = none) :
    Harmless ev d.tables (d.fresh.handle (Method.signal ev reg method)) ↔
      ¬Botched d ev reg method := by
  simp only [changing,List.mem_cons,List.not_mem_nil,or_false] at changes
  rcases changes with rfl | rfl | rfl | rfl | rfl | rfl | rfl | rfl | rfl
  · exact iff_of_true changeAuthorize_harmless fun botched => by cases botched
  · exact changeForwarding_harmless reg
  · exact changeCoverage_harmless reg
  · refine iff_of_true (dropExtension_harmless ?_) fun botched => by cases botched
    exact checks_bodyless (by decide) passed
  · exact changeAdmin_harmless reg (checks_bodyless (by decide) passed)
  · refine iff_of_true (changeMembership_harmless ?_) fun botched => by cases botched
    exact checks_bodyless (by decide) passed
  · exact removeDevice_harmless reg
  · refine iff_of_true ?_ fun botched => by cases botched
    exact (sendProfile_harmless d.tables rfl).mpr fun _ => ⟨rfl,by simp [fresh]⟩
  · exact iff_of_true removeAuthorization_harmless fun botched => by cases botched

def forwardAway : Event :=
  { Site.request "X-FORWARDING" with
    toUser := some "101"
    toLocal := true
    headers := [("x-destination","102"),("subject","AWAY")]
    body := "\x7b\"a\":\"LOCAL\"\x7d"
    members := [("a","LOCAL")] }

def ownRecord : Registry := Registry.create
  { user := "test1", number := 101, label := "desk", endpoint := 2, expires := 600 } 0

theorem refused_forwarding_stays : ¬Harmless forwardAway operatorSite.tables
    (operatorSite.fresh.handle (Method.signal forwardAway ownRecord .forwarding)) := by
  intro harmless
  have same := (harmless Sip.forbidden (by decide +kernel) (by decide)).1
  have forwarded : ((operatorSite.fresh.handle (Method.signal forwardAway ownRecord
      .forwarding)).tables.account? "test1").map AuthorizeRow.fwdaway = some 102 := by
    decide +kernel
  rw [same] at forwarded
  revert forwarded
  decide +kernel

/-- The same for somebody else's extension: the refusal comes first. -/
theorem failure_harmless_iff_stranger : Harmless { forwardAway with toUser := some "102" }
    operatorSite.tables (operatorSite.fresh.handle
      (Method.signal { forwardAway with toUser := some "102" } ownRecord .forwarding)) :=
  (failure_harmless_iff operatorSite { forwardAway with toUser := some "102" } ownRecord .forwarding
    (by decide) (by decide +kernel)).mpr fun botched => by
      obtain ⟨statement,checked,-,-⟩ := botched
      have refused : (operatorSite.forwards { forwardAway with toUser := some "102" }).toOption.isNone := by
        decide +kernel
      rw [checked] at refused
      contradiction

end Database

end SipWitch
