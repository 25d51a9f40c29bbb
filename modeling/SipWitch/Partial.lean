import SipWitch.Profile

/-! A body with a single member, as the client sends to change a password, or to promote
a user to remote access or demote it: what `sendProfile` writes besides. One statement
writes all columns, and a member that is missing reads as an empty one. -/
namespace SipWitch

open Tables

/-- A member of a body. Promotion and demotion send the access; no request of the client
sends the display without the email. -/
inductive Field where
  | secret | access | display
  deriving DecidableEq

def Field.key : Field → UString
  | .secret => "s"
  | .access => "a"
  | .display => "d"

structure Event.Partial (ev : Event) (field : Field) (value : UString) : Prop where
  body : ev.body ≠ []
  members : ev.members = [(field.key,value)]

theorem Event.Partial.member {ev : Event} {field : Field} {value : UString} (part : ev.Partial field value) :
    ev.json field.key = value := by
  simp [Event.json,part.members]

theorem Event.Partial.missing {ev : Event} {field : Field} {value : UString} (part : ev.Partial field value)
    (key : UString) (other : key ≠ field.key) : ev.json key = [] := by
  simp [Event.json,part.members,beq_false_of_ne other]

namespace Database

variable {d : Database} {ev : Event} {authuser value : UString} {endpoint : Int}
  {extension : ExtensionRow} {account : AuthorizeRow} {field : Field}

def allowed (d : Database) (ev : Event) (authuser : UString) (account : AuthorizeRow) : Bool :=
  d.tables.isSysadmin ev.number || account.authname = authuser

/-- What a profile shows as the display name. -/
def shownDisplay (d : Database) (extension : ExtensionRow) (account : AuthorizeRow) : UString :=
  if extension.extnbr = 0 then d.operatorDisplay else Authorize.displayOf extension account

def writtenDisplay (d : Database) (ev : Event) (extension : ExtensionRow) (account : AuthorizeRow) : UString :=
  if wantedAccess ev ≠ [] then d.shownDisplay extension account
  else if ev.json "d" = [] then fullName account else ev.json "d"

def writtenEmail (d : Database) (ev : Event) (authuser : UString) (account : AuthorizeRow) : UString :=
  if wantedAccess ev = [] ∧ d.allowed ev authuser account then ev.json "e" else account.email

theorem profileOf_d (d : Database) (ev : Event) (extension : ExtensionRow) (account : AuthorizeRow) :
    (d.profileOf ev extension account).d = d.shownDisplay extension account := by
  simp only [profileOf,ownProfile]
  split <;> rfl

/-- The columns that an accepted body writes. -/
theorem sendProfile_writes (known : d.found ev = .ok (extension,account)) (body : ev.body ≠ [])
    (accepted : d.profileRefused ev authuser = false) (endpoint : Int) :
    ∃ access, changedAccess account (wantedAccess ev) = some access ∧
      (d.sendProfile ev authuser endpoint).tables = d.tables.writeProfile extension.extnbr
        account.authname (d.writtenDisplay ev extension account) (d.writtenEmail ev authuser account)
        access (if takesSecret ev account then ev.json "s" else account.secret) := by
  obtain ⟨inside,found⟩ := found_ok known
  simp only [profileRefused,known,body,ne_eq,not_false_eq_true,decide_true,Bool.true_and,
    updateRefused] at accepted
  simp only [sendProfile,inside,found,Bool.true_eq_false,if_false,if_neg body,updateProfile]
  split at accepted
  · contradiction
  rename_i editor
  rw [if_neg editor]
  split at accepted
  · contradiction
  rename_i asked
  have asked' := asked
  simp only [wantedAccess] at asked'
  rw [if_neg asked']
  cases changed : changedAccess account (wantedAccess ev) with
  | none => simp [changed] at accepted
  | some access =>
    refine ⟨access,rfl,?_⟩
    simp only [wantedAccess] at changed
    simp only [changed,profileOf_d,profileOf_e]
    have written (profile : Profile) (publicUri : UString) : (d.applyProfile ev endpoint extension.extnbr
        account profile (d.writtenDisplay ev extension account) (d.writtenEmail ev authuser account) access
        publicUri).tables = d.tables.writeProfile extension.extnbr account.authname
          (d.writtenDisplay ev extension account) (d.writtenEmail ev authuser account) access
          (if takesSecret ev account then ev.json "s" else account.secret) := by
      simp only [applyProfile,send_tables,updateRoster_tables,runQuery_tables]
      split <;> rfl
    exact written (d.profileOf ev extension account) _

/-- The columns that the member does not name are as they were, in the rows of the target. -/
structure Untouched (d d' : Database) (field : Field) (number : Int) (authname : UString) : Prop where
  display : field ≠ .display → (d'.tables.extension? number).map ExtensionRow.display =
    (d.tables.extension? number).map ExtensionRow.display
  email : (d'.tables.account? authname).map AuthorizeRow.email =
    (d.tables.account? authname).map AuthorizeRow.email
  access : field ≠ .access → (d'.tables.account? authname).map AuthorizeRow.authaccess =
    (d.tables.account? authname).map AuthorizeRow.authaccess
  secret : field ≠ .secret → (d'.tables.account? authname).map AuthorizeRow.secret =
    (d.tables.account? authname).map AuthorizeRow.secret

/-- The columns hold already what a missing member writes. A change of access writes the
shown display, and the email stays; the other bodies clear both. -/
def Agrees (d : Database) (ev : Event) (authuser : UString) (extension : ExtensionRow)
    (account : AuthorizeRow) (field : Field) (value : UString) : Prop :=
  if field = .access ∧ UString.toUpper value ≠ [] then
    extension.display = d.shownDisplay extension account
  else (field ≠ .display → extension.display = fullName account) ∧
    (d.allowed ev authuser account = true → account.email = [])

section Columns

variable {t : Tables} {display email access secret : UString}

theorem extension?_writeProfile {authname : UString} {extnbr number : Int} :
    (t.writeProfile extnbr authname display email access secret).extension? number =
      (t.extension? number).map fun row => if row.extnbr = extnbr then { row with display } else row :=
  @extension?_updateExtension _ extnbr number (fun row => { row with display }) fun _ => rfl

/-- The columns of the two rows that `sendProfile` writes. -/
theorem writeProfile_columns (display email access secret : UString)
    (extended : t.extension? extension.extnbr = some extension)
    (stored : t.account? account.authname = some account) :
    let t' := t.writeProfile extension.extnbr account.authname display email access secret
    t'.extension? extension.extnbr = some { extension with display } ∧
      t'.account? account.authname = some { account with email, authaccess := access, secret } := by
  refine ⟨?_,?_⟩
  · simp only [extension?_writeProfile,extended,Option.map_some,if_true]
  · simp only [account?_writeProfile,stored,Option.map_some,if_true]

end Columns

/-- What is written next to what was there, column by column. -/
theorem untouched_columns (known : d.found ev = .ok (extension,account))
    (accepted : d.profileRefused ev authuser = false) (body : ev.body ≠ []) (field : Field) (endpoint : Int) :
    ∃ access, changedAccess account (wantedAccess ev) = some access ∧
      (Untouched d (d.sendProfile ev authuser endpoint) field (target ev) account.authname ↔
        (field ≠ .display → d.writtenDisplay ev extension account = extension.display) ∧
        d.writtenEmail ev authuser account = account.email ∧
        (field ≠ .access → access = account.authaccess) ∧
        (field ≠ .secret →
          (if takesSecret ev account then ev.json "s" else account.secret) = account.secret)) := by
  obtain ⟨access,changed,tables⟩ := sendProfile_writes known body accepted endpoint
  refine ⟨access,changed,?_⟩
  obtain ⟨extended,stored⟩ := profile?_some (found_ok known).2
  have number : extension.extnbr = target ev := (extension?_eq_some.mp extended).2
  have owner : account.authname = extension.authname := (account?_eq_some.mp stored).2
  rw [← number] at extended ⊢
  rw [← owner] at stored
  obtain ⟨display',account'⟩ := writeProfile_columns (d.writtenDisplay ev extension account)
    (d.writtenEmail ev authuser account) access
    (if takesSecret ev account then ev.json "s" else account.secret) extended stored
  rw [← tables] at display' account'
  constructor
  · rintro ⟨first,second,third,fourth⟩
    simp only [display',account',extended,stored,Option.map_some,Option.some.injEq]
      at first second third fourth
    exact ⟨first,second,third,fourth⟩
  · rintro ⟨first,second,third,fourth⟩
    constructor <;>
      simpa only [display',account',extended,stored,Option.map_some,Option.some.injEq]

/-- Only a body of access asks for one. -/
theorem unasked_access (part : ev.Partial field value)
    (asked : ¬(field = .access ∧ UString.toUpper value ≠ [])) : wantedAccess ev = [] := by
  by_cases here : field = .access
  · subst here
    rw [wantedAccess,show ev.json "a" = value from part.member]
    simpa using asked
  · rw [wantedAccess,part.missing "a" (by cases field <;> first | contradiction | decide)]
    rfl

/-- A body of one member leaves the other columns alone when they hold already what the
missing members write. -/
theorem partial_untouched_iff (known : d.found ev = .ok (extension,account))
    (accepted : d.profileRefused ev authuser = false) (part : ev.Partial field value) (endpoint : Int) :
    Untouched d (d.sendProfile ev authuser endpoint) field (target ev) account.authname ↔
      d.Agrees ev authuser extension account field value := by
  obtain ⟨access,changed,columns⟩ := untouched_columns known accepted part.body field endpoint
  rw [columns]
  have email : ev.json "e" = [] := part.missing "e" (by cases field <;> decide)
  have mailed : (if d.allowed ev authuser account = true then ev.json "e" else account.email) =
      account.email ↔ (d.allowed ev authuser account = true → account.email = []) := by
    rw [email]
    split
    · rename_i own
      simp [own,eq_comm]
    · rename_i other
      simp [other]
  have kept (other : field ≠ .secret) :
      (if takesSecret ev account then ev.json "s" else account.secret) = account.secret := by
    have secret : ev.json "s" = [] := part.missing "s" (by cases field <;> first | contradiction | decide)
    simp [takesSecret,secret,UString.textLength]
  by_cases asked : field = .access ∧ UString.toUpper value ≠ []
  · obtain ⟨rfl,filled⟩ := asked
    have wanted : wantedAccess ev ≠ [] := by
      rw [wantedAccess,show ev.json "a" = value from part.member]
      exact filled
    simp only [Agrees,filled,writtenDisplay,writtenEmail,wanted,ne_eq,not_false_eq_true,and_self,if_true,
      false_and,if_false]
    constructor
    · rintro ⟨shown,-⟩
      exact (shown (by decide)).symm
    · intro shown
      exact ⟨fun _ => shown.symm,trivial,fun other => absurd trivial other,kept⟩
  · have wanted := unasked_access part asked
    have plain (other : field ≠ .display) : ev.json "d" = [] :=
      part.missing "d" (by cases field <;> first | contradiction | decide)
    rw [wanted,changedAccess_nil] at changed
    obtain rfl := Option.some.inj changed
    simp only [Agrees,if_neg asked,writtenDisplay,writtenEmail,wanted,ne_eq,not_true_eq_false,if_false,
      true_and,mailed]
    constructor
    · rintro ⟨shown,own,-⟩
      refine ⟨fun other => ?_,own⟩
      have := shown other
      rw [plain other,if_pos rfl] at this
      exact this.symm
    · rintro ⟨shown,own⟩
      refine ⟨fun other => ?_,own,fun _ => trivial,kept⟩
      rw [plain other,if_pos rfl]
      exact (shown other).symm

end Database

namespace Site

def person (display email : UString) : Database where
  tables := { tables with
    authorize := { rows := [{ account with email }], distinct := List.nodup_singleton _ }
    extensions := {
      rows := [{ extnbr := 101, authname := "test1", display }]
      distinct := List.nodup_singleton _ } }

def password : Event :=
  { request "X-PROFILE" with
    toUser := some "101"
    toLocal := true
    contentType := "profile/json"
    body := "\x7b\"s\":\"c1c6eb1094e36edbee9fdffe801dad76\",\"n\":101\x7d"
    members := [("s","c1c6eb1094e36edbee9fdffe801dad76")] }

theorem password_partial : password.Partial .secret "c1c6eb1094e36edbee9fdffe801dad76" := ⟨by decide,rfl⟩

end Site

namespace Database

/-- A change of the password clears the email address. -/
theorem password_clears_email : ¬∀ (d : Database) (ev : Event) (authuser : UString) (endpoint : Int)
    (extension : ExtensionRow) (account : AuthorizeRow) (field : Field) (value : UString),
    d.found ev = .ok (extension,account) → d.profileRefused ev authuser = false → ev.Partial field value →
      Untouched d (d.sendProfile ev authuser endpoint) field (target ev) account.authname := by
  intro untouched
  have email := (untouched (Site.person "Test" "test@example.com") Site.password "test1" 2
    { extnbr := 101, authname := "test1", display := "Test" }
    { Site.account with email := "test@example.com" } .secret _ (by decide) (by decide)
    Site.password_partial).email
  exact absurd email (by decide +kernel)

theorem partial_untouched_iff_agreeing :
    Untouched (Site.person "test1" []) ((Site.person "test1" []).sendProfile Site.password "test1" 2)
      .secret 101 "test1" :=
  (@partial_untouched_iff _ _ _ _ { extnbr := 101, authname := "test1", display := "test1" }
    Site.account _ (by decide) (by decide) Site.password_partial 2).mpr (by
      rw [Agrees]
      decide)

end Database

end SipWitch
