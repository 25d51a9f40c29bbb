import SipWitch.Integrity

/-! `changeAuthorize` where each of its statements can fail. A statement that fails is
one that the database could not run, or an insertion that a key or a parent refuses; the
slot does not look at either. -/
namespace SipWitch

open Tables

namespace Creation

/-- The statements of the slot, of which it runs each at most once. -/
inductive Query where
  | admin | extension | account | insertAuthorize | insertExtension | insertEndpoint
  deriving DecidableEq

/-- The statements that the database does not run this time. -/
abbrev Fails := Query → Bool

structure Attempt where
  database : Database
  failed : Bool := false

namespace Attempt

variable (s : Attempt) (fails : Bool)

/-- `getRecord`: a query that fails gives an empty record. -/
def getRecord (found : Tables → Bool) : Attempt × Bool :=
  ({ s with failed := s.failed || fails },!fails && found s.database.tables)

/-- `runQuery` with its result ignored; `refused` is for a key that is taken or a parent
that is missing, where the statement itself changes nothing. -/
def runQuery (refused : Tables → Bool) (statement : Tables → Tables) : Attempt :=
  { database := if fails then s.database else s.database.runQuery statement
    failed := s.failed || fails || refused s.database.tables }

def reply (ev : Event) (code : Nat) : Attempt := { s with database := s.database.reply ev code }

end Attempt

open Database

variable (fails : Fails) (d : Database) (ev : Event)

def accountRow : AuthorizeRow :=
  let account : AuthorizeRow := {
    authname := ev.json "a"
    fullname := ev.json "f"
    authtype := ev.json "t"
    created := d.clock }
  if isGroup (ev.json "t") then account
  else { account with authdigest := ev.json "d", realm := ev.json "r", secret := ev.json "s" }

def extend (s : Attempt) (user : UString) (group : Bool) : Attempt :=
  let number := target ev
  let s := s.runQuery (fails .insertExtension)
    (fun t => t.hasExtension number || !t.accepts (t.hasAccount user))
    (·.insertExtension { extnbr := number, authname := user })
  let s := if group then s else
    s.runQuery (fails .insertEndpoint)
      (fun t => (t.endpoint? number "NONE").isSome || !t.accepts (t.hasExtension number))
      (·.insertEndpoint number "NONE" d.clock)
  { s with database := s.database.updateRoster.reply ev Sip.ok }

def changeAuthorize : Attempt :=
  let number := target ev
  let s : Attempt := { database := d }
  if d.inRange number = false then s.reply ev Sip.forbidden
  else
    let (s,sysadmin) := s.getRecord (fails .admin) (·.isSysadmin ev.number)
    if sysadmin = false then s.reply ev Sip.forbidden
    else
      let (s,exists_) := s.getRecord (fails .extension) (·.hasExtension number)
      let user := ev.json "a"
      if user ≠ [] then
        -- the account is only looked up where there is no extension
        if exists_ then s.reply ev Sip.conflict
        else
          let (s,known) := s.getRecord (fails .account) (·.hasAccount user)
          if known then s.reply ev Sip.conflict
          else
            let s := s.runQuery (fails .insertAuthorize) (·.hasAccount user)
              (·.insertAuthorize (accountRow d ev))
            extend fails d ev s user (isGroup (ev.json "t"))
      else
        let user := ev.json "e"
        let (s,known) := s.getRecord (fails .account) (·.hasAccount user)
        if known = false then s.reply ev Sip.notFound
        else if user = [] then s.reply ev Sip.ok
        else if exists_ then s.reply ev Sip.conflict
        else extend fails d ev s user false

@[simp] theorem runQuery_clock (statement : Tables → Tables) :
    (d.runQuery statement).clock = d.clock := rfl

/-- Where every statement is run, this is the slot as it stands. -/
theorem changeAuthorize_reliable :
    (changeAuthorize (fun _ => false) d ev).database = d.changeAuthorize ev := by
  simp only [changeAuthorize,Database.changeAuthorize,Attempt.getRecord,Attempt.runQuery,extend,
    Attempt.reply,accountRow,Bool.not_false,Bool.true_and,Bool.false_eq_true,if_false]
  split_ifs <;> simp_all

def grouped : Bool := ev.json "a" ≠ [] && isGroup (ev.json "t")

structure Passed : Prop where
  planned : d.inRange (target ev) = true
  sysadmin : (!fails .admin && d.tables.isSysadmin ev.number) = true
  account : (!fails .account && d.tables.hasAccount (owner ev)) = decide (ev.json "a" = [])
  vacant : owner ev ≠ [] → (!fails .extension && d.tables.hasExtension (target ev)) = false

instance : Decidable (Passed fails d ev) :=
  decidable_of_iff (_ ∧ _ ∧ _ ∧ _) ⟨fun ⟨a,b,c,e⟩ => ⟨a,b,c,e⟩,fun ⟨a,b,c,e⟩ => ⟨a,b,c,e⟩⟩

/-- The state in which the extension is made. -/
def granted : Attempt :=
  let s : Attempt := { database := d, failed := fails .admin || fails .extension || fails .account }
  if ev.json "a" = [] then s
  else s.runQuery (fails .insertAuthorize) (·.hasAccount (ev.json "a"))
    (·.insertAuthorize (accountRow d ev))

variable {fails d ev}

theorem changeAuthorize_refused (refused : ¬Passed fails d ev) :
    ∃ code, code ≠ Sip.ok ∧ (changeAuthorize fails d ev).database = d.reply ev code := by
  have forbidden : Sip.forbidden ≠ Sip.ok := by simp [Sip.forbidden,Sip.ok]
  have conflict : Sip.conflict ≠ Sip.ok := by simp [Sip.conflict,Sip.ok]
  have notFound : Sip.notFound ≠ Sip.ok := by simp [Sip.notFound,Sip.ok]
  unfold changeAuthorize Attempt.getRecord
  dsimp only
  by_cases planned : d.inRange (target ev) = false
  · rw [if_pos planned]
    exact ⟨_,forbidden,rfl⟩
  by_cases sysadmin : (!fails .admin && d.tables.isSysadmin ev.number) = false
  · rw [if_neg planned,if_pos sysadmin]
    exact ⟨_,forbidden,rfl⟩
  rw [if_neg planned,if_neg sysadmin]
  rw [Bool.not_eq_false] at planned sysadmin
  by_cases new : ev.json "a" ≠ []
  · have user : owner ev = ev.json "a" := if_pos new
    rw [if_pos new]
    by_cases taken : (!fails .extension && d.tables.hasExtension (target ev)) = true
    · rw [if_pos taken]
      exact ⟨_,conflict,rfl⟩
    by_cases known : (!fails .account && d.tables.hasAccount (ev.json "a")) = true
    · rw [if_neg taken,if_pos known]
      exact ⟨_,conflict,rfl⟩
    refine absurd ⟨planned,sysadmin,?_,fun _ => by simpa using taken⟩ refused
    rw [user,decide_eq_false new]
    simpa using known
  · have user : owner ev = ev.json "e" := if_neg new
    rw [if_neg new]
    by_cases unknown : (!fails .account && d.tables.hasAccount (ev.json "e")) = false
    · rw [if_pos unknown]
      exact ⟨_,notFound,rfl⟩
    have account : (!fails .account && d.tables.hasAccount (owner ev)) =
        decide (ev.json "a" = []) := by
      rw [user,decide_eq_true (not_not.mp new)]
      exact eq_true_of_ne_false unknown
    by_cases nameless : ev.json "e" = []
    · exact absurd ⟨planned,sysadmin,account,fun named => absurd (user.trans nameless) named⟩ refused
    by_cases taken : (!fails .extension && d.tables.hasExtension (target ev)) = true
    · rw [if_neg unknown,if_neg nameless,if_pos taken]
      exact ⟨_,conflict,rfl⟩
    exact absurd ⟨planned,sysadmin,account,fun _ => by simpa using taken⟩ refused

theorem changeAuthorize_passed (passed : Passed fails d ev) :
    changeAuthorize fails d ev =
      if owner ev = [] then (granted fails d ev).reply ev Sip.ok
      else extend fails d ev (granted fails d ev) (owner ev) (grouped ev) := by
  obtain ⟨planned,sysadmin,account,vacant⟩ := passed
  simp only [changeAuthorize,Attempt.getRecord,planned,sysadmin,Bool.true_eq_false,if_false]
  by_cases old : ev.json "a" = []
  · have user : owner ev = ev.json "e" := if_neg (not_not.mpr old)
    rw [decide_eq_true old] at account
    rw [user] at account vacant ⊢
    rw [if_neg (not_not.mpr old),if_neg (by simp [account])]
    split
    · simp [granted,old]
    · rename_i named
      rw [if_neg (by simp [vacant named])]
      simp [granted,grouped,old]
  · have user : owner ev = ev.json "a" := if_pos old
    rw [decide_eq_false old] at account
    rw [user] at account vacant ⊢
    rw [if_pos old,if_neg (by simp [vacant old]),if_neg (by simp [account]),if_neg old]
    simp [granted,grouped,old]

/-- The account, the extension of the account and its one archive endpoint are there. -/
structure Created (t : Tables) (number : Int) (user : UString) : Prop where
  account : ∃ row ∈ t.authorize, row.authname = user
  extension : ∃ row ∈ t.extensions, row.extnbr = number ∧ row.authname = user
  endpoint : (∀ row ∈ t.authorize, row.authname = user → isGroup row.authtype = false) →
    ∃! row, row ∈ t.endpoints ∧ row.key = (number,UString.ascii "NONE")

def Unchanged (t t' : Tables) : Prop :=
  t'.authorize = t.authorize ∧ t'.extensions = t.extensions ∧ t'.endpoints = t.endpoints

/-- A request that is granted has made all rows, and one of which a statement has failed
is turned down and has made none. -/
structure AllOrNothing (d : Database) (ev : Event) (after : Attempt) : Prop where
  whole : after.database.wire = d.wire ++ [.reply ev Sip.ok] →
    Created after.database.tables (target ev) (owner ev)
  nothing : after.failed = true → Unchanged d.tables after.database.tables ∧
    ∃ code, code ≠ Sip.ok ∧ after.database.wire = d.wire ++ [.reply ev code]

/-- The statements of a request that is not turned down are all run, and its number has
no endpoint left from before. -/
structure Reliable (fails : Fails) (d : Database) (ev : Event) : Prop where
  queries : fails .admin = false ∧ fails .extension = false ∧ fails .account = false
  account : ev.json "a" ≠ [] → fails .insertAuthorize = false
  extension : owner ev ≠ [] → fails .insertExtension = false
  endpoint : owner ev ≠ [] → grouped ev = false → fails .insertEndpoint = false ∧
    d.tables.endpoint? (target ev) "NONE" = none
  /-- A request that names no account makes nothing. -/
  nameless : owner ev = [] → Created d.tables (target ev) []

theorem ok_ne {code : Nat} (other : code ≠ Sip.ok) (wire : List Output) :
    wire ++ [.reply ev code] ≠ wire ++ [.reply ev Sip.ok] := by
  simpa using other

theorem refused_allOrNothing (refused : ¬Passed fails d ev) :
    AllOrNothing d ev (changeAuthorize fails d ev) := by
  obtain ⟨code,other,done⟩ := changeAuthorize_refused refused
  refine ⟨fun granted => ?_,fun _ => ⟨?_,code,other,by rw [done]; rfl⟩⟩
  · rw [done] at granted
    exact absurd granted (ok_ne other _)
  · rw [done]
    exact ⟨rfl,rfl,rfl⟩

theorem passed_wire (passed : Passed fails d ev) :
    (changeAuthorize fails d ev).database.wire = d.wire ++ [.reply ev Sip.ok] := by
  have granted : (granted fails d ev).database.wire = d.wire := by
    unfold Creation.granted Attempt.runQuery
    dsimp only
    split_ifs <;> rfl
  rw [changeAuthorize_passed passed]
  split
  · exact congrArg (· ++ _) granted
  · have extended (s : Attempt) (user : UString) (group : Bool) :
        (extend fails d ev s user group).database.wire =
          s.database.wire ++ [.reply ev Sip.ok] := by
      unfold extend Attempt.runQuery
      dsimp only
      split_ifs <;> rfl
    rw [extended,granted]

structure Prepared (d : Database) (ev : Event) (t : Tables) : Prop where
  account : t.hasAccount (owner ev) = true
  extensions : t.extensions = d.tables.extensions
  endpoints : t.endpoints = d.tables.endpoints

theorem granted_prepared (passed : Passed fails d ev) (looked : fails .account = false)
    (made : ev.json "a" ≠ [] → fails .insertAuthorize = false) :
    Prepared d ev (granted fails d ev).database.tables ∧
    (granted fails d ev).failed = (fails .admin || fails .extension || fails .account) := by
  have account := passed.account
  simp only [looked,Bool.not_false,Bool.true_and] at account
  by_cases old : ev.json "a" = []
  · rw [decide_eq_true old] at account
    simp only [granted,if_pos old]
    exact ⟨⟨account,rfl,rfl⟩,trivial⟩
  · have user : owner ev = ev.json "a" := if_pos old
    rw [decide_eq_false old,user] at account
    simp only [granted,if_neg old,Attempt.runQuery,made old,account,Bool.false_eq_true,if_false,
      Bool.or_false,and_true]
    refine ⟨hasAccount_insertAuthorize.mpr (.inr ?_),rfl,rfl⟩
    rw [user,accountRow]
    split <;> rfl

/-- Where the account cannot be looked up or made, a statement has failed. -/
theorem granted_failed (broken : fails .admin = true ∨ fails .extension = true ∨
      fails .account = true ∨ ev.json "a" ≠ [] ∧ fails .insertAuthorize = true) :
    (granted fails d ev).failed = true := by
  by_cases old : ev.json "a" = []
  · simp only [granted,if_pos old]
    rcases broken with h | h | h | ⟨new,_⟩
    · simp [h]
    · simp [h]
    · simp [h]
    · exact absurd old new
  · simp only [granted,if_neg old,Attempt.runQuery]
    rcases broken with h | h | h | ⟨_,h⟩ <;> simp [h]

theorem extend_failed_of (s : Attempt) (user : UString) (group : Bool)
    (broken : s.failed = true ∨ fails .insertExtension = true) :
    (extend fails d ev s user group).failed = true := by
  unfold extend Attempt.runQuery
  dsimp only
  rcases broken with h | h <;> cases group <;> simp [h]

section Extend

variable {s : Attempt} {group : Bool} (prepared : Prepared d ev s.database.tables)
  (vacant : d.tables.hasExtension (target ev) = false) (run : fails .insertExtension = false)

include prepared

/-- The tables with the extension. -/
theorem prepared_extension (vacant : d.tables.hasExtension (target ev) = false) :
    let t := s.database.tables.insertExtension { extnbr := target ev, authname := owner ev }
    (∃ row ∈ t.extensions, row.extnbr = target ev ∧ row.authname = owner ev) ∧
    t.hasExtension (target ev) = true ∧ t.authorize = s.database.tables.authorize ∧
    t.endpoints = d.tables.endpoints := by
  have accepted : s.database.tables.accepts (s.database.tables.hasAccount (owner ev)) = true := by
    simp [accepts,prepared.account]
  have same : s.database.tables.hasExtension (target ev) = false := by
    simpa [hasExtension,extension?,prepared.extensions] using vacant
  refine ⟨?_,(hasExtension_insertExtension accepted).mpr (.inr rfl),?_,?_⟩
  · refine ⟨{ extnbr := target ev, authname := owner ev },?_,rfl,rfl⟩
    rw [insertExtension,if_pos accepted]
    refine Table.mem_insert.mpr (.inr ⟨Table.admits_iff.mpr fun old member taken => ?_,rfl⟩)
    rw [hasExtension_iff.mpr ⟨old,member,taken⟩] at same
    contradiction
  · rw [insertExtension,if_pos accepted]
  · rw [insertExtension,if_pos accepted]
    exact prepared.endpoints

include vacant run

theorem extend_failed : (extend fails d ev s (owner ev) group).failed =
    (s.failed || !group && (fails .insertEndpoint ||
      (d.tables.endpoint? (target ev) "NONE").isSome)) := by
  obtain ⟨_,known,_,endpoints⟩ := prepared_extension prepared vacant
  have accepted : s.database.tables.accepts (s.database.tables.hasAccount (owner ev)) = true := by
    simp [accepts,prepared.account]
  have same : s.database.tables.hasExtension (target ev) = false := by
    simpa [hasExtension,extension?,prepared.extensions] using vacant
  have found : (s.database.tables.insertExtension
      { extnbr := target ev, authname := owner ev }).endpoint? (target ev) "NONE" =
      d.tables.endpoint? (target ev) "NONE" := by
    simp only [endpoint?,endpoints]
  have parent : (s.database.tables.insertExtension
      { extnbr := target ev, authname := owner ev }).accepts true = true := by
    simp [accepts]
  cases group with
  | true => simp [extend,Attempt.runQuery,run,same,accepted]
  | false =>
    simp [extend,Attempt.runQuery,run,same,accepted,known,found,parent,Bool.or_assoc]

/-- With nothing in the way the three tables have the rows of the account. -/
theorem extend_created (archived : group = false → fails .insertEndpoint = false ∧
      d.tables.endpoint? (target ev) "NONE" = none)
    (grouping : group = true → ∃ row ∈ s.database.tables.authorize,
      row.authname = owner ev ∧ isGroup row.authtype = true) :
    Created (extend fails d ev s (owner ev) group).database.tables (target ev) (owner ev) := by
  obtain ⟨row,known,accounts,endpoints⟩ := prepared_extension prepared vacant
  obtain ⟨account,listed,name⟩ := hasAccount_iff.mp prepared.account
  cases group with
  | true =>
    obtain ⟨owned,member,own,kind⟩ := grouping rfl
    have tables : (extend fails d ev s (owner ev) true).database.tables =
        s.database.tables.insertExtension { extnbr := target ev, authname := owner ev } := by
      simp [extend,Attempt.runQuery,run,Database.reply]
    rw [tables]
    refine ⟨⟨account,accounts ▸ listed,name⟩,row,fun plain => ?_⟩
    have := plain owned (accounts ▸ member) own
    rw [kind] at this
    contradiction
  | false =>
    obtain ⟨archive,vacated⟩ := archived rfl
    have tables : (extend fails d ev s (owner ev) false).database.tables =
        (s.database.tables.insertExtension { extnbr := target ev, authname := owner ev }).insertEndpoint
          (target ev) "NONE" d.clock := by
      simp [extend,Attempt.runQuery,run,archive,Database.reply]
    have found : (s.database.tables.insertExtension
        { extnbr := target ev, authname := owner ev }).endpoint? (target ev) "NONE" = none := by
      rw [← vacated]
      simp only [endpoint?,endpoints]
    obtain ⟨extensions,authorize⟩ := Authorize.insertEndpoint_accounts
      (s.database.tables.insertExtension { extnbr := target ev, authname := owner ev })
      (target ev) "NONE" d.clock
    have rows := mem_insertEndpoint d.clock known found
    rw [tables]
    refine ⟨⟨account,?_,name⟩,?_,fun _ => ?_⟩
    · rw [authorize,accounts]
      exact listed
    · rw [extensions]
      exact row
    · refine ⟨_,⟨(rows _).mpr (.inr rfl),rfl⟩,?_⟩
      rintro other ⟨member,key⟩
      exact Serial.unique_key member ((rows _).mpr (.inr rfl)) key

end Extend

theorem granted_grouped (passed : Passed fails d ev) (looked : fails .account = false)
    (made : ev.json "a" ≠ [] → fails .insertAuthorize = false) (group : grouped ev = true) :
    ∃ row ∈ (granted fails d ev).database.tables.authorize,
      row.authname = owner ev ∧ isGroup row.authtype = true := by
  obtain ⟨named,kind⟩ := Bool.and_eq_true_iff.mp group
  have new : ev.json "a" ≠ [] := of_decide_eq_true named
  have user : owner ev = ev.json "a" := if_pos new
  have account := passed.account
  simp only [looked,Bool.not_false,Bool.true_and,user,decide_eq_false new] at account
  have row : accountRow d ev = {
      authname := ev.json "a", fullname := ev.json "f", authtype := ev.json "t"
      created := d.clock } := if_pos kind
  have tables : (granted fails d ev).database.tables = d.tables.insertAuthorize (accountRow d ev) := by
    simp [granted,new,Attempt.runQuery,made new]
  refine ⟨accountRow d ev,?_,by rw [row,user],by rw [row]; exact kind⟩
  rw [tables]
  refine Table.mem_insert.mpr (.inr ⟨Table.admits_iff.mpr fun old member taken => ?_,rfl⟩)
  rw [hasAccount_iff.mpr ⟨old,member,taken.trans (by rw [row])⟩] at account
  contradiction

theorem nameless_tables (fails : Fails) (nameless : owner ev = []) :
    (granted fails d ev).database.tables = d.tables := by
  have old : ev.json "a" = [] := by
    by_contra new
    exact new ((if_pos new).symm.trans nameless)
  simp [granted,old]

/-- Nothing has failed in a request that is all or nothing. -/
theorem reliable_of_allOrNothing (passed : Passed fails d ev)
    (all : AllOrNothing d ev (changeAuthorize fails d ev)) : Reliable fails d ev := by
  have intact : (changeAuthorize fails d ev).failed = false := by
    by_contra failed
    rw [Bool.not_eq_false] at failed
    obtain ⟨_,code,other,wire⟩ := all.nothing failed
    rw [passed_wire passed] at wire
    exact ok_ne other _ wire.symm
  have whole := all.whole (passed_wire passed)
  rw [changeAuthorize_passed passed] at intact whole
  have prior : (granted fails d ev).failed = false := by
    by_contra failed
    rw [Bool.not_eq_false] at failed
    split at intact
    · exact absurd (failed.symm.trans intact) (by simp)
    · rw [extend_failed_of _ _ _ (.inl failed)] at intact
      contradiction
  have run (q : Query) (broken : fails q = true → (granted fails d ev).failed = true) :
      fails q = false := by
    by_contra h
    rw [broken (by simpa using h)] at prior
    contradiction
  have looked := run .account fun h => granted_failed (.inr (.inr (.inl h)))
  have absent := run .extension fun h => granted_failed (.inr (.inl h))
  have made (new : ev.json "a" ≠ []) := run .insertAuthorize fun h =>
    granted_failed (.inr (.inr (.inr ⟨new,h⟩)))
  have extended (named : owner ev ≠ []) : fails .insertExtension = false := by
    rw [if_neg named] at intact
    by_contra h
    rw [extend_failed_of _ _ _ (.inr (by simpa using h))] at intact
    contradiction
  refine ⟨⟨run .admin fun h => granted_failed (.inl h),absent,looked⟩,made,extended,?_,?_⟩
  · intro named group
    have vacant := passed.vacant named
    rw [absent,Bool.not_false,Bool.true_and] at vacant
    obtain ⟨prepared,_⟩ := granted_prepared passed looked made
    rw [if_neg named,extend_failed prepared vacant (extended named),prior,group] at intact
    simpa using intact
  · intro nameless
    rw [if_pos nameless] at whole
    rw [← nameless,← nameless_tables fails nameless]
    exact whole

theorem allOrNothing_of_reliable (passed : Passed fails d ev) (reliable : Reliable fails d ev) :
    AllOrNothing d ev (changeAuthorize fails d ev) := by
  obtain ⟨⟨admin,absent,looked⟩,made,extended,archived,nameless⟩ := reliable
  obtain ⟨prepared,failed⟩ := granted_prepared passed looked made
  rw [admin,absent,looked] at failed
  rw [changeAuthorize_passed passed]
  split
  · rename_i none
    refine ⟨fun _ => ?_,fun broken => ?_⟩
    · rw [none]
      exact (nameless_tables fails none).symm ▸ nameless none
    · exact absurd (broken.symm.trans failed) (by simp)
  · rename_i named
    have vacant := passed.vacant named
    rw [absent,Bool.not_false,Bool.true_and] at vacant
    refine ⟨fun _ => ?_,fun broken => ?_⟩
    · exact extend_created prepared vacant (extended named) (archived named)
        (granted_grouped passed looked made)
    · rw [extend_failed prepared vacant (extended named),failed] at broken
      cases group : grouped ev with
      | true => simp [group] at broken
      | false =>
        obtain ⟨run,vacated⟩ := archived named group
        simp [group,run,vacated] at broken

/-- A request is all or nothing exactly when it is turned down, or when all its
statements are run and find its number without an endpoint. -/
theorem creation_allOrNothing : AllOrNothing d ev (changeAuthorize fails d ev) ↔
    (Passed fails d ev → Reliable fails d ev) := by
  constructor
  · intro all passed
    exact reliable_of_allOrNothing passed all
  · intro reliable
    by_cases passed : Passed fails d ev
    · exact allOrNothing_of_reliable passed (reliable passed)
    · exact refused_allOrNothing passed

def full : Fails := fun q => q = .insertExtension || q = .insertEndpoint

/-- The sysadmin is told that the account is there, which has no extension; the next
request for it is turned down. -/
theorem creation_halved :
    let d := ({} : Database).create true
    let after := (changeAuthorize full d (creation "103")).database
    after.wire = d.wire ++ [.reply (creation "103") Sip.ok] ∧
    after.tables.hasAccount "test3" = true ∧ after.tables.hasExtension 103 = false ∧
    (changeAuthorize (fun _ => false) after (creation "103")).database.wire =
      after.wire ++ [.reply (creation "103") Sip.conflict] ∧
    ¬AllOrNothing d (creation "103") (changeAuthorize full d (creation "103")) := by
  have granted : (changeAuthorize full (({} : Database).create true) (creation "103")).database.wire =
      (({} : Database).create true).wire ++ [.reply (creation "103") Sip.ok] := by
    decide +kernel
  have failed : (changeAuthorize full (({} : Database).create true) (creation "103")).failed = true := by
    decide +kernel
  refine ⟨granted,by decide +kernel,by decide +kernel,by decide +kernel,fun all => ?_⟩
  obtain ⟨_,code,other,wire⟩ := all.nothing failed
  rw [granted] at wire
  exact ok_ne other _ wire.symm

end Creation

end SipWitch
