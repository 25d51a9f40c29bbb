import SipWitch.Revocation
import SipWitch.Suspension

/-! The roster that `sendRoster` answers, and the sequence that tells the clients to ask
for it again: a request that changes what other clients are shown increments it, but for
a change of access by `changeAdmin`. -/
namespace SipWitch

open Tables

/-- An entry without the ring priority, which only the clients of its extension are shown. -/
def RosterEntry.unranked : RosterEntry → RosterEntry
  | .remove a c => .remove a c
  | .contact a k c n u d t e p _ => .contact a k c n u d t e p none

def AuthorizeRow.listed (row : AuthorizeRow) : AuthorizeRow where
  authname := row.authname
  authtype := row.authtype
  created := row.created
  authaccess := if row.authaccess = "REMOTE" then "REMOTE" else []
  email := row.email
  fullname := row.fullname

def checkRoster (sequence : Nat) : Nat := sequence % 8192

namespace Database

variable {d d' d'' : Database} {ev client : Event} {method : Method} {extension : ExtensionRow}
  {account : AuthorizeRow}

/-- The entry of an extension, unless it is without an account or an anonymous one. -/
def contact (d : Database) (client : Event) (extension : ExtensionRow) : Option RosterEntry :=
  (d.tables.account? extension.authname).bind fun account =>
    if account.authname = "anonymous" then none else some (d.rosterEntry client extension account)

def removed (d : Database) (endpoint : Int) : List RosterEntry :=
  (d.tables.deletes.filter fun row => row.endpoint = endpoint).map fun row =>
    .remove row.authname row.created

def roster (d : Database) (client : Event) (endpoint : Int) : List RosterEntry :=
  d.removed endpoint ++
    (d.tables.extensions.rows.mergeSort fun a b => a.extnbr ≤ b.extnbr).filterMap (d.contact client)

/-- The rows are marked as sent before they are read. -/
theorem sendRoster_wire (d : Database) (client : Event) (endpoint : Int) :
    (d.sendRoster client endpoint).wire =
      d.wire ++ [.answerWithJson client (.roster (d.roster client endpoint))] := by
  have marked : (d.runQuery fun t => { t with deletes := t.deletes.map fun row =>
      if row.endpoint = endpoint then { row with delstatus := 1 } else row }).removed endpoint =
        d.removed endpoint := by
    simp only [removed,runQuery_tables]
    induction d.tables.deletes with
    | nil => rfl
    | cons row rest ih =>
      by_cases here : row.endpoint = endpoint
      · simpa [here] using ih
      · simpa [here] using ih
  simp only [roster,← marked]
  rfl

structure Listed (d d' : Database) : Prop where
  extensions : d'.tables.extensions.rows.map ExtensionRow.unranked =
    d.tables.extensions.rows.map ExtensionRow.unranked
  accounts : ∀ name, name ≠ UString.ascii "anonymous" → (d'.tables.account? name).map AuthorizeRow.listed =
    (d.tables.account? name).map AuthorizeRow.listed
  deletes : d'.tables.deletes = d.tables.deletes
  settings : (d'.operatorPolicy,d'.network) = (d.operatorPolicy,d.network)
  sequence : d.rosterSequence ≤ d'.rosterSequence

theorem Listed.trans (first : Listed d d') (second : Listed d' d'') : Listed d d'' where
  extensions := second.extensions.trans first.extensions
  accounts name named := (second.accounts name named).trans (first.accounts name named)
  deletes := second.deletes.trans first.deletes
  settings := second.settings.trans first.settings
  sequence := first.sequence.trans second.sequence

theorem listed_of (authorize : d'.tables.authorize = d.tables.authorize)
    (extensions : d'.tables.extensions = d.tables.extensions)
    (deletes : d'.tables.deletes = d.tables.deletes)
    (settings : (d'.operatorPolicy,d'.network) = (d.operatorPolicy,d.network))
    (sequence : d.rosterSequence ≤ d'.rosterSequence) : Listed d d' where
  extensions := by rw [extensions]
  accounts name _ := by rw [account?,authorize,account?]
  deletes
  settings
  sequence

theorem Listed.refl (d : Database) : Listed d d := listed_of rfl rfl rfl rfl (le_refl _)

theorem rosterEntry_unranked (settings : (d'.operatorPolicy,d'.network) = (d.operatorPolicy,d.network))
    {extension' : ExtensionRow} {account' : AuthorizeRow}
    (extensions : extension'.unranked = extension.unranked) (accounts : account'.listed = account.listed) :
    (d'.rosterEntry client extension' account').unranked =
      (d.rosterEntry client extension account).unranked := by
  obtain ⟨number,name,rank,display,key⟩ := extension
  obtain ⟨number',name',rank',display',key'⟩ := extension'
  obtain ⟨rfl,rfl,-,rfl,rfl⟩ := ExtensionRow.mk.inj extensions
  obtain ⟨named,typed,-,made,-,-,remote,mail,full,-,-,-⟩ := AuthorizeRow.mk.inj accounts
  obtain ⟨policy,network⟩ := Prod.mk.inj settings
  have access : account'.authaccess = "REMOTE" ↔ account.authaccess = "REMOTE" := by
    by_cases first : account'.authaccess = "REMOTE" <;>
      by_cases second : account.authaccess = "REMOTE"
    · simp only [first,second]
    · rw [if_pos first,if_neg second] at remote
      exact absurd remote (by decide)
    · rw [if_neg first,if_pos second] at remote
      exact absurd remote (by decide)
    · simp only [first,second]
  simp only [rosterEntry,RosterEntry.unranked,Authorize.displayOf,publicUri,named,typed,made,mail,full,
    policy,network,access]

theorem contact_unranked (listed : Listed d d') (client : Event) {row row' : ExtensionRow}
    (same : row'.unranked = row.unranked) : (d'.contact client row').map RosterEntry.unranked =
      (d.contact client row).map RosterEntry.unranked := by
  have owner : row'.authname = row.authname := (congrArg ExtensionRow.authname same :)
  simp only [contact,owner]
  by_cases skipped : row.authname = "anonymous"
  · have silent (e : Database) (other : ExtensionRow) :
        ((e.tables.account? row.authname).bind fun account => if account.authname = "anonymous" then none
          else some (e.rosterEntry client other account)) = none := by
      rw [Option.bind_eq_none_iff]
      intro account stored
      exact if_pos ((account?_eq_some.mp stored).2.trans skipped)
    rw [silent,silent]
  · have accounts := listed.accounts row.authname skipped
    cases stored : d.tables.account? row.authname with
    | none =>
      rw [stored,Option.map_none,Option.map_eq_none_iff] at accounts
      rw [accounts]
      rfl
    | some account =>
      rw [stored] at accounts
      obtain ⟨account',stored',equal⟩ := Option.map_eq_some_iff.mp accounts
      have named : account.authname ≠ "anonymous" := (account?_eq_some.mp stored).2 ▸ skipped
      have named' : account'.authname ≠ "anonymous" := (account?_eq_some.mp stored').2 ▸ skipped
      rw [stored']
      simp only [Option.bind_some,if_neg named,if_neg named',Option.map_some]
      rw [rosterEntry_unranked listed.settings same equal]

/-- The roster shows the same to every client, but for ring priorities. -/
theorem Listed.roster (listed : Listed d d') (client : Event) (endpoint : Int) :
    (d'.roster client endpoint).map RosterEntry.unranked =
      (d.roster client endpoint).map RosterEntry.unranked := by
  have sorted (rows : List ExtensionRow) :
      (rows.mergeSort fun a b => a.extnbr ≤ b.extnbr).map ExtensionRow.unranked =
        (rows.map ExtensionRow.unranked).mergeSort fun a b => a.extnbr ≤ b.extnbr :=
    List.map_mergeSort fun _ _ _ _ => rfl
  have plain (e : Database) (rows : List ExtensionRow) (shown : Listed d e) :
      (rows.filterMap (e.contact client)).map RosterEntry.unranked =
        (rows.map ExtensionRow.unranked).filterMap
          fun row => (d.contact client row).map RosterEntry.unranked := by
    rw [List.map_filterMap,List.filterMap_map]
    exact List.filterMap_congr fun row _ => contact_unranked shown client rfl
  rw [Database.roster,Database.roster,List.map_append,List.map_append,plain d' _ listed,
    plain d _ (Listed.refl d),sorted,sorted,listed.extensions,removed,removed,
    listed.deletes]

/-- What a request changes of the roster, it has announced. -/
def Announced (d d' : Database) : Prop := d.rosterSequence < d'.rosterSequence ∨ Listed d d'

theorem Announced.after (listed : Listed d d') (announced : Announced d' d'') : Announced d d'' :=
  announced.imp listed.sequence.trans_lt listed.trans

theorem Announced.before (announced : Announced d d') (listed : Listed d' d'') : Announced d d'' :=
  announced.imp (fun more => more.trans_le listed.sequence) fun same => same.trans listed

theorem announced_reply (ev : Event) (code : Nat) : Announced d (d.reply ev code) :=
  .inr (listed_of rfl rfl rfl rfl (le_refl _))

theorem sendProfile_announced (d : Database) (ev : Event) (authuser : UString) (endpoint : Int) :
    Announced d (d.sendProfile ev authuser endpoint) := by
  simp only [sendProfile]
  split
  · exact announced_reply ev _
  split
  · exact announced_reply ev _
  split
  · exact .inr (listed_of rfl rfl rfl rfl (le_refl _))
  simp only [updateProfile]
  split
  · exact announced_reply ev _
  split
  · exact announced_reply ev _
  split
  · exact announced_reply ev _
  · apply Or.inl
    change d.rosterSequence < Nat.succ _
    split <;> exact Nat.lt_succ_self _

theorem changeAuthorize_announced (d : Database) (ev : Event) : Announced d (d.changeAuthorize ev) := by
  have extended (d' : Database) (user : UString) (group : Bool) (same : d'.rosterSequence = d.rosterSequence) :
      Announced d ((if group then d'.runQuery (·.insertExtension { extnbr := target ev, authname := user })
        else (d'.runQuery (·.insertExtension { extnbr := target ev, authname := user })).runQuery
          (·.insertEndpoint (target ev) "NONE" d'.clock)).updateRoster.reply ev Sip.ok) := by
    apply Or.inl
    change d.rosterSequence < Nat.succ _
    rw [← same]
    split <;> exact Nat.lt_succ_self _
  simp only [changeAuthorize]
  split
  · exact announced_reply ev _
  split
  · exact announced_reply ev _
  split
  · split
    · exact announced_reply ev _
    split
    · exact extended _ _ true rfl
    · exact extended _ _ false rfl
  split
  · exact announced_reply ev _
  split
  · exact announced_reply ev _
  split
  · exact announced_reply ev _
  · exact extended d _ false rfl

theorem removeAuthorization_announced (d : Database) (ev : Event) :
    Announced d (Authorize.removeAuthorization d ev) := by
  have counted (rows : List EndpointRow) (created : Int) (user : UString) (d : Database) :
      (rows.foldl (fun d row => d.runQuery (·.insertDelete
        { authname := user, endpoint := row.endpoint, created })) d).rosterSequence = d.rosterSequence := by
    induction rows generalizing d with
    | nil => rfl
    | cons row rest ih => exact ih _
  simp only [Authorize.removeAuthorization]
  split
  · exact announced_reply ev _
  split
  · exact announced_reply ev _
  split
  · exact announced_reply ev _
  · apply Or.inl
    change d.rosterSequence < Nat.succ _
    rw [counted]
    exact Nat.lt_succ_self _

/-- A change of one account that the roster does not show. -/
theorem listed_updateAuthorize {change : AuthorizeRow → AuthorizeRow}
    {same : ∀ row, (change row).authname = row.authname} (name : UString)
    (hidden : name ≠ UString.ascii "anonymous" → ∀ row, d.tables.account? name = some row →
      (change row).listed = row.listed) : Listed d (d.runQuery (·.updateAuthorize name change same)) where
  extensions := rfl
  accounts other named := by
    rw [runQuery_tables,account?_updateAuthorize]
    cases stored : d.tables.account? other with
    | none => rfl
    | some row =>
      simp only [Option.map_some,Option.some.injEq]
      obtain ⟨-,owner⟩ := account?_eq_some.mp stored
      split
      · rename_i here
        obtain rfl := owner.symm.trans here
        exact hidden named row stored
      · rfl
  deletes := rfl
  settings := rfl
  sequence := le_refl _

theorem forwards_listed {statement : Tables → Tables} (ok : d.forwards ev = .ok statement) :
    Listed d (d.runQuery statement) := by
  simp only [forwards] at ok
  repeat' split at ok
  all_goals cases ok
  all_goals exact listed_updateAuthorize _ fun _ _ _ => rfl

theorem cover_listed (account : AuthorizeRow) (authuser : UString) (priority : Int) :
    Listed d (d.cover ev authuser account priority) := by
  simp only [cover]
  split
  · refine ⟨?_,fun _ _ => rfl,rfl,rfl,le_refl _⟩
    simp only [runQuery_tables,updateExtension,Table.update,List.map_map]
    apply List.map_congr_left
    intro row _
    simp only [Function.comp_apply]
    split <;> rfl
  split
  · exact listed_of rfl rfl rfl rfl (le_refl _)
  · simp only [runQuery]
    obtain ⟨calling,inserted⟩ := insertCalling_frame { d.tables with
      calling := d.tables.calling.filter fun row =>
        !(row.authname = account.authname && row.extnbr = ev.number) }
      { authname := account.authname, extnbr := ev.number, extpriority := priority }
    rw [inserted]
    exact listed_of rfl rfl rfl rfl (le_refl _)

theorem changeForwarding_announced (d : Database) (ev : Event) (authuser : UString) (endpoint : Int) :
    Announced d (d.changeForwarding ev authuser endpoint) := by
  rw [changeForwarding_eq]
  split
  · exact announced_reply ev _
  · rename_i statement checked
    exact (sendProfile_announced _ ev authuser endpoint).after (forwards_listed checked)

theorem changeCoverage_announced (d : Database) (ev : Event) (authuser : UString) (endpoint : Int) :
    Announced d (d.changeCoverage ev authuser endpoint) := by
  rw [changeCoverage_eq]
  split
  · exact announced_reply ev _
  split
  · exact announced_reply ev _
  split
  · exact announced_reply ev _
  · exact (sendProfile_announced _ ev authuser endpoint).after (cover_listed _ authuser _)

theorem dropExtension_announced (d : Database) (ev : Event) (authuser : UString) (endpoint : Int) :
    Announced d (d.dropExtension ev authuser endpoint) := by
  simp only [dropExtension]
  split
  · exact announced_reply ev _
  split
  · exact announced_reply ev _
  split
  · exact announced_reply ev _
  · exact (sendProfile_announced d ev authuser endpoint).before
      (listed_of rfl rfl rfl rfl (le_refl _))

theorem insertOutbox_listed (row : OutboxRow) : Listed d (d.runQuery (·.insertOutbox row)) := by
  simp only [runQuery,insertOutbox]
  split <;> exact listed_of rfl rfl rfl rfl (le_refl _)

theorem adminMessage_listed (recipient : Int) (text : UString) (sender : Int) (display : UString)
    (expires : Int) : Listed d (d.adminMessage ev recipient text sender display expires) := by
  have stored : Listed d (d.runQuery (·.insertMessage (d.adminRow ev recipient text sender display expires))) :=
    listed_of rfl rfl rfl rfl (le_refl _)
  refine foldl_kept (P := fun after => Listed d after) _ _ (fun after box listed => ?_) stored
  simp only [post]
  split
  · exact listed.trans (insertOutbox_listed _)
  · exact (listed.trans (insertOutbox_listed _)).trans (listed_of rfl rfl rfl rfl (le_refl _))

theorem changeMembership_announced (d : Database) (ev : Event) (authuser : UString) (endpoint : Int) :
    Announced d (d.changeMembership ev authuser endpoint) := by
  rw [changeMembership_eq]
  split
  · exact announced_reply ev _
  split
  · exact announced_reply ev _
  split
  · exact announced_reply ev _
  rename_i extension account _ _ _
  obtain ⟨admin,groups,replaced⟩ := replaceMembers_frame d ev account
  have members : Listed d (d.replaceMembers ev account) := by
    rw [replaced]
    exact listed_of rfl rfl rfl rfl (le_refl _)
  apply ((sendProfile_announced _ ev authuser endpoint).after members).before
  simp only [notifyMembers]
  split
  · exact Listed.refl _
  · exact foldl_kept (P := fun after => Listed _ after) _ _
      (fun after recipient listed => listed.trans (adminMessage_listed recipient _ _ _ _)) (Listed.refl _)

/-- The request is an accepted change of the access of a remote account: that takes the
account's public address off the roster. -/
def Withdraws (d : Database) (ev : Event) : Prop :=
  ∃ account suspend, d.accessChange ev = some (account.authname,suspend) ∧ account ∈ d.tables.authorize ∧
    account.authname ≠ "anonymous" ∧ account.authaccess = "REMOTE"

theorem changeAdmin_announced (d : Database) (ev : Event) (authuser : UString) (endpoint : Int)
    (kept : ¬d.Withdraws ev) : Announced d (d.changeAdmin ev authuser endpoint) := by
  obtain ⟨admin,system⟩ := changeSystem_frame d ev
  have appointed : Listed d (d.changeSystem ev) := by
    rw [system]
    exact listed_of rfl rfl rfl rfl (le_refl _)
  cases known : d.found ev with
  | error code =>
    simp only [changeAdmin_eq,known]
    exact announced_reply ev code
  | ok found =>
    obtain ⟨extension,account⟩ := found
    simp only [changeAdmin_eq,known]
    split
    · exact announced_reply ev _
    rename_i sysadmin
    split
    · exact (sendProfile_announced _ ev authuser endpoint).after appointed
    rename_i value named
    split
    · exact (announced_reply ev _).after appointed
    rename_i kind
    have stored := account?_eq_some.mp (profile?_some (found_ok known).2).2
    have inside : account.authname ≠ UString.ascii "anonymous" → account.authaccess ≠ "REMOTE" := by
      intro other remote
      refine kept ⟨account,UString.toBool value,?_,stored.1,other,remote⟩
      simp [accessChange,known,sysadmin,kind,named]
    have granted (access : UString) (other : access ≠ "REMOTE") : Listed (d.changeSystem ev)
        ((d.changeSystem ev).runQuery (·.updateAuthorize account.authname
          (fun row => { row with authaccess := access }) fun _ => rfl)) := by
      apply listed_updateAuthorize
      intro named row found
      rw [system] at found
      obtain rfl := Option.some.inj (found.symm.trans (account?_eq_some.mpr ⟨stored.1,rfl⟩))
      simp only [AuthorizeRow.listed,if_neg other,if_neg (inside named)]
    apply Announced.after appointed
    cases UString.toBool value with
    | true =>
      have told := (sendProfile_announced _ ev authuser endpoint).after (granted "SUSPEND" (by decide))
      exact told.before (listed_of rfl rfl rfl rfl (le_refl _))
    | false => exact (sendProfile_announced _ ev authuser endpoint).after (granted "LOCAL" (by decide))

theorem contact_some {row : ExtensionRow} {entry : RosterEntry} (shown : d.contact client row = some entry) :
    ∃ account, d.tables.account? row.authname = some account ∧
      entry = d.rosterEntry client row account := by
  obtain ⟨account,stored,shown⟩ := Option.bind_eq_some_iff.mp shown
  split at shown
  · contradiction
  · exact ⟨account,stored,(Option.some.inj shown).symm⟩

theorem mem_roster {endpoint : Int} {entry : RosterEntry} : entry ∈ d.roster client endpoint ↔
    entry ∈ d.removed endpoint ∨ ∃ row ∈ d.tables.extensions, d.contact client row = some entry := by
  simp [roster,List.mem_mergeSort]

theorem sendProfile_bodyless_sequence (body : ev.body = []) (authuser : UString) (endpoint : Int) :
    (d.sendProfile ev authuser endpoint).rosterSequence = d.rosterSequence := by
  rcases sendProfile_cases d ev authuser endpoint with
    ⟨-,_,-,replied⟩ | ⟨-,-,_,shown⟩ | ⟨-,full,-⟩
  · rw [replied]
    rfl
  · rw [shown]
    rfl
  · contradiction

/-- The entry of a withdrawn account keeps its number and loses its public address. -/
theorem changeAdmin_withdraws (withdraws : d.Withdraws ev) (body : ev.body = []) (authuser : UString)
    (endpoint : Int) (client : Event) (device : Int) :
    let after := d.changeAdmin ev authuser endpoint
    after.rosterSequence = d.rosterSequence ∧ (after.roster client device).map RosterEntry.unranked ≠
      (d.roster client device).map RosterEntry.unranked := by
  obtain ⟨account,suspend,change,stored,named,remote⟩ := withdraws
  obtain ⟨same,owner,changed⟩ := changeAdmin_access change authuser endpoint
  obtain ⟨admin,system⟩ := changeSystem_frame d ev
  obtain ⟨extension,known⟩ : ∃ extension, d.found ev = .ok (extension,account) := by
    simp only [accessChange] at change
    split at change
    · contradiction
    rename_i extension found known
    split at change
    · obtain ⟨value,-,here⟩ := Option.map_eq_some_iff.mp change
      have member := account?_eq_some.mp (profile?_some (found_ok known).2).2
      obtain rfl := Table.unique member.1 stored (Prod.mk.inj here).1
      exact ⟨extension,known⟩
    · contradiction
  obtain ⟨extended,held⟩ := profile?_some (found_ok known).2
  obtain ⟨member,-⟩ := extension?_eq_some.mp extended
  rw [changed]
  refine ⟨?_,fun equal => ?_⟩
  · have counted (d : Database) : (d.changeSuspend ev authuser endpoint same suspend).rosterSequence =
        d.rosterSequence := by
      simp only [changeSuspend]
      split <;> exact sendProfile_bodyless_sequence body authuser endpoint
    rw [counted,system]
  have tables := changeSuspend_bodyless (d := d.changeSystem ev) body authuser endpoint same suspend
  have entry : d.rosterEntry client extension account ∈ d.roster client device := by
    refine mem_roster.mpr (.inr ⟨extension,member,?_⟩)
    simp only [contact,held,Option.bind_some]
    exact if_neg named
  have kept := equal ▸ List.mem_map_of_mem entry
  obtain ⟨other,shown,alike⟩ := List.mem_map.mp kept
  rcases mem_roster.mp shown with gone | ⟨row,listed,contacted⟩
  · obtain ⟨row,-,rfl⟩ := List.mem_map.mp gone
    contradiction
  obtain ⟨account',stored',rfl⟩ := contact_some contacted
  rw [tables,system] at listed stored'
  simp only [rosterEntry,RosterEntry.unranked,RosterEntry.contact.injEq] at alike
  obtain ⟨-,-,-,number,-,-,-,-,address,-⟩ := alike
  obtain rfl := Table.unique (t := d.tables.extensions) listed member number
  rw [account?_updateAuthorize] at stored'
  obtain ⟨old,found,rfl⟩ := Option.map_eq_some_iff.mp stored'
  obtain rfl := Option.some.inj (held.symm.trans found)
  rw [if_pos owner.symm] at address
  simp only [publicUri,if_pos remote] at address
  have other : (if suspend then UString.ascii "SUSPEND" else UString.ascii "LOCAL") ≠ "REMOTE" := by
    split <;> decide
  rw [if_neg other] at address
  have separator := (List.append_eq_nil_iff.mp (List.append_eq_nil_iff.mp address.symm).1).2
  exact absurd separator (by decide)

def rostering : List Method :=
  [.authorize,.admin,.forwarding,.coverage,.membership,.drop,.profile,.deauthorize]

/-- Every client that holds an earlier sequence is told another one from now on, unless
a multiple of 8192 lies between. -/
def Outdated (before after : Nat) : Prop := before < after ∧
  ∀ held next, held ≤ before → after ≤ next → checkRoster held = checkRoster next →
    ∃ rounds, 0 < rounds ∧ next = held + 8192 * rounds

theorem outdated_of_lt {before after : Nat} (more : before < after) : Outdated before after := by
  refine ⟨more,fun held next earlier later same => ⟨(next - held) / 8192,?_⟩⟩
  simp only [checkRoster] at same
  omega

/-- A request that changes what another client is shown has told the clients, unless it
withdraws the public address of a remote account. -/
theorem roster_told_iff (d : Database) (ev : Event) (reg : Registry) (method : Method)
    (rosters : method ∈ rostering) (passed : Context.refusal (Context.checks method ev) = none) :
    (∀ client device, client.key ≠ ev.key →
      ((d.handle (Method.signal ev reg method)).roster client device).map RosterEntry.unranked ≠
        (d.roster client device).map RosterEntry.unranked →
      Outdated d.rosterSequence (d.handle (Method.signal ev reg method)).rosterSequence) ↔
    ¬(method = .admin ∧ d.Withdraws ev) := by
  constructor
  · rintro told ⟨rfl,withdraws⟩
    have body : ev.body = [] := by
      have last := Context.refusal_none.mp passed (decide (ev.body ≠ []),Sip.notAcceptableHere) (by simp [Context.checks])
      simpa using last
    obtain ⟨same,differs⟩ := changeAdmin_withdraws withdraws body reg.userId reg.endpointId
      { ev with number := ev.number + 1 } 0
    have other : ({ ev with number := ev.number + 1 } : Event).key ≠ ev.key := by
      intro equal
      have number : ev.number + 1 = ev.number := (Prod.mk.inj equal).1
      omega
    have more := (told _ 0 other differs).1
    exact absurd same more.ne'
  · intro kept client device _ differs
    have announced : Announced d (d.handle (Method.signal ev reg method)) := by
      simp only [rostering,List.mem_cons,List.not_mem_nil,or_false] at rosters
      rcases rosters with rfl | rfl | rfl | rfl | rfl | rfl | rfl | rfl
      · exact changeAuthorize_announced d ev
      · exact changeAdmin_announced d ev _ _ fun withdraws => kept ⟨rfl,withdraws⟩
      · exact changeForwarding_announced d ev _ _
      · exact changeCoverage_announced d ev _ _
      · exact changeMembership_announced d ev _ _
      · exact dropExtension_announced d ev _ _
      · exact sendProfile_announced d ev _ _
      · exact removeAuthorization_announced d ev
    rcases announced with more | listed
    · exact outdated_of_lt more
    · exact absurd (listed.roster client device) differs

end Database

namespace Remote

def account : AuthorizeRow := { authname := "test2", authaccess := "REMOTE" }

def database : Database where
  network := "example"
  tables := { Site.tables with
    authorize := { rows := [Site.account,account] }
    extensions := Site.numbers
    admin := [{ authname := "system", extnbr := 101 }] }

def registry : Registry :=
  .create { user := "test1", number := 101, label := "desk", endpoint := 2, expires := 300 } 0

def change (toUser : UString) (headers : List (UString × UString)) : Event :=
  { Site.request "X-ADMIN" with toUser := some toUser, toLocal := true, headers }

end Remote

namespace Database

/-- A remote user is suspended, or restored: the rosters lose its public address. -/
theorem remote_suspension_untold : ¬∀ (d : Database) (ev : Event) (reg : Registry) (method : Method),
    method ∈ rostering → Context.refusal (Context.checks method ev) = none →
    ∀ client device, client.key ≠ ev.key →
      ((d.handle (Method.signal ev reg method)).roster client device).map RosterEntry.unranked ≠
        (d.roster client device).map RosterEntry.unranked →
      Outdated d.rosterSequence (d.handle (Method.signal ev reg method)).rosterSequence := by
  intro told
  have withdraws : Remote.database.Withdraws (Remote.change "102" [("x-suspend","true")]) :=
    ⟨Remote.account,true,by decide,by decide,by decide,rfl⟩
  obtain ⟨same,differs⟩ := changeAdmin_withdraws withdraws rfl Remote.registry.userId
    Remote.registry.endpointId { Site.request "X-ROSTER" with number := 102 } 3
  have more := (told Remote.database (Remote.change "102" [("x-suspend","true")]) Remote.registry .admin
    (by decide) (by decide) _ 3 (by decide) differs).1
  exact absurd same more.ne'

theorem roster_told_iff_local :
    let after := Remote.database.handle
      (Method.signal (Remote.change "101" [("x-suspend","true")]) Remote.registry .admin)
    ∀ client device, client.key ≠ (101,UString.ascii "desk") →
      (after.roster client device).map RosterEntry.unranked ≠
        (Remote.database.roster client device).map RosterEntry.unranked →
      Outdated Remote.database.rosterSequence after.rosterSequence := by
  refine (roster_told_iff Remote.database (Remote.change "101" [("x-suspend","true")]) Remote.registry
    .admin (by decide) (by decide)).mpr ?_
  rintro ⟨-,account,suspend,change,stored,-,remote⟩
  have changed : Remote.database.accessChange (Remote.change "101" [("x-suspend","true")]) =
      some (Site.account.authname,true) := by decide
  have named := (Prod.mk.inj (Option.some.inj (changed.symm.trans change))).1
  obtain rfl := Table.unique stored (show Site.account ∈ Remote.database.tables.authorize by decide) named.symm
  exact absurd remote (by decide)

end Database

end SipWitch
