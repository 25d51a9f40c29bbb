import SipWitch.Eviction
import SipWitch.Gate
import SipWitch.History
import SipWitch.Profile

/-! Records keep the secret of the lookup they were made for, and the accounts are changed
on other threads. A slot that replaces the secret of an account drops the endpoint of the
device that asked for it; one that removes an account drops none. -/
namespace SipWitch

open Index Registries Database Tables

def Tables.secretOf (t : Tables) (user : UString) : Option UString :=
  (t.account? user).map AuthorizeRow.secret

/-- What the record was made with is what its account has. -/
def Tables.Current (t : Tables) (x : Identity) : Prop := t.secretOf x.user = some x.secret

/-- What a slot does to the secret of an account: the secret that is stored in the end, if
the account is, and the endpoint that is dropped, if any. -/
structure Rewrite where
  user : UString
  secret : Option UString
  dropped : Option Int

namespace Database

variable {d d' : Database} {ev : Event} {authuser : UString} {endpoint : Int} {method : Method}
  {r : Rewrite}

def replaces (d : Database) (ev : Event) (authuser : UString) (endpoint : Int) : Option Rewrite :=
  match d.found ev with
  | .error _ => none
  | .ok (_,account) =>
    if ev.body ≠ [] ∧ d.profileRefused ev authuser = false ∧ takesSecret ev account = true then
      some ⟨account.authname,some (ev.json "s"),some endpoint⟩
    else none

def begins (d : Database) (ev : Event) (authuser : UString) (endpoint : Int) (method : Method) :
    Option Rewrite :=
  match d.begun ev authuser method with
  | .error _ => none
  | .ok _ => d.replaces ev authuser endpoint

def removesAccount (d : Database) (ev : Event) : Option Rewrite :=
  if d.tables.isSysadmin ev.number = false then none
  else
    match d.tables.account? (UString.unquote (ev.toUser.getD [])) with
    | none => none
    | some account =>
      if UString.toUpper account.authtype = "SYSTEM" then none
      else some ⟨account.authname,none,none⟩

def rewrites (d : Database) : Signal → Option Rewrite
  | .removeAuthorize ev => d.removesAccount ev
  | .changeProfile ev authuser endpoint => d.begins ev authuser endpoint .profile
  | .changeCoverage ev authuser endpoint => d.begins ev authuser endpoint .coverage
  | .changeForwarding ev authuser endpoint => d.begins ev authuser endpoint .forwarding
  | .removeDevice ev authuser endpoint => d.begins ev authuser endpoint .devkill
  | _ => none

def revoking : Signal → Bool
  | .findEndpoint _ | .lastAccess .. | .removeAuthorize _ | .changeAdmin .. | .dropExtension ..
  | .changeProfile .. | .changeCoverage .. | .changeForwarding .. | .removeDevice .. => true
  | _ => false

def Bodyless : Signal → Prop
  | .changeAdmin ev _ _ | .dropExtension ev _ _ => ev.body = []
  | _ => True

/-- No endpoint has the id of another one before. -/
structure Reissued (t t' : Tables) : Prop where
  rows : ∀ row ∈ t'.endpoints, (∃ old ∈ t.endpoints, old.endpoint = row.endpoint ∧ old.key = row.key) ∨
    t.endpoints.next ≤ row.endpoint
  next : t.endpoints.next ≤ t'.endpoints.next

theorem reissued_of {t t' : Tables} (endpoints : t'.endpoints = t.endpoints) : Reissued t t' := by
  refine ⟨fun row member => .inl ⟨row,endpoints ▸ member,rfl,rfl⟩,Int.le_of_eq ?_⟩
  rw [endpoints]

theorem reissued_delete {t t' : Tables} (fewer : ∀ row ∈ t'.endpoints, row ∈ t.endpoints)
    (next : t'.endpoints.next = t.endpoints.next) : Reissued t t' :=
  ⟨fun row member => .inl ⟨row,fewer row member,rfl,rfl⟩,Int.le_of_eq next.symm⟩

/-- Neither do deletions and the rows that go with them. -/
theorem reissued_sweep {t was : Tables} (fewer : ∀ row ∈ t.endpoints, row ∈ was.endpoints)
    (next : t.endpoints.next = was.endpoints.next) : Reissued was (t.sweep was) := by
  simp only [sweep]
  split
  · exact reissued_delete (fun row member => fewer row (Serial.mem_delete.mp member).1) next
  · exact reissued_delete fewer next

structure Rewritten (d d' : Database) (rewrite : Option Rewrite) : Prop where
  reissued : Reissued d.tables d'.tables
  others : ∀ user, (∀ r, rewrite = some r → r.user ≠ user) →
    d'.tables.secretOf user = d.tables.secretOf user
  changed : ∀ r, rewrite = some r → d'.tables.secretOf r.user = r.secret
  dropped : ∀ r endpoint, rewrite = some r → r.dropped = some endpoint →
    .dropEndpoint endpoint ∈ d'.emitted

theorem rewritten_none (reissued : Reissued d.tables d'.tables)
    (same : ∀ user, d'.tables.secretOf user = d.tables.secretOf user) : Rewritten d d' none :=
  ⟨reissued,fun user _ => same user,by simp,by simp⟩

theorem secretOf_congr {t t' : Tables} (authorize : t'.authorize = t.authorize) (user : UString) :
    t'.secretOf user = t.secretOf user := by
  simp only [Tables.secretOf,account?,authorize]

theorem rewritten_same (tables : d'.tables = d.tables) : Rewritten d d' none :=
  rewritten_none (reissued_of (by rw [tables])) fun _ => by rw [tables]

theorem Unaltered.secretOf (same : Unaltered d d') (user : UString) :
    d'.tables.secretOf user = d.tables.secretOf user := by
  have rows := congrArg (Option.map AuthorizeRow.secret) (same.accounts user)
  rw [Option.map_map,Option.map_map] at rows
  exact rows

theorem Unaltered.replaces (same : Unaltered d d') :
    d'.replaces ev authuser endpoint = d.replaces ev authuser endpoint := by
  simp only [Database.replaces]
  cases known : d.found ev with
  | ok row =>
    obtain ⟨extension,account⟩ := row
    obtain ⟨extension',account',known',equal⟩ := same.found known
    have name : account'.authname = account.authname := (congrArg AuthorizeRow.authname equal :)
    have secret : account'.secret = account.secret := (congrArg AuthorizeRow.secret equal :)
    have taken : takesSecret ev account' = takesSecret ev account := by simp only [takesSecret,secret]
    simp only [known',same.profileRefused,taken,name]
  | error code =>
    cases known' : d'.found ev with
    | error code => rfl
    | ok row =>
      obtain ⟨_,_,found,-⟩ := same.symm.found known'
      rw [known] at found
      contradiction

theorem Updated.secretOf {account : AuthorizeRow} {after : Database}
    (updated : Updated d ev authuser endpoint account after) (user : UString) :
    after.tables.secretOf user = (d.tables.account? user).map fun row =>
      if row.authname = account.authname then
        if takesSecret ev account then ev.json "s" else account.secret
      else row.secret := by
  rw [Tables.secretOf,updated.account?,Option.map_map]
  congr 1
  funext row
  simp only [Function.comp_apply]
  split <;> rfl

theorem sendProfile_rewritten (d : Database) (ev : Event) (authuser : UString) (endpoint : Int) :
    Rewritten d (d.sendProfile ev authuser endpoint) (d.replaces ev authuser endpoint) := by
  have reissued : Reissued d.tables (d.sendProfile ev authuser endpoint).tables :=
    reissued_of (History.sendProfile_boxes d ev authuser endpoint).1.endpoints
  rcases sendProfile_cases d ev authuser endpoint with
    ⟨refused,code,-,replied⟩ | ⟨accepted,body,document,shown⟩ |
    ⟨accepted,body,extension,account,known,⟨updated⟩⟩
  · have none : d.replaces ev authuser endpoint = none := by
      simp only [replaces,refused,Bool.true_eq_false,false_and,and_false,if_false]
      split <;> rfl
    rw [none,replied]
    exact rewritten_same rfl
  · have none : d.replaces ev authuser endpoint = none := by
      simp only [replaces,body,ne_eq,not_true_eq_false,false_and,if_false]
      split <;> rfl
    rw [none,shown]
    exact rewritten_same rfl
  · obtain ⟨member,named⟩ := account?_eq_some.mp (profile?_some (found_ok known).2).2
    have stored : d.tables.account? account.authname = some account :=
      account?_eq_some.mpr ⟨member,rfl⟩
    by_cases taken : takesSecret ev account = true
    · have some : d.replaces ev authuser endpoint =
          some ⟨account.authname,some (ev.json "s"),some endpoint⟩ := by
        simp only [replaces,known]
        rw [if_pos ⟨body,accepted,taken⟩]
      rw [some]
      refine ⟨reissued,fun user other => ?_,?_,?_⟩
      · have apart : account.authname ≠ user := other _ rfl
        rw [updated.secretOf,Tables.secretOf]
        cases row : d.tables.account? user with
        | none => rfl
        | some row' =>
          have name := (account?_eq_some.mp row).2
          simp only [Option.map_some]
          rw [if_neg fun same => apart (same.symm.trans name)]
      · rintro r here
        obtain rfl := Option.some.inj here
        rw [updated.secretOf,stored]
        simp [taken]
      · rintro r other here dropped
        obtain rfl := Option.some.inj here
        obtain rfl := Option.some.inj dropped
        rw [updated.emitted,if_pos taken]
        exact List.mem_append_right _ List.mem_cons_self
    · have none : d.replaces ev authuser endpoint = none := by
        simp only [replaces,known]
        rw [if_neg fun here => taken here.2.2]
      rw [none]
      refine rewritten_none reissued fun user => ?_
      rw [updated.secretOf,Tables.secretOf]
      cases row : d.tables.account? user with
      | none => rfl
      | some other =>
        simp only [Option.map_some,if_neg taken]
        congr 1
        split
        · rename_i same
          obtain ⟨member',-⟩ := account?_eq_some.mp row
          rw [Table.unique member' member same]
        · rfl

/-- What comes before `sendProfile` leaves the secrets alone. -/
theorem Rewritten.after {after : Database} {rewrite : Option Rewrite} (same : Unaltered d d')
    (reissued : Reissued d.tables d'.tables) (profile : Rewritten d' after rewrite)
    (endpoints : after.tables.endpoints = d'.tables.endpoints) : Rewritten d after rewrite := by
  refine ⟨⟨?_,?_⟩,fun user other => ?_,profile.changed,profile.dropped⟩
  · rw [endpoints]
    exact reissued.rows
  · rw [endpoints]
    exact reissued.next
  · exact (profile.others user other).trans (same.secretOf user)

theorem begun_reissued (ok : d.begun ev authuser method = .ok d') : Reissued d.tables d'.tables := by
  cases method <;> simp only [begun] at ok
  case forwarding =>
    simp only [forwards] at ok
    repeat' split at ok
    all_goals cases ok
    all_goals exact reissued_of rfl
  case coverage =>
    cases checked : d.covers ev with
    | error code => simp [checked,Except.map] at ok
    | ok change =>
      simp only [checked,Except.map,Except.ok.injEq] at ok
      subst ok
      simp only [cover]
      split
      · exact reissued_of rfl
      split
      · exact reissued_of rfl
      · simp only [runQuery]
        obtain ⟨calling,inserted⟩ := insertCalling_frame { d.tables with
          calling := d.tables.calling.filter fun row =>
            !(row.authname = change.1.authname && row.extnbr = ev.number) }
          { authname := change.1.authname, extnbr := ev.number, extpriority := change.2 }
        rw [inserted]
        exact reissued_of rfl
  case devkill =>
    cases checked : d.removes ev with
    | error code => simp [checked,Except.map] at ok
    | ok row =>
      simp only [checked,Except.map,Except.ok.injEq] at ok
      subst ok
      exact reissued_sweep (fun other member => (Serial.mem_delete.mp member).1) rfl
  all_goals
    cases ok
    exact reissued_of rfl

theorem begins_rewritten (ev : Event) (reg : Registry) {method : Method}
    (profiled : method ∈ profiling) : Rewritten d (d.handle (Method.signal ev reg method))
      (d.begins ev reg.userId reg.endpointId method) := by
  rw [handle_begun d ev reg profiled,begins]
  cases begun : d.begun ev reg.userId method with
  | error code => exact rewritten_same rfl
  | ok d' =>
    have same := begun_unaltered begun
    have profile := sendProfile_rewritten d' ev reg.userId reg.endpointId
    rw [same.replaces] at profile
    exact profile.after same (begun_reissued begun)
      (History.sendProfile_boxes d' ev reg.userId reg.endpointId).1.endpoints

/-- Without a body the profile is only shown. -/
theorem sendProfile_bodyless (body : ev.body = []) (authuser : UString) (endpoint : Int) :
    (d.sendProfile ev authuser endpoint).tables = d.tables := by
  rcases sendProfile_cases d ev authuser endpoint with
    ⟨-,_,-,replied⟩ | ⟨-,-,_,shown⟩ | ⟨-,full,-⟩
  · rw [replied]
    rfl
  · rw [shown]
    rfl
  · contradiction

theorem changeSuspend_bodyless (body : ev.body = []) (authuser : UString) (endpoint : Int)
    (account : AuthorizeRow) (suspend : Bool) :
    (d.changeSuspend ev authuser endpoint account suspend).tables =
      d.tables.updateAuthorize account.authname
        (fun row => { row with authaccess := if suspend then "SUSPEND" else "LOCAL" }) fun _ => rfl := by
  simp only [changeSuspend]
  split <;> exact sendProfile_bodyless body authuser endpoint

theorem secretOf_updateAuthorize {t : Tables} {name : UString} {change : AuthorizeRow → AuthorizeRow}
    {same : ∀ row, (change row).authname = row.authname} (kept : ∀ row, (change row).secret = row.secret)
    (user : UString) : (t.updateAuthorize name change same).secretOf user = t.secretOf user := by
  rw [Tables.secretOf,Tables.secretOf,account?_updateAuthorize,Option.map_map]
  congr 1
  funext row
  simp only [Function.comp_apply]
  split
  · exact kept row
  · rfl

theorem changeAdmin_rewritten (body : ev.body = []) (authuser : UString) (endpoint : Int) :
    Rewritten d (d.changeAdmin ev authuser endpoint) none := by
  obtain ⟨admin,system⟩ := changeSystem_frame d ev
  rw [changeAdmin_eq]
  split
  · exact rewritten_same rfl
  split
  · exact rewritten_same rfl
  split
  · have tables := sendProfile_bodyless (d := d.changeSystem ev) body authuser endpoint
    rw [system] at tables ⊢
    exact rewritten_none (reissued_of (by rw [tables])) fun user => secretOf_congr (by rw [tables]) user
  rename_i extension account _ _ _ value _
  split
  · rw [system]
    exact rewritten_none (reissued_of rfl) fun user => secretOf_congr rfl user
  · have tables := changeSuspend_bodyless (d := d.changeSystem ev) body authuser endpoint account
      (UString.toBool value)
    rw [system] at tables ⊢
    refine rewritten_none (reissued_of (by rw [tables]; rfl)) fun user => ?_
    rw [tables]
    refine (secretOf_updateAuthorize ?_ user).trans ?_
    · exact fun _ => rfl
    · exact secretOf_congr rfl user

theorem dropExtension_rewritten (body : ev.body = []) (authuser : UString) (endpoint : Int) :
    Rewritten d (d.dropExtension ev authuser endpoint) none := by
  simp only [dropExtension]
  split
  · exact rewritten_same rfl
  split
  · exact rewritten_same rfl
  split
  · exact rewritten_same rfl
  · exact rewritten_same (sendProfile_bodyless body authuser endpoint)

theorem insertDeletes_frame (auth : UString) (created : Int) (rows : List EndpointRow) (d : Database) :
    ∃ deletes, (rows.foldl (fun d row => d.runQuery (·.insertDelete
      { authname := auth, endpoint := row.endpoint, created })) d).tables = { d.tables with deletes } := by
  induction rows generalizing d with
  | nil => exact ⟨d.tables.deletes,rfl⟩
  | cons row rest ih =>
    obtain ⟨deletes,same⟩ := ih (d.runQuery (·.insertDelete
      { authname := auth, endpoint := row.endpoint, created }))
    refine ⟨deletes,same.trans ?_⟩
    simp only [runQuery_tables,insertDelete]
    split <;> rfl

theorem deleteAuthorize_authorize (t : Tables) (name : UString) :
    (t.deleteAuthorize name).authorize = t.authorize.delete fun row => row.authname = name := by
  simp only [deleteAuthorize,sweep]
  split <;> rfl

theorem secretOf_deleteAuthorize (t : Tables) (name user : UString) :
    (t.deleteAuthorize name).secretOf user = if user = name then none else t.secretOf user := by
  have stored (row : AuthorizeRow) : (t.deleteAuthorize name).account? user = some row ↔
      t.account? user = some row ∧ user ≠ name := by
    rw [account?_eq_some,account?_eq_some,deleteAuthorize_authorize,Table.mem_delete]
    constructor
    · rintro ⟨⟨member,other⟩,rfl⟩
      exact ⟨⟨member,rfl⟩,of_decide_eq_false other⟩
    · rintro ⟨⟨member,rfl⟩,other⟩
      exact ⟨⟨member,decide_eq_false other⟩,rfl⟩
  rw [Tables.secretOf,Tables.secretOf]
  by_cases here : user = name
  · rw [if_pos here,Option.map_eq_none_iff,Option.eq_none_iff_forall_ne_some]
    exact fun row found => ((stored row).mp found).2 here
  · rw [if_neg here]
    congr 1
    exact Option.ext fun row => (stored row).trans (and_iff_left here)

theorem removeAuthorization_rewritten (d : Database) (ev : Event) :
    Rewritten d (Authorize.removeAuthorization d ev) (d.removesAccount ev) := by
  simp only [Authorize.removeAuthorization,removesAccount]
  split
  · exact rewritten_same rfl
  cases stored : d.tables.account? (UString.unquote (ev.toUser.getD [])) with
  | none => exact rewritten_same rfl
  | some account =>
    dsimp only
    split
    · exact rewritten_same rfl
    obtain ⟨-,named⟩ := account?_eq_some.mp stored
    rw [named]
    obtain ⟨deletes,same⟩ := insertDeletes_frame (UString.unquote (ev.toUser.getD [])) account.created
      (((d.reply ev Sip.ok).runQuery (·.deleteAuthorize (UString.unquote (ev.toUser.getD [])))).tables
        |>.endpoints.select EndpointRow.labelled)
      ((d.reply ev Sip.ok).runQuery (·.deleteAuthorize (UString.unquote (ev.toUser.getD []))))
    have secrets (user : UString) := secretOf_deleteAuthorize d.tables
      (UString.unquote (ev.toUser.getD [])) user
    refine ⟨?_,fun user other => ?_,?_,?_⟩
    · have deleted : Reissued d.tables (d.tables.deleteAuthorize (UString.unquote (ev.toUser.getD []))) :=
        reissued_sweep (fun _ member => member) rfl
      rw [updateRoster_tables,same]
      exact ⟨deleted.rows,deleted.next⟩
    · rw [updateRoster_tables,same]
      refine (secretOf_congr rfl user).trans ((secrets user).trans (if_neg ?_))
      exact fun here => other _ rfl here.symm
    · rintro r here
      obtain rfl := Option.some.inj here
      rw [updateRoster_tables,same]
      exact (secretOf_congr rfl _).trans ((secrets _).trans (if_pos rfl))
    · rintro r other here dropped
      obtain rfl := Option.some.inj here
      contradiction

theorem handle_rewritten (signal : Signal) (revokes : revoking signal = true)
    (bodyless : Bodyless signal) : Rewritten d (d.handle signal) (d.rewrites signal) := by
  have begins (ev : Event) (authuser : UString) (endpoint : Int) (method : Method)
      (profiled : method ∈ profiling) :=
    begins_rewritten (d := d) ev
      (Registry.create { user := authuser, number := 0, label := [], endpoint, expires := 0 } 0) profiled
  cases signal with
  | findEndpoint ev =>
    refine rewritten_none ?_ fun user => secretOf_congr (findEndpoint_authorize d ev) user
    rcases Authorize.findEndpoint_tables d ev with same | ⟨extension,vacant,same⟩
    · exact reissued_of (congrArg Tables.endpoints same)
    · rw [handle,same]
      refine ⟨fun row member => ?_,insertEndpoint_next _ _ _ _⟩
      rcases (mem_insertEndpoint d.clock extension vacant row).mp member with old | rfl
      · exact .inl ⟨row,old,rfl,rfl⟩
      · exact .inr (Int.le_refl _)
  | lastAccess endpoint timestamp agent deviceKey uri =>
    refine rewritten_none ⟨fun row member => ?_,Int.le_refl _⟩ fun user => secretOf_congr rfl user
    simp only [handle,lastAccess,runQuery_tables] at member
    obtain ⟨old,known,same⟩ := mem_updateEndpoint.mp member
    refine .inl ⟨old,known,?_⟩
    rw [← same]
    split <;> exact ⟨rfl,rfl⟩
  | removeAuthorize ev => exact removeAuthorization_rewritten d ev
  | changeAdmin ev authuser endpoint => exact changeAdmin_rewritten bodyless authuser endpoint
  | dropExtension ev authuser endpoint => exact dropExtension_rewritten bodyless authuser endpoint
  | changeProfile ev authuser endpoint => exact begins ev authuser endpoint .profile (by decide)
  | changeCoverage ev authuser endpoint => exact begins ev authuser endpoint .coverage (by decide)
  | changeForwarding ev authuser endpoint => exact begins ev authuser endpoint .forwarding (by decide)
  | removeDevice ev authuser endpoint => exact begins ev authuser endpoint .devkill (by decide)
  | _ => contradiction

end Database

namespace Registries

variable {name name' : Int → Option (Int × UString)} {T T' : Tables} {t : Registries}
  {hash : HashFunction} {m : Manager}

/-- The name of an id is the number and label of the endpoints that have it or had it. -/
structure Issued (name : Int → Option (Int × UString)) (T : Tables) : Prop where
  rows : ∀ row ∈ T.endpoints, name row.endpoint = some row.key
  unused : ∀ id, T.endpoints.next ≤ id → name id = none

/-- Records keep the names of their endpoints, and where the one that an event finds is the
one that its endpoint leads to. -/
structure Named (name : Int → Option (Int × UString)) (t : Registries) : Prop where
  linked : Linked t
  named : ∀ a reg, t.heap.lookup a = some reg → name reg.endpointId = some reg.key
  found : ∀ k a reg, t.registries.lookup k = some a → t.heap.lookup a = some reg →
    t.endpoints.lookup reg.endpointId = some a

/-- New ids get names, and the old ones keep theirs. -/
theorem Issued.reissued (issued : Issued name T) (reissued : Reissued T T') :
    ∃ name', Issued name' T' ∧ ∀ id key, name id = some key → name' id = some key := by
  refine ⟨fun id => if id < T.endpoints.next then name id
    else (T'.endpoints.rows.find? fun row => row.endpoint = id).map EndpointRow.key,⟨?_,?_⟩,?_⟩
  · intro row member
    split
    · rename_i old
      rcases reissued.rows row member with ⟨before,known,same,key⟩ | new
      · rw [← same,← key]
        exact issued.rows before known
      · omega
    · cases found : T'.endpoints.rows.find? fun other => other.endpoint = row.endpoint with
      | none => simpa using List.find?_eq_none.mp found row member
      | some other =>
        have same : other.endpoint = row.endpoint := by simpa using List.find?_some found
        rw [Serial.unique_id (List.mem_of_find?_eq_some found) member same]
        rfl
  · intro id new
    have := reissued.next
    rw [if_neg (by omega),Option.map_eq_none_iff,List.find?_eq_none]
    intro row member same
    have bound := (T'.endpoints.issued row member).2
    rw [decide_eq_true_eq] at same
    omega
  · intro id key named
    dsimp only
    rw [if_pos]
    · exact named
    · by_contra new
      rw [issued.unused id (by omega)] at named
      contradiction

theorem Named.mono (named : Named name t) (more : ∀ id key, name id = some key → name' id = some key) :
    Named name' t :=
  ⟨named.linked,fun a reg live => more _ _ (named.named a reg live),named.found⟩

theorem named_stable (name : Int → Option (Int × UString)) : Stable (Named name) where
  delete t b named := by
    refine ⟨named.linked.delete b,fun a reg live => named.named a reg (live_of_delete live),?_⟩
    intro k a reg entry live
    have before := live_of_delete live
    cases gone : t.heap.lookup b with
    | none =>
      rw [delete_dead gone] at entry ⊢
      exact named.found k a reg entry before
    | some other =>
      simp only [Registries.delete,gone,lookup_erase_cases] at entry ⊢
      split at entry
      · contradiction
      rename_i apart
      have listed := named.found k a reg entry before
      rw [if_neg fun same => apart ?_]
      · exact listed
      · -- both records carry the name of the endpoint, and the entry is under the name
        obtain ⟨reg',known,key⟩ := named.linked.registries k a entry
        rw [before] at known
        obtain rfl := Option.some.inj known
        have name := named.named a reg before
        rw [same,named.named b other gone] at name
        exact key.symm.trans (Option.some.inj name).symm
  write t b reg reg' live same named := by
    refine ⟨named.linked.write live same,fun a other alive => ?_,fun k a other entry alive => ?_⟩
    all_goals
      simp only [Registries.write,lookup_insert_cases] at alive
      split at alive
    · obtain rfl := Option.some.inj alive
      rw [same.endpoint,same.key]
      exact named.named b reg live
    · exact named.named a other alive
    · rename_i here
      obtain rfl := Option.some.inj alive
      subst here
      rw [same.endpoint]
      exact named.found k a reg entry live
    · exact named.found k a other entry alive

theorem Named.create (named : Named name t) (ep : EndpointInfo) (range : Int × Int) (now : Nat)
    (known : name ep.endpoint = some (ep.number,ep.label)) : Named name (t.create ep range now).1 := by
  refine ⟨named.linked.create ep range now,fun a reg live => ?_,fun k a reg entry live => ?_⟩
  · simp only [Registries.create,lookup_insert_cases] at live
    split at live
    · obtain rfl := Option.some.inj live
      exact known
    · exact named.named a reg live
  · simp only [Registries.create,lookup_insert_cases] at entry live ⊢
    split at entry
    · obtain rfl := Option.some.inj entry
      rw [if_pos rfl] at live
      obtain rfl := Option.some.inj live
      exact if_pos rfl
    · rename_i apart
      obtain ⟨reg',alive,key⟩ := named.linked.registries k a entry
      have old : a ≠ t.next := by
        rintro rfl
        rw [named.linked.fresh] at alive
        contradiction
      rw [if_neg old] at live
      rw [live] at alive
      obtain rfl := Option.some.inj alive
      rw [if_neg fun same => apart ?_]
      · exact named.found k a reg entry live
      · have name := named.named a reg live
        rw [same] at name
        exact key.symm.trans (Option.some.inj (name.symm.trans known))

theorem Named.handle (named : Named name m.registries) (slot : Slot) (fresh : Nonce)
    (known : ∀ x, slot.makes = some x → name x.endpoint = some (x.number,x.label)) :
    Named name (m.handle hash slot fresh).registries := by
  refine (named_stable name).kept.handle named slot fresh fun ev ep made => ?_
  subst made
  exact (named_stable name).createRegistration ev ep fresh (named.create ep _ _ (known _ rfl))

theorem named_empty : Named name {} :=
  ⟨linked_empty,fun a reg live => by simp at live,fun k a reg entry => by simp at entry⟩

end Registries

namespace Server

variable {hash : HashFunction} {s next : Server} {a : Action}

def taken (s : Server) : Action → Option Signal
  | .authorize => s.lookups.head?
  | .database => s.requests.head?
  | _ => none

/-- The database threads run slots of revocation and registration; what else they do leaves
accounts and endpoints alone. -/
def Revoking (s : Server) (a : Action) : Prop :=
  (∀ signal, s.taken a = some signal → Database.revoking signal = true) ∧
  ∀ tables drops messages, a = .other tables drops messages →
    tables.authorize = s.database.tables.authorize ∧ tables.endpoints = s.database.tables.endpoints

/-- The record is within reach of a drop when the manager has run what is queued for it. -/
def Remains (s : Server) (x : Identity) : Prop :=
  Inflight.Remains Slot.makes Slot.drops Identity.endpoint s.manager.registries.Holds s.inbox x

/-- Where the step changes the secret of an account, only the endpoint that it drops has a
record of the user with another secret. -/
def Safe (s : Server) (a : Action) : Prop :=
  ∀ signal r, s.taken a = some signal → s.database.rewrites signal = some r →
    ∀ x, s.Remains x → x.user = r.user → r.secret ≠ some x.secret → r.dropped = some x.endpoint

def Accepts (hash : HashFunction) (m : Manager) (reg : Registry) : Prop :=
  ∃ ev a, m.registries.findByEvent ev m.now = (m.registries,some (a,reg)) ∧
    (reg.authenticate hash ev m.now = Sip.ok ∨ (reg.authorize hash ev m.now).2 = Sip.ok)

/-- The records that accept requests have the secrets of their accounts. -/
def Revoked (hash : HashFunction) (s : Server) : Prop :=
  ∀ reg, Accepts hash s.manager reg → ∃ account ∈ s.database.tables.authorize,
    account.authname = reg.userId ∧ account.secret = reg.userSecret

/-- What is queued for the manager and the database threads has passed the checks. -/
structure Checked (s : Server) : Prop where
  gated : s.Gated
  requests : ∀ method ev, .request method ev ∈ s.inbox →
    Context.refusal (Context.checks method ev) = none
  signals : ∀ signal ∈ s.lookups ++ s.requests, Bodyless signal

theorem process_passed {ev ev' : Event} {method : Method}
    (received : (Context.process ev).2 = some (.request method ev')) :
    Context.refusal (Context.checks method ev') = none := by
  simp only [Context.process] at received
  split at received
  · split at received
    · contradiction
    · split at received <;> simp at received
  · split at received
    · contradiction
    · split at received
      · contradiction
      · rename_i passed
        split at received
        · cases received
          exact passed
        · contradiction

theorem handle_bodyless {m : Manager} {slot : Slot} {fresh : Nonce} (silent : m.emitted = [])
    (passed : ∀ method ev, slot = .request method ev →
      Context.refusal (Context.checks method ev) = none)
    {signal : Signal} (member : signal ∈ (m.handle hash slot fresh).emitted) : Bodyless signal := by
  cases slot with
  | refreshRegistration ev =>
    rcases Manager.refreshRegistration_emitted signal member with earlier | other
    · simp [silent] at earlier
    · cases signal <;> trivial
  | notice notice =>
    rw [Manager.notified_emitted,silent] at member
    contradiction
  | request method ev =>
    rw [Manager.handle,Manager.requestOf_emitted] at member
    rcases Manager.vet_cases hash m ev with ⟨refused,same⟩ | ⟨a,reg,vetted,-⟩
    · simp [refused,same,silent] at member
    · simp only [vetted,silent,List.nil_append,Option.map_some,Option.toList_some,
        List.mem_singleton] at member
      subst member
      have checked := passed method ev rfl
      cases method with
      | admin => exact Database.checks_bodyless (by decide : Method.admin ∈ _) checked
      | drop => exact Database.checks_bodyless (by decide : Method.drop ∈ _) checked
      | _ => trivial

/-- A step of a database thread, by the signal that it runs. -/
theorem taken_some {signal : Signal} (moved : s.step hash a = some next)
    (running : s.taken a = some signal) :
    next.database.tables = (s.database.handle signal).tables ∧
    next.inbox = s.inbox ++ (s.database.handle signal).emitted.map .notice ∧
    next.manager.registries = s.manager.registries ∧
    signal ∈ s.lookups ++ s.requests ∧
    ∀ other ∈ next.lookups ++ next.requests, other ∈ s.lookups ++ s.requests := by
  cases a with
  | authorize =>
    obtain ⟨first,rest,waiting,rfl⟩ := authorize_some moved
    simp only [taken,waiting,List.head?_cons,Option.some.injEq] at running
    subst running
    refine ⟨rfl,rfl,rfl,?_⟩
    rw [waiting]
    exact ⟨List.mem_cons_self,fun _ member => List.mem_cons_of_mem _ member⟩
  | database =>
    obtain ⟨first,rest,waiting,rfl⟩ := database_some moved
    simp only [taken,waiting,List.head?_cons,Option.some.injEq] at running
    subst running
    refine ⟨rfl,rfl,rfl,?_⟩
    rw [waiting]
    refine ⟨by simp,fun other member => ?_⟩
    rw [List.mem_append] at member ⊢
    exact member.imp_right (List.mem_cons_of_mem _)
  | _ => contradiction

theorem taken_of_step (moved : s.step hash a = some next) (runs : a = .authorize ∨ a = .database) :
    ∃ signal, s.taken a = some signal := by
  rcases runs with rfl | rfl
  · cases waiting : s.lookups with
    | nil => simp [step,waiting] at moved
    | cons first rest => exact ⟨first,by simp [taken,waiting]⟩
  · cases waiting : s.requests with
    | nil => simp [step,waiting] at moved
    | cons first rest => exact ⟨first,by simp [taken,waiting]⟩

theorem notices_request {notices : List Notice} {inbox : List Slot} {method : Method} {ev : Event}
    (queued : .request method ev ∈ inbox ++ notices.map .notice) : .request method ev ∈ inbox := by
  rcases List.mem_append.mp queued with earlier | new
  · exact earlier
  · obtain ⟨_,_,other⟩ := List.mem_map.mp new
    contradiction

theorem step_checked (checked : s.Checked) (moved : s.step hash a = some next) : next.Checked := by
  have gated := step_gated checked.gated moved
  have served (runs : a = .authorize ∨ a = .database) : next.Checked := by
    obtain ⟨signal,running⟩ := taken_of_step moved runs
    obtain ⟨-,inbox,-,-,fewer⟩ := taken_some moved running
    refine ⟨gated,fun method ev queued => ?_,fun other member => checked.signals other (fewer other member)⟩
    rw [inbox] at queued
    exact checked.requests method ev (notices_request queued)
  cases a with
  | pass ms => cases moved; exact ⟨gated,checked.requests,checked.signals⟩
  | cleanup => cases moved; exact ⟨gated,checked.requests,checked.signals⟩
  | receive ev =>
    cases moved
    refine ⟨gated,fun method ev' queued => ?_,checked.signals⟩
    rcases List.mem_append.mp queued with earlier | new
    · exact checked.requests method ev' earlier
    · exact process_passed (Option.mem_toList.mp new)
  | manage fresh =>
    obtain ⟨slot,rest,waiting,rfl⟩ := manage_some moved
    refine ⟨gated,fun method ev queued => ?_,fun signal member => ?_⟩
    · exact checked.requests method ev (waiting ▸ List.mem_cons_of_mem _ queued)
    · have emitted (member : signal ∈ (s.manager.handle hash slot fresh).emitted) : Bodyless signal :=
        handle_bodyless checked.gated.manager (fun method ev same =>
          checked.requests method ev (by rw [waiting,same]; exact List.mem_cons_self)) member
      simp only [managed,List.mem_append,List.mem_filter] at member
      rcases member with (old | new) | (old | new)
      · exact checked.signals signal (List.mem_append_left _ old)
      · exact emitted new.1
      · exact checked.signals signal (List.mem_append_right _ old)
      · exact emitted new.1
  | authorize => exact served (.inl rfl)
  | database => exact served (.inr rfl)
  | other tables drops messages =>
    cases moved
    exact ⟨gated,fun method ev queued => checked.requests method ev (notices_request queued),
      checked.signals⟩

/-- Records, live and queued, are those of the endpoints they name. -/
def Labelled (s : Server) : Prop :=
  ∃ name, Issued name s.database.tables ∧ Named name s.manager.registries ∧
    ∀ slot ∈ s.inbox, ∀ x, slot.makes = some x → name x.endpoint = some (x.number,x.label)

/-- What a slot of the database threads makes, it makes of the tables it leaves. -/
theorem handle_made {d : Database} (silent : d.emitted = []) {signal : Signal} {notice : Notice}
    {x : Identity} (emitted : notice ∈ (d.handle signal).emitted)
    (made : (Slot.notice notice).makes = some x) : (d.handle signal).tables.Current x ∧
      ∃ row ∈ (d.handle signal).tables.endpoints, row.endpoint = x.endpoint ∧
        row.key = (x.number,x.label) := by
  by_cases lookup : ∃ ev, signal = .findEndpoint ev
  · obtain ⟨ev,rfl⟩ := lookup
    cases Authorize.findEndpoint_outcome d ev with
    | refused code wire quiet =>
      rw [Database.handle,quiet,silent] at emitted
      contradiction
    | found ep looked wire signalled =>
      rw [Database.handle,signalled,silent,List.nil_append,List.mem_singleton] at emitted
      subst emitted
      obtain rfl := Option.some.inj made
      constructor
      · obtain ⟨account,stored,named,secret,-⟩ := looked.account
        have found : (Authorize.findEndpoint d ev).tables.account? ep.user = some account :=
          account?_eq_some.mpr ⟨stored,named⟩
        exact (congrArg (Option.map AuthorizeRow.secret) found).trans (congrArg some secret)
      · obtain ⟨row,member,endpoint,key⟩ := looked.endpoint
        refine ⟨row,member,endpoint,key.trans ?_⟩
        exact Prod.ext looked.number.symm looked.label.symm
  · have other : ∀ ev, signal ≠ .findEndpoint ev := fun ev here => lookup ⟨ev,here⟩
    rw [Database.handle_makes_none silent signal other notice emitted] at made
    contradiction

theorem step_labelled (labelled : s.Labelled) (checked : s.Checked) (revoking : s.Revoking a)
    (moved : s.step hash a = some next) : next.Labelled := by
  obtain ⟨name,issued,named,queued⟩ := labelled
  have served (runs : a = .authorize ∨ a = .database) : next.Labelled := by
    obtain ⟨signal,running⟩ := taken_of_step moved runs
    obtain ⟨tables,inbox,registries,member,-⟩ := taken_some moved running
    have rewritten := Database.handle_rewritten (d := s.database) signal
      (revoking.1 signal running) (checked.signals signal member)
    obtain ⟨name',issued',more⟩ := issued.reissued rewritten.reissued
    refine ⟨name',tables ▸ issued',registries ▸ named.mono more,?_⟩
    rw [inbox]
    intro slot member x made
    rcases List.mem_append.mp member with old | new
    · exact more _ _ (queued slot old x made)
    · obtain ⟨notice,emitted,rfl⟩ := List.mem_map.mp new
      obtain ⟨-,row,known,endpoint,key⟩ := handle_made checked.gated.database emitted made
      rw [← endpoint,← key]
      exact issued'.rows row known
  cases a with
  | pass ms => cases moved; exact ⟨name,issued,named,queued⟩
  | cleanup =>
    cases moved
    have kept : Manager.Kept hash fun m => Named name m.registries := (named_stable name).kept
    exact ⟨name,issued,kept.cleanup (m := s.manager) named,queued⟩
  | receive ev =>
    cases moved
    refine ⟨name,issued,named,fun slot member x made => ?_⟩
    rcases List.mem_append.mp member with old | new
    · exact queued slot old x made
    · rw [Context.process_makes (Option.mem_toList.mp new)] at made
      contradiction
  | manage fresh =>
    obtain ⟨slot,rest,waiting,rfl⟩ := manage_some moved
    rw [waiting] at queued
    refine ⟨name,issued,named.handle slot fresh (queued slot List.mem_cons_self),?_⟩
    exact fun other member => queued other (List.mem_cons_of_mem _ member)
  | authorize => exact served (.inl rfl)
  | database => exact served (.inr rfl)
  | other tables drops messages =>
    obtain ⟨-,endpoints⟩ := revoking.2 tables drops messages rfl
    cases moved
    refine ⟨name,⟨?_,?_⟩,named,fun slot member x made => ?_⟩
    · exact endpoints ▸ issued.rows
    · exact endpoints ▸ issued.unused
    · rcases List.mem_append.mp member with old | new
      · exact queued slot old x made
      · obtain ⟨notice,listed,rfl⟩ := List.mem_map.mp new
        simp only [List.mem_append,List.mem_map] at listed
        rcases listed with ⟨_,-,rfl⟩ | ⟨_,-,rfl⟩ <;> contradiction

/-- The records that will remain have the secrets of their accounts. -/
def Settles (s : Server) : Prop := ∀ x, s.Remains x → s.database.tables.Current x

theorem step_settles (settles : s.Settles) (checked : s.Checked) (revoking : s.Revoking a)
    (safe : s.Safe a) (moved : s.step hash a = some next) : next.Settles := by
  have served (runs : a = .authorize ∨ a = .database) : next.Settles := by
    obtain ⟨signal,running⟩ := taken_of_step moved runs
    obtain ⟨tables,inbox,registries,member,-⟩ := taken_some moved running
    have rewritten := Database.handle_rewritten (d := s.database) signal
      (revoking.1 signal running) (checked.signals signal member)
    intro x remains
    rw [Remains,registries,inbox,Inflight.remains_append] at remains
    rw [tables]
    rcases remains.origin with ⟨old,spared⟩ | ⟨slot,emitted,made⟩
    · by_cases own : ∃ r, s.database.rewrites signal = some r ∧ r.user = x.user
      · obtain ⟨r,rewrite,user⟩ := own
        by_cases known : r.secret = some x.secret
        · rw [Tables.Current,← user,rewritten.changed r rewrite,known]
        · -- the slot drops the endpoint of what it leaves behind
          have dropped := safe signal r running rewrite x old user.symm known
          refine absurd ⟨_,List.mem_map.mpr ⟨_,rewritten.dropped r _ rewrite dropped,rfl⟩,?_⟩ spared
          rfl
      · have others := rewritten.others x.user fun r rewrite here => own ⟨r,rewrite,here⟩
        rw [Tables.Current,others]
        exact settles x old
    · obtain ⟨notice,listed,rfl⟩ := List.mem_map.mp emitted
      exact (handle_made checked.gated.database listed made).1
  cases a with
  | pass ms => cases moved; exact settles
  | cleanup =>
    cases moved
    intro x remains
    have kept : Manager.Kept hash fun m => ∀ x, m.registries.Holds x → s.manager.registries.Holds x :=
      Manager.held_kept s.manager.registries.Holds
    exact settles x (Inflight.Remains.mono remains (kept.cleanup (m := s.manager) fun _ holds => holds))
  | receive ev =>
    cases moved
    intro x remains
    rw [Remains,receive,Inflight.remains_append] at remains
    refine settles x (Inflight.Remains.harmless remains fun slot new => ?_)
    exact Context.process_makes (Option.mem_toList.mp new)
  | manage fresh =>
    obtain ⟨slot,rest,waiting,rfl⟩ := manage_some moved
    intro x remains
    have kept (y : Identity) (holds : (s.manager.handle hash slot fresh).registries.Holds y) :=
      Manager.handle_holds checked.gated.linked slot fresh holds
    have before := Inflight.Remains.mono remains kept
    refine settles x ?_
    rw [Remains,waiting]
    exact before
  | authorize => exact served (.inl rfl)
  | database => exact served (.inr rfl)
  | other tables drops messages =>
    obtain ⟨authorize,-⟩ := revoking.2 tables drops messages rfl
    cases moved
    intro x remains
    rw [Remains,Inflight.remains_append] at remains
    refine (Database.secretOf_congr authorize x.user).trans (settles x ?_)
    refine Inflight.Remains.harmless remains fun slot new => ?_
    obtain ⟨notice,listed,rfl⟩ := List.mem_map.mp new
    simp only [List.mem_append,List.mem_map] at listed
    rcases listed with ⟨_,-,rfl⟩ | ⟨_,-,rfl⟩ <;> rfl

end Server

/-! Two users of the site: `test1` with a device, and `test2`, who is the sysadmin. -/
namespace Pair

open Server

def md5 : List (UString × UString) := [
  ("X-DEAUTHORIZE:sip:localhost","0c72adf82318360d6b07008127fb1200"),
  ("X-PROFILE:sip:localhost","0e0d8fd779087dd3996831d124fc890e"),
  ("6d292c665b1ed72b8bfdbb5d45173d98:0707070707070707:1ee62ecb3ce6e584fee8129c08551099",
    "6c6170c89fcbb92ed3ebd8e00bdb0ae5"),
  ("6d292c665b1ed72b8bfdbb5d45173d98:0707070707070707:0c72adf82318360d6b07008127fb1200",
    "cab03598632a588d8e3c6fd11170f6a5"),
  ("74d0a5bd38ed78708aacb9f056e40120:0707070707070707:0e0d8fd779087dd3996831d124fc890e",
    "c20a745d7f534fb36f9353734259647b")]

def hash : HashFunction
  | .md5,text => Site.unhex (((Site.md5 ++ md5).lookup text).getD [])
  | _,_ => []

def server : Server where
  database := { tables := { Site.tables with
    authorize := { rows := [Site.account,{ Site.account with
      authname := "test2"
      secret := "6d292c665b1ed72b8bfdbb5d45173d98" }] }
    extensions := Site.numbers
    endpoints := { Site.tables.endpoints with
      table := { rows := [{ endpoint := 1, extnbr := 101, label := "desk" },
        { endpoint := 2, extnbr := 102, label := "desk" }] }
      issued := by decide
      ids := by decide }
    admin := [{ authname := "system", extnbr := 102 }] } }

theorem server_idle : server.Idle := ⟨rfl,rfl,rfl,rfl,rfl⟩

def signed (ev : Event) (response : UString) : Event :=
  { ev with
    number := 102
    authorization := some {
      userid := "test2"
      digest := response
      nonce := "0707070707070707"
      realm := "testing"
      algorithm := "MD5" } }

def register (ev : Event) : List Action := [.receive { ev with authorization := none },
  .manage (Site.nonce 0),.authorize,.manage (Site.nonce 7),.receive ev,.manage (Site.nonce 0),.database]

def first : List Action :=
  register (Site.signed Site.register "0707070707070707" "0476139b44ef0de547a92625ae3bc490")

def removal : List Action :=
  first ++ register (signed Site.register "6c6170c89fcbb92ed3ebd8e00bdb0ae5") ++
  [.receive { signed (Site.request "X-DEAUTHORIZE") "cab03598632a588d8e3c6fd11170f6a5" with
      toUser := some "test1"
      toLocal := true },
    .manage (Site.nonce 0),.authorize]

def change : List Action :=
  first ++ [.receive { Site.signed (Site.request "X-PROFILE") "0707070707070707"
        "c20a745d7f534fb36f9353734259647b" with
      toUser := some "101"
      toLocal := true
      contentType := "profile/json"
      body := "\x7b\"s\":\"00000000000000000000000000000000\"\x7d"
      members := [("s","00000000000000000000000000000000")] },
    .manage (Site.nonce 0),.database,.manage (Site.nonce 0)]

def roster : Event := Site.signed (Site.request "X-ROSTER") "0707070707070707"
  "4849617fd472c4991accdadf35947100"

def plain (s : Server) (a : Action) : Bool :=
  (s.taken a).all Database.revoking && match a with
    | .other .. => false
    | _ => true

/-- Slots of revocation and registration only, and all records have the endpoint that a changed secret drops. -/
def alone (s : Server) (a : Action) : Bool :=
  plain s a && (s.taken a).all fun signal => (s.database.rewrites signal).all fun r =>
    s.inbox.all (fun slot => slot.makes.isNone) &&
      s.manager.registries.heap.entries.all fun entry => r.dropped = some entry.2.endpointId

end Pair

namespace Server

variable {hash : HashFunction} {s : Server} {a : Action}

theorem revoking_of_plain (passed : Pair.plain s a = true) : s.Revoking a := by
  obtain ⟨signals,inner⟩ := Bool.and_eq_true_iff.mp passed
  refine ⟨fun signal running => ?_,fun tables drops messages other => ?_⟩
  · rw [running] at signals
    exact signals
  · rw [other] at inner
    contradiction

theorem safe_of_alone (passed : Pair.alone s a = true) : s.Safe a := by
  intro signal r running rewrite x remains _ _
  obtain ⟨-,guarded⟩ := Bool.and_eq_true_iff.mp passed
  rw [running,Option.all_some,rewrite,Option.all_some] at guarded
  obtain ⟨quiet,dropped⟩ := Bool.and_eq_true_iff.mp guarded
  have holds : s.manager.registries.Holds x := by
    refine Inflight.Remains.harmless remains fun slot queued => ?_
    exact Option.isNone_iff_eq_none.mp (List.all_eq_true.mp quiet slot queued)
  obtain ⟨b,reg,live,-,rfl⟩ := holds
  exact of_decide_eq_true (List.all_eq_true.mp dropped _ (AList.mem_lookup_iff.mp live))

theorem revoked_of_settles (settles : s.Settles) (labelled : s.Labelled)
    (delivered : ∀ slot ∈ s.inbox, slot.drops = none) : s.Revoked hash := by
  rintro reg ⟨ev,a,found,-⟩
  obtain ⟨name,-,named,-⟩ := labelled
  have current : s.database.tables.Current reg.identity := by
    rcases unexpired_cases s.manager.registries
      (s.manager.registries.registries.lookup ev.key) s.manager.now with
      ⟨b,other,shown,entry,live,-⟩ | ⟨b,other,shown,-⟩ | ⟨shown,-⟩ <;>
      rw [findByEvent,shown] at found <;>
      cases congrArg Prod.snd found
    have holds : s.manager.registries.Holds reg.identity :=
      ⟨a,reg,live,named.found _ a reg entry live,rfl⟩
    exact settles _ (Inflight.remains_of_undropped holds delivered)
  obtain ⟨account,stored,secret⟩ := Option.map_eq_some_iff.mp current
  obtain ⟨member,user⟩ := account?_eq_some.mp stored
  exact ⟨account,member,user,secret⟩

/-- From an idle server, while every change of a secret and every removal of an account drops
the records that it leaves behind, no record outlives its credentials once the drops are
delivered. -/
theorem revocation_reaches (hash : HashFunction) (s : Server) (trace final)
    (empty : s.manager.registries = {}) (idle : s.Idle) (run : Server.Run hash s trace final)
    (revoking : ∀ edge ∈ trace, edge.source.Revoking edge.action)
    (safe : ∀ edge ∈ trace, edge.source.Safe edge.action)
    (delivered : ∀ slot ∈ final.inbox, slot.drops = none) : final.Revoked hash := by
  have checked : s.Checked := by
    refine ⟨⟨empty ▸ linked_empty,?_,idle.manager,idle.database⟩,?_,?_⟩
    · simp [idle.inbox]
    · simp [idle.inbox]
    · simp [idle.lookups,idle.requests]
  have labelled : s.Labelled := by
    have none : Issued (fun _ => none) {} := ⟨fun row member => by contradiction,fun _ _ => rfl⟩
    have first : Reissued {} s.database.tables :=
      ⟨fun row member => .inr (s.database.tables.endpoints.issued row member).1,
        s.database.tables.endpoints.started⟩
    obtain ⟨name,issued,-⟩ := none.reissued first
    refine ⟨name,issued,empty ▸ named_empty,?_⟩
    simp [idle.inbox]
  have settles : s.Settles := by
    rintro x remains
    rw [Remains,idle.inbox] at remains
    obtain ⟨a,reg,live,-⟩ := remains
    rw [empty] at live
    simp at live
  obtain ⟨-,labelled,settles⟩ := run.invariant_of
    (fun s => s.Checked ∧ s.Labelled ∧ s.Settles) (fun s a => s.Revoking a ∧ s.Safe a)
    (fun _ _ _ ⟨checked,labelled,settles⟩ guard moved => ⟨step_checked checked moved,
      step_labelled labelled checked guard.1 moved,
      step_settles settles checked guard.1 guard.2 moved⟩)
    ⟨checked,labelled,settles⟩ fun edge member => ⟨revoking edge member,safe edge member⟩
  exact revoked_of_settles settles labelled delivered

/-- A user whose account has been removed is still let in. -/
theorem removed_user_accepted : ¬∀ (hash : HashFunction) (s : Server)
    (trace : List (Transition.Edge Server Action)) (final : Server),
    s.manager.registries = {} → s.Idle → Server.Run hash s trace final →
    (∀ edge ∈ trace, edge.source.Revoking edge.action) →
    (∀ slot ∈ final.inbox, slot.drops = none) → final.Revoked hash := by
  intro claim
  have accepted : (Transition.execute (Transition.guarded Pair.plain (step Pair.hash)) Pair.removal
      Pair.server).map (fun s => (s.inbox.isEmpty,
        s.database.tables.authorize.rows.any fun row => row.authname = UString.ascii "test1",
        (s.manager.registries.findByEvent Pair.roster s.manager.now).2.map fun found =>
          (found.2.userId,found.2.authenticate Pair.hash Pair.roster s.manager.now))) =
      some (true,false,some (UString.ascii "test1",Sip.ok)) := by
    decide +kernel
  obtain ⟨final,done,facts⟩ := Option.map_eq_some_iff.mp accepted
  obtain ⟨empty,facts⟩ := Prod.mk.inj facts
  obtain ⟨removed,facts⟩ := Prod.mk.inj facts
  obtain ⟨⟨b,reg⟩,shown,facts⟩ := Option.map_eq_some_iff.mp facts
  obtain ⟨user,ok⟩ := Prod.mk.inj facts
  obtain ⟨trace,run,-⟩ := Transition.execute_run _ _ _ done
  obtain ⟨run,plain⟩ := run.of_guarded
  have delivered : ∀ slot ∈ final.inbox, slot.drops = none := by
    rw [List.isEmpty_iff.mp empty]
    exact fun _ member => absurd member List.not_mem_nil
  have found : final.manager.registries.findByEvent Pair.roster final.manager.now =
      (final.manager.registries,some (b,reg)) := by
    rcases unexpired_cases final.manager.registries
      (final.manager.registries.registries.lookup Pair.roster.key) final.manager.now with
      ⟨a,other,here,-⟩ | ⟨a,other,here,-⟩ | ⟨here,-⟩ <;>
      rw [findByEvent,here] at shown ⊢ <;>
      cases shown
    rfl
  obtain ⟨account,stored,named,-⟩ := claim Pair.hash Pair.server trace final rfl Pair.server_idle run
    (fun edge member => revoking_of_plain (plain edge member)) delivered reg
    ⟨Pair.roster,b,found,.inl ok⟩
  have kept : (final.database.tables.authorize.rows.any fun row => row.authname = UString.ascii "test1") =
      true :=
    List.any_eq_true.mpr ⟨account,stored,decide_eq_true (named.trans user)⟩
  rw [removed] at kept
  exact absurd kept Bool.false_ne_true

/-- A user changes its secret from the only device that is registered. -/
theorem revocation_reaches_change : ∃ trace final, Server.Run Pair.hash Pair.server trace final ∧
    final.Revoked Pair.hash := by
  have changed : (Transition.execute (Transition.guarded Pair.alone (step Pair.hash)) Pair.change
      Pair.server).map (fun s => s.inbox.isEmpty) = some true := by
    decide +kernel
  obtain ⟨final,done,empty⟩ := Option.map_eq_some_iff.mp changed
  obtain ⟨trace,run,-⟩ := Transition.execute_run _ _ _ done
  obtain ⟨run,alone⟩ := run.of_guarded
  refine ⟨trace,final,run,revocation_reaches Pair.hash Pair.server trace final rfl Pair.server_idle run
    (fun edge member => ?_) (fun edge member => safe_of_alone (alone edge member)) ?_⟩
  · exact revoking_of_plain (Bool.and_eq_true_iff.mp (alone edge member)).1
  · rw [List.isEmpty_iff.mp empty]
    exact fun _ member => absurd member List.not_mem_nil

end Server

end SipWitch
