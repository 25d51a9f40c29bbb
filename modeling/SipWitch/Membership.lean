import Mathlib.Data.List.Dedup
import SipWitch.Delivery
import SipWitch.Profile

/-! The members of a group on their way from the client to the table: joined in one
header, taken apart by osip or not, and read by the slot. -/
namespace SipWitch

namespace UString

def escaped (c : UInt8) : UString :=
  if c = 32 then "%20"
  else if c = 38 then "%26"
  else if c = 60 then "%3c"
  else if c = 62 then "%3e"
  else if c = 64 then "%40"
  else if c = 37 then "%25"
  else if c = 58 then "%3a"
  else [c]

def escape (s : UString) : UString := s.flatMap escaped

theorem escaped_cases (c : UInt8) : (∃ high low, escaped c = [37,high,low] ∧ hexByte high low = c) ∨
    (escaped c = [c] ∧ c ≠ 37) := by
  simp only [escaped]
  repeat' split
  case isFalse =>
    rename_i other _
    exact .inr ⟨rfl,other⟩
  all_goals
    rename_i same
    exact .inl ⟨_,_,rfl,same ▸ rfl⟩

@[simp] theorem unescape_escape (s : UString) : unescape (escape s) = s := by
  have code (high low : UInt8) (rest : UString) :
      unescape (37 :: high :: low :: rest) = hexByte high low :: unescape rest := if_pos rfl
  have plain (c : UInt8) (rest : UString) (other : c ≠ 37) : unescape (c :: rest) = c :: unescape rest := by
    rw [unescape.eq_def]
    exact if_neg other
  induction s with
  | nil => rfl
  | cons c rest ih =>
    rw [escape,List.flatMap_cons,← escape]
    rcases escaped_cases c with ⟨high,low,coded,same⟩ | ⟨itself,other⟩
    · rw [coded,List.cons_append,List.cons_append,List.singleton_append,code,same,ih]
    · rw [itself,List.singleton_append,plain c _ other,ih]

end UString

namespace Osip

/-- The headers whose values `parser_init` lists as separated by commas. -/
def commaSeparated : List UString := ["accept","a","accept-encoding","accept-language","alert-info",
  "allow","authentication-info","call-info","contact","m","content-encoding","e","content-language",
  "error-info","in-reply-to","proxy-require","record-route","require","route","supported","k",
  "unsupported","via","v","warning","p-media-authorization","p-asserted-identity",
  "p-preferred-identity","reason","path","security-client","security-server","security-verify",
  "service-route","request-disposition","d","accept-contact","reject-contact","j","resource-priority",
  "accept-resource-priority","p-early-media","p-refused-uri-list","permission-missing",
  "trigger-consent","p-asserted-service","p-preferred-service","recv-info","allow-events","u",
  "policy-id","policy-contact","feature-caps","history-info","p-associated-uri",
  "p-visited-network-id","p-access-network-info","p-charging-function-addresses","user-to-user"]

def startsUri (rest : UString) : Bool :=
  62 ∈ rest && ([UString.ascii "sip:","sips:","http:","https:","tel:"].any
    fun scheme => UString.toLower (rest.take scheme.length) = scheme)

/-- The loop of `osip_message_set_multiple_header`; `value` has what was read since the
last separator, the last character first. At the end no quote or address counts. -/
def splitCommas (inquotes inuri : Bool) (value : UString) : UString → List UString
  | [] => if value = [] then [] else [clrncpy value.reverse]
  | c :: rest =>
    if c = 34 then
      let escapes := (value.takeWhile fun d => d = 92).length
      splitCommas (if escapes % 2 = 0 then !inquotes else inquotes) inuri (c :: value) rest
    else if c = 60 ∧ inquotes = false ∧ inuri = false then
      splitCommas inquotes (startsUri rest) (c :: value) rest
    else if c = 62 ∧ inquotes = false then splitCommas inquotes false (c :: value) rest
    else if c = 44 ∧ inquotes = false ∧ inuri = false then
      (if value = [] then [] else [clrncpy value.reverse]) ++ splitCommas inquotes inuri [] rest
    else splitCommas inquotes inuri (c :: value) rest

def setMultipleHeader (name value : UString) : List (UString × UString) :=
  if 44 ∈ value ∧ name ∈ commaSeparated then (splitCommas false false [] value).map (name,·)
  else [(name,value)]

/-- The headers of a message as the receiver's osip holds them. -/
def received (headers : List (UString × UString)) : List (UString × UString) :=
  headers.flatMap fun header => setMultipleHeader (UString.toLower header.1) (clrncpy header.2)

end Osip

def Connector.changeMemebership (serverLabel subject list admin notify reason : UString) :
    List (UString × UString) :=
  [("Subject",subject),("X-Label",serverLabel),("X-Group-Member",list),("X-Group-Admin",admin),
    ("X-Notify",notify),("X-Reason",UString.escape reason)]

/-- What a client submits of a group: the extensions that shall be its members, its
admin if it has one, and whom to tell why. -/
structure Submission where
  serverLabel : UString
  topic : UString
  members : List Int
  admin : Option Int
  notify : List Int
  reason : UString
  extensions : ∀ n ∈ members ++ notify ++ admin.toList, 0 < n ∧ n ≤ UString.intMax

def Phonebook.changeMembership (s : Submission) : List (UString × UString) :=
  let members := Database.separated s.members
  let notify := Database.separated s.notify
  match s.admin with
  | some admin =>
    Connector.changeMemebership s.serverLabel s.topic members (UString.number admin) notify s.reason
  | none => Connector.changeMemebership s.serverLabel s.topic members [] notify s.reason

section Joined

open Database

variable {n : Int} {numbers : List Int}

theorem separated_cons (n m : Int) (rest : List Int) :
    separated (n :: m :: rest) = UString.number n ++ 44 :: separated (m :: rest) := by
  simp only [separated,List.map_cons,List.intersperse,List.flatten_cons]
  rfl

theorem mem_separated {c : UInt8} (member : c ∈ separated numbers) :
    c = 44 ∨ ∃ n ∈ numbers, c ∈ UString.number n := by
  induction numbers with
  | nil => simp [separated] at member
  | cons n rest ih =>
    cases rest with
    | nil => exact .inr ⟨n,by simp,by simpa [separated] using member⟩
    | cons m rest =>
      rw [separated_cons] at member
      rcases List.mem_append.mp member with here | later
      · exact .inr ⟨n,by simp,here⟩
      · rcases List.mem_cons.mp later with comma | later
        · exact .inl comma
        · rcases ih later with comma | ⟨k,known,digit⟩
          · exact .inl comma
          · exact .inr ⟨k,List.mem_cons_of_mem _ known,digit⟩

theorem clrncpy_separated (numbers : List Int) : Osip.clrncpy (separated numbers) = separated numbers := by
  apply Osip.clrncpy_of_dense
  intro c member
  rcases mem_separated member with rfl | ⟨n,-,digit⟩
  · rfl
  · exact (Osip.numeral_number n).dense c digit

/-- The number in front of a text, up to the first comma. -/
theorem atoi_separated (positive : 0 < n) (small : n ≤ UString.intMax) (rest : List Int) :
    UString.atoi (separated (n :: rest)) = n := by
  have low : UString.intMin ≤ n := by
    simp only [UString.intMin]
    omega
  cases rest with
  | nil => simpa [separated] using UString.atoi_number n low small
  | cons m rest =>
    rw [separated_cons]
    obtain ⟨n,rfl⟩ := Int.eq_ofNat_of_zero_le (Int.le_of_lt positive)
    obtain ⟨c,others,shape,blank,minus,plus⟩ := UString.decimal_start n
    have digits : (UString.decimal n ++ 44 :: separated (m :: rest)).takeWhile UString.isDigit =
        UString.decimal n := by
      rw [List.takeWhile_append_of_pos (UString.isDigit_decimal n)]
      simp [UString.isDigit]
    have read := UString.value_decimal n
    rw [← digits,shape,List.cons_append] at read
    change UString.atoi (UString.decimal n ++ 44 :: separated (m :: rest)) = n
    rw [shape,List.cons_append,UString.atoi,List.dropWhile_cons_of_neg (by simp [blank]),UString.signed,
      if_neg minus,if_neg plus,read]
    exact UString.narrow_small low small

theorem numbers_separated (positive : ∀ n ∈ numbers, 0 < n ∧ n ≤ UString.intMax) :
    Database.numbers [separated numbers] = numbers.head?.toList := by
  cases numbers with
  | nil => decide
  | cons n rest =>
    obtain ⟨first,small⟩ := positive n (by simp)
    have single : [n].filter (fun number => decide (0 < number)) = [n] := by simp [first]
    rw [Database.numbers,List.map_singleton,atoi_separated first small,single]
    exact List.Nodup.dedup (List.nodup_singleton n)

end Joined

namespace Osip

theorem setMultipleHeader_single {name : UString} (value : UString) (unlisted : name ∉ commaSeparated) :
    setMultipleHeader name value = [(name,value)] :=
  if_neg fun listed => unlisted listed.2

end Osip

structure Submitted (ev : Event) (s : Submission) : Prop where
  headers : ∀ name, name ∈ [UString.ascii "x-group-member","x-group-admin","x-notify","x-reason"] →
    ev.headersOf name =
      ((Osip.received (Phonebook.changeMembership s)).filter fun header => header.1 = name).map Prod.snd
  /-- A header keeps no blanks and line ends around its value. -/
  trimmed : Osip.clrncpy (UString.escape s.reason) = UString.escape s.reason

namespace Submitted

variable {ev : Event} {s : Submission} (submitted : Submitted ev s)

theorem received_membership (s : Submission) : Osip.received (Phonebook.changeMembership s) =
    [(UString.ascii "subject",Osip.clrncpy s.topic),(UString.ascii "x-label",Osip.clrncpy s.serverLabel),
      (UString.ascii "x-group-member",Osip.clrncpy (Database.separated s.members)),
      (UString.ascii "x-group-admin",Osip.clrncpy ((s.admin.map UString.number).getD [])),
      (UString.ascii "x-notify",Osip.clrncpy (Database.separated s.notify)),
      (UString.ascii "x-reason",Osip.clrncpy (UString.escape s.reason))] := by
  have single (name : UString) (value : UString) (unlisted : UString.toLower name ∉ Osip.commaSeparated) :
      Osip.setMultipleHeader (UString.toLower name) (Osip.clrncpy value) =
        [(UString.toLower name,Osip.clrncpy value)] := Osip.setMultipleHeader_single _ unlisted
  have headers : Phonebook.changeMembership s = Connector.changeMemebership s.serverLabel s.topic
      (Database.separated s.members) ((s.admin.map UString.number).getD [])
      (Database.separated s.notify) s.reason := by
    simp only [Phonebook.changeMembership]
    cases s.admin <;> rfl
  rw [headers]
  simp only [Connector.changeMemebership,Osip.received,List.flatMap_cons,List.flatMap_nil]
  rw [single "Subject" _ (by decide),single "X-Label" _ (by decide),single "X-Group-Member" _ (by decide),
    single "X-Group-Admin" _ (by decide),single "X-Notify" _ (by decide),single "X-Reason" _ (by decide)]
  rfl

include submitted

theorem members : Database.numbers (ev.headersOf "x-group-member") = s.members.head?.toList := by
  rw [submitted.headers _ (by decide),received_membership]
  refine Eq.trans ?_ (numbers_separated fun n known => s.extensions n (by simp [known]))
  exact congrArg (fun value => Database.numbers [value]) (clrncpy_separated s.members)

theorem notify : Database.numbers (ev.headersOf "x-notify") = s.notify.head?.toList := by
  rw [submitted.headers _ (by decide),received_membership]
  refine Eq.trans ?_ (numbers_separated fun n known => s.extensions n (by simp [known]))
  exact congrArg (fun value => Database.numbers [value]) (clrncpy_separated s.notify)

theorem reason : ev.header "x-reason" = some (UString.escape s.reason) := by
  rw [Event.header,submitted.headers _ (by decide),received_membership]
  exact congrArg some submitted.trimmed

/-- No admin reads as 0. -/
theorem admin : ((ev.header "x-group-admin").map UString.atoi).getD 0 = s.admin.getD 0 := by
  rw [Event.header,submitted.headers _ (by decide),received_membership]
  change UString.atoi (Osip.clrncpy ((s.admin.map UString.number).getD [])) = _
  cases named : s.admin with
  | none => rfl
  | some admin =>
    obtain ⟨positive,small⟩ := s.extensions admin (by simp [named])
    rw [Option.map_some,Option.getD_some,Osip.clrncpy_of_dense (Osip.numeral_number admin).dense,
      UString.atoi_number _ (by simp only [UString.intMin]; omega) small]
    rfl

end Submitted

namespace Database

open Tables

variable {d : Database} {ev : Event} {s : Submission} {account : AuthorizeRow} {t : Tables}

/-- The admin that the slot takes: operators have none. -/
def lead (ev : Event) (s : Submission) : Option Int := if target ev = 0 then none else s.admin

/-- The extension of the key is one that the table takes. -/
def Storable (t : Tables) (n : Int) : Prop := t.accepts (t.hasExtension n) = true

theorem lead_positive {n : Int} (led : lead ev s = some n) : 0 < n := by
  simp only [lead] at led
  split at led
  · contradiction
  · exact (s.extensions n (by simp [led])).1

theorem exists_insertGroup (group : t.hasExtension number = true) (n : Int) (key : Int × Int) :
    (∃ row ∈ (t.insertGroup { grpnbr := number, extnbr := n }).groups, row.key = key) ↔
      (∃ row ∈ t.groups, row.key = key) ∨ (Storable t n ∧ (number,n) = key) := by
  simp only [insertGroup,group,Bool.true_and,Storable]
  split
  · rename_i accepted
    refine Table.exists_key_insert.trans ?_
    simp [accepted,GroupRow.key]
  · rename_i refused
    simp [refused]

theorem replaceMembers_lead (submitted : Submitted ev s) :
    d.replaceMembers ev account =
      let d := d.runQuery fun t => { t with groups := t.groups.delete fun row => row.grpnbr = target ev }
      let d := s.members.head?.toList.foldl (fun d member =>
        d.runQuery (·.insertGroup { grpnbr := target ev, extnbr := member })) d
      match lead ev s with
      | none => d
      | some admin =>
        let d := d.runQuery (·.insertGroup { grpnbr := target ev, extnbr := admin })
        let d := d.runQuery fun t => { t with
          admin := t.admin.filter fun row => row.authname ≠ account.authname }
        d.runQuery (·.insertAdmin { authname := account.authname, extnbr := admin }) := by
  simp only [replaceMembers,submitted.members,submitted.admin]
  cases led : lead ev s with
  | none =>
    have chosen : ¬0 < (if target ev = 0 then 0 else s.admin.getD 0) := by
      simp only [lead] at led
      split at led
      · simp [*]
      · simp [*]
    rw [if_neg chosen]
  | some admin =>
    have chosen : (if target ev = 0 then 0 else s.admin.getD 0) = admin := by
      simp only [lead] at led
      split at led
      · contradiction
      · rename_i plain
        rw [if_neg plain,led,Option.getD_some]
    rw [chosen,if_pos (lead_positive led)]

theorem insertGroup_same (row : GroupRow) : (t.insertGroup row).hasExtension = t.hasExtension ∧
    Storable (t.insertGroup row) = Storable t ∧ (t.insertGroup row).admin = t.admin := by
  obtain ⟨groups,inserted⟩ := insertGroup_frame t row
  rw [inserted]
  exact ⟨rfl,rfl,rfl⟩

def insertGroups (number : Int) (members : List Int) (t : Tables) : Tables :=
  members.foldl (fun t member => t.insertGroup { grpnbr := number, extnbr := member }) t

theorem exists_insertGroups (group : t.hasExtension number = true) (members : List Int) (key : Int × Int) :
    (∃ row ∈ (insertGroups number members t).groups, row.key = key) ↔
      (∃ row ∈ t.groups, row.key = key) ∨ ∃ n ∈ members, Storable t n ∧ (number,n) = key := by
  induction members generalizing t with
  | nil => simp [insertGroups]
  | cons n rest ih =>
    obtain ⟨extension,storable,-⟩ := insertGroup_same (t := t) { grpnbr := number, extnbr := n }
    rw [insertGroups,List.foldl_cons,← insertGroups,ih (by rw [extension]; exact group),
      exists_insertGroup group,storable,List.exists_mem_cons_iff,or_assoc]

theorem insertGroups_admin (number : Int) (members : List Int) (t : Tables) :
    (insertGroups number members t).admin = t.admin ∧
      (insertGroups number members t).accepts = t.accepts ∧
      (insertGroups number members t).hasAccount = t.hasAccount ∧
      (insertGroups number members t).hasExtension = t.hasExtension := by
  induction members generalizing t with
  | nil => exact ⟨rfl,rfl,rfl,rfl⟩
  | cons n rest ih =>
    obtain ⟨groups,inserted⟩ := insertGroup_frame t { grpnbr := number, extnbr := n }
    rw [insertGroups,List.foldl_cons,← insertGroups,inserted]
    exact ih { t with groups }

/-- The first of the listed members becomes one, and then the admin. -/
theorem replaceMembers_tables (submitted : Submitted ev s) :
    let t := insertGroups (target ev) (s.members.head?.toList ++ (lead ev s).toList)
      { d.tables with groups := d.tables.groups.delete fun row => row.grpnbr = target ev }
    (d.replaceMembers ev account).tables = match lead ev s with
      | none => t
      | some admin => { t with admin := t.admin.filter fun row => row.authname ≠ account.authname }.insertAdmin
          { authname := account.authname, extnbr := admin } := by
  have folded (members : List Int) (d : Database) : (members.foldl (fun d member =>
      d.runQuery (·.insertGroup { grpnbr := target ev, extnbr := member })) d).tables =
        insertGroups (target ev) members d.tables := by
    induction members generalizing d with
    | nil => rfl
    | cons n rest ih => exact ih _
  rw [replaceMembers_lead submitted]
  cases lead ev s with
  | none => simp only [folded,runQuery_tables,Option.toList_none,List.append_nil]
  | some admin =>
    simp only [folded,runQuery_tables,Option.toList_some,insertGroups,List.foldl_append,List.foldl_cons,
      List.foldl_nil]

theorem members_replaced (submitted : Submitted ev s) (group : d.tables.hasExtension (target ev) = true)
    (n : Int) : (∃ row ∈ (d.replaceMembers ev account).tables.groups, row.key = (target ev,n)) ↔
      (s.members.head? = some n ∨ lead ev s = some n) ∧ Storable d.tables n := by
  have cleared : ¬∃ row ∈ d.tables.groups.delete (fun row => row.grpnbr = target ev),
      row.key = (target ev,n) := by
    rintro ⟨row,member,key⟩
    have other := (Table.mem_delete.mp member).2
    exact absurd (Prod.mk.inj key).1 (of_decide_eq_false other)
  have kept (t : Tables) (row : AdminRow) : (t.insertAdmin row).groups = t.groups := by
    obtain ⟨admin,inserted⟩ := insertAdmin_frame t row
    rw [inserted]
  have groups : (d.replaceMembers ev account).tables.groups =
      (insertGroups (target ev) (s.members.head?.toList ++ (lead ev s).toList)
        { d.tables with groups := d.tables.groups.delete fun row => row.grpnbr = target ev }).groups := by
    rw [replaceMembers_tables submitted]
    cases lead ev s with
    | none => rfl
    | some admin => exact kept _ _
  rw [groups]
  refine (exists_insertGroups (t := { d.tables with
    groups := d.tables.groups.delete fun row => row.grpnbr = target ev }) group _ _).trans ?_
  simp only [cleared,false_or,List.mem_append,Option.mem_toList]
  constructor
  · rintro ⟨member,chosen,stored,same⟩
    obtain rfl := (Prod.mk.inj same).2
    exact ⟨chosen,stored⟩
  · rintro ⟨chosen,stored⟩
    exact ⟨n,chosen,stored,rfl⟩

theorem mem_insertAdmin (row row' : AdminRow) : row' ∈ (t.insertAdmin row).admin ↔ row' ∈ t.admin ∨
    (t.accepts (t.hasAccount row.authname && t.hasExtension row.extnbr) = true ∧ row' = row) := by
  simp only [insertAdmin]
  split
  · rename_i accepted
    simp [accepted]
  · rename_i refused
    simp [refused]

/-- A new admin takes the place of the old ones, when the table takes it. -/
theorem admin_replaced (submitted : Submitted ev s) (account : AuthorizeRow) (row : AdminRow)
    (named : row.authname = account.authname) :
    row ∈ (d.replaceMembers ev account).tables.admin ↔
      (lead ev s = none ∧ row ∈ d.tables.admin) ∨
      (lead ev s = some row.extnbr ∧
        d.tables.accepts (d.tables.hasAccount account.authname && d.tables.hasExtension row.extnbr) = true) := by
  have same := insertGroups_admin (target ev) (s.members.head?.toList ++ (lead ev s).toList)
    { d.tables with groups := d.tables.groups.delete fun row => row.grpnbr = target ev }
  rw [replaceMembers_tables submitted]
  dsimp only
  generalize insertGroups (target ev) _ _ = t at same
  obtain ⟨admins,accepts,accounts,extensions⟩ := same
  change t.admin = d.tables.admin at admins
  change t.accepts = d.tables.accepts at accepts
  change t.hasAccount = d.tables.hasAccount at accounts
  change t.hasExtension = d.tables.hasExtension at extensions
  cases lead ev s with
  | none => simp [admins]
  | some admin =>
    have appointed := mem_insertAdmin (t := { t with
      admin := t.admin.filter fun row => row.authname ≠ account.authname })
      { authname := account.authname, extnbr := admin } row
    refine appointed.trans ?_
    simp only [List.mem_filter,named,ne_eq,not_true_eq_false,decide_false,Bool.false_eq_true,and_false,
      false_or,reduceCtorEq,false_and,Option.some.injEq]
    change t.accepts (t.hasAccount account.authname && t.hasExtension admin) = true ∧ _ ↔ _
    rw [accepts,accounts,extensions]
    constructor
    · rintro ⟨accepted,rfl⟩
      exact ⟨rfl,accepted⟩
    · rintro ⟨rfl,accepted⟩
      refine ⟨accepted,?_⟩
      cases row
      cases named
      rfl

structure Admits (d : Database) (ev : Event) (extension : ExtensionRow) (account : AuthorizeRow) : Prop where
  found : d.found ev = .ok (extension,account)
  group : target ev ≠ 0 → isGroup account.authtype = true
  manager : d.tables.isSysadmin ev.number = true ∨ d.tables.isAdmin account.authname ev.number = true

theorem changeMembership_admitted {extension : ExtensionRow} (admits : Admits d ev extension account)
    (authuser : UString) (endpoint : Int) : d.changeMembership ev authuser endpoint =
      ((d.replaceMembers ev account).sendProfile ev authuser endpoint).notifyMembers ev
        (Authorize.displayOf extension account) := by
  have manager := admits.manager
  simp only [changeMembership_eq,admits.found]
  rw [if_neg,if_neg]
  · simpa [Bool.not_eq_true,or_iff_not_imp_left] using manager
  · rintro ⟨plain,other⟩
    rw [admits.group plain] at other
    contradiction

theorem sendProfile_frame (d : Database) (ev : Event) (authuser : UString) (endpoint : Int) :
    let after := (d.sendProfile ev authuser endpoint).tables
    after.groups = d.tables.groups ∧ after.admin = d.tables.admin ∧
      after.messages = d.tables.messages ∧ after.endpoints = d.tables.endpoints := by
  simp only [sendProfile,updateProfile]
  repeat' split
  all_goals exact ⟨rfl,rfl,rfl,rfl⟩

def Told (d : Database) (after : Tables) (n : Int) (text : UString) : Prop :=
  ∃ row ∈ after.messages, d.tables.messages.next ≤ row.mid ∧ row.msgtype = "admin" ∧
    row.msgto = UString.number n ∧ row.msgtext = UString.fromUtf8 text ∧
    ∀ device ∈ d.tables.endpoints, device.extnbr = n →
      ∃ box ∈ after.outboxes, box.key = (device.endpoint,row.mid)

theorem foldl_post_keys {mid : Int} (data : MessageData) {boxes : List (Int × Int)}
    (message : d.tables.hasMessage mid = true) (endpoints : ∀ box ∈ boxes, d.tables.hasEndpoint box.1 = true)
    (key : Int × Int) :
    (∃ row ∈ d.tables.outboxes, row.key = key) ∨ (∃ box ∈ boxes, (box.1,mid) = key) →
      ∃ row ∈ (boxes.foldl (fun d box => d.post mid data box) d).tables.outboxes, row.key = key := by
  induction boxes generalizing d with
  | nil => simp
  | cons box rest ih =>
    have tables := @post_tables d mid box data message (endpoints box (by simp))
    intro here
    apply ih
    · rw [tables]
      exact message
    · intro other later
      rw [tables]
      exact endpoints other (List.mem_cons_of_mem _ later)
    · rw [tables]
      have posted := Table.exists_key_insert (t := d.tables.outboxes) (r := boxRow mid box) (k := key)
      rcases here with old | ⟨other,member,same⟩
      · exact .inl (posted.mpr (.inl old))
      · rcases List.mem_cons.mp member with rfl | later
        · exact .inl (posted.mpr (.inr same))
        · exact .inr ⟨other,later,same⟩

theorem adminMessage_messages (recipient : Int) (text : UString) (sender : Int) (display : UString)
    (row : MessageRow) : row ∈ (d.adminMessage ev recipient text sender display).tables.messages ↔
      row ∈ d.tables.messages ∨ row = d.adminRow ev recipient text sender display 0 := by
  rw [adminMessage,storeAdmin,foldl_messages]
  refine Serial.mem_insert.trans (or_congr_right (and_iff_right ?_))
  exact messages_accept d.tables _ rfl

theorem adminMessage_told (recipient : Int) (text : UString) (sender : Int) (display : UString) :
    Told d (d.adminMessage ev recipient text sender display).tables recipient text := by
  refine ⟨_,(adminMessage_messages recipient text sender display _).mpr (.inr rfl),Int.le_refl _,rfl,rfl,rfl,?_⟩
  intro device known number
  rw [adminMessage,storeAdmin]
  refine foldl_post_keys _ (hasMessage_insertMessage _ _) (fun box member => ?_) _ (.inr ?_)
  · obtain ⟨endpoint,listed,rfl⟩ := List.mem_map.mp member
    obtain ⟨row,stored,rfl⟩ := List.mem_map.mp listed
    exact hasEndpoint_iff.mpr ⟨row,(Serial.mem_select.mp stored).1,rfl⟩
  · refine ⟨(device.endpoint,0),List.mem_map.mpr ⟨device.endpoint,?_,rfl⟩,rfl⟩
    exact List.mem_map.mpr ⟨device,Serial.mem_select.mpr ⟨known,decide_eq_true number⟩,rfl⟩

theorem adminMessage_frame (recipient : Int) (text : UString) (sender : Int) (display : UString) :
    (d.adminMessage ev recipient text sender display).tables.groups = d.tables.groups ∧
      (d.adminMessage ev recipient text sender display).tables.admin = d.tables.admin := by
  rw [adminMessage,storeAdmin]
  refine foldl_kept (P := fun after => after.tables.groups = d.tables.groups ∧
    after.tables.admin = d.tables.admin) _ _ (fun after box same => ?_) ⟨rfl,rfl⟩
  have tables : (after.post (d.adminRow ev recipient text sender display 0).mid
      (adminData ev recipient 0 (d.adminRow ev recipient text sender display 0)) box).tables.groups =
        after.tables.groups ∧ (after.post (d.adminRow ev recipient text sender display 0).mid
      (adminData ev recipient 0 (d.adminRow ev recipient text sender display 0)) box).tables.admin =
        after.tables.admin := by
    simp only [post,insertOutbox,runQuery,emit]
    split <;> split <;> exact ⟨rfl,rfl⟩
  exact ⟨tables.1.trans same.1,tables.2.trans same.2⟩

/-- The group is as the client submitted it, and the notified have been told why. -/
structure Installed (d : Database) (after : Tables) (ev : Event) (account : AuthorizeRow) (s : Submission) :
    Prop where
  members : ((after.groups.select fun row => row.grpnbr = target ev).map GroupRow.extnbr).Perm
    (s.members ++ s.admin.toList).dedup
  admin : ∀ row ∈ after.admin, row.authname = account.authname →
    ∃ member ∈ after.groups, member.key = (target ev,row.extnbr)
  told : ∀ n ∈ s.notify, Told d after n (UString.ascii "--- " ++ s.reason)

/-- Nothing is behind the first number of a list but repetitions of it, and the admin. -/
structure Legible (d : Database) (ev : Event) (account : AuthorizeRow) (s : Submission) : Prop where
  members : ∀ n ∈ s.members ++ s.admin.toList,
    (s.members.head? = some n ∨ lead ev s = some n) ∧ Storable d.tables n
  admin : lead ev s = none → ∀ row ∈ d.tables.admin, row.authname = account.authname →
    s.members.head? = some row.extnbr
  notify : ∀ n ∈ s.notify, s.notify.head? = some n

theorem perm_members (t : Tables) (number : Int) (members : List Int) :
    ((t.groups.select fun row => row.grpnbr = number).map GroupRow.extnbr).Perm members.dedup ↔
      ∀ n, (∃ row ∈ t.groups, row.key = (number,n)) ↔ n ∈ members := by
  have listed (n : Int) : n ∈ (t.groups.select fun row => row.grpnbr = number).map GroupRow.extnbr ↔
      ∃ row ∈ t.groups, row.key = (number,n) := by
    simp only [List.mem_map,Table.mem_select,decide_eq_true_eq,GroupRow.key,Prod.mk.injEq,and_assoc]
  have apart : ((t.groups.select fun row => row.grpnbr = number).map GroupRow.extnbr).Nodup := by
    refine List.Nodup.map_on (fun row known row' known' same => ?_) (t.groups.distinct.of_map.filter _)
    obtain ⟨member,here⟩ := Table.mem_select.mp known
    obtain ⟨member',here'⟩ := Table.mem_select.mp known'
    refine Table.unique member member' (Prod.ext ?_ same)
    exact (of_decide_eq_true here).trans (of_decide_eq_true here').symm
  rw [List.perm_ext_iff_of_nodup apart (List.nodup_dedup members)]
  simp only [listed,List.mem_dedup]

theorem notifyMembers_submitted (submitted : Submitted ev s) (display : UString) :
    d.notifyMembers ev display = match s.notify.head? with
      | none => d
      | some n => d.adminMessage ev n (UString.ascii "--- " ++ s.reason) (target ev) display := by
  simp only [notifyMembers,submitted.reason,submitted.notify,UString.unescape_escape]
  cases s.notify.head? <;> rfl

/-- What the slot leaves of the group. -/
theorem changeMembership_groups {extension : ExtensionRow} (admits : Admits d ev extension account)
    (submitted : Submitted ev s) (authuser : UString) (endpoint : Int) :
    let after := (d.changeMembership ev authuser endpoint).tables
    after.groups = (d.replaceMembers ev account).tables.groups ∧
      after.admin = (d.replaceMembers ev account).tables.admin := by
  obtain ⟨groups,admin,-,-⟩ := sendProfile_frame (d.replaceMembers ev account) ev authuser endpoint
  rw [changeMembership_admitted admits,notifyMembers_submitted submitted]
  cases s.notify.head? with
  | none => exact ⟨groups,admin⟩
  | some n =>
    obtain ⟨kept,kept'⟩ := @adminMessage_frame
      ((d.replaceMembers ev account).sendProfile ev authuser endpoint) ev n
      (UString.ascii "--- " ++ s.reason) (target ev) (Authorize.displayOf extension account)
    exact ⟨kept.trans groups,kept'.trans admin⟩

/-- Of the listed the first one is told. -/
theorem changeMembership_told {extension : ExtensionRow} (admits : Admits d ev extension account)
    (submitted : Submitted ev s) (authuser : UString) (endpoint n : Int) (listed : n ∈ s.notify) :
    Told d (d.changeMembership ev authuser endpoint).tables n (UString.ascii "--- " ++ s.reason) ↔
      s.notify.head? = some n := by
  obtain ⟨admin,groups,replaced⟩ := replaceMembers_frame d ev account
  obtain ⟨-,-,messages,endpoints⟩ := sendProfile_frame (d.replaceMembers ev account) ev authuser endpoint
  rw [replaced] at messages endpoints
  rw [changeMembership_admitted admits,notifyMembers_submitted submitted,replaced]
  cases first : s.notify.head? with
  | none =>
    rw [List.head?_eq_none_iff.mp first] at listed
    contradiction
  | some m =>
    dsimp only
    constructor
    · rintro ⟨row,member,new,-,number,-⟩
      rcases (adminMessage_messages m _ (target ev) _ row).mp member with old | rfl
      · rw [messages] at old
        have issued := (d.tables.messages.issued row old).2
        omega
      · rw [UString.number_injective number]
    · intro same
      obtain rfl := Option.some.inj same
      obtain ⟨row,member,new,type,number,text,queued⟩ := @adminMessage_told
        (({ d with tables := { d.tables with admin, groups } } : Database).sendProfile ev authuser endpoint)
        ev m (UString.ascii "--- " ++ s.reason) (target ev) (Authorize.displayOf extension account)
      rw [messages] at new
      rw [endpoints] at queued
      exact ⟨row,member,new,type,number,text,queued⟩

/-- The slot installs what the client has submitted when it is legible to it. -/
theorem membership_installed_iff {extension : ExtensionRow} (admits : Admits d ev extension account)
    (submitted : Submitted ev s) (authuser : UString) (endpoint : Int) :
    Installed d (d.changeMembership ev authuser endpoint).tables ev account s ↔ Legible d ev account s := by
  have group : d.tables.hasExtension (target ev) = true := by
    rw [hasExtension,(profile?_some (found_ok admits.found).2).1]
    rfl
  obtain ⟨groups,admins⟩ := changeMembership_groups admits submitted authuser endpoint
  have rows (n : Int) : (∃ row ∈ (d.changeMembership ev authuser endpoint).tables.groups,
      row.key = (target ev,n)) ↔ (s.members.head? = some n ∨ lead ev s = some n) ∧ Storable d.tables n := by
    rw [groups]
    exact members_replaced submitted group n
  have chosen (n : Int) (read : s.members.head? = some n ∨ lead ev s = some n) :
      n ∈ s.members ++ s.admin.toList := by
    rcases read with first | led
    · exact List.mem_append_left _ (List.mem_of_mem_head? first)
    · simp only [lead] at led
      split at led
      · contradiction
      · exact List.mem_append_right _ (by simp [led])
  constructor
  · rintro ⟨members,admin,told⟩
    have members := (perm_members _ _ _).mp members
    refine ⟨fun n known => (rows n).mp ((members n).mpr known),fun none row known named => ?_,
      fun n known => (changeMembership_told admits submitted authuser endpoint n known).mp (told n known)⟩
    have kept : row ∈ (d.changeMembership ev authuser endpoint).tables.admin := by
      rw [admins]
      exact (admin_replaced submitted account row named).mpr (.inl ⟨none,known⟩)
    rcases ((rows row.extnbr).mp (admin row kept named)).1 with first | led
    · exact first
    · rw [none] at led
      contradiction
  · rintro ⟨members,admin,notify⟩
    refine ⟨(perm_members _ _ _).mpr fun n => (rows n).trans ⟨fun read => chosen n read.1,members n⟩,
      fun row known named => (rows row.extnbr).mpr ?_,
      fun n known => (changeMembership_told admits submitted authuser endpoint n known).mpr (notify n known)⟩
    rw [admins] at known
    rcases (admin_replaced submitted account row named).mp known with ⟨none,old⟩ | ⟨led,-⟩
    · have first := admin none row old named
      exact members _ (chosen _ (.inl first))
    · exact members _ (chosen _ (.inr led))

end Database

namespace Site

def team : Database where
  tables := { tables with
    authorize := members
    extensions := memberNumbers
    admin := [{ authname := "team", extnbr := 101 }] }

def reason : UString := "adding @102 Test User to group"

theorem reason_trimmed : Osip.clrncpy (UString.escape reason) = UString.escape reason := by
  decide +kernel

def adding (members notify : List Int) (extensions : ∀ n ∈ members ++ notify ++ [101], 0 < n ∧ n ≤ UString.intMax) :
    Submission where
  serverLabel := "desk"
  topic := []
  members
  admin := some 101
  notify
  reason
  extensions

def submit (s : Submission) : Event :=
  { request "X-MEMBERSHIP" with
    toUser := some "200"
    toLocal := true
    headers := Osip.received (Phonebook.changeMembership s) }

theorem submit_admitted (s : Submission) : team.Admits (submit s)
    { extnbr := 200, authname := "team" } { authname := "team", authtype := "GROUP" } :=
  ⟨rfl,fun _ => rfl,.inr rfl⟩

theorem submit_submitted (members notify : List Int)
    (extensions : ∀ n ∈ members ++ notify ++ [101], 0 < n ∧ n ≤ UString.intMax) :
    Submitted (submit (adding members notify extensions)) (adding members notify extensions) :=
  ⟨fun _ _ => rfl,reason_trimmed⟩

end Site

namespace Database

/-- Of three members with one who is the admin, the last is left out. -/
theorem membership_truncated : ¬∀ (d : Database) (ev : Event) (extension : ExtensionRow)
    (account : AuthorizeRow) (s : Submission) (authuser : UString) (endpoint : Int),
    Admits d ev extension account → Submitted ev s →
      Installed d (d.changeMembership ev authuser endpoint).tables ev account s := by
  intro installed
  have submitted := Site.submit_submitted [101,102,103] [101,102,103] (by decide)
  have admits := Site.submit_admitted (Site.adding [101,102,103] [101,102,103] (by decide))
  obtain ⟨members,-,-⟩ := installed Site.team _ _ _ _ "test1" 2 admits submitted
  obtain ⟨row,known,key⟩ := ((perm_members _ _ _).mp members 103).mpr (by decide)
  rw [(changeMembership_groups admits submitted "test1" 2).1] at known
  have read := ((members_replaced submitted (by decide) 103).mp ⟨row,known,key⟩).1
  exact absurd read (by decide)

theorem membership_installed_iff_pair :
    Installed Site.team (Site.team.changeMembership
      (Site.submit (Site.adding [102,101] [102] (by decide))) "test1" 2).tables
      (Site.submit (Site.adding [102,101] [102] (by decide))) { authname := "team", authtype := "GROUP" }
      (Site.adding [102,101] [102] (by decide)) := by
  refine (membership_installed_iff (Site.submit_admitted _) (Site.submit_submitted _ _ _) "test1" 2).mpr
    ⟨fun n known => ⟨?_,rfl⟩,fun none => absurd none (by decide),by decide⟩
  revert n
  decide

end Database

end SipWitch
