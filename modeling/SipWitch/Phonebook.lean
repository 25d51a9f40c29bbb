import SipWitch.Sessions
import SipWitch.Transition
import SipWitch.Table
import Mathlib.Data.List.Induction

/-! The contacts of the desktop client in memory, and their rows in `Contacts`. A profile or
an entry of the roster updates both, field by field; a start of the program makes the
contacts from their rows. A contact in memory goes by its uid. -/
namespace SipWitch.Phonebook

open Desktop (DateColumn)

structure ContactRow where
  uid : Int
  extension : Int := -1
  dialing : UString := []
  type : UString := "USER"
  display : UString := []
  user : UString := []
  uri : UString := []
  mailto : UString := []
  puburi : UString := []
  sync : DateColumn := .zero
  info : UString := []
  pubkey : UString := []
  verify : Int := 0
  deriving DecidableEq

structure ContactItem where
  uid : Int
  extensionNumber : Int
  displayName : UString
  textNumber : UString
  textDisplay : UString
  contactFilter : UString := []
  contactType : UString
  authUserId : UString
  contactUri : UString
  contactPublic : UString
  contactEmail : UString
  extendedInfo : UString
  contactCreated : Option Int
  publicKey : UString
  keyVerify : Int
  group : Bool := false
  hidden : Bool := false
  admin : Bool := false
  callCoverage : Int := -1
  delayRinging : Int := 0
  forwardAway : UString := []
  forwardBusy : UString := []
  forwardNoAnswer : UString := []
  speedNumbers : List (Int × UString) := []
  /-- Contacts, by their uids. -/
  contactMembers : List Int := []
  contactLeader : Option Int := none
  deriving DecidableEq

/-- A profile in JSON. A text that is missing is empty; what may be undefined is optional. -/
structure Profile where
  s : UString := []
  c : Option Int := none
  a : UString := []
  k : UString := []
  n : Int := 0
  g : UString := []
  t : UString := []
  d : UString := []
  u : UString := []
  p : UString := []
  e : UString := []
  i : Option UString := none
  m : UString := []
  cc : Option Int := none
  rp : Option Int := none
  away : Option Int := none
  busy : Option Int := none
  noanswer : Option Int := none
  /-- The keys 1 to 9, where they have a text. -/
  speed : List (Int × UString) := []
  deriving DecidableEq

def untrusted : Int := 0
def highest : Int := 699

def Profile.key (json : Profile) : UString := UString.fromHex json.k

def isGrouped (type : UString) : Bool := type = "GROUP" || type = "PILOT"

/-- A member that is listed twice is kept once. -/
def ContactItem.removeMember (entry item : ContactItem) : ContactItem := { entry with
  contactLeader := if entry.contactLeader = some item.uid then none else entry.contactLeader
  contactMembers := entry.contactMembers.erase item.uid }

section Load

variable (toLower : UString → UString)

def ContactItem.create (row : ContactRow) : ContactItem where
  uid := row.uid
  extensionNumber := row.extension
  displayName := row.display
  textNumber := row.dialing
  textDisplay := row.display
  contactType := row.type
  authUserId := toLower row.user
  contactUri := row.uri
  contactPublic := row.puburi
  contactEmail := row.mailto
  extendedInfo := row.info
  contactCreated := row.sync.read
  publicKey := row.pubkey
  keyVerify := row.verify

def ContactItem.add (item : ContactItem) : ContactItem :=
  let item := { item with
    group := isGrouped item.contactType || (item.contactType = "SYSTEM" && item.extensionNumber = 0) }
  if item.extensionNumber < 0 ∨ 999 < item.extensionNumber then { item with contactType := "FOREIGN" }
  else if item.displayName = [] then item
  else { item with contactFilter := toLower (item.textNumber ++ UString.ascii "\n" ++ item.displayName) }

def ContactRow.load (row : ContactRow) : ContactItem := (ContactItem.create toLower row).add toLower

end Load

structure Book where
  /-- In the order of their insertion. -/
  contacts : Serial ContactRow Int ContactRow.uid ContactRow.uid := .empty
  /-- The extensions, from 0 to 999. -/
  locals : Int → Option ContactItem := fun _ => none
  me : Int := -1
  isAdmin : Bool := false
  removes : Int := 0

namespace Book

variable (toLower : UString → UString) (b : Book)

def self : Option ContactItem := if b.me < 1 then none else b.locals b.me

def findAuth (user : UString) : List ContactItem :=
  ((List.range 699).filterMap fun (pos : Nat) => b.locals (pos + 1)).filter fun item => item.authUserId = user

/-- `Desktop::removeUser`, as far as the rows and the extensions go. -/
def removeUser (user : UString) : Book :=
  let list := b.findAuth user
  { b with
    contacts := b.contacts.delete fun row => row.uid ∈ list.map ContactItem.uid
    locals := fun number => (b.locals number).bind fun item =>
      if item ∈ list then none
      else if highest < number then some item
      else some (list.foldl ContactItem.removeMember item) }

/-- The admin and the leader of a group. -/
def lead (json : Profile) (item : ContactItem) : ContactItem :=
  if (b.isAdmin ∨ json.g ≠ "none") ∧ (json.n = 0 ∨ isGrouped json.t) then
    if json.g = "admin" then { item with contactLeader := b.self.map ContactItem.uid, admin := true }
    else
      let lead := UString.textToInt json.g
      { item with
        admin := b.isAdmin
        contactLeader := if 1 < lead ∧ lead < 999
          then ((b.locals lead).filter fun leader => !leader.group).map ContactItem.uid else none }
  else item

def forward (target : Option Int) : UString :=
  match target with
  | some number => if -1 < number then UString.number number else []
  | none => []

def members (json : Profile) : List Int :=
  (json.m.splitOn 44).filterMap fun member =>
    let mid := UString.textToInt member
    if mid < 1 ∨ 999 < mid then none
    else ((b.locals mid).filter fun contact => !contact.hidden).map ContactItem.uid

def updated (json : Profile) (item : ContactItem) : ContactItem :=
  let item := b.lead json item
  let group := isGrouped json.t || json.n = 0
  { item with
    extendedInfo := json.i.getD item.extendedInfo
    -- the display is still the old one
    contactFilter := toLower (item.textNumber ++ UString.ascii "\n" ++ item.displayName)
    textDisplay := json.d
    contactEmail := json.e
    displayName := json.d
    contactUri := json.u
    contactPublic := json.p
    authUserId := toLower json.a
    contactType := json.t
    contactCreated := json.c
    callCoverage := json.cc.getD (-1)
    delayRinging := json.rp.getD 0
    forwardAway := forward json.away
    forwardBusy := forward json.busy
    forwardNoAnswer := forward json.noanswer
    speedNumbers := json.speed
    group
    contactMembers := if group ∧ json.m ≠ [] then b.members json else []
    hidden := false }

/-- The key of a profile is none, or not the one that the contact has. -/
def revokes (json : Profile) (item : ContactItem) : Bool := json.key = [] || json.key ≠ item.publicKey

def writeRow (json : Profile) (item : ContactItem) (row : ContactRow) : ContactRow :=
  if row.extension = json.n then { row with
    display := json.d
    user := json.a
    type := json.t
    uri := json.u
    mailto := json.e
    puburi := json.p
    sync := DateColumn.bind json.c
    info := json.i.getD item.extendedInfo
    -- kill verification if public key no longer matches
    verify := if revokes json item then untrusted else item.keyVerify }
  else row

theorem writeRow_uid (json : Profile) (item : ContactItem) (row : ContactRow) :
    (writeRow json item row).uid = row.uid := by
  rw [writeRow]
  split <;> rfl

def makeRow (json : Profile) (uid : Int) : ContactRow where
  uid := uid
  extension := json.n
  dialing := UString.number json.n
  type := json.t
  display := json.d
  user := json.a
  uri := json.u
  mailto := json.e
  puburi := json.p
  sync := DateColumn.bind json.c
  info := json.i.getD []
  pubkey := json.key

/-- The first row of the extension is loaded, which need not be the new one. -/
def insert (json : Profile) : Book :=
  let contacts := b.contacts.insert (makeRow json) rfl
  { b with
    contacts
    locals := Function.update b.locals json.n
      ((contacts.rows.find? fun row => row.extension = json.n).map (ContactRow.load toLower)) }

def updateContact (json : Profile) : Book :=
  if json.s = "remove" ∧ -1 < b.removes then
    let list := b.findAuth json.a
    if list = [] then b
    else if list.any fun item => some item.uid = b.self.map ContactItem.uid then { b with removes := -1 }
    else b.removeUser json.a
  else if json.n < 0 ∨ 999 < json.n then b
  else
    match b.locals json.n with
    | none => b.insert toLower json
    | some item => { b with
        contacts := b.contacts.update (writeRow json item) (writeRow_uid json item) (writeRow_uid json item)
        locals := Function.update b.locals json.n (some (b.updated toLower json item)) }

/-- The extensions that are loaded from the rows. -/
def loaded (rows : List ContactRow) : Int → Option ContactItem :=
  rows.foldl (fun locals row =>
    if row.extension < 0 ∨ 999 < row.extension ∨ row.display = [] then locals
    else Function.update locals row.extension (some (row.load toLower))) fun _ => none

def restart (order : List ContactRow) (me : Int) : Book :=
  { b with locals := loaded toLower order, me, removes := 0 }

inductive Action where
  | changeRoster
  | updateContact (json : Profile)
  | changeAdmin (isAdmin : Bool)
  /-- The rows are loaded in the order of their last use. -/
  | restart (order : List ContactRow) (me : Int)

/-- A roster is announced, and its entries are updates of their own. -/
def step (b : Book) : Action → Option Book
  | .changeRoster => some { b with removes := 0 }
  | .updateContact json => some (b.updateContact toLower json)
  | .changeAdmin isAdmin => some { b with isAdmin }
  | .restart order me => if order.Perm b.contacts.rows then some (b.restart toLower order me) else none

/-- The contact of an item has the row of its uid, and they agree in what no update changes. -/
structure Owns (item : ContactItem) (number : Int) (row : ContactRow) : Prop where
  uid : row.uid = item.uid
  extension : row.extension = number
  dialing : row.dialing = item.textNumber
  pubkey : row.pubkey = item.publicKey

structure Sound (b : Book) : Prop where
  number : ∀ number item, b.locals number = some item →
    item.extensionNumber = number ∧ 0 ≤ number ∧ number ≤ 999
  owned : ∀ number item, b.locals number = some item → ∃ row ∈ b.contacts, Owns item number row

section Steps

variable {toLower b} {next : Book} {json : Profile} {item : ContactItem} {row : ContactRow} {number : Int}

theorem add_kept (item : ContactItem) : (item.add toLower).uid = item.uid ∧
    (item.add toLower).extensionNumber = item.extensionNumber ∧
      (item.add toLower).textNumber = item.textNumber ∧ (item.add toLower).publicKey = item.publicKey ∧
        (item.add toLower).keyVerify = item.keyVerify := by
  simp only [ContactItem.add]
  split
  · exact ⟨rfl,rfl,rfl,rfl,rfl⟩
  · split <;> exact ⟨rfl,rfl,rfl,rfl,rfl⟩

theorem load_owns (row : ContactRow) : Owns (row.load toLower) row.extension row := by
  obtain ⟨uid,-,textNumber,publicKey,-⟩ := add_kept (ContactItem.create toLower row)
  exact ⟨uid.symm,rfl,textNumber.symm,publicKey.symm⟩

theorem load_number (row : ContactRow) : (row.load toLower).extensionNumber = row.extension :=
  (add_kept _).2.1

theorem load_keyVerify (row : ContactRow) : (row.load toLower).keyVerify = row.verify :=
  (add_kept _).2.2.2.2

theorem lead_kept (b : Book) (json : Profile) (item : ContactItem) :
    (b.lead json item).uid = item.uid ∧ (b.lead json item).extensionNumber = item.extensionNumber ∧
      (b.lead json item).textNumber = item.textNumber ∧ (b.lead json item).publicKey = item.publicKey ∧
        (b.lead json item).keyVerify = item.keyVerify ∧ (b.lead json item).displayName = item.displayName ∧
          (b.lead json item).extendedInfo = item.extendedInfo := by
  simp only [lead]
  split
  · split <;> exact ⟨rfl,rfl,rfl,rfl,rfl,rfl,rfl⟩
  · exact ⟨rfl,rfl,rfl,rfl,rfl,rfl,rfl⟩

theorem writeRow_owns (owns : Owns item number row) (json : Profile) (other : ContactItem) :
    Owns item number (writeRow json other row) := by
  rw [writeRow]
  split <;> exact ⟨owns.uid,owns.extension,owns.dialing,owns.pubkey⟩

/-- Every contact in `local` is loaded from a row of its extension. -/
theorem loaded_some {rows : List ContactRow} (found : loaded toLower rows number = some item) :
    ∃ row ∈ rows, row.extension = number ∧ 0 ≤ number ∧ number ≤ 999 ∧ item = row.load toLower := by
  induction rows using List.reverseRecOn with
  | nil => simp [loaded] at found
  | append_singleton rows last ih =>
    rw [loaded,List.foldl_append,List.foldl_cons,List.foldl_nil] at found
    split at found
    · obtain ⟨row,member,facts⟩ := ih found
      exact ⟨row,List.mem_append_left _ member,facts⟩
    · rename_i inside
      by_cases here : number = last.extension
      · subst here
        rw [Function.update_self] at found
        exact ⟨last,by simp,rfl,by omega,by omega,(Option.some.inj found).symm⟩
      · rw [Function.update_of_ne here] at found
        obtain ⟨row,member,facts⟩ := ih found
        exact ⟨row,List.mem_append_left _ member,facts⟩

inductive Updated (toLower : UString → UString) (b : Book) (json : Profile) : Book → Prop where
  | ignored (removes : Int) : Updated toLower b json { b with removes }
  | removed (remove : json.s = "remove") : Updated toLower b json (b.removeUser json.a)
  | written (item : ContactItem) (bounds : 0 ≤ json.n ∧ json.n ≤ 999) (here : b.locals json.n = some item) :
      Updated toLower b json { b with
        contacts := b.contacts.update (writeRow json item) (writeRow_uid json item) (writeRow_uid json item)
        locals := Function.update b.locals json.n (some (b.updated toLower json item)) }
  | inserted (bounds : 0 ≤ json.n ∧ json.n ≤ 999) (absent : b.locals json.n = none) :
      Updated toLower b json (b.insert toLower json)

theorem updateContact_updated (toLower : UString → UString) (b : Book) (json : Profile) :
    Updated toLower b json (b.updateContact toLower json) := by
  rw [updateContact]
  split
  · rename_i remove
    simp only
    split
    · exact .ignored b.removes
    · split
      · exact .ignored (-1)
      · exact .removed remove.1
  · split
    · exact .ignored b.removes
    · cases here : b.locals json.n with
      | none => exact .inserted (by omega) here
      | some item => exact .written item (by omega) here

theorem updateContact_existing (updates : ¬(json.s = "remove" ∧ -1 < b.removes))
    (here : b.locals json.n = some item) (low : 0 ≤ json.n) (high : json.n ≤ 999) :
    b.updateContact toLower json = { b with
      contacts := b.contacts.update (writeRow json item) (writeRow_uid json item) (writeRow_uid json item)
      locals := Function.update b.locals json.n (some (b.updated toLower json item)) } := by
  rw [updateContact,if_neg updates,if_neg (by omega),here]

theorem mem_written {contacts : Serial ContactRow Int ContactRow.uid ContactRow.uid} :
    row ∈ contacts.update (writeRow json item) (writeRow_uid json item) (writeRow_uid json item) ↔
      ∃ old ∈ contacts, writeRow json item old = row := Serial.mem_update

theorem removeMember_kept (list : List ContactItem) (entry : ContactItem) :
    ∃ contactMembers contactLeader, list.foldl ContactItem.removeMember entry =
      { entry with contactMembers, contactLeader } := by
  induction list generalizing entry with
  | nil => exact ⟨_,_,rfl⟩
  | cons item list ih =>
    obtain ⟨contactMembers,contactLeader,kept⟩ := ih (entry.removeMember item)
    exact ⟨contactMembers,contactLeader,kept⟩

/-- A contact that is left has lost removed members and leaders. -/
theorem removeUser_item {user : UString} (found : (b.removeUser user).locals number = some item) :
    ∃ old contactMembers contactLeader, b.locals number = some old ∧ old ∉ b.findAuth user ∧
      item = { old with contactMembers, contactLeader } := by
  rw [removeUser] at found
  generalize b.findAuth user = list at found ⊢
  obtain ⟨old,here,kept⟩ := Option.bind_eq_some_iff.mp found
  split at kept
  · contradiction
  · rename_i other
    split at kept <;> obtain rfl := Option.some.inj kept
    · exact ⟨old,_,_,here,other,rfl⟩
    · obtain ⟨contactMembers,contactLeader,same⟩ := removeMember_kept list old
      exact ⟨old,contactMembers,contactLeader,here,other,same⟩

theorem removeUser_some {user : UString} (found : (b.removeUser user).locals number = some item) :
    ∃ old, b.locals number = some old ∧ old ∉ b.findAuth user ∧ item.uid = old.uid ∧
      item.extensionNumber = old.extensionNumber ∧ item.textNumber = old.textNumber ∧
        item.publicKey = old.publicKey ∧ item.keyVerify = old.keyVerify := by
  obtain ⟨old,contactMembers,contactLeader,here,other,rfl⟩ := removeUser_item found
  exact ⟨old,here,other,rfl,rfl,rfl,rfl,rfl⟩

theorem updated_kept (toLower : UString → UString) (b : Book) (json : Profile) (item : ContactItem) :
    (b.updated toLower json item).uid = item.uid ∧
      (b.updated toLower json item).extensionNumber = item.extensionNumber ∧
      (b.updated toLower json item).textNumber = item.textNumber ∧
        (b.updated toLower json item).publicKey = item.publicKey ∧
          (b.updated toLower json item).keyVerify = item.keyVerify := by
  obtain ⟨uid,number,text,key,verify,-⟩ := lead_kept b json item
  exact ⟨uid,number,text,key,verify⟩

theorem Owns.congr {other : ContactItem} (owns : Owns item number row) (uid : other.uid = item.uid)
    (text : other.textNumber = item.textNumber) (key : other.publicKey = item.publicKey) : Owns other number row :=
  ⟨owns.uid.trans uid.symm,owns.extension,owns.dialing.trans text.symm,owns.pubkey.trans key.symm⟩

theorem mem_findAuth {user : UString} (member : item ∈ b.findAuth user) : ∃ pos, b.locals pos = some item := by
  obtain ⟨listed,-⟩ := List.mem_filter.mp member
  obtain ⟨pos,-,here⟩ := List.mem_filterMap.mp listed
  exact ⟨_,here⟩

/-- No contact is at two extensions. -/
theorem Sound.injective (sound : b.Sound) {other : ContactItem} {pos : Int} (here : b.locals number = some item)
    (there : b.locals pos = some other) (same : item.uid = other.uid) : pos = number := by
  obtain ⟨row,member,owns⟩ := sound.owned number item here
  obtain ⟨row',member',owns'⟩ := sound.owned pos other there
  obtain rfl := Serial.unique_id member member' (owns.uid.trans (same.trans owns'.uid.symm))
  exact owns'.extension.symm.trans owns.extension

theorem update_some {f : Int → Option ContactItem} {pos : Int} {new : Option ContactItem}
    (found : Function.update f pos new number = some item) :
    number = pos ∧ new = some item ∨ number ≠ pos ∧ f number = some item := by
  rw [Function.update_apply] at found
  split at found
  · exact .inl ⟨‹_›,found⟩
  · exact .inr ⟨‹_›,found⟩

theorem Sound.removeUser (sound : b.Sound) (user : UString) : (b.removeUser user).Sound := by
  constructor
  · intro number item found
    obtain ⟨old,here,-,-,extension,-⟩ := removeUser_some found
    rw [extension]
    exact sound.number number old here
  · intro number item found
    obtain ⟨old,here,other,uid,-,text,key,-⟩ := removeUser_some found
    obtain ⟨row,member,owns⟩ := sound.owned number old here
    refine ⟨row,Serial.mem_delete.mpr ⟨member,?_⟩,owns.congr uid text key⟩
    apply decide_eq_false
    intro listed
    obtain ⟨gone,among,same⟩ := List.mem_map.mp listed
    obtain ⟨pos,there⟩ := mem_findAuth among
    obtain rfl := sound.injective here there (owns.uid.symm.trans same.symm)
    obtain rfl := Option.some.inj (here.symm.trans there)
    exact other among

/-- The contact and its row are written from the same update. -/
theorem Sound.written (sound : b.Sound) (here : b.locals json.n = some item) : Sound { b with
    contacts := b.contacts.update (writeRow json item) (writeRow_uid json item) (writeRow_uid json item)
    locals := Function.update b.locals json.n (some (b.updated toLower json item)) } := by
  have kept := updated_kept toLower b json item
  have owned (number : Int) (other : ContactItem) (found : b.locals number = some other) :
      ∃ row ∈ b.contacts.update (writeRow json item) (writeRow_uid json item) (writeRow_uid json item),
        Owns other number row := by
    obtain ⟨row,member,owns⟩ := sound.owned number other found
    exact ⟨_,mem_written.mpr ⟨row,member,rfl⟩,writeRow_owns owns json item⟩
  constructor
  · intro number other found
    rcases update_some found with ⟨rfl,new⟩ | ⟨-,found⟩
    · obtain rfl := Option.some.inj new
      rw [kept.2.1]
      exact sound.number json.n item here
    · exact sound.number number other found
  · intro number other found
    rcases update_some found with ⟨rfl,new⟩ | ⟨-,found⟩
    · obtain rfl := Option.some.inj new
      obtain ⟨row,member,owns⟩ := owned json.n item here
      exact ⟨row,member,owns.congr kept.1 kept.2.2.1 kept.2.2.2.1⟩
    · exact owned number other found

/-- A new contact is made from its row. -/
theorem Sound.insert (sound : b.Sound) (bounds : 0 ≤ json.n ∧ json.n ≤ 999) :
    (b.insert toLower json).Sound := by
  have made (item : ContactItem) (found : ((b.contacts.insert (makeRow json) rfl).rows.find? fun row =>
      row.extension = json.n).map (ContactRow.load toLower) = some item) :
      ∃ row ∈ b.contacts.insert (makeRow json) rfl, row.extension = json.n ∧ row.load toLower = item := by
    obtain ⟨row,first,rfl⟩ := Option.map_eq_some_iff.mp found
    have extension := List.find?_some first
    exact ⟨row,List.mem_of_find?_eq_some first,of_decide_eq_true extension,rfl⟩
  constructor
  · intro number item found
    rcases update_some found with ⟨rfl,new⟩ | ⟨-,found⟩
    · obtain ⟨row,-,extension,rfl⟩ := made item new
      rw [load_number]
      exact ⟨extension,bounds⟩
    · exact sound.number number item found
  · intro number item found
    rcases update_some found with ⟨rfl,new⟩ | ⟨-,found⟩
    · obtain ⟨row,member,extension,rfl⟩ := made item new
      exact ⟨row,member,extension ▸ load_owns row⟩
    · obtain ⟨row,member,owns⟩ := sound.owned number item found
      have kept : row ∈ b.contacts.insert (makeRow json) rfl := Serial.mem_insert.mpr (.inl member)
      exact ⟨row,kept,owns⟩

theorem Sound.updateContact (sound : b.Sound) (json : Profile) : (b.updateContact toLower json).Sound := by
  have updated := updateContact_updated toLower b json
  generalize b.updateContact toLower json = next at updated
  cases updated with
  | ignored removes => exact ⟨sound.number,sound.owned⟩
  | removed remove => exact sound.removeUser json.a
  | written old bounds here => exact sound.written here
  | inserted bounds absent => exact sound.insert bounds

theorem step_sound (sound : b.Sound) {a : Action} (moved : step toLower b a = some next) : next.Sound := by
  cases a with
  | changeRoster =>
    obtain rfl := Option.some.inj moved
    exact ⟨sound.number,sound.owned⟩
  | updateContact json =>
    obtain rfl := Option.some.inj moved
    exact sound.updateContact json
  | changeAdmin isAdmin =>
    obtain rfl := Option.some.inj moved
    exact ⟨sound.number,sound.owned⟩
  | restart order me =>
    simp only [step] at moved
    split at moved
    · rename_i perm
      obtain rfl := Option.some.inj moved
      constructor
      · intro number item found
        obtain ⟨row,-,extension,low,high,rfl⟩ := loaded_some found
        exact ⟨(load_number row).trans extension,low,high⟩
      · intro number item found
        obtain ⟨row,member,extension,-,-,rfl⟩ := loaded_some found
        exact ⟨row,perm.mem_iff.mp member,extension ▸ load_owns row⟩
    · contradiction

/-- A client that was started on some database. -/
theorem run_sound {contacts : Serial ContactRow Int ContactRow.uid ContactRow.uid}
    {trace : List (Transition.Edge Book Action)} (run : Transition.Run (step toLower) { contacts } trace b) :
    b.Sound :=
  run.invariant Sound (fun _ _ _ sound moved => step_sound sound moved) ⟨by simp,by simp⟩

/-- What is stored of a contact is the same in two items. -/
structure SameFields (item other : ContactItem) : Prop where
  displayName : item.displayName = other.displayName
  textDisplay : item.textDisplay = other.textDisplay
  contactFilter : item.contactFilter = other.contactFilter
  contactType : item.contactType = other.contactType
  group : item.group = other.group
  authUserId : item.authUserId = other.authUserId
  contactUri : item.contactUri = other.contactUri
  contactPublic : item.contactPublic = other.contactPublic
  contactEmail : item.contactEmail = other.contactEmail
  extendedInfo : item.extendedInfo = other.extendedInfo
  contactCreated : item.contactCreated = other.contactCreated
  publicKey : item.publicKey = other.publicKey
  keyVerify : item.keyVerify = other.keyVerify

/-- The contact at the extension is what its row is loaded to. -/
def Reloads (toLower : UString → UString) (b : Book) (number : Int) : Prop :=
  ∀ item, b.locals number = some item →
    ∀ row ∈ b.contacts, row.uid = item.uid → SameFields item (row.load toLower)

/-- What the filter of a contact is made from. -/
def filterText (item : ContactItem) (display : UString) : UString :=
  item.textNumber ++ UString.ascii "\n" ++ display

theorem load_inside (low : 0 ≤ row.extension) (high : row.extension ≤ 999) : row.load toLower =
    { ContactItem.create toLower row with
      group := isGrouped row.type || (row.type = "SYSTEM" && row.extension = 0)
      contactFilter :=
        if row.display = [] then [] else toLower (row.dialing ++ UString.ascii "\n" ++ row.display) } := by
  have low : ¬row.extension < 0 := by omega
  have high : ¬999 < row.extension := by omega
  by_cases empty : row.display = []
  · simp only [ContactRow.load,ContactItem.add,ContactItem.create,low,high,empty,or_self,if_false,if_true]
  · simp only [ContactRow.load,ContactItem.add,ContactItem.create,low,high,empty,or_self,if_false]
    rfl

theorem bind_read (time : Option Int) : (DateColumn.bind time).read = time := by
  cases time <;> rfl

theorem sameFields_iff (b : Book) (owns : Owns item json.n row) (low : 0 ≤ json.n) (high : json.n ≤ 999) :
    SameFields (b.updated toLower json item) ((writeRow json item row).load toLower) ↔
      toLower (filterText item item.displayName) =
          (if json.d = [] then [] else toLower (filterText item json.d)) ∧
        (json.n = 0 → isGrouped json.t = true ∨ json.t = "SYSTEM") ∧
          (revokes json item = true → item.keyVerify = untrusted) := by
  have extension := owns.extension
  obtain ⟨-,-,text,key,verify,display,info⟩ := lead_kept b json item
  have written : writeRow json item row = { row with
      display := json.d, user := json.a, type := json.t, uri := json.u, mailto := json.e, puburi := json.p
      sync := DateColumn.bind json.c, info := json.i.getD item.extendedInfo
      verify := if revokes json item then untrusted else item.keyVerify } := if_pos extension
  rw [written,load_inside (by simpa [extension] using low) (by simpa [extension] using high)]
  constructor
  · intro same
    refine ⟨?_,?_,?_⟩
    · have filter := same.contactFilter
      simpa only [updated,filterText,text,display,owns.dialing] using filter
    · have group := same.group
      intro zero
      simpa [updated,extension,zero] using group
    · have trust := same.keyVerify
      intro revoked
      simp only [updated,verify,revoked,if_true] at trust
      exact trust
  · rintro ⟨filter,group,trust⟩
    refine ⟨rfl,rfl,?_,rfl,?_,rfl,rfl,rfl,rfl,?_,?_,?_,?_⟩
    · simpa only [updated,filterText,text,display,owns.dialing] using filter
    · by_cases zero : json.n = 0
      · simpa [updated,extension,zero] using group zero
      · simp [updated,extension,zero]
    · simp [updated,info,ContactItem.create]
    · simp [updated,ContactItem.create,bind_read]
    · simp [updated,ContactItem.create,key,owns.pubkey]
    · simp only [updated,ContactItem.create,verify]
      split <;> simp_all

/-- An update of a contact is what a start of the client loads if the name in the filter does
not change, no other contact than the system gets the extension 0, and the key that is gone
was not verified. -/
theorem update_reloads {contacts : Serial ContactRow Int ContactRow.uid ContactRow.uid}
    {trace : List (Transition.Edge Book Action)} (run : Transition.Run (step toLower) { contacts } trace b)
    (json : Profile) (updates : ¬(json.s = "remove" ∧ -1 < b.removes)) (here : b.locals json.n = some item) :
    Reloads toLower (b.updateContact toLower json) json.n ↔
      toLower (filterText item item.displayName) =
          (if json.d = [] then [] else toLower (filterText item json.d)) ∧
        (json.n = 0 → isGrouped json.t = true ∨ json.t = "SYSTEM") ∧
          (revokes json item = true → item.keyVerify = untrusted) := by
  have sound := run_sound run
  obtain ⟨-,low,high⟩ := sound.number json.n item here
  obtain ⟨row,member,owns⟩ := sound.owned json.n item here
  rw [← sameFields_iff b owns low high,updateContact_existing updates here low high]
  constructor
  · intro reloads
    apply reloads _ (Function.update_self json.n (some (b.updated toLower json item)) b.locals) _
      (mem_written.mpr ⟨row,member,rfl⟩)
    rw [writeRow_uid,(updated_kept toLower b json item).1]
    exact owns.uid
  · intro same new found written there uid
    obtain rfl := Option.some.inj
      ((Function.update_self json.n (some (b.updated toLower json item)) b.locals).symm.trans found)
    obtain ⟨old,before,rfl⟩ := mem_written.mp there
    rw [writeRow_uid,(updated_kept toLower b json item).1,← owns.uid] at uid
    obtain rfl := Serial.unique_id before member uid
    exact same

structure Untrusted (b : Book) (number : Int) : Prop where
  item : ∀ item, b.locals number = some item → item.keyVerify = untrusted
  rows : ∀ row ∈ b.contacts, row.extension = number → row.verify = untrusted

theorem writeRow_verify (trust : row.extension = number → row.verify = untrusted) (other : ContactItem)
    (unverified : json.n = number → other.keyVerify = untrusted)
    (extension : (writeRow json other row).extension = number) :
    (writeRow json other row).verify = untrusted := by
  rw [writeRow] at extension ⊢
  split at extension
  · rename_i written
    have verified := unverified (written.symm.trans extension)
    simp [written,verified]
  · rename_i kept
    rw [if_neg kept]
    exact trust extension

theorem Untrusted.updateContact (kept : Untrusted b number) (json : Profile) :
    Untrusted (b.updateContact toLower json) number := by
  have updated := updateContact_updated toLower b json
  generalize b.updateContact toLower json = next at updated
  cases updated with
  | ignored removes => exact ⟨kept.item,kept.rows⟩
  | removed remove =>
    constructor
    · intro item found
      obtain ⟨old,here,-,-,-,-,-,verify⟩ := removeUser_some found
      rw [verify]
      exact kept.item old here
    · intro row member extension
      exact kept.rows row (Serial.mem_delete.mp member).1 extension
  | written old bounds here =>
    have trust : json.n = number → old.keyVerify = untrusted := by
      rintro rfl
      exact kept.item old here
    constructor
    · intro item found
      rcases update_some found with ⟨same,new⟩ | ⟨-,found⟩
      · obtain rfl := Option.some.inj new
        rw [(updated_kept _ _ _ _).2.2.2.2]
        exact trust same.symm
      · exact kept.item item found
    · intro row member extension
      obtain ⟨row,before,rfl⟩ := mem_written.mp member
      exact writeRow_verify (kept.rows row before) old trust extension
  | inserted bounds absent =>
    have rows : ∀ row ∈ b.contacts.insert (makeRow json) rfl,
        row.extension = number → row.verify = untrusted := by
      intro row member extension
      rcases Serial.mem_insert.mp member with old | ⟨-,new⟩
      · exact kept.rows row old extension
      · rw [new]
        rfl
    constructor
    · intro item found
      rcases update_some found with ⟨same,new⟩ | ⟨-,found⟩
      · obtain ⟨row,first,rfl⟩ := Option.map_eq_some_iff.mp new
        have extension := List.find?_some first
        rw [load_keyVerify]
        exact rows row (List.mem_of_find?_eq_some first) ((of_decide_eq_true extension).trans same.symm)
      · exact kept.item item found
    · exact rows

theorem Untrusted.step (kept : Untrusted b number) {a : Action} (moved : step toLower b a = some next) :
    Untrusted next number := by
  cases a with
  | changeRoster =>
    obtain rfl := Option.some.inj moved
    exact ⟨kept.item,kept.rows⟩
  | updateContact json =>
    obtain rfl := Option.some.inj moved
    exact kept.updateContact json
  | changeAdmin isAdmin =>
    obtain rfl := Option.some.inj moved
    exact ⟨kept.item,kept.rows⟩
  | restart order me =>
    simp only [Book.step] at moved
    split at moved
    · rename_i perm
      obtain rfl := Option.some.inj moved
      refine ⟨?_,kept.rows⟩
      intro item found
      obtain ⟨row,member,extension,-,-,rfl⟩ := loaded_some found
      rw [load_keyVerify]
      exact kept.rows row (perm.mem_iff.mp member) extension
    · contradiction

/-- A key that is gone ends the trust in the contact for good if there was none in memory. -/
theorem revoked_untrusted {contacts : Serial ContactRow Int ContactRow.uid ContactRow.uid}
    {trace : List (Transition.Edge Book Action)} (run : Transition.Run (step toLower) { contacts } trace b)
    (json : Profile) (updates : ¬(json.s = "remove" ∧ -1 < b.removes)) (here : b.locals json.n = some item)
    (revoked : revokes json item = true) :
    (∀ trace final, Transition.Run (step toLower) (b.updateContact toLower json) trace final →
      Untrusted final json.n) ↔ item.keyVerify = untrusted := by
  obtain ⟨-,low,high⟩ := (run_sound run).number json.n item here
  rw [updateContact_existing updates here low high]
  constructor
  · intro always
    have kept := (always [] _ .start).item _ (Function.update_self json.n _ b.locals)
    rwa [(updated_kept _ _ _ _).2.2.2.2] at kept
  · intro trust trace final later
    apply later.invariant (Untrusted · json.n) (fun _ _ _ kept moved => kept.step moved)
    constructor
    · intro new found
      obtain rfl := Option.some.inj
        ((Function.update_self json.n (some (b.updated toLower json item)) b.locals).symm.trans found)
      rw [(updated_kept _ _ _ _).2.2.2.2]
      exact trust
    · intro row member extension
      obtain ⟨row,before,rfl⟩ := mem_written.mp member
      rw [writeRow] at extension ⊢
      split
      · rfl
      · rename_i other
        rw [if_neg other] at extension
        contradiction

end Steps

def stored (verify : Int) : Serial ContactRow Int ContactRow.uid ContactRow.uid :=
  (Serial.empty : Serial ContactRow Int ContactRow.uid ContactRow.uid).insert
    (fun uid => { uid, extension := 100, dialing := "100", display := "carol", pubkey := [1], verify }) rfl

def opened (verify : Int) : Book :=
  ({ contacts := stored verify } : Book).restart UString.toLower (stored verify).rows 1

theorem opened_run (verify : Int) : Transition.Run (step UString.toLower) { contacts := stored verify }
    [⟨{ contacts := stored verify },.restart (stored verify).rows 1,opened verify⟩] (opened verify) := by
  apply Transition.Run.next .start
  rw [step]
  exact if_pos (List.Perm.refl (stored verify).rows)

def carol (d k : UString) : Profile := { n := 100, d, t := "USER", k }

theorem update_reloads_same :
    Reloads UString.toLower ((opened 1).updateContact UString.toLower (carol "Carol" "01")) 100 :=
  (update_reloads (opened_run 1) (carol "Carol" "01") (by decide) rfl).mpr (by decide)

/-- A contact is found by its old name until the client is started again. -/
theorem renamed_filter :
    ¬Reloads UString.toLower ((opened 1).updateContact UString.toLower (carol "dave" "01")) 100 := by
  intro reloads
  have same := reloads _ rfl _ (.head _) rfl
  exact absurd same.contactFilter (by decide)

theorem revoked_untrusted_unverified : Untrusted (((opened 0).updateContact UString.toLower
    (carol "carol" "02")).updateContact UString.toLower (carol "carol" "01")) 100 :=
  (revoked_untrusted (opened_run 0) (carol "carol" "02") (by decide) rfl rfl).mpr rfl [_] _
    (.next .start (rfl : step UString.toLower _ (.updateContact (carol "carol" "01")) = _))

/-- A key that comes back is trusted in the row too, once more. -/
theorem returned_key_trusted : ¬∀ trace final, Transition.Run (step UString.toLower)
    ((opened 1).updateContact UString.toLower (carol "carol" "02")) trace final → Untrusted final 100 := by
  intro kept
  have back := kept [_] _ (.next .start (rfl : step UString.toLower _ (.updateContact (carol "carol" "01")) = _))
  exact absurd (back.rows _ (.head _) rfl) (by decide)

end Book

end SipWitch.Phonebook
