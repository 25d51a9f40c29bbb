import SipWitch.Phonebook
import Mathlib.Data.Finset.Basic

/-! The removal of a user from the contacts of the desktop client, by an entry of the roster or
after the server has removed the account. A user can have several contacts. Next to the
contacts the client keeps the names of the users and of the groups that it offers. -/
namespace SipWitch.Phonebook

/-- The contacts, and the names that are offered. -/
structure Client extends Book where
  /-- Of all contacts in memory, by their uids, as the server spells them. The contacts keep
  them in lower case. -/
  users : Int → Option UString := fun _ => none
  usrAuths : Finset UString := ∅
  grpAuths : Finset UString := {UString.ascii "anonymous",UString.ascii "system"}

namespace Client

open Book

variable (toLower : UString → UString) (c : Client)

/-- A contact is made from its row, and `ContactItem::add` offers its user. -/
def enlist (row : ContactRow) : Client :=
  let c := { c with users := Function.update c.users row.uid (some row.user) }
  if row.extension < 0 ∨ 999 < row.extension then c
  else if row.type = "USER" ∨ row.type = "DEVICE" then
    { c with usrAuths := insert (toLower row.user) c.usrAuths }
  else { c with grpAuths := insert (toLower row.user) c.grpAuths }

def deauthorize (id : UString) : Client :=
  { c with usrAuths := c.usrAuths.erase id, grpAuths := c.grpAuths.erase id }

/-- `Desktop::removeUser`; there are no users to remove where none is found. -/
def removeUser (id : UString) : Client :=
  let list := c.findAuth id
  if list = [] then c
  else
    { c with
      toBook := c.toBook.removeUser id
      users := fun uid => if uid ∈ list.map ContactItem.uid then none else c.users uid }.deauthorize id

def isSelf (id : UString) : Bool :=
  (c.findAuth id).any fun item => some item.uid = c.self.map ContactItem.uid

/-- The row that is loaded for a new contact is enlisted. -/
def insert (json : Profile) : Client :=
  let c := { c with toBook := c.toBook.insert toLower json }
  match c.contacts.rows.find? fun row => row.extension = json.n with
  | some row => c.enlist toLower row
  | none => c

def updateContact (json : Profile) : Client :=
  if json.s = "remove" ∧ -1 < c.removes then
    if c.findAuth json.a = [] then c
    else if c.isSelf json.a then { c with removes := -1 }
    else c.removeUser json.a
  else if json.n < 0 ∨ 999 < json.n then c
  else
    match c.locals json.n with
    | none => c.insert toLower json
    | some item => { c with
        contacts := c.contacts.update (writeRow json item) (writeRow_uid json item) (writeRow_uid json item)
        locals := Function.update c.locals json.n (some (c.updated toLower json item))
        users := Function.update c.users item.uid (some json.a) }

def restart (order : List ContactRow) (me : Int) : Client :=
  order.foldl (enlist toLower) { toBook := c.toBook.restart toLower order me }

inductive Action where
  | changeRoster
  /-- An entry of the roster, which ends with the removal of the own user. -/
  | entry (json : Profile)
  | changeProfile (json : Profile)
  | removeUser (id : UString)
  | changeAdmin (isAdmin : Bool)
  /-- The rows are loaded in the order of their last use. -/
  | restart (order : List ContactRow) (me : Int)

def step (c : Client) : Action → Option Client
  | .changeRoster => some { c with removes := 0 }
  | .entry json => if -1 < c.removes then some (c.updateContact toLower json) else none
  | .changeProfile json => some (c.updateContact toLower json)
  | .removeUser id => some (c.removeUser id)
  | .changeAdmin isAdmin => some { c with isAdmin }
  | .restart order me => if order.Perm c.contacts.rows then some (c.restart toLower order me) else none

/-- No contact is one of the user, and its name is not offered. -/
structure Gone (c : Client) (user : UString) : Prop where
  rows : ∀ row ∈ c.contacts, row.user ≠ user
  memory : ∀ uid, c.users uid ≠ some user
  offered : toLower user ∉ c.usrAuths ∪ c.grpAuths

def Own (user : UString) : Prop := ∃ item, c.self = some item ∧ c.users item.uid = some user

/-- The user is gone, or the own removal is begun where the user is the own one. -/
def Complete (c next : Client) (user : UString) : Prop :=
  (c.Own user → -1 < c.removes ∧ next = { c with removes := -1 }) ∧ (¬c.Own user → Gone toLower next user)

/-- The contact of the uid is at an extension that is searched. -/
def Searched (uid : Int) : Prop :=
  ∃ number item, 1 ≤ number ∧ number ≤ highest ∧ c.locals number = some item ∧ item.uid = uid

/-- The user is in lower case if it has contacts, and all of them are searched. The name is not
offered unless a search finds it. -/
structure Reached (c : Client) (user : UString) : Prop where
  rows : ∀ row ∈ c.contacts, row.user = user → toLower user = user ∧ c.Searched row.uid
  memory : ∀ uid, c.users uid = some user → toLower user = user ∧ c.Searched uid
  offered : (toLower user = user → ∀ number item, 1 ≤ number → number ≤ highest →
    c.locals number = some item → item.authUserId ≠ user) → toLower user ∉ c.usrAuths ∪ c.grpAuths

/-- The own contact is searched, and the id is what its user is in lower case. -/
def SelfNamed (user : UString) : Prop :=
  ∃ item, c.self = some item ∧ c.me ≤ highest ∧ item.authUserId = user

structure Sound : Prop where
  book : c.toBook.Sound
  spelled : ∀ number item, c.locals number = some item → ∀ row ∈ c.contacts, row.uid = item.uid →
    c.users item.uid = some row.user ∧ item.authUserId = toLower row.user

section Removal

variable {toLower c} {user : UString} {item : ContactItem} {number : Int}

theorem mem_found : item ∈ c.findAuth user ↔
    ∃ number, 1 ≤ number ∧ number ≤ highest ∧ c.locals number = some item ∧ item.authUserId = user := by
  constructor
  · intro member
    obtain ⟨listed,same⟩ := List.mem_filter.mp member
    obtain ⟨pos,range,here⟩ := List.mem_filterMap.mp listed
    have bound := List.mem_range.mp range
    exact ⟨pos + 1,by omega,by simp only [highest]; omega,here,of_decide_eq_true same⟩
  · rintro ⟨number,low,high,here,same⟩
    simp only [highest] at high
    refine List.mem_filter.mpr ⟨List.mem_filterMap.mpr ⟨(number - 1).toNat,?_,?_⟩,decide_eq_true same⟩
    · exact List.mem_range.mpr (by omega)
    · have pos : ((number - 1).toNat : Int) + 1 = number := by omega
      rw [pos]
      exact here

/-- Of a contact in memory. -/
theorem Sound.exists_row (sound : c.Sound toLower) (here : c.locals number = some item) :
    ∃ row ∈ c.contacts, Owns item number row ∧ c.users item.uid = some row.user ∧
      item.authUserId = toLower row.user := by
  obtain ⟨row,member,owns⟩ := sound.book.owned number item here
  exact ⟨row,member,owns,sound.spelled number item here row member owns.uid⟩

/-- A contact of the user is found if it is searched and the user is in lower case. -/
theorem mem_uids {uid : Int} (own : ∀ number item, c.locals number = some item → item.uid = uid →
      item.authUserId = toLower user) :
    uid ∈ (c.findAuth user).map ContactItem.uid ↔ toLower user = user ∧ c.Searched uid := by
  constructor
  · intro listed
    obtain ⟨item,member,same⟩ := List.mem_map.mp listed
    obtain ⟨number,low,high,here,named⟩ := mem_found.mp member
    exact ⟨(own number item here same).symm.trans named,number,item,low,high,here,same⟩
  · rintro ⟨small,number,item,low,high,here,same⟩
    have kept := own number item here same
    exact List.mem_map.mpr ⟨item,mem_found.mpr ⟨number,low,high,here,kept.trans small⟩,same⟩

/-- The contacts of the user are among those that are found. -/
theorem Sound.reached_iff (sound : c.Sound toLower) : c.Reached toLower user ↔
    (∀ row ∈ c.contacts, row.user = user → row.uid ∈ (c.findAuth user).map ContactItem.uid) ∧
      (∀ uid, c.users uid = some user → uid ∈ (c.findAuth user).map ContactItem.uid) ∧
        ((toLower user = user → c.findAuth user = []) → toLower user ∉ c.usrAuths ∪ c.grpAuths) := by
  have row_iff (row : ContactRow) (member : row ∈ c.contacts) (own : row.user = user) :
      row.uid ∈ (c.findAuth user).map ContactItem.uid ↔ toLower user = user ∧ c.Searched row.uid :=
    mem_uids fun number item here same => by
      rw [← own]
      exact (sound.spelled number item here row member same.symm).2
  have uid_iff (uid : Int) (spelled : c.users uid = some user) :
      uid ∈ (c.findAuth user).map ContactItem.uid ↔ toLower user = user ∧ c.Searched uid :=
    mem_uids fun number item here same => by
      obtain ⟨row,-,-,known,kept⟩ := sound.exists_row here
      rw [same,spelled] at known
      rw [kept,Option.some.inj known]
  have none_iff : (∀ number item, 1 ≤ number → number ≤ highest → c.locals number = some item →
      item.authUserId ≠ user) ↔ c.findAuth user = [] := by
    rw [List.eq_nil_iff_forall_not_mem]
    constructor
    · intro missed item member
      obtain ⟨number,low,high,here,same⟩ := mem_found.mp member
      exact missed number item low high here same
    · intro missed number item low high here same
      exact missed item (mem_found.mpr ⟨number,low,high,here,same⟩)
  constructor
  · intro reached
    exact ⟨fun row member own => (row_iff row member own).mpr (reached.rows row member own),
      fun uid spelled => (uid_iff uid spelled).mpr (reached.memory uid spelled),
      fun absent => reached.offered fun small => none_iff.mpr (absent small)⟩
  · rintro ⟨rows,memory,offered⟩
    exact ⟨fun row member own => (row_iff row member own).mp (rows row member own),
      fun uid spelled => (uid_iff uid spelled).mp (memory uid spelled),
      fun missed => offered fun small => none_iff.mp (missed small)⟩

theorem removeUser_none (absent : c.findAuth user = []) : c.removeUser user = c := by
  rw [removeUser]
  exact if_pos absent

theorem mem_removeUser (found : c.findAuth user ≠ []) {row : ContactRow} :
    row ∈ (c.removeUser user).contacts ↔
      row ∈ c.contacts ∧ row.uid ∉ (c.findAuth user).map ContactItem.uid := by
  simp only [removeUser,if_neg found,deauthorize,Book.removeUser,Serial.mem_delete,decide_eq_false_iff_not]

theorem users_removeUser (found : c.findAuth user ≠ []) (uid : Int) : (c.removeUser user).users uid =
    if uid ∈ (c.findAuth user).map ContactItem.uid then none else c.users uid := by
  simp only [removeUser,if_neg found,deauthorize]

theorem auths_removeUser (found : c.findAuth user ≠ []) (name : UString) :
    name ∈ (c.removeUser user).usrAuths ∪ (c.removeUser user).grpAuths ↔
      name ≠ user ∧ name ∈ c.usrAuths ∪ c.grpAuths := by
  simp only [removeUser,if_neg found,deauthorize,Finset.mem_union,Finset.mem_erase,and_or_left]

theorem removeUser_removes (user : UString) : (c.removeUser user).removes = c.removes := by
  by_cases absent : c.findAuth user = []
  · rw [removeUser_none absent]
  · simp only [removeUser,if_neg absent,deauthorize,Book.removeUser]

/-- The user is gone just if its contacts have been found. -/
theorem Sound.removeUser_gone (sound : c.Sound toLower) :
    Gone toLower (c.removeUser user) user ↔ c.Reached toLower user := by
  rw [sound.reached_iff]
  by_cases absent : c.findAuth user = []
  · rw [removeUser_none absent,absent]
    constructor
    · intro gone
      exact ⟨fun row member own => absurd own (gone.rows row member),
        fun uid spelled => absurd spelled (gone.memory uid),fun _ => gone.offered⟩
    · rintro ⟨rows,memory,offered⟩
      exact ⟨fun row member own => List.not_mem_nil (rows row member own),
        fun uid spelled => List.not_mem_nil (memory uid spelled),offered fun _ => rfl⟩
  · constructor
    · intro gone
      have kept := gone.offered
      rw [auths_removeUser absent] at kept
      refine ⟨fun row member own => ?_,fun uid spelled => ?_,fun none_ offered => ?_⟩
      · by_contra missed
        exact gone.rows row ((mem_removeUser absent).mpr ⟨member,missed⟩) own
      · by_contra missed
        apply gone.memory uid
        rw [users_removeUser absent,if_neg missed]
        exact spelled
      · exact kept ⟨fun small => absent (none_ small),offered⟩
    · rintro ⟨rows,memory,offered⟩
      refine ⟨fun row left own => ?_,fun uid left => ?_,?_⟩
      · obtain ⟨member,kept⟩ := (mem_removeUser absent).mp left
        exact kept (rows row member own)
      · rw [users_removeUser absent] at left
        by_cases kept : uid ∈ (c.findAuth user).map ContactItem.uid
        · rw [if_pos kept] at left
          cases left
        · rw [if_neg kept] at left
          exact kept (memory uid left)
      · rw [auths_removeUser absent]
        rintro ⟨other,before⟩
        exact offered (fun small => absurd small other) before

/-- Nothing is removed once the own removal is begun. -/
theorem removes_begun {next : Client} (bound : -1 < c.removes) (kept : next.removes = c.removes) :
    next ≠ { c with removes := -1 } := by
  intro same
  have removes : next.removes = -1 := congrArg (fun next : Client => next.removes) same
  omega

/-- After a removal that the server has accepted the user is gone just if it is not the own
one and its contacts are found. -/
theorem Sound.removeUser_complete (sound : c.Sound toLower) (user : UString) :
    Complete toLower c (c.removeUser user) user ↔ ¬c.Own user ∧ c.Reached toLower user := by
  rw [Complete,sound.removeUser_gone]
  constructor
  · rintro ⟨own,gone⟩
    have other : ¬c.Own user := by
      intro mine
      obtain ⟨bound,same⟩ := own mine
      exact removes_begun bound (removeUser_removes user) same
    exact ⟨other,gone other⟩
  · rintro ⟨other,found⟩
    exact ⟨fun mine => absurd mine other,fun _ => found⟩

theorem self_some (self : c.self = some item) : 1 ≤ c.me ∧ c.locals c.me = some item := by
  rw [Book.self] at self
  split at self
  · cases self
  · exact ⟨by omega,self⟩

/-- The own contact is found by the id. -/
theorem Sound.isSelf_iff (sound : c.Sound toLower) : c.isSelf user = true ↔ c.SelfNamed user := by
  simp only [isSelf,List.any_eq_true,decide_eq_true_eq]
  constructor
  · rintro ⟨item,member,same⟩
    obtain ⟨number,low,high,here,named⟩ := mem_found.mp member
    obtain ⟨own,self,uid⟩ := Option.map_eq_some_iff.mp same.symm
    obtain ⟨-,there⟩ := self_some self
    obtain rfl := sound.book.injective here there uid.symm
    obtain rfl := Option.some.inj (here.symm.trans there)
    exact ⟨item,self,high,named⟩
  · rintro ⟨item,self,high,named⟩
    refine ⟨item,?_,by rw [self]; rfl⟩
    obtain ⟨low,here⟩ := self_some self
    exact mem_found.mpr ⟨c.me,low,high,here,named⟩

/-- The contact of the own user is kept in lower case. -/
theorem Sound.own_named (sound : c.Sound toLower) (own : c.Own user) :
    c.SelfNamed user ↔ toLower user = user ∧ c.me ≤ highest := by
  obtain ⟨item,self,spelled⟩ := own
  obtain ⟨-,here⟩ := self_some self
  obtain ⟨row,-,-,known,kept⟩ := sound.exists_row here
  obtain rfl := Option.some.inj (known.symm.trans spelled)
  constructor
  · rintro ⟨other,same,high,named⟩
    obtain rfl := Option.some.inj (self.symm.trans same)
    exact ⟨kept.symm.trans named,high⟩
  · rintro ⟨small,high⟩
    exact ⟨item,self,high,kept.trans small⟩

/-- An entry of the roster removes the user, or begins the own removal. It begins it for any
user that the own contact is found by. -/
theorem Sound.entry_complete (sound : c.Sound toLower) (bound : -1 < c.removes) (json : Profile)
    (remove : json.s = "remove") :
    Complete toLower c (c.updateContact toLower json) json.a ↔
      (c.Own json.a → toLower json.a = json.a ∧ c.me ≤ highest) ∧
        (¬c.Own json.a → (c.SelfNamed json.a → Gone toLower c json.a) ∧
          (¬c.SelfNamed json.a → c.Reached toLower json.a)) := by
  have own_iff : (c.Own json.a → toLower json.a = json.a ∧ c.me ≤ highest) ↔
      (c.Own json.a → c.SelfNamed json.a) :=
    forall_congr' fun own => (sound.own_named own).symm
  rw [own_iff,Complete,updateContact,if_pos ⟨remove,bound⟩]
  by_cases self : c.isSelf json.a = true
  · have named := sound.isSelf_iff.mp self
    have found : c.findAuth json.a ≠ [] := by
      intro absent
      simp [isSelf,absent] at self
    rw [if_neg found,if_pos self]
    constructor
    · rintro ⟨-,gone⟩
      refine ⟨fun _ => named,fun other => ⟨fun _ => ?_,fun unnamed => absurd named unnamed⟩⟩
      exact ⟨(gone other).rows,(gone other).memory,(gone other).offered⟩
    · rintro ⟨-,gone⟩
      refine ⟨fun _ => ⟨bound,rfl⟩,fun other => ?_⟩
      have absent := (gone other).1 named
      exact ⟨absent.rows,absent.memory,absent.offered⟩
  · have unnamed : ¬c.SelfNamed json.a := fun named => self (sound.isSelf_iff.mpr named)
    have next : (if c.findAuth json.a = [] then c else if c.isSelf json.a = true then { c with removes := -1 }
        else c.removeUser json.a) = c.removeUser json.a := by
      by_cases absent : c.findAuth json.a = []
      · rw [if_pos absent,removeUser_none absent]
      · rw [if_neg absent,if_neg self]
    rw [next,sound.removeUser_gone]
    constructor
    · rintro ⟨own,gone⟩
      refine ⟨fun mine => ?_,fun other => ⟨fun named => absurd named unnamed,fun _ => gone other⟩⟩
      exact absurd (own mine).2 (removes_begun bound (removeUser_removes json.a))
    · rintro ⟨own,gone⟩
      exact ⟨fun mine => absurd (own mine) unnamed,fun other => (gone other).2 unnamed⟩

end Removal

section Steps

variable {toLower} {c next : Client} {json : Profile} {item : ContactItem} {row : ContactRow}

/-- The row of a contact goes by its uid. -/
theorem Sound.of_rows (book : c.toBook.Sound) (rows : ∀ number item, c.locals number = some item →
    ∃ row ∈ c.contacts, row.uid = item.uid ∧ c.users item.uid = some row.user ∧
      item.authUserId = toLower row.user) : c.Sound toLower := by
  refine ⟨book,fun number item here row member same => ?_⟩
  obtain ⟨other,listed,uid,known⟩ := rows number item here
  obtain rfl := Serial.unique_id member listed (same.trans uid.symm)
  exact known

theorem enlist_toBook (c : Client) (row : ContactRow) : (c.enlist toLower row).toBook = c.toBook := by
  simp only [enlist]
  split
  · rfl
  · split <;> rfl

theorem enlist_users (c : Client) (row : ContactRow) :
    (c.enlist toLower row).users = Function.update c.users row.uid (some row.user) := by
  simp only [enlist]
  split
  · rfl
  · split <;> rfl

theorem add_authUserId (item : ContactItem) : (item.add toLower).authUserId = item.authUserId := by
  simp only [ContactItem.add]
  split
  · rfl
  · split <;> rfl

theorem removeUser_toBook {user : UString} (found : c.findAuth user ≠ []) :
    (c.removeUser user).toBook = c.toBook.removeUser user := by
  simp only [removeUser,if_neg found,deauthorize]

theorem Sound.removeUser (sound : c.Sound toLower) (user : UString) : (c.removeUser user).Sound toLower := by
  by_cases absent : c.findAuth user = []
  · rw [removeUser_none absent]
    exact sound
  · have book := sound.book.removeUser user
    rw [← removeUser_toBook absent] at book
    refine .of_rows book fun number item here => ?_
    obtain ⟨row,left,owns⟩ := book.owned number item here
    obtain ⟨member,kept⟩ := (mem_removeUser absent).mp left
    rw [removeUser_toBook absent] at here
    obtain ⟨old,_,_,before,-,rfl⟩ := removeUser_item here
    obtain ⟨known,lowered⟩ := sound.spelled number old before row member owns.uid
    refine ⟨row,left,owns.uid,?_,lowered⟩
    rw [users_removeUser absent,if_neg (owns.uid ▸ kept)]
    exact known

/-- An update spells the contact and its row alike. -/
theorem Sound.written (sound : c.Sound toLower) (here : c.locals json.n = some item) : Sound toLower { c with
    contacts := c.contacts.update (writeRow json item) (writeRow_uid json item) (writeRow_uid json item)
    locals := Function.update c.locals json.n (some (c.updated toLower json item))
    users := Function.update c.users item.uid (some json.a) } := by
  have kept := (updated_kept toLower c.toBook json item).1
  refine .of_rows (sound.book.written here) fun number other found => ?_
  rcases update_some found with ⟨rfl,new⟩ | ⟨apart,old⟩
  · obtain rfl := Option.some.inj new
    obtain ⟨row,member,owns,-⟩ := sound.exists_row here
    have written : (writeRow json item row).user = json.a := by
      rw [writeRow,if_pos owns.extension]
    refine ⟨_,mem_written.mpr ⟨row,member,rfl⟩,?_,?_,?_⟩
    · rw [writeRow_uid,kept]
      exact owns.uid
    · rw [written,kept]
      exact Function.update_self item.uid (some json.a) c.users
    · rw [written]
      rfl
  · obtain ⟨row,member,owns,known,lowered⟩ := sound.exists_row old
    have untouched : writeRow json item row = row := by
      rw [writeRow,if_neg (owns.extension ▸ apart)]
    refine ⟨row,mem_written.mpr ⟨row,member,untouched⟩,owns.uid,?_,lowered⟩
    have uid : other.uid ≠ item.uid := fun same => apart (sound.book.injective here old same.symm)
    rw [← known]
    exact Function.update_of_ne uid (some json.a) c.users

theorem insert_toBook (toLower : UString → UString) (c : Client) (json : Profile) :
    (c.insert toLower json).toBook = c.toBook.insert toLower json := by
  rw [insert]
  split
  · exact enlist_toBook ..
  · rfl

/-- The contacts have the uid of the row that is loaded, for its user. -/
theorem insert_users (toLower : UString → UString) (c : Client) (json : Profile) :
    (∃ row, ((c.contacts.insert (makeRow json) rfl).rows.find? fun row => row.extension = json.n) = some row ∧
        (c.insert toLower json).users = Function.update c.users row.uid (some row.user)) ∨
      ((c.contacts.insert (makeRow json) rfl).rows.find? fun row => row.extension = json.n) = none ∧
        (c.insert toLower json).users = c.users := by
  rw [insert]
  cases first : (c.contacts.insert (makeRow json) rfl).rows.find? fun row => row.extension = json.n with
  | none =>
    refine .inr ⟨rfl,?_⟩
    simp only [Book.insert,first]
  | some row =>
    refine .inl ⟨row,rfl,?_⟩
    simp only [Book.insert,first,enlist_users]

theorem Sound.insert (sound : c.Sound toLower) (bounds : 0 ≤ json.n ∧ json.n ≤ 999) :
    (c.insert toLower json).Sound toLower := by
  have book := insert_toBook toLower c json
  have kept (row : ContactRow) (member : row ∈ c.contacts) : row ∈ c.contacts.insert (makeRow json) rfl :=
    Serial.mem_insert.mpr (.inl member)
  refine .of_rows (book ▸ sound.book.insert bounds) fun number item here => ?_
  rw [book] at here ⊢
  rcases update_some here with ⟨rfl,new⟩ | ⟨apart,old⟩
  · obtain ⟨row,first,rfl⟩ := Option.map_eq_some_iff.mp new
    refine ⟨row,List.mem_of_find?_eq_some first,(load_owns row).uid,?_,add_authUserId _⟩
    rcases insert_users toLower c json with ⟨row',found,users⟩ | ⟨missed,-⟩
    · obtain rfl := Option.some.inj (first.symm.trans found)
      rw [users,← (load_owns row).uid,Function.update_self]
    · cases first.symm.trans missed
  · obtain ⟨row,member,owns,known,lowered⟩ := sound.exists_row old
    refine ⟨row,kept row member,owns.uid,?_,lowered⟩
    rcases insert_users toLower c json with ⟨first,found,users⟩ | ⟨-,users⟩
    · have there := List.find?_some found
      have uid : item.uid ≠ first.uid := by
        intro same
        obtain rfl := Serial.unique_id (kept row member) (List.mem_of_find?_eq_some found) (owns.uid.trans same)
        exact apart (owns.extension.symm.trans (of_decide_eq_true there))
      rw [users,Function.update_of_ne uid]
      exact known
    · rw [users]
      exact known

/-- The contacts in memory are those of their rows. -/
theorem users_enlisted (c : Client) (rows : List ContactRow) (member : row ∈ rows)
    (unique : ∀ other ∈ rows, other.uid = row.uid → other = row) :
    (rows.foldl (enlist toLower) c).users row.uid = some row.user := by
  induction rows using List.reverseRecOn with
  | nil => cases member
  | append_singleton rows last ih =>
    rw [List.foldl_append,List.foldl_cons,List.foldl_nil,enlist_users]
    by_cases same : last.uid = row.uid
    · obtain rfl := unique last (by simp) same
      exact Function.update_self ..
    · rw [Function.update_of_ne (Ne.symm same)]
      have earlier : row ∈ rows := by
        rcases List.mem_append.mp member with before | last_
        · exact before
        · exact absurd (congrArg ContactRow.uid (List.mem_singleton.mp last_)).symm same
      exact ih earlier fun other listed => unique other (List.mem_append_left _ listed)

theorem enlisted_toBook (c : Client) (rows : List ContactRow) :
    (rows.foldl (enlist toLower) c).toBook = c.toBook := by
  induction rows generalizing c with
  | nil => rfl
  | cons row rows ih =>
    rw [List.foldl_cons,ih,enlist_toBook]

theorem Sound.restart (order : List ContactRow) (perm : order.Perm c.contacts.rows) (me : Int)
    (book : (c.toBook.restart toLower order me).Sound) : (c.restart toLower order me).Sound toLower := by
  have same : (c.restart toLower order me).toBook = c.toBook.restart toLower order me := enlisted_toBook ..
  refine .of_rows (same ▸ book) fun number item here => ?_
  rw [same] at here
  obtain ⟨row,member,-,-,-,rfl⟩ := loaded_some here
  have stored : row ∈ c.contacts := perm.mem_iff.mp member
  refine ⟨row,same ▸ stored,(load_owns row).uid,?_,add_authUserId _⟩
  rw [← (load_owns row).uid]
  exact users_enlisted _ order member fun other listed uid =>
    Serial.unique_id (perm.mem_iff.mp listed) stored uid

theorem Sound.updateContact (sound : c.Sound toLower) (json : Profile) :
    (c.updateContact toLower json).Sound toLower := by
  rw [Client.updateContact]
  split
  · split
    · exact sound
    · split
      · exact ⟨⟨sound.book.number,sound.book.owned⟩,sound.spelled⟩
      · exact sound.removeUser json.a
  · split
    · exact sound
    · split
      · exact sound.insert (by omega)
      · exact sound.written ‹_›

theorem step_sound (sound : c.Sound toLower) {a : Action} (moved : step toLower c a = some next) :
    next.Sound toLower := by
  cases a with
  | changeRoster =>
    obtain rfl := Option.some.inj moved
    exact ⟨⟨sound.book.number,sound.book.owned⟩,sound.spelled⟩
  | entry json =>
    simp only [step] at moved
    split at moved
    · obtain rfl := Option.some.inj moved
      exact sound.updateContact json
    · contradiction
  | changeProfile json =>
    obtain rfl := Option.some.inj moved
    exact sound.updateContact json
  | removeUser user =>
    obtain rfl := Option.some.inj moved
    exact sound.removeUser user
  | changeAdmin isAdmin =>
    obtain rfl := Option.some.inj moved
    exact ⟨⟨sound.book.number,sound.book.owned⟩,sound.spelled⟩
  | restart order me =>
    simp only [step] at moved
    split at moved
    · rename_i perm
      obtain rfl := Option.some.inj moved
      have enabled : Book.step toLower c.toBook (.restart order me) =
          some (c.toBook.restart toLower order me) := if_pos perm
      exact .restart order perm me (Book.step_sound sound.book enabled)
    · contradiction

end Steps

/-- In every run a removal is complete just if all the contacts of the user are searched and the
user is in lower case. An entry of the roster needs as much of the own user, which a removal
after the server has removed the account must not be. -/
theorem removal_complete {toLower : UString → UString} {c : Client}
    {contacts : Serial ContactRow Int ContactRow.uid ContactRow.uid}
    {trace : List (Transition.Edge Client Action)} (run : Transition.Run (step toLower) { contacts } trace c) :
    (∀ (json : Profile) (next : Client), json.s = "remove" → step toLower c (.entry json) = some next →
      (Complete toLower c next json.a ↔
        (c.Own json.a → toLower json.a = json.a ∧ c.me ≤ highest) ∧
          (¬c.Own json.a → (c.SelfNamed json.a → Gone toLower c json.a) ∧
            (¬c.SelfNamed json.a → c.Reached toLower json.a)))) ∧
      ∀ (user : UString) (next : Client), step toLower c (.removeUser user) = some next →
        (Complete toLower c next user ↔ ¬c.Own user ∧ c.Reached toLower user) := by
  have sound : c.Sound toLower :=
    run.invariant (Sound toLower) (fun _ _ _ sound moved => step_sound sound moved)
      ⟨⟨by simp,by simp⟩,by simp⟩
  constructor
  · intro json next remove moved
    simp only [step] at moved
    split at moved
    · rename_i bound
      obtain rfl := Option.some.inj moved
      exact sound.entry_complete bound json remove
    · contradiction
  · intro user next moved
    obtain rfl := Option.some.inj moved
    exact sound.removeUser_complete user

def enrolled (user : UString) (uid : Int) : ContactRow where
  uid := uid
  extension := 10
  display := "Bob"
  user := user

def fresh (user : UString) : Client := { contacts := Serial.empty.insert (enrolled user) rfl }

def started (user : UString) : Client := (fresh user).restart UString.toLower [enrolled user 1] (-1)

theorem started_run (user : UString) :
    ∃ trace, Transition.Run (step UString.toLower) (fresh user) trace (started user) := by
  have rows : (fresh user).contacts.rows = [enrolled user 1] := rfl
  have moved : step UString.toLower (fresh user) (.restart [enrolled user 1] (-1)) = some (started user) := by
    rw [step,rows]
    exact if_pos (List.Perm.refl _)
  exact ⟨_,.next .start moved⟩

theorem started_other (user other : UString) : ¬(started user).Own other := by
  rintro ⟨item,self,-⟩
  have none_ : (started user).self = none := rfl
  cases none_.symm.trans self

theorem removal_complete_bob :
    Complete UString.toLower (started "bob") ((started "bob").removeUser "bob") "bob" := by
  obtain ⟨trace,run⟩ := started_run "bob"
  have here : (started "bob").locals 10 = some ((enrolled "bob" 1).load UString.toLower) := by decide +kernel
  have found : UString.toLower "bob" = "bob" ∧ (started "bob").Searched 1 :=
    ⟨by decide,10,_,by decide,by decide,here,rfl⟩
  refine ((removal_complete run).2 "bob" _ rfl).mpr ⟨started_other "bob" "bob",?_,?_,?_⟩
  · intro row member _
    obtain rfl : row = enrolled "bob" 1 := List.mem_singleton.mp member
    exact found
  · intro uid spelled
    by_cases one : uid = 1
    · exact one ▸ found
    · cases (Function.update_of_ne one _ _).symm.trans spelled
  · intro missed
    exact absurd (by decide +kernel) (missed (by decide) 10 _ (by decide) (by decide) here)

/-- Bob is still there after his removal, as he is spelled otherwise than he is kept. -/
theorem removal_fails :
    (∃ next, step UString.toLower (started "Bob") (.entry { s := "remove", a := "Bob" }) = some next ∧
      ¬Complete UString.toLower (started "Bob") next "Bob") ∧
    ∃ next, step UString.toLower (started "Bob") (.removeUser "Bob") = some next ∧
      ¬Complete UString.toLower (started "Bob") next "Bob" := by
  have absent : (started "Bob").findAuth "Bob" = [] := by decide +kernel
  have left : ¬Complete UString.toLower (started "Bob") (started "Bob") "Bob" := fun complete =>
    (complete.2 (started_other "Bob" "Bob")).rows (enrolled "Bob" 1) (List.mem_singleton.mpr rfl) rfl
  refine ⟨⟨_,rfl,?_⟩,⟨_,rfl,?_⟩⟩
  · rw [updateContact,if_pos (by decide),if_pos absent]
    exact left
  · rw [removeUser_none absent]
    exact left

end Client

end SipWitch.Phonebook
