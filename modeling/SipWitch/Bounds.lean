import SipWitch.Phonebook
import SipWitch.Status

/-! The accesses to the table `local` and to the bitmap of a status, when the phonebook takes
what the server sends. An access outside has no result. -/
namespace SipWitch.Phonebook

open Book

/-- The phonebook, with what it keeps of a contact besides. A contact is at its own extension
only, and goes by that. -/
structure Window extends Book where
  online : Int → Bool := fun _ => false
  session : Int → Bool := fun _ => false
  localModel : Bool := true
  memberModel : Bool := false

namespace Window

/-- A read or a write of `local[number]`. -/
def touch (number : Int) : Option Unit := if 0 ≤ number ∧ number < 1000 then some () else none

def touchAuth : Option Unit := (List.range 699).forM fun (pos : Nat) => touch (pos + 1)

def touchRemove (number : Int) : Option Unit :=
  if highest < number ∨ number < 0 then some () else touch number

def touchIndex (number : Int) : Option Unit :=
  if number < 1 ∨ 999 < number then some ()
  else do
    touch number
    (List.range 700).forM fun (pos : Nat) => touch pos

def touchMembers (json : Profile) : Option Unit :=
  if (isGrouped json.t ∨ json.n = 0) ∧ json.m ≠ [] then
    (json.m.splitOn 44).forM fun member =>
      let mid := UString.textToInt member
      if mid < 1 ∨ 999 < mid then some () else touch mid
  else some ()

variable (toLower : UString → UString) (w : Window)

def touchSelf : Option Unit := if w.me < 1 then some () else touch w.me

def touchContact (item : ContactItem) : Option Unit := do
  if w.localModel then touchRemove item.extensionNumber else some ()
  touchIndex item.extensionNumber

def touchLead (json : Profile) : Option Unit :=
  if (w.isAdmin ∨ json.g ≠ "none") ∧ (json.n = 0 ∨ isGrouped json.t) then
    if json.g = "admin" then w.touchSelf
    else
      let lead := UString.textToInt json.g
      if 1 < lead ∧ lead < 999 then touch lead else some ()
  else some ()

def dropUser (json : Profile) : Option Window := do
  touchAuth
  let list := w.findAuth json.a
  if list = [] then some w
  else do
    w.touchSelf
    if list.any fun item => some item.uid = w.self.map ContactItem.uid then
      some { w with removes := -1 }
    else do
      touchAuth
      list.forM w.touchContact
      some { w with toBook := w.toBook.removeUser json.a }

/-- The new contact is offline and has no session. -/
def insertItem (json : Profile) : Option Window := do
  touch json.n
  some { w with
    toBook := w.toBook.insert toLower json
    online := Function.update w.online json.n false
    session := Function.update w.session json.n false }

def writeItem (json : Profile) (item : ContactItem) : Option Window := do
  if json.s ≠ [] then w.touchSelf else some ()
  w.touchLead json
  touchMembers json
  -- a contact that is shown again, or by another name
  if (item.hidden ∨ item.displayName ≠ json.d) ∧ w.session json.n = false then w.touchSelf else some ()
  some { w with
    contacts := w.contacts.update (writeRow json item) (writeRow_uid json item) (writeRow_uid json item)
    locals := Function.update w.locals json.n (some (w.updated toLower json item)) }

def updateContact (json : Profile) : Option Window :=
  if json.s = "remove" ∧ -1 < w.removes then w.dropUser json
  else if json.n < 0 ∨ 1000 < json.n then some w
  else do
    touch json.n
    match w.locals json.n with
    | none => w.insertItem toLower json
    | some item => w.writeItem toLower json item

def changeOnline (number : Int) (status : Bool) : Option Window :=
  if number < 0 ∨ 1000 < number then some w
  else do
    touch number
    if w.locals number = none then some w
    else if status = w.online number then some w
    else do
      if w.session number then w.touchSelf else some ()
      some { w with online := Function.update w.online number status }

/-- What a round does to the model of the contacts, if there is one. -/
def changeModel (count : Int) (online : Bool) : Option Window :=
  if w.localModel then w.changeOnline count online else some w

def touchMember (count : Int) : Option Unit := if w.memberModel then touch count else some ()

/-- The loop of `changeStatus`, with the rounds it has left. -/
def changeLoop (status : List UInt8) : Nat → Nat → UInt32 → Int → Window → Option Window
  | 0,_,_,_,w => some w
  | rounds + 1,pos,mask,count,w => do
    let byte ← status[pos]?
    let online : Bool := byte.toUInt32 &&& mask ≠ 0
    let w ← w.changeModel count online
    w.touchMember count
    if mask <<< 1 > 128 then changeLoop status rounds (pos + 1) 1 (count + 1) w
    else changeLoop status rounds pos (mask <<< 1) (count + 1) w

def changeStatus (status : List UInt8) (first last : Int) : Option Window :=
  changeLoop status (last - first).toNat 0 1 first w

def registered (feed : Feed) (body : UString) : Option Window :=
  match (feed.registered body).2 with
  | some (status,first,last) => w.changeStatus status first last
  | none => some w

theorem touch_inside {number : Int} (low : 0 ≤ number) (high : number ≤ 999) : touch number = some () :=
  if_pos ⟨low,by omega⟩

theorem touch_end : touch 1000 = none := rfl

theorem forM_some {items : List α} {body : α → Option Unit}
    (all : ∀ item ∈ items, body item = some ()) : items.forM body = some () := by
  rw [List.forM_eq_forM]
  induction items with
  | nil => rfl
  | cons item rest ih =>
    rw [List.forM_cons,all item List.mem_cons_self]
    exact ih fun other member => all other (List.mem_cons_of_mem _ member)

theorem touchAuth_some : touchAuth = some () := by
  refine forM_some fun pos member => ?_
  have below := List.mem_range.mp member
  exact touch_inside (by omega) (by omega)

theorem touchRemove_some (number : Int) : touchRemove number = some () := by
  rw [touchRemove]
  split
  · rfl
  · rename_i inside
    rw [highest] at inside
    exact touch_inside (by omega) (by omega)

theorem touchIndex_some (number : Int) : touchIndex number = some () := by
  rw [touchIndex]
  split
  · rfl
  · rw [touch_inside (by omega) (by omega),Option.bind_eq_bind,Option.bind_some]
    refine forM_some fun pos member => ?_
    have below := List.mem_range.mp member
    exact touch_inside (by omega) (by omega)

theorem touchMembers_some (json : Profile) : touchMembers json = some () := by
  rw [touchMembers]
  split
  · refine forM_some fun member _ => ?_
    dsimp only
    split
    · rfl
    · exact touch_inside (by omega) (by omega)
  · rfl

theorem touchContact_some (item : ContactItem) : w.touchContact item = some () := by
  rw [touchContact,touchRemove_some,touchIndex_some,ite_self]
  rfl

section

variable {w} (login : w.me ≤ 699)

include login

theorem touchSelf_some : w.touchSelf = some () := by
  rw [touchSelf]
  split
  · rfl
  · exact touch_inside (by omega) (by omega)

theorem touchLead_some (json : Profile) : w.touchLead json = some () := by
  rw [touchLead]
  split
  · split
    · exact touchSelf_some login
    · dsimp only
      split
      · exact touch_inside (by omega) (by omega)
      · rfl
  · rfl

theorem dropUser_eq (json : Profile) : w.dropUser json = some
    (if w.findAuth json.a = [] then w
    else if (w.findAuth json.a).any fun item => some item.uid = w.self.map ContactItem.uid then
      { w with removes := -1 }
    else { w with toBook := w.toBook.removeUser json.a }) := by
  have contacts : (w.findAuth json.a).forM w.touchContact = some () :=
    forM_some fun item _ => w.touchContact_some item
  rw [dropUser,touchAuth_some,touchSelf_some login]
  simp only [contacts,Option.bind_eq_bind,Option.bind_some]
  split
  · rfl
  · split <;> rfl

theorem writeItem_eq (json : Profile) (item : ContactItem) : w.writeItem toLower json item = some { w with
    contacts := w.contacts.update (writeRow json item) (writeRow_uid json item) (writeRow_uid json item)
    locals := Function.update w.locals json.n (some (w.updated toLower json item)) } := by
  rw [writeItem,touchSelf_some login,touchLead_some login,touchMembers_some,ite_self,ite_self]
  rfl

/-- All but a contact behind the table is updated as the book is. -/
theorem updateContact_eq (json : Profile)
    (inside : json.s = "remove" ∧ -1 < w.removes ∨ json.n ≠ 1000) :
    ∃ next, w.updateContact toLower json = some next ∧
      next.toBook = w.toBook.updateContact toLower json := by
  rw [updateContact,Book.updateContact]
  by_cases remove : json.s = "remove" ∧ -1 < w.removes
  · rw [if_pos remove,if_pos remove,dropUser_eq login]
    refine ⟨_,rfl,?_⟩
    dsimp only
    split
    · rfl
    · split <;> rfl
  · rw [if_neg remove,if_neg remove]
    have other := inside.resolve_left remove
    by_cases range : json.n < 0 ∨ 999 < json.n
    · rw [if_pos (by omega),if_pos range]
      exact ⟨w,rfl,rfl⟩
    · rw [if_neg (by omega),if_neg range,touch_inside (by omega) (by omega)]
      rw [Option.bind_eq_bind,Option.bind_some]
      cases w.locals json.n with
      | none =>
        dsimp only
        rw [insertItem,touch_inside (by omega) (by omega),Option.bind_eq_bind,Option.bind_some]
        exact ⟨_,rfl,rfl⟩
      | some item =>
        dsimp only
        rw [writeItem_eq toLower login]
        exact ⟨_,rfl,rfl⟩

theorem updateContact_iff (json : Profile) : (w.updateContact toLower json).isSome = true ↔
    json.s = "remove" ∧ -1 < w.removes ∨ json.n ≠ 1000 := by
  constructor
  · intro inside
    by_contra outside
    obtain ⟨other,behind⟩ := not_or.mp outside
    rw [updateContact,if_neg other,not_not.mp behind,touch_end] at inside
    cases inside
  · intro inside
    obtain ⟨next,updated,-⟩ := updateContact_eq toLower login json inside
    rw [updated]
    rfl

end

/-- The contacts as the status sees them. -/
def shown : Contacts := (List.range 1000).map fun (n : Nat) => (w.locals n).map fun _ => w.online n

theorem shown_get (k : Nat) :
    w.shown[k]? = if k < 1000 then some ((w.locals k).map fun _ => w.online k) else none := by
  rw [shown,List.getElem?_map]
  split
  · rename_i inside
    rw [List.getElem?_range inside]
    rfl
  · rename_i outside
    rw [List.getElem?_eq_none (by rw [List.length_range]; omega)]
    rfl

/-- One contact is shown with the status. -/
theorem shown_change {online : Int → Bool} {number : Int} {status : Bool}
    (inside : 0 ≤ number ∧ number ≤ 999) (other : ∀ k, k ≠ number → online k = w.online k)
    (here : w.locals number = none ∨ online number = status) :
    ({ w with online } : Window).shown = Phonebook.changeOnline w.shown number status := by
  refine List.ext_getElem? fun k => ?_
  rw [changeOnline_get (by omega),shown_get,shown_get]
  dsimp only
  by_cases same : number = k
  · subst same
    rw [if_pos rfl,if_pos (by omega),if_pos (by omega)]
    rcases here with absent | set
    · simp [absent]
    · simp [set,Function.comp_def]
  · rw [if_neg same,other k (Ne.symm same)]

section

variable {w} (login : w.me ≤ 699)

include login

theorem changeOnline_some {number : Int} (other : number ≠ 1000) (status : Bool) :
    ∃ online, w.changeOnline number status = some { w with online } ∧
      ({ w with online } : Window).shown = Phonebook.changeOnline w.shown number status := by
  by_cases outside : number < 0 ∨ 1000 < number
  · refine ⟨w.online,if_pos outside,?_⟩
    rw [Phonebook.changeOnline,if_pos outside]
  · have inside : 0 ≤ number ∧ number ≤ 999 := by omega
    rw [changeOnline,if_neg outside,touch_inside inside.1 inside.2,Option.bind_eq_bind,Option.bind_some]
    by_cases absent : w.locals number = none
    · exact ⟨w.online,if_pos absent,w.shown_change inside (fun _ _ => rfl) (.inl absent)⟩
    · rw [if_neg absent]
      by_cases same : status = w.online number
      · exact ⟨w.online,if_pos same,w.shown_change inside (fun _ _ => rfl) (.inr same.symm)⟩
      · rw [if_neg same,touchSelf_some login,ite_self,Option.bind_some]
        exact ⟨_,rfl,w.shown_change inside (fun k apart => Function.update_of_ne apart _ _)
          (.inr (Function.update_self _ _ _))⟩

theorem changeOnline_iff (number : Int) (status : Bool) :
    (w.changeOnline number status).isSome = true ↔ number ≠ 1000 := by
  constructor
  · rintro inside rfl
    rw [changeOnline,if_neg (by decide),touch_end] at inside
    cases inside
  · intro other
    obtain ⟨online,changed,-⟩ := changeOnline_some login other status
    rw [changed]
    rfl

structure Round (w : Window) (status : List UInt8) (first : Int) (i : Nat) : Prop where
  bitmap : i / 8 < status.length
  contact : w.localModel = true → first + i ≠ 1000
  member : w.memberModel = true → 0 ≤ first + i ∧ first + i ≤ 999

theorem changeModel_some {number : Int} (other : w.localModel = true → number ≠ 1000) (status : Bool) :
    ∃ online, w.changeModel number status = some { w with online } ∧
      (w.localModel = true →
        ({ w with online } : Window).shown = Phonebook.changeOnline w.shown number status) := by
  by_cases model : w.localModel = true
  · obtain ⟨online,changed,shown⟩ := changeOnline_some login (other model) status
    exact ⟨online,(if_pos model).trans changed,fun _ => shown⟩
  · exact ⟨w.online,if_neg model,fun present => absurd present model⟩

theorem changeLoop_inside {status : List UInt8} {first : Int} {i : Nat} (round : w.Round status first i)
    (rounds : Nat) : ∃ online,
      changeLoop status (rounds + 1) (i / 8) (maskAt i) (first + i) w =
        changeLoop status rounds ((i + 1) / 8) (maskAt (i + 1)) (first + (i + 1 : Nat)) { w with online } ∧
      (w.localModel = true → ({ w with online } : Window).shown =
        Phonebook.changeOnline w.shown (first + i) (Bitmap.bit status i)) := by
  obtain ⟨byte,there⟩ : ∃ byte, status[i / 8]? = some byte :=
    ⟨_,List.getElem?_eq_getElem round.bitmap⟩
  have bit : decide (byte.toUInt32 &&& maskAt i ≠ 0) = Bitmap.bit status i := by
    have test := test_bit status i
    rwa [List.getD_eq_getElem?_getD,there] at test
  obtain ⟨online,changed,shown⟩ := changeModel_some login round.contact (Bitmap.bit status i)
  have member : ({ w with online } : Window).touchMember (first + i) = some () := by
    rw [touchMember]
    split
    · rename_i model
      exact touch_inside (round.member model).1 (round.member model).2
    · rfl
  have next : first + (i : Int) + 1 = first + (i + 1 : Nat) := by omega
  refine ⟨online,?_,shown⟩
  rw [changeLoop,there,Option.bind_eq_bind,Option.bind_some,bit]
  dsimp only
  rw [changed]
  simp only [member,Option.bind_eq_bind,Option.bind_some]
  rw [next]
  exact mask_round i fun pos mask =>
    changeLoop status rounds pos mask (first + (i + 1 : Nat)) { w with online }

theorem changeLoop_outside {status : List UInt8} {first : Int} {i : Nat} (outside : ¬w.Round status first i)
    (rounds : Nat) : changeLoop status (rounds + 1) (i / 8) (maskAt i) (first + i) w = none := by
  cases there : status[i / 8]? with
  | none => rw [changeLoop,there]; rfl
  | some byte =>
    obtain ⟨bitmap,-⟩ := List.getElem?_eq_some_iff.mp there
    rw [changeLoop,there,Option.bind_eq_bind,Option.bind_some]
    dsimp only
    by_cases contact : w.localModel = true → first + i ≠ 1000
    · obtain ⟨online,changed,-⟩ :=
        changeModel_some login contact (decide (byte.toUInt32 &&& maskAt i ≠ 0))
      have member : ({ w with online } : Window).touchMember (first + i) = none := by
        have model : w.memberModel = true := by
          by_contra absent
          exact outside ⟨bitmap,contact,fun present => absurd present absent⟩
        rw [touchMember,if_pos model,touch,if_neg]
        intro inside
        exact outside ⟨bitmap,contact,fun _ => ⟨inside.1,by omega⟩⟩
      rw [changed]
      simp only [member,Option.bind_eq_bind,Option.bind_some,Option.bind_none]
    · obtain ⟨model,behind⟩ := Classical.not_imp.mp contact
      rw [changeModel,if_pos model,not_not.mp behind]
      rfl

end

theorem changeLoop_iff (login : w.me ≤ 699) (status : List UInt8) (first : Int) (rounds i : Nat) :
    (changeLoop status rounds (i / 8) (maskAt i) (first + i) w).isSome = true ↔
      ∀ j, i ≤ j → j < i + rounds → w.Round status first j := by
  induction rounds generalizing i w with
  | zero => exact iff_of_true rfl fun j low high => by omega
  | succ rounds ih =>
    by_cases round : w.Round status first i
    · obtain ⟨online,next,-⟩ := changeLoop_inside login round rounds
      rw [next,ih (w := { w with online }) login]
      constructor
      · intro later j low high
        rcases Nat.eq_or_lt_of_le low with rfl | above
        · exact round
        · obtain ⟨bitmap,contact,member⟩ := later j (by omega) (by omega)
          exact ⟨bitmap,contact,member⟩
      · intro all j low high
        obtain ⟨bitmap,contact,member⟩ := all j (by omega) (by omega)
        exact ⟨bitmap,contact,member⟩
    · rw [changeLoop_outside login round]
      exact iff_of_false (by simp) fun all => round (all i (Nat.le_refl _) (by omega))

/-- The bitmap has a bit for all but the last extension of the range, and the range stays away
from the end of the table. -/
structure Covers (w : Window) (status : List UInt8) (first last : Int) : Prop where
  bitmap : last - first ≤ 8 * status.length
  contacts : w.localModel = true → ¬(first ≤ 1000 ∧ 1000 < last)
  members : w.memberModel = true → last ≤ first ∨ 0 ≤ first ∧ last ≤ 1000

theorem changeStatus_iff (login : w.me ≤ 699) (status : List UInt8) (first last : Int) :
    (w.changeStatus status first last).isSome = true ↔ w.Covers status first last := by
  have loop := changeLoop_iff w login status first (last - first).toNat 0
  have start : first + ((0 : Nat) : Int) = first := by omega
  rw [start] at loop
  rw [changeStatus,show (1 : UInt32) = maskAt 0 from rfl,show 0 = 0 / 8 from rfl,loop]
  constructor
  · intro rounds
    by_cases empty : last ≤ first
    · exact ⟨by omega,fun _ => by omega,fun _ => .inl empty⟩
    · have begun := rounds 0 (Nat.le_refl _) (by omega)
      have ended := rounds (last - first - 1).toNat (Nat.zero_le _) (by omega)
      refine ⟨?_,fun model inside => ?_,fun model => .inr ?_⟩
      · have := ended.bitmap
        omega
      · exact (rounds (1000 - first).toNat (Nat.zero_le _) (by omega)).contact model (by omega)
      · have := begun.member model
        have := ended.member model
        omega
  · intro covers j _ high
    have bitmap := covers.bitmap
    refine ⟨by omega,fun model => ?_,fun model => ?_⟩
    · have := covers.contacts model
      omega
    · have := covers.members model
      omega

theorem changeLoop_shown (login : w.me ≤ 699) (status : List UInt8) (first : Int) (rounds i : Nat)
    {next : Window} (ends : changeLoop status rounds (i / 8) (maskAt i) (first + i) w = some next) :
    next.toBook = w.toBook ∧ (w.localModel = true →
      next.shown = Phonebook.changeLoop status rounds (i / 8) (maskAt i) (first + i) w.shown) := by
  induction rounds generalizing i w with
  | zero =>
    obtain rfl := Option.some.inj ends
    exact ⟨rfl,fun _ => rfl⟩
  | succ rounds ih =>
    by_cases round : w.Round status first i
    · obtain ⟨online,later,shown⟩ := changeLoop_inside login round rounds
      rw [later] at ends
      obtain ⟨book,all⟩ := ih { w with online } login (i + 1) ends
      refine ⟨book,fun model => ?_⟩
      rw [changeLoop_round,← shown model]
      exact all model
    · rw [changeLoop_outside login round] at ends
      cases ends

/-- What the phonebook shows is what the status says. -/
theorem registered_shown {feed : Feed} {body : UString} {next : Window} (login : w.me ≤ 699)
    (ends : w.registered feed body = some next) : next.toBook = w.toBook ∧
      (w.localModel = true → next.shown = Phonebook.registered w.shown feed body) := by
  rw [registered] at ends
  rw [Phonebook.registered]
  cases signal : (feed.registered body).2 with
  | none =>
    rw [signal] at ends
    obtain rfl := Option.some.inj ends
    exact ⟨rfl,fun _ => rfl⟩
  | some found =>
    obtain ⟨status,first,last⟩ := found
    rw [signal] at ends
    have start : first + ((0 : Nat) : Int) = first := by omega
    have loop : changeLoop status (last - first).toNat (0 / 8) (maskAt 0) (first + (0 : Nat)) w =
        some next := by rwa [start]
    have shown := changeLoop_shown w login status first (last - first).toNat 0 loop
    rwa [start] at shown

theorem registered_iff (login : w.me ≤ 699) (feed : Feed) (body : UString) :
    (w.registered feed body).isSome = true ↔ ∀ status first last,
      (feed.registered body).2 = some (status,first,last) → w.Covers status first last := by
  rw [registered]
  cases signal : (feed.registered body).2 with
  | none => simp
  | some found =>
    obtain ⟨status,first,last⟩ := found
    dsimp only
    rw [changeStatus_iff w login]
    constructor
    · intro covers _ _ _ same
      cases same
      exact covers
    · exact fun all => all status first last rfl

inductive Input where
  | contact (json : Profile)
  | answer (body : UString)
  | view (memberModel : Bool) (session : Int → Bool)

/-- The phonebook and its listener. -/
def step (s : Window × Feed) : Input → Option (Window × Feed)
  | .contact json => (s.1.updateContact toLower json).map fun w => (w,s.2)
  | .answer body => (s.1.registered s.2 body).map fun w => (w,(s.2.registered body).1.feed)
  | .view memberModel session => some ({ s.1 with memberModel, session },s.2)

/-- The contact is in the table, the range under the bitmap and in the table. -/
def Inside (s : Window × Feed) : Input → Prop
  | .contact json => json.s = "remove" ∧ -1 < s.1.removes ∨ json.n ≠ 1000
  | .answer body => ∀ status first last,
      (s.2.registered body).2 = some (status,first,last) → s.1.Covers status first last
  | .view _ _ => True

theorem step_iff {s : Window × Feed} (login : s.1.me ≤ 699) (input : Input) :
    (step toLower s input).isSome = true ↔ Inside s input := by
  cases input with
  | contact json =>
    rw [step,Option.isSome_map]
    exact updateContact_iff toLower login json
  | answer body =>
    rw [step,Option.isSome_map]
    exact registered_iff s.1 login s.2 body
  | view => exact iff_of_true rfl trivial

theorem me_updateContact (b : Book) (json : Profile) : (b.updateContact toLower json).me = b.me := by
  have updated := updateContact_updated toLower b json
  generalize b.updateContact toLower json = next at updated
  cases updated <;> rfl

theorem step_login {s next : Window × Feed} (login : s.1.me ≤ 699) {input : Input}
    (moved : step toLower s input = some next) : next.1.me ≤ 699 := by
  have inside := (step_iff toLower login input).mp (by rw [moved]; rfl)
  cases input with
  | contact json =>
    obtain ⟨w,updated,rfl⟩ := Option.map_eq_some_iff.mp moved
    obtain ⟨other,same,book⟩ := updateContact_eq toLower login json inside
    obtain rfl := Option.some.inj (updated.symm.trans same)
    have me := congrArg Book.me book
    rw [me_updateContact] at me
    exact me.le.trans login
  | answer body =>
    obtain ⟨w,shown,rfl⟩ := Option.map_eq_some_iff.mp moved
    have me := congrArg Book.me (registered_shown s.1 login shown).1
    exact me.le.trans login
  | view =>
    obtain rfl := Option.some.inj moved
    exact login

/-- At any time after the login, what the server sends stays inside the table and the bitmap,
except for a contact at 1000 and a range of extensions that goes on behind the bitmap, over the
contact at 1000, or out of the table while a group is shown. -/
theorem inside_iff (feed : Feed) {reached : Window × Feed}
    {trace : List (Transition.Edge (Window × Feed) Input)} (login : w.me ≤ 699)
    (run : Transition.Run (step toLower) (w,feed) trace reached) :
    (∀ json, (reached.1.updateContact toLower json).isSome = true ↔
      json.s = "remove" ∧ -1 < reached.1.removes ∨ json.n ≠ 1000) ∧
    (∀ number status, (reached.1.changeOnline number status).isSome = true ↔ number ≠ 1000) ∧
    ∀ body, (reached.1.registered reached.2 body).isSome = true ↔ ∀ status first last,
      (reached.2.registered body).2 = some (status,first,last) → reached.1.Covers status first last := by
  have kept : reached.1.me ≤ 699 := run.invariant (fun s => s.1.me ≤ 699)
    (fun _ _ _ login moved => step_login toLower login moved) login
  exact ⟨updateContact_iff toLower kept,changeOnline_iff kept,registered_iff reached.1 kept reached.2⟩

theorem inside_iff_last :
    (∃ w, updateContact UString.toLower { me := 101 } { n := 999 } = some w ∧ (w.changeOnline 999 true).isSome) ∧
    (registered { me := 101, memberModel := true } {}
      (UString.ascii "f=992\nl=1000\na=AQ==\n")).isSome = true := by
  obtain ⟨contact,-⟩ := inside_iff UString.toLower { me := 101 } {} (by decide) .start
  obtain ⟨-,-,answer⟩ := inside_iff UString.toLower { me := 101, memberModel := true } {} (by decide) .start
  obtain ⟨w,updated⟩ := Option.isSome_iff_exists.mp ((contact { n := 999 }).mpr (.inr (by decide)))
  -- and on, in the state that has the contact
  have moved : step UString.toLower ({ me := 101 },{}) (.contact { n := 999 }) = some (w,{}) := by
    rw [step,updated]
    rfl
  obtain ⟨-,online,-⟩ := inside_iff UString.toLower { me := 101 } {} (by decide) (.next .start moved)
  refine ⟨⟨w,updated,(online 999 true).mpr (by decide)⟩,(answer _).mpr ?_⟩
  have signal : (Feed.registered {} (UString.ascii "f=992\nl=1000\na=AQ==\n")).2 = some ([1],992,1000) := by
    decide +kernel
  rintro status first last same
  rw [signal] at same
  cases same
  exact ⟨by decide,fun _ => by decide,fun _ => .inr (by decide)⟩

/-- A contact at 1000, and a range of a hundred extensions with a bitmap of one byte. -/
theorem outside_site : updateContact UString.toLower { me := 101 } { n := 1000 } = none ∧
    changeOnline { me := 101 } 1000 true = none ∧
    registered { me := 101 } {} (UString.ascii "f=100\nl=200\na=AQ==\n") = none := by
  refine ⟨rfl,rfl,?_⟩
  decide +kernel

end Window

end SipWitch.Phonebook
