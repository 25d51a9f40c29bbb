import SipWitch.Mirror
import Mathlib.Data.List.Count

/-! Where the desktop client has pointers to its contacts, and what `removeUser` leaves of
them. Contacts go by their addresses here, in messages too, and a session goes by its
contact. With a storage there are the models of the phonebook and of the sessions. -/
namespace SipWitch.References

open Desktop (MessageItem)

structure View where
  messages : List MessageItem := []
  filtered : List MessageItem := []

structure ContactItem where
  extensionNumber : Int
  uid : Int
  authUserId : UString := []
  displayName : UString := []
  group : Bool := false
  contactMembers : List Int := []
  contactLeader : Option Int := none
  session : Option View := none

structure MemberModel where
  membership : List Int
  nonmembers : List Int := []

@[ext]
structure Memory where
  storage : Bool := true
  /-- The objects that are there. -/
  contact : Int → Option ContactItem := fun _ => none
  locals : Int → Option Int := fun _ => none
  /-- By uid. -/
  index : Int → Option Int := fun _ => none
  users : List Int := []
  groups : List Int := []
  foreign : UString → Option Int := fun _ => none
  activeItem : Option Int := none
  clickedItem : Option Int := none
  memberModel : Option MemberModel := none
  sessions : List Int := []
  /-- The map `groups` of the sessions, by name. -/
  rooms : UString → Option Int := fun _ => none
  /-- The `activeItem` of the sessions. -/
  current : Option Int := none

def highest : Int := 699

def View.remove (view : View) (item : Int) : Option View :=
  (Desktop.removeItems item view.messages view.filtered).map fun (messages,filtered) => { messages, filtered }

def ContactItem.clearMessages (contact : ContactItem) : ContactItem :=
  { contact with session := contact.session.map fun _ => {} }

/-- A member that is listed twice is kept once. -/
def ContactItem.removeMember (entry : ContactItem) (item : Int) : ContactItem := { entry with
  contactLeader := if entry.contactLeader = some item then none else entry.contactLeader
  contactMembers := entry.contactMembers.erase item }

def MemberModel.remove (model : MemberModel) (item : Int) : MemberModel :=
  if item ∈ model.membership then { model with membership := model.membership.erase item }
  else { model with nonmembers := model.nonmembers.erase item }

namespace Memory

variable (s : Memory)

def findAuth (id : UString) : List Int :=
  (List.range 699).filterMap fun (pos : Nat) => (s.locals (pos + 1)).filter fun item =>
    (s.contact item).any fun contact => contact.authUserId = id

def reached (entry : Int) : Bool := (List.range 700).any fun (pos : Nat) => s.locals pos = some entry

def removeIndex (item : Int) (contact : ContactItem) : Memory :=
  let number := contact.extensionNumber
  if number < 1 ∨ 999 < number then s
  else
    let s := { s with
      groups := s.groups.erase item
      users := s.users.erase item
      locals := Function.update s.locals number none
      index := Function.update s.index contact.uid none }
    { s with contact := fun entry =>
        if entry = item then none
        else if s.reached entry then (s.contact entry).map (·.removeMember item)
        else s.contact entry }

def removeContact (item : Int) (contact : ContactItem) : Memory :=
  let number := contact.extensionNumber
  let s := if 0 < number then { s with memberModel := s.memberModel.map (·.remove item) } else s
  let s :=
    if highest < number ∨ number < 0 then s else { s with locals := Function.update s.locals number none }
  s.removeIndex item contact

/-- `SessionModel::remove`, of a session that is listed. -/
def closeSession (item : Int) (contact : ContactItem) : Memory :=
  if item ∈ s.sessions then { s with
    contact := Function.update s.contact item (some { contact with session := none })
    rooms := if contact.group then Function.update s.rooms contact.displayName none else s.rooms
    sessions := s.sessions.erase item }
  else s

/-- `Sessions::remove`: other sessions than the current one are cleared, and there the
messages of the contact are removed. -/
def removeSession (item : Int) (contact : ContactItem) : Option Memory :=
  let s := if contact.session.isSome ∧ s.current = some item then { s with current := none } else s
  let s := if contact.session.isSome then s.closeSession item contact else s
  let s := { s with
    contact := fun other =>
      if other ∈ s.sessions ∧ s.current ≠ some other then (s.contact other).map ContactItem.clearMessages
      else s.contact other }
  match s.current with
  | none => some s
  | some active => do
    let contact ← s.contact active
    let view ← contact.session
    let view ← view.remove item
    return { s with contact := Function.update s.contact active (some { contact with session := some view }) }

def removeItem (item : Int) : Option Memory := do
  let contact ← s.contact item
  let s ← s.removeSession item contact
  return s.removeContact item contact

def removed (id : UString) : List Int := if s.storage then s.findAuth id else []

def removeUser (id : UString) : Option Memory := (s.removed id).foldlM removeItem s

end Memory

section Views

open Desktop

variable {view final : View} {item other : MessageItem} {a r : Int} {rest : List Int}
  {messages filtered kept : List MessageItem}

def free (contacts : List Int) (item : MessageItem) : Bool := contacts.all fun r => !item.attached r

def View.Free (contacts : List Int) (view : View) : Prop :=
  ∀ message, message ∈ view.messages ∨ message ∈ view.filtered → free contacts message = true

/-- The messages in a session are from or to its contact, and whichever of other contacts are
left out, no more of them are on display than there are. -/
structure Kept (contacts : List Int) (a : Int) (view : View) : Prop where
  own : ∀ item ∈ view.messages, item.attached a = true
  shown : ∀ part ⊆ contacts, view.filtered.countP (free part) ≤ view.messages.countP (free part)

/-- A message has two contacts. -/
theorem attached_apart (own : item.attached a = true) (mine : item.attached r = true) (ne : a ≠ r) {x : Int}
    (other : x ≠ r) (foreign : x ≠ a) : item.attached x = false := by
  simp only [MessageItem.attached,Bool.or_eq_true,decide_eq_true_eq] at own mine
  simp only [MessageItem.attached,Bool.or_eq_false_iff,decide_eq_false_iff_not]
  omega

theorem countP_free (own : ∀ item ∈ messages, item.attached a = true) (ne : a ≠ r) (fresh : r ∉ rest)
    (apart : a ∉ rest) : messages.countP (free rest) =
      messages.countP (free (r :: rest)) + messages.countP (MessageItem.attached r) := by
  induction messages with
  | nil => rfl
  | cons item messages ih =>
    have before := ih fun other member => own other (List.mem_cons_of_mem _ member)
    have mine := own item List.mem_cons_self
    rw [List.countP_cons,List.countP_cons,List.countP_cons,before]
    cases here : item.attached r with
    | false => simp [free,here]; omega
    | true =>
      have others : free rest item = true := by
        apply List.all_eq_true.mpr
        intro x member
        rw [attached_apart mine here ne (fun same => fresh (same ▸ member)) fun same => apart (same ▸ member)]
        rfl
      rw [others]
      simp [free,here]
      omega

theorem remove_eq (view : View) (r : Int) : view.remove r =
    (Rows.takeRows ((view.messages.filter (MessageItem.attached r)).map fun _ =>
      view.filtered.findIdx (MessageItem.attached r)) view.messages).map fun kept =>
        { messages := kept.map (MessageItem.mark r), filtered := unattached r view.filtered } := by
  rw [View.remove,removeItems_rows,Option.map_map]
  rfl

theorem attached_mark (x : Int) (item : MessageItem) : (item.mark r).attached x = item.attached x := by
  rw [MessageItem.mark]
  split <;> rfl

theorem free_mark (contacts : List Int) (item : MessageItem) :
    free contacts (item.mark r) = free contacts item := by
  simp only [free,attached_mark]

/-- As many messages are gone as there were of the contact, though they may be others. -/
structure Taken (view : View) (r : Int) (next : View) : Prop where
  origin : ∀ item ∈ next.messages, ∃ old ∈ view.messages, item = old.mark r
  fewer : ∀ p : MessageItem → Bool, (∀ item, p (item.mark r) = p item) →
    next.messages.countP p ≤ view.messages.countP p
  lost : ∀ p : MessageItem → Bool, (∀ item, p (item.mark r) = p item) →
    view.messages.countP p ≤ next.messages.countP p + view.messages.countP (MessageItem.attached r)
  filtered : next.filtered = unattached r view.filtered

theorem remove_taken (removed : view.remove r = some final) : Taken view r final := by
  rw [remove_eq] at removed
  obtain ⟨kept,taken,rfl⟩ := Option.map_eq_some_iff.mp removed
  have counted (p : MessageItem → Bool) (plain : ∀ item, p (item.mark r) = p item) :
      (kept.map (MessageItem.mark r)).countP p = kept.countP p := by
    rw [List.countP_map]
    exact List.countP_congr fun item _ => by simp [plain]
  constructor
  · intro item member
    obtain ⟨old,before,rfl⟩ := List.mem_map.mp member
    exact ⟨old,(Rows.takeRows_sublist taken).subset before,rfl⟩
  · intro p plain
    rw [counted p plain]
    exact (Rows.takeRows_countP taken p).1
  · intro p plain
    have lost := (Rows.takeRows_countP taken p).2
    rw [List.length_map,← List.countP_eq_length_filter] at lost
    rwa [counted p plain]
  · rfl

theorem countP_unattached (contacts : List Int) :
    (unattached r filtered).countP (free contacts) = filtered.countP (free (r :: contacts)) := by
  rw [unattached,List.countP_filter]
  congr 1
  funext item
  simp [free,Bool.and_comm]

/-- The rows are there. -/
theorem Kept.inside {contacts : List Int} (kept : Kept contacts a view) (member : r ∈ contacts) :
    (view.remove r).isSome := by
  have shown := kept.shown [r] (by simpa using member)
  have single : free [r] = fun item => !item.attached r := by
    funext item
    simp [free]
  have row : view.filtered.findIdx (MessageItem.attached r) ≤ _ := Rows.findIdx_le_countP view.filtered
  have all := List.length_eq_countP_add_countP (MessageItem.attached r) (l := view.messages)
  have others : view.messages.countP (fun item => decide ¬item.attached r = true) =
      view.messages.countP fun item => !item.attached r := by simp
  rw [single] at shown
  rw [remove_eq,Option.isSome_map,List.map_const',← List.countP_eq_length_filter]
  cases count : view.messages.countP (MessageItem.attached r) with
  | zero => rfl
  | succ n =>
    rw [Rows.takeRows_replicate,if_pos (by omega)]
    rfl

/-- What is left is in order for the contacts that are still there. -/
theorem Kept.remove (kept : Kept (r :: rest) a view) (removed : view.remove r = some final) (ne : a ≠ r)
    (fresh : r ∉ rest) (apart : a ∉ rest) : Kept rest a final := by
  have taken := remove_taken removed
  constructor
  · intro item member
    obtain ⟨old,before,rfl⟩ := taken.origin item member
    rw [attached_mark]
    exact kept.own old before
  · intro part within
    have lost := taken.lost (free part) (free_mark part)
    have divided :=
      countP_free kept.own ne (fun member => fresh (within member)) fun member => apart (within member)
    have shown := kept.shown (r :: part) (List.cons_subset_cons r within)
    rw [taken.filtered,countP_unattached]
    omega

/-- One after the other, the messages of each contact stand together. -/
def Removable : List Int → List MessageItem → List MessageItem → Prop
  | [],_,_ => True
  | r :: rest,messages,filtered =>
    Adjoining r messages filtered ∧ Removable rest (unattached r messages) (unattached r filtered)

theorem Kept.all {contacts : List Int} (kept : Kept contacts a view) (distinct : contacts.Nodup)
    (apart : a ∉ contacts) : (contacts.foldlM View.remove view).isSome := by
  induction contacts generalizing view with
  | nil => rfl
  | cons r rest ih =>
    obtain ⟨fresh,distinct⟩ := List.nodup_cons.mp distinct
    obtain ⟨ne,apart⟩ := List.ne_and_not_mem_of_not_mem_cons apart
    obtain ⟨next,removed⟩ := Option.isSome_iff_exists.mp (kept.inside List.mem_cons_self)
    rw [List.foldlM_cons,removed]
    exact ih (kept.remove removed ne fresh apart) distinct apart

theorem Kept.after {items contacts : List Int} (kept : Kept (items ++ contacts) a view)
    (distinct : items.Nodup) (others : ∀ r ∈ items, r ∉ contacts) (apart : a ∉ items ++ contacts)
    (removed : items.foldlM View.remove view = some final) : Kept contacts a final := by
  induction items generalizing view with
  | nil =>
    obtain rfl : view = final := Option.some.inj removed
    exact kept
  | cons r rest ih =>
    obtain ⟨fresh,distinct⟩ := List.nodup_cons.mp distinct
    obtain ⟨ne,apart⟩ := List.ne_and_not_mem_of_not_mem_cons apart
    obtain ⟨next,first,later⟩ := Option.bind_eq_some_iff.mp removed
    have absent : r ∉ rest ++ contacts := by simpa [fresh] using others r List.mem_cons_self
    have others (x : Int) (member : x ∈ rest) : x ∉ contacts := others x (List.mem_cons_of_mem _ member)
    exact ih (kept.remove first ne absent apart) distinct others apart later

/-- What is of none of the contacts is not lost on the whole. -/
theorem free_le_length {contacts : List Int} (kept : Kept contacts a view) (distinct : contacts.Nodup)
    (apart : a ∉ contacts) (removed : contacts.foldlM View.remove view = some final) :
    view.messages.countP (free contacts) ≤ final.messages.length := by
  induction contacts generalizing view with
  | nil =>
    obtain rfl : view = final := Option.some.inj removed
    exact List.countP_le_length
  | cons r rest ih =>
    obtain ⟨fresh,distinct⟩ := List.nodup_cons.mp distinct
    obtain ⟨ne,apart⟩ := List.ne_and_not_mem_of_not_mem_cons apart
    obtain ⟨next,first,later⟩ := Option.bind_eq_some_iff.mp removed
    have left := ih (kept.remove first ne fresh apart) distinct apart later
    have lost := (remove_taken first).lost (free rest) (free_mark rest)
    have divided := countP_free kept.own ne fresh apart
    omega

theorem filter_unattached (contacts : List Int) (items : List MessageItem) :
    (unattached r items).filter (free contacts) = items.filter (free (r :: contacts)) := by
  rw [unattached,List.filter_filter]
  congr 1
  funext item
  simp [free,Bool.and_comm]

theorem filter_free_nil (items : List MessageItem) : items.filter (free []) = items :=
  List.filter_eq_self.mpr fun _ _ => rfl

/-- What is on display is removed as it should be. -/
theorem foldlM_filtered {contacts : List Int} (removed : contacts.foldlM View.remove view = some final) :
    final.filtered = view.filtered.filter (free contacts) := by
  induction contacts generalizing view with
  | nil =>
    obtain rfl : view = final := Option.some.inj removed
    exact (filter_free_nil _).symm
  | cons r rest ih =>
    obtain ⟨next,first,later⟩ := Option.bind_eq_some_iff.mp removed
    rw [ih later,(remove_taken first).filtered,filter_unattached]

theorem foldlM_fewer {contacts : List Int} (removed : contacts.foldlM View.remove view = some final)
    (p : MessageItem → Bool) (plain : ∀ r item, p (item.mark r) = p item) :
    final.messages.countP p ≤ view.messages.countP p := by
  induction contacts generalizing view with
  | nil =>
    obtain rfl : view = final := Option.some.inj removed
    exact Nat.le_refl _
  | cons r rest ih =>
    obtain ⟨next,first,later⟩ := Option.bind_eq_some_iff.mp removed
    exact (ih later).trans ((remove_taken first).fewer p (plain r))

theorem removable_foldlM {contacts : List Int} {messages filtered : List MessageItem}
    (removable : Removable contacts messages filtered) :
    contacts.foldlM View.remove { messages, filtered } = some {
      messages := messages.filter (free contacts), filtered := filtered.filter (free contacts) } := by
  induction contacts generalizing messages filtered with
  | nil =>
    rw [filter_free_nil,filter_free_nil]
    rfl
  | cons r rest ih =>
    obtain ⟨adjoining,later⟩ := removable
    rw [List.foldlM_cons,View.remove,removeItems_adjoining adjoining,← filter_unattached,← filter_unattached]
    exact ih later

/-- When none of its messages is left, they stood together. -/
theorem remove_adjoining (removed : view.remove r = some final)
    (none : final.messages.countP (MessageItem.attached r) = 0) :
    Adjoining r view.messages view.filtered ∧ final.messages = unattached r view.messages := by
  rw [remove_eq] at removed
  obtain ⟨kept,taken,rfl⟩ := Option.map_eq_some_iff.mp removed
  have free : ∀ item ∈ kept, (!item.attached r) = true := by
    intro item member
    have apart := List.countP_eq_zero.mp none _ (List.mem_map_of_mem member)
    rw [attached_mark] at apart
    simpa using apart
  have part := (Rows.takeRows_sublist taken).filter fun item => !item.attached r
  rw [List.filter_eq_self.mpr free] at part
  have lengths := Rows.takeRows_length taken
  have all := List.length_eq_countP_add_countP (MessageItem.attached r) (l := view.messages)
  have others : view.messages.countP (fun item => decide ¬item.attached r = true) =
      (view.messages.filter fun item => !item.attached r).length := by
    rw [List.countP_eq_length_filter]
    simp
  rw [List.length_map,← List.countP_eq_length_filter] at lengths
  obtain rfl : kept = unattached r view.messages := part.eq_of_length (by omega)
  exact ⟨Rows.takeRows_one.mp taken,unattached_marked _⟩

/-- No message of the contacts is left exactly when the messages of each stand together. -/
theorem removable_iff {contacts : List Int} (kept : Kept contacts a view) (distinct : contacts.Nodup)
    (apart : a ∉ contacts) (removed : contacts.foldlM View.remove view = some final) :
    (∀ item ∈ final.messages, free contacts item = true) ↔ Removable contacts view.messages view.filtered := by
  constructor
  · intro clean
    induction contacts generalizing view with
    | nil => exact trivial
    | cons r rest ih =>
      obtain ⟨fresh,distinct⟩ := List.nodup_cons.mp distinct
      obtain ⟨ne,apart⟩ := List.ne_and_not_mem_of_not_mem_cons apart
      obtain ⟨next,first,later⟩ := Option.bind_eq_some_iff.mp removed
      have kept' := kept.remove first ne fresh apart
      -- a message of the contact that is left would take the place of one that should be there
      have left := free_le_length kept' distinct apart later
      have divided := countP_free kept'.own ne fresh apart
      have fewer := foldlM_fewer later (free (r :: rest)) fun x => free_mark (r :: rest)
      rw [List.countP_eq_length.mpr clean] at fewer
      obtain ⟨adjoining,messages⟩ := remove_adjoining first (by omega)
      refine ⟨adjoining,?_⟩
      rw [← messages,← (remove_taken first).filtered]
      apply ih kept' distinct apart later
      intro item member
      exact (Bool.and_eq_true_iff.mp (clean item member)).2
  · intro removable item member
    have same : final = _ := Option.some.inj (removed.symm.trans (removable_foldlM removable))
    rw [same] at member
    exact (List.mem_filter.mp member).2

end Views

namespace Memory

variable {s m : Memory} {item other : Int} {contact : ContactItem} {done : List Int} {number : Int}

structure Sound (s : Memory) : Prop where
  seated : ∀ number item, s.locals number = some item →
    ∃ contact, s.contact item = some contact ∧ contact.extensionNumber = number
  indexed : ∀ uid item, s.index uid = some item → ∀ contact, s.contact item = some contact → contact.uid = uid
  users : s.users.Nodup
  groups : s.groups.Nodup
  foreign : ∀ uri item, s.foreign uri = some item → ∀ number, s.locals number ≠ some item
  members : ∀ model, s.memberModel = some model →
    model.nonmembers.Nodup ∧ ∀ item ∈ model.nonmembers, item ∉ model.membership
  sessions : s.sessions.Nodup
  listed : ∀ item ∈ s.sessions, ∃ contact, s.contact item = some contact ∧ contact.session.isSome
  current : ∀ item, s.current = some item → ∃ contact, s.contact item = some contact ∧ contact.session.isSome
  views : ∀ item contact view, s.contact item = some contact → contact.session = some view →
    ∀ contacts : List Int, item ∉ contacts → (∀ other ∈ contacts, (s.contact other).isSome) →
      Kept contacts item view

/-- A contact that is still there, after others were removed. -/
def kept (s : Memory) (done : List Int) (entry : Int) (contact : ContactItem) : ContactItem := { contact with
  contactMembers :=
    if s.reached entry then done.foldl List.erase contact.contactMembers else contact.contactMembers
  contactLeader :=
    if s.reached entry then contact.contactLeader.filter (· ∉ done) else contact.contactLeader
  session :=
    if s.current = some entry then contact.session.bind fun view => done.foldlM View.remove view
    else if entry ∈ s.sessions ∧ done ≠ [] then contact.session.map fun _ => {}
    else contact.session }

/-- The memory after contacts were removed, one after the other. -/
def after (s : Memory) (done : List Int) : Memory := { s with
  contact := fun entry => if entry ∈ done then none else (s.contact entry).map (s.kept done entry)
  locals := fun number => (s.locals number).filter (· ∉ done)
  index := fun uid =>
    if done.any fun item => (s.contact item).any fun contact => contact.uid = uid then none else s.index uid
  users := s.users.filter (· ∉ done)
  groups := s.groups.filter (· ∉ done)
  memberModel := s.memberModel.map (done.foldl MemberModel.remove)
  sessions := s.sessions.filter (· ∉ done)
  rooms := fun name =>
    if done.any fun item => item ∈ s.sessions && (s.contact item).any fun contact =>
      contact.group && contact.displayName = name then none else s.rooms name
  current := s.current.filter (· ∉ done) }

@[simp]
theorem kept_number (done : List Int) (entry : Int) (contact : ContactItem) :
    (s.kept done entry contact).extensionNumber = contact.extensionNumber := by
  simp only [kept]

@[simp]
theorem kept_uid (done : List Int) (entry : Int) (contact : ContactItem) :
    (s.kept done entry contact).uid = contact.uid := by
  simp only [kept]

theorem filter_nil (o : Option Int) : o.filter (· ∉ ([] : List Int)) = o := by
  cases o <;> simp [Option.filter]

theorem kept_nil (entry : Int) (contact : ContactItem) : s.kept [] entry contact = contact := by
  have session : contact.session.bind (List.foldlM View.remove · []) = contact.session := by
    cases contact.session <;> rfl
  simp only [kept,List.foldl_nil,filter_nil,session,ite_self,ne_eq,not_true_eq_false,and_false,if_false]

theorem after_nil : s.after [] = s := by
  have every (l : List Int) : l.filter (· ∉ ([] : List Int)) = l := List.filter_eq_self.mpr fun _ _ => by simp
  ext1
  · rfl
  · funext entry
    have same : s.kept [] entry = id := funext (kept_nil entry)
    simp only [after,List.not_mem_nil,if_false,same,Option.map_id,id]
  · exact funext fun _ => filter_nil _
  · rfl
  · exact every _
  · exact every _
  · rfl
  · rfl
  · rfl
  · cases model : s.memberModel <;> simp [after,model]
  · exact every _
  · rfl
  · exact filter_nil _

/-- The contact's session is gone, and other contacts have the sessions that they are left with. -/
structure Closed (s : Memory) (done : List Int) (item : Int) (m : Memory) : Prop where
  same : m = { s.after done with
    contact := m.contact
    sessions := (s.after (done ++ [item])).sessions
    rooms := (s.after (done ++ [item])).rooms
    current := (s.after (done ++ [item])).current }
  contact : ∀ entry, entry ≠ item → m.contact entry = if entry ∈ done then none else
    (s.contact entry).map fun contact =>
      { s.kept done entry contact with session := (s.kept (done ++ [item]) entry contact).session }

/-- Once a contact was removed, other sessions than the current one are empty. -/
theorem kept_cleared (done : List Int) (item : Int) {entry : Int} (idle : s.current ≠ some entry)
    (contact : ContactItem) :
    (if entry ∈ s.sessions then (s.kept done entry contact).clearMessages else s.kept done entry contact) =
      { s.kept done entry contact with session := (s.kept (done ++ [item]) entry contact).session } := by
  simp only [kept,ContactItem.clearMessages,if_neg idle]
  by_cases listed : entry ∈ s.sessions
  · by_cases none : done = []
    · simp [listed,none]
    · cases contact.session <;> simp [listed,none]
  · simp [listed]

theorem filter_concat {o : Option Int} (apart : o ≠ some item) :
    o.filter (· ∉ done ++ [item]) = o.filter (· ∉ done) := by
  cases o with
  | none => rfl
  | some other =>
    have ne : other ≠ item := fun same => apart (congrArg some same)
    simp [Option.filter,ne]

theorem filter_self : (some item).filter (· ∉ done ++ [item]) = none := by
  simp [Option.filter]

theorem current_closed (fresh : item ∉ done) (contact : ContactItem)
    (running : s.current = some item → contact.session.isSome) :
    (if contact.session.isSome ∧ (s.after done).current = some item then { s.after done with current := none }
      else s.after done) = { s.after done with current := (s.after (done ++ [item])).current } := by
  by_cases current : s.current = some item
  · have active : (s.after done).current = some item := by simp [after,current,Option.filter,fresh]
    have ended : (s.after (done ++ [item])).current = none := by simp only [after,current,filter_self]
    rw [if_pos ⟨running current,active⟩,ended]
  · have idle : (s.after done).current ≠ some item := by
      simp only [after]
      intro active
      exact current (Option.filter_eq_some_iff.mp active).1
    have same : (s.after (done ++ [item])).current = (s.after done).current := filter_concat current
    rw [if_neg fun both => idle both.2,same]

theorem filter_erase {items : List Int} (distinct : items.Nodup) :
    (items.filter (· ∉ done)).erase item = items.filter (· ∉ done ++ [item]) := by
  rw [(distinct.filter _).erase_eq_filter,List.filter_filter]
  congr 1
  funext other
  rw [Bool.eq_iff_iff]
  simp [and_comm]

theorem closeSession_closed (sound : s.Sound) (fresh : item ∉ done) (found : s.contact item = some contact)
    (current : Option Int) (running : item ∈ s.sessions → (s.kept done item contact).session.isSome) :
    ∃ contacts : Int → Option ContactItem,
      (∀ entry, entry ≠ item → contacts entry = (s.after done).contact entry) ∧
      (if (s.kept done item contact).session.isSome then
        { s.after done with current }.closeSession item (s.kept done item contact)
      else { s.after done with current }) =
      { s.after done with
        contact := contacts
        sessions := (s.after (done ++ [item])).sessions
        rooms := (s.after (done ++ [item])).rooms
        current } := by
  by_cases listed : item ∈ s.sessions
  · have here : item ∈ (s.after done).sessions := List.mem_filter.mpr ⟨listed,by simpa using fresh⟩
    have sessions : (s.after done).sessions.erase item = (s.after (done ++ [item])).sessions :=
      filter_erase sound.sessions
    have rooms : (if (s.kept done item contact).group then
        Function.update (s.after done).rooms (s.kept done item contact).displayName none
        else (s.after done).rooms) = (s.after (done ++ [item])).rooms := by
      simp only [kept]
      funext name
      by_cases group : contact.group = true
      · by_cases same : name = contact.displayName
        · subst same
          simp [after,listed,found,group]
        · have other : ¬contact.displayName = name := fun h => same h.symm
          simp [after,listed,found,group,same,other]
      · simp [after,found,group]
    let closed := { s.kept done item contact with session := none }
    refine ⟨Function.update (s.after done).contact item (some closed),?_,?_⟩
    · exact fun entry apart => Function.update_of_ne apart ..
    · rw [if_pos (running listed),closeSession,if_pos here]
      rw [← sessions,← rooms]
  · have gone : item ∉ (s.after done).sessions := fun member => listed (List.mem_filter.mp member).1
    have sessions : (s.after (done ++ [item])).sessions = (s.after done).sessions := by
      apply List.filter_congr
      intro other member
      have ne : other ≠ item := fun same => listed (same ▸ member)
      simp [ne]
    have rooms : (s.after (done ++ [item])).rooms = (s.after done).rooms := by
      funext name
      simp [after,listed]
    refine ⟨(s.after done).contact,fun _ _ => rfl,?_⟩
    have same : { s.after done with current }.closeSession item (s.kept done item contact) =
        { s.after done with current } := if_neg gone
    rw [same,ite_self,sessions,rooms]

theorem filter_member (o : Option Int) :
    (if o.filter (· ∉ done) = some item then none else o.filter (· ∉ done)) =
      o.filter (· ∉ done ++ [item]) := by
  by_cases same : o = some item
  · subst same
    rw [filter_self]
    split
    · rfl
    · rename_i other
      by_cases gone : item ∈ done
      · simp [Option.filter,gone]
      · simp [Option.filter,gone] at other
  · rw [filter_concat same,if_neg fun there => same (Option.filter_eq_some_iff.mp there).1]

theorem kept_concat (done : List Int) (item entry : Int) (contact : ContactItem) :
    (if s.reached entry then
      { s.kept done entry contact with
        session := (s.kept (done ++ [item]) entry contact).session }.removeMember item
    else { s.kept done entry contact with session := (s.kept (done ++ [item]) entry contact).session }) =
      s.kept (done ++ [item]) entry contact := by
  by_cases reached : s.reached entry = true
  · simp only [kept,ContactItem.removeMember,reached,if_true,List.foldl_append,List.foldl_cons,List.foldl_nil]
    rw [filter_member]
  · simp only [kept,reached,Bool.false_eq_true,if_false]

theorem reached_congr {entry : Int} (same : ∀ pos, m.locals pos = some entry ↔ s.locals pos = some entry) :
    m.reached entry = s.reached entry := by
  simp only [reached,same]

theorem locals_closed (sound : s.Sound) (here : s.locals number = some item) (pos : Int) :
    (Function.update (Function.update (s.after done).locals number none) number none) pos =
      (s.after (done ++ [item])).locals pos := by
  by_cases same : pos = number
  · subst same
    simp only [Function.update_self,after,here,filter_self]
  · have apart : s.locals pos ≠ some item := by
      intro there
      obtain ⟨contact,found,first⟩ := sound.seated pos item there
      obtain ⟨contact',found',second⟩ := sound.seated number item here
      obtain rfl := Option.some.inj (found.symm.trans found')
      exact same (first.symm.trans second)
    rw [Function.update_of_ne same,Function.update_of_ne same]
    exact (filter_concat apart).symm

theorem after_locals {entry : Int} (gone : entry ∉ done) (pos : Int) :
    (s.after done).locals pos = some entry ↔ s.locals pos = some entry := by
  simp [after,Option.filter_eq_some_iff,gone]

theorem removeContact_closed (sound : s.Sound) (here : s.locals number = some item) (low : 1 ≤ number)
    (high : number ≤ 699) (found : s.contact item = some contact) (closed : Closed s done item m) :
    m.removeContact item (s.kept done item contact) = s.after (done ++ [item]) := by
  obtain ⟨same,contacts⟩ := closed
  generalize m.contact = memory at same contacts
  subst same
  obtain ⟨contact',found',seat⟩ := sound.seated number item here
  obtain rfl := Option.some.inj (found.symm.trans found')
  have positive : 0 < number := by omega
  have inside : ¬(highest < number ∨ number < 0) := by rw [highest]; omega
  have valid : ¬(number < 1 ∨ 999 < number) := by omega
  simp only [removeContact,removeIndex,kept_number,kept_uid,seat,if_pos positive,if_neg inside,if_neg valid]
  ext1
  · rfl
  · funext entry
    by_cases same : entry = item
    · have absent : (s.after (done ++ [item])).contact entry = none := if_pos (by simp [same])
      exact (if_pos same).trans absent.symm
    · dsimp only
      rw [if_neg same,contacts entry same]
      by_cases gone : entry ∈ done
      · have absent : (s.after (done ++ [item])).contact entry = none := if_pos (List.mem_append_left _ gone)
        rw [absent,if_pos gone,Option.map_none,ite_self]
      · have reached (m : Memory)
            (tables : m.locals =
              Function.update (Function.update (s.after done).locals number none) number none) :
            m.reached entry = s.reached entry := by
          apply reached_congr
          intro pos
          rw [tables,locals_closed sound here pos]
          exact after_locals (by simp [gone,same]) pos
        rw [reached _ rfl]
        have rest : (s.after (done ++ [item])).contact entry =
            (s.contact entry).map (s.kept (done ++ [item]) entry) := if_neg (by simp [gone,same])
        rw [rest,if_neg gone]
        cases s.contact entry with
        | none => simp
        | some contact =>
          refine Eq.trans ?_ (congrArg some (kept_concat done item entry contact))
          split <;> rfl
  · funext pos
    exact locals_closed sound here pos
  · funext pos
    by_cases same : pos = contact.uid
    · subst same
      simp [after,found]
    · have other : ¬contact.uid = pos := fun h => same h.symm
      simp [after,found,same,other]
  · exact filter_erase sound.users
  · exact filter_erase sound.groups
  · rfl
  · rfl
  · rfl
  · simp only [after,Option.map_map,List.foldl_append]
    rfl
  · rfl
  · rfl
  · rfl

/-- Contacts with an extension that is looked at, each of them once. -/
structure Seated (s : Memory) (items : List Int) : Prop where
  distinct : items.Nodup
  seats : ∀ item ∈ items, ∃ number, s.locals number = some item ∧ 1 ≤ number ∧ number ≤ 699

theorem Seated.part {items part : List Int} (seated : s.Seated items) (within : part.Sublist items) :
    s.Seated part :=
  ⟨seated.distinct.sublist within,fun item member => seated.seats item (within.subset member)⟩

theorem Seated.live {items : List Int} (seated : s.Seated items) (sound : s.Sound) (member : item ∈ items) :
    (s.contact item).isSome := by
  obtain ⟨number,here,_⟩ := seated.seats item member
  obtain ⟨contact,found,_⟩ := sound.seated number item here
  rw [found]
  rfl

theorem removed_seated (sound : s.Sound) (id : UString) : s.Seated (s.removed id) := by
  rw [removed]
  split
  · rw [findAuth]
    have distinct : (List.range 699).Nodup := List.nodup_range
    have inside (pos : Nat) : pos ∈ List.range 699 → pos < 699 := List.mem_range.mp
    -- the list of the numbers is not to be computed
    generalize List.range 699 = numbers at distinct inside
    constructor
    · refine List.Nodup.filterMap ?_ distinct
      intro pos pos' item first second
      obtain ⟨contact,found,seat⟩ := sound.seated _ item (Option.filter_eq_some_iff.mp first).1
      obtain ⟨contact',found',seat'⟩ := sound.seated _ item (Option.filter_eq_some_iff.mp second).1
      obtain rfl := Option.some.inj (found.symm.trans found')
      omega
    · intro item member
      obtain ⟨pos,listed,here⟩ := List.mem_filterMap.mp member
      have := inside pos listed
      exact ⟨pos + 1,(Option.filter_eq_some_iff.mp here).1,by omega,by omega⟩
  · exact ⟨List.nodup_nil,fun _ member => nomatch member⟩

/-- The messages of the current session are removed without a crash. -/
theorem Seated.removes {items : List Int} {entry : Int} {view : View} (seated : s.Seated items)
    (sound : s.Sound) (found : s.contact entry = some contact) (has : contact.session = some view)
    (apart : entry ∉ items) :
    (items.foldlM View.remove view).isSome :=
  (sound.views entry contact view found has items apart fun _ => seated.live sound).all seated.distinct apart

theorem kept_current {items : List Int} {entry : Int} (current : s.current = some entry) {view final : View}
    (has : contact.session = some view) (removed : items.foldlM View.remove view = some final) :
    (s.kept items entry contact).session = some final := by
  simp only [kept,if_pos current,has,Option.bind_some,removed]

theorem kept_has {items : List Int} {entry : Int} (sound : s.Sound) (seated : s.Seated items)
    (gone : entry ∉ items) (found : s.contact entry = some contact) (has : contact.session.isSome) :
    (s.kept items entry contact).session.isSome := by
  obtain ⟨view,has⟩ := Option.isSome_iff_exists.mp has
  by_cases current : s.current = some entry
  · obtain ⟨final,removed⟩ := Option.isSome_iff_exists.mp (seated.removes sound found has gone)
    rw [kept_current current has removed]
    rfl
  · simp only [kept,if_neg current]
    split <;> simp [has]

/-- Sessions other than the current one are cleared. -/
theorem cleared_closed {contacts : Int → Option ContactItem}
    (elsewhere : ∀ entry, entry ≠ item → contacts entry = (s.after done).contact entry) {entry : Int}
    (apart : entry ≠ item) (idle : entry ∉ done → s.current ≠ some entry) :
    (if entry ∈ (s.after (done ++ [item])).sessions ∧ (s.after (done ++ [item])).current ≠ some entry then
      (contacts entry).map ContactItem.clearMessages else contacts entry) =
    if entry ∈ done then none else (s.contact entry).map fun contact =>
      { s.kept done entry contact with session := (s.kept (done ++ [item]) entry contact).session } := by
  rw [elsewhere entry apart]
  by_cases gone : entry ∈ done
  · simp [after,gone]
  · have other : (s.after (done ++ [item])).current ≠ some entry :=
      fun active => idle gone (Option.filter_eq_some_iff.mp active).1
    have member : entry ∈ (s.after (done ++ [item])).sessions ↔ entry ∈ s.sessions := by
      simp [after,gone,apart]
    simp only [member,other,ne_eq,not_false_eq_true,and_true]
    have here : (s.after done).contact entry = (s.contact entry).map (s.kept done entry) := if_neg gone
    rw [here,if_neg gone]
    cases s.contact entry with
    | none => simp
    | some contact =>
      have cleared := kept_cleared done item (idle gone) contact
      simp only [Option.map_some,← cleared]
      split <;> rfl

theorem removeSession_closed (sound : s.Sound) (seated : s.Seated (done ++ [item]))
    (found : s.contact item = some contact) (fresh : item ∉ done) :
    ∃ m, (s.after done).removeSession item (s.kept done item contact) = some m ∧ Closed s done item m := by
  have earlier := seated.part (List.sublist_append_left done [item])
  have has (session : ∃ contact, s.contact item = some contact ∧ contact.session.isSome) :
      (s.kept done item contact).session.isSome := by
    obtain ⟨contact',found',has⟩ := session
    obtain rfl := Option.some.inj (found.symm.trans found')
    exact kept_has sound earlier fresh found has
  obtain ⟨contacts,elsewhere,closed⟩ := closeSession_closed sound fresh found
    (s.after (done ++ [item])).current fun listed => has (sound.listed item listed)
  have others (entry : Int) (apart : entry ≠ item) := cleared_closed elsewhere apart
  simp only [removeSession,current_closed fresh (s.kept done item contact) fun current =>
    has (sound.current item current),closed]
  generalize left : (s.after (done ++ [item])).current = current at closed others ⊢
  cases current with
  | none =>
    refine ⟨_,rfl,⟨by rw [left],fun entry apart => others entry apart fun gone current => ?_⟩⟩
    simp [after,current,Option.filter,gone,apart] at left
  | some active =>
    obtain ⟨current,staying⟩ := Option.filter_eq_some_iff.mp left
    obtain ⟨gone,apart⟩ : active ∉ done ∧ active ≠ item := by simpa using staying
    obtain ⟨contact',found',has⟩ := sound.current active current
    obtain ⟨view,has⟩ := Option.isSome_iff_exists.mp has
    obtain ⟨before,removed⟩ := Option.isSome_iff_exists.mp (earlier.removes sound found' has gone)
    obtain ⟨final,ended⟩ :=
      Option.isSome_iff_exists.mp (seated.removes sound found' has (by simp [gone,apart]))
    have last : before.remove item = some final := by
      rw [List.foldlM_append,removed] at ended
      simpa using ended
    have here : contacts active = some (s.kept done active contact') := by
      rw [elsewhere active apart]
      simp [after,gone,found']
    have session := kept_current current has removed
    have session' := kept_current current has ended
    simp only [ne_eq,not_true_eq_false,and_false,if_false,here,Option.bind_eq_bind,Option.bind_some,session,
      last]
    refine ⟨_,rfl,⟨by rw [left],fun entry apart => ?_⟩⟩
    by_cases same : entry = active
    · subst same
      simp only [Function.update_self,if_neg gone,found',Option.map_some,session']
    · simp only [Function.update_of_ne same]
      exact others entry apart fun _ chosen => same (Option.some.inj (chosen.symm.trans current))

theorem removeItem_after (sound : s.Sound) (seated : s.Seated (done ++ [item])) :
    (s.after done).removeItem item = some (s.after (done ++ [item])) := by
  obtain ⟨number,here,low,high⟩ := seated.seats item (by simp)
  obtain ⟨contact,found,_⟩ := sound.seated number item here
  have fresh : item ∉ done := by
    have distinct := List.nodup_append.mp seated.distinct
    exact fun member => distinct.2.2 item member item (by simp) rfl
  have live : (s.after done).contact item = some (s.kept done item contact) := by
    simp [after,fresh,found]
  obtain ⟨m,closes,closed⟩ := removeSession_closed sound seated found fresh
  rw [removeItem,live,Option.bind_eq_bind,Option.bind_some,closes]
  exact congrArg some (removeContact_closed sound here low high found closed)

theorem foldlM_after (sound : s.Sound) {rest : List Int} (seated : s.Seated (done ++ rest)) :
    rest.foldlM removeItem (s.after done) = some (s.after (done ++ rest)) := by
  induction rest generalizing done with
  | nil => rw [List.append_nil,List.foldlM_nil,Option.pure_def]
  | cons item rest ih =>
    rw [List.append_cons] at seated ⊢
    rw [List.foldlM_cons,removeItem_after sound (seated.part (List.sublist_append_left ..))]
    exact ih seated

theorem removeUser_after (sound : s.Sound) (id : UString) :
    s.removeUser id = some (s.after (s.removed id)) := by
  have seated : s.Seated ([] ++ s.removed id) := removed_seated sound id
  have all := foldlM_after sound seated
  rw [after_nil,List.nil_append] at all
  rw [removeUser,all]

/-- No pointer to one of the contacts is left. -/
structure Forgotten (s : Memory) (items : List Int) : Prop where
  locals : ∀ number, ∀ item ∈ items, s.locals number ≠ some item
  index : ∀ uid, ∀ item ∈ items, s.index uid ≠ some item
  users : ∀ item ∈ items, item ∉ s.users
  groups : ∀ item ∈ items, item ∉ s.groups
  foreign : ∀ uri, ∀ item ∈ items, s.foreign uri ≠ some item
  members : ∀ entry contact, s.contact entry = some contact → ∀ item ∈ items,
    item ∉ contact.contactMembers ∧ contact.contactLeader ≠ some item
  activeItem : ∀ item ∈ items, s.activeItem ≠ some item
  clickedItem : ∀ item ∈ items, s.clickedItem ≠ some item
  memberModel : ∀ model, s.memberModel = some model → ∀ item ∈ items,
    item ∉ model.membership ∧ item ∉ model.nonmembers
  sessions : ∀ item ∈ items, item ∉ s.sessions
  rooms : ∀ name, ∀ item ∈ items, s.rooms name ≠ some item
  current : ∀ item ∈ items, s.current ≠ some item
  messages : ∀ entry contact view, s.contact entry = some contact → contact.session = some view →
    view.Free items

/-- `removeUser` returns, and has left no pointer to a contact that it removed. -/
def Clean (s : Memory) (id : UString) : Prop :=
  ∃ final, s.removeUser id = some final ∧ final.Forgotten (s.removed id)

/-- The pointers that there are to the contacts of a user are all ones that `removeUser` finds. -/
structure Covered (s : Memory) (items : List Int) : Prop where
  /-- The first of its mentions is taken from a list of members. -/
  members : ∀ entry contact, s.contact entry = some contact → entry ∉ items → s.reached entry = true →
    ∀ item ∈ items, contact.contactMembers.count item ≤ 1
  /-- Lists of members past the highest extension are not searched. -/
  beyond : ∀ entry contact, s.contact entry = some contact → entry ∉ items → s.reached entry = false →
    ∀ item ∈ items, item ∉ contact.contactMembers ∧ contact.contactLeader ≠ some item
  activeItem : ∀ item ∈ items, s.activeItem ≠ some item
  clickedItem : ∀ item ∈ items, s.clickedItem ≠ some item
  memberModel : ∀ model, s.memberModel = some model → ∀ item ∈ items, model.membership.count item ≤ 1
  /-- A group is found by the name that it has now. -/
  rooms : ∀ name, ∀ item ∈ items, s.rooms name = some item → ∃ other ∈ items, other ∈ s.sessions ∧
    ∃ contact, s.contact other = some contact ∧ contact.group = true ∧ contact.displayName = name
  current : ∀ entry contact view, s.current = some entry → entry ∉ items → s.contact entry = some contact →
    contact.session = some view → Removable items view.messages view.filtered
  /-- A session that is not listed is not cleared. -/
  unlisted : ∀ entry contact view, s.current ≠ some entry → entry ∉ s.sessions → entry ∉ items →
    s.contact entry = some contact → contact.session = some view → view.Free items

theorem foldl_erase {items list : List Int} (distinct : items.Nodup) (member : item ∈ items) :
    item ∉ items.foldl List.erase list ↔ list.count item ≤ 1 := by
  have once := List.count_eq_one_of_mem distinct member
  rw [← List.diff_eq_foldl,← List.count_eq_zero,List.count_diff,once]
  omega

theorem remove_apart {model : MemberModel} (apart : ∀ x ∈ model.nonmembers, x ∉ model.membership) :
    model.remove item = ⟨model.membership.erase item,model.nonmembers.erase item⟩ := by
  rw [MemberModel.remove]
  split
  · rename_i member
    rw [List.erase_of_not_mem fun other => apart item other member]
  · rename_i absent
    rw [List.erase_of_not_mem absent]

theorem foldl_remove {model : MemberModel} (apart : ∀ x ∈ model.nonmembers, x ∉ model.membership)
    (items : List Int) : items.foldl MemberModel.remove model =
      ⟨items.foldl List.erase model.membership,items.foldl List.erase model.nonmembers⟩ := by
  induction items generalizing model with
  | nil => rfl
  | cons item rest ih =>
    rw [List.foldl_cons,remove_apart apart,ih]
    · rfl
    · exact fun x member there => apart x (List.mem_of_mem_erase member) (List.mem_of_mem_erase there)

section Forgotten

variable {items : List Int} {entry : Int}

theorem after_contact {left : ContactItem} : (s.after items).contact entry = some left ↔
    entry ∉ items ∧ ∃ contact, s.contact entry = some contact ∧ s.kept items entry contact = left := by
  by_cases gone : entry ∈ items
  · simp [after,gone]
  · simp [after,gone,Option.map_eq_some_iff]

theorem filter_gone {o : Option Int} (member : item ∈ items) : o.filter (· ∉ items) ≠ some item :=
  fun there => by simpa [member] using (Option.filter_eq_some_iff.mp there).2

theorem mem_gone {list : List Int} (member : item ∈ items) : item ∉ list.filter (· ∉ items) :=
  fun there => by simpa [member] using (List.mem_filter.mp there).2

/-- Of the extensions that are searched, a member that is listed once is forgotten. -/
theorem kept_members (distinct : items.Nodup) (member : item ∈ items) (reached : s.reached entry = true) :
    (item ∉ (s.kept items entry contact).contactMembers ∧
      (s.kept items entry contact).contactLeader ≠ some item) ↔ contact.contactMembers.count item ≤ 1 := by
  simp only [kept,if_pos reached]
  rw [foldl_erase distinct member]
  exact and_iff_left (filter_gone member)

theorem kept_beyond (items : List Int) (contact : ContactItem) (beyond : s.reached entry = false) :
    (s.kept items entry contact).contactMembers = contact.contactMembers ∧
      (s.kept items entry contact).contactLeader = contact.contactLeader := by
  simp only [kept,beyond,Bool.false_eq_true,if_false,and_self]

theorem kept_session (current : s.current = some entry) {final : View}
    (has : (s.kept items entry contact).session = some final) :
    ∃ view, contact.session = some view ∧ items.foldlM View.remove view = some final := by
  simp only [kept,if_pos current] at has
  exact Option.bind_eq_some_iff.mp has

theorem kept_listed (idle : s.current ≠ some entry) (listed : entry ∈ s.sessions) (some_ : items ≠ []) :
    (s.kept items entry contact).session = contact.session.map fun _ => {} := by
  simp only [kept,if_neg idle,if_pos (And.intro listed some_)]

theorem kept_unlisted (idle : s.current ≠ some entry) (unlisted : entry ∉ s.sessions) :
    (s.kept items entry contact).session = contact.session := by
  simp only [kept,if_neg idle,unlisted,false_and,if_false]

theorem after_index (sound : s.Sound) (seated : s.Seated items) (uid : Int) (member : item ∈ items) :
    (s.after items).index uid ≠ some item := by
  intro there
  obtain ⟨contact,found⟩ := Option.isSome_iff_exists.mp (seated.live sound member)
  simp only [after] at there
  split at there
  · exact nomatch there
  · rename_i absent
    have same := sound.indexed uid item there contact found
    apply absent
    exact List.any_eq_true.mpr ⟨item,member,by simp [found,same]⟩

theorem after_rooms {name : UString} : (s.after items).rooms name = some item ↔
    s.rooms name = some item ∧ ¬∃ other ∈ items, other ∈ s.sessions ∧
      ∃ contact, s.contact other = some contact ∧ contact.group = true ∧ contact.displayName = name := by
  have same : (items.any fun item => item ∈ s.sessions && (s.contact item).any fun contact =>
        contact.group && contact.displayName = name) = true ↔
      ∃ other ∈ items, other ∈ s.sessions ∧
        ∃ contact, s.contact other = some contact ∧ contact.group = true ∧ contact.displayName = name := by
    simp [Option.any_eq_true]
  simp only [after,same]
  split
  · rename_i named
    simp [named]
  · rename_i other
    simp [other]

/-- What is left of the model of members. -/
theorem after_model (sound : s.Sound) {model : MemberModel} (there : s.memberModel = some model)
    (seated : s.Seated items) (member : item ∈ items) :
    (item ∉ (items.foldl MemberModel.remove model).membership ∧
      item ∉ (items.foldl MemberModel.remove model).nonmembers) ↔ model.membership.count item ≤ 1 := by
  obtain ⟨distinct,apart⟩ := sound.members model there
  rw [foldl_remove apart,foldl_erase seated.distinct member,foldl_erase seated.distinct member]
  exact and_iff_left (List.nodup_iff_count_le_one.mp distinct item)

/-- On display nothing is left, and of the messages it is a matter of where they stand. -/
theorem free_current (sound : s.Sound) (seated : s.Seated items) (gone : entry ∉ items)
    (found : s.contact entry = some contact) {view final : View} (has : contact.session = some view)
    (removed : items.foldlM View.remove view = some final) :
    final.Free items ↔ Removable items view.messages view.filtered := by
  have kept := sound.views entry contact view found has items gone fun _ => seated.live sound
  rw [← removable_iff kept seated.distinct gone removed]
  constructor
  · exact fun free message member => free message (.inl member)
  · intro free message member
    rcases member with member | member
    · exact free message member
    · rw [foldlM_filtered removed] at member
      exact (List.mem_filter.mp member).2

/-- The sessions that are listed and not the current one have no messages. -/
theorem free_listed (idle : s.current ≠ some entry) (listed : entry ∈ s.sessions) {final : View}
    (has : (s.kept items entry contact).session = some final) : final.Free items := by
  intro message member
  by_cases none : items = []
  · rw [none]
    rfl
  · rw [kept_listed idle listed none] at has
    obtain ⟨view,_,rfl⟩ := Option.map_eq_some_iff.mp has
    rcases member with member | member <;> exact nomatch member

theorem forgotten_of_covered (sound : s.Sound) (seated : s.Seated items) (covered : s.Covered items) :
    (s.after items).Forgotten items where
  locals number item member := filter_gone member
  index uid item member := after_index sound seated uid member
  users item member := mem_gone member
  groups item member := mem_gone member
  foreign uri item member there := by
    obtain ⟨number,here,_⟩ := seated.seats item member
    exact sound.foreign uri item there number here
  members entry left found item member := by
    obtain ⟨gone,contact,before,rfl⟩ := after_contact.mp found
    cases reached : s.reached entry with
    | true =>
      exact (kept_members seated.distinct member reached).mpr
        (covered.members entry contact before gone reached item member)
    | false =>
      obtain ⟨members,leader⟩ := kept_beyond items contact reached
      rw [members,leader]
      exact covered.beyond entry contact before gone reached item member
  activeItem := covered.activeItem
  clickedItem := covered.clickedItem
  memberModel left there item member := by
    obtain ⟨model,before,rfl⟩ := Option.map_eq_some_iff.mp there
    exact (after_model sound before seated member).mpr (covered.memberModel model before item member)
  sessions item member := mem_gone member
  rooms name item member there := by
    obtain ⟨before,absent⟩ := after_rooms.mp there
    exact absent (covered.rooms name item member before)
  current item member := filter_gone member
  messages entry left view found has := by
    obtain ⟨gone,contact,before,rfl⟩ := after_contact.mp found
    by_cases current : s.current = some entry
    · obtain ⟨old,had,removed⟩ := kept_session current has
      exact (free_current sound seated gone before had removed).mpr
        (covered.current entry contact old current gone before had)
    · by_cases listed : entry ∈ s.sessions
      · exact free_listed current listed has
      · rw [kept_unlisted current listed] at has
        exact covered.unlisted entry contact view current listed gone before has

theorem covered_of_forgotten (sound : s.Sound) (seated : s.Seated items)
    (clean : (s.after items).Forgotten items) : s.Covered items where
  members entry contact found gone reached item member :=
    (kept_members seated.distinct member reached).mp
      (clean.members entry _ (after_contact.mpr ⟨gone,contact,found,rfl⟩) item member)
  beyond entry contact found gone reached item member := by
    have free := clean.members entry _ (after_contact.mpr ⟨gone,contact,found,rfl⟩) item member
    obtain ⟨members,leader⟩ := kept_beyond items contact reached
    rwa [members,leader] at free
  activeItem := clean.activeItem
  clickedItem := clean.clickedItem
  memberModel model there item member :=
    (after_model sound there seated member).mp
      (clean.memberModel _ (Option.map_eq_some_iff.mpr ⟨model,there,rfl⟩) item member)
  rooms name item member there := by
    by_contra absent
    exact clean.rooms name item member (after_rooms.mpr ⟨there,absent⟩)
  current entry contact view current gone found has := by
    obtain ⟨final,removed⟩ := Option.isSome_iff_exists.mp (seated.removes sound found has gone)
    exact (free_current sound seated gone found has removed).mp (clean.messages entry _ final
      (after_contact.mpr ⟨gone,contact,found,rfl⟩) (kept_current current has removed))
  unlisted entry contact view idle listed gone found has := by
    apply clean.messages entry _ view (after_contact.mpr ⟨gone,contact,found,rfl⟩)
    rwa [kept_unlisted idle listed]

theorem Sound.after (sound : s.Sound) (seated : s.Seated items) : (s.after items).Sound where
  seated number item here := by
    obtain ⟨here,staying⟩ := Option.filter_eq_some_iff.mp here
    obtain ⟨contact,found,seat⟩ := sound.seated number item here
    refine ⟨_,after_contact.mpr ⟨by simpa using staying,contact,found,rfl⟩,?_⟩
    rw [kept_number,seat]
  indexed uid item here left found := by
    obtain ⟨gone,contact,before,rfl⟩ := after_contact.mp found
    simp only [Memory.after] at here
    split at here
    · exact nomatch here
    · rw [kept_uid]
      exact sound.indexed uid item here contact before
  users := sound.users.filter _
  groups := sound.groups.filter _
  foreign uri item there number here := by
    obtain ⟨here,_⟩ := Option.filter_eq_some_iff.mp here
    exact sound.foreign uri item there number here
  members left there := by
    obtain ⟨model,before,rfl⟩ := Option.map_eq_some_iff.mp there
    obtain ⟨distinct,apart⟩ := sound.members model before
    rw [foldl_remove apart,← List.diff_eq_foldl,← List.diff_eq_foldl]
    exact ⟨distinct.diff,fun item member there =>
      apart item (List.diff_subset _ _ member) (List.diff_subset _ _ there)⟩
  sessions := sound.sessions.filter _
  listed item member := by
    obtain ⟨member,staying⟩ := List.mem_filter.mp member
    obtain ⟨contact,found,has⟩ := sound.listed item member
    have gone : item ∉ items := by simpa using staying
    exact ⟨_,after_contact.mpr ⟨gone,contact,found,rfl⟩,kept_has sound seated gone found has⟩
  current item there := by
    obtain ⟨there,staying⟩ := Option.filter_eq_some_iff.mp there
    obtain ⟨contact,found,has⟩ := sound.current item there
    have gone : item ∉ items := by simpa using staying
    exact ⟨_,after_contact.mpr ⟨gone,contact,found,rfl⟩,kept_has sound seated gone found has⟩
  views item left final found has contacts apart live := by
    obtain ⟨gone,contact,before,rfl⟩ := after_contact.mp found
    have alive (other : Int) (member : other ∈ contacts) : other ∉ items ∧ (s.contact other).isSome := by
      obtain ⟨left,there⟩ := Option.isSome_iff_exists.mp (live other member)
      obtain ⟨staying,contact,found,_⟩ := after_contact.mp there
      exact ⟨staying,by simp [found]⟩
    by_cases current : s.current = some item
    · obtain ⟨view,had,removed⟩ := kept_session current has
      have apart : item ∉ items ++ contacts := by simp [gone,apart]
      have all := sound.views item contact view before had (items ++ contacts) apart fun other member =>
        (List.mem_append.mp member).elim (seated.live sound) fun member => (alive other member).2
      exact all.after seated.distinct (fun r here member => (alive r member).1 here) apart removed
    · have same (had : contact.session = some final) : Kept contacts item final :=
        sound.views item contact final before had contacts apart fun other member => (alive other member).2
      by_cases cleared : item ∈ s.sessions ∧ items ≠ []
      · simp only [kept,if_neg current,if_pos cleared] at has
        obtain ⟨view,_,rfl⟩ := Option.map_eq_some_iff.mp has
        exact ⟨fun _ member => absurd member List.not_mem_nil,fun _ _ => Nat.le_refl _⟩
      · simp only [kept,if_neg current,if_neg cleared] at has
        exact same has

theorem removeUser_sound (sound : s.Sound) {id : UString} {final : Memory}
    (removed : s.removeUser id = some final) : final.Sound := by
  obtain rfl := Option.some.inj ((removeUser_after sound id).symm.trans removed)
  exact sound.after (removed_seated sound id)

end Forgotten

end Memory

structure Client extends Memory where
  sound : toMemory.Sound

/-- `removeUser` forgets the contacts of a user exactly when it knows where they are. -/
theorem Client.contacts_forgotten (s : Client) (id : UString) : s.Clean id ↔ s.Covered (s.removed id) := by
  have seated := Memory.removed_seated s.sound id
  have runs := Memory.removeUser_after s.sound id
  constructor
  · rintro ⟨final,removed,clean⟩
    obtain rfl := Option.some.inj (runs.symm.trans removed)
    exact Memory.covered_of_forgotten s.sound seated clean
  · exact fun covered => ⟨_,runs,Memory.forgotten_of_covered s.sound seated covered⟩

/-- An administrator who has selected an extension, whose user is then de-authorized. -/
def selected : Memory where
  contact entry := if entry = 1 then some {
    extensionNumber := 150, uid := 7, authUserId := "carol", displayName := "Carol" } else none
  locals number := if number = 150 then some 1 else none
  index uid := if uid = 7 then some 1 else none
  users := [1]
  activeItem := some 1
  clickedItem := some 1

theorem selected_sound : selected.Sound where
  seated number item here := by
    obtain ⟨rfl,rfl⟩ : number = 150 ∧ 1 = item := by simpa [selected] using here
    exact ⟨_,rfl,rfl⟩
  indexed uid item here contact found := by
    obtain ⟨rfl,rfl⟩ : uid = 7 ∧ 1 = item := by simpa [selected] using here
    obtain rfl := Option.some.inj found
    rfl
  users := by decide
  groups := by decide
  foreign _ _ there := nomatch there
  members _ there := nomatch there
  sessions := by decide
  listed _ member := nomatch member
  current _ there := nomatch there
  views item contact view found has := by
    obtain ⟨rfl,rfl⟩ : item = 1 ∧ _ = contact := by simpa [selected] using found
    exact nomatch has

/-- The selection in the phonebook stays where it was. -/
theorem selection_dangles : ¬∀ (s : Client) (id : UString), s.Clean id := by
  intro all
  obtain ⟨final,removed,forgotten⟩ := all ⟨selected,selected_sound⟩ "carol"
  obtain rfl := Option.some.inj ((Memory.removeUser_after selected_sound _).symm.trans removed)
  have gone : 1 ∈ selected.removed "carol" := by decide +kernel
  exact forgotten.activeItem 1 gone rfl

end SipWitch.References
