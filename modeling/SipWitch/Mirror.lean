import SipWitch.MessageModel
import SipWitch.Convergence

/-! The messages that a session has in memory, next to the rows that are stored for it, and
the list `filtered` of what is on display. Messages are received and sent, sessions are
opened and searched, the expiration is changed and other contacts are removed. -/
namespace SipWitch.Desktop

open Transition ContactState

structure Screen where
  desk : Desktop
  filtered : Int → List MessageItem := fun _ => []
  /-- The latest time at which messages were loaded. -/
  clock : Int

def MessageItem.attached (contact : Int) (item : MessageItem) : Bool :=
  item.msgFrom = contact || item.msgTo = contact

def MessageItem.mark (contact : Int) (item : MessageItem) : MessageItem :=
  if item.attached contact then { item with saved := false } else item

def removeItems (contact : Int) (messages filtered : List MessageItem) :
    Option (List MessageItem × List MessageItem) := do
  let removes := Rows.collect (MessageItem.attached contact) filtered 0
  let shown ← Rows.takeRows removes (filtered.map (MessageItem.mark contact))
  let row := removes.getLast?.getD filtered.length
  let kept ← Rows.takeRows ((messages.filter (MessageItem.attached contact)).map fun _ => row)
    (messages.map (MessageItem.mark contact))
  return (kept,shown)

namespace Screen

variable (s : Screen)

def display (uid : Int) (shown : List MessageItem) : Screen :=
  { s with filtered := Function.update s.filtered uid shown }

/-- A message is added to both lists, if it is added at all. -/
def receiveText (arrival : Arrival) : Screen :=
  let next := { s with desk := s.desk.receiveText arrival }
  match s.desk.delivery arrival with
  | some (uid,item) =>
    if s.desk.messages.Admits (rowOf uid item) ∧
        ((s.desk.session? uid).any SessionItem.loaded ∨ s.desk.activeItem = some uid) then
      next.display uid (insertItem (s.filtered uid) { item with saved := true })
    else next
  | none => next

def finishInput (sent : Option Sent) : Screen :=
  let next := { s with desk := s.desk.finishInput sent }
  match s.desk.inputSession,sent with
  | some uid,some sent =>
    let (_,item) := s.desk.save uid (s.desk.submitted uid sent)
    next.display uid (insertItem (s.filtered uid) item)
  | _,_ => next

/-- All of the messages are on display, and those that are loaded then. -/
def activateSession (uid now : Int) : Screen :=
  let shown := s.desk.items uid
  let shown :=
    if (s.desk.session? uid).any SessionItem.loaded then shown
    else (s.desk.records uid now).foldl insertItem shown
  { s.display uid shown with desk := s.desk.activateSession uid now, clock := max s.clock now }

def activateContact (uid now : Int) : Screen :=
  if s.desk.isSelf uid then { s with desk := s.desk.activateSelf }
  else { s with desk := s.desk.modify uid ContactState.opened }.activateSession uid now

/-- Every row gets a new date, and the sessions are cleared. -/
def changeExpiration (expires : Int) : Screen := { s with
  desk := { s.desk with
    expiration := expires
    messages := s.desk.messages.update (fun row => { row with expires := row.posted + expires * 1000 })
      fun _ => rfl }.clearSessions
  filtered := fun uid => if (s.desk.session? uid).any SessionItem.listed then [] else s.filtered uid }

/-- What is found depends on the texts and on what has expired or is hidden. -/
def search (found : MessageItem → Bool) : Screen :=
  match s.desk.activeItem with
  | some uid => s.display uid ((s.desk.items uid).filter found)
  | none => s

def cleared (activeItem : Option Int) (uid : Int) : Bool :=
  (s.desk.session? uid).any SessionItem.listed && activeItem ≠ some uid

/-- The rows of the contact and its session are gone, and other sessions are cleared. -/
def without (uid : Int) (activeItem : Option Int) : Screen := { s with
  desk := { s.desk with
    contacts := s.desk.contacts.delete fun contact => contact.uid = uid
    messages := s.desk.messages.delete fun row => row.sid = uid
    activeItem
    inputGone := s.desk.inputGone || s.desk.inputItem = some uid
    state := fun other =>
      if other = uid then {}
      else if s.cleared activeItem other then (s.desk.state other).onSession SessionItem.clearMessages
      else s.desk.state other }
  filtered := fun other => if other = uid || s.cleared activeItem other then [] else s.filtered other }

def remove (uid : Int) : Option Screen :=
  let activeItem := if s.desk.activeItem = some uid then none else s.desk.activeItem
  let next := s.without uid activeItem
  match activeItem with
  | some active => do
    let (messages,filtered) ← removeItems uid (s.desk.items active) (s.filtered active)
    return { next.display active filtered with
      desk := next.desk.modify active (·.onSession fun session => { session with messages }) }
  | none => some next

inductive Move where
  | receiveText (arrival : Arrival)
  | createMessage
  | finishInput (sent : Option Sent)
  | activateContact (uid now : Int)
  | selectSession (uid now : Int)
  | activateSelf
  | changeExpiration (expires : Int)
  | remove (uid : Int)
  | search (found : MessageItem → Bool)

def step : Move → Option Screen
  | .receiveText arrival => some (s.receiveText arrival)
  | .createMessage =>
    if s.desk.activeItem = none then none
    else some { s with desk := s.desk.createMessage }
  | .finishInput sent => some (s.finishInput sent)
  | .activateContact uid now => if s.desk.hasContact uid then some (s.activateContact uid now) else none
  | .selectSession uid now =>
    if (s.desk.session? uid).any SessionItem.listed then some (s.activateSession uid now) else none
  | .activateSelf => some { s with desk := s.desk.activateSelf }
  | .changeExpiration expires => some (s.changeExpiration expires)
  | .remove uid => s.remove uid
  | .search found => some (s.search found)

end Screen

section Order

variable {items part : List MessageItem} {item : MessageItem}

/-- None goes before one that stands ahead of it. -/
def InOrder (items : List MessageItem) : Prop := items.Pairwise fun a b => ¬b.Before a

theorem InOrder.split (order : InOrder items) (item : MessageItem) :
    Rows.Split (fun last => decide (last.Before item)) items := by
  apply order.imp
  intro a b ordered goes
  rw [decide_eq_true_iff] at goes ⊢
  simp only [MessageItem.Before] at goes ordered ⊢
  omega

/-- The item goes after all of those that are before it. -/
theorem insertItem_split (order : InOrder items) : insertItem items item =
    items.filter (fun last => decide (last.Before item)) ++
      item :: items.filter fun last => !decide (last.Before item) := by
  rw [← Rows.insertAt_place (order.split item)]
  cases items with
  | nil => rfl
  | cons first rest =>
    simp only [insertItem]
    split
    · rename_i early
      have none : ∀ last ∈ first :: rest, ¬last.Before item := by
        intro last member goes
        simp only [MessageItem.Before] at goes
        rcases List.mem_cons.mp member with rfl | member
        · omega
        · have := (List.pairwise_cons.mp order).1 last member
          simp only [MessageItem.Before] at this
          omega
      have empty : (first :: rest).filter (fun last => decide (last.Before item)) = [] := by
        simpa using none
      have full : (first :: rest).filter (fun last => !decide (last.Before item)) = first :: rest := by
        simpa using none
      rw [Rows.insertAt_place (order.split item),empty,full]
      rfl
    · have goes (last : MessageItem) : decide (last.Before item) = (decide (last.dateTime < item.dateTime) ||
          decide (last.dateTime = item.dateTime) && decide (last.dateSequence < item.dateSequence)) := by
        rw [Bool.eq_iff_iff,decide_eq_true_iff]
        simp [MessageItem.Before]
      simp only [Rows.insertAt,Rows.place_eq,goes]

theorem InOrder.insert (order : InOrder items) (item : MessageItem) : InOrder (insertItem items item) := by
  rw [insertItem_split order]
  apply List.pairwise_append.mpr
  refine ⟨order.filter _,List.pairwise_cons.mpr ⟨?_,order.filter _⟩,?_⟩
  · intro last member
    simpa using (List.mem_filter.mp member).2
  · intro last member other later goes
    have before : last.Before item := by simpa using (List.mem_filter.mp member).2
    rcases List.mem_cons.mp later with rfl | later
    · simp only [MessageItem.Before] at before goes
      omega
    · have after : ¬other.Before item := by simpa using (List.mem_filter.mp later).2
      simp only [MessageItem.Before] at before after goes
      omega

/-- The same insertion into a list and a part of it. -/
theorem insertItem_sublist (within : part.Sublist items) (order : InOrder items) :
    (insertItem part item).Sublist (insertItem items item) := by
  rw [insertItem_split order,insertItem_split (order.sublist within)]
  exact (within.filter _).append ((within.filter _).cons_cons item)

theorem InOrder.foldl (order : InOrder items) (records : List MessageItem) :
    InOrder (records.foldl insertItem items) := by
  induction records generalizing items with
  | nil => exact order
  | cons item rest ih => exact ih (order.insert item)

end Order

section Removal

variable {messages filtered items : List MessageItem} {contact : Int}

/-- The messages from and to the contact stand together, from the row that the first of them
has on display. -/
def Adjoining (contact : Int) (messages filtered : List MessageItem) : Prop :=
  (∀ item ∈ messages, item.attached contact = false) ∨
    Rows.Together (MessageItem.attached contact) messages (filtered.findIdx (MessageItem.attached contact))

def unattached (contact : Int) (items : List MessageItem) : List MessageItem :=
  items.filter fun item => !item.attached contact

/-- What is not attached to the contact is not marked. -/
theorem unattached_marked (items : List MessageItem) :
    (unattached contact items).map (MessageItem.mark contact) = unattached contact items := by
  refine (List.map_congr_left fun item member => ?_).trans (List.map_id _)
  have apart := (List.mem_filter.mp member).2
  rw [Bool.not_eq_true'] at apart
  rw [MessageItem.mark,apart]
  rfl

/-- The row of the first of its messages on display is removed for each of them. -/
theorem removeItems_rows : removeItems contact messages filtered =
    (Rows.takeRows ((messages.filter (MessageItem.attached contact)).map fun _ =>
      filtered.findIdx (MessageItem.attached contact)) messages).map fun kept =>
        (kept.map (MessageItem.mark contact),unattached contact filtered) := by
  have row : (Rows.collect (MessageItem.attached contact) filtered 0).getLast?.getD filtered.length =
      filtered.findIdx (MessageItem.attached contact) := by
    have bound : filtered.findIdx (MessageItem.attached contact) ≤ filtered.length := List.findIdx_le_length
    rw [Rows.collect_first]
    split <;> omega
  simp only [removeItems,Rows.takeRows_map,Rows.takeRows_collect,row]
  rw [← unattached_marked filtered]
  cases Rows.takeRows ((messages.filter (MessageItem.attached contact)).map fun _ =>
    filtered.findIdx (MessageItem.attached contact)) messages <;> rfl

theorem removeItems_adjoining (adjoining : Adjoining contact messages filtered) :
    removeItems contact messages filtered = some (unattached contact messages,unattached contact filtered) := by
  rw [removeItems_rows,Rows.takeRows_one.mpr adjoining,Option.map_some]
  congr 2
  exact unattached_marked messages

/-- The lists are those of the view, taken by value. -/
theorem remove_items (m : MessageModel) (contact : Int) :
    (m.remove contact).map (fun m' => (m'.messages.map fun a => (m'.item a).toMessageItem,
      m'.filtered.map fun a => (m'.item a).toMessageItem)) =
    removeItems contact (m.messages.map fun a => (m.item a).toMessageItem)
      (m.filtered.map fun a => (m.item a).toMessageItem) := by
  have found (a : Nat) : (m.item a).toMessageItem.attached contact = m.attached contact a := rfl
  have count : ((m.messages.map fun a => (m.item a).toMessageItem).filter (MessageItem.attached contact)).length =
      (m.messages.filter (m.attached contact)).length := by
    rw [List.filter_map,List.length_map]
    rfl
  simp only [MessageModel.remove,removeItems,Rows.collect_map,Rows.takeRows_map,found,List.map_const',count,
    List.length_map]
  cases shown : Rows.takeRows (Rows.collect (m.attached contact) m.filtered 0) m.filtered with
  | none => rfl
  | some filtered =>
    cases kept : Rows.takeRows (List.replicate (m.messages.filter (m.attached contact)).length
        ((Rows.collect (m.attached contact) m.filtered 0).getLast?.getD m.filtered.length)) m.messages with
    | none => simp
    | some messages =>
      have marked (a : Nat) (member : a ∈ m.filtered ∨ a ∈ m.messages) :
          (if (a ∈ m.filtered ∨ a ∈ m.messages) ∧ m.attached contact a = true then { m.item a with saved := false }
            else m.item a).toMessageItem = (m.item a).toMessageItem.mark contact := by
        simp only [member,true_and,MessageItem.mark,found]
        split <;> rfl
      change some (_,_) = some (_,_)
      congr 2
      · refine (List.map_congr_left fun a member => ?_).trans (List.map_map ..).symm
        exact marked a (.inr ((Rows.takeRows_sublist kept).subset member))
      · refine (List.map_congr_left fun a member => ?_).trans (List.map_map ..).symm
        exact marked a (.inl ((Rows.takeRows_sublist shown).subset member))

end Removal

section Whole

variable {d d' : Desktop} {clock clock' uid now : Int} {shown : List MessageItem} {c : List MessageItem × Bool}
  {item : MessageItem} {row : MessageRow}

/-- The messages in memory are from rows of the session. When it is loaded, they are from all
of the rows that have not expired and have both of their contacts. -/
structure Whole (d : Desktop) (clock uid : Int) (shown : List MessageItem) (c : List MessageItem × Bool) :
    Prop where
  order : InOrder c.1
  source : ∀ item ∈ c.1, ∃ row ∈ d.messages,
    row.key = (uid,item.stamp) ∧ row.msgfrom = item.msgFrom ∧ row.msgto = item.msgTo
  all : c.2 = true → ∀ row ∈ d.messages, row.sid = uid → d.hasContact row.msgfrom = true →
    d.hasContact row.msgto = true → clock < row.expires → ∃ item ∈ c.1, row.key = (uid,item.stamp)
  part : c.2 = true → shown.Sublist c.1

theorem whole_empty : Whole d clock uid shown ([],false) :=
  ⟨List.Pairwise.nil,by simp,by simp,by simp⟩

theorem key_sid {stamp : Int × Int} (key : row.key = (uid,stamp)) : row.sid = uid := congrArg Prod.fst key

/-- Other sessions have other rows, and contacts only go. -/
theorem Whole.same (whole : Whole d clock uid shown c)
    (rows : ∀ row, row.sid = uid → (row ∈ d'.messages ↔ row ∈ d.messages))
    (known : ∀ contact, d'.hasContact contact = true → d.hasContact contact = true) (later : clock ≤ clock') :
    Whole d' clock' uid shown c where
  order := whole.order
  source := by
    intro item member
    obtain ⟨row,stored,key,parties⟩ := whole.source item member
    exact ⟨row,(rows row (key_sid key)).mpr stored,key,parties⟩
  all := by
    intro loaded row stored sid sender recipient fresh
    exact whole.all loaded row ((rows row sid).mp stored) sid (known _ sender) (known _ recipient) (by omega)
  part := whole.part

/-- A session that is not loaded has no more than some of the rows. -/
theorem Whole.unloaded (whole : Whole d clock uid shown c) (unloaded : c.2 = false)
    (grown : ∀ row ∈ d.messages, row ∈ d'.messages) : Whole d' clock uid shown c where
  order := whole.order
  source := fun item member => (whole.source item member).imp fun row => .imp_left (grown row)
  all := fun loaded => by simp [unloaded] at loaded
  part := fun loaded => by simp [unloaded] at loaded

theorem Whole.showing {shown' : List MessageItem} (whole : Whole d clock uid shown c) (part : shown'.Sublist c.1) :
    Whole d clock uid shown' c := ⟨whole.order,whole.source,whole.all,fun _ => part⟩

/-- A message is stored and added. -/
theorem Whole.insert (whole : Whole d clock uid shown c) (admitted : d.messages.Admits (rowOf uid item))
    (saved : Bool) : Whole { d with messages := d.messages.insert (rowOf uid item) } clock uid
      (insertItem shown { item with saved }) (insertItem c.1 { item with saved },c.2) where
  order := whole.order.insert _
  source := by
    intro other member
    rcases List.mem_cons.mp ((insertItem_perm c.1 { item with saved }).subset member) with rfl | before
    · exact ⟨rowOf uid item,Table.mem_insert.mpr (.inr ⟨admitted,rfl⟩),rfl,rfl,rfl⟩
    · obtain ⟨row,stored,facts⟩ := whole.source other before
      exact ⟨row,Table.mem_insert.mpr (.inl stored),facts⟩
  all := by
    intro loaded row stored sid sender recipient fresh
    have perm := insertItem_perm c.1 { item with saved }
    rcases Table.mem_insert.mp stored with before | ⟨-,rfl⟩
    · obtain ⟨other,member,key⟩ := whole.all loaded row before sid sender recipient fresh
      exact ⟨other,perm.symm.subset (List.mem_cons_of_mem _ member),key⟩
    · exact ⟨{ item with saved },perm.symm.subset List.mem_cons_self,rfl⟩
  part := fun loaded => insertItem_sublist (whole.part loaded) whole.order

theorem whole_opened {st : ContactState} (whole : ∀ c ∈ st.contents, Whole d clock uid shown c) :
    ∀ c ∈ st.opened.contents, Whole d clock uid shown c := by
  intro c has
  rw [contents_opened] at has
  cases before : st.contents with
  | some old =>
    rw [before,Option.getD_some] at has
    obtain rfl := Option.some.inj has
    exact whole old before
  | none =>
    rw [before,Option.getD_none] at has
    obtain rfl := Option.some.inj has
    exact whole_empty

theorem record_parties (valid : d.record row = some item) :
    item.msgFrom = row.msgfrom ∧ item.msgTo = row.msgto := by
  rw [record] at valid
  split at valid
  · rw [← Option.some.inj valid]
    exact ⟨rfl,rfl⟩
  · contradiction

theorem mem_records : item ∈ d.records uid now ↔
    ∃ row ∈ d.messages, row.sid = uid ∧ now < row.expires ∧ d.record row = some item := by
  simp only [records,stored,List.mem_filterMap,List.mem_insertionSort,List.mem_filter,Table.mem_select,
    decide_eq_true_eq]
  constructor
  · rintro ⟨row,⟨⟨stored,sid⟩,fresh⟩,valid⟩
    exact ⟨row,stored,sid,fresh,valid⟩
  · rintro ⟨row,stored,sid,fresh,valid⟩
    exact ⟨row,⟨⟨stored,sid⟩,fresh⟩,valid⟩

/-- A session without messages is loaded. -/
theorem whole_load : Whole d (max clock now) uid ((d.records uid now).foldl insertItem [])
    ((d.records uid now).foldl insertItem [],true) := by
  have perm := foldl_insertItem_perm (d.records uid now) []
  rw [List.append_nil] at perm
  constructor
  · exact InOrder.foldl List.Pairwise.nil _
  · intro item member
    obtain ⟨row,stored,sid,-,valid⟩ := mem_records.mp (perm.subset member)
    obtain ⟨sender,recipient⟩ := record_parties valid
    exact ⟨row,stored,by rw [MessageRow.key,sid,record_stamp valid],sender.symm,recipient.symm⟩
  · intro _ row stored sid sender recipient fresh
    have valid : ∃ item, d.record row = some item :=
      ⟨_,if_pos (by rw [sender,recipient]; rfl)⟩
    obtain ⟨item,valid⟩ := valid
    refine ⟨item,perm.symm.subset (mem_records.mpr ⟨row,stored,sid,by omega,valid⟩),?_⟩
    rw [MessageRow.key,sid,record_stamp valid]
  · exact fun _ => List.Sublist.refl _

/-- The messages from and to a contact that is gone are taken away. -/
theorem Whole.unattached {contact : Int} (whole : Whole d clock uid shown c)
    (rows : ∀ row, row.sid = uid → (row ∈ d'.messages ↔ row ∈ d.messages))
    (known : ∀ other, d'.hasContact other = true → d.hasContact other = true ∧ other ≠ contact) :
    Whole d' clock uid (unattached contact shown) (unattached contact c.1,c.2) where
  order := whole.order.filter _
  source := by
    intro item member
    obtain ⟨row,stored,key,parties⟩ := whole.source item (List.mem_filter.mp member).1
    exact ⟨row,(rows row (key_sid key)).mpr stored,key,parties⟩
  all := by
    intro loaded row stored sid sender recipient fresh
    have before := (rows row sid).mp stored
    obtain ⟨item,member,key⟩ :=
      whole.all loaded row before sid (known _ sender).1 (known _ recipient).1 fresh
    obtain ⟨source,origin,key',from_,to_⟩ := whole.source item member
    obtain rfl := Table.unique before origin (key.trans key'.symm)
    refine ⟨item,List.mem_filter.mpr ⟨member,?_⟩,key⟩
    rw [MessageItem.attached,← from_,← to_]
    simp [(known _ sender).2,(known _ recipient).2]
  part := fun loaded => (whole.part loaded).filter _

end Whole

section Steps

variable {s next : Screen} {uid : Int} {active : Option Int}

structure Mirrored (s : Screen) : Prop where
  tidy : Tidy s.desk
  whole : ∀ uid, ∀ c ∈ (s.desk.state uid).contents, Whole s.desk s.clock uid (s.filtered uid) c

/-- What a step that touches one session keeps. -/
theorem Mirrored.touched (mirrored : Mirrored s) (base : Desktop) {st : ContactState}
    (touched : Touched base next.desk uid st) (state : base.state = s.desk.state)
    (contacts : base.contacts = s.desk.contacts) (tidy : Tidy next.desk) (clock : s.clock ≤ next.clock)
    (rows : ∀ row, row.sid ≠ uid → (row ∈ base.messages ↔ row ∈ s.desk.messages))
    (filtered : ∀ other, other ≠ uid → next.filtered other = s.filtered other)
    (here : ∀ c ∈ st.contents, Whole base next.clock uid (next.filtered uid) c) : Mirrored next := by
  have known (contact : Int) : next.desk.hasContact contact = base.hasContact contact := by
    rw [hasContact,touched.contacts,hasContact]
  refine ⟨tidy,fun other c has => ?_⟩
  by_cases same : other = uid
  · subst same
    rw [contents_congr touched.state] at has
    apply (here c has).same _ (fun contact => (known contact ▸ id)) (Int.le_refl _)
    intro row _
    rw [touched.messages]
  · rw [contents_congr (touched.others other same),state] at has
    rw [filtered other same]
    apply (mirrored.whole other c has).same _ _ clock
    · intro row sid
      rw [touched.messages]
      exact rows row fun mine => same (sid.symm.trans mine)
    · intro contact
      rw [known,hasContact,contacts]
      exact id

theorem rows_insert {rows : Table MessageRow (Int × Int × Int) MessageRow.key} (item : MessageItem) (row : MessageRow)
    (other : row.sid ≠ uid) : row ∈ rows.insert (rowOf uid item) ↔ row ∈ rows := by
  rw [Table.mem_insert]
  constructor
  · rintro (before | ⟨-,rfl⟩)
    · exact before
    · exact absurd rfl other
  · exact .inl

theorem Mirrored.receiveText (mirrored : Mirrored s) (arrival : Arrival) : Mirrored (s.receiveText arrival) := by
  have tidy := mirrored.tidy.receiveText arrival
  rw [Screen.receiveText]
  cases found : s.desk.delivery arrival with
  | none =>
    rw [receiveText_unknown found]
    exact mirrored
  | some delivery =>
  obtain ⟨uid,item⟩ := delivery
  have noted := contents_noteRecent (s := (s.desk.state uid).opened) item
  have opened : ∀ c ∈ ((s.desk.state uid).opened.onSession (·.noteRecent item)).contents,
      Whole s.desk s.clock uid (s.filtered uid) c := by
    rw [noted]
    exact whole_opened (mirrored.whole uid)
  have loaded : ((s.desk.state uid).opened.onSession (·.noteRecent item)).session.any SessionItem.loaded =
      (s.desk.session? uid).any SessionItem.loaded := by
    have same := noteRecent_session (s := (s.desk.state uid).opened) (f := SessionItem.loaded) item fun _ _ _ => rfl
    have any (session : Option SessionItem) :
        session.any SessionItem.loaded = (session.map SessionItem.loaded).any id := by rw [Option.any_map]; rfl
    rw [any,same,session?]
    cases before : (s.desk.state uid).session <;> simp [ContactState.opened,before,SessionItem.create]
  by_cases admitted : s.desk.messages.Admits (rowOf uid item)
  · let base := { s.desk with messages := s.desk.messages.insert (rowOf uid item) }
    have received := receiveText_admitted found admitted
    simp only [loaded] at received
    simp only [admitted,true_and]
    split at received
    · rename_i shown
      rw [if_pos shown]
      refine mirrored.touched base received rfl rfl tidy (Int.le_refl _) (rows_insert item) ?_ ?_
      · exact fun other apart => Function.update_of_ne apart ..
      · intro c has
        rw [contents_addMessage] at has
        obtain ⟨old,before,rfl⟩ := Option.map_eq_some_iff.mp has
        have stored := (opened old before).insert admitted true
        simpa only [Screen.display,Function.update_self] using stored
    · rename_i idle
      rw [if_neg idle]
      refine mirrored.touched base received rfl rfl tidy (Int.le_refl _) (rows_insert item) ?_ ?_
      · exact fun _ _ => rfl
      · intro c has
        have unloaded : c.2 = false := by
          rw [contents_loaded c has,loaded]
          exact Bool.eq_false_iff.mpr fun shown => idle (.inl shown)
        exact (opened c has).unloaded unloaded fun row before => Table.mem_insert.mpr (.inl before)
  · have refused := receiveText_refused found admitted
    simp only [admitted,false_and,if_false]
    have touched : Touched s.desk (s.desk.receiveText arrival) uid
        ((s.desk.state uid).opened.onSession (·.noteRecent item)) := by
      rw [refused]
      exact Touched.modify _
    exact mirrored.touched s.desk touched rfl rfl tidy (Int.le_refl _) (fun _ _ => Iff.rfl) (fun _ _ => rfl) opened

/-- Neither rows nor messages change. -/
theorem Mirrored.idle (mirrored : Mirrored s) {desk : Desktop} (tidy : Tidy desk)
    (contacts : desk.contacts = s.desk.contacts) (messages : desk.messages = s.desk.messages)
    (state : desk.state = s.desk.state) : Mirrored { s with desk } := by
  refine ⟨tidy,fun uid c has => ?_⟩
  rw [state] at has
  apply (mirrored.whole uid c has).same _ _ (Int.le_refl _)
  · intro row _
    rw [messages]
  · intro contact
    rw [hasContact,contacts]
    exact id

/-- The session is still loaded when the message to it is confirmed. -/
theorem Mirrored.finishInput (mirrored : Mirrored s) (sent : Option Sent)
    (guarded : ∀ uid sent', s.desk.inputItem = some uid → sent = some sent' →
      s.desk.inputSession = some uid ∧ (s.desk.session? uid).any SessionItem.loaded = true ∧
        s.desk.messages.Admits (rowOf uid (s.desk.submitted uid sent'))) : Mirrored (s.finishInput sent) := by
  have ended : Tidy { s.desk with inputItem := none, inputGone := false } :=
    ⟨mirrored.tidy.neat,mirrored.tidy.active⟩
  cases waiting : s.desk.inputSession with
  | none =>
    simp only [Screen.finishInput,finishInput_lost waiting,waiting]
    exact mirrored.idle ended rfl rfl rfl
  | some uid =>
  cases sent with
  | none =>
    simp only [Screen.finishInput,finishInput_none,waiting]
    exact mirrored.idle ended rfl rfl rfl
  | some sent =>
  obtain ⟨-,loaded,admitted⟩ := guarded uid sent (inputSession_item waiting) rfl
  have touched := finishInput_touched waiting sent
  simp only [Screen.finishInput,waiting,save_admitted admitted]
  generalize s.desk.submitted uid sent = item at admitted touched ⊢
  simp only [decide_eq_true admitted] at touched
  let base := { s.desk with
    messages := s.desk.messages.insert (rowOf uid item), inputItem := none, inputGone := false }
  have grown : ∀ row ∈ s.desk.messages, row ∈ base.messages := fun _ before => Table.mem_insert.mpr (.inl before)
  have tidy : Tidy (s.desk.finishInput (some sent)) := by
    apply mirrored.tidy.touched touched rfl grown
    · apply (mirrored.tidy.neat uid).addMessage { item with saved := true } (Table.admits_iff.mp admitted) _ grown
        ⟨_,Table.mem_insert.mpr (.inr ⟨admitted,rfl⟩),rfl⟩
      exact fun c has => (contents_loaded c has).trans loaded
    · exact fun _ chosen _ => chosen
    · intro chosen
      obtain ⟨items,has⟩ := mirrored.tidy.active uid chosen
      rw [contents_addMessage,has]
      exact ⟨_,rfl⟩
  refine mirrored.touched base touched rfl rfl tidy (Int.le_refl _) (rows_insert item) ?_ ?_
  · exact fun other apart => Function.update_of_ne apart ..
  · intro c has
    rw [contents_addMessage] at has
    obtain ⟨old,before,rfl⟩ := Option.map_eq_some_iff.mp has
    have stored := (mirrored.whole uid old before).insert admitted true
    simp only [Screen.display,Function.update_self]
    exact stored.same (fun _ _ => Iff.rfl) (fun _ => id) (Int.le_refl _)

theorem Mirrored.opened (mirrored : Mirrored s) :
    Mirrored { s with desk := s.desk.modify uid ContactState.opened } := by
  refine mirrored.touched s.desk (Touched.modify _) rfl rfl mirrored.tidy.opened (Int.le_refl _) (fun _ _ => Iff.rfl)
    (fun _ _ => rfl) ?_
  intro c has
  exact whole_opened (mirrored.whole uid) c has

theorem items_contents {c : List MessageItem × Bool} (has : c ∈ (s.desk.state uid).contents) :
    s.desk.items uid = c.1 := by
  obtain ⟨session,here,rfl⟩ := Option.map_eq_some_iff.mp has
  rw [items,session?,here]
  rfl

theorem Mirrored.activateSession (mirrored : Mirrored s) (now : Int)
    (opened : (s.desk.state uid).contents ≠ none) : Mirrored (s.activateSession uid now) := by
  have touched := activateSession_touched s.desk uid now
  have tidy : Tidy (s.desk.activateSession uid now) := mirrored.tidy.activateSession opened
  rw [Screen.activateSession]
  refine mirrored.touched _ touched rfl rfl tidy (Int.le_max_left ..) (fun _ _ => Iff.rfl) ?_ ?_
  · exact fun other apart => Function.update_of_ne apart ..
  · intro c has
    simp only [Screen.display,Function.update_self]
    split at has
    · rename_i loaded
      rw [if_pos loaded,items_contents has]
      exact ((mirrored.whole uid c has).showing (List.Sublist.refl _)).same (fun _ _ => Iff.rfl) (fun _ => id)
        (Int.le_max_left ..)
    · rename_i unloaded
      rw [contents_load] at has
      obtain ⟨old,before,rfl⟩ := Option.map_eq_some_iff.mp has
      have empty : old.1 = [] := by
        apply (mirrored.tidy.neat uid).unloaded old before
        exact (contents_loaded old before).trans (Bool.eq_false_iff.mpr unloaded)
      rw [if_neg unloaded,items_contents before,empty]
      exact whole_load.same (fun _ _ => Iff.rfl) (fun _ => id) (Int.le_refl _)

theorem Mirrored.activateContact (mirrored : Mirrored s) (uid now : Int) :
    Mirrored (s.activateContact uid now) := by
  rw [Screen.activateContact]
  split
  · exact mirrored.idle ⟨mirrored.tidy.neat,fun _ active => (Option.some_ne_none _ active.symm).elim⟩ rfl rfl rfl
  · apply mirrored.opened.activateSession
    rw [state_modify,contents_opened]
    exact Option.some_ne_none _

theorem Mirrored.search (mirrored : Mirrored s) (found : MessageItem → Bool) : Mirrored (s.search found) := by
  rw [Screen.search]
  split
  · rename_i uid chosen
    refine ⟨mirrored.tidy,fun other c has => ?_⟩
    have has : c ∈ (s.desk.state other).contents := has
    by_cases same : other = uid
    · subst same
      have part : ((s.desk.items other).filter found).Sublist c.1 := by
        rw [items_contents (s := s) has]
        exact List.filter_sublist
      simp only [Screen.display,Function.update_self]
      exact (mirrored.whole other c has).showing part
    · simp only [Screen.display,Function.update_of_ne same]
      exact mirrored.whole other c has
  · exact mirrored

/-- After the sessions were cleared, none has messages. -/
theorem Mirrored.changeExpiration (mirrored : Mirrored s) (expires : Int)
    (listed : ∀ uid, (s.desk.session? uid).all fun session => session.listed || !session.loaded) :
    Mirrored (s.changeExpiration expires) := by
  have empty (uid : Int) : ∀ c ∈ ((s.changeExpiration expires).desk.state uid).contents, c = ([],false) := by
    intro c has
    have cleared := listed uid
    cases before : (s.desk.state uid).session with
    | none => simp [Screen.changeExpiration,Desktop.clearSessions,contents,onSession,before] at has
    | some session =>
      rw [session?,before,Option.all_some] at cleared
      cases row : session.listed with
      | true =>
        simp [Screen.changeExpiration,Desktop.clearSessions,contents,onSession,before,row,
          SessionItem.clearMessages] at has
        exact has.symm
      | false =>
        have unloaded : session.loaded = false := by simpa [row] using cleared
        have none : session.messages = [] :=
          (mirrored.tidy.neat uid).unloaded _ (by rw [contents,before]; rfl) unloaded
        simp [Screen.changeExpiration,Desktop.clearSessions,contents,onSession,before,row,none,unloaded] at has
        exact has.symm
  refine ⟨⟨fun uid => ⟨fun c has => ?_,fun c has => ?_,fun c has _ => ?_⟩,
    fun _ active => (Option.some_ne_none _ active.symm).elim⟩,fun uid c has => ?_⟩
  all_goals
    obtain rfl := empty uid c has
  · exact List.nodup_nil
  · simp
  · rfl
  · exact whole_empty

theorem without_known {contact : Int} (known : (s.without uid active).desk.hasContact contact = true) :
    s.desk.hasContact contact = true ∧ contact ≠ uid := by
  obtain ⟨row,member,same⟩ := List.any_eq_true.mp known
  obtain ⟨stored,other⟩ := Table.mem_delete.mp member
  have same := of_decide_eq_true same
  exact ⟨List.any_eq_true.mpr ⟨row,stored,decide_eq_true same⟩,by simpa [same] using other⟩

theorem without_rows (row : MessageRow) (other : row.sid ≠ uid) :
    row ∈ (s.without uid active).desk.messages ↔ row ∈ s.desk.messages := by
  simp [Screen.without,other]

theorem without_contents (other : Int) (c : List MessageItem × Bool)
    (has : c ∈ ((s.without uid active).desk.state other).contents) :
    c = ([],false) ∨ other ≠ uid ∧ s.cleared active other = false ∧ c ∈ (s.desk.state other).contents := by
  simp only [Screen.without] at has
  split at has
  · simp [contents] at has
  · rename_i apart
    split at has
    · obtain ⟨session,here,rfl⟩ := Option.map_eq_some_iff.mp has
      obtain ⟨old,-,rfl⟩ := Option.map_eq_some_iff.mp here
      exact .inl rfl
    · rename_i kept
      exact .inr ⟨apart,Bool.eq_false_iff.mpr kept,has⟩

theorem Mirrored.without (mirrored : Mirrored s) (other : ∀ a, active = some a → a ≠ uid ∧ s.desk.activeItem = some a) :
    Mirrored (s.without uid active) := by
  refine ⟨⟨fun number => ?_,fun a chosen => ?_⟩,fun number c has => ?_⟩
  · refine ⟨fun c has => ?_,fun c has item member => ?_,fun c has unloaded => ?_⟩
    all_goals
      rcases without_contents number c has with rfl | ⟨apart,-,before⟩
    · exact List.nodup_nil
    · exact (mirrored.tidy.neat number).apart c before
    · simp at member
    · obtain ⟨row,stored,key⟩ := (mirrored.tidy.neat number).stored c before item member
      exact ⟨row,(without_rows row fun mine => apart ((key_sid key).symm.trans mine)).mpr stored,key⟩
    · rfl
    · exact (mirrored.tidy.neat number).unloaded c before unloaded
  · have chosen : active = some a := chosen
    obtain ⟨apart,before⟩ := other a chosen
    obtain ⟨items,has⟩ := mirrored.tidy.active a before
    refine ⟨items,?_⟩
    simp only [Screen.without,Screen.cleared,chosen]
    simpa [apart] using has
  · rcases without_contents number c has with rfl | ⟨apart,kept,before⟩
    · exact whole_empty
    · have filtered : (s.without uid active).filtered number = s.filtered number := by
        simp [Screen.without,apart,kept]
      rw [filtered]
      apply (mirrored.whole number c before).same _ (fun _ known => (without_known known).1) (Int.le_refl _)
      intro row sid
      exact without_rows row fun mine => apart (sid.symm.trans mine)

/-- The messages of a contact that is gone are taken out of the session on display. -/
theorem Mirrored.detach {active : Int} (mirrored : Mirrored s) (gone : s.desk.hasContact uid = false)
    (chosen : s.desk.activeItem = some active) :
    Mirrored { s.display active (unattached uid (s.filtered active)) with
      desk := s.desk.modify active (·.onSession fun session =>
        { session with messages := unattached uid (s.desk.items active) }) } := by
  let change (session : SessionItem) : SessionItem :=
    { session with messages := unattached uid (s.desk.items active) }
  have changed : ∀ c ∈ ((s.desk.state active).onSession change).contents,
      ∃ old ∈ (s.desk.state active).contents, c = (unattached uid old.1,old.2) := by
    intro c has
    obtain ⟨session,new,rfl⟩ := Option.map_eq_some_iff.mp has
    obtain ⟨before,old,rfl⟩ := Option.map_eq_some_iff.mp new
    have has : (before.messages,before.loaded) ∈ (s.desk.state active).contents := by
      rw [contents,old]
      rfl
    refine ⟨_,has,?_⟩
    simp only [change,items_contents has]
  have touched : Touched s.desk (s.desk.modify active (·.onSession change)) active _ := .modify _
  have neat := mirrored.tidy.neat active
  have tidy : Tidy (s.desk.modify active (·.onSession change)) := by
    apply mirrored.tidy.touched touched rfl fun _ => id
    · refine ⟨fun c has => ?_,fun c has item member => ?_,fun c has unloaded => ?_⟩
      all_goals
        obtain ⟨old,before,rfl⟩ := changed c has
      · exact (neat.apart old before).sublist (List.filter_sublist.map _)
      · exact neat.stored old before item (List.mem_filter.mp member).1
      · simp [unattached,neat.unloaded old before unloaded]
    · exact fun _ chosen _ => chosen
    · intro _
      obtain ⟨items,has⟩ := mirrored.tidy.active active chosen
      refine ⟨unattached uid (s.desk.items active),?_⟩
      obtain ⟨session,old,same⟩ := Option.map_eq_some_iff.mp has
      have loaded : session.loaded = true := congrArg Prod.snd same
      simp only [contents,onSession,old,Option.map_some,change,loaded]
  refine mirrored.touched _ touched rfl rfl tidy (Int.le_refl _) (fun _ _ => Iff.rfl) ?_ ?_
  · exact fun other apart => Function.update_of_ne apart ..
  · intro c has
    obtain ⟨old,before,rfl⟩ := changed c has
    simp only [Screen.display,Function.update_self]
    apply (mirrored.whole active old before).unattached fun _ _ => Iff.rfl
    exact fun other known => ⟨known,fun same => by simp [← same,known] at gone⟩

theorem without_same {active : Int} (apart : active ≠ uid) :
    (s.without uid (some active)).desk.items active = s.desk.items active ∧
      (s.without uid (some active)).filtered active = s.filtered active := by
  constructor
  · simp [items,session?,Screen.without,Screen.cleared,apart]
  · simp [Screen.without,Screen.cleared,apart]

theorem Mirrored.remove (mirrored : Mirrored s)
    (adjoining : ∀ active, s.desk.activeItem = some active → active ≠ uid →
      Adjoining uid (s.desk.items active) (s.filtered active))
    (removed : s.remove uid = some next) : Mirrored next := by
  have other : ∀ a, (if s.desk.activeItem = some uid then none else s.desk.activeItem) = some a →
      a ≠ uid ∧ s.desk.activeItem = some a := by
    intro a chosen
    split at chosen
    · contradiction
    · rename_i apart
      exact ⟨fun same => apart (same ▸ chosen),chosen⟩
  have base := mirrored.without other
  rw [Screen.remove] at removed
  generalize (if s.desk.activeItem = some uid then none else s.desk.activeItem) = active at *
  cases active with
  | none =>
    obtain rfl := Option.some.inj removed
    exact base
  | some active =>
    obtain ⟨apart,chosen⟩ := other active rfl
    simp only [removeItems_adjoining (adjoining active chosen apart)] at removed
    obtain rfl := Option.some.inj removed
    have gone : (s.without uid (some active)).desk.hasContact uid = false :=
      Bool.eq_false_iff.mpr fun known => (without_known known).2 rfl
    have left := base.detach gone rfl
    obtain ⟨items,filtered⟩ := without_same (s := s) apart
    rwa [items,filtered] at left

/-- A confirmation finds its session and the own contact there, has it loaded and stores a new row; sessions
that are loaded are listed when the expiration changes; and the messages of a contact that is removed stand
together in the session on display. -/
def Guarded (s : Screen) : Screen.Move → Prop
  | .finishInput sent => ∀ uid sent', s.desk.inputItem = some uid → sent = some sent' →
      s.desk.inputSession = some uid ∧ (s.desk.session? uid).any SessionItem.loaded = true ∧
        s.desk.messages.Admits (rowOf uid (s.desk.submitted uid sent'))
  | .changeExpiration _ => ∀ uid, (s.desk.session? uid).all fun session => session.listed || !session.loaded
  | .remove uid => ∀ active, s.desk.activeItem = some active → active ≠ uid →
      Adjoining uid (s.desk.items active) (s.filtered active)
  | _ => True

theorem step_mirrored (mirrored : Mirrored s) {move : Screen.Move} (guarded : Guarded s move)
    (moved : s.step move = some next) : Mirrored next := by
  cases move with simp only [Screen.step] at moved
  | receiveText arrival => exact Option.some.inj moved ▸ mirrored.receiveText arrival
  | createMessage =>
    split at moved
    · contradiction
    · rw [← Option.some.inj moved]
      exact mirrored.idle ⟨mirrored.tidy.neat,mirrored.tidy.active⟩ rfl rfl rfl
  | finishInput sent => exact Option.some.inj moved ▸ mirrored.finishInput sent guarded
  | activateContact uid now =>
    split at moved
    · exact Option.some.inj moved ▸ mirrored.activateContact uid now
    · contradiction
  | selectSession uid now =>
    split at moved
    · rename_i listed
      rw [← Option.some.inj moved]
      apply mirrored.activateSession
      intro none
      rw [session?,Option.map_eq_none_iff.mp none] at listed
      contradiction
    · contradiction
  | activateSelf =>
    rw [← Option.some.inj moved]
    exact mirrored.idle ⟨mirrored.tidy.neat,fun _ active => (Option.some_ne_none _ active.symm).elim⟩ rfl rfl rfl
  | changeExpiration expires => exact Option.some.inj moved ▸ mirrored.changeExpiration expires guarded
  | remove uid => exact mirrored.remove guarded moved
  | search found => exact Option.some.inj moved ▸ mirrored.search found

def Screen.start (d : Desktop) (now : Int) : Screen := { desk := d.restart now, clock := now }

theorem start_mirrored (d : Desktop) (now : Int) : Mirrored (Screen.start d now) := by
  refine ⟨tidy_restart d,fun uid c has => ?_⟩
  have empty : c = ([],false) := by
    simp only [Screen.start,restart,contents,Option.map_map] at has
    obtain ⟨_,-,rfl⟩ := Option.map_eq_some_iff.mp has
    rfl
  exact empty ▸ whole_empty

/-- A message is in memory once, and every one that is stored for the session, has not expired
and has both of its contacts is there. What is on display is part of it. -/
structure Mirrors (s : Screen) (uid : Int) (session : SessionItem) : Prop where
  once : (session.messages.map MessageItem.stamp).Nodup
  all : ∀ row ∈ s.desk.messages, row.sid = uid → s.desk.hasContact row.msgfrom = true →
    s.desk.hasContact row.msgto = true → s.clock < row.expires →
      ∃ item ∈ session.messages, item.stamp = (row.posted,row.seqid)
  part : (s.filtered uid).Sublist session.messages

theorem Mirrored.mirrors (mirrored : Mirrored s) {session : SessionItem}
    (here : s.desk.session? uid = some session) (loaded : session.loaded = true) : Mirrors s uid session := by
  have has : (session.messages,session.loaded) ∈ (s.desk.state uid).contents := by
    rw [contents,← session?,here]
    rfl
  have whole := mirrored.whole uid _ has
  refine ⟨(mirrored.tidy.neat uid).apart _ has,?_,whole.part loaded⟩
  intro row stored sid sender recipient fresh
  obtain ⟨item,member,key⟩ := whole.all loaded row stored sid sender recipient fresh
  exact ⟨item,member,(congrArg Prod.snd key).symm⟩

end Steps

def written : Screen :=
  let s := (Screen.start Site.desk 0).activateContact 2 1530000000000
  { s with desk := s.desk.createMessage }

theorem written_run : ∃ trace, Run Screen.step (Screen.start Site.desk 0) trace written ∧
    ∀ edge ∈ trace, Guarded edge.source edge.action := by
  have opened : (Screen.start Site.desk 0).step (.activateContact 2 1530000000000) =
      some ((Screen.start Site.desk 0).activateContact 2 1530000000000) := by
    rw [Screen.step]
    exact if_pos (by decide +kernel)
  have created : ((Screen.start Site.desk 0).activateContact 2 1530000000000).step .createMessage =
      some written := by
    rw [Screen.step]
    exact if_neg (by decide +kernel)
  exact ⟨_,.next (.next .start opened) created,by simp [Guarded]⟩

def confirmation : Sent := { text := "hi", timestamp := some 1530000002000, sequence := 1, now := 1530000002000 }

end SipWitch.Desktop
