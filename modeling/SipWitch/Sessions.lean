import SipWitch.Listener
import SipWitch.Transition
import Mathlib.Data.List.Sort
import Mathlib.Data.Prod.Lex
import Mathlib.Logic.Function.Basic

/-! The sessions of the desktop client, over its tables `Contacts` and `Messages`. A
session is the conversation with one contact and goes by that contact's uid. How the
sessions and their messages are displayed, the topic filter and the search are not part
of this. -/
namespace SipWitch

namespace Desktop

/-- A column for a date: its default 0, NULL, or a date in milliseconds. -/
inductive DateColumn where
  | null
  | zero
  | date (time : Int)
  deriving DecidableEq

namespace DateColumn

/-- NULL is before 0 and numbers are before texts. -/
def rank : DateColumn → Nat ×ₗ Int
  | .null => toLex (0,0)
  | .zero => toLex (1,0)
  | .date time => toLex (2,time)

theorem rank_injective : Function.Injective rank := by
  intro a b same
  cases a <;> cases b <;> simp_all [rank]

instance : LinearOrder DateColumn := LinearOrder.lift' rank rank_injective

/-- `QVariant::toDateTime`; 0 is no date. -/
def read : DateColumn → Option Int
  | .date time => some time
  | _ => none

/-- A date is bound to a query; one that is not valid is NULL. -/
def bind : Option Int → DateColumn
  | some time => .date time
  | none => .null

end DateColumn

/-- `QDateTime` in comparisons: without a date it is the epoch. -/
def msecs (time : Option Int) : Int := time.getD 0

abbrev Recency := DateColumn ×ₗ Int

inductive ContactType where
  | user | device | group | pilot | system | other
  deriving DecidableEq

/-- The columns of a contact that only the roster changes. -/
structure ContactRow where
  uid : Int
  extension : Int := -1
  type : ContactType := .user
  uri : UString := []
  display : UString := []
  deriving DecidableEq

inductive MessageType where
  | TEXT | ADMIN
  deriving DecidableEq

structure MessageRow where
  msgfrom : Int
  msgto : Int
  sid : Int
  subject : UString
  seqid : Int
  posted : Int
  expires : Int
  msgtype : MessageType
  msgtext : UString
  deriving DecidableEq

def MessageRow.key (row : MessageRow) : Int × Int × Int := (row.sid,row.posted,row.seqid)

def MessageRow.recency (row : MessageRow) : Recency := toLex (.date row.posted,row.seqid)

structure MessageItem where
  /-- Contacts, by their uids. -/
  msgFrom : Int
  msgTo : Int
  msgType : MessageType := .TEXT
  msgSubject : UString
  msgBody : UString
  dateTime : Int
  dateSequence : Int
  expires : Int
  inbox : Bool
  saved : Bool := true
  deriving DecidableEq

def MessageItem.recency (item : MessageItem) : Recency := toLex (.date item.dateTime,item.dateSequence)

structure SessionItem where
  messages : List MessageItem := []
  /-- The most recent message received. -/
  mostRecent : Option Int := none
  lastSequence : Int := 0
  topics : List UString := []
  unreadCount : Nat := 0
  loaded : Bool := false
  /-- It is in the list `sessions`. -/
  listed : Bool := true
  deriving DecidableEq

/-- A contact's other columns, what its `ContactItem` keeps of them, and its session. -/
structure ContactState where
  last : DateColumn := .zero
  sequence : Int := 0
  topic : UString := "None"
  tsync : DateColumn := .zero
  tseq : Int := 0
  contactUpdated : Option Int := none
  contactSequence : Int := 0
  contactTopic : UString := []
  topicUpdated : Option Int := none
  topicSequence : Int := 0
  session : Option SessionItem := none
  deriving DecidableEq

/-- A call of `receiveText`, with the clock and whether the messages on display are
scrolled down. -/
structure Arrival where
  args : TextArguments
  now : Int
  bottom : Bool := true
  deriving DecidableEq

structure Sent where
  text : UString
  timestamp : Option Int
  sequence : Int
  now : Int
  bottom : Bool := true
  deriving DecidableEq

namespace ContactRow

variable (contact : ContactRow)

def isGrouped : Bool := contact.type = .group || contact.type = .pilot

/-- The operators are the system's extension 0. -/
def isOperators : Bool := contact.type = .system && contact.extension = 0

def isGroup : Bool := contact.isGrouped || contact.isOperators

def isForeign : Bool := contact.extension < 0 || 999 < contact.extension

def isLocal : Bool := !contact.isForeign && contact.display ≠ []

end ContactRow

namespace SessionItem

def create (topic : UString) : SessionItem := { topics := ["None",topic] }

def clearMessages (session : SessionItem) : SessionItem :=
  { session with messages := [], loaded := false, unreadCount := 0, topics := ["*All*"] }

/-- The message is as recent as any that was received. -/
def noteRecent (session : SessionItem) (item : MessageItem) : SessionItem :=
  if msecs session.mostRecent < item.dateTime then
    { session with mostRecent := some item.dateTime, lastSequence := item.dateSequence }
  else if msecs session.mostRecent = item.dateTime ∧ session.lastSequence < item.dateSequence then
    { session with lastSequence := item.dateSequence }
  else session

def mark (session : SessionItem) : Recency :=
  toLex (DateColumn.bind session.mostRecent,session.lastSequence)

end SessionItem

/-- The place that `MessageModel::add` finds from the end of the list. -/
def insertItem (items : List MessageItem) (item : MessageItem) : List MessageItem :=
  match items with
  | [] => [item]
  | first :: _ =>
    if item.dateTime < first.dateTime then item :: items
    else
      let row := (items.reverse.dropWhile fun last => !(last.dateTime < item.dateTime ||
        last.dateTime = item.dateTime && last.dateSequence < item.dateSequence)).length
      items.take row ++ item :: items.drop row

namespace ContactState

variable (s : ContactState)

def recency : Recency := toLex (s.last,s.sequence)

def onSession (change : SessionItem → SessionItem) : ContactState :=
  { s with session := s.session.map change }

def setTopic (topic : UString) (posted sequence : Int) : ContactState :=
  let s := s.onSession fun session => { session with topics := session.topics.insert topic }
  if posted < msecs s.topicUpdated then s
  else if posted = msecs s.topicUpdated ∧ sequence ≤ s.topicSequence then s
  else { s with
    contactTopic := topic
    topicUpdated := some posted
    topicSequence := sequence
    topic := topic
    tsync := .date posted
    tseq := sequence }

def add (item : MessageItem) : ContactState :=
  let s := s.onSession fun session => { session with messages := insertItem session.messages item }
  if item.msgType = .ADMIN ∧ item.msgSubject ≠ [] then
    s.setTopic item.msgSubject item.dateTime item.dateSequence
  else s

/-- The contact was updated after the message. -/
def FillIn (item : MessageItem) : Prop :=
  item.dateTime < msecs s.contactUpdated ∨
    msecs s.contactUpdated = item.dateTime ∧ item.dateSequence < s.contactSequence

instance (item : MessageItem) : Decidable (s.FillIn item) := inferInstanceAs (Decidable (_ ∨ _))

def noteTopic (item : MessageItem) : ContactState :=
  if item.msgType = .ADMIN then s.setTopic item.msgSubject item.dateTime item.dateSequence else s

def addMessage (item : MessageItem) : ContactState :=
  let s := (s.add item).noteTopic item
  if s.FillIn item then s
  else { s with
    contactUpdated := some item.dateTime
    contactSequence := item.dateSequence
    last := .date item.dateTime
    sequence := item.dateSequence }

def opened : ContactState :=
  { s with session := some (s.session.getD (SessionItem.create s.contactTopic)) }

def latest (newest : Option Int × Int) (item : MessageItem) : Option Int × Int :=
  if msecs newest.1 < item.dateTime then (some item.dateTime,item.dateSequence) else newest

def load (records : List MessageItem) : ContactState :=
  let newest := records.foldl latest (s.contactUpdated,0)
  let s := (records.foldl add s).onSession fun session => { session with loaded := true }
  if msecs s.contactUpdated < msecs newest.1 then
    { s with last := DateColumn.bind newest.1, sequence := newest.2 }
  else s

def close : ContactState := { s with session := none, last := .null }

/-- `ContactItem::ContactItem`, from the columns. -/
def reload : ContactState := { s with
  contactUpdated := s.last.read
  contactSequence := s.sequence
  contactTopic := s.topic
  topicUpdated := s.tsync.read
  topicSequence := s.tseq
  session := none }

end ContactState

end Desktop

open Desktop

structure Desktop where
  /-- In the order in which they were loaded. -/
  contacts : Table ContactRow Int ContactRow.uid
  messages : Table Desktop.MessageRow (Int × Int × Int) Desktop.MessageRow.key := default
  state : Int → ContactState := fun _ => {}
  /-- The own extension. -/
  me : Int
  /-- How long messages are kept, in seconds. -/
  expiration : Int := 604800
  /-- Sessions, by the uids of their contacts. -/
  activeItem : Option Int := none
  inputItem : Option Int := none
  /-- The session of `inputItem` has been deleted. -/
  inputGone : Bool := false
  totalUnread : Int := 0

namespace Desktop

variable (d : Desktop)

def findExtension (number : Int) : Option ContactRow :=
  d.contacts.rows.reverse.find? fun contact => contact.isLocal && contact.extension = number

def find (id : UString) : Option ContactRow :=
  if UString.isNumber id then d.findExtension (UString.toInt id)
  else if 64 ∉ id ∨ id.head? = some 64 then none
  else d.contacts.rows.reverse.find? fun contact => contact.isForeign && contact.uri = id

def self : Option ContactRow := if d.me < 1 then none else d.findExtension d.me

def isSelf (uid : Int) : Bool := (d.self.map ContactRow.uid) = some uid

def hasContact (uid : Int) : Bool := d.contacts.rows.any fun contact => contact.uid = uid

def modify (uid : Int) (change : ContactState → ContactState) : Desktop :=
  { d with state := Function.update d.state uid (change (d.state uid)) }

def session? (uid : Int) : Option SessionItem := (d.state uid).session

def stored (uid : Int) : List MessageRow := d.messages.select fun row => row.sid = uid

def clearUnread (uid : Int) : Desktop :=
  match d.session? uid with
  | some session => { d.modify uid (·.onSession fun session => { session with unreadCount := 0 }) with
      totalUnread := d.totalUnread - session.unreadCount }
  | none => d

def addUnread (uid : Int) : Desktop :=
  { d.modify uid (·.onSession fun session => { session with unreadCount := session.unreadCount + 1 }) with
    totalUnread := d.totalUnread + 1 }

def scrollToBottom : Desktop :=
  match d.activeItem with
  | some uid => if ((d.session? uid).map SessionItem.messages).getD [] = [] then d else d.clearUnread uid
  | none => d

/-- Where a message with both contacts known belongs. -/
def sessionOf (sender recipient : ContactRow) : Int :=
  if d.isSelf recipient.uid || sender.isGroup then sender.uid else recipient.uid

def expires (posted : Int) : Int := posted + d.expiration * 1000

def received (sender recipient : ContactRow) (arrival : Arrival) : MessageItem :=
  let posted := arrival.args.timestamp.getD arrival.now
  { msgFrom := sender.uid
    msgTo := recipient.uid
    msgType := if arrival.args.isAdmin then .ADMIN else .TEXT
    msgSubject := arrival.args.subject
    msgBody := arrival.args.text
    dateTime := posted
    dateSequence := arrival.args.sequence
    expires := d.expires posted
    inbox := !d.isSelf sender.uid }

def delivery (arrival : Arrival) : Option (Int × MessageItem) := do
  let sender ← d.find arrival.args.sipFrom
  let recipient ← d.find arrival.args.sipTo
  return (d.sessionOf sender recipient,d.received sender recipient arrival)

def submitted (uid : Int) (sent : Sent) : MessageItem :=
  let posted := sent.timestamp.getD sent.now
  { msgFrom := (d.self.map ContactRow.uid).getD 0
    msgTo := uid
    msgSubject := (d.state uid).contactTopic
    msgBody := sent.text
    dateTime := posted
    dateSequence := sent.sequence
    expires := d.expires posted
    inbox := false }

def rowOf (uid : Int) (item : MessageItem) : MessageRow where
  msgfrom := item.msgFrom
  msgto := item.msgTo
  sid := uid
  subject := item.msgSubject
  seqid := item.dateSequence
  posted := item.dateTime
  expires := item.expires
  msgtype := item.msgType
  msgtext := item.msgBody

/-- `MessageItem::save`; every session uses the database. -/
def save (uid : Int) (item : MessageItem) : Desktop × MessageItem :=
  let row := rowOf uid item
  ({ d with messages := d.messages.insert row },{ item with saved := decide (d.messages.Admits row) })

def receiveText (arrival : Arrival) : Desktop :=
  match d.delivery arrival with
  | some (uid,item) =>
    let (d,item) := (d.modify uid fun s => s.opened.onSession (·.noteRecent item)).save uid item
    -- probably a duplicate
    if item.saved = false then d
    else
      let loaded := (d.session? uid).any SessionItem.loaded
      let d := if loaded ∨ d.activeItem = some uid then d.modify uid (·.addMessage item) else d
      if d.activeItem = some uid ∧ arrival.bottom then d.scrollToBottom else d.addUnread uid
  | none => d

def record (row : MessageRow) : Option MessageItem :=
  if d.hasContact row.msgfrom && d.hasContact row.msgto then some {
    msgFrom := row.msgfrom
    msgTo := row.msgto
    msgType := row.msgtype
    msgSubject := row.subject
    msgBody := row.msgtext
    dateTime := row.posted
    dateSequence := row.seqid
    expires := row.expires
    inbox := !d.isSelf row.msgfrom }
  else none

def later (a b : MessageRow) : Prop := b.posted < a.posted ∨ b.posted = a.posted ∧ b.seqid ≤ a.seqid

instance : DecidableRel later := fun _ _ => inferInstanceAs (Decidable (_ ∨ _))

/-- The valid messages of the session that have not expired, the newest first. -/
def records (uid now : Int) : List MessageItem :=
  (((d.stored uid).filter fun row => now < row.expires).insertionSort later).filterMap d.record

def loadMessages (uid now : Int) : Desktop :=
  if (d.session? uid).any SessionItem.loaded then d
  else d.modify uid (·.load (d.records uid now))

def activateSelf : Desktop := { d with activeItem := none }

def activateSession (uid now : Int) : Desktop :=
  (({ d with activeItem := some uid }.loadMessages uid now).clearUnread uid).scrollToBottom

def activateContact (uid now : Int) : Desktop :=
  if d.isSelf uid then d.activateSelf else (d.modify uid ContactState.opened).activateSession uid now

/-- `SessionModel::remove` closes only what is listed. Nothing looks whether a text that was sent waits
in the session. -/
def closeSession : Desktop :=
  match d.activeItem with
  | none => d
  | some uid =>
    if (d.session? uid).any SessionItem.listed then
      { (d.modify uid ContactState.close).activateSelf with inputGone := d.inputGone || d.inputItem = some uid }
    else d.activateSelf

def clearSessions : Desktop := { d with
  activeItem := none
  totalUnread := 0
  state := fun uid => (d.state uid).onSession fun session =>
    if session.listed then session.clearMessages else session }

def createMessage : Desktop := { d with inputItem := d.activeItem, inputGone := false }

/-- The session that a message is made for; `inputItem` dangles once its session is deleted, and a message
that was sent is from the own contact. -/
def inputSession : Option Int := if d.inputGone ∨ d.self = none then none else d.inputItem

/-- Where `inputItem` dangles, or is used without an own contact, nothing is made of the text. -/
def finishInput (sent : Option Sent) : Desktop :=
  let after := match d.inputSession,sent with
    | some uid,some sent =>
      let (d,item) := d.save uid (d.submitted uid sent)
      let d := d.modify uid (·.addMessage item)
      if d.activeItem = some uid ∧ sent.bottom then d.scrollToBottom else d.addUnread uid
    | _,_ => d
  { after with inputItem := none, inputGone := false }

def writeRecency : Desktop := { d with
  state := fun uid =>
    let s := d.state uid
    match s.session with
    | some session =>
      if session.listed then
        { s with last := DateColumn.bind session.mostRecent, sequence := session.lastSequence }
      else s
    | none => s }

def syncPending (batch : List Arrival) : Desktop := (batch.foldl receiveText d).writeRecency

def cleanupExpired (now : Int) : Desktop := { d with
  messages := d.messages.delete fun row => row.posted < row.expires && row.expires < now }

def sorted : Table ContactRow Int ContactRow.uid where
  rows := d.contacts.rows.insertionSort fun a b => (d.state b.uid).recency ≤ (d.state a.uid).recency
  distinct := (((List.perm_insertionSort _ _).map _).nodup_iff).mpr d.contacts.distinct

def dated (contact : ContactRow) : Bool := (d.state contact.uid).last.read.isSome

/-- `ContactItem::sessions`: the groups, with the operators put before them, and the users. -/
def sessions : List ContactRow :=
  (d.contacts.rows.filter ContactRow.isOperators).reverse ++
    d.contacts.rows.filter (fun contact => d.dated contact && contact.isGrouped) ++
    d.contacts.rows.filter (fun contact => d.dated contact && !contact.isGrouped && d.me ≠ contact.extension)

/-- The map `groups` has one session for each name. -/
def isListed (contact : ContactRow) : Bool :=
  !contact.isGroup || d.sessions.reverse.find? (fun other =>
    other.isGroup && other.display = contact.display) = some contact

def restart (now : Int) : Desktop :=
  let d := { d.cleanupExpired now with
    contacts := d.sorted
    activeItem := none
    inputItem := none
    inputGone := false
    totalUnread := 0 }
  { d with state := fun uid =>
      let s := (d.state uid).reload
      { s with session := (d.sessions.find? fun contact => contact.uid = uid).map fun contact =>
        { SessionItem.create s.contactTopic with listed := d.isListed contact } } }

inductive Action where
  | receiveText (arrival : Arrival)
  | syncPending (batch : List Arrival)
  | activateContact (uid now : Int)
  | selectSession (uid now : Int)
  | activateSelf
  | closeSession
  | clearSessions
  | createMessage
  | finishInput (sent : Option Sent)
  | restart (now : Int)

def step : Action → Option Desktop
  | .receiveText arrival => some (d.receiveText arrival)
  | .syncPending batch => some (d.syncPending batch)
  | .activateContact uid now => if d.hasContact uid then some (d.activateContact uid now) else none
  | .selectSession uid now =>
    if (d.session? uid).any SessionItem.listed then some (d.activateSession uid now) else none
  | .activateSelf => some d.activateSelf
  | .closeSession => some d.closeSession
  | .clearSessions => some d.clearSessions
  | .createMessage => if d.activeItem = none then none else some d.createMessage
  | .finishInput sent => some (d.finishInput sent)
  | .restart now => some (d.restart now)

namespace ContactState

variable {s s' : ContactState} {item : MessageItem}

structure SameRecency (s s' : ContactState) : Prop where
  recency : s'.recency = s.recency
  contactUpdated : s'.contactUpdated = s.contactUpdated
  contactSequence : s'.contactSequence = s.contactSequence

theorem SameRecency.trans {s'' : ContactState} (first : SameRecency s s') (second : SameRecency s' s'') :
    SameRecency s s'' :=
  ⟨second.recency.trans first.recency,second.contactUpdated.trans first.contactUpdated,
    second.contactSequence.trans first.contactSequence⟩

theorem setTopic_recency (topic : UString) (posted sequence : Int) :
    SameRecency s (s.setTopic topic posted sequence) := by
  simp only [setTopic]
  split
  · exact ⟨rfl,rfl,rfl⟩
  · split <;> exact ⟨rfl,rfl,rfl⟩

theorem setTopic_session {α : Type} {f : SessionItem → α} (topic : UString) (posted sequence : Int)
    (same : ∀ session topics, f { session with topics := topics } = f session) :
    (s.setTopic topic posted sequence).session.map f = s.session.map f := by
  have listed (s' : ContactState) : (s'.onSession fun session =>
      { session with topics := session.topics.insert topic }).session.map f = s'.session.map f := by
    cases h : s'.session <;> simp [onSession,h,same]
  simp only [setTopic]
  split
  · exact listed s
  · split
    · exact listed s
    · exact listed s

theorem add_recency : SameRecency s (s.add item) := by
  have inserted : SameRecency s (s.onSession fun session =>
      { session with messages := insertItem session.messages item }) := ⟨rfl,rfl,rfl⟩
  simp only [add]
  split
  · exact inserted.trans (setTopic_recency ..)
  · exact inserted

theorem noteRecent_session {α : Type} {f : SessionItem → α} (item : MessageItem)
    (same : ∀ session time sequence,
      f { session with mostRecent := time, lastSequence := sequence } = f session) :
    (s.onSession (·.noteRecent item)).session.map f = s.session.map f := by
  have noted (session : SessionItem) : f (session.noteRecent item) = f session := by
    rw [SessionItem.noteRecent]
    split
    · exact same ..
    · split
      · exact same session session.mostRecent _
      · rfl
  cases h : s.session <;> simp [onSession,h,noted]

/-- A message is added to its place, and may add a topic. -/
theorem add_session {α : Type} {f g : SessionItem → α}
    (topics : ∀ session topics, f { session with topics := topics } = f session)
    (placed : ∀ session, f { session with messages := insertItem session.messages item } = g session) :
    (s.add item).session.map f = s.session.map g := by
  have inserted : (s.onSession fun session =>
      { session with messages := insertItem session.messages item }).session.map f = s.session.map g := by
    cases h : s.session <;> simp [onSession,h,placed]
  simp only [add]
  split
  · rw [setTopic_session _ _ _ topics,inserted]
  · exact inserted

theorem addMessage_session {α : Type} {f g : SessionItem → α}
    (topics : ∀ session topics, f { session with topics := topics } = f session)
    (placed : ∀ session, f { session with messages := insertItem session.messages item } = g session) :
    (s.addMessage item).session.map f = s.session.map g := by
  have noted : ((s.add item).noteTopic item).session.map f = s.session.map g := by
    rw [← add_session topics placed,noteTopic]
    split
    · exact setTopic_session _ _ _ topics
    · rfl
  rw [← noted]
  simp only [addMessage]
  split <;> rfl

/-- A fill-in leaves the contact's recency alone, and any other message takes it over. -/
theorem addMessage_recency :
    (s.addMessage item).recency = if s.FillIn item then s.recency else item.recency := by
  have noted : SameRecency s ((s.add item).noteTopic item) := by
    rw [noteTopic]
    split
    · exact add_recency.trans (setTopic_recency ..)
    · exact add_recency
  have same : ((s.add item).noteTopic item).FillIn item ↔ s.FillIn item := by
    rw [FillIn,FillIn,noted.contactUpdated,noted.contactSequence]
  simp only [addMessage,same]
  split
  · exact noted.recency
  · rfl

theorem foldl_add_recency (records : List MessageItem) : SameRecency s (records.foldl add s) := by
  induction records generalizing s with
  | nil => exact ⟨rfl,rfl,rfl⟩
  | cons item rest ih => exact add_recency.trans ih

end ContactState

section Touched

variable {d d' d'' : Desktop} {uid other : Int} {s : ContactState}

@[simp] theorem state_modify (change : ContactState → ContactState) :
    (d.modify uid change).state uid = change (d.state uid) := Function.update_self ..

theorem state_modify_ne (apart : other ≠ uid) (change : ContactState → ContactState) :
    (d.modify uid change).state other = d.state other := Function.update_of_ne apart ..

def ContactState.uncounted (s : ContactState) : ContactState :=
  s.onSession fun session => { session with unreadCount := 0 }

@[simp] theorem uncounted_count (change : SessionItem → Nat) :
    (s.onSession fun session => { session with unreadCount := change session }).uncounted = s.uncounted := by
  simp only [ContactState.uncounted,ContactState.onSession,Option.map_map]
  rfl

theorem session_congr {α : Type} {f : SessionItem → α} {s s' : ContactState}
    (ignored : ∀ session count, f { session with unreadCount := count } = f session)
    (same : s'.uncounted = s.uncounted) : s'.session.map f = s.session.map f := by
  have plain (s : ContactState) : s.uncounted.session.map f = s.session.map f := by
    cases h : s.session <;> simp [ContactState.uncounted,ContactState.onSession,h,ignored]
  rw [← plain,same,plain]

structure SameBook (d d' : Desktop) : Prop where
  contacts : d'.contacts = d.contacts
  me : d'.me = d.me
  expiration : d'.expiration = d.expiration

theorem SameBook.trans (first : SameBook d d') (second : SameBook d' d'') : SameBook d d'' :=
  ⟨second.contacts.trans first.contacts,second.me.trans first.me,second.expiration.trans first.expiration⟩

theorem SameBook.delivery (book : SameBook d d') : d'.delivery = d.delivery := by
  cases d
  cases d'
  obtain ⟨rfl,rfl,rfl⟩ := book
  rfl

theorem SameBook.find (book : SameBook d d') : d'.find = d.find := by
  cases d
  cases d'
  obtain ⟨rfl,rfl,rfl⟩ := book
  rfl

/-- Of `d`, only the contact's state has changed, and unread counts. -/
structure Touched (d d' : Desktop) (uid : Int) (s : ContactState) : Prop where
  contacts : d'.contacts = d.contacts
  messages : d'.messages = d.messages
  me : d'.me = d.me
  expiration : d'.expiration = d.expiration
  activeItem : d'.activeItem = d.activeItem
  inputItem : d'.inputItem = d.inputItem
  state : (d'.state uid).uncounted = s.uncounted
  others : ∀ other, other ≠ uid → (d'.state other).uncounted = (d.state other).uncounted

theorem Touched.modify (change : ContactState → ContactState) :
    Touched d (d.modify uid change) uid (change (d.state uid)) :=
  ⟨rfl,rfl,rfl,rfl,rfl,rfl,by rw [state_modify],fun _ apart => by rw [state_modify_ne apart]⟩

theorem Touched.trans (first : Touched d d' uid s) {s' : ContactState}
    (second : Touched d' d'' uid s') : Touched d d'' uid s' where
  contacts := second.contacts.trans first.contacts
  messages := second.messages.trans first.messages
  me := second.me.trans first.me
  expiration := second.expiration.trans first.expiration
  activeItem := second.activeItem.trans first.activeItem
  inputItem := second.inputItem.trans first.inputItem
  state := second.state
  others := fun other apart => (second.others other apart).trans (first.others other apart)

def Recounted (d d' : Desktop) : Prop := ∃ state total,
  d' = { d with state := state, totalUnread := total } ∧
    ∀ uid, (state uid).uncounted = (d.state uid).uncounted

theorem Touched.recounted (touched : Touched d d' uid s) (recounted : Recounted d' d'') :
    Touched d d'' uid s := by
  obtain ⟨state,total,rfl,same⟩ := recounted
  exact ⟨touched.contacts,touched.messages,touched.me,touched.expiration,touched.activeItem,
    touched.inputItem,(same uid).trans touched.state,
    fun other apart => (same other).trans (touched.others other apart)⟩

theorem recounted_modify {change : SessionItem → Nat} {total : Int} :
    Recounted d { d.modify uid (·.onSession fun session => { session with unreadCount := change session }) with
      totalUnread := total } := by
  refine ⟨_,_,rfl,fun other => ?_⟩
  by_cases same : other = uid
  · subst same
    rw [state_modify,uncounted_count]
  · rw [state_modify_ne same]

theorem recounted_addUnread : Recounted d (d.addUnread uid) := recounted_modify

theorem recounted_clearUnread : Recounted d (d.clearUnread uid) := by
  rw [clearUnread]
  split
  · exact recounted_modify
  · exact ⟨_,_,rfl,fun _ => rfl⟩

theorem recounted_scrollToBottom : Recounted d d.scrollToBottom := by
  rw [scrollToBottom]
  split
  · split
    · exact ⟨_,_,rfl,fun _ => rfl⟩
    · exact recounted_clearUnread
  · exact ⟨_,_,rfl,fun _ => rfl⟩

/-- The message is told of at the end of `receiveText` and `finishInput`. -/
theorem Touched.told (touched : Touched d d' uid s) (bottom : Bool) :
    Touched d (if d'.activeItem = some uid ∧ bottom then d'.scrollToBottom else d'.addUnread uid) uid s := by
  split
  · exact touched.recounted recounted_scrollToBottom
  · exact touched.recounted recounted_addUnread

end Touched

section Effects

variable {d : Desktop} {uid : Int} {arrival : Arrival} {item : MessageItem}

theorem save_refused (refused : ¬d.messages.Admits (rowOf uid item)) :
    d.save uid item = (d,{ item with saved := false }) := by
  simp only [save,Table.insert,dif_neg refused,decide_eq_false refused]

theorem save_admitted (admitted : d.messages.Admits (rowOf uid item)) :
    d.save uid item = ({ d with messages := d.messages.insert (rowOf uid item) },{ item with saved := true }) := by
  simp only [save,decide_eq_true admitted]

theorem receiveText_unknown (unknown : d.delivery arrival = none) : d.receiveText arrival = d := by
  rw [receiveText,unknown]

/-- A message that is stored already is only noted. -/
theorem receiveText_refused (found : d.delivery arrival = some (uid,item))
    (refused : ¬d.messages.Admits (rowOf uid item)) :
    d.receiveText arrival = d.modify uid fun s => s.opened.onSession (·.noteRecent item) := by
  have kept (change : ContactState → ContactState) : (d.modify uid change).save uid item = _ :=
    save_refused refused
  simp only [receiveText,found,kept]
  rfl

/-- A new message is stored, and shown in a session that is loaded or active. -/
theorem receiveText_admitted (found : d.delivery arrival = some (uid,item))
    (admitted : d.messages.Admits (rowOf uid item)) :
    let noted := (d.state uid).opened.onSession (·.noteRecent item)
    Touched { d with messages := d.messages.insert (rowOf uid item) } (d.receiveText arrival) uid
      (if noted.session.any SessionItem.loaded ∨ d.activeItem = some uid
        then noted.addMessage { item with saved := true } else noted) := by
  intro noted
  have stored : (d.modify uid fun s => s.opened.onSession (·.noteRecent item)).save uid item = _ :=
    save_admitted admitted
  have first : Touched _ _ uid _ := Touched.modify
    (d := { d with messages := d.messages.insert (rowOf uid item) })
    fun s => s.opened.onSession (·.noteRecent item)
  simp only [receiveText,found]
  change Touched _ (if (Prod.snd (save _ uid item)).saved = false then _ else _) _ _
  rw [stored]
  simp only [Bool.true_eq_false,if_false]
  apply Touched.told
  let taken := { d.modify uid (fun s => s.opened.onSession (·.noteRecent item)) with
    messages := d.messages.insert (rowOf uid item) }
  have here : taken.state uid = noted := Function.update_self ..
  change Touched _ (if (taken.state uid).session.any SessionItem.loaded ∨ d.activeItem = some uid then _ else _) _ _
  rw [here]
  split
  · have shown := first.trans (Touched.modify (d := taken) (·.addMessage { item with saved := true }))
    rwa [here] at shown
  · exact first

theorem receiveText_book (d : Desktop) (arrival : Arrival) : SameBook d (d.receiveText arrival) := by
  cases found : d.delivery arrival with
  | none =>
    rw [receiveText_unknown found]
    exact ⟨rfl,rfl,rfl⟩
  | some delivery =>
  by_cases admitted : d.messages.Admits (rowOf delivery.1 delivery.2)
  · have touched := receiveText_admitted found admitted
    exact ⟨touched.contacts,touched.me,touched.expiration⟩
  · rw [receiveText_refused found admitted]
    exact ⟨rfl,rfl,rfl⟩

/-- The row that a message is stored in is inserted, though the table may refuse it. -/
theorem receiveText_messages (found : d.delivery arrival = some (uid,item)) :
    (d.receiveText arrival).messages = d.messages.insert (rowOf uid item) := by
  by_cases admitted : d.messages.Admits (rowOf uid item)
  · exact (receiveText_admitted found admitted).messages
  · have same : d.messages.insert (rowOf uid item) = d.messages := dif_neg admitted
    rw [receiveText_refused found admitted,same]
    rfl

variable (d uid) in
theorem loadMessages_touched (now : Int) : Touched d (d.loadMessages uid now) uid
    (if (d.session? uid).any SessionItem.loaded then d.state uid
      else (d.state uid).load (d.records uid now)) := by
  rw [loadMessages]
  split
  · exact ⟨rfl,rfl,rfl,rfl,rfl,rfl,rfl,fun _ _ => rfl⟩
  · exact .modify (·.load (d.records uid now))

variable (d uid) in
theorem activateSession_touched (now : Int) :
    Touched { d with activeItem := some uid } (d.activateSession uid now) uid
      (if (d.session? uid).any SessionItem.loaded then d.state uid
        else (d.state uid).load (d.records uid now)) :=
  ((loadMessages_touched { d with activeItem := some uid } uid now).recounted
    recounted_clearUnread).recounted recounted_scrollToBottom

theorem close_touched (gone : Bool) : Touched { d with activeItem := none }
    { (d.modify uid ContactState.close).activateSelf with inputGone := gone } uid (d.state uid).close := by
  have closed : Touched { d with activeItem := none } _ uid _ := .modify ContactState.close
  exact ⟨rfl,rfl,rfl,rfl,rfl,rfl,closed.state,closed.others⟩

theorem inputSession_item (waiting : d.inputSession = some uid) : d.inputItem = some uid := by
  rw [inputSession] at waiting
  split at waiting
  · contradiction
  · exact waiting

theorem finishInput_none (d : Desktop) : d.finishInput none = { d with inputItem := none, inputGone := false } := by
  cases waiting : d.inputSession <;> simp only [finishInput,waiting]

theorem finishInput_lost (lost : d.inputSession = none) (sent : Option Sent) :
    d.finishInput sent = { d with inputItem := none, inputGone := false } := by
  simp only [finishInput,lost]

theorem finishInput_touched (waiting : d.inputSession = some uid) (sent : Sent) :
    let item := d.submitted uid sent
    Touched { d with messages := d.messages.insert (rowOf uid item), inputItem := none, inputGone := false }
      (d.finishInput (some sent)) uid
      ((d.state uid).addMessage { item with saved := decide (d.messages.Admits (rowOf uid item)) }) := by
  intro item
  have shown : Touched { d with messages := d.messages.insert (rowOf uid item) } _ uid _ :=
    .modify (·.addMessage { item with saved := decide (d.messages.Admits (rowOf uid item)) })
  have told := shown.told sent.bottom
  simp only [finishInput,waiting]
  exact ⟨told.contacts,told.messages,told.me,told.expiration,told.activeItem,rfl,told.state,told.others⟩

end Effects

end Desktop

end SipWitch
