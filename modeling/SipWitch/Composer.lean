import SipWitch.SessionModel
import SipWitch.Answers
import SipWitch.Delivery
import SipWitch.Transition

/-! The input line of the sessions. A text that the user sends stays with its session until the
server has answered, and becomes one of its messages then. Results of the connector's thread and
the news that the desktop is online wait in one queue; the connection may be lost at any time. -/
namespace SipWitch

namespace SessionModel.Sessions.QString

/-- `QString::toUtf8`; what is no character becomes a question mark. -/
def toUtf8 : QString → UString
  | [] => []
  | c :: rest =>
    let u := c.val
    if u < 0x80 then u.toUInt8 :: toUtf8 rest
    else if u < 0x800 then (0xC0 + u / 64).toUInt8 :: (0x80 + u % 64).toUInt8 :: toUtf8 rest
    else if u < 0xD800 ∨ 0xE000 ≤ u then
      (0xE0 + u / 4096).toUInt8 :: (0x80 + u / 64 % 64).toUInt8 :: (0x80 + u % 64).toUInt8 :: toUtf8 rest
    else
      match rest with
      | [] => [63]
      | low :: others =>
        if u < 0xDC00 ∧ 0xDC00 ≤ low.val ∧ low.val < 0xE000 then
          let ucs4 := 0x10000 + (u - 0xD800) * 1024 + (low.val - 0xDC00)
          (0xF0 + ucs4 / 262144).toUInt8 :: (0x80 + ucs4 / 4096 % 64).toUInt8 ::
            (0x80 + ucs4 / 64 % 64).toUInt8 :: (0x80 + ucs4 % 64).toUInt8 :: toUtf8 others
        else 63 :: toUtf8 (low :: others)

@[simp] theorem toUtf8_nil : toUtf8 [] = [] := rfl

theorem toUtf8_pos {text : QString} (some : text ≠ []) : 0 < text.toUtf8.length := by
  cases text with
  | nil => contradiction
  | cons c rest =>
    rw [toUtf8.eq_def]
    dsimp only
    split
    · simp
    split
    · simp
    split
    · simp
    split
    · simp
    · split <;> simp

end SessionModel.Sessions.QString

open SessionModel.Sessions (QString)

namespace Composer

/-- `setText` is followed by the next round of `checkInput`. -/
def checkRounds : Nat → QString → QString
  | 0, text => text
  | rounds + 1, text => if 155 < text.toUtf8.length then checkRounds rounds text.dropLast else text

/-- What `Sessions::checkInput` leaves in the input when it is given a text. -/
def checkInput (text : QString) : QString := checkRounds text.length text

theorem checkRounds_length {rounds : Nat} {text : QString} (enough : text.length ≤ rounds) :
    (checkRounds rounds text).toUtf8.length ≤ 155 := by
  induction rounds generalizing text with
  | zero =>
    obtain rfl := List.length_eq_zero_iff.mp (Nat.le_zero.mp enough)
    simp [checkRounds]
  | succ rounds ih =>
    rw [checkRounds]
    split
    · exact ih (by simp; omega)
    · omega

theorem checkInput_length (text : QString) : (checkInput text).toUtf8.length ≤ 155 :=
  checkRounds_length le_rfl

structure SessionItem where
  uri : UString
  topic : QString
  inputText : QString := []

structure Request where
  connector : Nat
  target : UString
  body : UString
  subject : UString

/-- How a text is answered: with success, and when and as which it was taken; with 400 and so
much, or not at all; or with something else. The server does not ask for credentials. -/
inductive Answer where
  | ok (ts ms : Option UString)
  | failure (status : Option (Fin 100))
  | other

structure Accepted where
  target : UString
  body : UString
  ts : Option UString
  ms : Option UString

inductive Posted where
  | messageResult (error : Nat) (timestamp : Option Int) (sequence : Int)
  | authorized
  deriving DecidableEq

structure MessageItem where
  session : Nat
  target : UString
  body : UString
  subject : UString
  posted : Int
  sequence : Int

structure Wire where
  connector : Option Nat := none
  /-- How many connectors there have been. -/
  made : Nat := 0
  requests : List Request := []
  posted : List Posted := []
  accepted : List Accepted := []

/-- How a session is used that is gone. -/
inductive Fault where
  /-- It is given the text of the input, which is lost. -/
  | setText
  /-- A message is to be made of its text, and none is. -/
  | message
  deriving DecidableEq

end Composer

open Composer

/-- Sessions go by their places in the order in which they were made. -/
structure Composer extends Wire where
  sessions : List (Option SessionItem) := []
  activeItem : Option Nat := none
  inputItem : Option Nat := none
  input : QString := []
  enabled : Bool := true
  stored : List MessageItem := []
  errors : List String := []
  faults : List Fault := []

namespace Composer

variable (s : Composer)

def session? (i : Nat) : Option SessionItem := s.sessions[i]?.join

def setText (i : Nat) (text : QString) : Composer :=
  match s.session? i with
  | some item => { s with sessions := s.sessions.set i (some { item with inputText := text }) }
  | none => { s with faults := s.faults ++ [.setText] }

/-- The session that is left keeps what is in the input. -/
def leave : Composer :=
  match s.activeItem with
  | none => s
  | some i => s.setText i s.input

def activateSelf : Composer := { s.leave with activeItem := none, input := [] }

def activateSession (i : Nat) : Option Composer :=
  (s.leave.session? i).map fun item =>
    { s.leave with activeItem := some i, input := checkInput item.inputText }

def delete (i : Nat) : Composer := { s with sessions := s.sessions.set i none }

def remove (i : Nat) (current : Bool) : Composer :=
  if s.activeItem = some i then
    (if current then s.activateSelf else { s with activeItem := none, input := [] }).delete i
  else s.delete i

/-- The session is deleted first, and is left afterwards. -/
def closeSession : Composer :=
  match s.activeItem with
  | none => s
  | some i => (s.delete i).activateSelf

def sendText (connector : Nat) (target body subject : UString) : Composer :=
  { s with requests := s.requests ++ [{ connector, target, body, subject }] }

def createMessage (built : Bool) : Option Composer :=
  if s.input = [] then some s
  else do
    let i ← s.activeItem
    let item ← s.session? i
    match s.connector,built with
    | none,_ => some { s with errors := s.errors ++ ["Not online"] }
    | some _,false => some { s with errors := s.errors ++ ["Send failed"] }
    | some connector,true =>
      let sent := s.sendText connector item.uri s.input.toUtf8 item.topic.toUtf8
      some ({ sent with enabled := false, inputItem := some i : Composer }.setText i s.input)

def connect : Composer :=
  { s with connector := some s.made, made := s.made + 1, enabled := true }

/-- `changeConnector(nullptr)`; the session that waits for an answer is not forgotten. -/
def disconnect : Composer := { s with connector := none, enabled := false }

variable (lib : Libraries)

/-- The signals of `Connector::run` for the answer to a text. -/
def messageResult : Answer → List Posted
  | .ok (some ts) ms => [.messageResult 200 (lib.fromIso ts) ((ms.map UString.atoi).getD 0)]
  | .ok none _ => [.messageResult 200 none 0]
  | .failure none => [.messageResult 666 none 0]
  | .failure (some code) => [.messageResult (400 + code) none 0]
  | .other => []

def accept (r : Request) : Answer → List Accepted
  | .ok ts ms => [{ target := r.target, body := r.body, ts, ms }]
  | _ => []

/-- The server answers one of the texts. Its connector tells so, unless it was stopped. -/
def answer (n : Nat) (a : Answer) : Option Composer :=
  s.requests[n]?.map fun r => { s with
    requests := s.requests.eraseIdx n
    accepted := s.accepted ++ accept r a
    posted := s.posted ++ if some r.connector = s.connector then messageResult lib a else [] }

/-- The database takes the row, unless it has one of that contact, time and number. -/
def addMessage (timestamp : Option Int) (sequence now : Int) (inserted : Bool) : Composer :=
  match s.inputItem with
  | none => s
  | some i =>
    match s.session? i with
    | none => { s with faults := s.faults ++ [.message] }
    | some item => { s with
        stored := s.stored ++ if inserted then [{
          session := i
          target := item.uri
          body := item.inputText.toUtf8
          subject := item.topic.toUtf8
          posted := timestamp.getD now
          sequence }] else []
        sessions := s.sessions.set i (some { item with inputText := [] })
        input := if s.activeItem = some i then [] else s.input }

/-- An error leaves the text where it is. -/
def finishInput (error : String) (timestamp : Option Int) (sequence now : Int) (inserted : Bool) : Composer :=
  { (if error ≠ "" then { s with errors := s.errors ++ [error] }
      else s.addMessage timestamp sequence now inserted) with
    inputItem := none
    enabled := true }

/-- The main thread takes what was posted first. -/
def deliver (now : Int) (inserted : Bool) : Option Composer :=
  match s.posted with
  | [] => none
  | .authorized :: rest =>
    some (if s.connector.isSome then { s with posted := rest } else { s with posted := rest }.connect)
  | .messageResult error timestamp sequence :: rest =>
    let s := { s with posted := rest }
    some (if s.inputItem = none then s
      else s.finishInput (if error = 200 then "" else "Failed to send") timestamp sequence now inserted)

inductive Action where
  | create (uri : UString) (topic : QString)
  | setTopic (i : Nat) (topic : QString)
  | edit (text : QString)
  | createMessage (built : Bool)
  | activateSession (i : Nat)
  | activateSelf
  | remove (i : Nat) (current : Bool)
  | closeSession
  | authorized
  | disconnect
  | answer (n : Nat) (a : Answer)
  | deliver (now : Int) (inserted : Bool)

/-- The input takes keys when it is enabled and a session is shown. A listener logs in when the
desktop is offline, and once. -/
def step : Action → Option Composer
  | .create uri topic => some { s with sessions := s.sessions ++ [some { uri, topic }] }
  | .setTopic i topic => (s.session? i).map fun item =>
    { s with sessions := s.sessions.set i (some { item with topic }) }
  | .edit text => if s.enabled ∧ s.activeItem.isSome then some { s with input := checkInput text } else none
  | .createMessage built => if s.enabled then s.createMessage built else none
  | .activateSession i => s.activateSession i
  | .activateSelf => some s.activateSelf
  | .remove i current => if (s.session? i).isSome then some (s.remove i current) else none
  | .closeSession => some s.closeSession
  | .authorized =>
    if s.connector = none ∧ .authorized ∉ s.posted then some { s with posted := s.posted ++ [.authorized] } else none
  | .disconnect => some s.disconnect
  | .answer n a => s.answer lib n a
  | .deliver now inserted => s.deliver now inserted

abbrev Run (lib : Libraries) := Transition.Run (fun s => step s lib)

def Posted.isResult : Posted → Bool
  | .messageResult .. => true
  | .authorized => false

def results : List Posted := s.posted.filter Posted.isResult

/-- The texts that the connector waits for. -/
def live : List Request := s.requests.filter fun r => some r.connector = s.connector

/-- The text is still with the session that waits, if it is there, and in the input if that session
is shown. -/
def Holds (target body : UString) : Prop :=
  ∃ i, s.inputItem = some i ∧ ∀ item, s.session? i = some item →
    item.uri = target ∧ item.inputText.toUtf8 = body ∧ (s.activeItem = some i → s.input = item.inputText)

/-- The message is the text that was accepted, of the time and with the number of the answer. -/
structure Matches (m : MessageItem) (a : Accepted) : Prop where
  target : m.target = a.target
  body : m.body = a.body
  result : ∃ timestamp, messageResult lib (.ok a.ts a.ms) = [.messageResult 200 timestamp m.sequence] ∧
    ∀ time, timestamp = some time → m.posted = time

def Kept (stored : List MessageItem) (accepted : List Accepted) : Prop :=
  ∃ taken : List Accepted, taken.Sublist accepted ∧ List.Forall₂ (Matches lib) stored taken

/-- A session is shown that there is, and no text is too long. -/
structure Screen (s : Composer) : Prop where
  active : ∀ i, s.activeItem = some i → (s.session? i).isSome
  waiting : ∀ i, s.inputItem = some i → i < s.sessions.length
  idle : s.activeItem = none → s.input = []
  input : s.input.toUtf8.length ≤ 155
  texts : ∀ i item, s.session? i = some item → item.inputText.toUtf8.length ≤ 155

/-- One text is under way at most, and as long as it is nothing else is typed. -/
structure Sound : Prop where
  screen : Screen s
  older : ∀ r ∈ s.requests, r.connector < s.made
  newest : ∀ c, s.connector = some c → c < s.made
  order : ∃ n, s.posted = s.results ++ List.replicate n .authorized ∧ (n = 0 ∨ n = 1 ∧ s.connector = none)
  one : s.live.length + s.results.length ≤ 1
  locked : 0 < s.live.length + s.results.length → s.enabled = false ∧ s.inputItem.isSome
  short : ∀ r ∈ s.requests, 0 < r.body.length ∧ r.body.length ≤ 155
  sent : ∀ r ∈ s.live, s.Holds r.target r.body
  answered : ∀ timestamp sequence, .messageResult 200 timestamp sequence ∈ s.results →
    ∃ before a after, s.accepted = before ++ a :: after ∧ Kept lib s.stored before ∧
      messageResult lib (.ok a.ts a.ms) = [.messageResult 200 timestamp sequence] ∧ s.Holds a.target a.body
  kept : Kept lib s.stored s.accepted

variable {s next : Composer} {lib : Libraries} {i j : Nat} {item : SessionItem} {timestamp : Option Int}
  {sequence now : Int}

theorem Kept.mono (kept : Kept lib messages before) (sub : before.Sublist more) : Kept lib messages more := by
  obtain ⟨taken,within,same⟩ := kept
  exact ⟨taken,within.trans sub,same⟩

theorem Kept.snoc (kept : Kept lib messages before) (same : Matches lib m a) :
    Kept lib (messages ++ [m]) (before ++ a :: after) := by
  obtain ⟨taken,within,pairs⟩ := kept
  refine ⟨taken ++ [a],within.append (List.singleton_sublist.mpr List.mem_cons_self),?_⟩
  exact List.rel_append pairs (.cons same .nil)

theorem session?_set (s : Composer) (i : Nat) (x : Option SessionItem) (j : Nat) (inside : i < s.sessions.length) :
    ({ s with sessions := s.sessions.set i x } : Composer).session? j = if i = j then x else s.session? j := by
  by_cases here : i = j
  · subst here
    simp [session?,inside]
  · simp [session?,here]

theorem session?_inside (found : s.session? i = some item) : i < s.sessions.length := by
  by_contra beyond
  simp [session?,List.getElem?_eq_none (Nat.le_of_not_lt beyond)] at found

theorem checkInput_of_short (short : text.toUtf8.length ≤ 155) : checkInput text = text := by
  rw [checkInput]
  cases text.length with
  | zero => rfl
  | succ n => simp [checkRounds,short]

theorem live_of_wire (wire : next.toWire = s.toWire) : next.live = s.live := by
  simp [live,wire]

theorem results_of_wire (wire : next.toWire = s.toWire) : next.results = s.results := by
  simp [results,wire]

/-- What is done with the sessions keeps the text that is waited for. -/
theorem Sound.framed (sound : Sound s lib) (screen : Screen next) (wire : next.toWire = s.toWire)
    (stored : next.stored = s.stored) (enabled : next.enabled = s.enabled) (waiting : next.inputItem = s.inputItem)
    (holds : ∀ target body, s.Holds target body → next.Holds target body) : Sound next lib := by
  have live := live_of_wire wire
  have results := results_of_wire wire
  refine ⟨screen,?_,?_,?_,?_,?_,?_,?_,?_,?_⟩
  · simpa [wire] using sound.older
  · simpa [wire] using sound.newest
  · simpa [wire,results] using sound.order
  · simpa [live,results] using sound.one
  · simpa [live,results,enabled,waiting] using sound.locked
  · simpa [wire] using sound.short
  · exact fun r member => holds _ _ (sound.sent r (live ▸ member))
  · intro timestamp sequence member
    obtain ⟨before,a,after,split,kept,same,held⟩ := sound.answered timestamp sequence (results ▸ member)
    exact ⟨before,a,after,by simpa [wire] using split,stored ▸ kept,same,holds _ _ held⟩
  · simpa [wire,stored] using sound.kept

/-- Where nothing is under way only the messages count. -/
theorem Sound.quiet (sound : Sound s lib) (live : s.live = []) (results : s.results = []) (screen : Screen next)
    (wire : next.toWire = s.toWire) (kept : Kept lib next.stored s.accepted) : Sound next lib := by
  have live' := (live_of_wire wire).trans live
  have results' := (results_of_wire wire).trans results
  refine ⟨screen,?_,?_,?_,?_,?_,?_,?_,?_,?_⟩
  · simpa [wire] using sound.older
  · simpa [wire] using sound.newest
  · simpa [wire,results,results'] using sound.order
  · simp [live',results']
  · simp [live',results']
  · simpa [wire] using sound.short
  · simp [live']
  · simp [results']
  · simpa [wire] using kept

theorem Sound.free (sound : Sound s lib) (enabled : s.enabled = true) : s.live = [] ∧ s.results = [] := by
  have none : ¬0 < s.live.length + s.results.length := fun some => by simp [(sound.locked some).1] at enabled
  exact ⟨List.length_eq_zero_iff.mp (by omega),List.length_eq_zero_iff.mp (by omega)⟩

/-- The sessions when the one that is shown has been left. -/
def saved (s : Composer) (j : Nat) : Option SessionItem :=
  if s.activeItem = some j then (s.session? j).map fun item => { item with inputText := s.input } else s.session? j

theorem saved_isSome : (s.saved j).isSome = (s.session? j).isSome := by
  simp only [saved]
  split <;> simp

theorem Screen.saved (screen : Screen s) (found : s.saved j = some item) : item.inputText.toUtf8.length ≤ 155 := by
  simp only [Composer.saved] at found
  split at found
  · obtain ⟨_,-,rfl⟩ := Option.map_eq_some_iff.mp found
    exact screen.input
  · exact screen.texts j item found

/-- The text that is waited for is left as it is. -/
theorem Holds.saved (holds : s.Holds target body) : ∃ i, s.inputItem = some i ∧ s.saved i = s.session? i ∧
    ∀ item, s.session? i = some item → item.uri = target ∧ item.inputText.toUtf8 = body := by
  obtain ⟨i,waiting,text⟩ := holds
  refine ⟨i,waiting,?_,fun item found => ⟨(text item found).1,(text item found).2.1⟩⟩
  simp only [Composer.saved]
  split
  · rename_i shown
    cases found : s.session? i with
    | none => rfl
    | some item => simp [(text item found).2.2 shown]
  · rfl

theorem setText_there (found : s.session? i = some item) (text : QString) : s.setText i text =
    { s with sessions := s.sessions.set i (some { item with inputText := text }) } := by
  simp only [setText,found]

theorem Screen.leave (screen : Screen s) : ∃ sessions, s.leave = { s with sessions } ∧
    sessions.length = s.sessions.length ∧ ∀ j, ({ s with sessions } : Composer).session? j = s.saved j := by
  rcases Option.eq_none_or_eq_some s.activeItem with shown | ⟨i,shown⟩
  · have same : s.leave = s := by simp only [Composer.leave,shown]
    exact ⟨s.sessions,same,rfl,fun j => by simp [Composer.saved,shown,session?]⟩
  · obtain ⟨item,found⟩ := Option.isSome_iff_exists.mp (screen.active i shown)
    refine ⟨s.sessions.set i (some { item with inputText := s.input }),?_,by simp,fun j => ?_⟩
    · simp only [Composer.leave,shown,setText_there found]
    rw [session?_set s i _ j (session?_inside found)]
    by_cases here : i = j
    · subst here
      simp [Composer.saved,shown,found]
    · simp [Composer.saved,shown,here]

theorem Sound.activateSelf (sound : Sound s lib) : Sound s.activateSelf lib ∧
    ∀ j, s.activateSelf.session? j = s.saved j := by
  obtain ⟨sessions,left,length,saved⟩ := sound.screen.leave
  have same : s.activateSelf = { s with sessions, activeItem := none, input := [] } := by
    rw [Composer.activateSelf,left]
  refine same ▸ ⟨?_,saved⟩
  refine sound.framed ?_ rfl rfl rfl rfl fun target body holds => ?_
  · exact ⟨by simp,fun i waiting => length ▸ sound.screen.waiting i waiting,by simp,
      by simp,
      fun i item found => sound.screen.saved (saved i ▸ found)⟩
  · obtain ⟨i,waiting,same,text⟩ := holds.saved
    refine ⟨i,waiting,fun item found => ?_⟩
    have found := text item (same ▸ saved i ▸ found)
    exact ⟨found.1,found.2,by simp⟩

theorem Sound.activateSession (sound : Sound s lib) (moved : s.activateSession j = some next) : Sound next lib := by
  obtain ⟨sessions,left,length,saved⟩ := sound.screen.leave
  rw [Composer.activateSession,left] at moved
  obtain ⟨shown,there,rfl⟩ := Option.map_eq_some_iff.mp moved
  have short := sound.screen.saved (saved j ▸ there)
  refine sound.framed ?_ rfl rfl rfl rfl fun target body holds => ?_
  · refine ⟨fun i here => ?_,fun i waiting => length ▸ sound.screen.waiting i waiting,by simp,
      checkInput_length _,fun i item found => sound.screen.saved (saved i ▸ found)⟩
    obtain rfl := Option.some.inj here
    exact Option.isSome_iff_exists.mpr ⟨shown,there⟩
  · obtain ⟨i,waiting,same,text⟩ := holds.saved
    refine ⟨i,waiting,fun item found => ?_⟩
    have kept := text item (same ▸ saved i ▸ found)
    refine ⟨kept.1,kept.2,fun here => ?_⟩
    obtain rfl := Option.some.inj here
    obtain rfl := Option.some.inj (there.symm.trans found)
    exact checkInput_of_short short

theorem Sound.delete (sound : Sound s lib) (left : s.activeItem ≠ some i) (there : (s.session? i).isSome) :
    Sound (s.delete i) lib := by
  obtain ⟨item,found⟩ := Option.isSome_iff_exists.mp there
  have inside := session?_inside found
  have sessions (j : Nat) : (s.delete i).session? j = if i = j then none else s.session? j :=
    session?_set s i none j inside
  refine sound.framed ?_ rfl rfl rfl rfl fun target body holds => ?_
  · refine ⟨fun j shown => ?_,fun j waiting => ?_,sound.screen.idle,sound.screen.input,fun j item found => ?_⟩
    · have other : i ≠ j := fun same => left (same ▸ shown)
      rw [sessions,if_neg other]
      exact sound.screen.active j shown
    · simpa [Composer.delete] using sound.screen.waiting j waiting
    · rw [sessions] at found
      split at found
      · contradiction
      · exact sound.screen.texts j item found
  · obtain ⟨j,waiting,text⟩ := holds
    refine ⟨j,waiting,fun item found => ?_⟩
    rw [sessions] at found
    split at found
    · contradiction
    · exact text item found

/-- No session is shown, and what was in the input is not kept. -/
theorem Sound.hide (sound : Sound s lib) (faults : List Fault) :
    Sound { s with activeItem := none, input := [], faults } lib := by
  refine sound.framed ?_ rfl rfl rfl rfl fun target body holds => ?_
  · exact ⟨by simp,sound.screen.waiting,by simp,by simp,sound.screen.texts⟩
  · obtain ⟨i,waiting,text⟩ := holds
    exact ⟨i,waiting,fun item found => ⟨(text item found).1,(text item found).2.1,by simp⟩⟩

theorem Sound.remove (sound : Sound s lib) (there : (s.session? i).isSome) (current : Bool) :
    Sound (s.remove i current) lib := by
  rw [Composer.remove]
  split
  · cases current with
    | true =>
      obtain ⟨kept,sessions⟩ := sound.activateSelf
      exact kept.delete (by simp [Composer.activateSelf]) (by rwa [sessions,saved_isSome])
    | false => exact (sound.hide s.faults).delete (by simp) there
  · rename_i other
    exact sound.delete other there

/-- The session that is shown is gone when it is left. -/
theorem Screen.closeSession (screen : Screen s) (shown : s.activeItem = some i) : s.closeSession =
    ({ s with activeItem := none, input := [], faults := s.faults ++ [.setText] } : Composer).delete i := by
  obtain ⟨item,found⟩ := Option.isSome_iff_exists.mp (screen.active i shown)
  have gone : (s.delete i).session? i = none :=
    (session?_set s i none i (session?_inside found)).trans (if_pos rfl)
  have away : (s.delete i).activeItem = some i := shown
  simp only [Composer.closeSession,shown,Composer.activateSelf,Composer.leave,away,setText,gone]
  rfl

theorem Sound.closeSession (sound : Sound s lib) : Sound s.closeSession lib := by
  rcases Option.eq_none_or_eq_some s.activeItem with away | ⟨i,shown⟩
  · rwa [Composer.closeSession,away]
  · rw [sound.screen.closeSession shown]
    exact (sound.hide _).delete (by simp) (sound.screen.active i shown)

theorem Sound.createMessage (sound : Sound s lib) (enabled : s.enabled = true)
    (moved : s.createMessage built = some next) : Sound next lib := by
  obtain ⟨live,results⟩ := sound.free enabled
  simp only [Composer.createMessage] at moved
  split at moved
  · exact Option.some.inj moved ▸ sound
  rename_i text
  obtain ⟨i,shown,moved⟩ := Option.bind_eq_some_iff.mp moved
  obtain ⟨item,found,moved⟩ := Option.bind_eq_some_iff.mp moved
  have refused (error : String) : Sound { s with errors := s.errors ++ [error] } lib :=
    sound.quiet live results ⟨sound.screen.active,sound.screen.waiting,sound.screen.idle,sound.screen.input,
      sound.screen.texts⟩ rfl sound.kept
  rcases Option.eq_none_or_eq_some s.connector with offline | ⟨connector,connected⟩
  · simp only [offline] at moved
    exact Option.some.inj moved ▸ refused _
  cases built with
  | false =>
    simp only [connected] at moved
    exact Option.some.inj moved ▸ refused _
  | true =>
  simp only [connected] at moved
  have left := setText_there (show ({ s.sendText connector item.uri s.input.toUtf8 item.topic.toUtf8 with
    enabled := false, inputItem := some i } : Composer).session? i = some item from found) s.input
  obtain rfl := (Option.some.inj moved).symm.trans left
  have inside := session?_inside found
  let r : Request := { connector, target := item.uri, body := s.input.toUtf8, subject := item.topic.toUtf8 }
  let sessions := s.sessions.set i (some { item with inputText := s.input })
  have now (j : Nat) := session?_set s i (some { item with inputText := s.input }) j inside
  have one : (s.requests ++ [r]).filter (fun r => some r.connector = s.connector) = [r] := by
    have none : s.requests.filter (fun r => some r.connector = s.connector) = [] := live
    rw [List.filter_append,none]
    simp [r,connected]
  show Sound { s with requests := s.requests ++ [r], enabled := false, inputItem := some i, sessions } lib
  refine ⟨⟨fun j here => ?_,fun j waiting => ?_,sound.screen.idle,sound.screen.input,fun j item' there => ?_⟩,
    fun q member => ?_,sound.newest,sound.order,?_,fun _ => ⟨rfl,rfl⟩,fun q member => ?_,fun q member => ?_,?_,
    sound.kept⟩
  · have := sound.screen.active j here
    exact (now j).symm ▸ (by split <;> simp [this])
  · obtain rfl := Option.some.inj waiting
    simpa [sessions] using inside
  · have there := (now j).symm.trans there
    split at there
    · obtain rfl := Option.some.inj there
      exact sound.screen.input
    · exact sound.screen.texts j item' there
  · rcases List.mem_append.mp member with old | last
    · exact sound.older q old
    · obtain rfl := List.mem_singleton.mp last
      exact sound.newest connector connected
  · exact (congrArg₂ (· + ·) (congrArg List.length one) (congrArg List.length results)).le
  · rcases List.mem_append.mp member with old | last
    · exact sound.short q old
    · obtain rfl := List.mem_singleton.mp last
      exact ⟨SessionModel.Sessions.QString.toUtf8_pos text,sound.screen.input⟩
  · have member : q ∈ (s.requests ++ [r]).filter fun r => some r.connector = s.connector := member
    obtain rfl := List.mem_singleton.mp (one ▸ member)
    refine ⟨i,rfl,fun item' there => ?_⟩
    obtain rfl := Option.some.inj (((now i).trans (if_pos rfl)).symm.trans there)
    exact ⟨rfl,rfl,fun _ => rfl⟩
  · intro timestamp sequence member
    have none : .messageResult 200 timestamp sequence ∈ s.results := member
    simp [results] at none

theorem Sound.authorized (sound : Sound s lib) (offline : s.connector = none) (once : Posted.authorized ∉ s.posted) :
    Sound { s with posted := s.posted ++ [.authorized] } lib := by
  obtain ⟨n,order,-⟩ := sound.order
  have first : n = 0 := by
    by_contra some
    exact once (order ▸ List.mem_append_right _ (List.mem_replicate.mpr ⟨some,rfl⟩))
  subst first
  have results : (s.posted ++ [Posted.authorized]).filter Posted.isResult = s.results := by
    simp [Composer.results,List.filter_append,Posted.isResult]
  refine ⟨⟨sound.screen.active,sound.screen.waiting,sound.screen.idle,sound.screen.input,sound.screen.texts⟩,
    sound.older,sound.newest,⟨1,?_,.inr ⟨rfl,offline⟩⟩,?_,fun some => sound.locked ?_,sound.short,sound.sent,
    fun timestamp sequence member => sound.answered timestamp sequence ?_,sound.kept⟩
  · show s.posted ++ [.authorized] = (s.posted ++ [Posted.authorized]).filter Posted.isResult ++ [.authorized]
    rw [results]
    simpa using order
  · exact (congrArg (s.live.length + ·) (congrArg List.length results)).le.trans sound.one
  · exact some.trans_eq (congrArg (s.live.length + ·) (congrArg List.length results))
  · exact results ▸ member

theorem Sound.disconnect (sound : Sound s lib) : Sound s.disconnect lib := by
  have live : s.disconnect.live = [] := List.filter_eq_nil_iff.mpr fun r _ => by simp [Composer.disconnect]
  have results : s.disconnect.results = s.results := rfl
  obtain ⟨n,order,count⟩ := sound.order
  refine ⟨⟨sound.screen.active,sound.screen.waiting,sound.screen.idle,sound.screen.input,sound.screen.texts⟩,
    sound.older,by simp [Composer.disconnect],⟨n,order,count.imp_right fun ⟨one,_⟩ => ⟨one,rfl⟩⟩,?_,
    fun some => ⟨rfl,(sound.locked ?_).2⟩,sound.short,by simp [live],sound.answered,sound.kept⟩
  · have := sound.one
    simp only [live,results,List.length_nil]
    omega
  · simp only [live,results,List.length_nil] at some
    omega

theorem erased (there : (list : List A)[n]? = some r) :
    ∃ front back, list = front ++ r :: back ∧ list.eraseIdx n = front ++ back := by
  obtain ⟨inside,rfl⟩ := List.getElem?_eq_some_iff.mp there
  refine ⟨list.take n,list.drop (n + 1),?_,List.eraseIdx_eq_take_drop_succ ..⟩
  rw [← List.drop_eq_getElem_cons inside,List.take_append_drop]

theorem messageResult_results (a : Answer) : (messageResult lib a).filter Posted.isResult = messageResult lib a := by
  rcases a with ⟨_ | _,_⟩ | ⟨_ | _⟩ | _ <;> rfl

theorem messageResult_length (a : Answer) : (messageResult lib a).length ≤ 1 := by
  rcases a with ⟨_ | _,_⟩ | ⟨_ | _⟩ | _ <;> simp [messageResult]

theorem messageResult_ok (member : .messageResult 200 timestamp sequence ∈ messageResult lib a) :
    ∃ ts ms, a = .ok ts ms ∧ messageResult lib a = [.messageResult 200 timestamp sequence] := by
  rcases a with ⟨_ | ts,ms⟩ | ⟨_ | code⟩ | _
  · exact ⟨none,ms,rfl,by simp_all [messageResult]⟩
  · exact ⟨some ts,ms,rfl,by simp_all [messageResult]⟩
  · simp [messageResult] at member
  · simp only [messageResult,List.mem_singleton,Posted.messageResult.injEq] at member
    omega
  · simp [messageResult] at member

theorem Sound.answer (sound : Sound s lib) (moved : s.answer lib n a = some next) : Sound next lib := by
  obtain ⟨r,there,rfl⟩ := Option.map_eq_some_iff.mp moved
  have among : r ∈ s.requests := List.mem_of_getElem? there
  obtain ⟨front,back,split,rest⟩ := erased there
  have fewer (q : Request) (member : q ∈ s.requests.eraseIdx n) : q ∈ s.requests := List.mem_of_mem_eraseIdx member
  have screen : Screen { s with
      requests := s.requests.eraseIdx n
      accepted := s.accepted ++ accept r a
      posted := s.posted ++ if some r.connector = s.connector then messageResult lib a else [] } :=
    ⟨sound.screen.active,sound.screen.waiting,sound.screen.idle,sound.screen.input,sound.screen.texts⟩
  have kept : Kept lib s.stored (s.accepted ++ accept r a) := sound.kept.mono (List.sublist_append_left ..)
  have waiting : s.live = front.filter (fun q => some q.connector = s.connector) ++
      (r :: back).filter (fun q => some q.connector = s.connector) := by
    rw [live,split,List.filter_append]
  have left : (s.requests.eraseIdx n).filter (fun q => some q.connector = s.connector) =
      front.filter (fun q => some q.connector = s.connector) ++
        back.filter (fun q => some q.connector = s.connector) := by
    rw [rest,List.filter_append]
  have one := sound.one
  by_cases current : some r.connector = s.connector
  · simp only [if_pos current] at screen ⊢
    rw [List.filter_cons_of_pos (by simpa using current)] at waiting
    have lengths := congrArg List.length waiting
    simp only [List.length_append,List.length_cons] at lengths
    have none : (s.requests.eraseIdx n).filter (fun q => some q.connector = s.connector) = [] := by
      rw [← List.length_eq_zero_iff,left,List.length_append]
      omega
    have empty : s.results = [] := List.length_eq_zero_iff.mp (by omega)
    have queue : s.posted = [] := by
      obtain ⟨n,order,count⟩ := sound.order
      rcases count with rfl | ⟨-,offline⟩
      · simpa [empty] using order
      · simp [offline] at current
    have results : (s.posted ++ messageResult lib a).filter Posted.isResult = messageResult lib a := by
      rw [queue,List.nil_append,messageResult_results]
    refine ⟨screen,fun q member => sound.older q (fewer q member),sound.newest,⟨0,?_,.inl rfl⟩,?_,
      fun _ => sound.locked (by omega),fun q member => sound.short q (fewer q member),fun q member => ?_,
      fun timestamp sequence member => ?_,kept⟩
    · show s.posted ++ messageResult lib a =
        (s.posted ++ messageResult lib a).filter Posted.isResult ++ List.replicate 0 .authorized
      rw [results,queue]
      simp
    · exact (congrArg₂ (· + ·) (congrArg List.length none) (congrArg List.length results)).le.trans
        (by simpa using messageResult_length a)
    · have member : q ∈ (s.requests.eraseIdx n).filter fun q => some q.connector = s.connector := member
      simp [none] at member
    · have member : .messageResult 200 timestamp sequence ∈ (s.posted ++ messageResult lib a).filter Posted.isResult :=
        member
      obtain ⟨ts,ms,rfl,same⟩ := messageResult_ok (results ▸ member)
      have holds := sound.sent r (List.mem_filter.mpr ⟨among,by simpa using current⟩)
      exact ⟨s.accepted,{ target := r.target, body := r.body, ts, ms },[],rfl,sound.kept,same,holds⟩
  · simp only [if_neg current,List.append_nil] at screen ⊢
    rw [List.filter_cons_of_neg (by simpa using current),← left] at waiting
    refine ⟨screen,fun q member => sound.older q (fewer q member),sound.newest,sound.order,?_,?_,
      fun q member => sound.short q (fewer q member),fun q member => sound.sent q ?_,
      fun timestamp sequence member => ?_,kept⟩
    · exact (congrArg (List.length · + s.results.length) waiting).ge.trans one
    · exact fun some => sound.locked (some.trans_eq (congrArg (List.length · + s.results.length) waiting).symm)
    · exact waiting ▸ member
    · obtain ⟨before,b,after,whole,stored,same,holds⟩ := sound.answered timestamp sequence member
      exact ⟨before,b,after ++ accept r a,by simp [whole],stored,same,holds⟩

/-- The queue without its first entry. -/
theorem Sound.take (sound : Sound s lib) (first : s.posted = p :: rest) :
    ({ s with posted := rest } : Composer).results = [] ∧ ({ s with posted := rest } : Composer).live = s.live ∧
      Sound { s with posted := rest } lib ∧ (p = .authorized → s.connector = none ∧ rest = []) ∧
      (p ≠ .authorized → s.live = [] ∧ p ∈ s.results) := by
  obtain ⟨n,order,count⟩ := sound.order
  have one := sound.one
  have screen : Screen { s with posted := rest } :=
    ⟨sound.screen.active,sound.screen.waiting,sound.screen.idle,sound.screen.input,sound.screen.texts⟩
  have tail : ∃ n, rest = List.replicate n .authorized ∧ (n = 0 ∨ n = 1 ∧ s.connector = none) := by
    cases results : s.results with
    | nil =>
      rw [first,results,List.nil_append] at order
      rcases count with rfl | ⟨rfl,-⟩
      · contradiction
      · exact ⟨0,(List.cons.inj order).2,.inl rfl⟩
    | cons q more =>
      have last : more = [] := by
        rw [results,List.length_cons] at one
        exact List.length_eq_zero_iff.mp (by omega)
      rw [first,results,last,List.singleton_append] at order
      exact ⟨n,(List.cons.inj order).2,count⟩
  obtain ⟨m,behind,count'⟩ := tail
  have results : rest.filter Posted.isResult = [] := by
    rw [behind]
    exact List.filter_eq_nil_iff.mpr fun q member => by simp [List.eq_of_mem_replicate member,Posted.isResult]
  have before : s.results = [p].filter Posted.isResult := by
    rw [Composer.results,first,← List.singleton_append,List.filter_append,results,List.append_nil]
  refine ⟨results,rfl,⟨screen,sound.older,sound.newest,⟨m,?_,count'⟩,?_,fun some => sound.locked ?_,sound.short,
    sound.sent,fun timestamp sequence member => ?_,sound.kept⟩,fun same => ?_,fun other => ?_⟩
  · show rest = rest.filter Posted.isResult ++ _
    rw [results,List.nil_append,behind]
  · exact (congrArg (s.live.length + ·) (congrArg List.length results)).le.trans (by simp; omega)
  · have some := some.trans_eq (congrArg (s.live.length + ·) (congrArg List.length results))
    simp only [List.length_nil] at some
    omega
  · have member : .messageResult 200 timestamp sequence ∈ rest.filter Posted.isResult := member
    simp [results] at member
  · subst same
    rw [before,first] at order
    rcases count with rfl | ⟨rfl,offline⟩
    · simp [Posted.isResult] at order
    · exact ⟨offline,by simpa [Posted.isResult] using order⟩
  · have result : p.isResult = true := by cases p <;> first | rfl | contradiction
    have only : s.results = [p] := by simp [before,result]
    rw [only,List.length_singleton] at one
    exact ⟨List.length_eq_zero_iff.mp (by omega),by simp [only]⟩

theorem Sound.connect (sound : Sound s lib) (queue : s.posted = []) : Sound s.connect lib := by
  have live : s.connect.live = [] := List.filter_eq_nil_iff.mpr fun r member => by
    have := sound.older r member
    simp [Composer.connect]
    omega
  have results : s.connect.results = [] := by simp [Composer.results,Composer.connect,queue]
  refine ⟨⟨sound.screen.active,sound.screen.waiting,sound.screen.idle,sound.screen.input,sound.screen.texts⟩,
    fun r member => Nat.lt_succ_of_lt (sound.older r member),?_,⟨0,?_,.inl rfl⟩,by simp [live,results],
    by simp [live,results],sound.short,by simp [live],by simp [results],sound.kept⟩
  · intro c here
    exact Option.some.inj (here : some s.made = some c) ▸ Nat.lt_succ_self _
  · rw [results]
    simp [Composer.connect,queue]

theorem addMessage_gone (waiting : s.inputItem = some i) (gone : s.session? i = none)
    (timestamp : Option Int) (sequence now : Int) (inserted : Bool) :
    s.addMessage timestamp sequence now inserted = { s with faults := s.faults ++ [.message] } := by
  simp only [Composer.addMessage,waiting,gone]

theorem addMessage_there (waiting : s.inputItem = some i) (found : s.session? i = some item)
    (timestamp : Option Int) (sequence now : Int) (inserted : Bool) :
    s.addMessage timestamp sequence now inserted = { s with
      stored := s.stored ++ if inserted then [{
        session := i
        target := item.uri
        body := item.inputText.toUtf8
        subject := item.topic.toUtf8
        posted := timestamp.getD now
        sequence }] else []
      sessions := s.sessions.set i (some { item with inputText := [] })
      input := if s.activeItem = some i then [] else s.input } := by
  simp only [Composer.addMessage,waiting,found]

/-- The message that the answer makes of the text is the one that was accepted. -/
theorem Sound.addMessage (sound : Sound s lib) (live : s.live = []) (results : s.results = [])
    (accepted : s.accepted = before ++ a :: after) (stored : Kept lib s.stored before)
    (same : messageResult lib (.ok a.ts a.ms) = [.messageResult 200 timestamp sequence])
    (holds : s.Holds a.target a.body) (inserted : Bool) :
    Sound (s.addMessage timestamp sequence now inserted) lib := by
  obtain ⟨i,waiting,text⟩ := holds
  cases found : s.session? i with
  | none =>
    rw [addMessage_gone waiting found]
    exact sound.quiet live results ⟨sound.screen.active,sound.screen.waiting,sound.screen.idle,
      sound.screen.input,sound.screen.texts⟩ rfl sound.kept
  | some item =>
  rw [addMessage_there waiting found]
  have inside := session?_inside found
  have now' (j : Nat) := session?_set s i (some { item with inputText := [] }) j inside
  refine sound.quiet live results ⟨fun j shown => ?_,fun j waits => ?_,fun away => ?_,?_,fun j item' there => ?_⟩ rfl ?_
  · have := sound.screen.active j shown
    exact (now' j).symm ▸ (by split <;> simp [this])
  · simpa using sound.screen.waiting j waits
  · have away : s.activeItem = none := away
    simpa [away] using sound.screen.idle away
  · show (SessionModel.Sessions.QString.toUtf8 (if s.activeItem = some i then [] else s.input)).length ≤ 155
    split
    · simp
    · exact sound.screen.input
  · have there := (now' j).symm.trans there
    split at there
    · simp [← Option.some.inj there]
    · exact sound.screen.texts j item' there
  · rw [accepted]
    cases inserted with
    | false => simpa using stored.mono (List.sublist_append_left before (a :: after))
    | true =>
    refine stored.snoc ⟨(text item found).1,(text item found).2.1,timestamp,same,?_⟩
    rintro time rfl
    rfl

theorem addMessage_wire (s : Composer) (timestamp : Option Int) (sequence now : Int) (inserted : Bool) :
    (s.addMessage timestamp sequence now inserted).toWire = s.toWire := by
  rw [Composer.addMessage]
  split
  · rfl
  · split <;> rfl

theorem Sound.finishInput (sound : Sound s lib) (live : s.live = []) (results : s.results = [])
    (answered : error = "" → ∃ before a after, s.accepted = before ++ a :: after ∧ Kept lib s.stored before ∧
      messageResult lib (.ok a.ts a.ms) = [.messageResult 200 timestamp sequence] ∧ s.Holds a.target a.body)
    (inserted : Bool) : Sound (s.finishInput error timestamp sequence now inserted) lib := by
  have ready (t : Composer) (done : Sound t lib) (wire : t.toWire = s.toWire) :
      Sound { t with inputItem := none, enabled := true } lib := by
    refine done.quiet ((live_of_wire wire).trans live) ((results_of_wire wire).trans results) ?_ rfl done.kept
    exact ⟨done.screen.active,by simp,done.screen.idle,done.screen.input,done.screen.texts⟩
  rw [Composer.finishInput]
  split
  · refine ready _ (sound.quiet live results ?_ rfl sound.kept) rfl
    exact ⟨sound.screen.active,sound.screen.waiting,sound.screen.idle,sound.screen.input,sound.screen.texts⟩
  · rename_i success
    obtain ⟨before,a,after,accepted,stored,same,holds⟩ := answered (not_not.mp success)
    exact ready _ (sound.addMessage live results accepted stored same holds inserted) (addMessage_wire ..)

theorem Sound.deliver (sound : Sound s lib) (moved : s.deliver now inserted = some next) : Sound next lib := by
  rw [Composer.deliver.eq_def] at moved
  split at moved
  · contradiction
  · rename_i rest first
    obtain ⟨-,-,taken,offline,-⟩ := sound.take first
    obtain ⟨offline,rfl⟩ := offline rfl
    rw [if_neg (by simp [offline])] at moved
    exact Option.some.inj moved ▸ taken.connect rfl
  · rename_i error timestamp sequence rest first
    obtain ⟨results,live,taken,-,waited⟩ := sound.take first
    obtain ⟨none,member⟩ := waited (by simp)
    obtain rfl := Option.some.inj moved
    split
    · exact taken
    refine taken.finishInput (live.trans none) results (fun success => ?_) inserted
    split at success
    · rename_i ok
      obtain ⟨before,a,after,accepted,stored,same,holds⟩ := sound.answered timestamp sequence (ok ▸ member)
      exact ⟨before,a,after,accepted,stored,same,holds⟩
    · simp at success

theorem step_sound (sound : Sound s lib) (moved : s.step lib a = some next) : Sound next lib := by
  cases a with
  | create uri topic =>
    obtain rfl := Option.some.inj moved
    have sessions (j : Nat) (inside : j < s.sessions.length) :
        ({ s with sessions := s.sessions ++ [some { uri, topic }] } : Composer).session? j = s.session? j := by
      simp [session?,List.getElem?_append_left inside]
    refine sound.framed ⟨fun i shown => ?_,fun i waiting => ?_,sound.screen.idle,sound.screen.input,
      fun i item found => ?_⟩ rfl rfl rfl rfl fun target body ⟨i,waiting,text⟩ => ⟨i,waiting,fun item found => ?_⟩
    · have there := sound.screen.active i shown
      obtain ⟨item,found⟩ := Option.isSome_iff_exists.mp there
      exact (sessions i (session?_inside found)).symm ▸ there
    · have := sound.screen.waiting i waiting
      simp
      omega
    · by_cases inside : i < s.sessions.length
      · exact sound.screen.texts i item ((sessions i inside).symm.trans found)
      · have last : i - s.sessions.length = 0 := by
          have := session?_inside found
          simp only [List.length_append,List.length_singleton] at this
          omega
        simp only [session?,List.getElem?_append_right (Nat.le_of_not_lt inside),last,List.getElem?_cons_zero,
          Option.join_some,Option.some.injEq] at found
        subst found
        simp
    · exact text item ((sessions i (sound.screen.waiting i waiting)).symm.trans found)
  | setTopic i topic =>
    obtain ⟨item,found,rfl⟩ := Option.map_eq_some_iff.mp moved
    have sessions (j : Nat) := session?_set s i (some { item with topic }) j (session?_inside found)
    have known (j : Nat) (item' : SessionItem)
        (there : ({ s with sessions := s.sessions.set i (some { item with topic }) } : Composer).session? j =
          some item') :
        ∃ old, s.session? j = some old ∧ old.uri = item'.uri ∧ old.inputText = item'.inputText := by
      have there := (sessions j).symm.trans there
      split at there
      · rename_i here
        exact ⟨item,here ▸ found,by simp [← Option.some.inj there],by simp [← Option.some.inj there]⟩
      · exact ⟨item',there,rfl,rfl⟩
    refine sound.framed ⟨fun j shown => ?_,fun j waiting => ?_,sound.screen.idle,sound.screen.input,
      fun j item' there => ?_⟩ rfl rfl rfl rfl fun target body ⟨j,waiting,text⟩ => ⟨j,waiting,fun item' there => ?_⟩
    · have := sound.screen.active j shown
      exact (sessions j).symm ▸ (by split <;> simp [this])
    · simpa using sound.screen.waiting j waiting
    · obtain ⟨old,was,-,same⟩ := known j item' there
      exact same ▸ sound.screen.texts j old was
    · obtain ⟨old,was,uri,same⟩ := known j item' there
      exact uri ▸ same ▸ text old was
  | edit text =>
    simp only [step] at moved
    split at moved
    · rename_i typed
      obtain rfl := Option.some.inj moved
      obtain ⟨live,results⟩ := sound.free typed.1
      obtain ⟨i,shown⟩ := Option.isSome_iff_exists.mp typed.2
      exact sound.quiet live results ⟨sound.screen.active,sound.screen.waiting,by simp [shown],checkInput_length _,
        sound.screen.texts⟩ rfl sound.kept
    · contradiction
  | createMessage built =>
    simp only [step] at moved
    split at moved
    · rename_i enabled
      exact sound.createMessage enabled moved
    · contradiction
  | activateSession i => exact sound.activateSession moved
  | activateSelf => exact Option.some.inj moved ▸ sound.activateSelf.1
  | remove i current =>
    simp only [step] at moved
    split at moved
    · rename_i there
      exact Option.some.inj moved ▸ sound.remove there current
    · contradiction
  | closeSession => exact Option.some.inj moved ▸ sound.closeSession
  | authorized =>
    simp only [step] at moved
    split at moved
    · rename_i login
      exact Option.some.inj moved ▸ sound.authorized login.1 login.2
    · contradiction
  | disconnect => exact Option.some.inj moved ▸ sound.disconnect
  | answer n a => exact sound.answer moved
  | deliver now inserted => exact sound.deliver moved

theorem empty_sound : Sound {} lib :=
  ⟨⟨by simp,by simp,by simp,by simp,by simp [session?]⟩,by simp,by simp,
    ⟨0,by simp [results],.inl rfl⟩,by simp [live,results],by simp [live,results],by simp,by simp [live],
    by simp [results],⟨[],.slnil,.nil⟩⟩

theorem run_sound (run : Run lib {} trace final) : Sound final lib :=
  run.invariant (fun s => Sound s lib) (fun _ _ _ sound moved => step_sound sound moved) empty_sound

structure Framed (s next : Composer) : Prop where
  wire : next.toWire = s.toWire
  stored : next.stored = s.stored
  enabled : next.enabled = s.enabled
  faults : .message ∈ next.faults ↔ .message ∈ s.faults

theorem setText_framed (s : Composer) (i : Nat) (text : QString) : Framed s (s.setText i text) := by
  rw [setText]
  split
  · exact ⟨rfl,rfl,rfl,.rfl⟩
  · exact ⟨rfl,rfl,rfl,by simp⟩

theorem leave_framed (s : Composer) : Framed s s.leave := by
  rw [leave]
  split
  · exact ⟨rfl,rfl,rfl,.rfl⟩
  · exact setText_framed ..

theorem activateSelf_framed (s : Composer) : Framed s s.activateSelf :=
  ⟨(leave_framed s).wire,(leave_framed s).stored,(leave_framed s).enabled,(leave_framed s).faults⟩

theorem activateSession_framed (moved : s.activateSession i = some next) : Framed s next := by
  obtain ⟨_,-,rfl⟩ := Option.map_eq_some_iff.mp moved
  exact ⟨(leave_framed s).wire,(leave_framed s).stored,(leave_framed s).enabled,(leave_framed s).faults⟩

theorem remove_framed (s : Composer) (i : Nat) (current : Bool) : Framed s (s.remove i current) := by
  rw [remove]
  split
  · cases current with
    | true =>
      have same := activateSelf_framed s
      exact ⟨same.wire,same.stored,same.enabled,same.faults⟩
    | false => exact ⟨rfl,rfl,rfl,.rfl⟩
  · exact ⟨rfl,rfl,rfl,.rfl⟩

theorem closeSession_framed (s : Composer) : Framed s s.closeSession := by
  rw [closeSession]
  split
  · exact ⟨rfl,rfl,rfl,.rfl⟩
  · rename_i i _
    have same := activateSelf_framed (s.delete i)
    exact ⟨same.wire,same.stored,same.enabled,same.faults⟩

/-- What is done without the connection. -/
def Action.isLocal : Action → Bool
  | .create .. | .setTopic .. | .edit _ | .activateSession _ | .activateSelf | .remove .. | .closeSession => true
  | _ => false

theorem step_framed (offline : a.isLocal = true) (moved : s.step lib a = some next) : Framed s next := by
  cases a with
  | create | setTopic =>
    simp only [step,Option.some.injEq,Option.map_eq_some_iff] at moved
    grind [Framed]
  | edit text =>
    simp only [step] at moved
    split at moved
    · exact Option.some.inj moved ▸ ⟨rfl,rfl,rfl,.rfl⟩
    · contradiction
  | activateSession i => exact activateSession_framed moved
  | activateSelf => exact Option.some.inj moved ▸ activateSelf_framed s
  | remove i current =>
    simp only [step] at moved
    split at moved
    · exact Option.some.inj moved ▸ remove_framed s i current
    · contradiction
  | closeSession => exact Option.some.inj moved ▸ closeSession_framed s
  | createMessage | authorized | disconnect | answer | deliver => contradiction

/-- Either nothing is sent, or the text in the input. -/
theorem createMessage_cases (moved : s.createMessage built = some next) :
    Framed s next ∨ ∃ connector r, s.connector = some connector ∧ r.connector = connector ∧
      next.toWire = { s.toWire with requests := s.requests ++ [r] } ∧ next.stored = s.stored ∧
      (.message ∈ next.faults ↔ .message ∈ s.faults) := by
  simp only [Composer.createMessage] at moved
  split at moved
  · exact .inl (Option.some.inj moved ▸ ⟨rfl,rfl,rfl,.rfl⟩)
  obtain ⟨i,-,moved⟩ := Option.bind_eq_some_iff.mp moved
  obtain ⟨item,-,moved⟩ := Option.bind_eq_some_iff.mp moved
  rcases Option.eq_none_or_eq_some s.connector with offline | ⟨connector,connected⟩
  · simp only [offline] at moved
    exact .inl (Option.some.inj moved ▸ ⟨rfl,rfl,rfl,.rfl⟩)
  cases built with
  | false =>
    simp only [connected] at moved
    exact .inl (Option.some.inj moved ▸ ⟨rfl,rfl,rfl,.rfl⟩)
  | true =>
    simp only [connected] at moved
    obtain rfl := Option.some.inj moved
    have same := setText_framed { s.sendText connector item.uri s.input.toUtf8 item.topic.toUtf8 with
      enabled := false, inputItem := some i } i s.input
    exact .inr ⟨connector,_,connected,rfl,same.wire,same.stored,same.faults⟩

/-- A success has come for a text whose session is gone. -/
def Stale (s : Composer) : Action → Prop
  | .deliver .. => ∃ timestamp sequence rest i, s.posted = .messageResult 200 timestamp sequence :: rest ∧
      s.inputItem = some i ∧ s.session? i = none
  | _ => False

theorem finishInput_faults (s : Composer) (error : String) (timestamp : Option Int) (sequence now : Int)
    (inserted : Bool) : .message ∈ (s.finishInput error timestamp sequence now inserted).faults ↔
      .message ∈ s.faults ∨ error = "" ∧ ∃ i, s.inputItem = some i ∧ s.session? i = none := by
  simp only [Composer.finishInput]
  split
  · rename_i failed
    simp [failed]
  · rename_i success
    simp only [not_not.mp success,true_and]
    rcases Option.eq_none_or_eq_some s.inputItem with none | ⟨i,waiting⟩
    · simp [addMessage,none]
    · cases found : s.session? i with
      | none => simp [addMessage_gone waiting found,waiting,found]
      | some item => simp [addMessage_there waiting found,waiting,found]

/-- A session that is gone is used for a message in that case only. -/
theorem step_faults (moved : s.step lib a = some next) :
    .message ∈ next.faults ↔ .message ∈ s.faults ∨ s.Stale a := by
  cases offline : a.isLocal with
  | true =>
    have none : ¬s.Stale a := by
      cases a <;> first | exact id | contradiction
    rw [(step_framed offline moved).faults,or_iff_left none]
  | false =>
  cases a with
  | create | setTopic | edit | activateSession | activateSelf | remove | closeSession => contradiction
  | createMessage built =>
    refine Iff.trans ?_ (or_iff_left id).symm
    simp only [step] at moved
    split at moved
    · rcases createMessage_cases moved with framed | ⟨_,_,-,-,-,-,faults⟩
      · exact framed.faults
      · exact faults
    · contradiction
  | authorized =>
    simp only [step] at moved
    split at moved
    · exact Option.some.inj moved ▸ (or_iff_left id).symm
    · contradiction
  | disconnect => exact Option.some.inj moved ▸ (or_iff_left id).symm
  | answer n a =>
    obtain ⟨r,-,rfl⟩ := Option.map_eq_some_iff.mp moved
    exact (or_iff_left id).symm
  | deliver now inserted =>
    rw [step,Composer.deliver.eq_def] at moved
    split at moved
    · contradiction
    · rename_i rest first
      have none : ¬s.Stale (.deliver now inserted) := fun ⟨_,_,_,_,queue,_⟩ => by simp [first] at queue
      rw [or_iff_left none,← Option.some.inj moved]
      split <;> exact .rfl
    · rename_i error timestamp sequence rest first
      have stale : s.Stale (.deliver now inserted) ↔
          error = 200 ∧ ∃ i, s.inputItem = some i ∧ s.session? i = none := by
        constructor
        · rintro ⟨_,_,_,i,queue,waiting⟩
          rw [first] at queue
          cases queue
          exact ⟨rfl,i,waiting⟩
        · rintro ⟨rfl,i,waiting⟩
          exact ⟨timestamp,sequence,rest,i,first,waiting⟩
      have ok : (if error = 200 then "" else "Failed to send") = "" ↔ error = 200 := by
        split <;> simp [*]
      rw [stale,← Option.some.inj moved]
      dsimp only
      split
      · rename_i none
        simp [none]
      · rw [finishInput_faults,ok]
        exact .rfl

/-- Whatever is typed, shown, closed, removed, lost and connected again: the messages are texts
that the server has accepted, in its order and each once, for the contact that they were written to.
A text whose answer is still to come is where it was, unless its session is gone, which is used for
a message when success comes and in no other case; and the server takes texts of its length. -/
theorem messages_accepted (run : Run lib {} trace final) :
    (∃ taken : List Accepted, taken.Sublist final.accepted ∧ List.Forall₂ (Matches lib) final.stored taken) ∧
    (∀ r ∈ final.live, final.Holds r.target r.body) ∧
    (∀ edge ∈ trace, .message ∈ edge.target.faults ↔
      .message ∈ edge.source.faults ∨ edge.source.Stale edge.action) ∧
    ∀ r ∈ final.requests, 0 < r.body.length ∧ r.body.length ≤ 155 :=
  ⟨(run_sound run).kept,(run_sound run).sent,fun edge member => step_faults (run.edge_step edge member),
    (run_sound run).short⟩

def typed (text : String) : QString := SessionModel.Sessions.QString.of (text.toList.map Char.toNat)

def outgoing : List Action :=
  [.create "sip:102@localhost" (typed "None"),.activateSession 0,.authorized,.deliver 0 true,.edit (typed "hi"),
    .createMessage true]

def conversation : List Action :=
  outgoing ++ [.answer 0 (.ok (some "2018-06-26T08:00:00Z") (some "1")),.deliver 0 true]

theorem messages_accepted_lost : ∃ trace final, Run Site.libraries {} trace final ∧ final.stored.length = 1 ∧
    ∃ taken : List Accepted, taken.Sublist final.accepted ∧
      List.Forall₂ (Matches Site.libraries) final.stored taken := by
  have ran : ((Transition.execute (fun s => step s Site.libraries) (conversation ++ [.disconnect]) {}).map
      fun s => s.stored.length) = some 1 := by decide +kernel
  obtain ⟨final,done,length⟩ := Option.map_eq_some_iff.mp ran
  obtain ⟨trace,run,-⟩ := Transition.execute_run _ _ _ done
  exact ⟨trace,final,run,length,(messages_accepted run).1⟩

/-- The connection is not lost while a text is on its way, nor its session removed, and the database
takes its row. -/
structure Whole (s : Composer) (a : Action) : Prop where
  connected : a = .disconnect → s.requests = []
  present : ¬s.Stale a
  inserted : ∀ now, a ≠ .deliver now false

def Posted.isOk : Posted → Bool
  | .messageResult 200 _ _ => true
  | _ => false

structure Counted (s : Composer) : Prop where
  ours : ∀ r ∈ s.requests, some r.connector = s.connector
  count : s.accepted.length = s.stored.length + s.posted.countP Posted.isOk

theorem accept_length (lib : Libraries) (r : Request) (a : Answer) :
    (accept r a).length = (messageResult lib a).countP Posted.isOk := by
  rcases a with ⟨_ | _,_⟩ | ⟨_ | code⟩ | _
  · rfl
  · rfl
  · rfl
  · have other : 400 + code.val ≠ 200 := by omega
    simp [accept,messageResult,Posted.isOk,other]
  · rfl

theorem Counted.framed (counted : Counted s) (framed : Framed s next) : Counted next :=
  ⟨by simpa [framed.wire] using counted.ours,by simpa [framed.wire,framed.stored] using counted.count⟩

theorem Counted.deliver (counted : Counted s) (sound : Sound s lib) (whole : s.Whole (.deliver now inserted))
    (moved : s.deliver now inserted = some next) : Counted next := by
  have ours := counted.ours
  have count := counted.count
  rw [Composer.deliver.eq_def] at moved
  split at moved
  · contradiction
  · rename_i rest first
    obtain ⟨-,-,-,offline,-⟩ := sound.take first
    obtain ⟨offline,rfl⟩ := offline rfl
    rw [if_neg (by simp [offline])] at moved
    obtain rfl := Option.some.inj moved
    refine ⟨fun r member => ?_,by simpa [Composer.connect,first,Posted.isOk] using count⟩
    have := ours r member
    simp [offline] at this
  · rename_i error timestamp sequence rest first
    obtain ⟨-,-,-,-,waited⟩ := sound.take first
    obtain ⟨-,member⟩ := waited (by simp)
    have outstanding := List.length_pos_of_mem member
    obtain ⟨i,waiting⟩ := Option.isSome_iff_exists.mp (sound.locked (by omega)).2
    dsimp only at moved
    rw [if_neg (by simp [waiting])] at moved
    obtain rfl := Option.some.inj moved
    by_cases ok : error = 200
    · subst ok
      obtain ⟨item,found⟩ : ∃ item, s.session? i = some item := by
        by_contra gone
        refine whole.present ⟨timestamp,sequence,rest,i,first,waiting,?_⟩
        exact Option.eq_none_iff_forall_ne_some.mpr fun item found => gone ⟨item,found⟩
      obtain rfl : inserted = true := by
        by_contra refused
        exact whole.inserted now (by simp [refused])
      have added := addMessage_there (show ({ s with posted := rest } : Composer).inputItem = some i from waiting)
        (show ({ s with posted := rest } : Composer).session? i = some item from found) timestamp sequence now true
      simp only [if_true,Composer.finishInput,ne_eq,not_true_eq_false,if_false,added]
      refine ⟨ours,?_⟩
      simp only [first,List.countP_cons,Posted.isOk,if_true] at count
      simpa [Nat.add_assoc,Nat.add_comm 1] using count
    · have failed : ("Failed to send" : String) ≠ "" := by decide
      simp only [if_neg ok,Composer.finishInput,if_pos failed]
      refine ⟨ours,?_⟩
      simpa [first,Posted.isOk,ok] using count

theorem step_counted (counted : Counted s) (sound : Sound s lib) (whole : s.Whole a)
    (moved : s.step lib a = some next) : Counted next := by
  cases offline : a.isLocal with
  | true => exact counted.framed (step_framed offline moved)
  | false =>
  cases a with
  | create | setTopic | edit | activateSession | activateSelf | remove | closeSession => contradiction
  | createMessage built =>
    simp only [step] at moved
    split at moved
    · rcases createMessage_cases moved with framed | ⟨connector,r,connected,own,wire,stored,-⟩
      · exact counted.framed framed
      · refine ⟨fun q member => ?_,by simpa [wire,stored] using counted.count⟩
        rw [wire] at member ⊢
        rcases List.mem_append.mp member with old | last
        · exact counted.ours q old
        · rw [List.mem_singleton.mp last,own,connected]
    · contradiction
  | authorized =>
    simp only [step] at moved
    split at moved
    · obtain rfl := Option.some.inj moved
      exact ⟨counted.ours,by simpa [Posted.isOk] using counted.count⟩
    · contradiction
  | disconnect =>
    obtain rfl := Option.some.inj moved
    exact ⟨by simp [disconnect,whole.connected rfl],counted.count⟩
  | answer n a =>
    obtain ⟨r,there,rfl⟩ := Option.map_eq_some_iff.mp moved
    refine ⟨fun q member => counted.ours q (List.mem_of_mem_eraseIdx member),?_⟩
    simp only [counted.ours r (List.mem_of_getElem? there),if_true,List.length_append,List.countP_append,
      accept_length lib,counted.count,Nat.add_assoc]
  | deliver now inserted => exact counted.deliver sound whole moved

/-- Where that does not happen, and no result waits: the messages are all that was accepted. -/
theorem messages_complete (run : Run lib {} trace final) (whole : ∀ edge ∈ trace, edge.source.Whole edge.action)
    (done : ∀ p ∈ final.posted, p.isOk = false) : List.Forall₂ (Matches lib) final.stored final.accepted := by
  obtain ⟨sound,counted⟩ := run.invariant_of (fun s => Sound s lib ∧ Counted s) Whole
    (fun _ _ _ ⟨sound,counted⟩ whole moved => ⟨step_sound sound moved,step_counted counted sound whole moved⟩)
    ⟨empty_sound,by simp,rfl⟩ whole
  obtain ⟨taken,within,pairs⟩ := sound.kept
  have none : final.posted.countP Posted.isOk = 0 :=
    List.countP_eq_zero.mpr fun p member => by simp [done p member]
  have length : taken.length = final.accepted.length := by
    rw [counted.count,none,pairs.length_eq]
    rfl
  exact within.eq_of_length length ▸ pairs

def calm (s : Composer) : Action → Bool
  | .disconnect => false
  | .deliver _ inserted => inserted && s.inputItem.all fun i => (s.session? i).isSome
  | _ => true

theorem whole_of_calm (here : s.calm a = true) : s.Whole a where
  connected lost := by simp [lost,calm] at here
  present stale := by
    cases a with
    | deliver now inserted =>
      obtain ⟨_,_,_,i,-,waiting,gone⟩ := stale
      simp [calm,waiting,gone] at here
    | _ => exact stale
  inserted now refused := by simp [refused,calm] at here

theorem messages_complete_conversation : ∃ trace final, Run Site.libraries {} trace final ∧
    final.accepted.length = 1 ∧ List.Forall₂ (Matches Site.libraries) final.stored final.accepted := by
  have ran : ((Transition.execute (Transition.guarded calm fun s => step s Site.libraries) conversation {}).map
      fun s => (s.accepted.length,s.posted)) = some (1,[]) := by decide +kernel
  obtain ⟨final,done,facts⟩ := Option.map_eq_some_iff.mp ran
  obtain ⟨length,queue⟩ := Prod.mk.inj facts
  obtain ⟨trace,run,-⟩ := Transition.execute_run _ _ _ done
  obtain ⟨run,calm⟩ := run.of_guarded
  exact ⟨trace,final,run,length,messages_complete run (fun edge member => whole_of_calm (calm edge member))
    (by simp [queue])⟩

/-- The connector looks at every answer. -/
def Noticed (_ : Composer) (a : Action) : Prop := ∀ n, a ≠ .answer n .other

/-- While nothing is under way the input takes keys. -/
def Open (s : Composer) : Prop := s.connector ≠ none → s.live = [] → s.results = [] → s.enabled = true

theorem Open.framed (unlocked : Open s) (framed : Framed s next) : Open next := by
  rw [Open,live_of_wire framed.wire,results_of_wire framed.wire,framed.enabled,framed.wire]
  exact unlocked

theorem step_open (unlocked : Open s) (sound : Sound s lib) (noticed : s.Noticed a)
    (moved : s.step lib a = some next) : Open next := by
  cases offline : a.isLocal with
  | true => exact unlocked.framed (step_framed offline moved)
  | false =>
  cases a with
  | create | setTopic | edit | activateSession | activateSelf | remove | closeSession => contradiction
  | createMessage built =>
    simp only [step] at moved
    split at moved
    · rcases createMessage_cases moved with framed | ⟨connector,r,connected,own,wire,-,-⟩
      · exact unlocked.framed framed
      · intro _ live
        have sent : r ∈ next.live := by simp [Composer.live,wire,own,connected]
        simp [live] at sent
    · contradiction
  | authorized =>
    simp only [step] at moved
    split at moved
    · rename_i login
      obtain rfl := Option.some.inj moved
      exact fun connected => absurd login.1 connected
    · contradiction
  | disconnect =>
    obtain rfl := Option.some.inj moved
    exact fun connected => absurd rfl connected
  | answer n a =>
    obtain ⟨r,there,rfl⟩ := Option.map_eq_some_iff.mp moved
    by_cases current : some r.connector = s.connector
    · intro _ _ results
      have told : ∃ p ∈ messageResult lib a, p.isResult = true := by
        rcases a with ⟨_ | _,_⟩ | ⟨_ | _⟩ | _
        · exact ⟨_,List.mem_singleton_self _,rfl⟩
        · exact ⟨_,List.mem_singleton_self _,rfl⟩
        · exact ⟨_,List.mem_singleton_self _,rfl⟩
        · exact ⟨_,List.mem_singleton_self _,rfl⟩
        · exact absurd rfl (noticed n)
      obtain ⟨p,member,result⟩ := told
      simp only [Composer.results,if_pos current] at results
      exact absurd result (List.filter_eq_nil_iff.mp results p (List.mem_append_right _ member))
    · intro connected live results
      obtain ⟨front,back,split,rest⟩ := erased there
      have same : s.live = [] := by
        simp only [Composer.live,rest] at live
        rw [Composer.live,split]
        simpa [List.filter_append,current] using live
      refine unlocked connected same ?_
      simpa [Composer.results,current] using results
  | deliver now inserted =>
    rw [step,Composer.deliver.eq_def] at moved
    split at moved
    · contradiction
    · rename_i rest first
      obtain ⟨-,-,-,offline,-⟩ := sound.take first
      rw [if_neg (by simp [(offline rfl).1])] at moved
      exact Option.some.inj moved ▸ fun _ _ _ => rfl
    · rename_i error timestamp sequence rest first
      obtain ⟨-,-,-,-,waited⟩ := sound.take first
      have some := List.length_pos_of_mem (waited (by simp)).2
      obtain ⟨i,waiting⟩ := Option.isSome_iff_exists.mp (sound.locked (by omega)).2
      dsimp only at moved
      rw [if_neg (by simp [waiting])] at moved
      exact Option.some.inj moved ▸ fun _ _ _ => rfl

/-- The input is locked as long as a text of the connector waits for its answer, and no longer,
unless an answer came that the connector does not look at. -/
theorem input_open (run : Run lib {} trace final) (noticed : ∀ edge ∈ trace, edge.source.Noticed edge.action)
    (connected : final.connector ≠ none) : final.enabled = true ↔ final.live = [] ∧ final.results = [] := by
  obtain ⟨sound,unlocked⟩ := run.invariant_of (fun s => Sound s lib ∧ Open s) Noticed
    (fun _ _ _ ⟨sound,unlocked⟩ noticed moved => ⟨step_sound sound moved,step_open unlocked sound noticed moved⟩)
    ⟨empty_sound,fun connected => absurd rfl connected⟩ noticed
  exact ⟨sound.free,fun ⟨live,results⟩ => unlocked connected live results⟩

theorem input_open_outgoing : ∃ trace final, Run Site.libraries {} trace final ∧ final.live.length = 1 ∧
    final.enabled = false := by
  have ran : ((Transition.execute (fun s => step s Site.libraries) outgoing {}).map
      fun s => (s.live.length,s.connector)) = some (1,some 0) := by decide +kernel
  obtain ⟨final,done,facts⟩ := Option.map_eq_some_iff.mp ran
  obtain ⟨length,connector⟩ := Prod.mk.inj facts
  obtain ⟨trace,run,actions⟩ := Transition.execute_run _ _ _ done
  have locked : final.enabled = true ↔ final.live = [] ∧ final.results = [] :=
    input_open run (fun edge member n other => by
      have listed : edge.action ∈ outgoing := actions ▸ List.mem_map_of_mem member
      simp [other,outgoing] at listed) (by simp [connector])
  exact ⟨trace,final,run,length,Bool.eq_false_iff.mpr fun enabled => by simp [(locked.mp enabled).1] at length⟩

/-- A text that the input has let through is one that the server takes at once. -/
theorem texts_relayed (run : Run lib {} trace final) (sent : r ∈ final.requests) (ev : Event)
    (carried : ev.body = r.body) (plain : ev.contentType = "text/plain") (labelled : ev.isLabeled = true)
    (addressed : ev.toUser ≠ none) (named : ev.fromUser ≠ []) (toLocal : ev.toLocal = true) :
    Context.processMessage ev =
      ([.answerWithTimestamp ev Sip.ok,.reply ev Sip.notAcceptableHere],some .localMessage) := by
  have short := ((run_sound run).short r sent).2
  rcases Context.processMessage_cases ev with ⟨_,_,-,-,-,stays⟩ | ⟨relayed,-⟩
  · exact absurd ⟨addressed,toLocal,.inr ⟨named,plain,by rw [carried]; omega⟩⟩ stays
  · simpa [labelled] using relayed

def received (body : UString) : Event where
  context := { index := 1, proto := .TCP }
  method := "MESSAGE"
  number := 101
  label := "desk"
  fromUser := "101"
  toUser := some "102"
  toLocal := true
  contentType := "text/plain"
  body

theorem texts_relayed_outgoing : ∃ trace final r, Run Site.libraries {} trace final ∧ r ∈ final.requests ∧
    Context.processMessage (received r.body) = ([.answerWithTimestamp (received r.body) Sip.ok,
      .reply (received r.body) Sip.notAcceptableHere],some .localMessage) := by
  have ran : ((Transition.execute (fun s => step s Site.libraries) outgoing {}).map
      fun s => s.requests.length) = some 1 := by decide +kernel
  obtain ⟨final,done,length⟩ := Option.map_eq_some_iff.mp ran
  obtain ⟨trace,run,-⟩ := Transition.execute_run _ _ _ done
  obtain ⟨r,only⟩ := List.length_eq_one_iff.mp length
  have member : r ∈ final.requests := by simp [only]
  exact ⟨trace,final,r,run,member,texts_relayed run member (received r.body) rfl rfl rfl (by simp [received])
    (show ("101" : UString) ≠ [] by decide) rfl⟩

end Composer

end SipWitch
