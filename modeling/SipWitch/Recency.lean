import SipWitch.Convergence

/-! How recently a session was used, as the columns `last` and `sequence` of its contact
have it. A start opens the sessions of the contacts with a date there. The handler of
`syncPending` writes these columns for every session, from what `receiveText` noted since
the session was opened; nothing else notes there. -/
namespace SipWitch.Desktop

open Transition

namespace DateColumn

variable {a b : DateColumn} {time : Int}

theorem le_iff : a ≤ b ↔ a.rank ≤ b.rank := Iff.rfl

theorem null_of_le (below : a ≤ .null) : a = .null := by
  cases a with
  | null => rfl
  | zero => exact absurd (le_iff.mp below) (by decide)
  | date time =>
    rw [le_iff,rank,rank,Prod.Lex.le_iff] at below
    simp at below

theorem date_of_le (below : .date time ≤ b) : b.read.isSome := by
  cases b with
  | date time' => rfl
  | _ =>
    rw [le_iff,rank,rank,Prod.Lex.le_iff] at below
    simp at below

theorem date_le {time' : Int} : date time ≤ date time' ↔ time ≤ time' := by
  rw [le_iff,rank,rank,Prod.Lex.le_iff]
  simp

theorem isSome_of_le (below : a ≤ b) (dated : a.read.isSome) : b.read.isSome := by
  cases a with
  | date time => exact date_of_le below
  | _ => contradiction

end DateColumn

namespace ContactState

variable {s s' : ContactState} {item : MessageItem}

theorem last_le (kept : s.recency ≤ s'.recency) : s.last ≤ s'.last := by
  rcases Prod.Lex.le_iff.mp kept with below | ⟨same,-⟩
  · exact le_of_lt below
  · exact le_of_eq same

theorem last_of_recency (same : s.recency = item.recency) : s.last = .date item.dateTime :=
  congrArg (fun recency => (ofLex recency).1) same

/-- Whether the contact has a session, and whether that is in the list. -/
def listing (s : ContactState) : Option Bool := s.session.map SessionItem.listed

theorem listing_congr (same : s'.uncounted = s.uncounted) : s'.listing = s.listing :=
  session_congr (fun _ _ => rfl) same

theorem recency_congr (same : s'.uncounted = s.uncounted) : s'.recency = s.recency := by
  change s'.uncounted.recency = s.uncounted.recency
  rw [same]

theorem last_congr (same : s'.uncounted = s.uncounted) : s'.last = s.last :=
  congrArg (fun recency => (ofLex recency).1) (recency_congr same)

theorem listing_opened : s.opened.listing = some (s.listing.getD true) := by
  cases h : s.session <;> simp [listing,opened,h,SessionItem.create]

theorem listing_opened_ne (listed : s.listing ≠ some false) : s.opened.listing ≠ some false := by
  rw [listing_opened]
  cases h : s.listing with
  | none => simp
  | some _ => simpa [h] using listed

theorem listing_noteRecent (item : MessageItem) : (s.onSession (·.noteRecent item)).listing = s.listing :=
  noteRecent_session item fun _ _ _ => rfl

theorem listing_addMessage : (s.addMessage item).listing = s.listing :=
  addMessage_session (fun _ _ => rfl) fun _ => rfl

theorem foldl_latest (records : List MessageItem) (newest : Option Int × Int)
    (old : ∀ item ∈ records, item.dateTime ≤ msecs newest.1) : records.foldl latest newest = newest := by
  induction records with
  | nil => rfl
  | cons item rest ih =>
    have first := old item List.mem_cons_self
    rw [List.foldl_cons,latest,if_neg (by omega)]
    exact ih fun other member => old other (List.mem_cons_of_mem item member)

theorem dateTime_le {other : MessageItem} (older : other.recency ≤ item.recency) :
    other.dateTime ≤ item.dateTime := by
  rcases Prod.Lex.le_iff.mp older with below | ⟨same,-⟩
  · exact DateColumn.date_le.mp (le_of_lt below)
  · exact le_of_eq (DateColumn.date.inj same)

theorem listing_load (records : List MessageItem) : (s.load records).listing = s.listing := by
  have added (s : ContactState) : (records.foldl add s).listing = s.listing := by
    induction records generalizing s with
    | nil => rfl
    | cons item rest ih => exact (ih _).trans (add_session (fun _ _ => rfl) fun _ => rfl)
  have marked (s' : ContactState) : (s'.onSession fun session =>
      { session with loaded := true }).listing = s'.listing := by
    cases h : s'.session <;> simp [listing,onSession,h]
  have same := (marked (records.foldl add s)).trans (added s)
  rw [load]
  split <;> exact same

/-- Loading takes the recency over from the newest record, if that is after the contact's update. -/
theorem load_recency {records : List MessageItem}
    (sorted : records.Pairwise fun item other => other.recency ≤ item.recency) :
    (s.load records).recency = s.recency ∧ (∀ item ∈ records, item.dateTime ≤ msecs s.contactUpdated) ∨
      ∃ item ∈ records, msecs s.contactUpdated < item.dateTime ∧ (s.load records).recency = item.recency ∧
        ∀ other ∈ records, other.recency ≤ item.recency := by
  have added := foldl_add_recency (s := s) records
  have untouched (newest : Option Int × Int) (old : ¬msecs s.contactUpdated < msecs newest.1)
      (found : records.foldl latest (s.contactUpdated,0) = newest) :
      (s.load records).recency = s.recency := by
    rw [load,found]
    simp only [onSession,added.contactUpdated,if_neg old]
    exact added.recency
  cases records with
  | nil => exact .inl ⟨untouched _ (lt_irrefl _) rfl,by simp⟩
  | cons item rest =>
    obtain ⟨newest,-⟩ := List.pairwise_cons.mp sorted
    by_cases later : msecs s.contactUpdated < item.dateTime
    · have found : (item :: rest).foldl latest (s.contactUpdated,0) = (some item.dateTime,item.dateSequence) := by
        rw [List.foldl_cons,latest,if_pos later]
        exact foldl_latest _ _ fun other member => dateTime_le (newest other member)
      refine .inr ⟨item,List.mem_cons_self,later,?_,?_⟩
      · rw [load,found]
        simp only [onSession,added.contactUpdated]
        rw [if_pos (by exact later)]
        rfl
      · intro other member
        rcases List.mem_cons.mp member with rfl | behind
        · exact le_rfl
        · exact newest other behind
    · have old : ∀ other ∈ item :: rest, other.dateTime ≤ msecs s.contactUpdated := by
        intro other member
        rcases List.mem_cons.mp member with rfl | behind
        · omega
        · have := dateTime_le (newest other behind)
          omega
      exact .inl ⟨untouched _ (lt_irrefl _) (foldl_latest _ _ old),old⟩

end ContactState

open ContactState

section Records

variable {d : Desktop} {uid now : Int}

instance : Std.Total later := ⟨fun a b => by simp only [later]; omega⟩

instance : IsTrans MessageRow later := ⟨fun a b c => by simp only [later]; omega⟩

theorem record_recency {row : MessageRow} {item : MessageItem} (valid : d.record row = some item) :
    item.recency = row.recency := by
  have same := record_stamp valid
  rw [MessageItem.recency,MessageRow.recency,(Prod.mk.inj same).1,(Prod.mk.inj same).2]

theorem recency_le {a b : MessageRow} (newer : later a b) : b.recency ≤ a.recency := by
  rw [MessageRow.recency,MessageRow.recency,Prod.Lex.le_iff]
  rcases newer with below | ⟨same,behind⟩
  · refine .inl (lt_of_le_of_ne (DateColumn.date_le.mpr below.le) fun same => ?_)
    exact absurd (DateColumn.date.inj same) (by omega)
  · exact .inr ⟨congrArg DateColumn.date same,behind⟩

theorem records_sorted : (d.records uid now).Pairwise fun item other => other.recency ≤ item.recency := by
  rw [records,List.pairwise_filterMap]
  apply (List.pairwise_insertionSort later _).imp
  intro row row' newer item valid item' valid'
  rw [record_recency valid,record_recency valid']
  exact recency_le newer

end Records

/-- A start opens a session with the contact: one of the operators, or one that has a date
and is not the own contact. -/
def Restores (me : Int) (contact : ContactRow) (last : DateColumn) : Prop :=
  contact.isOperators ∨ last.read.isSome ∧ (contact.isGrouped ∨ me ≠ contact.extension)

instance (me : Int) (contact : ContactRow) (last : DateColumn) : Decidable (Restores me contact last) :=
  inferInstanceAs (Decidable (_ ∨ _))

section Conditions

variable (d : Desktop)

/-- The next start would open the session. -/
def Restorable (uid : Int) : Prop :=
  ∀ contact ∈ d.contacts.rows, contact.uid = uid → Restores d.me contact (d.state uid).last

/-- A date is all that the next start would need to open the session. -/
def Remembered (uid : Int) : Prop :=
  ∀ contact ∈ d.contacts.rows, contact.uid = uid →
    contact.isOperators ∨ contact.isGrouped ∨ d.me ≠ contact.extension

/-- The message can be added to the session. A fill-in does not date the contact; another
message does, and is not older than what the contact has. -/
def Follows (uid : Int) (item : MessageItem) : Prop :=
  if (d.state uid).FillIn item then d.Restorable uid
  else (d.state uid).recency ≤ item.recency ∧ d.Remembered uid

/-- A new message for a session that is neither loaded nor active does not date the contact. -/
def Receivable (uid : Int) (item : MessageItem) : Prop :=
  if d.messages.Admits (rowOf uid item) then
    if (d.session? uid).any SessionItem.loaded ∨ d.activeItem = some uid then d.Follows uid item
    else d.Restorable uid
  else d.session? uid = none → d.Restorable uid

/-- The session is loaded already; or it finds a record after the contact's update, and
one that is not older than what the contact has; or it needs none. -/
def Loadable (uid now : Int) : Prop :=
  if (d.session? uid).any SessionItem.loaded then True
  else if ∃ item ∈ d.records uid now, msecs (d.state uid).contactUpdated < item.dateTime then
    (∃ item ∈ d.records uid now, (d.state uid).recency ≤ item.recency) ∧ d.Remembered uid
  else d.stored uid = [] ∨ d.Restorable uid

def arrivalsFor (batch : List Arrival) (uid : Int) : List MessageItem :=
  batch.filterMap fun arrival => (d.delivery arrival).bind fun delivery =>
    if delivery.1 = uid then some delivery.2 else none

/-- The most recent message that the session received since it was opened, if any, and
what it has of the pending answer, after the epoch. -/
def receivedMarks (batch : List Arrival) (uid : Int) : List Recency :=
  ((d.session? uid).toList.filter fun session => session.mostRecent.isSome).map SessionItem.mark ++
    ((d.arrivalsFor batch uid).filter fun item => 0 < item.dateTime).map MessageItem.recency

/-- Each session received a message that is not older than what the contact has and what
is stored; or nothing is stored or received, and the contact has no date to lose. -/
def Syncable (batch : List Arrival) : Prop :=
  ∀ contact ∈ d.contacts.rows,
    d.session? contact.uid ≠ none ∨ d.arrivalsFor batch contact.uid ≠ [] →
    (∃ mark ∈ d.receivedMarks batch contact.uid, (d.state contact.uid).recency ≤ mark ∧
      ∀ row ∈ d.stored contact.uid, row.recency ≤ mark) ∧ d.Remembered contact.uid ∨
    d.arrivalsFor batch contact.uid = [] ∧ d.stored contact.uid = [] ∧
      ∀ session ∈ d.session? contact.uid, (d.state contact.uid).recency ≤ session.mark

def Nameable : Prop :=
  ∀ a ∈ d.sessions, ∀ b ∈ d.sessions, a.isGroup → b.isGroup → a.display = b.display → a = b

def Meets : Action → Prop
  | .receiveText arrival => ∀ delivery ∈ d.delivery arrival, d.Receivable delivery.1 delivery.2
  | .syncPending batch => d.Syncable batch
  | .activateContact uid now => d.isSelf uid ∨ d.Loadable uid now
  | .selectSession uid now => d.Loadable uid now
  | .finishInput (some sent) => ∀ uid ∈ d.inputItem,
    d.inputSession = some uid ∧ d.Follows uid (d.submitted uid sent)
  | .restart _ => d.Nameable
  | _ => True

instance (uid : Int) : Decidable (d.Restorable uid) := inferInstanceAs (Decidable (∀ _ ∈ _, _))
instance (uid : Int) : Decidable (d.Remembered uid) := inferInstanceAs (Decidable (∀ _ ∈ _, _))
instance (uid : Int) (item : MessageItem) : Decidable (d.Follows uid item) :=
  inferInstanceAs (Decidable (ite ..))
instance (uid : Int) (item : MessageItem) : Decidable (d.Receivable uid item) :=
  inferInstanceAs (Decidable (ite ..))
instance (uid now : Int) : Decidable (d.Loadable uid now) := inferInstanceAs (Decidable (ite ..))
instance (batch : List Arrival) : Decidable (d.Syncable batch) := inferInstanceAs (Decidable (∀ _ ∈ _, _))
instance : Decidable d.Nameable := inferInstanceAs (Decidable (∀ _ ∈ _, _))

instance (action : Action) : Decidable (d.Meets action) :=
  match action with
  | .receiveText arrival => inferInstanceAs (Decidable (∀ delivery ∈ d.delivery arrival, _))
  | .syncPending batch => inferInstanceAs (Decidable (d.Syncable batch))
  | .activateContact uid now => inferInstanceAs (Decidable (d.isSelf uid ∨ d.Loadable uid now))
  | .selectSession uid now => inferInstanceAs (Decidable (d.Loadable uid now))
  | .finishInput (some _) => inferInstanceAs (Decidable (∀ uid ∈ d.inputItem, _))
  | .restart _ => inferInstanceAs (Decidable d.Nameable)
  | .activateSelf | .closeSession | .clearSessions | .createMessage | .finishInput none => .isTrue trivial

end Conditions

/-- What a step leaves to a contact: closing a session apart, its recency does not go back
and does not become NULL; a pending answer takes it to the newest message stored; and a
session with messages is one that the next start opens, as it does. -/
structure Steady (before : Desktop) (action : Action) (after : Desktop) : Prop where
  kept : ∀ uid, ¬(action = .closeSession ∧ before.activeItem = some uid) →
    (before.state uid).recency ≤ (after.state uid).recency ∧
      ((before.state uid).last ≠ .null → (after.state uid).last ≠ .null)
  synced : (∃ batch, action = .syncPending batch) → ∀ uid, after.session? uid ≠ none →
    ∀ row ∈ after.stored uid, row.recency ≤ (after.state uid).recency
  restorable : ∀ uid, after.session? uid ≠ none → after.stored uid ≠ [] → after.Restorable uid
  restored : (∃ now, action = .restart now) → ∀ uid, before.session? uid ≠ none →
    after.stored uid ≠ [] → (after.session? uid).any SessionItem.listed

theorem Restores.mono {me : Int} {contact : ContactRow} {last last' : DateColumn}
    (restores : Restores me contact last) (later : last ≤ last') : Restores me contact last' :=
  restores.imp_right (.imp_left (DateColumn.isSome_of_le later))

structure Sane (d : Desktop) : Prop where
  listed : ∀ uid, (d.state uid).listing ≠ some false
  known : ∀ uid, (d.state uid).listing ≠ none → ∃ contact ∈ d.contacts.rows, contact.uid = uid
  restorable : ∀ uid, (d.state uid).listing ≠ none → d.stored uid ≠ [] → d.Restorable uid

section Steps

variable {d d' base : Desktop} {uid other now : Int} {s : ContactState} {item : MessageItem} {action : Action}

theorem listing_eq_none : (d.state uid).listing = none ↔ d.session? uid = none := Option.map_eq_none_iff

theorem mem_stored {row : MessageRow} : row ∈ d.stored uid ↔ row ∈ d.messages ∧ row.sid = uid := by
  simp [stored]

theorem stored_insert_ne (apart : other ≠ uid) :
    { d with messages := d.messages.insert (rowOf uid item) }.stored other = d.stored other := by
  simp only [stored,Table.select,Table.insert]
  split
  · simp [rowOf,apart.symm]
  · rfl

theorem mem_stored_insert {row : MessageRow} :
    row ∈ { d with messages := d.messages.insert (rowOf uid item) }.stored other →
      row ∈ d.stored other ∨ row = rowOf uid item ∧ other = uid := by
  rw [mem_stored,mem_stored]
  rintro ⟨member,here⟩
  rcases Table.mem_insert.mp member with old | ⟨-,rfl⟩
  · exact .inl ⟨old,here⟩
  · exact .inr ⟨rfl,here.symm⟩

theorem Sane.touched (sane : Sane d) (touched : Touched base d' uid s) (book : SameBook d base)
    (state : base.state = d.state) (stored : ∀ other, other ≠ uid → base.stored other = d.stored other)
    (listed : s.listing ≠ some false)
    (known : s.listing ≠ none → ∃ contact ∈ d.contacts.rows, contact.uid = uid)
    (restores : s.listing ≠ none → base.stored uid ≠ [] → ∀ contact ∈ d.contacts.rows,
      contact.uid = uid → Restores d.me contact s.last) : Sane d' := by
  have contacts : d'.contacts = d.contacts := touched.contacts.trans book.contacts
  have me : d'.me = d.me := touched.me.trans book.me
  have rows (other) : d'.stored other = base.stored other := by
    rw [Desktop.stored,touched.messages]
    rfl
  have here := listing_congr touched.state
  have there (other) (apart : other ≠ uid) : (d'.state other).listing = (d.state other).listing := by
    rw [listing_congr (touched.others other apart),state]
  refine ⟨fun other => ?_,fun other => ?_,fun other => ?_⟩
  · by_cases same : other = uid
    · rwa [same,here]
    · rw [there other same]
      exact sane.listed other
  · rw [contacts]
    by_cases same : other = uid
    · rwa [same,here]
    · rw [there other same]
      exact sane.known other
  · rw [Restorable,contacts,me,rows]
    by_cases same : other = uid
    · rwa [same,here,last_congr touched.state]
    · rw [there other same,last_congr (touched.others other same),state,stored other same]
      exact sane.restorable other

theorem Touched.recency (touched : Touched base d' uid s) (state : base.state = d.state)
    (kept : (d.state uid).recency ≤ s.recency) (other : Int) :
    (d.state other).recency ≤ (d'.state other).recency := by
  by_cases same : other = uid
  · rwa [same,recency_congr touched.state]
  · rw [recency_congr (touched.others other same),state]

theorem Sane.steady (sane : Sane d') (waiting : ¬∃ batch, action = .syncPending batch)
    (running : ¬∃ now, action = .restart now)
    (kept : ∀ uid, ¬(action = .closeSession ∧ d.activeItem = some uid) →
      (d.state uid).recency ≤ (d'.state uid).recency) : Steady d action d' where
  kept := fun uid spared => ⟨kept uid spared,fun present none =>
    present (DateColumn.null_of_le (none ▸ last_le (kept uid spared)))⟩
  synced := fun sync => absurd sync waiting
  restorable := fun uid here => sane.restorable uid (mt listing_eq_none.mp here)
  restored := fun restart => absurd restart running

theorem find_known {id : UString} {contact : ContactRow} (found : d.find id = some contact) :
    contact ∈ d.contacts.rows := by
  have searched {p : ContactRow → Bool} (found : d.contacts.rows.reverse.find? p = some contact) :
      contact ∈ d.contacts.rows := List.mem_reverse.mp (List.mem_of_find?_eq_some found)
  rw [find] at found
  split at found
  · exact searched found
  · split at found
    · contradiction
    · exact searched found

theorem delivery_known {arrival : Arrival} (found : d.delivery arrival = some (uid,item)) :
    ∃ contact ∈ d.contacts.rows, contact.uid = uid := by
  obtain ⟨sender,source,found⟩ := Option.bind_eq_some_iff.mp found
  obtain ⟨recipient,target,found⟩ := Option.bind_eq_some_iff.mp found
  rw [← (Prod.mk.inj (Option.some.inj found)).1,sessionOf]
  split
  · exact ⟨sender,find_known source,rfl⟩
  · exact ⟨recipient,find_known target,rfl⟩

/-- A message that follows what the contact has leaves the contact dated. -/
theorem Follows.added (follows : d.Follows uid item) (s' : ContactState)
    (same : SameRecency (d.state uid) s') (saved : Bool) :
    (d.state uid).recency ≤ (s'.addMessage { item with saved }).recency ∧
      ∀ contact ∈ d.contacts.rows, contact.uid = uid →
        Restores d.me contact (s'.addMessage { item with saved }).last := by
  have fillIn : s'.FillIn { item with saved } ↔ (d.state uid).FillIn item := by
    rw [FillIn,FillIn,same.contactUpdated,same.contactSequence]
  have recency : (s'.addMessage { item with saved }).recency = _ := addMessage_recency
  rw [Follows] at follows
  split at follows
  · rename_i older
    rw [if_pos (fillIn.mpr older),same.recency] at recency
    exact ⟨recency.ge,fun contact member here => (follows contact member here).mono (last_le recency.ge)⟩
  · rename_i newer
    rw [if_neg (mt fillIn.mp newer)] at recency
    refine ⟨recency.ge.trans' follows.1,fun contact member here => ?_⟩
    rcases follows.2 contact member here with operators | other
    · exact .inl operators
    · rw [last_of_recency recency]
      exact .inr ⟨rfl,other⟩

theorem loaded_noted : ((d.state uid).opened.onSession (·.noteRecent item)).session.any SessionItem.loaded =
    (d.session? uid).any SessionItem.loaded := by
  have any (o : Option SessionItem) : o.any SessionItem.loaded = (o.map SessionItem.loaded).any id := by
    cases o <;> rfl
  rw [any,noteRecent_session item fun _ _ _ => rfl,← any]
  cases h : (d.state uid).session <;> simp [session?,opened,h,SessionItem.create]

theorem receiveText_sane (sane : Sane d) {arrival : Arrival}
    (receivable : ∀ delivery ∈ d.delivery arrival, d.Receivable delivery.1 delivery.2) :
    Sane (d.receiveText arrival) ∧
      ∀ uid, (d.state uid).recency ≤ ((d.receiveText arrival).state uid).recency := by
  cases found : d.delivery arrival with
  | none =>
    rw [receiveText_unknown found]
    exact ⟨sane,fun _ => le_rfl⟩
  | some delivery =>
  obtain ⟨uid,item⟩ := delivery
  have meets := receivable (uid,item) found
  have listed : ((d.state uid).opened.onSession (·.noteRecent item)).listing ≠ some false := by
    rw [listing_noteRecent]
    exact listing_opened_ne (sane.listed uid)
  rw [Receivable] at meets
  split at meets
  · rename_i admitted
    have touched := receiveText_admitted found admitted
    dsimp only at touched
    rw [loaded_noted] at touched
    split at meets
    · rename_i shown
      rw [if_pos shown] at touched
      obtain ⟨kept,restores⟩ := meets.added ((d.state uid).opened.onSession (·.noteRecent item))
        ⟨rfl,rfl,rfl⟩ true
      refine ⟨sane.touched touched ⟨rfl,rfl,rfl⟩ rfl (fun _ => stored_insert_ne) ?_
        (fun _ => delivery_known found) fun _ _ => restores,touched.recency rfl kept⟩
      rwa [listing_addMessage]
    · rename_i hidden
      rw [if_neg hidden] at touched
      exact ⟨sane.touched touched ⟨rfl,rfl,rfl⟩ rfl (fun _ => stored_insert_ne) listed
        (fun _ => delivery_known found) fun _ _ => meets,touched.recency rfl le_rfl⟩
  · rename_i refused
    rw [receiveText_refused found refused]
    have touched : Touched d _ uid _ := .modify fun s => s.opened.onSession (·.noteRecent item)
    refine ⟨sane.touched touched ⟨rfl,rfl,rfl⟩ rfl (fun _ _ => rfl) listed
      (fun _ => delivery_known found) fun _ held => ?_,touched.recency rfl le_rfl⟩
    by_cases none : d.session? uid = none
    · exact meets none
    · exact sane.restorable uid (mt listing_eq_none.mp none) held

/-- Loading a session, which was opened before or for this. -/
theorem Sane.loaded (sane : Sane d) (same : SameRecency (d.state uid) s) (listed : s.listing ≠ some false)
    (known : ∃ contact ∈ d.contacts.rows, contact.uid = uid) (loadable : d.Loadable uid now)
    (touched : Touched { d with activeItem := some uid } d' uid
      (if (d.session? uid).any SessionItem.loaded then s else s.load (d.records uid now))) :
    Sane d' ∧ ∀ other, (d.state other).recency ≤ (d'.state other).recency := by
  rw [Loadable] at loadable
  split at loadable
  · rename_i loaded
    rw [if_pos loaded] at touched
    refine ⟨sane.touched touched ⟨rfl,rfl,rfl⟩ rfl (fun _ _ => rfl) listed (fun _ => known)
      fun _ held contact member here => ?_,touched.recency rfl same.recency.ge⟩
    have here' : (d.state uid).listing ≠ none := by
      intro none
      rw [listing_eq_none.mp none] at loaded
      contradiction
    exact (sane.restorable uid here' held contact member here).mono (last_le same.recency.ge)
  · rename_i unloaded
    rw [if_neg unloaded] at touched
    have listed' : (s.load (d.records uid now)).listing ≠ some false := by rwa [listing_load]
    rcases load_recency (s := s) records_sorted with ⟨unwritten,old⟩ | ⟨item,member,later,written,newest⟩
    · rw [same.contactUpdated] at old
      have kept : (d.state uid).recency ≤ (s.load (d.records uid now)).recency :=
        (unwritten.trans same.recency).ge
      rw [if_neg fun ⟨item,member,later⟩ => absurd (old item member) (by omega)] at loadable
      refine ⟨sane.touched touched ⟨rfl,rfl,rfl⟩ rfl (fun _ _ => rfl) listed' (fun _ => known)
        fun _ held contact member here => ?_,touched.recency rfl kept⟩
      rcases loadable with empty | restorable
      · exact absurd empty held
      · exact (restorable contact member here).mono (last_le kept)
    · rw [same.contactUpdated] at later
      rw [if_pos ⟨item,member,later⟩] at loadable
      obtain ⟨⟨other,found,kept⟩,remembered⟩ := loadable
      refine ⟨sane.touched touched ⟨rfl,rfl,rfl⟩ rfl (fun _ _ => rfl) listed' (fun _ => known)
        fun _ _ contact member here => ?_,touched.recency rfl (written ▸ kept.trans (newest other found))⟩
      rcases remembered contact member here with operators | other
      · exact .inl operators
      · rw [last_of_recency written]
        exact .inr ⟨rfl,other⟩

theorem activateSession_sane (sane : Sane d) (opened : (d.state uid).listing ≠ none)
    (loadable : d.Loadable uid now) : Sane (d.activateSession uid now) ∧
      ∀ other, (d.state other).recency ≤ ((d.activateSession uid now).state other).recency :=
  sane.loaded ⟨rfl,rfl,rfl⟩ (sane.listed uid) (sane.known uid opened) loadable
    (activateSession_touched d uid now)

theorem activateContact_sane (sane : Sane d) (known : d.hasContact uid)
    (loadable : d.isSelf uid ∨ d.Loadable uid now) : Sane (d.activateContact uid now) ∧
      ∀ other, (d.state other).recency ≤ ((d.activateContact uid now).state other).recency := by
  rw [activateContact]
  split
  · exact ⟨⟨sane.listed,sane.known,sane.restorable⟩,fun _ => le_rfl⟩
  · rename_i other
    have opened : Touched { d with activeItem := some uid }
        { d.modify uid ContactState.opened with activeItem := some uid } uid _ :=
      .modify (d := { d with activeItem := some uid }) ContactState.opened
    have touched := opened.trans (activateSession_touched (d.modify uid ContactState.opened) uid now)
    have loaded : ((d.modify uid ContactState.opened).session? uid).any SessionItem.loaded =
        (d.session? uid).any SessionItem.loaded := by
      rw [session?,state_modify]
      cases h : (d.state uid).session <;> simp [session?,ContactState.opened,h,SessionItem.create]
    rw [state_modify,loaded] at touched
    have same : SameRecency (d.state uid) (d.state uid).opened := ⟨rfl,rfl,rfl⟩
    apply sane.loaded same (listing_opened_ne (sane.listed uid)) _
      (loadable.resolve_left other) touched
    obtain ⟨contact,member,same⟩ := List.any_eq_true.mp known
    exact ⟨contact,member,of_decide_eq_true same⟩

theorem finishInput_sane (sane : Sane d) {sent : Option Sent} (meets : d.Meets (.finishInput sent)) :
    Sane (d.finishInput sent) ∧ ∀ uid, (d.state uid).recency ≤ ((d.finishInput sent).state uid).recency := by
  have idle : Sane { d with inputItem := none, inputGone := false } := ⟨sane.listed,sane.known,sane.restorable⟩
  cases sent with
  | none => exact finishInput_none d ▸ ⟨idle,fun _ => le_rfl⟩
  | some sent =>
    cases waiting : d.inputSession with
    | none => exact finishInput_lost waiting _ ▸ ⟨idle,fun _ => le_rfl⟩
    | some uid =>
      have touched := finishInput_touched waiting sent
      obtain ⟨kept,restores⟩ := (meets uid (inputSession_item waiting)).2.added _ ⟨rfl,rfl,rfl⟩
        (decide (d.messages.Admits (rowOf uid (d.submitted uid sent))))
      refine ⟨sane.touched touched ⟨rfl,rfl,rfl⟩ rfl (fun _ apart => stored_insert_ne apart) ?_ ?_
        fun _ _ => restores,touched.recency rfl kept⟩
      · rw [listing_addMessage]
        exact sane.listed uid
      · rw [listing_addMessage]
        exact sane.known uid

theorem closeSession_sane (sane : Sane d) : Sane d.closeSession ∧
    ∀ uid, d.activeItem ≠ some uid → (d.closeSession.state uid).recency = (d.state uid).recency := by
  have idle : Sane { d with activeItem := none } := ⟨sane.listed,sane.known,sane.restorable⟩
  rw [closeSession]
  split
  · exact ⟨sane,fun _ _ => rfl⟩
  · rename_i uid chosen
    split
    · have touched := @close_touched d uid (d.inputGone || d.inputItem = some uid)
      refine ⟨sane.touched touched ⟨rfl,rfl,rfl⟩ rfl (fun _ _ => rfl) ?_ ?_ ?_,fun other apart => ?_⟩
      · simp [listing,ContactState.close]
      · simp [listing,ContactState.close]
      · simp [listing,ContactState.close]
      · have ne : other ≠ uid := fun same => apart (same ▸ chosen)
        exact recency_congr (touched.others other ne)
    · exact ⟨idle,fun _ _ => rfl⟩

theorem clearSessions_sane (sane : Sane d) : Sane d.clearSessions ∧
    ∀ uid, (d.clearSessions.state uid).recency = (d.state uid).recency := by
  have same (uid : Int) : (d.clearSessions.state uid).listing = (d.state uid).listing := by
    simp only [clearSessions,listing,onSession,Option.map_map]
    cases (d.state uid).session with
    | none => rfl
    | some session => cases listed : session.listed <;> simp [listed,SessionItem.clearMessages]
  exact ⟨⟨fun uid => same uid ▸ sane.listed uid,fun uid => same uid ▸ sane.known uid,
    fun uid => same uid ▸ sane.restorable uid⟩,fun _ => rfl⟩

theorem mem_sessions {contact : ContactRow} : contact ∈ d.sessions ↔
    contact ∈ d.contacts.rows ∧ Restores d.me contact (d.state contact.uid).last := by
  simp only [sessions,dated,List.mem_append,List.mem_reverse,List.mem_filter,Bool.and_eq_true,
    Bool.not_eq_true',decide_eq_true_eq,Restores]
  cases contact.isGrouped <;> simp <;> tauto

/-- The database at a start, and the contacts as it lists them. -/
def reopened (d : Desktop) (now : Int) : Desktop := { d.cleanupExpired now with
  contacts := d.sorted
  activeItem := none
  inputItem := none
  inputGone := false
  totalUnread := 0 }

theorem mem_reopened {contact : ContactRow} : contact ∈ (d.reopened now).sessions ↔ contact ∈ d.sessions := by
  rw [mem_sessions,mem_sessions]
  change contact ∈ d.contacts.rows.insertionSort _ ∧ _ ↔ _
  rw [List.mem_insertionSort]
  rfl

theorem isListed_of_nameable (nameable : d.Nameable) {contact : ContactRow} (member : contact ∈ d.sessions) :
    d.isListed contact := by
  rw [isListed]
  cases group : contact.isGroup with
  | false => rfl
  | true =>
    rw [Bool.not_true,Bool.false_or,decide_eq_true_eq]
    cases found : d.sessions.reverse.find? (fun other => other.isGroup && other.display = contact.display) with
    | none =>
      have missed := List.find?_eq_none.mp found contact (List.mem_reverse.mpr member)
      simp [group] at missed
    | some other =>
      have same := List.find?_some found
      rw [Bool.and_eq_true,decide_eq_true_eq] at same
      have listed := List.mem_reverse.mp (List.mem_of_find?_eq_some found)
      rw [nameable other listed contact member same.1 group same.2]

theorem restart_session (d : Desktop) (now uid : Int) : (d.restart now).session? uid =
    ((d.reopened now).sessions.find? fun contact => contact.uid = uid).map fun contact =>
      { SessionItem.create (d.state uid).topic with listed := (d.reopened now).isListed contact } := rfl

theorem restart_sane (sane : Sane d) (nameable : d.Nameable) (now : Int) : Sane (d.restart now) ∧
    (∀ uid, ((d.restart now).state uid).recency = (d.state uid).recency) ∧
    ∀ uid, d.session? uid ≠ none → (d.restart now).stored uid ≠ [] →
      ((d.restart now).session? uid).any SessionItem.listed := by
  have nameable' : (d.reopened now).Nameable := fun a member b member' =>
    nameable a (mem_reopened.mp member) b (mem_reopened.mp member')
  have opened (uid : Int) (here : ((d.restart now).state uid).listing ≠ none) :
      ∃ contact ∈ d.sessions, contact.uid = uid ∧ ((d.restart now).state uid).listing = some true := by
    have session := restart_session d now uid
    cases found : (d.reopened now).sessions.find? (fun contact => contact.uid = uid) with
    | none =>
      rw [found] at session
      exact absurd (listing_eq_none.mpr session) here
    | some contact =>
      rw [found] at session
      have member := List.mem_of_find?_eq_some found
      refine ⟨contact,mem_reopened.mp member,by simpa using List.find?_some found,?_⟩
      have known := congrArg (Option.map SessionItem.listed) session
      exact known.trans (congrArg some (isListed_of_nameable nameable' member))
  have perm (contact : ContactRow) : contact ∈ (d.restart now).contacts.rows ↔ contact ∈ d.contacts.rows :=
    List.mem_insertionSort _
  refine ⟨⟨fun uid => ?_,fun uid here => ?_,fun uid here _ => ?_⟩,fun _ => rfl,fun uid here held => ?_⟩
  · intro unlisted
    obtain ⟨_,_,_,listed⟩ := opened uid (unlisted ▸ Option.some_ne_none _)
    exact absurd (unlisted.symm.trans listed) (by simp)
  · obtain ⟨contact,member,same,-⟩ := opened uid here
    exact ⟨contact,(perm contact).mpr (mem_sessions.mp member).1,same⟩
  · obtain ⟨contact,member,same,-⟩ := opened uid here
    obtain ⟨known,restores⟩ := mem_sessions.mp member
    intro other member' same'
    obtain rfl := Table.unique known ((perm other).mp member') (same.trans same'.symm)
    exact same ▸ restores
  · have before : d.stored uid ≠ [] := by
      obtain ⟨row,member⟩ := List.exists_mem_of_ne_nil _ held
      obtain ⟨stored,sid⟩ := mem_stored.mp member
      exact List.ne_nil_of_mem (mem_stored.mpr ⟨(Table.mem_delete.mp stored).1,sid⟩)
    obtain ⟨contact,member,same⟩ := sane.known uid (mt listing_eq_none.mp here)
    have restores := sane.restorable uid (mt listing_eq_none.mp here) before contact member same
    have listed : contact ∈ (d.reopened now).sessions :=
      mem_reopened.mpr (mem_sessions.mpr ⟨member,same ▸ restores⟩)
    rw [restart_session]
    cases found : (d.reopened now).sessions.find? (fun contact => contact.uid = uid) with
    | none => exact absurd same (by simpa using List.find?_eq_none.mp found contact listed)
    | some other => exact isListed_of_nameable nameable' (List.mem_of_find?_eq_some found)

end Steps

def SessionItem.newest (session : SessionItem) : Recency :=
  toLex (.date (msecs session.mostRecent),session.lastSequence)

theorem noteRecent_newest (session : SessionItem) (item : MessageItem) :
    session.newest ≤ (session.noteRecent item).newest ∧ item.recency ≤ (session.noteRecent item).newest := by
  have order (time time' sequence sequence' : Int) :
      (toLex (DateColumn.date time,sequence) : Recency) ≤ toLex (DateColumn.date time',sequence') ↔
        time < time' ∨ time = time' ∧ sequence ≤ sequence' := by
    rw [Prod.Lex.le_iff]
    simp only [ofLex_toLex,lt_iff_le_not_ge,DateColumn.date_le,DateColumn.date.injEq]
  rw [SessionItem.noteRecent]
  split
  · simp only [msecs] at *
    simp only [SessionItem.newest,MessageItem.recency,order,msecs,Option.getD_some,true_and]
    omega
  · split
    · simp only [SessionItem.newest,MessageItem.recency,order,true_and]
      omega
    · simp only [SessionItem.newest,MessageItem.recency,order,true_and]
      omega

theorem noteRecent_dated {session : SessionItem} {item : MessageItem}
    (dated : session.mostRecent.isSome ∨ 0 < item.dateTime) :
    (session.noteRecent item).mostRecent.isSome := by
  rw [SessionItem.noteRecent]
  split
  · rfl
  · rename_i old
    have some : session.mostRecent.isSome := by
      rcases dated with dated | after
      · exact dated
      · cases h : session.mostRecent with
        | none => simp [h,msecs] at old; omega
        | some time => rfl
    split <;> exact some

/-- What `receiveText` has noted in a session, whether that has a date, and whether the
session is listed. -/
def SessionItem.summary (session : SessionItem) : Recency × Bool × Bool :=
  (session.newest,session.mostRecent.isSome,session.listed)

structure Gathered (d : Desktop) (batch : List Arrival) (d' : Desktop) : Prop where
  book : SameBook d d'
  sessions : ∀ uid session, d.session? uid = some session → ∃ later, d'.session? uid = some later ∧
    session.newest ≤ later.newest ∧ (session.mostRecent.isSome → later.mostRecent.isSome)
  arrived : ∀ uid, ∀ item ∈ d.arrivalsFor batch uid, ∃ later, d'.session? uid = some later ∧
    item.recency ≤ later.newest ∧ (0 < item.dateTime → later.mostRecent.isSome)
  listed : (∀ uid, (d.state uid).listing ≠ some false) → ∀ uid, (d'.state uid).listing ≠ some false
  stored : ∀ uid, ∀ row ∈ d'.stored uid, row ∈ d.stored uid ∨
    ∃ item ∈ d.arrivalsFor batch uid, row.recency = item.recency
  spared : ∀ uid, d.arrivalsFor batch uid = [] → (d'.state uid).uncounted = (d.state uid).uncounted

section Gathering

variable {d d' d'' : Desktop} {uid other : Int} {item : MessageItem} {arrival : Arrival} {batch rest : List Arrival}

theorem receiveText_noted (found : d.delivery arrival = some (uid,item)) :
    ((d.receiveText arrival).session? uid).map SessionItem.summary =
      some (((d.session? uid).getD (SessionItem.create (d.state uid).contactTopic)).noteRecent item).summary ∧
    ∀ other, other ≠ uid → ((d.receiveText arrival).state other).uncounted = (d.state other).uncounted := by
  by_cases admitted : d.messages.Admits (rowOf uid item)
  · have touched := receiveText_admitted found admitted
    refine ⟨(session_congr (fun _ _ => rfl) touched.state).trans ?_,touched.others⟩
    split
    · exact addMessage_session (fun _ _ => rfl) fun _ => rfl
    · rfl
  · rw [receiveText_refused found admitted]
    have touched : Touched d _ uid _ := .modify fun s => s.opened.onSession (·.noteRecent item)
    exact ⟨session_congr (fun _ _ => rfl) touched.state,touched.others⟩

theorem arrivalsFor_append : d.arrivalsFor (batch ++ rest) uid =
    d.arrivalsFor batch uid ++ d.arrivalsFor rest uid := List.filterMap_append ..

theorem arrivalsFor_single (found : d.delivery arrival = some (other,item)) (uid : Int) :
    d.arrivalsFor [arrival] uid = if other = uid then [item] else [] := by
  by_cases same : other = uid <;> simp [arrivalsFor,found,same]

theorem gathered_same (none : ∀ uid, d.arrivalsFor batch uid = []) : Gathered d batch d where
  book := ⟨rfl,rfl,rfl⟩
  sessions := fun _ session here => ⟨session,here,le_rfl,id⟩
  arrived := fun uid _ member => absurd (none uid ▸ member) List.not_mem_nil
  listed := id
  stored := fun _ _ member => .inl member
  spared := fun _ _ => rfl

theorem gathered_receiveText (d : Desktop) (arrival : Arrival) :
    Gathered d [arrival] (d.receiveText arrival) := by
  cases found : d.delivery arrival with
  | none =>
    rw [receiveText_unknown found]
    exact gathered_same fun uid => by simp [arrivalsFor,found]
  | some delivery =>
  obtain ⟨uid,item⟩ := delivery
  have single := arrivalsFor_single found
  obtain ⟨here,others⟩ := receiveText_noted found
  obtain ⟨later,opened,summary⟩ := Option.map_eq_some_iff.mp here
  obtain ⟨newest,rest⟩ := Prod.mk.inj summary
  obtain ⟨dated,listed⟩ := Prod.mk.inj rest
  refine ⟨receiveText_book d arrival,fun other session known => ?_,fun other item' member => ?_,
    fun sound other => ?_,fun other row member => ?_,fun other none => ?_⟩
  · by_cases same : other = uid
    · subst same
      rw [known,Option.getD_some] at newest dated
      exact ⟨later,opened,newest ▸ (noteRecent_newest session item).1,
        fun before => dated ▸ noteRecent_dated (.inl before)⟩
    · have kept := session_congr (f := SessionItem.summary) (fun _ _ => rfl) (others other same)
      rw [show (d.state other).session = some session from known,Option.map_some] at kept
      obtain ⟨later,still,summary⟩ := Option.map_eq_some_iff.mp kept
      obtain ⟨newest,rest⟩ := Prod.mk.inj summary
      exact ⟨later,still,newest.ge,fun before => (Prod.mk.inj rest).1 ▸ before⟩
  · rw [single] at member
    split at member
    · rename_i same
      obtain rfl := List.mem_singleton.mp member
      exact ⟨later,same ▸ opened,newest ▸ (noteRecent_newest _ _).2,
        fun after => dated ▸ noteRecent_dated (.inr after)⟩
    · exact absurd member List.not_mem_nil
  · by_cases same : other = uid
    · subst same
      have sound := listing_opened_ne (sound other)
      rw [← listing_noteRecent item] at sound
      rw [listing,show ((d.receiveText arrival).state other).session = some later from opened,
        Option.map_some,listed]
      exact sound
    · rw [listing_congr (others other same)]
      exact sound other
  · rw [single]
    have inserted : row ∈ { d with messages := d.messages.insert (rowOf uid item) }.stored other := by
      rwa [stored,receiveText_messages found] at member
    rcases mem_stored_insert inserted with old | ⟨rfl,same⟩
    · exact .inl old
    · exact .inr ⟨item,by rw [if_pos same.symm]; exact List.mem_singleton_self item,rfl⟩
  · rw [single] at none
    split at none
    · contradiction
    · rename_i apart
      exact others other (Ne.symm apart)

theorem Gathered.trans (first : Gathered d batch d') (second : Gathered d' rest d'') :
    Gathered d (batch ++ rest) d'' := by
  have later (uid : Int) : d'.arrivalsFor rest uid = d.arrivalsFor rest uid := by
    rw [arrivalsFor,arrivalsFor,first.book.delivery]
  refine ⟨first.book.trans second.book,fun uid session known => ?_,fun uid item member => ?_,
    fun listed => second.listed (first.listed listed),fun uid row member => ?_,fun uid none => ?_⟩
  · obtain ⟨middle,opened,newest,dated⟩ := first.sessions uid session known
    obtain ⟨last,still,newest',dated'⟩ := second.sessions uid middle opened
    exact ⟨last,still,newest.trans newest',dated' ∘ dated⟩
  · rw [arrivalsFor_append,List.mem_append] at member
    rcases member with early | late
    · obtain ⟨middle,opened,newest,dated⟩ := first.arrived uid item early
      obtain ⟨last,still,newest',dated'⟩ := second.sessions uid middle opened
      exact ⟨last,still,newest.trans newest',dated' ∘ dated⟩
    · exact second.arrived uid item (later uid ▸ late)
  · rw [arrivalsFor_append]
    rcases second.stored uid row member with before | ⟨item,late,same⟩
    · rcases first.stored uid row before with old | ⟨item,early,same⟩
      · exact .inl old
      · exact .inr ⟨item,List.mem_append_left _ early,same⟩
    · exact .inr ⟨item,List.mem_append_right _ (later uid ▸ late),same⟩
  · rw [arrivalsFor_append,List.append_eq_nil_iff] at none
    exact (second.spared uid ((later uid).trans none.2)).trans (first.spared uid none.1)

theorem gathered_foldl (d : Desktop) (batch : List Arrival) : Gathered d batch (batch.foldl receiveText d) := by
  induction batch generalizing d with
  | nil => exact gathered_same fun _ => rfl
  | cons arrival rest ih => exact (gathered_receiveText d arrival).trans (ih _)

/-- What the handler of `syncPending` writes, of what the session noted. -/
theorem mark_of_dated {session : SessionItem} (dated : session.mostRecent.isSome) :
    session.mark = session.newest := by
  obtain ⟨time,known⟩ := Option.isSome_iff_exists.mp dated
  rw [SessionItem.mark,SessionItem.newest,known]
  rfl

theorem writeRecency_listed {session : SessionItem} (known : d.session? uid = some session)
    (listed : session.listed) : (d.writeRecency.state uid).recency = session.mark := by
  rw [session?] at known
  simp only [writeRecency,known,if_pos listed]
  rfl

theorem writeRecency_closed (closed : d.session? uid = none) : d.writeRecency.state uid = d.state uid := by
  rw [session?] at closed
  simp only [writeRecency,closed]

theorem writeRecency_session (uid : Int) : d.writeRecency.session? uid = d.session? uid := by
  cases known : d.session? uid with
  | none => rw [session?,writeRecency_closed known,← session?,known]
  | some session =>
    rw [session?] at known
    simp only [session?,writeRecency,known]
    split
    · rfl
    · exact known

/-- The mark of a session that received a message is not before it, nor before any other
message of the batch. -/
theorem Gathered.marked (gathered : Gathered d batch d') {later : SessionItem}
    (opened : d'.session? uid = some later) {mark : Recency} (member : mark ∈ d.receivedMarks batch uid) :
    later.mostRecent.isSome ∧ mark ≤ later.mark ∧
      ∀ item ∈ d.arrivalsFor batch uid, item.recency ≤ later.mark := by
  have found : mark ≤ later.newest ∧ later.mostRecent.isSome := by
    rcases List.mem_append.mp member with before | arrived
    · obtain ⟨session,known,rfl⟩ := List.mem_map.mp before
      obtain ⟨known,dated⟩ := List.mem_filter.mp known
      obtain ⟨last,still,newest,kept⟩ := gathered.sessions uid session (Option.mem_toList.mp known)
      obtain rfl := Option.some.inj (opened.symm.trans still)
      exact ⟨mark_of_dated dated ▸ newest,kept dated⟩
    · obtain ⟨item,known,rfl⟩ := List.mem_map.mp arrived
      obtain ⟨known,after⟩ := List.mem_filter.mp known
      obtain ⟨last,still,newest,kept⟩ := gathered.arrived uid item known
      obtain rfl := Option.some.inj (opened.symm.trans still)
      exact ⟨newest,kept (of_decide_eq_true after)⟩
  rw [mark_of_dated found.2]
  refine ⟨found.2,found.1,fun item arrived => ?_⟩
  obtain ⟨last,still,newest,-⟩ := gathered.arrived uid item arrived
  obtain rfl := Option.some.inj (opened.symm.trans still)
  exact newest

theorem Gathered.known (gathered : Gathered d batch d') (sane : Sane d) (here : d'.session? uid ≠ none) :
    (d.session? uid ≠ none ∨ d.arrivalsFor batch uid ≠ []) ∧
      ∃ contact ∈ d.contacts.rows, contact.uid = uid := by
  by_cases known : d.session? uid = none
  · have arrived : d.arrivalsFor batch uid ≠ [] := by
      intro none
      have same := listing_congr (gathered.spared uid none)
      rw [listing_eq_none.mpr known] at same
      exact here (listing_eq_none.mp same)
    refine ⟨.inr arrived,?_⟩
    obtain ⟨item,member⟩ := List.exists_mem_of_ne_nil _ arrived
    obtain ⟨arrival,-,found⟩ := List.mem_filterMap.mp member
    obtain ⟨delivery,found,same⟩ := Option.bind_eq_some_iff.mp found
    split at same
    · rename_i target
      exact target ▸ delivery_known found
    · contradiction
  · exact ⟨.inl known,sane.known uid (mt listing_eq_none.mp known)⟩

/-- A pending answer leaves each session dated by its most recent message. -/
theorem syncPending_session (sane : Sane d) (syncable : d.Syncable batch) {later : SessionItem}
    (here : (d.syncPending batch).session? uid = some later) :
    later.listed ∧ (d.state uid).recency ≤ ((d.syncPending batch).state uid).recency ∧
    (∀ row ∈ (d.syncPending batch).stored uid, row.recency ≤ ((d.syncPending batch).state uid).recency) ∧
    ((d.syncPending batch).stored uid ≠ [] → ∀ contact ∈ d.contacts.rows, contact.uid = uid →
      Restores d.me contact ((d.syncPending batch).state uid).last) := by
  have gathered := gathered_foldl d batch
  have opened : (batch.foldl receiveText d).session? uid = some later := by
    rwa [syncPending,writeRecency_session] at here
  obtain ⟨concerned,contact,member,rfl⟩ := gathered.known sane (opened ▸ Option.some_ne_none _)
  have listed : later.listed := by
    have sound := gathered.listed sane.listed contact.uid
    rw [listing,show ((batch.foldl receiveText d).state contact.uid).session = some later from opened] at sound
    simpa using sound
  have written : ((d.syncPending batch).state contact.uid).recency = later.mark :=
    writeRecency_listed opened listed
  have stored : ∀ row ∈ (d.syncPending batch).stored contact.uid, row ∈ d.stored contact.uid ∨
      ∃ item ∈ d.arrivalsFor batch contact.uid, row.recency = item.recency := gathered.stored contact.uid
  refine ⟨listed,?_⟩
  rw [written]
  rcases syncable contact member concerned with ⟨⟨mark,marked,kept,newest⟩,remembered⟩ | ⟨none,empty,kept⟩
  · obtain ⟨dated,below,arrived⟩ := gathered.marked opened marked
    refine ⟨kept.trans below,fun row member => ?_,fun _ other member' same => ?_⟩
    · rcases stored row member with old | ⟨item,new,same⟩
      · exact (newest row old).trans below
      · exact same ▸ arrived item new
    · rcases remembered other member' same with operators | another
      · exact .inl operators
      · obtain ⟨time,known⟩ := Option.isSome_iff_exists.mp dated
        have last : ((d.syncPending batch).state contact.uid).last = DateColumn.bind later.mostRecent :=
          congrArg (fun recency => (ofLex recency).1) written
        rw [last,known]
        exact .inr ⟨rfl,another⟩
  · have nothing : (d.syncPending batch).stored contact.uid = [] := by
      refine List.eq_nil_iff_forall_not_mem.mpr fun row member => ?_
      rcases stored row member with old | ⟨item,new,-⟩
      · exact absurd (empty ▸ old) List.not_mem_nil
      · exact absurd (none ▸ new) List.not_mem_nil
    have same := session_congr (f := SessionItem.mark) (fun _ _ => rfl) (gathered.spared contact.uid none)
    rw [show ((batch.foldl receiveText d).state contact.uid).session = some later from opened] at same
    obtain ⟨session,known,marks⟩ := Option.map_eq_some_iff.mp same.symm
    exact ⟨marks ▸ kept session known,fun row member => absurd (nothing ▸ member) List.not_mem_nil,
      fun held => absurd nothing held⟩

theorem syncPending_sane (sane : Sane d) (syncable : d.Syncable batch) : Sane (d.syncPending batch) ∧
    ∀ uid, (d.state uid).recency ≤ ((d.syncPending batch).state uid).recency := by
  have gathered := gathered_foldl d batch
  have contacts : (d.syncPending batch).contacts = d.contacts := gathered.book.contacts
  have me : (d.syncPending batch).me = d.me := gathered.book.me
  have opened {uid : Int} (here : ((d.syncPending batch).state uid).listing ≠ none) :
      ∃ later, (d.syncPending batch).session? uid = some later :=
    Option.ne_none_iff_exists'.mp (mt listing_eq_none.mpr here)
  refine ⟨⟨fun uid unlisted => ?_,fun uid here => ?_,fun uid here held => ?_⟩,fun uid => ?_⟩
  · obtain ⟨later,here⟩ := opened (unlisted ▸ Option.some_ne_none _)
    have listed := (syncPending_session sane syncable here).1
    rw [listing,show ((d.syncPending batch).state uid).session = some later from here,Option.map_some,
      listed] at unlisted
    exact absurd unlisted (by simp)
  · rw [contacts]
    obtain ⟨later,here⟩ := opened here
    apply (gathered.known sane _).2
    rw [syncPending,writeRecency_session] at here
    exact here ▸ Option.some_ne_none later
  · obtain ⟨later,here⟩ := opened here
    rw [Restorable,contacts,me]
    exact (syncPending_session sane syncable here).2.2.2 held
  · cases here : (d.syncPending batch).session? uid with
    | some later => exact (syncPending_session sane syncable here).2.1
    | none =>
      have closed : (batch.foldl receiveText d).session? uid = none := by
        rwa [syncPending,writeRecency_session] at here
      have none : d.arrivalsFor batch uid = [] := by
        refine List.eq_nil_iff_forall_not_mem.mpr fun item member => ?_
        obtain ⟨later,opened,-⟩ := gathered.arrived uid item member
        exact absurd (closed.symm.trans opened) (by simp)
      rw [syncPending,writeRecency_closed closed,recency_congr (gathered.spared uid none)]

end Gathering

section Runs

variable {d next : Desktop} {action : Action}

theorem step_steady (sane : Sane d) (meets : d.Meets action) (moved : step d action = some next) :
    Sane next ∧ Steady d action next := by
  have steady (kept : Sane next ∧ ∀ uid, (d.state uid).recency ≤ (next.state uid).recency)
      (waiting : ¬∃ batch, action = .syncPending batch) (running : ¬∃ now, action = .restart now) :
      Sane next ∧ Steady d action next :=
    ⟨kept.1,kept.1.steady waiting running fun uid _ => kept.2 uid⟩
  cases action <;> simp only [step] at moved
  case receiveText arrival =>
    exact steady (Option.some.inj moved ▸ receiveText_sane sane meets) (by simp) (by simp)
  case syncPending batch =>
    obtain rfl := Option.some.inj moved
    obtain ⟨sane',kept⟩ := syncPending_sane sane meets
    refine ⟨sane',fun uid _ => ⟨kept uid,fun present none => ?_⟩,fun _ uid here => ?_,?_,by simp⟩
    · exact present (DateColumn.null_of_le (none ▸ last_le (kept uid)))
    · obtain ⟨later,here⟩ := Option.ne_none_iff_exists'.mp here
      exact (syncPending_session sane meets here).2.2.1
    · exact fun uid here => sane'.restorable uid (mt listing_eq_none.mp here)
  case activateContact uid now =>
    split at moved
    · rename_i known
      exact steady (Option.some.inj moved ▸ activateContact_sane sane known meets) (by simp) (by simp)
    · contradiction
  case selectSession uid now =>
    split at moved
    · rename_i listed
      apply steady _ (by simp) (by simp)
      rw [← Option.some.inj moved]
      refine activateSession_sane sane (fun none => ?_) meets
      rw [session?,Option.map_eq_none_iff.mp none] at listed
      contradiction
    · contradiction
  case activateSelf =>
    exact steady (Option.some.inj moved ▸ ⟨⟨sane.listed,sane.known,sane.restorable⟩,fun _ => le_rfl⟩)
      (by simp) (by simp)
  case closeSession =>
    obtain rfl := Option.some.inj moved
    obtain ⟨sane',kept⟩ := closeSession_sane sane
    exact ⟨sane',sane'.steady (by simp) (by simp) fun uid spared =>
      (kept uid fun chosen => spared ⟨rfl,chosen⟩).ge⟩
  case clearSessions =>
    obtain ⟨sane',same⟩ := clearSessions_sane sane
    exact steady (Option.some.inj moved ▸ ⟨sane',fun uid => (same uid).ge⟩) (by simp) (by simp)
  case createMessage =>
    split at moved
    · contradiction
    · exact steady (Option.some.inj moved ▸ ⟨⟨sane.listed,sane.known,sane.restorable⟩,fun _ => le_rfl⟩)
        (by simp) (by simp)
  case finishInput sent =>
    exact steady (Option.some.inj moved ▸ finishInput_sane sane meets) (by simp) (by simp)
  case restart now =>
    obtain rfl := Option.some.inj moved
    obtain ⟨sane',same,restored⟩ := restart_sane sane meets now
    refine ⟨sane',fun uid _ => ⟨(same uid).ge,fun present none => ?_⟩,by simp,?_,fun _ => restored⟩
    · exact present (DateColumn.null_of_le (none ▸ last_le (same uid).ge))
    · exact fun uid here => sane'.restorable uid (mt listing_eq_none.mp here)

theorem run_sane {start final : Desktop} {trace} (run : Run step start trace final) (sane : Sane start)
    (met : ∀ edge ∈ trace, edge.source.Meets edge.action) : Sane final :=
  run.invariant_of Sane Meets (fun _ _ _ sane meets moved => (step_steady sane meets moved).1) sane met

/-- From a database that no client has open: where each message that is sent or received,
each session that is loaded, each pending answer and each start meets its condition, no
session loses its recency. -/
theorem recency_steady {start final : Desktop} {trace} (stopped : ∀ uid, start.session? uid = none)
    (run : Run step start trace final) (met : ∀ edge ∈ trace, edge.source.Meets edge.action) :
    ∀ edge ∈ trace, Steady edge.source edge.action edge.target := by
  have closed (uid : Int) : (start.state uid).listing = none := listing_eq_none.mpr (stopped uid)
  have sane : Sane start := ⟨fun uid => by simp [closed],fun uid here => absurd (closed uid) here,
    fun uid here => absurd (closed uid) here⟩
  intro edge member
  obtain ⟨before,front,reached⟩ := run.edge_reached edge member
  have middle := run_sane reached sane fun earlier among => met earlier (front.subset among)
  exact (step_steady middle (met edge member) (run.edge_step edge member)).2

def Site.synced : Desktop := { Site.desk with state := Function.update Site.desk.state 3 { last := .null } }

/-- A day: what was pending, a session that is opened, a message more and an answer to
it, and another pending answer before the next start. -/
def working : List Action := [.restart 1530000000000,
  .syncPending [Site.note "text/text" 1530000001000 1,Site.note "text/text" 1530000001000 2],
  .activateContact 2 1530000002000,.receiveText (Site.note "text/plain" 1530000003000 1),.createMessage,
  .finishInput (some { text := "ok", timestamp := some 1530000004000, sequence := 1, now := 1530000004000 }),
  .syncPending [Site.note "text/text" 1530000005000 1],.closeSession,.restart 1530000006000]

theorem recency_steady_working : ∃ trace final, Run step Site.synced trace final ∧
    trace.map Edge.action = working ∧ ∀ edge ∈ trace, Steady edge.source edge.action edge.target := by
  have done : (execute (guarded (fun d action => decide (d.Meets action)) step) working Site.synced).isSome := by
    decide +kernel
  obtain ⟨final,executed⟩ := Option.isSome_iff_exists.mp done
  obtain ⟨trace,run,labels⟩ := execute_run _ _ _ executed
  obtain ⟨run,met⟩ := run.of_guarded
  have stopped (uid : Int) : Site.synced.session? uid = none := by
    simp only [session?,Site.synced,Function.update_apply]
    split <;> rfl
  exact ⟨trace,final,run,labels,recency_steady stopped run fun edge member =>
    of_decide_eq_true (met edge member)⟩

def restarted : List Action := [.restart 1530000000000,
  .syncPending [Site.note "text/text" 1530000001000 1],.restart 1530000002000]

def Site.notice : Arrival :=
  let other := Site.note "text/text" 1530000003000 1
  { other with args := { other.args with sipFrom := "0" } }

theorem other_answer_clears : ¬∀ (start final : Desktop) (trace), (∀ uid, start.session? uid = none) →
    Run step start trace final → ∀ edge ∈ trace, Steady edge.source edge.action edge.target := by
  intro claim
  have cleared : (execute step restarted Site.desk).map (fun d =>
      ((d.state 2).last,((d.syncPending [Site.notice]).state 2).last,
        ((d.syncPending [Site.notice]).state 3).last)) =
      some (.date 1530000001000,.null,.date 1530000003000) := by
    decide +kernel
  obtain ⟨d,executed,columns⟩ := Option.map_eq_some_iff.mp cleared
  obtain ⟨dated,rest⟩ := Prod.mk.inj columns
  obtain ⟨null,-⟩ := Prod.mk.inj rest
  obtain ⟨trace,run,-⟩ := execute_run _ _ _ executed
  have steady := claim Site.desk _ _ (fun _ => rfl) (.next run (a := .syncPending [Site.notice]) rfl)
    ⟨d,.syncPending [Site.notice],d.syncPending [Site.notice]⟩ (by simp)
  exact (steady.kept 2 (by simp)).2 (by simp [dated]) null

end Runs

end SipWitch.Desktop
