import SipWitch.Sessions
import SipWitch.Delivery

/-! Messages that reach the client in any order and more than once, some in a pending
answer and some on their own. What is stored depends on the messages alone, and a
repetition is not seen. -/
namespace SipWitch.Desktop

open Transition

def MessageItem.stamp (item : MessageItem) : Int × Int := (item.dateTime,item.dateSequence)

theorem insertItem_perm (items : List MessageItem) (item : MessageItem) :
    (insertItem items item).Perm (item :: items) := by
  cases items with
  | nil => rfl
  | cons first rest =>
    simp only [insertItem]
    split
    · rfl
    · apply List.perm_middle.trans
      rw [List.take_append_drop]

theorem foldl_insertItem_perm (records items : List MessageItem) :
    (records.foldl insertItem items).Perm (records ++ items) := by
  induction records generalizing items with
  | nil => rfl
  | cons item rest ih =>
    have inserted := (insertItem_perm items item).append_left rest
    exact ((ih _).trans inserted).trans List.perm_middle

namespace ContactState

/-- The messages in memory, and whether these are all that have not expired. -/
def contents (s : ContactState) : Option (List MessageItem × Bool) :=
  s.session.map fun session => (session.messages,session.loaded)

variable {s s' : ContactState} {items : List MessageItem} {loaded : Bool}

theorem contents_congr (same : s'.uncounted = s.uncounted) : s'.contents = s.contents :=
  session_congr (fun _ _ => rfl) same

theorem contents_loaded (c : List MessageItem × Bool) (has : c ∈ s.contents) :
    c.2 = s.session.any SessionItem.loaded := by
  obtain ⟨session,here,rfl⟩ := Option.map_eq_some_iff.mp has
  rw [here]
  rfl

theorem contents_opened : s.opened.contents = some (s.contents.getD ([],false)) := by
  cases h : s.session <;> simp [contents,opened,h,SessionItem.create]

theorem contents_noteRecent (item : MessageItem) :
    (s.onSession (·.noteRecent item)).contents = s.contents :=
  noteRecent_session item fun _ _ _ => rfl

theorem contents_addMessage (item : MessageItem) :
    (s.addMessage item).contents = s.contents.map fun c => (insertItem c.1 item,c.2) := by
  rw [contents,addMessage_session (fun _ _ => rfl) (fun _ => rfl),contents,Option.map_map]
  rfl

theorem contents_foldl_add (records : List MessageItem) :
    (records.foldl add s).contents = s.contents.map fun c => (records.foldl insertItem c.1,c.2) := by
  induction records generalizing s with
  | nil => simp
  | cons item rest ih =>
    have added : (s.add item).contents = s.contents.map fun c => (insertItem c.1 item,c.2) := by
      rw [contents,add_session (fun _ _ => rfl) (fun _ => rfl),contents,Option.map_map]
      rfl
    rw [List.foldl_cons,ih,added,Option.map_map]
    rfl

theorem contents_load (records : List MessageItem) :
    (s.load records).contents = s.contents.map fun c => (records.foldl insertItem c.1,true) := by
  have marked (s' : ContactState) : (s'.onSession fun session =>
      { session with loaded := true }).contents = s'.contents.map fun c => (c.1,true) := by
    cases h : s'.session <;> simp [contents,onSession,h]
  have loaded := (marked (records.foldl add s)).trans (congrArg _ (contents_foldl_add records))
  rw [Option.map_map] at loaded
  rw [load]
  split <;> exact loaded

end ContactState

open ContactState

/-- The messages in memory are stored, once each, and none is in memory before they all are. -/
structure Neat (rows : Table MessageRow (Int × Int × Int) MessageRow.key) (uid : Int)
    (s : ContactState) : Prop where
  apart : ∀ c ∈ s.contents, (c.1.map MessageItem.stamp).Nodup
  stored : ∀ c ∈ s.contents, ∀ item ∈ c.1, ∃ row ∈ rows, row.key = (uid,item.stamp)
  unloaded : ∀ c ∈ s.contents, c.2 = false → c.1 = []

structure Tidy (d : Desktop) : Prop where
  neat : ∀ uid, Neat d.messages uid (d.state uid)
  active : ∀ uid, d.activeItem = some uid → ∃ items, (d.state uid).contents = some (items,true)

section Neat

variable {rows rows' : Table MessageRow (Int × Int × Int) MessageRow.key} {uid : Int} {s s' : ContactState}

theorem Neat.same (neat : Neat rows uid s) (same : s'.contents = s.contents)
    (grown : ∀ row ∈ rows, row ∈ rows') : Neat rows' uid s' where
  apart := same ▸ neat.apart
  stored := fun c has item member =>
    (neat.stored c (same ▸ has) item member).imp fun _ => .imp_left (grown _)
  unloaded := same ▸ neat.unloaded

theorem Neat.opened (neat : Neat rows uid s) : Neat rows uid s.opened := by
  cases h : s.contents with
  | some c => exact neat.same (by rw [contents_opened,h,Option.getD_some]) fun _ => id
  | none =>
    have fresh : s.opened.contents = some ([],false) := by rw [contents_opened,h,Option.getD_none]
    exact ⟨by simp [fresh],by simp [fresh],by simp [fresh]⟩

/-- A message that is not stored yet is not in memory either. -/
theorem Neat.addMessage (neat : Neat rows uid s) (item : MessageItem)
    (fresh : ∀ row ∈ rows, row.key ≠ (uid,item.stamp)) (shown : ∀ c ∈ s.contents, c.2 = true)
    (grown : ∀ row ∈ rows, row ∈ rows') (here : ∃ row ∈ rows', row.key = (uid,item.stamp)) :
    Neat rows' uid (s.addMessage item) := by
  refine ⟨fun c has => ?_,fun c has => ?_,fun c has unloaded => ?_⟩
  all_goals
    rw [contents_addMessage] at has
    obtain ⟨old,before,rfl⟩ := Option.mem_map.mp has
  · rw [((insertItem_perm old.1 item).map _).nodup_iff,List.map_cons,List.nodup_cons]
    refine ⟨fun taken => ?_,neat.apart old before⟩
    obtain ⟨other,member,same⟩ := List.mem_map.mp taken
    obtain ⟨row,stored,key⟩ := neat.stored old before other member
    exact fresh row stored (same ▸ key)
  · intro other member
    rcases List.mem_cons.mp ((insertItem_perm old.1 item).subset member) with rfl | earlier
    · exact here
    · exact (neat.stored old before other earlier).imp fun _ => .imp_left (grown _)
  · have := shown old before
    exact absurd unloaded (by simp [this])

/-- Nothing is in memory before the records are, and these are of different messages. -/
theorem Neat.load (neat : Neat rows uid s) {records : List MessageItem}
    (apart : (records.map MessageItem.stamp).Nodup) (unloaded : ∀ c ∈ s.contents, c.2 = false)
    (stored : ∀ item ∈ records, ∃ row ∈ rows, row.key = (uid,item.stamp)) :
    Neat rows uid (s.load records) := by
  have filled : ∀ c ∈ (s.load records).contents, c.1.Perm records ∧ c.2 = true := by
    intro c has
    rw [contents_load] at has
    obtain ⟨old,before,rfl⟩ := Option.mem_map.mp has
    have empty := neat.unloaded old before (unloaded old before)
    exact ⟨by simpa [empty] using foldl_insertItem_perm records [],rfl⟩
  refine ⟨fun c has => ?_,fun c has item member => ?_,fun c has idle => ?_⟩
  · exact ((filled c has).1.map _).nodup_iff.mpr apart
  · exact stored item ((filled c has).1.subset member)
  · exact absurd idle (by simp [(filled c has).2])

end Neat

section Records

variable {d : Desktop} {uid now : Int}

theorem record_stamp {row : MessageRow} {item : MessageItem} (valid : d.record row = some item) :
    item.stamp = (row.posted,row.seqid) := by
  rw [record] at valid
  split at valid
  · rw [← Option.some.inj valid]
    rfl
  · contradiction

theorem records_stored {item : MessageItem} (member : item ∈ d.records uid now) :
    ∃ row ∈ d.messages, row.key = (uid,item.stamp) := by
  obtain ⟨row,known,valid⟩ := List.mem_filterMap.mp member
  have here := (List.mem_filter.mp ((List.mem_insertionSort _).mp known)).1
  obtain ⟨stored,sid⟩ := Table.mem_select.mp here
  refine ⟨row,stored,?_⟩
  rw [MessageRow.key,record_stamp valid,of_decide_eq_true sid]

theorem records_apart : ((d.records uid now).map MessageItem.stamp).Nodup := by
  have keys : (((d.stored uid).filter fun row => now < row.expires).map MessageRow.key).Nodup :=
    d.messages.distinct.sublist ((List.filter_sublist.trans List.filter_sublist).map _)
  have sorted := (((List.perm_insertionSort later _).map MessageRow.key).nodup_iff).mpr keys
  rw [List.Nodup,List.pairwise_map,records,List.pairwise_filterMap]
  refine (List.pairwise_map.mp sorted).imp_of_mem fun {row row'} member member' differ item valid item' valid' same => ?_
  have sid (row) (member : row ∈ ((d.stored uid).filter fun row => now < row.expires).insertionSort later) :
      row.sid = uid := by
    have here := (List.mem_filter.mp ((List.mem_insertionSort _).mp member)).1
    exact of_decide_eq_true (Table.mem_select.mp here).2
  rw [record_stamp valid,record_stamp valid'] at same
  apply differ
  rw [MessageRow.key,MessageRow.key,sid row member,sid row' member',same]

end Records

section Tidy

variable {d d' base : Desktop} {uid now : Int} {s : ContactState}

/-- What a step that touches one session keeps. -/
theorem Tidy.touched (tidy : Tidy d) (touched : Touched base d' uid s)
    (state : base.state = d.state) (grown : ∀ row ∈ d.messages, row ∈ base.messages)
    (neat : Neat base.messages uid s)
    (active : ∀ other, base.activeItem = some other → other ≠ uid → d.activeItem = some other)
    (here : base.activeItem = some uid → ∃ items, s.contents = some (items,true)) : Tidy d' := by
  refine ⟨fun other => ?_,fun other chosen => ?_⟩
  · rw [touched.messages]
    by_cases same : other = uid
    · subst same
      exact neat.same (contents_congr touched.state) fun _ => id
    · have kept := contents_congr (touched.others other same)
      rw [state] at kept
      exact (tidy.neat other).same kept grown
  · rw [touched.activeItem] at chosen
    by_cases same : other = uid
    · subst same
      rw [contents_congr touched.state]
      exact here chosen
    · rw [contents_congr (touched.others other same),state]
      exact tidy.active other (active other chosen same)

theorem Tidy.opened (tidy : Tidy d) : Tidy (d.modify uid ContactState.opened) := by
  apply tidy.touched (.modify ContactState.opened) rfl (fun _ => id) (tidy.neat uid).opened fun _ chosen _ => chosen
  intro chosen
  obtain ⟨items,has⟩ := tidy.active uid chosen
  exact ⟨items,by rw [contents_opened,has,Option.getD_some]⟩

theorem Tidy.receiveText (tidy : Tidy d) (arrival : Arrival) : Tidy (d.receiveText arrival) := by
  cases found : d.delivery arrival with
  | none => rwa [receiveText_unknown found]
  | some delivery =>
  obtain ⟨uid,item⟩ := delivery
  have opened := (tidy.neat uid).opened
  have noted := contents_noteRecent (s := (d.state uid).opened) item
  have active (chosen : d.activeItem = some uid) :
      ∃ items, ((d.state uid).opened.onSession (·.noteRecent item)).contents = some (items,true) := by
    obtain ⟨items,has⟩ := tidy.active uid chosen
    exact ⟨items,by rw [noted,contents_opened,has,Option.getD_some]⟩
  by_cases admitted : d.messages.Admits (rowOf uid item)
  · have grown : ∀ row ∈ d.messages, row ∈ d.messages.insert (rowOf uid item) :=
      fun _ before => Table.mem_insert.mpr (.inl before)
    apply tidy.touched (receiveText_admitted found admitted) rfl grown
    · split
      · rename_i shown
        apply (opened.same noted fun _ => id).addMessage { item with saved := true }
          (Table.admits_iff.mp admitted) _ grown ⟨_,Table.mem_insert.mpr (.inr ⟨admitted,rfl⟩),rfl⟩
        intro c has
        rcases shown with loaded | chosen
        · exact (contents_loaded c has).trans loaded
        · obtain ⟨items,filled⟩ := active chosen
          rw [filled] at has
          exact congrArg Prod.snd (Option.some.inj has).symm
      · exact opened.same noted grown
    · exact fun _ chosen _ => chosen
    · intro chosen
      obtain ⟨items,has⟩ := active chosen
      rw [if_pos (.inr chosen),contents_addMessage,has]
      exact ⟨_,rfl⟩
  · rw [receiveText_refused found admitted]
    exact tidy.touched (.modify _) rfl (fun _ => id) (opened.same noted fun _ => id)
      (fun _ chosen _ => chosen) active

theorem Tidy.activateSession (tidy : Tidy d) (open' : (d.state uid).contents ≠ none) :
    Tidy (d.activateSession uid now) := by
  have only : ∀ other, some uid = some other → other ≠ uid → d.activeItem = some other :=
    fun other chosen apart => absurd (Option.some.inj chosen).symm apart
  obtain ⟨c,has⟩ := Option.ne_none_iff_exists'.mp open'
  apply tidy.touched (activateSession_touched d uid now) rfl (fun _ => id) ?_ only
  · intro _
    split
    · rename_i loaded
      exact ⟨c.1,has.trans (congrArg some (Prod.ext rfl ((contents_loaded c has).trans loaded)))⟩
    · rw [contents_load,has]
      exact ⟨_,rfl⟩
  · split
    · exact tidy.neat uid
    · rename_i unloaded
      apply (tidy.neat uid).load records_apart
      · intro c has
        exact (contents_loaded c has).trans (Bool.eq_false_iff.mpr unloaded)
      · exact fun item member => records_stored member

theorem Tidy.closeSession (tidy : Tidy d) : Tidy d.closeSession := by
  rw [Desktop.closeSession]
  split
  · exact tidy
  · rename_i uid chosen
    split
    · apply tidy.touched (close_touched _) rfl (fun _ => id)
      · exact ⟨by simp [contents,ContactState.close],by simp [contents,ContactState.close],
          by simp [contents,ContactState.close]⟩
      · exact fun _ none => nomatch none
      · exact fun none => nomatch none
    · exact ⟨tidy.neat,fun _ none => nomatch none⟩

theorem Tidy.clearSessions (tidy : Tidy d) : Tidy d.clearSessions := by
  refine ⟨fun uid => ?_,fun _ none => nomatch none⟩
  have cleared : (d.clearSessions.state uid).contents = (d.state uid).contents ∨
      (d.clearSessions.state uid).contents = some ([],false) := by
    cases h : (d.state uid).session with
    | none => exact .inl (by simp [Desktop.clearSessions,contents,onSession,h])
    | some session =>
      cases listed : session.listed <;>
        simp [Desktop.clearSessions,contents,onSession,h,listed,SessionItem.clearMessages]
  rcases cleared with same | empty
  · exact (tidy.neat uid).same same fun _ => id
  · exact ⟨by simp [empty],by simp [empty],by simp [empty]⟩

theorem Tidy.writeRecency (tidy : Tidy d) : Tidy d.writeRecency := by
  have same (uid : Int) : (d.writeRecency.state uid).contents = (d.state uid).contents := by
    simp only [Desktop.writeRecency,contents]
    split
    · split <;> simp_all
    · rfl
  exact ⟨fun uid => (tidy.neat uid).same (same uid) fun _ => id,fun uid chosen => same uid ▸ tidy.active uid chosen⟩

theorem Tidy.syncPending (tidy : Tidy d) (batch : List Arrival) : Tidy (d.syncPending batch) := by
  apply Tidy.writeRecency
  induction batch generalizing d with
  | nil => exact tidy
  | cons arrival rest ih => exact ih (tidy.receiveText arrival)

theorem tidy_restart (d : Desktop) : Tidy (d.restart now) := by
  refine ⟨fun uid => ?_,fun _ none => nomatch none⟩
  have fresh : ∀ c ∈ ((d.restart now).state uid).contents, c = ([],false) := by
    intro c has
    simp only [restart,contents,Option.map_map] at has
    obtain ⟨_,-,rfl⟩ := Option.map_eq_some_iff.mp has
    rfl
  exact ⟨fun c has => by simp [fresh c has],fun c has => by simp [fresh c has],
    fun c has _ => by simp [fresh c has]⟩

end Tidy

/-- The step neither sends a message nor starts the program. -/
def Action.Receiving : Action → Prop
  | .finishInput _ => False
  | .restart _ => False
  | _ => True

instance : DecidablePred Action.Receiving := fun action => by
  cases action <;> unfold Action.Receiving <;> infer_instance

def Action.arrivals : Action → List Arrival
  | .receiveText arrival => [arrival]
  | .syncPending batch => batch
  | _ => []

/-- What has reached `receiveText` in a run, in its order. -/
def heard (trace : List (Edge Desktop Action)) : List Arrival :=
  (trace.map Edge.action).flatMap Action.arrivals

theorem step_tidy {d next : Desktop} {action : Action} (tidy : Tidy d) (receiving : action.Receiving)
    (moved : step d action = some next) : Tidy next := by
  cases action <;> simp only [step] at moved
  case receiveText arrival =>
    exact Option.some.inj moved ▸ tidy.receiveText arrival
  case syncPending batch =>
    exact Option.some.inj moved ▸ tidy.syncPending batch
  case activateContact uid now =>
    split at moved
    · rw [← Option.some.inj moved,activateContact]
      split
      · exact ⟨tidy.neat,fun _ none => nomatch none⟩
      · apply tidy.opened.activateSession
        rw [state_modify,contents_opened]
        exact Option.some_ne_none _
    · contradiction
  case selectSession uid now =>
    split at moved
    · rename_i listed
      rw [← Option.some.inj moved]
      apply tidy.activateSession
      intro none
      rw [session?,Option.map_eq_none_iff.mp none] at listed
      contradiction
    · contradiction
  case activateSelf =>
    rw [← Option.some.inj moved]
    exact ⟨tidy.neat,fun _ none => nomatch none⟩
  case closeSession =>
    exact Option.some.inj moved ▸ tidy.closeSession
  case clearSessions =>
    exact Option.some.inj moved ▸ tidy.clearSessions
  case createMessage =>
    split at moved
    · contradiction
    · rw [← Option.some.inj moved]
      exact ⟨tidy.neat,tidy.active⟩
  case finishInput | restart => exact receiving.elim

theorem run_tidy {d : Desktop} {now : Int} {trace final} (run : Run step (d.restart now) trace final)
    (receiving : ∀ action ∈ trace.map Edge.action, action.Receiving) : Tidy final :=
  run.invariant_of Tidy (fun _ action => action.Receiving) (fun _ _ _ => step_tidy) (tidy_restart d)
    fun _ member => receiving _ (List.mem_map_of_mem member)

def messageRow (d : Desktop) (args : TextArguments) : Option MessageRow :=
  (d.delivery { args, now := 0 }).map fun delivery => rowOf delivery.1 delivery.2

section Rows

variable {d d' d'' : Desktop} {uid : Int} {s : ContactState}

theorem SameBook.messageRow (book : SameBook d d') : d'.messageRow = d.messageRow := by
  funext args
  rw [Desktop.messageRow,Desktop.messageRow,book.delivery]

theorem delivery_dated {arrival : Arrival} (dated : arrival.args.timestamp ≠ none) :
    d.delivery arrival = d.delivery { args := arrival.args, now := 0 } := by
  obtain ⟨time,known⟩ := Option.ne_none_iff_exists'.mp dated
  simp only [delivery,received,known,Option.getD_some]

theorem receiveText_rows {arrival : Arrival} (dated : arrival.args.timestamp ≠ none) :
    (d.receiveText arrival).messages =
      (d.messageRow arrival.args).toList.foldl Table.insert d.messages := by
  rw [messageRow,← delivery_dated dated]
  cases found : d.delivery arrival with
  | none =>
    rw [receiveText_unknown found]
    rfl
  | some delivery => exact receiveText_messages found

theorem foldl_receiveText_rows (batch : List Arrival)
    (dated : ∀ arrival ∈ batch, arrival.args.timestamp ≠ none) :
    SameBook d (batch.foldl receiveText d) ∧ (batch.foldl receiveText d).messages =
      (batch.filterMap fun arrival => d.messageRow arrival.args).foldl Table.insert d.messages := by
  induction batch generalizing d with
  | nil => exact ⟨⟨rfl,rfl,rfl⟩,rfl⟩
  | cons arrival rest ih =>
    have book := receiveText_book d arrival
    have messages := receiveText_rows (d := d) (dated arrival List.mem_cons_self)
    obtain ⟨later,rows⟩ := ih (d := d.receiveText arrival)
      fun other member => dated other (List.mem_cons_of_mem _ member)
    refine ⟨book.trans later,?_⟩
    rw [List.foldl_cons,rows,messages,book.messageRow,← List.foldl_append]
    cases h : d.messageRow arrival.args <;> simp [h]

theorem step_rows {action : Action} {next : Desktop} (receiving : action.Receiving)
    (dated : ∀ arrival ∈ action.arrivals, arrival.args.timestamp ≠ none)
    (moved : step d action = some next) :
    SameBook d next ∧ next.messages =
      (action.arrivals.filterMap fun arrival => d.messageRow arrival.args).foldl Table.insert d.messages := by
  cases action <;> simp only [step] at moved
  case receiveText arrival =>
    have received := foldl_receiveText_rows (d := d) [arrival] dated
    exact Option.some.inj moved ▸ received
  case syncPending batch =>
    have received := foldl_receiveText_rows (d := d) batch dated
    rw [← Option.some.inj moved]
    exact ⟨⟨received.1.contacts,received.1.me,received.1.expiration⟩,received.2⟩
  case activateContact uid now =>
    split at moved
    · rw [← Option.some.inj moved,activateContact]
      split
      · exact ⟨⟨rfl,rfl,rfl⟩,rfl⟩
      · have touched := activateSession_touched (d.modify uid opened) uid now
        exact ⟨⟨touched.contacts,touched.me,touched.expiration⟩,touched.messages⟩
    · contradiction
  case selectSession uid now =>
    split at moved
    · have touched := activateSession_touched d uid now
      rw [← Option.some.inj moved]
      exact ⟨⟨touched.contacts,touched.me,touched.expiration⟩,touched.messages⟩
    · contradiction
  case closeSession =>
    rw [← Option.some.inj moved,closeSession]
    split
    · exact ⟨⟨rfl,rfl,rfl⟩,rfl⟩
    · split <;> exact ⟨⟨rfl,rfl,rfl⟩,rfl⟩
  case createMessage =>
    split at moved
    · contradiction
    · exact Option.some.inj moved ▸ ⟨⟨rfl,rfl,rfl⟩,rfl⟩
  case activateSelf | clearSessions => exact Option.some.inj moved ▸ ⟨⟨rfl,rfl,rfl⟩,rfl⟩
  case finishInput | restart => exact receiving.elim

/-- The rows are those of what was heard, inserted in the order in which it was. -/
theorem run_rows {start final : Desktop} {trace} (run : Run step start trace final)
    (receiving : ∀ action ∈ trace.map Edge.action, action.Receiving)
    (dated : ∀ arrival ∈ heard trace, arrival.args.timestamp ≠ none) :
    SameBook start final ∧ final.messages =
      ((heard trace).filterMap fun arrival => start.messageRow arrival.args).foldl Table.insert
        start.messages := by
  induction run with
  | start => exact ⟨⟨rfl,rfl,rfl⟩,rfl⟩
  | @next trace middle action final _ moved ih =>
    simp only [heard,List.map_append,List.map_cons,List.map_nil,List.flatMap_append,
      List.flatMap_cons,List.flatMap_nil,List.append_nil,List.mem_append,List.mem_singleton] at receiving dated ⊢
    obtain ⟨book,rows⟩ := ih (fun earlier member => receiving earlier (.inl member))
      fun arrival member => dated arrival (.inl member)
    obtain ⟨same,last⟩ := step_rows (receiving action (.inr rfl))
      (fun arrival member => dated arrival (.inr member)) moved
    refine ⟨book.trans same,?_⟩
    rw [last,book.messageRow,rows,List.filterMap_append,List.foldl_append]
    rfl

end Rows

def items (d : Desktop) (uid : Int) : List MessageItem :=
  ((d.session? uid).map SessionItem.messages).getD []

def unread (d : Desktop) (uid : Int) : Nat := ((d.session? uid).map SessionItem.unreadCount).getD 0

/-- Where the message is stored: session, date and sequence. -/
def placeOf (d : Desktop) (args : TextArguments) : Option (Int × Int × Int) :=
  (d.messageRow args).map MessageRow.key

theorem messageRow_congr {d : Desktop} {a b : TextArguments} (same : SameText a b) :
    d.messageRow a = d.messageRow b := by
  simp only [messageRow,delivery,received,same.sipFrom,same.sipTo,same.text,same.timestamp,
    same.sequence,same.subject,same.kind]

/-- A message that is stored is not seen when it comes again. -/
theorem receiveText_again {d : Desktop} {arrival : Arrival} {row : MessageRow}
    (dated : arrival.args.timestamp ≠ none) (found : d.messageRow arrival.args = some row)
    (stored : ∃ old ∈ d.messages, old.key = row.key) (uid : Int) :
    (d.receiveText arrival).items uid = d.items uid ∧
      (d.receiveText arrival).unread uid = d.unread uid ∧
      (d.receiveText arrival).totalUnread = d.totalUnread := by
  rw [messageRow,← delivery_dated dated] at found
  obtain ⟨⟨other,item⟩,delivered,rfl⟩ := Option.map_eq_some_iff.mp found
  obtain ⟨old,known,same⟩ := stored
  rw [receiveText_refused delivered fun admitted => Table.admits_iff.mp admitted old known same]
  refine ⟨?_,?_,rfl⟩
  all_goals
    by_cases here : uid = other
    · subst here
      simp only [items,unread,session?,state_modify]
      rw [noteRecent_session _ fun _ _ _ => rfl]
      cases h : (d.state uid).session <;> simp [ContactState.opened,h,SessionItem.create]
    · simp only [items,unread,session?,state_modify_ne here]

theorem messageRow_known {d : Desktop} {args : TextArguments} (sender : d.find args.sipFrom ≠ none)
    (recipient : d.find args.sipTo ≠ none) : ∃ row, d.messageRow args = some row := by
  obtain ⟨sender,source⟩ := Option.ne_none_iff_exists'.mp sender
  obtain ⟨recipient,target⟩ := Option.ne_none_iff_exists'.mp recipient
  exact ⟨_,by rw [messageRow,delivery,source,target]; rfl⟩

def Site.desk : Desktop where
  contacts := ⟨[{ uid := 1, extension := 101, display := "test1" },
    { uid := 2, extension := 102, display := "test2" },
    { uid := 3, extension := 0, type := .system, display := "Operators" }],by decide⟩
  me := 101

def Site.note (type : UString) (time sequence : Int) : Arrival where
  args := {
    sipFrom := "102"
    sipTo := "101"
    text := "hi"
    timestamp := some time
    sequence
    subject := "None"
    type }
  now := time

/-- Two messages of one second: the later first and repeated, the other before and after
its session is opened, and both once more. -/
def shuffled : List Action := [.receiveText (Site.note "text/plain" 1530000000000 2),
  .syncPending [Site.note "text/text" 1530000000000 2,Site.note "text/text" 1530000000000 1],
  .activateContact 2 1530000001000,.receiveText (Site.note "text/plain" 1530000000000 1),.clearSessions,
  .syncPending [Site.note "text/text" 1530000000000 1,Site.note "text/text" 1530000000000 2]]

instance (a b : TextArguments) : Decidable (SameText a b) :=
  decidable_of_iff (a.sipFrom = b.sipFrom ∧ a.sipTo = b.sipTo ∧ a.text = b.text ∧
      a.timestamp = b.timestamp ∧ a.sequence = b.sequence ∧ a.subject = b.subject ∧ a.isAdmin = b.isAdmin)
    ⟨fun ⟨sender,recipient,text,time,count,subject,kind⟩ =>
      ⟨sender,recipient,text,time,count,subject,kind⟩,
    fun same => ⟨same.sipFrom,same.sipTo,same.text,same.timestamp,same.sequence,same.subject,same.kind⟩⟩

end SipWitch.Desktop
