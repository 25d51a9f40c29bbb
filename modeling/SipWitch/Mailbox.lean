import SipWitch.Recovery
import SipWitch.Convergence

/-! From the outbox of the server to the messages of a device. The listener of the device
answers a transmission before the desktop comes to its text; a pending answer is acknowledged
when the desktop is through with it. The steps of both ends are taken in any order. -/
namespace SipWitch

structure Mailbox where
  exchange : Exchange
  device : Desktop
  /-- The texts, with their numbers, that were answered and wait for the desktop. -/
  posted : List (Int × TextArguments) := []

namespace Mailbox

open Transition

inductive Action where
  /-- What the device gets by it, it gets at that time. -/
  | exchange (a : Exchange.Action) (now : Int)
  | receiveText (now : Int)
  /-- What a user does with the sessions of the device, while it is not started again. -/
  | device (a : Desktop.Action)

def ofUser : Desktop.Action → Bool
  | .receiveText _ | .syncPending _ | .restart _ => false
  | _ => true

section Machine

variable (lib : Libraries) (listener : Listener) (endpoint : Int) (s : Mailbox)

/-- A transmission as the listener has it, unless it is turned down. -/
def accepts (sent : SipMessage) : Option TextArguments :=
  (lib.transmit sent).bind fun msg => (listener.receiveMessage lib msg).toOption

/-- The entries of an answer; each row was put before the ones already listed. -/
def listed (rows : List MessageRow) (now : Int) : List Desktop.Arrival :=
  rows.reverse.filterMap fun row =>
    (lib.syncPending (Database.pendingEntry row)).map fun args => { args, now }

/-- The device answers with 200 what its listener accepts, and nothing else. -/
def answer (sent : SipMessage) (status : Int) : Option (List (Int × TextArguments)) :=
  if UString.toLongLong sent.ep = endpoint then
    match accepts lib listener sent with
    | some args => if status = 200 then some [(UString.toLongLong sent.mid,args)] else none
    | none => if status = 200 then none else some []
  else some []

def step (s : Mailbox) : Action → Option Mailbox
  | .exchange a now => do
    let exchange ← s.exchange.step a
    match a with
    | .answer i status =>
      match s.exchange.flights[i]? with
      | some (.message sent) =>
        (answer lib listener endpoint sent status).map fun new =>
          { s with exchange, posted := s.posted ++ new }
      | _ => none
    | .syncPending i =>
      match s.exchange.flights[i]? with
      | some (.answer ep rows) =>
        if ep = endpoint then some { s with exchange, device := s.device.syncPending (listed lib rows now) }
        else some { s with exchange }
      | _ => none
    | _ => some { s with exchange }
  | .receiveText now =>
    match s.posted with
    | [] => none
    | (_,args) :: rest => some { s with device := s.device.receiveText { args, now }, posted := rest }
  | .device a =>
    if ofUser a then (s.device.step a).map fun device => { s with device } else none

abbrev Run := Transition.Run (step lib listener endpoint)

inductive Fate (d : Desktop) (args : TextArguments) : Prop where
  | stored (now uid : Int) (item : Desktop.MessageItem) (found : d.delivery { args, now } = some (uid,item))
      (member : Desktop.rowOf uid item ∈ d.messages)
  /-- Another message of its session has its time and number; the table refused the row. -/
  | duplicate (now uid : Int) (item : Desktop.MessageItem) (found : d.delivery { args, now } = some (uid,item))
      (row : Desktop.MessageRow) (member : row ∈ d.messages) (other : row ≠ Desktop.rowOf uid item)
      (same : row.key = (Desktop.rowOf uid item).key)
  /-- The sender or the recipient is not in the phonebook. -/
  | lost (unknown : d.find args.sipFrom = none ∨ d.find args.sipTo = none)

inductive RowFate (d : Desktop) (row : MessageRow) : Prop where
  /-- It is neither a text nor an administrative message. -/
  | skipped (unread : lib.syncPending (Database.pendingEntry row) = none)
  | read (args : TextArguments) (read : lib.syncPending (Database.pendingEntry row) = some args)
      (fate : Fate d args)

end Machine

section Device

variable {d d' : Desktop} {arrival : Desktop.Arrival}

/-- Nothing that is stored is lost. -/
structure Grown (d d' : Desktop) : Prop where
  book : d.SameBook d'
  messages : ∀ row ∈ d.messages, row ∈ d'.messages

theorem Grown.refl (d : Desktop) : Grown d d := ⟨⟨rfl,rfl,rfl⟩,fun _ => id⟩

theorem Grown.trans {d'' : Desktop} (first : Grown d d') (second : Grown d' d'') : Grown d d'' :=
  ⟨first.book.trans second.book,fun row member => second.messages row (first.messages row member)⟩

theorem Fate.grown {args : TextArguments} (fate : Fate d args) (grown : Grown d d') : Fate d' args := by
  cases fate with
  | stored now uid item found member =>
    exact .stored now uid item (grown.book.delivery ▸ found) (grown.messages _ member)
  | duplicate now uid item found row member other same =>
    exact .duplicate now uid item (grown.book.delivery ▸ found) row (grown.messages row member) other same
  | lost unknown => exact .lost (grown.book.find ▸ unknown)

theorem receiveText_grown (d : Desktop) (arrival : Desktop.Arrival) : Grown d (d.receiveText arrival) := by
  refine ⟨Desktop.receiveText_book d arrival,fun row member => ?_⟩
  rcases Option.eq_none_or_eq_some (d.delivery arrival) with unknown | ⟨⟨uid,item⟩,found⟩
  · rwa [Desktop.receiveText_unknown unknown]
  · rw [Desktop.receiveText_messages found]
    exact Table.mem_insert.mpr (.inl member)

theorem unknown_of_delivery (undelivered : d.delivery arrival = none) :
    d.find arrival.args.sipFrom = none ∨ d.find arrival.args.sipTo = none := by
  rcases Option.eq_none_or_eq_some (d.find arrival.args.sipFrom) with unknown | ⟨sender,known⟩
  · exact .inl unknown
  rcases Option.eq_none_or_eq_some (d.find arrival.args.sipTo) with unknown | ⟨recipient,known'⟩
  · exact .inr unknown
  · simp [Desktop.delivery,known,known'] at undelivered

theorem receiveText_fate (d : Desktop) (arrival : Desktop.Arrival) : Fate (d.receiveText arrival) arrival.args := by
  have book := Desktop.receiveText_book d arrival
  rcases Option.eq_none_or_eq_some (d.delivery arrival) with undelivered | ⟨⟨uid,item⟩,found⟩
  · exact .lost (book.find ▸ unknown_of_delivery undelivered)
  have messages := Desktop.receiveText_messages found
  rw [← book.delivery] at found
  by_cases admitted : d.messages.Admits (Desktop.rowOf uid item)
  · exact .stored arrival.now uid item found (messages ▸ Table.mem_insert.mpr (.inr ⟨admitted,rfl⟩))
  -- a row of that key is there, the same one or another
  obtain ⟨row,member,same⟩ := List.mem_map.mp (not_not.mp admitted)
  have still : row ∈ (d.receiveText arrival).messages := messages ▸ Table.mem_insert.mpr (.inl member)
  by_cases it : row = Desktop.rowOf uid item
  · exact .stored arrival.now uid item found (it ▸ still)
  · exact .duplicate arrival.now uid item found row still it same

theorem foldl_fates (batch : List Desktop.Arrival) (d : Desktop) :
    Grown d (batch.foldl Desktop.receiveText d) ∧
      ∀ arrival ∈ batch, Fate (batch.foldl Desktop.receiveText d) arrival.args := by
  induction batch generalizing d with
  | nil => exact ⟨.refl d,by simp⟩
  | cons arrival rest ih =>
    obtain ⟨grown,fates⟩ := ih (d.receiveText arrival)
    refine ⟨(receiveText_grown d arrival).trans grown,fun other member => ?_⟩
    rcases List.mem_cons.mp member with rfl | later
    · exact (receiveText_fate d other).grown grown
    · exact fates other later

theorem syncPending_fates (batch : List Desktop.Arrival) (d : Desktop) :
    Grown d (d.syncPending batch) ∧ ∀ arrival ∈ batch, Fate (d.syncPending batch) arrival.args := by
  obtain ⟨grown,fates⟩ := foldl_fates batch d
  have written : Grown (batch.foldl Desktop.receiveText d) (d.syncPending batch) := ⟨⟨rfl,rfl,rfl⟩,fun _ => id⟩
  exact ⟨grown.trans written,fun arrival member => (fates arrival member).grown written⟩

theorem finishInput_grown (d : Desktop) (sent : Option Desktop.Sent) : Grown d (d.finishInput sent) := by
  rcases Option.eq_none_or_eq_some d.inputSession with lost | ⟨uid,waiting⟩
  · rw [Desktop.finishInput_lost lost]
    exact ⟨⟨rfl,rfl,rfl⟩,fun _ => id⟩
  cases sent with
  | none =>
    rw [Desktop.finishInput_none]
    exact ⟨⟨rfl,rfl,rfl⟩,fun _ => id⟩
  | some sent =>
    have touched := Desktop.finishInput_touched waiting sent
    refine ⟨⟨touched.contacts,touched.me,touched.expiration⟩,fun row member => ?_⟩
    rw [touched.messages]
    exact Table.mem_insert.mpr (.inl member)

theorem receiving_grown {a : Desktop.Action} (receiving : a.Receiving) (silent : a.arrivals = [])
    (moved : d.step a = some d') : Grown d d' := by
  obtain ⟨book,messages⟩ := Desktop.step_rows receiving (by simp [silent]) moved
  rw [silent] at messages
  exact ⟨book,fun row member => messages ▸ member⟩

theorem device_grown {a : Desktop.Action} (user : ofUser a) (moved : d.step a = some d') : Grown d d' := by
  cases a with
  | finishInput sent => exact Option.some.inj moved ▸ finishInput_grown d sent
  | receiveText | syncPending | restart => contradiction
  | activateContact | selectSession | activateSelf | closeSession | clearSessions | createMessage =>
    refine receiving_grown ?_ rfl moved
    trivial

theorem listed_fate {lib : Libraries} {rows : List MessageRow} {now : Int} {row : MessageRow} (member : row ∈ rows)
    (fates : ∀ arrival ∈ listed lib rows now, Fate d arrival.args) : RowFate lib d row := by
  rcases Option.eq_none_or_eq_some (lib.syncPending (Database.pendingEntry row)) with unread | ⟨args,read⟩
  · exact .skipped unread
  refine .read args read (fates { args, now } (List.mem_filterMap.mpr ⟨row,List.mem_reverse.mpr member,?_⟩))
  rw [read]
  rfl

end Device

section Server

variable {h next : History} {a : History.Action} {row : MessageRow}

theorem serve_messages {request : OutboxRequest} {rows : List OutboxRow} (served : h.serve request rows = some next) :
    next.database.tables.messages = h.database.tables.messages := by
  cases request with
  | copy source target =>
    simp only [History.serve] at served
    split at served
    · obtain rfl := Option.some.inj served
      simp [Database.copyOutbox,Database.runQuery]
    · contradiction
  | sync endpoint =>
    obtain rfl := Option.some.inj served
    rfl

theorem findEndpoint_messages (d : Database) (ev : Event) :
    (Authorize.findEndpoint d ev).tables.messages = d.tables.messages := by
  rcases History.findEndpoint_boxes d ev with ⟨tables,-⟩ | ⟨-,tables,-⟩ | ⟨-,-,tables,-⟩ <;> simp [tables]

theorem stored_messages {d after : Database} {message : MessageRow} {data : MessageData} {boxes : List (Int × Int)}
    (stored : Database.Stored d after message data boxes) (member : row ∈ d.tables.messages) :
    row ∈ after.tables.messages := by
  obtain ⟨ready,rfl,-,tables,-,-⟩ := stored
  rw [Database.foldl_messages,tables,Tables.insertMessage]
  exact Serial.mem_insert.mpr (.inl member)

theorem store_messages (message : Composed) (sendList : List Int) (d : Database) (member : row ∈ d.tables.messages) :
    row ∈ (message.store d sendList).tables.messages := by
  cases message with
  | event ev sender =>
    by_cases none : sendList = []
    · simp only [Composed.store,Database.storeLocal,if_pos none]
      split <;> exact member
    · exact stored_messages (Database.storeLocal_stored d ev sender sendList none) member
  | admin ev recipient text sender display expires =>
    exact stored_messages (Database.storeAdmin_stored d ev recipient text sender display expires sendList) member

/-- A message that is stored at the server stays as it is. -/
theorem history_messages (only : Exchange.local_ a = true) (moved : h.step a = some next)
    (member : row ∈ h.database.tables.messages) : row ∈ next.database.tables.messages := by
  cases a with
  | findEndpoint ev rows =>
    have found := findEndpoint_messages h.database ev
    simp only [History.step] at moved
    split at moved
    · obtain rfl := Option.some.inj moved
      exact found ▸ member
    · split at moved
      · contradiction
      · obtain rfl := Option.some.inj moved
        exact found ▸ member
      · rw [serve_messages moved]
        exact found ▸ member
  | outbox rows =>
    simp only [History.step] at moved
    split at moved
    · rw [serve_messages moved]
      exact member
    · contradiction
  | localMessage ev =>
    obtain ⟨-,rfl⟩ := History.free_some moved
    simp only [History.begin]
    split
    · exact member
    · split <;> exact member
  | adminMessage ev recipient text sender display expires =>
    obtain ⟨-,rfl⟩ := History.free_some moved
    exact member
  | query =>
    simp only [History.step] at moved
    split at moved
    · obtain rfl := Option.some.inj moved
      exact member
    · contradiction
  | store =>
    simp only [History.step] at moved
    split at moved
    · obtain rfl := Option.some.inj moved
      exact store_messages _ _ _ member
    · contradiction
  | messageResponse | sendPending | changePending | removeDevice | cleanupMessages => contradiction

end Server

section Exchange

variable {x x' : Exchange} {a : Exchange.Action}

/-- What a step of the exchange adds, and from where. -/
structure Traced (x x' : Exchange) (a : Exchange.Action) : Prop where
  messages : ∀ row ∈ x.tables.messages, row ∈ x'.tables.messages
  kept : ∀ key ∈ x.received, key ∈ x'.received
  received : ∀ key ∈ x'.received, key ∈ x.received ∨ ∃ i ep rows, a = .syncPending i ∧
    x.flights[i]? = some (.answer ep rows) ∧ ∃ row ∈ rows, key = (ep,row.mid)
  confirmed : ∀ key ∈ x'.confirmed, key ∈ x.confirmed ∨ key ∈ x'.received
  answered : ∀ key ∈ x'.answered, key ∈ x.answered ∨ ∃ i sent, a = .answer i 200 ∧
    x.flights[i]? = some (.message sent) ∧ key = (UString.toLongLong sent.ep,UString.toLongLong sent.mid)
  answers : ∀ ep rows, .answer ep rows ∈ x'.flights → .answer ep rows ∈ x.flights ∨
    rows = x.history.database.pendingRows ep

/-- A step that the device has no part in. -/
theorem Traced.plain (messages : ∀ row ∈ x.tables.messages, row ∈ x'.tables.messages)
    (received : x'.received = x.received) (confirmed : x'.confirmed = x.confirmed)
    (answered : x'.answered = x.answered) (answers : ∀ ep rows, .answer ep rows ∈ x'.flights →
      .answer ep rows ∈ x.flights ∨ rows = x.history.database.pendingRows ep) : Traced x x' a := by
  refine ⟨messages,?_,?_,?_,?_,answers⟩
  · exact fun _ member => received ▸ member
  · exact fun _ member => .inl (received ▸ member)
  · exact fun _ member => .inl (confirmed ▸ member)
  · exact fun _ member => .inl (answered ▸ member)

theorem sendPending_traced {i : Nat} (moved : x.step (.sendPending i) = some x') : Traced x x' (.sendPending i) := by
  simp only [Exchange.step] at moved
  split at moved
  · rename_i ev endpoint _
    obtain ⟨history,stepped,rfl⟩ := Option.map_eq_some_iff.mp moved
    obtain ⟨-,rfl⟩ := History.free_some stepped
    have same := (History.sendPending_boxes x.history.database ev endpoint).1.messages
    refine .plain (fun row member => ?_) rfl rfl rfl fun ep rows member => ?_
    · exact (congrArg (row ∈ ·) same).mpr member
    · rcases List.mem_append.mp member with old | new
      · exact .inl (List.mem_of_mem_eraseIdx old)
      · split at new
        · contradiction
        · obtain ⟨rfl,rfl⟩ := Flight.answer.inj (List.mem_singleton.mp new)
          exact .inr rfl
  · contradiction

theorem syncPending_traced {i : Nat} (moved : x.step (.syncPending i) = some x') : Traced x x' (.syncPending i) := by
  simp only [Exchange.step] at moved
  split at moved
  · rename_i ep rows here
    obtain rfl := Option.some.inj moved
    refine ⟨fun _ => id,fun _ => List.mem_append_left _,fun key member => ?_,fun key member => ?_,fun _ => .inl,
      fun ep rows member => ?_⟩
    · rcases List.mem_append.mp member with old | new
      · exact .inl old
      · obtain ⟨row,listed,rfl⟩ := List.mem_map.mp new
        exact .inr ⟨i,ep,rows,rfl,here,row,listed,rfl⟩
    · rcases List.mem_append.mp member with old | new
      · exact .inl old
      · exact .inr (List.mem_filter.mp new).1
    · rcases List.mem_append.mp member with old | new
      · exact .inl (List.mem_of_mem_eraseIdx old)
      · simp at new
  · contradiction

theorem answer_traced {i : Nat} {status : Int} (moved : x.step (.answer i status) = some x') :
    Traced x x' (.answer i status) := by
  simp only [Exchange.step] at moved
  split at moved
  · rename_i sent here
    split at moved
    · obtain rfl := Option.some.inj moved
      refine ⟨fun _ => id,fun _ => id,fun _ => .inl,fun _ => .inl,fun key member => ?_,fun ep rows member => ?_⟩
      · rcases List.mem_append.mp member with old | new
        · exact .inl old
        · split at new
          · rename_i done
            obtain rfl := List.mem_singleton.mp new
            exact .inr ⟨i,sent,by rw [done],here,rfl⟩
          · contradiction
      · rcases List.mem_append.mp member with old | new
        · exact .inl (List.mem_of_mem_eraseIdx old)
        · simp at new
    · contradiction
  · contradiction

theorem step_traced (moved : x.step a = some x') : Traced x x' a := by
  cases a with
  | server a =>
    simp only [Exchange.step] at moved
    split at moved
    · rename_i only
      obtain ⟨history,stepped,rfl⟩ := Option.map_eq_some_iff.mp moved
      exact .plain (fun _ => history_messages only stepped) rfl rfl rfl fun _ _ => .inl
    · contradiction
  | transmit reg context =>
    simp only [Exchange.step] at moved
    split at moved
    · split at moved
      · obtain ⟨sent,-,rfl⟩ := Option.map_eq_some_iff.mp moved
        refine .plain (fun _ => id) rfl rfl rfl fun ep rows member => .inl ?_
        simpa using member
      · contradiction
    · contradiction
  | discard =>
    simp only [Exchange.step] at moved
    split at moved
    · obtain rfl := Option.some.inj moved
      exact .plain (fun _ => id) rfl rfl rfl fun _ _ => .inl
    · contradiction
  | answer i status => exact answer_traced moved
  | requestPending ev endpoint =>
    obtain rfl := Option.some.inj moved
    refine .plain (fun _ => id) rfl rfl rfl fun ep rows member => .inl ?_
    simpa using member
  | sendPending i => exact sendPending_traced moved
  | syncPending i => exact syncPending_traced moved
  | messageResponse i | ackPending i =>
    simp only [Exchange.step] at moved
    split at moved
    · obtain ⟨history,stepped,rfl⟩ := Option.map_eq_some_iff.mp moved
      obtain ⟨-,rfl⟩ := History.free_some stepped
      exact .plain (fun _ => id) rfl rfl rfl fun _ _ member => .inl (Exchange.mem_without member)
    · contradiction
  | lose i =>
    simp only [Exchange.step] at moved
    split at moved
    · obtain rfl := Option.some.inj moved
      exact .plain (fun _ => id) rfl rfl rfl fun _ _ member => .inl (Exchange.mem_without member)
    · contradiction

end Exchange

section Runs

variable {lib : Libraries} {listener : Listener} {endpoint : Int} {s next final : Mailbox}

structure Served (lib : Libraries) (listener : Listener) (endpoint : Int) (s next : Mailbox) (a : Action) : Prop where
  grown : Grown s.device next.device
  posted : ∀ mid args, (mid,args) ∈ s.posted → (mid,args) ∈ next.posted ∨ Fate next.device args
  exchange : next.exchange = s.exchange ∨ ∃ b now, a = .exchange b now ∧ s.exchange.step b = some next.exchange
  fates : ∀ i rows now, a = .exchange (.syncPending i) now → s.exchange.flights[i]? = some (.answer endpoint rows) →
    ∀ row ∈ rows, RowFate lib next.device row
  taken : ∀ i sent now, a = .exchange (.answer i 200) now → s.exchange.flights[i]? = some (.message sent) →
    UString.toLongLong sent.ep = endpoint →
      ∃ args, accepts lib listener sent = some args ∧ (UString.toLongLong sent.mid,args) ∈ next.posted

theorem exchange_served {b : Exchange.Action} {now : Int}
    (moved : step lib listener endpoint s (.exchange b now) = some next) :
    Served lib listener endpoint s next (.exchange b now) := by
  obtain ⟨exchange,stepped,moved⟩ := Option.bind_eq_some_iff.mp moved
  cases b with
  | answer i status =>
    simp only at moved
    split at moved
    · rename_i sent here
      obtain ⟨new,answered,rfl⟩ := Option.map_eq_some_iff.mp moved
      refine ⟨.refl _,fun mid args member => .inl (List.mem_append_left _ member),.inr ⟨_,_,rfl,stepped⟩,
        fun i rows now same => ?_,fun i' sent' now' same here' mine => ?_⟩
      · cases same
      · obtain ⟨rfl,rfl⟩ := Exchange.Action.answer.inj (Action.exchange.inj same).1
        obtain rfl : sent = sent' := by simpa [here] using here'
        simp only [answer,if_pos mine] at answered
        split at answered
        · rename_i args accepted
          obtain rfl : new = _ := by simpa using answered.symm
          exact ⟨args,accepted,List.mem_append_right _ (List.mem_singleton.mpr rfl)⟩
        · simp at answered
    · contradiction
  | syncPending i =>
    simp only at moved
    split at moved
    · rename_i ep rows here
      split at moved
      · obtain rfl := Option.some.inj moved
        obtain ⟨grown,fates⟩ := syncPending_fates (listed lib rows now) s.device
        refine ⟨grown,fun _ _ => .inl,.inr ⟨_,_,rfl,stepped⟩,fun i' rows' now' same here' row member => ?_,
          fun i sent now same => ?_⟩
        · obtain rfl := Exchange.Action.syncPending.inj (Action.exchange.inj same).1
          obtain ⟨-,rfl⟩ := Flight.answer.inj (Option.some.inj (here.symm.trans here'))
          exact listed_fate member fates
        · cases same
      · rename_i other
        obtain rfl := Option.some.inj moved
        refine ⟨.refl _,fun _ _ => .inl,.inr ⟨_,_,rfl,stepped⟩,fun i' rows' now' same here' => ?_,
          fun i sent now same => ?_⟩
        · obtain rfl := Exchange.Action.syncPending.inj (Action.exchange.inj same).1
          exact absurd (Flight.answer.inj (Option.some.inj (here.symm.trans here'))).1 other
        · cases same
    · contradiction
  | server | transmit | discard | messageResponse | requestPending | sendPending | ackPending | lose =>
    obtain rfl := Option.some.inj moved
    refine ⟨.refl _,fun _ _ => .inl,.inr ⟨_,_,rfl,stepped⟩,fun i rows now same => ?_,fun i sent now same => ?_⟩ <;>
      cases same

theorem step_served {a : Action} (moved : step lib listener endpoint s a = some next) :
    Served lib listener endpoint s next a := by
  cases a with
  | exchange b now => exact exchange_served moved
  | receiveText now =>
    simp only [step] at moved
    split at moved
    · contradiction
    · rename_i number args rest waiting
      obtain rfl := Option.some.inj moved
      refine ⟨receiveText_grown _ _,fun mid other member => ?_,.inl rfl,fun _ _ _ same => ?_,fun _ _ _ same => ?_⟩
      · rw [waiting] at member
        rcases List.mem_cons.mp member with first | later
        · obtain ⟨-,rfl⟩ := Prod.mk.inj first
          exact .inr (receiveText_fate _ _)
        · exact .inl later
      · cases same
      · cases same
  | device a =>
    simp only [step] at moved
    split at moved
    · rename_i user
      obtain ⟨device,stepped,rfl⟩ := Option.map_eq_some_iff.mp moved
      refine ⟨device_grown user stepped,fun _ _ => .inl,.inl rfl,fun _ _ _ same => ?_,
        fun _ _ _ same => ?_⟩ <;> cases same
    · contradiction

/-- What the device has acknowledged came to its desktop, as the server has it. -/
structure Kept (lib : Libraries) (endpoint : Int) (s : Mailbox) : Prop where
  answers : ∀ ep rows, .answer ep rows ∈ s.exchange.flights → ∀ row ∈ rows, row ∈ s.exchange.tables.messages
  received : ∀ mid, (endpoint,mid) ∈ s.exchange.received →
    ∃ row ∈ s.exchange.tables.messages, row.mid = mid ∧ RowFate lib s.device row
  confirmed : ∀ key ∈ s.exchange.confirmed, key ∈ s.exchange.received

theorem RowFate.grown {d d' : Desktop} {row : MessageRow} (fate : RowFate lib d row) (grown : Grown d d') :
    RowFate lib d' row := by
  cases fate with
  | skipped unread => exact .skipped unread
  | read args read fate => exact .read args read (fate.grown grown)

theorem pendingRows_messages {d : Database} {ep : Int} {row : MessageRow} (member : row ∈ d.pendingRows ep) :
    row ∈ d.tables.messages := by
  obtain ⟨_,-,found⟩ := List.mem_filterMap.mp member
  exact List.mem_of_find?_eq_some found

theorem step_kept {a : Action} (kept : Kept lib endpoint s) (moved : step lib listener endpoint s a = some next) :
    Kept lib endpoint next := by
  have served := step_served moved
  rcases served.exchange with same | ⟨b,now,rfl,stepped⟩
  · refine ⟨same ▸ kept.answers,fun mid member => ?_,same ▸ kept.confirmed⟩
    rw [same] at member ⊢
    obtain ⟨row,stored,number,fate⟩ := kept.received mid member
    exact ⟨row,stored,number,fate.grown served.grown⟩
  · have traced := step_traced stepped
    refine ⟨fun ep rows member row listed => ?_,fun mid member => ?_,fun key member => ?_⟩
    · rcases traced.answers ep rows member with old | rfl
      · exact traced.messages row (kept.answers ep rows old row listed)
      · exact traced.messages row (pendingRows_messages listed)
    · rcases traced.received _ member with old | ⟨i,ep,rows,rfl,here,row,listed,key⟩
      · obtain ⟨row,stored,number,fate⟩ := kept.received mid old
        exact ⟨row,traced.messages row stored,number,fate.grown served.grown⟩
      · obtain ⟨rfl,rfl⟩ := Prod.mk.inj key
        have stored := kept.answers _ rows (List.mem_of_getElem? here) row listed
        exact ⟨row,traced.messages row stored,rfl,served.fates i rows now rfl here row listed⟩
    · rcases traced.confirmed key member with old | new
      · exact traced.kept key (kept.confirmed key old)
      · exact new

/-- Nothing has been posted or exchanged yet. -/
structure Start (s : Mailbox) : Prop where
  exchange : s.exchange.Start
  received : s.exchange.received = []
  confirmed : s.exchange.confirmed = []
  answered : s.exchange.answered = []

theorem Start.kept (start : s.Start) : Kept lib endpoint s := by
  refine ⟨fun ep rows member => ?_,fun mid member => ?_,fun key member => ?_⟩
  · simp [start.exchange.flights] at member
  · simp [start.received] at member
  · simp [start.confirmed] at member

/-- A transmission of the message was answered with 200, with that text in it. -/
def Accepted (lib : Libraries) (listener : Listener) (endpoint : Int) (trace : List (Edge Mailbox Action)) (mid : Int)
    (args : TextArguments) : Prop :=
  ∃ edge ∈ trace, ∃ i sent now, edge.action = .exchange (.answer i 200) now ∧
    edge.source.exchange.flights[i]? = some (.message sent) ∧ UString.toLongLong sent.ep = endpoint ∧
    UString.toLongLong sent.mid = mid ∧ accepts lib listener sent = some args

/-- Such a text waits for the desktop, or came to it. -/
def Taken (lib : Libraries) (listener : Listener) (endpoint : Int) (trace : List (Edge Mailbox Action))
    (final : Mailbox) (mid : Int) : Prop :=
  ∃ args, Accepted lib listener endpoint trace mid args ∧ ((mid,args) ∈ final.posted ∨ Fate final.device args)

theorem run_kept (start : s.Start) (run : Run lib listener endpoint s trace final) : Kept lib endpoint final :=
  run.invariant (Kept lib endpoint) (fun _ _ _ => step_kept) start.kept

theorem run_taken (start : s.Start) (run : Run lib listener endpoint s trace final) (mid : Int)
    (answered : (endpoint,mid) ∈ final.exchange.answered) : Taken lib listener endpoint trace final mid := by
  induction run with
  | start => simp [start.answered] at answered
  | @next trace middle a final earlier moved ih =>
    have served := step_served moved
    -- what was taken before is still there
    have held (before : Taken lib listener endpoint trace middle mid) :
        Taken lib listener endpoint (trace ++ [⟨middle,a,final⟩]) final mid := by
      obtain ⟨args,⟨edge,member,accepted⟩,state⟩ := before
      refine ⟨args,⟨edge,List.mem_append_left _ member,accepted⟩,?_⟩
      rcases state with waits | fate
      · exact served.posted mid args waits
      · exact .inr (fate.grown served.grown)
    rcases served.exchange with same | ⟨b,now,rfl,stepped⟩
    · exact held (ih (same ▸ answered))
    · rcases (step_traced stepped).answered _ answered with old | ⟨i,sent,rfl,here,key⟩
      · exact held (ih old)
      · obtain ⟨mine,number⟩ := Prod.mk.inj key
        obtain ⟨args,accepted,waits⟩ := served.taken i sent now rfl here mine.symm
        refine ⟨args,⟨_,List.mem_append_right _ (List.mem_singleton.mpr rfl),?_⟩,.inl (number ▸ waits)⟩
        exact ⟨i,sent,now,rfl,here,mine.symm,number.symm,accepted⟩

/-- An acknowledgement is taken as it was meant. -/
def Current (s : Mailbox) : Action → Prop
  | .exchange a _ => s.exchange.Current a
  | _ => True

instance (s : Mailbox) (a : Action) : Decidable (s.Current a) :=
  match a with
  | .exchange a _ => inferInstanceAs (Decidable (s.exchange.Current a))
  | .receiveText _ | .device _ => .isTrue trivial

theorem run_sound (start : s.Start) (run : Run lib listener endpoint s trace final)
    (current : ∀ edge ∈ trace, edge.source.Current edge.action) : final.exchange.Sound := by
  refine run.invariant_of (fun s => s.exchange.Sound) Current (fun s a next sound current moved => ?_)
    start.exchange.sound current
  rcases (step_served moved).exchange with same | ⟨b,now,rfl,stepped⟩
  · exact same ▸ sound
  · exact Exchange.step_sound sound current stepped

/-- Where a row is struck off, its message is the device's own, or came to the desktop, or is about to. -/
theorem delivered_stored (start : s.Start) (run : Run lib listener endpoint s trace final) {row : OutboxRow}
    (here : row.endpoint = endpoint) (delivered : final.exchange.Delivered row) :
    row.key ∈ final.exchange.own ∨
    (∃ message ∈ final.exchange.tables.messages, message.mid = row.mid ∧ RowFate lib final.device message) ∨
    Taken lib listener endpoint trace final row.mid := by
  have key : row.key = (endpoint,row.mid) := by rw [OutboxRow.key,here]
  have kept := run_kept start run
  rcases delivered with answered | confirmed | own
  · exact .inr (.inr (run_taken start run row.mid (key ▸ answered)))
  · exact .inr (.inl (kept.received row.mid (key ▸ kept.confirmed _ confirmed)))
  · exact .inl own

/-- However transmissions, answers and acknowledgements overlap and get lost, and whatever is
done at the device: a message is struck off for it when an answer brought it to the desktop, when its
text was accepted and has come there or waits to, or when it came from the device. -/
theorem struck_off_stored (start : s.Start) (run : Run lib listener endpoint s trace final)
    (current : ∀ edge ∈ trace, edge.source.Current edge.action) :
    ∀ row ∈ final.exchange.tables.outboxes, row.endpoint = endpoint → row.msgstatus = 200 →
      row.key ∈ final.exchange.own ∨
      (∃ message ∈ final.exchange.tables.messages, message.mid = row.mid ∧ RowFate lib final.device message) ∨
      Taken lib listener endpoint trace final row.mid :=
  fun row member here done =>
    delivered_stored start run here ((run_sound start run current).delivered row member done)

def site : Mailbox where
  exchange := { history := { database := Site.neighbours } }
  device := { Desktop.Site.desk with me := 102 }

def storing (sequence : Int) : List Action :=
  [.exchange (.server (.localMessage { Site.letter "102" with sequence })) 1530000000000,
  .exchange (.server .query) 1530000000000,.exchange (.server .store) 1530000000000]

def posting : List Action := storing 1 ++ [.exchange (.transmit Site.phone.reg Site.phone.context) 1530000000000,
  .exchange (.answer 0 200) 1530000000000]

/-- A text comes to the desktop after the server has its answer. Another one is stored, and the device has it from
a pending answer and acknowledges that. -/
def delivering : List Action := posting ++ [.exchange (.messageResponse 0) 1530000000000,.receiveText 1530000000000] ++
  storing 2 ++ [.exchange (.requestPending (Site.request "X-PENDING") 3) 1530000000000,
    .exchange (.sendPending 0) 1530000000000,.exchange (.syncPending 0) 1530000000000,
    .exchange (.ackPending 0) 1530000000000]

theorem struck_off_stored_delivering : ∃ trace final, Run Site.libraries Site.phone.listener 3 site trace final ∧
    trace.map Edge.action = delivering ∧ final.device.messages.rows.length = 2 ∧
    ∀ row ∈ final.exchange.tables.outboxes, row.endpoint = 3 → row.msgstatus = 200 ∧
      (row.key ∈ final.exchange.own ∨ (∃ message ∈ final.exchange.tables.messages,
        message.mid = row.mid ∧ RowFate Site.libraries final.device message) ∨
      Taken Site.libraries Site.phone.listener 3 trace final row.mid) := by
  have ran : (execute (guarded (fun s a => decide (s.Current a)) (step Site.libraries Site.phone.listener 3))
      delivering site).map (fun s => (s.device.messages.rows.length,decide (∀ row ∈ s.exchange.tables.outboxes.rows,
        row.endpoint = 3 → row.msgstatus = 200))) = some (2,true) := by decide +kernel
  obtain ⟨final,done,facts⟩ := Option.map_eq_some_iff.mp ran
  obtain ⟨two,struck⟩ := Prod.mk.inj facts
  obtain ⟨trace,run,labels⟩ := execute_run _ _ _ done
  obtain ⟨run,current⟩ := run.of_guarded
  refine ⟨trace,final,run,labels,two,fun row member here => ?_⟩
  have done := of_decide_eq_true struck row member here
  exact ⟨done,struck_off_stored ⟨⟨rfl,rfl⟩,rfl,rfl,rfl⟩ run (fun edge member =>
    of_decide_eq_true (current edge member)) row member here done⟩

/-- The device takes part in all that the server and it exchange, except for what it answers. -/
theorem step_lifts (lib : Libraries) (listener : Listener) (endpoint now : Int) {b : Exchange.Action}
    {after : Exchange} (stepped : s.exchange.step b = some after)
    (unanswering : ∀ i status, b ≠ .answer i status) :
    ∃ next, step lib listener endpoint s (.exchange b now) = some next ∧ next.exchange = after ∧
      next.posted = s.posted := by
  cases b with
  | answer i status => exact absurd rfl (unanswering i status)
  | syncPending i =>
    have taken := stepped
    simp only [Exchange.step] at taken
    split at taken
    · rename_i ep rows here
      by_cases mine : ep = endpoint
      · refine ⟨{ s with exchange := after, device := s.device.syncPending (listed lib rows now) },?_,rfl,rfl⟩
        simp [step,stepped,here,mine]
      · refine ⟨{ s with exchange := after },?_,rfl,rfl⟩
        simp [step,stepped,here,mine]
    · contradiction
  | server | transmit | discard | messageResponse | requestPending | sendPending | ackPending | lose =>
    refine ⟨{ s with exchange := after },?_,rfl,rfl⟩
    simp [step,stepped]

theorem execute_lifts (lib : Libraries) (listener : Listener) (endpoint now : Int)
    {actions : List Exchange.Action} {after : Exchange}
    (executed : execute Exchange.step actions s.exchange = some after)
    (unanswering : ∀ b ∈ actions, ∀ i status, b ≠ .answer i status) : ∃ next,
      execute (step lib listener endpoint) (actions.map (.exchange · now)) s = some next ∧ next.exchange = after ∧
        next.posted = s.posted := by
  induction actions generalizing s with
  | nil => exact ⟨s,rfl,Option.some.inj executed,rfl⟩
  | cons b rest ih =>
    obtain ⟨middle,first,others⟩ := Option.bind_eq_some_iff.mp executed
    obtain ⟨between,moved,rfl,kept⟩ :=
      step_lifts lib listener endpoint now first (unanswering b List.mem_cons_self)
    obtain ⟨next,done,same,posted⟩ := ih others fun b member => unanswering b (List.mem_cons_of_mem _ member)
    exact ⟨next,by simp [execute,moved,done],same,posted.trans kept⟩

/-- The desktop comes to every text that waits for it. -/
theorem execute_drains (lib : Libraries) (listener : Listener) (endpoint : Int) (s : Mailbox) (now : Int) : ∃ next,
    execute (step lib listener endpoint) (List.replicate s.posted.length (.receiveText now)) s = some next ∧
      next.exchange = s.exchange ∧ next.posted = [] := by
  generalize waiting : s.posted = posted
  induction posted generalizing s with
  | nil => exact ⟨s,rfl,rfl,waiting⟩
  | cons entry rest ih =>
    obtain ⟨next,done,same,none⟩ :=
      ih { s with device := s.device.receiveText { args := entry.2, now }, posted := rest } rfl
    refine ⟨next,?_,same,none⟩
    simp only [List.length_cons,List.replicate_succ,execute,step,waiting,Option.bind_some]
    exact done

/-- One exchange that nothing comes between, and what waits at the device is taken in. -/
def recovery (endpoint : Int) (s : Mailbox) (ev : Event) (now : Int) : List Action :=
  (s.exchange.exchange ev endpoint).map (.exchange · now) ++ List.replicate s.posted.length (.receiveText now)

/-- Whatever has been delayed and lost, and whatever was done at the device: after one exchange
every message of its outbox is its own or came to the desktop. -/
theorem mailbox_recovers (start : s.Start) (run : Run lib listener endpoint s trace reached)
    (current : ∀ edge ∈ trace, edge.source.Current edge.action) (idle : reached.exchange.history.job = none)
    (ev : Event) (now : Int) : ∃ more final, Run lib listener endpoint reached more final ∧
      more.map Edge.action = recovery endpoint reached ev now ∧ final.posted = [] ∧
      final.exchange.tables.outboxes.rows.map OutboxRow.key =
        reached.exchange.tables.outboxes.rows.map OutboxRow.key ∧
      ∀ row ∈ final.exchange.tables.outboxes, row.endpoint = endpoint → row.msgstatus = 200 ∧
        (row.key ∈ final.exchange.own ∨
        (∃ message ∈ final.exchange.tables.messages, message.mid = row.mid ∧ RowFate lib final.device message) ∨
        ∃ args, Accepted lib listener endpoint (trace ++ more) row.mid args ∧ Fate final.device args) := by
  obtain ⟨after,exchanged,sound,-,keys,settled⟩ :=
    Exchange.exchange_settles (run_sound start run current) idle ev endpoint
  have unanswering : ∀ b ∈ reached.exchange.exchange ev endpoint, ∀ i status, b ≠ .answer i status := by
    intro b member i status same
    subst same
    simp only [Exchange.exchange] at member
    split at member <;> simp at member
  obtain ⟨middle,first,rfl,waiting⟩ := execute_lifts lib listener endpoint now exchanged unanswering
  obtain ⟨final,second,same,drained⟩ := execute_drains lib listener endpoint middle now
  have whole : execute (step lib listener endpoint) (recovery endpoint reached ev now) reached = some final := by
    simpa [recovery,execute_append,first,← waiting] using second
  obtain ⟨more,ran,labels⟩ := execute_run _ _ _ whole
  refine ⟨more,final,ran,labels,drained,same ▸ keys,fun row member here => ?_⟩
  obtain ⟨old,-,changed⟩ := (settled row).mp (same ▸ member)
  have done : row.msgstatus = 200 := by
    rw [← changed]
    split
    · rfl
    · rename_i other
      rw [if_neg other] at changed
      exact absurd (changed ▸ here) other
  refine ⟨done,?_⟩
  have delivered : final.exchange.Delivered row := by
    rw [same]
    exact sound.delivered row (same ▸ member) done
  rcases delivered_stored start (run.append ran) here delivered with own | stored | ⟨args,accepted,state⟩
  · exact .inl own
  · exact .inr (.inl stored)
  · refine .inr (.inr ⟨args,accepted,?_⟩)
    rcases state with waits | fate
    · simp [drained] at waits
    · exact fate

/-- Two texts are delivered, a third is answered, its answer is lost, and it still waits. -/
def waiting : List Action := delivering ++ storing 3 ++ [.exchange .discard 1530000000000,
  .exchange (.transmit Site.phone.reg Site.phone.context) 1530000000000,.exchange (.answer 0 200) 1530000000000,
  .exchange (.lose 0) 1530000000000]

theorem mailbox_recovers_waiting : ∃ trace reached more final,
    Run Site.libraries Site.phone.listener 3 site trace reached ∧ reached.posted.length = 1 ∧
    Run Site.libraries Site.phone.listener 3 reached more final ∧ final.posted = [] ∧
    ∀ row ∈ final.exchange.tables.outboxes, row.endpoint = 3 → row.msgstatus = 200 := by
  have ran : (execute (guarded (fun s a => decide (s.Current a)) (step Site.libraries Site.phone.listener 3))
      waiting site).map (fun s => (s.exchange.history.job.isNone,s.posted.length)) = some (true,1) := by
    decide +kernel
  obtain ⟨reached,done,facts⟩ := Option.map_eq_some_iff.mp ran
  obtain ⟨idle,one⟩ := Prod.mk.inj facts
  obtain ⟨trace,run,-⟩ := execute_run _ _ _ done
  obtain ⟨run,current⟩ := run.of_guarded
  obtain ⟨more,final,ran,-,posted,-,rows⟩ := mailbox_recovers ⟨⟨rfl,rfl⟩,rfl,rfl,rfl⟩ run
    (fun edge member => of_decide_eq_true (current edge member)) (Option.isNone_iff_eq_none.mp idle)
    (Site.request "X-PENDING") 1530000000000
  exact ⟨trace,reached,more,final,run,one,ran,posted,fun row member here => (rows row member here).1⟩

end Runs

end Mailbox

end SipWitch
