import SipWitch.History

/-! The exchanges between the database and the devices. Transmissions, requests, answers
and acknowledgements are in flight between them for any time, and each can be lost. A row
of the outbox is struck off by the answer to a transmission, or by an acknowledgement,
which names no messages: it is for whatever is in progress when it is processed. -/
namespace SipWitch

open Database Tables

/-- What is on its way. The messages of an answer, and those that a device had from
answers when it acknowledged, are kept along. -/
inductive Flight where
  | message (sent : SipMessage)
  | response (mid ep : UString) (status : Int)
  | request (ev : Event) (endpoint : Int)
  | answer (endpoint : Int) (rows : List MessageRow)
  | ack (endpoint : Int) (mids : List Int)

structure Exchange where
  history : History
  flights : List Flight := []
  /-- The messages of the answers that were built, the newest answer first. -/
  built : List (Int × List Int) := []
  /-- By endpoint and message: what devices had in answers, and what they said of it. -/
  received : List (Int × Int) := []
  confirmed : List (Int × Int) := []
  /-- What devices answered a transmission of with 200. -/
  answered : List (Int × Int) := []
  /-- The sending device and the archive of its extension, for each message stored. -/
  own : List (Int × Int) := []

/-- The endpoints that a message is stored as done for. -/
def Job.own (job : Job) (mid : Int) : List (Int × Int) :=
  match job.message with
  | .event _ sender => [(sender.self,mid),(sender.none,mid)]
  | .admin .. => []

namespace Exchange

inductive Action where
  /-- A slot, or a part of one, that takes nothing from the devices. -/
  | server (a : History.Action)
  | transmit (reg : Registry) (context : Context)
  | discard
  | answer (i : Nat) (status : Int)
  | messageResponse (i : Nat)
  | requestPending (ev : Event) (endpoint : Int)
  | sendPending (i : Nat)
  | syncPending (i : Nat)
  | ackPending (i : Nat)
  | lose (i : Nat)

variable (s : Exchange)

def tables : Tables := s.history.database.tables

def newest (endpoint : Int) : List Int := (s.built.lookup endpoint).getD []

/-- Messages of local and administrative origin, and the start of a label. -/
def local_ : History.Action → Bool
  | .findEndpoint .. | .outbox _ | .localMessage _ | .adminMessage .. | .query | .store => true
  | _ => false

def stores (h : History) (a : History.Action) : List (Int × Int) :=
  match a,h.job with
  | .store,some job => job.own h.database.tables.messages.next
  | _,_ => []

/-- The next notice of the database is taken off its queue. -/
def taken (rest : List Notice) : Exchange :=
  { s with history := { s.history with database := { s.history.database with emitted := rest } } }

def without (i : Nat) : Exchange := { s with flights := s.flights.eraseIdx i }

def step (s : Exchange) : Action → Option Exchange
  | .server a =>
    if local_ a then
      (s.history.step a).map fun history => { s with history, own := s.own ++ stores s.history a }
    else none
  | .transmit reg context =>
    match s.history.database.emitted with
    | .sendMessage endpoint data :: rest =>
      if reg.endpointId = endpoint then
        (Manager.compose reg context data).map fun sent =>
          { s.taken rest with flights := s.flights ++ [.message sent] }
      else none
    | _ => none
  -- no registration that is active, or a notice of another kind
  | .discard =>
    match s.history.database.emitted with
    | _ :: rest => some (s.taken rest)
    | [] => none
  | .answer i status =>
    match s.flights[i]? with
    | some (.message sent) =>
      if 200 ≤ status then some { s with
        flights := s.flights.eraseIdx i ++ [.response sent.mid sent.ep status]
        answered := s.answered ++ if status = 200 then
            [(UString.toLongLong sent.ep,UString.toLongLong sent.mid)]
          else [] }
      else none
    | _ => none
  | .messageResponse i =>
    match s.flights[i]? with
    | some (.response mid ep status) =>
      (s.history.step (.messageResponse mid ep status)).map fun history =>
        { s.without i with history }
    | _ => none
  | .requestPending ev endpoint => some { s with flights := s.flights ++ [.request ev endpoint] }
  | .sendPending i =>
    match s.flights[i]? with
    | some (.request ev endpoint) =>
      let rows := s.history.database.pendingRows endpoint
      (s.history.step (.sendPending ev endpoint)).map fun history => { s with
        history
        flights := s.flights.eraseIdx i ++ if rows = [] then [] else [.answer endpoint rows]
        built := (endpoint,rows.map MessageRow.mid) :: s.built }
    | _ => none
  | .syncPending i =>
    match s.flights[i]? with
    | some (.answer endpoint rows) =>
      let received := s.received ++ rows.map fun row => (endpoint,row.mid)
      let mine := received.filter fun key => key.1 = endpoint
      some { s with
        flights := s.flights.eraseIdx i ++ [.ack endpoint (mine.map Prod.snd)]
        received
        confirmed := s.confirmed ++ mine }
    | _ => none
  | .ackPending i =>
    match s.flights[i]? with
    | some (.ack endpoint _) =>
      (s.history.step (.changePending endpoint)).map fun history => { s.without i with history }
    | _ => none
  | .lose i => if i < s.flights.length then some (s.without i) else none

abbrev Run := Transition.Run step

/-- The device answered the message's transmission, or acknowledged after an answer with
the message, or is the sender's own. -/
def Delivered (row : OutboxRow) : Prop :=
  row.key ∈ s.answered ∨ row.key ∈ s.confirmed ∨ row.key ∈ s.own

/-- An acknowledgement that is processed was sent by a device that had what is still in
progress of the newest answer. -/
def Current (s : Exchange) : Action → Prop
  | .ackPending i => ∀ endpoint mids, s.flights[i]? = some (.ack endpoint mids) →
    ∀ mid ∈ s.newest endpoint, { mid, endpoint, msgstatus := 100 } ∈ s.tables.outboxes → mid ∈ mids
  | _ => True

instance (s : Exchange) (a : Action) : Decidable (s.Current a) :=
  match a with
  | .ackPending i =>
    match found : s.flights[i]? with
    | some (.ack endpoint mids) =>
      decidable_of_iff (∀ mid ∈ s.newest endpoint,
          { mid, endpoint, msgstatus := 100 } ∈ s.tables.outboxes → mid ∈ mids)
        ⟨fun covered _ _ same => by
          obtain ⟨rfl,rfl⟩ := Flight.ack.inj (Option.some.inj (found ▸ same))
          exact covered,
          fun current => current endpoint mids found⟩
    | none | some (.message _) | some (.response ..) | some (.request ..) | some (.answer ..) =>
      .isTrue fun _ _ same => by simp [found] at same
  | .server _ | .transmit .. | .discard | .answer .. | .messageResponse _ | .requestPending .. | .sendPending _
  | .syncPending _ | .lose _ => .isTrue trivial

structure Extended (t t' : Tables) (own : List (Int × Int)) : Prop where
  messages : ∀ mid, t.hasMessage mid → t'.hasMessage mid
  rows : ∀ row ∈ t'.outboxes, row ∈ t.outboxes ∨
    (row.msgstatus = 0 ∨ row.msgstatus = 200 ∧ row.key ∈ own) ∧
      (t'.hasMessage row.mid ∨ ∃ old ∈ t.outboxes, old.mid = row.mid)

section Slots

variable {t t' : Tables} {h next : History} {own : List (Int × Int)}

theorem extended_same (own : List (Int × Int)) (messages : t'.messages = t.messages)
    (outboxes : t'.outboxes = t.outboxes) :
    Extended t t' own where
  messages mid known := by simpa [Tables.hasMessage,messages] using known
  rows row member := .inl (outboxes ▸ member)

theorem extended_serve (own : List (Int × Int)) {request : OutboxRequest} {rows : List OutboxRow}
    (served : h.serve request rows = some next) :
    Extended h.database.tables next.database.tables own := by
  cases request with
  | copy source target =>
    simp only [History.serve] at served
    split at served
    · rename_i listing
      obtain rfl := Option.some.inj served
      refine ⟨fun mid known => ?_,fun row member => ?_⟩
      · simpa [copyOutbox,runQuery,Tables.hasMessage] using known
      · rcases (mem_copyRows rows).2 row member with old | ⟨-,waiting,-,origin,listed,same⟩
        · exact .inl old
        · exact .inr ⟨.inl waiting,.inr ⟨origin,(Listing.mem listing).mp listed |>.1,same⟩⟩
    · contradiction
  | sync endpoint =>
    obtain rfl := Option.some.inj served
    refine ⟨fun mid known => known,fun row member => ?_⟩
    obtain ⟨old,known,rfl⟩ := mem_setStatus.mp member
    split
    · exact .inr ⟨.inl rfl,.inr ⟨old,known,rfl⟩⟩
    · exact .inl known

theorem foldl_rows {mid : Int} {data : MessageData} {boxes : List (Int × Int)} {row : OutboxRow}
    (d : Database)
    (member : row ∈ (boxes.foldl (fun d box => d.post mid data box) d).tables.outboxes) :
    row ∈ d.tables.outboxes ∨ ∃ box ∈ boxes, row = boxRow mid box := by
  induction boxes generalizing d with
  | nil => exact .inl member
  | cons box rest ih =>
    rcases ih (d.post mid data box) member with old | ⟨other,listed,same⟩
    · have posted : row ∈ d.tables.outboxes ∨ row = boxRow mid box := by
        simp only [post,runQuery,Tables.insertOutbox,emit] at old
        split at old <;> split at old
        · exact (Table.mem_insert.mp old).imp id And.right
        · exact .inl old
        · exact (Table.mem_insert.mp old).imp id And.right
        · exact .inl old
      exact posted.imp id fun same => ⟨box,List.mem_cons_self,same⟩
    · exact .inr ⟨other,List.mem_cons_of_mem _ listed,same⟩

theorem extended_stored {d after : Database} {message : MessageRow} {data : MessageData}
    {boxes : List (Int × Int)} (stored : Stored d after message data boxes)
    (statuses : ∀ box ∈ boxes, box.2 = 0 ∨ box.2 = 200 ∧ (box.1,d.tables.messages.next) ∈ own) :
    Extended d.tables after.tables own := by
  obtain ⟨ready,rfl,number,tables,-,-⟩ := stored
  have messages : (boxes.foldl (fun d box => d.post message.mid data box) ready).tables.messages =
      (d.tables.insertMessage message).messages := by rw [foldl_messages,tables]
  refine ⟨fun mid known => ?_,fun row member => ?_⟩
  · have grown := hasMessage_grows message known
    simpa [Tables.hasMessage,messages] using grown
  · rcases foldl_rows ready member with old | ⟨box,listed,rfl⟩
    · rw [tables] at old
      exact .inl old
    · refine .inr ⟨?_,.inl ?_⟩
      · rcases statuses box listed with waiting | ⟨done,own⟩
        · exact .inl waiting
        · refine .inr ⟨done,?_⟩
          rw [← number] at own
          exact own
      · have made := hasMessage_insertMessage d.tables message
        rw [← number] at made
        rw [Tables.hasMessage,messages]
        exact made

theorem extended_findEndpoint {ev : Event} {rows : List OutboxRow}
    (moved : h.step (.findEndpoint ev rows) = some next) :
    Extended h.database.tables next.database.tables [] := by
  have found : (Authorize.findEndpoint h.database ev).tables.messages = h.database.tables.messages ∧
      (Authorize.findEndpoint h.database ev).tables.outboxes = h.database.tables.outboxes := by
    rcases History.findEndpoint_boxes h.database ev with ⟨tables,-⟩ | ⟨-,tables,-⟩ | ⟨-,-,tables,-⟩ <;>
      simp [tables]
  have same := extended_same [] found.1 found.2
  simp only [History.step] at moved
  split at moved
  · obtain rfl := Option.some.inj moved
    exact same
  · split at moved
    · contradiction
    · obtain rfl := Option.some.inj moved
      exact same
    · have served := extended_serve [] moved
      refine ⟨fun mid known => served.messages mid (same.messages mid known),fun row member => ?_⟩
      have traced := served.rows row member
      simp only [found.2] at traced
      exact traced

/-- A sender's own boxes are filed as done, the others wait. -/
theorem extended_store (moved : h.step .store = some next) :
    Extended h.database.tables next.database.tables (stores h .store) := by
  simp only [History.step] at moved
  split at moved
  · rename_i message sendList working
    obtain rfl := Option.some.inj moved
    have owned : stores h .store =
        Job.own { message, sendList } h.database.tables.messages.next := by simp [stores,working]
    rw [owned]
    cases message with
    | event ev sender =>
      by_cases none : sendList = []
      · simp only [Composed.store,storeLocal,if_pos none]
        split <;> exact extended_same _ rfl rfl
      · refine extended_stored (storeLocal_stored h.database ev sender sendList none) ?_
        intro box member
        obtain ⟨endpoint,-,rfl⟩ := List.mem_map.mp member
        by_cases own : endpoint = sender.self ∨ endpoint = sender.none
        · refine .inr ⟨if_pos own,?_⟩
          simpa [Job.own] using own
        · exact .inl (if_neg own)
    | admin ev recipient text sender display expires =>
      refine extended_stored (storeAdmin_stored h.database ev recipient text sender display expires
        sendList) fun box member => ?_
      obtain ⟨endpoint,-,rfl⟩ := List.mem_map.mp member
      exact .inl rfl
  · contradiction

theorem extended_step {a : History.Action} (only : local_ a = true) (moved : h.step a = some next) :
    Extended h.database.tables next.database.tables (stores h a) := by
  cases a with
  | findEndpoint ev rows => exact extended_findEndpoint moved
  | outbox rows =>
    simp only [History.step] at moved
    split at moved
    · rename_i request rest idle queued
      exact extended_serve _ (h := { h with database := { h.database with copies := rest } }) moved
    · contradiction
  | localMessage ev =>
    obtain ⟨-,rfl⟩ := History.free_some moved
    simp only [History.begin]
    split
    · exact extended_same _ rfl rfl
    · split <;> exact extended_same _ rfl rfl
  | adminMessage ev recipient text sender display expires =>
    obtain ⟨-,rfl⟩ := History.free_some moved
    exact extended_same _ rfl rfl
  | query =>
    simp only [History.step] at moved
    split at moved
    · obtain rfl := Option.some.inj moved
      exact extended_same _ rfl rfl
    · contradiction
  | store => exact extended_store moved
  | messageResponse | sendPending | changePending | removeDevice | cleanupMessages => contradiction

end Slots

/-- What holds between two steps. -/
structure Sound (s : Exchange) : Prop where
  messages : ∀ row ∈ s.tables.outboxes, s.tables.hasMessage row.mid
  progress : ∀ row ∈ s.tables.outboxes, row.msgstatus = 100 → row.mid ∈ s.newest row.endpoint
  delivered : ∀ row ∈ s.tables.outboxes, row.msgstatus = 200 → s.Delivered row
  responses : ∀ mid ep status, .response mid ep status ∈ s.flights → 200 ≤ status ∧
    (status = 200 → (UString.toLongLong ep,UString.toLongLong mid) ∈ s.answered)
  acks : ∀ endpoint mids, .ack endpoint mids ∈ s.flights → ∀ mid ∈ mids,
    (endpoint,mid) ∈ s.confirmed

variable {s next : Exchange} {i : Nat}

theorem Sound.delivered_mono (sound : s.Sound) {row : OutboxRow} (known : row ∈ s.tables.outboxes)
    (done : row.msgstatus = 200) (answered : ∀ key ∈ s.answered, key ∈ next.answered)
    (confirmed : ∀ key ∈ s.confirmed, key ∈ next.confirmed) (own : ∀ key ∈ s.own, key ∈ next.own) :
    next.Delivered row :=
  (sound.delivered row known done).imp (answered _) (Or.imp (confirmed _) (own _))

/-- A step that moves only what is in flight. -/
theorem Sound.moved (sound : s.Sound) (tables : next.tables = s.tables) (built : next.built = s.built)
    (answered : ∀ key ∈ s.answered, key ∈ next.answered)
    (confirmed : ∀ key ∈ s.confirmed, key ∈ next.confirmed) (own : ∀ key ∈ s.own, key ∈ next.own)
    (flights : ∀ flight ∈ next.flights, flight ∈ s.flights ∨
      (∀ mid ep status, flight = .response mid ep status → 200 ≤ status ∧
        (status = 200 → (UString.toLongLong ep,UString.toLongLong mid) ∈ next.answered)) ∧
      (∀ endpoint mids, flight = .ack endpoint mids → ∀ mid ∈ mids,
        (endpoint,mid) ∈ next.confirmed)) : next.Sound where
  messages row known := by rw [tables] at known ⊢; exact sound.messages row known
  progress row known waiting := by
    rw [tables] at known
    have listed := sound.progress row known waiting
    simpa only [newest,built] using listed
  delivered row known done := by
    rw [tables] at known
    exact sound.delivered_mono known done answered confirmed own
  responses mid ep status underway := by
    rcases flights _ underway with old | ⟨new,-⟩
    · obtain ⟨final,traced⟩ := sound.responses mid ep status old
      exact ⟨final,fun done => answered _ (traced done)⟩
    · exact new mid ep status rfl
  acks endpoint mids underway mid listed := by
    rcases flights _ underway with old | ⟨-,new⟩
    · exact confirmed _ (sound.acks endpoint mids old mid listed)
    · exact new endpoint mids rfl mid listed

theorem mem_without {flight : Flight} (underway : flight ∈ (s.without i).flights) :
    flight ∈ s.flights := List.mem_of_mem_eraseIdx underway

/-- A slot that sets the status of rows. -/
theorem Sound.setStatus (sound : s.Sound) {status : Int} {condition : OutboxRow → Bool}
    (outboxes : next.tables.outboxes = (s.tables.setStatus status condition).outboxes)
    (messages : next.tables.messages = s.tables.messages)
    (answered : next.answered = s.answered) (confirmed : next.confirmed = s.confirmed)
    (own : next.own = s.own) (flights : ∀ flight ∈ next.flights, flight ∈ s.flights ∨
      ∃ endpoint rows, flight = .answer endpoint rows)
    (waiting : ∀ row ∈ s.tables.outboxes, condition row = false → row.msgstatus = 100 →
      row.mid ∈ next.newest row.endpoint)
    (started : status = 100 → ∀ row ∈ s.tables.outboxes, condition row = true →
      row.mid ∈ next.newest row.endpoint)
    (struck : status = 200 → ∀ row ∈ s.tables.outboxes, condition row = true →
      s.Delivered row) : next.Sound := by
  have delivered (row : OutboxRow) : s.Delivered row → next.Delivered row := by
    rw [Delivered,Delivered,answered,confirmed,own]
    exact id
  have source {row : OutboxRow} (known : row ∈ next.tables.outboxes) : ∃ old ∈ s.tables.outboxes,
      (if condition old then { old with msgstatus := status } else old) = row := by
    rw [outboxes] at known
    exact mem_setStatus.mp known
  refine ⟨?_,?_,?_,?_,?_⟩
  · intro row known
    obtain ⟨old,stored,rfl⟩ := source known
    have message := sound.messages old stored
    rw [Tables.hasMessage,messages]
    split <;> exact message
  · intro row known progress
    obtain ⟨old,stored,rfl⟩ := source known
    by_cases set : condition old = true
    · rw [if_pos set] at progress ⊢
      exact started progress old stored set
    · rw [if_neg set] at progress ⊢
      exact waiting old stored (Bool.not_eq_true _ ▸ set) progress
  · intro row known done
    obtain ⟨old,stored,rfl⟩ := source known
    by_cases set : condition old = true
    · rw [if_pos set] at done ⊢
      exact delivered old (struck done old stored set)
    · rw [if_neg set] at done ⊢
      exact delivered old (sound.delivered old stored done)
  · intro mid ep status underway
    rw [answered]
    rcases flights _ underway with old | ⟨_,_,other⟩
    · exact sound.responses mid ep status old
    · contradiction
  · intro endpoint mids underway
    rw [confirmed]
    rcases flights _ underway with old | ⟨_,_,other⟩
    · exact sound.acks endpoint mids old
    · contradiction

/-- The entries of an answer are of all the rows that it puts in progress. -/
theorem pending_listed (sound : s.Sound) {row : OutboxRow} (known : row ∈ s.tables.outboxes)
    (waiting : row.msgstatus ≠ 200) :
    row.mid ∈ (s.history.database.pendingRows row.endpoint).map MessageRow.mid := by
  obtain ⟨message,stored,same⟩ := hasMessage_iff.mp (sound.messages row known)
  have found : (s.tables.messages.rows.find? fun message => message.mid = row.mid).isSome :=
    List.find?_isSome.mpr ⟨message,stored,decide_eq_true same⟩
  obtain ⟨listed,here⟩ := Option.isSome_iff_exists.mp found
  have named : listed.mid = row.mid := by simpa using List.find?_some here
  refine List.mem_map.mpr ⟨listed,List.mem_filterMap.mpr ⟨row,?_,here⟩,named⟩
  exact Table.mem_select.mpr ⟨known,by simp [waiting]⟩

theorem server_sound (sound : s.Sound) {a : History.Action} (only : local_ a = true)
    {history : History} (moved : s.history.step a = some history) :
    ({ s with history, own := s.own ++ stores s.history a } : Exchange).Sound := by
  have extended := extended_step only moved
  have known (mid : Int) (listed : s.tables.hasMessage mid) :
      history.database.tables.hasMessage mid := extended.messages mid listed
  refine ⟨?_,?_,?_,sound.responses,sound.acks⟩
  · intro row member
    rcases extended.rows row member with old | ⟨-,stored | ⟨old,member,same⟩⟩
    · exact known _ (sound.messages row old)
    · exact stored
    · exact same ▸ known _ (sound.messages old member)
  · intro row member progress
    rcases extended.rows row member with old | ⟨waiting | ⟨done,-⟩,-⟩
    · exact sound.progress row old progress
    · rw [waiting] at progress
      contradiction
    · rw [done] at progress
      contradiction
  · intro row member done
    rcases extended.rows row member with old | ⟨waiting | ⟨-,own⟩,-⟩
    · exact sound.delivered_mono old done (fun _ => id) (fun _ => id)
        fun key => List.mem_append_left _
    · rw [waiting] at done
      contradiction
    · exact .inr (.inr (List.mem_append_right _ own))

theorem Sound.answer {status : Int} (sound : s.Sound) (moved : s.step (.answer i status) = some next) :
    next.Sound := by
  simp only [step] at moved
  split at moved
  · split at moved
    · rename_i sent _ final
      obtain rfl := Option.some.inj moved
      refine sound.moved rfl rfl (fun _ => List.mem_append_left _) (fun _ => id) (fun _ => id)
        fun flight underway => ?_
      rcases List.mem_append.mp underway with old | new
      · exact .inl (List.mem_of_mem_eraseIdx old)
      · obtain rfl := List.mem_singleton.mp new
        refine .inr ⟨fun mid ep status' same => ?_,by simp⟩
        obtain ⟨rfl,rfl,rfl⟩ := Flight.response.inj same
        refine ⟨final,fun done => List.mem_append_right _ ?_⟩
        simp [done]
    · contradiction
  · contradiction

/-- The row that is struck off was answered with 200. -/
theorem Sound.messageResponse (sound : s.Sound) (moved : s.step (.messageResponse i) = some next) :
    next.Sound := by
  simp only [step] at moved
  split at moved
  · rename_i mid ep status here
    obtain ⟨history,stepped,rfl⟩ := Option.map_eq_some_iff.mp moved
    obtain ⟨-,rfl⟩ := History.free_some stepped
    obtain ⟨final,traced⟩ := sound.responses mid ep status (List.mem_of_getElem? here)
    refine sound.setStatus rfl rfl rfl rfl rfl (fun flight underway => .inl (mem_without underway))
      (fun row known _ => sound.progress row known) (fun progress => by omega)
      fun done row _ condition => ?_
    simp only [Bool.and_eq_true,decide_eq_true_eq] at condition
    left
    rw [OutboxRow.key,condition.1,condition.2]
    exact traced done
  · contradiction

/-- The rows in progress are those of the newest answer. -/
theorem Sound.sendPending (sound : s.Sound) (moved : s.step (.sendPending i) = some next) : next.Sound := by
  simp only [step] at moved
  split at moved
  · rename_i ev endpoint here
    obtain ⟨history,stepped,rfl⟩ := Option.map_eq_some_iff.mp moved
    obtain ⟨-,rfl⟩ := History.free_some stepped
    have same := (History.sendPending_boxes s.history.database ev endpoint).1
    refine sound.setStatus same.outboxes same.messages rfl rfl rfl (fun flight underway => ?_) ?_ ?_
      (fun done => by omega)
    · rcases List.mem_append.mp underway with old | new
      · exact .inl (List.mem_of_mem_eraseIdx old)
      · split at new
        · contradiction
        · exact .inr ⟨_,_,List.mem_singleton.mp new⟩
    · intro row known condition progress
      have other : row.endpoint ≠ endpoint := by simpa [progress] using condition
      have listed := sound.progress row known progress
      simpa [newest,List.lookup_cons,beq_eq_false_iff_ne.mpr other] using listed
    · intro _ row known condition
      simp only [Bool.and_eq_true,decide_eq_true_eq] at condition
      obtain ⟨waiting,rfl⟩ := condition
      have listed := pending_listed sound known waiting
      simpa [newest] using listed
  · contradiction

/-- A device acknowledges what it has received. -/
theorem Sound.syncPending (sound : s.Sound) (moved : s.step (.syncPending i) = some next) : next.Sound := by
  simp only [step] at moved
  split at moved
  · obtain rfl := Option.some.inj moved
    refine sound.moved rfl rfl (fun _ => id) (fun _ => List.mem_append_left _) (fun _ => id)
      fun flight underway => ?_
    rcases List.mem_append.mp underway with old | new
    · exact .inl (List.mem_of_mem_eraseIdx old)
    · obtain rfl := List.mem_singleton.mp new
      refine .inr ⟨by simp,fun endpoint mids same mid listed => List.mem_append_right _ ?_⟩
      obtain ⟨rfl,rfl⟩ := Flight.ack.inj same
      obtain ⟨⟨ep,mid'⟩,mine,rfl⟩ := List.mem_map.mp listed
      have here : ep = _ := of_decide_eq_true (List.mem_filter.mp mine).2
      exact here ▸ mine
  · contradiction

/-- The rows in progress are among those that the acknowledgement is for. -/
theorem Sound.ackPending (sound : s.Sound) (current : s.Current (.ackPending i))
    (moved : s.step (.ackPending i) = some next) : next.Sound := by
  simp only [step] at moved
  split at moved
  · rename_i endpoint mids here
    obtain ⟨history,stepped,rfl⟩ := Option.map_eq_some_iff.mp moved
    obtain ⟨-,rfl⟩ := History.free_some stepped
    refine sound.setStatus rfl rfl rfl rfl rfl (fun flight underway => .inl (mem_without underway))
      (fun row known _ => sound.progress row known) (fun progress => by omega)
      fun _ row known condition => ?_
    simp only [Bool.and_eq_true,decide_eq_true_eq] at condition
    obtain ⟨progress,rfl⟩ := condition
    have listed := current row.endpoint mids here row.mid (sound.progress row known progress)
      (progress ▸ known)
    exact .inr (.inl (sound.acks row.endpoint mids (List.mem_of_getElem? here) row.mid listed))
  · contradiction

theorem step_sound {a : Action} (sound : s.Sound) (current : s.Current a)
    (moved : s.step a = some next) : next.Sound := by
  cases a with
  | server a =>
    simp only [step] at moved
    split at moved
    · rename_i only
      obtain ⟨history,stepped,rfl⟩ := Option.map_eq_some_iff.mp moved
      exact server_sound sound only stepped
    · contradiction
  | transmit reg context =>
    simp only [step] at moved
    split at moved
    · split at moved
      · obtain ⟨sent,-,rfl⟩ := Option.map_eq_some_iff.mp moved
        refine sound.moved rfl rfl (fun _ => id) (fun _ => id) (fun _ => id) fun flight underway => ?_
        rcases List.mem_append.mp underway with old | new
        · exact .inl old
        · obtain rfl := List.mem_singleton.mp new
          exact .inr ⟨by simp,by simp⟩
      · contradiction
    · contradiction
  | discard =>
    simp only [step] at moved
    split at moved
    · obtain rfl := Option.some.inj moved
      exact sound.moved rfl rfl (fun _ => id) (fun _ => id) (fun _ => id) fun flight => .inl
    · contradiction
  | answer i status => exact sound.answer moved
  | messageResponse i => exact sound.messageResponse moved
  | requestPending ev endpoint =>
    obtain rfl := Option.some.inj moved
    refine sound.moved rfl rfl (fun _ => id) (fun _ => id) (fun _ => id) fun flight underway => ?_
    rcases List.mem_append.mp underway with old | new
    · exact .inl old
    · obtain rfl := List.mem_singleton.mp new
      exact .inr ⟨by simp,by simp⟩
  | sendPending i => exact sound.sendPending moved
  | syncPending i => exact sound.syncPending moved
  | ackPending i => exact sound.ackPending current moved
  | lose i =>
    simp only [step] at moved
    split at moved
    · obtain rfl := Option.some.inj moved
      exact sound.moved rfl rfl (fun _ => id) (fun _ => id) (fun _ => id)
        fun flight underway => .inl (mem_without underway)
    · contradiction

structure Start (s : Exchange) : Prop where
  outboxes : s.tables.outboxes = default
  flights : s.flights = []

theorem Start.sound (start : s.Start) : s.Sound := by
  have empty {row : OutboxRow} : row ∉ s.tables.outboxes := by
    rw [start.outboxes]
    exact Table.not_mem_empty
  refine ⟨fun _ known => absurd known empty,fun _ known => absurd known empty,
    fun _ known => absurd known empty,fun _ _ _ underway => ?_,fun _ _ underway => ?_⟩ <;>
  · rw [start.flights] at underway
    contradiction

/-- However requests, answers and acknowledgements overlap and get lost, a row is done only
once its device has the message, as long as each acknowledgement that is processed was sent
by a device that had what is still in progress of the newest answer. -/
theorem outbox_delivered (s : Exchange) (trace final) (start : s.Start) (run : Run s trace final)
    (current : ∀ edge ∈ trace, edge.source.Current edge.action) :
    ∀ row ∈ final.tables.outboxes, row.msgstatus = 200 → final.Delivered row :=
  (run.invariant_of Sound Current (fun _ _ _ => step_sound) start.sound current).delivered

def site : Exchange where
  history := { database := Site.server.database }

def store : List Action := [.server (.localMessage History.text),.server .query,.server .store]

def pending : Action := .requestPending (Site.request "X-PENDING") 2

/-- The device has the first text and says so. A second text is stored and listed, the
answer that lists it is lost, and then the acknowledgement arrives. -/
def overlapping : List Action := store ++ [pending,.sendPending 0,.syncPending 0] ++ store ++
  [pending,.sendPending 1,.lose 1,.ackPending 0]

theorem overlapping_rows : (Transition.execute step overlapping site).map (fun s =>
    decide ({ mid := 2, endpoint := 2, msgstatus := 200 } ∈ s.tables.outboxes.rows ∧
      (2,2) ∉ s.answered ∧ (2,2) ∉ s.confirmed ∧ (2,2) ∉ s.own)) = some true := by
  decide +kernel

/-- The second text is struck off though the device never had it. -/
theorem overlapping_exchanges : ¬∀ (s : Exchange) (trace final), s.Start → Run s trace final →
    ∀ row ∈ final.tables.outboxes, row.msgstatus = 200 → final.Delivered row := by
  intro claim
  obtain ⟨final,done,facts⟩ := Option.map_eq_some_iff.mp overlapping_rows
  obtain ⟨trace,run,-⟩ := Transition.execute_run _ _ _ done
  obtain ⟨struck,answered,confirmed,own⟩ := of_decide_eq_true facts
  rcases claim site trace final ⟨rfl,rfl⟩ run _ struck rfl with h | h | h
  · exact answered h
  · exact confirmed h
  · exact own h

/-- The device is transmitted the text and answers it. A second one is stored, and the device has it in an
answer and acknowledges that. -/
def transmitted : List Action := store ++ [.transmit (Registry.create {
  number := 101
  label := "desk"
  endpoint := 2
  origin := "localhost"
  expires := 300 } 0) (Site.request "REGISTER").context,.answer 0 200,.messageResponse 0] ++
  store ++ [pending,.sendPending 0,.syncPending 0,.ackPending 0]

theorem transmitted_rows : (Transition.execute (Transition.guarded (fun s a => decide (s.Current a)) step)
    transmitted site).map (fun s => decide ({ mid := 1, endpoint := 2, msgstatus := 200 } ∈ s.tables.outboxes ∧
      { mid := 2, endpoint := 2, msgstatus := 200 } ∈ s.tables.outboxes)) = some true := by
  decide +kernel

theorem outbox_delivered_transmitted : ∃ trace final, Run site trace final ∧
    trace.map Transition.Edge.action = transmitted ∧
    final.Delivered { mid := 1, endpoint := 2, msgstatus := 200 } ∧
    final.Delivered { mid := 2, endpoint := 2, msgstatus := 200 } := by
  obtain ⟨final,done,facts⟩ := Option.map_eq_some_iff.mp transmitted_rows
  obtain ⟨trace,run,actions⟩ := Transition.execute_run _ _ _ done
  obtain ⟨run,current⟩ := run.of_guarded
  obtain ⟨first,second⟩ := of_decide_eq_true facts
  have delivered := outbox_delivered site trace final ⟨rfl,rfl⟩ run fun edge member =>
    of_decide_eq_true (current edge member)
  exact ⟨trace,final,run,actions,delivered _ first rfl,delivered _ second rfl⟩

end Exchange

end SipWitch
