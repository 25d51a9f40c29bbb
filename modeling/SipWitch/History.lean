import SipWitch.Archive

/-! Runs of the message slots and of label initialisation. With a file database all of
them share one thread, and the copy of an archive is a call. With a networked one the
authorize thread runs by itself: a message slot can be anywhere between its queries when
a label appears, and the copies wait in the queue of the database thread. -/
namespace SipWitch

open Database Tables

inductive Query where
  | labelled
  | extension (number : Int)

def Query.run (t : Tables) : Query → List EndpointRow
  | .labelled => t.endpoints.select EndpointRow.labelled
  | .extension number => t.endpointsOf number

inductive Composed where
  | event (ev : Event) (sender : Scan)
  | admin (ev : Event) (recipient : Int) (text : UString) (sender : Int) (display : UString)
      (expires : Int)

def Composed.store (d : Database) (sendList : List Int) : Composed → Database
  | .event ev sender => d.storeLocal ev sender sendList
  | .admin ev recipient text sender display expires =>
    d.storeAdmin ev recipient text sender display expires sendList

/-- A message slot between two of its statements. -/
structure Job where
  message : Composed
  queries : List Query := []
  sendList : List Int

structure History where
  database : Database
  job : Option Job := none
  /-- The rows copied or synced for a label that were not acknowledged since, each by its
  endpoint and message. -/
  renewed : List (Int × Int) := []

namespace History

inductive Action where
  /-- `rows` is the order in which a copy reads its source. -/
  | findEndpoint (ev : Event) (rows : List OutboxRow)
  | outbox (rows : List OutboxRow)
  | localMessage (ev : Event)
  | adminMessage (ev : Event) (recipient : Int) (text : UString) (sender : Int)
      (display : UString) (expires : Int)
  | query
  | store
  | messageResponse (mid ep : UString) (status : Int)
  | sendPending (ev : Event) (endpoint : Int)
  | changePending (endpoint : Int)
  | removeDevice (ev : Event) (authuser : UString) (endpoint : Int)
  | cleanupMessages (retention : Int)

variable (h : History)

/-- The first queries of `localMessage`; those of the endpoints addressed follow. -/
def begin (ev : Event) : History :=
  let d := h.database
  let sender := d.scanSender ev
  if 0 < ev.number ∧ sender.count = 0 then { h with database := d.reply ev Sip.forbidden }
  else
    let targets := d.targets ev (ev.toUser.getD [])
    if targets = [] ∧ ev.isLabeled = false then { h with database := d.reply ev Sip.notFound }
    else { h with
      job := some {
        message := .event ev sender
        queries := if d.isLobby targets then [.labelled] else targets.map .extension
        sendList := sender.sendList } }

def beginAdmin (ev : Event) (recipient : Int) (text : UString) (sender : Int)
    (display : UString) (expires : Int) : History :=
  { h with
    job := some {
      message := .admin ev recipient text sender display expires
      sendList := (h.database.tables.endpointsOf recipient).map EndpointRow.endpoint } }

/-- `copyOutbox` or `syncOutbox`. -/
def serve (request : OutboxRequest) (rows : List OutboxRow) : Option History :=
  let d := h.database
  match request with
  | .copy source target =>
    if rows.Perm (d.tables.outboxes.select fun row => row.endpoint = source) then
      let after := d.copyOutbox target rows
      let copied := after.tables.outboxes.rows.filter fun row => row ∉ d.tables.outboxes.rows
      some { h with database := after, renewed := h.renewed ++ copied.map OutboxRow.key }
    else none
  | .sync endpoint =>
    let synced := d.tables.outboxes.select fun row => row.endpoint = endpoint
    some { h with
      database := d.syncOutbox endpoint
      renewed := h.renewed ++ synced.map OutboxRow.key }

def free (next : History) : Option History := if h.job.isSome then none else some next

def step (h : History) : Action → Option History
  | .findEndpoint ev rows =>
    let found := Authorize.findEndpoint h.database ev
    if found.tables.enforced then some { h with database := found }
    else
      match h.job,found.copies with
      | some _,_ => none
      | none,[] => some { h with database := found }
      | none,request :: rest => { h with database := { found with copies := rest } }.serve request rows
  | .outbox rows =>
    match h.job,h.database.copies with
    | none,request :: rest =>
      { h with database := { h.database with copies := rest } }.serve request rows
    | _,_ => none
  | .localMessage ev => h.free (h.begin ev)
  | .adminMessage ev recipient text sender display expires =>
    h.free (h.beginAdmin ev recipient text sender display expires)
  | .query =>
    match h.job with
    | some { message, queries := query :: rest, sendList } => some { h with
        job := some {
          message
          queries := rest
          sendList := (query.run h.database.tables).foldl
            (fun list row => list.insert row.endpoint) sendList } }
    | _ => none
  | .store =>
    match h.job with
    | some { message, queries := [], sendList } =>
      some { h with database := message.store h.database sendList, job := none }
    | _ => none
  | .messageResponse mid ep status => h.free { h with
      database := h.database.messageResponse mid ep status
      renewed := if status = 200 then
          h.renewed.filter fun key => key ≠ (UString.toLongLong ep,UString.toLongLong mid)
        else h.renewed }
  | .sendPending ev endpoint => h.free { h with database := h.database.sendPending ev endpoint }
  | .changePending endpoint => h.free { h with
      database := h.database.changePending endpoint
      renewed := h.renewed.filter fun key => !h.database.tables.outboxes.rows.any fun row =>
        row.key = key && row.msgstatus = 100 && row.endpoint = endpoint }
  | .removeDevice ev authuser endpoint =>
    h.free { h with database := h.database.removeDevice ev authuser endpoint }
  | .cleanupMessages retention =>
    h.free { h with database := h.database.cleanupMessages retention }

abbrev Run := Transition.Run step

/-- The queries of a slot, one after the other. -/
theorem queries_run {message : Composed} (queries : List Query) (sendList : List Int) (h : History)
    (working : h.job = some { message, queries, sendList }) :
    Transition.execute step (List.replicate queries.length .query) h = some { h with
      job := some {
        message
        sendList := queries.foldl (fun list query => (query.run h.database.tables).foldl
          (fun list row => list.insert row.endpoint) list) sendList } } := by
  induction queries generalizing sendList h with
  | nil =>
    obtain ⟨database,job,renewed⟩ := h
    subst working
    rfl
  | cons query rest ih =>
    simp only [List.length_cons,List.replicate_succ,Transition.execute,step,working,
      Option.bind_some]
    exact ih _ _ rfl

/-- Without a label in between, the statements of the slot make up `localMessage`. -/
theorem localMessage_uninterrupted (h : History) (free : h.job = none) (ev : Event) :
    ∃ rest, (rest = [] ∨ ∃ n, rest = List.replicate n .query ++ [.store]) ∧
      Transition.execute step (.localMessage ev :: rest) h =
        some { h with database := h.database.localMessage ev } := by
  have started : h.step (.localMessage ev) = some (h.begin ev) := by
    simp [step,History.free,free]
  simp only [Transition.execute,started,Option.bind_some,Database.localMessage,begin]
  split
  · exact ⟨[],.inl rfl,rfl⟩
  · split
    · exact ⟨[],.inl rfl,rfl⟩
    · generalize h.database.targets ev (ev.toUser.getD []) = targets
      let queries : List Query :=
        if h.database.isLobby targets then [.labelled] else targets.map .extension
      refine ⟨List.replicate queries.length .query ++ [.store],.inr ⟨_,rfl⟩,?_⟩
      rw [Transition.execute_append,queries_run queries _ _ rfl]
      obtain ⟨database,job,renewed⟩ := h
      subst free
      simp only [Option.bind_some,Transition.execute,step,Composed.store,addressed]
      congr 3
      simp only [queries]
      split
      · rfl
      · simp only [List.foldl_map,List.foldl_flatMap]
        rfl

def listed (job : Option Job) : List Int := (job.map Job.sendList).getD []

/-- What holds between two steps. -/
structure Kept (h : History) : Prop where
  archived : Archived h.database.tables h.database.copies (listed h.job)
  direct : h.database.tables.enforced = false → h.database.copies = []
  renewed : Renewed h.database.tables h.renewed

/-- A copy that a networked driver makes is given no absent row behind a present one. -/
def Ordered (h : History) : Action → Prop
  | .outbox rows => ∀ source target rest, h.database.copies = .copy source target :: rest →
    Orderly h.database.tables target rows
  | _ => True

instance (h : History) (a : Action) : Decidable (h.Ordered a) :=
  match a with
  | .outbox rows =>
    match queued : h.database.copies with
    | .copy source target :: rest =>
      decidable_of_iff (Orderly h.database.tables target rows)
        ⟨fun orderly _ _ _ same => by
          rw [queued] at same
          obtain ⟨⟨rfl,rfl⟩,rfl⟩ := (List.cons.inj same).imp_left OutboxRequest.copy.inj
          exact orderly,
          fun ordered => ordered source target rest queued⟩
    | [] | .sync _ :: _ => .isTrue fun _ _ _ same => by simp [queued] at same
  | .findEndpoint .. | .localMessage _ | .adminMessage .. | .query | .store | .messageResponse .. | .sendPending ..
  | .changePending _ | .removeDevice .. | .cleanupMessages _ => .isTrue trivial

variable {h next : History} {d : Database} {ev : Event} {rows : List OutboxRow}

theorem createEndpoint_boxes (d : Database) (ev : Event) (extension : ExtensionRow)
    (endpoint : Option EndpointRow) :
    (Authorize.createEndpoint d ev extension endpoint).tables = d.tables ∧
    (Authorize.createEndpoint d ev extension endpoint).copies = d.copies := by
  simp only [Authorize.createEndpoint]
  repeat' split
  all_goals exact ⟨rfl,rfl⟩

/-- All that finding an endpoint does to the tables is to make it for a new label. -/
theorem findEndpoint_boxes (d : Database) (ev : Event) :
    let found := Authorize.findEndpoint d ev
    (found.tables = d.tables ∧ found.copies = d.copies) ∨
    (∃ endpoint, found.tables = d.tables ∧ found.copies = d.copies ++ [.sync endpoint]) ∨
    (d.tables.hasExtension ev.number ∧ d.tables.endpoint? ev.number ev.label = none ∧
      let t := d.tables.insertEndpoint ev.number ev.label d.clock
      found.tables = t ∧ found.copies = d.copies ++
        [.copy (Authorize.endpointId (t.endpoint? ev.number "NONE"))
          (Authorize.endpointId (t.endpoint? ev.number ev.label))]) := by
  intro found
  simp only [found,Authorize.findEndpoint]
  split
  · exact .inl ⟨rfl,rfl⟩
  · split
    · exact .inl ⟨rfl,rfl⟩
    · split
      · exact .inl ⟨rfl,rfl⟩
      · split
        · exact .inl ⟨rfl,rfl⟩
        · rename_i extension known
          split
          · right
            obtain ⟨tables,copies⟩ := createEndpoint_boxes (Authorize.initializeLabel d ev).1 ev
              extension (Authorize.initializeLabel d ev).2
            rw [tables,copies]
            cases vacant : d.tables.endpoint? ev.number ev.label with
            | some row =>
              exact .inl ⟨row.endpoint,by simp [Authorize.initializeLabel,vacant,Database.request],
                by simp [Authorize.initializeLabel,vacant,Database.request]⟩
            | none =>
              refine .inr ⟨by simp [Tables.hasExtension,known],rfl,?_⟩
              simp [Authorize.initializeLabel,vacant,Database.request,runQuery]
          · split
            · exact .inl ⟨rfl,rfl⟩
            · exact .inl (createEndpoint_boxes _ _ _ _)

theorem sendProfile_boxes (d : Database) (ev : Event) (authuser : UString) (endpoint : Int) :
    SameBoxes d.tables (d.sendProfile ev authuser endpoint).tables ∧
    (d.sendProfile ev authuser endpoint).copies = d.copies := by
  simp only [sendProfile,updateProfile]
  repeat' split
  all_goals exact ⟨⟨rfl,rfl,rfl,rfl⟩,rfl⟩

theorem Kept.found (kept : h.Kept) (ev : Event) :
    Archived (Authorize.findEndpoint h.database ev).tables
      (Authorize.findEndpoint h.database ev).copies (listed h.job) ∧
    Renewed (Authorize.findEndpoint h.database ev).tables h.renewed := by
  rcases findEndpoint_boxes h.database ev with ⟨tables,copies⟩ | ⟨endpoint,tables,copies⟩ |
    ⟨extension,vacant,tables,copies⟩ <;> rw [tables,copies]
  · exact ⟨kept.archived,kept.renewed⟩
  · exact ⟨kept.archived.enqueue _ (by simp),kept.renewed⟩
  · refine ⟨kept.archived.insertEndpoint extension vacant,kept.renewed.narrowed ?_ ?_⟩
    · rw [insertEndpoint_messages]
    · rw [insertEndpoint_outboxes]
      exact fun row member => member

theorem serve_kept {request : OutboxRequest} (idle : h.job = none)
    (archived : Archived h.database.tables (request :: h.database.copies) [])
    (direct : h.database.tables.enforced = false → h.database.copies = [])
    (renewed : Renewed h.database.tables h.renewed)
    (orderly : ∀ source target, request = .copy source target →
      Orderly h.database.tables target rows)
    (served : h.serve request rows = some next) : next.Kept := by
  cases request with
  | copy source target =>
    simp only [serve] at served
    split at served
    · rename_i listing
      obtain rfl := Option.some.inj served
      have copied := archived.copied listing (orderly source target rfl)
      refine ⟨?_,?_,?_⟩
      · simp only [listed,idle]
        exact copied
      · intro files
        exact direct ((copyRows_enforced (t := h.database.tables) rows).symm.trans files)
      · refine renewed.copied rows fun row member => ?_
        have bound := copied.issued _ _ ⟨row,member,rfl⟩
        rwa [copyRows_messages] at bound
    · contradiction
  | sync endpoint =>
    obtain rfl := Option.some.inj served
    refine ⟨?_,direct,?_⟩
    · simp only [listed,idle]
      exact archived.served.setStatus _ _
    · refine renewed.setStatus 0 _ (fun key member => ?_) (fun final => absurd final (by decide))
        fun row known => archived.issued _ _ ⟨row,known,rfl⟩
      refine (List.mem_append.mp member).imp_right fun synced => ⟨by decide,?_⟩
      obtain ⟨row,chosen,key⟩ := List.mem_map.mp synced
      obtain ⟨known,here⟩ := Table.mem_select.mp chosen
      exact ⟨row,known,key,here⟩

theorem Kept.idle (kept : h.Kept) (free : h.job = none) :
    Archived h.database.tables h.database.copies [] := by
  have archived := kept.archived
  rwa [free] at archived

theorem Kept.gathered (kept : h.Kept) (free : h.job = none) (number : Int) :
    Archived h.database.tables h.database.copies ((h.database.tables.endpointsOf number).foldl
      (fun list row => list.insert row.endpoint) []) := by
  refine (kept.idle free).gather _ (fun row member => (Serial.mem_select.mp member).1) ?_
  intro archive device paired member
  have here := of_decide_eq_true (Serial.mem_select.mp member).2
  exact Serial.mem_select.mpr ⟨paired.known,decide_eq_true (paired.extension.trans here)⟩

theorem begin_kept (kept : h.Kept) (free : h.job = none) (ev : Event) : (h.begin ev).Kept := by
  simp only [begin]
  split
  · exact ⟨kept.archived,kept.direct,kept.renewed⟩
  · split
    · exact ⟨kept.archived,kept.direct,kept.renewed⟩
    · have scanned : Archived h.database.tables h.database.copies
          (h.database.scanSender ev).sendList := by
        rw [scanSender_sendList]
        split
        · exact kept.gathered free ev.number
        · exact kept.idle free
      exact ⟨scanned,kept.direct,kept.renewed⟩

theorem beginAdmin_kept (kept : h.Kept) (free : h.job = none) (ev : Event) (recipient : Int)
    (text : UString) (sender : Int) (display : UString) (expires : Int) :
    (h.beginAdmin ev recipient text sender display expires).Kept := by
  refine ⟨?_,kept.direct,kept.renewed⟩
  refine (kept.gathered free recipient).relist (fun endpoint => ?_) ?_
  · rw [mem_foldl_insert]
    exact List.mem_map.trans (by simp)
  · exact h.database.tables.endpoints.ids.sublist (List.filter_sublist.map _)

theorem query_kept {message : Composed} {query : Query} {rest : List Query} {sendList : List Int}
    (kept : h.Kept) (working : h.job = some { message, queries := query :: rest, sendList }) :
    Archived h.database.tables h.database.copies ((query.run h.database.tables).foldl
      (fun list row => list.insert row.endpoint) sendList) := by
  have archived := kept.archived
  rw [working] at archived
  refine archived.gather _ (fun row member => ?_) fun archive device paired member => ?_
  · cases query <;> exact (Serial.mem_select.mp member).1
  · cases query with
    | labelled =>
      have device := (Serial.mem_select.mp member).2
      simp [EndpointRow.labelled,paired.unlabelled] at device
    | extension number =>
      have here := of_decide_eq_true (Serial.mem_select.mp member).2
      exact Serial.mem_select.mpr ⟨paired.known,decide_eq_true (paired.extension.trans here)⟩

/-- A message that is stored is posted to the endpoints that were read for it. -/
theorem store_cases (d : Database) (message : Composed) (sendList : List Int) :
    ((message.store d sendList).tables = d.tables ∧ (message.store d sendList).copies = d.copies) ∨
    ∃ row data boxes, boxes.map Prod.fst = sendList ∧
      Stored d (message.store d sendList) row data boxes := by
  cases message with
  | event ev sender =>
    by_cases none : sendList = []
    · left
      simp only [Composed.store,storeLocal,if_pos none]
      split <;> exact ⟨rfl,rfl⟩
    · refine .inr ⟨_,_,_,?_,storeLocal_stored d ev sender sendList none⟩
      exact (List.map_map ..).trans (List.map_id _)
  | admin ev recipient text sender display expires =>
    refine .inr ⟨_,_,_,?_,storeAdmin_stored d ev recipient text sender display expires sendList⟩
    exact (List.map_map ..).trans (List.map_id _)

theorem store_kept {message : Composed} {sendList : List Int} (kept : h.Kept)
    (working : h.job = some { message, queries := [], sendList }) :
    ({ h with database := message.store h.database sendList, job := none } : History).Kept := by
  have archived := kept.archived
  rw [working] at archived
  change Archived _ _ sendList at archived
  rcases store_cases h.database message sendList with ⟨tables,copies⟩ | ⟨row,data,boxes,same,stored⟩
  · refine ⟨?_,?_,?_⟩ <;> simp only [tables,copies]
    · exact archived.dismiss
    · exact kept.direct
    · exact kept.renewed
  · rw [← same] at archived
    have boxing := archived.boxing stored
    refine ⟨?_,?_,kept.renewed.stored boxing⟩
    · simp only [boxing.copies]
      exact archived.stored stored
    · simp only [boxing.copies,boxing.enforced]
      exact kept.direct

theorem removeDevice_boxes (d : Database) (ev : Event) (authuser : UString) (endpoint : Int) :
    (d.removeDevice ev authuser endpoint).copies = d.copies ∧
    (SameBoxes d.tables (d.removeDevice ev authuser endpoint).tables ∨
      ∃ row, SameBoxes (d.tables.deleteEndpoint row)
        (d.removeDevice ev authuser endpoint).tables) := by
  simp only [removeDevice]
  split
  · exact ⟨rfl,.inl ⟨rfl,rfl,rfl,rfl⟩⟩
  · split
    · exact ⟨rfl,.inl ⟨rfl,rfl,rfl,rfl⟩⟩
    · split
      · exact ⟨rfl,.inl ⟨rfl,rfl,rfl,rfl⟩⟩
      · split
        · exact ⟨rfl,.inl ⟨rfl,rfl,rfl,rfl⟩⟩
        · rename_i row _
          have profile := sendProfile_boxes ((d.emit (.dropEndpoint row.endpoint)).runQuery
            (·.deleteEndpoint row.endpoint)) ev authuser endpoint
          exact ⟨profile.2,.inr ⟨row.endpoint,profile.1⟩⟩

theorem free_some {next' : History} (moved : h.free next = some next') :
    h.job = none ∧ next = next' := by
  simp only [free] at moved
  split at moved
  · contradiction
  · rename_i idle
    rw [Bool.not_eq_true,Option.isSome_eq_false_iff,Option.isNone_iff_eq_none] at idle
    exact ⟨idle,Option.some.inj moved⟩

theorem Kept.boxed_lt (kept : h.Kept) (row : OutboxRow) (known : row ∈ h.database.tables.outboxes) :
    row.mid < h.database.tables.messages.next := kept.archived.issued _ _ ⟨row,known,rfl⟩

/-- A status may be written on rows if the final one strikes them off. -/
theorem Kept.setStatus (kept : h.Kept) (status : Int) (condition : OutboxRow → Bool)
    (renewed : List (Int × Int)) (older : ∀ key ∈ renewed, key ∈ h.renewed)
    (struck : status = 200 → ∀ row ∈ h.database.tables.outboxes, condition row = true →
      row.key ∉ renewed) :
    Archived (h.database.tables.setStatus status condition) h.database.copies (listed h.job) ∧
    Renewed (h.database.tables.setStatus status condition) renewed :=
  ⟨kept.archived.setStatus status condition,kept.renewed.setStatus status condition
    (fun key member => .inl (older key member)) struck kept.boxed_lt⟩

theorem Kept.narrowed {t : Tables} (kept : h.Kept) (free : h.job = none)
    (narrowed : Narrowed h.database.tables t) :
    Archived t h.database.copies (listed h.job) ∧ Renewed t h.renewed := by
  rw [free]
  exact ⟨(kept.idle free).narrowed narrowed,
    kept.renewed.narrowed narrowed.nextMessage narrowed.boxes⟩

theorem findEndpoint_calls (d : Database) (ev : Event) :
    (Authorize.findEndpoint d ev).tables.enforced = d.tables.enforced ∧
    (Authorize.findEndpoint d ev).copies.length ≤ d.copies.length + 1 := by
  rcases findEndpoint_boxes d ev with ⟨tables,copies⟩ | ⟨endpoint,tables,copies⟩ |
    ⟨-,-,tables,copies⟩ <;> rw [tables,copies] <;> simp

theorem sendPending_boxes (d : Database) (ev : Event) (endpoint : Int) :
    SameBoxes (d.tables.setStatus 100 fun row => row.msgstatus ≠ 200 && row.endpoint = endpoint)
      (d.sendPending ev endpoint).tables ∧ (d.sendPending ev endpoint).copies = d.copies := by
  simp only [sendPending]
  split <;> exact ⟨⟨rfl,rfl,rfl,rfl⟩,rfl⟩

/-- A slot whose statements leave the boxes as `t` has them. -/
theorem written_kept {t : Tables} (archived : Archived t h.database.copies (listed h.job))
    (renewed : Renewed t h.renewed) (direct : t.enforced = false → h.database.copies = [])
    (same : SameBoxes t d.tables) (copies : d.copies = h.database.copies) :
    ({ h with database := d } : History).Kept := by
  refine ⟨?_,?_,renewed.same same⟩
  · simp only [copies]
    exact archived.same same
  · simp only [copies,same.enforced]
    exact direct

theorem Kept.findEndpoint {ev : Event} {rows : List OutboxRow} (kept : h.Kept)
    (moved : h.step (.findEndpoint ev rows) = some next) : next.Kept := by
  obtain ⟨archived,renewed⟩ := kept.found ev
  simp only [step] at moved
  split at moved
  · rename_i enforced
    obtain rfl := Option.some.inj moved
    exact ⟨archived,fun files => by rw [enforced] at files; contradiction,renewed⟩
  · rename_i files
    split at moved
    · contradiction
    · rename_i idle none
      obtain rfl := Option.some.inj moved
      exact ⟨archived,fun _ => none,renewed⟩
    · rename_i request rest idle queued
      rw [queued,idle] at archived
      obtain ⟨enforced,called⟩ := findEndpoint_calls h.database ev
      rw [Bool.not_eq_true] at files
      refine serve_kept (h := { h with database :=
        { Authorize.findEndpoint h.database ev with copies := rest } }) idle archived
        (fun _ => ?_) renewed (fun _ _ _ on => absurd (files.symm.trans on) (by decide)) moved
      rw [kept.direct (enforced ▸ files),queued] at called
      exact List.eq_nil_of_length_eq_zero (Nat.le_zero.mp (Nat.le_of_succ_le_succ called))

theorem Kept.messageResponse {mid ep : UString} {status : Int} (kept : h.Kept)
    (moved : h.step (.messageResponse mid ep status) = some next) : next.Kept := by
  obtain ⟨free,rfl⟩ := free_some moved
  have written := kept.setStatus status (fun row => row.mid = UString.toLongLong mid &&
    row.endpoint = UString.toLongLong ep) (if status = 200 then
      h.renewed.filter fun key => key ≠ (UString.toLongLong ep,UString.toLongLong mid)
      else h.renewed) ?_ ?_
  · exact ⟨written.1,kept.direct,written.2⟩
  · intro key member
    split at member
    · exact (List.mem_filter.mp member).1
    · exact member
  · intro final row _ here member
    rw [if_pos final] at member
    simp only [Bool.and_eq_true,decide_eq_true_eq] at here
    exact of_decide_eq_true (List.mem_filter.mp member).2 (Prod.ext here.2 here.1)

theorem Kept.changePending {endpoint : Int} (kept : h.Kept)
    (moved : h.step (.changePending endpoint) = some next) : next.Kept := by
  obtain ⟨free,rfl⟩ := free_some moved
  have written := kept.setStatus 200 (fun row => row.msgstatus = 100 && row.endpoint = endpoint)
    (h.renewed.filter fun key => !h.database.tables.outboxes.rows.any fun row =>
      row.key = key && row.msgstatus = 100 && row.endpoint = endpoint)
    (fun key member => (List.mem_filter.mp member).1) ?_
  · exact ⟨written.1,kept.direct,written.2⟩
  · intro _ row known here member
    have absent := (List.mem_filter.mp member).2
    simp only [Bool.and_eq_true,decide_eq_true_eq] at here
    simp only [Bool.not_eq_true',List.any_eq_false,Bool.and_eq_true,decide_eq_true_eq] at absent
    exact absent row known ⟨⟨rfl,here.1⟩,here.2⟩

theorem Kept.removeDevice {ev : Event} {authuser : UString} {endpoint : Int} (kept : h.Kept)
    (moved : h.step (.removeDevice ev authuser endpoint) = some next) : next.Kept := by
  obtain ⟨free,rfl⟩ := free_some moved
  obtain ⟨copies,same | ⟨row,same⟩⟩ := removeDevice_boxes h.database ev authuser endpoint
  · exact written_kept kept.archived kept.renewed kept.direct same copies
  · have narrowed := deleteEndpoint_narrowed kept.archived.parents row
    obtain ⟨archived,renewed⟩ := kept.narrowed free narrowed
    refine written_kept archived renewed (fun files => ?_) same copies
    exact kept.direct (narrowed.enforced.symm.trans files)

theorem step_kept {a : Action} (kept : h.Kept) (ordered : h.Ordered a)
    (moved : h.step a = some next) : next.Kept := by
  cases a with
  | findEndpoint ev rows => exact kept.findEndpoint moved
  | outbox rows =>
    simp only [step] at moved
    split at moved
    · rename_i request rest idle queued
      have archived := kept.idle idle
      rw [queued] at archived
      refine serve_kept (h := { h with database := { h.database with copies := rest } }) idle
        archived (fun files => ?_) kept.renewed
        (fun source target same => ordered source target rest (same ▸ queued)) moved
      have none := kept.direct files
      rw [queued] at none
      contradiction
    · contradiction
  | localMessage ev =>
    obtain ⟨free,rfl⟩ := free_some moved
    exact begin_kept kept free ev
  | adminMessage ev recipient text sender display expires =>
    obtain ⟨free,rfl⟩ := free_some moved
    exact beginAdmin_kept kept free ev recipient text sender display expires
  | query =>
    simp only [step] at moved
    split at moved
    · rename_i working
      have gathered := query_kept kept working
      obtain rfl := Option.some.inj moved
      exact ⟨gathered,kept.direct,kept.renewed⟩
    · contradiction
  | store =>
    simp only [step] at moved
    split at moved
    · rename_i working
      obtain rfl := Option.some.inj moved
      exact store_kept kept working
    · contradiction
  | messageResponse mid ep status => exact kept.messageResponse moved
  | sendPending ev endpoint =>
    obtain ⟨free,rfl⟩ := free_some moved
    have written := kept.setStatus 100 (fun row => row.msgstatus ≠ 200 && row.endpoint = endpoint)
      h.renewed (fun _ member => member) (fun final => absurd final (by decide))
    obtain ⟨same,copies⟩ := sendPending_boxes h.database ev endpoint
    exact written_kept written.1 written.2 kept.direct same copies
  | changePending endpoint => exact kept.changePending moved
  | removeDevice ev authuser endpoint => exact kept.removeDevice moved
  | cleanupMessages retention =>
    obtain ⟨free,rfl⟩ := free_some moved
    have narrowed := deleteMessages_narrowed kept.archived.parents
      (h.database.clock - retention * day)
    obtain ⟨archived,renewed⟩ := kept.narrowed free narrowed
    exact ⟨archived,fun files => kept.direct (narrowed.enforced.symm.trans files),renewed⟩

/-- What one's devices have of the archive, and of what they were given. -/
structure Intact (h : History) : Prop where
  complete : (∀ source target, .copy source target ∉ h.database.copies) →
    ∀ archive device, Paired h.database.tables archive device →
      ∀ mid, Boxed h.database.tables archive.endpoint mid →
        Boxed h.database.tables device.endpoint mid
  once : (h.database.tables.outboxes.rows.map OutboxRow.key).Nodup
  pending : ∀ row ∈ h.database.tables.outboxes, row.key ∈ h.renewed → row.msgstatus ≠ 200

/-- A database without messages, and nothing in progress. -/
structure Fresh (h : History) : Prop where
  outboxes : h.database.tables.outboxes = default
  copies : h.database.copies = []
  job : h.job = none
  renewed : h.renewed = []

theorem Fresh.kept (fresh : h.Fresh) : h.Kept := by
  have empty {endpoint mid : Int} : ¬Boxed h.database.tables endpoint mid := by
    rintro ⟨row,member,-⟩
    rw [fresh.outboxes] at member
    exact Table.not_mem_empty member
  refine ⟨?_,fun _ => fresh.copies,?_⟩
  · rw [fresh.copies,fresh.job]
    refine ⟨?_,?_,?_,?_,List.nodup_nil,?_,?_,?_⟩
    · exact fun _ _ box => absurd box empty
    · exact fun _ _ box => absurd box empty
    · exact fun _ _ _ box => absurd box empty
    · exact fun _ member => absurd member List.not_mem_nil
    · exact fun _ _ _ => .inr fun _ box => absurd box empty
    · exact fun _ _ _ => .inr fun member => absurd member List.not_mem_nil
    · exact fun _ _ member => absurd member List.not_mem_nil
  · rw [fresh.renewed]
    exact ⟨fun _ member => absurd member List.not_mem_nil,
      fun _ _ member => absurd member List.not_mem_nil⟩

theorem Kept.intact (kept : h.Kept) : h.Intact where
  complete done archive device paired :=
    (kept.archived.covered archive device paired).resolve_left (done _ _)
  once := h.database.tables.outboxes.distinct
  pending := kept.renewed.pending

/-- In every run from an empty outbox, with a file database or a networked one, devices
have what their archives have whenever no copy is outstanding, as long as no copy over a
network is given an absent row behind one that is there already. -/
theorem histories_intact (s : History) (trace final) (fresh : s.Fresh) (run : Run s trace final)
    (ordered : ∀ edge ∈ trace, edge.source.Ordered edge.action) : final.Intact :=
  (run.invariant_of Kept Ordered (fun _ _ _ => step_kept) fresh.kept ordered).intact

def site (enforced : Bool) : History where
  database := {
    tables := { Site.tables with
      endpoints := { table := { rows := [{ endpoint := 1, extnbr := 101 }] }, next := 2 }
      enforced } }

def label : Event := { Site.register with initialization := UString.ascii "label" }

def text : Event := { Site.request "MESSAGE" with
  number := -1
  label := UString.ascii "NONE"
  toUser := some (UString.ascii "101")
  contentType := UString.ascii "text/plain"
  body := UString.ascii "hi" }

/-- A text arrives before the device is there, another one before its copy is made, and
the driver returns the newer row first. -/
def overtaken : List Action := [.localMessage text,.query,.store,.findEndpoint label [],
  .localMessage text,.query,.store,
  .outbox [{ mid := 2, endpoint := 1 },{ mid := 1, endpoint := 1 }]]

theorem overtaken_boxes : (Transition.execute step overtaken (site true)).map (fun h =>
    decide (h.database.copies = [] ∧
      { endpoint := 1, extnbr := 101 } ∈ h.database.tables.endpoints.rows ∧
      { endpoint := 2, extnbr := 101, label := UString.ascii "desk" } ∈
        h.database.tables.endpoints.rows ∧
      { mid := 1, endpoint := 1 } ∈ h.database.tables.outboxes.rows ∧
      (2,1) ∉ h.database.tables.outboxes.rows.map OutboxRow.key)) = some true := by
  decide +kernel

/-- The device never gets the older text. -/
theorem overtaken_copy : ¬∀ (s : History) (trace final), s.Fresh → Run s trace final →
    final.Intact := by
  intro claim
  obtain ⟨final,done,facts⟩ := Option.map_eq_some_iff.mp overtaken_boxes
  obtain ⟨trace,run,-⟩ := Transition.execute_run _ _ _ done
  obtain ⟨copies,archive,device,boxed,absent⟩ := of_decide_eq_true facts
  have intact := claim (site true) trace final ⟨rfl,rfl,rfl,rfl⟩ run
  obtain ⟨row,known,key⟩ := intact.complete (by simp [copies]) _ _
    ⟨archive,device,rfl,rfl,rfl⟩ 1 ⟨_,boxed,rfl⟩
  exact absent (List.mem_map.mpr ⟨row,known,key⟩)

def filed : List Action := [.localMessage text,.query,.store,
  .findEndpoint label [{ mid := 1, endpoint := 1 }],.localMessage text,.query,.store]

def networked : List Action := [.localMessage text,.query,.store,.findEndpoint label [],
  .localMessage text,.query,.store,
  .outbox [{ mid := 1, endpoint := 1 },{ mid := 2, endpoint := 1 }]]

theorem ordered_run (enforced : Bool) : ∃ trace final, Run (site enforced) trace final ∧
    trace.map Transition.Edge.action = (if enforced then networked else filed) ∧
    (2,1) ∈ final.database.tables.outboxes.rows.map OutboxRow.key ∧
    ∀ edge ∈ trace, edge.source.Ordered edge.action := by
  have ran : (Transition.execute (Transition.guarded (fun h a => decide (h.Ordered a)) step)
      (if enforced then networked else filed) (site enforced)).map (fun h =>
        decide ((2,1) ∈ h.database.tables.outboxes.rows.map OutboxRow.key)) = some true := by
    cases enforced <;> decide +kernel
  obtain ⟨final,done,copied⟩ := Option.map_eq_some_iff.mp ran
  obtain ⟨trace,run,actions⟩ := Transition.execute_run _ _ _ done
  obtain ⟨run,ordered⟩ := run.of_guarded
  exact ⟨trace,final,run,actions,of_decide_eq_true copied,fun edge member =>
    of_decide_eq_true (ordered edge member)⟩

theorem histories_intact_filed : (∃ trace final, Run (site false) trace final ∧
    trace.map Transition.Edge.action = filed ∧ (2,1) ∈ final.database.tables.outboxes.rows.map OutboxRow.key ∧
      final.Intact) ∧
    ∃ trace final, Run (site true) trace final ∧ trace.map Transition.Edge.action = networked ∧
      (2,1) ∈ final.database.tables.outboxes.rows.map OutboxRow.key ∧ final.Intact := by
  constructor
  · obtain ⟨trace,final,run,actions,copied,ordered⟩ := ordered_run false
    exact ⟨trace,final,run,actions,copied,histories_intact (site false) trace final ⟨rfl,rfl,rfl,rfl⟩ run ordered⟩
  · obtain ⟨trace,final,run,actions,copied,ordered⟩ := ordered_run true
    exact ⟨trace,final,run,actions,copied,histories_intact (site true) trace final ⟨rfl,rfl,rfl,rfl⟩ run ordered⟩

end History

end SipWitch
