import SipWitch.Server

/-! The fan-out of a local message: from the sender and the address to the set of
endpoints that get a row of the outbox, and from there to what is transmitted. -/
namespace SipWitch

open Tables

namespace Database

variable {d : Database} {ev : Event} {recipient : UString} {mid : Int} {data : MessageData}
  {box : Int × Int} {boxes : List (Int × Int)}

def boxRow (mid : Int) (box : Int × Int) : OutboxRow :=
  { mid, endpoint := box.1, msgstatus := box.2 }

/-- What a box that is not done is signalled with. -/
def notices (data : MessageData) (boxes : List (Int × Int)) : List Notice :=
  (boxes.filter fun box => box.2 ≠ (Sip.ok : Int)).map fun box => .sendMessage box.1 data

/-- The posting of a message has put a row behind the others for each of its boxes, and
has signalled those that are not done. -/
structure Posted (d posted : Database) (mid : Int) (data : MessageData)
    (boxes : List (Int × Int)) : Prop where
  rows : posted.tables.outboxes.rows = d.tables.outboxes.rows ++ boxes.map (boxRow mid)
  emitted : posted.emitted = d.emitted ++ notices data boxes
  others : ∀ outboxes, { posted.tables with outboxes } = { d.tables with outboxes }
  copies : posted.copies = d.copies

/-- The message of the boxes is stored, each has its endpoint, and none has a row. -/
structure Postable (t : Tables) (mid : Int) (boxes : List (Int × Int)) : Prop where
  message : t.hasMessage mid
  endpoints : ∀ box ∈ boxes, t.hasEndpoint box.1
  unused : ∀ row ∈ t.outboxes, ∀ box ∈ boxes, row.key ≠ (box.1,mid)
  apart : (boxes.map Prod.fst).Nodup

theorem post_tables (data : MessageData) (message : d.tables.hasMessage mid) (endpoint : d.tables.hasEndpoint box.1) :
    (d.post mid data box).tables =
      { d.tables with outboxes := d.tables.outboxes.insert (boxRow mid box) } := by
  have accepted : d.tables.accepts (d.tables.hasMessage mid && d.tables.hasEndpoint box.1) := by
    simp [Tables.accepts,message,endpoint]
  simp only [post,runQuery,Tables.insertOutbox,accepted,if_true,boxRow]
  split <;> rfl

theorem post_emitted : (d.post mid data box).emitted = d.emitted ++ notices data [box] := by
  by_cases done : box.2 = Sip.ok <;> simp [post,notices,done,runQuery,emit]

theorem post_copies : (d.post mid data box).copies = d.copies := by
  simp only [post,runQuery]
  split <;> rfl

theorem Postable.tail (postable : Postable d.tables mid (box :: boxes)) :
    Postable (d.post mid data box).tables mid boxes := by
  have endpoint := postable.endpoints box List.mem_cons_self
  obtain ⟨first,apart⟩ := List.nodup_cons.mp postable.apart
  rw [post_tables data postable.message endpoint]
  refine ⟨postable.message,fun other member => ?_,fun row known other member => ?_,apart⟩
  · exact postable.endpoints other (List.mem_cons_of_mem _ member)
  · rcases Table.mem_insert.mp known with old | ⟨-,rfl⟩
    · exact postable.unused row old other (List.mem_cons_of_mem _ member)
    · intro same
      exact first (List.mem_map.mpr ⟨other,member,(congrArg Prod.fst same).symm⟩)

theorem foldl_posted (data : MessageData) (postable : Postable d.tables mid boxes) :
    Posted d (boxes.foldl (fun d box => d.post mid data box) d) mid data boxes := by
  induction boxes generalizing d with
  | nil => exact ⟨by simp,by simp [notices],fun _ => rfl,rfl⟩
  | cons box rest ih =>
    have endpoint := postable.endpoints box List.mem_cons_self
    have tables := post_tables data postable.message endpoint
    have admitted : d.tables.outboxes.Admits (boxRow mid box) := Table.admits_iff.mpr
      fun row known => postable.unused row known box List.mem_cons_self
    obtain ⟨rows,emitted,others,copies⟩ := ih (d := d.post mid data box) postable.tail
    rw [List.foldl_cons]
    refine ⟨?_,?_,fun outboxes => ?_,copies.trans post_copies⟩
    · rw [rows,tables,Table.rows_insert admitted,List.append_assoc]
      rfl
    · rw [emitted,post_emitted,List.append_assoc,notices,notices,← List.map_append,
        ← List.filter_append]
      rfl
    · rw [others,tables]

/-- A list that is collected like the set it stands for. -/
theorem mem_foldl_insert {R : Type} (id : R → Int) (rows : List R) (list : List Int) (n : Int) :
    n ∈ rows.foldl (fun list row => list.insert (id row)) list ↔
      n ∈ list ∨ ∃ row ∈ rows, id row = n := by
  induction rows generalizing list with
  | nil => simp
  | cons row rest ih =>
    rw [List.foldl_cons,ih,List.mem_insert_iff,List.exists_mem_cons_iff]
    tauto

theorem nodup_foldl_insert {R : Type} (id : R → Int) (rows : List R) (list : List Int)
    (nodup : list.Nodup) : (rows.foldl (fun list row => list.insert (id row)) list).Nodup := by
  induction rows generalizing list with
  | nil => exact nodup
  | cons row rest ih => exact ih _ nodup.insert

section Sender

/-- An endpoint of the sender that is not sent its own message: the device itself, and
the archive of its extension. -/
def Own (ev : Event) (row : EndpointRow) : Prop :=
  ev.isLabeled ∧ (row.key = ev.key ∨ row.key = (ev.number,UString.ascii "NONE"))

/-- The loop keeps the last row it meets of a kind; the first one of that kind is the
only one. -/
theorem scan_last {field : Scan → Int} {kind : EndpointRow → Bool}
    (step : ∀ acc row, field (scan ev acc row) = if kind row then row.endpoint else field acc)
    (rows : List EndpointRow) (acc : Scan) :
    (∃ row ∈ rows, kind row ∧ field (rows.foldl (scan ev) acc) = row.endpoint) ∨
    (∀ row ∈ rows, kind row = false) ∧ field (rows.foldl (scan ev) acc) = field acc := by
  induction rows generalizing acc with
  | nil => exact .inr ⟨by simp,rfl⟩
  | cons row rest ih =>
    rw [List.foldl_cons]
    rcases ih (scan ev acc row) with ⟨later,member,fits,kept⟩ | ⟨none,kept⟩
    · exact .inl ⟨later,List.mem_cons_of_mem _ member,fits,kept⟩
    · by_cases fits : kind row = true
      · exact .inl ⟨row,List.mem_cons_self,fits,by rw [kept,step,if_pos fits]⟩
      · rw [Bool.not_eq_true] at fits
        refine .inr ⟨fun other member => ?_,by rw [kept,step,fits]; rfl⟩
        rcases List.mem_cons.mp member with rfl | later
        · exact fits
        · exact none other later

theorem scan_iff {field : Scan → Int} {kind : EndpointRow → Bool}
    (step : ∀ acc row, field (scan ev acc row) = if kind row then row.endpoint else field acc)
    (absent : field {} = -1) (single : ∀ row row', kind row → kind row' → row.label = row'.label)
    {row : EndpointRow} (known : row ∈ d.tables.endpoints) (number : Int) :
    row.endpoint = field ((d.tables.endpointsOf number).foldl (scan ev) {}) ↔
      row.extnbr = number ∧ kind row := by
  have listed (other : EndpointRow) : other ∈ d.tables.endpointsOf number ↔
      other ∈ d.tables.endpoints ∧ other.extnbr = number := by
    simp [Tables.endpointsOf]
  rcases scan_last step (d.tables.endpointsOf number) {} with ⟨other,member,fits,kept⟩ | ⟨none,kept⟩
  · obtain ⟨stored,extension⟩ := (listed other).mp member
    rw [kept]
    constructor
    · intro same
      rw [Serial.unique_id known stored same]
      exact ⟨extension,fits⟩
    · rintro ⟨here,alike⟩
      have same : row.key = other.key :=
        Prod.ext (here.trans extension.symm) (single row other alike fits)
      rw [Serial.unique_key known stored same]
  · have positive := (d.tables.endpoints.issued row known).1
    rw [kept,absent]
    constructor
    · intro same
      omega
    · rintro ⟨here,alike⟩
      rw [none row ((listed row).mpr ⟨known,here⟩)] at alike
      contradiction

theorem scan_self (acc : Scan) (row : EndpointRow) : (scan ev acc row).self =
    if ev.isLabeled && row.label = ev.label then row.endpoint else acc.self := by
  simp only [scan]
  split
  · rfl
  · split
    · rfl
    · split <;> rfl

theorem scan_none (acc : Scan) (row : EndpointRow) : (scan ev acc row).none =
    if ev.isLabeled && row.label ≠ ev.label && row.label = "NONE" then row.endpoint
    else acc.none := by
  simp only [scan]
  split
  · simp_all
  · split
    · simp_all
    · split <;> simp_all

theorem scan_sendList (acc : Scan) (row : EndpointRow) : (scan ev acc row).sendList =
    if ev.isLabeled then acc.sendList.insert row.endpoint else acc.sendList := by
  simp only [scan]
  split
  · simp_all
  · split
    · simp_all
    · split <;> simp_all

theorem label_of_labeled (labelled : ev.isLabeled = true) :
    0 < ev.number ∧ ev.label ≠ UString.ascii "NONE" := by
  simpa [Event.isLabeled] using labelled

theorem own_iff {row : EndpointRow} (known : row ∈ d.tables.endpoints) :
    (row.endpoint = (d.scanSender ev).self ∨ row.endpoint = (d.scanSender ev).none) ↔
      Own ev row := by
  have positive := (d.tables.endpoints.issued row known).1
  simp only [scanSender]
  split
  · rw [scan_iff scan_self rfl (by simp_all) known,
      scan_iff scan_none rfl (by simp_all) known,Own]
    simp only [EndpointRow.key,Event.key,Prod.mk.injEq,Bool.and_eq_true,decide_eq_true_eq]
    constructor
    · rintro (⟨extension,labelled,label⟩ | ⟨extension,⟨labelled,-⟩,label⟩)
      · exact ⟨labelled,.inl ⟨extension,label⟩⟩
      · exact ⟨labelled,.inr ⟨extension,label⟩⟩
    · rintro ⟨labelled,⟨extension,label⟩ | ⟨extension,label⟩⟩
      · exact .inl ⟨extension,labelled,label⟩
      · refine .inr ⟨extension,⟨labelled,?_⟩,label⟩
        rw [label]
        exact (label_of_labeled labelled).2.symm
  · rename_i remote
    constructor
    · rintro (same | same) <;> change row.endpoint = -1 at same <;> omega
    · rintro ⟨labelled,-⟩
      exact absurd (label_of_labeled labelled).1 remote

theorem foldl_scan_sendList (rows : List EndpointRow) (acc : Scan) :
    (rows.foldl (scan ev) acc).sendList = if ev.isLabeled then
      rows.foldl (fun list row => list.insert row.endpoint) acc.sendList else acc.sendList := by
  induction rows generalizing acc with
  | nil => simp
  | cons row rest ih =>
    rw [List.foldl_cons,ih,scan_sendList]
    split <;> simp_all

theorem scanSender_sendList : (d.scanSender ev).sendList = if ev.isLabeled then
    (d.tables.endpointsOf ev.number).foldl (fun list row => list.insert row.endpoint) []
    else [] := by
  simp only [scanSender]
  split
  · rw [foldl_scan_sendList]
  · rename_i remote
    have unlabelled : ev.isLabeled = false := by simp [Event.isLabeled,remote]
    simp [unlabelled]

end Sender

def IsGroup (t : Tables) (number : Int) : Prop := ∃ row ∈ t.groups, row.grpnbr = number

/-- The extensions that an address stands for: those of a group but the sender's, the
number itself, or those of the account of that name. -/
def Addressees (t : Tables) (ev : Event) (recipient : UString) (n : Int) : Prop :=
  match UString.isNumber recipient with
  | true =>
    let number := UString.toInt recipient
    IsGroup t number ∧ n ≠ ev.number ∧ (∃ row ∈ t.groups, row.key = (number,n)) ∨
      ¬IsGroup t number ∧ n = number
  | false => ∃ row ∈ t.extensions, row.authname = UString.fromUtf8 recipient ∧ row.extnbr = n

/-- The address is that of the operators, who share it with everybody. -/
def Lobby (d : Database) (ev : Event) (recipient : UString) : Prop :=
  (∀ n, Addressees d.tables ev recipient n ↔ n = 0) ∧ d.operatorPolicy = "public"

/-- The endpoints that a message is stored for. -/
def Recipients (d : Database) (ev : Event) (recipient : UString) (row : EndpointRow) : Prop :=
  (Lobby d ev recipient ∧ row.labelled = true ∨
    ¬Lobby d ev recipient ∧ Addressees d.tables ev recipient row.extnbr) ∨
  ev.isLabeled ∧ row.extnbr = ev.number

theorem mem_targets (d : Database) (ev : Event) (recipient : UString) (n : Int) :
    n ∈ d.targets ev recipient ↔ Addressees d.tables ev recipient n := by
  cases numeric : UString.isNumber recipient with
  | true =>
    have none : (d.tables.groups.select fun row => row.grpnbr = UString.toInt recipient) = [] ↔
        ¬IsGroup d.tables (UString.toInt recipient) := by
      simp [IsGroup,List.eq_nil_iff_forall_not_mem]
    by_cases group : IsGroup d.tables (UString.toInt recipient)
    · have some := mt none.mp (not_not.mpr group)
      simp only [targets,Addressees,numeric,if_true,if_neg some,group]
      simp only [List.mem_filter,List.mem_map,Table.mem_select,GroupRow.key,Prod.mk.injEq]
      grind
    · simp [targets,Addressees,numeric,none.mpr group,group]
  | false => simp [targets,Addressees,numeric,and_assoc]

theorem nodup_targets (d : Database) (ev : Event) (recipient : UString) :
    (d.targets ev recipient).Nodup := by
  simp only [targets]
  split
  · split
    · exact List.nodup_singleton _
    · refine List.Nodup.filter _ (List.Nodup.map_on ?_ (List.Nodup.filter _ ?_))
      · intro row member other listed same
        rw [Table.mem_select,decide_eq_true_eq] at member listed
        exact Table.unique member.1 listed.1 (Prod.ext (member.2.trans listed.2.symm) same)
      · exact d.tables.groups.distinct.of_map
  · exact List.Nodup.map_on (fun row member other listed same => Table.unique
      (Table.mem_select.mp member).1 (Table.mem_select.mp listed).1 same)
      (List.Nodup.filter _ d.tables.extensions.distinct.of_map)

/-- The list is that of the lobby when the set is. -/
theorem targets_lobby (d : Database) (ev : Event) (recipient : UString) :
    d.targets ev recipient = [0] ↔ ∀ n, Addressees d.tables ev recipient n ↔ n = 0 := by
  constructor
  · intro lobby n
    rw [← mem_targets,lobby,List.mem_singleton]
  · intro lobby
    refine List.perm_singleton.mp ((List.perm_ext_iff_of_nodup (nodup_targets d ev recipient)
      (List.nodup_singleton 0)).mpr fun n => ?_)
    rw [mem_targets,lobby,List.mem_singleton]

theorem isLobby_iff : d.isLobby (d.targets ev recipient) = true ↔ Lobby d ev recipient := by
  simp [isLobby,Lobby,targets_lobby]

theorem mem_addressed (row : EndpointRow) (known : row ∈ d.tables.endpoints) :
    row ∈ d.addressed (d.targets ev recipient) ↔
      (Lobby d ev recipient ∧ row.labelled = true ∨
        ¬Lobby d ev recipient ∧ Addressees d.tables ev recipient row.extnbr) := by
  by_cases lobby : Lobby d ev recipient
  · simp [addressed,isLobby_iff.mpr lobby,lobby,known]
  · have private_ : d.isLobby (d.targets ev recipient) = false :=
      Bool.eq_false_iff.mpr (mt isLobby_iff.mp lobby)
    simp [addressed,private_,lobby,known,Tables.endpointsOf,← mem_targets]

theorem addressed_known (targets : List Int) (row : EndpointRow)
    (member : row ∈ d.addressed targets) : row ∈ d.tables.endpoints := by
  simp only [addressed] at member
  split at member
  · exact (Serial.mem_select.mp member).1
  · obtain ⟨_,_,listed⟩ := List.mem_flatMap.mp member
    exact (Serial.mem_select.mp listed).1

def sendList (d : Database) (ev : Event) : List Int :=
  (d.addressed (d.targets ev (ev.toUser.getD []))).foldl
    (fun list row => list.insert row.endpoint) (d.scanSender ev).sendList

theorem mem_sendList (endpoint : Int) : endpoint ∈ d.sendList ev ↔
    ∃ row ∈ d.tables.endpoints, row.endpoint = endpoint ∧
      Recipients d ev (ev.toUser.getD []) row := by
  rw [sendList,mem_foldl_insert,scanSender_sendList]
  constructor
  · rintro (own | ⟨row,member,same⟩)
    · split at own
      · rename_i labelled
        rw [mem_foldl_insert] at own
        obtain ⟨row,member,same⟩ := own.resolve_left List.not_mem_nil
        have listed := Serial.mem_select.mp member
        exact ⟨row,listed.1,same,.inr ⟨labelled,of_decide_eq_true listed.2⟩⟩
      · exact absurd own List.not_mem_nil
    · have known := addressed_known _ row member
      exact ⟨row,known,same,.inl ((mem_addressed row known).mp member)⟩
  · rintro ⟨row,known,same,addressed | ⟨labelled,extension⟩⟩
    · exact .inr ⟨row,(mem_addressed row known).mpr addressed,same⟩
    · rw [if_pos labelled,mem_foldl_insert]
      exact .inl (.inr ⟨row,Serial.mem_select.mpr ⟨known,decide_eq_true extension⟩,same⟩)

theorem nodup_sendList : (d.sendList ev).Nodup := by
  refine nodup_foldl_insert _ _ _ ?_
  rw [scanSender_sendList]
  split
  · exact nodup_foldl_insert _ _ _ List.nodup_nil
  · exact List.nodup_nil

/-- The boxes of a local message: the sender's own ones are done already. -/
def postings (d : Database) (ev : Event) : List (Int × Int) :=
  (d.sendList ev).map fun endpoint => (endpoint,
    if endpoint = (d.scanSender ev).self ∨ endpoint = (d.scanSender ev).none then (Sip.ok : Int)
    else 0)

theorem mem_postings : box ∈ d.postings ev ↔ ∃ row ∈ d.tables.endpoints,
    Recipients d ev (ev.toUser.getD []) row ∧ box.1 = row.endpoint ∧
    (Own ev row ∧ box.2 = Sip.ok ∨ ¬Own ev row ∧ box.2 = 0) := by
  simp only [postings,List.mem_map,mem_sendList]
  constructor
  · rintro ⟨endpoint,⟨row,known,rfl,listed⟩,rfl⟩
    refine ⟨row,known,listed,rfl,?_⟩
    by_cases own : Own ev row
    · exact .inl ⟨own,if_pos ((own_iff known).mpr own)⟩
    · exact .inr ⟨own,if_neg (mt (own_iff known).mp own)⟩
  · rintro ⟨row,known,listed,endpoint,⟨own,done⟩ | ⟨own,pending⟩⟩
    · refine ⟨row.endpoint,⟨row,known,rfl,listed⟩,Prod.ext endpoint.symm ?_⟩
      exact (if_pos ((own_iff known).mpr own)).trans done.symm
    · refine ⟨row.endpoint,⟨row,known,rfl,listed⟩,Prod.ext endpoint.symm ?_⟩
      exact (if_neg (mt (own_iff known).mp own)).trans pending.symm

theorem postings_apart : ((d.postings ev).map Prod.fst).Nodup := by
  rw [postings,List.map_map]
  exact List.Nodup.map (fun _ _ same => same) nodup_sendList

theorem foldl_emitted (d : Database) : (boxes.foldl (fun d box => d.post mid data box) d).emitted =
    d.emitted ++ notices data boxes := by
  induction boxes generalizing d with
  | nil => simp [notices]
  | cons box rest ih =>
    rw [List.foldl_cons,ih,post_emitted,List.append_assoc,notices,notices,← List.map_append,
      ← List.filter_append]
    rfl

theorem foldl_messages (d : Database) :
    (boxes.foldl (fun d box => d.post mid data box) d).tables.messages = d.tables.messages := by
  induction boxes generalizing d with
  | nil => rfl
  | cons box rest ih =>
    rw [List.foldl_cons,ih]
    simp only [post,runQuery,Tables.insertOutbox,emit]
    split <;> split <;> rfl

/-- What `after` has more than `d` is a message that was stored and posted to boxes. -/
def Stored (d after : Database) (row : MessageRow) (data : MessageData)
    (boxes : List (Int × Int)) : Prop :=
  ∃ ready : Database,
    after = boxes.foldl (fun d box => d.post row.mid data box) ready ∧
    row.mid = d.tables.messages.next ∧ ready.tables = d.tables.insertMessage row ∧
    ready.emitted = d.emitted ∧ ready.copies = d.copies

def boxesOf (sender : Scan) (endpoints : List Int) : List (Int × Int) :=
  endpoints.map fun endpoint =>
    (endpoint,if endpoint = sender.self ∨ endpoint = sender.none then (Sip.ok : Int) else 0)

theorem storeLocal_stored (d : Database) (ev : Event) (sender : Scan) (endpoints : List Int)
    (some : endpoints ≠ []) :
    let row := d.storedMessage ev (ev.toUser.getD [])
    Stored d (d.storeLocal ev sender endpoints) row (messageData ev row)
      (boxesOf sender endpoints) := by
  intro row
  simp only [storeLocal,if_neg some]
  refine ⟨_,rfl,rfl,?_⟩
  split <;> exact ⟨rfl,rfl,rfl⟩

theorem storeAdmin_stored (d : Database) (ev : Event) (recipient : Int) (text : UString)
    (sender : Int) (display : UString) (expires : Int) (endpoints : List Int) :
    let row := d.adminRow ev recipient text sender display expires
    Stored d (d.storeAdmin ev recipient text sender display expires endpoints) row
      (adminData ev recipient expires row) (endpoints.map fun endpoint => (endpoint,0)) :=
  ⟨_,rfl,rfl,rfl,rfl,rfl⟩

/-- A local message is stored and posted to its boxes, or nothing but a reply happens. -/
theorem localMessage_cases (d : Database) (ev : Event) :
    ((d.localMessage ev).tables = d.tables ∧ (d.localMessage ev).emitted = d.emitted) ∨
    let row := d.storedMessage ev (ev.toUser.getD [])
    Stored d (d.localMessage ev) row (messageData ev row) (d.postings ev) := by
  simp only [localMessage]
  split
  · exact .inl ⟨rfl,rfl⟩
  · split
    · exact .inl ⟨rfl,rfl⟩
    · by_cases none : d.sendList ev = []
      · left
        change (d.storeLocal ev _ (d.sendList ev)).tables = _ ∧
          (d.storeLocal ev _ (d.sendList ev)).emitted = _
        simp only [storeLocal,if_pos none]
        split <;> exact ⟨rfl,rfl⟩
      · exact .inr (storeLocal_stored d ev (d.scanSender ev) _ none)

theorem messages_accept (t : Tables) (row : MessageRow) (unissued : row.mid = t.messages.next) :
    t.messages.table.Admits row := by
  rw [Table.admits_iff]
  intro old known same
  have := (t.messages.issued old known).2
  omega

theorem hasMessage_insertMessage (t : Tables) (row : MessageRow) :
    (t.insertMessage row).hasMessage t.messages.next := by
  rw [hasMessage_iff]
  exact ⟨_,Serial.mem_insert.mpr (.inr ⟨messages_accept t _ rfl,rfl⟩),rfl⟩

theorem unissued_message (t : Tables) : t.hasMessage t.messages.next = false := by
  rw [Bool.eq_false_iff,Ne,hasMessage_iff]
  rintro ⟨row,known,same⟩
  have := (t.messages.issued row known).2
  omega

theorem postings_postable (ev : Event) (unused : ∀ row ∈ d.tables.outboxes, row.mid ≠ d.tables.messages.next)
    (row : MessageRow) :
    Postable (d.tables.insertMessage row) d.tables.messages.next (d.postings ev) where
  message := hasMessage_insertMessage _ _
  endpoints box member := by
    obtain ⟨row,known,-,same,-⟩ := mem_postings.mp member
    exact hasEndpoint_iff.mpr ⟨row,known,same.symm⟩
  unused row known box member same := unused row known (congrArg Prod.snd same)
  apart := postings_apart

/-- What a stored local message leaves in the outbox and on its way to the manager;
`own` are the endpoints that its sender has served already. -/
structure Delivered (d after : Database) (ev : Event) (own : EndpointRow → Prop) : Prop where
  once : ∀ row ∈ d.tables.endpoints, Recipients d ev (ev.toUser.getD []) row →
    (after.tables.outboxes.select fun box =>
      box.key = (row.endpoint,d.tables.messages.next)).length = 1
  only : ∀ box ∈ after.tables.outboxes, box.mid = d.tables.messages.next →
    ∃ row ∈ d.tables.endpoints, row.endpoint = box.endpoint ∧
      Recipients d ev (ev.toUser.getD []) row
  status : ∀ box ∈ after.tables.outboxes, box.mid = d.tables.messages.next →
    ∀ row ∈ d.tables.endpoints, row.endpoint = box.endpoint →
      (own row ∧ box.msgstatus = 200 ∨ ¬own row ∧ box.msgstatus = 0)
  sent : ∃ endpoints : List Int, endpoints.Nodup ∧
    (∀ endpoint, endpoint ∈ endpoints ↔ ∃ box ∈ after.tables.outboxes,
      box.key = (endpoint,d.tables.messages.next) ∧ box.msgstatus = 0) ∧
    after.emitted = d.emitted ++ endpoints.map fun endpoint => .sendMessage endpoint
      (messageData ev (d.storedMessage ev (ev.toUser.getD [])))

theorem Posted.mem {posted : Database} (done : Posted d posted mid data boxes)
    (unused : ∀ row ∈ d.tables.outboxes, row.mid ≠ mid) (row : OutboxRow) :
    row ∈ posted.tables.outboxes ∧ row.mid = mid ↔ ∃ box ∈ boxes, row = boxRow mid box := by
  rw [← Table.mem_rows,done.rows,List.mem_append,List.mem_map]
  constructor
  · rintro ⟨old | ⟨box,member,rfl⟩,same⟩
    · exact absurd same (unused row old)
    · exact ⟨box,member,rfl⟩
  · rintro ⟨box,member,rfl⟩
    exact ⟨.inr ⟨box,member,rfl⟩,rfl⟩

/-- Once a local message is stored, each endpoint it is for has one row, done for the
labelled sender's device and archive and waiting for all others, and those that wait are
transmitted once. -/
theorem localMessage_delivered (d : Database) (ev : Event)
    (unused : ∀ row ∈ d.tables.outboxes, row.mid ≠ d.tables.messages.next)
    (stored : (d.localMessage ev).tables.hasMessage d.tables.messages.next) :
    Delivered d (d.localMessage ev) ev (Own ev) := by
  rcases localMessage_cases d ev with ⟨same,-⟩ | ⟨ready,posting,same,tables,emitted,-⟩
  · rw [same,unissued_message] at stored
    contradiction
  · have postable := postings_postable ev unused (d.storedMessage ev (ev.toUser.getD []))
    rw [← tables] at postable
    have posted := foldl_posted (messageData ev (d.storedMessage ev (ev.toUser.getD [])))
      postable
    rw [← same] at posted
    rw [← posting] at posted
    have listed := posted.mem (by rw [tables]; exact unused)
    refine ⟨?_,?_,?_,?_⟩
    · intro row known recipient
      obtain ⟨status,served⟩ : ∃ status : Int, Own ev row ∧ status = Sip.ok ∨
          ¬Own ev row ∧ status = 0 := by
        by_cases own : Own ev row
        · exact ⟨_,.inl ⟨own,rfl⟩⟩
        · exact ⟨_,.inr ⟨own,rfl⟩⟩
      have box : (row.endpoint,status) ∈ d.postings ev :=
        mem_postings.mpr ⟨row,known,recipient,rfl,served⟩
      have one := Table.select_key ((listed _).mpr ⟨_,box,rfl⟩).1
      exact congrArg List.length one
    · intro box member same
      obtain ⟨posting,posted,rfl⟩ := (listed box).mp ⟨member,same⟩
      obtain ⟨row,known,recipient,endpoint,-⟩ := mem_postings.mp posted
      exact ⟨row,known,endpoint.symm,recipient⟩
    · intro box member same row known endpoint
      obtain ⟨posting,posted,rfl⟩ := (listed box).mp ⟨member,same⟩
      obtain ⟨other,stored,-,here,status⟩ := mem_postings.mp posted
      rw [Serial.unique_id known stored (endpoint.trans here)]
      exact status
    · refine ⟨((d.postings ev).filter fun box => box.2 ≠ (Sip.ok : Int)).map Prod.fst,?_,?_,?_⟩
      · exact postings_apart.sublist (List.filter_sublist.map _)
      · intro endpoint
        simp only [List.mem_map,List.mem_filter,decide_eq_true_eq]
        constructor
        · rintro ⟨box,⟨member,waiting⟩,rfl⟩
          obtain ⟨-,-,-,-,⟨-,done⟩ | ⟨-,status⟩⟩ := mem_postings.mp member
          · exact absurd done waiting
          · exact ⟨_,((listed _).mpr ⟨box,member,rfl⟩).1,rfl,status⟩
        · rintro ⟨row,member,key,status⟩
          obtain ⟨box,posted,rfl⟩ := (listed row).mp ⟨member,congrArg Prod.snd key⟩
          refine ⟨box,⟨posted,fun done => ?_⟩,congrArg Prod.fst key⟩
          have conflict : (Sip.ok : Int) = 0 := done.symm.trans status
          contradiction
      · rw [posted.emitted,emitted,notices,List.map_map]
        rfl

def ownMessage : Event := { Site.request "MESSAGE" with
  label := UString.ascii "NONE"
  toUser := some (UString.ascii "101")
  toLocal := true
  contentType := UString.ascii "text/plain"
  body := UString.ascii "hi" }

/-- The phone's own endpoint is transmitted its message. -/
theorem ownMessage_waits : ¬∀ (d : Database) (ev : Event),
    (∀ row ∈ d.tables.outboxes, row.mid ≠ d.tables.messages.next) →
    (d.localMessage ev).tables.hasMessage d.tables.messages.next →
    Delivered d (d.localMessage ev) ev fun row =>
      row.key = ev.key ∨ ev.isLabeled ∧ row.key = (ev.number,UString.ascii "NONE") := by
  intro claim
  have unused : ∀ row ∈ Site.server.database.tables.outboxes,
      row.mid ≠ Site.server.database.tables.messages.next := by
    intro row member
    exact absurd member Table.not_mem_empty
  have delivered := claim Site.server.database ownMessage unused (by decide +kernel)
  have waiting : { mid := 1, endpoint := 1, msgstatus := 0 } ∈
      (Site.server.database.localMessage ownMessage).tables.outboxes := by decide +kernel
  have known : { endpoint := 1, extnbr := 101 } ∈ Site.server.database.tables.endpoints :=
    List.mem_cons_self
  rcases delivered.status _ waiting rfl _ known rfl with ⟨-,done⟩ | ⟨own,-⟩
  · contradiction
  · exact own (.inl rfl)

theorem localMessage_delivered_own : Delivered Site.server.database
    (Site.server.database.localMessage ownMessage) ownMessage (Own ownMessage) :=
  localMessage_delivered Site.server.database ownMessage
    (fun _ member => absurd member Table.not_mem_empty) (by decide +kernel)

end Database

end SipWitch
