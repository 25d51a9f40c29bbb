import SipWitch.Outbox

/-! Whatever was lost between the server and a device: one exchange that nothing comes between
leaves no row of the device's outbox waiting, and the device with every message of it. -/
namespace SipWitch.Exchange

open Database Tables Transition

variable {s reached : Exchange} {ev : Event} {endpoint : Int}

/-- A device asks for what is pending, and acknowledges what it is sent. -/
def exchange (s : Exchange) (ev : Event) (endpoint : Int) : List Action :=
  let n := s.flights.length
  [.requestPending ev endpoint,.sendPending n] ++
    if s.history.database.pendingRows endpoint = [] then [] else [.syncPending n,.ackPending n]

section Rows

variable {t : Tables} {row : OutboxRow} {status : Int} {condition : OutboxRow → Bool}

theorem setStatus_keys (t : Tables) (status : Int) (condition : OutboxRow → Bool) :
    (t.setStatus status condition).outboxes.rows.map OutboxRow.key = t.outboxes.rows.map OutboxRow.key := by
  have same : OutboxRow.key ∘ (fun row => if condition row then { row with msgstatus := status } else row) =
      OutboxRow.key := by
    funext row
    simp only [Function.comp_apply]
    split <;> rfl
  simp only [setStatus,Table.update,List.map_map]
  rw [same]

def settle (t : Tables) (endpoint : Int) : Tables :=
  (t.setStatus 100 fun row => row.msgstatus ≠ 200 && row.endpoint = endpoint).setStatus 200
    fun row => row.msgstatus = 100 && row.endpoint = endpoint

theorem settle_keys (t : Tables) (endpoint : Int) :
    (settle t endpoint).outboxes.rows.map OutboxRow.key = t.outboxes.rows.map OutboxRow.key :=
  (setStatus_keys ..).trans (setStatus_keys ..)

theorem mem_settle : row ∈ (settle t endpoint).outboxes ↔
    ∃ old ∈ t.outboxes, (if old.endpoint = endpoint then { old with msgstatus := 200 } else old) = row := by
  simp only [settle,mem_setStatus]
  constructor
  · rintro ⟨_,⟨old,member,rfl⟩,rfl⟩
    refine ⟨old,member,?_⟩
    by_cases here : old.endpoint = endpoint
    · by_cases done : old.msgstatus = 200
      · cases old
        simp_all
      · simp [here,done]
    · simp [here]
  · rintro ⟨old,member,rfl⟩
    refine ⟨_,⟨old,member,rfl⟩,?_⟩
    by_cases here : old.endpoint = endpoint
    · by_cases done : old.msgstatus = 200
      · cases old
        simp_all
      · simp [here,done]
    · simp [here]

end Rows

section Steps

variable {A : Type} (list : List A) (a : A)

theorem getElem?_last : (list ++ [a])[list.length]? = some a := by simp

theorem eraseIdx_last : (list ++ [a]).eraseIdx list.length = list := by
  rw [List.eraseIdx_append_of_length_le le_rfl]
  simp

end Steps

section Exchange

variable (s) (ev) (endpoint)

def asked : Exchange := { s with flights := s.flights ++ [.request ev endpoint] }

def served (flights : List Flight) : Exchange := { s with
  history := { s.history with database := s.history.database.sendPending ev endpoint }
  flights
  built := (endpoint,(s.history.database.pendingRows endpoint).map MessageRow.mid) :: s.built }

def had : List (Int × Int) :=
  s.received ++ (s.history.database.pendingRows endpoint).map fun row => (endpoint,row.mid)

def confirming : Exchange :=
  let mine := (had s endpoint).filter fun key => key.1 = endpoint
  { served s ev endpoint (s.flights ++ [.ack endpoint (mine.map Prod.snd)]) with
    received := had s endpoint
    confirmed := s.confirmed ++ mine }

variable {s ev endpoint}

theorem sendPending_step (ev : Event) (endpoint : Int) (idle : s.history.job = none) :
    (asked s ev endpoint).step (.sendPending s.flights.length) = some (served s ev endpoint (s.flights ++
      if s.history.database.pendingRows endpoint = [] then []
      else [.answer endpoint (s.history.database.pendingRows endpoint)])) := by
  by_cases none : s.history.database.pendingRows endpoint = [] <;>
    simp [step,asked,served,eraseIdx_last,History.step,History.free,idle,none]

theorem syncPending_step (s : Exchange) (ev : Event) (endpoint : Int) :
    (served s ev endpoint (s.flights ++ [.answer endpoint (s.history.database.pendingRows endpoint)])).step
      (.syncPending s.flights.length) = some (confirming s ev endpoint) := by
  simp only [step,served,getElem?_last,eraseIdx_last]
  rfl

theorem ackPending_step (ev : Event) (endpoint : Int) (idle : s.history.job = none) : ∃ final,
    (confirming s ev endpoint).step (.ackPending s.flights.length) = some final ∧ final.flights = s.flights ∧
      final.tables = (s.history.database.sendPending ev endpoint).tables.setStatus 200
        fun row => row.msgstatus = 100 && row.endpoint = endpoint := by
  simp only [step,confirming,served,getElem?_last,eraseIdx_last,History.step,History.free,idle,Option.isSome_none,
    Bool.false_eq_true,if_false,Option.map_some,without]
  exact ⟨_,rfl,rfl,rfl⟩

/-- The acknowledgement is for the newest answer. -/
theorem confirming_current : (confirming s ev endpoint).Current (.ackPending s.flights.length) := by
  intro endpoint' mids here mid listed _
  have last : (confirming s ev endpoint).flights[s.flights.length]? = some (.ack endpoint
      (((had s endpoint).filter fun key => key.1 = endpoint).map Prod.snd)) := getElem?_last _ _
  obtain ⟨rfl,rfl⟩ := Flight.ack.inj (Option.some.inj (last.symm.trans here))
  have newest : (confirming s ev endpoint).newest endpoint =
      (s.history.database.pendingRows endpoint).map MessageRow.mid := by
    simp [confirming,served,Exchange.newest]
  rw [newest] at listed
  obtain ⟨row,pending,rfl⟩ := List.mem_map.mp listed
  refine List.mem_map.mpr ⟨(endpoint,row.mid),List.mem_filter.mpr ⟨?_,by simp⟩,rfl⟩
  exact List.mem_append_right _ (List.mem_map.mpr ⟨row,pending,rfl⟩)

/-- The exchange comes to its end and strikes off what is there of the endpoint. -/
theorem exchange_settles (sound : s.Sound) (idle : s.history.job = none) (ev : Event) (endpoint : Int) :
    ∃ final, execute step (exchange s ev endpoint) s = some final ∧ final.Sound ∧ final.flights = s.flights ∧
      final.tables.outboxes.rows.map OutboxRow.key = s.tables.outboxes.rows.map OutboxRow.key ∧
      ∀ row, row ∈ final.tables.outboxes ↔ ∃ old ∈ s.tables.outboxes,
        (if old.endpoint = endpoint then { old with msgstatus := 200 } else old) = row := by
  have first : s.step (.requestPending ev endpoint) = some (asked s ev endpoint) := rfl
  have second := sendPending_step ev endpoint idle
  have same := (History.sendPending_boxes s.history.database ev endpoint).1
  have requested : (asked s ev endpoint).Sound := step_sound (a := .requestPending ev endpoint) sound trivial first
  have answered := step_sound (a := .sendPending s.flights.length) requested trivial second
  by_cases none : s.history.database.pendingRows endpoint = []
  · -- every row of the endpoint is struck off already
    have settled (row : OutboxRow) (member : row ∈ s.tables.outboxes) (here : row.endpoint = endpoint) :
        row.msgstatus = 200 := by
      by_contra waiting
      have listed := pending_listed sound member waiting
      rw [here,none] at listed
      contradiction
    rw [if_pos none,List.append_nil] at second answered
    refine ⟨served s ev endpoint s.flights,?_,answered,rfl,?_,fun row => ?_⟩
    · simp [exchange,none,execute,first,second]
    · exact (congrArg (fun boxes => boxes.rows.map OutboxRow.key) same.outboxes).trans (setStatus_keys ..)
    · have outboxes : (served s ev endpoint s.flights).tables.outboxes = _ := same.outboxes
      rw [outboxes,mem_setStatus]
      refine exists_congr fun old => and_congr_right fun member => ?_
      by_cases here : old.endpoint = endpoint
      · have done := settled old member here
        cases old
        simp_all
      · simp [here]
  · rw [if_neg none] at second answered
    have third := syncPending_step s ev endpoint
    obtain ⟨final,fourth,flights,tables⟩ := ackPending_step ev endpoint idle
    have outboxes : final.tables.outboxes = (settle s.tables endpoint).outboxes := by
      rw [tables]
      simp only [settle,setStatus,same.outboxes]
      rfl
    have received := step_sound (a := .syncPending s.flights.length) answered trivial third
    refine ⟨final,?_,step_sound received confirming_current fourth,flights,?_,fun row => ?_⟩
    · simp [exchange,none,execute,first,second,third,fourth]
    · rw [outboxes]
      exact settle_keys ..
    · rw [outboxes]
      exact mem_settle

end Exchange

/-- Whatever was transmitted, answered, delayed and lost before, the device has every message of
its outbox after one exchange, and the outboxes of other devices are as they were. -/
theorem pending_recovers (start : s.Start) (run : Run s trace reached)
    (current : ∀ edge ∈ trace, edge.source.Current edge.action) (idle : reached.history.job = none)
    (ev : Event) (endpoint : Int) : ∃ final, execute step (exchange reached ev endpoint) reached = some final ∧
      final.tables.outboxes.rows.map OutboxRow.key = reached.tables.outboxes.rows.map OutboxRow.key ∧
      (∀ row ∈ final.tables.outboxes, row.endpoint = endpoint → row.msgstatus = 200 ∧ final.Delivered row) ∧
      ∀ row, row.endpoint ≠ endpoint → (row ∈ final.tables.outboxes ↔ row ∈ reached.tables.outboxes) := by
  have sound : reached.Sound := run.invariant_of Sound Current (fun _ _ _ => step_sound) start.sound current
  obtain ⟨final,done,after,-,keys,settled⟩ := exchange_settles sound idle ev endpoint
  refine ⟨final,done,keys,fun row member here => ?_,fun row other => ?_⟩
  · obtain ⟨old,-,rfl⟩ := (settled row).mp member
    have struck : (if old.endpoint = endpoint then { old with msgstatus := 200 } else old).msgstatus = 200 := by
      split at here <;> simp_all
    exact ⟨struck,after.delivered _ member struck⟩
  · rw [settled]
    constructor
    · rintro ⟨old,member,rfl⟩
      split at other
      · contradiction
      · rename_i apart
        rwa [if_neg apart]
    · exact fun member => ⟨row,member,if_neg other⟩

def unanswered : List Action := store ++ [pending,.sendPending 0,.lose 0]

theorem pending_recovers_lost : ∃ trace reached final, Run site trace reached ∧ trace.length = 6 ∧
    execute step (exchange reached (Site.request "X-PENDING") 2) reached = some final ∧
      ∀ row ∈ final.tables.outboxes, row.endpoint = 2 → row.msgstatus = 200 ∧ final.Delivered row := by
  have ran : (execute step unanswered site).map (fun s => s.history.job.isNone) = some true := by decide +kernel
  obtain ⟨reached,done,idle⟩ := Option.map_eq_some_iff.mp ran
  obtain ⟨trace,run,actions⟩ := execute_run _ _ _ done
  have current (edge) (member : edge ∈ trace) : Current edge.source edge.action := by
    have listed : edge.action ∈ unanswered := actions ▸ List.mem_map_of_mem member
    simp only [unanswered,store,pending,List.cons_append,List.nil_append,List.mem_cons,List.not_mem_nil,
      or_false] at listed
    rcases listed with same | same | same | same | same | same <;> rw [same] <;> trivial
  obtain ⟨final,settled,-,delivered,-⟩ := pending_recovers ⟨rfl,rfl⟩ run current
    (Option.isNone_iff_eq_none.mp idle) (Site.request "X-PENDING") 2
  exact ⟨trace,reached,final,run,by simpa [unanswered,store] using congrArg List.length actions,settled,delivered⟩

end SipWitch.Exchange
