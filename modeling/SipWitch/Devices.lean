import SipWitch.UString
import SipWitch.Index
import Mathlib.Data.List.Induction
import Mathlib.Data.List.Sort

/-! The devices that the user of a client has verified, in the table `Devices` of its
storage. A server lists the devices of an extension with their keys, and `verifyDevices`
marks in the list what is verified, or is verified no longer. -/
namespace SipWitch.Devices

open Index

/-- A null text is empty for the program, and NULL in a query. -/
abbrev QString := Option UString

def QString.text (s : QString) : UString := s.getD []

structure DeviceRow where
  devlabel : QString
  devkey : UString
  devagent : QString
  devstatus : Int := 0
  deriving DecidableEq

/-- A device in a list; a text that is missing is null. -/
structure DeviceObject where
  u : QString
  k : QString
  v : Int := 0
  fields : List (UString × UString) := []
  deriving DecidableEq

/-- `=` in a query. NULL is equal to nothing, and a primary key may repeat it. -/
def equals : QString → QString → Bool
  | some a,some b => a = b
  | _,_ => false

/-- `Storage::verifyDevice`. The row is inserted after any of that label was deleted. -/
def verifyDevice (rows : List DeviceRow) (label : QString) (key : UString) (agent : QString) : List DeviceRow :=
  rows.filter (fun row => !equals row.devlabel label) ++
    [{ devlabel := label, devkey := key, devagent := agent, devstatus := 1 }]

/-- The hash `labels`, of the objects that are not empty and of the labels that were only read. -/
abbrev Labels := Hash UString (Option DeviceObject)

def listed (devices : List DeviceObject) : Labels :=
  devices.foldl (fun labels json => labels.insert json.u.text (some { json with v := 0 })) ∅

/-- `QHash::operator[]` inserts an empty object for a label that it does not have. -/
def read (labels : Labels) (label : UString) : Option DeviceObject × Labels :=
  match labels.lookup label with
  | some json => (json,labels)
  | none => (none,labels.insert label none)

def rkey (json : DeviceObject) : UString := UString.fromHex json.k.text

/-- One record of the query over the table. -/
def verifyRow (s : Labels × List DeviceRow) (row : DeviceRow) : Labels × List DeviceRow :=
  let label := row.devlabel.text
  match read s.1 label with
  | (none,labels) => (labels,s.2.filter fun other => !equals other.devlabel row.devlabel)
  | (some json,labels) =>
    if rkey json = [] then (labels,s.2)
    else
      -- once verification fails, it is marked until verify or removal
      let v := if row.devstatus = 2 || row.devkey ≠ rkey json then 2 else 1
      (labels.insert label (some { json with v }),
        s.2.map fun other => if equals other.devlabel row.devlabel then { other with devstatus := v } else other)

def index (labels : Labels) : List UString :=
  labels.keys.insertionSort fun a b => UString.toLower a ≤ UString.toLower b

def verifyDevices (rows : List DeviceRow) (devices : List DeviceObject) : List DeviceRow × List DeviceObject :=
  let (labels,rows') := rows.foldl verifyRow (listed devices,rows)
  (rows',(index labels).filterMap fun label => (labels.lookup label).join)

def entry (devices : List DeviceObject) (label : UString) : Option DeviceObject :=
  devices.reverse.find? fun json => json.u.text = label

/-- What the client holds of a device: the key that was verified, and whether another was seen since. -/
structure Trust where
  key : UString
  failed : Bool
  deriving DecidableEq

def Trust.heard (t : Option Trust) (key : Option UString) : Option Trust :=
  key.bind fun key => t.map fun t => if key = [] then t else { t with failed := t.failed || t.key ≠ key }

def Trust.mark (t : Option Trust) (key : UString) : Int :=
  match t with
  | none => 0
  | some t => if key = [] then 0 else if t.failed || t.key ≠ key then 2 else 1

def trust (rows : List DeviceRow) (label : UString) : Option Trust :=
  (rows.find? fun row => row.devlabel = some label).map fun row => ⟨row.devkey,row.devstatus = 2⟩

structure Labelled (rows : List DeviceRow) : Prop where
  some_ : ∀ row ∈ rows, row.devlabel ≠ none
  distinct : (rows.map DeviceRow.devlabel).Nodup

section Listed

variable {devices : List DeviceObject} {label : UString} {json : DeviceObject}

theorem entry_concat (last : DeviceObject) : entry (devices ++ [last]) label =
    if last.u.text = label then some last else entry devices label := by
  rw [entry,List.reverse_append,List.reverse_singleton,List.singleton_append,List.find?_cons]
  split <;> simp_all [entry]

theorem lookup_listed : (listed devices).lookup label =
    (entry devices label).map fun json => some { json with v := 0 } := by
  induction devices using List.reverseRecOn with
  | nil => rfl
  | append_singleton devices last ih =>
    rw [listed,List.foldl_append,List.foldl_cons,List.foldl_nil,lookup_insert_cases,entry_concat]
    by_cases same : last.u.text = label
    · simp [same]
    · rw [if_neg fun other => same other.symm,if_neg same]
      exact ih

theorem entry_isSome : (entry devices label).isSome ↔ label ∈ devices.map fun json => json.u.text := by
  simp [entry,List.find?_isSome]

theorem entry_text (found : entry devices label = some json) : json.u.text = label := by
  have holds := List.find?_some found
  exact of_decide_eq_true holds

end Listed

section Rows

variable {rows done rest : List DeviceRow} {row other : DeviceRow} {devices : List DeviceObject}
  {label : UString}

/-- What becomes of a row. -/
def verdict (devices : List DeviceObject) (row : DeviceRow) : Option DeviceRow :=
  (entry devices row.devlabel.text).map fun json =>
    if rkey json = [] then row
    else { row with devstatus := if row.devstatus = 2 || row.devkey ≠ rkey json then 2 else 1 }

/-- The mark that the query gives to a label of the list. -/
def marked (devices : List DeviceObject) (rows : List DeviceRow) (label : UString) : Option DeviceObject :=
  (entry devices label).map fun json => { json with v := Trust.mark (trust rows label) (rkey json) }

theorem verdict_label (kept : verdict devices row = some other) : other.devlabel = row.devlabel := by
  obtain ⟨json,-,rfl⟩ := Option.map_eq_some_iff.mp kept
  split <;> rfl

theorem read_first (labels : Labels) (label : UString) : (read labels label).1 = (labels.lookup label).join := by
  rw [read]
  cases found : labels.lookup label <;> rfl

/-- The label that is inserted has no object. -/
theorem read_lookup (labels : Labels) (label label' : UString) :
    ((read labels label).2.lookup label').join = (labels.lookup label').join := by
  rw [read]
  cases found : labels.lookup label with
  | some json => rfl
  | none =>
    rw [lookup_insert_cases]
    split
    · rename_i same
      rw [same,found]
      rfl
    · rfl

structure Passed (devices : List DeviceObject) (done rest : List DeviceRow) (s : Labels × List DeviceRow) :
    Prop where
  rows : s.2 = done.filterMap (verdict devices) ++ rest
  labels : ∀ label, (s.1.lookup label).join = marked devices done label

theorem equals_some (a : QString) (label : UString) : equals a (some label) = decide (a = some label) := by
  cases a <;> simp [equals]

/-- A query for the label of one row leaves the others alone. -/
theorem only_row (front : List DeviceRow) (own : row.devlabel = some label)
    (apart : ∀ other ∈ front ++ rest, other.devlabel ≠ some label) (change : DeviceRow → DeviceRow) :
    (front ++ row :: rest).filter (fun other => !equals other.devlabel (some label)) = front ++ rest ∧
      (front ++ row :: rest).map (fun other => if equals other.devlabel (some label) then change other else other) =
        front ++ change row :: rest := by
  have others (part : List DeviceRow) (inside : ∀ other ∈ part, other ∈ front ++ rest) :
      part.filter (fun other => !equals other.devlabel (some label)) = part ∧
        part.map (fun other => if equals other.devlabel (some label) then change other else other) = part := by
    constructor
    · apply List.filter_eq_self.mpr
      intro other member
      simp [equals_some,apart other (inside other member)]
    · refine (List.map_congr_left fun other member => ?_).trans (List.map_id part)
      simp [equals_some,apart other (inside other member)]
  obtain ⟨filtered,mapped⟩ := others front fun other member => List.mem_append_left _ member
  obtain ⟨filtered',mapped'⟩ := others rest fun other member => List.mem_append_right _ member
  constructor
  · rw [List.filter_append,List.filter_cons_of_neg (by simp [equals_some,own]),filtered,filtered']
  · rw [List.map_append,List.map_cons,mapped,mapped',equals_some,own,decide_eq_true rfl,if_pos rfl]

theorem trust_concat (own : row.devlabel = some label) (apart : ∀ other ∈ done, other.devlabel ≠ some label)
    (label' : UString) : trust (done ++ [row]) label' =
      if label' = label then some ⟨row.devkey,row.devstatus = 2⟩ else trust done label' := by
  rw [trust,List.find?_append]
  by_cases same : label' = label
  · subst same
    have none : (done.find? fun row => row.devlabel = some label') = none := by
      apply List.find?_eq_none.mpr
      intro other member
      simp [apart other member]
    simp [none,own]
  · have other : ¬label = label' := fun h => same h.symm
    simp [own,same,other,trust]

/-- Other rows have other labels. -/
theorem Labelled.apart (labelled : Labelled (done ++ row :: rest)) (own : row.devlabel = some label) :
    ∀ other ∈ done ++ rest, other.devlabel ≠ some label := by
  have distinct := labelled.distinct
  rw [List.map_append,List.map_cons] at distinct
  have fresh := (List.nodup_cons.mp (List.perm_middle.nodup_iff.mp distinct)).1
  intro other member same
  rw [own,← List.map_append] at fresh
  exact fresh (same ▸ List.mem_map_of_mem member)

theorem trust_unseen (apart : ∀ other ∈ done, other.devlabel ≠ some label) : trust done label = none := by
  rw [trust,Option.map_eq_none_iff,List.find?_eq_none]
  intro other member
  simp [apart other member]

/-- The row of a label leaves the marks of the others alone. -/
theorem marked_other (own : row.devlabel = some label) (apart : ∀ other ∈ done, other.devlabel ≠ some label)
    (ne : label' ≠ label) : marked devices (done ++ [row]) label' = marked devices done label' := by
  rw [marked,trust_concat own apart,if_neg ne,marked]

/-- The rows that are kept have their labels. -/
theorem verdicts_apart (apart : ∀ other ∈ done ++ rest, other.devlabel ≠ some label) :
    ∀ other ∈ done.filterMap (verdict devices) ++ rest, other.devlabel ≠ some label := by
  intro other member
  rcases List.mem_append.mp member with passed | later
  · obtain ⟨old,member,kept⟩ := List.mem_filterMap.mp passed
    rw [verdict_label kept]
    exact apart old (List.mem_append_left rest member)
  · exact apart other (List.mem_append_right done later)

theorem Passed.step {s : Labels × List DeviceRow} (passed : Passed devices done (row :: rest) s)
    (labelled : Labelled (done ++ row :: rest)) : Passed devices (done ++ [row]) rest (verifyRow s row) := by
  obtain ⟨label,own⟩ := Option.ne_none_iff_exists'.mp (labelled.some_ row (by simp))
  have text : row.devlabel.text = label := by rw [own]; rfl
  have apart := labelled.apart own
  have earlier : ∀ other ∈ done, other.devlabel ≠ some label :=
    fun other member => apart other (List.mem_append_left rest member)
  have unseen := trust_unseen earlier
  have front : ∀ other ∈ done.filterMap (verdict devices) ++ rest, other.devlabel ≠ some label :=
    verdicts_apart apart
  have before := passed.labels label
  rw [marked,unseen] at before
  have first := (read_first s.1 label).trans before
  have kept := read_lookup s.1 label
  rw [verifyRow,text,own,passed.rows]
  generalize read s.1 label = answer at first kept ⊢
  obtain ⟨json,labels⟩ := answer
  have unchanged (same : marked devices (done ++ [row]) label = marked devices done label) (label' : UString) :
      (labels.lookup label').join = marked devices (done ++ [row]) label' := by
    refine (kept label').trans ((passed.labels label').trans ?_)
    by_cases here : label' = label
    · rw [here,same]
    · exact (marked_other own earlier here).symm
  cases found : entry devices label with
  | none =>
    obtain rfl : json = none := by simpa [found] using first
    have gone : verdict devices row = none := by rw [verdict,text,found]; rfl
    constructor
    · simp only [(only_row _ own front id).1,List.filterMap_append,List.filterMap_cons,gone,List.filterMap_nil,
        List.append_nil]
    · exact unchanged (by rw [marked,found,marked,found]; rfl)
  | some listed =>
    obtain rfl : json = some { listed with v := 0 } := by simpa [found,Trust.mark] using first
    have key : rkey { listed with v := 0 } = rkey listed := rfl
    have now : trust (done ++ [row]) label = some ⟨row.devkey,row.devstatus = 2⟩ :=
      (trust_concat own earlier label).trans (if_pos rfl)
    simp only [key]
    by_cases empty : rkey listed = []
    · rw [if_pos empty]
      have same_ : verdict devices row = some row := by rw [verdict,text,found,Option.map_some,if_pos empty]
      constructor
      · simp [same_]
      · refine unchanged ?_
        rw [marked,found,marked,found,unseen,now]
        simp [Trust.mark,empty]
    · rw [if_neg empty]
      have changed : verdict devices row = some { row with
          devstatus := if row.devstatus = 2 || row.devkey ≠ rkey listed then 2 else 1 } := by
        rw [verdict,text,found,Option.map_some,if_neg empty]
      constructor
      · simp only [(only_row _ own front _).2,List.filterMap_append,List.filterMap_cons,changed,List.filterMap_nil,
          List.append_assoc,List.singleton_append]
      · intro label'
        by_cases same : label' = label
        · subst same
          rw [lookup_insert_cases,if_pos rfl,marked,found,now]
          simp [Trust.mark,empty]
        · rw [lookup_insert_cases,if_neg same,marked_other own earlier same,kept]
          exact passed.labels label'

theorem Passed.foldl {s : Labels × List DeviceRow} (passed : Passed devices done rest s)
    (labelled : Labelled (done ++ rest)) : Passed devices (done ++ rest) [] (rest.foldl verifyRow s) := by
  induction rest generalizing done s with
  | nil => simpa using passed
  | cons row rest ih =>
    have next := ih (passed.step labelled) (by simpa using labelled)
    simpa using next

theorem passed_all (labelled : Labelled rows) :
    Passed devices rows [] (rows.foldl verifyRow (listed devices,rows)) := by
  have start : Passed devices [] rows (listed devices,rows) := by
    refine ⟨rfl,fun label => ?_⟩
    rw [lookup_listed,marked]
    cases entry devices label <;> rfl
  exact start.foldl labelled

theorem verifyDevices_rows (labelled : Labelled rows) :
    (verifyDevices rows devices).1 = rows.filterMap (verdict devices) :=
  (passed_all labelled).rows.trans (List.append_nil _)

/-- The list that is left has the marked object of each label. -/
theorem mem_verifyDevices (labelled : Labelled rows) (json : DeviceObject) :
    json ∈ (verifyDevices rows devices).2 ↔ ∃ label, marked devices rows label = some json := by
  have passed : Passed devices rows [] _ := passed_all labelled
  simp only [verifyDevices,List.mem_filterMap,passed.labels]
  constructor
  · rintro ⟨label,-,found⟩
    exact ⟨label,found⟩
  · rintro ⟨label,found⟩
    refine ⟨label,?_,found⟩
    rw [← passed.labels label] at found
    obtain ⟨object,here,-⟩ := Option.bind_eq_some_iff.mp found
    rw [index,List.mem_insertionSort,← AList.mem_keys]
    exact AList.lookup_isSome.mp (Option.isSome_of_mem here)

theorem marked_text {json : DeviceObject} (found : marked devices rows label = some json) :
    json.u.text = label := by
  obtain ⟨object,here,rfl⟩ := Option.map_eq_some_iff.mp found
  have text : object.u.text = label := entry_text here
  exact text

theorem marked_isSome : (marked devices rows label).isSome ↔ label ∈ devices.map fun json => json.u.text := by
  rw [marked,Option.isSome_map,entry_isSome]

/-- Every label of the list that was given is in the one that is left, once. -/
theorem verifyDevices_labels (labelled : Labelled rows) :
    ((verifyDevices rows devices).2.map fun json => json.u.text).Nodup ∧
      ∀ label, label ∈ (verifyDevices rows devices).2.map (fun json => json.u.text) ↔
        label ∈ devices.map fun json => json.u.text := by
  have passed : Passed devices rows [] _ := passed_all labelled
  have texts : (verifyDevices rows devices).2.map (fun json => json.u.text) =
      (index (rows.foldl verifyRow (listed devices,rows)).1).filter
        fun label => (marked devices rows label).isSome := by
    simp only [verifyDevices,passed.labels,List.map_filterMap,← List.filterMap_eq_filter]
    apply List.filterMap_congr
    intro label _
    cases found : marked devices rows label with
    | none => simp [Option.guard,found]
    | some json => simp [Option.guard,marked_text found,found]
  constructor
  · rw [texts]
    exact ((List.perm_insertionSort _ _).nodup_iff.mpr (AList.keys_nodup _)).filter _
  · intro label
    have marks : (marked devices rows label).isSome ↔ _ := marked_isSome
    rw [← marks,List.mem_map]
    constructor
    · rintro ⟨json,member,rfl⟩
      obtain ⟨label,found⟩ := (mem_verifyDevices labelled json).mp member
      rw [marked_text found,found]
      rfl
    · intro given
      obtain ⟨json,found⟩ := Option.isSome_iff_exists.mp given
      exact ⟨json,(mem_verifyDevices labelled json).mpr ⟨label,found⟩,marked_text found⟩

theorem trust_cons (row : DeviceRow) (rows : List DeviceRow) (label : UString) : trust (row :: rows) label =
    if row.devlabel = some label then some ⟨row.devkey,row.devstatus = 2⟩ else trust rows label := by
  rw [trust,List.find?_cons]
  split <;> simp_all [trust]

theorem trust_verdict (label : UString) : trust (rows.filterMap (verdict devices)) label =
    Trust.heard (trust rows label) ((entry devices label).map rkey) := by
  induction rows with
  | nil => cases found : entry devices label <;> simp [trust,Trust.heard]
  | cons row rest ih =>
    rw [trust_cons]
    cases kept : verdict devices row with
    | none =>
      rw [List.filterMap_cons_none kept,ih]
      split
      · rename_i own
        rw [verdict,own,Option.map_eq_none_iff] at kept
        have gone : entry devices label = none := kept
        simp [Trust.heard,gone]
      · rfl
    | some row' =>
      rw [List.filterMap_cons_some kept,trust_cons,verdict_label kept]
      split
      · rename_i own
        rw [verdict,own] at kept
        obtain ⟨json,here,rfl⟩ := Option.map_eq_some_iff.mp kept
        have here : entry devices label = some json := here
        by_cases empty : rkey json = []
        · simp [Trust.heard,here,empty]
        · by_cases failed : row.devstatus = 2 <;> by_cases other : row.devkey = rkey json <;>
            simp [Trust.heard,here,empty,failed,other]
      · exact ih

theorem Labelled.verdict (labelled : Labelled rows) : Labelled (rows.filterMap (verdict devices)) where
  some_ := by
    intro row member
    obtain ⟨old,member,kept⟩ := List.mem_filterMap.mp member
    rw [verdict_label kept]
    exact labelled.some_ old member
  distinct := by
    refine List.Nodup.sublist ?_ labelled.distinct
    induction rows with
    | nil => exact List.Sublist.refl _
    | cons row rest ih =>
      have tail : Labelled rest := ⟨fun other member => labelled.some_ other (List.mem_cons_of_mem row member),
        (List.nodup_cons.mp labelled.distinct).2⟩
      cases kept : Devices.verdict devices row with
      | none =>
        rw [List.filterMap_cons_none kept,List.map_cons]
        exact (ih tail).cons _
      | some row' =>
        rw [List.filterMap_cons_some kept,List.map_cons,List.map_cons,verdict_label kept]
        exact (ih tail).cons_cons _

theorem Labelled.verifyDevice (labelled : Labelled rows) (label key : UString) (agent : QString) :
    Labelled (verifyDevice rows (some label) key agent) where
  some_ := by
    intro row member
    rcases List.mem_append.mp member with old | new
    · exact labelled.some_ row (List.mem_filter.mp old).1
    · rw [List.mem_singleton.mp new]
      simp
  distinct := by
    rw [Devices.verifyDevice,List.map_append]
    apply List.Nodup.append
    · exact List.Nodup.sublist (List.filter_sublist.map _) labelled.distinct
    · exact List.nodup_singleton _
    · intro other old new
      obtain ⟨row,member,rfl⟩ := List.mem_map.mp old
      have own : row.devlabel = some label := List.mem_singleton.mp new
      have apart := (List.mem_filter.mp member).2
      simp [equals_some,own] at apart

theorem trust_verifyDevice (label key : UString) (agent : QString) (label' : UString) :
    trust (verifyDevice rows (some label) key agent) label' =
      if label' = label then some ⟨key,false⟩ else trust rows label' := by
  have apart : ∀ other ∈ rows.filter (fun row => !equals row.devlabel (some label)), other.devlabel ≠ some label := by
    intro other member own
    have kept := (List.mem_filter.mp member).2
    simp [equals_some,own] at kept
  rw [verifyDevice,trust_concat rfl apart]
  split
  · rfl
  · rename_i other
    rw [trust,trust,List.find?_filter]
    congr 2
    funext row
    by_cases own : row.devlabel = some label' <;> simp [equals_some,own,other]

end Rows

inductive Call where
  | verifyDevice (label : QString) (key : UString) (agent : QString)
  | verifyDevices (devices : List DeviceObject)

def apply (rows : List DeviceRow) : Call → List DeviceRow
  | .verifyDevice label key agent => verifyDevice rows label key agent
  | .verifyDevices devices => (verifyDevices rows devices).1

def after (calls : List Call) : List DeviceRow := calls.foldl apply []

def shown (calls : List Call) (devices : List DeviceObject) : List DeviceObject :=
  (verifyDevices (after calls) devices).2

/-- After `calls`, a list of devices is not given more trust than the user gave. -/
structure Guarded (calls : List Call) (devices : List DeviceObject) : Prop where
  /-- A device with mark 1 was verified with its key, and every list since then had its label,
  with that key or without one. -/
  verified : ∀ json ∈ shown calls devices, json.v = 1 → ∃ past label agent since,
    calls = past ++ .verifyDevice label (rkey json) agent :: since ∧ label.text = json.u.text ∧
      ∀ heard, .verifyDevices heard ∈ since → ∃ listed, entry heard json.u.text = some listed ∧
        (rkey listed = [] ∨ rkey listed = rkey json)
  /-- The key is the one that is listed. -/
  listed : ∀ json ∈ shown calls devices, ∃ listed, entry devices json.u.text = some listed ∧ rkey listed = rkey json
  /-- A device that had mark 2 does not have mark 1 until it is verified. -/
  sticky : ∀ past heard since, calls = past ++ .verifyDevices heard :: since →
    ∀ other ∈ shown past heard, other.v = 2 →
      (∀ label key agent, .verifyDevice label key agent ∈ since → label.text ≠ other.u.text) →
        ∀ json ∈ shown calls devices, json.u.text = other.u.text → json.v ≠ 1
  labels : ((shown calls devices).map fun json => json.u.text).Nodup ∧
    ∀ label, label ∈ (shown calls devices).map (fun json => json.u.text) ↔
      label ∈ devices.map fun json => json.u.text

section Run

variable {calls since : List Call} {devices : List DeviceObject} {label : UString} {t : Trust}

/-- No device is verified under a null label. -/
def Named (calls : List Call) : Prop := ∀ key agent, .verifyDevice none key agent ∉ calls

theorem Labelled.apply {rows : List DeviceRow} (labelled : Labelled rows) (call : Call)
    (named : ∀ key agent, call ≠ .verifyDevice none key agent) : Labelled (apply rows call) := by
  cases call with
  | verifyDevices devices =>
    rw [Devices.apply,verifyDevices_rows labelled]
    exact labelled.verdict
  | verifyDevice label key agent =>
    cases label with
    | none => exact absurd rfl (named key agent)
    | some label => exact labelled.verifyDevice label key agent

theorem Named.ne (named : Named calls) {call : Call} (member : call ∈ calls) (key : UString) (agent : QString) :
    call ≠ .verifyDevice none key agent := by
  rintro rfl
  exact named key agent member

theorem Labelled.run {rows : List DeviceRow} (labelled : Labelled rows) (named : Named calls) :
    Labelled (calls.foldl Devices.apply rows) := by
  induction calls generalizing rows with
  | nil => exact labelled
  | cons call rest ih =>
    have next := labelled.apply call (named.ne List.mem_cons_self)
    exact ih next fun key agent member => named key agent (List.mem_cons_of_mem call member)

theorem labelled_after (named : Named calls) : Labelled (after calls) :=
  Labelled.run ⟨by simp,List.nodup_nil⟩ named

/-- What one call does to the trust in a label. -/
theorem trust_apply {rows : List DeviceRow} (labelled : Labelled rows) (call : Call)
    (named : ∀ key agent, call ≠ .verifyDevice none key agent) (label : UString) :
    trust (apply rows call) label = match call with
      | .verifyDevice given key _ => if label = given.text then some ⟨key,false⟩ else trust rows label
      | .verifyDevices devices => Trust.heard (trust rows label) ((entry devices label).map rkey) := by
  cases call with
  | verifyDevices devices =>
    change trust (verifyDevices rows devices).1 label = _
    rw [verifyDevices_rows labelled,trust_verdict]
  | verifyDevice given key agent =>
    cases given with
    | none => exact absurd rfl (named key agent)
    | some given => exact trust_verifyDevice given key agent label

/-- The trust after a list comes from the trust before it. -/
theorem heard_eq_some {old : Option Trust} {key : Option UString} (held : Trust.heard old key = some t) :
    ∃ before key', old = some before ∧ key = some key' ∧ t.key = before.key ∧
      (t.failed = false → before.failed = false ∧ (key' = [] ∨ key' = t.key)) ∧
        (before.failed = true → t.failed = true) := by
  obtain ⟨key',rfl,mapped⟩ := Option.bind_eq_some_iff.mp held
  obtain ⟨before,rfl,rfl⟩ := Option.map_eq_some_iff.mp mapped
  refine ⟨before,key',rfl,rfl,?_⟩
  by_cases empty : key' = []
  · simp [empty]
  · rw [if_neg empty]
    refine ⟨rfl,?_,?_⟩
    · intro passed
      simp only [Bool.or_eq_false_iff,ne_eq,decide_not,Bool.not_eq_false',decide_eq_true_eq] at passed
      exact ⟨passed.1,.inr passed.2.symm⟩
    · intro failed
      simp [failed]

/-- A device that is held was verified, and each list since then had its label. As long as none
of these had another key, it has not failed. -/
theorem trust_origin (named : Named calls) (held : trust (after calls) label = some t) :
    ∃ past given agent since, calls = past ++ .verifyDevice given t.key agent :: since ∧ given.text = label ∧
      ∀ heard, .verifyDevices heard ∈ since → ∃ listed, entry heard label = some listed ∧
        (t.failed = false → rkey listed = [] ∨ rkey listed = t.key) := by
  induction calls using List.reverseRecOn generalizing t with
  | nil => simp [after,trust] at held
  | append_singleton calls call ih =>
    have before : Named calls := fun key agent member => named key agent (List.mem_append_left _ member)
    have last := named.ne (List.mem_append_right calls (List.mem_singleton.mpr rfl))
    rw [after,List.foldl_append] at held
    have moved := (trust_apply (labelled_after before) call last label).symm.trans held
    cases call with
    | verifyDevice given key agent =>
      by_cases own : label = given.text
      · obtain rfl := Option.some.inj ((if_pos own).symm.trans moved)
        exact ⟨calls,given,agent,[],rfl,own.symm,by simp⟩
      · obtain ⟨past,given',agent',since,rfl,text,lists⟩ := ih before ((if_neg own).symm.trans moved)
        refine ⟨past,given',agent',since ++ [.verifyDevice given key agent],by simp,text,fun heard member => ?_⟩
        exact lists heard (by simpa using member)
    | verifyDevices devices =>
      obtain ⟨t',key,old,listed,key_,clean,-⟩ := heard_eq_some moved
      obtain ⟨json,here,rfl⟩ := Option.map_eq_some_iff.mp listed
      obtain ⟨past,given,agent,since,rfl,text,lists⟩ := ih before old
      refine ⟨past,given,agent,since ++ [.verifyDevices devices],by simp [key_],text,fun heard member => ?_⟩
      rcases List.mem_append.mp member with earlier | final
      · obtain ⟨listed,found,same⟩ := lists heard earlier
        exact ⟨listed,found,fun passed => key_ ▸ same (clean passed).1⟩
      · obtain rfl : heard = devices := by simpa using final
        exact ⟨json,here,fun passed => (clean passed).2⟩

/-- What has failed stays so until it is verified again. -/
theorem failed_stays {rows : List DeviceRow} (labelled : Labelled rows) (named : Named since)
    (unverified : ∀ given key agent, .verifyDevice given key agent ∈ since → given.text ≠ label)
    (failed : ∀ t ∈ trust rows label, t.failed = true) :
    ∀ t ∈ trust (since.foldl apply rows) label, t.failed = true := by
  induction since generalizing rows with
  | nil => exact failed
  | cons call rest ih =>
    have first := named.ne (List.mem_cons_self (l := rest))
    apply ih (labelled.apply call first)
    · exact fun key agent member => named key agent (List.mem_cons_of_mem call member)
    · exact fun given key agent member => unverified given key agent (List.mem_cons_of_mem call member)
    · intro t held
      have moved := (trust_apply labelled call first label).symm.trans held
      cases call with
      | verifyDevice given key agent =>
        have other : label ≠ given.text := (unverified given key agent List.mem_cons_self).symm
        exact failed t ((if_neg other).symm.trans moved)
      | verifyDevices devices =>
        obtain ⟨before,key,old,-,-,-,stays⟩ := heard_eq_some moved
        exact stays (failed before old)

theorem mark_one {t : Option Trust} {key : UString} (trusted : Trust.mark t key = 1) :
    t = some ⟨key,false⟩ := by
  cases t with
  | none => simp [Trust.mark] at trusted
  | some t =>
    obtain ⟨held,failed⟩ := t
    by_cases empty : key = []
    · simp [Trust.mark,empty] at trusted
    · cases failed <;> simp_all [Trust.mark]

theorem mark_two {t : Option Trust} {key : UString} (failed : Trust.mark t key = 2) :
    ∀ next ∈ Trust.heard t (some key), next.failed = true := by
  cases t with
  | none => simp [Trust.mark] at failed
  | some t =>
    obtain ⟨held,failed_⟩ := t
    by_cases empty : key = []
    · simp [Trust.mark,empty] at failed
    · cases failed_ <;> simp_all [Trust.mark,Trust.heard]

theorem mem_shown (named : Named calls) {json : DeviceObject} (member : json ∈ shown calls devices) :
    ∃ listed, entry devices json.u.text = some listed ∧ rkey json = rkey listed ∧
      json.v = Trust.mark (trust (after calls) json.u.text) (rkey json) := by
  obtain ⟨label,found⟩ := (mem_verifyDevices (labelled_after named) json).mp member
  obtain rfl := marked_text found
  obtain ⟨listed,here,same⟩ := Option.map_eq_some_iff.mp found
  have key : rkey json = rkey listed := by
    rw [← same]
    rfl
  refine ⟨listed,here,key,?_⟩
  rw [key]
  exact (congrArg DeviceObject.v same).symm

/-- Trust is not regained unless the device is verified, as long as no device without a label is. -/
theorem verification_guarded (calls : List Call) (devices : List DeviceObject) (named : Named calls) :
    Guarded calls devices where
  verified := by
    intro json member trusted
    obtain ⟨-,-,-,mark⟩ := mem_shown named member
    obtain ⟨past,given,agent,since,split,text,lists⟩ := trust_origin named (mark_one (mark.symm.trans trusted))
    refine ⟨past,given,agent,since,split,text,fun heard member => ?_⟩
    obtain ⟨listed,found,same⟩ := lists heard member
    exact ⟨listed,found,same rfl⟩
  listed := by
    intro json member
    obtain ⟨listed,found,same,-⟩ := mem_shown named member
    exact ⟨listed,found,same.symm⟩
  sticky := by
    rintro past heard since rfl other seen failed unverified json member same trusted
    have before : Named past := fun key agent member => named key agent (List.mem_append_left _ member)
    have later : Named since := fun key agent member =>
      named key agent (List.mem_append_right past (List.mem_cons_of_mem _ member))
    obtain ⟨-,-,-,mark⟩ := mem_shown named member
    obtain ⟨listed,found,key,mark'⟩ := mem_shown before seen
    have labelled := labelled_after before
    have next : trust (apply (after past) (.verifyDevices heard)) other.u.text =
        Trust.heard (trust (after past) other.u.text) ((entry heard other.u.text).map rkey) :=
      trust_apply labelled (.verifyDevices heard) (by simp) other.u.text
    rw [found,Option.map_some] at next
    have stays := failed_stays (labelled.apply (.verifyDevices heard) (by simp)) later unverified fun t held =>
      mark_two (mark'.symm.trans failed) t (by rw [key]; exact next.symm.trans held)
    have held := mark_one (mark.symm.trans trusted)
    rw [after,List.foldl_append,same] at held
    exact absurd (stays _ held) Bool.false_ne_true
  labels := verifyDevices_labels (labelled_after named)

/-- A device is verified under a null label. The mark 2 for another key is not stored. -/
theorem null_label_regained : ¬Guarded [.verifyDevice none [1] none,.verifyDevices [{ u := none, k := some "02" }]]
    [{ u := none, k := some "01" }] := by
  intro guarded
  exact guarded.sticky [.verifyDevice none [1] none] [{ u := none, k := some "02" }] [] rfl
    { u := none, k := some "02", v := 2 } (by decide) rfl (by simp) { u := none, k := some "01", v := 1 }
    (by decide) rfl rfl

theorem verification_guarded_phone : Guarded [.verifyDevice (some "phone") [1] none,
    .verifyDevices [{ u := some "phone", k := some "01" }]] [{ u := some "phone", k := some "02" }] :=
  verification_guarded _ _ (by intro key agent member; simp at member)

end Run

end SipWitch.Devices
