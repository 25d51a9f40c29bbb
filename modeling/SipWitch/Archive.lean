import SipWitch.Fanout

/-! The archive of an extension is its endpoint without a label, and a device is one of
its labelled endpoints. Whatever is in the box of an archive has to be in the boxes of
the devices, or a copy of the archive's box to the device's is still to come. -/
namespace SipWitch

open Database Tables

/-- The endpoint has a row for the message. -/
def Boxed (t : Tables) (endpoint mid : Int) : Prop := ∃ row ∈ t.outboxes, row.key = (endpoint,mid)

instance (t : Tables) (endpoint mid : Int) : Decidable (Boxed t endpoint mid) :=
  inferInstanceAs (Decidable (∃ row ∈ t.outboxes.rows, _))

/-- An archive and a device of one extension. -/
structure Paired (t : Tables) (archive device : EndpointRow) : Prop where
  archived : archive ∈ t.endpoints
  known : device ∈ t.endpoints
  unlabelled : archive.label = "NONE"
  labelled : device.labelled = true
  extension : device.extnbr = archive.extnbr

/-- The tables while `copies` are outstanding and a message is about to be stored for the
endpoints of `sendList`. -/
structure Archived (t : Tables) (copies : List OutboxRequest) (sendList : List Int) : Prop where
  issued : ∀ endpoint mid, Boxed t endpoint mid → mid < t.messages.next
  housed : ∀ endpoint mid, Boxed t endpoint mid → endpoint < t.endpoints.next
  parents : t.enforced = true → ∀ endpoint mid, Boxed t endpoint mid →
    t.hasMessage mid ∧ t.hasEndpoint endpoint
  listed : ∀ endpoint ∈ sendList, t.hasEndpoint endpoint
  apart : sendList.Nodup
  covered : ∀ archive device, Paired t archive device →
    .copy archive.endpoint device.endpoint ∈ copies ∨
    ∀ mid, Boxed t archive.endpoint mid → Boxed t device.endpoint mid
  gathered : ∀ archive device, Paired t archive device →
    .copy archive.endpoint device.endpoint ∈ copies ∨
    (archive.endpoint ∈ sendList → device.endpoint ∈ sendList)
  targets : ∀ source target, .copy source target ∈ copies → target < t.endpoints.next ∧
    ∀ row ∈ t.endpoints, row.endpoint = target → row.labelled = true ∨ source = target

variable {t t' : Tables} {copies : List OutboxRequest} {sendList : List Int}
  {archive device : EndpointRow}

theorem Paired.endpoint_ne (paired : Paired t archive device) :
    archive.endpoint ≠ device.endpoint := by
  intro same
  have labelled := paired.labelled
  rw [← Serial.unique_id paired.archived paired.known same] at labelled
  simp [EndpointRow.labelled,paired.unlabelled] at labelled

theorem hasEndpoint_of_mem {row : EndpointRow} (known : row ∈ t.endpoints) :
    t.hasEndpoint row.endpoint := hasEndpoint_iff.mpr ⟨row,known,rfl⟩

theorem endpoint_lt {endpoint : Int} (known : t.hasEndpoint endpoint) :
    endpoint < t.endpoints.next := by
  obtain ⟨row,stored,rfl⟩ := hasEndpoint_iff.mp known
  exact (t.endpoints.issued row stored).2

theorem boxed_setStatus (status : Int) (condition : OutboxRow → Bool) (endpoint mid : Int) :
    Boxed (t.setStatus status condition) endpoint mid ↔ Boxed t endpoint mid := by
  simp only [Boxed,mem_setStatus]
  constructor
  · rintro ⟨row,⟨old,member,rfl⟩,key⟩
    refine ⟨old,member,?_⟩
    rw [← key]
    split <;> rfl
  · rintro ⟨row,member,key⟩
    refine ⟨_,⟨row,member,rfl⟩,?_⟩
    rw [← key]
    split <;> rfl

/-- Only the status of rows may change. -/
theorem Archived.setStatus (archived : Archived t copies sendList) (status : Int)
    (condition : OutboxRow → Bool) : Archived (t.setStatus status condition) copies sendList where
  issued endpoint mid boxed := archived.issued endpoint mid ((boxed_setStatus ..).mp boxed)
  housed endpoint mid boxed := archived.housed endpoint mid ((boxed_setStatus ..).mp boxed)
  parents enforced endpoint mid boxed :=
    archived.parents enforced endpoint mid ((boxed_setStatus ..).mp boxed)
  listed := archived.listed
  apart := archived.apart
  covered archive device paired := by
    simp only [boxed_setStatus]
    exact archived.covered archive device ⟨paired.archived,paired.known,paired.unlabelled,
      paired.labelled,paired.extension⟩
  gathered archive device paired := archived.gathered archive device ⟨paired.archived,
    paired.known,paired.unlabelled,paired.labelled,paired.extension⟩
  targets := archived.targets

/-- What deleting endpoints or messages leaves of the tables: the boxes go with their
endpoint or, at all endpoints together, with their message. -/
structure Narrowed (t t' : Tables) : Prop where
  enforced : t'.enforced = t.enforced
  endpoints : ∀ row ∈ t'.endpoints, row ∈ t.endpoints
  nextEndpoint : t'.endpoints.next = t.endpoints.next
  nextMessage : t'.messages.next = t.messages.next
  boxes : ∀ row ∈ t'.outboxes, row ∈ t.outboxes
  kept : ∀ endpoint mid other, Boxed t endpoint mid → t'.hasEndpoint endpoint →
    Boxed t' other mid → Boxed t' endpoint mid
  parents : t'.enforced = true → ∀ endpoint mid, Boxed t' endpoint mid →
    t'.hasMessage mid ∧ t'.hasEndpoint endpoint

theorem Narrowed.boxed (narrowed : Narrowed t t') {endpoint mid : Int}
    (boxed : Boxed t' endpoint mid) : Boxed t endpoint mid :=
  boxed.imp fun row h => ⟨narrowed.boxes row h.1,h.2⟩

theorem Archived.narrowed (archived : Archived t copies []) (narrowed : Narrowed t t') :
    Archived t' copies [] where
  issued endpoint mid boxed := by
    rw [narrowed.nextMessage]
    exact archived.issued endpoint mid (narrowed.boxed boxed)
  housed endpoint mid boxed := by
    rw [narrowed.nextEndpoint]
    exact archived.housed endpoint mid (narrowed.boxed boxed)
  parents := narrowed.parents
  listed _ member := absurd member List.not_mem_nil
  apart := archived.apart
  covered archive device paired := by
    have before : Paired t archive device := ⟨narrowed.endpoints _ paired.archived,
      narrowed.endpoints _ paired.known,paired.unlabelled,paired.labelled,paired.extension⟩
    refine (archived.covered archive device before).imp_right fun covers mid boxed => ?_
    exact narrowed.kept _ mid _ (covers mid (narrowed.boxed boxed))
      (hasEndpoint_of_mem paired.known) boxed
  gathered _ _ _ := .inr fun member => absurd member List.not_mem_nil
  targets source target queued := by
    obtain ⟨bound,labelled⟩ := archived.targets source target queued
    rw [narrowed.nextEndpoint]
    exact ⟨bound,fun row known => labelled row (narrowed.endpoints row known)⟩

/-- Every box has its parents, where they are asked for. -/
def Parented (t : Tables) : Prop := t.enforced = true → ∀ endpoint mid, Boxed t endpoint mid →
  t.hasMessage mid ∧ t.hasEndpoint endpoint

/-- Sweeping after a deletion narrows the tables as they were before it. -/
theorem sweep_narrowed (parented : Parented t) (enforced : t'.enforced = t.enforced)
    (endpoints : ∀ row ∈ t'.endpoints, row ∈ t.endpoints)
    (nextEndpoint : t'.endpoints.next = t.endpoints.next)
    (nextMessage : t'.messages.next = t.messages.next)
    (outboxes : t'.outboxes = t.outboxes) : Narrowed t (t'.sweep t) := by
  cases files : t'.enforced with
  | false =>
    have same : t'.sweep t = t' := by simp [Tables.sweep,files]
    have boxed (endpoint mid : Int) : Boxed t' endpoint mid ↔ Boxed t endpoint mid := by
      simp only [Boxed,outboxes]
    rw [same]
    refine ⟨enforced,endpoints,nextEndpoint,nextMessage,?_,?_,?_⟩
    · rw [outboxes]; exact fun row member => member
    · exact fun endpoint mid _ before _ _ => (boxed endpoint mid).mpr before
    · intro on
      rw [files] at on
      contradiction
  | true =>
    have same : t'.sweep t = t'.cascade t := by simp [Tables.sweep,files]
    have kept := parented (enforced.symm.trans files)
    have listed (row : OutboxRow) : row ∈ (t'.cascade t).outboxes ↔ row ∈ t.outboxes ∧
        (t'.cascade t).hasMessage row.mid = true ∧
        (t'.cascade t).hasEndpoint row.endpoint = true := by
      have rest : row ∈ (t'.cascade t).outboxes ↔ row ∈ t.outboxes ∧
          ((t'.cascade t).lostMessage t row.mid || (t'.cascade t).lostEndpoint t row.endpoint) =
            false := by
        simp only [Tables.cascade,Table.mem_delete,outboxes]
        exact Iff.rfl
      rw [rest]
      refine and_congr_right fun member => ?_
      obtain ⟨stored,housed⟩ := kept row.endpoint row.mid ⟨row,member,rfl⟩
      simp [Tables.lostMessage,Tables.lostEndpoint,stored,housed]
    rw [same]
    refine ⟨enforced,?_,nextEndpoint,nextMessage,?_,?_,?_⟩
    · exact fun row member => endpoints row (Serial.mem_delete.mp member).1
    · exact fun row member => ((listed row).mp member).1
    · rintro endpoint mid other ⟨row,member,key⟩ standing ⟨beside,present,same⟩
      obtain ⟨rfl,rfl⟩ := Prod.mk.inj key
      have stored := ((listed beside).mp present).2.1
      rw [(Prod.mk.inj same).2] at stored
      exact ⟨row,(listed row).mpr ⟨member,stored,standing⟩,rfl⟩
    · rintro - endpoint mid ⟨row,member,key⟩
      cases key
      exact ((listed row).mp member).2

theorem deleteEndpoint_narrowed (parented : Parented t) (endpoint : Int) :
    Narrowed t (t.deleteEndpoint endpoint) :=
  sweep_narrowed parented rfl (fun _ member => (Serial.mem_delete.mp member).1) rfl rfl rfl

theorem deleteMessages_narrowed (parented : Parented t) (before : Int) :
    Narrowed t (t.deleteMessages before) :=
  sweep_narrowed parented rfl (fun _ member => member) rfl rfl rfl

/-- Requests that copy into no archive but its own may be queued. -/
theorem Archived.enqueue (archived : Archived t copies sendList) (more : List OutboxRequest)
    (targets : ∀ source target, .copy source target ∈ more → target < t.endpoints.next ∧
      ∀ row ∈ t.endpoints, row.endpoint = target → row.labelled = true ∨ source = target) :
    Archived t (copies ++ more) sendList where
  issued := archived.issued
  housed := archived.housed
  parents := archived.parents
  listed := archived.listed
  apart := archived.apart
  covered archive device paired :=
    (archived.covered archive device paired).imp_left (List.mem_append_left _)
  gathered archive device paired :=
    (archived.gathered archive device paired).imp_left (List.mem_append_left _)
  targets source target queued := by
    rcases List.mem_append.mp queued with before | new
    · exact archived.targets source target before
    · exact targets source target new

section Insert

variable {number created : Int} {label : UString} (extension : t.hasExtension number)
  (vacant : t.endpoint? number label = none)

include extension vacant

theorem endpoint?_insertEndpoint : (t.insertEndpoint number label created).endpoint? number label =
    some { endpoint := t.endpoints.next, extnbr := number, label, created } :=
  endpoint?_eq_some.mpr ⟨(mem_insertEndpoint created extension vacant _).mpr (.inr rfl),rfl⟩

/-- A pair either was one before, or the copy that is queued with the new label is the one it needs. -/
theorem paired_insertEndpoint {archive device : EndpointRow}
    (paired : Paired (t.insertEndpoint number label created) archive device) :
    Paired t archive device ∨ archive = { endpoint := t.endpoints.next, extnbr := number, label, created } ∨
      .copy archive.endpoint device.endpoint = OutboxRequest.copy
        (Authorize.endpointId ((t.insertEndpoint number label created).endpoint? number "NONE"))
        (Authorize.endpointId ((t.insertEndpoint number label created).endpoint? number label)) := by
  have listed := mem_insertEndpoint created extension vacant
  rcases (listed archive).mp paired.archived with old | here
  · rcases (listed device).mp paired.known with older | here
    · exact .inl ⟨old,older,paired.unlabelled,paired.labelled,paired.extension⟩
    · have origin : (t.insertEndpoint number label created).endpoint? number "NONE" = some archive := by
        refine endpoint?_eq_some.mpr ⟨paired.archived,Prod.ext ?_ paired.unlabelled⟩
        rw [EndpointRow.key,← paired.extension,here]
      rw [origin,endpoint?_insertEndpoint extension vacant,here]
      exact .inr (.inr rfl)
  · exact .inr (.inl here)

end Insert

/-- A new label is empty, so the copy queued with it is all that it lacks. -/
theorem Archived.insertEndpoint (archived : Archived t copies sendList) {number : Int}
    {label : UString} {created : Int} (extension : t.hasExtension number)
    (vacant : t.endpoint? number label = none) :
    let t' := t.insertEndpoint number label created
    Archived t' (copies ++ [.copy (Authorize.endpointId (t'.endpoint? number "NONE"))
      (Authorize.endpointId (t'.endpoint? number label))]) sendList := by
  intro t'
  let new : EndpointRow := { endpoint := t.endpoints.next, extnbr := number, label, created }
  have listed := mem_insertEndpoint created extension vacant
  have stored : new ∈ t'.endpoints := (listed new).mpr (.inr rfl)
  have found : t'.endpoint? number label = some new := endpoint?_insertEndpoint extension vacant
  have boxed (endpoint mid : Int) : Boxed t' endpoint mid ↔ Boxed t endpoint mid := by
    simp [Boxed,t']
  have messages : t'.messages = t.messages := insertEndpoint_messages number label created
  have enforced : t'.enforced = t.enforced := insertEndpoint_enforced number label created
  have grown {endpoint : Int} (known : t.hasEndpoint endpoint = true) :
      t'.hasEndpoint endpoint = true := by
    obtain ⟨row,member,same⟩ := hasEndpoint_iff.mp known
    exact hasEndpoint_iff.mpr ⟨row,(listed row).mpr (.inl member),same⟩
  have next := insertEndpoint_next t number label created
  have queued (request : OutboxRequest) : request ∈ copies ++ [request] := by simp
  refine ⟨?_,?_,?_,?_,archived.apart,?_,?_,?_⟩
  · intro endpoint mid box
    rw [messages]
    exact archived.issued endpoint mid ((boxed _ _).mp box)
  · intro endpoint mid box
    exact Int.lt_of_lt_of_le (archived.housed endpoint mid ((boxed _ _).mp box)) next
  · intro on endpoint mid box
    rw [enforced] at on
    obtain ⟨message,endpoint⟩ := archived.parents on endpoint mid ((boxed _ _).mp box)
    refine ⟨?_,grown endpoint⟩
    rw [Tables.hasMessage,messages]
    exact message
  · exact fun endpoint member => grown (archived.listed endpoint member)
  · intro archive device pair
    simp only [boxed]
    rcases paired_insertEndpoint extension vacant pair with before | here | request
    · exact (archived.covered archive device before).imp_left (List.mem_append_left _)
    · refine .inr fun mid box => absurd (archived.housed _ _ box) ?_
      rw [here]
      exact Int.lt_irrefl _
    · rw [request]
      exact .inl (queued _)
  · intro archive device pair
    rcases paired_insertEndpoint extension vacant pair with before | here | request
    · exact (archived.gathered archive device before).imp_left (List.mem_append_left _)
    · refine .inr fun member => absurd (endpoint_lt (archived.listed _ member)) ?_
      rw [here]
      exact Int.lt_irrefl _
    · rw [request]
      exact .inl (queued _)
  · intro source target member
    rcases List.mem_append.mp member with before | last
    · obtain ⟨bound,labelled⟩ := archived.targets source target before
      refine ⟨Int.lt_of_lt_of_le bound next,fun row known same => ?_⟩
      rcases (listed row).mp known with old | here
      · exact labelled row old same
      · rw [← same,here] at bound
        exact absurd bound (Int.lt_irrefl _)
    · cases List.mem_singleton.mp last
      rw [found]
      refine ⟨(t'.endpoints.issued new stored).2,fun row known same => ?_⟩
      have here : row = new := Serial.unique_id known stored same
      by_cases archive : label = UString.ascii "NONE"
      · right
        rw [← archive,found]
      · left
        rw [here]
        exact decide_eq_true archive

section Copy

variable {row : OutboxRow} {target : Int}

@[simp] theorem insertOutbox_endpoints : (t.insertOutbox row).endpoints = t.endpoints := by
  simp only [Tables.insertOutbox]
  split <;> rfl

@[simp] theorem insertOutbox_messages : (t.insertOutbox row).messages = t.messages := by
  simp only [Tables.insertOutbox]
  split <;> rfl

@[simp] theorem insertOutbox_enforced : (t.insertOutbox row).enforced = t.enforced := by
  simp only [Tables.insertOutbox]
  split <;> rfl

theorem admits_iff_boxed (t : Tables) (row : OutboxRow) : t.outboxes.Admits row ↔ ¬Boxed t row.endpoint row.mid := by
  rw [Table.admits_iff,Boxed]
  push Not
  exact Iff.rfl

def Copyable (t : Tables) (target mid : Int) : Prop :=
  t.accepts (t.hasMessage mid && t.hasEndpoint target) = true

theorem mem_insertOutbox (row other : OutboxRow) (accepted : Copyable t row.endpoint row.mid) :
    other ∈ (t.insertOutbox row).outboxes ↔
      other ∈ t.outboxes ∨ ¬Boxed t row.endpoint row.mid ∧ other = row := by
  unfold Copyable at accepted
  rw [Tables.insertOutbox,if_pos accepted]
  exact Table.mem_insert.trans (by rw [admits_iff_boxed])

/-- A networked driver is given no absent row behind one that is there already: it stops
at the first row that is refused. -/
def Orderly (t : Tables) (target : Int) (rows : List OutboxRow) : Prop :=
  t.enforced = true → rows.Pairwise fun earlier later =>
    Boxed t target earlier.mid → Boxed t target later.mid

instance (t : Tables) (target : Int) (rows : List OutboxRow) : Decidable (Orderly t target rows) :=
  inferInstanceAs (Decidable (_ → List.Pairwise _ _))

@[simp] theorem copyRows_endpoints (rows : List OutboxRow) :
    (copyRows target rows t).endpoints = t.endpoints := by
  induction rows generalizing t with
  | nil => rfl
  | cons row rest ih => simp only [copyRows]; grind [insertOutbox_endpoints]

@[simp] theorem copyRows_messages (rows : List OutboxRow) :
    (copyRows target rows t).messages = t.messages := by
  induction rows generalizing t with
  | nil => rfl
  | cons row rest ih => simp only [copyRows]; grind [insertOutbox_messages]

@[simp] theorem copyRows_enforced (rows : List OutboxRow) :
    (copyRows target rows t).enforced = t.enforced := by
  induction rows generalizing t with
  | nil => rfl
  | cons row rest ih => simp only [copyRows]; grind [insertOutbox_enforced]

theorem copyable_insertOutbox {mid : Int} :
    Copyable (t.insertOutbox row) target mid ↔ Copyable t target mid := by
  simp [Copyable,Tables.accepts,Tables.hasMessage,Tables.hasEndpoint]

/-- The loop's own step: a row that is copied, and whether it goes on after one that is
not. -/
theorem copyRows_cons (target : Int) (source : OutboxRow) (rest : List OutboxRow) :
    (Copyable t target source.mid ∧ ¬Boxed t target source.mid ∧
      copyRows target (source :: rest) t =
        copyRows target rest (t.insertOutbox { mid := source.mid, endpoint := target })) ∨
    ((¬Copyable t target source.mid ∨ Boxed t target source.mid) ∧
      copyRows target (source :: rest) t = if t.enforced then t else copyRows target rest t) := by
  have refused := admits_iff_boxed t { mid := source.mid, endpoint := target }
  simp only [copyRows]
  split
  · rename_i fits
    exact .inl ⟨fits.1,refused.mp fits.2,rfl⟩
  · rename_i stuck
    refine .inr ⟨?_,rfl⟩
    rw [refused,not_and_or,not_not] at stuck
    exact stuck

/-- Rows are only added, and what is added waits in the target's box. -/
theorem mem_copyRows (rows : List OutboxRow) :
    (∀ row ∈ t.outboxes, row ∈ (copyRows target rows t).outboxes) ∧
    ∀ row ∈ (copyRows target rows t).outboxes, row ∈ t.outboxes ∨
      row.endpoint = target ∧ row.msgstatus = 0 ∧ Copyable t target row.mid ∧
        ∃ source ∈ rows, source.mid = row.mid := by
  induction rows generalizing t with
  | nil => exact ⟨fun _ member => member,fun _ member => .inl member⟩
  | cons source rest ih =>
    rcases copyRows_cons target source rest with
      ⟨fits,absent,next⟩ | ⟨-,next⟩ <;> rw [next]
    · obtain ⟨older,newer⟩ := ih (t := t.insertOutbox { mid := source.mid, endpoint := target })
      have inserted {row : OutboxRow} := mem_insertOutbox
        { mid := source.mid, endpoint := target } row fits
      constructor
      · exact fun row member => older row (inserted.mpr (.inl member))
      · intro row member
        rcases newer row member with old | ⟨here,waiting,copyable,other,listed,same⟩
        · rcases inserted.mp old with before | ⟨-,rfl⟩
          · exact .inl before
          · exact .inr ⟨rfl,rfl,fits,source,List.mem_cons_self,rfl⟩
        · exact .inr ⟨here,waiting,copyable_insertOutbox.mp copyable,other,
            List.mem_cons_of_mem _ listed,same⟩
    · split
      · exact ⟨fun _ member => member,fun _ member => .inl member⟩
      · obtain ⟨older,newer⟩ := ih (t := t)
        refine ⟨older,fun row member => (newer row member).imp_right ?_⟩
        rintro ⟨here,waiting,copyable,other,listed,same⟩
        exact ⟨here,waiting,copyable,other,List.mem_cons_of_mem _ listed,same⟩

theorem boxed_copyRows (rows : List OutboxRow) {endpoint mid : Int} (boxed : Boxed t endpoint mid) :
    Boxed (copyRows target rows t) endpoint mid :=
  boxed.imp fun row h => ⟨(mem_copyRows rows).1 row h.1,h.2⟩

/-- An orderly copy leaves the target nothing to miss. -/
theorem copyRows_complete (rows : List OutboxRow) (apart : (rows.map OutboxRow.mid).Nodup)
    (copyable : ∀ row ∈ rows, Copyable t target row.mid) (orderly : Orderly t target rows) :
    ∀ row ∈ rows, Boxed (copyRows target rows t) target row.mid := by
  induction rows generalizing t with
  | nil => simp
  | cons source rest ih =>
    rw [List.map_cons,List.nodup_cons] at apart
    have fits := copyable source List.mem_cons_self
    have later : ∀ row ∈ rest, Copyable t target row.mid :=
      fun row listed => copyable row (List.mem_cons_of_mem _ listed)
    rcases copyRows_cons target source rest with
      ⟨-,absent,next⟩ | ⟨stuck,next⟩ <;> rw [next]
    · have inserted {row : OutboxRow} := mem_insertOutbox
        { mid := source.mid, endpoint := target } row fits
      have boxed (mid : Int) : Boxed (t.insertOutbox { mid := source.mid, endpoint := target })
          target mid ↔ Boxed t target mid ∨ mid = source.mid := by
        simp only [Boxed,inserted]
        constructor
        · rintro ⟨row,old | ⟨-,rfl⟩,key⟩
          · exact .inl ⟨row,old,key⟩
          · exact .inr (congrArg Prod.snd key).symm
        · rintro (⟨row,old,key⟩ | rfl)
          · exact ⟨row,.inl old,key⟩
          · exact ⟨_,.inr ⟨absent,rfl⟩,rfl⟩
      have onward : Orderly (t.insertOutbox { mid := source.mid, endpoint := target }) target
          rest := by
        intro enforced
        rw [insertOutbox_enforced] at enforced
        refine (List.pairwise_cons.mp (orderly enforced)).2.imp_of_mem
          fun {earlier later} listed _ ordered taken => ?_
        rcases (boxed _).mp taken with before | same
        · exact (boxed _).mpr (.inl (ordered before))
        · exact absurd (List.mem_map.mpr ⟨earlier,listed,same⟩) apart.1
      intro row listed
      rcases List.mem_cons.mp listed with rfl | listed
      · exact boxed_copyRows rest ((boxed _).mpr (.inr rfl))
      · exact ih apart.2 (fun row listed => copyable_insertOutbox.mpr (later row listed)) onward
          row listed
    · have taken : Boxed t target source.mid := stuck.resolve_left (not_not.mpr fits)
      intro row listed
      split
      · rename_i enforced
        rcases List.mem_cons.mp listed with rfl | listed
        · exact taken
        · exact (List.pairwise_cons.mp (orderly enforced)).1 row listed taken
      · rename_i files
        rcases List.mem_cons.mp listed with rfl | listed
        · exact boxed_copyRows rest taken
        · exact ih apart.2 later (fun enforced => absurd enforced files) row listed

theorem copyable_of {mid : Int} (message : t.enforced = true → t.hasMessage mid = true)
    (endpoint : t.hasEndpoint target = true) : Copyable t target mid := by
  cases on : t.enforced with
  | false => simp [Copyable,Tables.accepts,on]
  | true => simp [Copyable,Tables.accepts,message on,endpoint]

def Listing (t : Tables) (source : Int) (rows : List OutboxRow) : Prop :=
  rows.Perm (t.outboxes.select fun row => row.endpoint = source)

theorem Listing.mem {source : Int} {rows : List OutboxRow} (listing : Listing t source rows) :
    row ∈ rows ↔ row ∈ t.outboxes ∧ row.endpoint = source := by
  rw [List.Perm.mem_iff listing,Table.mem_select,decide_eq_true_eq]

theorem Listing.apart {source : Int} {rows : List OutboxRow} (listing : Listing t source rows) :
    (rows.map OutboxRow.mid).Nodup := by
  refine (List.Perm.nodup_iff (List.Perm.map _ listing)).mpr
    (List.Nodup.map_on ?_ (t.outboxes.distinct.of_map.filter _))
  intro row member other listed same
  obtain ⟨known,here⟩ := Table.mem_select.mp member
  obtain ⟨stored,there⟩ := Table.mem_select.mp listed
  rw [decide_eq_true_eq] at here there
  exact Table.unique known stored (Prod.ext (here.trans there.symm) same)

/-- A finished copy settles the pair it was queued for. -/
theorem Archived.copied {source : Int} {rows : List OutboxRow}
    (archived : Archived t (.copy source target :: copies) []) (listing : Listing t source rows)
    (orderly : Orderly t target rows) : Archived (copyRows target rows t) copies [] := by
  have boxed {endpoint mid : Int} (box : Boxed (copyRows target rows t) endpoint mid) :
      Boxed t endpoint mid ∨ endpoint = target ∧ Copyable t target mid ∧ Boxed t source mid := by
    obtain ⟨row,member,key⟩ := box
    obtain ⟨rfl,rfl⟩ := Prod.mk.inj key
    refine ((mem_copyRows rows).2 row member).imp (fun old => ⟨row,old,rfl⟩) ?_
    rintro ⟨here,-,copyable,original,listed,same⟩
    obtain ⟨known,from_⟩ := listing.mem.mp listed
    exact ⟨here,copyable,original,known,Prod.ext from_ same⟩
  have before {archive device : EndpointRow} (paired : Paired (copyRows target rows t) archive
      device) : Paired t archive device :=
    ⟨copyRows_endpoints (t := t) rows ▸ paired.archived,
      copyRows_endpoints (t := t) rows ▸ paired.known,paired.unlabelled,paired.labelled,
      paired.extension⟩
  obtain ⟨bound,labelled⟩ := archived.targets source target List.mem_cons_self
  refine ⟨?_,?_,?_,?_,List.nodup_nil,?_,?_,?_⟩
  · intro endpoint mid box
    rw [copyRows_messages]
    rcases boxed box with old | ⟨-,-,original⟩
    · exact archived.issued endpoint mid old
    · exact archived.issued source mid original
  · intro endpoint mid box
    rw [copyRows_endpoints]
    rcases boxed box with old | ⟨rfl,-⟩
    · exact archived.housed endpoint mid old
    · exact bound
  · intro on endpoint mid box
    rw [copyRows_enforced] at on
    simp only [Tables.hasMessage,Tables.hasEndpoint,copyRows_messages,copyRows_endpoints]
    rcases boxed box with old | ⟨rfl,copyable,-⟩
    · exact archived.parents on endpoint mid old
    · have keys : t.hasMessage mid = true ∧ t.hasEndpoint endpoint = true := by
        simpa [Copyable,Tables.accepts,on] using copyable
      exact keys
  · exact fun endpoint member => absurd member List.not_mem_nil
  · intro archive device paired
    have pair := before paired
    rcases archived.covered archive device pair with queued | covers
    · rcases List.mem_cons.mp queued with head | later
      · cases head
        refine .inr fun mid box => ?_
        have original : Boxed t archive.endpoint mid :=
          (boxed box).resolve_right fun new => pair.endpoint_ne new.1
        obtain ⟨row,known,key⟩ := original
        obtain ⟨here,rfl⟩ := Prod.mk.inj key
        refine copyRows_complete rows listing.apart (fun row listed => ?_) orderly row
          (listing.mem.mpr ⟨known,here⟩)
        exact copyable_of (fun on => (archived.parents on _ _
          ⟨row,(listing.mem.mp listed).1,rfl⟩).1) (hasEndpoint_of_mem pair.known)
      · exact .inl later
    · refine .inr fun mid box => ?_
      have original : Boxed t archive.endpoint mid := by
        rcases boxed box with old | ⟨here,-,original⟩
        · exact old
        · rcases labelled archive pair.archived here with device | same
          · simp [EndpointRow.labelled,pair.unlabelled] at device
          · rw [here,← same]
            exact original
      exact boxed_copyRows rows (covers mid original)
  · exact fun archive device _ => .inr fun member => absurd member List.not_mem_nil
  · intro source target queued
    rw [copyRows_endpoints]
    exact archived.targets source target (List.mem_cons_of_mem _ queued)

end Copy

/-- A request that copies nothing may be dropped when it is done. -/
theorem Archived.served {endpoint : Int}
    (archived : Archived t (.sync endpoint :: copies) sendList) : Archived t copies sendList where
  issued := archived.issued
  housed := archived.housed
  parents := archived.parents
  listed := archived.listed
  apart := archived.apart
  covered archive device paired := (archived.covered archive device paired).imp_left
    fun queued => (List.mem_cons.mp queued).resolve_left (by simp)
  gathered archive device paired := (archived.gathered archive device paired).imp_left
    fun queued => (List.mem_cons.mp queued).resolve_left (by simp)
  targets source target queued :=
    archived.targets source target (List.mem_cons_of_mem _ queued)

/-- A message slot that reads all endpoints of an extension, or only devices, keeps its
list the same for archives and devices. -/
theorem Archived.gather (archived : Archived t copies sendList) (rows : List EndpointRow)
    (known : ∀ row ∈ rows, row ∈ t.endpoints)
    (alike : ∀ archive device, Paired t archive device → archive ∈ rows → device ∈ rows) :
    Archived t copies (rows.foldl (fun list row => list.insert row.endpoint) sendList) := by
  refine ⟨archived.issued,archived.housed,archived.parents,?_,?_,archived.covered,?_,
    archived.targets⟩
  · intro endpoint member
    rcases (mem_foldl_insert ..).mp member with old | ⟨row,listed,rfl⟩
    · exact archived.listed endpoint old
    · exact hasEndpoint_of_mem (known row listed)
  · exact nodup_foldl_insert _ _ _ archived.apart
  · intro archive device paired
    refine (archived.gathered archive device paired).imp_right fun gathered member => ?_
    rcases (mem_foldl_insert ..).mp member with old | ⟨row,listed,same⟩
    · exact (mem_foldl_insert ..).mpr (.inl (gathered old))
    · have here := Serial.unique_id (known row listed) paired.archived same
      exact (mem_foldl_insert ..).mpr
        (.inr ⟨device,alike archive device paired (here ▸ listed),rfl⟩)

theorem Archived.relist {sendList' : List Int} (archived : Archived t copies sendList)
    (same : ∀ endpoint, endpoint ∈ sendList' ↔ endpoint ∈ sendList) (apart : sendList'.Nodup) :
    Archived t copies sendList' where
  issued := archived.issued
  housed := archived.housed
  parents := archived.parents
  listed endpoint member := archived.listed endpoint ((same endpoint).mp member)
  apart := apart
  covered := archived.covered
  gathered archive device paired := by
    rw [same,same]
    exact archived.gathered archive device paired
  targets := archived.targets

theorem Archived.dismiss (archived : Archived t copies sendList) : Archived t copies [] where
  issued := archived.issued
  housed := archived.housed
  parents := archived.parents
  listed _ member := absurd member List.not_mem_nil
  apart := List.nodup_nil
  covered := archived.covered
  gathered _ _ _ := .inr fun member => absurd member List.not_mem_nil
  targets := archived.targets

section Store

variable {d after : Database} {message : MessageRow} {data : MessageData}
  {boxes : List (Int × Int)}

theorem insertMessage_next (row : MessageRow) :
    (t.insertMessage row).messages.next = t.messages.next + 1 := by
  have admitted := messages_accept t { row with mid := t.messages.next } rfl
  simp only [Tables.insertMessage,Serial.insert]
  rw [dif_pos admitted]

theorem hasMessage_grows (row : MessageRow) {mid : Int} (known : t.hasMessage mid = true) :
    (t.insertMessage row).hasMessage mid = true := by
  obtain ⟨old,stored,same⟩ := hasMessage_iff.mp known
  exact hasMessage_iff.mpr ⟨old,Serial.mem_insert.mpr (.inl stored),same⟩

theorem Archived.unused (archived : Archived t copies sendList) (row : OutboxRow)
    (known : row ∈ t.outboxes) : row.mid ≠ t.messages.next :=
  Int.ne_of_lt (archived.issued _ _ ⟨row,known,rfl⟩)

/-- What storing a message does to the tables that boxes are about. -/
structure Boxing (d after : Database) (mid : Int) (boxes : List (Int × Int)) : Prop where
  issued : mid = d.tables.messages.next
  rows : after.tables.outboxes.rows = d.tables.outboxes.rows ++ boxes.map (boxRow mid)
  endpoints : after.tables.endpoints = d.tables.endpoints
  messages : ∃ row, after.tables.messages = (d.tables.insertMessage row).messages
  enforced : after.tables.enforced = d.tables.enforced
  copies : after.copies = d.copies

theorem Archived.boxing (archived : Archived d.tables copies (boxes.map Prod.fst))
    (stored : Stored d after message data boxes) : Boxing d after message.mid boxes := by
  obtain ⟨ready,posting,mid,tables,-,kept⟩ := stored
  have postable : Postable ready.tables message.mid boxes := by
    rw [tables,mid]
    refine ⟨hasMessage_insertMessage _ _,fun box member => ?_,fun row known box _ same => ?_,
      archived.apart⟩
    · exact archived.listed _ (List.mem_map_of_mem member)
    · exact archived.unused row known (congrArg Prod.snd same)
  have posted := foldl_posted data postable
  rw [← posting] at posted
  obtain ⟨-,-,endpoints,-,-,-,-,-,messages,-,enforced⟩ := Tables.mk.inj (posted.others default)
  rw [tables] at endpoints messages enforced
  exact ⟨mid,by rw [posted.rows,tables]; rfl,endpoints,⟨message,messages⟩,enforced,
    posted.copies.trans kept⟩

/-- A stored message is in the box of each endpoint of the list that was read. -/
theorem Archived.stored (archived : Archived d.tables copies (boxes.map Prod.fst))
    (stored : Stored d after message data boxes) : Archived after.tables copies [] := by
  obtain ⟨mid,rows,endpoints,⟨row,messages⟩,enforced,-⟩ := archived.boxing stored
  have boxed (endpoint other : Int) : Boxed after.tables endpoint other ↔
      Boxed d.tables endpoint other ∨ other = message.mid ∧ endpoint ∈ boxes.map Prod.fst := by
    simp only [Boxed,← Table.mem_rows,rows,List.mem_append,List.mem_map]
    constructor
    · rintro ⟨row,old | ⟨box,member,rfl⟩,key⟩
      · exact .inl ⟨row,old,key⟩
      · obtain ⟨rfl,rfl⟩ := Prod.mk.inj key
        exact .inr ⟨rfl,box,member,rfl⟩
    · rintro (⟨row,old,key⟩ | ⟨rfl,box,member,rfl⟩)
      · exact ⟨row,.inl old,key⟩
      · exact ⟨_,.inr ⟨box,member,rfl⟩,rfl⟩
  have next : after.tables.messages.next = d.tables.messages.next + 1 := by
    rw [messages]
    exact insertMessage_next row
  have before {archive device : EndpointRow} (paired : Paired after.tables archive device) :
      Paired d.tables archive device :=
    ⟨endpoints ▸ paired.archived,endpoints ▸ paired.known,paired.unlabelled,paired.labelled,
      paired.extension⟩
  refine ⟨?_,?_,?_,?_,List.nodup_nil,?_,?_,?_⟩
  · intro endpoint other box
    rw [next]
    rcases (boxed ..).mp box with old | ⟨rfl,-⟩
    · exact Int.lt_add_one_of_le (Int.le_of_lt (archived.issued _ _ old))
    · rw [mid]
      exact Int.lt_add_one_of_le (Int.le_refl _)
  · intro endpoint other box
    rw [endpoints]
    rcases (boxed ..).mp box with old | ⟨-,listed⟩
    · exact archived.housed _ _ old
    · exact endpoint_lt (archived.listed _ listed)
  · intro on endpoint other box
    rw [enforced] at on
    simp only [Tables.hasMessage,Tables.hasEndpoint,endpoints,messages]
    rcases (boxed ..).mp box with old | ⟨rfl,listed⟩
    · obtain ⟨known,standing⟩ := archived.parents on _ _ old
      exact ⟨hasMessage_grows row known,standing⟩
    · refine ⟨?_,archived.listed _ listed⟩
      rw [mid]
      exact hasMessage_insertMessage _ row
  · exact fun endpoint member => absurd member List.not_mem_nil
  · intro archive device paired
    have pair := before paired
    rcases archived.covered archive device pair with queued | covers
    · exact .inl queued
    · refine (archived.gathered archive device pair).imp_right fun gathered other box => ?_
      exact (boxed ..).mpr (((boxed ..).mp box).imp (covers other) (And.imp_right gathered))
  · exact fun archive device _ => .inr fun member => absurd member List.not_mem_nil
  · intro source target queued
    rw [endpoints]
    exact archived.targets source target queued

end Store

/-- Statements that concern neither endpoints nor messages. -/
structure SameBoxes (t t' : Tables) : Prop where
  endpoints : t'.endpoints = t.endpoints
  messages : t'.messages = t.messages
  outboxes : t'.outboxes = t.outboxes
  enforced : t'.enforced = t.enforced

theorem Archived.same (archived : Archived t copies sendList) (same : SameBoxes t t') :
    Archived t' copies sendList := by
  have boxed (endpoint mid : Int) : Boxed t' endpoint mid ↔ Boxed t endpoint mid := by
    simp only [Boxed,same.outboxes]
  have stored (mid : Int) : t'.hasMessage mid = t.hasMessage mid := by
    simp only [Tables.hasMessage,same.messages]
  have standing (endpoint : Int) : t'.hasEndpoint endpoint = t.hasEndpoint endpoint := by
    simp only [Tables.hasEndpoint,same.endpoints]
  have paired (archive device : EndpointRow) (pair : Paired t' archive device) :
      Paired t archive device := ⟨same.endpoints ▸ pair.archived,same.endpoints ▸ pair.known,
    pair.unlabelled,pair.labelled,pair.extension⟩
  refine ⟨?_,?_,?_,?_,archived.apart,?_,?_,?_⟩
  · simp only [boxed,same.messages]
    exact archived.issued
  · simp only [boxed,same.endpoints]
    exact archived.housed
  · simp only [boxed,same.enforced,stored,standing]
    exact archived.parents
  · simp only [standing]
    exact archived.listed
  · simp only [boxed]
    exact fun archive device pair => archived.covered archive device (paired _ _ pair)
  · exact fun archive device pair => archived.gathered archive device (paired _ _ pair)
  · rw [same.endpoints]
    exact archived.targets

/-- The rows that a label was given or had reset are not done before they are answered
for again. -/
structure Renewed (t : Tables) (renewed : List (Int × Int)) : Prop where
  issued : ∀ key ∈ renewed, key.2 < t.messages.next
  pending : ∀ row ∈ t.outboxes, row.key ∈ renewed → row.msgstatus ≠ 200

section Renewal

variable {renewed renewed' : List (Int × Int)}

theorem Renewed.narrowed (holds : Renewed t renewed) (next : t'.messages.next = t.messages.next)
    (boxes : ∀ row ∈ t'.outboxes, row ∈ t.outboxes) : Renewed t' renewed where
  issued key member := by
    rw [next]
    exact holds.issued key member
  pending row member := holds.pending row (boxes row member)

theorem Renewed.same (holds : Renewed t renewed) (same : SameBoxes t t') : Renewed t' renewed :=
  holds.narrowed (by rw [same.messages]) (by rw [same.outboxes]; exact fun row member => member)

/-- A status that is written on rows may be the final one only if these are struck off. -/
theorem Renewed.setStatus (holds : Renewed t renewed) (status : Int) (condition : OutboxRow → Bool)
    (older : ∀ key ∈ renewed', key ∈ renewed ∨
      status ≠ 200 ∧ ∃ row ∈ t.outboxes, row.key = key ∧ condition row = true)
    (struck : status = 200 → ∀ row ∈ t.outboxes, condition row = true → row.key ∉ renewed')
    (issued : ∀ row ∈ t.outboxes, row.mid < t.messages.next) :
    Renewed (t.setStatus status condition) renewed' where
  issued key member := by
    rcases older key member with old | ⟨-,row,known,rfl,-⟩
    · exact holds.issued key old
    · exact issued row known
  pending row member listed := by
    obtain ⟨old,known,rfl⟩ := mem_setStatus.mp member
    by_cases written : condition old = true
    · rw [if_pos written] at listed ⊢
      exact fun final => struck final old known written listed
    · rw [if_neg written] at listed ⊢
      rcases older _ listed with before | ⟨-,other,stored,key,applies⟩
      · exact holds.pending old known before
      · rw [Table.unique stored known key] at applies
        exact absurd applies written

theorem Renewed.copied {target : Int} (holds : Renewed t renewed) (rows : List OutboxRow)
    (issued : ∀ row ∈ (copyRows target rows t).outboxes, row.mid < t.messages.next) :
    Renewed (copyRows target rows t) (renewed ++ ((copyRows target rows t).outboxes.rows.filter
      fun row => row ∉ t.outboxes.rows).map OutboxRow.key) := by
  have waiting (row : OutboxRow) (member : row ∈ (copyRows target rows t).outboxes)
      (new : row ∉ t.outboxes) : row.msgstatus = 0 :=
    (((mem_copyRows rows).2 row member).resolve_left new).2.1
  constructor
  · intro key member
    rw [copyRows_messages]
    rcases List.mem_append.mp member with old | new
    · exact holds.issued key old
    · obtain ⟨row,copied,rfl⟩ := List.mem_map.mp new
      exact issued row (List.mem_filter.mp copied).1
  · intro row member listed
    by_cases old : row ∈ t.outboxes
    · rcases List.mem_append.mp listed with before | new
      · exact holds.pending row old before
      · obtain ⟨other,copied,key⟩ := List.mem_map.mp new
        obtain ⟨present,absent⟩ := List.mem_filter.mp copied
        rw [Table.unique (t := (copyRows target rows t).outboxes) present member key] at absent
        simp [old] at absent
    · rw [waiting row member old]
      decide

theorem Renewed.stored {d after : Database} {mid : Int} {boxes : List (Int × Int)}
    (holds : Renewed d.tables renewed) (boxing : Boxing d after mid boxes) :
    Renewed after.tables renewed := by
  obtain ⟨row,messages⟩ := boxing.messages
  have next : after.tables.messages.next = d.tables.messages.next + 1 := by
    rw [messages]
    exact insertMessage_next row
  constructor
  · intro key member
    rw [next]
    exact Int.lt_add_one_of_le (Int.le_of_lt (holds.issued key member))
  · intro row member listed
    rw [← Table.mem_rows,boxing.rows] at member
    rcases List.mem_append.mp member with old | new
    · exact holds.pending row old listed
    · obtain ⟨box,-,rfl⟩ := List.mem_map.mp new
      have unissued := holds.issued _ listed
      rw [boxing.issued] at unissued
      exact absurd unissued (Int.lt_irrefl _)

end Renewal

end SipWitch
