import SipWitch.Integrity
import SipWitch.Registration

/-! What a registration leaves in the tables before its credentials are looked at. The
lookup of the endpoint comes before the challenge, and with X-Initialize it makes the
endpoint of a new label, or has the outbox of an old one synced. -/
namespace SipWitch

open Tables

namespace Authorize

variable {d : Database} {ev : Event}

/-- The lookup comes to the branch for labels that a client initializes. -/
structure Initializes (d : Database) (ev : Event) : Prop where
  opened : d.opened = true
  planned : 1 ≤ d.firstNumber
  registering : 1 ≤ ev.expires
  inside : d.firstNumber ≤ ev.number ∧ ev.number ≤ d.lastNumber
  extension : d.tables.hasExtension ev.number
  asked : ev.initialization = "label"

/-- The lookup answers with an error. -/
def Refuses (d : Database) (ev : Event) : Prop :=
  ∃ code, 400 ≤ code ∧ (findEndpoint d ev).wire = d.wire ++ [.reply ev code]

/-- The lookup writes no row of an endpoint or outbox, nor does the outbox request that it
leaves behind, on the tables that the database thread then finds. -/
structure Traceless (d : Database) (ev : Event) (later : Tables) : Prop where
  endpoints : (findEndpoint d ev).tables.endpoints.rows = d.tables.endpoints.rows
  outboxes : (findEndpoint d ev).tables.outboxes.rows = d.tables.outboxes.rows
  requested : ∀ rows after,
    Database.serveOutbox { findEndpoint { d with copies := [] } ev with tables := later } rows = some after →
    after.tables.endpoints.rows = later.endpoints.rows ∧ after.tables.outboxes.rows = later.outboxes.rows

/-- The label has its endpoint, and what is in its outbox waits to be sent. -/
def Unsent (d : Database) (ev : Event) (later : Tables) : Prop :=
  ∃ row, d.tables.endpoint? ev.number ev.label = some row ∧
    ∀ box ∈ later.outboxes, box.endpoint = row.endpoint → box.msgstatus = 0

theorem initializes_direct : Initializes { d with copies := [] } ev ↔ Initializes d ev := by
  constructor <;> rintro ⟨opened,planned,registering,inside,extension,asked⟩
  · exact ⟨opened,planned,registering,inside,extension,asked⟩
  · exact ⟨opened,planned,registering,inside,extension,asked⟩

theorem findEndpoint_initializes (initializes : Initializes d ev) :
    (findEndpoint d ev).tables = (initializeLabel d ev).1.tables ∧
    (findEndpoint d ev).copies = (initializeLabel d ev).1.copies := by
  obtain ⟨opened,planned,registering,inside,known,asked⟩ := initializes
  obtain ⟨extension,stored⟩ := Option.isSome_iff_exists.mp known
  have unplanned : ¬(d.firstNumber < 1 ∨ d.opened = false) := by
    rw [opened]
    simp
    omega
  have live : ¬ev.expires < 1 := by omega
  have number : ¬(ev.number < d.firstNumber ∨ ev.number > d.lastNumber) := by omega
  simp only [findEndpoint,unplanned,live,number,stored,asked,if_false,if_true]
  exact History.createEndpoint_boxes _ _ _ _

theorem findEndpoint_other (other : ¬Initializes d ev) :
    (findEndpoint d ev).tables = d.tables ∧ (findEndpoint d ev).copies = d.copies := by
  simp only [findEndpoint]
  split
  · exact ⟨rfl,rfl⟩
  rename_i planned
  split
  · exact ⟨rfl,rfl⟩
  rename_i registering
  split
  · exact ⟨rfl,rfl⟩
  rename_i inside
  split
  · exact ⟨rfl,rfl⟩
  rename_i extension stored
  split
  · rename_i asked
    refine absurd ⟨?_,?_,?_,?_,?_,asked⟩ other
    · simpa using (not_or.mp planned).2
    · omega
    · omega
    · omega
    · simp [Tables.hasExtension,stored]
  split
  · exact ⟨rfl,rfl⟩
  · exact History.createEndpoint_boxes _ _ _ _

/-- The endpoint that is made for a new label stays. -/
theorem initializes_made (initializes : Initializes d ev)
    (vacant : d.tables.endpoint? ev.number ev.label = none) :
    (findEndpoint d ev).tables.endpoints.rows ≠ d.tables.endpoints.rows := by
  intro same
  have tables : (findEndpoint d ev).tables = d.tables.insertEndpoint ev.number ev.label d.clock := by
    rw [(findEndpoint_initializes initializes).1]
    simp [initializeLabel,vacant,Database.request,Database.runQuery]
  have made := (mem_insertEndpoint d.clock initializes.extension vacant _).mpr (.inr rfl)
  rw [← tables,← Serial.mem_rows,same] at made
  have found := endpoint?_eq_some.mpr ⟨made,rfl⟩
  rw [vacant] at found
  contradiction

theorem initializes_synced (initializes : Initializes d ev) {row : EndpointRow}
    (stored : d.tables.endpoint? ev.number ev.label = some row) (later : Tables) (rows : List OutboxRow) :
    (findEndpoint d ev).tables = d.tables ∧ ∃ after,
      Database.serveOutbox { findEndpoint { d with copies := [] } ev with tables := later } rows =
        some after ∧ after.tables = later.setStatus 0 fun box => box.endpoint = row.endpoint := by
  have requested : (findEndpoint { d with copies := [] } ev).copies = [.sync row.endpoint] := by
    rw [(findEndpoint_initializes (initializes_direct.mpr initializes)).2]
    simp [initializeLabel,stored,Database.request]
  constructor
  · rw [(findEndpoint_initializes initializes).1]
    simp [initializeLabel,stored,Database.request]
  · simp only [Database.serveOutbox,requested]
    exact ⟨_,rfl,rfl⟩

theorem setStatus_rows {t : Tables} {endpoint : Int} :
    (t.setStatus 0 fun box => box.endpoint = endpoint).outboxes.rows = t.outboxes.rows ↔
      ∀ box ∈ t.outboxes, box.endpoint = endpoint → box.msgstatus = 0 := by
  have rows : (t.setStatus 0 fun box => box.endpoint = endpoint).outboxes.rows =
      t.outboxes.rows.map fun box => if box.endpoint = endpoint then { box with msgstatus := 0 } else box := by
    simp [Tables.setStatus,Table.update]
  have unchanged : t.outboxes.rows = t.outboxes.rows.map id := t.outboxes.rows.map_id.symm
  rw [rows]
  conv_lhs => rhs; rw [unchanged]
  rw [List.map_inj_left]
  apply forall₂_congr
  intro box _
  by_cases here : box.endpoint = endpoint
  · simp only [here,if_true,id,forall_const]
    constructor
    · intro same
      rw [← same]
    · intro unsent
      obtain ⟨mid,number,status⟩ := box
      subst here unsent
      rfl
  · simp [here]

theorem traceless_iff (later : Tables) :
    Traceless d ev later ↔ ¬Initializes d ev ∨ Unsent d ev later := by
  by_cases initializes : Initializes d ev
  · cases stored : d.tables.endpoint? ev.number ev.label with
    | none =>
      refine iff_of_false (fun traceless => ?_) ?_
      · exact initializes_made initializes stored traceless.endpoints
      · simp [initializes,Unsent,stored]
    | some row =>
      have unsent : Unsent d ev later ↔
          ∀ box ∈ later.outboxes, box.endpoint = row.endpoint → box.msgstatus = 0 := by
        simp [Unsent,stored]
      simp only [initializes,not_true_eq_false,false_or,unsent,← setStatus_rows]
      constructor
      · intro traceless
        obtain ⟨-,after,served,synced⟩ := initializes_synced initializes stored later []
        rw [← synced]
        exact (traceless.requested [] after served).2
      · intro same
        have tables := (initializes_synced initializes stored later []).1
        refine ⟨by rw [tables],by rw [tables],fun rows after served => ?_⟩
        obtain ⟨-,other,served',synced⟩ := initializes_synced initializes stored later rows
        obtain rfl := Option.some.inj (served.symm.trans served')
        rw [synced]
        exact ⟨rfl,same⟩
  · obtain ⟨tables,-⟩ := findEndpoint_other initializes
    have again := mt initializes_direct.mp initializes
    refine iff_of_true ⟨by rw [tables],by rw [tables],fun rows after served => ?_⟩ (.inl initializes)
    have copies : (findEndpoint { d with copies := [] } ev).copies = [] := (findEndpoint_other again).2
    simp only [Database.serveOutbox,copies,Option.some.injEq] at served
    rw [← served]
    exact ⟨rfl,rfl⟩

end Authorize

namespace Server

/-- The manager finds that a registration of the number and label accepts the credentials
of its device. -/
def Succeeds (hash : HashFunction) (s : Server) (key : Int × UString) : Action → Prop
  | .manage _ => ∃ ev rest a reg, s.inbox = .refreshRegistration ev :: rest ∧ ev.key = key ∧
      (s.manager.find ev).2 = some (a,reg) ∧ ev.authorization ≠ none ∧
      (reg.authorize hash ev s.manager.now).2 = Sip.ok
  | _ => False

/-- A registration that comes to nothing leaves no trace, its outbox request coming to the tables
that the run ends with, if, and only if, it does not have a label initialized, or has nothing to
send again then. -/
theorem refused_traceless_iff (hash : HashFunction) (s : Server) (ev : Event) :
    ∀ trace final, Server.Run hash (s.served (s.database.handle (.findEndpoint ev))) trace final →
      (Authorize.Refuses s.database ev ∨
        ¬∃ edge ∈ trace, edge.source.Succeeds hash ev.key edge.action) →
      (Authorize.Traceless s.database ev final.database.tables ↔
        ¬Authorize.Initializes s.database ev ∨ Authorize.Unsent s.database ev final.database.tables) :=
  fun _ final _ _ => Authorize.traceless_iff final.database.tables

theorem refused_traceless_iff_plain : Authorize.Traceless Site.server.database Site.register
    (Site.server.served (Site.server.database.handle (.findEndpoint Site.register))).database.tables := by
  have plain : ¬Authorize.Initializes Site.server.database Site.register := fun initializes =>
    absurd initializes.asked (by decide)
  exact (refused_traceless_iff Site.hash Site.server Site.register [] _ .start (.inr (by simp))).mpr (.inl plain)

end Server

def Site.stranger : Event := { Site.register with label := "stranger", initialization := "label" }

theorem Server.stranger_leaves_endpoint : ¬∀ (hash : HashFunction) (s : Server) (ev : Event) (trace final),
    Server.Run hash (s.served (s.database.handle (.findEndpoint ev))) trace final →
      (Authorize.Refuses s.database ev ∨
        ¬∃ edge ∈ trace, edge.source.Succeeds hash ev.key edge.action) →
      Authorize.Traceless s.database ev final.database.tables := by
  intro traceless
  have none := traceless Site.hash Site.server Site.stranger [] _ .start (.inr (by simp))
  exact absurd none.endpoints (by decide +kernel)

end SipWitch
