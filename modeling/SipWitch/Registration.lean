import SipWitch.Server

/-! Filing of live registrations over runs of the server. A record is made when the
authorize thread's answer arrives, not when its absence was noticed, so two lookups for
one device can end in two records, of which the tables with one entry per key only keep
the later. -/
namespace SipWitch

open Index Registries

namespace Registries

variable {t : Registries} {a b : Handle} {reg : Registry}

/-- One record for a number and label, each under its own keys in all four tables, and
no entry of a table for a record that was destroyed. -/
structure Filed (t : Registries) : Prop where
  single : ∀ a b reg reg', t.heap.lookup a = some reg → t.heap.lookup b = some reg' →
    reg.key = reg'.key → a = b
  extensions : ∀ a reg, t.heap.lookup a = some reg → (reg.number,a) ∈ t.extensions
  aliases : ∀ a reg, t.heap.lookup a = some reg → (reg.userId,a) ∈ t.aliases
  registries : ∀ a reg, t.heap.lookup a = some reg → t.registries.lookup reg.key = some a
  endpoints : ∀ a reg, t.heap.lookup a = some reg → t.endpoints.lookup reg.endpointId = some a
  undeleted : ∀ a, (∃ n, (n,a) ∈ t.extensions) ∨ (∃ id, (id,a) ∈ t.aliases) ∨
    (∃ k, t.registries.lookup k = some a) ∨ (∃ id, t.endpoints.lookup id = some a) →
    ∃ reg, t.heap.lookup a = some reg

/-- Cleanup destroys every expired record, and a lookup by the event or the endpoint of
a record gets to it. -/
structure Reached (t : Registries) : Prop where
  cleanup : ∀ a reg now, t.heap.lookup a = some reg → reg.hasExpired now →
    (t.cleanup now).heap.lookup a = none
  event : ∀ a reg now ev, t.heap.lookup a = some reg → ev.key = reg.key →
    t.findByEvent ev now = if reg.hasExpired now then (t.delete a,none) else (t,some (a,reg))
  endpoint : ∀ a reg now, t.heap.lookup a = some reg →
    t.findById reg.endpointId now = if reg.hasExpired now then (t.delete a,none)
      else (t,some (a,reg))

theorem expire_dead (dead : t.heap.lookup a = none) : (expire now t b).heap.lookup a = none := by
  simp only [expire]
  split
  · split
    · rw [lookup_delete,dead,ite_self]
    · exact dead
  · exact dead

theorem cleanup_dead (snapshot : List Handle) (dead : t.heap.lookup a = none) :
    (snapshot.foldl (expire now) t).heap.lookup a = none := by
  induction snapshot generalizing t with
  | nil => exact dead
  | cons b rest ih => exact ih (expire_dead dead)

/-- The loop leaves a record it has not met yet as it was. -/
theorem expire_other (apart : a ≠ b) : (expire now t b).heap.lookup a = t.heap.lookup a := by
  simp only [expire]
  split
  · split
    · rw [lookup_delete,if_neg apart]
    · rfl
  · rfl

theorem cleanup_expired (snapshot : List Handle) (listed : a ∈ snapshot)
    (live : t.heap.lookup a = some reg) (expired : reg.hasExpired now) :
    (snapshot.foldl (expire now) t).heap.lookup a = none := by
  induction snapshot generalizing t with
  | nil => simp at listed
  | cons b rest ih =>
    rw [List.foldl_cons]
    by_cases here : a = b
    · subst b
      refine cleanup_dead rest ?_
      simp only [expire,live,expired,if_true]
      rw [lookup_delete,if_pos rfl]
    · rcases List.mem_cons.mp listed with same | later
      · exact absurd same here
      · exact ih later ((expire_other here).trans live)

theorem unexpired_some (live : t.heap.lookup a = some reg) (now : Nat) :
    t.unexpired (some a) now = if reg.hasExpired now then (t.delete a,none)
      else (t,some (a,reg)) := by
  simp [unexpired,live]

theorem Filed.reached (filed : Filed t) : Reached t where
  cleanup := by
    intro a reg now live expired
    exact cleanup_expired _ (Index.mem_values.mpr ⟨_,filed.registries a reg live⟩) live expired
  event := by
    intro a reg now ev live same
    rw [findByEvent,same,filed.registries a reg live]
    exact unexpired_some live now
  endpoint := by
    intro a reg now live
    rw [findById,filed.endpoints a reg live]
    exact unexpired_some live now

/-- Beyond the entries that are always right, filing asks that none is missing. -/
theorem filed_iff_indexed (linked : Linked t) : Filed t ↔ Indexed t := by
  constructor
  · intro filed
    exact ⟨linked,filed.registries,filed.endpoints⟩
  · intro indexed
    refine ⟨?_,?_,?_,indexed.keyed,indexed.known,?_⟩
    · intro a b reg reg' first second same
      exact indexed.keyed.unique first second same
    · exact fun a reg live => (linked.extensions _ _).mpr ⟨reg,live,rfl⟩
    · exact fun a reg live => (linked.aliases _ _).mpr ⟨reg,live,rfl⟩
    · rintro a (⟨n,entry⟩ | ⟨id,entry⟩ | ⟨k,entry⟩ | ⟨id,entry⟩)
      · exact ((linked.extensions _ _).mp entry).imp fun _ h => h.1
      · exact ((linked.aliases _ _).mp entry).imp fun _ h => h.1
      · exact (linked.registries _ _ entry).imp fun _ h => h.1
      · exact (linked.endpoints _ _ entry).imp fun _ h => h.1

end Registries

namespace Registries

variable {hash : HashFunction} {m : Manager} {P : Registries → Prop}

theorem sameFiling_authorize (reg : Registry) (ev : Event) (now : Nat) :
    SameFiling (reg.authorize hash ev now).1 reg := by
  obtain ⟨active,timeout,address,context,updated,h⟩ :=
    Registry.authorize_frame hash reg ev now
  rw [h]
  exact ⟨rfl,rfl,rfl⟩

/-- The members of the manager change a record only in ways that keep its filing. -/
theorem Stable.kept (stable : Stable P) : Manager.Kept hash fun m => P m.registries where
  delete _ a holds := stable.delete _ a holds
  authorize m a reg ev live holds := stable.write _ _ _ _ live (sameFiling_authorize reg ev _) holds
  challenge m a reg ev fresh live holds := by
    cases fresh with
    | none => exact holds
    | some nonce => exact stable.write _ _ _ _ live ⟨rfl,rfl,rfl⟩ holds
  send _ _ _ holds := holds
  emit _ _ holds := holds

/-- The challenge that ends the making of a record only renews its nonce. -/
theorem Stable.createRegistration (stable : Stable P) (ev : Event) (ep : EndpointInfo)
    (fresh : Nonce) (created : P (m.registries.create ep m.range m.now).1) :
    P (m.createRegistration ev (some ep) fresh).registries :=
  stable.write _ _ (Registry.create ep m.now) _ (by simp) ⟨rfl,rfl,rfl⟩ created

end Registries

namespace Server

variable {hash : HashFunction} {s next : Server} {P : Registries → Prop}

def creation (s : Server) : Action → Option EndpointInfo
  | .manage _ =>
    match s.inbox.head? with
    | some (.notice (.createRegistration _ endpoint)) => endpoint
    | _ => none
  | _ => none

theorem step_stable (stable : Stable P) (holds : P s.manager.registries) {a : Action}
    (created : ∀ ep, s.creation a = some ep →
      P (s.manager.registries.create ep s.manager.range s.manager.now).1)
    (moved : s.step hash a = some next) : P next.manager.registries := by
  refine step_kept (Q := fun t _ => P t) stable.kept holds (fun ev ep fresh here queued => ?_) moved
  exact stable.createRegistration ev ep fresh (created ep (by rw [here,creation,queued]))

/-- No entry ever outlives its record, whatever is created when. -/
theorem run_linked (run : Server.Run hash s trace final) (linked : Linked s.manager.registries) :
    Linked final.manager.registries :=
  run.invariant (fun s => Linked s.manager.registries)
    (fun _ _ _ holds moved => step_stable linked_stable holds
      (fun ep _ => holds.create ep _ _) moved) linked

/-- A step constructs no record for a device or an endpoint that has a live one. -/
def Single (s : Server) (a : Action) : Prop :=
  ∀ ep, s.creation a = some ep → Unregistered s.manager.registries ep

theorem run_indexed (run : Server.Run hash s trace final) (indexed : Indexed s.manager.registries)
    (single : ∀ edge ∈ trace, Single edge.source edge.action) :
    Indexed final.manager.registries :=
  run.invariant_of (fun s => Indexed s.manager.registries) Single
    (fun _ _ _ holds guarded moved => step_stable indexed_stable holds
      (fun ep made => (create_indexed_iff holds _ _).mpr (guarded ep made)) moved) indexed single

theorem Indexed.of_write (linked : Linked t) (live : t.heap.lookup a = some reg)
    (same : SameFiling reg' reg) (indexed : Indexed (t.write a reg')) : Indexed t :=
  ⟨linked,indexed.keyed.of_update live same.key,indexed.known.of_update live same.endpoint⟩

/-- A step that files its new record found no live one in the way. -/
theorem step_single (indexed : Indexed s.manager.registries) {a : Action}
    (moved : s.step hash a = some next) (filed : Indexed next.manager.registries) :
    Single s a := by
  intro ep made
  cases a with
  | manage fresh =>
    obtain ⟨slot,rest,queue,rfl⟩ := manage_some moved
    simp only [creation,queue,List.head?_cons] at made
    cases slot with
    | notice notice =>
      cases notice with
      | createRegistration ev endpoint =>
        obtain rfl : endpoint = some ep := made
        have linked := indexed.toLinked.create ep s.manager.range s.manager.now
        have live : (s.manager.registries.create ep s.manager.range s.manager.now).1.heap.lookup
            s.manager.registries.next = some (Registry.create ep s.manager.now) := by
          simp [Registries.create]
        -- the challenge that follows only renews the record's nonce
        have challenged : SameFiling ((Registry.create ep s.manager.now).setNounce fresh.toList)
            (Registry.create ep s.manager.now) := ⟨rfl,rfl,rfl⟩
        exact (create_indexed_iff indexed _ _).mp (Indexed.of_write linked live challenged filed)
      | _ => contradiction
    | _ => contradiction
  | _ => contradiction

/-- From empty tables, registrations stay filed, and so within reach of cleanup and of
both lookups, in every state of a run if and only if every record the run constructs is
at that moment the only live one for its device and for its endpoint. -/
theorem registrations_filed_iff (hash : HashFunction) (s : Server) (trace final)
    (start : s.manager.registries = {}) (run : Server.Run hash s trace final) :
    (∀ edge ∈ trace, Filed edge.target.manager.registries ∧
      Reached edge.target.manager.registries) ↔
    ∀ edge ∈ trace, Single edge.source edge.action := by
  have linked (edge) (member : edge ∈ trace) : Linked edge.target.manager.registries := by
    obtain ⟨before,_,reached⟩ := run.edge_reached edge member
    have source := run_linked reached (start ▸ linked_empty)
    exact step_stable linked_stable source (fun ep _ => source.create ep _ _)
      (run.edge_step edge member)
  constructor
  · intro filed edge member
    have target := (filed_iff_indexed (linked edge member)).mp (filed edge member).1
    have source : Indexed edge.source.manager.registries := by
      rcases run.edge_source edge member with first | ⟨earlier,known,same⟩
      · rw [first,start]; exact indexed_empty
      · rw [← same]
        exact (filed_iff_indexed (linked earlier known)).mp (filed earlier known).1
    exact step_single source (run.edge_step edge member) target
  · intro single edge member
    obtain ⟨before,front,reached⟩ := run.edge_reached edge member
    have source := run_indexed reached (start ▸ indexed_empty) fun earlier known =>
      single earlier (front.subset known)
    have target := step_stable indexed_stable source
      (fun ep made => (create_indexed_iff source _ _).mpr (single edge member ep made))
      (run.edge_step edge member)
    have filed := (filed_iff_indexed (linked edge member)).mpr target
    exact ⟨filed,filed.reached⟩

def crossing : List Action := [.receive Site.register,.receive Site.register,
  .manage (Site.nonce 0),.manage (Site.nonce 0),.authorize,.authorize,
  .manage (Site.nonce 1),.manage (Site.nonce 2)]

theorem crossing_keys : (Transition.execute (step Site.hash) crossing Site.server).map
      (fun s => ((s.manager.registries.heap.lookup 0).map Registry.key,
        (s.manager.registries.heap.lookup 1).map Registry.key)) =
    some (some (101,UString.ascii "desk"),some (101,UString.ascii "desk")) := by
  rfl

theorem crossing_run : ∃ trace final, Server.Run Site.hash Site.server trace final ∧
    trace.map Transition.Edge.action = crossing ∧ ¬Filed final.manager.registries := by
  obtain ⟨final,done,keys⟩ := Option.map_eq_some_iff.mp crossing_keys
  obtain ⟨trace,run,actions⟩ := Transition.execute_run _ _ _ done
  obtain ⟨first,second⟩ := Prod.mk.inj keys
  obtain ⟨reg,live,key⟩ := Option.map_eq_some_iff.mp first
  obtain ⟨reg',live',key'⟩ := Option.map_eq_some_iff.mp second
  exact ⟨trace,final,run,actions,fun filed =>
    absurd (filed.single 0 1 reg reg' live live' (key.trans key'.symm)) (by decide)⟩

/-- Two lookups in flight leave two live records for one device. -/
theorem crossing_lookups : ¬∀ (hash : HashFunction) (s : Server) (trace final),
    s.manager.registries = {} → Server.Run hash s trace final →
    Filed final.manager.registries := by
  intro claim
  obtain ⟨trace,final,run,-,unfiled⟩ := crossing_run
  exact unfiled (claim Site.hash Site.server trace final rfl run)

theorem registrations_filed_iff_crossing : ∃ trace final,
    Server.Run Site.hash Site.server trace final ∧ trace.map Transition.Edge.action = crossing ∧
    ¬∀ edge ∈ trace, Single edge.source edge.action := by
  obtain ⟨trace,final,run,actions,unfiled⟩ := crossing_run
  refine ⟨trace,final,run,actions,fun single => unfiled ?_⟩
  have filed := (registrations_filed_iff Site.hash Site.server trace final rfl run).mpr single
  cases run with
  | start => contradiction
  | next _ _ => exact (filed _ (List.mem_append_right _ (List.mem_singleton.mpr rfl))).1

end Server

end SipWitch
