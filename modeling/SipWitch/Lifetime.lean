import SipWitch.Registration
import SipWitch.Outcome

/-! The lifetime of a registration: what the REGISTER that is looked up is granted, what
the later ones are answered, and how long the two lookups return the record. -/
namespace SipWitch

open Registries

namespace Authorize

/-- The longest lifetime for a protocol and a kind of label. -/
def cap (d : Database) (ev : Event) : Int :=
  if ev.protocol = "udp" then if ev.label = "NONE" then d.expiresUdp else d.expiresNat
  else d.expiresTcp

/-- The caps that the constructor of `Database` sets, and nothing changes. -/
def Capped (d : Database) : Prop := d.expiresNat = 80 ∧ d.expiresUdp = 300 ∧ d.expiresTcp = 600

theorem capped_kept : Database.Kept Capped where
  send _ _ holds := holds
  runQuery _ _ holds := holds
  emit _ _ _ holds := holds
  updateRoster _ holds := holds

theorem granted_capped (capped : Capped d) (ev : Event) : granted d ev = granted {} ev := by
  obtain ⟨nat,udp,tcp⟩ := capped
  simp [granted,nat,udp,tcp]

theorem granted_le (ev : Event) : granted {} ev ≤ ev.expires ∧ granted {} ev ≤ cap {} ev := by
  by_cases udp : ev.protocol = "udp" <;> by_cases label : ev.label = "NONE" <;>
    simp [granted,cap,udp,label] <;> split_ifs <;> omega

theorem granted_pos (positive : 1 ≤ ev.expires) : 1 ≤ granted {} ev ∧ granted {} ev ≤ 600 := by
  have most := (granted_le ev).2
  have cap : cap {} ev ≤ 600 := by
    simp only [cap]
    split_ifs <;> omega
  refine ⟨?_,by omega⟩
  simp only [granted]
  split_ifs <;> omega

end Authorize

namespace Registry

/-- Two states of a record with the same filing and the same term. -/
structure SameTerm (reg' reg : Registry) : Prop where
  key : reg'.key = reg.key
  endpoint : reg'.endpointId = reg.endpointId
  timeout : reg'.timeout = reg.timeout
  updated : reg'.updated = reg.updated

theorem SameTerm.refl (reg : Registry) : SameTerm reg reg := ⟨rfl,rfl,rfl,rfl⟩

theorem SameTerm.trans {a b c : Registry} (first : SameTerm a b) (second : SameTerm b c) :
    SameTerm a c where
  key := first.key.trans second.key
  endpoint := first.endpoint.trans second.endpoint
  timeout := first.timeout.trans second.timeout
  updated := first.updated.trans second.updated

theorem SameTerm.hasExpired (same : SameTerm reg' reg) (now : Nat) :
    reg'.hasExpired now = reg.hasExpired now := by
  simp only [Registry.hasExpired,same.timeout,same.updated]

theorem hasExpired_mono {reg : Registry} (expired : reg.hasExpired now = true)
    (later : now ≤ now') : reg.hasExpired now' = true := by
  simp only [Registry.hasExpired,decide_eq_true_eq] at expired ⊢
  omega

/-- A record is good for its timeout from its last update on. -/
theorem hasExpired_eq_false {reg : Registry} (now : Nat) (positive : 0 ≤ reg.timeout)
    (small : reg.timeout ≤ 600000) :
    reg.hasExpired now = false ↔ (now : Int) ≤ reg.updated + reg.timeout := by
  have size : reg.timeout % 18446744073709551616 = reg.timeout :=
    Int.emod_eq_of_lt positive (by omega)
  simp only [Registry.hasExpired,size,decide_eq_false_iff_not]
  omega

end Registry

namespace Registries

open Registry

/-- The records are those of before, except for some that had expired. -/
structure Turned (now : Nat) (t t' : Registries) : Prop where
  origin : ∀ b reg', t'.heap.lookup b = some reg' →
    ∃ reg, t.heap.lookup b = some reg ∧ SameTerm reg' reg
  survives : ∀ b reg, t.heap.lookup b = some reg → reg.hasExpired now = false →
    ∃ reg', t'.heap.lookup b = some reg'
  next : t'.next = t.next

theorem Turned.refl (now : Nat) (t : Registries) : Turned now t t where
  origin _ reg live := ⟨reg,live,.refl reg⟩
  survives _ reg live _ := ⟨reg,live⟩
  next := rfl

theorem Turned.trans (first : Turned now t t') (second : Turned now t' t'') :
    Turned now t t'' where
  origin b reg'' live := by
    obtain ⟨reg',live',same'⟩ := second.origin b reg'' live
    obtain ⟨reg,before,same⟩ := first.origin b reg' live'
    exact ⟨reg,before,same'.trans same⟩
  survives b reg live fresh := by
    obtain ⟨reg',live'⟩ := first.survives b reg live fresh
    obtain ⟨old,before,same⟩ := first.origin b reg' live'
    obtain rfl : reg = old := Option.some.inj (live.symm.trans before)
    exact second.survives b reg' live' (by rw [same.hasExpired,fresh])
  next := second.next.trans first.next

theorem turned_delete (live : t.heap.lookup a = some reg) (expired : reg.hasExpired now = true) :
    Turned now t (t.delete a) where
  origin b reg' live' := ⟨reg',live_of_delete live',.refl reg'⟩
  survives b other before fresh := by
    refine ⟨other,?_⟩
    rw [lookup_delete,if_neg ?_]
    · exact before
    · rintro rfl
      rw [live,Option.some.injEq] at before
      rw [before,fresh] at expired
      contradiction
  next := delete_next

theorem lookup_write (t : Registries) (a b : Handle) (reg : Registry) :
    (t.write a reg).heap.lookup b = if b = a then some reg else t.heap.lookup b :=
  Index.lookup_insert_cases _ _ _ _

theorem turned_write (live : t.heap.lookup a = some reg) (same : SameTerm reg' reg) :
    Turned now t (t.write a reg') where
  origin b other live' := by
    rw [lookup_write] at live'
    split at live'
    · rename_i here
      obtain rfl : reg' = other := Option.some.inj live'
      exact ⟨reg,here ▸ live,same⟩
    · exact ⟨other,live',.refl other⟩
  survives b other before _ := by
    rw [lookup_write]
    split
    · exact ⟨reg',rfl⟩
    · exact ⟨other,before⟩
  next := rfl

theorem turned_cleanup (t : Registries) (now : Nat) : Turned now t (t.cleanup now) := by
  have loop (snapshot : List Handle) : ∀ t, Turned now t (snapshot.foldl (expire now) t) := by
    induction snapshot with
    | nil => exact fun t => .refl now t
    | cons a rest ih =>
      refine fun t => Turned.trans ?_ (ih _)
      simp only [expire]
      split
      · split
        · exact turned_delete ‹_› ‹_›
        · exact .refl now t
      · exact .refl now t
  exact loop _ t

end Registries

namespace Manager

open Registry

variable {hash : HashFunction} {m : Manager} {ev : Event}

inductive Refreshed (m m' : Manager) (ev : Event) : Prop
  | unknown (turned : Turned m.now m.registries m'.registries) (wire : m'.wire = m.wire)
      (emitted : m'.emitted = m.emitted ++ [.findEndpoint ev])
  | answered (turned : Turned m.now m.registries m'.registries) (output : Output)
      (other : ∀ ev e xdp, output ≠ .authorize ev e xdp) (wire : m'.wire = m.wire ++ [output])
      (emitted : m'.emitted = m.emitted)
  | accepted (a : Handle) (reg reg' : Registry)
      (found : m.registries.findByEvent ev m.now = (m.registries,some (a,reg)))
      (live : m.registries.heap.lookup a = some reg)
      (registries : m'.registries = m.registries.write a reg')
      (term : SameTerm reg' { reg with updated := m.now }) (xdp : UString)
      (wire : m'.wire = m.wire ++ [.authorize ev reg.expires xdp])
      (emitted : ∀ signal ∈ m'.emitted, signal ∈ m.emitted ∨
        ∃ endpoint timestamp agent key uri, signal = .lastAccess endpoint timestamp agent key uri)

theorem release_fresh (fresh : reg.hasExpired m.now = false) : m.release a reg = m := by
  simp [Manager.release,fresh]

theorem challenge_turned (live : m.registries.heap.lookup a = some reg) (fresh : Option Nonce) :
    Refreshed m (m.challenge ev a reg fresh) ev := by
  cases fresh with
  | none => exact .answered (.refl _ _) _ (by simp) rfl rfl
  | some bytes => exact .answered (turned_write live ⟨rfl,rfl,rfl,rfl⟩) _ (by simp) rfl rfl

theorem authorized_signals (m : Manager) (ev : Event) (before reg : Registry) :
    ∀ signal ∈ (m.authorized ev before reg).emitted, signal ∈ m.emitted ∨
      ∃ endpoint timestamp agent key uri,
        signal = .lastAccess endpoint timestamp agent key uri := by
  intro signal member
  simp only [Manager.authorized] at member
  split at member
  · exact .inl member
  · rcases List.mem_append.mp member with before | new
    · exact .inl before
    · exact .inr ⟨_,_,_,_,_,List.mem_singleton.mp new⟩

theorem authorized_wire (m : Manager) (ev : Event) (before reg : Registry) :
    ∃ xdp, (m.authorized ev before reg).wire = m.wire ++ [.authorize ev reg.expires xdp] := by
  simp only [Manager.authorized]
  split <;> exact ⟨_,rfl⟩

theorem authorized_frame (m : Manager) (ev : Event) (before reg : Registry) :
    (m.authorized ev before reg).registries = m.registries ∧
    (m.authorized ev before reg).now = m.now := by
  simp only [Manager.authorized]
  split <;> exact ⟨rfl,rfl⟩

theorem refreshRegistration_cases (hash : HashFunction) (m : Manager)
    (positive : 1 ≤ ev.expires) (fresh : Nonce) : Refreshed m (m.refreshRegistration hash ev fresh) ev := by
  rcases unexpired_cases m.registries (m.registries.registries.lookup ev.key) m.now with
    ⟨a,reg,found,-,live,valid⟩ | ⟨a,reg,found,-,live,expired⟩ | ⟨found,-⟩
  · have find : m.find ev = (m,some (a,reg)) := by rw [Manager.find,findByEvent,found]
    simp only [Manager.refreshRegistration,find]
    cases ev.authorization with
    | none => exact challenge_turned live _
    | some credentials =>
      dsimp only
      have accepted (ok : (reg.authorize hash ev m.now).2 = Sip.ok) :=
        Registry.authorize_accepted ok positive
      have rejected (refused : (reg.authorize hash ev m.now).2 ≠ Sip.ok) :=
        Registry.authorize_rejected refused
      generalize reg.authorize hash ev m.now = outcome at accepted rejected
      obtain ⟨reg',result⟩ := outcome
      dsimp only at accepted rejected ⊢
      by_cases ok : result = Sip.ok
      · have term : SameTerm reg' { reg with updated := m.now } := by
          rw [accepted ok]
          exact ⟨rfl,rfl,rfl,rfl⟩
        have lasts : reg'.hasExpired m.now = false := by
          have elapsed : 0 ≤ reg.timeout % 18446744073709551616 := by omega
          rw [term.hasExpired]
          simp [Registry.hasExpired,elapsed]
        obtain ⟨xdp,wire⟩ := authorized_wire (m.write a reg') ev reg reg'
        obtain ⟨same,now⟩ := authorized_frame (m.write a reg') ev reg reg'
        have expires : reg'.expires = reg.expires := congrArg (·.tdiv 1000) term.timeout
        rw [if_pos ok,release_fresh (by rw [now]; exact lasts)]
        exact .accepted a reg reg' (found.trans rfl) live same term xdp (expires ▸ wire)
          (authorized_signals _ _ _ _)
      · have term : SameTerm reg' reg := by
          rw [(Prod.mk.inj (rejected ok)).1]
          exact ⟨rfl,rfl,rfl,rfl⟩
        have lasts : reg'.hasExpired m.now = false := by rw [term.hasExpired,valid]
        rw [if_neg ok,release_fresh (m := (m.write a reg').reply ev result) lasts]
        exact .answered (turned_write live term) _ (by simp) rfl rfl
  · have find : m.find ev = ({ m with registries := m.registries.delete a },none) := by
      rw [Manager.find,findByEvent,found]
    simp only [Manager.refreshRegistration,find]
    exact .unknown (turned_delete live expired) rfl rfl
  · have find : m.find ev = (m,none) := by rw [Manager.find,findByEvent,found]
    simp only [Manager.refreshRegistration,find]
    exact .unknown (.refl _ _) rfl rfl

end Manager

namespace Authorize

variable {d : Database} {ev : Event}

theorem createEndpoint_granted {extension : ExtensionRow} {endpoint : Option EndpointRow} :
    ∀ notice ∈ (createEndpoint d ev extension endpoint).emitted, notice ∈ d.emitted ∨
      ∃ ep : EndpointInfo, ep.expires = granted d ev ∧ notice = .createRegistration ev (some ep) := by
  intro notice member
  simp only [createEndpoint] at member
  split at member
  · exact .inl member
  split at member
  · exact .inl member
  split at member
  · exact .inl member
  · rcases List.mem_append.mp member with before | new
    · exact .inl before
    · exact .inr ⟨_,rfl,List.mem_singleton.mp new⟩

/-- All that a lookup signals to the manager is an endpoint with the lifetime granted. -/
theorem findEndpoint_granted (capped : Capped d) (ev : Event) :
    ∀ notice ∈ (findEndpoint d ev).emitted, notice ∈ d.emitted ∨
      ∃ ep : EndpointInfo, ep.expires = granted {} ev ∧
        notice = .createRegistration ev (some ep) := by
  intro notice member
  simp only [findEndpoint] at member
  split at member
  · exact .inl member
  split at member
  · exact .inl member
  split at member
  · exact .inl member
  split at member
  · exact .inl member
  split at member
  · have emitted : (initializeLabel d ev).1.emitted = d.emitted := by
      simp only [initializeLabel]
      split <;> rfl
    have caps : Capped (initializeLabel d ev).1 :=
      initializeLabel_kept capped_kept capped fun _ _ holds => holds
    rw [← granted_capped caps,← emitted]
    exact createEndpoint_granted notice member
  split at member
  · exact .inl member
  · rw [← granted_capped capped]
    exact createEndpoint_granted notice member

end Authorize

namespace Server

open Authorize Registry Transition

variable {hash : HashFunction} {s next final : Server} {trace : List (Edge Server Action)}

/-- The steps of a run of REGISTER events: nothing else is received, and no other thread
signals the manager. -/
def Registering : Action → Prop
  | .receive ev => ev.method = UString.ascii "REGISTER" ∧ 1 ≤ ev.expires
  | .other _ drops messages => drops = [] ∧ messages = []
  | _ => True

def Expected : Slot → Prop
  | .refreshRegistration ev => 1 ≤ ev.expires
  | .notice (.createRegistration ev endpoint) =>
    1 ≤ ev.expires ∧ ∀ ep ∈ endpoint, ep.expires = granted {} ev
  | _ => False

def Foreseen : Signal → Prop
  | .findEndpoint ev => 1 ≤ ev.expires
  | .lastAccess .. => True
  | _ => False

structure Queued (s : Server) : Prop where
  capped : Capped s.database
  inbox : ∀ slot ∈ s.inbox, Expected slot
  lookups : ∀ signal ∈ s.lookups, ∃ ev, signal = .findEndpoint ev ∧ 1 ≤ ev.expires
  requests : ∀ signal ∈ s.requests, signal.isLookup = false ∧ Foreseen signal
  silent : s.manager.emitted = []
  unsent : s.database.emitted = []

structure Started (s : Server) : Prop where
  registries : s.manager.registries = {}
  queued : Queued s

theorem handle_foreseen (hash : HashFunction) {m : Manager} {slot : Slot} (expected : Expected slot)
    (silent : m.emitted = []) (fresh : Nonce) :
    ∀ signal ∈ (m.handle hash slot fresh).emitted, Foreseen signal := by
  intro signal member
  cases slot with
  | refreshRegistration ev =>
    cases Manager.refreshRegistration_cases hash m expected fresh with
    | unknown _ _ emitted =>
      rw [Manager.handle,emitted,silent] at member
      rw [List.mem_singleton.mp member]
      exact expected
    | answered _ _ _ _ emitted =>
      rw [Manager.handle,emitted,silent] at member
      simp at member
    | accepted _ _ _ _ _ _ _ _ _ emitted =>
      rcases emitted signal member with before | ⟨_,_,_,_,_,rfl⟩
      · simp [silent] at before
      · trivial
  | request method ev => exact absurd expected id
  | notice notice =>
    cases notice with
    | createRegistration ev endpoint =>
      cases endpoint with
      | none =>
        rw [show (m.handle hash (.notice (.createRegistration ev none)) fresh).emitted = m.emitted
          from rfl,silent] at member
        simp at member
      | some ep =>
        rw [show (m.handle hash (.notice (.createRegistration ev (some ep))) fresh).emitted =
          m.emitted from rfl,silent] at member
        simp at member
    | dropEndpoint endpoint => exact absurd expected id
    | sendMessage endpoint data => exact absurd expected id

theorem lookup_of_foreseen {signal : Signal} (lookup : signal.isLookup = true)
    (foreseen : Foreseen signal) : ∃ ev, signal = .findEndpoint ev ∧ 1 ≤ ev.expires := by
  cases signal with
  | findEndpoint ev => exact ⟨ev,rfl,foreseen⟩
  | removeAuthorize ev => exact absurd foreseen id
  | _ => simp [Signal.isLookup] at lookup

theorem receive_expected {ev : Event} (method : ev.method = UString.ascii "REGISTER")
    (positive : 1 ≤ ev.expires) : ∀ slot ∈ (Context.process ev).2, Expected slot := by
  intro slot queued
  simp only [Context.process,method,if_true] at queued
  split at queued
  · simp at queued
  split at queued
  · simp at queued
  · obtain rfl := Option.some.inj queued
    exact positive

theorem Queued.managed {manager : Manager} (queued : Queued s)
    (foreseen : ∀ signal ∈ manager.emitted, Foreseen signal) : Queued (s.managed manager) := by
  refine ⟨queued.capped,queued.inbox,fun signal member => ?_,fun signal member => ?_,rfl,queued.unsent⟩
  · rcases List.mem_append.mp member with before | new
    · exact queued.lookups signal before
    · obtain ⟨emitted,lookup⟩ := List.mem_filter.mp new
      exact lookup_of_foreseen lookup (foreseen signal emitted)
  · rcases List.mem_append.mp member with before | new
    · exact queued.requests signal before
    · obtain ⟨emitted,other⟩ := List.mem_filter.mp new
      exact ⟨by simpa using other,foreseen signal emitted⟩

theorem Queued.served {database : Database} (queued : Queued s) (capped : Capped database)
    (expected : ∀ notice ∈ database.emitted, Expected (.notice notice)) :
    Queued (s.served database) := by
  refine ⟨capped,fun slot member => ?_,queued.lookups,queued.requests,queued.silent,rfl⟩
  rcases List.mem_append.mp member with before | new
  · exact queued.inbox slot before
  · obtain ⟨notice,emitted,rfl⟩ := List.mem_map.mp new
    exact expected notice emitted

theorem Queued.step (queued : Queued s) {a : Action} (registering : Registering a)
    (moved : s.step hash a = some next) : Queued next := by
  cases a with
  | pass ms =>
    obtain rfl := Option.some.inj moved
    exact ⟨queued.capped,queued.inbox,queued.lookups,queued.requests,queued.silent,queued.unsent⟩
  | receive ev =>
    obtain rfl := Option.some.inj moved
    refine ⟨queued.capped,fun slot member => ?_,queued.lookups,queued.requests,queued.silent,
      queued.unsent⟩
    rcases List.mem_append.mp member with before | new
    · exact queued.inbox slot before
    · exact receive_expected registering.1 registering.2 slot (Option.mem_toList.mp new)
  | manage fresh =>
    obtain ⟨slot,rest,inbox,rfl⟩ := Server.manage_some moved
    have taken : Queued { s with inbox := rest } :=
      ⟨queued.capped,fun slot member => queued.inbox slot (inbox ▸ List.mem_cons_of_mem _ member),
        queued.lookups,queued.requests,queued.silent,queued.unsent⟩
    have expected := queued.inbox slot (inbox ▸ List.mem_cons_self)
    exact taken.managed (handle_foreseen hash expected queued.silent fresh)
  | cleanup =>
    obtain rfl := Option.some.inj moved
    exact ⟨queued.capped,queued.inbox,queued.lookups,queued.requests,queued.silent,queued.unsent⟩
  | authorize =>
    obtain ⟨signal,rest,lookups,rfl⟩ := Server.authorize_some moved
    have taken : Queued { s with lookups := rest } :=
      ⟨queued.capped,queued.inbox,
        fun signal member => queued.lookups signal (lookups ▸ List.mem_cons_of_mem _ member),
        queued.requests,queued.silent,queued.unsent⟩
    obtain ⟨ev,rfl,positive⟩ := queued.lookups signal (lookups ▸ List.mem_cons_self)
    have capped : Capped (findEndpoint s.database ev) :=
      findEndpoint_kept capped_kept queued.capped (fun _ _ holds => holds) fun _ _ holds => holds
    refine taken.served capped fun notice emitted => ?_
    rcases findEndpoint_granted queued.capped ev notice emitted with before | ⟨ep,expires,rfl⟩
    · simp [queued.unsent] at before
    · exact ⟨positive,fun _ found => Option.some.inj found ▸ expires⟩
  | database =>
    obtain ⟨signal,rest,requests,rfl⟩ := Server.database_some moved
    have taken : Queued { s with requests := rest } :=
      ⟨queued.capped,queued.inbox,queued.lookups,
        fun signal member => queued.requests signal (requests ▸ List.mem_cons_of_mem _ member),
        queued.silent,queued.unsent⟩
    obtain ⟨other,foreseen⟩ := queued.requests signal (requests ▸ List.mem_cons_self)
    have capped : Capped (s.database.handle signal) :=
      capped_kept.handle queued.capped signal (by rintro ev rfl; simp [Signal.isLookup] at other)
    have emitted : (s.database.handle signal).emitted = [] := by
      cases signal with
      | lastAccess endpoint timestamp agent key uri => exact queued.unsent
      | findEndpoint ev => simp [Signal.isLookup] at other
      | _ => exact absurd foreseen id
    refine taken.served capped fun notice new => ?_
    rw [emitted] at new
    contradiction
  | other tables drops messages =>
    obtain ⟨rfl,rfl⟩ := registering
    obtain rfl := Option.some.inj moved
    refine ⟨queued.capped,fun slot member => ?_,queued.lookups,queued.requests,queued.silent,
      queued.unsent⟩
    exact queued.inbox slot (by simpa using member)

structure Made (edge : Edge Server Action) (a : Handle) (ev : Event) (ep : EndpointInfo) :
    Prop where
  thread : ∃ fresh, edge.action = .manage fresh
  slot : edge.source.inbox.head? = some (.notice (.createRegistration ev (some ep)))
  handle : edge.source.manager.registries.next = a

structure Accepting (edge : Edge Server Action) (a : Handle) (reg : Registry) (ev : Event)
    (expires : Int) : Prop where
  found : (edge.source.manager.registries.findByEvent ev edge.source.manager.now).2 =
    some (a,reg)
  answer : ∃ xdp, edge.target.manager.wire =
    edge.source.manager.wire ++ [.authorize ev expires xdp]

def Unanswered (s next : Server) : Prop :=
  ∀ ev e xdp, next.manager.wire ≠ s.manager.wire ++ [.authorize ev e xdp]

inductive Stepped (s : Server) (a : Action) (next : Server) : Prop
  | quiet (turned : Turned s.manager.now s.manager.registries next.manager.registries)
      (unanswered : Unanswered s next)
  | made (fresh : Nonce) (ev : Event) (ep : EndpointInfo) (here : a = .manage fresh)
      (slot : s.inbox.head? = some (.notice (.createRegistration ev (some ep))))
      (registries : next.manager.registries =
        (s.manager.registries.create ep s.manager.range s.manager.now).1.write
          s.manager.registries.next ((Registry.create ep s.manager.now).setNounce fresh.toList))
      (unanswered : Unanswered s next)
  | accepted (ev : Event) (b : Handle) (reg reg' : Registry)
      (found : s.manager.registries.findByEvent ev s.manager.now =
        (s.manager.registries,some (b,reg)))
      (live : s.manager.registries.heap.lookup b = some reg)
      (registries : next.manager.registries = s.manager.registries.write b reg')
      (term : SameTerm reg' { reg with updated := s.manager.now }) (xdp : UString)
      (wire : next.manager.wire = s.manager.wire ++ [.authorize ev reg.expires xdp])

theorem unanswered_of_same (same : next.manager.wire = s.manager.wire) : Unanswered s next := by
  intro ev e xdp answer
  simp [same] at answer

theorem unanswered_of_other (output : Output) (other : ∀ ev e xdp, output ≠ .authorize ev e xdp)
    (wire : next.manager.wire = s.manager.wire ++ [output]) : Unanswered s next := by
  intro ev e xdp answer
  simp only [wire,List.append_cancel_left_eq,List.cons.injEq,and_true] at answer
  exact other ev e xdp answer

theorem step_cases (queued : Queued s) {a : Action} (registering : Registering a)
    (moved : s.step hash a = some next) : Stepped s a next := by
  cases a with
  | pass ms =>
    obtain rfl := Option.some.inj moved
    exact .quiet (.refl _ _) (unanswered_of_same rfl)
  | receive ev =>
    obtain rfl := Option.some.inj moved
    exact .quiet (.refl _ _) (unanswered_of_same rfl)
  | manage fresh =>
    obtain ⟨slot,rest,inbox,rfl⟩ := Server.manage_some moved
    have expected := queued.inbox slot (by simp [inbox])
    cases slot with
    | request method ev => exact absurd expected id
    | refreshRegistration ev =>
      cases Manager.refreshRegistration_cases hash s.manager expected fresh with
      | unknown turned wire emitted =>
        exact .quiet turned (unanswered_of_same wire)
      | answered turned output other wire emitted =>
        exact .quiet turned (unanswered_of_other output other wire)
      | accepted b reg reg' found live registries term xdp wire emitted =>
        exact .accepted ev b reg reg' found live registries term xdp wire
    | notice notice =>
      cases notice with
      | createRegistration ev endpoint =>
        cases endpoint with
        | none =>
          exact .quiet (.refl _ _) (unanswered_of_other (.reply ev Sip.notFound) (by simp) rfl)
        | some ep =>
          refine .made fresh ev ep rfl (by rw [inbox]; rfl) rfl ?_
          refine unanswered_of_other (.challenge ev s.manager.registries.next
            (Manager.answer ev (Registry.create ep s.manager.now) fresh.toList) false)
            (by simp) rfl
      | dropEndpoint endpoint => exact absurd expected id
      | sendMessage endpoint data => exact absurd expected id
  | cleanup =>
    obtain rfl := Option.some.inj moved
    exact .quiet (turned_cleanup _ _) (unanswered_of_same rfl)
  | authorize =>
    obtain ⟨signal,rest,-,rfl⟩ := Server.authorize_some moved
    exact .quiet (.refl _ _) (unanswered_of_same rfl)
  | database =>
    obtain ⟨signal,rest,-,rfl⟩ := Server.database_some moved
    exact .quiet (.refl _ _) (unanswered_of_same rfl)
  | other tables drops messages =>
    obtain rfl := Option.some.inj moved
    exact .quiet (.refl _ _) (unanswered_of_same rfl)

theorem now_kept (hash : HashFunction) (now : Nat) : Manager.Kept hash fun m => m.now = now where
  delete _ _ holds := holds
  authorize _ _ _ _ _ holds := holds
  challenge _ _ _ _ fresh _ holds := by
    cases fresh with
    | none => exact holds
    | some bytes => exact holds
  send _ _ _ holds := holds
  emit _ _ holds := holds

theorem step_now {a : Action} (moved : s.step hash a = some next) :
    s.manager.now ≤ next.manager.now := by
  cases a with
  | pass ms =>
    obtain rfl := Option.some.inj moved
    exact Nat.le_add_right _ _
  | receive ev => cases moved; exact Nat.le_refl _
  | manage fresh =>
    obtain ⟨slot,rest,inbox,rfl⟩ := Server.manage_some moved
    have same : (s.manager.handle hash slot fresh).now = s.manager.now :=
      (now_kept hash s.manager.now).handle rfl slot fresh fun _ _ _ => rfl
    exact le_of_eq same.symm
  | cleanup => cases moved; exact Nat.le_refl _
  | authorize =>
    obtain ⟨signal,rest,-,rfl⟩ := Server.authorize_some moved
    exact Nat.le_refl _
  | database =>
    obtain ⟨signal,rest,-,rfl⟩ := Server.database_some moved
    exact Nat.le_refl _
  | other tables drops messages => cases moved; exact Nat.le_refl _

theorem run_queued (run : Server.Run hash s trace final) (queued : Queued s)
    (registering : ∀ edge ∈ trace, Registering edge.action) : Queued final :=
  run.invariant_of Queued (fun _ a => Registering a)
    (fun _ _ _ holds guarded moved => holds.step guarded moved) queued registering

/-- Every record was made for a REGISTER that was looked up, for as long as that one was
granted; accepting others does not change how long. -/
theorem run_granted (started : Started s) (run : Server.Run hash s trace final)
    (registering : ∀ edge ∈ trace, Registering edge.action) :
    ∀ b reg, final.manager.registries.heap.lookup b = some reg →
      ∃ edge ∈ trace, ∃ ev ep, Made edge b ev ep ∧ 1 ≤ ev.expires ∧
        reg.timeout = granted {} ev * 1000 := by
  induction run with
  | start =>
    intro b reg live
    rw [started.registries] at live
    simp at live
  | @next trace middle a next earlier moved ih =>
    have before := ih fun edge member => registering edge (List.mem_append_left _ member)
    have queued := run_queued earlier started.queued fun edge member =>
      registering edge (List.mem_append_left _ member)
    have known (b : Handle) (reg : Registry)
        (live : middle.manager.registries.heap.lookup b = some reg) :
        ∃ edge ∈ trace ++ [⟨middle,a,next⟩], ∃ ev ep, Made edge b ev ep ∧ 1 ≤ ev.expires ∧
          reg.timeout = granted {} ev * 1000 := by
      obtain ⟨edge,member,made⟩ := before b reg live
      exact ⟨edge,List.mem_append_left _ member,made⟩
    intro b reg' live'
    cases step_cases queued (registering _ (List.mem_append_right _ (List.mem_singleton_self _))) moved with
    | quiet turned _ =>
      obtain ⟨reg,live,same⟩ := turned.origin b reg' live'
      rw [same.timeout]
      exact known b reg live
    | made fresh ev ep here slot registries _ =>
      rw [registries,lookup_write] at live'
      split at live'
      · rename_i new
        obtain rfl := Option.some.inj live'
        have expected := queued.inbox _ (List.mem_of_mem_head? slot)
        refine ⟨_,List.mem_append_right _ (List.mem_singleton_self _),ev,ep,
          ⟨⟨fresh,here⟩,slot,new.symm⟩,expected.1,?_⟩
        rw [show ((Registry.create ep middle.manager.now).setNounce fresh.toList).timeout =
          ep.expires * 1000 from rfl,expected.2 ep rfl]
      · rename_i other
        refine known b reg' ?_
        simpa [Registries.create,Index.lookup_insert_cases,other] using live'
    | accepted ev c reg after found live registries term xdp wire =>
      rw [registries,lookup_write] at live'
      split at live'
      · rename_i here
        obtain rfl := Option.some.inj live'
        rw [term.timeout]
        exact known b reg (here ▸ live)
      · exact known b reg' live'

structure Held (b : Handle) (reg : Registry) (s : Server) : Prop where
  used : b < s.manager.registries.next
  same : ∀ reg', s.manager.registries.heap.lookup b = some reg' → SameTerm reg' reg
  live : reg.hasExpired s.manager.now = false →
    ∃ reg', s.manager.registries.heap.lookup b = some reg'

theorem Held.step (held : Held b reg s) (queued : Queued s) {a : Action}
    (registering : Registering a) (moved : s.step hash a = some next)
    (other : ∀ reg ev e, ¬Accepting ⟨s,a,next⟩ b reg ev e) : Held b reg next := by
  have earlier (fresh : reg.hasExpired next.manager.now = false) :
      reg.hasExpired s.manager.now = false := by
    by_contra expired
    rw [Bool.not_eq_false] at expired
    rw [hasExpired_mono expired (step_now moved)] at fresh
    contradiction
  cases step_cases queued registering moved with
  | quiet turned _ =>
    refine ⟨turned.next ▸ held.used,fun reg' live' => ?_,fun fresh => ?_⟩
    · obtain ⟨before,live,same⟩ := turned.origin b reg' live'
      exact same.trans (held.same before live)
    · obtain ⟨before,live⟩ := held.live (earlier fresh)
      exact turned.survives b before live
        (by rw [(held.same before live).hasExpired,earlier fresh])
  | made fresh ev ep _ _ registries _ =>
    have apart : b ≠ s.manager.registries.next := Nat.ne_of_lt held.used
    have same : next.manager.registries.heap.lookup b = s.manager.registries.heap.lookup b := by
      rw [registries,lookup_write,if_neg apart]
      simp [Registries.create,apart]
    refine ⟨?_,fun reg' live' => held.same reg' (same ▸ live'),fun fresh => ?_⟩
    · rw [registries]
      exact Nat.lt_succ_of_lt held.used
    · rw [same]
      exact held.live (earlier fresh)
  | accepted ev c before after found live registries term xdp wire =>
    have apart : b ≠ c := by
      rintro rfl
      exact other before ev _ ⟨by rw [found],xdp,wire⟩
    have same : next.manager.registries.heap.lookup b = s.manager.registries.heap.lookup b := by
      rw [registries,lookup_write,if_neg apart]
    refine ⟨?_,fun reg' live' => held.same reg' (same ▸ live'),fun fresh => ?_⟩
    · rw [registries]
      exact held.used
    · rw [same]
      exact held.live (earlier fresh)

theorem Held.run (run : Server.Run hash s trace final) (held : Held b reg s) (queued : Queued s)
    (registering : ∀ edge ∈ trace, Registering edge.action)
    (other : ∀ edge ∈ trace, ∀ reg ev e, ¬Accepting edge b reg ev e) : Held b reg final := by
  induction run with
  | start => exact held
  | @next trace middle a next earlier moved ih =>
    have front {edge} (member : edge ∈ trace) : edge ∈ trace ++ [⟨middle,a,next⟩] :=
      List.mem_append_left _ member
    have last : (⟨middle,a,next⟩ : Edge Server Action) ∈ trace ++ [⟨middle,a,next⟩] :=
      List.mem_append_right _ (List.mem_singleton_self _)
    have before := ih (fun edge member => registering edge (front member))
      fun edge member => other edge (front member)
    exact before.step (run_queued earlier queued fun edge member => registering edge (front member))
      (registering _ last) moved (other _ last)

/-- Both lookups return the record until a time, and neither does afterwards. -/
structure Lasts (s : Server) (b : Handle) (key : Int × UString) (endpoint last : Int) : Prop where
  event : s.manager.now ≤ last → ∀ ev, ev.key = key →
    ∃ reg', s.manager.registries.findByEvent ev s.manager.now =
      (s.manager.registries,some (b,reg'))
  id : s.manager.now ≤ last →
    ∃ reg', s.manager.registries.findById endpoint s.manager.now =
      (s.manager.registries,some (b,reg'))
  expired : last < s.manager.now → ∀ reg',
    (∀ ev, (s.manager.registries.findByEvent ev s.manager.now).2 ≠ some (b,reg')) ∧
    ∀ endpoint, (s.manager.registries.findById endpoint s.manager.now).2 ≠ some (b,reg')

theorem unexpired_found {t : Registries} {entry : Option Handle} {now : Nat}
    (found : (t.unexpired entry now).2 = some (b,reg)) :
    t.heap.lookup b = some reg ∧ reg.hasExpired now = false := by
  rcases unexpired_cases t entry now with ⟨a,r,shape,_,live,fresh⟩ | ⟨a,r,shape,_⟩ | ⟨shape,_⟩
  · rw [shape] at found
    obtain ⟨rfl,rfl⟩ := Prod.mk.inj (Option.some.inj found)
    exact ⟨live,fresh⟩
  · simp [shape] at found
  · simp [shape] at found

theorem Held.lasts (held : Held b reg s) (filed : Filed s.manager.registries)
    (positive : 0 ≤ reg.timeout) (small : reg.timeout ≤ 600000) :
    Lasts s b reg.key reg.endpointId (reg.updated + reg.timeout) := by
  have term := hasExpired_eq_false s.manager.now positive small
  refine ⟨fun early ev key => ?_,fun early => ?_,fun late reg' => ?_⟩
  · have fresh := term.mpr early
    obtain ⟨reg',live⟩ := held.live fresh
    have same := held.same reg' live
    refine ⟨reg',?_⟩
    rw [filed.reached.event b reg' _ ev live (key.trans same.key.symm),same.hasExpired,fresh]
    rfl
  · have fresh := term.mpr early
    obtain ⟨reg',live⟩ := held.live fresh
    have same := held.same reg' live
    refine ⟨reg',?_⟩
    rw [← same.endpoint,filed.reached.endpoint b reg' _ live,same.hasExpired,fresh]
    rfl
  · have gone (entry : Option Handle) :
        (s.manager.registries.unexpired entry s.manager.now).2 ≠ some (b,reg') := by
      intro found
      obtain ⟨live,fresh⟩ := unexpired_found found
      rw [(held.same reg' live).hasExpired] at fresh
      have := term.mp fresh
      omega
    exact ⟨fun ev => gone _,fun endpoint => gone _⟩

/-- An accepted REGISTER restarts the record's term, and is answered with its length. -/
theorem Accepting.restarts {edge : Edge Server Action} (accepts : Accepting edge b reg ev e)
    (queued : Queued edge.source) (registering : Registering edge.action)
    (moved : edge.source.step hash edge.action = some edge.target)
    (linked : Linked edge.source.manager.registries) :
    edge.source.manager.registries.heap.lookup b = some reg ∧ ev.key = reg.key ∧
    e = reg.expires ∧ Held b { reg with updated := edge.source.manager.now } edge.target := by
  obtain ⟨found,xdp,answer⟩ := accepts
  cases step_cases queued registering moved with
  | quiet _ unanswered => exact absurd answer (unanswered ev e xdp)
  | made _ _ _ _ _ _ unanswered => exact absurd answer (unanswered ev e xdp)
  | accepted ev' c reg' after found' live registries term xdp' wire =>
    rw [wire,List.append_cancel_left_eq] at answer
    simp only [List.cons.injEq,Output.authorize.injEq,and_true] at answer
    obtain ⟨rfl,rfl,-⟩ := answer
    rw [found'] at found
    obtain ⟨rfl,rfl⟩ := Prod.mk.inj (Option.some.inj found)
    have entry : edge.source.manager.registries.registries.lookup ev'.key = some c := by
      rcases unexpired_cases edge.source.manager.registries
        (edge.source.manager.registries.registries.lookup ev'.key) edge.source.manager.now with
        ⟨a,r,shape,entry,_⟩ | ⟨a,r,shape,_⟩ | ⟨shape,_⟩
      · rw [findByEvent,shape] at found'
        obtain ⟨rfl,-⟩ := Prod.mk.inj (Option.some.inj (Prod.mk.inj found').2)
        exact entry
      · rw [findByEvent,shape] at found'
        simp at found'
      · rw [findByEvent,shape] at found'
        simp at found'
    obtain ⟨own,live',key⟩ := linked.registries _ _ entry
    obtain rfl : reg' = own := Option.some.inj (live.symm.trans live')
    refine ⟨live,key.symm,rfl,?_,fun other live' => ?_,fun _ => ?_⟩
    · rw [registries]
      exact linked.used c reg' live
    · rw [registries,lookup_write,if_pos rfl] at live'
      exact Option.some.inj live' ▸ term
    · rw [registries,lookup_write,if_pos rfl]
      exact ⟨after,rfl⟩

/-- In a run in which a device never has two records, an accepted REGISTER is answered
with the lifetime of the REGISTER that the record was looked up for. That is within its
own request and cap just when it was no more than these, and it is exactly how long the
record is returned. -/
theorem registration_lasts {before after : List (Edge Server Action)} (started : Started s)
    (run : Server.Run hash s (before ++ edge :: after) final)
    (registering : ∀ step ∈ before ++ edge :: after, Registering step.action)
    (single : ∀ step ∈ before ++ edge :: after, Single step.source step.action)
    (accepts : Accepting edge b reg ev e) :
    ∃ made ∈ before, ∃ ev₀ ep, Made made b ev₀ ep ∧
      ((1 ≤ e ∧ e ≤ ev.expires ∧ e ≤ cap {} ev) ↔
        granted {} ev₀ ≤ ev.expires ∧ granted {} ev₀ ≤ cap {} ev) ∧
      ((∀ later ∈ after, ∀ reg ev e, ¬Accepting later b reg ev e) →
        Lasts final b ev.key reg.endpointId (edge.source.manager.now + 1000 * e)) := by
  obtain ⟨middle,earlier,rest⟩ := run.of_append
  obtain ⟨rfl,moved,later⟩ := rest.of_cons
  have front {step} (member : step ∈ before) : step ∈ before ++ edge :: after :=
    List.mem_append_left _ member
  have here : edge ∈ before ++ edge :: after := by simp
  have back {step} (member : step ∈ after) : step ∈ before ++ edge :: after := by simp [member]
  have queued := run_queued earlier started.queued fun step member => registering step (front member)
  have linked := run_linked earlier (started.registries ▸ linked_empty)
  obtain ⟨live,key,rfl,held⟩ := accepts.restarts queued (registering edge here) moved linked
  obtain ⟨made,member,ev₀,ep,made_,positive,timeout⟩ := run_granted started earlier
    (fun step member => registering step (front member)) b reg live
  have range := granted_pos positive
  have expires : reg.expires = granted {} ev₀ := by
    rw [Registry.expires,timeout]
    exact Int.mul_tdiv_cancel _ (by omega)
  refine ⟨made,member,ev₀,ep,made_,?_,fun unrefreshed => ?_⟩
  · rw [expires]
    exact ⟨fun bounds => bounds.2,fun bounds => ⟨range.1,bounds⟩⟩
  · have kept := held.run later (queued.step (registering edge here) moved)
      (fun step member => registering step (back member)) unrefreshed
    have indexed := run_indexed run (started.registries ▸ indexed_empty) single
    have lasts := kept.lasts ((filed_iff_indexed indexed.toLinked).mpr indexed)
      (show 0 ≤ reg.timeout by omega) (show reg.timeout ≤ 600000 by omega)
    rw [key,expires,Int.mul_comm]
    rw [← timeout]
    exact lasts

/-- A check of what the theorem asks of a step, where records are only made first. -/
def careful (s : Server) (a : Action) : Bool :=
  (match a with
    | .receive ev => ev.method = UString.ascii "REGISTER" && 1 ≤ ev.expires
    | .other .. => false
    | _ => true) &&
  ((s.creation a).isNone || s.manager.registries.heap.entries.isEmpty)

theorem careful_sound {a : Action} (passed : careful s a = true) :
    Registering a ∧ Single s a := by
  obtain ⟨kind,alone⟩ := Bool.and_eq_true_iff.mp passed
  constructor
  · cases a with
    | receive ev => simpa [Registering] using kind
    | other => simp at kind
    | _ => trivial
  · intro ep creates
    rw [creates,Option.isNone_some,Bool.false_or] at alone
    have none (b : Handle) : s.manager.registries.heap.lookup b = none := by
      rw [AList.lookup,List.isEmpty_iff.mp alone]
      rfl
    constructor <;> intro b reg live <;> simp [none] at live

def briefly : Event :=
  { Site.signed Site.register "0707070707070707" "0476139b44ef0de547a92625ae3bc490" with
    expires := 60 }

def brief : List Action := [.receive Site.register,.manage (Site.nonce 0),.authorize,
  .manage (Site.nonce 7),.receive briefly]

def answered (actions : List Action) (ev : Event) : Option (Bool × Bool × Option Output) :=
  (execute (guarded careful (step Site.hash)) actions Site.server).bind fun s =>
    (guarded careful (step Site.hash) s (.manage (Site.nonce 0))).map fun next =>
      ((s.manager.registries.findByEvent ev s.manager.now).2.isSome,
        next.manager.wire.dropLast = s.manager.wire,next.manager.wire.getLast?)

theorem brief_answered : ∃ xdp, answered brief briefly =
    some (true,true,some (.authorize briefly 300 xdp)) := ⟨_,rfl⟩

theorem site_started : Started Site.server where
  registries := rfl
  queued := by
    refine ⟨⟨rfl,rfl,rfl⟩,?_,?_,?_,rfl,rfl⟩ <;> intro _ member <;>
      exact absurd member List.not_mem_nil

theorem brief_run : ∃ before edge b reg,
    Server.Run Site.hash Site.server (before ++ [edge]) edge.target ∧
    (∀ step ∈ before ++ [edge], Registering step.action) ∧
    (∀ step ∈ before ++ [edge], Single step.source step.action) ∧
    Accepting edge b reg briefly 300 := by
  obtain ⟨xdp,answer⟩ := brief_answered
  obtain ⟨s,done,last⟩ := Option.bind_eq_some_iff.mp answer
  obtain ⟨next,moved,facts⟩ := Option.map_eq_some_iff.mp last
  obtain ⟨trace,run,-⟩ := execute_run _ _ _ done
  obtain ⟨whole,passed⟩ := (Transition.Run.next run moved).of_guarded
  obtain ⟨found,rest⟩ := Prod.mk.inj facts
  obtain ⟨front,back⟩ := Prod.mk.inj rest
  obtain ⟨⟨b,reg⟩,record⟩ := Option.isSome_iff_exists.mp found
  refine ⟨trace,_,b,reg,whole,fun step member => (careful_sound (passed step member)).1,
    fun step member => (careful_sound (passed step member)).2,record,xdp,?_⟩
  rw [← of_decide_eq_true front]
  exact (List.dropLast_append_getLast? _ back).symm

/-- A device that asks for a minute is answered with 300 seconds. -/
theorem lifetime_exceeds_request : Started Site.server ∧ briefly.expires = 60 ∧
    ∃ before edge b reg, Server.Run Site.hash Site.server (before ++ [edge]) edge.target ∧
      (∀ step ∈ before ++ [edge], Registering step.action) ∧
      Accepting edge b reg briefly 300 := by
  obtain ⟨before,edge,b,reg,run,registering,_,accepts⟩ := brief_run
  exact ⟨site_started,rfl,before,edge,b,reg,run,registering,accepts⟩

theorem registration_lasts_brief : ∃ before edge b, ∃ reg : Registry,
    Server.Run Site.hash Site.server (before ++ [edge]) edge.target ∧
    ∃ made ∈ before, ∃ ev₀ ep, Made made b ev₀ ep ∧
      Lasts edge.target b briefly.key reg.endpointId (edge.source.manager.now + 1000 * 300) := by
  obtain ⟨before,edge,b,reg,run,registering,single,accepts⟩ := brief_run
  obtain ⟨made,member,ev₀,ep,made_,_,lasts⟩ :=
    registration_lasts site_started run registering single accepts
  exact ⟨before,edge,b,reg,run,made,member,ev₀,ep,made_,lasts (by simp)⟩

end Server

end SipWitch
