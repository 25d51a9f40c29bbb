import SipWitch.ListenerThread
import SipWitch.Transition

/-! The desktop with the threads that it makes: a listener for each time that it tries to be
online, and a connector once it is authorized. Their signals are queued for the desktop, which
may have replaced a thread when it handles what the thread has signalled. -/
namespace SipWitch

inductive DesktopState where
  | initial | offline | authorizing | online
  deriving DecidableEq

inductive DesktopSlot where
  | authorizing
  | authorized
  | offline
  | failed (code : Nat)
  | statusResult (code : Nat)
  deriving DecidableEq

inductive SignalSource where
  | listener (id : Nat)
  | connector (id : Nat)
  deriving DecidableEq

def DesktopSlot.ofConnector : DesktopSlot → Bool
  | .failed code => code = ListenerThread.unreachable
  | .statusResult _ => true
  | _ => false

structure PostedSignal where
  source : SignalSource
  slot : DesktopSlot
  deriving DecidableEq

def ListenerOutput.slot : ListenerOutput → Option DesktopSlot
  | .starting => some .authorizing
  | .authorize => some .authorized
  | .finished => some .offline
  | .failure code => some (.failed code)
  | .statusResult code => some (.statusResult code)
  | _ => none

/-- What the desktop relies on without a check. -/
inductive Fault where
  /-- `listen` with a listener that would never be stopped. -/
  | listening
  /-- A second storage beside the one that is open. -/
  | storage
  /-- The credentials of a storage that is gone. -/
  | credentials
  /-- A listener that has deleted itself is told to stop. -/
  | deleted
  deriving DecidableEq

structure Lifecycle where
  state : DesktopState := .initial
  /-- The threads are numbered in the order in which they are made. -/
  listener : Option Nat := none
  connector : Option Nat := none
  listeners : List ListenerThread := []
  /-- The connectors, as far as they are active. -/
  connectors : List Bool := []
  posted : List PostedSignal := []
  storage : Bool
  loginShown : Bool
  loginEnabled : Bool
  /-- The action is enabled. -/
  trayAway : Bool := false
  front : Bool := true
  offlineMode : Bool := true
  powerReconnect : Bool := false
  frontTimers : Nat := 0
  passwordTimers : Nat := 0
  resumeTimers : Nat := 0
  faults : List Fault := []

namespace Lifecycle

inductive Action where
  /-- The button of the login window, with credentials that pass or do not. -/
  | initial (accepted : Bool)
  | trayAway
  | appActive
  | appInactive
  | frontTimer
  | powerSuspend
  | powerResume
  | resumeTimer
  | changePassword
  | passwordTimer
  /-- `closeLogout` or `eraseLogout`. -/
  | logout
  | importDb (imported : Bool)
  /-- The desktop handles the first signal that is queued; a database that it makes
  may fail to open. -/
  | deliver (opened : Bool)
  | listener (id : Nat) (a : ListenerThread.Action)
  | connector (id : Nat) (slot : DesktopSlot)

variable (s : Lifecycle)

def authorizing : Lifecycle := { s with trayAway := false, state := .authorizing }

def listen : Lifecycle :=
  authorizing { s with
    faults := if s.listener.isSome then s.faults ++ [.listening] else s.faults
    listener := some s.listeners.length
    listeners := s.listeners ++ [{}] }

def stopConnector : Lifecycle :=
  match s.connector with
  | none => s
  | some id => { s with connector := none, connectors := s.connectors.set id false }

def offline : Lifecycle :=
  match s.listener with
  | none => s
  | some id =>
    { s.stopConnector with
      trayAway := !s.loginShown
      listener := none
      listeners := s.listeners.modify id fun t => { t with active := false }
      state := .offline
      faults := if s.listeners[id]?.any fun t => t.phase = .deleted then s.faults ++ [.deleted]
        else s.faults }

def failed : Lifecycle := { s.offline with loginEnabled := s.loginShown || s.loginEnabled }

def startConnector : Lifecycle :=
  match s.connector with
  | some _ => s
  | none => { s with
      trayAway := true
      connector := some s.connectors.length
      connectors := s.connectors ++ [true] }

def authorized (opened : Bool) : Lifecycle :=
  let s := { s with offlineMode := false }
  if s.storage = false ∧ opened = false then s
  else { { s with storage := true, loginShown := false }.startConnector with state := .online }

def handle (opened : Bool) : DesktopSlot → Lifecycle
  | .authorizing => s.authorizing
  | .authorized => s.authorized opened
  | .offline => s.offline
  | .failed _ => s.failed
  | .statusResult code => if code = ListenerThread.unreachable then s.failed else s

def logout : Lifecycle :=
  { s.offline with storage := false, offlineMode := true, loginShown := true, loginEnabled := true }

/-- A timer that goes online again, unless something else has done so. -/
def again : Lifecycle := if s.connector = none ∧ s.listener = none then s.listen else s

/-- What a listener does by itself. Its timer runs in the thread of the desktop, which is
called at once. -/
def runListener (id : Nat) (a : ListenerThread.Action) : Option Lifecycle :=
  match a with
  | .stop _ => none
  | .timeout =>
    (s.listeners[id]?.bind fun t => t.step .timeout).map fun (t,out) =>
      let s := { s with listeners := s.listeners.set id t }
      if out.any ListenerOutput.isFailure then s.failed else s
  | a =>
    (s.listeners[id]?.bind fun t => t.step a).map fun (t,out) =>
      { s with
        listeners := s.listeners.set id t
        posted := s.posted ++ (out.filterMap ListenerOutput.slot).map fun slot => ⟨.listener id,slot⟩ }

def step (s : Lifecycle) : Action → Option Lifecycle
  | .initial accepted =>
    if s.loginShown && s.loginEnabled then
      if accepted then
        let faults := if s.storage then s.faults ++ [.storage] else s.faults
        some { s with loginEnabled := false, faults }.listen
      else some s
    else none
  | .trayAway =>
    if s.trayAway = false then none
    else if s.connector.isSome then some { s with offlineMode := true }.offline
    else if s.storage then some s.listen
    else some s
  | .appActive =>
    let s := if s.storage && s.listener.isNone && !s.front && !s.offlineMode then s.listen else s
    some { s with frontTimers := s.frontTimers + 1 }
  | .appInactive => some { s with front := false }
  | .frontTimer =>
    if s.frontTimers = 0 then none else some { s with front := true, frontTimers := s.frontTimers - 1 }
  | .powerSuspend =>
    if s.connector.isSome then some { { s with offlineMode := true }.offline with powerReconnect := true }
    else some { s with powerReconnect := false }
  | .powerResume =>
    if s.connector.isNone && s.powerReconnect && s.storage then
      some { s with powerReconnect := false, resumeTimers := s.resumeTimers + 1 }
    else some s
  | .resumeTimer =>
    if s.resumeTimers = 0 then none
    else
      let s := { s with resumeTimers := s.resumeTimers - 1 }
      if s.storage then some s.again
      else if s.connector = none ∧ s.listener = none then some { s with faults := s.faults ++ [.credentials] }
      else some s
  | .changePassword =>
    if s.connector.isSome then
      some { { s with loginShown := false, offlineMode := true }.offline with
        passwordTimers := s.passwordTimers + 1 }
    else some s
  | .passwordTimer =>
    if s.passwordTimers = 0 then none else some { s with passwordTimers := s.passwordTimers - 1 }.again
  | .logout => some s.logout
  | .importDb imported =>
    if s.storage = false then none
    else if imported then some { s.logout with storage := true }.listen
    else some s.logout
  | .deliver opened =>
    match s.posted with
    | [] => none
    | first :: rest => some ({ s with posted := rest }.handle opened first.slot)
  | .listener id a => s.runListener id a
  | .connector id slot =>
    if s.connectors[id]? = some true ∧ slot.ofConnector then
      some { s with posted := s.posted ++ [⟨.connector id,slot⟩] }
    else none

def fresh : Lifecycle := { storage := false, loginShown := true, loginEnabled := true }

def opened : Lifecycle := listen { storage := true, loginShown := false, loginEnabled := true }

abbrev Run := Transition.Run step

end Lifecycle

namespace ListenerThread

variable {t next : ListenerThread} {a : Action} {out : List ListenerOutput}

/-- A thread that has been stopped stays so. -/
theorem step_active (moved : t.step a = some (next,out)) (active : next.active = true) : t.active = true := by
  cases a with
  | wait event built =>
    simp only [step] at moved
    split at moved
    · contradiction
    split at moved
    · obtain ⟨rfl,rfl⟩ := Prod.mk.inj (Option.some.inj moved)
      exact active
    · rename_i live
      simpa using live
  | drain event =>
    simp only [step] at moved
    split at moved
    · have same : (t.drain event).1.active = t.active := by
        cases event with
        | none => rfl
        | some event =>
          simp only [drain]
          split
          · rfl
          · split <;> rfl
      rw [← same,Option.some.inj moved]
      exact active
    · contradiction
  | start | timeout | stop _ | delete =>
    simp only [step] at moved
    repeat' split at moved
    all_goals first | contradiction | obtain ⟨rfl,rfl⟩ := Prod.mk.inj (Option.some.inj moved)
    all_goals first | exact active | simp at active

theorem process_starting (event : SipEvent) : .starting ∉ (t.process event).2 := by
  cases event <;> simp only [process]
  all_goals repeat' split
  all_goals simp

/-- A thread that has been started does not start again, and what it signals first is that. -/
theorem step_started (moved : t.step a = some (next,out)) :
    (t.phase ≠ .created → next.phase ≠ .created ∧ .starting ∉ out) ∧
    (t.phase = .created → a = .start ∧ next.phase ≠ .created ∧ out = [.starting] ∨
      a = .timeout ∨ ∃ shutdown, a = .stop shutdown) := by
  cases a with
  | start =>
    simp only [step] at moved
    split at moved
    · rename_i created
      obtain ⟨rfl,rfl⟩ := Prod.mk.inj (Option.some.inj moved)
      exact ⟨absurd created,fun _ => .inl ⟨rfl,by simp,rfl⟩⟩
    · contradiction
  | wait event built =>
    simp only [step] at moved
    split at moved
    · contradiction
    rename_i phase
    have running : t.phase = .running := by simpa using phase
    refine ⟨fun _ => ?_,fun created => by simp [running] at created⟩
    split at moved
    · obtain ⟨rfl,rfl⟩ := Prod.mk.inj (Option.some.inj moved)
      refine ⟨by simp,?_⟩
      split <;> simp
    split at moved
    · repeat' split at moved
      all_goals obtain ⟨rfl,rfl⟩ := Prod.mk.inj (Option.some.inj moved)
      all_goals exact ⟨by simp [running],by simp⟩
    · rename_i event
      have stepped := Option.some.inj moved
      have same (t : ListenerThread) : (t.process event).1.phase = t.phase := by
        cases event <;> simp only [process]
        all_goals repeat' split
        all_goals rfl
      have silent := process_starting (t := { t with connected := true }) event
      rw [stepped] at silent
      refine ⟨?_,silent⟩
      rw [← congrArg (fun r => r.1.phase) stepped,same]
      simp [running]
  | drain event =>
    simp only [step] at moved
    split at moved
    · rename_i draining
      have drained := Option.some.inj moved
      refine ⟨fun _ => ?_,fun created => by simp [draining] at created⟩
      cases event with
      | none =>
        obtain ⟨rfl,rfl⟩ := Prod.mk.inj drained
        refine ⟨by simp,?_⟩
        split <;> simp
      | some event =>
        simp only [drain,finish] at drained
        repeat' split at drained
        all_goals obtain ⟨rfl,rfl⟩ := Prod.mk.inj drained
        all_goals simp [draining]
    · contradiction
  | timeout =>
    refine ⟨fun runs => ?_,fun _ => .inr (.inl rfl)⟩
    simp only [step] at moved
    repeat' split at moved
    all_goals first | contradiction | obtain ⟨rfl,rfl⟩ := Prod.mk.inj (Option.some.inj moved)
    all_goals simp [runs]
  | stop shutdown =>
    obtain ⟨rfl,rfl⟩ := Prod.mk.inj (Option.some.inj moved)
    exact ⟨fun runs => ⟨runs,by simp⟩,fun _ => .inr (.inr ⟨shutdown,rfl⟩)⟩
  | delete =>
    simp only [step] at moved
    split at moved
    · rename_i done
      obtain ⟨rfl,rfl⟩ := Prod.mk.inj (Option.some.inj moved)
      exact ⟨fun _ => by simp,fun created => by simp [done] at created⟩
    · contradiction

/-- The timer does not end the thread. -/
theorem step_timeout (moved : t.step .timeout = some (next,out)) :
    next.phase = t.phase ∧ next.exiting = t.exiting := by
  simp only [step] at moved
  repeat' split at moved
  all_goals first | contradiction | obtain ⟨rfl,rfl⟩ := Prod.mk.inj (Option.some.inj moved)
  all_goals exact ⟨rfl,rfl⟩

/-- A thread that nobody shuts down finishes with a signal, and deletes itself behind that. -/
theorem step_ended (moved : t.step a = some (next,out)) (lasting : ∀ shutdown, a ≠ .stop shutdown)
    (exiting : t.exiting = false) : next.exiting = false ∧
    (next.phase = .done → t.phase = .done ∨ .finished ∈ out) ∧
    (next.phase = .deleted → t.phase = .deleted ∨ a = .delete ∧ t.phase = .done) := by
  cases a with
  | stop shutdown => exact absurd rfl (lasting shutdown)
  | delete =>
    simp only [step] at moved
    split at moved
    · rename_i done
      obtain ⟨rfl,rfl⟩ := Prod.mk.inj (Option.some.inj moved)
      exact ⟨exiting,fun _ => .inl done,fun _ => .inr ⟨rfl,done⟩⟩
    · contradiction
  | start =>
    simp only [step] at moved
    split at moved
    · obtain ⟨rfl,rfl⟩ := Prod.mk.inj (Option.some.inj moved)
      exact ⟨exiting,by simp,by simp⟩
    · contradiction
  | timeout =>
    simp only [step] at moved
    repeat' split at moved
    all_goals first | contradiction | obtain ⟨rfl,rfl⟩ := Prod.mk.inj (Option.some.inj moved)
    all_goals exact ⟨exiting,.inl,.inl⟩
  | drain event =>
    simp only [step] at moved
    split at moved
    · rename_i draining
      have drained := Option.some.inj moved
      cases event with
      | none =>
        obtain ⟨rfl,rfl⟩ := Prod.mk.inj drained
        exact ⟨exiting,by simp [exiting],by simp⟩
      | some event =>
        simp only [drain,finish] at drained
        repeat' split at drained
        all_goals obtain ⟨rfl,rfl⟩ := Prod.mk.inj drained
        all_goals simp_all
    · contradiction
  | wait event built =>
    simp only [step] at moved
    split at moved
    · contradiction
    rename_i phase
    have running : t.phase = .running := by simpa using phase
    split at moved
    · obtain ⟨rfl,rfl⟩ := Prod.mk.inj (Option.some.inj moved)
      exact ⟨exiting,by simp,by simp⟩
    split at moved
    · repeat' split at moved
      all_goals obtain ⟨rfl,rfl⟩ := Prod.mk.inj (Option.some.inj moved)
      all_goals exact ⟨exiting,by simp [running],by simp [running]⟩
    · rename_i event
      have same (t : ListenerThread) : (t.process event).1.phase = t.phase ∧
          (t.process event).1.exiting = t.exiting := by
        cases event <;> simp only [process]
        all_goals repeat' split
        all_goals simp
      obtain ⟨phase,exits⟩ := same { t with connected := true }
      rw [Option.some.inj moved] at phase exits
      replace phase : next.phase = .running := phase.trans running
      exact ⟨exits.trans exiting,by simp [phase],by simp [phase]⟩

end ListenerThread

theorem ListenerOutput.slot_authorizing {o : ListenerOutput} (posts : o.slot = some .authorizing) :
    o = .starting := by
  cases o <;> simp_all [slot]

namespace Lifecycle

variable {s next : Lifecycle} {a : Action}

/-- Every thread that has not been told to stop is one that the desktop has, and nothing that
it relies on has failed but for a listener that was there. The other fields are what it takes
to keep that. -/
structure Owned (s : Lifecycle) : Prop where
  listeners : ∀ id t, s.listeners[id]? = some t → t.active = true → s.listener = some id
  connectors : ∀ id, s.connectors[id]? = some true → s.connector = some id
  faults : ∀ fault ∈ s.faults, fault = .deleted
  tray : s.trayAway = true → s.connector = none → s.listener = none
  closed : s.loginShown = true → s.storage = false
  login : s.loginShown = true → s.loginEnabled = true → s.listener = none
  password : 0 < s.passwordTimers → s.loginShown = false
  resume : 0 < s.resumeTimers → s.storage = true

/-- The rest of the state does not matter. -/
theorem Owned.frame (owned : Owned s) (state : DesktopState) (posted : List PostedSignal)
    (front offlineMode powerReconnect : Bool) (frontTimers : Nat) :
    Owned { s with state, posted, front, offlineMode, powerReconnect, frontTimers } :=
  ⟨owned.listeners,owned.connectors,owned.faults,owned.tray,owned.closed,owned.login,owned.password,
    owned.resume⟩

theorem Owned.listen (owned : Owned s) (free : s.listener = none)
    (hidden : s.loginShown = true → s.loginEnabled = false) : Owned s.listen where
  listeners id t made active := by
    simp only [Lifecycle.listen,authorizing,List.getElem?_append] at made ⊢
    split at made
    · have other := owned.listeners id t made active
      simp [free] at other
    · have last := (List.getElem?_eq_some_iff.mp made).1
      simp only [List.length_singleton] at last
      exact congrArg some (by omega)
  connectors := owned.connectors
  faults := by simpa [Lifecycle.listen,authorizing,free] using owned.faults
  tray := by simp [Lifecycle.listen,authorizing]
  closed := owned.closed
  login shown enabled := by
    have hidden := hidden shown
    simp only [Lifecycle.listen,authorizing,hidden] at enabled
    contradiction
  password := owned.password
  resume := owned.resume

theorem stopConnector_spec (owned : ∀ id : Nat, s.connectors[id]? = some true → s.connector = some id) :
    s.stopConnector.connector = none ∧ ∀ id : Nat, s.stopConnector.connectors[id]? ≠ some true := by
  simp only [stopConnector]
  split
  · rename_i none
    exact ⟨none,fun id active => by simp [owned id active] at none⟩
  · rename_i id here
    refine ⟨rfl,fun other active => ?_⟩
    simp only [List.getElem?_set] at active
    split at active
    · split at active <;> simp at active
    · rename_i apart
      exact apart (Option.some.inj (here.symm.trans (owned other active)))

theorem offline_listener (s : Lifecycle) : s.offline.listener = none := by
  simp only [offline]
  split <;> [assumption;rfl]

theorem Owned.offline (owned : Owned s) : Owned s.offline := by
  simp only [Lifecycle.offline]
  split
  · exact owned
  rename_i id here
  obtain ⟨connector,connectors⟩ := stopConnector_spec owned.connectors
  have same : s.stopConnector = { s with
      connector := s.stopConnector.connector, connectors := s.stopConnector.connectors } := by
    simp only [stopConnector]
    split <;> rfl
  have late (deleted : Bool) : ∀ fault ∈ if deleted then s.faults ++ [.deleted] else s.faults,
      fault = .deleted := by
    cases deleted with
    | false => exact owned.faults
    | true => exact List.forall_mem_append.mpr ⟨owned.faults,by simp⟩
  have stopped (other : Nat) (t : ListenerThread)
      (made : (s.listeners.modify id fun t => { t with active := false })[other]? = some t) :
      t.active = false := by
    by_contra active
    rw [List.getElem?_modify] at made
    obtain ⟨old,known,rfl⟩ := Option.map_eq_some_iff.mp made
    split at active
    · simp at active
    · rename_i apart
      have mine := owned.listeners other old known (by simpa using active)
      exact apart (Option.some.inj (here.symm.trans mine))
  rw [same]
  exact ⟨fun other t made active => by simp [stopped other t made] at active,
    fun other active => absurd active (connectors other),by simpa using late _,fun _ _ => rfl,owned.closed,
    fun _ _ => rfl,owned.password,owned.resume⟩

theorem Owned.failed (owned : Owned s) : Owned s.failed := by
  have offline := owned.offline
  exact ⟨offline.listeners,offline.connectors,offline.faults,offline.tray,offline.closed,
    fun _ _ => offline_listener s,offline.password,offline.resume⟩

theorem Owned.authorized (owned : Owned s) (opened : Bool) : Owned (s.authorized opened) := by
  simp only [Lifecycle.authorized]
  split
  · exact owned.frame _ _ _ _ _ _
  simp only [startConnector]
  split
  · rename_i id here
    exact ⟨owned.listeners,owned.connectors,owned.faults,fun _ none => by simp [here] at none,by simp,by simp,
      fun _ => rfl,fun _ => rfl⟩
  · rename_i free
    refine ⟨owned.listeners,fun id active => ?_,owned.faults,by simp,by simp,by simp,fun _ => rfl,fun _ => rfl⟩
    simp only [List.getElem?_append] at active
    split at active
    · have other := owned.connectors id active
      simp [free] at other
    · have last := (List.getElem?_eq_some_iff.mp active).1
      simp only [List.length_singleton] at last
      exact congrArg some (by omega)

theorem Owned.logout (owned : Owned s) (idle : s.passwordTimers = 0 ∧ s.resumeTimers = 0) :
    Owned s.logout := by
  have offline := owned.offline
  have none := offline_listener s
  have timers : s.offline.passwordTimers = 0 ∧ s.offline.resumeTimers = 0 := by
    simp only [Lifecycle.offline]
    split
    · exact idle
    · simp only [stopConnector]
      split <;> exact idle
  exact ⟨offline.listeners,offline.connectors,offline.faults,fun _ _ => none,fun _ => rfl,fun _ _ => none,
    fun more => absurd timers.1 (Nat.pos_iff_ne_zero.mp more),
    fun more => absurd timers.2 (Nat.pos_iff_ne_zero.mp more)⟩

theorem Owned.again (owned : Owned s) (hidden : s.loginShown = false) : Owned s.again := by
  simp only [Lifecycle.again]
  split
  · rename_i free
    exact owned.listen free.2 (by simp [hidden])
  · exact owned

theorem Owned.ran (owned : Owned s) {id : Nat} {t t' : ListenerThread} (made : s.listeners[id]? = some t)
    (active : t'.active = true → t.active = true) : Owned { s with listeners := s.listeners.set id t' } := by
  refine ⟨fun other t'' known live => ?_,owned.connectors,owned.faults,owned.tray,owned.closed,owned.login,
    owned.password,owned.resume⟩
  simp only [List.getElem?_set] at known
  split at known
  · rename_i here
    split at known
    · obtain rfl := Option.some.inj known
      exact here ▸ owned.listeners id t made (active live)
    · contradiction
  · exact owned.listeners other t'' known live

theorem Owned.runListener (owned : Owned s) {id : Nat} {a : ListenerThread.Action}
    (moved : s.runListener id a = some next) : Owned next := by
  cases a with
  | stop _ => contradiction
  | timeout =>
    obtain ⟨⟨t',out⟩,stepped,rfl⟩ := Option.map_eq_some_iff.mp moved
    obtain ⟨t,made,stepped⟩ := Option.bind_eq_some_iff.mp stepped
    have ran := owned.ran made (ListenerThread.step_active stepped)
    dsimp only
    split
    · exact ran.failed
    · exact ran
  | start | wait _ _ | drain _ | delete =>
    obtain ⟨⟨t',out⟩,stepped,rfl⟩ := Option.map_eq_some_iff.mp moved
    obtain ⟨t,made,stepped⟩ := Option.bind_eq_some_iff.mp stepped
    exact (owned.ran made (ListenerThread.step_active stepped)).frame _ _ _ _ _ _

/-- The user does not log out while a timer is about to go online again, and restores no
backup. -/
def Orderly (s : Lifecycle) : Action → Prop
  | .logout => s.passwordTimers = 0 ∧ s.resumeTimers = 0
  | .importDb imported => imported = false ∧ s.passwordTimers = 0 ∧ s.resumeTimers = 0
  | _ => True

theorem Owned.handle (owned : Owned s) (opened : Bool) (slot : DesktopSlot) : Owned (s.handle opened slot) := by
  cases slot with
  | authorizing => exact ⟨owned.listeners,owned.connectors,owned.faults,by simp [Lifecycle.handle,authorizing],
      owned.closed,owned.login,owned.password,owned.resume⟩
  | authorized => exact owned.authorized opened
  | offline => exact owned.offline
  | failed code => exact owned.failed
  | statusResult code =>
    simp only [Lifecycle.handle]
    split
    · exact owned.failed
    · exact owned

theorem Owned.stays (owned : Owned s) (here : s.storage = true) : s.loginShown = false := by
  by_contra shown
  simp [owned.closed (by simpa using shown)] at here

theorem Owned.initial (owned : Owned s) {accepted : Bool} (moved : s.step (.initial accepted) = some next) :
    Owned next := by
  simp only [step] at moved
  split at moved
  · rename_i ready
    obtain ⟨visible,enabled⟩ := Bool.and_eq_true_iff.mp ready
    split at moved
    · obtain rfl := Option.some.inj moved
      have disabled : Owned { s with
          loginEnabled := false, faults := if s.storage then s.faults ++ [.storage] else s.faults } :=
        ⟨owned.listeners,owned.connectors,by simpa [owned.closed visible] using owned.faults,owned.tray,
          owned.closed,by simp,owned.password,owned.resume⟩
      exact disabled.listen (owned.login visible enabled) fun _ => rfl
    · exact Option.some.inj moved ▸ owned
  · contradiction

theorem Owned.trayAway (owned : Owned s) (moved : s.step .trayAway = some next) : Owned next := by
  have away : Owned { s with offlineMode := true } := owned.frame _ _ _ _ _ _
  simp only [step] at moved
  split at moved
  · contradiction
  rename_i enabled
  split at moved
  · obtain rfl := Option.some.inj moved
    exact away.offline
  rename_i free
  have free : s.connector = none := by simpa using free
  split at moved
  · rename_i here
    obtain rfl := Option.some.inj moved
    exact owned.listen (owned.tray (by simpa using enabled) free) (by simp [owned.stays here])
  · exact Option.some.inj moved ▸ owned

/-- The login comes back, and the timer for it is started. -/
theorem Owned.changePassword (owned : Owned s) (moved : s.step .changePassword = some next) : Owned next := by
  simp only [step] at moved
  split at moved
  · obtain rfl := Option.some.inj moved
    have hidden : Owned { s with loginShown := false, offlineMode := true } := ⟨owned.listeners,
      owned.connectors,owned.faults,owned.tray,by simp,by simp,fun _ => rfl,owned.resume⟩
    have offline := hidden.offline
    refine ⟨offline.listeners,offline.connectors,offline.faults,offline.tray,offline.closed,offline.login,
      fun _ => ?_,offline.resume⟩
    simp only [Lifecycle.offline]
    split
    · rfl
    · simp only [stopConnector]
      split <;> rfl
  · exact Option.some.inj moved ▸ owned

theorem step_owned (owned : Owned s) (orderly : s.Orderly a) (moved : s.step a = some next) : Owned next := by
  have away : Owned { s with offlineMode := true } := owned.frame _ _ _ _ _ _
  cases a with
  | initial accepted => exact owned.initial moved
  | trayAway => exact owned.trayAway moved
  | appActive =>
    obtain rfl := Option.some.inj moved
    have listening : Owned (if s.storage && s.listener.isNone && !s.front && !s.offlineMode then s.listen
        else s) := by
      split
      · rename_i ready
        simp only [Bool.and_eq_true] at ready
        exact owned.listen (by simpa using ready.1.1.2) (by simp [owned.stays ready.1.1.1])
      · exact owned
    exact listening.frame _ _ _ _ _ _
  | appInactive =>
    obtain rfl := Option.some.inj moved
    exact owned.frame _ _ _ _ _ _
  | frontTimer =>
    simp only [step] at moved
    split at moved
    · contradiction
    · obtain rfl := Option.some.inj moved
      exact owned.frame _ _ _ _ _ _
  | powerSuspend =>
    simp only [step] at moved
    split at moved
    · obtain rfl := Option.some.inj moved
      exact away.offline.frame _ _ _ _ _ _
    · obtain rfl := Option.some.inj moved
      exact owned.frame _ _ _ _ _ _
  | powerResume =>
    simp only [step] at moved
    split at moved
    · rename_i ready
      obtain rfl := Option.some.inj moved
      exact ⟨owned.listeners,owned.connectors,owned.faults,owned.tray,owned.closed,owned.login,owned.password,
        fun _ => (Bool.and_eq_true_iff.mp ready).2⟩
    · exact Option.some.inj moved ▸ owned
  | resumeTimer =>
    simp only [step] at moved
    split at moved
    · contradiction
    rename_i armed
    have here := owned.resume (Nat.pos_of_ne_zero armed)
    have fired : Owned { s with resumeTimers := s.resumeTimers - 1 } := ⟨owned.listeners,owned.connectors,
      owned.faults,owned.tray,owned.closed,owned.login,owned.password,fun _ => here⟩
    rw [if_pos here] at moved
    obtain rfl := Option.some.inj moved
    exact fired.again (owned.stays here)
  | changePassword => exact owned.changePassword moved
  | passwordTimer =>
    simp only [step] at moved
    split at moved
    · contradiction
    rename_i armed
    have hidden := owned.password (Nat.pos_of_ne_zero armed)
    have fired : Owned { s with passwordTimers := s.passwordTimers - 1 } := ⟨owned.listeners,owned.connectors,
      owned.faults,owned.tray,owned.closed,owned.login,fun _ => hidden,owned.resume⟩
    obtain rfl := Option.some.inj moved
    exact fired.again hidden
  | logout =>
    obtain rfl := Option.some.inj moved
    exact owned.logout orderly
  | importDb imported =>
    obtain ⟨rfl,idle⟩ := orderly
    simp only [step,Bool.false_eq_true,if_false] at moved
    split at moved
    · contradiction
    · exact Option.some.inj moved ▸ owned.logout idle
  | deliver opened =>
    simp only [step] at moved
    split at moved
    · contradiction
    · obtain rfl := Option.some.inj moved
      exact Owned.handle (owned.frame _ _ _ _ _ _) opened _
  | listener id a => exact owned.runListener moved
  | connector id slot =>
    simp only [step] at moved
    split at moved
    · obtain rfl := Option.some.inj moved
      exact owned.frame _ _ _ _ _ _
    · contradiction

/-- Where the desktop's listener has ended, the desktop is about to hear of it. -/
structure Settled (s : Lifecycle) : Prop where
  lasting : ∀ (id : Nat) t, s.listeners[id]? = some t → t.exiting = false
  done : ∀ id t, s.listeners[id]? = some t → t.phase = .done → s.listener = some id →
    ⟨.listener id,.offline⟩ ∈ s.posted
  deleted : ∀ id t, s.listeners[id]? = some t → t.phase = .deleted → s.listener ≠ some id
  faults : .deleted ∉ s.faults

/-- Nothing has been done to a listener that it would signal. -/
theorem Settled.of (settled : Settled s) (phases : ∀ (id : Nat) t', next.listeners[id]? = some t' →
      ∃ t, s.listeners[id]? = some t ∧ t'.phase = t.phase ∧ t'.exiting = t.exiting)
    (current : next.listener = none ∨ next.listener = s.listener ∧
      ∀ p ∈ s.posted, p.slot = .offline → p ∈ next.posted)
    (faults : .deleted ∈ next.faults → .deleted ∈ s.faults) : Settled next where
  lasting id t' made := by
    obtain ⟨t,known,-,same⟩ := phases id t' made
    exact same.trans (settled.lasting id t known)
  done id t' made done here := by
    obtain ⟨t,known,same,-⟩ := phases id t' made
    rcases current with none | ⟨mine,queued⟩
    · simp [none] at here
    · exact queued _ (settled.done id t known (same.symm.trans done) (mine.symm.trans here)) rfl
  deleted id t' made gone here := by
    obtain ⟨t,known,same,-⟩ := phases id t' made
    rcases current with none | ⟨mine,-⟩
    · simp [none] at here
    · exact settled.deleted id t known (same.symm.trans gone) (mine.symm.trans here)
  faults found := settled.faults (faults found)

theorem Settled.frame (settled : Settled s) (connector : Option Nat) (connectors : List Bool)
    (state : DesktopState) (storage loginShown loginEnabled trayAway front offlineMode powerReconnect : Bool)
    (frontTimers passwordTimers resumeTimers : Nat) :
    Settled { s with
      connector, connectors, state, storage, loginShown, loginEnabled, trayAway, front, offlineMode,
      powerReconnect, frontTimers, passwordTimers, resumeTimers } :=
  ⟨settled.lasting,settled.done,settled.deleted,settled.faults⟩

theorem Settled.listen (settled : Settled s) : Settled s.listen where
  lasting id t made := by
    simp only [Lifecycle.listen,authorizing,List.getElem?_append] at made
    split at made
    · exact settled.lasting id t made
    · simp only [List.getElem?_singleton] at made
      split at made
      · obtain rfl := Option.some.inj made
        rfl
      · contradiction
  done id t made done here := by
    obtain rfl : s.listeners.length = id := Option.some.inj here
    simp only [Lifecycle.listen,authorizing,List.getElem?_concat_length] at made
    simp [← Option.some.inj made] at done
  deleted id t made gone here := by
    obtain rfl : s.listeners.length = id := Option.some.inj here
    simp only [Lifecycle.listen,authorizing,List.getElem?_concat_length] at made
    simp [← Option.some.inj made] at gone
  faults found := by
    refine settled.faults ?_
    simp only [Lifecycle.listen,authorizing] at found
    split at found
    · simpa using found
    · exact found

/-- The desktop's listener is not one that is gone. -/
theorem Settled.offline (settled : Settled s) (posted : List PostedSignal) :
    Settled { s with posted }.offline := by
  simp only [Lifecycle.offline]
  split
  · rename_i none
    exact settled.of (fun _ t made => ⟨t,made,rfl,rfl⟩) (.inl none) id
  rename_i id here
  have here : s.listener = some id := here
  refine settled.of ?_ (.inl rfl) ?_
  · intro other t' made
    rw [List.getElem?_modify] at made
    obtain ⟨t,known,rfl⟩ := Option.map_eq_some_iff.mp made
    exact ⟨t,known,by split <;> rfl,by split <;> rfl⟩
  · intro found
    dsimp only at found
    split at found
    · rename_i gone
      obtain ⟨t,known,gone⟩ := (Option.any_eq_true _ _).mp gone
      exact absurd here (settled.deleted id t known (by simpa using gone))
    · exact found

/-- A listener deletes itself when all that it has signalled has been handled. -/
def Heard (s : Lifecycle) : Action → Prop
  | .listener id .delete => ∀ p ∈ s.posted, p.source ≠ .listener id
  | _ => True

theorem Settled.failed (settled : Settled s) : Settled s.failed :=
  (settled.offline s.posted).frame ..

theorem Settled.logout (settled : Settled s) : Settled s.logout :=
  (settled.offline s.posted).frame ..

theorem Settled.again (settled : Settled s) : Settled s.again := by
  simp only [Lifecycle.again]
  split
  · exact settled.listen
  · exact settled

theorem Settled.deliver (settled : Settled s) {first : PostedSignal} {rest : List PostedSignal}
    (queue : s.posted = first :: rest) (opened : Bool) :
    Settled ({ s with posted := rest }.handle opened first.slot) := by
  have later (other : first.slot ≠ .offline) : Settled { s with posted := rest } := by
    refine settled.of (fun _ t made => ⟨t,made,rfl,rfl⟩) (.inr ⟨rfl,fun p queued slot => ?_⟩) id
    rw [queue] at queued
    exact (List.mem_cons.mp queued).resolve_left fun same => other (same ▸ slot)
  obtain ⟨source,slot⟩ := first
  cases slot with
  | offline => exact settled.offline rest
  | authorizing => exact (later (by simp)).frame ..
  | authorized =>
    have settled := later (by simp)
    simp only [handle,Lifecycle.authorized,startConnector]
    split
    · exact settled.frame ..
    · split <;> exact settled.frame ..
  | failed code => exact (later (by simp)).failed
  | statusResult code =>
    simp only [handle]
    split
    · exact (later (by simp)).failed
    · exact later (by simp)

/-- A listener has run and posted what it signals. -/
theorem Settled.ran (settled : Settled s) {id : Nat} {t t' : ListenerThread} {posted : List PostedSignal}
    (made : s.listeners[id]? = some t) (lasting : t'.exiting = false)
    (done : t'.phase = .done → s.listener = some id → ⟨.listener id,.offline⟩ ∈ s.posted ++ posted)
    (deleted : t'.phase = .deleted → s.listener ≠ some id) :
    Settled { s with listeners := s.listeners.set id t', posted := s.posted ++ posted } := by
  have inside := (List.getElem?_eq_some_iff.mp made).1
  have split (other : Nat) (t'' : ListenerThread) (known : (s.listeners.set id t')[other]? = some t'') :
      other = id ∧ t'' = t' ∨ s.listeners[other]? = some t'' := by
    by_cases here : id = other
    · subst here
      rw [List.getElem?_set_self inside] at known
      exact .inl ⟨rfl,(Option.some.inj known).symm⟩
    · rw [List.getElem?_set_ne here] at known
      exact .inr known
  refine ⟨fun other t'' known => ?_,fun other t'' known ended here => ?_,fun other t'' known gone => ?_,
    settled.faults⟩
  · rcases split other t'' known with ⟨rfl,rfl⟩ | before
    · exact lasting
    · exact settled.lasting other t'' before
  · rcases split other t'' known with ⟨rfl,rfl⟩ | before
    · exact done ended here
    · exact List.mem_append_left _ (settled.done other t'' before ended here)
  · rcases split other t'' known with ⟨rfl,rfl⟩ | before
    · exact deleted gone
    · exact settled.deleted other t'' before gone

theorem Settled.runListener (settled : Settled s) {id : Nat} {a : ListenerThread.Action}
    (heard : s.Heard (.listener id a)) (moved : s.runListener id a = some next) : Settled next := by
  cases a with
  | stop _ => contradiction
  | timeout =>
    obtain ⟨⟨t',out⟩,stepped,rfl⟩ := Option.map_eq_some_iff.mp moved
    obtain ⟨t,made,stepped⟩ := Option.bind_eq_some_iff.mp stepped
    have same := ListenerThread.step_timeout stepped
    have fired : Settled { s with listeners := s.listeners.set id t' } := by
      refine settled.of (fun other t'' known => ?_) (.inr ⟨rfl,fun _ queued _ => queued⟩) fun found => found
      simp only [List.getElem?_set] at known
      split at known
      · rename_i here
        split at known
        · obtain rfl := Option.some.inj known
          exact ⟨t,here ▸ made,same⟩
        · contradiction
      · exact ⟨t'',known,rfl,rfl⟩
    dsimp only
    split
    · exact fired.failed
    · exact fired
  | start | wait _ _ | drain _ | delete =>
    obtain ⟨⟨t',out⟩,stepped,rfl⟩ := Option.map_eq_some_iff.mp moved
    obtain ⟨t,made,stepped⟩ := Option.bind_eq_some_iff.mp stepped
    obtain ⟨lasting,done,deleted⟩ := ListenerThread.step_ended stepped (by simp) (settled.lasting id t made)
    refine settled.ran made lasting (fun ended here => ?_) fun gone here => ?_
    · rcases done ended with before | signalled
      · exact List.mem_append_left _ (settled.done id t made before here)
      · refine List.mem_append_right _ (List.mem_map.mpr ⟨.offline,?_,rfl⟩)
        exact List.mem_filterMap.mpr ⟨.finished,signalled,rfl⟩
    · rcases deleted gone with before | ⟨here',before⟩
      · exact settled.deleted id t made before here
      · first
        | contradiction
        | exact heard _ (settled.done id t made before here) rfl

theorem step_settled (settled : Settled s) (heard : s.Heard a) (moved : s.step a = some next) :
    Settled next := by
  have away : Settled { s with offlineMode := true } := settled.frame ..
  cases a with
  | initial accepted =>
    simp only [step] at moved
    repeat' split at moved
    · obtain rfl := Option.some.inj moved
      exact Settled.listen ⟨settled.lasting,settled.done,settled.deleted,by simpa using settled.faults⟩
    · obtain rfl := Option.some.inj moved
      exact (settled.frame ..).listen
    · exact Option.some.inj moved ▸ settled
    · contradiction
  | trayAway =>
    simp only [step] at moved
    repeat' split at moved
    · contradiction
    · exact Option.some.inj moved ▸ away.offline s.posted
    · exact Option.some.inj moved ▸ settled.listen
    · exact Option.some.inj moved ▸ settled
  | appActive =>
    obtain rfl := Option.some.inj moved
    have listening : Settled (if s.storage && s.listener.isNone && !s.front && !s.offlineMode then s.listen
        else s) := by
      split
      · exact settled.listen
      · exact settled
    exact listening.frame ..
  | appInactive => exact Option.some.inj moved ▸ settled.frame ..
  | frontTimer =>
    simp only [step] at moved
    split at moved
    · contradiction
    · exact Option.some.inj moved ▸ settled.frame ..
  | powerSuspend =>
    simp only [step] at moved
    split at moved
    · exact Option.some.inj moved ▸ (away.offline s.posted).frame ..
    · exact Option.some.inj moved ▸ settled.frame ..
  | powerResume =>
    simp only [step] at moved
    split at moved
    · exact Option.some.inj moved ▸ settled.frame ..
    · exact Option.some.inj moved ▸ settled
  | resumeTimer =>
    simp only [step] at moved
    have fired : Settled { s with resumeTimers := s.resumeTimers - 1 } := settled.frame ..
    repeat' split at moved
    · contradiction
    · exact Option.some.inj moved ▸ fired.again
    · obtain rfl := Option.some.inj moved
      exact ⟨settled.lasting,settled.done,settled.deleted,by simpa using settled.faults⟩
    · exact Option.some.inj moved ▸ fired
  | changePassword =>
    simp only [step] at moved
    split at moved
    · obtain rfl := Option.some.inj moved
      have hidden : Settled { s with loginShown := false, offlineMode := true } := settled.frame ..
      exact (hidden.offline s.posted).frame ..
    · exact Option.some.inj moved ▸ settled
  | passwordTimer =>
    simp only [step] at moved
    split at moved
    · contradiction
    · have fired : Settled { s with passwordTimers := s.passwordTimers - 1 } := settled.frame ..
      exact Option.some.inj moved ▸ fired.again
  | logout => exact Option.some.inj moved ▸ settled.logout
  | importDb imported =>
    simp only [step] at moved
    repeat' split at moved
    · contradiction
    · exact Option.some.inj moved ▸ (settled.logout.frame ..).listen
    · exact Option.some.inj moved ▸ settled.logout
  | deliver opened =>
    simp only [step] at moved
    split at moved
    · contradiction
    · rename_i first rest queue
      exact Option.some.inj moved ▸ settled.deliver queue opened
  | listener id a => exact settled.runListener heard moved
  | connector id slot =>
    simp only [step] at moved
    split at moved
    · obtain rfl := Option.some.inj moved
      exact settled.of (fun _ t made => ⟨t,made,rfl,rfl⟩)
        (.inr ⟨rfl,fun p queued _ => List.mem_append_left _ queued⟩) fun found => found
    · contradiction

/-- The listener has begun to run. -/
def Started (s : Lifecycle) (id : Nat) : Prop := ∃ t, s.listeners[id]? = some t ∧ t.phase ≠ .created

/-- What the state says is what the desktop has. The other fields are about the signals that are
queued: a listener posts nothing until it runs, and its start first. -/
structure Coherent (s : Lifecycle) : Prop where
  online : s.state = .online ↔ s.connector.isSome
  authorizing : s.state = .authorizing ↔ s.listener.isSome ∧ s.connector = none
  service : s.connector.isSome → s.listener.isSome ∧ s.storage = true
  started : ∀ p ∈ s.posted, ∀ id, p.source = .listener id → s.Started id
  first : s.posted.Pairwise fun before p => before.source = p.source → p.slot ≠ .authorizing
  past : s.connector.isSome → ∀ id, s.listener = some id →
    s.Started id ∧ ⟨.listener id,.authorizing⟩ ∉ s.posted
  login : s.loginShown = true → s.connector = none

theorem Coherent.frame (coherent : Coherent s) (trayAway front offlineMode powerReconnect
    loginEnabled : Bool) (frontTimers passwordTimers resumeTimers : Nat) (faults : List Fault) :
    Coherent { s with
      trayAway, front, offlineMode, powerReconnect, loginEnabled, frontTimers, passwordTimers,
      resumeTimers, faults } :=
  ⟨coherent.online,coherent.authorizing,coherent.service,coherent.started,coherent.first,coherent.past,
    coherent.login⟩

/-- Without a listener there is no connector. -/
theorem Coherent.quiet (coherent : Coherent s) (free : s.listener = none) : s.connector = none := by
  by_contra here
  have service := (coherent.service (Option.isSome_iff_ne_none.mpr here)).1
  simp [free] at service

theorem Started.listen {id : Nat} (started : s.Started id) : s.listen.Started id := by
  obtain ⟨t,made,runs⟩ := started
  refine ⟨t,?_,runs⟩
  simp only [Lifecycle.listen,Lifecycle.authorizing]
  rw [List.getElem?_append_left (List.getElem?_eq_some_iff.mp made).1]
  exact made

theorem Coherent.listen (coherent : Coherent s) (quiet : s.connector = none) : Coherent s.listen := by
  have off : s.listen.connector = none := quiet
  refine ⟨?_,?_,?_,fun p queued id source => (coherent.started p queued id source).listen,coherent.first,?_,
    fun _ => quiet⟩
  · simp [Lifecycle.listen,Lifecycle.authorizing,quiet]
  · simp [Lifecycle.listen,Lifecycle.authorizing,quiet]
  · simp [off]
  · simp [off]

theorem Coherent.offline (coherent : Coherent s) : Coherent s.offline := by
  simp only [Lifecycle.offline]
  split
  · exact coherent
  rename_i id here
  have quiet : s.stopConnector.connector = none := by
    simp only [stopConnector]
    split
    · assumption
    · rfl
  have posted : s.stopConnector.posted = s.posted := by
    simp only [stopConnector]
    split <;> rfl
  refine ⟨by simp [quiet],by simp,by simp [quiet],?_,by simpa [posted] using coherent.first,by simp [quiet],
    fun _ => quiet⟩
  intro p queued other source
  obtain ⟨t,made,runs⟩ := coherent.started p (posted ▸ queued) other source
  refine ⟨if id = other then { t with active := false } else t,?_,by split <;> exact runs⟩
  simp only [List.getElem?_modify,made]
  split <;> simp

theorem Coherent.failed (coherent : Coherent s) : Coherent s.failed := coherent.offline.frame ..

theorem Coherent.logout (coherent : Coherent s) : Coherent s.logout ∧ s.logout.connector = none := by
  have offline := coherent.offline
  have quiet : s.offline.connector = none := offline.quiet (offline_listener s)
  exact ⟨⟨offline.online,offline.authorizing,by simp [Lifecycle.logout,quiet],offline.started,offline.first,
    offline.past,fun _ => quiet⟩,quiet⟩

theorem Coherent.again (coherent : Coherent s) : Coherent s.again := by
  simp only [Lifecycle.again]
  split
  · rename_i free
    exact coherent.listen free.1
  · exact coherent

theorem Coherent.authorized (coherent : Coherent s) (opened : Bool) {id : Nat}
    (current : s.listener = some id) (started : s.Started id)
    (quiet : ⟨.listener id,.authorizing⟩ ∉ s.posted) : Coherent (s.authorized opened) := by
  simp only [Lifecycle.authorized]
  split
  · exact coherent.frame ..
  have past (other : Nat) (here : s.listener = some other) :
      s.Started other ∧ ⟨.listener other,.authorizing⟩ ∉ s.posted := by
    obtain rfl := Option.some.inj (here.symm.trans current)
    exact ⟨started,quiet⟩
  simp only [startConnector]
  split
  · rename_i connector here
    have here : s.connector = some connector := here
    exact ⟨by simp [here],by simp [here],by simp [current],coherent.started,coherent.first,fun _ => past,by simp⟩
  · exact ⟨by simp,by simp,by simp [current],coherent.started,coherent.first,fun _ => past,by simp⟩

/-- A listener posts behind its own start. -/
theorem Coherent.posts (coherent : Coherent s) {id : Nat} {t t' : ListenerThread} (made : s.listeners[id]? = some t)
    (slots : List DesktopSlot) (runs : t'.phase ≠ .created)
    (start : t.phase ≠ .created ∧ .authorizing ∉ slots ∨ t.phase = .created ∧ slots = [.authorizing]) :
    Coherent { s with
      listeners := s.listeners.set id t'
      posted := s.posted ++ slots.map fun slot => ⟨.listener id,slot⟩ } := by
  have inside := (List.getElem?_eq_some_iff.mp made).1
  have same (other : Nat) (started : s.Started other) :
      ∃ t, (s.listeners.set id t')[other]? = some t ∧ t.phase ≠ .created := by
    by_cases here : id = other
    · exact ⟨t',by simp [here ▸ inside,here],runs⟩
    · rw [List.getElem?_set_ne here]
      exact started
  have unposted (created : t.phase = .created) : ∀ p ∈ s.posted, p.source ≠ .listener id := by
    intro p queued source
    obtain ⟨old,known,begun⟩ := coherent.started p queued id source
    exact begun (Option.some.inj (made.symm.trans known) ▸ created)
  refine ⟨coherent.online,coherent.authorizing,coherent.service,?_,?_,?_,coherent.login⟩
  · intro p queued other source
    rcases List.mem_append.mp queued with old | new
    · exact same other (coherent.started p old other source)
    · obtain ⟨slot,-,rfl⟩ := List.mem_map.mp new
      obtain rfl := SignalSource.listener.inj source
      exact ⟨t',by simp [inside],runs⟩
  · refine List.pairwise_append.mpr ⟨coherent.first,?_,?_⟩
    · rcases start with ⟨-,plain⟩ | ⟨-,rfl⟩
      · refine List.pairwise_map.mpr (List.pairwise_iff_forall_sublist.mpr fun front _ here => ?_)
        exact plain (here ▸ front.subset (by simp))
      · simp
    · intro before old p new alike
      obtain ⟨slot,posted,rfl⟩ := List.mem_map.mp new
      rcases start with ⟨-,plain⟩ | ⟨created,-⟩
      · exact fun here => plain (here ▸ posted)
      · exact absurd alike (unposted created before old)
  · intro here other current
    obtain ⟨started,quiet⟩ := coherent.past here other current
    refine ⟨same other started,fun queued => ?_⟩
    rcases List.mem_append.mp queued with old | new
    · exact quiet old
    · obtain ⟨slot,posted,alike⟩ := List.mem_map.mp new
      obtain ⟨source,rfl⟩ := PostedSignal.mk.inj alike
      obtain rfl := SignalSource.listener.inj source
      obtain ⟨old,known,begun⟩ := started
      rcases start with ⟨-,plain⟩ | ⟨created,-⟩
      · exact plain posted
      · exact begun (Option.some.inj (made.symm.trans known) ▸ created)

theorem Coherent.runListener (coherent : Coherent s) {id : Nat} {a : ListenerThread.Action}
    (moved : s.runListener id a = some next) : Coherent next := by
  cases a with
  | stop _ => contradiction
  | timeout =>
    obtain ⟨⟨t',out⟩,stepped,rfl⟩ := Option.map_eq_some_iff.mp moved
    obtain ⟨t,made,stepped⟩ := Option.bind_eq_some_iff.mp stepped
    have inside := (List.getElem?_eq_some_iff.mp made).1
    have same (other : Nat) (started : s.Started other) :
        ∃ t, (s.listeners.set id t')[other]? = some t ∧ t.phase ≠ .created := by
      by_cases here : id = other
      · subst here
        obtain ⟨old,known,begun⟩ := started
        obtain rfl := Option.some.inj (made.symm.trans known)
        exact ⟨t',by simp [inside],((ListenerThread.step_started stepped).1 begun).1⟩
      · rw [List.getElem?_set_ne here]
        exact started
    have fired : Coherent { s with listeners := s.listeners.set id t' } := ⟨coherent.online,
      coherent.authorizing,coherent.service,
      fun p queued other source => same other (coherent.started p queued other source),coherent.first,
      fun here other current => ⟨same other (coherent.past here other current).1,
        (coherent.past here other current).2⟩,coherent.login⟩
    dsimp only
    split
    · exact fired.failed
    · exact fired
  | start | wait _ _ | drain _ | delete =>
    obtain ⟨⟨t',out⟩,stepped,rfl⟩ := Option.map_eq_some_iff.mp moved
    obtain ⟨t,made,stepped⟩ := Option.bind_eq_some_iff.mp stepped
    obtain ⟨later,begins⟩ := ListenerThread.step_started stepped
    by_cases created : t.phase = .created
    · obtain ⟨-,runs,rfl⟩ | other | ⟨_,other⟩ := begins created
      · exact coherent.posts made _ runs (.inr ⟨created,rfl⟩)
      · contradiction
      · contradiction
    · refine coherent.posts made _ (later created).1 (.inl ⟨created,fun posts => ?_⟩)
      obtain ⟨o,put,slot⟩ := List.mem_filterMap.mp posts
      exact (later created).2 (ListenerOutput.slot_authorizing slot ▸ put)

theorem Coherent.deliver (coherent : Coherent s) {first : PostedSignal} {rest : List PostedSignal}
    (queue : s.posted = first :: rest) (fresh : first.slot = .authorizing ∨ first.slot = .authorized →
      ∃ id, s.listener = some id ∧ first.source = .listener id) (opened : Bool) :
    Coherent ({ s with posted := rest }.handle opened first.slot) := by
  have queued (p : PostedSignal) (later : p ∈ rest) : p ∈ s.posted := queue ▸ List.mem_cons_of_mem _ later
  have front : first ∈ s.posted := queue ▸ List.mem_cons_self
  have order := List.pairwise_cons.mp (queue ▸ coherent.first)
  have shorter : Coherent { s with posted := rest } := ⟨coherent.online,coherent.authorizing,coherent.service,
    fun p later => coherent.started p (queued p later),order.2,fun here id current =>
      ⟨(coherent.past here id current).1,fun later => (coherent.past here id current).2 (queued _ later)⟩,
    coherent.login⟩
  obtain ⟨source,slot⟩ := first
  cases slot with
  | authorizing =>
    obtain ⟨id,current,rfl⟩ := fresh (.inl rfl)
    have quiet : s.connector = none := by
      by_contra here
      exact (coherent.past (Option.isSome_iff_ne_none.mpr here) id current).2 front
    exact ⟨by simp [Lifecycle.handle,Lifecycle.authorizing,quiet],
      by simp [Lifecycle.handle,Lifecycle.authorizing,quiet,current],shorter.service,shorter.started,
      shorter.first,shorter.past,shorter.login⟩
  | authorized =>
    obtain ⟨id,current,rfl⟩ := fresh (.inr rfl)
    exact shorter.authorized opened current (coherent.started _ front id rfl)
      fun later => order.1 _ later rfl rfl
  | offline => exact shorter.offline
  | failed code => exact shorter.failed
  | statusResult code =>
    simp only [Lifecycle.handle]
    split
    · exact shorter.failed
    · exact shorter

/-- No start and no authorization of a listener is handled that is replaced. -/
def Fresh (s : Lifecycle) : Action → Prop
  | .deliver _ => ∀ first, s.posted.head? = some first →
      first.slot = .authorizing ∨ first.slot = .authorized →
      ∃ id, s.listener = some id ∧ first.source = .listener id
  | _ => True

theorem step_coherent (coherent : Coherent s) (fresh : s.Fresh a) (moved : s.step a = some next) :
    Coherent next := by
  have away : Coherent { s with offlineMode := true } := coherent.frame ..
  cases a with
  | initial accepted =>
    simp only [step] at moved
    split at moved
    · rename_i ready
      split at moved
      · obtain rfl := Option.some.inj moved
        exact Coherent.listen (coherent.frame ..) (coherent.login (Bool.and_eq_true_iff.mp ready).1)
      · exact Option.some.inj moved ▸ coherent
    · contradiction
  | trayAway =>
    simp only [step] at moved
    split at moved
    · contradiction
    split at moved
    · exact Option.some.inj moved ▸ away.offline
    rename_i free
    split at moved
    · exact Option.some.inj moved ▸ coherent.listen (by simpa using free)
    · exact Option.some.inj moved ▸ coherent
  | appActive =>
    obtain rfl := Option.some.inj moved
    have listening : Coherent (if s.storage && s.listener.isNone && !s.front && !s.offlineMode then s.listen
        else s) := by
      split
      · rename_i ready
        simp only [Bool.and_eq_true] at ready
        exact coherent.listen (coherent.quiet (by simpa using ready.1.1.2))
      · exact coherent
    exact listening.frame ..
  | appInactive => exact Option.some.inj moved ▸ coherent.frame ..
  | frontTimer =>
    simp only [step] at moved
    split at moved
    · contradiction
    · exact Option.some.inj moved ▸ coherent.frame ..
  | powerSuspend =>
    simp only [step] at moved
    split at moved
    · exact Option.some.inj moved ▸ away.offline.frame ..
    · exact Option.some.inj moved ▸ coherent.frame ..
  | powerResume =>
    simp only [step] at moved
    split at moved
    · exact Option.some.inj moved ▸ coherent.frame ..
    · exact Option.some.inj moved ▸ coherent
  | resumeTimer =>
    simp only [step] at moved
    have fired : Coherent { s with resumeTimers := s.resumeTimers - 1 } := coherent.frame ..
    repeat' split at moved
    · contradiction
    · exact Option.some.inj moved ▸ fired.again
    · exact Option.some.inj moved ▸ fired.frame ..
    · exact Option.some.inj moved ▸ fired
  | changePassword =>
    simp only [step] at moved
    split at moved
    · obtain rfl := Option.some.inj moved
      have hidden : Coherent { s with loginShown := false, offlineMode := true } := ⟨coherent.online,
        coherent.authorizing,coherent.service,coherent.started,coherent.first,coherent.past,by simp⟩
      exact hidden.offline.frame ..
    · exact Option.some.inj moved ▸ coherent
  | passwordTimer =>
    simp only [step] at moved
    split at moved
    · contradiction
    · have fired : Coherent { s with passwordTimers := s.passwordTimers - 1 } := coherent.frame ..
      exact Option.some.inj moved ▸ fired.again
  | logout => exact Option.some.inj moved ▸ coherent.logout.1
  | importDb imported =>
    simp only [step] at moved
    obtain ⟨away,quiet⟩ := coherent.logout
    repeat' split at moved
    · contradiction
    · obtain rfl := Option.some.inj moved
      have restored : Coherent { s.logout with storage := true } := ⟨away.online,away.authorizing,
        by simp [quiet],away.started,away.first,away.past,away.login⟩
      exact restored.listen quiet
    · exact Option.some.inj moved ▸ away
  | deliver opened =>
    simp only [step] at moved
    split at moved
    · contradiction
    · rename_i first rest queue
      obtain rfl := Option.some.inj moved
      exact coherent.deliver queue (fresh first (by simp [queue])) opened
  | listener id a => exact coherent.runListener moved
  | connector id slot =>
    simp only [step] at moved
    split at moved
    · rename_i posts
      obtain rfl := Option.some.inj moved
      have plain : slot ≠ .authorizing := by
        rintro rfl
        simp [DesktopSlot.ofConnector] at posts
      refine ⟨coherent.online,coherent.authorizing,coherent.service,?_,?_,?_,coherent.login⟩
      · intro p queued id source
        rcases List.mem_append.mp queued with old | new
        · exact coherent.started p old id source
        · simp [List.mem_singleton.mp new] at source
      · refine List.pairwise_append.mpr ⟨coherent.first,by simp,fun _ _ p new _ => ?_⟩
        simpa [List.mem_singleton.mp new] using plain
      · intro here id current
        obtain ⟨started,quiet⟩ := coherent.past here id current
        exact ⟨started,by simp [quiet]⟩
    · contradiction

/-- As long as no start or authorization comes late from a listener that was replaced, the
desktop is online when it has a connector and authorizing when it has only a listener, and it has a
connector only beside a listener and a storage. -/
theorem state_coherent (initial : s = fresh ∨ s = opened) (run : Run s trace final)
    (fresh : ∀ edge ∈ trace, edge.source.Fresh edge.action) :
    (final.state = .online ↔ final.connector.isSome) ∧
    (final.state = .authorizing ↔ final.listener.isSome ∧ final.connector = none) ∧
    (final.connector.isSome → final.listener.isSome ∧ final.storage = true) := by
  have base (storage loginShown : Bool) : Coherent { storage, loginShown, loginEnabled := true } :=
    ⟨by simp,by simp,by simp,by simp,by simp,by simp,fun _ => rfl⟩
  have start : Coherent s := by
    rcases initial with rfl | rfl
    · exact base false true
    · exact (base true false).listen rfl
  have coherent := run.invariant_of Coherent Fresh (fun _ _ _ => step_coherent) start fresh
  exact ⟨coherent.online,coherent.authorizing,coherent.service⟩

/-- The listener is authorized, and the connector loses the server. -/
theorem state_coherent_lost : ∃ trace final, Run opened trace final ∧ trace.length = 6 ∧
    final.connector = none ∧ final.state ≠ .online := by
  have begun : Run opened [] opened := .start
  have authorized := (((begun.next (a := .listener 0 .start) rfl).next (a := .deliver true) rfl).next
    (a := .listener 0 (.wait (some (.registrationSuccess (some []))) true)) rfl).next (a := .deliver true) rfl
  have run := (authorized.next (a := .connector 0 (.failed 666)) rfl).next (a := .deliver true) rfl
  refine ⟨_,_,run,rfl,rfl,fun online => absurd ((state_coherent (.inr rfl) run ?_).1.mp online) (by decide)⟩
  simp only [List.nil_append,List.cons_append,List.forall_mem_cons]
  refine ⟨trivial,?_,trivial,?_,trivial,?_,by simp⟩
  · exact fun first front _ => ⟨0,rfl,Option.some.inj front ▸ rfl⟩
  · exact fun first front _ => ⟨0,rfl,Option.some.inj front ▸ rfl⟩
  · exact fun first front early => absurd (Option.some.inj front ▸ early) (by decide)

end Lifecycle

end SipWitch
