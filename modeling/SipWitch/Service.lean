import SipWitch.Transition
import Mathlib.Data.List.Perm.Basic
import Mathlib.Data.List.Nodup

/-! The run state of the service: the events that are posted to the `Server` object, its
handler of them, and the managed threads that it starts and stops. Stopping the service
processes what is still queued, inside of the handler of the event that stops it. -/
namespace SipWitch

inductive RunState where
  | START | UP | DOWN | SUSPENDED
  deriving DecidableEq

inductive ServerEvent where
  | STARTUP
  | SHUTDOWN (reason : Int)
  | RELOAD
  | SUSPEND
  | RESUME
  deriving DecidableEq

inductive ServiceSignal where
  | changeConfig | started | aboutToSuspend | aboutToResume | aboutToFinish | finished
  deriving DecidableEq

/-- A managed thread; `handle` tells the objects apart. -/
structure ManagedThread where
  handle : Nat
  priority : Int
  order : Nat
  deriving DecidableEq

structure Service where
  runState : RunState := .START
  /-- Posted, the oldest first. -/
  queue : List ServerEvent := []
  constructed : Bool := false
  exitReason : Int := 0
  staticConfig : Bool := false
  /-- The configuration file among the program's resources. -/
  embedded : Bool := false
  contexts : List ManagedThread := []
  maxOrder : Nat := 1
  /-- The calls of `exit` that are processing queued events, the innermost first. -/
  pumping : List Int := []
  /-- How many STARTUP events have been processed. -/
  startups : Nat := 0
  started : List ManagedThread := []
  stopped : List ManagedThread := []
  signals : List ServiceSignal := []
  /-- The codes given to the application's own `exit`. -/
  exits : List Int := []

namespace Service

/-- The range of `maxOrder`, an unsigned int. -/
def unsignedMax : Nat := 4294967295

variable (s : Service)

def emit (signal : ServiceSignal) : Service := { s with signals := s.signals ++ [signal] }

def postEvent (ev : ServerEvent) : Service := { s with queue := s.queue ++ [ev] }

def ofOrder (order : Nat) : List ManagedThread := s.contexts.filter fun ctx => ctx.order = order

def createThread (order : Nat) (priority : Int) : Service :=
  if s.runState ≠ .START then s
  else { s with
    contexts := s.contexts ++ [{ handle := s.contexts.length, priority, order }]
    maxOrder := if s.maxOrder ≤ order then order + 1 else s.maxOrder }

def reconfig : Service :=
  if s.staticConfig then s
  else
    let s := { s with staticConfig := s.embedded }
    if s.runState ≠ .START ∧ s.runState ≠ .DOWN then s.emit .changeConfig else s

def startup : Service :=
  if s.runState ≠ .START then s
  else
    let s := { s with
      runState := .UP
      started := s.started ++ (List.range s.maxOrder).flatMap s.ofOrder }
    (s.emit .changeConfig).emit .started

def exit (reason : Int) : Service :=
  if s.runState = .START then { s with exits := s.exits ++ [reason] }
  else if s.runState = .DOWN then s
  else { s with runState := .DOWN, pumping := reason :: s.pumping }

/-- The rest of `exit`, once the pending events are processed. The loop over the orders
ends with `maxOrder` decremented below zero. -/
def finish : Option Service :=
  match s.pumping with
  | [] => none
  | reason :: outer =>
    let s := s.emit .aboutToFinish
    let s := { s with
      stopped := s.stopped ++ (List.range s.maxOrder).reverse.flatMap s.ofOrder
      maxOrder := unsignedMax
      pumping := outer }
    let s := s.emit .finished
    some { s with exits := s.exits ++ [reason] }

def event : ServerEvent → Service
  | .STARTUP => { s.startup with startups := s.startups + 1 }
  | .SHUTDOWN reason => s.exit reason
  | .RELOAD => s.reconfig
  | .SUSPEND =>
    if s.runState = .SUSPENDED then s
    else { s.emit .aboutToSuspend with runState := .SUSPENDED }
  | .RESUME =>
    if s.runState = .SUSPENDED then { s.emit .aboutToResume with runState := .UP } else s

def suspend : Service := s.postEvent .SUSPEND

def resume : Service := s.postEvent .RESUME

def shutdown (reason : Int) : Service :=
  if s.exitReason ≠ 0 then s else { s with exitReason := reason }.postEvent (.SHUTDOWN reason)

def reload : Service :=
  if s.runState ≠ .START ∧ s.runState ≠ .DOWN ∧ s.exitReason = 0 then s.postEvent .RELOAD
  else s.reconfig

inductive Action where
  /-- The constructor posts the one STARTUP. -/
  | construct
  | createThread (order : Nat) (priority : Int)
  | suspend
  | resume
  | shutdown (reason : Int)
  | reload
  /-- The event loop, or the innermost `exit`, handles the oldest event. -/
  | process
  /-- The innermost `exit` is done with the pending events. -/
  | finish
  deriving DecidableEq

def step (s : Service) : Action → Option Service
  | .construct => if s.constructed then none else some { s.postEvent .STARTUP with constructed := true }
  | .createThread order priority =>
    if order < unsignedMax then some (s.createThread order priority) else none
  | .suspend => some s.suspend
  | .resume => some s.resume
  | .shutdown reason => some (s.shutdown reason)
  | .reload => some s.reload
  | .process =>
    match s.queue with
    | [] => none
    | ev :: rest => some ({ s with queue := rest }.event ev)
  | .finish => s.finish

abbrev Run := Transition.Run step

/-- Grouped by keys that are all different, a list keeps the elements that have one of them. -/
theorem flatMap_filter_perm {A : Type} (key : A → Nat) (list : List A) (keys : List Nat)
    (distinct : keys.Nodup) : (keys.flatMap fun k => list.filter fun a => key a = k).Perm
      (list.filter fun a => decide (key a ∈ keys)) := by
  induction keys with
  | nil => simp
  | cons k rest ih =>
    obtain ⟨other,distinct⟩ := List.nodup_cons.mp distinct
    rw [List.flatMap_cons]
    have split := List.filter_append_perm (fun a => decide (key a = k))
      (list.filter fun a => decide (key a ∈ k :: rest))
    apply List.Perm.trans _ split
    rw [List.filter_filter,List.filter_filter]
    apply List.Perm.append
    · apply List.Perm.of_eq
      apply List.filter_congr
      intro a _
      simp
      tauto
    · apply (ih distinct).trans
      apply List.Perm.of_eq
      apply List.filter_congr
      intro a _
      simp only [List.mem_cons]
      by_cases here : key a = k
      · simp [here,other]
      · simp [here]

variable {s next : Service} {a : Action}

/-- Starting or stopping in groups leaves no thread out and takes none twice. -/
theorem ofOrder_perm (orders : List Nat) (distinct : orders.Nodup)
    (covered : ∀ ctx ∈ s.contexts, ctx.order ∈ orders) :
    (orders.flatMap s.ofOrder).Perm s.contexts := by
  apply (flatMap_filter_perm ManagedThread.order s.contexts orders distinct).trans
  apply List.Perm.of_eq
  rw [List.filter_eq_self]
  intro ctx member
  exact decide_eq_true (covered ctx member)

def Phase (s : Service) : Prop :=
  match s.runState with
  | .START => s.startups = 0 ∧ s.started = [] ∧ s.stopped = [] ∧ s.pumping = []
  | .UP | .SUSPENDED => s.started.Perm s.contexts ∧ s.stopped = [] ∧ s.pumping = []
  | .DOWN => s.started.Perm s.contexts ∧
      ((∃ reason, s.pumping = [reason] ∧ s.stopped = []) ∨ s.pumping = [] ∧ s.stopped.Perm s.contexts)

/-- Holds of every run in which no SUSPEND is handled out of turn. -/
structure Managed (s : Service) : Prop where
  handles : s.contexts.map ManagedThread.handle = List.range s.contexts.length
  ordered : ∀ ctx ∈ s.contexts, ctx.order < s.maxOrder
  small : s.maxOrder ≤ unsignedMax
  phase : s.Phase

theorem managed_start {embedded : Bool} : Managed { embedded } :=
  ⟨rfl,by simp,by simp [unsignedMax],⟨rfl,rfl,rfl,rfl⟩⟩

/-- A step that handles no event, and makes and stops no thread, changes nothing of the invariant. -/
theorem Managed.frame (managed : s.Managed) (runState : next.runState = s.runState)
    (contexts : next.contexts = s.contexts) (maxOrder : next.maxOrder = s.maxOrder)
    (pumping : next.pumping = s.pumping) (startups : next.startups = s.startups)
    (started : next.started = s.started) (stopped : next.stopped = s.stopped) : next.Managed := by
  obtain ⟨handles,ordered,small,phase⟩ := managed
  refine ⟨by rw [contexts,handles],by rw [contexts,maxOrder]; exact ordered,by rw [maxOrder]; exact small,?_⟩
  rw [Phase,runState,contexts,pumping,startups,started,stopped]
  exact phase

theorem createThread_managed (managed : s.Managed) (order : Nat) (priority : Int)
    (small : order < unsignedMax) : (s.createThread order priority).Managed := by
  rw [createThread]
  split
  · exact managed
  · rename_i start
    rw [not_not] at start
    obtain ⟨handles,ordered,bound,phase⟩ := managed
    refine ⟨?_,?_,?_,?_⟩
    · simp [handles,List.range_succ]
    · intro ctx member
      rcases List.mem_append.mp member with old | new
      · have := ordered ctx old
        dsimp only
        split <;> omega
      · rw [List.mem_singleton.mp new]
        dsimp only
        split <;> omega
    · dsimp only
      split <;> omega
    · simpa only [Phase,start] using phase

/-- The first STARTUP starts all threads, a later one finds the service started. -/
theorem startup_managed (managed : s.Managed) :
    ({ s.startup with startups := s.startups + 1 } : Service).Managed := by
  obtain ⟨handles,ordered,small,phase⟩ := managed
  rw [startup]
  split
  · rename_i running
    refine ⟨handles,ordered,small,?_⟩
    cases state : s.runState with
    | START => contradiction
    | UP => simpa only [Phase,state] using phase
    | SUSPENDED => simpa only [Phase,state] using phase
    | DOWN => simpa only [Phase,state] using phase
  · rename_i start
    rw [not_not] at start
    simp only [Phase,start] at phase
    obtain ⟨-,started,stopped,pumping⟩ := phase
    refine ⟨handles,ordered,small,?_,stopped,pumping⟩
    simp only [emit,started,List.nil_append]
    apply ofOrder_perm _ List.nodup_range
    intro ctx member
    exact List.mem_range.mpr (ordered ctx member)

theorem exit_managed (managed : s.Managed) (reason : Int) : (s.exit reason).Managed := by
  rw [exit]
  split
  · exact managed.frame rfl rfl rfl rfl rfl rfl rfl
  split
  · exact managed
  · rename_i starting down
    obtain ⟨handles,ordered,small,phase⟩ := managed
    have running : s.started.Perm s.contexts ∧ s.stopped = [] ∧ s.pumping = [] := by
      cases state : s.runState with
      | START => contradiction
      | DOWN => contradiction
      | UP => simpa only [Phase,state] using phase
      | SUSPENDED => simpa only [Phase,state] using phase
    obtain ⟨started,stopped,pumping⟩ := running
    exact ⟨handles,ordered,small,started,.inl ⟨reason,by rw [pumping],stopped⟩⟩

theorem finish_managed (managed : s.Managed) (done : s.finish = some next) : next.Managed := by
  obtain ⟨handles,ordered,small,phase⟩ := managed
  rw [finish] at done
  split at done
  · contradiction
  · rename_i reason outer pumping
    obtain rfl := Option.some.inj done
    have last : s.runState = .DOWN ∧ s.started.Perm s.contexts ∧ outer = [] ∧ s.stopped = [] := by
      cases state : s.runState <;> simp only [Phase,state,pumping] at phase
      case DOWN =>
        obtain ⟨started,⟨other,same,stopped⟩ | ⟨none,-⟩⟩ := phase
        · exact ⟨rfl,started,(List.cons.inj same).2,stopped⟩
        · contradiction
      all_goals simp at phase
    obtain ⟨down,started,rfl,stopped⟩ := last
    refine ⟨handles,?_,Nat.le_refl _,?_⟩
    · intro ctx member
      exact Nat.lt_of_lt_of_le (ordered ctx member) small
    · simp only [Phase,emit,down,stopped,List.nil_append]
      refine ⟨started,.inr ⟨trivial,?_⟩⟩
      apply ofOrder_perm _ (List.nodup_reverse.mpr List.nodup_range)
      intro ctx member
      exact List.mem_reverse.mpr (List.mem_range.mpr (ordered ctx member))

theorem reconfig_runState : s.reconfig.runState = s.runState := by
  rw [reconfig]
  split
  · rfl
  · dsimp only
    split <;> rfl

theorem reconfig_managed (managed : s.Managed) : s.reconfig.Managed := by
  rw [reconfig]
  split
  · exact managed
  · dsimp only
    split <;> exact managed.frame rfl rfl rfl rfl rfl rfl rfl

/-- A SUSPEND that is handled finds the service up, or suspended already. -/
def Timely (s : Service) : Action → Prop
  | .process => s.queue.head? = some .SUSPEND → s.runState = .UP ∨ s.runState = .SUSPENDED
  | _ => True

theorem event_managed (managed : s.Managed) (ev : ServerEvent)
    (timely : ev = .SUSPEND → s.runState = .UP ∨ s.runState = .SUSPENDED) : (s.event ev).Managed := by
  cases ev with
  | STARTUP => exact startup_managed managed
  | SHUTDOWN reason => exact exit_managed managed reason
  | RELOAD => exact reconfig_managed managed
  | SUSPEND =>
    rw [event]
    split
    · exact managed
    · rename_i other
      have up : s.runState = .UP := (timely rfl).resolve_right other
      obtain ⟨handles,ordered,small,phase⟩ := managed
      simp only [Phase,up] at phase
      exact ⟨handles,ordered,small,phase⟩
  | RESUME =>
    rw [event]
    split
    · rename_i suspended
      obtain ⟨handles,ordered,small,phase⟩ := managed
      simp only [Phase,suspended] at phase
      exact ⟨handles,ordered,small,phase⟩
    · exact managed

theorem step_managed (managed : s.Managed) (timely : s.Timely a) (moved : s.step a = some next) :
    next.Managed := by
  cases a with
  | construct =>
    simp only [step] at moved
    split at moved
    · contradiction
    · obtain rfl := Option.some.inj moved
      exact managed.frame rfl rfl rfl rfl rfl rfl rfl
  | createThread order priority =>
    simp only [step] at moved
    split at moved
    · rename_i small
      obtain rfl := Option.some.inj moved
      exact createThread_managed managed order priority small
    · contradiction
  | suspend =>
    obtain rfl := Option.some.inj moved
    exact managed.frame rfl rfl rfl rfl rfl rfl rfl
  | resume =>
    obtain rfl := Option.some.inj moved
    exact managed.frame rfl rfl rfl rfl rfl rfl rfl
  | shutdown reason =>
    obtain rfl := Option.some.inj moved
    rw [shutdown]
    split
    · exact managed
    · exact managed.frame rfl rfl rfl rfl rfl rfl rfl
  | reload =>
    obtain rfl := Option.some.inj moved
    rw [reload]
    split
    · exact managed.frame rfl rfl rfl rfl rfl rfl rfl
    · exact reconfig_managed managed
  | process =>
    simp only [step] at moved
    split at moved
    · contradiction
    · rename_i ev rest queued
      obtain rfl := Option.some.inj moved
      have waiting : ({ s with queue := rest } : Service).Managed :=
        managed.frame rfl rfl rfl rfl rfl rfl rfl
      apply event_managed waiting
      intro suspending
      exact timely (by rw [queued,suspending,List.head?_cons])
  | finish => exact finish_managed managed moved

theorem step_down (down : s.runState = .DOWN) (timely : s.Timely a) (moved : s.step a = some next) :
    next.runState = .DOWN := by
  cases a with
  | construct =>
    simp only [step] at moved
    split at moved
    · contradiction
    · obtain rfl := Option.some.inj moved
      exact down
  | createThread order priority =>
    simp only [step,createThread,down] at moved
    split at moved
    · obtain rfl := Option.some.inj moved
      exact down
    · contradiction
  | suspend | resume =>
    obtain rfl := Option.some.inj moved
    exact down
  | shutdown reason =>
    obtain rfl := Option.some.inj moved
    rw [shutdown]
    split <;> exact down
  | reload =>
    obtain rfl := Option.some.inj moved
    rw [reload]
    split
    · exact down
    · rw [reconfig_runState,down]
  | process =>
    simp only [step] at moved
    split at moved
    · contradiction
    · rename_i ev rest queued
      obtain rfl := Option.some.inj moved
      cases ev with
      | STARTUP => simp [event,startup,down]
      | SHUTDOWN reason => simp [event,exit,down]
      | RELOAD => exact reconfig_runState.trans down
      | SUSPEND =>
        have running := timely (by rw [queued,List.head?_cons])
        simp [down] at running
      | RESUME => simp [event,down]
  | finish =>
    simp only [step,finish] at moved
    split at moved
    · contradiction
    · obtain rfl := Option.some.inj moved
      exact down

structure Orderly (s : Service) : Prop where
  up : s.runState = .UP → s.started.Perm s.contexts
  processed : 0 < s.startups → s.started.Perm s.contexts
  started : (s.started.map ManagedThread.handle).Nodup
  stopped : (s.stopped.map ManagedThread.handle).Nodup

theorem Managed.orderly (managed : s.Managed) : s.Orderly := by
  obtain ⟨handles,-,-,phase⟩ := managed
  have distinct : (s.contexts.map ManagedThread.handle).Nodup := by
    rw [handles]
    exact List.nodup_range
  have once {list : List ManagedThread} (all : list.Perm s.contexts) :
      (list.map ManagedThread.handle).Nodup := (all.map _).nodup_iff.mpr distinct
  rw [Phase] at phase
  split at phase
  · rename_i start
    obtain ⟨none,started,stopped,-⟩ := phase
    refine ⟨fun up => ?_,fun processed => ?_,by simp [started],by simp [stopped]⟩
    · rw [start] at up
      contradiction
    · omega
  · obtain ⟨started,stopped,-⟩ := phase
    exact ⟨fun _ => started,fun _ => started,once started,by simp [stopped]⟩
  · obtain ⟨started,stopped,-⟩ := phase
    exact ⟨fun _ => started,fun _ => started,once started,by simp [stopped]⟩
  · obtain ⟨started,⟨_,-,stopped⟩ | ⟨-,stopped⟩⟩ := phase
    · exact ⟨fun _ => started,fun _ => started,once started,by simp [stopped]⟩
    · exact ⟨fun _ => started,fun _ => started,once started,once stopped⟩

/-- In every run in which each SUSPEND that is handled finds the service up, or suspended
already, the threads are started once and before the service is up, they are stopped at
most once, and a service that is down stays down. -/
theorem service_run {embedded : Bool} {trace} {final} (run : Service.Run { embedded } trace final)
    (timely : ∀ edge ∈ trace, edge.source.Timely edge.action) :
    ∀ edge ∈ trace, edge.target.Orderly ∧ (edge.source.runState = .DOWN → edge.target.runState = .DOWN) := by
  intro edge member
  have moved := run.edge_step edge member
  obtain ⟨before,front,reached⟩ := run.edge_reached edge member
  have managed : edge.source.Managed := reached.invariant_of Managed Timely
    (fun _ _ _ managed timely moved => step_managed managed timely moved) managed_start
    fun earlier member => timely earlier (front.subset member)
  exact ⟨(step_managed managed (timely edge member) moved).orderly,
    fun down => step_down down (timely edge member) moved⟩

instance (s : Service) : ∀ a, Decidable (s.Timely a)
  | .process => inferInstanceAs (Decidable (_ → _))
  | .construct | .createThread .. | .suspend | .resume | .shutdown _ | .reload | .finish => isTrue trivial

def cycle : List Action := [.createThread 0 7,.createThread 2 7,.construct,.process,.suspend,.process,
  .resume,.process,.shutdown 15,.process,.finish]

theorem service_run_cycle : ∃ trace final, Service.Run {} trace final ∧ final.stopped.length = 2 ∧
    ∀ edge ∈ trace, edge.target.Orderly ∧ (edge.source.runState = .DOWN → edge.target.runState = .DOWN) := by
  have done : (Transition.execute (Transition.guarded (fun s a => decide (Timely s a)) step) cycle {}).map
      (fun s => s.stopped.length) = some 2 := by decide
  obtain ⟨final,executed,stopped⟩ := Option.map_eq_some_iff.mp done
  obtain ⟨trace,run,-⟩ := Transition.execute_run _ _ _ executed
  obtain ⟨run,timely⟩ := run.of_guarded
  exact ⟨trace,final,run,stopped,service_run run fun edge member => of_decide_eq_true (timely edge member)⟩

/-- SIGUSR1 follows SIGTERM, before the service has processed the latter. -/
def terminated : List Action := [.construct,.process,.shutdown 15,.suspend,.process]

theorem suspension_leaves_down : ¬∀ (embedded : Bool) (trace) (final : Service),
    Service.Run { embedded } trace final → ∀ edge ∈ trace,
      edge.target.Orderly ∧ (edge.source.runState = .DOWN → edge.target.runState = .DOWN) := by
  intro orderly
  have down : (Transition.execute step terminated {}).map (fun s =>
      (s.runState,(s.step .process).map Service.runState)) = some (.DOWN,some .SUSPENDED) := by decide
  obtain ⟨s,executed,states⟩ := Option.map_eq_some_iff.mp down
  obtain ⟨here,there⟩ := Prod.mk.inj states
  obtain ⟨next,moved,suspended⟩ := Option.map_eq_some_iff.mp there
  obtain ⟨trace,run,-⟩ := Transition.execute_run _ _ _ executed
  have final := (orderly false _ next (.next run moved) ⟨s,.process,next⟩ (by simp)).2 here
  rw [suspended] at final
  contradiction

end Service

end SipWitch
