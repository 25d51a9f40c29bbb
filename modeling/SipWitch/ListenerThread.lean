import SipWitch.Mealy
import SipWitch.Listener
import SipWitch.Status

/-! The thread of a listener: the loop over the events of the stack, from the first
registration of the device to the request for its release, and what it does in which order. -/
namespace SipWitch

inductive SipEvent where
  /-- With the document of the response, if there is one. -/
  | registrationSuccess (body : Option UString)
  /-- Whether it is of this registration, the status of the response, and whether
  `get_authentication` finds a challenge. -/
  | registrationFailure (own : Bool) (status : Option Nat) (challenged : Bool)
  | requestFailure (status : Option Nat) (message : Bool)
  /-- A message as `receiveMessage` takes it, or another request. -/
  | messageNew (received : Option (Except Nat TextArguments))
  | other

inductive ListenerOutput where
  | starting
  | register
  | authenticate
  | feed (signal : FeedSignal)
  | authorize
  | changeStatus (bitmap : List UInt8) (first last : Int)
  | failure (code : Nat)
  | messageResult (code : Nat)
  | statusResult (code : Nat)
  | receiveText (args : TextArguments)
  | answer (code : Nat)
  /-- The release is asked for. The stack builds none while the last REGISTER is unanswered. -/
  | deregister (built : Bool)
  | finished

inductive Phase where
  | created | running | draining | done | deleted
  deriving DecidableEq

structure ListenerThread where
  phase : Phase := .created
  active : Bool := true
  connected : Bool := false
  registered : Bool := false
  authenticated : Bool := false
  /-- There is a registration id. -/
  rid : Bool := false
  /-- The timer of the constructor has not fired. -/
  timer : Bool := true
  exiting : Bool := false
  feed : Feed := {}

namespace ListenerThread

inductive Action where
  | start
  /-- `eXosip_event_wait` returns, with nothing after its time; and whether the stack builds
  the REGISTER that the thread asks for next, if it does. -/
  | wait (event : Option SipEvent) (built : Bool)
  | drain (event : Option SipEvent)
  | timeout
  | stop (shutdown : Bool)
  | delete

variable (t : ListenerThread)

def unreachable : Nat := 666

/-- The loop's `switch`. -/
def process : SipEvent → ListenerThread × List ListenerOutput
  | .registrationSuccess none => ({ t with active := false },[])
  | .registrationSuccess (some body) =>
    let (parsed,bitmap) := t.feed.registered body
    ({ t with registered := true, feed := parsed.feed },
      parsed.signals.map .feed ++ [.authorize] ++
        (bitmap.map fun status => .changeStatus status.1 status.2.1 status.2.2).toList)
  | .registrationFailure own status challenged =>
    if own = false then (t,[])
    else if status ≠ some Sip.unauthorized then
      ({ t with active := false },[.failure (status.getD unreachable)])
    else if challenged && !t.authenticated then ({ t with authenticated := true },[.authenticate])
    else ({ t with active := false },[.failure Sip.forbidden])
  | .requestFailure status message =>
    (t,[if message then .messageResult (status.getD unreachable)
      else .statusResult (status.getD unreachable)])
  | .messageNew none => (t,[.answer Sip.methodNotAllowed])
  | .messageNew (some (.ok args)) => (t,[.receiveText args,.answer Sip.ok])
  | .messageNew (some (.error code)) => (t,[.answer code])
  | .other => (t,[])

/-- Behind the loop, the device gives up the registration that it has, if it can. -/
def leave (built : Bool) : ListenerThread × List ListenerOutput :=
  ({ t with phase := .draining },if t.registered then [.deregister built] else [])

def finish : ListenerThread × List ListenerOutput :=
  ({ t with phase := .done },if t.exiting then [] else [.finished])

def drain : Option SipEvent → ListenerThread × List ListenerOutput
  | none => t.finish
  | some event =>
    if t.registered = false then t.finish
    else
      match event with
      | .registrationSuccess _ | .registrationFailure .. => ({ t with registered := false },[])
      | _ => (t,[])

def step (t : ListenerThread) : Action → Option (ListenerThread × List ListenerOutput)
  | .start => if t.phase = .created then some ({ t with phase := .running },[.starting]) else none
  | .wait event built =>
    if t.phase ≠ .running then none
    else if t.active = false then some (t.leave built)
    else
      match event with
      | none =>
        if t.rid then some (t,[])
        else if built then some ({ t with rid := true },[.register])
        else some ({ t with active := false },[])
      | some event => some ({ t with connected := true }.process event)
  | .drain event => if t.phase = .draining then some (t.drain event) else none
  | .timeout =>
    if t.timer = false ∨ t.phase = .deleted then none
    else if t.connected then some ({ t with timer := false },[])
    else some ({ t with timer := false, active := false },[.failure unreachable])
  | .stop shutdown => some ({ t with active := false, exiting := shutdown },[])
  | .delete => if t.phase = .done then some ({ t with phase := .deleted },[]) else none

end ListenerThread

/-- What a listener has done so far, as the desktop may rely on it. -/
structure Conduct where
  started : Bool := false
  requested : Bool := false
  authenticated : Bool := false
  registered : Bool := false
  failed : Bool := false
  released : Bool := false
  finished : Bool := false
  deriving DecidableEq

namespace Conduct

variable (c : Conduct)

/-- It has started, and neither failed nor begun to end. -/
def live : Bool := c.started && !c.failed && !c.released && !c.finished

/-- The order in which a listener does things: it registers once, answers one challenge at
most, tells of the others' status only when it is authorized, asks for one release at the end
of a session, and fails once at most, if need be when it has finished, as the timer is not
stopped. -/
def next : ListenerOutput → Option Conduct
  | .starting => if c.started then none else some { c with started := true }
  | .register => if c.live && !c.requested then some { c with requested := true } else none
  | .authenticate =>
    if c.live && !c.authenticated then some { c with authenticated := true } else none
  | .authorize => if c.live then some { c with registered := true } else none
  | .changeStatus .. => if c.live && c.registered then some c else none
  | .failure _ => if c.failed then none else some { c with failed := true }
  | .deregister _ =>
    if c.started && c.registered && !c.released && !c.finished then some { c with released := true } else none
  | .finished =>
    if c.started && !c.finished && c.released = c.registered then some { c with finished := true } else none
  | .feed _ | .messageResult _ | .statusResult _ | .receiveText _ | .answer _ =>
    if c.live then some c else none

end Conduct

namespace ListenerOutput

def isAuthenticate : ListenerOutput → Bool
  | .authenticate => true
  | _ => false

def isAuthorize : ListenerOutput → Bool
  | .authorize => true
  | _ => false

def isFailure : ListenerOutput → Bool
  | .failure _ => true
  | _ => false

def isRelease : ListenerOutput → Bool
  | .deregister _ => true
  | _ => false

end ListenerOutput

/-- An output that is let pass moves the conduct by what it is. -/
theorem Conduct.next_credits {c c' : Conduct} {o : ListenerOutput} (passed : c.next o = some c') :
    c'.authenticated.toNat = c.authenticated.toNat + (if o.isAuthenticate then 1 else 0) ∧
    c'.failed.toNat = c.failed.toNat + (if o.isFailure then 1 else 0) ∧
    c'.released.toNat = c.released.toNat + (if o.isRelease then 1 else 0) ∧
    c'.registered = (c.registered || o.isAuthorize) := by
  cases o <;> simp only [Conduct.next] at passed <;> split at passed <;> cases passed <;>
    simp_all [ListenerOutput.isAuthenticate,ListenerOutput.isAuthorize,ListenerOutput.isFailure,
      ListenerOutput.isRelease]

/-- Who has finished does nothing more than to fail. -/
theorem Conduct.next_finished {c c' : Conduct} {o : ListenerOutput}
    (ended : c.started = true ∧ c.finished = true) (passed : c.next o = some c') :
    o.isFailure = true ∧ c'.started = true ∧ c'.finished = true := by
  cases o with
  | failure code =>
    simp only [Conduct.next] at passed
    split at passed
    · contradiction
    · obtain rfl := Option.some.inj passed
      exact ⟨rfl,ended⟩
  | _ => simp [Conduct.next,Conduct.live,ended] at passed

namespace ListenerThread

open Mealy

variable {t next : ListenerThread} {c : Conduct} {a : Action} {out log : List ListenerOutput}

structure Matches (t : ListenerThread) (c : Conduct) : Prop where
  started : c.started = decide (t.phase ≠ .created)
  requested : c.requested = t.rid
  authenticated : c.authenticated = t.authenticated
  failed : c.failed = true → t.active = false ∧ (t.timer = false ∨ t.connected = true)
  running : t.phase = .created ∨ t.phase = .running →
    c.registered = t.registered ∧ c.released = false ∧ c.finished = false
  draining : t.phase = .draining → c.released = c.registered ∧ c.finished = false
  ended : t.phase = .done ∨ t.phase = .deleted → c.released = c.registered

theorem Matches.live (matches' : Matches t c) (running : t.phase = .running) (active : t.active = true) :
    c.live = true := by
  obtain ⟨-,released,finished⟩ := matches'.running (.inr running)
  have started : c.started = true := by simp [matches'.started,running]
  have failed : c.failed = false := by
    by_contra failed
    simp [(matches'.failed (by simpa using failed)).1] at active
  simp [Conduct.live,started,failed,released,finished]

theorem Matches.inactive (matches' : Matches t c) : Matches { t with active := false } c where
  started := matches'.started
  requested := matches'.requested
  authenticated := matches'.authenticated
  failed failed := ⟨rfl,(matches'.failed failed).2⟩
  running := matches'.running
  draining := matches'.draining
  ended := matches'.ended

/-- A failure ends the loop, and no timer is to come. -/
theorem Matches.fail (matches' : Matches t c) (silent : t.timer = false ∨ t.connected = true) :
    Matches { t with active := false } { c with failed := true } where
  started := matches'.started
  requested := matches'.requested
  authenticated := matches'.authenticated
  failed _ := ⟨rfl,silent⟩
  running := matches'.running
  draining := matches'.draining
  ended := matches'.ended

theorem process_conforms (matches' : Matches t c) (running : t.phase = .running) (active : t.active = true)
    (connected : t.connected = true) (event : SipEvent) :
    ∃ c', accept Conduct.next c (t.process event).2 = some c' ∧ Matches (t.process event).1 c' := by
  have live := matches'.live running active
  have sound : c.failed = false := by
    by_contra failed
    simp [(matches'.failed (by simpa using failed)).1] at active
  obtain ⟨registered,released,finished⟩ := matches'.running (.inr running)
  cases event with
  | registrationSuccess body =>
    cases body with
    | none => exact ⟨c,rfl,matches'.inactive⟩
    | some body =>
      refine ⟨{ c with registered := true },?_,?_⟩
      · have after : Conduct.live { c with registered := true } = true := live
        have told : accept Conduct.next c ((t.feed.registered body).1.signals.map .feed) = some c := by
          refine accept_stays fun o member => ?_
          obtain ⟨signal,-,rfl⟩ := List.mem_map.mp member
          simp [Conduct.next,live]
        simp only [process,List.append_assoc,accept_append,told,Option.bind_some,
          List.singleton_append,accept_cons,Conduct.next,live,if_true]
        cases (t.feed.registered body).2 <;> simp [Conduct.next,after]
      · exact ⟨matches'.started,matches'.requested,matches'.authenticated,matches'.failed,
          fun _ => ⟨rfl,released,finished⟩,fun draining => absurd draining (by simp [process,running]),
          fun ended => absurd ended (by simp [process,running])⟩
  | registrationFailure own status challenged =>
    have failing (code : Nat) : accept Conduct.next c [.failure code] = some { c with failed := true } := by
      simp [Conduct.next,sound]
    simp only [process]
    split
    · exact ⟨c,rfl,matches'⟩
    split
    · exact ⟨_,failing _,matches'.fail (.inr connected)⟩
    split
    · rename_i challenge
      have first : c.authenticated = false := by
        rw [matches'.authenticated]
        simpa using (Bool.and_eq_true_iff.mp challenge).2
      refine ⟨{ c with authenticated := true },by simp [Conduct.next,live,first],?_⟩
      exact ⟨matches'.started,matches'.requested,rfl,matches'.failed,matches'.running,matches'.draining,
        matches'.ended⟩
    · exact ⟨_,failing _,matches'.fail (.inr connected)⟩
  | requestFailure status message =>
    refine ⟨c,accept_stays ?_,matches'⟩
    cases message <;> simp [process,Conduct.next,live]
  | messageNew received =>
    refine ⟨c,accept_stays ?_,?_⟩
    · rcases received with _ | _ | args <;> simp [process,Conduct.next,live]
    · rcases received with _ | _ | args <;> exact matches'
  | other => exact ⟨c,rfl,matches'⟩

theorem leave_conforms (matches' : Matches t c) (running : t.phase = .running) (built : Bool) :
    ∃ c', accept Conduct.next c (t.leave built).2 = some c' ∧ Matches (t.leave built).1 c' := by
  obtain ⟨registered,released,finished⟩ := matches'.running (.inr running)
  have started : c.started = true := by simp [matches'.started,running]
  cases here : t.registered with
  | true =>
    refine ⟨{ c with released := true },?_,?_⟩
    · simp [leave,here,Conduct.next,started,registered,released,finished]
    · exact ⟨by simp [leave,started],matches'.requested,matches'.authenticated,matches'.failed,
        by simp [leave],fun _ => ⟨(registered.trans here).symm,finished⟩,by simp [leave]⟩
  | false =>
    refine ⟨c,by simp [leave,here],?_⟩
    exact ⟨by simp [leave,started],matches'.requested,matches'.authenticated,matches'.failed,
      by simp [leave],fun _ => ⟨released.trans (registered.trans here).symm,finished⟩,by simp [leave]⟩

theorem finish_conforms (matches' : Matches t c) (draining : t.phase = .draining) :
    ∃ c', accept Conduct.next c t.finish.2 = some c' ∧ Matches t.finish.1 c' := by
  obtain ⟨released,finished⟩ := matches'.draining draining
  have started : c.started = true := by simp [matches'.started,draining]
  have ended (finished : Bool) : Matches t.finish.1 { c with finished } :=
    ⟨by simp [finish,started],matches'.requested,matches'.authenticated,matches'.failed,
      by simp [finish],by simp [finish],fun _ => released⟩
  cases exiting : t.exiting with
  | true => exact ⟨c,by simp [finish,exiting],ended c.finished⟩
  | false =>
    exact ⟨{ c with finished := true },by simp [finish,exiting,Conduct.next,started,finished,released],
      ended true⟩

theorem step_conforms (matches' : Matches t c) (moved : t.step a = some (next,out)) :
    ∃ c', accept Conduct.next c out = some c' ∧ Matches next c' := by
  cases a with
  | start =>
    simp only [step] at moved
    split at moved
    · rename_i created
      obtain ⟨rfl,rfl⟩ := Prod.mk.inj (Option.some.inj moved)
      have fresh : c.started = false := by simp [matches'.started,created]
      refine ⟨{ c with started := true },by simp [Conduct.next,fresh],?_⟩
      exact ⟨by simp,matches'.requested,matches'.authenticated,matches'.failed,
        fun _ => matches'.running (.inl created),by simp,by simp⟩
    · contradiction
  | wait event built =>
    simp only [step] at moved
    split at moved
    · contradiction
    rename_i phase
    have running : t.phase = .running := by simpa using phase
    split at moved
    · obtain ⟨rfl,rfl⟩ := Prod.mk.inj (Option.some.inj moved)
      exact leave_conforms matches' running built
    rename_i active
    have live := matches'.live running (by simpa using active)
    split at moved
    · split at moved
      · obtain ⟨rfl,rfl⟩ := Prod.mk.inj (Option.some.inj moved)
        exact ⟨c,rfl,matches'⟩
      split at moved
      · rename_i first _
        obtain ⟨rfl,rfl⟩ := Prod.mk.inj (Option.some.inj moved)
        have fresh : c.requested = false := by simp [matches'.requested,first]
        refine ⟨{ c with requested := true },by simp [Conduct.next,live,fresh],?_⟩
        exact ⟨matches'.started,rfl,matches'.authenticated,matches'.failed,matches'.running,
          matches'.draining,matches'.ended⟩
      · obtain ⟨rfl,rfl⟩ := Prod.mk.inj (Option.some.inj moved)
        exact ⟨c,rfl,matches'.inactive⟩
    · rename_i event
      obtain ⟨rfl,rfl⟩ := Prod.mk.inj (Option.some.inj moved)
      have heard : Matches { t with connected := true } c := ⟨matches'.started,matches'.requested,
        matches'.authenticated,fun failed => ⟨(matches'.failed failed).1,.inr rfl⟩,matches'.running,
        matches'.draining,matches'.ended⟩
      exact process_conforms heard running (by simpa using active) rfl event
  | drain event =>
    simp only [step] at moved
    split at moved
    · rename_i draining
      obtain ⟨rfl,rfl⟩ := Prod.mk.inj (Option.some.inj moved)
      cases event with
      | none => exact finish_conforms matches' draining
      | some event =>
        dsimp only
        split
        · exact finish_conforms matches' draining
        · have released : Matches { t with registered := false } c := ⟨matches'.started,matches'.requested,
            matches'.authenticated,matches'.failed,fun early => absurd early (by simp [draining]),
            matches'.draining,matches'.ended⟩
          split
          · exact ⟨c,rfl,released⟩
          · exact ⟨c,rfl,released⟩
          · exact ⟨c,rfl,matches'⟩
    · contradiction
  | timeout =>
    simp only [step] at moved
    split at moved
    · contradiction
    rename_i armed
    obtain ⟨timer,-⟩ := not_or.mp armed
    have fired : Matches { t with timer := false } c := ⟨matches'.started,matches'.requested,
      matches'.authenticated,fun failed => ⟨(matches'.failed failed).1,.inl rfl⟩,matches'.running,
      matches'.draining,matches'.ended⟩
    split at moved
    · obtain ⟨rfl,rfl⟩ := Prod.mk.inj (Option.some.inj moved)
      exact ⟨c,rfl,fired⟩
    · rename_i silent
      obtain ⟨rfl,rfl⟩ := Prod.mk.inj (Option.some.inj moved)
      have sound : c.failed = false := by
        by_contra failed
        exact (matches'.failed (by simpa using failed)).2.elim timer silent
      exact ⟨{ c with failed := true },by simp [Conduct.next,sound],fired.fail (.inl rfl)⟩
  | stop shutdown =>
    obtain ⟨rfl,rfl⟩ := Prod.mk.inj (Option.some.inj moved)
    have stopped := matches'.inactive
    exact ⟨c,rfl,stopped.started,stopped.requested,stopped.authenticated,stopped.failed,stopped.running,
      stopped.draining,stopped.ended⟩
  | delete =>
    simp only [step] at moved
    split at moved
    · rename_i done
      obtain ⟨rfl,rfl⟩ := Prod.mk.inj (Option.some.inj moved)
      have started : c.started = true := by simp [matches'.started,done]
      exact ⟨c,rfl,by simp [started],matches'.requested,matches'.authenticated,matches'.failed,by simp,
        by simp,fun _ => matches'.ended (.inl done)⟩
    · contradiction

theorem conforms (feed : Feed) (run : Run step { feed } log final) :
    ∃ c, accept Conduct.next {} log = some c ∧ Matches final c :=
  run.conforms Matches (fun _ _ _ _ _ matches' moved => step_conforms matches' moved)
    ⟨rfl,rfl,rfl,by simp,fun _ => ⟨rfl,rfl,rfl⟩,by simp,by simp⟩

theorem finished_failures {after : List ListenerOutput} (ended : c.started = true ∧ c.finished = true)
    (passed : accept Conduct.next c after = some c') : ∀ o ∈ after, o.isFailure = true := by
  induction after generalizing c with
  | nil => exact fun _ none => absurd none List.not_mem_nil
  | cons o rest ih =>
    obtain ⟨last,moved,passed⟩ := Option.bind_eq_some_iff.mp passed
    obtain ⟨failure,ended⟩ := Conduct.next_finished ended moved
    exact List.forall_mem_cons.mpr ⟨failure,ih ended passed⟩

/-- Behind the end of the thread comes nothing but a failure. -/
theorem finished_last {before after : List ListenerOutput}
    (passed : accept Conduct.next c (before ++ .finished :: after) = some c') :
    ∀ o ∈ after, o.isFailure = true := by
  rw [accept_append] at passed
  obtain ⟨middle,-,passed⟩ := Option.bind_eq_some_iff.mp passed
  obtain ⟨ended,finished,passed⟩ := Option.bind_eq_some_iff.mp passed
  simp only [Conduct.next] at finished
  split at finished
  · rename_i ready
    obtain rfl := Option.some.inj finished
    simp only [Bool.and_eq_true] at ready
    refine finished_failures ?_ passed
    exact ⟨ready.1.1,rfl⟩
  · contradiction

/-- Whatever the stack reports, whenever the desktop stops it or its timer fires, a listener
keeps to its conduct: it answers one challenge and fails at most once, only a failure can follow
its end, and when its thread is done it has asked once for the release of its registration if it
was authorized, and never otherwise. -/
theorem conduct_kept (feed : Feed) (run : Run step { feed } log final) :
    (∃ c, accept Conduct.next {} log = some c) ∧ log.countP ListenerOutput.isAuthenticate ≤ 1 ∧
      log.countP ListenerOutput.isFailure ≤ 1 ∧
      (∀ before after, log = before ++ .finished :: after → ∀ o ∈ after, o.isFailure = true) ∧
      (final.phase = .done ∨ final.phase = .deleted →
        log.countP ListenerOutput.isRelease = (log.any ListenerOutput.isAuthorize).toNat) := by
  obtain ⟨c,passed,matched⟩ := conforms feed run
  have authenticated := accept_balance (fun c => c.authenticated.toNat) ListenerOutput.isAuthenticate
    (fun _ _ _ moved => (Conduct.next_credits moved).1) passed
  have failed := accept_balance (fun c => c.failed.toNat) ListenerOutput.isFailure
    (fun _ _ _ moved => (Conduct.next_credits moved).2.1) passed
  have released := accept_balance (fun c => c.released.toNat) ListenerOutput.isRelease
    (fun _ _ _ moved => (Conduct.next_credits moved).2.2.1) passed
  have registered := accept_flag Conduct.registered ListenerOutput.isAuthorize
    (fun _ _ _ moved => (Conduct.next_credits moved).2.2.2) passed
  refine ⟨⟨c,passed⟩,?_,?_,fun before after same => finished_last (same ▸ passed),fun ended => ?_⟩
  · have := Bool.toNat_le c.authenticated
    simpa [authenticated] using this
  · have := Bool.toNat_le c.failed
    simpa [failed] using this
  · rw [matched.ended ended,registered] at released
    simpa using released.symm

/-- The device is challenged, authorized and stopped. -/
theorem conduct_kept_session : ∃ log final, Run step {} log final ∧ final.phase = .done ∧
    log.length = 6 ∧ log.countP ListenerOutput.isRelease = 1 := by
  have begun : Run step ({} : ListenerThread) [] {} := .start
  have challenged := ((begun.next (a := .start) rfl).next (a := .wait none true) rfl).next
    (a := .wait (some (.registrationFailure true (some 401) true)) true) rfl
  have stopped := (challenged.next (a := .wait (some (.registrationSuccess (some []))) true) rfl).next
    (a := .stop false) rfl
  have run := ((stopped.next (a := .wait none true) rfl).next
    (a := .drain (some (.registrationSuccess none))) rfl).next (a := .drain none) rfl
  exact ⟨_,_,run,rfl,rfl,((conduct_kept {} run).2.2.2.2 (.inl rfl)).trans rfl⟩

end ListenerThread

end SipWitch
