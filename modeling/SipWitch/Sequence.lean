import SipWitch.Transition
import Mathlib.Logic.Function.Basic
import Mathlib.Tactic.NormNum

/-! The sequence numbers of events. Every context constructs its events on a thread of
its own; the counter they share is stepped atomically, the clock is read afterwards. -/
namespace SipWitch.Sequence

open Transition

/-- The number that an event under construction has taken. `place` is how many were
taken before it; the program keeps no such thing. -/
structure Drawn where
  next : Nat
  place : Nat
  deriving DecidableEq

/-- What an event keeps of its construction, the time in milliseconds. An event that
holds no message (a timeout) has taken no number. -/
structure Stamped where
  timestamp : Int
  sequenceOrder : Nat
  place : Option Nat
  deriving DecidableEq

structure State where
  atomicSequence : UInt32 := 0
  taken : Nat := 0
  constructing : Nat → Option Drawn := fun _ => none
  events : List Stamped := []

/-- `fetch` and `construct` are the two halves of `Event::Event` for a message. -/
inductive Action where
  | fetch (context : Nat)
  | construct (context : Nat) (now : Int)
  | timeout (now : Int)

def State.fetch (s : State) (context : Nat) : State :=
  { s with
    atomicSequence := s.atomicSequence + 1
    taken := s.taken + 1
    constructing := Function.update s.constructing context
      (some ⟨(s.atomicSequence % 10000).toNat,s.taken⟩) }

def State.construct (s : State) (context : Nat) (now : Int) (d : Drawn) : State :=
  { s with
    constructing := Function.update s.constructing context none
    events := s.events ++ [⟨now,d.next,some d.place⟩] }

def State.timeout (s : State) (now : Int) : State :=
  { s with events := s.events ++ [⟨now,0,none⟩] }

def step (s : State) : Action → Option State
  | .fetch context => if s.constructing context = none then some (s.fetch context) else none
  | .construct context now => (s.constructing context).map (s.construct context now)
  | .timeout now => some (s.timeout now)

namespace Stamped

/-- Division of a positive time; `/` truncates in the source. -/
def second (e : Stamped) : Int := e.timestamp.tdiv 1000

def key (e : Stamped) : Int × Nat := (e.second,e.sequenceOrder)

def byDate (sid : Nat) (e : Stamped) : Nat × Int × Nat := (sid,e.second,e.sequenceOrder)

def timestampKey (e : Stamped) : Int :=
  e.timestamp.tdiv 1000 * 10000 + (e.sequenceOrder % 10000 : Nat)

def Near (a b : Stamped) : Prop :=
  ∀ i ∈ a.place, ∀ j ∈ b.place, i ≤ j + 10000 ∧ j ≤ i + 10000

/-- Neither 10000 numbers apart in one round of the counter, nor 7296 across its wrap.
A timeout has the number 0, which every 10000th message of a round has as well. -/
def Apart (a b : Stamped) : Prop :=
  match a.place, b.place with
  | some i, some j =>
    if i / 2 ^ 32 = j / 2 ^ 32 then i ≠ j + 10000 ∧ j ≠ i + 10000
    else i ≠ j + 7296 ∧ j ≠ i + 7296
  | some i, none => ¬10000 ∣ i % 2 ^ 32
  | none, some j => ¬10000 ∣ j % 2 ^ 32
  | none, none => False

end Stamped

def sequenceAt (place : Nat) : Nat := place % 2 ^ 32 % 10000

structure Sound (s : State) : Prop where
  counter : s.atomicSequence.toNat = s.taken % 2 ^ 32
  drawn : ∀ context, ∀ d ∈ s.constructing context,
    d.place < s.taken ∧ d.next = sequenceAt d.place
  apart : ∀ c c', ∀ d ∈ s.constructing c, ∀ d' ∈ s.constructing c', d.place = d'.place → c = c'
  taken : ∀ e ∈ s.events, ∀ i ∈ e.place, i < s.taken ∧ e.sequenceOrder = sequenceAt i
  timeouts : ∀ e ∈ s.events, e.place = none → e.sequenceOrder = 0
  fresh : ∀ context, ∀ d ∈ s.constructing context, ∀ e ∈ s.events, d.place ∉ e.place
  distinct : s.events.Pairwise fun a b => ∀ i ∈ a.place, i ∉ b.place

theorem sound_initial : Sound {} := by
  constructor <;> simp

theorem constructing_fetch {s : State} {d : Drawn}
    (h : d ∈ (s.fetch context).constructing c) :
    c = context ∧ d = ⟨(s.atomicSequence % 10000).toNat,s.taken⟩ ∨ d ∈ s.constructing c := by
  by_cases same : c = context
  · subst same
    left
    simpa [State.fetch,eq_comm] using h
  · right
    simpa [State.fetch,Function.update_of_ne same] using h

theorem constructing_construct {s : State} {d : Drawn}
    (h : d ∈ (s.construct context now d₀).constructing c) :
    c ≠ context ∧ d ∈ s.constructing c := by
  by_cases same : c = context
  · subst same
    simp [State.construct] at h
  · exact ⟨same,by simpa [State.construct,Function.update_of_ne same] using h⟩

theorem Sound.fetch (sound : Sound s) (context : Nat) : Sound (s.fetch context) where
  counter := by
    have := sound.counter
    simp only [State.fetch, UInt32.toNat_add, UInt32.reduceToNat]
    omega
  drawn c d h := by
    rcases constructing_fetch h with ⟨_,rfl⟩ | before
    · refine ⟨Nat.lt_succ_self _,?_⟩
      simpa [sequenceAt] using congrArg (· % 10000) sound.counter
    · have := sound.drawn c d before
      exact ⟨Nat.lt_succ_of_lt this.1,this.2⟩
  apart c c' d h d' h' same := by
    rcases constructing_fetch h with ⟨rfl,rfl⟩ | before <;>
      rcases constructing_fetch h' with ⟨rfl,rfl⟩ | before'
    · rfl
    · have := (sound.drawn _ _ before').1
      simp only at same
      omega
    · have := (sound.drawn _ _ before).1
      simp only at same
      omega
    · exact sound.apart c c' d before d' before' same
  taken e h i hi := by
    have := sound.taken e h i hi
    exact ⟨Nat.lt_succ_of_lt this.1,this.2⟩
  timeouts := sound.timeouts
  fresh c d h e he := by
    rcases constructing_fetch h with ⟨_,rfl⟩ | before
    · intro present
      exact Nat.lt_irrefl _ (sound.taken e he _ present).1
    · exact sound.fresh c d before e he
  distinct := sound.distinct

theorem Sound.construct (sound : Sound s) (h₀ : d₀ ∈ s.constructing context) (now : Int) :
    Sound (s.construct context now d₀) where
  counter := sound.counter
  drawn c d h := sound.drawn c d (constructing_construct h).2
  apart c c' d h d' h' same :=
    sound.apart c c' d (constructing_construct h).2 d' (constructing_construct h').2 same
  taken e h i hi := by
    rcases List.mem_append.mp h with before | last
    · exact sound.taken e before i hi
    · obtain rfl := List.mem_singleton.mp last
      obtain rfl : d₀.place = i := by simpa using hi
      exact sound.drawn context d₀ h₀
  timeouts e h none := by
    rcases List.mem_append.mp h with before | last
    · exact sound.timeouts e before none
    · obtain rfl := List.mem_singleton.mp last
      simp at none
  fresh c d h e he := by
    have ⟨other,before⟩ := constructing_construct h
    rcases List.mem_append.mp he with earlier | last
    · exact sound.fresh c d before e earlier
    · obtain rfl := List.mem_singleton.mp last
      intro same
      exact other (sound.apart c context d before d₀ h₀ (by simpa using same.symm))
  distinct := by
    refine List.pairwise_append.mpr ⟨sound.distinct,List.pairwise_singleton _ _,?_⟩
    intro a ha b hb i hi
    obtain rfl := List.mem_singleton.mp hb
    rintro same
    obtain rfl : d₀.place = i := by simpa using same
    exact sound.fresh context d₀ h₀ a ha hi

theorem Sound.timeout (sound : Sound s) (now : Int) : Sound (s.timeout now) where
  counter := sound.counter
  drawn := sound.drawn
  apart := sound.apart
  taken e h i hi := by
    rcases List.mem_append.mp h with before | last
    · exact sound.taken e before i hi
    · obtain rfl := List.mem_singleton.mp last
      simp at hi
  timeouts e h none := by
    rcases List.mem_append.mp h with before | last
    · exact sound.timeouts e before none
    · obtain rfl := List.mem_singleton.mp last
      rfl
  fresh c d h e he := by
    rcases List.mem_append.mp he with earlier | last
    · exact sound.fresh c d h e earlier
    · obtain rfl := List.mem_singleton.mp last
      simp
  distinct := by
    refine List.pairwise_append.mpr ⟨sound.distinct,List.pairwise_singleton _ _,?_⟩
    intro a _ b hb i _
    obtain rfl := List.mem_singleton.mp hb
    simp

theorem Sound.step (sound : Sound s) (stepped : step s a = some next) : Sound next := by
  cases a with
  | fetch context =>
    simp only [Sequence.step] at stepped
    split at stepped
    · obtain rfl := Option.some.inj stepped
      exact sound.fetch context
    · simp at stepped
  | construct context now =>
    obtain ⟨d,held,rfl⟩ := Option.map_eq_some_iff.mp stepped
    exact sound.construct held now
  | timeout now =>
    obtain rfl := Option.some.inj stepped
    exact sound.timeout now

theorem sound_run (run : Run step {} trace s) : Sound s :=
  run.invariant Sound (fun _ _ _ sound stepped => sound.step stepped) sound_initial

theorem Sound.sequenceOrder_lt (sound : Sound s) (h : e ∈ s.events) : e.sequenceOrder < 10000 := by
  cases place : e.place with
  | none => simp [sound.timeouts e h place]
  | some i =>
    rw [(sound.taken e h i place).2]
    exact Nat.mod_lt _ (by simp)

/-- 2 ^ 32 is 7296 more than a multiple of 10000. -/
theorem sequenceAt_eq (different : i ≠ j) (near : i ≤ j + 10000 ∧ j ≤ i + 10000) :
    sequenceAt i = sequenceAt j ↔
      ¬if i / 2 ^ 32 = j / 2 ^ 32 then i ≠ j + 10000 ∧ j ≠ i + 10000
        else i ≠ j + 7296 ∧ j ≠ i + 7296 := by
  unfold sequenceAt
  split
  · omega
  · have wrap : i / 2 ^ 32 = j / 2 ^ 32 + 1 ∨ j / 2 ^ 32 = i / 2 ^ 32 + 1 := by omega
    rcases wrap with h | h <;> omega

theorem Sound.sequenceOrder_eq (sound : Sound s) (ha : a ∈ s.events) (hb : b ∈ s.events)
    (different : ∀ i ∈ a.place, i ∉ b.place) (near : a.Near b) :
    a.sequenceOrder = b.sequenceOrder ↔ ¬a.Apart b := by
  unfold Stamped.Apart
  cases pa : a.place with
  | none =>
    rw [sound.timeouts a ha pa]
    cases pb : b.place with
    | none => simp [sound.timeouts b hb pb]
    | some j =>
      rw [(sound.taken b hb j pb).2]
      simp only [sequenceAt]
      omega
  | some i =>
    rw [(sound.taken a ha i pa).2]
    cases pb : b.place with
    | none =>
      rw [sound.timeouts b hb pb]
      simp only [sequenceAt]
      omega
    | some j =>
      rw [(sound.taken b hb j pb).2]
      refine sequenceAt_eq ?_ (near i pa j pb)
      rintro rfl
      exact different i pa pb

theorem Sound.different {a b : Stamped} {m n : Nat} (sound : Sound s)
    (ha : s.events[m]? = some a) (hb : s.events[n]? = some b) (distinct : m ≠ n) :
    ∀ i ∈ a.place, i ∉ b.place := by
  obtain ⟨hm,rfl⟩ := List.getElem?_eq_some_iff.mp ha
  obtain ⟨hn,rfl⟩ := List.getElem?_eq_some_iff.mp hb
  have pairwise := List.pairwise_iff_getElem.mp sound.distinct
  rcases Nat.lt_or_gt_of_ne distinct with less | greater
  · exact pairwise m n hm hn less
  · intro i hi other
    exact pairwise n m hn hm greater i other hi

/-- Keys of one second differ as the numbers do. -/
theorem key_ne_iff {a b : Stamped} (same : a.second = b.second) :
    a.key ≠ b.key ↔ a.sequenceOrder ≠ b.sequenceOrder := by
  simp [Stamped.key,same]

theorem byDate_ne_iff {a b : Stamped} (same : a.second = b.second) :
    a.byDate sid ≠ b.byDate sid ↔ a.sequenceOrder ≠ b.sequenceOrder := by
  simp [Stamped.byDate,same]

theorem timestampKey_ne_iff {a b : Stamped} (same : a.second = b.second)
    (ha : a.sequenceOrder < 10000) (hb : b.sequenceOrder < 10000) :
    a.timestampKey ≠ b.timestampKey ↔ a.sequenceOrder ≠ b.sequenceOrder := by
  simp only [Stamped.second] at same
  simp only [Stamped.timestampKey,same,Nat.mod_eq_of_lt ha,Nat.mod_eq_of_lt hb]
  omega

/-- Two events of one second with fewer than 10000 others between them: their keys, and
those of their messages in a client's database, differ exactly when they are `Apart`. -/
theorem keys_unique {a b : Stamped} {m n : Nat} (run : Run step {} trace s)
    (ha : s.events[m]? = some a) (hb : s.events[n]? = some b) (distinct : m ≠ n)
    (near : a.Near b) (same : a.second = b.second) :
    (a.key ≠ b.key ∧ a.timestampKey ≠ b.timestampKey ∧ ∀ sid, a.byDate sid ≠ b.byDate sid) ↔
      a.Apart b := by
  have sound := sound_run run
  have memA := List.mem_of_getElem? ha
  have memB := List.mem_of_getElem? hb
  have numbers := sound.sequenceOrder_eq memA memB (sound.different ha hb distinct) near
  have keys := timestampKey_ne_iff same (sound.sequenceOrder_lt memA) (sound.sequenceOrder_lt memB)
  simp only [key_ne_iff same,byDate_ne_iff same,keys,ne_eq,numbers,not_not,forall_const,and_self]

def serial (clock : Nat → Int) : Nat → List Action
  | 0 => []
  | n + 1 => serial clock n ++ [.fetch 0,.construct 0 (clock n)]

def serialState (clock : Nat → Int) (n : Nat) : State where
  atomicSequence := UInt32.ofNat n
  taken := n
  events := (List.range n).map fun (i : Nat) => ⟨clock i,sequenceAt i,some i⟩

theorem serial_execute (clock : Nat → Int) (n : Nat) :
    execute step (serial clock n) {} = some (serialState clock n) := by
  induction n with
  | zero => rfl
  | succ n ih =>
    rw [serial,execute_append,ih]
    simp [execute,step,State.fetch,State.construct,serialState,List.range_succ,sequenceAt]

theorem serial_events (clock : Nat → Int) (h : i < n) :
    (serialState clock n).events[i]? = some ⟨clock i,sequenceAt i,some i⟩ := by
  simp [serialState,h]

/-- Two events of one second with fewer than 10000 between them and with one key. -/
def Collision (m n : Nat) : Prop :=
  ∃ trace s a b, Run step {} trace s ∧ s.events[m]? = some a ∧ s.events[n]? = some b ∧
    a.Near b ∧ a.second = b.second ∧ a.key = b.key ∧ a.timestampKey = b.timestampKey ∧
    ∀ sid, a.byDate sid = b.byDate sid

theorem collision_of (clock : Nat → Int) (less : m < n) (near : n ≤ m + 10000)
    (moment : clock m = clock n) (same : sequenceAt m = sequenceAt n) : Collision m n := by
  obtain ⟨trace,run,_⟩ := execute_run _ _ _ (serial_execute clock (n + 1))
  refine ⟨trace,_,_,_,run,serial_events clock (Nat.lt_succ_of_lt less),
    serial_events clock (Nat.lt_succ_self n),?_,?_⟩
  · simp only [Stamped.Near, Option.mem_some_iff]
    rintro _ rfl _ rfl
    omega
  · simp [Stamped.second,Stamped.key,Stamped.timestampKey,Stamped.byDate,moment,same]

/-- The 7296th message before the wrap of the counter has the key of the first after it,
and the first message of a second has the key of the 10001st. -/
theorem keys_collide : Collision (2 ^ 32 - 7296) (2 ^ 32) ∧ Collision 0 10000 := by
  constructor
  · apply collision_of fun (i : Nat) => min i (2 ^ 32 - 7296 : Nat)
    all_goals norm_num [sequenceAt]
  · apply collision_of fun _ => 0
    all_goals norm_num [sequenceAt]

theorem keys_unique_pair : ∃ a b : Stamped, a.key ≠ b.key ∧ a.Apart b := by
  obtain ⟨trace,run,_⟩ := execute_run _ _ _ (serial_execute (fun _ => 0) 2)
  have first := serial_events (fun _ => 0) (show 0 < 2 by omega)
  have second := serial_events (fun _ => 0) (show 1 < 2 by omega)
  have apart : Stamped.Apart ⟨0,sequenceAt 0,some 0⟩ ⟨0,sequenceAt 1,some 1⟩ := by
    simp [Stamped.Apart]
  have unique := keys_unique run first second (by simp) (by simp [Stamped.Near]) rfl
  exact ⟨_,_,(unique.mpr apart).1,apart⟩

end SipWitch.Sequence
