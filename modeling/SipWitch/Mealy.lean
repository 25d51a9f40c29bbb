import Mathlib.Data.List.Count

/-! Machines with outputs, and the automata that say which outputs they may make, in which
order. A machine conforms when its states can be matched with those of the automaton. Nothing
here mentions a particular machine. -/
namespace Mealy

variable {S A O C : Type}

/-- A finite run, with everything it has put out. -/
inductive Run (step : S → A → Option (S × List O)) : S → List O → S → Prop where
  | start : Run step s [] s
  | next : Run step s log middle → step middle a = some (final,out) → Run step s (log ++ out) final

/-- Where the automaton is after the outputs, if it lets them pass. -/
def accept (next : C → O → Option C) : C → List O → Option C
  | c, [] => some c
  | c, o :: rest => (next c o).bind fun c => accept next c rest

variable {step : S → A → Option (S × List O)} {next : C → O → Option C} {s final : S} {log : List O}
  {c c' : C}

@[simp] theorem accept_nil : accept next c [] = some c := rfl

@[simp] theorem accept_cons (o : O) (rest : List O) :
    accept next c (o :: rest) = (next c o).bind fun c => accept next c rest := rfl

theorem accept_append (first second : List O) :
    accept next c (first ++ second) = (accept next c first).bind fun c => accept next c second := by
  induction first generalizing c with
  | nil => rfl
  | cons o rest ih =>
    cases moved : next c o with
    | none => simp [moved]
    | some middle => simp [moved,ih]

theorem accept_stays (stays : ∀ o ∈ log, next c o = some c) : accept next c log = some c := by
  induction log with
  | nil => rfl
  | cons o rest ih =>
    rw [accept_cons,stays o List.mem_cons_self,Option.bind_some]
    exact ih fun o member => stays o (List.mem_cons_of_mem _ member)

/-- A run whose steps keep an invariant and put out what the automaton lets pass, matched
by `related`, puts out what it lets pass. -/
theorem Run.conforms (related : S → C → Prop)
    (simulates : ∀ s c a s' out, related s c → step s a = some (s',out) →
      ∃ c', accept next c out = some c' ∧ related s' c')
    (run : Run step s log final) (initial : related s c) :
    ∃ c', accept next c log = some c' ∧ related final c' := by
  induction run with
  | start => exact ⟨c,rfl,initial⟩
  | next _ moved ih =>
    obtain ⟨middle,passed,matched⟩ := ih
    obtain ⟨last,more,matched⟩ := simulates _ _ _ _ _ matched moved
    refine ⟨last,?_,matched⟩
    rw [accept_append,passed,Option.bind_some,more]

/-- A credit that goes up by one at some outputs and stays at the others counts them. -/
theorem accept_balance (credit : C → Nat) (counts : O → Bool)
    (one : ∀ c o c', next c o = some c' → credit c' = credit c + if counts o then 1 else 0)
    (passed : accept next c log = some c') : credit c' = credit c + log.countP counts := by
  induction log generalizing c with
  | nil =>
    obtain rfl := Option.some.inj passed
    simp
  | cons o rest ih =>
    obtain ⟨middle,moved,later⟩ := Option.bind_eq_some_iff.mp passed
    have first := one c o middle moved
    have others := ih later
    rw [List.countP_cons]
    omega

/-- A flag that some outputs set and none resets tells whether one of them was there. -/
theorem accept_flag (flag : C → Bool) (sets : O → Bool)
    (one : ∀ c o c', next c o = some c' → flag c' = (flag c || sets o))
    (passed : accept next c log = some c') : flag c' = (flag c || log.any sets) := by
  induction log generalizing c with
  | nil =>
    obtain rfl := Option.some.inj passed
    simp
  | cons o rest ih =>
    obtain ⟨middle,moved,later⟩ := Option.bind_eq_some_iff.mp passed
    rw [ih later,one c o middle moved,List.any_cons,Bool.or_assoc]

end Mealy
