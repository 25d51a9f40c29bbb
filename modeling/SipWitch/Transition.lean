/-! Runs of a state machine whose nondeterminism is carried by its actions. `step`
is partial: an action that is not enabled has no successor. Nothing here mentions a
particular machine. -/
namespace Transition

/-- One transition of a run, with the states on both sides. -/
structure Edge (S A : Type) where
  source : S
  action : A
  target : S

/-- A finite run, its transitions listed in order of time. -/
inductive Run (step : S → A → Option S) : S → List (Edge S A) → S → Prop where
  | start : Run step s [] s
  | next : Run step s trace middle → step middle a = some final →
      Run step s (trace ++ [⟨middle, a, final⟩]) final

def execute (step : S → A → Option S) : List A → S → Option S
  | [], s => some s
  | a :: rest, s => (step s a).bind (execute step rest)

variable {S A : Type} {step : S → A → Option S} {s final : S} {trace : List (Edge S A)}

theorem Run.append (first : Run step s trace middle) (second : Run step middle rest final) :
    Run step s (trace ++ rest) final := by
  induction second with
  | start => simpa using first
  | next _ h ih =>
    rw [← List.append_assoc]
    exact .next ih h

theorem Run.edge_step (run : Run step s trace final) (edge : Edge S A) (member : edge ∈ trace) :
    step edge.source edge.action = some edge.target := by
  induction run with
  | start => simp at member
  | next _ h ih =>
    rcases List.mem_append.mp member with before | last
    · exact ih before
    · rw [List.mem_singleton.mp last]
      exact h

/-- Every transition of a run starts in a state that the part before it reaches. -/
theorem Run.edge_split (run : Run step s trace final) (edge : Edge S A) (member : edge ∈ trace) :
    ∃ before, before ++ [edge] <+: trace ∧ Run step s before edge.source := by
  induction run with
  | start => simp at member
  | next earlier _ ih =>
    rcases List.mem_append.mp member with before | last
    · obtain ⟨start,first,reached⟩ := ih before
      exact ⟨start,first.trans (List.prefix_append _ _),reached⟩
    · rw [List.mem_singleton.mp last]
      exact ⟨_,List.prefix_rfl,earlier⟩

theorem Run.edge_reached (run : Run step s trace final) (edge : Edge S A)
    (member : edge ∈ trace) :
    ∃ before, before <+: trace ∧ Run step s before edge.source := by
  obtain ⟨before,front,reached⟩ := run.edge_split edge member
  exact ⟨before,(List.prefix_append _ _).trans front,reached⟩

/-- A transition starts where the run does, or where an earlier transition ended. -/
theorem Run.edge_source (run : Run step s trace final) (edge : Edge S A) (member : edge ∈ trace) :
    edge.source = s ∨ ∃ earlier ∈ trace, earlier.target = edge.source := by
  obtain ⟨before,front,reached⟩ := run.edge_reached edge member
  cases reached with
  | start => exact .inl rfl
  | next _ h => exact .inr ⟨_,front.subset (List.mem_append_right _ (List.mem_singleton.mpr rfl)),rfl⟩

theorem Run.of_append {first second : List (Edge S A)}
    (run : Run step s (first ++ second) final) :
    ∃ middle, Run step s first middle ∧ Run step middle second final := by
  generalize whole : first ++ second = trace at run
  induction run generalizing second with
  | start =>
    obtain ⟨rfl,rfl⟩ := List.append_eq_nil_iff.mp whole
    exact ⟨_,.start,.start⟩
  | next earlier h ih =>
    rcases List.eq_nil_or_concat second with rfl | ⟨rest,edge,rfl⟩
    · rw [List.append_nil] at whole
      exact ⟨_,whole ▸ .next earlier h,.start⟩
    · rw [List.concat_eq_append,← List.append_assoc] at whole
      obtain ⟨front,last⟩ := List.append_inj' whole rfl
      obtain ⟨middle,before,after⟩ := ih front
      rw [List.concat_eq_append,last]
      exact ⟨middle,before,.next after h⟩

theorem Run.of_nil (run : Run step s [] final) : final = s := by
  generalize none : [] = trace at run
  cases run with
  | start => rfl
  | next => simp at none

theorem Run.of_cons {edge : Edge S A} (run : Run step s (edge :: trace) final) :
    edge.source = s ∧ step s edge.action = some edge.target ∧
      Run step edge.target trace final := by
  have split : Run step s ([edge] ++ trace) final := run
  obtain ⟨middle,one,rest⟩ := split.of_append
  generalize single : [edge] = first at one
  cases one with
  | start => simp at single
  | next earlier h =>
    rw [← List.nil_append [edge]] at single
    obtain ⟨none,last⟩ := List.append_inj' single rfl
    obtain rfl := (none ▸ earlier).of_nil
    obtain rfl := List.singleton_inj.mp last
    exact ⟨rfl,h,rest⟩

/-- What every transition preserves holds at the end of a run. `guard` is what the
run is assumed to respect at each of its transitions. -/
theorem Run.invariant_of (property : S → Prop) (guard : S → A → Prop)
    (preserved : ∀ s a next, property s → guard s a → step s a = some next → property next)
    (run : Run step s trace final) (initial : property s)
    (guarded : ∀ edge ∈ trace, guard edge.source edge.action) : property final := by
  induction run with
  | start => exact initial
  | next _ h ih =>
    refine preserved _ _ _ (ih fun edge member => ?_) ?_ h
    · exact guarded edge (List.mem_append_left _ member)
    · exact guarded _ (List.mem_append_right _ (List.mem_singleton.mpr rfl))

theorem Run.invariant (property : S → Prop)
    (preserved : ∀ s a next, property s → step s a = some next → property next)
    (run : Run step s trace final) (initial : property s) : property final :=
  run.invariant_of property (fun _ _ => True) (fun s a next h _ => preserved s a next h)
    initial (fun _ _ => trivial)

/-- A fact that is false at the start and true at the end was established by a
transition of the run. -/
theorem Run.origin (fact : S → Prop) (run : Run step s trace final)
    (absent : ¬fact s) (present : fact final) :
    ∃ edge ∈ trace, ¬fact edge.source ∧ fact edge.target := by
  induction run with
  | start => exact absurd present absent
  | @next trace middle a final _ h ih =>
    by_cases before : fact middle
    · obtain ⟨edge,member,established⟩ := ih before
      exact ⟨edge,List.mem_append_left _ member,established⟩
    · exact ⟨⟨middle,a,final⟩,List.mem_append_right _ (List.mem_singleton.mpr rfl),before,present⟩

theorem execute_append (first second : List A) (s : S) :
    execute step (first ++ second) s = (execute step first s).bind (execute step second) := by
  induction first generalizing s with
  | nil => rfl
  | cons a rest ih =>
    cases moved : step s a with
    | none => simp [execute,moved]
    | some next => simp [execute,moved,ih]

theorem execute_run (actions : List A) (s final : S)
    (done : execute step actions s = some final) :
    ∃ trace, Run step s trace final ∧ trace.map Edge.action = actions := by
  induction actions generalizing s with
  | nil =>
    obtain rfl : s = final := by simpa [execute] using done
    exact ⟨[],.start,rfl⟩
  | cons a rest ih =>
    obtain ⟨middle,first,later⟩ := Option.bind_eq_some_iff.mp done
    obtain ⟨trace,run,labels⟩ := ih middle later
    have one : Run step s ([] ++ [⟨s,a,middle⟩]) middle := .next .start first
    exact ⟨_,one.append run,by simp [labels]⟩

/-- The machine that stops at what the guard does not let through. -/
def guarded (guard : S → A → Bool) (step : S → A → Option S) (s : S) (a : A) : Option S :=
  if guard s a then step s a else none

theorem Run.of_guarded {guard : S → A → Bool} (run : Run (guarded guard step) s trace final) :
    Run step s trace final ∧ ∀ edge ∈ trace, guard edge.source edge.action = true := by
  induction run with
  | start => exact ⟨.start,fun _ member => absurd member List.not_mem_nil⟩
  | next _ h ih =>
    simp only [guarded] at h
    split at h
    · rename_i passed
      refine ⟨.next ih.1 h,fun edge member => ?_⟩
      rcases List.mem_append.mp member with before | last
      · exact ih.2 edge before
      · rw [List.mem_singleton.mp last]
        exact passed
    · contradiction

end Transition
