/-! Total correctness of programs with a state that may get stuck, and of a loop that tries
something again when it could recover. Nothing here mentions a particular program. -/

variable {S A B L : Type}

/-- From `s` the program comes to an end, with a result and a state that satisfy `post`. -/
def Ensures (m : StateT S Option A) (s : S) (post : A → S → Prop) : Prop :=
  ∃ a s', m s = some (a,s') ∧ post a s'

namespace Ensures

variable {m : StateT S Option A} {f : A → StateT S Option B} {s s' : S} {a : A}

@[simp] theorem pure_iff {post : A → S → Prop} : Ensures (pure a) s post ↔ post a s := by
  constructor
  · rintro ⟨_,_,done,holds⟩
    obtain ⟨rfl,rfl⟩ := Prod.mk.inj (Option.some.inj done)
    exact holds
  · exact fun holds => ⟨a,s,rfl,holds⟩

@[simp] theorem bind_iff {post : B → S → Prop} :
    Ensures (m >>= f) s post ↔ Ensures m s fun a s' => Ensures (f a) s' post := by
  constructor
  · rintro ⟨b,last,done,holds⟩
    obtain ⟨⟨a,middle⟩,first,second⟩ := Option.bind_eq_some_iff.mp done
    exact ⟨a,middle,first,b,last,second,holds⟩
  · rintro ⟨a,middle,first,b,last,second,holds⟩
    exact ⟨b,last,Option.bind_eq_some_iff.mpr ⟨(a,middle),first,second⟩,holds⟩

@[simp] theorem get_iff {post : S → S → Prop} : Ensures get s post ↔ post s s :=
  pure_iff (a := s)

@[simp] theorem modify_iff {g : S → S} {post : PUnit → S → Prop} :
    Ensures (modify g) s post ↔ post ⟨⟩ (g s) := by
  constructor
  · rintro ⟨_,_,done,holds⟩
    obtain ⟨rfl,rfl⟩ := Prod.mk.inj (Option.some.inj done)
    exact holds
  · exact fun holds => ⟨⟨⟩,g s,rfl,holds⟩

@[simp] theorem map_iff {g : A → B} {post : B → S → Prop} :
    Ensures (g <$> m) s post ↔ Ensures m s fun a s' => post (g a) s' := by
  rw [← bind_pure_comp,bind_iff]
  simp only [pure_iff]

theorem mono {strong weak : A → S → Prop} (ensures : Ensures m s strong)
    (weaker : ∀ a s', strong a s' → weak a s') : Ensures m s weak := by
  obtain ⟨a,s',done,holds⟩ := ensures
  exact ⟨a,s',done,weaker a s' holds⟩

/-- A program has one end only. -/
theorem holds {post : A → S → Prop} (ensures : Ensures m s post) (done : m s = some (a,s')) : post a s' := by
  obtain ⟨_,_,other,holds⟩ := ensures
  obtain ⟨rfl,rfl⟩ := Prod.mk.inj (Option.some.inj (done.symm.trans other))
  exact holds

end Ensures

/-- At most `n` attempts, and between them, and behind the last, a recovery that may fail. -/
def retry (attempt : StateT S Option (Option A)) (recover : StateT S Option Bool) :
    Nat → StateT S Option (Option A)
  | 0 => pure none
  | n + 1 => do
    match ← attempt with
    | some a => pure (some a)
    | none => if ← recover then retry attempt recover n else pure none

/-- A loop is right when a round keeps what holds with so many attempts left, and the end of
the attempts is one way to give up. -/
theorem retry_ensures {attempt : StateT S Option (Option A)} {recover : StateT S Option Bool}
    (left : Nat → S → Prop) (done : A → S → Prop) (stopped : S → Prop)
    (round : ∀ n s, left (n + 1) s → Ensures attempt s fun result s' =>
      match result with
      | some a => done a s'
      | none => Ensures recover s' fun again s'' => if again then left n s'' else stopped s'')
    (ended : ∀ s, left 0 s → stopped s) (n : Nat) (s : S) (start : left n s) :
    Ensures (retry attempt recover n) s fun result s' =>
      match result with
      | some a => done a s'
      | none => stopped s' := by
  induction n generalizing s with
  | zero => exact Ensures.pure_iff.mpr (ended s start)
  | succ n ih =>
    refine Ensures.bind_iff.mpr ((round n s start).mono fun result s' holds => ?_)
    cases result with
    | some a => exact Ensures.pure_iff.mpr holds
    | none =>
      refine Ensures.bind_iff.mpr (Ensures.mono holds fun again s'' holds => ?_)
      cases again with
      | true => exact ih s'' holds
      | false => exact Ensures.pure_iff.mpr holds

/-- What the loop leaves in a log: each attempt an entry, which tells its result, and between
them what the recoveries leave, at most one of them at a cost for each attempt. -/
structure Retried (entry : Option A → L) (side : L → Prop) (tried hit cost : L → Bool) (n : Nat)
    (result : Option A) (new : List L) : Prop where
  once : new.countP hit = result.isSome.toNat
  tries : new.countP tried ≤ n
  costs : new.countP cost ≤ n
  last : ∀ a, result = some a → new.getLast? = some (entry result)
  rest : ∀ l ∈ new, side l ∨ ∃ r, l = entry r

/-- A loop whose attempts and recoveries each keep their part of a log. -/
theorem retry_log {attempt : StateT S Option (Option A)} {recover : StateT S Option Bool} (log : S → List L)
    (entry : Option A → L) (side : L → Prop) (tried hit cost : L → Bool) (ready stopped : S → Prop)
    (one : ∀ r, tried (entry r) = true ∧ hit (entry r) = r.isSome ∧ cost (entry r) = false)
    (apart : ∀ l, side l → tried l = false ∧ hit l = false)
    (weaker : ∀ s, ready s → stopped s)
    (round : ∀ s, ready s → Ensures attempt s fun r s' => log s' = log s ++ [entry r] ∧
      match r with
      | some _ => stopped s'
      | none => Ensures recover s' fun again s'' => (if again then ready s'' else stopped s'') ∧
        ∃ new, log s'' = log s' ++ new ∧ new.countP cost ≤ 1 ∧ ∀ l ∈ new, side l)
    (n : Nat) (s : S) (start : ready s) :
    Ensures (retry attempt recover n) s fun result s' => stopped s' ∧
      ∃ new, log s' = log s ++ new ∧ Retried entry side tried hit cost n result new := by
  induction n generalizing s with
  | zero => exact Ensures.pure_iff.mpr ⟨weaker s start,[],by simp,⟨rfl,by simp,by simp,by simp,by simp⟩⟩
  | succ n ih =>
    refine Ensures.bind_iff.mpr ((round s start).mono ?_)
    rintro r middle ⟨logged,holds⟩
    obtain ⟨here,found,free⟩ := one r
    cases r with
    | some a =>
      refine Ensures.pure_iff.mpr ⟨holds,_,logged,?_,?_,?_,?_,?_⟩
      · simp [found]
      · simp [here]
      · simp [free]
      · simp
      · exact fun l member => .inr ⟨some a,List.mem_singleton.mp member⟩
    | none =>
      refine Ensures.bind_iff.mpr (Ensures.mono holds ?_)
      rintro again later ⟨reached,new,more,cheap,aside⟩
      have quiet : new.countP tried = 0 ∧ new.countP hit = 0 :=
        ⟨List.countP_eq_zero.mpr fun l member => by simp [apart l (aside l member)],
          List.countP_eq_zero.mpr fun l member => by simp [apart l (aside l member)]⟩
      have within : ∀ l ∈ entry none :: new, side l ∨ ∃ r, l = entry r := by
        intro l member
        rcases List.mem_cons.mp member with rfl | member
        · exact .inr ⟨none,rfl⟩
        · exact .inl (aside l member)
      have whole : log later = log s ++ entry none :: new := by
        rw [more,logged,List.append_assoc,List.singleton_append]
      cases again with
      | false =>
        refine Ensures.pure_iff.mpr ⟨reached,_,whole,?_,?_,?_,by simp,within⟩
        · simp [found,quiet]
        · simp [here,quiet]
        · simp [free]
          omega
      | true =>
        refine (ih later reached).mono ?_
        rintro result last ⟨ended,others,added,retried⟩
        refine ⟨ended,entry none :: new ++ others,by rw [added,whole,List.append_assoc],?_,?_,?_,?_,?_⟩
        · simp [found,quiet,retried.once]
        · have := retried.tries
          simp [here,quiet]
          omega
        · have := retried.costs
          simp [free]
          omega
        · intro a found
          have tail := retried.last a found
          rw [List.getLast?_append,tail]
          rfl
        · intro l member
          rcases List.mem_append.mp member with member | member
          · exact within l member
          · exact retried.rest l member
