import SipWitch.Server

/-! Freshness of the nonces that requests are accepted with. A record keeps the newest
nonce generated for it and the one before; before there is a second one the older slot
is empty, and the text of an empty slot is what a request without a nonce presents. -/
namespace SipWitch

open Index Registries

def generates (a : Handle) : Output → Option UString
  | .challenge _ b answer false => if b = a then some (UString.unquote answer.nonce) else none
  | _ => none

def generated (wire : List Output) (a : Handle) : List UString :=
  (wire.filterMap (generates a)).reverse

def Sent (wire : List Output) (a : Handle) (nonce : UString) : Prop :=
  ∃ ev answer reuse, .challenge ev a answer reuse ∈ wire ∧ UString.unquote answer.nonce = nonce

structure Fresh (wire : List Output) (a : Handle) (nonce : UString) : Prop where
  sent : Sent wire a nonce
  recent : nonce ∈ (generated wire a).take 2

/-- The two slots of a record hold the newest nonces, as far as there are any. -/
def Current (nonces : List UString) (reg : Registry) : Prop :=
  ∃ older, nonces = Registry.nonceText reg.random :: older ∧
    Registry.nonceText reg.prior = older.head?.getD []

structure Nonced (t : Registries) (wire : List Output) : Prop where
  linked : Linked t
  unused : ∀ a, t.next ≤ a → generated wire a = []
  texts : ∀ a, ∀ nonce ∈ generated wire a, nonce ≠ []
  current : ∀ a reg, t.heap.lookup a = some reg → Current (generated wire a) reg

variable {hash : HashFunction} {t : Registries} {wire : List Output} {a b : Handle}
  {reg : Registry} {ev : Event} {m : Manager}

theorem generated_append (wire : List Output) (output : Output) (a : Handle) :
    generated (wire ++ [output]) a = (generates a output).toList ++ generated wire a := by
  simp only [generated,List.filterMap_append,List.reverse_append]
  cases made : generates a output <;> simp [made]

theorem generated_other (silent : ∀ a, generates a output = none) (a : Handle) :
    generated (wire ++ [output]) a = generated wire a := by
  rw [generated_append,silent a]
  rfl

theorem generates_reply (h : output.isChallenge = false) (a : Handle) :
    generates a output = none := by
  cases output with
  | challenge => contradiction
  | _ => rfl

theorem Sent.of_generated (member : nonce ∈ generated wire a) : Sent wire a nonce := by
  simp only [generated,List.mem_reverse,List.mem_filterMap] at member
  obtain ⟨output,listed,made⟩ := member
  cases output with
  | challenge ev b answer reuse =>
    cases reuse with
    | true => contradiction
    | false =>
      simp only [generates] at made
      split at made
      · rename_i same
        exact ⟨ev,answer,false,same ▸ listed,Option.some.inj made⟩
      · contradiction
  | _ => contradiction

/-- A silent output and records with the same slots leave the account as it is. -/
theorem Nonced.of_records (nonced : Nonced t wire) (linked : Linked t') (next : t'.next = t.next)
    (same : ∀ a, generated wire' a = generated wire a)
    (records : ∀ a reg', t'.heap.lookup a = some reg' →
      ∃ reg, t.heap.lookup a = some reg ∧ reg'.random = reg.random ∧ reg'.prior = reg.prior) :
    Nonced t' wire' where
  linked := linked
  unused a beyond := (same a).trans (nonced.unused a (next ▸ beyond))
  texts a nonce member := nonced.texts a nonce (same a ▸ member)
  current a reg' live := by
    obtain ⟨reg,known,random,prior⟩ := records a reg' live
    obtain ⟨older,newest,previous⟩ := nonced.current a reg known
    exact ⟨older,by rw [same,newest,random],by rw [prior,previous]⟩

theorem nonceText_nonce (fresh : Nonce) : Registry.nonceText fresh.toList ≠ [] := by
  rw [Ne,Registry.nonceText_eq_nil]
  intro empty
  have := congrArg List.length empty
  simp at this

/-- A fresh challenge puts its nonce before the others of the record. -/
theorem generated_challenge (m : Manager) (ev : Event) (a b : Handle) (reg : Registry)
    (fresh : Nonce) : generated (m.challenge ev a reg (some fresh)).wire b =
      if a = b then Registry.nonceText fresh.toList :: generated m.wire b
      else generated m.wire b := by
  have sent : (m.challenge ev a reg (some fresh)).wire =
      m.wire ++ [.challenge ev a (Manager.answer ev reg fresh.toList) false] := rfl
  rw [sent,generated_append,generates]
  split <;> simp [Manager.answer]

theorem Nonced.challenge (nonced : Nonced m.registries m.wire)
    (live : m.registries.heap.lookup a = some reg) (ev : Event) (fresh : Nonce) :
    Nonced (m.challenge ev a reg (some fresh)).registries
      (m.challenge ev a reg (some fresh)).wire where
  linked := nonced.linked.write live ⟨rfl,rfl,rfl⟩
  unused b beyond := by
    have used := nonced.linked.used a reg live
    have apart : a ≠ b := fun same => absurd beyond (by subst same; exact Nat.not_le.mpr used)
    rw [generated_challenge,if_neg apart]
    exact nonced.unused b beyond
  texts b nonce member := by
    rw [generated_challenge] at member
    split at member
    · rcases List.mem_cons.mp member with rfl | old
      · exact nonceText_nonce fresh
      · exact nonced.texts b nonce old
    · exact nonced.texts b nonce member
  current b reg' alive := by
    have entry : (m.registries.heap.insert a (reg.setNounce fresh.toList)).lookup b = some reg' :=
      alive
    rw [lookup_insert_cases] at entry
    rw [generated_challenge]
    by_cases here : b = a
    · rw [if_pos here,Option.some.injEq] at entry
      obtain ⟨older,newest,-⟩ := nonced.current a reg live
      rw [if_pos here.symm,← entry]
      refine ⟨generated m.wire b,rfl,?_⟩
      rw [here,newest]
      rfl
    · rw [if_neg here] at entry
      rw [if_neg (Ne.symm here)]
      exact nonced.current b reg' entry

theorem nonced_kept : Manager.Kept hash fun m => Nonced m.registries m.wire where
  delete m a nonced := by
    refine nonced.of_records (nonced.linked.delete a) delete_next (fun _ => rfl) ?_
    intro b reg' live
    exact ⟨reg',live_of_delete live,rfl,rfl⟩
  authorize m a reg ev live nonced := by
    obtain ⟨active,timeout,address,context,updated,frame⟩ :=
      Registry.authorize_frame hash reg ev m.now
    rw [frame]
    refine nonced.of_records (nonced.linked.write live ⟨rfl,rfl,rfl⟩) rfl (fun _ => rfl) ?_
    intro b reg' alive
    simp only [Manager.write,Registries.write,lookup_insert_cases] at alive
    split at alive
    · rename_i here
      cases alive
      exact ⟨reg,here ▸ live,rfl,rfl⟩
    · exact ⟨reg',alive,rfl,rfl⟩
  challenge m a reg ev fresh live nonced := by
    cases fresh with
    | none =>
      exact nonced.of_records nonced.linked rfl (generated_other fun _ => rfl)
        fun b reg' alive => ⟨reg',alive,rfl,rfl⟩
    | some fresh => exact nonced.challenge live ev fresh
  send m output plain nonced :=
    nonced.of_records nonced.linked rfl (generated_other (generates_reply plain))
      fun b reg' alive => ⟨reg',alive,rfl,rfl⟩
  emit _ _ nonced := nonced

/-- A new record starts with its first nonce, whose challenge goes out at once. -/
theorem Nonced.create (nonced : Nonced m.registries m.wire) (ev : Event) (ep : EndpointInfo)
    (fresh : Nonce) : Nonced (m.createRegistration ev (some ep) fresh).registries
      (m.createRegistration ev (some ep) fresh).wire := by
  let made : Manager := { m with registries := (m.registries.create ep m.range m.now).1 }
  have linked := nonced.linked.create ep m.range m.now
  have live : made.registries.heap.lookup m.registries.next = some (Registry.create ep m.now) := by
    simp [made,Registries.create]
  have wire (b : Handle) := generated_challenge made ev m.registries.next b
    (Registry.create ep m.now) fresh
  have unused := nonced.unused _ (Nat.le_refl m.registries.next)
  change Nonced (made.challenge ev _ (Registry.create ep m.now) (some fresh)).registries
    (made.challenge ev _ (Registry.create ep m.now) (some fresh)).wire
  refine ⟨linked.write live ⟨rfl,rfl,rfl⟩,?_,?_,?_⟩
  · intro b beyond
    have later : m.registries.next < b := beyond
    rw [wire,if_neg (Nat.ne_of_lt later)]
    exact nonced.unused b (Nat.le_of_lt later)
  · intro b nonce member
    rw [wire] at member
    split at member
    · rcases List.mem_cons.mp member with rfl | old
      · exact nonceText_nonce fresh
      · exact nonced.texts b nonce old
    · exact nonced.texts b nonce member
  · intro b reg' alive
    have entry : (made.registries.heap.insert m.registries.next
        ((Registry.create ep m.now).setNounce fresh.toList)).lookup b = some reg' := alive
    rw [lookup_insert_cases] at entry
    by_cases here : b = m.registries.next
    · rw [if_pos here,Option.some.injEq] at entry
      rw [wire,if_pos here.symm,← entry,here,unused]
      exact ⟨[],rfl,rfl⟩
    · rw [if_neg here] at entry
      have old : m.registries.heap.lookup b = some reg' := by
        simpa [made,Registries.create,lookup_insert_cases,here] using entry
      rw [wire,if_neg (Ne.symm here)]
      exact nonced.current b reg' old

theorem Server.run_nonced (run : Server.Run hash s trace final)
    (nonced : Nonced s.manager.registries s.manager.wire) :
    Nonced final.manager.registries final.manager.wire :=
  run.invariant (fun s => Nonced s.manager.registries s.manager.wire)
    (fun _ _ _ holds moved => Server.step_kept nonced_kept holds
      (fun ev ep fresh _ _ => holds.create ev ep fresh) moved) nonced

theorem nonced_empty : Nonced {} [] where
  linked := linked_empty
  unused _ _ := rfl
  texts _ _ member := absurd member List.not_mem_nil
  current _ _ live := by simp at live

/-- A text in one of the slots is a fresh nonce unless the slot is an empty one. -/
theorem Nonced.fresh_iff (nonced : Nonced t wire) (live : t.heap.lookup a = some reg)
    (nonce : UString) (slot : nonce = Registry.nonceText reg.random ∨
      nonce = Registry.nonceText reg.prior) : Fresh wire a nonce ↔ nonce ≠ [] := by
  obtain ⟨older,newest,previous⟩ := nonced.current a reg live
  constructor
  · intro fresh
    exact nonced.texts a nonce (List.mem_of_mem_take fresh.recent)
  · intro presented
    have recent : nonce ∈ (generated wire a).take 2 := by
      rcases slot with rfl | rfl
      · simp [newest]
      · cases older with
        | nil => exact absurd previous presented
        | cons second rest => simp [newest,previous]
    exact ⟨Sent.of_generated (List.mem_of_mem_take recent),recent⟩

/-- In every run, whatever nonce a request is accepted with was sent to that record and
is one of its two newest, if and only if the request presents one at all. -/
theorem accepted_nonce_fresh_iff (hash : HashFunction) (s : Server) (trace final)
    (start : s.manager.registries = {}) (silent : s.manager.wire = [])
    (run : Server.Run hash s trace final) (a : Handle) (reg : Registry) (ev : Event)
    (live : final.manager.registries.heap.lookup a = some reg)
    (accepted : reg.authenticate hash ev final.manager.now = Sip.ok ∨
      (reg.authorize hash ev final.manager.now).2 = Sip.ok) :
    Fresh final.manager.wire a ev.authorizingOnce ↔ ev.authorizingOnce ≠ [] := by
  have nonced := Server.run_nonced run (by rw [start,silent]; exact nonced_empty)
  refine nonced.fresh_iff live _ ?_
  rcases accepted with ok | ok
  · exact (Registry.authenticate_ok_iff.mp ok).2.2.2
  · exact .inl (Registry.authorize_ok_iff.mp ok).2

def unchallenged : Event :=
  Site.signed (Site.request "X-ROSTER") [] "c1c6eb1094e36edbee9fdffe801dad76"

theorem registration_accepts : (Transition.execute (Server.step Site.hash) Site.registration
      Site.server).map (fun s => (s.manager.registries.heap.lookup 0).map fun reg =>
        reg.authenticate Site.hash unchallenged s.manager.now) = some (some Sip.ok) := by
  decide +kernel

theorem registration_run : ∃ trace final reg, Server.Run Site.hash Site.server trace final ∧
    final.manager.registries.heap.lookup 0 = some reg ∧
    reg.authenticate Site.hash unchallenged final.manager.now = Sip.ok := by
  obtain ⟨final,done,accepted⟩ := Option.map_eq_some_iff.mp registration_accepts
  obtain ⟨reg,live,ok⟩ := Option.map_eq_some_iff.mp accepted
  obtain ⟨trace,run,-⟩ := Transition.execute_run _ _ _ done
  exact ⟨trace,final,reg,run,live,ok⟩

/-- After a single challenge a request without a nonce is accepted. -/
theorem absent_nonce_accepted : ¬∀ (hash : HashFunction) (s : Server) (trace final),
    s.manager.registries = {} → s.manager.wire = [] → Server.Run hash s trace final →
    ∀ a reg ev, final.manager.registries.heap.lookup a = some reg →
      reg.authenticate hash ev final.manager.now = Sip.ok ∨
        (reg.authorize hash ev final.manager.now).2 = Sip.ok →
      Fresh final.manager.wire a ev.authorizingOnce := by
  intro claim
  obtain ⟨trace,final,reg,run,live,ok⟩ := registration_run
  have fresh := claim _ _ trace final rfl rfl run 0 reg unchallenged live (.inl ok)
  have nonced := Server.run_nonced run nonced_empty
  exact nonced.texts 0 _ (List.mem_of_mem_take fresh.recent) rfl

theorem accepted_nonce_fresh_iff_unchallenged :
    ∃ trace final, Server.Run Site.hash Site.server trace final ∧
      ¬Fresh final.manager.wire 0 unchallenged.authorizingOnce := by
  obtain ⟨trace,final,reg,run,live,ok⟩ := registration_run
  exact ⟨trace,final,run,fun fresh => (accepted_nonce_fresh_iff Site.hash Site.server trace final rfl rfl run 0
    reg unchallenged live (.inl ok)).mp fresh rfl⟩

end SipWitch
