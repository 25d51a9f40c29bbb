import SipWitch.Gate
import SipWitch.Inflight
import SipWitch.Outcome

/-! Records by what they were made with, and the slots of the manager that make one or
drop one by its endpoint. A record is within reach of a drop while the table of endpoints
leads to it. -/
namespace SipWitch

open Index Registries

structure Identity where
  number : Int
  label : UString
  user : UString
  secret : UString
  endpoint : Int
  deriving DecidableEq

def EndpointInfo.identity (ep : EndpointInfo) : Identity :=
  ⟨ep.number,ep.label,ep.user,ep.secret,ep.endpoint⟩

def Registry.identity (reg : Registry) : Identity :=
  ⟨reg.number,reg.userLabel,reg.userId,reg.userSecret,reg.endpointId⟩

def Slot.makes : Slot → Option Identity
  | .notice (.createRegistration _ (some ep)) => some ep.identity
  | _ => none

def Slot.drops : Slot → Option Int
  | .notice (.dropEndpoint endpoint) => some endpoint
  | _ => none

/-- Each condemned record, live or queued, is dropped by a slot that is queued after it. -/
abbrev Swept := Inflight.Swept Slot.makes Slot.drops Identity.endpoint

theorem Registry.authorize_identity (hash : HashFunction) (reg : Registry) (ev : Event) (now : Nat) :
    (reg.authorize hash ev now).1.identity = reg.identity := by
  obtain ⟨active,timeout,address,context,updated,same⟩ := Registry.authorize_frame hash reg ev now
  rw [same]
  rfl

namespace Registries

/-- A drop of the record's endpoint would find it. -/
def Holds (t : Registries) (x : Identity) : Prop :=
  ∃ a reg, t.heap.lookup a = some reg ∧ t.endpoints.lookup reg.endpointId = some a ∧ reg.identity = x

variable {t : Registries} {a : Handle} {reg reg' : Registry} {x : Identity}

theorem delete_holds (holds : (t.delete a).Holds x) : t.Holds x := by
  obtain ⟨b,other,live,entry,rfl⟩ := holds
  refine ⟨b,other,live_of_delete live,?_,rfl⟩
  simp only [Registries.delete] at entry
  split at entry
  · exact entry
  · rw [lookup_erase_cases] at entry
    split at entry
    · contradiction
    · exact entry

/-- With the record that the table of endpoints leads to its entry is gone. -/
theorem delete_evicts (live : t.heap.lookup a = some reg) (holds : (t.delete a).Holds x) :
    x.endpoint ≠ reg.endpointId := by
  obtain ⟨b,other,-,entry,rfl⟩ := holds
  simp only [Registries.delete,live,lookup_erase_cases] at entry
  intro here
  rw [if_pos (show other.endpointId = reg.endpointId from here)] at entry
  contradiction

theorem write_holds (live : t.heap.lookup a = some reg) (same : reg'.identity = reg.identity)
    (holds : (t.write a reg').Holds x) : t.Holds x := by
  obtain ⟨b,other,alive,entry,rfl⟩ := holds
  simp only [Registries.write,lookup_insert_cases] at alive
  split at alive
  · rename_i here
    obtain rfl := Option.some.inj alive
    subst here
    have endpoint : reg'.endpointId = reg.endpointId := congrArg Identity.endpoint same
    exact ⟨b,reg,live,endpoint ▸ entry,same.symm⟩
  · exact ⟨b,other,alive,entry,rfl⟩

theorem setNounce_holds (random : List UInt8) (live : t.heap.lookup a = some reg)
    (holds : (t.write a (reg.setNounce random)).Holds x) : t.Holds x := by
  have same : (reg.setNounce random).identity = reg.identity := rfl
  exact write_holds live same holds

theorem create_holds {ep : EndpointInfo} {range : Int × Int} {now : Nat}
    (holds : (t.create ep range now).1.Holds x) : t.Holds x ∨ ep.identity = x := by
  obtain ⟨b,other,live,entry,rfl⟩ := holds
  simp only [Registries.create,lookup_insert_cases] at live entry
  split at live
  · obtain rfl := Option.some.inj live
    exact .inr rfl
  · rename_i old
    split at entry
    · exact absurd (Option.some.inj entry).symm old
    · exact .inl ⟨b,other,live,entry,rfl⟩

end Registries

namespace Manager

variable {hash : HashFunction} {m : Manager} {x : Identity}

/-- The members of the manager keep what no drop would find out of reach. -/
theorem held_kept (held : Identity → Prop) :
    Manager.Kept hash fun m => ∀ x, m.registries.Holds x → held x where
  delete _ _ reached x holds := reached x (delete_holds holds)
  authorize m a reg ev live reached x holds :=
    reached x (write_holds live (Registry.authorize_identity hash reg ev m.now) holds)
  challenge m a reg ev fresh live reached x holds := by
    cases fresh with
    | none => exact reached x holds
    | some nonce => exact reached x (setNounce_holds nonce.toList live holds)
  send _ _ _ reached := reached
  emit _ _ reached := reached

theorem dropEndpoint_holds (linked : Linked m.registries) {endpoint : Int}
    (holds : (m.dropEndpoint endpoint).registries.Holds x) :
    m.registries.Holds x ∧ x.endpoint ≠ endpoint := by
  have evicted {a : Handle} {reg : Registry} (live : m.registries.heap.lookup a = some reg)
      (entry : m.registries.endpoints.lookup endpoint = some a)
      (holds : (m.registries.delete a).Holds x) :
      m.registries.Holds x ∧ x.endpoint ≠ endpoint := by
    obtain ⟨other,known,filed⟩ := linked.endpoints _ _ entry
    rw [live] at known
    cases known
    exact ⟨delete_holds holds,filed ▸ delete_evicts live holds⟩
  rcases unexpired_cases m.registries (m.registries.endpoints.lookup endpoint) m.now with
    ⟨a,reg,found,entry,live,-⟩ | ⟨a,reg,found,entry,live,-⟩ | ⟨found,none⟩ <;>
    simp only [dropEndpoint,findById,found] at holds
  · exact evicted live entry holds
  · exact evicted live entry holds
  · refine ⟨holds,fun here => ?_⟩
    obtain ⟨a,reg,live,entry,rfl⟩ := holds
    change reg.endpointId = endpoint at here
    rw [← here,entry,Option.bind_some,live] at none
    contradiction

/-- What a slot leaves within reach was so before and is not dropped, or is made by it. -/
theorem handle_holds (linked : Linked m.registries) (slot : Slot) (fresh : Nonce)
    (holds : (m.handle hash slot fresh).registries.Holds x) :
    m.registries.Holds x ∧ slot.drops ≠ some x.endpoint ∨ slot.makes = some x := by
  by_cases drop : ∃ endpoint, slot = .notice (.dropEndpoint endpoint)
  · obtain ⟨endpoint,rfl⟩ := drop
    obtain ⟨before,other⟩ := dropEndpoint_holds linked holds
    refine .inl ⟨before,fun same => other ?_⟩
    exact (Option.some.inj same).symm
  by_cases made : ∃ ev ep, slot = .notice (.createRegistration ev (some ep))
  · obtain ⟨ev,ep,rfl⟩ := made
    have live : (m.registries.create ep m.range m.now).1.heap.lookup
        (m.registries.create ep m.range m.now).2 = some (Registry.create ep m.now) := by
      simp [Registries.create]
    have created := setNounce_holds fresh.toList live holds
    refine (create_holds created).imp (fun before => ⟨before,(Option.some_ne_none _ ·.symm)⟩) fun same => ?_
    exact congrArg some same
  · refine .inl ⟨?_,?_⟩
    · have members : Manager.Kept hash fun m' => ∀ x, m'.registries.Holds x → m.registries.Holds x :=
        held_kept m.registries.Holds
      have kept := members.handle (m := m) (fun _ holds => holds) slot fresh
        fun ev ep here => absurd ⟨ev,ep,here⟩ made
      exact kept x holds
    · intro dropped
      cases slot with
      | notice notice =>
        cases notice with
        | dropEndpoint endpoint => exact drop ⟨endpoint,rfl⟩
        | _ => contradiction
      | _ => contradiction

end Manager

/-- A context queues nothing that makes a record. -/
theorem Context.process_makes {ev : Event} {slot : Slot} (received : (process ev).2 = some slot) :
    slot.makes = none := by
  rcases process_slot received with rfl | ⟨method,rfl,-⟩ <;> rfl

namespace Database

variable {d : Database}

theorem findEndpoint_authorize (d : Database) (ev : Event) :
    (Authorize.findEndpoint d ev).tables.authorize = d.tables.authorize := by
  rcases Authorize.findEndpoint_tables d ev with same | ⟨-,-,same⟩
  · rw [same]
  · rw [same,(Authorize.insertEndpoint_accounts _ _ _ _).2]

/-- Of the slots of the database threads only a lookup makes records. -/
theorem handle_makes_none (silent : d.emitted = []) (signal : Signal)
    (other : ∀ ev, signal ≠ .findEndpoint ev) (notice : Notice)
    (emitted : notice ∈ (d.handle signal).emitted) : (Slot.notice notice).makes = none := by
  have plain := (kept_plain Notice.Plain fun _ plain => plain).handle (d := d) (by simp [silent])
    signal other notice emitted
  cases notice with
  | createRegistration ev ep => exact plain.elim
  | _ => rfl

end Database

end SipWitch
