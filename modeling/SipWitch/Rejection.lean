import SipWitch.Server

/-! A rejected REGISTER. `Registry::authorize` clears the active flag before it looks at
the credentials and sets it again only when they fit, so a rejection changes a record
that `Registry::authenticate` would have left alone. -/
namespace SipWitch

open Index Registries

def Manager.delivery (m : Manager) (endpoint : Int) (data : MessageData) : List Output :=
  (m.sendMessage endpoint data).wire.drop m.wire.length

/-- The record is as it was, and so is the delivery of messages to its endpoint. -/
structure Undisturbed (before after : Manager) (a : Handle) (reg : Registry) : Prop where
  record : after.registries.heap.lookup a = some reg
  delivery : ∀ data, after.delivery reg.endpointId data = before.delivery reg.endpointId data

structure Registered (m : Manager) (a : Handle) (reg : Registry) : Prop where
  live : m.registries.heap.lookup a = some reg
  keyed : m.registries.registries.lookup reg.key = some a
  known : m.registries.endpoints.lookup reg.endpointId = some a
  current : reg.hasExpired m.now = false
  active : reg.active = true

variable {hash : HashFunction} {m : Manager} {a : Handle} {reg : Registry} {ev : Event}

theorem Registered.find (registered : Registered m a reg) (addressed : ev.key = reg.key) :
    m.find ev = (m,some (a,reg)) := by
  rw [Manager.find,findByEvent,addressed,registered.keyed]
  simp [unexpired,registered.live,registered.current]

/-- All that a rejection does: the answer, and the loss of the active flag. -/
theorem Registered.rejected (registered : Registered m a reg) (addressed : ev.key = reg.key)
    (credentials : ev.authorization ≠ none) (rejection : (reg.authorize hash ev m.now).2 ≠ Sip.ok)
    (fresh : Nonce) : m.refreshRegistration hash ev fresh =
      (m.write a { reg with active := false }).reply ev Sip.forbidden := by
  obtain ⟨authorization,presented⟩ := Option.ne_none_iff_exists'.mp credentials
  have outcome := Registry.authorize_rejected rejection
  have current : ({ reg with active := false } : Registry).hasExpired m.now = false :=
    registered.current
  have refused : Sip.forbidden ≠ Sip.ok := by decide
  simp only [Manager.refreshRegistration,registered.find addressed,presented,outcome,
    if_neg refused]
  exact if_neg (by rw [Bool.not_eq_true]; exact current)

/-- A record that is not active is sent nothing. -/
theorem inactive_delivery (reg : Registry) (live : m.registries.heap.lookup a = some reg)
    (known : m.registries.endpoints.lookup reg.endpointId = some a)
    (current : reg.hasExpired m.now = false) (inactive : reg.active = false) (data : MessageData) :
    m.delivery reg.endpointId data = [] := by
  have found : m.registries.findById reg.endpointId m.now = (m.registries,some (a,reg)) := by
    rw [findById,known]
    simp [unexpired,live,current]
  simp only [Manager.delivery,Manager.sendMessage,found,inactive]
  exact List.drop_length

/-- Every REGISTER that is rejected for its credentials disturbs the active record it is
for: nothing but the flag changes, and with it no message is transmitted any more. -/
theorem rejected_register_disturbs (hash : HashFunction) (m : Manager) (a : Handle)
    (reg : Registry) (ev : Event) (fresh : Nonce) (registered : Registered m a reg)
    (addressed : ev.key = reg.key)
    (credentials : ev.authorization ≠ none)
    (rejection : (reg.authorize hash ev m.now).2 ≠ Sip.ok) :
    let after := m.refreshRegistration hash ev fresh
    ¬Undisturbed m after a reg ∧
    after.registries.heap.lookup a = some { reg with active := false } ∧
    ∀ data, after.delivery reg.endpointId data = [] := by
  intro after
  have outcome : after = _ := registered.rejected addressed credentials rejection fresh
  have live : after.registries.heap.lookup a = some { reg with active := false } := by
    rw [outcome]
    exact AList.lookup_insert _
  have known : after.registries.endpoints.lookup reg.endpointId = some a := by
    rw [outcome]
    exact registered.known
  have now : after.now = m.now := by rw [outcome]; rfl
  refine ⟨fun undisturbed => ?_,live,?_⟩
  · have same := undisturbed.record
    rw [live,Option.some.injEq] at same
    exact absurd (congrArg Registry.active same) (by simp [registered.active])
  · have current : ({ reg with active := false } : Registry).hasExpired after.now = false := by
      rw [now]
      exact registered.current
    exact inactive_delivery { reg with active := false } live known current rfl

/-- Somebody repeats the device's request with a response of their own. -/
def forged : Event := Site.signed Site.register "0707070707070707" "00"

theorem registration_checks : (Transition.execute (Server.step Site.hash) Site.registration
      Site.server).map (fun s => (s.manager.registries.heap.lookup 0).map fun reg =>
        decide (s.manager.registries.registries.lookup reg.key = some 0 ∧
          s.manager.registries.endpoints.lookup reg.endpointId = some 0 ∧
          reg.hasExpired s.manager.now = false ∧ reg.active = true ∧ forged.key = reg.key ∧
          (reg.authorize Site.hash forged s.manager.now).2 = Sip.forbidden)) =
    some (some true) := by
  decide +kernel

/-- The device is registered in a reachable state, and the forged request is rejected. -/
theorem registration_forged : ∃ trace final reg, Server.Run Site.hash Site.server trace final ∧
    Registered final.manager 0 reg ∧ forged.key = reg.key ∧
    (reg.authorize Site.hash forged final.manager.now).2 ≠ Sip.ok := by
  obtain ⟨final,done,checked⟩ := Option.map_eq_some_iff.mp registration_checks
  obtain ⟨reg,live,facts⟩ := Option.map_eq_some_iff.mp checked
  obtain ⟨trace,run,-⟩ := Transition.execute_run _ _ _ done
  obtain ⟨keyed,known,current,active,addressed,refused⟩ := of_decide_eq_true facts
  refine ⟨trace,final,reg,run,⟨live,keyed,known,current,active⟩,addressed,?_⟩
  rw [refused]
  decide

theorem forged_register_mutes : ¬∀ (hash : HashFunction) (m : Manager) (a : Handle)
    (reg : Registry) (ev : Event) (fresh : Nonce), Registered m a reg → ev.key = reg.key →
    ev.authorization ≠ none → (reg.authorize hash ev m.now).2 ≠ Sip.ok →
    Undisturbed m (m.refreshRegistration hash ev fresh) a reg := by
  intro claim
  obtain ⟨_,final,reg,_,registered,addressed,rejection⟩ := registration_forged
  have undisturbed := claim Site.hash final.manager 0 reg forged (Site.nonce 0) registered
    addressed (by decide) rejection
  have record := undisturbed.record
  rw [registered.rejected addressed (by decide) rejection (Site.nonce 0)] at record
  have written : some { reg with active := false } = some reg :=
    (AList.lookup_insert _).symm.trans record
  rw [Option.some.injEq] at written
  exact absurd (congrArg Registry.active written) (by simp [registered.active])

theorem rejected_register_disturbs_forged : ∃ (m : Manager) (reg : Registry),
    let after := m.refreshRegistration Site.hash forged (Site.nonce 0)
    ¬Undisturbed m after 0 reg ∧
    after.registries.heap.lookup 0 = some { reg with active := false } ∧
    ∀ data, after.delivery reg.endpointId data = [] := by
  obtain ⟨_,final,reg,_,registered,addressed,rejection⟩ := registration_forged
  exact ⟨final.manager,reg,rejected_register_disturbs Site.hash final.manager 0 reg forged
    (Site.nonce 0) registered addressed (by decide) rejection⟩

end SipWitch
