import SipWitch.Fanout
import SipWitch.Gate
import SipWitch.Listener
import SipWitch.Outcome

/-! How requests are answered. A management request is answered by the context that
receives it, by the manager's slot or by the slot of the database threads. A MESSAGE is
answered by its context and by the slot that stores it. -/
namespace SipWitch

def Output.isFinal (ev : Event) : Output → Bool
  | .reply asked code | .answerWithTimestamp asked code => asked = ev && 200 ≤ code
  | .challenge asked _ _ _ | .authorize asked _ _ | .answerWithJson asked _ => asked = ev
  | .message .. => false

def Output.isSuccess : Output → Bool
  | .reply _ code | .answerWithTimestamp _ code => 200 ≤ code && code < 300
  | .authorize .. | .answerWithJson .. => true
  | .challenge .. | .message .. => false

/-- What was sent is one final response. -/
def AnsweredOnce (ev : Event) (sent : List Output) : Prop :=
  ∃ output, sent = [output] ∧ output.isFinal ev = true

/-- After what was sent before, one final response. -/
def Answered (ev : Event) (before after : List Output) : Prop :=
  ∃ output, after = before ++ [output] ∧ output.isFinal ev = true

section Answered

variable {hash : HashFunction} {ev : Event} {before : List Output}

theorem answered_reply {code : Nat} (final : 200 ≤ code) :
    Answered ev before (before ++ [.reply ev code]) :=
  ⟨_,rfl,by simp [Output.isFinal,final]⟩

theorem answered_json (document : Document) :
    Answered ev before (before ++ [.answerWithJson ev document]) :=
  ⟨_,rfl,by simp [Output.isFinal]⟩

end Answered

namespace Manager

variable {hash : HashFunction} {m : Manager} {ev : Event} {method : Method}

theorem authenticate_final (reg : Registry) (now : Nat) :
    200 ≤ reg.authenticate hash ev now := by
  simp only [Registry.authenticate]
  repeat' split
  all_goals decide

/-- A request that is not granted is answered here. -/
theorem vet_answered (hash : HashFunction) (m : Manager) (ev : Event)
    (refused : (m.vet hash ev).2 = none) : Answered ev m.wire (m.vet hash ev).1.wire := by
  rcases m.find_cases ev with ⟨a,reg,found,-⟩ | found | ⟨a,found⟩ <;>
    simp only [vet,found] at refused ⊢
  · cases creds : ev.authorization with
    | none => exact ⟨_,rfl,by simp [Output.isFinal]⟩
    | some given =>
      simp only [creds] at refused ⊢
      split at refused
      · rename_i wrong
        rw [if_pos wrong]
        exact answered_reply (authenticate_final reg m.now)
      · contradiction
  · exact answered_reply (by decide)
  · exact answered_reply (by decide)

/-- Of the granted requests one is answered here. -/
theorem requestOf_wire (hash : HashFunction) (m : Manager) (method : Method) (ev : Event) :
    (m.requestOf hash method ev).wire = (m.vet hash ev).1.wire ++
      if (m.vet hash ev).2.isSome ∧ method = .ackPending then [.reply ev Sip.ok] else [] := by
  cases method <;>
    simp only [requestOf,requestRoster,requestProfile,requestCoverage,requestForwarding,
      requestAdmin,requestDrop,requestMembership,requestTopic,requestDevlist,requestDevkill,
      requestDeauthorize,requestAuthorize,requestPending,request,ackPending] <;>
    rcases m.vet hash ev with ⟨after,_ | reg⟩ <;>
    simp [emit,reply,send]

end Manager

namespace Database

variable {d : Database} {ev : Event} {before : List Output}

/-- A statement, a signal or a roster update sends nothing. -/
theorem foldl_wire {R : Type} (rows : List R) (run : Database → R → Database)
    (silent : ∀ d row, (run d row).wire = d.wire) : (rows.foldl run d).wire = d.wire :=
  foldl_kept (P := fun after => after.wire = d.wire) rows run
    (fun after row holds => (silent after row).trans holds) rfl

@[simp] theorem ite_wire {c : Prop} [Decidable c] {first second : Database} :
    (if c then first else second).wire = if c then first.wire else second.wire := by
  split <;> rfl

@[simp] theorem post_wire (mid : Int) (data : MessageData) (box : Int × Int) :
    (d.post mid data box).wire = d.wire := by
  simp [post]

@[simp] theorem adminMessage_wire (recipient : Int) (text : UString) (sender : Int)
    (display : UString) (expires : Int) :
    (d.adminMessage ev recipient text sender display expires).wire = d.wire :=
  foldl_wire _ _ fun _ _ => post_wire _ _ _

theorem updateProfile_answered (authuser : UString) (endpoint : Int) (extension : ExtensionRow)
    (account : AuthorizeRow) (profile : Profile) : Answered ev d.wire
      (d.updateProfile ev authuser endpoint extension account profile).wire := by
  simp only [updateProfile]
  split
  · exact answered_reply (by decide)
  split
  · exact answered_reply (by decide)
  split
  · exact answered_reply (by decide)
  · simp only [send_wire,updateRoster_wire,runQuery_wire,ite_wire,emit_wire,ite_self]
    exact answered_json _

theorem sendProfile_answered (d : Database) (ev : Event) (authuser : UString) (endpoint : Int) :
    Answered ev d.wire (d.sendProfile ev authuser endpoint).wire := by
  simp only [sendProfile]
  split
  · exact answered_reply (by decide)
  split
  · exact answered_reply (by decide)
  split
  · exact answered_json _
  · exact updateProfile_answered _ _ _ _ _

/-- The profile is the answer to a request that has changed the tables before. -/
theorem sendProfile_after {after : Database} (silent : after.wire = d.wire) (authuser : UString)
    (endpoint : Int) : Answered ev d.wire (after.sendProfile ev authuser endpoint).wire :=
  silent ▸ sendProfile_answered after ev authuser endpoint

theorem found_final {code : Nat} (refused : d.found ev = .error code) : 200 ≤ code := by
  simp only [found] at refused
  split at refused
  · cases refused; decide
  · split at refused <;> cases refused
    decide

theorem changeAuthorize_answered (d : Database) (ev : Event) :
    Answered ev d.wire (d.changeAuthorize ev).wire := by
  simp only [changeAuthorize]
  split
  · exact answered_reply (by decide)
  split
  · exact answered_reply (by decide)
  split
  · split
    · exact answered_reply (by decide)
    split
    · exact answered_reply (by decide)
    · exact answered_reply (by decide)
  · split
    · exact answered_reply (by decide)
    split
    · exact answered_reply (by decide)
    split
    · exact answered_reply (by decide)
    · exact answered_reply (by decide)

theorem changeTopic_answered (d : Database) (ev : Event) :
    Answered ev d.wire (d.changeTopic ev).wire := by
  simp only [changeTopic]
  split
  · exact answered_reply (by decide)
  split
  · exact answered_reply (by decide)
  split
  · simp only [adminMessage_wire,reply_wire]
    exact answered_reply (by decide)
  split
  · exact answered_reply (by decide)
  · rw [foldl_wire _ _ fun _ _ => adminMessage_wire _ _ _ _ _,reply_wire]
    exact answered_reply (by decide)

theorem changeForwarding_answered (d : Database) (ev : Event) (authuser : UString)
    (endpoint : Int) : Answered ev d.wire (d.changeForwarding ev authuser endpoint).wire := by
  simp only [changeForwarding]
  split
  · rename_i refused
    exact answered_reply (found_final refused)
  split
  · exact answered_reply (by decide)
  split
  · exact answered_reply (by decide)
  split
  · exact answered_reply (by decide)
  split
  · exact answered_reply (by decide)
  split
  · exact sendProfile_after rfl _ _
  split
  · exact sendProfile_after rfl _ _
  split
  · exact sendProfile_after rfl _ _
  · exact answered_reply (by decide)

@[simp] theorem cover_wire (authuser : UString) (account : AuthorizeRow) (priority : Int) :
    (d.cover ev authuser account priority).wire = d.wire := by
  simp [cover]

theorem changeCoverage_answered (d : Database) (ev : Event) (authuser : UString)
    (endpoint : Int) : Answered ev d.wire (d.changeCoverage ev authuser endpoint).wire := by
  rw [changeCoverage_eq]
  split
  · rename_i refused
    exact answered_reply (found_final refused)
  split
  · exact answered_reply (by decide)
  split
  · exact answered_reply (by decide)
  · exact sendProfile_after (cover_wire _ _ _) _ _

theorem dropExtension_answered (d : Database) (ev : Event) (authuser : UString)
    (endpoint : Int) : Answered ev d.wire (d.dropExtension ev authuser endpoint).wire := by
  simp only [dropExtension]
  split
  · rename_i refused
    exact answered_reply (found_final refused)
  split
  · exact answered_reply (by decide)
  split
  · exact answered_reply (by decide)
  · rw [disconnect_wire]
    exact sendProfile_answered d ev authuser endpoint

@[simp] theorem changeSystem_wire : (d.changeSystem ev).wire = d.wire := by
  simp only [changeSystem]
  split
  · rfl
  · split <;> rfl

theorem changeSuspend_answered (d : Database) (ev : Event) (authuser : UString) (endpoint : Int)
    (account : AuthorizeRow) (suspend : Bool) :
    Answered ev d.wire (d.changeSuspend ev authuser endpoint account suspend).wire := by
  simp only [changeSuspend]
  split
  · rw [disconnect_wire]
    exact sendProfile_after rfl _ _
  · exact sendProfile_after rfl _ _

theorem changeAdmin_answered (d : Database) (ev : Event) (authuser : UString)
    (endpoint : Int) : Answered ev d.wire (d.changeAdmin ev authuser endpoint).wire := by
  rw [changeAdmin_eq]
  split
  · rename_i refused
    exact answered_reply (found_final refused)
  split
  · exact answered_reply (by decide)
  split
  · exact sendProfile_after changeSystem_wire _ _
  split
  · rw [reply_wire,changeSystem_wire]
    exact answered_reply (by decide)
  · have suspended := changeSuspend_answered (d.changeSystem ev) ev authuser endpoint
    rw [changeSystem_wire] at suspended
    exact suspended _ _

@[simp] theorem replaceMembers_wire (account : AuthorizeRow) :
    (d.replaceMembers ev account).wire = d.wire := by
  have filled (members : List Int) (start : Database) : (members.foldl (fun d member => d.runQuery
      (·.insertGroup { grpnbr := target ev, extnbr := member })) start).wire = start.wire :=
    foldl_wire members _ fun _ _ => runQuery_wire _
  simp [replaceMembers,filled]

@[simp] theorem notifyMembers_wire (display : UString) :
    (d.notifyMembers ev display).wire = d.wire := by
  simp only [notifyMembers]
  split
  · rfl
  · exact foldl_wire _ _ fun _ _ => adminMessage_wire _ _ _ _ _

theorem changeMembership_answered (d : Database) (ev : Event) (authuser : UString)
    (endpoint : Int) : Answered ev d.wire (d.changeMembership ev authuser endpoint).wire := by
  rw [changeMembership_eq]
  split
  · rename_i refused
    exact answered_reply (found_final refused)
  split
  · exact answered_reply (by decide)
  split
  · exact answered_reply (by decide)
  · rw [notifyMembers_wire]
    exact sendProfile_after (replaceMembers_wire _) _ _

theorem removeDevice_answered (d : Database) (ev : Event) (authuser : UString)
    (endpoint : Int) : Answered ev d.wire (d.removeDevice ev authuser endpoint).wire := by
  simp only [removeDevice]
  split
  · exact answered_reply (by decide)
  split
  · exact answered_reply (by decide)
  split
  · exact answered_reply (by decide)
  split
  · exact answered_reply (by decide)
  · exact sendProfile_after rfl _ _

theorem sendPending_answered (d : Database) (ev : Event) (endpoint : Int) :
    Answered ev d.wire (d.sendPending ev endpoint).wire := by
  simp only [sendPending]
  split
  · exact answered_reply (by decide)
  · exact answered_json _

theorem removeAuthorization_answered (d : Database) (ev : Event) :
    Answered ev d.wire (Authorize.removeAuthorization d ev).wire := by
  simp only [Authorize.removeAuthorization]
  split
  · exact answered_reply (by decide)
  split
  · exact answered_reply (by decide)
  split
  · exact answered_reply (by decide)
  · rw [updateRoster_wire,foldl_wire _ _ fun _ _ => runQuery_wire _]
    exact answered_reply (by decide)

/-- The slot of a granted request answers it, unless the manager has. -/
theorem handle_answered (d : Database) (ev : Event) (reg : Registry) (method : Method)
    (here : method ≠ .ackPending) :
    Answered ev d.wire (d.handle (Method.signal ev reg method)).wire := by
  cases method with
  | ackPending => contradiction
  | roster => exact answered_json _
  | devlist => exact answered_json _
  | profile => exact sendProfile_answered d ev _ _
  | coverage => exact changeCoverage_answered d ev _ _
  | forwarding => exact changeForwarding_answered d ev _ _
  | admin => exact changeAdmin_answered d ev _ _
  | drop => exact dropExtension_answered d ev _ _
  | membership => exact changeMembership_answered d ev _ _
  | topic => exact changeTopic_answered d ev
  | devkill => exact removeDevice_answered d ev _ _
  | deauthorize => exact removeAuthorization_answered d ev
  | authorize => exact changeAuthorize_answered d ev
  | pending => exact sendPending_answered d ev _

end Database

theorem Method.name_injective : Function.Injective Method.name := by
  intro first second
  cases first <;> cases second <;> decide

structure Event.Managing (ev : Event) : Prop where
  method : ∃ method : Method, ev.method = method.name
  addressed : ev.toUser ≠ none

namespace Context

variable {ev : Event} {method : Method}

theorem find_name (named : ev.method = method.name) :
    Method.all.find? (fun other => ev.method = other.name) = some method := by
  rw [named]
  cases method <;> decide

theorem name_ne_register (named : ev.method = method.name) : ev.method ≠ "REGISTER" := by
  rw [named]
  cases method <;> decide

theorem process_refused {code : Nat} (named : ev.method = method.name)
    (refused : refusal (checks method ev) = some code) : process ev = (some code,none) := by
  simp only [process,name_ne_register named,if_false,find_name named,refused]

theorem process_passed (named : ev.method = method.name)
    (passed : refusal (checks method ev) = none) : process ev =
      if ev.context.netProto = .tcp then (none,some (.request method ev)) else (none,none) := by
  simp only [process,name_ne_register named,if_false,find_name named,passed]

theorem refusal_final {code : Nat} (refused : refusal (checks method ev) = some code) :
    200 ≤ code := by
  obtain ⟨check,found,rfl⟩ := Option.map_eq_some_iff.mp refused
  have member := List.mem_of_find?_eq_some found
  cases method <;>
  · simp only [checks,List.mem_cons,List.not_mem_nil,or_false] at member
    rcases member with rfl | rfl | rfl | rfl <;> exact Nat.le_of_ble_eq_true rfl

/-- One of the lists of checks leaves the transport out. -/
theorem checks_tcp (passed : refusal (checks method ev) = none) (here : method ≠ .ackPending) :
    ev.context.netProto = .tcp := by
  rw [refusal_none] at passed
  cases method with
  | ackPending => contradiction
  | _ =>
    simp [checks] at passed
    grind

theorem ackPending_passed : refusal (checks .ackPending ev) = none ↔
    1 ≤ ev.number ∧ ev.label ≠ "NONE" := by
  simp [refusal_none,checks]

end Context

namespace Server

/-- All that is sent for a request on its way: by its context, by the manager's slot and
by the slots of the database threads that the manager signals. -/
def answers (hash : HashFunction) (m : Manager) (d : Database) (ev : Event) (fresh : Nonce) :
    List Output :=
  let (answer,slot) := Context.process ev
  let sent := (answer.map fun code => Output.reply ev code).toList
  match slot with
  | none => sent
  | some slot =>
    let m := { m with wire := [], emitted := [] }.handle hash slot fresh
    sent ++ m.wire ++ (m.emitted.foldl Database.handle { d with wire := [] }).wire

variable {hash : HashFunction} {m : Manager} {d : Database} {ev : Event} {fresh : Nonce}

theorem answers_refused {code : Nat} (refused : Context.process ev = (some code,none)) :
    answers hash m d ev fresh = [.reply ev code] := by
  simp [answers,refused]

/-- The manager and the slot that it signals answer once between them. -/
theorem answers_received {method : Method}
    (received : Context.process ev = (none,some (.request method ev))) :
    AnsweredOnce ev (answers hash m d ev fresh) := by
  have wire := Manager.requestOf_wire hash { m with wire := [], emitted := [] } method ev
  have emitted := Manager.requestOf_emitted hash { m with wire := [], emitted := [] } method ev
  simp only [answers,received,Option.map_none,Option.toList_none,List.nil_append,Manager.handle]
  rw [wire,emitted]
  rcases Manager.vet_cases hash { m with wire := [], emitted := [] } ev with
    ⟨refused,silent⟩ | ⟨a,reg,granted,-⟩
  · obtain ⟨output,sent,final⟩ := Manager.vet_answered hash _ ev refused
    exact ⟨output,by simp [refused,silent,sent],final⟩
  · simp only [granted,Option.isSome_some,true_and,List.nil_append,Option.map_some,
      Option.toList_some,List.foldl_cons,List.foldl_nil]
    by_cases here : method = .ackPending
    · subst here
      exact ⟨.reply ev Sip.ok,by simp [Method.signal,Database.handle,Database.changePending],
        by simp [Output.isFinal,Sip.ok]⟩
    · obtain ⟨output,sent,final⟩ := Database.handle_answered { d with wire := [] } ev reg method here
      exact ⟨output,by simp [here,sent],final⟩

/-- A management request is answered with one final response, unless it acknowledges
pending messages by a context that the manager's slot is not connected to: of the checks
of the requests, only those of this one leave the transport out. -/
theorem management_answered_iff (hash : HashFunction) (m : Manager) (d : Database) (ev : Event)
    (fresh : Nonce) (managing : ev.Managing) :
    AnsweredOnce ev (answers hash m d ev fresh) ↔
      ¬(ev.method = Method.ackPending.name ∧ ev.context.netProto ≠ .tcp ∧
        1 ≤ ev.number ∧ ev.label ≠ "NONE") := by
  obtain ⟨method,named⟩ := managing.method
  cases passed : Context.refusal (Context.checks method ev) with
  | some code =>
    have way := Context.process_refused named passed
    have final := Context.refusal_final passed
    refine iff_of_true ⟨_,answers_refused way,by simp [Output.isFinal,final]⟩ ?_
    rintro ⟨acknowledging,-,number,label⟩
    obtain rfl : method = .ackPending := Method.name_injective (named.symm.trans acknowledging)
    rw [Context.ackPending_passed.mpr ⟨number,label⟩] at passed
    contradiction
  | none =>
    have way := Context.process_passed named passed
    by_cases tcp : ev.context.netProto = .tcp
    · simp only [tcp,if_true] at way
      exact iff_of_true (answers_received way) fun unheard => unheard.2.1 tcp
    · simp only [tcp,if_false] at way
      refine iff_of_false ?_ (not_not.mpr ?_)
      · rintro ⟨output,sent,-⟩
        simp [answers,way] at sent
      · obtain rfl : method = .ackPending := by
          by_contra other
          exact tcp (Context.checks_tcp passed other)
        exact ⟨named,tcp,Context.ackPending_passed.mp passed⟩

/-- A labelled device acknowledges its pending messages over UDP. -/
def udpAcknowledgement : Event :=
  { Site.request "A-PENDING" with
    context := { index := 1, proto := .UDP }
    toUser := some "101"
    toLocal := true }

theorem acknowledgement_unanswered : ¬AnsweredOnce udpAcknowledgement
    (answers Site.hash {} { tables := Site.tables } udpAcknowledgement (Site.nonce 0)) := by
  have silent : answers Site.hash {} { tables := Site.tables } udpAcknowledgement (Site.nonce 0) = [] := by
    decide +kernel
  rw [silent]
  rintro ⟨output,sent,-⟩
  contradiction

theorem management_answered_iff_roster : AnsweredOnce { Site.request "X-ROSTER" with toUser := some "101" }
    (answers Site.hash {} { tables := Site.tables }
      { Site.request "X-ROSTER" with toUser := some "101" } (Site.nonce 0)) :=
  (management_answered_iff Site.hash {} { tables := Site.tables }
    { Site.request "X-ROSTER" with toUser := some "101" } (Site.nonce 0)
    ⟨⟨.roster,rfl⟩,by decide⟩).mpr (by decide)

end Server

/-- What an answer does that is handed to the server's transaction: the first final response is
sent, and the ones behind it are dropped. -/
def transmitted (ev : Event) (calls : List Output) : List Output :=
  (calls.find? fun output => output.isFinal ev).toList

/-- The answers to a MESSAGE in an order they can be given in. The context signals the slot of
the database in front of its last answer, and the slot runs in a thread of its own. No slot is
connected to the signal for remote targets. -/
def MessageCalls (d : Database) (ev : Event) (calls : List Output) : Prop :=
  let (sent,relay) := Context.processMessage ev
  match relay with
  | some .localMessage => ∃ front back, ({ d with wire := [] }.localMessage ev).wire = front ++ back ∧
      calls = sent.dropLast ++ (front ++ (sent.getLast?.toList ++ back))
  | _ => calls = sent

/-- A labelled device's message is accepted when it is signalled, the others are stored
when the table of messages has a new row. -/
def MessageStored (d : Database) (ev : Event) : Prop :=
  (Context.processMessage ev).2 = some .localMessage ∧
    (ev.isLabeled = true ∨ ∃ row ∈ (d.localMessage ev).tables.messages, row ∉ d.tables.messages)

/-- The message is answered once, and with success when it was stored, in whatever order
the threads answer. -/
def MessageAnswered (d : Database) (ev : Event) : Prop :=
  ∀ calls, MessageCalls d ev calls → ∃ output, transmitted ev calls = [output] ∧
    (output.isSuccess = true ↔ MessageStored d ev)

structure Database.Delivers (d : Database) (ev : Event) : Prop where
  sender : 0 < ev.number → d.tables.endpointsOf ev.number ≠ []
  targets : d.addressed (d.targets ev (ev.toUser.getD [])) ≠ []

structure Event.Relayed (ev : Event) : Prop where
  addressed : ev.toUser ≠ none
  toLocal : ev.toLocal = true
  text : ev.number < 0 ∨ ev.fromUser ≠ [] ∧ ev.contentType = "text/plain" ∧ ev.body.length ≤ 160

namespace Context

variable {ev : Event}

/-- A message that is not signalled is refused, also when it is for a remote target.
Behind the signal the context answers as for a method it does not know. -/
theorem processMessage_cases (ev : Event) :
    (∃ code relay, processMessage ev = ([.reply ev code],relay) ∧
      relay ≠ some .localMessage ∧ 300 ≤ code ∧ ¬ev.Relayed) ∨
    (processMessage ev = ((if ev.isLabeled then [.answerWithTimestamp ev Sip.ok] else []) ++
      [.reply ev Sip.notAcceptableHere],some .localMessage) ∧ ev.Relayed) := by
  simp only [processMessage]
  split
  · rename_i addressless
    exact .inl ⟨_,_,rfl,by decide,by decide,fun relayed => relayed.addressed addressless⟩
  rename_i addressed
  split
  · rename_i foreign
    refine .inl ⟨_,_,rfl,by decide,by decide,fun relayed => ?_⟩
    rw [relayed.toLocal] at foreign
    exact absurd foreign.2 (by decide)
  split
  · rename_i stranger
    have unlabelled : ev.isLabeled = false := by
      simp [Event.isLabeled]
      omega
    exact .inr ⟨by simp [unlabelled],addressed,stranger.1,.inl stranger.2⟩
  rename_i known
  have sms (relayed : ev.Relayed) :
      ev.fromUser ≠ [] ∧ ev.contentType = "text/plain" ∧ ev.body.length ≤ 160 :=
    relayed.text.resolve_left fun stranger => known ⟨relayed.toLocal,stranger⟩
  split
  · rename_i nameless
    exact .inl ⟨_,_,rfl,by decide,by decide,fun relayed => (sms relayed).1 nameless⟩
  rename_i named
  split
  · rename_i other
    refine .inl ⟨_,_,rfl,by decide,by decide,fun relayed => ?_⟩
    rcases other with type | long
    · exact type (sms relayed).2.1
    · exact absurd (sms relayed).2.2 (by omega)
  rename_i short
  rw [not_or,not_not,not_lt] at short
  split
  · rename_i toLocal
    exact .inr ⟨rfl,addressed,toLocal,.inr ⟨named,short⟩⟩
  · rename_i remote
    exact .inl ⟨_,_,rfl,by decide,by decide,fun relayed => remote relayed.toLocal⟩

end Context

namespace Database

variable {d : Database} {ev : Event}

theorem foldl_post_wire (mid : Int) (data : MessageData) (boxes : List (Int × Int)) :
    (boxes.foldl (fun d box => d.post mid data box) d).wire = d.wire :=
  foldl_wire boxes _ fun _ _ => post_wire mid data _

theorem foldl_scan_count (rows : List EndpointRow) (acc : Scan) :
    (rows.foldl (scan ev) acc).count = acc.count + rows.length := by
  induction rows generalizing acc with
  | nil => rfl
  | cons row rest ih =>
    have step : (scan ev acc row).count = acc.count + 1 := by
      simp only [scan]
      repeat' split
      all_goals rfl
    rw [List.foldl_cons,ih,step,List.length_cons]
    omega

theorem scanSender_count (sender : 0 < ev.number) :
    (d.scanSender ev).count = 0 ↔ d.tables.endpointsOf ev.number = [] := by
  rw [scanSender,if_pos sender,foldl_scan_count]
  simp

/-- Without a label the endpoints to send to are those of the extensions addressed. -/
theorem sendList_nil (waiting : ev.isLabeled = false) :
    d.sendList ev = [] ↔ d.addressed (d.targets ev (ev.toUser.getD [])) = [] := by
  rw [sendList,scanSender_sendList,waiting,List.eq_nil_iff_forall_not_mem]
  simp only [mem_foldl_insert,List.eq_nil_iff_forall_not_mem]
  grind

/-- The slot tells a client that is still waiting whether its message was stored. -/
theorem localMessage_answered (d : Database) (ev : Event) (waiting : ev.isLabeled = false) :
    ∃ output, (d.localMessage ev).wire = d.wire ++ [output] ∧ output.isFinal ev = true ∧
      (output.isSuccess = true ↔ d.Delivers ev) ∧
      ((∃ row ∈ (d.localMessage ev).tables.messages, row ∉ d.tables.messages) ↔ d.Delivers ev) := by
  have refused (code : Nat) (final : 300 ≤ code) (unheard : ¬d.Delivers ev) : ∃ output,
      (d.reply ev code).wire = d.wire ++ [output] ∧ output.isFinal ev = true ∧
      (output.isSuccess = true ↔ d.Delivers ev) ∧
      ((∃ row ∈ (d.reply ev code).tables.messages, row ∉ d.tables.messages) ↔ d.Delivers ev) := by
    refine ⟨_,rfl,?_,?_,?_⟩
    · simp [Output.isFinal]
      omega
    · exact iff_of_false (by simp [Output.isSuccess]; omega) unheard
    · refine iff_of_false ?_ unheard
      rintro ⟨row,known,new⟩
      exact new known
  have addressed := sendList_nil (d := d) waiting
  simp only [localMessage]
  split
  · rename_i unknown
    exact refused _ (by decide) fun delivers =>
      delivers.sender unknown.1 ((scanSender_count unknown.1).mp unknown.2)
  rename_i known
  split
  · rename_i nobody
    exact refused _ (by decide) fun delivers => delivers.targets (by rw [nobody.1]; rfl)
  · change ∃ output, (d.storeLocal ev (d.scanSender ev) (d.sendList ev)).wire = _ ∧ _ ∧ _ ∧
      ((∃ row ∈ (d.storeLocal ev (d.scanSender ev) (d.sendList ev)).tables.messages,_) ↔ _)
    simp only [storeLocal]
    split
    · rename_i none
      rw [waiting]
      exact refused _ (by decide) fun delivers => delivers.targets (addressed.mp none)
    · rename_i some_
      have delivers : d.Delivers ev := ⟨fun sender none => known ⟨sender,(scanSender_count sender).mpr none⟩,
        fun none => some_ (addressed.mpr none)⟩
      refine ⟨.reply ev Sip.ok,?_,by simp [Output.isFinal,Sip.ok],iff_of_true rfl delivers,?_⟩
      · rw [foldl_post_wire,waiting]
        rfl
      · refine iff_of_true ?_ delivers
        rw [foldl_messages,waiting]
        refine ⟨_,Serial.mem_insert.mpr (.inr ⟨messages_accept d.tables _ rfl,rfl⟩),?_⟩
        intro known
        have fresh : d.tables.messages.next < d.tables.messages.next :=
          (d.tables.messages.issued _ known).2
        exact absurd fresh (Int.lt_irrefl _)

end Database

theorem transmitted_cons {ev : Event} {output : Output} {rest : List Output}
    (final : output.isFinal ev = true) : transmitted ev (output :: rest) = [output] := by
  rw [transmitted,List.find?_cons_of_pos final]
  rfl

/-- A message is answered as its sender is told to expect unless it is stored for a sender that
has not been answered yet: control runs on from the branch of the MESSAGE to the refusal of
unknown methods, and that can be the first answer. -/
theorem message_answered_iff (d : Database) (ev : Event) :
    MessageAnswered d ev ↔ ¬(ev.Relayed ∧ ev.isLabeled = false ∧ d.Delivers ev) := by
  rcases Context.processMessage_cases ev with ⟨code,relay,sent,other,final,refused⟩ | ⟨sent,relayed⟩
  · refine iff_of_true (fun calls given => ?_) fun stored => refused stored.1
    have called : calls = [.reply ev code] := by
      cases relay with
      | none => simpa only [MessageCalls,sent] using given
      | some relay =>
        cases relay with
        | localMessage => contradiction
        | outboundMessage => simpa only [MessageCalls,sent] using given
    refine ⟨.reply ev code,?_,iff_of_false (by simp [Output.isSuccess]; omega) fun stored => other ?_⟩
    · rw [called]
      exact transmitted_cons (by simp [Output.isFinal]; omega)
    · exact (congrArg Prod.snd sent).symm.trans stored.1
  · cases waiting : ev.isLabeled with
    | true =>
      -- the answer in front of the signal is the one that is sent
      refine iff_of_true (fun calls given => ?_) (by simp)
      simp only [MessageCalls,sent,waiting] at given
      obtain ⟨front,back,-,rfl⟩ := given
      exact ⟨_,transmitted_cons (by simp [Output.isFinal,Sip.ok]),
        iff_of_true rfl ⟨congrArg Prod.snd sent,.inl waiting⟩⟩
    | false =>
      obtain ⟨answer,more,final,success,stored⟩ :=
        Database.localMessage_answered { d with wire := [] } ev waiting
      have whole : Database.Delivers { d with wire := [] } ev ↔ d.Delivers ev :=
        ⟨fun delivers => ⟨delivers.sender,delivers.targets⟩,
          fun delivers => ⟨delivers.sender,delivers.targets⟩⟩
      rw [whole] at success
      have kept : MessageStored d ev ↔ d.Delivers ev := by
        obtain ⟨-,-,-,-,stored⟩ := Database.localMessage_answered d ev waiting
        rw [MessageStored,sent,waiting,← stored]
        simp
      have refusal : (Output.reply ev Sip.notAcceptableHere).isFinal ev = true := by
        simp [Output.isFinal,Sip.notAcceptableHere]
      simp only [relayed,true_and]
      constructor
      · intro answered delivers
        have given : MessageCalls d ev [.reply ev Sip.notAcceptableHere,answer] := by
          simp only [MessageCalls,sent,waiting]
          exact ⟨[],[answer],more,rfl⟩
        obtain ⟨output,first,told⟩ := answered _ given
        rw [transmitted_cons refusal] at first
        cases List.cons.inj first |>.1
        exact absurd (told.mpr (kept.mpr delivers)) (by simp [Output.isSuccess,Sip.notAcceptableHere])
      · intro missed calls given
        simp only [MessageCalls,sent,waiting] at given
        obtain ⟨front,back,order,rfl⟩ := given
        rw [kept]
        cases front with
        | nil => exact ⟨_,transmitted_cons refusal,
          iff_of_false (by simp [Output.isSuccess,Sip.notAcceptableHere]) missed⟩
        | cons first rest =>
          -- the slot has been faster than the context
          obtain rfl : answer = first := by
            rw [more] at order
            exact (List.cons.inj order).1
          exact ⟨answer,transmitted_cons final,success⟩

def phoneMessage : Event :=
  { Site.request "MESSAGE" with
    label := "NONE"
    toUser := some "101"
    toLocal := true
    fromUser := "101"
    contentType := "text/plain"
    body := "hello" }

/-- The text of a phone is stored, and the phone is told that it is not acceptable. -/
theorem phoneMessage_refused : ¬MessageAnswered { tables := Site.tables } phoneMessage := by
  have given : MessageCalls { tables := Site.tables } phoneMessage
      [.reply phoneMessage Sip.notAcceptableHere,.reply phoneMessage Sip.ok] :=
    ⟨[],[.reply phoneMessage Sip.ok],by decide +kernel,by decide +kernel⟩
  have stored : MessageStored { tables := Site.tables } phoneMessage := by
    obtain ⟨-,-,-,-,delivers⟩ :=
      Database.localMessage_answered { tables := Site.tables } phoneMessage rfl
    exact ⟨by decide +kernel,.inr (delivers.mpr ⟨fun _ => by decide +kernel,by decide +kernel⟩)⟩
  have first : transmitted phoneMessage
      [.reply phoneMessage Sip.notAcceptableHere,.reply phoneMessage Sip.ok] =
      [.reply phoneMessage Sip.notAcceptableHere] := by
    decide +kernel
  intro answered
  obtain ⟨output,sent,success⟩ := answered _ given
  rw [first] at sent
  obtain rfl := (List.cons.inj sent).1
  exact absurd (success.mpr stored) (by simp [Output.isSuccess,Sip.notAcceptableHere])

end SipWitch
