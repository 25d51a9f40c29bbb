import Mathlib
import SipWitch.Sessions

/-! The topic of a contact, as the admin messages of its session set it. A message that is
added live and one that is loaded get to `setTopic` on different paths. -/
namespace SipWitch.Desktop

structure Topic where
  text : UString
  posted : Option Int
  sequence : Int
  deriving DecidableEq

namespace Topic

def stamp (t : Topic) : Int ×ₗ Int := toLex (msecs t.posted,t.sequence)

/-- The later topic, and the one that was there before when both are as late. -/
def offer (t new : Topic) : Topic := if t.stamp < new.stamp then new else t

theorem offer_offer (t new : Topic) : (t.offer new).offer new = t.offer new := by
  by_cases later : t.stamp < new.stamp <;> simp [offer,later]

theorem offer_later (t new : Topic) : t.offer new = t ∨ t.stamp < (t.offer new).stamp := by
  by_cases later : t.stamp < new.stamp <;> simp [offer,later]

/-- Another topic comes in its place only if it is later. -/
theorem foldl_offer_later (news : List Topic) (t : Topic) :
    news.foldl offer t = t ∨ t.stamp < (news.foldl offer t).stamp := by
  induction news generalizing t with
  | nil => exact .inl rfl
  | cons new rest ih =>
    rw [List.foldl_cons]
    rcases offer_later t new with same | later
    · rw [same]
      exact ih t
    · right
      rcases ih (t.offer new) with same | later'
      · rwa [same]
      · exact later.trans later'

theorem foldl_offer (news : List Topic) (t : Topic) :
    List.argmax stamp (t :: news) = some (news.foldl offer t) := by
  induction news generalizing t with
  | nil => rfl
  | cons new rest ih =>
    rw [List.foldl_cons,← ih]
    by_cases later : t.stamp < new.stamp <;> simp [List.argmax,List.argAux,offer,later]

end Topic

def MessageItem.topic (item : MessageItem) : Topic := ⟨item.msgSubject,some item.dateTime,item.dateSequence⟩

inductive TopicEvent where
  | addMessage (item : MessageItem)
  | loadMessages (records : List MessageItem)
  | restart

namespace TopicEvent

def items : TopicEvent → List MessageItem
  | .addMessage item => [item]
  | .loadMessages records => records
  | .restart => []

def live : TopicEvent → List MessageItem
  | .addMessage item => [item]
  | _ => []

def offers : TopicEvent → List MessageItem
  | .addMessage item => if item.msgType = .ADMIN then [item] else []
  | .loadMessages records => records.filter fun item => item.msgType = .ADMIN ∧ item.msgSubject ≠ []
  | .restart => []

theorem live_items (event : TopicEvent) (item : MessageItem) (member : item ∈ event.live) :
    item ∈ event.items := by
  cases event with
  | addMessage other => exact member
  | _ => simp [live] at member

theorem mem_offers (event : TopicEvent) (item : MessageItem) : item ∈ event.offers ↔
    item ∈ event.items ∧ item.msgType = .ADMIN ∧ (item.msgSubject ≠ [] ∨ item ∈ event.live) := by
  cases event with
  | addMessage other =>
    by_cases admin : other.msgType = .ADMIN <;> simp [offers,items,live,admin]
    · rintro rfl
      exact ⟨admin,.inr rfl⟩
    · rintro rfl
      simp [admin]
  | loadMessages records => simp [offers,items,live]
  | restart => simp [offers,items]

end TopicEvent

namespace ContactState

variable {s : ContactState} {item : MessageItem}

def held (s : ContactState) : Topic := ⟨s.contactTopic,s.topicUpdated,s.topicSequence⟩

def kept (s : ContactState) : Topic := ⟨s.topic,s.tsync.read,s.tseq⟩

def hear (s : ContactState) : TopicEvent → ContactState
  | .addMessage item => s.addMessage item
  | .loadMessages records => s.load records
  | .restart => s.reload.opened

theorem setTopic_held (text : UString) (posted sequence : Int) :
    (s.setTopic text posted sequence).held = s.held.offer ⟨text,some posted,sequence⟩ := by
  have later : s.held.stamp < (Topic.mk text (some posted) sequence).stamp ↔
      ¬posted < msecs s.topicUpdated ∧ ¬(posted = msecs s.topicUpdated ∧ sequence ≤ s.topicSequence) := by
    rw [Topic.stamp,Topic.stamp,Prod.Lex.toLex_lt_toLex]
    simp only [held,msecs,Option.getD_some]
    omega
  by_cases early : posted < msecs s.topicUpdated
  · rw [Topic.offer,if_neg fun after => (later.mp after).1 early]
    simp [setTopic,onSession,early,held]
  · by_cases behind : posted = msecs s.topicUpdated ∧ sequence ≤ s.topicSequence
    · rw [Topic.offer,if_neg fun after => (later.mp after).2 behind]
      simp [setTopic,onSession,behind,held]
    · rw [Topic.offer,if_pos (later.mpr ⟨early,behind⟩)]
      simp [setTopic,onSession,early,behind,held]

theorem setTopic_kept (synced : s.kept = s.held) (text : UString) (posted sequence : Int) :
    (s.setTopic text posted sequence).kept = (s.setTopic text posted sequence).held := by
  by_cases early : posted < msecs s.topicUpdated
  · simpa [setTopic,onSession,early,held,kept] using synced
  · by_cases behind : posted = msecs s.topicUpdated ∧ sequence ≤ s.topicSequence
    · simpa [setTopic,onSession,behind,held,kept] using synced
    · simp [setTopic,onSession,early,behind,held,kept,DateColumn.read]

theorem add_held : (s.add item).held =
    if item.msgType = .ADMIN ∧ item.msgSubject ≠ [] then s.held.offer item.topic else s.held := by
  simp only [add]
  split
  · exact setTopic_held ..
  · rfl

theorem add_kept (synced : s.kept = s.held) : (s.add item).kept = (s.add item).held := by
  simp only [add]
  split
  · exact setTopic_kept (s := s.onSession _) synced ..
  · exact synced

theorem addMessage_held : (s.addMessage item).held =
    if item.msgType = .ADMIN then s.held.offer item.topic else s.held := by
  have noted : ((s.add item).noteTopic item).held =
      if item.msgType = .ADMIN then s.held.offer item.topic else s.held := by
    rw [noteTopic]
    by_cases admin : item.msgType = .ADMIN
    · rw [if_pos admin,if_pos admin,setTopic_held,add_held]
      split
      · exact Topic.offer_offer ..
      · rfl
    · rw [if_neg admin,if_neg admin,add_held,if_neg fun set => admin set.1]
  rw [← noted]
  simp only [addMessage]
  split <;> rfl

theorem addMessage_kept (synced : s.kept = s.held) : (s.addMessage item).kept = (s.addMessage item).held := by
  have noted : ((s.add item).noteTopic item).kept = ((s.add item).noteTopic item).held := by
    rw [noteTopic]
    split
    · exact setTopic_kept (add_kept synced) ..
    · exact add_kept synced
  simp only [addMessage]
  split <;> exact noted

theorem foldl_add_held (records : List MessageItem) : (records.foldl add s).held =
    (((TopicEvent.loadMessages records).offers).map MessageItem.topic).foldl Topic.offer s.held := by
  induction records generalizing s with
  | nil => rfl
  | cons item rest ih =>
    rw [List.foldl_cons,ih,add_held]
    by_cases set : item.msgType = .ADMIN ∧ item.msgSubject ≠ [] <;> simp [TopicEvent.offers,set]

theorem foldl_add_kept (records : List MessageItem) (synced : s.kept = s.held) :
    (records.foldl add s).kept = (records.foldl add s).held := by
  induction records generalizing s with
  | nil => exact synced
  | cons item rest ih => exact ih (add_kept synced)

theorem hear_held (synced : s.kept = s.held) (event : TopicEvent) :
    (s.hear event).held = (event.offers.map MessageItem.topic).foldl Topic.offer s.held := by
  cases event with
  | addMessage item =>
    rw [hear,addMessage_held,TopicEvent.offers]
    split <;> rfl
  | loadMessages records =>
    rw [← foldl_add_held,hear,load]
    split <;> rfl
  | restart => exact synced

theorem hear_kept (synced : s.kept = s.held) (event : TopicEvent) : (s.hear event).kept = (s.hear event).held := by
  cases event with
  | addMessage item => exact addMessage_kept synced
  | loadMessages records =>
    have loaded := foldl_add_kept records synced
    rw [hear,load]
    split <;> exact loaded
  | restart => rfl

/-- The topic after a history is one of those offered, or the one from before. -/
theorem foldl_hear (synced : s.kept = s.held) (history : List TopicEvent) :
    (history.foldl hear s).kept = (history.foldl hear s).held ∧ (history.foldl hear s).held =
      ((history.flatMap TopicEvent.offers).map MessageItem.topic).foldl Topic.offer s.held := by
  induction history generalizing s with
  | nil => exact ⟨synced,rfl⟩
  | cons event rest ih =>
    obtain ⟨after,topic⟩ := ih (hear_kept synced event)
    rw [hear_held synced] at topic
    refine ⟨after,topic.trans ?_⟩
    rw [List.flatMap_cons,List.map_append,List.foldl_append]

/-- The contact has the topic of the message, in memory and in its row. -/
structure Carries (s : ContactState) (item : MessageItem) : Prop where
  contactTopic : s.contactTopic = item.msgSubject
  topicUpdated : s.topicUpdated = some item.dateTime
  topicSequence : s.topicSequence = item.dateSequence
  topic : s.topic = item.msgSubject
  tsync : s.tsync = .date item.dateTime
  tseq : s.tseq = item.dateSequence

theorem carries_iff (synced : s.kept = s.held) : Carries s item ↔ s.held = item.topic := by
  constructor
  · intro carries
    rw [held,MessageItem.topic,carries.contactTopic,carries.topicUpdated,carries.topicSequence]
  · intro same
    have row := synced.trans same
    simp only [held,kept,MessageItem.topic,Topic.mk.injEq] at same row
    refine ⟨same.1,same.2.1,same.2.2,row.1,?_,row.2.2⟩
    cases read : s.tsync <;> simp_all [DateColumn.read]

/-- Of the topics in the messages of a session, the latest one is that of the contact, unless
a later message without a topic was added live, or the contact had a later topic before. -/
theorem topic_latest {history : List TopicEvent} {latest : MessageItem} (synced : s.kept = s.held)
    (heard : latest ∈ history.flatMap TopicEvent.items) (admin : latest.msgType = .ADMIN)
    (subject : latest.msgSubject ≠ [])
    (greatest : ∀ item ∈ history.flatMap TopicEvent.items, item.msgType = .ADMIN → item.msgSubject ≠ [] →
      item.topic.stamp ≤ latest.topic.stamp)
    (distinct : ∀ item ∈ history.flatMap TopicEvent.items, ∀ other ∈ history.flatMap TopicEvent.items,
      item.msgType = .ADMIN → other.msgType = .ADMIN → item.topic.stamp = other.topic.stamp →
        item.msgSubject = other.msgSubject) :
    Carries (history.foldl hear s) latest ↔
      (∀ item ∈ history.flatMap TopicEvent.live, item.msgType = .ADMIN → item.msgSubject = [] →
        item.topic.stamp < latest.topic.stamp) ∧
      (s.held.stamp < latest.topic.stamp ∨ s.held = latest.topic) := by
  obtain ⟨synced',topic⟩ := foldl_hear synced history
  rw [carries_iff synced',topic]
  have offered (item : MessageItem) : item ∈ history.flatMap TopicEvent.offers ↔
      ∃ event ∈ history, item ∈ event.items ∧ item.msgType = .ADMIN ∧
        (item.msgSubject ≠ [] ∨ item ∈ event.live) := by
    simp only [List.mem_flatMap,TopicEvent.mem_offers]
  have news (item : MessageItem) (member : item ∈ history.flatMap TopicEvent.offers) :
      item.topic ∈ s.held :: (history.flatMap TopicEvent.offers).map MessageItem.topic :=
    List.mem_cons_of_mem _ (List.mem_map_of_mem member)
  have best := Topic.foldl_offer ((history.flatMap TopicEvent.offers).map MessageItem.topic) s.held
  have later := Topic.foldl_offer_later ((history.flatMap TopicEvent.offers).map MessageItem.topic) s.held
  generalize ((history.flatMap TopicEvent.offers).map MessageItem.topic).foldl Topic.offer s.held = final
    at best later ⊢
  constructor
  · rintro rfl
    constructor
    · intro item member itemAdmin silent
      obtain ⟨event,past,live⟩ := List.mem_flatMap.mp member
      have items := event.live_items item live
      have reached := (offered item).mpr ⟨event,past,items,itemAdmin,.inr live⟩
      apply lt_of_le_of_ne (List.le_of_mem_argmax (news item reached) best)
      intro same
      exact subject ((distinct item (List.mem_flatMap.mpr ⟨event,past,items⟩) latest heard itemAdmin admin
        same).symm.trans silent)
    · exact later.symm.imp_right Eq.symm
  · rintro ⟨silent,before⟩
    obtain ⟨event,past,items⟩ := List.mem_flatMap.mp heard
    have reached := (offered latest).mpr ⟨event,past,items,admin,.inl subject⟩
    have above := List.le_of_mem_argmax (news latest reached) best
    rcases List.mem_cons.mp (List.argmax_mem best) with rfl | member
    · rcases before with earlier | same
      · exact absurd earlier (not_lt_of_ge above)
      · exact same
    · obtain ⟨item,reached',rfl⟩ := List.mem_map.mp member
      obtain ⟨event',past',items',itemAdmin,nonempty⟩ := (offered item).mp reached'
      have among := List.mem_flatMap.mpr ⟨event',past',items'⟩
      by_cases empty : item.msgSubject = []
      · have live := nonempty.resolve_left (not_not_intro empty)
        have below := silent item (List.mem_flatMap.mpr ⟨event',past',live⟩) itemAdmin empty
        exact absurd below (not_lt_of_ge above)
      · have same := le_antisymm (greatest item among itemAdmin empty) above
        have text := distinct item among latest heard itemAdmin admin same
        rw [Topic.stamp,Topic.stamp,toLex_inj,Prod.mk.injEq] at same
        have sequence : item.dateSequence = latest.dateSequence := same.2
        have posted : item.dateTime = latest.dateTime := same.1
        rw [MessageItem.topic,MessageItem.topic,text,posted,sequence]

def fresh : ContactState := reload {}

def notice (subject : UString) (posted : Int) : MessageItem where
  msgFrom := 2
  msgTo := 1
  msgType := .ADMIN
  msgSubject := subject
  msgBody := []
  dateTime := posted
  dateSequence := 1
  expires := posted + 604800000
  inbox := true

theorem silent_notice_clears :
    ¬Carries ([TopicEvent.addMessage (notice "plans" 1000),.addMessage (notice [] 2000)].foldl hear fresh)
      (notice "plans" 1000) := by
  intro carries
  exact absurd carries.contactTopic (by decide)

theorem topic_latest_loaded :
    Carries ([TopicEvent.addMessage (notice "plans" 1000),.restart,
      .loadMessages [notice [] 2000,notice "plans" 1000]].foldl hear fresh) (notice "plans" 1000) := by
  apply (topic_latest (by decide) (by decide) rfl (by decide) (by decide) (by decide)).mpr
  exact ⟨by decide,.inl (by decide)⟩

end ContactState

end SipWitch.Desktop
