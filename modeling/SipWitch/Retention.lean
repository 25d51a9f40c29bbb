import SipWitch.Mirror
import Mathlib.Data.List.Chain

/-! How long the desktop keeps its messages. Each has a date on which it expires; when the desktop
starts, and once a day, those are deleted that have expired. -/
namespace SipWitch

namespace Util

variable (offset : Int → Int)

def currentDay (now : Int) : Int := (now.tdiv 1000 + offset now).tdiv 86400 % 4294967296

def untilInterval (interval now : Int) : Int := interval - (now + offset now * 1000).tmod interval

def dailyInterval : Int := 86400000

/-- A new interval begins when the last one is over. -/
theorem untilInterval_local {now : Int} (later : 0 ≤ now + offset now * 1000) :
    now + untilInterval offset dailyInterval now + offset now * 1000 =
      ((now + offset now * 1000) / 86400000 + 1) * 86400000 := by
  rw [untilInterval,dailyInterval,Int.tmod_eq_emod_of_nonneg later]
  omega

theorem currentDay_local {now : Int} (later : 0 ≤ now) (here : 0 ≤ now + offset now * 1000) :
    currentDay offset now = (now + offset now * 1000) / 86400000 % 4294967296 := by
  have seconds : 0 ≤ now / 1000 + offset now := by omega
  rw [currentDay,Int.tdiv_eq_ediv_of_nonneg later,Int.tdiv_eq_ediv_of_nonneg seconds]
  congr 1
  omega

end Util

open Desktop Util

/-- The desktop with its timer, which was started first at the time `begun`. -/
structure Retention where
  screen : Screen
  begun : Int
  due : Int
  /-- The times of the daily event. -/
  events : List Int := []

namespace Retention

section Machine

variable (offset : Int → Int) (s : Retention)

def start (d : Desktop) (now : Int) : Retention where
  screen := Screen.start d now
  begun := now
  due := now + untilInterval offset dailyInterval now

inductive Action where
  | move (move : Screen.Move)
  | timeout (now again : Int)
  | restart (now : Int)

/-- The timer is coarse, and may fire before it is due; it is started again when the expired
messages are deleted. -/
def step : Action → Option Retention
  | .move move => (s.screen.step move).map fun screen => { s with screen }
  | .timeout now again =>
    if now ≤ again then some { s with
      screen := { s.screen with desk := s.screen.desk.cleanupExpired now }
      due := again + untilInterval offset dailyInterval again
      events := s.events ++ [now] }
    else none
  | .restart now => some (start offset s.screen.desk now)

end Machine

abbrev Run (offset : Int → Int) := Transition.Run fun s => step offset s

variable {s next final : Retention} {offset : Int → Int} {d d' : Desktop} {uid : Int} {item : MessageItem}

section Expiry

/-- Every message that is stored expires when it is as old as messages get. -/
def Dated (d : Desktop) : Prop := ∀ row ∈ d.messages, row.expires = row.posted + d.expiration * 1000

structure Stores (d d' : Desktop) : Prop where
  expiration : d'.expiration = d.expiration
  rows : ∀ row ∈ d'.messages, row ∈ d.messages ∨ row.expires = row.posted + d.expiration * 1000

theorem Dated.stores (dated : Dated d) (stores : Stores d d') : Dated d' := by
  intro row member
  rw [stores.expiration]
  rcases stores.rows row member with old | new
  · exact dated row old
  · exact new

theorem stores_same (messages : d'.messages = d.messages) (expiration : d'.expiration = d.expiration) :
    Stores d d' :=
  ⟨expiration,fun _ member => .inl (messages ▸ member)⟩

theorem stores_insert (messages : d'.messages = d.messages.insert (rowOf uid item))
    (expiration : d'.expiration = d.expiration) (dated : item.expires = d.expires item.dateTime) : Stores d d' := by
  refine ⟨expiration,fun row member => ?_⟩
  rw [messages,Table.mem_insert] at member
  rcases member with old | ⟨-,rfl⟩
  · exact .inl old
  · exact .inr dated

theorem delivery_dated {arrival : Desktop.Arrival} (found : d.delivery arrival = some (uid,item)) :
    item.expires = d.expires item.dateTime := by
  obtain ⟨sender,-,found⟩ := Option.bind_eq_some_iff.mp found
  obtain ⟨recipient,-,found⟩ := Option.bind_eq_some_iff.mp found
  obtain ⟨-,rfl⟩ := Prod.mk.inj (Option.some.inj found)
  rfl

theorem receiveText_stores (d : Desktop) (arrival : Desktop.Arrival) : Stores d (d.receiveText arrival) := by
  have expiration := (receiveText_book d arrival).expiration
  rcases Option.eq_none_or_eq_some (d.delivery arrival) with unknown | ⟨⟨uid,item⟩,found⟩
  · apply stores_same _ expiration
    rw [receiveText_unknown unknown]
  · exact stores_insert (receiveText_messages found) expiration (delivery_dated found)

theorem finishInput_stores (d : Desktop) (sent : Option Desktop.Sent) : Stores d (d.finishInput sent) := by
  rcases Option.eq_none_or_eq_some d.inputSession with lost | ⟨uid,waiting⟩
  · apply stores_same <;> rw [finishInput_lost lost]
  cases sent with
  | none => apply stores_same <;> rw [finishInput_none]
  | some sent =>
    have touched := finishInput_touched waiting sent
    exact stores_insert touched.messages touched.expiration rfl

theorem activateSession_stores (d : Desktop) (uid now : Int) : Stores d (d.activateSession uid now) := by
  have touched := activateSession_touched d uid now
  exact stores_same touched.messages touched.expiration

theorem remove_stores {s next : Screen} (moved : s.remove uid = some next) : Stores s.desk next.desk := by
  have deleted (d : Desktop) (messages : d.messages = s.desk.messages.delete fun row => row.sid = uid)
      (expiration : d.expiration = s.desk.expiration) : Stores s.desk d := by
    refine ⟨expiration,fun row member => .inl ?_⟩
    rw [messages,Table.mem_delete] at member
    exact member.1
  simp only [Screen.remove] at moved
  split at moved
  · obtain ⟨_,-,moved⟩ := Option.bind_eq_some_iff.mp moved
    obtain rfl := Option.some.inj moved
    exact deleted _ rfl rfl
  · obtain rfl := Option.some.inj moved
    exact deleted _ rfl rfl

theorem move_dated {s next : Screen} (dated : Dated s.desk) {move : Screen.Move}
    (moved : s.step move = some next) : Dated next.desk := by
  cases move with simp only [Screen.step] at moved
  | receiveText arrival =>
    obtain rfl := Option.some.inj moved
    have desk : (s.receiveText arrival).desk = s.desk.receiveText arrival := by
      simp only [Screen.receiveText]
      split
      · split <;> rfl
      · rfl
    exact desk ▸ dated.stores (receiveText_stores ..)
  | createMessage =>
    split at moved
    · contradiction
    · exact Option.some.inj moved ▸ dated.stores (stores_same rfl rfl)
  | finishInput sent =>
    obtain rfl := Option.some.inj moved
    have desk : (s.finishInput sent).desk = s.desk.finishInput sent := by
      simp only [Screen.finishInput]
      split <;> rfl
    exact desk ▸ dated.stores (finishInput_stores ..)
  | activateContact uid now =>
    split at moved
    · obtain rfl := Option.some.inj moved
      rw [Screen.activateContact]
      split
      · exact dated.stores (stores_same rfl rfl)
      · have opened : Dated (s.desk.modify uid ContactState.opened) := dated.stores (stores_same rfl rfl)
        exact opened.stores (activateSession_stores _ uid now)
    · contradiction
  | selectSession uid now =>
    split at moved
    · exact Option.some.inj moved ▸ dated.stores (activateSession_stores ..)
    · contradiction
  | activateSelf => exact Option.some.inj moved ▸ dated.stores (stores_same rfl rfl)
  | changeExpiration expires =>
    obtain rfl := Option.some.inj moved
    intro row member
    have member : row ∈ s.desk.messages.update (fun row => { row with expires := row.posted + expires * 1000 })
      fun _ => rfl := member
    obtain ⟨old,-,rfl⟩ := Table.mem_update.mp member
    rfl
  | remove uid => exact dated.stores (remove_stores moved)
  | search found =>
    obtain rfl := Option.some.inj moved
    have desk : (s.search found).desk = s.desk := by
      simp only [Screen.search]
      split <;> rfl
    exact desk ▸ dated

theorem cleanupExpired_stores (d : Desktop) (now : Int) : Stores d (d.cleanupExpired now) :=
  ⟨rfl,fun _ member => .inl (Table.mem_delete.mp member).1⟩

theorem restart_stores (d : Desktop) (now : Int) : Stores d (d.restart now) :=
  ⟨rfl,(cleanupExpired_stores d now).rows⟩

theorem step_dated (dated : Dated s.screen.desk) {a : Action} (moved : s.step offset a = some next) :
    Dated next.screen.desk := by
  cases a with
  | move move =>
    obtain ⟨_,shown,rfl⟩ := Option.map_eq_some_iff.mp moved
    exact move_dated dated shown
  | timeout now again =>
    simp only [step] at moved
    split at moved
    · exact Option.some.inj moved ▸ dated.stores (cleanupExpired_stores ..)
    · contradiction
  | restart now => exact Option.some.inj moved ▸ dated.stores (restart_stores ..)

theorem run_dated (run : Run offset s trace final) (dated : Dated s.screen.desk) : Dated final.screen.desk :=
  run.invariant (fun s => Dated s.screen.desk) (fun _ _ _ dated moved => step_dated dated moved) dated

/-- What is left when the expired messages have been deleted. -/
theorem cleanupExpired_iff (dated : Dated d) (now : Int) (row : Desktop.MessageRow) :
    row ∈ (d.cleanupExpired now).messages ↔
      row ∈ d.messages ∧ (0 < d.expiration → now ≤ row.posted + d.expiration * 1000) := by
  simp only [cleanupExpired,Table.mem_delete,Bool.and_eq_false_iff,decide_eq_false_iff_not]
  refine and_congr_right fun member => ?_
  rw [dated row member]
  omega

def hourly : List Action :=
  [.move (.activateContact 2 1530000000000),.move .createMessage,.move (.finishInput (some confirmation)),
    .move (.changeExpiration 3600),.timeout 1530057600000 1530057600000]

end Expiry

section Timer

def NextDay (offset : Int → Int) (a b : Int) : Prop :=
  a < b ∧ currentDay offset b = (currentDay offset a + 1) % 4294967296

/-- The timer is not early and less than a day late, and the clocks are not changed. -/
def Prompt (offset : Int → Int) (zone : Int) (s : Retention) : Action → Prop
  | .timeout now again => s.due ≤ now ∧ again < s.due + dailyInterval ∧ offset now = zone ∧ offset again = zone
  | .restart now => 0 ≤ now ∧ 0 ≤ now + zone * 1000 ∧ offset now = zone
  | .move _ => True

/-- The events so far were on one day after the other, and the next one is due the day after. -/
structure Daily (offset : Int → Int) (zone : Int) (s : Retention) : Prop where
  days : (s.begun :: s.events).IsChain (NextDay offset)
  due : ∃ last, (s.begun :: s.events).getLast? = some last ∧ 0 ≤ last ∧ 0 ≤ last + zone * 1000 ∧ offset last = zone ∧
    s.due + zone * 1000 = ((last + zone * 1000) / 86400000 + 1) * 86400000

theorem start_daily {zone now : Int} (d : Desktop) (later : 0 ≤ now) (here : 0 ≤ now + zone * 1000)
    (zoned : offset now = zone) : Daily offset zone (start offset d now) := by
  refine ⟨.singleton now,now,rfl,later,here,zoned,?_⟩
  subst zoned
  exact untilInterval_local offset here

theorem step_daily {zone : Int} {a : Action} (daily : Daily offset zone s) (prompt : Prompt offset zone s a)
    (moved : s.step offset a = some next) : Daily offset zone next := by
  cases a with
  | move move =>
    obtain ⟨_,-,rfl⟩ := Option.map_eq_some_iff.mp moved
    exact ⟨daily.days,daily.due⟩
  | restart now =>
    obtain ⟨later,here,zoned⟩ := prompt
    exact Option.some.inj moved ▸ start_daily _ later here zoned
  | timeout now again =>
    obtain ⟨last,ends,later,here,zoned,due⟩ := daily.due
    obtain ⟨waited,prompt,zonedNow,zonedAgain⟩ := prompt
    simp only [step] at moved
    split at moved
    · rename_i order
      obtain rfl := Option.some.inj moved
      rw [dailyInterval] at prompt
      have day : (now + zone * 1000) / 86400000 = (last + zone * 1000) / 86400000 + 1 := by omega
      have same : (again + zone * 1000) / 86400000 = (now + zone * 1000) / 86400000 := by omega
      refine ⟨?_,now,?_,by omega,by omega,zonedNow,?_⟩
      · refine List.IsChain.append daily.days (.singleton now) fun a member b first => ?_
        obtain rfl := Option.some.inj (ends.symm.trans member)
        obtain rfl := Option.some.inj first
        refine ⟨by omega,?_⟩
        rw [currentDay_local offset (by omega) (by rw [zonedNow]; omega),
          currentDay_local offset later (zoned ▸ here),zonedNow,zoned,day]
        omega
      · rw [← List.cons_append,List.getLast?_append]
        rfl
      · have after : 0 ≤ again + offset again * 1000 := by rw [zonedAgain]; omega
        have := untilInterval_local offset after
        rw [zonedAgain] at this
        exact same ▸ this
    · contradiction

/-- There is one event on each day that has begun since the start. -/
theorem days_consecutive {zone now : Int} (run : Run offset (start offset d now) trace final) (later : 0 ≤ now)
    (here : 0 ≤ now + zone * 1000) (zoned : offset now = zone)
    (prompt : ∀ edge ∈ trace, Prompt offset zone edge.source edge.action) :
    (final.begun :: final.events).IsChain (NextDay offset) :=
  (run.invariant_of (Daily offset zone) (Prompt offset zone)
    (fun _ _ _ daily prompt moved => step_daily daily prompt moved)
    (start_daily d later here zoned) prompt).days

def onTime (s : Retention) : Action → Bool
  | .timeout now again => decide (s.due ≤ now) && decide (again < s.due + dailyInterval)
  | _ => false

/-- The timer fires at midnight, and an hour late the next time. -/
theorem days_consecutive_late : ∃ trace final,
    Run (fun _ => 0) (start (fun _ => 0) Site.desk 1530000000000) trace final ∧ final.events.length = 2 ∧
      (final.begun :: final.events).IsChain (NextDay fun _ => 0) := by
  have ran : ((Transition.execute (Transition.guarded onTime fun s => step (fun _ => 0) s)
      [.timeout 1530057600000 1530057600000,.timeout 1530147600000 1530147600000]
      (start (fun _ => 0) Site.desk 1530000000000)).map fun s => s.events.length) = some 2 := by decide +kernel
  obtain ⟨final,done,length⟩ := Option.map_eq_some_iff.mp ran
  obtain ⟨trace,guarded,-⟩ := Transition.execute_run _ _ _ done
  obtain ⟨run,prompt⟩ := guarded.of_guarded
  refine ⟨trace,final,run,length,days_consecutive run (by decide) (by decide) rfl fun edge member => ?_⟩
  have late := prompt edge member
  cases timed : edge.action with
  | timeout now again =>
    rw [timed] at late
    obtain ⟨waited,late⟩ := Bool.and_eq_true_iff.mp late
    exact ⟨of_decide_eq_true waited,of_decide_eq_true late,rfl,rfl⟩
  | move | restart => simp [timed,onTime] at late

end Timer

end Retention

end SipWitch
