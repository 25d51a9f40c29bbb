import Mathlib.Data.List.Induction
import SipWitch.Service

/-! The managed threads with their order numbers as the machine has them: the loops over
the orders, and what they call on the threads. -/
namespace SipWitch

/-- The `Context` of a thread; `thread` tells the objects apart. -/
structure ThreadContext where
  thread : Nat
  priority : Int
  order : UInt32
  deriving DecidableEq

inductive ThreadCall where
  | start (thread : Nat) (priority : Int)
  | quit (thread : Nat)
  | wait (thread : Nat)
  | delete (thread : Nat)
  deriving DecidableEq

structure ManagedThreads where
  runState : RunState := .START
  contexts : List ThreadContext := []
  maxOrder : UInt32 := 1
  /-- What has been called on the threads, in this order. -/
  calls : List ThreadCall := []

namespace ManagedThreads

/-- The largest `unsigned`, whose increment is zero. -/
def lastOrder : UInt32 := 4294967295

theorem toNat_increment {order : UInt32} (other : order ≠ lastOrder) :
    (order + 1).toNat = order.toNat + 1 := by
  have limit := order.toNat_lt
  have less : order.toNat ≠ 4294967295 := fun same => other (UInt32.toNat.inj same)
  rw [UInt32.toNat_add,UInt32.toNat_one]
  exact Nat.mod_eq_of_lt (by omega)

theorem ne_lastOrder {order maxOrder : UInt32} (less : order < maxOrder) : order ≠ lastOrder := by
  rintro rfl
  have below := UInt32.lt_iff_toNat_lt.mp less
  have limit := maxOrder.toNat_lt
  have last : lastOrder.toNat = 4294967295 := rfl
  omega

theorem toNat_decrement {maxOrder : UInt32} (more : maxOrder ≠ 0) :
    (maxOrder - 1).toNat + 1 = maxOrder.toNat := by
  have positive : 1 ≤ maxOrder.toNat := UInt32.lt_iff_toNat_lt.mp (UInt32.pos_iff_ne_zero.mpr more)
  have whole : 1 ≤ maxOrder := UInt32.le_iff_toNat_le.mpr positive
  rw [UInt32.toNat_sub_of_le _ _ whole,UInt32.toNat_one]
  omega

def starting (ctx : ThreadContext) : List ThreadCall := [.start ctx.thread ctx.priority]

def stopping (ctx : ThreadContext) : List ThreadCall :=
  [.quit ctx.thread,.wait ctx.thread,.delete ctx.thread]

def scan (order : UInt32) (calls : ThreadContext → List ThreadCall) :
    List ThreadContext → List ThreadCall
  | [] => []
  | ctx :: rest =>
    if ctx.order ≠ order then scan order calls rest else calls ctx ++ scan order calls rest

def startLoop (contexts : List ThreadContext) (maxOrder order : UInt32) : List ThreadCall :=
  if order < maxOrder then
    scan order starting contexts ++ startLoop contexts maxOrder (order + 1)
  else []
termination_by maxOrder.toNat - order.toNat
decreasing_by
  rename_i more
  have less := UInt32.lt_iff_toNat_lt.mp more
  rw [toNat_increment (ne_lastOrder more)]
  omega

/-- The loop of `exit`, whose condition decrements `maxOrder`. -/
def stopLoop (contexts : List ThreadContext) (maxOrder : UInt32) : List ThreadCall :=
  if maxOrder = 0 then []
  else scan (maxOrder - 1) stopping contexts ++ stopLoop contexts (maxOrder - 1)
termination_by maxOrder.toNat
decreasing_by
  rename_i more
  have := toNat_decrement more
  omega

variable (s : ManagedThreads)

def createThread (order : UInt32) (priority : Int) : ManagedThreads :=
  if s.runState ≠ .START then s
  else { s with
    contexts := s.contexts ++ [{ thread := s.contexts.length, priority, order }]
    maxOrder := if s.maxOrder ≤ order then order + 1 else s.maxOrder }

def startup : ManagedThreads :=
  if s.runState ≠ .START then s
  else { s with
    runState := .UP
    calls := s.calls ++ startLoop s.contexts s.maxOrder 0 }

/-- The pending events that `exit` processes first find the service down and make no
thread. -/
def exit : ManagedThreads :=
  if s.runState = .START then s
  else if s.runState = .DOWN then s
  else { s with
    runState := .DOWN
    calls := s.calls ++ stopLoop s.contexts s.maxOrder
    maxOrder := lastOrder }

/-- The calls made before the startup, each with its order and priority. -/
def create (requests : List (UInt32 × Int)) : ManagedThreads :=
  requests.foldl (fun s request => s.createThread request.1 request.2) {}

def made (requests : List (UInt32 × Int)) : List ThreadContext :=
  requests.mapIdx fun i request => { thread := i, priority := request.2, order := request.1 }

def group (contexts : List ThreadContext) (order : Nat) : List ThreadContext :=
  contexts.filter fun ctx => ctx.order.toNat = order

theorem scan_eq (order : UInt32) (calls : ThreadContext → List ThreadCall)
    (contexts : List ThreadContext) :
    scan order calls contexts = (group contexts order.toNat).flatMap calls := by
  induction contexts with
  | nil => rfl
  | cons ctx rest ih =>
    by_cases same : ctx.order = order
    · simp [scan,group,same,ih]
    · have other : ctx.order.toNat ≠ order.toNat := fun h => same (UInt32.toNat.inj h)
      simp [scan,group,same,other,ih]

/-- The orders from one on, group by group. -/
theorem startLoop_eq (contexts : List ThreadContext) (maxOrder order : UInt32) :
    startLoop contexts maxOrder order =
      ((List.range' order.toNat (maxOrder.toNat - order.toNat)).flatMap (group contexts)).flatMap
        starting := by
  induction order using startLoop.induct maxOrder with
  | case1 order more ih =>
    have less := UInt32.lt_iff_toNat_lt.mp more
    have next := toNat_increment (ne_lastOrder more)
    have size : maxOrder.toNat - order.toNat = (maxOrder.toNat - (order + 1).toNat) + 1 := by omega
    rw [startLoop,if_pos more,scan_eq,ih,size,List.range'_succ,next,List.flatMap_cons,
      List.flatMap_append]
  | case2 order done =>
    have none : maxOrder.toNat - order.toNat = 0 :=
      Nat.sub_eq_zero_of_le (Nat.not_lt.mp fun less => done (UInt32.lt_iff_toNat_lt.mpr less))
    rw [startLoop,if_neg done,none]
    rfl

theorem stopLoop_eq (contexts : List ThreadContext) (maxOrder : UInt32) :
    stopLoop contexts maxOrder =
      ((List.range maxOrder.toNat).reverse.flatMap (group contexts)).flatMap stopping := by
  induction maxOrder using stopLoop.induct with
  | case1 => simp [stopLoop]
  | case2 maxOrder more ih =>
    rw [stopLoop,if_neg more,scan_eq,ih,← toNat_decrement more,List.range_succ,List.reverse_append,
      List.reverse_singleton,List.singleton_append,List.flatMap_cons,List.flatMap_append]

section

variable {A : Type} (key : A → Nat) (list : List A) {keys : List Nat}

/-- Groups in the order of their keys are in the order of the keys. -/
theorem pairwise_groups {r : Nat → Nat → Prop} (refl : ∀ k, r k k) (sorted : keys.Pairwise r) :
    (keys.flatMap fun k => list.filter fun a => key a = k).Pairwise fun a b => r (key a) (key b) := by
  induction keys with
  | nil => exact .nil
  | cons k rest ih =>
    obtain ⟨first,sorted⟩ := List.pairwise_cons.mp sorted
    rw [List.flatMap_cons,List.pairwise_append]
    refine ⟨?_,ih sorted,?_⟩
    · refine List.pairwise_of_forall_mem_list fun a left b right => ?_
      simp only [List.mem_filter,decide_eq_true_eq] at left right
      rw [left.2,right.2]
      exact refl k
    · intro a left b right
      obtain ⟨other,later,right⟩ := List.mem_flatMap.mp right
      simp only [List.mem_filter,decide_eq_true_eq] at left right
      rw [left.2,right.2]
      exact first other later

/-- What has one key keeps its order. -/
theorem filter_groups (distinct : keys.Nodup) (member : k ∈ keys) :
    (keys.flatMap fun k => list.filter fun a => key a = k).filter (fun a => key a = k) =
      list.filter fun a => key a = k := by
  have apart (rest : List Nat) (absent : k ∉ rest) :
      (rest.flatMap fun k => list.filter fun a => key a = k).filter (fun a => key a = k) = [] := by
    refine List.filter_eq_nil_iff.mpr fun a grouped => ?_
    obtain ⟨other,inside,grouped⟩ := List.mem_flatMap.mp grouped
    simp only [List.mem_filter,decide_eq_true_eq] at grouped ⊢
    rintro rfl
    exact absent (grouped.2 ▸ inside)
  obtain ⟨front,back,rfl⟩ := List.append_of_mem member
  obtain ⟨-,other,separate⟩ := List.nodup_append.mp distinct
  have before : k ∉ front := fun inside => separate k inside k List.mem_cons_self rfl
  rw [List.flatMap_append,List.flatMap_cons,List.filter_append,List.filter_append,apart front before,
    apart back (List.nodup_cons.mp other).1,List.nil_append,List.append_nil,List.filter_filter]
  simp

end

/-- What the calls leave behind: all the threads, and a maximum beyond their orders. -/
theorem create_spec (requests : List (UInt32 × Int)) :
    (create requests).contexts = made requests ∧ (create requests).runState = .START ∧
    (create requests).calls = [] ∧ ((∀ request ∈ requests, request.1 ≠ lastOrder) →
      ∀ ctx ∈ made requests, ctx.order < (create requests).maxOrder) := by
  induction requests using List.reverseRecOn with
  | nil => exact ⟨rfl,rfl,rfl,fun _ ctx member => by cases member⟩
  | append_singleton requests request ih =>
    obtain ⟨contexts,runState,calls,beyond⟩ := ih
    have last : create (requests ++ [request]) =
        (create requests).createThread request.1 request.2 := by
      rw [create,List.foldl_append]
      rfl
    have length : (made requests).length = requests.length := List.length_mapIdx
    have more : made (requests ++ [request]) =
        made requests ++ [{ thread := requests.length, priority := request.2, order := request.1 }] := by
      simp [made,List.mapIdx_append]
    rw [last,createThread,if_neg (not_not_intro runState)]
    refine ⟨by rw [more,contexts,length],runState,calls,fun usable ctx member => ?_⟩
    have earlier := beyond fun other inside => usable other (List.mem_append_left _ inside)
    have next := toNat_increment (usable request (by simp))
    rw [more] at member
    rw [UInt32.lt_iff_toNat_lt]
    rcases List.mem_append.mp member with old | new
    · have less := UInt32.lt_iff_toNat_lt.mp (earlier ctx old)
      dsimp only
      split
      · rename_i above
        have := UInt32.le_iff_toNat_le.mp above
        omega
      · exact less
    · rw [List.mem_singleton.mp new]
      dsimp only
      split
      · omega
      · rename_i below
        exact UInt32.lt_iff_toNat_lt.mp (UInt32.not_le.mp below)

/-- What startup and exit do with the threads that were made: each is started once, the
lower orders first and those of one order as they were made; and each is stopped once, the
higher orders first. -/
structure Ordered (requests : List (UInt32 × Int)) (started stopped : List ThreadContext) : Prop where
  start : (create requests).startup.calls = started.flatMap starting
  everyStart : started.Perm (made requests)
  rising : started.Pairwise fun a b => a.order ≤ b.order
  stable : ∀ order, started.filter (fun ctx => ctx.order = order) =
    (made requests).filter fun ctx => ctx.order = order
  stop : (create requests).startup.exit.calls =
    (create requests).startup.calls ++ stopped.flatMap stopping
  everyStop : stopped.Perm (made requests)
  falling : stopped.Pairwise fun a b => b.order ≤ a.order

theorem startup_calls (requests : List (UInt32 × Int)) : (create requests).startup.calls =
    ((List.range (create requests).maxOrder.toNat).flatMap (group (made requests))).flatMap
      starting := by
  obtain ⟨contexts,runState,calls,-⟩ := create_spec requests
  rw [startup,if_neg (not_not_intro runState),contexts,calls,startLoop_eq,List.range_eq_range']
  rfl

theorem exit_calls (requests : List (UInt32 × Int)) : (create requests).startup.exit.calls =
    (create requests).startup.calls ++
      ((List.range (create requests).maxOrder.toNat).reverse.flatMap (group (made requests))).flatMap
        stopping := by
  obtain ⟨contexts,runState,calls,-⟩ := create_spec requests
  have up : (create requests).startup = { create requests with
      runState := .UP
      calls := (create requests).calls ++ startLoop (create requests).contexts
        (create requests).maxOrder 0 } := if_neg (not_not_intro runState)
  rw [exit,if_neg (by simp [up]),if_neg (by simp [up]),← contexts,← stopLoop_eq,up]

theorem ordered_of_usable {requests : List (UInt32 × Int)}
    (usable : ∀ request ∈ requests, request.1 ≠ lastOrder) :
    ∃ started stopped, Ordered requests started stopped := by
  have beyond := (create_spec requests).2.2.2 usable
  have covered : ∀ ctx ∈ made requests, ctx.order.toNat < (create requests).maxOrder.toNat :=
    fun ctx member => UInt32.lt_iff_toNat_lt.mp (beyond ctx member)
  have complete (orders : List Nat) (distinct : orders.Nodup)
      (all : ∀ n < (create requests).maxOrder.toNat, n ∈ orders) :
      (orders.flatMap (group (made requests))).Perm (made requests) := by
    apply (Service.flatMap_filter_perm (fun ctx => ctx.order.toNat) (made requests) orders distinct).trans
    apply List.Perm.of_eq
    rw [List.filter_eq_self]
    intro ctx member
    exact decide_eq_true (all _ (covered ctx member))
  have rising := pairwise_groups (fun ctx : ThreadContext => ctx.order.toNat) (made requests)
    Nat.le_refl (List.pairwise_le_range (n := (create requests).maxOrder.toNat))
  have falling := pairwise_groups (fun ctx : ThreadContext => ctx.order.toNat) (made requests)
    (r := fun a b => b ≤ a) Nat.le_refl
    (List.pairwise_reverse.mpr (List.pairwise_le_range (n := (create requests).maxOrder.toNat)))
  refine ⟨_,_,startup_calls requests,complete _ List.nodup_range fun n => List.mem_range.mpr,
    rising.imp UInt32.le_iff_toNat_le.mpr,fun order => ?_,exit_calls requests,
    complete _ (List.nodup_reverse.mpr List.nodup_range) fun n less =>
      List.mem_reverse.mpr (List.mem_range.mpr less),falling.imp UInt32.le_iff_toNat_le.mpr⟩
  have numbered (list : List ThreadContext) : list.filter (fun ctx => ctx.order = order) =
      group list order.toNat :=
    List.filter_congr fun ctx _ => by simp [UInt32.toNat_inj]
  rw [numbered,numbered]
  by_cases inside : order.toNat < (create requests).maxOrder.toNat
  · exact filter_groups _ (made requests) List.nodup_range (List.mem_range.mpr inside)
  · have none : group (made requests) order.toNat = [] := by
      refine List.filter_eq_nil_iff.mpr fun ctx member same => inside ?_
      rw [← of_decide_eq_true same]
      exact covered ctx member
    have all := complete _ List.nodup_range fun n => List.mem_range.mpr
    rw [none]
    exact ((all.filter _).trans (List.Perm.of_eq none)).eq_nil

def managed (ctx : ThreadContext) : ManagedThread :=
  { handle := ctx.thread, priority := ctx.priority, order := ctx.order.toNat }

def service (requests : List (UInt32 × Int)) : Service :=
  requests.foldl (fun s request => s.createThread request.1.toNat request.2) {}

theorem create_service {requests : List (UInt32 × Int)}
    (usable : ∀ request ∈ requests, request.1 ≠ lastOrder) :
    (service requests).runState = .START ∧ (service requests).started = [] ∧
    (service requests).stopped = [] ∧
    (service requests).contexts = (create requests).contexts.map managed ∧
    (service requests).maxOrder = (create requests).maxOrder.toNat := by
  induction requests using List.reverseRecOn with
  | nil => exact ⟨rfl,rfl,rfl,rfl,rfl⟩
  | append_singleton requests request ih =>
    obtain ⟨runState,started,stopped,contexts,maxOrder⟩ :=
      ih fun other inside => usable other (List.mem_append_left _ inside)
    have last : create (requests ++ [request]) =
        (create requests).createThread request.1 request.2 := by
      rw [create,List.foldl_append]
      rfl
    have last' : service (requests ++ [request]) =
        (service requests).createThread request.1.toNat request.2 := by
      rw [service,List.foldl_append]
      rfl
    have next := toNat_increment (usable request (by simp))
    have start := (create_spec requests).2.1
    rw [last,last',createThread,Service.createThread,if_neg (not_not_intro runState),
      if_neg (not_not_intro start)]
    refine ⟨runState,started,stopped,?_,?_⟩
    · simp [contexts,managed]
    · dsimp only
      rw [maxOrder]
      by_cases above : (create requests).maxOrder ≤ request.1
      · rw [if_pos above,if_pos (UInt32.le_iff_toNat_le.mp above),next]
      · rw [if_neg above,if_neg fun less => above (UInt32.le_iff_toNat_le.mpr less)]

theorem ofOrder_group {s : Service} {contexts : List ThreadContext}
    (same : s.contexts = contexts.map managed) (order : Nat) :
    s.ofOrder order = (group contexts order).map managed := by
  rw [Service.ofOrder,same,List.filter_map]
  rfl

/-- With the orders that no increment wraps, the loops do what the service is modelled to. -/
theorem startup_service {requests : List (UInt32 × Int)}
    (usable : ∀ request ∈ requests, request.1 ≠ lastOrder) :
    (create requests).startup.calls =
      (service requests).startup.started.flatMap fun ctx => [.start ctx.handle ctx.priority] := by
  obtain ⟨runState,started,-,contexts,maxOrder⟩ := create_service usable
  rw [startup_calls,Service.startup,if_neg (not_not_intro runState)]
  simp only [Service.emit,started,List.nil_append,maxOrder,List.flatMap_assoc]
  refine List.flatMap_congr fun order _ => ?_
  rw [← (create_spec requests).1,ofOrder_group contexts,List.flatMap_map]
  rfl

theorem exit_service {requests : List (UInt32 × Int)}
    (usable : ∀ request ∈ requests, request.1 ≠ lastOrder) (reason : Int) :
    ∃ next, ((service requests).startup.exit reason).finish = some next ∧
      (create requests).startup.exit.calls = (create requests).startup.calls ++
        next.stopped.flatMap fun ctx => [.quit ctx.handle,.wait ctx.handle,.delete ctx.handle] := by
  obtain ⟨runState,-,stopped,contexts,maxOrder⟩ := create_service usable
  have up : (service requests).startup.runState = .UP := by
    rw [Service.startup,if_neg (not_not_intro runState)]
    rfl
  have kept : (service requests).startup.contexts = (service requests).contexts ∧
      (service requests).startup.maxOrder = (service requests).maxOrder ∧
      (service requests).startup.stopped = [] := by
    rw [Service.startup,if_neg (not_not_intro runState)]
    exact ⟨rfl,rfl,stopped⟩
  obtain ⟨kept,kept',kept''⟩ := kept
  rw [Service.exit,up,if_neg (by decide),if_neg (by decide)]
  refine ⟨_,rfl,?_⟩
  rw [exit_calls]
  simp only [Service.emit,kept',kept'',maxOrder,List.nil_append,List.flatMap_assoc]
  refine congrArg _ (List.flatMap_congr fun order _ => ?_)
  change _ = List.flatMap _ ((service requests).startup.ofOrder order)
  rw [ofOrder_group (kept.trans contexts) order,(create_spec requests).1,List.flatMap_map]
  rfl

/-- A thread is told apart by its place. -/
theorem made_unique {requests : List (UInt32 × Int)} {a b : ThreadContext} (left : a ∈ made requests)
    (right : b ∈ made requests) (same : a.thread = b.thread) : a = b := by
  obtain ⟨i,inside,rfl⟩ := List.mem_mapIdx.mp left
  obtain ⟨j,inside',rfl⟩ := List.mem_mapIdx.mp right
  obtain rfl : i = j := same
  rfl

/-- The loop does not come to the last order. -/
theorem usable_of_ordered {requests : List (UInt32 × Int)} (ordered : Ordered requests started stopped)
    (request : UInt32 × Int) (member : request ∈ requests) : request.1 ≠ lastOrder := by
  intro last
  obtain ⟨i,inside,rfl⟩ := List.mem_iff_getElem.mp member
  obtain ⟨ctx,shape⟩ : ∃ ctx : ThreadContext,
    ctx = { thread := i, priority := requests[i].2, order := requests[i].1 } := ⟨_,rfl⟩
  have listed : ctx ∈ made requests := List.mem_mapIdx.mpr ⟨i,inside,shape.symm⟩
  have begun : ThreadCall.start ctx.thread ctx.priority ∈ (create requests).startup.calls := by
    rw [ordered.start]
    exact List.mem_flatMap.mpr ⟨ctx,ordered.everyStart.mem_iff.mpr listed,List.mem_singleton.mpr rfl⟩
  rw [startup_calls] at begun
  obtain ⟨other,grouped,call⟩ := List.mem_flatMap.mp begun
  obtain ⟨order,below,grouped⟩ := List.mem_flatMap.mp grouped
  obtain ⟨listed',same⟩ := List.mem_filter.mp grouped
  obtain ⟨thread,-⟩ := ThreadCall.start.inj (List.mem_singleton.mp call)
  obtain rfl := made_unique listed listed' thread
  have limit := (create requests).maxOrder.toNat_lt
  have less := List.mem_range.mp below
  have value : ctx.order.toNat = 4294967295 := by
    rw [shape]
    exact congrArg UInt32.toNat last
  rw [← of_decide_eq_true same,value] at less
  omega

/-- The increment wraps at the last order, which no loop comes to; with every other order
the threads are started and stopped as they should be. -/
theorem ordered_iff (requests : List (UInt32 × Int)) :
    (∃ started stopped, Ordered requests started stopped) ↔
      ∀ request ∈ requests, request.1 ≠ 4294967295 :=
  ⟨fun ⟨_,_,ordered⟩ => usable_of_ordered ordered,ordered_of_usable⟩

theorem not_ordered_last : ¬∃ started stopped, Ordered [(0,0),(4294967295,0)] started stopped := by
  rintro ⟨started,stopped,ordered⟩
  exact usable_of_ordered ordered (4294967295,0) (by simp) rfl

end ManagedThreads

end SipWitch
