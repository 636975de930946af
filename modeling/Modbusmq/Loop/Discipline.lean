import Modbusmq.Library.Lanes
import Modbusmq.Loop.Accounting

/-!
# The order of the queue

`modbusmq_post_internal` keeps two lanes behind the head of the queue: the
requests the application posted, and behind them the polls. The queue is the
list of these lanes, whatever is posted, polled and removed.
-/

namespace Modbusmq

/-- The lane of the application. -/
def Wrapper.Urgent (wrapper : Wrapper) : Prop := wrapper.flags = .post

instance : DecidablePred Wrapper.Urgent := fun wrapper =>
  inferInstanceAs (Decidable (wrapper.flags = .post))

def entry (c : Context) (m : Msg) (flags : Flags) : Wrapper :=
  ⟨flags, 0, preparedMsg c.transport (nextTransaction c.transport c.transactionId)
    { m with reqId := nextReqId c.reqIdNext, serial := c.serialNext }⟩

inductive QueueOp
  | post (m : Msg)
  | poll (m : Msg)
  | remove (m : Msg) (error : ℤ)

/-- A context, and what has entered and left its queue. -/
structure Journal where
  ctx : Context
  posted : List Wrapper
  removed : List Wrapper

def QueueOp.perform (j : Journal) : QueueOp → Journal
  | post m => ⟨postInternal j.ctx m .post, j.posted ++ [entry j.ctx m .post], j.removed⟩
  | poll m =>
    ⟨postInternal j.ctx m .subscribe, j.posted ++ [entry j.ctx m .subscribe], j.removed⟩
  | remove m error =>
    ⟨dropHead j.ctx m error, j.posted, j.removed ++ j.ctx.queue.head?.toList⟩

def performAll (ops : List QueueOp) (c : Context) : Journal :=
  ops.foldl QueueOp.perform ⟨c, [], []⟩

theorem enqueue_eq_cutIn (queue : List Wrapper) (wrapper : Wrapper) :
    enqueue queue wrapper = Lanes.cutIn Wrapper.Urgent queue wrapper := by
  unfold enqueue Lanes.cutIn
  cases queue with
  | nil => rfl
  | cons head rest =>
    cases hflags : wrapper.flags with
    | post => exact (if_pos (show wrapper.Urgent from hflags)).symm
    | subscribe =>
      exact (if_neg (show ¬ wrapper.Urgent from fun h => nomatch hflags.symm.trans h)).symm

theorem postInternal_lane (c : Context) (m : Msg) (flags : Flags) :
    (postInternal c m flags).queue = Lanes.cutIn Wrapper.Urgent c.queue (entry c m flags) :=
  enqueue_eq_cutIn ..

/-- The queue is the list of two lanes in the order of posting, and the requests that were
posted have ascending numbers. -/
structure InLanes (j : Journal) : Prop where
  lanes : ∃ lanes : Lanes Wrapper.Urgent, j.ctx.queue = lanes.toList ∧
    lanes.Orderly j.posted j.removed
  numbered : (j.posted.map (·.msg.serial)).Pairwise (· < ·)
  next : ∀ w ∈ j.posted, w.msg.serial < j.ctx.serialNext

theorem InLanes.enter {j : Journal} (h : InLanes j) (m : Msg) (flags : Flags) :
    InLanes ⟨postInternal j.ctx m flags, j.posted ++ [entry j.ctx m flags], j.removed⟩ where
  lanes := by
    obtain ⟨lanes, hqueue, horderly⟩ := h.lanes
    refine ⟨lanes.push (entry j.ctx m flags), ?_, horderly.push _⟩
    rw [Lanes.toList_push, ← hqueue]
    exact postInternal_lane ..
  numbered := by
    rw [List.map_append, List.pairwise_append]
    refine ⟨h.numbered, List.pairwise_singleton .., fun serial hserial last hlast => ?_⟩
    obtain ⟨w, hw, rfl⟩ := List.mem_map.1 hserial
    rw [List.mem_singleton.1 hlast]
    change _ < (preparedMsg ..).serial
    rw [preparedMsg_serial]
    exact h.next w hw
  next w hw := by
    change _ < j.ctx.serialNext + 1
    rcases List.mem_append.1 hw with hw | hw
    · exact (h.next w hw).trans (Nat.lt_succ_self _)
    · rw [List.mem_singleton.1 hw]
      change (preparedMsg ..).serial < _
      rw [preparedMsg_serial]
      exact Nat.lt_succ_self _

theorem InLanes.perform {j : Journal} (h : InLanes j) (op : QueueOp) : InLanes (op.perform j) := by
  cases op with
  | post m => exact h.enter m .post
  | poll m => exact h.enter m .subscribe
  | remove m error =>
    obtain ⟨lanes, hqueue, horderly⟩ := h.lanes
    refine ⟨⟨lanes.pop, ?_, ?_⟩, h.numbered, h.next⟩
    · rw [Lanes.toList_pop, ← hqueue]
      rfl
    · have hpop := horderly.pop
      rw [← hqueue] at hpop
      exact hpop

theorem InLanes.performAll {j : Journal} (h : InLanes j) (ops : List QueueOp) :
    InLanes (ops.foldl QueueOp.perform j) := by
  induction ops generalizing j with
  | nil => exact h
  | cons op ops ih => exact ih (h.perform op)

theorem inLanes_empty {c : Context} (hempty : c.queue = []) : InLanes ⟨c, [], []⟩ where
  lanes := ⟨.idle, hempty, Lanes.orderly_idle⟩
  numbered := .nil
  next := by simp

/-- What is in the queue and what was removed is what was posted, each once. Behind the head
wait the posted requests and then the polls, both in the order of posting, and one more
request leaves the head and the order of the others as they are. -/
theorem queue_in_order {c₀ : Context} (hempty : c₀.queue = []) (ops : List QueueOp) :
    ((performAll ops c₀).posted.map (·.msg.serial)).Pairwise (· < ·) ∧
    ((performAll ops c₀).removed ++ (performAll ops c₀).ctx.queue).Perm
      (performAll ops c₀).posted ∧
    ∀ head rest, (performAll ops c₀).ctx.queue = head :: rest →
      (∃ posts polls, rest = posts ++ polls ∧ (∀ w ∈ posts, w.flags = .post) ∧
        (∀ w ∈ polls, w.flags = .subscribe) ∧ posts.Sublist (performAll ops c₀).posted ∧
        polls.Sublist (performAll ops c₀).posted) ∧
      ∀ m flags, ∃ rest', (postInternal (performAll ops c₀).ctx m flags).queue = head :: rest' ∧
        rest.Sublist rest' ∧ rest'.Perm (entry (performAll ops c₀).ctx m flags :: rest) := by
  obtain ⟨⟨lanes, hqueue, horderly⟩, hnumbered, -⟩ := (inLanes_empty hempty).performAll ops
  refine ⟨hnumbered, ?_, fun head rest hrest => ⟨?_, fun m flags => ?_⟩⟩
  · rw [show (performAll ops c₀).ctx.queue = lanes.toList from hqueue]
    exact horderly.kept
  · refine ⟨lanes.front, lanes.back, Lanes.toList_eq_cons (hqueue.symm.trans hrest),
      fun w hw => show w.Urgent from Lanes.fast_of_mem_front hw, fun w hw => ?_, horderly.front,
      horderly.back⟩
    have hslow : ¬ w.Urgent := Lanes.not_fast_of_mem_back hw
    cases hflags : w.flags with
    | post => exact absurd hflags hslow
    | subscribe => rfl
  · rw [postInternal_lane, hrest]
    exact Lanes.cutIn_cons head _ rest

/-- A poll that is being served, a write and two polls behind it. -/
theorem queue_in_order_example :
    let ops : List QueueOp := [.poll (.ofFrame 1 (.zero .writer)), .poll (.ofFrame 2 (.zero .writer)),
      .post (.ofFrame 0 (.zero .writer)), .poll (.ofFrame 3 (.zero .writer))]
    (performAll ops (newContext .tcp)).ctx.queue.map (·.msg.msgId) = [1, 0, 2, 3] ∧
      ((performAll ops (newContext .tcp)).removed ++
        (performAll ops (newContext .tcp)).ctx.queue).Perm
          (performAll ops (newContext .tcp)).posted :=
  ⟨rfl, (queue_in_order (rfl : (newContext .tcp).queue = []) _).2.1⟩

/-- The lane and the number of a queued request. -/
def Wrapper.ticket (wrapper : Wrapper) : Flags × ℕ := (wrapper.flags, wrapper.msg.serial)

def Event.ticket : Event → Option (Flags × ℕ)
  | posted flags msg => some (flags, msg.serial)
  | _ => none

def tickets (log : List Event) : List (Flags × ℕ) := log.filterMap Event.ticket

/-- The queue of a context, by its tickets, is two lanes in the order of posting. -/
def TwoLanes (c : Context) : Prop :=
  ∃ (lanes : Lanes fun ticket : Flags × ℕ => ticket.1 = .post) (left : List (Flags × ℕ)),
    c.queue.map Wrapper.ticket = lanes.toList ∧ lanes.Orderly (tickets c.log) left

theorem tickets_append (log more : List Event) : tickets (log ++ more) = tickets log ++ tickets more :=
  List.filterMap_append

theorem tickets_silent {events : List Event} (h : ∀ e ∈ events, e.Silent) : tickets events = [] :=
  List.filterMap_eq_nil_iff.2 fun e he => by
    have hsilent := h e he
    cases e <;> first | rfl | exact absurd hsilent id

variable {P : Msg → ℤ → Bool → Prop} {G : Prop}

theorem Served.tickets {c : Context} {m : Msg} {s : WriteRead} (hs : Served G c m s) :
    tickets s.ctx.log = tickets c.log := by
  obtain ⟨quiet, sent, n, hlog, hquiet, hsent, -⟩ := hs.moved
  have hnone : Modbusmq.tickets sent = [] := by
    rcases hsent with ⟨rfl, -⟩ | ⟨unread, rfl⟩ <;> rfl
  rw [hlog, tickets_append, tickets_append, tickets_silent hquiet, hnone, List.append_nil,
    List.append_nil]

theorem QueueStep.twoLanes {c c' : Context} (h : QueueStep P G c c') (hc : TwoLanes c) :
    TwoLanes c' := by
  obtain ⟨lanes, left, hqueue, horderly⟩ := hc
  cases h with
  | quiet h =>
    obtain ⟨δ, hlog, hδ⟩ := h.log
    refine ⟨lanes, left, h.queue ▸ hqueue, ?_⟩
    rw [hlog, tickets_append, tickets_silent hδ, List.append_nil]
    exact horderly
  | @enter m flags =>
    have hticket : (entry c m flags).ticket = (flags, c.serialNext) :=
      Prod.ext rfl (preparedMsg_serial ..)
    have hlog : Modbusmq.tickets (postInternal c m flags).log =
        Modbusmq.tickets c.log ++ [(flags, c.serialNext)] := by
      rw [← hticket]
      exact tickets_append ..
    refine ⟨lanes.push (flags, c.serialNext), left, ?_, hlog ▸ horderly.push _⟩
    rw [postInternal_lane, Lanes.toList_push, ← hqueue, ← hticket]
    have hlane : ∀ w : Wrapper,
        (fun ticket : Flags × ℕ => ticket.1 = .post) w.ticket ↔ w.Urgent := fun _ => Iff.rfl
    exact Lanes.map_cutIn hlane ..
  | @stay wrapper rest hq s hs since =>
    refine ⟨lanes, left, ?_, hs.tickets ▸ horderly⟩
    rw [← hqueue, hq]
    exact congrArg (· :: rest.map Wrapper.ticket) (Prod.ext rfl hs.serial)
  | @leave wrapper rest hq s hs m _ hserial _ _ hrest hnext _ _ _ hlog =>
    obtain ⟨quiet, told, after, hlog, hquiet, htold, hafter⟩ := hlog
    have hnone : Modbusmq.tickets told = [] := by
      rcases htold with ⟨report, rfl⟩ | ⟨hsilent, -⟩
      · rfl
      · exact tickets_silent hsilent
    have htickets : Modbusmq.tickets c'.log = Modbusmq.tickets c.log := by
      rw [hlog]
      simp only [tickets_append, tickets_silent hquiet, tickets_silent hafter, hnone, hs.tickets,
        List.append_nil]
      exact List.append_nil _
    refine ⟨lanes.pop, _, ?_, htickets ▸ horderly.pop⟩
    rw [Lanes.toList_pop, ← hqueue, hq, hrest]
    rfl

/-- In every run of the library the queue is its head, the posted requests that wait and the
polls that wait, each in the order of posting. -/
theorem run_twoLanes {c₀ : Context} (hfresh : Fresh c₀) (calls : List (Call × Env)) :
    TwoLanes (run calls c₀) := by
  have hstart : TwoLanes c₀ := by
    refine ⟨.idle, [], ?_, ?_⟩
    · rw [hfresh.queue]
      rfl
    · rw [hfresh.log]
      exact Lanes.orderly_idle
  have hsteps := run_steps hfresh.wellFormed calls
  generalize run calls c₀ = c at hsteps
  induction hsteps with
  | refl => exact hstart
  | tail _ hstep ih => exact hstep.twoLanes ih

end Modbusmq
