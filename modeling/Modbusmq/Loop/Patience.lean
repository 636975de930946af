import Modbusmq.Library.Beats
import Modbusmq.Loop.Discipline
import Modbusmq.Loop.Overdue

/-!
# How long a request can wait

The only thing that ends the wait for a slave that is silent is the look
`modbusmq_loop_prepare` takes at the clock. A head is noted at one look, may be sent until
the next that counts, and is given up at the one after that: three frame timeouts for the
head and for every request in front of one that waits, and no request waits for ever.
-/

namespace Modbusmq

/-- The reading of the clock that a call keeps, or compares with one that was kept. -/
def reading (made : Call × Env) : Option Millitime :=
  match made.1 with
  | .prepare _ => some (made.2.clock .head)
  | .writeRead _ => some (made.2.clock .stamp)
  | _ => none

def look (made : Call × Env) : Option ℕ :=
  match made.1 with
  | .prepare _ => some (made.2.clock .head).toNat
  | _ => none

/-- How many requests a call may put in front of one that waits: a request of the application
comes before the polls. -/
def Call.overtakes (flags : Flags) : Call → ℕ
  | post _ _ | raw _ _ => if flags = .subscribe then 1 else 0
  | _ => 0

/-- How many requests may come in front of one that waits. -/
def overtaking (flags : Flags) (calls : List (Call × Env)) : ℕ :=
  (calls.map fun made => made.1.overtakes flags).sum

/-- The looks a head can still outlast: it is on the wire since the last one that counted, or is
known since then, or may be new. -/
def headLooks (c : Context) (last : ℕ) : ℕ :=
  match c.queue with
  | [] => 0
  | w :: _ =>
    if w.msg.OnWire ∧ c.lastWriteMs.toNat ≤ last then 1
    else if w.headSinceMs ≠ 0 ∧ w.headSinceMs.toNat ≤ last then 2
    else 3

/-- The looks that a queued request can still outlast. -/
def looksLeft (ticket : Flags × ℕ) (c : Context) (last : ℕ) : ℕ :=
  3 * (c.queue.map Wrapper.ticket).idxOf ticket + headLooks c last

def Queued (ticket : Flags × ℕ) (c : Context) : Prop := ticket ∈ c.queue.map Wrapper.ticket

theorem headLooks_pos {c : Context} (h : c.queue ≠ []) (last : ℕ) : 0 < headLooks c last := by
  unfold headLooks
  split
  · contradiction
  · split_ifs <;> omega

theorem headLooks_le (c : Context) (last : ℕ) : headLooks c last ≤ 3 := by
  unfold headLooks
  split
  · omega
  · split_ifs <;> omega

theorem headLooks_congr {c c' : Context} (hhead : c'.queue.head? = c.queue.head?)
    (hwrite : c'.lastWriteMs = c.lastWriteMs) (last : ℕ) :
    headLooks c' last = headLooks c last := by
  unfold headLooks
  rw [hwrite]
  cases hq : c.queue with
  | nil =>
    rw [hq] at hhead
    rw [List.head?_eq_none_iff.1 hhead]
  | cons w rest =>
    rw [hq] at hhead
    obtain ⟨rest', hq'⟩ := List.head?_eq_some_iff.1 hhead
    rw [hq']

theorem queued_ne_nil {ticket : Flags × ℕ} {c : Context} (h : Queued ticket c) : c.queue ≠ [] := by
  rintro hnil
  unfold Queued at h
  rw [hnil] at h
  exact absurd h List.not_mem_nil

section Looks

variable {ticket : Flags × ℕ} {c c' : Context}

theorem looksLeft_same (hqueue : c'.queue = c.queue) (hwrite : c'.lastWriteMs = c.lastWriteMs)
    (last : ℕ) : looksLeft ticket c' last = looksLeft ticket c last := by
  unfold looksLeft
  rw [headLooks_congr (by rw [hqueue]) hwrite, hqueue]

theorem looksLeft_extend (h : Queued ticket c) (hqueue : c.queue <+: c'.queue)
    (hwrite : c'.lastWriteMs = c.lastWriteMs) (last : ℕ) :
    looksLeft ticket c' last = looksLeft ticket c last := by
  obtain ⟨more, hmore⟩ := hqueue
  have hhead : c'.queue.head? = c.queue.head? := by
    rw [← hmore, List.head?_append_of_ne_nil _ (queued_ne_nil h)]
  unfold looksLeft
  rw [headLooks_congr hhead hwrite, ← hmore, List.map_append, List.idxOf_append_of_mem h]

theorem looksLeft_leave {wrapper : Wrapper} {rest : List Wrapper} (hq : c.queue = wrapper :: rest)
    (hrest : c'.queue = rest) (hdistinct : (c.queue.map Wrapper.ticket).Nodup)
    (h : Queued ticket c') (last now : ℕ) : looksLeft ticket c' now < looksLeft ticket c last := by
  have hpos : 0 < headLooks c last := headLooks_pos (by rw [hq]; exact List.cons_ne_nil _ _) last
  have hthree := headLooks_le c' now
  unfold Queued at h
  rw [hrest] at h
  rw [hq, List.map_cons, List.nodup_cons] at hdistinct
  have hne : wrapper.ticket ≠ ticket := fun he => hdistinct.1 (he ▸ h)
  unfold looksLeft
  rw [hq, hrest, List.map_cons, List.idxOf_cons_ne _ hne]
  omega

theorem looksLeft_head {wrapper wrapper' : Wrapper} {rest : List Wrapper}
    (hq : c.queue = wrapper :: rest) (hq' : c'.queue = wrapper' :: rest)
    (hticket : wrapper'.ticket = wrapper.ticket) {last now : ℕ}
    (hhead : headLooks c' now ≤ headLooks c last) :
    looksLeft ticket c' now ≤ looksLeft ticket c last := by
  unfold looksLeft
  rw [hq, hq', List.map_cons, List.map_cons, hticket]
  omega

theorem looksLeft_head_lt {wrapper wrapper' : Wrapper} {rest : List Wrapper}
    (hq : c.queue = wrapper :: rest) (hq' : c'.queue = wrapper' :: rest)
    (hticket : wrapper'.ticket = wrapper.ticket) {last now : ℕ}
    (hhead : headLooks c' now < headLooks c last) :
    looksLeft ticket c' now < looksLeft ticket c last := by
  unfold looksLeft
  rw [hq, hq', List.map_cons, List.map_cons, hticket]
  omega

end Looks

/-- A request that enters has a number above all others. -/
theorem QueueStep.old {P : Msg → ℤ → Bool → Prop} {G : Prop} {c c' : Context}
    (h : QueueStep P G c c') : c.serialNext ≤ c'.serialNext ∧
      ∀ w ∈ c'.queue, w.msg.serial < c.serialNext → w.ticket ∈ c.queue.map Wrapper.ticket := by
  cases h with
  | quiet h =>
    rw [h.queue, h.serialNext]
    exact ⟨le_rfl, fun w hw _ => List.mem_map_of_mem hw⟩
  | @enter m flags =>
    refine ⟨Nat.le_succ _, fun w hw hlt => ?_⟩
    rw [postInternal_queue, mem_enqueue] at hw
    rcases hw with hw | rfl
    · exact List.mem_map_of_mem hw
    · rw [preparedMsg_serial] at hlt
      exact absurd hlt (lt_irrefl _)
  | @stay wrapper rest hq s hs since =>
    refine ⟨hs.serialNext.ge, fun w hw _ => ?_⟩
    rw [hq]
    rcases List.mem_cons.1 hw with rfl | hw
    · exact List.mem_map.2 ⟨wrapper, List.mem_cons_self, Prod.ext rfl hs.serial.symm⟩
    · exact List.mem_map_of_mem (List.mem_cons_of_mem _ hw)
  | leave hq _ _ _ _ hrest hnext =>
    refine ⟨hnext.ge, fun w hw _ => ?_⟩
    rw [hrest] at hw
    rw [hq]
    exact List.mem_map_of_mem (List.mem_cons_of_mem _ hw)

theorem QueueSteps.old {P : Msg → ℤ → Bool → Prop} {G : Prop} {c c' : Context}
    (h : QueueSteps P G c c') : c.serialNext ≤ c'.serialNext ∧
      ∀ w ∈ c'.queue, w.msg.serial < c.serialNext → w.ticket ∈ c.queue.map Wrapper.ticket := by
  induction h with
  | refl => exact ⟨le_rfl, fun w hw _ => List.mem_map_of_mem hw⟩
  | tail _ hstep ih =>
    obtain ⟨hnext, hold⟩ := QueueStep.old hstep
    refine ⟨ih.1.trans hnext, fun w hw hlt => ?_⟩
    obtain ⟨w', hw', hticket⟩ := List.mem_map.1 (hold w hw (hlt.trans_le ih.1))
    have hserial : w'.msg.serial = w.msg.serial := congrArg Prod.snd hticket
    rw [← hticket]
    exact ih.2 w' hw' (hserial ▸ hlt)

/-- A request with a number that is given out was in the queue before, if it is now. -/
theorem Queued.before {P : Msg → ℤ → Bool → Prop} {G : Prop} {ticket : Flags × ℕ} {c c' : Context}
    (h : Queued ticket c') (hsteps : QueueSteps P G c c') (hgiven : ticket.2 < c.serialNext) :
    Queued ticket c := by
  obtain ⟨w, hw, rfl⟩ := List.mem_map.1 h
  exact (QueueSteps.old hsteps).2 w hw hgiven

/-- A request of the application comes in front of the polls. -/
theorem looksLeft_enter {ticket : Flags × ℕ} {c : Context} (hlanes : TwoLanes c)
    (h : Queued ticket c) (m : Msg) (flags : Flags) (last : ℕ) :
    looksLeft ticket (postInternal c m flags) last ≤ looksLeft ticket c last +
      3 * if flags = .post ∧ ¬ ticket.1 = .post then 1 else 0 := by
  obtain ⟨lanes, left, hqueue, -⟩ := hlanes
  have hnew : (entry c m flags).ticket = (flags, c.serialNext) :=
    Prod.ext rfl (preparedMsg_serial ..)
  have hentered : (postInternal c m flags).queue.map Wrapper.ticket =
      (lanes.push (flags, c.serialNext)).toList := by
    have hlane : ∀ w : Wrapper,
        (fun ticket : Flags × ℕ => ticket.1 = .post) w.ticket ↔ w.Urgent := fun _ => Iff.rfl
    rw [postInternal_lane, Lanes.toList_push, ← hqueue, ← hnew]
    exact Lanes.map_cutIn hlane ..
  have hhead : (postInternal c m flags).queue.head? = c.queue.head? := by
    cases hq : c.queue with
    | nil => exact absurd hq (queued_ne_nil h)
    | cons w rest => exact (postInternal_headStays c m flags).head w (by rw [hq]; rfl)
  have hmem : ticket ∈ lanes.toList := by
    rw [← hqueue]
    exact h
  have hplace := lanes.idxOf_push_le (flags, c.serialNext) hmem
  unfold looksLeft
  rw [headLooks_congr hhead rfl, hentered, hqueue]
  dsimp only at hplace
  omega

theorem ScheduleSteps.extends {env : Env} {c c' : Context} (h : ScheduleSteps env c c') :
    c.queue <+: c'.queue := by
  have hgate : ∀ (c : Context) (timer : Timer) (now : Millitime) (i : ℕ),
      c.queue <+: (gatePost c timer now i).queue := by
    intro c timer now i
    have hsame := (slaveGate_quiet c timer now).queue
    unfold gatePost
    split_ifs
    · rw [← hsame]
      unfold postTimer
      split
      · exact List.prefix_refl _
      · change _ <+: (postInternal _ _ _).queue
        rw [postInternal_queue]
        unfold enqueue
        cases (slaveGate c timer now).2.queue with
        | nil => exact List.nil_prefix
        | cons head rest => exact List.prefix_append _ _
    · rw [hsame]
  induction h with
  | refl => exact List.prefix_refl _
  | tail _ hstep ih =>
    cases hstep with
    | books => exact ih
    | due => exact ih.trans (hgate ..)
    | turn => exact ih.trans (hgate ..)

/-- What is known of the state a call is made in, and of the request that waits. -/
structure Attends (ticket : Flags × ℕ) (c : Context) : Prop where
  wellFormed : WellFormed c
  lanes : TwoLanes c
  distinct : (c.queue.map Wrapper.ticket).Nodup
  given : ticket.2 < c.serialNext

section Calls

variable {ticket : Flags × ℕ} {c : Context}

theorem looksLeft_scheduled {env : Env} {c₁ c' : Context} (h : ScheduleSteps env c₁ c')
    (htemplates : Templates c₁) (hgiven : ticket.2 < c₁.serialNext) (hqueued : Queued ticket c')
    (last : ℕ) : Queued ticket c₁ ∧ looksLeft ticket c' last = looksLeft ticket c₁ last := by
  have hsteps : QueueSteps (fun _ _ _ => True) False c₁ c' := h.steps htemplates
  have hbefore : Queued ticket c₁ := hqueued.before hsteps hgiven
  exact ⟨hbefore, looksLeft_extend hbefore h.extends h.headStays.lastWriteMs last⟩

theorem headLooks_stamped {wrapper : Wrapper} {rest : List Wrapper} (hq : c.queue = wrapper :: rest)
    (now : Millitime) (last : ℕ) :
    headLooks { c with queue := stampHead wrapper now :: rest } last ≤ headLooks c last := by
  unfold headLooks
  rw [hq]
  dsimp only
  rw [stampHead_msg]
  by_cases hzero : wrapper.headSinceMs = 0
  · split_ifs <;> first | omega | exact absurd hzero (And.left ‹_ ∧ _›)
  · have hsame : stampHead wrapper now = wrapper := if_neg hzero
    rw [hsame]

/-- `modbusmq_loop_prepare` gives the head up or notes it, and posts polls. -/
theorem loopPrepare_looks (h : Attends ticket c) (hconn : c.connected) (sleepTime : Millitime)
    (env : Env) (hqueued : Queued ticket (loopPrepare c sleepTime env).ctx) :
    ∃ wrapper rest, c.queue = wrapper :: rest ∧
      ((TimesOut c wrapper env ∧ ∀ last now,
          looksLeft ticket (loopPrepare c sleepTime env).ctx now < looksLeft ticket c last) ∨
        ¬ TimesOut c wrapper env ∧ Queued ticket c ∧ ∀ now,
          looksLeft ticket (loopPrepare c sleepTime env).ctx now =
            looksLeft ticket { c with queue := stampHead wrapper (env.clock .head) :: rest } now) := by
  have hwell := (timeOutHead_steps (P := fun _ _ _ => True) (G := False) h.wellFormed env
    fun _ _ _ => trivial)
  have htemplates := (QueueSteps.wellFormed hwell h.wellFormed).templates
  have hgiven := h.given.trans_le (QueueSteps.old hwell).1
  have hschedule := loopPrepareSubscription_schedule (timeOutHead c env) sleepTime env
  rw [loopPrepare, if_pos hconn, prepareEvents_ctx] at hqueued ⊢
  have hlater := looksLeft_scheduled hschedule htemplates hgiven hqueued
  have hbefore : Queued ticket c := (hlater 0).1.before hwell h.given
  cases hq : c.queue with
  | nil => exact absurd hq (queued_ne_nil hbefore)
  | cons wrapper rest =>
    refine ⟨wrapper, rest, rfl, ?_⟩
    rw [timeOutHead_cons hq] at hlater ⊢
    split_ifs at hlater ⊢ with hout
    · refine .inl ⟨hout, fun last now => ?_⟩
      rw [(hlater now).2]
      exact looksLeft_leave hq (timedOut_queue ..) h.distinct (hlater now).1 last now
    · exact .inr ⟨hout, hbefore, fun now => (hlater now).2⟩

theorem loopWriteRead_looks (h : Attends ticket c) (revents : Revents) (env : Env)
    (hqueued : Queued ticket (loopWriteRead c revents env).2) (last : ℕ) :
    looksLeft ticket (loopWriteRead c revents env).2 last ≤ looksLeft ticket c last := by
  have hsteps : QueueSteps (fun _ _ _ => True) False c (loopWriteRead c revents env).2 :=
    loopWriteRead_steps h.wellFormed revents env (fun _ _ _ _ _ _ => trivial) False.elim
  have hbefore : Queued ticket c := hqueued.before hsteps h.given
  cases hq : c.queue with
  | nil => exact absurd hq (queued_ne_nil hbefore)
  | cons wrapper rest =>
    rcases loopWriteRead_queue hq revents env with ⟨hqueue, hwrite⟩ | hqueue
    · have hunder := (h.wellFormed.head wrapper (by rw [hq]; rfl)).underway
      have hserved := handleWriteRead_served (G := False) revents env hunder False.elim
      obtain ⟨-, -, n, -, -, -, hwriter, hle, -⟩ := hserved.moved
      obtain ⟨hold, -⟩ := handleWriteRead_lastWrite revents env hunder
      have hticket : ({ wrapper with msg := (handleWriteRead c wrapper.msg revents env).msg } :
          Wrapper).ticket = wrapper.ticket := Prod.ext rfl hserved.serial
      refine looksLeft_head hq hqueue hticket ?_
      unfold headLooks
      rw [hq, hqueue, hwrite]
      dsimp only
      by_cases hsent : wrapper.msg.OnWire
      · have hstill : (handleWriteRead c wrapper.msg revents env).msg.OnWire := by
          unfold Msg.OnWire at hsent ⊢
          rw [hwriter]
          dsimp only
          omega
        simp only [hold hsent, hsent, hstill]
        exact le_rfl
      · have hno : ¬ (wrapper.msg.OnWire ∧ c.lastWriteMs.toNat ≤ last) := fun h => hsent h.1
        rw [if_neg hno]
        split_ifs <;> omega
    · exact (looksLeft_leave hq hqueue h.distinct hqueued last last).le

/-- A call that is no look at the clock in time leaves as many looks as before, but for the
requests it puts in front. -/
theorem perform_looks (h : Attends ticket c) (hconn : c.connected) (call : Call) (env : Env)
    (hqueued : Queued ticket (call.perform c env)) (last : ℕ) :
    looksLeft ticket (call.perform c env) last ≤
      looksLeft ticket c last + 3 * call.overtakes ticket.1 := by
  have hsteps : QueueSteps (fun _ _ _ => True) False c (call.perform c env) :=
    call.steps h.wellFormed env (fun _ => trivial) False.elim
  have hbefore : Queued ticket c := hqueued.before hsteps h.given
  have hsame : ∀ {c' : Context}, c'.queue = c.queue → c'.lastWriteMs = c.lastWriteMs →
      looksLeft ticket c' last ≤ looksLeft ticket c last + 3 * call.overtakes ticket.1 :=
    fun hqueue hwrite => (looksLeft_same hqueue hwrite last).le.trans (Nat.le_add_right ..)
  have hpost : ∀ m, looksLeft ticket (postInternal c m .post) last ≤
      looksLeft ticket c last + 3 * if ticket.1 = .subscribe then 1 else 0 := by
    intro m
    have hle := looksLeft_enter h.lanes hbefore m .post last
    cases hflags : ticket.1 with
    | post => rwa [hflags] at hle
    | subscribe => rwa [hflags] at hle
  cases call with
  | post slaveId request =>
    change looksLeft ticket (postRequest c slaveId request) last ≤ _
    unfold postRequest
    split
    · exact hpost _
    · exact hsame rfl rfl
  | raw text stray =>
    change looksLeft ticket (rawRequest c text stray).2 last ≤ _
    unfold rawRequest
    dsimp only
    split
    · exact hsame rfl rfl
    · exact hpost _
  | subscribe slaveId request interval =>
    change looksLeft ticket (subscribeRequest c slaveId request interval env) last ≤ _
    rcases subscribeRequest_cases c slaveId request interval env with
      hsub | ⟨mode, writer, timer, -, -, -, -, hadded⟩
    · rw [hsub]
      exact hsame rfl rfl
    · rw [hadded]
      exact hsame rfl rfl
  | prepare sleepTime =>
    obtain ⟨wrapper, rest, hq, ⟨-, hlower⟩ | ⟨-, -, hstamped⟩⟩ :=
      loopPrepare_looks h hconn sleepTime env hqueued
    · exact (hlower last last).le.trans (Nat.le_add_right ..)
    · refine (hstamped last).le.trans (le_trans ?_ (Nat.le_add_right ..))
      exact looksLeft_head hq rfl (Prod.ext (stampHead_flags ..)
        (congrArg Msg.serial (stampHead_msg ..))) (headLooks_stamped hq _ last)
  | writeRead revents =>
    exact (loopWriteRead_looks h revents env hqueued last).trans (Nat.le_add_right ..)
  | reset =>
    have hnone : (Call.perform c env .reset).queue = [] := dropAll_queue env _ rfl
    exact absurd hnone (queued_ne_nil hqueued)
  | rearm => exact hsame rfl rfl
  | focus slave =>
    change looksLeft ticket (setFocus c slave).2 last ≤ _
    unfold setFocus
    split
    · exact hsame rfl rfl
    · split_ifs <;> exact hsame rfl rfl
  | connect opened =>
    change looksLeft ticket (Modbusmq.connect c opened).2 last ≤ _
    unfold Modbusmq.connect
    split_ifs <;> exact hsame rfl rfl
  | close => exact hsame rfl rfl
  | configure config processConfig frameTimeoutMs => exact hsame rfl rfl
  | arrive bytes => exact hsame rfl rfl

/-- The times that are kept for the head are no later than the clock. -/
def TimesBefore (c : Context) (now : Millitime) : Prop :=
  ∀ wrapper ∈ c.queue.head?, (wrapper.msg.OnWire → c.lastWriteMs ≤ now) ∧ wrapper.headSinceMs ≤ now

/-- A head that does not time out a whole timeout after the last look that counted was noted,
or sent, since then. -/
theorem headLooks_beat {wrapper : Wrapper} {rest : List Wrapper} {env : Env} {last : ℕ}
    (hq : c.queue = wrapper :: rest) (htimes : TimesBefore c (env.clock .head))
    (hbeat : last + c.frameTimeoutMs.toNat ≤ (env.clock .head).toNat)
    (hout : ¬ TimesOut c wrapper env) :
    headLooks { c with queue := stampHead wrapper (env.clock .head) :: rest }
      (env.clock .head).toNat < headLooks c last := by
  obtain ⟨hwire, hsince⟩ := htimes wrapper (by rw [hq]; rfl)
  rw [timesOut_iff] at hout
  generalize env.clock .head = now at hwire hsince hbeat hout ⊢
  have hwait : ∀ start : Millitime, start ≤ now → ¬ c.frameTimeoutMs ≤ now - start →
      last < start.toNat := by
    intro start hle hlong
    rw [UInt64.le_iff_toNat_le, UInt64.toNat_sub_of_le _ _ hle] at hlong
    rw [UInt64.le_iff_toNat_le] at hle
    omega
  unfold deadlineStart at hout
  unfold headLooks
  rw [hq]
  dsimp only
  rw [stampHead_msg]
  by_cases hsent : wrapper.msg.OnWire
  · rw [if_pos hsent] at hout
    have hlate := hwait _ (hwire hsent) hout
    have hnow := UInt64.le_iff_toNat_le.1 (hwire hsent)
    have hno : ¬ (wrapper.msg.OnWire ∧ c.lastWriteMs.toNat ≤ last) := fun h => by omega
    rw [if_pos ⟨hsent, hnow⟩, if_neg hno]
    split_ifs <;> omega
  · rw [if_neg hsent] at hout
    have hno : ∀ n, ¬ (wrapper.msg.OnWire ∧ c.lastWriteMs.toNat ≤ n) := fun _ h => hsent h.1
    rw [if_neg (hno _), if_neg (hno _)]
    by_cases hzero : wrapper.headSinceMs = 0
    · have hnow : (stampHead wrapper now).headSinceMs = now := by
        unfold stampHead
        rw [if_pos hzero]
      rw [hnow] at hout ⊢
      have hlate := hwait now (UInt64.le_refl now) hout
      have hpos : now ≠ 0 := by
        rintro rfl
        exact absurd hlate (Nat.not_lt_zero _)
      rw [if_pos ⟨hpos, le_rfl⟩, if_neg fun h => h.1 hzero]
      omega
    · have hsame : stampHead wrapper now = wrapper := if_neg hzero
      rw [hsame] at hout ⊢
      have hlate := hwait _ hsince hout
      have hno : ¬ (wrapper.headSinceMs ≠ 0 ∧ wrapper.headSinceMs.toNat ≤ last) := fun h => by omega
      rw [if_pos ⟨hzero, UInt64.le_iff_toNat_le.1 hsince⟩, if_neg hno]
      omega

/-- A look at the clock, a whole timeout after the last one that counted, is one less to
outlast. -/
theorem loopPrepare_beat (h : Attends ticket c) (hconn : c.connected) (sleepTime : Millitime)
    {env : Env} {last : ℕ} (htimes : TimesBefore c (env.clock .head))
    (hbeat : last + c.frameTimeoutMs.toNat ≤ (env.clock .head).toNat)
    (hqueued : Queued ticket (loopPrepare c sleepTime env).ctx) :
    looksLeft ticket (loopPrepare c sleepTime env).ctx (env.clock .head).toNat <
      looksLeft ticket c last := by
  obtain ⟨wrapper, rest, hq, ⟨-, hlower⟩ | ⟨hout, -, hstamped⟩⟩ :=
    loopPrepare_looks h hconn sleepTime env hqueued
  · exact hlower last _
  · rw [hstamped]
    exact looksLeft_head_lt hq rfl (Prod.ext (stampHead_flags ..)
      (congrArg Msg.serial (stampHead_msg ..))) (headLooks_beat hq htimes hbeat hout)

end Calls

def ClockForward (calls : List (Call × Env)) : Prop := (calls.filterMap reading).Pairwise (· ≤ ·)

instance (calls : List (Call × Env)) : Decidable (ClockForward calls) :=
  inferInstanceAs (Decidable (List.Pairwise _ _))

/-- A request has left the queue. The application was told about it once, before it was
released, unless it is a poll. -/
def Gone (ticket : Flags × ℕ) (c : Context) : Prop :=
  ticket.2 ∉ (ledger c).waiting ∧
    ((ledger c).life ticket.2 = [.accepted ticket.2, .reported ticket.2, .released ticket.2] ∨
      ticket.1 = .subscribe ∧
        (ledger c).life ticket.2 = [.accepted ticket.2, .released ticket.2])

/-- The loop is run again and again on an open bus whose clock does not go back, at least once
every `gap` milliseconds, for so many frame timeouts and gaps. -/
structure KeptTurning (c₀ : Context) (calls more : List (Call × Env)) (timeout : Millitime)
    (gap timeouts : ℕ) : Prop where
  pause : 0 < gap
  clock : ClockForward (calls ++ more)
  opened : Along (fun c _ _ => c.connected ∧ c.frameTimeoutMs = timeout) more (run calls c₀)
  looks : ∃ first later, more.filterMap look = first :: later ∧
    (first :: later).IsChain (fun a b => b ≤ a + gap) ∧
      first + timeouts * (timeout.toNat + gap) ≤
        (first :: later).getLast (List.cons_ne_nil _ _)

section Runs

variable {c₀ : Context} {calls more : List (Call × Env)}

theorem CameToHead.mem_readings {serial : ℕ} {now : Millitime}
    (h : CameToHead c₀ calls serial now) : now ∈ calls.filterMap reading := by
  obtain ⟨before, sleepTime, env, after, rfl, rfl, -⟩ := h
  exact List.mem_filterMap.2 ⟨(.prepare sleepTime, env), by simp, rfl⟩

theorem WroteLast.mem_readings {serial : ℕ} {now : Millitime}
    (h : WroteLast c₀ calls serial now) : now ∈ calls.filterMap reading := by
  obtain ⟨before, revents, env, after, rfl, rfl, -⟩ := h
  exact List.mem_filterMap.2 ⟨(.writeRead revents, env), by simp, rfl⟩

/-- The times that are kept were read before the clock is looked at. -/
theorem Dated.timesBefore (h : Dated c₀ calls (run calls c₀)) {sleepTime : Millitime} {env : Env}
    (hclock : ClockForward (calls ++ [(.prepare sleepTime, env)])) :
    TimesBefore (run calls c₀) (env.clock .head) := by
  unfold ClockForward at hclock
  rw [List.filterMap_append, List.pairwise_append] at hclock
  have hbefore : ∀ r ∈ calls.filterMap reading, r ≤ env.clock .head := fun r hr =>
    hclock.2.2 r hr _ (List.mem_singleton.2 rfl)
  intro wrapper hhead
  refine ⟨fun hsent => hbefore _ (h.sent wrapper hhead hsent).mem_readings, ?_⟩
  by_cases hzero : wrapper.headSinceMs = 0
  · rw [hzero]
    exact UInt64.zero_le
  · exact hbefore _ (h.found wrapper hhead hzero).mem_readings

theorem run_attends (hfresh : Fresh c₀) (hm : c₀.messageCb) (he : c₀.errorCb)
    (calls : List (Call × Env)) {ticket : Flags × ℕ}
    (hgiven : ticket.2 < (run calls c₀).serialNext) : Attends ticket (run calls c₀) where
  wellFormed := run_wellFormed hfresh.wellFormed calls
  lanes := run_twoLanes hfresh calls
  distinct := by
    have hnumbered := (QueueSteps.ledger (run_steps hfresh.wellFormed calls) hfresh.numbered hm he).1
    refine List.Nodup.of_map Prod.snd ?_
    rw [List.map_map]
    exact hnumbered.distinct
  given := hgiven

/-- Every call leaves fewer looks, or as many as before and what it puts in front. -/
theorem call_descends (hfresh : Fresh c₀) (hm : c₀.messageCb) (he : c₀.errorCb)
    {made : Call × Env} {ticket : Flags × ℕ} (hgiven : ticket.2 < (run calls c₀).serialNext)
    (hclock : ClockForward (calls ++ [made])) (hconn : (run calls c₀).connected) :
    Beats.Descends (run calls c₀).frameTimeoutMs.toNat look (fun made => 3 * made.1.overtakes ticket.1)
      (fun last calls => looksLeft ticket (run calls c₀) last)
      (fun calls => Queued ticket (run calls c₀)) calls made := by
  have hattends := run_attends hfresh hm he calls hgiven
  have hperform : run (calls ++ [made]) c₀ = made.1.perform (run calls c₀) made.2 :=
    run_append calls [made] c₀
  have hsteps : QueueSteps (fun _ _ _ => True) False (run calls c₀)
      (made.1.perform (run calls c₀) made.2) :=
    made.1.steps hattends.wellFormed made.2 (fun _ => trivial) False.elim
  refine ⟨fun hqueued => ?_, fun hqueued last => ?_, fun hqueued last now hlook hbeat => ?_⟩
  all_goals rw [hperform] at hqueued
  · exact hqueued.before hsteps hgiven
  · rw [hperform]
    exact perform_looks hattends hconn made.1 made.2 hqueued last
  · rw [hperform]
    obtain ⟨call, env⟩ := made
    cases call with
    | prepare sleepTime =>
      obtain rfl : (env.clock .head).toNat = now := Option.some.inj hlook
      have htimes := (run_dated hfresh calls).timesBefore hclock
      exact (loopPrepare_beat hattends hconn sleepTime htimes hbeat hqueued).trans_le
        (Nat.le_add_right ..)
    | _ => exact absurd hlook (Option.not_mem_none _)

/-- What is said about a request that was in the queue once and is not now. -/
theorem gone_of_left (hfresh : Fresh c₀) (hm : c₀.messageCb) (he : c₀.errorCb) {w : Wrapper}
    (hw : w ∈ (run calls c₀).queue) (hleft : ¬ Queued w.ticket (run (calls ++ more) c₀)) :
    Gone w.ticket (run (calls ++ more) c₀) := by
  have hnow := QueueSteps.ledger (run_steps hfresh.wellFormed calls) hfresh.numbered hm he
  have hlater := QueueSteps.ledger (run_steps hfresh.wellFormed (calls ++ more)) hfresh.numbered hm he
  have hwell := run_wellFormed hfresh.wellFormed calls
  have hbetween := run_steps hwell more
  rw [← run_append] at hbetween
  rw [hfresh.ledger] at hnow hlater
  have hkept := hlater.2.kept Ledger.kept_empty
  have hgone : w.msg.serial ∉ (ledger (run (calls ++ more) c₀)).waiting := by
    rintro ⟨w', hw', hserial⟩
    have hgiven := hnow.1.queue w hw
    obtain ⟨w₁, hw₁, hticket⟩ := List.mem_map.1
      ((QueueSteps.old hbetween).2 w' hw' (hserial ▸ hgiven))
    have hserial₁ : w₁.msg.serial = w.msg.serial := (congrArg Prod.snd hticket).trans hserial
    obtain rfl : w₁ = w := List.inj_on_of_nodup_map hnow.1.distinct hw₁ hw hserial₁
    exact hleft (hticket ▸ List.mem_map_of_mem hw')
  have hsetup := QueueSteps.sameSetup (run_steps hfresh.wellFormed calls)
  obtain ⟨hwritten, howed⟩ := (QueueSteps.ledger hbetween hnow.1 (by rwa [hsetup.messageCb])
    (by rwa [hsetup.errorCb])).2.remembers
  have haccepted : .accepted w.msg.serial ∈ (ledger (run calls c₀)).history := by
    have hlife := (hnow.2.kept Ledger.kept_empty).waiting w.msg.serial ⟨w, hw, rfl⟩
    have hmem : .accepted w.msg.serial ∈ (ledger (run calls c₀)).life w.msg.serial := by
      rw [hlife]
      exact List.mem_singleton.2 rfl
    exact List.mem_of_mem_filter hmem
  refine ⟨hgone, ?_⟩
  rcases hkept.settled w.msg.serial hgone with hnever | honce | ⟨hfree, hlife⟩
  · have hmem : .accepted w.msg.serial ∈
        (ledger (run (calls ++ more) c₀)).life w.msg.serial :=
      List.mem_filter.2 ⟨hwritten.subset haccepted, decide_eq_true rfl⟩
    rw [hnever] at hmem
    exact absurd hmem List.not_mem_nil
  · exact .inl honce
  · refine .inr ⟨?_, hlife⟩
    change w.flags = .subscribe
    cases hflags : w.flags with
    | post => exact absurd ((howed _ haccepted).2 ((hnow.1.flags w hw).1 hflags)) hfree
    | subscribe => rfl

/-- A request is not queued any more when the loop has been run for three frame timeouts for it
and for each request in front of it. -/
theorem not_queued_in_time (hfresh : Fresh c₀) (hm : c₀.messageCb) (he : c₀.errorCb)
    {front back : List Wrapper} {w : Wrapper} (hq : (run calls c₀).queue = front ++ w :: back)
    {timeout : Millitime} {gap : ℕ} (h : KeptTurning c₀ calls more timeout gap
      (3 * (front.length + overtaking w.flags more + 1))) :
    ¬ Queued w.ticket (run (calls ++ more) c₀) := by
  obtain ⟨hgap, hclock, hopen, first, later, hlooks, hregular, hlate⟩ := h
  have hnumbered := (QueueSteps.ledger (run_steps hfresh.wellFormed calls) hfresh.numbered hm he).1
  have hw : w ∈ (run calls c₀).queue := by
    rw [hq]
    exact List.mem_append_right _ List.mem_cons_self
  have hgiven : w.ticket.2 < (run calls c₀).serialNext := hnumbered.queue w hw
  have hattends := run_attends hfresh hm he calls hgiven
  have hplace : ((run calls c₀).queue.map Wrapper.ticket).idxOf w.ticket = front.length := by
    have hdistinct := hattends.distinct
    rw [hq, List.map_append, List.map_cons] at hdistinct ⊢
    have hnot : w.ticket ∉ front.map Wrapper.ticket := fun hmem =>
      (List.disjoint_of_nodup_append hdistinct) hmem List.mem_cons_self
    rw [List.idxOf_append_of_notMem hnot, List.idxOf_cons_self, List.length_map, Nat.add_zero]
  have hbeats : 3 * (front.length + overtaking w.flags more + 1) ≤
      Beats.beats timeout.toNat first (more.filterMap look) := by
    rw [hlooks]
    refine Beats.le_beats hgap (List.isChain_cons_cons.2 ⟨Nat.le_add_right .., hregular⟩) ?_
    rw [List.getLast_cons_cons]
    exact hlate
  have henough : looksLeft w.ticket (run calls c₀) first +
      (more.map fun made => 3 * made.1.overtakes w.flags).sum ≤
        Beats.beats timeout.toNat first (more.filterMap look) := by
    have hsum : (more.map fun made => 3 * made.1.overtakes w.flags).sum =
        3 * overtaking w.flags more := List.sum_map_mul_left ..
    have hthree := headLooks_le (run calls c₀) first
    unfold looksLeft
    rw [hplace, hsum]
    omega
  have hpos : ∀ history last, Queued w.ticket (run history c₀) →
      0 < looksLeft w.ticket (run history c₀) last := by
    intro history last hqueued
    have hlooks := headLooks_pos (queued_ne_nil hqueued) last
    unfold looksLeft
    omega
  have hdescends : ∀ before made after, more = before ++ made :: after →
      Beats.Descends timeout.toNat look (fun made => 3 * made.1.overtakes w.flags)
        (fun last calls => looksLeft w.ticket (run calls c₀) last)
        (fun calls => Queued w.ticket (run calls c₀)) (calls ++ before) made := by
    rintro before made after rfl
    obtain ⟨hconn, htimeout⟩ := Along.get hopen
    rw [← run_append] at hconn htimeout
    have hgiven' : w.ticket.2 < (run (calls ++ before) c₀).serialNext := by
      refine hgiven.trans_le ?_
      rw [run_append]
      exact (QueueSteps.old (run_steps hattends.wellFormed before)).1
    have hclock' : ClockForward (calls ++ before ++ [made]) := by
      have hsplit : calls ++ (before ++ made :: after) = calls ++ before ++ [made] ++ after := by simp
      rw [hsplit] at hclock
      exact hclock.sublist ((List.sublist_append_left _ after).filterMap _)
    have hcall := call_descends hfresh hm he hgiven' hclock' hconn
    rwa [htimeout] at hcall
  exact Beats.done_of_beats hpos hdescends henough

theorem KeptTurning.mono {timeout : Millitime} {gap timeouts fewer : ℕ}
    (h : KeptTurning c₀ calls more timeout gap timeouts) (hle : fewer ≤ timeouts) :
    KeptTurning c₀ calls more timeout gap fewer := by
  obtain ⟨first, later, hlooks, hregular, hlate⟩ := h.looks
  exact { h with looks := ⟨first, later, hlooks, hregular,
    le_trans (Nat.add_le_add_left (Nat.mul_le_mul_right _ hle) first) hlate⟩ }

/-- Nothing comes in front of a request of the application. -/
theorem overtaking_post (calls : List (Call × Env)) : overtaking .post calls = 0 := by
  refine List.sum_eq_zero fun n hn => ?_
  obtain ⟨made, -, rfl⟩ := List.mem_map.1 hn
  cases made.1 <;> rfl

/-- So three timeouts for each request in the queue are enough for all of the application's. -/
theorem posts_not_queued_in_time (hfresh : Fresh c₀) (hm : c₀.messageCb) (he : c₀.errorCb)
    {w : Wrapper} (hw : w ∈ (run calls c₀).queue) (hpost : w.flags = .post) {timeout : Millitime}
    {gap : ℕ} (h : KeptTurning c₀ calls more timeout gap (3 * (run calls c₀).queue.length)) :
    ¬ Queued w.ticket (run (calls ++ more) c₀) := by
  obtain ⟨front, back, hq⟩ := List.append_of_mem hw
  refine not_queued_in_time hfresh hm he hq (h.mono ?_)
  rw [hpost, overtaking_post, hq, List.length_append, List.length_cons]
  omega

/-- A request that is in the queue leaves it in time, and the application is told: after three
frame timeouts, and three times the pause between two turns of the loop, for the request and for
each one in front of it. -/
theorem request_leaves_in_time (hfresh : Fresh c₀) (hm : c₀.messageCb) (he : c₀.errorCb)
    {front back : List Wrapper} {w : Wrapper} (hq : (run calls c₀).queue = front ++ w :: back)
    {timeout : Millitime} {gap : ℕ} (h : KeptTurning c₀ calls more timeout gap
      (3 * (front.length + overtaking w.flags more + 1))) :
    Gone w.ticket (run (calls ++ more) c₀) := by
  have hw : w ∈ (run calls c₀).queue := by
    rw [hq]
    exact List.mem_append_right _ List.mem_cons_self
  exact gone_of_left hfresh hm he hw (not_queued_in_time hfresh hm he hq h)

end Runs

def silentPosts : List (Call × Env) :=
  [(.post 1 (.writeRegister 7 42), atTime 10000), (.post 1 (.writeRegister 8 43), atTime 10000)]

def silentTurns : List (Call × Env) :=
  (List.range 12).flatMap fun i => [(.prepare 100, atTime (10000 + 600 * i.toUInt64)),
    (.writeRead ⟨false, true, false, false⟩, atTime (10000 + 600 * i.toUInt64))]

/-- The context of an application that has set both callbacks. -/
def toldContext : Context := { openedContext with messageCb := true, errorCb := true }

/-- The second one is reported, once, though nobody ever answered. -/
theorem request_leaves_in_time_example :
    (ledger (run (silentPosts ++ silentTurns) toldContext)).life 1 =
        [.accepted 1, .reported 1, .released 1] := by
  obtain ⟨first, second, hq, hserial, hpost⟩ : ∃ first second,
      (run silentPosts toldContext).queue = [first] ++ second :: [] ∧ second.msg.serial = 1 ∧
        second.flags = .post := ⟨_, _, rfl, rfl, rfl⟩
  have hnone : overtaking second.flags silentTurns = 0 := by
    rw [hpost]
    rfl
  have hturning : KeptTurning toldContext silentPosts silentTurns 500 600
      (3 * ([first].length + overtaking second.flags silentTurns + 1)) := by
    rw [hnone, List.length_singleton]
    exact ⟨by decide, by decide +kernel, by decide +kernel, 10000,
      (List.range 11).map fun i => 10600 + 600 * i, by decide +kernel, by decide +kernel,
      by decide +kernel⟩
  have hgone := request_leaves_in_time ⟨rfl, rfl, rfl, rfl⟩ rfl rfl hq hturning
  unfold Wrapper.ticket at hgone
  rw [hpost, hserial] at hgone
  rcases hgone.2 with hlife | ⟨habsurd, -⟩
  · exact hlife
  · exact absurd habsurd (by decide)

end Modbusmq
