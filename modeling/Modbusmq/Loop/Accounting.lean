import Modbusmq.Library.Ledger
import Modbusmq.Loop.Run

/-!
# Every posted request is reported once

The queue is a ledger of requests. Posting accepts a request, and every way out
of the queue releases it. A request of the application is owed a report; a poll
is not, its answer goes to the inputs it matches.
-/

namespace Modbusmq

def Event.entry : Event → Option (Entry ℕ)
  | posted _ m => some (.accepted m.serial)
  | reported m _ => some (.reported m.serial)
  | released m _ => some (.released m.serial)
  | _ => none

/-- The requests in the queue, those the application posted, and what happened to all. -/
def ledger (c : Context) : Ledger ℕ where
  waiting := {serial | ∃ wrapper ∈ c.queue, wrapper.msg.serial = serial}
  owed := {serial | ∃ m, .posted .post m ∈ c.log ∧ m.serial = serial}
  history := c.log.filterMap Event.entry

/-- The serial numbers in the queue are distinct, none has been given out twice, and the
flags of an entry say whether its report is owed. -/
structure Numbered (c : Context) : Prop where
  flags : ∀ wrapper ∈ c.queue, wrapper.flags = .post ↔ wrapper.msg.serial ∈ (ledger c).owed
  queue : ∀ wrapper ∈ c.queue, wrapper.msg.serial < c.serialNext
  distinct : (c.queue.map (·.msg.serial)).Nodup
  history : ∀ e ∈ (ledger c).history, e.item < c.serialNext

theorem mem_history_accepted {c : Context} {flags : Flags} {m : Msg} (h : .posted flags m ∈ c.log) :
    .accepted m.serial ∈ (ledger c).history :=
  List.mem_filterMap.2 ⟨_, h, rfl⟩

theorem Event.Silent.entry {e : Event} (h : e.Silent) : e.entry = none := by
  cases e <;> first | rfl | exact absurd h id

theorem entries_silent {δ : List Event} (h : ∀ e ∈ δ, e.Silent) : δ.filterMap Event.entry = [] :=
  List.filterMap_eq_nil_iff.2 fun e he => (h e he).entry

theorem owed_append {c c' : Context} {δ : List Event} (hlog : c'.log = c.log ++ δ)
    (h : ∀ m, .posted .post m ∉ δ) : (ledger c').owed = (ledger c).owed := by
  ext serial
  simp only [ledger, hlog, List.mem_append, Set.mem_ofPred_eq]
  constructor
  · rintro ⟨m, hold | hnew, rfl⟩
    · exact ⟨m, hold, rfl⟩
    · exact absurd hnew (h m)
  · rintro ⟨m, hold, rfl⟩
    exact ⟨m, .inl hold, rfl⟩

theorem silent_not_posted {δ : List Event} (h : ∀ e ∈ δ, e.Silent) (m : Msg) :
    .posted .post m ∉ δ := fun hmem => h _ hmem

theorem Quiet.ledger {c c' : Context} (h : Quiet c c') : ledger c' = ledger c := by
  obtain ⟨δ, hlog, hδ⟩ := h.log
  refine Ledger.ext ?_ (owed_append hlog (silent_not_posted hδ)) ?_
  · unfold Modbusmq.ledger
    rw [h.queue]
  · change c'.log.filterMap Event.entry = c.log.filterMap Event.entry
    rw [hlog, List.filterMap_append, entries_silent hδ, List.append_nil]

theorem Served.entries {G : Prop} {c : Context} {m : Msg} {s : WriteRead} (h : Served G c m s) :
    (ledger s.ctx).owed = (ledger c).owed ∧ (ledger s.ctx).history = (ledger c).history := by
  obtain ⟨quiet, sent, n, hlog, hquiet, hsent, -⟩ := h.moved
  rw [List.append_assoc] at hlog
  refine ⟨owed_append hlog fun m' hmem => ?_, ?_⟩
  · rcases List.mem_append.1 hmem with hmem | hmem
    · exact silent_not_posted hquiet m' hmem
    · rcases hsent with ⟨rfl, -⟩ | ⟨unread, rfl⟩
      · exact absurd hmem List.not_mem_nil
      · exact absurd (List.mem_singleton.1 hmem) (by simp)
  · change s.ctx.log.filterMap Event.entry = c.log.filterMap Event.entry
    rw [hlog, List.filterMap_append, List.filterMap_append, entries_silent hquiet]
    rcases hsent with ⟨rfl, -⟩ | ⟨unread, rfl⟩ <;> exact List.append_nil _

/-- A request that enters is put somewhere into the queue. -/
theorem enqueue_perm (queue : List Wrapper) (wrapper : Wrapper) :
    (enqueue queue wrapper).Perm (wrapper :: queue) := by
  unfold enqueue
  split
  · exact .refl _
  · rename_i head rest _
    have hmiddle : (rest.takeWhile (·.flags = .post) ++
        wrapper :: rest.dropWhile (·.flags = .post)).Perm (wrapper :: rest) := by
      conv_rhs => rw [← List.takeWhile_append_dropWhile (p := fun w : Wrapper => w.flags = .post)
        (l := rest)]
      exact List.perm_middle
    exact (hmiddle.cons head).trans (.swap ..)
  · exact List.perm_append_singleton ..

theorem enqueue_serials (queue : List Wrapper) (wrapper : Wrapper) :
    ((enqueue queue wrapper).map (·.msg.serial)).Perm
      (wrapper.msg.serial :: queue.map (·.msg.serial)) :=
  (enqueue_perm queue wrapper).map _

@[simp] theorem preparedMsg_serial (t : Transport) (transactionId : ℕ) (m : Msg) :
    (preparedMsg t transactionId m).serial = m.serial := by
  cases t <;> rfl

@[simp] theorem preparedMsg_reqId (t : Transport) (transactionId : ℕ) (m : Msg) :
    (preparedMsg t transactionId m).reqId = m.reqId := by
  cases t <;> rfl

theorem nextReqId_toNat {last : UInt32} (h : last.toNat + 1 < 2 ^ 32) :
    (nextReqId last).toNat = last.toNat + 1 := by
  have hsucc : (last + 1).toNat = last.toNat + 1 := by
    rw [UInt32.toNat_add, UInt32.toNat_one, Nat.mod_eq_of_lt h]
  have hne : last + 1 ≠ 0 := fun hzero => by
    rw [hzero] at hsucc
    exact absurd hsucc.symm (Nat.succ_ne_zero _)
  rw [nextReqId, if_neg hne, hsucc]

/-- Posting accepts a request under a new serial number, and owes it a report if the
application posted it. -/
theorem ledger_enter (c : Context) (m : Msg) (flags : Flags) :
    (ledger (postInternal c m flags)).waiting = insert c.serialNext (ledger c).waiting ∧
      (∀ serial, serial ∈ (ledger (postInternal c m flags)).owed ↔
        serial ∈ (ledger c).owed ∨ flags = .post ∧ serial = c.serialNext) ∧
      (ledger (postInternal c m flags)).history =
        (ledger c).history ++ [.accepted c.serialNext] := by
  obtain ⟨entered, hlog, hserial⟩ : ∃ entered,
      (postInternal c m flags).log = c.log ++ [.posted flags entered] ∧
        entered.serial = c.serialNext := ⟨_, rfl, preparedMsg_serial ..⟩
  refine ⟨?_, fun serial => ?_, ?_⟩
  · ext serial
    simp only [ledger, postInternal_queue, Set.mem_ofPred_eq, mem_enqueue, Set.mem_insert_iff]
    constructor
    · rintro ⟨wrapper, hold | rfl, rfl⟩
      · exact .inr ⟨wrapper, hold, rfl⟩
      · exact .inl (preparedMsg_serial ..)
    · rintro (rfl | ⟨wrapper, hold, rfl⟩)
      · exact ⟨_, .inr rfl, preparedMsg_serial ..⟩
      · exact ⟨wrapper, .inl hold, rfl⟩
  · simp only [ledger, hlog, Set.mem_ofPred_eq, List.mem_append, List.mem_singleton]
    constructor
    · rintro ⟨m', hold | hnew, rfl⟩
      · exact .inl ⟨m', hold, rfl⟩
      · obtain ⟨rfl, rfl⟩ := Event.posted.inj hnew
        exact .inr ⟨rfl, hserial⟩
    · rintro (⟨m', hold, rfl⟩ | ⟨rfl, rfl⟩)
      · exact ⟨m', .inl hold, rfl⟩
      · exact ⟨entered, .inr rfl, hserial⟩
  · change (postInternal c m flags).log.filterMap Event.entry = _
    rw [hlog, List.filterMap_append]
    simp only [List.filterMap_cons, List.filterMap_nil, Event.entry, hserial]
    rfl

/-- The ledger after a head has left: it no longer waits, and it was reported first or was
a poll. -/
theorem ledger_leave {c c' : Context} (hc : Numbered c) {wrapper : Wrapper} {rest : List Wrapper}
    (hq : c.queue = wrapper :: rest) (hrest : c'.queue = rest) {G : Prop} {s : WriteRead}
    (hs : Served G c wrapper.msg s) {m : Msg} (hserial : m.serial = s.msg.serial)
    {quiet told after : List Event} {error : ℤ}
    (hlog : c'.log = s.ctx.log ++ quiet ++ told ++ [.released m error] ++ after)
    (hquiet : ∀ e ∈ quiet, e.Silent) (htold : Told c wrapper.flags m told)
    (hafter : ∀ e ∈ after, e.Silent)
    (hm : c.messageCb) (he : c.errorCb) :
    (ledger c').waiting = (ledger c).waiting \ {wrapper.msg.serial} ∧
      (ledger c').owed = (ledger c).owed ∧
      ((ledger c').history = (ledger c).history ++
          [.reported wrapper.msg.serial, .released wrapper.msg.serial] ∨
        wrapper.flags = .subscribe ∧
          (ledger c').history = (ledger c).history ++ [.released wrapper.msg.serial]) := by
  have hserial' : m.serial = wrapper.msg.serial := hserial.trans hs.serial
  have hdistinct := hc.distinct
  rw [hq, List.map_cons, List.nodup_cons] at hdistinct
  refine ⟨?_, ?_, ?_⟩
  · ext serial
    simp only [ledger, hq, hrest, Set.mem_ofPred_eq, Set.mem_sdiff, Set.mem_singleton_iff,
      List.mem_cons]
    constructor
    · rintro ⟨w, hw, rfl⟩
      exact ⟨⟨w, .inr hw, rfl⟩, fun h => hdistinct.1 (List.mem_map.2 ⟨w, hw, h⟩)⟩
    · rintro ⟨⟨w, rfl | hw, rfl⟩, hne⟩
      · exact absurd rfl hne
      · exact ⟨w, hw, rfl⟩
  · simp only [List.append_assoc] at hlog
    rw [owed_append hlog, hs.entries.1]
    intro m' hmem
    simp only [List.mem_append, List.mem_singleton] at hmem
    rcases hmem with hmem | hmem | hmem | hmem
    · exact silent_not_posted hquiet m' hmem
    · rcases htold with ⟨report, rfl⟩ | ⟨hsilent, -⟩
      · exact absurd (List.mem_singleton.1 hmem) (by simp)
      · exact silent_not_posted hsilent m' hmem
    · exact absurd hmem (by simp)
    · exact silent_not_posted hafter m' hmem
  · have hhistory : (ledger c').history = (ledger c).history ++ told.filterMap Event.entry ++
        [.released wrapper.msg.serial] := by
      change c'.log.filterMap Event.entry = _
      rw [hlog, List.filterMap_append, List.filterMap_append, List.filterMap_append,
        List.filterMap_append, entries_silent hquiet, entries_silent hafter, List.append_nil,
        List.append_nil, ← hs.entries.2, ← hserial']
      rfl
    rcases htold with ⟨report, rfl⟩ | ⟨hsilent, hpoll⟩
    · refine .inl ?_
      rw [hhistory, ← hserial', List.append_assoc]
      rfl
    · rw [entries_silent hsilent, List.append_nil] at hhistory
      cases hflags : wrapper.flags with
      | post => exact absurd he (hpoll hflags hm)
      | subscribe => exact .inr ⟨rfl, hhistory⟩

variable {P : Msg → ℤ → Bool → Prop} {G : Prop}

theorem QueueStep.ledger {c c' : Context} (h : QueueStep P G c c') (hc : Numbered c)
    (hm : c.messageCb) (he : c.errorCb) :
    Ledger.Steps (Modbusmq.ledger c) (Modbusmq.ledger c') := by
  cases h with
  | quiet h => exact .of_eq h.ledger
  | @enter m flags =>
    obtain ⟨hwaiting, howed, hhistory⟩ := ledger_enter c m flags
    have hothers : ∀ serial ≠ c.serialNext,
        serial ∈ (Modbusmq.ledger (postInternal c m flags)).owed ↔
          serial ∈ (Modbusmq.ledger c).owed := by
      intro serial hne
      rw [howed]
      tauto
    have haccept := Ledger.Step.accept (fun e hmem => (hc.history e hmem).ne) hothers
    rw [← hwaiting, ← hhistory] at haccept
    exact .single haccept
  | @stay wrapper rest hq s hs since =>
    refine .of_eq (Ledger.ext ?_ hs.entries.1 hs.entries.2)
    ext serial
    simp only [Modbusmq.ledger, hq, Set.mem_ofPred_eq, List.mem_cons, exists_eq_or_imp, hs.serial]
  | @leave wrapper rest hq s hs m _ hserial _ _ hrest _ _ _ _ hlog =>
    obtain ⟨quiet, told, after, hlog, hquiet, htold, hafter⟩ := hlog
    obtain ⟨hwaiting, howed, hhistory⟩ :=
      ledger_leave hc hq hrest hs hserial hlog hquiet htold hafter hm he
    have hhead : wrapper ∈ c.queue := by
      rw [hq]
      exact List.mem_cons_self ..
    have hwaits : wrapper.msg.serial ∈ (Modbusmq.ledger c).waiting := ⟨wrapper, hhead, rfl⟩
    rcases hhistory with hhistory | ⟨hpoll, hhistory⟩
    · have hsettle := Ledger.Step.settle hwaits
      rw [← hwaiting, ← howed, ← hhistory] at hsettle
      exact .single hsettle
    · have hfree : wrapper.msg.serial ∉ (Modbusmq.ledger c).owed := by
        intro hmem
        have hpost := (hc.flags wrapper hhead).2 hmem
        rw [hpoll] at hpost
        exact absurd hpost (by decide)
      have hdiscard := Ledger.Step.discard hwaits hfree
      rw [← hwaiting, ← howed, ← hhistory] at hdiscard
      exact .single hdiscard

theorem Numbered.quiet {c c' : Context} (hc : Numbered c) (h : Quiet c c') : Numbered c' := by
  refine ⟨?_, ?_, ?_, ?_⟩
  · rw [h.queue, h.ledger]
    exact hc.flags
  · rw [h.queue, h.serialNext]
    exact hc.queue
  · rw [h.queue]
    exact hc.distinct
  · rw [h.ledger, h.serialNext]
    exact hc.history

/-- A request that enters takes a serial number that nothing has had. -/
theorem Numbered.enter {c : Context} (hc : Numbered c) (m : Msg) (flags : Flags) :
    Numbered (postInternal c m flags) := by
  obtain ⟨-, howed, hhistory⟩ := ledger_enter c m flags
  have hnext : (postInternal c m flags).serialNext = c.serialNext + 1 := rfl
  have hfresh : c.serialNext ∉ (Modbusmq.ledger c).owed := by
    rintro ⟨m', hmem, hserial⟩
    exact (hc.history _ (mem_history_accepted hmem)).ne hserial
  refine ⟨?_, ?_, ?_, ?_⟩
  · intro wrapper hmem
    rw [postInternal_queue, mem_enqueue] at hmem
    rw [howed]
    rcases hmem with hmem | rfl
    · have hlt := (hc.queue wrapper hmem).ne
      rw [hc.flags wrapper hmem]
      tauto
    · rw [preparedMsg_serial]
      exact ⟨fun h => .inr ⟨h, rfl⟩, fun h => h.elim (fun h => absurd h hfresh) And.left⟩
  · intro wrapper hmem
    rw [postInternal_queue, mem_enqueue] at hmem
    rw [hnext]
    rcases hmem with hmem | rfl
    · exact (hc.queue wrapper hmem).trans (Nat.lt_succ_self _)
    · rw [preparedMsg_serial]
      exact Nat.lt_succ_self _
  · rw [postInternal_queue, (enqueue_serials ..).nodup_iff, List.nodup_cons, preparedMsg_serial]
    refine ⟨fun hmem => ?_, hc.distinct⟩
    obtain ⟨wrapper, hwrapper, hserial⟩ := List.mem_map.1 hmem
    exact (hc.queue wrapper hwrapper).ne hserial
  · intro e hmem
    rw [hhistory] at hmem
    rw [hnext]
    rcases List.mem_append.1 hmem with hmem | hmem
    · exact (hc.history e hmem).trans (Nat.lt_succ_self _)
    · rw [List.mem_singleton.1 hmem]
      exact Nat.lt_succ_self _

theorem Numbered.stay {c : Context} (hc : Numbered c) {wrapper : Wrapper} {rest : List Wrapper}
    (hq : c.queue = wrapper :: rest) {s : WriteRead} (hs : Served G c wrapper.msg s)
    (since : Millitime) : Numbered { s.ctx with
      queue := { wrapper with headSinceMs := since, msg := s.msg } :: rest } := by
  obtain ⟨hflags, hqueue, hdistinct, hhistory⟩ := hc
  rw [hq] at hflags hqueue hdistinct
  refine ⟨?_, ?_, ?_, ?_⟩
  · intro w hmem
    change _ ↔ _ ∈ (Modbusmq.ledger s.ctx).owed
    rw [hs.entries.1]
    rcases List.mem_cons.1 hmem with rfl | hmem
    · rw [hs.serial]
      exact hflags wrapper (List.mem_cons_self ..)
    · exact hflags w (List.mem_cons_of_mem _ hmem)
  · intro w hmem
    change w.msg.serial < s.ctx.serialNext
    rw [hs.serialNext]
    rcases List.mem_cons.1 hmem with rfl | hmem
    · rw [hs.serial]
      exact hqueue wrapper (List.mem_cons_self ..)
    · exact hqueue w (List.mem_cons_of_mem _ hmem)
  · rw [List.map_cons] at hdistinct ⊢
    rw [hs.serial]
    exact hdistinct
  · intro e hmem
    change e ∈ (Modbusmq.ledger s.ctx).history at hmem
    change e.item < s.ctx.serialNext
    rw [hs.entries.2] at hmem
    rw [hs.serialNext]
    exact hhistory e hmem

theorem QueueStep.numbered {c c' : Context} (h : QueueStep P G c c') (hc : Numbered c)
    (hm : c.messageCb) (he : c.errorCb) : Numbered c' := by
  cases h with
  | quiet h => exact hc.quiet h
  | enter => exact hc.enter _ _
  | stay hq hs since => exact hc.stay hq hs since
  | @leave wrapper rest hq s hs m _ hserial _ _ hrest hnext _ _ _ hlog =>
    obtain ⟨quiet, told, after, hlog, hquiet, htold, hafter⟩ := hlog
    obtain ⟨-, howed, hhistory⟩ := ledger_leave hc hq hrest hs hserial hlog hquiet htold hafter hm he
    have hmem : ∀ w ∈ c'.queue, w ∈ c.queue := fun w hw => by
      rw [hq]
      exact List.mem_cons_of_mem _ (hrest ▸ hw)
    have hhead := hc.queue wrapper (by rw [hq]; exact List.mem_cons_self ..)
    refine ⟨?_, ?_, ?_, ?_⟩
    · rw [howed]
      exact fun w hw => hc.flags w (hmem w hw)
    · rw [hnext]
      exact fun w hw => hc.queue w (hmem w hw)
    · have hdistinct := hc.distinct
      rw [hq, List.map_cons] at hdistinct
      rw [hrest]
      exact hdistinct.of_cons
    · intro e he
      rw [hnext]
      rcases hhistory with hhistory | ⟨-, hhistory⟩
      · rw [hhistory] at he
        rcases List.mem_append.1 he with he | he
        · exact hc.history e he
        · rcases List.mem_pair.1 he with rfl | rfl <;> exact hhead
      · rw [hhistory] at he
        rcases List.mem_append.1 he with he | he
        · exact hc.history e he
        · rw [List.mem_singleton.1 he]
          exact hhead

theorem QueueSteps.ledger {c c' : Context} (h : QueueSteps P G c c') (hc : Numbered c)
    (hm : c.messageCb) (he : c.errorCb) :
    Numbered c' ∧ Ledger.Steps (Modbusmq.ledger c) (Modbusmq.ledger c') := by
  induction h with
  | refl => exact ⟨hc, .refl⟩
  | @tail c₁ c₂ h hstep ih =>
    have hsame : SameSetup c c₁ := QueueSteps.sameSetup h
    have hm' : c₁.messageCb := by rwa [hsame.messageCb]
    have he' : c₁.errorCb := by rwa [hsame.errorCb]
    exact ⟨hstep.numbered ih.1 hm' he', ih.2.trans (hstep.ledger ih.1 hm' he')⟩

theorem Fresh.numbered {c : Context} (h : Fresh c) : Numbered c where
  flags := by simp [h.queue]
  queue := by simp [h.queue]
  distinct := by simp [h.queue]
  history := by simp [Modbusmq.ledger, h.log]

theorem Fresh.ledger {c : Context} (h : Fresh c) : ledger c = .empty := by
  refine Ledger.ext ?_ ?_ ?_
  all_goals simp [Modbusmq.ledger, Ledger.empty, h.queue, h.log]

/-- In every run from a fresh context with its callbacks set, a posted request is in the
queue and nothing has been said about it, or it has left and was reported exactly once,
before its memory was released. -/
theorem posted_requests_reported_once {c₀ : Context} (hfresh : Fresh c₀) (hm : c₀.messageCb)
    (he : c₀.errorCb) (calls : List (Call × Env)) {m : Msg}
    (hposted : .posted .post m ∈ (run calls c₀).log) :
    (m.serial ∈ (ledger (run calls c₀)).waiting ∧
        (ledger (run calls c₀)).life m.serial = [.accepted m.serial]) ∨
      (m.serial ∉ (ledger (run calls c₀)).waiting ∧
        (ledger (run calls c₀)).life m.serial =
          [.accepted m.serial, .reported m.serial, .released m.serial]) := by
  have hsteps := (QueueSteps.ledger (run_steps hfresh.wellFormed calls) hfresh.numbered hm he).2
  rw [hfresh.ledger] at hsteps
  exact (hsteps.kept Ledger.kept_empty).owed (mem_history_accepted hposted) ⟨m, hposted, rfl⟩

/-- A register write that is posted and then dropped with the connection. -/
theorem posted_requests_reported_once_example :
    (ledger (run [(.post 1 (.writeRegister 7 42), sampleEnv), (.reset, sampleEnv)]
      { newContext .tcp with messageCb := true, errorCb := true })).life 0 =
        [.accepted 0, .reported 0, .released 0] := by
  obtain ⟨m, hposted, hserial⟩ : ∃ m, .posted .post m ∈
      (run [(.post 1 (.writeRegister 7 42), sampleEnv), (.reset, sampleEnv)]
        { newContext .tcp with messageCb := true, errorCb := true }).log ∧ m.serial = 0 :=
    ⟨_, List.mem_cons_self .., rfl⟩
  have honce := posted_requests_reported_once ⟨rfl, rfl, rfl, rfl⟩ rfl rfl _ hposted
  rw [hserial] at honce
  rcases honce with ⟨⟨wrapper, hmem, -⟩, -⟩ | ⟨-, hlife⟩
  · exact absurd hmem List.not_mem_nil
  · exact hlife

end Modbusmq
