import Modbusmq.Bridge.CommandRuns

/-!
# Every accepted write is acknowledged

The library reports each request it has taken once, and the bridge settles a write when its
request is reported. So a command that was accepted is answered once its request has left the
library, with its outcome, and not before; and it is answered in time.
-/

namespace Modbusmq

def requestEnd (t : Transport) : Msg × Report → Option RequestEnd
  | (m, .message) => some (.answered (msgBroadcast t m.writer))
  | (m, .error error) =>
    some (.failed error (if error = errException then frameExceptionCode t m.reader else 0))
  | (_, .raw _) => none

/-- A context as `main` has set it up. -/
structure SetUp (c : Context) : Prop extends Fresh c where
  ids : c.reqIdNext.toNat = c.serialNext
  messageCb : c.messageCb
  errorCb : c.errorCb

/-- The records follow the library, as far as the bridge has been told what happened. -/
structure Mirrors (writes : List AckedWrite) (c₀ : Context) (heard : List Event)
    (s : WriteBridge) : Prop where
  reached : ∃ calls, s.context = run calls c₀
  few : s.context.serialNext < 2 ^ 32
  tracks : Tracks writes s
  reports : ∀ id, reportsOf s.records id =
    (reportsAbout id heard).filterMap (requestEnd c₀.transport)
  accepted : ∀ id ∈ s.records.filterMap AckRecord.acceptedId,
    ∃ m, .posted .post m ∈ s.context.log ∧ m.reqId = id
  slot : ∀ slot ∈ s.context.raw, slot.reqId ∉ s.records.filterMap AckRecord.acceptedId
  raws : ∀ m line, .reported m (.raw line) ∈ s.context.log →
    m.reqId ∉ s.records.filterMap AckRecord.acceptedId

section

variable {writes : List AckedWrite} {numerals : Numerals} {topicPrefix : List UInt8} {c₀ : Context}
  {heard : List Event} {s : WriteBridge}

theorem Mirrors.own (h : Mirrors writes c₀ heard s) (hstart : SetUp c₀) : RawOwn s.context := by
  obtain ⟨calls, hcalls⟩ := h.reached
  have hfew := h.few
  rw [hcalls] at hfew ⊢
  exact run_rawOwn (hstart.rawOwn hstart.ids) calls hfew

theorem Mirrors.transport (h : Mirrors writes c₀ heard s) (hstart : SetUp c₀) :
    s.context.transport = c₀.transport := by
  obtain ⟨calls, hcalls⟩ := h.reached
  rw [hcalls]
  exact (QueueSteps.sameSetup (run_steps hstart.wellFormed calls)).transport

def Results (records : List AckRecord) : Prop :=
  ∀ record ∈ records, ∃ w told published, record = .result w told published

theorem Results.ids {records : List AckRecord} (h : Results records) :
    records.filterMap AckRecord.acceptedId = [] := by
  refine List.filterMap_eq_nil_iff.2 fun record hrecord => ?_
  obtain ⟨w, told, published, rfl⟩ := h record hrecord
  rfl

theorem Results.reports {records : List AckRecord} (h : Results records) (id : UInt32) :
    reportsOf records id = [] := by
  refine List.filterMap_eq_nil_iff.2 fun record hrecord => ?_
  obtain ⟨w, told, published, rfl⟩ := h record hrecord
  rfl

theorem Mirrors.results (h : Mirrors writes c₀ heard s) {s' : WriteBridge}
    (hcontext : s'.context = s.context) (htracks : Tracks writes s') {records : List AckRecord}
    (hrecords : s'.records = s.records ++ records) (hresults : Results records) :
    Mirrors writes c₀ heard s' := by
  have hids : s'.records.filterMap AckRecord.acceptedId =
      s.records.filterMap AckRecord.acceptedId := by
    rw [hrecords, List.filterMap_append, hresults.ids, List.append_nil]
  refine ⟨by rw [hcontext]; exact h.reached, by rw [hcontext]; exact h.few, htracks, fun id => ?_,
    ?_, ?_, ?_⟩
  · rw [hrecords, reportsOf_append, hresults.reports, List.append_nil]
    exact h.reports id
  · rw [hids, hcontext]
    exact h.accepted
  · rw [hids, hcontext]
    exact h.slot
  · rw [hids, hcontext]
    exact h.raws

theorem Mirrors.call (h : Mirrors writes c₀ heard s) (hstart : SetUp c₀) (made : Call) (env : Env)
    (hfew : (made.perform s.context env).serialNext < 2 ^ 32) :
    Mirrors writes c₀ heard { s with context := made.perform s.context env } := by
  have hown := h.own hstart
  have hlater := Call.rawOwn hown env made hfew
  obtain ⟨calls, hcalls⟩ := h.reached
  refine ⟨⟨calls ++ [(made, env)], ?_⟩, hfew, ?_, h.reports, fun id hid => ?_, fun slot hslot => ?_,
    fun m line hmem => ?_⟩
  · rw [run_append, ← hcalls]
    rfl
  · exact h.tracks.frame rfl (.inl rfl) hlater.next (Call.serial_le ..)
  · obtain ⟨m, hposted, hsame⟩ := h.accepted id hid
    exact ⟨m, (Call.log_prefix ..).subset hposted, hsame⟩
  · rcases Call.slots env made hown hfew hslot with hold | hnew
    · exact h.slot slot hold
    · intro hid
      have hmade := (h.tracks.accepted _ hid).2
      rw [hnew] at hmade
      exact absurd hmade (Nat.not_succ_le_self _)
  · rcases Call.raws _ _ _ m line hmem with hold | ⟨slot, hslot, hsame⟩
    · exact h.raws m line hold
    · rw [hsame]
      exact h.slot slot hslot

theorem Mirrors.commanded (h : Mirrors writes c₀ heard s) (hstart : SetUp c₀) {w : ℕ}
    {write : AckedWrite} {env : WriteEnv} {s' : WriteBridge}
    (hserved : Commanded numerals s w write env s') (hwrite : writes[w]? = some write)
    (hgrown : env.grown) (hfew : s'.context.serialNext < 2 ^ 32) : Mirrors writes c₀ heard s' := by
  have htracks := h.tracks.step (hserved.step hwrite hgrown) hfew
  have hown := h.own hstart
  cases hserved with
  | refused c hc reason message =>
    have hrefused : Mirrors writes c₀ heard { s with context := c } := by
      rcases hc with rfl | rfl
      · exact h
      · rw [← postRequest_refused]
        exact h.call hstart (.post write.slave (.writeRegisters 0 0 fun _ => 0)) sampleEnv
          (by rw [Call.perform, postRequest_refused]; exact h.few)
    exact hrefused.results rfl htracks rfl fun record hrecord =>
      ⟨_, _, _, List.mem_singleton.1 hrecord⟩
  | accepted values request hrequest =>
    obtain ⟨hrecords, hcontext, -⟩ := accept_frame s w write request
      (writtenText numerals write.toWriteEntry values) env.grown
    rw [hcontext] at hfew
    have hposted : Mirrors writes c₀ heard
        { s with context := postRequest s.context write.slave request } :=
      h.call hstart (.post write.slave request) sampleEnv hfew
    obtain ⟨m, hlog, hid, hserial, hraw⟩ : ∃ m,
        (postRequest s.context write.slave request).log = s.context.log ++ [.posted .post m] ∧
          m.reqId = (postRequest s.context write.slave request).reqIdNext ∧
            (postRequest s.context write.slave request).serialNext = s.context.serialNext + 1 ∧
              (postRequest s.context write.slave request).raw = s.context.raw := by
      obtain ⟨writer, hwriter⟩ := writeRequest_build hrequest s.context.transport write.slave
      unfold postRequest
      rw [hwriter]
      exact ⟨_, rfl, preparedMsg_reqId .., rfl, rfl⟩
    have hnumber : m.reqId.toNat = s.context.serialNext + 1 := by
      rw [hid, ← hserial]
      exact (hposted.own hstart).next
    have hids : (s.accept w write request (writtenText numerals write.toWriteEntry values)
        env.grown).records.filterMap AckRecord.acceptedId =
          s.records.filterMap AckRecord.acceptedId ++ [m.reqId] := by
      rw [hrecords, List.filterMap_append, hid]
      rfl
    refine ⟨by rw [hcontext]; exact hposted.reached, by rw [hcontext]; exact hfew, htracks,
      fun id => ?_, fun id hmem => ?_, fun slot hslot => ?_, fun m' line hmem => ?_⟩
    · rw [hrecords, reportsOf_append, ← h.reports]
      exact List.append_nil _
    · rw [hids] at hmem
      rw [hcontext, hlog]
      rcases List.mem_append.1 hmem with hmem | hmem
      · obtain ⟨m', hmem', hsame⟩ := h.accepted id hmem
        exact ⟨m', List.mem_append_left _ hmem', hsame⟩
      · exact ⟨m, List.mem_append_right _ (List.mem_singleton.2 rfl), (List.mem_singleton.1 hmem).symm⟩
    · rw [hcontext, hraw] at hslot
      rw [hids, List.mem_append, not_or]
      refine ⟨h.slot slot hslot, fun hsame => ?_⟩
      have hle := (hown.slot slot hslot).1
      rw [List.mem_singleton.1 hsame, hnumber] at hle
      exact absurd hle (Nat.not_succ_le_self _)
    · rw [hcontext, hlog] at hmem
      have hold := (List.mem_append.1 hmem).resolve_right (by simp)
      rw [hids, List.mem_append, not_or]
      refine ⟨h.raws m' line hold, fun hsame => ?_⟩
      obtain ⟨hmade, hlt⟩ := hown.log _ hold m' rfl
      rw [List.mem_singleton.1 hsame, hnumber] at hmade
      omega

theorem Mirrors.serveTopic {topic payload : List UInt8} {env : ℕ → WriteEnv}
    (hgrown : ∀ w, (env w).grown) (hstart : SetUp c₀) {turns : List (AckedWrite × ℕ)}
    (hturns : ∀ turn ∈ turns, writes[turn.2]? = some turn.1) (h : Mirrors writes c₀ heard s)
    (hfew : (serveTopic numerals topic payload env turns s).context.serialNext < 2 ^ 32) :
    Mirrors writes c₀ heard (serveTopic numerals topic payload env turns s) := by
  induction turns generalizing s with
  | nil => exact h
  | cons turn turns ih =>
    have hrest := fun t ht => hturns t (List.mem_cons_of_mem _ ht)
    unfold Modbusmq.serveTopic at hfew ⊢
    rw [List.foldl_cons] at hfew ⊢
    split_ifs at hfew ⊢
    · have hcommanded : Commanded numerals s turn.2 turn.1 (env turn.2)
        (serveEntry numerals payload s turn.2 turn.1 (env turn.2)) := serveEntry_commanded payload
      refine ih hrest (h.commanded hstart hcommanded (hturns turn List.mem_cons_self)
        (hgrown turn.2) ?_) hfew
      exact ((serveTopic_steps hgrown hrest _).serialNext_le).trans_lt hfew
    · exact ih hrest h hfew

/-- Memory does not run out while a message is served. -/
def CommandEvent.Grown : CommandEvent → Prop
  | incoming _ env _ => ∀ w, (env w).grown
  | call _ _ | links _ _ => True

theorem Mirrors.serve (h : Mirrors writes c₀ heard s) (hstart : SetUp c₀) {event : CommandEvent}
    (hgrown : event.Grown)
    (hfew : (event.serve writes numerals topicPrefix s).context.serialNext < 2 ^ 32) :
    Mirrors writes c₀ heard (event.serve writes numerals topicPrefix s) := by
  cases event with
  | call made env => exact h.call hstart made env hfew
  | incoming message env stray =>
    change Mirrors writes c₀ heard
      (mqttMessageCallback numerals writes topicPrefix message env stray s)
    change (mqttMessageCallback numerals writes topicPrefix message env stray s).context.serialNext <
      2 ^ 32 at hfew
    unfold mqttMessageCallback at hfew ⊢
    dsimp only at hfew ⊢
    split_ifs at hfew ⊢
    · exact h
    · exact h.call hstart (.raw _ stray) sampleEnv hfew
    · exact h.serveTopic hgrown hstart (fun turn => List.mem_zipIdx_iff_getElem?.1) hfew
  | links modbusConnected mqttConnected =>
    exact ⟨h.reached, h.few, h.tracks.frame rfl (.inl rfl) h.tracks.ids le_rfl, h.reports, h.accepted,
      h.slot, h.raws⟩

theorem settlePending_records (s : WriteBridge) (reqId : UInt32) (rc : PublishResult)
    (result : List UInt8 → WriteResult) :
    ∃ records, (settlePending writes s reqId rc result).records = s.records ++ records ∧
      Results records := by
  have hnone : Results [] := fun _ hmem => absurd hmem List.not_mem_nil
  unfold settlePending
  split
  · exact ⟨[], (List.append_nil _).symm, hnone⟩
  · dsimp only
    split
    · exact ⟨[], (List.append_nil _).symm, hnone⟩
    · exact ⟨[_], rfl, fun record hrecord => ⟨_, _, _, List.mem_singleton.1 hrecord⟩⟩

/-- Nothing has been told about an accepted write before its report. -/
theorem Mirrors.due (h : Mirrors writes c₀ heard s) (hstart : SetUp c₀) {m : Msg} {report : Report}
    {rest : List Event} (hlog : s.context.log = heard ++ .reported m report :: rest) :
    ReportDue s m.reqId := by
  have hreported : .reported m report ∈ s.context.log := by
    rw [hlog]
    exact List.mem_append_right _ List.mem_cons_self
  obtain ⟨hmade, hlt⟩ := (h.own hstart).log _ hreported m rfl
  refine ⟨by omega, fun haccepted => ?_⟩
  obtain ⟨m₀, hposted, hid⟩ := h.accepted _ haccepted
  obtain ⟨calls, hcalls⟩ := h.reached
  have hfew := h.few
  have hlast : reportsAbout m.reqId s.context.log =
      reportsAbout m.reqId heard ++ (m, report) :: reportsAbout m.reqId rest := by
    rw [hlog, reportsAbout_append]
    congr 1
    exact List.filterMap_cons_some (by rw [Event.about, if_pos rfl])
  have hnone : reportsAbout m.reqId heard = [] := by
    rw [hcalls] at hposted hfew hlast
    rw [← hid] at hlast ⊢
    rcases posted_reports hstart.toFresh hstart.ids hstart.messageCb hstart.errorCb hfew hposted with
      ⟨-, hnone⟩ | ⟨-, told, hone⟩
    · rw [hnone] at hlast
      exact absurd hlast (by simp)
    · rw [hone] at hlast
      have hlength := congrArg List.length hlast
      rw [List.length_append, List.length_cons, List.length_cons, List.length_nil] at hlength
      exact List.eq_nil_of_length_eq_zero (by omega)
  rw [h.reports, hnone]
  rfl

theorem Mirrors.settled (h : Mirrors writes c₀ heard s) (hstart : SetUp c₀) {m : Msg}
    {report : Report} {outcome : RequestEnd} {rest : List Event}
    (hlog : s.context.log = heard ++ .reported m report :: rest)
    (hend : requestEnd c₀.transport (m, report) = some outcome) (rc : PublishResult) :
    Mirrors writes c₀ (heard ++ [.reported m report])
      (settlePending writes (s.noteReport m.reqId outcome) m.reqId rc fun value =>
        outcome.result m.reqId value) := by
  have htracks := h.tracks.step (settlePending_step h.tracks (h.due hstart hlog) rc outcome)
    (by rw [settlePending_context]; exact h.few)
  obtain ⟨records, hrecords, hresults⟩ := @settlePending_records writes
    (s.noteReport m.reqId outcome) m.reqId rc fun value => outcome.result m.reqId value
  have hcontext := @settlePending_context writes (s.noteReport m.reqId outcome) m.reqId rc
    fun value => outcome.result m.reqId value
  generalize settlePending writes (s.noteReport m.reqId outcome) m.reqId rc
    (fun value => outcome.result m.reqId value) = s' at htracks hrecords hcontext
  change s'.context = s.context at hcontext
  change s'.records = s.records ++ [.reported m.reqId outcome] ++ records at hrecords
  have hids : s'.records.filterMap AckRecord.acceptedId =
      s.records.filterMap AckRecord.acceptedId := by
    rw [hrecords, List.filterMap_append, List.filterMap_append, hresults.ids, List.append_nil]
    exact List.append_nil _
  refine ⟨by rw [hcontext]; exact h.reached, by rw [hcontext]; exact h.few, htracks, fun id => ?_,
    by rw [hids, hcontext]; exact h.accepted, by rw [hids, hcontext]; exact h.slot,
    by rw [hids, hcontext]; exact h.raws⟩
  rw [hrecords, reportsOf_append, reportsOf_append, hresults.reports, List.append_nil,
    reportsAbout_append, List.filterMap_append, h.reports]
  congr 1
  by_cases hid : m.reqId = id
  · simp [reportsOf, AckRecord.report, reportsAbout, Event.about, hid, hend]
  · simp [reportsOf, AckRecord.report, reportsAbout, Event.about, hid]

theorem Mirrors.skip (h : Mirrors writes c₀ heard s) {e : Event}
    (he : ∀ id, (reportsAbout id [e]).filterMap (requestEnd c₀.transport) = []) :
    Mirrors writes c₀ (heard ++ [e]) s := by
  refine ⟨h.reached, h.few, h.tracks, fun id => ?_, h.accepted, h.slot, h.raws⟩
  rw [reportsAbout_append, List.filterMap_append, he, List.append_nil]
  exact h.reports id

theorem Mirrors.told {s : CommandBridge} (h : Mirrors writes c₀ heard s.toWriteBridge)
    (hstart : SetUp c₀) {e : Event} {rest : List Event} (hlog : s.context.log = heard ++ e :: rest)
    (rc : PublishResult) : Mirrors writes c₀ (heard ++ [e]) (s.told writes rc e).toWriteBridge := by
  have ht := h.transport hstart
  cases e with
  | reported m report =>
    cases report with
    | message =>
      have hend : requestEnd c₀.transport (m, .message) =
          some (.answered (msgBroadcast s.context.transport m.writer)) := by rw [ht]; rfl
      exact h.settled hstart hlog hend rc
    | error error =>
      have hend : requestEnd c₀.transport (m, .error error) = some (.failed error
          (if error = errException then frameExceptionCode s.context.transport m.reader else 0)) := by
        rw [ht]
        rfl
      exact h.settled hstart hlog hend rc
    | raw line =>
      rw [CommandBridge.told, rawReplyCallback_writes]
      refine h.skip fun id => ?_
      by_cases hid : m.reqId = id
      · simp [reportsAbout, Event.about, hid, requestEnd]
      · simp [reportsAbout, Event.about, hid]
  | refused line =>
    rw [CommandBridge.told, rawReplyCallback_writes]
    exact h.skip fun id => rfl
  | _ => exact h.skip fun id => rfl

theorem Mirrors.hear {s : CommandBridge} (h : Mirrors writes c₀ heard s.toWriteBridge)
    (hstart : SetUp c₀) (rc : ℕ → PublishResult) {events : List Event} (i : ℕ)
    (hlog : s.context.log = heard ++ events) :
    Mirrors writes c₀ s.context.log (CommandBridge.hear writes rc events i s).toWriteBridge := by
  induction events generalizing heard s i with
  | nil =>
    rw [hlog, List.append_nil]
    exact h
  | cons e events ih =>
    have htold := h.told hstart hlog (rc i)
    have hcontext := @CommandBridge.told_context writes s (rc i) e
    have hlater := ih htold (i + 1) (by rw [hcontext, hlog, List.append_assoc]; rfl)
    rwa [hcontext] at hlater

/-- Nothing has come in yet. -/
structure CommandBridge.Starts (s : CommandBridge) : Prop where
  setUp : SetUp s.context
  few : s.context.serialNext < 2 ^ 32
  pending : s.pending = []
  records : s.records = []

theorem CommandBridge.Starts.mirrors {s : CommandBridge} (h : s.Starts) :
    Mirrors writes s.context s.context.log s.toWriteBridge where
  reached := ⟨[], rfl⟩
  few := h.few
  tracks := {
    ids := h.setUp.ids
    accepted := by simp [h.records]
    distinct := by simp [h.records]
    reported := by simp [h.records, reportsOf]
    once := by simp [h.records]
    table := by simp [h.records, h.pending, ackedWrites]
    calls := by simp [h.records, ackedWrites]
    others := by simp [h.records, callsOf] }
  reports := by simp [h.records, reportsOf, h.setUp.log, reportsAbout]
  accepted := by simp [h.records]
  slot := by simp [h.records]
  raws := by simp [h.records]

theorem commandRun_serialNext_le (turns : List (CommandEvent × (ℕ → PublishResult)))
    (s : CommandBridge) : s.context.serialNext ≤
      (commandRun writes numerals topicPrefix turns s).context.serialNext := by
  rw [commandRun_context]
  exact run_serial_le ..

theorem Mirrors.perform {s : CommandBridge} (h : Mirrors writes c₀ s.context.log s.toWriteBridge)
    (hstart : SetUp c₀) {turn : CommandEvent × (ℕ → PublishResult)} (hgrown : turn.1.Grown)
    (hfew : (CommandEvent.perform writes numerals topicPrefix s turn).context.serialNext < 2 ^ 32) :
    Mirrors writes c₀ (CommandEvent.perform writes numerals topicPrefix s turn).context.log
      (CommandEvent.perform writes numerals topicPrefix s turn).toWriteBridge := by
  have hheard : (CommandEvent.perform writes numerals topicPrefix s turn).context =
      (turn.1.serve writes numerals topicPrefix s.toWriteBridge).context :=
    CommandBridge.hear_context ..
  rw [hheard] at hfew ⊢
  have hserved := h.serve hstart hgrown hfew
  have hprefix : s.context.log <+:
      (turn.1.serve writes numerals topicPrefix s.toWriteBridge).context.log := by
    rw [CommandEvent.serve_context]
    exact run_log_kept ..
  exact Mirrors.hear (s := { s with
    toWriteBridge := turn.1.serve writes numerals topicPrefix s.toWriteBridge }) hserved hstart turn.2 0
      (List.prefix_iff_eq_append.1 hprefix).symm

theorem Mirrors.run {s : CommandBridge} (h : Mirrors writes c₀ s.context.log s.toWriteBridge)
    (hstart : SetUp c₀) {turns : List (CommandEvent × (ℕ → PublishResult))}
    (hgrown : ∀ turn ∈ turns, turn.1.Grown)
    (hfew : (commandRun writes numerals topicPrefix turns s).context.serialNext < 2 ^ 32) :
    Mirrors writes c₀ (commandRun writes numerals topicPrefix turns s).context.log
      (commandRun writes numerals topicPrefix turns s).toWriteBridge := by
  induction turns generalizing s with
  | nil => exact h
  | cons turn turns ih =>
    refine ih (h.perform hstart (hgrown turn List.mem_cons_self) ?_)
      (fun t ht => hgrown t (List.mem_cons_of_mem _ ht)) hfew
    exact (commandRun_serialNext_le turns _).trans_lt hfew

/-- A write that is to be acknowledged: its request is in the queue and `mqtt_write_result` was not
called for it; or it has left, was reported once, and `mqtt_write_result` was called for it once,
with its entry, its text and the outcome that was reported. -/
def Acknowledged (t : Transport) (s : CommandBridge) (w : ℕ) (id : UInt32) (value : List UInt8) :
    Prop :=
  Pending id s.context ∧ callsOf s.records id = [] ∨
    ¬ Pending id s.context ∧ ∃ told outcome, reportsAbout id s.context.log = [told] ∧
      requestEnd t told = some outcome ∧ callsOf s.records id = [(w, outcome.result id value)]

theorem Mirrors.acknowledged {s : CommandBridge}
    (h : Mirrors writes c₀ s.context.log s.toWriteBridge) (hstart : SetUp c₀) {w : ℕ} {id : UInt32}
    {value : List UInt8} {write : AckedWrite} (haccepted : .accepted w id value ∈ s.records)
    (hwrite : writes[w]? = some write) (hack : write.acks.ack) :
    Acknowledged c₀.transport s w id value := by
  have hacked : ⟨id, w, value⟩ ∈ ackedWrites writes s.records := by
    refine List.mem_filterMap.2 ⟨_, haccepted, ?_⟩
    dsimp only [AckRecord.pendingWrite]
    rw [hwrite, Option.any_some, if_pos hack]
  have hid := mem_ackedWrites_id hacked
  have hcalls := h.tracks.calls _ hacked
  dsimp only at hid hcalls
  rw [h.reports] at hcalls
  obtain ⟨m, hposted, rfl⟩ := h.accepted id hid
  obtain ⟨calls, hreached⟩ := h.reached
  have hfew := h.few
  have hraws := h.raws
  unfold Acknowledged
  rw [hreached] at hfew hposted hraws hcalls ⊢
  rcases posted_reports hstart.toFresh hstart.ids hstart.messageCb hstart.errorCb hfew hposted with
    ⟨hpending, hnone⟩ | ⟨hgone, told, hone⟩
  · rw [hnone] at hcalls
    exact .inl ⟨hpending, hcalls⟩
  · obtain ⟨hreported, hsame⟩ := mem_reportsAbout.1 (hone ▸ List.mem_singleton_self told)
    obtain ⟨told, report⟩ := told
    have hend : ∃ outcome, requestEnd c₀.transport (told, report) = some outcome := by
      cases report with
      | message => exact ⟨_, rfl⟩
      | error error => exact ⟨_, rfl⟩
      | raw line => exact absurd hid (hsame ▸ hraws told line hreported)
    obtain ⟨outcome, hend⟩ := hend
    refine .inr ⟨hgone, (told, report), outcome, hone, hend, ?_⟩
    rw [hone, List.filterMap_cons_some hend] at hcalls
    exact hcalls

/-- In every run of the bridge in which memory does not run out and fewer than 2^32 requests are
made, whatever comes in, is polled, fails or is lost in between: an accepted write that is to be
acknowledged is acknowledged once its request has left the library, and not before. -/
theorem write_acknowledged_once {s₀ : CommandBridge} (hstarts : s₀.Starts)
    {turns : List (CommandEvent × (ℕ → PublishResult))} (hgrown : ∀ turn ∈ turns, turn.1.Grown)
    (hfew : (commandRun writes numerals topicPrefix turns s₀).context.serialNext < 2 ^ 32) {w : ℕ}
    {id : UInt32} {value : List UInt8} {write : AckedWrite}
    (haccepted : .accepted w id value ∈ (commandRun writes numerals topicPrefix turns s₀).records)
    (hwrite : writes[w]? = some write) (hack : write.acks.ack) :
    Acknowledged s₀.context.transport (commandRun writes numerals topicPrefix turns s₀) w id value :=
  ((hstarts.mirrors.run hstarts.setUp hgrown hfew).acknowledged hstarts.setUp haccepted hwrite hack)

/-- The bridge of an application that has set both callbacks. -/
def listeningBridge : CommandBridge := ⟨⟨toldContext, true, true, [], 0, []⟩, []⟩

theorem listeningBridge_starts : listeningBridge.Starts :=
  ⟨⟨⟨rfl, rfl, rfl, rfl⟩, rfl, rfl, rfl⟩, by decide, rfl, rfl⟩

def coilCommand : List (CommandEvent × (ℕ → PublishResult)) :=
  [(.incoming ⟨[116], [48, 48, 48, 48, 48, 49, 48, 48]⟩ (fun _ => ⟨true, true, .success⟩) fun _ => 0,
    fun _ => .success)]

def coilTurns : List (CommandEvent × (ℕ → PublishResult)) :=
  silentTurns.map fun made => (.call made.1 made.2, fun _ => .success)

theorem coilTurns_grown : ∀ turn ∈ coilCommand ++ coilTurns, turn.1.Grown := by
  intro turn hturn
  rcases List.mem_append.1 hturn with hturn | hturn
  · rw [List.mem_singleton.1 hturn]
    exact fun _ => rfl
  · obtain ⟨made, -, rfl⟩ := List.mem_map.1 hturn
    trivial

theorem coilCommand_grown : ∀ turn ∈ coilCommand, turn.1.Grown := fun turn hturn =>
  coilTurns_grown turn (List.mem_append_left _ hturn)

/-- The request has not left yet, and nothing was said about the command. -/
theorem write_acknowledged_once_example : callsOf (commandRun [ackedCoil] hundredNumerals []
    coilCommand listeningBridge).records 1 = [] := by
  have haccepted : .accepted 0 1 [49] ∈ (commandRun [ackedCoil] hundredNumerals [] coilCommand
      listeningBridge).records := List.mem_of_getElem? (i := 0) rfl
  rcases write_acknowledged_once listeningBridge_starts coilCommand_grown (by decide +kernel)
    haccepted rfl rfl with ⟨-, hnone⟩ | ⟨hgone, -⟩
  · exact hnone
  · exact absurd ⟨_, List.mem_singleton_self _, rfl, rfl⟩ hgone

theorem serveTopic_records {topic payload : List UInt8} {env : ℕ → WriteEnv}
    (turns : List (AckedWrite × ℕ)) (s : WriteBridge) :
    s.records <+: (serveTopic numerals topic payload env turns s).records := by
  induction turns generalizing s with
  | nil => exact List.prefix_refl _
  | cons turn turns ih =>
    unfold serveTopic at ih ⊢
    rw [List.foldl_cons]
    split_ifs
    · refine List.IsPrefix.trans ?_ (ih _)
      have hcommanded : Commanded numerals s turn.2 turn.1 (env turn.2)
        (serveEntry numerals payload s turn.2 turn.1 (env turn.2)) := serveEntry_commanded payload
      generalize serveEntry numerals payload s turn.2 turn.1 (env turn.2) = s' at hcommanded
      cases hcommanded with
      | refused => exact List.prefix_append _ _
      | accepted =>
        rw [(accept_frame ..).1]
        exact List.prefix_append _ _
    · exact ih s

theorem CommandEvent.serve_records (s : WriteBridge) (event : CommandEvent) :
    s.records <+: (event.serve writes numerals topicPrefix s).records := by
  cases event with
  | incoming message env stray =>
    change _ <+: (mqttMessageCallback numerals writes topicPrefix message env stray s).records
    unfold mqttMessageCallback
    dsimp only
    split_ifs
    · exact List.prefix_refl _
    · exact List.prefix_refl _
    · exact serveTopic_records ..
  | _ => exact List.prefix_refl _

theorem settlePending_prefix (s : WriteBridge) (reqId : UInt32) (outcome : RequestEnd)
    (rc : PublishResult) (result : List UInt8 → WriteResult) : s.records <+:
      (settlePending writes (s.noteReport reqId outcome) reqId rc result).records := by
  obtain ⟨records, hrecords, -⟩ := @settlePending_records writes (s.noteReport reqId outcome) reqId
    rc result
  rw [hrecords]
  exact (List.prefix_append _ _).trans (List.prefix_append _ _)

theorem modbusmqMessageCallback_records (s : WriteBridge) (m : Msg) (rc : PublishResult) :
    s.records <+: (modbusmqMessageCallback writes s m rc).records := by
  unfold modbusmqMessageCallback
  exact settlePending_prefix ..

theorem modbusmqErrorCallback_records (s : WriteBridge) (m : Msg) (error : ℤ) (rc : PublishResult) :
    s.records <+: (modbusmqErrorCallback writes s m error rc).records := by
  unfold modbusmqErrorCallback
  exact settlePending_prefix ..

theorem CommandBridge.told_records (s : CommandBridge) (rc : PublishResult) (e : Event) :
    s.records <+: (s.told writes rc e).records := by
  cases e with
  | reported m report =>
    cases report with
    | message => exact modbusmqMessageCallback_records s.toWriteBridge m rc
    | error error => exact modbusmqErrorCallback_records s.toWriteBridge m error rc
    | raw line =>
      change _ <+: (rawReplyCallback s rc line).records
      rw [rawReplyCallback_writes]
  | refused line =>
    change _ <+: (rawReplyCallback s rc line).records
    rw [rawReplyCallback_writes]
  | _ => exact List.prefix_refl _

theorem CommandBridge.hear_records (rc : ℕ → PublishResult) (events : List Event) (i : ℕ)
    (s : CommandBridge) : s.records <+: (CommandBridge.hear writes rc events i s).records := by
  induction events generalizing i s with
  | nil => exact List.prefix_refl _
  | cons e events ih => exact (s.told_records ..).trans (ih ..)

theorem commandRun_records (turns : List (CommandEvent × (ℕ → PublishResult))) (s : CommandBridge) :
    s.records <+: (commandRun writes numerals topicPrefix turns s).records := by
  induction turns generalizing s with
  | nil => exact List.prefix_refl _
  | cons turn turns ih =>
    have hserved : s.records <+:
        (turn.1.serve writes numerals topicPrefix s.toWriteBridge).records :=
      CommandEvent.serve_records s.toWriteBridge turn.1
    exact (hserved.trans (CommandBridge.hear_records turn.2 _ 0 { s with
      toWriteBridge := turn.1.serve writes numerals topicPrefix s.toWriteBridge })).trans (ih _)

theorem commandRun_append (turns more : List (CommandEvent × (ℕ → PublishResult)))
    (s : CommandBridge) : commandRun writes numerals topicPrefix (turns ++ more) s =
      commandRun writes numerals topicPrefix more (commandRun writes numerals topicPrefix turns s) :=
  List.foldl_append

/-- An accepted write is acknowledged in time, if the loop is kept turning for three timeouts for
each request in the queue. -/
theorem write_acknowledged_in_time {s₀ s : CommandBridge} (hstarts : s₀.Starts)
    {turns more : List (CommandEvent × (ℕ → PublishResult))}
    (hgrown : ∀ turn ∈ turns ++ more, turn.1.Grown)
    (hfew : (commandRun writes numerals topicPrefix (turns ++ more) s₀).context.serialNext < 2 ^ 32)
    (hs : s = commandRun writes numerals topicPrefix turns s₀) {w : ℕ} {id : UInt32}
    {value : List UInt8} {write : AckedWrite} (haccepted : .accepted w id value ∈ s.records)
    (hwrite : writes[w]? = some write) (hack : write.acks.ack) {timeout : Millitime} {gap : ℕ}
    (h : KeptTurning s₀.context (commandCalls numerals writes topicPrefix turns s₀)
      (commandCalls numerals writes topicPrefix more s) timeout gap (3 * s.context.queue.length)) :
    ∃ outcome : RequestEnd, callsOf (commandRun writes numerals topicPrefix (turns ++ more) s₀).records id =
      [(w, outcome.result id value)] := by
  have hstart := hstarts.setUp
  have hkept : .accepted w id value ∈
      (commandRun writes numerals topicPrefix (turns ++ more) s₀).records := by
    rw [commandRun_append, ← hs]
    exact (commandRun_records more s).subset haccepted
  rcases (hstarts.mirrors.run hstart hgrown hfew).acknowledged hstart hkept hwrite hack with
    ⟨hpending, -⟩ | ⟨-, told, outcome, -, -, hcalls⟩
  · have hlater : (commandRun writes numerals topicPrefix (turns ++ more) s₀).context =
        run (commandCalls numerals writes topicPrefix turns s₀ ++
          commandCalls numerals writes topicPrefix more s) s₀.context := by
      rw [commandRun_append, ← hs, commandRun_context, hs, commandRun_context, run_append]
    have hcontext : s.context = run (commandCalls numerals writes topicPrefix turns s₀) s₀.context := by
      rw [hs, commandRun_context]
    have hgrown' : ∀ turn ∈ turns, turn.1.Grown := fun turn hturn =>
      hgrown turn (List.mem_append_left _ hturn)
    rw [hlater] at hfew hpending
    have hmirrors : Mirrors writes s₀.context s.context.log s.toWriteBridge := by
      subst hs
      refine hstarts.mirrors.run hstart hgrown' ?_
      rw [run_append, ← hcontext] at hfew
      exact (run_serial_le _ _).trans_lt hfew
    obtain ⟨m, hposted, rfl⟩ := hmirrors.accepted id
      (List.mem_filterMap.2 ⟨_, haccepted, rfl⟩)
    rw [hcontext] at hposted h
    exact absurd hpending (not_pending_in_time hstart.toFresh hstart.ids hstart.messageCb
      hstart.errorCb hfew hposted h)
  · exact ⟨outcome, hcalls⟩

/-- The command is answered, though its device is silent. -/
theorem write_acknowledged_in_time_example : ∃ outcome : RequestEnd,
    callsOf (commandRun [ackedCoil] hundredNumerals [] (coilCommand ++ coilTurns)
      listeningBridge).records 1 = [(0, outcome.result 1 [49])] := by
  have hcalls : commandCalls hundredNumerals [ackedCoil] [] coilTurns
      (commandRun [ackedCoil] hundredNumerals [] coilCommand listeningBridge) = silentTurns := rfl
  have hturning : KeptTurning toldContext
      (commandCalls hundredNumerals [ackedCoil] [] coilCommand listeningBridge)
      (commandCalls hundredNumerals [ackedCoil] [] coilTurns
        (commandRun [ackedCoil] hundredNumerals [] coilCommand listeningBridge)) 500 600
      (3 * (commandRun [ackedCoil] hundredNumerals [] coilCommand
        listeningBridge).context.queue.length) := by
    rw [hcalls]
    exact ⟨by decide, by decide +kernel, by decide +kernel, 10000,
      (List.range 11).map fun i => 10600 + 600 * i, by decide +kernel, by decide +kernel,
      by decide +kernel⟩
  exact write_acknowledged_in_time listeningBridge_starts coilTurns_grown (by decide +kernel) rfl
    (List.mem_of_getElem? (i := 0) rfl) rfl rfl hturning

end

end Modbusmq
