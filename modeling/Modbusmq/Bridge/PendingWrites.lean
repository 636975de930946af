import Modbusmq.Bridge.Commands

/-!
# Acknowledging what was posted

The table of the writes that wait for their answer: `pending_write_take` of
`modbusmq.c`, and the two callbacks that settle a write. Commands, other
requests and callbacks may come in any order.
-/

namespace Modbusmq

open Json

/-- `pending_write_take`: the entry of a request, and the table without it. -/
def pendingWriteTake (pending : List PendingWrite) (reqId : UInt32) :
    Option (PendingWrite × List PendingWrite) :=
  (pending.find? (·.reqId = reqId)).map fun taken => (taken, pending.eraseP (·.reqId = reqId))

def modbusmqErrorTag (error : ℤ) : AckReason :=
  if error = errTimeout then .timeout
  else if error = errProtocol then .protocol
  else if error = errTransport then .transport
  else if error = errException then .exception
  else .error

def errorMessage (error : ℤ) (code : ℕ) : List UInt8 :=
  ascii (if 0 < code then exceptionString code else strerror error).toList

/-- A callback about a request has been called. -/
def WriteBridge.noteReport (s : WriteBridge) (reqId : UInt32) (outcome : RequestEnd) :
    WriteBridge :=
  { s with records := s.records ++ [.reported reqId outcome] }

section

variable (writes : List AckedWrite)

/-- What both callbacks do about a request: they take its entry out of the table and call
`mqtt_write_result` for it. -/
def settlePending (s : WriteBridge) (reqId : UInt32) (rc : PublishResult)
    (result : List UInt8 → WriteResult) : WriteBridge :=
  match pendingWriteTake s.pending reqId with
  | none => s
  | some (taken, rest) =>
    let s := { s with pending := rest }
    match writes[taken.writeIndex]? with
    | none => s
    | some write => s.writeResult taken.writeIndex write rc (result taken.value)

def modbusmqMessageCallback (s : WriteBridge) (m : Msg) (rc : PublishResult) : WriteBridge :=
  let broadcast := msgBroadcast s.context.transport m.writer
  settlePending writes (s.noteReport m.reqId (.answered broadcast)) m.reqId rc fun value =>
    writeAck m.reqId value broadcast

def modbusmqErrorCallback (s : WriteBridge) (m : Msg) (error : ℤ) (rc : PublishResult) :
    WriteBridge :=
  let code := if error = errException then frameExceptionCode s.context.transport m.reader else 0
  settlePending writes (s.noteReport m.reqId (.failed error code)) m.reqId rc fun _ =>
    writeNack m.reqId (modbusmqErrorTag error) (errorMessage error code) code

/-- What the bridge lives through, as far as its writes are concerned. -/
inductive WriteEvent
  /-- a message comes in -/
  | incoming (message : MqttMessage) (env : ℕ → WriteEnv) (stray : ℕ → UInt8)
  /-- a request that is no write enters the queue -/
  | request (m : Msg) (flags : Flags)
  /-- the library reports an answer -/
  | message (m : Msg) (rc : PublishResult)
  /-- the library reports a failure -/
  | error (m : Msg) (error : ℤ) (rc : PublishResult)
  /-- the device or the broker is lost or reached -/
  | links (modbusConnected mqttConnected : Bool)

def WriteEvent.perform (numerals : Numerals) (topicPrefix : List UInt8) (s : WriteBridge) :
    WriteEvent → WriteBridge
  | incoming received env stray =>
    mqttMessageCallback numerals writes topicPrefix received env stray s
  | request m flags => { s with context := postInternal s.context m flags }
  | message m rc => modbusmqMessageCallback writes s m rc
  | error m code rc => modbusmqErrorCallback writes s m code rc
  | links modbusConnected mqttConnected =>
    { s with modbusConnected := modbusConnected, mqttConnected := mqttConnected }

def writeRun (numerals : Numerals) (topicPrefix : List UInt8) (events : List WriteEvent)
    (s : WriteBridge) : WriteBridge :=
  events.foldl (fun s event => event.perform writes numerals topicPrefix s) s

end

def AckRecord.report (reqId : UInt32) : AckRecord → Option RequestEnd
  | reported id outcome => if id = reqId then some outcome else none
  | accepted _ _ _ | result _ _ _ => none

/-- The entry and the arguments of a call of `mqtt_write_result` about a request. -/
def AckRecord.call (reqId : UInt32) : AckRecord → Option (ℕ × WriteResult)
  | result w told _ => if told.reqId = reqId.toNat then some (w, told) else none
  | accepted _ _ _ | reported _ _ => none

def reportsOf (records : List AckRecord) (reqId : UInt32) : List RequestEnd :=
  records.filterMap (AckRecord.report reqId)

def callsOf (records : List AckRecord) (reqId : UInt32) : List (ℕ × WriteResult) :=
  records.filterMap (AckRecord.call reqId)

/-- The table entry of an accepted write that is to be acknowledged. -/
def AckRecord.pendingWrite (writes : List AckedWrite) : AckRecord → Option PendingWrite
  | accepted w reqId value =>
    if (writes[w]?).any (·.acks.ack) then some ⟨reqId, w, value⟩ else none
  | reported _ _ | result _ _ _ => none

def ackedWrites (writes : List AckedWrite) (records : List AckRecord) : List PendingWrite :=
  records.filterMap (AckRecord.pendingWrite writes)

def RequestEnd.result (reqId : UInt32) (value : List UInt8) : RequestEnd → WriteResult
  | answered broadcast => writeAck reqId value broadcast
  | failed error code =>
    writeNack reqId (modbusmqErrorTag error) (errorMessage error code) code

/-- The library has taken this request, and has not reported it yet if it is a write. -/
structure ReportDue (s : WriteBridge) (reqId : UInt32) : Prop where
  made : reqId.toNat ≤ s.context.serialNext
  once : reqId ∈ s.records.filterMap AckRecord.acceptedId → reportsOf s.records reqId = []

/-- What the library guarantees about an event, and memory that does not run out. -/
def WriteEvent.Guaranteed (s : WriteBridge) : WriteEvent → Prop
  | incoming _ env _ => ∀ w, (env w).grown
  | message m _ | error m _ _ => ReportDue s m.reqId
  | request _ _ | links _ _ => True

/-- A condition on every event of a run, each in the state it happens in. -/
def AlongWrites (writes : List AckedWrite) (numerals : Numerals) (topicPrefix : List UInt8)
    (Q : WriteBridge → WriteEvent → Prop) : List WriteEvent → WriteBridge → Prop
  | [], _ => True
  | event :: events, s =>
    Q s event ∧ AlongWrites writes numerals topicPrefix Q events
      (event.perform writes numerals topicPrefix s)

/-- One step: a request enters the queue, a command is refused, a write is accepted, or a request
is reported that is in the table or is not. -/
inductive WriteStep (writes : List AckedWrite) (s s' : WriteBridge) : Prop
  | request (hpending : s'.pending = s.pending) (hrecords : s'.records = s.records)
      (hnext : s'.context.reqIdNext = nextReqId s.context.reqIdNext)
      (hserial : s'.context.serialNext = s.context.serialNext + 1)
  | refused (hpending : s'.pending = s.pending)
      (hrecords : s'.records = s.records ∨ ∃ w told published,
        s'.records = s.records ++ [.result w told published] ∧ told.reqId = 0)
      (hnext : s'.context.reqIdNext = s.context.reqIdNext)
      (hserial : s'.context.serialNext = s.context.serialNext)
  | accepted (w : ℕ) (value : List UInt8)
      (hpending : s'.pending = s.pending ++
        (AckRecord.pendingWrite writes (.accepted w s'.context.reqIdNext value)).toList)
      (hrecords : s'.records = s.records ++ [.accepted w s'.context.reqIdNext value])
      (hnext : s'.context.reqIdNext = nextReqId s.context.reqIdNext)
      (hserial : s'.context.serialNext = s.context.serialNext + 1)
  | settled {taken : PendingWrite} {outcome : RequestEnd}
      {published : Option (List UInt8 × List UInt8)}
      (htaken : taken ∈ s.pending) (hdue : ReportDue s taken.reqId)
      (hpending : s'.pending = s.pending.eraseP (·.reqId = taken.reqId))
      (hrecords : s'.records = s.records ++ [.reported taken.reqId outcome,
        .result taken.writeIndex (outcome.result taken.reqId taken.value) published])
      (hcontext : s'.context = s.context)
  | unknown {reqId : UInt32} {outcome : RequestEnd} (hunknown : ∀ p ∈ s.pending, p.reqId ≠ reqId)
      (hdue : ReportDue s reqId) (hpending : s'.pending = s.pending)
      (hrecords : s'.records = s.records ++ [.reported reqId outcome])
      (hcontext : s'.context = s.context)

/-- What the table and the records have to do with each other. -/
structure Tracks (writes : List AckedWrite) (s : WriteBridge) : Prop where
  ids : s.context.reqIdNext.toNat = s.context.serialNext
  accepted : ∀ id ∈ s.records.filterMap AckRecord.acceptedId,
    0 < id.toNat ∧ id.toNat ≤ s.context.serialNext
  distinct : (s.records.filterMap AckRecord.acceptedId).Nodup
  reported : ∀ id, s.context.serialNext < id.toNat → reportsOf s.records id = []
  once : ∀ id ∈ s.records.filterMap AckRecord.acceptedId, (reportsOf s.records id).length ≤ 1
  table : s.pending =
    (ackedWrites writes s.records).filter fun p => reportsOf s.records p.reqId = []
  calls : ∀ p ∈ ackedWrites writes s.records, callsOf s.records p.reqId =
    (reportsOf s.records p.reqId).map fun o => (p.writeIndex, o.result p.reqId p.value)
  others : ∀ id, 0 < id.toNat → (∀ p ∈ ackedWrites writes s.records, p.reqId ≠ id) →
    callsOf s.records id = []

theorem RequestEnd.result_reqId (reqId : UInt32) (value : List UInt8) (outcome : RequestEnd) :
    (outcome.result reqId value).reqId = reqId.toNat := by
  cases outcome <;> rfl

theorem reportsOf_append (records δ : List AckRecord) (reqId : UInt32) :
    reportsOf (records ++ δ) reqId = reportsOf records reqId ++ reportsOf δ reqId :=
  List.filterMap_append

theorem callsOf_append (records δ : List AckRecord) (reqId : UInt32) :
    callsOf (records ++ δ) reqId = callsOf records reqId ++ callsOf δ reqId :=
  List.filterMap_append

theorem ackedWrites_append (writes : List AckedWrite) (records δ : List AckRecord) :
    ackedWrites writes (records ++ δ) = ackedWrites writes records ++ ackedWrites writes δ :=
  List.filterMap_append

variable {writes : List AckedWrite}

/-- The ids of the writes that are to be acknowledged are ids of accepted writes, in order. -/
theorem ackedWrites_ids (records : List AckRecord) :
    ((ackedWrites writes records).map PendingWrite.reqId).Sublist
      (records.filterMap AckRecord.acceptedId) := by
  induction records with
  | nil => exact .slnil
  | cons record records ih =>
    unfold ackedWrites at ih ⊢
    rw [List.filterMap_cons, List.filterMap_cons]
    cases record with
    | accepted w id value =>
      simp only [AckRecord.pendingWrite, AckRecord.acceptedId]
      split_ifs
      · exact ih.cons_cons id
      · exact ih.cons id
    | reported | result => exact ih

theorem mem_ackedWrites_id {records : List AckRecord} {p : PendingWrite}
    (h : p ∈ ackedWrites writes records) : p.reqId ∈ records.filterMap AckRecord.acceptedId :=
  (ackedWrites_ids records).subset (List.mem_map_of_mem h)

/-- Taking the entry of a request out of a table leaves those of all other requests. -/
theorem eraseP_eq_filter {pending : List PendingWrite}
    (hdistinct : (pending.map PendingWrite.reqId).Nodup) (id : UInt32) :
    pending.eraseP (·.reqId = id) = pending.filter (·.reqId ≠ id) := by
  induction pending with
  | nil => rfl
  | cons p pending ih =>
    rw [List.map_cons, List.nodup_cons] at hdistinct
    by_cases hp : p.reqId = id
    · rw [List.eraseP_cons_of_pos (by simpa using hp), List.filter_cons_of_neg (by simpa using hp)]
      refine (List.filter_eq_self.2 fun q hq => ?_).symm
      have hne : q.reqId ≠ id := fun heq =>
        hdistinct.1 (hp ▸ heq ▸ List.mem_map_of_mem hq)
      simpa using hne
    · rw [List.eraseP_cons_of_neg (by simpa using hp), List.filter_cons_of_pos (by simpa using hp),
        ih hdistinct.2]

theorem Tracks.mem_table {s : WriteBridge} (h : Tracks writes s) {p : PendingWrite} :
    p ∈ s.pending ↔ p ∈ ackedWrites writes s.records ∧ reportsOf s.records p.reqId = [] := by
  rw [h.table, List.mem_filter, decide_eq_true_eq]

theorem Tracks.fresh {s : WriteBridge} (h : Tracks writes s) {id : UInt32}
    (hid : s.context.serialNext < id.toNat) :
    id ∉ s.records.filterMap AckRecord.acceptedId :=
  fun hmem => absurd (h.accepted id hmem).2 (by omega)

theorem Tracks.accept {s s' : WriteBridge} (h : Tracks writes s) {w : ℕ} {value : List UInt8}
    (hpending : s'.pending = s.pending ++
      (AckRecord.pendingWrite writes (.accepted w s'.context.reqIdNext value)).toList)
    (hrecords : s'.records = s.records ++ [.accepted w s'.context.reqIdNext value])
    (hid : s'.context.reqIdNext.toNat = s.context.serialNext + 1)
    (hserial : s'.context.serialNext = s.context.serialNext + 1) : Tracks writes s' := by
  have hnew : s'.context.reqIdNext ∉ s.records.filterMap AckRecord.acceptedId :=
    h.fresh (by omega)
  have hunreported := h.reported s'.context.reqIdNext (by omega)
  have hreports : ∀ id, reportsOf s'.records id = reportsOf s.records id := fun id => by
    rw [hrecords, reportsOf_append]
    exact List.append_nil _
  have hcalls : ∀ id, callsOf s'.records id = callsOf s.records id := fun id => by
    rw [hrecords, callsOf_append]
    exact List.append_nil _
  have hacked : ackedWrites writes s'.records = ackedWrites writes s.records ++
      (AckRecord.pendingWrite writes (.accepted w s'.context.reqIdNext value)).toList := by
    rw [hrecords, ackedWrites_append]
    congr 1
  have hadded : ∀ p ∈ (AckRecord.pendingWrite writes
      (.accepted w s'.context.reqIdNext value)).toList, p.reqId = s'.context.reqIdNext := by
    intro p hp
    dsimp only [AckRecord.pendingWrite] at hp
    split_ifs at hp
    · rw [Option.mem_toList] at hp
      rw [← Option.some.inj hp]
    · exact absurd hp List.not_mem_nil
  have hids : s'.records.filterMap AckRecord.acceptedId =
      s.records.filterMap AckRecord.acceptedId ++ [s'.context.reqIdNext] := by
    rw [hrecords, List.filterMap_append]
    rfl
  refine ⟨hid.trans hserial.symm, ?_, ?_, ?_, ?_, ?_, ?_, ?_⟩
  · intro id hmem
    rw [hids, List.mem_append, List.mem_singleton] at hmem
    rcases hmem with hmem | rfl
    · have hold := h.accepted id hmem
      omega
    · omega
  · rw [hids]
    exact List.nodup_append.2 ⟨h.distinct, List.nodup_singleton _, fun a ha b hb => by
      rw [List.mem_singleton.1 hb]
      rintro rfl
      exact hnew ha⟩
  · intro id hlt
    rw [hreports]
    exact h.reported id (by omega)
  · intro id hmem
    rw [hreports]
    rw [hids, List.mem_append, List.mem_singleton] at hmem
    rcases hmem with hmem | rfl
    · exact h.once id hmem
    · rw [hunreported]
      exact Nat.zero_le 1
  · rw [hpending, hacked, List.filter_append, h.table]
    simp only [hreports]
    congr 1
    refine (List.filter_eq_self.2 fun p hp => ?_).symm
    rw [hadded p hp, hunreported]
    rfl
  · intro p hp
    rw [hcalls, hreports]
    rw [hacked, List.mem_append] at hp
    rcases hp with hp | hp
    · exact h.calls p hp
    · rw [hadded p hp, hunreported]
      refine h.others _ (by omega) fun q hq heq => hnew (heq ▸ mem_ackedWrites_id hq)
  · intro id hpos hothers
    rw [hcalls]
    refine h.others id hpos fun p hp => hothers p ?_
    rw [hacked]
    exact List.mem_append_left _ hp

/-- A request in the table is reported: its entry goes, and its result is called for. -/
theorem Tracks.settle {s s' : WriteBridge} (h : Tracks writes s) {taken : PendingWrite}
    {outcome : RequestEnd} {published : Option (List UInt8 × List UInt8)}
    (htaken : taken ∈ s.pending) (hdue : ReportDue s taken.reqId)
    (hpending : s'.pending = s.pending.eraseP (·.reqId = taken.reqId))
    (hrecords : s'.records = s.records ++ [.reported taken.reqId outcome,
      .result taken.writeIndex (outcome.result taken.reqId taken.value) published])
    (hcontext : s'.context = s.context) : Tracks writes s' := by
  obtain ⟨htakenMem, hunreported⟩ := h.mem_table.1 htaken
  have hreports : ∀ id, reportsOf s'.records id =
      if taken.reqId = id then [outcome] else reportsOf s.records id := fun id => by
    rw [hrecords, reportsOf_append]
    split_ifs with hid
    · subst hid
      rw [hunreported]
      simp [reportsOf, AckRecord.report]
    · simp [reportsOf, AckRecord.report, hid]
  have hcalls : ∀ id, callsOf s'.records id = if taken.reqId = id then
      [(taken.writeIndex, outcome.result taken.reqId taken.value)] else callsOf s.records id := by
    intro id
    have hcall : callsOf [.reported taken.reqId outcome, .result taken.writeIndex
        (outcome.result taken.reqId taken.value) published] id = if taken.reqId = id then
          [(taken.writeIndex, outcome.result taken.reqId taken.value)] else [] := by
      unfold callsOf
      rw [List.filterMap_cons_none rfl, List.filterMap_cons]
      simp only [AckRecord.call, RequestEnd.result_reqId, UInt32.toNat_inj]
      split_ifs <;> rfl
    rw [hrecords, callsOf_append, hcall]
    split_ifs with hid
    · subst hid
      rw [h.calls taken htakenMem, hunreported]
      rfl
    · exact List.append_nil _
  have hacked : ackedWrites writes s'.records = ackedWrites writes s.records := by
    rw [hrecords, ackedWrites_append]
    exact List.append_nil _
  have hids : s'.records.filterMap AckRecord.acceptedId =
      s.records.filterMap AckRecord.acceptedId := by
    rw [hrecords, List.filterMap_append]
    exact List.append_nil _
  have hdistinct : (s.pending.map PendingWrite.reqId).Nodup := by
    rw [h.table]
    exact ((List.filter_sublist.map _).trans (ackedWrites_ids s.records)).nodup h.distinct
  refine ⟨by rw [hcontext]; exact h.ids, by rw [hids, hcontext]; exact h.accepted,
    by rw [hids]; exact h.distinct, fun id hlt => ?_, fun id hmem => ?_, ?_, fun p hp => ?_,
    fun id hpos hothers => ?_⟩
  · rw [hcontext] at hlt
    have hmade := hdue.made
    rw [hreports, if_neg (by rintro rfl; omega)]
    exact h.reported id hlt
  · rw [hreports]
    split_ifs
    · exact le_rfl
    · exact h.once id (hids ▸ hmem)
  · rw [hpending, eraseP_eq_filter hdistinct, h.table, hacked, List.filter_filter]
    refine List.filter_congr fun p _ => ?_
    rw [hreports]
    by_cases hp : taken.reqId = p.reqId
    · simp [hp]
    · simp [hp, Ne.symm hp]
  · rw [hacked] at hp
    rw [hcalls, hreports]
    split_ifs with hid
    · obtain rfl : p = taken := by
        have hnodup : ((ackedWrites writes s.records).map PendingWrite.reqId).Nodup :=
          (ackedWrites_ids s.records).nodup h.distinct
        exact List.inj_on_of_nodup_map hnodup hp htakenMem hid.symm
      rfl
    · exact h.calls p hp
  · rw [hacked] at hothers
    rw [hcalls, if_neg (hothers taken htakenMem)]
    exact h.others id hpos hothers

/-- A request that is not in the table is reported: nothing is called for. -/
theorem Tracks.ignore {s s' : WriteBridge} (h : Tracks writes s) {reqId : UInt32}
    {outcome : RequestEnd} (hunknown : ∀ p ∈ s.pending, p.reqId ≠ reqId)
    (hdue : ReportDue s reqId) (hpending : s'.pending = s.pending)
    (hrecords : s'.records = s.records ++ [.reported reqId outcome])
    (hcontext : s'.context = s.context) : Tracks writes s' := by
  have hreports : ∀ id, reportsOf s'.records id =
      reportsOf s.records id ++ if reqId = id then [outcome] else [] := fun id => by
    rw [hrecords, reportsOf_append]
    split_ifs with hid <;> simp [reportsOf, AckRecord.report, hid]
  have hcalls : ∀ id, callsOf s'.records id = callsOf s.records id := fun id => by
    rw [hrecords, callsOf_append]
    exact List.append_nil _
  have hacked : ackedWrites writes s'.records = ackedWrites writes s.records := by
    rw [hrecords, ackedWrites_append]
    exact List.append_nil _
  have hids : s'.records.filterMap AckRecord.acceptedId =
      s.records.filterMap AckRecord.acceptedId := by
    rw [hrecords, List.filterMap_append]
    exact List.append_nil _
  -- an acknowledged write with this id would be in the table
  have hother : ∀ p ∈ ackedWrites writes s.records, reqId ≠ p.reqId := by
    rintro p hp rfl
    exact hunknown p (h.mem_table.2 ⟨hp, hdue.once (mem_ackedWrites_id hp)⟩) rfl
  refine ⟨by rw [hcontext]; exact h.ids, by rw [hids, hcontext]; exact h.accepted,
    by rw [hids]; exact h.distinct, fun id hlt => ?_, fun id hmem => ?_, ?_, fun p hp => ?_,
    fun id hpos hothers => ?_⟩
  · rw [hcontext] at hlt
    have hmade := hdue.made
    rw [hreports, if_neg (by rintro rfl; omega), List.append_nil]
    exact h.reported id hlt
  · rw [hids] at hmem
    rw [hreports]
    split_ifs with hid
    · subst hid
      rw [hdue.once hmem]
      exact le_rfl
    · rw [List.append_nil]
      exact h.once id hmem
  · rw [hpending, h.table, hacked]
    refine List.filter_congr fun p hp => ?_
    rw [hreports, if_neg (hother p hp), List.append_nil]
  · rw [hacked] at hp
    rw [hcalls, hreports, if_neg (hother p hp), List.append_nil]
    exact h.calls p hp
  · rw [hacked] at hothers
    rw [hcalls]
    exact h.others id hpos hothers

theorem Tracks.frame {s s' : WriteBridge} (h : Tracks writes s) (hpending : s'.pending = s.pending)
    (hrecords : s'.records = s.records ∨ ∃ w told published,
      s'.records = s.records ++ [.result w told published] ∧ told.reqId = 0)
    (hid : s'.context.reqIdNext.toNat = s'.context.serialNext)
    (hserial : s.context.serialNext ≤ s'.context.serialNext) : Tracks writes s' := by
  obtain ⟨hreports, hcalls, hids, hacked⟩ :
      (∀ id, reportsOf s'.records id = reportsOf s.records id) ∧
        (∀ id, 0 < id.toNat → callsOf s'.records id = callsOf s.records id) ∧
        s'.records.filterMap AckRecord.acceptedId = s.records.filterMap AckRecord.acceptedId ∧
        ackedWrites writes s'.records = ackedWrites writes s.records := by
    rcases hrecords with hrecords | ⟨w, told, published, hrecords, hzero⟩
    · rw [hrecords]
      exact ⟨fun _ => rfl, fun _ _ => rfl, rfl, rfl⟩
    · rw [hrecords]
      refine ⟨fun id => ?_, fun id hpos => ?_, ?_, ?_⟩
      · rw [reportsOf_append]
        exact List.append_nil _
      · have hne : told.reqId ≠ id.toNat := by omega
        rw [callsOf_append]
        simp [callsOf, AckRecord.call, hne]
      · rw [List.filterMap_append]
        exact List.append_nil _
      · rw [ackedWrites_append]
        exact List.append_nil _
  have hpos : ∀ p ∈ ackedWrites writes s.records, 0 < p.reqId.toNat := fun p hp =>
    (h.accepted _ (mem_ackedWrites_id hp)).1
  refine ⟨hid, fun id hmem => ?_, by rw [hids]; exact h.distinct, fun id hlt => ?_,
    fun id hmem => ?_, ?_, fun p hp => ?_, fun id hpos' hothers => ?_⟩
  · rw [hids] at hmem
    have hold := h.accepted id hmem
    omega
  · rw [hreports]
    exact h.reported id (by omega)
  · rw [hreports]
    exact h.once id (hids ▸ hmem)
  · rw [hpending, h.table, hacked]
    simp only [hreports]
  · rw [hacked] at hp
    rw [hcalls _ (hpos p hp), hreports]
    exact h.calls p hp
  · rw [hacked] at hothers
    rw [hcalls id hpos']
    exact h.others id hpos' hothers

theorem Tracks.step {s s' : WriteBridge} (h : Tracks writes s) (hstep : WriteStep writes s s')
    (hfew : s'.context.serialNext < 2 ^ 32) : Tracks writes s' := by
  have hids := h.ids
  have hnextId : s'.context.reqIdNext = nextReqId s.context.reqIdNext →
      s'.context.serialNext = s.context.serialNext + 1 →
        s'.context.reqIdNext.toNat = s.context.serialNext + 1 := fun hnext hserial => by
    rw [hnext, nextReqId_toNat (by omega), hids]
  cases hstep with
  | request hpending hrecords hnext hserial =>
    exact h.frame hpending (.inl hrecords) ((hnextId hnext hserial).trans hserial.symm) (by omega)
  | refused hpending hrecords hnext hserial =>
    exact h.frame hpending hrecords (by rw [hnext, hserial]; exact hids) hserial.ge
  | accepted w value hpending hrecords hnext hserial =>
    exact h.accept hpending hrecords (hnextId hnext hserial) hserial
  | settled htaken hdue hpending hrecords hcontext =>
    exact h.settle htaken hdue hpending hrecords hcontext
  | unknown hunknown hdue hpending hrecords hcontext =>
    exact h.ignore hunknown hdue hpending hrecords hcontext

theorem WriteStep.serialNext_le {s s' : WriteBridge} (h : WriteStep writes s s') :
    s.context.serialNext ≤ s'.context.serialNext := by
  cases h with
  | request _ _ _ hserial => omega
  | refused _ _ _ hserial => exact hserial.ge
  | accepted _ _ _ _ _ hserial => omega
  | settled _ _ _ _ hcontext => rw [hcontext]
  | unknown _ _ _ _ hcontext => rw [hcontext]

abbrev WriteSteps (writes : List AckedWrite) : WriteBridge → WriteBridge → Prop :=
  Relation.ReflTransGen (WriteStep writes)

theorem WriteSteps.serialNext_le {s s' : WriteBridge} (h : WriteSteps writes s s') :
    s.context.serialNext ≤ s'.context.serialNext := by
  induction h with
  | refl => exact le_rfl
  | tail _ hstep ih => exact ih.trans hstep.serialNext_le

theorem Tracks.steps {s s' : WriteBridge} (h : Tracks writes s) (hsteps : WriteSteps writes s s')
    (hfew : s'.context.serialNext < 2 ^ 32) : Tracks writes s' := by
  induction hsteps with
  | refl => exact h
  | tail _ hstep ih => exact (ih (hstep.serialNext_le.trans_lt hfew)).step hstep hfew

section

variable {numerals : Numerals} {s : WriteBridge}

theorem pendingWriteAdd_grown (s : WriteBridge) (pending : PendingWrite) :
    (pendingWriteAdd s true pending).pending = s.pending ++ [pending] := by
  unfold pendingWriteAdd
  rw [if_pos rfl]
  split_ifs <;> rfl

theorem accept_pending {w : ℕ} {write : AckedWrite} (hwrite : writes[w]? = some write)
    (request : Request) (value : List UInt8) :
    (s.accept w write request value true).pending = s.pending ++ (AckRecord.pendingWrite writes
      (.accepted w (postRequest s.context write.slave request).reqIdNext value)).toList := by
  unfold WriteBridge.accept
  dsimp only [AckRecord.pendingWrite]
  rw [hwrite, Option.any_some]
  split_ifs
  · exact pendingWriteAdd_grown _ _
  · exact (List.append_nil _).symm

theorem Commanded.step {w : ℕ} {write : AckedWrite} {env : WriteEnv} {s' : WriteBridge}
    (h : Commanded numerals s w write env s') (hwrite : writes[w]? = some write)
    (hgrown : env.grown) : WriteStep writes s s' := by
  cases h with
  | refused c hc reason message =>
    obtain ⟨hnext, hserial⟩ : c.reqIdNext = s.context.reqIdNext ∧
        c.serialNext = s.context.serialNext := by
      rcases hc with rfl | rfl <;> exact ⟨rfl, rfl⟩
    exact .refused rfl (.inr ⟨w, writeNack 0 reason message 0, _, rfl, rfl⟩) hnext hserial
  | accepted values request hrequest =>
    obtain ⟨hrecords, hcontext, -⟩ := accept_frame s w write request
      (writtenText numerals write.toWriteEntry values) env.grown
    obtain ⟨wrapper, -, -, hnext, -⟩ := postRequest_queue hrequest s.context
    have hserial : (postRequest s.context write.slave request).serialNext =
        s.context.serialNext + 1 := by
      obtain ⟨writer, hwriter⟩ := writeRequest_build hrequest s.context.transport write.slave
      unfold postRequest
      rw [hwriter]
      rfl
    refine .accepted w (writtenText numerals write.toWriteEntry values) ?_ ?_ ?_ ?_
    · rw [hcontext, hgrown]
      exact accept_pending hwrite request _
    · rw [hrecords, hcontext]
    · rw [hcontext, hnext]
    · rw [hcontext, hserial]

theorem serveTopic_steps {topic payload : List UInt8} {env : ℕ → WriteEnv}
    (hgrown : ∀ w, (env w).grown) {turns : List (AckedWrite × ℕ)}
    (hturns : ∀ turn ∈ turns, writes[turn.2]? = some turn.1) (s : WriteBridge) :
    WriteSteps writes s (serveTopic numerals topic payload env turns s) := by
  induction turns generalizing s with
  | nil => exact .refl
  | cons turn turns ih =>
    have hrest := ih fun t ht => hturns t (List.mem_cons_of_mem _ ht)
    unfold serveTopic
    rw [List.foldl_cons]
    split_ifs
    · have hcommanded : Commanded numerals s turn.2 turn.1 (env turn.2)
        (serveEntry numerals payload s turn.2 turn.1 (env turn.2)) := serveEntry_commanded payload
      exact .head (hcommanded.step (hturns turn (List.mem_cons_self ..)) (hgrown turn.2)) (hrest _)
    · exact hrest s

theorem rawRequest_step (text : String) (stray : ℕ → UInt8) :
    WriteStep writes s { s with context := (rawRequest s.context text stray).2 } := by
  unfold rawRequest
  dsimp only
  split
  · exact .refused rfl (.inl rfl) rfl rfl
  · exact .request rfl rfl rfl rfl

theorem mqttMessageCallback_steps {topicPrefix : List UInt8} {message : MqttMessage}
    {env : ℕ → WriteEnv} (hgrown : ∀ w, (env w).grown) (stray : ℕ → UInt8) :
    WriteSteps writes s (mqttMessageCallback numerals writes topicPrefix message env stray s) := by
  unfold mqttMessageCallback
  split_ifs
  · exact .refl
  · exact .single (rawRequest_step ..)
  · exact serveTopic_steps hgrown (fun turn => List.mem_zipIdx_iff_getElem?.1) s

theorem pendingWriteTake_cases (pending : List PendingWrite) (reqId : UInt32) :
    (pendingWriteTake pending reqId = none ∧ ∀ p ∈ pending, p.reqId ≠ reqId) ∨
      ∃ taken ∈ pending, taken.reqId = reqId ∧
        pendingWriteTake pending reqId = some (taken, pending.eraseP (·.reqId = reqId)) := by
  unfold pendingWriteTake
  cases hfind : pending.find? (·.reqId = reqId) with
  | none => exact .inl ⟨rfl, fun p hp => by simpa using List.find?_eq_none.1 hfind p hp⟩
  | some taken =>
    have hid : taken.reqId = reqId := by simpa using List.find?_some hfind
    exact .inr ⟨taken, List.mem_of_find?_eq_some hfind, hid, rfl⟩

theorem Tracks.write {p : PendingWrite} (h : Tracks writes s) (hp : p ∈ s.pending) :
    ∃ write, writes[p.writeIndex]? = some write := by
  obtain ⟨record, -, hrecord⟩ := List.mem_filterMap.1 (h.mem_table.1 hp).1
  cases record with
  | accepted w id value =>
    dsimp only [AckRecord.pendingWrite] at hrecord
    split_ifs at hrecord with hack
    obtain rfl := Option.some.inj hrecord
    obtain ⟨write, hwrite, -⟩ := (Option.any_eq_true _ _).1 hack
    exact ⟨write, hwrite⟩
  | reported | result => exact nomatch hrecord

theorem settlePending_step (h : Tracks writes s) {reqId : UInt32} (hdue : ReportDue s reqId)
    (rc : PublishResult) (outcome : RequestEnd) :
    WriteStep writes s (settlePending writes (s.noteReport reqId outcome) reqId rc fun value =>
      outcome.result reqId value) := by
  unfold settlePending
  rcases pendingWriteTake_cases s.pending reqId with ⟨hnone, hunknown⟩ | ⟨taken, hmem, rfl, hsome⟩
  · have htake : pendingWriteTake (s.noteReport reqId outcome).pending reqId = none := hnone
    rw [htake]
    exact .unknown hunknown hdue rfl rfl rfl
  · have htake : pendingWriteTake (s.noteReport taken.reqId outcome).pending taken.reqId =
        some (taken, s.pending.eraseP (·.reqId = taken.reqId)) := hsome
    obtain ⟨write, hwrite⟩ := h.write hmem
    rw [htake]
    dsimp only
    rw [hwrite]
    exact .settled hmem hdue rfl (List.append_assoc s.records [_] [_]) rfl

theorem settlePending_context (s : WriteBridge) (reqId : UInt32) (rc : PublishResult)
    (result : List UInt8 → WriteResult) :
    (settlePending writes s reqId rc result).context = s.context := by
  unfold settlePending
  split
  · rfl
  · dsimp only
    split <;> rfl

theorem WriteEvent.serialNext_le {event : WriteEvent} (hevent : event.Guaranteed s)
    (topicPrefix : List UInt8) : s.context.serialNext ≤
      (event.perform writes numerals topicPrefix s).context.serialNext := by
  cases event with
  | incoming received env stray => exact (mqttMessageCallback_steps hevent stray).serialNext_le
  | request m flags => exact Nat.le_succ _
  | message m rc =>
    have hcontext : (modbusmqMessageCallback writes s m rc).context = s.context := by
      unfold modbusmqMessageCallback
      rw [settlePending_context]
      rfl
    exact (congrArg Context.serialNext hcontext).ge
  | error m code rc =>
    have hcontext : (modbusmqErrorCallback writes s m code rc).context = s.context := by
      unfold modbusmqErrorCallback
      rw [settlePending_context]
      rfl
    exact (congrArg Context.serialNext hcontext).ge
  | links => exact le_rfl

theorem WriteEvent.steps (h : Tracks writes s) {event : WriteEvent} (hevent : event.Guaranteed s)
    (topicPrefix : List UInt8) :
    WriteSteps writes s (event.perform writes numerals topicPrefix s) := by
  cases event with
  | incoming received env stray => exact mqttMessageCallback_steps hevent stray
  | request m flags => exact .single (.request rfl rfl rfl rfl)
  | message m rc => exact .single (settlePending_step h hevent rc (.answered _))
  | error m code rc => exact .single (settlePending_step h hevent rc (.failed code _))
  | links => exact .single (.refused rfl (.inl rfl) rfl rfl)

end

/-- Nothing has been requested yet. -/
structure WriteBridge.Idle (s : WriteBridge) : Prop where
  reqIdNext : s.context.reqIdNext = 0
  serialNext : s.context.serialNext = 0
  pending : s.pending = []
  records : s.records = []

theorem WriteBridge.Idle.tracks {s : WriteBridge} (h : s.Idle) : Tracks writes s where
  ids := by rw [h.reqIdNext, h.serialNext]; rfl
  accepted := by simp [h.records]
  distinct := by simp [h.records]
  reported := by simp [h.records, reportsOf]
  once := by simp [h.records]
  table := by simp [h.records, h.pending, ackedWrites]
  calls := by simp [h.records, ackedWrites]
  others := by simp [h.records, callsOf]

theorem writeRun_serialNext_le {numerals : Numerals} {topicPrefix : List UInt8}
    {events : List WriteEvent} {s : WriteBridge}
    (hguaranteed : AlongWrites writes numerals topicPrefix WriteEvent.Guaranteed events s) :
    s.context.serialNext ≤ (writeRun writes numerals topicPrefix events s).context.serialNext := by
  induction events generalizing s with
  | nil => exact le_rfl
  | cons event events ih => exact (event.serialNext_le hguaranteed.1 _).trans (ih hguaranteed.2)

theorem Tracks.run {numerals : Numerals} {topicPrefix : List UInt8} {events : List WriteEvent}
    {s : WriteBridge} (h : Tracks writes s)
    (hguaranteed : AlongWrites writes numerals topicPrefix WriteEvent.Guaranteed events s)
    (hfew : (writeRun writes numerals topicPrefix events s).context.serialNext < 2 ^ 32) :
    Tracks writes (writeRun writes numerals topicPrefix events s) := by
  induction events generalizing s with
  | nil => exact h
  | cons event events ih =>
    have hlater := writeRun_serialNext_le hguaranteed.2
    exact ih (h.steps (event.steps h hguaranteed.1 _) (hlater.trans_lt hfew)) hguaranteed.2 hfew

/-- A callback about a request that is not in the table. -/
theorem settlePending_unknown {s : WriteBridge} {reqId : UInt32}
    (hunknown : ∀ p ∈ s.pending, p.reqId ≠ reqId) (rc : PublishResult) (outcome : RequestEnd)
    (result : List UInt8 → WriteResult) :
    settlePending writes (s.noteReport reqId outcome) reqId rc result =
      s.noteReport reqId outcome := by
  unfold settlePending
  rcases pendingWriteTake_cases s.pending reqId with ⟨hnone, -⟩ | ⟨taken, hmem, hid, -⟩
  · have htake : pendingWriteTake (s.noteReport reqId outcome).pending reqId = none := hnone
    rw [htake]
  · exact absurd hid (hunknown taken hmem)

/-- In every run in which the library reports what it has taken once, memory does not run out and
fewer than 2^32 requests are made: an accepted write that is to be acknowledged has one call of
`mqtt_write_result` once it is reported and none before, with its own entry, text and outcome; no
other request has a call; the table holds the accepted, unreported writes that are to be
acknowledged, in order; and a callback about any other request changes neither. -/
theorem writes_acknowledged_once {writes : List AckedWrite} {numerals : Numerals}
    {topicPrefix : List UInt8} {events : List WriteEvent} {s₀ s : WriteBridge} (hidle : s₀.Idle)
    (hguaranteed : AlongWrites writes numerals topicPrefix WriteEvent.Guaranteed events s₀)
    (hs : s = writeRun writes numerals topicPrefix events s₀)
    (hfew : s.context.serialNext < 2 ^ 32) :
    (∀ w id value write, .accepted w id value ∈ s.records → writes[w]? = some write →
      write.acks.ack →
        (reportsOf s.records id = [] ∧ callsOf s.records id = []) ∨
          ∃ outcome, reportsOf s.records id = [outcome] ∧
            callsOf s.records id = [(w, outcome.result id value)]) ∧
      (∀ id, 0 < id.toNat → (∀ p ∈ ackedWrites writes s.records, p.reqId ≠ id) →
        callsOf s.records id = []) ∧
      s.pending = (ackedWrites writes s.records).filter (fun p => reportsOf s.records p.reqId = []) ∧
      ∀ m error rc, (∀ p ∈ s.pending, p.reqId ≠ m.reqId) →
        ∀ s' ∈ [modbusmqMessageCallback writes s m rc, modbusmqErrorCallback writes s m error rc],
          s'.pending = s.pending ∧ ∀ id, callsOf s'.records id = callsOf s.records id := by
  subst hs
  have htracks : Tracks writes _ := hidle.tracks.run hguaranteed hfew
  refine ⟨fun w id value write haccepted hwrite hack => ?_, htracks.others, htracks.table,
    fun m error rc hunknown s' hs' => ?_⟩
  · have hacked : ⟨id, w, value⟩ ∈ ackedWrites writes
        (writeRun writes numerals topicPrefix events s₀).records := by
      refine List.mem_filterMap.2 ⟨_, haccepted, ?_⟩
      dsimp only [AckRecord.pendingWrite]
      rw [hwrite, Option.any_some, if_pos hack]
    have hcalls := htracks.calls _ hacked
    dsimp only at hcalls
    match hreports : reportsOf (writeRun writes numerals topicPrefix events s₀).records id with
    | [] => exact .inl ⟨rfl, by rw [hcalls, hreports]; rfl⟩
    | [outcome] => exact .inr ⟨outcome, rfl, by rw [hcalls, hreports]; rfl⟩
    | _ :: _ :: _ =>
      have honce := htracks.once id (mem_ackedWrites_id hacked)
      rw [hreports] at honce
      exact absurd honce (by simp)
  · have hnote : ∀ outcome, ∀ id, callsOf ((writeRun writes numerals topicPrefix events
        s₀).noteReport m.reqId outcome).records id =
          callsOf (writeRun writes numerals topicPrefix events s₀).records id := by
      intro outcome id
      unfold WriteBridge.noteReport
      rw [callsOf_append]
      exact List.append_nil _
    rcases List.mem_pair.1 hs' with rfl | rfl
    · unfold modbusmqMessageCallback
      rw [settlePending_unknown hunknown]
      exact ⟨rfl, hnote _⟩
    · unfold modbusmqErrorCallback
      rw [settlePending_unknown hunknown]
      exact ⟨rfl, hnote _⟩

def ackedCoil : AckedWrite where
  slave := 1
  hasSlave := true
  template := false
  type := some .coil
  function := .coil
  address := 3
  hasAddress := true
  format := .unknown
  add := 0
  mod := 0
  mul := 0
  onValue := 0
  offValue := 0
  hasOnValue := false
  hasOffValue := false
  topic := "t"
  naddress := 0
  hasNaddress := false
  channels := []
  hasDefaults := false
  acks := ⟨none, some [116], true, some [116, 47, 97]⟩

/-- The coil is switched on between two polls, and its answer comes in. -/
def coilEvents : List WriteEvent :=
  let poll := Msg.ofFrame 1 (pollFrame .tcp 1 (some .coil) 0 0 1)
  [.request poll .subscribe,
    .incoming ⟨[116], [48, 48, 48, 48, 48, 49, 48, 48]⟩ (fun _ => ⟨true, true, .success⟩) fun _ => 0,
    .request poll .subscribe, .message { poll with reqId := 2 } .success]

def idleBridge : WriteBridge := ⟨newContext .tcp, true, true, [], 0, []⟩

theorem coilEvents_guaranteed :
    AlongWrites [ackedCoil] hundredNumerals [] WriteEvent.Guaranteed coilEvents idleBridge := by
  refine ⟨trivial, fun _ => rfl, trivial, ⟨?_, fun _ => rfl⟩, trivial⟩
  decide

theorem writes_acknowledged_once_example :
    callsOf (writeRun [ackedCoil] hundredNumerals [] coilEvents idleBridge).records 2 =
      [(0, ⟨2, .ok, some [49], none, none, 0⟩)] := by
  have hidle : idleBridge.Idle := ⟨rfl, rfl, rfl, rfl⟩
  have hall := (writes_acknowledged_once hidle coilEvents_guaranteed rfl (by decide)).1 0 2 [49]
    ackedCoil (List.mem_cons_self ..) rfl rfl
  rcases hall with ⟨hreports, -⟩ | ⟨outcome, hreports, hcalls⟩
  · exact nomatch hreports
  · rw [hcalls]
    obtain rfl : outcome = .answered false := (List.singleton_inj.1 hreports).symm
    rfl

end Modbusmq
