import Modbusmq.Bridge.Payloads
import Modbusmq.Loop.Accounting

/-!
# Commands

What the bridge does with a message on a write topic: `mqtt_message_callback`
and `modbus_write_post` of `modbusmq.c`, with `pending_write_add`. A message of
1024 bytes or more is dropped without an answer.
-/

namespace Modbusmq

open Json

structure PendingWrite where
  reqId : UInt32
  writeIndex : ℕ
  value : List UInt8
  deriving DecidableEq

inductive RequestEnd
  | answered (broadcast : Bool)
  | failed (error : ℤ) (code : ℕ)
  deriving DecidableEq

inductive AckRecord
  /-- a request for this entry has entered the queue, with the text its acknowledgement is to
  report -/
  | accepted (write : ℕ) (reqId : UInt32) (value : List UInt8)
  /-- a callback was called about this request -/
  | reported (reqId : UInt32) (outcome : RequestEnd)
  /-- `mqtt_write_result` was called for this entry, and has handed this to the broker -/
  | result (write : ℕ) (result : WriteResult) (published : Option (List UInt8 × List UInt8))

/-- The bridge's side of the writes. `records` is a ghost. -/
structure WriteBridge where
  context : Context
  modbusConnected : Bool
  mqttConnected : Bool
  pending : List PendingWrite
  pendingMax : ℕ
  records : List AckRecord

/-- What memory and the broker answer while one entry is served. -/
structure WriteEnv where
  queued : Bool
  grown : Bool
  rc : PublishResult

def WriteBridge.writeResult (s : WriteBridge) (w : ℕ) (write : AckedWrite) (rc : PublishResult)
    (result : WriteResult) : WriteBridge :=
  let (published, connected) := mqttWriteResult s.mqttConnected rc write.acks result
  { s with mqttConnected := connected, records := s.records ++ [.result w result published] }

def writeAck (reqId : UInt32) (value : List UInt8) (broadcast : Bool) : WriteResult :=
  ⟨reqId.toNat, if broadcast then .sent else .ok, some value, none, none, 0⟩

def writeNack (reqId : UInt32) (reason : AckReason) (message : List UInt8) (code : ℕ) :
    WriteResult :=
  ⟨reqId.toNat, .error, none, some reason, some message, code⟩

def pendingWriteInitial : ℕ := 32

/-- `pending_write_add`; out of memory it drops the oldest entry, or has no table at all. -/
def pendingWriteAdd (s : WriteBridge) (grown : Bool) (pending : PendingWrite) : WriteBridge :=
  if s.pendingMax ≤ s.pending.length then
    if grown then
      { s with
        pending := s.pending ++ [pending]
        pendingMax := if s.pendingMax ≠ 0 then s.pendingMax * 2 else pendingWriteInitial }
    else if s.pending ≠ [] then { s with pending := s.pending.tail ++ [pending] }
    else s
  else { s with pending := s.pending ++ [pending] }

section

variable (numerals : Numerals)

/-- The values a block sends, in the order of its channels. -/
def sentValues (write : WriteEntry) : Option (List Double) → List Double
  | some values => values
  | none => write.channels.map (·.value)

/-- The `written` of `modbus_write_post`, a buffer of 96 bytes. -/
def writtenText (write : WriteEntry) (values : Option (List Double)) : List UInt8 :=
  if write.channels ≠ [] then
    (sentValues write values).foldl (fun out value =>
      (out ++ (if out ≠ [] then [44] else []) ++ numerals.general value).take 95) []
  else
    let value := (values.getD []).headD (some 0)
    if write.function = .coil then [if coilOn numerals.cast write value then 49 else 48]
    else (numerals.general value).take 95

/-- The end of `modbus_write_post`: the request enters the queue, and a write that is to be
acknowledged is remembered under its id. -/
def WriteBridge.accept (s : WriteBridge) (w : ℕ) (write : AckedWrite) (request : Request)
    (value : List UInt8) (grown : Bool) : WriteBridge :=
  let c := postRequest s.context write.slave request
  let s := { s with context := c, records := s.records ++ [.accepted w c.reqIdNext value] }
  if write.acks.ack then pendingWriteAdd s grown ⟨c.reqIdNext, w, value⟩ else s

/-- `modbus_write_post`; `values` is missing in the trigger form of a block. -/
def modbusWritePost (s : WriteBridge) (w : ℕ) (write : AckedWrite) (values : Option (List Double))
    (env : WriteEnv) : WriteBridge :=
  if ¬ s.modbusConnected then
    s.writeResult w write env.rc
      (writeNack 0 .offline (ascii "not connected to the device".toList) 0)
  else
    let s := { s with context := setSlave s.context write.slave }
    match writeRequest numerals.rounded numerals.single numerals.cast write.toWriteEntry values with
    | none =>
      s.writeResult w write env.rc (writeNack 0 .encode
        (ascii (if write.channels ≠ [] then "a value does not fit its channel format"
          else "the value does not fit the configured format").toList) 0)
    | some request =>
      if ¬ env.queued then
        s.writeResult w write env.rc
          (writeNack 0 .queue (ascii "the request could not be queued".toList) 0)
      else s.accept w write request (writtenText numerals write.toWriteEntry values) env.grown

structure MqttMessage where
  topic : List UInt8
  payload : List UInt8

def rawTopic (topicPrefix suffix : List UInt8) : List UInt8 :=
  (topicPrefix ++ ascii "request/raw".toList ++ suffix).take 255

/-- The turn of one entry of the topic in `mqtt_message_callback`. -/
def serveEntry (payload : List UInt8) (s : WriteBridge) (w : ℕ) (write : AckedWrite)
    (env : WriteEnv) : WriteBridge :=
  if write.channels ≠ [] then
    match mqttPayloadBlock numerals write.toWriteEntry payload with
    | .error why => s.writeResult w write env.rc (writeNack 0 .payload why 0)
    | .ok values => modbusWritePost numerals s w write values env
  else
    match mqttPayloadValue numerals write.toWriteEntry payload with
    | .error why => s.writeResult w write env.rc (writeNack 0 .payload why 0)
    | .ok value => modbusWritePost numerals s w write (some [value]) env

/-- The loop of `mqtt_message_callback` over the entries; `env` is by entry. -/
def serveTopic (topic payload : List UInt8) (env : ℕ → WriteEnv)
    (turns : List (AckedWrite × ℕ)) (s : WriteBridge) : WriteBridge :=
  turns.foldl (fun s turn =>
    if turn.1.acks.topic = some topic then
      serveEntry numerals payload s turn.2 turn.1 (env turn.2)
    else s) s

def mqttMessageCallback (writes : List AckedWrite) (topicPrefix : List UInt8)
    (message : MqttMessage) (env : ℕ → WriteEnv) (stray : ℕ → UInt8) (s : WriteBridge) :
    WriteBridge :=
  if 1024 ≤ message.payload.length then s
  else
    let payload := message.payload.takeWhile (· ≠ 0)
    if message.topic = rawTopic topicPrefix [] then
      let text := String.ofList (payload.map fun b => Char.ofNat b.toNat)
      { s with context := (rawRequest s.context text stray).2 }
    else serveTopic numerals message.topic payload env writes.zipIdx s

end

/-- The record answers a message for the entry `w`: its request was accepted, or a refusal was
handed to the broker. -/
def AckRecord.answers (w : ℕ) : AckRecord → Bool
  | accepted w' _ _ => w' = w
  | reported _ _ => false
  | result w' told published => w' = w ∧ told.status = .error ∧ published.isSome

def AckRecord.acceptedId : AckRecord → Option UInt32
  | accepted _ reqId _ => some reqId
  | reported _ _ | result _ _ _ => none

def WriteBridge.queued (s : WriteBridge) : List UInt32 := s.context.queue.map (·.msg.reqId)

/-- What the records say was accepted is what entered the queue, and every entry of the topic is
answered exactly once. -/
def MessageAnswered (writes : List AckedWrite) (topic : List UInt8) (s s' : WriteBridge) : Prop :=
  ∃ records, s'.records = s.records ++ records ∧
    s'.queued.Perm (records.filterMap AckRecord.acceptedId ++ s.queued) ∧
    ∀ w write, writes[w]? = some write → write.acks.topic = some topic →
      records.countP (AckRecord.answers w) = 1

variable {numerals : Numerals} {write : AckedWrite} {env : WriteEnv} {s : WriteBridge} {w : ℕ}

/-- A request of a slave that is about to be asked has been refused, or has entered the queue. -/
inductive Commanded (numerals : Numerals) (s : WriteBridge) (w : ℕ) (write : AckedWrite)
    (env : WriteEnv) : WriteBridge → Prop
  | refused (c : Context) (hc : c = s.context ∨ c = setSlave s.context write.slave)
      (reason : AckReason) (message : List UInt8) :
      Commanded numerals s w write env
        ({ s with context := c }.writeResult w write env.rc (writeNack 0 reason message 0))
  | accepted (values : Option (List Double)) (request : Request)
      (hrequest : writeRequest numerals.rounded numerals.single numerals.cast write.toWriteEntry values =
        some request) :
      Commanded numerals s w write env
        (s.accept w write request (writtenText numerals write.toWriteEntry values) env.grown)

theorem modbusWritePost_commanded (values : Option (List Double)) :
    Commanded numerals s w write env (modbusWritePost numerals s w write values env) := by
  unfold modbusWritePost
  by_cases hoffline : ¬ s.modbusConnected
  · rw [if_pos hoffline]
    exact .refused s.context (.inl rfl) _ _
  rw [if_neg hoffline]
  dsimp only
  cases hrequest : writeRequest numerals.rounded numerals.single numerals.cast write.toWriteEntry values with
  | none => exact .refused _ (.inr rfl) _ _
  | some request =>
    by_cases hqueue : ¬ env.queued
    · dsimp only
      rw [if_pos hqueue]
      exact .refused _ (.inr rfl) _ _
    · dsimp only
      rw [if_neg hqueue]
      exact .accepted values request hrequest

theorem serveEntry_commanded (payload : List UInt8) :
    Commanded numerals s w write env (serveEntry numerals payload s w write env) := by
  unfold serveEntry
  split_ifs
  · split
    · exact .refused s.context (.inl rfl) _ _
    · exact modbusWritePost_commanded _
  · split
    · exact .refused s.context (.inl rfl) _ _
    · exact modbusWritePost_commanded _

theorem pendingWriteAdd_frame (s : WriteBridge) (grown : Bool) (pending : PendingWrite) :
    (pendingWriteAdd s grown pending).records = s.records ∧
      (pendingWriteAdd s grown pending).context = s.context ∧
        (pendingWriteAdd s grown pending).mqttConnected = s.mqttConnected := by
  unfold pendingWriteAdd
  split_ifs <;> exact ⟨rfl, rfl, rfl⟩

theorem accept_frame (s : WriteBridge) (w : ℕ) (write : AckedWrite) (request : Request)
    (value : List UInt8) (grown : Bool) :
    (s.accept w write request value grown).records = s.records ++
        [.accepted w (postRequest s.context write.slave request).reqIdNext value] ∧
      (s.accept w write request value grown).context =
        postRequest s.context write.slave request ∧
      (s.accept w write request value grown).mqttConnected = s.mqttConnected := by
  unfold WriteBridge.accept
  dsimp only
  split_ifs
  · exact pendingWriteAdd_frame ..
  · exact ⟨rfl, rfl, rfl⟩

/-- The request of a command is built and enters the queue under the next id. -/
theorem postRequest_queue {values : Option (List Double)} {request : Request}
    (h : writeRequest numerals.rounded numerals.single numerals.cast write.toWriteEntry values = some request)
    (c : Context) : ∃ wrapper, wrapper.flags = .post ∧
      wrapper.msg.reqId = (postRequest c write.slave request).reqIdNext ∧
      (postRequest c write.slave request).reqIdNext = nextReqId c.reqIdNext ∧
      (postRequest c write.slave request).queue = enqueue c.queue wrapper := by
  obtain ⟨writer, hwriter⟩ := writeRequest_build h c.transport write.slave
  unfold postRequest
  rw [hwriter]
  exact ⟨⟨.post, 0, _⟩, rfl, preparedMsg_reqId .., rfl, rfl⟩

structure EntryAnswered (s : WriteBridge) (w : ℕ) (s' : WriteBridge) (record : AckRecord) :
    Prop where
  records : s'.records = s.records ++ [record]
  queued : s'.queued.Perm (record.acceptedId.toList ++ s.queued)
  mqttConnected : s'.mqttConnected
  answers : ∀ w', record.answers w' = decide (w' = w)

theorem Commanded.answered {s' : WriteBridge} (h : Commanded numerals s w write env s')
    (hconnected : s.mqttConnected) (hrc : env.rc ≠ .noConnection) (hack : write.acks.ack)
    (htopic : write.acks.ackTopic.isSome) : ∃ record, EntryAnswered s w s' record := by
  cases h with
  | refused c hc reason message =>
    obtain ⟨topic, htopic⟩ := Option.isSome_iff_exists.1 htopic
    have hresult : mqttWriteResult s.mqttConnected env.rc write.acks (writeNack 0 reason message 0) =
        (some (topic, writeResultPayload write.acks (writeNack 0 reason message 0)), true) := by
      simp [mqttWriteResult, htopic, hack, hconnected, hrc]
    refine ⟨.result w (writeNack 0 reason message 0)
      (some (topic, writeResultPayload write.acks (writeNack 0 reason message 0))), ?_, ?_, ?_,
      fun w' => ?_⟩
    · simp only [WriteBridge.writeResult, hresult]
    · rcases hc with rfl | rfl
      · exact .refl _
      · exact .refl _
    · simp only [WriteBridge.writeResult, hresult]
    · simp [AckRecord.answers, writeNack, eq_comm]
  | accepted values request hrequest =>
    obtain ⟨hrecords, hcontext, hmqtt⟩ := accept_frame s w write request
      (writtenText numerals write.toWriteEntry values) env.grown
    obtain ⟨wrapper, -, hid, -, hqueue⟩ := postRequest_queue hrequest s.context
    refine ⟨_, hrecords, ?_, hmqtt.trans hconnected, fun w' => ?_⟩
    · rw [WriteBridge.queued, WriteBridge.queued, hcontext, hqueue, ← hid]
      exact (enqueue_perm s.context.queue wrapper).map _
    · simp [AckRecord.answers, eq_comm]

/-- What the turns of some entries add: records of what entered the queue, and one answer for
each entry of the topic. -/
def TopicAnswered (topic : List UInt8) (turns : List (AckedWrite × ℕ)) (s s' : WriteBridge) :
    Prop :=
  ∃ records, s'.records = s.records ++ records ∧
    s'.queued.Perm (records.filterMap AckRecord.acceptedId ++ s.queued) ∧
    (∀ turn ∈ turns, turn.1.acks.topic = some topic →
      records.countP (AckRecord.answers turn.2) = 1) ∧
    ∀ w, w ∉ turns.map Prod.snd → records.countP (AckRecord.answers w) = 0

theorem serveTopic_answered {topic payload : List UInt8} {env : ℕ → WriteEnv}
    (hrc : ∀ w, (env w).rc ≠ .noConnection) {turns : List (AckedWrite × ℕ)}
    (hdistinct : (turns.map Prod.snd).Nodup)
    (hack : ∀ turn ∈ turns, turn.1.acks.topic = some topic →
      turn.1.acks.ack ∧ turn.1.acks.ackTopic.isSome) {s : WriteBridge} (hs : s.mqttConnected) :
    TopicAnswered topic turns s (serveTopic numerals topic payload env turns s) := by
  induction turns generalizing s with
  | nil => exact ⟨[], (List.append_nil _).symm, .refl _, by simp, by simp⟩
  | cons turn turns ih =>
    rw [List.map_cons, List.nodup_cons] at hdistinct
    have hrest := fun t ht => hack t (List.mem_cons_of_mem _ ht)
    unfold serveTopic
    rw [List.foldl_cons]
    by_cases htopic : turn.1.acks.topic = some topic
    · rw [if_pos htopic]
      obtain ⟨hacked, hackTopic⟩ := hack turn (List.mem_cons_self ..) htopic
      have hcommanded : Commanded numerals s turn.2 turn.1 (env turn.2)
        (serveEntry numerals payload s turn.2 turn.1 (env turn.2)) := serveEntry_commanded payload
      obtain ⟨record, hrecord⟩ := hcommanded.answered hs (hrc turn.2) hacked hackTopic
      obtain ⟨records, hrecords, hqueued, hanswered, hothers⟩ :=
        ih hdistinct.2 hrest hrecord.mqttConnected
      have hcount : ∀ w, (record :: records).countP (AckRecord.answers w) =
          records.countP (AckRecord.answers w) + if w = turn.2 then 1 else 0 := by
        intro w
        rw [List.countP_cons, hrecord.answers]
        simp only [decide_eq_true_eq]
      refine ⟨record :: records, ?_, ?_, fun t ht htopic => ?_, fun w hw => ?_⟩
      · change (serveTopic numerals topic payload env turns _).records = _
        rw [hrecords, hrecord.records, List.append_assoc]
        rfl
      · have hcons : (record :: records).filterMap AckRecord.acceptedId =
            record.acceptedId.toList ++ records.filterMap AckRecord.acceptedId := by
          cases hid : record.acceptedId <;> simp [hid]
        rw [hcons, List.append_assoc]
        exact (hqueued.trans (hrecord.queued.append_left _)).trans (List.perm_append_comm_assoc ..)
      · rw [hcount]
        rcases List.mem_cons.1 ht with rfl | ht
        · rw [hothers _ hdistinct.1, if_pos rfl]
        · have hne : t.2 ≠ turn.2 := fun heq =>
            hdistinct.1 (heq ▸ List.mem_map_of_mem ht)
          rw [hanswered t ht htopic, if_neg hne]
      · rw [List.map_cons, List.mem_cons, not_or] at hw
        rw [hcount, hothers w hw.2, if_neg hw.1]
    · rw [if_neg htopic]
      obtain ⟨records, hrecords, hqueued, hanswered, hothers⟩ := ih hdistinct.2 hrest hs
      refine ⟨records, hrecords, hqueued, fun t ht htold => ?_, fun w hw => ?_⟩
      · rcases List.mem_cons.1 ht with rfl | ht
        · exact absurd htold htopic
        · exact hanswered t ht htold
      · rw [List.map_cons, List.mem_cons, not_or] at hw
        exact hothers w hw.2

/-- Every entry of the topic of a message has one request accepted into the queue or one refusal
handed to the broker, exactly if the message has less than 1024 bytes. -/
theorem mqttMessageCallback_answers {writes : List AckedWrite} {topicPrefix : List UInt8}
    {message : MqttMessage} (htopic : message.topic ≠ rawTopic topicPrefix [])
    (hwrites : ∃ write ∈ writes, write.acks.topic = some message.topic)
    (hack : ∀ write ∈ writes, write.acks.topic = some message.topic →
      write.acks.ack ∧ write.acks.ackTopic.isSome)
    {env : ℕ → WriteEnv} (hrc : ∀ w, (env w).rc ≠ .noConnection) {s : WriteBridge}
    (hconnected : s.mqttConnected) (stray : ℕ → UInt8) :
    MessageAnswered writes message.topic s
        (mqttMessageCallback numerals writes topicPrefix message env stray s) ↔
      message.payload.length < 1024 := by
  unfold mqttMessageCallback
  by_cases hlong : 1024 ≤ message.payload.length
  · rw [if_pos hlong]
    refine iff_of_false ?_ (by omega)
    rintro ⟨records, hrecords, -, hanswered⟩
    obtain rfl : records = [] := List.self_eq_append_right.1 hrecords
    obtain ⟨write, hwrite, htold⟩ := hwrites
    obtain ⟨w, hw, rfl⟩ := List.mem_iff_getElem.1 hwrite
    exact absurd (hanswered w _ (List.getElem?_eq_getElem hw) htold) (by simp)
  · rw [if_neg hlong]
    dsimp only
    rw [if_neg htopic]
    refine iff_of_true ?_ (by omega)
    have hturns : (writes.zipIdx.map Prod.snd).Nodup := by
      rw [List.zipIdx_map_snd]
      exact List.nodup_range'
    have hmem : ∀ turn ∈ writes.zipIdx, turn.1 ∈ writes := fun turn hturn =>
      List.mem_of_getElem? (List.mem_zipIdx_iff_getElem?.1 hturn)
    have hserved : TopicAnswered message.topic writes.zipIdx s (serveTopic numerals message.topic
        (message.payload.takeWhile (· ≠ 0)) env writes.zipIdx s) :=
      serveTopic_answered hrc hturns (fun turn hturn => hack turn.1 (hmem turn hturn)) hconnected
    obtain ⟨records, hrecords, hqueued, hanswered, -⟩ := hserved
    refine ⟨records, hrecords, hqueued, fun w write hwrite htold => ?_⟩
    exact hanswered (write, w) (List.mk_mem_zipIdx_iff_getElem?.2 hwrite) htold

def hundredNumerals : Numerals where
  rounded := id
  single := fun _ => 0
  cast := fun _ => -2 ^ 31
  strtod := fun _ => (some 100, 8)
  general := fun _ => ascii ['1', '0', '0']

def wideBlock : AckedWrite where
  slave := 1
  hasSlave := true
  template := false
  type := some .holdingRegister
  function := .registers
  address := 0
  hasAddress := true
  format := .unknown
  add := 0
  mod := 0
  mul := 0
  onValue := 0
  offValue := 0
  hasOnValue := false
  hasOffValue := false
  topic := "t"
  naddress := 123
  hasNaddress := true
  channels := (List.range 123).map fun c => ⟨2 * c, .ab, 0, 0, 0, some 0, false⟩
  hasDefaults := false
  acks := ⟨none, some [116], true, some [116, 47, 97]⟩

def hundreds (n : ℕ) : List UInt8 :=
  (List.replicate n [48, 48, 48, 48, 48, 49, 48, 48, 44]).flatten

theorem hundreds_length (n : ℕ) : (hundreds n).length = n * 9 := by simp [hundreds]

theorem blockLoop_comma (payload : List UInt8) (values : List Double) (p : List UInt8) :
    blockLoop numerals payload values (44 :: p) = blockLoop numerals payload values p := by
  rw [blockLoop, blockLoop]
  rfl

theorem blockLoop_hundreds (payload : List UInt8) {n : ℕ} {values : List Double}
    (hroom : values.length + n ≤ 123) :
    blockLoop hundredNumerals payload values (hundreds n) =
      .ok (values ++ List.replicate n (some 100), []) := by
  induction n generalizing values with
  | zero =>
    rw [blockLoop]
    simp [hundreds]
  | succ n ih =>
    have hsplit : hundreds (n + 1) =
        [48, 48, 48, 48, 48, 49, 48, 48] ++ 44 :: hundreds n := by
      simp [hundreds, List.replicate_succ]
    have hhead : (hundreds (n + 1)).dropWhile (blankByte [44]) = hundreds (n + 1) := by
      rw [hsplit]
      rfl
    rw [blockLoop]
    split
    · rename_i hnil
      rw [hhead, hsplit] at hnil
      exact absurd hnil (List.cons_ne_nil _ _)
    · rename_i b rest hcons
      rw [hhead, hsplit] at hcons
      obtain ⟨rfl, rfl⟩ := List.cons.inj hcons
      rw [if_neg (by decide), if_neg (by omega)]
      change blockLoop hundredNumerals payload (values ++ [some 100]) (44 :: hundreds n) = _
      rw [blockLoop_comma, ih (by rw [List.length_append, List.length_singleton]; omega),
        List.replicate_succ, List.append_assoc]
      rfl

theorem wideBlock_acked (topic : List UInt8) : ∀ write ∈ [wideBlock],
    write.acks.topic = some topic → write.acks.ack ∧ write.acks.ackTopic.isSome := by
  intro write hwrite _
  obtain rfl := List.mem_singleton.1 hwrite
  exact ⟨rfl, rfl⟩

/-- A list of 123 values that the block would take is dropped: nobody answers it. -/
theorem long_list_unanswered :
    mqttPayloadBlock hundredNumerals wideBlock.toWriteEntry (hundreds 123) =
        .ok (some (List.replicate 123 (some 100))) ∧
      ¬ ∀ (numerals : Numerals) (writes : List AckedWrite) (topicPrefix : List UInt8)
        (message : MqttMessage) (env : ℕ → WriteEnv) (stray : ℕ → UInt8) (s : WriteBridge),
        message.topic ≠ rawTopic topicPrefix [] →
        (∃ write ∈ writes, write.acks.topic = some message.topic) →
        (∀ write ∈ writes, write.acks.topic = some message.topic →
          write.acks.ack ∧ write.acks.ackTopic.isSome) →
        (∀ w, (env w).rc ≠ .noConnection) → s.mqttConnected →
        MessageAnswered writes message.topic s
          (mqttMessageCallback numerals writes topicPrefix message env stray s) := by
  refine ⟨?_, fun h => ?_⟩
  · have hlist : (hundreds 123).dropWhile (blankByte []) = hundreds 123 := rfl
    have hdefault : ¬ (hundreds 123 = [] ∨ sameWord (hundreds 123) "default" = true ∨
        sameWord (hundreds 123) "defaults" = true) := by decide
    have hchannels : wideBlock.channels.length = 123 := by simp [wideBlock]
    unfold mqttPayloadBlock
    dsimp only
    rw [hlist, if_neg hdefault, if_neg (by decide), blockLoop_hundreds _ (by decide)]
    dsimp only
    rw [if_neg (by decide), hchannels, if_neg (by simp), List.nil_append]
  · have hanswered := h hundredNumerals [wideBlock] [] ⟨[116], hundreds 123⟩
      (fun _ => ⟨true, true, .success⟩) (fun _ => 0) ⟨newContext .tcp, true, true, [], 0, []⟩
      (by decide) ⟨wideBlock, List.mem_singleton_self _, rfl⟩ (wideBlock_acked _) (by simp) rfl
    have hlong : 1024 ≤ (hundreds 123).length := by
      rw [hundreds_length]
      decide
    rw [mqttMessageCallback, if_pos hlong] at hanswered
    obtain ⟨records, hrecords, -, hall⟩ := hanswered
    obtain rfl : records = [] := List.self_eq_append_right.1 hrecords
    exact absurd (hall 0 wideBlock rfl rfl) (by simp)

theorem mqttMessageCallback_answers_example :
    MessageAnswered [wideBlock] [116] ⟨newContext .tcp, true, true, [], 0, []⟩
      (mqttMessageCallback hundredNumerals [wideBlock] [] ⟨[116], hundreds 2⟩
        (fun _ => ⟨true, true, .success⟩) (fun _ => 0) ⟨newContext .tcp, true, true, [], 0, []⟩) :=
  Iff.mpr (mqttMessageCallback_answers (by decide)
    ⟨wideBlock, List.mem_singleton_self _, rfl⟩ (wideBlock_acked _) (by simp) rfl _) (by decide)

end Modbusmq
