import Modbusmq.Bridge.PendingWrites
import Modbusmq.Loop.Reports

/-!
# The bridge over its library

`modbusmq.c` as its commands see it: the library it calls, whose callbacks settle the writes and
publish the replies to raw requests, and the messages that come in. The records of the bridge
follow what the library tells it.
-/

namespace Modbusmq

/-- The bridge with its library: the side of the writes, and the lines it has published on the
reply topic of the raw requests. -/
structure CommandBridge extends WriteBridge where
  replies : List String

def rawReplyCallback (s : CommandBridge) (rc : PublishResult) (reply : String) : CommandBridge :=
  if ¬ s.mqttConnected then s
  else if rc ≠ .success then s
  else { s with replies := s.replies ++ [reply] }

inductive CommandEvent
  /-- `main` calls the library -/
  | call (call : Call) (env : Env)
  /-- a message comes in -/
  | incoming (message : MqttMessage) (env : ℕ → WriteEnv) (stray : ℕ → UInt8)
  /-- the device or the broker is lost or reached -/
  | links (modbusConnected mqttConnected : Bool)

section

variable (writes : List AckedWrite)

/-- The callback the library makes for an event. -/
def CommandBridge.told (s : CommandBridge) (rc : PublishResult) : Event → CommandBridge
  | .reported m .message =>
    { s with toWriteBridge := modbusmqMessageCallback writes s.toWriteBridge m rc }
  | .reported m (.error error) =>
    { s with toWriteBridge := modbusmqErrorCallback writes s.toWriteBridge m error rc }
  | .reported _ (.raw line) | .refused line => rawReplyCallback s rc line
  | _ => s

/-- The callbacks the library makes for these events, of which the first has this index. -/
def CommandBridge.hear (rc : ℕ → PublishResult) : List Event → ℕ → CommandBridge → CommandBridge
  | [], _, s => s
  | e :: events, i, s => hear rc events (i + 1) (s.told writes (rc i) e)

variable (numerals : Numerals) (topicPrefix : List UInt8)

def CommandEvent.serve (s : WriteBridge) : CommandEvent → WriteBridge
  | call made env => { s with context := made.perform s.context env }
  | incoming message env stray =>
    mqttMessageCallback numerals writes topicPrefix message env stray s
  | links modbusConnected mqttConnected =>
    { s with modbusConnected := modbusConnected, mqttConnected := mqttConnected }

/-- The bridge after an event; `turn.2` is what `mosquitto_publish` returns to the callbacks. -/
def CommandEvent.perform (s : CommandBridge) (turn : CommandEvent × (ℕ → PublishResult)) :
    CommandBridge :=
  let served := turn.1.serve writes numerals topicPrefix s.toWriteBridge
  CommandBridge.hear writes turn.2 (served.context.log.drop s.context.log.length) 0
    { s with toWriteBridge := served }

def commandRun (turns : List (CommandEvent × (ℕ → PublishResult))) (s : CommandBridge) :
    CommandBridge :=
  turns.foldl (CommandEvent.perform writes numerals topicPrefix) s

end

section

variable (numerals : Numerals)

/-- The values of a payload, as `mqtt_message_callback` reads them for an entry. -/
def payloadValues (write : AckedWrite) (payload : List UInt8) : Option (Option (List Double)) :=
  if write.channels ≠ [] then (mqttPayloadBlock numerals write.toWriteEntry payload).toOption
  else (mqttPayloadValue numerals write.toWriteEntry payload).toOption.map fun value => some [value]

/-- What `modbus_write_post` calls; a request that was not built leaves the slave id that was
set for it, as one that cannot be built does. -/
def postCalls (modbusConnected : Bool) (write : AckedWrite) (values : Option (List Double))
    (env : WriteEnv) : List (Call × Env) :=
  if ¬ modbusConnected then []
  else
    match writeRequest numerals.rounded numerals.single numerals.cast write.toWriteEntry values with
    | none => [(.post write.slave (.writeRegisters 0 0 fun _ => 0), sampleEnv)]
    | some request =>
      if ¬ env.queued then [(.post write.slave (.writeRegisters 0 0 fun _ => 0), sampleEnv)]
      else [(.post write.slave request, sampleEnv)]

def entryCalls (modbusConnected : Bool) (payload : List UInt8) (write : AckedWrite)
    (env : WriteEnv) : List (Call × Env) :=
  match payloadValues numerals write payload with
  | none => []
  | some values => postCalls numerals modbusConnected write values env

variable (writes : List AckedWrite) (topicPrefix : List UInt8)

def CommandEvent.calls (s : WriteBridge) : CommandEvent → List (Call × Env)
  | call made env => [(made, env)]
  | incoming message env stray =>
    if 1024 ≤ message.payload.length then []
    else
      let payload := message.payload.takeWhile (· ≠ 0)
      if message.topic = rawTopic topicPrefix [] then
        [(.raw (String.ofList (payload.map fun b => Char.ofNat b.toNat)) stray, sampleEnv)]
      else
        writes.zipIdx.flatMap fun turn =>
          if turn.1.acks.topic = some message.topic then
            entryCalls numerals s.modbusConnected payload turn.1 (env turn.2)
          else []
  | links _ _ => []

def commandCalls : List (CommandEvent × (ℕ → PublishResult)) → CommandBridge → List (Call × Env)
  | [], _ => []
  | turn :: turns, s =>
    turn.1.calls numerals writes topicPrefix s.toWriteBridge ++
      commandCalls turns (CommandEvent.perform writes numerals topicPrefix s turn)

end

section

variable {numerals : Numerals} {writes : List AckedWrite} {topicPrefix : List UInt8}

theorem postRequest_refused (c : Context) (slaveId : ℤ) :
    postRequest c slaveId (.writeRegisters 0 0 fun _ => 0) = setSlave c slaveId := by
  unfold postRequest
  have hrefused : Request.build c.transport slaveId (.writeRegisters 0 0 fun _ => 0) = none := by
    change frameWriteRegisters _ _ _ _ _ = none
    unfold frameWriteRegisters
    rw [if_pos (by decide)]
  rw [hrefused]

theorem modbusWritePost_context (s : WriteBridge) (w : ℕ) (write : AckedWrite)
    (values : Option (List Double)) (env : WriteEnv) :
    (modbusWritePost numerals s w write values env).context =
      run (postCalls numerals s.modbusConnected write values env) s.context := by
  unfold modbusWritePost postCalls
  by_cases hoffline : ¬ s.modbusConnected
  · rw [if_pos hoffline, if_pos hoffline]
    rfl
  · rw [if_neg hoffline, if_neg hoffline]
    dsimp only
    cases writeRequest numerals.rounded numerals.single numerals.cast write.toWriteEntry values with
    | none => exact (postRequest_refused s.context write.slave).symm
    | some request =>
      dsimp only
      by_cases hqueue : ¬ env.queued
      · rw [if_pos hqueue, if_pos hqueue]
        exact (postRequest_refused s.context write.slave).symm
      · rw [if_neg hqueue, if_neg hqueue]
        exact (accept_frame ..).2.1

theorem serveEntry_context (payload : List UInt8) (s : WriteBridge) (w : ℕ) (write : AckedWrite)
    (env : WriteEnv) :
    (serveEntry numerals payload s w write env).context =
      run (entryCalls numerals s.modbusConnected payload write env) s.context := by
  unfold serveEntry entryCalls payloadValues
  split_ifs
  · cases mqttPayloadBlock numerals write.toWriteEntry payload with
    | error why => rfl
    | ok values => exact modbusWritePost_context s w write values env
  · cases mqttPayloadValue numerals write.toWriteEntry payload with
    | error why => rfl
    | ok value => exact modbusWritePost_context s w write (some [value]) env

theorem Commanded.modbusConnected {s s' : WriteBridge} {w : ℕ} {write : AckedWrite} {env : WriteEnv}
    (h : Commanded numerals s w write env s') : s'.modbusConnected = s.modbusConnected := by
  cases h with
  | refused => rfl
  | accepted =>
    unfold WriteBridge.accept pendingWriteAdd
    dsimp only
    split_ifs <;> rfl

theorem serveTopic_context (topic payload : List UInt8) (env : ℕ → WriteEnv)
    (turns : List (AckedWrite × ℕ)) (s : WriteBridge) :
    (serveTopic numerals topic payload env turns s).context =
      run (turns.flatMap fun turn =>
        if turn.1.acks.topic = some topic then
          entryCalls numerals s.modbusConnected payload turn.1 (env turn.2)
        else []) s.context := by
  induction turns generalizing s with
  | nil => rfl
  | cons turn turns ih =>
    unfold serveTopic at ih ⊢
    rw [List.foldl_cons, ih, List.flatMap_cons, run_append]
    by_cases htopic : turn.1.acks.topic = some topic
    · have hcommanded : Commanded numerals s turn.2 turn.1 (env turn.2)
        (serveEntry numerals payload s turn.2 turn.1 (env turn.2)) := serveEntry_commanded payload
      rw [if_pos htopic, if_pos htopic, hcommanded.modbusConnected, serveEntry_context]
    · rw [if_neg htopic, if_neg htopic]
      rfl

theorem CommandEvent.serve_context (s : WriteBridge) (event : CommandEvent) :
    (event.serve writes numerals topicPrefix s).context =
      run (event.calls numerals writes topicPrefix s) s.context := by
  cases event with
  | call made env => rfl
  | incoming message env stray =>
    change (mqttMessageCallback numerals writes topicPrefix message env stray s).context = _
    unfold mqttMessageCallback CommandEvent.calls
    dsimp only
    split_ifs
    · rfl
    · rfl
    · exact serveTopic_context ..
  | links => rfl

theorem modbusmqMessageCallback_context (s : WriteBridge) (m : Msg) (rc : PublishResult) :
    (modbusmqMessageCallback writes s m rc).context = s.context := by
  unfold modbusmqMessageCallback
  rw [settlePending_context]
  rfl

theorem modbusmqErrorCallback_context (s : WriteBridge) (m : Msg) (error : ℤ) (rc : PublishResult) :
    (modbusmqErrorCallback writes s m error rc).context = s.context := by
  unfold modbusmqErrorCallback
  rw [settlePending_context]
  rfl

theorem rawReplyCallback_writes (s : CommandBridge) (rc : PublishResult) (reply : String) :
    (rawReplyCallback s rc reply).toWriteBridge = s.toWriteBridge := by
  unfold rawReplyCallback
  split_ifs <;> rfl

theorem CommandBridge.told_context (s : CommandBridge) (rc : PublishResult) (e : Event) :
    (s.told writes rc e).context = s.context := by
  cases e with
  | reported m report =>
    cases report with
    | message => exact modbusmqMessageCallback_context s.toWriteBridge m rc
    | error error => exact modbusmqErrorCallback_context s.toWriteBridge m error rc
    | raw line => exact congrArg WriteBridge.context (rawReplyCallback_writes s rc line)
  | refused line => exact congrArg WriteBridge.context (rawReplyCallback_writes s rc line)
  | _ => rfl

theorem CommandBridge.hear_context (rc : ℕ → PublishResult) (events : List Event) (i : ℕ)
    (s : CommandBridge) : (CommandBridge.hear writes rc events i s).context = s.context := by
  induction events generalizing i s with
  | nil => rfl
  | cons e events ih => exact (ih ..).trans (s.told_context ..)

theorem CommandEvent.perform_context (s : CommandBridge)
    (turn : CommandEvent × (ℕ → PublishResult)) :
    (CommandEvent.perform writes numerals topicPrefix s turn).context =
      run (turn.1.calls numerals writes topicPrefix s.toWriteBridge) s.context :=
  (CommandBridge.hear_context ..).trans (CommandEvent.serve_context ..)

theorem commandRun_context (turns : List (CommandEvent × (ℕ → PublishResult))) (s : CommandBridge) :
    (commandRun writes numerals topicPrefix turns s).context =
      run (commandCalls numerals writes topicPrefix turns s) s.context := by
  induction turns generalizing s with
  | nil => rfl
  | cons turn turns ih =>
    unfold commandRun at ih ⊢
    rw [List.foldl_cons, ih, CommandEvent.perform_context, ← run_append]
    rfl

end

end Modbusmq
