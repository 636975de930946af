import Mathlib.Data.UInt
import Modbusmq.Library.FirstLeast
import Modbusmq.Library.Machine
import Modbusmq.Server.Connection

/-!
# The clients of the virtual server

The table of connections of `modbusmq_server.c` and its `select` loop: a new client takes
a free slot, or that of the client that has been silent for longest, and every client is
served in the order of the slots, all on one context. What one client gets does not depend
on the others, and a client is dropped for another only if none has been silent for longer.
-/

namespace Modbusmq

/-- The fields of the one context that a turn changes for every client. -/
structure Shared where
  err : UInt32
  lastWriteMs : Millitime

/-- A slot of the table that is in use. Descriptors are numbered in the order of `accept`
here, so that no number stands for two clients. -/
structure Client where
  number : ℕ
  connection : Connection
  lastRxMs : Millitime

/-- `modbusmq_connections` and the context. `heard` is a ghost: the readings of the clock for
`last_rx_ms`, each with its client. -/
structure ClientTable where
  slots : List (Option Client)
  shared : Shared
  next : ℕ
  heard : List (ℕ × Millitime)

def emptyTable (connectionMax : ℕ) : ClientTable :=
  ⟨List.replicate connectionMax none, ⟨0, 0⟩, 0, []⟩

def slotRx (slots : List (Option Client)) (i : ℕ) : Millitime :=
  (slots.getD i none).elim 0 (·.lastRxMs)

/-- The slot a new client takes: the first free one, or the one silent for longest. -/
def acceptSlot (slots : List (Option Client)) : ℕ :=
  (slots.findIdx? (·.isNone)).getD (firstLeast (slotRx slots) slots.length)

def ClientTable.accept (s : ClientTable) (now : Millitime) : ClientTable :=
  { s with
    slots := s.slots.set (acceptSlot s.slots) (some ⟨s.next, acceptedClient, now⟩)
    next := s.next + 1
    heard := s.heard ++ [(s.next, now)] }

/-- What `select` and the operating system answer for one client. -/
structure Readiness where
  readable : Bool
  writable : Bool
  env : Env

/-- A context with the fields that are common to the clients. -/
def Context.sharing (c : Context) (shared : Shared) : Context :=
  { c with err := shared.err, lastWriteMs := shared.lastWriteMs }

def Connection.sharing (s : Connection) (shared : Shared) : Connection :=
  { s with ctx := s.ctx.sharing shared }

/-- Whether the read half of a turn gets bytes. -/
def Connection.hears (s : Connection) (ready : Readiness) : Bool :=
  s.ctx.connected ∧ ready.readable ∧ frameIncomplete s.ctx.transport s.msg.reader ≠ 0 ∧
    0 < (readFrame s.ctx s.msg.reader ready.env).rc

/-- What the turn of a slot leaves: the common fields, the slot, and what was heard. -/
structure ServedSlot where
  shared : Shared
  slot : Option Client
  heard : List (ℕ × Millitime)

/-- The turn of a client. The slot of a client that is gone is free. -/
def Client.serve (config : ServedConfig) (shared : Shared) (c : Client) (ready : Readiness) :
    ServedSlot :=
  let s := c.connection.sharing shared
  let s' := s.turn config ready.readable ready.writable ready.env
  let rx := if s.hears ready then ready.env.clock .now else c.lastRxMs
  { shared := ⟨s'.ctx.err, s'.ctx.lastWriteMs⟩
    slot := if s'.ctx.connected then some ⟨c.number, s', rx⟩ else none
    heard := if s.hears ready then [(c.number, rx)] else [] }

structure ServedSlots where
  shared : Shared
  slots : List (Option Client)
  heard : List (ℕ × Millitime)

def serveSlots (config : ServedConfig) (ready : ℕ → Readiness) :
    Shared → List (Option Client) → ServedSlots
  | shared, [] => ⟨shared, [], []⟩
  | shared, none :: slots =>
    let rest := serveSlots config ready shared slots
    { rest with slots := none :: rest.slots }
  | shared, some c :: slots =>
    let turned := c.serve config shared (ready c.number)
    let rest := serveSlots config ready turned.shared slots
    ⟨rest.shared, turned.slot :: rest.slots, turned.heard ++ rest.heard⟩

/-- A client sends bytes, or `select` returns, with a new client or without. The configuration
is the one whose values are served in this pass. -/
inductive TableEvent
  | arrive (number : ℕ) (bytes : List UInt8) (env : Env)
  | pass (config : ServedConfig) (accepts : Option Millitime) (ready : ℕ → Readiness)

/-- The descriptors that `select` was given, which a client accepted in this pass is not among. -/
def registered (next : ℕ) (ready : ℕ → Readiness) (number : ℕ) : Readiness :=
  if number < next then ready number else { ready number with readable := false, writable := false }

def Client.arrive (number : ℕ) (bytes : List UInt8) (env : Env) (c : Client) : Client :=
  if c.number = number then
    { c with connection := ServerAction.perform ⟨[], 0⟩ c.connection env (.arrive bytes) }
  else c

def ClientTable.perform (s : ClientTable) : TableEvent → ClientTable
  | .arrive number bytes env =>
    { s with slots := s.slots.map (Option.map (Client.arrive number bytes env)) }
  | .pass config accepts ready =>
    let before := accepts.elim s s.accept
    let served := serveSlots config (registered s.next ready) before.shared before.slots
    { before with
      slots := served.slots
      shared := served.shared
      heard := before.heard ++ served.heard }

abbrev ClientTable.run (events : List TableEvent) (s : ClientTable) : ClientTable :=
  Machine.run ClientTable.perform events s

/-- What an event is for client `number`: an action of its connection, served from the
configuration of that moment. -/
def TableEvent.own (number : ℕ) : TableEvent → Option (ServedConfig × ServerAction × Env)
  | arrive n bytes env => if n = number then some (⟨[], 0⟩, .arrive bytes, env) else none
  | pass config _ ready =>
    some (config, .turn (ready number).readable (ready number).writable, (ready number).env)

def Connection.alone (actions : List (ServedConfig × ServerAction × Env)) (s : Connection) :
    Connection :=
  Machine.run (fun s action => action.2.1.perform action.1 s action.2.2) actions s

def TableEvent.isAccept : TableEvent → Bool
  | pass _ (some _) _ => true
  | _ => false

/-- A client of the table is what it would be without the others, but for the common fields of
the context. Its number is that of the clients that were accepted before it. -/
def Isolated (events : List TableEvent) (c : Client) : Prop :=
  ∃ before config now ready after shared,
    events = before ++ .pass config (some now) ready :: after ∧
      before.countP TableEvent.isAccept = c.number ∧ c.connection =
        (acceptedClient.alone (after.filterMap (TableEvent.own c.number))).sharing shared

theorem tcpRefineLength_sharing (step : ReadStep) (shared : Shared) :
    tcpRefineLength { step with ctx := step.ctx.sharing shared } =
      { tcpRefineLength step with ctx := (tcpRefineLength step).ctx.sharing shared } := by
  unfold tcpRefineLength
  dsimp only
  split_ifs <;> rfl

theorem tcpReadSized_sharing (c : Context) (shared : Shared) (r : Frame .reader) (env : Env) :
    tcpReadSized (c.sharing shared) r env =
      { tcpReadSized c r env with ctx := (tcpReadSized c r env).ctx.sharing shared } := by
  have hgot : readResult (c.sharing shared) env = readResult c env := rfl
  unfold tcpReadSized
  split_ifs
  · rfl
  · rw [hgot]
    cases readResult c env with
    | data k => exact tcpRefineLength_sharing (readWindow c r env) shared
    | wouldBlock => rfl
    | error => rfl

theorem readFrame_sharing (c : Context) (shared : Shared) (r : Frame .reader) (env : Env) :
    readFrame (c.sharing shared) r env =
      { readFrame c r env with ctx := (readFrame c r env).ctx.sharing shared } := by
  have htransport : (c.sharing shared).transport = c.transport := rfl
  unfold readFrame
  rw [htransport]
  cases c.transport with
  | tcp => exact tcpReadSized_sharing ..
  | rtu => rfl

def Connection.afterRead (config : ServedConfig) (s : Connection) (got : ReadStep) :
    Connection × Bool :=
  let msg := { s.msg with reader := got.frame }
  if got.rc < 0 then ({ s with ctx := { got.ctx with err := got.ctx.err + 1 }, msg := msg }, false)
  else if got.rc = 0 then ({ s with ctx := { got.ctx with connected := false }, msg := msg }, true)
  else if msg.reader.xmit = msg.reader.length then
    ({ s with
      ctx := got.ctx
      msg := { msg with writer := filledResponse config msg.reader msg.writer } }, true)
  else ({ s with ctx := got.ctx, msg := msg }, true)

theorem readRequest_eq (config : ServedConfig) (s : Connection) (env : Env) :
    s.readRequest config env =
      if frameIncomplete s.ctx.transport s.msg.reader = 0 then (s, true)
      else s.afterRead config (readFrame s.ctx s.msg.reader env) := rfl

theorem afterRead_sharing (config : ServedConfig) (s : Connection) (shared : Shared)
    (got : ReadStep) :
    ∃ shared', (s.sharing shared).afterRead config { got with ctx := got.ctx.sharing shared } =
      ((s.afterRead config got).1.sharing shared', (s.afterRead config got).2) := by
  unfold Connection.afterRead
  dsimp only [Connection.sharing]
  split_ifs
  · exact ⟨⟨shared.err + 1, shared.lastWriteMs⟩, rfl⟩
  all_goals exact ⟨shared, rfl⟩

theorem readRequest_sharing (config : ServedConfig) (s : Connection) (shared : Shared) (env : Env) :
    ∃ shared', (s.sharing shared).readRequest config env =
      ((s.readRequest config env).1.sharing shared', (s.readRequest config env).2) := by
  rw [readRequest_eq, readRequest_eq]
  by_cases hwhole : frameIncomplete s.ctx.transport s.msg.reader = 0
  · rw [if_pos hwhole]
    exact ⟨shared, if_pos hwhole⟩
  · obtain ⟨shared', hafter⟩ := afterRead_sharing config s shared (readFrame s.ctx s.msg.reader env)
    rw [if_neg hwhole]
    refine ⟨shared', (if_neg hwhole).trans ?_⟩
    rw [← hafter, ← readFrame_sharing]
    rfl

def Connection.afterWrite (s : Connection) (put : WriteRead) (env : Env) : Connection :=
  if put.rc < 0 then
    { s with ctx := { put.ctx with err := put.ctx.err + 1, connected := false }, msg := put.msg }
  else { s with ctx := { put.ctx with lastWriteMs := env.clock .stamp }, msg := clearedMsg }

theorem writeResponse_eq (s : Connection) (env : Env) :
    s.writeResponse env =
      if frameIncomplete s.ctx.transport s.msg.writer = 0 then s
      else s.afterWrite (writeFrame s.ctx s.msg env) env := rfl

theorem writeFrame_sharing (c : Context) (shared : Shared) (m : Msg) (env : Env) :
    writeFrame (c.sharing shared) m env =
      { writeFrame c m env with ctx := (writeFrame c m env).ctx.sharing shared } := by
  by_cases hfailed : sendResult c env = .error
  · rw [writeFrame, writeFrame, if_pos hfailed]
    exact if_pos hfailed
  · rw [writeFrame, writeFrame, if_neg hfailed]
    exact if_neg hfailed

theorem afterWrite_sharing (s : Connection) (shared : Shared) (put : WriteRead) (env : Env) :
    ∃ shared', (s.sharing shared).afterWrite { put with ctx := put.ctx.sharing shared } env =
      (s.afterWrite put env).sharing shared' := by
  unfold Connection.afterWrite
  dsimp only [Connection.sharing]
  split_ifs
  · exact ⟨⟨shared.err + 1, shared.lastWriteMs⟩, rfl⟩
  · exact ⟨⟨shared.err, env.clock .stamp⟩, rfl⟩

theorem writeResponse_sharing (s : Connection) (shared : Shared) (env : Env) :
    ∃ shared', (s.sharing shared).writeResponse env = (s.writeResponse env).sharing shared' := by
  rw [writeResponse_eq, writeResponse_eq]
  by_cases hdone : frameIncomplete s.ctx.transport s.msg.writer = 0
  · rw [if_pos hdone]
    exact ⟨shared, if_pos hdone⟩
  · obtain ⟨shared', hafter⟩ := afterWrite_sharing s shared (writeFrame s.ctx s.msg env) env
    rw [if_neg hdone]
    refine ⟨shared', (if_neg hdone).trans ?_⟩
    rw [← hafter, ← writeFrame_sharing]
    rfl

/-- A turn does to a client what it would do on any other context. -/
theorem turn_sharing (config : ServedConfig) (s : Connection) (shared : Shared)
    (readable writable : Bool) (env : Env) :
    ∃ shared', (s.sharing shared).turn config readable writable env =
      (s.turn config readable writable env).sharing shared' := by
  by_cases hopen : s.ctx.connected
  · by_cases hwrites : writable ∧ s.wantsWrite
    · obtain ⟨shared', hwritten⟩ := writeResponse_sharing s shared env
      refine ⟨shared', ?_⟩
      rw [Connection.turn_writes hopen hwrites.1 hwrites.2, ← hwritten]
      exact Connection.turn_writes hopen hwrites.1 hwrites.2
    · have hturn' : (s.sharing shared).turn config readable writable env =
          if readable then ((s.sharing shared).readRequest config env).1 else s.sharing shared :=
        Connection.turn_not_writing hopen hwrites
      rw [Connection.turn_not_writing hopen hwrites, hturn']
      cases readable with
      | false => exact ⟨shared, rfl⟩
      | true =>
        obtain ⟨shared', hread⟩ := readRequest_sharing config s shared env
        exact ⟨shared', congrArg Prod.fst hread⟩
  · refine ⟨shared, (if_pos hopen).trans ?_⟩
    have hturn : s.turn config readable writable env = s := if_pos hopen
    rw [hturn]

theorem perform_sharing (config : ServedConfig) (s : Connection) (shared : Shared) (env : Env)
    (action : ServerAction) :
    ∃ shared', action.perform config (s.sharing shared) env =
      (action.perform config s env).sharing shared' := by
  cases action with
  | arrive bytes => exact ⟨shared, rfl⟩
  | turn readable writable => exact turn_sharing config s shared readable writable env

theorem Connection.turn_idle (config : ServedConfig) (s : Connection) (env : Env) :
    s.turn config false false env = s := by
  by_cases hopen : s.ctx.connected
  · exact Connection.turn_not_writing hopen fun hwrites => absurd hwrites.1 Bool.false_ne_true
  · exact if_pos hopen

theorem Connection.alone_append (actions : List (ServedConfig × ServerAction × Env))
    (action : ServedConfig × ServerAction × Env) (s : Connection) :
    s.alone (actions ++ [action]) = action.2.1.perform action.1 (s.alone actions) action.2.2 :=
  Machine.run_append

variable {s : ClientTable} {events : List TableEvent} {c c' : Client} {config : ServedConfig}
  {ready : ℕ → Readiness}

theorem Client.arrive_number (number : ℕ) (bytes : List UInt8) (env : Env) (c : Client) :
    (c.arrive number bytes env).number = c.number := by
  unfold Client.arrive
  split_ifs <;> rfl

/-- The clients in the table before the turns of a pass. -/
theorem mem_accepted {accepts : Option Millitime}
    (h : some c ∈ (accepts.elim s s.accept).slots) :
    some c ∈ s.slots ∨ ∃ now, accepts = some now ∧ c = ⟨s.next, acceptedClient, now⟩ := by
  cases accepts with
  | none => exact .inl h
  | some now =>
    rcases List.mem_or_eq_of_mem_set h with hold | hnew
    · exact .inl hold
    · exact .inr ⟨now, rfl, Option.some.inj hnew⟩

theorem accepted_next_le (accepts : Option Millitime) :
    s.next ≤ (accepts.elim s s.accept).next := by
  cases accepts with
  | none => exact le_rfl
  | some now => exact Nat.le_succ _

theorem Client.serve_slot {shared : Shared} {ready : Readiness}
    (h : (c.serve config shared ready).slot = some c') :
    c'.number = c.number ∧ ∃ shared', c'.connection =
      (c.connection.turn config ready.readable ready.writable ready.env).sharing shared' := by
  obtain ⟨shared', hturn⟩ := turn_sharing config c.connection shared ready.readable
    ready.writable ready.env
  by_cases hopen : ((c.connection.sharing shared).turn config ready.readable ready.writable
    ready.env).ctx.connected
  · obtain rfl := Option.some.inj ((if_pos hopen).symm.trans h)
    exact ⟨rfl, shared', hturn⟩
  · exact absurd ((if_neg hopen).symm.trans h) (by simp)

theorem mem_serveSlots {shared : Shared} {slots : List (Option Client)}
    (h : some c' ∈ (serveSlots config ready shared slots).slots) :
    ∃ c, some c ∈ slots ∧ c'.number = c.number ∧ ∃ shared', c'.connection =
      (c.connection.turn config (ready c.number).readable (ready c.number).writable
        (ready c.number).env).sharing shared' := by
  induction slots generalizing shared with
  | nil => exact absurd h (List.not_mem_nil)
  | cons slot slots ih =>
    cases slot with
    | none =>
      rcases List.mem_cons.1 h with hnone | hrest
      · exact absurd hnone (by simp)
      · obtain ⟨c, hc, hserved⟩ := ih hrest
        exact ⟨c, List.mem_cons_of_mem _ hc, hserved⟩
    | some c =>
      rcases List.mem_cons.1 h with hfirst | hrest
      · exact ⟨c, List.mem_cons_self, Client.serve_slot hfirst.symm⟩
      · obtain ⟨c, hc, hserved⟩ := ih hrest
        exact ⟨c, List.mem_cons_of_mem _ hc, hserved⟩

theorem mem_arrive {number : ℕ} {bytes : List UInt8} {env : Env}
    (h : some c' ∈ (s.perform (.arrive number bytes env)).slots) :
    ∃ c, some c ∈ s.slots ∧ c' = c.arrive number bytes env := by
  obtain ⟨slot, hslot, hmap⟩ := List.mem_map.1 h
  obtain ⟨c, rfl, harrive⟩ := Option.map_eq_some_iff.1 hmap
  exact ⟨c, hslot, harrive.symm⟩

/-- Numbers are given out once, and every client has its own connection so far. -/
structure Separate (events : List TableEvent) (s : ClientTable) : Prop where
  next : s.next = events.countP TableEvent.isAccept
  numbered : ∀ c, some c ∈ s.slots → c.number < s.next
  isolated : ∀ c, some c ∈ s.slots → Isolated events c

theorem Isolated.own (h : Isolated events c) {event : TableEvent}
    {action : ServedConfig × ServerAction × Env} {shared : Shared}
    (hown : event.own c.number = some action) (hnumber : c'.number = c.number)
    (hconnection : c'.connection =
      (action.2.1.perform action.1 c.connection action.2.2).sharing shared) :
    Isolated (events ++ [event]) c' := by
  obtain ⟨before, config, now, ready, after, shared', rfl, hcount, halone⟩ := h
  have hlast : [event].filterMap (TableEvent.own c.number) = [action] := by
    rw [List.filterMap_cons, hown, List.filterMap_nil]
  obtain ⟨shared'', hperform⟩ := perform_sharing action.1
    (acceptedClient.alone (after.filterMap (TableEvent.own c.number))) shared' action.2.2 action.2.1
  refine ⟨before, config, now, ready, after ++ [event], shared, by simp,
    hcount.trans hnumber.symm, ?_⟩
  rw [hconnection, hnumber, halone, hperform, List.filterMap_append, hlast,
    Connection.alone_append]
  rfl

theorem Isolated.other (h : Isolated events c) {event : TableEvent}
    (hown : event.own c.number = none) : Isolated (events ++ [event]) c := by
  obtain ⟨before, config, now, ready, after, shared, rfl, hcount, halone⟩ := h
  refine ⟨before, config, now, ready, after ++ [event], shared, by simp, hcount, ?_⟩
  rw [halone, List.filterMap_append, List.filterMap_cons, hown, List.filterMap_nil,
    List.append_nil]

theorem Separate.perform (h : Separate events s) (event : TableEvent) :
    Separate (events ++ [event]) (s.perform event) := by
  cases event with
  | arrive number bytes env =>
    refine ⟨?_, fun c' hc' => ?_, fun c' hc' => ?_⟩
    · rw [List.countP_append, ← h.next]
      rfl
    all_goals obtain ⟨c, hc, rfl⟩ := mem_arrive hc'
    · rw [Client.arrive_number]
      exact h.numbered c hc
    · by_cases hnumber : c.number = number
      · have hconnection : (c.arrive number bytes env).connection = (ServerAction.perform ⟨[], 0⟩
            c.connection env (.arrive bytes)).sharing
              ⟨c.connection.ctx.err, c.connection.ctx.lastWriteMs⟩ := by
          unfold Client.arrive
          rw [if_pos hnumber]
          rfl
        exact (h.isolated c hc).own (if_pos hnumber.symm) (Client.arrive_number ..) hconnection
      · have hsame : c.arrive number bytes env = c := if_neg hnumber
        rw [hsame]
        exact (h.isolated c hc).other (if_neg (Ne.symm hnumber))
  | pass config accepts ready =>
    refine ⟨?_, fun c' hc' => ?_, fun c' hc' => ?_⟩
    · rw [List.countP_append, ← h.next]
      cases accepts <;> rfl
    all_goals
      obtain ⟨c, hmem, hnumber, shared, hturn⟩ := mem_serveSlots hc'
      rcases mem_accepted hmem with hc | ⟨now, rfl, rfl⟩
    · rw [hnumber]
      exact (h.numbered c hc).trans_le (accepted_next_le accepts)
    · rw [hnumber]
      exact Nat.lt_succ_self _
    · have hready : registered s.next ready c.number = ready c.number :=
        if_pos (h.numbered c hc)
      rw [hready] at hturn
      exact (h.isolated c hc).own rfl hnumber hturn
    · -- the client that has just been accepted is not served in this pass
      have hready : registered s.next ready s.next =
        { ready s.next with readable := false, writable := false } := if_neg (Nat.lt_irrefl _)
      dsimp only at hturn
      rw [hready, Connection.turn_idle] at hturn
      exact ⟨events, config, now, ready, [], shared, rfl, h.next.symm.trans hnumber.symm, hturn⟩

theorem separate_run (connectionMax : ℕ) (events : List TableEvent) :
    Separate events ((emptyTable connectionMax).run events) := by
  induction events using List.reverseRecOn with
  | nil =>
    have hnone : ∀ c, some c ∉ (emptyTable connectionMax).slots := fun c hc =>
      absurd (List.eq_of_mem_replicate hc) (by simp)
    exact ⟨rfl, fun c hc => absurd hc (hnone c), fun c hc => absurd hc (hnone c)⟩
  | append_singleton events event ih =>
    have hlast : (emptyTable connectionMax).run (events ++ [event]) =
        ((emptyTable connectionMax).run events).perform event := Machine.run_append
    rw [hlast]
    exact ih.perform event

/-- Whatever the other clients do, a client that is connected has been served as if it were
alone, from the pass that accepted it on. -/
theorem clients_isolated (connectionMax : ℕ) (events : List TableEvent)
    (hconnected : some c ∈ ((emptyTable connectionMax).run events).slots) : Isolated events c :=
  (separate_run connectionMax events).isolated c hconnected

/-- A pass in which the first client is readable, or nobody is, and everybody is writable. -/
def examplePass (accepts : Option Millitime) (first : Bool) : TableEvent :=
  .pass ⟨[], 1⟩ accepts fun number =>
    ⟨first && number == 0, true, fun _ => 7, .accepted 2000, .data 12, 0⟩

/-- Two clients connect, and the first sends a request, which is read and answered. -/
def twoClients : List TableEvent :=
  [examplePass (some 5) false, examplePass (some 6) false, .arrive 0 readOneRegister oneByteEnv,
    examplePass none true, examplePass none true, examplePass none false]

theorem twoClients_first : ∃ c, some c ∈ ((emptyTable 2).run twoClients).slots ∧ c.number = 0 ∧
    c.connection.written ≠ [] := by
  have hfirst : (((emptyTable 2).run twoClients).slots.head?.join).any
      (fun c => c.number = 0 ∧ c.connection.written ≠ []) = true := by decide +kernel
  obtain ⟨c, hc, hfacts⟩ := (Option.any_eq_true ..).1 hfirst
  exact ⟨c, List.mem_of_mem_head? (Option.join_eq_some_iff.1 hc), of_decide_eq_true hfacts⟩

theorem clients_isolated_example : ∃ c, some c ∈ ((emptyTable 2).run twoClients).slots ∧
    c.connection.written ≠ [] ∧ Isolated twoClients c := by
  obtain ⟨c, hc, -, hwritten⟩ := twoClients_first
  exact ⟨c, hc, hwritten, clients_isolated 2 twoClients hc⟩

/-- `config` is served all along, and a write takes all of a response, unless it fails. -/
def TableEvent.Whole (config : ServedConfig) : TableEvent → Prop
  | arrive _ _ _ => True
  | pass config' _ ready => config' = config ∧ ∀ number,
      (ready number).env.sent = .error ∨ ∃ k ≥ frameMax, (ready number).env.sent = .accepted k

/-- The same of an action of one client. -/
def WholeAction (config : ServedConfig) : ServedConfig × ServerAction × Env → Prop
  | (_, .arrive _, _) => True
  | (config', .turn _ _, env) => config' = config ∧
      (env.sent = .error ∨ ∃ k ≥ frameMax, env.sent = .accepted k)

theorem TableEvent.Whole.own {event : TableEvent} (h : event.Whole config) {number : ℕ}
    {action : ServedConfig × ServerAction × Env} (hown : event.own number = some action) :
    WholeAction config action := by
  cases event with
  | arrive n bytes env =>
    obtain ⟨-, hsome⟩ := Option.ite_none_right_eq_some.1 hown
    obtain rfl := Option.some.inj hsome
    trivial
  | pass config' accepts ready =>
    obtain rfl := Option.some.inj hown
    exact ⟨h.1, h.2 number⟩

theorem serving_alone {actions : List (ServedConfig × ServerAction × Env)}
    (h : ∀ action ∈ actions, WholeAction config action) :
    ∃ done consumed held, Serving config (acceptedClient.alone actions) done consumed held := by
  refine (Machine.along_of_forall fun action hmem _ => h action hmem).keeps
    (I := fun s => ∃ done consumed held, Serving config s done consumed held) ?_
    ⟨_, _, _, serving_accepted config⟩
  rintro s ⟨config', action, env⟩ ⟨done, consumed, held, hserving⟩ hwhole
  cases action with
  | arrive bytes => exact ⟨_, _, _, hserving.arrive bytes env⟩
  | turn readable writable =>
    obtain ⟨rfl, hsent⟩ := hwhole
    refine hserving.perform fun _ _ _ _ => hsent.imp_right ?_
    rintro ⟨k, hk, hsent⟩
    exact ⟨k, hserving.phase.unsent.2.trans hk, hsent⟩

/-- Every client gets the responses to its own requests, whole, once and in order, whatever
the other clients send. -/
theorem clients_answered {connectionMax : ℕ} {events : List TableEvent}
    (hwhole : ∀ event ∈ events, event.Whole config)
    (hconnected : some c ∈ ((emptyTable connectionMax).run events).slots) :
    Answered config c.connection := by
  obtain ⟨before, _, _, _, after, shared, rfl, -, halone⟩ :=
    (separate_run connectionMax events).isolated c hconnected
  have hown : ∀ action ∈ after.filterMap (TableEvent.own c.number), WholeAction config action := by
    intro action haction
    obtain ⟨event, hevent, hown⟩ := List.mem_filterMap.1 haction
    exact (hwhole event (by simp [hevent])).own hown
  obtain ⟨_, _, _, hserving⟩ := serving_alone hown
  rw [halone]
  exact hserving.answered

theorem clients_answered_example : ∃ c, some c ∈ ((emptyTable 2).run twoClients).slots ∧
    c.connection.written ≠ [] ∧ Answered ⟨[], 1⟩ c.connection := by
  have hpass : ∀ accepts first, (examplePass accepts first).Whole ⟨[], 1⟩ :=
    fun _ _ => ⟨rfl, fun _ => .inr ⟨2000, by decide, rfl⟩⟩
  have hwhole : ∀ event ∈ twoClients, event.Whole ⟨[], 1⟩ :=
    List.forall_mem_cons.2 ⟨hpass _ _, List.forall_mem_cons.2 ⟨hpass _ _, List.forall_mem_cons.2
      ⟨trivial, List.forall_mem_cons.2 ⟨hpass _ _, List.forall_mem_cons.2
        ⟨hpass _ _, List.forall_mem_singleton.2 (hpass _ _)⟩⟩⟩⟩⟩
  obtain ⟨c, hc, -, hwritten⟩ := twoClients_first
  exact ⟨c, hc, hwritten, clients_answered hwhole hc⟩

def lastHeard (heard : List (ℕ × Millitime)) (number : ℕ) : Option Millitime :=
  ((heard.filter fun entry => entry.1 = number).getLast?).map Prod.snd

/-- No two slots hold a client of one number. -/
def Distinct (slots : List (Option Client)) : Prop :=
  slots.Pairwise fun slot slot' =>
    ∀ c c', slot = some c → slot' = some c' → c.number ≠ c'.number

/-- The table is full, and no client in it was last heard before `c`. -/
structure Idlest (s : ClientTable) (c : Client) : Prop where
  full : none ∉ s.slots
  idlest : ∀ c', some c' ∈ s.slots → ∃ t t', lastHeard s.heard c.number = some t ∧
    lastHeard s.heard c'.number = some t' ∧ t ≤ t'

structure Ordered (connectionMax : ℕ) (s : ClientTable) : Prop where
  length : s.slots.length = connectionMax
  distinct : Distinct s.slots
  numbered : ∀ c, some c ∈ s.slots → c.number < s.next
  known : ∀ entry ∈ s.heard, entry.1 < s.next
  heard : ∀ c, some c ∈ s.slots → lastHeard s.heard c.number = some c.lastRxMs

theorem lastHeard_append_of_other {heard heard' : List (ℕ × Millitime)} {number : ℕ}
    (h : ∀ entry ∈ heard', entry.1 ≠ number) :
    lastHeard (heard ++ heard') number = lastHeard heard number := by
  have hnone : heard'.filter (fun entry => entry.1 = number) = [] :=
    List.filter_eq_nil_iff.2 fun entry hentry => by simpa using h entry hentry
  rw [lastHeard, List.filter_append, hnone, List.append_nil]
  rfl

theorem lastHeard_append_last {heard heard' : List (ℕ × Millitime)} {number : ℕ} {t : Millitime}
    (h : lastHeard heard' number = some t) : lastHeard (heard ++ heard') number = some t := by
  unfold lastHeard at h ⊢
  obtain ⟨entry, hentry, rfl⟩ := Option.map_eq_some_iff.1 h
  rw [List.filter_append, List.getLast?_append, hentry]
  rfl

theorem serve_heard {shared : Shared} {ready : Readiness} :
    ∀ entry ∈ (c.serve config shared ready).heard, entry.1 = c.number := by
  unfold Client.serve
  dsimp only
  split_ifs
  · simp
  · simp

theorem serve_lastRxMs {shared : Shared} {ready : Readiness}
    (h : (c.serve config shared ready).slot = some c') :
    lastHeard (c.serve config shared ready).heard c.number = some c'.lastRxMs ∨
      (c.serve config shared ready).heard = [] ∧ c'.lastRxMs = c.lastRxMs := by
  have hopen : ((c.connection.sharing shared).turn config ready.readable ready.writable
      ready.env).ctx.connected := by
    by_contra hclosed
    exact absurd ((if_neg hclosed).symm.trans h) (by simp)
  obtain rfl := Option.some.inj ((if_pos hopen).symm.trans h)
  by_cases hhears : (c.connection.sharing shared).hears ready = true
  · left
    unfold Client.serve
    dsimp only
    rw [if_pos hhears, lastHeard, if_pos hhears]
    simp
  · right
    exact ⟨if_neg hhears, if_neg hhears⟩

theorem serveSlots_heard {shared : Shared} {slots : List (Option Client)} :
    ∀ entry ∈ (serveSlots config ready shared slots).heard,
      ∃ c, some c ∈ slots ∧ entry.1 = c.number := by
  induction slots generalizing shared with
  | nil => exact fun entry hentry => absurd hentry (List.not_mem_nil)
  | cons slot slots ih =>
    intro entry hentry
    cases slot with
    | none =>
      obtain ⟨c, hc, hnumber⟩ := ih entry hentry
      exact ⟨c, List.mem_cons_of_mem _ hc, hnumber⟩
    | some c =>
      rcases List.mem_append.1 hentry with hfirst | hrest
      · exact ⟨c, List.mem_cons_self, serve_heard entry hfirst⟩
      · obtain ⟨c, hc, hnumber⟩ := ih entry hrest
        exact ⟨c, List.mem_cons_of_mem _ hc, hnumber⟩

theorem serveSlots_lastRxMs {shared : Shared} {slots : List (Option Client)}
    (hdistinct : Distinct slots) (h : some c' ∈ (serveSlots config ready shared slots).slots) :
    ∃ c, some c ∈ slots ∧ c'.number = c.number ∧ ∀ heard,
      lastHeard heard c.number = some c.lastRxMs →
        lastHeard (heard ++ (serveSlots config ready shared slots).heard) c.number =
          some c'.lastRxMs := by
  induction slots generalizing shared with
  | nil => exact absurd h (List.not_mem_nil)
  | cons slot slots ih =>
    obtain ⟨hfirst, hrest⟩ := List.pairwise_cons.1 hdistinct
    cases slot with
    | none =>
      rcases List.mem_cons.1 h with hnone | hmem
      · exact absurd hnone (by simp)
      · obtain ⟨c, hc, hserved⟩ := ih hrest hmem
        exact ⟨c, List.mem_cons_of_mem _ hc, hserved⟩
    | some c =>
      set turned := c.serve config shared (ready c.number) with hturned
      have hheard : (serveSlots config ready shared (some c :: slots)).heard =
          turned.heard ++ (serveSlots config ready turned.shared slots).heard := rfl
      rcases List.mem_cons.1 h with hslot | hmem
      · obtain ⟨hnumber, -⟩ := Client.serve_slot hslot.symm
        refine ⟨c, List.mem_cons_self, hnumber, fun heard hlast => ?_⟩
        have hothers : ∀ entry ∈ (serveSlots config ready turned.shared slots).heard,
            entry.1 ≠ c.number := by
          intro entry hentry
          obtain ⟨d, hd, hentryNumber⟩ := serveSlots_heard entry hentry
          rw [hentryNumber]
          exact (hfirst (some d) hd c d rfl rfl).symm
        rw [hheard, ← List.append_assoc, lastHeard_append_of_other hothers]
        rcases serve_lastRxMs hslot.symm with hnow | ⟨hsilent, hsame⟩
        · exact lastHeard_append_last hnow
        · rw [hturned, hsilent, List.append_nil, hsame]
          exact hlast
      · obtain ⟨d, hd, hnumber, hlasts⟩ := ih hrest hmem
        refine ⟨d, List.mem_cons_of_mem _ hd, hnumber, fun heard hlast => ?_⟩
        have hother : ∀ entry ∈ turned.heard, entry.1 ≠ d.number := by
          intro entry hentry
          rw [serve_heard entry hentry]
          exact hfirst (some d) hd c d rfl rfl
        rw [hheard, ← List.append_assoc]
        exact hlasts _ ((lastHeard_append_of_other hother).trans hlast)

theorem serveSlots_distinct {shared : Shared} {slots : List (Option Client)}
    (h : Distinct slots) : Distinct (serveSlots config ready shared slots).slots := by
  induction slots generalizing shared with
  | nil => exact List.Pairwise.nil
  | cons slot slots ih =>
    obtain ⟨hfirst, hrest⟩ := List.pairwise_cons.1 h
    cases slot with
    | none => exact List.pairwise_cons.2 ⟨fun _ _ c _ hc => absurd hc (by simp), ih hrest⟩
    | some c =>
      refine List.pairwise_cons.2 ⟨fun slot' hslot' d d' hd hd' => ?_, ih hrest⟩
      subst hd'
      obtain ⟨hnumber, -⟩ := Client.serve_slot hd
      obtain ⟨e, he, hnumber', -⟩ := mem_serveSlots hslot'
      rw [hnumber, hnumber']
      exact hfirst (some e) he c e rfl rfl

theorem serveSlots_length {shared : Shared} {slots : List (Option Client)} :
    (serveSlots config ready shared slots).slots.length = slots.length := by
  induction slots generalizing shared with
  | nil => rfl
  | cons slot slots ih =>
    cases slot with
    | none => exact congrArg (· + 1) ih
    | some c => exact congrArg (· + 1) ih

theorem serveSlots_keeps {shared : Shared} {slots : List (Option Client)} (h : some c ∈ slots)
    (hopen : (c.connection.turn config (ready c.number).readable (ready c.number).writable
      (ready c.number).env).ctx.connected) :
    ∃ c', some c' ∈ (serveSlots config ready shared slots).slots ∧ c'.number = c.number := by
  induction slots generalizing shared with
  | nil => exact absurd h (List.not_mem_nil)
  | cons slot slots ih =>
    rcases List.mem_cons.1 h with rfl | hrest
    · obtain ⟨shared', hturn⟩ := turn_sharing config c.connection shared (ready c.number).readable
        (ready c.number).writable (ready c.number).env
      have hconnected : ((c.connection.sharing shared).turn config (ready c.number).readable
          (ready c.number).writable (ready c.number).env).ctx.connected := by
        rw [hturn]
        exact hopen
      exact ⟨_, List.mem_cons.2 (.inl (if_pos hconnected).symm), rfl⟩
    · cases slot with
      | none =>
        obtain ⟨c', hc', hnumber⟩ := ih hrest
        exact ⟨c', List.mem_cons_of_mem _ hc', hnumber⟩
      | some d =>
        obtain ⟨c', hc', hnumber⟩ := ih hrest
        exact ⟨c', List.mem_cons_of_mem _ hc', hnumber⟩

theorem distinct_set {slots : List (Option Client)} {i : ℕ} (h : Distinct slots)
    (hfresh : ∀ d, some d ∈ slots → d.number ≠ c.number) : Distinct (slots.set i (some c)) := by
  induction slots generalizing i with
  | nil => exact h
  | cons slot slots ih =>
    obtain ⟨hfirst, hrest⟩ := List.pairwise_cons.1 h
    have hfreshRest : ∀ d, some d ∈ slots → d.number ≠ c.number :=
      fun d hd => hfresh d (List.mem_cons_of_mem _ hd)
    cases i with
    | zero =>
      refine List.pairwise_cons.2 ⟨fun slot' hslot' d d' hd hd' => ?_, hrest⟩
      subst hd'
      obtain rfl := Option.some.inj hd
      exact (hfreshRest d' hslot').symm
    | succ i =>
      refine List.pairwise_cons.2 ⟨fun slot' hslot' => ?_, ih hrest hfreshRest⟩
      rcases List.mem_or_eq_of_mem_set hslot' with hold | rfl
      · exact hfirst slot' hold
      · rintro d d' rfl hd'
        obtain rfl := Option.some.inj hd'
        exact hfresh d List.mem_cons_self

variable {connectionMax : ℕ}

theorem Ordered.accept (h : Ordered connectionMax s) (now : Millitime) :
    Ordered connectionMax (s.accept now) where
  length := (List.length_set ..).trans h.length
  distinct := distinct_set h.distinct fun d hd => (h.numbered d hd).ne
  numbered c hc := by
    rcases List.mem_or_eq_of_mem_set hc with hold | hnew
    · exact (h.numbered c hold).trans (Nat.lt_succ_self _)
    · obtain rfl := Option.some.inj hnew
      exact Nat.lt_succ_self _
  known entry hentry := by
    rcases List.mem_append.1 hentry with hold | hnew
    · exact (h.known entry hold).trans (Nat.lt_succ_self _)
    · rw [List.mem_singleton.1 hnew]
      exact Nat.lt_succ_self _
  heard c hc := by
    change lastHeard (s.heard ++ [(s.next, now)]) c.number = _
    rcases List.mem_or_eq_of_mem_set hc with hold | hnew
    · have hother : ∀ entry ∈ [(s.next, now)], entry.1 ≠ c.number := by
        intro entry hentry
        rw [List.mem_singleton.1 hentry]
        exact (h.numbered c hold).ne'
      rw [lastHeard_append_of_other hother, h.heard c hold]
    · obtain rfl := Option.some.inj hnew
      exact lastHeard_append_last (by simp [lastHeard])

theorem Ordered.serve (h : Ordered connectionMax s) (config : ServedConfig)
    (ready : ℕ → Readiness) :
    Ordered connectionMax { s with
      slots := (serveSlots config ready s.shared s.slots).slots
      shared := (serveSlots config ready s.shared s.slots).shared
      heard := s.heard ++ (serveSlots config ready s.shared s.slots).heard } where
  length := serveSlots_length.trans h.length
  distinct := serveSlots_distinct h.distinct
  numbered c' hc' := by
    obtain ⟨c, hc, hnumber, -⟩ := mem_serveSlots hc'
    rw [hnumber]
    exact h.numbered c hc
  known entry hentry := by
    rcases List.mem_append.1 hentry with hold | hnew
    · exact h.known entry hold
    · obtain ⟨c, hc, hnumber⟩ := serveSlots_heard entry hnew
      rw [hnumber]
      exact h.numbered c hc
  heard c' hc' := by
    obtain ⟨c, hc, hnumber, hlast⟩ := serveSlots_lastRxMs h.distinct hc'
    rw [hnumber]
    exact hlast s.heard (h.heard c hc)

theorem Ordered.arrive (h : Ordered connectionMax s) (number : ℕ) (bytes : List UInt8) (env : Env) :
    Ordered connectionMax (s.perform (.arrive number bytes env)) where
  length := (List.length_map ..).trans h.length
  distinct := by
    refine List.pairwise_map.2 (h.distinct.imp fun {slot slot'} hne c c' hc hc' => ?_)
    obtain ⟨d, rfl, rfl⟩ := Option.map_eq_some_iff.1 hc
    obtain ⟨d', rfl, rfl⟩ := Option.map_eq_some_iff.1 hc'
    rw [Client.arrive_number, Client.arrive_number]
    exact hne d d' rfl rfl
  numbered c' hc' := by
    obtain ⟨c, hc, rfl⟩ := mem_arrive hc'
    rw [Client.arrive_number]
    exact h.numbered c hc
  known := h.known
  heard c' hc' := by
    obtain ⟨c, hc, rfl⟩ := mem_arrive hc'
    have hrx : (c.arrive number bytes env).lastRxMs = c.lastRxMs := by
      unfold Client.arrive
      split_ifs <;> rfl
    rw [Client.arrive_number, hrx]
    exact h.heard c hc

theorem Ordered.perform (h : Ordered connectionMax s) (event : TableEvent) :
    Ordered connectionMax (s.perform event) := by
  cases event with
  | arrive number bytes env => exact h.arrive number bytes env
  | pass config accepts ready =>
    cases accepts with
    | none => exact h.serve config (registered s.next ready)
    | some now => exact (h.accept now).serve config (registered s.next ready)

theorem ordered_run (connectionMax : ℕ) (events : List TableEvent) :
    Ordered connectionMax ((emptyTable connectionMax).run events) := by
  refine Machine.run_keeps (fun s event hs => Ordered.perform hs event) ?_
  have hnone : ∀ slot ∈ (emptyTable connectionMax).slots, slot = none :=
    fun slot hslot => List.eq_of_mem_replicate hslot
  refine ⟨List.length_replicate, ?_, fun c hc => ?_, fun entry hentry => ?_, fun c hc => ?_⟩
  · exact List.pairwise_replicate.2 (.inr fun c c' hc => absurd hc (by simp))
  · exact absurd (hnone _ hc) (by simp)
  · exact absurd hentry List.not_mem_nil
  · exact absurd (hnone _ hc) (by simp)

theorem slotRx_eq {slots : List (Option Client)} {i : ℕ} (h : slots[i]? = some (some c)) :
    slotRx slots i = c.lastRxMs := by
  rw [slotRx, List.getD_eq_getElem?_getD, h]
  rfl

/-- A full table gives a new client the first slot whose reading is least. -/
theorem acceptSlot_full {slots : List (Option Client)} (hfull : none ∉ slots) :
    acceptSlot slots = firstLeast (slotRx slots) slots.length := by
  have hnone : slots.findIdx? (·.isNone) = none := by
    refine List.findIdx?_eq_none_iff.2 fun slot hslot => ?_
    cases slot with
    | none => exact absurd hslot hfull
    | some c => rfl
  rw [acceptSlot, hnone]
  rfl

theorem acceptSlot_free {slots : List (Option Client)} (hfree : none ∈ slots) :
    slots[acceptSlot slots]? = some none := by
  cases hfound : slots.findIdx? (·.isNone) with
  | none =>
    have := List.findIdx?_eq_none_iff.1 hfound none hfree
    exact absurd this (by simp)
  | some i =>
    obtain ⟨hi, hslot, -⟩ := List.findIdx?_eq_some_iff_getElem.1 hfound
    rw [acceptSlot, hfound, Option.getD_some, List.getElem?_eq_getElem hi,
      Option.isNone_iff_eq_none.1 hslot]

theorem acceptSlot_lt {slots : List (Option Client)} (hslots : 0 < slots.length) :
    acceptSlot slots < slots.length := by
  by_cases hfree : none ∈ slots
  · exact (List.getElem?_eq_some_iff.1 (acceptSlot_free hfree)).1
  · rw [acceptSlot_full hfree, FirstLeast.firstLeast_comp (fun a b => UInt64.lt_iff_toNat_lt)]
    exact (FirstLeast.firstLeast_found hslots).inside

/-- Who loses its slot to a new client is the idlest of a full table. -/
theorem Ordered.idlest (h : Ordered connectionMax s)
    (hslot : s.slots[acceptSlot s.slots]? = some (some c)) : Idlest s c := by
  have hfull : none ∉ s.slots := by
    intro hfree
    rw [acceptSlot_free hfree] at hslot
    exact absurd (Option.some.inj hslot) (by simp)
  obtain ⟨hlt, -⟩ := List.getElem?_eq_some_iff.1 hslot
  have hc := List.mem_of_getElem? hslot
  refine ⟨hfull, fun c' hc' => ⟨c.lastRxMs, c'.lastRxMs, h.heard c hc, h.heard c' hc', ?_⟩⟩
  obtain ⟨i, hi⟩ := List.mem_iff_getElem?.1 hc'
  obtain ⟨hilt, -⟩ := List.getElem?_eq_some_iff.1 hi
  have hmeasure := FirstLeast.firstLeast_comp (m := UInt64.toNat)
    (fun a b => UInt64.lt_iff_toNat_lt) (slotRx s.slots) s.slots.length
  have hleast := (FirstLeast.firstLeast_found (f := UInt64.toNat ∘ slotRx s.slots)
    (hlt.trans_le' (Nat.zero_le _))).least i hilt
  rw [acceptSlot_full hfull, hmeasure] at hslot
  rw [Function.comp_apply, Function.comp_apply, slotRx_eq hslot, slotRx_eq hi] at hleast
  exact UInt64.le_iff_toNat_le.2 hleast

/-- A client keeps its slot when a new one comes, unless it is the idlest of a full table. -/
theorem Ordered.accept_keeps (h : Ordered connectionMax s) (hc : some c ∈ s.slots)
    (now : Millitime) : some c ∈ (s.accept now).slots ∨ Idlest s c := by
  obtain ⟨i, hi⟩ := List.mem_iff_getElem?.1 hc
  by_cases hslot : acceptSlot s.slots = i
  · subst hslot
    exact .inr (h.idlest hi)
  · refine .inl (List.mem_of_getElem? (i := i) ?_)
    change (s.slots.set _ _)[i]? = _
    rw [List.getElem?_set_ne hslot, hi]

/-- Client `c` is in the table. -/
def Seated (s : ClientTable) (number : ℕ) : Prop := ∃ c, some c ∈ s.slots ∧ c.number = number

/-- The turn that an event is for `c` closes its connection. -/
def Closes (event : TableEvent) (c : Client) : Prop :=
  ∃ action, event.own c.number = some action ∧
    ¬ (action.2.1.perform action.1 c.connection action.2.2).ctx.connected

def TableEvent.Accepts (event : TableEvent) : Prop :=
  ∃ config now ready, event = .pass config (some now) ready

theorem Ordered.pass_keeps (h : Ordered connectionMax s) {accepts : Option Millitime}
    (hc : some c ∈ s.slots) (hkept : some c ∈ (accepts.elim s s.accept).slots) :
    Seated (s.perform (.pass config accepts ready)) c.number ∨
      Closes (.pass config accepts ready) c := by
  have hready : registered s.next ready c.number = ready c.number := if_pos (h.numbered c hc)
  by_cases hopen : (c.connection.turn config (ready c.number).readable (ready c.number).writable
    (ready c.number).env).ctx.connected
  · refine .inl (serveSlots_keeps hkept ?_)
    rw [hready]
    exact hopen
  · exact .inr ⟨_, rfl, hopen⟩

/-- A client leaves the table when its own turn closes its connection, or for a new client
when the table is full and no other client has been silent for longer; and a new client
always gets a slot. -/
theorem clients_turnover (hmax : 0 < connectionMax) (events : List TableEvent)
    (event : TableEvent) :
    (∀ c, some c ∈ ((emptyTable connectionMax).run events).slots →
      Seated ((emptyTable connectionMax).run (events ++ [event])) c.number ∨ Closes event c ∨
        event.Accepts ∧ Idlest ((emptyTable connectionMax).run events) c) ∧
    (event.Accepts → Seated ((emptyTable connectionMax).run (events ++ [event]))
      ((emptyTable connectionMax).run events).next) := by
  have hordered := ordered_run connectionMax events
  have hlast : (emptyTable connectionMax).run (events ++ [event]) =
      ((emptyTable connectionMax).run events).perform event := Machine.run_append
  rw [hlast]
  generalize (emptyTable connectionMax).run events = s at hordered ⊢
  refine ⟨fun c hc => ?_, ?_⟩
  · cases event with
    | arrive number bytes env =>
      exact .inl ⟨_, List.mem_map_of_mem hc, Client.arrive_number ..⟩
    | pass config accepts ready =>
      cases accepts with
      | none =>
        have hkept : some c ∈ (Option.elim none s s.accept).slots := hc
        exact (hordered.pass_keeps hc hkept).imp_right .inl
      | some now =>
        rcases hordered.accept_keeps hc now with hkept | hidlest
        · have hkept : some c ∈ (Option.elim (some now) s s.accept).slots := hkept
          exact (hordered.pass_keeps hc hkept).imp_right .inl
        · exact .inr (.inr ⟨⟨config, now, ready, rfl⟩, hidlest⟩)
  · rintro ⟨config, now, ready, rfl⟩
    have hslot : acceptSlot s.slots < s.slots.length :=
      acceptSlot_lt (by rw [hordered.length]; exact hmax)
    have hnew : some ⟨s.next, acceptedClient, now⟩ ∈ (s.accept now).slots :=
      List.mem_set hslot _
    have hready : registered s.next ready s.next =
      { ready s.next with readable := false, writable := false } := if_neg (Nat.lt_irrefl _)
    refine serveSlots_keeps hnew ?_
    dsimp only
    rw [hready, Connection.turn_idle]
    rfl

theorem clients_turnover_example :
    Seated ((emptyTable 2).run (twoClients ++ [examplePass (some 8) false])) 2 :=
  (clients_turnover (by decide) twoClients (examplePass (some 8) false)).2 ⟨_, _, _, rfl⟩

end Modbusmq
