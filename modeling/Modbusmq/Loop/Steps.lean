import Modbusmq.Core.RawRequests
import Modbusmq.Loop.Polling
import Modbusmq.Reading.Outstanding

/-!
# What the library does to its queue

Every call of the library is a sequence of four kinds of steps: bookkeeping
that leaves the queue alone, a request that enters it, a head that is served
and stays, and a head that leaves. The results about whole runs are about these
steps; the modules before this one are not looked into again.
-/

namespace Modbusmq

/-- Events that are not about one request. -/
def Event.Silent : Event → Prop
  | read _ _ | flushed | refused _ | delivered _ _ | connected => True
  | posted _ _ | wrote _ _ _ _ | reported _ _ | released _ _ => False

def Event.bytes : Event → List UInt8
  | wrote _ w count _ => (List.range count).map fun i => w.buf (w.xmit + i)
  | _ => []

def bytesWritten (log : List Event) : List UInt8 := log.flatMap Event.bytes

@[simp] theorem bytesWritten_append (l₁ l₂ : List Event) :
    bytesWritten (l₁ ++ l₂) = bytesWritten l₁ ++ bytesWritten l₂ :=
  List.flatMap_append

theorem Event.Silent.bytes {e : Event} (h : e.Silent) : e.bytes = [] := by
  cases e <;> first | rfl | exact absurd h id

theorem bytesWritten_silent {δ : List Event} (h : ∀ e ∈ δ, e.Silent) : bytesWritten δ = [] :=
  List.flatMap_eq_nil_iff.2 fun e he => (h e he).bytes

/-- The message a subscription posts: a request some builder accepted. -/
def Template (t : Transport) (timer : Timer) : Prop :=
  timer.msg.reader = Frame.zero .reader ∧
    ∃ (slaveId : ℤ) (request : Request), request.build t slaveId = some timer.msg.writer

/-- Every subscription has one. -/
def Templates (c : Context) : Prop := ∀ timer ∈ c.timers, Template c.transport timer

/-- What no step ever changes. -/
structure SameSetup (c c' : Context) : Prop where
  transport : c'.transport = c.transport
  messageCb : c'.messageCb = c.messageCb
  errorCb : c'.errorCb = c.errorCb
  templates : Templates c → Templates c'

/-- Bookkeeping: nothing happens to a request, and a drain that is pending stays pending. -/
structure Quiet (c c' : Context) : Prop extends SameSetup c c' where
  queue : c'.queue = c.queue
  serialNext : c'.serialNext = c.serialNext
  resync : c.resyncPending → c'.resyncPending
  log : ∃ δ, c'.log = c.log ++ δ ∧ ∀ e ∈ δ, e.Silent

/-- What one step wrote: nothing, or what one `send()` took. -/
def Sent (m : Msg) (n : ℕ) (sent : List Event) : Prop :=
  sent = [] ∧ n = 0 ∨ ∃ unread, sent = [.wrote m.serial m.writer n unread]

/-- A pending drain stays pending and no first byte is tried, or it is done right before the
first byte; then, if `G`, nothing is left to read and a byte is taken. -/
def DrainKept (G : Prop) (c c' : Context) (m : Msg) (quiet sent : List Event) : Prop :=
  (c.resyncPending → c'.resyncPending ∧ (m.writer.xmit = 0 → sent = [])) ∨
    m.writer.xmit = 0 ∧ .flushed ∈ quiet ∧
      (G → ∃ n, 0 < n ∧ sent = [.wrote m.serial m.writer n 0])

/-- What `modbusmq_handle_write_read` does to the context and the message, whatever it
returns: the bytes it wrote are the next bytes of this request. -/
structure Served (G : Prop) (c : Context) (m : Msg) (s : WriteRead) : Prop
    extends SameSetup c s.ctx where
  serialNext : s.ctx.serialNext = c.serialNext
  queue : s.ctx.queue = c.queue
  serial : s.msg.serial = m.serial
  moved : ∃ (quiet sent : List Event) (n : ℕ), s.ctx.log = c.log ++ quiet ++ sent ∧
    (∀ e ∈ quiet, e.Silent) ∧ Sent m n sent ∧
    s.msg.writer = { m.writer with xmit := m.writer.xmit + n } ∧
    m.writer.xmit + n ≤ m.writer.length ∧ DrainKept G c s.ctx m quiet sent

/-- What the application is told about a request that leaves the queue: one report, or
none when it was a poll or the callback is not set. -/
def Told (c : Context) (flags : Flags) (m : Msg) (told : List Event) : Prop :=
  (∃ report, told = [.reported m report]) ∨
    (∀ e ∈ told, e.Silent) ∧ (flags = .post → c.messageCb → ¬ c.errorCb)

/-- One step of the queue. `P` is what is known of a request when it has left: the message,
the error and whether a drain is pending; `G` is what is known of the drains. -/
inductive QueueStep (P : Msg → ℤ → Bool → Prop) (G : Prop) (c : Context) : Context → Prop
  | quiet {c' : Context} (h : Quiet c c') : QueueStep P G c c'
  | enter {m : Msg} {flags : Flags} (hreader : m.reader = Frame.zero .reader)
      {slaveId : ℤ} {request : Request}
      (hbuild : request.build c.transport slaveId = some m.writer) :
      QueueStep P G c (postInternal c m flags)
  | stay {wrapper : Wrapper} {rest : List Wrapper} (hq : c.queue = wrapper :: rest)
      {s : WriteRead} (hs : Served G c wrapper.msg s) (since : Millitime)
      (hm : Outstanding c.transport wrapper.msg → Outstanding c.transport s.msg) :
      QueueStep P G c { s.ctx with
        queue := { wrapper with headSinceMs := since, msg := s.msg } :: rest }
  | leave {wrapper : Wrapper} {rest : List Wrapper} (hq : c.queue = wrapper :: rest)
      {s : WriteRead} (hs : Served G c wrapper.msg s) {m : Msg} (hw : m.writer = s.msg.writer)
      (hserial : m.serial = s.msg.serial) {c' : Context} (hsetup : SameSetup s.ctx c')
      (hrest : c'.queue = rest) (hnext : c'.serialNext = c.serialNext)
      (hresync : s.ctx.resyncPending → c'.resyncPending) {error : ℤ}
      (hP : P m error c'.resyncPending)
      (hlog : ∃ quiet told after,
        c'.log = s.ctx.log ++ quiet ++ told ++ [.released m error] ++ after ∧
          (∀ e ∈ quiet, e.Silent) ∧ Told c wrapper.flags m told ∧ ∀ e ∈ after, e.Silent) :
      QueueStep P G c c'

abbrev QueueSteps (P : Msg → ℤ → Bool → Prop) (G : Prop) : Context → Context → Prop :=
  Relation.ReflTransGen (QueueStep P G)

theorem SameSetup.refl (c : Context) : SameSetup c c := ⟨rfl, rfl, rfl, id⟩

theorem SameSetup.trans {c₁ c₂ c₃ : Context} (h : SameSetup c₁ c₂) (h' : SameSetup c₂ c₃) :
    SameSetup c₁ c₃ :=
  ⟨h'.transport.trans h.transport, h'.messageCb.trans h.messageCb, h'.errorCb.trans h.errorCb,
    h'.templates ∘ h.templates⟩

theorem Quiet.bookkeeping {c c' : Context} (ht : c'.transport = c.transport)
    (hm : c'.messageCb = c.messageCb) (he : c'.errorCb = c.errorCb)
    (htimers : c'.timers = c.timers) (hq : c'.queue = c.queue)
    (hs : c'.serialNext = c.serialNext) (hl : c'.log = c.log)
    (hr : c.resyncPending → c'.resyncPending) : Quiet c c' where
  transport := ht
  messageCb := hm
  errorCb := he
  templates := fun h timer htimer => by
    rw [ht]
    exact h timer (htimers ▸ htimer)
  queue := hq
  serialNext := hs
  resync := hr
  log := ⟨[], by rw [hl, List.append_nil], by simp⟩

theorem Quiet.refl (c : Context) : Quiet c c := .bookkeeping rfl rfl rfl rfl rfl rfl rfl id

theorem Quiet.trans {c₁ c₂ c₃ : Context} (h : Quiet c₁ c₂) (h' : Quiet c₂ c₃) : Quiet c₁ c₃ := by
  obtain ⟨δ, hlog, hδ⟩ := h.log
  obtain ⟨δ', hlog', hδ'⟩ := h'.log
  refine ⟨h.toSameSetup.trans h'.toSameSetup, h'.queue.trans h.queue,
    h'.serialNext.trans h.serialNext, h'.resync ∘ h.resync, δ ++ δ', ?_, ?_⟩
  · rw [hlog', hlog, List.append_assoc]
  · intro e he
    rcases List.mem_append.1 he with he | he
    · exact hδ e he
    · exact hδ' e he

theorem Quiet.step {P : Msg → ℤ → Bool → Prop} {G : Prop} {c c' : Context} (h : Quiet c c') :
    QueueSteps P G c c' :=
  .single (.quiet h)

theorem Templates.of_timers {c c' : Context} (ht : c'.transport = c.transport)
    (h : ∀ t' ∈ c'.timers, ∃ t ∈ c.timers,
      t'.msg.writer = t.msg.writer ∧ t'.msg.reader = t.msg.reader)
    (hc : Templates c) : Templates c' := by
  intro t' ht'
  obtain ⟨t, hmem, hw, hr⟩ := h t' ht'
  obtain ⟨hreader, slaveId, request, hbuild⟩ := hc t hmem
  refine ⟨hr.trans hreader, slaveId, request, ?_⟩
  rw [ht, hw]
  exact hbuild

theorem quiet_map_timers (c : Context) (f : Timer → Timer)
    (h : ∀ t, (f t).msg = t.msg) :
    Quiet c { c with timers := c.timers.map f } where
  transport := rfl
  messageCb := rfl
  errorCb := rfl
  templates := Templates.of_timers rfl fun t' ht' => by
    obtain ⟨t, hmem, rfl⟩ := List.mem_map.1 ht'
    exact ⟨t, hmem, by rw [h t], by rw [h t]⟩
  queue := rfl
  serialNext := rfl
  resync := id
  log := ⟨[], (List.append_nil _).symm, by simp⟩

theorem slaveUpdate_quiet (c : Context) (timerId : ℕ) (answered : Bool) (env : Env) :
    Quiet c (slaveUpdate c timerId answered env) := by
  have hsettle : ∀ now slave misses unresponsive retryMs,
      Quiet c { c with
        timers := c.timers.map (slaveSettle now slave misses unresponsive retryMs) } := by
    intro now slave misses unresponsive retryMs
    apply quiet_map_timers
    intro t
    unfold slaveSettle
    split_ifs <;> rfl
  unfold slaveUpdate
  dsimp only
  split
  · exact Quiet.refl c
  · split_ifs
    · exact hsettle ..
    · exact Quiet.refl c
    · exact hsettle ..
    · apply quiet_map_timers
      intro t
      split_ifs <;> rfl
    · exact hsettle ..

theorem slaveGate_quiet (c : Context) (timer : Timer) (now : Millitime) :
    Quiet c (slaveGate c timer now).2 := by
  unfold slaveGate
  split_ifs
  · exact Quiet.refl c
  · apply quiet_map_timers
    intro t
    split_ifs <;> rfl
  · exact Quiet.refl c

theorem onceDone_quiet (c : Context) (timerId : ℕ) : Quiet c (onceDone c timerId) := by
  unfold onceDone
  split
  · exact Quiet.refl c
  · apply quiet_map_timers
    intro t
    split_ifs <;> rfl

theorem onceRearm_quiet (c : Context) (env : Env) : Quiet c (onceRearm c env) where
  transport := rfl
  messageCb := rfl
  errorCb := rfl
  templates := Templates.of_timers rfl fun t' ht' => by
    obtain ⟨i, hi, rfl⟩ := List.mem_mapIdx.1 ht'
    refine ⟨c.timers[i], List.getElem_mem hi, ?_⟩
    split_ifs <;> exact ⟨rfl, rfl⟩
  queue := rfl
  serialNext := rfl
  resync := id
  log := ⟨[], (List.append_nil _).symm, by simp⟩

theorem note_quiet (c : Context) {e : Event} (h : e.Silent) : Quiet c (c.note e) :=
  ⟨⟨rfl, rfl, rfl, id⟩, rfl, rfl, id, [e], rfl, by simpa using h⟩

theorem flush_quiet (c : Context) (env : Env) : Quiet c (flush c env) :=
  ⟨⟨rfl, rfl, rfl, id⟩, rfl, rfl, id, [.flushed], rfl, by simp [Event.Silent]⟩

theorem deliver_quiet (c : Context) (msg : Msg) : Quiet c (deliver c msg) := by
  refine ⟨⟨rfl, rfl, rfl, id⟩, rfl, rfl, id, _, rfl, ?_⟩
  intro e he
  obtain ⟨input, -, rfl⟩ := List.mem_map.1 he
  trivial

theorem afterRead_quiet (c : Context) (r : Frame .reader) (env : Env) :
    Quiet c (afterRead c r env) :=
  ⟨⟨rfl, rfl, rfl, id⟩, rfl, rfl, id, [.read r.xmit r.window], rfl, by simp [Event.Silent]⟩

theorem Sent.bytes {m : Msg} {n : ℕ} {sent : List Event} (h : Sent m n sent) :
    bytesWritten sent = (List.range n).map fun i => m.writer.buf (m.writer.xmit + i) := by
  rcases h with ⟨rfl, rfl⟩ | ⟨unread, rfl⟩
  · rfl
  · exact List.append_nil _

variable {G : Prop}

theorem Quiet.served {c c' : Context} (h : Quiet c c') {m m' : Msg} (hw : m'.writer = m.writer)
    (hserial : m'.serial = m.serial) (hfits : m.writer.xmit ≤ m.writer.length) (rc : ℤ) :
    Served G c m ⟨rc, c', m'⟩ := by
  obtain ⟨δ, hlog, hδ⟩ := h.log
  exact ⟨h.toSameSetup, h.serialNext, h.queue, hserial, δ, [], 0, by rw [hlog, List.append_nil],
    hδ, .inl ⟨rfl, rfl⟩, hw, hfits, .inl fun hpending => ⟨h.resync hpending, fun _ => rfl⟩⟩

/-- The drain before a first byte gets all that has arrived, and then a byte is taken. -/
def DrainsFirst (c : Context) (m : Msg) (revents : Revents) (env : Env) : Prop :=
  revents.pollout → c.resyncPending → m.writer.xmit = 0 →
    c.connected ∧ c.input.length ≤ env.drained ∧ ∃ k, 0 < k ∧ env.sent = .accepted k

/-- What happens before a write attempt: a drain if one is pending and this is the first byte. -/
theorem beforeWrite_cases (c : Context) (m : Msg) (env : Env) :
    (¬ (c.resyncPending ∧ m.writer.xmit = 0) ∧
        (beforeWrite c m env).resyncPending = c.resyncPending ∧
        (beforeWrite c m env).log = c.log) ∨
      (c.resyncPending ∧ m.writer.xmit = 0) ∧ (beforeWrite c m env).log = c.log ++ [.flushed] ∧
        (beforeWrite c m env).input =
          if c.connected then c.input.drop env.drained else c.input := by
  unfold beforeWrite
  by_cases hdrain : c.resyncPending ∧ m.writer.xmit = 0
  · rw [if_pos hdrain]
    exact .inr ⟨hdrain, rfl, rfl⟩
  · rw [if_neg hdrain]
    exact .inl ⟨hdrain, rfl, rfl⟩

theorem beforeWrite_same (c : Context) (m : Msg) (env : Env) :
    SameSetup c (beforeWrite c m env) ∧ (beforeWrite c m env).queue = c.queue ∧
      (beforeWrite c m env).serialNext = c.serialNext := by
  unfold beforeWrite
  dsimp only
  split_ifs <;> exact ⟨⟨rfl, rfl, rfl, id⟩, rfl, rfl⟩

theorem served_attempt {c c' : Context} {m m' : Msg} {revents : Revents} {env : Env} {n : ℕ}
    {sent : List Event} (hsent : Sent m n sent) (hfits : m.writer.xmit + n ≤ m.writer.length)
    (hw : m'.writer = { m.writer with xmit := m.writer.xmit + n }) (hserial : m'.serial = m.serial)
    (hsetup : SameSetup (beforeWrite c m env) c') (hq : c'.queue = (beforeWrite c m env).queue)
    (hnext : c'.serialNext = (beforeWrite c m env).serialNext)
    (hresync : c'.resyncPending = (beforeWrite c m env).resyncPending)
    (hlog : c'.log = (beforeWrite c m env).log ++ sent) (hready : revents.pollout)
    (hG : G → DrainsFirst c m revents env)
    (hdrains : ∀ k, 0 < k → sendResult c env = .accepted k → (beforeWrite c m env).input = [] →
      ∃ count, 0 < count ∧ sent = [.wrote m.serial m.writer count 0]) (rc : ℤ) :
    Served G c m ⟨rc, c', m'⟩ := by
  obtain ⟨hsame, hqueue, hserialNext⟩ := beforeWrite_same c m env
  have hkept : ∃ quiet, (beforeWrite c m env).log = c.log ++ quiet ∧ (∀ e ∈ quiet, e.Silent) ∧
      DrainKept G c c' m quiet sent := by
    rcases beforeWrite_cases c m env with ⟨hnot, hkeeps, hlog⟩ | ⟨⟨hpending, hfirst⟩, hlog, hinput⟩
    · refine ⟨[], by rw [hlog, List.append_nil], by simp, .inl fun hpending => ⟨?_, ?_⟩⟩
      · rw [hresync, hkeeps]
        exact hpending
      · exact fun hfirst => absurd ⟨hpending, hfirst⟩ hnot
    · refine ⟨[.flushed], hlog, by simp [Event.Silent], .inr ⟨hfirst, by simp, fun hg => ?_⟩⟩
      obtain ⟨hconn, hall, k, hk, hsentk⟩ := hG hg hready hpending hfirst
      rw [if_pos hconn, List.drop_of_length_le hall] at hinput
      exact hdrains k hk (by rw [sendResult, if_pos hconn, hsentk]) hinput
  obtain ⟨quiet, hquietlog, hquiet, hkept⟩ := hkept
  exact ⟨hsame.trans hsetup, hnext.trans hserialNext, hq.trans hqueue, hserial, quiet, sent, n,
    by rw [hlog, hquietlog], hquiet, hsent, hw, hfits, hkept⟩

theorem served_write {c : Context} {m m' : Msg} {revents : Revents} {env : Env} {n : ℕ}
    (hn : n = accepted (beforeWrite c m env) m env) (hfits : m.writer.xmit + n ≤ m.writer.length)
    (hopen : 0 < m.writer.window) (hw : m'.writer = (m.sent n).writer)
    (hserial : m'.serial = m.serial) (hready : revents.pollout)
    (hG : G → DrainsFirst c m revents env) (rc : ℤ) :
    Served G c m ⟨rc, afterWrite c m env, m'⟩ := by
  have hlog : (afterWrite c m env).log = (beforeWrite c m env).log ++
      [.wrote m.serial m.writer n (beforeWrite c m env).input.length] := by
    rw [hn]
    rfl
  have hsetup : SameSetup (beforeWrite c m env) (afterWrite c m env) := ⟨rfl, rfl, rfl, id⟩
  refine served_attempt (.inr ⟨_, rfl⟩) hfits hw hserial hsetup rfl rfl rfl hlog hready hG (fun k hk
    hresult hempty => ⟨n, ?_, by rw [hempty]; rfl⟩) rc
  have htaken : n = min k m.writer.window := by
    rw [hn, accepted, sendResult_beforeWrite, hresult]
  omega

theorem handleWriteRead_served {c : Context} {m : Msg} (revents : Revents) (env : Env)
    (h : Underway c.transport m) (hG : G → DrainsFirst c m revents env) :
    Served G c m (handleWriteRead c m revents env) := by
  have hfits : m.writer.xmit ≤ m.writer.length := by
    rcases h.stage with hsend | ⟨hsent, -⟩
    · exact hsend.unsent.le
    · exact hsent.le
  have hout := handleWriteRead_outcome revents env h
  generalize handleWriteRead c m revents env = s at hout
  cases hout with
  | waits => exact (Quiet.refl c).served rfl rfl hfits _
  | complete => exact (Quiet.refl c).served rfl rfl hfits _
  | writing hready hsend hwrite =>
    have hopen : 0 < m.writer.window := by
      rw [Frame.window_eq hfits h.request.fits]
      have := hsend.unsent
      omega
    cases hwrite with
    | gap => exact (Quiet.refl c).served rfl rfl hfits _
    | failed herror =>
      have hsetup : SameSetup (beforeWrite c m env)
          { beforeWrite c m env with err := c.err + 1 } := ⟨rfl, rfl, rfl, id⟩
      exact served_attempt (.inl ⟨rfl, rfl⟩) hfits rfl rfl hsetup rfl rfl rfl
        (List.append_nil _).symm hready hG
        (fun k _ hresult => absurd (hresult.symm.trans herror) (by simp)) _
    | part hn hpart => exact served_write hn hpart.le hopen rfl rfl hready hG _
    | broadcast hn hwhole => exact served_write hn hwhole.le hopen rfl rfl hready hG _
    | whole hn hwhole => refine served_write hn hwhole.le hopen ?_ ?_ hready hG _ <;> rfl
  | reading _ _ _ _ hread =>
    have hq := afterRead_quiet c m.reader env
    cases hread with
    | failed =>
      refine (hq.trans (.bookkeeping ?_ ?_ ?_ ?_ ?_ ?_ ?_ ?_)).served ?_ ?_ hfits _
      all_goals first | rfl | exact id
    | answering => refine hq.served ?_ ?_ hfits _ <;> rfl
    | refused => refine hq.served ?_ ?_ hfits _ <;> rfl
    | sizing => refine hq.served ?_ ?_ hfits _ <;> rfl
    | steppedOver => refine hq.served ?_ ?_ hfits _ <;> rfl
    | noise =>
      have herr : Quiet (afterRead c m.reader env)
          { afterRead c m.reader env with err := c.err + 1 } :=
        .bookkeeping rfl rfl rfl rfl rfl rfl rfl id
      have hflush := hq.trans (herr.trans (flush_quiet _ env))
      refine (hflush.trans (.bookkeeping ?_ ?_ ?_ ?_ ?_ ?_ ?_ ?_)).served ?_ ?_ hfits _
      all_goals first | rfl | exact fun _ => rfl

end Modbusmq
