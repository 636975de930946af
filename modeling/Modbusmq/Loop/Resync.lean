import Modbusmq.Library.Duty
import Modbusmq.Loop.Send

/-!
# Draining after an abandoned request

A request that is given up after a byte of it is out may still be answered. The
library remembers in `resync_pending` that the receive buffer has to be drained
before the next request. Three ways of giving a request up do not set it: a
blocking send whose wait expires, a TCP exception acted on before the whole of
it is in, and a TCP reply that declares a length no frame has.
-/

namespace Modbusmq

/-- The request was given up with bytes of it out and its complete answer not consumed: a
timeout, a rejected or malformed reply, an expired wait. -/
def Abandoned (t : Transport) (m : Msg) (error : ℤ) : Prop :=
  0 < m.writer.xmit ∧
    (error = errTimeout ∨ error = errProtocol ∨
      error = errException ∧ m.reader.xmit < m.reader.length ∨
      error = errTransport ∧ ¬ Usable t (received m))

def Event.Abandons (t : Transport) : Event → Prop
  | released m error => Abandoned t m error
  | _ => False

def Event.Drains : Event → Prop
  | flushed => True
  | _ => False

/-- The first bytes of a request go out. -/
def Event.Starts : Event → Prop
  | wrote _ w count _ => w.xmit = 0 ∧ 0 < count
  | _ => False

/-- The first bytes of a request go out while there is something left to read. -/
def Event.StartsLate : Event → Prop
  | wrote _ w count unread => w.xmit = 0 ∧ 0 < count ∧ 0 < unread
  | _ => False

instance (t : Transport) (m : Msg) (error : ℤ) : Decidable (Abandoned t m error) :=
  inferInstanceAs (Decidable (_ ∧ _))

instance (t : Transport) : DecidablePred (Event.Abandons t)
  | .released m error => inferInstanceAs (Decidable (Abandoned t m error))
  | .posted .. | .wrote .. | .read .. | .flushed | .refused .. | .reported .. | .delivered ..
  | .connected => .isFalse id

instance : DecidablePred Event.Starts
  | .wrote _ w count _ => inferInstanceAs (Decidable (w.xmit = 0 ∧ 0 < count))
  | .posted .. | .released .. | .read .. | .flushed | .refused .. | .reported .. | .delivered ..
  | .connected => .isFalse id

/-- After an abandoned request the next one waits for a drain. -/
def drainDuty (t : Transport) : Duty Event := ⟨Event.Abandons t, Event.Drains, Event.Starts⟩

/-- The first request after an abandoned one starts with nothing left to read. -/
def silenceDuty (t : Transport) : Duty Event :=
  ⟨Event.Abandons t, Event.Starts, Event.StartsLate⟩

/-- When a read can leave a request behind unfinished: the bytes that are in then declare a
usable length, and if they are an exception it is complete. -/
def CleanReply (c : Context) (m : Msg) (revents : Revents) (env : Env) : Prop :=
  revents.pollin → m.writer.xmit = m.writer.length →
    Usable c.transport (received m ++ delivered c m.reader env) ∧
      (headerVerdict c.transport m.writer (received m ++ delivered c m.reader env) < 0 →
        0 < exceptionCode c.transport m.writer (received m ++ delivered c m.reader env) →
          (received m ++ delivered c m.reader env).length =
            expectedLength c.transport m.writer (received m ++ delivered c m.reader env))

/-- What the proofs need of a duty that is raised by abandoned requests. -/
structure Guards (t : Transport) (G : Prop) (d : Duty Event) : Prop where
  raises : ∀ e, d.Raises e → e.Abandons t
  waits : ∀ e, d.Waits e → e.Starts
  drained : d.Discharges .flushed ∨ G ∧ ∀ serial w count, w.xmit = 0 → 0 < count →
    d.Discharges (.wrote serial w count 0) ∧ ¬ d.Waits (.wrote serial w count 0)

theorem drainDuty_guards (t : Transport) (G : Prop) : Guards t G (drainDuty t) :=
  ⟨fun _ => id, fun _ => id, .inl trivial⟩

theorem silenceDuty_guards (t : Transport) : Guards t True (silenceDuty t) := by
  refine ⟨fun _ => id, fun e h => ?_, .inr ⟨trivial, fun serial w count hfirst hcount => ?_⟩⟩
  · cases e with
    | wrote => exact ⟨h.1, h.2.1⟩
    | _ => exact h.elim
  · exact ⟨⟨hfirst, hcount⟩, fun h => absurd h.2.2 (lt_irrefl 0)⟩

variable {t : Transport} {G : Prop} {d : Duty Event}

theorem Guards.silent (hd : Guards t G d) {δ : List Event} (h : ∀ e ∈ δ, e.Silent) :
    ∀ e ∈ δ, ¬ d.Raises e ∧ ¬ d.Waits e := by
  intro e he
  have hsilent := h e he
  refine ⟨fun hr => ?_, fun hw => ?_⟩
  · have habandons := hd.raises e hr
    cases e <;> first | exact habandons | exact hsilent
  · have hstarts := hd.waits e hw
    cases e <;> first | exact hstarts | exact hsilent

theorem Guards.told (hd : Guards t G d) {c : Context} {flags : Flags} {m : Msg} {told : List Event}
    (h : Told c flags m told) : ∀ e ∈ told, ¬ d.Raises e ∧ ¬ d.Waits e := by
  rcases h with ⟨report, rfl⟩ | ⟨hsilent, -⟩
  · intro e he
    rw [List.mem_singleton.1 he]
    exact ⟨hd.raises _, hd.waits _⟩
  · exact hd.silent hsilent

/-- The duty with the flag and the record of a context. -/
abbrev Guarded (d : Duty Event) (c : Context) : Prop := d.Tracked c.resyncPending c.log

theorem Quiet.guarded {c c' : Context} (h : Quiet c c') (hd : Guards t G d) (hc : Guarded d c) :
    Guarded d c' := by
  obtain ⟨δ, hlog, hδ⟩ := h.log
  unfold Guarded
  rw [hlog]
  exact (hc.idle (hd.silent hδ)).mono h.resync

theorem Served.guarded {c : Context} {m : Msg} {s : WriteRead} (h : Served G c m s)
    (hd : Guards t G d) (hc : Guarded d c) : Guarded d s.ctx := by
  obtain ⟨quiet, sent, n, hlog, hquiet, hsent, -, -, hkept⟩ := h.moved
  have hidle := hd.silent hquiet
  unfold Guarded
  rw [hlog]
  rcases hkept with hkept | ⟨hfirst, hflushed, hstart⟩
  · have hbefore := hc.idle hidle
    rcases hsent with ⟨rfl, -⟩ | ⟨unread, rfl⟩
    · rw [List.append_nil]
      exact hbefore.mono fun hpending => (hkept hpending).1
    · refine hbefore.concat (fun hwaits hpending => ?_) (fun hraises => ?_)
        fun _ hpending => (hkept hpending).1
      · exact absurd ((hkept hpending).2 (hd.waits _ hwaits).1) (by simp)
      · exact (hd.raises _ hraises).elim
  · rcases hd.drained with hdrains | ⟨hg, hdrains⟩
    · have hclear := hc.clear hidle ⟨_, hflushed, hdrains⟩
      rcases hsent with ⟨rfl, -⟩ | ⟨unread, rfl⟩
      · rw [List.append_nil]
        exact hclear.mono False.elim
      · exact hclear.concat (fun _ => id) (fun hraises => (hd.raises _ hraises).elim)
          fun _ => False.elim
    · obtain ⟨count, hcount, rfl⟩ := hstart hg
      obtain ⟨hdischarges, hwaits⟩ := hdrains m.serial m.writer count hfirst hcount
      exact (hc.idle hidle).concat (fun hw => absurd hw hwaits)
        (fun hraises => (hd.raises _ hraises).elim) fun hnot => absurd hdischarges hnot

/-- What is known of requests that leave in a clean run. -/
def LeavesPending (t : Transport) (m : Msg) (error : ℤ) (pending : Bool) : Prop :=
  Abandoned t m error → pending = true

theorem QueueStep.guarded {c c' : Context} (h : QueueStep (LeavesPending t) G c c')
    (hd : Guards t G d) (hc : Guarded d c) : Guarded d c' := by
  cases h with
  | quiet h => exact h.guarded hd hc
  | @enter m flags =>
    have hidle : ∀ m', ¬ d.Raises (.posted flags m') ∧ ¬ d.Waits (.posted flags m') :=
      fun m' => ⟨hd.raises _, hd.waits _⟩
    exact hc.idle (by simp [hidle])
  | stay _ hs => exact hs.guarded hd hc
  | @leave wrapper rest hq s hs m _ _ _ _ _ _ hresync error hP hlog =>
    obtain ⟨quiet, told, after, hlog, hquiet, htold, hafter⟩ := hlog
    have hserved : Guarded d s.ctx := hs.guarded hd hc
    have htell := (hserved.idle (hd.silent hquiet)).idle (hd.told htold)
    have hreleased : d.Tracked c'.resyncPending
        (s.ctx.log ++ quiet ++ told ++ [.released m error]) :=
      htell.concat (fun hw => (hd.waits _ hw).elim) (fun hr => hP (hd.raises _ hr))
        fun _ => hresync
    unfold Guarded
    rw [hlog]
    exact hreleased.idle (hd.silent hafter)

theorem QueueSteps.guarded {c c' : Context} (h : QueueSteps (LeavesPending t) G c c')
    (hd : Guards t G d) (hc : Guarded d c) : Guarded d c' := by
  induction h with
  | refl => exact hc
  | tail _ h ih => exact h.guarded hd ih

theorem Underway.usable {t : Transport} {m : Msg} (h : Underway t m) : Usable t (received m) := by
  rcases h.stage with hsend | ⟨-, held, hheld⟩
  · have hnone : received m = [] := by
      rw [received, hsend.empty]
      rfl
    rw [hnone]
    cases t with
    | tcp => exact fun h => absurd h (by decide)
    | rtu => trivial
  · rw [hheld.received]
    exact hheld.usable

theorem Abandoned.cases {t : Transport} {m : Msg} {error : ℤ} (h : Abandoned t m error) :
    error = errTimeout ∨ error = errProtocol ∨
      error = errException ∧ m.reader.xmit < m.reader.length ∨
      error = errTransport ∧ ¬ Usable t (received m) := h.2

theorem not_abandoned_answered {t : Transport} {m : Msg} : ¬ Abandoned t m 0 := by
  intro h
  rcases h.cases with h | h | ⟨h, -⟩ | ⟨h, -⟩ <;> exact absurd h (by decide)

theorem not_abandoned_exception {t : Transport} {m : Msg}
    (hwhole : m.reader.length ≤ m.reader.xmit) : ¬ Abandoned t m errException := by
  intro h
  rcases h.cases with h | h | ⟨-, h⟩ | ⟨h, -⟩
  · exact absurd h (by decide)
  · exact absurd h (by decide)
  · omega
  · exact absurd h (by decide)

theorem not_abandoned_transport {t : Transport} {m : Msg} (hu : Usable t (received m)) :
    ¬ Abandoned t m errTransport := by
  intro h
  rcases h.cases with h | h | ⟨h, -⟩ | ⟨-, h⟩
  · exact absurd h (by decide)
  · exact absurd h (by decide)
  · exact absurd h (by decide)
  · exact h hu

/-- A step that returns an exception acted on a complete one. -/
theorem refused_not_abandoned {c : Context} {m : Msg} {revents : Revents} {env : Env}
    (h : Underway c.transport m) (hclean : CleanReply c m revents env) {s : WriteRead}
    (hs : handleWriteRead c m revents env = s) (hrc : s.rc = errException) :
    ¬ Abandoned c.transport s.msg errException := by
  rcases handleWriteRead_neg revents env h hs (by rw [hrc]; decide) with
    ⟨hneg, -⟩ | ⟨hready, hsent, -, all, hall, ⟨hneg, -⟩ | ⟨-, hreader, hv, hx⟩ | ⟨hneg, -⟩⟩
  · exact absurd (hneg.symm.trans hrc) (by decide)
  · exact absurd (hneg.symm.trans hrc) (by decide)
  · have hwhole := (hclean hready hsent).2
    rw [← hall] at hwhole
    refine not_abandoned_exception ?_
    rw [hreader]
    exact (hwhole hv hx).ge
  · exact absurd (hneg.symm.trans hrc) (by decide)

/-- A step that fails has not received a length no frame has. -/
theorem failed_not_abandoned {c : Context} {m : Msg} {revents : Revents} {env : Env}
    (h : Underway c.transport m) (hclean : CleanReply c m revents env) {s : WriteRead}
    (hs : handleWriteRead c m revents env = s) (hrc : s.rc = errTransport) :
    ¬ Abandoned c.transport s.msg errTransport := by
  refine not_abandoned_transport ?_
  rcases handleWriteRead_neg revents env h hs (by rw [hrc]; decide) with
    ⟨-, hsame⟩ | ⟨hready, hsent, -, all, hall, ⟨-, hreceived⟩ | ⟨hneg, -⟩ | ⟨hneg, -⟩⟩
  · rw [hsame]
    exact h.usable
  · rw [hreceived, hall]
    exact (hclean hready hsent).1
  · exact absurd (hneg.symm.trans hrc) (by decide)
  · exact absurd (hneg.symm.trans hrc) (by decide)

/-- After a rejected frame a drain is pending and the request is on the wire. -/
theorem noise_pending {c : Context} {m : Msg} {revents : Revents} {env : Env}
    (h : Underway c.transport m) {s : WriteRead} (hs : handleWriteRead c m revents env = s)
    (hrc : s.rc = errProtocol) :
    s.ctx.resyncPending = true ∧ s.msg.writer = m.writer ∧ m.writer.xmit = m.writer.length := by
  rcases handleWriteRead_neg revents env h hs (by rw [hrc]; decide) with
    ⟨hneg, -⟩ | ⟨-, hsent, hwriter, _, -, ⟨hneg, -⟩ | ⟨hneg, -⟩ | ⟨-, hpending, -⟩⟩
  · exact absurd (hneg.symm.trans hrc) (by decide)
  · exact absurd (hneg.symm.trans hrc) (by decide)
  · exact absurd (hneg.symm.trans hrc) (by decide)
  · exact ⟨hpending, hwriter, hsent⟩

/-- A step that fails otherwise fails as the connection does. -/
theorem failed_rc {c : Context} {m : Msg} {revents : Revents} {env : Env}
    (h : Underway c.transport m) {s : WriteRead} (hs : handleWriteRead c m revents env = s)
    (hneg : s.rc < 0) (hexception : s.rc ≠ errException) (hprotocol : s.rc ≠ errProtocol) :
    s.rc = errTransport := by
  rcases handleWriteRead_neg revents env h hs hneg with
    ⟨hrc, -⟩ | ⟨-, -, -, _, -, ⟨hrc, -⟩ | ⟨hrc, -⟩ | ⟨hrc, -⟩⟩
  · exact hrc
  · exact hrc
  · exact absurd hrc hexception
  · exact absurd hrc hprotocol

/-- A step on an outstanding request ends it with a drain pending, or it is not abandoned. -/
theorem ends_pending {c : Context} {m : Msg} {revents : Revents} {env : Env}
    (h : Underway c.transport m) (hclean : CleanReply c m revents env) {s : WriteRead}
    (hs : handleWriteRead c m revents env = s) {m' : Msg} {error : ℤ} {pending : Bool}
    (hends : Ends s m' error pending) : LeavesPending c.transport m' error pending := by
  intro habandoned
  cases hends with
  | answered => exact absurd habandoned not_abandoned_answered
  | rejected => rfl
  | refused hrc => exact absurd habandoned (refused_not_abandoned h hclean hs hrc)
  | noise hrc => exact (noise_pending h hs hrc).1
  | failed hneg hexception hprotocol =>
    exact absurd habandoned
      (failed_not_abandoned h hclean hs (failed_rc h hs hneg hexception hprotocol))

/-- The request as a turn leaves it, when the turn does not finish it. -/
def unfinished (c : Context) (s : SendState) (answer : PollAnswer) (env : Env) : Option Msg :=
  match answer with
  | .interrupted => some s.msg
  | .failed => none
  | .ready revents =>
    let revents := revents.among (sendEvents c s.msg (env.clock .now))
    if revents.pollin ∨ revents.pollout then
      let h := handleWriteRead c s.msg revents env
      if 0 < h.rc then some h.msg else none
    else some s.msg

/-- The wait of a send is over after this turn, with bytes of the request out, nothing but
silence for an answer and no frame rejected before. -/
def Expires (c : Context) (s : SendState) (answer : PollAnswer) (env : Env) : Prop :=
  ¬ env.clock .now - s.startMs < s.waitMs ∧ 0 < s.result ∧
    ∃ m, unfinished c s answer env = some m ∧ 0 < m.writer.xmit

def turnEvents (c : Context) (s : SendState) (answer : PollAnswer) (env : Env) : Revents :=
  match answer with
  | .ready revents => revents.among (sendEvents c s.msg (env.clock .now))
  | _ => ⟨false, false, false, false⟩

/-- An action that does not give a request up in one of the three ways that leave no drain
pending. -/
def Undisturbed (w : World) (env : Env) : Action → Prop
  | .call (.writeRead revents) =>
    w.sending = none → ∀ wrapper, w.ctx.queue.head? = some wrapper →
      CleanReply w.ctx wrapper.msg revents env
  | .turn answer =>
    ∀ s, w.sending = some s → ¬ Expires w.ctx s answer env ∧
      CleanReply w.ctx s.msg (turnEvents w.ctx s answer env) env
  | _ => True

/-- An action whose drain, if it makes one, gets all that has arrived. -/
def ActionDrainsFirst (w : World) (env : Env) : Action → Prop
  | .call made => w.sending = none → CallDrainsFirst w.ctx env made
  | .turn answer =>
    ∀ s, w.sending = some s → DrainsFirst w.ctx s.msg (turnEvents w.ctx s answer env) env
  | _ => True

/-- What holds between two turns of a send: a frame rejected meanwhile has left a drain
pending. -/
structure Waiting (c : Context) (s : SendState) : Prop where
  outstanding : Outstanding c.transport s.msg
  result : s.result = 1 ∨
    s.result = errProtocol ∧ c.resyncPending ∧ s.msg.writer.xmit = s.msg.writer.length

/-- What holds between two actions. -/
structure Tidy (t : Transport) (d : Duty Event) (w : World) : Prop where
  transport : w.ctx.transport = t
  wellFormed : WellFormed w.ctx
  guarded : Guarded d w.ctx
  waiting : ∀ s, w.sending = some s → Waiting w.ctx s

theorem WellFormed.same {c c' : Context} (hc : WellFormed c) (h : SameSetup c c')
    (hq : c'.queue = c.queue) : WellFormed c' := by
  refine ⟨h.templates hc.templates, ?_, ?_⟩
  all_goals rw [h.transport, hq]
  · exact hc.head
  · exact hc.waiting

/-- A context between the steps of a turn. -/
structure Clean (t : Transport) (d : Duty Event) (c : Context) : Prop where
  transport : c.transport = t
  wellFormed : WellFormed c
  guarded : Guarded d c

theorem Tidy.clean {w : World} (h : Tidy t d w) : Clean t d w.ctx :=
  ⟨h.transport, h.wellFormed, h.guarded⟩

theorem Clean.served {c : Context} (h : Clean t d c) (hd : Guards t G d) {m : Msg} {s : WriteRead}
    (hs : Served G c m s) : Clean t d s.ctx :=
  ⟨hs.transport.trans h.transport, h.wellFormed.same hs.toSameSetup hs.queue,
    hs.guarded hd h.guarded⟩

theorem Clean.quiet {c c' : Context} (h : Clean t d c) (hd : Guards t G d) (hc : Quiet c c') :
    Clean t d c' :=
  ⟨hc.transport.trans h.transport, h.wellFormed.same hc.toSameSetup hc.queue,
    hc.guarded hd h.guarded⟩

theorem Clean.reported {c : Context} (h : Clean t d c) (hd : Guards t G d) (m : Msg) (error : ℤ)
    (env : Env) : Clean t d (reportError c m error env) ∧
      (reportError c m error env).resyncPending = c.resyncPending := by
  have htell := reportError_telling c .post m error env
  obtain ⟨told, hlog, htold⟩ := htell.log
  refine ⟨⟨htell.transport.trans h.transport, h.wellFormed.same htell.toSameSetup htell.queue, ?_⟩,
    htell.resyncPending⟩
  unfold Guarded
  rw [hlog, htell.resyncPending]
  exact h.guarded.idle (hd.told htold)

/-- Once its first byte is out, serving a request leaves a pending drain pending. -/
theorem Served.pending {c : Context} {m : Msg} {s : WriteRead} (h : Served G c m s)
    (hout : 0 < m.writer.xmit) (hpending : c.resyncPending) : s.ctx.resyncPending := by
  obtain ⟨_, _, _, -, -, -, -, -, hkept | ⟨hfirst, -⟩⟩ := h.moved
  · exact (hkept hpending).1
  · omega

theorem sendDone_tidy {c : Context} (h : Clean t d c) (hd : Guards t G d) {m : Msg} {error : ℤ}
    (hleaves : LeavesPending t m error c.resyncPending) :
    Tidy t d ⟨(sendDone c m error).1, (sendDone c m error).2⟩ where
  transport := h.transport
  wellFormed := h.wellFormed.same ⟨rfl, rfl, rfl, id⟩ rfl
  guarded := h.guarded.concat (fun hw => (hd.waits _ hw).elim)
    (fun hr => hleaves (hd.raises _ hr)) fun _ => id
  waiting := fun s hs => absurd hs (by simp [sendDone])

theorem sendDone_reported {c : Context} (h : Clean t d c) (hd : Guards t G d) {m : Msg} {error : ℤ}
    (env : Env) (hleaves : LeavesPending t m error c.resyncPending) :
    Tidy t d ⟨(sendDone (reportError c m error env) m error).1,
      (sendDone (reportError c m error env) m error).2⟩ := by
  obtain ⟨hclean, hpending⟩ := h.reported hd m error env
  refine sendDone_tidy hclean hd ?_
  rwa [hpending]

theorem sendTest_tidy {c : Context} (h : Clean t d c) (hd : Guards t G d) {s : SendState}
    (hs : Waiting c s) (env : Env)
    (hwait : ¬ (¬ env.clock .now - s.startMs < s.waitMs ∧ 0 < s.result ∧ 0 < s.msg.writer.xmit)) :
    Tidy t d ⟨(sendTest c s env).1, (sendTest c s env).2⟩ := by
  unfold sendTest
  by_cases hopen : env.clock .now - s.startMs < s.waitMs
  · rw [if_pos hopen]
    exact ⟨h.transport, h.wellFormed, h.guarded, fun s' hs' => (Option.some.inj hs') ▸ hs⟩
  · rw [if_neg hopen]
    by_cases hsilent : 0 < s.result
    · rw [if_pos hsilent]
      exact sendDone_reported h hd env fun habandoned =>
        absurd ⟨hopen, hsilent, habandoned.1⟩ hwait
    · rw [if_neg hsilent]
      refine sendDone_tidy h hd fun _ => ?_
      rcases hs.result with hresult | ⟨-, hpending, -⟩
      · rw [hresult] at hsilent
        exact absurd hsilent (by decide)
      · exact hpending

theorem sendChecked_tidy {c : Context} (h : Clean t d c) (hd : Guards t G d) (m : Msg) (rc : ℤ)
    (env : Env) :
    Tidy t d
      (if rc ≠ 0 then
        ⟨(sendDone (reportError { flush c env with resyncPending := true } m
            (rejectReason c.transport m) env) m (rejectReason c.transport m)).1,
          (sendDone (reportError { flush c env with resyncPending := true } m
            (rejectReason c.transport m) env) m (rejectReason c.transport m)).2⟩
      else ⟨(sendDone c m 0).1, (sendDone c m 0).2⟩) := by
  by_cases hrejected : rc ≠ 0
  · rw [if_pos hrejected]
    have hquiet : Quiet c { flush c env with resyncPending := true } :=
      (flush_quiet _ env).trans (.bookkeeping rfl rfl rfl rfl rfl rfl rfl fun _ => rfl)
    exact sendDone_reported (h.quiet hd hquiet) hd env fun _ => rfl
  · rw [if_neg hrejected]
    exact sendDone_tidy h hd fun habandoned => absurd habandoned not_abandoned_answered

theorem sendReady_tidy {c : Context} (hc : Clean t d c) (hd : Guards t G d) {s : SendState}
    (hs : Waiting c s) {revents : Revents} {env : Env} (hclean : CleanReply c s.msg revents env)
    (hwait : ¬ (¬ env.clock .now - s.startMs < s.waitMs ∧ 0 < s.result ∧
      0 < (handleWriteRead c s.msg revents env).rc ∧
      0 < (handleWriteRead c s.msg revents env).msg.writer.xmit))
    (hG : G → DrainsFirst c s.msg revents env) :
    Tidy t d ⟨(sendReady c s revents env).1, (sendReady c s revents env).2⟩ := by
  have hunder := hs.outstanding.underway
  have hserved := handleWriteRead_served revents env hunder hG
  have hkeep : KeepsRequest (handleWriteRead c s.msg revents env).rc →
      Outstanding c.transport (handleWriteRead c s.msg revents env).msg :=
    fun h => .step hs.outstanding rfl revents env h
  obtain ⟨h, hh⟩ : ∃ h, handleWriteRead c s.msg revents env = h := ⟨_, rfl⟩
  unfold sendReady
  rw [hh] at hserved hkeep hwait ⊢
  have htidy := hc.served hd hserved
  have htransport := hserved.transport
  dsimp only
  by_cases hprotocol : h.rc = errProtocol
  · rw [if_pos hprotocol]
    obtain ⟨hpending, hwriter, hsent⟩ := noise_pending hunder hh hprotocol
    obtain ⟨hreported, hpending'⟩ :=
      htidy.reported hd h.msg (rejectReason h.ctx.transport h.msg) env
    refine sendTest_tidy hreported hd ⟨?_, .inr ⟨rfl, ?_, ?_⟩⟩ env
      fun ⟨_, (hpos : 0 < errProtocol), _⟩ => absurd hpos (by decide)
    · rw [hreported.transport, ← hc.transport]
      exact hkeep (.inr hprotocol)
    · rwa [hpending']
    · change h.msg.writer.xmit = h.msg.writer.length
      rw [hwriter, hsent]
  · rw [if_neg hprotocol]
    by_cases hexception : h.rc = errException
    · rw [if_pos hexception]
      refine sendDone_reported htidy hd env fun habandoned => ?_
      rw [← hc.transport] at habandoned
      exact absurd habandoned (refused_not_abandoned hunder hclean hh hexception)
    · rw [if_neg hexception]
      by_cases hneg : h.rc < 0
      · rw [if_pos hneg]
        refine sendDone_reported htidy hd env fun habandoned => ?_
        rw [← hc.transport] at habandoned
        exact absurd habandoned (failed_not_abandoned hunder hclean hh
          (failed_rc hunder hh hneg hexception hprotocol))
      · rw [if_neg hneg]
        by_cases hdone : h.rc = 0
        · rw [if_pos hdone]
          obtain ⟨⟨rc, reader⟩, hcheck⟩ : ∃ result,
              check h.ctx.transport h.msg.writer h.msg.reader = result := ⟨_, rfl⟩
          rw [hcheck]
          have hchecked := sendChecked_tidy htidy hd { h.msg with reader := reader } rc env
          dsimp only
          split_ifs at hchecked ⊢ <;> exact hchecked
        · rw [if_neg hdone]
          have hpos : 0 < h.rc := by omega
          refine sendTest_tidy htidy hd ⟨?_, ?_⟩ env fun ⟨hopen, hresult, hout⟩ =>
            hwait ⟨hopen, hresult, hpos, hout⟩
          · rw [htransport]
            exact hkeep (.inl hpos.le)
          · rcases hs.result with hresult | ⟨hresult, hpending, hsent⟩
            · exact .inl hresult
            · have hout : 0 < s.msg.writer.xmit := by
                have hheader := hunder.request.header
                have hmin : 0 < c.transport.reqHeaderMin := by
                  cases c.transport <;> decide
                omega
              refine .inr ⟨hresult, hserved.pending hout hpending, ?_⟩
              obtain ⟨_, _, n, -, -, -, hwriter, hfits, -⟩ := hserved.moved
              change h.msg.writer.xmit = h.msg.writer.length
              rw [hwriter]
              change s.msg.writer.xmit + n = s.msg.writer.length
              omega

theorem sendTurn_tidy {c : Context} (hc : Clean t d c) (hd : Guards t G d) {s : SendState}
    (hs : Waiting c s) {answer : PollAnswer} {env : Env}
    (hclean : CleanReply c s.msg (turnEvents c s answer env) env)
    (hwait : ¬ Expires c s answer env)
    (hG : G → DrainsFirst c s.msg (turnEvents c s answer env) env) :
    Tidy t d ⟨(sendTurn c s answer env).1, (sendTurn c s answer env).2⟩ := by
  cases answer with
  | interrupted =>
    exact sendTest_tidy hc hd hs env fun ⟨hopen, hresult, hout⟩ =>
      hwait ⟨hopen, hresult, _, rfl, hout⟩
  | failed =>
    refine sendDone_tidy hc hd fun habandoned => ?_
    rw [← hc.transport] at habandoned
    exact absurd habandoned (not_abandoned_transport hs.outstanding.underway.usable)
  | ready revents =>
    unfold sendTurn
    dsimp only
    by_cases hready : (revents.among (sendEvents c s.msg (env.clock .now))).pollin ∨
        (revents.among (sendEvents c s.msg (env.clock .now))).pollout
    · rw [if_pos hready]
      refine sendReady_tidy hc hd hs hclean (fun ⟨hopen, hresult, hpos, hout⟩ => ?_) hG
      refine hwait ⟨hopen, hresult, _, ?_, hout⟩
      unfold unfinished
      dsimp only
      rw [if_pos hready, if_pos hpos]
    · rw [if_neg hready]
      refine sendTest_tidy hc hd hs env fun ⟨hopen, hresult, hout⟩ => ?_
      refine hwait ⟨hopen, hresult, _, ?_, hout⟩
      unfold unfinished
      dsimp only
      rw [if_neg hready]

theorem sendStart_tidy {c : Context} (hc : Clean t d c) {slaveId : ℤ} {request : Request}
    {writer : Frame .writer} (hbuild : request.build c.transport slaveId = some writer)
    (mswait : ℤ) (env : Env) :
    Tidy t d ⟨(sendStart (setSlave c slaveId) writer mswait env).1,
      some (sendStart (setSlave c slaveId) writer mswait env).2⟩ where
  transport := hc.transport
  wellFormed := hc.wellFormed.same ⟨rfl, rfl, rfl, id⟩ rfl
  guarded := hc.guarded
  waiting := fun s hs => by
    obtain rfl := Option.some.inj hs
    have hposted : Posted c.transport (sendStart (setSlave c slaveId) writer mswait env).2.msg :=
      ⟨slaveId, request, _, _, hbuild, rfl, rfl⟩
    exact ⟨.posted hposted, .inl rfl⟩

theorem Tidy.call {w : World} (h : Tidy t d w) (hd : Guards t G d) (hidle : w.sending = none)
    {made : Call} {env : Env} (hclean : Undisturbed w env (.call made))
    (hG : G → ActionDrainsFirst w env (.call made)) :
    Tidy t d { w with ctx := made.perform w.ctx env } := by
  have hsteps : QueueSteps (LeavesPending t) G w.ctx (made.perform w.ctx env) := by
    refine made.steps h.wellFormed env (fun hleaves => ?_) fun hg => hG hg hidle
    rw [← h.transport]
    cases hleaves with
    | timeout => exact fun _ => rfl
    | ends hhead hends =>
      exact ends_pending (h.wellFormed.head _ hhead).underway (hclean hidle _ hhead) rfl hends
    | dropped hmem =>
      exact fun habandoned => absurd habandoned
        (not_abandoned_transport (h.wellFormed.underway _ hmem).usable)
  exact ⟨hsteps.sameSetup.transport.trans h.transport, hsteps.wellFormed h.wellFormed,
    hsteps.guarded hd h.guarded, fun s hs => absurd (hidle.symm.trans hs) (by simp)⟩

theorem Tidy.perform {w : World} (h : Tidy t d w) (hd : Guards t G d) {env : Env}
    {action : Action} (hclean : Undisturbed w env action) (hG : G → ActionDrainsFirst w env action) :
    Tidy t d (action.perform w env) := by
  obtain ⟨c, sending⟩ := w
  cases action with
  | call made =>
    cases sending with
    | none => exact h.call hd rfl hclean hG
    | some s =>
      unfold Action.perform
      cases made with
      | arrive bytes =>
        exact ⟨h.transport, h.wellFormed.same ⟨rfl, rfl, rfl, id⟩ rfl, h.guarded, fun s hs =>
          ⟨(h.waiting s hs).outstanding, (h.waiting s hs).result⟩⟩
      | _ => exact h
  | send slaveId request mswait =>
    have hset : Tidy t d ⟨setSlave c slaveId, sending⟩ :=
      ⟨h.transport, h.wellFormed.same ⟨rfl, rfl, rfl, id⟩ rfl, h.guarded, fun s hs =>
        ⟨(h.waiting s hs).outstanding, (h.waiting s hs).result⟩⟩
    unfold Action.perform
    dsimp only
    split
    · rename_i hbuild
      exact sendStart_tidy h.clean hbuild mswait env
    · exact hset
    · exact h
  | turn answer =>
    cases sending with
    | none => exact h
    | some s =>
      obtain ⟨hexpires, hreply⟩ := hclean s rfl
      exact sendTurn_tidy h.clean hd (h.waiting s rfl) hreply hexpires fun hg => hG hg s rfl

theorem Tidy.run {w : World} (h : Tidy t d w) (hd : Guards t G d) {actions : List (Action × Env)}
    (hclean : World.Along Undisturbed actions w)
    (hG : G → World.Along ActionDrainsFirst actions w) : Tidy t d (World.run actions w) := by
  induction actions generalizing w with
  | nil => exact h
  | cons action actions ih =>
    exact ih (h.perform hd hclean.1 fun hg => (hG hg).1) hclean.2 fun hg => (hG hg).2

theorem Fresh.tidy {c : Context} (h : Fresh c) (d : Duty Event) : Tidy c.transport d ⟨c, none⟩ where
  transport := rfl
  wellFormed := h.wellFormed
  guarded := by
    unfold Guarded
    rw [h.log]
    exact Duty.tracked_nil
  waiting := fun s hs => absurd hs (by simp)

/-- In a run in which no request is given up in one of the three ways, the receive buffer is
drained between an abandoned request and the next one; and where the drains get all that has
arrived, nothing that arrived before the next request is left to be read as its answer. -/
theorem abandoned_requests_drained {c₀ : Context} (hfresh : Fresh c₀)
    {actions : List (Action × Env)} (hclean : World.Along Undisturbed actions ⟨c₀, none⟩) :
    (drainDuty c₀.transport).Kept (World.run actions ⟨c₀, none⟩).ctx.log ∧
      (World.Along ActionDrainsFirst actions ⟨c₀, none⟩ →
        (silenceDuty c₀.transport).Kept (World.run actions ⟨c₀, none⟩).ctx.log) := by
  constructor
  · exact ((hfresh.tidy _).run (drainDuty_guards c₀.transport False) hclean
      False.elim).guarded.kept
  · intro hdrains
    exact ((hfresh.tidy _).run (silenceDuty_guards c₀.transport) hclean
      fun _ => hdrains).guarded.kept

/-- A request times out in the loop, and the next one goes out. -/
def timeoutActions : List (Action × Env) :=
  [(.call (.post 1 (.readHoldingRegisters 0 1)), atTime 1000), (.call (.prepare 100), atTime 1000),
    (.call (.writeRead ⟨false, true, false, false⟩), atTime 1000),
    (.call (.prepare 100), atTime 2000), (.call (.arrive [1, 3, 2, 0, 42, 0x39, 0x9b]), atTime 2000),
    (.call (.post 1 (.readHoldingRegisters 7 1)), atTime 2000),
    (.call (.writeRead ⟨false, true, false, false⟩), atTime 2000)]

def rtuContext : Context := { sampleContext .rtu [] with frameTimeoutMs := 500 }

theorem abandoned_requests_drained_example :
    (drainDuty .rtu).Kept (World.run timeoutActions ⟨rtuContext, none⟩).ctx.log ∧
      (silenceDuty .rtu).Kept (World.run timeoutActions ⟨rtuContext, none⟩).ctx.log ∧
      (World.run timeoutActions ⟨rtuContext, none⟩).ctx.log.length = 7 := by
  have hclean : World.Along Undisturbed timeoutActions ⟨rtuContext, none⟩ :=
    ⟨trivial, trivial, fun _ _ _ hready => absurd hready (by decide), trivial, trivial, trivial,
      fun _ _ _ hready => absurd hready (by decide), trivial⟩
  have hfresh : Fresh rtuContext := ⟨rfl, rfl, rfl, rfl⟩
  obtain ⟨hdrain, hsilence⟩ := abandoned_requests_drained hfresh hclean
  refine ⟨hdrain, hsilence ⟨fun _ => trivial, fun _ => trivial, fun _ wrapper _ _ hpending => ?_,
    fun _ => trivial, fun _ => trivial, fun _ => trivial, fun _ wrapper _ _ _ _ => ?_, trivial⟩,
    by decide +kernel⟩
  · exact absurd hpending (by decide +kernel)
  · exact ⟨rfl, by decide +kernel, 260, by decide, rfl⟩

/-- The wait of a send expires, the answer comes late, and the next send takes it. -/
def expiredActions : List (Action × Env) :=
  [(.send 1 (.readHoldingRegisters 0 1) 100, atTime 0),
    (.turn (.ready ⟨false, true, false, false⟩), atTime 0),
    (.turn (.ready ⟨false, false, false, false⟩), atTime 100),
    (.call (.arrive [1, 3, 2, 0, 42, 0x39, 0x9b]), atTime 100),
    (.send 1 (.readHoldingRegisters 7 1) 100, atTime 100),
    (.turn (.ready ⟨false, true, false, false⟩), atTime 100),
    (.turn (.ready ⟨true, false, false, false⟩), atTime 100),
    (.turn (.ready ⟨true, false, false, false⟩), atTime 100)]

theorem expired_send_leaves_no_drain :
    ¬ ∀ (c₀ : Context) (actions : List (Action × Env)), Fresh c₀ →
      (drainDuty c₀.transport).Kept (World.run actions ⟨c₀, none⟩).ctx.log ∧
        (World.Along ActionDrainsFirst actions ⟨c₀, none⟩ →
          (silenceDuty c₀.transport).Kept (World.run actions ⟨c₀, none⟩).ctx.log) := by
  intro hall
  have hkept := (hall rtuContext expiredActions ⟨rfl, rfl, rfl, rfl⟩).1
  obtain ⟨e, hreleased, habandons⟩ := (Option.any_eq_true _ _).1 (by decide +kernel :
    (World.run expiredActions ⟨rtuContext, none⟩).ctx.log[1]?.any (·.Abandons .rtu) = true)
  obtain ⟨e', hwrote, hstarts⟩ := (Option.any_eq_true _ _).1 (by decide +kernel :
    (World.run expiredActions ⟨rtuContext, none⟩).ctx.log[2]?.any (·.Starts) = true)
  have hraises : e.Abandons .rtu := of_decide_eq_true habandons
  have hwaits : e'.Starts := of_decide_eq_true hstarts
  exact hkept.adjacent hreleased hwrote hraises hwaits

end Modbusmq
