import Modbusmq.Loop.Run

/-!
# The outgoing stream

What has been written on a connection is what has been transmitted of the
requests that left the head, in that order, and of the head. A request that
leaves partly transmitted makes the device read the next one as its rest. The
loop lets that happen in one place: `modbusmq_loop_prepare` gives up a head that
is "not sent" in time, also when a part of it is out.
-/

namespace Modbusmq

/-- The part of a request frame that is on the wire. -/
def Msg.transmitted (m : Msg) : List UInt8 := m.writer.bytes m.writer.xmit

def Event.transmitted : Event → List UInt8
  | released m _ => m.transmitted
  | _ => []

def headTransmitted : List Wrapper → List UInt8
  | [] => []
  | wrapper :: _ => wrapper.msg.transmitted

/-- A frame that is on the wire from end to end or not at all. -/
def Frame.Settled (w : Frame .writer) : Prop := w.xmit = 0 ∨ w.xmit = w.length

/-- The frame of the message is the frame of a request that was posted. -/
def FromPost (log : List Event) (m : Msg) : Prop :=
  ∃ flags m₀, .posted flags m₀ ∈ log ∧ m₀.serial = m.serial ∧
    m.writer = { m₀.writer with xmit := m.writer.xmit }

/-- The stream of a connection during which `δ` happened: complete frames of posted requests
in the order in which they left the head, and behind them what is out of the head. -/
structure Framed (c : Context) (δ : List Event) : Prop where
  stream : bytesWritten δ = δ.flatMap Event.transmitted ++ headTransmitted c.queue
  settled : ∀ m error, .released m error ∈ δ → m.writer.Settled
  posted : ∀ m error, .released m error ∈ δ → FromPost c.log m
  queue : ∀ wrapper ∈ c.queue, FromPost c.log wrapper.msg

theorem Event.Silent.transmitted {e : Event} (h : e.Silent) : e.transmitted = [] := by
  cases e <;> first | rfl | exact absurd h id

theorem transmitted_silent {δ : List Event} (h : ∀ e ∈ δ, e.Silent) :
    δ.flatMap Event.transmitted = [] :=
  List.flatMap_eq_nil_iff.2 fun e he => (h e he).transmitted

theorem Told.transmitted {c : Context} {flags : Flags} {m : Msg} {told : List Event}
    (h : Told c flags m told) : told.flatMap Event.transmitted = [] ∧ bytesWritten told = [] := by
  rcases h with ⟨report, rfl⟩ | ⟨hsilent, -⟩
  · exact ⟨rfl, rfl⟩
  · exact ⟨transmitted_silent hsilent, bytesWritten_silent hsilent⟩

theorem Told.not_released {c : Context} {flags : Flags} {m : Msg} {told : List Event}
    (h : Told c flags m told) (m' : Msg) (error : ℤ) : .released m' error ∉ told := by
  rcases h with ⟨report, rfl⟩ | ⟨hsilent, -⟩
  · exact fun hmem => absurd (List.mem_singleton.1 hmem) (by simp)
  · exact fun hmem => hsilent _ hmem

theorem transmitted_of_unsent {m : Msg} (h : m.writer.xmit = 0) : m.transmitted = [] := by
  rw [Msg.transmitted, h]
  rfl

/-- Behind a head only untouched requests wait, so the next head starts with nothing. -/
theorem headTransmitted_waiting {t : Transport} {queue : List Wrapper}
    (h : ∀ wrapper ∈ queue, Posted t wrapper.msg) : headTransmitted queue = [] := by
  cases queue with
  | nil => rfl
  | cons wrapper rest => exact transmitted_of_unsent (h wrapper (List.mem_cons_self ..)).unsent

/-- Serving a message adds to the stream what it adds to the part that is out. -/
theorem Served.stream {G : Prop} {c : Context} {m : Msg} {s : WriteRead} (h : Served G c m s) :
    ∃ δ, s.ctx.log = c.log ++ δ ∧ δ.flatMap Event.transmitted = [] ∧
      (∀ m' error, .released m' error ∉ δ) ∧ m.transmitted ++ bytesWritten δ = s.msg.transmitted ∧
      s.msg.writer = { m.writer with xmit := s.msg.writer.xmit } := by
  obtain ⟨quiet, sent, n, hlog, hquiet, hsent, hwriter, -⟩ := h.moved
  refine ⟨quiet ++ sent, by rw [hlog, List.append_assoc], ?_, ?_, ?_, ?_⟩
  · rw [List.flatMap_append, transmitted_silent hquiet]
    rcases hsent with ⟨rfl, -⟩ | ⟨unread, rfl⟩ <;> rfl
  · intro m' error hmem
    rcases List.mem_append.1 hmem with hmem | hmem
    · exact hquiet _ hmem
    · rcases hsent with ⟨rfl, -⟩ | ⟨unread, rfl⟩
      · exact absurd hmem List.not_mem_nil
      · exact absurd (List.mem_singleton.1 hmem) (by simp)
  · rw [bytesWritten_append, bytesWritten_silent hquiet, hsent.bytes, Msg.transmitted,
      Msg.transmitted, hwriter]
    simp only [Frame.bytes, List.range_add, List.map_append, List.map_map]
    rfl
  · rw [hwriter]

theorem FromPost.append {log δ : List Event} {m : Msg} (h : FromPost log m) :
    FromPost (log ++ δ) m := by
  obtain ⟨flags, m₀, hmem, hserial, hwriter⟩ := h
  exact ⟨flags, m₀, List.mem_append_left _ hmem, hserial, hwriter⟩

theorem FromPost.moved {log : List Event} {m m' : Msg} (h : FromPost log m)
    (hserial : m'.serial = m.serial) (hwriter : m'.writer = { m.writer with xmit := m'.writer.xmit }) :
    FromPost log m' := by
  obtain ⟨flags, m₀, hmem, hserial₀, hwriter₀⟩ := h
  refine ⟨flags, m₀, hmem, hserial₀.trans hserial.symm, ?_⟩
  rw [hwriter₀] at hwriter
  exact hwriter

variable {R : Msg → Prop} {G : Prop}

/-- During `δ` the bytes written turn what was out of the old head into what the released
requests had transmitted and what is out of the new head. -/
def Balanced (R : Msg → Prop) (c c' : Context) (δ : List Event) : Prop :=
  headTransmitted c.queue ++ bytesWritten δ =
      δ.flatMap Event.transmitted ++ headTransmitted c'.queue ∧
    ∀ m error, .released m error ∈ δ → R m

theorem Balanced.trans {c₁ c₂ c₃ : Context} {δ₁ δ₂ : List Event} (h₁ : Balanced R c₁ c₂ δ₁)
    (h₂ : Balanced R c₂ c₃ δ₂) : Balanced R c₁ c₃ (δ₁ ++ δ₂) := by
  refine ⟨?_, fun m error hmem => ?_⟩
  · rw [bytesWritten_append, ← List.append_assoc, h₁.1, List.append_assoc, h₂.1,
      List.flatMap_append, List.append_assoc]
  · rcases List.mem_append.1 hmem with hmem | hmem
    · exact h₁.2 m error hmem
    · exact h₂.2 m error hmem

/-- Events that neither write nor release are balanced when the head stays. -/
theorem balanced_idle {c c' : Context} {δ : List Event} (hbytes : bytesWritten δ = [])
    (htransmitted : δ.flatMap Event.transmitted = []) (hreleased : ∀ m error, .released m error ∉ δ)
    (hhead : headTransmitted c'.queue = headTransmitted c.queue) : Balanced R c c' δ := by
  refine ⟨?_, fun m error hmem => absurd hmem (hreleased m error)⟩
  rw [hbytes, htransmitted, hhead, List.append_nil, List.nil_append]

theorem headTransmitted_enqueue {t : Transport} {queue : List Wrapper} {wrapper : Wrapper}
    (h : Posted t wrapper.msg) : headTransmitted (enqueue queue wrapper) = headTransmitted queue := by
  cases queue with
  | nil => exact transmitted_of_unsent h.unsent
  | cons head rest =>
    obtain ⟨rest', henqueue, -⟩ := enqueue_cons head rest wrapper
    rw [henqueue]
    rfl

theorem QueueStep.balanced {c c' : Context}
    (h : QueueStep (fun m _ _ => R m) G c c') (hc : WellFormed c) :
    ∃ δ, c'.log = c.log ++ δ ∧ Balanced R c c' δ := by
  cases h with
  | quiet h =>
    obtain ⟨δ, hlog, hδ⟩ := h.log
    exact ⟨δ, hlog, balanced_idle (bytesWritten_silent hδ) (transmitted_silent hδ)
      (fun m error hmem => hδ _ hmem) (by rw [h.queue])⟩
  | @enter m flags hreader slaveId request hbuild =>
    refine ⟨[_], rfl, balanced_idle rfl rfl (fun m error hmem => ?_) ?_⟩
    · exact absurd (List.mem_singleton.1 hmem) (by simp)
    · rw [postInternal_queue]
      exact headTransmitted_enqueue (posted_enter hreader hbuild)
  | @stay wrapper rest hq s hs since =>
    obtain ⟨δ, hlog, htransmitted, hreleased, hout, -⟩ := hs.stream
    refine ⟨δ, hlog, ?_, fun m error hmem => absurd hmem (hreleased m error)⟩
    rw [hq, htransmitted]
    exact hout
  | @leave wrapper rest hq s hs m hw _ _ _ hrest _ _ error hP hlog =>
    obtain ⟨quiet, told, after, hlog, hquiet, htold, hafter⟩ := hlog
    obtain ⟨δ, hserved, htransmitted, hreleased, hout, -⟩ := hs.stream
    refine ⟨δ ++ quiet ++ told ++ [.released m error] ++ after, ?_, ?_, fun m' error' hmem => ?_⟩
    · rw [hlog, hserved]
      simp only [List.append_assoc]
    · have hnext : headTransmitted rest = [] := by
        refine headTransmitted_waiting (t := c.transport) fun w hmem => hc.waiting w ?_
        rw [hq]
        exact hmem
      have hlast : m.transmitted = s.msg.transmitted := by
        rw [Msg.transmitted, Msg.transmitted, hw]
      simp only [bytesWritten_append, List.flatMap_append, bytesWritten_silent hquiet,
        transmitted_silent hquiet, bytesWritten_silent hafter, transmitted_silent hafter,
        htold.transmitted, htransmitted, hq, hrest, hnext, List.append_nil, List.nil_append]
      change wrapper.msg.transmitted ++ (bytesWritten δ ++ []) = m.transmitted ++ []
      rw [List.append_nil, List.append_nil, hout, hlast]
    · simp only [List.mem_append, List.mem_singleton] at hmem
      rcases hmem with (((hmem | hmem) | hmem) | hmem) | hmem
      · exact absurd hmem (hreleased m' error')
      · exact absurd (hquiet _ hmem) id
      · exact absurd hmem (htold.not_released m' error')
      · obtain ⟨rfl, -⟩ := Event.released.inj hmem
        exact hP
      · exact absurd (hafter _ hmem) id

theorem QueueSteps.balanced {c c' : Context}
    (h : QueueSteps (fun m _ _ => R m) G c c') (hc : WellFormed c) :
    ∃ δ, c'.log = c.log ++ δ ∧ Balanced R c c' δ := by
  induction h with
  | refl =>
    exact ⟨[], (List.append_nil _).symm, balanced_idle rfl rfl (fun _ _ => List.not_mem_nil) rfl⟩
  | @tail c₁ c₂ h hstep ih =>
    obtain ⟨δ₁, hlog₁, hδ₁⟩ := ih
    obtain ⟨δ₂, hlog₂, hδ₂⟩ := hstep.balanced (QueueSteps.wellFormed h hc)
    exact ⟨δ₁ ++ δ₂, by rw [hlog₂, hlog₁, List.append_assoc], hδ₁.trans hδ₂⟩

/-- Every frame in the queue and every frame that left it is one that was posted. -/
structure Traced (c : Context) : Prop where
  queue : ∀ wrapper ∈ c.queue, FromPost c.log wrapper.msg
  released : ∀ m error, .released m error ∈ c.log → FromPost c.log m

/-- A step that adds `δ` to the record, of which every release is of a frame that was posted. -/
theorem Traced.extend {c c' : Context} {δ : List Event} (h : Traced c) (hlog : c'.log = c.log ++ δ)
    (hqueue : ∀ wrapper ∈ c'.queue, FromPost c'.log wrapper.msg)
    (hreleased : ∀ m error, .released m error ∈ δ → FromPost c.log m) : Traced c' := by
  refine ⟨hqueue, fun m error hmem => ?_⟩
  rw [hlog] at hmem ⊢
  rcases List.mem_append.1 hmem with hold | hnew
  · exact (h.released m error hold).append
  · exact (hreleased m error hnew).append

theorem QueueStep.traced {P : Msg → ℤ → Bool → Prop} {c c' : Context} (h : QueueStep P G c c')
    (hc : Traced c) : Traced c' := by
  cases h with
  | quiet h =>
    obtain ⟨δ, hlog, hδ⟩ := h.log
    refine hc.extend hlog ?_ fun m error hmem => absurd (hδ _ hmem) id
    intro wrapper hmem
    rw [hlog]
    exact (hc.queue wrapper (h.queue ▸ hmem)).append
  | @enter m flags =>
    have hlog : ∃ m', (postInternal c m flags).log = c.log ++ [.posted flags m'] ∧
        (postInternal c m flags).queue = enqueue c.queue ⟨flags, 0, m'⟩ := ⟨_, rfl, rfl⟩
    obtain ⟨m', hlog, hqueue⟩ := hlog
    refine hc.extend hlog ?_ fun m error hmem => absurd (List.mem_singleton.1 hmem) (by simp)
    intro wrapper hmem
    rw [hqueue, mem_enqueue] at hmem
    rw [hlog]
    rcases hmem with hmem | rfl
    · exact (hc.queue wrapper hmem).append
    · exact ⟨flags, m', List.mem_append_right _ (List.mem_singleton.2 rfl), rfl, rfl⟩
  | @stay wrapper rest hq s hs since =>
    obtain ⟨δ, hlog, -, hreleased, -, hwriter⟩ := hs.stream
    refine hc.extend hlog ?_ fun m error hmem => absurd hmem (hreleased m error)
    intro w hmem
    change FromPost s.ctx.log w.msg
    rw [hlog]
    rcases List.mem_cons.1 hmem with rfl | hmem
    · have hold := hc.queue wrapper (by rw [hq]; exact List.mem_cons_self ..)
      exact (hold.moved hs.serial hwriter).append
    · exact (hc.queue w (by rw [hq]; exact List.mem_cons_of_mem _ hmem)).append
  | @leave wrapper rest hq s hs m hw hserial _ _ hrest _ _ error _ hlog =>
    obtain ⟨quiet, told, after, hlog, hquiet, htold, hafter⟩ := hlog
    obtain ⟨δ, hserved, -, hreleased, -, hwriter⟩ := hs.stream
    have hgrown : c'.log = c.log ++ (δ ++ quiet ++ told ++ [.released m error] ++ after) := by
      rw [hlog, hserved]
      simp only [List.append_assoc]
    have hold := hc.queue wrapper (by rw [hq]; exact List.mem_cons_self ..)
    refine hc.extend hgrown ?_ fun m' error' hmem => ?_
    · intro w hmem
      rw [hgrown]
      exact (hc.queue w (by rw [hq]; exact List.mem_cons_of_mem _ (hrest ▸ hmem))).append
    · simp only [List.mem_append, List.mem_singleton] at hmem
      rcases hmem with (((hmem | hmem) | hmem) | hmem) | hmem
      · exact absurd hmem (hreleased m' error')
      · exact absurd (hquiet _ hmem) id
      · exact absurd hmem (htold.not_released m' error')
      · obtain ⟨rfl, -⟩ := Event.released.inj hmem
        exact hold.moved (hserial.trans hs.serial) (by rw [hw]; exact hwriter)
      · exact absurd (hafter _ hmem) id

theorem QueueSteps.traced {P : Msg → ℤ → Bool → Prop} {c c' : Context} (h : QueueSteps P G c c')
    (hc : Traced c) : Traced c' := by
  induction h with
  | refl => exact hc
  | tail _ h ih => exact h.traced ih

theorem Fresh.traced {c : Context} (h : Fresh c) : Traced c where
  queue := by simp [h.queue]
  released := by simp [h.log]

/-- A call of the loop functions, or one that changes what they have to do. The connection is
neither given up nor replaced, and `send()` does not fail. -/
def OnConnection (c : Context) (env : Env) : Call → Prop
  | .writeRead _ => c.connected ∧ env.sent ≠ .error
  | .reset | .connect _ | .close => False
  | _ => True

/-- `modbusmq_loop_prepare` does not time out a head of which a part is out. -/
def SparesPartial (c : Context) (env : Env) : Call → Prop
  | .prepare _ => ∀ wrapper, c.queue.head? = some wrapper → TimesOut c wrapper env →
      wrapper.msg.writer.Settled
  | _ => True

/-- Without a failing `send()` a request leaves in `modbusmq_loop_write_read` before its
first byte is out or after its last one. -/
theorem handleWriteRead_settled {c : Context} {m : Msg} {revents : Revents} {env : Env}
    (h : Underway c.transport m) (hconn : c.connected) (hsent : env.sent ≠ .error)
    (hrc : (handleWriteRead c m revents env).rc ≤ 0) :
    (handleWriteRead c m revents env).msg.writer.Settled := by
  have hout := handleWriteRead_outcome revents env h
  generalize handleWriteRead c m revents env = s at hout hrc
  cases hout with
  | waits hpos => exact absurd hrc (not_le.2 hpos)
  | complete hwhole => exact .inr hwhole
  | writing _ _ hwrite =>
    cases hwrite with
    | gap hunsent => exact .inl hunsent
    | failed herror =>
      rw [sendResult, if_pos hconn] at herror
      exact absurd herror hsent
    | part _ _ hpos => exact absurd hrc (not_le.2 hpos)
    | broadcast _ hwhole => exact .inr hwhole
    | whole _ _ _ hpos => exact absurd hrc (not_le.2 hpos)
  | reading _ hwhole _ _ hread => cases hread <;> exact .inr hwhole

theorem leaves_settled {c : Context} {env : Env} {call : Call} (hc : WellFormed c)
    (hon : OnConnection c env call) (hspares : SparesPartial c env call) {m : Msg} {error : ℤ}
    {pending : Bool} (h : Leaves c env call m error pending) : m.writer.Settled := by
  cases h with
  | timeout hhead hout => exact hspares _ hhead hout
  | @ends wrapper _ _ _ _ hhead hends =>
    rw [hends.writer]
    exact handleWriteRead_settled (hc.head wrapper hhead).underway hon.1 hon.2 hends.rc_le
  | dropped => exact hon.elim

/-- From a state in which nothing of the queue is out, a run on one connection whose timeouts
spare partly transmitted heads keeps the stream framed. -/
theorem run_framed {c₀ : Context} (hfresh : Fresh c₀) (before : List (Call × Env))
    (hstart : ∀ wrapper ∈ (run before c₀).queue, wrapper.msg.writer.xmit = 0)
    (calls : List (Call × Env)) (hon : Along OnConnection calls (run before c₀))
    (hspares : Along SparesPartial calls (run before c₀)) :
    ∃ δ, (run (before ++ calls) c₀).log = (run before c₀).log ++ δ ∧
      Framed (run (before ++ calls) c₀) δ := by
  have hc := run_wellFormed hfresh.wellFormed before
  have hsteps : QueueSteps (fun m _ _ => m.writer.Settled) False (run before c₀)
      (run calls (run before c₀)) :=
    run_steps_along (fun hc h => leaves_settled hc h.1 h.2) hc (hon.and hspares)
  have htraced : Traced (run calls (run before c₀)) :=
    QueueSteps.traced hsteps (QueueSteps.traced (run_steps hfresh.wellFormed before) hfresh.traced)
  obtain ⟨δ, hlog, hstream, hsettled⟩ := QueueSteps.balanced hsteps hc
  have hnone : headTransmitted (run before c₀).queue = [] := by
    cases hq : (run before c₀).queue with
    | nil => rfl
    | cons wrapper rest =>
      exact transmitted_of_unsent (hstart wrapper (by rw [hq]; exact List.mem_cons_self ..))
  rw [hnone, List.nil_append] at hstream
  rw [run_append]
  refine ⟨δ, hlog, hstream, hsettled, fun m error hmem => ?_, htraced.queue⟩
  exact htraced.released m error (by rw [hlog]; exact List.mem_append_right _ hmem)

def openedContext : Context := { sampleContext .tcp [] with frameTimeoutMs := 500 }

def piecewiseCalls : List (Call × Env) :=
  [(.post 1 (.writeRegister 7 42), atTime 1000), (.prepare 100, atTime 1000),
    (.writeRead ⟨false, true, false, false⟩, { atTime 1000 with sent := .accepted 5 }),
    (.writeRead ⟨false, true, false, false⟩, atTime 1010)]

theorem run_framed_example :
    ∃ δ, (run piecewiseCalls openedContext).log = δ ∧ Framed (run piecewiseCalls openedContext) δ ∧
      (bytesWritten δ).length = 12 := by
  have hspares : Along SparesPartial piecewiseCalls openedContext := by
    refine ⟨trivial, fun wrapper hhead _ => ?_, trivial, trivial, trivial⟩
    cases hhead
    exact .inl rfl
  have hfresh : Fresh openedContext := ⟨rfl, rfl, rfl, rfl⟩
  obtain ⟨δ, hlog, hframed⟩ := run_framed hfresh []
    (fun wrapper hmem => absurd hmem List.not_mem_nil) piecewiseCalls
    ⟨trivial, trivial, ⟨rfl, by decide⟩, ⟨rfl, by decide⟩, trivial⟩ hspares
  refine ⟨δ, hlog, hframed, ?_⟩
  rw [← List.nil_append δ]
  change (bytesWritten ((run [] openedContext).log ++ δ)).length = 12
  rw [← hlog]
  decide +kernel

/-- Five bytes of a request are out when it times out, and the next request follows them. -/
def truncatedCalls : List (Call × Env) :=
  [(.post 1 (.writeRegister 7 42), atTime 1000), (.prepare 100, atTime 1000),
    (.writeRead ⟨false, true, false, false⟩, { atTime 1000 with sent := .accepted 5 }),
    (.prepare 100, atTime 2000), (.post 1 (.writeRegister 7 43), atTime 2000),
    (.writeRead ⟨false, true, false, false⟩, atTime 2000)]

theorem timeout_breaks_framing :
    ¬ ∀ (c₀ : Context) (before calls : List (Call × Env)), Fresh c₀ → c₀.transport = .tcp →
      (∀ wrapper ∈ (run before c₀).queue, wrapper.msg.writer.xmit = 0) →
        Along OnConnection calls (run before c₀) →
          ∃ δ, (run (before ++ calls) c₀).log = (run before c₀).log ++ δ ∧
            Framed (run (before ++ calls) c₀) δ := by
  intro hall
  obtain ⟨δ, hlog, hframed⟩ := hall openedContext [] truncatedCalls ⟨rfl, rfl, rfl, rfl⟩ rfl
    (fun wrapper hmem => absurd hmem List.not_mem_nil)
    ⟨trivial, trivial, ⟨rfl, by decide⟩, trivial, trivial, ⟨rfl, by decide⟩, trivial⟩
  obtain ⟨m, error, hreleased, hxmit, hlength⟩ : ∃ m error,
      Event.released m error ∈ (run truncatedCalls openedContext).log ∧
        m.writer.xmit = 5 ∧ m.writer.length = 12 :=
    ⟨_, _, List.mem_of_getElem? (i := 2) rfl, rfl, rfl⟩
  have hsettled := hframed.settled m error (by
    rw [← List.nil_append δ]
    exact hlog ▸ hreleased)
  rcases hsettled with h | h
  · rw [hxmit] at h
    exact absurd h (by decide)
  · rw [hxmit, hlength] at h
    exact absurd h (by decide)

end Modbusmq
