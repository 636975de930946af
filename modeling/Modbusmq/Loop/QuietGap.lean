import Modbusmq.Loop.Run

/-!
# The quiet gap

No request may start inside the gap of `modbusmq.frame_delay_ms` after an answer
or a timeout. A call without POLLOUT waits, and the head goes out after the gap.
A call with POLLOUT does not write either, but the write half then returns 0,
which `modbusmq_loop_write_read` takes for a complete exchange: the head leaves
the queue without having been sent.
-/

namespace Modbusmq

/-- The gap is over and the descriptor takes bytes. -/
structure MayTransmit (c : Context) (revents : Revents) (env : Env) : Prop where
  ready : revents.pollout
  connected : c.connected
  elapsed : frameDelayLeft c (env.clock .gap) = 0
  takes : ∃ k, 0 < k ∧ env.sent = .accepted k

/-- The call leaves the queue and its head as they are and does nothing, neither to the
descriptor nor to the application, and a later call that may transmit the head does. -/
structure HoldsBack (c : Context) (head : Wrapper) (revents : Revents) (env : Env) : Prop where
  queue : (loopWriteRead c revents env).2.queue = c.queue
  log : (loopWriteRead c revents env).2.log = c.log
  later : ∀ revents' env', MayTransmit (loopWriteRead c revents env).2 revents' env' →
    ∃ n unread, 0 < n ∧ .wrote head.msg.serial head.msg.writer n unread ∈
      (loopWriteRead (loopWriteRead c revents env).2 revents' env').2.log

/-- Whatever `modbusmq_handle_msg` decides, the head leaves and nothing of the record is
lost. -/
theorem handleMsg_leaves (c : Context) (wrapper : Wrapper) (env : Env) :
    (handleMsg c wrapper env).2.queue = c.queue.tail ∧
      ∀ e ∈ c.log, e ∈ (handleMsg c wrapper env).2.log := by
  have htell : ∀ {c₁ c₂ : Context} {m : Msg}, Telling wrapper.flags m c₁ c₂ → ∀ error,
      (dropHead c₂ m error).queue = c₁.queue.tail ∧
        ∀ e ∈ c₁.log, e ∈ (dropHead c₂ m error).log := by
    intro c₁ c₂ m h error
    obtain ⟨told, hlog, -⟩ := h.log
    refine ⟨congrArg List.tail h.queue, fun e he => ?_⟩
    change e ∈ c₂.log ++ [_]
    rw [hlog]
    exact List.mem_append_left _ (List.mem_append_left _ he)
  unfold handleMsg
  dsimp only
  split_ifs
  · obtain ⟨hqueue, hlog⟩ := htell (reportError_telling _ wrapper.flags _ _ env) _
    exact ⟨hqueue, fun e he => hlog e (List.mem_append_left _ he)⟩
  · exact htell (reportAnswer_telling _ wrapper.flags _ env) 0

/-- The record only grows in a call that serves the head. -/
theorem loopWriteRead_log {c : Context} {wrapper : Wrapper} {rest : List Wrapper}
    (hq : c.queue = wrapper :: rest) (revents : Revents) (env : Env) :
    ∀ e ∈ (handleWriteRead c wrapper.msg revents env).ctx.log,
      e ∈ (loopWriteRead c revents env).2.log := by
  intro e he
  have hfail : ∀ {c₁ : Context} {m : Msg} {error : ℤ},
      e ∈ c₁.log → e ∈ (dropHead (reportError c₁ m error env) m error).log := by
    intro c₁ m error hmem
    obtain ⟨told, hlog, -⟩ := (reportError_telling c₁ wrapper.flags m error env).log
    change e ∈ (reportError c₁ m error env).log ++ [_]
    rw [hlog]
    exact List.mem_append_left _ (List.mem_append_left _ hmem)
  unfold loopWriteRead
  rw [hq]
  dsimp only
  split_ifs
  · exact (handleMsg_leaves _ _ env).2 e he
  · exact hfail he
  · exact hfail he
  · exact hfail he
  · exact he

variable {c : Context} {wrapper : Wrapper} {rest : List Wrapper} {revents : Revents} {env : Env}

/-- A request of which no byte is sent is still to be sent. -/
theorem Underway.sending {t : Transport} {m : Msg} (h : Underway t m) (hunsent : m.writer.xmit = 0) :
    Sending t m := by
  rcases h.stage with hsend | ⟨hsent, -⟩
  · exact hsend
  · have hheader := h.request.header
    have hpos : 0 < t.reqHeaderMin := by cases t <;> decide
    omega

/-- In the gap the head is taken for complete as soon as the descriptor is writable. -/
theorem loopWriteRead_gap_pollout (hq : c.queue = wrapper :: rest)
    (hhead : Underway c.transport wrapper.msg) (hunsent : wrapper.msg.writer.xmit = 0)
    (hgap : 0 < frameDelayLeft c (env.clock .gap)) (hready : revents.pollout) :
    (loopWriteRead c revents env).2.queue = rest := by
  have hopen := (hhead.sending hunsent).unsent
  have hincomplete : frameIncomplete c.transport wrapper.msg.writer ≠ 0 := by
    rw [ne_eq, frameIncomplete_writer hhead.request]
    omega
  have hgiven : handleWriteRead c wrapper.msg revents env = ⟨0, c, wrapper.msg⟩ := by
    rw [handleWriteRead, if_pos hincomplete, if_pos hready, writeHalf, if_pos ⟨hunsent, hgap⟩]
  unfold loopWriteRead
  rw [hq]
  dsimp only
  rw [hgiven, if_pos rfl, (handleMsg_leaves _ _ env).1]
  rfl

/-- Without POLLOUT a head that is still to be sent waits, in the gap or not. -/
theorem loopWriteRead_waits (hq : c.queue = wrapper :: rest)
    (hhead : Underway c.transport wrapper.msg) (hunsent : wrapper.msg.writer.xmit = 0)
    (hready : ¬ revents.pollout) : (loopWriteRead c revents env).2 = c := by
  have hsend := hhead.sending hunsent
  obtain ⟨rc, hrc, hpos⟩ : ∃ rc : ℤ,
      handleWriteRead c wrapper.msg revents env = ⟨rc, c, wrapper.msg⟩ ∧ 0 < rc := by
    have hout := handleWriteRead_outcome revents env hhead
    generalize handleWriteRead c wrapper.msg revents env = s at hout
    cases hout with
    | waits hrc => exact ⟨_, rfl, hrc⟩
    | complete hsent => exact absurd hsend.unsent hsent.not_lt
    | writing hpollout => exact absurd hpollout hready
    | reading _ hsent => exact absurd hsend.unsent hsent.not_lt
  have hsame : { c with queue := { wrapper with msg := wrapper.msg } :: rest } = c := by
    rw [← hq]
  unfold loopWriteRead
  rw [hq]
  dsimp only
  rw [hrc]
  dsimp only
  rw [if_neg hpos.ne', if_neg, if_neg, if_neg (not_lt.2 hpos.le)]
  · exact hsame
  · exact fun h => absurd (h ▸ hpos) (by decide)
  · exact fun h => absurd (h ▸ hpos) (by decide)

theorem loopWriteRead_transmits (hq : c.queue = wrapper :: rest)
    (hhead : Underway c.transport wrapper.msg) (hunsent : wrapper.msg.writer.xmit = 0)
    (hmay : MayTransmit c revents env) :
    ∃ n unread, 0 < n ∧
      .wrote wrapper.msg.serial wrapper.msg.writer n unread ∈ (loopWriteRead c revents env).2.log := by
  have hsend := hhead.sending hunsent
  obtain ⟨k, hk, hsent⟩ := hmay.takes
  have hresult : sendResult c env = .accepted k := by
    rw [sendResult, if_pos hmay.connected, hsent]
  have hwindow := Frame.window_eq hsend.unsent.le hhead.request.fits
  have hopen := hsend.unsent
  have haccepted : accepted (beforeWrite c wrapper.msg env) wrapper.msg env =
      min k wrapper.msg.writer.window := by
    rw [accepted, sendResult_beforeWrite, hresult]
  refine ⟨min k wrapper.msg.writer.window, (beforeWrite c wrapper.msg env).input.length, by omega,
    loopWriteRead_log hq revents env _ ?_⟩
  have hnoted : .wrote wrapper.msg.serial wrapper.msg.writer (min k wrapper.msg.writer.window)
      (beforeWrite c wrapper.msg env).input.length ∈ (afterWrite c wrapper.msg env).log := by
    rw [← haccepted]
    exact List.mem_append_right _ (List.mem_singleton.2 rfl)
  have hout := handleWriteRead_outcome revents env hhead
  generalize handleWriteRead c wrapper.msg revents env = s at hout
  cases hout with
  | waits _ hwrite => exact absurd hmay.ready (hwrite hsend.unsent)
  | complete hsent => exact absurd hsend.unsent hsent.not_lt
  | reading _ hsent => exact absurd hsend.unsent hsent.not_lt
  | writing _ _ hwrite =>
    cases hwrite with
    | gap _ hgap =>
      rw [hmay.elapsed] at hgap
      exact absurd hgap (by decide)
    | failed h => exact absurd (hresult.symm.trans h) (by simp)
    | part => exact hnoted
    | broadcast => exact hnoted
    | whole => exact hnoted

/-- In every reachable state whose head is unsent and waits for the gap, a call holds the
head back exactly when it is made without POLLOUT. -/
theorem holdsBack_iff_not_pollout {c₀ : Context} (hfresh : Fresh c₀) (calls : List (Call × Env))
    (hq : (run calls c₀).queue = wrapper :: rest) (hunsent : wrapper.msg.writer.xmit = 0)
    (hgap : 0 < frameDelayLeft (run calls c₀) (env.clock .gap)) :
    HoldsBack (run calls c₀) wrapper revents env ↔ ¬ revents.pollout := by
  have hhead : Underway (run calls c₀).transport wrapper.msg :=
    ((run_wellFormed hfresh.wellFormed calls).head wrapper (by rw [hq]; rfl)).underway
  constructor
  · intro hholds hready
    have hqueue := hholds.queue
    rw [loopWriteRead_gap_pollout hq hhead hunsent hgap hready, hq] at hqueue
    exact absurd hqueue (List.cons_ne_self wrapper rest).symm
  · intro hready
    have hsame : (loopWriteRead _ revents env).2 = _ :=
      loopWriteRead_waits hq hhead hunsent hready
    refine ⟨by rw [hsame], by rw [hsame], fun revents' env' hmay => ?_⟩
    rw [hsame] at hmay ⊢
    exact loopWriteRead_transmits hq hhead hunsent hmay

def delayedContext : Context :=
  { newContext .rtu with
    connected := true
    frameTimeoutMs := 500
    config := some { (newContext .rtu).processConfig with frameDelayMs := 50 } }

/-- A write to slave 1 goes out and is not answered, and another one is posted. -/
def delayedCalls : List (Call × Env) :=
  [(.post 1 (.writeRegister 7 42), atTime 1000),
    (.writeRead ⟨false, true, false, false⟩, atTime 1000),
    (.prepare 100, atTime 2000),
    (.post 1 (.writeRegister 7 43), atTime 2000)]

/-- The next request waits for the gap after that timeout. -/
theorem holdsBack_iff_not_pollout_example :
    ∃ head, HoldsBack (run delayedCalls delayedContext) head ⟨false, false, false, false⟩
      (atTime 2010) := by
  obtain ⟨head, hq, hunsent⟩ : ∃ head, (run delayedCalls delayedContext).queue = [head] ∧
      head.msg.writer.xmit = 0 := ⟨_, rfl, rfl⟩
  exact ⟨head, (holdsBack_iff_not_pollout ⟨rfl, rfl, rfl, rfl⟩ delayedCalls hq hunsent
    (by decide +kernel)).2 (by decide)⟩

/-- Ten milliseconds into the gap POLLOUT takes the request out of the queue. -/
theorem gap_pollout_drops_head :
    ¬ ∀ (c₀ : Context) (calls : List (Call × Env)) (wrapper : Wrapper) (rest : List Wrapper)
      (revents : Revents) (env : Env), Fresh c₀ → (run calls c₀).queue = wrapper :: rest →
        wrapper.msg.writer.xmit = 0 → 0 < frameDelayLeft (run calls c₀) (env.clock .gap) →
          HoldsBack (run calls c₀) wrapper revents env := by
  intro hall
  obtain ⟨head, hq, hunsent⟩ : ∃ head, (run delayedCalls delayedContext).queue = [head] ∧
      head.msg.writer.xmit = 0 := ⟨_, rfl, rfl⟩
  have hholds := hall delayedContext delayedCalls head [] ⟨false, true, false, false⟩ (atTime 2010)
    ⟨rfl, rfl, rfl, rfl⟩ hq hunsent (by decide +kernel)
  have hlength := congrArg List.length hholds.queue
  exact absurd hlength (by decide +kernel)

end Modbusmq
