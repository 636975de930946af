import Modbusmq.Loop.Polling

/-!
# Serving the head

`modbusmq_handle_write_read` reads, writes and drains. It touches the buffers, the
times and the counters of the context and the two frames of its message, and
nothing else.
-/

namespace Modbusmq

def Event.Io : Event → Prop
  | wrote _ _ _ _ | read _ _ | flushed => True
  | _ => False

/-- Only bytes were moved between two contexts. -/
def OnlyIo (c c' : Context) : Prop :=
  ∃ (lastWriteMs lastReadMs : Millitime) (resyncPending : Bool) (tx rx err : UInt32)
    (input : List UInt8) (δ : List Event), (∀ e ∈ δ, e.Io) ∧
      c' = { c with
        lastWriteMs := lastWriteMs
        lastReadMs := lastReadMs
        resyncPending := resyncPending
        tx := tx
        rx := rx
        err := err
        input := input
        log := c.log ++ δ }

/-- Only the frames of a message changed. -/
structure SameMsg (m m' : Msg) : Prop where
  msgId : m'.msgId = m.msgId
  reqId : m'.reqId = m.reqId
  serial : m'.serial = m.serial

theorem SameMsg.refl (m : Msg) : SameMsg m m := ⟨rfl, rfl, rfl⟩

theorem SameMsg.trans {m₁ m₂ m₃ : Msg} (h : SameMsg m₁ m₂) (h' : SameMsg m₂ m₃) :
    SameMsg m₁ m₃ :=
  ⟨h'.msgId.trans h.msgId, h'.reqId.trans h.reqId, h'.serial.trans h.serial⟩

theorem onlyIo_of_event {c c' : Context} (δ : List Event) (hδ : ∀ e ∈ δ, e.Io)
    (h : c' = { c with
      lastWriteMs := c'.lastWriteMs
      lastReadMs := c'.lastReadMs
      resyncPending := c'.resyncPending
      tx := c'.tx
      rx := c'.rx
      err := c'.err
      input := c'.input
      log := c.log ++ δ }) : OnlyIo c c' :=
  ⟨_, _, _, _, _, _, _, δ, hδ, h⟩

theorem OnlyIo.refl (c : Context) : OnlyIo c c :=
  onlyIo_of_event [] (by simp) (by rw [List.append_nil])

theorem OnlyIo.trans {c₁ c₂ c₃ : Context} (h : OnlyIo c₁ c₂) (h' : OnlyIo c₂ c₃) :
    OnlyIo c₁ c₃ := by
  obtain ⟨_, _, _, _, _, _, _, δ, hδ, rfl⟩ := h
  obtain ⟨lw, lr, rp, tx, rx, err, input, δ', hδ', rfl⟩ := h'
  refine ⟨lw, lr, rp, tx, rx, err, input, δ ++ δ', ?_, by rw [← List.append_assoc]⟩
  intro e he
  rcases List.mem_append.1 he with he | he
  · exact hδ e he
  · exact hδ' e he

theorem stamp_io (c : Context) (resyncPending : Bool) (tx rx err : UInt32)
    (lastWriteMs lastReadMs : Millitime) : OnlyIo c { c with
      resyncPending := resyncPending, tx := tx, rx := rx, err := err,
      lastWriteMs := lastWriteMs, lastReadMs := lastReadMs } :=
  onlyIo_of_event [] (by simp) (by rw [List.append_nil])

/-- A step of the head that only moved bytes. -/
structure Moved (c : Context) (m : Msg) (s : WriteRead) : Prop where
  ctx : OnlyIo c s.ctx
  msg : SameMsg m s.msg

theorem Moved.finish {c c' : Context} {m m' : Msg} (rc : ℤ) (h : OnlyIo c c') (hm : SameMsg m m') :
    Moved c m (finish rc c' m') := by
  unfold Modbusmq.finish
  split_ifs <;> exact ⟨h, hm⟩

theorem writeHalf_moved (c : Context) (m : Msg) (env : Env) : Moved c m (writeHalf c m env) := by
  have hbefore : OnlyIo c (beforeWrite c m env) := by
    unfold beforeWrite
    dsimp only
    split_ifs
    · exact onlyIo_of_event [.flushed] (by simp [Event.Io]) rfl
    · exact onlyIo_of_event [] (by simp) (by rw [List.append_nil])
  unfold writeHalf
  split_ifs
  · exact ⟨.refl c, .refl m⟩
  · have hwrite : Moved c m (writeFrame (beforeWrite c m env) m env) := by
      unfold writeFrame
      split_ifs
      · exact ⟨hbefore, .refl m⟩
      · exact ⟨hbefore.trans (onlyIo_of_event [_] (by simp [Event.Io]) rfl), ⟨rfl, rfl, rfl⟩⟩
    generalize writeFrame (beforeWrite c m env) m env = s at hwrite
    obtain ⟨hctx, hmsg⟩ := hwrite
    have hrearmed : SameMsg m { s.msg with reader := armed c.transport } := hmsg.trans ⟨rfl, rfl, rfl⟩
    dsimp only
    split_ifs
    · exact ⟨hctx.trans (stamp_io s.ctx _ _ _ _ _ _), hmsg⟩
    · exact ⟨hctx, hmsg⟩
    · exact .finish _ hctx hrearmed
    · exact .finish _ hctx hmsg

theorem readFrame_io (c : Context) (r : Frame .reader) (env : Env) :
    OnlyIo c (readFrame c r env).ctx := by
  have hwindow : ∀ r, OnlyIo c (readWindow c r env).ctx := fun r =>
    onlyIo_of_event [.read r.xmit r.window] (by simp [Event.Io]) rfl
  have hrefine : ∀ s : ReadStep, (tcpRefineLength s).ctx = s.ctx := by
    intro s
    unfold tcpRefineLength
    split_ifs <;> rfl
  have hsized : ∀ r, OnlyIo c (tcpReadSized c r env).ctx := by
    intro r
    unfold tcpReadSized
    split_ifs
    · exact .refl c
    · split
      · rw [hrefine]
        exact hwindow r
      · exact hwindow r
      · exact hwindow r
  unfold readFrame
  split
  · exact hsized _
  · exact hwindow _

theorem readHalf_moved (c : Context) (m : Msg) (env : Env) : Moved c m (readHalf c m env) := by
  have hread : OnlyIo c (readFrame { c with lastReadMs := env.clock .stamp } m.reader env).ctx :=
    (stamp_io c _ _ _ _ _ _).trans (readFrame_io _ m.reader env)
  unfold readHalf
  generalize readFrame { c with lastReadMs := env.clock .stamp } m.reader env = s at hread
  have hreader : ∀ r, SameMsg m { m with reader := r } := fun r => ⟨rfl, rfl, rfl⟩
  dsimp only
  split_ifs
  · exact ⟨hread.trans (stamp_io s.ctx _ _ _ _ _ _), hreader _⟩
  · unfold headerMismatch
    dsimp only
    split_ifs
    · exact ⟨hread, hreader _⟩
    · exact .finish _ hread (hreader _)
    · exact .finish _ hread (hreader _)
    · exact ⟨hread.trans (onlyIo_of_event [.flushed] (by simp [Event.Io]) rfl), hreader _⟩
  · exact .finish _ hread (hreader _)
  · exact .finish _ hread (hreader _)

theorem handleWriteRead_moved (c : Context) (m : Msg) (revents : Revents) (env : Env) :
    Moved c m (handleWriteRead c m revents env) := by
  unfold handleWriteRead
  split_ifs
  · exact writeHalf_moved c m env
  · exact .finish _ (.refl c) (.refl m)
  · exact readHalf_moved c m env
  · exact .finish _ (.refl c) (.refl m)
  · exact ⟨.refl c, .refl m⟩

end Modbusmq
