import Modbusmq.Core.Requests
import Modbusmq.Core.WriteRead

/-!
# The outcomes of one write half

`writeHalf_outcome` is the counterpart of `readHalf_outcome`: what one call does
with POLLOUT set while part of the request is still to be sent.
-/

namespace Modbusmq

/-- The message after `n` more bytes of its request were taken. -/
def Msg.sent (m : Msg) (n : ℕ) : Msg :=
  { m with writer := { m.writer with xmit := m.writer.xmit + n } }

def afterWrite (c : Context) (m : Msg) (env : Env) : Context :=
  (beforeWrite c m env).note (.wrote m.serial m.writer (accepted (beforeWrite c m env) m env)
    (beforeWrite c m env).input.length)

inductive WriteOutcome (c : Context) (m : Msg) (env : Env) : WriteRead → Prop
  /-- the quiet gap before the first byte -/
  | gap (hunsent : m.writer.xmit = 0) (hgap : 0 < frameDelayLeft c (env.clock .gap)) :
      WriteOutcome c m env ⟨0, c, m⟩
  | failed (h : sendResult c env = .error) :
      WriteOutcome c m env
        ⟨errTransport, { beforeWrite c m env with err := c.err + 1 }, m⟩
  | part {rc : ℤ} {n : ℕ} (hn : n = accepted (beforeWrite c m env) m env)
      (hpart : m.writer.xmit + n < m.writer.length) (hrc : 0 < rc) :
      WriteOutcome c m env ⟨rc, afterWrite c m env, m.sent n⟩
  | broadcast {n : ℕ} (hn : n = accepted (beforeWrite c m env) m env)
      (hwhole : m.writer.xmit + n = m.writer.length)
      (hb : msgBroadcast c.transport m.writer) :
      WriteOutcome c m env ⟨0, afterWrite c m env, m.sent n⟩
  | whole {rc : ℤ} {n : ℕ} (hn : n = accepted (beforeWrite c m env) m env)
      (hwhole : m.writer.xmit + n = m.writer.length)
      (hb : ¬ msgBroadcast c.transport m.writer) (hrc : 0 < rc) :
      WriteOutcome c m env
        ⟨rc, afterWrite c m env, { m.sent n with reader := armed c.transport }⟩

theorem accepted_le {c : Context} {m : Msg} {env : Env} :
    accepted c m env ≤ m.writer.window := by
  unfold accepted
  split <;> omega

@[simp] theorem beforeWrite_transport (c : Context) (m : Msg) (env : Env) :
    (beforeWrite c m env).transport = c.transport := by
  unfold beforeWrite
  split_ifs <;> rfl

@[simp] theorem sendResult_beforeWrite (c : Context) (m : Msg) (env : Env) :
    sendResult (beforeWrite c m env) env = sendResult c env := by
  unfold beforeWrite
  split_ifs <;> rfl

@[simp] theorem beforeWrite_err (c : Context) (m : Msg) (env : Env) :
    (beforeWrite c m env).err = c.err := by
  unfold beforeWrite
  split_ifs <;> rfl

theorem msgBroadcast_sent (t : Transport) (m : Msg) (n : ℕ) :
    msgBroadcast t (m.sent n).writer = msgBroadcast t m.writer := by
  cases t <;> rfl

theorem finish_pos (moved : ℤ) (c : Context) (m : Msg) (hmoved : 0 ≤ moved)
    (h : moved = 0 → m.writer.xmit < m.writer.length ∧ m.reader.xmit ≤ m.reader.length) :
    ∃ rc : ℤ, finish moved c m = ⟨rc, c, m⟩ ∧ 0 < rc := by
  by_cases hm : moved = 0
  · obtain ⟨hw, hr⟩ := h hm
    refine ⟨pendingRc c.transport m, if_neg (by simpa using hm), ?_⟩
    unfold pendingRc
    dsimp only
    rw [if_neg (by omega)]
    omega
  · exact ⟨moved, if_pos hm, by omega⟩

theorem writeHalf_outcome {c : Context} {m : Msg} (env : Env)
    (hopen : m.writer.xmit < m.writer.length) (hfits : m.writer.length ≤ frameMax)
    (hreader : m.reader.xmit = 0) :
    WriteOutcome c m env (writeHalf c m env) := by
  have hwindow := Frame.window_eq hopen.le hfits
  unfold writeHalf
  by_cases hgap : m.writer.xmit = 0 ∧ 0 < frameDelayLeft c (env.clock .gap)
  · rw [if_pos hgap]
    exact .gap hgap.1 hgap.2
  rw [if_neg hgap]
  unfold writeFrame
  simp only [sendResult_beforeWrite]
  by_cases hsend : sendResult c env = .error
  · rw [if_pos hsend]
    dsimp only
    rw [if_pos (by decide), beforeWrite_err]
    exact .failed hsend
  rw [if_neg hsend]
  obtain ⟨n, hn⟩ : ∃ n, n = accepted (beforeWrite c m env) m env := ⟨_, rfl⟩
  have hle : n ≤ m.writer.window := hn ▸ accepted_le
  rw [← hn]
  dsimp only
  rw [if_neg (by omega)]
  change WriteOutcome c m env
    (if (m.sent n).writer.length = (m.sent n).writer.xmit then
      if msgBroadcast c.transport (m.sent n).writer = true then ⟨0, _, m.sent n⟩
      else finish n _ { m.sent n with reader := armed c.transport }
    else finish n _ (m.sent n))
  have hctx : (beforeWrite c m env).note (.wrote m.serial m.writer n
      (beforeWrite c m env).input.length) = afterWrite c m env := by
    rw [hn]
    rfl
  rw [hctx, msgBroadcast_sent]
  by_cases hwhole : (m.sent n).writer.length = (m.sent n).writer.xmit
  · have hall : m.writer.xmit + n = m.writer.length := hwhole.symm
    rw [if_pos hwhole]
    by_cases hb : msgBroadcast c.transport m.writer = true
    · rw [if_pos hb]
      exact .broadcast hn hall hb
    · obtain ⟨rc, hfin, hrc⟩ := finish_pos n (afterWrite c m env)
        { m.sent n with reader := armed c.transport } (by omega) (fun h => by omega)
      rw [if_neg hb, hfin]
      exact .whole hn hall hb hrc
  · have hpart : m.writer.xmit + n < m.writer.length := by
      have : m.writer.length ≠ m.writer.xmit + n := hwhole
      omega
    obtain ⟨rc, hfin, hrc⟩ := finish_pos n (afterWrite c m env) (m.sent n)
      (by omega) (fun _ => ⟨hpart, by simp [Msg.sent, hreader]⟩)
    rw [if_neg hwhole, hfin]
    exact .part hn hpart hrc

end Modbusmq
