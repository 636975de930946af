import Modbusmq.Bridge.Publishing
import Modbusmq.Decoding.TextValues

/-!
# Changed texts

`modbusmq_channel_publish_decide` over the polls of a text channel. What was
published last is kept as a hash, so a text is compared with all the texts that
have the same one.
-/

namespace Modbusmq

/-- The polls of one text channel, and its publish state before the first. -/
structure TextRun where
  input : PolledInput
  channel : PublishedChannel
  text : ℕ → List UInt8
  time : ℕ → Millitime
  start : PublishState

namespace TextRun

section

variable (d : Decoders) (run : TextRun)

/-- What poll `n` decides in this state; the callback has no number for a text. -/
def decision (n : ℕ) (s : PublishState) : Bool × PublishState :=
  channelPublishDecide d run.input run.channel (.number 0) (run.text n) (run.time n) s

def stateBefore : ℕ → PublishState
  | 0 => run.start
  | n + 1 => (run.decision d n (stateBefore n)).2

def PublishedAt (n : ℕ) : Prop := (run.decision d n (run.stateBefore d n)).1 = true

instance : DecidablePred (run.PublishedAt d) := fun _ => inferInstanceAs (Decidable (_ = true))

/-- Poll `i` is the last before poll `n` that was published. -/
def LastPublished (i n : ℕ) : Prop :=
  i < n ∧ run.PublishedAt d i ∧ ∀ k, i < k → k < n → ¬ run.PublishedAt d k

/-- The heartbeat of poll `i` is due at poll `n`. -/
def Heartbeat (i n : ℕ) : Prop :=
  0 < run.channel.maxInterval ∧ UInt64.ofInt run.channel.maxInterval ≤ run.time n - run.time i

/-- Poll `n` is inside the shortest time after poll `i`. -/
def TooSoon (i n : ℕ) : Prop :=
  0 < run.channel.minInterval ∧ run.time n - run.time i < UInt64.ofInt run.channel.minInterval

end

variable {d : Decoders} {run : TextRun}

/-- What is kept of a text that was published. -/
def Recorded (run : TextRun) (i : ℕ) (s : PublishState) : Prop :=
  s.published = true ∧ s.lastPublishMs = run.time i ∧ s.lastTextHash = textHash (run.text i)

/-- The state records the poll if it is published, and stays otherwise. -/
theorem decision_state (n : ℕ) (s : PublishState) : (run.decision d n s).2 =
    if (run.decision d n s).1 then
      publishRecord run.channel (.number 0) (run.text n) (run.time n) s
    else s := by
  unfold decision channelPublishDecide
  dsimp only
  split_ifs <;> first | rfl | contradiction

theorem LastPublished.recorded (htext : formatIsText run.channel.format = true) {i n : ℕ}
    (h : run.LastPublished d i n) : run.Recorded i (run.stateBefore d n) := by
  induction n with
  | zero => exact absurd h.1 (Nat.not_lt_zero i)
  | succ n ih =>
    obtain ⟨hlt, hpublished, hsince⟩ := h
    rw [stateBefore, decision_state]
    unfold PublishedAt at hpublished hsince
    rcases Nat.lt_succ_iff_lt_or_eq.1 hlt with hbefore | rfl
    · rw [if_neg (hsince n hbefore (Nat.lt_succ_self n))]
      exact ih ⟨hbefore, hpublished, fun k hi hk => hsince k hi (Nat.lt_succ_of_lt hk)⟩
    · rw [if_pos hpublished]
      unfold publishRecord
      rw [htext]
      exact ⟨rfl, rfl, rfl⟩

/-- A text that is read after the shortest time is published exactly if its hash is not the one of
the last text that was published, or the heartbeat is due. -/
theorem changed_text_published_iff (htext : formatIsText run.channel.format = true)
    (hchange : run.channel.onChange = true) {i n : ℕ} (hlast : run.LastPublished d i n)
    (hsoon : ¬ run.TooSoon i n) :
    run.PublishedAt d n ↔ textHash (run.text n) ≠ textHash (run.text i) ∨ run.Heartbeat i n := by
  obtain ⟨hpublished, htime, hhash⟩ := hlast.recorded htext
  have hgated : channelTextUnchanged d run.input run.channel (run.text n) (run.stateBefore d n) =
      decide (textHash (run.text n) = textHash (run.text i)) := by
    unfold channelTextUnchanged
    rw [if_pos htext, hhash]
  unfold TooSoon at hsoon
  unfold PublishedAt decision channelPublishDecide Heartbeat
  dsimp only
  rw [hpublished, htime, hgated, hchange, htext, if_neg (by decide)]
  by_cases hbeat : 0 < run.channel.maxInterval ∧
      UInt64.ofInt run.channel.maxInterval ≤ run.time n - run.time i
  · rw [if_pos hbeat]
    exact iff_of_true rfl (.inr hbeat)
  · rw [if_neg hbeat, if_neg hsoon]
    by_cases hsame : textHash (run.text n) = textHash (run.text i)
    · rw [if_pos (by simp [hsame])]
      exact iff_of_false (by simp) (not_or.2 ⟨not_not.2 hsame, hbeat⟩)
    · rw [if_neg (by simp [hsame]), if_neg (by simp)]
      exact iff_of_true rfl (.inl hsame)

end TextRun

/-- The firmware version of a device, one register a part, published on change. -/
def versionChannel : PublishedChannel := ⟨⟨0, 6, .version_regs⟩, "firmware", true, 0, 0, 0, 0⟩

def firmwareRegisters (n : ℕ) : List UInt8 :=
  if n = 0 then [0, 0, 0, 171, 0, 249] else [0, 0, 0, 242, 0, 240]

def versionDecoders : Decoders where
  rounded := id
  scaled _ _ := .nan
  printed _ _ _ := []
  text _ data := textVersion data 2 textMax
  naValue := none

/-- The polls of these registers, one a minute. -/
def firmwareRun : TextRun where
  input := ⟨1, .holdingRegister, 0, 0, 3, .fast, 60000, [versionChannel]⟩
  channel := versionChannel
  text n := (versionDecoders.text versionChannel (firmwareRegisters n)).getD []
  time n := UInt64.ofNat (60000 * (n + 1))
  start := ⟨false, .number 0, 0, 0⟩

/-- Two minutes of the polls, with another version than this one read in the first. -/
def updateRun : TextRun :=
  { firmwareRun with text := fun n => if n = 0 then bytesOf "0.171.248" else firmwareRun.text n }

theorem changed_text_published_iff_example : updateRun.PublishedAt versionDecoders 1 ↔
    textHash (updateRun.text 1) ≠ textHash (updateRun.text 0) ∨ updateRun.Heartbeat 0 1 :=
  TextRun.changed_text_published_iff rfl rfl
    ⟨by decide, by decide +kernel, fun k h h' => absurd h' (by omega)⟩
    fun h => absurd h.1 (by decide)

/-- Version 0.242.240 after 0.171.249 is taken for the same text. -/
theorem changed_text_suppressed : ¬ ∀ (d : Decoders) (run : TextRun),
    formatIsText run.channel.format = true → run.channel.onChange = true →
      ∀ i n, run.LastPublished d i n → run.text n ≠ run.text i → ¬ run.TooSoon i n →
        run.PublishedAt d n := by
  intro h
  have hbefore : firmwareRun.text 0 = bytesOf "0.171.249" := by decide +kernel
  have hafter : firmwareRun.text 1 = bytesOf "0.242.240" := by decide +kernel
  have hlast : firmwareRun.LastPublished versionDecoders 0 1 :=
    ⟨by decide, by decide +kernel, fun k hlo hhi => absurd hhi (by omega)⟩
  have hchanged : firmwareRun.text 1 ≠ firmwareRun.text 0 := by
    rw [hbefore, hafter]
    decide
  have hpublished := h versionDecoders firmwareRun rfl rfl 0 1 hlast hchanged
    fun hsoon => absurd hsoon.1 (by decide)
  exact absurd hpublished (by decide +kernel)

end Modbusmq
