import Modbusmq.Bridge.Publishing

/-!
# Publishing on change

`modbusmq_channel_publish_decide` over the polls of a channel that is published
on change: what each poll decides is recorded in the state the next one sees.
-/

namespace Modbusmq

/-- A number published on change, without a threshold. Its intervals are C `int`s. -/
structure PublishedChannel.OnChangeOnly (channel : PublishedChannel) : Prop where
  number : formatIsText channel.format = false
  onChange : channel.onChange = true
  minChange : channel.minChange ≤ 0
  minChangeRel : channel.minChangeRel ≤ 0
  minInterval : channel.minInterval < 2 ^ 31
  maxInterval : channel.maxInterval < 2 ^ 31

/-- The polls of one channel, and its publish state before the first. -/
structure ChannelRun where
  input : PolledInput
  channel : PublishedChannel
  value : ℕ → Single
  time : ℕ → Millitime
  start : PublishState

namespace ChannelRun

section

variable (d : Decoders) (run : ChannelRun)

def text (n : ℕ) : List UInt8 := d.printed run.input run.channel (run.value n)

def decision (n : ℕ) (s : PublishState) : Bool × PublishState :=
  channelPublishDecide d run.input run.channel (run.value n) (run.text d n) (run.time n) s

def stateBefore : ℕ → PublishState
  | 0 => run.start
  | n + 1 => (run.decision d n (stateBefore n)).2

def PublishedAt (n : ℕ) : Prop := (run.decision d n (run.stateBefore d n)).1 = true

/-- Poll `i` is the last before poll `n` that was published. -/
def LastPublished (i n : ℕ) : Prop :=
  i < n ∧ run.PublishedAt d i ∧ ∀ k, i < k → k < n → ¬ run.PublishedAt d k

def elapsed (i n : ℕ) : ℤ := (run.time n).toNat - (run.time i).toNat

/-- The heartbeat of poll `i` has come by poll `n`. -/
def Heartbeat (i n : ℕ) : Prop :=
  0 < run.channel.maxInterval ∧ run.channel.maxInterval ≤ run.elapsed i n

/-- The shortest time between two publications. -/
def spacing : ℤ :=
  if 0 < run.channel.maxInterval then min run.channel.minInterval run.channel.maxInterval
  else run.channel.minInterval

/-- What publishing on change promises: publications are spaced, none is later than the heartbeat,
between heartbeats no text is repeated, and a change is published as soon as the spacing allows. -/
structure PublishesChanges : Prop where
  first : run.PublishedAt d 0
  spaced : ∀ i n, i < n → run.PublishedAt d i → run.PublishedAt d n → run.spacing ≤ run.elapsed i n
  heartbeat : ∀ i n, run.LastPublished d i n → run.Heartbeat i n → run.PublishedAt d n
  changed : ∀ i n, run.LastPublished d i n → run.PublishedAt d n → ¬ run.Heartbeat i n →
    run.text d n ≠ run.text d i
  caught : ∀ i n, run.LastPublished d i n → run.channel.minInterval ≤ run.elapsed i n →
    run.text d n ≠ run.text d i → run.PublishedAt d n

end

variable {d : Decoders} {run : ChannelRun}

/-- The state records the poll if it is published, and stays otherwise. -/
theorem decision_state (n : ℕ) (s : PublishState) : (run.decision d n s).2 =
    if (run.decision d n s).1 then
      publishRecord run.channel (run.value n) (run.text d n) (run.time n) s
    else s := by
  unfold decision channelPublishDecide
  dsimp only
  split_ifs <;> first | rfl | contradiction

theorem decision_unpublished (n : ℕ) {s : PublishState} (h : s.published = false) :
    (run.decision d n s).1 = true := by
  unfold decision channelPublishDecide
  dsimp only
  rw [h, if_pos (by decide)]

theorem not_belowThreshold (hrounded : ∀ x ≤ 0, d.rounded x ≤ 0)
    (hchannel : run.channel.OnChangeOnly) (last value : Single) :
    belowThreshold d run.channel last value = false := by
  unfold belowThreshold
  split
  · rename_i last value
    have hfloor : (0 : ℚ) ≤ max 1 (max |last| |value|) := le_max_of_le_left zero_le_one
    have hrel := hrounded _ (mul_nonpos_of_nonpos_of_nonneg hchannel.minChangeRel hfloor)
    exact decide_eq_false fun h => absurd h.1 (not_lt.2 (max_le hchannel.minChange hrel))
  · rfl

theorem decision_published (hrounded : ∀ x ≤ 0, d.rounded x ≤ 0)
    (hchannel : run.channel.OnChangeOnly) {i n : ℕ} {s : PublishState} (hpublished : s.published)
    (hlast : s.lastPublishMs = run.time i) (hvalue : s.lastValue = run.value i)
    (htime : run.time i ≤ run.time n) : (run.decision d n s).1 = true ↔
      run.Heartbeat i n ∨
        run.channel.minInterval ≤ run.elapsed i n ∧ run.text d n ≠ run.text d i := by
  have hsince := toNat_since htime
  have hmax : 0 < run.channel.maxInterval ∧
      UInt64.ofInt run.channel.maxInterval ≤ run.time n - run.time i ↔ run.Heartbeat i n := by
    refine and_congr_right fun hpos => ?_
    have hint := toNat_interval hpos hchannel.maxInterval
    rw [UInt64.le_iff_toNat_le]
    unfold elapsed
    omega
  have hmin : 0 < run.channel.minInterval ∧
      run.time n - run.time i < UInt64.ofInt run.channel.minInterval ↔
        ¬ run.channel.minInterval ≤ run.elapsed i n := by
    have hle := UInt64.le_iff_toNat_le.1 htime
    unfold elapsed
    by_cases hpos : 0 < run.channel.minInterval
    · have hint := toNat_interval hpos hchannel.minInterval
      rw [and_iff_right hpos, UInt64.lt_iff_toNat_lt]
      omega
    · exact iff_of_false (fun h => hpos h.1) (by omega)
  have htext : channelTextUnchanged d run.input run.channel (run.text d n) s =
      decide (run.text d n = run.text d i) := by
    unfold channelTextUnchanged
    rw [hchannel.number, hvalue]
    rfl
  unfold decision channelPublishDecide
  dsimp only
  rw [hpublished, hlast, htext, hchannel.onChange, hchannel.number,
    not_belowThreshold hrounded hchannel]
  simp only [hmax, hmin]
  split_ifs <;> simp_all

theorem LastPublished.state (hchannel : run.channel.OnChangeOnly) {i n : ℕ}
    (h : run.LastPublished d i n) : (run.stateBefore d n).published = true ∧
      (run.stateBefore d n).lastPublishMs = run.time i ∧
        (run.stateBefore d n).lastValue = run.value i := by
  induction n with
  | zero => exact absurd h.1 (Nat.not_lt_zero i)
  | succ n ih =>
    obtain ⟨hlt, hpublished, hsince⟩ := h
    rw [stateBefore, decision_state]
    unfold PublishedAt at hpublished hsince
    rcases Nat.lt_succ_iff_lt_or_eq.1 hlt with hbefore | rfl
    · have hheld := hsince n hbefore (Nat.lt_succ_self n)
      rw [if_neg hheld]
      exact ih ⟨hbefore, hpublished, fun k hi hk => hsince k hi (Nat.lt_succ_of_lt hk)⟩
    · rw [if_pos hpublished]
      unfold publishRecord
      rw [hchannel.number]
      exact ⟨rfl, rfl, rfl⟩

theorem exists_lastPublished {i n : ℕ} (hlt : i < n) (h : run.PublishedAt d i) :
    ∃ j, i ≤ j ∧ run.LastPublished d j n := by
  induction n with
  | zero => exact absurd hlt (Nat.not_lt_zero i)
  | succ n ih =>
    by_cases hn : run.PublishedAt d n
    · exact ⟨n, Nat.lt_succ_iff.1 hlt, Nat.lt_succ_self n, hn, by omega⟩
    · have hbefore : i < n := by
        refine lt_of_le_of_ne (Nat.lt_succ_iff.1 hlt) ?_
        rintro rfl
        exact hn h
      obtain ⟨j, hij, hjn, hj, hsince⟩ := ih hbefore
      refine ⟨j, hij, Nat.lt_succ_of_lt hjn, hj, fun k hjk hk => ?_⟩
      rcases Nat.lt_succ_iff_lt_or_eq.1 hk with hkn | rfl
      · exact hsince k hjk hkn
      · exact hn

/-- A channel published on change keeps its promises over every run of polls. -/
theorem publishes_changes (hrounded : ∀ x ≤ 0, d.rounded x ≤ 0)
    (hchannel : run.channel.OnChangeOnly) (hstart : run.start.published = false)
    (htime : ∀ i n, i ≤ n → run.time i ≤ run.time n) : run.PublishesChanges d := by
  have hdecided : ∀ {i n}, run.LastPublished d i n → (run.PublishedAt d n ↔ run.Heartbeat i n ∨
      run.channel.minInterval ≤ run.elapsed i n ∧ run.text d n ≠ run.text d i) := by
    intro i n h
    obtain ⟨hpublished, hlast, hvalue⟩ := h.state hchannel
    exact decision_published hrounded hchannel hpublished hlast hvalue (htime i n h.1.le)
  refine ⟨decision_unpublished 0 hstart, fun i n hlt hi hn => ?_, fun i n h hbeat => ?_,
    fun i n h hn hbeat => ?_, fun i n h hmin hchange => ?_⟩
  · obtain ⟨j, hij, hj⟩ := exists_lastPublished hlt hi
    have hmono := UInt64.le_iff_toNat_le.1 (htime i j hij)
    have hspaced : run.spacing ≤ run.elapsed j n := by
      unfold spacing
      rcases (hdecided hj).1 hn with ⟨hon, hbeat⟩ | ⟨hmin, -⟩
      · rw [if_pos hon]
        exact (min_le_right _ _).trans hbeat
      · split_ifs
        · exact (min_le_left _ _).trans hmin
        · exact hmin
    unfold elapsed at hspaced ⊢
    omega
  · exact (hdecided h).2 (.inl hbeat)
  · exact ((hdecided h).1 hn).resolve_left hbeat |>.2
  · exact (hdecided h).2 (.inr ⟨hmin, hchange⟩)

/-- Two readings in turn, polled every half second, with one second between messages and one
heartbeat a minute. -/
def alternating : ChannelRun where
  input := ⟨1, .holdingRegister, 0, 0, 1, .fast, 500, []⟩
  channel := ⟨⟨0, 2, .ab⟩, "level", true, 0, 0, 1000, 60000⟩
  value n := .number (n % 2)
  time n := UInt64.ofNat (min (500 * n) 1000000)
  start := ⟨false, .number 0, 0, 0⟩

def byteDecoders : Decoders where
  rounded := id
  scaled _ _ := .nan
  printed _ _
    | .number value => [UInt8.ofNat value.num.toNat]
    | _ => []
  text _ _ := none
  naValue := none

theorem publishes_changes_example : alternating.PublishesChanges byteDecoders := by
  have hchannel : alternating.channel.OnChangeOnly :=
    ⟨rfl, rfl, le_rfl, le_rfl, by decide, by decide⟩
  have htime : ∀ i n, i ≤ n → alternating.time i ≤ alternating.time n := by
    intro i n h
    rw [UInt64.le_iff_toNat_le]
    have hsmall : ∀ k, min (500 * k) 1000000 < 2 ^ 64 := by omega
    simp only [alternating, UInt64.toNat_ofNat', Nat.mod_eq_of_lt (hsmall _)]
    omega
  exact publishes_changes (fun _ h => h) hchannel rfl htime

end ChannelRun

end Modbusmq
