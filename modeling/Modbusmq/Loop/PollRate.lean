import Modbusmq.Library.Pacing
import Modbusmq.Loop.Backoff

/-!
# How often a timer is polled

In parallel and series mode a timer becomes due one interval after it was due
last, whenever it was polled. So the polls keep to the interval unless one of
them is late by more than an interval; then they are made up for, one right after
the other.
-/

namespace Modbusmq

def PollEvent.posts (timerId : ℕ) : PollEvent → Bool
  | .posted id _ => id = timerId
  | .left _ _ _ => false

def pollsPosted (timerId : ℕ) (log : List Event) : ℕ :=
  (pollEvents log).countP (PollEvent.posts timerId)

/-- The times at which a run posts the polls of a timer. -/
def pollTimes (timerId : ℕ) : List (Call × Env) → Context → List ℕ
  | [], _ => []
  | call :: calls, c =>
    List.replicate (pollsPosted timerId (call.1.perform c call.2).log - pollsPosted timerId c.log)
        (call.2.clock .due).toNat ++
      pollTimes timerId calls (call.1.perform c call.2)

/-- The timer repeats, at this period or a longer one. -/
def Repeats (timerId period : ℕ) (c : Context) : Prop :=
  ∀ t ∈ c.timers, t.timerId = timerId → ¬ t.isOnce ∧ period ≤ t.timerInterval.toNat

/-- When the loop comes to the timer and none of its polls is queued, it has been due for a
period at most. The clock is not about to run over. -/
def Prompt (timerId period : ℕ) (c : Context) (env : Env) : Call → Prop
  | .prepare _ => c.connected → ∀ t ∈ c.timers, t.timerId = timerId →
      (env.clock .due).toNat + t.timerInterval.toNat < 2 ^ 64 ∧
        (timerId ∉ (queuedPolls (timeOutHead c env).queue).map Prod.fst →
          (env.clock .due).toNat ≤ t.timerNextTime.toNat + period)
  | _ => True

/-- Repeating timers are due when they were due before. -/
def SameDues (timers timers' : List Timer) : Prop :=
  ∀ t' ∈ timers', ∃ t ∈ timers, t.timerId = t'.timerId ∧ t.isOnce = t'.isOnce ∧
    t.timerInterval = t'.timerInterval ∧ (¬ t.isOnce → t'.timerNextTime = t.timerNextTime)

theorem SameDues.refl (timers : List Timer) : SameDues timers timers :=
  fun t ht => ⟨t, ht, rfl, rfl, rfl, fun _ => rfl⟩

theorem SameDues.trans {timers₁ timers₂ timers₃ : List Timer} (h : SameDues timers₁ timers₂)
    (h' : SameDues timers₂ timers₃) : SameDues timers₁ timers₃ := by
  intro t₃ ht₃
  obtain ⟨t₂, ht₂, hid₂, honce₂, hinterval₂, hdue₂⟩ := h' t₃ ht₃
  obtain ⟨t₁, ht₁, hid₁, honce₁, hinterval₁, hdue₁⟩ := h t₂ ht₂
  refine ⟨t₁, ht₁, hid₁.trans hid₂, honce₁.trans honce₂, hinterval₁.trans hinterval₂,
    fun hrepeats => ?_⟩
  rw [hdue₂ (honce₁ ▸ hrepeats), hdue₁ hrepeats]

theorem SameDues.map {timers : List Timer} {f : Timer → Timer}
    (hf : ∀ t, t.timerId = (f t).timerId ∧ t.isOnce = (f t).isOnce ∧
      t.timerInterval = (f t).timerInterval ∧
      (¬ t.isOnce → (f t).timerNextTime = t.timerNextTime)) : SameDues timers (timers.map f) := by
  intro t' ht'
  obtain ⟨t, ht, rfl⟩ := List.mem_map.1 ht'
  exact ⟨t, ht, hf t⟩

theorem slaveUpdate_dues (c : Context) (timerId : ℕ) (answered : Bool) (env : Env) :
    SameDues c.timers (slaveUpdate c timerId answered env).timers := by
  have hsettle : ∀ now slave misses unresponsive retryMs,
      SameDues c.timers (c.timers.map (slaveSettle now slave misses unresponsive retryMs)) := by
    intro now slave misses unresponsive retryMs
    refine SameDues.map fun t => ?_
    unfold slaveSettle
    split_ifs with _ hback
    · exact ⟨rfl, rfl, rfl, fun _ => rfl⟩
    · exact ⟨rfl, rfl, rfl, fun honce => absurd hback.2.2 honce⟩
    · exact ⟨rfl, rfl, rfl, fun _ => rfl⟩
  unfold slaveUpdate
  dsimp only
  split
  · exact .refl _
  · split_ifs
    · exact hsettle _ _ _ _ _
    · exact .refl _
    · exact hsettle _ _ _ _ _
    · refine SameDues.map fun t => ?_
      split_ifs <;> exact ⟨rfl, rfl, rfl, fun _ => rfl⟩
    · exact hsettle _ _ _ _ _

theorem onceDone_dues {c : Context} (hdistinct : (c.timers.map (·.timerId)).Nodup) (timerId : ℕ) :
    SameDues c.timers (onceDone c timerId).timers := by
  unfold onceDone
  split
  · exact .refl _
  · rename_i timer hfind
    obtain ⟨hmem, hid⟩ := timerFind_mem hfind
    intro t' ht'
    obtain ⟨t, ht, rfl⟩ := List.mem_map.1 ht'
    refine ⟨t, ht, ?_⟩
    split_ifs with hmine
    · have hsame := List.inj_on_of_nodup_map hdistinct ht hmem (hmine.1.trans hid.symm)
      exact ⟨rfl, rfl, rfl, fun honce => absurd (hsame ▸ hmine.2) honce⟩
    · exact ⟨rfl, rfl, rfl, fun _ => rfl⟩

theorem judge_dues {c : Context} (hdistinct : (c.timers.map (·.timerId)).Nodup) (timerId : ℕ)
    (env : Env) (verdict : Verdict) : SameDues c.timers (judge c timerId env verdict).timers := by
  cases verdict with
  | answered =>
    have hids := timerIds_congr (slaveUpdate_keys c timerId true env)
    exact (slaveUpdate_dues c timerId true env).trans (onceDone_dues (hids ▸ hdistinct) timerId)
  | excepted => exact slaveUpdate_dues c timerId true env
  | missed => exact slaveUpdate_dues c timerId false env
  | dropped => exact .refl _

theorem Rearms.sameDues {timers timers' : List Timer} (h : Rearms timers timers') :
    SameDues timers timers' := by
  intro t' ht'
  obtain ⟨i, hi, rfl⟩ := List.getElem_of_mem ht'
  have hlength := h.length_eq
  obtain ⟨next, hnext, hmoved⟩ := (List.forall₂_iff_get.1 h).2 i (hlength ▸ hi) hi
  simp only [List.get_eq_getElem] at hnext hmoved
  refine ⟨timers[i], List.getElem_mem _, by rw [hnext], by rw [hnext], by rw [hnext],
    fun honce => ?_⟩
  by_contra hne
  exact honce (hmoved hne)

def Timer.schedule (t : Timer) : ℕ × Bool × Millitime × Millitime :=
  (t.timerId, t.isOnce, t.timerInterval, t.timerNextTime)

theorem gatePost_schedules (c : Context) (timer : Timer) (now : Millitime) (i : ℕ) :
    (gatePost c timer now i).timers.map Timer.schedule = c.timers.map Timer.schedule := by
  have hgate : (slaveGate c timer now).2.timers.map Timer.schedule =
      c.timers.map Timer.schedule := by
    unfold slaveGate
    split_ifs
    · rfl
    · rw [List.map_map]
      refine List.map_congr_left fun t _ => ?_
      simp only [Function.comp_apply]
      split_ifs <;> rfl
    · rfl
  unfold gatePost
  split_ifs
  · unfold postTimer
    split
    · exact hgate
    · rw [← hgate]
      refine List.ext_getElem (by simp [postInternal]) fun j hj hj' => ?_
      simp only [List.getElem_map, List.getElem_modify]
      split_ifs <;> rfl
  · exact hgate

/-- A turn leaves everything alone, or it comes to a timer that is due and has no poll queued. -/
theorem pollTimer_cases (now : Millitime) (s : Scheduled) (i : ℕ) :
    (pollTimer now s i).ctx = s.ctx ∨ ∃ timer, s.ctx.timers[i]? = some timer ∧
      timer.timerNextTime ≤ now ∧ (∀ w ∈ s.ctx.queue, w.msg.msgId ≠ timer.timerId) ∧
      (pollTimer now s i).ctx = advanceTimer (gatePost s.ctx timer now i) i := by
  unfold pollTimer
  split
  · exact .inl rfl
  · rename_i timer ht
    dsimp only
    split_ifs with hdue
    · refine .inr ⟨timer, ht, hdue.1, fun w hw hid => hdue.2 ?_, rfl⟩
      exact List.any_eq_true.2 ⟨w, hw, decide_eq_true hid⟩
    · exact .inl rfl

/-- The turn of a timer moves its due time on and leaves the other timers alone. -/
theorem mem_advanceTimer {c : Context} (hdistinct : (c.timers.map (·.timerId)).Nodup) {i : ℕ}
    {timer : Timer} (ht : c.timers[i]? = some timer) (now : Millitime) {t' : Timer}
    (ht' : t' ∈ (advanceTimer (gatePost c timer now i) i).timers) :
    ∃ t ∈ c.timers, t'.timerId = t.timerId ∧ t'.isOnce = t.isOnce ∧
      t'.timerInterval = t.timerInterval ∧
        (t.timerId ≠ timer.timerId ∧ t'.timerNextTime = t.timerNextTime ∨
          t = timer ∧ t'.timerNextTime = t.timerNextTime + t.timerInterval) := by
  have hschedules := gatePost_schedules c timer now i
  have hlength : (gatePost c timer now i).timers.length = c.timers.length := by
    have hmap := congrArg List.length hschedules
    rwa [List.length_map, List.length_map] at hmap
  obtain ⟨j, hj, rfl⟩ := List.getElem_of_mem ht'
  have hg : j < (gatePost c timer now i).timers.length := by simpa [advanceTimer] using hj
  have hj' : j < c.timers.length := hlength ▸ hg
  have hsame : (gatePost c timer now i).timers[j].schedule = c.timers[j].schedule := by
    have hat := congrArg (·[j]?) hschedules
    simpa [List.getElem?_map, List.getElem?_eq_getElem hj', List.getElem?_eq_getElem hg] using hat
  simp only [Timer.schedule, Prod.mk.injEq] at hsame
  obtain ⟨hid, honce, hinterval, hnext⟩ := hsame
  obtain ⟨hi, htimer⟩ := List.getElem?_eq_some_iff.1 ht
  refine ⟨c.timers[j], List.getElem_mem hj', ?_⟩
  simp only [advanceTimer, List.getElem_modify]
  split_ifs with hindex
  · subst hindex
    refine ⟨hid, honce, hinterval, .inr ⟨htimer, ?_⟩⟩
    rw [hnext, hinterval]
  · refine ⟨hid, honce, hinterval, .inl ⟨fun hsame => hindex ?_, hnext⟩⟩
    have heq := List.inj_on_of_nodup_map hdistinct (List.getElem_mem hj')
      (List.mem_of_getElem? ht) hsame
    rw [← htimer] at heq
    exact ((List.Nodup.getElem_inj_iff (List.Nodup.of_map _ hdistinct)).1 heq).symm

/-- The polls of the timer so far, with the times they were due: they were in time, and the
timer is due a period after all of them. -/
structure Paced (timerId period : ℕ) (done : List (ℕ × ℕ)) (c : Context) : Prop
    extends TimersNumbered c where
  inTime : Pacing.InTime period done
  waiting : ∀ t ∈ c.timers, t.timerId = timerId →
    ∀ x ∈ done, x.1 + period ≤ t.timerNextTime.toNat
  subscribed : done ≠ [] → timerId ≤ c.timerIdNext

theorem Paced.later {timerId period : ℕ} {done : List (ℕ × ℕ)} {c c' : Context}
    (h : Paced timerId period done c) (hsame : SameNumbers c c')
    (hlater : ∀ t' ∈ c'.timers, t'.timerId = timerId → ∃ t ∈ c.timers, t.timerId = timerId ∧
      t.timerNextTime.toNat ≤ t'.timerNextTime.toNat) :
    Paced timerId period done c' where
  toTimersNumbered := h.toTimersNumbered.congr hsame
  inTime := h.inTime
  waiting t' ht' hid x hx := by
    obtain ⟨t, ht, hmine, hle⟩ := hlater t' ht' hid
    exact (h.waiting t ht hmine x hx).trans hle
  subscribed hdone := hsame.timerIdNext ▸ h.subscribed hdone

/-- A poll in time, after which the timer is due a period later at least. -/
theorem Paced.polled {timerId period now : ℕ} {done : List (ℕ × ℕ)} {c c' : Context}
    (h : Paced timerId period done c) (hsame : SameNumbers c c') {timer : Timer}
    (hmem : timer ∈ c.timers) (hmine : timer.timerId = timerId)
    (hdue : timer.timerNextTime.toNat ≤ now) (hsoon : now ≤ timer.timerNextTime.toNat + period)
    (hlater : ∀ t' ∈ c'.timers, t'.timerId = timerId →
      timer.timerNextTime.toNat + period ≤ t'.timerNextTime.toNat) :
    Paced timerId period (done ++ [(timer.timerNextTime.toNat, now)]) c' where
  toTimersNumbered := h.toTimersNumbered.congr hsame
  inTime := h.inTime.append (h.waiting timer hmem hmine) hdue hsoon
  waiting t' ht' hid x hx := by
    have hnext := hlater t' ht' hid
    rcases List.mem_append.1 hx with hx | hx
    · have hbefore := h.waiting timer hmem hmine x hx
      omega
    · rwa [List.mem_singleton.1 hx]
  subscribed _ := by
    rw [hsame.timerIdNext]
    exact hmine ▸ h.bounded timer hmem

theorem Paced.quiet {timerId period : ℕ} {done : List (ℕ × ℕ)} {c c' : Context}
    (h : Paced timerId period done c) (hrepeats : Repeats timerId period c)
    (hsame : SameNumbers c c') (hdues : SameDues c.timers c'.timers) :
    Paced timerId period done c' := by
  refine h.later hsame fun t' ht' hid => ?_
  obtain ⟨t, ht, hsame, -, -, hnext⟩ := hdues t' ht'
  have hmine := hsame.trans hid
  exact ⟨t, ht, hmine, by rw [hnext (hrepeats t ht hmine).1]⟩

/-- The timer is ready for its turn at `now`: if it is due, it is not late. -/
def Ready (timerId period : ℕ) (now : Millitime) (c : Context) : Prop :=
  ∀ t ∈ c.timers, t.timerId = timerId → period ≤ t.timerInterval.toNat ∧
    now.toNat + t.timerInterval.toNat < 2 ^ 64 ∧
    (timerId ∈ (queuedPolls c.queue).map Prod.fst ∨ now.toNat ≤ t.timerNextTime.toNat + period)

/-- A poll of the timer is the only thing that counts. -/
theorem pollsPosted_asked {c c' : Context} {timer : Timer} (h : Asked c c' timer) (timerId : ℕ) :
    pollsPosted timerId c'.log =
      pollsPosted timerId c.log + if timer.timerId = timerId then 1 else 0 := by
  unfold pollsPosted
  rw [h.events, List.countP_append, List.countP_singleton]
  simp [PollEvent.posts]

/-- The due time after a turn, which is before the clock runs over. -/
theorem toNat_due {now next interval : Millitime} (hdue : next ≤ now)
    (hclock : now.toNat + interval.toNat < 2 ^ 64) :
    (next + interval).toNat = next.toNat + interval.toNat := by
  have hle := UInt64.le_iff_toNat_le.1 hdue
  rw [UInt64.toNat_add, Nat.mod_eq_of_lt (by omega)]

/-- Asking the gate of a timer leaves the numbers and the queued polls, and posts its poll at
most. -/
theorem gatePost_polls {c : Context} {i : ℕ} {timer : Timer} (ht : c.timers[i]? = some timer)
    (now : Millitime) (timerId : ℕ) : SameNumbers c (gatePost c timer now i) ∧
      (timerId ∈ (queuedPolls c.queue).map Prod.fst →
        timerId ∈ (queuedPolls (gatePost c timer now i).queue).map Prod.fst) ∧
      (pollsPosted timerId (gatePost c timer now i).log = pollsPosted timerId c.log ∨
        timer.timerId = timerId ∧ pollsPosted timerId (gatePost c timer now i).log =
          pollsPosted timerId c.log + 1) := by
  rcases gatePost_cases ht now with ⟨-, hsame⟩ | ⟨-, -, hasked⟩
  · rw [hsame]
    exact ⟨.refl c, id, .inl rfl⟩
  · refine ⟨hasked.sameNumbers, fun hqueued => ?_, ?_⟩
    · rw [hasked.polls, List.map_append]
      exact List.mem_append_left _ hqueued
    · rw [pollsPosted_asked hasked]
      split_ifs with hmine
      · exact .inr ⟨hmine, rfl⟩
      · exact .inl rfl

theorem ownTurn_paced {timerId period : ℕ} {now : Millitime} {done : List (ℕ × ℕ)} {c : Context}
    (h : Paced timerId period done c) (hready : Ready timerId period now c) {i : ℕ} {timer : Timer}
    (ht : c.timers[i]? = some timer) (hmine : timer.timerId = timerId)
    (hdue : timer.timerNextTime ≤ now)
    (hunqueued : timerId ∉ (queuedPolls c.queue).map Prod.fst) {c' : Context}
    (hc' : c' = advanceTimer (gatePost c timer now i) i) :
    Ready timerId period now c' ∧ ∃ new, Paced timerId period (done ++ new) c' ∧
      pollsPosted timerId c'.log = pollsPosted timerId c.log + new.length ∧
      ∀ x ∈ new, x.2 = now.toNat := by
  have hmem := List.mem_of_getElem? ht
  obtain ⟨hgate, -, hcount⟩ := gatePost_polls ht now timerId
  have hnumbers : SameNumbers c c' :=
    hc' ▸ hgate.trans (advanceTimer_neutral (gatePost c timer now i) i).sameNumbers
  have hlog : c'.log = (gatePost c timer now i).log := by rw [hc']; rfl
  obtain ⟨hlong, hclock, hlate⟩ := hready timer hmem hmine
  have hsoon := hlate.resolve_left hunqueued
  have hmoved : ∀ t' ∈ c'.timers, t'.timerId = timerId → t'.timerInterval = timer.timerInterval ∧
      t'.timerNextTime.toNat = timer.timerNextTime.toNat + timer.timerInterval.toNat := by
    intro t' ht' hid'
    obtain ⟨t, -, hid, -, hinterval, ⟨hother, -⟩ | ⟨rfl, hmoved⟩⟩ :=
      mem_advanceTimer h.distinct ht now (hc' ▸ ht')
    · exact absurd (hid.symm.trans (hid'.trans hmine.symm)) hother
    · exact ⟨hinterval, by rw [hmoved, toNat_due hdue hclock]⟩
  refine ⟨fun t' ht' hid' => ?_, ?_⟩
  · obtain ⟨hinterval, hmoved⟩ := hmoved t' ht' hid'
    rw [hinterval]
    exact ⟨hlong, hclock, .inr (by omega)⟩
  rw [hlog]
  rcases hcount with hcount | ⟨-, hcount⟩
  · refine ⟨[], (List.append_nil done).symm ▸ h.later hnumbers fun t' ht' hid' => ?_, hcount,
      nofun⟩
    have hmoved := (hmoved t' ht' hid').2
    exact ⟨timer, hmem, hmine, by omega⟩
  · refine ⟨[(timer.timerNextTime.toNat, now.toNat)], h.polled hnumbers hmem hmine
      (UInt64.le_iff_toNat_le.1 hdue) hsoon fun t' ht' hid' => ?_, hcount, by simp⟩
    have hmoved := (hmoved t' ht' hid').2
    omega

theorem otherTurn_paced {timerId period : ℕ} {now : Millitime} {done : List (ℕ × ℕ)} {c : Context}
    (h : Paced timerId period done c) (hready : Ready timerId period now c) {i : ℕ} {timer : Timer}
    (ht : c.timers[i]? = some timer) (hother : timer.timerId ≠ timerId) {c' : Context}
    (hc' : c' = advanceTimer (gatePost c timer now i) i) :
    Ready timerId period now c' ∧ Paced timerId period done c' ∧
      pollsPosted timerId c'.log = pollsPosted timerId c.log := by
  obtain ⟨hgate, hqueued, hcount⟩ := gatePost_polls ht now timerId
  have hnumbers : SameNumbers c c' :=
    hc' ▸ hgate.trans (advanceTimer_neutral (gatePost c timer now i) i).sameNumbers
  have hlog : c'.log = (gatePost c timer now i).log := by rw [hc']; rfl
  have hqueue : c'.queue = (gatePost c timer now i).queue := by rw [hc']; rfl
  have hkept : ∀ t' ∈ c'.timers, t'.timerId = timerId → ∃ t ∈ c.timers, t.timerId = timerId ∧
      t'.timerInterval = t.timerInterval ∧ t'.timerNextTime = t.timerNextTime := by
    intro t' ht' hid'
    obtain ⟨t, ht, hid, -, hinterval, ⟨-, hnext⟩ | ⟨rfl, -⟩⟩ :=
      mem_advanceTimer h.distinct ht now (hc' ▸ ht')
    · exact ⟨t, ht, hid.symm.trans hid', hinterval, hnext⟩
    · exact absurd (hid.symm.trans hid') hother
  refine ⟨fun t' ht' hid' => ?_, h.later hnumbers fun t' ht' hid' => ?_, ?_⟩
  · obtain ⟨t, ht, hid, hinterval, hnext⟩ := hkept t' ht' hid'
    obtain ⟨hlong, hclock, hlate⟩ := hready t ht hid
    rw [hinterval, hnext, hqueue]
    exact ⟨hlong, hclock, hlate.imp_left hqueued⟩
  · obtain ⟨t, ht, hid, -, hnext⟩ := hkept t' ht' hid'
    exact ⟨t, ht, hid, by rw [hnext]⟩
  · rw [hlog]
    exact hcount.resolve_right fun hposted => hother hposted.1

/-- One turn of the walk posts one poll at most, and in time. -/
theorem pollTimer_paced {timerId period : ℕ} {now : Millitime} {done : List (ℕ × ℕ)}
    {s : Scheduled} (h : Paced timerId period done s.ctx) (hready : Ready timerId period now s.ctx)
    (i : ℕ) :
    Ready timerId period now (pollTimer now s i).ctx ∧ ∃ new,
      Paced timerId period (done ++ new) (pollTimer now s i).ctx ∧
      pollsPosted timerId (pollTimer now s i).ctx.log =
        pollsPosted timerId s.ctx.log + new.length ∧ ∀ x ∈ new, x.2 = now.toNat := by
  rcases pollTimer_cases now s i with hsame | ⟨timer, ht, hdue, hqueue, hturn⟩
  · rw [hsame]
    exact ⟨hready, [], (List.append_nil done).symm ▸ h, rfl, nofun⟩
  by_cases hmine : timer.timerId = timerId
  · refine ownTurn_paced h hready ht hmine hdue (fun hqueued => ?_) hturn
    rw [queuedPolls, List.map_map] at hqueued
    obtain ⟨w, hw, hid⟩ := List.mem_map.1 hqueued
    exact hqueue w (List.mem_of_mem_filter hw) (hid.trans hmine.symm)
  · obtain ⟨hready', hpaced, hcount⟩ := otherTurn_paced h hready ht hmine hturn
    exact ⟨hready', [], (List.append_nil done).symm ▸ hpaced, hcount, nofun⟩

theorem walk_paced {timerId period : ℕ} {now : Millitime} (l : List ℕ) {done : List (ℕ × ℕ)}
    {s : Scheduled} (h : Paced timerId period done s.ctx)
    (hready : Ready timerId period now s.ctx) : ∃ new,
      Paced timerId period (done ++ new) (l.foldl (pollTimer now) s).ctx ∧
      pollsPosted timerId (l.foldl (pollTimer now) s).ctx.log =
        pollsPosted timerId s.ctx.log + new.length ∧ ∀ x ∈ new, x.2 = now.toNat := by
  induction l generalizing done s with
  | nil => exact ⟨[], (List.append_nil done).symm ▸ h, rfl, nofun⟩
  | cons i l ih =>
    obtain ⟨hready', new, hpaced, hcount, htimes⟩ := pollTimer_paced h hready i
    obtain ⟨more, hpaced', hcount', htimes'⟩ := ih hpaced hready'
    refine ⟨new ++ more, (List.append_assoc ..) ▸ hpaced', ?_, fun x hx => ?_⟩
    · rw [List.foldl_cons, hcount', hcount, List.length_append, Nat.add_assoc]
    · exact (List.mem_append.1 hx).elim (htimes x) (htimes' x)

theorem pollsPosted_left (timerId : ℕ) {log log' : List Event} {polls : List PollEvent}
    (hlog : pollEvents log' = pollEvents log ++ polls)
    (hleft : ∀ e ∈ polls, e.posts timerId = false) :
    pollsPosted timerId log' = pollsPosted timerId log := by
  have hnone : polls.countP (PollEvent.posts timerId) = 0 :=
    List.countP_eq_zero.2 fun e he => by rw [hleft e he]; decide
  unfold pollsPosted
  rw [hlog, List.countP_append, hnone, Nat.add_zero]

theorem timeOutHead_dues {c : Context} (h : TimersNumbered c) (env : Env) :
    SameDues c.timers (timeOutHead c env).timers := by
  rcases timeOutHead_left h.tagged env with hstill | ⟨_, _, _, _, _, hleave⟩
  · rw [hstill.timers]
    exact .refl _
  · obtain ⟨verdict, htimers, -⟩ := hleave.judged
    rw [htimers]
    exact judge_dues h.distinct _ env verdict

theorem timeOutHead_paced {timerId period : ℕ} {done : List (ℕ × ℕ)} {c : Context}
    (h : Paced timerId period done c) (env : Env) : SameNumbers c (timeOutHead c env) ∧
      SameDues c.timers (timeOutHead c env).timers ∧
      pollsPosted timerId (timeOutHead c env).log = pollsPosted timerId c.log := by
  have hdues := timeOutHead_dues h.toTimersNumbered env
  rcases timeOutHead_left h.tagged env with hstill | ⟨_, _, _, _, _, hleave⟩
  · refine ⟨hstill.sameNumbers, hdues, ?_⟩
    unfold pollsPosted
    rw [hstill.events]
  · refine ⟨hleave.sameNumbers, hdues, pollsPosted_left timerId hleave.events ?_⟩
    intro e he
    rw [List.mem_singleton.1 he]
    rfl

theorem loopPrepare_paced {timerId period : ℕ} {done : List (ℕ × ℕ)} {c : Context}
    (h : Paced timerId period done c) (hmode : ¬ InRounds c) (hrepeats : Repeats timerId period c)
    {sleepTime : Millitime} {env : Env}
    (hprompt : Prompt timerId period c env (.prepare sleepTime)) :
    ∃ new, Paced timerId period (done ++ new) (loopPrepare c sleepTime env).ctx ∧
      pollsPosted timerId (loopPrepare c sleepTime env).ctx.log =
        pollsPosted timerId c.log + new.length ∧
      ∀ x ∈ new, x.2 = (env.clock .due).toNat := by
  unfold loopPrepare
  split_ifs with hconnected
  · rw [prepareEvents_ctx]
    obtain ⟨hsame, hdues, hcount⟩ := timeOutHead_paced h env
    have hpaced := h.quiet hrepeats hsame hdues
    have htimers : (loopPrepareSubscription (timeOutHead c env) sleepTime env) =
        loopPrepareTimers (timeOutHead c env) sleepTime env := by
      unfold loopPrepareSubscription
      split
      · rename_i config hconfig
        rw [if_neg fun hrounds => hmode ⟨config, hsame.config.symm.trans hconfig, hrounds⟩]
      · rfl
    have hready : Ready timerId period (env.clock .due) (timeOutHead c env) := by
      intro t' ht' hid'
      obtain ⟨t, ht, hid, -, hinterval, hnext⟩ := hdues t' ht'
      have hmine := hid.trans hid'
      obtain ⟨honce, hlong⟩ := hrepeats t ht hmine
      obtain ⟨hclock, hlate⟩ := hprompt hconnected t ht hmine
      rw [← hinterval, hnext honce]
      exact ⟨hlong, hclock, (em _).imp_right hlate⟩
    rw [htimers, ← hcount]
    exact walk_paced _ hpaced hready
  · exact ⟨[], (List.append_nil done).symm ▸ h, rfl, nofun⟩

theorem Paced.perform {timerId period : ℕ} {done : List (ℕ × ℕ)} {c : Context}
    (h : Paced timerId period done c) (hmode : ¬ InRounds c) (hrepeats : Repeats timerId period c)
    {call : Call} {env : Env} (hprompt : Prompt timerId period c env call) :
    ∃ new, Paced timerId period (done ++ new) (call.perform c env) ∧
      pollsPosted timerId (call.perform c env).log = pollsPosted timerId c.log + new.length ∧
      ∀ x ∈ new, x.2 = (env.clock .due).toNat := by
  have hquiet : ∀ {c' : Context}, Paced timerId period done c' →
      pollsPosted timerId c'.log = pollsPosted timerId c.log →
      ∃ new, Paced timerId period (done ++ new) c' ∧
        pollsPosted timerId c'.log = pollsPosted timerId c.log + new.length ∧
        ∀ x ∈ new, x.2 = (env.clock .due).toNat := fun hpaced hcount =>
    ⟨[], (List.append_nil done).symm ▸ hpaced, hcount, nofun⟩
  have hstill : ∀ {c' : Context}, Still c c' →
      ∃ new, Paced timerId period (done ++ new) c' ∧
        pollsPosted timerId c'.log = pollsPosted timerId c.log + new.length ∧
        ∀ x ∈ new, x.2 = (env.clock .due).toNat := fun hstill =>
    hquiet (h.quiet hrepeats hstill.sameNumbers (by rw [hstill.timers]; exact .refl _))
      (by unfold pollsPosted; rw [hstill.events])
  cases call with
  | subscribe slaveId request interval =>
    have hperform : (Call.subscribe slaveId request interval).perform c env =
      subscribeRequest c slaveId request interval env := rfl
    rw [hperform]
    rcases subscribeRequest_cases c slaveId request interval env with
      hsame | ⟨mode, writer, timer, -, hid, -, -, hadded⟩
    · rw [hsame]
      exact hquiet (h.quiet hrepeats (setSlave_sameNumbers c slaveId) (.refl _)) rfl
    · rw [hadded]
      refine hquiet ⟨h.toTimersNumbered.insertTimer (h.tagged.insertTimer mode hid slaveId _) hid
        rfl rfl, h.inTime, fun t' ht' hid' x hx => ?_, fun hdone => ?_⟩ rfl
      · obtain ⟨t, ⟨ht, hnext⟩ | rfl, hsame, -⟩ := insertTimer_backoff ht'
        · rw [hnext]
          exact h.waiting t ht (hsame.symm.trans hid') x hx
        · -- the new timer has not been polled yet
          have hknown := h.subscribed (List.ne_nil_of_mem hx)
          rw [← hid', hsame, hid] at hknown
          exact absurd hknown (by omega)
      · exact (h.subscribed hdone).trans (Nat.le_succ _)
  | prepare sleepTime => exact loopPrepare_paced h hmode hrepeats hprompt
  | writeRead revents =>
    rcases loopWriteRead_left h.tagged revents env with hsame | ⟨timerId', serial, error, -, hleave⟩
    · exact hstill hsame
    · obtain ⟨verdict, htimers, -⟩ := hleave.judged
      have hdues : SameDues c.timers (loopWriteRead c revents env).2.timers := by
        rw [htimers]
        exact judge_dues h.distinct _ env verdict
      refine hquiet (h.quiet hrepeats hleave.sameNumbers hdues)
        (pollsPosted_left timerId hleave.events ?_)
      intro e he
      rw [List.mem_singleton.1 he]
      rfl
  | reset =>
    have hemptied := dropAll_emptied env c.queue h.tagged rfl
    have hpaced := h.quiet hrepeats hemptied.sameNumbers
      (by rw [hemptied.timers]; exact .refl _)
    have hrepeats' : Repeats timerId period (dropAll env c.queue c) := by
      unfold Repeats
      rw [hemptied.timers]
      exact hrepeats
    refine hquiet (hpaced.quiet hrepeats' (onceRearm_sameNumbers _ env)
      (onceRearm_rearms _ env).sameDues) (pollsPosted_left timerId hemptied.events ?_)
    intro e he
    obtain ⟨poll, -, rfl⟩ := List.mem_map.1 he
    rfl
  | rearm =>
    exact hquiet (h.quiet hrepeats (onceRearm_sameNumbers c env)
      (onceRearm_rearms c env).sameDues) rfl
  | configure config processConfig frameTimeoutMs =>
    exact hquiet ⟨⟨⟨h.tagged.timers, h.tagged.queue⟩, h.distinct, h.bounded⟩, h.inTime, h.waiting,
      h.subscribed⟩ rfl
  | post slaveId request => exact hstill (Call.still (.post slaveId request) trivial env)
  | raw text stray => exact hstill (Call.still (.raw text stray) trivial env)
  | focus slave => exact hstill (Call.still (.focus slave) trivial env)
  | connect opened => exact hstill (Call.still (.connect opened) trivial env)
  | close => exact hstill (Call.still .close trivial env)
  | arrive bytes => exact hstill (Call.still (.arrive bytes) trivial env)

/-- The conditions of a run together. -/
def Keeps (timerId period : ℕ) (c : Context) (env : Env) (call : Call) : Prop :=
  ¬ InRounds c ∧ Repeats timerId period c ∧ Prompt timerId period c env call

theorem Paced.run {timerId period : ℕ} {calls : List (Call × Env)} {done : List (ℕ × ℕ)}
    {c : Context} (h : Paced timerId period done c)
    (hcalls : Along (Keeps timerId period) calls c) : ∃ new,
      Pacing.InTime period (done ++ new) ∧ new.map Prod.snd = pollTimes timerId calls c := by
  induction calls generalizing done c with
  | nil => exact ⟨[], (List.append_nil done).symm ▸ h.inTime, rfl⟩
  | cons call calls ih =>
    obtain ⟨hmode, hrepeats, hprompt⟩ := hcalls.1
    obtain ⟨new, hpaced, hcount, htimes⟩ := h.perform hmode hrepeats hprompt
    obtain ⟨more, hinTime, hmore⟩ := ih hpaced hcalls.2
    refine ⟨new ++ more, (List.append_assoc ..) ▸ hinTime, ?_⟩
    rw [List.map_append, hmore, pollTimes, hcount, Nat.add_sub_cancel_left]
    refine congrArg (· ++ _) (List.eq_replicate_iff.2 ⟨List.length_map _, fun time htime => ?_⟩)
    obtain ⟨x, hx, rfl⟩ := List.mem_map.1 htime
    exact htimes x hx

theorem Fresh.paced {c : Context} (h : Fresh c) (timerId period : ℕ) :
    Paced timerId period [] c where
  tagged := h.replicated.tagged
  distinct := by simp [h.timers]
  bounded := by simp [h.timers]
  inTime := .nil
  waiting := by simp [h.timers]
  subscribed hne := absurd rfl hne

/-- In parallel and series mode no window of time holds more than two polls of a timer beyond
the periods that fit into it, in every run in which the loop comes to the timer before it has
been due for more than a period. -/
theorem poll_rate {c₀ : Context} (hfresh : Fresh c₀) {timerId period : ℕ} (hperiod : 0 < period)
    {calls : List (Call × Env)} (hmode : Along (fun c _ _ => ¬ InRounds c) calls c₀)
    (hrepeats : Along (fun c _ _ => Repeats timerId period c) calls c₀)
    (hprompt : Along (Prompt timerId period) calls c₀) (start width : ℕ) :
    ((pollTimes timerId calls c₀).filter fun t => start ≤ t ∧ t ≤ start + width).length ≤
      width / period + 2 := by
  obtain ⟨new, hinTime, htimes⟩ :=
    (hfresh.paced timerId period).run (hmode.and (hrepeats.and hprompt))
  rw [← htimes]
  exact hinTime.length_window_le hperiod start width

instance (c : Context) : Decidable (InRounds c) :=
  decidable_of_iff (∃ config ∈ c.config, config.queryMode = .rounds) Iff.rfl

instance (timerId period : ℕ) (c : Context) : Decidable (Repeats timerId period c) :=
  inferInstanceAs (Decidable (∀ t ∈ c.timers, t.timerId = timerId → _ ∧ _))

instance (timerId period : ℕ) (c : Context) (env : Env) (call : Call) :
    Decidable (Prompt timerId period c env call) :=
  match call with
  | .prepare _ => inferInstanceAs (Decidable (c.connected = true → ∀ t ∈ c.timers,
      t.timerId = timerId → _ ∧ (_ ∉ _ → _ ≤ _)))
  | .post _ _ | .raw _ _ | .subscribe _ _ _ | .writeRead _ | .reset | .rearm | .focus _ | .connect _
  | .close | .configure _ _ _ | .arrive _ => isTrue trivial

/-- The first input is polled at this time, and the slave answers. -/
def answeredPoll (transactionId : UInt8) (now : Millitime) : List (Call × Env) :=
  [(.prepare 100, atTime now), (.writeRead ⟨false, true, false, false⟩, atTime now),
    (.arrive [0, transactionId, 0, 0, 0, 5, 5, 3, 2, 0, 7], atTime now),
    (.writeRead ⟨true, false, false, false⟩, atTime now),
    (.writeRead ⟨true, false, false, false⟩, atTime now)]

/-- A second between two polls. -/
theorem poll_rate_example :
    ((pollTimes 1 ((readFirst, atTime 0) :: (answeredPoll 1 10 ++ answeredPoll 2 1700 ++
      answeredPoll 3 2010)) probedContext).filter fun t => 1000 ≤ t ∧ t ≤ 1000 + 1500).length ≤
        1500 / 1000 + 2 ∧
      pollTimes 1 ((readFirst, atTime 0) :: (answeredPoll 1 10 ++ answeredPoll 2 1700 ++
        answeredPoll 3 2010)) probedContext = [10, 1700, 2010] :=
  ⟨poll_rate ⟨rfl, rfl, rfl, rfl⟩ (by decide) (by decide +kernel) (by decide +kernel)
    (by decide +kernel) 1000 1500, by decide +kernel⟩

/-- The loop stalls for five seconds. Then four polls follow within 30 ms, although every one of
them is answered. -/
theorem stall_causes_burst :
    Along (fun c _ _ => ¬ InRounds c ∧ Repeats 1 1000 c ∧ ∀ t ∈ c.timers, ¬ t.unresponsive)
      ((readFirst, atTime 0) :: (answeredPoll 1 1000 ++ answeredPoll 2 6000 ++
        answeredPoll 3 6010 ++ answeredPoll 4 6020 ++ answeredPoll 5 6030)) probedContext ∧
    ¬ ((pollTimes 1 ((readFirst, atTime 0) :: (answeredPoll 1 1000 ++ answeredPoll 2 6000 ++
      answeredPoll 3 6010 ++ answeredPoll 4 6020 ++ answeredPoll 5 6030)) probedContext).filter
        fun t => 6000 ≤ t ∧ t ≤ 6000 + 30).length ≤ 30 / 1000 + 2 := by
  decide +kernel

end Modbusmq
