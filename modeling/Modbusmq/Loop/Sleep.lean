import Modbusmq.Loop.PollRate

/-!
# How long the caller may sleep

The sleep time is a minimum of the caller's ceiling and of differences between
deadlines and the clock, on unsigned times: a deadline that is over gives a
difference that has wrapped around.
-/

namespace Modbusmq

/-- The limit of the caller; 0 asks for the default. -/
def sleepCeiling (sleepTime : Millitime) : Millitime := if 0 < sleepTime then sleepTime else 1000

/-- The start of the next round while none is active; without timers there is none. -/
def nextRound (c : Context) : Option Millitime :=
  match c.config with
  | some config =>
    if config.queryMode = .rounds ∧ ¬ c.roundActive ∧ c.timers ≠ [] then
      some (c.roundStartMs + UInt64.ofInt config.roundIntervalMs)
    else none
  | none => none

/-- The end of the quiet gap that holds back the head of the queue. -/
def heldUntil (c : Context) (now : Millitime) : Option Millitime :=
  match c.queue, c.config with
  | wrapper :: _, some config =>
    if frameIncomplete c.transport wrapper.msg.writer ≠ 0 ∧ wrapper.msg.writer.xmit = 0 ∧
        0 < config.frameDelayMs ∧ now < c.lastReadMs + UInt64.ofInt config.frameDelayMs then
      some (c.lastReadMs + UInt64.ofInt config.frameDelayMs)
    else none
  | _, _ => none

/-- What the loop schedules for later. -/
inductive Deadline (c : Context) (now : Millitime) : Millitime → Prop
  | timer (hmode : ¬ InRounds c) {t : Timer} (ht : t ∈ c.timers) : Deadline c now t.timerNextTime
  | round {start : Millitime} (h : nextRound c = some start) : Deadline c now start
  | gap {stop : Millitime} (h : heldUntil c now = some stop) : Deadline c now stop

/-- The sleep time a call returns: the caller does not sleep beyond its ceiling nor through
anything that is scheduled. -/
structure SleepContract (sleepTime now : Millitime) (p : Prepared) : Prop where
  ceiling : p.sleepTime ≤ sleepCeiling sleepTime
  timers : ¬ InRounds p.ctx → ∀ t ∈ p.ctx.timers, now < t.timerNextTime →
    now.toNat + p.sleepTime.toNat ≤ t.timerNextTime.toNat
  round : ∀ start, nextRound p.ctx = some start → now.toNat + p.sleepTime.toNat ≤ start.toNat
  gap : ∀ stop, heldUntil p.ctx now = some stop → now.toNat + p.sleepTime.toNat ≤ stop.toNat
  /-- a difference that has wrapped around is never what the caller gets -/
  harmless : now.toNat + (sleepCeiling sleepTime).toNat ≤ 2 ^ 64 →
    p.sleepTime = sleepCeiling sleepTime ∨
      ∃ deadline, Deadline p.ctx now deadline ∧ now ≤ deadline ∧ p.sleepTime = deadline - now

theorem sleep_before {now deadline sleepTime : Millitime} (hfuture : now ≤ deadline)
    (hle : sleepTime ≤ deadline - now) : now.toNat + sleepTime.toNat ≤ deadline.toNat := by
  have hnow := UInt64.le_iff_toNat_le.1 hfuture
  rw [UInt64.le_iff_toNat_le, UInt64.toNat_sub_of_le _ _ hfuture] at hle
  omega

/-- A difference that has wrapped around is larger than a ceiling that does not. -/
theorem wrapped_above {now deadline ceiling : Millitime} (hpast : deadline < now)
    (hclock : now.toNat + ceiling.toNat ≤ 2 ^ 64) : ceiling ≤ deadline - now := by
  rw [UInt64.lt_iff_toNat_lt] at hpast
  have hnow := now.toNat_lt
  rw [UInt64.le_iff_toNat_le, UInt64.toNat_sub]
  omega

/-- A timer before and after its turn. -/
structure Turned (now : Millitime) (t t' : Timer) : Prop where
  timerId : t'.timerId = t.timerId
  isOnce : t'.isOnce = t.isOnce
  interval : t'.timerInterval = t.timerInterval
  due : t'.timerNextTime = t.timerNextTime ∨
    t.timerNextTime ≤ now ∧ t'.timerNextTime = t.timerNextTime + t.timerInterval

theorem Turned.refl (now : Millitime) (t : Timer) : Turned now t t := ⟨rfl, rfl, rfl, .inl rfl⟩

theorem schedule_turned {t t' : Timer} (h : t'.schedule = t.schedule) (now : Millitime) :
    Turned now t t' ∧ t'.timerNextTime = t.timerNextTime := by
  simp only [Timer.schedule, Prod.mk.injEq] at h
  exact ⟨⟨h.1, h.2.1, h.2.2.1, .inl h.2.2.2⟩, h.2.2.2⟩

theorem getElem?_schedule {timers timers' : List Timer}
    (h : timers'.map Timer.schedule = timers.map Timer.schedule) {i : ℕ} {t' : Timer}
    (ht' : timers'[i]? = some t') : ∃ t, timers[i]? = some t ∧ t'.schedule = t.schedule := by
  have hat := congrArg (·[i]?) h
  simp only [List.getElem?_map, ht', Option.map_some] at hat
  obtain ⟨t, ht, hsame⟩ := Option.map_eq_some_iff.1 hat.symm
  exact ⟨t, ht, hsame.symm⟩

/-- A turn is about one timer, and takes its due time into account. -/
theorem pollTimer_turn (now : Millitime) (s : Scheduled) (i : ℕ) {j : ℕ} {t' : Timer}
    (ht' : (pollTimer now s i).ctx.timers[j]? = some t') :
    ∃ t, s.ctx.timers[j]? = some t ∧ Turned now t t' ∧
      (i ≠ j → t'.timerNextTime = t.timerNextTime) ∧
      (i = j → (pollTimer now s i).sleepTime = min s.sleepTime (t'.timerNextTime - now)) := by
  have hsleep : i = j → (pollTimer now s i).sleepTime =
      min s.sleepTime (t'.timerNextTime - now) := by
    rintro rfl
    unfold pollTimer at ht' ⊢
    split at ht' <;> rename_i hi
    · rw [hi] at ht'
      exact absurd ht' (by simp)
    · dsimp only at ht' ⊢
      rw [ht']
      rfl
  rcases pollTimer_cases now s i with hsame | ⟨timer, ht, hdue, -, hturn⟩
  · rw [hsame] at ht'
    exact ⟨t', ht', .refl now t', fun _ => rfl, hsleep⟩
  · rw [hturn] at ht'
    simp only [advanceTimer, List.getElem?_modify] at ht'
    obtain ⟨u, hu, hmoved⟩ := Option.map_eq_some_iff.1 ht'
    obtain ⟨t, hj, hschedule⟩ := getElem?_schedule (gatePost_schedules s.ctx timer now i) hu
    obtain ⟨hturned, hnext⟩ := schedule_turned hschedule now
    refine ⟨t, hj, ?_, ?_, hsleep⟩
    · split_ifs at hmoved with hij
      · subst hij hmoved
        rw [ht] at hj
        obtain rfl := Option.some.inj hj
        refine ⟨hturned.timerId, hturned.isOnce, hturned.interval, .inr ⟨hdue, ?_⟩⟩
        simp only [hnext, hturned.interval]
      · exact hmoved ▸ hturned
    · intro hij
      rw [if_neg hij] at hmoved
      exact hmoved ▸ hnext

theorem pollTimer_length (now : Millitime) (s : Scheduled) (i : ℕ) :
    (pollTimer now s i).ctx.timers.length = s.ctx.timers.length := by
  rcases pollTimer_cases now s i with hsame | ⟨timer, -, -, -, hturn⟩
  · rw [hsame]
  · have hmap := congrArg List.length (gatePost_schedules s.ctx timer now i)
    rw [List.length_map, List.length_map] at hmap
    rw [hturn, ← hmap]
    exact List.length_modify ..

/-- The first `n` timers have had their turns. -/
structure TimersWalked (now : Millitime) (n : ℕ) (s s' : Scheduled) : Prop where
  length : s'.ctx.timers.length = s.ctx.timers.length
  lowered : s'.sleepTime ≤ s.sleepTime
  turned : ∀ (j : ℕ) (t' : Timer), s'.ctx.timers[j]? = some t' → ∃ t, s.ctx.timers[j]? = some t ∧
    Turned now t t' ∧ (n ≤ j → t'.timerNextTime = t.timerNextTime) ∧
    (j < n → s'.sleepTime ≤ t'.timerNextTime - now)
  reached : s'.sleepTime = s.sleepTime ∨
    ∃ j < n, ∃ t', s'.ctx.timers[j]? = some t' ∧ s'.sleepTime = t'.timerNextTime - now

theorem foldl_walked (now : Millitime) (s : Scheduled) (n : ℕ) :
    TimersWalked now n s ((List.range n).foldl (pollTimer now) s) := by
  induction n with
  | zero =>
    exact ⟨rfl, UInt64.le_refl _, fun j t' ht' =>
      ⟨t', ht', .refl now t', fun _ => rfl, fun hj => absurd hj (Nat.not_lt_zero j)⟩, .inl rfl⟩
  | succ n ih =>
    rw [List.range_succ, List.foldl_append, List.foldl_cons, List.foldl_nil]
    generalize (List.range n).foldl (pollTimer now) s = s₁ at ih ⊢
    have hsleep : (pollTimer now s₁ n).sleepTime ≤ s₁.sleepTime := by
      unfold pollTimer
      split
      · exact UInt64.le_refl _
      · exact Std.min_le_left
    have hlength := pollTimer_length now s₁ n
    refine ⟨hlength.trans ih.length, UInt64.le_trans hsleep ih.lowered, fun j t' ht' => ?_, ?_⟩
    · obtain ⟨t₁, ht₁, hturned₁, hother, hmine⟩ := pollTimer_turn now s₁ n ht'
      obtain ⟨t, ht, hturned, hlater, hbefore⟩ := ih.turned j t₁ ht₁
      refine ⟨t, ht, ?_, fun hj => ?_, fun hj => ?_⟩
      · refine ⟨hturned₁.timerId.trans hturned.timerId, hturned₁.isOnce.trans hturned.isOnce,
          hturned₁.interval.trans hturned.interval, ?_⟩
        -- only one of the two steps is its own turn
        by_cases hj : n = j
        · rw [← hlater hj.le, ← hturned.interval]
          exact hturned₁.due
        · rw [hother hj]
          exact hturned.due
      · rw [hother (by omega), hlater (by omega)]
      · by_cases hj' : n = j
        · rw [hmine hj']
          exact Std.min_le_right
        · rw [hother hj']
          exact UInt64.le_trans hsleep (hbefore (by omega))
    · -- the turn keeps the sleep time, or sets it to the difference of its own timer
      have hkept : (pollTimer now s₁ n).sleepTime = s₁.sleepTime ∨ ∃ t',
          (pollTimer now s₁ n).ctx.timers[n]? = some t' ∧
          (pollTimer now s₁ n).sleepTime = t'.timerNextTime - now := by
        cases hn : (pollTimer now s₁ n).ctx.timers[n]? with
        | none =>
          refine .inl ?_
          have hnone : s₁.ctx.timers[n]? = none := by
            rw [List.getElem?_eq_none_iff] at hn ⊢
            omega
          unfold pollTimer
          rw [hnone]
        | some t' =>
          obtain ⟨-, -, -, -, hmine⟩ := pollTimer_turn now s₁ n hn
          rcases Std.MinEqOr.min_eq_or s₁.sleepTime (t'.timerNextTime - now) with hmin | hmin
          · exact .inl ((hmine rfl).trans hmin)
          · exact .inr ⟨t', rfl, (hmine rfl).trans hmin⟩
      rcases hkept with hkept | ⟨t', ht', hkept⟩
      · rcases ih.reached with hreached | ⟨j, hj, t₁, ht₁, hreached⟩
        · exact .inl (hkept.trans hreached)
        · have hlt : j < (pollTimer now s₁ n).ctx.timers.length := by
            have := (List.getElem?_eq_some_iff.1 ht₁).1
            omega
          obtain ⟨t, ht, -, hother, -⟩ := pollTimer_turn now s₁ n (List.getElem?_eq_getElem hlt)
          rw [ht₁] at ht
          obtain rfl := Option.some.inj ht
          refine .inr ⟨j, by omega, _, List.getElem?_eq_getElem hlt, ?_⟩
          rw [hkept, hreached, hother (by omega)]
      · exact .inr ⟨n, by omega, t', ht', hkept⟩

theorem loopPrepareTimers_walked (c : Context) (sleepTime : Millitime) (env : Env) :
    TimersWalked (env.clock .due) c.timers.length ⟨c, sleepCeiling sleepTime⟩
      (loopPrepareTimers c sleepTime env) :=
  foldl_walked _ _ _

theorem frameDelayLeft_pos {c : Context} {now : Millitime} (h : 0 < frameDelayLeft c now) :
    ∃ config, c.config = some config ∧ 0 < config.frameDelayMs ∧
      now < c.lastReadMs + UInt64.ofInt config.frameDelayMs ∧
      frameDelayLeft c now = c.lastReadMs + UInt64.ofInt config.frameDelayMs - now := by
  unfold frameDelayLeft at h ⊢
  cases hconfig : c.config with
  | none =>
    rw [hconfig] at h
    exact absurd h (by simp)
  | some config =>
    rw [hconfig] at h
    dsimp only at h ⊢
    split_ifs at h ⊢ with hover
    · exact absurd h (UInt64.lt_irrefl 0)
    · rw [not_or, not_le, UInt64.not_le] at hover
      exact ⟨config, rfl, hover.1, hover.2, rfl⟩

theorem frameDelayLeft_of_lt {c : Context} {config : Config} {now : Millitime}
    (hconfig : c.config = some config) (hdelay : 0 < config.frameDelayMs)
    (hlt : now < c.lastReadMs + UInt64.ofInt config.frameDelayMs) : 0 < frameDelayLeft c now := by
  unfold frameDelayLeft
  rw [hconfig]
  dsimp only
  rw [if_neg (not_or.2 ⟨not_le.2 hdelay, UInt64.not_le.2 hlt⟩), UInt64.lt_iff_toNat_lt,
    UInt64.toNat_sub_of_le _ _ (UInt64.le_of_lt hlt)]
  rw [UInt64.lt_iff_toNat_lt] at hlt
  have hzero : (0 : Millitime).toNat = 0 := rfl
  omega

theorem heldUntil_future {c : Context} {now stop : Millitime} (h : heldUntil c now = some stop) :
    now < stop := by
  unfold heldUntil at h
  split at h
  · split_ifs at h with hheld
    rw [← Option.some.inj h]
    exact hheld.2.2.2
  · exact absurd h (by simp)

/-- Only a head that is held back lowers the sleep time further, and then to the end of the
gap. -/
theorem prepareEvents_sleep (s : Scheduled) (env : Env) :
    (heldUntil s.ctx (env.clock .gap) = none ∧ (prepareEvents s env).sleepTime = s.sleepTime) ∨
      ∃ stop, heldUntil s.ctx (env.clock .gap) = some stop ∧
        (prepareEvents s env).sleepTime = min s.sleepTime (stop - env.clock .gap) := by
  unfold prepareEvents
  split
  · rename_i hq
    refine .inl ⟨?_, rfl⟩
    unfold heldUntil
    rw [hq]
  · rename_i wrapper rest hq
    dsimp only
    by_cases hunsent : frameIncomplete s.ctx.transport wrapper.msg.writer ≠ 0
    · rw [if_pos hunsent]
      by_cases hheld : wrapper.msg.writer.xmit = 0 ∧ 0 < frameDelayLeft s.ctx (env.clock .gap)
      · obtain ⟨config, hconfig, hdelay, hlt, hleft⟩ := frameDelayLeft_pos hheld.2
        refine .inr ⟨_, ?_, by rw [if_pos hheld, hleft]⟩
        unfold heldUntil
        rw [hq, hconfig]
        exact if_pos ⟨hunsent, hheld.1, hdelay, hlt⟩
      · refine .inl ⟨?_, by rw [if_neg hheld]⟩
        unfold heldUntil
        rw [hq]
        cases hconfig : s.ctx.config with
        | none => rfl
        | some config =>
          refine if_neg fun h => hheld ⟨h.2.1, ?_⟩
          exact frameDelayLeft_of_lt hconfig h.2.2.1 h.2.2.2
    · rw [if_neg hunsent]
      refine .inl ⟨?_, by split_ifs <;> rfl⟩
      unfold heldUntil
      rw [hq]
      cases hconfig : s.ctx.config with
      | none => rfl
      | some config => exact if_neg fun h => hunsent h.1

/-- What scheduling finds, before it looks at the head of the queue. -/
structure ScheduleContract (sleepTime now : Millitime) (s : Scheduled) : Prop where
  ceiling : s.sleepTime ≤ sleepCeiling sleepTime
  timers : ¬ InRounds s.ctx → ∀ t ∈ s.ctx.timers, s.sleepTime ≤ t.timerNextTime - now
  round : ∀ start, nextRound s.ctx = some start → now < start ∧ s.sleepTime ≤ start - now
  reached : s.sleepTime = sleepCeiling sleepTime ∨
    ∃ deadline, Deadline s.ctx now deadline ∧ s.sleepTime = deadline - now

theorem loopPrepareTimers_contract {c : Context} (hmode : ¬ InRounds c) (sleepTime : Millitime)
    (env : Env) :
    ScheduleContract sleepTime (env.clock .due) (loopPrepareTimers c sleepTime env) := by
  have hwalk := loopPrepareTimers_walked c sleepTime env
  have hnumbers := (loopPrepareTimers_schedule c sleepTime env).gates.sameNumbers
  generalize loopPrepareTimers c sleepTime env = s at hwalk hnumbers ⊢
  have hmode' : ¬ InRounds s.ctx := by
    unfold InRounds
    rw [hnumbers.config]
    exact hmode
  refine ⟨hwalk.lowered, fun _ t ht => ?_, fun start hstart => ?_, ?_⟩
  · obtain ⟨j, hj, rfl⟩ := List.getElem_of_mem ht
    obtain ⟨-, -, -, -, hbefore⟩ := hwalk.turned j _ (List.getElem?_eq_getElem hj)
    exact hbefore (hwalk.length ▸ hj)
  · unfold nextRound at hstart
    split at hstart
    · rename_i config hconfig
      split_ifs at hstart with hrounds
      exact absurd ⟨config, hconfig, hrounds.1⟩ hmode'
    · exact absurd hstart (by simp)
  · rcases hwalk.reached with hreached | ⟨j, -, t, ht, hreached⟩
    · exact .inl hreached
    · exact .inr ⟨_, .timer hmode' (List.mem_of_getElem? ht), hreached⟩

theorem loopPrepareRounds_contract {c : Context} {config : Config} (hconfig : c.config = some config)
    (hmode : config.queryMode = .rounds) (sleepTime : Millitime) (env : Env) :
    ScheduleContract sleepTime (env.clock .due) (loopPrepareRounds c config sleepTime env) := by
  have hover : (roundOver c env).config = some config := by
    unfold roundOver
    split_ifs <;> exact hconfig
  have hrounds {c' : Context} (h : c'.config = some config) : InRounds c' := ⟨config, h, hmode⟩
  have hnext {c' : Context} (h : c'.config = some config) : nextRound c' =
      if ¬ c'.roundActive ∧ c'.timers ≠ [] then
        some (c'.roundStartMs + UInt64.ofInt config.roundIntervalMs) else none := by
    unfold nextRound
    rw [h]
    simp only [hmode, true_and]
  have hcontract {s : Scheduled} (h : s.ctx.config = some config)
      (hnone : nextRound s.ctx = none) (hsleep : s.sleepTime = sleepCeiling sleepTime) :
      ScheduleContract sleepTime (env.clock .due) s :=
    ⟨by rw [hsleep]; exact UInt64.le_refl _, fun hno => absurd (hrounds h) hno,
      fun start hstart => by rw [hnone] at hstart; exact absurd hstart (by simp), .inl hsleep⟩
  have heq : loopPrepareRounds c config sleepTime env =
      if ¬ (roundOver c env).roundActive ∧ (roundOver c env).timers ≠ [] then
        if (roundOver c env).roundStartMs + UInt64.ofInt config.roundIntervalMs ≤ env.clock .due then
          ⟨roundStart (roundOver c env) env, sleepCeiling sleepTime⟩
        else ⟨roundOver c env, min (sleepCeiling sleepTime) ((roundOver c env).roundStartMs +
          UInt64.ofInt config.roundIntervalMs - env.clock .due)⟩
      else ⟨roundOver c env, sleepCeiling sleepTime⟩ := rfl
  rw [heq]
  generalize roundOver c env = c' at hover ⊢
  by_cases hidle : ¬ c'.roundActive ∧ c'.timers ≠ []
  · rw [if_pos hidle]
    by_cases hdue : c'.roundStartMs + UInt64.ofInt config.roundIntervalMs ≤ env.clock .due
    · -- a round that starts is active after the call
      rw [if_pos hdue]
      obtain ⟨hactive, -, hkept, -⟩ := roundStart_kept c' env
      refine hcontract (hkept.trans hover) ?_ rfl
      rw [hnext (hkept.trans hover), if_neg fun h => h.1 hactive]
    · rw [if_neg hdue]
      have hstart : nextRound c' = some (c'.roundStartMs + UInt64.ofInt config.roundIntervalMs) := by
        rw [hnext hover, if_pos hidle]
      refine ⟨Std.min_le_left, fun hno => absurd (hrounds hover) hno, fun start h => ?_, ?_⟩
      · obtain rfl := Option.some.inj (hstart.symm.trans h)
        exact ⟨UInt64.not_le.1 hdue, Std.min_le_right⟩
      · rcases Std.MinEqOr.min_eq_or (sleepCeiling sleepTime) (c'.roundStartMs +
          UInt64.ofInt config.roundIntervalMs - env.clock .due) with hmin | hmin
        · exact .inl hmin
        · exact .inr ⟨_, .round hstart, hmin⟩
  · rw [if_neg hidle]
    refine hcontract hover ?_ rfl
    rw [hnext hover, if_neg hidle]

theorem loopPrepareSubscription_contract (c : Context) (sleepTime : Millitime) (env : Env) :
    ScheduleContract sleepTime (env.clock .due) (loopPrepareSubscription c sleepTime env) := by
  unfold loopPrepareSubscription
  split
  · rename_i config hconfig
    split_ifs with hmode
    · exact loopPrepareRounds_contract hconfig hmode sleepTime env
    · refine loopPrepareTimers_contract ?_ sleepTime env
      rintro ⟨config', hconfig', hrounds⟩
      rw [hconfig] at hconfig'
      exact hmode (Option.some.inj hconfig' ▸ hrounds)
  · rename_i hnone
    refine loopPrepareTimers_contract ?_ sleepTime env
    rintro ⟨config, hconfig, -⟩
    rw [hnone] at hconfig
    exact absurd hconfig (by simp)

/-- What a call returns is the ceiling, or lowered to something that is scheduled. -/
theorem loopPrepare_sleep {c : Context} (hopen : c.connected) (sleepTime : Millitime) {env : Env}
    {now : Millitime} (hclock : ∀ site, env.clock site = now) :
    (loopPrepare c sleepTime env).sleepTime ≤ sleepCeiling sleepTime ∧
      ((loopPrepare c sleepTime env).sleepTime = sleepCeiling sleepTime ∨
        ∃ deadline, Deadline (loopPrepare c sleepTime env).ctx now deadline ∧
          (loopPrepare c sleepTime env).sleepTime = deadline - now) := by
  unfold loopPrepare
  rw [if_pos hopen]
  have hscheduled := loopPrepareSubscription_contract (timeOutHead c env) sleepTime env
  generalize loopPrepareSubscription (timeOutHead c env) sleepTime env = s at hscheduled ⊢
  have hgap := prepareEvents_sleep s env
  rw [prepareEvents_ctx]
  generalize prepareEvents s env = p at hgap ⊢
  rw [hclock] at hscheduled hgap
  rcases hgap with ⟨-, hsame⟩ | ⟨stop, hstop, hmin⟩
  · rw [hsame]
    exact ⟨hscheduled.ceiling, hscheduled.reached⟩
  · rw [hmin]
    refine ⟨UInt64.le_trans Std.min_le_left hscheduled.ceiling, ?_⟩
    rcases Std.MinEqOr.min_eq_or s.sleepTime (stop - now) with h | h
    · rw [h]
      exact hscheduled.reached
    · exact .inr ⟨stop, .gap hstop, h⟩

/-- In every state and at every time, what a call returns keeps the sleep contract. -/
theorem sleep_contract {c : Context} (hopen : c.connected) (sleepTime : Millitime) {env : Env}
    {now : Millitime} (hclock : ∀ site, env.clock site = now) :
    SleepContract sleepTime now (loopPrepare c sleepTime env) := by
  obtain ⟨hceiling, hreached⟩ := loopPrepare_sleep hopen sleepTime hclock
  unfold loopPrepare at hceiling hreached ⊢
  rw [if_pos hopen] at hceiling hreached ⊢
  have hscheduled := loopPrepareSubscription_contract (timeOutHead c env) sleepTime env
  generalize loopPrepareSubscription (timeOutHead c env) sleepTime env = s
    at hscheduled hceiling hreached ⊢
  have hgap := prepareEvents_sleep s env
  have hctx := prepareEvents_ctx s env
  generalize prepareEvents s env = p at hgap hctx hceiling hreached ⊢
  rw [hclock] at hscheduled hgap
  have hle : p.sleepTime ≤ s.sleepTime := by
    rcases hgap with ⟨-, hsame⟩ | ⟨stop, -, hmin⟩
    · rw [hsame]
      exact UInt64.le_refl _
    · rw [hmin]
      exact Std.min_le_left
  refine ⟨hceiling, ?_, ?_, ?_, fun hfits => ?_⟩
  · rw [hctx]
    intro hmode t ht hfuture
    exact sleep_before (UInt64.le_of_lt hfuture)
      (UInt64.le_trans hle (hscheduled.timers hmode t ht))
  · rw [hctx]
    intro start hstart
    obtain ⟨hfuture, hsleep⟩ := hscheduled.round start hstart
    exact sleep_before (UInt64.le_of_lt hfuture) (UInt64.le_trans hle hsleep)
  · rw [hctx]
    intro stop hstop
    refine sleep_before (UInt64.le_of_lt (heldUntil_future hstop)) ?_
    rcases hgap with ⟨hnone, -⟩ | ⟨stop', hstop', hmin⟩
    · rw [hnone] at hstop
      exact absurd hstop (by simp)
    · obtain rfl := Option.some.inj (hstop'.symm.trans hstop)
      rw [hmin]
      exact Std.min_le_right
  · rcases hreached with hceiling | ⟨deadline, hdeadline, hsleep⟩
    · exact .inl hceiling
    · rcases UInt64.lt_or_le deadline now with hpast | hfuture
      · -- the difference has wrapped around, so it is not below the ceiling
        refine .inl (UInt64.le_antisymm hceiling ?_)
        rw [hsleep]
        exact wrapped_above hpast hfits
      · exact .inr ⟨deadline, hdeadline, hfuture, hsleep⟩

/-- The first poll goes out at 5 ms, and the next one is due at 1000 ms. -/
theorem sleep_contract_example :
    SleepContract 0 5
        (loopPrepare (run [(readFirst, atTime 0)] probedContext) 0 (atTime 5)) ∧
      (loopPrepare (run [(readFirst, atTime 0)] probedContext) 0 (atTime 5)).sleepTime = 995 :=
  ⟨sleep_contract (by decide +kernel) 0 fun _ => rfl, by decide +kernel⟩

end Modbusmq
