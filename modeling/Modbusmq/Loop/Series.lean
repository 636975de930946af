import Modbusmq.Library.Cycle
import Modbusmq.Loop.OnceReads
import Modbusmq.Loop.Sleep
import Modbusmq.Loop.Subscriptions

/-!
# Series mode

Every subscription rewrites the intervals of the timers before it. What comes
out is a cycle: each repeating timer has a slot of its own, its interval behind
the slot before it, and the loop moves its due times on by whole cycles.
-/

namespace Modbusmq

def repeatingSubs (subs : List Subscription) : List Subscription :=
  subs.filter fun s => ¬ s.Once

def cycleWaits (subs : List Subscription) : List ℕ :=
  (repeatingSubs subs).map fun s => s.interval.toNat

def repeatingTimers (timers : List Timer) : List Timer := timers.filter fun t => !t.isOnce

theorem repeatingSubs_once {subs : List Subscription} {s : Subscription} (hs : s.Once) :
    repeatingSubs (subs ++ [s]) = repeatingSubs subs := by
  unfold repeatingSubs
  rw [List.filter_append, List.filter_cons_of_neg (by simpa using hs), List.filter_nil,
    List.append_nil]

theorem repeatingSubs_repeating {subs : List Subscription} {s : Subscription} (hs : ¬ s.Once) :
    repeatingSubs (subs ++ [s]) = repeatingSubs subs ++ [s] := by
  unfold repeatingSubs
  rw [List.filter_append, List.filter_cons_of_pos (by simpa using hs), List.filter_nil]

theorem cycleWaits_pos (subs : List Subscription) : ∀ wait ∈ cycleWaits subs, 0 < wait := by
  intro wait hwait
  obtain ⟨s, hs, rfl⟩ := List.mem_map.1 hwait
  have hrep : ¬ s.Once := by simpa using (List.mem_filter.1 hs).2
  have hpos := s.asserted.resolve_right hrep
  omega

theorem wait_ofNat {s : Subscription} (hs : ¬ s.Once) :
    s.wait = UInt64.ofNat s.interval.toNat := by
  have hpos := s.asserted.resolve_right hs
  have hwait := Subscription.wait_toNat hs
  have hint := s.int
  rw [← UInt64.toNat_inj, UInt64.toNat_ofNat', Nat.mod_eq_of_lt (by omega)]
  omega

def Timer.place (t : Timer) : Msg × Bool × Millitime × Millitime × Millitime :=
  (t.msg, t.isOnce, t.origInterval, t.timerInterval, t.timerNextTime)

/-- The timer list of a series: once timers in front, and the repeating ones in their slots,
counted from the slot of the first. -/
structure SeriesTimers (start base : Millitime) (subs : List Subscription)
    (onces reps : List Timer) : Prop where
  onces : ∀ t ∈ onces, t.isOnce = true ∧ t.origInterval = 0 ∧ t.timerInterval = onceRetryMs ∧
    t.timerNextTime = start
  reps : reps.map Timer.place = (repeatingSubs subs).mapIdx fun k s =>
    (s.msg, false, UInt64.ofNat s.interval.toNat, UInt64.ofNat (Cycle.period (cycleWaits subs)),
      base + UInt64.ofNat (Cycle.slot (cycleWaits subs) k))

theorem sum_ofNat (waits : List ℕ) : (waits.map UInt64.ofNat).sum = UInt64.ofNat waits.sum := by
  induction waits with
  | nil => rfl
  | cons wait waits ih => rw [List.map_cons, List.sum_cons, ih, List.sum_cons, UInt64.ofNat_add]

namespace SeriesTimers

variable {start base : Millitime} {subs : List Subscription} {onces reps : List Timer}

theorem length (h : SeriesTimers start base subs onces reps) :
    reps.length = (cycleWaits subs).length := by
  have hlength := congrArg List.length h.reps
  rw [List.length_map, List.length_mapIdx] at hlength
  rw [hlength, cycleWaits, List.length_map]

theorem get (h : SeriesTimers start base subs onces reps) {k : ℕ} {t : Timer}
    (ht : reps[k]? = some t) : ∃ s, (repeatingSubs subs)[k]? = some s ∧ t.msg = s.msg ∧
      t.isOnce = false ∧ t.origInterval = UInt64.ofNat s.interval.toNat ∧
      t.timerInterval = UInt64.ofNat (Cycle.period (cycleWaits subs)) ∧
      t.timerNextTime = base + UInt64.ofNat (Cycle.slot (cycleWaits subs) k) := by
  have hat := congrArg (·[k]?) h.reps
  simp only [List.getElem?_map, ht, Option.map_some, List.getElem?_mapIdx] at hat
  obtain ⟨s, hs, hplace⟩ := Option.map_eq_some_iff.1 hat.symm
  simp only [Timer.place, Prod.mk.injEq] at hplace
  exact ⟨s, hs, hplace.1.symm, hplace.2.1.symm, hplace.2.2.1.symm, hplace.2.2.2.1.symm,
    hplace.2.2.2.2.symm⟩

theorem once (h : SeriesTimers start base subs onces reps) {s : Subscription} (hs : s.Once)
    {timer : Timer} (htimer : timer.isOnce = true ∧ timer.origInterval = 0 ∧
      timer.timerInterval = onceRetryMs ∧ timer.timerNextTime = start) :
    SeriesTimers start base (subs ++ [s]) (timer :: onces) reps where
  onces := List.forall_mem_cons.2 ⟨htimer, h.onces⟩
  reps := by
    have hwaits : cycleWaits (subs ++ [s]) = cycleWaits subs := by
      unfold cycleWaits
      rw [repeatingSubs_once hs]
    rw [repeatingSubs_once hs, hwaits]
    exact h.reps

theorem sum (h : SeriesTimers start base subs onces reps) :
    ((onces ++ reps).map (·.origInterval)).sum = UInt64.ofNat (Cycle.period (cycleWaits subs)) := by
  have honces : (onces.map (·.origInterval)).sum = 0 := by
    have hzero := h.onces
    clear h
    induction onces with
    | nil => rfl
    | cons t onces ih =>
      rw [List.map_cons, List.sum_cons, (hzero t List.mem_cons_self).2.1,
        ih fun t ht => hzero t (List.mem_cons_of_mem _ ht)]
      rfl
  have hreps : reps.map (·.origInterval) = (cycleWaits subs).map UInt64.ofNat := by
    refine List.ext_getElem? fun k => ?_
    cases ht : reps[k]? with
    | some t =>
      obtain ⟨s, hs, -, -, hshare, -⟩ := h.get ht
      rw [List.getElem?_map, ht, Option.map_some, hshare, cycleWaits, List.map_map,
        List.getElem?_map, hs]
      rfl
    | none =>
      have hbeyond := List.getElem?_eq_none_iff.1 ht
      rw [h.length] at hbeyond
      rw [List.getElem?_map, ht, List.getElem?_eq_none (by rwa [List.length_map])]
      rfl
  rw [List.map_append, List.sum_append, honces, hreps, sum_ofNat, UInt64.zero_add]
  rfl

/-- The due time of the last repeating timer, or of a once timer while there is none. -/
theorem last (h : SeriesTimers start base subs onces reps) (hne : onces ++ reps ≠ []) :
    (onces ++ reps).getLast?.elim 0 (·.timerNextTime) =
      if reps = [] then start
      else base + UInt64.ofNat (Cycle.slot (cycleWaits subs) ((cycleWaits subs).length - 1)) := by
  split_ifs with hnil
  · subst hnil
    rw [List.append_nil] at hne ⊢
    rw [List.getLast?_eq_some_getLast hne]
    exact (h.onces _ (List.getLast_mem hne)).2.2.2
  · have hget : reps[(cycleWaits subs).length - 1]? = some (reps.getLast hnil) := by
      rw [← h.length, ← List.getLast?_eq_getElem?, List.getLast?_eq_some_getLast hnil]
    obtain ⟨-, -, -, -, -, -, hnext⟩ := h.get hget
    rw [List.getLast?_append_of_ne_nil _ hnil, List.getLast?_eq_some_getLast hnil]
    exact hnext

/-- A repeating timer at the end gets the next slot, and makes the cycle longer. -/
theorem repeating (h : SeriesTimers start base subs onces reps) (hne : onces ++ reps ≠ [])
    {s : Subscription} (hs : ¬ s.Once) {timer : Timer} (hmsg : timer.msg = s.msg)
    (honce : timer.isOnce = false) (hshare : timer.origInterval = s.wait) :
    ∃ base' reps', insertSeries (onces ++ reps) timer = onces ++ reps' ∧
      SeriesTimers start base' (subs ++ [s]) onces reps' := by
  have hwaits : cycleWaits (subs ++ [s]) = cycleWaits subs ++ [s.interval.toNat] := by
    unfold cycleWaits
    rw [repeatingSubs_repeating hs, List.map_append, List.map_singleton]
  have hperiod : UInt64.ofNat (Cycle.period (cycleWaits subs)) + s.wait =
      UInt64.ofNat (Cycle.period (cycleWaits (subs ++ [s]))) := by
    rw [wait_ofNat hs, ← UInt64.ofNat_add, hwaits]
    unfold Cycle.period
    rw [List.sum_append, List.sum_singleton]
  set base' := if reps = [] then start + s.wait else base
  set total := UInt64.ofNat (Cycle.period (cycleWaits (subs ++ [s])))
  set added : Timer := { timer with
    timerNextTime := (onces ++ reps).getLast?.elim 0 (·.timerNextTime) + timer.origInterval }
  refine ⟨base', (reps ++ [added]).map fun t : Timer => { t with timerInterval := total },
    ?_, h.onces, ?_⟩
  · unfold insertSeries
    have hkept : onces.map (fun t : Timer =>
        if t.isOnce then t else { t with timerInterval := total }) = onces := by
      conv_rhs => rw [← List.map_id onces]
      refine List.map_congr_left fun t ht => ?_
      rw [if_pos (h.onces t ht).1, id]
    have hmoved : (reps ++ [added]).map (fun t : Timer =>
        if t.isOnce then t else { t with timerInterval := total }) =
        (reps ++ [added]).map fun t : Timer => { t with timerInterval := total } := by
      refine List.map_congr_left fun t ht => if_neg ?_
      rcases List.mem_append.1 ht with ht | ht
      · obtain ⟨k, hk, rfl⟩ := List.getElem_of_mem ht
        obtain ⟨-, -, -, hrep, -⟩ := h.get (List.getElem?_eq_getElem hk)
        simp [hrep]
      · rw [List.mem_singleton.1 ht]
        simp [added, honce]
    have htotal : ((onces ++ reps).map (·.origInterval)).sum + timer.origInterval = total := by
      rw [h.sum, hshare, hperiod]
    dsimp only
    rw [htotal, List.append_assoc, List.map_append, hkept]
    exact congrArg (onces ++ ·) hmoved
  · have hlength : (repeatingSubs subs).length = (cycleWaits subs).length := by
      unfold cycleWaits
      rw [List.length_map]
    rw [repeatingSubs_repeating hs]
    refine List.ext_getElem (by simp [h.length, hlength]) fun k hk _ => ?_
    simp only [List.length_map, List.length_append, List.length_singleton, h.length] at hk
    rcases Nat.lt_succ_iff_lt_or_eq.1 hk with hold | rfl
    · -- the slots that exist stay where they are
      have hk' : k < reps.length := h.length ▸ hold
      obtain ⟨s', hs', hmsg', honce', hshare', -, hnext'⟩ := h.get (List.getElem?_eq_getElem hk')
      obtain ⟨hlt, rfl⟩ := List.getElem?_eq_some_iff.1 hs'
      have hbase : base' = base := if_neg (List.ne_nil_of_length_pos (by omega))
      simp only [List.getElem_map, List.getElem_mapIdx, List.getElem_append_left hk',
        List.getElem_append_left hlt, Timer.place, hmsg', honce', hshare', hnext', hwaits]
      rw [hbase, Cycle.slot_append _ hold, ← hwaits]
    · -- the new slot is one interval behind the last one
      have hnext : added.timerNextTime =
          base' + UInt64.ofNat (Cycle.slot (cycleWaits (subs ++ [s])) (cycleWaits subs).length) := by
        have hlast : added.timerNextTime =
            (onces ++ reps).getLast?.elim 0 (·.timerNextTime) + timer.origInterval := rfl
        rw [hlast, h.last hne, hshare, hwaits]
        by_cases hnil : reps = []
        · have hzero : (cycleWaits subs).length = 0 := by rw [← h.length, hnil, List.length_nil]
          have hbase : base' = start + s.wait := if_pos hnil
          rw [if_pos hnil, hbase, hzero, Cycle.slot_zero]
          exact (UInt64.add_zero _).symm
        · have hlength' : 0 < (cycleWaits subs).length := by
            rw [← h.length]
            exact List.length_pos_of_ne_nil hnil
          have hbase : base' = base := if_neg hnil
          rw [if_neg hnil, hbase, Cycle.slot_concat _ hlength', UInt64.ofNat_add, wait_ofNat hs,
            UInt64.add_assoc]
      have hreps : reps.length ≤ (cycleWaits subs).length := h.length.le
      have hsubs : (repeatingSubs subs).length ≤ (cycleWaits subs).length := hlength.le
      simp only [List.getElem_map, List.getElem_mapIdx, List.getElem_append_right hreps,
        List.getElem_append_right hsubs, List.getElem_singleton, Timer.place, hnext]
      rw [← wait_ofNat hs, ← hshare, ← hmsg, ← honce]

end SeriesTimers

/-- The calls that leave the subscriptions and the configuration alone. -/
def Call.Keeps : Call → Prop
  | .subscribe _ _ _ | .configure _ _ _ => False
  | .post _ _ | .raw _ _ | .prepare _ | .writeRead _ | .reset | .rearm | .focus _ | .connect _
  | .close | .arrive _ => True

/-- A repeating timer before and after a call: its due time is the same, or an interval later. -/
structure Stepped (t t' : Timer) : Prop where
  timerId : t'.timerId = t.timerId
  isOnce : t'.isOnce = t.isOnce
  interval : t'.timerInterval = t.timerInterval
  due : ¬ t.isOnce → t'.timerNextTime = t.timerNextTime ∨
    t'.timerNextTime = t.timerNextTime + t.timerInterval

theorem SameDues.stepped {timers timers' : List Timer} (h : SameDues timers timers') :
    ∀ t' ∈ timers', ∃ t ∈ timers, Stepped t t' := by
  intro t' ht'
  obtain ⟨t, ht, hid, honce, hinterval, hdue⟩ := h t' ht'
  exact ⟨t, ht, hid.symm, honce.symm, hinterval.symm, fun hrep => .inl (hdue hrep)⟩

theorem timeOutHead_sameConfig (c : Context) (env : Env) :
    (timeOutHead c env).config = c.config := (timeOutHead_sameRounds c env).config

theorem loopPrepare_stepped {c : Context} (h : TimersNumbered c) (hmode : ¬ InRounds c)
    (sleepTime : Millitime) (env : Env) :
    ∀ t' ∈ (loopPrepare c sleepTime env).ctx.timers, ∃ t ∈ c.timers, Stepped t t' := by
  unfold loopPrepare
  split_ifs
  · rw [prepareEvents_ctx]
    have htimers : loopPrepareSubscription (timeOutHead c env) sleepTime env =
        loopPrepareTimers (timeOutHead c env) sleepTime env := by
      unfold loopPrepareSubscription
      split
      · rename_i config hconfig
        rw [if_neg fun hrounds => hmode
          ⟨config, (timeOutHead_sameConfig c env).symm.trans hconfig, hrounds⟩]
      · rfl
    intro t' ht'
    rw [htimers] at ht'
    obtain ⟨j, hj, rfl⟩ := List.getElem_of_mem ht'
    obtain ⟨t₁, ht₁, hturned, -⟩ := (loopPrepareTimers_walked _ sleepTime env).turned j _
      (List.getElem?_eq_getElem hj)
    obtain ⟨t, ht, hid, honce, hinterval, hdue⟩ :=
      timeOutHead_dues h env t₁ (List.mem_of_getElem? ht₁)
    refine ⟨t, ht, hturned.timerId.trans hid.symm, hturned.isOnce.trans honce.symm,
      hturned.interval.trans hinterval.symm, fun hrep => ?_⟩
    rw [← hdue hrep, hinterval]
    exact hturned.due.imp_right fun hmoved => hmoved.2
  · exact (SameDues.refl c.timers).stepped

theorem Call.stepped {c : Context} (h : TimersNumbered c) (hmode : ¬ InRounds c) {call : Call}
    (hcall : call.Keeps) (env : Env) :
    ∀ t' ∈ (call.perform c env).timers, ∃ t ∈ c.timers, Stepped t t' := by
  by_cases hprepare : ∃ sleepTime, call = .prepare sleepTime
  · obtain ⟨sleepTime, rfl⟩ := hprepare
    exact loopPrepare_stepped h hmode sleepTime env
  have hchange := call.scheduleChange h.tagged env
  generalize call.perform c env = c' at hchange ⊢
  apply SameDues.stepped
  cases hchange with
  | aside hstill =>
    rw [hstill.timers]
    exact .refl _
  | serves _ hleave =>
    obtain ⟨verdict, htimers, -⟩ := hleave.judged
    rw [htimers]
    exact judge_dues h.distinct _ env verdict
  | schedules => exact absurd ⟨_, rfl⟩ hprepare
  | timesOut => exact absurd ⟨_, rfl⟩ hprepare
  | @resets c₁ hemptied =>
    have hrearmed := (onceRearm_rearms c₁ env).sameDues
    rw [hemptied.timers] at hrearmed
    exact hrearmed
  | rearms => exact (onceRearm_rearms c env).sameDues
  | subscribes => exact hcall.elim
  | configures => exact hcall.elim

/-- What series mode makes of the subscriptions. Slots and the period are sums of the intervals
of the repeating ones, and times are 64-bit clock readings. -/
structure SeriesSchedule (start : Millitime) (subs : List Subscription) (timers : List Timer) :
    Prop where
  /-- the repeating timers, in the order of their subscriptions -/
  requests : (repeatingTimers timers).map (·.msg) = (repeatingSubs subs).map (·.msg)
  /-- the first due times are the slots -/
  slots : ∀ (k : ℕ) (t₁ t : Timer), (repeatingTimers timers)[0]? = some t₁ →
    (repeatingTimers timers)[k]? = some t →
    t.timerNextTime - t₁.timerNextTime = UInt64.ofNat (Cycle.slot (cycleWaits subs) k)
  period : ∀ t ∈ repeatingTimers timers,
    t.timerInterval = UInt64.ofNat (Cycle.period (cycleWaits subs))
  /-- in any stretch as long as the period, every slot comes exactly once -/
  once : ∀ k < (cycleWaits subs).length, ∀ time, ∃! j, time ≤ Cycle.due (cycleWaits subs) k j ∧
    Cycle.due (cycleWaits subs) k j < time + Cycle.period (cycleWaits subs)
  distinct : ∀ k < (cycleWaits subs).length, ∀ m < (cycleWaits subs).length,
    Cycle.slot (cycleWaits subs) k % Cycle.period (cycleWaits subs) =
      Cycle.slot (cycleWaits subs) m % Cycle.period (cycleWaits subs) → k = m
  /-- one due time is behind the other by the interval of its own timer -/
  gaps : ∀ (h : 0 < (cycleWaits subs).length) (m : ℕ), Cycle.turn (cycleWaits subs) (m + 1) =
    Cycle.turn (cycleWaits subs) m +
      (cycleWaits subs).get ⟨(m + 1) % (cycleWaits subs).length, Nat.mod_lt _ h⟩
  /-- once inputs are due at the start, and are not part of the cycle -/
  apart : ∀ t ∈ timers, t.isOnce → t.timerNextTime = start ∧ t.timerInterval = onceRetryMs

theorem SeriesTimers.repeatingTimers {start base : Millitime} {subs : List Subscription}
    {onces reps : List Timer} (h : SeriesTimers start base subs onces reps) :
    Modbusmq.repeatingTimers (onces ++ reps) = reps := by
  unfold Modbusmq.repeatingTimers
  rw [List.filter_append, List.filter_eq_nil_iff.2, List.nil_append, List.filter_eq_self]
  · intro t ht
    obtain ⟨k, hk, rfl⟩ := List.getElem_of_mem ht
    obtain ⟨-, -, -, hrep, -⟩ := h.get (List.getElem?_eq_getElem hk)
    rw [hrep]
    rfl
  · intro t ht
    rw [(h.onces t ht).1]
    simp

theorem SeriesTimers.offset {start base : Millitime} {subs : List Subscription}
    {onces reps : List Timer} (h : SeriesTimers start base subs onces reps) {k : ℕ} {t₁ t : Timer}
    (ht₁ : reps[0]? = some t₁) (ht : reps[k]? = some t) :
    t.timerNextTime = t₁.timerNextTime + UInt64.ofNat (Cycle.slot (cycleWaits subs) k) := by
  obtain ⟨-, -, -, -, -, -, hfirst⟩ := h.get ht₁
  obtain ⟨-, -, -, -, -, -, hnext⟩ := h.get ht
  have hzero : UInt64.ofNat 0 = 0 := rfl
  rw [hnext, hfirst, Cycle.slot_zero, hzero, UInt64.add_zero]

theorem SeriesTimers.schedule {start base : Millitime} {subs : List Subscription}
    {onces reps : List Timer} (h : SeriesTimers start base subs onces reps) :
    SeriesSchedule start subs (onces ++ reps) where
  requests := by
    rw [h.repeatingTimers]
    refine List.ext_getElem? fun k => ?_
    rw [List.getElem?_map, List.getElem?_map]
    cases ht : reps[k]? with
    | some t =>
      obtain ⟨s, hs, hmsg, -⟩ := h.get ht
      rw [hs, Option.map_some, Option.map_some, hmsg]
    | none =>
      have hbeyond := List.getElem?_eq_none_iff.1 ht
      rw [h.length, cycleWaits, List.length_map] at hbeyond
      rw [List.getElem?_eq_none hbeyond]
      rfl
  slots := by
    rw [h.repeatingTimers]
    intro k t₁ t ht₁ ht
    rw [h.offset ht₁ ht, UInt64.add_comm, UInt64.add_sub_cancel]
  period := by
    rw [h.repeatingTimers]
    intro t ht
    obtain ⟨k, hk, rfl⟩ := List.getElem_of_mem ht
    obtain ⟨-, -, -, -, -, hperiod, -⟩ := h.get (List.getElem?_eq_getElem hk)
    exact hperiod
  once k hk time := Cycle.due_once (cycleWaits_pos subs) hk time
  distinct k hk m hm heq := Cycle.slot_mod_inj (cycleWaits_pos subs) hk hm heq
  gaps h m := Cycle.turn_succ h m
  apart := by
    intro t ht honce
    rcases List.mem_append.1 ht with ht | ht
    · exact ⟨(h.onces t ht).2.2.2, (h.onces t ht).2.2.1⟩
    · obtain ⟨k, hk, rfl⟩ := List.getElem_of_mem ht
      obtain ⟨-, -, -, hrep, -⟩ := h.get (List.getElem?_eq_getElem hk)
      rw [hrep] at honce
      exact absurd honce (by decide)

end Modbusmq
