import Modbusmq.Library.Insertion
import Modbusmq.Loop.Timers

/-!
# Subscribing in parallel mode

`modbusmq_subscribe` called any number of times on a context without timers.
The walk that keeps repeating timers sorted by interval also compares with the
retry interval of once timers, and stops at them.
-/

namespace Modbusmq

/-- One call of `modbusmq_subscribe`, with the interval it asserts. -/
structure Subscription where
  msg : Msg
  interval : ℤ
  env : Env
  asserted : 0 < interval ∨ interval = intervalOnce
  int : interval < 2 ^ 31

namespace Subscription

def Once (s : Subscription) : Prop := s.interval = intervalOnce

instance (s : Subscription) : Decidable s.Once := inferInstanceAs (Decidable (_ = _))

def wait (s : Subscription) : Millitime :=
  if s.Once then onceRetryMs else UInt64.ofInt s.interval

theorem wait_toNat {s : Subscription} (h : ¬ s.Once) : (s.wait.toNat : ℤ) = s.interval := by
  have hpos : 0 < s.interval := s.asserted.resolve_right h
  unfold wait
  rw [if_neg h, toNat_interval hpos s.int]

/-- What a timer keeps of the subscription with this number: number, request, kind and
interval. -/
def entry (timerId : ℕ) (s : Subscription) : ℕ × Msg × Bool × Millitime :=
  (timerId, s.msg, decide s.Once, s.wait)

end Subscription

def Timer.entry (t : Timer) : ℕ × Msg × Bool × Millitime :=
  (t.timerId, t.msg, t.isOnce, t.timerInterval)

def subscribeEach (c : Context) (subs : List Subscription) : Context :=
  subs.foldl (fun c s => (subscribe c s.msg s.interval s.env).2) c

theorem subscribeEach_concat (c : Context) (subs : List Subscription) (s : Subscription) :
    subscribeEach c (subs ++ [s]) =
      (subscribe (subscribeEach c subs) s.msg s.interval s.env).2 := by
  unfold subscribeEach
  rw [List.foldl_append, List.foldl_cons, List.foldl_nil]

theorem newTimer_entry (c : Context) (config : Config) (s : Subscription) :
    (newTimer c config s.msg s.interval s.env).entry = s.entry (c.timerIdNext + 1) := by
  unfold newTimer Timer.entry Subscription.entry Subscription.wait
  by_cases h : s.Once
  · have h' : s.interval = intervalOnce := h
    simp only [h, h', decide_true, if_true]
  · have h' : ¬ s.interval = intervalOnce := h
    simp only [h, h', decide_false, Bool.false_eq_true, if_false]

theorem subscribe_asserted (c : Context) {config : Config} (s : Subscription)
    (hconfig : c.config = some config) :
    (subscribe c s.msg s.interval s.env).2 =
      { c with
        timerIdNext := c.timerIdNext + 1
        timers := insertTimer config.queryMode c.timers
          (newTimer c config s.msg s.interval s.env) } := by
  unfold subscribe
  rw [hconfig]
  simp only
  rw [if_neg]
  rintro ⟨-, hle, hne⟩
  rcases s.asserted with hpos | honce
  · exact absurd hpos (not_lt.2 hle)
  · exact hne honce

/-- The walk of parallel mode: the new timer stands behind the timers no slower than it. -/
theorem insertParallel_eq (timers : List Timer) (timer : Timer) :
    insertParallel timers timer = Insertion.insertBehind
      (fun t => ¬ timer.timerInterval < t.timerInterval) timer timers := rfl

theorem mem_behind {timers : List Timer} {timer b : Timer} :
    b ∈ timers.dropWhile (fun t => ¬ timer.timerInterval < t.timerInterval) ↔
      (b ∈ timers ∧ timer.timerInterval < b.timerInterval) ∨
        ∃ d, timer.timerInterval < d.timerInterval ∧ [d, b].Sublist timers := by
  rw [Insertion.mem_dropWhile]
  simp only [decide_eq_true_eq, not_not]

theorem subscribe_parallel {c : Context} {config : Config} (s : Subscription)
    (hconfig : c.config = some config) (hmode : config.queryMode = .parallell) :
    ∃ timer : Timer, timer.entry = s.entry (c.timerIdNext + 1) ∧
      (subscribe c s.msg s.interval s.env).2 =
        { c with
          timerIdNext := c.timerIdNext + 1
          timers := if s.Once then timer :: c.timers else insertParallel c.timers timer } := by
  have hentry := newTimer_entry c config s
  rw [subscribe_asserted c s hconfig, hmode]
  set timer := newTimer c config s.msg s.interval s.env
  have honce : timer.isOnce = decide s.Once := congrArg (·.2.2.1) hentry
  match htimers : c.timers with
  | [] =>
    refine ⟨timer, hentry, ?_⟩
    have hsame : (if s.Once then [timer] else insertParallel [] timer) = [timer] := ite_self _
    rw [hsame]
    rfl
  | head :: rest =>
    unfold insertTimer
    by_cases hs : s.Once
    · refine ⟨timer, hentry, ?_⟩
      simp only [honce, hs, decide_true, ne_eq, reduceCtorEq, not_false_eq_true, and_self, if_true]
    · refine ⟨{ timer with timerStart := head.timerStart, timerNextTime := head.timerStart },
        hentry, ?_⟩
      simp only [honce, hs, decide_false, Bool.false_eq_true, false_and, if_false]

/-- Timers and subscriptions, after some calls in parallel mode. -/
structure Inserted (c₀ : Context) (subs : List Subscription) (c : Context) : Prop where
  config : c.config = c₀.config
  next : c.timerIdNext = c₀.timerIdNext + subs.length
  entries : (c.timers.map Timer.entry).Perm
    (subs.mapIdx fun i s => s.entry (c₀.timerIdNext + 1 + i))
  /-- a once timer in front of a quick one was subscribed after it -/
  after : ∀ o a : Timer, [o, a].Sublist c.timers → o.isOnce → ¬ a.isOnce →
    a.timerInterval < onceRetryMs →
    ∃ sa so : Subscription, [sa, so].Sublist subs ∧ ¬ sa.Once ∧ so.Once ∧
      sa.wait = a.timerInterval
  /-- and what is subscribed once later stands in front -/
  front : ∀ sa so : Subscription, [sa, so].Sublist subs → ¬ sa.Once → so.Once →
    ∃ o a : Timer, [o, a].Sublist c.timers ∧ o.isOnce ∧ ¬ a.isOnce ∧ a.timerInterval = sa.wait

namespace Inserted

variable {c₀ c : Context} {subs : List Subscription}

theorem of_timer (h : Inserted c₀ subs c) {t : Timer} (ht : t ∈ c.timers) :
    ∃ s ∈ subs, t.isOnce = decide s.Once ∧ t.timerInterval = s.wait ∧
      t.timerId ≤ c.timerIdNext := by
  have hmem := h.entries.mem_iff.1 (List.mem_map_of_mem ht)
  obtain ⟨i, hi, hentry⟩ := List.mem_mapIdx.1 hmem
  refine ⟨subs[i], List.getElem_mem hi, (congrArg (·.2.2.1) hentry).symm,
    (congrArg (·.2.2.2) hentry).symm, ?_⟩
  have hid : c₀.timerIdNext + 1 + i = t.timerId := congrArg (·.1) hentry
  rw [h.next]
  omega

theorem timer_of (h : Inserted c₀ subs c) {s : Subscription} (hs : s ∈ subs) :
    ∃ t ∈ c.timers, t.isOnce = decide s.Once ∧ t.timerInterval = s.wait := by
  obtain ⟨i, hi, rfl⟩ := List.mem_iff_getElem.1 hs
  have hmem : subs[i].entry (c₀.timerIdNext + 1 + i) ∈ c.timers.map Timer.entry :=
    h.entries.mem_iff.2 (List.mem_mapIdx.2 ⟨i, hi, rfl⟩)
  obtain ⟨t, ht, hentry⟩ := List.mem_map.1 hmem
  exact ⟨t, ht, congrArg (·.2.2.1) hentry, congrArg (·.2.2.2) hentry⟩

theorem once_wait (h : Inserted c₀ subs c) {t : Timer} (ht : t ∈ c.timers) (honce : t.isOnce) :
    t.timerInterval = onceRetryMs := by
  obtain ⟨s, -, hs, hwait, -⟩ := h.of_timer ht
  rw [hwait, Subscription.wait, if_pos (of_decide_eq_true (hs.symm.trans honce))]

theorem nil (hempty : c.timers = []) : Inserted c [] c where
  config := rfl
  next := rfl
  entries := by rw [hempty]; exact List.Perm.refl _
  after := by
    intro o a hpair
    rw [hempty] at hpair
    cases hpair
  front := by
    intro sa so hpair
    cases hpair

theorem entries_cons (h : Inserted c₀ subs c) {s : Subscription} {timer : Timer}
    {timers : List Timer} (hentry : timer.entry = s.entry (c.timerIdNext + 1))
    (hperm : timers.Perm (timer :: c.timers)) :
    (timers.map Timer.entry).Perm
      ((subs ++ [s]).mapIdx fun i s => s.entry (c₀.timerIdNext + 1 + i)) := by
  rw [List.mapIdx_append, List.mapIdx_singleton]
  apply (hperm.map _).trans
  rw [List.map_cons, hentry, h.next]
  have hid : c₀.timerIdNext + subs.length + 1 = c₀.timerIdNext + 1 + (0 + subs.length) := by omega
  rw [hid]
  exact (h.entries.cons _).trans (List.perm_append_singleton _ _).symm

theorem once (h : Inserted c₀ subs c) {s : Subscription} {timer : Timer}
    (hentry : timer.entry = s.entry (c.timerIdNext + 1)) (hs : s.Once) :
    Inserted c₀ (subs ++ [s])
      { c with timerIdNext := c.timerIdNext + 1, timers := timer :: c.timers } where
  config := h.config
  next := by simp only [h.next, List.length_append, List.length_singleton]; rfl
  entries := h.entries_cons hentry (List.Perm.refl _)
  after := by
    intro o a hpair ho ha hquick
    rcases Insertion.pair_cons.1 hpair with hpair | ⟨rfl, hmem⟩
    · obtain ⟨sa, so, hsub, hrest⟩ := h.after o a hpair ho ha hquick
      exact ⟨sa, so, hsub.trans (List.sublist_append_left _ _), hrest⟩
    · obtain ⟨sa, hsa, honce, hwait, -⟩ := h.of_timer hmem
      refine ⟨sa, s, (List.singleton_sublist.2 hsa).append (List.Sublist.refl [s]), ?_, hs,
        hwait.symm⟩
      rwa [honce, decide_eq_true_eq] at ha
  front := by
    intro sa so hpair hsa hso
    rcases (Insertion.concat_sublist_concat [sa]).1 hpair with hpair | ⟨rfl, hmem⟩
    · obtain ⟨o, a, hsub, hrest⟩ := h.front sa so hpair hsa hso
      exact ⟨o, a, hsub.cons _, hrest⟩
    · obtain ⟨t, ht, honce, hwait⟩ := h.timer_of (List.singleton_sublist.1 hmem)
      have htimer : timer.isOnce = decide so.Once := congrArg (·.2.2.1) hentry
      refine ⟨timer, t, Insertion.pair_cons.2 (.inr ⟨rfl, ht⟩), ?_, ?_, hwait⟩
      · rw [htimer, decide_eq_true hso]
      · rw [honce, decide_eq_false hsa]
        simp

theorem repeating (h : Inserted c₀ subs c) {s : Subscription} {timer : Timer}
    (hentry : timer.entry = s.entry (c.timerIdNext + 1)) (hs : ¬ s.Once) :
    Inserted c₀ (subs ++ [s])
      { c with
        timerIdNext := c.timerIdNext + 1
        timers := insertParallel c.timers timer } where
  config := h.config
  next := by simp only [h.next, List.length_append, List.length_singleton]; rfl
  entries := h.entries_cons hentry (Insertion.insertBehind_perm _ _ _)
  after := by
    intro o a hpair ho ha hquick
    rcases Insertion.pair_insertBehind hpair with hpair | rfl | ⟨rfl, hmem, hslow⟩
    · obtain ⟨sa, so, hsub, hrest⟩ := h.after o a hpair ho ha hquick
      exact ⟨sa, so, hsub.trans (List.sublist_append_left _ _), hrest⟩
    · have htimer : o.isOnce = decide s.Once := congrArg (·.2.2.1) hentry
      rw [htimer, decide_eq_true_eq] at ho
      exact absurd ho hs
    · rw [h.once_wait hmem ho, decide_eq_true_eq] at hslow
      exact absurd hquick hslow
  front := by
    intro sa so hpair hsa hso
    rcases (Insertion.concat_sublist_concat [sa]).1 hpair with hpair | ⟨rfl, -⟩
    · obtain ⟨o, a, hsub, hrest⟩ := h.front sa so hpair hsa hso
      exact ⟨o, a, hsub.trans (Insertion.sublist_insertBehind _ _ _), hrest⟩
    · exact absurd hso hs

end Inserted

/-- Repeating timers by interval, and those of one interval as they were subscribed. -/
def Sorted (timers : List Timer) : Prop :=
  (timers.filter fun t => !t.isOnce).Pairwise fun a b =>
    a.timerInterval ≤ b.timerInterval ∧
      (a.timerInterval = b.timerInterval → a.timerId < b.timerId)

instance (timers : List Timer) : Decidable (Sorted timers) :=
  inferInstanceAs (Decidable (List.Pairwise _ _))

/-- What the timer list of parallel mode is meant to be: every subscription once, the
repeating ones sorted. -/
structure ParallelList (c₀ : Context) (subs : List Subscription) (timers : List Timer) : Prop where
  entries : (timers.map Timer.entry).Perm
    (subs.mapIdx fun i s => s.entry (c₀.timerIdNext + 1 + i))
  sorted : Sorted timers

/-- A once input between two repeating ones, the later of them no quicker than the earlier
and quicker than the retry of the once input. -/
def Overtakes (a o b : Subscription) : Prop :=
  ¬ a.Once ∧ o.Once ∧ ¬ b.Once ∧ a.interval ≤ b.interval ∧ b.interval < onceRetryMs.toNat

namespace Inserted

variable {c₀ c : Context} {subs : List Subscription}

theorem sorted_once {timer : Timer} {timers : List Timer} (honce : timer.isOnce) :
    Sorted (timer :: timers) ↔ Sorted timers := by
  unfold Sorted
  rw [List.filter_cons_of_neg (by simpa using honce)]

/-- The new timer is in place unless its walk stopped at a once timer. -/
theorem sorted_repeating (h : Inserted c₀ subs c) {s : Subscription} {timer : Timer}
    (hentry : timer.entry = s.entry (c.timerIdNext + 1)) (hs : ¬ s.Once) :
    Sorted (insertParallel c.timers timer) ↔
      Sorted c.timers ∧ ∀ a o : Subscription, [a, o].Sublist subs → ¬ Overtakes a o s := by
  have honce : timer.isOnce = decide s.Once := congrArg (·.2.2.1) hentry
  have hwait : timer.timerInterval = s.wait := congrArg (·.2.2.2) hentry
  have hid : timer.timerId = c.timerIdNext + 1 := congrArg (·.1) hentry
  have hkeep : (!timer.isOnce) = true := by
    rw [honce, decide_eq_false hs]
    rfl
  have hlater {t : Timer} (ht : t ∈ c.timers) : t.timerId < timer.timerId := by
    obtain ⟨-, -, -, -, hle⟩ := h.of_timer ht
    omega
  unfold Sorted
  rw [insertParallel_eq, Insertion.pairwise_insertBehind (fun t : Timer => !t.isOnce) hkeep]
  refine and_congr_right fun hsorted => ?_
  constructor
  · rintro ⟨-, hbehind⟩ a o hpair ⟨ha, ho, -, hle, hquick⟩
    obtain ⟨o', a', hpair', ho', ha', hwait'⟩ := h.front a o hpair ha ho
    obtain ⟨hmemo, hmema⟩ := Insertion.mem_pair hpair'
    have hint := Subscription.wait_toNat hs
    have hint' := Subscription.wait_toNat ha
    have hstop : timer.timerInterval < o'.timerInterval := by
      rw [h.once_wait hmemo ho', hwait, UInt64.lt_iff_toNat_lt]
      omega
    have hmem := mem_behind.2 (.inr ⟨o', hstop, hpair'⟩)
    obtain ⟨hslow, hequal⟩ := hbehind a' hmem (by simpa using ha')
    have hsame : timer.timerInterval = a'.timerInterval := by
      apply UInt64.le_antisymm hslow
      rw [hwait, hwait', UInt64.le_iff_toNat_le]
      omega
    exact absurd (hlater hmema) (not_lt.2 (hequal hsame).le)
  · intro hclear
    constructor
    · intro t ht hrep
      have hslow := List.all_eq_true.1 List.all_takeWhile t ht
      rw [decide_eq_true_eq, UInt64.not_lt] at hslow
      exact ⟨hslow, fun _ => hlater ((List.takeWhile_prefix _).subset ht)⟩
    · intro b hb hrep
      have hquick : timer.timerInterval < b.timerInterval := by
        rcases mem_behind.1 hb with ⟨-, hb⟩ | ⟨d, hd, hpair⟩
        · exact hb
        · by_contra hslow
          rw [UInt64.not_lt] at hslow
          by_cases hdonce : d.isOnce
          · have hbquick : b.timerInterval < onceRetryMs := by
              rw [← h.once_wait (Insertion.mem_pair hpair).1 hdonce]
              exact UInt64.lt_of_le_of_lt hslow hd
            obtain ⟨a, o, hsub, ha, ho, hwait'⟩ := h.after d b hpair hdonce (by simpa using hrep)
              hbquick
            have hint := Subscription.wait_toNat hs
            have hint' := Subscription.wait_toNat ha
            rw [h.once_wait (Insertion.mem_pair hpair).1 hdonce, hwait,
              UInt64.lt_iff_toNat_lt] at hd
            rw [hwait, ← hwait', UInt64.le_iff_toNat_le] at hslow
            exact hclear a o hsub ⟨ha, ho, hs, by omega, by omega⟩
          · have hle := (Insertion.pairwise_pair hsorted hpair (by simpa using hdonce) hrep).1
            exact absurd (UInt64.lt_of_lt_of_le hd hle) (UInt64.not_lt.2 hslow)
      exact ⟨UInt64.le_of_lt hquick, fun heq => absurd (heq ▸ hquick) (UInt64.lt_irrefl _)⟩

end Inserted

/-- Calls in parallel mode insert their subscriptions, and sort them unless one overtakes. -/
theorem subscribeEach_parallel {c : Context} {config : Config} (hconfig : c.config = some config)
    (hmode : config.queryMode = .parallell) (hempty : c.timers = [])
    (subs : List Subscription) :
    Inserted c subs (subscribeEach c subs) ∧
      (Sorted (subscribeEach c subs).timers ↔
        ∀ a o b : Subscription, [a, o, b].Sublist subs → ¬ Overtakes a o b) := by
  induction subs using List.reverseRecOn with
  | nil =>
    refine ⟨Inserted.nil hempty, ?_⟩
    simp [subscribeEach, Sorted, hempty]
  | append_singleton subs s ih =>
    obtain ⟨hinserted, hsorted⟩ := ih
    have hconfig' : (subscribeEach c subs).config = some config := hinserted.config.trans hconfig
    obtain ⟨timer, hentry, hafter⟩ := subscribe_parallel s hconfig' hmode
    have hsplit : (∀ a o b : Subscription, [a, o, b].Sublist (subs ++ [s]) → ¬ Overtakes a o b) ↔
        (∀ a o b : Subscription, [a, o, b].Sublist subs → ¬ Overtakes a o b) ∧
          ∀ a o : Subscription, [a, o].Sublist subs → ¬ Overtakes a o s := by
      constructor
      · intro h
        refine ⟨fun a o b hsub => h a o b (hsub.trans (List.sublist_append_left _ _)),
          fun a o hsub => h a o s ?_⟩
        exact hsub.append (List.Sublist.refl [s])
      · rintro ⟨hold, hnew⟩ a o b hsub
        rcases (Insertion.concat_sublist_concat [a, o]).1 hsub with hold' | ⟨rfl, hnew'⟩
        · exact hold a o b hold'
        · exact hnew a o hnew'
    rw [subscribeEach_concat, hafter, hsplit]
    by_cases hs : s.Once
    · simp only [hs, if_true]
      refine ⟨hinserted.once hentry hs, ?_⟩
      have honce : timer.isOnce = true := by
        have := congrArg (·.2.2.1) hentry
        exact this.trans (decide_eq_true hs)
      rw [Inserted.sorted_once honce, hsorted]
      refine (and_iff_left ?_).symm
      rintro a o - ⟨-, -, hrep, -⟩
      exact hrep hs
    · simp only [hs, if_false]
      refine ⟨hinserted.repeating hentry hs, ?_⟩
      rw [hinserted.sorted_repeating hentry hs, hsorted]

/-- The timer list of parallel mode holds every subscription once, with the repeating ones
sorted, exactly if no quick one comes after a once input that hides an earlier one no slower. -/
theorem parallel_list_iff {c : Context} {config : Config} (hconfig : c.config = some config)
    (hmode : config.queryMode = .parallell) (hempty : c.timers = [])
    (subs : List Subscription) :
    ParallelList c subs (subscribeEach c subs).timers ↔
      ∀ a o b : Subscription, [a, o, b].Sublist subs → ¬ Overtakes a o b := by
  obtain ⟨hinserted, hsorted⟩ := subscribeEach_parallel hconfig hmode hempty subs
  rw [← hsorted]
  exact ⟨fun h => h.sorted, fun h => ⟨hinserted.entries, h⟩⟩

/-- Every subscription at time 0, of a request that does not matter here. -/
def subscription (interval : ℤ) (asserted : 0 < interval ∨ interval = intervalOnce)
    (int : interval < 2 ^ 31) : Subscription where
  msg := .ofFrame 0 (.zero .writer)
  interval := interval
  env := ⟨fun _ => 0, .accepted 0, .data 0, 0⟩
  asserted := asserted
  int := int

def everySecond : Subscription := subscription 1000 (by decide) (by decide)

def everyOtherSecond : Subscription := subscription 2000 (by decide) (by decide)

def readOnce : Subscription := subscription intervalOnce (by decide) (by decide)

def parallelContext : Context :=
  { newContext .tcp with config := some ⟨[], 1, .parallell, 0, 0, 0, false⟩ }

theorem parallel_list_iff_example :
    ParallelList parallelContext [readOnce, everyOtherSecond, everySecond]
      (subscribeEach parallelContext [readOnce, everyOtherSecond, everySecond]).timers := by
  rw [parallel_list_iff rfl rfl rfl]
  rintro a o b hsub ⟨-, ho, -⟩
  obtain ⟨rfl, rfl, rfl⟩ : a = readOnce ∧ o = everyOtherSecond ∧ b = everySecond := by
    simpa using hsub.eq_of_length rfl
  revert ho
  decide

/-- The walk of the second repeating timer stops at the once timer in front of the first. -/
theorem parallel_list_overtaken :
    ¬ ParallelList parallelContext [everySecond, readOnce, everyOtherSecond]
      (subscribeEach parallelContext [everySecond, readOnce, everyOtherSecond]).timers ∧
    (subscribeEach parallelContext [everySecond, readOnce, everyOtherSecond]).timers.map
      (fun t => (t.isOnce, t.timerInterval)) = [(false, 2000), (true, 10000), (false, 1000)] := by
  refine ⟨fun h => absurd h.sorted ?_, ?_⟩
  · decide +kernel
  · decide +kernel

end Modbusmq
