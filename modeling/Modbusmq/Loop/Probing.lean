import Modbusmq.Library.Probes
import Modbusmq.Loop.Asking

/-!
# The probes of an unresponsive slave

What the polls of a slave mean for it is a plan of probes: its standing follows
from the polls that were posted, answered and missed, and the wait is counted in
the probes that were missed. The backoff of the slave keeps to the plan as long as
no poll times out that was queued when the slave became unresponsive.
-/

namespace Modbusmq

open Probes

/-- The schedule of probes under `modbusmq.slave_retry_max_ms`. -/
def probePolicy (max : ℤ) : Policy Millitime where
  tolerated := slaveMissMax
  first := 1000
  longest := max.toNat
  later now wait := now + UInt64.ofNat wait

def noPlan : Plan ℕ Millitime := ⟨.responsive 0, 0⟩

/-- The backoff is the one of the plan. -/
def Backoff.Fits (max : ℤ) (plan : Plan ℕ Millitime) (b : Backoff) : Prop :=
  match plan.standing with
  | .responsive misses => b.unresponsive = false ∧ b.misses = misses
  | .probed _ n => b.unresponsive = true ∧ b.retryMs.toNat = (probePolicy max).wait n ∧
      b.retryAt = plan.due

theorem Backoff.fits_responsive {max : ℤ} {plan : Plan ℕ Millitime} {b : Backoff} {misses : ℕ}
    (hplan : plan.standing = .responsive misses) :
    b.Fits max plan ↔ b.unresponsive = false ∧ b.misses = misses := by
  unfold Fits
  rw [hplan]

theorem Backoff.fits_probed {max : ℤ} {plan : Plan ℕ Millitime} {b : Backoff} {probes : List ℕ}
    {n : ℕ} (hplan : plan.standing = .probed probes n) :
    b.Fits max plan ↔ b.unresponsive = true ∧ b.retryMs.toNat = (probePolicy max).wait n ∧
      b.retryAt = plan.due := by
  unfold Fits
  rw [hplan]

theorem toUInt64_eq_ofNat {retryMs : UInt32} {n : ℕ} (h : retryMs.toNat = n) :
    retryMs.toUInt64 = UInt64.ofNat n := by
  rw [← h]
  exact UInt64.toNat_inj.1 (by simp)

theorem toNat_ofInt_max {max : ℤ} (hpos : 0 < max) (hmax : max < 2 ^ 31) :
    (UInt32.ofInt max).toNat = max.toNat := by
  unfold UInt32.ofInt
  rw [UInt32.toNat_ofNat']
  omega

theorem toNat_min (a b : UInt32) : (min a b).toNat = min a.toNat b.toNat := by
  change (if a ≤ b then a else b).toNat = _
  split_ifs with h
  · exact (min_eq_left (UInt32.le_iff_toNat_le.1 h)).symm
  · rw [UInt32.le_iff_toNat_le] at h
    exact (min_eq_right (by omega)).symm

theorem Backoff.Fits.answered {max : ℤ} {plan : Plan ℕ Millitime} (b : Backoff) (now : Millitime) :
    (b.after max now true).Fits max (plan.see (probePolicy max) (.answered, now)) := by
  have hplan : (plan.see (probePolicy max) (.answered, now)).standing = .responsive 0 := rfl
  rw [fits_responsive hplan]
  exact ⟨rfl, rfl⟩

/-- A poll that is missed counts as the plan counts it, if it is a probe. -/
theorem Backoff.Fits.missed {max : ℤ} (hpos : 0 < max) (hmax : max < 2 ^ 31)
    {plan : Plan ℕ Millitime} {b : Backoff} (h : b.Fits max plan) {serial : ℕ}
    (hcounts : plan.standing.Counts serial) (now : Millitime) :
    (b.after max now false).Fits max (plan.see (probePolicy max) (.missed serial, now)) := by
  have hlongest : (UInt32.ofInt max).toNat = (probePolicy max).longest := toNat_ofInt_max hpos hmax
  have hdue : ∀ {retryMs : UInt32} {n : ℕ}, retryMs.toNat = (probePolicy max).wait n →
      now + retryMs.toUInt64 = (probePolicy max).later now ((probePolicy max).wait n) :=
    fun hwait => congrArg (now + ·) (toUInt64_eq_ofNat hwait)
  unfold Backoff.after
  rw [if_neg Bool.false_ne_true, if_neg (not_le.2 hpos)]
  cases hplan : plan.standing with
  | responsive misses =>
    obtain ⟨hclear, hmisses⟩ := (fits_responsive hplan).1 h
    rw [if_pos (by rw [hclear]; exact Bool.false_ne_true), hmisses]
    have hsee : (plan.see (probePolicy max) (.missed serial, now)).standing =
        if misses + 1 < slaveMissMax then .responsive (misses + 1) else .probed [] 0 := by
      unfold Plan.see
      rw [hplan]
      rfl
    split_ifs at hsee ⊢ with hfew
    · rw [fits_responsive hsee]
      exact ⟨hclear, rfl⟩
    · rw [fits_probed hsee]
      have hwait : (min slaveRetryFirstMs (UInt32.ofInt max)).toNat = (probePolicy max).wait 0 := by
        rw [toNat_min, hlongest, Policy.wait_zero]
        rfl
      refine ⟨rfl, hwait, ?_⟩
      unfold Plan.see at hsee ⊢
      dsimp only at hsee ⊢
      rw [hsee, hplan]
      exact hdue hwait
  | probed probes n =>
    obtain ⟨hset, hretry, -⟩ := (fits_probed hplan).1 h
    rw [if_neg (not_not.2 hset)]
    have hsee : (plan.see (probePolicy max) (.missed serial, now)).standing =
        .probed probes (n + 1) := by
      unfold Plan.see
      rw [hplan] at hcounts ⊢
      exact if_pos hcounts
    rw [fits_probed hsee]
    have hwait : (min (b.retryMs * 2) (UInt32.ofInt max)).toNat = (probePolicy max).wait (n + 1) := by
      have hlt : b.retryMs.toNat * 2 < 2 ^ 32 := by
        have hle := (probePolicy max).wait_le n
        rw [← hretry, ← hlongest, toNat_ofInt_max hpos hmax] at hle
        omega
      rw [toNat_min, hlongest, Policy.wait_succ, ← hretry, UInt32.toNat_mul]
      exact congrArg (min · _) (Nat.mod_eq_of_lt hlt)
    refine ⟨rfl, hwait, ?_⟩
    unfold Plan.see at hsee ⊢
    dsimp only at hsee ⊢
    rw [hsee, hplan]
    dsimp only
    rw [if_neg (by simp)]
    exact hdue hwait

theorem Backoff.Fits.sent {max : ℤ} {plan : Plan ℕ Millitime} {b : Backoff} (h : b.Fits max plan)
    {now : Millitime} (hopen : b.Open now) (serial : ℕ) :
    plan.Allows (.sent serial, now) ∧
      (b.probed now).Fits max (plan.see (probePolicy max) (.sent serial, now)) := by
  cases hplan : plan.standing with
  | responsive misses =>
    have hallows : plan.Allows (.sent serial, now) := by
      intro probes n hprobed
      rw [hplan] at hprobed
      cases hprobed
    have hsee : (plan.see (probePolicy max) (.sent serial, now)).standing = .responsive misses := by
      unfold Plan.see
      rw [hplan]
      rfl
    obtain ⟨hclear, hmisses⟩ := (fits_responsive hplan).1 h
    refine ⟨hallows, ?_⟩
    rw [fits_responsive hsee]
    unfold Backoff.probed
    rw [if_neg (by rw [hclear]; exact Bool.false_ne_true)]
    exact ⟨hclear, hmisses⟩
  | probed probes n =>
    obtain ⟨hset, hretry, hdue⟩ := (fits_probed hplan).1 h
    have hallows : plan.Allows (.sent serial, now) := fun _ _ _ => hdue ▸ hopen hset
    have hsee : (plan.see (probePolicy max) (.sent serial, now)).standing =
        .probed (serial :: probes) n := by
      unfold Plan.see
      rw [hplan]
      rfl
    refine ⟨hallows, ?_⟩
    rw [fits_probed hsee]
    unfold Backoff.probed
    rw [if_pos hset]
    refine ⟨hset, hretry, ?_⟩
    unfold Plan.see at hsee ⊢
    dsimp only at hsee ⊢
    rw [hsee, hplan]
    dsimp only
    rw [if_neg (by simp)]
    exact congrArg (now + ·) (toUInt64_eq_ofNat hretry)

theorem Backoff.Fits.shut {max : ℤ} {plan : Plan ℕ Millitime} {b : Backoff} (h : b.Fits max plan)
    {now : Millitime} (hshut : ¬ b.Open now) : plan.Waits now := by
  obtain ⟨hset, hwait⟩ := Classical.not_imp.1 hshut
  cases hplan : plan.standing with
  | responsive misses =>
    rw [((fits_responsive hplan).1 h).1] at hset
    cases hset
  | probed probes n =>
    obtain ⟨-, -, hdue⟩ := (fits_probed hplan).1 h
    exact ⟨probes, n, hplan, hdue ▸ UInt64.not_le.1 hwait⟩

/-- What happens to a poll, for the slave with the timers `mine`. -/
def PollEvent.attempt (mine : ℕ → Bool) : PollEvent → Option (Attempt ℕ)
  | .posted timerId serial => if mine timerId then some (.sent serial) else none
  | .left timerId serial error =>
    if ¬ mine timerId then none
    else if error = 0 ∨ error = errException then some .answered
    else if error = errTimeout then some (.missed serial)
    else none

def PollEvent.timerId : PollEvent → ℕ
  | .posted timerId _ => timerId
  | .left timerId _ _ => timerId

def ownedBy (timers : List Timer) (slave timerId : ℕ) : Bool :=
  decide ((timerId, slave) ∈ timerKeys timers)

abbrev History := List (PollEvent × Millitime)

/-- The part of a history that is about one slave. -/
def attempts (mine : ℕ → Bool) (history : History) : List (Attempt ℕ × Millitime) :=
  history.filterMap fun e => (e.1.attempt mine).map (·, e.2)

def planAfter (max : ℤ) (mine : ℕ → Bool) (history : History) : Plan ℕ Millitime :=
  (attempts mine history).foldl (Plan.see (probePolicy max)) noPlan

def slaveStanding (c : Context) (max : ℤ) (slave : ℕ) : Standing ℕ :=
  ((pollEvents c.log).filterMap (PollEvent.attempt (ownedBy c.timers slave))).foldl
    (Standing.see (probePolicy max)) (.responsive 0)

theorem attempts_append (mine : ℕ → Bool) (h h' : History) :
    attempts mine (h ++ h') = attempts mine h ++ attempts mine h' := List.filterMap_append

theorem planAfter_append (max : ℤ) (mine : ℕ → Bool) (h h' : History) : planAfter max mine (h ++ h') =
    (attempts mine h').foldl (Plan.see (probePolicy max)) (planAfter max mine h) := by
  unfold planAfter
  rw [attempts_append, List.foldl_append]

theorem planAfter_standing {c : Context} {history : History}
    (hevents : pollEvents c.log = history.map Prod.fst) (max : ℤ) (slave : ℕ) :
    (planAfter max (ownedBy c.timers slave) history).standing = slaveStanding c max slave := by
  unfold planAfter slaveStanding
  rw [foldl_standing, hevents]
  congr 1
  unfold attempts
  rw [List.map_filterMap, List.filterMap_map]
  congr 1
  funext e
  simp [Function.comp_def]

theorem PollEvent.attempt_congr {mine mine' : ℕ → Bool} {event : PollEvent}
    (h : mine event.timerId = mine' event.timerId) : event.attempt mine = event.attempt mine' := by
  cases event with
  | posted timerId serial =>
    change mine timerId = mine' timerId at h
    simp only [attempt, h]
  | left timerId serial error =>
    change mine timerId = mine' timerId at h
    simp only [attempt, h]

theorem attempts_congr {mine mine' : ℕ → Bool} {history : History}
    (h : ∀ e ∈ history, mine e.1.timerId = mine' e.1.timerId) :
    attempts mine history = attempts mine' history :=
  List.filterMap_congr fun e he => by rw [PollEvent.attempt_congr (h e he)]

theorem attempts_other {mine : ℕ → Bool} {event : PollEvent} (h : mine event.timerId = false)
    (now : Millitime) : attempts mine [(event, now)] = [] := by
  cases event with
  | posted timerId serial =>
    change mine timerId = false at h
    simp [attempts, PollEvent.attempt, h]
  | left timerId serial error =>
    change mine timerId = false at h
    simp [attempts, PollEvent.attempt, h]

/-- A poll is posted at a time that was read for it, and leaves at the time of its verdict. -/
def ReadAt (env : Env) : PollEvent × Millitime → Prop
  | (.posted _ _, now) => ∃ site, now = env.clock site
  | (.left _ _ _, now) => now = env.clock .update

/-- A timer that is asked for its poll posts it, unless its slave has to wait at that moment. -/
def Obeyed (max : ℤ) (timers : List Timer) (past now : History) (asked : Ask) : Prop :=
  (∃ serial, (.posted asked.timerId serial, asked.time) ∈ now) ∨ ∃ before, before <+: now ∧
    (planAfter max (ownedBy timers asked.slave) (past ++ before)).Waits asked.time

theorem Obeyed.congr {max : ℤ} {timers timers' : List Timer}
    (hkeys : timerKeys timers' = timerKeys timers) {past now : History} {asked : Ask}
    (h : Obeyed max timers' past now asked) : Obeyed max timers past now asked := by
  have howned : ownedBy timers' = ownedBy timers := by
    funext slave timerId
    unfold ownedBy
    rw [hkeys]
  unfold Obeyed at h ⊢
  rwa [howned] at h

theorem Obeyed.earlier {max : ℤ} {timers : List Timer} {past now : History} {asked : Ask}
    (h : Obeyed max timers past now asked) (later : History) :
    Obeyed max timers past (now ++ later) asked := by
  rcases h with ⟨serial, hposted⟩ | ⟨before, hbefore, hwaits⟩
  · exact .inl ⟨serial, List.mem_append_left _ hposted⟩
  · exact .inr ⟨before, hbefore.trans (List.prefix_append ..), hwaits⟩

theorem Obeyed.later {max : ℤ} {timers : List Timer} {past before now : History} {asked : Ask}
    (h : Obeyed max timers (past ++ before) now asked) :
    Obeyed max timers past (before ++ now) asked := by
  rcases h with ⟨serial, hposted⟩ | ⟨between, hbetween, hwaits⟩
  · exact .inl ⟨serial, List.mem_append_right _ hposted⟩
  · refine .inr ⟨before ++ between, (List.prefix_append_right_inj before).2 hbetween, ?_⟩
    rwa [← List.append_assoc]

/-- What a call adds to the history: its events, with the times it has read, and every poll that
falls due in it is among them or has to wait. -/
structure Noted (max : ℤ) (past : History) (c : Context) (made : Call × Env) (now : History) :
    Prop where
  events : pollEvents (made.1.perform c made.2).log = pollEvents c.log ++ now.map Prod.fst
  read : ∀ e ∈ now, ReadAt made.2 e
  obeyed : ∀ asked, Call.Due c made.2 made.1 asked → Obeyed max c.timers past now asked

/-- The history of a run, call by call. -/
def Records (max : ℤ) : List (Call × Env) → Context → History → History → Prop
  | [], _, _, history => history = []
  | made :: calls, c, past, history => ∃ now later, history = now ++ later ∧
      Noted max past c made now ∧
      Records max calls (made.1.perform c made.2) (past ++ now) later

/-- The backoff of every slave fits its plan, and no probe was early. -/
structure Planned (max : ℤ) (history : History) (c : Context) : Prop extends TimersNumbered c where
  subscribeCb : c.subscribeCb = true
  config : ∃ config, c.config = some config ∧ config.slaveRetryMaxMs = max
  pollIds : ∀ poll ∈ queuedPolls c.queue, poll.1 ≤ c.timerIdNext
  eventIds : ∀ e ∈ history, e.1.timerId ≤ c.timerIdNext
  events : pollEvents c.log = history.map Prod.fst
  plans : ∃ table, Copies table c.timers ∧ ∀ slave,
    Follows (probePolicy max) noPlan (attempts (ownedBy c.timers slave) history) ∧
      (table slave).Fits max (planAfter max (ownedBy c.timers slave) history)

theorem Planned.retryMax {max : ℤ} {history : History} {c : Context} (h : Planned max history c) :
    retryMax c = max := by
  obtain ⟨config, hconfig, hmax⟩ := h.config
  unfold Modbusmq.retryMax
  rw [hconfig]
  exact hmax

/-- What a step adds to the history has to agree with the plan of every slave. -/
theorem Planned.step {max : ℤ} {history now : History} {c c' : Context} (h : Planned max history c)
    (hsame : SameNumbers c c') (hcb : c'.subscribeCb = c.subscribeCb)
    (hpolls : ∀ poll ∈ queuedPolls c'.queue, poll.1 ≤ c.timerIdNext)
    (hevents : pollEvents c'.log = pollEvents c.log ++ now.map Prod.fst)
    (hids : ∀ e ∈ now, e.1.timerId ≤ c.timerIdNext)
    (hplans : ∃ table, Copies table c'.timers ∧ ∀ slave,
      Follows (probePolicy max) (planAfter max (ownedBy c.timers slave) history)
          (attempts (ownedBy c.timers slave) now) ∧
        (table slave).Fits max ((attempts (ownedBy c.timers slave) now).foldl
          (Plan.see (probePolicy max)) (planAfter max (ownedBy c.timers slave) history))) :
    Planned max (history ++ now) c' where
  toTimersNumbered := h.toTimersNumbered.congr hsame
  subscribeCb := hcb.trans h.subscribeCb
  config := hsame.config ▸ h.config
  pollIds := hsame.timerIdNext ▸ hpolls
  eventIds e he := by
    rw [hsame.timerIdNext]
    rcases List.mem_append.1 he with he | he
    · exact h.eventIds e he
    · exact hids e he
  events := by rw [hevents, h.events, List.map_append]
  plans := by
    obtain ⟨_, -, hold⟩ := h.plans
    obtain ⟨table, hcopies, hfits⟩ := hplans
    have howned : ownedBy c'.timers = ownedBy c.timers := by
      funext slave timerId
      unfold ownedBy
      rw [hsame.keys]
    refine ⟨table, hcopies, fun slave => ?_⟩
    rw [howned, attempts_append, follows_append, planAfter_append]
    exact ⟨⟨(hold slave).1, (hfits slave).1⟩, (hfits slave).2⟩

/-- A step without events that leaves every backoff as it was. -/
theorem Planned.still {max : ℤ} {history : History} {c c' : Context} (h : Planned max history c)
    (hsame : SameNumbers c c') (hcb : c'.subscribeCb = c.subscribeCb)
    (hbackoffs : SameBackoffs c.timers c'.timers)
    (hpolls : queuedPolls c'.queue = queuedPolls c.queue)
    (hevents : pollEvents c'.log = pollEvents c.log) : Planned max history c' := by
  obtain ⟨table, hcopies, hfits⟩ := h.plans
  have hstep : Planned max (history ++ []) c' :=
    h.step hsame hcb (hpolls ▸ h.pollIds) (hevents.trans (List.append_nil _).symm) nofun
      ⟨table, hbackoffs.copies hcopies, fun slave => ⟨trivial, (hfits slave).2⟩⟩
  rwa [List.append_nil] at hstep

theorem Still.planned {max : ℤ} {history : History} {c c' : Context} (h : Still c c')
    (hc : Planned max history c) : Planned max history c' :=
  hc.still h.sameNumbers h.subscribeCb (by rw [h.timers]; rfl) h.polls h.events

theorem ownedBy_self {timers : List Timer} {t : Timer} (ht : t ∈ timers) :
    ownedBy timers t.slave t.timerId = true :=
  decide_eq_true (List.mem_map_of_mem (f := fun t => (t.timerId, t.slave)) ht)

theorem ownedBy_other {timers : List Timer} (hdistinct : (timers.map (·.timerId)).Nodup) {t : Timer}
    (ht : t ∈ timers) {slave : ℕ} (hne : slave ≠ t.slave) :
    ownedBy timers slave t.timerId = false := by
  refine decide_eq_false fun hmem => hne ?_
  obtain ⟨s, hs, hkey⟩ := List.mem_map.1 hmem
  simp only [Prod.mk.injEq] at hkey
  have hsame : s = t := List.inj_on_of_nodup_map hdistinct hs ht hkey.1
  rw [← hkey.2, hsame]

theorem ownedBy_unknown {timers : List Timer} {timerId : ℕ}
    (hfind : timerFind timers timerId = none) (slave : ℕ) : ownedBy timers slave timerId = false := by
  refine decide_eq_false fun hmem => ?_
  obtain ⟨s, hs, hkey⟩ := List.mem_map.1 hmem
  simp only [Prod.mk.injEq] at hkey
  unfold timerFind at hfind
  have hnone := List.find?_eq_none.1 hfind s hs
  exact hnone (decide_eq_true hkey.1)

/-- A poll that is posted is in the plan of its slave. -/
theorem Planned.asked {max : ℤ} {history : History} {c : Context} (h : Planned max history c)
    {i : ℕ} {timer : Timer} (ht : c.timers[i]? = some timer) (env : Env) (site : Site) :
    ∃ now, pollEvents (gatePost c timer (env.clock site) i).log =
        pollEvents c.log ++ now.map Prod.fst ∧
      (∀ e ∈ now, ReadAt env e) ∧
      Obeyed max c.timers history now (timer.ask (env.clock site)) ∧
      Planned max (history ++ now) (gatePost c timer (env.clock site) i) := by
  have hmem := List.mem_of_getElem? ht
  obtain ⟨table, hcopies, hfits⟩ := h.plans
  rcases gatePost_asked hcopies ht (env.clock site) with
    ⟨hshut, hsame⟩ | ⟨hopen, hcopies', hasked⟩
  · rw [hsame]
    refine ⟨[], (List.append_nil _).symm, nofun, .inr ⟨[], List.prefix_rfl, ?_⟩,
      (List.append_nil history).symm ▸ h⟩
    rw [List.append_nil]
    exact (hfits timer.slave).2.shut hshut
  · refine ⟨[(.posted timer.timerId c.serialNext, env.clock site)], hasked.events, ?_,
      .inl ⟨c.serialNext, List.mem_singleton_self _⟩, ?_⟩
    · intro e he
      rw [List.mem_singleton.1 he]
      exact ⟨site, rfl⟩
    · refine h.step hasked.sameNumbers hasked.subscribeCb ?_ hasked.events ?_
        ⟨_, hcopies', fun slave => ?_⟩
      · intro poll hpoll
        rw [hasked.polls] at hpoll
        rcases List.mem_append.1 hpoll with hold | hnew
        · exact h.pollIds poll hold
        · rw [List.mem_singleton.1 hnew]
          exact h.bounded timer hmem
      · intro e he
        rw [List.mem_singleton.1 he]
        exact h.bounded timer hmem
      · by_cases hslave : slave = timer.slave
        · have hmine : attempts (ownedBy c.timers slave)
              [(.posted timer.timerId c.serialNext, env.clock site)] =
              [(.sent c.serialNext, env.clock site)] := by
            rw [hslave]
            simp [attempts, PollEvent.attempt, ownedBy_self hmem]
          rw [hmine, hslave, Function.update_self]
          have hsent := Backoff.Fits.sent (hfits timer.slave).2 hopen c.serialNext
          exact ⟨⟨hsent.1, trivial⟩, hsent.2⟩
        · rw [attempts_other (ownedBy_other h.distinct hmem hslave), Function.update_of_ne hslave]
          exact ⟨trivial, (hfits slave).2⟩

theorem Backoff.Fits.judged {max : ℤ} (hpos : 0 < max) (hmax : max < 2 ^ 31)
    {plan : Plan ℕ Millitime} {table : SlaveTable} {slave : ℕ} (h : (table slave).Fits max plan)
    {mine : ℕ → Bool} {timerId : ℕ} (hmine : mine timerId = true) {serial : ℕ} {error : ℤ}
    (hcounts : error = errTimeout → plan.standing.Counts serial) (now : Millitime) :
    Follows (probePolicy max) plan (attempts mine [(.left timerId serial error, now)]) ∧
      (table.judge slave max now (verdictOf true error) slave).Fits max
        ((attempts mine [(.left timerId serial error, now)]).foldl (Plan.see (probePolicy max))
          plan) := by
  unfold verdictOf
  by_cases hanswer : error = 0 ∨ error = errException
  · have hattempt : attempts mine [(.left timerId serial error, now)] = [(.answered, now)] := by
      simp [attempts, PollEvent.attempt, hmine, hanswer]
    have hjudge : table.judge slave max now (if error = 0 then if true then .answered else .dropped
        else if error = errTimeout then .missed
        else if error = errException then .excepted
        else .dropped) = Function.update table slave ((table slave).after max now true) := by
      rcases hanswer with rfl | rfl <;> rfl
    rw [hattempt, hjudge, Function.update_self]
    exact ⟨⟨trivial, trivial⟩, Backoff.Fits.answered _ now⟩
  · have hne := not_or.1 hanswer
    rw [if_neg hne.1]
    by_cases hslow : error = errTimeout
    · have hattempt : attempts mine [(.left timerId serial error, now)] =
          [(.missed serial, now)] := by
        simp only [attempts, PollEvent.attempt, hmine, hslow, List.filterMap_cons]
        rfl
      rw [hattempt, if_pos hslow]
      change _ ∧ Backoff.Fits max _ (Function.update table slave _ slave)
      rw [Function.update_self]
      exact ⟨⟨trivial, trivial⟩, h.missed hpos hmax (hcounts hslow) now⟩
    · have hattempt : attempts mine [(.left timerId serial error, now)] = [] := by
        simp [attempts, PollEvent.attempt, hmine, hanswer, hslow]
      rw [hattempt, if_neg hslow, if_neg hne.2]
      exact ⟨trivial, h⟩

theorem Planned.leave {max : ℤ} (hpos : 0 < max) (hmax : max < 2 ^ 31) {history : History}
    {c c' : Context} (h : Planned max history c) {env : Env} {timerId serial : ℕ} {error : ℤ}
    (hleave : Leave env timerId serial error c c') (hmistake : Unmistaken c)
    (hcounts : error = errTimeout → ∀ t ∈ c.timers, t.timerId = timerId →
      (slaveStanding c max t.slave).Counts serial) :
    Planned max (history ++ [(.left timerId serial error, env.clock .update)]) c' := by
  obtain ⟨table, hcopies, hfits⟩ := h.plans
  obtain ⟨verdict, htimers, hverdict⟩ := hleave.judged
  have hverdict : verdict = verdictOf true error := by
    rw [← h.subscribeCb]
    exact hverdict.resolve_right fun hraw => hraw.2.2 hmistake
  have hid : timerId ≤ c.timerIdNext :=
    h.pollIds (timerId, serial) (by rw [hleave.polls]; exact List.mem_cons_self ..)
  refine h.step hleave.sameNumbers hleave.subscribeCb (fun poll hpoll => h.pollIds poll ?_)
    hleave.events ?_ ?_
  · rw [hleave.polls]
    exact List.mem_cons_of_mem _ hpoll
  · intro e he
    rw [List.mem_singleton.1 he]
    exact hid
  · cases hfind : timerFind c.timers timerId with
    | none =>
      rw [htimers, judge_unknown hfind]
      refine ⟨table, hcopies, fun slave => ?_⟩
      rw [attempts_other (ownedBy_unknown hfind slave)]
      exact ⟨trivial, (hfits slave).2⟩
    | some timer =>
      obtain ⟨hmem, hsame⟩ := timerFind_mem hfind
      have hjudged := judge_copies hcopies hfind env verdict
      rw [← htimers, h.retryMax, hverdict] at hjudged
      refine ⟨_, hjudged, fun slave => ?_⟩
      by_cases hslave : slave = timer.slave
      · rw [hslave]
        refine (hfits timer.slave).2.judged hpos hmax (hsame ▸ ownedBy_self hmem)
          (fun hslow => ?_) _
        rw [planAfter_standing h.events]
        exact hcounts hslow timer hmem hsame
      · have hother : ownedBy c.timers slave timerId = false :=
          hsame ▸ ownedBy_other h.distinct hmem hslave
        have hkeep : table.judge timer.slave max (env.clock .update) (verdictOf true error) slave =
            table slave := by
          cases verdictOf true error with
          | dropped => rfl
          | answered => exact Function.update_of_ne hslave ..
          | excepted => exact Function.update_of_ne hslave ..
          | missed => exact Function.update_of_ne hslave ..
        rw [attempts_other hother, hkeep]
        exact ⟨trivial, (hfits slave).2⟩

theorem attempts_abandoned (mine : ℕ → Bool) (polls : List (ℕ × ℕ)) (now : Millitime) :
    attempts mine ((abandoned polls).map (·, now)) = [] := by
  unfold attempts abandoned
  rw [List.map_map, List.filterMap_map]
  refine List.filterMap_eq_nil_iff.2 fun poll _ => ?_
  have herror : ¬ (errTransport = 0 ∨ errTransport = errException) := by decide
  have hslow : errTransport ≠ errTimeout := by decide
  simp only [Function.comp_apply, PollEvent.attempt, if_neg herror, if_neg hslow]
  split_ifs <;> rfl

theorem Planned.emptied {max : ℤ} {history : History} {c c' : Context} (h : Planned max history c)
    (hemptied : Emptied c c') (now : Millitime) :
    Planned max (history ++ (abandoned (queuedPolls c.queue)).map (·, now)) c' := by
  obtain ⟨table, hcopies, hfits⟩ := h.plans
  refine h.step hemptied.sameNumbers hemptied.subscribeCb (by rw [hemptied.polls]; nofun) ?_ ?_
    ⟨table, hemptied.timers ▸ hcopies, fun slave => ?_⟩
  · rw [hemptied.events, List.map_map]
    exact congrArg (pollEvents c.log ++ ·) (List.map_id _).symm
  · intro e he
    obtain ⟨event, hevent, rfl⟩ := List.mem_map.1 he
    obtain ⟨poll, hpoll, rfl⟩ := List.mem_map.1 hevent
    exact h.pollIds poll hpoll
  · rw [attempts_abandoned]
    exact ⟨trivial, (hfits slave).2⟩

theorem attempts_none {timers : List Timer} {slave : ℕ} (h : ∀ t ∈ timers, t.slave ≠ slave)
    (history : History) : attempts (ownedBy timers slave) history = [] := by
  refine List.filterMap_eq_nil_iff.2 fun e he => ?_
  have hnone : ownedBy timers slave e.1.timerId = false := by
    refine decide_eq_false fun hmem => ?_
    obtain ⟨t, ht, hkey⟩ := List.mem_map.1 hmem
    simp only [Prod.mk.injEq] at hkey
    exact h t ht hkey.2
  have hother := attempts_other hnone e.2
  exact List.filterMap_eq_nil_iff.1 hother e (List.mem_singleton_self _)

theorem ownedBy_insertTimer (mode : QueryMode) (timers : List Timer) {timer : Timer} {timerId : ℕ}
    (hne : timerId ≠ timer.timerId) (slave : ℕ) :
    ownedBy (insertTimer mode timers timer) slave timerId = ownedBy timers slave timerId := by
  unfold ownedBy
  rw [decide_eq_decide, (insertTimer_keys mode timers timer).mem_iff]
  exact List.mem_cons.trans
    (or_iff_right fun heq => hne (congrArg Prod.fst heq))

theorem Planned.subscribed {max : ℤ} {history : History} {c : Context} (h : Planned max history c)
    {slaveId : ℤ} {request : Request} {interval : ℤ}
    (hfresh : SubscribesFresh c (.subscribe slaveId request interval)) (env : Env) :
    Planned max history (subscribeRequest c slaveId request interval env) := by
  rcases subscribeRequest_cases c slaveId request interval env with
    hsame | ⟨mode, writer, timer, hbuild, hid, hslave, hnew, hadded⟩
  · rw [hsame]
    exact h.still (setSlave_sameNumbers c slaveId) rfl rfl rfl rfl
  · rw [hadded]
    have hold : ∀ t ∈ c.timers, t.slave = timer.slave → t.backoff = .fresh := fun t ht hsame =>
      hfresh writer hbuild t ht (hsame.trans hslave)
    obtain ⟨table, hcopies, hfits⟩ := h.plans
    have howned : ∀ slave, attempts (ownedBy (insertTimer mode c.timers timer) slave) history =
        attempts (ownedBy c.timers slave) history := fun slave =>
      attempts_congr fun e he => ownedBy_insertTimer mode c.timers
        (by rw [hid]; exact (Nat.lt_succ_of_le (h.eventIds e he)).ne) slave
    refine
      { toTimersNumbered := h.toTimersNumbered.insertTimer (h.tagged.insertTimer mode hid slaveId _)
          hid rfl rfl
        subscribeCb := h.subscribeCb
        config := h.config
        pollIds := fun poll hpoll => (h.pollIds poll hpoll).trans (Nat.le_succ _)
        eventIds := fun e he => (h.eventIds e he).trans (Nat.le_succ _)
        events := h.events
        plans := ⟨_, hcopies.insertTimer mode hnew hold, fun slave => ?_⟩ }
    unfold planAfter
    rw [howned]
    refine ⟨(hfits slave).1, ?_⟩
    by_cases hsame : slave = timer.slave
    · rw [hsame, Function.update_self]
      by_cases hany : ∃ t ∈ c.timers, t.slave = timer.slave
      · obtain ⟨t, ht, hslave'⟩ := hany
        rw [← hold t ht hslave', hcopies t ht, hslave']
        exact (hfits timer.slave).2
      · push Not at hany
        rw [attempts_none hany]
        exact ⟨rfl, rfl⟩
    · rw [Function.update_of_ne hsame]
      exact (hfits slave).2

theorem Planned.asks {max : ℤ} {history : History} {env : Env} {c c' : Context}
    {asked : List Ask} (hasks : Asks env c asked c') (h : Planned max history c) :
    ∃ now, pollEvents c'.log = pollEvents c.log ++ now.map Prod.fst ∧
      (∀ e ∈ now, ReadAt env e) ∧ (∀ a ∈ asked, Obeyed max c.timers history now a) ∧
      Planned max (history ++ now) c' := by
  induction hasks with
  | start => exact ⟨[], (List.append_nil _).symm, nofun, nofun, (List.append_nil history).symm ▸ h⟩
  | neutral _ hneutral ih =>
    obtain ⟨now, hevents, hread, hobeyed, hplanned⟩ := ih
    exact ⟨now, hneutral.events.trans hevents, hread, hobeyed,
      hplanned.still hneutral.sameNumbers hneutral.subscribeCb hneutral.backoffs hneutral.polls
        hneutral.events⟩
  | ask hasks site ht ih =>
    obtain ⟨now, hevents, hread, hobeyed, hplanned⟩ := ih
    obtain ⟨more, hmore, hread', hobeyed', hplanned'⟩ := hplanned.asked ht env site
    refine ⟨now ++ more, ?_, ?_, fun a ha => ?_, ?_⟩
    · rw [hmore, hevents, List.map_append, List.append_assoc]
    · intro e he
      exact (List.mem_append.1 he).elim (hread e) (hread' e)
    · rcases List.mem_append.1 ha with ha | ha
      · exact (hobeyed a ha).earlier more
      · rw [List.mem_singleton.1 ha]
        exact (hobeyed'.congr hasks.sameNumbers.keys).later
    · rw [← List.append_assoc]
      exact hplanned'

/-- The conditions under which a call keeps to the plan: a slave is subscribed before its
backoff is in use, the raw slot waits for no poll, and a poll that times out at an unresponsive
slave is a probe. -/
def KeepsPlan (max : ℤ) (c : Context) (env : Env) : Call → Prop
  | .subscribe slaveId request interval => SubscribesFresh c (.subscribe slaveId request interval)
  | .configure config _ _ => config.map (·.slaveRetryMaxMs) = some max
  | .prepare _ => Unmistaken c ∧ ∀ wrapper ∈ c.queue.head?, TimesOut c wrapper env →
      ∀ t ∈ c.timers, t.timerId = wrapper.msg.msgId →
        (slaveStanding c max t.slave).Counts wrapper.msg.serial
  | .writeRead _ => Unmistaken c
  | _ => True

theorem loopPrepare_planned {max : ℤ} (hpos : 0 < max) (hmax : max < 2 ^ 31) {history : History}
    {c : Context} (h : Planned max history c) {sleepTime : Millitime} {env : Env}
    (hkeeps : KeepsPlan max c env (.prepare sleepTime)) :
    ∃ now, Noted max history c (.prepare sleepTime, env) now ∧
      Planned max (history ++ now) (loopPrepare c sleepTime env).ctx := by
  by_cases hopen : c.connected
  · have hturn : ∃ before, pollEvents (timeOutHead c env).log =
          pollEvents c.log ++ before.map Prod.fst ∧ (∀ e ∈ before, ReadAt env e) ∧
        timerKeys (timeOutHead c env).timers = timerKeys c.timers ∧
        Planned max (history ++ before) (timeOutHead c env) := by
      rcases timeOutHead_left h.tagged env with hstill | ⟨wrapper, rest, hq, hout, -, hleave⟩
      · exact ⟨[], hstill.events.trans (List.append_nil _).symm, nofun, hstill.sameNumbers.keys,
          (List.append_nil history).symm ▸ hstill.planned h⟩
      · refine ⟨[(_, env.clock .update)], hleave.events, ?_, hleave.sameNumbers.keys,
          h.leave hpos hmax hleave hkeeps.1 fun _ => hkeeps.2 wrapper (by rw [hq]; rfl) hout⟩
        intro e he
        rw [List.mem_singleton.1 he]
        rfl
    obtain ⟨before, hevents, hread, hkeys, hturned⟩ := hturn
    obtain ⟨asked, hasks, hasked⟩ := loopPrepare_asks hopen hturned.distinct sleepTime
    obtain ⟨now, hevents', hread', hobeyed, hplanned⟩ := hturned.asks hasks
    refine ⟨before ++ now, ⟨?_, ?_, fun x hdue => ?_⟩, (List.append_assoc ..) ▸ hplanned⟩
    · change pollEvents (loopPrepare c sleepTime env).ctx.log = _
      rw [hevents', hevents, List.map_append, List.append_assoc]
    · intro e he
      exact (List.mem_append.1 he).elim (hread e) (hread' e)
    · exact ((hobeyed x (hasked x hdue)).congr hkeys).later
  · have hsame : (loopPrepare c sleepTime env).ctx = c := by
      unfold loopPrepare
      rw [if_neg hopen]
    rw [hsame]
    refine ⟨[], ⟨?_, nofun, fun x hdue => ?_⟩, (List.append_nil history).symm ▸ h⟩
    · exact (congrArg (pollEvents ·.log) hsame).trans (List.append_nil _).symm
    · cases hdue with
      | time hopen' => exact absurd hopen' hopen
      | round hopens =>
        unfold roundOpening at hopens
        rw [if_neg hopen] at hopens
        cases hopens

theorem Planned.perform {max : ℤ} (hpos : 0 < max) (hmax : max < 2 ^ 31) {history : History}
    {c : Context} (h : Planned max history c) {call : Call} {env : Env}
    (hkeeps : KeepsPlan max c env call) :
    ∃ now, Noted max history c (call, env) now ∧ Planned max (history ++ now) (call.perform c env) := by
  have hquiet : Planned max history (call.perform c env) →
      pollEvents (call.perform c env).log = pollEvents c.log → (∀ a, ¬ Call.Due c env call a) →
      ∃ now, Noted max history c (call, env) now ∧
        Planned max (history ++ now) (call.perform c env) := fun hplanned hevents hnone =>
    ⟨[], ⟨hevents.trans (List.append_nil _).symm, nofun, fun a hdue => absurd hdue (hnone a)⟩,
      (List.append_nil history).symm ▸ hplanned⟩
  have hstill : Still c (call.perform c env) → (∀ a, ¬ Call.Due c env call a) →
      ∃ now, Noted max history c (call, env) now ∧
        Planned max (history ++ now) (call.perform c env) := fun hstill hnone =>
    hquiet (hstill.planned h) hstill.events hnone
  have hrearm : ∀ {history : History} {c : Context}, Planned max history c →
      Planned max history (onceRearm c env) := fun {_ c} hplanned =>
    hplanned.still (onceRearm_sameNumbers c env) (onceRearm_settings c env).subscribeCb
      (onceRearm_rearms c env).sameBackoffs rfl rfl
  cases call with
  | subscribe slaveId request interval =>
    refine hquiet (h.subscribed hkeeps env) ?_ nofun
    change pollEvents (subscribeRequest c slaveId request interval env).log = _
    rcases subscribeRequest_cases c slaveId request interval env with
      hsame | ⟨mode, writer, timer, -, -, -, -, hadded⟩
    · rw [hsame]
      rfl
    · rw [hadded]
      rfl
  | prepare sleepTime => exact loopPrepare_planned hpos hmax h hkeeps
  | writeRead revents =>
    rcases loopWriteRead_left h.tagged revents env with
      hsame | ⟨timerId, serial, error, hslow, hleave⟩
    · exact hstill hsame nofun
    · refine ⟨[(.left timerId serial error, env.clock .update)], ⟨hleave.events, ?_, nofun⟩,
        h.leave hpos hmax hleave hkeeps fun h => absurd h hslow⟩
      intro e he
      rw [List.mem_singleton.1 he]
      rfl
  | reset =>
    have hemptied := dropAll_emptied env c.queue h.tagged rfl
    refine ⟨(abandoned (queuedPolls c.queue)).map (·, env.clock .update), ⟨?_, ?_, nofun⟩,
      hrearm (h.emptied hemptied _)⟩
    · rw [List.map_map]
      exact hemptied.events.trans (congrArg (pollEvents c.log ++ ·) (List.map_id _).symm)
    · intro e he
      obtain ⟨event, hevent, rfl⟩ := List.mem_map.1 he
      obtain ⟨poll, -, rfl⟩ := List.mem_map.1 hevent
      rfl
  | rearm => exact hquiet (hrearm h) rfl nofun
  | configure config processConfig frameTimeoutMs =>
    have hconfig : ∃ config', config = some config' ∧ config'.slaveRetryMaxMs = max :=
      Option.map_eq_some_iff.1 hkeeps
    exact hquiet ⟨⟨⟨h.tagged.timers, h.tagged.queue⟩, h.distinct, h.bounded⟩, h.subscribeCb, hconfig,
      h.pollIds, h.eventIds, h.events, h.plans⟩ rfl nofun
  | post slaveId request => exact hstill (Call.still (.post slaveId request) trivial env) nofun
  | raw text stray => exact hstill (Call.still (.raw text stray) trivial env) nofun
  | focus slave => exact hstill (Call.still (.focus slave) trivial env) nofun
  | connect opened => exact hstill (Call.still (.connect opened) trivial env) nofun
  | close => exact hstill (Call.still .close trivial env) nofun
  | arrive bytes => exact hstill (Call.still (.arrive bytes) trivial env) nofun

theorem Planned.run {max : ℤ} (hpos : 0 < max) (hmax : max < 2 ^ 31) {calls : List (Call × Env)}
    {history : History} {c : Context} (h : Planned max history c)
    (hcalls : Along (KeepsPlan max) calls c) :
    ∃ later, Records max calls c history later ∧ Planned max (history ++ later) (run calls c) := by
  induction calls generalizing history c with
  | nil => exact ⟨[], rfl, (List.append_nil history).symm ▸ h⟩
  | cons call calls ih =>
    obtain ⟨now, hnoted, hplanned⟩ := h.perform hpos hmax hcalls.1
    obtain ⟨later, hrecords, hrun⟩ := ih hplanned hcalls.2
    exact ⟨now ++ later, ⟨now, later, rfl, hnoted, hrecords⟩, (List.append_assoc ..) ▸ hrun⟩

/-- No poll of a slave was posted before it was due, and every timer of the slave has the
backoff that the history of its polls leads to. -/
def OnSchedule (max : ℤ) (history : History) (c : Context) : Prop :=
  ∀ slave, Follows (probePolicy max) noPlan (attempts (ownedBy c.timers slave) history) ∧
    ∀ t ∈ c.timers, t.slave = slave →
      t.backoff.Fits max (planAfter max (ownedBy c.timers slave) history)

/-- Slaves are probed as planned in every run in which a poll that times out at an unresponsive
slave was posted as a probe of it. -/
theorem probes_on_schedule {max : ℤ} (hpos : 0 < max) (hmax : max < 2 ^ 31) {c₀ : Context}
    (hfresh : Fresh c₀) (hcb : c₀.subscribeCb = true)
    (hconfig : ∃ config, c₀.config = some config ∧ config.slaveRetryMaxMs = max)
    {calls : List (Call × Env)} (hcalls : Along (KeepsPlan max) calls c₀) :
    ∃ history, Records max calls c₀ [] history ∧ OnSchedule max history (run calls c₀) := by
  have hplanned : Planned max [] c₀ :=
    { tagged := hfresh.replicated.tagged
      subscribeCb := hcb
      config := hconfig
      distinct := by simp [hfresh.timers]
      bounded := by simp [hfresh.timers]
      pollIds := by simp [hfresh.queue, queuedPolls]
      eventIds := nofun
      events := by simp [hfresh.log, pollEvents]
      plans := ⟨fun _ => .fresh, by simp [Copies, hfresh.timers],
        fun slave => ⟨trivial, rfl, rfl⟩⟩ }
  obtain ⟨history, hrecords, hrun⟩ := hplanned.run hpos hmax hcalls
  obtain ⟨table, hcopies, hfits⟩ := hrun.plans
  refine ⟨history, hrecords, fun slave => ⟨(hfits slave).1, fun t ht hslave => ?_⟩⟩
  rw [hcopies t ht, hslave]
  exact (hfits slave).2

instance (c : Context) (call : Call) : Decidable (SubscribesFresh c call) :=
  match call with
  | .subscribe slaveId request _ => inferInstanceAs (Decidable
      (∀ writer ∈ request.build c.transport slaveId, ∀ t ∈ c.timers,
        t.slave = (frameSlave c.transport writer).toNat → t.backoff = .fresh))
  | .post _ _ | .raw _ _ | .prepare _ | .writeRead _ | .reset | .rearm | .focus _ | .connect _
  | .close | .configure _ _ _ | .arrive _ => isTrue trivial

instance (c : Context) : Decidable (Unmistaken c) :=
  inferInstanceAs (Decidable (∀ w ∈ c.queue, w.flags = .subscribe → rawPending c w.msg = none))

instance (max : ℤ) (c : Context) (env : Env) (call : Call) : Decidable (KeepsPlan max c env call) :=
  match call with
  | .subscribe slaveId request interval =>
    inferInstanceAs (Decidable (SubscribesFresh c (.subscribe slaveId request interval)))
  | .configure config _ _ => inferInstanceAs (Decidable (config.map (·.slaveRetryMaxMs) = some max))
  | .prepare _ => inferInstanceAs (Decidable (Unmistaken c ∧ ∀ wrapper ∈ c.queue.head?,
      TimesOut c wrapper env → ∀ t ∈ c.timers, t.timerId = wrapper.msg.msgId →
        (slaveStanding c max t.slave).Counts wrapper.msg.serial))
  | .writeRead _ => inferInstanceAs (Decidable (Unmistaken c))
  | .post _ _ | .raw _ _ | .reset | .rearm | .focus _ | .connect _ | .close | .arrive _ =>
    isTrue trivial

/-- One input of the slave is probed, and the probe is missed. -/
theorem probes_on_schedule_example :
    ∃ history, Records 8000 ((readFirst, atTime 0) :: wakeUps [1000, 1100, 1600, 1700, 2200, 2300,
        2800, 3800, 3900, 4400]) probedContext [] history ∧
      OnSchedule 8000 history (run ((readFirst, atTime 0) :: wakeUps [1000, 1100, 1600, 1700, 2200,
        2300, 2800, 3800, 3900, 4400]) probedContext) :=
  probes_on_schedule (by decide) (by decide) ⟨rfl, rfl, rfl, rfl⟩ rfl ⟨probedConfig, rfl, rfl⟩
    (by decide +kernel)

theorem Records.events {max : ℤ} {calls : List (Call × Env)} {c : Context}
    {past history : History} (h : Records max calls c past history) :
    pollEvents (Modbusmq.run calls c).log = pollEvents c.log ++ history.map Prod.fst := by
  induction calls generalizing c past history with
  | nil =>
    obtain rfl : history = [] := h
    exact (List.append_nil _).symm
  | cons call calls ih =>
    obtain ⟨now, later, rfl, hnoted, hlater⟩ := h
    rw [run_cons, ih hlater, hnoted.events, List.map_append, List.append_assoc]

/-- Both inputs of the slave were queued when it became unresponsive: the second one times out
as well, and the wait doubles although the slave was not probed. -/
theorem queued_poll_doubles_wait :
    ¬ ∃ history, Records 8000 ([(readFirst, atTime 0), (readSecond, atTime 0)] ++
        wakeUps [1000, 1100, 1600, 1700, 2200, 2300, 2800, 2900, 3400]) probedContext [] history ∧
      OnSchedule 8000 history (run ([(readFirst, atTime 0), (readSecond, atTime 0)] ++
        wakeUps [1000, 1100, 1600, 1700, 2200, 2300, 2800, 2900, 3400]) probedContext) := by
  rintro ⟨history, hrecords, hschedule⟩
  have hevents := hrecords.events
  change _ = [] ++ _ at hevents
  generalize hc : run _ probedContext = c at *
  have hstanding : slaveStanding c 8000 5 = .probed [] 0 := by
    rw [← hc]
    decide +kernel
  have hretry : ∃ t ∈ c.timers, t.slave = 5 ∧ t.retryMs = 2000 := by
    rw [← hc]
    decide +kernel
  obtain ⟨t, ht, hslave, hretry⟩ := hretry
  have hfits := (hschedule 5).2 t ht hslave
  rw [Backoff.fits_probed ((planAfter_standing hevents 8000 5).trans hstanding)] at hfits
  have hwait : t.retryMs.toNat = 1000 := hfits.2.1
  rw [hretry] at hwait
  exact absurd hwait (by decide)

end Modbusmq
