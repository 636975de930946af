import Modbusmq.Loop.PollRate

/-!
# Who is asked for a poll

Scheduling asks one timer after the other whether its poll may enter the queue. A
timer whose time has come is asked in parallel and in series mode, and a timer
that takes part in a round is asked when the round opens.
-/

namespace Modbusmq

/-- A timer that is asked for its poll, and when. -/
structure Ask where
  timerId : ℕ
  slave : ℕ
  time : Millitime

def Timer.ask (t : Timer) (time : Millitime) : Ask := ⟨t.timerId, t.slave, time⟩

/-- Scheduling from `c` on that asks these timers, one after the other. -/
inductive Asks (env : Env) (c : Context) : List Ask → Context → Prop
  | start : Asks env c [] c
  | neutral {asked : List Ask} {c₁ c₂ : Context} (h : Asks env c asked c₁) (hn : Neutral c₁ c₂) :
      Asks env c asked c₂
  | ask {asked : List Ask} {c₁ : Context} (h : Asks env c asked c₁) {i : ℕ} {timer : Timer}
      (site : Site) (ht : c₁.timers[i]? = some timer) :
      Asks env c (asked ++ [timer.ask (env.clock site)]) (gatePost c₁ timer (env.clock site) i)

theorem Asks.trans {env : Env} {c₁ c₂ c₃ : Context} {asked more : List Ask}
    (h : Asks env c₁ asked c₂) (h' : Asks env c₂ more c₃) : Asks env c₁ (asked ++ more) c₃ := by
  induction h' with
  | start => rwa [List.append_nil]
  | neutral _ hn ih => exact ih.neutral hn
  | ask _ site ht ih =>
    rw [← List.append_assoc]
    exact ih.ask site ht

theorem Asks.single {env : Env} {c : Context} {i : ℕ} {timer : Timer} (site : Site)
    (ht : c.timers[i]? = some timer) :
    Asks env c [timer.ask (env.clock site)] (gatePost c timer (env.clock site) i) :=
  Asks.start.ask site ht

theorem Asks.sameNumbers {env : Env} {c c' : Context} {asked : List Ask}
    (h : Asks env c asked c') : SameNumbers c c' := by
  induction h with
  | start => exact .refl c
  | neutral _ hn ih => exact ih.trans hn.sameNumbers
  | ask _ site ht ih => exact ih.trans (gatePost_polls ht (env.clock site) 0).1

theorem foldl_asks {α : Type*} (get : α → Context) {env : Env} {f : α → ℕ → α}
    {asks : α → ℕ → Ask → Prop}
    (hf : ∀ a i, ∃ asked, Asks env (get a) asked (get (f a i)) ∧ ∀ x, asks a i x → x ∈ asked)
    (l : List ℕ) (a : α) :
    ∃ asked, Asks env (get a) asked (get (l.foldl f a)) ∧ ∀ before i after,
      l = before ++ i :: after → ∀ x, asks (before.foldl f a) i x → x ∈ asked := by
  induction l generalizing a with
  | nil =>
    refine ⟨[], .start, fun before i after hsplit => ?_⟩
    simp at hsplit
  | cons j l ih =>
    obtain ⟨asked, hturn, hasked⟩ := hf a j
    obtain ⟨more, hrest, hmore⟩ := ih (f a j)
    refine ⟨asked ++ more, hturn.trans hrest, fun before i after hsplit x hx => ?_⟩
    cases before with
    | nil =>
      obtain ⟨rfl, -⟩ := List.cons.inj hsplit
      exact List.mem_append_left _ (hasked x hx)
    | cons _ before =>
      obtain ⟨rfl, hrest⟩ := List.cons.inj hsplit
      exact List.mem_append_right _ (hmore before i after hrest x hx)

/-- A timer that keeps its place in the list, with what the walks look at. -/
structure SamePlace (t t' : Timer) : Prop where
  timerId : t'.timerId = t.timerId
  slave : t'.slave = t.slave
  timerNextTime : t'.timerNextTime = t.timerNextTime

theorem SamePlace.ask {t t' : Timer} (h : SamePlace t t') (time : Millitime) :
    t'.ask time = t.ask time := by
  unfold Timer.ask
  rw [h.timerId, h.slave]

/-- The timer behind an index, when the gate of another one or its own has been asked. -/
theorem gatePost_samePlace {c : Context} {i j : ℕ} {timer t : Timer}
    (hj : c.timers[j]? = some timer) (ht : c.timers[i]? = some t) (now : Millitime) :
    ∃ t', (gatePost c timer now j).timers[i]? = some t' ∧ SamePlace t t' := by
  have hkeys := (gatePost_polls hj now 0).1.keys
  have hschedules := gatePost_schedules c timer now j
  have hkey := congrArg (·[i]?) hkeys
  have hschedule := congrArg (·[i]?) hschedules
  simp only [timerKeys, List.getElem?_map, ht, Option.map_some, Option.map_eq_some_iff]
    at hkey hschedule
  obtain ⟨t', ht', hkey⟩ := hkey
  obtain ⟨s, hs, hschedule⟩ := hschedule
  obtain rfl : s = t' := Option.some.inj (hs.symm.trans ht')
  simp only [Prod.mk.injEq] at hkey
  simp only [Timer.schedule, Prod.mk.injEq] at hschedule
  exact ⟨s, ht', hkey.1, hkey.2, hschedule.2.2.2⟩

theorem gatePost_queue {c : Context} {i : ℕ} {timer : Timer} (ht : c.timers[i]? = some timer)
    (now : Millitime) {w : Wrapper} (hw : w ∈ (gatePost c timer now i).queue) :
    w ∈ c.queue ∨ w.msg.msgId = timer.timerId := by
  have hgate := (slaveGate_neutral c timer now).2
  have hqueue : (slaveGate c timer now).2.queue = c.queue := by rw [hgate]
  have hkey := congrArg (·[i]?) (slaveGate_neutral c timer now).1
  simp only [List.getElem?_map, ht, Option.map_some, Option.map_eq_some_iff] at hkey
  obtain ⟨t', ht', hid⟩ := hkey
  unfold gatePost at hw
  split_ifs at hw
  · unfold postTimer at hw
    rw [ht'] at hw
    rcases mem_enqueue.1 hw with hold | rfl
    · exact .inl (hqueue ▸ hold)
    · exact .inr ((preparedMsg_tags ..).msgId.trans (congrArg Prod.fst hid))
  · exact .inl (hqueue ▸ hw)

/-- A timer whose time has come and that has no poll queued. -/
structure Awaits (now : Millitime) (i : ℕ) (t : Timer) (c : Context) : Prop where
  place : ∃ t', c.timers[i]? = some t' ∧ SamePlace t t'
  due : t.timerNextTime ≤ now
  idle : ∀ w ∈ c.queue, w.msg.msgId ≠ t.timerId

/-- Its turn comes later: the turn of another timer leaves it waiting. -/
theorem Awaits.otherTurn {now : Millitime} {i j : ℕ} {t : Timer} {s : Scheduled}
    (h : Awaits now i t s.ctx) (hdistinct : (s.ctx.timers.map (·.timerId)).Nodup) (hne : j ≠ i) :
    Awaits now i t (pollTimer now s j).ctx ∧
      ((pollTimer now s j).ctx.timers.map (·.timerId)).Nodup := by
  rcases pollTimer_cases now s j with hsame | ⟨timer, hj, -, -, hturn⟩
  · rw [hsame]
    exact ⟨h, hdistinct⟩
  obtain ⟨t₁, ht₁, hplace₁⟩ := h.place
  obtain ⟨t₂, ht₂, hplace₂⟩ := gatePost_samePlace hj ht₁ now
  have hother : timer.timerId ≠ t.timerId := by
    rw [← hplace₁.timerId]
    intro hid
    have hsame : (s.ctx.timers.map (·.timerId))[j]? = (s.ctx.timers.map (·.timerId))[i]? := by
      simp [hj, ht₁, hid]
    have hjlt : j < (s.ctx.timers.map (·.timerId)).length := by
      simpa using (List.getElem?_eq_some_iff.1 hj).1
    exact hne ((List.getElem?_inj hjlt hdistinct).1 hsame)
  have hnumbers := (gatePost_polls hj now 0).1.trans (advanceTimer_neutral _ j).sameNumbers
  rw [hturn]
  refine ⟨⟨⟨t₂, ?_, ?_⟩, h.due, fun w hw hid => ?_⟩, ?_⟩
  · change ((gatePost s.ctx timer now j).timers.modify j _)[i]? = some t₂
    rw [List.getElem?_modify_ne _ _ hne]
    exact ht₂
  · exact ⟨hplace₂.timerId.trans hplace₁.timerId, hplace₂.slave.trans hplace₁.slave,
      hplace₂.timerNextTime.trans hplace₁.timerNextTime⟩
  · rcases gatePost_queue hj now hw with hold | hnew
    · exact h.idle w hold hid
    · exact hother (hnew.symm.trans hid)
  · have hids := timerIds_congr hnumbers.keys
    rwa [hids]

theorem Awaits.walk {now : Millitime} {i : ℕ} {t : Timer} (l : List ℕ) (hnot : i ∉ l)
    {s : Scheduled} (h : Awaits now i t s.ctx) (hdistinct : (s.ctx.timers.map (·.timerId)).Nodup) :
    Awaits now i t (l.foldl (pollTimer now) s).ctx := by
  induction l generalizing s with
  | nil => exact h
  | cons j l ih =>
    obtain ⟨hne, hnot⟩ := List.ne_and_not_mem_of_not_mem_cons hnot
    obtain ⟨h, hdistinct⟩ := h.otherTurn hdistinct (Ne.symm hne)
    exact ih hnot h hdistinct

theorem pollTimer_asks (env : Env) (s : Scheduled) (i : ℕ) :
    ∃ asked, Asks env s.ctx asked (pollTimer (env.clock .due) s i).ctx ∧ ∀ x,
      (∃ t, Awaits (env.clock .due) i t s.ctx ∧ x = t.ask (env.clock .due)) → x ∈ asked := by
  unfold pollTimer
  split
  · rename_i hnone
    refine ⟨[], .start, ?_⟩
    rintro x ⟨t, hawaits, -⟩
    obtain ⟨t', ht', -⟩ := hawaits.place
    rw [hnone] at ht'
    cases ht'
  · rename_i timer ht
    dsimp only
    split_ifs with hdue
    · refine ⟨_, (Asks.single .due ht).neutral (advanceTimer_neutral _ i), ?_⟩
      rintro x ⟨t, hawaits, rfl⟩
      obtain ⟨t', ht', hplace⟩ := hawaits.place
      obtain rfl := Option.some.inj (ht.symm.trans ht')
      rw [← hplace.ask]
      exact List.mem_singleton_self _
    · refine ⟨[], .start, ?_⟩
      rintro x ⟨t, hawaits, -⟩
      obtain ⟨t', ht', hplace⟩ := hawaits.place
      obtain rfl := Option.some.inj (ht.symm.trans ht')
      refine absurd ⟨hplace.timerNextTime ▸ hawaits.due, fun hqueued => ?_⟩ hdue
      obtain ⟨w, hw, hid⟩ := List.any_eq_true.1 hqueued
      exact hawaits.idle w hw ((of_decide_eq_true hid).trans hplace.timerId)

/-- The timer walk asks every timer whose time has come and that has no poll queued. -/
theorem loopPrepareTimers_asks {c : Context} (hdistinct : (c.timers.map (·.timerId)).Nodup)
    (sleepTime : Millitime) (env : Env) :
    ∃ asked, Asks env c asked (loopPrepareTimers c sleepTime env).ctx ∧ ∀ t ∈ c.timers,
      t.timerNextTime ≤ env.clock .due → (∀ w ∈ c.queue, w.msg.msgId ≠ t.timerId) →
        t.ask (env.clock .due) ∈ asked := by
  obtain ⟨asked, hwalk, hasked⟩ := foldl_asks Scheduled.ctx (pollTimer_asks env)
    (List.range c.timers.length) ⟨c, if 0 < sleepTime then sleepTime else 1000⟩
  refine ⟨asked, hwalk, fun t ht hdue hidle => ?_⟩
  obtain ⟨i, hi, hget⟩ := List.getElem_of_mem ht
  obtain ⟨before, after, hsplit⟩ := List.append_of_mem (List.mem_range.2 hi)
  have hnot : i ∉ before := by
    have hnodup : (List.range c.timers.length).Nodup := List.nodup_range
    rw [hsplit, List.nodup_append] at hnodup
    exact fun hmem => hnodup.2.2 i hmem i List.mem_cons_self rfl
  refine hasked before i after hsplit _ ⟨t, Awaits.walk before hnot ?_ hdistinct, rfl⟩
  exact ⟨⟨t, List.getElem?_eq_some_iff.2 ⟨hi, hget⟩, rfl, rfl, rfl⟩, hdue, hidle⟩

/-- The timers as a round finds them, whatever has been asked. -/
structure SameMembers (c c' : Context) : Prop where
  identities : c'.identities = c.identities
  schedules : c'.timers.map Timer.schedule = c.timers.map Timer.schedule

theorem SameMembers.trans {c₁ c₂ c₃ : Context} (h : SameMembers c₁ c₂) (h' : SameMembers c₂ c₃) :
    SameMembers c₁ c₃ :=
  ⟨h'.identities.trans h.identities, h'.schedules.trans h.schedules⟩

/-- A timer takes part in the walk of a tier, over all slaves or one of them. -/
structure TakesPart (tier : Tier) (slave : ℤ) (t : Timer) : Prop where
  tier : t.tier = tier
  slave : slave < 0 ∨ (t.slave : ℤ) = slave
  undone : ¬ (t.isOnce ∧ t.timerNextTime = neverAgain)

theorem SameMembers.getElem? {c c' : Context} (h : SameMembers c c') {i : ℕ} {t : Timer}
    (ht : c.timers[i]? = some t) : ∃ t', c'.timers[i]? = some t' ∧ SamePlace t t' ∧
      ∀ tier slave, TakesPart tier slave t → TakesPart tier slave t' := by
  have hidentity := congrArg (·[i]?) h.identities
  have hschedule := congrArg (·[i]?) h.schedules
  simp only [Context.identities, List.getElem?_map, ht, Option.map_some, Option.map_eq_some_iff]
    at hidentity hschedule
  obtain ⟨t', ht', hidentity⟩ := hidentity
  obtain ⟨s, hs, hschedule⟩ := hschedule
  obtain rfl : s = t' := Option.some.inj (hs.symm.trans ht')
  simp only [Timer.identity, Prod.mk.injEq] at hidentity
  simp only [Timer.schedule, Prod.mk.injEq] at hschedule
  obtain ⟨hid, htier, hslave, honce⟩ := hidentity
  have hnext := hschedule.2.2.2
  refine ⟨s, ht', ⟨hid, hslave, hnext⟩, fun tier slave hpart => ?_⟩
  exact ⟨htier.trans hpart.tier, hslave.symm ▸ hpart.slave, by
    rw [honce, hnext]
    exact hpart.undone⟩

theorem roundPostTimer_members (tier : Tier) (slave : ℤ) (clock : ℕ → Millitime) (c : Context)
    (i : ℕ) : SameMembers c (roundPostTimer tier slave clock c i) := by
  refine ⟨(roundPostTimer_keepsRound tier slave clock c i).identities, ?_⟩
  unfold roundPostTimer
  split
  · rfl
  · split_ifs
    · rfl
    · rfl
    · exact gatePost_schedules ..

theorem foldl_members (tier : Tier) (slave : ℤ) (clock : ℕ → Millitime) (l : List ℕ) (c : Context) :
    SameMembers c (l.foldl (roundPostTimer tier slave clock) c) := by
  induction l generalizing c with
  | nil => exact ⟨rfl, rfl⟩
  | cons i l ih => exact (roundPostTimer_members tier slave clock c i).trans (ih _)

theorem roundPostTimer_asks (tier : Tier) (slave : ℤ) (env : Env) (site : ℕ → Site) (c : Context)
    (i : ℕ) : ∃ asked, Asks env c asked (roundPostTimer tier slave (env.clock ∘ site) c i) ∧ ∀ x,
      (∃ t, c.timers[i]? = some t ∧ TakesPart tier slave t ∧ x = t.ask (env.clock (site i))) →
        x ∈ asked := by
  unfold roundPostTimer
  split
  · rename_i hnone
    refine ⟨[], .start, ?_⟩
    rintro x ⟨t, ht, -⟩
    rw [hnone] at ht
    cases ht
  · rename_i timer ht
    split_ifs with hother hdone
    · refine ⟨[], .start, ?_⟩
      rintro x ⟨t, ht', hpart, -⟩
      obtain rfl := Option.some.inj (ht.symm.trans ht')
      rcases hother with hother | ⟨hone, hother⟩
      · exact absurd hpart.tier hother
      · exact absurd (hpart.slave.resolve_left (not_lt.2 hone)) hother
    · refine ⟨[], .start, ?_⟩
      rintro x ⟨t, ht', hpart, -⟩
      obtain rfl := Option.some.inj (ht.symm.trans ht')
      exact absurd hdone hpart.undone
    · refine ⟨_, .single (site i) ht, ?_⟩
      rintro x ⟨t, ht', -, rfl⟩
      obtain rfl := Option.some.inj (ht.symm.trans ht')
      exact List.mem_singleton_self _

theorem roundPost_asks (c : Context) (tier : Tier) (slave : ℤ) (env : Env) (site : ℕ → Site) :
    ∃ asked, Asks env c asked (roundPost c tier slave (env.clock ∘ site)) ∧ ∀ i t,
      c.timers[i]? = some t → TakesPart tier slave t → t.ask (env.clock (site i)) ∈ asked := by
  obtain ⟨asked, hwalk, hasked⟩ := foldl_asks id (roundPostTimer_asks tier slave env site)
    (List.range c.timers.length) c
  refine ⟨asked, hwalk, fun i t ht hpart => ?_⟩
  have hi := (List.getElem?_eq_some_iff.1 ht).1
  obtain ⟨before, after, hsplit⟩ := List.append_of_mem (List.mem_range.2 hi)
  obtain ⟨t', ht', hplace, hpart'⟩ :=
    (foldl_members tier slave (env.clock ∘ site) before c).getElem? ht
  exact hasked before i after hsplit _ ⟨t', ht', hpart' _ _ hpart, (hplace.ask _).symm⟩

theorem roundPost_members (c : Context) (tier : Tier) (slave : ℤ) (clock : ℕ → Millitime) :
    SameMembers c (roundPost c tier slave clock) := foldl_members ..

/-- A round asks every timer of its plan, a once input that is done apart. -/
theorem roundStart_asks (c : Context) (env : Env) :
    ∃ asked, Asks env c asked (roundStart c env) ∧ ∀ i time,
      (i, time) ∈ roundPlan c (roundNextDeepSlave c env) env → ∀ t, c.timers[i]? = some t →
        ¬ (t.isOnce ∧ t.timerNextTime = neverAgain) → t.ask time ∈ asked := by
  obtain ⟨c₁, c₂, c₃, hc₁, hc₂, hc₃, hfocus, hstart⟩ := roundStart_eq c env
  have hbegin : Asks env c [] c₁ ∧ c₁.timers = c.timers := by
    rw [hc₁]
    exact ⟨Asks.start.neutral (neutral_of_timers rfl rfl rfl rfl rfl rfl), rfl⟩
  obtain ⟨fast, hfast, hfasts⟩ := roundPost_asks c₁ .fast (-1) env .fast
  have hmembers := roundPost_members c₁ .fast (-1) (env.clock ∘ .fast)
  rw [← hc₂] at hfast hmembers
  -- the turn of a slave, if there is one
  have hturn : ∃ deep, Asks env c₂ deep c₃ ∧ SameMembers c₂ c₃ ∧
      (0 ≤ roundNextDeepSlave c env → ∀ i t, c₂.timers[i]? = some t →
        TakesPart .deep (roundNextDeepSlave c env) t → t.ask (env.clock (.deep i)) ∈ deep) := by
    obtain ⟨deep, hdeep, hdeeps⟩ := roundPost_asks c₂ .deep (roundNextDeepSlave c env) env .deep
    have hkept := roundPost_members c₂ .deep (roundNextDeepSlave c env) (env.clock ∘ .deep)
    rw [hc₃]
    split_ifs with hsome
    · exact ⟨deep, hdeep.neutral (neutral_of_timers rfl rfl rfl rfl rfl rfl),
        ⟨hkept.identities, hkept.schedules⟩, fun _ => hdeeps⟩
    · exact ⟨[], .start, ⟨rfl, rfl⟩, fun h => absurd h hsome⟩
  obtain ⟨deep, hdeep, hmembers', hdeeps⟩ := hturn
  -- the focus slave, if it is another one
  have hfocused : ∃ focus, Asks env c₃ focus (roundStart c env) ∧
      (0 ≤ c.roundFocus ∧ c.roundFocus ≠ roundNextDeepSlave c env → ∀ i t, c₃.timers[i]? = some t →
        TakesPart .deep c.roundFocus t → t.ask (env.clock (.focus i)) ∈ focus) := by
    obtain ⟨focus, hasks, hfocuses⟩ := roundPost_asks c₃ .deep c.roundFocus env .focus
    rw [hstart, hfocus]
    split_ifs with hother
    · exact ⟨focus, hasks, fun _ => hfocuses⟩
    · exact ⟨[], .start, fun h => absurd h hother⟩
  obtain ⟨focus, hasks, hfocuses⟩ := hfocused
  refine ⟨[] ++ fast ++ deep ++ focus, ((hbegin.1.trans hfast).trans hdeep).trans hasks, ?_⟩
  intro i time hplan t ht hundone
  rw [← hbegin.2] at ht
  obtain ⟨t₂, ht₂, hplace₂, hpart₂⟩ := hmembers.getElem? ht
  obtain ⟨t₃, ht₃, hplace₃, hpart₃⟩ := (hmembers.trans hmembers').getElem? ht
  have hmember : ∀ {tier : Tier} {slave : ℤ}, i ∈ tierTimers c.timers tier slave →
      TakesPart tier slave t := by
    intro tier slave hi
    obtain ⟨s, hs, htier, hslave⟩ := mem_tierTimers.1 hi
    rw [← hbegin.2] at hs
    obtain rfl := Option.some.inj (ht.symm.trans hs)
    exact ⟨htier, hslave, hundone⟩
  unfold roundPlan at hplan
  rcases List.mem_append.1 hplan with hplan | hplan
  · rcases List.mem_append.1 hplan with hplan | hplan
    · obtain ⟨j, hj, heq⟩ := List.mem_map.1 hplan
      obtain ⟨rfl, rfl⟩ := Prod.mk.inj heq
      exact List.mem_append_left _ (List.mem_append_left _ (hfasts j t ht (hmember hj)))
    · split_ifs at hplan with hsome
      · obtain ⟨j, hj, heq⟩ := List.mem_map.1 hplan
        obtain ⟨rfl, rfl⟩ := Prod.mk.inj heq
        refine List.mem_append_left _ (List.mem_append_right _ ?_)
        rw [← hplace₂.ask]
        exact hdeeps hsome j t₂ ht₂ (hpart₂ _ _ (hmember hj))
      · cases hplan
  · split_ifs at hplan with hother
    · obtain ⟨j, hj, heq⟩ := List.mem_map.1 hplan
      obtain ⟨rfl, rfl⟩ := Prod.mk.inj heq
      refine List.mem_append_right _ ?_
      rw [← hplace₃.ask]
      exact hfocuses hother j t₃ ht₃ (hpart₃ _ _ (hmember hj))
    · cases hplan

/-- The polls that fall due in a call: in parallel and series mode those of the timers whose time
has come and that have none queued, in rounds mode those of the round that the call opens. -/
inductive Call.Due (c : Context) (env : Env) : Call → Ask → Prop
  | time {sleepTime : Millitime} (hopen : c.connected) (hmode : ¬ InRounds c) {t : Timer}
      (ht : t ∈ (timeOutHead c env).timers) (hdue : t.timerNextTime ≤ env.clock .due)
      (hidle : ∀ w ∈ (timeOutHead c env).queue, w.msg.msgId ≠ t.timerId) :
      Call.Due c env (.prepare sleepTime) (t.ask (env.clock .due))
  | round {sleepTime : Millitime} {opened : Context} (hopens : roundOpening c env = some opened)
      {i : ℕ} {time : Millitime}
      (hplan : (i, time) ∈ roundPlan opened (roundNextDeepSlave opened env) env) {t : Timer}
      (ht : opened.timers[i]? = some t) (hundone : ¬ (t.isOnce ∧ t.timerNextTime = neverAgain)) :
      Call.Due c env (.prepare sleepTime) (t.ask time)

/-- A call of the loop asks for every poll that falls due in it. -/
theorem loopPrepare_asks {c : Context} {env : Env} (hopen : c.connected)
    (hdistinct : ((timeOutHead c env).timers.map (·.timerId)).Nodup) (sleepTime : Millitime) :
    ∃ asked, Asks env (timeOutHead c env) asked (loopPrepare c sleepTime env).ctx ∧
      ∀ x, Call.Due c env (.prepare sleepTime) x → x ∈ asked := by
  by_cases hmode : InRounds c
  · rw [loopPrepare_rounds hmode hopen]
    have hover := roundOver_neutral (timeOutHead c env) env
    cases hopens : roundOpening c env with
    | none =>
      refine ⟨[], Asks.start.neutral hover, fun x hdue => ?_⟩
      cases hdue with
      | time _ hother => exact absurd hmode hother
      | round hopens' =>
        rw [hopens] at hopens'
        cases hopens'
    | some opened =>
      have hstart : opened = roundOver (timeOutHead c env) env := by
        unfold roundOpening at hopens
        rw [if_pos hopen] at hopens
        obtain ⟨config, -, hchosen⟩ := Option.bind_eq_some_iff.1 hopens
        split_ifs at hchosen
        exact (Option.some.inj hchosen).symm
      obtain ⟨asked, hasks, hasked⟩ := roundStart_asks opened env
      refine ⟨[] ++ asked, (Asks.start.neutral (hstart ▸ hover)).trans hasks, fun x hdue => ?_⟩
      cases hdue with
      | time _ hother => exact absurd hmode hother
      | round hopens' hplan ht hundone =>
        obtain rfl := Option.some.inj (hopens.symm.trans hopens')
        exact hasked _ _ hplan _ ht hundone
  · have hno : roundOpening c env = none := by
      unfold roundOpening
      rw [if_pos hopen]
      refine Option.eq_none_iff_forall_ne_some.2 fun opened hchosen => ?_
      obtain ⟨config, hconfig, hchosen⟩ := Option.bind_eq_some_iff.1 hchosen
      split_ifs at hchosen with hrounds
      exact hmode ⟨config, (timeOutHead_sameRounds c env).config.symm.trans hconfig, hrounds.1⟩
    have hwalk : (loopPrepare c sleepTime env).ctx =
        (loopPrepareTimers (timeOutHead c env) sleepTime env).ctx := by
      unfold loopPrepare loopPrepareSubscription
      rw [if_pos hopen, prepareEvents_ctx]
      split
      · rename_i config hconfig
        rw [if_neg fun hrounds => hmode ⟨config,
          (timeOutHead_sameRounds c env).config.symm.trans hconfig, hrounds⟩]
      · rfl
    obtain ⟨asked, hasks, hasked⟩ := loopPrepareTimers_asks hdistinct sleepTime env
    rw [hwalk]
    refine ⟨asked, hasks, fun x hdue => ?_⟩
    cases hdue with
    | time _ _ ht hdue hidle => exact hasked _ ht hdue hidle
    | round hopens =>
      rw [hno] at hopens
      cases hopens

end Modbusmq
