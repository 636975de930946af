import Modbusmq.Loop.RawReplies

/-!
# The reports about one request

An application knows its requests by the numbers the library has given them. As long as the
numbers do not wrap, a number stands for one request: what is told under it is what the ledger
has of that request.
-/

namespace Modbusmq

def Event.about (id : UInt32) : Event → Option (Msg × Report)
  | reported m report => if m.reqId = id then some (m, report) else none
  | _ => none

def reportsAbout (id : UInt32) (log : List Event) : List (Msg × Report) :=
  log.filterMap (Event.about id)

/-- A request of the application is in the queue under this number. -/
def Pending (id : UInt32) (c : Context) : Prop :=
  ∃ w ∈ c.queue, w.flags = .post ∧ w.msg.reqId = id

theorem reportsAbout_append (id : UInt32) (log more : List Event) :
    reportsAbout id (log ++ more) = reportsAbout id log ++ reportsAbout id more :=
  List.filterMap_append

theorem mem_reportsAbout {id : UInt32} {log : List Event} {told : Msg × Report} :
    told ∈ reportsAbout id log ↔ .reported told.1 told.2 ∈ log ∧ told.1.reqId = id := by
  unfold reportsAbout
  rw [List.mem_filterMap]
  constructor
  · rintro ⟨e, he, habout⟩
    cases e with
    | reported m report =>
      by_cases hid : m.reqId = id
      · rw [Event.about, if_pos hid] at habout
        cases habout
        exact ⟨he, hid⟩
      · rw [Event.about, if_neg hid] at habout
        contradiction
    | _ => exact absurd habout (by simp [Event.about])
  · rintro ⟨he, hid⟩
    exact ⟨_, he, by rw [Event.about, if_pos hid]⟩

/-- Under numbers that have not wrapped, the reports about a number are those about its request. -/
theorem Stamped.reports_length {c : Context} (h : Stamped c) {id : UInt32} {serial : ℕ}
    (hid : id.toNat = serial + 1) :
    (reportsAbout id c.log).length = (ledger c).history.count (.reported serial) := by
  have hlog := h.log
  change _ = (c.log.filterMap Event.entry).count _
  generalize c.log = log at hlog
  induction log with
  | nil => rfl
  | cons e log ih =>
    have hrest := ih fun e' he' => hlog e' (List.mem_cons_of_mem _ he')
    have hnumbered := hlog e List.mem_cons_self
    rw [← List.singleton_append, reportsAbout_append, List.length_append, hrest,
      List.filterMap_append, List.count_append]
    congr 1
    cases e with
    | reported m report =>
      obtain ⟨hnumber, -⟩ := hnumbered m rfl
      have hsame : m.reqId = id ↔ m.serial = serial := by
        rw [← UInt32.toNat_inj, hnumber, hid]
        exact Nat.add_right_cancel_iff
      by_cases hserial : m.serial = serial
      · simp [reportsAbout, Event.about, Event.entry, hsame.2 hserial, hserial]
      · simp [reportsAbout, Event.about, Event.entry, mt hsame.1 hserial, hserial]
    | _ => simp [reportsAbout, Event.about, Event.entry, List.filterMap_cons]

theorem Call.log_prefix (c : Context) (env : Env) (call : Call) :
    c.log <+: (call.perform c env).log := by
  cases call with
  | raw text stray =>
    change _ <+: (rawRequest c text stray).2.log
    rcases rawRequest_cases c text stray with ⟨reason, hrefused⟩ | ⟨-, writer, slot, -, -, -, hposted⟩
    · rw [hrefused]
      exact List.prefix_append _ _
    · rw [hposted]
      exact List.prefix_append _ _
  | _ => exact (Call.rawStep _ _ _ fun _ _ h => by contradiction).log

theorem Call.raws (c : Context) (env : Env) (call : Call) (m : Msg) (line : String)
    (h : .reported m (.raw line) ∈ (call.perform c env).log) :
    .reported m (.raw line) ∈ c.log ∨ ∃ slot ∈ c.raw, m.reqId = slot.reqId := by
  cases call with
  | raw text stray =>
    change _ ∈ (rawRequest c text stray).2.log at h
    rcases rawRequest_cases c text stray with ⟨reason, hrefused⟩ | ⟨-, writer, slot, -, -, -, hposted⟩
    · rw [hrefused] at h
      exact .inl ((List.mem_append.1 h).resolve_right (by simp))
    · rw [hposted] at h
      exact .inl (rawStep_raws (δ := [_]) rfl (by simp [Event.line]) m line h)
  | _ => exact (Call.rawStep _ _ _ fun _ _ h => by contradiction).raws m line h

/-- The slot is held by the request that held it, or by one that has just been numbered. -/
theorem Call.slots {c : Context} (env : Env) (call : Call) (hown : RawOwn c)
    (hfew : (call.perform c env).serialNext < 2 ^ 32) {slot : RawSlot}
    (h : (call.perform c env).raw = some slot) :
    c.raw = some slot ∨ slot.reqId.toNat = c.serialNext + 1 := by
  cases call with
  | raw text stray =>
    change (rawRequest c text stray).2.raw = some slot at h
    change (rawRequest c text stray).2.serialNext < 2 ^ 32 at hfew
    rcases rawRequest_cases c text stray with ⟨reason, hrefused⟩ |
      ⟨-, writer, slot', -, hid, -, hposted⟩
    · rw [hrefused] at h
      exact .inl h
    · rw [hposted] at h hfew
      obtain rfl : slot' = slot := Option.some.inj h
      have hlater : RawOwn (Modbusmq.post c writer) := hown.post _ _ hfew
      refine .inr ?_
      rw [hid]
      exact hlater.next
  | _ => exact .inl ((Call.rawStep _ _ _ fun _ _ h => by contradiction).kept h)

section Runs

variable {c₀ : Context} {calls : List (Call × Env)}

theorem run_stamped (hfresh : Fresh c₀) (hids : c₀.reqIdNext.toNat = c₀.serialNext)
    (hfew : (run calls c₀).serialNext < 2 ^ 32) : Stamped (run calls c₀) :=
  (run_rawOwn (hfresh.rawOwn hids) calls hfew).toStamped

/-- A request of the application is pending and nothing was told about it, or it is not and it
was told about once. -/
theorem posted_reports (hfresh : Fresh c₀) (hids : c₀.reqIdNext.toNat = c₀.serialNext)
    (hm : c₀.messageCb) (he : c₀.errorCb) (hfew : (run calls c₀).serialNext < 2 ^ 32) {m : Msg}
    (hposted : .posted .post m ∈ (run calls c₀).log) :
    Pending m.reqId (run calls c₀) ∧ reportsAbout m.reqId (run calls c₀).log = [] ∨
      ¬ Pending m.reqId (run calls c₀) ∧
        ∃ told, reportsAbout m.reqId (run calls c₀).log = [told] := by
  have hstamped := run_stamped hfresh hids hfew
  obtain ⟨hid, -⟩ := hstamped.log _ hposted m rfl
  have hlength := hstamped.reports_length hid
  have hledger := QueueSteps.ledger (run_steps hfresh.wellFormed calls) hfresh.numbered hm he
  have hkept := hledger.2
  rw [hfresh.ledger] at hkept
  have hcount : (ledger (run calls c₀)).history.count (.reported m.serial) =
      ((ledger (run calls c₀)).life m.serial).count (.reported m.serial) := by
    unfold Ledger.life
    exact (List.count_filter (p := fun e : Entry ℕ => e.item = m.serial) (decide_eq_true rfl)).symm
  have howed : m.serial ∈ (ledger (run calls c₀)).owed := ⟨m, hposted, rfl⟩
  have hpending : Pending m.reqId (run calls c₀) ↔
      m.serial ∈ (ledger (run calls c₀)).waiting := by
    constructor
    · rintro ⟨w, hw, -, hsame⟩
      refine ⟨w, hw, ?_⟩
      have hnumber := (hstamped.queue w hw).1
      rw [hsame, hid] at hnumber
      exact (Nat.add_right_cancel hnumber).symm
    · rintro ⟨w, hw, hserial⟩
      refine ⟨w, hw, (hledger.1.flags w hw).2 (hserial ▸ howed), ?_⟩
      rw [← UInt32.toNat_inj, (hstamped.queue w hw).1, hid, hserial]
  by_cases hwaiting : m.serial ∈ (ledger (run calls c₀)).waiting
  · refine .inl ⟨hpending.2 hwaiting, List.eq_nil_of_length_eq_zero ?_⟩
    rw [hlength, hcount, (hkept.kept Ledger.kept_empty).waiting _ hwaiting]
    simp
  · refine .inr ⟨mt hpending.1 hwaiting, List.length_eq_one_iff.1 ?_⟩
    rw [hlength, hcount]
    rcases (hkept.kept Ledger.kept_empty).settled _ hwaiting with hlife | hlife | ⟨hfree, -⟩
    · have hentry : Entry.accepted m.serial ∈ (ledger (run calls c₀)).life m.serial :=
        List.mem_filter.2 ⟨mem_history_accepted hposted, decide_eq_true rfl⟩
      rw [hlife] at hentry
      exact absurd hentry List.not_mem_nil
    · rw [hlife]
      simp
    · exact absurd howed hfree

theorem run_log_kept (calls : List (Call × Env)) (c : Context) : c.log <+: (run calls c).log := by
  induction calls generalizing c with
  | nil => exact List.prefix_refl _
  | cons made calls ih => exact (Call.log_prefix c made.2 made.1).trans (ih _)

/-- A request of the application is not pending any more after three timeouts for each request
that was in the queue. -/
theorem not_pending_in_time {more : List (Call × Env)} (hfresh : Fresh c₀)
    (hids : c₀.reqIdNext.toNat = c₀.serialNext) (hm : c₀.messageCb) (he : c₀.errorCb)
    (hfew : (run (calls ++ more) c₀).serialNext < 2 ^ 32) {m : Msg}
    (hposted : .posted .post m ∈ (run calls c₀).log) {timeout : Millitime} {gap : ℕ}
    (h : KeptTurning c₀ calls more timeout gap (3 * (run calls c₀).queue.length)) :
    ¬ Pending m.reqId (run (calls ++ more) c₀) := by
  rintro ⟨w', hw', hpost', hid'⟩
  have hlater := run_stamped hfresh hids hfew
  rw [run_append] at hfew
  have hfirst : (run calls c₀).serialNext < 2 ^ 32 := (run_serial_le more _).trans_lt hfew
  rcases posted_reports hfresh hids hm he hfirst hposted with
    ⟨⟨w, hw, hpost, hid⟩, -⟩ | ⟨-, told, hone⟩
  · refine posts_not_queued_in_time hfresh hm he hw hpost h (List.mem_map.2 ⟨w', hw', ?_⟩)
    have hnumber := ((run_stamped hfresh hids hfirst).queue w hw).1
    have hnumber' := (hlater.queue w' hw').1
    rw [hid', ← hid, hnumber] at hnumber'
    exact Prod.ext (hpost'.trans hpost.symm) (Nat.add_right_cancel hnumber').symm
  · have hwritten : .posted .post m ∈ (run (calls ++ more) c₀).log := by
      rw [run_append]
      exact (run_log_kept more _).subset hposted
    obtain ⟨hreported, hsame⟩ := mem_reportsAbout.1 (hone ▸ List.mem_singleton_self told)
    have hmore : .reported told.1 told.2 ∈ (run (calls ++ more) c₀).log := by
      rw [run_append]
      exact (run_log_kept more _).subset hreported
    rw [← run_append] at hfew
    rcases posted_reports hfresh hids hm he hfew hwritten with ⟨-, hnone⟩ | ⟨hgone, -⟩
    · have htold := mem_reportsAbout.2 ⟨hmore, hsame⟩
      rw [hnone] at htold
      contradiction
    · exact hgone ⟨w', hw', hpost', hid'⟩

end Runs

end Modbusmq
