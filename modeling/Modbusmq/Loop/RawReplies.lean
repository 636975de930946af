import Modbusmq.Decoding.Channels
import Modbusmq.Loop.Patience
import Modbusmq.Loop.RawSlot

/-!
# The replies to raw requests

A raw request is answered with one line that starts with its text. Whatever else is posted,
polled, answered or abandoned in between, every raw request gets its own line, and only one;
and it gets it in time.
-/

namespace Modbusmq

def rawAsked (calls : List (Call × Env)) : List String :=
  calls.filterMap fun made =>
    match made.1 with
    | .raw text _ => some (String.ofList (rawEcho text))
    | _ => none

/-- Every raw request has its reply, but for the one that holds the slot; and there are no other
replies. -/
structure RawBooks (asked : List String) (c : Context) : Prop where
  own : RawOwn c
  held : Reentrant.RawHeld c
  answered : ∃ answered, List.Forall₂ (RawAnswer c.transport) answered (rawReplies c.log) ∧
    (answered ++ (c.raw.map (·.text)).toList).Perm asked

theorem RawBooks.step {asked : List String} {c c' : Context} (h : RawBooks asked c)
    (hstep : RawStep c c') (hfew : c'.serialNext < 2 ^ 32) : RawBooks asked c' := by
  obtain ⟨answered, hreplies, hperm⟩ := h.answered
  have hown := hstep.own hfew h.own
  rcases hstep.slot with ⟨hraw, hsame, hholds⟩ | ⟨slot, e, hslot, hnone, hreply, hanswer⟩
  · refine ⟨hown, fun slot hslot => ?_, answered, ?_, by rwa [hraw]⟩
    · rw [hraw] at hslot
      obtain ⟨w, hw, hpost, hid⟩ := h.held slot hslot
      obtain ⟨w', hw', hticket, hid'⟩ := hholds slot hslot w hw hpost hid
      exact ⟨w', hw', (congrArg Prod.fst hticket).trans hpost, hid'⟩
    · rw [hstep.transport, hsame]
      exact hreplies
  · refine ⟨hown, ?_, answered ++ [slot.text], ?_, ?_⟩
    · intro _ hmem
      rw [hnone] at hmem
      contradiction
    · rw [hstep.transport, hreply]
      exact List.rel_append hreplies (.cons (hanswer hfew h.own) .nil)
    · rw [hnone]
      rw [hslot] at hperm
      simpa using hperm

theorem RawBooks.ask {asked : List String} {c : Context} (h : RawBooks asked c) (text : String)
    (stray : ℕ → UInt8) (env : Env) (hfew : (rawRequest c text stray).2.serialNext < 2 ^ 32) :
    RawBooks (asked ++ [String.ofList (rawEcho text)]) (rawRequest c text stray).2 := by
  obtain ⟨answered, hreplies, hperm⟩ := h.answered
  have hown : RawOwn (rawRequest c text stray).2 := Call.rawOwn h.own env (.raw text stray) hfew
  rcases rawRequest_cases c text stray with ⟨reason, hrefused⟩ |
    ⟨hfree, writer, slot, htext, hid, -, hposted⟩
  · rw [hrefused] at hown ⊢
    refine ⟨hown, h.held, answered ++ [String.ofList (rawEcho text)], ?_, ?_⟩
    · change List.Forall₂ _ _ (rawReplies (c.log ++ [_]))
      rw [rawReplies_append]
      exact List.rel_append hreplies (.cons (.refused reason) .nil)
    · have hmove : (answered ++ [String.ofList (rawEcho text)] ++
          (c.raw.map (·.text)).toList).Perm
            (answered ++ (c.raw.map (·.text)).toList ++ [String.ofList (rawEcho text)]) := by
        rw [List.append_assoc, List.append_assoc]
        exact List.perm_append_comm.append_left answered
      exact hmove.trans (hperm.append_right _)
  · rw [hposted] at hown ⊢
    refine ⟨hown, fun s hs => ?_, answered, ?_, ?_⟩
    · obtain rfl : slot = s := Option.some.inj hs
      refine ⟨_, mem_enqueue.2 (.inr rfl), rfl, ?_⟩
      rw [hid, preparedMsg_reqId]
      rfl
    · change List.Forall₂ _ _ (rawReplies (c.log ++ [_]))
      rw [rawReplies_append]
      change List.Forall₂ _ _ (rawReplies c.log ++ [])
      rw [List.append_nil]
      exact hreplies
    · rw [hfree] at hperm
      change (answered ++ [slot.text]).Perm _
      rw [htext]
      simpa using hperm.append_right [String.ofList (rawEcho text)]

theorem Fresh.rawOwn {c : Context} (h : Fresh c) (hids : c.reqIdNext.toNat = c.serialNext) :
    RawOwn c := by
  refine ⟨⟨hids, by simp [h.queue], by simp [h.log]⟩, fun slot hslot => ?_⟩
  rw [h.raw] at hslot
  contradiction

theorem run_rawBooks {c₀ : Context} (hfresh : Fresh c₀)
    (hids : c₀.reqIdNext.toNat = c₀.serialNext) (calls : List (Call × Env))
    (hfew : (run calls c₀).serialNext < 2 ^ 32) : RawBooks (rawAsked calls) (run calls c₀) := by
  induction calls using List.reverseRecOn with
  | nil =>
    refine ⟨hfresh.rawOwn hids, ?_, [], ?_, ?_⟩
    · intro _ hmem
      change c₀.raw = _ at hmem
      rw [hfresh.raw] at hmem
      contradiction
    · change List.Forall₂ _ _ (rawReplies c₀.log)
      rw [hfresh.log]
      exact .nil
    · change ([] ++ (c₀.raw.map _).toList).Perm []
      rw [hfresh.raw]
      exact .refl _
  | append_singleton calls made ih =>
    obtain ⟨call, env⟩ := made
    rw [run_append] at hfew ⊢
    have hbooks := ih ((run_serial_le [(call, env)] _).trans_lt hfew)
    have hasked : rawAsked (calls ++ [(call, env)]) = rawAsked calls ++ rawAsked [(call, env)] :=
      List.filterMap_append
    rw [hasked]
    change RawBooks _ (call.perform (run calls c₀) env)
    change (call.perform (run calls c₀) env).serialNext < 2 ^ 32 at hfew
    cases call with
    | raw text stray => exact hbooks.ask text stray env hfew
    | _ =>
      change RawBooks (rawAsked calls ++ []) _
      rw [List.append_nil]
      exact hbooks.step (Call.rawStep _ _ _ fun _ _ h => by contradiction) hfew

/-- In every run of the library each raw request is answered with one line that starts with its
text, but for the request that holds the slot, and there are no other lines. What a line prints
is the answer to the frame the text stands for, as long as the request numbers do not wrap. -/
theorem raw_requests_answered_once {c₀ : Context} (hfresh : Fresh c₀)
    (hids : c₀.reqIdNext.toNat = c₀.serialNext) (calls : List (Call × Env))
    (hfew : (run calls c₀).serialNext < 2 ^ 32) :
    ∃ answered,
      List.Forall₂ (RawAnswer c₀.transport) answered (rawReplies (run calls c₀).log) ∧
        (answered ++ ((run calls c₀).raw.map (·.text)).toList).Perm (rawAsked calls) := by
  obtain ⟨answered, hreplies, hperm⟩ := (run_rawBooks hfresh hids calls hfew).answered
  rw [(run_steps hfresh.wellFormed calls).sameSetup.transport] at hreplies
  exact ⟨answered, hreplies, hperm⟩

/-- Two raw requests, of which the second comes while the first one holds the slot. -/
def rawPair : List (Call × Env) :=
  [(.raw "@a 1 3 0 1" fun _ => 0, atTime 10000), (.raw "@b 1 3 0 2" fun _ => 0, atTime 10000)]

/-- The second one is refused, and the first one fails, as nobody answers it. -/
theorem raw_requests_answered_once_example : ∃ answered,
    List.Forall₂ (RawAnswer .tcp) answered
      (rawReplies (run (rawPair ++ silentTurns) toldContext).log) ∧
      answered.Perm ["@a 1 3 0 1", "@b 1 3 0 2"] ∧
      rawLines (run (rawPair ++ silentTurns) toldContext).log =
        ["@b 1 3 0 2 -> error refused busy, one request at a time",
          "@a 1 3 0 1 -> error no response within frame timeout"] := by
  obtain ⟨answered, hreplies, hperm⟩ := @raw_requests_answered_once toldContext
    ⟨rfl, rfl, rfl, rfl⟩ (by decide) (rawPair ++ silentTurns) (by decide +kernel)
  have hslot : (run (rawPair ++ silentTurns) toldContext).raw = none := by decide +kernel
  have hasked : rawAsked (rawPair ++ silentTurns) = ["@a 1 3 0 1", "@b 1 3 0 2"] := by
    decide +kernel
  rw [hslot, hasked] at hperm
  exact ⟨answered, hreplies, by simpa using hperm, by decide +kernel⟩

/-- The request that holds the slot is queued. -/
def HoldsSlot (slot : RawSlot) (ticket : Flags × ℕ) (c : Context) : Prop :=
  c.raw = some slot ∧ ∃ w ∈ c.queue, w.ticket = ticket ∧ w.msg.reqId = slot.reqId

/-- Between two contexts a text was answered. -/
def AnsweredSince (text : String) (c c' : Context) : Prop :=
  ∃ new, rawReplies c'.log = rawReplies c.log ++ new ∧ ∃ e ∈ new, RawAnswer c.transport text e

theorem Call.rawReplies_prefix (c : Context) (env : Env) (call : Call) :
    rawReplies c.log <+: rawReplies (call.perform c env).log := by
  have hstep : ∀ {c' : Context}, RawStep c c' → rawReplies c.log <+: rawReplies c'.log := fun h => by
    rcases h.slot with ⟨-, hsame, -⟩ | ⟨_, e, -, -, hreply, -⟩
    · rw [hsame]
    · rw [hreply]
      exact List.prefix_append _ _
  cases call with
  | raw text stray =>
    change _ <+: rawReplies (rawRequest c text stray).2.log
    rcases rawRequest_cases c text stray with ⟨reason, hrefused⟩ |
      ⟨-, writer, slot, -, -, -, hposted⟩
    · rw [hrefused]
      change _ <+: rawReplies (c.log ++ [_])
      rw [rawReplies_append]
      exact List.prefix_append _ _
    · rw [hposted]
      change _ <+: rawReplies (c.log ++ [_])
      rw [rawReplies_append]
      exact List.prefix_append _ _
  | _ => exact hstep (Call.rawStep _ _ _ fun _ _ h => by contradiction)

theorem run_rawReplies_prefix (more : List (Call × Env)) (c : Context) :
    rawReplies c.log <+: rawReplies (run more c).log := by
  induction more generalizing c with
  | nil => exact List.prefix_refl _
  | cons made more ih => exact (Call.rawReplies_prefix c made.2 made.1).trans (ih _)

/-- The slot stays with its request, or its text is answered. -/
theorem Call.slot_kept {slot : RawSlot} {ticket : Flags × ℕ} {c : Context} (env : Env) (call : Call)
    (hpost : ticket.1 = .post) (hown : RawOwn c) (hfew : (call.perform c env).serialNext < 2 ^ 32)
    (h : HoldsSlot slot ticket c) :
    HoldsSlot slot ticket (call.perform c env) ∨ AnsweredSince slot.text c (call.perform c env) := by
  obtain ⟨hslot, w, hw, hticket, hid⟩ := h
  have hstep : ∀ {c' : Context}, c'.serialNext < 2 ^ 32 → RawStep c c' →
      HoldsSlot slot ticket c' ∨ AnsweredSince slot.text c c' := by
    intro c' hfew h
    rcases h.slot with ⟨hraw, -, hholds⟩ | ⟨held, e, hheld, -, hreply, hanswer⟩
    · have hflags : w.flags = .post := (congrArg Prod.fst hticket).trans hpost
      obtain ⟨w', hw', hticket', hid'⟩ := hholds slot hslot w hw hflags hid
      exact .inl ⟨hraw.trans hslot, w', hw', hticket'.trans hticket, hid'⟩
    · obtain rfl : slot = held := Option.some.inj (hslot.symm.trans hheld)
      exact .inr ⟨[e], hreply, e, List.mem_singleton.2 rfl, hanswer hfew hown⟩
  cases call with
  | raw text stray =>
    rcases rawRequest_cases c text stray with ⟨reason, hrefused⟩ | ⟨hfree, -⟩
    · refine .inl ?_
      change HoldsSlot slot ticket (rawRequest c text stray).2
      rw [hrefused]
      exact ⟨hslot, w, hw, hticket, hid⟩
    · rw [hfree] at hslot
      contradiction
  | _ => exact hstep hfew (Call.rawStep _ _ _ fun _ _ h => by contradiction)

theorem Call.perform_transport (c : Context) (env : Env) (call : Call) :
    (call.perform c env).transport = c.transport := by
  cases call with
  | raw text stray =>
    change (rawRequest c text stray).2.transport = _
    rcases rawRequest_cases c text stray with ⟨reason, hrefused⟩ |
      ⟨-, writer, slot, -, -, -, hposted⟩
    · rw [hrefused]
      rfl
    · rw [hposted]
      rfl
  | _ => exact (Call.rawStep _ _ _ fun _ _ h => by contradiction).transport

theorem run_slot_kept {slot : RawSlot} {ticket : Flags × ℕ} (hpost : ticket.1 = .post)
    (more : List (Call × Env)) {c : Context} (hown : RawOwn c)
    (hfew : (run more c).serialNext < 2 ^ 32) (h : HoldsSlot slot ticket c) :
    HoldsSlot slot ticket (run more c) ∨ AnsweredSince slot.text c (run more c) := by
  induction more generalizing c with
  | nil => exact .inl h
  | cons made more ih =>
    have hfirst : (made.1.perform c made.2).serialNext < 2 ^ 32 :=
      (run_serial_le more _).trans_lt hfew
    rcases Call.slot_kept made.2 made.1 hpost hown hfirst h with
      hkept | ⟨new, hnew, e, he, hanswer⟩
    · rcases ih (Call.rawOwn hown made.2 made.1 hfirst) hfew hkept with hlater |
        ⟨new, hnew, e, he, hanswer⟩
      · exact .inl hlater
      · obtain ⟨first, hreplies⟩ := Call.rawReplies_prefix c made.2 made.1
        rw [Call.perform_transport] at hanswer
        refine .inr ⟨first ++ new, ?_, e, List.mem_append_right _ he, hanswer⟩
        rw [← List.append_assoc, hreplies]
        exact hnew
    · obtain ⟨rest, hrest⟩ := run_rawReplies_prefix more (made.1.perform c made.2)
      refine .inr ⟨new ++ rest, ?_, e, List.mem_append_left _ he, hanswer⟩
      rw [← List.append_assoc, ← hnew]
      exact hrest.symm

/-- A raw request that holds the slot is answered in time, if the loop is kept turning for three
timeouts for each request in the queue. -/
theorem raw_request_answered_in_time {c₀ : Context} (hfresh : Fresh c₀)
    (hids : c₀.reqIdNext.toNat = c₀.serialNext) (hm : c₀.messageCb) (he : c₀.errorCb)
    {calls more : List (Call × Env)} (hfew : (run (calls ++ more) c₀).serialNext < 2 ^ 32)
    {slot : RawSlot} (hslot : (run calls c₀).raw = some slot) {timeout : Millitime} {gap : ℕ}
    (h : KeptTurning c₀ calls more timeout gap (3 * (run calls c₀).queue.length)) :
    AnsweredSince slot.text (run calls c₀) (run (calls ++ more) c₀) := by
  rw [run_append] at hfew
  have hbooks := run_rawBooks hfresh hids calls ((run_serial_le more _).trans_lt hfew)
  obtain ⟨w, hw, hpost, hid⟩ := hbooks.held slot hslot
  have hleft := posts_not_queued_in_time hfresh hm he hw hpost h
  rw [run_append] at hleft ⊢
  rcases run_slot_kept hpost more hbooks.own hfew ⟨hslot, w, hw, rfl, hid⟩ with
    ⟨-, w', hw', hticket, -⟩ | hanswered
  · exact absurd (List.mem_map.2 ⟨w', hw', hticket⟩) hleft
  · exact hanswered

/-- The first of the two is answered, though its slave is silent. -/
theorem raw_request_answered_in_time_example :
    AnsweredSince "@a 1 3 0 1" (run rawPair toldContext) (run (rawPair ++ silentTurns) toldContext) := by
  obtain ⟨slot, hslot, htext⟩ : ∃ slot, (run rawPair toldContext).raw = some slot ∧
      slot.text = "@a 1 3 0 1" := ⟨_, rfl, by decide +kernel⟩
  have hturning : KeptTurning toldContext rawPair silentTurns 500 600
      (3 * (run rawPair toldContext).queue.length) :=
    ⟨by decide, by decide +kernel, by decide +kernel, 10000,
      (List.range 11).map fun i => 10600 + 600 * i, by decide +kernel, by decide +kernel,
      by decide +kernel⟩
  rw [← htext]
  exact raw_request_answered_in_time ⟨rfl, rfl, rfl, rfl⟩ (by decide) rfl rfl (by decide +kernel)
    hslot hturning

end Modbusmq
