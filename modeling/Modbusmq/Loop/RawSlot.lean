import Modbusmq.Core.RawCoils
import Modbusmq.Loop.Backoff
import Modbusmq.Loop.Discipline
import Modbusmq.Loop.Reentrancy
import Modbusmq.Reading.RtuAcceptance
import Modbusmq.Reading.TcpAcceptance

/-!
# The slot of the raw request

A raw request takes the one slot of the context until its request leaves the queue. The slot
knows its request by its number only: what a call does to the numbers, to the slot and to the
request that holds it.
-/

namespace Modbusmq

def Event.line : Event → Option String
  | refused line => some line
  | reported _ (.raw line) => some line
  | _ => none

/-- The replies to raw requests, in the order in which the callback was handed their lines. -/
def rawReplies (log : List Event) : List Event := log.filter fun e => e.line.isSome

/-- The lines that were handed to the callback, in order. -/
def rawLines (log : List Event) : List String := log.filterMap Event.line

/-- The request frame a text stands for, with the function and the count its reply is printed
with. -/
def RawFrame (t : Transport) (text : String) (fc count : ℕ) (w : Frame .writer) : Prop :=
  ∃ (writes : Bool) (stray : ℕ → UInt8) (f : RawFields) (request : Request) (m : Msg)
    (transactionId : ℕ), rawParse writes text.toList = .ok f ∧
      rawBuild writes f stray = .ok (request, count) ∧ request.build t f.slave = some m.writer ∧
        fc = f.fc.toNat ∧ w = (preparedMsg t transactionId m).writer

/-- The same request frame, sent further. -/
def SameFrame (w w' : Frame .writer) : Prop := w' = { w with xmit := w'.xmit }

/-- The request of a text was carried out: the frame it stands for was sent, and the line prints
the frame received in answer to it, which passes the check. -/
def RawDone (t : Transport) (text : String) (e : Event) : Prop :=
  ∃ (m : Msg) (fc count : ℕ) (w : Frame .writer), RawFrame t text fc count w ∧
    SameFrame w m.writer ∧ check t m.writer m.reader = (0, m.reader) ∧
      e = .reported m (.raw (text ++ " -> " ++ rawResult t fc count m.reader))

/-- A reply that answers a text: it was refused, or its request failed, or was carried out. -/
inductive RawAnswer (t : Transport) (text : String) : Event → Prop
  | refused (reason : String) : RawAnswer t text (.refused (text ++ " -> error refused " ++ reason))
  | failed (m : Msg) (detail : String) :
      RawAnswer t text (.reported m (.raw (text ++ " -> " ++ ("error " ++ detail))))
  | done {e : Event} (h : RawDone t text e) : RawAnswer t text e

def Event.numbered : Event → Option Msg
  | posted _ m => some m
  | reported m _ => some m
  | _ => none

/-- Requests are numbered in the order in which they entered the queue. -/
def Msg.Numbered (m : Msg) (next : ℕ) : Prop := m.reqId.toNat = m.serial + 1 ∧ m.serial < next

/-- Every request has kept its number. -/
structure Stamped (c : Context) : Prop where
  next : c.reqIdNext.toNat = c.serialNext
  queue : ∀ w ∈ c.queue, w.msg.Numbered c.serialNext
  log : ∀ e ∈ c.log, ∀ m ∈ e.numbered, m.Numbered c.serialNext

/-- The request whose number the slot has recorded is the one its text stands for. -/
structure RawOwn (c : Context) : Prop extends Stamped c where
  slot : ∀ slot ∈ c.raw, slot.reqId.toNat ≤ c.serialNext ∧
    ∃ w₀, RawFrame c.transport slot.text slot.fc slot.count w₀ ∧
      ∀ w ∈ c.queue, w.msg.reqId = slot.reqId → SameFrame w₀ w.msg.writer

/-- What a step does with the raw slot: it is left alone, and the request that holds it stays in
the queue; or it is answered and cleared. -/
structure RawStep (c c' : Context) : Prop where
  transport : c'.transport = c.transport
  serial : c.serialNext ≤ c'.serialNext
  log : c.log <+: c'.log
  own : c'.serialNext < 2 ^ 32 → RawOwn c → RawOwn c'
  raws : ∀ m line, .reported m (.raw line) ∈ c'.log →
    .reported m (.raw line) ∈ c.log ∨ ∃ slot ∈ c.raw, m.reqId = slot.reqId
  slot : (c'.raw = c.raw ∧ rawReplies c'.log = rawReplies c.log ∧
      ∀ slot ∈ c.raw, ∀ w ∈ c.queue, w.flags = .post → w.msg.reqId = slot.reqId →
        ∃ w' ∈ c'.queue, w'.ticket = w.ticket ∧ w'.msg.reqId = slot.reqId) ∨
    ∃ slot e, c.raw = some slot ∧ c'.raw = none ∧
      rawReplies c'.log = rawReplies c.log ++ [e] ∧
      (c'.serialNext < 2 ^ 32 → RawOwn c → RawAnswer c.transport slot.text e)

theorem SameFrame.refl (w : Frame .writer) : SameFrame w w := rfl

theorem SameFrame.trans {w₁ w₂ w₃ : Frame .writer} (h : SameFrame w₁ w₂) (h' : SameFrame w₂ w₃) :
    SameFrame w₁ w₃ := by
  unfold SameFrame at h h' ⊢
  rw [h] at h'
  exact h'

theorem check_again (t : Transport) (w : Frame .writer) (r : Frame .reader) :
    check t w (check t w r).2 = check t w r := by
  cases t with
  | tcp =>
    change tcpMsgCheck w (tcpMsgCheck w r).2 = tcpMsgCheck w r
    rw [tcpMsgCheck_reader]
    unfold tcpMsgCheck
    rw [tcpMsgCheckHeader_again]
  | rtu =>
    change rtuMsgCheck w (rtuMsgCheck w r).2 = rtuMsgCheck w r
    rw [rtuMsgCheck_reader]
    unfold rtuMsgCheck
    rw [rtuMsgCheckHeader_again]
theorem rawReplies_append (log more : List Event) :
    rawReplies (log ++ more) = rawReplies log ++ rawReplies more := List.filter_append ..

theorem rawReplies_nil {δ : List Event} (h : ∀ e ∈ δ, e.line = none) : rawReplies δ = [] :=
  List.filter_eq_nil_iff.2 fun e he => by simp [h e he]

theorem rawLines_eq (log : List Event) : rawLines log = (rawReplies log).filterMap Event.line := by
  unfold rawLines rawReplies
  rw [List.filterMap_filter]
  refine List.filterMap_congr fun e _ => ?_
  cases e.line <;> rfl

theorem rawLines_append (log more : List Event) :
    rawLines (log ++ more) = rawLines log ++ rawLines more := List.filterMap_append

theorem RawStep.kept {c c' : Context} (h : RawStep c c') {slot : RawSlot}
    (hslot : c'.raw = some slot) : c.raw = some slot := by
  rcases h.slot with ⟨hraw, -⟩ | ⟨_, _, -, hnone, -⟩
  · exact hraw.symm.trans hslot
  · rw [hnone] at hslot
    contradiction

theorem RawStep.trans {c₁ c₂ c₃ : Context} (h : RawStep c₁ c₂) (h' : RawStep c₂ c₃) :
    RawStep c₁ c₃ := by
  have hearlier : c₃.serialNext < 2 ^ 32 → c₂.serialNext < 2 ^ 32 := h'.serial.trans_lt
  refine ⟨h'.transport.trans h.transport, h.serial.trans h'.serial, h.log.trans h'.log,
    fun hfew hown => h'.own hfew (h.own (hearlier hfew) hown), fun m line hmem => ?_, ?_⟩
  · rcases h'.raws m line hmem with hmem | ⟨slot, hslot, hid⟩
    · exact h.raws m line hmem
    · exact .inr ⟨slot, h.kept hslot, hid⟩
  rcases h.slot with ⟨hraw, hsame, hholds⟩ | ⟨slot, e, hslot, hnone, hreply, hanswer⟩
  · rcases h'.slot with ⟨hraw', hsame', hholds'⟩ | ⟨slot, e, hslot, hnone, hreply, hanswer⟩
    · refine .inl ⟨hraw'.trans hraw, hsame'.trans hsame, fun slot hs w hw hpost hid => ?_⟩
      obtain ⟨w', hw', hticket, hid'⟩ := hholds slot hs w hw hpost hid
      have hpost' : w'.flags = .post := (congrArg Prod.fst hticket).trans hpost
      obtain ⟨w'', hw'', hticket', hid''⟩ := hholds' slot (hraw ▸ hs) w' hw' hpost' hid'
      exact ⟨w'', hw'', hticket'.trans hticket, hid''⟩
    · refine .inr ⟨slot, e, hraw ▸ hslot, hnone, hsame ▸ hreply, fun hfew hown => ?_⟩
      rw [← h.transport]
      exact hanswer hfew (h.own (hearlier hfew) hown)
  · rcases h'.slot with ⟨hraw', hsame', -⟩ | ⟨slot', e', hslot', -⟩
    · exact .inr ⟨slot, e, hslot, hraw'.trans hnone, hsame'.trans hreply,
        fun hfew => hanswer (hearlier hfew)⟩
    · rw [hnone] at hslot'
      exact absurd hslot' (by simp)

/-- No request has been given a number. -/
def SameNumbering (c c' : Context) : Prop :=
  c'.reqIdNext = c.reqIdNext ∧ c'.serialNext = c.serialNext

/-- A queued request is still that request. -/
def SameEntry (w w' : Wrapper) : Prop :=
  w'.ticket = w.ticket ∧ w'.msg.reqId = w.msg.reqId ∧ SameFrame w.msg.writer w'.msg.writer

/-- The slot is as it was, and so is what is known of it. -/
theorem RawOwn.congr {c c' : Context} (h : RawOwn c) (ht : c'.transport = c.transport)
    (hids : SameNumbering c c') (hraw : ∀ slot ∈ c'.raw, slot ∈ c.raw)
    (hqueue : ∀ w' ∈ c'.queue, ∃ w ∈ c.queue, SameEntry w w')
    (hlog : ∀ e ∈ c'.log, e ∈ c.log ∨ ∀ m ∈ e.numbered, m.Numbered c.serialNext) : RawOwn c' := by
  obtain ⟨hnext, hserial⟩ := hids
  refine ⟨⟨by rw [hnext, hserial]; exact h.next, fun w' hw' => ?_, fun e he m hm => ?_⟩,
    fun slot hslot => ?_⟩
  · obtain ⟨w, hw, hticket, hid, -⟩ := hqueue w' hw'
    have hsame : w'.msg.serial = w.msg.serial := congrArg Prod.snd hticket
    unfold Msg.Numbered
    rw [hid, hsame, hserial]
    exact h.queue w hw
  · rw [hserial]
    rcases hlog e he with hold | hnew
    · exact h.log e hold m hm
    · exact hnew m hm
  · obtain ⟨hnumber, w₀, hframe, hmine⟩ := h.slot slot (hraw slot hslot)
    rw [ht, hserial]
    refine ⟨hnumber, w₀, hframe, fun w' hw' hslotid => ?_⟩
    obtain ⟨w, hw, -, hid, hsame⟩ := hqueue w' hw'
    exact (hmine w hw (hid.symm.trans hslotid)).trans hsame

theorem rawStep_raws {c c' : Context} {δ : List Event} (hlog : c'.log = c.log ++ δ)
    (hδ : ∀ e ∈ δ, e.line = none) (m : Msg) (line : String)
    (hmem : .reported m (.raw line) ∈ c'.log) : .reported m (.raw line) ∈ c.log := by
  rw [hlog] at hmem
  rcases List.mem_append.1 hmem with hmem | hmem
  · exact hmem
  · exact absurd (hδ _ hmem) (by simp [Event.line])

/-- Nothing happens to the slot, and every queued request stays in its place. -/
theorem rawStep_keeps {c c' : Context} (ht : c'.transport = c.transport)
    (hids : SameNumbering c c') (hraw : c'.raw = c.raw) {δ : List Event} (hlog : c'.log = c.log ++ δ)
    (hδ : ∀ e ∈ δ, e.line = none)
    (hnum : Stamped c → ∀ e ∈ δ, ∀ m ∈ e.numbered, m.Numbered c.serialNext)
    (hqueue : List.Forall₂ SameEntry c.queue c'.queue) : RawStep c c' := by
  refine ⟨ht, hids.2.ge, hlog ▸ List.prefix_append _ _, fun _ hown => hown.congr ht hids
      (fun _ => hraw ▸ id) (fun w' hw' => ?_) fun e he => ?_,
    fun m line hmem => .inl (rawStep_raws hlog hδ m line hmem),
    .inl ⟨hraw, ?_, fun slot _ w hw _ hid => ?_⟩⟩
  · obtain ⟨i, hi, rfl⟩ := List.mem_iff_getElem.1 hw'
    have hi' : i < c.queue.length := hqueue.length_eq ▸ hi
    exact ⟨_, List.getElem_mem hi', hqueue.get hi' hi⟩
  · rw [hlog] at he
    exact (List.mem_append.1 he).imp_right (hnum hown.toStamped e)
  · rw [hlog, rawReplies_append, rawReplies_nil hδ, List.append_nil]
  · obtain ⟨i, hi, rfl⟩ := List.mem_iff_getElem.1 hw
    have hi' : i < c'.queue.length := hqueue.length_eq ▸ hi
    obtain ⟨hticket, hid', -⟩ := hqueue.get hi hi'
    exact ⟨_, List.getElem_mem hi', hticket, hid'.trans hid⟩

theorem sameEntry_refl (queue : List Wrapper) : List.Forall₂ SameEntry queue queue :=
  List.forall₂_same.2 fun _ _ => ⟨rfl, rfl, .refl _⟩

theorem rawStep_same {c c' : Context} (ht : c'.transport = c.transport)
    (hids : SameNumbering c c') (hraw : c'.raw = c.raw) (hqueue : c'.queue = c.queue)
    {δ : List Event} (hlog : c'.log = c.log ++ δ)
    (hδ : ∀ e ∈ δ, e.line = none ∧ e.numbered = none) : RawStep c c' := by
  refine rawStep_keeps ht hids hraw hlog (fun e he => (hδ e he).1) (fun _ e he m hm => ?_)
    (hqueue ▸ sameEntry_refl c.queue)
  rw [(hδ e he).2] at hm
  contradiction

theorem rawStep_quiet {c c' : Context} (ht : c'.transport = c.transport)
    (hids : SameNumbering c c') (hraw : c'.raw = c.raw) (hqueue : c'.queue = c.queue)
    (hlog : c'.log = c.log) : RawStep c c' :=
  rawStep_same ht hids hraw hqueue (hlog.trans (List.append_nil _).symm) (by simp)

theorem RawStep.refl (c : Context) : RawStep c c := rawStep_quiet rfl ⟨rfl, rfl⟩ rfl rfl rfl

/-- The message is that of a request in the queue. -/
def InQueue (c : Context) (m : Msg) : Prop :=
  ∃ w ∈ c.queue, m.reqId = w.msg.reqId ∧ m.serial = w.msg.serial

theorem InQueue.numbered {c : Context} {m : Msg} (h : InQueue c m) (hc : Stamped c) :
    m.Numbered c.serialNext := by
  obtain ⟨w, hw, hid, hserial⟩ := h
  unfold Msg.Numbered
  rw [hid, hserial]
  exact hc.queue w hw

theorem InQueue.of_queue {c c' : Context} {m : Msg} (h : InQueue c m) (hqueue : c'.queue = c.queue) :
    InQueue c' m := by
  unfold InQueue
  rw [hqueue]
  exact h

theorem rawStep_told {c c' : Context} {m : Msg} (hc' : ∃ report, c' = c.note (.reported m report) ∧
    (Event.reported m report).line = none) (hm : InQueue c m) : RawStep c c' := by
  obtain ⟨report, rfl, hline⟩ := hc'
  refine rawStep_keeps rfl ⟨rfl, rfl⟩ rfl rfl (by simpa using hline) (fun hc e he m' hm' => ?_)
    (sameEntry_refl c.queue)
  rw [List.mem_singleton.1 he] at hm'
  exact Option.some.inj hm' ▸ hm.numbered hc

/-- A request that enters the queue takes a number that no other one there has. -/
theorem RawOwn.post {c : Context} (h : RawOwn c) (m : Msg) (flags : Flags)
    (hfew : (postInternal c m flags).serialNext < 2 ^ 32) :
    RawOwn (postInternal c m flags) := by
  have hroom : c.reqIdNext.toNat + 1 < 2 ^ 32 := by
    rw [h.next]
    exact hfew
  have hid : (postInternal c m flags).reqIdNext.toNat = c.serialNext + 1 := by
    rw [← h.next]
    exact nextReqId_toNat hroom
  obtain ⟨entered, hentered, hlog, hreqId, hserial⟩ : ∃ entered : Msg,
      (postInternal c m flags).queue = enqueue c.queue ⟨flags, 0, entered⟩ ∧
        (postInternal c m flags).log = c.log ++ [.posted flags entered] ∧
          entered.reqId = (postInternal c m flags).reqIdNext ∧ entered.serial = c.serialNext :=
    ⟨_, rfl, rfl, preparedMsg_reqId .., preparedMsg_serial ..⟩
  have hnumbered : entered.Numbered (postInternal c m flags).serialNext := by
    refine ⟨?_, ?_⟩
    · rw [hreqId, hid, hserial]
    · rw [hserial]
      exact Nat.lt_succ_self _
  have hlater : ∀ m' : Msg, m'.Numbered c.serialNext →
      m'.Numbered (postInternal c m flags).serialNext := fun m' hm =>
    ⟨hm.1, hm.2.trans (Nat.lt_succ_self _)⟩
  refine ⟨⟨hid, fun w hw => ?_, fun e he m' hm' => ?_⟩, fun slot hslot => ?_⟩
  · rw [hentered, mem_enqueue] at hw
    rcases hw with hw | rfl
    · exact hlater _ (h.queue w hw)
    · exact hnumbered
  · rw [hlog] at he
    rcases List.mem_append.1 he with he | he
    · exact hlater _ (h.log e he m' hm')
    · rw [List.mem_singleton.1 he] at hm'
      exact Option.some.inj hm' ▸ hnumbered
  · obtain ⟨hnumber, w₀, hframe, hmine⟩ := h.slot slot hslot
    refine ⟨hnumber.trans (Nat.le_succ _), w₀, hframe, fun w hw hslotid => ?_⟩
    rw [hentered, mem_enqueue] at hw
    rcases hw with hw | rfl
    · exact hmine w hw hslotid
    · rw [← hslotid, hreqId, hid] at hnumber
      exact absurd hnumber (Nat.not_succ_le_self _)

theorem postInternal_rawStep (c : Context) (m : Msg) (flags : Flags) :
    RawStep c (postInternal c m flags) := by
  have hlog : ∃ entered, (postInternal c m flags).log = c.log ++ [.posted flags entered] := ⟨_, rfl⟩
  obtain ⟨entered, hlog⟩ := hlog
  refine ⟨rfl, Nat.le_succ _, hlog ▸ List.prefix_append _ _, fun hfew hown => hown.post m flags hfew,
    fun m' line hmem => .inl (rawStep_raws hlog (by simp [Event.line]) m' line hmem),
    .inl ⟨rfl, ?_, fun slot _ w hw _ hid => ⟨w, mem_enqueue.2 (.inl hw), rfl, hid⟩⟩⟩
  rw [hlog, rawReplies_append]
  exact List.append_nil _

theorem gatePost_rawStep (c : Context) (timer : Timer) (now : Millitime) (i : ℕ) :
    RawStep c (gatePost c timer now i) := by
  have hgate : RawStep c (slaveGate c timer now).2 := by
    unfold slaveGate
    split_ifs <;> exact rawStep_quiet rfl ⟨rfl, rfl⟩ rfl rfl rfl
  have hpost : ∀ c' : Context, RawStep c' (postTimer c' i) := by
    intro c'
    unfold postTimer
    split
    · exact .refl c'
    · exact (postInternal_rawStep c' _ _).trans
        (rawStep_quiet rfl ⟨rfl, rfl⟩ rfl rfl rfl)
  unfold gatePost
  split_ifs
  · exact hgate.trans (hpost _)
  · exact hgate

theorem ScheduleSteps.rawStep {env : Env} {c c' : Context} (h : ScheduleSteps env c c') :
    RawStep c c' := by
  induction h with
  | refl => exact .refl c
  | tail _ hstep ih =>
    refine ih.trans ?_
    cases hstep with
    | books => exact rawStep_quiet rfl ⟨rfl, rfl⟩ rfl rfl rfl
    | due =>
      exact (gatePost_rawStep ..).trans
        (rawStep_quiet rfl ⟨rfl, rfl⟩ rfl rfl rfl)
    | turn => exact gatePost_rawStep ..

theorem slaveUpdate_rawStep (c : Context) (timerId : ℕ) (answered : Bool) (env : Env) :
    RawStep c (slaveUpdate c timerId answered env) := by
  unfold slaveUpdate
  dsimp only
  split
  · exact .refl c
  · split_ifs <;> exact rawStep_quiet rfl ⟨rfl, rfl⟩ rfl rfl rfl

theorem rawReply_rawStep {c : Context} {slot : RawSlot} {m : Msg} {result : String}
    (hslot : c.raw = some slot) (hid : m.reqId = slot.reqId) (hm : InQueue c m)
    (hanswer : RawOwn c →
      RawAnswer c.transport slot.text (.reported m (.raw (slot.text ++ " -> " ++ result)))) :
    RawStep c (rawReply c slot m result) := by
  have hlog : (rawReply c slot m result).log =
      c.log ++ [.reported m (.raw (slot.text ++ " -> " ++ result))] := rfl
  refine ⟨rfl, le_rfl, hlog ▸ List.prefix_append _ _, fun _ hown => hown.congr rfl ⟨rfl, rfl⟩
      (fun _ hmem => absurd hmem (Option.not_mem_none _)) (fun w hw => ⟨w, hw, rfl, rfl, .refl _⟩)
      fun e he => ?_,
    fun m' line' hmem => ?_, .inr ⟨slot, _, hslot, rfl, rawReplies_append .., fun _ => hanswer⟩⟩
  · rw [hlog] at he
    refine (List.mem_append.1 he).imp_right fun hnew m' hm' => ?_
    rw [List.mem_singleton.1 hnew] at hm'
    exact Option.some.inj hm' ▸ hm.numbered hown.toStamped
  · rw [hlog] at hmem
    refine (List.mem_append.1 hmem).imp_right fun hnew => ⟨slot, hslot, ?_⟩
    obtain ⟨rfl, -⟩ := Event.reported.inj (List.mem_singleton.1 hnew)
    exact hid

theorem rawPending_slot {c : Context} {m : Msg} {slot : RawSlot} (h : rawPending c m = some slot) :
    c.raw = some slot := by
  unfold rawPending at h
  exact (Option.filter_eq_some_iff.1 h).1

theorem rawPending_reqId {c : Context} {m : Msg} {slot : RawSlot}
    (h : rawPending c m = some slot) : m.reqId = slot.reqId := by
  unfold rawPending at h
  exact of_decide_eq_true (Option.filter_eq_some_iff.1 h).2

theorem reportError_rawStep {c : Context} {m : Msg} (hm : InQueue c m) (error : ℤ) (env : Env) :
    RawStep c (reportError c m error env) ∧
      (rawPending c m = none → (reportError c m error env).raw = c.raw) ∧
      ((rawPending c m).isSome → (reportError c m error env).raw = none) := by
  unfold reportError
  cases hpending : rawPending c m with
  | some slot =>
    refine ⟨?_, by simp, fun _ => rfl⟩
    have hfailed : ∃ detail, rawError c slot m error = rawReply c slot m ("error " ++ detail) := by
      unfold rawError
      dsimp only
      split_ifs
      · refine ⟨"exception " ++ toString (frameExceptionCode c.transport m.reader) ++ " " ++
          exceptionString (frameExceptionCode c.transport m.reader), ?_⟩
        simp only [String.append_assoc]
        rfl
      · exact ⟨_, rfl⟩
    obtain ⟨detail, hreply⟩ := hfailed
    dsimp only
    rw [hreply]
    exact rawReply_rawStep (rawPending_slot hpending) (rawPending_reqId hpending) hm
      fun _ => .failed m detail
  | none =>
    dsimp only
    have hupdate : RawStep c (if 0 < m.msgId ∧ (error = errTimeout ∨ error = errException) then
        slaveUpdate c m.msgId (error = errException) env else c) ∧
        (if 0 < m.msgId ∧ (error = errTimeout ∨ error = errException) then
          slaveUpdate c m.msgId (error = errException) env else c).raw = c.raw ∧
        (if 0 < m.msgId ∧ (error = errTimeout ∨ error = errException) then
          slaveUpdate c m.msgId (error = errException) env else c).queue = c.queue := by
      split_ifs
      · exact ⟨slaveUpdate_rawStep .., (slaveUpdate_settings ..).2.2.2, (slaveUpdate_settings ..).2.1⟩
      · exact ⟨.refl c, rfl, rfl⟩
    generalize (if 0 < m.msgId ∧ (error = errTimeout ∨ error = errException) then
      slaveUpdate c m.msgId (error = errException) env else c) = c₁ at hupdate ⊢
    refine ⟨?_, fun _ => ?_, by simp⟩
    · split_ifs
      · exact hupdate.1.trans (rawStep_told ⟨_, rfl, rfl⟩ (hm.of_queue hupdate.2.2))
      · exact hupdate.1
    · split_ifs <;> exact hupdate.2.1

/-- The head leaves once it has been told about: if it held the slot, the slot is clear. -/
theorem rawStep_leave {c c₁ : Context} {wrapper : Wrapper} {rest : List Wrapper} {m : Msg} {error : ℤ}
    (hq : c.queue = wrapper :: rest) (hq₁ : c₁.queue = wrapper :: rest) (hstep : RawStep c c₁)
    (hheld : ∀ slot ∈ c₁.raw, wrapper.flags = .post → wrapper.msg.reqId ≠ slot.reqId) :
    RawStep c (dropHead c₁ m error) := by
  have hreplies : rawReplies (dropHead c₁ m error).log = rawReplies c₁.log := by
    change rawReplies (c₁.log ++ [_]) = _
    rw [rawReplies_append]
    exact List.append_nil _
  have hrest : (dropHead c₁ m error).queue = rest := by
    change c₁.queue.tail = rest
    rw [hq₁]
    rfl
  have hbehind : ∀ w ∈ rest, w ∈ c₁.queue := fun w hw => hq₁ ▸ List.mem_cons_of_mem _ hw
  have hlog : (dropHead c₁ m error).log = c₁.log ++ [.released m error] := rfl
  refine ⟨hstep.transport, hstep.serial, hstep.log.trans (hlog ▸ List.prefix_append _ _),
    fun hfew hown => (hstep.own hfew hown).congr rfl ⟨rfl, rfl⟩ (fun _ => id)
      (fun w hw => ⟨w, hbehind w (hrest ▸ hw), rfl, rfl, .refl _⟩) fun e he => ?_,
    fun m' line hmem => hstep.raws m' line (rawStep_raws hlog (by simp [Event.line]) m' line hmem), ?_⟩
  · rw [hlog] at he
    refine (List.mem_append.1 he).imp_right fun hnew m' hm' => ?_
    rw [List.mem_singleton.1 hnew] at hm'
    contradiction
  rcases hstep.slot with ⟨hraw, hsame, -⟩ | ⟨slot, e, hslot, hnone, hreply, hanswer⟩
  · refine .inl ⟨hraw, hreplies.trans hsame, fun slot hs w hw hpost hid => ?_⟩
    rw [hq] at hw
    rcases List.mem_cons.1 hw with rfl | hw
    · exact absurd hid (hheld slot (hraw ▸ hs) hpost)
    · exact ⟨w, hrest ▸ hw, rfl, hid⟩
  · exact .inr ⟨slot, e, hslot, hnone, hreplies.trans hreply, hanswer⟩

theorem SameMsg.inQueue {c : Context} {wrapper : Wrapper} {rest : List Wrapper} {m : Msg}
    (h : SameMsg wrapper.msg m) (hq : c.queue = wrapper :: rest) : InQueue c m :=
  ⟨wrapper, by rw [hq]; exact List.mem_cons_self, h.reqId, h.serial⟩

theorem failed_rawStep {c : Context} {wrapper : Wrapper} {rest : List Wrapper} {m : Msg}
    (hq : c.queue = wrapper :: rest) (hm : SameMsg wrapper.msg m) (error : ℤ) (env : Env) :
    RawStep c (dropHead (reportError c m error env) m error) := by
  obtain ⟨hstep, hkept, hclear⟩ := reportError_rawStep (hm.inQueue hq) error env
  have hqueue := (reportError_telling c .post m error env).queue.trans hq
  refine rawStep_leave hq hqueue hstep fun slot hslot _ => ?_
  cases hpending : rawPending c m with
  | some held =>
    rw [hclear (by rw [hpending]; rfl)] at hslot
    exact absurd hslot (Option.not_mem_none _)
  | none =>
    rw [hkept hpending] at hslot
    exact hm.reqId ▸ Reentrant.rawPending_none hpending hslot

theorem answered_rawStep {c : Context} {wrapper : Wrapper} {rest : List Wrapper} {m : Msg}
    (hq : c.queue = wrapper :: rest) (hm : SameMsg wrapper.msg m)
    (hwriter : m.writer = wrapper.msg.writer) {r : Frame .reader}
    (hcheck : check c.transport m.writer r = (0, m.reader)) (env : Env) :
    RawStep c (dropHead (reportAnswer c wrapper.flags m env) m 0) := by
  have hqueue := (reportAnswer_telling c wrapper.flags m env).queue.trans hq
  cases hflags : wrapper.flags with
  | post =>
    rw [hflags] at hqueue
    cases hpending : rawPending c m with
    | some slot =>
      have hreply : reportAnswer c .post m env =
          rawReply c slot m (rawResult c.transport slot.fc slot.count m.reader) := by
        unfold reportAnswer
        dsimp only
        rw [hpending]
        rfl
      have hanswer : RawOwn c → RawAnswer c.transport slot.text (.reported m (.raw
          (slot.text ++ " -> " ++ rawResult c.transport slot.fc slot.count m.reader))) := by
        intro hown
        obtain ⟨-, w₀, hframe, hmine⟩ := hown.slot slot (rawPending_slot hpending)
        have hsent := hmine wrapper (by rw [hq]; exact List.mem_cons_self)
          (hm.reqId.symm.trans (rawPending_reqId hpending))
        have hagain := check_again c.transport m.writer r
        rw [hcheck] at hagain
        exact .done ⟨m, slot.fc, slot.count, w₀, hframe, hwriter ▸ hsent, hagain, rfl⟩
      have hstep := rawReply_rawStep (rawPending_slot hpending) (rawPending_reqId hpending)
        (hm.inQueue hq) hanswer
      rw [hreply] at hqueue ⊢
      exact rawStep_leave hq hqueue hstep fun held hheld => absurd hheld (Option.not_mem_none _)
    | none =>
      have hstep : RawStep c (reportAnswer c .post m env) ∧
          (reportAnswer c .post m env).raw = c.raw := by
        unfold reportAnswer
        dsimp only
        rw [hpending]
        dsimp only
        split_ifs
        · exact ⟨rawStep_told ⟨_, rfl, rfl⟩ (hm.inQueue hq), rfl⟩
        · exact ⟨.refl c, rfl⟩
      refine rawStep_leave hq hqueue hstep.1 fun slot hslot _ => ?_
      rw [hstep.2] at hslot
      exact hm.reqId ▸ Reentrant.rawPending_none hpending hslot
  | subscribe =>
    rw [hflags] at hqueue
    refine rawStep_leave hq hqueue ?_ fun _ _ hpost => by
      rw [hflags] at hpost
      contradiction
    unfold reportAnswer
    dsimp only
    split_ifs
    · have hupdate : RawStep c (slaveUpdate c m.msgId true env) := slaveUpdate_rawStep ..
      have hdone : RawStep (slaveUpdate c m.msgId true env)
          (onceDone (slaveUpdate c m.msgId true env) m.msgId) := by
        unfold onceDone
        split
        · exact .refl _
        · exact rawStep_quiet rfl ⟨rfl, rfl⟩ rfl rfl rfl
      refine (hupdate.trans hdone).trans (rawStep_same rfl ⟨rfl, rfl⟩ rfl rfl rfl fun e he => ?_)
      obtain ⟨input, -, rfl⟩ := List.mem_map.1 he
      exact ⟨rfl, rfl⟩
    · exact .refl c

theorem finish_msg (rc : ℤ) (c : Context) (m : Msg) : (finish rc c m).msg = m := by
  unfold finish
  split_ifs <;> rfl

theorem writeHalf_sameFrame (c : Context) (m : Msg) (env : Env) :
    SameFrame m.writer (writeHalf c m env).msg.writer := by
  have hwrite : SameFrame m.writer (writeFrame (beforeWrite c m env) m env).msg.writer := by
    unfold writeFrame
    split_ifs <;> rfl
  unfold writeHalf
  dsimp only
  split_ifs
  · rfl
  · exact hwrite
  · exact hwrite
  · rw [finish_msg]
    exact hwrite
  · rw [finish_msg]
    exact hwrite

theorem readHalf_writer (c : Context) (m : Msg) (env : Env) :
    (readHalf c m env).msg.writer = m.writer := by
  unfold readHalf headerMismatch
  dsimp only
  split_ifs
  all_goals first | rfl | rw [finish_msg]

theorem handleWriteRead_sameFrame (c : Context) (m : Msg) (revents : Revents) (env : Env) :
    SameFrame m.writer (handleWriteRead c m revents env).msg.writer := by
  unfold handleWriteRead
  split_ifs
  · exact writeHalf_sameFrame c m env
  · rw [finish_msg]
    rfl
  · rw [readHalf_writer]
    rfl
  · rw [finish_msg]
    rfl
  · rfl

theorem served_rawStep {c : Context} {wrapper : Wrapper} {rest : List Wrapper}
    (hq : c.queue = wrapper :: rest) {s : WriteRead} (h : Moved c wrapper.msg s)
    (hframe : SameFrame wrapper.msg.writer s.msg.writer) :
    RawStep c { s.ctx with queue := { wrapper with msg := s.msg } :: rest } := by
  obtain ⟨_, _, _, _, _, _, _, δ, hδ, hctx⟩ := h.ctx
  refine rawStep_keeps (by rw [hctx]) (by rw [hctx]; exact ⟨rfl, rfl⟩) (by rw [hctx])
    (congrArg Context.log hctx) (fun e he => ?_) (fun _ e he m hm => ?_) ?_
  · have hio := hδ e he
    cases e <;> first | rfl | exact absurd hio id
  · have hio := hδ e he
    cases e <;> first | exact absurd hm (Option.not_mem_none _) | exact absurd hio id
  · rw [hq]
    exact .cons ⟨Prod.ext rfl h.msg.serial, h.msg.reqId, hframe⟩ (sameEntry_refl rest)

theorem handleMsg_rawStep {c : Context} {wrapper : Wrapper} {rest : List Wrapper}
    (hq : c.queue = wrapper :: rest) (env : Env) : RawStep c (handleMsg c wrapper env).2 := by
  rcases handleMsg_cases c wrapper env with ⟨rc, reader, -, -, hresult⟩ | ⟨reader, hcheck, hresult⟩
  · rw [hresult]
    have hresynced : RawStep c (resynced c env) := rawStep_same rfl ⟨rfl, rfl⟩ rfl rfl rfl (by simp [Event.line, Event.numbered])
    have hqueue : (resynced c env).queue = wrapper :: rest := hq
    have hsame : SameMsg wrapper.msg { wrapper.msg with reader := reader } := ⟨rfl, rfl, rfl⟩
    exact hresynced.trans (failed_rawStep hqueue hsame _ env)
  · rw [hresult]
    have hsame : SameMsg wrapper.msg { wrapper.msg with reader := reader } := ⟨rfl, rfl, rfl⟩
    exact answered_rawStep hq hsame rfl hcheck env

theorem loopWriteRead_rawStep (c : Context) (revents : Revents) (env : Env) :
    RawStep c (loopWriteRead c revents env).2 := by
  unfold loopWriteRead
  split
  · split_ifs
    · exact rawStep_quiet rfl ⟨rfl, rfl⟩ rfl rfl rfl
    · exact .refl c
  · rename_i wrapper rest hq
    have hmoved := handleWriteRead_moved c wrapper.msg revents env
    have hserved := served_rawStep hq hmoved (handleWriteRead_sameFrame c wrapper.msg revents env)
    generalize handleWriteRead c wrapper.msg revents env = s at hserved
    have hfailed : ∀ {c₁ : Context} {head : Wrapper}, c₁.queue = head :: rest →
        head.msg = s.msg → ∀ error, RawStep c₁ (dropHead (reportError c₁ s.msg error env) s.msg error) :=
      fun hqueue hmsg error => failed_rawStep hqueue (by rw [hmsg]; exact .refl _) error env
    have hcounted : RawStep c
        { s.ctx with queue := { wrapper with msg := s.msg } :: rest, err := s.ctx.err + 1 } :=
      hserved.trans (rawStep_quiet rfl ⟨rfl, rfl⟩ rfl rfl rfl)
    dsimp only
    split_ifs
    · have hdone : RawStep c { s.ctx with
          queue := { wrapper with msg := s.msg } :: rest, tx := s.ctx.tx + 1, rx := s.ctx.rx + 1 } :=
        hserved.trans (rawStep_quiet rfl ⟨rfl, rfl⟩ rfl rfl rfl)
      exact hdone.trans (handleMsg_rawStep rfl env)
    · exact hcounted.trans (hfailed rfl rfl _)
    · exact hserved.trans (hfailed rfl rfl _)
    · exact hcounted.trans (hfailed rfl rfl _)
    · exact hserved

theorem stamped_rawStep {c : Context} {wrapper : Wrapper} {rest : List Wrapper}
    (hq : c.queue = wrapper :: rest) (now : Millitime) :
    RawStep c { c with queue := stampHead wrapper now :: rest } := by
  refine rawStep_keeps rfl ⟨rfl, rfl⟩ rfl (List.append_nil _).symm (by simp) (by simp) ?_
  rw [hq]
  refine .cons ⟨Prod.ext (stampHead_flags ..) (congrArg Msg.serial (stampHead_msg ..)),
    congrArg Msg.reqId (stampHead_msg ..), ?_⟩ (sameEntry_refl rest)
  rw [stampHead_msg]
  rfl

theorem timedOut_rawStep {c : Context} {wrapper : Wrapper} {rest : List Wrapper}
    (hq : c.queue = wrapper :: rest) (env : Env) : RawStep c (timedOut c wrapper rest env) := by
  have hstamped := stamped_rawStep hq (env.clock .head)
  have hsame : SameMsg (stampHead wrapper (env.clock .head)).msg wrapper.msg := by
    rw [stampHead_msg]
    exact .refl _
  have hcount : ∀ c : Context, RawStep c (countTimeout c wrapper.msg.writer (env.clock .head)) := by
    intro c
    unfold countTimeout
    split_ifs <;> exact rawStep_quiet rfl ⟨rfl, rfl⟩ rfl rfl rfl
  have hflushed : ∀ c : Context, RawStep c { flush c env with resyncPending := true } := fun c =>
    rawStep_same rfl ⟨rfl, rfl⟩ rfl rfl rfl (by simp [Event.line, Event.numbered])
  exact ((hstamped.trans (failed_rawStep rfl hsame errTimeout env)).trans (hcount _)).trans (hflushed _)

theorem loopPrepare_rawStep (c : Context) (sleepTime : Millitime) (env : Env) :
    RawStep c (loopPrepare c sleepTime env).ctx := by
  unfold loopPrepare
  split_ifs
  · rw [prepareEvents_ctx]
    refine RawStep.trans ?_ (ScheduleSteps.rawStep (loopPrepareSubscription_schedule ..))
    cases hq : c.queue with
    | nil =>
      have hsame : timeOutHead c env = c := by
        unfold timeOutHead
        rw [hq]
      rw [hsame]
      exact .refl c
    | cons wrapper rest =>
      rw [timeOutHead_cons hq]
      split_ifs
      · exact timedOut_rawStep hq env
      · exact stamped_rawStep hq _
  · exact .refl c

theorem dropAll_rawStep (env : Env) (queue : List Wrapper) {c : Context} (hq : c.queue = queue) :
    RawStep c (dropAll env queue c) := by
  induction queue generalizing c with
  | nil => exact .refl c
  | cons wrapper rest ih =>
    have hsame : c = { c with queue := wrapper :: rest } := by rw [← hq]
    have hdrop : RawStep c (dropHead (reportError { c with queue := wrapper :: rest } wrapper.msg
        errTransport env) wrapper.msg errTransport) := by
      rw [← hsame]
      exact failed_rawStep hq (.refl _) errTransport env
    refine hdrop.trans (ih ?_)
    change (reportError _ _ _ _).queue.tail = rest
    rw [(reportError_telling _ .post _ _ env).queue]
    rfl

theorem Call.rawStep (c : Context) (env : Env) (call : Call)
    (h : ∀ text stray, call ≠ .raw text stray) : RawStep c (call.perform c env) := by
  cases call with
  | post slaveId request =>
    change RawStep c (postRequest c slaveId request)
    unfold postRequest
    split
    · exact (rawStep_quiet rfl ⟨rfl, rfl⟩ rfl rfl rfl : RawStep c (setSlave c slaveId)).trans (postInternal_rawStep ..)
    · exact rawStep_quiet rfl ⟨rfl, rfl⟩ rfl rfl rfl
  | raw text stray => exact absurd rfl (h text stray)
  | subscribe slaveId request interval =>
    change RawStep c (subscribeRequest c slaveId request interval env)
    rcases subscribeRequest_cases c slaveId request interval env with
      hsub | ⟨mode, writer, timer, -, -, -, -, hadded⟩
    · rw [hsub]
      exact rawStep_quiet rfl ⟨rfl, rfl⟩ rfl rfl rfl
    · rw [hadded]
      exact rawStep_quiet rfl ⟨rfl, rfl⟩ rfl rfl rfl
  | prepare sleepTime => exact loopPrepare_rawStep c sleepTime env
  | writeRead revents => exact loopWriteRead_rawStep c revents env
  | reset =>
    exact (dropAll_rawStep env c.queue rfl).trans
      (rawStep_quiet rfl ⟨rfl, rfl⟩ rfl rfl rfl)
  | rearm => exact rawStep_quiet rfl ⟨rfl, rfl⟩ rfl rfl rfl
  | focus slave =>
    change RawStep c (setFocus c slave).2
    unfold setFocus
    split
    · exact .refl c
    · split_ifs <;> first | exact .refl c | exact rawStep_quiet rfl ⟨rfl, rfl⟩ rfl rfl rfl
  | connect opened =>
    change RawStep c (Modbusmq.connect c opened).2
    unfold Modbusmq.connect
    split_ifs
    · exact rawStep_same rfl ⟨rfl, rfl⟩ rfl rfl rfl (by simp [Event.line, Event.numbered])
    · exact .refl c
  | close => exact rawStep_quiet rfl ⟨rfl, rfl⟩ rfl rfl rfl
  | configure config processConfig frameTimeoutMs => exact rawStep_quiet rfl ⟨rfl, rfl⟩ rfl rfl rfl
  | arrive bytes => exact rawStep_quiet rfl ⟨rfl, rfl⟩ rfl rfl rfl

/-- A raw request is refused at once, or takes the slot, which was free, and the frame it stands
for enters the queue. -/
theorem rawRequest_cases (c : Context) (text : String) (stray : ℕ → UInt8) :
    (∃ reason, (rawRequest c text stray).2 =
      c.note (.refused (String.ofList (rawEcho text) ++ " -> error refused " ++ reason))) ∨
    c.raw = none ∧ ∃ writer slot, slot.text = String.ofList (rawEcho text) ∧
      slot.reqId = (post c writer).reqIdNext ∧
        (∀ m, m.writer = writer → ∀ transactionId, RawFrame c.transport slot.text slot.fc slot.count
          (preparedMsg c.transport transactionId m).writer) ∧
          (rawRequest c text stray).2 = { post c writer with raw := some slot } := by
  cases hprepare : rawPrepare c (rawEcho text) stray with
  | error reason =>
    have hrefused : rawRequest c text stray =
        (-1, rawRefuse c (String.ofList (rawEcho text)) reason) := by
      unfold rawEcho at hprepare ⊢
      unfold rawRequest
      dsimp only
      rw [hprepare]
    exact .inl ⟨reason, by rw [hrefused]; rfl⟩
  | ok prepared =>
    obtain ⟨writer, count, fc⟩ := prepared
    have hrequest := rawRequest_ok hprepare
    unfold rawPrepare at hprepare
    dsimp only at hprepare
    split_ifs at hprepare with hbusy
    split at hprepare
    · contradiction
    · rename_i f hparse
      split at hprepare
      · contradiction
      · rename_i request count' hbuilt
        split at hprepare
        · contradiction
        · rename_i writer' hframe
          cases hprepare
          refine .inr ⟨Option.not_isSome_iff_eq_none.1 hbusy, writer, _, rfl, rfl,
            fun m hm transactionId => ?_, by rw [hrequest]⟩
          refine ⟨_, stray, f, request, m, transactionId, ?_, hbuilt, hm ▸ hframe, rfl, rfl⟩
          rw [String.toList_ofList]
          exact hparse

theorem Call.serial_le (c : Context) (env : Env) (call : Call) :
    c.serialNext ≤ (call.perform c env).serialNext := by
  cases call with
  | raw text stray =>
    change _ ≤ (rawRequest c text stray).2.serialNext
    rcases rawRequest_cases c text stray with ⟨reason, hrefused⟩ | ⟨-, writer, slot, -, -, -, hposted⟩
    · rw [hrefused]
      exact le_rfl
    · rw [hposted]
      exact Nat.le_succ _
  | _ => exact (Call.rawStep _ _ _ fun _ _ h => by contradiction).serial

theorem run_serial_le (calls : List (Call × Env)) (c : Context) :
    c.serialNext ≤ (run calls c).serialNext := by
  induction calls generalizing c with
  | nil => exact le_rfl
  | cons made calls ih => exact (Call.serial_le c made.2 made.1).trans (ih _)

theorem Call.rawOwn {c : Context} (h : RawOwn c) (env : Env) (call : Call)
    (hfew : (call.perform c env).serialNext < 2 ^ 32) : RawOwn (call.perform c env) := by
  cases call with
  | raw text stray =>
    change (rawRequest c text stray).2.serialNext < 2 ^ 32 at hfew
    change RawOwn (rawRequest c text stray).2
    rcases rawRequest_cases c text stray with ⟨reason, hrefused⟩ |
      ⟨-, writer, slot, -, hid, hframe, hposted⟩
    · rw [hrefused]
      refine h.congr rfl ⟨rfl, rfl⟩ (fun _ => id) (fun w hw => ⟨w, hw, rfl, rfl, .refl _⟩)
        fun e he => (List.mem_append.1 he).imp_right fun hnew m hm => ?_
      rw [List.mem_singleton.1 hnew] at hm
      contradiction
    · rw [hposted] at hfew ⊢
      have hown : RawOwn (Modbusmq.post c writer) := h.post _ _ hfew
      have hnumber : slot.reqId.toNat = c.serialNext + 1 := by
        rw [hid]
        exact hown.next
      refine ⟨⟨hown.next, hown.queue, hown.log⟩, fun s hs => ?_⟩
      obtain rfl : slot = s := Option.some.inj hs
      refine ⟨hnumber.le, _, hframe { Msg.ofFrame 0 writer with
        reqId := nextReqId c.reqIdNext, serial := c.serialNext } rfl
          (nextTransaction c.transport c.transactionId), fun w hw hmine => ?_⟩
      rcases mem_enqueue.1 hw with hw | rfl
      · obtain ⟨hold, hlt⟩ := h.queue w hw
        rw [hmine, hnumber] at hold
        omega
      · exact .refl _
  | _ => exact (Call.rawStep _ _ _ fun _ _ h => by contradiction).own hfew h

theorem run_rawOwn {c : Context} (h : RawOwn c) (calls : List (Call × Env))
    (hfew : (run calls c).serialNext < 2 ^ 32) : RawOwn (run calls c) := by
  induction calls generalizing c with
  | nil => exact h
  | cons made calls ih =>
    have hfirst : (made.1.perform c made.2).serialNext < 2 ^ 32 :=
      (run_serial_le calls _).trans_lt hfew
    exact ih (Call.rawOwn h made.2 made.1 hfirst) hfew

end Modbusmq
