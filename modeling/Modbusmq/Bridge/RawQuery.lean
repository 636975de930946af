import Mathlib.Data.List.TakeWhile
import Mathlib.Tactic.IntervalCases
import Modbusmq.Bridge.Acknowledged
import Modbusmq.Server.OwnTopics

/-!
# The query tool over the broker

`modbusmq_query --raw` asks a running bridge for one raw request and prints the reply. All tools
ask on one topic and hear every reply, and know their own by the tag the request starts with.
-/

namespace Modbusmq

open Json

/-- What `query_mqtt` publishes, and the tag it knows the reply by. -/
structure RawQuery where
  tag : List Char
  request : List Char
  deriving DecidableEq

/-- The request of `query_mqtt` and its tag, in buffers of 1024 and 32 bytes. -/
def queryMqtt (raw : List Char) (pid : ℕ) : RawQuery :=
  if raw.head? = some '@' then ⟨(raw.takeWhile (· ≠ ' ')).take 31, raw.take 1023⟩
  else
    let tag := ("@q".toList ++ decimal pid).take 31
    ⟨tag, (tag ++ ' ' :: raw).take 1023⟩

def queryTopic (topicPrefix : List UInt8) : List UInt8 :=
  (topicPrefix ++ ascii "request/raw".toList).take 255

/-- The topic `query_mqtt` subscribes to, in a buffer of 272 bytes. -/
def queryReplyTopic (topicPrefix : List UInt8) : List UInt8 :=
  (queryTopic topicPrefix ++ ascii "/reply".toList).take 271

namespace RawQuery

/-- `raw_message_callback` takes the message for the reply. -/
def Accepts (q : RawQuery) (payload : List Char) : Prop :=
  q.tag.length < payload.length ∧ payload.length < 1024 ∧ q.tag <+: payload ∧
    payload[q.tag.length]? = some ' '

instance (q : RawQuery) (payload : List Char) : Decidable (q.Accepts payload) := by
  unfold Accepts
  infer_instance

def exit (reply : List Char) : ℤ := if " -> error".toList <:+: reply then -1 else 0

def text (q : RawQuery) : String := String.ofList (rawEcho (String.ofList q.request))

/-- A text of which the tag is the first word. -/
def Tags (q : RawQuery) (text : List Char) : Prop := text = q.tag ∨ q.tag ++ [' '] <+: text

/-- The messages `query_mqtt` takes for its reply, of the published ones that reach it before its
deadline. -/
def heard (q : RawQuery) (topicPrefix : List UInt8) (handed : List String) : List String :=
  if queryReplyTopic topicPrefix = rawTopic topicPrefix (ascii "/reply".toList) then
    handed.filter fun reply => q.Accepts reply.toList
  else []

end RawQuery

/-- A tag the request brings along is one word that fits the buffer. -/
def TagFits (raw : List Char) : Prop :=
  raw.head? = some '@' → (raw.takeWhile (· ≠ ' ')).length ≤ 31 ∧
    ∀ ch ∈ raw.takeWhile (· ≠ ' '), isRawSpace ch = false

/-- The line of a reply in the log that answers the text. -/
def AnswerLine (t : Transport) (log : List Event) (text line : String) (e : Event) : Prop :=
  e ∈ log ∧ e.line = some line ∧ RawAnswer t text e

/-- What the tool makes of the replies of a bridge that was asked for these texts and has this
log, when these are handed to it before its deadline. -/
structure OwnReplies (raw : List Char) (pid : ℕ) (t : Transport) (topicPrefix : List UInt8)
    (asked : List String) (log : List Event) (handed : List String) : Prop where
  /-- there is one reply for a request, at most -/
  once : ((queryMqtt raw pid).heard topicPrefix handed).length ≤ asked.count (queryMqtt raw pid).text
  /-- it is the tool's own, and the tool ends well if and only if the request was carried out -/
  own : ∀ line ∈ (queryMqtt raw pid).heard topicPrefix handed,
    ∃ e, AnswerLine t log (queryMqtt raw pid).text line e ∧
      (RawQuery.exit line.toList = 0 ↔ RawDone t (queryMqtt raw pid).text e)
  /-- it is not missed if it fits the buffer and the prefix leaves room for the topic -/
  heard : topicPrefix.length ≤ 238 → TagFits raw → ∀ line ∈ handed, line.length < 1024 →
    (∃ e, AnswerLine t log (queryMqtt raw pid).text line e) →
      line ∈ (queryMqtt raw pid).heard topicPrefix handed

example : queryMqtt "1 3 0 2".toList 77 = ⟨"@q77".toList, "@q77 1 3 0 2".toList⟩ := by
  decide +kernel

/-- The text was read up to here, and there was no `>` in it. -/
def ReadPast (s rest : List Char) : Prop := ∃ before, s = before ++ rest ∧ '>' ∉ before

theorem ReadPast.refl (s : List Char) : ReadPast s s := ⟨[], rfl, List.not_mem_nil⟩

theorem ReadPast.trans {s₁ s₂ s₃ : List Char} (h : ReadPast s₁ s₂) (h' : ReadPast s₂ s₃) :
    ReadPast s₁ s₃ := by
  obtain ⟨before, rfl, hbefore⟩ := h
  obtain ⟨before', rfl, hbefore'⟩ := h'
  exact ⟨before ++ before', (List.append_assoc ..).symm, by simp [hbefore, hbefore']⟩

theorem ReadPast.not_mem {s : List Char} (h : ReadPast s []) : '>' ∉ s := by
  obtain ⟨before, rfl, hbefore⟩ := h
  rwa [List.append_nil]

theorem readPast_dropWhile {p : Char → Bool} (hp : p '>' = false) (s : List Char) :
    ReadPast s (s.dropWhile p) := by
  refine ⟨s.takeWhile p, List.takeWhile_append_dropWhile.symm, fun hmem => ?_⟩
  rw [List.mem_takeWhile_imp hmem] at hp
  contradiction

theorem readPast_strtolBase (s : List Char) : ReadPast s (strtolBase s).2 := by
  unfold strtolBase
  split
  · split_ifs with h
    · refine ⟨['0', _], rfl, ?_⟩
      rcases h.1 with rfl | rfl <;> decide
    · exact .refl _
  · exact .refl _
  · exact .refl _

theorem strtolBase_le (s : List Char) : (strtolBase s).1 ≤ 16 := by
  unfold strtolBase
  split
  · split_ifs <;> simp
  · simp
  · simp

theorem readPast_digits {s t : List Char} (h : ReadPast s t) (value : ℤ) :
    ReadPast s (if ((strtolBase t).2.takeWhile fun ch => digitValue ch < (strtolBase t).1).isEmpty
      then (0, s)
      else (value, (strtolBase t).2.drop
        ((strtolBase t).2.takeWhile fun ch => digitValue ch < (strtolBase t).1).length)).2 := by
  split
  · exact .refl s
  · refine h.trans ((readPast_strtolBase t).trans ⟨_, (List.prefix_iff_eq_append.1
      (List.takeWhile_prefix _)).symm, fun hmem => ?_⟩)
    have hdigit : digitValue '>' < (strtolBase t).1 := by simpa using List.mem_takeWhile_imp hmem
    have hmark : digitValue '>' = 36 := by decide
    have hle := strtolBase_le t
    omega

theorem readPast_strtol (s : List Char) : ReadPast s (strtol s).2 := by
  have hspace : ReadPast s (s.dropWhile isSpace) := readPast_dropWhile (by decide) s
  unfold strtol
  dsimp only
  split
  · rename_i t ht
    exact readPast_digits (hspace.trans ⟨['-'], ht, by decide⟩) _
  · rename_i t ht
    exact readPast_digits (hspace.trans ⟨['+'], ht, by decide⟩) _
  · exact readPast_digits hspace _

theorem rawNumber_number {p rest : List Char} {value : ℤ} (h : rawNumber p = .number value rest) :
    ReadPast p rest := by
  unfold rawNumber at h
  dsimp only at h
  split_ifs at h
  obtain ⟨rfl, rfl⟩ : (strtol (p.dropWhile isBlank)).1 = value ∧
      (strtol (p.dropWhile isBlank)).2 = rest := by simpa using h
  exact (readPast_dropWhile (by decide) p).trans (readPast_strtol _)

theorem rawNumber_endOfText {p : List Char} (h : rawNumber p = .endOfText) : ReadPast p [] := by
  unfold rawNumber at h
  dsimp only at h
  split_ifs at h with hempty
  · have hrest := readPast_dropWhile (p := isBlank) (by decide) p
    rwa [List.isEmpty_iff.1 hempty] at hrest

theorem rawValues_ok {room : ℕ} {p : List Char} {values : List UInt16}
    (h : rawValues room p = .ok values) : ReadPast p [] := by
  induction room generalizing p values with
  | zero =>
    unfold rawValues at h
    split at h
    · exact rawNumber_endOfText (by assumption)
    all_goals contradiction
  | succ room ih =>
    unfold rawValues at h
    split at h
    · exact rawNumber_endOfText (by assumption)
    · contradiction
    · rename_i value rest hnumber
      split_ifs at h
      cases hrest : rawValues room rest with
      | error reason =>
        rw [hrest] at h
        contradiction
      | ok more => exact (rawNumber_number hnumber).trans (ih hrest)

theorem rawHeader_some {p rest : List Char} {slave fc addr : ℤ}
    (h : rawHeader p = some (slave, fc, addr, rest)) : ReadPast p rest := by
  unfold rawHeader at h
  split at h
  · rename_i hslave
    split at h
    · rename_i hfc
      split at h
      · rename_i haddr
        simp only [Option.some.injEq, Prod.mk.injEq] at h
        obtain ⟨-, -, -, rfl⟩ := h
        exact (rawNumber_number hslave).trans
          ((rawNumber_number hfc).trans (rawNumber_number haddr))
      · contradiction
    · contradiction
  · contradiction

/-- A request that can be read has no `>` but in its tag, which is one word. -/
theorem rawParse_ok {writes : Bool} {echo : List Char} {f : RawFields}
    (h : rawParse writes echo = .ok f) :
    ∃ word body, echo = word ++ body ∧ ' ' ∉ word ∧ '>' ∉ body := by
  unfold rawParse at h
  dsimp only at h
  split at h
  · contradiction
  · rename_i hheader
    split at h
    · contradiction
    · rename_i hvalues
      have hbody := ((rawHeader_some hheader).trans (rawValues_ok hvalues)).not_mem
      split at hbody
      · refine ⟨echo.takeWhile fun ch => !isBlank ch, _,
          List.takeWhile_append_dropWhile.symm, fun hmem => ?_, hbody⟩
        have hblank := List.mem_takeWhile_imp hmem
        contradiction
      · exact ⟨[], echo, rfl, List.not_mem_nil, hbody⟩

theorem hexDigit_ne {n : ℕ} (h : n < 16) : hexDigit n ≠ '>' ∧ hexDigit n ≠ 'e' := by
  interval_cases n <;> decide

theorem mem_intercalate_blank {words : List (List Char)} {ch : Char}
    (h : ch ∈ [' '].intercalate words) : ch = ' ' ∨ ∃ word ∈ words, ch ∈ word := by
  induction words with
  | nil => exact absurd h List.not_mem_nil
  | cons word words ih =>
    rcases eq_or_ne words [] with rfl | hmore
    · rw [List.intercalate_singleton] at h
      exact .inr ⟨word, List.mem_cons_self, h⟩
    · rw [List.intercalate_cons_of_ne_nil hmore] at h
      rcases List.mem_append.1 h with h | h
      · rcases List.mem_append.1 h with h | h
        · exact .inr ⟨word, List.mem_cons_self, h⟩
        · exact .inl (List.mem_singleton.1 h)
      · exact (ih h).imp_right fun ⟨w, hw, hch⟩ => ⟨w, List.mem_cons_of_mem _ hw, hch⟩

theorem bitText_chars (data : ℕ → UInt8) (count : ℕ) :
    ∀ ch ∈ (List.range count).map fun i =>
      Char.ofNat (48 + ((data (i / 8)).toNat >>> (i % 8) &&& 1)), ch ≠ '>' ∧ ch ≠ 'e' := by
  intro ch hch
  obtain ⟨i, -, rfl⟩ := List.mem_map.1 hch
  rw [Nat.and_one_is_mod]
  rcases Nat.mod_two_eq_zero_or_one ((data (i / 8)).toNat >>> (i % 8)) with h | h <;>
    rw [h] <;> decide

theorem hexWord_chars (n : ℕ) : ∀ ch ∈ (hexWord n).toList, ch ≠ '>' ∧ ch ≠ 'e' := by
  intro ch hch
  unfold hexWord at hch
  rw [String.toList_ofList] at hch
  simp only [List.mem_cons, List.not_mem_nil, or_false] at hch
  rcases hch with rfl | rfl | rfl | rfl | rfl | rfl
  · decide
  · decide
  all_goals exact hexDigit_ne (Nat.mod_lt _ (by decide))

theorem wordText_chars (words : List ℕ) :
    ∀ ch ∈ (String.intercalate " " (words.map hexWord)).toList, ch ≠ '>' ∧ ch ≠ 'e' := by
  intro ch hch
  rw [String.toList_intercalate] at hch
  rcases mem_intercalate_blank hch with rfl | ⟨word, hword, hch⟩
  · decide
  · obtain ⟨_, hmem, rfl⟩ := List.mem_map.1 hword
    obtain ⟨n, -, rfl⟩ := List.mem_map.1 hmem
    exact hexWord_chars n ch hch

theorem rawResult_chars (t : Transport) (fc count : ℕ) (r : Frame .reader) :
    ∀ ch ∈ (rawResult t fc count r).toList, ch ≠ '>' ∧ ch ≠ 'e' := by
  have hwords := wordText_chars ((List.range count).map fun i =>
    be16 (frameData t r (2 * i)) (frameData t r (2 * i + 1)))
  rw [List.map_map] at hwords
  unfold rawResult
  split
  · rw [String.toList_ofList]
    exact bitText_chars (frameData t r) count
  · rw [String.toList_ofList]
    exact bitText_chars (frameData t r) count
  · exact hwords
  · exact hwords
  · intro ch hch
    have hok : "ok".toList = ['o', 'k'] := by decide +kernel
    rw [hok] at hch
    simp only [List.mem_cons, List.not_mem_nil, or_false] at hch
    rcases hch with rfl | rfl <;> decide

/-- In a line of two parts, of which the first has no `>` behind its first word and the second has
neither a `>` nor an `e`, there is no error. -/
theorem no_error_infix {word body result : List Char} (hword : ' ' ∉ word) (hbody : '>' ∉ body)
    (hresult : ∀ ch ∈ result, ch ≠ '>' ∧ ch ≠ 'e') :
    ¬ " -> error".toList <:+: word ++ body ++ " -> ".toList ++ result := by
  rintro ⟨before, after, hline⟩
  have hmark : '>' ∉ body ++ [' ', '-'] := by simp [hbody]
  have hlast : " error".toList ++ after ≠ ' ' :: result := fun h =>
    absurd rfl (hresult 'e' (by rw [← (List.cons.inj h).2]; exact List.mem_cons_self)).2
  have hline : (before ++ [' ', '-']) ++ '>' :: (" error".toList ++ after) =
      (word ++ (body ++ [' ', '-'])) ++ '>' :: ' ' :: result := by
    simpa using hline
  rcases List.append_eq_append_iff.1 hline with ⟨more, hmore, hrest⟩ | ⟨more, hmore, hrest⟩
  · cases more with
    | nil => exact hlast (List.cons.inj hrest).2
    | cons ch more =>
      obtain ⟨rfl, -⟩ := List.cons.inj hrest
      rcases List.append_eq_append_iff.1 hmore with ⟨between, -, hmine⟩ | ⟨between, htag, -⟩
      · exact hmark (hmine ▸ by simp)
      · exact hword (htag ▸ by simp)
  · cases more with
    | nil => exact hlast (List.cons.inj hrest).2.symm
    | cons ch more =>
      have hmem : '>' ∈ ' ' :: result := by
        rw [(List.cons.inj hrest).2]
        simp
      rcases List.mem_cons.1 hmem with h | h
      · exact absurd h (by decide)
      · exact (hresult _ h).1 rfl

/-- The line of a request that was carried out does not look like an error. -/
theorem RawDone.exit {t : Transport} {text line : String} {e : Event} (h : RawDone t text e)
    (hline : e.line = some line) : RawQuery.exit line.toList = 0 := by
  obtain ⟨m, fc, count, w, ⟨_, _, _, _, _, _, hparse, -⟩, -, -, rfl⟩ := h
  obtain ⟨word, body, htext, hword, hbody⟩ := rawParse_ok hparse
  have hresult := no_error_infix hword hbody (rawResult_chars t fc count m.reader)
  rw [← htext, ← String.toList_append, ← String.toList_append] at hresult
  obtain rfl : text ++ " -> " ++ rawResult t fc count m.reader = line := Option.some.inj hline
  exact if_neg hresult

theorem RawAnswer.line {t : Transport} {text line : String} {e : Event} (h : RawAnswer t text e)
    (hline : e.line = some line) : ∃ result, line.toList = text.toList ++ " -> ".toList ++ result ∧
      ((∃ detail, result = "error".toList ++ detail) ∨ RawDone t text e) := by
  cases h with
  | refused reason =>
    obtain rfl : text ++ " -> error refused " ++ reason = line := Option.some.inj hline
    have hsplit : " -> error refused ".toList =
        " -> ".toList ++ ("error".toList ++ " refused ".toList) := by decide +kernel
    refine ⟨"error".toList ++ (" refused ".toList ++ reason.toList), ?_, .inl ⟨_, rfl⟩⟩
    rw [String.toList_append, String.toList_append, hsplit]
    simp only [List.append_assoc]
  | failed m detail =>
    obtain rfl : text ++ " -> " ++ ("error " ++ detail) = line := Option.some.inj hline
    have hsplit : "error ".toList = "error".toList ++ [' '] := by decide +kernel
    refine ⟨"error".toList ++ ([' '] ++ detail.toList), ?_, .inl ⟨_, rfl⟩⟩
    rw [String.toList_append, String.toList_append, String.toList_append, hsplit]
    simp only [List.append_assoc]
  | done hdone =>
    obtain ⟨m, fc, count, w, hframe, hsame, hcheck, rfl⟩ := hdone
    obtain rfl : text ++ " -> " ++ rawResult t fc count m.reader = line := Option.some.inj hline
    exact ⟨_, by rw [String.toList_append, String.toList_append],
      .inr ⟨m, fc, count, w, hframe, hsame, hcheck, rfl⟩⟩

/-- A line that answers the text is an error to the tool, or its request was carried out. -/
theorem RawAnswer.exit {t : Transport} {text line : String} {e : Event} (h : RawAnswer t text e)
    (hline : e.line = some line) : RawQuery.exit line.toList = 0 ↔ RawDone t text e := by
  refine ⟨fun hexit => ?_, fun hdone => hdone.exit hline⟩
  obtain ⟨result, hparts, ⟨detail, hresult⟩ | hdone⟩ := h.line hline
  · have hsplit : " -> error".toList = " -> ".toList ++ "error".toList := by decide +kernel
    have herror : " -> error".toList <:+: line.toList := by
      refine ⟨text.toList, detail, ?_⟩
      rw [hparts, hresult, hsplit]
      simp only [List.append_assoc]
    have hminus : RawQuery.exit line.toList = -1 := if_pos herror
    rw [hminus] at hexit
    exact absurd hexit (by decide)
  · exact hdone

/-- A line the tool takes for its reply starts with a text of its tag. -/
theorem RawQuery.Accepts.tags {q : RawQuery} (htag : ' ' ∉ q.tag) {text rest : List Char}
    (h : q.Accepts (text ++ ' ' :: rest)) : q.Tags text := by
  obtain ⟨-, -, hprefix, hblank⟩ := h
  have hword : q.tag ++ [' '] <+: text ++ ' ' :: rest := by
    obtain ⟨more, hmore⟩ := hprefix
    rw [← hmore, List.getElem?_append_right le_rfl, Nat.sub_self] at hblank
    obtain ⟨more', rfl⟩ : ∃ more', more = ' ' :: more' := by
      cases more with
      | nil => contradiction
      | cons ch more' => exact ⟨more', by rw [Option.some.inj hblank]⟩
    exact ⟨more', by rw [← hmore]; simp⟩
  rcases lt_trichotomy q.tag.length text.length with hlt | heq | hgt
  · exact .inr (List.prefix_of_prefix_length_le hword (List.prefix_append _ _)
      (by rw [List.length_append]; exact hlt))
  · exact .inl ((List.prefix_of_prefix_length_le hprefix (List.prefix_append _ _) heq.le).eq_of_length
      heq).symm
  · have hlater : text ++ [' '] <+: q.tag :=
      List.prefix_of_prefix_length_le ⟨rest, by simp⟩ hprefix (by rw [List.length_append]; exact hgt)
    exact absurd (hlater.subset (List.mem_append_right _ (List.mem_singleton_self _))) htag

theorem queryMqtt_tag (raw : List Char) (pid : ℕ) : ' ' ∉ (queryMqtt raw pid).tag := by
  unfold queryMqtt
  split_ifs
  · intro hmem
    have hch := List.mem_takeWhile_imp (List.mem_of_mem_take hmem)
    simp at hch
  · intro hmem
    rcases List.mem_append.1 (List.mem_of_mem_take hmem) with h | h
    · exact absurd h (by decide)
    · exact absurd (decimal_isDigit h) (by decide)

/-- A line the tool takes for its reply answers a text of its tag. -/
theorem RawAnswer.tags {t : Transport} {text line : String} {e : Event} (h : RawAnswer t text e)
    (hline : e.line = some line) {raw : List Char} {pid : ℕ}
    (haccepts : (queryMqtt raw pid).Accepts line.toList) :
    (queryMqtt raw pid).Tags text.toList := by
  obtain ⟨result, hparts, -⟩ := h.line hline
  rw [hparts, List.append_assoc] at haccepts
  exact haccepts.tags (queryMqtt_tag raw pid)

/-- And it takes every line for it that fits its buffer. -/
theorem RawAnswer.accepts {t : Transport} {text line : String} {e : Event} (h : RawAnswer t text e)
    (hline : e.line = some line) {q : RawQuery} (htags : q.Tags text.toList)
    (hfits : line.length < 1024) : q.Accepts line.toList := by
  obtain ⟨result, hparts, -⟩ := h.line hline
  have hword : q.tag ++ [' '] <+: line.toList := by
    rw [hparts, List.append_assoc]
    rcases htags with htext | hprefix
    · rw [htext]
      exact ⟨"-> ".toList ++ result, by simp⟩
    · exact hprefix.trans (List.prefix_append _ _)
  obtain ⟨more, hmore⟩ := hword
  rw [String.length] at hfits
  rw [← hmore] at hfits ⊢
  refine ⟨by simp, hfits, ⟨' ' :: more, by simp⟩, by simp⟩

theorem rawEcho_word {word rest : List Char} (hne : word ≠ [])
    (hword : ∀ ch ∈ word, isRawSpace ch = false) (hrest : ∀ ch ∈ rest.head?, ch = ' ') :
    rawEcho (String.ofList (word ++ rest)) = word ∨
      word ++ [' '] <+: rawEcho (String.ofList (word ++ rest)) := by
  have hkept : ∀ chars : List Char, chars ≠ [] → (∀ ch ∈ chars, isRawSpace ch = false) →
      ∀ more, (chars ++ more).dropWhile isRawSpace = chars ++ more := by
    intro chars hchars hspace more
    obtain ⟨ch, chars, rfl⟩ := List.exists_cons_of_ne_nil hchars
    exact List.dropWhile_cons_of_neg (by simp [hspace ch List.mem_cons_self])
  unfold rawEcho
  rw [String.toList_ofList, hkept word hne hword, List.reverse_append, List.dropWhile_append]
  split_ifs with hempty
  · have hreversed := hkept word.reverse (by simpa using hne) (by simpa using hword) []
    rw [List.append_nil] at hreversed
    rw [hreversed, List.reverse_reverse]
    exact .inl rfl
  · -- what is left of the rest starts where the rest does
    obtain ⟨cut, hcut⟩ := List.dropWhile_suffix (p := isRawSpace) (l := rest.reverse)
    rw [List.reverse_append, List.reverse_reverse]
    generalize List.dropWhile isRawSpace rest.reverse = left at hempty hcut
    have hleft : left.reverse ++ cut.reverse = rest := by
      rw [← List.reverse_append, hcut, List.reverse_reverse]
    cases hhead : left.reverse with
    | nil => exact absurd (by simpa using hhead) hempty
    | cons ch more =>
      obtain rfl := hrest ch (by rw [← hleft, hhead]; rfl)
      exact .inr ⟨more, by simp⟩

theorem digit_not_rawSpace {ch : Char} (h : ch.isDigit) : isRawSpace ch = false := by
  cases hspace : isRawSpace ch with
  | false => rfl
  | true =>
    unfold isRawSpace isBlank at hspace
    simp only [Bool.or_eq_true, decide_eq_true_eq] at hspace
    rcases hspace with ((rfl | rfl) | rfl) | rfl <;> exact absurd h (by decide)

theorem queryMqtt_request {raw : List Char} (h : TagFits raw) (pid : ℕ) :
    (queryMqtt raw pid).tag ≠ [] ∧ (∀ ch ∈ (queryMqtt raw pid).tag, isRawSpace ch = false) ∧
      ∃ rest, (queryMqtt raw pid).request = (queryMqtt raw pid).tag ++ rest ∧
        ∀ ch ∈ rest.head?, ch = ' ' := by
  unfold queryMqtt
  split_ifs with hat
  · obtain ⟨hfits, hspace⟩ := h hat
    dsimp only
    rw [List.take_of_length_le hfits]
    refine ⟨?_, hspace, (raw.dropWhile (· ≠ ' ')).take (1023 - (raw.takeWhile (· ≠ ' ')).length),
      ?_, fun ch hch => ?_⟩
    · obtain ⟨rest, rfl⟩ : ∃ rest, raw = '@' :: rest := List.head?_eq_some_iff.1 hat
      simp
    · conv_lhs => rw [← List.takeWhile_append_dropWhile (p := (· ≠ ' ')) (l := raw)]
      rw [List.take_append, List.take_of_length_le (hfits.trans (by norm_num))]
    · have hblank := List.head?_dropWhile_not (· ≠ ' ') raw
      rw [List.head?_take] at hch
      split_ifs at hch
      · contradiction
      · rw [Option.mem_def.1 hch] at hblank
        simpa using hblank
  · dsimp only
    refine ⟨by simp, fun ch hch => ?_,
      (' ' :: raw).take (1023 - (("@q".toList ++ decimal pid).take 31).length), ?_, fun ch hch => ?_⟩
    · rcases List.mem_append.1 (List.mem_of_mem_take hch) with hmark | hdigit
      · have hsign : "@q".toList = ['@', 'q'] := by decide +kernel
        rw [hsign] at hmark
        simp only [List.mem_cons, List.not_mem_nil, or_false] at hmark
        rcases hmark with rfl | rfl <;> decide
      · exact digit_not_rawSpace (decimal_isDigit hdigit)
    · rw [List.take_append, List.take_of_length_le]
      exact (List.length_take_le ..).trans (by norm_num)
    · rw [List.head?_take] at hch
      split_ifs at hch
      · contradiction
      · exact (Option.some.inj hch).symm

theorem queryMqtt_tags {raw : List Char} (h : TagFits raw) (pid : ℕ) :
    (queryMqtt raw pid).Tags (queryMqtt raw pid).text.toList := by
  obtain ⟨hne, hspace, rest, hrequest, hrest⟩ := queryMqtt_request h pid
  unfold RawQuery.text RawQuery.Tags
  rw [String.toList_ofList, hrequest]
  exact rawEcho_word hne hspace hrest

/-- The tool listens where the bridge replies, as long as the prefix leaves room for the topic. -/
theorem queryReplyTopic_eq_iff (topicPrefix : List UInt8) :
    queryReplyTopic topicPrefix = rawTopic topicPrefix (ascii "/reply".toList) ↔
      topicPrefix.length ≤ 238 := by
  have hrequest : (ascii "request/raw".toList).length = 11 := by decide +kernel
  have hreply : (ascii "/reply".toList).length = 6 := by decide +kernel
  unfold queryReplyTopic queryTopic rawTopic
  constructor
  · intro h
    have hlength := congrArg List.length h
    simp only [List.length_take, List.length_append, hrequest, hreply] at hlength
    omega
  · intro h
    have hroom : (topicPrefix ++ ascii "request/raw".toList).length ≤ 249 := by
      rw [List.length_append, hrequest]
      omega
    have hfull : (topicPrefix ++ ascii "request/raw".toList ++ ascii "/reply".toList).length ≤ 255 := by
      rw [List.length_append, hreply]
      omega
    rw [List.take_of_length_le (hroom.trans (by decide)), List.take_of_length_le (hfull.trans
      (by decide)), List.take_of_length_le hfull]

theorem RawQuery.heard_sublist (q : RawQuery) (topicPrefix : List UInt8) (handed : List String) :
    (q.heard topicPrefix handed).Sublist (handed.filter fun reply => q.Accepts reply.toList) := by
  unfold RawQuery.heard
  split_ifs
  · exact .refl _
  · exact List.nil_sublist _

section

variable {writes : List AckedWrite} {numerals : Numerals} {topicPrefix : List UInt8}

theorem CommandBridge.told_replies (s : CommandBridge) (rc : PublishResult) (e : Event) :
    ∃ sent, (s.told writes rc e).replies = s.replies ++ sent ∧ sent.Sublist (rawLines [e]) := by
  have hkept : ∃ sent, s.replies = s.replies ++ sent ∧ sent.Sublist (rawLines [e]) :=
    ⟨[], (List.append_nil _).symm, List.nil_sublist _⟩
  have hcallback (line : String) (hline : e.line = some line) : ∃ sent,
      (rawReplyCallback s rc line).replies = s.replies ++ sent ∧ sent.Sublist (rawLines [e]) := by
    have hlines : rawLines [e] = [line] := by
      unfold rawLines
      rw [List.filterMap_cons_some hline, List.filterMap_nil]
    unfold rawReplyCallback
    split_ifs
    · exact hkept
    · exact ⟨[line], rfl, hlines ▸ List.Sublist.refl _⟩
    · exact hkept
  cases e with
  | reported m report =>
    cases report with
    | message => exact hkept
    | error error => exact hkept
    | raw line => exact hcallback line rfl
  | refused line => exact hcallback line rfl
  | _ => exact hkept

theorem CommandBridge.hear_replies (rc : ℕ → PublishResult) (events : List Event) (i : ℕ)
    (s : CommandBridge) : ∃ sent, (CommandBridge.hear writes rc events i s).replies =
      s.replies ++ sent ∧ sent.Sublist (rawLines events) := by
  induction events generalizing i s with
  | nil => exact ⟨[], (List.append_nil _).symm, List.nil_sublist _⟩
  | cons e events ih =>
    obtain ⟨sent, hsent, hsub⟩ := @CommandBridge.told_replies writes s (rc i) e
    obtain ⟨sent', hsent', hsub'⟩ := ih (i + 1) (s.told writes (rc i) e)
    refine ⟨sent ++ sent', ?_, ?_⟩
    · rw [← List.append_assoc, ← hsent]
      exact hsent'
    · rw [← List.singleton_append, rawLines_append]
      exact hsub.append hsub'

theorem commandRun_replies {turns : List (CommandEvent × (ℕ → PublishResult))} {s : CommandBridge}
    (h : s.replies.Sublist (rawLines s.context.log)) :
    (commandRun writes numerals topicPrefix turns s).replies.Sublist
      (rawLines (commandRun writes numerals topicPrefix turns s).context.log) := by
  induction turns generalizing s with
  | nil => exact h
  | cons turn turns ih =>
    refine ih ?_
    have hheard : (CommandEvent.perform writes numerals topicPrefix s turn).context =
        (turn.1.serve writes numerals topicPrefix s.toWriteBridge).context :=
      CommandBridge.hear_context ..
    have hprefix : s.context.log <+:
        (turn.1.serve writes numerals topicPrefix s.toWriteBridge).context.log := by
      rw [CommandEvent.serve_context]
      exact run_log_kept ..
    obtain ⟨sent, hsent, hsub⟩ := @CommandBridge.hear_replies writes turn.2
      ((turn.1.serve writes numerals topicPrefix s.toWriteBridge).context.log.drop
        s.context.log.length) 0
      { s with toWriteBridge := turn.1.serve writes numerals topicPrefix s.toWriteBridge }
    rw [hheard, ← List.prefix_iff_eq_append.1 hprefix, rawLines_append]
    change (CommandBridge.hear ..).replies.Sublist _
    rw [hsent]
    exact h.append hsub

end

theorem Forall₂_countP_le {α β : Type} [BEq α] [LawfulBEq α] {R : α → β → Prop} {p : β → Bool}
    {a : α} {xs : List α} {ys : List β} (h : List.Forall₂ R xs ys)
    (hp : ∀ x ∈ xs, ∀ y, R x y → p y → x = a) : ys.countP p ≤ xs.count a := by
  induction h with
  | nil => exact Nat.le_refl 0
  | @cons x y xs ys hxy _ ih =>
    have hrest := ih fun x hx => hp x (List.mem_cons_of_mem _ hx)
    rw [List.countP_cons, List.count_cons]
    split_ifs with hy hx
    · omega
    · exact absurd (beq_iff_eq.2 (hp x List.mem_cons_self y hxy hy)) hx
    · omega
    · omega

/-- Whoever else asks the bridge, and whatever else it does: if nobody else uses the tag of the
tool, it takes its own replies and no others, of those it is handed before its deadline. -/
theorem query_reads_own_answer {writes : List AckedWrite} {numerals : Numerals}
    {topicPrefix : List UInt8} {s₀ : CommandBridge} (hstarts : s₀.Starts) (hsilent : s₀.replies = [])
    {turns : List (CommandEvent × (ℕ → PublishResult))}
    (hfew : (commandRun writes numerals topicPrefix turns s₀).context.serialNext < 2 ^ 32)
    (raw : List Char) (pid : ℕ)
    (htag : ∀ text ∈ rawAsked (commandCalls numerals writes topicPrefix turns s₀),
      (queryMqtt raw pid).Tags text.toList → text = (queryMqtt raw pid).text)
    {handed : List String}
    (hhanded : handed.Sublist (commandRun writes numerals topicPrefix turns s₀).replies) :
    OwnReplies raw pid s₀.context.transport topicPrefix
      (rawAsked (commandCalls numerals writes topicPrefix turns s₀))
      (commandRun writes numerals topicPrefix turns s₀).context.log handed := by
  have hlines : handed.Sublist
      (rawLines (commandRun writes numerals topicPrefix turns s₀).context.log) :=
    hhanded.trans (commandRun_replies (by rw [hsilent]; exact List.nil_sublist _))
  rw [commandRun_context] at hlines hfew ⊢
  generalize commandCalls numerals writes topicPrefix turns s₀ = calls at *
  obtain ⟨answered, hanswers, hperm⟩ :=
    (run_rawBooks hstarts.setUp.toFresh hstarts.setUp.ids _ hfew).answered
  rw [(run_steps hstarts.setUp.wellFormed _).sameSetup.transport] at hanswers
  generalize (run calls s₀.context).log = log at *
  have hasked : ∀ text ∈ answered, text ∈ rawAsked calls := fun text htext =>
    hperm.subset (List.mem_append_left _ htext)
  -- a line that the tool takes answers the tool's text
  have hmine : ∀ text ∈ answered, ∀ e line, RawAnswer s₀.context.transport text e →
      e.line = some line → (queryMqtt raw pid).Accepts line.toList →
        text = (queryMqtt raw pid).text := fun text htext e line hanswer hline haccepts =>
    htag text (hasked text htext) (hanswer.tags hline haccepts)
  have hheard := (queryMqtt raw pid).heard_sublist topicPrefix handed
  refine ⟨?_, fun line hmem => ?_, fun hprefix hfits line hmem hlength ⟨e, _, hline, hanswer⟩ => ?_⟩
  · calc ((queryMqtt raw pid).heard topicPrefix handed).length
        ≤ handed.countP fun reply => (queryMqtt raw pid).Accepts reply.toList := by
          rw [List.countP_eq_length_filter]
          exact hheard.length_le
      _ ≤ (rawLines log).countP fun reply => (queryMqtt raw pid).Accepts reply.toList :=
          hlines.countP_le
      _ = (rawReplies log).countP fun e =>
          (e.line.map fun line => decide ((queryMqtt raw pid).Accepts line.toList)).getD false := by
          rw [rawLines_eq, List.countP_filterMap]
      _ ≤ answered.count (queryMqtt raw pid).text := by
          refine Forall₂_countP_le hanswers fun text htext e hanswer htakes => ?_
          cases hline : e.line with
          | none => simp [hline] at htakes
          | some line =>
            rw [hline] at htakes
            exact hmine text htext e line hanswer hline (of_decide_eq_true htakes)
      _ ≤ (rawAsked calls).count (queryMqtt raw pid).text := by
          rw [← hperm.count_eq, List.count_append]
          exact Nat.le_add_right _ _
  · obtain ⟨hmem, haccepts⟩ := List.mem_filter.1 (hheard.subset hmem)
    obtain ⟨e, he, hline⟩ := List.mem_filterMap.1 (hlines.subset hmem)
    have hreply : e ∈ rawReplies log := List.mem_filter.2 ⟨he, by rw [hline]; rfl⟩
    obtain ⟨i, hi, hget⟩ := List.mem_iff_getElem.1 hreply
    have hi' : i < answered.length := hanswers.length_eq ▸ hi
    have hanswer := hanswers.get hi' hi
    rw [List.get_eq_getElem, List.get_eq_getElem, hget] at hanswer
    rw [hmine _ (List.getElem_mem hi') e line hanswer hline (of_decide_eq_true haccepts)] at hanswer
    exact ⟨e, ⟨he, hline, hanswer⟩, hanswer.exit hline⟩
  · unfold RawQuery.heard
    rw [if_pos ((queryReplyTopic_eq_iff topicPrefix).2 hprefix)]
    exact List.mem_filter.2
      ⟨hmem, decide_eq_true (hanswer.accepts hline (queryMqtt_tags hfits pid) hlength)⟩

def queryTurns : List (CommandEvent × (ℕ → PublishResult)) :=
  [(.incoming ⟨queryTopic [], ascii (queryMqtt "1 3 0 2".toList 77).request⟩
      (fun _ => ⟨true, true, .success⟩) fun _ => 0, fun _ => .success),
    (.incoming ⟨queryTopic [], ascii "@q78 1 3 0 2".toList⟩ (fun _ => ⟨true, true, .success⟩)
      fun _ => 0, fun _ => .success)] ++ coilTurns

/-- The second tool is refused, and the first one hears of its own request only. -/
theorem query_reads_own_answer_example :
    OwnReplies "1 3 0 2".toList 77 .tcp [] ["@q77 1 3 0 2", "@q78 1 3 0 2"]
      (commandRun [] hundredNumerals [] queryTurns listeningBridge).context.log
      (commandRun [] hundredNumerals [] queryTurns listeningBridge).replies ∧
    (queryMqtt "1 3 0 2".toList 77).heard []
      (commandRun [] hundredNumerals [] queryTurns listeningBridge).replies =
        ["@q77 1 3 0 2 -> error no response within frame timeout"] := by
  have hasked : rawAsked (commandCalls hundredNumerals [] [] queryTurns listeningBridge) =
      ["@q77 1 3 0 2", "@q78 1 3 0 2"] := by decide +kernel
  have htag : ∀ text ∈ ["@q77 1 3 0 2", "@q78 1 3 0 2"],
      (queryMqtt "1 3 0 2".toList 77).Tags text.toList →
        text = (queryMqtt "1 3 0 2".toList 77).text := by
    unfold RawQuery.Tags
    decide +kernel
  refine ⟨?_, by decide +kernel⟩
  rw [← hasked] at htag ⊢
  exact query_reads_own_answer listeningBridge_starts rfl (by decide +kernel) _ _ htag (.refl _)

end Modbusmq
