import Modbusmq.Bridge.Publishing
import Modbusmq.Configuration.Topics
import Modbusmq.Library.Json

/-!
# The acknowledgement of a write

`mqtt_write_result` of `modbusmq.c` with the two helpers that fill its payload,
`json_append` and `json_escape`. A buffer is the list of the bytes written to it,
without the terminator.
-/

namespace Modbusmq

open Json

/-- What `mqtt_write_result` reads of a `modbusmq_write_t`; its strings are bytes. -/
structure AckEntry where
  name : Option (List UInt8)
  topic : Option (List UInt8)
  ack : Bool
  ackTopic : Option (List UInt8)

inductive AckStatus
  | ok
  | sent
  | error
  deriving DecidableEq, Repr

inductive AckReason
  | payload
  | encode
  | offline
  | queue
  | timeout
  | protocol
  | transport
  | exception
  | error
  deriving DecidableEq, Repr

def AckStatus.word : AckStatus → List Char
  | ok => ['o', 'k']
  | sent => ['s', 'e', 'n', 't']
  | error => ['e', 'r', 'r', 'o', 'r']

def AckReason.word : AckReason → List Char
  | payload => ['p', 'a', 'y', 'l', 'o', 'a', 'd']
  | encode => ['e', 'n', 'c', 'o', 'd', 'e']
  | offline => ['o', 'f', 'f', 'l', 'i', 'n', 'e']
  | queue => ['q', 'u', 'e', 'u', 'e']
  | timeout => ['t', 'i', 'm', 'e', 'o', 'u', 't']
  | protocol => ['p', 'r', 'o', 't', 'o', 'c', 'o', 'l']
  | transport => ['t', 'r', 'a', 'n', 's', 'p', 'o', 'r', 't']
  | exception => ['e', 'x', 'c', 'e', 'p', 't', 'i', 'o', 'n']
  | error => ['e', 'r', 'r', 'o', 'r']

structure WriteResult where
  reqId : ℕ
  status : AckStatus
  value : Option (List UInt8)
  reason : Option AckReason
  message : Option (List UInt8)
  code : ℤ

/-- `json_append` of a formatted text, with a buffer of `nbuf` bytes. -/
def jsonAppend (nbuf : ℕ) (buf text : List UInt8) : List UInt8 :=
  if nbuf - 1 ≤ buf.length then buf else buf ++ text.take (nbuf - buf.length - 1)

def hexDigits (b : UInt8) : List UInt8 :=
  [48, 48, 48 + b / 16, if b % 16 < 10 then 48 + b % 16 else 87 + b % 16]

def jsonEscapeByte (b : UInt8) : List UInt8 :=
  if b = 34 then [92, 34]
  else if b = 92 then [92, 92]
  else if b = 10 then [92, 110]
  else if b = 13 then [92, 114]
  else if b = 9 then [92, 116]
  else if b < 32 then 92 :: 117 :: hexDigits b
  else [b]

/-- The loop of `json_escape`, with `out` written to a buffer of `nout` bytes. -/
def jsonEscapeLoop (nout : ℕ) : List UInt8 → List UInt8 → List UInt8
  | [], out => out
  | b :: rest, out =>
    if nout ≤ out.length + (jsonEscapeByte b).length then out
    else jsonEscapeLoop nout rest (out ++ jsonEscapeByte b)

def jsonEscape (nout : ℕ) (text : Option (List UInt8)) : List UInt8 :=
  jsonEscapeLoop nout (text.getD []) []

def stringPiece (key text : List UInt8) : List UInt8 :=
  44 :: 34 :: key ++ [34, 58, 34] ++ text ++ [34]

/-- The format `,"key":%u` or `,"key":%d` of a number that is not negative. -/
def numberPiece (key : List UInt8) (n : ℕ) : List UInt8 :=
  44 :: 34 :: key ++ [34, 58] ++ ascii (decimal n)

/-- The texts `mqtt_write_result` appends, one after the other. -/
def writeResultPieces (entry : AckEntry) (result : WriteResult) : List (List UInt8) :=
  let name := jsonEscape 128 entry.name
  let topic := jsonEscape 256 entry.topic
  let vbuf := jsonEscape 192 result.value
  let mbuf := jsonEscape 192 result.message
  [123 :: 34 :: ascii "status".toList ++ [34, 58, 34] ++ ascii result.status.word ++ [34]] ++
    (if entry.name.isSome then [stringPiece (ascii "name".toList) name] else []) ++
    (if entry.topic.isSome then [stringPiece (ascii "topic".toList) topic] else []) ++
    (if result.reqId ≠ 0 then [numberPiece (ascii "req".toList) result.reqId] else []) ++
    (if result.value.isSome then [stringPiece (ascii "value".toList) vbuf] else []) ++
    (match result.reason with
      | some reason => [stringPiece (ascii "reason".toList) (ascii reason.word)]
      | none => []) ++
    (if 0 < result.code then [numberPiece (ascii "code".toList) result.code.toNat] else []) ++
    (if result.message.isSome then [stringPiece (ascii "message".toList) mbuf] else []) ++
    [[125]]

def writeResultPayload (entry : AckEntry) (result : WriteResult) : List UInt8 :=
  (writeResultPieces entry result).foldl (jsonAppend 900) []

/-- `mqtt_write_result`: what it hands to the broker, with its topic, and whether the broker is
still connected then. -/
def mqttWriteResult (connected : Bool) (rc : PublishResult) (entry : AckEntry)
    (result : WriteResult) : Option (List UInt8 × List UInt8) × Bool :=
  match entry.ackTopic with
  | some topic =>
    if entry.ack ∧ connected then
      (some (topic, writeResultPayload entry result), rc ≠ .noConnection)
    else (none, connected)
  | none => (none, connected)

/-- A value the consumer is told; `room` is the buffer a text is escaped in. -/
inductive AckValue
  | word (text : List Char)
  | text (room : ℕ) (bytes : List UInt8)
  | number (n : ℕ)

structure AckField where
  key : List Char
  value : AckValue

def writeResultFields (entry : AckEntry) (result : WriteResult) : List AckField :=
  [⟨"status".toList, .word result.status.word⟩] ++
    (entry.name.map fun name => ⟨"name".toList, .text 128 name⟩).toList ++
    (entry.topic.map fun topic => ⟨"topic".toList, .text 256 topic⟩).toList ++
    (if result.reqId ≠ 0 then [⟨"req".toList, .number result.reqId⟩] else []) ++
    (result.value.map fun value => ⟨"value".toList, .text 192 value⟩).toList ++
    (result.reason.map fun reason => ⟨"reason".toList, .word reason.word⟩).toList ++
    (if 0 < result.code then [⟨"code".toList, .number result.code.toNat⟩] else []) ++
    (result.message.map fun message => ⟨"message".toList, .text 192 message⟩).toList

/-- The member tells the field: a text is read back as a beginning of its bytes, and as all of
them where they fit. -/
def AckField.Carried (field : AckField) (m : Member) : Prop :=
  unescape m.key = some (ascii field.key) ∧
    match field.value, m.value with
    | .word text, .string body => unescape body = some (ascii text)
    | .text room bytes, .string body =>
      ∃ read, unescape body = some read ∧ read <+: bytes ∧
        ((bytes.flatMap jsonEscapeByte).length < room → read = bytes)
    | .number n, .number digits => digits = ascii (decimal n)
    | _, _ => False

theorem AckField.Carried.key {field : AckField} {m : Member} (h : field.Carried m) :
    ∃ bytes, unescape m.key = some bytes :=
  ⟨_, h.1⟩

theorem AckField.Carried.wellFormed {field : AckField} {m : Member} (h : field.Carried m) :
    m.value.WellFormed := by
  obtain ⟨-, h⟩ := h
  cases hfield : field.value <;> cases hm : m.value <;> simp only [hfield, hm] at h
  · exact ⟨_, h⟩
  · obtain ⟨read, hread, -⟩ := h
    exact ⟨read, hread⟩
  · subst h
    exact isNumber_toDigits _

theorem codeEscape_hexDigits {b : UInt8} (h : b < 32) :
    codeEscape 48 48 (48 + b / 16) (if b % 16 < 10 then 48 + b % 16 else 87 + b % 16) =
      some b := by
  have hall : ∀ n < 32, let b := UInt8.ofNat n
      codeEscape 48 48 (48 + b / 16) (if b % 16 < 10 then 48 + b % 16 else 87 + b % 16) =
        some b := by decide
  simpa using hall b.toNat (UInt8.lt_iff_toNat_lt.1 h)

theorem unescape_jsonEscapeByte (b : UInt8) : unescape (jsonEscapeByte b) = some [b] := by
  unfold jsonEscapeByte
  split_ifs with hquote hbackslash hn hr ht hcontrol
  · subst hquote
    rfl
  · subst hbackslash
    rfl
  · subst hn
    rfl
  · subst hr
    rfl
  · subst ht
    rfl
  · exact unescape_code (codeEscape_hexDigits hcontrol) []
  · exact unescape_plain ⟨UInt8.not_lt.1 hcontrol, hquote, hbackslash⟩ []

theorem jsonEscapeLoop_eq (nout : ℕ) (text out : List UInt8) :
    ∃ read, read <+: text ∧ jsonEscapeLoop nout text out = out ++ read.flatMap jsonEscapeByte ∧
      (out.length < nout → (jsonEscapeLoop nout text out).length < nout) ∧
      (out.length + (text.flatMap jsonEscapeByte).length < nout → read = text) := by
  induction text generalizing out with
  | nil => exact ⟨[], List.prefix_rfl, by simp [jsonEscapeLoop], id, fun _ => rfl⟩
  | cons b rest ih =>
    rw [jsonEscapeLoop]
    split_ifs with hfull
    · refine ⟨[], List.nil_prefix, by simp, id, fun hfits => ?_⟩
      rw [List.flatMap_cons, List.length_append] at hfits
      omega
    · obtain ⟨read, hread, heq, hroom, hwhole⟩ := ih (out ++ jsonEscapeByte b)
      rw [List.length_append] at hroom hwhole
      refine ⟨b :: read, (List.prefix_cons_inj b).2 hread, ?_, fun _ => hroom (by omega), ?_⟩
      · rw [heq, List.flatMap_cons, List.append_assoc]
      · intro hfits
        rw [List.flatMap_cons, List.length_append] at hfits
        rw [hwhole (by omega)]

theorem jsonEscape_spec {nout : ℕ} (hnout : 0 < nout) (bytes : List UInt8) :
    (jsonEscape nout (some bytes)).length < nout ∧
      ∃ read, unescape (jsonEscape nout (some bytes)) = some read ∧ read <+: bytes ∧
        ((bytes.flatMap jsonEscapeByte).length < nout → read = bytes) := by
  obtain ⟨read, hread, heq, hroom, hwhole⟩ := jsonEscapeLoop_eq nout bytes []
  refine ⟨hroom hnout, read, ?_, hread, fun hfits => hwhole (by simpa using hfits)⟩
  have hspelled := unescape_flatMap unescape_jsonEscapeByte read
  rwa [← List.nil_append (read.flatMap _), ← heq] at hspelled

theorem jsonAppend_fits {nbuf : ℕ} {buf text : List UInt8}
    (h : buf.length + text.length < nbuf) : jsonAppend nbuf buf text = buf ++ text := by
  unfold jsonAppend
  split_ifs with hfull
  · obtain rfl : text = [] := List.eq_nil_of_length_eq_zero (by omega)
    rw [List.append_nil]
  · rw [List.take_of_length_le (by omega)]

theorem foldl_jsonAppend {nbuf : ℕ} {pieces : List (List UInt8)} {buf : List UInt8}
    (h : buf.length + pieces.flatten.length < nbuf) :
    pieces.foldl (jsonAppend nbuf) buf = buf ++ pieces.flatten := by
  induction pieces generalizing buf with
  | nil => simp
  | cons piece pieces ih =>
    rw [List.flatten_cons, List.length_append] at h
    rw [List.foldl_cons, jsonAppend_fits (by omega),
      ih (by rw [List.length_append]; omega), List.flatten_cons, List.append_assoc]

/-- The texts of a part of the payload are the members of its fields, each behind a comma. -/
def Rendered (pieces : List (List UInt8)) (fields : List AckField) (room : ℕ) : Prop :=
  pieces.flatten.length ≤ room ∧ ∃ members : List Member,
    pieces.flatten = members.flatMap (fun m => 44 :: m.text) ∧
      List.Forall₂ AckField.Carried fields members

theorem Rendered.nil : Rendered [] [] 0 := ⟨le_rfl, [], rfl, .nil⟩

theorem Rendered.append {pieces pieces' : List (List UInt8)} {fields fields' : List AckField}
    {room room' : ℕ} (h : Rendered pieces fields room) (h' : Rendered pieces' fields' room') :
    Rendered (pieces ++ pieces') (fields ++ fields') (room + room') := by
  obtain ⟨hroom, members, heq, hcarried⟩ := h
  obtain ⟨hroom', members', heq', hcarried'⟩ := h'
  refine ⟨?_, members ++ members', ?_, List.rel_append hcarried hcarried'⟩
  · rw [List.flatten_append, List.length_append]
    omega
  · rw [List.flatten_append, heq, heq', List.flatMap_append]

theorem Rendered.mono {pieces : List (List UInt8)} {fields : List AckField} {room room' : ℕ}
    (h : Rendered pieces fields room) (hle : room ≤ room') : Rendered pieces fields room' :=
  ⟨h.1.trans hle, h.2⟩

theorem rendered_text (key : List Char) {nout : ℕ} (hnout : 0 < nout) (room : ℕ)
    (hkey : unescape (ascii key) = some (ascii key)) (hroom : key.length + 5 + nout ≤ room)
    (text : Option (List UInt8)) :
    Rendered (if text.isSome then [stringPiece (ascii key) (jsonEscape nout text)] else [])
      (text.map fun bytes => ⟨key, .text nout bytes⟩).toList room := by
  cases text with
  | none => exact Rendered.nil.mono (Nat.zero_le room)
  | some bytes =>
    obtain ⟨hlength, hread⟩ := jsonEscape_spec hnout bytes
    refine ⟨?_, [⟨ascii key, .string (jsonEscape nout (some bytes))⟩], ?_, .cons ⟨hkey, hread⟩ .nil⟩
    · simp [stringPiece]
      omega
    · simp [stringPiece, Member.text, Value.text]

theorem rendered_number (key : List Char) {n digits : ℕ} (hn : n < 10 ^ digits)
    (hdigits : 0 < digits) (room : ℕ) (hkey : unescape (ascii key) = some (ascii key))
    (hroom : key.length + 4 + digits ≤ room) (told : Prop) [Decidable told] :
    Rendered (if told then [numberPiece (ascii key) n] else [])
      (if told then [⟨key, .number n⟩] else []) room := by
  split_ifs
  · have hlength : (decimal n).length ≤ digits :=
      (Nat.length_toDigits_le_iff (by decide) hdigits).2 hn
    refine ⟨?_, [⟨ascii key, .number (ascii (decimal n))⟩], ?_, .cons ⟨hkey, rfl⟩ .nil⟩
    · simp [numberPiece]
      omega
    · simp [numberPiece, Member.text, Value.text]
  · exact Rendered.nil.mono (Nat.zero_le room)

theorem AckStatus.word_spec (status : AckStatus) :
    unescape (ascii status.word) = some (ascii status.word) ∧ status.word.length ≤ 5 := by
  cases status <;> decide

theorem AckReason.word_spec (reason : AckReason) :
    unescape (ascii reason.word) = some (ascii reason.word) ∧ reason.word.length ≤ 9 := by
  cases reason <;> decide

theorem rendered_reason (reason : Option AckReason) :
    Rendered (match reason with
        | some reason => [stringPiece (ascii "reason".toList) (ascii reason.word)]
        | none => [])
      (reason.map fun reason => ⟨"reason".toList, .word reason.word⟩).toList 21 := by
  cases reason with
  | none => exact Rendered.nil.mono (Nat.zero_le 21)
  | some reason =>
    obtain ⟨hword, hlength⟩ := reason.word_spec
    have hkey : unescape (ascii "reason".toList) = some (ascii "reason".toList) := by decide
    refine ⟨?_, [⟨ascii "reason".toList, .string (ascii reason.word)⟩], ?_,
      .cons ⟨hkey, hword⟩ .nil⟩
    · simp [stringPiece]
      omega
    · simp [stringPiece, Member.text, Value.text]

/-- The parts of the payload between its braces, behind the status. -/
theorem writeResult_rendered (entry : AckEntry) {result : WriteResult}
    (hreq : result.reqId < 2 ^ 32) (hcode : result.code < 2 ^ 31) :
    ∃ pieces, writeResultPieces entry result =
        [123 :: 34 :: ascii "status".toList ++ [34, 58, 34] ++ ascii result.status.word ++ [34]] ++
          pieces ++ [[125]] ∧
      ∃ fields, writeResultFields entry result =
          ⟨"status".toList, .word result.status.word⟩ :: fields ∧ Rendered pieces fields 865 := by
  have hname := rendered_text "name".toList (show 0 < 128 by decide) 137 (by decide) (by decide)
    entry.name
  have htopic := rendered_text "topic".toList (show 0 < 256 by decide) 266 (by decide) (by decide)
    entry.topic
  have hid := rendered_number "req".toList (show result.reqId < 10 ^ 10 from hreq.trans (by decide))
    (by decide) 17 (by decide) (by decide) (result.reqId ≠ 0)
  have hvalue := rendered_text "value".toList (show 0 < 192 by decide) 202 (by decide) (by decide)
    result.value
  have hexception := rendered_number "code".toList
    (show result.code.toNat < 10 ^ 10 by omega) (by decide) 18 (by decide) (by decide)
    (0 < result.code)
  have hmessage := rendered_text "message".toList (show 0 < 192 by decide) 204 (by decide)
    (by decide) result.message
  refine ⟨_, ?_, _, ?_, (((((hname.append htopic).append hid).append hvalue).append
    (rendered_reason result.reason)).append hexception).append hmessage⟩
  · simp only [writeResultPieces, List.append_assoc]
  · simp only [writeResultFields, List.append_assoc, List.cons_append, List.nil_append]

/-- What `mqtt_write_result` publishes is one complete JSON object that tells its fields. -/
theorem mqttWriteResult_wellFormed {connected : Bool} {rc : PublishResult} {entry : AckEntry}
    {result : WriteResult} (hreq : result.reqId < 2 ^ 32) (hcode : result.code < 2 ^ 31)
    {topic payload : List UInt8}
    (h : (mqttWriteResult connected rc entry result).1 = some (topic, payload)) :
    entry.ackTopic = some topic ∧ ∃ members, IsObject payload members ∧
      List.Forall₂ AckField.Carried (writeResultFields entry result) members := by
  have hpublished : entry.ackTopic = some topic ∧ payload = writeResultPayload entry result := by
    unfold mqttWriteResult at h
    split at h
    · rename_i ackTopic hackTopic
      split_ifs at h
      obtain ⟨rfl, rfl⟩ := Prod.mk.inj (Option.some.inj h)
      exact ⟨hackTopic, rfl⟩
    · exact nomatch h
  obtain ⟨htopic, rfl⟩ := hpublished
  obtain ⟨pieces, hpieces, fields, hfields, hlength, members, hflatten, hcarried⟩ :=
    writeResult_rendered entry hreq hcode
  obtain ⟨hword, hwordLength⟩ := result.status.word_spec
  have hkey : unescape (ascii "status".toList) = some (ascii "status".toList) := by decide
  have hall : List.Forall₂ AckField.Carried (writeResultFields entry result)
      (⟨ascii "status".toList, .string (ascii result.status.word)⟩ :: members) := by
    rw [hfields]
    exact .cons ⟨hkey, hword⟩ hcarried
  refine ⟨htopic, _, ⟨?_, fun m hm => ?_, fun m hm => ?_⟩, hall⟩
  · -- 17 bytes of the status, 865 bytes, and the brace
    have hfits : (writeResultPieces entry result).flatten.length < 900 := by
      have hstatus : "status".toList.length = 6 := by decide
      rw [hpieces]
      simp only [List.flatten_append, List.flatten_cons, List.flatten_nil, List.append_nil,
        List.length_append, List.length_cons, List.length_nil, length_ascii, hstatus]
      omega
    rw [writeResultPayload, foldl_jsonAppend (by rwa [List.length_nil, Nat.zero_add]), hpieces,
      objectText_cons]
    simp [hflatten, Member.text, Value.text]
  · obtain ⟨field, -, hfield⟩ := forall₂_mem_right hall hm
    exact hfield.key
  · obtain ⟨field, -, hfield⟩ := forall₂_mem_right hall hm
    exact hfield.wellFormed

def quotedEntry : AckEntry := ⟨some [97, 34], some [116], true, some [116, 47, 97]⟩

theorem mqttWriteResult_wellFormed_example :
    ∃ members, IsObject (writeResultPayload quotedEntry ⟨7, .ok, some [49], none, none, 0⟩) members ∧
      List.Forall₂ AckField.Carried
        (writeResultFields quotedEntry ⟨7, .ok, some [49], none, none, 0⟩) members :=
  (@mqttWriteResult_wellFormed true .success quotedEntry ⟨7, .ok, some [49], none, none, 0⟩
    (by decide) (by decide) _ _ rfl).2

example : writeResultPayload quotedEntry ⟨7, .ok, some [49], none, none, 0⟩ =
    ascii "\x7b\"status\":\"ok\",\"name\":\"a\\\"\",\"topic\":\"t\",\"req\":7,\"value\":\"1\"\x7d".toList := by
  decide

end Modbusmq
