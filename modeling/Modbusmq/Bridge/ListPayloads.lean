import Modbusmq.Bridge.SingleValues

/-!
# Payloads of a block

Which lists `mqtt_payload_block` accepts, against the grammar of a list: numbers
with a separator between neighbours, in one pair of brackets or none. The
scanner leaves it to `strtod` where a number ends, skips any separators, and
does not count brackets.
-/

namespace Modbusmq

open Json

/-- A finite number without blanks in front. -/
structure ListNumber (strtod : List UInt8 → Double × ℕ) (text : List UInt8) (value : ℚ) : Prop where
  number : IsNumber strtod text (some value)
  flush : ∀ b ∈ text.head?, ¬ blankByte [] b

/-- Numbers with a comma or a blank at least between neighbours. -/
inductive Separated (strtod : List UInt8 → Double × ℕ) : List UInt8 → List Double → Prop
  | single {text : List UInt8} {value : ℚ} (h : ListNumber strtod text value) :
      Separated strtod text [some value]
  | cons {text gap rest : List UInt8} {value : ℚ} {values : List Double}
      (h : ListNumber strtod text value) (hgap : gap ≠ []) (hseps : ∀ b ∈ gap, blankByte [44] b)
      (hrest : Separated strtod rest values) :
      Separated strtod (text ++ (gap ++ rest)) (some value :: values)

theorem Separated.flush {strtod : List UInt8 → Double × ℕ} {body rest : List UInt8}
    {values : List Double} (h : Separated strtod body values) :
    ∀ b ∈ (body ++ rest).head?, ¬ blankByte [] b := by
  have hhead : ∀ {text more : List UInt8} {value : ℚ}, ListNumber strtod text value →
      ∀ b ∈ (text ++ more).head?, ¬ blankByte [] b := by
    intro text more value hlist b hb
    obtain ⟨c, text, rfl⟩ := List.exists_cons_of_ne_nil hlist.number.1
    exact hlist.flush b hb
  cases h with
  | single hlist => exact hhead hlist
  | cons hlist =>
    rw [List.append_assoc]
    exact hhead hlist

/-- A payload that is a list of these values, up to blanks in one pair of brackets or none. -/
inductive ListForm (strtod : List UInt8 → Double × ℕ) (values : List Double) : List UInt8 → Prop
  | bare {lead body tail : List UInt8} (hlead : ∀ b ∈ lead, blankByte [] b)
      (hbody : Separated strtod body values) (htail : ∀ b ∈ tail, blankByte [] b) :
      ListForm strtod values (lead ++ (body ++ tail))
  | bracketed {lead pad body trail tail : List UInt8} (hlead : ∀ b ∈ lead, blankByte [] b)
      (hpad : ∀ b ∈ pad, blankByte [] b) (hbody : Separated strtod body values)
      (htrail : ∀ b ∈ trail, blankByte [] b) (htail : ∀ b ∈ tail, blankByte [] b) :
      ListForm strtod values (lead ++ 91 :: (pad ++ (body ++ (trail ++ 93 :: tail))))

/-- The payload asks for the values of the configuration. -/
def TriggerForm (payload : List UInt8) : Prop :=
  payload.dropWhile (blankByte []) = [] ∨
    sameWord (payload.dropWhile (blankByte [])) "default" ∨
    sameWord (payload.dropWhile (blankByte [])) "defaults"

/-- Exactly the lists with a value for each channel are accepted, each channel gets its value,
and any other payload that is not the trigger form changes nothing on the bus. -/
structure BlockContract (numerals : Numerals) (write : AckedWrite) (payload : List UInt8) :
    Prop where
  accepts : ∀ values, mqttPayloadBlock numerals write.toWriteEntry payload = .ok (some values) ↔
    ListForm numerals.strtod values payload ∧ values.length = write.channels.length
  writes : ∀ values, ListForm numerals.strtod values payload →
    values.length = write.channels.length → ∀ (s : WriteBridge) (w : ℕ) (env : WriteEnv),
      serveEntry numerals payload s w write env =
        modbusWritePost numerals s w write (some values) env ∧
      ∀ (i : ℕ) (channel : WriteChannel) (value : Double), write.channels[i]? = some channel →
        values[i]? = some value →
        (blockValues write.toWriteEntry (some values))[i]? = some (channel, some value)
  refuses : (∀ values, ¬ (ListForm numerals.strtod values payload ∧
      values.length = write.channels.length)) → ¬ TriggerForm payload →
    ∀ (s : WriteBridge) (w : ℕ) (env : WriteEnv),
      (serveEntry numerals payload s w write env).context = s.context

/-- The text falls into numbers, each with what is skipped in front of it, what is skipped behind
the last, and the rest from the first closing bracket on. -/
inductive Scanned (strtod : List UInt8 → Double × ℕ) :
    List UInt8 → List (List UInt8 × List UInt8) → List UInt8 → List UInt8 → List Double → Prop
  | stop {trail close : List UInt8} (htrail : ∀ b ∈ trail, blankByte [44] b)
      (hclose : ∀ b ∈ close.head?, b = 93) : Scanned strtod (trail ++ close) [] trail close []
  | next {gap number rest : List UInt8} {items : List (List UInt8 × List UInt8)}
      {trail close : List UInt8} {value : Double} {values : List Double}
      (hgap : ∀ b ∈ gap, blankByte [44] b) (hne : number ≠ [])
      (hhead : ∀ b ∈ number.head?, ¬ blankByte [44] b)
      (hread : strtod (number ++ rest) = (value, number.length))
      (h : Scanned strtod rest items trail close values) :
      Scanned strtod (gap ++ (number ++ rest)) ((gap, number) :: items) trail close
        (value :: values)

/-- A payload as it is scanned: blanks, a bracket perhaps, the numbers, and behind them blanks
and closing brackets. -/
inductive Reading (strtod : List UInt8 → Double × ℕ) (opened : Bool)
    (items : List (List UInt8 × List UInt8)) (trail close : List UInt8) (values : List Double) :
    List UInt8 → Prop
  | mk {lead text : List UInt8} (hlead : ∀ b ∈ lead, blankByte [] b)
      (htext : Scanned strtod text items trail close values)
      (hclose : ∀ b ∈ close, blankByte [93] b)
      (hopened : opened = false → ∀ b ∈ text.head?, ¬ blankByte [] b) :
      Reading strtod opened items trail close values
        (lead ++ ((if opened then [91] else []) ++ text))

theorem Scanned.close_head {strtod : List UInt8 → Double × ℕ} {text : List UInt8}
    {items : List (List UInt8 × List UInt8)} {trail close : List UInt8} {values : List Double}
    (h : Scanned strtod text items trail close values) : ∀ b ∈ close.head?, b = 93 := by
  induction h with
  | stop _ hclose => exact hclose
  | next _ _ _ _ _ ih => exact ih

theorem Scanned.trail_separators {strtod : List UInt8 → Double × ℕ} {text : List UInt8}
    {items : List (List UInt8 × List UInt8)} {trail close : List UInt8} {values : List Double}
    (h : Scanned strtod text items trail close values) : ∀ b ∈ trail, blankByte [44] b := by
  induction h with
  | stop htrail => exact htrail
  | next _ _ _ _ _ ih => exact ih

/-- What the scanner lets pass although the grammar does not. -/
inductive Slip (opened : Bool) (items : List (List UInt8 × List UInt8)) (trail close : List UInt8)
    (values : List Double) : Prop
  /-- a value is an infinity or not a number -/
  | infinite (h : none ∈ values)
  /-- nothing stands between two numbers -/
  | joined {item : List UInt8 × List UInt8} (h : item ∈ items.tail) (hgap : item.1 = [])
  /-- a comma stands in front of the first number -/
  | leading {item : List UInt8 × List UInt8} (h : item ∈ items.head?) (hcomma : 44 ∈ item.1)
  /-- a comma stands behind the last number -/
  | trailing (h : 44 ∈ trail)
  /-- the brackets do not match, or there are too many -/
  | brackets (h : close.count 93 ≠ if opened then 1 else 0)

theorem blankByte_iff {more : List UInt8} {b : UInt8} :
    blankByte more b ↔ blankByte [] b ∨ b ∈ more := by
  unfold blankByte
  simp only [decide_eq_true_eq, List.not_mem_nil, or_false]
  tauto

theorem separator_end {b : UInt8} (h : blankByte [44] b) : numeralEnd b := by
  rcases blankByte_iff.1 h with hblank | hcomma
  · exact blankByte_iff.2 (.inl hblank)
  · obtain rfl := List.mem_singleton.1 hcomma
    decide

theorem separators_end {seps rest : List UInt8} (hseps : ∀ b ∈ seps, blankByte [44] b)
    (hne : seps ≠ []) : ∀ b ∈ (seps ++ rest).head?, numeralEnd b := by
  obtain ⟨c, seps, rfl⟩ := List.exists_cons_of_ne_nil hne
  intro b hb
  obtain rfl := Option.some.inj hb
  exact separator_end (hseps c List.mem_cons_self)

theorem bracket_separator : ¬ blankByte [44] 93 := by decide

theorem close_separator {close : List UInt8} (hclose : ∀ b ∈ close.head?, b = 93) :
    ∀ b ∈ close.head?, ¬ blankByte [44] b := by
  intro b hb
  rw [hclose b hb]
  exact bracket_separator

variable {numerals : Numerals}

theorem blockLoop_turn (payload : List UInt8) (values : List Double) {seps p : List UInt8}
    (hseps : ∀ b ∈ seps, blankByte [44] b) (hp : ∀ b ∈ p.head?, ¬ blankByte [44] b) :
    blockLoop numerals payload values (seps ++ p) =
      if p = [] ∨ p.head? = some 93 then .ok (values, p)
      else if 123 ≤ values.length then
        .error (ascii "more values than the 123 this block holds".toList)
      else if (numerals.strtod p).2 = 0 then
        .error (why (quoting payload " is not a list of numbers"))
      else blockLoop numerals payload (values ++ [(numerals.strtod p).1])
        (p.drop (numerals.strtod p).2) := by
  have hdrop := (span_append hseps hp).2
  rw [blockLoop]
  split
  · rename_i hnil
    rw [hdrop] at hnil
    rw [hnil, if_pos (.inl rfl)]
  · rename_i b rest hcons
    rw [hdrop] at hcons
    subst hcons
    by_cases hbracket : b = 93
    · rw [if_pos hbracket, if_pos (.inr (by rw [hbracket]; rfl))]
    · have hopen : ¬ (b :: rest = [] ∨ (b :: rest).head? = some 93) := by
        rintro (h | h)
        · exact absurd h (by simp)
        · exact hbracket (Option.some.inj h)
      rw [if_neg hbracket, if_neg hopen]

/-- A text that is scanned to numbers is read to the end, as long as there is room. -/
theorem Scanned.blockLoop (hstrtod : StrtodContract numerals.strtod) {p : List UInt8}
    {items : List (List UInt8 × List UInt8)} {trail close : List UInt8} {values : List Double}
    (h : Scanned numerals.strtod p items trail close values) (payload : List UInt8)
    {before : List Double} (hroom : before.length + values.length ≤ 123) :
    Modbusmq.blockLoop numerals payload before p = .ok (before ++ values, close) := by
  induction h generalizing before with
  | @stop trail close htrail hclose =>
    have hstop : close = [] ∨ close.head? = some 93 := by
      cases close with
      | nil => exact .inl rfl
      | cons b close => exact .inr (congrArg some (hclose b rfl))
    rw [blockLoop_turn payload before htrail (close_separator hclose), if_pos hstop,
      List.append_nil]
  | @next gap number rest items trail close value values hgap hne hhead hread _ ih =>
    obtain ⟨b, number, rfl⟩ := List.exists_cons_of_ne_nil hne
    have hnumeral := hstrtod.headed b (number ++ rest) (by
      rw [← List.cons_append, hread]
      exact Nat.succ_pos _)
    have hgo : ¬ (b :: number ++ rest = [] ∨ (b :: number ++ rest).head? = some 93) := by
      rintro (h | h)
      · exact absurd h (by simp)
      · obtain rfl : b = 93 := Option.some.inj h
        exact absurd hnumeral (by decide)
    have hflush : ∀ c ∈ (b :: number ++ rest).head?, ¬ blankByte [44] c := hhead
    simp only [List.length_cons] at hroom
    rw [blockLoop_turn payload before hgap hflush, if_neg hgo, if_neg (by omega), hread,
      if_neg (by simp)]
    dsimp only
    rw [List.drop_left, ih (by rw [List.length_append, List.length_singleton]; omega),
      List.append_assoc]
    rfl

theorem blockLoop_scanned (hstrtod : StrtodContract numerals.strtod) (payload : List UInt8)
    {before values : List Double} {p close : List UInt8}
    (h : blockLoop numerals payload before p = .ok (values, close)) :
    ∃ items trail read, Scanned numerals.strtod p items trail close read ∧
      values = before ++ read := by
  induction hn : p.length using Nat.strong_induction_on generalizing before p with
  | _ n ih =>
    have hseps : ∀ b ∈ p.takeWhile (blankByte [44]), blankByte [44] b := fun b hb =>
      List.all_eq_true.1 List.all_takeWhile b hb
    have hstop : ∀ b ∈ (p.dropWhile (blankByte [44])).head?, ¬ blankByte [44] b := by
      intro b hb
      have hnot := List.head?_dropWhile_not (blankByte [44]) p
      rw [Option.mem_def.1 hb] at hnot
      simpa using hnot
    have hsplit := List.takeWhile_append_dropWhile (p := blankByte [44]) (l := p)
    rw [← hsplit, blockLoop_turn payload before hseps hstop] at h
    split_ifs at h with hend hfull hnone
    · obtain ⟨rfl, rfl⟩ := Prod.mk.inj (Except.ok.inj h)
      refine ⟨[], p.takeWhile (blankByte [44]), [], ?_, (List.append_nil _).symm⟩
      nth_rewrite 1 [← hsplit]
      refine .stop hseps fun b hb => ?_
      rcases hend with hnil | hbracket
      · rw [hnil] at hb
        exact absurd hb (by simp)
      · exact (Option.some.inj (hbracket.symm.trans hb)).symm
    · have hle := hstrtod.bounded (p.dropWhile (blankByte [44]))
      have hshort := (List.dropWhile_suffix (blankByte [44]) (l := p)).length_le
      obtain ⟨items, trail, read, hscanned, hvalues⟩ := ih
        ((p.dropWhile (blankByte [44])).drop (numerals.strtod (p.dropWhile (blankByte [44]))).2).length
        (by rw [List.length_drop]; omega) h rfl
      refine ⟨(p.takeWhile (blankByte [44]), (p.dropWhile (blankByte [44])).take
        (numerals.strtod (p.dropWhile (blankByte [44]))).2) :: items, trail,
        (numerals.strtod (p.dropWhile (blankByte [44]))).1 :: read, ?_, ?_⟩
      · have htake := List.take_append_drop (numerals.strtod (p.dropWhile (blankByte [44]))).2
          (p.dropWhile (blankByte [44]))
        have hlength : ((p.dropWhile (blankByte [44])).take
            (numerals.strtod (p.dropWhile (blankByte [44]))).2).length =
              (numerals.strtod (p.dropWhile (blankByte [44]))).2 := by
          rw [List.length_take, Nat.min_eq_left hle]
        nth_rewrite 1 [← hsplit, ← htake]
        refine .next hseps (List.ne_nil_of_length_pos (by omega)) (fun b hb => hstop b ?_) ?_
          hscanned
        · rw [List.head?_take, if_neg hnone] at hb
          exact hb
        · rw [htake, hlength]
      · rw [hvalues, List.append_assoc]
        rfl

theorem Scanned.unique {strtod : List UInt8 → Double × ℕ} (hstrtod : StrtodContract strtod)
    {p p' : List UInt8} {items items' : List (List UInt8 × List UInt8)}
    {trail trail' close close' : List UInt8} {values values' : List Double}
    (h : Scanned strtod p items trail close values)
    (h' : Scanned strtod p' items' trail' close' values') (hp : p = p') :
    items = items' ∧ trail = trail' ∧ close = close' ∧ values = values' := by
  -- a number begins where a text that is over has its end or a bracket
  have hnumber : ∀ {close number rest : List UInt8} {value : Double},
      (∀ b ∈ close.head?, b = 93) → number ≠ [] →
      strtod (number ++ rest) = (value, number.length) → close ≠ number ++ rest := by
    rintro _ number rest value hclose hne hread rfl
    obtain ⟨b, number, rfl⟩ := List.exists_cons_of_ne_nil hne
    have hnumeral := hstrtod.headed b (number ++ rest) (by
      rw [← List.cons_append, hread]
      exact Nat.succ_pos _)
    obtain rfl := hclose b rfl
    exact absurd hnumeral (by decide)
  have hhead' : ∀ {number : List UInt8} (rest : List UInt8), number ≠ [] →
      (∀ b ∈ number.head?, ¬ blankByte [44] b) →
      ∀ b ∈ (number ++ rest).head?, ¬ blankByte [44] b := by
    intro number rest hne hhead b hb
    obtain ⟨c, number, rfl⟩ := List.exists_cons_of_ne_nil hne
    exact hhead b hb
  induction h generalizing p' items' trail' close' values' with
  | @stop trail close htrail hclose =>
    obtain ⟨htake, hdrop⟩ := span_append htrail (close_separator hclose)
    cases h' with
    | @stop trail' close' htrail' hclose' =>
      obtain ⟨htake', hdrop'⟩ := span_append htrail' (close_separator hclose')
      rw [hp] at htake hdrop
      exact ⟨rfl, htake.symm.trans htake', hdrop.symm.trans hdrop', rfl⟩
    | @next gap number rest items' _ _ value' values' hgap hne hhead hread h' =>
      obtain ⟨-, hdrop'⟩ := span_append hgap (hhead' rest hne hhead)
      rw [hp] at hdrop
      exact absurd (hdrop.symm.trans hdrop') (hnumber hclose hne hread)
  | @next gap number rest items _ _ value values hgap hne hhead hread hrest ih =>
    obtain ⟨htake, hdrop⟩ := span_append hgap (hhead' rest hne hhead)
    cases h' with
    | @stop trail' close' htrail' hclose' =>
      obtain ⟨-, hdrop'⟩ := span_append htrail' (close_separator hclose')
      rw [hp] at hdrop
      exact absurd (hdrop'.symm.trans hdrop) (hnumber hclose' hne hread)
    | @next gap' number' rest' items' _ _ value' values' hgap' hne' hhead'' hread' h' =>
      obtain ⟨htake', hdrop'⟩ := span_append hgap' (hhead' rest' hne' hhead'')
      rw [hp] at htake hdrop
      have hsame := hdrop.symm.trans hdrop'
      rw [hsame, hread'] at hread
      obtain ⟨rfl, hlength⟩ := Prod.mk.inj hread
      obtain ⟨rfl, rfl⟩ := List.append_inj hsame hlength.symm
      obtain rfl := htake.symm.trans htake'
      obtain ⟨rfl, rfl, rfl, rfl⟩ := ih h' rfl
      exact ⟨rfl, rfl, rfl, rfl⟩

theorem scanned_head {strtod : List UInt8 → Double × ℕ} (hstrtod : StrtodContract strtod)
    {text : List UInt8} {items : List (List UInt8 × List UInt8)} {trail close : List UInt8}
    {values : List Double} (h : Scanned strtod text items trail close values) :
    ∀ b ∈ text.head?, blankByte [44] b ∨ numeralHead b ∨ b = 93 := by
  intro b hb
  cases h with
  | stop htrail hclose =>
    cases trail with
    | nil => exact .inr (.inr (hclose b hb))
    | cons c trail => exact .inl (htrail b (List.mem_of_mem_head? (Option.some.inj hb ▸ rfl)))
  | @next gap number rest _ _ _ value _ hgap hne hhead hread =>
    cases gap with
    | nil =>
      obtain ⟨c, number, rfl⟩ := List.exists_cons_of_ne_nil hne
      obtain rfl : c = b := Option.some.inj hb
      refine .inr (.inl (hstrtod.headed c (number ++ rest) ?_))
      rw [← List.cons_append, hread]
      exact Nat.succ_pos _
    | cons c gap => exact .inl (hgap b (List.mem_of_mem_head? (Option.some.inj hb ▸ rfl)))

theorem scanned_bracket {strtod : List UInt8 → Double × ℕ} (hstrtod : StrtodContract strtod)
    {text : List UInt8} {items : List (List UInt8 × List UInt8)} {trail close : List UInt8}
    {values : List Double} (h : Scanned strtod text items trail close values) :
    text.head? ≠ some 91 := by
  intro hb
  rcases scanned_head hstrtod h 91 hb with hsep | hnumeral | hbracket
  · exact absurd hsep (by decide)
  · exact absurd hnumeral (by decide)
  · exact absurd hbracket (by decide)

theorem Reading.behind {strtod : List UInt8 → Double × ℕ} (hstrtod : StrtodContract strtod)
    {opened : Bool} {items : List (List UInt8 × List UInt8)} {trail close : List UInt8}
    {values : List Double} {payload : List UInt8}
    (h : Reading strtod opened items trail close values payload) :
    ∃ text, Scanned strtod text items trail close values ∧ (∀ b ∈ close, blankByte [93] b) ∧
      (opened = false → ∀ b ∈ text.head?, ¬ blankByte [] b) ∧
      payload.dropWhile (blankByte []) = (if opened then [91] else []) ++ text ∧
      (opened = true ↔ (payload.dropWhile (blankByte [])).head? = some 91) := by
  obtain ⟨hlead, htext, hclose, hopened⟩ := h
  rename_i lead text
  have hflush : ∀ b ∈ ((if opened then [91] else []) ++ text).head?, ¬ blankByte [] b := by
    cases opened with
    | true =>
      intro b hb
      obtain rfl := Option.some.inj hb
      decide
    | false => exact hopened rfl
  have hdrop := (span_append hlead hflush).2
  refine ⟨text, htext, hclose, hopened, hdrop, ?_⟩
  rw [hdrop]
  cases opened with
  | true => exact iff_of_true rfl rfl
  | false => exact iff_of_false (by simp) (scanned_bracket hstrtod htext)

theorem Reading.unique {strtod : List UInt8 → Double × ℕ} (hstrtod : StrtodContract strtod)
    {opened opened' : Bool} {items items' : List (List UInt8 × List UInt8)}
    {trail trail' close close' : List UInt8} {values values' : List Double} {payload : List UInt8}
    (h : Reading strtod opened items trail close values payload)
    (h' : Reading strtod opened' items' trail' close' values' payload) :
    opened = opened' ∧ items = items' ∧ trail = trail' ∧ close = close' ∧ values = values' := by
  obtain ⟨text, htext, -, -, hbehind, hopened⟩ := h.behind hstrtod
  obtain ⟨text', htext', -, -, hbehind', hopened'⟩ := h'.behind hstrtod
  obtain rfl : opened = opened' := Bool.eq_iff_iff.2 (hopened.trans hopened'.symm)
  rw [hbehind] at hbehind'
  exact ⟨rfl, htext.unique hstrtod htext' (List.append_cancel_left hbehind')⟩

theorem sameWord_head {text : List UInt8} {word : String} {b : UInt8} {rest : List UInt8}
    (hword : ascii word.toList = b :: rest) (hsame : sameWord text word) :
    ∃ c more, text = c :: more ∧ lowerByte c = b := by
  have hlower : text.map lowerByte = b :: rest := by
    rw [← hword]
    exact of_decide_eq_true hsame
  cases text with
  | nil => exact absurd hlower (by simp)
  | cons c more => exact ⟨c, more, rfl, List.head_eq_of_cons_eq hlower⟩

theorem Reading.not_trigger {strtod : List UInt8 → Double × ℕ} (hstrtod : StrtodContract strtod)
    {opened : Bool} {items : List (List UInt8 × List UInt8)} {trail close : List UInt8}
    {values : List Double} {payload : List UInt8}
    (h : Reading strtod opened items trail close values payload) (hne : values ≠ []) :
    ¬ TriggerForm payload := by
  obtain ⟨text, htext, -, hflush, hbehind, -⟩ := h.behind hstrtod
  have hnonempty : text ≠ [] := by
    rintro rfl
    generalize hnil : ([] : List UInt8) = text at htext
    cases htext with
    | stop => exact hne rfl
    | next _ hnumber =>
      exact hnumber (List.append_eq_nil_iff.1 (List.append_eq_nil_iff.1 hnil.symm).2).1
  have hhead : ∀ c ∈ ((if opened then [91] else []) ++ text).head?, lowerByte c ≠ 100 := by
    intro c hc
    cases opened with
    | true =>
      obtain rfl := Option.some.inj hc
      decide
    | false =>
      rcases scanned_head hstrtod htext c hc with hsep | hnumeral | rfl
      · rcases blankByte_iff.1 hsep with hblank | hcomma
        · exact absurd hblank (hflush rfl c hc)
        · obtain rfl := List.mem_singleton.1 hcomma
          decide
      · intro heq
        rcases numeralHead_lower hnumeral with hlow | hi | hn
        · rw [heq] at hlow
          exact absurd hlow (by decide)
        · rw [heq] at hi
          exact absurd hi (by decide)
        · rw [heq] at hn
          exact absurd hn (by decide)
      · decide
  have hword : ∀ word rest, ascii (String.toList word) = 100 :: rest →
      ¬ sameWord ((if opened then [91] else []) ++ text) word := by
    intro word rest hascii hsame
    obtain ⟨c, more, htext, hlower⟩ := sameWord_head hascii hsame
    exact hhead c (by rw [htext]; rfl) hlower
  unfold TriggerForm
  rw [hbehind]
  rintro (hnil | hdefault | hdefaults)
  · exact hnonempty (List.append_eq_nil_iff.1 hnil).2
  · exact hword "default" [101, 102, 97, 117, 108, 116] (by decide +kernel) hdefault
  · exact hword "defaults" [101, 102, 97, 117, 108, 116, 115] (by decide +kernel) hdefaults

/-- The part of a payload that the loop reads. -/
def listText (payload : List UInt8) : List UInt8 :=
  if (payload.dropWhile (blankByte [])).head? = some 91 then
    (payload.dropWhile (blankByte [])).tail
  else payload.dropWhile (blankByte [])

theorem mqttPayloadBlock_untriggered {write : WriteEntry} {payload : List UInt8}
    (htrigger : ¬ TriggerForm payload) :
    mqttPayloadBlock numerals write payload =
      match blockLoop numerals payload [] (listText payload) with
      | .error text => .error text
      | .ok (values, p) =>
        if p.dropWhile (blankByte [93]) ≠ [] then
          .error (why (quoting payload " has trailing junk"))
        else if values.length ≠ write.channels.length then
          .error (ascii (decimal values.length) ++ ascii " value(s) for a block of ".toList ++
            ascii (decimal write.channels.length) ++ ascii " channels".toList)
        else .ok (some values) := if_neg htrigger

theorem mqttPayloadBlock_loop {write : WriteEntry} {payload : List UInt8} {values : List Double} :
    mqttPayloadBlock numerals write payload = .ok (some values) ↔ ¬ TriggerForm payload ∧
      ∃ close, blockLoop numerals payload [] (listText payload) = .ok (values, close) ∧
        (∀ b ∈ close, blankByte [93] b) ∧ values.length = write.channels.length := by
  by_cases htrigger : TriggerForm payload
  · have hdefaults : mqttPayloadBlock numerals write payload =
        if write.hasDefaults then .ok none
        else .error
          (ascii "no value list, and not every channel has a default to fall back on".toList) :=
      if_pos htrigger
    refine iff_of_false ?_ fun h => h.1 htrigger
    rw [hdefaults]
    split_ifs <;> simp
  rw [mqttPayloadBlock_untriggered htrigger, and_iff_right htrigger]
  cases hloop : blockLoop numerals payload [] (listText payload) with
  | error text => exact iff_of_false (by simp) (by simp)
  | ok read =>
    obtain ⟨read, close⟩ := read
    dsimp only
    constructor
    · intro h
      by_cases hjunk : close.dropWhile (blankByte [93]) ≠ []
      · rw [if_pos hjunk] at h
        exact absurd h (by simp)
      by_cases hlength : read.length ≠ write.channels.length
      · rw [if_neg hjunk, if_pos hlength] at h
        exact absurd h (by simp)
      rw [if_neg hjunk, if_neg hlength] at h
      obtain rfl := Option.some.inj (Except.ok.inj h)
      exact ⟨close, rfl, List.dropWhile_eq_nil_iff.1 (not_not.1 hjunk), not_not.1 hlength⟩
    · rintro ⟨close', hsame, hclose, hlength⟩
      obtain ⟨rfl, rfl⟩ := Prod.mk.inj (Except.ok.inj hsame)
      rw [if_neg (not_not.2 (List.dropWhile_eq_nil_iff.2 hclose)), if_neg (not_not.2 hlength)]

theorem mqttPayloadBlock_list (hstrtod : StrtodContract numerals.strtod) {write : WriteEntry}
    (hblock : write.channels ≠ []) (hroom : write.channels.length ≤ 123) (payload : List UInt8)
    (values : List Double) :
    mqttPayloadBlock numerals write payload = .ok (some values) ↔
      ∃ opened items trail close, Reading numerals.strtod opened items trail close values payload ∧
        values.length = write.channels.length := by
  rw [mqttPayloadBlock_loop]
  constructor
  · rintro ⟨-, close, hloop, hclose, hlength⟩
    obtain ⟨items, trail, read, hscanned, hread⟩ := blockLoop_scanned hstrtod payload hloop
    rw [List.nil_append] at hread
    subst hread
    have hlead : ∀ b ∈ payload.takeWhile (blankByte []), blankByte [] b := fun b hb =>
      List.all_eq_true.1 List.all_takeWhile b hb
    have hsplit := List.takeWhile_append_dropWhile (p := blankByte []) (l := payload)
    by_cases hopened : (payload.dropWhile (blankByte [])).head? = some 91
    · have htext : payload.dropWhile (blankByte []) = [91] ++ listText payload := by
        unfold listText
        rw [if_pos hopened]
        exact (List.cons_head?_tail hopened).symm
      refine ⟨true, items, trail, close, ?_, hlength⟩
      rw [← hsplit, htext]
      exact .mk hlead hscanned hclose (by simp)
    · have htext : payload.dropWhile (blankByte []) = [] ++ listText payload := by
        unfold listText
        rw [if_neg hopened, List.nil_append]
      refine ⟨false, items, trail, close, ?_, hlength⟩
      have hflush : ∀ b ∈ (listText payload).head?, ¬ blankByte [] b := by
        intro b hb
        have hnot := List.head?_dropWhile_not (blankByte []) payload
        rw [htext, List.nil_append, Option.mem_def.1 hb] at hnot
        simpa using hnot
      rw [← hsplit, htext]
      exact .mk hlead hscanned hclose fun _ => hflush
  · rintro ⟨opened, items, trail, close, hreading, hlength⟩
    have hne : values ≠ [] := by
      rintro rfl
      exact hblock (List.length_eq_zero_iff.1 hlength.symm)
    obtain ⟨text, htext, hclose, -, hbehind, hopened⟩ := hreading.behind hstrtod
    have hlist : listText payload = text := by
      unfold listText
      cases opened with
      | true =>
        rw [if_pos (hopened.1 rfl), hbehind]
        rfl
      | false =>
        rw [if_neg fun h => absurd (hopened.2 h) (by decide), hbehind]
        rfl
    refine ⟨hreading.not_trigger hstrtod hne, close, ?_, hclose, hlength⟩
    rw [hlist, htext.blockLoop hstrtod payload (by simp only [List.length_nil]; omega),
      List.nil_append]

theorem Scanned.separated {strtod : List UInt8 → Double × ℕ} (hstrtod : StrtodContract strtod)
    {rest : List UInt8} {items : List (List UInt8 × List UInt8)} {trail close : List UInt8}
    {values : List Double} (h : Scanned strtod rest items trail close values)
    {number : List UInt8} {value : Double} (hne : number ≠ [])
    (hhead : ∀ b ∈ number.head?, ¬ blankByte [44] b)
    (hread : strtod (number ++ rest) = (value, number.length))
    (hgaps : ∀ item ∈ items, item.1 ≠ []) (hfinite : none ∉ value :: values) :
    ∃ body, Separated strtod body (value :: values) ∧ number ++ rest = body ++ (trail ++ close) := by
  have hnumber : ∀ {number rest : List UInt8} {value : Double}, number ≠ [] →
      (∀ b ∈ number.head?, ¬ blankByte [44] b) →
      strtod (number ++ rest) = (value, number.length) → value ≠ none →
      ∃ q : ℚ, value = some q ∧ ListNumber strtod number q := by
    intro number rest value hne hhead hread hvalue
    obtain ⟨q, rfl⟩ := Option.ne_none_iff_exists'.1 hvalue
    have hused : 0 < (strtod (number ++ rest)).2 := by
      rw [hread]
      exact List.length_pos_of_ne_nil hne
    have htaken := hstrtod.isNumber_taken hused
    rw [hread, List.take_left] at htaken
    exact ⟨q, rfl, htaken, fun b hb hblank => hhead b hb (blankByte_iff.2 (.inl hblank))⟩
  induction h generalizing number value with
  | stop htrail hclose =>
    obtain ⟨q, rfl, hlist⟩ := hnumber hne hhead hread fun h => hfinite (h ▸ List.mem_cons_self)
    exact ⟨number, .single hlist, rfl⟩
  | @next gap number' rest' items trail close value' values hgap hne' hhead' hread' _ ih =>
    obtain ⟨q, rfl, hlist⟩ := hnumber hne hhead hread fun h => hfinite (h ▸ List.mem_cons_self)
    obtain ⟨body, hbody, hsplit⟩ := ih hne' hhead' hread'
      (fun item hitem => hgaps item (List.mem_cons_of_mem _ hitem))
      fun h => hfinite (List.mem_cons_of_mem _ h)
    refine ⟨number ++ (gap ++ body),
      .cons hlist (hgaps _ List.mem_cons_self) hgap hbody, ?_⟩
    rw [hsplit]
    simp only [List.append_assoc]

theorem blank_of_separators {seps : List UInt8} (hseps : ∀ b ∈ seps, blankByte [44] b)
    (hcomma : 44 ∉ seps) : ∀ b ∈ seps, blankByte [] b := by
  intro b hb
  refine (blankByte_iff.1 (hseps b hb)).resolve_right fun h => hcomma ?_
  rwa [← List.mem_singleton.1 h]

/-- A reading without a slip is a list. -/
theorem Reading.listForm {strtod : List UInt8 → Double × ℕ} (hstrtod : StrtodContract strtod)
    {opened : Bool} {items : List (List UInt8 × List UInt8)} {trail close : List UInt8}
    {values : List Double} {payload : List UInt8}
    (h : Reading strtod opened items trail close values payload) (hne : values ≠ [])
    (hclean : ¬ Slip opened items trail close values) : ListForm strtod values payload := by
  have hcount : close.count 93 = if opened then 1 else 0 := by
    by_contra hno
    exact hclean (.brackets hno)
  have htrailComma : 44 ∉ trail := fun h => hclean (.trailing h)
  obtain ⟨hlead, htext, hclose, -⟩ := h
  rename_i lead text
  have hhead := htext.close_head
  have htrail := blank_of_separators htext.trail_separators htrailComma
  cases htext with
  | stop => exact absurd rfl hne
  | @next gap number rest items _ _ value values hgap hnumber hflush hread hscanned =>
    have hpad := blank_of_separators hgap fun hcomma => hclean (.leading rfl hcomma)
    obtain ⟨body, hbody, hsplit⟩ := hscanned.separated hstrtod hnumber hflush hread
      (fun item hitem hnil => hclean (.joined hitem hnil)) fun hnone => hclean (.infinite hnone)
    rw [hsplit]
    cases opened with
    | false =>
      have hempty : close = [] := by
        cases close with
        | nil => rfl
        | cons b close =>
          obtain rfl := hhead b rfl
          simp at hcount
      subst hempty
      have hblanks : ∀ b ∈ lead ++ gap, blankByte [] b := fun b hb =>
        (List.mem_append.1 hb).elim (hlead b) (hpad b)
      simpa using ListForm.bare hblanks hbody htrail
    | true =>
      cases close with
      | nil => simp at hcount
      | cons b tail =>
        obtain rfl := hhead b rfl
        have htail : ∀ b ∈ tail, blankByte [] b := by
          intro b hb
          refine (blankByte_iff.1 (hclose b (List.mem_cons_of_mem _ hb))).resolve_right fun h => ?_
          obtain rfl := List.mem_singleton.1 h
          have hpos := List.count_pos_iff.2 hb
          rw [List.count_cons_self] at hcount
          simp only [if_true] at hcount
          omega
        exact ListForm.bracketed hlead hpad hbody htrail htail

theorem Separated.scanned {strtod : List UInt8 → Double × ℕ} (hstrtod : StrtodContract strtod)
    {body : List UInt8} {values : List Double} (h : Separated strtod body values)
    {pad trail close : List UInt8} (hpad : ∀ b ∈ pad, blankByte [44] b)
    (htrail : ∀ b ∈ trail, blankByte [44] b) (hclose : ∀ b ∈ close.head?, b = 93) :
    ∃ number items, Scanned strtod (pad ++ (body ++ (trail ++ close))) ((pad, number) :: items) trail
      close values ∧ (∀ item ∈ items, item.1 ≠ []) ∧ none ∉ values := by
  have hflush : ∀ {text : List UInt8} {value : ℚ}, ListNumber strtod text value →
      ∀ b ∈ text.head?, ¬ blankByte [44] b := by
    intro text value hlist b hb hsep
    rcases blankByte_iff.1 hsep with hblank | hcomma
    · exact hlist.flush b hb hblank
    · obtain rfl := List.mem_singleton.1 hcomma
      obtain ⟨c, rest, rfl, hnumeral⟩ := hlist.number.headed hstrtod
      obtain rfl := Option.some.inj hb
      exact absurd hnumeral (by decide)
  induction h generalizing pad with
  | @single text value hlist =>
    have hend : ∀ b ∈ (trail ++ close).head?, numeralEnd b := by
      cases trail with
      | nil =>
        intro b hb
        rw [hclose b hb]
        decide
      | cons c trail => exact separators_end htrail (by simp)
    exact ⟨text, [], .next hpad hlist.number.1 (hflush hlist)
      (hstrtod.isNumber_ended hlist.number hend)
      (.stop htrail hclose), nofun, by simp⟩
  | @cons text gap rest value values hlist hgap hseps _ ih =>
    obtain ⟨number, items, hscanned, hgaps, hfinite⟩ := ih hseps
    refine ⟨text, (gap, number) :: items, ?_, ?_, ?_⟩
    · have hread : strtod (text ++ (gap ++ (rest ++ (trail ++ close)))) =
          (some value, text.length) :=
        hstrtod.isNumber_ended hlist.number (separators_end hseps hgap)
      have hnext := Scanned.next hpad hlist.number.1 (hflush hlist) hread hscanned
      simpa only [List.append_assoc] using hnext
    · exact List.forall_mem_cons.2 ⟨hgap, hgaps⟩
    · simpa using hfinite

/-- A list is read without a slip. -/
theorem ListForm.reading {strtod : List UInt8 → Double × ℕ} (hstrtod : StrtodContract strtod)
    {values : List Double} {payload : List UInt8} (h : ListForm strtod values payload) :
    ∃ opened items trail close, Reading strtod opened items trail close values payload ∧
      ¬ Slip opened items trail close values := by
  have hseps : ∀ {blanks : List UInt8}, (∀ b ∈ blanks, blankByte [] b) →
      ∀ b ∈ blanks, blankByte [44] b := fun h b hb => blankByte_iff.2 (.inl (h b hb))
  have hcomma : ∀ {blanks : List UInt8}, (∀ b ∈ blanks, blankByte [] b) → 44 ∉ blanks :=
    fun h hb => absurd (h 44 hb) (by decide)
  have hbracket : ∀ {blanks : List UInt8}, (∀ b ∈ blanks, blankByte [] b) → blanks.count 93 = 0 :=
    fun h => List.count_eq_zero.2 fun hb => absurd (h 93 hb) (by decide)
  cases h with
  | @bare lead body tail hlead hbody htail =>
    have hopen : ∀ b ∈ ([] : List UInt8).head?, b = 93 := nofun
    obtain ⟨number, items, hscanned, hgaps, hfinite⟩ :=
      hbody.scanned hstrtod (List.forall_mem_nil _) (hseps htail) hopen
    rw [List.nil_append, List.append_nil] at hscanned
    refine ⟨false, _, _, _, .mk hlead hscanned nofun fun _ b hb => ?_, ?_⟩
    · exact hbody.flush b hb
    · rintro (hnone | ⟨hmem, hnil⟩ | ⟨hmem, hmemcomma⟩ | htrail | hcount)
      · exact hfinite hnone
      · exact hgaps _ hmem hnil
      · obtain rfl := Option.some.inj hmem
        exact absurd hmemcomma List.not_mem_nil
      · exact hcomma htail htrail
      · exact hcount rfl
  | @bracketed lead pad body trail tail hlead hpad hbody htrail htail =>
    have hclosed : ∀ b ∈ (93 :: tail).head?, b = 93 := by simp
    obtain ⟨number, items, hscanned, hgaps, hfinite⟩ :=
      hbody.scanned hstrtod (hseps hpad) (hseps htrail) hclosed
    refine ⟨true, _, _, _, .mk hlead hscanned ?_ nofun, ?_⟩
    · exact List.forall_mem_cons.2 ⟨by decide, fun b hb => blankByte_iff.2 (.inl (htail b hb))⟩
    · rintro (hnone | ⟨hmem, hnil⟩ | ⟨hmem, hmemcomma⟩ | hmemtrail | hcount)
      · exact hfinite hnone
      · exact hgaps _ hmem hnil
      · obtain rfl := Option.some.inj hmem
        exact hcomma hpad hmemcomma
      · exact hcomma htrail hmemtrail
      · apply hcount
        rw [List.count_cons_self, hbracket htail]
        rfl

/-- A trigger form is the only payload without values that is accepted. -/
theorem mqttPayloadBlock_trigger {write : WriteEntry} {payload : List UInt8}
    (h : mqttPayloadBlock numerals write payload = .ok none) : TriggerForm payload := by
  by_contra htrigger
  rw [mqttPayloadBlock_untriggered htrigger] at h
  cases hloop : blockLoop numerals payload [] (listText payload) with
  | error text =>
    rw [hloop] at h
    exact absurd h (by simp)
  | ok read =>
    rw [hloop] at h
    dsimp only at h
    split_ifs at h
    exact absurd (Except.ok.inj h) (by simp)

theorem blockValues_getElem? {write : WriteEntry} {values : List Double} {i : ℕ}
    {channel : WriteChannel} {value : Double} (hchannel : write.channels[i]? = some channel)
    (hvalue : values[i]? = some value) :
    (blockValues write (some values))[i]? = some (channel, some value) := by
  refine List.getElem?_zip_eq_some.2 ⟨hchannel, ?_⟩
  rw [List.getElem?_map, hvalue]
  rfl

theorem serveEntry_block {write : AckedWrite} (hblock : write.channels ≠ [])
    (payload : List UInt8) (s : WriteBridge) (w : ℕ) (env : WriteEnv) :
    serveEntry numerals payload s w write env =
      match mqttPayloadBlock numerals write.toWriteEntry payload with
      | .error why => s.writeResult w write env.rc (writeNack 0 .payload why 0)
      | .ok values => modbusWritePost numerals s w write values env := if_pos hblock

/-- The payload is read as a value for each channel, with one of the slips. -/
def ListSlip (strtod : List UInt8 → Double × ℕ) (channels : ℕ) (payload : List UInt8) : Prop :=
  ∃ opened items trail close values,
    Reading strtod opened items trail close values payload ∧ values.length = channels ∧
      Slip opened items trail close values

/-- The payload of a block is read by the grammar, unless the scanner lets a slip pass. -/
theorem block_list_iff (hstrtod : StrtodContract numerals.strtod) {write : AckedWrite}
    (hblock : write.channels ≠ []) (hroom : write.channels.length ≤ 123) (payload : List UInt8) :
    BlockContract numerals write payload ↔
      ¬ ListSlip numerals.strtod write.channels.length payload := by
  have haccepted : ∀ values, mqttPayloadBlock numerals write.toWriteEntry payload =
      .ok (some values) ↔ ∃ opened items trail close,
        Reading numerals.strtod opened items trail close values payload ∧
          values.length = write.channels.length := mqttPayloadBlock_list hstrtod hblock hroom payload
  constructor
  · rintro hcontract ⟨opened, items, trail, close, values, hreading, hlength, hslip⟩
    have hform := (hcontract.accepts values).1
      ((haccepted values).2 ⟨opened, items, trail, close, hreading, hlength⟩)
    obtain ⟨opened', items', trail', close', hreading', hclean⟩ := hform.1.reading hstrtod
    obtain ⟨rfl, rfl, rfl, rfl, -⟩ := hreading.unique hstrtod hreading'
    exact hclean hslip
  intro hslip
  have haccepts : ∀ values, mqttPayloadBlock numerals write.toWriteEntry payload =
      .ok (some values) ↔
        ListForm numerals.strtod values payload ∧ values.length = write.channels.length := by
    intro values
    rw [haccepted values]
    constructor
    · rintro ⟨opened, items, trail, close, hreading, hlength⟩
      have hne : values ≠ [] := by
        rintro rfl
        exact hblock (List.length_eq_zero_iff.1 hlength.symm)
      exact ⟨hreading.listForm hstrtod hne fun h =>
        hslip ⟨opened, items, trail, close, values, hreading, hlength, h⟩, hlength⟩
    · rintro ⟨hform, hlength⟩
      obtain ⟨opened, items, trail, close, hreading, -⟩ := hform.reading hstrtod
      exact ⟨opened, items, trail, close, hreading, hlength⟩
  refine ⟨haccepts, ?_, ?_⟩
  · intro values hform hlength s w env
    refine ⟨?_, fun i channel value => blockValues_getElem?⟩
    rw [serveEntry_block hblock, (haccepts values).2 ⟨hform, hlength⟩]
  · intro hnone htrigger s w env
    rw [serveEntry_block hblock]
    cases hpayload : mqttPayloadBlock numerals write.toWriteEntry payload with
    | error why => rfl
    | ok values =>
      cases values with
      | none => exact absurd (mqttPayloadBlock_trigger hpayload) htrigger
      | some values => exact absurd ((haccepts values).1 hpayload) (hnone values)

def pairBlock : AckedWrite :=
  { wideBlock with
    naddress := 2
    channels := [⟨0, .ab, 0, 0, 0, some 0, false⟩, ⟨1, .ab, 0, 0, 0, some 0, false⟩] }

/-- Two numbers with a comma between them. -/
theorem block_list_iff_example : BlockContract plainNumerals pairBlock [49, 44, 50] := by
  refine (block_list_iff plainStrtod_contract (by decide) (by decide) [49, 44, 50]).2 ?_
  have hone : ListNumber plainStrtod [49] 1 :=
    ⟨⟨by decide, by decide +kernel⟩, by decide +kernel⟩
  have htwo : ListNumber plainStrtod [50] 2 :=
    ⟨⟨by decide, by decide +kernel⟩, by decide +kernel⟩
  have hcomma : ∀ b ∈ ([44] : List UInt8), blankByte [44] b := by decide +kernel
  have hbody : Separated plainStrtod ([49] ++ ([44] ++ [50])) [some 1, some 2] :=
    .cons hone (by decide) hcomma (.single htwo)
  have hform : ListForm plainStrtod [some 1, some 2] ([] ++ ([49] ++ ([44] ++ [50]) ++ [])) :=
    .bare (List.forall_mem_nil _) hbody (List.forall_mem_nil _)
  rintro ⟨opened, items, trail, close, values, hreading, -, hslip⟩
  obtain ⟨opened', items', trail', close', hreading', hclean⟩ := hform.reading plainStrtod_contract
  obtain ⟨rfl, rfl, rfl, rfl, rfl⟩ := hreading.unique plainStrtod_contract hreading'
  exact hclean hslip

/-- The payload `1-2` is a list of two values too. -/
theorem joined_numbers_accepted :
    ¬ BlockContract plainNumerals pairBlock [49, 45, 50] ∧
      mqttPayloadBlock plainNumerals pairBlock.toWriteEntry [49, 45, 50] =
        .ok (some [some 1, some (-2)]) := by
  have haccepted : mqttPayloadBlock plainNumerals pairBlock.toWriteEntry [49, 45, 50] =
      .ok (some [some 1, some (-2)]) := by
    decide +kernel
  refine ⟨fun hcontract => ?_, haccepted⟩
  obtain ⟨hform, -⟩ := (hcontract.accepts _).1 haccepted
  -- a list of two numbers has a comma or a blank in it
  have hseparated : ∀ {body : List UInt8} {values : List Double}, Separated plainStrtod body values →
      1 < values.length → ∃ b ∈ body, blankByte [44] b := by
    intro body values hbody hlength
    cases hbody with
    | single => exact absurd hlength (by simp)
    | @cons text gap rest _ _ _ hgap hseps =>
      obtain ⟨b, gap, rfl⟩ := List.exists_cons_of_ne_nil hgap
      exact ⟨b, by simp, hseps b List.mem_cons_self⟩
  have hnone : ∀ b ∈ ([49, 45, 50] : List UInt8), ¬ blankByte [44] b := by decide +kernel
  generalize hpayload : ([49, 45, 50] : List UInt8) = payload at hform hnone
  cases hform with
  | bare _ hbody =>
    obtain ⟨b, hb, hsep⟩ := hseparated hbody (by simp)
    exact hnone b (by simp [hb]) hsep
  | bracketed _ _ hbody =>
    obtain ⟨b, hb, hsep⟩ := hseparated hbody (by simp)
    exact hnone b (by simp [hb]) hsep

end Modbusmq
