import Modbusmq.Configuration.Expansion

/-!
# The module index in a topic

`config_topic_module` and `config_apply_module_topics`, with the buffer the
topic is built in. The prefix is on when they run. A C string is the list of its
characters, without the terminator.
-/

namespace Modbusmq

def decimal (n : ℕ) : List Char := Nat.toDigits 10 n

/-- What becomes of a topic; `overrun` is a write past the buffer. -/
inductive TopicOutcome
  | overrun
  | refused
  | replaced (nindex : ℕ) (topic : List Char)
  deriving DecidableEq, Repr

/-- The loop of `config_topic_module`, with a buffer of `size` characters of which `out` are
written. `sprintf` and the last line write a terminator as well. -/
def topicLoop (module : ℤ) (size : ℕ) : List Char → List Char → ℕ → TopicOutcome
  | [], out, nindex => if out.length + 1 ≤ size then .replaced nindex out else .overrun
  | '%' :: '%' :: p, out, nindex =>
    if out.length + 1 ≤ size then topicLoop module size p (out ++ ['%']) nindex else .overrun
  | '%' :: 'i' :: p, out, nindex =>
    if module < 0 then .refused
    else if out.length + (decimal module.toNat).length + 1 ≤ size then
      topicLoop module size p (out ++ decimal module.toNat) (nindex + 1)
    else .overrun
  | ch :: p, out, nindex =>
    if out.length + 1 ≤ size then topicLoop module size p (out ++ [ch]) nindex else .overrun

def configTopicModule (topic : List Char) (module : ℤ) : TopicOutcome :=
  if '%' ∉ topic then .replaced 0 topic
  else topicLoop module (2 * topic.length + 1) topic [] 0

inductive TopicError
  | indexOnFixed
  | noIndex
  deriving DecidableEq, Repr

/-- The treatment of one topic in `config_apply_module_topics`; `none` once the buffer is
overrun. -/
def applyModuleTopic (module : ℤ) (topic : List Char) : Option (Except TopicError (List Char)) :=
  match configTopicModule topic module with
  | .overrun => none
  | .refused => some (.error .indexOnFixed)
  | .replaced nindex topic =>
    if 0 ≤ module ∧ nindex = 0 then some (.error .noIndex) else some (.ok topic)

/-- The topics of one entry, in their order; an unused channel has none, and neither has a write
that is not acknowledged. -/
def applyEntryTopics (module : ℤ) :
    List (Option (List Char)) → Option (Except TopicError (List (Option (List Char))))
  | [] => some (.ok [])
  | none :: rest => (applyEntryTopics module rest).map (·.map (none :: ·))
  | some topic :: rest =>
    match applyModuleTopic module topic with
    | none => none
    | some (.error e) => some (.error e)
    | some (.ok topic) => (applyEntryTopics module rest).map (·.map (some topic :: ·))

/-- `config_apply_module_topics`: the inputs, then the writes, each with its module and its
topics. -/
def applyModuleTopics : List (ℤ × List (Option (List Char))) →
    Option (Except TopicError (List (ℤ × List (Option (List Char)))))
  | [] => some (.ok [])
  | (module, topics) :: rest =>
    match applyEntryTopics module topics with
    | none => none
    | some (.error e) => some (.error e)
    | some (.ok topics) => (applyModuleTopics rest).map (·.map ((module, topics) :: ·))

def prefixTopics (pre : List Char) (entries : List (ℤ × List (Option (List Char)))) :
    List (ℤ × List (Option (List Char))) :=
  entries.map fun entry => (entry.1, entry.2.map (Option.map (pre ++ ·)))

inductive Piece
  | index
  | percent
  | literal (ch : Char)
  deriving DecidableEq, Repr

def Piece.spelled : Piece → List Char
  | index => ['%', 'i']
  | percent => ['%', '%']
  | literal ch => [ch]

/-- What a piece stands for in the topics of module `m`. -/
def Piece.text (m : ℕ) : Piece → List Char
  | index => decimal m
  | percent => ['%']
  | literal ch => [ch]

def pieces : List Char → List Piece
  | [] => []
  | '%' :: '%' :: p => .percent :: pieces p
  | '%' :: 'i' :: p => .index :: pieces p
  | ch :: p => .literal ch :: pieces p

def moduleTopic (m : ℕ) (topic : List Char) : List Char := (pieces topic).flatMap (Piece.text m)

theorem pieces_literal_cons {ch : Char} {p : List Char}
    (hpercent : ∀ q, ch = '%' → p = '%' :: q → False)
    (hindex : ∀ q, ch = '%' → p = 'i' :: q → False) :
    pieces (ch :: p) = .literal ch :: pieces p := by
  rw [pieces]
  · exact hpercent
  · exact hindex

theorem moduleTopic_percent (m : ℕ) (p : List Char) :
    moduleTopic m ('%' :: '%' :: p) = '%' :: moduleTopic m p := by
  unfold moduleTopic
  rw [pieces]
  rfl

theorem moduleTopic_index (m : ℕ) (p : List Char) :
    moduleTopic m ('%' :: 'i' :: p) = decimal m ++ moduleTopic m p := by
  unfold moduleTopic
  rw [pieces]
  rfl

theorem moduleTopic_literal (m : ℕ) {ch : Char} {p : List Char}
    (hpercent : ∀ q, ch = '%' → p = '%' :: q → False)
    (hindex : ∀ q, ch = '%' → p = 'i' :: q → False) :
    moduleTopic m (ch :: p) = ch :: moduleTopic m p := by
  unfold moduleTopic
  rw [pieces_literal_cons hpercent hindex]
  rfl

theorem pieces_spelled (topic : List Char) : (pieces topic).flatMap Piece.spelled = topic := by
  induction topic using pieces.induct with
  | case1 => rfl
  | case2 p ih =>
    rw [pieces, List.flatMap_cons, ih]
    rfl
  | case3 p ih =>
    rw [pieces, List.flatMap_cons, ih]
    rfl
  | case4 ch p hpercent hindex ih =>
    rw [pieces_literal_cons hpercent hindex, List.flatMap_cons, ih]
    rfl

theorem decimal_length {m : ℕ} (h : m < 1000) : (decimal m).length ≤ 3 :=
  (Nat.length_toDigits_le_iff (by decide) (by decide)).2 h

theorem decimal_injective : Function.Injective decimal := by
  intro m m' h
  rw [← Nat.ofDigitChars_ten_toDigits (n := m), ← Nat.ofDigitChars_ten_toDigits (n := m')]
  exact congrArg (Nat.ofDigitChars 10 · 0) h

/-- What is written never takes more than twice what was read. -/
theorem topicLoop_fits {m : ℕ} (hm : m < 1000) (topic out : List Char) (size nindex : ℕ)
    (hroom : out.length + 2 * topic.length + 1 ≤ size) :
    topicLoop m size topic out nindex =
      .replaced (nindex + (pieces topic).count .index) (out ++ moduleTopic m topic) := by
  have hdigits := decimal_length hm
  induction topic using pieces.induct generalizing out nindex with
  | case1 =>
    unfold topicLoop moduleTopic
    rw [if_pos (by simpa using hroom)]
    simp [pieces]
  | case2 p ih =>
    rw [List.length_cons, List.length_cons] at hroom
    rw [topicLoop, if_pos (by omega), ih _ _ (by rw [List.length_append]; simp; omega)]
    simp [pieces, moduleTopic, Piece.text]
  | case3 p ih =>
    rw [List.length_cons, List.length_cons] at hroom
    rw [topicLoop, if_neg (by omega), Int.toNat_natCast, if_pos (by omega),
      ih _ _ (by rw [List.length_append]; omega)]
    simp [pieces, moduleTopic, Piece.text]
    omega
  | case4 ch p hpercent hindex ih =>
    rw [List.length_cons] at hroom
    rw [topicLoop, if_pos (by omega), ih _ _ (by rw [List.length_append]; simp; omega), pieces]
    · simp [moduleTopic, Piece.text, pieces]
    · exact hpercent
    · exact hindex
    · exact hpercent
    · exact hindex

theorem pieces_literal {topic : List Char} (h : '%' ∉ topic) :
    (pieces topic).count .index = 0 := by
  induction topic using pieces.induct with
  | case1 => rfl
  | case2 p _ => exact absurd (List.mem_cons_self ..) h
  | case3 p _ => exact absurd (List.mem_cons_self ..) h
  | case4 ch p hpercent hindex ih =>
    rw [pieces]
    · rw [List.count_cons_of_ne (by simp)]
      exact ih fun hmem => h (List.mem_cons_of_mem _ hmem)
    · exact hpercent
    · exact hindex

theorem topicLoop_fixed {module : ℤ} (hmodule : module < 0) (topic out : List Char)
    (size nindex : ℕ) (hroom : out.length + topic.length + 1 ≤ size) :
    topicLoop module size topic out nindex =
      if .index ∈ pieces topic then .refused
      else .replaced nindex (out ++ moduleTopic 0 topic) := by
  induction topic using pieces.induct generalizing out with
  | case1 =>
    unfold topicLoop moduleTopic
    rw [if_pos (by simpa using hroom)]
    simp [pieces]
  | case2 p ih =>
    rw [List.length_cons, List.length_cons] at hroom
    rw [topicLoop, if_pos (by omega), ih _ (by rw [List.length_append]; simp; omega)]
    simp [pieces, moduleTopic, Piece.text]
  | case3 p _ =>
    rw [topicLoop, if_pos hmodule, pieces, if_pos List.mem_cons_self]
  | case4 ch p hpercent hindex ih =>
    rw [List.length_cons] at hroom
    rw [topicLoop, if_pos (by omega), ih _ (by rw [List.length_append]; simp; omega),
      pieces_literal_cons hpercent hindex, moduleTopic_literal 0 hpercent hindex]
    · simp
    · exact hpercent
    · exact hindex

theorem configTopicModule_eq {m : ℕ} (hm : m < 1000) {topic : List Char}
    (h : 0 < (pieces topic).count .index) : configTopicModule topic m =
      .replaced ((pieces topic).count .index) (moduleTopic m topic) := by
  have hpercent : ¬ '%' ∉ topic := by
    intro hno
    rw [pieces_literal hno] at h
    exact absurd h (lt_irrefl 0)
  unfold configTopicModule
  rw [if_neg hpercent, topicLoop_fits hm topic [] _ 0 (by simp), Nat.zero_add, List.nil_append]

theorem applyModuleTopic_index {m : ℕ} (hm : m < 1000) {topic topic' : List Char}
    (h : applyModuleTopic m topic = some (.ok topic')) : 0 < (pieces topic).count .index := by
  by_contra hno
  have hzero : (pieces topic).count .index = 0 := by omega
  have hloop := topicLoop_fits hm topic [] (2 * topic.length + 1) 0 (by simp)
  rw [hzero] at hloop
  unfold applyModuleTopic configTopicModule at h
  rw [hloop] at h
  split_ifs at h <;> simp at h

/-- Pieces without an index say the same for every module. -/
theorem text_const {ps : List Piece} (h : .index ∉ ps) (m m' : ℕ) :
    ps.flatMap (Piece.text m) = ps.flatMap (Piece.text m') := by
  refine List.flatMap_congr fun piece hpiece => ?_
  cases piece with
  | index => exact absurd hpiece h
  | percent => rfl
  | literal ch => rfl

theorem text_length (ps : List Piece) (m : ℕ) : (ps.flatMap (Piece.text m)).length =
    ps.count .index * (decimal m).length + (ps.length - ps.count .index) := by
  induction ps with
  | nil => simp
  | cons piece rest ih =>
    have hcount := List.count_le_length (a := Piece.index) (l := rest)
    rw [List.flatMap_cons, List.length_append, ih]
    cases piece with
    | index =>
      rw [List.count_cons_self, List.length_cons, Nat.succ_mul, Nat.add_sub_add_right]
      simp only [Piece.text]
      omega
    | percent =>
      rw [List.count_cons_of_ne (by simp), List.length_cons]
      simp only [Piece.text, List.length_singleton]
      omega
    | literal ch =>
      rw [List.count_cons_of_ne (by simp), List.length_cons]
      simp only [Piece.text, List.length_singleton]
      omega

/-- With an index among them, the pieces tell the module: the numbers are equally long, and the
first of them stands at the same place. -/
theorem text_injective {ps : List Piece} (hindex : .index ∈ ps) {m m' : ℕ}
    (h : ps.flatMap (Piece.text m) = ps.flatMap (Piece.text m')) : m = m' := by
  have hlength : (decimal m).length = (decimal m').length := by
    have hall := congrArg List.length h
    rw [text_length, text_length] at hall
    exact Nat.eq_of_mul_eq_mul_left (List.count_pos_iff.2 hindex) (Nat.add_right_cancel hall)
  obtain ⟨before, after, rfl, hfirst⟩ := List.eq_append_cons_of_mem hindex
  rw [List.flatMap_append, List.flatMap_append, text_const hfirst m m', List.flatMap_cons,
    List.flatMap_cons] at h
  have hrest := List.append_cancel_left h
  exact decimal_injective (List.append_inj_left hrest hlength)

theorem map_ok {ε α β : Type} {x : Option (Except ε α)} {f : α → β} {b : β}
    (h : x.map (·.map f) = some (.ok b)) : ∃ a, x = some (.ok a) := by
  match x with
  | some (.ok a) => exact ⟨a, rfl⟩
  | some (.error e) => exact nomatch h
  | none => exact nomatch h

theorem applyEntryTopics_mem {module : ℤ} {topics topics' : List (Option (List Char))}
    (h : applyEntryTopics module topics = some (.ok topics')) {topic : List Char}
    (htopic : some topic ∈ topics) : ∃ topic', applyModuleTopic module topic = some (.ok topic') := by
  induction topics generalizing topics' with
  | nil => exact absurd htopic List.not_mem_nil
  | cons first rest ih =>
    cases first with
    | none =>
      obtain ⟨rest', hrest⟩ := map_ok h
      exact ih hrest ((List.mem_cons.1 htopic).resolve_left (nomatch ·))
    | some first =>
      unfold applyEntryTopics at h
      match hfirst : applyModuleTopic module first with
      | none =>
        rw [hfirst] at h
        exact nomatch h
      | some (.error e) =>
        rw [hfirst] at h
        exact nomatch h
      | some (.ok first') =>
        rw [hfirst] at h
        obtain ⟨rest', hrest⟩ := map_ok h
        rcases List.mem_cons.1 htopic with hhead | htail
        · obtain rfl := Option.some.inj hhead
          exact ⟨first', hfirst⟩
        · exact ih hrest htail

theorem applyModuleTopics_mem {entries entries' : List (ℤ × List (Option (List Char)))}
    (h : applyModuleTopics entries = some (.ok entries')) {module : ℤ}
    {topics : List (Option (List Char))} (hentry : (module, topics) ∈ entries) {topic : List Char}
    (htopic : some topic ∈ topics) : ∃ topic', applyModuleTopic module topic = some (.ok topic') := by
  induction entries generalizing entries' with
  | nil => exact absurd hentry List.not_mem_nil
  | cons first rest ih =>
    unfold applyModuleTopics at h
    match hfirst : applyEntryTopics first.1 first.2 with
    | none =>
      rw [hfirst] at h
      exact nomatch h
    | some (.error e) =>
      rw [hfirst] at h
      exact nomatch h
    | some (.ok topics') =>
      rw [hfirst] at h
      obtain ⟨rest', hrest⟩ := map_ok h
      rcases List.mem_cons.1 hentry with rfl | htail
      · exact applyEntryTopics_mem hfirst htopic
      · exact ih hrest htail

/-- A topic of a template that is accepted comes out, for every module, with its index in place of
every `%i`, with one percent sign for two, and with the rest as it is; it fits its buffer; and no
two modules have the same topic. -/
theorem template_topic_substituted {config : BridgeConfig} (h : ModulesConfigured config)
    (pre topic : List Char) {entries entries' : List (ℤ × List (Option (List Char)))}
    (haccepted : applyModuleTopics (prefixTopics pre entries) = some (.ok entries')) {m : ℕ}
    (hm : (m : ℤ) < config.moduleCount) {topics : List (Option (List Char))}
    (hentry : ((m : ℤ), topics) ∈ entries) (htopic : some topic ∈ topics) :
    (∀ i : ℕ, (i : ℤ) < config.moduleCount → ∃ nindex,
        configTopicModule (pre ++ topic) i = .replaced nindex (moduleTopic i (pre ++ topic))) ∧
      (pieces (pre ++ topic)).flatMap Piece.spelled = pre ++ topic ∧
      ∀ i j : ℕ, i ≠ j → moduleTopic i (pre ++ topic) ≠ moduleTopic j (pre ++ topic) := by
  have hsmall : ∀ i : ℕ, (i : ℤ) < config.moduleCount → i < 1000 := by
    intro i hi
    have hcount := h.count.2
    unfold configSlaveMax at hcount
    omega
  have hmem : ((m : ℤ), topics.map (Option.map (pre ++ ·))) ∈ prefixTopics pre entries :=
    List.mem_map.2 ⟨_, hentry, rfl⟩
  have hprefixed : some (pre ++ topic) ∈ topics.map (Option.map (pre ++ ·)) :=
    List.mem_map.2 ⟨_, htopic, rfl⟩
  obtain ⟨topic', hout⟩ := applyModuleTopics_mem haccepted hmem hprefixed
  have hindex := applyModuleTopic_index (hsmall m hm) hout
  refine ⟨fun i hi => ⟨_, configTopicModule_eq (hsmall i hi) hindex⟩, pieces_spelled _, ?_⟩
  intro i j hne hsame
  exact hne (text_injective (List.count_pos_iff.1 hindex) hsame)

/-- A channel of the first of two modules, with a percent sign in the prefix. -/
def rackTopics : List (ℤ × List (Option (List Char))) :=
  [(0, [some "battery/%i/cell%i".toList, none]), (-1, [some "string".toList])]

theorem template_topic_substituted_example :
    (∀ i : ℕ, (i : ℤ) < 2 → ∃ nindex, configTopicModule "50%%/battery/%i/cell%i".toList i =
        .replaced nindex (moduleTopic i "50%%/battery/%i/cell%i".toList)) ∧
      (pieces "50%%/battery/%i/cell%i".toList).flatMap Piece.spelled =
        "50%%/battery/%i/cell%i".toList ∧
      ∀ i j : ℕ, i ≠ j → moduleTopic i "50%%/battery/%i/cell%i".toList ≠
        moduleTopic j "50%%/battery/%i/cell%i".toList :=
  template_topic_substituted (show ModulesConfigured rack from ⟨by decide, by decide, rfl⟩)
    "50%%/".toList "battery/%i/cell%i".toList
    (show applyModuleTopics (prefixTopics "50%%/".toList rackTopics) = some (.ok _) from rfl)
    (show ((0 : ℕ) : ℤ) < 2 by decide) (List.mem_cons_self ..) (List.mem_cons_self ..)

example : moduleTopic 12 "50%%/cell%i%".toList = "50%/cell12%".toList := by decide

end Modbusmq
