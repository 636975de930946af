import Modbusmq.Configuration.Topics

/-!
# The own topic of a channel

The emulator of `modbusmq_server` takes `mqtt.topic_prefix` off the topics of the
channels again, without knowing the module that is written in them. What it
makes of the pieces that a prefix can have is compared with what the parser
made of them.
-/

namespace Modbusmq

/-- The loop of `emu_own_topic`: what is left of a topic behind a prefix, if it starts with it. A
number is taken to its last digit. -/
def ownTopicLoop : List Char → List Char → Option (List Char)
  | [], t => some t
  | '%' :: 'i' :: p, t =>
    if t.head?.any Char.isDigit then ownTopicLoop p (t.dropWhile Char.isDigit) else none
  | ch :: p, t => if t.head? = some ch then ownTopicLoop p t.tail else none

/-- `emu_own_topic`; a topic that does not start with the prefix is returned whole. -/
def emuOwnTopic (topicPrefix : Option (List Char)) (topic : List Char) : List Char :=
  match topicPrefix with
  | none => topic
  | some topicPrefix => (ownTopicLoop topicPrefix topic).getD topic

/-- A number that pieces and an own topic follow would be read on into them. -/
def ReadOn : List Piece → List Char → Prop
  | [], own => ∃ c ∈ own.head?, c.isDigit
  | .index :: _, _ => True
  | .percent :: _, _ => False
  | .literal c :: _, _ => c.isDigit

instance (ps : List Piece) (own : List Char) : Decidable (ReadOn ps own) :=
  match ps with
  | [] => inferInstanceAs (Decidable (∃ c ∈ own.head?, c.isDigit))
  | .index :: _ => .isTrue trivial
  | .percent :: _ => .isFalse id
  | .literal c :: _ => inferInstanceAs (Decidable (c.isDigit))

/-- The prefix can be taken off again: it has no percent sign of its own, and every number in it
ends where it is written. -/
def Separable (own : List Char) : List Piece → Prop
  | [] => True
  | .percent :: _ => False
  | .index :: rest => ¬ ReadOn rest own ∧ Separable own rest
  | .literal _ :: rest => Separable own rest

instance separableDecidable (own : List Char) : (ps : List Piece) → Decidable (Separable own ps)
  | [] => .isTrue trivial
  | .percent :: _ => .isFalse id
  | .index :: rest =>
    have := separableDecidable own rest
    inferInstanceAs (Decidable (_ ∧ _))
  | .literal _ :: rest => separableDecidable own rest

/-- A prefix and a topic come out together as they do one by one. -/
def Joined (m : ℕ) (p topic : List Char) : Prop :=
  moduleTopic m (p ++ topic) = moduleTopic m p ++ moduleTopic m topic

instance (m : ℕ) (p topic : List Char) : Decidable (Joined m p topic) :=
  inferInstanceAs (Decidable (_ = _))

theorem decimal_isDigit {m : ℕ} {c : Char} (h : c ∈ decimal m) : c.isDigit :=
  Nat.isDigit_of_mem_toDigits (by decide) (by decide) h

theorem decimal_head (m : ℕ) (rest : List Char) : ∃ c ∈ (decimal m ++ rest).head?, c.isDigit := by
  have hne : decimal m ≠ [] := Nat.toDigits_ne_nil
  refine ⟨(decimal m).head hne, ?_, decimal_isDigit (List.head_mem hne)⟩
  rw [List.head?_append_of_ne_nil _ hne, List.head?_eq_some_head hne]
  rfl

theorem head_any {t : List Char} : t.head?.any Char.isDigit ↔ ∃ c ∈ t.head?, c.isDigit := by
  rw [Option.any_eq_true]
  rfl

theorem dropWhile_decimal (m : ℕ) (rest : List Char) :
    (decimal m ++ rest).dropWhile Char.isDigit = rest.dropWhile Char.isDigit :=
  List.dropWhile_append_of_pos fun _ hc => decimal_isDigit hc

theorem dropWhile_eq_self {t : List Char} (h : ¬ ∃ c ∈ t.head?, c.isDigit) :
    t.dropWhile Char.isDigit = t := by
  cases t with
  | nil => rfl
  | cons c t =>
    refine List.dropWhile_cons_of_neg fun hc => h ⟨c, rfl, hc⟩

theorem readOn_iff (m : ℕ) {p own : List Char} :
    ReadOn (pieces p) own ↔ ∃ c ∈ (moduleTopic m p ++ own).head?, c.isDigit := by
  unfold moduleTopic
  cases pieces p with
  | nil => rfl
  | cons piece rest =>
    rw [List.flatMap_cons, List.append_assoc]
    cases piece with
    | index => exact iff_of_true trivial (decimal_head m _)
    | percent => exact iff_of_false id (by simp [Piece.text])
    | literal c => simp [ReadOn, Piece.text]

theorem dropWhile_readOn {m : ℕ} {p own : List Char} (h : ¬ ReadOn (pieces p) own) :
    (moduleTopic m p ++ own).dropWhile Char.isDigit = moduleTopic m p ++ own :=
  dropWhile_eq_self fun hdigit => h ((readOn_iff m).2 hdigit)

theorem ownTopicLoop_index (p t : List Char) : ownTopicLoop ('%' :: 'i' :: p) t =
    if t.head?.any Char.isDigit then ownTopicLoop p (t.dropWhile Char.isDigit) else none := by
  rw [ownTopicLoop]

theorem ownTopicLoop_literal {ch : Char} {p : List Char} (h : ∀ q, ch = '%' → p = 'i' :: q → False)
    (t : List Char) : ownTopicLoop (ch :: p) t =
      if t.head? = some ch then ownTopicLoop p t.tail else none := by
  rw [ownTopicLoop]
  exact h

theorem ownTopicLoop_number (m : ℕ) (p own : List Char) :
    ownTopicLoop ('%' :: 'i' :: p) (moduleTopic m ('%' :: 'i' :: p) ++ own) =
      ownTopicLoop p ((moduleTopic m p ++ own).dropWhile Char.isDigit) := by
  rw [moduleTopic_index, List.append_assoc, ownTopicLoop_index, if_pos (head_any.2 (decimal_head m _)),
    dropWhile_decimal]

theorem ownTopicLoop_same (m : ℕ) {ch : Char} {p : List Char}
    (hpercent : ∀ q, ch = '%' → p = '%' :: q → False)
    (hindex : ∀ q, ch = '%' → p = 'i' :: q → False) (own : List Char) :
    ownTopicLoop (ch :: p) (moduleTopic m (ch :: p) ++ own) =
      ownTopicLoop p (moduleTopic m p ++ own) := by
  rw [moduleTopic_literal m hpercent hindex, List.cons_append, ownTopicLoop_literal hindex,
    List.head?_cons, if_pos rfl, List.tail_cons]

theorem ownTopicLoop_separable (m : ℕ) {p own : List Char} (h : Separable own (pieces p)) :
    ownTopicLoop p (moduleTopic m p ++ own) = some own := by
  induction p using pieces.induct with
  | case1 => rfl
  | case2 p _ =>
    rw [pieces] at h
    exact h.elim
  | case3 p ih =>
    rw [pieces] at h
    rw [ownTopicLoop_number, dropWhile_readOn h.1]
    exact ih h.2
  | case4 ch p hpercent hindex ih =>
    rw [pieces_literal_cons hpercent hindex] at h
    rw [ownTopicLoop_same m hpercent hindex]
    exact ih h

theorem ownTopicLoop_suffix {p t rest : List Char} (h : ownTopicLoop p t = some rest) :
    rest <:+ t := by
  induction p, t using ownTopicLoop.induct with
  | case1 t => exact Option.some.inj h ▸ List.suffix_refl t
  | case2 p t hdigit ih =>
    rw [ownTopicLoop_index, if_pos hdigit] at h
    exact (ih h).trans (List.dropWhile_suffix _)
  | case3 p t hdigit =>
    rw [ownTopicLoop_index, if_neg hdigit] at h
    contradiction
  | case4 ch p t hindex hhead ih =>
    rw [ownTopicLoop_literal hindex, if_pos hhead] at h
    exact (ih h).trans (List.tail_suffix t)
  | case5 ch p t hindex hhead =>
    rw [ownTopicLoop_literal hindex, if_neg hhead] at h
    contradiction

theorem ownTopicLoop_signs {k : ℕ} {p : List Char} (h : ∀ q, k = 0 → p = 'i' :: q → False)
    (t : List Char) : ownTopicLoop (List.replicate (k + 1) '%' ++ p) t =
      if t.head? = some '%' then ownTopicLoop (List.replicate k '%' ++ p) t.tail else none := by
  rw [List.replicate_succ, List.cons_append]
  refine ownTopicLoop_literal (fun q _ hnext => ?_) t
  cases k with
  | zero => exact h q rfl hnext
  | succ k =>
    rw [List.replicate_succ, List.cons_append] at hnext
    exact absurd (List.cons.inj hnext).1 (by decide)

theorem replicate_append_cons {α : Type} (k : ℕ) (a : α) (l : List α) :
    List.replicate k a ++ a :: l = List.replicate (k + 1) a ++ l := by
  rw [List.replicate_succ', List.append_assoc, List.singleton_append]

/-- Behind a percent sign of its own the prefix stays ahead of the topic by one sign or more. -/
theorem ownTopicLoop_ahead (m k : ℕ) {p own rest : List Char}
    (h : ownTopicLoop (List.replicate (k + 1) '%' ++ p) (moduleTopic m p ++ own) = some rest) :
    rest.length < own.length := by
  induction p using pieces.induct generalizing k with
  | case1 =>
    rw [ownTopicLoop_signs (by simp)] at h
    split_ifs at h with hhead
    have hshort := (ownTopicLoop_suffix h).length_le
    change own.head? = some '%' at hhead
    change rest.length ≤ own.tail.length at hshort
    cases own with
    | nil => exact absurd hhead.symm (Option.some_ne_none _)
    | cons c own => exact Nat.lt_succ_of_le hshort
  | case2 p ih =>
    rw [ownTopicLoop_signs (by simp), moduleTopic_percent, List.cons_append, List.head?_cons,
      if_pos rfl, List.tail_cons, replicate_append_cons, replicate_append_cons] at h
    exact ih (k + 1) h
  | case3 p _ =>
    obtain ⟨c, hc, hdigit⟩ := decimal_head m (moduleTopic m p ++ own)
    rw [ownTopicLoop_signs (by simp), moduleTopic_index, List.append_assoc, Option.mem_def.1 hc,
      if_neg] at h
    · contradiction
    · rintro ⟨rfl⟩
      exact absurd hdigit (by decide)
  | case4 ch p hpercent hindex ih =>
    rw [moduleTopic_literal m hpercent hindex] at h
    by_cases hsign : ch = '%'
    · subst hsign
      rw [ownTopicLoop_signs (by simp), List.cons_append, List.head?_cons, if_pos rfl,
        List.tail_cons, replicate_append_cons] at h
      exact ih k h
    · by_cases hnumber : k = 0 ∧ ch = 'i'
      · obtain ⟨rfl, rfl⟩ := hnumber
        change ownTopicLoop ('%' :: 'i' :: p) _ = _ at h
        rw [ownTopicLoop_index, if_neg] at h
        · contradiction
        · exact Bool.false_ne_true
      · rw [ownTopicLoop_signs (fun q hk hi => hnumber ⟨hk, (List.cons.inj hi).1⟩), if_neg] at h
        · contradiction
        · rintro ⟨rfl⟩
          exact hsign rfl

theorem dropWhile_head (t : List Char) : ¬ ∃ c ∈ (t.dropWhile Char.isDigit).head?, c.isDigit := by
  rintro ⟨c, hc, hdigit⟩
  have hnot := List.head?_dropWhile_not Char.isDigit t
  rw [Option.mem_def.1 hc] at hnot
  exact absurd hdigit (by simpa using hnot)

theorem ownTopicLoop_readOn {m : ℕ} {p own rest : List Char} (h : ReadOn (pieces p) own)
    (hloop : ownTopicLoop p ((moduleTopic m p ++ own).dropWhile Char.isDigit) = some rest) :
    rest.length < own.length := by
  have hhead := dropWhile_head (moduleTopic m p ++ own)
  fun_cases pieces p with
  | case1 =>
    obtain ⟨c, hc, hdigit⟩ := h
    obtain rfl : own.dropWhile Char.isDigit = rest := Option.some.inj hloop
    obtain ⟨own, rfl⟩ := List.head?_eq_some_iff.1 hc
    rw [List.dropWhile_cons_of_pos hdigit]
    exact Nat.lt_succ_of_le (List.dropWhile_suffix _).length_le
  | case2 p =>
    rw [pieces] at h
    exact h.elim
  | case3 p =>
    rw [ownTopicLoop_index, if_neg (head_any.not.2 hhead)] at hloop
    contradiction
  | case4 ch p hpercent hindex =>
    rw [pieces_literal_cons hpercent hindex] at h
    have hother : (List.dropWhile Char.isDigit (moduleTopic m (ch :: p) ++ own)).head? ≠ some ch :=
      fun hch => hhead ⟨ch, hch, h⟩
    rw [ownTopicLoop_literal hindex, if_neg hother] at hloop
    contradiction

theorem ownTopicLoop_inseparable {m : ℕ} {p own rest : List Char}
    (h : ¬ Separable own (pieces p))
    (hloop : ownTopicLoop p (moduleTopic m p ++ own) = some rest) :
    rest.length < own.length := by
  induction p using pieces.induct with
  | case1 => exact absurd trivial h
  | case2 p _ =>
    rw [ownTopicLoop_literal (by simp), moduleTopic_percent, List.cons_append, List.head?_cons,
      if_pos rfl, List.tail_cons] at hloop
    exact ownTopicLoop_ahead m 0 hloop
  | case3 p ih =>
    rw [pieces] at h
    rw [ownTopicLoop_number] at hloop
    by_cases hread : ReadOn (pieces p) own
    · exact ownTopicLoop_readOn hread hloop
    · rw [dropWhile_readOn hread] at hloop
      exact ih (fun hrest => h ⟨hread, hrest⟩) hloop
  | case4 ch p hpercent hindex ih =>
    rw [pieces_literal_cons hpercent hindex] at h
    rw [ownTopicLoop_same m hpercent hindex] at hloop
    exact ih h hloop

theorem ownTopicLoop_le {m : ℕ} {p own rest : List Char}
    (h : ownTopicLoop p (moduleTopic m p ++ own) = some rest) : rest.length ≤ own.length := by
  by_cases hseparable : Separable own (pieces p)
  · rw [ownTopicLoop_separable m hseparable] at h
    exact (congrArg List.length (Option.some.inj h)).ge
  · exact (ownTopicLoop_inseparable hseparable h).le

theorem moduleTopic_eq_nil {m : ℕ} {p : List Char} (h : moduleTopic m p = []) : pieces p = [] := by
  unfold moduleTopic at h
  rw [List.flatMap_eq_nil_iff] at h
  refine List.eq_nil_iff_forall_not_mem.2 fun piece hpiece => ?_
  have hempty := h piece hpiece
  cases piece with
  | index => exact Nat.toDigits_ne_nil hempty
  | percent => contradiction
  | literal c => contradiction

/-- Where the prefix and the topic are joined, the own topic comes out exactly if the prefix can be
taken off. -/
theorem emuOwnTopic_joined_iff (p : List Char) (m : ℕ) (own : List Char) :
    emuOwnTopic (some p) (moduleTopic m p ++ own) = own ↔ Separable own (pieces p) := by
  change (ownTopicLoop p (moduleTopic m p ++ own)).getD (moduleTopic m p ++ own) = own ↔ _
  refine ⟨fun hsame => ?_, fun h => by rw [ownTopicLoop_separable m h, Option.getD_some]⟩
  by_contra hnot
  cases hresult : ownTopicLoop p (moduleTopic m p ++ own) with
  | none =>
    rw [hresult, Option.getD_none] at hsame
    have hempty := moduleTopic_eq_nil (List.append_left_eq_self.1 hsame)
    rw [hempty] at hnot
    exact hnot trivial
  | some rest =>
    rw [hresult, Option.getD_some] at hsame
    have hshort := ownTopicLoop_inseparable hnot hresult
    rw [hsame] at hshort
    exact lt_irrefl _ hshort

/-- A prefix that does not end in a lone percent sign and a topic do not run into each other. -/
theorem pieces_append {p : List Char} (h : (pieces p).getLast? ≠ some (.literal '%'))
    (topic : List Char) : pieces (p ++ topic) = pieces p ++ pieces topic := by
  have hrest : ∀ {piece : Piece} {rest : List Piece},
      (piece :: rest).getLast? ≠ some (.literal '%') → rest.getLast? ≠ some (.literal '%') := by
    intro piece rest hlast hsign
    refine hlast ?_
    rw [List.getLast?_cons, hsign]
    rfl
  induction p using pieces.induct with
  | case1 => rfl
  | case2 p ih =>
    rw [pieces] at h
    rw [List.cons_append, List.cons_append, pieces, pieces, ih (hrest h), List.cons_append]
  | case3 p ih =>
    rw [pieces] at h
    rw [List.cons_append, List.cons_append, pieces, pieces, ih (hrest h), List.cons_append]
  | case4 ch p hpercent hindex ih =>
    rw [pieces_literal_cons hpercent hindex] at h ⊢
    have hne : p = [] → ch ≠ '%' := by
      rintro rfl rfl
      exact h rfl
    rw [List.cons_append, pieces_literal_cons, ih (hrest h), List.cons_append]
    · intro q hsign hnext
      cases p with
      | nil => exact hne rfl hsign
      | cons d p => exact hpercent p hsign (by rw [(List.cons.inj hnext).1])
    · intro q hsign hnext
      cases p with
      | nil => exact hne rfl hsign
      | cons d p => exact hindex p hsign (by rw [(List.cons.inj hnext).1])

/-- A lone percent sign at the end of a prefix stands behind a prefix without one. -/
theorem pieces_lone {p : List Char} (h : (pieces p).getLast? = some (.literal '%')) :
    ∃ q, p = q ++ ['%'] ∧ pieces p = pieces q ++ [.literal '%'] ∧
      (pieces q).getLast? ≠ some (.literal '%') := by
  have hrest : ∀ {piece : Piece} {rest : List Piece}, piece ≠ .literal '%' →
      (piece :: rest).getLast? = some (.literal '%') → rest.getLast? = some (.literal '%') := by
    intro piece rest hpiece hlast
    cases rest with
    | nil => exact absurd (Option.some.inj hlast) hpiece
    | cons next rest => rwa [List.getLast?_cons_cons] at hlast
  induction p using pieces.induct with
  | case1 => exact absurd h (by simp [pieces])
  | case2 p ih =>
    rw [pieces] at h ⊢
    obtain ⟨q, rfl, hpieces, hlone⟩ := ih (hrest (by simp) h)
    refine ⟨'%' :: '%' :: q, rfl, by rw [hpieces, pieces, List.cons_append], fun hlast => ?_⟩
    rw [pieces] at hlast
    exact hlone (hrest (by simp) hlast)
  | case3 p ih =>
    rw [pieces] at h ⊢
    obtain ⟨q, rfl, hpieces, hlone⟩ := ih (hrest (by simp) h)
    refine ⟨'%' :: 'i' :: q, rfl, by rw [hpieces, pieces, List.cons_append], fun hlast => ?_⟩
    rw [pieces] at hlast
    exact hlone (hrest (by simp) hlast)
  | case4 ch p hpercent hindex ih =>
    rw [pieces_literal_cons hpercent hindex] at h ⊢
    by_cases hlast : (pieces p).getLast? = some (.literal '%')
    · obtain ⟨q, rfl, hpieces, hlone⟩ := ih hlast
      have hsign : q = [] → ch ≠ '%' := by
        rintro rfl rfl
        exact hpercent [] rfl rfl
      have hcons : pieces (ch :: q) = .literal ch :: pieces q := by
        refine pieces_literal_cons (fun t hch hq => ?_) fun t hch hq => ?_
        · exact hpercent (t ++ ['%']) hch (by rw [hq, List.cons_append])
        · exact hindex (t ++ ['%']) hch (by rw [hq, List.cons_append])
      refine ⟨ch :: q, rfl, by rw [hpieces, hcons, List.cons_append], fun hends => ?_⟩
      rw [hcons] at hends
      cases hq : pieces q with
      | nil =>
        rw [hq] at hends
        have hnil : q = [] := by
          rw [← pieces_spelled q, hq]
          rfl
        exact hsign hnil (Piece.literal.inj (Option.some.inj hends))
      | cons next rest =>
        rw [hq, List.getLast?_cons_cons, ← hq] at hends
        exact hlone hends
    · have hnil : pieces p = [] := by
        by_contra hne
        obtain ⟨next, rest, hp⟩ := List.exists_cons_of_ne_nil hne
        rw [hp, List.getLast?_cons_cons, ← hp] at h
        exact hlast h
      have hp : p = [] := by
        rw [← pieces_spelled p, hnil]
        rfl
      rw [hnil] at h
      obtain rfl := Piece.literal.inj (Option.some.inj h)
      exact ⟨[], by rw [hp, List.nil_append], by rw [hnil]; rfl, by simp [pieces]⟩

/-- Lists that differ in front of a common rest do not end alike. -/
theorem not_suffix_of_getLast_ne {α : Type} {u v s : List α} {a b : α} (hu : u.getLast? = some a)
    (hv : v.getLast? = some b) (hne : a ≠ b) (w : List α) : ¬ u ++ s <:+ w ++ (v ++ s) := by
  rintro ⟨t, ht⟩
  rw [← List.append_assoc, ← List.append_assoc] at ht
  have hlast := congrArg List.getLast? (List.append_cancel_right ht)
  rw [List.getLast?_append_of_ne_nil _ (by rintro rfl; contradiction),
    List.getLast?_append_of_ne_nil _ (by rintro rfl; contradiction), hu, hv] at hlast
  exact hne (Option.some.inj hlast)

/-- Two topics part in front of what they end in: at a digit and at another character. -/
def Parted (t t' : List Char) : Prop :=
  ∃ u v s a b, t = u ++ s ∧ t' = v ++ s ∧ u.getLast? = some a ∧ v.getLast? = some b ∧ a ≠ b

theorem Parted.symm {t t' : List Char} (h : Parted t t') : Parted t' t := by
  obtain ⟨u, v, s, a, b, ht, ht', hu, hv, hne⟩ := h
  exact ⟨v, u, s, b, a, ht', ht, hv, hu, hne.symm⟩

theorem Parted.cons {t t' : List Char} (h : Parted t t') (c : Char) : Parted (c :: t) t' := by
  obtain ⟨u, v, s, a, b, rfl, ht', hu, hv, hne⟩ := h
  refine ⟨c :: u, v, s, a, b, rfl, ht', ?_, hv, hne⟩
  cases u with
  | nil => contradiction
  | cons d u => rwa [List.getLast?_cons_cons]

theorem Parted.not_suffix {t t' : List Char} (h : Parted t t') (w : List Char) :
    ¬ t <:+ w ++ t' := by
  obtain ⟨u, v, s, a, b, rfl, rfl, hu, hv, hne⟩ := h
  exact not_suffix_of_getLast_ne hu hv hne w

theorem Parted.of_index (m : ℕ) (t : List Char) : Parted ('i' :: t) (decimal m ++ t) := by
  have hne : decimal m ≠ [] := Nat.toDigits_ne_nil
  refine ⟨['i'], decimal m, t, 'i', _, rfl, rfl, rfl, List.getLast?_eq_some_getLast hne, ?_⟩
  intro heq
  have hdigit := decimal_isDigit (List.getLast_mem hne)
  rw [← heq] at hdigit
  exact absurd hdigit (by decide)

/-- A percent sign more in front of a topic shifts the escapes behind it. -/
theorem moduleTopic_shifted (m : ℕ) (topic : List Char) :
    (∃ rest, moduleTopic m ('%' :: topic) = '%' :: rest ∧ moduleTopic m topic = '%' :: rest) ∨
      moduleTopic m ('%' :: topic) = '%' :: moduleTopic m topic ∨
        Parted (moduleTopic m ('%' :: topic)) (moduleTopic m topic) := by
  induction topic with
  | nil => exact .inr (.inl rfl)
  | cons c topic ih =>
    by_cases hpercent : c = '%'
    · subst hpercent
      rw [moduleTopic_percent]
      rcases ih with ⟨rest, hsame, hsame'⟩ | hmore | hparted
      · exact .inr (.inl (by rw [hsame, hsame']))
      · exact .inl ⟨_, rfl, hmore⟩
      · exact .inr (.inr (hparted.symm.cons '%'))
    by_cases hindex : c = 'i'
    · subst hindex
      rw [moduleTopic_index, moduleTopic_literal m (fun _ h => absurd h (by decide))
        fun _ h => absurd h (by decide)]
      exact .inr (.inr (Parted.of_index m _).symm)
    · refine .inr (.inl (moduleTopic_literal m ?_ ?_))
      · exact fun _ _ h => hpercent (List.cons.inj h).1
      · exact fun _ _ h => hindex (List.cons.inj h).1

theorem ownTopicLoop_append_sign (p t : List Char) : ownTopicLoop (p ++ ['%']) t =
    (ownTopicLoop p t).bind fun t => if t.head? = some '%' then some t.tail else none := by
  have hnext : ∀ {ch : Char} {p : List Char}, (∀ q, ch = '%' → p = 'i' :: q → False) →
      ∀ q, ch = '%' → p ++ ['%'] = 'i' :: q → False := by
    intro ch p hindex q hch hq
    cases p with
    | nil => exact absurd (List.cons.inj hq).1 (by decide)
    | cons d p => exact hindex p hch (by rw [(List.cons.inj hq).1])
  induction p, t using ownTopicLoop.induct with
  | case1 t => exact ownTopicLoop_literal (by simp) t
  | case2 p t hdigit ih =>
    rw [List.cons_append, List.cons_append, ownTopicLoop_index, ownTopicLoop_index, if_pos hdigit,
      if_pos hdigit, ih]
  | case3 p t hdigit =>
    rw [List.cons_append, List.cons_append, ownTopicLoop_index, ownTopicLoop_index, if_neg hdigit,
      if_neg hdigit, Option.bind_none]
  | case4 ch p t hindex hhead ih =>
    rw [List.cons_append, ownTopicLoop_literal hindex, ownTopicLoop_literal (hnext hindex),
      if_pos hhead, if_pos hhead, ih]
  | case5 ch p t hindex hhead =>
    rw [List.cons_append, ownTopicLoop_literal hindex, ownTopicLoop_literal (hnext hindex),
      if_neg hhead, if_neg hhead, Option.bind_none]

theorem emuOwnTopic_suffix (topicPrefix : Option (List Char)) (topic : List Char) :
    emuOwnTopic topicPrefix topic <:+ topic := by
  cases topicPrefix with
  | none => exact List.suffix_refl topic
  | some p =>
    change (ownTopicLoop p topic).getD topic <:+ topic
    cases hloop : ownTopicLoop p topic with
    | none => exact List.suffix_refl topic
    | some rest => exact ownTopicLoop_suffix hloop

/-- A percent sign that is left over at the end of a prefix is taken from the own topic. -/
theorem emuOwnTopic_lone {m : ℕ} {p own rest : List Char} (hown : own = '%' :: rest) :
    emuOwnTopic (some (p ++ ['%'])) (moduleTopic m p ++ own) ≠ own := by
  intro hsame
  change (ownTopicLoop (p ++ ['%']) (moduleTopic m p ++ own)).getD (moduleTopic m p ++ own) = own
    at hsame
  cases hloop : ownTopicLoop (p ++ ['%']) (moduleTopic m p ++ own) with
  | none =>
    rw [hloop, Option.getD_none] at hsame
    have hempty := moduleTopic_eq_nil (List.append_left_eq_self.1 hsame)
    have hp : p = [] := by
      rw [← pieces_spelled p, hempty]
      rfl
    rw [hp, hown] at hloop
    contradiction
  | some left =>
    rw [hloop, Option.getD_some] at hsame
    rw [ownTopicLoop_append_sign] at hloop
    obtain ⟨t, ht, hsign⟩ := Option.bind_eq_some_iff.1 hloop
    have hle := ownTopicLoop_le ht
    split_ifs at hsign with hhead
    obtain ⟨t, rfl⟩ := List.head?_eq_some_iff.1 hhead
    have hleft : t = own := (Option.some.inj hsign).trans hsame
    rw [hleft, List.length_cons] at hle
    omega

/-- Where the prefix and the topic are not joined, the own topic does not come out. -/
theorem emuOwnTopic_parted {m : ℕ} {p topic : List Char} (h : ¬ Joined m p topic) :
    emuOwnTopic (some p) (moduleTopic m (p ++ topic)) ≠ moduleTopic m topic := by
  have hsign : (pieces p).getLast? = some (.literal '%') := by
    by_contra hno
    refine h ?_
    unfold Joined moduleTopic
    rw [pieces_append hno, List.flatMap_append]
  obtain ⟨q, rfl, hpieces, hlone⟩ := pieces_lone hsign
  have hfull : moduleTopic m (q ++ ['%'] ++ topic) =
      moduleTopic m q ++ moduleTopic m ('%' :: topic) := by
    unfold moduleTopic
    rw [List.append_assoc, List.singleton_append, pieces_append hlone, List.flatMap_append]
  have hsplit : moduleTopic m (q ++ ['%']) = moduleTopic m q ++ ['%'] := by
    unfold moduleTopic
    rw [hpieces, List.flatMap_append]
    rfl
  have hneq : moduleTopic m ('%' :: topic) ≠ '%' :: moduleTopic m topic := by
    intro heq
    refine h ?_
    unfold Joined
    rw [hfull, hsplit, heq, List.append_assoc, List.singleton_append]
  rw [hfull]
  rcases moduleTopic_shifted m topic with ⟨rest, hsame, hown⟩ | hmore | hparted
  · rw [hsame, ← hown]
    exact emuOwnTopic_lone hown
  · exact absurd hmore hneq
  · intro heq
    have hsuffix := emuOwnTopic_suffix (some (q ++ ['%']))
      (moduleTopic m q ++ moduleTopic m ('%' :: topic))
    rw [heq] at hsuffix
    exact hparted.symm.not_suffix _ hsuffix

theorem moduleTopic_plain (m : ℕ) {topic : List Char} (h : '%' ∉ topic) :
    moduleTopic m topic = topic := by
  induction topic with
  | nil => rfl
  | cons c topic ih =>
    rw [List.mem_cons, not_or] at h
    rw [moduleTopic_literal m (fun _ hc _ => h.1 hc.symm) fun _ hc _ => h.1 hc.symm, ih h.2]

/-- The topic that the parser leaves an entry, with module 0 for one without a module. -/
theorem applyModuleTopic_text {module : ℤ} (hmodule : module < 1000) {topic topic' : List Char}
    (h : applyModuleTopic module topic = some (.ok topic')) :
    topic' = moduleTopic module.toNat topic := by
  by_cases hfixed : module < 0
  · unfold applyModuleTopic configTopicModule at h
    rw [topicLoop_fixed hfixed topic [] _ 0 (by rw [List.length_nil]; omega), List.nil_append] at h
    rw [Int.toNat_of_nonpos hfixed.le]
    by_cases hpercent : '%' ∉ topic
    · rw [if_pos hpercent] at h
      dsimp only at h
      rw [if_neg (by omega)] at h
      rw [moduleTopic_plain 0 hpercent]
      exact (Except.ok.inj (Option.some.inj h)).symm
    · rw [if_neg hpercent] at h
      split_ifs at h
      · exact absurd (Option.some.inj h) (by simp)
      · dsimp only at h
        rw [if_neg (by omega)] at h
        exact (Except.ok.inj (Option.some.inj h)).symm
  · obtain ⟨m, rfl⟩ := Int.eq_ofNat_of_zero_le (not_lt.1 hfixed)
    have hm : m < 1000 := by omega
    have hindex := applyModuleTopic_index hm h
    unfold applyModuleTopic at h
    rw [configTopicModule_eq hm hindex] at h
    dsimp only at h
    rw [if_neg fun hno => absurd hno.2 hindex.ne'] at h
    exact (Except.ok.inj (Option.some.inj h)).symm

/-- The emulator finds the own topic of a channel exactly where the prefix can be taken off and
does not run into the topic. -/
theorem own_topic_iff (topicPrefix : Option (List Char)) {module : ℤ} (hmodule : module < 1000)
    {topic full : List Char}
    (h : applyModuleTopic module (topicPrefix.getD [] ++ topic) = some (.ok full)) :
    emuOwnTopic topicPrefix full = moduleTopic module.toNat topic ↔
      Separable (moduleTopic module.toNat topic) (pieces (topicPrefix.getD [])) ∧
        Joined module.toNat (topicPrefix.getD []) topic := by
  rw [applyModuleTopic_text hmodule h]
  cases topicPrefix with
  | none => exact iff_of_true rfl ⟨trivial, rfl⟩
  | some p =>
    change emuOwnTopic (some p) (moduleTopic module.toNat (p ++ topic)) = _ ↔
      Separable _ (pieces p) ∧ Joined module.toNat p topic
    by_cases hjoined : Joined module.toNat p topic
    · rw [and_iff_left hjoined, hjoined]
      exact emuOwnTopic_joined_iff p _ _
    · exact iff_of_false (emuOwnTopic_parted hjoined) fun hboth => hjoined hboth.2

/-- A prefix that ends in a number and a slash, in front of a topic that starts with a digit. -/
theorem own_topic_iff_example :
    emuOwnTopic (some "mod%i/".toList) "mod3/2nd/x".toList = moduleTopic 3 "2nd/x".toList :=
  (own_topic_iff (some "mod%i/".toList) (show (3 : ℤ) < 1000 by decide)
    (show applyModuleTopic 3 ("mod%i/".toList ++ "2nd/x".toList) = some (.ok "mod3/2nd/x".toList) by
      decide +kernel)).2 ⟨by decide +kernel, by decide +kernel⟩

/-- The number in the prefix is read on into an own topic that starts with a digit. -/
theorem own_topic_missed :
    ¬ ∀ (topicPrefix : Option (List Char)) (module : ℤ) (topic full : List Char), module < 1000 →
      applyModuleTopic module (topicPrefix.getD [] ++ topic) = some (.ok full) →
        emuOwnTopic topicPrefix full = moduleTopic module.toNat topic :=
  fun hall => absurd (hall (some "mod%i".toList) 3 "2nd/x".toList "mod32nd/x".toList (by decide)
    (by decide +kernel)) (by decide +kernel)

example : emuOwnTopic (some "mod%i".toList) "mod32nd/x".toList = "nd/x".toList := by
  decide +kernel

example : emuOwnTopic (some "50%%/".toList) "50%/x".toList = "50%/x".toList := by
  decide +kernel

/-- The percent sign at the end of a prefix and an index at the start of a topic. -/
example : applyModuleTopic 3 ("a%".toList ++ "%i/%i".toList) = some (.ok "a%i/3".toList) ∧
    emuOwnTopic (some "a%".toList) "a%i/3".toList = "i/3".toList := by
  decide +kernel

end Modbusmq
