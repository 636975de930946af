import Modbusmq.Library.Rotation
import Modbusmq.Loop.Rounds

/-!
# The deep rotation

Each round visits one slave with deep inputs, the one behind the slave visited
last in the order of the configuration. That order is rebuilt from the slaves
that may be asked just now, and one that is missing from it starts the
rotation over.
-/

namespace Modbusmq

/-- One timer more among those whose slaves take turns. -/
def addSlave (order : List ℕ) (t : Timer) : List ℕ :=
  if t.tier ≠ .deep ∨ t.slave ∈ order then order else order ++ [t.slave]

def deepSlaves (timers : List Timer) : List ℕ := timers.foldl addSlave []

/-- The slave of timer `i` may not be asked yet. -/
def TurnShut (env : Env) (i : ℕ) (t : Timer) : Prop :=
  t.unresponsive ∧ env.clock (.turn i) < t.retryAt

instance (env : Env) (i : ℕ) (t : Timer) : Decidable (TurnShut env i t) :=
  inferInstanceAs (Decidable (_ ∧ _))

def hasTurn (c : Context) (env : Env) (slave : ℕ) : Bool :=
  c.timers.zipIdx.any fun (t, i) => t.tier = .deep ∧ t.slave = slave ∧ ¬ TurnShut env i t

theorem deepSlaves_concat (timers : List Timer) (t : Timer) :
    deepSlaves (timers ++ [t]) = addSlave (deepSlaves timers) t := List.foldl_concat ..

theorem deepSlaves_nodup (timers : List Timer) : (deepSlaves timers).Nodup := by
  induction timers using List.reverseRecOn with
  | nil => exact List.nodup_nil
  | append_singleton timers t ih =>
    rw [deepSlaves_concat, addSlave]
    split_ifs with hskip
    · exact ih
    · refine ih.append (List.nodup_singleton _) (List.disjoint_singleton.2 fun hmem => ?_)
      exact hskip (.inr hmem)

theorem mem_deepSlaves {timers : List Timer} {slave : ℕ} :
    slave ∈ deepSlaves timers ↔ ∃ t ∈ timers, t.tier = .deep ∧ t.slave = slave := by
  induction timers using List.reverseRecOn with
  | nil => simp [deepSlaves]
  | append_singleton timers t ih =>
    have hsplit : (∃ u ∈ timers ++ [t], u.tier = .deep ∧ u.slave = slave) ↔
        slave ∈ deepSlaves timers ∨ t.tier = .deep ∧ t.slave = slave := by
      rw [ih]
      simp [or_and_right, exists_or]
    rw [hsplit, deepSlaves_concat, addSlave]
    split_ifs with hskip
    · refine ⟨.inl, fun h => h.elim id ?_⟩
      rintro ⟨hdeep, rfl⟩
      exact hskip.resolve_left (not_not.2 hdeep)
    · rw [not_or, not_not] at hskip
      rw [List.mem_append, List.mem_singleton, eq_comm (a := slave)]
      simp [hskip.1]

theorem deepSlaves_start {c c' : Context} (h : c.identities <+: c'.identities) :
    deepSlaves c.timers <+: deepSlaves c'.timers := by
  have hfold : ∀ (timers : List Timer) (order : List ℕ), timers.foldl addSlave order =
      (timers.map Timer.identity).foldl (fun order id =>
        if id.2.1 ≠ .deep ∨ id.2.2.1 ∈ order then order else order ++ [id.2.2.1]) order := by
    intro timers order
    rw [List.foldl_map]
    rfl
  obtain ⟨more, hmore⟩ := h
  unfold deepSlaves
  unfold Context.identities at hmore
  rw [hfold, hfold, ← hmore, List.foldl_append]
  generalize List.foldl _ [] (c.timers.map Timer.identity) = order
  clear hmore
  induction more generalizing order with
  | nil => exact List.prefix_rfl
  | cons id more ih =>
    rw [List.foldl_cons]
    refine List.IsPrefix.trans ?_ (ih _)
    split_ifs
    · exact List.prefix_rfl
    · exact List.prefix_append ..

/-- The rotation goes on where it stopped: the deep timers of a slave are not asked for its
turn before the first of them is, and the slave visited last may be asked itself, or those that
may are all on one side of it. -/
structure KeepsTurn (c : Context) (env : Env) : Prop where
  first : ∀ i j t u, c.timers[i]? = some t → c.timers[j]? = some u → t.tier = .deep →
    u.tier = .deep → t.slave = u.slave → i ≤ j → TurnShut env i t → TurnShut env j u
  side : ∀ last : ℕ, c.roundDeepSlave = last → hasTurn c env last ∨
    (∀ s ∈ deepSlaves c.timers, hasTurn c env s →
      (deepSlaves c.timers).idxOf last < (deepSlaves c.timers).idxOf s) ∨
    ∀ s ∈ deepSlaves c.timers, hasTurn c env s →
      (deepSlaves c.timers).idxOf s < (deepSlaves c.timers).idxOf last

theorem hasTurn_iff {c : Context} {env : Env} {slave : ℕ} :
    hasTurn c env slave = true ↔ ∃ (i : ℕ) (t : Timer), c.timers[i]? = some t ∧ t.tier = .deep ∧
      t.slave = slave ∧ ¬ TurnShut env i t := by
  unfold hasTurn
  rw [List.any_eq_true]
  constructor
  · rintro ⟨⟨t, i⟩, hmem, h⟩
    exact ⟨i, t, List.mem_zipIdx_iff_getElem?.1 hmem, of_decide_eq_true h⟩
  · rintro ⟨i, t, ht, h⟩
    exact ⟨(t, i), List.mem_zipIdx_iff_getElem?.2 ht, decide_eq_true h⟩

/-- The first deep timer of a slave decides whether the slave has its turn. -/
theorem hasTurn_first {c : Context} {env : Env} (h : KeepsTurn c env) {l more : List Timer}
    {t : Timer} (hsplit : l ++ t :: more = c.timers) (hdeep : t.tier = .deep)
    (hnew : t.slave ∉ deepSlaves l) :
    hasTurn c env t.slave = true ↔ ¬ TurnShut env l.length t := by
  have ht : c.timers[l.length]? = some t := by
    rw [← hsplit, List.getElem?_append_right le_rfl, Nat.sub_self]
    rfl
  rw [hasTurn_iff]
  constructor
  · rintro ⟨i, u, hu, hudeep, hslave, hopen⟩ hshut
    refine hopen (h.first l.length i t u ht hu hdeep hudeep hslave.symm ?_ hshut)
    by_contra hbefore
    rw [← hsplit, List.getElem?_append_left (not_le.1 hbefore)] at hu
    exact hnew (mem_deepSlaves.2 ⟨u, List.mem_of_getElem? hu, hudeep, hslave⟩)
  · exact fun hopen => ⟨l.length, t, ht, hdeep, rfl, hopen⟩

/-- The order of a round is the order of the slaves, without those that may not be asked. -/
theorem deepOrder_eq {c : Context} {env : Env} (h : KeepsTurn c env) :
    deepOrder c env = (deepSlaves c.timers).filter (hasTurn c env) := by
  have hwalk : ∀ l : List Timer, l <+: c.timers →
      l.zipIdx.foldl (fun order (timer, i) =>
        if timer.tier ≠ .deep ∨ timer.slave ∈ order ∨
            (timer.unresponsive ∧ env.clock (.turn i) < timer.retryAt) then order
        else order ++ [timer.slave]) [] = (deepSlaves l).filter (hasTurn c env) := by
    intro l hstart
    induction l using List.reverseRecOn with
    | nil => rfl
    | append_singleton l t ih =>
      obtain ⟨more, hmore⟩ := hstart
      rw [List.append_assoc, List.singleton_append] at hmore
      have ht : c.timers[l.length]? = some t := by
        rw [← hmore, List.getElem?_append_right le_rfl, Nat.sub_self]
        rfl
      rw [List.zipIdx_append, List.foldl_append, ih ⟨t :: more, hmore⟩, deepSlaves_concat, addSlave]
      dsimp only [List.zipIdx_cons, List.zipIdx_nil, List.foldl_cons, List.foldl_nil]
      rw [Nat.zero_add]
      by_cases hdeep : t.tier = .deep
      · by_cases hold : t.slave ∈ deepSlaves l
        · have hskip : t.slave ∈ (deepSlaves l).filter (hasTurn c env) ∨
              TurnShut env l.length t := by
            by_cases hturn : hasTurn c env t.slave = true
            · exact .inl (List.mem_filter.2 ⟨hold, hturn⟩)
            · right
              by_contra hopen
              exact hturn (hasTurn_iff.2 ⟨l.length, t, ht, hdeep, rfl, hopen⟩)
          rw [if_pos (.inr hskip), if_pos (.inr hold)]
        · have hfirst := hasTurn_first h hmore hdeep hold
          have hskip : ¬ (t.tier ≠ .deep ∨ t.slave ∈ deepSlaves l) :=
            not_or.2 ⟨not_not.2 hdeep, hold⟩
          rw [if_neg hskip, List.filter_append]
          by_cases hshut : TurnShut env l.length t
          · have hturn : hasTurn c env t.slave = false :=
              Bool.not_eq_true _ ▸ fun hturn => hfirst.1 hturn hshut
            rw [if_pos (.inr (.inr hshut)), List.filter_singleton, hturn]
            simp
          · rw [List.filter_singleton, hfirst.2 hshut, if_neg]
            · simp
            · rintro (hother | hmem | hshut')
              · exact hother hdeep
              · exact hold (List.mem_filter.1 hmem).1
              · exact hshut hshut'
      · rw [if_pos (.inl hdeep), if_pos (.inl hdeep)]
  exact hwalk c.timers List.prefix_rfl

theorem roundNextDeepSlave_some {c : Context} {env : Env} (h : KeepsTurn c env) {slave : ℕ}
    (hmem : slave ∈ deepSlaves c.timers) (hturn : hasTurn c env slave = true) :
    0 ≤ roundNextDeepSlave c env := by
  have hin : slave ∈ deepOrder c env := by
    rw [deepOrder_eq h]
    exact List.mem_filter.2 ⟨hmem, hturn⟩
  unfold roundNextDeepSlave
  dsimp only
  split
  · rename_i hnil
    rw [hnil] at hin
    exact absurd hin List.not_mem_nil
  · split <;> exact Int.natCast_nonneg _

theorem roundNextDeepSlave_mem {c : Context} {env : Env} (h : KeepsTurn c env)
    (hvisit : 0 ≤ roundNextDeepSlave c env) :
    (roundNextDeepSlave c env).toNat ∈ deepSlaves c.timers := by
  have hsub : ∀ slave ∈ deepOrder c env, slave ∈ deepSlaves c.timers := by
    rw [deepOrder_eq h]
    exact fun slave hmem => (List.mem_filter.1 hmem).1
  revert hvisit
  unfold roundNextDeepSlave
  dsimp only
  split
  · exact fun hvisit => absurd hvisit (by decide)
  · rename_i first rest horder
    intro _
    split
    · rw [Int.toNat_natCast, List.getD_eq_getElem _ _ (Nat.mod_lt _ (by rw [horder]; simp))]
      exact hsub _ (List.getElem_mem _)
    · rw [Int.toNat_natCast]
      exact hsub _ (by rw [horder]; exact List.mem_cons_self ..)

/-- A round visits the first slave behind the one visited last that may be asked. -/
theorem roundNextDeepSlave_serves {c : Context} {env : Env} (h : KeepsTurn c env) {last : ℕ}
    (hlast : c.roundDeepSlave = last) (hvisit : 0 ≤ roundNextDeepSlave c env) :
    Rotation.Serves (deepSlaves c.timers) (hasTurn c env · = true) last
      (roundNextDeepSlave c env).toNat := by
  have horder := deepOrder_eq h
  have hnodup := deepSlaves_nodup c.timers
  revert hvisit
  unfold roundNextDeepSlave
  rw [hlast, horder]
  dsimp only
  split
  · exact fun hvisit => absurd hvisit (by decide)
  · rename_i first rest hfirst
    intro _
    split
    · rename_i i hi
      obtain ⟨hlt, hat, -⟩ := List.findIdx?_eq_some_iff_getElem.1 hi
      have hpos := Nat.mod_lt (i + 1) (Nat.zero_lt_of_lt hlt)
      have hserves := Rotation.serves_successor hnodup hlt hpos
      rw [show ((deepSlaves c.timers).filter (hasTurn c env))[i] = last by simpa using hat] at hserves
      rwa [Int.toNat_natCast, List.getD_eq_getElem _ _ hpos]
    · rename_i hnone
      rw [Int.toNat_natCast]
      refine Rotation.serves_first hnodup hfirst ?_
      refine (h.side last hlast).resolve_left fun hturn => ?_
      obtain ⟨i, t, ht, hdeep, hslave, -⟩ := hasTurn_iff.1 hturn
      have hmem : last ∈ (deepSlaves c.timers).filter (hasTurn c env) :=
        List.mem_filter.2 ⟨mem_deepSlaves.2 ⟨t, List.mem_of_getElem? ht, hdeep, hslave⟩, hturn⟩
      have hmiss := List.findIdx?_eq_none_iff.1 hnone last hmem
      simp at hmiss

/-- While every slave answers, the rotation goes on where it stopped. -/
theorem keepsTurn_of_answering {c : Context} (h : ∀ t ∈ c.timers, t.unresponsive = false)
    (env : Env) : KeepsTurn c env where
  first := by
    intro i j t u ht hu htdeep hudeep hslave hij hshut
    exact absurd hshut.1 (by rw [h t (List.mem_of_getElem? ht)]; simp)
  side := by
    intro last _
    by_cases hmem : last ∈ deepSlaves c.timers
    · obtain ⟨t, ht, hdeep, hslave⟩ := mem_deepSlaves.1 hmem
      obtain ⟨i, hi⟩ := List.getElem?_of_mem ht
      refine .inl (hasTurn_iff.2 ⟨i, t, hi, hdeep, hslave, fun hshut => ?_⟩)
      exact absurd hshut.1 (by rw [h t ht]; simp)
    · refine .inr (.inr fun s hs _ => ?_)
      rw [List.idxOf_eq_length hmem]
      exact List.idxOf_lt_length_iff.2 hs

/-- Subscriptions are added at the end at most, and the rotation stands where it stood. -/
structure Carries (c c' : Context) : Prop where
  identities : c.identities <+: c'.identities
  deepSlave : c'.roundDeepSlave = c.roundDeepSlave

theorem Carries.refl (c : Context) : Carries c c := ⟨List.prefix_rfl, rfl⟩

theorem Carries.trans {c₁ c₂ c₃ : Context} (h : Carries c₁ c₂) (h' : Carries c₂ c₃) :
    Carries c₁ c₃ :=
  ⟨h.identities.trans h'.identities, h'.deepSlave.trans h.deepSlave⟩

theorem KeepsRound.carries {c c' : Context} (h : KeepsRound c c') : Carries c c' :=
  ⟨h.identities ▸ List.prefix_rfl, h.deepSlave⟩

def roundVisited (c : Context) (env : Env) : Context :=
  { c with
    roundDeepSlave :=
      if 0 ≤ roundNextDeepSlave c env then roundNextDeepSlave c env else c.roundDeepSlave }

theorem roundStart_carries (c : Context) (env : Env) :
    Carries (roundVisited c env) (roundStart c env) := by
  obtain ⟨c₁, c₂, c₃, hc₁, hc₂, hc₃, -, hstart⟩ := roundStart_eq c env
  have hbegin : Carries c c₁ := by
    rw [hc₁]
    exact ⟨List.prefix_rfl, rfl⟩
  have hfast := hbegin.trans
    (roundPost_keepsRound c₁ .fast (-1) (env.clock ∘ .fast)).carries
  rw [← hc₂] at hfast
  have hdeep : Carries (roundVisited c env) c₃ := by
    rw [hc₃]
    unfold roundVisited
    split_ifs
    · have hposted := hfast.trans
        (roundPost_keepsRound c₂ .deep (roundNextDeepSlave c env) (env.clock ∘ .deep)).carries
      exact ⟨hposted.identities, rfl⟩
    · exact hfast
  rw [hstart]
  split_ifs
  · exact hdeep.trans (roundPost_keepsRound ..).carries
  · exact hdeep

/-- The round that opens takes the rotation over from the context it opens in. -/
theorem roundOpening_carries {c c₁ : Context} {env : Env} (h : roundOpening c env = some c₁) :
    Carries c c₁ := by
  have hover : Carries (timeOutHead c env) (roundOver (timeOutHead c env) env) := by
    unfold roundOver
    split_ifs <;> exact ⟨List.prefix_rfl, rfl⟩
  unfold roundOpening at h
  split_ifs at h
  obtain ⟨config, -, hif⟩ := Option.bind_eq_some_iff.1 h
  split_ifs at hif
  obtain rfl := Option.some.inj hif
  exact (timeOutHead_sameRounds c env).carries.trans hover

theorem prepare_carries {c : Context} (hc : InRounds c) (sleepTime : Millitime) (env : Env) :
    Carries ((roundOpening c env).elim c fun c₁ => roundVisited c₁ env)
      (loopPrepare c sleepTime env).ctx := by
  by_cases hopen : c.connected = true
  · rw [loopPrepare_rounds hc hopen]
    cases hopening : roundOpening c env with
    | some c₁ => exact roundStart_carries c₁ env
    | none =>
      refine (timeOutHead_sameRounds c env).carries.trans ?_
      unfold roundOver
      split_ifs <;> exact ⟨List.prefix_rfl, rfl⟩
  · unfold loopPrepare roundOpening
    rw [if_neg hopen, if_neg hopen]
    exact .refl c

theorem subscribe_carries {c : Context} (hc : InRounds c) (msg : Msg) (interval : ℤ) (env : Env) :
    Carries c (subscribe c msg interval env).2 := by
  obtain ⟨config, hconfig, hmode⟩ := hc
  rw [subscribe_rounds hconfig hmode]
  refine ⟨?_, rfl⟩
  unfold Context.identities
  rw [List.map_append]
  exact List.prefix_append ..

/-- A call carries the rotation on, past the slave it visits if it opens a round. -/
theorem Call.carries {c : Context} (hwell : WellFormed c) (hc : InRounds c) (call : Call)
    (env : Env) :
    Carries ((call.opening c env).elim c fun c₁ => roundVisited c₁ env) (call.perform c env) := by
  cases call with
  | post slaveId request =>
    unfold perform postRequest
    dsimp only
    split
    · exact ((setSlave_sameRounds c slaveId).trans (post_sameRounds _ _)).carries
    · exact (setSlave_sameRounds c slaveId).carries
  | raw text stray => exact (rawRequest_sameRounds c text stray).carries
  | subscribe slaveId request interval =>
    have hset := (setSlave_sameRounds c slaveId).carries
    unfold perform subscribeRequest
    dsimp only
    split
    · exact hset.trans (subscribe_carries (c := setSlave c slaveId) hc _ interval env)
    · exact hset
  | prepare sleepTime => exact prepare_carries hc sleepTime env
  | writeRead revents => exact (loopWriteRead_sameRounds hwell revents env).carries
  | reset => exact ((dropAll_sameRounds env _ c rfl).trans (onceRearm_sameRounds _ env)).carries
  | rearm => exact (onceRearm_sameRounds c env).carries
  | focus slave =>
    unfold perform setFocus
    dsimp only
    split
    · exact .refl c
    · split_ifs
      all_goals exact ⟨List.prefix_rfl, rfl⟩
  | connect opened =>
    unfold perform Modbusmq.connect
    dsimp only
    split_ifs <;> exact ⟨List.prefix_rfl, rfl⟩
  | close => exact ⟨List.prefix_rfl, rfl⟩
  | configure => exact ⟨List.prefix_rfl, rfl⟩
  | arrive => exact ⟨List.prefix_rfl, rfl⟩

/-- The rotation of one round goes on in the next. -/
def Follows (r r' : Context × Env) : Prop := Carries (roundVisited r.1 r.2) r'.1

theorem rounds_chain {began : Millitime} {c : Context} (h : RoundState began c)
    (hc : WellFormed c) {calls : List (Call × Env)} (hkeep : ∀ call ∈ calls, KeepsMode call.1) :
    (rounds calls c).IsChain Follows ∧ ∀ r ∈ (rounds calls c).head?, Carries c r.1 := by
  induction calls generalizing c began with
  | nil => exact ⟨.nil, fun r hr => absurd hr (by simp [rounds])⟩
  | cons call calls ih =>
    have hcarries := call.1.carries hc h.mode call.2
    obtain ⟨hchain, hhead⟩ := ih (h.perform hc call.1 call.2 (hkeep call (List.mem_cons_self ..)))
      (run_wellFormed hc [call]) fun more hmore => hkeep more (List.mem_cons_of_mem _ hmore)
    rw [rounds]
    cases hopening : call.1.opening c call.2 with
    | none =>
      rw [hopening] at hcarries
      exact ⟨hchain, fun r hr => hcarries.trans (hhead r hr)⟩
    | some c₁ =>
      rw [hopening] at hcarries
      refine ⟨List.isChain_cons.2 ⟨fun r hr => hcarries.trans (hhead r hr), hchain⟩, ?_⟩
      rintro r ⟨⟩
      obtain ⟨call, env⟩ := call
      cases call with
      | prepare sleepTime => exact roundOpening_carries hopening
      | _ => exact absurd hopening (by simp [Call.opening])

/-- A slave with deep inputs that answers. -/
def Responsive (c : Context) (slave : ℕ) : Prop :=
  slave ∈ deepSlaves c.timers ∧ ∀ t ∈ c.timers, t.slave = slave → t.unresponsive = false

instance (c : Context) (slave : ℕ) : Decidable (Responsive c slave) :=
  inferInstanceAs (Decidable (_ ∧ _))

def visits (opened : List (Context × Env)) : List ℤ :=
  opened.map fun r => roundNextDeepSlave r.1 r.2

/-- Between two visits to one slave every other slave that answered throughout is visited, and
it is visited in every stretch of as many rounds as there are slaves with deep inputs. -/
structure FairRotation (opened : List (Context × Env)) : Prop where
  between : ∀ (i j b : ℕ), i < j → j < opened.length →
    (visits opened)[i]? = (visits opened)[j]? → (visits opened)[i]? ≠ some (b : ℤ) →
    (∀ k r, i < k → k ≤ j → opened[k]? = some r → Responsive r.1 b) →
    ∃ k, i < k ∧ k < j ∧ (visits opened)[k]? = some (b : ℤ)
  within : ∀ (i n b : ℕ) (r : Context × Env), opened[i + n]? = some r →
    (deepSlaves r.1.timers).length = n + 1 →
    (∀ k r, i ≤ k → k ≤ i + n → opened[k]? = some r → Responsive r.1 b) →
    ∃ k, i ≤ k ∧ k ≤ i + n ∧ (visits opened)[k]? = some (b : ℤ)

theorem Responsive.hasTurn {c : Context} {slave : ℕ} (h : Responsive c slave) (env : Env) :
    hasTurn c env slave = true := by
  obtain ⟨t, ht, hdeep, hslave⟩ := mem_deepSlaves.1 h.1
  obtain ⟨i, hi⟩ := List.getElem?_of_mem ht
  refine hasTurn_iff.2 ⟨i, t, hi, hdeep, hslave, fun hshut => ?_⟩
  exact absurd hshut.1 (by rw [h.2 t ht hslave]; simp)

/-- Consecutive rounds that each visit a slave are turns of a rotation. -/
theorem turns_of_rounds {opened : List (Context × Env)} (hchain : opened.IsChain Follows)
    (hturns : ∀ r ∈ opened, KeepsTurn r.1 r.2) {i j : ℕ} (hij : i ≤ j) (hj : j < opened.length)
    (hvisits : ∀ k r, i ≤ k → k ≤ j → opened[k]? = some r → 0 ≤ roundNextDeepSlave r.1 r.2) :
    Rotation.Turns (fun k => opened[k]?.elim [] fun r => deepSlaves r.1.timers)
      (fun k slave => ∃ r, opened[k]? = some r ∧ hasTurn r.1 r.2 slave = true)
      (fun k => opened[k]?.elim 0 fun r => (roundNextDeepSlave r.1 r.2).toNat) i j := by
  have hround : ∀ k, k ≤ j → ∃ r, opened[k]? = some r := fun k hk =>
    ⟨_, List.getElem?_eq_getElem (by omega)⟩
  have hfollows : ∀ k r r', opened[k]? = some r → opened[k + 1]? = some r' → Follows r r' := by
    intro k r r' hr hr'
    obtain ⟨hk, rfl⟩ := List.getElem?_eq_some_iff.1 hr
    obtain ⟨hk', rfl⟩ := List.getElem?_eq_some_iff.1 hr'
    exact List.isChain_iff_getElem.1 hchain k hk'
  refine ⟨?_, fun k hik hkj => ?_, fun k hik hkj => ?_⟩
  · obtain ⟨r, hr⟩ := hround i hij
    rw [hr]
    exact roundNextDeepSlave_mem (hturns r (List.mem_of_getElem? hr)) (hvisits i r le_rfl hij hr)
  · obtain ⟨r, hr⟩ := hround k hkj.le
    obtain ⟨r', hr'⟩ := hround (k + 1) hkj
    rw [hr, hr']
    exact deepSlaves_start (c := roundVisited r.1 r.2) (hfollows k r r' hr hr').identities
  · obtain ⟨r, hr⟩ := hround k hkj.le
    obtain ⟨r', hr'⟩ := hround (k + 1) hkj
    have hvisit := hvisits k r hik hkj.le hr
    have hlast : r'.1.roundDeepSlave = ((roundNextDeepSlave r.1 r.2).toNat : ℤ) := by
      rw [(hfollows k r r' hr hr').deepSlave, Int.toNat_of_nonneg hvisit]
      exact if_pos hvisit
    have hserves := roundNextDeepSlave_serves (hturns r' (List.mem_of_getElem? hr')) hlast
      (hvisits (k + 1) r' (by omega) hkj hr')
    rw [hr, hr']
    exact ⟨hserves.mem, ⟨r', rfl, hserves.eligible⟩, fun b hb ⟨r'', hr'', hturn⟩ hne => by
      obtain rfl := Option.some.inj hr''
      exact hserves.first b hb hturn hne⟩

theorem visits_getElem? (opened : List (Context × Env)) (k : ℕ) :
    (visits opened)[k]? = opened[k]?.map fun r => roundNextDeepSlave r.1 r.2 := List.getElem?_map

/-- In a run whose rounds all find the rotation where it stopped, the rotation is fair. -/
theorem deep_rotation_fair {c₀ : Context} (h₀ : Fresh c₀) (hmode : InRounds c₀)
    (calls : List (Call × Env)) (hkeep : ∀ call ∈ calls, KeepsMode call.1)
    (hturns : ∀ r ∈ rounds calls c₀, KeepsTurn r.1 r.2) : FairRotation (rounds calls c₀) := by
  obtain ⟨hchain, -⟩ := rounds_chain (h₀.roundState hmode) h₀.wellFormed hkeep
  generalize rounds calls c₀ = opened at hchain hturns
  have hanswers : ∀ (k b : ℕ) (r : Context × Env), opened[k]? = some r → Responsive r.1 b →
      0 ≤ roundNextDeepSlave r.1 r.2 := fun k b r hr hb =>
    roundNextDeepSlave_some (hturns r (List.mem_of_getElem? hr)) hb.1 (hb.hasTurn r.2)
  have hvisited : ∀ (k b : ℕ), k < opened.length →
      (∀ r, opened[k]? = some r → 0 ≤ roundNextDeepSlave r.1 r.2) →
      (((opened[k]?.elim 0 fun r => (roundNextDeepSlave r.1 r.2).toNat) = b) ↔
        (visits opened)[k]? = some (b : ℤ)) := by
    intro k b hk hvisit
    have hr := List.getElem?_eq_getElem hk
    have hnonneg := hvisit _ hr
    rw [visits_getElem?, hr, Option.elim_some, Option.map_some, Option.some_inj]
    omega
  have hmember : ∀ (k : ℕ) (r : Context × Env) {b : ℕ}, opened[k]? = some r → Responsive r.1 b →
      b ∈ (opened[k]?.elim [] fun r => deepSlaves r.1.timers) ∧
        ∃ r, opened[k]? = some r ∧ hasTurn r.1 r.2 b = true := by
    intro k r b hr hb
    rw [hr]
    exact ⟨hb.1, r, rfl, hb.hasTurn r.2⟩
  constructor
  · intro i j b hij hj hsame hne hb
    have hri := List.getElem?_eq_getElem (hij.trans hj)
    have hrj := List.getElem?_eq_getElem hj
    have hvisits : ∀ k r, i ≤ k → k ≤ j → opened[k]? = some r →
        0 ≤ roundNextDeepSlave r.1 r.2 := by
      intro k r hik hkj hr
      rcases Nat.eq_or_lt_of_le hik with rfl | hlt
      · have hlast := hanswers j b _ hrj (hb j _ hij le_rfl hrj)
        rw [visits_getElem?, visits_getElem?, hr, hrj] at hsame
        have hturn : roundNextDeepSlave r.1 r.2 =
          roundNextDeepSlave opened[j].1 opened[j].2 := Option.some.inj hsame
        rwa [hturn]
      · exact hanswers k b r hr (hb k r hlt hkj hr)
    have hserved := turns_of_rounds hchain hturns hij.le hj hvisits
    have hfirst := (hvisited i _ (hij.trans hj) fun r => hvisits i r le_rfl hij.le).1 rfl
    have hlast := (hvisited j _ hj fun r => hvisits j r hij.le le_rfl).2 (hsame ▸ hfirst)
    have hother : b ≠ opened[i]?.elim 0 fun r => (roundNextDeepSlave r.1 r.2).toNat := by
      rintro rfl
      exact hne hfirst
    obtain ⟨k, hik, hkj, hk⟩ := hserved.served_between hij hlast hother fun k hik hkj =>
      hmember k _ (List.getElem?_eq_getElem (hkj.trans_lt hj))
        (hb k _ hik hkj (List.getElem?_eq_getElem (hkj.trans_lt hj)))
    exact ⟨k, hik, hkj, (hvisited k b (by omega) fun r => hvisits k r hik.le hkj.le).1 hk⟩
  · intro i n b r hr hlength hb
    have hj : i + n < opened.length := (List.getElem?_eq_some_iff.1 hr).1
    have hvisits : ∀ k r, i ≤ k → k ≤ i + n → opened[k]? = some r →
        0 ≤ roundNextDeepSlave r.1 r.2 := fun k r hik hkj hr =>
      hanswers k b r hr (hb k r hik hkj hr)
    have hserved := turns_of_rounds hchain hturns (Nat.le_add_right i n) hj hvisits
    have henough : (opened[i + n]?.elim [] fun r => deepSlaves r.1.timers).length ≤
        i + n + 1 - i := by
      rw [hr, Option.elim_some, hlength]
      omega
    obtain ⟨k, hik, hkj, hk⟩ := hserved.served_within henough (Nat.le_add_right i n)
      fun k hik hkj => hmember k _ (List.getElem?_eq_getElem (hkj.trans_lt hj))
        (hb k _ hik hkj (List.getElem?_eq_getElem (hkj.trans_lt hj)))
    exact ⟨k, hik, hkj, (hvisited k b (by omega) fun r => hvisits k r hik hkj).1 hk⟩

instance (c : Context) (env : Env) : Decidable (KeepsTurn c env) :=
  decidable_of_iff
    ((∀ x ∈ c.timers.zipIdx, ∀ y ∈ c.timers.zipIdx, x.1.tier = .deep → y.1.tier = .deep →
      x.1.slave = y.1.slave → x.2 ≤ y.2 → TurnShut env x.2 x.1 → TurnShut env y.2 y.1) ∧
      (0 ≤ c.roundDeepSlave → hasTurn c env c.roundDeepSlave.toNat ∨
        (∀ s ∈ deepSlaves c.timers, hasTurn c env s → (deepSlaves c.timers).idxOf
          c.roundDeepSlave.toNat < (deepSlaves c.timers).idxOf s) ∨
        ∀ s ∈ deepSlaves c.timers, hasTurn c env s → (deepSlaves c.timers).idxOf s <
          (deepSlaves c.timers).idxOf c.roundDeepSlave.toNat))
    ⟨fun h => ⟨fun i j t u ht hu => h.1 (t, i) (List.mem_zipIdx_iff_getElem?.2 ht) (u, j)
        (List.mem_zipIdx_iff_getElem?.2 hu),
      fun last hlast => by
        have hside := h.2 (by omega)
        rwa [hlast, Int.toNat_natCast] at hside⟩,
    fun h => ⟨fun x hx y hy => h.first x.2 y.2 x.1 y.1 (List.mem_zipIdx_iff_getElem?.1 hx)
        (List.mem_zipIdx_iff_getElem?.1 hy),
      fun hlast => h.side _ (Int.toNat_of_nonneg hlast).symm⟩⟩

/-- Three slaves with deep inputs, the second with three of them. -/
def rotationConfig (retryMaxMs : ℤ) : Config where
  inputs := [⟨1, .holdingRegister, 0, 0, 1, .deep, []⟩, ⟨2, .holdingRegister, 0, 0, 1, .deep, []⟩,
    ⟨2, .holdingRegister, 10, 0, 1, .deep, []⟩, ⟨2, .holdingRegister, 20, 0, 1, .deep, []⟩,
    ⟨3, .holdingRegister, 0, 0, 1, .deep, []⟩]
  offsetSize := 1
  queryMode := .rounds
  roundIntervalMs := 0
  frameDelayMs := 0
  slaveRetryMaxMs := retryMaxMs
  rawWrite := false

def rotationContext (retryMaxMs : ℤ) : Context :=
  { sampleContext .tcp [] with config := some (rotationConfig retryMaxMs), frameTimeoutMs := 500 }

/-- All inputs are subscribed, and no slave answers while the loop turns. -/
def rotationCalls : List (Call × Env) :=
  [(.subscribe 1 (.readHoldingRegisters 0 1) 1, atTime 0),
    (.subscribe 2 (.readHoldingRegisters 0 1) 1, atTime 0),
    (.subscribe 2 (.readHoldingRegisters 10 1) 1, atTime 0),
    (.subscribe 2 (.readHoldingRegisters 20 1) 1, atTime 0),
    (.subscribe 3 (.readHoldingRegisters 0 1) 1, atTime 0)] ++
  [1000, 1000, 1500, 1500, 2000, 2000, 2500, 2500, 3000].map fun now => (.prepare 100, atTime now)

theorem rotationCalls_keepMode : ∀ call ∈ rotationCalls, KeepsMode call.1 := by
  intro call hcall
  fin_cases hcall <;> trivial

/-- The slave with three inputs is the last one of the rotation, and none answers. -/
def lastSilentCalls : List (Call × Env) :=
  [(.subscribe 1 (.readHoldingRegisters 0 1) 1, atTime 0),
    (.subscribe 3 (.readHoldingRegisters 0 1) 1, atTime 0),
    (.subscribe 2 (.readHoldingRegisters 0 1) 1, atTime 0),
    (.subscribe 2 (.readHoldingRegisters 10 1) 1, atTime 0),
    (.subscribe 2 (.readHoldingRegisters 20 1) 1, atTime 0)] ++
  [1000, 1000, 1500, 1500, 2000, 2000, 2500, 2500, 3000, 3000, 3500, 3500, 4000].map
    fun now => (.prepare 100, atTime now)

/-- The last slave becomes unresponsive while it is visited, and is skipped from then on. -/
theorem deep_rotation_fair_example :
    FairRotation (rounds lastSilentCalls (rotationContext 8000)) ∧
      visits (rounds lastSilentCalls (rotationContext 8000)) = [1, 3, 2, 1, 3] ∧
      ((rounds lastSilentCalls (rotationContext 8000)).map fun r =>
        r.1.timers.any (·.unresponsive)) = [false, false, false, true, true] := by
  have hkeep : ∀ call ∈ lastSilentCalls, KeepsMode call.1 := by
    intro call hcall
    fin_cases hcall <;> trivial
  exact ⟨deep_rotation_fair ⟨rfl, rfl, rfl, rfl⟩ ⟨rotationConfig 8000, rfl, rfl⟩ lastSilentCalls
    hkeep (by decide +kernel), by decide +kernel, by decide +kernel⟩

/-- The second slave stops answering while it is visited, and the rotation starts over. -/
theorem deep_rotation_starts_over :
    ¬ ∀ (c₀ : Context) (calls : List (Call × Env)), Fresh c₀ → InRounds c₀ →
      (∀ call ∈ calls, KeepsMode call.1) → FairRotation (rounds calls c₀) := by
  intro hall
  have hfair := hall (rotationContext 8000) rotationCalls ⟨rfl, rfl, rfl, rfl⟩
    ⟨rotationConfig 8000, rfl, rfl⟩ rotationCalls_keepMode
  have hvisits : visits (rounds rotationCalls (rotationContext 8000)) = [1, 2, 1] := by
    decide +kernel
  have hanswers : ((rounds rotationCalls (rotationContext 8000)).all fun r =>
      Responsive r.1 3) = true := by decide +kernel
  have hlength : 2 < (rounds rotationCalls (rotationContext 8000)).length := by
    have h := congrArg List.length hvisits
    rw [visits, List.length_map] at h
    rw [h]
    decide
  obtain ⟨k, hk, hk', hvisit⟩ := hfair.between 0 2 3 (by decide) hlength (by rw [hvisits]; rfl)
    (by rw [hvisits]; decide) fun k r _ _ hr =>
      of_decide_eq_true (List.all_eq_true.1 hanswers r (List.mem_of_getElem? hr))
  obtain rfl : k = 1 := by omega
  rw [hvisits] at hvisit
  exact absurd hvisit (by decide)

end Modbusmq
