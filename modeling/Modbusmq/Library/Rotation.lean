import Mathlib.Tactic

/-!
# Rotations

A rotation serves the members of a list in turn: each time the first eligible one
behind the last served, going round. Between two turns of one member every member
that stayed eligible has its turn, also when the list grows at its end meanwhile.
-/

namespace Rotation

variable {α : Type*} [DecidableEq α] {order : List α} {Eligible : α → Prop} {last a b s : α}

/-- Going round `order` from behind `last`, `b` comes before `a`. -/
def Before (order : List α) (last b a : α) : Prop :=
  (order.idxOf last < order.idxOf b ∧
    (order.idxOf b < order.idxOf a ∨ order.idxOf a ≤ order.idxOf last)) ∨
  (order.idxOf b < order.idxOf a ∧ order.idxOf a ≤ order.idxOf last)

/-- `s` is the first eligible member behind `last`. -/
structure Serves (order : List α) (Eligible : α → Prop) (last s : α) : Prop where
  mem : s ∈ order
  eligible : Eligible s
  first : ∀ b ∈ order, Eligible b → b ≠ s → Before order last s b

theorem before_last (hb : b ∈ order) (hne : b ≠ last) : Before order last b last := by
  have hidx : order.idxOf b ≠ order.idxOf last := fun h => hne ((List.idxOf_inj hb).1 h)
  unfold Before
  omega

/-- One turn brings `b` its service, or leaves it in front of `a`. -/
theorem Before.serve (h : Before order last b a) (hs : Serves order Eligible last s)
    (hb : b ∈ order) (heligible : Eligible b) : s = b ∨ s ≠ a ∧ Before order s b a := by
  by_cases hsb : s = b
  · exact .inl hsb
  · right
    have hfirst := hs.first b hb heligible (Ne.symm hsb)
    unfold Before at h hfirst ⊢
    refine ⟨?_, by omega⟩
    rintro rfl
    omega

theorem Before.append (h : Before order last b a) (hlast : last ∈ order) (hb : b ∈ order)
    (ha : a ∈ order) {longer : List α} (hstart : order <+: longer) :
    Before longer last b a := by
  obtain ⟨more, rfl⟩ := hstart
  unfold Before at h ⊢
  rwa [List.idxOf_append_of_mem hlast, List.idxOf_append_of_mem hb, List.idxOf_append_of_mem ha]

section Runs

variable {orders : ℕ → List α} {eligible : ℕ → α → Prop} {served : ℕ → α} {i j n : ℕ}

/-- The turns `i` to `j` of a rotation whose list may grow. -/
structure Turns (orders : ℕ → List α) (eligible : ℕ → α → Prop) (served : ℕ → α) (i j : ℕ) :
    Prop where
  mem : served i ∈ orders i
  grows : ∀ k, i ≤ k → k < j → orders k <+: orders (k + 1)
  serves : ∀ k, i ≤ k → k < j →
    Serves (orders (k + 1)) (eligible (k + 1)) (served k) (served (k + 1))

theorem Turns.part (h : Turns orders eligible served i j) {k l : ℕ} (hik : i ≤ k) (hkl : k ≤ l)
    (hlj : l ≤ j) : orders k <+: orders l := by
  induction l, hkl using Nat.le_induction with
  | base => exact List.prefix_rfl
  | succ l hkl ih => exact (ih (by omega)).trans (h.grows l (by omega) (by omega))

theorem Turns.served_mem (h : Turns orders eligible served i j) {k : ℕ} (hik : i ≤ k)
    (hkj : k ≤ j) : served k ∈ orders k := by
  rcases Nat.eq_or_lt_of_le hik with rfl | hlt
  · exact h.mem
  · obtain ⟨k, rfl⟩ := Nat.exists_eq_add_one_of_ne_zero (Nat.ne_zero_of_lt hlt)
    exact (h.serves k (by omega) (by omega)).mem

theorem Turns.sub (h : Turns orders eligible served i j) {k l : ℕ} (hik : i ≤ k) (hlj : l ≤ j)
    (hkl : k ≤ l) : Turns orders eligible served k l where
  mem := h.served_mem hik (hkl.trans hlj)
  grows := fun m hkm hml => h.grows m (hik.trans hkm) (hml.trans_le hlj)
  serves := fun m hkm hml => h.serves m (hik.trans hkm) (hml.trans_le hlj)

/-- Between two turns of one member every member that stays eligible is served. -/
theorem Turns.served_between (h : Turns orders eligible served i j) (hij : i < j)
    (hsame : served j = served i) (hne : b ≠ served i)
    (hb : ∀ k, i < k → k ≤ j → b ∈ orders k ∧ eligible k b) :
    ∃ k, i < k ∧ k < j ∧ served k = b := by
  by_contra hnone
  -- as long as `b` is not served it stays in front of the member served first
  have hkey : ∀ k, i ≤ k → k < j → Before (orders (k + 1)) (served k) b (served i) := by
    intro k hik
    induction k, hik using Nat.le_induction with
    | base => exact fun hlt => before_last (hb (i + 1) (by omega) (by omega)).1 hne
    | succ k hik ih =>
      intro hkj
      obtain ⟨hmem, heligible⟩ := hb (k + 1) (by omega) (by omega)
      have hfirst : served i ∈ orders (k + 1) :=
        (h.part le_rfl (by omega) (by omega)).subset h.mem
      rcases (ih (by omega)).serve (h.serves k hik (by omega)) hmem heligible with hs | ⟨-, hs⟩
      · exact absurd ⟨k + 1, by omega, hkj, hs⟩ hnone
      · exact hs.append (h.served_mem (by omega) (by omega)) hmem hfirst
          (h.grows (k + 1) (by omega) hkj)
  obtain ⟨m, rfl⟩ := Nat.exists_eq_add_one_of_ne_zero (Nat.ne_zero_of_lt hij)
  obtain ⟨hmem, heligible⟩ := hb (m + 1) hij le_rfl
  rcases (hkey m (by omega) (by omega)).serve (h.serves m (by omega) (by omega)) hmem heligible with
    hs | ⟨hs, -⟩
  · exact hne (hs.symm.trans hsame)
  · exact hs hsame

/-- Among as many turns as the list has members every member that stays eligible is served. -/
theorem Turns.served_within (h : Turns orders eligible served i j)
    (hlength : (orders j).length ≤ j + 1 - i) (hij : i ≤ j)
    (hb : ∀ k, i ≤ k → k ≤ j → b ∈ orders k ∧ eligible k b) :
    ∃ k, i ≤ k ∧ k ≤ j ∧ served k = b := by
  by_contra hnone
  have hmaps : ∀ k ∈ Finset.Icc i j, served k ∈ (orders j).toFinset.erase b := by
    intro k hk
    obtain ⟨hik, hkj⟩ := Finset.mem_Icc.1 hk
    refine Finset.mem_erase.2 ⟨fun hs => hnone ⟨k, hik, hkj, hs⟩, List.mem_toFinset.2 ?_⟩
    exact (h.part hik hkj le_rfl).subset (h.served_mem hik hkj)
  have hcard : ((orders j).toFinset.erase b).card < (Finset.Icc i j).card := by
    rw [Finset.card_erase_of_mem (List.mem_toFinset.2 (hb j hij le_rfl).1), Nat.card_Icc]
    have hle := List.toFinset_card_le (orders j)
    have hpos := Finset.card_pos.2 ⟨b, List.mem_toFinset.2 (hb j hij le_rfl).1⟩
    omega
  have hpair : ∀ k l, i ≤ k → k < l → l ≤ j → served k = served l → False := by
    intro k l hik hkl hlj hs
    obtain ⟨m, hkm, hml, hserved⟩ := (h.sub hik hlj hkl.le).served_between hkl hs.symm
      (fun hbk => hnone ⟨k, hik, hkl.le.trans hlj, hbk.symm⟩)
      fun m hkm hml => hb m (by omega) (by omega)
    exact hnone ⟨m, by omega, by omega, hserved⟩
  obtain ⟨k, hk, l, hl, hne, hs⟩ := Finset.exists_ne_map_eq_of_card_lt_of_maps_to hcard hmaps
  rw [Finset.mem_Icc] at hk hl
  rcases Nat.lt_or_gt_of_ne hne with hlt | hlt
  · exact hpair k l hk.1 hlt hl.2 hs
  · exact hpair l k hl.1 hlt hk.2 hs.symm

end Runs

/-- The eligible members stand in the order of the list. -/
theorem filter_pairwise (h : order.Nodup) (p : α → Bool) :
    (order.filter p).Pairwise fun x y => order.idxOf x < order.idxOf y := by
  refine List.Pairwise.filter p (List.pairwise_iff_getElem.2 fun i j hi hj hij => ?_)
  rwa [h.idxOf_getElem, h.idxOf_getElem]

/-- Behind an eligible member its successor among the eligible ones is served. -/
theorem serves_successor (h : order.Nodup) {p : α → Bool} {i : ℕ}
    (hi : i < (order.filter p).length)
    (hnext : (i + 1) % (order.filter p).length < (order.filter p).length) :
    Serves order (p · = true) (order.filter p)[i]
      (order.filter p)[(i + 1) % (order.filter p).length] := by
  have hsorted := List.pairwise_iff_getElem.1 (filter_pairwise h p)
  obtain ⟨hmem, heligible⟩ := List.mem_filter.1 (List.getElem_mem hnext)
  refine ⟨hmem, heligible, fun b hb hp hne => ?_⟩
  obtain ⟨j, hj, rfl⟩ := List.getElem_of_mem (List.mem_filter.2 ⟨hb, hp⟩)
  have hmono : ∀ k l (hk : k < (order.filter p).length) (hl : l < (order.filter p).length),
      k ≤ l → order.idxOf (order.filter p)[k] ≤ order.idxOf (order.filter p)[l] := by
    intro k l hk hl hkl
    rcases Nat.eq_or_lt_of_le hkl with rfl | hlt
    · exact le_rfl
    · exact (hsorted k l hk hl hlt).le
  unfold Before
  rcases Nat.lt_or_ge (i + 1) (order.filter p).length with hinside | hend
  · have hmod : (i + 1) % (order.filter p).length = i + 1 := Nat.mod_eq_of_lt hinside
    simp only [hmod] at hne ⊢
    have hstep := hsorted i (i + 1) hi hinside (Nat.lt_succ_self i)
    rcases Nat.lt_trichotomy j (i + 1) with hlt | rfl | hgt
    · exact .inl ⟨hstep, .inr (hmono j i hj hi (by omega))⟩
    · exact absurd rfl hne
    · exact .inl ⟨hstep, .inl (hsorted (i + 1) j hinside hj hgt)⟩
  · have hmod : (i + 1) % (order.filter p).length = 0 := by
      rw [show i + 1 = (order.filter p).length by omega, Nat.mod_self]
    simp only [hmod] at hne ⊢
    have hpos : 0 < j := by
      rcases Nat.eq_zero_or_pos j with rfl | hpos
      · exact absurd rfl hne
      · exact hpos
    exact .inr ⟨hsorted 0 j (by omega) hj hpos, hmono j i hj hi (by omega)⟩

/-- With all eligible members on one side of the last one served, the first is served. -/
theorem serves_first (h : order.Nodup) {p : α → Bool} {rest : List α}
    (hfirst : order.filter p = s :: rest)
    (hside : (∀ b ∈ order, p b → order.idxOf last < order.idxOf b) ∨
      ∀ b ∈ order, p b → order.idxOf b < order.idxOf last) :
    Serves order (p · = true) last s := by
  have hsorted := filter_pairwise h p
  rw [hfirst, List.pairwise_cons] at hsorted
  have hs : s ∈ order.filter p := hfirst ▸ List.mem_cons_self ..
  obtain ⟨hmem, heligible⟩ := List.mem_filter.1 hs
  refine ⟨hmem, heligible, fun b hb hp hne => ?_⟩
  have hrest : b ∈ rest := by
    have hb' : b ∈ order.filter p := List.mem_filter.2 ⟨hb, hp⟩
    rw [hfirst] at hb'
    exact (List.mem_cons.1 hb').resolve_left hne
  have hlt := hsorted.1 b hrest
  unfold Before
  rcases hside with hafter | hbefore
  · exact .inl ⟨hafter s hmem heligible, .inl hlt⟩
  · exact .inr ⟨hlt, (hbefore b hb hp).le⟩

end Rotation
