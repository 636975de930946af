import Mathlib.Data.List.Basic
import Mathlib.Tactic

/-!
# Insertion behind a prefix

An element is put behind the longest prefix of a list whose elements pass a
test. `[a, b].Sublist l` says that `a` stands somewhere in front of `b` in `l`.
-/

namespace Insertion

variable {α : Type*} {q : α → Bool} {x : α} {l : List α}

/-- Put `x` behind the longest prefix of `l` that satisfies `q`. -/
def insertBehind (q : α → Bool) (x : α) (l : List α) : List α :=
  l.takeWhile q ++ x :: l.dropWhile q

theorem insertBehind_perm (q : α → Bool) (x : α) (l : List α) :
    (insertBehind q x l).Perm (x :: l) := by
  unfold insertBehind
  apply List.perm_middle.trans
  rw [List.takeWhile_append_dropWhile]

theorem sublist_insertBehind (q : α → Bool) (x : α) (l : List α) :
    l.Sublist (insertBehind q x l) := by
  unfold insertBehind
  nth_rewrite 1 [← List.takeWhile_append_dropWhile (p := q) (l := l)]
  exact (List.Sublist.refl _).append (List.sublist_cons_self x _)

theorem mem_pair {a b : α} (h : [a, b].Sublist l) : a ∈ l ∧ b ∈ l :=
  ⟨h.subset (by simp), h.subset (by simp)⟩

theorem pair_cons {a b : α} :
    [a, b].Sublist (x :: l) ↔ [a, b].Sublist l ∨ a = x ∧ b ∈ l := by
  constructor
  · intro h
    cases h with
    | cons _ h => exact .inl h
    | cons_cons _ h => exact .inr ⟨rfl, List.singleton_sublist.1 h⟩
  · rintro (h | ⟨rfl, hb⟩)
    · exact h.cons x
    · exact (List.singleton_sublist.2 hb).cons_cons a

/-- The last of some elements in order is the last of the list, or they stand before it. -/
theorem concat_sublist_concat (front : List α) {b : α} :
    (front ++ [b]).Sublist (l ++ [x]) ↔
      (front ++ [b]).Sublist l ∨ b = x ∧ front.Sublist l := by
  rw [← List.reverse_sublist, List.reverse_append, List.reverse_append]
  simp only [List.reverse_singleton, List.singleton_append]
  constructor
  · intro h
    cases h with
    | cons _ h =>
      refine .inl (List.reverse_sublist.1 ?_)
      rwa [List.reverse_append]
    | cons_cons _ h => exact .inr ⟨rfl, List.reverse_sublist.1 h⟩
  · rintro (h | ⟨rfl, h⟩)
    · apply List.Sublist.cons
      rw [← List.reverse_sublist, List.reverse_append] at h
      exact h
    · exact (List.reverse_sublist.2 h).cons_cons b

/-- Behind the prefix stands what fails the test, or has such an element in front. -/
theorem mem_dropWhile {b : α} :
    b ∈ l.dropWhile q ↔ (b ∈ l ∧ ¬ q b) ∨ ∃ d, ¬ q d ∧ [d, b].Sublist l := by
  induction l with
  | nil => simp
  | cons a l ih =>
    cases hq : q a with
    | true =>
      rw [List.dropWhile_cons_of_pos hq, ih]
      have hself : ¬ (b = a ∧ ¬ q b) := by
        rintro ⟨rfl, hb⟩
        exact hb hq
      have hpair (d : α) (hd : ¬ q d) : [d, b].Sublist (a :: l) ↔ [d, b].Sublist l := by
        rw [pair_cons]
        refine or_iff_left ?_
        rintro ⟨rfl, -⟩
        exact hd hq
      rw [List.mem_cons, or_and_right, or_iff_right hself]
      exact or_congr_right (exists_congr fun d => and_congr_right fun hd => (hpair d hd).symm)
    | false =>
      rw [List.dropWhile_cons_of_neg (by simp [hq]), List.mem_cons]
      constructor
      · rintro (rfl | hb)
        · exact .inl ⟨.inl rfl, by simp [hq]⟩
        · exact .inr ⟨a, by simp [hq], pair_cons.2 (.inr ⟨rfl, hb⟩)⟩
      · rintro (⟨hb, -⟩ | ⟨d, -, hpair⟩)
        · exact hb
        · exact List.mem_cons.1 (mem_pair hpair).2

theorem insertBehind_cons {a : α} :
    insertBehind q x (a :: l) = if q a then a :: insertBehind q x l else x :: a :: l := by
  unfold insertBehind
  rw [List.takeWhile_cons, List.dropWhile_cons]
  split <;> rfl

theorem pair_insertBehind {a b : α} (h : [a, b].Sublist (insertBehind q x l)) :
    [a, b].Sublist l ∨ a = x ∨ b = x ∧ a ∈ l ∧ q a := by
  induction l with
  | nil =>
    rcases pair_cons.1 h with h | ⟨ha, -⟩
    · cases h
    · exact .inr (.inl ha)
  | cons c l ih =>
    rw [insertBehind_cons] at h
    split at h
    · rename_i hc
      rcases pair_cons.1 h with h | ⟨rfl, hb⟩
      · rcases ih h with h | ha | ⟨hb, ha, hqa⟩
        · exact .inl (h.cons c)
        · exact .inr (.inl ha)
        · exact .inr (.inr ⟨hb, List.mem_cons_of_mem c ha, hqa⟩)
      · rcases List.mem_cons.1 ((insertBehind_perm q x l).mem_iff.1 hb) with rfl | hb
        · exact .inr (.inr ⟨rfl, List.mem_cons_self, hc⟩)
        · exact .inl (pair_cons.2 (.inr ⟨rfl, hb⟩))
    · rcases pair_cons.1 h with h | ⟨ha, -⟩
      · exact .inl h
      · exact .inr (.inl ha)

theorem pairwise_pair {R : α → α → Prop} {keep : α → Bool} {a b : α}
    (h : (l.filter keep).Pairwise R) (hpair : [a, b].Sublist l) (ha : keep a) (hb : keep b) :
    R a b := by
  have hkept := hpair.filter keep
  rw [List.filter_cons_of_pos ha, List.filter_cons_of_pos hb, List.filter_nil] at hkept
  exact List.pairwise_pair.1 (h.sublist hkept)

/-- A relation along the elements of a kind, when one more of the kind is inserted. -/
theorem pairwise_insertBehind {R : α → α → Prop} (keep : α → Bool) (hx : keep x) :
    ((insertBehind q x l).filter keep).Pairwise R ↔
      (l.filter keep).Pairwise R ∧ (∀ a ∈ l.takeWhile q, keep a → R a x) ∧
        ∀ b ∈ l.dropWhile q, keep b → R x b := by
  have hwhole : l.filter keep =
      (l.takeWhile q).filter keep ++ (l.dropWhile q).filter keep := by
    rw [← List.filter_append, List.takeWhile_append_dropWhile]
  unfold insertBehind
  rw [hwhole, List.filter_append, List.filter_cons_of_pos hx, List.pairwise_append,
    List.pairwise_append, List.pairwise_cons]
  simp only [List.mem_filter, List.mem_cons, forall_eq_or_imp, and_imp]
  constructor
  · rintro ⟨hfront, ⟨hafter, hback⟩, hacross⟩
    exact ⟨⟨hfront, hback, fun a ha hka => (hacross a ha hka).2⟩,
      fun a ha hka => (hacross a ha hka).1, hafter⟩
  · rintro ⟨⟨hfront, hback, hacross⟩, hbefore, hafter⟩
    exact ⟨hfront, ⟨hafter, hback⟩, fun a ha hka => ⟨hbefore a ha hka, hacross a ha hka⟩⟩

end Insertion
