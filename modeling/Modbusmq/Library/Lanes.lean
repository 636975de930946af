import Mathlib.Data.List.Basic
import Mathlib.Tactic

/-!
# Two lanes behind a head

A queue whose head is being served and keeps its place. Behind it the members of
a fast lane wait in front of all others, and both lanes are first in, first out.
The queue itself is one list; a member of the fast lane cuts in behind those that
already wait there.
-/

/-- The head, and behind it the two lanes. -/
inductive Lanes {α : Type*} (fast : α → Prop)
  | idle
  | serving (head : α) (front : { l : List α // ∀ x ∈ l, fast x })
      (back : { l : List α // ∀ x ∈ l, ¬ fast x })

namespace Lanes

variable {α : Type*} {fast : α → Prop}

def toList : Lanes fast → List α
  | idle => []
  | serving head front back => head :: (front.1 ++ back.1)

def front : Lanes fast → List α
  | idle => []
  | serving _ front _ => front.1

def back : Lanes fast → List α
  | idle => []
  | serving _ _ back => back.1

/-- The head leaves, and the first that waits takes its place. -/
def pop : Lanes fast → Lanes fast
  | idle => idle
  | serving _ ⟨x :: front, h⟩ back =>
    serving x ⟨front, fun y hy => h y (List.mem_cons_of_mem _ hy)⟩ back
  | serving _ ⟨[], h⟩ ⟨x :: back, h'⟩ =>
    serving x ⟨[], h⟩ ⟨back, fun y hy => h' y (List.mem_cons_of_mem _ hy)⟩
  | serving _ ⟨[], _⟩ ⟨[], _⟩ => idle

theorem toList_pop (l : Lanes fast) : l.pop.toList = l.toList.tail := by
  match l with
  | idle => rfl
  | serving _ ⟨x :: front, _⟩ _ => rfl
  | serving _ ⟨[], _⟩ ⟨x :: back, _⟩ => rfl
  | serving _ ⟨[], _⟩ ⟨[], _⟩ => rfl

theorem front_pop (l : Lanes fast) : l.pop.front.Sublist l.front := by
  match l with
  | idle => exact .refl _
  | serving _ ⟨x :: front, _⟩ _ => exact List.sublist_cons_self ..
  | serving _ ⟨[], _⟩ ⟨x :: back, _⟩ => exact .refl _
  | serving _ ⟨[], _⟩ ⟨[], _⟩ => exact .refl _

theorem back_pop (l : Lanes fast) : l.pop.back.Sublist l.back := by
  match l with
  | idle => exact .refl _
  | serving _ ⟨x :: front, _⟩ _ => exact .refl _
  | serving _ ⟨[], _⟩ ⟨x :: back, _⟩ => exact List.sublist_cons_self ..
  | serving _ ⟨[], _⟩ ⟨[], _⟩ => exact .refl _

theorem toList_eq_cons {l : Lanes fast} {head : α} {rest : List α} (h : l.toList = head :: rest) :
    rest = l.front ++ l.back := by
  cases l with
  | idle => exact nomatch h
  | serving _ _ _ => exact ((List.cons.inj h).2).symm

theorem fast_of_mem_front {l : Lanes fast} {x : α} (h : x ∈ l.front) : fast x := by
  cases l with
  | idle => exact absurd h List.not_mem_nil
  | serving _ front _ => exact front.2 x h

theorem not_fast_of_mem_back {l : Lanes fast} {x : α} (h : x ∈ l.back) : ¬ fast x := by
  cases l with
  | idle => exact absurd h List.not_mem_nil
  | serving _ _ back => exact back.2 x h

/-- What has entered is what has left and what is there, and both lanes are in the order
of entry. -/
structure Orderly (l : Lanes fast) (entered left : List α) : Prop where
  kept : (left ++ l.toList).Perm entered
  front : l.front.Sublist entered
  back : l.back.Sublist entered

theorem orderly_idle : Orderly (idle : Lanes fast) [] [] := ⟨.refl _, .refl _, .refl _⟩

theorem Orderly.pop {l : Lanes fast} {entered left : List α} (h : Orderly l entered left) :
    Orderly l.pop entered (left ++ l.toList.head?.toList) where
  kept := by
    rw [toList_pop, List.append_assoc]
    have hsplit : l.toList.head?.toList ++ l.toList.tail = l.toList := by
      cases l.toList <;> rfl
    rw [hsplit]
    exact h.kept
  front := (front_pop l).trans h.front
  back := (back_pop l).trans h.back

variable [DecidablePred fast]

/-- A newcomer goes to the end of its lane, or is served at once. -/
def push (x : α) : Lanes fast → Lanes fast
  | idle => serving x ⟨[], by simp⟩ ⟨[], by simp⟩
  | serving head front back =>
    if h : fast x then
      serving head ⟨front.1 ++ [x], by simpa [or_imp, forall_and, h] using front.2⟩ back
    else serving head front ⟨back.1 ++ [x], by simpa [or_imp, forall_and, h] using back.2⟩

/-- Putting a newcomer into the list. -/
def cutIn (fast : α → Prop) [DecidablePred fast] (queue : List α) (x : α) : List α :=
  match queue with
  | [] => [x]
  | head :: rest =>
    if fast x then head :: (rest.takeWhile (fast ·) ++ x :: rest.dropWhile (fast ·))
    else head :: rest ++ [x]

theorem toList_push (l : Lanes fast) (x : α) : (l.push x).toList = cutIn fast l.toList x := by
  cases l with
  | idle => rfl
  | serving head front back =>
    obtain ⟨front, hfront⟩ := front
    obtain ⟨back, hback⟩ := back
    have htake : (front ++ back).takeWhile (fast ·) = front ∧
        (front ++ back).dropWhile (fast ·) = back := by
      have hends : back.takeWhile (fast ·) = [] ∧ back.dropWhile (fast ·) = back := by
        cases back with
        | nil => exact ⟨rfl, rfl⟩
        | cons y back => simp [hback y (List.mem_cons_self ..)]
      have hall : ∀ y ∈ front, decide (fast y) = true := fun y hy => decide_eq_true (hfront y hy)
      rw [List.takeWhile_append_of_pos hall, List.dropWhile_append_of_pos hall, hends.1, hends.2,
        List.append_nil]
      exact ⟨rfl, rfl⟩
    unfold push cutIn
    dsimp only [toList]
    by_cases h : fast x
    · rw [dif_pos h, if_pos h, htake.1, htake.2]
      exact congrArg (head :: ·) (List.append_assoc ..)
    · rw [dif_neg h, if_neg h]
      exact congrArg (head :: ·) (List.append_assoc ..).symm

theorem front_push (l : Lanes fast) (x : α) :
    (l.push x).front = l.front ∨ (l.push x).front = l.front ++ [x] := by
  cases l with
  | idle => exact .inl rfl
  | serving head front back =>
    unfold push
    dsimp only
    by_cases h : fast x
    · rw [dif_pos h]
      exact .inr rfl
    · rw [dif_neg h]
      exact .inl rfl

theorem back_push (l : Lanes fast) (x : α) :
    (l.push x).back = l.back ∨ (l.push x).back = l.back ++ [x] := by
  cases l with
  | idle => exact .inl rfl
  | serving head front back =>
    unfold push
    dsimp only
    by_cases h : fast x
    · rw [dif_pos h]
      exact .inl rfl
    · rw [dif_neg h]
      exact .inr rfl

/-- A newcomer enters behind the head, and the others keep their order. -/
theorem cutIn_cons (head x : α) (rest : List α) : ∃ rest', cutIn fast (head :: rest) x =
    head :: rest' ∧ rest.Sublist rest' ∧ rest'.Perm (x :: rest) := by
  unfold cutIn
  dsimp only
  split_ifs
  · refine ⟨_, rfl, ?_, ?_⟩
    · have hsub := (List.sublist_cons_self x (rest.dropWhile (fast ·))).append_left
        (rest.takeWhile (fast ·))
      rwa [List.takeWhile_append_dropWhile] at hsub
    · refine List.perm_middle.trans (List.Perm.cons x ?_)
      rw [List.takeWhile_append_dropWhile]
  · exact ⟨rest ++ [x], rfl, List.sublist_append_left .., List.perm_append_singleton ..⟩

theorem cutIn_perm (queue : List α) (x : α) : (cutIn fast queue x).Perm (x :: queue) := by
  cases queue with
  | nil => exact .refl _
  | cons head rest =>
    obtain ⟨rest', heq, -, hperm⟩ : ∃ rest', cutIn fast (head :: rest) x = head :: rest' ∧
        rest.Sublist rest' ∧ rest'.Perm (x :: rest) := cutIn_cons head x rest
    rw [heq]
    exact (hperm.cons head).trans (.swap ..)

/-- A newcomer overtakes only those of the slow lane, and moves them by one place. -/
theorem idxOf_push_le [BEq α] [LawfulBEq α] (l : Lanes fast) (x : α) {y : α} (h : y ∈ l.toList) :
    (l.push x).toList.idxOf y ≤ l.toList.idxOf y + if fast x ∧ ¬ fast y then 1 else 0 := by
  cases l with
  | idle => exact absurd h List.not_mem_nil
  | serving head front back =>
    unfold push
    dsimp only [toList] at h ⊢
    by_cases hx : fast x
    · rw [dif_pos hx]
      change (head :: ((front.1 ++ [x]) ++ back.1)).idxOf y ≤ _
      rw [List.append_assoc, ← List.cons_append, ← List.cons_append, List.singleton_append]
      by_cases hy : y ∈ head :: front.1
      · rw [List.idxOf_append_of_mem hy, List.idxOf_append_of_mem hy]
        exact Nat.le_add_right ..
      · have hslow : ¬ fast y := by
          have hback : y ∈ back.1 := by
            rw [← List.cons_append] at h
            exact (List.mem_append.1 h).resolve_left hy
          exact back.2 y hback
        have hcons : (x :: back.1).idxOf y ≤ back.1.idxOf y + 1 := by
          by_cases hxy : x = y
          · rw [List.idxOf_cons_eq _ hxy]
            exact Nat.zero_le _
          · rw [List.idxOf_cons_ne _ hxy]
        rw [List.idxOf_append_of_notMem hy, List.idxOf_append_of_notMem hy, if_pos ⟨hx, hslow⟩]
        omega
    · rw [dif_neg hx]
      change (head :: (front.1 ++ (back.1 ++ [x]))).idxOf y ≤ _
      rw [← List.append_assoc, ← List.cons_append, List.idxOf_append_of_mem h]
      exact Nat.le_add_right ..

theorem map_cutIn {β : Type*} {quick : β → Prop} [DecidablePred quick] {f : α → β}
    (h : ∀ x, quick (f x) ↔ fast x) (queue : List α) (x : α) :
    (cutIn fast queue x).map f = cutIn quick (queue.map f) (f x) := by
  have hfast : ∀ y, decide (quick (f y)) = decide (fast y) := fun y => by simp [h y]
  cases queue with
  | nil => rfl
  | cons head rest =>
    rw [List.map_cons]
    unfold cutIn
    dsimp only
    by_cases hx : fast x
    · rw [if_pos hx, if_pos ((h x).2 hx), List.takeWhile_map, List.dropWhile_map]
      simp [Function.comp_def, hfast]
    · rw [if_neg hx, if_neg fun hq => hx ((h x).1 hq)]
      simp

theorem Orderly.push {l : Lanes fast} {entered left : List α} (h : Orderly l entered left) (x : α) :
    Orderly (l.push x) (entered ++ [x]) left where
  kept := by
    rw [toList_push]
    refine ((cutIn_perm l.toList x).append_left left).trans ?_
    exact List.perm_middle.trans ((h.kept.cons x).trans (List.perm_append_singleton ..).symm)
  front := by
    rcases front_push l x with hfront | hfront
    · rw [hfront]
      exact h.front.trans (List.sublist_append_left ..)
    · rw [hfront]
      exact h.front.append (.refl _)
  back := by
    rcases back_push l x with hback | hback
    · rw [hback]
      exact h.back.trans (List.sublist_append_left ..)
    · rw [hback]
      exact h.back.append (.refl _)

end Lanes
