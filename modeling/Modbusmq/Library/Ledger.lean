import Mathlib.Data.List.Basic
import Mathlib.Data.Set.Insert
import Mathlib.Logic.Relation
import Mathlib.Tactic

/-!
# Ledgers

A ledger accepts items and lets each of them go later, in any order. An item it
owes a report is reported and then released; an item it does not owe one may
also be released unreported. Whatever the order, no item is reported twice, or
while it waits, or after its release.
-/

inductive Entry (ι : Type*)
  | accepted (i : ι)
  | reported (i : ι)
  | released (i : ι)
  deriving DecidableEq, Repr

def Entry.item {ι : Type*} : Entry ι → ι
  | accepted i | reported i | released i => i

/-- The items that wait, those whose report is owed, and everything that has happened. -/
@[ext] structure Ledger (ι : Type*) where
  waiting : Set ι
  owed : Set ι
  history : List (Entry ι)

namespace Ledger

variable {ι : Type*}

def empty : Ledger ι := ⟨∅, ∅, []⟩

inductive Step : Ledger ι → Ledger ι → Prop
  | accept {l : Ledger ι} {i : ι} {owed : Set ι} (hnew : ∀ e ∈ l.history, e.item ≠ i)
      (howed : ∀ j ≠ i, j ∈ owed ↔ j ∈ l.owed) :
      Step l ⟨insert i l.waiting, owed, l.history ++ [.accepted i]⟩
  | settle {l : Ledger ι} {i : ι} (hwaiting : i ∈ l.waiting) :
      Step l ⟨l.waiting \ {i}, l.owed, l.history ++ [.reported i, .released i]⟩
  | discard {l : Ledger ι} {i : ι} (hwaiting : i ∈ l.waiting) (hfree : i ∉ l.owed) :
      Step l ⟨l.waiting \ {i}, l.owed, l.history ++ [.released i]⟩

abbrev Steps : Ledger ι → Ledger ι → Prop := Relation.ReflTransGen Step

theorem Steps.of_eq {l l' : Ledger ι} (h : l' = l) : Steps l l' := h ▸ .refl

/-- What has happened stays written, and whether an item is owed a report does not change once
the item is accepted. -/
theorem Steps.remembers {l l' : Ledger ι} (h : Steps l l') : l.history <+: l'.history ∧
    ∀ e ∈ l.history, e.item ∈ l'.owed ↔ e.item ∈ l.owed := by
  induction h with
  | refl => exact ⟨List.prefix_refl _, fun _ _ => Iff.rfl⟩
  | tail _ hstep ih =>
    obtain ⟨hwritten, howed⟩ := ih
    cases hstep with
    | accept hnew hothers =>
      refine ⟨hwritten.trans (List.prefix_append _ _), fun e he => ?_⟩
      rw [← howed e he]
      exact hothers _ (hnew e (hwritten.subset he))
    | settle => exact ⟨hwritten.trans (List.prefix_append _ _), howed⟩
    | discard => exact ⟨hwritten.trans (List.prefix_append _ _), howed⟩

variable [DecidableEq ι]

def life (l : Ledger ι) (i : ι) : List (Entry ι) := l.history.filter (·.item = i)

/-- A waiting item has been accepted and nothing else; any other item has never been
accepted, or was reported once and then released, or was not owed a report and released. -/
structure Kept (l : Ledger ι) : Prop where
  waiting : ∀ i ∈ l.waiting, l.life i = [.accepted i]
  settled : ∀ i ∉ l.waiting, l.life i = [] ∨
    l.life i = [.accepted i, .reported i, .released i] ∨
      i ∉ l.owed ∧ l.life i = [.accepted i, .released i]

theorem kept_empty : (empty : Ledger ι).Kept where
  waiting := fun _ h => absurd h (Set.notMem_empty _)
  settled := fun _ _ => .inl rfl

theorem life_append (l : Ledger ι) (w o : Set ι) (es : List (Entry ι)) (i : ι) :
    (⟨w, o, l.history ++ es⟩ : Ledger ι).life i = l.life i ++ es.filter (·.item = i) :=
  List.filter_append ..

theorem Step.kept {l l' : Ledger ι} (h : Step l l') (hl : l.Kept) : l'.Kept := by
  cases h with
  | @accept i owed hnew howed =>
    have hunseen : l.life i = [] :=
      List.filter_eq_nil_iff.2 fun e he => by simpa using hnew e he
    have hother : ∀ j ≠ i, ([.accepted i] : List (Entry ι)).filter (·.item = j) = [] := by
      intro j hj
      simp [Entry.item, Ne.symm hj]
    constructor
    · intro j hj
      rw [life_append]
      rcases Set.mem_insert_iff.1 hj with rfl | hj
      · rw [hunseen]
        simp [Entry.item]
      · have hlife := hl.waiting j hj
        have hne : j ≠ i := by
          rintro rfl
          rw [hunseen] at hlife
          exact absurd hlife (by simp)
        rw [hother j hne, hlife]
        rfl
    · intro j hj
      have hne : j ≠ i := fun h => hj (h ▸ Set.mem_insert ..)
      rw [life_append, hother j hne, List.append_nil, howed j hne]
      exact hl.settled j fun h => hj (Set.mem_insert_of_mem _ h)
  | @settle i hwaiting =>
    have hother : ∀ j ≠ i,
        ([.reported i, .released i] : List (Entry ι)).filter (·.item = j) = [] := by
      intro j hj
      simp [Entry.item, Ne.symm hj]
    constructor
    · intro j hj
      rw [life_append, hother j hj.2, List.append_nil]
      exact hl.waiting j hj.1
    · intro j hj
      rw [life_append]
      by_cases hne : j = i
      · subst hne
        rw [hl.waiting j hwaiting]
        exact .inr (.inl (by simp [Entry.item]))
      · rw [hother j hne, List.append_nil]
        exact hl.settled j fun h => hj ⟨h, hne⟩
  | @discard i hwaiting hfree =>
    have hother : ∀ j ≠ i, ([.released i] : List (Entry ι)).filter (·.item = j) = [] := by
      intro j hj
      simp [Entry.item, Ne.symm hj]
    constructor
    · intro j hj
      rw [life_append, hother j hj.2, List.append_nil]
      exact hl.waiting j hj.1
    · intro j hj
      rw [life_append]
      by_cases hne : j = i
      · subst hne
        rw [hl.waiting j hwaiting]
        exact .inr (.inr ⟨hfree, by simp [Entry.item]⟩)
      · rw [hother j hne, List.append_nil]
        exact hl.settled j fun h => hj ⟨h, hne⟩

theorem Steps.kept {l l' : Ledger ι} (h : Steps l l') (hl : l.Kept) : l'.Kept := by
  induction h with
  | refl => exact hl
  | tail _ h ih => exact h.kept ih

/-- In a kept ledger an item whose report is owed waits unreported or was reported exactly
once, before its release. -/
theorem Kept.owed {l : Ledger ι} (hl : l.Kept) {i : ι} (h : .accepted i ∈ l.history)
    (howed : i ∈ l.owed) :
    (i ∈ l.waiting ∧ l.life i = [.accepted i]) ∨
      (i ∉ l.waiting ∧ l.life i = [.accepted i, .reported i, .released i]) := by
  by_cases hwaiting : i ∈ l.waiting
  · exact .inl ⟨hwaiting, hl.waiting i hwaiting⟩
  · rcases hl.settled i hwaiting with hnever | hlife | ⟨hfree, -⟩
    · have hmem : .accepted i ∈ l.life i := List.mem_filter.2 ⟨h, by simp [Entry.item]⟩
      rw [hnever] at hmem
      exact absurd hmem List.not_mem_nil
    · exact .inr ⟨hwaiting, hlife⟩
    · exact absurd howed hfree

end Ledger
