import Mathlib.Tactic

/-!
# Waiting by beats

Somebody looks at a clock again and again. A look counts as a beat if a whole span has
passed since the last one that counted. Who looks often enough counts as many beats as
spans fit into the time, and what makes progress with every beat is done in the end.
-/

namespace Beats

variable {span gap last now : ℕ}

def beats (span : ℕ) : ℕ → List ℕ → ℕ
  | _, [] => 0
  | last, now :: later =>
    if last + span ≤ now then beats span now later + 1 else beats span last later

/-- Between two beats there is no more than a span and the gap between two looks. -/
theorem lt_of_regular (hgap : 0 < gap) {looks : List ℕ} (hnow : now ≤ last + span)
    (hregular : (now :: looks).IsChain fun a b => b ≤ a + gap) :
    (now :: looks).getLast (List.cons_ne_nil _ _) <
      last + (beats span last looks + 1) * (span + gap) := by
  induction looks generalizing now last with
  | nil =>
    change now < last + (0 + 1) * (span + gap)
    omega
  | cons next looks ih =>
    obtain ⟨hnext, hrest⟩ := List.isChain_cons_cons.1 hregular
    rw [List.getLast_cons_cons]
    unfold beats
    split_ifs with hbeat
    · have hcount := ih (Nat.le_add_right next span) hrest
      rw [Nat.succ_mul (beats span next looks + 1)]
      omega
    · exact ih (by omega) hrest

/-- Looks that are no more than a gap apart count `n` beats in the time of `n` spans and gaps. -/
theorem le_beats (hgap : 0 < gap) {looks : List ℕ} {n : ℕ}
    (hregular : (now :: looks).IsChain fun a b => b ≤ a + gap)
    (hlate : now + n * (span + gap) ≤ (now :: looks).getLast (List.cons_ne_nil _ _)) :
    n ≤ beats span now looks := by
  have hlast := lt_of_regular hgap (Nat.le_add_right now span) hregular
  have hlt : n * (span + gap) < (beats span now looks + 1) * (span + gap) := by omega
  exact Nat.lt_succ_iff.1 (Nat.lt_of_mul_lt_mul_right hlt)

section Progress

variable {α : Type*} {look : α → Option ℕ} {raise : α → ℕ} {rank : ℕ → List α → ℕ}
  {Open : List α → Prop}

/-- What is left to do, in a history of actions: no action raises it by more than it may, and an
action that is a beat lowers it. -/
structure Descends (span : ℕ) (look : α → Option ℕ) (raise : α → ℕ) (rank : ℕ → List α → ℕ)
    (Open : List α → Prop) (history : List α) (a : α) : Prop where
  still : Open (history ++ [a]) → Open history
  idle : Open (history ++ [a]) → ∀ last, rank last (history ++ [a]) ≤ rank last history + raise a
  beat : Open (history ++ [a]) → ∀ last, ∀ now ∈ look a, last + span ≤ now →
    rank now (history ++ [a]) < rank last history + raise a

theorem open_of_later {history actions : List α}
    (hdescends : ∀ before a after, actions = before ++ a :: after →
      Descends span look raise rank Open (history ++ before) a)
    (h : Open (history ++ actions)) : Open history := by
  induction actions generalizing history with
  | nil => rwa [List.append_nil] at h
  | cons a actions ih =>
    have hfirst : Open (history ++ [a]) := by
      refine ih (fun before b after hsplit => ?_) (by rwa [← List.append_cons])
      have hb := hdescends (a :: before) b after (by rw [hsplit, List.cons_append])
      rwa [List.append_cons] at hb
    have hstill := (hdescends [] a actions rfl).still
    rw [List.append_nil] at hstill
    exact hstill hfirst

/-- With as many beats as there is left to do, everything is done. -/
theorem done_of_beats (hpos : ∀ history last, Open history → 0 < rank last history)
    {history actions : List α}
    (hdescends : ∀ before a after, actions = before ++ a :: after →
      Descends span look raise rank Open (history ++ before) a)
    (henough : rank last history + (actions.map raise).sum ≤
      beats span last (actions.filterMap look)) : ¬ Open (history ++ actions) := by
  induction actions generalizing history last with
  | nil =>
    rw [List.append_nil]
    intro hopen
    have hleft := hpos history last hopen
    change rank last history + 0 ≤ 0 at henough
    omega
  | cons a actions ih =>
    intro hopen
    have hrest : ∀ before b after, actions = before ++ b :: after →
        Descends span look raise rank Open (history ++ [a] ++ before) b := by
      rintro before b after rfl
      have h := hdescends (a :: before) b after rfl
      rwa [List.append_cons] at h
    rw [List.append_cons] at hopen
    have hfirst := hdescends [] a actions rfl
    rw [List.append_nil] at hfirst
    have hnext : Open (history ++ [a]) := open_of_later hrest hopen
    have hidle := hfirst.idle hnext last
    rw [List.map_cons, List.sum_cons] at henough
    cases hlook : look a with
    | none =>
      rw [List.filterMap_cons_none hlook] at henough
      exact ih hrest (by omega : _ ≤ beats span last _) hopen
    | some now =>
      rw [List.filterMap_cons_some hlook] at henough
      unfold beats at henough
      split_ifs at henough with hspan
      · have hlower := hfirst.beat hnext last now hlook hspan
        exact ih hrest (by omega : _ ≤ beats span now _) hopen
      · exact ih hrest (by omega : _ ≤ beats span last _) hopen

end Progress

end Beats
