import Mathlib.Tactic

/-!
# Texts line by line

A text cut behind every separator, and what a rewriting of the single lines does
to the text: where each line stays one line, the lines of the new text are the
new lines.
-/

namespace Lines

variable {α : Type*} [DecidableEq α] (sep : α)

/-- The lines of a text, each with the separator that ends it. -/
def split : List α → List (List α)
  | [] => []
  | a :: rest =>
    if a = sep then [a] :: split rest
    else
      match split rest with
      | [] => [[a]]
      | line :: more => (a :: line) :: more

/-- Lines of a text: all end with the separator, but for the last that may not. -/
inductive AreLines : List (List α) → Prop
  | nil : AreLines []
  | last {line : List α} (hsep : sep ∉ line) (hne : line ≠ []) : AreLines [line]
  | closed {body : List α} {lines : List (List α)} (hsep : sep ∉ body) (h : AreLines lines) :
      AreLines ((body ++ [sep]) :: lines)

/-- A rewriting that leaves one line one line. -/
structure KeepsLines (f : List α → List α) : Prop where
  last : ∀ {line}, sep ∉ line → line ≠ [] → sep ∉ f line ∧ f line ≠ []
  closed : ∀ {body}, sep ∉ body → ∃ body', sep ∉ body' ∧ f (body ++ [sep]) = body' ++ [sep]

def rewrite (f : List α → List α) (text : List α) : List α := (split sep text).flatMap f

variable {sep}

theorem split_areLines (text : List α) : AreLines sep (split sep text) := by
  induction text with
  | nil => exact .nil
  | cons a rest ih =>
    unfold split
    split_ifs with ha
    · subst ha
      have hclosed : AreLines a (([] ++ [a]) :: split a rest) := .closed List.not_mem_nil ih
      exact hclosed
    · have hnot : ∀ {line : List α}, sep ∉ line → sep ∉ a :: line := by
        intro line hline
        simp [hline, Ne.symm ha]
      generalize split sep rest = lines at ih
      cases ih with
      | nil => exact .last (hnot List.not_mem_nil) (List.cons_ne_nil _ _)
      | last hsep hne => exact .last (hnot hsep) (List.cons_ne_nil _ _)
      | @closed body lines hsep h =>
        have hclosed : AreLines sep ((a :: body ++ [sep]) :: lines) := .closed (hnot hsep) h
        exact hclosed

theorem split_closed {body : List α} (hsep : sep ∉ body) (rest : List α) :
    split sep (body ++ [sep] ++ rest) = (body ++ [sep]) :: split sep rest := by
  induction body with
  | nil => simp [split]
  | cons a body ih =>
    obtain ⟨ha, hbody⟩ := not_or.1 (mt List.mem_cons.2 hsep)
    rw [List.cons_append, List.cons_append, split, if_neg (Ne.symm ha), ih hbody]

theorem split_last {line : List α} (hsep : sep ∉ line) (hne : line ≠ []) :
    split sep line = [line] := by
  induction line with
  | nil => exact absurd rfl hne
  | cons a line ih =>
    obtain ⟨ha, hline⟩ := not_or.1 (mt List.mem_cons.2 hsep)
    rw [split, if_neg (Ne.symm ha)]
    cases line with
    | nil => rfl
    | cons b line => rw [ih hline (List.cons_ne_nil _ _)]

theorem AreLines.split_flatten {lines : List (List α)} (h : AreLines sep lines) :
    split sep lines.flatten = lines := by
  induction h with
  | nil => rfl
  | last hsep hne => rw [List.flatten_singleton, split_last hsep hne]
  | closed hsep _ ih => rw [List.flatten_cons, split_closed hsep, ih]

omit [DecidableEq α] in
theorem AreLines.map {f : List α → List α} (hf : KeepsLines sep f) {lines : List (List α)}
    (h : AreLines sep lines) : AreLines sep (lines.map f) := by
  induction h with
  | nil => exact .nil
  | last hsep hne =>
    obtain ⟨hsep', hne'⟩ := hf.last hsep hne
    exact .last hsep' hne'
  | closed hsep _ ih =>
    obtain ⟨body, hbody, heq⟩ := hf.closed hsep
    rw [List.map_cons, heq]
    exact .closed hbody ih

theorem split_rewrite {f : List α → List α} (hf : KeepsLines sep f) (text : List α) :
    split sep (rewrite sep f text) = (split sep text).map f := by
  rw [rewrite, List.flatMap_def]
  exact ((split_areLines text).map hf).split_flatten

/-- Rewriting a text twice is rewriting it once where this is so for every line. -/
theorem rewrite_rewrite {f : List α → List α} (hf : KeepsLines sep f)
    (hidem : ∀ line, f (f line) = f line) (text : List α) :
    rewrite sep f (rewrite sep f text) = rewrite sep f text := by
  have hlines : (split sep text).map (f ∘ f) = (split sep text).map f :=
    List.map_congr_left fun line _ => hidem line
  rw [rewrite, split_rewrite hf, rewrite, List.flatMap_def, List.flatMap_def, List.map_map, hlines]

omit [DecidableEq α] in
/-- A text is cut where its first part ends, if what follows does not go on like it. -/
theorem takeWhile_cut {p : α → Bool} {before rest : List α} (hbefore : ∀ a ∈ before, p a)
    (hrest : ∀ a ∈ rest.head?, ¬ p a) :
    (before ++ rest).takeWhile p = before ∧ (before ++ rest).dropWhile p = rest := by
  rw [List.takeWhile_append_of_pos hbefore, List.dropWhile_append_of_pos hbefore]
  cases rest with
  | nil => exact ⟨List.append_nil _, rfl⟩
  | cons a rest =>
    have ha : ¬ p a := hrest a rfl
    rw [List.takeWhile_cons_of_neg ha, List.dropWhile_cons_of_neg ha]
    exact ⟨List.append_nil _, rfl⟩

theorem not_mem_of_mem_splitOn {text line : List α} (h : line ∈ text.splitOn sep) :
    sep ∉ line := by
  induction text generalizing line with
  | nil =>
    rw [List.splitOn_nil, List.mem_singleton] at h
    rw [h]
    exact List.not_mem_nil
  | cons ch text ih =>
    rw [List.splitOn_cons_eq_if_modifyHead] at h
    split_ifs at h with hch
    · rcases List.mem_cons.1 h with rfl | h
      · exact List.not_mem_nil
      · exact ih h
    · cases hrest : text.splitOn sep with
      | nil => exact absurd hrest (List.splitOn_ne_nil _ _)
      | cons first rest =>
        rw [hrest, List.modifyHead_cons] at h
        rcases List.mem_cons.1 h with rfl | h
        · have hne : sep ≠ ch := fun heq => hch (beq_iff_eq.2 heq.symm)
          exact fun hmem => (List.mem_cons.1 hmem).elim hne (ih (hrest ▸ List.mem_cons_self))
        · exact ih (hrest ▸ List.mem_cons_of_mem _ h)

end Lines
