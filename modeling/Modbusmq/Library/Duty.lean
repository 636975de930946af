import Mathlib.Tactic

/-!
# Duties

Some events raise a duty, some discharge it, and some must wait until no duty is
open. A program that sets a flag with every duty, holds the waiting events back
while it is set, and clears it only with a discharge, keeps its duties.
-/

/-- Which events raise a duty, which discharge it, and which must wait for that. -/
structure Duty (α : Type*) where
  Raises : α → Prop
  Discharges : α → Prop
  Waits : α → Prop

namespace Duty

variable {α : Type*} {d : Duty α} {log δ : List α} {e : α} {flag flag' : Prop}

/-- A duty has been raised and not been discharged since. -/
def Open (d : Duty α) (log : List α) : Prop :=
  ∃ before e after, log = before ++ e :: after ∧ d.Raises e ∧ ∀ x ∈ after, ¬ d.Discharges x

/-- Between an event that raises the duty and a later one that must wait there is one that
discharges it. -/
def Kept (d : Duty α) (log : List α) : Prop :=
  ∀ before e between e' after, log = before ++ e :: between ++ e' :: after →
    d.Raises e → d.Waits e' → ∃ x ∈ between, d.Discharges x

/-- The flag is set whenever a duty is open, and so far the duties are kept. -/
structure Tracked (d : Duty α) (flag : Prop) (log : List α) : Prop where
  flagged : d.Open log → flag
  kept : d.Kept log

theorem not_open_nil : ¬ d.Open [] := by
  rintro ⟨before, e, after, h, -⟩
  cases before <;> exact absurd h (by simp)

theorem kept_nil : d.Kept [] := by
  intro before e between e' after h
  cases before <;> exact absurd h (by simp)

theorem tracked_nil : d.Tracked flag [] := ⟨fun h => absurd h not_open_nil, kept_nil⟩

theorem concat_split {before : List α} {x : α} {after : List α}
    (h : log ++ [e] = before ++ x :: after) :
    (after = [] ∧ x = e ∧ before = log) ∨
      ∃ after', after = after' ++ [e] ∧ log = before ++ x :: after' := by
  rcases List.eq_nil_or_concat' after with rfl | ⟨after', y, rfl⟩
  · obtain ⟨hlog, he⟩ := List.append_inj' h rfl
    exact .inl ⟨rfl, (List.cons.inj he).1.symm, hlog.symm⟩
  · have hassoc : log ++ [e] = (before ++ x :: after') ++ [y] := by
      rw [h, List.append_assoc, List.cons_append]
    obtain ⟨hlog, he⟩ := List.append_inj' hassoc rfl
    refine .inr ⟨after', ?_, hlog⟩
    rw [(List.cons.inj he).1]

theorem open_concat (h : d.Open (log ++ [e])) : d.Raises e ∨ d.Open log ∧ ¬ d.Discharges e := by
  obtain ⟨before, x, after, hsplit, hraises, hopen⟩ := h
  rcases concat_split hsplit with ⟨-, rfl, -⟩ | ⟨after', rfl, hlog⟩
  · exact .inl hraises
  · refine .inr ⟨⟨before, x, after', hlog, hraises, fun y hy => ?_⟩, ?_⟩
    · exact hopen y (List.mem_append_left _ hy)
    · exact hopen e (List.mem_append_right _ (List.mem_singleton.2 rfl))

theorem Kept.concat (h : d.Kept log) (hwaits : d.Waits e → ¬ d.Open log) : d.Kept (log ++ [e]) := by
  intro before x between e' after hsplit hraises hwaits'
  rcases concat_split hsplit with ⟨-, rfl, hbefore⟩ | ⟨after', -, hlog⟩
  · by_contra hnone
    refine hwaits hwaits' ⟨before, x, between, hbefore.symm, hraises, fun y hy hd => ?_⟩
    exact hnone ⟨y, hy, hd⟩
  · exact h before x between e' after' hlog hraises hwaits'

theorem Tracked.concat (h : d.Tracked flag log) (hwaits : d.Waits e → ¬ flag)
    (hraises : d.Raises e → flag') (hflag : ¬ d.Discharges e → flag → flag') :
    d.Tracked flag' (log ++ [e]) := by
  constructor
  · intro hopen
    rcases open_concat hopen with hraised | ⟨hopen, hnot⟩
    · exact hraises hraised
    · exact hflag hnot (h.flagged hopen)
  · exact h.kept.concat fun hw hopen => hwaits hw (h.flagged hopen)

theorem Tracked.mono (h : d.Tracked flag log) (hflag : flag → flag') : d.Tracked flag' log :=
  ⟨hflag ∘ h.flagged, h.kept⟩

theorem Tracked.idle (h : d.Tracked flag log) (hδ : ∀ e ∈ δ, ¬ d.Raises e ∧ ¬ d.Waits e) :
    d.Tracked flag (log ++ δ) := by
  induction δ generalizing log with
  | nil => rwa [List.append_nil]
  | cons e δ ih =>
    obtain ⟨hraises, hwaits⟩ := hδ e (List.mem_cons_self ..)
    have hnext : d.Tracked flag (log ++ [e]) :=
      h.concat (fun hw => absurd hw hwaits) (fun hr => absurd hr hraises) fun _ => id
    rw [List.append_cons]
    exact ih hnext fun e' he' => hδ e' (List.mem_cons_of_mem _ he')

/-- Once the duty has been discharged the flag may be cleared. -/
theorem Tracked.clear (h : d.Tracked flag log) (hδ : ∀ e ∈ δ, ¬ d.Raises e ∧ ¬ d.Waits e)
    (hdischarged : ∃ e ∈ δ, d.Discharges e) : d.Tracked False (log ++ δ) := by
  obtain ⟨e, hmem, hd⟩ := hdischarged
  obtain ⟨δ₁, δ₂, rfl⟩ := List.append_of_mem hmem
  obtain ⟨hraises, hwaits⟩ := hδ e hmem
  have hbefore := h.idle fun e' he' => hδ e' (List.mem_append_left _ he')
  have hclear : d.Tracked False (log ++ δ₁ ++ [e]) :=
    hbefore.concat (fun hw => absurd hw hwaits) (fun hr => absurd hr hraises)
      fun hnot => absurd hd hnot
  have hafter := hclear.idle fun e' he' =>
    hδ e' (List.mem_append_right _ (List.mem_cons_of_mem _ he'))
  rw [← List.append_assoc, List.append_cons]
  exact hafter

/-- Right after an event that raises a duty nothing goes that must wait. -/
theorem Kept.adjacent (h : d.Kept log) {e' : α} {i : ℕ} (hi : log[i]? = some e)
    (hnext : log[i + 1]? = some e') (hraises : d.Raises e) : ¬ d.Waits e' := by
  intro hwaits
  obtain ⟨hlt, rfl⟩ := List.getElem?_eq_some_iff.1 hi
  obtain ⟨hlt', rfl⟩ := List.getElem?_eq_some_iff.1 hnext
  have hsplit : log = log.take i ++ log[i] :: [] ++ log[i + 1] :: log.drop (i + 2) := by
    rw [List.append_assoc, List.cons_append, List.nil_append, ← List.drop_eq_getElem_cons hlt',
      ← List.drop_eq_getElem_cons hlt, List.take_append_drop]
  obtain ⟨x, hmem, -⟩ := h _ _ _ _ _ hsplit hraises hwaits
  exact absurd hmem List.not_mem_nil

end Duty
