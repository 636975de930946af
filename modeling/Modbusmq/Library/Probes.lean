import Mathlib.Tactic

/-!
# Probing a silent party

A party that misses too many requests in a row is only probed, with a wait that
doubles with every probe it misses up to a bound. A request that was sent before
the party fell silent is no probe. The first answer ends the probing.
-/

namespace Probes

/-- What happens to the requests sent to the party. -/
inductive Attempt (σ : Type*)
  | sent (s : σ)
  | answered
  | missed (s : σ)

/-- Where the party stands: with the misses since its last answer, or with the probes sent and
the number of those that were missed. -/
inductive Standing (σ : Type*)
  | responsive (misses : ℕ)
  | probed (probes : List σ) (unanswered : ℕ)
  deriving DecidableEq

/-- The misses that make a party silent, the first wait and the longest one, and the time that
is a wait after another. -/
structure Policy (τ : Type*) where
  tolerated : ℕ
  first : ℕ
  longest : ℕ
  later : τ → ℕ → τ

variable {σ τ : Type*} [DecidableEq σ]

def Policy.wait (p : Policy τ) (unanswered : ℕ) : ℕ := min (p.first * 2 ^ unanswered) p.longest

theorem Policy.wait_zero (p : Policy τ) : p.wait 0 = min p.first p.longest := by
  rw [wait, pow_zero, mul_one]

theorem Policy.wait_succ (p : Policy τ) (n : ℕ) : p.wait (n + 1) = min (p.wait n * 2) p.longest := by
  unfold wait
  rw [pow_succ, ← mul_assoc]
  omega

theorem Policy.wait_le (p : Policy τ) (n : ℕ) : p.wait n ≤ p.longest := min_le_right ..

def Standing.see (p : Policy τ) : Standing σ → Attempt σ → Standing σ
  | _, .answered => .responsive 0
  | .responsive misses, .sent _ => .responsive misses
  | .responsive misses, .missed _ =>
    if misses + 1 < p.tolerated then .responsive (misses + 1) else .probed [] 0
  | .probed probes n, .sent s => .probed (s :: probes) n
  | .probed probes n, .missed s => if s ∈ probes then .probed probes (n + 1) else .probed probes n

/-- A miss of this request counts: the party still answered, or the request is a probe. -/
def Standing.Counts : Standing σ → σ → Prop
  | .responsive _, _ => True
  | .probed probes _, s => s ∈ probes

instance (standing : Standing σ) (s : σ) : Decidable (standing.Counts s) :=
  match standing with
  | .responsive _ => isTrue trivial
  | .probed probes _ => inferInstanceAs (Decidable (s ∈ probes))

/-- The standing, and the time of the next probe. -/
structure Plan (σ τ : Type*) where
  standing : Standing σ
  due : τ

/-- A probe that is sent or missed, and the miss that starts the probing, start the wait. -/
def Plan.see (p : Policy τ) (plan : Plan σ τ) (attempt : Attempt σ × τ) : Plan σ τ where
  standing := plan.standing.see p attempt.1
  due :=
    match plan.standing.see p attempt.1 with
    | .responsive _ => plan.due
    | .probed probes n =>
      if .probed probes n = plan.standing then plan.due else p.later attempt.2 (p.wait n)

/-- The party has to be left alone. -/
def Plan.Waits [LT τ] (plan : Plan σ τ) (now : τ) : Prop :=
  ∃ probes n, plan.standing = .probed probes n ∧ now < plan.due

/-- A probe is not sent before it is due. -/
def Plan.Allows [LE τ] (plan : Plan σ τ) : Attempt σ × τ → Prop
  | (.sent _, now) => ∀ probes n, plan.standing = .probed probes n → plan.due ≤ now
  | _ => True

/-- A history in which every probe was due. -/
def Follows [LE τ] (p : Policy τ) : Plan σ τ → List (Attempt σ × τ) → Prop
  | _, [] => True
  | plan, attempt :: rest => plan.Allows attempt ∧ Follows p (plan.see p attempt) rest

theorem follows_append [LE τ] (p : Policy τ) (plan : Plan σ τ) (h h' : List (Attempt σ × τ)) :
    Follows p plan (h ++ h') ↔ Follows p plan h ∧ Follows p (h.foldl (Plan.see p) plan) h' := by
  induction h generalizing plan with
  | nil => simp [Follows]
  | cons attempt h ih => exact (and_congr_right' (ih _)).trans and_assoc.symm

theorem foldl_standing (p : Policy τ) (plan : Plan σ τ) (h : List (Attempt σ × τ)) :
    (h.foldl (Plan.see p) plan).standing = (h.map Prod.fst).foldl (Standing.see p) plan.standing := by
  induction h generalizing plan with
  | nil => rfl
  | cons attempt h ih => exact ih _

end Probes
