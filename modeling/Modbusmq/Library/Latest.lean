import Modbusmq.Library.Machine

/-!
# The latest update

A cell that takes what it can use of every message and overwrites what it had is, after a
run of messages, what the last message it could use has made of it.
-/

namespace Latest

variable {σ μ υ : Type*} (read : σ → μ → Option υ) (write : σ → υ → σ)

/-- A message is read, and what is read is written. -/
def step (s : σ) (m : μ) : σ := (read s m).elim s (write s)

/-- What the last message that can be used says. -/
def latest (s : σ) (messages : List μ) : Option υ := (messages.filterMap (read s)).getLast?

/-- Writing changes nothing about reading, and overwrites what was written before. -/
structure Overwrites : Prop where
  stable : ∀ s u m, read (write s u) m = read s m
  last : ∀ s m m' u v, read s m = some u → read s m' = some v → write (write s u) v = write s v

/-- The last message that puts anything puts `u`. -/
def Last (puts : μ → υ → Prop) (messages : List μ) (u : υ) : Prop :=
  ∃ before m after, messages = before ++ m :: after ∧ puts m u ∧ ∀ m' ∈ after, ∀ v, ¬ puts m' v

variable {read write} {s : σ} {messages : List μ} {puts : μ → υ → Prop}

theorem latest_eq_none_iff (hputs : ∀ m u, read s m = some u ↔ puts m u) :
    latest read s messages = none ↔ ∀ m ∈ messages, ∀ u, ¬ puts m u := by
  unfold latest
  rw [List.getLast?_eq_none_iff, List.filterMap_eq_nil_iff]
  simp only [← hputs, Option.eq_none_iff_forall_ne_some]

theorem latest_eq_some_iff (hputs : ∀ m u, read s m = some u ↔ puts m u) {u : υ} :
    latest read s messages = some u ↔ Last puts messages u := by
  unfold latest
  constructor
  · intro h
    obtain ⟨said, hsaid⟩ := List.getLast?_eq_some_iff.1 h
    obtain ⟨before, rest, rfl, -, hrest⟩ := List.filterMap_eq_append_iff.1 hsaid
    obtain ⟨silent, m, after, rfl, -, hm, hafter⟩ := List.filterMap_eq_cons_iff.1 hrest
    refine ⟨before ++ silent, m, after, by rw [List.append_assoc], (hputs m u).1 hm, ?_⟩
    intro m' hm' v hv
    have hnone := List.filterMap_eq_nil_iff.1 hafter m' hm'
    rw [(hputs m' v).2 hv] at hnone
    exact nomatch hnone
  · rintro ⟨before, m, after, rfl, hm, hafter⟩
    have hnil : after.filterMap (read s) = [] := List.filterMap_eq_nil_iff.2 fun m' hm' =>
      Option.eq_none_iff_forall_ne_some.2 fun v hv => hafter m' hm' v ((hputs m' v).1 hv)
    rw [List.filterMap_append, List.filterMap_cons_some ((hputs m u).2 hm), hnil,
      List.getLast?_append_cons]
    rfl

theorem latest_append_one (m : μ) :
    latest read s (messages ++ [m]) = (read s m).or (latest read s messages) := by
  unfold latest
  rw [List.filterMap_append, List.getLast?_append]
  cases hread : read s m <;> simp [hread]

theorem Overwrites.run_eq (h : Overwrites read write) :
    Machine.run (step read write) messages s = (latest read s messages).elim s (write s) := by
  induction messages using List.reverseRecOn with
  | nil => rfl
  | append_singleton messages m ih =>
    rw [Machine.run_append, ih, latest_append_one, Machine.run_cons, Machine.run_nil, step]
    cases hlatest : latest read s messages with
    | none =>
      cases hread : read s m <;> simp [hread]
    | some u =>
      obtain ⟨m', -, hu⟩ := List.mem_filterMap.1 (List.mem_of_getLast? hlatest)
      rw [Option.elim_some, h.stable]
      cases hread : read s m with
      | none => rfl
      | some v => exact h.last s m' m u v hu hread

end Latest
