import Mathlib.Tactic

/-!
# Memory with an owner

An allocator that never hands out the same address twice, pointers together with
what they point to, and copies that take everything they own from the allocator.
Two owners that hold no address in common share nothing.
-/

namespace Ownership

structure Pointer (α : Type*) where
  addr : ℕ
  content : α
  deriving DecidableEq

def address {α : Type*} (p : Option (Pointer α)) : List ℕ := p.toList.map Pointer.addr

/-- The allocator: which address it hands out next, and which were given back. -/
structure Memory where
  next : ℕ
  freed : List ℕ

namespace Memory

def alloc {α : Type*} (mem : Memory) (content : α) : Pointer α × Memory :=
  (⟨mem.next, content⟩, { mem with next := mem.next + 1 })

/-- The blocks at some addresses are given back. -/
def free (mem : Memory) (addrs : List ℕ) : Memory := { mem with freed := mem.freed ++ addrs }

@[simp] theorem free_next (mem : Memory) (addrs : List ℕ) : (mem.free addrs).next = mem.next := rfl

@[simp] theorem free_freed (mem : Memory) (addrs : List ℕ) :
    (mem.free addrs).freed = mem.freed ++ addrs := rfl

/-- Some blocks are held: each by one owner, none of them given back. -/
structure Holds (mem : Memory) (addrs : List ℕ) : Prop where
  nodup : addrs.Nodup
  allocated : ∀ a ∈ addrs, a < mem.next
  alive : ∀ a ∈ addrs, a ∉ mem.freed
  past : ∀ a ∈ mem.freed, a < mem.next

/-- An operation allocates some addresses, and gives none back. -/
structure Fresh (mem mem' : Memory) (addrs : List ℕ) : Prop where
  nodup : addrs.Nodup
  inside : ∀ a ∈ addrs, mem.next ≤ a ∧ a < mem'.next
  grows : mem.next ≤ mem'.next
  freed : mem'.freed = mem.freed

namespace Fresh

variable {mem mem₁ mem₂ : Memory} {addrs addrs' : List ℕ}

theorem nil (mem : Memory) : Fresh mem mem [] :=
  ⟨List.nodup_nil, fun _ ha => absurd ha List.not_mem_nil, le_rfl, rfl⟩

theorem alloc {α : Type*} (mem : Memory) (content : α) :
    Fresh mem (mem.alloc content).2 [(mem.alloc content).1.addr] := by
  refine ⟨List.nodup_singleton _, fun a ha => ?_, Nat.le_succ _, rfl⟩
  obtain rfl := List.mem_singleton.1 ha
  exact ⟨le_rfl, Nat.lt_succ_self _⟩

theorem append (h : Fresh mem mem₁ addrs) (h' : Fresh mem₁ mem₂ addrs') :
    Fresh mem mem₂ (addrs ++ addrs') := by
  have hgrows := h.grows
  have hgrows' := h'.grows
  refine ⟨List.nodup_append.2 ⟨h.nodup, h'.nodup, ?_⟩, ?_, hgrows.trans hgrows',
    h'.freed.trans h.freed⟩
  · rintro a ha _ ha' rfl
    have hbelow := (h.inside a ha).2
    have habove := (h'.inside a ha').1
    omega
  · intro a ha
    rcases List.mem_append.1 ha with ha | ha
    · have hinside := h.inside a ha
      omega
    · have hinside := h'.inside a ha
      omega

theorem perm (h : Fresh mem mem₁ addrs) (hperm : addrs.Perm addrs') : Fresh mem mem₁ addrs' :=
  ⟨hperm.nodup_iff.1 h.nodup, fun a ha => h.inside a (hperm.mem_iff.2 ha), h.grows, h.freed⟩

end Fresh

namespace Holds

variable {mem mem' : Memory} {addrs addrs' : List ℕ}

theorem perm (h : mem.Holds addrs) (hperm : addrs.Perm addrs') : mem.Holds addrs' :=
  ⟨hperm.nodup_iff.1 h.nodup, fun a ha => h.allocated a (hperm.mem_iff.2 ha),
    fun a ha => h.alive a (hperm.mem_iff.2 ha), h.past⟩

theorem append_fresh (h : mem.Holds addrs) (hfresh : Fresh mem mem' addrs') :
    mem'.Holds (addrs ++ addrs') := by
  have hgrows := hfresh.grows
  refine ⟨List.nodup_append.2 ⟨h.nodup, hfresh.nodup, ?_⟩, ?_, ?_, ?_⟩
  · rintro a ha _ ha' rfl
    have hbelow := h.allocated a ha
    have habove := (hfresh.inside a ha').1
    omega
  · intro a ha
    rcases List.mem_append.1 ha with ha | ha
    · exact (h.allocated a ha).trans_le hgrows
    · exact (hfresh.inside a ha).2
  · intro a ha hfreed
    rw [hfresh.freed] at hfreed
    rcases List.mem_append.1 ha with ha | ha
    · exact h.alive a ha hfreed
    · have hpast := h.past a hfreed
      have habove := (hfresh.inside a ha).1
      omega
  · intro a ha
    rw [hfresh.freed] at ha
    exact (h.past a ha).trans_le hgrows

theorem free (h : mem.Holds (addrs ++ addrs')) : (mem.free addrs).Holds addrs' := by
  obtain ⟨-, hnodup, hdisjoint⟩ := List.nodup_append.1 h.nodup
  refine ⟨hnodup, fun a ha => h.allocated a (List.mem_append_right _ ha), ?_, ?_⟩
  · intro a ha hfreed
    rcases List.mem_append.1 hfreed with hfreed | hfreed
    · exact h.alive a (List.mem_append_right _ ha) hfreed
    · exact hdisjoint a hfreed a ha rfl
  · intro a ha
    rcases List.mem_append.1 ha with ha | ha
    · exact h.past a ha
    · exact h.allocated a (List.mem_append_left _ ha)

end Holds

end Memory

open Memory

variable {α β : Type*}

/-- What a pointer points to is copied; null stays null. -/
def dup (p : Option (Pointer α)) (mem : Memory) : Option (Pointer α) × Memory :=
  match p with
  | none => (none, mem)
  | some p =>
    let (copy, mem) := mem.alloc p.content
    (some copy, mem)

/-- The items of a list are copied one after the other. -/
def copyAll (copy : α → Memory → β × Memory) : List α → Memory → List β × Memory
  | [], mem => ([], mem)
  | item :: rest, mem =>
    let (made, mem) := copy item mem
    let (others, mem) := copyAll copy rest mem
    (made :: others, mem)

/-- An array is copied with its items; one without items comes out as null. -/
def copyArray (copy : α → Memory → β × Memory) (array : Option (Pointer (List α)))
    (mem : Memory) : Option (Pointer (List β)) × Memory :=
  match array.elim [] Pointer.content with
  | [] => (none, mem)
  | items =>
    let (block, mem) := mem.alloc ()
    let (copies, mem) := copyAll copy items mem
    (some ⟨block.addr, copies⟩, mem)

def arrayOwns (owns : α → List ℕ) (array : Option (Pointer (List α))) : List ℕ :=
  (array.elim [] Pointer.content).flatMap owns ++ address array

/-- A copy owns nothing but what it has allocated, and it relates to the original. -/
structure Copies (copy : α → Memory → β × Memory) (owns : β → List ℕ) (R : α → β → Prop) :
    Prop where
  fresh : ∀ a mem, Fresh mem (copy a mem).2 (owns (copy a mem).1)
  related : ∀ a mem, R a (copy a mem).1

theorem dup_copies :
    Copies dup address fun p p' : Option (Pointer α) =>
      p'.map Pointer.content = p.map Pointer.content where
  fresh := by
    intro p mem
    cases p with
    | none => exact Fresh.nil mem
    | some p => exact Fresh.alloc mem p.content
  related := by
    intro p mem
    cases p <;> rfl

namespace Copies

variable {copy : α → Memory → β × Memory} {owns : β → List ℕ} {R : α → β → Prop}

theorem copyAll (h : Copies copy owns R) :
    Copies (copyAll copy) (List.flatMap owns) (List.Forall₂ R) where
  fresh := by
    intro items
    induction items with
    | nil => exact Fresh.nil
    | cons item rest ih =>
      intro mem
      exact (h.fresh item mem).append (ih _)
  related := by
    intro items
    induction items with
    | nil => exact fun _ => .nil
    | cons item rest ih =>
      intro mem
      exact .cons (h.related item mem) (ih _)

theorem copyArray (h : Copies copy owns R) :
    Copies (copyArray copy) (arrayOwns owns) fun array array' =>
      List.Forall₂ R (array.elim [] Pointer.content) (array'.elim [] Pointer.content) where
  fresh := by
    intro array mem
    unfold Ownership.copyArray
    cases hitems : array.elim [] Pointer.content with
    | nil => exact Fresh.nil mem
    | cons item rest =>
      have hblock := Fresh.alloc mem ()
      exact (hblock.append (h.copyAll.fresh (item :: rest) _)).perm List.perm_append_comm
  related := by
    intro array mem
    unfold Ownership.copyArray
    cases hitems : array.elim [] Pointer.content with
    | nil => exact .nil
    | cons item rest => exact h.copyAll.related (item :: rest) _

end Copies

end Ownership
