import Modbusmq.Configuration.Validation
import Modbusmq.Library.Ownership

/-!
# Expanding the module templates

`config_expand_inputs` and `config_expand_writes` with the memory they work on:
every string and every channel array of an entry is a block of its own, a copy
of a template allocates its own, and the template gives its blocks back. Fields
held by value, which are copied with the struct, are parameters.
-/

namespace Modbusmq

open Ownership Ownership.Memory

def configModuleNone : ℤ := -1

def configModuleTemplate : ℤ := -2

structure ChannelRecord (C : Type) where
  values : C
  topic : Option (Pointer String)
  valueText : Option (Pointer String)
  timefmt : Option (Pointer String)

structure InputRecord (V C : Type) where
  values : V
  module : ℤ
  slave : ℤ
  channels : Option (Pointer (List (ChannelRecord C)))

structure WriteChannelRecord (C : Type) where
  values : C
  name : Option (Pointer String)

structure WriteRecord (V C : Type) where
  values : V
  module : ℤ
  slave : ℤ
  hasSlave : Bool
  name : Option (Pointer String)
  topic : Option (Pointer String)
  ackTopic : Option (Pointer String)
  channels : Option (Pointer (List (WriteChannelRecord C)))

variable {V C : Type}

/-- The strings of a channel, in the order `config_free_input_channels` frees them. -/
def ChannelRecord.owns (channel : ChannelRecord C) : List ℕ :=
  address channel.topic ++ address channel.valueText ++ address channel.timefmt

def InputRecord.owns (input : InputRecord V C) : List ℕ :=
  arrayOwns ChannelRecord.owns input.channels

def WriteRecord.owns (write : WriteRecord V C) : List ℕ :=
  address write.name ++ address write.topic ++ address write.ackTopic ++
    arrayOwns (fun channel => address channel.name) write.channels

/-- The part of `config_copy_input` for one channel: the strings are `config_strdup`ed. -/
def copyChannel (src : ChannelRecord C) (mem : Memory) : ChannelRecord C × Memory :=
  let (topic, mem) := dup src.topic mem
  let (valueText, mem) := dup src.valueText mem
  let (timefmt, mem) := dup src.timefmt mem
  ({ src with topic := topic, valueText := valueText, timefmt := timefmt }, mem)

def configCopyInput (src : InputRecord V C) (module slave : ℤ) (mem : Memory) :
    InputRecord V C × Memory :=
  let (channels, mem) := copyArray copyChannel src.channels mem
  ({ src with module := module, slave := slave, channels := channels }, mem)

def copyWriteChannel (src : WriteChannelRecord C) (mem : Memory) :
    WriteChannelRecord C × Memory :=
  let (name, mem) := dup src.name mem
  ({ src with name := name }, mem)

def configCopyWrite (src : WriteRecord V C) (module slave : ℤ) (mem : Memory) :
    WriteRecord V C × Memory :=
  let (name, mem) := dup src.name mem
  let (topic, mem) := dup src.topic mem
  let (ackTopic, mem) := dup src.ackTopic mem
  let (channels, mem) := copyArray copyWriteChannel src.channels mem
  ({ src with
      module := module
      slave := slave
      hasSlave := true
      name := name
      topic := topic
      ackTopic := ackTopic
      channels := channels }, mem)

section

variable {Entry : Type} (module : Entry → ℤ) (copy : Entry → ℤ → ℤ → Memory → Entry × Memory)
  (owns : Entry → List ℕ)

def countTemplates (count : ℤ) : ℕ → List Entry → Except ConfigError ℕ
  | _, [] => .ok 0
  | i, entry :: rest =>
    if module entry ≠ configModuleTemplate then countTemplates count (i + 1) rest
    else if count ≤ 0 then .error (.noModules i)
    else (countTemplates count (i + 1) rest).map (· + 1)

/-- The inner loop, for module `m`; a fixed entry is moved to where it stands, with what it
owns. -/
def expandEntries (m slave : ℤ) : List Entry → Memory → List Entry × Memory
  | [], mem => ([], mem)
  | src :: rest, mem =>
    if module src ≠ configModuleTemplate then
      let (made, mem) := expandEntries m slave rest mem
      (if m = 0 then src :: made else made, mem)
    else
      let (made, mem) := copy src m slave mem
      let (others, mem) := expandEntries m slave rest mem
      (made :: others, mem)

def expandModules (first : ℤ) (entries : List Entry) : ℕ → ℤ → Memory → List Entry × Memory
  | 0, _, mem => ([], mem)
  | k + 1, m, mem =>
    let (made, mem) := expandEntries module copy m (first + m) entries mem
    let (others, mem) := expandModules first entries k (m + 1) mem
    (made ++ others, mem)

def releaseTemplates : List Entry → Memory → Memory
  | [], mem => mem
  | entry :: rest, mem =>
    releaseTemplates rest (if module entry = configModuleTemplate then mem.free (owns entry) else mem)

def expandRecords (count first : ℤ) (entries : List Entry) (mem : Memory) :
    Except ConfigError (List Entry × Memory) :=
  match countTemplates module count 0 entries with
  | .error e => .error e
  | .ok ntemplate =>
    let total := (entries.length - ntemplate : ℤ) + ntemplate * count
    if ntemplate = 0 then .ok (entries, mem)
    else if inputWriteMax < total then .error (.tooManyEntries total)
    else
      let (made, mem) := expandModules module copy first entries count.toNat 0 mem
      .ok (made, releaseTemplates module owns entries mem)

end

def configExpandInputs (count first : ℤ) (inputs : List (InputRecord V C)) (mem : Memory) :
    Except ConfigError (List (InputRecord V C) × Memory) :=
  expandRecords InputRecord.module configCopyInput InputRecord.owns count first inputs mem

def configExpandWrites (count first : ℤ) (writes : List (WriteRecord V C)) (mem : Memory) :
    Except ConfigError (List (WriteRecord V C) × Memory) :=
  expandRecords WriteRecord.module configCopyWrite WriteRecord.owns count first writes mem

structure ChannelRecord.Same (channel channel' : ChannelRecord C) : Prop where
  values : channel'.values = channel.values
  topic : channel'.topic.map Pointer.content = channel.topic.map Pointer.content
  valueText : channel'.valueText.map Pointer.content = channel.valueText.map Pointer.content
  timefmt : channel'.timefmt.map Pointer.content = channel.timefmt.map Pointer.content

structure InputRecord.Same (input input' : InputRecord V C) : Prop where
  values : input'.values = input.values
  module : input'.module = input.module
  slave : input'.slave = input.slave
  channels : List.Forall₂ ChannelRecord.Same (input.channels.elim [] Pointer.content)
    (input'.channels.elim [] Pointer.content)

structure WriteChannelRecord.Same (channel channel' : WriteChannelRecord C) : Prop where
  values : channel'.values = channel.values
  name : channel'.name.map Pointer.content = channel.name.map Pointer.content

structure WriteRecord.Same (write write' : WriteRecord V C) : Prop where
  values : write'.values = write.values
  module : write'.module = write.module
  slave : write'.slave = write.slave
  hasSlave : write'.hasSlave = write.hasSlave
  name : write'.name.map Pointer.content = write.name.map Pointer.content
  topic : write'.topic.map Pointer.content = write.topic.map Pointer.content
  ackTopic : write'.ackTopic.map Pointer.content = write.ackTopic.map Pointer.content
  channels : List.Forall₂ WriteChannelRecord.Same (write.channels.elim [] Pointer.content)
    (write'.channels.elim [] Pointer.content)

/-- A template put in its place: only the module and the slave change. -/
def InputRecord.place (input : InputRecord V C) (module slave : ℤ) : InputRecord V C :=
  { input with module := module, slave := slave }

/-- A template put in its place: only the module and the slave change. -/
def WriteRecord.place (write : WriteRecord V C) (module slave : ℤ) : WriteRecord V C :=
  { write with module := module, slave := slave }

/-- What an entry is to the expansion: where it stands, what it owns, and how it is copied. -/
structure EntryKind (Entry : Type) where
  module : Entry → ℤ
  slave : Entry → ℤ
  owns : Entry → List ℕ
  copy : Entry → ℤ → ℤ → Memory → Entry × Memory
  place : Entry → ℤ → ℤ → Entry
  Same : Entry → Entry → Prop

def inputKind (V C : Type) : EntryKind (InputRecord V C) where
  module := InputRecord.module
  slave := InputRecord.slave
  owns := InputRecord.owns
  copy := configCopyInput
  place := InputRecord.place
  Same := InputRecord.Same

def writeKind (V C : Type) : EntryKind (WriteRecord V C) where
  module := WriteRecord.module
  slave := WriteRecord.slave
  owns := WriteRecord.owns
  copy := configCopyWrite
  place := WriteRecord.place
  Same := WriteRecord.Same

namespace EntryKind

variable {Entry : Type} (kind : EntryKind Entry)

def fixed (entries : List Entry) : List Entry :=
  entries.filter fun entry => kind.module entry = configModuleNone

def templates (entries : List Entry) : List Entry :=
  entries.filter fun entry => kind.module entry = configModuleTemplate

def contribution (first : ℤ) (entries : List Entry) (m : ℕ) : List Entry :=
  entries.filterMap fun entry =>
    if kind.module entry = configModuleTemplate then some (kind.place entry m (first + m))
    else if m = 0 then some entry else none

/-- The outcome of an expansion: module by module, in an order that is the file's; fixed entries
moved with all they own, and of every template one copy for each module, which shares nothing
with any other entry. -/
structure Expanded (count first : ℤ) (entries : List Entry) (mem : Memory) (made : List Entry)
    (mem' : Memory) : Prop where
  order : List.Forall₂ kind.Same
    ((List.range (max count 1).toNat).flatMap (kind.contribution first entries)) made
  fixed : kind.fixed made = kind.fixed entries
  copies : ∀ m : ℕ, (m : ℤ) < count → List.Forall₂ kind.Same
    ((kind.templates entries).map fun entry => kind.place entry m (first + m))
    (made.filter fun entry => kind.module entry = m)
  slaves : ∀ entry ∈ made, kind.module entry = configModuleNone ∨
    ∃ m : ℕ, (m : ℤ) < count ∧ kind.module entry = m ∧ kind.slave entry = first + m ∧
      1 ≤ kind.slave entry ∧ kind.slave entry ≤ configSlaveMax
  length : (made.length : ℤ) =
    (kind.fixed entries).length + (kind.templates entries).length * count
  held : mem'.Holds (made.flatMap kind.owns)
  freed : mem'.freed = mem.freed ++ (kind.templates entries).flatMap kind.owns

/-- An expansion fails when there are templates and no modules for them, or more entries than
fit, and otherwise it expands. -/
structure Expands (count first : ℤ) (entries : List Entry) (mem : Memory)
    (result : Except ConfigError (List Entry × Memory)) : Prop where
  fails : (∃ e, result = .error e) ↔ kind.templates entries ≠ [] ∧ (count = 0 ∨
    inputWriteMax < (kind.fixed entries).length + (kind.templates entries).length * count)
  expands : ∀ made mem', result = .ok (made, mem') →
    kind.Expanded count first entries mem made mem'

/-- Entries as the parser leaves them: with a slave or as a template, and each with blocks of
its own. -/
structure Read (entries : List Entry) (mem : Memory) : Prop where
  module : ∀ entry ∈ entries,
    kind.module entry = configModuleNone ∨ kind.module entry = configModuleTemplate
  held : mem.Holds (entries.flatMap kind.owns)

/-- The copies of a kind of entry are copies. -/
structure Lawful (P : Entry → Prop) : Prop where
  refl : ∀ entry, kind.Same entry entry
  module : ∀ {entry entry'}, kind.Same entry entry' → kind.module entry' = kind.module entry
  slave : ∀ {entry entry'}, kind.Same entry entry' → kind.slave entry' = kind.slave entry
  placed : ∀ entry m s, kind.module (kind.place entry m s) = m ∧ kind.slave (kind.place entry m s) = s
  fresh : ∀ entry m s mem, Fresh mem (kind.copy entry m s mem).2
    (kind.owns (kind.copy entry m s mem).1)
  same : ∀ entry, P entry → ∀ m s mem,
    kind.Same (kind.place entry m s) (kind.copy entry m s mem).1

end EntryKind

theorem copyChannel_copies :
    Copies (copyChannel (C := C)) ChannelRecord.owns ChannelRecord.Same where
  fresh := fun channel mem =>
    ((dup_copies.fresh channel.topic mem).append (dup_copies.fresh channel.valueText _)).append
      (dup_copies.fresh channel.timefmt _)
  related := fun channel mem => ⟨rfl, dup_copies.related channel.topic mem,
    dup_copies.related channel.valueText _, dup_copies.related channel.timefmt _⟩

theorem copyWriteChannel_copies : Copies (copyWriteChannel (C := C))
    (fun channel => address channel.name) WriteChannelRecord.Same where
  fresh := fun channel mem => dup_copies.fresh channel.name mem
  related := fun channel mem => ⟨rfl, dup_copies.related channel.name mem⟩

theorem inputKind_lawful : (inputKind V C).Lawful fun _ => True where
  refl := fun _ => ⟨rfl, rfl, rfl, List.forall₂_same.2 fun _ _ => ⟨rfl, rfl, rfl, rfl⟩⟩
  module := fun h => h.module
  slave := fun h => h.slave
  placed := fun _ _ _ => ⟨rfl, rfl⟩
  fresh := fun input _ _ mem => copyChannel_copies.copyArray.fresh input.channels mem
  same := fun input _ _ _ mem =>
    ⟨rfl, rfl, rfl, copyChannel_copies.copyArray.related input.channels mem⟩

theorem writeKind_lawful : (writeKind V C).Lawful fun write => write.hasSlave = true where
  refl := fun _ =>
    ⟨rfl, rfl, rfl, rfl, rfl, rfl, rfl, List.forall₂_same.2 fun _ _ => ⟨rfl, rfl⟩⟩
  module := fun h => h.module
  slave := fun h => h.slave
  placed := fun _ _ _ => ⟨rfl, rfl⟩
  fresh := fun write _ _ mem =>
    (((dup_copies.fresh write.name mem).append (dup_copies.fresh write.topic _)).append
      (dup_copies.fresh write.ackTopic _)).append
        (copyWriteChannel_copies.copyArray.fresh write.channels _)
  same := fun write hslave _ _ mem =>
    ⟨rfl, rfl, rfl, hslave.symm, dup_copies.related write.name mem,
      dup_copies.related write.topic _, dup_copies.related write.ackTopic _,
      copyWriteChannel_copies.copyArray.related write.channels _⟩

namespace EntryKind

variable {Entry : Type} {kind : EntryKind Entry} {P : Entry → Prop} {count first : ℤ}
  {entries : List Entry} {mem : Memory}

theorem template_ne_none : configModuleTemplate ≠ configModuleNone := by decide

theorem templates_cons {entry : Entry} (h : kind.module entry = configModuleTemplate)
    (rest : List Entry) : kind.templates (entry :: rest) = entry :: kind.templates rest :=
  List.filter_cons_of_pos (by simpa using h)

theorem templates_cons_fixed {entry : Entry} (h : kind.module entry ≠ configModuleTemplate)
    (rest : List Entry) : kind.templates (entry :: rest) = kind.templates rest :=
  List.filter_cons_of_neg (by simpa using h)

theorem fixed_cons {entry : Entry} (h : kind.module entry = configModuleNone)
    (rest : List Entry) : kind.fixed (entry :: rest) = entry :: kind.fixed rest :=
  List.filter_cons_of_pos (by simpa using h)

theorem fixed_cons_template {entry : Entry} (h : kind.module entry ≠ configModuleNone)
    (rest : List Entry) : kind.fixed (entry :: rest) = kind.fixed rest :=
  List.filter_cons_of_neg (by simpa using h)

theorem contribution_cons {entry : Entry} (h : kind.module entry = configModuleTemplate)
    (rest : List Entry) (m : ℕ) : kind.contribution first (entry :: rest) m =
      kind.place entry m (first + m) :: kind.contribution first rest m := by
  unfold contribution
  rw [List.filterMap_cons, if_pos h]

theorem contribution_cons_fixed {entry : Entry} (h : kind.module entry ≠ configModuleTemplate)
    (rest : List Entry) (m : ℕ) : kind.contribution first (entry :: rest) m =
      if m = 0 then entry :: kind.contribution first rest m
      else kind.contribution first rest m := by
  unfold contribution
  rw [List.filterMap_cons, if_neg h]
  split_ifs <;> rfl

theorem countTemplates_eq (i : ℕ) :
    (∃ e, countTemplates kind.module count i entries = .error e) ∧
        kind.templates entries ≠ [] ∧ count ≤ 0 ∨
      countTemplates kind.module count i entries = .ok (kind.templates entries).length ∧
        (kind.templates entries = [] ∨ 0 < count) := by
  induction entries generalizing i with
  | nil => exact .inr ⟨rfl, .inl rfl⟩
  | cons entry rest ih =>
    unfold countTemplates
    by_cases htemplate : kind.module entry = configModuleTemplate
    · rw [if_neg (not_not.2 htemplate), templates_cons htemplate]
      by_cases hcount : count ≤ 0
      · rw [if_pos hcount]
        exact .inl ⟨⟨_, rfl⟩, List.cons_ne_nil _ _, hcount⟩
      · rw [if_neg hcount]
        obtain ⟨-, -, hno⟩ | ⟨hok, -⟩ := ih (i + 1)
        · exact absurd hno hcount
        · rw [hok]
          exact .inr ⟨rfl, .inr (not_le.1 hcount)⟩
    · rw [if_pos htemplate, templates_cons_fixed htemplate]
      exact ih (i + 1)

/-- What some of the loops make: copies of what is expected, in its order, which take all they own
from the allocator, and fixed entries that are moved. -/
structure Pass (kind : EntryKind Entry) (expected moved : List Entry) (mem : Memory)
    (made : List Entry) (mem' : Memory) : Prop where
  order : List.Forall₂ kind.Same expected made
  fixed : kind.fixed made = moved
  fresh : Fresh mem mem'
    ((made.filter fun entry => kind.module entry ≠ configModuleNone).flatMap kind.owns)

theorem Pass.append {expected expected' moved moved' made made' : List Entry}
    {mem₁ mem₂ : Memory} (h : kind.Pass expected moved mem made mem₁)
    (h' : kind.Pass expected' moved' mem₁ made' mem₂) :
    kind.Pass (expected ++ expected') (moved ++ moved') mem (made ++ made') mem₂ where
  order := List.rel_append h.order h'.order
  fixed := by
    unfold EntryKind.fixed
    rw [List.filter_append]
    exact congrArg₂ _ h.fixed h'.fixed
  fresh := by
    rw [List.filter_append, List.flatMap_append]
    exact h.fresh.append h'.fresh

theorem expandEntries_pass (h : kind.Lawful P) (m : ℕ)
    (hread : ∀ e ∈ entries, kind.module e = configModuleNone ∨
      kind.module e = configModuleTemplate ∧ P e) :
    kind.Pass (kind.contribution first entries m) (if m = 0 then kind.fixed entries else []) mem
      (expandEntries kind.module kind.copy m (first + m) entries mem).1
      (expandEntries kind.module kind.copy m (first + m) entries mem).2 := by
  induction entries generalizing mem with
  | nil => exact ⟨.nil, by split_ifs <;> rfl, Fresh.nil mem⟩
  | cons entry rest ih =>
    have hrest := fun e he => hread e (List.mem_cons_of_mem _ he)
    unfold expandEntries
    rcases hread entry (List.mem_cons_self ..) with hmodule | ⟨hmodule, hP⟩
    · have hne : kind.module entry ≠ configModuleTemplate := by
        rw [hmodule]
        exact template_ne_none.symm
      obtain ⟨horder, hfixed, hfresh⟩ := ih hrest
      rw [if_pos hne]
      by_cases hm : m = 0
      · subst hm
        refine ⟨?_, ?_, ?_⟩
        · rw [contribution_cons_fixed hne, if_pos rfl]
          exact .cons (h.refl entry) horder
        · change kind.fixed (entry :: _) = _
          rw [fixed_cons hmodule, fixed_cons hmodule, hfixed]
          rfl
        · change Fresh mem _ (List.flatMap kind.owns (List.filter _ (entry :: _)))
          rw [List.filter_cons_of_neg (by simpa using hmodule)]
          exact hfresh
      · have hzero : ¬ (m : ℤ) = 0 := by exact_mod_cast hm
        rw [if_neg hm] at hfixed
        dsimp only
        rw [if_neg hzero]
        refine ⟨?_, ?_, hfresh⟩
        · rw [contribution_cons_fixed hne, if_neg hm]
          exact horder
        · rw [if_neg hm]
          exact hfixed
    · have hsame := h.same entry hP m (first + m) mem
      have hplaced : kind.module (kind.copy entry m (first + m) mem).1 = m :=
        (h.module hsame).trans (h.placed entry m (first + m)).1
      have hcopy : kind.module (kind.copy entry m (first + m) mem).1 ≠ configModuleNone := by
        rw [hplaced]
        unfold configModuleNone
        omega
      obtain ⟨horder, hfixed, hfresh⟩ := ih hrest
      rw [if_neg (not_not.2 hmodule)]
      dsimp only
      refine ⟨?_, ?_, ?_⟩
      · rw [contribution_cons hmodule]
        exact .cons hsame horder
      · rw [fixed_cons_template hcopy, fixed_cons_template (by rw [hmodule]; exact template_ne_none)]
        exact hfixed
      · rw [List.filter_cons_of_pos (by simpa using hcopy), List.flatMap_cons]
        exact (h.fresh entry m (first + m) mem).append hfresh

theorem expandModules_pass (h : kind.Lawful P)
    (hread : ∀ e ∈ entries, kind.module e = configModuleNone ∨
      kind.module e = configModuleTemplate ∧ P e) (k m : ℕ) :
    kind.Pass ((List.range' m k).flatMap (kind.contribution first entries))
      ((List.range' m k).flatMap fun m => if m = 0 then kind.fixed entries else []) mem
      (expandModules kind.module kind.copy first entries k m mem).1
      (expandModules kind.module kind.copy first entries k m mem).2 := by
  induction k generalizing m mem with
  | zero => exact ⟨.nil, rfl, Fresh.nil mem⟩
  | succ k ih =>
    rw [List.range'_succ, List.flatMap_cons, List.flatMap_cons]
    exact (expandEntries_pass h m hread).append (ih (m + 1))

theorem flatMap_first {α : Type} (items : List α) {k : ℕ} (hk : 0 < k) :
    (List.range' 0 k).flatMap (fun m => if m = 0 then items else []) = items := by
  obtain ⟨k, rfl⟩ := Nat.exists_eq_succ_of_ne_zero hk.ne'
  rw [List.range'_succ, List.flatMap_cons, if_pos rfl]
  have hnone : (List.range' 1 k).flatMap (fun m => if m = 0 then items else []) = [] := by
    rw [List.flatMap_eq_nil_iff]
    intro m hm
    have hpos := (List.mem_range'_1.1 hm).1
    exact if_neg (by omega)
  rw [hnone, List.append_nil]

theorem releaseTemplates_eq (entries : List Entry) (mem : Memory) :
    releaseTemplates kind.module kind.owns entries mem =
      mem.free ((kind.templates entries).flatMap kind.owns) := by
  induction entries generalizing mem with
  | nil => exact congrArg (Memory.mk mem.next) (List.append_nil mem.freed).symm
  | cons entry rest ih =>
    unfold releaseTemplates
    rw [ih]
    by_cases htemplate : kind.module entry = configModuleTemplate
    · rw [if_pos htemplate, templates_cons htemplate, List.flatMap_cons]
      exact congrArg (Memory.mk mem.next) (List.append_assoc _ _ _)
    · rw [if_neg htemplate, templates_cons_fixed htemplate]

theorem contribution_length (hread : ∀ e ∈ entries, kind.module e = configModuleNone ∨
      kind.module e = configModuleTemplate) (m : ℕ) :
    (kind.contribution first entries m).length =
      (kind.templates entries).length + if m = 0 then (kind.fixed entries).length else 0 := by
  induction entries with
  | nil => split_ifs <;> rfl
  | cons entry rest ih =>
    have hrest := ih fun e he => hread e (List.mem_cons_of_mem _ he)
    rcases hread entry (List.mem_cons_self ..) with hmodule | hmodule
    · have hne : kind.module entry ≠ configModuleTemplate := by
        rw [hmodule]
        exact template_ne_none.symm
      rw [contribution_cons_fixed hne, templates_cons_fixed hne, fixed_cons hmodule]
      split_ifs at hrest ⊢
      · rw [List.length_cons, List.length_cons, hrest, Nat.add_assoc]
      · exact hrest
    · rw [contribution_cons hmodule, templates_cons hmodule,
        fixed_cons_template (by rw [hmodule]; exact template_ne_none), List.length_cons,
        List.length_cons, hrest]
      omega

theorem contribution_module (h : kind.Lawful P) (hread : ∀ e ∈ entries,
      kind.module e = configModuleNone ∨ kind.module e = configModuleTemplate) (m i : ℕ) :
    (kind.contribution first entries m).filter (fun entry => kind.module entry = i) =
      if i = m then (kind.templates entries).map fun entry => kind.place entry m (first + m)
      else [] := by
  induction entries with
  | nil => split_ifs <;> rfl
  | cons entry rest ih =>
    have hrest := ih fun e he => hread e (List.mem_cons_of_mem _ he)
    rcases hread entry (List.mem_cons_self ..) with hmodule | hmodule
    · have hne : kind.module entry ≠ configModuleTemplate := by
        rw [hmodule]
        exact template_ne_none.symm
      have hother : kind.module entry ≠ i := by
        rw [hmodule]
        unfold configModuleNone
        omega
      rw [contribution_cons_fixed hne, templates_cons_fixed hne]
      by_cases hm : m = 0
      · rw [if_pos hm, List.filter_cons_of_neg (by simpa using hother)]
        exact hrest
      · rw [if_neg hm]
        exact hrest
    · have hplaced := (h.placed entry m (first + m)).1
      rw [contribution_cons hmodule, templates_cons hmodule]
      by_cases hi : i = m
      · rw [if_pos hi] at hrest ⊢
        rw [List.filter_cons_of_pos (by rw [hplaced, hi]; simp), hrest, List.map_cons]
      · have hne : (m : ℤ) ≠ i := fun hsame => hi (Nat.cast_injective hsame).symm
        rw [if_neg hi] at hrest ⊢
        rw [List.filter_cons_of_neg (by rw [hplaced]; simpa using hne), hrest]

theorem modules_length (hread : ∀ e ∈ entries, kind.module e = configModuleNone ∨
      kind.module e = configModuleTemplate) (n : ℕ) :
    ((List.range n).flatMap (kind.contribution first entries)).length =
      (kind.templates entries).length * n + if n = 0 then 0 else (kind.fixed entries).length := by
  induction n with
  | zero => rfl
  | succ n ih =>
    rw [List.range_succ, List.flatMap_append, List.length_append, ih, List.flatMap_singleton,
      contribution_length hread, Nat.mul_succ, if_neg (Nat.succ_ne_zero n)]
    split_ifs <;> omega

theorem modules_filter (h : kind.Lawful P) (hread : ∀ e ∈ entries,
      kind.module e = configModuleNone ∨ kind.module e = configModuleTemplate) (n i : ℕ) :
    ((List.range n).flatMap (kind.contribution first entries)).filter
        (fun entry => kind.module entry = i) =
      if i < n then (kind.templates entries).map fun entry => kind.place entry i (first + i)
      else [] := by
  induction n with
  | zero => rfl
  | succ n ih =>
    rw [List.range_succ, List.flatMap_append, List.filter_append, ih, List.flatMap_singleton,
      contribution_module h hread]
    by_cases hi : i = n
    · subst hi
      rw [if_neg (lt_irrefl i), if_pos rfl, if_pos (Nat.lt_succ_self i), List.nil_append]
    · rw [if_neg hi, List.append_nil]
      exact if_congr (by omega) rfl rfl

theorem contribution_fixed (h : kind.templates entries = []) (m : ℕ) :
    kind.contribution first entries m = if m = 0 then entries else [] := by
  induction entries with
  | nil => split_ifs <;> rfl
  | cons entry rest ih =>
    by_cases htemplate : kind.module entry = configModuleTemplate
    · rw [templates_cons htemplate] at h
      exact absurd h (List.cons_ne_nil _ _)
    · rw [templates_cons_fixed htemplate] at h
      rw [contribution_cons_fixed htemplate, ih h]
      split_ifs <;> rfl

theorem templates_append_fixed (hread : ∀ e ∈ entries, kind.module e = configModuleNone ∨
      kind.module e = configModuleTemplate) :
    (kind.templates entries ++ kind.fixed entries).Perm entries := by
  have hfixed : kind.fixed entries =
      entries.filter fun e => !decide (kind.module e = configModuleTemplate) := by
    refine List.filter_congr fun e he => ?_
    rcases hread e he with hmodule | hmodule <;> rw [hmodule] <;> decide
  rw [hfixed]
  exact List.filter_append_perm _ entries

/-- What the loops make, once the templates have given back what they own. -/
theorem Pass.expanded {config : BridgeConfig} {made : List Entry} {mem₁ : Memory}
    (h : kind.Lawful P) (hread : kind.Read entries mem)
    (hchecked : checkModules config = .ok ()) (hfirst : 1 ≤ config.moduleSlaveFirst)
    (hcount : 0 ≤ config.moduleCount)
    (hmodules : kind.templates entries = [] ∨ 0 < config.moduleCount)
    (hpass : kind.Pass ((List.range (max config.moduleCount 1).toNat).flatMap
      (kind.contribution config.moduleSlaveFirst entries)) (kind.fixed entries) mem made mem₁) :
    kind.Expanded config.moduleCount config.moduleSlaveFirst entries mem made
      (mem₁.free ((kind.templates entries).flatMap kind.owns)) where
  order := hpass.order
  fixed := hpass.fixed
  copies := by
    intro m hm
    have hfilter := List.rel_filter (p := fun e => kind.module e = m)
      (q := fun e => kind.module e = m)
      (fun e e' hsame => by simp only [decide_eq_true_iff, h.module hsame]) hpass.order
    rwa [modules_filter h hread.module, if_pos (by omega)] at hfilter
  slaves := by
    intro e' he'
    obtain ⟨e, he, hsame⟩ := forall₂_mem_right hpass.order he'
    obtain ⟨m, hm, he⟩ := List.mem_flatMap.1 he
    obtain ⟨entry, hentry, hplaced⟩ := List.mem_filterMap.1 he
    rw [List.mem_range] at hm
    rw [h.module hsame, h.slave hsame]
    split_ifs at hplaced with htemplate hzero
    · obtain rfl := Option.some.inj hplaced
      obtain ⟨hmodule, hslave⟩ := h.placed entry m (config.moduleSlaveFirst + m)
      have hpos : 0 < config.moduleCount := hmodules.resolve_left
        (List.ne_nil_of_mem (List.mem_filter.2 ⟨hentry, by simpa using htemplate⟩))
      have hlt : (m : ℤ) < config.moduleCount := by omega
      rw [hmodule, hslave]
      exact .inr ⟨m, hlt, rfl, rfl, module_slave_range hchecked hfirst hlt⟩
    · obtain rfl := Option.some.inj hplaced
      exact .inl ((hread.module entry hentry).resolve_right htemplate)
  length := by
    rw [← hpass.order.length_eq, modules_length hread.module, if_neg (by omega)]
    rcases hmodules with hnone | hpos
    · rw [hnone]
      simp
    · rw [max_eq_left (by omega)]
      push_cast
      rw [Int.toNat_of_nonneg hcount]
      ring
  held := by
    have hparts : ((kind.templates entries).flatMap kind.owns ++
        (kind.fixed entries).flatMap kind.owns).Perm (entries.flatMap kind.owns) := by
      rw [← List.flatMap_append]
      exact (templates_append_fixed hread.module).flatMap_right _
    have hall := (hread.held.perm hparts.symm).append_fresh hpass.fresh
    rw [List.append_assoc] at hall
    refine hall.free.perm ?_
    rw [← List.flatMap_append, ← hpass.fixed]
    have hsplit := List.filter_append_perm (fun e => decide (kind.module e = configModuleNone)) made
    simp only [← decide_not] at hsplit
    exact hsplit.flatMap_right _
  freed := congrArg (· ++ (kind.templates entries).flatMap kind.owns) hpass.fresh.freed

theorem expands {config : BridgeConfig} (h : kind.Lawful P) (hread : kind.Read entries mem)
    (hP : ∀ e ∈ entries, kind.module e = configModuleTemplate → P e)
    (hchecked : checkModules config = .ok ()) (hfirst : 1 ≤ config.moduleSlaveFirst)
    (hcount : 0 ≤ config.moduleCount) :
    kind.Expands config.moduleCount config.moduleSlaveFirst entries mem
      (expandRecords kind.module kind.copy kind.owns config.moduleCount config.moduleSlaveFirst
        entries mem) := by
  have hparts := (templates_append_fixed hread.module).length_eq
  rw [List.length_append] at hparts
  unfold expandRecords
  have hcounts : (∃ e, countTemplates kind.module config.moduleCount 0 entries = .error e) ∧ _ ∨
      countTemplates kind.module config.moduleCount 0 entries = .ok _ ∧ _ := countTemplates_eq 0
  rcases hcounts with ⟨⟨e, hcounted⟩, hsome, hno⟩ | ⟨hcounted, hmodules⟩
  · rw [hcounted]
    exact ⟨iff_of_true ⟨e, rfl⟩ ⟨hsome, .inl (by omega)⟩, fun _ _ hok => nomatch hok⟩
  · rw [hcounted]
    dsimp only
    by_cases hnone : kind.templates entries = []
    · rw [if_pos (by rw [hnone]; rfl)]
      refine ⟨iff_of_false (fun ⟨_, herror⟩ => nomatch herror) fun hsome => hsome.1 hnone, ?_⟩
      rintro made mem' hok
      obtain ⟨rfl, rfl⟩ := Prod.mk.inj (Except.ok.inj hok)
      have hpass : kind.Pass ((List.range (max config.moduleCount 1).toNat).flatMap
          (kind.contribution config.moduleSlaveFirst entries)) (kind.fixed entries) mem entries
          mem := by
        have hexpected : (List.range (max config.moduleCount 1).toNat).flatMap
            (kind.contribution config.moduleSlaveFirst entries) = entries := by
          rw [List.range_eq_range', funext (contribution_fixed hnone), flatMap_first entries (by omega)]
        rw [hexpected]
        refine ⟨List.forall₂_same.2 fun e _ => h.refl e, rfl, ?_⟩
        have hall : entries.filter (fun e => kind.module e ≠ configModuleNone) = [] := by
          rw [List.filter_eq_nil_iff]
          intro e he
          have hfixed : e ∉ kind.templates entries := by
            rw [hnone]
            exact List.not_mem_nil
          have hmodule := (hread.module e he).resolve_right fun htemplate =>
            hfixed (List.mem_filter.2 ⟨he, by simpa using htemplate⟩)
          simpa using hmodule
        rw [hall]
        exact Fresh.nil mem
      have hexpanded := hpass.expanded h hread hchecked hfirst hcount hmodules
      rw [hnone] at hexpanded
      have hmem : mem.free (List.flatMap kind.owns []) = mem :=
        congrArg (Memory.mk mem.next) (List.append_nil mem.freed)
      rwa [hmem] at hexpanded
    · have hpos := hmodules.resolve_left hnone
      have hlength : (kind.templates entries).length ≠ 0 := fun hzero =>
        hnone (List.eq_nil_of_length_eq_zero hzero)
      rw [if_neg hlength]
      have htotal : (entries.length - (kind.templates entries).length : ℤ) =
          (kind.fixed entries).length := by omega
      rw [htotal]
      split_ifs with hmax
      · exact ⟨iff_of_true ⟨_, rfl⟩ ⟨hnone, .inr hmax⟩, fun _ _ hok => nomatch hok⟩
      · refine ⟨iff_of_false (fun ⟨_, herror⟩ => nomatch herror) ?_, ?_⟩
        · rintro ⟨-, hzero | hover⟩
          · omega
          · exact hmax hover
        · rintro made mem' hok
          obtain ⟨rfl, rfl⟩ := Prod.mk.inj (Except.ok.inj hok)
          have hpass : kind.Pass ((List.range' 0 config.moduleCount.toNat).flatMap
              (kind.contribution config.moduleSlaveFirst entries)) _ mem _ _ :=
            expandModules_pass h (fun e he => (hread.module e he).imp_right fun htemplate =>
              ⟨htemplate, hP e he htemplate⟩) config.moduleCount.toNat 0
          rw [flatMap_first _ (by omega), ← List.range_eq_range'] at hpass
          rw [releaseTemplates_eq]
          refine Pass.expanded h hread hchecked hfirst hcount hmodules ?_
          rw [max_eq_left (by omega)]
          exact hpass

theorem Expands.refines {Plain : Type} {view : Entry → Plain} {template : Plain → Bool}
    {copy : Plain → ℤ → Plain} {result : Except ConfigError (List Entry × Memory)}
    (h : kind.Expands count first entries mem result) (hread : kind.Read entries mem)
    (hview : ∀ {e e'}, kind.Same e e' → view e' = view e)
    (htemplate : ∀ e, template (view e) = decide (kind.module e = configModuleTemplate))
    (hcopy : ∀ e ∈ entries, kind.module e = configModuleTemplate → ∀ (m : ℕ) (s : ℤ),
      view (kind.place e m s) = copy (view e) s) (hcount : 0 ≤ count)
    {made : List Entry} {mem' : Memory} (hresult : result = .ok (made, mem')) :
    expandTemplates template copy count first (entries.map view) = .ok (made.map view) := by
  have hexpanded := h.expands made mem' hresult
  have hnofail : ¬ (kind.templates entries ≠ [] ∧ (count = 0 ∨
      inputWriteMax < (kind.fixed entries).length + (kind.templates entries).length * count)) := by
    rw [← h.fails, hresult]
    exact fun ⟨_, herror⟩ => nomatch herror
  have hmade : made.map view =
      ((List.range (max count 1).toNat).flatMap (kind.contribution first entries)).map view :=
    forall₂_map_eq (f := view) (fun hsame => hview hsame) hexpanded.order
  have hfiltered : ((entries.map view).filter template).length = (kind.templates entries).length := by
    rw [List.filter_map, List.length_map]
    exact congrArg List.length (List.filter_congr fun e _ => htemplate e)
  have hparts := (templates_append_fixed hread.module).length_eq
  rw [List.length_append] at hparts
  unfold expandTemplates
  dsimp only
  rw [hfiltered, List.length_map]
  by_cases hnone : kind.templates entries = []
  · rw [if_pos (by rw [hnone]; rfl), hmade, List.range_eq_range',
      funext (contribution_fixed hnone), flatMap_first entries (by omega)]
  · have hlength : (kind.templates entries).length ≠ 0 := fun hzero =>
      hnone (List.eq_nil_of_length_eq_zero hzero)
    have hpos : ¬ count ≤ 0 := fun hno => hnofail ⟨hnone, .inl (by omega)⟩
    have htotal : (entries.length - (kind.templates entries).length : ℤ) =
        (kind.fixed entries).length := by omega
    rw [if_neg hlength, if_neg hpos, htotal,
      if_neg fun hover => hnofail ⟨hnone, .inr hover⟩, hmade, max_eq_left (by omega),
      List.map_flatMap]
    refine congrArg Except.ok (congrArg (List.flatMap · _) (funext fun m => ?_))
    unfold contribution
    rw [List.filterMap_map, List.map_filterMap]
    refine List.filterMap_congr fun e he => ?_
    simp only [Function.comp, htemplate, decide_eq_true_eq]
    split_ifs with hmodule
    · rw [Option.map_some, hcopy e he hmodule]
    · rfl
    · rfl

end EntryKind

/-- `module.count` and `module.slave_first` as their keys leave them, and as they are accepted. -/
structure ModulesConfigured (config : BridgeConfig) : Prop where
  count : 0 ≤ config.moduleCount ∧ config.moduleCount ≤ configSlaveMax
  first : 1 ≤ config.moduleSlaveFirst ∧ config.moduleSlaveFirst ≤ configSlaveMax
  checked : checkModules config = .ok ()

/-- A template among the writes has its `slave` key, as every template. -/
def TemplatesSet (writes : List (WriteRecord V C)) : Prop :=
  ∀ write ∈ writes, write.module = configModuleTemplate → write.hasSlave = true

instance (writes : List (WriteRecord V C)) : Decidable (TemplatesSet writes) :=
  inferInstanceAs (Decidable (∀ _ ∈ _, _))

theorem inputs_expand {config : BridgeConfig} (h : ModulesConfigured config)
    {inputs : List (InputRecord V C)} {mem : Memory} (hinputs : (inputKind V C).Read inputs mem) :
    (inputKind V C).Expands config.moduleCount config.moduleSlaveFirst inputs mem
      (configExpandInputs config.moduleCount config.moduleSlaveFirst inputs mem) :=
  EntryKind.expands inputKind_lawful hinputs (fun _ _ _ => trivial) h.checked h.first.1 h.count.1

theorem writes_expand {config : BridgeConfig} (h : ModulesConfigured config)
    {writes : List (WriteRecord V C)} {mem : Memory} (hwrites : (writeKind V C).Read writes mem)
    (hset : TemplatesSet writes) :
    (writeKind V C).Expands config.moduleCount config.moduleSlaveFirst writes mem
      (configExpandWrites config.moduleCount config.moduleSlaveFirst writes mem) :=
  EntryKind.expands writeKind_lawful hwrites hset h.checked h.first.1 h.count.1

/-- An input in memory as the validation reads it; the slave and the channels of `values` stand for
nothing. -/
def InputRecord.entry (input : InputRecord InputEntry InputChannel) : InputEntry :=
  { input.values with
    slave := input.slave
    template := input.module = configModuleTemplate
    channels := (input.channels.elim [] Pointer.content).map fun channel =>
      { channel.values with
        topic := channel.topic.map Pointer.content
        timefmt := channel.timefmt.map Pointer.content } }

def WriteRecord.entry (write : WriteRecord WriteEntry WriteChannel) : WriteEntry :=
  { write.values with
    slave := write.slave
    hasSlave := write.hasSlave
    template := write.module = configModuleTemplate
    topic := (write.topic.map Pointer.content).getD ""
    channels := (write.channels.elim [] Pointer.content).map (·.values) }

/-- `config_expand_inputs` in memory does to the blocks what it does to the entries. -/
theorem configExpandInputs_refines {config : BridgeConfig} (h : ModulesConfigured config)
    {inputs made : List (InputRecord InputEntry InputChannel)} {mem mem' : Memory}
    (hinputs : (inputKind InputEntry InputChannel).Read inputs mem)
    (hmade : configExpandInputs config.moduleCount config.moduleSlaveFirst inputs mem =
      .ok (made, mem')) :
    expandTemplates InputEntry.template copyInput config.moduleCount config.moduleSlaveFirst
      (inputs.map InputRecord.entry) = .ok (made.map InputRecord.entry) := by
  refine (inputs_expand h hinputs).refines hinputs ?_ (fun _ => rfl) ?_ h.count.1 hmade
  · intro input input' hsame
    have hchannels := forall₂_map_eq (f := fun channel : ChannelRecord InputChannel =>
      { channel.values with
        topic := channel.topic.map Pointer.content
        timefmt := channel.timefmt.map Pointer.content })
      (fun hchannel => by rw [hchannel.values, hchannel.topic, hchannel.timefmt]) hsame.channels
    unfold InputRecord.entry
    rw [hchannels, hsame.values, hsame.slave, hsame.module]
  · intro input _ _ m slave
    have hplaced : ((m : ℤ) = configModuleTemplate) = False :=
      eq_false (by unfold configModuleTemplate; omega)
    unfold InputRecord.entry copyInput inputKind InputRecord.place
    simp only [hplaced, decide_false]

theorem configExpandWrites_refines {config : BridgeConfig} (h : ModulesConfigured config)
    {writes made : List (WriteRecord WriteEntry WriteChannel)} {mem mem' : Memory}
    (hwrites : (writeKind WriteEntry WriteChannel).Read writes mem) (hset : TemplatesSet writes)
    (hmade : configExpandWrites config.moduleCount config.moduleSlaveFirst writes mem =
      .ok (made, mem')) :
    expandTemplates WriteEntry.template copyWrite config.moduleCount config.moduleSlaveFirst
      (writes.map WriteRecord.entry) = .ok (made.map WriteRecord.entry) := by
  refine (writes_expand h hwrites hset).refines hwrites ?_ (fun _ => rfl) ?_ h.count.1 hmade
  · intro write write' hsame
    have hchannels := forall₂_map_eq (f := fun channel : WriteChannelRecord WriteChannel =>
      channel.values) (fun hchannel => hchannel.values) hsame.channels
    unfold WriteRecord.entry
    rw [hchannels, hsame.values, hsame.slave, hsame.module, hsame.hasSlave, hsame.topic]
  · intro write hwrite htemplate m slave
    have hplaced : ((m : ℤ) = configModuleTemplate) = False :=
      eq_false (by unfold configModuleTemplate; omega)
    have hslave : write.hasSlave = true := hset write hwrite htemplate
    unfold WriteRecord.entry copyWrite writeKind WriteRecord.place
    simp only [hplaced, decide_false, hslave]

/-- The module templates of a configuration are expanded: inputs and writes alike. -/
theorem module_templates_expand {V C W D : Type} (config : BridgeConfig)
    (h : ModulesConfigured config) (inputs : List (InputRecord V C))
    (writes : List (WriteRecord W D)) (mem : Memory) (hinputs : (inputKind V C).Read inputs mem)
    (hwrites : (writeKind W D).Read writes mem) (hset : TemplatesSet writes) :
    (inputKind V C).Expands config.moduleCount config.moduleSlaveFirst inputs mem
        (configExpandInputs config.moduleCount config.moduleSlaveFirst inputs mem) ∧
      (writeKind W D).Expands config.moduleCount config.moduleSlaveFirst writes mem
        (configExpandWrites config.moduleCount config.moduleSlaveFirst writes mem) :=
  ⟨inputs_expand h hinputs, writes_expand h hwrites hset⟩

def rack : BridgeConfig where
  signedInts := true
  queryMode := .rounds
  moduleCount := 2
  moduleSlaveFirst := 39
  inputs := []
  writes := []

/-- Two templates, with the string controller of the rack between them; of the values only the
address is kept. -/
def rackInputs : List (InputRecord ℤ Unit) :=
  [⟨0x0000, configModuleTemplate, 0, some ⟨0, [⟨(), some ⟨1, "battery/%i/voltage"⟩, none, none⟩]⟩⟩,
    ⟨0x0000, configModuleNone, 100, some ⟨2, [⟨(), some ⟨3, "string/voltage"⟩, none, none⟩]⟩⟩,
    ⟨0x0100, configModuleTemplate, 0, some ⟨4, [⟨(), some ⟨5, "battery/%i/soc"⟩, none, none⟩]⟩⟩]

def rackWrites : List (WriteRecord ℤ Unit) :=
  [⟨0x0200, configModuleTemplate, 0, true, none, some ⟨6, "battery/%i/set"⟩, none, none⟩]

theorem module_templates_expand_example :
    (inputKind ℤ Unit).Expands 2 39 rackInputs ⟨7, []⟩ (configExpandInputs 2 39 rackInputs ⟨7, []⟩) ∧
      (writeKind ℤ Unit).Expands 2 39 rackWrites ⟨7, []⟩
        (configExpandWrites 2 39 rackWrites ⟨7, []⟩) :=
  module_templates_expand rack ⟨by decide, by decide, rfl⟩ rackInputs rackWrites ⟨7, []⟩
    ⟨by decide, by decide, by decide, by decide, by decide⟩
    ⟨by decide, by decide, by decide, by decide, by decide⟩ (by decide)

example : (configExpandInputs 2 39 rackInputs ⟨7, []⟩).toOption.map
    (fun made => made.1.map fun input => (input.module, input.slave, input.values)) =
      some [(0, 39, 0x0000), (-1, 100, 0x0000), (0, 39, 0x0100), (1, 40, 0x0000),
        (1, 40, 0x0100)] := by decide

end Modbusmq
