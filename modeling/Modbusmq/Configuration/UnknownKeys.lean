import Modbusmq.Configuration.Overrides

/-!
# The keys that nothing reads

`modbusmq_config` prints the keys that the parser skips, with the numbers of their lines, but for
those that a prefix in `config.foreign` gives to another program.
-/

namespace Modbusmq

open Settings Reordering

structure UnknownKey where
  line : ℕ
  key : List Char
  value : List Char
  deriving DecidableEq

def numbered {A : Type} (n : ℤ) (l : List A) : Option A :=
  if n ≤ 0 then none else l[(n - 1).toNat]?

instance {R : Type} (table : Table R) (name : List Char) : Decidable (HasName table name) :=
  inferInstanceAs (Decidable (∃ row ∈ table, row.1.toList = name))

def EntryAddress.unknown {S C : Type} (tables : EntryTables S C) (entry : ConfigEntry S C) :
    EntryAddress → Bool
  | .setting name => ¬ HasName tables.settings name
  | .channelMax => false
  | .channel m name => (numbered m entry.channels).isSome ∧ ¬ HasName tables.channels name
  | .unscanned => false

def ConfigFile.unknown (numerals : ConfigNumerals) (config : ConfigFile) : ConfigAddress → Bool
  | .setting name => ¬ HasName (configSettings numerals) name
  | .inputMax | .writeMax => false
  | .input n key =>
    (numbered n config.inputs).any fun input => key.unknown (inputTables numerals) input
  | .write n key =>
    (numbered n config.writes).any fun write => key.unknown (writeTables numerals) write
  | .unscanned => false

/-- The keys that are reported while these lines are read, the first of which has this number. What
stands behind a line that is refused is not read. -/
def unknownKeys (numerals : ConfigNumerals) :
    ℕ → List (List Char) → ConfigFile → List UnknownKey
  | _, [], _ => []
  | n, line :: lines, config =>
    match configLine line with
    | none => unknownKeys numerals (n + 1) lines config
    | some (key, value) =>
      match config.assign numerals (configAddress key) value with
      | none => []
      | some config' =>
        (if config.unknown numerals (configAddress key) then [⟨n, key, value⟩] else []) ++
          unknownKeys numerals (n + 1) lines config'

def configUnknown (numerals : ConfigNumerals) (text : List Char) : List UnknownKey :=
  unknownKeys numerals 1 (text.splitOn '\n') ⟨defaultSettings, [], []⟩

/-- The prefixes that `unknown_handler` has collected. -/
def foreignValues (calls : List UnknownKey) : List Char :=
  calls.flatMap fun call => if call.key = "config.foreign".toList then ' ' :: call.value else []

def reportUnknown (calls : List UnknownKey) : List UnknownKey :=
  calls.filter fun call =>
    call.key ≠ "config.foreign".toList ∧ ¬ isForeign (foreignValues calls) call.key

/-- The entry has the channel that the key is about. -/
def EntryAddress.Held {S C : Type} (entry : ConfigEntry S C) : EntryAddress → Prop
  | .setting _ | .channelMax => True
  | .channel m _ => (numbered m entry.channels).isSome
  | .unscanned => False

/-- The configuration has the entry and the channel that the key is about. -/
def ConfigFile.Holds (config : ConfigFile) : ConfigAddress → Prop
  | .setting _ | .inputMax | .writeMax => True
  | .input n key => ∃ input, numbered n config.inputs = some input ∧ key.Held input
  | .write n key => ∃ write, numbered n config.writes = some write ∧ key.Held write
  | .unscanned => False

/-- The lines whose numbers are not among these; the first has this number. -/
def keptLines (numbers : List ℕ) (n : ℕ) (lines : List (List Char)) : List (List Char) :=
  (lines.zipIdx n).filterMap fun line => if line.2 ∈ numbers then none else some line.1

def withoutLines (numbers : List ℕ) (text : List Char) : List Char :=
  ['\n'].intercalate (keptLines numbers 1 (text.splitOn '\n'))

/-- What the parser has read when it comes to a line. -/
def configBefore (numerals : ConfigNumerals) (text : List Char) (i : ℕ) : Option ConfigFile :=
  run (applyLine numerals []) (((text.splitOn '\n').take i).filterMap configLine)
    ⟨defaultSettings, [], []⟩

/-- What the tool prints of a text. -/
structure UnknownWarnings (numerals : ConfigNumerals) (text : List Char) : Prop where
  /-- a report is about a line of the text -/
  own : ∀ call ∈ configUnknown numerals text, ∃ i line, call.line = i + 1 ∧
    (text.splitOn '\n')[i]? = some line ∧ configLine line = some (call.key, call.value)
  /-- nothing is read in the lines that are reported -/
  idle : configParse numerals [] (withoutLines ((configUnknown numerals text).map UnknownKey.line)
    text) = configParse numerals [] text
  /-- a line is printed if no key is what it has, unless it is about an entry or a channel that is
  not there, or a prefix anywhere in the text gives it to another program -/
  warned : ∀ i line key value, (text.splitOn '\n')[i]? = some line →
    configLine line = some (key, value) →
      (⟨i + 1, key, value⟩ ∈ reportUnknown (configUnknown numerals text) ↔
        ¬ KnownKey numerals key ∧ key ≠ "config.foreign".toList ∧
          ¬ isForeign (declaredForeign text) key ∧
            ∃ config, configBefore numerals text i = some config ∧
              config.Holds (configAddress key))

theorem EntryAddress.unknown_iff {S C : Type} (tables : EntryTables S C) (entry : ConfigEntry S C)
    (key : EntryAddress) : key.unknown tables entry ↔ ¬ key.Known tables ∧ key.Held entry := by
  cases key with
  | setting name => simp [EntryAddress.unknown, EntryAddress.Known, EntryAddress.Held]
  | channelMax => simp [EntryAddress.unknown, EntryAddress.Known]
  | channel m name =>
    simp [EntryAddress.unknown, EntryAddress.Known, EntryAddress.Held, and_comm]
  | unscanned => simp [EntryAddress.unknown, EntryAddress.Held]

/-- A key is reported if it is none that the parser knows, and what it is about is there. -/
theorem ConfigFile.unknown_iff (numerals : ConfigNumerals) (config : ConfigFile)
    (key : List Char) : config.unknown numerals (configAddress key) ↔
      ¬ KnownKey numerals key ∧ config.Holds (configAddress key) := by
  unfold KnownKey
  cases configAddress key with
  | setting name => simp [ConfigFile.unknown, ConfigFile.Holds]
  | inputMax => simp [ConfigFile.unknown]
  | input n key =>
    cases hinput : numbered n config.inputs <;>
      simp [ConfigFile.unknown, ConfigFile.Holds, hinput, EntryAddress.unknown_iff]
  | writeMax => simp [ConfigFile.unknown]
  | write n key =>
    cases hwrite : numbered n config.writes <;>
      simp [ConfigFile.unknown, ConfigFile.Holds, hwrite, EntryAddress.unknown_iff]
  | unscanned => simp [ConfigFile.unknown, ConfigFile.Holds]

theorem ConfigFile.unknown_idle {numerals : ConfigNumerals} {config config' : ConfigFile}
    {key value : List Char} (h : config.unknown numerals (configAddress key))
    (hassign : config.assign numerals (configAddress key) value = some config') :
    config' = config :=
  ConfigFile.assign_unknown ((config.unknown_iff numerals key).1 h).1 hassign

theorem foreign_unknown (numerals : ConfigNumerals) (config : ConfigFile) :
    config.unknown numerals (configAddress "config.foreign".toList) := by
  have haddress : configAddress "config.foreign".toList = .setting "config.foreign".toList := by
    decide +kernel
  have hnames : "config.foreign" ∉ (configSettings numerals).map Prod.fst := by
    unfold configSettings
    simp only [List.map]
    decide +kernel
  rw [haddress]
  refine decide_eq_true fun ⟨row, hrow, hname⟩ => hnames ?_
  rw [← String.toList_inj.1 hname]
  exact List.mem_map_of_mem hrow

section

variable {numerals : ConfigNumerals} {n : ℕ} {line : List Char} {lines : List (List Char)}
  {config config' : ConfigFile} {key value : List Char}

theorem unknownKeys_skip (hline : configLine line = none) :
    unknownKeys numerals n (line :: lines) config = unknownKeys numerals (n + 1) lines config := by
  rw [unknownKeys, hline]

theorem unknownKeys_refused (hline : configLine line = some (key, value))
    (hassign : config.assign numerals (configAddress key) value = none) :
    unknownKeys numerals n (line :: lines) config = [] := by
  rw [unknownKeys, hline]
  dsimp only
  rw [hassign]

theorem unknownKeys_read (hline : configLine line = some (key, value))
    (hassign : config.assign numerals (configAddress key) value = some config') :
    unknownKeys numerals n (line :: lines) config =
      (if config.unknown numerals (configAddress key) then [⟨n, key, value⟩] else []) ++
        unknownKeys numerals (n + 1) lines config' := by
  rw [unknownKeys, hline]
  dsimp only
  rw [hassign]

theorem unknownKeys_own {call : UnknownKey} (h : call ∈ unknownKeys numerals n lines config) :
    ∃ i line, call.line = n + i ∧ lines[i]? = some line ∧
      configLine line = some (call.key, call.value) := by
  induction lines generalizing n config with
  | nil => exact absurd h List.not_mem_nil
  | cons line lines ih =>
    have hlater {config : ConfigFile} (h : call ∈ unknownKeys numerals (n + 1) lines config) :
        ∃ i found, call.line = n + i ∧ (line :: lines)[i]? = some found ∧
          configLine found = some (call.key, call.value) := by
      obtain ⟨i, found, hnumber, hfound, hconfig⟩ := ih h
      exact ⟨i + 1, found, by omega, hfound, hconfig⟩
    cases hline : configLine line with
    | none => exact hlater (unknownKeys_skip hline ▸ h)
    | some l =>
      obtain ⟨key, value⟩ := l
      cases hassign : config.assign numerals (configAddress key) value with
      | none =>
        rw [unknownKeys_refused hline hassign] at h
        exact absurd h List.not_mem_nil
      | some config' =>
        rw [unknownKeys_read hline hassign] at h
        rcases List.mem_append.1 h with h | h
        · split_ifs at h
          · obtain rfl := List.mem_singleton.1 h
            exact ⟨0, line, rfl, rfl, hline⟩
          · exact absurd h List.not_mem_nil
        · exact hlater h

theorem unknownKeys_number {m : ℕ} (h : m ∈ (unknownKeys numerals n lines config).map
    UnknownKey.line) : n ≤ m := by
  obtain ⟨call, hcall, rfl⟩ := List.mem_map.1 h
  obtain ⟨i, _, hnumber, -⟩ := unknownKeys_own hcall
  omega

theorem keptLines_cons (numbers : List ℕ) : keptLines numbers n (line :: lines) =
    (if n ∈ numbers then [] else [line]) ++ keptLines numbers (n + 1) lines := by
  unfold keptLines
  rw [List.zipIdx_cons, List.filterMap_cons]
  split_ifs <;> rfl

/-- What is left out depends on the numbers of the lines alone. -/
theorem keptLines_congr {numbers numbers' : List ℕ}
    (h : ∀ m, n ≤ m → (m ∈ numbers ↔ m ∈ numbers')) :
    keptLines numbers n lines = keptLines numbers' n lines := by
  induction lines generalizing n with
  | nil => rfl
  | cons line lines ih =>
    rw [keptLines_cons, keptLines_cons, ih fun m hm => h m (by omega)]
    simp only [h n le_rfl]

theorem mem_of_mem_keptLines {numbers : List ℕ} (h : line ∈ keptLines numbers n lines) :
    line ∈ lines := by
  induction lines generalizing n with
  | nil => exact h
  | cons first lines ih =>
    rw [keptLines_cons] at h
    rcases List.mem_append.1 h with h | h
    · split_ifs at h
      · exact absurd h List.not_mem_nil
      · rw [List.mem_singleton.1 h]
        exact List.mem_cons_self
    · exact List.mem_cons_of_mem _ (ih h)

/-- Without the lines that are reported, the others are read alike. -/
theorem run_keptLines : run (applyLine numerals []) ((keptLines
    ((unknownKeys numerals n lines config).map UnknownKey.line) n lines).filterMap configLine)
      config = run (applyLine numerals []) (lines.filterMap configLine) config := by
  induction lines generalizing n config with
  | nil => rfl
  | cons line lines ih =>
    rw [keptLines_cons, List.filterMap_append]
    cases hline : configLine line with
    | none =>
      have hnothing (numbers : List ℕ) :
          (if n ∈ numbers then [] else [line]).filterMap configLine = [] := by
        split_ifs <;> simp [hline]
      rw [unknownKeys_skip hline, hnothing, List.filterMap_cons_none hline]
      exact ih
    | some l =>
      obtain ⟨key, value⟩ := l
      have happly : applyLine numerals [] (key, value) config =
          config.assign numerals (configAddress key) value := rfl
      rw [List.filterMap_cons_some hline, run, happly]
      cases hassign : config.assign numerals (configAddress key) value with
      | none =>
        rw [unknownKeys_refused hline hassign, List.map_nil, if_neg List.not_mem_nil,
          List.filterMap_cons_some hline, List.filterMap_nil, List.singleton_append, run, happly,
          hassign]
        rfl
      | some config' =>
        have hlater : n ∉ (unknownKeys numerals (n + 1) lines config').map UnknownKey.line :=
          fun h => absurd (unknownKeys_number h) (by omega)
        rw [unknownKeys_read hline hassign]
        by_cases hunknown : config.unknown numerals (configAddress key)
        · obtain rfl := ConfigFile.unknown_idle hunknown hassign
          have hsame (numbers : List ℕ) :
              keptLines (n :: numbers) (n + 1) lines = keptLines numbers (n + 1) lines :=
            keptLines_congr fun m hm => by
              rw [List.mem_cons]
              exact ⟨fun h => h.resolve_left (by omega), .inr⟩
          rw [if_pos hunknown, List.singleton_append, List.map_cons, if_pos List.mem_cons_self,
            List.filterMap_nil, List.nil_append, hsame, ih]
          rfl
        · rw [if_neg hunknown, List.nil_append, if_neg hlater, List.filterMap_cons_some hline,
            List.filterMap_nil, List.singleton_append, run, happly, hassign]
          exact ih

/-- In lines that are all read, one is reported if its key is, by what was read before it. -/
theorem mem_unknownKeys {read : ConfigFile}
    (hread : run (applyLine numerals []) (lines.filterMap configLine) config = some read) {i : ℕ}
    (hline : lines[i]? = some line) (hconfig : configLine line = some (key, value)) :
    ⟨n + i, key, value⟩ ∈ unknownKeys numerals n lines config ↔
      ∃ before, run (applyLine numerals []) ((lines.take i).filterMap configLine) config =
        some before ∧ before.unknown numerals (configAddress key) := by
  induction lines generalizing n i config with
  | nil => contradiction
  | cons first lines ih =>
    cases hfirst : configLine first with
    | none =>
      rw [List.filterMap_cons_none hfirst] at hread
      cases i with
      | zero =>
        obtain rfl : first = line := Option.some.inj hline
        rw [hfirst] at hconfig
        contradiction
      | succ i =>
        have hnumber : n + (i + 1) = n + 1 + i := by omega
        rw [hnumber, unknownKeys_skip hfirst, List.take_succ_cons,
          List.filterMap_cons_none hfirst]
        exact ih hread hline
    | some l =>
      obtain ⟨key', value'⟩ := l
      rw [List.filterMap_cons_some hfirst] at hread
      obtain ⟨config', hassign, hrest⟩ := Option.bind_eq_some_iff.1 hread
      rw [unknownKeys_read hfirst hassign, List.mem_append]
      cases i with
      | zero =>
        obtain rfl : first = line := Option.some.inj hline
        obtain ⟨rfl, rfl⟩ := Prod.mk.inj (Option.some.inj (hfirst.symm.trans hconfig))
        have hlater : ⟨n + 0, key', value'⟩ ∉ unknownKeys numerals (n + 1) lines config' :=
          fun h => by
            obtain ⟨j, _, hnumber, -⟩ := unknownKeys_own h
            dsimp only at hnumber
            omega
        rw [or_iff_left hlater]
        split_ifs with hunknown
        · exact iff_of_true (List.mem_singleton_self _) ⟨config, rfl, hunknown⟩
        · refine iff_of_false List.not_mem_nil fun ⟨before, hbefore, hbeforeUnknown⟩ => ?_
          rw [Option.some.inj hbefore] at hunknown
          exact hunknown hbeforeUnknown
      | succ i =>
        have hhead : ⟨n + (i + 1), key, value⟩ ∉
            (if config.unknown numerals (configAddress key') then
              [(⟨n, key', value'⟩ : UnknownKey)] else []) := by
          split_ifs
          · simp
          · exact List.not_mem_nil
        have hnumber : n + (i + 1) = n + 1 + i := by omega
        rw [or_iff_right hhead, hnumber, List.take_succ_cons, List.filterMap_cons_some hfirst, run,
          hassign]
        exact ih hrest hline

/-- In lines that are all read, every `config.foreign` is collected. -/
theorem foreignValues_unknownKeys {read : ConfigFile}
    (hread : run (applyLine numerals []) (lines.filterMap configLine) config = some read) :
    foreignValues (unknownKeys numerals n lines config) =
      (lines.filterMap configLine).flatMap fun l =>
        if l.1 = "config.foreign".toList then ' ' :: l.2 else [] := by
  induction lines generalizing n config with
  | nil => rfl
  | cons line lines ih =>
    cases hline : configLine line with
    | none =>
      rw [List.filterMap_cons_none hline] at hread ⊢
      rw [unknownKeys_skip hline]
      exact ih hread
    | some l =>
      obtain ⟨key, value⟩ := l
      rw [List.filterMap_cons_some hline] at hread ⊢
      obtain ⟨config', hassign, hrest⟩ := Option.bind_eq_some_iff.1 hread
      rw [unknownKeys_read hline hassign, foreignValues, List.flatMap_append, List.flatMap_cons]
      congr 1
      · by_cases hunknown : config.unknown numerals (configAddress key)
        · rw [if_pos hunknown, List.flatMap_singleton]
        · have hkey : key ≠ "config.foreign".toList := by
            rintro rfl
            exact hunknown (foreign_unknown numerals config)
          rw [if_neg hunknown, List.flatMap_nil, if_neg hkey]
      · exact ih hrest

end

theorem configLines_intercalate {lines : List (List Char)} (h : ∀ line ∈ lines, '\n' ∉ line) :
    configLines (['\n'].intercalate lines) = lines.filterMap configLine := by
  rcases eq_or_ne lines [] with rfl | hne
  · decide +kernel
  · rw [configLines, List.splitOn_intercalate '\n' h hne]

theorem configParse_withoutLines (numerals : ConfigNumerals) (text : List Char) :
    configParse numerals [] (withoutLines ((configUnknown numerals text).map UnknownKey.line)
      text) = configParse numerals [] text := by
  have hlines : configLines (withoutLines ((configUnknown numerals text).map UnknownKey.line)
      text) = (keptLines ((configUnknown numerals text).map UnknownKey.line) 1
        (text.splitOn '\n')).filterMap configLine :=
    configLines_intercalate fun line hline => Lines.not_mem_of_mem_splitOn (mem_of_mem_keptLines hline)
  have hrun : run (applyLine numerals []) (configLines (withoutLines
      ((configUnknown numerals text).map UnknownKey.line) text)) ⟨defaultSettings, [], []⟩ =
        run (applyLine numerals []) (configLines text) ⟨defaultSettings, [], []⟩ := by
    rw [hlines]
    exact run_keptLines
  unfold configParse
  rw [hrun]

/-- Of a text whose lines can all be read, the tool prints the lines that nothing reads. -/
theorem unknown_keys_warned {numerals : ConfigNumerals} {text : List Char} {read : ConfigFile}
    (hread : run (applyLine numerals []) (configLines text) ⟨defaultSettings, [], []⟩ =
      some read) : UnknownWarnings numerals text where
  own call hcall := by
    obtain ⟨i, line, hnumber, hline⟩ := unknownKeys_own hcall
    exact ⟨i, line, by omega, hline⟩
  idle := configParse_withoutLines numerals text
  warned i line key value hline hconfig := by
    have hforeign : foreignValues (configUnknown numerals text) = declaredForeign text :=
      foreignValues_unknownKeys hread
    have hreported : ⟨i + 1, key, value⟩ ∈ configUnknown numerals text ↔
        ∃ before, configBefore numerals text i = some before ∧
          before.unknown numerals (configAddress key) := by
      rw [Nat.add_comm]
      exact mem_unknownKeys hread hline hconfig
    rw [reportUnknown, List.mem_filter, hreported, hforeign, decide_eq_true_eq]
    constructor
    · rintro ⟨⟨before, hbefore, hunknown⟩, hkey, hown⟩
      obtain ⟨hno, hheld⟩ := (before.unknown_iff numerals key).1 hunknown
      exact ⟨hno, hkey, hown, before, hbefore, hheld⟩
    · rintro ⟨hno, hkey, hown, before, hbefore, hheld⟩
      exact ⟨⟨before, hbefore, (before.unknown_iff numerals key).2 ⟨hno, hheld⟩⟩, hkey, hown⟩

/-- A key that is misspelt, one of another program, and one of an input that is not there. -/
def strayText : List Char :=
  "input.max=1\ninput.1.slvae=3\nsite.name=north\ninput.2.slvae=4\nconfig.foreign=site.".toList

/-- The misspelt key is printed, and no other line. -/
theorem unknown_keys_warned_example : UnknownWarnings digitNumerals strayText ∧
    reportUnknown (configUnknown digitNumerals strayText) =
      [⟨2, "input.1.slvae".toList, "3".toList⟩] := by
  have hread : (run (applyLine digitNumerals []) (configLines strayText)
      ⟨defaultSettings, [], []⟩).isSome := by decide +kernel
  obtain ⟨read, hread⟩ := Option.isSome_iff_exists.1 hread
  exact ⟨unknown_keys_warned hread, by decide +kernel⟩

end Modbusmq
