import Modbusmq.Configuration.Conversion
import Modbusmq.Configuration.KeyOrder

/-!
# The overrides of the command line

`-e key=value` edits the line of the file that has the key. Only the two keys of the modules are
added where the file has no such line. What is edited is parsed as any other file, so an override
can do what a line can, and no more.
-/

namespace Modbusmq

open Settings Reordering Trim

/-- A character that the parser does not take for the end of what a line says. -/
def inLine (ch : Char) : Bool := ch ≠ '\x00' ∧ ch ≠ '#' ∧ ch ≠ '\n' ∧ ch ≠ '\r'

structure LineValue (value : List Char) : Prop where
  ne : value ≠ []
  trimmed : Trimmed isBlank value
  plain : ∀ ch ∈ value, inLine ch

/-- An override whose value may stand in a line. -/
def LineOverride (entry : List Char) : Prop := LineValue (entry.dropWhile (· ≠ '=')).tail

/-- The line, with the value of its override if it has one. -/
def editLine (overrides : List (List Char)) (line : List Char) : List Char :=
  match configLine line with
  | none => line
  | some (key, _) =>
    match configOverrideLookup overrides key with
    | none => line
    | some value => key ++ '=' :: value

/-- A line for a key that the file does not set, if there is an override for it. -/
def addedLine (overrides : List (List Char)) (text : List Char) (key : String) :
    List (List Char) :=
  if key.toList ∈ (configLines text).map Prod.fst then []
  else
    match configOverrideLookup overrides key.toList with
    | none => []
    | some value => [key.toList ++ '=' :: value]

def editedLines (overrides : List (List Char)) (text : List Char) : List (List Char) :=
  (text.splitOn '\n').map (editLine overrides) ++ addedLine overrides text "module.count" ++
    addedLine overrides text "module.slave_first"

def editText (overrides : List (List Char)) (text : List Char) : List Char :=
  ['\n'].intercalate (editedLines overrides text)

/-- The keys that `config_override_lookup` is called with: a module key that the file sets is one
of the keys of its lines. -/
def configLookups (text : List Char) : List (List Char) :=
  (configLines text).map Prod.fst ++ ["module.count".toList, "module.slave_first".toList]

def configOverrideHit (overrides : List (List Char)) (key : List Char) : Option ℕ :=
  overrides.findIdx? fun entry => (key ++ ['=']).isPrefixOf entry

/-- `modbusmq_config_override_unmatched` does not warn about this override. -/
def overrideMatched (overrides : List (List Char)) (text : List Char) (i : ℕ) : Bool :=
  (configLookups text).any fun key => configOverrideHit overrides key = some i

def matchedOverrides (overrides : List (List Char)) (text : List Char) : List (List Char) :=
  (overrides.zipIdx.filter fun entry => overrideMatched overrides text entry.2).map Prod.fst

/-- What the overrides of the command line do to a file. -/
structure OverridesEdit (numerals : ConfigNumerals) (overrides : List (List Char))
    (text : List Char) : Prop where
  /-- the file is parsed as if it had been edited -/
  edited : configParse numerals overrides text = configParse numerals [] (editText overrides text)
  /-- an override that is not warned about is a line of the edited file -/
  taken : ∀ i entry, overrides[i]? = some entry → overrideMatched overrides text i →
    entry ∈ (editText overrides text).splitOn '\n'
  /-- one that is warned about may as well be left out -/
  idle : configParse numerals (matchedOverrides overrides text) text =
    configParse numerals overrides text

/-- What is known of the key of a line. -/
structure LineKey (key : List Char) : Prop where
  ne : key ≠ []
  trimmed : Trimmed isBlank key
  plain : ∀ ch ∈ key, inLine ch
  word : '=' ∉ key

theorem trimmed_of_check {text : List Char} (h : text.head?.all (fun ch => !isBlank ch) &&
    text.getLast?.all fun ch => !isBlank ch) : Trimmed isBlank text := by
  obtain ⟨hhead, hlast⟩ := Bool.and_eq_true_iff.1 h
  refine ⟨fun ch hch => ?_, fun ch hch => ?_⟩
  · rw [Option.mem_def.1 hch] at hhead
    simpa using hhead
  · rw [Option.mem_def.1 hch] at hlast
    simpa using hlast

theorem LineKey.of_check {key : List Char} (hne : key ≠ [])
    (htrimmed : key.head?.all (fun ch => !isBlank ch) && key.getLast?.all fun ch => !isBlank ch)
    (hplain : key.all inLine) (hword : '=' ∉ key) : LineKey key :=
  ⟨hne, trimmed_of_check htrimmed, fun ch hch => List.all_eq_true.1 hplain ch hch, hword⟩

theorem LineValue.of_check {value : List Char} (hne : value ≠ [])
    (htrimmed : value.head?.all (fun ch => !isBlank ch) && value.getLast?.all fun ch => !isBlank ch)
    (hplain : value.all inLine) : LineValue value :=
  ⟨hne, trimmed_of_check htrimmed, fun ch hch => List.all_eq_true.1 hplain ch hch⟩

theorem configLine_key {line key value : List Char} (h : configLine line = some (key, value)) :
    LineKey key := by
  unfold configLine at h
  dsimp only at h
  split_ifs at h with hskip
  obtain ⟨rfl, -⟩ := Prod.mk.inj (Option.some.inj h)
  push Not at hskip
  have hsub := trim_subset isBlank ((line.takeWhile fun ch => decide (ch ≠ '\x00' ∧ ch ≠ '#' ∧
    ch ≠ '\n' ∧ ch ≠ '\r')).takeWhile fun ch => decide (ch ≠ '='))
  refine ⟨hskip.2.1, trim_trimmed _ _, fun ch hch => ?_, fun hch => ?_⟩
  · exact List.mem_takeWhile_imp ((List.takeWhile_prefix _).subset (hsub hch))
  · have hnot := List.mem_takeWhile_imp (hsub hch)
    simp at hnot

/-- A key and a value that may stand in a line are read back. -/
theorem configLine_print {key value : List Char} (hkey : LineKey key) (hvalue : LineValue value) :
    configLine (key ++ '=' :: value) = some (key, value) := by
  have hplain : ∀ ch ∈ key ++ '=' :: value, inLine ch := by
    intro ch hch
    rcases List.mem_append.1 hch with hch | hch
    · exact hkey.plain ch hch
    · rcases List.mem_cons.1 hch with rfl | hch
      · decide
      · exact hvalue.plain ch hch
  have htext : (key ++ '=' :: value).takeWhile
      (fun ch => decide (ch ≠ '\x00' ∧ ch ≠ '#' ∧ ch ≠ '\n' ∧ ch ≠ '\r')) = key ++ '=' :: value :=
    List.takeWhile_eq_self_iff.2 hplain
  have hword : ∀ ch ∈ key, decide (ch ≠ '=') = true := fun ch hch =>
    decide_eq_true fun heq => hkey.word (heq ▸ hch)
  have hmark : ∀ ch ∈ ('=' :: value).head?, ¬ decide (ch ≠ '=') = true := by
    intro ch hch
    obtain rfl : '=' = ch := Option.some.inj hch
    decide
  obtain ⟨hfirst, hlast⟩ := Lines.takeWhile_cut hword hmark
  unfold configLine
  dsimp only
  rw [htext, hfirst, hlast, List.tail_cons, hkey.trimmed.trim_eq, hvalue.trimmed.trim_eq]
  exact if_neg (by simp [hkey.ne, hvalue.ne])

theorem drop_key (key value : List Char) :
    (key ++ ['='] ++ value).drop (key.length + 1) = value := by
  rw [← List.length_singleton (a := '='), ← List.length_append, List.drop_left]

theorem configOverrideLookup_entry {overrides : List (List Char)} {key value : List Char}
    (h : configOverrideLookup overrides key = some value) : key ++ '=' :: value ∈ overrides := by
  obtain ⟨entry, hfind, rfl⟩ := Option.map_eq_some_iff.1 h
  obtain ⟨rest, hrest⟩ := List.isPrefixOf_iff_prefix.1 (List.find?_some hfind)
  have hmem := List.mem_of_find?_eq_some hfind
  rw [← hrest] at hmem ⊢
  rw [drop_key]
  simpa using hmem

theorem configOverrideLookup_value {overrides : List (List Char)}
    (hclean : ∀ entry ∈ overrides, LineOverride entry) {key value : List Char} (hkey : LineKey key)
    (h : configOverrideLookup overrides key = some value) : LineValue value := by
  have hentry := hclean _ (configOverrideLookup_entry h)
  have hword : ∀ ch ∈ key, decide (ch ≠ '=') = true := fun ch hch =>
    decide_eq_true fun heq => hkey.word (heq ▸ hch)
  unfold LineOverride at hentry
  rw [List.dropWhile_append_of_pos hword] at hentry
  simpa using hentry

theorem configOverrideLookup_hit {overrides : List (List Char)} {key entry : List Char} {i : ℕ}
    (hhit : configOverrideHit overrides key = some i) (hentry : overrides[i]? = some entry) :
    ∃ value, configOverrideLookup overrides key = some value ∧ entry = key ++ '=' :: value := by
  obtain ⟨hi, hmatch, hfirst⟩ := List.findIdx?_eq_some_iff_getElem.1 hhit
  obtain rfl : overrides[i] = entry := by
    rw [List.getElem?_eq_getElem hi] at hentry
    exact Option.some.inj hentry
  have hfind : overrides.find? (fun entry => (key ++ ['=']).isPrefixOf entry) =
      some overrides[i] :=
    List.find?_eq_some_iff_getElem.2 ⟨hmatch, i, hi, rfl, fun j hj => by
      rw [Bool.not_eq_eq_eq_not, Bool.not_true]
      exact Bool.not_eq_true _ ▸ hfirst j hj⟩
  obtain ⟨rest, hrest⟩ := List.isPrefixOf_iff_prefix.1 hmatch
  refine ⟨overrides[i].drop (key.length + 1), by rw [configOverrideLookup, hfind]; rfl, ?_⟩
  rw [← hrest, drop_key]
  simp

/-- The first element that is found is found as well among those that are kept, if it is kept. -/
theorem find?_kept {α : Type} {p : α → Bool} {keep : ℕ → Bool} {l : List α} {k : ℕ}
    (h : ∀ i, l.findIdx? p = some i → keep (k + i)) :
    (((l.zipIdx k).filter fun entry => keep entry.2).map Prod.fst).find? p = l.find? p := by
  induction l generalizing k with
  | nil => rfl
  | cons a l ih =>
    rw [List.zipIdx_cons, List.filter_cons, List.find?_cons]
    cases hp : p a with
    | true =>
      have hkeep : keep k := h 0 (by simp [List.findIdx?_cons, hp])
      rw [if_pos hkeep, List.map_cons, List.find?_cons, hp]
    | false =>
      have hrest := ih (k := k + 1) fun i hi => by
        rw [Nat.add_right_comm]
        exact h (i + 1) (by simp [List.findIdx?_cons, hp, hi])
      split_ifs
      · rw [List.map_cons, List.find?_cons, hp]
        exact hrest
      · exact hrest

theorem configOverrideLookup_matched (overrides : List (List Char)) {text key : List Char}
    (hkey : key ∈ configLookups text) :
    configOverrideLookup (matchedOverrides overrides text) key =
      configOverrideLookup overrides key := by
  unfold configOverrideLookup matchedOverrides
  rw [find?_kept fun i hi => ?_]
  rw [Nat.zero_add]
  exact List.any_eq_true.2 ⟨key, hkey, decide_eq_true hi⟩

theorem moduleKeys_lineKey : LineKey "module.count".toList ∧ LineKey "module.slave_first".toList :=
  ⟨.of_check (by decide +kernel) (by decide +kernel) (by decide +kernel) (by decide +kernel),
    .of_check (by decide +kernel) (by decide +kernel) (by decide +kernel) (by decide +kernel)⟩

theorem print_oneLine {key value : List Char} (hkey : LineKey key) (hvalue : LineValue value) :
    '\n' ∉ key ++ '=' :: value := by
  intro hmem
  rcases List.mem_append.1 hmem with hmem | hmem
  · exact absurd (hkey.plain _ hmem) (by decide)
  · rcases List.mem_cons.1 hmem with heq | hmem
    · exact absurd heq (by decide)
    · exact absurd (hvalue.plain _ hmem) (by decide)

section

variable {overrides : List (List Char)} (hclean : ∀ entry ∈ overrides, LineOverride entry)

include hclean

theorem configLine_editLine (line : List Char) : configLine (editLine overrides line) =
    (configLine line).map fun l => (l.1, (configOverrideLookup overrides l.1).getD l.2) := by
  unfold editLine
  cases hline : configLine line with
  | none =>
    dsimp only
    rw [hline]
    rfl
  | some l =>
    obtain ⟨key, value⟩ := l
    have hkey := configLine_key hline
    dsimp only
    cases hlookup : configOverrideLookup overrides key with
    | none =>
      dsimp only
      rw [hline, Option.map_some, hlookup, Option.getD_none]
    | some new =>
      dsimp only
      rw [configLine_print hkey (configOverrideLookup_value hclean hkey hlookup), Option.map_some,
        hlookup, Option.getD_some]

theorem editLine_oneLine {line : List Char} (hline : '\n' ∉ line) :
    '\n' ∉ editLine overrides line := by
  unfold editLine
  cases hconfig : configLine line with
  | none => exact hline
  | some l =>
    have hkey : LineKey l.1 := configLine_key hconfig
    dsimp only
    cases hlookup : configOverrideLookup overrides l.1 with
    | none => exact hline
    | some value => exact print_oneLine hkey (configOverrideLookup_value hclean hkey hlookup)

theorem addedLine_oneLine {text : List Char} {key : String} (hkey : LineKey key.toList) :
    ∀ line ∈ addedLine overrides text key, '\n' ∉ line := by
  intro line hline
  unfold addedLine at hline
  split_ifs at hline
  · exact absurd hline List.not_mem_nil
  · cases hlookup : configOverrideLookup overrides key.toList with
    | none =>
      rw [hlookup] at hline
      exact absurd hline List.not_mem_nil
    | some value =>
      rw [hlookup] at hline
      rw [List.mem_singleton.1 hline]
      exact print_oneLine hkey (configOverrideLookup_value hclean hkey hlookup)

theorem editText_lines (text : List Char) :
    (editText overrides text).splitOn '\n' = editedLines overrides text := by
  have hne : editedLines overrides text ≠ [] := by
    unfold editedLines
    simp [List.splitOn_ne_nil]
  refine List.splitOn_intercalate '\n' (fun line hline => ?_) hne
  rcases List.mem_append.1 hline with hline | hline
  · rcases List.mem_append.1 hline with hline | hline
    · obtain ⟨old, hold, rfl⟩ := List.mem_map.1 hline
      exact editLine_oneLine hclean (Lines.not_mem_of_mem_splitOn hold)
    · exact addedLine_oneLine hclean moduleKeys_lineKey.1 line hline
  · exact addedLine_oneLine hclean moduleKeys_lineKey.2 line hline

theorem editText_configLines (text : List Char) : configLines (editText overrides text) =
    (configLines text).map (fun l => (l.1, (configOverrideLookup overrides l.1).getD l.2)) ++
      (addedLine overrides text "module.count").filterMap configLine ++
        (addedLine overrides text "module.slave_first").filterMap configLine := by
  have hlines : ((text.splitOn '\n').map (editLine overrides)).filterMap configLine =
      (configLines text).map
        (fun l => (l.1, (configOverrideLookup overrides l.1).getD l.2)) := by
    rw [List.filterMap_map, configLines, List.map_filterMap]
    exact List.filterMap_congr fun line _ => configLine_editLine hclean line
  rw [configLines, editText_lines hclean, editedLines, List.filterMap_append,
    List.filterMap_append, hlines]

theorem addedLine_configLine {text : List Char} {key : String} (hkey : LineKey key.toList) :
    (addedLine overrides text key).filterMap configLine =
      if key.toList ∈ (configLines text).map Prod.fst then []
      else ((configOverrideLookup overrides key.toList).map fun value => (key.toList, value)).toList := by
  unfold addedLine
  split_ifs
  · rfl
  · cases hlookup : configOverrideLookup overrides key.toList with
    | none => rfl
    | some value =>
      rw [List.filterMap_cons_some
        (configLine_print hkey (configOverrideLookup_value hclean hkey hlookup))]
      rfl

theorem addedLine_keys {text : List Char} {key : String} (hkey : LineKey key.toList) :
    ∀ name ∈ ((addedLine overrides text key).filterMap configLine).map Prod.fst,
      name = key.toList := by
  rw [addedLine_configLine hclean hkey]
  split_ifs
  · exact fun _ hname => absurd hname List.not_mem_nil
  · cases configOverrideLookup overrides key.toList with
    | none => exact fun _ hname => absurd hname List.not_mem_nil
    | some value => exact fun _ hname => List.mem_singleton.1 hname

end

/-- A key of the file that marks that it was seen, and that no other key does. -/
structure SeenKey (numerals : ConfigNumerals) (key : String) (seen : ConfigSettings → Bool) :
    Prop where
  blank : seen defaultSettings = false
  address : configAddress key.toList = .setting key.toList
  known : HasName (configSettings numerals) key.toList
  own : ∀ row ∈ configSettings numerals, row.1 = key → ∀ value c, seen (row.2.put value c) = true
  other : ∀ row ∈ configSettings numerals, row.1 ≠ key → ∀ value c,
    seen (row.2.put value c) = seen c

theorem moduleKeys_seen (numerals : ConfigNumerals) :
    SeenKey numerals "module.count" ConfigSettings.seenModuleCount ∧
      SeenKey numerals "module.slave_first" ConfigSettings.seenModuleSlaveFirst := by
  refine ⟨⟨rfl, by decide +kernel, ?_, ?_, ?_⟩, ⟨rfl, by decide +kernel, ?_, ?_, ?_⟩⟩
  all_goals
    unfold configSettings
    simp only [HasName, List.mem_cons, exists_eq_or_imp, forall_eq_or_imp, List.not_mem_nil,
      false_imp_iff, implies_true, and_true, true_or, or_true]
    -- each row puts its own field
    try and_intros
    all_goals first
      | trivial
      | (intros; rfl)
      | (intro h; exact absurd h (by decide +kernel))

section

variable {numerals : ConfigNumerals} {key : String} {seen : ConfigSettings → Bool}

theorem SeenKey.assign (h : SeenKey numerals key seen) {name value : List Char}
    {config config' : ConfigFile}
    (hassign : config.assign numerals (configAddress name) value = some config') :
    seen config'.settings = (decide (name = key.toList) || seen config.settings) := by
  have hsame (hsettings : config'.settings = config.settings) (hother : name ≠ key.toList) :
      seen config'.settings = (decide (name = key.toList) || seen config.settings) := by
    rw [hsettings, decide_eq_false hother, Bool.false_or]
  have hnot (haddress : ∀ n, configAddress name ≠ .setting n) : name ≠ key.toList := by
    rintro rfl
    exact haddress _ h.address
  cases haddress : configAddress name with
  | setting n =>
    obtain rfl := configAddress_setting haddress
    rw [haddress] at hassign
    obtain ⟨settings, hsettings, rfl⟩ := Option.map_eq_some_iff.1 hassign
    rcases Settings.assign_row hsettings with ⟨rfl, hnone⟩ | ⟨row, hrow, hname, hset⟩
    · refine hsame rfl fun heq => ?_
      obtain ⟨row, hrow, hname⟩ := h.known
      exact hnone row hrow (hname.trans heq.symm)
    · obtain ⟨v, -, rfl⟩ := Option.map_eq_some_iff.1 hset
      by_cases hkey : row.1 = key
      · rw [decide_eq_true (by rw [← hname, hkey]), Bool.true_or]
        exact h.own row hrow hkey v _
      · rw [decide_eq_false (fun heq => hkey (String.toList_inj.1 (hname.trans heq))),
          Bool.false_or]
        exact h.other row hrow hkey v _
  | unscanned =>
    rw [haddress] at hassign
    obtain rfl := Option.some.inj hassign
    exact hsame rfl (hnot fun n hn => by simp [haddress] at hn)
  | _ =>
    rw [haddress] at hassign
    obtain ⟨entries, -, rfl⟩ := Option.map_eq_some_iff.1 hassign
    exact hsame rfl (hnot fun n hn => by simp [haddress] at hn)

/-- What was seen when the lines are read is what keys they have. -/
theorem SeenKey.run (h : SeenKey numerals key seen) {lines : List (List Char × List Char)}
    {config config' : ConfigFile}
    (hrun : Reordering.run (applyLine numerals []) lines config = some config') :
    seen config'.settings =
      (decide (key.toList ∈ lines.map Prod.fst) || seen config.settings) := by
  induction lines generalizing config with
  | nil =>
    obtain rfl := Option.some.inj hrun
    simp
  | cons line lines ih =>
    obtain ⟨between, hstep, hrest⟩ := Option.bind_eq_some_iff.1 hrun
    rw [ih hrest, h.assign hstep, List.map_cons, ← Bool.or_assoc, ← Bool.decide_or]
    simp only [List.mem_cons, eq_comm (a := key.toList), or_comm]

end

section

variable {numerals : ConfigNumerals} {overrides : List (List Char)} {text : List Char}
  (hclean : ∀ entry ∈ overrides, LineOverride entry)

/-- The edited lines do what the lines and their overrides do. -/
theorem run_edited (lines : List (List Char × List Char)) :
    Reordering.run (applyLine numerals [])
      (lines.map fun l => (l.1, (configOverrideLookup overrides l.1).getD l.2)) =
        Reordering.run (applyLine numerals overrides) lines := by
  rw [run_map]
  exact run_congr fun l _ => funext fun config => rfl

include hclean

theorem SeenKey.added {key : String} {seen : ConfigSettings → Bool}
    (h : SeenKey numerals key seen) (hkey : LineKey key.toList) {config : ConfigFile}
    (hseen : seen config.settings = decide (key.toList ∈ (configLines text).map Prod.fst)) :
    Reordering.run (applyLine numerals [])
        ((addedLine overrides text key).filterMap configLine) config =
      overrideModuleKey numerals overrides seen key config := by
  rw [addedLine_configLine hclean hkey]
  unfold overrideModuleKey
  rw [hseen]
  by_cases hmem : key.toList ∈ (configLines text).map Prod.fst
  · rw [if_pos hmem, decide_eq_true hmem]
    cases configOverrideLookup overrides key.toList <;> rfl
  · rw [if_neg hmem, decide_eq_false hmem]
    cases configOverrideLookup overrides key.toList with
    | none => rfl
    | some value =>
      change (config.assign numerals (configAddress key.toList) value).bind some =
        config.assign numerals (.setting key.toList) value
      rw [h.address]
      exact Option.bind_fun_some _

theorem configParse_edited (text : List Char) : configParse numerals overrides text =
    configParse numerals [] (editText overrides text) := by
  have hnone (seen : ConfigSettings → Bool) (key : String) (config : ConfigFile) :
      overrideModuleKey numerals [] seen key config = some config := rfl
  obtain ⟨hcount, hfirst⟩ := moduleKeys_seen numerals
  unfold configParse
  rw [editText_configLines hclean, run_append, run_append, run_edited]
  cases hrun : Reordering.run (applyLine numerals overrides) (configLines text)
      ⟨defaultSettings, [], []⟩ with
  | none => rfl
  | some config =>
    have hkeys : ((configLines text).map fun l => (l.1,
        (configOverrideLookup overrides l.1).getD l.2)).map Prod.fst =
          (configLines text).map Prod.fst := by
      rw [List.map_map]
      rfl
    have hseen {key : String} {seen : ConfigSettings → Bool} (h : SeenKey numerals key seen) :
        seen config.settings = decide (key.toList ∈ (configLines text).map Prod.fst) := by
      rw [← run_edited] at hrun
      rw [h.run hrun, hkeys, h.blank, Bool.or_false]
    rw [Option.bind_some, hcount.added hclean moduleKeys_lineKey.1 (hseen hcount)]
    cases hadded : overrideModuleKey numerals overrides ConfigSettings.seenModuleCount
        "module.count" config with
    | none => simp [hadded]
    | some config' =>
      have hseen' : config'.settings.seenModuleSlaveFirst =
          decide ("module.slave_first".toList ∈ (configLines text).map Prod.fst) := by
        rw [← hcount.added hclean moduleKeys_lineKey.1 (hseen hcount)] at hadded
        have hother : "module.slave_first".toList ∉
            ((addedLine overrides text "module.count").filterMap configLine).map Prod.fst :=
          fun hmem => absurd (addedLine_keys hclean moduleKeys_lineKey.1 _ hmem) (by decide +kernel)
        rw [hfirst.run hadded, decide_eq_false hother, Bool.false_or]
        exact hseen hfirst
      have hsecond := hfirst.added hclean moduleKeys_lineKey.2 hseen'
      simp only [Option.bind_eq_bind, Option.bind_some, hadded, hnone, hsecond]

end

section

variable {numerals : ConfigNumerals} {overrides : List (List Char)} {text : List Char}

theorem matched_edited (hclean : ∀ entry ∈ overrides, LineOverride entry) {i : ℕ}
    {entry : List Char} (hentry : overrides[i]? = some entry)
    (hmatched : overrideMatched overrides text i) :
    entry ∈ (editText overrides text).splitOn '\n' := by
  obtain ⟨key, hkey, hhit⟩ := List.any_eq_true.1 hmatched
  obtain ⟨value, hlookup, rfl⟩ :=
    configOverrideLookup_hit (of_decide_eq_true hhit) hentry
  have hofLine (hmem : key ∈ (configLines text).map Prod.fst) :
      key ++ '=' :: value ∈ (text.splitOn '\n').map (editLine overrides) := by
    obtain ⟨l, hl, rfl⟩ := List.mem_map.1 hmem
    obtain ⟨line, hline, hconfig⟩ := List.mem_filterMap.1 hl
    refine List.mem_map.2 ⟨line, hline, ?_⟩
    unfold editLine
    rw [hconfig]
    dsimp only
    rw [hlookup]
  have hofModule {name : String} (hname : key = name.toList)
      (hmem : key ∉ (configLines text).map Prod.fst) :
      key ++ '=' :: value ∈ addedLine overrides text name := by
    subst hname
    unfold addedLine
    rw [if_neg hmem, hlookup]
    exact List.mem_singleton_self _
  rw [editText_lines hclean, editedLines, List.append_assoc]
  by_cases hmem : key ∈ (configLines text).map Prod.fst
  · exact List.mem_append_left _ (hofLine hmem)
  · refine List.mem_append_right _ ?_
    rcases List.mem_append.1 hkey with hkey | hkey
    · exact absurd hkey hmem
    · rcases List.mem_cons.1 hkey with hname | hkey
      · exact List.mem_append_left _ (hofModule hname hmem)
      · exact List.mem_append_right _ (hofModule (List.mem_singleton.1 hkey) hmem)

theorem configParse_matched :
    configParse numerals (matchedOverrides overrides text) text =
      configParse numerals overrides text := by
  have hline : Reordering.run (applyLine numerals (matchedOverrides overrides text))
      (configLines text) = Reordering.run (applyLine numerals overrides) (configLines text) := by
    refine run_congr fun l hl => funext fun config => ?_
    unfold applyLine
    rw [configOverrideLookup_matched overrides
      (List.mem_append_left _ (List.mem_map_of_mem hl))]
  have hmodule {key : String} (hkey : key.toList ∈ configLookups text)
      (seen : ConfigSettings → Bool) (config : ConfigFile) :
      overrideModuleKey numerals (matchedOverrides overrides text) seen key config =
        overrideModuleKey numerals overrides seen key config := by
    unfold overrideModuleKey
    rw [configOverrideLookup_matched overrides hkey]
  have hcount : "module.count".toList ∈ configLookups text :=
    List.mem_append_right _ List.mem_cons_self
  have hfirst : "module.slave_first".toList ∈ configLookups text :=
    List.mem_append_right _ (List.mem_cons_of_mem _ (List.mem_singleton_self _))
  unfold configParse
  rw [hline]
  simp only [hmodule hcount, hmodule hfirst]

end

/-- Overrides whose values may stand in a line edit the file, and those that are warned about do
nothing. -/
theorem overrides_edit_file (numerals : ConfigNumerals) {overrides : List (List Char)}
    (hclean : ∀ entry ∈ overrides, LineOverride entry) (text : List Char) :
    OverridesEdit numerals overrides text where
  edited := configParse_edited hclean text
  taken _ _ hentry hmatched := matched_edited hclean hentry hmatched
  idle := configParse_matched

/-- A file with one input, run with another slave, a module count and a key that is misspelt. -/
def overriddenText : List Char := "input.max=1\ninput.1.slave=3 # bench\ninput.1.interval_ms=9".toList

def siteOverrides : List (List Char) :=
  ["input.1.slave=7".toList, "module.count=2".toList, "input.1.intervall_ms=5".toList]

/-- The slave and the count are lines of the edited file, and the third override is left out. -/
theorem overrides_edit_file_example :
    OverridesEdit digitNumerals siteOverrides overriddenText ∧
      editText siteOverrides overriddenText =
        "input.max=1\ninput.1.slave=7\ninput.1.interval_ms=9\nmodule.count=2".toList ∧
      matchedOverrides siteOverrides overriddenText =
        ["input.1.slave=7".toList, "module.count=2".toList] := by
  refine ⟨overrides_edit_file digitNumerals (fun entry hentry => ?_) overriddenText,
    by decide +kernel, by decide +kernel⟩
  simp only [siteOverrides, List.mem_cons, List.not_mem_nil, or_false] at hentry
  rcases hentry with rfl | rfl | rfl
  all_goals exact LineValue.of_check (by decide +kernel) (by decide +kernel) (by decide +kernel)

end Modbusmq
