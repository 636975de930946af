import Modbusmq.Configuration.Parser
import Modbusmq.Library.Lines

/-!
# Converting a configuration

`modbusmq_config --convert`: the keys whose names changed are rewritten line by
line. The program looks at the first word of a line only, and at the end of that
word only for the intervals, so it also renames what the parser reads as another
key, or as none, and what the file keeps for another program.
-/

namespace Modbusmq

open Settings

def renamedKeys : List (String × String) :=
  [("modbusmq.frame_timeout", "modbusmq.frame_timeout_ms"),
    ("modbusmq.rts_delay", "modbusmq.rts_delay_us"),
    ("modbusmq.slave_retry_max", "modbusmq.slave_retry_max_ms"),
    ("modbusmq.request_gap", "modbusmq.frame_delay_ms")]

def intervalSuffixes : List String :=
  [".interval", ".min_interval", ".max_interval", ".round_interval"]

def renamedKey (size : ℕ) (key : List Char) : Option (List Char) :=
  match renamedKeys.find? fun row => row.1.toList = key with
  | some row => some (row.2.toList.take (size - 1))
  | none =>
    if intervalSuffixes.any fun suffix => suffix.toList.isSuffixOf key then
      some ((key ++ "_ms".toList).take (size - 1))
    else none

def endsKey (ch : Char) : Bool := isBlank ch || ch = '=' || ch = '\r' || ch = '\n'

def firstWord (line : List Char) : List Char × List Char :=
  (line.dropWhile isBlank).span fun ch => ¬ endsKey ch

/-- The key that `convert_line` looks up; a line without one passes through. -/
def convertKey (line : List Char) : Option (List Char) :=
  let (key, rest) := firstWord line
  if key.head? = some '#' ∨ key = [] ∨ '=' ∉ rest ∨ 256 ≤ key.length then none else some key

def convertLine (line : List Char) : List Char :=
  match (convertKey line).bind (renamedKey 264) with
  | some newname => line.takeWhile isBlank ++ newname ++ (firstWord line).2
  | none => line

def convert (text : List Char) : List Char := Lines.rewrite '\n' convertLine text

/-- The values of `config.foreign`, as `unknown_handler` collects them. -/
def declaredForeign (text : List Char) : List Char :=
  (configLines text).flatMap fun line =>
    if line.1 = "config.foreign".toList then ' ' :: line.2 else []

def isForeign (foreign key : List Char) : Bool :=
  (foreign.splitOnP fun ch => ch = ' ' || ch = ',').any fun start =>
    start ≠ [] && start.isPrefixOf key

def HasName {R : Type} (table : Table R) (name : List Char) : Prop :=
  ∃ row ∈ table, row.1.toList = name

/-- The parser does something with the key of an entry. -/
def EntryAddress.Known {S C : Type} (tables : EntryTables S C) : EntryAddress → Prop
  | .setting name => HasName tables.settings name
  | .channelMax => True
  | .channel _ name => HasName tables.channels name
  | .unscanned => False

/-- The parser does something with the key. -/
def KnownKey (numerals : ConfigNumerals) (key : List Char) : Prop :=
  match configAddress key with
  | .setting name => HasName (configSettings numerals) name
  | .inputMax | .writeMax => True
  | .input _ key => key.Known (inputTables numerals)
  | .write _ key => key.Known (writeTables numerals)
  | .unscanned => False

theorem assign_noName {R : Type} {table : Table R} {name : List Char} (h : ¬ HasName table name)
    (value : List Char) (r : R) : Settings.assign table name value r = some r := by
  have hnone : table.find? (fun row => row.1.toList = name) = none := by
    rw [List.find?_eq_none]
    intro row hrow hname
    exact h ⟨row, hrow, by simpa using hname⟩
  rw [Settings.assign, hnone]

theorem ConfigEntry.assign_unknown {S C : Type} {tables : EntryTables S C} {key : EntryAddress}
    (h : ¬ key.Known tables) {value : List Char} {entry entry' : ConfigEntry S C}
    (hassign : entry.assign tables key value = some entry') : entry' = entry := by
  cases key with
  | setting name =>
    rw [ConfigEntry.assign, assign_noName h] at hassign
    exact (Option.some.inj hassign).symm
  | channelMax => exact absurd trivial h
  | channel m name =>
    obtain ⟨channels, hchannels, rfl⟩ := Option.map_eq_some_iff.1 hassign
    rw [onNumbered_same (fun r r' hr => ?_) hchannels]
    rw [assign_noName h] at hr
    exact (Option.some.inj hr).symm
  | unscanned => exact (Option.some.inj hassign).symm

/-- A key that the parser does not know leaves a configuration that is accepted as it was. -/
theorem ConfigFile.assign_unknown {numerals : ConfigNumerals} {key : List Char}
    (h : ¬ KnownKey numerals key) {value : List Char} {config config' : ConfigFile}
    (hassign : config.assign numerals (configAddress key) value = some config') :
    config' = config := by
  unfold KnownKey at h
  cases hkey : configAddress key with
  | setting name =>
    rw [hkey] at h hassign
    rw [ConfigFile.assign, assign_noName h] at hassign
    exact (Option.some.inj hassign).symm
  | inputMax =>
    rw [hkey] at h
    exact absurd trivial h
  | input n key =>
    rw [hkey] at h hassign
    obtain ⟨inputs, hinputs, rfl⟩ := Option.map_eq_some_iff.1 hassign
    rw [onNumbered_same (fun _ _ => ConfigEntry.assign_unknown h) hinputs]
  | writeMax =>
    rw [hkey] at h
    exact absurd trivial h
  | write n key =>
    rw [hkey] at h hassign
    obtain ⟨writes, hwrites, rfl⟩ := Option.map_eq_some_iff.1 hassign
    rw [onNumbered_same (fun _ _ => ConfigEntry.assign_unknown h) hwrites]
  | unscanned =>
    rw [hkey] at hassign
    exact (Option.some.inj hassign).symm

/-- The key that the parser reads in a line, whatever its value. -/
def lineKey (line : List Char) : Option (List Char) :=
  let text := line.takeWhile fun ch => ch ≠ '\x00' ∧ ch ≠ '#' ∧ ch ≠ '\n' ∧ ch ≠ '\r'
  let key := Trim.trim isBlank (text.takeWhile (· ≠ '='))
  if '=' ∉ text ∨ key = [] then none else some key

/-- A name of before the units, and the name of today. -/
inductive OldName : List Char → List Char → Prop
  | exact {row : String × String} (h : row ∈ renamedKeys) : OldName row.1.toList row.2.toList
  | interval {suffix : String} (h : suffix ∈ intervalSuffixes) (stem : List Char) :
      OldName (stem ++ suffix.toList) (stem ++ suffix.toList ++ "_ms".toList)

/-- A key that this library renamed: the new name is one of its keys. -/
structure LibraryRenamed (numerals : ConfigNumerals) (key newname : List Char) : Prop where
  old : OldName key newname
  known : KnownKey numerals newname

/-- A conversion of the text that changes nothing but the keys of this library. -/
structure FaithfulConversion (numerals : ConfigNumerals) (text : List Char) : Prop where
  idempotent : convert (convert text) = convert text
  linewise : Lines.split '\n' (convert text) = (Lines.split '\n' text).map convertLine
  renamed : ∀ line ∈ Lines.split '\n' text, convertLine line ≠ line →
    ∃ before key newname after, LibraryRenamed numerals key newname ∧ lineKey line = some key ∧
      (∀ ch ∈ before, isBlank ch) ∧ line = before ++ key ++ after ∧
        convertLine line = before ++ newname ++ after
  foreign : ∀ line ∈ Lines.split '\n' text, ∀ key, lineKey line = some key →
    isForeign (declaredForeign text) key → convertLine line = line

/-- Where the first word of a line is an old name, it is the key of the line, a key of this library
and of no other program. -/
def OwnOldNames (numerals : ConfigNumerals) (text : List Char) : Prop :=
  ∀ line ∈ Lines.split '\n' text, ∀ key newname, convertKey line = some key →
    OldName key newname → lineKey line = some key ∧ KnownKey numerals newname ∧
      ¬ isForeign (declaredForeign text) key

/-- What is checked of the table once: the buffer holds its new names, which are words, end in a
unit, and replace names that end otherwise and are no intervals. -/
structure SoundRow (row : String × String) : Prop where
  fits : row.2.toList.length < 264
  word : row.2.toList.all fun ch => ¬ endsKey ch
  unit : row.2.toList.getLast? = some 's'
  oldUnit : row.1.toList.getLast? ≠ some 's'
  notInterval : row.1.toList.getLast? ≠ some 'l'
  oldWord : row.1.toList.all fun ch => ¬ endsKey ch
  first : renamedKeys.find? (fun other => other.1.toList = row.1.toList) = some row

theorem renamedKeys_sound {row : String × String} (h : row ∈ renamedKeys) : SoundRow row := by
  simp only [renamedKeys, List.mem_cons, List.not_mem_nil, or_false] at h
  rcases h with rfl | rfl | rfl | rfl <;> constructor <;> decide

theorem interval_getLast {suffix : String} (h : suffix ∈ intervalSuffixes) (stem : List Char) :
    (stem ++ suffix.toList).getLast? = some 'l' := by
  simp only [intervalSuffixes, List.mem_cons, List.not_mem_nil, or_false] at h
  rcases h with rfl | rfl | rfl | rfl <;> exact List.getLast?_append_of_ne_nil _ (by decide)

theorem OldName.getLast {key newname : List Char} (h : OldName key newname) :
    key.getLast? ≠ some 's' ∧ newname.getLast? = some 's' := by
  cases h with
  | exact h => exact ⟨(renamedKeys_sound h).oldUnit, (renamedKeys_sound h).unit⟩
  | interval h stem =>
    constructor
    · rw [interval_getLast h]
      decide
    · exact List.getLast?_append_of_ne_nil _ (by decide)

theorem OldName.settled {key newname : List Char} (h : OldName key newname) (again : List Char) :
    ¬ OldName newname again := fun hagain => hagain.getLast.1 h.getLast.2

theorem OldName.ne {key newname : List Char} (h : OldName key newname) : newname ≠ key := by
  rintro rfl
  exact h.settled _ h

theorem OldName.new_ne_nil {key newname : List Char} (h : OldName key newname) : newname ≠ [] := by
  rintro rfl
  simpa using h.getLast.2

/-- No character of a new name ends a word, as long as none of the old one does. -/
theorem OldName.word {key newname : List Char} (h : OldName key newname)
    (hword : ∀ ch ∈ key, ¬ endsKey ch) : ∀ ch ∈ newname, ¬ endsKey ch := by
  cases h with
  | exact h => simpa using (renamedKeys_sound h).word
  | interval h stem =>
    have hms : ("_ms".toList).all fun ch => ¬ endsKey ch := by decide
    intro ch hch
    rcases List.mem_append.1 hch with hch | hch
    · exact hword ch hch
    · simpa using List.all_eq_true.1 hms ch hch

/-- The buffer of `convert_line` holds every new name of a key that it looks up. -/
theorem renamedKey_iff {key : List Char} (h : key.length < 256) (newname : List Char) :
    renamedKey 264 key = some newname ↔ OldName key newname := by
  have hsuffixed : (key ++ "_ms".toList).take (264 - 1) = key ++ "_ms".toList := by
    have hms : ("_ms".toList).length = 3 := by decide
    apply List.take_of_length_le
    rw [List.length_append, hms]
    omega
  unfold renamedKey
  cases hfind : renamedKeys.find? fun row => row.1.toList = key with
  | some row =>
    have hmem := List.mem_of_find?_eq_some hfind
    have hsound := renamedKeys_sound hmem
    obtain rfl : row.1.toList = key := by simpa using List.find?_some hfind
    have htake : row.2.toList.take (264 - 1) = row.2.toList :=
      List.take_of_length_le (Nat.le_of_lt_succ hsound.fits)
    dsimp only
    rw [htake]
    constructor
    · intro heq
      rw [← Option.some.inj heq]
      exact .exact hmem
    · generalize hkey : row.1.toList = key
      intro hold
      cases hold with
      | @exact other hother =>
        have hfirst := (renamedKeys_sound hother).first
        rw [← hkey, hsound.first] at hfirst
        rw [Option.some.inj hfirst]
      | interval hsuffix stem =>
        exact absurd (by rw [hkey, interval_getLast hsuffix]) hsound.notInterval
  | none =>
    have hnone := List.find?_eq_none.1 hfind
    dsimp only
    rw [hsuffixed]
    constructor
    · intro heq
      split_ifs at heq with hany
      obtain ⟨suffix, hsuffix, hends⟩ := List.any_eq_true.1 hany
      obtain ⟨stem, rfl⟩ := List.isSuffixOf_iff_suffix.1 hends
      rw [← Option.some.inj heq]
      exact .interval hsuffix stem
    · intro hold
      cases hold with
      | exact hmem => exact absurd (by simp) (hnone _ hmem)
      | interval hsuffix stem =>
        rw [if_pos]
        exact List.any_eq_true.2
          ⟨_, hsuffix, List.isSuffixOf_iff_suffix.2 (List.suffix_append _ _)⟩

/-- A line cut around its first word, where `convert_line` takes that for a key. -/
structure KeyShape (before key after : List Char) : Prop where
  blank : ∀ ch ∈ before, isBlank ch
  word : ∀ ch ∈ key, ¬ endsKey ch
  ne : key ≠ []
  noComment : key.head? ≠ some '#'
  short : key.length < 256
  equals : '=' ∈ after
  ends : ∀ ch ∈ after.head?, endsKey ch

theorem endsKey_of_blank {ch : Char} (h : isBlank ch) : endsKey ch := by
  simp [endsKey, h]

/-- Blanks, a word and what follows it are what the line is cut into. -/
theorem firstWord_cut {before key after : List Char} (hblank : ∀ ch ∈ before, isBlank ch)
    (hword : ∀ ch ∈ key, ¬ endsKey ch) (hne : key ≠ []) (hends : ∀ ch ∈ after.head?, endsKey ch) :
    (before ++ key ++ after).takeWhile isBlank = before ∧
      firstWord (before ++ key ++ after) = (key, after) := by
  obtain ⟨first, key, rfl⟩ := List.exists_cons_of_ne_nil hne
  have hfirst : ¬ isBlank first := mt endsKey_of_blank (hword first List.mem_cons_self)
  have hkey : ∀ ch ∈ first :: key, (decide ¬ endsKey ch) = true := by
    simpa using hword
  have hafter : after.span (fun ch => ¬ endsKey ch) = ([], after) := by
    rw [List.span_eq_takeWhile_dropWhile]
    cases after with
    | nil => rfl
    | cons ch after =>
      have hch : endsKey ch := hends ch rfl
      simp [hch]
  have hstart : ∀ ch ∈ (first :: key ++ after).head?, ¬ isBlank ch := by
    simpa using hfirst
  obtain ⟨htake, hdrop⟩ := Lines.takeWhile_cut hblank hstart
  rw [List.append_assoc]
  refine ⟨htake, ?_⟩
  rw [firstWord, hdrop]
  rw [List.span_eq_takeWhile_dropWhile] at hafter ⊢
  rw [List.takeWhile_append_of_pos hkey, List.dropWhile_append_of_pos hkey,
    (Prod.mk.inj hafter).1, (Prod.mk.inj hafter).2, List.append_nil]

theorem KeyShape.convertKey {before key after : List Char} (h : KeyShape before key after) :
    convertKey (before ++ key ++ after) = some key := by
  obtain ⟨-, hfirst⟩ := firstWord_cut h.blank h.word h.ne h.ends
  have hlong : ¬ 256 ≤ key.length := Nat.not_le.2 h.short
  rw [Modbusmq.convertKey, hfirst]
  exact if_neg (by simp [h.noComment, h.ne, h.equals, hlong])

theorem exists_keyShape {line key : List Char} (h : convertKey line = some key) :
    ∃ before after, line = before ++ key ++ after ∧ KeyShape before key after := by
  refine ⟨line.takeWhile isBlank, (firstWord line).2, ?_⟩
  have hcut : line.takeWhile isBlank ++ (firstWord line).1 ++ (firstWord line).2 = line := by
    rw [firstWord, List.append_assoc, List.span_eq_takeWhile_dropWhile,
      List.takeWhile_append_dropWhile, List.takeWhile_append_dropWhile]
  have hword : ∀ ch ∈ (firstWord line).1, ¬ endsKey ch := by
    intro ch hch
    rw [firstWord, List.span_eq_takeWhile_dropWhile] at hch
    simpa using List.mem_takeWhile_imp hch
  have hends : ∀ ch ∈ (firstWord line).2.head?, endsKey ch := by
    intro ch hch
    rw [firstWord, List.span_eq_takeWhile_dropWhile] at hch
    have hnot := List.head?_dropWhile_not (fun ch => decide ¬ endsKey ch) (line.dropWhile isBlank)
    rw [Option.mem_def.1 hch] at hnot
    simpa using hnot
  unfold convertKey at h
  dsimp only at h
  split_ifs at h with hthrough
  simp only [not_or, not_not, Nat.not_le] at hthrough
  obtain rfl := Option.some.inj h
  refine ⟨hcut.symm, ?_⟩
  exact
    { blank := fun ch hch => List.mem_takeWhile_imp hch
      word := hword
      ne := hthrough.2.1
      noComment := hthrough.1
      short := hthrough.2.2.2
      equals := hthrough.2.2.1
      ends := hends }

theorem KeyShape.convertLine {before key after newname : List Char} (h : KeyShape before key after)
    (hold : OldName key newname) :
    convertLine (before ++ key ++ after) = before ++ newname ++ after := by
  obtain ⟨hblanks, hfirst⟩ := firstWord_cut h.blank h.word h.ne h.ends
  rw [Modbusmq.convertLine, h.convertKey, Option.bind_some, (renamedKey_iff h.short _).2 hold]
  dsimp only
  rw [hblanks, hfirst]

-- the blanks, the value and the comment stay
example : convertLine "\tinput.3.interval =  500 # ms".toList =
    "\tinput.3.interval_ms =  500 # ms".toList := by decide +kernel

theorem convertLine_same {line : List Char}
    (h : ∀ key newname, convertKey line = some key → ¬ OldName key newname) :
    convertLine line = line := by
  unfold convertLine
  cases hkey : convertKey line with
  | none => rfl
  | some key =>
    obtain ⟨before, after, -, hshape⟩ := exists_keyShape hkey
    cases hnew : renamedKey 264 key with
    | none => simp [hnew]
    | some newname =>
      exact absurd ((renamedKey_iff hshape.short newname).1 hnew) (h key newname hkey)

theorem convertLine_cases (line : List Char) :
    convertLine line = line ∨
      ∃ before key newname after, line = before ++ key ++ after ∧ KeyShape before key after ∧
        OldName key newname := by
  by_cases h : ∃ key newname, convertKey line = some key ∧ OldName key newname
  · obtain ⟨key, newname, hkey, hold⟩ := h
    obtain ⟨before, after, hline, hshape⟩ := exists_keyShape hkey
    exact .inr ⟨before, key, newname, after, hline, hshape, hold⟩
  · push Not at h
    exact .inl (convertLine_same h)

theorem convertLine_convertLine (line : List Char) :
    convertLine (convertLine line) = convertLine line := by
  rcases convertLine_cases line with hsame | ⟨before, key, newname, after, rfl, hshape, hold⟩
  · rw [hsame, hsame]
  · rw [hshape.convertLine hold]
    apply convertLine_same
    intro again newer hkey
    -- the first word of the new line is the new name, whether or not it is looked up
    obtain ⟨-, hfirst⟩ :=
      firstWord_cut hshape.blank (hold.word hshape.word) hold.new_ne_nil hshape.ends
    unfold convertKey at hkey
    rw [hfirst] at hkey
    dsimp only at hkey
    split_ifs at hkey
    obtain rfl := Option.some.inj hkey
    exact hold.settled newer

theorem convertLine_keepsLines : Lines.KeepsLines '\n' convertLine where
  last := by
    intro line hsep hne
    rcases convertLine_cases line with hsame | ⟨before, key, newname, after, rfl, hshape, hold⟩
    · rw [hsame]
      exact ⟨hsep, hne⟩
    · have hnew : '\n' ∉ newname := fun h => hold.word hshape.word _ h (by decide)
      rw [hshape.convertLine hold]
      simp only [List.mem_append, not_or] at hsep ⊢
      exact ⟨⟨⟨hsep.1.1, hnew⟩, hsep.2⟩, by simp [hold.new_ne_nil]⟩
  closed := by
    intro body hsep
    rcases convertLine_cases (body ++ ['\n']) with
      hsame | ⟨before, key, newname, after, hline, hshape, hold⟩
    · exact ⟨body, hsep, hsame⟩
    · have hnew : '\n' ∉ newname := fun h => hold.word hshape.word _ h (by decide)
      obtain ⟨after, last, rfl⟩ := (List.eq_nil_or_concat' after).resolve_left
        (List.ne_nil_of_mem hshape.equals)
      obtain ⟨rfl, hlast⟩ := List.append_inj' (hline.trans (List.append_assoc ..).symm) rfl
      rw [hline, hshape.convertLine hold, ← List.append_assoc, ← hlast]
      refine ⟨before ++ newname ++ after, ?_, rfl⟩
      simp only [List.mem_append, not_or] at hsep ⊢
      exact ⟨⟨hsep.1.1, hnew⟩, hsep.2⟩

/-- The key of a line stands behind blanks, with blanks only between it and the equals sign. -/
theorem lineKey_split {line key : List Char} (h : lineKey line = some key) :
    ∃ before mid rest, line = before ++ key ++ (mid ++ '=' :: rest) ∧ (∀ ch ∈ before, isBlank ch) ∧
      (∀ ch ∈ mid, isBlank ch) ∧ key ≠ [] ∧ ∀ ch ∈ key.head?, ¬ isBlank ch := by
  unfold lineKey at h
  dsimp only at h
  generalize htext : line.takeWhile
    (fun ch => decide (ch ≠ '\x00' ∧ ch ≠ '#' ∧ ch ≠ '\n' ∧ ch ≠ '\r')) = text at h
  obtain ⟨comment, rfl⟩ : text <+: line := htext ▸ List.takeWhile_prefix _
  split_ifs at h with hskip
  simp only [not_or, not_not] at hskip
  obtain ⟨before, mid, hsplit, hbefore, hmid⟩ :=
    Trim.trim_split isBlank (text.takeWhile (· ≠ '='))
  rw [Option.some.inj h] at hsplit hskip
  have hrest : ∃ rest, text.dropWhile (· ≠ '=') = '=' :: rest := by
    cases hdrop : text.dropWhile (· ≠ '=') with
    | nil =>
      have hall := List.dropWhile_eq_nil_iff.1 hdrop _ hskip.1
      simp at hall
    | cons ch rest =>
      have hnot := List.head?_dropWhile_not (· ≠ '=') text
      rw [hdrop] at hnot
      obtain rfl : ch = '=' := by simpa using hnot
      exact ⟨rest, rfl⟩
  obtain ⟨rest, hrest⟩ := hrest
  refine ⟨before, mid, rest ++ comment, ?_, hbefore, hmid, hskip.2, ?_⟩
  · rw [← List.takeWhile_append_dropWhile (p := (· ≠ '=')) (l := text), hsplit, hrest]
    simp
  · rw [← Option.some.inj h]
    exact (Trim.trim_trimmed isBlank _).head

theorem rename_unique {before key newname after before' key' newname' after' : List Char}
    (hshape : KeyShape before key after) (hold : OldName key newname)
    (hline : lineKey (before ++ key ++ after) = some key') (hold' : OldName key' newname')
    (hblank : ∀ ch ∈ before', isBlank ch)
    (hcut : before ++ key ++ after = before' ++ key' ++ after')
    (hnew : before ++ newname ++ after = before' ++ newname' ++ after') :
    key' = key ∧ newname' = newname := by
  obtain ⟨front, mid, rest, hsplit, hfront, hmid, hne, hhead⟩ := lineKey_split hline
  have hstart : ∀ tail, ∀ ch ∈ (key' ++ tail).head?, ¬ isBlank ch := by
    intro tail ch hch
    rw [List.head?_append_of_ne_nil _ hne] at hch
    exact hhead ch hch
  have hbefore := (firstWord_cut hshape.blank hshape.word hshape.ne hshape.ends).1
  obtain rfl : before' = before := by
    rw [← hbefore, hcut, List.append_assoc, (Lines.takeWhile_cut hblank (hstart _)).1]
  obtain rfl : front = before' := by
    rw [← hbefore, hsplit, List.append_assoc, (Lines.takeWhile_cut hfront (hstart _)).1]
  rw [List.append_assoc, List.append_assoc, List.append_cancel_left_eq] at hcut hnew
  have hafter : after' = mid ++ '=' :: rest := by
    rw [List.append_assoc, List.append_assoc, List.append_cancel_left_eq, hcut,
      List.append_cancel_left_eq] at hsplit
    exact hsplit
  have hnotEnds : ∀ {word : List Char}, (∀ ch ∈ word, ¬ endsKey ch) → ∀ ch tail, endsKey ch →
      (word ++ ch :: tail).takeWhile (fun ch => ¬ endsKey ch) = word := by
    intro word hword ch tail hch
    rw [List.takeWhile_append_of_pos (by simpa using hword), List.takeWhile_cons_of_neg (by simpa),
      List.append_nil]
  rcases List.append_eq_append_iff.1 hcut with ⟨more, hmore, rfl⟩ | ⟨more, hmore, hrest⟩
  · rw [← List.append_assoc, List.append_cancel_right_eq] at hnew
    cases more with
    | nil => exact ⟨hmore.trans (List.append_nil _), by rw [← hnew, List.append_nil]⟩
    | cons ch more =>
      exfalso
      have hends : endsKey ch := hshape.ends ch rfl
      cases hold' with
      | exact hmem =>
        have hword := List.all_eq_true.1 (renamedKeys_sound hmem).oldWord ch (by simp [hmore])
        simp [hends] at hword
      | interval hsuffix stem =>
        -- the unit would stand behind the second word, not behind the first
        rw [hmore, List.append_assoc, List.cons_append] at hnew
        have hwords := congrArg (List.takeWhile fun ch => ¬ endsKey ch) hnew
        rw [hnotEnds (hold.word hshape.word) _ _ hends, hnotEnds hshape.word _ _ hends] at hwords
        exact hold.ne hwords
  · cases more with
    | nil =>
      rw [List.nil_append] at hrest
      rw [hrest, List.append_cancel_right_eq] at hnew
      exact ⟨(hmore.trans (List.append_nil _)).symm, hnew.symm⟩
    | cons ch more =>
      exfalso
      apply hshape.word ch (by simp [hmore])
      rw [hafter] at hrest
      cases mid with
      | nil =>
        rw [← (List.cons.inj hrest).1]
        decide
      | cons blank mid =>
        rw [← (List.cons.inj hrest).1]
        exact endsKey_of_blank (hmid _ List.mem_cons_self)

theorem convert_linewise (text : List Char) :
    Lines.split '\n' (convert text) = (Lines.split '\n' text).map convertLine :=
  Lines.split_rewrite convertLine_keepsLines text

theorem convert_idempotent (text : List Char) : convert (convert text) = convert text :=
  Lines.rewrite_rewrite convertLine_keepsLines convertLine_convertLine text

/-- A text is converted faithfully just where every first word that is an old name is the key of
its line, and one of this library's own. -/
theorem faithful_conversion_iff (numerals : ConfigNumerals) (text : List Char) :
    FaithfulConversion numerals text ↔ OwnOldNames numerals text := by
  constructor
  · intro h line hmem key newname hkey hold
    obtain ⟨before, after, rfl, hshape⟩ := exists_keyShape hkey
    have hconvert := hshape.convertLine hold
    have hchanged : convertLine (before ++ key ++ after) ≠ before ++ key ++ after := by
      rw [hconvert, Ne, List.append_cancel_right_eq, List.append_cancel_left_eq]
      exact hold.ne
    obtain ⟨before', key', newname', after', hrenamed, hline, hblank, hcut, hnew⟩ :=
      h.renamed _ hmem hchanged
    rw [hconvert] at hnew
    obtain ⟨rfl, rfl⟩ := rename_unique hshape hold hline hrenamed.old hblank hcut hnew
    exact ⟨hline, hrenamed.known, fun hforeign => hchanged (h.foreign _ hmem _ hline hforeign)⟩
  · intro h
    refine ⟨convert_idempotent text, convert_linewise text, ?_, ?_⟩
    · intro line hmem hchanged
      obtain ⟨before, key, newname, after, rfl, hshape, hold⟩ :=
        (convertLine_cases line).resolve_left hchanged
      obtain ⟨hline, hknown, -⟩ := h _ hmem key newname hshape.convertKey hold
      exact ⟨before, key, newname, after, ⟨hold, hknown⟩, hline, hshape.blank, rfl,
        hshape.convertLine hold⟩
    · intro line hmem key hline hforeign
      by_contra hchanged
      obtain ⟨before, word, newname, after, rfl, hshape, hold⟩ :=
        (convertLine_cases line).resolve_left hchanged
      obtain ⟨hword, -, hnot⟩ := h _ hmem word newname hshape.convertKey hold
      rw [hline] at hword
      rw [← Option.some.inj hword] at hnot
      exact hnot hforeign

/-- A file that keeps a key for another program, which ends like one of this library. -/
def foreignText : List Char := "config.foreign = pxbank.\npxbank.poll.interval = 5\n".toList

/-- The key of the other program is renamed. -/
theorem foreign_key_converted : ¬ FaithfulConversion digitNumerals foreignText := by
  intro h
  have hsame := h.foreign "pxbank.poll.interval = 5\n".toList (by decide +kernel)
    "pxbank.poll.interval".toList (by decide +kernel) (by decide +kernel)
  exact absurd hsame (by decide +kernel)

end Modbusmq
