import Modbusmq.Configuration.Resolution

/-!
# The lengths of text channels

A text of variable width takes its length from `channel.length` or from
`channel.nregisters`. What the lines of a file ask for is followed in unbounded
integers beside the parser, and compared with what it stores.
-/

namespace Modbusmq

open Json Settings

/-- The sign, the base and the digits of a number. -/
def spelling (s : List Char) : Bool × ℕ × List Char :=
  let (negative, t) := match s.dropWhile isSpace with
    | '-' :: t => (true, t)
    | '+' :: t => (false, t)
    | t => (false, t)
  let (base, t) := strtolBase t
  (negative, base, t.takeWhile fun ch => digitValue ch < base)

def spelledInt (s : List Char) : ℤ :=
  let (negative, base, digits) := spelling s
  let value : ℤ := digits.foldl (fun n ch => n * base + digitValue ch) 0
  if negative then -value else value

theorem strtol_spelled (s : List Char) :
    (strtol s).1 = max (-2 ^ 63) (min (2 ^ 63 - 1) (spelledInt s)) := by
  have hstrtol : (strtol s).1 = if (spelling s).2.2.isEmpty then 0
      else max (-2 ^ 63) (min (2 ^ 63 - 1) (spelledInt s)) := by
    unfold spelledInt spelling strtol
    dsimp only
    refine (apply_ite Prod.fst _ _ _).trans ?_
    generalize s.dropWhile isSpace = u
    match u with
    | [] => rfl
    | c :: t =>
      by_cases hminus : c = '-'
      · subst hminus
        rfl
      · by_cases hplus : c = '+'
        · subst hplus
          rfl
        · rfl
  rw [hstrtol]
  split_ifs with hempty
  · have hzero : spelledInt s = 0 := by
      unfold spelledInt
      dsimp only
      rw [List.isEmpty_iff.1 hempty]
      split_ifs <;> rfl
    rw [hzero]
    rfl
  · rfl

def lengthUnit (name : List Char) : Option ℤ :=
  if name = "length".toList then some 1
  else if name = "nregisters".toList then some 2
  else none

/-- The bytes that a line asks for in channel `m` of input `n`, counted from 0. -/
def askedLength (n m : ℕ) (key : ConfigAddress) (value : List Char) : Option ℤ :=
  match key with
  | .input i (.channel c name) =>
    if i = n + 1 ∧ c = m + 1 then (lengthUnit name).map (· * spelledInt value) else none
  | _ => none

def ConfigFile.channel (config : ConfigFile) (n m : ℕ) : Option ConfigChannel :=
  config.inputs[n]?.bind (·.channels[m]?)

section

variable (numerals : ConfigNumerals) (overrides : List (List Char))

/-- The bytes asked for last in channel `m` of input `n`. A line for a channel that is not there
yet is skipped. -/
def lastLength (n m : ℕ) : Option ℤ → ConfigFile → List (List Char × List Char) → Option ℤ
  | asked, _, [] => asked
  | asked, config, line :: rest =>
    match applyLine numerals overrides line config with
    | none => asked
    | some config' =>
      lastLength n m
        (if (config.channel n m).isSome then
          (askedLength n m (configAddress line.1)
            ((configOverrideLookup overrides line.1).getD line.2)).or asked
        else asked) config' rest

def configRead (text : List Char) : Option ConfigFile :=
  Reordering.run (applyLine numerals overrides) (configLines text) ⟨defaultSettings, [], []⟩

/-- The bytes that a text asks for last in channel `m` of input `n`. -/
def configuredLength (text : List Char) (n m : ℕ) : Option ℤ :=
  lastLength numerals overrides n m none ⟨defaultSettings, [], []⟩ (configLines text)

end

/-- The length of a channel goes back to what was asked for last, and without it to its format. -/
structure LengthFrom (asked : Option ℤ) (channel : ConfigChannel) : Prop where
  given : channel.hasLength = asked.isSome
  fixed : asked = none → channel.format ≠ .unknown → channel.length = formatSize channel.format
  max : asked ≠ none → channel.length ≤ 64
  exact : ∀ bytes ∈ asked, -2 ^ 31 ≤ bytes → bytes < 2 ^ 31 →
    channel.length = bytes ∧ 1 ≤ bytes ∧ bytes ≤ 64

theorem blankChannel_sized : LengthFrom none blankChannel where
  given := rfl
  fixed _ hknown := absurd rfl hknown
  max hasked := absurd rfl hasked
  exact _ hbytes := nomatch hbytes

/-- A length that is accepted is at most 64, and the one asked for where that is an `int`. -/
theorem configLength_sized {unit : ℤ} (hunit : unit = 1 ∨ unit = 2) {text : List Char} {length : ℤ}
    (h : configLength unit text = some length) :
    length ≤ 64 ∧ (-2 ^ 31 ≤ unit * spelledInt text → unit * spelledInt text < 2 ^ 31 →
      length = unit * spelledInt text ∧ 1 ≤ unit * spelledInt text ∧
        unit * spelledInt text ≤ 64) := by
  unfold configLength at h
  dsimp only at h
  split_ifs at h with hrefused
  obtain rfl := Option.some.inj h
  refine ⟨by omega, fun hlow hhigh => ?_⟩
  have hnumber : -2 ^ 31 ≤ spelledInt text ∧ spelledInt text < 2 ^ 31 := by
    rcases hunit with rfl | rfl <;> omega
  have hint : configInt text = spelledInt text := by
    unfold configInt
    rw [strtol_spelled, max_eq_right (by omega), min_eq_right (by omega)]
    exact cInt_eq hnumber.1 hnumber.2
  rw [hint, mul_comm, cInt_eq hlow hhigh] at hrefused ⊢
  refine ⟨rfl, ?_, by omega⟩
  rcases hunit with rfl | rfl <;> omega

section

variable (numerals : ConfigNumerals)

theorem assign_length {name : List Char} {unit : ℤ} (h : lengthUnit name = some unit)
    (value : List Char) (channel : ConfigChannel) :
    Settings.assign (channelSettings numerals) name value channel =
        (configLength unit value).map
          (fun length => { channel with length := length, hasLength := true }) ∧
      (unit = 1 ∨ unit = 2) := by
  unfold lengthUnit at h
  split_ifs at h with hlength hregisters
  · obtain rfl := Option.some.inj h
    rw [hlength]
    exact ⟨rfl, .inl rfl⟩
  · obtain rfl := Option.some.inj h
    rw [hregisters]
    exact ⟨rfl, .inr rfl⟩

theorem assign_format (value : List Char) (channel : ConfigChannel) :
    Settings.assign (channelSettings numerals) "format".toList value channel =
      (if configDataformat (String.ofList value) ≠ .unknown then
        some (configDataformat (String.ofList value)) else none).map fun format =>
          { channel with
            format := format
            length := if channel.hasLength then channel.length else formatSize format } := by
  change Option.map _ (if decide _ = true then _ else _) = _
  simp only [decide_eq_true_eq]
  rfl

theorem channelSettings_other : ∀ row ∈ channelSettings numerals,
    row.1.toList ≠ "format".toList → lengthUnit row.1.toList = none →
      ∀ value channel, (row.2.put value channel).length = channel.length ∧
        (row.2.put value channel).hasLength = channel.hasLength ∧
        (row.2.put value channel).format = channel.format := by
  unfold channelSettings
  simp only [List.forall_mem_cons]
  refine ⟨?_, ?_, ?_, ?_, ?_, ?_, ?_, ?_, ?_, ?_, ?_, ?_, ?_, ?_, ?_, ?_, ?_, ?_, ?_, ?_⟩
  case refine_2 => exact fun hformat => absurd rfl hformat
  case refine_3 | refine_4 => exact fun _ hunit => absurd hunit (by decide)
  case refine_20 => exact fun row hrow => absurd hrow List.not_mem_nil
  all_goals exact fun _ _ _ _ => ⟨by trivial, by trivial, by trivial⟩

variable {numerals}

theorem LengthFrom.assign {asked : Option ℤ} {channel channel' : ConfigChannel} (h : LengthFrom asked channel)
    {name value : List Char}
    (hassign : Settings.assign (channelSettings numerals) name value channel = some channel') :
    LengthFrom (((lengthUnit name).map (· * spelledInt value)).or asked) channel' := by
  cases hunit : lengthUnit name with
  | some unit =>
    obtain ⟨heq, hunits⟩ := assign_length numerals hunit value channel
    rw [heq] at hassign
    obtain ⟨length, hlength, rfl⟩ := Option.map_eq_some_iff.1 hassign
    obtain ⟨hmax, hexact⟩ := configLength_sized hunits hlength
    refine ⟨rfl, fun hnone => (nomatch hnone), fun _ => hmax, ?_⟩
    rintro bytes ⟨rfl⟩
    exact hexact
  | none =>
    rw [Option.map_none, Option.none_or]
    by_cases hformat : name = "format".toList
    · rw [hformat, assign_format] at hassign
      obtain ⟨format, -, rfl⟩ := Option.map_eq_some_iff.1 hassign
      cases asked with
      | none =>
        exact ⟨h.given, fun _ _ => if_neg (by rw [h.given]; decide), fun hasked => absurd rfl hasked,
          fun _ hbytes => nomatch hbytes⟩
      | some bytes =>
        have hkept : (if channel.hasLength then channel.length else (formatSize format : ℤ)) =
            channel.length := if_pos h.given
        refine ⟨h.given, fun hnone => (nomatch hnone), fun hasked => ?_, fun bytes hbytes => ?_⟩
        · exact hkept.le.trans (h.max hasked)
        · rw [hkept]
          exact h.exact bytes hbytes
    · rcases assign_row hassign with ⟨rfl, -⟩ | ⟨row, hrow, rfl, hset⟩
      · exact h
      · obtain ⟨v, -, rfl⟩ := Option.map_eq_some_iff.1 hset
        obtain ⟨hlength, hgiven, hkept⟩ :=
          channelSettings_other numerals row hrow hformat hunit v channel
        refine ⟨hgiven.trans h.given, fun hasked hknown => ?_, fun hasked => ?_, ?_⟩
        · rw [hkept] at hknown ⊢
          rw [hlength, h.fixed hasked hknown]
        · exact hlength.le.trans (h.max hasked)
        · rw [hlength]
          exact h.exact

variable (numerals) in
/-- What a line does to channel `m` of input `n`. -/
inductive ChannelStep (n m : ℕ) (key : ConfigAddress) (value : List Char) :
    Option ConfigChannel → Option ConfigChannel → Prop
  | absent : ChannelStep n m key value none none
  | made : ChannelStep n m key value none (some blankChannel)
  | kept {channel : ConfigChannel} (hkey : askedLength n m key value = none) :
    ChannelStep n m key value (some channel) (some channel)
  | set {channel channel' : ConfigChannel} {name : List Char}
    (hkey : key = .input (n + 1) (.channel (m + 1) name))
    (hset : Settings.assign (channelSettings numerals) name value channel = some channel') :
    ChannelStep n m key value (some channel) (some channel')

theorem ChannelStep.unchanged {n m : ℕ} {key : ConfigAddress} {value : List Char}
    {channel : Option ConfigChannel} (h : channel = none ∨ askedLength n m key value = none) :
    ChannelStep numerals n m key value channel channel := by
  cases channel with
  | none => exact .absent
  | some channel => exact .kept (h.resolve_left (Option.some_ne_none channel))

theorem ConfigEntry.assign_channel {n m : ℕ} {key : EntryAddress} {value : List Char}
    {input input' : ConfigInput}
    (h : ConfigEntry.assign (inputTables numerals) key value input = some input') :
    ChannelStep numerals n m (.input (n + 1) key) value input.channels[m]? input'.channels[m]? := by
  unfold ConfigEntry.assign at h
  cases key with
  | setting name =>
    obtain ⟨settings, -, rfl⟩ := Option.map_eq_some_iff.1 h
    exact .unchanged (.inr rfl)
  | channelMax =>
    dsimp only at h
    split_ifs at h with hrefused
    obtain rfl := Option.some.inj h
    push Not at hrefused
    rw [hrefused.1]
    dsimp only
    rw [List.getElem?_replicate]
    split_ifs
    · exact .made
    · exact .absent
  | channel c name =>
    obtain ⟨channels, hchannels, rfl⟩ := Option.map_eq_some_iff.1 h
    rcases onNumbered_getElem? hchannels m with ⟨hother, heq⟩ | ⟨rfl, r, r', hr, hset, hr'⟩
    · dsimp only
      rw [heq]
      refine .unchanged (hother.symm.imp_right fun hne => ?_)
      exact if_neg fun hboth => hne hboth.2
    · dsimp only
      rw [hr, hr']
      exact .set rfl hset
  | unscanned =>
    obtain rfl := Option.some.inj h
    exact .unchanged (.inr rfl)

theorem ConfigFile.assign_channel {n m : ℕ} {key : ConfigAddress} {value : List Char}
    {config config' : ConfigFile} (h : config.assign numerals key value = some config') :
    ChannelStep numerals n m key value (config.channel n m) (config'.channel n m) := by
  unfold ConfigFile.assign at h
  unfold ConfigFile.channel
  cases key with
  | setting name =>
    obtain ⟨settings, -, rfl⟩ := Option.map_eq_some_iff.1 h
    exact .unchanged (.inr rfl)
  | inputMax =>
    obtain ⟨inputs, hinputs, rfl⟩ := Option.map_eq_some_iff.1 h
    unfold allocateEntries at hinputs
    split_ifs at hinputs with hrefused
    obtain rfl := Option.some.inj hinputs
    push Not at hrefused
    rw [hrefused.1]
    dsimp only
    rw [List.getElem?_replicate]
    split_ifs
    · exact .absent
    · exact .absent
  | input i key =>
    obtain ⟨inputs, hinputs, rfl⟩ := Option.map_eq_some_iff.1 h
    rcases onNumbered_getElem? hinputs n with ⟨hother, heq⟩ | ⟨rfl, r, r', hr, hset, hr'⟩
    · dsimp only
      rw [heq]
      rcases hother with hne | hnone
      · refine .unchanged (.inr ?_)
        cases key with
        | channel c name => exact if_neg fun hboth => hne hboth.1
        | setting | channelMax | unscanned => rfl
      · rw [hnone]
        exact .absent
    · dsimp only
      rw [hr, hr']
      exact ConfigEntry.assign_channel hset
  | writeMax =>
    obtain ⟨writes, -, rfl⟩ := Option.map_eq_some_iff.1 h
    exact .unchanged (.inr rfl)
  | write w key =>
    obtain ⟨writes, -, rfl⟩ := Option.map_eq_some_iff.1 h
    exact .unchanged (.inr rfl)
  | unscanned =>
    obtain rfl := Option.some.inj h
    exact .unchanged (.inr rfl)

/-- What is known of a channel that may not be there yet. -/
structure ChannelTracked (asked : Option ℤ) (channel : Option ConfigChannel) : Prop where
  absent : channel = none → asked = none
  present : ∀ c ∈ channel, LengthFrom asked c

theorem ChannelStep.tracked {n m : ℕ} {key : ConfigAddress} {value : List Char} {asked : Option ℤ}
    {channel channel' : Option ConfigChannel} (h : ChannelStep numerals n m key value channel channel')
    (htracked : ChannelTracked asked channel) :
    ChannelTracked (if channel.isSome then (askedLength n m key value).or asked else asked) channel' := by
  cases h with
  | absent => exact htracked
  | made =>
    refine ⟨fun hnone => absurd hnone (Option.some_ne_none _), fun c hc => ?_⟩
    obtain rfl := Option.some.inj hc
    rw [if_neg (by decide), htracked.absent rfl]
    exact blankChannel_sized
  | kept hkey =>
    rw [hkey]
    exact htracked
  | @set c c' name hkey hset =>
    refine ⟨fun hnone => absurd hnone (Option.some_ne_none _), fun d hd => ?_⟩
    obtain rfl := Option.some.inj hd
    have hasked : askedLength n m key value = (lengthUnit name).map (· * spelledInt value) := by
      rw [hkey]
      exact if_pos ⟨rfl, rfl⟩
    rw [hasked]
    exact (htracked.present c rfl).assign hset

variable {overrides : List (List Char)}

theorem lastLength_tracked {n m : ℕ} {lines : List (List Char × List Char)}
    {config config' : ConfigFile} {asked : Option ℤ}
    (h : Reordering.run (applyLine numerals overrides) lines config = some config')
    (htracked : ChannelTracked asked (config.channel n m)) :
    ChannelTracked (lastLength numerals overrides n m asked config lines) (config'.channel n m) := by
  induction lines generalizing config asked with
  | nil =>
    obtain rfl := Option.some.inj h
    exact htracked
  | cons line lines ih =>
    obtain ⟨next, hline, hrest⟩ := Option.bind_eq_some_iff.1 h
    unfold lastLength
    rw [hline]
    exact ih hrest ((ConfigFile.assign_channel hline).tracked htracked)

/-- Every channel that the lines of a text leave has its length from them. -/
theorem configuredLength_sized {text : List Char} {read : ConfigFile}
    (h : configRead numerals overrides text = some read) {n m : ℕ} {channel : ConfigChannel}
    (hchannel : read.channel n m = some channel) :
    LengthFrom (configuredLength numerals overrides text n m) channel := by
  have hempty : ConfigFile.channel ⟨defaultSettings, [], []⟩ n m = none := rfl
  have hstart : ChannelTracked none (ConfigFile.channel ⟨defaultSettings, [], []⟩ n m) := by
    rw [hempty]
    exact ⟨fun _ => rfl, fun _ hc => nomatch hc⟩
  unfold configRead at h
  unfold configuredLength
  have hend := lastLength_tracked h hstart
  exact hend.present channel hchannel

/-- A channel of the file as the end of the parser leaves it, as far as a text is read by it. -/
structure ConfigChannel.SettledFrom (read made : ConfigChannel) : Prop where
  offset : made.offset = read.offset
  length : made.length = read.length
  hasLength : made.hasLength = read.hasLength
  add : made.add = read.add
  timefmt : made.timefmt = read.timefmt
  localtime : made.localtime = read.localtime
  format : made.format = read.format ∨ made.format = unsignedFormat read.format
  topic : made.topic.isSome = read.topic.isSome

/-- An input of the file, or the copy of one for a module, as the end of the parser leaves it. -/
structure ConfigEntry.MadeFrom (read made : ConfigInput) : Prop where
  type : made.settings.type = read.settings.type
  addressOffset : made.settings.addressOffset = read.settings.addressOffset
  channels : List.Forall₂ ConfigChannel.SettledFrom read.channels made.channels

theorem mapM_forall₂ {α β : Type} {f : α → Option β} {as : List α} {bs : List β}
    (h : as.mapM f = some bs) : List.Forall₂ (fun a b => f a = some b) as bs := by
  induction as generalizing bs with
  | nil =>
    obtain rfl := Option.some.inj h
    exact .nil
  | cons a as ih =>
    rw [List.mapM_cons] at h
    obtain ⟨b, hb, h⟩ := Option.bind_eq_some_iff.1 h
    obtain ⟨rest, hrest, h⟩ := Option.bind_eq_some_iff.1 h
    obtain rfl := Option.some.inj h
    exact .cons hb (ih hrest)

theorem forall₂_trans {α β γ : Type} {R : α → β → Prop} {S : β → γ → Prop} {T : α → γ → Prop}
    (hstep : ∀ {a b c}, R a b → S b c → T a c) {as : List α} {bs : List β} {cs : List γ}
    (hfirst : List.Forall₂ R as bs) (hsecond : List.Forall₂ S bs cs) : List.Forall₂ T as cs := by
  induction hfirst generalizing cs with
  | nil =>
    cases hsecond
    exact .nil
  | cons hr _ ih =>
    cases hsecond with
    | cons hs hrest => exact .cons (hstep hr hs) (ih hrest)

theorem overrideModuleKey_inputs {seen : ConfigSettings → Bool} {key : String}
    {config config' : ConfigFile}
    (h : overrideModuleKey numerals overrides seen key config = some config') :
    config'.inputs = config.inputs := by
  unfold overrideModuleKey at h
  split at h
  · split_ifs at h
    · rw [← Option.some.inj h]
    · obtain ⟨settings, -, rfl⟩ := Option.map_eq_some_iff.1 h
      rfl
  · rw [← Option.some.inj h]

def ConfigFile.beforeValidation (numerals : ConfigNumerals) (config : ConfigFile) : ConfigFile :=
  ((config.applyFormatVersion numerals).applyPublishDefaults).settleFrameDelay

theorem configParse_ok {text : List Char} {config : ConfigFile}
    (h : configParse numerals overrides text = some config) :
    ∃ read expanded : ConfigFile, configRead numerals overrides text = some read ∧
      (∀ input ∈ expanded.inputs, ∃ source ∈ read.inputs,
        input.settings.type = source.settings.type ∧
          input.settings.addressOffset = source.settings.addressOffset ∧
          input.channels = source.channels) ∧
      validateInputs 0
        ((expanded.beforeValidation numerals).inputs.map ConfigEntry.input) = .ok () ∧
      ∃ pre, List.Forall₂ (fun input input' => ConfigEntry.settleTopics pre input = some input')
        (expanded.beforeValidation numerals).inputs config.inputs := by
  unfold configParse at h
  obtain ⟨read, hread, h⟩ := Option.bind_eq_some_iff.1 h
  obtain ⟨counted, hcounted, h⟩ := Option.bind_eq_some_iff.1 h
  obtain ⟨first, hfirst, h⟩ := Option.bind_eq_some_iff.1 h
  have hinputs := (overrideModuleKey_inputs hfirst).trans (overrideModuleKey_inputs hcounted)
  unfold ConfigFile.resolve at h
  obtain ⟨_, -, h⟩ := Option.bind_eq_some_iff.1 h
  obtain ⟨expanded, hexpanded, h⟩ := Option.bind_eq_some_iff.1 h
  obtain ⟨_, -, h⟩ := Option.bind_eq_some_iff.1 h
  obtain ⟨valid, hvalid, h⟩ := Option.bind_eq_some_iff.1 h
  obtain ⟨writes, -, h⟩ := Option.bind_eq_some_iff.1 h
  obtain ⟨topics, htopics, h⟩ := Option.bind_eq_some_iff.1 h
  obtain rfl := Option.some.inj h
  refine ⟨read, expanded, hread, fun input hinput => ?_, toOption_eq_some hvalid, ?_⟩
  · unfold ConfigFile.expand at hexpanded
    obtain ⟨inputs, hcopied, hexpanded⟩ := Option.bind_eq_some_iff.1 hexpanded
    obtain ⟨_, -, hexpanded⟩ := Option.bind_eq_some_iff.1 hexpanded
    obtain rfl := Option.some.inj hexpanded
    rw [← hinputs]
    rcases expandTemplates_mem (toOption_eq_some hcopied) hinput with
      ⟨hsame, -⟩ | ⟨source, hsource, -, m, -, rfl⟩
    · exact ⟨input, hsame, rfl, rfl, rfl⟩
    · exact ⟨source, hsource, rfl, rfl, rfl⟩
  · unfold ConfigFile.settleTopics at htopics
    obtain ⟨inputs, hmapped, htopics⟩ := Option.bind_eq_some_iff.1 htopics
    obtain ⟨_, -, htopics⟩ := Option.bind_eq_some_iff.1 htopics
    obtain rfl := Option.some.inj htopics
    exact ⟨_, mapM_forall₂ hmapped⟩

theorem settleTopic_isSome {pre : List Char} {module : ℤ} {topic : Option (List Char)}
    {topic' : Option (List Char)} (h : settleTopic pre module topic = some topic') :
    topic'.isSome = topic.isSome := by
  unfold settleTopic at h
  split at h
  · rw [← Option.some.inj h]
  · split at h
    · rw [← Option.some.inj h]
      rfl
    · exact nomatch h

theorem settleTopics_channels {pre : List Char} {input input' : ConfigInput}
    (h : ConfigEntry.settleTopics pre input = some input') :
    input'.settings = input.settings ∧ List.Forall₂ (fun channel channel' =>
      ∃ topic, channel' = { channel with topic := topic } ∧ topic.isSome = channel.topic.isSome)
        input.channels input'.channels := by
  unfold ConfigEntry.settleTopics at h
  obtain ⟨channels, hchannels, h⟩ := Option.bind_eq_some_iff.1 h
  obtain rfl := Option.some.inj h
  refine ⟨rfl, (mapM_forall₂ hchannels).imp fun channel channel' hsettled => ?_⟩
  obtain ⟨topic, htopic, hsettled⟩ := Option.bind_eq_some_iff.1 hsettled
  exact ⟨topic, (Option.some.inj hsettled).symm, settleTopic_isSome htopic⟩

theorem validateChannel_topic (type : Option InputType) (channel : ConfigChannel)
    {topic : Option (List Char)} (h : topic.isSome = channel.topic.isSome) :
    validateChannel type { channel with topic := topic }.input =
      validateChannel type channel.input := by
  have hnone : (topic.map String.ofList).isNone = (channel.topic.map String.ofList).isNone := by
    rw [Option.isNone_map, Option.isNone_map, ← Option.not_isSome, ← Option.not_isSome, h]
  unfold validateChannel ConfigChannel.input
  simp only [hnone]

theorem beforeValidation_channel (signedInts : Bool) (settings : ConfigSettings)
    (input : InputSettings) (channel : ConfigChannel) :
    channel.SettledFrom (ConfigChannel.applyPublishDefaults settings input
      (if signedInts then channel
      else { channel with format := unsignedFormat channel.format })) := by
  cases signedInts with
  | false => exact ⟨rfl, rfl, rfl, rfl, rfl, rfl, .inr rfl, rfl⟩
  | true => exact ⟨rfl, rfl, rfl, rfl, rfl, rfl, .inl rfl, rfl⟩

theorem ConfigFile.beforeValidation_inputs (config : ConfigFile) :
    List.Forall₂ ConfigEntry.MadeFrom config.inputs (config.beforeValidation numerals).inputs := by
  have hinputs : (config.beforeValidation numerals).inputs = config.inputs.map fun input =>
      { input with channels := input.channels.map (fun channel =>
          ConfigChannel.applyPublishDefaults config.settings input.settings
            (if config.settings.signedInts numerals then channel
            else { channel with format := unsignedFormat channel.format })) } := by
    unfold beforeValidation settleFrameDelay applyFormatVersion applyPublishDefaults
    cases config.settings.signedInts numerals <;> split_ifs <;> simp
  rw [hinputs, List.forall₂_map_right_iff, List.forall₂_same]
  refine fun input _ => ⟨rfl, rfl, ?_⟩
  rw [List.forall₂_map_right_iff, List.forall₂_same]
  exact fun channel _ => beforeValidation_channel _ _ _ channel

/-- An accepted input was made from one of the file, and its channels are valid. -/
theorem configParse_inputs {text : List Char} {config : ConfigFile}
    (h : configParse numerals overrides text = some config) :
    ∃ read, configRead numerals overrides text = some read ∧ ∀ input ∈ config.inputs,
      (∃ source ∈ read.inputs, ConfigEntry.MadeFrom source input) ∧
        ∀ channel ∈ input.channels,
          validateChannel input.settings.type channel.input = .ok () := by
  obtain ⟨read, expanded, hread, hexpanded, hvalid, pre, hsettled⟩ := configParse_ok h
  refine ⟨read, hread, fun input hinput => ?_⟩
  obtain ⟨before, hbefore, hinput'⟩ := forall₂_mem_right hsettled hinput
  obtain ⟨hsettings, hchannels⟩ := settleTopics_channels hinput'
  obtain ⟨copied, hcopied, hmade⟩ := forall₂_mem_right expanded.beforeValidation_inputs hbefore
  obtain ⟨source, hsource, htype, haddress, hsame⟩ := hexpanded copied hcopied
  refine ⟨⟨source, hsource, ?_⟩, fun channel hchannel => ?_⟩
  · refine ⟨by rw [hsettings, hmade.type, htype], by rw [hsettings, hmade.addressOffset, haddress], ?_⟩
    rw [← hsame]
    refine forall₂_trans (fun {read before made} hbefore htopics => ?_) hmade.channels hchannels
    obtain ⟨topic, rfl, htopic⟩ := htopics
    exact { hbefore with topic := htopic.trans hbefore.topic }
  · obtain ⟨unsettled, hunsettled, topic, rfl, htopic⟩ := forall₂_mem_right hchannels hchannel
    rw [hsettings, validateChannel_topic _ _ htopic]
    have hentry := validateInputs_ok hvalid (List.mem_map_of_mem hbefore)
      (List.mem_map_of_mem hunsettled)
    exact hentry

theorem forall₂_getElem? {α β : Type} {R : α → β → Prop} {as : List α} {bs : List β}
    (h : List.Forall₂ R as bs) {m : ℕ} {b : β} (hb : bs[m]? = some b) :
    ∃ a, as[m]? = some a ∧ R a b := by
  obtain ⟨hm, rfl⟩ := List.getElem?_eq_some_iff.1 hb
  have hm' : m < as.length := by rwa [h.length_eq]
  exact ⟨as[m], List.getElem?_eq_getElem hm', h.get hm' hm⟩

/-- What the validation checks of a text channel in use. -/
structure TextChecked (type : Option InputType) (channel : InputChannel) : Prop where
  registers : ¬ ∃ known ∈ type, known.IsBit
  length : formatSize channel.format = 0 → channel.hasLength
  fixed : formatSize channel.format ≠ 0 → channel.hasLength →
    channel.length = formatSize channel.format
  even : channel.format = .version_regs → channel.length.tmod 2 = 0
  timed : channel.timefmt.isSome → formatIsTime channel.format

theorem formatIsText_known {format : DataFormat} (h : formatIsText format) : format ≠ .unknown := by
  rintro rfl
  exact Bool.false_ne_true h

theorem error_else {ε α : Type} {c : Prop} [Decidable c] {e : ε} {x : Except ε α} {a : α}
    (h : (if c then .error e else x) = .ok a) : ¬ c ∧ x = .ok a := by
  split_ifs at h with hc
  exact ⟨hc, h⟩

theorem validateChannel_text {type : Option InputType} {channel : InputChannel}
    (h : validateChannel type channel = .ok ()) (hused : channel.topic.isSome)
    (htext : formatIsText channel.format) : TextChecked type channel := by
  have hknown := formatIsText_known htext
  have htopic : ¬ channel.topic.isNone := by
    rw [Option.isNone_iff_eq_none]
    exact Option.isSome_iff_ne_none.1 hused
  unfold validateChannel at h
  dsimp only at h
  rw [if_neg htopic] at h
  by_cases hbit : ∃ known ∈ type, known.IsBit
  · rw [if_pos hbit, if_pos hknown] at h
    exact nomatch h
  · rw [if_neg hbit, if_neg hknown, if_neg (not_not.2 htext)] at h
    obtain ⟨hlength, h⟩ := error_else h
    obtain ⟨hfixed, h⟩ := error_else h
    obtain ⟨heven, h⟩ := error_else h
    obtain ⟨-, h⟩ := error_else h
    obtain ⟨-, h⟩ := error_else h
    obtain ⟨-, h⟩ := error_else h
    obtain ⟨-, h⟩ := error_else h
    obtain ⟨htime, -⟩ := error_else h
    refine ⟨hbit, fun hzero => ?_, fun hsize hgiven => ?_, fun hversion => ?_, fun hfmt => ?_⟩
    · by_contra hmissing
      exact hlength ⟨hzero, hmissing⟩
    · by_contra hne
      exact hfixed ⟨hsize, hgiven, hne⟩
    · by_contra hodd
      exact heven ⟨hversion, hodd⟩
    · by_contra hother
      exact htime ⟨.inl hfmt, hother⟩

/-- A length is between 1 and 64 bytes, and what was asked for last; where nothing was, it is that
of the format. -/
structure SaneLength (asked : Option ℤ) (channel : ConfigChannel) : Prop where
  min : 1 ≤ channel.length
  max : channel.length ≤ 64
  asked : channel.length = asked.getD (formatSize channel.format)

/-- What was asked for is an `int`. A slot that is not in use may ask for nothing if its format has
a size. -/
def Unwrapped (asked : Option ℤ) (channel : ConfigChannel) : Prop :=
  match asked with
  | some bytes => -2 ^ 31 ≤ bytes ∧ bytes < 2 ^ 31
  | none => channel.topic.isSome ∨ formatSize channel.format ≠ 0

theorem formatIsText_unsigned {format : DataFormat} (h : formatIsText (unsignedFormat format)) :
    unsignedFormat format = format := by
  cases format <;> first | rfl | exact absurd h (by decide)

theorem LengthFrom.settled {asked : Option ℤ} {read made : ConfigChannel} (h : LengthFrom asked read)
    (hsettled : read.SettledFrom made) (htext : formatIsText made.format) : LengthFrom asked made := by
  have hformat : made.format = read.format := by
    rcases hsettled.format with hformat | hformat
    · exact hformat
    · rw [hformat] at htext ⊢
      exact formatIsText_unsigned htext
  refine ⟨hsettled.hasLength.trans h.given, ?_, ?_, ?_⟩
  · rw [hsettled.length, hformat]
    exact h.fixed
  · rw [hsettled.length]
    exact h.max
  · rw [hsettled.length]
    exact h.exact

theorem LengthFrom.sane_iff {asked : Option ℤ} {type : Option InputType} {channel : ConfigChannel}
    (h : LengthFrom asked channel) (htext : formatIsText channel.format)
    (hvalid : validateChannel type channel.input = .ok ()) :
    SaneLength asked channel ↔ Unwrapped asked channel := by
  cases asked with
  | some bytes =>
    constructor
    · rintro ⟨hmin, hmax, hasked⟩
      change channel.length = bytes at hasked
      change -2 ^ 31 ≤ bytes ∧ bytes < 2 ^ 31
      omega
    · rintro ⟨hlow, hhigh⟩
      obtain ⟨hlength, hmin, hmax⟩ := h.exact bytes rfl hlow hhigh
      exact ⟨by omega, by omega, hlength⟩
  | none =>
    have hknown := formatIsText_known htext
    have hlength := h.fixed rfl hknown
    have hsize := formatSize_le channel.format
    have hused : channel.topic.isSome → formatSize channel.format ≠ 0 := by
      intro htopic hzero
      have hchecked := validateChannel_text hvalid (by simpa [ConfigChannel.input] using htopic) htext
      have hgiven : channel.hasLength = true := hchecked.length hzero
      rw [h.given] at hgiven
      exact Bool.false_ne_true hgiven
    constructor
    · rintro ⟨hmin, -, -⟩
      exact .inr (by omega)
    · intro hunwrapped
      have hpos := hunwrapped.elim hused id
      exact ⟨by omega, by omega, hlength⟩

end

/-- Every text channel of an accepted configuration is as `P` says, with the bytes that the file asks
for last in the channel it comes from. -/
def TextLengths (P : Option ℤ → ConfigChannel → Prop) (numerals : ConfigNumerals)
    (overrides : List (List Char)) (text : List Char) (config : ConfigFile) : Prop :=
  ∃ read, configRead numerals overrides text = some read ∧ ∀ input ∈ config.inputs,
    ∃ n source, read.inputs[n]? = some source ∧ ConfigEntry.MadeFrom source input ∧
      ∀ m channel, input.channels[m]? = some channel → formatIsText channel.format →
        P (configuredLength numerals overrides text n m) channel

theorem TextLengths.imp {P Q : Option ℤ → ConfigChannel → Prop} {numerals : ConfigNumerals}
    {overrides : List (List Char)} {text : List Char} {config : ConfigFile}
    (h : TextLengths P numerals overrides text config)
    (himp : ∀ {asked channel}, formatIsText channel.format → P asked channel → Q asked channel) :
    TextLengths Q numerals overrides text config := by
  obtain ⟨read, hread, hinputs⟩ := h
  refine ⟨read, hread, fun input hinput => ?_⟩
  obtain ⟨n, source, hn, hmade, hchannels⟩ := hinputs input hinput
  exact ⟨n, source, hn, hmade, fun m channel hchannel htext =>
    himp htext (hchannels m channel hchannel htext)⟩

theorem configParse_sized {numerals : ConfigNumerals} {overrides : List (List Char)}
    {text : List Char} {config : ConfigFile} (h : configParse numerals overrides text = some config) :
    TextLengths (fun asked channel => LengthFrom asked channel ∧
      ∃ type, validateChannel type channel.input = .ok ()) numerals overrides text config := by
  obtain ⟨read, hread, hinputs⟩ := configParse_inputs h
  refine ⟨read, hread, fun input hinput => ?_⟩
  obtain ⟨⟨source, hsource, hmade⟩, hvalid⟩ := hinputs input hinput
  obtain ⟨n, hn⟩ := List.mem_iff_getElem?.1 hsource
  refine ⟨n, source, hn, hmade, fun m channel hchannel htext => ?_⟩
  obtain ⟨unsettled, hunsettled, hsettled⟩ := forall₂_getElem? hmade.channels hchannel
  have hfound : read.channel n m = some unsettled := by
    unfold ConfigFile.channel
    rw [hn, Option.bind_some, hunsettled]
  have hsized := configuredLength_sized hread hfound
  exact ⟨hsized.settled hsettled htext, _, hvalid channel (List.mem_of_getElem? hchannel)⟩

/-- Whatever was asked for, an accepted text spans 64 bytes at most. -/
theorem accepted_length_le {numerals : ConfigNumerals} {overrides : List (List Char)}
    {text : List Char} {config : ConfigFile} (h : configParse numerals overrides text = some config)
    {input : ConfigInput} (hinput : input ∈ config.inputs) {channel : ConfigChannel}
    (hchannel : channel ∈ input.channels) (htext : formatIsText channel.format) :
    channel.length ≤ 64 := by
  obtain ⟨read, -, hinputs⟩ := configParse_sized h
  obtain ⟨n, source, -, -, hchannels⟩ := hinputs input hinput
  obtain ⟨m, hm⟩ := List.mem_iff_getElem?.1 hchannel
  obtain ⟨hsized, -⟩ := hchannels m channel hm htext
  by_cases hasked : configuredLength numerals overrides text n m = none
  · have hknown : channel.format ≠ .unknown := by
      intro hunknown
      rw [hunknown] at htext
      exact Bool.false_ne_true htext
    have hsize := formatSize_le channel.format
    have hlength := hsized.fixed hasked hknown
    omega
  · exact hsized.max hasked

/-- In a configuration that is accepted a text channel has the length it was given last exactly as
long as that is an `int`. -/
theorem sane_lengths_iff (numerals : ConfigNumerals) (overrides : List (List Char))
    {text : List Char} {config : ConfigFile} (h : configParse numerals overrides text = some config) :
    TextLengths (fun asked channel => SaneLength asked channel ↔ Unwrapped asked channel)
      numerals overrides text config := by
  refine (configParse_sized h).imp fun htext hchannel => ?_
  obtain ⟨hsized, type, hvalid⟩ := hchannel
  exact hsized.sane_iff htext hvalid

def wrappedText : List Char :=
  ("input.max=1\ninput.1.interval_ms=9\ninput.1.channel.max=1\n" ++
    "input.1.channel.1.topic=a\ninput.1.channel.1.format=ascii_ab\n" ++
    "input.1.channel.1.length=4294967300").toList

theorem wrappedText_read :
    (configRead digitNumerals [] wrappedText).map (·.inputs.length) = some 1 ∧
      configuredLength digitNumerals [] wrappedText 0 0 = some 4294967300 ∧
      (configParse digitNumerals [] wrappedText).map (fun config =>
        config.inputs.map fun input => input.channels.map fun channel =>
          (channel.length, formatIsText channel.format)) = some [[(4, true)]] := by
  decide +kernel

theorem sane_lengths_iff_example : ∃ config,
    configParse digitNumerals [] wrappedText = some config ∧
      TextLengths (fun asked channel => SaneLength asked channel ↔ Unwrapped asked channel)
        digitNumerals [] wrappedText config := by
  obtain ⟨config, hconfig, -⟩ := Option.map_eq_some_iff.1 wrappedText_read.2.2
  exact ⟨config, hconfig, sane_lengths_iff digitNumerals [] hconfig⟩

/-- It is accepted, as one of 4 bytes. -/
theorem wrapped_length_accepted : ∃ config,
    configParse digitNumerals [] wrappedText = some config ∧
      ¬ TextLengths SaneLength digitNumerals [] wrappedText config := by
  obtain ⟨hread, hasked, haccepted⟩ := wrappedText_read
  obtain ⟨config, hconfig, hlengths⟩ := Option.map_eq_some_iff.1 haccepted
  refine ⟨config, hconfig, ?_⟩
  rintro ⟨read, hfile, hinputs⟩
  rw [hfile] at hread
  obtain ⟨input, hinput, hchannels⟩ : ∃ input ∈ config.inputs,
      input.channels.map (fun channel => (channel.length, formatIsText channel.format)) =
        [(4, true)] := by
    rw [← List.mem_map, hlengths]
    exact List.mem_singleton_self _
  obtain ⟨n, source, hn, -, hsane⟩ := hinputs input hinput
  obtain ⟨channel, hchannel, hlength⟩ : ∃ channel, input.channels[0]? = some channel ∧
      (channel.length, formatIsText channel.format) = (4, true) := by
    rw [← Option.map_eq_some_iff, ← List.getElem?_map, hchannels]
    rfl
  obtain ⟨hfour, htext⟩ := Prod.mk.inj hlength
  have hfirst : n = 0 := by
    have hone : read.inputs.length = 1 := Option.some.inj hread
    have hlt := (List.getElem?_eq_some_iff.1 hn).1
    omega
  have hbytes := (hsane 0 channel hchannel htext).asked
  rw [hfirst, hasked, hfour] at hbytes
  change (4 : ℤ) = 4294967300 at hbytes
  omega

end Modbusmq
