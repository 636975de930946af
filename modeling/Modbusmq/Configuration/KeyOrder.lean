import Modbusmq.Configuration.Resolution

/-!
# The order of the keys

The lines of a configuration file may stand in any order, as long as a key that
makes room stands in front of the keys it makes room for. Every two other keys
set different fields, and what takes more than one key to decide waits for the
end of the file.
-/

namespace Modbusmq

open Json Settings Reordering

/-- The two keys that set the length of a channel. -/
def SetLength (key key' : String) : Prop := key = "length" ∧ key' = "nregisters"

section

variable (numerals : ConfigNumerals)

theorem configSettings_independent :
    Independent (fun _ _ => False) (configSettings numerals) := by
  unfold Independent configSettings
  simp only [List.pairwise_cons, List.mem_cons, forall_eq_or_imp, List.not_mem_nil, false_imp_iff,
    implies_true, and_true, List.Pairwise.nil]
  and_intros
  all_goals exact .inl fun _ _ _ => rfl

theorem inputSettings_independent :
    Independent (fun _ _ => False) (inputSettings numerals) := by
  unfold Independent inputSettings
  simp only [List.pairwise_cons, List.mem_cons, forall_eq_or_imp, List.not_mem_nil, false_imp_iff,
    implies_true, and_true, List.Pairwise.nil]
  and_intros
  all_goals exact .inl fun _ _ _ => rfl

theorem channelSettings_independent : Independent SetLength (channelSettings numerals) := by
  unfold Independent channelSettings
  simp only [List.pairwise_cons, List.mem_cons, forall_eq_or_imp, List.not_mem_nil, false_imp_iff,
    implies_true, and_true, List.Pairwise.nil]
  and_intros
  all_goals first
    | exact .inl fun _ _ _ => rfl
    | exact .inr ⟨rfl, rfl⟩

theorem writeSettings_independent :
    Independent (fun _ _ => False) (writeSettings numerals) := by
  unfold Independent writeSettings
  simp only [List.pairwise_cons, List.mem_cons, forall_eq_or_imp, List.not_mem_nil, false_imp_iff,
    implies_true, and_true, List.Pairwise.nil]
  and_intros
  all_goals exact .inl fun _ _ _ => rfl

theorem writeChannelSettings_independent :
    Independent (fun _ _ => False) (writeChannelSettings numerals) := by
  unfold Independent writeChannelSettings
  simp only [List.pairwise_cons, List.mem_cons, forall_eq_or_imp, List.not_mem_nil, false_imp_iff,
    implies_true, and_true, List.Pairwise.nil]
  and_intros
  all_goals exact .inl fun _ _ _ => rfl

end

variable {S C : Type}

def entrySettings : Place (ConfigEntry S C) S where
  get := ConfigEntry.settings
  set := fun settings entry => { entry with settings := settings }
  get_set := fun _ _ => rfl
  set_set := fun _ _ _ => rfl

def entryChannels : Place (ConfigEntry S C) (List C) where
  get := ConfigEntry.channels
  set := fun channels entry => { entry with channels := channels }
  get_set := fun _ _ => rfl
  set_set := fun _ _ _ => rfl

theorem entryPlaces_apart :
    (entrySettings : Place (ConfigEntry S C) S).Apart (entryChannels : Place _ (List C)) :=
  ⟨fun _ _ => rfl, fun _ _ => rfl, fun _ _ _ => rfl⟩

def allocateChannels (tables : EntryTables S C) (value : List Char) (channels : List C) :
    Option (List C) :=
  if channels ≠ [] ∨ configUnsigned value ≤ 0 ∨ tables.channelMax < configUnsigned value then none
  else some (List.replicate (configUnsigned value).toNat tables.blank)

theorem assign_channelMax (tables : EntryTables S C) (value : List Char) :
    ConfigEntry.assign tables .channelMax value =
      entryChannels.update (allocateChannels tables value) := by
  funext entry
  unfold ConfigEntry.assign Place.update allocateChannels entryChannels
  dsimp only
  split_ifs <;> rfl

/-- The first key makes room for the channel the second one is about. -/
inductive EntryAllocates : EntryAddress → EntryAddress → Prop
  | channels (m : ℤ) (name : List Char) : EntryAllocates .channelMax (.channel m name)

instance : DecidableRel EntryAllocates := fun key key' =>
  match key, key' with
  | .channelMax, .channel m name => .isTrue (.channels m name)
  | .channelMax, .setting _ | .channelMax, .channelMax | .channelMax, .unscanned => .isFalse nofun
  | .setting _, _ | .channel _ _, _ | .unscanned, _ => .isFalse nofun

/-- Two keys of an entry may be set in any order, as far as the room they need goes. -/
structure EntrySwappable (key key' : EntryAddress) : Prop where
  different : key ≠ key'
  free : ¬ EntryAllocates key key'
  free' : ¬ EntryAllocates key' key

theorem ConfigEntry.assign_commute {tables : EntryTables S C} {exempt : String → String → Prop}
    (hsettings : Independent (fun _ _ => False) tables.settings)
    (hchannels : Independent exempt tables.channels)
    {key key' : EntryAddress} (h : EntrySwappable key key')
    (hexempt : ∀ m name name', exempt name name' →
      ¬ (key = .channel m name.toList ∧ key' = .channel m name'.toList) ∧
      ¬ (key = .channel m name'.toList ∧ key' = .channel m name.toList))
    (value value' : List Char) :
    Commute (ConfigEntry.assign tables key value) (ConfigEntry.assign tables key' value') := by
  -- the settings stand apart from the channels
  have hapart : ∀ name (f : List C → Option (List C)) value,
      Commute (ConfigEntry.assign tables (.setting name) value) (entryChannels.update f) :=
    fun name f value => entryPlaces_apart.commute _ f
  cases key with
  | unscanned => exact commute_some _
  | setting name =>
    cases key' with
    | unscanned => exact (commute_some _).symm
    | setting name' =>
      refine entrySettings.update_commute
        (Settings.assign_commute hsettings ?_ (fun _ _ => False.elim) _ _)
      exact fun heq => h.different (by rw [heq])
    | channelMax =>
      rw [assign_channelMax]
      exact hapart name _ value
    | channel m name' => exact hapart name _ value
  | channelMax =>
    rw [assign_channelMax]
    cases key' with
    | unscanned => exact (commute_some _).symm
    | setting name' => exact (hapart name' _ value').symm
    | channelMax => exact absurd rfl h.different
    | channel m name' => exact absurd (.channels m name') h.free
  | channel m name =>
    cases key' with
    | unscanned => exact (commute_some _).symm
    | setting name' => exact (hapart name' _ value').symm
    | channelMax => exact absurd (.channels m name) h.free'
    | channel m' name' =>
      refine entryChannels.update_commute (onNumbered_commute ?_)
      by_cases hm : m = m'
      · subst hm
        have hname : name ≠ name' := fun heq => h.different (by rw [heq])
        refine .inr (Settings.assign_commute hchannels hname ?_ _ _)
        intro first second hpair
        obtain ⟨hno, hno'⟩ := hexempt m first second hpair
        refine ⟨?_, ?_⟩
        · rintro ⟨rfl, rfl⟩
          exact hno ⟨rfl, rfl⟩
        · rintro ⟨rfl, rfl⟩
          exact hno' ⟨rfl, rfl⟩
      · exact .inl hm

def fileSettings : Place ConfigFile ConfigSettings where
  get := ConfigFile.settings
  set := fun settings config => { config with settings := settings }
  get_set := fun _ _ => rfl
  set_set := fun _ _ _ => rfl

def fileInputs : Place ConfigFile (List ConfigInput) where
  get := ConfigFile.inputs
  set := fun inputs config => { config with inputs := inputs }
  get_set := fun _ _ => rfl
  set_set := fun _ _ _ => rfl

def fileWrites : Place ConfigFile (List ConfigWrite) where
  get := ConfigFile.writes
  set := fun writes config => { config with writes := writes }
  get_set := fun _ _ => rfl
  set_set := fun _ _ _ => rfl

theorem settings_apart_inputs : fileSettings.Apart fileInputs :=
  ⟨fun _ _ => rfl, fun _ _ => rfl, fun _ _ _ => rfl⟩

theorem settings_apart_writes : fileSettings.Apart fileWrites :=
  ⟨fun _ _ => rfl, fun _ _ => rfl, fun _ _ _ => rfl⟩

theorem inputs_apart_writes : fileInputs.Apart fileWrites :=
  ⟨fun _ _ => rfl, fun _ _ => rfl, fun _ _ _ => rfl⟩

/-- The first key makes room for what the second one is about. -/
inductive Allocates : ConfigAddress → ConfigAddress → Prop
  | inputs (n : ℤ) (key : EntryAddress) : Allocates .inputMax (.input n key)
  | writes (n : ℤ) (key : EntryAddress) : Allocates .writeMax (.write n key)
  | inputChannels (n : ℤ) {key key' : EntryAddress} (h : EntryAllocates key key') :
      Allocates (.input n key) (.input n key')
  | writeChannels (n : ℤ) {key key' : EntryAddress} (h : EntryAllocates key key') :
      Allocates (.write n key) (.write n key')

instance : DecidableRel Allocates := fun key key' =>
  match key, key' with
  | .inputMax, .input n key => .isTrue (.inputs n key)
  | .writeMax, .write n key => .isTrue (.writes n key)
  | .input n key, .input n' key' =>
    decidable_of_iff (n = n' ∧ EntryAllocates key key')
      ⟨fun ⟨hn, hroom⟩ => hn ▸ .inputChannels n hroom,
        fun hroom => by cases hroom with | inputChannels n h => exact ⟨rfl, h⟩⟩
  | .write n key, .write n' key' =>
    decidable_of_iff (n = n' ∧ EntryAllocates key key')
      ⟨fun ⟨hn, hroom⟩ => hn ▸ .writeChannels n hroom,
        fun hroom => by cases hroom with | writeChannels n h => exact ⟨rfl, h⟩⟩
  | .inputMax, .setting _ | .inputMax, .inputMax | .inputMax, .writeMax | .inputMax, .write _ _
  | .inputMax, .unscanned | .writeMax, .setting _ | .writeMax, .inputMax | .writeMax, .input _ _
  | .writeMax, .writeMax | .writeMax, .unscanned => .isFalse nofun
  | .input _ _, .setting _ | .input _ _, .inputMax | .input _ _, .writeMax | .input _ _, .write _ _
  | .input _ _, .unscanned | .write _ _, .setting _ | .write _ _, .inputMax | .write _ _, .input _ _
  | .write _ _, .writeMax | .write _ _, .unscanned => .isFalse nofun
  | .setting _, _ | .unscanned, _ => .isFalse nofun

/-- The keys set the length of one channel, each in its way. -/
inductive BothLengths : ConfigAddress → ConfigAddress → Prop
  | mk (n m : ℤ) : BothLengths (.input n (.channel m "length".toList))
      (.input n (.channel m "nregisters".toList))

instance : DecidableRel BothLengths := fun key key' =>
  match key with
  | .input n (.channel m name) =>
    decidable_of_iff (name = "length".toList ∧ key' = .input n (.channel m "nregisters".toList))
      ⟨fun ⟨hname, hkey⟩ => hname ▸ hkey ▸ .mk n m, fun h => by cases h; exact ⟨rfl, rfl⟩⟩
  | .input _ (.setting _) | .input _ .channelMax | .input _ .unscanned | .setting _ | .inputMax
  | .writeMax | .write _ _ | .unscanned => .isFalse nofun

inductive Part
  | nothing
  | settings
  | inputs
  | writes

def ConfigAddress.part : ConfigAddress → Part
  | setting _ => .settings
  | inputMax | input _ _ => .inputs
  | writeMax | write _ _ => .writes
  | unscanned => .nothing

/-- Two keys may be set in any order. -/
structure Swappable (key key' : ConfigAddress) : Prop where
  different : key ≠ key'
  free : ¬ Allocates key key'
  free' : ¬ Allocates key' key
  lengths : ¬ BothLengths key key'
  lengths' : ¬ BothLengths key' key

section

variable (numerals : ConfigNumerals)

theorem input_commute {key key' : EntryAddress} (n : ℤ)
    (h : Swappable (.input n key) (.input n key')) (value value' : List Char) :
    Commute (ConfigEntry.assign (inputTables numerals) key value)
      (ConfigEntry.assign (inputTables numerals) key' value') := by
  refine ConfigEntry.assign_commute (inputSettings_independent numerals)
    (channelSettings_independent numerals)
    ⟨fun heq => h.different (by rw [heq]), fun hroom => h.free (.inputChannels n hroom),
      fun hroom => h.free' (.inputChannels n hroom)⟩ ?_ value value'
  rintro m name name' ⟨rfl, rfl⟩
  refine ⟨?_, ?_⟩
  · rintro ⟨rfl, rfl⟩
    exact h.lengths (.mk n m)
  · rintro ⟨rfl, rfl⟩
    exact h.lengths' (.mk n m)

theorem write_commute {key key' : EntryAddress} (n : ℤ)
    (h : Swappable (.write n key) (.write n key')) (value value' : List Char) :
    Commute (ConfigEntry.assign (writeTables numerals) key value)
      (ConfigEntry.assign (writeTables numerals) key' value') :=
  ConfigEntry.assign_commute (writeSettings_independent numerals)
    (writeChannelSettings_independent numerals)
    ⟨fun heq => h.different (by rw [heq]), fun hroom => h.free (.writeChannels n hroom),
      fun hroom => h.free' (.writeChannels n hroom)⟩ (fun _ _ _ => False.elim) value value'

/-- Keys about different parts of a file do not disturb each other. -/
theorem parts_commute {key key' : ConfigAddress} (h : key.part ≠ key'.part)
    (value value' : List Char) : Commute (ConfigFile.assign numerals key value)
      (ConfigFile.assign numerals key' value') := by
  cases key <;> cases key' <;> first
    | exact absurd rfl h
    | exact commute_some _
    | exact (commute_some _).symm
    | exact settings_apart_inputs.commute _ _
    | exact (settings_apart_inputs.commute _ _).symm
    | exact settings_apart_writes.commute _ _
    | exact (settings_apart_writes.commute _ _).symm
    | exact inputs_apart_writes.commute _ _
    | exact (inputs_apart_writes.commute _ _).symm

/-- Two keys that may be set in any order come out the same. -/
theorem ConfigFile.assign_commute {key key' : ConfigAddress} (h : Swappable key key')
    (value value' : List Char) : Commute (ConfigFile.assign numerals key value)
      (ConfigFile.assign numerals key' value') := by
  by_cases hpart : key.part = key'.part
  swap
  · exact parts_commute numerals hpart value value'
  cases key with
  | unscanned => exact commute_some _
  | setting name =>
    cases key' with
    | setting name' =>
      have hname : name ≠ name' := fun heq => h.different (by rw [heq])
      exact fileSettings.update_commute (Settings.assign_commute
        (configSettings_independent numerals) hname (fun _ _ => False.elim) value value')
    | _ => contradiction
  | inputMax =>
    cases key' with
    | inputMax => exact absurd rfl h.different
    | input n key' => exact absurd (.inputs n key') h.free
    | _ => contradiction
  | input n key =>
    cases key' with
    | inputMax => exact absurd (.inputs n key) h.free'
    | input n' key' =>
      refine fileInputs.update_commute (onNumbered_commute ?_)
      by_cases hn : n = n'
      · subst hn
        exact .inr (input_commute numerals n h value value')
      · exact .inl hn
    | _ => contradiction
  | writeMax =>
    cases key' with
    | writeMax => exact absurd rfl h.different
    | write n key' => exact absurd (.writes n key') h.free
    | _ => contradiction
  | write n key =>
    cases key' with
    | writeMax => exact absurd (.writes n key) h.free'
    | write n' key' =>
      refine fileWrites.update_commute (onNumbered_commute ?_)
      by_cases hn : n = n'
      · subst hn
        exact .inr (write_commute numerals n h value value')
      · exact .inl hn
    | _ => contradiction

end

def decimalInt (n : ℤ) : List Char := if n < 0 then '-' :: decimal n.natAbs else decimal n.toNat

/-- The number that is spelled at the start of a text, of any size, and what follows it. -/
def spelledNumber (text : List Char) : Option (ℤ × List Char) :=
  (scanNumber 10 (ascii text)).map fun (negative, n, rest) =>
    (if negative then -n else n, text.drop (text.length - rest.length))

/-- The numbers that are spelled at the start of a text or of none, as `p` asks. -/
def SpelledBehind (p : ℤ → List Char → List Char → Prop) (start key : List Char) : Prop :=
  ∀ text n rest, key = start ++ text → spelledNumber text = some (n, rest) → p n text rest

instance {p : ℤ → List Char → List Char → Prop} [∀ n text rest, Decidable (p n text rest)]
    (start key : List Char) : Decidable (SpelledBehind p start key) :=
  decidable_of_iff (start.isPrefixOf key → ∀ spelled ∈ spelledNumber (key.drop start.length),
      p spelled.1 (key.drop start.length) spelled.2)
    ⟨fun h text n rest hkey hspelled => by
      subst hkey
      have := h (List.isPrefixOf_iff_prefix.2 (List.prefix_append _ _)) (n, rest)
        (by rwa [List.drop_left])
      rwa [List.drop_left] at this,
    fun h hstart spelled hspelled => by
      obtain ⟨text, rfl⟩ := List.isPrefixOf_iff_prefix.1 hstart
      rw [List.drop_left] at hspelled ⊢
      exact h text _ _ rfl hspelled⟩

/-- The number behind the start of a key, if there is one, is in canonical decimal. -/
abbrev Canonical (start key : List Char) : Prop :=
  SpelledBehind (fun n text rest => text = decimalInt n ++ rest) start key

/-- The number behind the start of a key, if there is one, fits an `int`. -/
abbrev FitsInt (start key : List Char) : Prop :=
  SpelledBehind (fun n _ _ => -2 ^ 31 ≤ n ∧ n < 2 ^ 31) start key

/-- What is asked of the numbers of a key: of that of its entry and of that of its channel. -/
structure KeyNumbers (p : List Char → List Char → Prop) (key : List Char) : Prop where
  entry : ∀ start ∈ ["input.", "write."], p start.toList key
  channel : ∀ start ∈ ["input.", "write."], ∀ n name, scanKey start.toList key = some (n, name) →
    p "channel.".toList name

instance {p : List Char → List Char → Prop} [∀ start key, Decidable (p start key)]
    (key : List Char) : Decidable (KeyNumbers p key) :=
  decidable_of_iff ((∀ start ∈ ["input.", "write."], p start.toList key) ∧
      ∀ start ∈ ["input.", "write."], ∀ scanned ∈ scanKey start.toList key,
        p "channel.".toList scanned.2)
    ⟨fun ⟨hentry, hchannel⟩ => ⟨hentry,
      fun start hstart n name hscan => hchannel start hstart (n, name) hscan⟩,
    fun h => ⟨h.entry, fun start hstart scanned hscan =>
      h.channel start hstart scanned.1 scanned.2 hscan⟩⟩

/-- A key without blanks, and with its numbers in canonical decimal. -/
structure PlainKey (key : List Char) : Prop where
  unblanked : ∀ ch ∈ key, ¬ isSpace ch
  numbers : KeyNumbers Canonical key

instance (key : List Char) : Decidable (PlainKey key) :=
  decidable_of_iff (key.all (fun ch => ¬ isSpace ch) ∧ KeyNumbers Canonical key)
    ⟨fun ⟨hblank, hnumbers⟩ => ⟨by simpa using hblank, hnumbers⟩,
    fun h => ⟨by simpa using h.unblanked, h.numbers⟩⟩

theorem spelledNumber_read {text rest : List Char} {n : ℤ} (h : scanDecimal text = some (n, rest))
    (hfits : ∀ k tail, spelledNumber text = some (k, tail) → -2 ^ 31 ≤ k ∧ k < 2 ^ 31) :
    spelledNumber text = some (n, rest) := by
  obtain ⟨⟨_, bytes⟩, hint, heq⟩ := Option.map_eq_some_iff.1 h
  obtain ⟨rfl, rfl⟩ := Prod.mk.inj heq
  obtain ⟨⟨negative, m, bytes'⟩, hscan, heq'⟩ := Option.map_eq_some_iff.1 hint
  obtain ⟨rfl, rfl⟩ := Prod.mk.inj heq'
  have hspelled : spelledNumber text = some (if negative then -(m : ℤ) else m,
      text.drop (text.length - bytes'.length)) := by
    unfold spelledNumber
    rw [hscan]
    rfl
  obtain ⟨hle, hlt⟩ := hfits _ _ hspelled
  rw [hspelled]
  congr 2
  cases negative with
  | true =>
    rw [if_pos rfl] at hle hlt ⊢
    rw [if_pos rfl, min_eq_left (by omega), Int.bmod_eq_of_le (by omega) (by omega)]
  | false =>
    rw [if_neg Bool.false_ne_true] at hle hlt ⊢
    rw [if_neg Bool.false_ne_true, min_eq_left (by omega), Int.bmod_eq_of_le (by omega) (by omega)]

theorem scanDecimal_length {text rest : List Char} {n : ℤ} (h : scanDecimal text = some (n, rest)) :
    (decimalInt n).length ≤ 11 := by
  have hrange : -2 ^ 31 ≤ n ∧ n < 2 ^ 31 := by
    obtain ⟨⟨k, bytes⟩, hscan, heq⟩ := Option.map_eq_some_iff.1 h
    obtain ⟨⟨negative, m, bytes'⟩, -, heq'⟩ := Option.map_eq_some_iff.1 hscan
    obtain ⟨rfl, -⟩ := Prod.mk.inj heq
    obtain ⟨rfl, -⟩ := Prod.mk.inj heq'
    exact ⟨Int.le_bmod (by decide), Int.bmod_lt (by decide)⟩
  have hdecimal : ∀ k : ℕ, k ≤ 2 ^ 31 → (decimal k).length ≤ 10 := fun k hk =>
    (Nat.length_toDigits_le_iff (by decide) (by decide)).2 (by omega)
  unfold decimalInt
  split_ifs with hneg
  · rw [List.length_cons]
    have := hdecimal n.natAbs (by omega)
    omega
  · have := hdecimal n.toNat (by omega)
    omega

theorem scanKey_spelled {start key name : List Char} {n : ℤ} (hstart : start.isPrefixOf key)
    (hblank : ∀ ch ∈ key, ¬ isSpace ch) (hcanonical : Canonical start key)
    (hfits : FitsInt start key) (h : scanKey start key = some (n, name)) :
    ∃ rest, key = start ++ (decimalInt n ++ '.' :: rest) ∧ name = rest.take 99 ∧
      (decimalInt n).length ≤ 11 := by
  obtain ⟨text, rfl⟩ := List.isPrefixOf_iff_prefix.1 hstart
  unfold scanKey at h
  rw [List.drop_left] at h
  split at h
  · rename_i m rest hscan
    have htext := hcanonical text m _ rfl
      (spelledNumber_read hscan fun k tail => hfits text k tail rfl)
    have hrest : ∀ ch ∈ rest, ¬ isSpace ch := fun ch hch => hblank ch (by simp [htext, hch])
    have hdrop : rest.dropWhile isSpace = rest := by
      cases rest with
      | nil => rfl
      | cons ch rest => exact List.dropWhile_cons_of_neg (hrest ch List.mem_cons_self)
    have htake : rest.takeWhile (fun ch => ¬ isSpace ch) = rest :=
      List.takeWhile_eq_self_iff.2 fun ch hch => by simpa using hrest ch hch
    dsimp only at h
    rw [hdrop, htake] at h
    split_ifs at h
    obtain ⟨rfl, rfl⟩ := Prod.mk.inj (Option.some.inj h)
    exact ⟨rest, by rw [htext], rfl, scanDecimal_length hscan⟩
  · exact absurd h (by simp)

theorem entryAddress_setting {key name : List Char} (h : entryAddress key = .setting name) :
    name = key := by
  unfold entryAddress at h
  split_ifs at h
  · split at h <;> exact absurd h (by simp)
  · exact (EntryAddress.setting.inj h).symm

theorem entryAddress_channelMax {key : List Char} (h : entryAddress key = .channelMax) :
    key = "channel.max".toList := by
  unfold entryAddress at h
  split_ifs at h with hmax
  · exact hmax
  · split at h <;> exact absurd h (by simp)

theorem entryAddress_channel {key name : List Char} {m : ℤ}
    (h : entryAddress key = .channel m name) :
    "channel.".toList.isPrefixOf key ∧ scanKey "channel.".toList key = some (m, name) := by
  unfold entryAddress at h
  split_ifs at h with hmax hstart
  split at h
  · rename_i hscan
    obtain ⟨rfl, rfl⟩ := EntryAddress.channel.inj h
    exact ⟨hstart, hscan⟩
  · exact absurd h (by simp)

/-- What the key of an entry is known by: no blanks, canonical numbers that fit, 99 characters at
most. -/
structure PlainEntryKey (key : List Char) : Prop where
  unblanked : ∀ ch ∈ key, ¬ isSpace ch
  channel : Canonical "channel.".toList key
  fits : FitsInt "channel.".toList key
  short : key.length ≤ 99

theorem PlainEntryKey.spelled {key name : List Char} {m : ℤ} (h : PlainEntryKey key)
    (haddress : entryAddress key = .channel m name) :
    key = "channel.".toList ++ (decimalInt m ++ '.' :: name) ∧ (decimalInt m).length ≤ 11 := by
  obtain ⟨hstart, hscan⟩ := entryAddress_channel haddress
  obtain ⟨rest, hkey, hname, hdigits⟩ := scanKey_spelled hstart h.unblanked h.channel h.fits hscan
  have hlength := h.short
  rw [hkey] at hlength
  simp only [List.length_append, List.length_cons] at hlength
  rw [List.take_of_length_le (by omega)] at hname
  exact ⟨by rw [hkey, hname], hdigits⟩

theorem entryAddress_injective {key key' : List Char} (h : PlainEntryKey key)
    (h' : PlainEntryKey key') (heq : entryAddress key = entryAddress key')
    (hscanned : entryAddress key ≠ .unscanned) : key = key' := by
  cases haddress : entryAddress key with
  | setting name =>
    rw [← entryAddress_setting haddress, ← entryAddress_setting (heq.symm.trans haddress)]
  | channelMax =>
    rw [entryAddress_channelMax haddress, entryAddress_channelMax (heq.symm.trans haddress)]
  | channel m name =>
    rw [(h.spelled haddress).1, (h'.spelled (heq.symm.trans haddress)).1]
  | unscanned => exact absurd haddress hscanned

structure ShortNames (tables : EntryTables S C) : Prop where
  settings : ∀ row ∈ tables.settings, row.1.toList.length ≤ 20
  channels : ∀ row ∈ tables.channels, row.1.toList.length ≤ 20

theorem inputTables_short (numerals : ConfigNumerals) : ShortNames (inputTables numerals) where
  settings := by
    unfold inputTables inputSettings
    simp only [List.forall_mem_cons]
    and_intros
    all_goals decide
  channels := by
    unfold inputTables channelSettings
    simp only [List.forall_mem_cons]
    and_intros
    all_goals decide

theorem writeTables_short (numerals : ConfigNumerals) : ShortNames (writeTables numerals) where
  settings := by
    unfold writeTables writeSettings
    simp only [List.forall_mem_cons]
    and_intros
    all_goals decide
  channels := by
    unfold writeTables writeChannelSettings
    simp only [List.forall_mem_cons]
    and_intros
    all_goals decide

/-- A key of an entry that is cut off sets nothing, whatever its value. -/
theorem ConfigEntry.assign_long {tables : EntryTables S C} (htables : ShortNames tables)
    {key : List Char} (h : PlainEntryKey key) (hlong : key.length = 99) (value value' : List Char) :
    ConfigEntry.assign tables (entryAddress key) value =
      ConfigEntry.assign tables (entryAddress key) value' := by
  cases haddress : entryAddress key with
  | setting name =>
    obtain rfl := entryAddress_setting haddress
    have hunknown : ∀ row ∈ tables.settings, row.1.toList ≠ name := fun row hrow heq => by
      have := htables.settings row hrow
      rw [heq] at this
      omega
    funext entry
    unfold ConfigEntry.assign
    dsimp only
    rw [Settings.assign_unknown hunknown value, Settings.assign_unknown hunknown value']
  | channelMax =>
    rw [entryAddress_channelMax haddress] at hlong
    exact absurd hlong (by decide)
  | channel m name =>
    obtain ⟨hkey, hdigits⟩ := h.spelled haddress
    have hstart : "channel.".toList.length = 8 := by decide
    rw [hkey] at hlong
    simp only [List.length_append, List.length_cons, hstart] at hlong
    have hunknown : ∀ row ∈ tables.channels, row.1.toList ≠ name := fun row hrow heq => by
      have := htables.channels row hrow
      rw [heq] at this
      omega
    funext entry
    unfold ConfigEntry.assign
    dsimp only
    rw [Settings.assign_unknown hunknown value, Settings.assign_unknown hunknown value']
  | unscanned => rfl

theorem configAddress_setting {key name : List Char} (h : configAddress key = .setting name) :
    name = key := by
  unfold configAddress at h
  split_ifs at h
  · exact (ConfigAddress.setting.inj h).symm
  · split at h <;> exact absurd h (by simp)
  · split at h <;> exact absurd h (by simp)
  · exact (ConfigAddress.setting.inj h).symm

theorem configAddress_inputMax {key : List Char} (h : configAddress key = .inputMax) :
    key = "input.max".toList := by
  unfold configAddress at h
  split_ifs at h with _ hmax
  · exact hmax
  · split at h <;> exact absurd h (by simp)
  · split at h <;> exact absurd h (by simp)

theorem configAddress_writeMax {key : List Char} (h : configAddress key = .writeMax) :
    key = "write.max".toList := by
  unfold configAddress at h
  split_ifs at h with _ _ _ hmax
  · split at h <;> exact absurd h (by simp)
  · exact hmax
  · split at h <;> exact absurd h (by simp)

theorem configAddress_input {key : List Char} {n : ℤ} {address : EntryAddress}
    (h : configAddress key = .input n address) :
    "input.".toList.isPrefixOf key ∧
      ∃ name, scanKey "input.".toList key = some (n, name) ∧ entryAddress name = address := by
  unfold configAddress at h
  split_ifs at h with _ _ hstart
  · split at h
    · rename_i m name hscan
      obtain ⟨rfl, rfl⟩ := ConfigAddress.input.inj h
      exact ⟨hstart, name, hscan, rfl⟩
    · exact absurd h (by simp)
  · split at h <;> exact absurd h (by simp)

theorem configAddress_write {key : List Char} {n : ℤ} {address : EntryAddress}
    (h : configAddress key = .write n address) :
    "write.".toList.isPrefixOf key ∧
      ∃ name, scanKey "write.".toList key = some (n, name) ∧ entryAddress name = address := by
  unfold configAddress at h
  split_ifs at h with _ _ _ _ hstart
  · split at h <;> exact absurd h (by simp)
  · split at h
    · rename_i m name hscan
      obtain ⟨rfl, rfl⟩ := ConfigAddress.write.inj h
      exact ⟨hstart, name, hscan, rfl⟩
    · exact absurd h (by simp)

/-- Two plain keys of one entry that are about the same are one key, or are cut off where nothing
is set any more. -/
theorem entry_keys {key key' name name' start : List Char} {n : ℤ}
    (hstarts : start ∈ ["input.".toList, "write.".toList]) (h : PlainKey key) (h' : PlainKey key')
    (hfits : KeyNumbers FitsInt key) (hfits' : KeyNumbers FitsInt key')
    (hstart : start.isPrefixOf key) (hstart' : start.isPrefixOf key')
    (hscan : scanKey start key = some (n, name)) (hscan' : scanKey start key' = some (n, name'))
    (heq : entryAddress name = entryAddress name') (hne : key ≠ key') :
    PlainEntryKey name ∧ (entryAddress name = .unscanned ∨ name.length = 99) := by
  obtain ⟨text, hmem, rfl⟩ : ∃ text ∈ ["input.", "write."], start = text.toList := by
    simpa [eq_comm] using hstarts
  obtain ⟨rest, hkey, hname, -⟩ := scanKey_spelled hstart h.unblanked (h.numbers.entry text hmem)
    (hfits.entry text hmem) hscan
  obtain ⟨rest', hkey', hname', -⟩ := scanKey_spelled hstart' h'.unblanked
    (h'.numbers.entry text hmem) (hfits'.entry text hmem) hscan'
  have hplain : PlainEntryKey name := by
    refine ⟨fun ch hch => h.unblanked ch ?_, h.numbers.channel text hmem n name hscan,
      hfits.channel text hmem n name hscan, ?_⟩
    · rw [hname] at hch
      simp [hkey, List.mem_of_mem_take hch]
    · rw [hname, List.length_take]
      omega
  have hplain' : PlainEntryKey name' := by
    refine ⟨fun ch hch => h'.unblanked ch ?_, h'.numbers.channel text hmem n name' hscan',
      hfits'.channel text hmem n name' hscan', ?_⟩
    · rw [hname'] at hch
      simp [hkey', List.mem_of_mem_take hch]
    · rw [hname', List.length_take]
      omega
  refine ⟨hplain, ?_⟩
  by_contra hno
  obtain ⟨hscanned, hlong⟩ := not_or.1 hno
  have hnames := entryAddress_injective hplain hplain' heq hscanned
  have hshort : ∀ rest : List Char, name = rest.take 99 → rest.take 99 = rest := fun rest hrest =>
    List.take_of_length_le (by
      rw [hrest, List.length_take] at hlong
      omega)
  rw [hshort rest hname] at hname
  rw [← hnames] at hname'
  rw [hshort rest' hname'] at hname'
  exact hne (by rw [hkey, hkey', ← hname, ← hname'])

section

variable (numerals : ConfigNumerals)

/-- Where two plain keys have one address, nothing is set. -/
theorem ConfigFile.assign_twice {key key' : List Char} (h : PlainKey key) (h' : PlainKey key')
    (hfits : KeyNumbers FitsInt key) (hfits' : KeyNumbers FitsInt key') (hne : key ≠ key')
    (heq : configAddress key = configAddress key') (value value' : List Char) :
    ConfigFile.assign numerals (configAddress key) value =
      ConfigFile.assign numerals (configAddress key) value' := by
  have hentry : ∀ {S C : Type} {tables : EntryTables S C} {name : List Char}, ShortNames tables →
      PlainEntryKey name ∧ (entryAddress name = .unscanned ∨ name.length = 99) →
        ConfigEntry.assign tables (entryAddress name) value =
          ConfigEntry.assign tables (entryAddress name) value' := by
    rintro S C tables name htables ⟨hplain, hunscanned | hlong⟩
    · rw [hunscanned]
      rfl
    · exact ConfigEntry.assign_long htables hplain hlong value value'
  cases haddress : configAddress key with
  | setting name =>
    have hkey := configAddress_setting haddress
    have hkey' := configAddress_setting (heq.symm.trans haddress)
    exact absurd (hkey.symm.trans hkey') hne
  | inputMax =>
    have hkey := configAddress_inputMax haddress
    exact absurd (hkey.trans (configAddress_inputMax (heq.symm.trans haddress)).symm) hne
  | writeMax =>
    have hkey := configAddress_writeMax haddress
    exact absurd (hkey.trans (configAddress_writeMax (heq.symm.trans haddress)).symm) hne
  | input n address =>
    obtain ⟨hstart, name, hscan, hname⟩ := configAddress_input haddress
    obtain ⟨hstart', name', hscan', hname'⟩ := configAddress_input (heq.symm.trans haddress)
    have hnothing := entry_keys (by simp) h h' hfits hfits' hstart hstart' hscan hscan'
      (hname.trans hname'.symm) hne
    funext config
    unfold ConfigFile.assign
    dsimp only
    rw [← hname, hentry (inputTables_short numerals) hnothing]
  | write n address =>
    obtain ⟨hstart, name, hscan, hname⟩ := configAddress_write haddress
    obtain ⟨hstart', name', hscan', hname'⟩ := configAddress_write (heq.symm.trans haddress)
    have hnothing := entry_keys (by simp) h h' hfits hfits' hstart hstart' hscan hscan'
      (hname.trans hname'.symm) hne
    funext config
    unfold ConfigFile.assign
    dsimp only
    rw [← hname, hentry (writeTables_short numerals) hnothing]
  | unscanned => rfl

end

/-- A text with plain keys, each at most once, in which no channel has its length set twice. -/
structure PlainConfig (text : List Char) : Prop where
  plain : ∀ line ∈ configLines text, PlainKey line.1
  once : ((configLines text).map Prod.fst).Nodup
  lengths : ∀ line ∈ configLines text, ∀ line' ∈ configLines text,
    ¬ BothLengths (configAddress line.1) (configAddress line'.1)

/-- The lines of one text are those of the other, and a key that makes room for another stands in
front of it in both or in neither. -/
structure Permuted (text text' : List Char) : Prop where
  lines : (text.splitOn '\n').Perm (text'.splitOn '\n')
  kept : ∀ line line', Allocates (configAddress line.1) (configAddress line'.1) →
    ([line, line'].Sublist (configLines text) ↔ [line, line'].Sublist (configLines text'))

theorem nodup_not_both {A : Type} {l : List A} (h : l.Nodup) {a b : A} (hab : [a, b].Sublist l) :
    ¬ [b, a].Sublist l := by
  intro hba
  induction l with
  | nil => exact absurd (List.sublist_nil.1 hab) (by simp)
  | cons c l ih =>
    obtain ⟨hc, hl⟩ := List.nodup_cons.1 h
    cases hab with
    | cons _ hab =>
      cases hba with
      | cons _ hba => exact ih hl hab hba
      | cons_cons _ hba => exact hc (hab.subset (by simp))
    | cons_cons _ hab =>
      cases hba with
      | cons _ hba => exact hc (hba.subset (by simp))
      | cons_cons _ hba => exact hc (hba.subset (by simp))

/-- The numbers in the keys of a text fit an `int`. -/
def NumbersFit (text : List Char) : Prop :=
  ∀ line ∈ configLines text, KeyNumbers FitsInt line.1

/-- The order of the lines does not matter where the numbers in the keys fit. -/
theorem key_order_irrelevant (numerals : ConfigNumerals) (overrides : List (List Char))
    {text text' : List Char} (h : PlainConfig text) (hfits : NumbersFit text)
    (hpermuted : Permuted text text') :
    configParse numerals overrides text' = configParse numerals overrides text := by
  have hlines : (configLines text).Perm (configLines text') := hpermuted.lines.filterMap configLine
  have honce : (configLines text).Nodup := h.once.of_map
  have honce' : (configLines text').Nodup := hlines.nodup_iff.1 honce
  have hrun : Reordering.run (applyLine numerals overrides) (configLines text) =
      Reordering.run (applyLine numerals overrides) (configLines text') := by
    funext config
    refine run_reordered hlines (fun line line' hbefore hbehind => ?_) config
    have hmem : line ∈ configLines text := hbefore.subset (by simp)
    have hmem' : line' ∈ configLines text := hbefore.subset (by simp)
    have hne : line.1 ≠ line'.1 := by
      have hpair := hbefore.map Prod.fst |>.nodup h.once
      simpa using hpair
    by_cases heq : configAddress line.1 = configAddress line'.1
    · have hsame : applyLine numerals overrides line = applyLine numerals overrides line' := by
        unfold applyLine
        rw [← heq]
        exact ConfigFile.assign_twice numerals (h.plain line hmem) (h.plain line' hmem')
          (hfits line hmem) (hfits line' hmem') hne heq _ _
      rw [hsame]
      exact fun _ => rfl
    · exact ConfigFile.assign_commute numerals
        ⟨heq, fun hroom => nodup_not_both honce' ((hpermuted.kept _ _ hroom).1 hbefore) hbehind,
          fun hroom => nodup_not_both honce hbefore ((hpermuted.kept _ _ hroom).2 hbehind),
          h.lengths line hmem line' hmem', h.lengths line' hmem' line hmem⟩ _ _
  unfold configParse
  rw [hrun]

theorem Permuted.of_lines {text text' : List Char}
    (hlines : (text.splitOn '\n').Perm (text'.splitOn '\n'))
    (hkept : ∀ line ∈ configLines text, ∀ line' ∈ configLines text,
      Allocates (configAddress line.1) (configAddress line'.1) →
        ([line, line'].Sublist (configLines text) ↔
          [line, line'].Sublist (configLines text'))) : Permuted text text' where
  lines := hlines
  kept line line' hroom := by
    have hsame : (configLines text).Perm (configLines text') := hlines.filterMap configLine
    constructor
    · intro hbefore
      exact (hkept line (hbefore.subset (by simp)) line' (hbefore.subset (by simp)) hroom).1 hbefore
    · intro hbefore
      exact (hkept line (hsame.symm.subset (hbefore.subset (by simp))) line'
        (hsame.symm.subset (hbefore.subset (by simp))) hroom).2 hbefore

def inputText : List Char :=
  "input.max=1\ninput.1.interval_ms=9\nmqtt.ack=1\ninput.1.slave=3".toList

def inputReordered : List Char :=
  "mqtt.ack=1\ninput.max=1\ninput.1.slave=3\ninput.1.interval_ms=9".toList

/-- Both are accepted, as one configuration. -/
theorem key_order_irrelevant_example :
    configParse digitNumerals [] inputReordered = configParse digitNumerals [] inputText ∧
      (configParse digitNumerals [] inputText).isSome :=
  ⟨key_order_irrelevant digitNumerals [] ⟨by decide +kernel, by decide +kernel, by decide +kernel⟩
    (by unfold NumbersFit; decide +kernel) (.of_lines (by decide +kernel) (by decide +kernel)),
    by decide +kernel⟩

/-- Two inputs, the number of the second one too large for an `int`: it is read as the first. -/
def wrappedNumberText : List Char :=
  "input.max=1\ninput.1.interval_ms=9\ninput.1.slave=3\ninput.4294967297.slave=4".toList

def wrappedNumberReordered : List Char :=
  "input.max=1\ninput.1.interval_ms=9\ninput.4294967297.slave=4\ninput.1.slave=3".toList

/-- The last line decides which slave the input has. -/
theorem wrapped_number_sets_slave :
    ¬ ∀ numerals overrides text text', PlainConfig text → Permuted text text' →
      configParse numerals overrides text' = configParse numerals overrides text := by
  intro h
  have hsame := h digitNumerals [] wrappedNumberText wrappedNumberReordered
    ⟨by decide +kernel, by decide +kernel, by decide +kernel⟩
    (.of_lines (by decide +kernel) (by decide +kernel))
  have hslaves := congrArg (Option.map fun config => config.inputs.map (·.settings.slave)) hsame
  exact absurd hslaves (by decide +kernel)

end Modbusmq
