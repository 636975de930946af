import Modbusmq.Configuration.Entries

/-!
# Validating a configuration

The end of `config_parse_stream`, from the moment the file is read: a
configuration comes back expanded and checked, or not at all. What concerns
topics and publishing only (`modbusmq_config_apply_publish_defaults`, the topic
prefix and the module index in a topic) is left out.
-/

namespace Modbusmq

/-- `modbusmq_config_t` as far as the entries depend on it; `signedInts` for a
`config.version` from 2.0 on. -/
structure BridgeConfig where
  signedInts : Bool
  queryMode : QueryMode
  moduleCount : ℤ
  moduleSlaveFirst : ℤ
  inputs : List InputEntry
  writes : List WriteEntry

def configSlaveMax : ℤ := 247

def inputWriteMax : ℤ := 1000

def setModuleCount (config : BridgeConfig) (value : String) : Except ConfigError BridgeConfig :=
  let count := cInt (strtol value.toList).1
  if count < 0 ∨ configSlaveMax < count then .error .moduleCount
  else .ok { config with moduleCount := count }

def setModuleSlaveFirst (config : BridgeConfig) (value : String) :
    Except ConfigError BridgeConfig :=
  let first := cInt (strtol value.toList).1
  if first < 1 ∨ configSlaveMax < first then .error .moduleSlaveFirst
  else .ok { config with moduleSlaveFirst := first }

def checkModules (config : BridgeConfig) : Except ConfigError Unit :=
  let last := config.moduleSlaveFirst + config.moduleCount - 1
  if 0 < config.moduleCount ∧ configSlaveMax < last then
    .error (.moduleRange config.moduleCount config.moduleSlaveFirst last)
  else .ok ()

/-- `config_expand_inputs` and `config_expand_writes`: the templates are copied for every
module, the other entries stand where they stood among the first copies. -/
def expandTemplates {Entry : Type} (template : Entry → Bool) (copy : Entry → ℤ → Entry)
    (count first : ℤ) (entries : List Entry) : Except ConfigError (List Entry) :=
  let ntemplate := (entries.filter template).length
  let total := (entries.length - ntemplate : ℤ) + ntemplate * count
  if ntemplate = 0 then .ok entries
  else if count ≤ 0 then .error (.noModules (entries.findIdx template))
  else if inputWriteMax < total then .error (.tooManyEntries total)
  else .ok ((List.range count.toNat).flatMap fun m : ℕ => entries.filterMap fun entry =>
    if template entry then some (copy entry (first + m)) else if m = 0 then some entry else none)

def copyInput (input : InputEntry) (slave : ℤ) : InputEntry :=
  { input with template := false, slave := slave }

def copyWrite (write : WriteEntry) (slave : ℤ) : WriteEntry :=
  { write with template := false, slave := slave, hasSlave := true }

/-- What an integer format means to a configuration from before `int_*` was signed. -/
def unsignedFormat : DataFormat → DataFormat
  | .int8 => .a
  | .int16_ab => .ab
  | .int16_ba => .ba
  | format => format

def applyVersionInput (signedInts : Bool) (input : InputEntry) : InputEntry :=
  if signedInts then input
  else { input with channels := input.channels.map fun channel =>
    { channel with format := unsignedFormat channel.format } }

def applyVersionWrite (signedInts : Bool) (write : WriteEntry) : WriteEntry :=
  if signedInts then write
  else { write with
    format := unsignedFormat write.format
    channels := write.channels.map fun channel =>
      { channel with format := unsignedFormat channel.format } }

/-- The rounds decide when an input is read; the other modes need an interval. -/
def checkIntervals (config : BridgeConfig) : Except ConfigError Unit :=
  if config.queryMode = .rounds then .ok ()
  else
    match config.inputs.findIdx? fun input => ¬ (0 < input.interval ∨ input.interval = intervalOnce)
      with
    | some i => .error (.intervalRequired i)
    | none => .ok ()

def formatIsTime : DataFormat → Bool
  | .date_ymd_abcd | .datetime_regs | .epoch32_abcd | .epoch32_badc => true
  | _ => false

/-- The checks on a channel of an input; one without a topic is an unused slot. -/
def validateChannel (type : Option InputType) (channel : InputChannel) :
    Except ChannelError Unit :=
  let fixed := formatSize channel.format
  let timed := channel.timefmt.isSome ∨ channel.localtime
  if channel.topic.isNone then .ok ()
  else if ∃ known ∈ type, known.IsBit then
    if channel.format ≠ .unknown then .error .formatOnBits else .ok ()
  else if channel.format = .unknown then .error .formatRequired
  else if ¬ formatIsText channel.format then
    if channel.hasLength then .error .lengthOnNumber
    else if timed then .error .timeOnNumber
    else .ok ()
  else if fixed = 0 ∧ ¬ channel.hasLength then .error .lengthRequired
  else if fixed ≠ 0 ∧ channel.hasLength ∧ channel.length ≠ fixed then
    .error (.lengthFixed fixed channel.length)
  else if channel.format = .version_regs ∧ channel.length.tmod 2 ≠ 0 then .error .lengthOdd
  else if channel.mod ≠ 0 ∨ channel.mul ≠ 0 then .error .scaled
  else if channel.add ≠ 0 ∧ ¬ formatIsEpoch channel.format then .error .shifted
  else if channel.hasDecimals then .error .decimals
  else if channel.hasMinChange ∨ channel.hasMinChangeRel then .error .minChange
  else if timed ∧ ¬ formatIsTime channel.format then .error .timeFormat
  else if channel.localtime ∧ ¬ formatIsEpoch channel.format then .error .timezone
  else .ok ()

def validateChannels (type : Option InputType) (i : ℕ) : ℕ → List InputChannel →
    Except ConfigError Unit
  | _, [] => .ok ()
  | c, channel :: rest =>
    match validateChannel type channel with
    | .error e => .error (.channel i c e)
    | .ok () => validateChannels type i (c + 1) rest

def validateInputs : ℕ → List InputEntry → Except ConfigError Unit
  | _, [] => .ok ()
  | i, input :: rest =>
    match validateChannels input.type i 0 input.channels with
    | .error e => .error e
    | .ok () => validateInputs (i + 1) rest

def WriteEntry.length (write : WriteEntry) : ℕ :=
  if write.format = .unknown then 0 else formatSize write.format

/-- `type` and `function` of a write, each derived from the other where it is missing. -/
def settleFunction (write : WriteEntry) : Except WriteError WriteEntry :=
  if write.type = none ∧ write.function = .unknown then .error .typeOrFunction
  else if write.function = .unknown then
    .ok { write with function :=
      if write.type = some .coil then .coil
      else if write.length = 4 then .registers else .register }
  else if write.type = none then
    .ok { write with type :=
      if write.function = .coil then some .coil else some .holdingRegister }
  else if (write.type = some .coil) ≠ (write.function = .coil) then .error .disagree
  else .ok write

def validateSingle (write : WriteEntry) : Except WriteError WriteEntry :=
  if write.hasNaddress then .error .naddressWithoutBlock
  else
    match settleFunction write with
    | .error e => .error e
    | .ok write =>
      if write.function = .coil then
        if write.add ≠ 0 ∨ write.mod ≠ 0 ∨ write.mul ≠ 0 ∨ write.format ≠ .unknown then
          .error .scalingOnCoil
        else .ok write
      else if write.format = .unknown then .error .formatRequired
      else if write.length ≠ 2 ∧ write.length ≠ 4 then .error .notWritable
      else if write.length = 4 ∧ write.function = .register then .error .needsRegisters
      else .ok write

def validateBlock (write : WriteEntry) : Except WriteError WriteEntry :=
  if write.format ≠ .unknown ∨ write.add ≠ 0 ∨ write.mod ≠ 0 ∨ write.mul ≠ 0 then
    .error .scalingOnBlock
  else if write.hasOnValue then .error .onValueOnBlock
  else if write.type = some .coil ∨ write.function = .coil then .error .coilBlock
  else if write.function ≠ .unknown ∧ write.function ≠ .registers then .error .functionOfBlock
  else
    match validateWriteBlock
      { write with function := .registers, type := some .holdingRegister } with
    | .error e => .error (.block e)
    | .ok write => .ok write

def validateWrite (write : WriteEntry) : Except WriteError WriteEntry :=
  if write.topic = "" then .error .topicRequired
  else if ¬ write.hasAddress then .error .addressRequired
  else if ¬ write.hasSlave then .error .slaveRequired
  else if write.hasOnValue ≠ write.hasOffValue then .error .onWithoutOff
  else if write.channels ≠ [] then validateBlock write
  else validateSingle write

def validateWrites : ℕ → List WriteEntry → Except ConfigError (List WriteEntry)
  | _, [] => .ok []
  | w, write :: rest =>
    match validateWrite write with
    | .error e => .error (.write w e)
    | .ok write => (validateWrites (w + 1) rest).map (write :: ·)

/-- `config_parse_stream` from the moment the file is read. -/
def acceptConfig (config : BridgeConfig) : Except ConfigError BridgeConfig := do
  checkModules config
  let inputs ← expandTemplates InputEntry.template copyInput config.moduleCount
    config.moduleSlaveFirst config.inputs
  let writes ← expandTemplates WriteEntry.template copyWrite config.moduleCount
    config.moduleSlaveFirst config.writes
  let config := { config with
    inputs := inputs.map (applyVersionInput config.signedInts)
    writes := writes.map (applyVersionWrite config.signedInts) }
  checkIntervals config
  validateInputs 0 config.inputs
  let writes ← validateWrites 0 config.writes
  return { config with writes := writes }

/-- A configuration as `main` works with it: what the parser accepts of what it read. -/
structure AcceptedConfig where
  source : BridgeConfig
  config : BridgeConfig
  accepted : acceptConfig source = .ok config

theorem expandTemplates_mem {Entry : Type} {template : Entry → Bool} {copy : Entry → ℤ → Entry}
    {count first : ℤ} {entries expanded : List Entry}
    (h : expandTemplates template copy count first entries = .ok expanded) {entry : Entry}
    (hentry : entry ∈ expanded) :
    (entry ∈ entries ∧ ¬ template entry) ∨
      ∃ e ∈ entries, template e ∧ ∃ m : ℕ, (m : ℤ) < count ∧ entry = copy e (first + m) := by
  unfold expandTemplates at h
  dsimp only at h
  split_ifs at h with hnone hcount htotal
  · obtain rfl := Except.ok.inj h
    rw [List.length_eq_zero_iff, List.filter_eq_nil_iff] at hnone
    exact .inl ⟨hentry, hnone entry hentry⟩
  · obtain rfl := Except.ok.inj h
    obtain ⟨m, hm, hentry⟩ := List.mem_flatMap.1 hentry
    rw [List.mem_range] at hm
    obtain ⟨e, he, hcopy⟩ := List.mem_filterMap.1 hentry
    split_ifs at hcopy with htemplate hfirst
    · exact .inr ⟨e, he, htemplate, m, by omega, (Option.some.inj hcopy).symm⟩
    · obtain rfl := Option.some.inj hcopy
      exact .inl ⟨he, htemplate⟩

theorem except_bind_ok {ε α β : Type} {x : Except ε α} {f : α → Except ε β} {b : β}
    (h : (x >>= f) = .ok b) : ∃ a, x = .ok a ∧ f a = .ok b := by
  cases x with
  | error e => exact nomatch h
  | ok a => exact ⟨a, rfl, h⟩

theorem forall₂_mem_right {α β : Type} {R : α → β → Prop} {as : List α} {bs : List β}
    (h : List.Forall₂ R as bs) {b : β} (hb : b ∈ bs) : ∃ a ∈ as, R a b := by
  induction h with
  | nil => exact absurd hb List.not_mem_nil
  | cons hfirst _ ih =>
    rcases List.mem_cons.1 hb with rfl | hrest
    · exact ⟨_, List.mem_cons_self .., hfirst⟩
    · obtain ⟨a, ha, hrelated⟩ := ih hrest
      exact ⟨a, List.mem_cons_of_mem _ ha, hrelated⟩

theorem forall₂_map_eq {α β : Type} {R : α → α → Prop} {f : α → β}
    (hf : ∀ {a a'}, R a a' → f a' = f a) {as as' : List α} (h : List.Forall₂ R as as') :
    as'.map f = as.map f := by
  induction h with
  | nil => rfl
  | cons hhead _ ih => rw [List.map_cons, List.map_cons, hf hhead, ih]

theorem acceptConfig_ok {config accepted : BridgeConfig} (h : acceptConfig config = .ok accepted) :
    (checkModules config = .ok () ∧ checkIntervals accepted = .ok () ∧
      validateInputs 0 accepted.inputs = .ok ()) ∧ ∃ inputs writes,
      expandTemplates InputEntry.template copyInput config.moduleCount config.moduleSlaveFirst
        config.inputs = .ok inputs ∧
      expandTemplates WriteEntry.template copyWrite config.moduleCount config.moduleSlaveFirst
        config.writes = .ok writes ∧
      accepted.inputs = inputs.map (applyVersionInput config.signedInts) ∧
      validateWrites 0 (writes.map (applyVersionWrite config.signedInts)) =
        .ok accepted.writes := by
  unfold acceptConfig at h
  obtain ⟨_, hmodules, h⟩ := except_bind_ok h
  obtain ⟨inputs, hinputs, h⟩ := except_bind_ok h
  obtain ⟨writes, hwrites, h⟩ := except_bind_ok h
  obtain ⟨_, hintervals, h⟩ := except_bind_ok h
  obtain ⟨_, hvalid, h⟩ := except_bind_ok h
  obtain ⟨settled, hsettled, h⟩ := except_bind_ok h
  obtain rfl := Except.ok.inj h
  exact ⟨⟨hmodules, hintervals, hvalid⟩, inputs, writes, hinputs, hwrites, rfl, hsettled⟩

theorem acceptConfig_intervals {config accepted : BridgeConfig}
    (h : acceptConfig config = .ok accepted) (hmode : accepted.queryMode ≠ .rounds)
    {input : InputEntry} (hinput : input ∈ accepted.inputs) :
    0 < input.interval ∨ input.interval = intervalOnce := by
  obtain ⟨⟨-, hintervals, -⟩, -⟩ := acceptConfig_ok h
  unfold checkIntervals at hintervals
  rw [if_neg hmode] at hintervals
  split at hintervals
  · exact nomatch hintervals
  · rename_i hnone
    have hpasses : input.interval ≤ 0 → input.interval = intervalOnce := by
      simpa using List.findIdx?_eq_none_iff.1 hnone input hinput
    exact (lt_or_ge 0 input.interval).imp_right hpasses

theorem validateChannels_ok {type : Option InputType} {i c : ℕ} {channels : List InputChannel}
    (h : validateChannels type i c channels = .ok ()) {channel : InputChannel}
    (hchannel : channel ∈ channels) : validateChannel type channel = .ok () := by
  induction channels generalizing c with
  | nil => exact absurd hchannel List.not_mem_nil
  | cons first rest ih =>
    unfold validateChannels at h
    cases hfirst : validateChannel type first with
    | error e =>
      rw [hfirst] at h
      exact nomatch h
    | ok =>
      rw [hfirst] at h
      rcases List.mem_cons.1 hchannel with rfl | hrest
      · exact hfirst
      · exact ih h hrest

theorem validateInputs_ok {i : ℕ} {inputs : List InputEntry} (h : validateInputs i inputs = .ok ())
    {input : InputEntry} (hinput : input ∈ inputs) {channel : InputChannel}
    (hchannel : channel ∈ input.channels) : validateChannel input.type channel = .ok () := by
  induction inputs generalizing i with
  | nil => exact absurd hinput List.not_mem_nil
  | cons first rest ih =>
    unfold validateInputs at h
    cases hfirst : validateChannels first.type i 0 first.channels with
    | error e =>
      rw [hfirst] at h
      exact nomatch h
    | ok =>
      rw [hfirst] at h
      rcases List.mem_cons.1 hinput with rfl | hrest
      · exact validateChannels_ok hfirst hchannel
      · exact ih h hrest

/-- A write of a single value that passes: a coil without a format, or one or two registers. -/
def WriteEntry.SingleLaid (write : WriteEntry) : Prop :=
  if write.function = .coil then write.format = .unknown
  else write.format ≠ .unknown ∧ (write.length = 2 ∨ write.length = 4)

theorem settleFunction_ok {write settled : WriteEntry} (h : settleFunction write = .ok settled) :
    ∃ type function, settled = { write with type := type, function := function } := by
  unfold settleFunction at h
  split_ifs at h
  all_goals
    obtain rfl := Except.ok.inj h
    exact ⟨_, _, rfl⟩

theorem validateSingle_ok {write settled : WriteEntry} (h : validateSingle write = .ok settled) :
    settled.SingleLaid ∧
      ∃ type function, settled = { write with type := type, function := function } := by
  unfold validateSingle at h
  cases hsettle : settleFunction write with
  | error e =>
    rw [hsettle] at h
    split_ifs at h
  | ok derived =>
    rw [hsettle] at h
    dsimp only at h
    unfold WriteEntry.SingleLaid
    split_ifs at h with hnaddress hcoil hscaled hformat hlength hregister
    · obtain rfl := Except.ok.inj h
      refine ⟨?_, settleFunction_ok hsettle⟩
      rw [if_pos hcoil]
      tauto
    · obtain rfl := Except.ok.inj h
      refine ⟨?_, settleFunction_ok hsettle⟩
      rw [if_neg hcoil]
      exact ⟨hformat, by tauto⟩

theorem validateBlock_ok {write settled : WriteEntry} (h : validateBlock write = .ok settled) :
    (BlockLaid settled ∧ settled.format = .unknown) ∧ ∃ nregs defaults, settled =
      { write with
        type := some .holdingRegister, function := .registers, naddress := nregs
        hasNaddress := true, hasDefaults := defaults } := by
  unfold validateBlock at h
  cases hblock : validateWriteBlock
      { write with function := .registers, type := some .holdingRegister } with
  | error e =>
    rw [hblock] at h
    split_ifs at h
  | ok laid =>
    rw [hblock] at h
    dsimp only at h
    split_ifs at h with hscaled
    obtain rfl := Except.ok.inj h
    obtain ⟨hlaid, nregs, defaults, rfl⟩ := validateWriteBlock_ok hblock
    exact ⟨⟨hlaid, by tauto⟩, nregs, defaults, rfl⟩

/-- A write that passes is as it was read, but for what the validation derives. -/
theorem validateWrite_ok {write settled : WriteEntry} (h : validateWrite write = .ok settled) :
    (settled.channels = [] → settled.SingleLaid) ∧
      (settled.channels ≠ [] → BlockLaid settled ∧ settled.format = .unknown) ∧
      ∃ type function naddress hasNaddress defaults, settled =
        { write with
          type := type, function := function, naddress := naddress
          hasNaddress := hasNaddress, hasDefaults := defaults } := by
  unfold validateWrite at h
  split_ifs at h with _ _ _ _ hchannels
  · obtain ⟨hlaid, nregs, defaults, rfl⟩ := validateBlock_ok h
    exact ⟨fun hnone => absurd hnone hchannels, fun _ => hlaid, _, _, _, _, _, rfl⟩
  · rw [not_not] at hchannels
    obtain ⟨hlaid, type, function, rfl⟩ := validateSingle_ok h
    exact ⟨fun _ => hlaid, fun hsome => absurd hchannels hsome, _, _, _, _, _, rfl⟩

theorem validateWrites_mem {w : ℕ} {writes settled : List WriteEntry}
    (h : validateWrites w writes = .ok settled) {write : WriteEntry} (hwrite : write ∈ settled) :
    ∃ entry ∈ writes, validateWrite entry = .ok write := by
  induction writes generalizing w settled with
  | nil =>
    obtain rfl := Except.ok.inj h
    exact absurd hwrite List.not_mem_nil
  | cons entry rest ih =>
    unfold validateWrites at h
    cases hentry : validateWrite entry with
    | error e =>
      rw [hentry] at h
      exact nomatch h
    | ok first =>
      rw [hentry] at h
      dsimp only at h
      cases hrest : validateWrites (w + 1) rest with
      | error e =>
        rw [hrest] at h
        exact nomatch h
      | ok others =>
        rw [hrest] at h
        obtain rfl := Except.ok.inj h
        rcases List.mem_cons.1 hwrite with rfl | hwrite
        · exact ⟨entry, List.mem_cons_self .., hentry⟩
        · obtain ⟨other, hother, hvalid⟩ := ih hrest hwrite
          exact ⟨other, List.mem_cons_of_mem _ hother, hvalid⟩

/-- A copy of a template is on a unicast slave, whatever the file says. -/
theorem module_slave_range {config : BridgeConfig} (h : checkModules config = .ok ())
    (hfirst : 1 ≤ config.moduleSlaveFirst) {m : ℕ} (hm : (m : ℤ) < config.moduleCount) :
    1 ≤ config.moduleSlaveFirst + m ∧ config.moduleSlaveFirst + m ≤ configSlaveMax := by
  unfold checkModules at h
  dsimp only at h
  split_ifs at h with hlast
  omega

end Modbusmq
