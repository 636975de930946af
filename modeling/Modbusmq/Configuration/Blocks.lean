import Modbusmq.Decoding.Channels
import Modbusmq.Decoding.Formats

/-!
# Write entries and their blocks

The write entries of a configuration, and `config_validate_write_block`: the
channels of a block have to cover its registers without a gap or an overlap.
Names, which are only printed, are left out.
-/

namespace Modbusmq

/-- A C `double`: a number, or `none` for an infinity or a NaN. -/
abbrev Double := Option ℚ

structure WriteChannel where
  offset : ℤ
  format : DataFormat
  add : ℤ
  mod : ℤ
  mul : ℤ
  value : Double
  hasValue : Bool

def WriteChannel.length (channel : WriteChannel) : ℤ := formatSize channel.format

inductive WriteFunction
  | unknown
  | coil
  | register
  | registers
  deriving DecidableEq, Repr

/-- `modbusmq_write_t`. The slave of a template is settled when the modules are expanded. -/
structure WriteEntry where
  slave : ℤ
  hasSlave : Bool
  template : Bool
  type : Option InputType
  function : WriteFunction
  address : ℤ
  hasAddress : Bool
  format : DataFormat
  add : ℤ
  mod : ℤ
  mul : ℤ
  onValue : ℤ
  offValue : ℤ
  hasOnValue : Bool
  hasOffValue : Bool
  topic : String
  naddress : ℤ
  hasNaddress : Bool
  channels : List WriteChannel
  hasDefaults : Bool

/-- What is wrong with a block; `c` counts channels and `r` registers from zero. -/
inductive BlockError
  | formatRequired (c : ℕ)
  | textFormat (c : ℕ)
  | notWritable (c : ℕ) (length : ℤ)
  | offBoundary (c : ℕ) (offset : ℤ)
  | count (nregs : ℤ)
  | overrun (c : ℕ) (last nregs : ℤ)
  | overlap (c r : ℕ)
  | gap (r : ℕ)
  deriving DecidableEq, Repr

/-- The registers a channel covers, counted from the start of the block. -/
def WriteChannel.registers (channel : WriteChannel) : List ℕ :=
  List.range' (channel.offset.tdiv 2).toNat (channel.length.tdiv 2).toNat

/-- The first loop of `config_validate_write_block`, from channel `c` on: how far the channels
reach in bytes, and whether all have a default. -/
def scanChannels : ℕ → List WriteChannel → ℤ → Bool → Except BlockError (ℤ × Bool)
  | _, [], span, defaults => .ok (span, defaults)
  | c, channel :: rest, span, defaults =>
    if channel.format = .unknown then .error (.formatRequired c)
    else if formatIsText channel.format then .error (.textFormat c)
    else if channel.length ≠ 2 ∧ channel.length ≠ 4 then .error (.notWritable c channel.length)
    else if channel.offset < 0 ∨ channel.offset.tmod 2 ≠ 0 then
      .error (.offBoundary c channel.offset)
    else
      let stop := cInt (channel.offset + channel.length)
      scanChannels (c + 1) rest (if span < stop then stop else span) (defaults && channel.hasValue)

/-- The inner loop of the second one: `claimed[r]++` for the registers of channel `c`. -/
def claimRegisters (c : ℕ) : List ℕ → (ℕ → ℕ) → Except BlockError (ℕ → ℕ)
  | [], claimed => .ok claimed
  | r :: rest, claimed =>
    if claimed r ≠ 0 then .error (.overlap c r)
    else claimRegisters c rest (Function.update claimed r (claimed r + 1))

def claimChannels (nregs : ℤ) : ℕ → List WriteChannel → (ℕ → ℕ) → Except BlockError (ℕ → ℕ)
  | _, [], claimed => .ok claimed
  | c, channel :: rest, claimed =>
    let last := channel.offset.tdiv 2 + channel.length.tdiv 2
    if nregs < last then .error (.overrun c last nregs)
    else
      match claimRegisters c channel.registers claimed with
      | .error e => .error e
      | .ok claimed => claimChannels nregs (c + 1) rest claimed

/-- `config_validate_write_block`; the entry comes back with its length settled. -/
def validateWriteBlock (write : WriteEntry) : Except BlockError WriteEntry :=
  match scanChannels 0 write.channels 0 true with
  | .error e => .error e
  | .ok (span, defaults) =>
    let nregs := if write.hasNaddress then write.naddress else span.tdiv 2
    if nregs ≤ 0 ∨ 123 < nregs then .error (.count nregs)
    else
      match claimChannels nregs 0 write.channels fun _ => 0 with
      | .error e => .error e
      | .ok claimed =>
        match (List.range nregs.toNat).find? (claimed · = 0) with
        | some r => .error (.gap r)
        | none => .ok { write with naddress := nregs, hasNaddress := true, hasDefaults := defaults }

/-- A channel that passes on its own. -/
structure WriteChannel.Writable (channel : WriteChannel) : Prop where
  known : channel.format ≠ .unknown
  number : formatIsText channel.format = false
  size : channel.length = 2 ∨ channel.length = 4
  offset : 0 ≤ channel.offset ∧ channel.offset.tmod 2 = 0

theorem scanChannels_ok {c : ℕ} {channels : List WriteChannel} {span : ℤ} {defaults : Bool}
    {result : ℤ × Bool} (h : scanChannels c channels span defaults = .ok result) :
    (∀ channel ∈ channels, channel.Writable) ∧
      result.2 = (defaults && channels.all (·.hasValue)) := by
  induction channels generalizing c span defaults with
  | nil =>
    cases h
    exact ⟨fun _ hmem => absurd hmem List.not_mem_nil, (Bool.and_true _).symm⟩
  | cons channel rest ih =>
    unfold scanChannels at h
    split_ifs at h with hknown hnumber hsize hoffset
    obtain ⟨hrest, hdefaults⟩ := ih h
    refine ⟨fun other hother => ?_, by rw [hdefaults, List.all_cons, Bool.and_assoc]⟩
    rcases List.mem_cons.1 hother with rfl | hother
    · exact ⟨hknown, by simpa using hnumber, by tauto, by omega⟩
    · exact hrest other hother

theorem claimRegisters_ok {c : ℕ} {rs : List ℕ} {claimed claimed' : ℕ → ℕ}
    (h : claimRegisters c rs claimed = .ok claimed') :
    rs.Nodup ∧ (∀ r ∈ rs, claimed r = 0) ∧ ∀ r, claimed' r = claimed r + rs.count r := by
  induction rs generalizing claimed with
  | nil =>
    cases h
    exact ⟨List.nodup_nil, fun _ hr => absurd hr List.not_mem_nil, fun _ => rfl⟩
  | cons r rest ih =>
    unfold claimRegisters at h
    split_ifs at h with hfree
    rw [not_not] at hfree
    obtain ⟨hnodup, hzero, hcount⟩ := ih h
    have hnew : r ∉ rest := by
      intro hmem
      have hupdated := hzero r hmem
      rw [Function.update_self] at hupdated
      omega
    refine ⟨List.nodup_cons.2 ⟨hnew, hnodup⟩, fun r' hr' => ?_, fun r' => ?_⟩
    · rcases List.mem_cons.1 hr' with rfl | hr'
      · exact hfree
      · have hne : r' ≠ r := fun hsame => hnew (hsame ▸ hr')
        have hupdated := hzero r' hr'
        rwa [Function.update_of_ne hne] at hupdated
    · rw [hcount, List.count_cons, Function.update_apply]
      by_cases hsame : r' = r
      · subst hsame
        simp
        omega
      · rw [if_neg hsame, if_neg (by simpa using Ne.symm hsame)]
        omega

theorem claimChannels_ok {nregs : ℤ} {c : ℕ} {channels : List WriteChannel}
    {claimed claimed' : ℕ → ℕ} (hchannels : ∀ channel ∈ channels, channel.Writable)
    (h : claimChannels nregs c channels claimed = .ok claimed') :
    (channels.flatMap WriteChannel.registers).Nodup ∧
      (∀ r ∈ channels.flatMap WriteChannel.registers, claimed r = 0 ∧ (r : ℤ) < nregs) ∧
        ∀ r, claimed' r = claimed r + (channels.flatMap WriteChannel.registers).count r := by
  induction channels generalizing c claimed with
  | nil =>
    cases h
    exact ⟨List.nodup_nil, fun _ hr => absurd hr List.not_mem_nil, fun _ => rfl⟩
  | cons channel rest ih =>
    unfold claimChannels at h
    dsimp only at h
    split_ifs at h with hlast
    cases hclaim : claimRegisters c channel.registers claimed with
    | error e =>
      rw [hclaim] at h
      exact nomatch h
    | ok next =>
      rw [hclaim] at h
      obtain ⟨hown, hfree, hnext⟩ := claimRegisters_ok hclaim
      obtain ⟨hnodup, hrest, hcount⟩ :=
        ih (fun other hother => hchannels other (List.mem_cons_of_mem _ hother)) h
      have hwritable := hchannels channel (List.mem_cons_self ..)
      have hinside : ∀ r ∈ channel.registers, (r : ℤ) < nregs := by
        intro r hr
        have hoffset := hwritable.offset
        have hsize := hwritable.size
        have hstart : 0 ≤ channel.offset.tdiv 2 := Int.tdiv_nonneg hoffset.1 (by decide)
        have hlength : 0 ≤ channel.length.tdiv 2 := Int.tdiv_nonneg (by omega) (by decide)
        obtain ⟨-, hlt⟩ := List.mem_range'_1.1 hr
        omega
      refine ⟨?_, ?_, ?_⟩
      · rw [List.flatMap_cons, List.nodup_append]
        refine ⟨hown, hnodup, fun r hr r' hr' hsame => ?_⟩
        have hclaimed := (hrest r' hr').1
        have hone := List.count_pos_iff.2 hr
        rw [hnext, ← hsame] at hclaimed
        omega
      · intro r hr
        rw [List.flatMap_cons, List.mem_append] at hr
        rcases hr with hr | hr
        · exact ⟨hfree r hr, hinside r hr⟩
        · obtain ⟨hzero, hlt⟩ := hrest r hr
          rw [hnext] at hzero
          exact ⟨by omega, hlt⟩
      · intro r
        rw [hcount, hnext, List.flatMap_cons, List.count_append, Nat.add_assoc]

/-- An accepted block is covered by its channels, every register by exactly one. -/
structure BlockLaid (write : WriteEntry) : Prop where
  writable : ∀ channel ∈ write.channels, channel.Writable
  count : 1 ≤ write.naddress ∧ write.naddress ≤ 123
  partition : (write.channels.flatMap WriteChannel.registers).Perm
    (List.range write.naddress.toNat)

theorem validateWriteBlock_ok {write accepted : WriteEntry}
    (h : validateWriteBlock write = .ok accepted) :
    BlockLaid accepted ∧ ∃ nregs defaults, accepted =
      { write with naddress := nregs, hasNaddress := true, hasDefaults := defaults } := by
  unfold validateWriteBlock at h
  cases hscan : scanChannels 0 write.channels 0 true with
  | error e =>
    rw [hscan] at h
    exact nomatch h
  | ok scanned =>
    rw [hscan] at h
    dsimp only at h
    obtain ⟨hwritable, -⟩ := scanChannels_ok hscan
    generalize (if write.hasNaddress then write.naddress else scanned.1.tdiv 2) = nregs at h
    split_ifs at h with hcount
    cases hclaim : claimChannels nregs 0 write.channels fun _ => 0 with
    | error e =>
      rw [hclaim] at h
      exact nomatch h
    | ok claimed =>
      rw [hclaim] at h
      dsimp only at h
      obtain ⟨hnodup, hinside, hcounts⟩ := claimChannels_ok hwritable hclaim
      cases hgap : (List.range nregs.toNat).find? (claimed · = 0) with
      | some r =>
        rw [hgap] at h
        exact nomatch h
      | none =>
        rw [hgap] at h
        cases h
        refine ⟨⟨hwritable, by dsimp only; omega, ?_⟩, nregs, scanned.2, rfl⟩
        refine (List.perm_ext_iff_of_nodup hnodup List.nodup_range).2 fun r => ?_
        dsimp only
        rw [List.mem_range]
        constructor
        · intro hr
          have hlt := (hinside r hr).2
          omega
        · intro hr
          have hclaimed := List.find?_eq_none.1 hgap r (List.mem_range.2 hr)
          rw [decide_eq_true_eq, hcounts, Nat.zero_add] at hclaimed
          exact List.count_pos_iff.1 (Nat.pos_of_ne_zero hclaimed)

end Modbusmq
