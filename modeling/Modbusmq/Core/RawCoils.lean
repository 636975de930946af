import Modbusmq.Core.Layout
import Modbusmq.Core.RawRequests

/-!
# Raw writes of several coils

Function 15 of `modbusmq_raw_request` packs its values eight to a byte and hands
them to `modbusmq_frame_write_coil_bits`, which takes one byte for each coil and
packs them again.
-/

namespace Modbusmq

/-- The request text without the whitespace around it. -/
def rawEcho (text : String) : List Char :=
  ((text.toList.dropWhile isRawSpace).reverse.dropWhile isRawSpace).reverse

/-- Raw requests of this context may write. -/
def RawWrites (c : Context) : Prop := ∃ config, c.config = some config ∧ config.rawWrite = true

/-- The coil data a raw request of function 15 hands to the frame builder. -/
def rawCoilBytes (values : List UInt16) (stray : ℕ → UInt8) (i : ℕ) : UInt8 :=
  if i < 16 then rawBits values i else stray i

/-- What a device should read in a raw request of function 15. -/
def rawCoilsPdu (f : RawFields) : Pdu :=
  .writeCoils f.addr.toNat f.values.length ((f.values.length + 7) / 8)
    (f.values.map fun value => value ≠ 0)

/-- The text posts one request, in whose frame a device reads coil `i` as set where the `i`-th
value is not zero, and what lies behind the local array plays no part. -/
def RawCoilsPacked (c : Context) (text : String) (f : RawFields) : Prop :=
  (∀ stray, ∃ msg, (rawRequest c text stray).2.log = c.log ++ [.posted .post msg] ∧
    parseFrame c.transport (msg.writer.bytes msg.writer.length) =
      some (f.slave.toNat, rawCoilsPdu f)) ∧
  ∀ stray stray', rawRequest c text stray = rawRequest c text stray'

variable {c : Context} {text : String} {f : RawFields} {writes : Bool} {echo : List Char}

theorem rawValues_length {room : ℕ} {p : List Char} {values : List UInt16}
    (h : rawValues room p = .ok values) : values.length ≤ room := by
  induction room generalizing p values with
  | zero =>
    unfold rawValues at h
    split at h
    · cases h
      exact le_rfl
    · cases h
    · cases h
  | succ room ih =>
    unfold rawValues at h
    split at h
    · cases h
      exact Nat.zero_le _
    · cases h
    · rename_i value rest _
      split at h
      · cases h
      · cases hrest : rawValues room rest with
        | error reason =>
          rw [hrest] at h
          cases h
        | ok behind =>
          rw [hrest] at h
          cases h
          exact Nat.succ_le_succ (ih hrest)

theorem rawParse_limits (h : rawParse writes echo = .ok f) :
    (0 ≤ f.slave ∧ f.slave ≤ 247) ∧ FitsWord f.addr ∧ f.values.length ≤ 123 := by
  unfold rawParse at h
  dsimp only at h
  split at h
  · cases h
  · split at h
    · cases h
    · rename_i hvalues
      split_ifs at h with hrange hbroadcast
      cases h
      refine ⟨⟨?_, ?_⟩, ⟨?_, ?_⟩, rawValues_length hvalues⟩ <;> dsimp only <;> omega

/-- One byte for each value, as the frame builder takes them. -/
def coilByte (values : List UInt16) (i : ℕ) : UInt8 := if values.getD i 0 ≠ 0 then 1 else 0

theorem coilByte_ne_zero {values : List UInt16} {i : ℕ} :
    coilByte values i ≠ 0 ↔ values.getD i 0 ≠ 0 := by
  unfold coilByte
  split_ifs with hvalue
  · exact iff_of_true (by decide) hvalue
  · exact iff_of_false (by decide) hvalue

/-- The local array holds what the frame builder would make of one byte for each coil. -/
theorem rawBits_eq (values : List UInt16) (i : ℕ) :
    rawBits values i = packCoils values.length (coilByte values) i := by
  unfold rawBits packCoils
  congr 1
  funext byte k
  rw [mul_comm i 8]
  by_cases hin : values.length ≤ 8 * i + k
  · rw [if_pos hin, List.getD_eq_default _ _ hin, if_neg (not_not.2 rfl)]
  · rw [if_neg hin]
    by_cases hvalue : values.getD (8 * i + k) 0 ≠ 0
    · rw [if_pos hvalue, if_pos (coilByte_ne_zero.2 hvalue)]
    · rw [if_neg hvalue, if_neg (mt coilByte_ne_zero.1 hvalue), UInt8.zero_shiftLeft,
        UInt8.or_zero]

theorem rawBits_ne_zero {values : List UInt16} {i : ℕ} :
    rawBits values i ≠ 0 ↔ ∃ k < 8, values.getD (i * 8 + k) 0 ≠ 0 := by
  have hbit : ∀ k, (rawBits values i).toNat.testBit k =
      decide (k < 8 ∧ values.getD (i * 8 + k) 0 ≠ 0) := by
    intro k
    rw [rawBits_eq, packCoils_testBit, decide_eq_decide, coilByte_ne_zero]
    refine and_congr_right fun _ => and_iff_right_of_imp fun h => ?_
    by_contra hout
    exact h (List.getD_eq_default _ _ (not_lt.1 hout))
  constructor
  · intro hne
    by_contra hnone
    refine hne (UInt8.toNat_inj.1 (Nat.eq_of_testBit_eq fun k => ?_))
    rw [hbit k, decide_eq_false (fun h => hnone ⟨k, h⟩)]
    exact (Nat.zero_testBit k).symm
  · rintro ⟨k, hk, hvalue⟩ hzero
    have hset := hbit k
    rw [hzero, decide_eq_true ⟨hk, hvalue⟩] at hset
    exact absurd hset (by rw [UInt8.toNat_zero, Nat.zero_testBit]; decide)

def rawCoilsRequest (f : RawFields) (stray : ℕ → UInt8) : Request :=
  .writeCoilBits f.addr f.values.length (rawCoilBytes f.values stray)

theorem rawPrepare_coils (hfree : c.raw = none) (hwrites : RawWrites c)
    (hparse : rawParse true echo = .ok f) (hfc : f.fc = 15) (hvalues : f.values ≠ [])
    (stray : ℕ → UInt8) : ∃ writer,
      (rawCoilsRequest f stray).build c.transport f.slave = some writer ∧
        rawPrepare c echo stray = .ok (writer, 0, 15) := by
  obtain ⟨config, hconfig, hwrite⟩ := hwrites
  have hcount : f.values.length ≠ 0 := fun h => hvalues (List.length_eq_zero_iff.1 h)
  obtain ⟨-, haddr, hlength⟩ := rawParse_limits hparse
  have hlimits : (rawCoilsRequest f stray).InLimits := ⟨haddr, by omega, by omega⟩
  have hbuild := Request.build_parts hlimits c.transport f.slave
  refine ⟨_, hbuild, ?_⟩
  have hrequest : rawBuild true f stray = .ok (rawCoilsRequest f stray, 0) := by
    unfold rawBuild
    dsimp only
    rw [if_neg (by rw [hfc]; decide), if_pos (by rw [hfc]; decide), if_neg (by decide),
      if_neg (by rw [hfc]; omega), if_neg (by rw [hfc]; decide), if_neg (by rw [hfc]; decide),
      if_pos hfc]
    rfl
  unfold rawPrepare
  rw [hfree, hconfig]
  dsimp only
  rw [hwrite, if_neg (by decide), hparse]
  dsimp only
  rw [hrequest]
  dsimp only
  rw [hbuild]
  dsimp only
  rw [hfc]
  rfl

theorem rawRequest_ok {stray : ℕ → UInt8} {writer : Frame .writer} {count fc : ℕ}
    (h : rawPrepare c (rawEcho text) stray = .ok (writer, count, fc)) :
    rawRequest c text stray = (0, { post c writer with
      raw := some ⟨String.ofList (rawEcho text), (post c writer).reqIdNext, count, fc⟩ }) := by
  unfold rawEcho at h
  unfold rawRequest
  dsimp only
  rw [h]
  rfl

/-- A device reads the coils as the array and what lies behind it have them. -/
theorem rawRequest_coils (hfree : c.raw = none) (hwrites : RawWrites c)
    (hparse : rawParse true (rawEcho text) = .ok f) (hfc : f.fc = 15) (hvalues : f.values ≠ [])
    (stray : ℕ → UInt8) : ∃ msg,
      (rawRequest c text stray).2.log = c.log ++ [.posted .post msg] ∧
        parseFrame c.transport (msg.writer.bytes msg.writer.length) =
          some (f.slave.toNat, (rawCoilsRequest f stray).pdu) := by
  obtain ⟨writer, hbuild, hprepare⟩ := rawPrepare_coils hfree hwrites hparse hfc hvalues stray
  obtain ⟨hslave, haddr, hlength⟩ := rawParse_limits hparse
  have hcount : f.values.length ≠ 0 := fun h => hvalues (List.length_eq_zero_iff.1 h)
  have hlimits : (rawCoilsRequest f stray).InLimits := ⟨haddr, by omega, by omega⟩
  have hposted : (rawRequest c text stray).2.log = (post c writer).log := by
    rw [rawRequest_ok hprepare]
  refine ⟨_, hposted, ?_⟩
  exact Request.parse_prepared ⟨hslave.1, by omega⟩ hlimits hbuild _

theorem packCoils_congr {nbits : ℕ} {bits bits' : ℕ → UInt8} (h : ∀ i < nbits, bits i = bits' i) :
    packCoils nbits bits = packCoils nbits bits' := by
  funext ibyte
  unfold packCoils
  congr 1
  funext byte ibit
  split_ifs with hpad hset hset' hset'
  · rfl
  · rfl
  · rw [h _ (not_le.1 hpad)] at hset
    exact absurd hset hset'
  · rw [h _ (not_le.1 hpad)] at hset
    exact absurd hset' hset
  · rfl

theorem rawCoils_build (stray stray' : ℕ → UInt8) (h : f.values.length ≤ 16) (t : Transport) :
    (rawCoilsRequest f stray).build t f.slave = (rawCoilsRequest f stray').build t f.slave := by
  have hbytes : ∀ i < f.values.length,
      rawCoilBytes f.values stray i = rawCoilBytes f.values stray' i := by
    intro i hi
    unfold rawCoilBytes
    rw [if_pos (by omega), if_pos (by omega)]
  change frameWriteCoilBits _ _ _ _ _ = frameWriteCoilBits _ _ _ _ _
  unfold frameWriteCoilBits
  rw [Int.toNat_natCast, packCoils_congr hbytes]

theorem rawCoilsRequest_pdu {stray : ℕ → UInt8} :
    (rawCoilsRequest f stray).pdu = rawCoilsPdu f ↔
      ∀ i < f.values.length, rawCoilBytes f.values stray i ≠ 0 ↔ f.values.getD i 0 ≠ 0 := by
  have hvalues : f.values.map (fun value => decide (value ≠ 0)) =
      (List.range f.values.length).map fun i => decide (f.values.getD i 0 ≠ 0) := by
    refine List.ext_getElem (by simp) fun i hi _ => ?_
    rw [List.length_map] at hi
    rw [List.getElem_map, List.getElem_map, List.getElem_range, List.getD_eq_getElem _ _ hi]
  unfold rawCoilsRequest rawCoilsPdu Request.pdu
  dsimp only
  rw [Int.toNat_natCast, hvalues, Pdu.writeCoils.injEq]
  simp only [true_and, List.map_inj_left, List.mem_range, decide_eq_decide]

theorem getD_tail {values : List UInt16} :
    (∀ value ∈ values.tail, value = 0) ↔ ∀ i ≠ 0, values.getD i 0 = 0 := by
  cases values with
  | nil => simp
  | cons first rest =>
    rw [List.tail_cons]
    constructor
    · intro h i hi
      obtain ⟨k, rfl⟩ := Nat.exists_eq_succ_of_ne_zero hi
      rw [List.getD_cons_succ]
      by_cases hk : k < rest.length
      · rw [List.getD_eq_getElem _ _ hk]
        exact h _ (List.getElem_mem hk)
      · exact List.getD_eq_default _ _ (not_lt.1 hk)
    · intro h value hvalue
      obtain ⟨k, hk, rfl⟩ := List.mem_iff_getElem.1 hvalue
      have hzero := h (k + 1) (Nat.succ_ne_zero k)
      rwa [List.getD_cons_succ, List.getD_eq_getElem _ _ hk] at hzero

/-- Packed values stand for themselves, one to a byte, exactly when only the first may be set. -/
theorem rawBits_as_coils {values : List UInt16} (h : values.length ≤ 16) :
    (∀ i < values.length, rawBits values i ≠ 0 ↔ values.getD i 0 ≠ 0) ↔
      ∀ value ∈ values.tail, value = 0 := by
  have hout : ∀ i, values.length ≤ i → values.getD i 0 = 0 := fun i hi =>
    List.getD_eq_default _ _ hi
  rw [getD_tail]
  constructor
  · intro hbits
    -- bytes from the third on hold no value, and the second only values behind the eighth
    have hbehind : ∀ i, 2 ≤ i → values.getD i 0 = 0 := by
      intro i hi
      by_contra hset
      have hin : i < values.length := lt_of_not_ge fun hle => hset (hout i hle)
      obtain ⟨k, -, hvalue⟩ := rawBits_ne_zero.1 ((hbits i hin).2 hset)
      exact hvalue (hout _ (by omega))
    intro i hi
    by_contra hset
    have hin : i < values.length := lt_of_not_ge fun hle => hset (hout i hle)
    obtain ⟨k, -, hvalue⟩ := rawBits_ne_zero.1 ((hbits i hin).2 hset)
    exact hvalue (hbehind _ (by omega))
  · intro hzero i _
    rw [rawBits_ne_zero]
    constructor
    · rintro ⟨k, -, hvalue⟩
      have hplace : i * 8 + k = 0 := by
        by_contra hne
        exact hvalue (hzero _ hne)
      have hi : i = 0 := by omega
      rw [hplace] at hvalue
      rwa [hi]
    · intro hvalue
      have hi : i = 0 := by
        by_contra hne
        exact hvalue (hzero i hne)
      subst hi
      exact ⟨0, by decide, hvalue⟩

/-- A raw write of several coils sends the values it was given, and nothing that lies behind
them, exactly when they fit the array and only the first is set. -/
theorem raw_coils_packed_iff (hfree : c.raw = none) (hwrites : RawWrites c)
    (hparse : rawParse true (rawEcho text) = .ok f) (hfc : f.fc = 15) (hvalues : f.values ≠ []) :
    RawCoilsPacked c text f ↔
      f.values.length ≤ 16 ∧ ∀ value ∈ f.values.tail, value = 0 := by
  have hsent := rawRequest_coils hfree hwrites hparse hfc hvalues
  constructor
  · rintro ⟨hpacked, -⟩
    have hcoils : ∀ stray, ∀ i < f.values.length,
        rawCoilBytes f.values stray i ≠ 0 ↔ f.values.getD i 0 ≠ 0 := by
      intro stray
      obtain ⟨msg, hlog, hread⟩ := hsent stray
      obtain ⟨asked, hasked, hpdu⟩ := hpacked stray
      have hsame : msg = asked := by
        have hevents := List.append_cancel_left (hlog.symm.trans hasked)
        cases hevents
        rfl
      subst hsame
      rw [hread] at hpdu
      exact rawCoilsRequest_pdu.1 (Prod.mk.inj (Option.some.inj hpdu)).2
    have hfits : f.values.length ≤ 16 := by
      by_contra hlong
      -- the 17th coil is whatever lies behind the array
      have hread := hcoils (fun _ => if f.values.getD 16 0 ≠ 0 then 0 else 1) 16 (by omega)
      unfold rawCoilBytes at hread
      rw [if_neg (by decide)] at hread
      by_cases hset : f.values.getD 16 0 ≠ 0
      · rw [if_pos hset] at hread
        exact absurd (hread.2 hset) (by decide)
      · rw [if_neg hset] at hread
        exact hset (hread.1 (by decide))
    refine ⟨hfits, (rawBits_as_coils hfits).1 fun i hi => ?_⟩
    have hcoil := hcoils (fun _ => 0) i hi
    unfold rawCoilBytes at hcoil
    rwa [if_pos (by omega)] at hcoil
  · rintro ⟨hfits, hzero⟩
    constructor
    · intro stray
      obtain ⟨msg, hlog, hread⟩ := hsent stray
      refine ⟨msg, hlog, hread.trans ?_⟩
      rw [rawCoilsRequest_pdu.2 fun i hi => ?_]
      unfold rawCoilBytes
      rw [if_pos (by omega)]
      exact (rawBits_as_coils hfits).2 hzero i hi
    · intro stray stray'
      obtain ⟨writer, hbuild, hprepare⟩ :=
        rawPrepare_coils hfree hwrites hparse hfc hvalues stray
      obtain ⟨writer', hbuild', hprepare'⟩ :=
        rawPrepare_coils hfree hwrites hparse hfc hvalues stray'
      rw [rawCoils_build stray stray' hfits c.transport, hbuild'] at hbuild
      cases hbuild
      rw [rawRequest_ok hprepare, rawRequest_ok hprepare']

def rawExample : Context :=
  { newContext .rtu with config := some ⟨[], 0, .parallell, 0, 0, 0, true⟩ }

/-- One coil on and two off come out as asked. -/
theorem raw_coils_packed_iff_example : RawCoilsPacked rawExample "7 15 19 1 0 0"
    ⟨7, 15, 19, [1, 0, 0]⟩ :=
  (raw_coils_packed_iff rfl ⟨_, rfl, rfl⟩ (by decide +kernel) rfl (by decide)).2
    ⟨by decide, by simp⟩

/-- Two coils on: the second goes out as off. -/
theorem raw_coils_mispacked : rawParse true (rawEcho "7 15 19 1 1") = .ok ⟨7, 15, 19, [1, 1]⟩ ∧
    ¬ RawCoilsPacked rawExample "7 15 19 1 1" ⟨7, 15, 19, [1, 1]⟩ := by
  have hparse : rawParse true (rawEcho "7 15 19 1 1") = .ok ⟨7, 15, 19, [1, 1]⟩ := by
    decide +kernel
  refine ⟨hparse, fun h => ?_⟩
  obtain ⟨msg, hlog, hread⟩ := rawRequest_coils (c := rawExample) rfl ⟨_, rfl, rfl⟩ hparse rfl
    (by decide) (fun _ => 0)
  obtain ⟨asked, hasked, hpdu⟩ := h.1 fun _ => 0
  have hevents := List.append_cancel_left (hlog.symm.trans hasked)
  cases hevents
  rw [hread] at hpdu
  exact absurd (rawCoilsRequest_pdu.1 (Prod.mk.inj (Option.some.inj hpdu)).2 1 (by decide))
    (by decide)

end Modbusmq
