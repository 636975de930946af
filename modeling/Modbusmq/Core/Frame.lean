import Mathlib.Data.List.GetD
import Mathlib.Tactic

/-!
# Frames and messages

A frame is a fixed buffer with two cursors: `length` bytes are to be moved and
`xmit` of them have been. The `is_writer` bit of the source is a type index
here, so a message always has one writer (`frame[0]`, the request) and one
reader (`frame[1]`, the response). Buffer contents are a function of the index;
that a client writes no index outside the 260 bytes is proved, not assumed, and
so is when the server does not.
-/

namespace Modbusmq

def frameMax : ℕ := 260

def readCoils : UInt8 := 0x01
def readDiscreteInputs : UInt8 := 0x02
def readHoldingRegisters : UInt8 := 0x03
def readInputRegisters : UInt8 := 0x04
def writeSingleCoil : UInt8 := 0x05
def writeSingleRegister : UInt8 := 0x06
def writeMultipleCoils : UInt8 := 0x0F
def writeMultipleRegisters : UInt8 := 0x10
def maskWriteRegister : UInt8 := 0x16

/-- Functions 1 to 4, whose replies carry a byte count. -/
def IsRead (function : UInt8) : Prop :=
  function = readCoils ∨ function = readDiscreteInputs ∨
    function = readHoldingRegisters ∨ function = readInputRegisters

/-- Functions 5, 6, 15, 16 and 22, answered by an echo of fixed size. -/
def IsWrite (function : UInt8) : Prop :=
  function = writeSingleCoil ∨ function = writeSingleRegister ∨
    function = writeMultipleCoils ∨ function = writeMultipleRegisters ∨
      function = maskWriteRegister

instance (function : UInt8) : Decidable (IsRead function) :=
  inferInstanceAs (Decidable (_ ∨ _))

instance (function : UInt8) : Decidable (IsWrite function) :=
  inferInstanceAs (Decidable (_ ∨ _))

def HasExceptionBit (function : UInt8) : Prop := function &&& 0x80 ≠ 0

instance (function : UInt8) : Decidable (HasExceptionBit function) :=
  inferInstanceAs (Decidable (_ ≠ _))

theorem IsRead.not_exception {function : UInt8} (h : IsRead function) :
    ¬ HasExceptionBit function := by
  rcases h with rfl | rfl | rfl | rfl <;> decide

theorem IsWrite.not_exception {function : UInt8} (h : IsWrite function) :
    ¬ HasExceptionBit function := by
  rcases h with rfl | rfl | rfl | rfl | rfl <;> decide

theorem IsWrite.not_read {function : UInt8} (h : IsWrite function) : ¬ IsRead function := by
  rcases h with rfl | rfl | rfl | rfl | rfl <;> decide

theorem hasExceptionBit_or (function : UInt8) : HasExceptionBit (function ||| 0x80) := by
  have habsorb : (function ||| 0x80) &&& 0x80 = 0x80 := by
    apply UInt8.toBitVec_inj.1
    ext i hi
    simp only [UInt8.toBitVec_and, UInt8.toBitVec_or, BitVec.getElem_and, BitVec.getElem_or]
    cases function.toBitVec[i] <;> simp
  unfold HasExceptionBit
  rw [habsorb]
  decide

theorem exceptionBit_cases (function : UInt8) :
    ¬ HasExceptionBit function ∨
      function = (function &&& 0x7f) ||| 0x80 ∧ function &&& 0x7f ≠ function := by
  have hall : ∀ n : Fin 256, ¬ HasExceptionBit (UInt8.ofFin n) ∨
      UInt8.ofFin n = (UInt8.ofFin n &&& 0x7f) ||| 0x80 ∧
        UInt8.ofFin n &&& 0x7f ≠ UInt8.ofFin n := by
    decide +kernel
  exact hall function.toFin

def byteOf (x : ℤ) : UInt8 := UInt8.ofNat (x % 256).toNat

def be16 (hi lo : UInt8) : ℕ := hi.toNat <<< 8 ||| lo.toNat

theorem be16_eq (hi lo : UInt8) : be16 hi lo = hi.toNat * 256 + lo.toNat := by
  unfold be16
  rw [← Nat.shiftLeft_add_eq_or_of_lt lo.toNat_lt, Nat.shiftLeft_eq]

theorem be16_lt (hi lo : UInt8) : be16 hi lo < 65536 := by
  rw [be16_eq]
  have h1 := hi.toNat_lt
  have h2 := lo.toNat_lt
  omega

theorem byteOf_toNat (x : ℤ) : ((byteOf x).toNat : ℤ) = x % 256 := by
  unfold byteOf
  rw [UInt8.toNat_ofNat']
  omega

theorem be16_byteOf (x : ℤ) : (be16 (byteOf (x / 256)) (byteOf x) : ℤ) = x % 65536 := by
  rw [be16_eq]
  push_cast
  rw [byteOf_toNat, byteOf_toNat]
  omega

/-- Which half of a message a frame is, the `is_writer` bit. -/
inductive Role
  | writer
  | reader
  deriving DecidableEq, Repr

structure Frame (role : Role) where
  length : ℕ
  xmit : ℕ
  buf : ℕ → UInt8

namespace Frame

variable {role : Role}

def zero (role : Role) : Frame role := ⟨0, 0, fun _ => 0⟩

def bytes (f : Frame role) (n : ℕ) : List UInt8 := (List.range n).map f.buf

def poke (f : Frame role) (i : ℕ) (b : UInt8) : Frame role :=
  { f with buf := Function.update f.buf i b }

def push (f : Frame role) (b : UInt8) : Frame role :=
  { f with buf := Function.update f.buf f.length b, length := f.length + 1 }

def pushAll (f : Frame role) (bs : List UInt8) : Frame role := bs.foldl push f

def resize (f : Frame role) (n : ℕ) : Frame role := { f with length := n }

/-- The byte count `length - xmit` handed to `read()` or `send()`. It is a C
`int` converted to a `size_t`, so a cursor past the length asks for nearly the
whole address space. -/
def window (f : Frame role) : ℕ := (f.length + 2 ^ 64 - f.xmit) % 2 ^ 64

/-- The bytes `read()` put behind the cursor, with the cursor moved past them. -/
def append (f : Frame role) (chunk : List UInt8) : Frame role :=
  { f with
    xmit := f.xmit + chunk.length
    buf := fun i =>
      if f.xmit ≤ i ∧ i < f.xmit + chunk.length then chunk.getD (i - f.xmit) 0 else f.buf i }

/-- A frame that holds exactly `held` behind zeroed memory and expects `length` bytes. -/
def holding (held : List UInt8) (length : ℕ) : Frame role :=
  ⟨length, held.length, fun i => held.getD i 0⟩

@[simp] theorem poke_xmit (f : Frame role) (i : ℕ) (b : UInt8) : (f.poke i b).xmit = f.xmit := rfl

@[simp] theorem resize_xmit (f : Frame role) (n : ℕ) : (f.resize n).xmit = f.xmit := rfl

@[simp] theorem resize_length (f : Frame role) (n : ℕ) : (f.resize n).length = n := rfl

@[simp] theorem bytes_length (f : Frame role) (n : ℕ) : (f.bytes n).length = n := by
  simp [bytes]

@[simp] theorem holding_length (held : List UInt8) (n : ℕ) :
    (holding held n : Frame role).length = n := rfl

@[simp] theorem holding_xmit (held : List UInt8) (n : ℕ) :
    (holding held n : Frame role).xmit = held.length := rfl

@[simp] theorem holding_buf (held : List UInt8) (n i : ℕ) :
    (holding held n : Frame role).buf i = held.getD i 0 := rfl

@[simp] theorem resize_holding (held : List UInt8) (n k : ℕ) :
    (holding held n : Frame role).resize k = holding held k := rfl

@[simp] theorem bytes_holding (held : List UInt8) (n : ℕ) :
    (holding held n : Frame role).bytes held.length = held := by
  apply List.ext_getElem
  · simp
  · intro i h1 h2
    simp [bytes, h2]

theorem pushAll_spec (f : Frame role) (bs : List UInt8) :
    (f.pushAll bs).length = f.length + bs.length ∧ (f.pushAll bs).xmit = f.xmit ∧
      ∀ i < f.length, (f.pushAll bs).buf i = f.buf i := by
  induction bs generalizing f with
  | nil => exact ⟨rfl, rfl, fun _ _ => rfl⟩
  | cons b bs ih =>
    obtain ⟨hlength, hxmit, hbuf⟩ := ih (f.push b)
    refine ⟨?_, hxmit, fun i hi => ?_⟩
    · change ((f.push b).pushAll bs).length = _
      rw [hlength]
      simp only [push, List.length_cons]
      omega
    · change ((f.push b).pushAll bs).buf i = _
      rw [hbuf i (Nat.lt_succ_of_lt hi)]
      exact Function.update_of_ne (Nat.ne_of_lt hi) _ _

theorem bytes_add (f : Frame role) (n k : ℕ) :
    f.bytes (n + k) = f.bytes n ++ (List.range k).map fun i => f.buf (n + i) := by
  unfold bytes
  rw [List.range_add, List.map_append, List.map_map]
  rfl

theorem bytes_pushAll (f : Frame role) (bs : List UInt8) :
    (f.pushAll bs).bytes (f.pushAll bs).length = f.bytes f.length ++ bs := by
  induction bs generalizing f with
  | nil => exact (List.append_nil _).symm
  | cons b bs ih =>
    have hpush : (f.push b).bytes (f.push b).length = f.bytes f.length ++ [b] := by
      unfold bytes push
      dsimp only
      rw [List.range_succ, List.map_append, List.map_singleton, Function.update_self]
      congr 1
      apply List.map_congr_left
      intro i hi
      exact Function.update_of_ne (List.mem_range.1 hi).ne _ _
    change ((f.push b).pushAll bs).bytes ((f.push b).pushAll bs).length = _
    rw [ih, hpush, List.append_assoc, List.singleton_append]

/-- Reading behind held bytes holds them and the chunk. -/
theorem append_holding (held chunk : List UInt8) (n : ℕ) :
    (holding held n : Frame role).append chunk = holding (held ++ chunk) n := by
  have hbuf : ∀ i, (if held.length ≤ i ∧ i < held.length + chunk.length then
      chunk.getD (i - held.length) 0 else held.getD i 0) = (held ++ chunk).getD i 0 := by
    intro i
    by_cases hlo : i < held.length
    · rw [if_neg (by omega), List.getD_append _ _ _ _ hlo]
    · have hle : held.length ≤ i := Nat.le_of_not_lt hlo
      rw [List.getD_append_right _ _ _ _ hle]
      by_cases hhi : i < held.length + chunk.length
      · rw [if_pos ⟨hle, hhi⟩]
      · rw [if_neg (by omega), List.getD_eq_default _ _ hle,
          List.getD_eq_default _ _ (by omega)]
  simp only [append, holding, List.length_append]
  congr 1
  exact funext hbuf

theorem window_eq {f : Frame role} (h : f.xmit ≤ f.length) (hmax : f.length ≤ frameMax) :
    f.window = f.length - f.xmit := by
  unfold window
  unfold frameMax at hmax
  omega

end Frame

/-- Two readers with the same received bytes and anything behind them. -/
structure SameReceived (r r' : Frame .reader) : Prop where
  length : r'.length = r.length
  xmit : r'.xmit = r.xmit
  buf : ∀ i < r.xmit, r'.buf i = r.buf i

/-- `modbusmq_msg_t`. Every request of the repository is built in `frame[0]`, so
the writer is `frame[0]` and the reader is `frame[1]`. `serial` is a ghost: it
names this one attempt the way the address of its memory would, and unlike
`req_id` it never wraps. -/
structure Msg where
  msgId : ℕ
  reqId : UInt32
  serial : ℕ
  writer : Frame .writer
  reader : Frame .reader

end Modbusmq
