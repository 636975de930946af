import Modbusmq.Configuration.KeyOrder
import Modbusmq.Configuration.Resolution
import Modbusmq.Library.Lines

/-!
# Connect strings

`modbusmq_parse_connect_string` looks for the protocol in the first word of a connect string, and
then scans the string by the format of the protocol. The string is the one in front of its NUL.
-/

namespace Modbusmq

open Json

inductive ConnectType
  | tcp
  | rtu
  | mqtt
  deriving DecidableEq

/-- `modbusmq_connect_t`; what a protocol does not use stays zero. -/
structure Connect where
  connectType : ConnectType
  device : List Char
  port : ℤ := 0
  parity : Char := '\x00'
  baudrate : ℤ := 0
  databits : ℤ := 0
  stopbit : ℤ := 0
  deriving DecidableEq

def strtok (delimiters text : List Char) : Option (List Char) :=
  let token := (text.dropWhile (· ∈ delimiters)).takeWhile (· ∉ delimiters)
  if token = [] then none else some token

/-- A literal and `%199[^:]` at the start of a `sscanf` format: the device and what follows it. -/
def scanDevice (scheme text : List Char) : Option (List Char × List Char) :=
  if scheme.isPrefixOf text then
    let rest := text.drop scheme.length
    let device := (rest.takeWhile (· ≠ ':')).take 199
    if device = [] then none else some (device, rest.drop device.length)
  else none

def scanColonInt : List Char → Option (ℤ × List Char)
  | ':' :: rest => scanDecimal rest
  | _ => none

def scanColonChar : List Char → Option Char
  | ':' :: ch :: _ => some ch
  | _ => none

def ConnectType.scheme : ConnectType → List Char
  | .tcp => "tcp://".toList
  | .rtu => "rtu://".toList
  | .mqtt => "mqtt://".toList

def scanHost (connectType : ConnectType) (input : List Char) : Option Connect :=
  (scanDevice connectType.scheme input).bind fun (device, rest) =>
    (scanColonInt rest).map fun (port, _) =>
      { connectType := connectType, device := device, port := port }

def scanSerial (input : List Char) : Option Connect :=
  (scanDevice ConnectType.rtu.scheme input).bind fun (device, rest) =>
    (scanColonInt rest).bind fun (baudrate, rest) =>
      (scanColonInt rest).bind fun (stopbit, rest) =>
        (scanColonInt rest).bind fun (databits, rest) =>
          (scanColonChar rest).map fun parity =>
            { connectType := .rtu, device := device, parity := parity, baudrate := baudrate,
              databits := databits, stopbit := stopbit }

/-- `modbusmq_parse_connect_string`, with its buffer of 200 bytes for the first word. -/
def parseConnectString (input : List Char) : Except ℤ Connect :=
  match strtok [':', '/'] (input.take 199) with
  | none => .error (-1)
  | some word =>
    match
      if "tcp".toList <:+: word then scanHost .tcp input
      else if "rtu".toList <:+: word then scanSerial input
      else if "mqtt".toList <:+: word then scanHost .mqtt input
      else none with
    | some connect => .ok connect
    | none => .error (-2)

/-- A device that a connect string can name. -/
structure NamesDevice (device : List Char) : Prop where
  ne : device ≠ []
  length_le : device.length ≤ 199
  plain : ':' ∉ device

/-- The connect strings and what they say; nothing is said behind the last number or the parity. -/
inductive Spells : List Char → Connect → Prop
  | host {t : ConnectType} (ht : t ≠ .rtu) {device rest tail : List Char} {port : ℤ}
      (hdevice : NamesDevice device) (hport : scanDecimal rest = some (port, tail)) :
      Spells (t.scheme ++ (device ++ ':' :: rest))
        { connectType := t, device := device, port := port }
  | serial {device rest₁ rest₂ rest₃ tail : List Char} {baudrate stopbit databits : ℤ}
      {parity : Char} (hdevice : NamesDevice device)
      (hbaudrate : scanDecimal rest₁ = some (baudrate, ':' :: rest₂))
      (hstopbit : scanDecimal rest₂ = some (stopbit, ':' :: rest₃))
      (hdatabits : scanDecimal rest₃ = some (databits, ':' :: parity :: tail)) :
      Spells (ConnectType.rtu.scheme ++ (device ++ ':' :: rest₁))
        { connectType := .rtu, device := device, parity := parity, baudrate := baudrate,
          databits := databits, stopbit := stopbit }

/-- A connection with the fields that its protocol uses, in their ranges and without a NUL. -/
inductive Connect.WellFormed : Connect → Prop
  | host {t : ConnectType} (ht : t ≠ .rtu) {device : List Char} {port : ℤ}
      (hdevice : NamesDevice device) (hnul : '\x00' ∉ device) (hport : -2 ^ 31 ≤ port ∧ port < 2 ^ 31) :
      WellFormed { connectType := t, device := device, port := port }
  | serial {device : List Char} {baudrate databits stopbit : ℤ} {parity : Char}
      (hdevice : NamesDevice device) (hnul : '\x00' ∉ device) (hparity : parity ≠ '\x00')
      (hbaudrate : -2 ^ 31 ≤ baudrate ∧ baudrate < 2 ^ 31)
      (hstopbit : -2 ^ 31 ≤ stopbit ∧ stopbit < 2 ^ 31)
      (hdatabits : -2 ^ 31 ≤ databits ∧ databits < 2 ^ 31) :
      WellFormed
        { connectType := .rtu, device := device, parity := parity, baudrate := baudrate,
          databits := databits, stopbit := stopbit }

def Connect.print (connect : Connect) : List Char :=
  connect.connectType.scheme ++ (connect.device ++ ':' ::
    match connect.connectType with
    | .rtu => decimalInt connect.baudrate ++ ':' :: (decimalInt connect.stopbit ++ ':' ::
        (decimalInt connect.databits ++ [':', connect.parity]))
    | _ => decimalInt connect.port)

structure ConnectStrings : Prop where
  /-- a string is accepted if it is a connect string, and for what it says -/
  accepted : ∀ input connect, parseConnectString input = .ok connect ↔ Spells input connect
  /-- what is printed is read back -/
  printed : ∀ connect : Connect, connect.WellFormed →
    parseConnectString connect.print = .ok connect
  /-- a bus that is opened as a serial line has the frame delay of one, and no other bus has -/
  delay : ∀ numerals (config resolved : ConfigFile) input connect,
    config.resolve numerals = some resolved → config.settings.frameDelayMs < 0 →
      config.settings.connect = some input → parseConnectString input = .ok connect →
        resolved.settings.frameDelayMs = if connect.connectType = .rtu then 50 else 0

theorem scanDevice_eq_some_iff {scheme input device rest : List Char} :
    scanDevice scheme input = some (device, ':' :: rest) ↔
      input = scheme ++ (device ++ ':' :: rest) ∧ NamesDevice device := by
  constructor
  · intro h
    unfold scanDevice at h
    split_ifs at h with hscheme
    obtain ⟨more, rfl⟩ := List.isPrefixOf_iff_prefix.1 hscheme
    rw [List.drop_left] at h
    dsimp only at h
    split_ifs at h with hne
    obtain ⟨hdevice, hrest⟩ := Prod.mk.inj (Option.some.inj h)
    have hwritten : device <+: more :=
      hdevice ▸ (List.take_prefix _ _).trans (List.takeWhile_prefix _)
    rw [hdevice] at hne hrest
    refine ⟨?_, hne, ?_, fun hcolon => ?_⟩
    · rw [← hrest, ← List.prefix_iff_eq_append.1 hwritten]
      simp
    · rw [← hdevice]
      exact List.length_take_le ..
    · rw [← hdevice] at hcolon
      simpa using List.mem_takeWhile_imp (List.mem_of_mem_take hcolon)
  · rintro ⟨rfl, hdevice⟩
    have hword : ∀ ch ∈ device, decide (ch ≠ ':') = true := fun ch hch =>
      decide_eq_true fun heq => hdevice.plain (heq ▸ hch)
    have hcolon : ∀ ch ∈ (':' :: rest).head?, ¬ decide (ch ≠ ':') = true := by
      intro ch hch
      obtain rfl : ':' = ch := Option.some.inj hch
      decide
    have htake := (Lines.takeWhile_cut hword hcolon).1
    unfold scanDevice
    rw [if_pos (List.isPrefixOf_iff_prefix.2 (List.prefix_append _ _)), List.drop_left]
    dsimp only
    rw [htake, List.take_of_length_le hdevice.length_le, if_neg hdevice.ne, List.drop_left]

theorem scanColonInt_eq_some_iff {text tail : List Char} {n : ℤ} :
    scanColonInt text = some (n, tail) ↔
      ∃ rest, text = ':' :: rest ∧ scanDecimal rest = some (n, tail) := by
  unfold scanColonInt
  split
  · rename_i rest
    exact ⟨fun h => ⟨rest, rfl, h⟩, fun ⟨_, heq, h⟩ => (List.cons.inj heq).2 ▸ h⟩
  · rename_i hno
    exact ⟨fun h => absurd h (by simp), fun ⟨rest, heq, _⟩ => absurd heq (hno rest)⟩

theorem scanColonChar_eq_some_iff {text : List Char} {ch : Char} :
    scanColonChar text = some ch ↔ ∃ tail, text = ':' :: ch :: tail := by
  unfold scanColonChar
  split
  · rename_i found tail
    constructor
    · intro h
      rw [Option.some.inj h]
      exact ⟨tail, rfl⟩
    · rintro ⟨_, heq⟩
      rw [(List.cons.inj (List.cons.inj heq).2).1]
  · rename_i hno
    exact ⟨fun h => absurd h (by simp), fun ⟨tail, heq⟩ => absurd heq (hno ch tail)⟩

theorem scanHost_spells {t : ConnectType} (ht : t ≠ .rtu) {input : List Char} {connect : Connect}
    (h : scanHost t input = some connect) : Spells input connect := by
  obtain ⟨⟨device, text⟩, hdevice, h⟩ := Option.bind_eq_some_iff.1 h
  obtain ⟨⟨port, tail⟩, hport, rfl⟩ := Option.map_eq_some_iff.1 h
  obtain ⟨rest, rfl, hscan⟩ := scanColonInt_eq_some_iff.1 hport
  obtain ⟨rfl, hnames⟩ := scanDevice_eq_some_iff.1 hdevice
  exact .host ht hnames hscan

theorem scanSerial_spells {input : List Char} {connect : Connect}
    (h : scanSerial input = some connect) : Spells input connect := by
  obtain ⟨⟨device, text₁⟩, hdevice, h⟩ := Option.bind_eq_some_iff.1 h
  obtain ⟨⟨baudrate, text₂⟩, hbaudrate, h⟩ := Option.bind_eq_some_iff.1 h
  obtain ⟨⟨stopbit, text₃⟩, hstopbit, h⟩ := Option.bind_eq_some_iff.1 h
  obtain ⟨⟨databits, text₄⟩, hdatabits, h⟩ := Option.bind_eq_some_iff.1 h
  obtain ⟨parity, hparity, rfl⟩ := Option.map_eq_some_iff.1 h
  obtain ⟨tail, rfl⟩ := scanColonChar_eq_some_iff.1 hparity
  obtain ⟨rest₃, rfl, hscan₃⟩ := scanColonInt_eq_some_iff.1 hdatabits
  obtain ⟨rest₂, rfl, hscan₂⟩ := scanColonInt_eq_some_iff.1 hstopbit
  obtain ⟨rest₁, rfl, hscan₁⟩ := scanColonInt_eq_some_iff.1 hbaudrate
  obtain ⟨rfl, hnames⟩ := scanDevice_eq_some_iff.1 hdevice
  exact .serial hnames hscan₁ hscan₂ hscan₃

/-- The first word of a connect string is its protocol. -/
theorem strtok_scheme (t : ConnectType) (rest : List Char) :
    strtok [':', '/'] ((t.scheme ++ rest).take 199) = some (match t with
      | .tcp => "tcp".toList
      | .rtu => "rtu".toList
      | .mqtt => "mqtt".toList) := by
  have htcp : "tcp://".toList = "tcp".toList ++ "://".toList := by decide +kernel
  have hrtu : "rtu://".toList = "rtu".toList ++ "://".toList := by decide +kernel
  have hmqtt : "mqtt://".toList = "mqtt".toList ++ "://".toList := by decide +kernel
  unfold strtok ConnectType.scheme
  cases t with
  | tcp => simp
  | rtu => simp
  | mqtt => simp

theorem Spells.accepted {input : List Char} {connect : Connect} (h : Spells input connect) :
    parseConnectString input = .ok connect := by
  have htcp : "tcp".toList <:+: "tcp".toList := List.infix_refl _
  have hrtu : ¬ "tcp".toList <:+: "rtu".toList := by decide +kernel
  have hmqtt : ¬ "tcp".toList <:+: "mqtt".toList ∧ ¬ "rtu".toList <:+: "mqtt".toList := by
    decide +kernel
  unfold parseConnectString
  cases h with
  | @host t ht device rest tail port hdevice hport =>
    have hscan : scanHost t (t.scheme ++ (device ++ ':' :: rest)) =
        some { connectType := t, device := device, port := port } := by
      unfold scanHost
      rw [scanDevice_eq_some_iff.2 ⟨rfl, hdevice⟩, Option.bind_some]
      dsimp only
      rw [scanColonInt_eq_some_iff.2 ⟨rest, rfl, hport⟩, Option.map_some]
    rw [strtok_scheme]
    cases t with
    | tcp =>
      dsimp only
      rw [if_pos htcp, hscan]
    | rtu => exact absurd rfl ht
    | mqtt =>
      dsimp only
      rw [if_neg hmqtt.1, if_neg hmqtt.2, if_pos (List.infix_refl _), hscan]
  | @serial device rest₁ rest₂ rest₃ tail baudrate stopbit databits parity hdevice hbaudrate
      hstopbit hdatabits =>
    have hscan : scanSerial (ConnectType.rtu.scheme ++ (device ++ ':' :: rest₁)) = some
        { connectType := .rtu, device := device, parity := parity, baudrate := baudrate,
          databits := databits, stopbit := stopbit } := by
      unfold scanSerial
      rw [scanDevice_eq_some_iff.2 ⟨rfl, hdevice⟩, Option.bind_some]
      dsimp only
      rw [scanColonInt_eq_some_iff.2 ⟨rest₁, rfl, hbaudrate⟩, Option.bind_some]
      dsimp only
      rw [scanColonInt_eq_some_iff.2 ⟨rest₂, rfl, hstopbit⟩, Option.bind_some]
      dsimp only
      rw [scanColonInt_eq_some_iff.2 ⟨rest₃, rfl, hdatabits⟩, Option.bind_some]
      dsimp only
      rw [scanColonChar_eq_some_iff.2 ⟨tail, rfl⟩, Option.map_some]
    rw [strtok_scheme]
    dsimp only
    rw [if_neg hrtu, if_pos (List.infix_refl _), hscan]

theorem parseConnectString_ok_iff {input : List Char} {connect : Connect} :
    parseConnectString input = .ok connect ↔ Spells input connect := by
  refine ⟨fun h => ?_, Spells.accepted⟩
  unfold parseConnectString at h
  split at h
  · contradiction
  · split at h
    · rename_i hscanned
      obtain rfl := Except.ok.inj h
      split_ifs at hscanned
      · exact scanHost_spells (by decide) hscanned
      · exact scanSerial_spells hscanned
      · exact scanHost_spells (by decide) hscanned
    · contradiction

theorem decimal_byte {n : ℕ} {b : UInt8} (h : b ∈ ascii (decimal n)) :
    48 ≤ b.toNat ∧ b.toNat ≤ 57 := by
  obtain ⟨ch, hch, rfl⟩ := List.mem_map.1 h
  obtain ⟨hcode, hbyte⟩ :=
    toNat_digit (Nat.isDigit_of_mem_toDigits (b := 10) (by decide) (by decide) hch)
  rwa [hbyte]

theorem digitOfByte_digit {b : UInt8} (h : 48 ≤ b.toNat ∧ b.toNat ≤ 57) :
    digitOfByte b = b.toNat - 48 := by
  unfold digitOfByte
  rw [if_pos (by rwa [UInt8.le_iff_toNat_le, UInt8.le_iff_toNat_le])]

theorem decimal_value (n : ℕ) :
    (ascii (decimal n)).foldl (fun n b => n * 10 + digitOfByte b) 0 = n := by
  have hdigits : ∀ ch ∈ decimal n, ch.isDigit := fun ch =>
    Nat.isDigit_of_mem_toDigits (by decide) (by decide)
  have hfold : ∀ (l : List Char) (m : ℕ), (∀ ch ∈ l, ch.isDigit) →
      (ascii l).foldl (fun n b => n * 10 + digitOfByte b) m = Nat.ofDigitChars 10 l m := by
    intro l
    induction l with
    | nil => exact fun m _ => rfl
    | cons ch l ih =>
      intro m hl
      obtain ⟨hcode, hbyte⟩ := toNat_digit (hl ch List.mem_cons_self)
      have hvalue : digitOfByte (UInt8.ofNat ch.toNat) = ch.toNat - 48 := by
        rw [digitOfByte_digit (hbyte.symm ▸ hcode), hbyte]
      rw [Nat.ofDigitChars_cons, ← ih _ fun c hc => hl c (List.mem_cons_of_mem _ hc), ascii,
        List.map_cons, List.foldl_cons, hvalue, Nat.mul_comm]
      rfl
  rw [hfold _ _ hdigits]
  exact Nat.ofDigitChars_ten_toDigits

theorem scanNumber_decimal (n : ℕ) {rest : List UInt8}
    (hrest : ∀ b ∈ rest.head?, ¬ digitOfByte b < 10) (negative : Bool) :
    scanNumber 10 ((if negative then [45] else []) ++ (ascii (decimal n) ++ rest)) =
      some (negative, n, rest) := by
  have hdigit : ∀ b ∈ ascii (decimal n), decide (digitOfByte b < 10) = true := fun b hb => by
    have hcode := decimal_byte hb
    rw [digitOfByte_digit hcode]
    exact decide_eq_true (by omega)
  obtain ⟨htake, hdrop⟩ := Lines.takeWhile_cut hdigit fun b hb => by simpa using hrest b hb
  have hne : ascii (decimal n) ≠ [] := by
    simp [ascii, decimal, Nat.toDigits_ne_nil]
  have hbase (text : List UInt8) : numberBase 10 text = (10, text) := if_pos (by decide)
  cases negative with
  | true =>
    have hspace : ([45] ++ (ascii (decimal n) ++ rest)).dropWhile isSpaceByte =
        45 :: (ascii (decimal n) ++ rest) := List.dropWhile_cons_of_neg (by decide)
    unfold scanNumber
    rw [if_pos rfl, hspace]
    split
    rename_i hmatch
    split at hmatch
    · rename_i bytes heq
      obtain ⟨rfl, rfl⟩ := Prod.mk.inj hmatch
      obtain rfl := (List.cons.inj heq).2
      rw [hbase]
      dsimp only
      rw [htake, if_neg hne, decimal_value, hdrop]
    · rename_i heq
      exact absurd (List.cons.inj heq).1 (by decide)
    · rename_i hno _
      exact absurd rfl (hno _)
  | false =>
    obtain ⟨b, digits, hbytes⟩ := List.exists_cons_of_ne_nil hne
    have hb : 48 ≤ b.toNat ∧ b.toNat ≤ 57 := decimal_byte (hbytes ▸ List.mem_cons_self)
    have hspace : (ascii (decimal n) ++ rest).dropWhile isSpaceByte =
        ascii (decimal n) ++ rest := by
      rw [hbytes]
      refine List.dropWhile_cons_of_neg ?_
      unfold isSpaceByte
      rw [decide_eq_true_eq, UInt8.le_iff_toNat_le, UInt8.le_iff_toNat_le]
      rintro (rfl | ⟨-, hle⟩)
      · exact absurd hb.1 (by decide)
      · have hle : b.toNat ≤ 13 := hle
        omega
    have hsign : ∀ bytes : List UInt8, ascii (decimal n) ++ rest ≠ 45 :: bytes ∧
        ascii (decimal n) ++ rest ≠ 43 :: bytes := by
      intro bytes
      rw [hbytes]
      refine ⟨fun h => ?_, fun h => ?_⟩ <;> obtain ⟨rfl, -⟩ := List.cons.inj h
      · exact absurd hb.1 (by decide)
      · exact absurd hb.1 (by decide)
    unfold scanNumber
    rw [if_neg Bool.false_ne_true, List.nil_append, hspace]
    split
    rename_i hmatch
    split at hmatch
    · rename_i bytes heq
      exact absurd heq (hsign bytes).1
    · rename_i bytes heq
      exact absurd heq (hsign bytes).2
    · obtain ⟨rfl, rfl⟩ := Prod.mk.inj hmatch
      rw [hbase]
      dsimp only
      rw [htake, if_neg hne, decimal_value, hdrop]

theorem scanDecimal_print {n : ℤ} (hn : -2 ^ 31 ≤ n ∧ n < 2 ^ 31) {rest : List Char}
    (hrest : ∀ b ∈ (ascii rest).head?, ¬ digitOfByte b < 10) :
    scanDecimal (decimalInt n ++ rest) = some (n, rest) := by
  have hscan : scanInt (ascii (decimalInt n ++ rest)) = some (n, ascii rest) := by
    unfold decimalInt scanInt
    split_ifs with hneg
    · have hread := scanNumber_decimal n.natAbs hrest true
      rw [if_pos rfl] at hread
      have hbytes : ascii ('-' :: decimal n.natAbs ++ rest) =
          [45] ++ (ascii (decimal n.natAbs) ++ ascii rest) := by
        simp [ascii]
      rw [hbytes, hread, Option.map_some]
      dsimp only
      rw [if_pos rfl, min_eq_left (by omega), Int.natCast_natAbs, abs_of_neg hneg, neg_neg,
        Int.bmod_eq_of_le (by omega) (by omega)]
    · have hread := scanNumber_decimal n.toNat hrest false
      rw [if_neg Bool.false_ne_true, List.nil_append] at hread
      have hbytes : ascii (decimal n.toNat ++ rest) = ascii (decimal n.toNat) ++ ascii rest :=
        List.map_append
      rw [hbytes, hread, Option.map_some]
      dsimp only
      rw [if_neg Bool.false_ne_true, min_eq_left (by omega), Int.toNat_of_nonneg (by omega),
        Int.bmod_eq_of_le (by omega) (by omega)]
  unfold scanDecimal
  rw [hscan, Option.map_some]
  dsimp only
  rw [length_ascii, List.length_append, Nat.add_sub_cancel_right, List.drop_left]

theorem Connect.WellFormed.spells {connect : Connect} (h : connect.WellFormed) :
    Spells connect.print connect := by
  have hcolon (more : List Char) : ∀ b ∈ (ascii (':' :: more)).head?, ¬ digitOfByte b < 10 := by
    intro b hb
    obtain rfl : 58 = b := Option.some.inj hb
    decide
  have hend : ∀ b ∈ (ascii []).head?, ¬ digitOfByte b < 10 :=
    fun b hb => absurd hb (by simp [ascii])
  cases h with
  | @host t ht device port hdevice _ hport =>
    have hscan := scanDecimal_print hport hend
    rw [List.append_nil] at hscan
    have hspells := Spells.host ht hdevice hscan
    unfold Connect.print
    cases t with
    | tcp => exact hspells
    | rtu => exact absurd rfl ht
    | mqtt => exact hspells
  | serial hdevice _ _ hbaudrate hstopbit hdatabits =>
    exact .serial hdevice (scanDecimal_print hbaudrate (hcolon _))
      (scanDecimal_print hstopbit (hcolon _)) (scanDecimal_print hdatabits (hcolon _))

theorem Spells.serial_iff {input : List Char} {connect : Connect} (h : Spells input connect) :
    ConnectType.rtu.scheme.isPrefixOf input ↔ connect.connectType = .rtu := by
  cases h with
  | @host t ht =>
    refine iff_of_false (fun hwritten => ?_) ht
    have htcp : "tcp://".toList = 't' :: "cp://".toList := by decide +kernel
    have hrtu : "rtu://".toList = 'r' :: "tu://".toList := by decide +kernel
    have hmqtt : "mqtt://".toList = 'm' :: "qtt://".toList := by decide +kernel
    unfold ConnectType.scheme at hwritten
    cases t with
    | tcp => simp [htcp, hrtu, List.isPrefixOf] at hwritten
    | rtu => exact ht rfl
    | mqtt => simp [hmqtt, hrtu, List.isPrefixOf] at hwritten
  | serial =>
    exact iff_of_true (List.isPrefixOf_iff_prefix.2 (List.prefix_append _ _)) rfl

section

variable {numerals : ConfigNumerals} {config config' : ConfigFile}

theorem ConfigFile.expand_settings (h : config.expand = some config') :
    config'.settings = config.settings := by
  obtain ⟨inputs, -, h⟩ := Option.bind_eq_some_iff.1 h
  obtain ⟨writes, -, h⟩ := Option.bind_eq_some_iff.1 h
  obtain rfl := Option.some.inj h
  rfl

theorem ConfigFile.settleTopics_settings (h : config.settleTopics = some config') :
    config'.settings = config.settings := by
  obtain ⟨inputs, -, h⟩ := Option.bind_eq_some_iff.1 h
  obtain ⟨writes, -, h⟩ := Option.bind_eq_some_iff.1 h
  obtain rfl := Option.some.inj h
  rfl

theorem ConfigFile.applyFormatVersion_settings :
    (config.applyFormatVersion numerals).settings = config.settings := by
  unfold ConfigFile.applyFormatVersion
  split_ifs <;> rfl

theorem ConfigFile.settleFrameDelay_settings (h : config.settings = config'.settings) :
    config.settleFrameDelay.settings = config'.settleFrameDelay.settings := by
  unfold ConfigFile.settleFrameDelay
  rw [h]
  split_ifs
  · rfl
  · rfl
  · exact h

/-- Behind its loop the parser settles nothing in the settings but the frame delay. -/
theorem ConfigFile.resolve_settings (h : config.resolve numerals = some config') :
    config'.settings = config.settleFrameDelay.settings := by
  obtain ⟨-, -, h⟩ := Option.bind_eq_some_iff.1 h
  obtain ⟨expanded, hexpanded, h⟩ := Option.bind_eq_some_iff.1 h
  obtain ⟨-, -, h⟩ := Option.bind_eq_some_iff.1 h
  obtain ⟨-, -, h⟩ := Option.bind_eq_some_iff.1 h
  obtain ⟨settled, -, h⟩ := Option.bind_eq_some_iff.1 h
  obtain ⟨named, hnamed, h⟩ := Option.bind_eq_some_iff.1 h
  obtain rfl := Option.some.inj h
  change named.settings = _
  rw [ConfigFile.settleTopics_settings hnamed]
  refine ConfigFile.settleFrameDelay_settings ?_
  change (expanded.applyFormatVersion numerals).settings = _
  rw [ConfigFile.applyFormatVersion_settings, ConfigFile.expand_settings hexpanded]

end

/-- Connect strings are read as they are printed, and the default of the frame delay takes the same
of them for serial lines as the library does. -/
theorem connect_strings_read : ConnectStrings where
  accepted _ _ := parseConnectString_ok_iff
  printed _ h := parseConnectString_ok_iff.2 h.spells
  delay numerals config resolved input connect hresolved hunset hconnect hok := by
    have hserial := (parseConnectString_ok_iff.1 hok).serial_iff
    rw [ConfigFile.resolve_settings hresolved]
    unfold ConfigFile.settleFrameDelay
    rw [if_pos hunset, hconnect]
    dsimp only
    by_cases hrtu : connect.connectType = .rtu
    · rw [if_pos hrtu, if_pos ⟨input, rfl, hserial.2 hrtu⟩]
    · rw [if_neg hrtu, if_neg]
      rintro ⟨_, hinput, hwritten⟩
      rw [Option.mem_def, Option.some.injEq] at hinput
      exact hrtu (hserial.1 (hinput ▸ hwritten))

/-- The parity stands behind the numbers. -/
example : parseConnectString "rtu:///dev/ttyUSB1:N:9600:1:8".toList = .error (-2) := by
  decide +kernel

def serialConfig : ConfigFile where
  settings := { defaultSettings with connect := some "rtu:///dev/ttyUSB1:9600:1:8:N".toList }
  inputs := []
  writes := []

theorem connect_strings_read_example : ∃ resolved,
    serialConfig.resolve digitNumerals = some resolved ∧ resolved.settings.frameDelayMs = 50 := by
  have haccepted : parseConnectString "rtu:///dev/ttyUSB1:9600:1:8:N".toList = .ok
      { connectType := .rtu, device := "/dev/ttyUSB1".toList, parity := 'N', baudrate := 9600,
        databits := 8, stopbit := 1 } := by decide +kernel
  have hsome : (serialConfig.resolve digitNumerals).isSome := by decide +kernel
  obtain ⟨resolved, hresolved⟩ := Option.isSome_iff_exists.1 hsome
  exact ⟨resolved, hresolved, connect_strings_read.delay digitNumerals serialConfig resolved _ _
    hresolved (by decide) rfl haccepted⟩

end Modbusmq
