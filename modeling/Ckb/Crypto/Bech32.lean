import Mathlib
import Ckb.Lib.Except

/-!
# Bech32

A model of `util/crypto/src/bech32`: `Bech32::encode`, `Bech32::decode` and
the BCH checksum of BIP-173 under them (`polymod`, `hrp_expand`,
`verify_checksum`, `create_checksum`).

A string is its UTF-8 bytes, which is how `decode` reads it (`len`, `bytes`);
the separator `'1'` is one byte and never part of a longer character, so
`find` and `rsplitn` act on the bytes alike.  The checksum accumulator is a
`u32` that no step takes past 30 bits (`polymodStep_lt`), so it is a `Nat`
here.
-/

namespace Ckb.Crypto

inductive Error where
  | missingSeparator
  | invalidChecksum
  | invalidLength
  | invalidChar (byte : UInt8)
  | invalidData (byte : UInt8)
  | mixedCase
  deriving DecidableEq, Repr

structure Bech32 where
  hrp : List UInt8
  data : List UInt8
  deriving DecidableEq, Repr

namespace Bech32

/-- `GEN`, the generator coefficients. -/
def gen : List Nat := [0x3b6a57b2, 0x26508e6d, 0x1ea119fa, 0x3d4233dd, 0x2a1462b3]

def sep : Char := '1'

def charset : List Char :=
  ['q', 'p', 'z', 'r', 'y', '9', 'x', '8', 'g', 'f', '2', 't', 'v', 'd', 'w', '0', 's', '3', 'j',
    'n', '5', '4', 'k', 'h', 'c', 'e', '6', 'm', 'u', 'a', '7', 'l']

/-- `CHARSET_IDX`: from an ASCII byte to its index in `charset`, `-1` for the
others. -/
def charsetIdx : List Int8 := [
  -1, -1, -1, -1, -1, -1, -1, -1, -1, -1, -1, -1, -1, -1, -1, -1,
  -1, -1, -1, -1, -1, -1, -1, -1, -1, -1, -1, -1, -1, -1, -1, -1,
  -1, -1, -1, -1, -1, -1, -1, -1, -1, -1, -1, -1, -1, -1, -1, -1,
  15, -1, 10, 17, 21, 20, 26, 30, 7, 5, -1, -1, -1, -1, -1, -1,
  -1, 29, -1, 24, 13, 25, 9, 8, 23, -1, 18, 22, 31, 27, 19, -1,
  1, 0, 3, 16, 11, 28, 12, 14, 6, 4, 2, -1, -1, -1, -1, -1,
  -1, 29, -1, 24, 13, 25, 9, 8, 23, -1, 18, 22, 31, 27, 19, -1,
  1, 0, 3, 16, 11, 28, 12, 14, 6, 4, 2, -1, -1, -1, -1, -1]

def isAsciiLowercase (b : UInt8) : Bool := decide (97 ≤ b ∧ b ≤ 122)

def isAsciiUppercase (b : UInt8) : Bool := decide (65 ≤ b ∧ b ≤ 90)

def toAsciiLowercase (b : UInt8) : UInt8 := if isAsciiUppercase b then b + 32 else b

def toAsciiUppercase (b : UInt8) : UInt8 := if isAsciiLowercase b then b - 32 else b

/-! ## The checksum -/

/-- The unrolled loop of `polymod`: `GEN[i]` for each bit `i` set in `b`. -/
def genMix (b chk : Nat) : Nat :=
  (List.range 5).foldl (fun chk i => if (b >>> i) &&& 1 = 1 then chk ^^^ gen.getD i 0 else chk) chk

def polymodStep (chk : Nat) (v : UInt8) : Nat :=
  genMix (chk >>> 25) ((chk &&& 0x1ffffff) <<< 5 ^^^ v.toNat)

def polymod (values : List UInt8) : Nat :=
  values.foldl polymodStep 1

def hrpExpand (hrp : List UInt8) : List UInt8 :=
  hrp.map (fun x : UInt8 => x >>> 5) ++ [0] ++ hrp.map (fun x : UInt8 => x &&& 0x1f)

def verifyChecksum (hrp data : List UInt8) : Bool :=
  polymod (hrpExpand hrp ++ data) == 1

def createChecksum (hrp data : List UInt8) : List UInt8 :=
  let values := hrpExpand hrp ++ data ++ List.replicate 6 0
  let plm := polymod values ^^^ 1
  (List.range 6).foldl (fun acc x => acc ++ [((plm >>> (5 * (5 - x))) &&& 0x1f).toUInt8]) []

/-! ## Encoding and decoding -/

/-- `CHARSET[p]`, as the byte it is. -/
def charsetByte (p : UInt8) : UInt8 := (charset.getD p.toNat 'q').toUInt8

/-- The loop of `encode` over the data and the checksum. -/
def encodeSymbol (encoded : List UInt8) (p : UInt8) : Except Error (List UInt8) :=
  if p ≥ 32 then .error (.invalidData p)
  else .ok (encoded ++ [charsetByte p])

def encode (self : Bech32) : Except Error (List UInt8) := do
  if self.hrp.isEmpty then throw .invalidLength
  let combined := self.data ++ createChecksum self.hrp self.data
  combined.foldlM encodeSymbol (self.hrp ++ [sep.toUInt8])

/-- `s.rsplitn(2, SEP)` on a string that holds the separator: what stands
before its last occurrence (`parts[1]`) and what stands after it
(`parts[0]`). -/
def splitLast (s : List UInt8) : List UInt8 × List UInt8 :=
  (((s.reverse.dropWhile (· != sep.toUInt8)).drop 1).reverse,
    (s.reverse.takeWhile (· != sep.toUInt8)).reverse)

/-- `if b.is_ascii_uppercase() { b.to_ascii_lowercase() } else { b }`. -/
def foldCase (b : UInt8) : UInt8 := if isAsciiUppercase b then toAsciiLowercase b else b

/-- `CHARSET_IDX[c] as u8`: `-1` becomes 255. -/
def charsetIndex (c : UInt8) : UInt8 := (charsetIdx.getD c.toNat (-1)).toUInt8

/-- What the two loops of `decode` carry: the case flags, and the bytes they
push. -/
structure Scan where
  hasLower : Bool
  hasUpper : Bool
  bytes : List UInt8
  deriving DecidableEq, Repr

/-- The case handling both loops share: note a lowercase or an uppercase
byte, and push the lowercased byte through `symbol`. -/
def Scan.push (scan : Scan) (b : UInt8) (symbol : UInt8 → UInt8) : Scan :=
  ⟨scan.hasLower || isAsciiLowercase b, scan.hasUpper || isAsciiUppercase b,
    scan.bytes ++ [symbol (foldCase b)]⟩

/-- The loop over the bytes of the human-readable part. -/
def hrpByte (scan : Scan) (b : UInt8) : Except Error Scan :=
  if b < 33 ∨ b > 126 then .error (.invalidChar b)
  else .ok (scan.push b id)

/-- The loop over the bytes of the data part; the byte it looks up in
`CHARSET_IDX` is ASCII, inside the table. -/
def dataByte (scan : Scan) (b : UInt8) : Except Error Scan :=
  if ¬((48 ≤ b ∧ b ≤ 57) ∨ (65 ≤ b ∧ b ≤ 90) ∨ (97 ≤ b ∧ b ≤ 122)) then .error (.invalidChar b)
  else if b = 49 ∨ b = 98 ∨ b = 105 ∨ b = 111 then .error (.invalidChar b)
  else .ok (scan.push b charsetIndex)

/-- `Bech32::decode`.  `String::from_utf8` of the human-readable part cannot
fail: its bytes passed the check for ASCII 33 to 126. -/
def decode (s : List UInt8) : Except Error Bech32 := do
  let len := s.length
  if len < 8 ∨ len > 90 then throw .invalidLength
  if sep.toUInt8 ∉ s then throw .missingSeparator
  let (rawHrp, rawData) := splitLast s
  if rawHrp.isEmpty ∨ rawData.length < 6 then throw .invalidLength
  let hrpScan ← rawHrp.foldlM hrpByte ⟨false, false, []⟩
  let dataScan ← rawData.foldlM dataByte ⟨hrpScan.hasLower, hrpScan.hasUpper, []⟩
  if dataScan.hasLower ∧ dataScan.hasUpper then throw .mixedCase
  if !verifyChecksum hrpScan.bytes dataScan.bytes then throw .invalidChecksum
  pure ⟨hrpScan.bytes, dataScan.bytes.take (dataScan.bytes.length - 6)⟩

/-! ## The checksum is affine in the symbols

A step of `polymod` adds its symbol by xor, and a change below bit 25 of the
accumulator only moves five bits up; so the last six symbols, each below 32,
enter the result as one 30-bit word, which `create_checksum` picks to make the
result `1`. -/

section Checksum

theorem genMix_xor (b chk x : Nat) : genMix b (chk ^^^ x) = genMix b chk ^^^ x := by
  unfold genMix
  generalize List.range 5 = indices
  induction indices generalizing chk with
  | nil => rfl
  | cons i rest induction =>
      simp only [List.foldl_cons]
      by_cases set : (b >>> i) &&& 1 = 1
      · rw [if_pos set, if_pos set, Nat.xor_assoc, Nat.xor_comm x, ← Nat.xor_assoc]
        exact induction _
      · rw [if_neg set, if_neg set]
        exact induction _

theorem polymodStep_symbol (chk : Nat) (v : UInt8) :
    polymodStep chk v = polymodStep chk 0 ^^^ v.toNat := by
  unfold polymodStep
  rw [← genMix_xor, UInt8.toNat_zero, Nat.xor_zero]

theorem polymodStep_xor_low (chk x : Nat) (v : UInt8) (low : x < 2 ^ 25) :
    polymodStep (chk ^^^ x) v = polymodStep chk v ^^^ (x <<< 5) := by
  have top : (chk ^^^ x) >>> 25 = chk >>> 25 := by
    rw [Nat.shiftRight_xor_distrib, Nat.shiftRight_eq_zero x 25 low, Nat.xor_zero]
  have masked : (chk ^^^ x) &&& 0x1ffffff = (chk &&& 0x1ffffff) ^^^ x := by
    have mask : (0x1ffffff : Nat) = 2 ^ 25 - 1 := rfl
    rw [Nat.and_xor_distrib_right, mask, Nat.and_two_pow_sub_one_eq_mod x, Nat.mod_eq_of_lt low]
  unfold polymodStep
  rw [top, masked, Nat.shiftLeft_xor_distrib, Nat.xor_assoc, Nat.xor_comm (x <<< 5),
    ← Nat.xor_assoc, genMix_xor]

theorem foldl_polymodStep_xor (values : List UInt8) (chk x : Nat)
    (small : x <<< (5 * values.length) < 2 ^ 30) :
    values.foldl polymodStep (chk ^^^ x) =
      values.foldl polymodStep chk ^^^ (x <<< (5 * values.length)) := by
  induction values generalizing chk x with
  | nil => simp
  | cons v rest induction =>
      have low : x < 2 ^ 25 := by
        have grows : x * 2 ^ 5 ≤ x * 2 ^ (5 * (rest.length + 1)) :=
          Nat.mul_le_mul_left x (Nat.pow_le_pow_right (by decide) (by omega))
        rw [List.length_cons, Nat.shiftLeft_eq] at small
        rw [show (2 : Nat) ^ 5 = 32 from rfl] at grows
        omega
      have shifted : x <<< (5 * (rest.length + 1)) = x <<< 5 <<< (5 * rest.length) := by
        rw [← Nat.shiftLeft_add]
        congr 1
        omega
      rw [List.length_cons, shifted] at small ⊢
      rw [List.foldl_cons, List.foldl_cons, polymodStep_xor_low chk x v low]
      exact induction _ _ small

/-- The symbols of a word, five bits each, the first the highest. -/
def pack : List UInt8 → Nat
  | [] => 0
  | c :: rest => c.toNat <<< (5 * rest.length) ^^^ pack rest

theorem foldl_polymodStep_symbols (symbols : List UInt8) (chk : Nat) (short : symbols.length ≤ 6)
    (small : ∀ c ∈ symbols, c.toNat < 32) :
    symbols.foldl polymodStep chk =
      (List.replicate symbols.length 0).foldl polymodStep chk ^^^ pack symbols := by
  induction symbols generalizing chk with
  | nil => simp [pack]
  | cons c rest induction =>
      have restShort : rest.length ≤ 5 := by
        rw [List.length_cons] at short
        omega
      have fits : c.toNat <<< (5 * rest.length) < 2 ^ 30 := by
        have room : 2 ^ (5 * rest.length) ≤ 2 ^ 25 := Nat.pow_le_pow_right (by decide) (by omega)
        rw [Nat.shiftLeft_eq]
        calc c.toNat * 2 ^ (5 * rest.length)
            < 32 * 2 ^ (5 * rest.length) :=
              Nat.mul_lt_mul_of_pos_right (small c List.mem_cons_self) (Nat.two_pow_pos _)
          _ ≤ 32 * 2 ^ 25 := Nat.mul_le_mul_left 32 room
          _ = 2 ^ 30 := by decide
      rw [List.foldl_cons, polymodStep_symbol, foldl_polymodStep_xor rest _ _ fits,
        induction _ (by omega) fun d member => small d (List.mem_cons_of_mem _ member),
        List.length_cons, List.replicate_succ, List.foldl_cons, pack, Nat.xor_assoc,
        Nat.xor_comm (pack rest)]

theorem genMix_lt {b chk : Nat} (below : chk < 2 ^ 30) : genMix b chk < 2 ^ 30 := by
  have gens : ∀ i, gen.getD i 0 < 2 ^ 30 := by
    intro i
    rw [List.getD_eq_getElem?_getD]
    cases found : gen[i]? with
    | none => exact Nat.two_pow_pos _
    | some g =>
        have member : g ∈ gen := List.mem_of_getElem? found
        exact (by decide : ∀ g ∈ gen, g < 2 ^ 30) g member
  unfold genMix
  generalize List.range 5 = indices
  induction indices generalizing chk with
  | nil => exact below
  | cons i rest induction =>
      rw [List.foldl_cons]
      apply induction
      split
      · exact Nat.xor_lt_two_pow below (gens i)
      · exact below

theorem polymodStep_lt (chk : Nat) (v : UInt8) : polymodStep chk v < 2 ^ 30 := by
  have masked : chk &&& 0x1ffffff < 2 ^ 25 := Nat.and_lt_two_pow chk (by decide)
  have shifted : (chk &&& 0x1ffffff) <<< 5 < 2 ^ 30 := by
    rw [Nat.shiftLeft_eq]
    omega
  have symbol : v.toNat < 2 ^ 30 := Nat.lt_trans v.toNat_lt (by decide : (2 : Nat) ^ 8 < 2 ^ 30)
  exact genMix_lt (Nat.xor_lt_two_pow shifted symbol)

theorem foldl_polymodStep_lt {values : List UInt8} {chk : Nat} (below : chk < 2 ^ 30) :
    values.foldl polymodStep chk < 2 ^ 30 := by
  induction values generalizing chk with
  | nil => exact below
  | cons v rest induction => exact induction (polymodStep_lt chk v)

theorem digit_xor_mod (plm n : Nat) :
    ((plm >>> n) &&& 31) <<< n ^^^ plm % 2 ^ n = plm % 2 ^ (n + 5) := by
  apply Nat.eq_of_testBit_eq
  intro i
  have digitMask : (31 : Nat) = 2 ^ 5 - 1 := rfl
  rw [digitMask]
  simp only [Nat.testBit_xor, Nat.testBit_shiftLeft, Nat.testBit_and, Nat.testBit_shiftRight,
    Nat.testBit_two_pow_sub_one, Nat.testBit_mod_two_pow]
  by_cases below : i < n
  · simp [below, show i < n + 5 by omega, show ¬n ≤ i by omega]
  · have back : n + (i - n) = i := by omega
    by_cases within : i < n + 5
    · simp [below, within, back, show n ≤ i by omega, show i - n < 5 by omega]
    · simp [below, within, show ¬i - n < 5 by omega]

theorem pack_digits (plm k : Nat) :
    pack ((List.range k).map fun x => ((plm >>> (5 * (k - 1 - x))) &&& 0x1f).toUInt8) =
      plm % 2 ^ (5 * k) := by
  induction k with
  | zero => simp [pack, Nat.mod_one]
  | succ k induction =>
      have digit : ∀ n, ((plm >>> n) &&& 0x1f).toUInt8.toNat = (plm >>> n) &&& 31 := by
        intro n
        rw [Nat.toUInt8_eq, UInt8.toNat_ofNat', Nat.mod_eq_of_lt]
        exact Nat.lt_of_le_of_lt Nat.and_le_right (by decide : (0x1f : Nat) < 2 ^ 8)
      rw [List.range_succ_eq_map, List.map_cons, List.map_map, pack, List.length_map,
        List.length_range, digit]
      have shifted : (fun x => ((plm >>> (5 * (k + 1 - 1 - x))) &&& 0x1f).toUInt8) ∘ Nat.succ =
          fun x => ((plm >>> (5 * (k - 1 - x))) &&& 0x1f).toUInt8 := by
        funext x
        simp only [Function.comp_apply]
        congr 3
        omega
      rw [shifted, induction, show k + 1 - 1 - 0 = k by omega, digit_xor_mod,
        show 5 * (k + 1) = 5 * k + 5 by omega]

theorem foldl_append_singleton {α β : Type} (f : α → β) (indices : List α) (init : List β) :
    indices.foldl (fun acc x => acc ++ [f x]) init = init ++ indices.map f := by
  induction indices generalizing init with
  | nil => simp
  | cons x rest induction => simp [induction]

theorem createChecksum_eq (hrp data : List UInt8) :
    createChecksum hrp data =
      (List.range 6).map fun x =>
        (((polymod (hrpExpand hrp ++ data ++ List.replicate 6 0) ^^^ 1) >>> (5 * (6 - 1 - x)))
          &&& 0x1f).toUInt8 := by
  rw [createChecksum, foldl_append_singleton, List.nil_append]

theorem createChecksum_length (hrp data : List UInt8) : (createChecksum hrp data).length = 6 := by
  rw [createChecksum_eq, List.length_map, List.length_range]

theorem createChecksum_lt {hrp data : List UInt8} : ∀ c ∈ createChecksum hrp data, c.toNat < 32 := by
  intro c member
  rw [createChecksum_eq] at member
  obtain ⟨x, -, rfl⟩ := List.mem_map.mp member
  rw [Nat.toUInt8_eq, UInt8.toNat_ofNat']
  exact Nat.lt_of_le_of_lt (Nat.mod_le _ _) (Nat.lt_of_le_of_lt Nat.and_le_right (by decide : (0x1f : Nat) < 32))

theorem forall_mem_append_createChecksum {P : UInt8 → Prop} {hrp data : List UInt8}
    (onData : ∀ p ∈ data, P p) (onSymbol : ∀ p : UInt8, p.toNat < 32 → P p) :
    ∀ p ∈ data ++ createChecksum hrp data, P p := by
  intro p member
  rcases List.mem_append.mp member with listed | checksum
  · exact onData p listed
  · exact onSymbol p (createChecksum_lt p checksum)

theorem verifyChecksum_createChecksum (hrp data : List UInt8) :
    verifyChecksum hrp (data ++ createChecksum hrp data) = true := by
  have zeros : polymod (hrpExpand hrp ++ data ++ List.replicate 6 0) =
      (List.replicate 6 0).foldl polymodStep (polymod (hrpExpand hrp ++ data)) := by
    rw [polymod, polymod, List.foldl_append]
  have residue : polymod (hrpExpand hrp ++ data ++ List.replicate 6 0) ^^^ 1 < 2 ^ 30 :=
    Nat.xor_lt_two_pow (foldl_polymodStep_lt (by decide)) (by decide)
  have word : pack (createChecksum hrp data) =
      polymod (hrpExpand hrp ++ data ++ List.replicate 6 0) ^^^ 1 := by
    rw [createChecksum_eq, pack_digits, Nat.mod_eq_of_lt residue]
  rw [verifyChecksum, beq_iff_eq, polymod, ← List.append_assoc, List.foldl_append,
    foldl_polymodStep_symbols _ _ (Nat.le_of_eq (createChecksum_length hrp data)) createChecksum_lt,
    createChecksum_length, ← polymod, ← zeros, word, ← Nat.xor_assoc, Nat.xor_self, Nat.zero_xor]

end Checksum

/-! ## Decoding what `encode` writes -/

section Loops

theorem foldlM_push {step : Scan → UInt8 → Except Error Scan} {symbol : UInt8 → UInt8}
    {bytes : List UInt8} (pushes : ∀ scan, ∀ b ∈ bytes, step scan b = .ok (scan.push b symbol))
    (scan : Scan) :
    bytes.foldlM step scan = .ok ⟨scan.hasLower || bytes.any isAsciiLowercase,
      scan.hasUpper || bytes.any isAsciiUppercase, scan.bytes ++ bytes.map (symbol ∘ foldCase)⟩ := by
  induction bytes generalizing scan with
  | nil =>
      cases scan
      simp only [List.foldlM_nil, List.any_nil, Bool.or_false, List.map_nil, List.append_nil]
      rfl
  | cons b rest induction =>
      rw [List.foldlM_cons, pushes scan b List.mem_cons_self, Except.ok_bind,
        induction fun scan' b' member => pushes scan' b' (List.mem_cons_of_mem _ member)]
      simp only [Scan.push, List.any_cons, Bool.or_assoc, List.map_cons, List.append_assoc,
        List.singleton_append, Function.comp_apply]

theorem hrpByte_eq_push {b : UInt8} (printable : 33 ≤ b ∧ b ≤ 126) (scan : Scan) :
    hrpByte scan b = .ok (scan.push b id) := by
  have inside : ¬(b < 33 ∨ b > 126) := by
    simp only [UInt8.lt_iff_toNat_lt, UInt8.le_iff_toNat_le] at printable ⊢
    omega
  rw [hrpByte, if_neg inside]

/-- A byte the data loop takes, and the symbol it reads. -/
def Reads (c p : UInt8) : Prop :=
  ((48 ≤ c ∧ c ≤ 57) ∨ (65 ≤ c ∧ c ≤ 90) ∨ (97 ≤ c ∧ c ≤ 122)) ∧
    ¬(c = 49 ∨ c = 98 ∨ c = 105 ∨ c = 111) ∧ charsetIndex (foldCase c) = p

instance (c p : UInt8) : Decidable (Reads c p) := inferInstanceAs (Decidable (_ ∧ _ ∧ _))

theorem Reads.dataByte_eq_push {c p : UInt8} (reads : Reads c p) (scan : Scan) :
    dataByte scan c = .ok (scan.push c charsetIndex) := by
  rw [dataByte, if_neg (not_not_intro reads.1), if_neg reads.2.1]

theorem Reads.ne_sep {c p : UInt8} (reads : Reads c p) : c ≠ sep.toUInt8 :=
  fun same => reads.2.1 (.inl same)

theorem foldlM_dataByte_reads {symbols : List UInt8} {write : UInt8 → UInt8}
    (reads : ∀ p ∈ symbols, Reads (write p) p) (scan : Scan) :
    (symbols.map write).foldlM dataByte scan =
      .ok ⟨scan.hasLower || (symbols.map write).any isAsciiLowercase,
        scan.hasUpper || (symbols.map write).any isAsciiUppercase, scan.bytes ++ symbols⟩ := by
  have pushes : ∀ scan, ∀ c ∈ symbols.map write, dataByte scan c = .ok (scan.push c charsetIndex) := by
    intro scan c member
    obtain ⟨p, listed, rfl⟩ := List.mem_map.mp member
    exact (reads p listed).dataByte_eq_push scan
  have back : (symbols.map write).map (charsetIndex ∘ foldCase) = symbols := by
    rw [List.map_map]
    conv => rhs; rw [← List.map_id symbols]
    exact List.map_congr_left fun p listed => (reads p listed).2.2
  rw [foldlM_push pushes, back]

end Loops

section Decode

theorem splitLast_append {rawHrp rawData : List UInt8} (noSep : sep.toUInt8 ∉ rawData) :
    splitLast (rawHrp ++ sep.toUInt8 :: rawData) = (rawHrp, rawData) := by
  have kept : ∀ c ∈ rawData.reverse, (c != sep.toUInt8) = true := by
    intro c member
    rw [List.mem_reverse] at member
    exact bne_iff_ne.mpr fun same => noSep (same ▸ member)
  have reversed : (rawHrp ++ sep.toUInt8 :: rawData).reverse =
      rawData.reverse ++ sep.toUInt8 :: rawHrp.reverse := by
    simp
  rw [splitLast, reversed, List.takeWhile_append_of_pos kept, List.dropWhile_append_of_pos kept,
    List.takeWhile_cons_of_neg (by simp), List.dropWhile_cons_of_neg (by simp)]
  simp

/-- `decode` on a string whose data part holds no separator, when both loops
and all the checks pass: the checksum is cut off. -/
theorem decode_eq_ok {rawHrp rawData : List UInt8} {hrpScan dataScan : Scan}
    (noSep : sep.toUInt8 ∉ rawData)
    (fits : 8 ≤ rawHrp.length + rawData.length + 1 ∧ rawHrp.length + rawData.length + 1 ≤ 90)
    (named : rawHrp ≠ []) (long : 6 ≤ rawData.length)
    (hrpLoop : rawHrp.foldlM hrpByte ⟨false, false, []⟩ = .ok hrpScan)
    (dataLoop : rawData.foldlM dataByte ⟨hrpScan.hasLower, hrpScan.hasUpper, []⟩ = .ok dataScan)
    (oneCase : ¬(dataScan.hasLower = true ∧ dataScan.hasUpper = true))
    (checks : verifyChecksum hrpScan.bytes dataScan.bytes = true) :
    decode (rawHrp ++ sep.toUInt8 :: rawData) =
      .ok ⟨hrpScan.bytes, dataScan.bytes.take (dataScan.bytes.length - 6)⟩ := by
  have length : (rawHrp ++ sep.toUInt8 :: rawData).length = rawHrp.length + rawData.length + 1 := by
    simp only [List.length_append, List.length_cons]
    omega
  have bounded : ¬((rawHrp ++ sep.toUInt8 :: rawData).length < 8 ∨
      (rawHrp ++ sep.toUInt8 :: rawData).length > 90) := by
    rw [length]
    omega
  have present : sep.toUInt8 ∈ rawHrp ++ sep.toUInt8 :: rawData :=
    List.mem_append_right _ List.mem_cons_self
  have parts : ¬(rawHrp.isEmpty = true ∨ rawData.length < 6) := by
    rintro (empty | short)
    · exact named (List.isEmpty_iff.mp empty)
    · omega
  rw [decode]
  simp only [bounded, present, splitLast_append noSep, parts, hrpLoop, Except.ok_bind,
    if_false, not_true_eq_false, dataLoop, oneCase, checks, Bool.not_true, Bool.false_eq_true]
  rfl

end Decode

section Encode

theorem encodeSymbol_of_lt {p : UInt8} (small : p.toNat < 32) (encoded : List UInt8) :
    encodeSymbol encoded p = .ok (encoded ++ [charsetByte p]) := by
  have below : ¬p ≥ 32 := by
    rw [ge_iff_le, UInt8.le_iff_toNat_le]
    simpa using small
  rw [encodeSymbol, if_neg below]

theorem foldlM_encodeSymbol {symbols : List UInt8} (small : ∀ p ∈ symbols, p.toNat < 32)
    (encoded : List UInt8) :
    symbols.foldlM encodeSymbol encoded = .ok (encoded ++ symbols.map charsetByte) := by
  induction symbols generalizing encoded with
  | nil => simp
  | cons p rest induction =>
      rw [List.foldlM_cons, encodeSymbol_of_lt (small p List.mem_cons_self), Except.ok_bind,
        induction fun q member => small q (List.mem_cons_of_mem _ member)]
      simp

theorem foldlM_encodeSymbol_error {symbols : List UInt8}
    (small : ∀ p ∈ symbols, p.toNat < 32 ∨ p = 255) (excluded : 255 ∈ symbols)
    (encoded : List UInt8) :
    symbols.foldlM encodeSymbol encoded = .error (.invalidData 255) := by
  induction symbols generalizing encoded with
  | nil => exact absurd excluded List.not_mem_nil
  | cons p rest induction =>
      rw [List.foldlM_cons]
      rcases small p List.mem_cons_self with below | rfl
      · -- the symbol 255 is further on
        have later : (255 : UInt8) ∈ rest := by
          rcases List.mem_cons.mp excluded with same | later
          · rw [← same] at below
            exact absurd below (by decide)
          · exact later
        rw [encodeSymbol_of_lt below, Except.ok_bind,
          induction (fun q member => small q (List.mem_cons_of_mem _ member)) later]
      · rw [encodeSymbol, if_pos (by decide), Except.error_bind]

theorem encode_eq_ok {b : Bech32} (named : b.hrp ≠ []) (symbols : ∀ p ∈ b.data, p.toNat < 32) :
    b.encode =
      .ok (b.hrp ++ sep.toUInt8 :: (b.data ++ createChecksum b.hrp b.data).map charsetByte) := by
  have small : ∀ p ∈ b.data ++ createChecksum b.hrp b.data, p.toNat < 32 :=
    forall_mem_append_createChecksum symbols fun _ below => below
  have listed : b.hrp.isEmpty = false := List.isEmpty_eq_false_iff.mpr named
  simp only [encode, listed, Bool.false_eq_true, if_false, foldlM_encodeSymbol small]
  simp

theorem encode_eq_error {b : Bech32} (named : b.hrp ≠ [])
    (symbols : ∀ p ∈ b.data, p.toNat < 32 ∨ p = 255) (excluded : 255 ∈ b.data) :
    b.encode = .error (.invalidData 255) := by
  have listed : b.hrp.isEmpty = false := List.isEmpty_eq_false_iff.mpr named
  simp only [encode, listed, Bool.false_eq_true, if_false, List.foldlM_append,
    foldlM_encodeSymbol_error symbols excluded, Except.error_bind]

end Encode

/-! ## Round trips -/

section RoundTrip

theorem charsetByte_reads : ∀ p : Fin 32,
    Reads (charsetByte (UInt8.ofNat p)) (UInt8.ofNat p) ∧
      isAsciiUppercase (charsetByte (UInt8.ofNat p)) = false := by
  decide

theorem charsetByte_reads_of_lt {p : UInt8} (small : p.toNat < 32) :
    Reads (charsetByte p) p ∧ isAsciiUppercase (charsetByte p) = false := by
  simpa only [UInt8.ofNat_toNat] using charsetByte_reads ⟨p.toNat, small⟩

theorem foldCase_of_not_upper {c : UInt8} (lower : isAsciiUppercase c = false) : foldCase c = c := by
  rw [foldCase, if_neg (by rw [lower]; decide)]

/-- `decode` of a human-readable part, the separator, and bytes that read as
the data and its checksum, all in one case: the data comes back, with the
human-readable part lowercased. -/
theorem decode_written {hrp data : List UInt8} {write : UInt8 → UInt8} (named : hrp ≠ [])
    (printable : ∀ c ∈ hrp, 33 ≤ c ∧ c ≤ 126)
    (reads : ∀ p ∈ data ++ createChecksum (hrp.map foldCase) data, Reads (write p) p)
    (oneCase : ¬((hrp.any isAsciiLowercase ||
        ((data ++ createChecksum (hrp.map foldCase) data).map write).any isAsciiLowercase) = true ∧
      (hrp.any isAsciiUppercase ||
        ((data ++ createChecksum (hrp.map foldCase) data).map write).any isAsciiUppercase) = true))
    (fits : 8 ≤ hrp.length + data.length + 7 ∧ hrp.length + data.length + 7 ≤ 90) :
    decode (hrp ++ sep.toUInt8 :: (data ++ createChecksum (hrp.map foldCase) data).map write) =
      .ok ⟨hrp.map foldCase, data⟩ := by
  have written : (data ++ createChecksum (hrp.map foldCase) data).length = data.length + 6 := by
    rw [List.length_append, createChecksum_length]
  have noSep : sep.toUInt8 ∉ (data ++ createChecksum (hrp.map foldCase) data).map write := by
    intro member
    obtain ⟨p, listed, same⟩ := List.mem_map.mp member
    exact (reads p listed).ne_sep same
  have hrpLoop := foldlM_push (fun scan c member => hrpByte_eq_push (printable c member) scan)
    (⟨false, false, []⟩ : Scan)
  have dataLoop := foldlM_dataByte_reads reads
    ⟨false || hrp.any isAsciiLowercase, false || hrp.any isAsciiUppercase, []⟩
  have sized : 8 ≤ hrp.length +
        ((data ++ createChecksum (hrp.map foldCase) data).map write).length + 1 ∧
      hrp.length + ((data ++ createChecksum (hrp.map foldCase) data).map write).length + 1 ≤ 90 := by
    rw [List.length_map, written]
    omega
  have long : 6 ≤ ((data ++ createChecksum (hrp.map foldCase) data).map write).length := by
    rw [List.length_map, written]
    omega
  have checks : verifyChecksum ([] ++ hrp.map (id ∘ foldCase))
      ([] ++ (data ++ createChecksum (hrp.map foldCase) data)) = true := by
    rw [List.nil_append, List.nil_append, Function.id_comp]
    exact verifyChecksum_createChecksum _ data
  have dataBack : (data ++ createChecksum (hrp.map foldCase) data).take
      ((data ++ createChecksum (hrp.map foldCase) data).length - 6) = data := by
    rw [written, Nat.add_sub_cancel]
    exact List.take_left' rfl
  rw [decode_eq_ok noSep sized named long hrpLoop dataLoop (by simpa using oneCase) checks,
    List.nil_append, List.nil_append, Function.id_comp, dataBack]

/-- `decode` reads back what `encode` writes, for a human-readable part of
printable ASCII without uppercase letters and symbols below 32, within the
length bounds. -/
theorem decode_encode {b : Bech32} (named : b.hrp ≠ []) (printable : ∀ c ∈ b.hrp, 33 ≤ c ∧ c ≤ 126)
    (lower : ∀ c ∈ b.hrp, isAsciiUppercase c = false) (symbols : ∀ p ∈ b.data, p < 32)
    (fits : 8 ≤ b.hrp.length + b.data.length + 7 ∧ b.hrp.length + b.data.length + 7 ≤ 90) :
    ∃ s, b.encode = .ok s ∧ decode s = .ok b := by
  have small : ∀ p ∈ b.data, p.toNat < 32 := fun p member =>
    UInt8.lt_iff_toNat_lt.mp (symbols p member)
  have hrpBack : b.hrp.map foldCase = b.hrp := by
    conv => rhs; rw [← List.map_id b.hrp]
    exact List.map_congr_left fun c member => foldCase_of_not_upper (lower c member)
  have reads : ∀ p ∈ b.data ++ createChecksum b.hrp b.data,
      Reads (charsetByte p) p ∧ isAsciiUppercase (charsetByte p) = false :=
    forall_mem_append_createChecksum (fun p listed => charsetByte_reads_of_lt (small p listed))
      fun _ below => charsetByte_reads_of_lt below
  have hrpLower : b.hrp.any isAsciiUppercase = false := List.any_eq_false.mpr fun c member => by
    rw [lower c member]
    decide
  have dataLower : ((b.data ++ createChecksum b.hrp b.data).map charsetByte).any isAsciiUppercase =
      false := List.any_eq_false.mpr fun c member => by
    obtain ⟨p, listed, rfl⟩ := List.mem_map.mp member
    rw [(reads p listed).2]
    decide
  refine ⟨_, encode_eq_ok named small, ?_⟩
  have decoded := @decode_written b.hrp b.data charsetByte named printable
    (by rw [hrpBack]; exact fun p member => (reads p member).1)
    (by rw [hrpBack, hrpLower, dataLower]; simp) fits
  rw [hrpBack] at decoded
  exact decoded

/-- Three symbols under the human-readable part of the main network's
addresses go through the round trip. -/
theorem ckbPrefix_roundTrip :
    ∃ s, (⟨[99, 107, 98], [0, 1, 2]⟩ : Bech32).encode = .ok s ∧
      decode s = .ok ⟨[99, 107, 98], [0, 1, 2]⟩ :=
  decode_encode (by decide) (by decide +kernel) (by decide +kernel) (by decide +kernel) (by decide)

-- the first test vector of the source's valid_checksum: A12UEL5L
example : decode [65, 49, 50, 85, 69, 76, 53, 76] = .ok ⟨[97], []⟩ := by decide

example : encode ⟨[97], []⟩ = .ok [97, 49, 50, 117, 101, 108, 53, 108] := by decide

/-- The byte an all-uppercase string holds for a symbol: `B` for 255, and the
uppercase charset byte for the others. -/
def shoutByte (p : UInt8) : UInt8 := if p = 255 then 66 else toAsciiUppercase (charsetByte p)

theorem shoutByte_reads : ∀ p : Fin 32,
    Reads (shoutByte (UInt8.ofNat p)) (UInt8.ofNat p) ∧
      isAsciiLowercase (shoutByte (UInt8.ofNat p)) = false := by
  decide

theorem shoutByte_reads_of {p : UInt8} (symbol : p.toNat < 32 ∨ p = 255) :
    Reads (shoutByte p) p ∧ isAsciiLowercase (shoutByte p) = false := by
  rcases symbol with small | rfl
  · simpa only [UInt8.ofNat_toNat] using shoutByte_reads ⟨p.toNat, small⟩
  · decide

/-- `decode` accepts values that `encode` refuses: for a human-readable part
without lowercase letters and data of symbols below 32 with some 255, the
uppercase string with a `B` for each 255 decodes to that data. -/
theorem decode_accepts_unencodable {hrp data : List UInt8} (named : hrp ≠ [])
    (printable : ∀ c ∈ hrp, 33 ≤ c ∧ c ≤ 126) (upper : ∀ c ∈ hrp, isAsciiLowercase c = false)
    (symbols : ∀ p ∈ data, p < 32 ∨ p = 255) (excluded : 255 ∈ data)
    (fits : 8 ≤ hrp.length + data.length + 7 ∧ hrp.length + data.length + 7 ≤ 90) :
    ∃ s, decode s = .ok ⟨hrp.map foldCase, data⟩ ∧
      (⟨hrp.map foldCase, data⟩ : Bech32).encode = .error (.invalidData 255) := by
  have symbolsNat : ∀ p ∈ data, p.toNat < 32 ∨ p = 255 := fun p member =>
    (symbols p member).imp_left UInt8.lt_iff_toNat_lt.mp
  have reads : ∀ p ∈ data ++ createChecksum (hrp.map foldCase) data,
      Reads (shoutByte p) p ∧ isAsciiLowercase (shoutByte p) = false :=
    forall_mem_append_createChecksum (fun p listed => shoutByte_reads_of (symbolsNat p listed))
      fun _ below => shoutByte_reads_of (.inl below)
  have hrpUpper : hrp.any isAsciiLowercase = false := List.any_eq_false.mpr fun c member => by
    rw [upper c member]
    decide
  have dataUpper :
      ((data ++ createChecksum (hrp.map foldCase) data).map shoutByte).any isAsciiLowercase =
        false := List.any_eq_false.mpr fun c member => by
    obtain ⟨p, listed, rfl⟩ := List.mem_map.mp member
    rw [(reads p listed).2]
    decide
  have lowered : hrp.map foldCase ≠ [] := fun empty => named (List.map_eq_nil_iff.mp empty)
  refine ⟨_, decode_written named printable (fun p member => (reads p member).1)
    (by rw [hrpUpper, dataUpper]; simp) fits, encode_eq_error lowered symbolsNat excluded⟩

/-- The string `A1BL99TPG` decodes to the human-readable part `a` with the
one symbol 255, which does not encode. -/
theorem upperB_decodes_unencodable :
    decode [65, 49, 66, 76, 57, 57, 84, 80, 71] = .ok ⟨[97], [255]⟩ ∧
      ∃ s, decode s = .ok ⟨[65].map foldCase, [255]⟩ ∧
        (⟨[65].map foldCase, [255]⟩ : Bech32).encode = .error (.invalidData 255) :=
  ⟨by decide, decode_accepts_unencodable (by decide)
    (by simp only [List.forall_mem_singleton]; decide)
    (by simp only [List.forall_mem_singleton]; decide)
    (by simp only [List.forall_mem_singleton]; decide) (by decide) (by decide)⟩

end RoundTrip

end Bech32

end Ckb.Crypto
