import Ckb.Lib.Memory
import Ckb.Lib.Except

/-!
# Codecs, slices and words of a fixed width

A codec writes a value as bytes and reads the value back from any bytes that
begin with them, whatever follows: the law a store relies on when it lays
encodings end to end and reads each one back from the offset where it
starts.  A format also returns what follows the value it read, so formats
compose field after field, and every format is a codec.

A slice is range indexing on a list, which fails outside the list.  Items laid
end to end from an offset each begin where the ones before them end; a fold
that places them so computes `withOffsets`.  Words of a fixed width take a
number of bytes that their count alone fixes, and read back when each fits
the width.
-/

/-- A serialization whose values read back from their own bytes followed by
anything. -/
structure Codec (ε α : Type) where
  serialize : α → List UInt8
  deserialize : List UInt8 → Except ε α
  deserialize_serialize : ∀ value rest, deserialize (serialize value ++ rest) = .ok value

namespace List

variable {α β : Type}

/-- Indexing by the range `start..`, when `start` is within the list. -/
def sliceFrom (items : List α) (start : Nat) : Option (List α) :=
  if start ≤ items.length then some (items.drop start) else none

/-- Indexing by the range `start..stop`, when the ends are in order and within
the list. -/
def sliceRange (items : List α) (start stop : Nat) : Option (List α) :=
  if start ≤ stop ∧ stop ≤ items.length then some ((items.drop start).take (stop - start))
  else none

theorem sliceFrom_append (front back : List α) :
    (front ++ back).sliceFrom front.length = some back := by
  rw [sliceFrom, if_pos (by simp), List.drop_left]

theorem sliceRange_append (front middle back : List α) :
    (front ++ middle ++ back).sliceRange front.length (front.length + middle.length) =
      some middle := by
  have inside : front.length ≤ front.length + middle.length ∧
      front.length + middle.length ≤ (front ++ middle ++ back).length := by simp
  rw [sliceRange, if_pos inside, List.append_assoc, List.drop_left, Nat.add_sub_cancel_left,
    List.take_left]

theorem sliceRange_append_left (front rest : List α) (start stop : Nat) :
    (front ++ rest).sliceRange (front.length + start) (front.length + stop) =
      rest.sliceRange start stop := by
  have dropped : (front ++ rest).drop (front.length + start) = rest.drop start := by
    rw [List.drop_append, List.drop_eq_nil_of_le (by omega), List.nil_append,
      Nat.add_sub_cancel_left]
  unfold sliceRange
  rw [dropped, Nat.add_sub_add_left, List.length_append]
  by_cases inside : start ≤ stop ∧ stop ≤ rest.length
  · rw [if_pos inside, if_pos (by omega)]
  · rw [if_neg inside, if_neg (by omega)]

theorem sliceRange_append_of_le (front rest : List α) {start stop : Nat}
    (within : stop ≤ front.length) :
    (front ++ rest).sliceRange start stop = front.sliceRange start stop := by
  unfold sliceRange
  by_cases ordered : start ≤ stop
  · have dropped : (front ++ rest).drop start = front.drop start ++ rest :=
      List.drop_append_of_le_length (by omega)
    rw [if_pos ⟨ordered, by simp; omega⟩, if_pos ⟨ordered, within⟩, dropped,
      List.take_append_of_le_length (by simp; omega)]
  · rw [if_neg (by omega), if_neg (by omega)]

theorem flatten_eq_take_append_drop {parts : List (List α)} {index : Nat}
    (inside : index < parts.length) :
    parts.flatten = (parts.take index).flatten ++ (parts[index] ++ (parts.drop (index + 1)).flatten) := by
  conv_lhs => rw [← List.take_append_drop index parts, List.drop_eq_getElem_cons inside]
  rw [List.flatten_append, List.flatten_cons]

/-- Where a part of parts laid end to end begins: past the parts before it. -/
def partOffset (parts : List (List α)) (index : Nat) : Nat :=
  ((parts.take index).map List.length).sum

theorem length_flatten_take (parts : List (List α)) (index : Nat) :
    (parts.take index).flatten.length = partOffset parts index :=
  List.length_flatten

theorem sliceFrom_flatten {parts : List (List α)} {index : Nat} (inside : index < parts.length) :
    parts.flatten.sliceFrom (partOffset parts index) =
      some (parts[index] ++ (parts.drop (index + 1)).flatten) := by
  rw [flatten_eq_take_append_drop inside, ← length_flatten_take, sliceFrom_append]

theorem sliceRange_flatten {parts : List (List α)} {index : Nat} (inside : index < parts.length) :
    parts.flatten.sliceRange (partOffset parts index) (partOffset parts index + parts[index].length) =
      some parts[index] := by
  rw [flatten_eq_take_append_drop inside, ← List.append_assoc, ← length_flatten_take,
    sliceRange_append]

theorem partOffset_add_length_le {parts : List (List α)} {index : Nat}
    (inside : index < parts.length) :
    partOffset parts index + parts[index].length ≤ parts.flatten.length := by
  have laid := congrArg List.length (flatten_eq_take_append_drop inside)
  rw [List.length_append, List.length_append, length_flatten_take] at laid
  omega

theorem sliceRange_flatten_within {parts : List (List α)} {index : Nat}
    (inside : index < parts.length) {start stop : Nat} (within : stop ≤ parts[index].length) :
    parts.flatten.sliceRange (partOffset parts index + start) (partOffset parts index + stop) =
      parts[index].sliceRange start stop := by
  rw [flatten_eq_take_append_drop inside, ← length_flatten_take, sliceRange_append_left,
    sliceRange_append_of_le _ _ within]

theorem sliceRange_eq_some_iff {items slice : List α} {start stop : Nat} :
    items.sliceRange start stop = some slice ↔
      start ≤ stop ∧ stop ≤ items.length ∧ (items.drop start).take (stop - start) = slice := by
  unfold sliceRange
  by_cases inside : start ≤ stop ∧ stop ≤ items.length
  · rw [if_pos inside, Option.some.injEq]
    exact ⟨fun taken => ⟨inside.1, inside.2, taken⟩, fun held => held.2.2⟩
  · rw [if_neg inside]
    exact ⟨fun missing => (nomatch missing), fun held => absurd ⟨held.1, held.2.1⟩ inside⟩

theorem le_length_of_sliceRange_eq_some {items slice : List α} {start stop : Nat}
    (sliced : items.sliceRange start stop = some slice) : stop ≤ items.length :=
  (sliceRange_eq_some_iff.mp sliced).2.1

theorem sliceRange_of_sliceRange {items slice : List α} {start stop : Nat}
    (sliced : items.sliceRange start stop = some slice) {first last : Nat}
    (within : last ≤ slice.length) :
    items.sliceRange (start + first) (start + last) = slice.sliceRange first last := by
  obtain ⟨begun, inside, rfl⟩ := sliceRange_eq_some_iff.mp sliced
  have long : ((items.drop start).take (stop - start)).length = stop - start := by
    simp only [List.length_take, List.length_drop]
    omega
  rw [long] at within
  unfold sliceRange
  rw [long]
  by_cases ordered : first ≤ last
  · rw [if_pos ⟨by omega, by omega⟩, if_pos ⟨ordered, within⟩, List.drop_take, List.drop_drop,
      List.take_take, Nat.add_sub_add_left, Nat.min_eq_left (by omega)]
  · rw [if_neg (by omega), if_neg (by omega)]

/-- Items laid end to end from `start`, each with the offset where it begins. -/
def withOffsets (size : α → Nat) : Nat → List α → List (Nat × α)
  | _, [] => []
  | start, item :: rest => (start, item) :: withOffsets size (start + size item) rest

@[simp] theorem length_withOffsets (size : α → Nat) (start : Nat) (items : List α) :
    (withOffsets size start items).length = items.length := by
  induction items generalizing start with
  | nil => rfl
  | cons item rest induction => simp [withOffsets, induction]

theorem getElem?_withOffsets (size : α → Nat) (start : Nat) (items : List α) (index : Nat) :
    (withOffsets size start items)[index]? =
      items[index]?.map fun item => (start + ((items.take index).map size).sum, item) := by
  induction items generalizing start index with
  | nil => rfl
  | cons item rest induction =>
      cases index with
      | zero => simp [withOffsets]
      | succ index => simp [withOffsets, induction, Nat.add_assoc]

/-- A fold that places each item at a running offset and then moves the
offset past it places the items at their offsets, and ends past all of
them. -/
theorem foldl_placing (size : α → Nat) (place : Nat → α → β)
    {step : Nat × List β → α → Nat × List β}
    (placing : ∀ offset placed item,
      step (offset, placed) item = (offset + size item, placed ++ [place offset item]))
    (items : List α) (start : Nat) (placed : List β) :
    items.foldl step (start, placed) =
      (start + (items.map size).sum,
        placed ++ (withOffsets size start items).map fun entry => place entry.1 entry.2) := by
  induction items generalizing start placed with
  | nil => simp [withOffsets]
  | cons item rest induction =>
      rw [List.foldl_cons, placing, induction]
      simp [withOffsets, Nat.add_assoc]

theorem getD_set_of_lt {items : List α} {position : Nat} (inside : position < items.length)
    (value : α) (index : Nat) (fallback : α) :
    (items.set position value).getD index fallback =
      if position = index then value else items.getD index fallback := by
  simp only [List.getD_eq_getElem?_getD, List.getElem?_set, inside]
  split <;> rfl

theorem mapM_eq_pure_of_getElem? {m : Type → Type} [Monad m] [LawfulMonad m] {step : α → m β}
    {items : List α} {results : List β} (same : items.length = results.length)
    (each : ∀ (index : Nat) item result, items[index]? = some item → results[index]? = some result →
      step item = pure result) :
    items.mapM step = pure results := by
  induction items generalizing results with
  | nil =>
      rw [List.eq_nil_of_length_eq_zero same.symm]
      rfl
  | cons item items induction =>
      cases results with
      | nil => cases same
      | cons result results =>
          have rest := induction (Nat.succ.inj same)
            fun index => each (index + 1)
          rw [List.mapM_cons, each 0 item result rfl rfl, pure_bind, rest, pure_bind]

end List

namespace LittleEndian

/-- Words of one width, laid end to end. -/
def encodeWords (width : Nat) (words : List Nat) : List UInt8 :=
  words.flatMap fun word => encode word width

/-- `count` words of one width from the front of the bytes, if there are
enough bytes. -/
def decodeWords (width : Nat) : Nat → List UInt8 → Option (List Nat)
  | 0, _ => some []
  | count + 1, bytes =>
    if width ≤ bytes.length then
      (decodeWords width count (bytes.drop width)).map fun words => decode (bytes.take width) :: words
    else none

@[simp] theorem length_encodeWords (width : Nat) (words : List Nat) :
    (encodeWords width words).length = width * words.length := by
  induction words with
  | nil => rfl
  | cons word words induction =>
      simp only [encodeWords, List.flatMap_cons, List.length_append, length_encode] at induction ⊢
      rw [induction, List.length_cons, Nat.mul_succ, Nat.add_comm]

theorem decodeWords_encodeWords {width : Nat} {words : List Nat}
    (fits : ∀ word ∈ words, word < 256 ^ width) (rest : List UInt8) :
    decodeWords width words.length (encodeWords width words ++ rest) = some words := by
  induction words with
  | nil => rfl
  | cons word words induction =>
      rw [List.forall_mem_cons] at fits
      have laid : encodeWords width (word :: words) ++ rest =
          encode word width ++ (encodeWords width words ++ rest) := by
        simp [encodeWords, List.flatMap_cons, List.append_assoc]
      have enough : width ≤ (encode word width ++ (encodeWords width words ++ rest)).length := by
        simp
      rw [List.length_cons, laid, decodeWords, if_pos enough,
        List.drop_left' (length_encode word width), List.take_left' (length_encode word width),
        induction fits.2, decode_encode_eq_mod, Nat.mod_eq_of_lt fits.1]
      rfl

end LittleEndian

/-- A self-delimiting serialization: reading a value's bytes followed by
anything gives the value and what follows. -/
structure Format (ε α : Type) where
  write : α → List UInt8
  read : List UInt8 → Except ε (α × List UInt8)
  read_write : ∀ value rest, read (write value ++ rest) = .ok (value, rest)

namespace Format

variable {ε α β : Type}

/-- A format read for its value only. -/
def codec (format : Format ε α) : Codec ε α where
  serialize := format.write
  deserialize bytes := Prod.fst <$> format.read bytes
  deserialize_serialize value rest := by rw [format.read_write]; rfl

/-- A byte as it is; `eof` when there is none. -/
def byte (eof : ε) : Format ε UInt8 where
  write value := [value]
  read
    | [] => .error eof
    | value :: rest => .ok (value, rest)
  read_write _ _ := rfl

/-- Base 128, the least significant group first, with the high bit set on
every byte but the last.  The fuel bounds the bytes written; the value itself
is always enough. -/
def varintBytes : Nat → Nat → List UInt8
  | 0, value => [UInt8.ofNat value]
  | fuel + 1, value =>
    if value < 128 then [UInt8.ofNat value]
    else UInt8.ofNat (value % 128 + 128) :: varintBytes fuel (value / 128)

def readVarint (eof : ε) : List UInt8 → Except ε (Nat × List UInt8)
  | [] => .error eof
  | byte :: rest =>
    if byte.toNat < 128 then .ok (byte.toNat, rest)
    else (readVarint eof rest).map fun (high, rest) => (byte.toNat - 128 + 128 * high, rest)

theorem readVarint_varintBytes (eof : ε) {fuel value : Nat} (enough : value ≤ fuel)
    (rest : List UInt8) :
    readVarint eof (varintBytes fuel value ++ rest) = .ok (value, rest) := by
  induction fuel generalizing value with
  | zero =>
      obtain rfl : value = 0 := by omega
      rfl
  | succ fuel induction =>
      by_cases small : value < 128
      · have low : (UInt8.ofNat value).toNat = value := by
          rw [UInt8.toNat_ofNat']
          omega
        simp only [varintBytes, if_pos small, List.cons_append, List.nil_append, readVarint, low]
      · have high : (UInt8.ofNat (value % 128 + 128)).toNat = value % 128 + 128 := by
          rw [UInt8.toNat_ofNat']
          omega
        have shorter : value / 128 ≤ fuel := by omega
        simp only [varintBytes, if_neg small, List.cons_append, readVarint, high,
          induction shorter, if_neg (show ¬value % 128 + 128 < 128 by omega)]
        show Except.ok (value % 128 + 128 - 128 + 128 * (value / 128), rest) = _
        rw [show value % 128 + 128 - 128 + 128 * (value / 128) = value by omega]

def varint (eof : ε) : Format ε Nat where
  write value := varintBytes value value
  read := readVarint eof
  read_write _ rest := readVarint_varintBytes eof (Nat.le_refl _) rest

/-- Two values, one after the other. -/
def pair (first : Format ε α) (second : Format ε β) : Format ε (α × β) where
  write value := first.write value.1 ++ second.write value.2
  read bytes := do
    let (value, rest) ← first.read bytes
    let (other, rest) ← second.read rest
    pure ((value, other), rest)
  read_write value rest := by
    simp only [List.append_assoc, first.read_write, second.read_write, Except.ok_bind]
    rfl

/-- A value written as another, which maps back to it. -/
def map (format : Format ε α) (into : α → β) (back : β → α)
    (inverse : ∀ value, into (back value) = value) : Format ε β where
  write value := format.write (back value)
  read bytes := (format.read bytes).map fun (value, rest) => (into value, rest)
  read_write value rest := by
    rw [format.read_write]
    show Except.ok (into (back value), rest) = _
    rw [inverse]

/-- An optional value: a tag byte, zero for none, and the value after any
other tag. -/
def option (eof : ε) (format : Format ε α) : Format ε (Option α) where
  write
    | none => [0]
    | some value => 1 :: format.write value
  read
    | [] => .error eof
    | tag :: rest =>
      if tag = 0 then .ok (none, rest)
      else (format.read rest).map fun (value, rest) => (some value, rest)
  read_write value rest := by
    cases value with
    | none => rfl
    | some value =>
        show (if (1 : UInt8) = 0 then _ else _) = _
        rw [if_neg (by decide), List.append_eq, format.read_write]
        rfl

/-- `count` values, one after another. -/
def readItems (format : Format ε α) : Nat → List UInt8 → Except ε (List α × List UInt8)
  | 0, bytes => .ok ([], bytes)
  | count + 1, bytes => do
    let (item, rest) ← format.read bytes
    let (items, rest) ← format.readItems count rest
    pure (item :: items, rest)

theorem readItems_flatMap (format : Format ε α) (items : List α) (rest : List UInt8) :
    format.readItems items.length (items.flatMap format.write ++ rest) = .ok (items, rest) := by
  induction items with
  | nil => rfl
  | cons item items induction =>
      simp only [List.length_cons, List.flatMap_cons, List.append_assoc, readItems,
        format.read_write, Except.ok_bind, induction]
      rfl

/-- A list: its length as a varint, then its items. -/
def list (eof : ε) (format : Format ε α) : Format ε (List α) where
  write items := varintBytes items.length items.length ++ items.flatMap format.write
  read bytes := do
    let (count, rest) ← readVarint eof bytes
    format.readItems count rest
  read_write items rest := by
    simp only [List.append_assoc, readVarint_varintBytes eof (Nat.le_refl _), Except.ok_bind]
    exact format.readItems_flatMap items rest

end Format
