import Mathlib.Data.List.Basic
import Mathlib.Data.UInt

/-!
# Percent encoding

Percent encoding writes a character either as itself or as its UTF-8 bytes, each
byte an escape `%XX`. The encoder is given by the characters it keeps; the decoder
reads any mixture of plain characters and escapes, and fails where the escapes do
not spell a character.
-/

namespace Zulip.Foundation.PercentEncoding

/-- The upper-case hexadecimal digits. -/
def hexDigits : List Char :=
  ['0', '1', '2', '3', '4', '5', '6', '7', '8', '9', 'A', 'B', 'C', 'D', 'E', 'F']

/-- The upper-case digit of a value below sixteen. -/
def hexDigit (value : Nat) : Char :=
  hexDigits.getD value '0'

/-- The value of a hexadecimal digit of either case. -/
def hexValue (digit : Char) : Option Nat :=
  if '0' ≤ digit ∧ digit ≤ '9' then some (digit.toNat - '0'.toNat)
  else if 'A' ≤ digit ∧ digit ≤ 'F' then some (digit.toNat - 'A'.toNat + 10)
  else if 'a' ≤ digit ∧ digit ≤ 'f' then some (digit.toNat - 'a'.toNat + 10)
  else none

/-- One byte as an escape. -/
def escapeByte (byte : UInt8) : List Char :=
  ['%', hexDigit (byte.toNat / 16), hexDigit (byte.toNat % 16)]

/-- The escapes of a character's UTF-8 bytes. -/
def escapeChar (c : Char) : List Char :=
  (String.utf8EncodeChar c).flatMap escapeByte

/-- A character as the encoder writes it. -/
def encodeChar (keep : Char → Bool) (c : Char) : List Char :=
  if keep c then [c] else escapeChar c

/-- Percent encoding of a text, with the characters that are written as themselves. -/
def encode (keep : Char → Bool) (text : List Char) : List Char :=
  text.flatMap (encodeChar keep)

/-- How many bytes a character takes whose first byte this is. -/
def sequenceLength (byte : UInt8) : Option Nat :=
  if byte.toNat < 0x80 then some 1
  else if byte.toNat < 0xC0 then none
  else if byte.toNat < 0xE0 then some 2
  else if byte.toNat < 0xF0 then some 3
  else if byte.toNat < 0xF8 then some 4
  else none

/-- Reads one escape. -/
def readEscape : List Char → Option (UInt8 × List Char)
  | '%' :: high :: low :: rest => do
      let highValue ← hexValue high
      let lowValue ← hexValue low
      return (UInt8.ofNat (16 * highValue + lowValue), rest)
  | _ => none

/-- Reads several escapes in a row. -/
def readEscapes : Nat → List Char → Option (List UInt8 × List Char)
  | 0, text => some ([], text)
  | count + 1, text => do
      let (byte, rest) ← readEscape text
      let (bytes, rest) ← readEscapes count rest
      return (byte :: bytes, rest)

/-- Reads one character, plain or escaped. -/
def readChar : List Char → Option (Char × List Char)
  | [] => none
  | c :: rest =>
      if c = '%' then do
        let (first, _) ← readEscape (c :: rest)
        let count ← sequenceLength first
        let (bytes, rest) ← readEscapes count (c :: rest)
        let decoded ← bytes.toByteArray.utf8DecodeChar? 0
        return (decoded, rest)
      else
        some (c, rest)

/-- Decodes at most `fuel` characters; every character takes at least one place of the
text, so a text's own length is enough. -/
def decodeWithin : Nat → List Char → Option (List Char)
  | _, [] => some []
  | 0, _ :: _ => none
  | fuel + 1, c :: rest => do
      let (decoded, rest) ← readChar (c :: rest)
      let text ← decodeWithin fuel rest
      return decoded :: text

/-- Percent decoding of a whole text. -/
def decode (text : List Char) : Option (List Char) :=
  decodeWithin text.length text

/-! ## Digits and bytes -/

theorem hexValue_hexDigit {value : Nat} (small : value < 16) :
    hexValue (hexDigit value) = some value := by
  have eachDigit : ∀ digit : Fin 16, hexValue (hexDigit digit) = some digit.val := by decide
  exact eachDigit ⟨value, small⟩

theorem hexDigit_mem_hexDigits {value : Nat} (small : value < 16) :
    hexDigit value ∈ hexDigits := by
  have eachDigit : ∀ digit : Fin 16, hexDigit digit ∈ hexDigits := by decide
  exact eachDigit ⟨value, small⟩

theorem readEscape_escapeByte (byte : UInt8) (rest : List Char) :
    readEscape (escapeByte byte ++ rest) = some (byte, rest) := by
  have bound : byte.toNat < 256 := byte.toNat_lt
  have high : byte.toNat / 16 < 16 := by omega
  have low : byte.toNat % 16 < 16 := by omega
  have whole : 16 * (byte.toNat / 16) + byte.toNat % 16 = byte.toNat := by omega
  simp only [escapeByte, List.cons_append, List.nil_append, readEscape,
    hexValue_hexDigit high, hexValue_hexDigit low, Option.bind_eq_bind, Option.bind_some, whole]
  rw [UInt8.ofNat_toNat]
  rfl

theorem readEscapes_escapes (bytes : List UInt8) (rest : List Char) :
    readEscapes bytes.length (bytes.flatMap escapeByte ++ rest) = some (bytes, rest) := by
  induction bytes with
  | nil => simp [readEscapes]
  | cons byte bytes inductionHypothesis =>
      simp [readEscapes, readEscape_escapeByte, inductionHypothesis]

theorem sequenceLength_utf8EncodeChar {c : Char} {first : UInt8} {more : List UInt8}
    (bytes : String.utf8EncodeChar c = first :: more) :
    sequenceLength first = some (more.length + 1) := by
  have bound : c.val.toNat < 0x110000 := by
    have valid := c.valid
    simp only [UInt32.isValidChar, Nat.isValidChar] at valid
    omega
  have ofSmall : ∀ {value : Nat}, value < 256 → (UInt8.ofNat value).toNat = value := by
    intro value small
    simp [Nat.mod_eq_of_lt small]
  unfold String.utf8EncodeChar at bytes
  simp only at bytes
  split_ifs at bytes with one two three
  all_goals
    obtain ⟨rfl, rfl⟩ := List.cons_eq_cons.mp bytes
    rw [sequenceLength, ofSmall (by omega)]
    simp only [List.length_cons, List.length_nil]
    split_ifs <;> first | rfl | omega

/-- The decoder reads back what the encoder wrote for one character. -/
theorem readChar_escapeChar (c : Char) (rest : List Char) :
    readChar (escapeChar c ++ rest) = some (c, rest) := by
  rcases bytesShape : String.utf8EncodeChar c with _ | ⟨first, more⟩
  · have sizePositive := c.utf8Size_pos
    rw [← String.length_utf8EncodeChar, bytesShape] at sizePositive
    simp at sizePositive
  · have decoded : (first :: more).toByteArray.utf8DecodeChar? 0 = some c := by
      have whole := @ByteArray.utf8DecodeChar?_utf8EncodeChar_append ByteArray.empty c
      rwa [ByteArray.append_empty, bytesShape] at whole
    have headEscape :
        readEscape (escapeByte first ++ (more.flatMap escapeByte ++ rest)) =
          some (first, more.flatMap escapeByte ++ rest) :=
      readEscape_escapeByte first _
    have allEscapes := readEscapes_escapes (first :: more) rest
    rw [List.flatMap_cons, List.append_assoc, List.length_cons] at allEscapes
    rw [escapeChar, bytesShape, List.flatMap_cons, List.append_assoc]
    simp only [escapeByte, List.cons_append, List.nil_append] at headEscape allEscapes ⊢
    simp only [readChar, if_true, headEscape, Option.bind_eq_bind, Option.bind_some,
      sequenceLength_utf8EncodeChar bytesShape, allEscapes, decoded]
    rfl

theorem readChar_plain {c : Char} (notPercent : c ≠ '%') (rest : List Char) :
    readChar (c :: rest) = some (c, rest) := by
  simp [readChar, notPercent]

/-! ## The characters of an encoding -/

/-- An encoding is made of kept characters of the text, percent signs and digits. -/
theorem mem_encode {keep : Char → Bool} {text : List Char} {c : Char}
    (member : c ∈ encode keep text) :
    (keep c = true ∧ c ∈ text) ∨ c = '%' ∨ c ∈ hexDigits := by
  obtain ⟨source, inText, written⟩ := List.mem_flatMap.mp member
  unfold encodeChar at written
  split_ifs at written with kept
  · rw [List.mem_singleton] at written
    exact .inl (written ▸ ⟨kept, inText⟩)
  · obtain ⟨byte, -, digit⟩ := List.mem_flatMap.mp written
    have bound : byte.toNat < 256 := byte.toNat_lt
    simp only [escapeByte, List.mem_cons, List.not_mem_nil, or_false] at digit
    rcases digit with rfl | rfl | rfl
    · exact .inr (.inl rfl)
    · exact .inr (.inr (hexDigit_mem_hexDigits (by omega)))
    · exact .inr (.inr (hexDigit_mem_hexDigits (by omega)))

/-- A text of kept characters is its own encoding. -/
theorem encode_eq_self {keep : Char → Bool} {text : List Char}
    (kept : ∀ c ∈ text, keep c = true) : encode keep text = text := by
  induction text with
  | nil => rfl
  | cons c text inductionHypothesis =>
      have keptHead : encodeChar keep c = [c] := by
        simp [encodeChar, kept c List.mem_cons_self]
      have keptTail : encode keep text = text :=
        inductionHypothesis fun other inText => kept other (List.mem_cons_of_mem c inText)
      calc
        encode keep (c :: text) = encodeChar keep c ++ encode keep text := List.flatMap_cons
        _ = c :: text := by rw [keptHead, keptTail]; rfl

/-! ## Decoding a whole text -/

theorem escapeChar_ne_nil (c : Char) : escapeChar c ≠ [] := by
  intro empty
  have sizePositive := c.utf8Size_pos
  rcases bytesShape : String.utf8EncodeChar c with _ | ⟨first, more⟩
  · rw [← String.length_utf8EncodeChar, bytesShape] at sizePositive
    simp at sizePositive
  · simp [escapeChar, bytesShape, escapeByte] at empty

/-- A text and one of its encodings, in which a character other than the percent sign may be
plain and every character may be escaped. -/
inductive Encodes : List Char → List Char → Prop
  | nil : Encodes [] []
  | plain {c : Char} {encoded text : List Char} (notPercent : c ≠ '%')
      (rest : Encodes encoded text) : Encodes (c :: encoded) (c :: text)
  | escaped (c : Char) {encoded text : List Char}
      (rest : Encodes encoded text) : Encodes (escapeChar c ++ encoded) (c :: text)

/-- Any fuel that covers the encoded text decodes it. -/
theorem decodeWithin_of_encodes {encoded text : List Char} (encodes : Encodes encoded text) :
    ∀ {fuel : Nat}, encoded.length ≤ fuel → decodeWithin fuel encoded = some text := by
  induction encodes with
  | nil =>
      intro fuel _
      cases fuel <;> rfl
  | @plain c encoded text notPercent _ inductionHypothesis =>
      intro fuel enough
      rw [List.length_cons] at enough
      obtain ⟨less, rfl⟩ : ∃ less, fuel = less + 1 := ⟨fuel - 1, by omega⟩
      have restDecoded : decodeWithin less encoded = some text :=
        inductionHypothesis (by omega)
      simp [decodeWithin, readChar_plain notPercent, restDecoded]
  | @escaped c encoded text _ inductionHypothesis =>
      intro fuel enough
      have positive : 0 < (escapeChar c).length := List.length_pos_of_ne_nil (escapeChar_ne_nil c)
      rw [List.length_append] at enough
      obtain ⟨less, rfl⟩ : ∃ less, fuel = less + 1 := ⟨fuel - 1, by omega⟩
      have read := readChar_escapeChar c encoded
      have restDecoded : decodeWithin less encoded = some text :=
        inductionHypothesis (by omega)
      rcases shape : escapeChar c ++ encoded with _ | ⟨first, more⟩
      · simp [escapeChar_ne_nil] at shape
      · rw [shape] at read
        simp [decodeWithin, read, restDecoded]

/-- Decoding finds the text of every encoding. -/
theorem decode_of_encodes {encoded text : List Char} (encodes : Encodes encoded text) :
    decode encoded = some text :=
  decodeWithin_of_encodes encodes le_rfl

theorem encodes_encode {keep : Char → Bool} (keepsNoPercent : keep '%' = false)
    (text : List Char) : Encodes (encode keep text) text := by
  induction text with
  | nil => exact .nil
  | cons c text inductionHypothesis =>
      have split : encode keep (c :: text) = encodeChar keep c ++ encode keep text :=
        List.flatMap_cons
      rw [split]
      unfold encodeChar
      split_ifs with kept
      · have notPercent : c ≠ '%' := by
          rintro rfl
          rw [keepsNoPercent] at kept
          cases kept
        exact .plain notPercent inductionHypothesis
      · exact .escaped c inductionHypothesis

/-- Decoding takes back encoding, whichever characters are kept, as long as the percent
sign is not one of them. -/
theorem decode_encode {keep : Char → Bool} (keepsNoPercent : keep '%' = false)
    (text : List Char) : decode (encode keep text) = some text :=
  decode_of_encodes (encodes_encode keepsNoPercent text)

/-- A text without a percent sign decodes to itself. -/
theorem decode_eq_self {text : List Char} (plain : '%' ∉ text) : decode text = some text := by
  let keep : Char → Bool := fun c => c != '%'
  have kept : ∀ c ∈ text, keep c = true := by
    intro c member
    have different : c ≠ '%' := fun same => plain (same ▸ member)
    simpa [keep] using different
  have roundTrip : decode (encode keep text) = some text := decode_encode rfl text
  rwa [encode_eq_self kept] at roundTrip

/-! ## Decoding makes no text longer -/

theorem readEscape_suffix {text rest : List Char} {byte : UInt8}
    (read : readEscape text = some (byte, rest)) : rest <:+ text.tail := by
  unfold readEscape at read
  split at read
  · rename_i high low behind
    simp only [Option.bind_eq_bind, Option.bind_eq_some_iff] at read
    obtain ⟨_, _, _, _, same⟩ := read
    cases same
    exact ⟨[high, low], rfl⟩
  · cases read

theorem readEscapes_suffix {count : Nat} :
    ∀ {text rest : List Char} {bytes : List UInt8},
      readEscapes count text = some (bytes, rest) → rest <:+ text := by
  induction count with
  | zero =>
      intro text rest bytes read
      cases read
      exact List.suffix_rfl
  | succ count inductionHypothesis =>
      intro text rest bytes read
      simp only [readEscapes, Option.bind_eq_bind, Option.bind_eq_some_iff] at read
      obtain ⟨first, isFirst, others, areOthers, same⟩ := read
      cases same
      exact (inductionHypothesis areOthers).trans
        ((readEscape_suffix isFirst).trans (List.tail_suffix text))

theorem sequenceLength_pos {byte : UInt8} {count : Nat}
    (isLength : sequenceLength byte = some count) : 0 < count := by
  unfold sequenceLength at isLength
  split_ifs at isLength <;> cases isLength <;> decide

/-- A character takes a place of the text, an escaped one the place of a percent sign. -/
theorem readChar_count {counted : Char → Bool} (percent : counted '%' = true)
    {text rest : List Char} {decoded : Char} (read : readChar text = some (decoded, rest)) :
    rest.countP counted + (if counted decoded then 1 else 0) ≤ text.countP counted := by
  rcases text with _ | ⟨c, behind⟩
  · cases read
  rw [readChar] at read
  split_ifs at read with isPercent
  · simp only [Option.bind_eq_bind, Option.bind_eq_some_iff] at read
    obtain ⟨first, _, count, isLength, several, areSeveral, _, _, same⟩ := read
    cases same
    obtain ⟨less, rfl⟩ : ∃ less, count = less + 1 :=
      ⟨count - 1, by have := sequenceLength_pos isLength; omega⟩
    simp only [readEscapes, Option.bind_eq_bind, Option.bind_eq_some_iff] at areSeveral
    obtain ⟨one, isOne, others, areOthers, same⟩ := areSeveral
    cases same
    have suffix : others.2 <:+ behind :=
      (readEscapes_suffix areOthers).trans (readEscape_suffix isOne)
    have fewer : others.2.countP counted ≤ behind.countP counted := suffix.sublist.countP_le
    have whole : (c :: behind).countP counted = behind.countP counted + 1 := by
      rw [isPercent, List.countP_cons_of_pos percent]
    have one : (if counted decoded then 1 else 0) ≤ 1 := by split_ifs <;> decide
    rw [whole]
    exact Nat.add_le_add fewer one
  · cases read
    rw [List.countP_cons]

/-- Decoding adds no characters of a kind that the percent sign is of. -/
theorem countP_decode_le {counted : Char → Bool} (percent : counted '%' = true)
    {text decoded : List Char} (decodes : decode text = some decoded) :
    decoded.countP counted ≤ text.countP counted := by
  have within : ∀ (fuel : Nat) (text decoded : List Char), decodeWithin fuel text = some decoded →
      decoded.countP counted ≤ text.countP counted := by
    intro fuel
    induction fuel with
    | zero =>
        intro text decoded decodes
        rcases text with _ | ⟨c, behind⟩ <;> cases decodes
        exact Nat.zero_le _
    | succ fuel inductionHypothesis =>
        intro text decoded decodes
        rcases text with _ | ⟨c, behind⟩
        · cases decodes
          exact le_rfl
        · simp only [decodeWithin, Option.bind_eq_bind, Option.bind_eq_some_iff] at decodes
          obtain ⟨one, isOne, others, areOthers, same⟩ := decodes
          cases same
          have fewer := inductionHypothesis _ _ areOthers
          have place := readChar_count percent isOne
          rw [List.countP_cons]
          omega
  exact within text.length text decoded decodes

end Zulip.Foundation.PercentEncoding
