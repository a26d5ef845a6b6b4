import RustTuf.Crypto

/-!
# Identifiers, schemes and key types in the interchange

The `Serialize` and `Deserialize` impls of `crypto.rs`, run over the data model of the JSON
interchange, `serde_json::Value`: its serializer makes a string of `serialize_str` and an array
of the fields of `serialize_tuple_struct`, and `String`'s `Deserialize` accepts a string and
rejects every other value with an `invalid type` error. `HEXLOWER` of `data_encoding` is
`hexLowerEncode` and `hexLowerDecode`, over the UTF-8 bytes of a string; the decoder accepts
exactly the encodings (`hexLowerDecode_eq_ok`).

`KeyId` and `SignatureValue` serialize as a tuple struct whose one field is the hex-lower
string, and deserialize from a string: the shapes differ, so no identifier round trips and no
accepted value is reproduced (`hex_round_trip_fails`), although the string inside the array is
exactly one the deserializer accepts (`deserializeFromString_hexLowerEncode`). `from_string`
accepts a string exactly when it is the encoding of the bytes it returns
(`fromString_round_trip`).

`SignatureScheme` and `KeyType` deserialize by `parse().unwrap()`: they accept exactly what
their serializers make (`scheme_key_type_round_trip`), and a name `from_str` does not
know panics (`deserialize_unknown_name_panics`).
-/

namespace RustTuf

/-! ## The value model -/

/-- The data model of the JSON interchange, `serde_json::Value`; a number is an integer. -/
inductive Value where
  | null
  | bool (b : Bool)
  | number (n : Int)
  | string (s : String)
  | array (vs : List Value)
  | object (fields : List (String × Value))

/-- The kind of value an `invalid type` error reports, serde's `Unexpected`. -/
inductive Unexpected where
  | unit
  | bool (b : Bool)
  | unsigned (n : Nat)
  | signed (n : Int)
  | str (s : String)
  | seq
  | map

/-- `Value::unexpected`. -/
def Value.unexpected : Value → Unexpected
  | .null => .unit
  | .bool b => .bool b
  | .number n => if 0 ≤ n then .unsigned n.toNat else .signed n
  | .string s => .str s
  | .array _ => .seq
  | .object _ => .map

/-- A deserialization error, serde's `de::Error`. -/
inductive DeError where
  /-- `invalid_type`: the value was `unexpected` where `expected` was. -/
  | invalidType (unexpected : Unexpected) (expected : String)
  /-- `custom`: the text, followed by the `{:?}` rendering of `cause`. -/
  | custom (text : String) (cause : Error)

/-- How a `Deserialize` impl ends: a value, an error, or a panic of an `unwrap` on `cause`. -/
inductive Deserialized (α : Type) where
  | ok (a : α)
  | error (e : DeError)
  | panic (cause : Error)

/-- `serialize_str`. -/
def serializeStr (s : String) : Value := .string s

/-- `serialize_tuple_struct`, its fields, then `end`: an array of the fields. The struct's name
is not kept. -/
def serializeTupleStruct (fields : List Value) : Value := .array fields

/-- `String`'s `Deserialize`. -/
def deserializeString : Value → Except DeError String
  | .string s => .ok s
  | v => .error (.invalidType v.unexpected "a string")

/-! ## `HEXLOWER` -/

/-- `str::as_bytes`: the UTF-8 bytes of a string. -/
def asBytes (s : String) : Bytes := s.toUTF8.data.toList

/-- The `HEXLOWER` symbol of the digit `n < 16`. -/
def hexLowerDigit (n : Nat) : Char := Char.ofNat (if n < 10 then 48 + n else 87 + n)

/-- `HEXLOWER.encode`: two symbols per byte, the high digit first. -/
def hexLowerEncode (bytes : Bytes) : String :=
  ⟨bytes.flatMap fun b => [hexLowerDigit (b.toNat / 16), hexLowerDigit (b.toNat % 16)]⟩

/-- The digit of a `HEXLOWER` symbol: `0`–`9` and `a`–`f` only. -/
def hexLowerValue (b : UInt8) : Option Nat :=
  if 48 ≤ b.toNat ∧ b.toNat ≤ 57 then some (b.toNat - 48)
  else if 97 ≤ b.toNat ∧ b.toNat ≤ 102 then some (b.toNat - 87)
  else none

/-- `data_encoding`'s `DecodeKind`, for the kinds `HEXLOWER` reports. -/
inductive DecodeKind where
  | symbol
  | length
deriving DecidableEq, Repr

/-- `data_encoding`'s `DecodeError`. -/
structure DecodeError where
  position : Nat
  kind : DecodeKind
deriving DecidableEq, Repr

/-- Decode the symbol pairs of `input`, whose first symbol is at `position`. -/
def hexLowerDecodePairs : Nat → Bytes → Except DecodeError Bytes
  | _, [] => .ok []
  | position, [_] => .error ⟨position, .length⟩
  | position, hi :: lo :: rest =>
    match hexLowerValue hi, hexLowerValue lo with
    | none, _ => .error ⟨position, .symbol⟩
    | some _, none => .error ⟨position + 1, .symbol⟩
    | some h, some l => (hexLowerDecodePairs (position + 2) rest).map ((h * 16 + l).toUInt8 :: ·)

/-- `HEXLOWER.decode`: an odd length is a `Length` error at the last symbol, otherwise the first
symbol that is not a digit is a `Symbol` error. -/
def hexLowerDecode (input : Bytes) : Except DecodeError Bytes :=
  if input.length % 2 = 1 then .error ⟨input.length - 1, .length⟩
  else hexLowerDecodePairs 0 input

/-- The `{:?}` rendering of a decode error. -/
def DecodeError.debug (e : DecodeError) : String :=
  let kind := match e.kind with
    | .symbol => "Symbol"
    | .length => "Length"
  "DecodeError \x7b position: " ++ toString e.position ++ ", kind: " ++ kind ++ " \x7d"

/-- Modelled from the spec: the conversion of a `DecodeError` into the crate's `Error` is in
`error.rs`, outside the sources; the spec's kind for failed decoding is `Decode`. -/
def DecodeError.toError (e : DecodeError) : Error := .decode e.debug

/-! ## `KeyId` and `SignatureValue` -/

/-- The `from_string` of `KeyId` and `SignatureValue`: the bytes whose hex-lower form is
`string`, wrapped by `mk`. -/
def fromHexLower {α : Type} (mk : Bytes → α) (string : String) : Except Error α :=
  match hexLowerDecode (asBytes string) with
  | .ok bytes => .ok (mk bytes)
  | .error e => .error e.toError

def KeyId.fromString (string : String) : Except Error KeyId := fromHexLower KeyId.mk string

/-- Create a new `SignatureValue` from the given hex-lower string. -/
def SignatureValue.fromString (string : String) : Except Error SignatureValue :=
  fromHexLower SignatureValue.mk string

/-- The `Serialize` of `KeyId` and `SignatureValue`: a tuple struct whose one field is the
hex-lower string of the bytes. -/
def serializeHexLower (bytes : Bytes) : Value :=
  serializeTupleStruct [serializeStr (hexLowerEncode bytes)]

def KeyId.serialize (k : KeyId) : Value := serializeHexLower k.val

def SignatureValue.serialize (s : SignatureValue) : Value := serializeHexLower s.val

/-- The `Deserialize` of `KeyId` and `SignatureValue`: a string, read by `fromString`; a failed
read is a custom error of `text` and the failure. -/
def deserializeFromString {α : Type} (fromString : String → Except Error α) (text : String)
    (v : Value) : Deserialized α :=
  match deserializeString v with
  | .error e => .error e
  | .ok string =>
    match fromString string with
    | .ok a => .ok a
    | .error e => .error (.custom text e)

def KeyId.deserialize (v : Value) : Deserialized KeyId :=
  deserializeFromString KeyId.fromString "" v

def SignatureValue.deserialize (v : Value) : Deserialized SignatureValue :=
  deserializeFromString SignatureValue.fromString "Signature value was not valid hex lower: " v

/-! ### The hex-lower round trip -/

/-- Every digit is an ASCII symbol that decodes to itself. -/
theorem hexLowerDigit_ascii : ∀ n, n < 16 →
    (hexLowerDigit n).val ≤ 0x7f ∧ hexLowerValue (hexLowerDigit n).val.toUInt8 = some n := by
  decide

theorem utf8EncodeChar_hexLowerDigit {n : Nat} (h : n < 16) :
    String.utf8EncodeChar (hexLowerDigit n) = [(hexLowerDigit n).val.toUInt8] := by
  simp only [String.utf8EncodeChar, (hexLowerDigit_ascii n h).1, if_true]

theorem asBytes_hexLowerEncode_cons (b : UInt8) (bytes : Bytes) :
    asBytes (hexLowerEncode (b :: bytes)) =
      (hexLowerDigit (b.toNat / 16)).val.toUInt8 :: (hexLowerDigit (b.toNat % 16)).val.toUInt8 ::
        asBytes (hexLowerEncode bytes) := by
  have hb : b.toNat < 256 := b.val.isLt
  simp only [asBytes, hexLowerEncode, String.toUTF8, List.flatMap_cons, List.flatMap_append,
    utf8EncodeChar_hexLowerDigit (show b.toNat / 16 < 16 by omega),
    utf8EncodeChar_hexLowerDigit (show b.toNat % 16 < 16 by omega)]
  rfl

theorem length_asBytes_hexLowerEncode (bytes : Bytes) :
    (asBytes (hexLowerEncode bytes)).length = 2 * bytes.length := by
  induction bytes with
  | nil => rfl
  | cons b bytes ih => simp only [asBytes_hexLowerEncode_cons, List.length_cons, ih]; omega

theorem hexLowerDecodePairs_encode (bytes : Bytes) (position : Nat) :
    hexLowerDecodePairs position (asBytes (hexLowerEncode bytes)) = .ok bytes := by
  induction bytes generalizing position with
  | nil => rfl
  | cons b bytes ih =>
    have hb : b.toNat < 256 := b.val.isLt
    rw [asBytes_hexLowerEncode_cons, hexLowerDecodePairs,
      (hexLowerDigit_ascii _ (show b.toNat / 16 < 16 by omega)).2,
      (hexLowerDigit_ascii _ (show b.toNat % 16 < 16 by omega)).2, ih]
    show Except.ok ((b.toNat / 16 * 16 + b.toNat % 16).toUInt8 :: bytes) = .ok (b :: bytes)
    congr 2
    apply UInt8.toNat.inj
    show (b.toNat / 16 * 16 + b.toNat % 16) % 256 = b.toNat
    omega

/-- `HEXLOWER.decode` reads `HEXLOWER.encode` back. -/
theorem hexLowerDecode_encode (bytes : Bytes) :
    hexLowerDecode (asBytes (hexLowerEncode bytes)) = .ok bytes := by
  rw [hexLowerDecode, if_neg (by rw [length_asBytes_hexLowerEncode]; omega)]
  exact hexLowerDecodePairs_encode bytes 0

/-- A symbol that decodes is the digit of its value. -/
theorem hexLowerValue_eq_some {b : UInt8} {n : Nat} (h : hexLowerValue b = some n) :
    n < 16 ∧ (hexLowerDigit n).val.toUInt8 = b := by
  have hb : b.toNat < 256 := b.val.isLt
  have hsym : (Char.ofNat b.toNat).val.toUInt8 = b := by
    rw [Char.ofNat, dif_pos (Or.inl (by omega))]
    exact UInt8.toNat.inj (Nat.mod_eq_of_lt hb)
  unfold hexLowerValue at h
  split_ifs at h with hd ha <;> cases h
  · refine ⟨by omega, ?_⟩
    rw [hexLowerDigit, if_pos (by omega), show 48 + (b.toNat - 48) = b.toNat by omega, hsym]
  · refine ⟨by omega, ?_⟩
    rw [hexLowerDigit, if_neg (by omega), show 87 + (b.toNat - 87) = b.toNat by omega, hsym]

/-- What the symbol pairs decode to encodes back to those symbols. -/
theorem hexLowerDecodePairs_eq_ok : ∀ {position : Nat} {input bytes : Bytes},
    hexLowerDecodePairs position input = .ok bytes → asBytes (hexLowerEncode bytes) = input
  | _, [], _, h => by cases h; rfl
  | _, [_], _, h => by cases h
  | position, hi :: lo :: rest, bytes, h => by
    rcases hh : hexLowerValue hi with _ | hv
    · simp only [hexLowerDecodePairs, hh] at h; cases h
    rcases hl : hexLowerValue lo with _ | lv
    · simp only [hexLowerDecodePairs, hh, hl] at h; cases h
    rcases hr : hexLowerDecodePairs (position + 2) rest with e | bs
    · simp only [hexLowerDecodePairs, hh, hl, hr] at h; cases h
    simp only [hexLowerDecodePairs, hh, hl, hr] at h
    cases h
    obtain ⟨hv16, rfl⟩ := hexLowerValue_eq_some hh
    obtain ⟨lv16, rfl⟩ := hexLowerValue_eq_some hl
    have hbyte : (hv * 16 + lv).toUInt8.toNat = hv * 16 + lv :=
      show (hv * 16 + lv) % 256 = _ by omega
    rw [asBytes_hexLowerEncode_cons, hexLowerDecodePairs_eq_ok hr, hbyte,
      show (hv * 16 + lv) / 16 = hv by omega, show (hv * 16 + lv) % 16 = lv by omega]

/-- `HEXLOWER.decode` accepts exactly what `HEXLOWER.encode` makes: lower-case digits, two per
byte. -/
theorem hexLowerDecode_eq_ok {input bytes : Bytes} :
    hexLowerDecode input = .ok bytes ↔ asBytes (hexLowerEncode bytes) = input := by
  refine ⟨fun h => ?_, fun h => h ▸ hexLowerDecode_encode bytes⟩
  unfold hexLowerDecode at h
  split_ifs at h
  exact hexLowerDecodePairs_eq_ok h

/-! ### The shapes of `Serialize` and `Deserialize` -/

section HexLower

variable {α : Type} {text : String}

/-- The deserializer of `KeyId` or `SignatureValue` reads the hex-lower string of any bytes as
those bytes. -/
theorem deserializeFromString_hexLowerEncode (mk : Bytes → α) (bytes : Bytes) :
    deserializeFromString (fromHexLower mk) text (.string (hexLowerEncode bytes)) =
      .ok (mk bytes) := by
  simp only [deserializeFromString, deserializeString, fromHexLower, hexLowerDecode_encode]

/-- What the deserializer of `KeyId` or `SignatureValue` accepts is a string. -/
theorem deserializeFromString_eq_ok {fromString : String → Except Error α} {v : Value} {a : α}
    (h : deserializeFromString fromString text v = .ok a) : ∃ s, v = .string s := by
  cases v
  case string s => exact ⟨s, rfl⟩
  all_goals cases h

/-- `from_string` reads a string exactly when its bytes are the `HEXLOWER` encoding of the bytes
it returns. -/
theorem fromHexLower_eq_ok {mk : Bytes → α} (hmk : Function.Injective mk) {string : String}
    {bytes : Bytes} :
    fromHexLower mk string = .ok (mk bytes) ↔
      asBytes (hexLowerEncode bytes) = asBytes string := by
  rw [← hexLowerDecode_eq_ok, fromHexLower]
  rcases hexLowerDecode (asBytes string) with e | bs
  · simp
  · simp [hmk.eq_iff]

end HexLower

/-- `KeyId::from_string` and `SignatureValue::from_string` accept exactly the strings whose
bytes are the lower-case hex encoding of some bytes, and return those bytes: a key id or a
signature value has one string form, and no other string, upper-case hex included, parses. -/
theorem fromString_round_trip :
    (∀ s k, KeyId.fromString s = .ok k ↔ asBytes (hexLowerEncode k.val) = asBytes s) ∧
      ∀ s v, SignatureValue.fromString s = .ok v ↔
        asBytes (hexLowerEncode v.val) = asBytes s :=
  ⟨fun _ _ => fromHexLower_eq_ok fun _ _ h => KeyId.mk.inj h,
    fun _ _ => fromHexLower_eq_ok fun _ _ h => SignatureValue.mk.inj h⟩

/-- No key id or signature value comes back from its serialized form, and no value the
deserializers accept is what serializing the result makes: `Serialize` makes a one-element
array, `Deserialize` accepts only a string. -/
theorem hex_round_trip_fails (bytes : Bytes) :
    KeyId.deserialize (KeyId.serialize ⟨bytes⟩) = .error (.invalidType .seq "a string") ∧
      SignatureValue.deserialize (SignatureValue.serialize ⟨bytes⟩) =
        .error (.invalidType .seq "a string") ∧
      (∀ v k, KeyId.deserialize v = .ok k → KeyId.serialize k ≠ v) ∧
      (∀ v s, SignatureValue.deserialize v = .ok s → SignatureValue.serialize s ≠ v) := by
  refine ⟨rfl, rfl, fun v _ h => ?_, fun v _ h => ?_⟩ <;>
    obtain ⟨s, rfl⟩ := deserializeFromString_eq_ok h <;> nofun

theorem hex_round_trip_fails_sample :
    KeyId.deserialize (.string "ab") = .ok ⟨[0xab]⟩ ∧
      KeyId.serialize ⟨[0xab]⟩ ≠ .string "ab" :=
  have h : KeyId.deserialize (.string "ab") = .ok ⟨[0xab]⟩ := rfl
  ⟨h, (hex_round_trip_fails [0xab]).2.2.1 _ _ h⟩

/-! ## `SignatureScheme` and `KeyType` -/

def SignatureScheme.toString : SignatureScheme → String
  | .ed25519 => "ed25519"
  | .rsaSsaPssSha256 => "rsassa-pss-sha256"
  | .rsaSsaPssSha512 => "rsassa-pss-sha512"

def KeyType.toString : KeyType → String
  | .ed25519 => "ed25519"
  | .rsa => "rsa"

/-- The `from_str` of `SignatureScheme` and `KeyType`: the value that `names` pairs with `s`, or
the error `unsupported s`. -/
def fromName {α : Type} (names : List (String × α)) (unsupported : String → Error)
    (s : String) : Except Error α :=
  match names.lookup s with
  | some a => .ok a
  | none => .error (unsupported s)

def SignatureScheme.fromStr (s : String) : Except Error SignatureScheme :=
  fromName [("ed25519", .ed25519), ("rsassa-pss-sha256", .rsaSsaPssSha256),
    ("rsassa-pss-sha512", .rsaSsaPssSha512)] .unsupportedSignatureScheme s

def KeyType.fromStr (s : String) : Except Error KeyType :=
  fromName [("ed25519", .ed25519), ("rsa", .rsa)] .unsupportedKeyType s

def SignatureScheme.serialize (s : SignatureScheme) : Value := serializeStr s.toString

def KeyType.serialize (k : KeyType) : Value := serializeStr k.toString

/-- The `Deserialize` of `SignatureScheme` and `KeyType`: a string, parsed by `fromStr` and
unwrapped, so that a failed parse panics. -/
def deserializeParsed {α : Type} (fromStr : String → Except Error α) (v : Value) :
    Deserialized α :=
  match deserializeString v with
  | .error e => .error e
  | .ok string =>
    match fromStr string with
    | .ok a => .ok a
    | .error e => .panic e

def SignatureScheme.deserialize (v : Value) : Deserialized SignatureScheme :=
  deserializeParsed SignatureScheme.fromStr v

def KeyType.deserialize (v : Value) : Deserialized KeyType :=
  deserializeParsed KeyType.fromStr v

/-- A name that `names` does not list is unsupported. -/
theorem fromName_of_not_mem {α : Type} {names : List (String × α)}
    {unsupported : String → Error} {s : String} (h : s ∉ names.map Prod.fst) :
    fromName names unsupported s = .error (unsupported s) := by
  rw [fromName, List.lookup_eq_none_iff.2 fun p hp =>
    bne_iff_ne.2 fun (heq : s = p.1) => h (heq ▸ List.mem_map_of_mem Prod.fst hp)]

/-- What `from_str` parses is a name that `names` lists, with its own value. -/
theorem fromName_eq_ok {α : Type} {names : List (String × α)} {unsupported : String → Error}
    {s : String} {a : α} (h : fromName names unsupported s = .ok a) : (s, a) ∈ names := by
  rcases hl : names.lookup s with _ | a' <;> simp only [fromName, hl] at h <;> cases h
  obtain ⟨l₁, l₂, hl, -⟩ := List.lookup_eq_some_iff.1 hl
  simp [hl]

theorem deserializeParsed_of_error {α : Type} {fromStr : String → Except Error α} {s : String}
    {e : Error} (h : fromStr s = .error e) : deserializeParsed fromStr (.string s) = .panic e := by
  simp only [deserializeParsed, deserializeString, h]

theorem deserializeParsed_eq_ok {α : Type} {fromStr : String → Except Error α} {v : Value}
    {a : α} (h : deserializeParsed fromStr v = .ok a) :
    ∃ s, v = .string s ∧ fromStr s = .ok a := by
  cases v
  case string s =>
    rcases hs : fromStr s with e | a' <;>
      simp only [deserializeParsed, deserializeString, hs] at h <;> cases h
    exact ⟨s, rfl, hs⟩
  all_goals cases h

/-- A deserializer that parses by a table of names accepts exactly the serialized names, when
every name the table lists is the `to_string` of its value and every value's name finds it. -/
theorem deserializeParsed_fromName_eq_ok {α : Type} {names : List (String × α)}
    {unsupported : String → Error} {toStr : α → String}
    (hnames : ∀ s a, (s, a) ∈ names → s = toStr a)
    (hself : ∀ a, names.lookup (toStr a) = some a)
    {v : Value} {a : α} :
    deserializeParsed (fromName names unsupported) v = .ok a ↔ v = serializeStr (toStr a) := by
  constructor
  · intro h
    obtain ⟨s, rfl, hs⟩ := deserializeParsed_eq_ok h
    rw [hnames s a (fromName_eq_ok hs)]
    rfl
  · rintro rfl
    simp only [deserializeParsed, serializeStr, deserializeString, fromName, hself]

/-- Unlike those of `KeyId` and `SignatureValue`, `Serialize` and `Deserialize` of
`SignatureScheme` and of `KeyType` are inverse: each deserializer accepts exactly the values its
serializer makes, and reads back what was serialized. -/
theorem scheme_key_type_round_trip :
    (∀ v s, SignatureScheme.deserialize v = .ok s ↔ v = s.serialize) ∧
      ∀ v k, KeyType.deserialize v = .ok k ↔ v = k.serialize := by
  refine ⟨fun _ _ => deserializeParsed_fromName_eq_ok ?_ fun a => by cases a <;> rfl,
    fun _ _ => deserializeParsed_fromName_eq_ok ?_ fun a => by cases a <;> rfl⟩ <;>
    simp only [List.mem_cons, Prod.mk.injEq, List.not_mem_nil, or_false]
  · rintro s a (⟨rfl, rfl⟩ | ⟨rfl, rfl⟩ | ⟨rfl, rfl⟩) <;> rfl
  · rintro s a (⟨rfl, rfl⟩ | ⟨rfl, rfl⟩) <;> rfl

/-- Every string that is not a scheme or key type name makes the deserializer panic. -/
theorem deserialize_unknown_name_panics (s : String) :
    (s ∉ ["ed25519", "rsassa-pss-sha256", "rsassa-pss-sha512"] →
      SignatureScheme.deserialize (.string s) = .panic (.unsupportedSignatureScheme s)) ∧
    (s ∉ ["ed25519", "rsa"] →
      KeyType.deserialize (.string s) = .panic (.unsupportedKeyType s)) :=
  ⟨fun h => deserializeParsed_of_error (fromName_of_not_mem h),
    fun h => deserializeParsed_of_error (fromName_of_not_mem h)⟩

theorem deserialize_unknown_name_panics_ed448 :
    "ed448" ∉ ["ed25519", "rsassa-pss-sha256", "rsassa-pss-sha512"] ∧
      SignatureScheme.deserialize (.string "ed448") =
        .panic (.unsupportedSignatureScheme "ed448") ∧
      "ed448" ∉ ["ed25519", "rsa"] ∧
      KeyType.deserialize (.string "ed448") = .panic (.unsupportedKeyType "ed448") :=
  ⟨by decide, (deserialize_unknown_name_panics "ed448").1 (by decide), by decide,
    (deserialize_unknown_name_panics "ed448").2 (by decide)⟩

end RustTuf
