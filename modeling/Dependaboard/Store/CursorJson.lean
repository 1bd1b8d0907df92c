import Dependaboard.Core.Dashboard
import Dependaboard.Store.OutcomeJson
import Dependaboard.Text.Base64
import Dependaboard.Text.JsonSpelling
/-!
# Store — the page cursor as text

A cursor travels as the base64 of its JSON: an object of the time and the
id it ends at, in that order, with no blank between tokens. The base64 has
one spelling, the JSON has not: a reader takes the fields of a structure in
any order, among others, or as a list without their names. So more texts are
read as a cursor than the one written for it, and a text that is read as a
cursor is that one exactly when it is plain: `PageCursor.encoded_once`.
-/

namespace Dependaboard

open Json JsonBytes

/-! ## Writing and reading -/

/-- A cursor as JSON. -/
def PageCursor.write (cursor : PageCursor) : List Char :=
  literal "\x7b\"updated_at\":" ++ (writeNatural cursor.updatedAt
    ++ (literal ",\"id\":" ++ (writeString cursor.id ++ literal "\x7d")))

/-- The text a cursor travels as. -/
def PageCursor.encode (cursor : PageCursor) : String :=
  String.ofList (Base64.encode (String.ofList cursor.write).toByteArray.data.toList)

namespace PageCursor

/-- The fields of a cursor, as far as they have been read. -/
structure Fields where
  updatedAt : Option ℕ
  id : Option String
  deriving DecidableEq, Repr

/-- One entry of a cursor's object: a field is read once, and the value of a
key that names none is passed over. -/
def readField (key : String) (fields : Fields) (text : List UInt8) :
    Option (Fields × List UInt8) :=
  if key = "updated_at" then
    if fields.updatedAt.isSome then none
    else
      (readUnsigned u64Size text).map fun read =>
        ({ fields with updatedAt := some read.1 }, read.2)
  else if key = "id" then
    if fields.id.isSome then none
    else (readString text).map fun read => ({ fields with id := some read.1 }, read.2)
  else (ignoreValue text).map fun rest => (fields, rest)

/-- No entry hands back more than it was handed. -/
theorem length_readField {key : String} {fields fields' : Fields} {text rest : List UInt8}
    (h : readField key fields text = some (fields', rest)) : rest.length ≤ text.length := by
  unfold readField at h
  split_ifs at h
  all_goals
    obtain ⟨read, hread, heq⟩ := Option.map_eq_some_iff.1 h
    obtain ⟨-, rfl⟩ := Prod.mk.inj heq
  · exact length_readUnsigned hread
  · exact (length_readString hread).le
  · exact (length_ignoreWithin hread).le

/-- A cursor's object, its opening brace read. -/
def readMap (text : List UInt8) : Option (PageCursor × List UInt8) := do
  let (fields, rest) ← readEntries readField ⟨none, none⟩ text
  let updatedAt ← fields.updatedAt
  let id ← fields.id
  return (⟨updatedAt, id⟩, rest)

/-- A cursor's fields as a list, its opening bracket read. -/
def readSeq (text : List UInt8) : Option (PageCursor × List UInt8) := do
  let (updatedAt, rest) ← readUnsigned u64Size text
  let (id, rest) ← readString (← token ',' rest)
  let rest ← token ']' rest
  return (⟨updatedAt, id⟩, rest)

/-- The cursor a whole text is. -/
def read (text : List UInt8) : Option PageCursor := do
  let (cursor, rest) ←
    match token '[' text with
    | some rest => readSeq rest
    | none => (token '\x7b' text).bind readMap
  if skipBlank rest = [] then some cursor else none

/-- The cursor a text travels for. -/
def decode (value : String) : Option PageCursor := (Base64.decode value.toList).bind read

/-! ## Plain texts -/

/-- The fields in their order and nothing beside them: digits, then a string
of these pieces. -/
def plainBytes (digits : List Char) (pieces : List Piece) : List UInt8 :=
  ascii (literal "\x7b\"updated_at\":") ++ (ascii digits ++ (ascii (literal ",\"id\":\"")
    ++ (pieces.flatMap Piece.spell ++ '"'.toUInt8 :: ascii (literal "\x7d"))))

/-- The JSON is the two fields in their order, with no blank between tokens,
and the id in the pieces a writer spells it in. -/
def Plain (value : String) : Prop :=
  ∃ bytes ∈ Base64.decode value.toList,
    ∃ number ∈ word (literal "\x7b\"updated_at\":") bytes,
      ∃ string ∈ word (literal ",\"id\":\"") (number.dropWhile isDigit),
        ∃ lexed ∈ lexString string,
          (∀ piece ∈ lexed.1, piece.Plain) ∧ lexed.2 = ascii (literal "\x7d")

instance (value : String) : Decidable (Plain value) :=
  inferInstanceAs (Decidable (∃ _ ∈ _, ∃ _ ∈ _, ∃ _ ∈ _, ∃ _ ∈ _, _ ∧ _))

theorem dropWhile_fields {digits : List Char} (hdigits : ∀ c ∈ digits, c.isDigit = true)
    (rest : List UInt8) :
    (ascii digits ++ (ascii (literal ",\"id\":\"") ++ rest)).dropWhile isDigit
      = ascii (literal ",\"id\":\"") ++ rest := by
  have hcomma : ascii (literal ",\"id\":\"")
      = ','.toUInt8 :: ascii (literal "\"id\":\"") := by decide
  rw [List.dropWhile_append_of_pos fun b => isDigit_of_mem_ascii hdigits, hcomma,
    List.cons_append, List.dropWhile_cons_of_neg (by decide)]

/-- **A text is plain exactly when it is the base64 of plain fields.** -/
theorem plain_iff {value : String} : Plain value ↔
    ∃ digits pieces, (∀ c ∈ digits, c.isDigit = true) ∧ (∀ piece ∈ pieces, piece.Plain) ∧
      value.toList = Base64.encode (plainBytes digits pieces) := by
  constructor
  · rintro ⟨bytes, hbytes, number, hnumber, string, hstring, ⟨pieces, rest⟩, hlexed, hplain,
      hclose⟩
    have hdigits : ∀ c ∈ (number.takeWhile isDigit).map Char.ofUInt8, c.isDigit = true := by
      intro c hc
      obtain ⟨b, hb, rfl⟩ := List.mem_map.1 hc
      exact List.all_eq_true.1 List.all_takeWhile b hb
    have hsplit : number = number.takeWhile isDigit ++ number.dropWhile isDigit :=
      List.takeWhile_append_dropWhile.symm
    have hbehind : rest = ascii (literal "\x7d") := hclose
    have heq : bytes = plainBytes ((number.takeWhile isDigit).map Char.ofUInt8) pieces := by
      rw [plainBytes, ascii_map_ofUInt8, ← hbehind, ← (eq_spell_of_lexString hlexed).2,
        ← word_eq_some_iff.1 hstring, ← hsplit, ← word_eq_some_iff.1 hnumber]
    exact ⟨_, pieces, hdigits, hplain, by rw [← heq, Base64.encode_of_decode hbytes]⟩
  · rintro ⟨digits, pieces, hdigits, hplain, heq⟩
    have hbytes : Base64.decode value.toList = some (plainBytes digits pieces) := by
      rw [heq, Base64.decode_encode]
    have hlexed := lexString_spell (fun piece hp => (hplain piece hp).lexed)
      (ascii (literal "\x7d"))
    exact ⟨_, hbytes, _, word_eq_some_iff.2 rfl, _, word_eq_some_iff.2 (dropWhile_fields hdigits _),
      _, hlexed, hplain, rfl⟩

/-! ## Reading plain texts -/

theorem readField_updatedAt {digits : List Char} (hdigits : ∀ c ∈ digits, c.isDigit = true)
    (rest : List UInt8) :
    readField "updated_at" ⟨none, none⟩ (ascii digits ++ ','.toUInt8 :: rest)
      = (unsignedOf u64Size digits).map fun n => (⟨some n, none⟩, ','.toUInt8 :: rest) := by
  have hcomma : isBlank ','.toUInt8 = false := by decide
  have hread := readUnsigned_ascii u64Size hdigits hcomma (by decide) (by decide) rest
  rw [readField, if_pos rfl, hread, Option.map_map]
  rfl

theorem readField_id {pieces : List Piece} (hpieces : ∀ piece ∈ pieces, piece.Lexed) (n : ℕ)
    (rest : List UInt8) :
    readField "id" ⟨some n, none⟩
        ('"'.toUInt8 :: (pieces.flatMap Piece.spell ++ '"'.toUInt8 :: rest))
      = ((assemble pieces).bind fun bytes => String.fromUTF8? bytes.toByteArray).map
          fun id => (⟨some n, some id⟩, rest) := by
  rw [readField, if_neg (by decide), if_pos rfl, readString_spell hpieces, Option.map_map]
  rfl

/-- **Plain entries are read one behind the other**, in three steps with the
closing brace. -/
theorem readEntriesWithin_plain {digits : List Char} (hdigits : ∀ c ∈ digits, c.isDigit = true)
    {pieces : List Piece} (hpieces : ∀ piece ∈ pieces, piece.Lexed) (fuel : ℕ) :
    readEntriesWithin readField (fuel + 3) true ⟨none, none⟩
        (utf8 (writeString "updated_at") ++ ':'.toUInt8 :: (ascii digits
          ++ ','.toUInt8 :: (utf8 (writeString "id") ++ ':'.toUInt8 :: '"'.toUInt8
            :: (pieces.flatMap Piece.spell ++ ['"'.toUInt8, '\x7d'.toUInt8]))))
      = (unsignedOf u64Size digits).bind fun n =>
        ((assemble pieces).bind fun bytes => String.fromUTF8? bytes.toByteArray).map
          fun id => (⟨some n, some id⟩, []) := by
  refine (readEntriesWithin_entry (fuel + 2) true _ _ _).trans ?_
  rw [readField_updatedAt hdigits, Option.bind_map]
  refine Option.bind_congr fun n _ => ?_
  refine (readEntriesWithin_entry (fuel + 1) false _ _ _).trans ?_
  rw [readField_id hpieces, Option.bind_map, Option.map_eq_bind]
  refine Option.bind_congr fun id _ => ?_
  rw [Function.comp_apply, Function.comp_apply]
  exact readEntriesWithin_close fuel false _ []

/-- **Plain fields are read as the cursor of their digits and pieces.** -/
theorem read_plainBytes {digits : List Char} (hdigits : ∀ c ∈ digits, c.isDigit = true)
    {pieces : List Piece} (hpieces : ∀ piece ∈ pieces, piece.Lexed) :
    read (plainBytes digits pieces) = (unsignedOf u64Size digits).bind fun updatedAt =>
      ((assemble pieces).bind fun bytes => String.fromUTF8? bytes.toByteArray).map fun id =>
        ⟨updatedAt, id⟩ := by
  have hbrace : isBlank '\x7b'.toUInt8 = false := by decide
  have hopen : ascii (literal "\x7b\"updated_at\":")
      = '\x7b'.toUInt8 :: (utf8 (writeString "updated_at") ++ [':'.toUInt8]) := by decide +kernel
  have hmiddle : ascii (literal ",\"id\":\"")
      = ','.toUInt8 :: (utf8 (writeString "id") ++ [':'.toUInt8, '"'.toUInt8]) := by decide +kernel
  have hclose : ascii (literal "\x7d") = ['\x7d'.toUInt8] := by decide
  have hshape : plainBytes digits pieces = '\x7b'.toUInt8 :: (utf8 (writeString "updated_at")
      ++ ':'.toUInt8 :: (ascii digits ++ ','.toUInt8 :: (utf8 (writeString "id")
        ++ ':'.toUInt8 :: '"'.toUInt8
          :: (pieces.flatMap Piece.spell ++ ['"'.toUInt8, '\x7d'.toUInt8])))) := by
    simp only [plainBytes, hopen, hmiddle, hclose, List.cons_append, List.append_assoc,
      List.nil_append]
  have hentries := readEntriesWithin_plain hdigits hpieces
  rw [hshape]
  generalize utf8 (writeString "updated_at") ++ _ = rest at hentries
  have hread : readEntries readField ⟨none, none⟩ rest = _ :=
    (readEntriesWithin_eq_readEntries length_readField (by omega)).symm.trans
      (hentries rest.length)
  have hlist : token '[' ('\x7b'.toUInt8 :: rest) = none :=
    (token_cons hbrace rest).trans (if_neg (by decide))
  have hobject : token '\x7b' ('\x7b'.toUInt8 :: rest) = some rest :=
    (token_cons hbrace rest).trans (if_pos rfl)
  simp only [read, hlist, hobject, readMap, hread, Option.bind_eq_bind,
    Option.bind_some, Option.bind_assoc]
  refine Option.bind_congr fun n _ => ?_
  cases (assemble pieces).bind fun bytes => String.fromUTF8? bytes.toByteArray <;> rfl

/-! ## One spelling -/

theorem utf8_write (cursor : PageCursor) : utf8 cursor.write
    = plainBytes (Nat.toDigits 10 cursor.updatedAt) ((utf8 cursor.id.toList).map pieceOf) := by
  have hopen : utf8 (literal "\x7b\"updated_at\":") = ascii (literal "\x7b\"updated_at\":") := by
    decide +kernel
  have hmiddle : ascii (literal ",\"id\":\"") = utf8 (literal ",\"id\":") ++ ['"'.toUInt8] := by
    decide +kernel
  have hclose : utf8 (literal "\x7d") = ascii (literal "\x7d") := by decide +kernel
  have hnumber :
      utf8 (writeNatural cursor.updatedAt) = ascii (Nat.toDigits 10 cursor.updatedAt) := by
    refine utf8_eq_ascii fun c hc => ?_
    have hnine : '9'.toNat = 57 := rfl
    have := (Char.isDigit_iff_toNat.1 (Decimal.isDigit_toDigits _ c hc)).2
    omega
  simp only [write, plainBytes, utf8_append, hopen, hmiddle, hclose, hnumber, utf8_writeString,
    List.append_assoc, List.cons_append, List.nil_append]

theorem toList_encode (cursor : PageCursor) : cursor.encode.toList
    = Base64.encode (plainBytes (Nat.toDigits 10 cursor.updatedAt)
        ((utf8 cursor.id.toList).map pieceOf)) := by
  rw [encode, String.toList_ofList, String.toByteArray_ofList, List.utf8Encode,
    List.toList_data_toByteArray, ← utf8_write]
  rfl

theorem plain_encode (cursor : PageCursor) : Plain cursor.encode :=
  plain_iff.2 ⟨_, _, Decimal.isDigit_toDigits _, plain_map_pieceOf _, cursor.toList_encode⟩

/-- **A cursor is read as it was written.** -/
theorem decode_encode {cursor : PageCursor} (h : cursor.updatedAt < u64Size) :
    decode cursor.encode = some cursor := by
  have hdigits := Decimal.isDigit_toDigits cursor.updatedAt
  have hpieces : ∀ piece ∈ (utf8 cursor.id.toList).map pieceOf, piece.Lexed := fun piece hp =>
    (plain_map_pieceOf _ piece hp).lexed
  rw [decode, toList_encode, Base64.decode_encode, Option.bind_some,
    read_plainBytes hdigits hpieces, unsignedOf_toDigits h, assemble_map_pieceOf, Option.bind_some,
    Option.bind_some, fromUTF8?_utf8, Option.map_some]

/-- A text that is read as a cursor is that cursor's exactly when it is
plain. -/
theorem eq_encode_iff {value : String} {cursor : PageCursor} (h : decode value = some cursor) :
    value = cursor.encode ↔ Plain value := by
  constructor
  · rintro rfl
    exact plain_encode cursor
  · intro hplain
    obtain ⟨digits, pieces, hdigits, hpieces, heq⟩ := plain_iff.1 hplain
    rw [decode, heq, Base64.decode_encode, Option.bind_some,
      read_plainBytes hdigits fun piece hp => (hpieces piece hp).lexed] at h
    -- the digits are the number's own and the pieces the ones written for the bytes
    obtain ⟨updatedAt, hnumber, hstring⟩ := Option.bind_eq_some_iff.1 h
    obtain ⟨id, hid, rfl⟩ := Option.map_eq_some_iff.1 hstring
    obtain ⟨bytes, hbytes, hutf8⟩ := Option.bind_eq_some_iff.1 hid
    rw [← String.toList_inj, heq, toList_encode, ← eq_toDigits_of_unsignedOf hdigits hnumber,
      ← eq_utf8_of_fromUTF8? hutf8, ← eq_map_pieceOf hpieces hbytes]

/-- **A cursor comes back from its text, and a text read as a cursor is that
cursor's exactly when it is plain**, so no two plain texts are read as one
cursor. -/
theorem encoded_once (cursor : PageCursor) (value : String) :
    (cursor.updatedAt < u64Size → decode cursor.encode = some cursor) ∧
    (decode value = some cursor → (value = cursor.encode ↔ Plain value)) ∧
    ∀ other, Plain value → Plain other →
      decode value = some cursor → decode other = some cursor → value = other := by
  refine ⟨decode_encode, eq_encode_iff, fun other hvalue hother hdecode hdecode' => ?_⟩
  rw [(eq_encode_iff hdecode).2 hvalue, (eq_encode_iff hdecode').2 hother]

/-- **The fields unnamed, in the other order, beside a third or behind a
blank are read too**: five texts of one cursor, of which one is written. -/
theorem decoded_otherwise :
    encode ⟨123, "4#5"⟩ = "eyJ1cGRhdGVkX2F0IjoxMjMsImlkIjoiNCM1In0" ∧
      decode "WzEyMywiNCM1Il0" = some ⟨123, "4#5"⟩ ∧
      decode "eyJpZCI6IjQjNSIsInVwZGF0ZWRfYXQiOjEyM30" = some ⟨123, "4#5"⟩ ∧
      decode "eyJ1cGRhdGVkX2F0IjoxMjMsIngiOltdLCJpZCI6IjQjNSJ9" = some ⟨123, "4#5"⟩ ∧
      decode "IHsidXBkYXRlZF9hdCI6MTIzLCJpZCI6IjQjNSJ9" = some ⟨123, "4#5"⟩ ∧
      ¬ ∀ value cursor, decode value = some cursor → value = cursor.encode := by
  have hlist : decode "WzEyMywiNCM1Il0" = some ⟨123, "4#5"⟩ := by decide +kernel
  refine ⟨by decide +kernel, hlist, by decide +kernel, by decide +kernel, by decide +kernel,
    fun h => ?_⟩
  exact absurd (h _ _ hlist) (by decide +kernel)

example : decode "eyJ1cGRhdGVkX2F0IjotMSwiaWQiOiI0IzUifQ" = none := by decide +kernel

end PageCursor

/-- How cursors travel. -/
def cursorJson : CursorCodec where
  encode := PageCursor.encode
  decode := PageCursor.decode
  decode_encode _ h := PageCursor.decode_encode h

end Dependaboard
