import Dependaboard.Text.JsonBytes
/-!
# JSON bytes — how a string is spelled

A writer has one spelling for every byte of a string: itself, the letter
that stands for it behind a backslash, or a `\u` escape of small digits. A
string spelled in these pieces alone is the one written for the bytes it is
read as: `eq_map_pieceOf`.
-/

namespace JsonBytes

/-! ## The writer's pieces -/

/-- The letter written behind a backslash for a byte, where there is one: a
byte of a longer character has none. -/
def shortEscape (b : UInt8) : Option UInt8 := (Json.shortEscape (Char.ofUInt8 b)).map Char.toUInt8

/-- A digit of a `\u` escape, as the byte it is. -/
def hexDigit (n : ℕ) : UInt8 := (Json.hexDigit n).toUInt8

/-- The escape written for a control character. -/
def controlUnit (n : ℕ) : Piece :=
  .unit '0'.toUInt8 '0'.toUInt8 (hexDigit (n / 16)) (hexDigit (n % 16))

/-- The piece written for a byte. -/
def pieceOf (b : UInt8) : Piece :=
  match shortEscape b with
  | some letter => .letter letter
  | none => if b.toNat < 32 then controlUnit b.toNat else .byte b

/-- A piece as a writer spells it: no backslash before a slash, and a `\u`
escape for nothing but a control character that has no letter. -/
def Piece.Plain : Piece → Prop
  | .byte b => (Piece.byte b).Lexed
  | .letter l => (unescape l).isSome ∧ l ≠ '/'.toUInt8
  | .unit a b c d => ∃ n < 32, shortEscape (.ofNat n) = none ∧ .unit a b c d = controlUnit n

instance : DecidablePred Piece.Plain
  | .byte b => inferInstanceAs (Decidable (Piece.byte b).Lexed)
  | .letter _ => inferInstanceAs (Decidable (_ ∧ _))
  | .unit _ _ _ _ => inferInstanceAs (Decidable (∃ n < 32, _ ∧ _))

theorem forall_byte {P : UInt8 → Prop} (h : ∀ n < 256, P (UInt8.ofNat n)) (b : UInt8) : P b := by
  have hb := h b.toNat b.toNat_lt
  rwa [UInt8.ofNat_toNat] at hb

theorem plain_pieceOf (b : UInt8) : (pieceOf b).Plain :=
  forall_byte (P := fun b => (pieceOf b).Plain) (by decide +kernel) b

theorem plain_map_pieceOf (bytes : List UInt8) : ∀ piece ∈ bytes.map pieceOf, piece.Plain := by
  intro piece hp
  obtain ⟨b, -, rfl⟩ := List.mem_map.1 hp
  exact plain_pieceOf b

/-- **A piece is plain exactly when it is the one written for some byte.** -/
theorem Piece.plain_iff {piece : Piece} : piece.Plain ↔ ∃ b, piece = pieceOf b := by
  constructor
  · intro h
    cases piece with
    | byte b =>
      have hself : ∀ b, (Piece.byte b).Lexed → .byte b = pieceOf b :=
        forall_byte (by decide +kernel)
      exact ⟨b, hself b h⟩
    | letter l =>
      have hletter : ∀ l, l ≠ '/'.toUInt8 →
          ((unescape l).all fun b => .letter l = pieceOf b) = true :=
        forall_byte (by decide +kernel)
      obtain ⟨b, hb⟩ := Option.isSome_iff_exists.1 h.1
      have hl := hletter l h.2
      rw [hb] at hl
      exact ⟨b, of_decide_eq_true hl⟩
    | unit a b c d =>
      have hcontrol : ∀ n < 32, shortEscape (.ofNat n) = none →
          controlUnit n = pieceOf (.ofNat n) := by decide +kernel
      obtain ⟨n, hn, hshort, heq⟩ := h
      exact ⟨.ofNat n, heq.trans (hcontrol n hn hshort)⟩
  · rintro ⟨b, rfl⟩
    exact plain_pieceOf b

theorem Piece.Plain.lexed {piece : Piece} (h : piece.Plain) : piece.Lexed := by
  obtain ⟨b, rfl⟩ := Piece.plain_iff.1 h
  exact forall_byte (P := fun b => (pieceOf b).Lexed) (by decide +kernel) b

/-- A piece written for a byte is read as the byte. -/
theorem assemble_pieceOf (b : UInt8) (rest : List Piece) :
    assemble (pieceOf b :: rest) = (assemble rest).map (b :: ·) := by
  unfold pieceOf
  cases hshort : shortEscape b with
  | some letter =>
    have hback : ∀ b, ((shortEscape b).all fun l => unescape l = some b) = true :=
      forall_byte (by decide +kernel)
    have hletter := hback b
    rw [hshort] at hletter
    simp only [assemble, of_decide_eq_true hletter, Option.bind_eq_bind, Option.bind_some]
  | none =>
    by_cases hcontrol : b.toNat < 32
    · have hunit : ∀ n < 32,
          unitOf '0'.toUInt8 '0'.toUInt8 (hexDigit (n / 16)) (hexDigit (n % 16)) = some n ∧
            isTrailing n = false ∧ isLeading n = false ∧
            String.utf8EncodeChar (Char.ofNat n) = [UInt8.ofNat n] := by decide +kernel
      obtain ⟨hvalue, htrailing, hleading, hutf8⟩ := hunit b.toNat hcontrol
      simp only [if_pos hcontrol, controlUnit, assemble, hvalue, htrailing, hleading, hutf8,
        Option.bind_eq_bind, Option.bind_some, UInt8.ofNat_toNat, List.singleton_append,
        Bool.false_eq_true, if_false]
    · simp only [if_neg hcontrol, assemble]

/-- **Bytes are read as they were written.** -/
theorem assemble_map_pieceOf (bytes : List UInt8) : assemble (bytes.map pieceOf) = some bytes := by
  induction bytes with
  | nil => rfl
  | cons b bytes ih => rw [List.map_cons, assemble_pieceOf, ih, Option.map_some]

/-- **Plain pieces are the ones written for the bytes they are read as.** -/
theorem eq_map_pieceOf {pieces : List Piece} (hplain : ∀ piece ∈ pieces, piece.Plain)
    {bytes : List UInt8} (h : assemble pieces = some bytes) : pieces = bytes.map pieceOf := by
  induction pieces generalizing bytes with
  | nil =>
    obtain rfl := Option.some.inj h
    rfl
  | cons piece pieces ih =>
    obtain ⟨b, rfl⟩ := Piece.plain_iff.1 (hplain piece List.mem_cons_self)
    rw [assemble_pieceOf] at h
    obtain ⟨tail, htail, rfl⟩ := Option.map_eq_some_iff.1 h
    rw [List.map_cons, ← ih (fun p hp => hplain p (List.mem_cons_of_mem _ hp)) htail]

/-! ## Text as bytes -/

theorem utf8_append (text text' : List Char) : utf8 (text ++ text') = utf8 text ++ utf8 text' :=
  List.flatMap_append

/-- ASCII text is a byte a character. -/
theorem utf8_eq_ascii {text : List Char} (h : ∀ c ∈ text, c.toNat < 128) :
    utf8 text = ascii text := by
  induction text with
  | nil => rfl
  | cons c text ih =>
    have hbyte : ∀ n < 128, String.utf8EncodeChar (Char.ofNat n) = [(Char.ofNat n).toUInt8] := by
      decide +kernel
    have hc := hbyte c.toNat (h c List.mem_cons_self)
    rw [Char.ofNat_toNat] at hc
    rw [utf8, List.flatMap_cons, hc, ← utf8, ih fun d hd => h d (List.mem_cons_of_mem _ hd)]
    rfl

theorem ascii_map_ofUInt8 (bytes : List UInt8) : ascii (bytes.map Char.ofUInt8) = bytes := by
  have hback : ∀ b, (Char.ofUInt8 b).toUInt8 = b := forall_byte (by decide +kernel)
  rw [ascii, List.map_map]
  exact (List.map_congr_left fun b _ => hback b).trans (List.map_id _)

theorem fromUTF8?_utf8 (value : String) :
    String.fromUTF8? (utf8 value.toList).toByteArray = some value := by
  have hbytes : (utf8 value.toList).toByteArray = value.toByteArray := String.utf8Encode_toList
  rw [hbytes, String.fromUTF8?]
  exact dif_pos value.isValidUTF8

theorem eq_utf8_of_fromUTF8? {bytes : List UInt8} {value : String}
    (h : String.fromUTF8? bytes.toByteArray = some value) : bytes = utf8 value.toList := by
  unfold String.fromUTF8? at h
  split at h
  · have hbytes : bytes.toByteArray = (utf8 value.toList).toByteArray := by
      rw [← Option.some.inj h]
      exact (String.utf8Encode_toList (b := String.fromUTF8 bytes.toByteArray ‹_›)).symm
    simpa using congrArg (fun array => array.data.toList) hbytes
  · cases h

/-- A character beyond ASCII is of bytes beyond ASCII. -/
theorem toNat_of_mem_utf8EncodeChar {c : Char} (h : 128 ≤ c.toNat) {b : UInt8}
    (hb : b ∈ String.utf8EncodeChar c) : 128 ≤ b.toNat := by
  have hc : c.val.toNat = c.toNat := rfl
  have hbyte (n : ℕ) (hlow : 128 ≤ n) (hhigh : n < 256) : 128 ≤ (UInt8.ofNat n).toNat :=
    hlow.trans (UInt8.toNat_ofNat_of_lt hhigh).ge
  simp only [String.utf8EncodeChar, hc] at hb
  split_ifs at hb
  · omega
  · simp only [List.mem_cons, List.not_mem_nil, or_false] at hb
    rcases hb with rfl | rfl <;> exact hbyte _ (by omega) (by omega)
  · simp only [List.mem_cons, List.not_mem_nil, or_false] at hb
    rcases hb with rfl | rfl | rfl <;> exact hbyte _ (by omega) (by omega)
  · simp only [List.mem_cons, List.not_mem_nil, or_false] at hb
    rcases hb with rfl | rfl | rfl | rfl <;> exact hbyte _ (by omega) (by omega)

/-- One character inside quotes is the pieces of its bytes. -/
theorem utf8_writeChar (c : Char) :
    utf8 (Json.writeChar c)
      = ((String.utf8EncodeChar c).map pieceOf).flatMap Piece.spell := by
  by_cases hascii : c.toNat < 128
  · have hall : ∀ n < 128, utf8 (Json.writeChar (Char.ofNat n))
        = ((String.utf8EncodeChar (Char.ofNat n)).map pieceOf).flatMap Piece.spell := by
      decide +kernel
    have hc := hall c.toNat hascii
    rwa [Char.ofNat_toNat] at hc
  · -- beyond ASCII a character, and every byte of it, stands for itself
    have hwrite : Json.writeChar c = [c] := by
      have hshort : Json.shortEscape c = none := by
        unfold Json.shortEscape
        split <;> first | omega | rfl
      rw [Json.writeChar, hshort]
      exact if_neg (by omega)
    have hpiece : ∀ b ∈ String.utf8EncodeChar c, (pieceOf b).spell = [b] := by
      have hall : ∀ b : UInt8, 128 ≤ b.toNat → (pieceOf b).spell = [b] :=
        forall_byte (by decide +kernel)
      exact fun b hb => hall b (toNat_of_mem_utf8EncodeChar (by omega) hb)
    rw [hwrite, List.flatMap_map, List.flatMap_congr hpiece, List.flatMap_singleton',
      utf8, List.flatMap_singleton]

/-- **A string is written in the pieces of its bytes.** -/
theorem utf8_writeString (value : String) :
    utf8 (Json.writeString value) = '"'.toUInt8 ::
      (((utf8 value.toList).map pieceOf).flatMap Piece.spell ++ ['"'.toUInt8]) := by
  have hquote : utf8 ['"'] = ['"'.toUInt8] := by decide +kernel
  have hchars : utf8 (value.toList.flatMap Json.writeChar)
      = ((utf8 value.toList).map pieceOf).flatMap Piece.spell := by
    unfold utf8
    rw [List.flatMap_assoc, List.map_flatMap, List.flatMap_assoc]
    exact List.flatMap_congr fun c _ => utf8_writeChar c
  rw [Json.writeString, ← List.singleton_append, utf8_append, utf8_append, hquote, hchars]
  rfl

/-- **A string is read as it was written.** -/
theorem readString_writeString (value : String) (rest : List UInt8) :
    readString (utf8 (Json.writeString value) ++ rest) = some (value, rest) := by
  have hlexed : ∀ piece ∈ (utf8 value.toList).map pieceOf, piece.Lexed := fun piece hp =>
    (plain_map_pieceOf _ piece hp).lexed
  rw [utf8_writeString, List.cons_append, List.append_assoc, List.singleton_append,
    readString_spell hlexed, assemble_map_pieceOf, Option.bind_some, fromUTF8?_utf8,
    Option.map_some]

/-! ## Entries -/

section Objects

variable {σ : Type} {entry : String → σ → List UInt8 → Option (σ × List UInt8)}

/-- The closing brace ends the entries. -/
theorem readEntriesWithin_close (fuel : ℕ) (first : Bool) (state : σ) (rest : List UInt8) :
    readEntriesWithin entry (fuel + 1) first state ('\x7d'.toUInt8 :: rest)
      = some (state, rest) := by
  have hbrace : isBlank '\x7d'.toUInt8 = false := by decide
  simp only [readEntriesWithin, token_cons hbrace, if_true]

/-- An entry is read as it was written, behind a comma unless it is the
first. -/
theorem readEntriesWithin_entry (fuel : ℕ) (first : Bool) (state : σ) (key : String)
    (rest : List UInt8) :
    readEntriesWithin entry (fuel + 1) first state
        ((if first then [] else [','.toUInt8])
          ++ (utf8 (Json.writeString key) ++ ':'.toUInt8 :: rest))
      = (entry key state rest).bind fun read =>
          readEntriesWithin entry fuel false read.1 read.2 := by
  have hquote : isBlank '"'.toUInt8 = false := by decide
  have hcomma : isBlank ','.toUInt8 = false := by decide
  have hcolon : isBlank ':'.toUInt8 = false := by decide
  have hkey := readString_writeString key (':'.toUInt8 :: rest)
  have hnone : token '\x7d' ((if first then [] else [','.toUInt8])
      ++ (utf8 (Json.writeString key) ++ ':'.toUInt8 :: rest)) = none := by
    cases first with
    | true =>
      rw [if_pos rfl, List.nil_append, utf8_writeString, List.cons_append, token_cons hquote]
      exact if_neg (by decide)
    | false => exact (token_cons hcomma _).trans (if_neg (by decide))
  have hnext : nextEntry first ((if first then [] else [','.toUInt8])
      ++ (utf8 (Json.writeString key) ++ ':'.toUInt8 :: rest))
      = some (utf8 (Json.writeString key) ++ ':'.toUInt8 :: rest) := by
    cases first with
    | true => rfl
    | false => exact (token_cons hcomma _).trans (if_pos rfl)
  rw [readEntriesWithin, hnone]
  simp only [hnext, hkey, token_cons hcolon, if_true, Option.bind_eq_bind, Option.bind_some]

end Objects

end JsonBytes
