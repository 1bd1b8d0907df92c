import Mathlib.Data.List.Basic
import Mathlib.Order.Nat
import Dependaboard.Text.Decimal
import Dependaboard.Text.Json
/-!
# JSON bytes — a lenient reader

A reader of JSON as bytes lets pass more than one text for a value: blanks
between tokens, several spellings of a character, the entries of an object in
any order, a value nobody asked for. A string is read in two steps, its pieces
as they are spelled and the bytes they are, so that a reader's answer can be
held against how the text was spelled: `eq_spell_of_lexString`.

What is nested is read step by step, and a step takes a byte at least, so as
many steps as the text has bytes are enough: `ignoreWithin_succ`,
`readEntriesWithin_succ`.
-/

namespace JsonBytes

/-! ## Bytes and tokens -/

/-- ASCII text as bytes. -/
def ascii (text : List Char) : List UInt8 := text.map Char.toUInt8

/-- Text as bytes. -/
def utf8 (text : List Char) : List UInt8 := text.flatMap String.utf8EncodeChar

/-- The four bytes JSON calls blank, which are fewer than Unicode's. -/
def isBlank (b : UInt8) : Bool := b = 32 || b = 10 || b = 9 || b = 13

/-- A digit of ASCII, the only kind a number is written in. -/
def isDigit (b : UInt8) : Bool := (Char.ofUInt8 b).isDigit

/-- Blanks may stand before any token and mean nothing. -/
def skipBlank (text : List UInt8) : List UInt8 := text.dropWhile isBlank

/-- What stands behind a character, blanks before it skipped. -/
def token (c : Char) (text : List UInt8) : Option (List UInt8) :=
  match skipBlank text with
  | [] => none
  | b :: rest => if b = c.toUInt8 then some rest else none

/-- What stands behind a word. -/
def word (letters : List Char) (text : List UInt8) : Option (List UInt8) :=
  if (ascii letters).isPrefixOf text then some (text.drop letters.length) else none

theorem length_ascii (text : List Char) : (ascii text).length = text.length := List.length_map _

theorem skipBlank_cons {b : UInt8} (hb : isBlank b = false) (rest : List UInt8) :
    skipBlank (b :: rest) = b :: rest := List.dropWhile_cons_of_neg (by simp [hb])

/-- A token is taken where it stands. -/
theorem token_cons {c : Char} {b : UInt8} (hb : isBlank b = false) (rest : List UInt8) :
    token c (b :: rest) = if b = c.toUInt8 then some rest else none := by
  simp only [token, skipBlank_cons hb]

/-- What stands behind a word is what it stands before. -/
theorem word_eq_some_iff {letters : List Char} {text rest : List UInt8} :
    word letters text = some rest ↔ text = ascii letters ++ rest := by
  unfold word
  constructor
  · intro h
    split_ifs at h with hword
    obtain rfl := Option.some.inj h
    obtain ⟨tail, rfl⟩ := List.isPrefixOf_iff_prefix.1 hword
    rw [List.drop_left' (length_ascii _)]
  · rintro rfl
    rw [if_pos (List.isPrefixOf_iff_prefix.2 (List.prefix_append _ _)),
      List.drop_left' (length_ascii _)]

/-! ## The pieces of a string -/

/-- A piece between quotes, as it is spelled: a byte that stands for itself,
a letter behind a backslash, or the four digits of a `\u` escape. -/
inductive Piece where
  | byte (b : UInt8)
  | letter (l : UInt8)
  | unit (a b c d : UInt8)
  deriving DecidableEq, Repr

/-- A piece of a string as it stands between the quotes. -/
def Piece.spell : Piece → List UInt8
  | .byte b => [b]
  | .letter l => ['\\'.toUInt8, l]
  | .unit a b c d => ['\\'.toUInt8, 'u'.toUInt8, a, b, c, d]

/-- The byte a letter behind a backslash stands for. -/
def unescape (l : UInt8) : Option UInt8 :=
  match l.toNat with
  | 34 => some 34
  | 92 => some 92
  | 47 => some 47
  | 98 => some 8
  | 102 => some 12
  | 110 => some 10
  | 114 => some 13
  | 116 => some 9
  | _ => none

/-- The value of a digit of a `\u` escape, in either case. -/
def hexValue (b : UInt8) : Option ℕ :=
  if 48 ≤ b.toNat ∧ b.toNat < 58 then some (b.toNat - 48)
  else if 97 ≤ b.toNat ∧ b.toNat < 103 then some (b.toNat - 87)
  else if 65 ≤ b.toNat ∧ b.toNat < 71 then some (b.toNat - 55)
  else none

/-- The number of four digits. -/
def unitOf (a b c d : UInt8) : Option ℕ := do
  let a ← hexValue a
  let b ← hexValue b
  let c ← hexValue c
  let d ← hexValue d
  return ((a * 16 + b) * 16 + c) * 16 + d

/-- A piece that a reader takes as one. -/
def Piece.Lexed : Piece → Prop
  | .byte b => b ≠ '"'.toUInt8 ∧ b ≠ '\\'.toUInt8 ∧ 32 ≤ b.toNat
  | .letter l => (unescape l).isSome
  | .unit a b c d => (unitOf a b c d).isSome

instance : DecidablePred Piece.Lexed
  | .byte _ => inferInstanceAs (Decidable (_ ∧ _ ∧ _))
  | .letter _ => inferInstanceAs (Decidable (_ = true))
  | .unit _ _ _ _ => inferInstanceAs (Decidable (_ = true))

/-- The pieces up to the closing quote, and what stands behind it. -/
def lexString : List UInt8 → Option (List Piece × List UInt8)
  | [] => none
  | b :: rest =>
    if b = '"'.toUInt8 then some ([], rest)
    else if b = '\\'.toUInt8 then
      match rest with
      | [] => none
      | l :: rest =>
        if l = 'u'.toUInt8 then
          match rest with
          | a :: b :: c :: d :: rest =>
            if (unitOf a b c d).isSome then
              (lexString rest).map fun lexed => (.unit a b c d :: lexed.1, lexed.2)
            else none
          | _ => none
        else if (unescape l).isSome then
          (lexString rest).map fun lexed => (.letter l :: lexed.1, lexed.2)
        else none
    else if b.toNat < 32 then none
    else (lexString rest).map fun lexed => (.byte b :: lexed.1, lexed.2)

/-- Pieces are read as they are spelled. -/
theorem lexString_spell {pieces : List Piece} (h : ∀ piece ∈ pieces, piece.Lexed)
    (rest : List UInt8) :
    lexString (pieces.flatMap Piece.spell ++ '"'.toUInt8 :: rest) = some (pieces, rest) := by
  have hslash : '\\'.toUInt8 ≠ '"'.toUInt8 := by decide
  induction pieces with
  | nil =>
    rw [List.flatMap_nil, List.nil_append, lexString.eq_def]
    exact if_pos rfl
  | cons piece pieces ih =>
    have hpiece := h piece List.mem_cons_self
    have htail := ih fun p hp => h p (List.mem_cons_of_mem _ hp)
    rw [List.flatMap_cons, List.append_assoc]
    cases piece with
    | byte b =>
      obtain ⟨hquote, hself, hcontrol⟩ := hpiece
      rw [Piece.spell, List.singleton_append, lexString.eq_def]
      simp only [if_neg hquote, if_neg hself, if_neg (Nat.not_lt.2 hcontrol), htail,
        Option.map_some]
    | letter l =>
      have hl : l ≠ 'u'.toUInt8 := by
        rintro rfl
        exact absurd hpiece (by decide)
      have hpiece' : (unescape l).isSome = true := hpiece
      rw [Piece.spell, List.cons_append, List.singleton_append, lexString.eq_def]
      simp only [if_neg hslash, if_true, if_neg hl, if_pos hpiece', htail, Option.map_some]
    | unit a b c d =>
      have hpiece' : (unitOf a b c d).isSome = true := hpiece
      rw [Piece.spell, lexString.eq_def]
      simp only [List.cons_append, List.nil_append, if_neg hslash, if_true, if_pos hpiece', htail,
        Option.map_some]

/-- **A string is its pieces as they are spelled**, up to its closing quote. -/
theorem eq_spell_of_lexString {text rest : List UInt8} {pieces : List Piece}
    (h : lexString text = some (pieces, rest)) :
    (∀ piece ∈ pieces, piece.Lexed) ∧
      text = pieces.flatMap Piece.spell ++ '"'.toUInt8 :: rest := by
  fun_induction lexString text generalizing pieces with
  | case1 | case3 | case5 | case6 | case8 | case9 => cases h
  | case2 tail =>
    obtain ⟨rfl, rfl⟩ := Prod.mk.inj (Option.some.inj h)
    exact ⟨fun piece hp => absurd hp List.not_mem_nil, rfl⟩
  | case4 a b c d tail hunit _ ih =>
    obtain ⟨lexed, hlexed, heq⟩ := Option.map_eq_some_iff.1 h
    obtain ⟨rfl, rfl⟩ := Prod.mk.inj heq
    obtain ⟨hall, htail⟩ := ih hlexed
    exact ⟨List.forall_mem_cons.2 ⟨hunit, hall⟩, by rw [htail]; rfl⟩
  | case7 l tail _ hletter _ ih =>
    obtain ⟨lexed, hlexed, heq⟩ := Option.map_eq_some_iff.1 h
    obtain ⟨rfl, rfl⟩ := Prod.mk.inj heq
    obtain ⟨hall, htail⟩ := ih hlexed
    exact ⟨List.forall_mem_cons.2 ⟨hletter, hall⟩, by rw [htail]; rfl⟩
  | case10 b tail hquote hslash hcontrol ih =>
    obtain ⟨lexed, hlexed, heq⟩ := Option.map_eq_some_iff.1 h
    obtain ⟨rfl, rfl⟩ := Prod.mk.inj heq
    obtain ⟨hall, htail⟩ := ih hlexed
    exact ⟨List.forall_mem_cons.2 ⟨⟨hquote, hslash, Nat.not_lt.1 hcontrol⟩, hall⟩,
      by rw [htail]; rfl⟩

/-- The first and the second half of a pair of `\u` escapes. -/
def isLeading (n : ℕ) : Bool := 0xD800 ≤ n && n < 0xDC00

/-- A UTF-16 unit that only means something behind a leading one. -/
def isTrailing (n : ℕ) : Bool := 0xDC00 ≤ n && n < 0xE000

/-- The bytes pieces are. A half of a pair stands before its other half and
nowhere else. -/
def assemble : List Piece → Option (List UInt8)
  | [] => some []
  | .byte b :: rest => (assemble rest).map (b :: ·)
  | .letter l :: rest => do
    let b ← unescape l
    (assemble rest).map (b :: ·)
  | .unit a b c d :: rest => do
    let n ← unitOf a b c d
    if isTrailing n then none
    else if isLeading n then
      match rest with
      | .unit a b c d :: rest => do
        let m ← unitOf a b c d
        if isTrailing m then
          let code := (n - 0xD800) * 0x400 + (m - 0xDC00) + 0x10000
          (assemble rest).map (String.utf8EncodeChar (Char.ofNat code) ++ ·)
        else none
      | _ => none
    else (assemble rest).map (String.utf8EncodeChar (Char.ofNat n) ++ ·)

/-- A string, and what stands behind it. -/
def readString (text : List UInt8) : Option (String × List UInt8) := do
  let (pieces, rest) ← lexString (← token '"' text)
  let bytes ← assemble pieces
  let value ← String.fromUTF8? bytes.toByteArray
  return (value, rest)

/-- A string is read from its pieces. -/
theorem readString_spell {pieces : List Piece} (h : ∀ piece ∈ pieces, piece.Lexed)
    (rest : List UInt8) :
    readString ('"'.toUInt8 :: (pieces.flatMap Piece.spell ++ '"'.toUInt8 :: rest))
      = ((assemble pieces).bind fun bytes => String.fromUTF8? bytes.toByteArray).map
          fun value => (value, rest) := by
  have hquote : isBlank '"'.toUInt8 = false := by decide
  simp only [readString, token_cons hquote, if_true, Option.bind_eq_bind, Option.bind_some,
    lexString_spell h]
  rw [Option.map_bind]
  exact Option.bind_congr fun bytes _ => (Option.map_eq_bind).symm

/-! ## Numbers -/

/-- The number below a size that digits are, where no zero leads them. -/
def unsignedOf (size : ℕ) (digits : List Char) : Option ℕ :=
  if digits ≠ [] ∧ Decimal.NoLeadingZero digits ∧ Nat.ofDigitChars 10 digits 0 < size then
    some (Nat.ofDigitChars 10 digits 0)
  else none

/-- A number and what stands behind it, which is no fraction and no
exponent. -/
def readUnsigned (size : ℕ) (text : List UInt8) : Option (ℕ × List UInt8) :=
  let digits := ((skipBlank text).takeWhile isDigit).map Char.ofUInt8
  let rest := (skipBlank text).dropWhile isDigit
  if rest.head?.all fun b => !(ascii ['.', 'e', 'E']).contains b then
    (unsignedOf size digits).map fun n => (n, rest)
  else none

theorem unsignedOf_toDigits {size n : ℕ} (h : n < size) :
    unsignedOf size (Nat.toDigits 10 n) = some n := by
  have hvalue : Nat.ofDigitChars 10 (Nat.toDigits 10 n) 0 = n := Nat.ofDigitChars_ten_toDigits
  rw [unsignedOf, hvalue]
  exact if_pos ⟨Nat.toDigits_ne_nil, Decimal.noLeadingZero_toDigits n, h⟩

/-- **The digits a number is read from are its own.** -/
theorem eq_toDigits_of_unsignedOf {size n : ℕ} {digits : List Char}
    (hdigits : ∀ c ∈ digits, c.isDigit = true) (h : unsignedOf size digits = some n) :
    digits = Nat.toDigits 10 n := by
  unfold unsignedOf at h
  split_ifs at h with hall
  obtain rfl := Option.some.inj h
  exact (Decimal.toDigits_ofDigitChars hdigits hall.1 hall.2.1).symm

/-- A digit's byte is a digit, and no blank. -/
theorem digit_byte {c : Char} (h : c.isDigit = true) :
    Char.ofUInt8 c.toUInt8 = c ∧ isBlank c.toUInt8 = false := by
  obtain ⟨-, hhigh⟩ := Char.isDigit_iff_toNat.1 h
  have hall : ∀ n < 128, (Char.ofNat n).isDigit = true →
      Char.ofUInt8 (Char.ofNat n).toUInt8 = Char.ofNat n ∧
        isBlank (Char.ofNat n).toUInt8 = false := by decide +kernel
  have hnine : '9'.toNat = 57 := rfl
  have hc := hall c.toNat (by omega)
  rw [Char.ofNat_toNat] at hc
  exact hc h

theorem isDigit_of_mem_ascii {digits : List Char} (hdigits : ∀ c ∈ digits, c.isDigit = true)
    {b : UInt8} (hb : b ∈ ascii digits) : isDigit b = true := by
  obtain ⟨c, hc, rfl⟩ := List.mem_map.1 hb
  rw [isDigit, (digit_byte (hdigits c hc)).1]
  exact hdigits c hc

/-- **A number is read from the digits before what cannot go on with
them.** -/
theorem readUnsigned_ascii (size : ℕ) {digits : List Char}
    (hdigits : ∀ c ∈ digits, c.isDigit = true) {b : UInt8} (hblank : isBlank b = false)
    (hdigit : isDigit b = false) (hfloat : b ∉ ascii ['.', 'e', 'E']) (rest : List UInt8) :
    readUnsigned size (ascii digits ++ b :: rest)
      = (unsignedOf size digits).map fun n => (n, b :: rest) := by
  have hskip : skipBlank (ascii digits ++ b :: rest) = ascii digits ++ b :: rest := by
    cases digits with
    | nil => exact skipBlank_cons hblank rest
    | cons c digits => exact skipBlank_cons (digit_byte (hdigits c List.mem_cons_self)).2 _
  have hall : ∀ d ∈ ascii digits, isDigit d = true := fun d => isDigit_of_mem_ascii hdigits
  have hneg : ¬ isDigit b = true := by simp [hdigit]
  have hback : (ascii digits).map Char.ofUInt8 = digits := by
    rw [ascii, List.map_map]
    exact (List.map_congr_left fun c hc => (digit_byte (hdigits c hc)).1).trans (List.map_id _)
  simp only [readUnsigned, hskip, List.takeWhile_append_of_pos hall,
    List.dropWhile_append_of_pos hall, List.takeWhile_cons_of_neg hneg,
    List.dropWhile_cons_of_neg hneg, List.append_nil, hback]
  have hgoes : ((b :: rest).head?.all fun d => !(ascii ['.', 'e', 'E']).contains d) = true := by
    simpa using hfloat
  exact if_pos hgoes

/-- Behind one digit at least. -/
def ignoreDigits : List UInt8 → Option (List UInt8)
  | [] => none
  | b :: rest => if isDigit b then some (rest.dropWhile isDigit) else none

/-- An exponent, where there is one, is a sign, if any, and at least one
digit. -/
def ignoreExponent : List UInt8 → Option (List UInt8)
  | [] => some []
  | b :: rest =>
    if b ∈ ascii ['e', 'E'] then
      match rest with
      | [] => none
      | sign :: digits =>
        if sign ∈ ascii ['+', '-'] then ignoreDigits digits else ignoreDigits rest
    else some (b :: rest)

/-- A point is followed by at least one digit; a number may stop without
either part. -/
def ignoreFraction : List UInt8 → Option (List UInt8)
  | [] => some []
  | b :: rest =>
    if b = '.'.toUInt8 then (ignoreDigits rest).bind ignoreExponent
    else ignoreExponent (b :: rest)

/-- Behind a number, its sign read. -/
def ignoreNumber : List UInt8 → Option (List UInt8)
  | [] => none
  | b :: rest =>
    if b = '0'.toUInt8 then
      if rest.head?.any isDigit then none else ignoreFraction rest
    else if isDigit b then ignoreFraction (rest.dropWhile isDigit)
    else none

/-! ## Values nobody asked for -/

/-- What is open around a value. -/
inductive Frame where
  | list
  | object
  deriving DecidableEq, Repr

/-- What ends the list or the object a value stands in. -/
def Frame.close : Frame → Char
  | .list => ']'
  | .object => '\x7d'

/-- The frame a byte opens. -/
def Frame.opened (b : UInt8) : Option Frame :=
  if b = '['.toUInt8 then some .list
  else if b = '\x7b'.toUInt8 then some .object
  else none

/-- Behind a value that opens no frame, its first byte read. -/
def ignoreScalar (b : UInt8) (rest : List UInt8) : Option (List UInt8) :=
  if b = 'n'.toUInt8 then word ['u', 'l', 'l'] rest
  else if b = 't'.toUInt8 then word ['r', 'u', 'e'] rest
  else if b = 'f'.toUInt8 then word ['a', 'l', 's', 'e'] rest
  else if b = '-'.toUInt8 then ignoreNumber rest
  else if isDigit b then ignoreNumber (b :: rest)
  else if b = '"'.toUInt8 then (lexString rest).map Prod.snd
  else none

/-- Where a value stands in a frame: behind its key, in an object. -/
def Frame.enter : Frame → List UInt8 → Option (List UInt8)
  | .list, text => some text
  | .object, text => do
    let (_, rest) ← lexString (← token '"' text)
    token ':' rest

/-- Behind a value: every frame that closes there is left, and the first that
goes on with a comma is gone on in. -/
def leave : List Frame → List UInt8 → Option (List Frame × List UInt8)
  | [], text => some ([], text)
  | frame :: frames, text =>
    match skipBlank text with
    | [] => none
    | b :: rest =>
      if b = ','.toUInt8 then (frame.enter rest).map fun rest => (frame :: frames, rest)
      else if b = frame.close.toUInt8 then leave frames rest
      else none

/-- One value, or the opening of one that holds others. -/
def ignoreStep (frames : List Frame) (text : List UInt8) : Option (List Frame × List UInt8) :=
  match skipBlank text with
  | [] => none
  | b :: rest =>
    match Frame.opened b with
    | some frame =>
      match token frame.close rest with
      | some rest => leave frames rest
      | none => (frame.enter rest).map fun rest => (frame :: frames, rest)
    | none => (ignoreScalar b rest).bind (leave frames)

/-- What stands behind a value, once no frame of it is open, after at most
`fuel` steps. -/
def ignoreWithin : ℕ → List Frame → List UInt8 → Option (List UInt8)
  | 0, _, _ => none
  | fuel + 1, frames, text => do
    let (frames, rest) ← ignoreStep frames text
    if frames = [] then some rest else ignoreWithin fuel frames rest

/-- What stands behind a value, read no further than where it ends. -/
def ignoreValue (text : List UInt8) : Option (List UInt8) :=
  ignoreWithin (text.length + 1) [] text

/-! ## Objects -/

section Objects

variable {σ : Type}

/-- Behind the comma that stands before every entry but the first. -/
def nextEntry (first : Bool) (text : List UInt8) : Option (List UInt8) :=
  if first then some text else token ',' text

/-- The entries up to the closing brace, at most `fuel` of them: `entry` is
handed each key and what stands behind its colon, and hands back what stands
behind the value. -/
def readEntriesWithin (entry : String → σ → List UInt8 → Option (σ × List UInt8)) :
    ℕ → Bool → σ → List UInt8 → Option (σ × List UInt8)
  | 0, _, _, _ => none
  | fuel + 1, first, state, text =>
    match token '\x7d' text with
    | some rest => some (state, rest)
    | none => do
      let (key, rest) ← readString (← nextEntry first text)
      let (state, rest) ← entry key state (← token ':' rest)
      readEntriesWithin entry fuel false state rest

/-- The entries up to the closing brace, from a state. -/
def readEntries (entry : String → σ → List UInt8 → Option (σ × List UInt8)) (state : σ)
    (text : List UInt8) : Option (σ × List UInt8) :=
  readEntriesWithin entry (text.length + 1) true state text

end Objects

/-! ## What a reader takes -/

theorem length_skipBlank_le (text : List UInt8) : (skipBlank text).length ≤ text.length :=
  (List.dropWhile_suffix _).length_le

theorem length_token {c : Char} {text rest : List UInt8} (h : token c text = some rest) :
    rest.length < text.length := by
  have hblank := length_skipBlank_le text
  unfold token at h
  split at h
  · cases h
  · next b tail heq =>
    split_ifs at h
    obtain rfl := Option.some.inj h
    rw [heq] at hblank
    exact Nat.lt_of_succ_le hblank

theorem length_word {letters : List Char} {text rest : List UInt8}
    (h : word letters text = some rest) : rest.length ≤ text.length := by
  unfold word at h
  split_ifs at h
  obtain rfl := Option.some.inj h
  rw [List.length_drop]
  omega

theorem length_lexString {text rest : List UInt8} {pieces : List Piece}
    (h : lexString text = some (pieces, rest)) : rest.length < text.length := by
  obtain ⟨-, rfl⟩ := eq_spell_of_lexString h
  simp only [List.length_append, List.length_cons]
  omega

theorem length_readString {text rest : List UInt8} {value : String}
    (h : readString text = some (value, rest)) : rest.length < text.length := by
  simp only [readString, Option.bind_eq_bind, Option.bind_eq_some_iff] at h
  obtain ⟨opened, hopened, ⟨pieces, rest'⟩, hlexed, bytes, -, value', -, heq⟩ := h
  obtain ⟨-, rfl⟩ := Prod.mk.inj (Option.some.inj heq)
  exact Nat.lt_trans (length_lexString hlexed) (length_token hopened)

theorem length_readUnsigned {size n : ℕ} {text rest : List UInt8}
    (h : readUnsigned size text = some (n, rest)) : rest.length ≤ text.length := by
  simp only [readUnsigned] at h
  split_ifs at h
  obtain ⟨m, -, heq⟩ := Option.map_eq_some_iff.1 h
  obtain ⟨-, rfl⟩ := Prod.mk.inj heq
  exact (List.dropWhile_suffix _).length_le.trans (length_skipBlank_le text)

theorem length_ignoreDigits {text rest : List UInt8} (h : ignoreDigits text = some rest) :
    rest.length < text.length := by
  cases text with
  | nil => cases h
  | cons b tail =>
    simp only [ignoreDigits] at h
    split_ifs at h
    obtain rfl := Option.some.inj h
    exact Nat.lt_succ_of_le (List.dropWhile_suffix _).length_le

theorem length_ignoreExponent {text rest : List UInt8} (h : ignoreExponent text = some rest) :
    rest.length ≤ text.length := by
  unfold ignoreExponent at h
  split at h
  · exact (congrArg List.length (Option.some.inj h)).ge
  · split_ifs at h
    · split at h
      · cases h
      · split_ifs at h
        all_goals
          have := length_ignoreDigits h
          simp only [List.length_cons] at this ⊢
          omega
    · exact (congrArg List.length (Option.some.inj h)).ge

theorem length_ignoreFraction {text rest : List UInt8} (h : ignoreFraction text = some rest) :
    rest.length ≤ text.length := by
  unfold ignoreFraction at h
  split at h
  · exact (congrArg List.length (Option.some.inj h)).ge
  · split_ifs at h
    · obtain ⟨digits, hdigits, hexponent⟩ := Option.bind_eq_some_iff.1 h
      have := length_ignoreDigits hdigits
      have := length_ignoreExponent hexponent
      rw [List.length_cons]
      omega
    · exact length_ignoreExponent h

theorem length_ignoreNumber {text rest : List UInt8} (h : ignoreNumber text = some rest) :
    rest.length < text.length := by
  cases text with
  | nil => cases h
  | cons b tail =>
    rw [List.length_cons]
    simp only [ignoreNumber] at h
    split_ifs at h
    · exact Nat.lt_succ_of_le (length_ignoreFraction h)
    · have hdigits : (tail.dropWhile isDigit).length ≤ tail.length :=
        (List.dropWhile_suffix _).length_le
      exact Nat.lt_succ_of_le ((length_ignoreFraction h).trans hdigits)

theorem length_ignoreScalar {b : UInt8} {text rest : List UInt8}
    (h : ignoreScalar b text = some rest) : rest.length ≤ text.length := by
  unfold ignoreScalar at h
  split_ifs at h
  · exact length_word h
  · exact length_word h
  · exact length_word h
  · exact (length_ignoreNumber h).le
  · exact Nat.lt_succ_iff.1 (length_ignoreNumber h)
  · obtain ⟨⟨pieces, rest'⟩, hlexed, rfl⟩ := Option.map_eq_some_iff.1 h
    exact (length_lexString hlexed).le

theorem Frame.length_enter {frame : Frame} {text rest : List UInt8}
    (h : frame.enter text = some rest) : rest.length ≤ text.length := by
  cases frame with
  | list => exact (congrArg List.length (Option.some.inj h)).ge
  | object =>
    simp only [Frame.enter, Option.bind_eq_bind, Option.bind_eq_some_iff] at h
    obtain ⟨opened, hopened, ⟨pieces, behind⟩, hlexed, hcolon⟩ := h
    have hkey : behind.length < text.length :=
      (length_lexString hlexed).trans (length_token hopened)
    exact ((length_token hcolon).trans hkey).le

theorem length_leave {frames frames' : List Frame} {text rest : List UInt8}
    (h : leave frames text = some (frames', rest)) : rest.length ≤ text.length := by
  induction frames generalizing text with
  | nil =>
    obtain ⟨-, rfl⟩ := Prod.mk.inj (Option.some.inj h)
    exact le_rfl
  | cons frame frames ih =>
    have hblank := length_skipBlank_le text
    unfold leave at h
    split at h
    · cases h
    · next b tail heq =>
      rw [heq, List.length_cons] at hblank
      split_ifs at h
      · obtain ⟨entered, hentered, heq⟩ := Option.map_eq_some_iff.1 h
        obtain ⟨-, rfl⟩ := Prod.mk.inj heq
        have := Frame.length_enter hentered
        omega
      · have := ih h
        omega

/-- **Every step takes a byte.** -/
theorem length_ignoreStep {frames frames' : List Frame} {text rest : List UInt8}
    (h : ignoreStep frames text = some (frames', rest)) : rest.length < text.length := by
  have hblank := length_skipBlank_le text
  unfold ignoreStep at h
  split at h
  · cases h
  · next b tail heq =>
    rw [heq, List.length_cons] at hblank
    suffices rest.length ≤ tail.length by omega
    split at h
    · split at h
      · next hclosed => exact (length_leave h).trans (length_token hclosed).le
      · obtain ⟨entered, hentered, heq⟩ := Option.map_eq_some_iff.1 h
        obtain ⟨-, rfl⟩ := Prod.mk.inj heq
        exact Frame.length_enter hentered
    · obtain ⟨ignored, hignored, hleave⟩ := Option.bind_eq_some_iff.1 h
      exact (length_leave hleave).trans (length_ignoreScalar hignored)

/-- **So a value is passed within as many steps as the text has bytes**: more
change nothing. -/
theorem ignoreWithin_succ {fuel : ℕ} {frames : List Frame} {text : List UInt8}
    (h : text.length < fuel) :
    ignoreWithin (fuel + 1) frames text = ignoreWithin fuel frames text := by
  induction fuel generalizing frames text with
  | zero => cases h
  | succ fuel ih =>
    rw [ignoreWithin, ignoreWithin]
    cases hstep : ignoreStep frames text with
    | none => rfl
    | some stepped =>
      have := length_ignoreStep hstep
      simp only [Option.bind_eq_bind, Option.bind_some, ih (by omega : stepped.2.length < fuel)]

/-- What more fuel does not change is the same for all of it. -/
theorem eq_of_stable {α : Type} {f : ℕ → α} {n fuel : ℕ} (hstable : ∀ k, n < k → f (k + 1) = f k)
    (h : n < fuel) : f fuel = f (n + 1) := by
  induction h with
  | refl => rfl
  | step hlt ih => exact (hstable _ hlt).trans ih

/-- **A value is passed alike however much more fuel there is**: it runs out on
no text. -/
theorem ignoreWithin_eq_ignoreValue {fuel : ℕ} {text : List UInt8} (h : text.length < fuel) :
    ignoreWithin fuel [] text = ignoreValue text :=
  eq_of_stable (f := fun fuel => ignoreWithin fuel [] text) (fun _ => ignoreWithin_succ) h

theorem length_ignoreWithin {fuel : ℕ} {frames : List Frame} {text rest : List UInt8}
    (h : ignoreWithin fuel frames text = some rest) : rest.length < text.length := by
  induction fuel generalizing frames text with
  | zero => cases h
  | succ fuel ih =>
    simp only [ignoreWithin, Option.bind_eq_bind, Option.bind_eq_some_iff] at h
    obtain ⟨⟨frames', rest'⟩, hstep, h⟩ := h
    have := length_ignoreStep hstep
    split_ifs at h
    · obtain rfl := Option.some.inj h
      exact this
    · exact (ih h).trans this

theorem length_nextEntry {first : Bool} {text rest : List UInt8}
    (h : nextEntry first text = some rest) : rest.length ≤ text.length := by
  unfold nextEntry at h
  split_ifs at h
  · exact (congrArg List.length (Option.some.inj h)).ge
  · exact (length_token h).le

section Objects

variable {σ : Type} {entry : String → σ → List UInt8 → Option (σ × List UInt8)}

/-- **So the entries of an object are read within as many steps as the text
has bytes**, where no entry hands back more than it was handed. -/
theorem readEntriesWithin_succ
    (hentry : ∀ {key state text state' rest}, entry key state text = some (state', rest) →
      rest.length ≤ text.length) {fuel : ℕ} {first : Bool} {state : σ} {text : List UInt8}
    (h : text.length < fuel) :
    readEntriesWithin entry (fuel + 1) first state text
      = readEntriesWithin entry fuel first state text := by
  induction fuel generalizing first state text with
  | zero => cases h
  | succ fuel ih =>
    rw [readEntriesWithin, readEntriesWithin]
    split
    · rfl
    · simp only [Option.bind_eq_bind]
      refine Option.bind_congr fun opened hfirst => Option.bind_congr fun read hkey =>
        Option.bind_congr fun value hvalue => Option.bind_congr fun entered hread => ih ?_
      have := length_nextEntry hfirst
      have := length_readString hkey
      have := length_token hvalue
      have := hentry hread
      omega

theorem readEntriesWithin_eq_readEntries
    (hentry : ∀ {key state text state' rest}, entry key state text = some (state', rest) →
      rest.length ≤ text.length) {fuel : ℕ} {state : σ} {text : List UInt8}
    (h : text.length < fuel) :
    readEntriesWithin entry fuel true state text = readEntries entry state text :=
  eq_of_stable (f := fun fuel => readEntriesWithin entry fuel true state text)
    (fun _ => readEntriesWithin_succ hentry) h

end Objects

end JsonBytes
