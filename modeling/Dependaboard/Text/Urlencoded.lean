import Mathlib.Data.List.Basic
import Mathlib.Data.List.TakeDrop
/-!
# URL-encoded forms — pairs of text in a query

Pairs of names and values as one text, each byte of them a letter, a digit
or an escape, and read back. `FormUrlencoded` is what may be relied on: what
is written is read as it was, and nothing written ends the query it is in.
`urlencoded` is the coding itself.
-/

/-- A coding of pairs as the text of a query. -/
structure FormUrlencoded where
  parse : String → List (String × String)
  serialize : List (String × String) → String
  /-- What is written is read as it was. -/
  parse_serialize : ∀ pairs, parse (serialize pairs) = pairs
  /-- No fragment begins in it. -/
  hash_notMem : ∀ pairs, '#' ∉ (serialize pairs).toList

namespace Urlencoded

/-- A digit of an escape. -/
def hexDigit (n : ℕ) : Char := if n < 10 then Char.ofNat (48 + n) else Char.ofNat (55 + n)

/-- The value of a digit of an escape, in either case. -/
def hexValue (c : Char) : Option ℕ :=
  if 48 ≤ c.toNat ∧ c.toNat < 58 then some (c.toNat - 48)
  else if 65 ≤ c.toNat ∧ c.toNat < 71 then some (c.toNat - 55)
  else if 97 ≤ c.toNat ∧ c.toNat < 103 then some (c.toNat - 87)
  else none

/-- The byte stands for itself: a letter, a digit, or one of `*-._`. -/
def isPlain (n : ℕ) : Bool :=
  48 ≤ n && n < 58 || 65 ≤ n && n < 91 || 97 ≤ n && n < 123 || n = 42 || n = 45 || n = 46 || n = 95

/-- One byte. -/
def writeByte (b : UInt8) : List Char :=
  if b = 32 then ['+']
  else if isPlain b.toNat then [Char.ofNat b.toNat]
  else ['%', hexDigit (b.toNat / 16), hexDigit (b.toNat % 16)]

/-- A name or a value. -/
def writeText (text : String) : List Char := text.toByteArray.data.toList.flatMap writeByte

/-- The sign between a name and its value is written of neither. -/
def writePair (pair : String × String) : List Char :=
  writeText pair.1 ++ '=' :: writeText pair.2

/-- The pairs of a query, in their order. -/
def write (pairs : List (String × String)) : List Char :=
  ['&'].intercalate (pairs.map writePair)

/-- The bytes a name or a value stands for. -/
def readBytes : List Char → List UInt8
  | [] => []
  | '+' :: rest => 32 :: readBytes rest
  | '%' :: high :: low :: rest =>
    match hexValue high, hexValue low with
    | some high, some low => .ofNat (16 * high + low) :: readBytes rest
    | _, _ => 37 :: readBytes (high :: low :: rest)
  | c :: rest => String.utf8EncodeChar c ++ readBytes rest

/-- Bytes as text; bytes that are none are the replacement character. -/
def lossyText (bytes : List UInt8) : String :=
  (String.fromUTF8? ⟨bytes.toArray⟩).getD (String.ofList [Char.ofNat 0xFFFD])

/-- A name, and the value behind the first sign. -/
def readPair (piece : List Char) : String × String :=
  (lossyText (readBytes (piece.takeWhile (· ≠ '='))),
    lossyText (readBytes ((piece.dropWhile (· ≠ '=')).drop 1)))

/-- Pieces with nothing in them are no pairs, so a stray `&` means nothing. -/
def read (text : List Char) : List (String × String) :=
  ((text.splitOn '&').filter (· ≠ [])).map readPair

/-! ## What is written is read as it was -/

/-- A byte that stands for itself is one character, which is read as it. -/
theorem plain_facts : ∀ n < 256, isPlain n = true →
    Char.ofNat n ≠ '+' ∧ Char.ofNat n ≠ '%' ∧ Char.ofNat n ≠ '&' ∧ Char.ofNat n ≠ '=' ∧
      Char.ofNat n ≠ '#' ∧ String.utf8EncodeChar (Char.ofNat n) = [UInt8.ofNat n] := by
  decide +kernel

theorem hex_facts : ∀ n < 16, hexValue (hexDigit n) = some n ∧ hexDigit n ≠ '&' ∧
    hexDigit n ≠ '=' ∧ hexDigit n ≠ '#' := by
  decide

/-- **One byte is read as it was written.** -/
theorem readBytes_writeByte (b : UInt8) (rest : List Char) :
    readBytes (writeByte b ++ rest) = b :: readBytes rest := by
  have hb : b.toNat < 256 := b.toNat_lt
  unfold writeByte
  split
  · next hspace => rw [hspace]; rfl
  · split
    · next hplain =>
      obtain ⟨hplus, hpercent, -, -, -, hutf8⟩ := plain_facts _ hb hplain
      rw [List.cons_append, List.nil_append, readBytes.eq_4 _ _ hplus fun _ _ _ h _ => hpercent h,
        hutf8, UInt8.ofNat_toNat]
      rfl
    · obtain ⟨hhigh, -⟩ := hex_facts (b.toNat / 16) (by omega)
      obtain ⟨hlow, -⟩ := hex_facts (b.toNat % 16) (by omega)
      have hsum : 16 * (b.toNat / 16) + b.toNat % 16 = b.toNat := by omega
      simp only [List.cons_append, List.nil_append, readBytes, hhigh, hlow, hsum, UInt8.ofNat_toNat]

theorem readBytes_flatMap (bytes : List UInt8) : readBytes (bytes.flatMap writeByte) = bytes := by
  induction bytes with
  | nil => rfl
  | cons b bytes ih => rw [List.flatMap_cons, readBytes_writeByte, ih]

/-- **A text is read as it was written.** -/
theorem lossyText_writeText (text : String) : lossyText (readBytes (writeText text)) = text := by
  have hutf8 : String.fromUTF8? ⟨text.toByteArray.data.toList.toArray⟩ = some text := by
    rw [String.fromUTF8?, Array.toArray_toList]
    exact dif_pos text.isValidUTF8
  rw [writeText, readBytes_flatMap, lossyText, hutf8, Option.getD_some]

/-- What stands apart from the text of a pair does not occur in it. -/
theorem sep_notMem_writeText (text : String) :
    '&' ∉ writeText text ∧ '=' ∉ writeText text ∧ '#' ∉ writeText text := by
  have hbyte : ∀ b : UInt8, ∀ c ∈ writeByte b, c ≠ '&' ∧ c ≠ '=' ∧ c ≠ '#' := by
    intro b c hc
    have hb : b.toNat < 256 := b.toNat_lt
    unfold writeByte at hc
    split at hc
    · obtain rfl := List.mem_singleton.1 hc
      decide
    split at hc
    · next hplain =>
      obtain rfl := List.mem_singleton.1 hc
      obtain ⟨-, -, hand, hequals, hhash, -⟩ := plain_facts _ hb hplain
      exact ⟨hand, hequals, hhash⟩
    · obtain ⟨-, hhigh⟩ := hex_facts (b.toNat / 16) (by omega)
      obtain ⟨-, hlow⟩ := hex_facts (b.toNat % 16) (by omega)
      simp only [List.mem_cons, List.not_mem_nil, or_false] at hc
      rcases hc with rfl | rfl | rfl
      · decide
      · exact hhigh
      · exact hlow
  have hall : ∀ c ∈ writeText text, c ≠ '&' ∧ c ≠ '=' ∧ c ≠ '#' := fun c hc => by
    obtain ⟨b, -, hc⟩ := List.mem_flatMap.1 hc
    exact hbyte b c hc
  exact ⟨fun h => (hall _ h).1 rfl, fun h => (hall _ h).2.1 rfl, fun h => (hall _ h).2.2 rfl⟩

theorem readPair_writePair (pair : String × String) : readPair (writePair pair) = pair := by
  have hname : ∀ c ∈ writeText pair.1, (decide (c ≠ '=')) = true := fun c hc =>
    decide_eq_true fun h => (sep_notMem_writeText pair.1).2.1 (h ▸ hc)
  rw [readPair, writePair, List.takeWhile_append_of_pos hname, List.dropWhile_append_of_pos hname,
    List.takeWhile_cons_of_neg (by simp), List.dropWhile_cons_of_neg (by simp), List.append_nil,
    List.drop_succ_cons, List.drop_zero, lossyText_writeText, lossyText_writeText]

/-- **Pairs are read as they were written.** -/
theorem read_write (pairs : List (String × String)) : read (write pairs) = pairs := by
  have hpieces : ∀ piece ∈ pairs.map writePair, '&' ∉ piece := by
    intro piece hpiece
    obtain ⟨pair, -, rfl⟩ := List.mem_map.1 hpiece
    intro hmem
    rcases List.mem_append.1 hmem with hname | hvalue
    · exact (sep_notMem_writeText pair.1).1 hname
    · rcases List.mem_cons.1 hvalue with hsign | hvalue
      · exact absurd hsign (by decide)
      · exact (sep_notMem_writeText pair.2).1 hvalue
  cases pairs with
  | nil => rfl
  | cons pair pairs =>
    have hkept : ((pair :: pairs).map writePair).filter (· ≠ [])
        = (pair :: pairs).map writePair := by
      refine List.filter_eq_self.2 fun piece hpiece => decide_eq_true ?_
      obtain ⟨pair, -, rfl⟩ := List.mem_map.1 hpiece
      exact List.append_ne_nil_of_right_ne_nil _ nofun
    rw [read, write, List.splitOn_intercalate '&' hpieces nofun, hkept, List.map_map]
    refine (List.map_congr_left fun pair _ => ?_).trans (List.map_id _)
    exact readPair_writePair pair

theorem hash_notMem_write (pairs : List (String × String)) : '#' ∉ write pairs := by
  have hpair (pair : String × String) : '#' ∉ writePair pair := by
    intro hmem
    rcases List.mem_append.1 hmem with hname | hvalue
    · exact (sep_notMem_writeText pair.1).2.2 hname
    · rcases List.mem_cons.1 hvalue with hsign | hvalue
      · exact absurd hsign (by decide)
      · exact (sep_notMem_writeText pair.2).2.2 hvalue
  unfold write
  induction pairs with
  | nil => nofun
  | cons pair pairs ih =>
    cases pairs with
    | nil => simpa using hpair pair
    | cons next pairs =>
      rw [List.map_cons, List.map_cons, List.intercalate_cons_cons, ← List.map_cons]
      intro hmem
      rcases List.mem_append.1 hmem with hmem | hmem
      · rcases List.mem_append.1 hmem with hmem | hmem
        · exact hpair pair hmem
        · exact absurd (List.mem_singleton.1 hmem) (by decide)
      · exact ih hmem

end Urlencoded

/-- **The coding itself.** -/
def urlencoded : FormUrlencoded where
  parse text := Urlencoded.read text.toList
  serialize pairs := String.ofList (Urlencoded.write pairs)
  parse_serialize pairs := by rw [String.toList_ofList, Urlencoded.read_write]
  hash_notMem pairs := by rw [String.toList_ofList]; exact Urlencoded.hash_notMem_write pairs

example : urlencoded.serialize [("q", "serde json"), ("pr", "7#9")] = "q=serde+json&pr=7%239" := by
  decide +kernel
