import Mathlib.Data.List.Basic
/-!
# JSON text — strings, numbers and literals

A string as JSON text: between quotes, with a backslash before what may not
stand for itself. A reader takes what it knows off the front of a text and
hands back the rest, so readers compose by `Option`'s sequencing; each comes
with the law that it takes back what was written, whatever stands behind it.
-/

namespace Json

/-- A digit of a `\u` escape. -/
def hexDigit (n : ℕ) : Char := if n < 10 then Char.ofNat (48 + n) else Char.ofNat (87 + n)

/-- The value of a digit of a `\u` escape. -/
def hexValue (c : Char) : Option ℕ :=
  if 48 ≤ c.toNat ∧ c.toNat < 58 then some (c.toNat - 48)
  else if 97 ≤ c.toNat ∧ c.toNat < 103 then some (c.toNat - 87)
  else none

theorem hexValue_hexDigit : ∀ n < 16, hexValue (hexDigit n) = some n := by decide

/-- The letter that stands behind a backslash for a character, where there is
one. -/
def shortEscape (c : Char) : Option Char :=
  match c.toNat with
  | 8 => some 'b'
  | 9 => some 't'
  | 10 => some 'n'
  | 12 => some 'f'
  | 13 => some 'r'
  | 34 => some '"'
  | 92 => some '\\'
  | _ => none

/-- The character a letter behind a backslash stands for. -/
def unescape (c : Char) : Option Char :=
  match c.toNat with
  | 98 => some (Char.ofNat 8)
  | 116 => some (Char.ofNat 9)
  | 110 => some (Char.ofNat 10)
  | 102 => some (Char.ofNat 12)
  | 114 => some (Char.ofNat 13)
  | 34 => some '"'
  | 92 => some '\\'
  | _ => none

/-- One character inside quotes. -/
def writeChar (c : Char) : List Char :=
  match shortEscape c with
  | some letter => ['\\', letter]
  | none =>
    if c.toNat < 32 then ['\\', 'u', '0', '0', hexDigit (c.toNat / 16), hexDigit (c.toNat % 16)]
    else [c]

/-- A string, between quotes. -/
def writeString (value : String) : List Char := '"' :: (value.toList.flatMap writeChar ++ ['"'])

/-- The characters up to the closing quote, and what stands behind it. -/
def readChars : List Char → Option (List Char × List Char)
  | [] => none
  | '"' :: rest => some ([], rest)
  | '\\' :: 'u' :: '0' :: '0' :: high :: low :: rest => do
    let high ← hexValue high
    let low ← hexValue low
    let (chars, rest) ← readChars rest
    return (Char.ofNat (16 * high + low) :: chars, rest)
  | '\\' :: letter :: rest => do
    let c ← unescape letter
    let (chars, rest) ← readChars rest
    return (c :: chars, rest)
  | c :: rest => do
    if c.toNat < 32 then none
    let (chars, rest) ← readChars rest
    return (c :: chars, rest)

/-- A string, and what stands behind it. -/
def readString : List Char → Option (String × List Char)
  | '"' :: rest => do
    let (chars, rest) ← readChars rest
    return (String.ofList chars, rest)
  | _ => none

/-- What stands behind a literal. -/
def readLiteral : List Char → List Char → Option (List Char)
  | [], text => some text
  | _ :: _, [] => none
  | c :: literal, d :: text => if c = d then readLiteral literal text else none

@[simp] theorem readLiteral_append (literal rest : List Char) :
    readLiteral literal (literal ++ rest) = some rest := by
  induction literal with
  | nil => cases rest <;> rfl
  | cons c literal ih => simp [readLiteral, ih]

/-- A natural number. -/
def writeNatural (n : ℕ) : List Char := Nat.toDigits 10 n

/-- Every short escape is read as its character. -/
theorem unescape_of_shortEscape {c letter : Char} (h : shortEscape c = some letter) :
    unescape letter = some c ∧ letter ≠ 'u' := by
  have hback : ∀ n, c.toNat = n → Char.ofNat n = c := fun n hn => by
    rw [← hn, Char.ofNat_toNat]
  unfold shortEscape at h
  split at h
  all_goals try cases h
  all_goals
    rename_i hn
    rw [← hback _ hn]
    decide

/-- **One character is read as it was written.** -/
theorem readChars_writeChar (c : Char) (rest : List Char) :
    readChars (writeChar c ++ rest)
      = (readChars rest).map fun read => (c :: read.1, read.2) := by
  unfold writeChar
  cases hshort : shortEscape c with
  | some letter =>
    obtain ⟨hread, hletter⟩ := unescape_of_shortEscape hshort
    simp only [List.cons_append, List.nil_append]
    rw [readChars.eq_4 letter rest (fun _ _ _ h => absurd h hletter), hread]
    cases readChars rest <;> rfl
  | none =>
    by_cases hcontrol : c.toNat < 32
    · have hhigh := hexValue_hexDigit (c.toNat / 16) (by omega)
      have hlow := hexValue_hexDigit (c.toNat % 16) (by omega)
      have hsum : 16 * (c.toNat / 16) + c.toNat % 16 = c.toNat := by omega
      simp only [if_pos hcontrol, List.cons_append, List.nil_append, readChars, hhigh, hlow]
      simp only [Option.bind_eq_bind, Option.bind_some, hsum, Char.ofNat_toNat]
      cases readChars rest <;> rfl
    · have hquote : c ≠ '"' := by rintro rfl; cases hshort
      have hslash : c ≠ '\\' := by rintro rfl; cases hshort
      simp only [if_neg hcontrol, List.cons_append, List.nil_append]
      rw [readChars.eq_def]
      split <;> simp_all
      rw [if_neg (by omega), Option.map_eq_bind]
      rfl

theorem readChars_flatMap (chars rest : List Char) :
    readChars (chars.flatMap writeChar ++ '"' :: rest) = some (chars, rest) := by
  induction chars with
  | nil => rfl
  | cons c chars ih =>
    rw [List.flatMap_cons, List.append_assoc, readChars_writeChar, ih]
    rfl

/-- **A string is read as it was written.** -/
@[simp] theorem readString_writeString (value : String) (rest : List Char) :
    readString (writeString value ++ rest) = some (value, rest) := by
  have hread := readChars_flatMap value.toList rest
  simp only [writeString, List.cons_append, List.append_assoc, List.nil_append, readString, hread]
  simp

example : String.ofList (writeString "a\"b\n") = "\"a\\\"b\\n\"" := by decide

/-! ## Lists -/

section Lists

variable {α : Type}

/-- What stands behind the first element of a list, or in its place. -/
def writeRest (write : α → List Char) : List α → List Char
  | [] => [']']
  | a :: rest => ',' :: (write a ++ writeRest write rest)

/-- A list, between brackets. -/
def writeList (write : α → List Char) : List α → List Char
  | [] => ['[', ']']
  | a :: rest => '[' :: (write a ++ writeRest write rest)

/-- The elements up to the closing bracket, at most `fuel` of them, and what
stands behind it. -/
def readRest (read : List Char → Option (α × List Char)) :
    ℕ → List Char → Option (List α × List Char)
  | _, ']' :: rest => some ([], rest)
  | fuel + 1, ',' :: rest => do
    let (a, rest) ← read rest
    let (elements, rest) ← readRest read fuel rest
    return (a :: elements, rest)
  | _, _ => none

/-- A list, and what stands behind it. -/
def readList (read : List Char → Option (α × List Char)) :
    List Char → Option (List α × List Char)
  | '[' :: ']' :: rest => some ([], rest)
  | '[' :: rest => do
    let (a, rest) ← read rest
    let (elements, rest) ← readRest read rest.length rest
    return (a :: elements, rest)
  | _ => none

variable {write : α → List Char} {read : List Char → Option (α × List Char)}

theorem readRest_writeRest (hread : ∀ a rest, read (write a ++ rest) = some (a, rest))
    (elements : List α) {fuel : ℕ} (hfuel : elements.length ≤ fuel) (rest : List Char) :
    readRest read fuel (writeRest write elements ++ rest) = some (elements, rest) := by
  induction elements generalizing fuel with
  | nil => cases fuel <;> rfl
  | cons a elements ih =>
    cases fuel with
    | zero => cases hfuel
    | succ fuel =>
      simp only [writeRest, List.cons_append, List.append_assoc, readRest, hread,
        Option.bind_eq_bind, Option.bind_some, ih (Nat.le_of_succ_le_succ hfuel)]
      rfl

theorem length_le_writeRest (write : α → List Char) (elements : List α) :
    elements.length ≤ (writeRest write elements).length := by
  induction elements with
  | nil => exact Nat.zero_le _
  | cons a elements ih =>
    simp only [writeRest, List.length_cons, List.length_append]
    omega

/-- **A list is read as it was written**, where an element is, none of which
begins with a closing bracket. -/
theorem readList_writeList (hread : ∀ a rest, read (write a ++ rest) = some (a, rest))
    (hfirst : ∀ a rest, (write a ++ rest).head? ≠ some ']') (elements : List α)
    (rest : List Char) :
    readList read (writeList write elements ++ rest) = some (elements, rest) := by
  cases elements with
  | nil => rfl
  | cons a elements =>
    have hlength : elements.length ≤ (writeRest write elements ++ rest).length := by
      have := length_le_writeRest write elements
      rw [List.length_append]
      omega
    rw [writeList, List.cons_append, List.append_assoc]
    have hnext := hfirst a (writeRest write elements ++ rest)
    unfold readList
    split
    · next heq =>
      rw [(List.cons.inj heq).2] at hnext
      exact absurd rfl hnext
    · next heq =>
      obtain rfl := (List.cons.inj heq).2
      simp only [hread, Option.bind_eq_bind, Option.bind_some, readRest_writeRest hread _ hlength]
      rfl
    · next hnone => exact absurd rfl (hnone _)

end Lists

end Json
