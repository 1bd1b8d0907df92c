import Mathlib.Data.List.TakeWhile
import Dependaboard.Text.Base64
/-!
# Base64 text — padded, in the standard alphabet

The same letters but for two, and `=` up to a multiple of four. A reader takes
the padding there has to be, no more and no less, so a text that is read is
again the one written for its bytes.
-/

namespace Base64

/-- The standard alphabet's letter for one that is safe in a URL. -/
def standard (c : Char) : Char := if c = '-' then '+' else if c = '_' then '/' else c

/-- The letter that is safe in a URL for one of the standard alphabet. -/
def urlSafe (c : Char) : Option Char :=
  if c = '+' then some '-'
  else if c = '/' then some '_'
  else if c = '-' ∨ c = '_' then none
  else some c

/-- How many `=` go after some letters. -/
def padding (letters : ℕ) : ℕ := (4 - letters % 4) % 4

/-- Bytes as padded text. -/
def encodePadded (bytes : List UInt8) : List Char :=
  (encode bytes).map standard ++ List.replicate (padding (encode bytes).length) '='

/-- The bytes of a padded text. -/
def decodePadded (text : List Char) : Option (List UInt8) :=
  let letters := text.takeWhile (· ≠ '=')
  let rest := text.dropWhile (· ≠ '=')
  if rest = List.replicate (padding letters.length) '=' then (letters.mapM urlSafe).bind decode
  else none

/-- A letter has bits. -/
theorem isSome_bits_of_mem_encode {bytes : List UInt8} {c : Char} (h : c ∈ encode bytes) :
    (bits c).isSome := by
  have hletter (n : ℕ) (hn : n < 64) : (bits (letter n)).isSome := by
    rw [bits_letter n hn]
    rfl
  induction bytes using encode.induct with
  | case1 => cases h
  | case2 a =>
    have ha := a.toNat_lt
    simp only [encode, List.mem_cons, List.not_mem_nil, or_false] at h
    rcases h with rfl | rfl
    exacts [hletter _ (by omega), hletter _ (by omega)]
  | case3 a b =>
    have ha := a.toNat_lt
    have hb := b.toNat_lt
    simp only [encode, List.mem_cons, List.not_mem_nil, or_false] at h
    rcases h with rfl | rfl | rfl
    exacts [hletter _ (by omega), hletter _ (by omega), hletter _ (by omega)]
  | case4 a b c rest ih =>
    have ha := a.toNat_lt
    have hb := b.toNat_lt
    have hc := c.toNat_lt
    simp only [encode, List.mem_cons] at h
    rcases h with rfl | rfl | rfl | rfl | hrest
    exacts [hletter _ (by omega), hletter _ (by omega), hletter _ (by omega), hletter _ (by omega),
      ih hrest]

/-- A letter is read back from the standard alphabet, where none is `=`. -/
theorem urlSafe_standard {c : Char} (h : (bits c).isSome) :
    urlSafe (standard c) = some c ∧ standard c ≠ '=' := by
  have hplus : c ≠ '+' := by
    rintro rfl
    cases h
  have hslash : c ≠ '/' := by
    rintro rfl
    cases h
  have hequals : c ≠ '=' := by
    rintro rfl
    cases h
  by_cases hdash : c = '-'
  · subst hdash
    decide
  · by_cases hlow : c = '_'
    · subst hlow
      decide
    · simp [standard, urlSafe, hdash, hlow, hplus, hslash, hequals]

theorem standard_urlSafe {c d : Char} (h : urlSafe c = some d) : standard d = c := by
  unfold urlSafe at h
  split_ifs at h with hplus hslash hother
  · obtain rfl := Option.some.inj h
    exact hplus.symm
  · obtain rfl := Option.some.inj h
    exact hslash.symm
  · obtain rfl := Option.some.inj h
    rw [not_or] at hother
    simp [standard, hother.1, hother.2]

/-- Letters are read back from the standard alphabet. -/
theorem mapM_urlSafe {letters : List Char} (h : ∀ c ∈ letters, (bits c).isSome) :
    (letters.map standard).mapM urlSafe = some letters := by
  induction letters with
  | nil => rfl
  | cons c rest ih =>
    rw [List.map_cons, List.mapM_cons, (urlSafe_standard (h c List.mem_cons_self)).1,
      ih fun d hd => h d (List.mem_cons_of_mem c hd)]
    rfl

theorem map_standard {text letters : List Char} (h : text.mapM urlSafe = some letters) :
    letters.map standard = text := by
  induction text generalizing letters with
  | nil =>
    obtain rfl := Option.some.inj h
    rfl
  | cons c rest ih =>
    rw [List.mapM_cons] at h
    obtain ⟨first, hfirst, h⟩ := Option.bind_eq_some_iff.1 h
    obtain ⟨others, hothers, h⟩ := Option.bind_eq_some_iff.1 h
    obtain rfl := Option.some.inj h
    rw [List.map_cons, standard_urlSafe hfirst, ih hothers]

/-- **Bytes are read as they were written**, padded. -/
theorem decodePadded_encodePadded (bytes : List UInt8) :
    decodePadded (encodePadded bytes) = some bytes := by
  have hletters : ∀ c ∈ (encode bytes).map standard, decide (c ≠ '=') = true := by
    intro _ hmem
    obtain ⟨c, hc, rfl⟩ := List.mem_map.1 hmem
    exact decide_eq_true (urlSafe_standard (isSome_bits_of_mem_encode hc)).2
  have hpadding (n : ℕ) : (List.replicate n '=').takeWhile (fun c => decide (c ≠ '=')) = [] ∧
      (List.replicate n '=').dropWhile (fun c => decide (c ≠ '=')) = List.replicate n '=' := by
    cases n <;> simp [List.replicate_succ]
  rw [decodePadded, encodePadded, List.takeWhile_append_of_pos hletters,
    List.dropWhile_append_of_pos hletters, (hpadding _).1, (hpadding _).2, List.append_nil,
    List.length_map, if_pos rfl, mapM_urlSafe fun c hc => isSome_bits_of_mem_encode hc,
    Option.bind_some, decode_encode]

/-- **A padded text that is read is the one written for its bytes.** -/
theorem encodePadded_of_decodePadded {text : List Char} {bytes : List UInt8}
    (h : decodePadded text = some bytes) : encodePadded bytes = text := by
  rw [decodePadded] at h
  split_ifs at h with hrest
  obtain ⟨letters, hletters, hdecode⟩ := Option.bind_eq_some_iff.1 h
  obtain rfl := encode_of_decode hdecode
  have hstandard : (encode bytes).map standard = text.takeWhile (· ≠ '=') := map_standard hletters
  rw [encodePadded, hstandard, ← List.length_map (f := standard), hstandard, ← hrest,
    List.takeWhile_append_dropWhile]

/-- A padded text is of visible ASCII. -/
theorem visible_of_mem_encodePadded {bytes : List UInt8} {c : Char} (h : c ∈ encodePadded bytes) :
    32 ≤ c.toNat ∧ c.toNat < 127 := by
  rcases List.mem_append.1 h with hletter | hpadding
  · obtain ⟨d, hd, rfl⟩ := List.mem_map.1 hletter
    obtain ⟨n, hn⟩ := Option.isSome_iff_exists.1 (isSome_bits_of_mem_encode hd)
    obtain ⟨hlt, rfl⟩ := letter_of_bits hn
    have hall : ∀ n < 64, 32 ≤ (standard (letter n)).toNat ∧ (standard (letter n)).toNat < 127 := by
      decide
    exact hall n hlt
  · rw [List.eq_of_mem_replicate hpadding]
    decide

end Base64
