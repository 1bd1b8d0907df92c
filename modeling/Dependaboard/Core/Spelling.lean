import Mathlib.Data.List.Basic
import Dependaboard.Core.Records
import Dependaboard.Text.Decimal
/-!
# Dependaboard — how a key is spelled

A key's text is read back as the key, and its halves by a parser of
integers that lets a sign lead and zeros too. So a key has the spelling it
is written in and others beside it, and a text that is read as a key is the
one written for it exactly when its halves are plain:
`PrKey.one_spelling`.
-/

namespace Dependaboard

/-! ## Digits pushed one by one -/

theorem pushDigit_eq_some {n m : ℕ} {c : Char} (h : pushDigit n c = some m) :
    c.isDigit = true ∧ m = n * 10 + (c.toNat - '0'.toNat) := by
  unfold pushDigit at h
  split at h
  · split at h
    · exact ⟨‹_›, (Option.some.inj h).symm⟩
    · cases h
  · cases h

/-- What is read is digits, and the number they are. -/
theorem foldlM_pushDigit_eq_some {digits : List Char} {n m : ℕ}
    (h : digits.foldlM pushDigit n = some m) :
    (∀ c ∈ digits, c.isDigit = true) ∧ m = Nat.ofDigitChars 10 digits n := by
  induction digits generalizing n with
  | nil => exact ⟨fun c hc => absurd hc List.not_mem_nil, (Option.some.inj h).symm⟩
  | cons c rest ih =>
    rw [List.foldlM_cons] at h
    obtain ⟨next, hnext, hrest⟩ := Option.bind_eq_some_iff.1 h
    obtain ⟨hdigit, rfl⟩ := pushDigit_eq_some hnext
    obtain ⟨hdigits, rfl⟩ := ih hrest
    refine ⟨fun d hd => ?_, by rw [Nat.ofDigitChars_cons, Nat.mul_comm]⟩
    rcases List.mem_cons.1 hd with rfl | hd
    · exact hdigit
    · exact hdigits d hd

/-! ## Plain numbers -/

/-- No sign leads, and no zero but the one of zero itself. -/
def PlainNumber (text : List Char) : Prop :=
  text.head? ≠ some '+' ∧ (text.head? = some '0' → text = ['0'])

instance (text : List Char) : Decidable (PlainNumber text) := inferInstanceAs (Decidable (_ ∧ _))

/-- The number's own digits are plain. -/
theorem plainNumber_toDigits (n : ℕ) : PlainNumber (Nat.toDigits 10 n) := by
  refine ⟨fun hsign => ?_, Decimal.noLeadingZero_toDigits n⟩
  have hdigit : ('+' : Char).isDigit = true :=
    Decimal.isDigit_toDigits n '+' (List.mem_of_head? hsign)
  exact absurd hdigit (by decide)

/-- **A number that is read is written as it was read exactly when it was
plain.** -/
theorem eq_toDigits_iff {text : List Char} {n : ℕ} (h : parseU64 text = some n) :
    text = Nat.toDigits 10 n ↔ PlainNumber text := by
  constructor
  · rintro rfl
    exact plainNumber_toDigits n
  · rintro ⟨hsign, hzero⟩
    cases text with
    | nil => cases h
    | cons c rest =>
      have hsign' : c ≠ '+' := fun hc => hsign (congrArg some hc)
      have hfold : (c :: rest).foldlM pushDigit 0 = some n := by
        simpa [parseU64, hsign'] using h
      obtain ⟨hdigits, rfl⟩ := foldlM_pushDigit_eq_some hfold
      exact (Decimal.toDigits_ofDigitChars hdigits (List.cons_ne_nil c rest) hzero).symm

/-! ## Plain keys -/

theorem splitOnce_eq_some {sep : Char} {text before after : List Char}
    (h : splitOnce sep text = some (before, after)) : text = before ++ sep :: after := by
  induction text generalizing before with
  | nil => cases h
  | cons c rest ih =>
    unfold splitOnce at h
    split_ifs at h with hc
    · obtain ⟨rfl, rfl⟩ := Prod.mk.inj (Option.some.inj h)
      rw [hc, List.nil_append]
    · obtain ⟨halves, hhalves, heq⟩ := Option.map_eq_some_iff.1 h
      obtain ⟨rfl, rfl⟩ := Prod.mk.inj heq
      rw [List.cons_append, ← ih hhalves]

/-- The halves of the text, at its first separator, are plain. -/
def PrKey.Plain (value : String) : Prop :=
  ∀ halves ∈ splitOnce '#' value.toList, PlainNumber halves.1 ∧ PlainNumber halves.2

instance (value : String) : Decidable (PrKey.Plain value) :=
  inferInstanceAs (Decidable (∀ _ ∈ _, _))

theorem PrKey.parse_eq_ok {value : String} {key : PrKey} (h : PrKey.parse value = .ok key) :
    ∃ repositoryId number, splitOnce '#' value.toList = some (repositoryId, number) ∧
      parseU64 repositoryId = some key.repositoryId ∧ parseU64 number = some key.number := by
  unfold PrKey.parse at h
  split at h
  · cases h
  · next repositoryId number hsplit =>
    split at h
    · next hrepository hnumber =>
      obtain rfl := Except.ok.inj h
      exact ⟨repositoryId, number, hsplit, hrepository, hnumber⟩
    · cases h

theorem PrKey.eq_toString_iff {value : String} {key : PrKey} (h : PrKey.parse value = .ok key) :
    value = toString key ↔ PrKey.Plain value := by
  obtain ⟨repositoryId, number, hsplit, hrepository, hnumber⟩ := PrKey.parse_eq_ok h
  have hplain : PrKey.Plain value ↔ PlainNumber repositoryId ∧ PlainNumber number := by
    simp [PrKey.Plain, hsplit]
  rw [hplain, ← eq_toDigits_iff hrepository, ← eq_toDigits_iff hnumber]
  constructor
  · rintro rfl
    rw [key.toList_toString, splitOnce_append (hash_notMem_toDigits _)] at hsplit
    obtain ⟨rfl, rfl⟩ := Prod.mk.inj (Option.some.inj hsplit)
    exact ⟨rfl, rfl⟩
  · rintro ⟨hrepository, hnumber⟩
    refine String.toList_inj.1 ?_
    rw [splitOnce_eq_some hsplit, key.toList_toString, ← hrepository, ← hnumber]

/-- **A key comes back from its text, and a text read as a key is that
key's exactly when it is plain**, so no two plain texts are read as one
key. -/
theorem PrKey.one_spelling (key : PrKey) (value : String) :
    (key.Valid → PrKey.parse (toString key) = .ok key) ∧
    (PrKey.parse value = .ok key → (value = toString key ↔ PrKey.Plain value)) ∧
    ∀ other, PrKey.Plain value → PrKey.Plain other →
      PrKey.parse value = .ok key → PrKey.parse other = .ok key → value = other := by
  refine ⟨PrKey.parse_toString, PrKey.eq_toString_iff,
    fun other hvalue hother hparse hparse' => ?_⟩
  rw [(PrKey.eq_toString_iff hparse).2 hvalue, (PrKey.eq_toString_iff hparse').2 hother]

/-- **A sign or a zero before a key's numbers is read past**: three texts of
one key, of which one is written. -/
theorem PrKey.spelled_otherwise :
    PrKey.parse "7#1" = .ok ⟨7, 1⟩ ∧ PrKey.parse "+7#1" = .ok ⟨7, 1⟩ ∧
      PrKey.parse "007#1" = .ok ⟨7, 1⟩ ∧
      ¬ ∀ value key, PrKey.parse value = .ok key → value = toString key := by
  have hsigned : PrKey.parse "+7#1" = .ok ⟨7, 1⟩ := by decide
  refine ⟨by decide, hsigned, by decide, fun h => ?_⟩
  exact absurd (h "+7#1" ⟨7, 1⟩ hsigned) (by decide)

end Dependaboard
