import Mathlib.Data.List.Basic
/-!
# Decimal text — a number and its digits

Digits read one behind the other are a number. The number's own digits are
the ones it was read from where no zero leads them but the one of zero
itself: `toDigits_ofDigitChars`.
-/

namespace Decimal

theorem digitChar_of_isDigit {c : Char} (h : c.isDigit = true) :
    (c.toNat - '0'.toNat).digitChar = c ∧ c.toNat - '0'.toNat < 10 := by
  obtain ⟨hlow, hhigh⟩ := Char.isDigit_iff_toNat.1 h
  have hlow' : 48 ≤ c.toNat := hlow
  have hhigh' : c.toNat ≤ 57 := hhigh
  have hzero : '0'.toNat = 48 := rfl
  refine ⟨Char.toNat_inj.1 ?_, by omega⟩
  rw [Nat.toNat_digitChar_of_lt_ten (by omega)]
  omega

/-- No zero leads, but the one of zero itself. -/
def NoLeadingZero (digits : List Char) : Prop := digits.head? = some '0' → digits = ['0']

instance (digits : List Char) : Decidable (NoLeadingZero digits) :=
  inferInstanceAs (Decidable (_ → _))

theorem isDigit_toDigits (n : ℕ) : ∀ c ∈ Nat.toDigits 10 n, c.isDigit = true := fun _ hc =>
  Nat.isDigit_of_mem_toDigits (by decide) (by decide) hc

theorem noLeadingZero_toDigits (n : ℕ) : NoLeadingZero (Nat.toDigits 10 n) := by
  induction n using Nat.strongRecOn with
  | ind n ih =>
    intro hzero
    by_cases hlt : n < 10
    · rw [Nat.toDigits_of_lt_base hlt] at hzero ⊢
      exact congrArg (fun c => [c]) (Option.some.inj hzero)
    · -- a longer number's first digit is that of its tenth, which is not zero
      have hne : Nat.toDigits 10 (n / 10) ≠ [] := Nat.toDigits_ne_nil
      rw [Nat.toDigits_of_base_le (by decide) (by omega), List.head?_append_of_ne_nil _ hne]
        at hzero
      have htenth := congrArg (Nat.ofDigitChars 10 · 0) (ih (n / 10) (by omega) hzero)
      rw [Nat.ofDigitChars_ten_toDigits] at htenth
      have hnot : n / 10 ≠ 0 := by omega
      exact absurd htenth hnot

/-- Digits read after a number that is not zero are the digits after its
own. -/
theorem toDigits_append {digits : List Char} (hdigits : ∀ c ∈ digits, c.isDigit = true) {n : ℕ}
    (hn : 0 < n) :
    Nat.toDigits 10 n ++ digits = Nat.toDigits 10 (Nat.ofDigitChars 10 digits n) := by
  -- on the digits left, from whichever number the ones before them made
  induction digits generalizing n with
  | nil => exact List.append_nil _
  | cons c rest ih =>
    obtain ⟨hchar, hlt⟩ := digitChar_of_isDigit (hdigits c List.mem_cons_self)
    have hpush : Nat.toDigits 10 n ++ [c]
        = Nat.toDigits 10 (10 * n + (c.toNat - '0'.toNat)) := by
      rw [← Nat.toDigits_append_toDigits (by decide) hn hlt, Nat.toDigits_of_lt_base hlt, hchar]
    rw [Nat.ofDigitChars_cons, ← ih (fun d hd => hdigits d (List.mem_cons_of_mem _ hd)) (by omega),
      ← hpush, List.append_assoc, List.singleton_append]

/-- **A number's own digits are the ones it was read from**, where no zero
leads them. -/
theorem toDigits_ofDigitChars {digits : List Char} (hdigits : ∀ c ∈ digits, c.isDigit = true)
    (hne : digits ≠ []) (hzero : NoLeadingZero digits) :
    Nat.toDigits 10 (Nat.ofDigitChars 10 digits 0) = digits := by
  cases digits with
  | nil => exact absurd rfl hne
  | cons c rest =>
    obtain ⟨hchar, hlt⟩ := digitChar_of_isDigit (hdigits c List.mem_cons_self)
    by_cases hc : c = '0'
    · -- a zero stands alone
      have hrest : rest = [] := (List.cons.inj (hzero (congrArg some hc))).2
      subst hc hrest
      rfl
    · have hpos : 0 < c.toNat - '0'.toNat := by
        rcases Nat.eq_zero_or_pos (c.toNat - '0'.toNat) with hz | hpos
        · rw [hz] at hchar
          exact absurd hchar.symm hc
        · exact hpos
      rw [Nat.ofDigitChars_cons, Nat.mul_zero, Nat.zero_add,
        ← toDigits_append (fun d hd => hdigits d (List.mem_cons_of_mem _ hd)) hpos,
        Nat.toDigits_of_lt_base hlt, hchar, List.singleton_append]

/-- A number's digits with zeros before them up to a width. -/
def pad (width n : ℕ) : List Char := (Nat.toDigits 10 n).leftpad width '0'

theorem isDigit_pad {width n : ℕ} {c : Char} (h : c ∈ pad width n) : c.isDigit = true := by
  rcases List.mem_append.1 h with hzero | hdigit
  · rw [List.eq_of_mem_replicate hzero]
    decide
  · exact isDigit_toDigits n c hdigit

/-- The zeros before a number do not change what is read. -/
theorem pad_injective (width : ℕ) : Function.Injective (pad width) := by
  intro n m h
  have hread (k : ℕ) : Nat.ofDigitChars 10 (pad width k) 0 = k := by
    rw [pad, List.leftpad, Nat.ofDigitChars_append, Nat.ofDigitChars_replicate_zero, Nat.mul_zero,
      Nat.ofDigitChars_ten_toDigits]
  rw [← hread n, h, hread m]

/-- A padded number ends where its separator stands. -/
theorem pad_append_cons_inj {width n m : ℕ} {sep : Char} (hsep : sep.isDigit = false)
    {rest rest' : List Char} (h : pad width n ++ sep :: rest = pad width m ++ sep :: rest') :
    n = m ∧ rest = rest' := by
  have hdigits (k : ℕ) (tail : List Char) :
      (pad width k ++ sep :: tail).takeWhile Char.isDigit = pad width k := by
    rw [List.takeWhile_append_of_pos fun c hc => isDigit_pad hc,
      List.takeWhile_cons_of_neg (by rw [hsep]; decide), List.append_nil]
  have hpad : pad width n = pad width m := by
    rw [← hdigits n rest, h, hdigits m rest']
  rw [hpad] at h
  exact ⟨pad_injective width hpad, (List.cons.inj (List.append_cancel_left h)).2⟩

end Decimal
