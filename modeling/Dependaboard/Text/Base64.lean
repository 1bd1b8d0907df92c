import Mathlib.Data.List.Basic
/-!
# Base64 text — bytes in letters

Three bytes are four letters of the alphabet that is safe in a URL; one or
two bytes left over are two or three, without padding. A reader refuses a
letter of no alphabet, a letter alone, and a last letter with bits no byte
has.
-/

namespace Base64

/-- The letter of six bits. -/
def letter (n : ℕ) : Char :=
  if n < 26 then Char.ofNat (65 + n)
  else if n < 52 then Char.ofNat (71 + n)
  else if n < 62 then Char.ofNat (n - 4)
  else if n = 62 then '-'
  else '_'

/-- The six bits of a letter. -/
def bits (c : Char) : Option ℕ :=
  if 65 ≤ c.toNat ∧ c.toNat < 91 then some (c.toNat - 65)
  else if 97 ≤ c.toNat ∧ c.toNat < 123 then some (c.toNat - 71)
  else if 48 ≤ c.toNat ∧ c.toNat < 58 then some (c.toNat + 4)
  else if c = '-' then some 62
  else if c = '_' then some 63
  else none

theorem bits_letter : ∀ n < 64, bits (letter n) = some n := by decide

/-- A letter is the one of its bits. -/
theorem letter_of_bits {c : Char} {n : ℕ} (h : bits c = some n) : n < 64 ∧ letter n = c := by
  have hback : ∀ m, m = c.toNat → Char.ofNat m = c := fun m hm => by
    rw [hm, Char.ofNat_toNat]
  unfold bits at h
  split_ifs at h with hupper hlower hdigit hdash hlow
  all_goals obtain rfl := Option.some.inj h
  · exact ⟨by omega, by rw [letter, if_pos (by omega), hback _ (by omega)]⟩
  · exact ⟨by omega, by
      rw [letter, if_neg (by omega), if_pos (by omega), hback _ (by omega)]⟩
  · exact ⟨by omega, by
      rw [letter, if_neg (by omega), if_neg (by omega), if_pos (by omega), hback _ (by omega)]⟩
  · exact ⟨by decide, hdash.symm⟩
  · exact ⟨by decide, hlow.symm⟩

/-- Bytes as text. -/
def encode : List UInt8 → List Char
  | [] => []
  | [a] => [letter (a.toNat / 4), letter (a.toNat % 4 * 16)]
  | [a, b] =>
    [letter (a.toNat / 4), letter (a.toNat % 4 * 16 + b.toNat / 16), letter (b.toNat % 16 * 4)]
  | a :: b :: c :: rest =>
    letter (a.toNat / 4) :: letter (a.toNat % 4 * 16 + b.toNat / 16)
      :: letter (b.toNat % 16 * 4 + c.toNat / 64) :: letter (c.toNat % 64) :: encode rest

/-- The bytes of a text. -/
def decode : List Char → Option (List UInt8)
  | [] => some []
  | [_] => none
  | [w, x] => do
    let w ← bits w
    let x ← bits x
    if x % 16 = 0 then some [.ofNat (w * 4 + x / 16)] else none
  | [w, x, y] => do
    let w ← bits w
    let x ← bits x
    let y ← bits y
    if y % 4 = 0 then some [.ofNat (w * 4 + x / 16), .ofNat (x % 16 * 16 + y / 4)] else none
  | w :: x :: y :: z :: rest => do
    let w ← bits w
    let x ← bits x
    let y ← bits y
    let z ← bits z
    let rest ← decode rest
    return .ofNat (w * 4 + x / 16) :: .ofNat (x % 16 * 16 + y / 4) :: .ofNat (y % 4 * 64 + z)
      :: rest

/-- A byte put together of its bits. -/
theorem ofNat_of_eq {a : UInt8} {n : ℕ} (h : n = a.toNat) : UInt8.ofNat n = a := by
  rw [h, UInt8.ofNat_toNat]

/-- **Bytes are read as they were written.** -/
theorem decode_encode (bytes : List UInt8) : decode (encode bytes) = some bytes := by
  -- three bytes to four letters; one or two bytes left over end in zero bits
  induction bytes using encode.induct with
  | case1 => rfl
  | case2 a =>
    have ha := a.toNat_lt
    have hfirst : UInt8.ofNat (a.toNat / 4 * 4 + a.toNat % 4 * 16 / 16) = a :=
      ofNat_of_eq (by omega)
    have hlast : a.toNat % 4 * 16 % 16 = 0 := by omega
    simp only [encode, decode, bits_letter _ (by omega : a.toNat / 4 < 64),
      bits_letter _ (by omega : a.toNat % 4 * 16 < 64), Option.bind_eq_bind, Option.bind_some,
      if_pos hlast, hfirst]
  | case3 a b =>
    have ha := a.toNat_lt
    have hb := b.toNat_lt
    have hfirst : UInt8.ofNat (a.toNat / 4 * 4 + (a.toNat % 4 * 16 + b.toNat / 16) / 16) = a :=
      ofNat_of_eq (by omega)
    have hsecond : UInt8.ofNat
        ((a.toNat % 4 * 16 + b.toNat / 16) % 16 * 16 + b.toNat % 16 * 4 / 4) = b :=
      ofNat_of_eq (by omega)
    have hlast : b.toNat % 16 * 4 % 4 = 0 := by omega
    simp only [encode, decode, bits_letter _ (by omega : a.toNat / 4 < 64),
      bits_letter _ (by omega : a.toNat % 4 * 16 + b.toNat / 16 < 64),
      bits_letter _ (by omega : b.toNat % 16 * 4 < 64), Option.bind_eq_bind, Option.bind_some,
      if_pos hlast, hfirst, hsecond]
  | case4 a b c rest ih =>
    have ha := a.toNat_lt
    have hb := b.toNat_lt
    have hc := c.toNat_lt
    have hfirst : UInt8.ofNat (a.toNat / 4 * 4 + (a.toNat % 4 * 16 + b.toNat / 16) / 16) = a :=
      ofNat_of_eq (by omega)
    have hsecond : UInt8.ofNat ((a.toNat % 4 * 16 + b.toNat / 16) % 16 * 16
        + (b.toNat % 16 * 4 + c.toNat / 64) / 4) = b := ofNat_of_eq (by omega)
    have hthird : UInt8.ofNat ((b.toNat % 16 * 4 + c.toNat / 64) % 4 * 64 + c.toNat % 64) = c :=
      ofNat_of_eq (by omega)
    simp only [encode, decode, bits_letter _ (by omega : a.toNat / 4 < 64),
      bits_letter _ (by omega : a.toNat % 4 * 16 + b.toNat / 16 < 64),
      bits_letter _ (by omega : b.toNat % 16 * 4 + c.toNat / 64 < 64),
      bits_letter _ (by omega : c.toNat % 64 < 64), Option.bind_eq_bind, Option.bind_some, ih,
      hfirst, hsecond, hthird]
    rfl

/-- **A text that is read is the one written for its bytes.** -/
theorem encode_of_decode {text : List Char} {bytes : List UInt8} (h : decode text = some bytes) :
    encode bytes = text := by
  have hbyte : ∀ n, n < 256 → (UInt8.ofNat n).toNat = n := fun n hn => UInt8.toNat_ofNat_of_lt hn
  induction text using decode.induct generalizing bytes with
  | case1 =>
    obtain rfl := Option.some.inj h
    rfl
  | case2 c => cases h
  | case3 w x =>
    simp only [decode, Option.bind_eq_bind, Option.bind_eq_some_iff] at h
    obtain ⟨first, hfirst, second, hsecond, hlast⟩ := h
    obtain ⟨hw, rfl⟩ := letter_of_bits hfirst
    obtain ⟨hx, rfl⟩ := letter_of_bits hsecond
    split_ifs at hlast with hzero
    obtain rfl := Option.some.inj hlast
    have hupper : (first * 4 + second / 16) / 4 = first := by omega
    have hlower : (first * 4 + second / 16) % 4 * 16 = second := by omega
    rw [encode, hbyte _ (by omega), hupper, hlower]
  | case4 w x y =>
    simp only [decode, Option.bind_eq_bind, Option.bind_eq_some_iff] at h
    obtain ⟨first, hfirst, second, hsecond, third, hthird, hlast⟩ := h
    obtain ⟨hw, rfl⟩ := letter_of_bits hfirst
    obtain ⟨hx, rfl⟩ := letter_of_bits hsecond
    obtain ⟨hy, rfl⟩ := letter_of_bits hthird
    split_ifs at hlast with hzero
    obtain rfl := Option.some.inj hlast
    have hupper : (first * 4 + second / 16) / 4 = first := by omega
    have hmiddle : (first * 4 + second / 16) % 4 * 16 + (second % 16 * 16 + third / 4) / 16
        = second := by omega
    have hlower : (second % 16 * 16 + third / 4) % 16 * 4 = third := by omega
    rw [encode, hbyte _ (by omega), hbyte _ (by omega), hupper, hmiddle, hlower]
  | case5 w x y z rest ih =>
    simp only [decode, Option.bind_eq_bind, Option.bind_eq_some_iff] at h
    obtain ⟨first, hfirst, second, hsecond, third, hthird, fourth, hfourth, tail, hrest,
      hlast⟩ := h
    obtain ⟨hw, rfl⟩ := letter_of_bits hfirst
    obtain ⟨hx, rfl⟩ := letter_of_bits hsecond
    obtain ⟨hy, rfl⟩ := letter_of_bits hthird
    obtain ⟨hz, rfl⟩ := letter_of_bits hfourth
    obtain rfl := Option.some.inj hlast
    have hupper : (first * 4 + second / 16) / 4 = first := by omega
    have hsecond' : (first * 4 + second / 16) % 4 * 16 + (second % 16 * 16 + third / 4) / 16
        = second := by omega
    have hthird' : (second % 16 * 16 + third / 4) % 16 * 4 + (third % 4 * 64 + fourth) / 64
        = third := by omega
    have hlower : (third % 4 * 64 + fourth) % 64 = fourth := by omega
    rw [encode, hbyte _ (by omega), hbyte _ (by omega), hbyte _ (by omega), hupper, hsecond',
      hthird', hlower, ih hrest]

example : String.ofList (encode [1, 255, 62, 63]) = "Af8-Pw" := by decide

end Base64
