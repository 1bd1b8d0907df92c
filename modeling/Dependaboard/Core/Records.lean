import Mathlib.Algebra.GroupWithZero.Nat
import Mathlib.Data.List.Basic
/-!
# Dependaboard — keys and records

What the projection holds: a pull request's key and the row it is the key
of, the repository the row hangs off, and the retirement queued when a
prune removes it. A key travels as text, the key of its object, and
`PrKey.parse_toString` is that it comes back.

An unsigned 64-bit integer is a natural number here; where the code checks
a bound the check is in the definition, and where a value is promised to be
one the promise is `PrKey.Valid`.
-/

namespace Dependaboard

/-- One past the largest unsigned 64-bit integer. -/
def u64Size : ℕ := 2 ^ 64

/-- A pull request's key: its repository, and its number there. -/
structure PrKey where
  repositoryId : ℕ
  number : ℕ
  deriving DecidableEq, Repr

/-- How severe an update is. The words are kept in columns and addresses, so
none of them may change. -/
inductive UpdateType where
  | major
  | minor
  | patch
  | unknown
  deriving DecidableEq, Repr

/-- The rollup of a head's checks. -/
inductive CheckStatus where
  | success
  | failure
  | pending
  | none
  deriving DecidableEq, Repr

/-- GitHub's `mergeable_state`. A state not known of folds into `unknown`, so
that a new one breaks no sync. -/
inductive Mergeable where
  | clean
  | dirty
  | blocked
  | behind
  | unstable
  | draft
  | hasHooks
  | unknown
  deriving DecidableEq, Repr

/-- How a merge is made, by the word GitHub takes for it. -/
inductive MergeMethod where
  | merge
  | squash
  | rebase
  deriving DecidableEq, Repr

/-- One dependency a pull request updates. -/
structure DependencyUpdate where
  name : String
  fromVersion : Option String
  toVersion : Option String
  updateType : UpdateType
  deriving DecidableEq, Repr

/-- A repository as the projection holds it. -/
structure RepoRecord where
  repositoryId : ℕ
  installationId : ℕ
  owner : String
  repo : String
  /-- The method to use where the configured preference is disallowed. -/
  mergeMethod : Option MergeMethod
  syncedAt : ℕ
  deriving DecidableEq, Repr

/-- A pull request as the projection holds it and as its object's snapshot. -/
structure PrRecord where
  id : String
  repositoryId : ℕ
  owner : String
  repo : String
  number : ℕ
  title : String
  htmlUrl : String
  dependency : Option String
  fromVersion : Option String
  toVersion : Option String
  dependencies : List DependencyUpdate
  updateType : UpdateType
  headSha : String
  checkStatus : CheckStatus
  mergeable : Mergeable
  labels : List String
  createdAt : ℕ
  updatedAt : ℕ
  syncedAt : ℕ
  deriving DecidableEq, Repr

/-- One row of the retirement outbox. -/
structure Retirement where
  id : ℕ
  key : PrKey
  /-- The fence its prune ran under; `none` for a purge. -/
  syncedBefore : Option ℕ
  deriving DecidableEq, Repr

/-- The key of the row: the object that owns it, and the text of its `id`. -/
def PrRecord.key (row : PrRecord) : PrKey := ⟨row.repositoryId, row.number⟩

/-! ## The key as text -/

namespace PrKey

/-- Both halves are unsigned 64-bit integers. -/
def Valid (key : PrKey) : Prop := key.repositoryId < u64Size ∧ key.number < u64Size

instance (key : PrKey) : Decidable key.Valid := inferInstanceAs (Decidable (_ ∧ _))

instance : ToString PrKey where
  toString key := toString key.repositoryId ++ "#" ++ toString key.number

end PrKey

/-- What stands before the first `sep` and what after it. -/
def splitOnce (sep : Char) : List Char → Option (List Char × List Char)
  | [] => none
  | c :: rest =>
    if c = sep then some ([], rest)
    else (splitOnce sep rest).map fun halves => (c :: halves.1, halves.2)

/-- One more digit of an unsigned 64-bit integer, refused past its range. -/
def pushDigit (n : ℕ) (c : Char) : Option ℕ :=
  if c.isDigit then
    if n * 10 + (c.toNat - '0'.toNat) < u64Size then some (n * 10 + (c.toNat - '0'.toNat))
    else none
  else none

/-- An unsigned 64-bit integer in decimal, with the sign its parser lets
lead. -/
def parseU64 (text : List Char) : Option ℕ :=
  let digits := match text with
    | '+' :: rest => rest
    | _ => text
  if digits = [] then none else digits.foldlM pushDigit 0

/-- A key read back from text. -/
def PrKey.parse (value : String) : Except String PrKey :=
  match splitOnce '#' value.toList with
  | none => .error ("invalid pull request key: " ++ value)
  | some (repositoryId, number) =>
    match parseU64 repositoryId, parseU64 number with
    | some repositoryId, some number => .ok ⟨repositoryId, number⟩
    | _, _ => .error ("invalid pull request key: " ++ value)

/-- A digit pushed within the range is read as its value. -/
theorem pushDigit_digitChar {n d : ℕ} (hd : d < 10) (hn : n * 10 + d < u64Size) :
    pushDigit n d.digitChar = some (n * 10 + d) := by
  have hdigits : ∀ d < 10, d.digitChar.isDigit = true ∧ d.digitChar.toNat - 48 = d := by decide
  obtain ⟨hdigit, hvalue⟩ := hdigits d hd
  simp [pushDigit, hdigit, hvalue, hn]

/-- The digits of a number in range read back as the number. -/
theorem foldlM_pushDigit_toDigits (n : ℕ) (hn : n < u64Size) :
    (Nat.toDigits 10 n).foldlM pushDigit 0 = some n := by
  induction n using Nat.strongRecOn with
  | ind n ih =>
    by_cases hlt : n < 10
    · rw [Nat.toDigits_of_lt_base hlt]
      simp [pushDigit_digitChar hlt (n := 0) (by omega)]
    · have hle : 10 ≤ n := by omega
      have hmod : n / 10 * 10 + n % 10 = n := by omega
      rw [Nat.toDigits_of_base_le (by decide) hle, List.foldlM_append,
        ih (n / 10) (by omega) (by omega)]
      simp [pushDigit_digitChar (n := n / 10) (Nat.mod_lt n (by decide)) (by omega), hmod]

theorem parseU64_toDigits {n : ℕ} (hn : n < u64Size) : parseU64 (Nat.toDigits 10 n) = some n := by
  have hne : Nat.toDigits 10 n ≠ [] := Nat.toDigits_ne_nil
  have hread := foldlM_pushDigit_toDigits n hn
  have hsign : ∀ rest, Nat.toDigits 10 n ≠ '+' :: rest := fun rest h => by
    have hdigit : ('+' : Char).isDigit = true :=
      Nat.isDigit_of_mem_toDigits (by decide) (by decide) (h ▸ List.mem_cons_self)
    exact absurd hdigit (by decide)
  generalize Nat.toDigits 10 n = digits at hne hread hsign
  unfold parseU64
  split
  · exact absurd rfl (hsign _)
  · simp [hne, hread]

theorem splitOnce_append {sep : Char} {before after : List Char} (h : sep ∉ before) :
    splitOnce sep (before ++ sep :: after) = some (before, after) := by
  induction before with
  | nil => simp [splitOnce]
  | cons c rest ih =>
    have hc : c ≠ sep := fun heq => h (heq ▸ List.mem_cons_self)
    simp [splitOnce, hc, ih fun hmem => h (List.mem_cons_of_mem c hmem)]

theorem hash_notMem_toDigits (n : ℕ) : '#' ∉ Nat.toDigits 10 n := fun h => by
  have hdigit : ('#' : Char).isDigit = true :=
    Nat.isDigit_of_mem_toDigits (by decide) (by decide) h
  exact absurd hdigit (by decide)

theorem PrKey.toList_toString (key : PrKey) : (toString key).toList
    = Nat.toDigits 10 key.repositoryId ++ '#' :: Nat.toDigits 10 key.number := by
  simp [ToString.toString, Nat.toList_repr]

/-- **A key comes back from its text.** -/
theorem PrKey.parse_toString {key : PrKey} (hkey : key.Valid) :
    PrKey.parse (toString key) = .ok key := by
  simp [PrKey.parse, key.toList_toString, splitOnce_append (hash_notMem_toDigits _),
    parseU64_toDigits hkey.1, parseU64_toDigits hkey.2]

theorem foldlM_pushDigit_lt {digits : List Char} {n m : ℕ} (hn : n < u64Size)
    (h : digits.foldlM pushDigit n = some m) : m < u64Size := by
  induction digits generalizing n with
  | nil => exact Option.some.inj h ▸ hn
  | cons c rest ih =>
    rw [List.foldlM_cons] at h
    obtain ⟨next, hnext, hrest⟩ := Option.bind_eq_some_iff.1 h
    refine ih ?_ hrest
    unfold pushDigit at hnext
    split at hnext
    · split at hnext
      · exact Option.some.inj hnext ▸ ‹_›
      · cases hnext
    · cases hnext

theorem parseU64_lt {text : List Char} {n : ℕ} (h : parseU64 text = some n) : n < u64Size := by
  have hdigits (digits : List Char)
      (h : (if digits = [] then none else digits.foldlM pushDigit 0) = some n) : n < u64Size := by
    split at h
    · cases h
    · exact foldlM_pushDigit_lt (by decide) h
  exact hdigits _ h

/-- A key that is read is one. -/
theorem PrKey.valid_of_parse {value : String} {key : PrKey} (h : PrKey.parse value = .ok key) :
    key.Valid := by
  unfold PrKey.parse at h
  split at h
  · cases h
  · split at h
    · next hrepository hnumber =>
      obtain rfl := Except.ok.inj h
      exact ⟨parseU64_lt hrepository, parseU64_lt hnumber⟩
    · cases h

theorem splitOnce_eq_none {sep : Char} {text : List Char} (h : sep ∉ text) :
    splitOnce sep text = none := by
  induction text with
  | nil => rfl
  | cons c rest ih =>
    have hc : c ≠ sep := fun heq => h (heq ▸ List.mem_cons_self)
    rw [splitOnce, if_neg hc, ih fun hmem => h (List.mem_cons_of_mem c hmem), Option.map_none]

/-- **Two keys with one text are one key.** -/
theorem PrKey.toString_injective {a b : PrKey} (h : toString a = toString b) : a = b := by
  have hsplit : ∀ key : PrKey, splitOnce '#' (toString key).toList
      = some (Nat.toDigits 10 key.repositoryId, Nat.toDigits 10 key.number) := fun key => by
    rw [PrKey.toList_toString, splitOnce_append (hash_notMem_toDigits _)]
  have heq := hsplit a
  rw [h, hsplit b, Option.some_inj, Prod.mk.injEq] at heq
  obtain ⟨hrepo, hnumber⟩ := heq
  have hrepo' := congrArg (Nat.ofDigitChars 10 · 0) hrepo
  have hnumber' := congrArg (Nat.ofDigitChars 10 · 0) hnumber
  simp only [Nat.ofDigitChars_ten_toDigits] at hrepo' hnumber'
  cases a; cases b
  simp_all

example : PrKey.parse "7#9" = .ok ⟨7, 9⟩ := by decide

example : (PrKey.parse "7#18446744073709551616").toOption = none := by decide

/-! ## Fallible steps -/

/-- Success of a sequence is success of both, the second on what the first
gave. -/
theorem Except.bind_ok {ε α β : Type} {x : Except ε α} {f : α → Except ε β} {b : β}
    (h : x >>= f = .ok b) : ∃ a, x = .ok a ∧ f a = .ok b := by
  cases x with
  | error e => cases h
  | ok a => exact ⟨a, rfl, h⟩

/-- A sequence fails at its first step, or at its second. -/
theorem Except.bind_error {ε α β : Type} {x : Except ε α} {f : α → Except ε β} {e : ε}
    (h : x >>= f = .error e) : x = .error e ∨ ∃ a, x = .ok a ∧ f a = .error e := by
  cases x with
  | error _ => exact .inl (congrArg Except.error (Except.error.inj h))
  | ok a => exact .inr ⟨a, rfl, h⟩

theorem Except.ok_bind {ε α β : Type} (a : α) (f : α → Except ε β) :
    (Except.ok a >>= f) = f a := rfl

end Dependaboard
