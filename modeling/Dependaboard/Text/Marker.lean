import Mathlib.Data.List.Infix
import Mathlib.Data.Nat.Find

/-!
# Marker text — the lines that begin with a mark

A mark at the start of a line is a line break with the mark behind it. The mark
holds no break of its own, so a break in a text parts what lies before it from
what lies behind it: a marked line is a line of the one or of the other
(`infix_append_break`), and the first one is found whatever follows
(`dropInfix?_append`, `dropInfix?_append_break`).
-/

namespace Marker

variable {mark xs ys : List Char}

/-- A text is parted at the first place it holds another. -/
theorem dropInfix?_eq_some {i before after : List Char} :
    xs.dropInfix? i = some (before, after) ↔ xs = before ++ i ++ after ∧
      ∀ before' after', xs = before' ++ i ++ after' → before.length ≤ before'.length := by
  rw [List.dropInfix?_eq_some_iff]
  simp only [beq_iff_eq, ge_iff_le]
  constructor
  · rintro ⟨⟨_, hxs, rfl⟩, hfirst⟩
    exact ⟨hxs, fun before' after' hxs' => hfirst before' _ after' hxs' rfl⟩
  · rintro ⟨hxs, hfirst⟩
    exact ⟨⟨i, hxs, rfl⟩, fun before' i' after' hxs' hi => hfirst before' after' (hi ▸ hxs')⟩

theorem dropInfix?_eq_none_iff {i : List Char} : xs.dropInfix? i = none ↔ ¬ i <:+: xs := by
  constructor
  · rintro hnone ⟨before, after, hxs⟩
    classical
    have hex : ∃ n, ∃ before after, before.length = n ∧ before ++ i ++ after = xs :=
      ⟨_, before, after, rfl, hxs⟩
    obtain ⟨first, rest, hlen, hfirst⟩ := Nat.find_spec hex
    have hsome : xs.dropInfix? i = some (first, rest) :=
      dropInfix?_eq_some.2 ⟨hfirst.symm, fun before' after' hxs' => by
        rw [hlen]
        exact Nat.find_min' hex ⟨before', after', rfl, hxs'.symm⟩⟩
    rw [hsome] at hnone
    cases hnone
  · intro hnot
    cases hsome : xs.dropInfix? i with
    | none => rfl
    | some found => exact absurd ⟨_, _, (dropInfix?_eq_some.1 hsome).1.symm⟩ hnot

/-- What is found first in a text is found first in any text it begins. -/
theorem dropInfix?_append {i before after : List Char} (h : xs.dropInfix? i = some (before, after))
    (ys : List Char) : (xs ++ ys).dropInfix? i = some (before, after ++ ys) := by
  obtain ⟨hxs, hfirst⟩ := dropInfix?_eq_some.1 h
  refine dropInfix?_eq_some.2 ⟨by rw [hxs, List.append_assoc], fun before' after' hxs' => ?_⟩
  by_contra hlt
  have hbegins : before' ++ i <+: xs := by
    refine List.prefix_of_prefix_length_le ⟨after', hxs'.symm⟩ (List.prefix_append xs ys) ?_
    rw [hxs]
    simp only [List.length_append]
    omega
  obtain ⟨after'', hxs''⟩ := hbegins
  exact hlt (hfirst before' after'' hxs''.symm)

/-- A mark does not reach over a line break. -/
theorem prefix_append_break (hmark : '\n' ∉ mark) :
    mark <+: xs ++ '\n' :: ys ↔ mark <+: xs := by
  constructor
  · rintro ⟨rest, h⟩
    rcases List.append_eq_append_iff.1 h with ⟨tail, hxs, -⟩ | ⟨tail, hxs, htail⟩
    · exact ⟨tail, hxs.symm⟩
    · cases tail with
      | nil => exact ⟨[], by rw [List.append_nil, hxs, List.append_nil]⟩
      | cons c tail =>
        have hc : c = '\n' := (List.cons.inj htail).1.symm
        rw [hxs, hc] at hmark
        exact absurd (List.mem_append_right _ List.mem_cons_self) hmark
  · exact fun h => h.trans (List.prefix_append _ _)

/-- Some line of the text begins with the mark. -/
def BeginsLine (mark text : List Char) : Prop := mark <+: text ∨ '\n' :: mark <:+: text

instance (mark text : List Char) : Decidable (BeginsLine mark text) :=
  inferInstanceAs (Decidable (_ ∨ _))

/-- **A marked line behind a break of a text** is behind one of what lies before
a break, or is a line of what lies behind it. -/
theorem infix_append_break (hmark : '\n' ∉ mark) :
    '\n' :: mark <:+: xs ++ '\n' :: ys ↔ '\n' :: mark <:+: xs ∨ BeginsLine mark ys := by
  unfold BeginsLine
  induction xs with
  | nil =>
    simp [List.infix_cons_iff, List.cons_prefix_cons]
  | cons x xs ih =>
    rw [List.cons_append, List.infix_cons_iff, List.infix_cons_iff, ih, List.cons_prefix_cons,
      List.cons_prefix_cons, prefix_append_break hmark, or_assoc]

/-- **The marked line is found** where none comes before it. -/
theorem dropInfix?_append_break (hmark : '\n' ∉ mark) (h : ¬ '\n' :: mark <:+: xs) :
    (xs ++ '\n' :: (mark ++ ys)).dropInfix? ('\n' :: mark) = some (xs, ys) := by
  refine dropInfix?_eq_some.2 ⟨by simp, fun before after hxs => ?_⟩
  by_contra hlt
  have hbefore : before <+: xs ++ '\n' :: (mark ++ ys) :=
    ⟨'\n' :: mark ++ after, by rw [hxs, List.append_assoc]⟩
  obtain ⟨tail, rfl⟩ := List.prefix_of_prefix_length_le hbefore (List.prefix_append xs _)
    (by omega)
  cases tail with
  | nil => simp at hlt
  | cons c tail =>
    -- The mark found starts before the break, and so ends before it.
    have hrest : c :: (tail ++ '\n' :: (mark ++ ys)) = '\n' :: (mark ++ after) := by
      simpa using hxs
    obtain ⟨hc, htail⟩ := List.cons.inj hrest
    have hmark' : mark <+: tail := (prefix_append_break hmark).1 ⟨after, htail.symm⟩
    refine h (List.IsInfix.trans ?_ (List.suffix_append before (c :: tail)).isInfix)
    exact (List.cons_prefix_cons.2 ⟨hc.symm, hmark'⟩).isInfix

end Marker
