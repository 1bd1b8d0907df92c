import Mathlib.Data.List.Forall2
import Dependaboard.Durable.Asks
/-!
# Programs over another interface

A program written against one interface runs over another where each of its
effects is an effect there, its answer read from the answer there. Its
exchanges are then those of the program as it was written, each seen as the
other interface has it: `exchanges_translate`.
-/

namespace Durable

/-- Each effect of `S` as one of `S'`, and how its answer is read. -/
structure Signature.Reading (S S' : Signature) where
  op : S.Op → S'.Op
  ans : (asked : S.Op) → S'.Ans (op asked) → S.Ans asked

namespace Prog

variable {S S' : Signature} {ε α : Type}

/-- The program over the other interface. -/
def translate (φ : S.Reading S') : Prog S ε α → Prog S' ε α
  | done a => done a
  | fail e => fail e
  | ask op k => ask (φ.op op) fun a => (k (φ.ans op a)).translate φ

variable (φ : S.Reading S')

@[simp] theorem translate_done (a : α) : (done a : Prog S ε α).translate φ = done a := rfl

@[simp] theorem translate_fail (e : ε) : (fail e : Prog S ε α).translate φ = fail e := rfl

@[simp] theorem translate_ask (op : S.Op) (k : S.Ans op → Prog S ε α) :
    (ask op k).translate φ = ask (φ.op op) fun a => (k (φ.ans op a)).translate φ := rfl

/-- It asks for the program's effects. -/
theorem Asks.translate {C : S.Op → Prop} {D : S'.Op → Prop} {p : Prog S ε α} (h : p.Asks C)
    (himp : ∀ op, C op → D (φ.op op)) : (p.translate φ).Asks D := by
  induction p with
  | done a => trivial
  | fail e => trivial
  | ask op k ih => exact ⟨himp op h.1, fun a => ih (φ.ans op a) (h.2 _)⟩

/-- The exchange over the other interface is one of the program's. -/
def SeenAs (e : Exchange S) (e' : Exchange S') : Prop :=
  ∃ op a, e = ⟨op, φ.ans op a⟩ ∧ e' = ⟨φ.op op, a⟩

variable {φ} in
/-- Every exchange of the program is seen. -/
theorem SeenAs.of_mem {es : List (Exchange S)} {es' : List (Exchange S')} {e : Exchange S}
    (h : List.Forall₂ (SeenAs φ) es es') (he : e ∈ es) : ∃ e' ∈ es', SeenAs φ e e' := by
  induction h with
  | nil => cases he
  | cons hseen _ ih =>
    rcases List.mem_cons.1 he with rfl | he
    · exact ⟨_, List.mem_cons_self, hseen⟩
    · obtain ⟨e', he', hseen⟩ := ih he
      exact ⟨e', List.mem_cons_of_mem _ he', hseen⟩

/-- **The exchanges of a translation** are the program's, as they are seen
there. -/
theorem exchanges_translate {p : Prog S ε α} {es' : List (Exchange S')} {r : Except ε α} :
    (p.translate φ).Exchanges es' r ↔
      ∃ es, p.Exchanges es r ∧ List.Forall₂ (SeenAs φ) es es' := by
  induction p generalizing es' with
  | done a =>
    rw [translate_done, exchanges_done]
    constructor
    · rintro ⟨rfl, rfl⟩
      exact ⟨[], .done a, .nil⟩
    · rintro ⟨es, hes, hseen⟩
      obtain ⟨rfl, rfl⟩ := exchanges_done.1 hes
      exact ⟨List.forall₂_nil_left_iff.1 hseen, rfl⟩
  | fail e =>
    rw [translate_fail, exchanges_fail]
    constructor
    · rintro ⟨rfl, rfl⟩
      exact ⟨[], .fail e, .nil⟩
    · rintro ⟨es, hes, hseen⟩
      obtain ⟨rfl, rfl⟩ := exchanges_fail.1 hes
      exact ⟨List.forall₂_nil_left_iff.1 hseen, rfl⟩
  | ask op k ih =>
    rw [translate_ask]
    constructor
    · intro h
      obtain ⟨a, rest', rfl, hrest⟩ := exchanges_ask.1 h
      obtain ⟨rest, hrest, hseen⟩ := (ih _).1 hrest
      exact ⟨_, .ask hrest, .cons ⟨op, a, rfl, rfl⟩ hseen⟩
    · rintro ⟨es, hes, hseen⟩
      obtain ⟨b, rest, rfl, hrest⟩ := exchanges_ask.1 hes
      obtain ⟨e', rest', ⟨op', a, hb, rfl⟩, hafter, rfl⟩ := List.forall₂_cons_left_iff.1 hseen
      cases hb
      exact .ask ((ih _).2 ⟨rest, hrest, hafter⟩)

/-- Where a translation has got to, the program has. -/
theorem reaches_translate {p : Prog S ε α} {es' : List (Exchange S')} {op' : S'.Op}
    (h : (p.translate φ).Reaches es' op') :
    ∃ es op, p.Reaches es op ∧ List.Forall₂ (SeenAs φ) es es' ∧ op' = φ.op op := by
  induction p generalizing es' with
  | done a => exact absurd h not_reaches_done
  | fail e => exact absurd h not_reaches_fail
  | ask op k ih =>
    rw [translate_ask] at h
    rcases reaches_ask.1 h with ⟨rfl, rfl⟩ | ⟨a, rest', rfl, hrest⟩
    · exact ⟨[], op, .here, .nil, rfl⟩
    · obtain ⟨rest, next, hreaches, hseen, rfl⟩ := ih _ hrest
      exact ⟨_, next, .later hreaches, .cons ⟨op, a, rfl, rfl⟩ hseen, rfl⟩

end Prog

end Durable
