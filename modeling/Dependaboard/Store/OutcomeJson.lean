import Dependaboard.Store.Batches
import Dependaboard.Text.Json
/-!
# Store — an outcome as JSON

The text a target's outcome is kept as: an object of one field, named for the
variant, over its fields in order, with no blank between tokens. The reader
takes what the writer makes, and a merge from before its commit was kept.
-/

namespace Dependaboard

open Json

/-- The texts between the strings of an outcome, as characters. -/
def literal (text : String) : List Char := text.toList

/-- A reason as JSON. -/
def RejectReason.write : RejectReason → List Char
  | staleSha expected actual =>
    literal "\x7b\"stale_sha\":\x7b\"expected\":" ++ (writeString expected ++
      (literal ",\"actual\":" ++ (writeString actual ++ literal "\x7d\x7d")))
  | notMergeable => writeString "not_mergeable"
  | mergeMethodDisallowed => writeString "merge_method_disallowed"
  | forbidden => writeString "forbidden"
  | notFound => writeString "not_found"
  | noUserToken => writeString "no_user_token"

/-- A reason that carries nothing, by its name. -/
def RejectReason.named (name : String) : Option RejectReason :=
  match name with
  | "not_mergeable" => some notMergeable
  | "merge_method_disallowed" => some mergeMethodDisallowed
  | "forbidden" => some forbidden
  | "not_found" => some notFound
  | "no_user_token" => some noUserToken
  | _ => none

/-- A reason, and what stands behind it. -/
def RejectReason.read (text : List Char) : Option (RejectReason × List Char) :=
  match readLiteral (literal "\x7b\"stale_sha\":\x7b\"expected\":") text with
  | some rest => do
    let (expected, rest) ← readString rest
    let (actual, rest) ← readString (← readLiteral (literal ",\"actual\":") rest)
    return (.staleSha expected actual, ← readLiteral (literal "\x7d\x7d") rest)
  | none => do
    let (name, rest) ← readString text
    return (← named name, rest)

/-- The commit a merge made, as JSON. -/
def writeMergeSha : Option String → List Char
  | none => literal "null"
  | some sha => writeString sha

/-- The commit a merge made, if the text names one; one that does not say was
kept before it was. -/
def readMergeSha (text : List Char) : Option (Option String × List Char) :=
  match readLiteral (literal ",\"merge_sha\":") text with
  | none => some (none, text)
  | some rest =>
    match readLiteral (literal "null") rest with
    | some rest => some (none, rest)
    | none => (readString rest).map fun read => (some read.1, read.2)

/-- An outcome as JSON. -/
def TargetOutcome.write : TargetOutcome → List Char
  | succeeded detail mergeSha =>
    literal "\x7b\"succeeded\":\x7b\"detail\":" ++ (writeString detail ++
      (literal ",\"merge_sha\":" ++ (writeMergeSha mergeSha ++ literal "\x7d\x7d")))
  | rejected reason =>
    literal "\x7b\"rejected\":\x7b\"reason\":" ++ (reason.write ++ literal "\x7d\x7d")
  | failed detail =>
    literal "\x7b\"failed\":\x7b\"detail\":" ++ (writeString detail ++ literal "\x7d\x7d")

/-- An outcome, and what stands behind it. -/
def TargetOutcome.read (text : List Char) : Option (TargetOutcome × List Char) :=
  match readLiteral (literal "\x7b\"succeeded\":\x7b\"detail\":") text with
  | some rest => do
    let (detail, rest) ← readString rest
    let (mergeSha, rest) ← readMergeSha rest
    return (.succeeded detail mergeSha, ← readLiteral (literal "\x7d\x7d") rest)
  | none =>
    match readLiteral (literal "\x7b\"rejected\":\x7b\"reason\":") text with
    | some rest => do
      let (reason, rest) ← RejectReason.read rest
      return (.rejected reason, ← readLiteral (literal "\x7d\x7d") rest)
    | none => do
      let rest ← readLiteral (literal "\x7b\"failed\":\x7b\"detail\":") text
      let (detail, rest) ← readString rest
      return (.failed detail, ← readLiteral (literal "\x7d\x7d") rest)

/-- **A reason is read as it was written.** -/
theorem RejectReason.read_write (reason : RejectReason) (rest : List Char) :
    RejectReason.read (reason.write ++ rest) = some (reason, rest) := by
  cases reason with
  | staleSha expected actual =>
    simp only [write, List.append_assoc, RejectReason.read, readLiteral_append,
      readString_writeString, Option.bind_eq_bind, Option.bind_some]
    rfl
  | notMergeable => rfl
  | mergeMethodDisallowed => rfl
  | forbidden => rfl
  | notFound => rfl
  | noUserToken => rfl

theorem readMergeSha_write (mergeSha : Option String) (rest : List Char) :
    readMergeSha (literal ",\"merge_sha\":" ++ (writeMergeSha mergeSha ++ rest))
      = some (mergeSha, rest) := by
  cases mergeSha with
  | none => simp only [readMergeSha, writeMergeSha, readLiteral_append]
  | some sha =>
    have hnull : readLiteral (literal "null") (writeString sha ++ rest) = none := rfl
    simp only [readMergeSha, writeMergeSha, readLiteral_append, hnull, readString_writeString,
      Option.map_some]

/-- **An outcome is read as it was written.** -/
theorem TargetOutcome.read_write (outcome : TargetOutcome) :
    TargetOutcome.read outcome.write = some (outcome, []) := by
  have hend : readLiteral (literal "\x7d\x7d") (literal "\x7d\x7d") = some [] := rfl
  cases outcome with
  | succeeded detail mergeSha =>
    simp only [write, TargetOutcome.read, readLiteral_append, readString_writeString,
      readMergeSha_write, Option.bind_eq_bind, Option.bind_some, hend]
    rfl
  | rejected reason =>
    have hother : readLiteral (literal "\x7b\"succeeded\":\x7b\"detail\":")
        (TargetOutcome.rejected reason).write = none := rfl
    simp only [TargetOutcome.read, hother]
    simp only [write, readLiteral_append, RejectReason.read_write, Option.bind_eq_bind,
      Option.bind_some, hend]
    rfl
  | failed detail =>
    have hfirst : readLiteral (literal "\x7b\"succeeded\":\x7b\"detail\":")
        (TargetOutcome.failed detail).write = none := rfl
    have hsecond : readLiteral (literal "\x7b\"rejected\":\x7b\"reason\":")
        (TargetOutcome.failed detail).write = none := rfl
    simp only [TargetOutcome.read, hfirst, hsecond]
    simp only [write, readLiteral_append, readString_writeString, Option.bind_eq_bind,
      Option.bind_some, hend]
    rfl

/-- The text an outcome is kept as. -/
def outcomeJson : OutcomeCodec where
  toJson outcome := String.ofList outcome.write
  fromJson text :=
    match TargetOutcome.read text.toList with
    | some (outcome, []) => some outcome
    | _ => none
  fromJson_toJson outcome := by
    rw [String.toList_ofList, TargetOutcome.read_write]

example : outcomeJson.fromJson "\x7b\"succeeded\":\x7b\"detail\":\"merged\"\x7d\x7d"
    = some (.succeeded "merged" none) := by decide

end Dependaboard
