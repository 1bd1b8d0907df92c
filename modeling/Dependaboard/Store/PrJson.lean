import Dependaboard.Store.Columns
import Dependaboard.Store.OutcomeJson
/-!
# Store — the JSON columns of a pull request

The texts a pull request's dependencies and labels are kept as: a list of
objects of four fields, and a list of strings, with no blank between tokens.
The database's functions take the names and the values out of the same texts.
-/

namespace Dependaboard

open Json

/-- A text that may be absent, as JSON. -/
def writeOption : Option String → List Char
  | none => literal "null"
  | some value => writeString value

/-- A text that may be absent, and what stands behind it. -/
def readOption (text : List Char) : Option (Option String × List Char) :=
  match readLiteral (literal "null") text with
  | some rest => some (none, rest)
  | none => (readString text).map fun read => (some read.1, read.2)

theorem readOption_writeOption (value : Option String) (rest : List Char) :
    readOption (writeOption value ++ rest) = some (value, rest) := by
  cases value with
  | none => simp only [readOption, writeOption, readLiteral_append]
  | some value =>
    have hnull : readLiteral (literal "null") (writeString value ++ rest) = none := rfl
    simp only [readOption, writeOption, hnull, readString_writeString, Option.map_some]

namespace DependencyUpdate

/-- One dependency as JSON. -/
def write (dependency : DependencyUpdate) : List Char :=
  literal "\x7b\"name\":" ++ (writeString dependency.name ++
    (literal ",\"from_version\":" ++ (writeOption dependency.fromVersion ++
      (literal ",\"to_version\":" ++ (writeOption dependency.toVersion ++
        (literal ",\"update_type\":" ++ (writeString (toString dependency.updateType) ++
          literal "\x7d")))))))

/-- One dependency, and what stands behind it. -/
def read (text : List Char) : Option (DependencyUpdate × List Char) := do
  let (name, rest) ← readString (← readLiteral (literal "\x7b\"name\":") text)
  let (fromVersion, rest) ← readOption (← readLiteral (literal ",\"from_version\":") rest)
  let (toVersion, rest) ← readOption (← readLiteral (literal ",\"to_version\":") rest)
  let (updateType, rest) ← readString (← readLiteral (literal ",\"update_type\":") rest)
  return (⟨name, fromVersion, toVersion, ← UpdateType.fromStr updateType⟩,
    ← readLiteral (literal "\x7d") rest)

/-- **A dependency is read as it was written.** -/
theorem read_write (dependency : DependencyUpdate) (rest : List Char) :
    read (dependency.write ++ rest) = some (dependency, rest) := by
  simp only [write, List.append_assoc, read, readLiteral_append, readString_writeString,
    readOption_writeOption, UpdateType.fromStr_toString, Option.bind_eq_bind, Option.bind_some]
  rfl

end DependencyUpdate

/-- Read a whole text. -/
def readWhole {α : Type} (read : List Char → Option (α × List Char)) (text : String) : Option α :=
  match read text.toList with
  | some (a, []) => some a
  | _ => none

theorem readWhole_ofList {α : Type} {read : List Char → Option (α × List Char)}
    {written : List Char} {a : α} (h : read (written ++ []) = some (a, [])) :
    readWhole read (String.ofList written) = some a := by
  rw [List.append_nil] at h
  rw [readWhole, String.toList_ofList, h]

theorem dependencies_read_write (dependencies : List DependencyUpdate) :
    readWhole (readList DependencyUpdate.read)
      (String.ofList (writeList DependencyUpdate.write dependencies)) = some dependencies :=
  readWhole_ofList (readList_writeList DependencyUpdate.read_write
    (fun _ _ => by simp [DependencyUpdate.write, literal]) dependencies [])

theorem labels_read_write (labels : List String) :
    readWhole (readList readString) (String.ofList (writeList writeString labels)) = some labels :=
  readWhole_ofList (readList_writeList readString_writeString
    (fun _ _ => by simp [writeString]) labels [])

/-- The texts of the two columns. -/
def prJson : PrCodec where
  dependenciesToJson dependencies :=
    String.ofList (writeList DependencyUpdate.write dependencies)
  dependenciesFromJson := readWhole (readList DependencyUpdate.read)
  labelsToJson labels := String.ofList (writeList writeString labels)
  labelsFromJson := readWhole (readList readString)
  eachName text :=
    (readWhole (readList DependencyUpdate.read) text).map (List.map DependencyUpdate.name)
  eachValue := readWhole (readList readString)
  dependencies_fromJson_toJson := dependencies_read_write
  labels_fromJson_toJson := labels_read_write
  eachName_toJson dependencies := by rw [dependencies_read_write]; rfl
  eachValue_toJson := labels_read_write

example : prJson.labelsToJson ["dependencies", "rust"] = "[\"dependencies\",\"rust\"]" := by decide

end Dependaboard
