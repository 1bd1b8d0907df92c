import Mathlib.Data.List.Infix
/-!
# Dependaboard — text

What the code asks of text beyond its equality: whether one text occurs in
another, its ASCII letters in lower case, its outer white space taken off,
and whether it is like a pattern of the database's.
-/

namespace Dependaboard

/-- Whether `needle` occurs in `text`. -/
def containsText (text needle : String) : Bool := needle.toList <:+: text.toList

/-- The ASCII letters of `text` in lower case. -/
def asciiLowercase (text : String) : String := String.ofList (text.toList.map Char.toLower)

/-- The characters Unicode calls white space. -/
def isWhiteSpace (c : Char) : Bool :=
  let n := c.toNat
  9 ≤ n && n ≤ 13 || n == 32 || n == 133 || n == 160 || n == 5760 || 8192 ≤ n && n ≤ 8202
    || n == 8232 || n == 8233 || n == 8239 || n == 8287 || n == 12288

/-- The text without the white space around it. -/
def trim (text : String) : String :=
  String.ofList (((text.toList.dropWhile isWhiteSpace).reverse.dropWhile isWhiteSpace).reverse)

/-! ## Patterns -/

/-- One place of a pattern. -/
inductive LikeToken where
  /-- Any text, the empty one included. -/
  | any
  /-- Any one character. -/
  | one
  /-- This character, an ASCII letter in either case. -/
  | char (c : Char)
  deriving DecidableEq, Repr

/-- The places of a pattern, a character behind `escape` standing for itself;
`none` for a pattern that ends in `escape`. -/
def likeTokens (escape : Char) : List Char → Option (List LikeToken)
  | [] => some []
  | c :: rest =>
    if c = escape then
      match rest with
      | [] => none
      | d :: rest => (likeTokens escape rest).map (.char d :: ·)
    else if c = '%' then (likeTokens escape rest).map (.any :: ·)
    else if c = '_' then (likeTokens escape rest).map (.one :: ·)
    else (likeTokens escape rest).map (.char c :: ·)

/-- Whether a text fills a pattern's places. -/
def likeMatches : List LikeToken → List Char → Bool
  | [], text => text.isEmpty
  | .any :: places, text => text.tails.any fun rest => likeMatches places rest
  | .one :: _, [] => false
  | .one :: places, _ :: rest => likeMatches places rest
  | .char _ :: _, [] => false
  | .char c :: places, d :: rest => c.toLower = d.toLower && likeMatches places rest

/-- `text LIKE pattern ESCAPE escape`. -/
def like (escape : Char) (pattern text : String) : Bool :=
  match likeTokens escape pattern.toList with
  | none => false
  | some places => likeMatches places text.toList

example : like (Char.ofNat 92) "%50\\%_off%" "now 50% off" = true := by decide +kernel

end Dependaboard
