import Mathlib.Data.List.Forall2
import Mathlib.Data.List.TakeWhile
import Dependaboard.Text.Urlencoded
/-!
# URL paths — text in a segment

A path is read up to its query or fragment and split into segments, `.` and
`..` among them are resolved, and each is the text its escapes stand for.
`encode` writes a text as one segment; `read_join` is that segments which hold
no separator and are not dots are read as the texts they name.
-/

namespace UrlPath

open Urlencoded (hexDigit hexValue hex_facts)

/-! ## Reading -/

/-- A slash, or what a URL takes for one. -/
def isSeparator (c : Char) : Bool := c = '/' || c = '\\'

/-- What ends a path. -/
def endsPath (c : Char) : Bool := c = '?' || c = '#'

/-- The bytes a segment stands for. -/
def decode : List Char → List UInt8
  | [] => []
  | '%' :: high :: low :: rest =>
    match hexValue high, hexValue low with
    | some high, some low => .ofNat (16 * high + low) :: decode rest
    | _, _ => 37 :: decode (high :: low :: rest)
  | c :: rest => String.utf8EncodeChar c ++ decode rest

/-- The text a segment stands for. -/
def text? (segment : List Char) : Option String := String.fromUTF8? ⟨(decode segment).toArray⟩

/-- A segment for where the path stands, escaped or not. -/
def isDot (segment : List Char) : Bool := decode segment = [46]

/-- A segment for the one above. -/
def isDoubleDot (segment : List Char) : Bool := decode segment = [46, 46]

/-- Dot segments resolved, below the segments so far. -/
def resolve (sofar : List (List Char)) : List (List Char) → List (List Char)
  | [] => sofar
  | [last] =>
    if isDoubleDot last then sofar.dropLast ++ [[]]
    else if isDot last then sofar ++ [[]]
    else sofar ++ [last]
  | segment :: rest =>
    if isDoubleDot segment then resolve sofar.dropLast rest
    else if isDot segment then resolve sofar rest
    else resolve (sofar ++ [segment]) rest

/-- The segments of a path that begins with a slash. -/
def read (path : List Char) : Option (List String) :=
  match path.takeWhile fun c => !endsPath c with
  | [] => none
  | c :: rest => if isSeparator c then (resolve [] (rest.splitOnP isSeparator)).mapM text? else none

/-! ## Writing -/

/-- The byte stands for itself: a letter, a digit, or one of `-._~`. -/
def isUnreserved (n : ℕ) : Bool :=
  48 ≤ n && n < 58 || 65 ≤ n && n < 91 || 97 ≤ n && n < 123 || n = 45 || n = 46 || n = 95 || n = 126

/-- A byte is written as it is only where no path reads it otherwise. -/
def encodeByte (b : UInt8) : List Char :=
  if isUnreserved b.toNat then [Char.ofNat b.toNat]
  else ['%', hexDigit (b.toNat / 16), hexDigit (b.toNat % 16)]

/-- A text as one segment. -/
def encode (text : String) : List Char := text.toByteArray.data.toList.flatMap encodeByte

/-- Segments as a path. -/
def join (segments : List (List Char)) : List Char := segments.flatMap fun segment => '/' :: segment

/-! ## What is written is read as it was -/

/-- The character neither ends a segment nor begins an escape. -/
def isInner (c : Char) : Bool := !isSeparator c && !endsPath c

theorem unreserved_facts : ∀ n < 256, isUnreserved n = true →
    Char.ofNat n ≠ '%' ∧ isInner (Char.ofNat n) = true ∧
      String.utf8EncodeChar (Char.ofNat n) = [UInt8.ofNat n] := by
  decide +kernel

theorem hexDigit_inner : ∀ n < 16, isInner (hexDigit n) = true := by decide

/-- **One byte is read as it was written.** -/
theorem decode_encodeByte (b : UInt8) (rest : List Char) :
    decode (encodeByte b ++ rest) = b :: decode rest := by
  have hb : b.toNat < 256 := b.toNat_lt
  unfold encodeByte
  split
  · next hplain =>
    obtain ⟨hpercent, -, hutf8⟩ := unreserved_facts _ hb hplain
    rw [List.cons_append, List.nil_append, decode.eq_3 _ _ fun _ _ _ h _ => hpercent h, hutf8,
      UInt8.ofNat_toNat]
    rfl
  · obtain ⟨hhigh, -⟩ := hex_facts (b.toNat / 16) (by omega)
    obtain ⟨hlow, -⟩ := hex_facts (b.toNat % 16) (by omega)
    have hsum : 16 * (b.toNat / 16) + b.toNat % 16 = b.toNat := by omega
    simp only [List.cons_append, List.nil_append, decode, hhigh, hlow, hsum, UInt8.ofNat_toNat]

theorem decode_flatMap (bytes : List UInt8) : decode (bytes.flatMap encodeByte) = bytes := by
  induction bytes with
  | nil => rfl
  | cons b bytes ih => rw [List.flatMap_cons, decode_encodeByte, ih]

theorem decode_encode (text : String) : decode (encode text) = text.toByteArray.data.toList :=
  decode_flatMap _

/-- **A text is read as it was written.** -/
@[simp] theorem text?_encode (text : String) : text? (encode text) = some text := by
  rw [text?, decode_encode, String.fromUTF8?, Array.toArray_toList]
  exact dif_pos text.isValidUTF8

/-- Texts are written one after the other. -/
theorem encode_append (text other : String) :
    encode (text ++ other) = encode text ++ encode other := by
  simp [encode]

/-- Text of plain bytes is written as it is. -/
theorem encode_of_unreserved {segment : List Char}
    (h : ∀ c ∈ segment, c.toNat < 256 ∧ isUnreserved c.toNat = true) :
    encode (String.ofList segment) = segment := by
  induction segment with
  | nil => rfl
  | cons c rest ih =>
    obtain ⟨hc, hplain⟩ := h c List.mem_cons_self
    have hchar : encode (String.ofList [c]) = [c] := by
      obtain ⟨-, -, hutf8⟩ := unreserved_facts _ hc hplain
      rw [Char.ofNat_toNat] at hutf8
      have hbyte : (UInt8.ofNat c.toNat).toNat = c.toNat := by
        simpa using Nat.mod_eq_of_lt hc
      simp [encode, List.utf8Encode, hutf8, encodeByte, hbyte, hplain]
    rw [← List.singleton_append, String.ofList_append, encode_append, hchar,
      ih fun d hd => h d (List.mem_cons_of_mem c hd)]

/-- A text written stays within its segment. -/
theorem inner_encode (text : String) : ∀ c ∈ encode text, isInner c = true := by
  intro c hc
  obtain ⟨b, -, hc⟩ := List.mem_flatMap.1 hc
  have hb : b.toNat < 256 := b.toNat_lt
  unfold encodeByte at hc
  split at hc
  · next hplain =>
    rw [List.mem_singleton.1 hc]
    exact (unreserved_facts _ hb hplain).2.1
  · simp only [List.mem_cons, List.not_mem_nil, or_false] at hc
    rcases hc with rfl | rfl | rfl
    · decide
    · exact hexDigit_inner _ (by omega)
    · exact hexDigit_inner _ (by omega)

/-- A text is its bytes. -/
theorem bytes_inj {text other : String} :
    text.toByteArray.data.toList = other.toByteArray.data.toList ↔ text = other := by
  constructor
  · intro h
    exact String.toByteArray_inj.1 (ByteArray.ext (Array.toList_inj.1 h))
  · rintro rfl
    rfl

/-- Only the text that is a dot is written as a dot segment. -/
theorem isDot_encode (text : String) : isDot (encode text) = decide (text = ".") := by
  rw [isDot, decode_encode, show [46] = ".".toByteArray.data.toList from rfl]
  exact decide_eq_decide.2 bytes_inj

theorem isDoubleDot_encode (text : String) : isDoubleDot (encode text) = decide (text = "..") := by
  rw [isDoubleDot, decode_encode, show [46, 46] = "..".toByteArray.data.toList from rfl]
  exact decide_eq_decide.2 bytes_inj

/-- Text with no escape in it stands for itself. -/
theorem decode_of_plain {segment : List Char} (h : '%' ∉ segment) :
    decode segment = (String.ofList segment).toByteArray.data.toList := by
  have hdecode : decode segment = segment.flatMap String.utf8EncodeChar := by
    induction segment with
    | nil => rfl
    | cons c rest ih =>
      obtain ⟨hc, hrest⟩ := not_or.1 (List.mem_cons.not.1 h)
      rw [decode.eq_3 _ _ fun _ _ _ heq _ => hc heq.symm, ih hrest, List.flatMap_cons]
  rw [hdecode, String.toByteArray_ofList, List.utf8Encode]
  simp

theorem text?_of_plain {segment : List Char} (h : '%' ∉ segment) :
    text? segment = some (String.ofList segment) := by
  rw [text?, decode_of_plain h, String.fromUTF8?, Array.toArray_toList]
  exact dif_pos (String.ofList segment).isValidUTF8

/-! ## A path of segments -/

/-- A segment that is read where it stands: it neither ends nor moves. -/
structure Stays (segment : List Char) : Prop where
  inner : ∀ c ∈ segment, isInner c = true
  dot : isDot segment = false
  doubleDot : isDoubleDot segment = false

theorem resolve_of_stays {sofar segments : List (List Char)} (h : ∀ s ∈ segments, Stays s) :
    resolve sofar segments = sofar ++ segments := by
  fun_induction resolve sofar segments with
  | case1 sofar => simp
  | case2 sofar last hdouble =>
    rw [(h last List.mem_cons_self).doubleDot] at hdouble
    cases hdouble
  | case3 sofar last _ hdot =>
    rw [(h last List.mem_cons_self).dot] at hdot
    cases hdot
  | case4 sofar last => rfl
  | case5 sofar segment rest _ hdouble =>
    rw [(h segment List.mem_cons_self).doubleDot] at hdouble
    cases hdouble
  | case6 sofar segment rest _ _ hdot =>
    rw [(h segment List.mem_cons_self).dot] at hdot
    cases hdot
  | case7 sofar segment rest _ _ _ ih =>
    rw [ih fun s hs => h s (List.mem_cons_of_mem _ hs)]
    simp

/-- A path splits into the segments it was joined from. -/
theorem splitOnP_join {segment : List Char} {rest : List (List Char)}
    (h : ∀ s ∈ segment :: rest, ∀ c ∈ s, isInner c = true) :
    (segment ++ join rest).splitOnP isSeparator = segment :: rest := by
  induction rest generalizing segment with
  | nil =>
    rw [join, List.flatMap_nil, List.append_nil]
    refine List.splitOnP_eq_singleton fun c hc => ?_
    have hinner := h segment List.mem_cons_self c hc
    simpa [isInner] using (Bool.and_eq_true_iff.1 hinner).1
  | cons next rest ih =>
    have hseparator : isSeparator '/' = true := rfl
    rw [join, List.flatMap_cons, List.cons_append,
      List.splitOnP_append_cons_of_forall_mem (fun c hc => ?_) '/' hseparator]
    · exact congrArg (segment :: ·) (ih fun s hs => h s (List.mem_cons_of_mem _ hs))
    · have hinner := h segment List.mem_cons_self c hc
      simpa [isInner] using (Bool.and_eq_true_iff.1 hinner).1

/-- **Segments are read as they were joined**, dots resolved. -/
theorem read_join_eq {segments : List (List Char)} (hne : segments ≠ [])
    (h : ∀ s ∈ segments, ∀ c ∈ s, isInner c = true) :
    read (join segments) = (resolve [] segments).mapM text? := by
  obtain ⟨segment, rest, rfl⟩ := List.exists_cons_of_ne_nil hne
  have hends : ∀ c ∈ join (segment :: rest), (!endsPath c) = true := by
    intro c hc
    obtain ⟨s, hs, hc⟩ := List.mem_flatMap.1 hc
    rcases List.mem_cons.1 hc with rfl | hc
    · rfl
    · exact (Bool.and_eq_true_iff.1 (h s hs c hc)).2
  rw [read, List.takeWhile_eq_self_iff.2 hends, join, List.flatMap_cons, List.cons_append]
  exact congrArg (fun segments => (resolve [] segments).mapM text?) (splitOnP_join h)

/-- The segment is read as a text, where it stands. -/
def Names (segment : List Char) (text : String) : Prop :=
  Stays segment ∧ text? segment = some text

/-- **Segments are read as the texts they name.** -/
theorem read_join {segments : List (List Char)} {texts : List String} (hne : segments ≠ [])
    (h : List.Forall₂ Names segments texts) : read (join segments) = some texts := by
  have hstays : ∀ s ∈ segments, Stays s := by
    intro s hs
    induction h with
    | nil => cases hs
    | cons hname _ ih =>
      rcases List.mem_cons.1 hs with rfl | hs
      · exact hname.1
      · exact ih (List.ne_nil_of_mem hs) hs
  rw [read_join_eq hne fun s hs => (hstays s hs).inner, resolve_of_stays hstays, List.nil_append]
  clear hne hstays
  induction h with
  | nil => rfl
  | cons hname _ ih => simp [hname.2, ih]

/-- A text written is read, unless it is dots. -/
theorem names_encode {text : String} (hdot : text ≠ ".") (hdouble : text ≠ "..") :
    Names (encode text) text :=
  ⟨⟨inner_encode text, by simpa [isDot_encode] using hdot,
    by simpa [isDoubleDot_encode] using hdouble⟩, text?_encode text⟩

/-- A plain text names itself: it holds no escape, no separator and no dot. -/
theorem names_plain {text : String}
    (h : ∀ c ∈ text.toList, isInner c = true ∧ c ≠ '%' ∧ c ≠ '.') : Names text.toList text := by
  have hpercent : '%' ∉ text.toList := fun hmem => (h _ hmem).2.1 rfl
  have hdecode : decode text.toList = text.toByteArray.data.toList := by
    rw [decode_of_plain hpercent, String.ofList_toList]
  have hne : ∀ other : String, '.' ∈ other.toList → text ≠ other := by
    rintro other hmem rfl
    exact (h _ hmem).2.2 rfl
  refine ⟨⟨fun c hc => (h c hc).1, ?_, ?_⟩, by rw [text?_of_plain hpercent, String.ofList_toList]⟩
  · rw [isDot, hdecode, show [46] = ".".toByteArray.data.toList from rfl]
    exact decide_eq_false fun heq => hne "." (by decide) (bytes_inj.1 heq)
  · rw [isDoubleDot, hdecode, show [46, 46] = "..".toByteArray.data.toList from rfl]
    exact decide_eq_false fun heq => hne ".." (by decide) (bytes_inj.1 heq)

end UrlPath
