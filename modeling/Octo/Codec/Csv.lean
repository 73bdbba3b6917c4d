import Mathlib.Data.List.Basic

/-!
# Comma-separated values

A reader for the format of RFC 4180.  A record ends with a carriage return and a line feed; a field
is either plain, without separators, quotes and line breaks, or it is quoted, with every quote
doubled.  The reader takes any character that is not one of the four as plain text.

* `Encodes text value`: the two ways to write a field.
-/

namespace Csv

open List

/-- A character that a field may have outside quotes. -/
def isPlain (c : Char) : Bool := c != ',' && c != '"' && c != '\r' && c != '\n'

theorem isPlain_iff {c : Char} : isPlain c = true ↔ c ≠ ',' ∧ c ≠ '"' ∧ c ≠ '\r' ∧ c ≠ '\n' := by
  simp [isPlain, and_assoc]

def Plain (value : List Char) : Prop := ∀ c ∈ value, isPlain c = true

instance decidablePlain (value : List Char) : Decidable (Plain value) :=
  decidable_of_iff (value.all isPlain = true) List.all_eq_true

@[simp] theorem plain_nil : Plain [] := forall_mem_nil _

@[simp] theorem plain_cons {c : Char} {value : List Char} :
    Plain (c :: value) ↔ isPlain c = true ∧ Plain value :=
  forall_mem_cons

@[simp] theorem plain_append {value value' : List Char} :
    Plain (value ++ value') ↔ Plain value ∧ Plain value' :=
  forall_mem_append

/-! ### Reading -/

inductive Mode
  /-- At the beginning of a field. -/
  | start
  | plain
  | quoted
  /-- After a quote in a quoted field, which ends it unless another one follows. -/
  | quote
  /-- After the carriage return that ends a record. -/
  | cr
  deriving DecidableEq

/-- The records in the rest of a text; `field` and `fields` are what has been read of the current
record. -/
def readFrom (mode : Mode) (field : List Char) (fields : List (List Char)) :
    List Char → Option (List (List (List Char)))
  | [] =>
    match mode with
    | .start => if fields.isEmpty then some [] else some [fields ++ [[]]]
    | .plain | .quote => some [fields ++ [field]]
    | .quoted | .cr => none
  | c :: rest =>
    match mode with
    | .start =>
      if c = '"' then readFrom .quoted [] fields rest
      else if c = ',' then readFrom .start [] (fields ++ [[]]) rest
      else if c = '\r' then readFrom .cr [] (fields ++ [[]]) rest
      else if c = '\n' then none
      else readFrom .plain [c] fields rest
    | .plain =>
      if c = ',' then readFrom .start [] (fields ++ [field]) rest
      else if c = '\r' then readFrom .cr [] (fields ++ [field]) rest
      else if c = '"' ∨ c = '\n' then none
      else readFrom .plain (field ++ [c]) fields rest
    | .quoted =>
      if c = '"' then readFrom .quote field fields rest else readFrom .quoted (field ++ [c])
        fields rest
    | .quote =>
      if c = '"' then readFrom .quoted (field ++ ['"']) fields rest
      else if c = ',' then readFrom .start [] (fields ++ [field]) rest
      else if c = '\r' then readFrom .cr [] (fields ++ [field]) rest
      else none
    | .cr => if c = '\n' then (readFrom .start [] [] rest).map (fields :: ·) else none

def read (text : List Char) : Option (List (List (List Char))) := readFrom .start [] [] text

/-! ### Writing -/

def doubled (value : List Char) : List Char :=
  value.flatMap (fun c => if c = '"' then ['"', '"'] else [c])

/-- The texts of a field with a value. -/
inductive Encodes : List Char → List Char → Prop
  | plain {value : List Char} : Plain value → Encodes value value
  | quoted (value : List Char) : Encodes ('"' :: doubled value ++ ['"']) value

def joined : List (List Char) → List Char
  | [] => []
  | [text] => text
  | text :: texts => text ++ ',' :: joined texts

def line (texts : List (List Char)) : List Char := joined texts ++ ['\r', '\n']

/-! ### What is written is read back -/

section

variable {field value text rest : List Char} {fields : List (List Char)}

theorem readFrom_plain (h : Plain value) :
    readFrom .plain field fields (value ++ rest) = readFrom .plain (field ++ value)
      fields rest := by
  induction value generalizing field with
  | nil => rw [nil_append, append_nil]
  | cons c value ih =>
    obtain ⟨hc, hvalue⟩ := plain_cons.mp h
    obtain ⟨hcomma, hquote, hcr, hlf⟩ := isPlain_iff.mp hc
    rw [cons_append, readFrom, if_neg hcomma, if_neg hcr, if_neg (not_or.mpr ⟨hquote, hlf⟩),
      ih hvalue, append_assoc]
    rfl

theorem readFrom_start {c : Char} (h : Plain (c :: value)) :
    readFrom .start [] fields (c :: value ++ rest) = readFrom .plain (c :: value) fields rest := by
  obtain ⟨hc, hvalue⟩ := plain_cons.mp h
  obtain ⟨hcomma, hquote, hcr, hlf⟩ := isPlain_iff.mp hc
  rw [cons_append, readFrom, if_neg hquote, if_neg hcomma, if_neg hcr, if_neg hlf,
    readFrom_plain hvalue]
  rfl

theorem readFrom_quoted (value : List Char) :
    readFrom .quoted field fields (doubled value ++ '"' :: rest) = readFrom .quote (field ++ value)
      fields rest := by
  induction value generalizing field with
  | nil => rw [append_nil]; rfl
  | cons c value ih =>
    by_cases hc : c = '"'
    · subst hc
      show readFrom .quoted (field ++ ['"']) fields (doubled value ++ '"' :: rest) = _
      rw [ih, append_assoc]
      rfl
    · have hd : doubled (c :: value) = c :: doubled value := by simp [doubled, hc]
      rw [hd, cons_append, readFrom, if_neg hc, ih, append_assoc]
      rfl

theorem readFrom_comma (h : Encodes text value) :
    readFrom .start [] fields (text ++ ',' :: rest) = readFrom .start [] (fields ++ [value])
      rest := by
  cases h with
  | plain hplain =>
    cases value with
    | nil => rfl
    | cons =>
      rw [readFrom_start hplain]
      rfl
  | quoted =>
    rw [append_assoc]
    exact readFrom_quoted value

theorem readFrom_lineBreak (h : Encodes text value) :
    readFrom .start [] fields (text ++ '\r' :: '\n' :: rest) = (read rest).map
      ((fields ++ [value]) :: ·) := by
  cases h with
  | plain hplain =>
    cases value with
    | nil => rfl
    | cons =>
      rw [readFrom_start hplain]
      rfl
  | quoted =>
    rw [append_assoc]
    exact readFrom_quoted value

end

theorem readFrom_line {texts values fields : List (List Char)} (rest : List Char)
    (h : List.Forall₂ Encodes texts values) (hne : texts ≠ []) :
    readFrom .start [] fields (line texts ++ rest) = (read rest).map ((fields ++ values) :: ·) := by
  induction h generalizing fields with
  | nil => exact absurd rfl hne
  | @cons text value texts values hfield hfields ih =>
    cases texts with
    | nil =>
      cases hfields
      show readFrom .start [] fields (text ++ ['\r', '\n'] ++ rest) = _
      rw [append_assoc]
      exact readFrom_lineBreak hfield
    | cons text' texts =>
      have hline : line (text :: text' :: texts) ++ rest = text ++ ',' ::
          (line (text' :: texts) ++ rest) := by
        simp [line, joined]
      rw [hline, readFrom_comma hfield, ih (cons_ne_nil _ _), append_assoc]
      rfl

/-- Lines of encoded fields are read as the records of their values. -/
theorem read_lines {records values : List (List (List Char))}
    (h : List.Forall₂ (fun texts vs => texts ≠ [] ∧ List.Forall₂ Encodes texts vs) records values) :
    read (records.flatMap line) = some values := by
  induction h with
  | nil => rfl
  | @cons texts vs records values hline _ ih =>
    rw [flatMap_cons, read, readFrom_line _ hline.2 hline.1, ih]
    rfl

example : read "a,\"b\"\"\r\n,\",c\r\n".toList =
    some [["a".toList, "b\"\r\n,".toList, "c".toList]] := by decide

end Csv
